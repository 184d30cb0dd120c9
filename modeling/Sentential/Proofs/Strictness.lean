import Sentential.Session
import Sentential.Proofs.Failures
import Sentential.Proofs.Rescanning

/-!
# Strict and lenient sessions

A strict scan goes on to the first illegal token of the text, which it takes off without keeping it
(`Source.scan_cases`). At no place of a statement may such a token stand (`Place.kind_ne_illegal_of_next`). So
where a strict session refuses a line in the lexer, a lenient one refuses it in the parser, and where there
is no illegal token the two read the same tokens (`Session.execute_setStrict`).
-/

namespace Sentential

def firstIllegal? (ts : List Token) : Option Token := ts.find? fun t => t.kind == .illegal

section
variable {t u : Token} {ts : List Token}

theorem firstIllegal?_eq_none_iff : firstIllegal? ts = none ↔ ∀ t ∈ ts, t.kind ≠ .illegal := by
  simp [firstIllegal?]

theorem firstIllegal?_cons_illegal (h : t.kind = .illegal) : firstIllegal? (t :: ts) = some t := by
  simp [firstIllegal?, h]

theorem firstIllegal?_cons_legal (h : t.kind ≠ .illegal) : firstIllegal? (t :: ts) = firstIllegal? ts := by
  simp [firstIllegal?, h]

theorem kind_of_firstIllegal? (h : firstIllegal? ts = some t) : t.kind = .illegal := by
  simpa using List.find?_some h

theorem firstIllegal?_append {us : List Token} (h : ∀ u ∈ us, u.kind ≠ .illegal) (ht : t.kind = .illegal) :
    firstIllegal? (us ++ t :: ts) = some t := by
  induction us with
  | nil => exact firstIllegal?_cons_illegal ht
  | cons u us ih =>
    obtain ⟨hu, hus⟩ := List.forall_mem_cons.1 h
    rw [List.cons_append, firstIllegal?_cons_legal hu]
    exact ih hus

end

/-- A scan comes to the end of the text or, if it is strict, to the first illegal token. No token of the
text is lost or repeated either way. -/
theorem Source.scan_cases (strict : Bool) (s : Source) :
    ((s.scan strict).halt? = none ∧ (s.scan strict).tokens = s.tokens ∧ (s.scan strict).source.tokens = [] ∧
        (strict = true → firstIllegal? s.tokens = none)) ∨
      ∃ t, (s.scan strict).halt? = some t ∧ strict = true ∧ firstIllegal? s.tokens = some t ∧
        s.tokens = (s.scan strict).tokens ++ t :: (s.scan strict).source.tokens := by
  fun_induction scan strict s with
  | case1 s h =>
    have hnil : s.tokens = [] := by rw [tokens, scan_of_next?_eq_none h]
    refine .inl ⟨rfl, hnil.symm, hnil, fun _ => ?_⟩
    rw [hnil]
    rfl
  | case2 s t s' h hill =>
    obtain ⟨hstrict, hk⟩ := Bool.and_eq_true_iff.1 hill
    have htokens := tokens_of_next?_eq_some h
    refine .inr ⟨t, rfl, hstrict, ?_, htokens⟩
    rw [htokens]
    exact firstIllegal?_cons_illegal (beq_iff_eq.1 hk)
  | case3 s t s' h hill later ih =>
    have htokens := tokens_of_next?_eq_some h
    have hlegal : strict = true → firstIllegal? s.tokens = firstIllegal? s'.tokens := by
      intro hstrict
      rw [htokens]
      exact firstIllegal?_cons_legal fun hk => hill (by simp [hstrict, hk])
    rcases ih with ⟨hhalt, hkept, hleft, hnone⟩ | ⟨u, hhalt, hstrict, hfirst, hsplit⟩
    · exact .inl ⟨hhalt, by rw [htokens, ← hkept], hleft, fun hs => (hlegal hs).trans (hnone hs)⟩
    · exact .inr ⟨u, hhalt, hstrict, (hlegal hstrict).trans hfirst, by rw [htokens, hsplit]; rfl⟩

namespace Place
variable {p p' : Place} {t : Token} {ts : List Token}

theorem kind_ne_illegal_of_next (h : p.next t = .ok p') : t.kind ≠ .illegal := by
  intro hk
  cases p with
  | start => simp [next, hk] at h
  | operand depth => simp [next, hk] at h
  | complete depth => cases depth <;> simp [next, hk] at h

theorem firstIllegal?_of_complaint? (h : p.complaint? ts = none) : firstIllegal? ts = none := by
  induction ts generalizing p with
  | nil => rfl
  | cons t ts ih =>
    rw [complaint?] at h
    split at h
    · next p' hnext =>
      rw [firstIllegal?_cons_legal (kind_ne_illegal_of_next hnext)]
      exact ih h
    · cases h

end Place

section
variable {text : String} {t : Token}

theorem lex_true_of_legal (h : firstIllegal? (tokenize text) = none) : lex true text = .ok (tokenize text) := by
  rcases (Source.ofString text).scan_cases true with ⟨hhalt, hkept, -⟩ | ⟨t, -, -, hfirst, -⟩
  · simp [lex, Lexer.tokenize, Lexer.setStrict, Lexer.ofString, hhalt, hkept, tokenize]
  · rw [tokenize, hfirst] at h
    cases h

theorem lex_true_of_illegal (h : firstIllegal? (tokenize text) = some t) :
    lex true text = .error ⟨t.literal, t.start⟩ := by
  rcases (Source.ofString text).scan_cases true with ⟨-, -, -, hnone⟩ | ⟨u, hhalt, -, hfirst, -⟩
  · rw [tokenize, hnone rfl] at h
    cases h
  · cases hfirst.symm.trans h
    simp [lex, Lexer.tokenize, Lexer.setStrict, Lexer.ofString, hhalt]

namespace Statement

theorem read_true_of_legal (h : firstIllegal? (tokenize text) = none) : read true text = read false text := by
  simp only [read, lex_true_of_legal h, lex_false]

theorem read_true_of_illegal (h : firstIllegal? (tokenize text) = some t) :
    read true text = .error (.lex ⟨t.literal, t.start⟩) := by
  simp only [read, lex_true_of_illegal h]

/-- An illegal token is nowhere in order, so something is said about it or about a token before it. -/
theorem read_false_of_illegal (h : firstIllegal? (tokenize text) = some t) :
    ∃ e, read false text = .error (.parse e) := by
  rcases read_complaint? text with ⟨st, -, hsaid⟩ | ⟨fault, hread, -⟩
  · cases h.symm.trans (Place.firstIllegal?_of_complaint? hsaid)
  · exact ⟨_, hread⟩

/-- Strictness decides over no statement. -/
theorem read_true_ok_iff {st : Statement} : read true text = .ok st ↔ read false text = .ok st := by
  cases h : firstIllegal? (tokenize text) with
  | none => rw [read_true_of_legal h]
  | some t =>
    obtain ⟨e, he⟩ := read_false_of_illegal h
    rw [read_true_of_illegal h, he]
    exact ⟨nofun, nofun⟩

theorem read_strict_ok_iff (strict : Bool) {st : Statement} :
    read strict text = .ok st ↔ read false text = .ok st := by
  cases strict with
  | false => exact Iff.rfl
  | true => exact read_true_ok_iff

end Statement

end

namespace Session

theorem execute_ok_iff {s : Session} {text : String} {o : Outcome} :
    s.execute text = .ok o ↔ ∃ st, Statement.read s.strict text = .ok st ∧ s.run st = .ok o := by
  unfold execute
  cases Statement.read s.strict text with
  | error e => simp
  | ok st => simp

theorem execute_of_read_error {s : Session} {text : String} {e : Error}
    (h : Statement.read s.strict text = .error e) : s.execute text = .error e := by
  rw [execute, h]

/-- Whether a session is strict decides neither which lines it accepts nor what comes of them. Lines without
illegal tokens get the same answer, errors included. Any other line is refused by both: strictly as
what the first illegal token is and where it stands, leniently as no statement. -/
theorem execute_setStrict (s : Session) (text : String) :
    let strict : Session := { s with strict := true }
    let lenient : Session := { s with strict := false }
    (∀ outcome, strict.execute text = .ok outcome ↔ lenient.execute text = .ok outcome) ∧
      ((∀ t ∈ tokenize text, t.kind ≠ .illegal) → strict.execute text = lenient.execute text) ∧
      ∀ before t later, tokenize text = before ++ t :: later → (∀ u ∈ before, u.kind ≠ .illegal) →
        t.kind = .illegal →
          strict.execute text = .error (.lex ⟨t.literal, t.start⟩) ∧
            ∃ e, lenient.execute text = .error (.parse e) := by
  intro strict lenient
  refine ⟨fun outcome => ?_, fun hlegal => ?_, fun before t later htokens hbefore ht => ?_⟩
  · rw [execute_ok_iff, execute_ok_iff]
    exact exists_congr fun st => and_congr Statement.read_true_ok_iff Iff.rfl
  · have hread : Statement.read strict.strict text = Statement.read lenient.strict text :=
      Statement.read_true_of_legal (firstIllegal?_eq_none_iff.2 hlegal)
    rw [execute, hread]
    rfl
  · have hfirst : firstIllegal? (tokenize text) = some t := by
      rw [htokens]
      exact firstIllegal?_append hbefore ht
    obtain ⟨e, he⟩ := Statement.read_false_of_illegal hfirst
    exact ⟨execute_of_read_error (Statement.read_true_of_illegal hfirst), e, execute_of_read_error he⟩

/-- The first illegal token stands in a group and another one at the end; without them the group is still
not closed. -/
theorem execute_setStrict_in_group :
    let before : List Token := [⟨.command .table, "table", 0⟩, ⟨.openParen, "(", 6⟩, ⟨.name, "a", 7⟩]
    let later : List Token := [⟨.name, "b", 11⟩, ⟨.illegal, "<-", 13⟩]
    tokenize "table (a $ b <-" = before ++ ⟨.illegal, "$", 9⟩ :: later ∧
      Session.execute { strict := true } "table (a $ b <-" = .error (.lex ⟨"$", 9⟩) ∧
      (∃ e, Session.execute { strict := false } "table (a $ b <-" = .error (.parse e)) ∧
      (∀ t ∈ tokenize "table (a b", t.kind ≠ .illegal) ∧
      Session.execute { strict := true } "table (a b" = Session.execute { strict := false } "table (a b" := by
  intro before later
  have htokens : tokenize "table (a $ b <-" = before ++ ⟨.illegal, "$", 9⟩ :: later := by decide +kernel
  have hlegal : ∀ t ∈ tokenize "table (a b", t.kind ≠ .illegal := by decide +kernel
  obtain ⟨hstrict, hlenient⟩ := (execute_setStrict {} _).2.2 before _ later htokens (by decide) rfl
  exact ⟨htokens, hstrict, hlenient, hlegal, (execute_setStrict {} _).2.1 hlegal⟩

end Session

end Sentential
