import Sentential.Proofs.Complaints
import Sentential.Proofs.Sentences

/-!
# Parsing fails with one fault

An expression that is not read has been left with exactly one fault, the one that its tokens are to be blamed
for at any depth (`blamed`), by induction on the number of tokens left. The readers around it pass it on as it
is, so a statement is rejected with one fault or read with none (`Statement.ofTokens_complaint?`).
-/

namespace Sentential

namespace Parser.Grammar

variable {level : Level} {t : Token} {ts rest : List Token} {faults : List Fault} {s : State}

/-- One fault more is left, and it is what is said at every depth. -/
def Leaves (faults : List Fault) (s : State) (said : Nat → Option String) : Prop :=
  ∃ fault, s.faults = faults ++ [fault] ∧ ∀ depth, said depth = some fault.message

/-- An expression that is not read leaves the fault that its tokens are blamed for. -/
def Blamed (ts : List Token) : Prop :=
  ∀ {level : Level} {faults : List Fault} {s : State},
    standard.expression level (.facing ts faults) = some (none, s) →
      Leaves faults s fun depth => (Place.operand depth).complaint? ts

/-- What is said may have been said further on, at another depth. -/
theorem Leaves.of_forall_exists {said said' : Nat → Option String} (h : Leaves faults s said)
    (hsaid : ∀ depth, ∃ depth', said' depth = said depth') : Leaves faults s said' := by
  obtain ⟨fault, hfault, hmessage⟩ := h
  refine ⟨fault, hfault, fun depth => ?_⟩
  obtain ⟨depth', he⟩ := hsaid depth
  exact he.trans (hmessage depth')

/-- Behind the expression in a group: nothing but a closing parenthesis may come. -/
theorem blamed_of_closeGroup {f : Formula} {t? : Option Token} (hstops : Stops rest)
    (h : Standard.closeGroup (some f, ⟨t?, rest, faults⟩) = (none, s)) :
    Leaves faults s fun depth => (Place.complete (depth + 1)).complaint? rest := by
  cases rest with
  | nil =>
    cases h
    exact ⟨_, rfl, fun _ => rfl⟩
  | cons t ts =>
    rw [Standard.closeGroup] at h
    dsimp only [State.peek?, List.head?_cons] at h
    split at h
    · cases h
    · next hk =>
      cases h
      exact ⟨_, rfl, fun _ => Place.complaint?_of_error (Place.next_complete_unclosed (hstops t rfl) hk)⟩

theorem blamed_of_readOperand (hs : ∀ t ∈ ts, t.Spelt)
    (ih : ∀ us, us.length < ts.length → (∀ t ∈ us, t.Spelt) → Blamed us)
    (h : standard.readOperand standard.expression (.facing ts faults) = some (none, s)) :
    Leaves faults s fun depth => (Place.operand depth).complaint? ts := by
  cases ts with
  | nil =>
    rw [readOperand_nil] at h
    cases h
    exact ⟨_, rfl, fun _ => rfl⟩
  | cons t ts =>
    obtain ⟨ht, hts⟩ := List.forall_mem_cons.1 hs
    cases hk : t.kind with
    | name =>
      rw [readOperand_name hk] at h
      cases h
    | const value =>
      rw [readOperand_const hk] at h
      cases h
    | bang =>
      rw [readOperand_bang hk (ht.bang hk)] at h
      obtain ⟨⟨f?, s'⟩, hread, he⟩ := Option.map_eq_some_iff.1 h
      cases f? with
      | some f => cases he
      | none =>
        cases he
        exact (ih ts (Nat.lt_succ_self _) hts hread).of_forall_exists fun depth =>
          ⟨depth, Place.complaint?_of_ok (Place.next_operand_bang hk)⟩
    | openParen =>
      rw [readOperand_openParen hk] at h
      obtain ⟨⟨f?, s'⟩, hread, he⟩ := Option.map_eq_some_iff.1 h
      have hopen : ∀ depth, (Place.operand depth).complaint? (t :: ts) =
          (Place.operand (depth + 1)).complaint? ts :=
        fun depth => Place.complaint?_of_ok (Place.next_operand_openParen hk)
      cases f? with
      | none =>
        cases he
        exact (ih ts (Nat.lt_succ_self _) hts hread).of_forall_exists fun depth => ⟨depth + 1, hopen depth⟩
      | some f =>
        obtain ⟨used, rest, rfl, hreads, rfl⟩ := (expression_eq_some_iff hts).1 hread
        obtain ⟨hc, hstops⟩ := hreads.isChain
        exact (blamed_of_closeGroup hstops he).of_forall_exists fun depth =>
          ⟨depth, (hopen depth).trans (hc.complaint?_append (depth + 1) rest)⟩
    | _ =>
      rw [readOperand_other (by rw [hk]; rfl)] at h
      cases h
      refine ⟨_, rfl, fun depth => Place.complaint?_of_error ?_⟩
      exact Place.next_operand_other (by simp [hk]) (by simp [hk]) (by simp [hk]) (by simp [hk])

theorem blamed_of_extend {count : Nat} {left : Formula} {t? : Option Token} (hs : ∀ t ∈ ts, t.Spelt)
    (ih : ∀ us, us.length < ts.length → (∀ t ∈ us, t.Spelt) → Blamed us)
    (h : standard.extend standard.expression .lowest count left ⟨t?, ts, faults⟩ = some (none, s)) :
    Leaves faults s fun depth => (Place.complete depth).complaint? ts := by
  induction count generalizing ts left t? with
  | zero => cases h
  | succ count ihcount =>
    rcases stops_or_connective ts with hstops | ⟨t, c, ts, rfl, hk⟩
    · rw [extend_of_stops hstops] at h
      cases h
    · obtain ⟨ht, hts⟩ := List.forall_mem_cons.1 hs
      have hnext : ∀ depth, (Place.complete depth).complaint? (t :: ts) =
          (Place.operand depth).complaint? ts :=
        fun depth => Place.complaint?_of_ok (Place.next_complete_connective hk)
      rw [extend_connective hk (ht.connective hk)] at h
      obtain ⟨⟨right?, s'⟩, hread, hext⟩ := Option.bind_eq_some_iff.1 h
      cases right? with
      | none =>
        cases hext
        exact (ih ts (Nat.lt_succ_self _) hts hread).of_forall_exists fun depth => ⟨depth, hnext depth⟩
      | some right =>
        obtain ⟨used, rest, rfl, hreads, rfl⟩ := (expression_eq_some_iff hts).1 hread
        have ho := hreads.isOperand (by decide)
        have hlen : rest.length < (t :: (used ++ rest)).length := Nat.lt_succ_of_lt (ho.length_lt rest)
        have hrest := ihcount (List.forall_mem_append.1 hts).2 (fun us hus => ih us (Nat.lt_trans hus hlen)) hext
        exact hrest.of_forall_exists fun depth => ⟨depth, (hnext depth).trans (ho.complaint?_append depth rest)⟩

theorem blamed (hs : ∀ t ∈ ts, t.Spelt) : Blamed ts := by
  induction hn : ts.length using Nat.strongRecOn generalizing ts with
  | ind n ih =>
    have ih' : ∀ us, us.length < ts.length → (∀ t ∈ us, t.Spelt) → Blamed us :=
      fun us hlt hus => ih us.length (hn ▸ hlt) hus rfl
    intro level faults s h
    rw [standard_eq, readWith] at h
    split at h
    · cases h
    · next hread =>
      cases h
      exact blamed_of_readOperand hs ih' hread
    · next left s' hread =>
      by_cases hl : level = .lowest
      · subst hl
        obtain ⟨used, rest, rfl, ho, rfl⟩ := isOperand_of_readOperand hs (fun _ _ hus => soundAt hus) hread
        have hlt := ho.length_lt rest
        have hrest := blamed_of_extend (List.forall_mem_append.1 hs).2 (fun us hus => ih' us (Nat.lt_trans hus hlt)) h
        exact hrest.of_forall_exists fun depth => ⟨depth, ho.complaint?_append depth rest⟩
      · rw [extend_of_ne_lowest hl] at h
        cases h

/-- What is left over behind the expression of a statement is blamed. -/
theorem blamed_of_expectEnd {t? : Option Token} (hs : ∀ t ∈ rest, t.Spelt) (hstops : Stops rest)
    (hne : rest ≠ []) :
    ∃ fault, (standard.expectEnd ⟨t?, rest, faults⟩).faults = faults ++ [fault] ∧
      (Place.complete 0).complaint? rest = some fault.message := by
  cases rest with
  | nil => exact absurd rfl hne
  | cons t ts =>
    unfold expectEnd
    dsimp only [State.peek?, List.head?_cons]
    by_cases hclose : t.kind = .closeParen
    · have hliteral : t.literal = ")" := (hs t List.mem_cons_self).closeParen hclose
      rw [if_pos (.inl hclose)]
      refine ⟨_, rfl, Place.complaint?_of_error ?_⟩
      rw [Place.next_complete_closeParen_zero hclose, hliteral]
      rfl
    · have hconn : ∀ c, t.kind ≠ .connective c := hstops t rfl
      have hext : standard.extension t.kind = none := by
        cases hk : t.kind with
        | connective c => exact absurd hk (hconn c)
        | _ => rfl
      rw [if_neg (by simp [hclose, hext])]
      exact ⟨_, rfl, Place.complaint?_of_error (Place.next_complete_extra hconn hclose)⟩

/-- A statement is read with no fault where nothing can be said against its tokens, and otherwise leaves the
one fault that can. -/
theorem statement_complaint? (hs : ∀ t ∈ ts, t.Spelt) {st? : Option Statement}
    (h : standard.statement (.ofTokens ts) = some (st?, s)) :
    (st?.isSome ∧ s.faults = [] ∧ Place.start.complaint? ts = none) ∨
      ∃ fault, s.faults = [fault] ∧ Place.start.complaint? ts = some fault.message := by
  cases ts with
  | nil =>
    cases h
    exact .inr ⟨_, rfl, rfl⟩
  | cons t ts =>
    obtain ⟨-, hts⟩ := List.forall_mem_cons.1 hs
    by_cases hcommand : ∃ c, t.kind = .command c
    · obtain ⟨c, hk⟩ := hcommand
      have hnext : Place.start.complaint? (t :: ts) = (Place.operand 0).complaint? ts :=
        Place.complaint?_of_ok (Place.next_start_command hk)
      rw [hnext]
      by_cases hne : ts = []
      · subst hne
        simp only [statement, State.ofTokens, State.advance_eq, State.facing_cons, hk] at h
        cases h
        exact .inr ⟨_, rfl, rfl⟩
      · rw [statement_command hk hne] at h
        obtain ⟨⟨f?, s'⟩, hread, hfinish⟩ := Option.map_eq_some_iff.1 h
        cases f? with
        | none =>
          cases hfinish
          obtain ⟨fault, hfault, hsaid⟩ := blamed hts hread
          exact .inr ⟨fault, hfault, hsaid 0⟩
        | some f =>
          obtain ⟨used, rest, rfl, hreads, rfl⟩ := (expression_eq_some_iff hts).1 hread
          obtain ⟨hc, hstops⟩ := hreads.isChain
          cases hfinish
          rw [hc.complaint?_append]
          by_cases hrest : rest = []
          · subst hrest
            exact .inl ⟨rfl, rfl, rfl⟩
          · exact .inr (blamed_of_expectEnd (List.forall_mem_append.1 hts).2 hstops hrest)
    · have hnext := Place.next_start_other fun c hk => hcommand ⟨c, hk⟩
      unfold statement at h
      simp only [State.ofTokens, State.advance_eq, State.facing_cons] at h
      split at h
      · next c hk => exact absurd ⟨c, hk⟩ hcommand
      · cases h
        exact .inr ⟨_, rfl, Place.complaint?_of_error hnext⟩

end Parser.Grammar

namespace Statement

open Parser.Grammar (guarded_standard statement_complaint?)

theorem ofTokens_complaint? {ts : List Token} (hs : ∀ t ∈ ts, t.Spelt) :
    (∃ st, ofTokens ts = .ok st ∧ Place.start.complaint? ts = none) ∨
      ∃ fault, ofTokens ts = .error ⟨[fault]⟩ ∧ Place.start.complaint? ts = some fault.message := by
  obtain ⟨st?, s, hrun⟩ := guarded_standard.exists_statement (.ofTokens ts)
  simp only [ofTokens, Parser.parse_ofTokens hrun, Option.get_some]
  rcases statement_complaint? hs hrun with ⟨hsome, hfaults, hsaid⟩ | ⟨fault, hfaults, hsaid⟩
  · obtain ⟨st, rfl⟩ := Option.isSome_iff_exists.1 hsome
    exact .inl ⟨st, Parser.conclude_ok_iff.2 ⟨rfl, hfaults⟩, hsaid⟩
  · refine .inr ⟨fault, ?_, hsaid⟩
    simp only [Parser.conclude, hfaults]
    cases st? <;> rfl

theorem read_complaint? (text : String) :
    (∃ st, read false text = .ok st ∧ Place.start.complaint? (tokenize text) = none) ∨
      ∃ fault, read false text = .error (.parse ⟨[fault]⟩) ∧
        Place.start.complaint? (tokenize text) = some fault.message := by
  rw [read_false]
  rcases ofTokens_complaint? (spelt_of_mem_tokenize text) with ⟨st, h, hsaid⟩ | ⟨fault, h, hsaid⟩
  · rw [h]
    exact .inl ⟨st, rfl, hsaid⟩
  · rw [h]
    exact .inr ⟨fault, rfl, hsaid⟩

/-- A line that is not read is rejected with a single message, which is what one look at each of its tokens
finds to say. It is never about an operator that has no meaning. A line is read exactly if there is nothing
to say. -/
theorem read_error_complaint? (text : String) :
    (∀ e, read false text = .error e → ∃ p message, e = .parse p ∧ p.messages = [message] ∧
      Place.start.complaint? (tokenize text) = some message ∧
      ∀ literal, message ≠ "no action for infix operator " ++ literal ∧
        message ≠ "no operator for prefix " ++ literal) ∧
      ((∃ st, read false text = .ok st) ↔ Place.start.complaint? (tokenize text) = none) := by
  rcases read_complaint? text with ⟨st, hread, hsaid⟩ | ⟨fault, hread, hsaid⟩
  · rw [hread, hsaid]
    exact ⟨nofun, fun _ => rfl, fun _ => ⟨st, rfl⟩⟩
  · rw [hread, hsaid]
    refine ⟨fun e he => ?_, nofun, nofun⟩
    cases he
    refine ⟨_, fault.message, rfl, rfl, rfl, fun literal => ⟨?_, ?_⟩⟩
    · exact Place.ne_append_of_complaint? hsaid (by decide) (by decide) literal
    · exact Place.ne_append_of_complaint? hsaid (by decide) (by decide) literal

/-- Inside a group, two names in a row; the negation and the nested group before them are in order. -/
theorem read_error_complaint?_of_unclosed :
    (∃ p, read false "table (!(a & 1) -> b c" = .error (.parse p) ∧ p.messages = ["expected ')', found c"]) ∧
      ∃ st, read false "table (!(a & 1) -> b)" = .ok st := by
  have hsaid : Place.start.complaint? (tokenize "table (!(a & 1) -> b c") = some "expected ')', found c" := by
    decide +kernel
  have hnothing : Place.start.complaint? (tokenize "table (!(a & 1) -> b)") = none := by decide +kernel
  refine ⟨?_, (read_error_complaint? _).2.2 hnothing⟩
  obtain ⟨herror, hok⟩ := read_error_complaint? "table (!(a & 1) -> b c"
  cases hread : read false "table (!(a & 1) -> b c" with
  | ok st =>
    rw [hok.1 ⟨st, hread⟩] at hsaid
    cases hsaid
  | error e =>
    obtain ⟨p, message, rfl, hmessages, hsaid', -⟩ := herror e hread
    cases hsaid.symm.trans hsaid'
    exact ⟨p, rfl, hmessages⟩

end Statement

end Sentential
