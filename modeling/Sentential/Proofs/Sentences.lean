import Sentential.Error
import Sentential.Proofs.Derivation

/-!
# Parsing accepts the language of statements

A fresh parser over the tokens of a lexer succeeds exactly on the sentences, with the statement that the
sentence stands for, and so does reading a line (`Statement.read_ok_iff`).
-/

namespace Sentential

namespace Parser

namespace Grammar

variable {g : Grammar}

/-- Behind the expression of a statement nothing may stand. -/
theorem faults_expectEnd {s : State} : (g.expectEnd s).faults = [] ↔ s.faults = [] ∧ s.rest = [] := by
  obtain ⟨t?, rest, faults⟩ := s
  unfold expectEnd
  cases rest with
  | nil => exact (and_iff_left rfl).symm
  | cons t rest =>
    dsimp only [State.peek?, List.head?_cons]
    split <;> simp [State.report]

theorem rest_expectEnd {s : State} : (g.expectEnd s).rest = s.rest := by
  unfold expectEnd
  split
  · rfl
  · split <;> rfl

theorem statement_command {t : Token} {ts : List Token} {c : Command} (hk : t.kind = .command c)
    (hts : ts ≠ []) :
    g.statement (.ofTokens (t :: ts)) = (g.expression .lowest (.facing ts [])).map (g.finish c) := by
  cases ts with
  | nil => exact absurd rfl hts
  | cons u us =>
    unfold statement
    simp only [State.ofTokens, State.advance_eq, State.facing_cons, hk]
    rfl

theorem exists_command_of_statement {ts : List Token} {st : Statement} {s : State}
    (h : g.statement (.ofTokens ts) = some (some st, s)) :
    ∃ t us c, ts = t :: us ∧ t.kind = .command c ∧ us ≠ [] := by
  cases ts with
  | nil => cases h
  | cons t us =>
    unfold statement at h
    simp only [State.ofTokens, State.advance_eq, State.facing_cons] at h
    split at h
    · next c hk =>
      refine ⟨t, us, c, rfl, hk, ?_⟩
      rintro rfl
      cases h
    · cases h

theorem finish_eq_some {c : Command} {answer : Option Formula × State} {st : Statement} {s : State}
    (h : g.finish c answer = (some st, s)) :
    ∃ f, answer.1 = some f ∧ st = ⟨c, f⟩ ∧ s = g.expectEnd answer.2 := by
  obtain ⟨f?, s'⟩ := answer
  cases f? with
  | none => cases h
  | some f => cases h; exact ⟨f, rfl, rfl, rfl⟩

/-- A statement is read without a fault exactly where a command stands in front of one expression, which takes
all tokens behind it. -/
theorem statement_eq_some_iff {ts : List Token} {st : Statement} :
    (∃ s, g.statement (.ofTokens ts) = some (some st, s) ∧ s.faults = []) ↔
      ∃ t us s, ts = t :: us ∧ t.kind = .command st.command ∧ us ≠ [] ∧
        g.expression .lowest (.facing us []) = some (some st.formula, s) ∧ s.faults = [] ∧ s.rest = [] := by
  constructor
  · rintro ⟨s, h, hfaults⟩
    obtain ⟨t, us, c, rfl, hk, hus⟩ := exists_command_of_statement h
    rw [statement_command hk hus] at h
    obtain ⟨⟨f?, s'⟩, hread, hfinish⟩ := Option.map_eq_some_iff.1 h
    obtain ⟨f, hf, rfl, rfl⟩ := finish_eq_some hfinish
    cases hf
    exact ⟨t, us, s', rfl, hk, hus, hread, faults_expectEnd.1 hfaults⟩
  · rintro ⟨t, us, s, rfl, hk, hus, hread, hend⟩
    rw [statement_command hk hus, hread]
    exact ⟨g.expectEnd s, rfl, faults_expectEnd.2 hend⟩

theorem statement_iff {ts : List Token} (hs : ∀ t ∈ ts, t.Spelt) {st : Statement} :
    (∃ s, standard.statement (.ofTokens ts) = some (some st, s) ∧ s.faults = []) ↔ IsSentence ts st := by
  rw [statement_eq_some_iff]
  constructor
  · rintro ⟨t, us, s, rfl, hk, -, hread, -, hrest⟩
    obtain ⟨used, rest, rfl, hreads, rfl⟩ := (expression_eq_some_iff (List.forall_mem_cons.1 hs).2).1 hread
    obtain rfl : rest = [] := hrest
    rw [List.append_nil]
    exact .intro hk hreads.isChain.1
  · rintro ⟨hk, hc⟩
    rename_i t c us f
    have hread := expression_of_isChain hc (List.forall_mem_cons.1 hs).2 [] [] nofun
    rw [List.append_nil] at hread
    exact ⟨t, us, _, rfl, hk, hc.ne_nil, hread, rfl, rfl⟩

end Grammar

theorem conclude_ok_iff {p : Parser} {statement? : Option Statement} {st : Statement} :
    (p.conclude statement?).1 = .ok st ↔ statement? = some st ∧ p.state.faults = [] := by
  unfold conclude
  cases statement? with
  | none => exact ⟨nofun, nofun⟩
  | some st' =>
    cases p.state.faults with
    | nil =>
      constructor
      · intro h
        cases h
        exact ⟨rfl, rfl⟩
      · rintro ⟨hst, -⟩
        cases hst
        rfl
    | cons fault faults => exact ⟨nofun, nofun⟩

/-- Only the faults have a say in what is concluded. -/
theorem conclude_fst_congr {p q : Parser} (st? : Option Statement) (h : p.state.faults = q.state.faults) :
    (p.conclude st?).1 = (q.conclude st?).1 := by
  unfold conclude
  rw [h]
  cases st? with
  | none => rfl
  | some st => cases ParseError.ofFaults? q.state.faults <;> rfl

theorem parse_of_statement {p : Parser} (hready : p.ready = true) {statement? : Option Statement} {s : State}
    (h : p.grammar.statement p.state = some (statement?, s)) :
    p.parse = some ({ p with state := s }.conclude statement?) := by
  rw [parse, if_pos hready, h]
  rfl

theorem parse_ofTokens {ts : List Token} {statement? : Option Statement} {s : State}
    (h : Grammar.standard.statement (.ofTokens ts) = some (statement?, s)) :
    (ofTokens ts).parse = some ((Parser.mk .standard true s).conclude statement?) :=
  parse_of_statement (p := ofTokens ts) rfl h

/-- A parse has an answer, and that is a statement exactly if the grammar reads it without a fault. -/
theorem exists_parse_of_guarded {p : Parser} (hg : p.grammar.Guarded) (hready : p.ready = true) :
    ∃ result q, p.parse = some (result, q) ∧
      ∀ st, result = .ok st ↔ ∃ s, p.grammar.statement p.state = some (some st, s) ∧ s.faults = [] := by
  obtain ⟨statement?, s, hrun⟩ := hg.exists_statement p.state
  refine ⟨_, _, parse_of_statement hready hrun, fun st => ?_⟩
  refine conclude_ok_iff.trans ?_
  constructor
  · rintro ⟨rfl, hfaults⟩
    exact ⟨s, hrun, hfaults⟩
  · rintro ⟨s', hrun', hfaults⟩
    cases hrun.symm.trans hrun'
    exact ⟨rfl, hfaults⟩

/-- Tokens that are spelt like their kinds always parse to an answer, and that is a statement exactly if
they are a sentence that stands for it. -/
theorem exists_parse_ofTokens {ts : List Token} (hs : ∀ t ∈ ts, t.Spelt) :
    ∃ result p, (ofTokens ts).parse = some (result, p) ∧ ∀ st, result = .ok st ↔ IsSentence ts st := by
  obtain ⟨result, p, hparse, hiff⟩ := exists_parse_of_guarded (p := ofTokens ts) Grammar.guarded_standard rfl
  exact ⟨result, p, hparse, fun st => (hiff st).trans (Grammar.statement_iff hs)⟩

variable {l : Lexer}

theorem ofLexer_of_finished (hf : l.finished = true) : ofLexer l = ofTokens l.tokens := by
  rw [ofLexer, hf, ofTokens]

/-- Whatever calls have led to a lexer that has reached the end of its text, parsing its tokens gives an
answer, and that is a statement exactly if the tokens are a sentence that stands for it. -/
theorem parse_ofLexer_ok_iff (h : l.Reachable) (hf : l.finished = true) :
    ∃ result p, (ofLexer l).parse = some (result, p) ∧
      ∀ st, result = .ok st ↔ IsSentence l.tokens st := by
  rw [ofLexer_of_finished hf]
  exact exists_parse_ofTokens h.spelt

/-- A strict lexer that has met the illegal `$` and was asked again. -/
def resumed : Lexer := ((Lexer.ofString "table a$ + !b").setStrict true).tokenize.2.tokenize.2

theorem parse_ofLexer_ok_of_resumed :
    resumed.Reachable ∧ resumed.finished = true ∧
      ∃ p, (ofLexer resumed).parse =
        some (.ok ⟨.table, .binary "+" .or (.var "a") (.not (.var "b"))⟩, p) := by
  have hreachable : resumed.Reachable := .tokenize (.tokenize (.setStrict true (.start _)))
  have hfinished : resumed.finished = true := by decide +kernel
  have htokens : resumed.tokens =
      [⟨.command .table, "table", 0⟩, ⟨.name, "a", 6⟩, ⟨.connective .or, "+", 9⟩, ⟨.bang, "!", 11⟩,
       ⟨.name, "b", 12⟩] := by decide +kernel
  obtain ⟨result, p, hparse, hiff⟩ := parse_ofLexer_ok_iff hreachable hfinished
  have hchain : IsChain [⟨.name, "a", 6⟩, ⟨.connective .or, "+", 9⟩, ⟨.bang, "!", 11⟩, ⟨.name, "b", 12⟩]
      (.binary "+" .or (.var "a") (.not (.var "b"))) :=
    .of_link (.name rfl) rfl (.negation rfl (.name rfl))
  have hok := (hiff ⟨.table, .binary "+" .or (.var "a") (.not (.var "b"))⟩).2 (by
    rw [htokens]
    exact .intro rfl hchain)
  exact ⟨hreachable, hfinished, p, by rw [hparse, hok]⟩

end Parser

namespace Statement

theorem ofTokens_ok_iff {ts : List Token} (hs : ∀ t ∈ ts, t.Spelt) {st : Statement} :
    ofTokens ts = .ok st ↔ IsSentence ts st := by
  obtain ⟨result, p, hparse, hiff⟩ := Parser.exists_parse_ofTokens hs
  rw [← hiff st]
  simp only [ofTokens, hparse, Option.get_some]

/-- If illegal tokens are no error of their own, a line is read by what its tokens form. -/
theorem read_false (text : String) : read false text = (ofTokens (tokenize text)).mapError .parse := by
  simp only [read, lex_false]
  cases ofTokens (tokenize text) <;> rfl

/-- A line is read as a statement exactly if its tokens are a sentence that stands for it. -/
theorem read_ok_iff {text : String} {st : Statement} :
    read false text = .ok st ↔ IsSentence (tokenize text) st := by
  rw [← ofTokens_ok_iff (spelt_of_mem_tokenize text), read_false]
  cases ofTokens (tokenize text) with
  | error e => exact ⟨nofun, nofun⟩
  | ok st' =>
    constructor
    · intro h
      cases h
      rfl
    · intro h
      cases h
      rfl

end Statement

end Sentential
