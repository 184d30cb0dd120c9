import Sentential.Proofs.Failures

/-!
# Expressions take spans of tokens

A parser stands at a place among the tokens of its lexer (`State.standing`): before the first of them, at one of
them or behind the last, and at no other state does it ever come (`exists_standing_of_reaches`). Wherever it
stands, an expression is read exactly if some tokens from the current one on form a phrase of the level that it is
read at (`Spans`), whatever comes behind these. The parser then stands at the last of them. Otherwise one fault is
recorded (`expression_takes_span`).
-/

namespace Sentential.Parser

namespace State

/-- Where a parser over the tokens stands. There is no place before it has moved on for the first time, and there is
no end to moving on. -/
def standing (tokens : List Token) (place? : Option Nat) (faults : List Fault) : State where
  current? := place?.bind fun i => tokens[i]?
  rest := tokens.drop (place?.elim 0 (· + 1))
  faults := faults

variable {T : List Token} {faults : List Fault} {i j k : Nat}

theorem standing_some (T : List Token) (i : Nat) (faults : List Fault) :
    standing T (some i) faults = .facing (T.drop i) faults := by
  simp [standing, facing]

theorem advance_standing (T : List Token) (place? : Option Nat) (faults : List Fault) :
    (standing T place? faults).advance = standing T (some (place?.elim 0 (· + 1))) faults := by
  rw [standing_some]
  rfl

theorem standing_inj (hj : j < T.length) (hk : k < T.length)
    (h : standing T (some j) faults = standing T (some k) faults) : j = k := by
  have hlen : (T.drop (j + 1)).length = (T.drop (k + 1)).length := congrArg (·.rest.length) h
  rw [List.length_drop, List.length_drop] at hlen
  omega

/-- Whatever a parser does, it stands at some place. -/
theorem exists_standing_of_reaches {place? : Option Nat} {s : State} (h : (standing T place? faults).Reaches s) :
    ∃ place?, s = standing T place? s.faults := by
  induction h with
  | refl => exact ⟨place?, rfl⟩
  | @advance s _ ih =>
    obtain ⟨place?, hs⟩ := ih
    refine ⟨some (place?.elim 0 (· + 1)), ?_⟩
    rw [hs, advance_standing]
    rfl
  | @report s fault _ ih =>
    obtain ⟨place?, hs⟩ := ih
    refine ⟨place?, ?_⟩
    rw [hs]
    rfl

end State

namespace Grammar

/-- The tokens from the `i`-th to the `j`-th are what is read at the level when the `i`-th is the current one: one
operand, or at the lowest level a chain that the token behind does not go on. -/
structure Spans (level : Level) (T : List Token) (i j : Nat) (f : Formula) : Prop where
  le : i ≤ j
  lt : j < T.length
  reads : Reads level (T.extract i (j + 1)) f (T.drop (j + 1))

variable {level : Level} {T used rest : List Token} {f g : Formula} {faults : List Fault} {s : State} {i j k : Nat}

theorem Reads.ne_nil (h : Reads level used f rest) : used ≠ [] := by
  cases h with
  | chain hc _ => exact hc.ne_nil
  | operand _ ho => exact ho.ne_nil

theorem extract_append_drop (h : i ≤ j) : T.extract i (j + 1) ++ T.drop (j + 1) = T.drop i := by
  have hsplit : T.drop (j + 1) = (T.drop i).drop (j + 1 - i) := by
    rw [List.drop_drop]
    congr 1
    omega
  rw [List.extract_eq_take_drop, hsplit, List.take_append_drop]

theorem getLast?_extract (h : i ≤ j) (hj : j < T.length) : (T.extract i (j + 1)).getLast? = T[j]? := by
  have hlen : (T.extract i (j + 1)).length = j + 1 - i := by
    rw [List.extract_eq_take_drop, List.length_take, List.length_drop]
    omega
  have hat : i + (j + 1 - i - 1) = j := by omega
  rw [List.getLast?_eq_getElem?, hlen, List.extract_eq_take_drop, List.getElem?_take_of_lt (by omega),
    List.getElem?_drop, hat]

theorem exists_extract_of_append (h : T.drop i = used ++ rest) (hused : used ≠ []) :
    ∃ j, i ≤ j ∧ j < T.length ∧ T.extract i (j + 1) = used ∧ T.drop (j + 1) = rest := by
  have hpos := List.length_pos_iff.2 hused
  have hlen := congrArg List.length h
  rw [List.length_drop, List.length_append] at hlen
  have hstop : i + used.length - 1 + 1 - i = used.length := by omega
  have hbehind : i + used.length - 1 + 1 = i + used.length := by omega
  refine ⟨i + used.length - 1, by omega, by omega, ?_, ?_⟩
  · rw [List.extract_eq_take_drop, hstop, h, List.take_left]
  · rw [hbehind, ← List.drop_drop, h, List.drop_left]

/-- An expression is read from a place on exactly if a phrase begins there, up to whose last token it moves. -/
theorem expression_standing_iff (hs : ∀ t ∈ T, t.Spelt) (faults : List Fault) :
    standard.expression level (.standing T (some i) faults) = some (some f, s) ↔
      ∃ j, Spans level T i j f ∧ s = .standing T (some j) faults := by
  have hdrop : ∀ t ∈ T.drop i, t.Spelt := fun t ht => hs t (List.mem_of_mem_drop ht)
  rw [State.standing_some, expression_eq_some_iff hdrop]
  constructor
  · rintro ⟨used, rest, hsplit, hreads, rfl⟩
    obtain ⟨j, hle, hlt, rfl, rfl⟩ := exists_extract_of_append hsplit hreads.ne_nil
    refine ⟨j, ⟨hle, hlt, hreads⟩, ?_⟩
    rw [getLast?_extract hle hlt]
    rfl
  · rintro ⟨j, ⟨hle, hlt, hreads⟩, rfl⟩
    refine ⟨_, _, (extract_append_drop hle).symm, hreads, ?_⟩
    rw [getLast?_extract hle hlt]
    rfl

/-- No two phrases of a level begin at one place. -/
theorem Spans.unique (hs : ∀ t ∈ T, t.Spelt) (hf : Spans level T i j f) (hg : Spans level T i k g) :
    j = k ∧ f = g := by
  have hreadf := (expression_standing_iff hs []).2 ⟨j, hf, rfl⟩
  have hreadg := (expression_standing_iff hs []).2 ⟨k, hg, rfl⟩
  obtain ⟨hformula, hstate⟩ := Prod.mk.inj (Option.some.inj (hreadf.symm.trans hreadg))
  exact ⟨State.standing_inj hf.lt hg.lt hstate, Option.some.inj hformula⟩

/-- Before the first token there is nothing to read. -/
theorem expression_standing_none (level : Level) (T : List Token) (faults : List Fault) :
    standard.expression level (.standing T none faults) =
      some (none, (State.standing T none faults).report .endOfInput) := by
  rw [standard_eq]
  rfl

theorem exists_fault_of_expression (hs : ∀ t ∈ T, t.Spelt) {place? : Option Nat}
    (h : standard.expression level (.standing T place? faults) = some (none, s)) :
    ∃ place? fault, s = .standing T place? (faults ++ [fault]) := by
  have hfault : ∃ fault, s.faults = faults ++ [fault] := by
    cases place? with
    | none =>
      rw [expression_standing_none] at h
      cases h
      exact ⟨_, rfl⟩
    | some i =>
      rw [State.standing_some] at h
      obtain ⟨fault, hfault, -⟩ := blamed (fun t ht => hs t (List.mem_of_mem_drop ht)) h
      exact ⟨fault, hfault⟩
  obtain ⟨fault, hfault⟩ := hfault
  obtain ⟨place?, hs'⟩ := State.exists_standing_of_reaches (reaches_of_expression h)
  exact ⟨place?, fault, by rw [← hfault]; exact hs'⟩

end Grammar

open Grammar (Spans)

/-- The standard parser over the tokens of a lexer that stands at the place and holds the faults. -/
def standing (l : Lexer) (place? : Option Nat) (faults : List Fault) : Parser :=
  { ofLexer l with state := .standing l.tokens place? faults }

/-- Wherever a standard parser over the tokens of a lexer stands, and whatever faults it holds, reading an expression
has an answer. A formula is read, the parser moved to the `j`-th token and no fault recorded, exactly if the
tokens from the current one to the `j`-th are a phrase of the level that stands for the formula. There is at most
one such `j`, and no other way to read one. Otherwise one fault is recorded behind the others. -/
theorem expression_takes_span {l : Lexer} (h : l.Reachable) (place? : Option Nat) (faults : List Fault)
    (level : Level) :
    ∃ f? q, (standing l place? faults).expression level = some (f?, q) ∧
      (∀ f j, f? = some f ∧ j < l.tokens.length ∧ q = standing l (some j) faults ↔
        ∃ i, place? = some i ∧ Spans level l.tokens i j f) ∧
      (∀ f, f? = some f → ∃ j < l.tokens.length, q = standing l (some j) faults) ∧
      (∀ i j k f g, Spans level l.tokens i j f → Spans level l.tokens i k g → j = k ∧ f = g) ∧
      (f? = none → ∃ place? fault, q = standing l place? (faults ++ [fault])) := by
  obtain ⟨f?, s, hread⟩ := Grammar.guarded_standard.exists_expression level (.standing l.tokens place? faults)
  have hsome : ∀ f, f? = some f →
      ∃ i j, place? = some i ∧ Spans level l.tokens i j f ∧ s = .standing l.tokens (some j) faults := by
    rintro f rfl
    cases place? with
    | none =>
      rw [Grammar.expression_standing_none] at hread
      cases hread
    | some i =>
      obtain ⟨j, hspans, rfl⟩ := (Grammar.expression_standing_iff h.spelt faults).1 hread
      exact ⟨i, j, rfl, hspans, rfl⟩
  refine ⟨f?, { ofLexer l with state := s }, ?_, fun f j => ⟨?_, ?_⟩, fun f hf => ?_,
    fun i j k f g => Spans.unique h.spelt, fun hnone => ?_⟩
  · show Option.map _ (Grammar.standard.expression level (.standing l.tokens place? faults)) = _
    rw [hread]
    rfl
  · rintro ⟨hf, hj, hq⟩
    obtain ⟨i, k, hplace, hspans, rfl⟩ := hsome f hf
    obtain rfl := State.standing_inj hj hspans.lt (congrArg Parser.state hq).symm
    exact ⟨i, hplace, hspans⟩
  · rintro ⟨i, rfl, hspans⟩
    have hread' := (Grammar.expression_standing_iff h.spelt faults).2 ⟨j, hspans, rfl⟩
    cases hread.symm.trans hread'
    exact ⟨rfl, hspans.lt, rfl⟩
  · obtain ⟨i, j, -, hspans, rfl⟩ := hsome f hf
    exact ⟨j, hspans.lt, rfl⟩
  · subst hnone
    obtain ⟨place?, fault, rfl⟩ := Grammar.exists_fault_of_expression h.spelt hread
    exact ⟨place?, fault, rfl⟩

def negatedGroup : Lexer := (Lexer.ofString "x !(a -> b) * c )").tokenize.2

/-- The negation takes the group and leaves the `*` to the chain, which the last token does not go on. A fault that
was recorded before stays the only one; from before the first token nothing is read. -/
theorem expression_takes_span_of_negatedGroup :
    negatedGroup.Reachable ∧
      (let f : Formula := .not (.binary "->" .implies (.var "a") (.var "b"))
       let early : List Fault := [.custom "early"]
       (standing negatedGroup (some 1) early).expression .negation =
          some (some f, standing negatedGroup (some 6) early) ∧
        (standing negatedGroup (some 1) early).expression .lowest =
          some (some (.binary "*" .and f (.var "c")), standing negatedGroup (some 8) early)) ∧
      ∃ place? fault, (standing negatedGroup none []).expression .lowest =
        some (none, standing negatedGroup place? [fault]) := by
  have hreachable : negatedGroup.Reachable := .tokenize (.start _)
  have htokens : negatedGroup.tokens =
      [⟨.name, "x", 0⟩, ⟨.bang, "!", 2⟩, ⟨.openParen, "(", 3⟩, ⟨.name, "a", 4⟩, ⟨.connective .implies, "->", 6⟩,
       ⟨.name, "b", 9⟩, ⟨.closeParen, ")", 10⟩, ⟨.connective .and, "*", 12⟩, ⟨.name, "c", 14⟩,
       ⟨.closeParen, ")", 16⟩] := by decide +kernel
  have hgroup : IsOperand
      ([⟨.bang, "!", 2⟩, ⟨.openParen, "(", 3⟩, ⟨.name, "a", 4⟩, ⟨.connective .implies, "->", 6⟩, ⟨.name, "b", 9⟩,
        ⟨.closeParen, ")", 10⟩]) (.not (.binary "->" .implies (.var "a") (.var "b"))) :=
    .negation rfl (.group rfl (.of_link (.name rfl) rfl (.name rfl)) rfl)
  have hstops : Grammar.Stops [⟨.closeParen, ")", 16⟩] := by
    rintro _ ⟨⟩ c ⟨⟩
  refine ⟨hreachable, ⟨?_, ?_⟩, ?_⟩
  · obtain ⟨f?, q, hread, hspan, -⟩ := expression_takes_span hreachable (some 1) [.custom "early"] .negation
    have hspans : Spans .negation negatedGroup.tokens 1 6 (.not (.binary "->" .implies (.var "a") (.var "b"))) := by
      rw [htokens]
      exact ⟨by decide, by decide, .operand (by decide) hgroup⟩
    obtain ⟨rfl, -, rfl⟩ := (hspan _ 6).2 ⟨1, rfl, hspans⟩
    exact hread
  · obtain ⟨f?, q, hread, hspan, -⟩ := expression_takes_span hreachable (some 1) [.custom "early"] .lowest
    have hspans : Spans .lowest negatedGroup.tokens 1 8
        (.binary "*" .and (.not (.binary "->" .implies (.var "a") (.var "b"))) (.var "c")) := by
      rw [htokens]
      exact ⟨by decide, by decide, .chain (.of_link hgroup rfl (.name rfl)) hstops⟩
    obtain ⟨rfl, -, rfl⟩ := (hspan _ 8).2 ⟨1, rfl, hspans⟩
    exact hread
  · obtain ⟨f?, q, hread, hspan, hmoved, -, hfault⟩ := expression_takes_span hreachable none [] .lowest
    cases f? with
    | none =>
      obtain ⟨place?, fault, rfl⟩ := hfault rfl
      exact ⟨place?, fault, hread⟩
    | some f =>
      obtain ⟨j, hj, hq⟩ := hmoved f rfl
      obtain ⟨i, hplace, -⟩ := (hspan f j).1 ⟨rfl, hj, hq⟩
      cases hplace

end Sentential.Parser
