import Sentential.Proofs.Unfolding

/-!
# Reading under the standard grammar

What `Grammar.standard` does with each kind of token, as equations. A parser that has just moved on stands
at the first of the tokens that are left (`State.facing`); every expression is read from such a state.
-/

namespace Sentential.Parser

/-- The state that stands at the first of the tokens, if there is one. -/
def State.facing (tokens : List Token) (faults : List Fault) : State := ⟨tokens.head?, tokens.tail, faults⟩

@[simp] theorem State.advance_eq (t? : Option Token) (rest : List Token) (faults : List Fault) :
    State.advance ⟨t?, rest, faults⟩ = .facing rest faults := rfl

theorem State.facing_cons (t : Token) (rest : List Token) (faults : List Fault) :
    State.facing (t :: rest) faults = ⟨some t, rest, faults⟩ := rfl

theorem Level.lt_connective_iff {level : Level} : level < .connective ↔ level = .lowest := by
  cases level <;> decide

/-- What a group makes of the expression inside it. -/
def Standard.closeGroup : Option Formula × State → Option Formula × State
  | (none, s) => (none, s)
  | (some f, s) =>
    match s.peek? with
    | some t => if t.kind = .closeParen then (some f, s.advance) else (none, s.report (.unclosed (some t.literal)))
    | none => (none, s.report (.unclosed none))

namespace Grammar

variable {nested : Reader} {level : Level} {t : Token} {ts : List Token} {faults : List Fault}

theorem standard_eq : standard.expression = standard.readWith standard.expression :=
  guarded_standard.expression_eq

theorem standard_level_connective (c : Connective) : standard.level (.connective c) = .connective := rfl

theorem standard_extension_connective (c : Connective) :
    standard.extension (.connective c) = some Standard.chain := rfl

theorem readOperand_nil : standard.readOperand nested (.facing [] faults) =
    some (none, (State.facing [] faults).report .endOfInput) := rfl

theorem readOperand_cons : standard.readOperand nested (.facing (t :: ts) faults) =
    match standard.operand t.kind with
    | none => some (none, (State.facing (t :: ts) faults).report (.noOperand t.literal))
    | some script => script.run nested (.facing (t :: ts) faults) := rfl

theorem readOperand_name (h : t.kind = .name) :
    standard.readOperand nested (.facing (t :: ts) faults) =
      some (some (.var t.literal), .facing (t :: ts) faults) := by
  rw [readOperand_cons, h]; rfl

theorem readOperand_const {value : Bool} (h : t.kind = .const value) :
    standard.readOperand nested (.facing (t :: ts) faults) =
      some (some (.const value), .facing (t :: ts) faults) := by
  rw [readOperand_cons, h]; rfl

theorem readOperand_bang (h : t.kind = .bang) (hl : t.literal = "!") :
    standard.readOperand nested (.facing (t :: ts) faults) =
      (nested .negation (.facing ts faults)).map fun (f?, s) => (f?.map .not, s) := by
  rw [readOperand_cons, h]
  show Standard.negation.run nested ⟨some t, ts, faults⟩ = _
  have hmark : UnaryOperator.ofMark? "!" = some .not := rfl
  simp only [Standard.negation, Script.run, hl, hmark, State.advance_eq]
  cases nested .negation (.facing ts faults) <;> rfl

theorem run_group_tail (f : Formula) (s : State) :
    Script.run nested (.peek fun
      | some t =>
        if t.kind = .closeParen then .advance (.done (some f))
        else .report (.unclosed (some t.literal)) (.done none)
      | none => .report (.unclosed none) (.done none)) s = some (Standard.closeGroup (some f, s)) := by
  rw [Script.run, Standard.closeGroup]
  cases s.peek? with
  | none => rfl
  | some t => dsimp only; split <;> rfl

theorem readOperand_openParen (h : t.kind = .openParen) :
    standard.readOperand nested (.facing (t :: ts) faults) =
      (nested .lowest (.facing ts faults)).map Standard.closeGroup := by
  rw [readOperand_cons, h]
  show Standard.group.run nested ⟨some t, ts, faults⟩ = _
  simp only [Standard.group, Script.run, State.advance_eq]
  cases nested .lowest (.facing ts faults) with
  | none => rfl
  | some answer =>
    obtain ⟨f?, s⟩ := answer
    cases f? with
    | none => rfl
    | some f => exact run_group_tail f s

/-- No other token begins an operand. -/
theorem readOperand_other (h : standard.operand t.kind = none) :
    standard.readOperand nested (.facing (t :: ts) faults) =
      some (none, (State.facing (t :: ts) faults).report (.noOperand t.literal)) := by
  rw [readOperand_cons, h]

/-- Only at the lowest level an operand is extended, as connectives bind too loosely for the others. -/
theorem extend_of_ne_lowest (h : level ≠ .lowest) (count : Nat) (left : Formula) (s : State) :
    standard.extend nested level count left s = some (some left, s) := by
  cases count with
  | zero => rfl
  | succ count =>
    rw [extend]
    cases s.peek? with
    | none => rfl
    | some t =>
      dsimp only
      cases hk : t.kind with
      | connective c =>
        rw [standard_level_connective, if_neg fun hlt => h (Level.lt_connective_iff.1 hlt)]
      | _ => split <;> rfl

theorem extend_nil (count : Nat) (left : Formula) (t? : Option Token) :
    standard.extend nested .lowest count left ⟨t?, [], faults⟩ = some (some left, ⟨t?, [], faults⟩) := by
  cases count <;> rfl

/-- An expression ends before a token that is no connective. -/
theorem extend_of_not_connective (h : ∀ c, t.kind ≠ .connective c) (count : Nat) (left : Formula)
    (t? : Option Token) :
    standard.extend nested .lowest count left ⟨t?, t :: ts, faults⟩ =
      some (some left, ⟨t?, t :: ts, faults⟩) := by
  cases count with
  | zero => rfl
  | succ count =>
    rw [extend]
    show (if Level.lowest < standard.level t.kind then _ else _) = _
    cases hk : t.kind with
    | connective c => exact absurd hk (h c)
    | _ => split <;> rfl

/-- What becomes of the operand behind a connective. -/
def extendWith (g : Grammar) (nested : Reader) (level : Level) (count : Nat) (glyph : String) (c : Connective)
    (left : Formula) : Option Formula × State → Option (Option Formula × State)
  | (none, s) => some (none, s)
  | (some right, s) => g.extend nested level count (.binary glyph c left right) s

theorem extend_connective {c : Connective} (h : t.kind = .connective c)
    (hl : Connective.ofGlyph? t.literal = some c) (count : Nat) (left : Formula) (t? : Option Token) :
    standard.extend nested .lowest (count + 1) left ⟨t?, t :: ts, faults⟩ =
      (nested .connective (.facing ts faults)).bind
        (standard.extendWith nested .lowest count t.literal c left) := by
  rw [extend]
  show (if Level.lowest < standard.level t.kind then _ else _) = _
  rw [h, standard_level_connective, if_pos (by decide), standard_extension_connective]
  simp only [Standard.chain, Script.run, State.advance_eq, State.facing_cons, hl]
  cases nested .connective (.facing ts faults) with
  | none => rfl
  | some answer =>
    obtain ⟨f?, s⟩ := answer
    cases f? <;> rfl

end Grammar

end Sentential.Parser
