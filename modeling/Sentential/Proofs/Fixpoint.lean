import Sentential.Proofs.Meaning

/-!
# Simplification ends where no rule applies

The loop stops when a pass leaves the text as it was. For a well-formed formula that is when it leaves the
formula as it was (`literal_inj`), and as no firing can undo another (each lowers the potential), a pass
that changes nothing is one in which no rule fires anywhere (`pass_eq_self_iff`).
-/

namespace Sentential.Formula

/-- The formula and all formulas inside it. -/
def subformulas : Formula → List Formula
  | .var name => [.var name]
  | .const value => [.const value]
  | .not a => .not a :: a.subformulas
  | .binary glyph c l r => .binary glyph c l r :: (l.subformulas ++ r.subformulas)

/-- None of the rules applies to any node. -/
def Irreducible (rules : List Rule) (f : Formula) : Prop :=
  ∀ g ∈ f.subformulas, ∀ rule ∈ rules, rule.reduce? g = none

variable {rules : List Rule} {f l l' r r' : Formula}

theorem forall_subformulas_not {P : Formula → Prop} {a : Formula} :
    (∀ g ∈ (Formula.not a).subformulas, P g) ↔ P (.not a) ∧ ∀ g ∈ a.subformulas, P g := by
  rw [subformulas, List.forall_mem_cons]

theorem forall_subformulas_binary {P : Formula → Prop} {glyph : String} {c : Connective} :
    (∀ g ∈ (binary glyph c l r).subformulas, P g) ↔
      P (.binary glyph c l r) ∧ (∀ g ∈ l.subformulas, P g) ∧ ∀ g ∈ r.subformulas, P g := by
  rw [subformulas, List.forall_mem_cons, List.forall_mem_append]

theorem irreducible_not {a : Formula} :
    Irreducible rules (.not a) ↔ (∀ rule ∈ rules, rule.reduce? (.not a) = none) ∧ Irreducible rules a :=
  forall_subformulas_not

theorem irreducible_binary {glyph : String} {c : Connective} :
    Irreducible rules (.binary glyph c l r) ↔
      (∀ rule ∈ rules, rule.reduce? (.binary glyph c l r) = none) ∧
        Irreducible rules l ∧ Irreducible rules r :=
  forall_subformulas_binary

theorem potential_pass_le (rules : List Rule) (f : Formula) (k : Nat) :
    (f.pass rules).potential k ≤ f.potential k := by
  rcases pass_eq_or_potential_lt rules f with he | hlt
  · exact Nat.le_of_eq (by rw [he])
  · exact Nat.le_of_lt (hlt k)

theorem potential_binary_le (glyph : String) (c : Connective) (hl : ∀ k, l'.potential k ≤ l.potential k)
    (hr : ∀ k, r'.potential k ≤ r.potential k) (k : Nat) :
    (binary glyph c l' r').potential k ≤ (binary glyph c l r).potential k := by
  have hl0 := hl 0
  have hlk := hl k
  have hlk' := hl (k + 1)
  have hr0 := hr 0
  have hrk := hr k
  cases c <;> simp only [potential] <;> omega

/-- A firing is not undone by those that follow it at the node. -/
theorem applyAll_eq_self_iff : applyAll rules f = f ↔ ∀ rule ∈ rules, rule.reduce? f = none := by
  induction rules with
  | nil => exact ⟨fun _ rule h => (List.not_mem_nil h).elim, fun _ => rfl⟩
  | cons rule rules ih =>
    rw [applyAll, List.forall_mem_cons]
    cases h : rule.reduce? f with
    | none =>
      rw [Option.getD_none, ih]
      exact ⟨fun hrules => ⟨rfl, hrules⟩, fun hrules => hrules.2⟩
    | some g =>
      constructor
      · intro he
        have hlt := Rule.potential_lt h 0
        have hle := potential_applyAll_le rules g 0
        rw [Option.getD_some] at he
        rw [he] at hle
        exact absurd hlt (Nat.not_lt_of_le hle)
      · rintro ⟨hnone, -⟩
        cases hnone

/-- Rules at a node do not restore what the pass has changed below it. -/
theorem applyAll_eq_iff_of_potential_le {g : Formula} (hle : ∀ k, g.potential k ≤ f.potential k) :
    applyAll rules g = f ↔ g = f ∧ applyAll rules f = f := by
  constructor
  · intro he
    rcases applyAll_eq_or_potential_lt rules g with hg | hlt
    · obtain rfl := hg.symm.trans he
      exact ⟨rfl, he⟩
    · have h0 := hlt 0
      rw [he] at h0
      exact absurd h0 (Nat.not_lt_of_le (hle 0))
  · rintro ⟨rfl, he⟩
    exact he

theorem pass_eq_self_iff : f.pass rules = f ↔ Irreducible rules f := by
  induction f with
  | var name | const value =>
    refine ⟨fun _ g hg rule _ => ?_, fun _ => rfl⟩
    rw [List.mem_singleton.1 hg]
    cases rule <;> rfl
  | not a ih =>
    have hle : ∀ k, (not (a.pass rules)).potential k ≤ (not a).potential k :=
      fun k => potential_pass_le rules a (k + 1)
    rw [pass, applyAll_eq_iff_of_potential_le hle, not.injEq, ih, applyAll_eq_self_iff, irreducible_not]
    exact and_comm
  | binary glyph c l r ihl ihr =>
    have hle := potential_binary_le glyph c (potential_pass_le rules l) (potential_pass_le rules r)
    rw [pass, applyAll_eq_iff_of_potential_le hle, applyAll_eq_self_iff, irreducible_binary, ← ihl, ← ihr]
    constructor
    · rintro ⟨he, hroot⟩
      rw [binary.injEq] at he
      exact ⟨hroot, he.2.2⟩
    · rintro ⟨hroot, hl, hr⟩
      exact ⟨by rw [hl, hr], hroot⟩

theorem simplify_of_pass_eq (h : f.pass rules = f) : f.simplify rules = f := by
  rw [simplify, dif_pos (by rw [h]), h]

theorem passes_of_pass_eq (h : f.pass rules = f) : f.passes rules = 1 := by
  rw [passes, stages, dif_pos (by rw [h])]
  rfl

/-- The last pass changes nothing, not only no text. -/
theorem pass_simplify (rules : List Rule) (hf : f.WellFormed) :
    (f.simplify rules).pass rules = f.simplify rules := by
  fun_induction simplify rules f with
  | case1 f hlit =>
    have he : f.pass rules = f := ((replaces_pass rules hf).wellFormed.literal_inj hf).1 hlit
    rw [he, he]
  | case2 f hlit ih => exact ih (replaces_pass rules hf).wellFormed

/-- No rule of the list applies to any node of what it made of a well-formed formula, so one more pass
changes nothing, and neither does simplification, which makes just that pass. -/
theorem simplify_irreducible (hf : f.WellFormed) (rules : List Rule) :
    Irreducible rules (f.simplify rules) ∧ (f.simplify rules).pass rules = f.simplify rules ∧
      (f.simplify rules).simplify rules = f.simplify rules ∧ (f.simplify rules).passes rules = 1 := by
  have hpass := pass_simplify rules hf
  exact ⟨pass_eq_self_iff.1 hpass, hpass, simplify_of_pass_eq hpass, passes_of_pass_eq hpass⟩

/-- Pushing a negation through the disjunction leaves double negations, which this list never removes. -/
theorem simplify_irreducible_without_doubleNegation :
    let f : Formula := .not (.binary "|" .or (.not (.var "a")) (.var "b"))
    let t : Formula := .binary "*" .and (.not (.not (.var "a"))) (.not (.var "b"))
    f.WellFormed ∧ f.simplify [.deMorgan, .identity] = t ∧ Irreducible [.deMorgan, .identity] t ∧
      t.simplify [.deMorgan, .identity] = t ∧ t.passes [.deMorgan, .identity] = 1 := by
  have hwf : (Formula.not (.binary "|" .or (.not (.var "a")) (.var "b"))).WellFormed := by decide
  have ht : (Formula.not (.binary "|" .or (.not (.var "a")) (.var "b"))).simplify [.deMorgan, .identity] =
      .binary "*" .and (.not (.not (.var "a"))) (.not (.var "b")) := by decide +kernel
  have h := simplify_irreducible hwf [.deMorgan, .identity]
  rw [ht] at h
  exact ⟨hwf, ht, h.1, h.2.2.1, h.2.2.2⟩

end Sentential.Formula
