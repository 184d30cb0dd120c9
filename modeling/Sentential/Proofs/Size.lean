import Sentential.Proofs.Effort
import Sentential.Proofs.Names
import Sentential.Proofs.NormalForm

/-!
# The size of a simplified formula

No rule copies a leaf, so a simplified formula has at most as many leaves as the formula, and as rules only drop
names (`names_simplify_sublist`), none of its names more often. Negations do get copied when they are pushed down.
But in a normal formula each of them stands at a leaf or at an equivalence, so there are fewer than twice as many of
them as leaves, and the size is linear in the number of leaves (`Normal.nodes_le`).
-/

namespace Sentential

namespace Formula

/-- The number of variables and constants, each counted as often as it occurs. -/
def leaves : Formula → Nat
  | .var _ | .const _ => 1
  | .not a => a.leaves
  | .binary _ _ l r => l.leaves + r.leaves

variable {f g l r : Formula}

theorem leaves_pos (f : Formula) : 0 < f.leaves := by
  induction f with
  | var name | const value => exact Nat.one_pos
  | not a ih => exact ih
  | binary glyph c l r ihl ihr => exact Nat.add_pos_left ihl _

theorem leaves_without_le {j : Nat} (h : f.without j = some g) : g.leaves ≤ f.leaves := by
  fun_induction without f j generalizing g with
  | case1 glyph l r j hlt l' hl' ih => cases h; exact Nat.add_le_add_right (ih hl') _
  | case2 glyph l r j hlt hl' ih => cases h; exact Nat.le_add_left _ _
  | case3 glyph l r j hlt r' hr' ih => cases h; exact Nat.add_le_add_left (ih hr') _
  | case4 glyph l r j hlt hr' ih => cases h; exact Nat.le_add_right _ _
  | case5 f hf => cases h
  | case6 f j hf hj => cases h; exact Nat.le_refl _

end Formula

namespace Rule

open Formula

variable {f g l r : Formula}

theorem leaves_le_of_absorb? {zero : Bool} (h : absorb? zero l r = some g) : g.leaves ≤ l.leaves + r.leaves := by
  rcases absorb?_cases h with ⟨-, rfl⟩ | ⟨-, rfl⟩ | ⟨-, rfl⟩
  · exact Nat.add_pos_left l.leaves_pos _
  · exact Nat.le_add_left _ _
  · exact Nat.le_add_right _ _

theorem leaves_le_of_reduce? {rule : Rule} (h : rule.reduce? f = some g) : g.leaves ≤ f.leaves := by
  unfold reduce? at h
  split at h
  case h_1 | h_2 => exact leaves_le_of_absorb? h
  case h_3 | h_4 =>
    split at h
    · cases h; exact Nat.le_add_right _ _
    · cases h
  case h_5 | h_6 =>
    split at h
    · cases h; exact leaves_pos _
    · cases h
  case h_7 | h_8 | h_9 | h_10 => cases h; exact Nat.le_refl _
  case h_11 =>
    obtain ⟨j, -, hg⟩ := Option.bind_eq_some_iff.1 h
    exact leaves_without_le hg
  case h_12 => cases h

end Rule

namespace Formula
variable {f : Formula}

theorem respected_leaves : Respected fun f g => g.leaves ≤ f.leaves where
  refl _ := Nat.le_refl _
  trans hfg hgh := Nat.le_trans hgh hfg
  not ha := ha
  binary hl hr := Nat.add_le_add hl hr
  reduce := Rule.leaves_le_of_reduce?

/-- By induction with the second bound beside the first: where a negation may stand, there is room for it. -/
theorem Normal.nodes_le (h : f.Normal) :
    f.nodes + 2 ≤ 4 * f.leaves ∧ (f.Negatable → f.nodes + 3 ≤ 4 * f.leaves) := by
  induction f with
  | var name | const value => simp [nodes, leaves]
  | not a ih =>
    obtain ⟨hneg, ha⟩ := normal_not.1 h
    exact ⟨(ih ha).2 hneg, False.elim⟩
  | binary glyph c l r ihl ihr =>
    obtain ⟨-, hl, hr⟩ := normal_binary.1 h
    have hl := (ihl hl).1
    have hr := (ihr hr).1
    simp only [nodes, leaves]
    omega

/-- Whatever the list of rules, a simplified formula has no name more often than the formula and no more leaves than
it. If the standard rules simplify a well-formed formula, the number of nodes is linear in that of its leaves. -/
theorem simplify_size_le (f : Formula) :
    (∀ rules, (∀ name, (f.simplify rules).names.count name ≤ f.names.count name) ∧
      (f.simplify rules).leaves ≤ f.leaves) ∧
    (f.WellFormed → (f.simplify Rule.all).nodes ≤ 4 * f.leaves - 2) := by
  refine ⟨fun rules => ⟨fun name => ?_, respected_leaves.simplify rules f⟩, fun hf => ?_⟩
  · exact (names_simplify_sublist rules f).count_le name
  · have hnodes := hf.normal_simplify.nodes_le.1
    have hleaves := respected_leaves.simplify Rule.all f
    omega

/-- With a negation at each leaf and at the equivalence the bound is reached. -/
theorem simplify_size_le_of_negated :
    let t : Formula := .not (.binary "<->" .iff (.not (.var "a")) (.not (.const false)))
    let f : Formula := .not (.not t)
    f.WellFormed ∧ f.simplify Rule.all = t ∧ (f.simplify Rule.all).nodes ≤ 4 * f.leaves - 2 ∧
      (f.simplify Rule.all).nodes = 4 * f.leaves - 2 := by
  intro t f
  have hf : f.WellFormed := by decide
  exact ⟨hf, by decide +kernel, (simplify_size_le f).2 hf, by decide +kernel⟩

end Formula

end Sentential
