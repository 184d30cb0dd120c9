import Sentential.Rule

/-!
# The potential of a formula

The potential of a formula under `k` negations bounds what the rules can still do with it there. It grows
with `k`, and every rule lowers it, wherever the node that it changes stands (`Rule.potential_lt`); so no
order of the rules can go on forever.
-/

namespace Sentential

namespace Formula

/-- A connective pays one step for each negation that may be pushed through it, and an implication one
more. Nothing is pushed through an equivalence. -/
def potential : Formula → Nat → Nat
  | .var _, k => k
  | .const _, k => k
  | .not a, k => a.potential (k + 1)
  | .binary _ .or l r, k => k + 1 + l.potential k + r.potential k
  | .binary _ .and l r, k => k + 1 + l.potential k + r.potential k
  | .binary _ .implies l r, k => k + 2 + l.potential (k + 1) + r.potential k
  | .binary _ .iff l r, k => k + 1 + l.potential 0 + r.potential 0

theorem potential_lt_potential (f : Formula) {j k : Nat} (h : j < k) : f.potential j < f.potential k := by
  induction f generalizing j k with
  | var name => exact h
  | const value => exact h
  | not a ih => exact ih (Nat.succ_lt_succ h)
  | binary glyph c l r ihl ihr =>
    have hl := ihl h
    have hr := ihr h
    have hl' := ihl (show j + 1 < k + 1 by omega)
    cases c <;> simp only [potential] <;> omega

theorem le_potential (f : Formula) (k : Nat) : k ≤ f.potential k := by
  induction f generalizing k with
  | var name => exact Nat.le_refl _
  | const value => exact Nat.le_refl _
  | not a ih => exact Nat.le_of_succ_le (ih (k + 1))
  | binary glyph c l r ihl ihr => cases c <;> simp only [potential] <;> omega

theorem potential_without_lt {f g : Formula} {j : Nat} (hj : j < f.disjuncts.length)
    (h : f.without j = some g) (k : Nat) : g.potential k < f.potential k := by
  fun_induction without f j generalizing g with
  | case1 glyph l r j hlt l' hl' ih =>
    cases h
    have := ih hlt hl'
    simp only [potential]; omega
  | case2 glyph l r j hlt hl' ih => cases h; simp only [potential]; omega
  | case3 glyph l r j hlt r' hr' ih =>
    cases h
    have := ih (by rw [disjuncts, List.length_append] at hj; omega) hr'
    simp only [potential]; omega
  | case4 glyph l r j hlt hr' ih => cases h; simp only [potential]; omega
  | case5 f hf => cases h
  | case6 f j hf hj0 =>
    rw [disjuncts] at hj
    · simp at hj; exact absurd hj hj0
    · exact hf

end Formula

namespace Rule

open Formula

theorem potential_lt_of_absorb? {zero : Bool} {l r g : Formula} (h : absorb? zero l r = some g) (k : Nat) :
    g.potential k < k + 1 + l.potential k + r.potential k := by
  have hl := l.le_potential k
  rcases absorb?_cases h with ⟨-, rfl⟩ | ⟨-, rfl⟩ | ⟨-, rfl⟩
  · simp only [potential]; omega
  · omega
  · omega

theorem potential_lt {r : Rule} {f g : Formula} (h : r.reduce? f = some g) (k : Nat) :
    g.potential k < f.potential k := by
  unfold reduce? at h
  split at h
  · exact potential_lt_of_absorb? h k
  · exact potential_lt_of_absorb? h k
  · split at h
    · cases h; simp only [potential]; omega
    · cases h
  · split at h
    · cases h; simp only [potential]; omega
    · cases h
  · split at h
    · cases h; simp only [potential]; omega
    · cases h
  · split at h
    · cases h; simp only [potential]; omega
    · cases h
  · cases h; simp only [join, potential]; omega
  · cases h; simp only [join, potential]; omega
  · cases h; simp only [join, potential]; omega
  · cases h; exact potential_lt_potential _ (by omega)
  · obtain ⟨j, hj, hg⟩ := Option.bind_eq_some_iff.1 h
    exact potential_without_lt (by simpa using lt_length_of_firstRepeat hj) hg k
  · cases h

end Rule

end Sentential
