import Sentential.Formula.Basic

/-!
# The value of a formula

A valuation gives every name a truth value. The value of a formula depends only on the names that occur in
it (`eval_congr`).
-/

namespace Sentential

abbrev Valuation := String → Bool

/-- The valuation listed in `pairs`, where a name that is not listed is false. -/
def Valuation.ofPairs (pairs : List (String × Bool)) : Valuation :=
  fun name => (pairs.lookup name).getD false

namespace Formula

def eval (σ : Valuation) : Formula → Bool
  | .var name => σ name
  | .const value => value
  | .not a => UnaryOperator.not.apply (a.eval σ)
  | .binary _ c l r => c.apply (l.eval σ) (r.eval σ)

/-- The names that occur, left to right and with repetitions. -/
def names : Formula → List String
  | .var name => [name]
  | .const _ => []
  | .not a => a.names
  | .binary _ _ l r => l.names ++ r.names

/-- The names that occur, each at its first occurrence. -/
def vars (f : Formula) : List String := f.names.eraseDups

theorem eval_congr {σ τ : Valuation} {f : Formula} (h : ∀ name ∈ f.names, σ name = τ name) :
    f.eval σ = f.eval τ := by
  induction f with
  | var name => exact h name (by simp [names])
  | const value => rfl
  | not a ih => rw [eval, eval, ih h]
  | binary glyph c l r ihl ihr =>
    rw [eval, eval, ihl fun n hn => h n (by simp [names, hn]), ihr fun n hn => h n (by simp [names, hn])]

end Formula

end Sentential
