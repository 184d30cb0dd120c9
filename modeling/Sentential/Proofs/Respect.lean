import Sentential.Simplify

/-!
# Relations that simplification respects

Much of what holds between a formula and its simplified form holds already between the two sides of a single firing,
goes from the operands of a node to the node, and adds up over several firings. A relation of that kind is
`Respected`, and so it holds across a pass and across all of simplification, whatever the list of rules.
-/

namespace Sentential.Formula

/-- Each firing leads to a related formula, at whatever node it happens. -/
structure Respected (R : Formula → Formula → Prop) : Prop where
  refl (f : Formula) : R f f
  trans {f g h : Formula} : R f g → R g h → R f h
  not {a a' : Formula} : R a a' → R (.not a) (.not a')
  binary {glyph : String} {c : Connective} {l l' r r' : Formula} :
    R l l' → R r r' → R (.binary glyph c l r) (.binary glyph c l' r')
  reduce {rule : Rule} {f g : Formula} : rule.reduce? f = some g → R f g

namespace Respected
variable {R : Formula → Formula → Prop}

theorem applyAll (hR : Respected R) (rules : List Rule) (f : Formula) : R f (applyAll rules f) := by
  induction rules generalizing f with
  | nil => exact hR.refl f
  | cons rule rules ih =>
    rw [Formula.applyAll]
    cases h : rule.reduce? f with
    | none => exact ih f
    | some g => exact hR.trans (hR.reduce h) (ih g)

theorem pass (hR : Respected R) (rules : List Rule) (f : Formula) : R f (f.pass rules) := by
  induction f with
  | var name => exact hR.refl _
  | const value => exact hR.refl _
  | not a ih => exact hR.trans (hR.not ih) (hR.applyAll rules _)
  | binary glyph c l r ihl ihr => exact hR.trans (hR.binary ihl ihr) (hR.applyAll rules _)

theorem simplify (hR : Respected R) (rules : List Rule) (f : Formula) : R f (f.simplify rules) := by
  fun_induction Formula.simplify rules f with
  | case1 f hlit => exact hR.pass rules f
  | case2 f hlit ih => exact hR.trans (hR.pass rules f) ih

end Respected

end Sentential.Formula
