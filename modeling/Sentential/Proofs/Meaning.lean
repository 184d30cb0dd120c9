import Sentential.Proofs.Disjuncts
import Sentential.Proofs.Respect

/-!
# Simplification keeps the meaning

`g.Replaces f` says that `g` is well-formed and true exactly where `f` is. A rule that fires on a
well-formed node puts a replacement there (`Rule.replaces_of_reduce?`). Replacements compose and pass
through negations and binary nodes, so a pass makes one too, and so do as many passes as it takes.
-/

namespace Sentential

/-- `zero` decides the connective alone, and the other constant leaves it to the other operand. -/
def Connective.Absorbs (c : Connective) (zero : Bool) : Prop :=
  ∀ b, c.apply zero b = zero ∧ c.apply b zero = zero ∧ c.apply (!zero) b = b ∧ c.apply b (!zero) = b

instance (c : Connective) (zero : Bool) : Decidable (c.Absorbs zero) := inferInstanceAs (Decidable (∀ _, _))

namespace Formula

structure Replaces (g f : Formula) : Prop where
  wellFormed : g.WellFormed
  eval : ∀ σ, g.eval σ = f.eval σ

namespace Replaces
variable {f g h l l' r r' : Formula}

theorem refl (hf : f.WellFormed) : f.Replaces f := ⟨hf, fun _ => rfl⟩

theorem trans (hhg : h.Replaces g) (hgf : g.Replaces f) : h.Replaces f :=
  ⟨hhg.wellFormed, fun σ => (hhg.eval σ).trans (hgf.eval σ)⟩

theorem not (hgf : g.Replaces f) : (Formula.not g).Replaces (Formula.not f) where
  wellFormed := hgf.wellFormed
  eval σ := by rw [Formula.eval, Formula.eval, hgf.eval σ]

theorem binary {glyph : String} {c : Connective} (hc : Connective.ofGlyph? glyph = some c)
    (hl : l'.Replaces l) (hr : r'.Replaces r) :
    (Formula.binary glyph c l' r').Replaces (Formula.binary glyph c l r) where
  wellFormed := ⟨hc, hl.wellFormed, hr.wellFormed⟩
  eval σ := by rw [Formula.eval, Formula.eval, hl.eval σ, hr.eval σ]

end Replaces

end Formula

namespace Rule

open Formula

variable {f g l r : Formula}

theorem replaces_of_absorb? {glyph : String} {c : Connective} {zero : Bool} (hc : c.Absorbs zero)
    (hl : l.WellFormed) (hr : r.WellFormed) (h : absorb? zero l r = some g) :
    g.Replaces (.binary glyph c l r) := by
  rcases absorb?_cases h with ⟨hzero, rfl⟩ | ⟨rfl, rfl⟩ | ⟨rfl, rfl⟩
  · refine ⟨trivial, fun σ => ?_⟩
    rcases hzero with rfl | rfl
    · exact (hc _).1.symm
    · exact (hc _).2.1.symm
  · exact ⟨hr, fun σ => (hc _).2.2.1.symm⟩
  · exact ⟨hl, fun σ => (hc _).2.2.2.symm⟩

/-- A formula and its negation are not true together. -/
theorem eval_and_of_complementary (hl : l.WellFormed) (hr : r.WellFormed)
    (h : complementary l r = true) (σ : Valuation) : (l.eval σ && r.eval σ) = false := by
  rcases (hl.complementary_iff hr).1 h with rfl | rfl
  · rw [eval, UnaryOperator.apply_not, Bool.not_and_self]
  · rw [eval, UnaryOperator.apply_not, Bool.and_not_self]

/-- `f` and `g` are the two sides of the law that the rule is named after. -/
theorem replaces_of_reduce? {rule : Rule} (hf : f.WellFormed) (h : rule.reduce? f = some g) :
    g.Replaces f := by
  unfold reduce? at h
  split at h
  case h_1 => exact replaces_of_absorb? (by decide) hf.2.1 hf.2.2 h
  case h_2 => exact replaces_of_absorb? (by decide) hf.2.1 hf.2.2 h
  case h_3 glyph l r =>
    obtain ⟨-, hl, hr⟩ := hf
    split at h
    · next hsame =>
      cases h
      obtain rfl := (hl.same_iff hr).1 hsame
      exact ⟨hl, fun σ => (Bool.and_self _).symm⟩
    · cases h
  case h_4 glyph l r =>
    obtain ⟨-, hl, hr⟩ := hf
    split at h
    · next hsame =>
      cases h
      obtain rfl := (hl.same_iff hr).1 hsame
      exact ⟨hl, fun σ => (Bool.or_self _).symm⟩
    · cases h
  case h_5 glyph l r =>
    split at h
    · next hclash => cases h; exact ⟨trivial, fun σ => (eval_of_clash hf hclash σ).symm⟩
    · cases h
  case h_6 glyph l r =>
    split at h
    · next hcomp =>
      cases h
      exact ⟨trivial, fun σ => (eval_and_of_complementary hf.2.1 hf.2.2 hcomp σ).symm⟩
    · cases h
  case h_7 glyph l r =>
    cases h
    exact ⟨WellFormed.join .or hf.2.1 hf.2.2, fun σ => rfl⟩
  case h_8 glyph l r =>
    cases h
    refine ⟨WellFormed.join .or hf.2.1 hf.2.2, fun σ => ?_⟩
    exact (Bool.not_and (l.eval σ) (r.eval σ)).symm
  case h_9 glyph l r =>
    cases h
    refine ⟨WellFormed.join .and hf.2.1 hf.2.2, fun σ => ?_⟩
    exact (Bool.not_or (l.eval σ) (r.eval σ)).symm
  case h_10 =>
    cases h
    exact ⟨hf, fun σ => (Bool.not_not _).symm⟩
  case h_11 glyph l r =>
    obtain ⟨j, hj, hg⟩ := Option.bind_eq_some_iff.1 h
    exact ⟨hf.without hg, fun σ => eval_without_firstRepeat hf hj hg σ⟩
  case h_12 => cases h

end Rule

namespace Formula
variable {f : Formula}

theorem respected_replaces : Respected fun f g => f.WellFormed → g.Replaces f where
  refl _ hf := .refl hf
  trans hfg hgh hf := (hgh (hfg hf).wellFormed).trans (hfg hf)
  not ha hf := (ha hf).not
  binary hl hr hf := .binary hf.1 (hl hf.2.1) (hr hf.2.2)
  reduce h hf := Rule.replaces_of_reduce? hf h

theorem replaces_pass (rules : List Rule) (hf : f.WellFormed) : (f.pass rules).Replaces f :=
  respected_replaces.pass rules f hf

theorem replaces_simplify (rules : List Rule) (hf : f.WellFormed) : (f.simplify rules).Replaces f :=
  respected_replaces.simplify rules f hf

/-- Under any list of rules a well-formed formula and its simplified form have the same value everywhere. So
have the two sides of each single firing, and the new one is well-formed again. -/
theorem simplify_keeps_meaning (hf : f.WellFormed) :
    (∀ (rules : List Rule) (σ : Valuation), (f.simplify rules).eval σ = f.eval σ) ∧
      ∀ (rule : Rule) (g : Formula), rule.reduce? f = some g → g.WellFormed ∧ ∀ σ, g.eval σ = f.eval σ := by
  refine ⟨fun rules => (replaces_simplify rules hf).eval, fun rule g hg => ?_⟩
  have hgf := Rule.replaces_of_reduce? hf hg
  exact ⟨hgf.wellFormed, hgf.eval⟩

/-- A disjunction that repeats `a` two levels down, simplified and with one rule fired at its root. -/
theorem simplify_keeps_meaning_of_repeat :
    let f : Formula := .binary "|" .or (.binary "+" .or (.var "a") (.var "b")) (.var "a")
    f.WellFormed ∧ (f.simplify Rule.all).eval (fun name => name == "b") = f.eval (fun name => name == "b") ∧
      Rule.duplicateAlternative.reduce? f = some (.binary "+" .or (.var "a") (.var "b")) ∧
      (Formula.binary "+" .or (.var "a") (.var "b")).WellFormed :=
  have hwf := by decide
  ⟨hwf, (simplify_keeps_meaning hwf).1 Rule.all _, by decide +kernel,
    ((simplify_keeps_meaning hwf).2 .duplicateAlternative _ (by decide +kernel)).1⟩

end Formula

end Sentential
