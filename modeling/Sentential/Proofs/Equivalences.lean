import Sentential.Proofs.Effort

/-!
# Equivalences are simplified inside

No rule applies to an equivalence or to its negation, so a pass over one is a pass over each of its sides
(`Transparent`). The sides may need different numbers of passes. But what simplification makes of a formula is a
fixed point of passes (`pass_simplify`): the side that is done first stays as it is until the other one is done too.
-/

namespace Sentential.Formula

variable {rules : List Rule} {f l r : Formula} {k : Nat}

/-! ## Passes in a row -/

theorem wellFormed_iterate_pass (rules : List Rule) (hf : f.WellFormed) (k : Nat) :
    ((pass rules)^[k] f).WellFormed := by
  induction k with
  | zero => exact hf
  | succ k ih =>
    rw [Function.iterate_succ_apply']
    exact (replaces_pass rules ih).wellFormed

theorem passes_pos (rules : List Rule) (f : Formula) : 0 < f.passes rules := by
  obtain ⟨n, -, hends⟩ := exists_endsAfter rules f
  rw [hends.passes]
  exact Nat.succ_pos n

/-- Passes beyond those that simplification makes change nothing. -/
theorem iterate_pass_of_passes_le (hf : f.WellFormed) (h : f.passes rules ≤ k) :
    (pass rules)^[k] f = f.simplify rules := by
  obtain ⟨n, -, hends⟩ := exists_endsAfter rules f
  rw [hends.passes] at h
  rw [← Nat.sub_add_cancel h, Function.iterate_add_apply, ← hends.result]
  exact Function.iterate_fixed (pass_simplify rules hf) _

/-- All passes that simplification makes change the formula but the last one. -/
theorem iterate_pass_succ_eq_iff (hf : f.WellFormed) :
    (pass rules)^[k + 1] f = (pass rules)^[k] f ↔ f.passes rules ≤ k + 1 := by
  obtain ⟨n, -, hends⟩ := exists_endsAfter rules f
  rw [hends.passes, Nat.add_le_add_iff_right]
  constructor
  · intro he
    exact Nat.le_of_not_lt fun hlt => hends.changes k hlt (congrArg literal he)
  · intro hle
    have hfixed : (pass rules)^[n + 1] f = (pass rules)^[n] f :=
      ((wellFormed_iterate_pass rules hf _).literal_inj (wellFormed_iterate_pass rules hf _)).1 hends.stable
    rw [Function.iterate_succ_apply'] at hfixed
    rw [Function.iterate_succ_apply', ← Nat.sub_add_cancel hle, Function.iterate_add_apply,
      Function.iterate_fixed hfixed, hfixed]

theorem passes_eq_of_forall_iff {m : Nat} (hf : f.WellFormed) (hm : 0 < m)
    (h : ∀ k, (pass rules)^[k + 1] f = (pass rules)^[k] f ↔ m ≤ k + 1) : f.passes rules = m := by
  have hpos := passes_pos rules f
  refine Nat.le_antisymm ?_ ?_
  · have hle := (iterate_pass_succ_eq_iff hf).1 ((h (m - 1)).2 (by omega))
    omega
  · have hle := (h (f.passes rules - 1)).1 ((iterate_pass_succ_eq_iff hf).2 (by omega))
    omega

/-! ## Passes over two formulas side by side -/

/-- Passes go through the node to the two formulas in it. -/
structure Transparent (rules : List Rule) (node : Formula → Formula → Formula) : Prop where
  pass (l r : Formula) : (node l r).pass rules = node (l.pass rules) (r.pass rules)
  inj {l l' r r' : Formula} : node l r = node l' r' ↔ l = l' ∧ r = r'

namespace Transparent
variable {node : Formula → Formula → Formula}

theorem iterate_pass (h : Transparent rules node) (k : Nat) (l r : Formula) :
    (Formula.pass rules)^[k] (node l r) = node ((Formula.pass rules)^[k] l) ((Formula.pass rules)^[k] r) := by
  induction k with
  | zero => rfl
  | succ k ih => rw [Function.iterate_succ_apply', ih, h.pass, Function.iterate_succ_apply',
      Function.iterate_succ_apply']

theorem passes (h : Transparent rules node) (hf : (node l r).WellFormed) (hl : l.WellFormed) (hr : r.WellFormed) :
    (node l r).passes rules = max (l.passes rules) (r.passes rules) := by
  have hpos := passes_pos rules l
  refine passes_eq_of_forall_iff hf (by omega) fun k => ?_
  rw [h.iterate_pass, h.iterate_pass, h.inj, iterate_pass_succ_eq_iff hl, iterate_pass_succ_eq_iff hr, Nat.max_le]

theorem simplify (h : Transparent rules node) (hf : (node l r).WellFormed) (hl : l.WellFormed) (hr : r.WellFormed) :
    (node l r).simplify rules = node (l.simplify rules) (r.simplify rules) := by
  have hpasses := h.passes hf hl hr
  rw [← iterate_pass_of_passes_le hf (Nat.le_refl _), h.iterate_pass]
  rw [iterate_pass_of_passes_le hl (by omega), iterate_pass_of_passes_le hr (by omega)]

end Transparent

theorem transparent_iff (rules : List Rule) (glyph : String) : Transparent rules (.binary glyph .iff) where
  pass l r := by
    rw [Formula.pass, applyAll_eq_self_iff]
    intro rule _
    cases rule <;> rfl
  inj := by simp

theorem transparent_not_iff (rules : List Rule) (glyph : String) :
    Transparent rules fun l r => .not (.binary glyph .iff l r) where
  pass l r := by
    rw [Formula.pass, (transparent_iff rules glyph).pass, applyAll_eq_self_iff]
    intro rule _
    cases rule <;> rfl
  inj := by simp

/-- Simplifying an equivalence, under any list of rules, simplifies its two sides and takes as many passes as the side
that needs more of them. Simplifying its negation does just that below the negation. -/
theorem simplify_equivalence {glyph : String} (hf : (Formula.binary glyph .iff l r).WellFormed) (rules : List Rule) :
    (Formula.binary glyph .iff l r).simplify rules = .binary glyph .iff (l.simplify rules) (r.simplify rules) ∧
      (Formula.binary glyph .iff l r).passes rules = max (l.passes rules) (r.passes rules) ∧
      (Formula.not (.binary glyph .iff l r)).simplify rules =
        .not (.binary glyph .iff (l.simplify rules) (r.simplify rules)) := by
  have hiff := transparent_iff rules glyph
  have hnot := transparent_not_iff rules glyph
  exact ⟨hiff.simplify hf hf.2.1 hf.2.2, hiff.passes hf hf.2.1 hf.2.2, hnot.simplify hf hf.2.1 hf.2.2⟩

/-- Simplified, one side is the negation of the other, and it takes a pass more. -/
theorem simplify_equivalence_of_complementary :
    let l : Formula := .binary "&" .and (.binary "->" .implies (.var "b") (.var "b")) (.not (.var "a"))
    let r : Formula := .not (.not (.var "a"))
    let f : Formula := .binary "<->" .iff l r
    let t : Formula := .binary "<->" .iff (.not (.var "a")) (.var "a")
    f.WellFormed ∧ l.passes Rule.all = 3 ∧ r.passes Rule.all = 2 ∧
      f.simplify Rule.all = t ∧ f.passes Rule.all = 3 ∧ (Formula.not f).simplify Rule.all = .not t := by
  intro l r f t
  have hf : f.WellFormed := by decide
  have hl : l.simplify Rule.all = .not (.var "a") := by decide +kernel
  have hr : r.simplify Rule.all = .var "a" := by decide +kernel
  have hpl : l.passes Rule.all = 3 := by decide +kernel
  have hpr : r.passes Rule.all = 2 := by decide +kernel
  have h := simplify_equivalence hf Rule.all
  rw [hl, hr, hpl, hpr] at h
  exact ⟨hf, hpl, hpr, h⟩

end Sentential.Formula
