import Sentential.Formula.Eval
import Sentential.Proofs.Readable
import Sentential.Simplify

/-!
# Chains of disjunctions

A formula means the same as the disjunction of its `disjuncts`, however they are nested. `without` takes
exactly one of them away (`disjuncts_without`), so a chain keeps its meaning when a repeated disjunct goes
(`eval_without_firstRepeat`).
-/

namespace Sentential

namespace Formula

theorem eval_eq_any_disjuncts (σ : Valuation) (f : Formula) : f.eval σ = f.disjuncts.any (·.eval σ) := by
  fun_induction disjuncts f with
  | case1 glyph l r ihl ihr => rw [List.any_append, ← ihl, ← ihr]; rfl
  | case2 f hf => simp

theorem WellFormed.of_mem_disjuncts {f g : Formula} (hf : f.WellFormed) (hg : g ∈ f.disjuncts) :
    g.WellFormed := by
  fun_induction disjuncts f with
  | case1 glyph l r ihl ihr =>
    obtain ⟨-, hl, hr⟩ := hf
    rcases List.mem_append.1 hg with hg | hg
    · exact ihl hl hg
    · exact ihr hr hg
  | case2 f => rw [List.mem_singleton.1 hg]; exact hf

theorem disjuncts_leaf {f : Formula} (hf : ∀ glyph l r, f = .binary glyph .or l r → False) :
    f.disjuncts = [f] := by
  unfold disjuncts
  split
  · exact (hf _ _ _ rfl).elim
  · rfl

theorem disjunction_or_leaf (f : Formula) :
    (∃ glyph l r, f = .binary glyph .or l r) ∨ f.disjuncts = [f] := by
  cases f with
  | binary glyph c l r =>
    cases c with
    | or => exact .inl ⟨glyph, l, r, rfl⟩
    | _ => exact .inr rfl
  | _ => exact .inr rfl

section
variable {f g : Formula} {j : Nat}

/-- Nothing is left only of a single disjunct. -/
theorem length_disjuncts_of_without_eq_none (h : f.without j = none) : f.disjuncts.length = 1 := by
  fun_induction without f j with
  | case1 | case2 | case3 | case4 | case6 => cases h
  | case5 f hf => rw [disjuncts_leaf hf]; rfl

theorem disjuncts_without (hj : j < f.disjuncts.length) (h : f.without j = some g) :
    g.disjuncts = f.disjuncts.eraseIdx j := by
  fun_induction without f j generalizing g with
  | case1 glyph l r j hlt l' hl' ih =>
    cases h
    rw [disjuncts, disjuncts, ih hlt hl', List.eraseIdx_append_of_lt_length hlt]
  | case2 glyph l r j hlt hl' ih =>
    cases h
    have hlen := length_disjuncts_of_without_eq_none hl'
    have hnil : (l.disjuncts.eraseIdx j) = [] := by
      rw [← List.length_eq_zero_iff, List.length_eraseIdx_of_lt hlt, hlen]
    rw [disjuncts, List.eraseIdx_append_of_lt_length hlt, hnil, List.nil_append]
  | case3 glyph l r j hlt r' hr' ih =>
    cases h
    have hle := Nat.le_of_not_lt hlt
    have hjr : j - l.disjuncts.length < r.disjuncts.length := by
      rw [disjuncts, List.length_append] at hj; omega
    rw [disjuncts, disjuncts, ih hjr hr', List.eraseIdx_append_of_length_le hle]
  | case4 glyph l r j hlt hr' ih =>
    cases h
    have hle := Nat.le_of_not_lt hlt
    have hlen := length_disjuncts_of_without_eq_none hr'
    have hjr : j - l.disjuncts.length < r.disjuncts.length := by
      rw [disjuncts, List.length_append] at hj; omega
    have hnil : r.disjuncts.eraseIdx (j - l.disjuncts.length) = [] := by
      rw [← List.length_eq_zero_iff, List.length_eraseIdx_of_lt hjr, hlen]
    rw [disjuncts, List.eraseIdx_append_of_length_le hle, hnil, List.append_nil]
  | case5 f hf => cases h
  | case6 f j hf hj0 =>
    rw [disjuncts_leaf hf, List.length_singleton] at hj
    exact absurd (Nat.lt_one_iff.1 hj) hj0

theorem WellFormed.without (hf : f.WellFormed) (h : f.without j = some g) : g.WellFormed := by
  fun_induction Formula.without f j generalizing g with
  | case1 glyph l r j hlt l' hl' ih => cases h; exact ⟨hf.1, ih hf.2.1 hl', hf.2.2⟩
  | case2 glyph l r j hlt hl' ih => cases h; exact hf.2.2
  | case3 glyph l r j hlt r' hr' ih => cases h; exact ⟨hf.1, hf.2.1, ih hf.2.2 hr'⟩
  | case4 glyph l r j hlt hr' ih => cases h; exact hf.2.1
  | case5 f hf => cases h
  | case6 f j hf' hj0 => cases h; exact hf

end

end Formula

/-- The text that `firstRepeat` finds is one that it has met before. -/
theorem exists_of_firstRepeat {seen texts : List String} {j : Nat} (h : firstRepeat seen texts = some j) :
    ∃ earlier text later, texts = earlier ++ text :: later ∧ earlier.length = j ∧
      (text ∈ seen ∨ text ∈ earlier) := by
  induction texts generalizing seen j with
  | nil => cases h
  | cons text rest ih =>
    rw [firstRepeat] at h
    split at h
    · next hmem => cases h; exact ⟨[], text, rest, rfl, rfl, .inl hmem⟩
    · obtain ⟨i, hi, rfl⟩ := Option.map_eq_some_iff.1 h
      obtain ⟨earlier, text', later, rfl, rfl, hmem⟩ := ih hi
      refine ⟨text :: earlier, text', later, rfl, rfl, ?_⟩
      rcases hmem with hmem | hmem
      · rcases List.mem_cons.1 hmem with rfl | hmem
        · exact .inr List.mem_cons_self
        · exact .inl hmem
      · exact .inr (List.mem_cons_of_mem _ hmem)

namespace Formula
variable {f g : Formula} {j : Nat}

/-- The disjunct that `firstRepeat` finds by its text also stands before its place. -/
theorem WellFormed.exists_repeat (hf : f.WellFormed)
    (h : firstRepeat [] (f.disjuncts.map literal) = some j) :
    ∃ earlier a later, f.disjuncts = earlier ++ a :: later ∧ earlier.length = j ∧ a ∈ earlier := by
  obtain ⟨texts, text, texts', hmap, hlen, hmem⟩ := exists_of_firstRepeat h
  obtain ⟨earlier, rest, hsplit, rfl, hrest⟩ := List.map_eq_append_iff.1 hmap
  obtain ⟨a, later, rfl, rfl, rfl⟩ := List.map_eq_cons_iff.1 hrest
  refine ⟨earlier, a, later, hsplit, by simpa using hlen, ?_⟩
  have hmem := hmem.resolve_left List.not_mem_nil
  obtain ⟨b, hb, hba⟩ := List.mem_map.1 hmem
  have hwf : ∀ c ∈ earlier ++ a :: later, c.WellFormed := fun c hc =>
    hf.of_mem_disjuncts (by rw [hsplit]; exact hc)
  rw [← ((hwf b (by simp [hb])).literal_inj (hwf a (by simp))).1 hba]
  exact hb

theorem eval_without_firstRepeat (hf : f.WellFormed)
    (h : firstRepeat [] (f.disjuncts.map literal) = some j) (hg : f.without j = some g) (σ : Valuation) :
    g.eval σ = f.eval σ := by
  obtain ⟨earlier, a, later, hsplit, rfl, hmem⟩ := hf.exists_repeat h
  have hj : earlier.length < f.disjuncts.length := by rw [hsplit]; simp
  rw [eval_eq_any_disjuncts σ g, eval_eq_any_disjuncts σ f, disjuncts_without hj hg, hsplit]
  rw [List.eraseIdx_append_of_length_le (Nat.le_refl _), Nat.sub_self, List.eraseIdx_cons_zero]
  rw [List.any_append, List.any_append, List.any_cons]
  cases ha : a.eval σ with
  | false => rw [Bool.false_or]
  | true =>
    have hany : earlier.any (·.eval σ) = true := List.any_eq_true.2 ⟨a, hmem, ha⟩
    rw [hany, Bool.true_or, Bool.true_or]

theorem WellFormed.clash_iff (hf : f.WellFormed) :
    clash f.disjuncts = true ↔ ∃ a ∈ f.disjuncts, Formula.not a ∈ f.disjuncts := by
  rw [Formula.clash_iff]
  constructor
  · rintro ⟨a, hna, b, hb, hab⟩
    have ha : (Formula.not a).WellFormed := hf.of_mem_disjuncts hna
    obtain rfl := (WellFormed.chars_inj (f := a) ha (hf.of_mem_disjuncts hb)).1 hab
    exact ⟨a, hb, hna⟩
  · rintro ⟨a, ha, hna⟩
    exact ⟨a, hna, a, ha, rfl⟩

/-- Of a formula and its negation one is true. -/
theorem eval_of_clash (hf : f.WellFormed) (h : clash f.disjuncts = true) (σ : Valuation) :
    f.eval σ = true := by
  obtain ⟨a, ha, hna⟩ := hf.clash_iff.1 h
  rw [eval_eq_any_disjuncts σ f, List.any_eq_true]
  cases hv : a.eval σ with
  | false => exact ⟨not a, hna, by rw [eval, hv]; rfl⟩
  | true => exact ⟨a, ha, hv⟩

end Formula

end Sentential
