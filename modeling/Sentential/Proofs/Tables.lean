import Mathlib.Algebra.Ring.Nat
import Mathlib.Data.List.Induction
import Mathlib.Data.List.Nodup
import Sentential.TruthTable.Basic

/-!
# Every assignment has one row

The rows of a truth table count down in binary (`assignments_eq`), so all ways to give values to the columns
are listed, each once. The columns are the names that occur in the formula, in the order in which they
first occur. As the value of a formula depends on no other names, the row that agrees with a valuation on the
columns has the value of the formula under it (`eval_ofPairs_zip_map`).
-/

namespace Sentential

/-- Each entry is kept where it occurs first. -/
theorem pairwise_idxOf_eraseDups (names : List String) :
    names.eraseDups.Pairwise fun a b => names.idxOf a < names.idxOf b := by
  induction names using List.reverseRecOn with
  | nil => exact List.Pairwise.nil
  | append_singleton names name ih =>
    have hearlier : ∀ a ∈ names.eraseDups, (names ++ [name]).idxOf a = names.idxOf a := fun a ha =>
      List.idxOf_append_of_mem (List.mem_eraseDups.1 ha)
    have hkeep : names.eraseDups.Pairwise fun a b => (names ++ [name]).idxOf a < (names ++ [name]).idxOf b := by
      refine ih.imp_of_mem fun ha hb hlt => ?_
      rw [hearlier _ ha, hearlier _ hb]
      exact hlt
    rw [List.eraseDups_append]
    by_cases hname : name ∈ names
    · have hnone : [name].removeAll names = [] := by simp [List.removeAll, hname]
      rw [hnone, List.eraseDups_nil, List.append_nil]
      exact hkeep
    · have hone : ([name].removeAll names).eraseDups = [name] := by simp [List.removeAll, hname, List.eraseDups_cons]
      rw [hone, List.pairwise_append]
      refine ⟨hkeep, List.pairwise_singleton _ _, fun a ha b hb => ?_⟩
      have ha' := List.mem_eraseDups.1 ha
      rw [List.mem_singleton.1 hb, hearlier a ha, List.idxOf_append_of_notMem hname]
      have hlt := List.idxOf_lt_length_iff.2 ha'
      omega

/-- Looking the columns up gives their values back. -/
theorem Valuation.ofPairs_zip_map {columns : List String} (σ : Valuation) {name : String}
    (h : name ∈ columns) : ofPairs (columns.zip (columns.map σ)) name = σ name := by
  induction columns with
  | nil => cases h
  | cons column columns ih =>
    rw [ofPairs, List.map_cons, List.zip_cons_cons, List.lookup_cons]
    by_cases hname : name = column
    · simp [hname]
    · have hbeq : (name == column) = false := beq_false_of_ne hname
      rw [hbeq]
      exact ih (List.mem_of_ne_of_mem hname h)

namespace Formula

theorem mem_vars {f : Formula} {name : String} : name ∈ f.vars ↔ name ∈ f.names := List.mem_eraseDups

theorem nodup_vars (f : Formula) : f.vars.Nodup := by
  refine (pairwise_idxOf_eraseDups f.names).imp fun hlt => ?_
  rintro rfl
  exact Nat.lt_irrefl _ hlt

theorem eval_ofPairs_zip_map (σ : Valuation) (f : Formula) :
    f.eval (.ofPairs (f.vars.zip (f.vars.map σ))) = f.eval σ :=
  eval_congr fun _ hname => Valuation.ofPairs_zip_map σ (mem_vars.2 hname)

end Formula

namespace TruthTable

/-- The `n` lowest binary digits of `k`, the highest of them first. -/
def digits (n k : Nat) : List Bool := (List.range n).map fun i => k.testBit (n - 1 - i)

example : digits 3 6 = [true, true, false] := by decide

theorem digits_succ (n k : Nat) : digits (n + 1) k = k.testBit n :: digits n k := by
  rw [digits, List.range_succ_eq_map, List.map_cons, List.map_map, digits]
  congr 1
  refine List.map_congr_left fun i _ => ?_
  show k.testBit (n + 1 - 1 - (i + 1)) = k.testBit (n - 1 - i)
  congr 1
  omega

theorem digits_two_pow_add (n k : Nat) : digits n (2 ^ n + k) = digits n k := by
  refine List.map_congr_left fun i hi => ?_
  have hlt := List.mem_range.1 hi
  exact Nat.testBit_two_pow_add_gt (by omega) k

/-- The assignments are the binary numbers of `n` digits, from the greatest down. -/
theorem assignments_eq (n : Nat) :
    assignments n = (List.range (2 ^ n)).map fun k => digits n (2 ^ n - 1 - k) := by
  induction n with
  | zero => rfl
  | succ n ih =>
    rw [assignments, ih, Nat.pow_succ, Nat.mul_two, List.range_add, List.map_append]
    simp only [List.map_map]
    congr 1
    · refine List.map_congr_left fun k hk => ?_
      have hlt := List.mem_range.1 hk
      have htop : 2 ^ n + 2 ^ n - 1 - k = 2 ^ n + (2 ^ n - 1 - k) := by omega
      have hbit : (2 ^ n - 1 - k).testBit n = false := Nat.testBit_lt_two_pow (by omega)
      simp only [Function.comp_apply]
      rw [htop, digits_succ, Nat.testBit_two_pow_add_eq, hbit, digits_two_pow_add, Bool.not_false]
    · refine List.map_congr_left fun k hk => ?_
      have hlt := List.mem_range.1 hk
      have hrest : 2 ^ n + 2 ^ n - 1 - (2 ^ n + k) = 2 ^ n - 1 - k := by omega
      have hbit : (2 ^ n - 1 - k).testBit n = false := Nat.testBit_lt_two_pow (by omega)
      simp only [Function.comp_apply]
      rw [hrest, digits_succ, hbit]

theorem length_assignments (n : Nat) : (assignments n).length = 2 ^ n := by
  rw [assignments_eq, List.length_map, List.length_range]

theorem mem_assignments {n : Nat} {values : List Bool} : values ∈ assignments n ↔ values.length = n := by
  refine ⟨length_of_mem_assignments, fun h => ?_⟩
  induction n generalizing values with
  | zero => simp [List.length_eq_zero_iff.1 h, assignments]
  | succ n ih =>
    cases values with
    | nil => cases h
    | cons value rest =>
      have hrest := List.mem_map_of_mem (f := (value :: ·)) (ih (Nat.succ.inj h))
      rw [assignments, List.mem_append]
      cases value with
      | true => exact .inl hrest
      | false => exact .inr hrest

theorem nodup_assignments (n : Nat) : (assignments n).Nodup := by
  induction n with
  | zero => exact List.nodup_singleton _
  | succ n ih =>
    rw [assignments, List.nodup_append]
    refine ⟨ih.map (List.cons_injective), ih.map (List.cons_injective), fun a ha b hb => ?_⟩
    obtain ⟨rest, -, rfl⟩ := List.mem_map.1 ha
    obtain ⟨rest', -, rfl⟩ := List.mem_map.1 hb
    simp

theorem length_rows (f : Formula) : (ofFormula f).rows.length = 2 ^ f.vars.length := by
  rw [ofFormula, List.length_map, length_assignments]

theorem values_getElem (f : Formula) {k : Nat} (hk : k < (ofFormula f).rows.length)
    (hk' : k < (assignments f.vars.length).length) :
    (ofFormula f).rows[k].values = (assignments f.vars.length)[k] := by
  simp [ofFormula, row]

theorem result_of_mem_rows {f : Formula} {r : Row} (hr : r ∈ (ofFormula f).rows) {σ : Valuation}
    (h : r.values = f.vars.map σ) : r.result = f.eval σ := by
  obtain ⟨values, -, rfl⟩ := List.mem_map.1 hr
  have hvalues : values = f.vars.map σ := h
  rw [row, hvalues]
  exact f.eval_ofPairs_zip_map σ

/-- The columns are the names in a formula, each once and in the order in which they first occur. There are as
many rows as assignments to them, counting down in binary; and for every valuation, whatever it says of other
names, exactly one row agrees with it on the columns, and holds the value of the formula under it. -/
theorem ofFormula_lists_assignments (f : Formula) :
    let t := ofFormula f
    let n := t.columns.length
    (t.columns.Nodup ∧ (∀ name, name ∈ t.columns ↔ name ∈ f.names) ∧
      t.columns.Pairwise fun a b => f.names.idxOf a < f.names.idxOf b) ∧
    t.rows.length = 2 ^ n ∧
    (∀ k : Fin t.rows.length, t.rows[k].values = digits n (2 ^ n - 1 - k)) ∧
    ∀ σ : Valuation, ∃ k : Fin t.rows.length,
      t.rows[k].values = t.columns.map σ ∧ t.rows[k].result = f.eval σ ∧
        ∀ j : Fin t.rows.length, t.rows[j].values = t.columns.map σ → j = k := by
  intro t n
  have hlen : (assignments f.vars.length).length = t.rows.length := by
    rw [length_assignments, length_rows]
  have hvalues : ∀ k : Fin t.rows.length,
      t.rows[k].values = (assignments f.vars.length).get (k.cast hlen.symm) :=
    fun k => values_getElem f k.isLt (k.cast hlen.symm).isLt
  refine ⟨⟨f.nodup_vars, fun _ => Formula.mem_vars, pairwise_idxOf_eraseDups f.names⟩, length_rows f, ?_, ?_⟩
  · intro k
    rw [hvalues k]
    simp only [assignments_eq, List.get_eq_getElem, List.getElem_map, List.getElem_range]
    rfl
  · intro σ
    have hmem : t.columns.map σ ∈ assignments f.vars.length := mem_assignments.2 (List.length_map _)
    obtain ⟨i, hassign⟩ := List.mem_iff_get.1 hmem
    have hrow : t.rows[i.cast hlen].values = t.columns.map σ := (hvalues (i.cast hlen)).trans hassign
    refine ⟨i.cast hlen, hrow, result_of_mem_rows (List.getElem_mem _) hrow, fun j hj => ?_⟩
    have hsame := (hvalues j).symm.trans (hj.trans hassign.symm)
    have hij : j.cast hlen.symm = i := (nodup_assignments _).injective_get hsame
    rw [← hij]
    rfl

end TruthTable

end Sentential
