import Sentential.Formula.Eval

/-!
# Truth tables

A table has a column for each variable of its formula and a row for each assignment of truth values to
them. The first row makes all variables true, and the last variable changes fastest.
-/

namespace Sentential

structure TruthTable.Row where
  values : List Bool
  result : Bool
  deriving DecidableEq, Repr

structure TruthTable where
  formula : Formula
  columns : List String
  rows : List TruthTable.Row
  deriving DecidableEq

namespace TruthTable

/-- All ways to give values to `n` variables. -/
def assignments : Nat → List (List Bool)
  | 0 => [[]]
  | n + 1 => (assignments n).map (true :: ·) ++ (assignments n).map (false :: ·)

def row (f : Formula) (columns : List String) (values : List Bool) : Row :=
  ⟨values, f.eval (.ofPairs (columns.zip values))⟩

/-- The program counts rows in 64 bits, so its table is this one below 64 columns only, and from there on the count
overflows; here there is no limit. -/
def ofFormula (f : Formula) : TruthTable :=
  ⟨f, f.vars, (assignments f.vars.length).map (row f f.vars)⟩

theorem length_of_mem_assignments {n : Nat} {values : List Bool} (h : values ∈ assignments n) :
    values.length = n := by
  induction n generalizing values with
  | zero => rw [assignments, List.mem_singleton] at h; rw [h]; rfl
  | succ n ih =>
    rw [assignments, List.mem_append] at h
    rcases h with h | h
    · obtain ⟨rest, hrest, rfl⟩ := List.mem_map.1 h
      rw [List.length_cons, ih hrest]
    · obtain ⟨rest, hrest, rfl⟩ := List.mem_map.1 h
      rw [List.length_cons, ih hrest]

end TruthTable

end Sentential
