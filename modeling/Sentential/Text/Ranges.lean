/-!
# Ranges of code points

A class of characters given by a standard is a list of closed ranges of code points in increasing order.
`Ranges.contains` stops at the first range that ends at or behind the point; for ordered ranges that is
membership in their union (`Ranges.contains_iff`).
-/

namespace Sentential.Text

/-- Closed ranges, in increasing order. -/
abbrev Ranges := List (Nat × Nat)

namespace Ranges

def contains : Ranges → Nat → Bool
  | [], _ => false
  | (lo, hi) :: rest, n => if n ≤ hi then lo ≤ n else contains rest n

/-- Each range is nonempty and lies behind `bound` and behind those before it. -/
def Ordered : Nat → Ranges → Prop
  | _, [] => True
  | bound, (lo, hi) :: rest => bound ≤ lo ∧ lo ≤ hi ∧ Ordered (hi + 1) rest

theorem Ordered.le_of_mem {bound : Nat} {rs : Ranges} (h : Ordered bound rs) {r : Nat × Nat}
    (hr : r ∈ rs) : bound ≤ r.1 := by
  induction rs generalizing bound with
  | nil => simp at hr
  | cons q rest ih =>
    obtain ⟨hlo, hle, hrest⟩ := h
    rcases List.mem_cons.1 hr with rfl | hr
    · exact hlo
    · have := ih hrest hr; omega

theorem contains_iff {bound : Nat} {rs : Ranges} (h : Ordered bound rs) (n : Nat) :
    contains rs n = true ↔ ∃ r ∈ rs, r.1 ≤ n ∧ n ≤ r.2 := by
  induction rs generalizing bound with
  | nil => simp [contains]
  | cons q rest ih =>
    obtain ⟨lo, hi⟩ := q
    obtain ⟨_, _, hrest⟩ := h
    rw [contains]
    split
    · next hn =>
      rw [decide_eq_true_iff]
      refine ⟨fun hlo => ⟨_, List.mem_cons_self, hlo, hn⟩, ?_⟩
      rintro ⟨r, hr, hlo, hhi⟩
      rcases List.mem_cons.1 hr with rfl | hr
      · exact hlo
      · have := hrest.le_of_mem hr; omega
    · next hn =>
      rw [ih hrest]
      refine ⟨fun ⟨r, hr, hin⟩ => ⟨r, List.mem_cons_of_mem _ hr, hin⟩, ?_⟩
      rintro ⟨r, hr, hlo, hhi⟩
      rcases List.mem_cons.1 hr with rfl | hr
      · exact absurd hhi hn
      · exact ⟨r, hr, hlo, hhi⟩

end Ranges

end Sentential.Text
