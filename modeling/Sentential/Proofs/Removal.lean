import Mathlib.Algebra.BigOperators.Group.List.Basic
import Mathlib.Algebra.GroupWithZero.Nat
import Mathlib.Data.Nat.Find
import Sentential.Proofs.Disjuncts

/-!
# Taking a repeated disjunct away

The nodes of a chain are its `joints`, each known by its glyph and by the disjuncts that stand on either side of it.
Without the `j`-th disjunct, the node that held it is gone and its other side stands in its place; all other nodes are
left as they were, but for the places of the disjuncts behind the `j`-th (`joints_without`, by induction along the
path to that disjunct). As the disjuncts and the joints of a chain determine it, this says all there is to say of
`without`, and the rule for duplicates takes away the first disjunct whose text occurred before
(`firstRepeat_eq_some_iff`). A traversal that numbers the disjuncts as it comes to them (`strike`) arrives at the same.
-/

namespace Sentential

/-- The `j`-th text is in `seen` or occurred earlier. -/
def IsRepeat (seen texts : List String) (j : Nat) : Prop :=
  ∃ text ∈ texts[j]?, text ∈ seen ∨ text ∈ texts.take j

section
variable {seen texts rest : List String} {text : String} {j : Nat}

theorem isRepeat_zero : IsRepeat seen (text :: rest) 0 ↔ text ∈ seen := by
  simp [IsRepeat]

theorem isRepeat_succ : IsRepeat seen (text :: rest) (j + 1) ↔ IsRepeat (text :: seen) rest j := by
  simp [IsRepeat, or_assoc, or_left_comm]

theorem firstRepeat_eq_some_iff :
    firstRepeat seen texts = some j ↔ IsRepeat seen texts j ∧ ∀ i < j, ¬IsRepeat seen texts i := by
  induction texts generalizing seen j with
  | nil => simp [firstRepeat, IsRepeat]
  | cons text rest ih =>
    rw [firstRepeat]
    by_cases hseen : text ∈ seen
    · rw [if_pos hseen]
      constructor
      · rintro ⟨⟩
        exact ⟨isRepeat_zero.2 hseen, fun i hi => absurd hi (Nat.not_lt_zero i)⟩
      · rintro ⟨-, hleast⟩
        rcases Nat.eq_zero_or_pos j with rfl | hpos
        · rfl
        · exact absurd (isRepeat_zero.2 hseen) (hleast 0 hpos)
    · rw [if_neg hseen]
      cases j with
      | zero => simp [isRepeat_zero, hseen]
      | succ j =>
        rw [isRepeat_succ, Option.map_eq_some_iff]
        simp only [Nat.add_right_cancel_iff, exists_eq_right, ih, Nat.forall_lt_succ_left, isRepeat_zero, hseen,
          isRepeat_succ, not_false_eq_true, true_and]

end

namespace Formula

/-- The `j`-th of the formulas has the text of one before it. -/
def Repeats (fs : List Formula) (j : Nat) : Prop := ∃ d ∈ fs[j]?, ∃ e ∈ fs.take j, e.literal = d.literal

instance (fs : List Formula) (j : Nat) : Decidable (Repeats fs j) := inferInstanceAs (Decidable (∃ _ ∈ _, _))

/-- A node of a chain of disjunctions: its left side holds the disjuncts from `start` up to `middle`, and its right
side those from there up to `stop`. -/
structure Joint where
  glyph : String
  start : Nat
  middle : Nat
  stop : Nat
  deriving DecidableEq

namespace Joint

/-- Neither side is the `j`-th disjunct alone. -/
def KeepsBoth (j : Nat) (x : Joint) : Prop := ¬(x.start = j ∧ x.middle = j + 1) ∧ ¬(x.middle = j ∧ x.stop = j + 1)

instance (j : Nat) : DecidablePred (KeepsBoth j) := fun _ => inferInstanceAs (Decidable (_ ∧ _))

/-- Where a place among the disjuncts comes to be without the `j`-th of them. -/
def place (j p : Nat) : Nat := if p ≤ j then p else p - 1

def renumber (j : Nat) (x : Joint) : Joint := ⟨x.glyph, place j x.start, place j x.middle, place j x.stop⟩

end Joint

/-- The nodes of a chain whose first disjunct stands at `start`, each one before those of its sides. -/
def joints : Formula → Nat → List Joint
  | .binary glyph .or l r, start =>
    ⟨glyph, start, start + l.disjuncts.length, start + l.disjuncts.length + r.disjuncts.length⟩ ::
      (l.joints start ++ r.joints (start + l.disjuncts.length))
  | _, _ => []

/-- The nodes that keep both sides without the `j`-th disjunct, as they are numbered then. -/
def jointsLeft (j : Nat) (xs : List Joint) : List Joint := (xs.filter (·.KeepsBoth j)).map (·.renumber j)

/-- The number of disjunctions anywhere in a formula. -/
def disjunctions : Formula → Nat
  | .var _ | .const _ => 0
  | .not a => a.disjunctions
  | .binary _ c l r => (if c = .or then 1 else 0) + l.disjunctions + r.disjunctions

/-- Goes through a chain from left to right and leaves out the disjunct with the number `target`, where the first one
has the number `next`. Beside what is left stands the number after that of the last disjunct. -/
def strike (target : Nat) : Formula → Nat → Option Formula × Nat
  | .binary glyph .or l r, next =>
    let (l?, next) := l.strike target next
    let (r?, next) := r.strike target next
    (match l?, r? with
      | some l, some r => some (.binary glyph .or l r)
      | some side, none | none, some side => some side
      | none, none => none, next)
  | d, next => (if next = target then none else some d, next + 1)

variable {f g : Formula} {glyph : String} {fs : List Formula} {j s : Nat}

/-! ## The nodes of a chain -/

theorem joints_leaf (hf : ∀ glyph l r, f = .binary glyph .or l r → False) : f.joints s = [] := by
  unfold joints
  split
  · exact (hf _ _ _ rfl).elim
  · rfl

/-- A chain has one node less than disjuncts. -/
theorem length_joints (f : Formula) (s : Nat) : (f.joints s).length + 1 = f.disjuncts.length := by
  fun_induction joints f s with
  | case1 glyph l r s ihl ihr =>
    rw [List.length_cons, List.length_append, disjuncts, List.length_append]
    omega
  | case2 f s hf => rw [disjuncts_leaf hf]; rfl

theorem joints_of_length_disjuncts (h : f.disjuncts.length = 1) (s : Nat) : f.joints s = [] := by
  have hlen := f.length_joints s
  rw [h] at hlen
  exact List.length_eq_zero_iff.1 (Nat.succ.inj hlen)

/-- A chain is known by its disjuncts and its nodes. -/
theorem eq_of_disjuncts_of_joints (hd : f.disjuncts = g.disjuncts) (hj : f.joints s = g.joints s) : f = g := by
  fun_induction joints f s generalizing g with
  | case1 glyph l r s ihl ihr =>
    rcases g.disjunction_or_leaf with ⟨glyph', l', r', rfl⟩ | hleaf
    · rw [joints] at hj
      obtain ⟨hhead, htail⟩ := List.cons_eq_cons.1 hj
      obtain ⟨rfl, -, hmiddle, -⟩ := Joint.mk.inj hhead
      have hlen : l.disjuncts.length = l'.disjuncts.length := Nat.add_left_cancel hmiddle
      obtain ⟨hl, hr⟩ := List.append_inj hd hlen
      have hjoints : (l.joints s).length = (l'.joints s).length := by
        have := l.length_joints s
        have := l'.length_joints s
        omega
      obtain ⟨hjl, hjr⟩ := List.append_inj htail hjoints
      rw [← hmiddle] at hjr
      rw [ihl hl hjl, ihr hr hjr]
    · rw [joints_of_length_disjuncts (congrArg List.length hleaf)] at hj
      cases hj
  | case2 f s hf =>
    rcases g.disjunction_or_leaf with ⟨glyph', l', r', rfl⟩ | hleaf
    · rw [joints] at hj
      cases hj
    · rw [disjuncts_leaf hf, hleaf] at hd
      exact List.singleton_inj.1 hd

/-! ## The nodes without a disjunct -/

theorem jointsLeft_append (j : Nat) (xs ys : List Joint) :
    jointsLeft j (xs ++ ys) = jointsLeft j xs ++ jointsLeft j ys := by
  rw [jointsLeft, List.filter_append, List.map_append]
  rfl

theorem jointsLeft_cons_kept {x : Joint} (h : x.KeepsBoth j) (xs : List Joint) :
    jointsLeft j (x :: xs) = x.renumber j :: jointsLeft j xs := by
  rw [jointsLeft, List.filter_cons_of_pos (by simpa using h), List.map_cons]
  rfl

theorem jointsLeft_cons_gone {x : Joint} (h : ¬x.KeepsBoth j) (xs : List Joint) :
    jointsLeft j (x :: xs) = jointsLeft j xs := by
  rw [jointsLeft, List.filter_cons_of_neg (by simpa using h)]
  rfl

theorem Joint.keepsBoth_iff {start middle stop : Nat} :
    Joint.KeepsBoth j ⟨glyph, start, middle, stop⟩ ↔
      ¬(start = j ∧ middle = j + 1) ∧ ¬(middle = j ∧ stop = j + 1) := Iff.rfl

theorem Joint.place_of_le {p : Nat} (h : p ≤ j) : place j p = p := if_pos h

theorem Joint.place_of_lt {p : Nat} (h : j < p) : place j p = p - 1 := if_neg (Nat.not_le.2 h)

/-- Nodes before the place do not notice. -/
theorem jointsLeft_joints_before (h : s + f.disjuncts.length ≤ j) : jointsLeft j (f.joints s) = f.joints s := by
  fun_induction joints f s with
  | case1 glyph l r s ihl ihr =>
    rw [disjuncts, List.length_append] at h
    have hr := List.length_pos_iff.2 r.disjuncts_ne_nil
    rw [jointsLeft_cons_kept (Joint.keepsBoth_iff.2 (by omega)), jointsLeft_append, ihl (by omega), ihr (by omega)]
    simp only [Joint.renumber]
    rw [Joint.place_of_le (by omega), Joint.place_of_le (by omega), Joint.place_of_le (by omega)]
  | case2 f s hf => rfl

/-- Nodes behind the place move up by one. -/
theorem jointsLeft_joints_behind (h : j < s) : jointsLeft j (f.joints s) = f.joints (s - 1) := by
  fun_induction joints f s with
  | case1 glyph l r s ihl ihr =>
    have hl := List.length_pos_iff.2 l.disjuncts_ne_nil
    have hmiddle : s + l.disjuncts.length - 1 = s - 1 + l.disjuncts.length := by omega
    have hstop : s + l.disjuncts.length + r.disjuncts.length - 1 = s - 1 + l.disjuncts.length + r.disjuncts.length := by
      omega
    rw [jointsLeft_cons_kept (Joint.keepsBoth_iff.2 (by omega)), jointsLeft_append, ihl h, ihr (by omega), joints]
    simp only [Joint.renumber]
    rw [Joint.place_of_lt h, Joint.place_of_lt (by omega), Joint.place_of_lt (by omega), hmiddle, hstop]
  | case2 f s hf => rw [joints_leaf hf]; rfl

/-- The path to the disjunct ends at the node that holds it; the nodes on the way keep both sides. -/
theorem joints_without (hj : j < f.disjuncts.length) (h : f.without j = some g) :
    g.joints s = jointsLeft (s + j) (f.joints s) := by
  fun_induction without f j generalizing g s with
  | case1 glyph l r j hlt l' hl' ih =>
    cases h
    have hpos := List.length_pos_iff.2 l'.disjuncts_ne_nil
    have hlen : l'.disjuncts.length + 1 = l.disjuncts.length := by
      rw [disjuncts_without hlt hl', List.length_eraseIdx_of_lt hlt]
      omega
    have hmiddle : s + l.disjuncts.length - 1 = s + l'.disjuncts.length := by omega
    have hstop : s + l.disjuncts.length + r.disjuncts.length - 1 = s + l'.disjuncts.length + r.disjuncts.length := by
      omega
    rw [joints, joints, jointsLeft_cons_kept (Joint.keepsBoth_iff.2 (by omega)), jointsLeft_append, ← ih hlt hl',
      jointsLeft_joints_behind (by omega)]
    simp only [Joint.renumber]
    rw [Joint.place_of_le (by omega), Joint.place_of_lt (by omega), Joint.place_of_lt (by omega), hmiddle, hstop]
  | case2 glyph l r j hlt hl' ih =>
    -- the left side was the disjunct
    cases h
    have hlen := length_disjuncts_of_without_eq_none hl'
    rw [joints, jointsLeft_cons_gone (fun hkept => (Joint.keepsBoth_iff.1 hkept).1 (by omega)), jointsLeft_append,
      joints_of_length_disjuncts hlen, jointsLeft_joints_behind (by omega), hlen]
    rfl
  | case3 glyph l r j hlt r' hr' ih =>
    cases h
    have hjr : j - l.disjuncts.length < r.disjuncts.length := by
      rw [disjuncts, List.length_append] at hj
      omega
    have hpos := List.length_pos_iff.2 r'.disjuncts_ne_nil
    have hlen : r'.disjuncts.length + 1 = r.disjuncts.length := by
      rw [disjuncts_without hjr hr', List.length_eraseIdx_of_lt hjr]
      omega
    have hplace : s + l.disjuncts.length + (j - l.disjuncts.length) = s + j := by omega
    have hstop : s + l.disjuncts.length + r.disjuncts.length - 1 = s + l.disjuncts.length + r'.disjuncts.length := by
      omega
    rw [joints, joints, jointsLeft_cons_kept (Joint.keepsBoth_iff.2 (by omega)), jointsLeft_append, ih hjr hr', hplace,
      jointsLeft_joints_before (f := l) (by omega)]
    simp only [Joint.renumber]
    rw [Joint.place_of_le (by omega), Joint.place_of_le (by omega), Joint.place_of_lt (by omega), hstop]
  | case4 glyph l r j hlt hr' ih =>
    -- the right side was the disjunct
    cases h
    have hlen := length_disjuncts_of_without_eq_none hr'
    rw [disjuncts, List.length_append, hlen] at hj
    rw [joints, jointsLeft_cons_gone (fun hkept => (Joint.keepsBoth_iff.1 hkept).2 (by omega)), jointsLeft_append,
      joints_of_length_disjuncts hlen, jointsLeft_joints_before (by omega)]
    exact (List.append_nil _).symm
  | case5 f hf => cases h
  | case6 f j hf hj0 =>
    rw [disjuncts_leaf hf, List.length_singleton] at hj
    exact absurd (Nat.lt_one_iff.1 hj) hj0

/-- Each disjunct brings the disjunctions within it, and all of them but one a node of the chain. -/
theorem disjunctions_add_one (f : Formula) :
    f.disjunctions + 1 = (f.disjuncts.map fun d => d.disjunctions + 1).sum := by
  fun_induction disjuncts f with
  | case1 glyph l r ihl ihr =>
    rw [List.map_append, List.sum_append, ← ihl, ← ihr, disjunctions, if_pos rfl]
    omega
  | case2 f hf => rfl

theorem disjunctions_without {d : Formula} (hd : f.disjuncts[j]? = some d) (h : f.without j = some g) :
    f.disjunctions = g.disjunctions + d.disjunctions + 1 := by
  obtain ⟨hj, rfl⟩ := List.getElem?_eq_some_iff.1 hd
  have hf := f.disjunctions_add_one
  have hg := g.disjunctions_add_one
  have hperm := (List.getElem_cons_eraseIdx_perm hj).map fun d => d.disjunctions + 1
  rw [← hperm.sum_eq, List.map_cons, List.sum_cons, ← disjuncts_without hj h, ← hg] at hf
  omega

/-! ## Numbering the disjuncts on the way -/

theorem without_leaf (hf : ∀ glyph l r, f = .binary glyph .or l r → False) (j : Nat) :
    f.without j = if j = 0 then none else some f := by
  unfold without
  split
  · exact (hf _ _ _ rfl).elim
  · rfl

theorem without_of_length_le (h : f.disjuncts.length ≤ j) : f.without j = some f := by
  fun_induction without f j with
  | case1 glyph l r j hlt | case2 glyph l r j hlt =>
    rw [disjuncts, List.length_append] at h
    omega
  | case3 glyph l r j hlt r' hr' ih =>
    rw [disjuncts, List.length_append] at h
    rw [ih (by omega)] at hr'
    cases hr'
    rfl
  | case4 glyph l r j hlt hr' ih =>
    rw [disjuncts, List.length_append] at h
    rw [ih (by omega)] at hr'
    cases hr'
  | case5 f hf => rw [disjuncts_leaf hf] at h; cases h
  | case6 f j hf hj0 => rfl

/-- What precedes the target is left as it is; within a chain, the target is the disjunct that stands as far from its
beginning. -/
theorem strike_eq (target : Nat) (f : Formula) (next : Nat) :
    f.strike target next =
      (if next ≤ target then f.without (target - next) else some f, next + f.disjuncts.length) := by
  fun_induction strike target f next with
  | case1 glyph l r next l? middle hl r? stop hr ihl ihr =>
    obtain ⟨rfl, rfl⟩ := Prod.mk.inj (hl.symm.trans ihl)
    obtain ⟨rfl, rfl⟩ := Prod.mk.inj (hr.symm.trans ihr)
    rw [disjuncts, List.length_append, ← Nat.add_assoc]
    congr 1
    by_cases hnext : next ≤ target
    · rw [if_pos hnext, if_pos hnext, without]
      by_cases hlt : target - next < l.disjuncts.length
      · -- the target is on the left, if anywhere
        rw [if_pos hlt, if_neg (by omega)]
        cases l.without (target - next) <;> rfl
      · rw [if_neg hlt, if_pos (by omega), without_of_length_le (Nat.le_of_not_lt hlt), Nat.sub_sub]
        cases r.without (target - (next + l.disjuncts.length)) <;> rfl
    · rw [if_neg hnext, if_neg hnext, if_neg (by omega)]
  | case2 d next hd =>
    rw [disjuncts_leaf hd, without_leaf hd, List.length_singleton]
    congr 1
    split
    · next heq => rw [if_pos (Nat.le_of_eq heq), if_pos (by omega)]
    · split
      · rw [if_neg (by omega)]
      · rfl

/-! ## The rule for duplicates -/

theorem isRepeat_map_literal : IsRepeat [] (fs.map literal) j ↔ Repeats fs j := by
  simp [IsRepeat, Repeats, ← List.map_take]

theorem Repeats.one_lt_length (h : Repeats fs j) : 1 < fs.length := by
  obtain ⟨d, hd, e, he, -⟩ := h
  obtain ⟨hj, -⟩ := List.getElem?_eq_some_iff.1 hd
  have hpos := List.length_pos_of_mem he
  rw [List.length_take] at hpos
  omega

theorem reduce?_duplicateAlternative (f : Formula) :
    Rule.duplicateAlternative.reduce? f = (firstRepeat [] (f.disjuncts.map literal)).bind f.without := by
  cases f with
  | binary glyph c l r => cases c <;> rfl
  | _ => rfl

theorem exists_repeats_of_reduce? (h : Rule.duplicateAlternative.reduce? f = some g) :
    ∃ j, Repeats f.disjuncts j := by
  rw [reduce?_duplicateAlternative] at h
  obtain ⟨j, hj, -⟩ := Option.bind_eq_some_iff.1 h
  exact ⟨j, isRepeat_map_literal.1 (firstRepeat_eq_some_iff.1 hj).1⟩

theorem exists_reduce?_of_repeats (hj : Repeats f.disjuncts j) (hleast : ∀ i < j, ¬Repeats f.disjuncts i) :
    ∃ g, f.without j = some g ∧ Rule.duplicateAlternative.reduce? f = some g := by
  have hfirst : firstRepeat [] (f.disjuncts.map literal) = some j := by
    simpa only [firstRepeat_eq_some_iff, isRepeat_map_literal] using ⟨hj, hleast⟩
  rw [reduce?_duplicateAlternative, hfirst, Option.bind_some]
  cases h : f.without j with
  | none => exact absurd (length_disjuncts_of_without_eq_none h) (Nat.ne_of_gt hj.one_lt_length)
  | some g => exact ⟨g, rfl, rfl⟩

/-- The rule for duplicates fires at a disjunction of whose chain some disjunct has the text of an earlier one, and
nowhere else. Of the first such disjunct and of the node that held it nothing is left; the other disjuncts stay, in
their order, and so do the other nodes, with their glyphs and with what they join. There is just one formula like
that, and a traversal that numbers the disjuncts on its way finds it. -/
theorem duplicateAlternative_drops_first_repeat (f : Formula) :
    ((Rule.duplicateAlternative.reduce? f).isSome ↔ f.connective? = some .or ∧ ∃ j, Repeats f.disjuncts j) ∧
    ∀ j, Repeats f.disjuncts j → (∀ i < j, ¬Repeats f.disjuncts i) →
      ∃ g, Rule.duplicateAlternative.reduce? f = some g ∧
        g.disjuncts = f.disjuncts.eraseIdx j ∧
        (g.joints 0).length + 1 = (f.joints 0).length ∧
        g.joints 0 = jointsLeft j (f.joints 0) ∧
        (∀ d, f.disjuncts[j]? = some d → f.disjunctions = g.disjunctions + d.disjunctions + 1) ∧
        (∀ g', g'.disjuncts = f.disjuncts.eraseIdx j → g'.joints 0 = jointsLeft j (f.joints 0) → g' = g) ∧
        f.strike j 0 = (some g, f.disjuncts.length) := by
  refine ⟨⟨fun hfires => ?_, fun ⟨_, hrepeats⟩ => ?_⟩, fun j hj hleast => ?_⟩
  · obtain ⟨g, hg⟩ := Option.isSome_iff_exists.1 hfires
    obtain ⟨j, hj⟩ := exists_repeats_of_reduce? hg
    refine ⟨?_, j, hj⟩
    rcases f.disjunction_or_leaf with ⟨glyph, l, r, rfl⟩ | hleaf
    · rfl
    · have hlen := hj.one_lt_length
      rw [hleaf] at hlen
      exact absurd hlen (Nat.lt_irrefl 1)
  · classical
    obtain ⟨g, -, hg⟩ := exists_reduce?_of_repeats (Nat.find_spec hrepeats) fun _ => Nat.find_min hrepeats
    exact Option.isSome_iff_exists.2 ⟨g, hg⟩
  · obtain ⟨g, hwithout, hg⟩ := exists_reduce?_of_repeats hj hleast
    obtain ⟨d, hd, -⟩ := hj
    obtain ⟨hlt, -⟩ := List.getElem?_eq_some_iff.1 hd
    have hdisjuncts := disjuncts_without hlt hwithout
    have hjoints : g.joints 0 = jointsLeft j (f.joints 0) := by
      rw [joints_without hlt hwithout, Nat.zero_add]
    have hlen : (g.joints 0).length + 1 = (f.joints 0).length := by
      have hf := f.length_joints 0
      rw [length_joints, hdisjuncts, List.length_eraseIdx_of_lt hlt]
      omega
    have hstrike : f.strike j 0 = (some g, f.disjuncts.length) := by
      rw [strike_eq, if_pos (Nat.zero_le j), Nat.sub_zero, hwithout, Nat.zero_add]
    refine ⟨g, hg, hdisjuncts, hlen, hjoints, fun d hd => disjunctions_without hd hwithout, ?_, hstrike⟩
    exact fun g' hd' hj' => eq_of_disjuncts_of_joints (hd'.trans hdisjuncts.symm) (hj'.trans hjoints.symm)

/-- Two disjuncts repeat earlier ones, and the first of them goes together with the last node of the chain. The disjunct
before it means the same as an earlier one but is spelt otherwise, so it stays. -/
theorem duplicateAlternative_drops_first_repeat_of_nested :
    let d : Formula := .not (.binary "+" .or (.var "x") (.var "y"))
    let d' : Formula := .not (.binary "|" .or (.var "x") (.var "y"))
    let left : Formula := .binary "|" .or (.var "b") d
    let f : Formula :=
      .binary "+" .or left (.binary "||" .or (.var "a") (.binary "|" .or d' (.binary "+" .or (.var "b") d)))
    let g : Formula := .binary "+" .or left (.binary "||" .or (.var "a") (.binary "|" .or d' d))
    (f.connective? = some .or ∧ ∃ j, Repeats f.disjuncts j) ∧ Repeats f.disjuncts 4 ∧
      (∀ i < 4, ¬Repeats f.disjuncts i) ∧ Rule.duplicateAlternative.reduce? f = some g ∧
      g.joints 0 = [⟨"+", 0, 2, 5⟩, ⟨"|", 0, 1, 2⟩, ⟨"||", 2, 3, 5⟩, ⟨"|", 3, 4, 5⟩] := by
  intro d d' left f g
  have hrepeats : Repeats f.disjuncts 4 := by decide +kernel
  have hleast : ∀ i < 4, ¬Repeats f.disjuncts i := by decide +kernel
  obtain ⟨hfires, hdrops⟩ := duplicateAlternative_drops_first_repeat f
  obtain ⟨g', hg', -, -, -, -, hunique, -⟩ := hdrops 4 hrepeats hleast
  have hg : g = g' := hunique g (by decide +kernel) (by decide +kernel)
  refine ⟨hfires.1 (Option.isSome_iff_exists.2 ⟨g', hg'⟩), hrepeats, hleast, ?_, by decide +kernel⟩
  rw [hg, hg']

end Formula

end Sentential
