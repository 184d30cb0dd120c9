import Sentential.Rule.Potential

/-!
# Simplification

A pass goes through a formula from the leaves up and offers every node to each rule of a list once, in
order. Passes are repeated until one leaves the text of the formula as it was. A pass either changes
nothing or lowers the potential (`pass_eq_or_potential_lt`), so this ends for every list of rules.
-/

namespace Sentential

/-- One use of a rule at one node. -/
structure Firing where
  rule : Rule
  before : Formula
  after : Formula
  deriving DecidableEq

namespace Formula

/-- Offers the root to each rule in turn, each one seeing what those before it made. -/
def applyAll : List Rule → Formula → Formula
  | [], f => f
  | r :: rules, f => applyAll rules ((r.reduce? f).getD f)

def pass (rules : List Rule) : Formula → Formula
  | .var name => .var name
  | .const value => .const value
  | .not a => applyAll rules (.not (a.pass rules))
  | .binary glyph c l r => applyAll rules (.binary glyph c (l.pass rules) (r.pass rules))

theorem applyAll_eq_or_potential_lt (rules : List Rule) (f : Formula) :
    applyAll rules f = f ∨ ∀ k, (applyAll rules f).potential k < f.potential k := by
  induction rules generalizing f with
  | nil => exact .inl rfl
  | cons r rules ih =>
    rw [applyAll]
    cases h : r.reduce? f with
    | none => exact ih f
    | some g =>
      refine .inr fun k => ?_
      have hg := Rule.potential_lt h k
      rw [Option.getD_some]
      rcases ih g with he | hlt
      · rw [he]; exact hg
      · exact Nat.lt_trans (hlt k) hg

theorem potential_applyAll_le (rules : List Rule) (f : Formula) (k : Nat) :
    (applyAll rules f).potential k ≤ f.potential k := by
  rcases applyAll_eq_or_potential_lt rules f with he | hlt
  · exact Nat.le_of_eq (congrArg (·.potential k) he)
  · exact Nat.le_of_lt (hlt k)

theorem pass_eq_or_potential_lt (rules : List Rule) (f : Formula) :
    f.pass rules = f ∨ ∀ k, (f.pass rules).potential k < f.potential k := by
  induction f with
  | var name => exact .inl rfl
  | const value => exact .inl rfl
  | not a ih =>
    rw [pass]
    rcases ih with he | hlt
    · rw [he]; exact applyAll_eq_or_potential_lt rules (.not a)
    · exact .inr fun k => Nat.lt_of_le_of_lt (potential_applyAll_le rules _ k) (hlt (k + 1))
  | binary glyph c l r ihl ihr =>
    rw [pass]
    have hle : ∀ k, (pass rules l).potential k ≤ l.potential k := fun k => by
      rcases ihl with he | hlt
      · exact Nat.le_of_eq (congrArg (·.potential k) he)
      · exact Nat.le_of_lt (hlt k)
    have hre : ∀ k, (pass rules r).potential k ≤ r.potential k := fun k => by
      rcases ihr with he | hlt
      · exact Nat.le_of_eq (congrArg (·.potential k) he)
      · exact Nat.le_of_lt (hlt k)
    by_cases he : pass rules l = l ∧ pass rules r = r
    · rw [he.1, he.2]; exact applyAll_eq_or_potential_lt rules _
    · refine .inr fun k => Nat.lt_of_le_of_lt (potential_applyAll_le rules _ k) ?_
      have hstrict : (∀ k, (pass rules l).potential k < l.potential k) ∨
          ∀ k, (pass rules r).potential k < r.potential k := by
        rcases ihl with hl | hl
        · exact .inr (ihr.resolve_left fun hr => he ⟨hl, hr⟩)
        · exact .inl hl
      have h0l := hle 0
      have h0r := hre 0
      have hkl := hle k
      have hkr := hre k
      have hk1 := hle (k + 1)
      rcases hstrict with hs | hs
      · have s0 := hs 0
        have sk := hs k
        have sk1 := hs (k + 1)
        cases c <;> simp only [potential] <;> omega
      · have s0 := hs 0
        have sk := hs k
        cases c <;> simp only [potential] <;> omega

theorem potential_pass_lt {rules : List Rule} {f : Formula} (h : (f.pass rules).literal ≠ f.literal) :
    (f.pass rules).potential 0 < f.potential 0 :=
  (pass_eq_or_potential_lt rules f).resolve_left (fun he => h (by rw [he])) 0

/-- Passes until the text stays the same. -/
def simplify (rules : List Rule) (f : Formula) : Formula :=
  if _h : (f.pass rules).literal = f.literal then f.pass rules
  else simplify rules (f.pass rules)
termination_by f.potential 0
decreasing_by exact potential_pass_lt _h

/-- The formulas that `simplify` makes a pass over; the last pass is the one that leaves the text the same. -/
def stages (rules : List Rule) (f : Formula) : List Formula :=
  if _h : (f.pass rules).literal = f.literal then [f]
  else f :: stages rules (f.pass rules)
termination_by f.potential 0
decreasing_by exact potential_pass_lt _h

def passes (rules : List Rule) (f : Formula) : Nat := (f.stages rules).length

/-- `applyAll` together with the firings it consists of, in order. -/
def fireAll : List Rule → Formula → Formula × List Firing
  | [], f => (f, [])
  | r :: rules, f =>
    match r.reduce? f with
    | none => fireAll rules f
    | some g =>
      let (result, later) := fireAll rules g
      (result, ⟨r, f, g⟩ :: later)

/-- `pass` together with its firings, in order. -/
def firePass (rules : List Rule) : Formula → Formula × List Firing
  | .var name => (.var name, [])
  | .const value => (.const value, [])
  | .not a =>
    let (a', inner) := a.firePass rules
    let (result, outer) := fireAll rules (.not a')
    (result, inner ++ outer)
  | .binary glyph c l r =>
    let (l', left) := l.firePass rules
    let (r', right) := r.firePass rules
    let (result, outer) := fireAll rules (.binary glyph c l' r')
    (result, left ++ right ++ outer)

theorem fireAll_fst (rules : List Rule) (f : Formula) : (fireAll rules f).1 = applyAll rules f := by
  induction rules generalizing f with
  | nil => rfl
  | cons r rules ih =>
    rw [fireAll, applyAll]
    cases r.reduce? f with
    | none => exact ih f
    | some g => exact ih g

theorem firePass_fst (rules : List Rule) (f : Formula) : (f.firePass rules).1 = f.pass rules := by
  induction f with
  | var name => rfl
  | const value => rfl
  | not a ih =>
    rw [pass, ← ih, ← fireAll_fst]
    rfl
  | binary glyph c l r ihl ihr =>
    rw [pass, ← ihl, ← ihr, ← fireAll_fst]
    rfl

/-- All firings of `simplify`, in order. -/
def firings (rules : List Rule) (f : Formula) : List Firing :=
  (f.stages rules).flatMap fun g => (g.firePass rules).2

end Formula

end Sentential
