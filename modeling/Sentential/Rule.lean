import Sentential.Formula.Printer

/-!
# Simplification rules

Each rule looks at one node, and two of them at the whole chain of disjunctions below it. Operands are
compared by their text: `a | b` and `a + b` differ, and two negations of `a` do not, however they came
about.
-/

namespace Sentential

namespace Formula

def same (f g : Formula) : Bool := f.literal == g.literal

/-- One is the negation of the other. -/
def complementary (f g : Formula) : Bool :=
  (f.negated?.any fun a => same a g) || (g.negated?.any fun a => same a f)

/-- The operands of a chain of disjunctions, left to right. -/
def disjuncts : Formula → List Formula
  | .binary _ .or l r => l.disjuncts ++ r.disjuncts
  | f => [f]

/-- The chain without its `j`-th disjunct; a disjunction with one side left becomes that side. -/
def without : Formula → Nat → Option Formula
  | .binary glyph .or l r, j =>
    if j < l.disjuncts.length then
      match l.without j with
      | some l' => some (.binary glyph .or l' r)
      | none => some r
    else
      match r.without (j - l.disjuncts.length) with
      | some r' => some (.binary glyph .or l r')
      | none => some l
  | f, j => if j = 0 then none else some f

/-- One of the formulas is the negation of another. -/
def clash (fs : List Formula) : Bool :=
  let texts := fs.map literal
  fs.any fun f => f.negated?.any fun a => texts.contains a.literal

theorem same_iff {f g : Formula} : same f g = true ↔ f.chars = g.chars := by
  rw [same, beq_iff_eq, literal_inj]

theorem clash_iff {fs : List Formula} :
    clash fs = true ↔ ∃ a, .not a ∈ fs ∧ ∃ g ∈ fs, a.chars = g.chars := by
  simp only [clash, List.any_eq_true, Option.any_eq_true, List.contains_iff_mem, List.mem_map, literal_inj,
    negated?_eq_some]
  constructor
  · rintro ⟨_, hf, a, rfl, g, hg, he⟩
    exact ⟨a, hf, g, hg, he.symm⟩
  · rintro ⟨a, hf, g, hg, he⟩
    exact ⟨_, hf, a, rfl, g, hg, he.symm⟩

theorem disjuncts_ne_nil (f : Formula) : f.disjuncts ≠ [] := by
  fun_induction disjuncts f with
  | case1 glyph l r ihl ihr => exact fun h => ihl (List.append_eq_nil_iff.1 h).1
  | case2 f h => simp

end Formula

/-- The place of the first text that is in `seen` or occurred earlier in the list. -/
def firstRepeat (seen : List String) : List String → Option Nat
  | [] => none
  | text :: rest => if text ∈ seen then some 0 else (firstRepeat (text :: seen) rest).map (· + 1)

theorem lt_length_of_firstRepeat {seen texts : List String} {j : Nat} (h : firstRepeat seen texts = some j) :
    j < texts.length := by
  induction texts generalizing seen j with
  | nil => simp [firstRepeat] at h
  | cons text rest ih =>
    rw [firstRepeat] at h
    split at h
    · cases h; exact Nat.zero_lt_succ _
    · obtain ⟨i, hi, rfl⟩ := Option.map_eq_some_iff.1 h
      exact Nat.succ_lt_succ (ih hi)

inductive Rule where
  | identity
  | idempotence
  | negatedAlternative
  | negatedConjunction
  | implication
  | deMorgan
  | doubleNegation
  | duplicateAlternative
  deriving DecidableEq, Repr

namespace Rule

/-- All rules, in the order in which they are tried. -/
def all : List Rule :=
  [.identity, .idempotence, .negatedAlternative, .negatedConjunction, .implication, .deMorgan,
   .doubleNegation, .duplicateAlternative]

def name : Rule → String
  | .identity => "identity"
  | .idempotence => "idempotence"
  | .negatedAlternative => "negated alternative"
  | .negatedConjunction => "negated conjunction"
  | .implication => "implication"
  | .deMorgan => "de morgan"
  | .doubleNegation => "double negation"
  | .duplicateAlternative => "duplicate alternative"

def ofName? (text : String) : Option Rule := all.find? fun r => r.name == text

open Formula

/-- One operand is a constant, where the constant `zero` decides alone and the other one is neutral. -/
def absorb? (zero : Bool) (l r : Formula) : Option Formula :=
  if l = .const zero ∨ r = .const zero then some (.const zero)
  else if l = .const (!zero) then some r
  else if r = .const (!zero) then some l
  else none

theorem absorb?_cases {zero : Bool} {l r g : Formula} (h : absorb? zero l r = some g) :
    ((l = .const zero ∨ r = .const zero) ∧ g = .const zero) ∨ (l = .const (!zero) ∧ g = r) ∨
      (r = .const (!zero) ∧ g = l) := by
  unfold absorb? at h
  split at h
  · next hzero => exact .inl ⟨hzero, (Option.some.inj h).symm⟩
  · split at h
    · next hunit => exact .inr (.inl ⟨hunit, (Option.some.inj h).symm⟩)
    · split at h
      · next hunit => exact .inr (.inr ⟨hunit, (Option.some.inj h).symm⟩)
      · cases h

/-- What the rule makes of a formula, if it applies to its root. -/
def reduce? : Rule → Formula → Option Formula
  | .identity, .binary _ .and l r => absorb? false l r
  | .identity, .binary _ .or l r => absorb? true l r
  | .idempotence, .binary _ .and l r | .idempotence, .binary _ .or l r => if same l r then some l else none
  | .negatedAlternative, .binary glyph .or l r =>
    if clash (disjuncts (.binary glyph .or l r)) then some (.const true) else none
  | .negatedConjunction, .binary _ .and l r => if complementary l r then some (.const false) else none
  | .implication, .binary _ .implies l r => some (join .or (.not l) r)
  | .deMorgan, .not (.binary _ .and l r) => some (join .or (.not l) (.not r))
  | .deMorgan, .not (.binary _ .or l r) => some (join .and (.not l) (.not r))
  | .doubleNegation, .not (.not a) => some a
  | .duplicateAlternative, .binary glyph .or l r =>
    let f := Formula.binary glyph .or l r
    (firstRepeat [] (f.disjuncts.map literal)).bind f.without
  | _, _ => none

end Rule

end Sentential
