import Mathlib.Data.List.Nodup
import Mathlib.Data.List.Pairwise
import Sentential.Proofs.Fixpoint

/-!
# The normal form

`Normal` says what a formula looks like when the standard rules are done with it: no implication is left,
negations have been pushed down to where they cannot be pushed further, and neither the operands of a
conjunction nor the disjuncts of a chain repeat or deny each other. At every node that is exactly what keeps
all rules from firing (`irreducible_all_iff_normal`), so the normal formulas are those that simplification
produces, and it leaves them as they are.
-/

namespace Sentential

/-- There is no repeat in a list of texts that are all new. -/
theorem firstRepeat_eq_none_iff {seen texts : List String} :
    firstRepeat seen texts = none ↔ texts.Nodup ∧ ∀ text ∈ texts, text ∉ seen := by
  induction texts generalizing seen with
  | nil => simp [firstRepeat]
  | cons text rest ih =>
    rw [firstRepeat, List.nodup_cons, List.forall_mem_cons]
    by_cases hseen : text ∈ seen
    · simp [hseen]
    · rw [if_neg hseen, Option.map_eq_none_iff, ih]
      constructor
      · rintro ⟨hnodup, hrest⟩
        refine ⟨⟨fun hmem => hrest text hmem List.mem_cons_self, hnodup⟩, hseen, fun u hu hu' => ?_⟩
        exact hrest u hu (List.mem_cons_of_mem _ hu')
      · rintro ⟨⟨htext, hnodup⟩, -, hrest⟩
        refine ⟨hnodup, fun u hu hu' => ?_⟩
        rcases List.mem_cons.1 hu' with rfl | hu'
        · exact htext hu
        · exact hrest u hu hu'

namespace Formula

def IsConst : Formula → Prop
  | .const _ => True
  | _ => False

instance : DecidablePred IsConst
  | .const _ => isTrue trivial
  | .var _ | .not _ | .binary .. => isFalse id

/-- What a negation may hold. -/
def Negatable : Formula → Prop
  | .var _ | .const _ | .binary _ .iff _ _ => True
  | _ => False

instance : DecidablePred Negatable
  | .var _ | .const _ | .binary _ .iff _ _ => isTrue trivial
  | .not _ | .binary _ .or _ _ | .binary _ .and _ _ | .binary _ .implies _ _ => isFalse id

/-- The formulas differ, and neither is the negation of the other. -/
def Apart (f g : Formula) : Prop := f ≠ g ∧ f ≠ .not g ∧ g ≠ .not f

instance (f g : Formula) : Decidable (Apart f g) := inferInstanceAs (Decidable (_ ∧ _ ∧ _))

/-- What the root of a normal formula is like. -/
def NormalRoot : Formula → Prop
  | .var _ | .const _ | .binary _ .iff _ _ => True
  | .binary _ .implies _ _ => False
  | .not a => a.Negatable
  | .binary _ .and l r => ¬l.IsConst ∧ ¬r.IsConst ∧ Apart l r
  | .binary glyph .or l r => ¬l.IsConst ∧ ¬r.IsConst ∧ (Formula.binary glyph .or l r).disjuncts.Pairwise Apart

instance : DecidablePred NormalRoot
  | .var _ | .const _ | .binary _ .iff _ _ => isTrue trivial
  | .binary _ .implies _ _ => isFalse id
  | .not a => inferInstanceAs (Decidable a.Negatable)
  | .binary _ .and l r => inferInstanceAs (Decidable (¬l.IsConst ∧ ¬r.IsConst ∧ Apart l r))
  | .binary glyph .or l r =>
    inferInstanceAs (Decidable (¬l.IsConst ∧ ¬r.IsConst ∧
      (Formula.binary glyph .or l r).disjuncts.Pairwise Apart))

/-- Every node is like the root of a normal formula. -/
def Normal (f : Formula) : Prop := ∀ g ∈ f.subformulas, g.NormalRoot

instance : DecidablePred Normal := fun f => inferInstanceAs (Decidable (∀ g ∈ f.subformulas, g.NormalRoot))

variable {f l r a : Formula} {glyph : String} {c : Connective}

theorem normal_not : Normal (.not a) ↔ a.Negatable ∧ Normal a := forall_subformulas_not

theorem normal_binary :
    Normal (.binary glyph c l r) ↔ (Formula.binary glyph c l r).NormalRoot ∧ Normal l ∧ Normal r :=
  forall_subformulas_binary

theorem ne_not_self (f : Formula) : f ≠ .not f := by
  intro h
  have hsize := congrArg sizeOf h
  rw [not.sizeOf_spec] at hsize
  omega

theorem Apart.symm {g : Formula} (h : Apart f g) : Apart g f := ⟨h.1.symm, h.2.2, h.2.1⟩

instance : Std.Symm Apart := ⟨fun _ _ => Apart.symm⟩

theorem pairwise_apart_iff {fs : List Formula} :
    fs.Pairwise Apart ↔ fs.Nodup ∧ ∀ f ∈ fs, Formula.not f ∉ fs := by
  constructor
  · intro h
    refine ⟨h.imp fun hab => hab.1, fun f hf hn => ?_⟩
    exact (h.forall hf hn (ne_not_self f)).2.2 rfl
  · rintro ⟨hnodup, hneg⟩
    refine hnodup.pairwise_of_forall_ne fun f hf g hg hne => ⟨hne, ?_, ?_⟩
    · rintro rfl
      exact hneg g hg hf
    · rintro rfl
      exact hneg f hf hg

/-! ## Where no rule fires -/

theorem absorb?_eq_none_iff (zero : Bool) : Rule.absorb? zero l r = none ↔ ¬l.IsConst ∧ ¬r.IsConst := by
  have hconst : ∀ f : Formula, f.IsConst ↔ f = .const zero ∨ f = .const (!zero) := by
    intro f
    cases f with
    | const value => revert value zero; simp [IsConst]
    | _ => simp [IsConst]
  rw [hconst, hconst, Rule.absorb?]
  split
  · next h => rcases h with h | h <;> simp [h]
  · split
    · next h => simp [h]
    · split <;> simp_all

theorem WellFormed.firstRepeat_eq_none_iff (hf : f.WellFormed) :
    firstRepeat [] (f.disjuncts.map literal) = none ↔ f.disjuncts.Nodup := by
  rw [Sentential.firstRepeat_eq_none_iff]
  constructor
  · rintro ⟨hnodup, -⟩
    exact hnodup.of_map
  · intro hnodup
    refine ⟨hnodup.map_on fun g hg h hh he => ?_, fun text _ => List.not_mem_nil⟩
    exact ((hf.of_mem_disjuncts hg).literal_inj (hf.of_mem_disjuncts hh)).1 he

/-- A chain has two disjuncts at least, so one is left of it when one goes. -/
theorem bind_without_or_eq_none_iff {j? : Option Nat} :
    j?.bind (Formula.binary glyph .or l r).without = none ↔ j? = none := by
  cases j? with
  | none => simp
  | some j =>
    have hl := List.length_pos_iff.2 l.disjuncts_ne_nil
    have hr := List.length_pos_iff.2 r.disjuncts_ne_nil
    have hne : (Formula.binary glyph .or l r).without j ≠ none := by
      intro h
      have hlen := length_disjuncts_of_without_eq_none h
      rw [disjuncts, List.length_append] at hlen
      omega
    simp [hne]

theorem forall_reduce?_not :
    (∀ rule ∈ Rule.all, rule.reduce? (.not a) = none) ↔
      a.negated? = none ∧ a.connective? ≠ some .and ∧ a.connective? ≠ some .or := by
  cases a with
  | binary glyph c l r => cases c <;> simp [Rule.all, Rule.reduce?, negated?, connective?]
  | _ => simp [Rule.all, Rule.reduce?, negated?, connective?]

theorem forall_reduce?_and (hl : l.WellFormed) (hr : r.WellFormed) :
    (∀ rule ∈ Rule.all, rule.reduce? (.binary glyph .and l r) = none) ↔
      (Formula.binary glyph .and l r).NormalRoot := by
  have hrules : (∀ rule ∈ Rule.all, rule.reduce? (.binary glyph .and l r) = none) ↔
      Rule.absorb? false l r = none ∧ ¬same l r = true ∧ ¬complementary l r = true := by
    simp [Rule.all, Rule.reduce?]
  rw [hrules, absorb?_eq_none_iff, hl.same_iff hr, hl.complementary_iff hr, not_or, and_assoc]
  rfl

theorem forall_reduce?_or (hf : (Formula.binary glyph .or l r).WellFormed) :
    (∀ rule ∈ Rule.all, rule.reduce? (.binary glyph .or l r) = none) ↔
      (Formula.binary glyph .or l r).NormalRoot := by
  have hrules : (∀ rule ∈ Rule.all, rule.reduce? (.binary glyph .or l r) = none) ↔
      Rule.absorb? true l r = none ∧ ¬same l r = true ∧
        ¬clash (disjuncts (.binary glyph .or l r)) = true ∧
        firstRepeat [] ((disjuncts (.binary glyph .or l r)).map literal) = none := by
    simp [Rule.all, Rule.reduce?, -Option.bind_eq_none_iff, bind_without_or_eq_none_iff]
  rw [hrules, absorb?_eq_none_iff, hf.2.1.same_iff hf.2.2, hf.clash_iff, hf.firstRepeat_eq_none_iff]
  show _ ↔ ¬l.IsConst ∧ ¬r.IsConst ∧ (disjuncts (.binary glyph .or l r)).Pairwise Apart
  rw [pairwise_apart_iff]
  constructor
  · rintro ⟨⟨hl, hr⟩, -, hclash, hnodup⟩
    exact ⟨hl, hr, hnodup, fun g hg hng => hclash ⟨g, hg, hng⟩⟩
  · rintro ⟨hl, hr, hnodup, hneg⟩
    refine ⟨⟨hl, hr⟩, ?_, ?_, hnodup⟩
    · -- two equal operands would repeat each other's disjuncts
      rintro rfl
      obtain ⟨g, hg⟩ := List.exists_mem_of_ne_nil _ l.disjuncts_ne_nil
      exact (List.nodup_append.1 hnodup).2.2 g hg g hg rfl
    · rintro ⟨g, hg, hng⟩
      exact hneg g hg hng

theorem forall_reduce?_implies :
    ¬∀ rule ∈ Rule.all, rule.reduce? (.binary glyph .implies l r) = none := by
  simp [Rule.all, Rule.reduce?]

theorem forall_reduce?_iff : ∀ rule ∈ Rule.all, rule.reduce? (.binary glyph .iff l r) = none := by
  simp [Rule.all, Rule.reduce?]

/-- Under a negation an implication keeps no rule from firing, but one fires on the implication. -/
theorem negatable_iff (ha : Irreducible Rule.all a) :
    a.negated? = none ∧ a.connective? ≠ some .and ∧ a.connective? ≠ some .or ↔ a.Negatable := by
  cases a with
  | binary glyph c l r =>
    cases c with
    | implies => exact absurd (irreducible_binary.1 ha).1 forall_reduce?_implies
    | _ => simp [negated?, connective?, Negatable]
  | _ => simp [negated?, connective?, Negatable]

theorem irreducible_all_iff_normal (hf : f.WellFormed) : Irreducible Rule.all f ↔ Normal f := by
  induction f with
  | var name | const value => simp [Irreducible, Normal, subformulas, NormalRoot, Rule.all, Rule.reduce?]
  | not a ih =>
    rw [irreducible_not, normal_not, forall_reduce?_not, ← ih hf]
    exact and_congr_left negatable_iff
  | binary glyph c l r ihl ihr =>
    rw [irreducible_binary, normal_binary, ihl hf.2.1, ihr hf.2.2]
    refine and_congr_left' ?_
    cases c with
    | or => exact forall_reduce?_or hf
    | and => exact forall_reduce?_and hf.2.1 hf.2.2
    | implies => exact iff_of_false forall_reduce?_implies id
    | iff => exact iff_of_true forall_reduce?_iff trivial

theorem WellFormed.normal_simplify (hf : f.WellFormed) : (f.simplify Rule.all).Normal :=
  (irreducible_all_iff_normal (replaces_simplify Rule.all hf).wellFormed).1
    (pass_eq_self_iff.1 (pass_simplify Rule.all hf))

/-- The well-formed formulas that the standard rules make of well-formed formulas are the normal ones, and
each of these is left as it is. -/
theorem simplify_range_eq_normal (hf : f.WellFormed) :
    ((∃ g : Formula, g.WellFormed ∧ g.simplify Rule.all = f) ↔ f.Normal) ∧
      (f.Normal → f.simplify Rule.all = f) := by
  have hfix : f.Normal → f.simplify Rule.all = f := fun h =>
    simplify_of_pass_eq (pass_eq_self_iff.2 ((irreducible_all_iff_normal hf).2 h))
  refine ⟨⟨?_, fun h => ⟨f, hf, hfix h⟩⟩, hfix⟩
  rintro ⟨g, hg, rfl⟩
  exact (irreducible_all_iff_normal hf).1 (pass_eq_self_iff.1 (pass_simplify Rule.all hg))

/-- A chain of a denied equivalence, a variable and a conjunction is normal. With the conjunction at both of
its ends it is not, although no two disjuncts that repeat each other are operands of one node. -/
theorem simplify_range_eq_normal_of_chain :
    let same : Formula := .not (.binary "<->" .iff (.var "a") (.const false))
    let both : Formula := .binary "&" .and (.var "c") (.not (.var "b"))
    let t : Formula := .binary "|" .or (.binary "+" .or same (.var "b")) both
    let u : Formula := .binary "|" .or (.binary "+" .or both (.var "b")) both
    (t.WellFormed ∧ t.Normal ∧ t.simplify Rule.all = t) ∧
      (u.WellFormed ∧ ¬∃ g : Formula, g.WellFormed ∧ g.simplify Rule.all = u) := by
  intro same both t u
  have ht : t.WellFormed := by decide
  have hu : u.WellFormed := by decide
  have hnormal : t.Normal := by decide +kernel
  have hrepeat : ¬u.Normal := by decide +kernel
  exact ⟨⟨ht, hnormal, (simplify_range_eq_normal ht).2 hnormal⟩, hu,
    fun h => hrepeat ((simplify_range_eq_normal hu).1.1 h)⟩

end Formula

end Sentential
