import Mathlib.Logic.Function.Iterate
import Mathlib.Tactic.Ring
import Sentential.Proofs.Fixpoint

/-!
# The effort of simplification

Every firing lowers the potential by one at least, wherever the node stands at which it happens. So the
potential pays for all firings of a pass and for what is left to do after it (`InPass.length_add_potential_le`),
and no list of rules fires more often on a formula than its potential says. That is less than the square of
the number of nodes (`potential_lt_nodes_mul`).
-/

namespace Sentential.Formula

/-- The number of nodes, leaves included. -/
def nodes : Formula → Nat
  | .var _ | .const _ => 1
  | .not a => a.nodes + 1
  | .binary _ _ l r => l.nodes + r.nodes + 1

/-- The loop over `f` ends after `n` passes that change the text and one that does not. -/
structure EndsAfter (rules : List Rule) (f : Formula) (n : Nat) : Prop where
  changes : ∀ m < n, ((pass rules)^[m + 1] f).literal ≠ ((pass rules)^[m] f).literal
  stable : ((pass rules)^[n + 1] f).literal = ((pass rules)^[n] f).literal
  result : f.simplify rules = (pass rules)^[n + 1] f
  passes : f.passes rules = n + 1

variable {rules : List Rule} {f g : Formula}

theorem nodes_mul_binary (m n k : Nat) :
    (m + n + 1) * (m + n + 1 + k) = m * (m + k) + n * (n + k) + 2 * (m * n) + 2 * m + 2 * n + k + 1 := by
  ring

/-- Each of `k` negations above the formula may be pushed down to all of its nodes. -/
theorem potential_lt_nodes_mul (f : Formula) (k : Nat) : f.potential k < f.nodes * (f.nodes + k) := by
  induction f generalizing k with
  | var name | const value => simp only [potential, nodes]; omega
  | not a ih =>
    have ha := ih (k + 1)
    have hn : (a.nodes + 1) * (a.nodes + 1 + k) = a.nodes * (a.nodes + (k + 1)) + (a.nodes + 1 + k) := by ring
    simp only [potential, nodes]
    omega
  | binary glyph c l r ihl ihr =>
    have hl := ihl k
    have hr := ihr k
    have hl1 := ihl (k + 1)
    have hl0 := ihl 0
    have hr0 := ihr 0
    have hmulL : l.nodes * (l.nodes + 0) ≤ l.nodes * (l.nodes + k) := Nat.mul_le_mul_left _ (by omega)
    have hmulR : r.nodes * (r.nodes + 0) ≤ r.nodes * (r.nodes + k) := Nat.mul_le_mul_left _ (by omega)
    have hmulL1 : l.nodes * (l.nodes + (k + 1)) = l.nodes * (l.nodes + k) + l.nodes := by ring
    rw [nodes, nodes_mul_binary]
    cases c <;> simp only [potential] <;> omega

/-- The rules are offered the root in turn, and each one that applies fires at what those before it have made. -/
inductive AtRoot : List Rule → Formula → List Firing → Formula → Prop
  | nil {f : Formula} : AtRoot [] f [] f
  | skip {rule : Rule} {rules : List Rule} {f g : Formula} {xs : List Firing} :
    rule.reduce? f = none → AtRoot rules f xs g → AtRoot (rule :: rules) f xs g
  | fire {rule : Rule} {rules : List Rule} {f f' g : Formula} {xs : List Firing} :
    rule.reduce? f = some f' → AtRoot rules f' xs g → AtRoot (rule :: rules) f (⟨rule, f, f'⟩ :: xs) g

/-- A pass with its firings: those inside a node come before those at it, and those on its left before those on its
right. -/
inductive InPass (rules : List Rule) : Formula → List Firing → Formula → Prop
  | var (name : String) : InPass rules (.var name) [] (.var name)
  | const (value : Bool) : InPass rules (.const value) [] (.const value)
  | not {a a' g : Formula} {inner outer : List Firing} :
    InPass rules a inner a' → AtRoot rules (.not a') outer g → InPass rules (.not a) (inner ++ outer) g
  | binary {glyph : String} {c : Connective} {l l' r r' g : Formula} {left right outer : List Firing} :
    InPass rules l left l' → InPass rules r right r' → AtRoot rules (.binary glyph c l' r') outer g →
      InPass rules (.binary glyph c l r) (left ++ right ++ outer) g

theorem atRoot_fireAll (rules : List Rule) (f : Formula) : AtRoot rules f (fireAll rules f).2 (applyAll rules f) := by
  induction rules generalizing f with
  | nil => exact .nil
  | cons rule rules ih =>
    rw [fireAll, applyAll]
    cases h : rule.reduce? f with
    | none => exact .skip h (ih f)
    | some g => exact .fire h (ih g)

theorem firePass_not_snd (a : Formula) :
    (firePass rules (.not a)).2 = (a.firePass rules).2 ++ (fireAll rules (.not (a.pass rules))).2 := by
  rw [← firePass_fst]
  rfl

theorem firePass_binary_snd (glyph : String) (c : Connective) (l r : Formula) :
    (firePass rules (.binary glyph c l r)).2 = (l.firePass rules).2 ++ (r.firePass rules).2 ++
      (fireAll rules (.binary glyph c (l.pass rules) (r.pass rules))).2 := by
  rw [← firePass_fst, ← firePass_fst]
  rfl

theorem inPass_firePass (rules : List Rule) (f : Formula) : InPass rules f (f.firePass rules).2 (f.pass rules) := by
  induction f with
  | var name => exact .var name
  | const value => exact .const value
  | not a ih =>
    rw [firePass_not_snd, pass]
    exact .not ih (atRoot_fireAll ..)
  | binary glyph c l r ihl ihr =>
    rw [firePass_binary_snd, pass]
    exact .binary ihl ihr (atRoot_fireAll ..)

theorem AtRoot.length_add_potential_le {xs : List Firing} (h : AtRoot rules f xs g) (k : Nat) :
    xs.length + g.potential k ≤ f.potential k := by
  induction h with
  | nil => simp
  | skip _ _ ih => exact ih
  | fire hfire _ ih =>
    have hlt := Rule.potential_lt hfire k
    rw [List.length_cons]
    omega

/-- By induction on the pass, for every `k`, as the firings inside a node are paid for under as many negations as the
potential of the node counts there. -/
theorem InPass.length_add_potential_le {xs : List Firing} (h : InPass rules f xs g) (k : Nat) :
    xs.length + g.potential k ≤ f.potential k := by
  induction h generalizing k with
  | var name | const value => simp
  | not _ hroot ih =>
    have ha := ih (k + 1)
    have hroot := hroot.length_add_potential_le k
    rw [List.length_append]
    simp only [potential] at hroot ⊢
    omega
  | @binary glyph c l l' r r' g left right outer _ _ hroot ihl ihr =>
    have hroot := hroot.length_add_potential_le k
    have hl := ihl k
    have hr := ihr k
    have hl1 := ihl (k + 1)
    have hl0 := ihl 0
    have hr0 := ihr 0
    rw [List.length_append, List.length_append]
    cases c <;> simp only [potential] at hroot ⊢ <;> omega

theorem firings_of_stable (h : (f.pass rules).literal = f.literal) : f.firings rules = (f.firePass rules).2 := by
  rw [firings, stages, dif_pos h, List.flatMap_singleton]

theorem firings_of_change (h : (f.pass rules).literal ≠ f.literal) :
    f.firings rules = (f.firePass rules).2 ++ (f.pass rules).firings rules := by
  rw [firings, stages, dif_neg h, List.flatMap_cons]
  rfl

theorem length_firings_add_potential_le (rules : List Rule) (f : Formula) :
    (f.firings rules).length + (f.simplify rules).potential 0 ≤ f.potential 0 := by
  fun_induction simplify rules f with
  | case1 f hlit =>
    rw [firings_of_stable hlit]
    exact (inPass_firePass rules f).length_add_potential_le 0
  | case2 f hlit ih =>
    have hpass := (inPass_firePass rules f).length_add_potential_le 0
    rw [firings_of_change hlit, List.length_append]
    omega

/-- Every pass that changes the text lowers the potential. -/
theorem exists_endsAfter (rules : List Rule) (f : Formula) : ∃ n ≤ f.potential 0, f.EndsAfter rules n := by
  fun_induction simplify rules f with
  | case1 f hlit =>
    refine ⟨0, Nat.zero_le _, fun m hm => absurd hm (Nat.not_lt_zero m), hlit, ?_, ?_⟩
    · rw [simplify, dif_pos hlit]
      rfl
    · rw [Formula.passes, stages, dif_pos hlit]
      rfl
  | case2 f hlit ih =>
    obtain ⟨n, hn, h⟩ := ih
    have hlt := potential_pass_lt hlit
    refine ⟨n + 1, by omega, fun m hm => ?_, h.stable, ?_, ?_⟩
    · cases m with
      | zero => exact hlit
      | succ m => exact h.changes m (Nat.lt_of_succ_lt_succ hm)
    · rw [simplify, dif_neg hlit]
      exact h.result
    · rw [Formula.passes, stages, dif_neg hlit, List.length_cons]
      exact congrArg (· + 1) h.passes

/-- The loop makes its passes one behind the other. -/
theorem stages_eq (rules : List Rule) (f : Formula) :
    f.stages rules = (List.range (f.passes rules)).map fun m => (pass rules)^[m] f := by
  rw [passes]
  fun_induction stages rules f with
  | case1 f hlit => rfl
  | case2 f hlit ih =>
    rw [List.length_cons, List.range_succ_eq_map, List.map_cons, List.map_map]
    exact congrArg (f :: ·) ih

theorem firings_eq (rules : List Rule) (f : Formula) :
    f.firings rules = (List.range (f.passes rules)).flatMap fun m => (firePass rules ((pass rules)^[m] f)).2 := by
  rw [firings, stages_eq, List.flatMap_map]

/-- Whatever the texts in a formula and whatever the list of rules, the loop ends. A formula of `n` nodes takes
at most `n * n` passes, the last one included, and fewer than `n * n` firings in all; these are the firings of all
passes, one after the other. -/
theorem simplify_ends_within_square (rules : List Rule) (f : Formula) :
    (∃ n, f.EndsAfter rules n) ∧ f.passes rules ≤ f.nodes * f.nodes ∧
      (f.firings rules).length < f.nodes * f.nodes ∧
      ∃ made : Nat → List Firing, f.firings rules = (List.range (f.passes rules)).flatMap made ∧
        ∀ m, InPass rules ((pass rules)^[m] f) (made m) ((pass rules)^[m + 1] f) := by
  have hpotential := f.potential_lt_nodes_mul 0
  have hfirings := length_firings_add_potential_le rules f
  obtain ⟨n, hn, h⟩ := exists_endsAfter rules f
  rw [Nat.add_zero] at hpotential
  have hpasses : f.passes rules ≤ f.nodes * f.nodes := by
    rw [h.passes]
    omega
  refine ⟨⟨n, h⟩, hpasses, by omega, _, firings_eq rules f, fun m => ?_⟩
  rw [Function.iterate_succ_apply']
  exact inPass_firePass rules _

end Sentential.Formula
