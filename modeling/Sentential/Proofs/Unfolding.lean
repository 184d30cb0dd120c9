import Sentential.Parser.Progress

/-!
# Reading without a depth

`Grammar.expression` is defined through a bound on how deep expressions are nested. The bound does not
matter: readers that agree where few tokens are pending make a guarded grammar agree where one more is
(`Guarded.readWith_congr`). So an expression is read as the grammar says, with the expressions inside it
read by `expression` itself (`Guarded.expression_eq`).
-/

namespace Sentential.Parser

/-- The readers give the same answers where fewer than `bound` tokens are pending. -/
def AgreeBelow (bound : Nat) (nested nested' : Reader) : Prop :=
  ∀ level s, s.pending < bound → nested level s = nested' level s

variable {nested nested' : Reader} {bound : Nat}

namespace Script

variable {α : Type}

theorem run_congr (hn : Onward nested) (ha : AgreeBelow bound nested nested') (script : Script α)
    {s : State} (hs : s.pending < bound) : script.run nested s = script.run nested' s := by
  induction script generalizing s with
  | done value => rfl
  | current next ih => exact ih _ hs
  | peek next ih => exact ih _ hs
  | advance next ih => exact ih (Nat.lt_of_le_of_lt s.pending_advance_le hs)
  | report fault next ih => exact ih (s := s.report fault) hs
  | expression level next ih =>
    rw [run, run, ← ha level s hs]
    cases hf : nested level s with
    | none => rfl
    | some answer =>
      have hlt : answer.2.pending < bound := Nat.lt_of_le_of_lt (hn hf).pending_le hs
      exact ih answer.1 hlt

theorem Guarded.run_congr (hn : Onward nested) (ha : AgreeBelow bound nested nested') {script : Script α}
    (hg : script.Guarded) {s : State} (hs : s.rest.length < bound) :
    script.run nested s = script.run nested' s := by
  induction script generalizing s with
  | done value => rfl
  | current next ih => exact ih _ (hg _) hs
  | peek next ih => exact ih _ (hg _) hs
  | advance next ih => exact Script.run_congr hn ha next (by rw [s.pending_advance]; exact hs)
  | report fault next ih => exact ih hg (s := s.report fault) hs
  | expression level next ih => exact hg.elim

end Script

namespace Grammar

variable {g : Grammar}

theorem extend_congr (hn : Onward nested) (ha : AgreeBelow bound nested nested') (level : Level)
    (count : Nat) (left : Formula) {s : State} (hs : s.rest.length < bound) :
    g.extend nested level count left s = g.extend nested' level count left s := by
  induction count generalizing left s with
  | zero => rfl
  | succ count ih =>
    rw [extend, extend]
    split
    · rfl
    · split
      · split
        · rfl
        · next script _ =>
          have hadv : s.advance.pending < bound := by rw [s.pending_advance]; exact hs
          have hrun : (script left).run nested s.advance = (script left).run nested' s.advance :=
            Script.run_congr hn ha (script left) hadv
          rw [← hrun]
          split
          · rfl
          · rfl
          · next left' s' hr =>
            have hle := (Script.reaches_of_run hn hr).rest_suffix.length_le
            have htail : s.advance.rest.length ≤ s.rest.length := (List.tail_suffix s.rest).length_le
            have hlt : s'.rest.length < bound := Nat.lt_of_le_of_lt (Nat.le_trans hle htail) hs
            exact ih left' hlt
      · rfl

/-- A bound on the extensions does not matter either, if it allows one for each token that is left. -/
theorem extend_count_congr (hn : Onward nested) (level : Level) {count count' : Nat} (left : Formula) {s : State}
    (hcount : s.rest.length ≤ count) (hcount' : s.rest.length ≤ count') :
    g.extend nested level count left s = g.extend nested level count' left s := by
  induction count generalizing count' left s with
  | zero =>
    have hnil : s.peek? = none := by rw [State.peek?, List.length_eq_zero_iff.1 (Nat.le_zero.1 hcount)]; rfl
    cases count' with
    | zero => rfl
    | succ count' => rw [extend, extend, hnil]
  | succ count ih =>
    cases count' with
    | zero =>
      have hnil : s.peek? = none := by rw [State.peek?, List.length_eq_zero_iff.1 (Nat.le_zero.1 hcount')]; rfl
      rw [extend, extend, hnil]
    | succ count' =>
      rw [extend, extend]
      split
      · rfl
      · split
        · split
          · rfl
          · next script _ =>
            split
            · rfl
            · rfl
            · next left' s' hr =>
              have hle := (Script.reaches_of_run hn hr).rest_suffix.length_le
              have htail : s.advance.rest.length = s.rest.length - 1 := List.length_tail
              exact ih left' (by omega) (by omega)
        · rfl

theorem Guarded.readWith_congr (hg : g.Guarded) (hn : Onward nested) (ha : AgreeBelow bound nested nested') :
    AgreeBelow (bound + 1) (g.readWith nested) (g.readWith nested') := by
  intro level s hs
  rw [readWith, readWith, readOperand, readOperand]
  cases ht : s.current? with
  | none => rfl
  | some t =>
    rw [State.pending_of_current?_eq_some ht] at hs
    have hlt : s.rest.length < bound := Nat.lt_of_succ_lt_succ hs
    dsimp only
    cases hscript : g.operand t.kind with
    | none => rfl
    | some script =>
      dsimp only
      have hrun : script.run nested s = script.run nested' s := (hg _ _ hscript).run_congr hn ha hlt
      rw [← hrun]
      split
      · rfl
      · rfl
      · next left s' hr =>
        have hle := (Script.reaches_of_run hn hr).rest_suffix.length_le
        have hlt' : s'.rest.length < bound := Nat.lt_of_le_of_lt hle hlt
        exact extend_congr hn ha level _ left hlt'

theorem Guarded.climb_agree (hg : g.Guarded) (depth depth' : Nat) :
    AgreeBelow (min depth depth') (g.climb depth) (g.climb depth') := by
  induction depth generalizing depth' with
  | zero => intro level s hs; rw [Nat.zero_min] at hs; exact absurd hs (Nat.not_lt_zero _)
  | succ depth ih =>
    cases depth' with
    | zero => intro level s hs; rw [Nat.min_zero] at hs; exact absurd hs (Nat.not_lt_zero _)
    | succ depth' =>
      rw [Nat.add_min_add_right]
      exact hg.readWith_congr (g.onward_climb depth) (ih depth')

/-- What is read does not depend on the depth allowed, if that is enough. -/
theorem Guarded.climb_eq_expression (hg : g.Guarded) (depth : Nat) :
    AgreeBelow depth (g.climb depth) g.expression := by
  intro level s hs
  exact hg.climb_agree depth (s.pending + 1) level s (Nat.lt_min.2 ⟨hs, Nat.lt_succ_self _⟩)

theorem Guarded.expression_eq (hg : g.Guarded) : g.expression = g.readWith g.expression := by
  funext level s
  exact hg.readWith_congr (g.onward_climb s.pending) (hg.climb_eq_expression s.pending) level s
    (Nat.lt_succ_self _)

end Grammar

end Sentential.Parser
