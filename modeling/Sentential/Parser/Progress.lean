import Sentential.Parser.Grammar

/-!
# Parsing ends

Whatever the scripts of a grammar do, a parser only moves on (`Grammar.reaches_of_expression`). If the
scripts for operands move on before they ask for an expression, each nested expression begins behind the
token at which the outer one began, so nesting is bounded by the tokens that are left and every parse ends
(`Grammar.exists_expression`).
-/

namespace Sentential.Parser

/-- Every answer of `nested` lies ahead. -/
def Onward (nested : Reader) : Prop :=
  ∀ {level s f? s'}, nested level s = some (f?, s') → s.Reaches s'

/-- `nested` answers where fewer than `bound` tokens are pending. -/
def AnswersBelow (bound : Nat) (nested : Reader) : Prop :=
  ∀ level s, s.pending < bound → ∃ f? s', nested level s = some (f?, s')

variable {nested : Reader}

namespace Script

variable {α : Type}

theorem reaches_of_run (hn : Onward nested) {script : Script α} {s s' : State} {a : α}
    (h : script.run nested s = some (a, s')) : s.Reaches s' := by
  induction script generalizing s with
  | done value => cases h; exact .refl
  | current next ih => exact ih _ h
  | peek next ih => exact ih _ h
  | advance next ih => exact (State.Reaches.refl.advance).trans (ih h)
  | report fault next ih => exact (State.Reaches.refl.report fault).trans (ih h)
  | expression level next ih =>
    rw [run] at h
    split at h
    · cases h
    · next f? s'' hf => exact (hn hf).trans (ih _ h)

theorem exists_run {bound : Nat} (hn : Onward nested) (ha : AnswersBelow bound nested) (script : Script α)
    {s : State} (hs : s.pending < bound) : ∃ a s', script.run nested s = some (a, s') := by
  induction script generalizing s with
  | done value => exact ⟨_, _, rfl⟩
  | current next ih => exact ih _ hs
  | peek next ih => exact ih _ hs
  | advance next ih => exact ih (Nat.lt_of_le_of_lt s.pending_advance_le hs)
  | report fault next ih => exact ih (s := s.report fault) hs
  | expression level next ih =>
    obtain ⟨f?, s', hf⟩ := ha level s hs
    rw [run, hf]
    exact ih f? (Nat.lt_of_le_of_lt (hn hf).pending_le hs)

theorem Guarded.exists_run {bound : Nat} (hn : Onward nested) (ha : AnswersBelow bound nested)
    {script : Script α} (hg : script.Guarded) {s : State} (hs : s.rest.length < bound) :
    ∃ a s', script.run nested s = some (a, s') := by
  induction script generalizing s with
  | done value => exact ⟨_, _, rfl⟩
  | current next ih => exact ih _ (hg _) hs
  | peek next ih => exact ih _ (hg _) hs
  | advance next ih => exact Script.exists_run hn ha next (by rw [s.pending_advance]; exact hs)
  | report fault next ih => exact ih hg (s := s.report fault) hs
  | expression level next ih => exact hg.elim

end Script

namespace Grammar

variable {g : Grammar}

/-- The scripts for operands move on before they ask for an expression. -/
def Guarded (g : Grammar) : Prop := ∀ kind script, g.operand kind = some script → script.Guarded

theorem reaches_of_extend (hn : Onward nested) {level : Level} {count : Nat} {left : Formula} {s s' : State}
    {f? : Option Formula} (h : g.extend nested level count left s = some (f?, s')) : s.Reaches s' := by
  induction count generalizing left s with
  | zero => cases h; exact .refl
  | succ count ih =>
    rw [extend] at h
    split at h
    · cases h; exact .refl
    · split at h
      · split at h
        · cases h; exact .refl
        · split at h
          · cases h
          · next hr => cases h; exact (State.Reaches.refl.advance).trans (Script.reaches_of_run hn hr)
          · next hr =>
            exact ((State.Reaches.refl.advance).trans (Script.reaches_of_run hn hr)).trans (ih h)
      · cases h; exact .refl

theorem reaches_of_readOperand (hn : Onward nested) {s s' : State} {f? : Option Formula}
    (h : g.readOperand nested s = some (f?, s')) : s.Reaches s' := by
  unfold readOperand at h
  split at h
  · cases h; exact State.Reaches.refl.report _
  · split at h
    · cases h; exact State.Reaches.refl.report _
    · exact Script.reaches_of_run hn h

theorem onward_readWith (hn : Onward nested) : Onward (g.readWith nested) := by
  intro level s f? s' h
  unfold readWith at h
  split at h
  · cases h
  · next ho => cases h; exact reaches_of_readOperand hn ho
  · next ho => exact (reaches_of_readOperand hn ho).trans (reaches_of_extend hn h)

theorem onward_climb (g : Grammar) (depth : Nat) : Onward (g.climb depth) := by
  induction depth with
  | zero => intro level s f? s' h; cases h
  | succ depth ih => exact onward_readWith ih

theorem reaches_of_expression {level : Level} {s s' : State} {f? : Option Formula}
    (h : g.expression level s = some (f?, s')) : s.Reaches s' :=
  g.onward_climb _ h

theorem exists_extend {bound : Nat} (hn : Onward nested) (ha : AnswersBelow bound nested) (level : Level)
    (count : Nat) (left : Formula) {s : State} (hs : s.rest.length < bound) :
    ∃ f? s', g.extend nested level count left s = some (f?, s') := by
  induction count generalizing left s with
  | zero => exact ⟨_, _, rfl⟩
  | succ count ih =>
    rw [extend]
    split
    · exact ⟨_, _, rfl⟩
    · split
      · split
        · exact ⟨_, _, rfl⟩
        · next script _ =>
          obtain ⟨a, s', hr⟩ := (script left).exists_run hn ha (s := s.advance)
            (by rw [s.pending_advance]; exact hs)
          rw [hr]
          cases a with
          | none => exact ⟨_, _, rfl⟩
          | some left =>
            have hle := (Script.reaches_of_run hn hr).rest_suffix.length_le
            have htail : s.advance.rest.length ≤ s.rest.length := (List.tail_suffix s.rest).length_le
            exact ih left (by omega)
      · exact ⟨_, _, rfl⟩

/-- An operand takes at least one token. -/
theorem Guarded.exists_readOperand {bound : Nat} (hg : g.Guarded) (hn : Onward nested)
    (ha : AnswersBelow bound nested) {s : State} (hs : s.pending < bound + 1) :
    ∃ f? s', g.readOperand nested s = some (f?, s') ∧ (f?.isSome → s'.rest.length < bound) := by
  unfold readOperand
  split
  · exact ⟨none, _, rfl, fun h => by cases h⟩
  · next t ht =>
    rw [State.pending_of_current?_eq_some ht] at hs
    split
    · exact ⟨none, _, rfl, fun h => by cases h⟩
    · next script hscript =>
      have hlt : s.rest.length < bound := Nat.lt_of_succ_lt_succ hs
      obtain ⟨f?, s', hr⟩ := (hg _ _ hscript).exists_run hn ha hlt
      have hle := (Script.reaches_of_run hn hr).rest_suffix.length_le
      exact ⟨f?, s', hr, fun _ => Nat.lt_of_le_of_lt hle hlt⟩

theorem Guarded.answersBelow_readWith {bound : Nat} (hg : g.Guarded) (hn : Onward nested)
    (ha : AnswersBelow bound nested) : AnswersBelow (bound + 1) (g.readWith nested) := by
  intro level s hs
  obtain ⟨f?, s', ho, hs'⟩ := hg.exists_readOperand hn ha hs
  unfold readWith
  rw [ho]
  cases f? with
  | none => exact ⟨_, _, rfl⟩
  | some left => exact exists_extend hn ha level _ left (hs' rfl)

theorem Guarded.answersBelow_climb (hg : g.Guarded) (depth : Nat) : AnswersBelow depth (g.climb depth) := by
  induction depth with
  | zero => intro level s hs; exact absurd hs (Nat.not_lt_zero _)
  | succ depth ih => exact hg.answersBelow_readWith (g.onward_climb depth) ih

theorem Guarded.exists_expression (hg : g.Guarded) (level : Level) (s : State) :
    ∃ f? s', g.expression level s = some (f?, s') :=
  hg.answersBelow_climb _ level s (Nat.lt_succ_self _)

theorem Guarded.exists_statement (hg : g.Guarded) (s : State) :
    ∃ st? s', g.statement s = some (st?, s') := by
  unfold statement
  dsimp only
  split
  · exact ⟨_, _, rfl⟩
  · split
    · split
      · exact ⟨_, _, rfl⟩
      · obtain ⟨f?, s', h⟩ := hg.exists_expression .lowest s.advance.advance
        rw [h]
        exact ⟨_, _, rfl⟩
    · exact ⟨_, _, rfl⟩

theorem guarded_standard : standard.Guarded := by
  intro kind script h
  cases kind with
  | name => cases h; exact fun _ => trivial
  | const value => cases h; trivial
  | bang =>
    cases h
    intro t?
    cases t? with
    | none => trivial
    | some t => dsimp only; split <;> trivial
  | openParen => cases h; trivial
  | _ => cases h

end Grammar

end Sentential.Parser
