import Sentential.Fault
import Sentential.Token

/-!
# The state of a parser

A parser stands at a token, or before the first or behind the last one, and has recorded some faults. It
can only move on and record more: `State.Reaches` holds between a state and those after it.
-/

namespace Sentential.Parser

/-- Before the first token and behind the last one there is no current token; behind the last one
`rest` is empty. -/
structure State where
  current? : Option Token
  rest : List Token
  faults : List Fault
  deriving DecidableEq

namespace State

def ofTokens (tokens : List Token) : State := ⟨none, tokens, []⟩

def peek? (s : State) : Option Token := s.rest.head?

def advance (s : State) : State := { s with current? := s.rest.head?, rest := s.rest.tail }

def report (s : State) (fault : Fault) : State := { s with faults := s.faults ++ [fault] }

/-- The number of tokens from the current one on. -/
def pending (s : State) : Nat := s.current?.toList.length + s.rest.length

inductive Reaches (s : State) : State → Prop
  | refl : Reaches s s
  | advance {s' : State} : Reaches s s' → Reaches s s'.advance
  | report {s' : State} (fault : Fault) : Reaches s s' → Reaches s (s'.report fault)

theorem pending_advance (s : State) : s.advance.pending = s.rest.length := by
  cases h : s.rest with
  | nil => simp [pending, advance, h]
  | cons t rest => simp [pending, advance, h]; omega

theorem pending_advance_le (s : State) : s.advance.pending ≤ s.pending := by
  rw [pending_advance]; exact Nat.le_add_left _ _

@[simp] theorem pending_report (s : State) (fault : Fault) : (s.report fault).pending = s.pending := rfl

theorem pending_of_current?_eq_some {s : State} {t : Token} (h : s.current? = some t) :
    s.pending = s.rest.length + 1 := by
  simp [pending, h]; omega

namespace Reaches

variable {s s' s'' : State}

theorem trans (h : s.Reaches s') (h' : s'.Reaches s'') : s.Reaches s'' := by
  induction h' with
  | refl => exact h
  | advance _ ih => exact ih.advance
  | report fault _ ih => exact ih.report fault

/-- The place never moves backwards. -/
theorem rest_suffix (h : s.Reaches s') : s'.rest <:+ s.rest := by
  induction h with
  | refl => exact List.suffix_rfl
  | advance _ ih => exact (List.tail_suffix _).trans ih
  | report fault _ ih => exact ih

theorem pending_le (h : s.Reaches s') : s'.pending ≤ s.pending := by
  induction h with
  | refl => exact Nat.le_refl _
  | advance _ ih => exact Nat.le_trans (pending_advance_le _) ih
  | report fault _ ih => exact ih

/-- No fault is lost or changed. -/
theorem faults_isPrefix (h : s.Reaches s') : s.faults <+: s'.faults := by
  induction h with
  | refl => exact List.prefix_rfl
  | advance _ ih => exact ih
  | report fault _ ih => exact ih.trans (List.prefix_append _ _)

end Reaches

end State

end Sentential.Parser
