import Sentential.Parser.State

/-!
# Scripts

A script is what a parser does on meeting a token: a tree of requests, each with what follows for every
answer it may get. Requests look at the current token or the next, move on, record a fault, or ask for a
whole expression, so a script by itself always ends; whether a parse ends depends on the expressions that
scripts ask for. `Script.Guarded` marks the scripts that move on before they ask for one.

A handler that loops for as long as it meets certain tokens is no script by itself, since there is no bound on its
requests. On one list of tokens it is: its turns stand one behind the other, as many as the list leaves room for, and
the branches for answers that cannot come there end at once. As grammars hold arbitrary scripts, what is shown for all
grammars and all lists of tokens is shown for such handlers too, list by list.
-/

namespace Sentential.Parser

/-- How tightly something binds. -/
inductive Level where
  | lowest
  | connective
  | negation
  deriving DecidableEq, Repr

namespace Level

def rank : Level → Nat
  | .lowest => 0
  | .connective => 1
  | .negation => 2

instance : LT Level := ⟨fun a b => a.rank < b.rank⟩

instance (a b : Level) : Decidable (a < b) := inferInstanceAs (Decidable (a.rank < b.rank))

theorem lt_iff {a b : Level} : a < b ↔ a.rank < b.rank := Iff.rfl

end Level

/-- How expressions are read: at a level, from a state on. There may be no answer. -/
abbrev Reader := Level → State → Option (Option Formula × State)

inductive Script (α : Type) where
  | done (value : α)
  | current (next : Option Token → Script α)
  | peek (next : Option Token → Script α)
  | advance (next : Script α)
  | report (fault : Fault) (next : Script α)
  | expression (level : Level) (next : Option Formula → Script α)

namespace Script

variable {α : Type}

/-- Runs a script where `nested` reads the expressions it asks for. -/
def run (nested : Reader) : Script α → State → Option (α × State)
  | .done value, s => some (value, s)
  | .current next, s => (next s.current?).run nested s
  | .peek next, s => (next s.peek?).run nested s
  | .advance next, s => next.run nested s.advance
  | .report fault next, s => next.run nested (s.report fault)
  | .expression level next, s =>
    match nested level s with
    | none => none
    | some (f?, s') => (next f?).run nested s'

/-- The script moves on before it asks for an expression. Of a branch that ends at once nothing is asked. -/
def Guarded : Script α → Prop
  | .done _ => True
  | .current next => ∀ t?, (next t?).Guarded
  | .peek next => ∀ t?, (next t?).Guarded
  | .advance _ => True
  | .report _ next => next.Guarded
  | .expression _ _ => False

/-- Goes on with a formula; without one there is no result either. -/
def andThen (f? : Option Formula) (next : Formula → Script (Option Formula)) : Script (Option Formula) :=
  match f? with
  | none => .done none
  | some f => next f

end Script

end Sentential.Parser
