import Sentential.Formula.Printer

/-!
# Statements

A line of input is one statement: a command and the formula it is about.
-/

namespace Sentential

inductive Command where
  | table
  | simplify
  deriving DecidableEq, Repr

def Command.word : Command → String
  | .table => "table"
  | .simplify => "simplify"

structure Statement where
  command : Command
  formula : Formula
  deriving DecidableEq

def Statement.text (s : Statement) : String := s.command.word ++ " " ++ s.formula.literal

end Sentential
