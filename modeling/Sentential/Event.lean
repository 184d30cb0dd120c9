import Sentential.Simplify
import Sentential.Text.Quoted
import Sentential.TruthTable.Basic

/-!
# Events

What a session can tell about its work while it does it.
-/

namespace Sentential

/-- How much detail one has to ask for to see an event. -/
inductive Detail where
  | debug
  | trace
  deriving DecidableEq, Repr

def Detail.label : Detail → String
  | .debug => "DEBUG"
  | .trace => "TRACE"

inductive Event where
  | lexed (count : Nat)
  | fired (firing : Firing)
  | simplified (before after : Formula) (passes : Nat)
  | generated (rows columns : Nat)
  | executed (line : String)
  | failed (number : Nat) (message : String)
  | opened (path : String)
  | processed (lines failures : Nat)
  deriving DecidableEq

namespace Event

def detail : Event → Detail
  | .lexed _ => .trace
  | .fired _ => .trace
  | _ => .debug

def text : Event → String
  | .lexed count => "lexed " ++ toString count ++ " tokens"
  | .fired ⟨rule, before, after⟩ => rule.name ++ ": " ++ before.literal ++ " => " ++ after.literal
  | .simplified before after passes =>
    "simplified " ++ before.literal ++ " to " ++ after.literal ++ " in " ++ toString passes ++ " passes"
  | .generated rows columns =>
    "generated " ++ toString rows ++ " rows over " ++ toString columns ++ " variables"
  | .executed line => "executed " ++ Text.Quoted.encode line
  | .failed number message => "line " ++ toString number ++ " failed: " ++ message
  | .opened path => "running batch file " ++ path
  | .processed lines failures =>
    "processed " ++ toString lines ++ " lines, " ++ toString failures ++ " failed"

def record (e : Event) : String := e.detail.label ++ " " ++ e.text

end Event

/-- The events of simplifying a formula. -/
def Formula.simplifyEvents (rules : List Rule) (f : Formula) : List Event :=
  (f.firings rules).map .fired ++ [.simplified f (f.simplify rules) (f.passes rules)]

/-- The events of building a table. -/
def TruthTable.events (t : TruthTable) : List Event := [.generated t.rows.length t.columns.length]

end Sentential
