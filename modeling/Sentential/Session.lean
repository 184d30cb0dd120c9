import Sentential.Error
import Sentential.Event
import Sentential.TruthTable.Render

/-!
# Sessions

A session executes statements, one line each, under settings that stay the same. Lines do not influence
each other.
-/

namespace Sentential

structure Session where
  /-- Larger tables are refused, since a table doubles with every variable. -/
  maxTableVariables : Nat := 12
  /-- Whether tables are drawn in colours. -/
  colour : Bool := true
  /-- Whether an illegal token is an error of its own, instead of a fault that the parser finds. -/
  strict : Bool := false
  deriving DecidableEq, Repr

inductive Outcome where
  | table (t : TruthTable)
  | simplified (f : Formula)
  deriving DecidableEq

/-- The outcome without colours. -/
def Outcome.text : Outcome → String
  | .table t => t.render false
  | .simplified f => f.literal

namespace Session

def run (s : Session) (statement : Statement) : Except Error Outcome :=
  match statement.command with
  | .table =>
    let count := statement.formula.vars.length
    if s.maxTableVariables < count then .error (.tooManyVariables count s.maxTableVariables)
    else .ok (.table (.ofFormula statement.formula))
  | .simplify => .ok (.simplified (statement.formula.simplify Rule.all))

def execute (s : Session) (text : String) : Except Error Outcome :=
  match Statement.read s.strict text with
  | .error e => .error e
  | .ok statement => s.run statement

def render (s : Session) : Outcome → String
  | .table t => t.render s.colour
  | .simplified f => f.literal

/-- The events of running a statement; there is none if it is refused. -/
def runEvents (s : Session) (statement : Statement) : List Event :=
  match s.run statement with
  | .error _ => []
  | .ok (.table t) => t.events
  | .ok (.simplified _) => statement.formula.simplifyEvents Rule.all

/-- The events of executing a line. Nothing is told behind the step that fails. -/
def events (s : Session) (text : String) : List Event :=
  match lex s.strict text with
  | .error _ => []
  | .ok tokens =>
    .lexed tokens.length ::
      match Statement.ofTokens tokens with
      | .error _ => []
      | .ok statement =>
        match s.run statement with
        | .error _ => []
        | .ok _ => s.runEvents statement ++ [.executed text]

end Session

end Sentential
