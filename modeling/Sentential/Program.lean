import Sentential.CommandLine

/-!
# The program

The whole program as a function from its arguments, what a file holds and its standard input to what it writes and
its exit code, with its own reader of options and its own form of a log.
-/

namespace Sentential.Program

export Invocation (FileAnswer)

structure Result where
  output : String
  /-- What goes to standard error, in order. -/
  diagnostics : List String
  code : Nat
  deriving DecidableEq, Repr

/-- The lines of a log for those of the events that are not more detailed than asked for. -/
def told (detail? : Option Detail) (events : List Event) : List String :=
  let shown := events.filter fun e =>
    match detail?, e.detail with
    | none, _ => false
    | some .debug, .trace => false
    | some _, _ => true
  shown.map fun e => "[" ++ e.detail.label ++ "] " ++ e.text ++ "\n"

/-- The log of an invocation. -/
def log (argv : List Invocation.OsText) (w : Invocation.Surroundings) : List String :=
  match CommandLine.read argv with
  | .ok a => if a.detail?.isNone then [] else told a.detail? (a.events w)
  | .error _ => []

def encoded (args : List String) : List Invocation.OsText := args.map fun arg => arg.toUTF8.toList

def run (args : List String) (file : String → FileAnswer) (input : List UInt8) : Result :=
  let argv := encoded args
  let w : Invocation.Surroundings := ⟨fun path => file (Text.lossy path), false, input⟩
  let exit := Invocation.run CommandLine.read argv w
  ⟨exit.output, log argv w ++ [exit.complaint], exit.code⟩

end Sentential.Program
