import Sentential.Text.Lossy
import Sentential.Transcript

/-!
# Invocations

What comes of running the program: what it writes, and the code it exits with. Which options there are and what each
one settles is said here, and how arguments are read into them is not: the reader is a parameter. It may end the
program itself, as it does with a request for help or with a mistake, and of the arguments that it accepts no more is
known than that they fill the options as these are declared (`FillsAsDeclared`).
-/

namespace Sentential.Invocation

/-- An argument, or the path of a file: any bytes. -/
abbrev OsText := List UInt8

/-- What comes of asking for a file. -/
inductive FileAnswer where
  | bytes (content : List UInt8)
  | notOpened (reason : String)
  | notRead (reason : String)
  deriving DecidableEq, Repr

/-- What an invocation finds around it. -/
structure Surroundings where
  file : OsText → FileAnswer
  /-- Whether the standard input is a terminal. -/
  terminal : Bool
  input : List UInt8

structure Exit where
  output : String
  /-- What is said on standard error about why it ends. -/
  complaint : String
  code : Nat
  deriving DecidableEq, Repr

/-- The options, with what they are if they are not given. -/
structure Args where
  /-- The file of statements; without one they are read from the standard input. -/
  input? : Option OsText := none
  noColour : Bool := false
  strict : Bool := false
  maxVariables : Nat := ({} : Session).maxTableVariables
  /-- How often more was asked to be told. -/
  verbose : Nat := 0
  deriving DecidableEq, Repr

namespace Args

def session (a : Args) : Session where
  maxTableVariables := a.maxVariables
  colour := !a.noColour
  strict := a.strict

/-- The most detailed events that are told. -/
def detail? (a : Args) : Option Detail :=
  match a.verbose with
  | 0 => none
  | 1 => some .debug
  | _ => some .trace

/-- The end of a session. A failed line shows in the exit code only if the lines come from a file. -/
def exit (a : Args) (t : Transcript) : Exit :=
  match t.ending with
  | .ok summary => ⟨t.output, "", if a.input?.isSome && !summary.isSuccess then 1 else 0⟩
  | .error fault => ⟨t.output, "Error: " ++ fault.message ++ "\n", 1⟩

def run (a : Args) (w : Surroundings) : Exit :=
  match a.input? with
  | some path =>
    match w.file path with
    | .notOpened reason =>
      ⟨"", "Error reading statement file '" ++ Text.lossy path ++ "': " ++ reason ++ "\n", 1⟩
    | .notRead reason => ⟨"", "Error: " ++ reason ++ "\n", 1⟩
    | .bytes content => a.exit (a.session.converse false content)
  | none => a.exit (a.session.converse w.terminal w.input)

/-- What is told about the end of a session. -/
def endEvents : Except ReadFault Summary → List Event
  | .ok summary => [.processed summary.processed summary.failed]
  | .error _ => []

/-- The events of reading a whole input. -/
def inputEvents (a : Args) (input : List UInt8) : List Event :=
  a.session.lineEvents 0 (Text.lines input) ++ endEvents (a.session.converse false input).ending

def events (a : Args) (w : Surroundings) : List Event :=
  match a.input? with
  | some path =>
    match w.file path with
    | .notOpened _ => []
    | .notRead _ => [.opened (Text.lossy path)]
    | .bytes content => .opened (Text.lossy path) :: a.inputEvents content
  | none => a.inputEvents w.input

end Args

/-- Reads arguments into options, or ends the program. -/
abbrev Reader := List OsText → Except Exit Args

/-- The program, where `read` reads its arguments. -/
def run (read : Reader) (argv : List OsText) (w : Surroundings) : Exit :=
  match read argv with
  | .ok a => a.run w
  | .error exit => exit

/-! ## How the options are declared -/

/-- A number of at most 64 bits in decimal digits, which a plus sign may precede. -/
def number? (text : String) : Option Nat :=
  let digits := match text.toList with
    | '+' :: rest => rest
    | chars => chars
  if digits.isEmpty || !digits.all Char.isDigit then none
  else
    let n := digits.foldl (fun n c => 10 * n + (c.toNat - '0'.toNat)) 0
    if n < UInt64.size then some n else none

/-- The arguments that may be options, as far as they are text; all those behind `--` are files. -/
def flags (argv : List OsText) : List (Option String) := (argv.map Text.decode?).takeWhile (· ≠ some "--")

/-- The limit in a flag that has it behind an equals sign. -/
def joinedLimit? (flag : String) : Option Nat :=
  if "--max-variables=".toList.isPrefixOf flag.toList then
    number? (String.ofList (flag.toList.drop "--max-variables=".toList.length))
  else none

/-- The limit that is named first, be it in the flag of that name or in the one behind it. -/
def namedLimit? : List (Option String) → Option Nat
  | [] => none
  | flag? :: flags =>
    if flag? = some "--max-variables" then flags.head?.join.bind number?
    else (flag?.bind joinedLimit?).or (namedLimit? flags)

/-- The argument begins with a dash and is more than that. -/
def isOption : OsText → Bool
  | 0x2d :: _ :: _ => true
  | _ => false

/-- The arguments that are files. If `valued`, the first argument is the value of an option. -/
def filesFrom (valued : Bool) : List OsText → List OsText
  | [] => []
  | arg :: argv =>
    if valued then filesFrom false argv
    else if Text.decode? arg = some "--" then argv
    else if Text.decode? arg = some "--max-variables" then filesFrom true argv
    else if isOption arg then filesFrom false argv
    else arg :: filesFrom false argv

def files (argv : List OsText) : List OsText := filesFrom false argv

/-- The arguments that a reader accepts fill the options as they are declared. -/
structure FillsAsDeclared (read : Reader) : Prop where
  /-- There is one file at most. -/
  input {argv a} : read argv = .ok a → files argv = a.input?.toList
  /-- A switch is on if it is among the flags, by whichever of its names. -/
  noColour {argv a} : read argv = .ok a →
    a.noColour = ((flags argv).contains (some "--no-colour") || (flags argv).contains (some "--no-color"))
  strict {argv a} : read argv = .ok a → a.strict = (flags argv).contains (some "--strict")
  /-- An option with a value has the one that is named. -/
  maxVariables {argv a} : read argv = .ok a → a.maxVariables = (namedLimit? (flags argv)).getD 12

end Sentential.Invocation
