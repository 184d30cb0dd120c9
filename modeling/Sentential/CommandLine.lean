import Sentential.Invocation

/-!
# The command line

A reader of options for the program. Arguments are read from left to right, and the first one that settles the matter
does: a request for the version or for help, or a mistake. Options other than `-v` may be given once.
-/

namespace Sentential.CommandLine

open Invocation (OsText Args Exit number? isOption)

def version : Exit := ⟨"proposition 0.3.0\n", "", 0⟩

def usage : String := "Usage: proposition [OPTIONS] [FILE]\n"

def help : Exit where
  output :=
    "Truth tables and simplification for propositional logic\n\n" ++ usage ++
    "\nArguments:\n  [FILE]  File of statements, one per line (reads stdin if not specified)\n" ++
    "\nOptions:\n" ++
    "      --no-colour          Print tables without ANSI colours\n" ++
    "      --strict             Reject illegal characters while lexing\n" ++
    "      --max-variables <N>  Largest number of variables a truth table may have\n" ++
    "  -v, --verbose...         Increase log output (-v debug, -vv trace)\n" ++
    "  -h, --help               Print help\n" ++
    "  -V, --version            Print version\n"
  complaint := ""
  code := 0

def refused : Exit := ⟨"", usage, 2⟩

/-- The options read so far; those that may be given once are absent until then. -/
structure Draft where
  limit? : Option Nat := none
  plain : Bool := false
  strict : Bool := false
  verbosity : Nat := 0
  file? : Option OsText := none

def Draft.args (d : Draft) : Args where
  input? := d.file?
  noColour := d.plain
  strict := d.strict
  maxVariables := d.limit?.getD ({} : Args).maxVariables
  verbose := d.verbosity

/-- What one argument comes to. -/
inductive Step where
  | next (d : Draft)
  /-- The next argument is the value of `--max-variables`. -/
  | limit
  /-- All further arguments are files. -/
  | rest
  | stop (exit : Exit)

def Draft.file (d : Draft) (path : OsText) : Step :=
  if d.file?.isSome || path.isEmpty then .stop refused else .next { d with file? := some path }

def Draft.setLimit (d : Draft) (value? : Option String) : Step :=
  match d.limit?, value?.bind number? with
  | none, some n => .next { d with limit? := some n }
  | _, _ => .stop refused

/-- Short options, which may share one dash. -/
def Draft.short (d : Draft) : List Char → Step
  | [] => .next d
  | 'v' :: rest => { d with verbosity := d.verbosity + 1 }.short rest
  | 'V' :: _ => .stop version
  | 'h' :: _ => .stop help
  | _ => .stop refused

/-- A long option without a value. -/
def Draft.long (d : Draft) : String → Step
  | "max-variables" => .limit
  | "no-colour" | "no-color" => if d.plain then .stop refused else .next { d with plain := true }
  | "strict" => if d.strict then .stop refused else .next { d with strict := true }
  | "verbose" => .next { d with verbosity := d.verbosity + 1 }
  | "version" => .stop version
  | "help" => .stop help
  | _ => .stop refused

/-- A long option, with its value if an equals sign follows its name. -/
def Draft.longOrValued (d : Draft) (chars : List Char) : Step :=
  match chars.dropWhile (· != '=') with
  | [] => d.long (String.ofList chars)
  | _ :: value =>
    if chars.takeWhile (· != '=') = "max-variables".toList then d.setLimit (some (String.ofList value))
    else .stop refused

/-- An argument that begins with a dash. -/
def Draft.option (d : Draft) (flag : String) : Step :=
  match flag.toList with
  | ['-', '-'] => .rest
  | '-' :: '-' :: chars => d.longOrValued chars
  | '-' :: chars => d.short chars
  | _ => .stop refused

def Draft.step (d : Draft) (arg : OsText) : Step :=
  if isOption arg then
    match Text.decode? arg with
    | none => .stop refused
    | some flag => d.option flag
  else d.file arg

/-- Arguments none of which is an option. -/
def readFiles (d : Draft) : List OsText → Except Exit Args
  | [] => .ok d.args
  | arg :: argv =>
    match d.file arg with
    | .next d => readFiles d argv
    | _ => .error refused

/-- Reads arguments; if `valued`, the first one is the value of `--max-variables`. -/
def readFrom (valued : Bool) (d : Draft) : List OsText → Except Exit Args
  | [] => if valued then .error refused else .ok d.args
  | arg :: argv =>
    match if valued then d.setLimit (Text.decode? arg) else d.step arg with
    | .next d => readFrom false d argv
    | .limit => readFrom true d argv
    | .rest => readFiles d argv
    | .stop exit => .error exit

def read : Invocation.Reader := readFrom false {}

end Sentential.CommandLine
