import Sentential.Session
import Sentential.Text.Lines

/-!
# Transcripts

A session reads lines until the input ends or a line begins with `.exit`, and answers each one that is not
blank. A transcript is all that it writes, and how it ended. In an interactive session a greeting comes
first and a prompt before every line.
-/

namespace Sentential

structure Summary where
  /-- The lines that were executed. -/
  processed : Nat
  /-- Those of them that failed. -/
  failed : Nat
  deriving DecidableEq, Repr

namespace Summary

def isSuccess (s : Summary) : Bool := s.failed == 0

def count (s : Summary) (failed : Bool) : Summary := ⟨s.processed + 1, s.failed + failed.toNat⟩

end Summary

inductive ReadFault where
  | notUtf8
  deriving DecidableEq, Repr

def ReadFault.message : ReadFault → String
  | .notUtf8 => "stream did not contain valid UTF-8"

structure Transcript where
  output : String
  ending : Except ReadFault Summary

inductive Reply where
  | leave
  | silence
  | answer (text : String) (failed : Bool)
  deriving DecidableEq, Repr

inductive Turn where
  | ends (ending : Except ReadFault Summary)
  | goesOn (output : String) (done : Summary)

def exitCommand : String := ".exit"

def prompt : String := ">> "

def greeting : String :=
  "Welcome to the proposition REPL!\nType \"" ++ exitCommand ++ "\" or press Ctrl+D to quit.\n"

namespace Session

/-- What a line comes to, apart from the blanks at its ends. -/
def reply (s : Session) (line : String) : Reply :=
  let text := Text.trim line.toList
  if exitCommand.toList.isPrefixOf text then .leave
  else if text.isEmpty then .silence
  else
    match s.execute (String.ofList text) with
    | .ok outcome => .answer (Text.stripNewlines (s.render outcome)) false
    | .error e => .answer e.message true

/-- What a line brings about, where `done` lines have been executed before it and `mark` is written behind every line
that does not end the session. -/
def turn (s : Session) (mark : String) (done : Summary) (line : List UInt8) : Turn :=
  match Text.decode? line with
  | none => .ends (.error .notUtf8)
  | some text =>
    match s.reply text with
    | .leave => .ends (.ok done)
    | .silence => .goesOn mark done
    | .answer answer failed => .goesOn (answer ++ "\n" ++ mark) (done.count failed)

/-- Takes one turn after the other until the session ends or there are no more lines. -/
def readLines (s : Session) (mark : String) (done : Summary) : List (List UInt8) → Transcript
  | [] => ⟨"", .ok done⟩
  | line :: lines =>
    match s.turn mark done line with
    | .ends ending => ⟨"", ending⟩
    | .goesOn output done =>
      let later := s.readLines mark done lines
      ⟨output ++ later.output, later.ending⟩

def converse (s : Session) (interactive : Bool) (input : List UInt8) : Transcript :=
  let lines := Text.lines input
  if interactive then
    let body := s.readLines prompt ⟨0, 0⟩ lines
    ⟨greeting ++ prompt ++ body.output, body.ending⟩
  else s.readLines "" ⟨0, 0⟩ lines

/-- The events of reading lines, where `done` lines have been executed before. -/
def lineEvents (s : Session) (done : Nat) : List (List UInt8) → List Event
  | [] => []
  | line :: lines =>
    match Text.decode? line with
    | none => []
    | some text =>
      match s.reply text with
      | .leave => []
      | .silence => s.lineEvents done lines
      | .answer answer failed =>
        s.events (String.ofList (Text.trim text.toList)) ++
          (if failed then [.failed (done + 1) answer] else []) ++ s.lineEvents (done + 1) lines

end Session

end Sentential
