import Sentential.Program

/-!
# The executable

Reads what `Program.run` asks for and writes what it gives. On a terminal it takes the turns of `Session.readLines`
one by one, so that a line is answered before the next one is there.
-/

namespace Sentential.Main

open Invocation (FileAnswer Args)
open Program (Result told)

/-- The system's words for an error, with its number. -/
def reason : IO.Error → String
  | .noFileOrDirectory _ code _ => "No such file or directory (os error " ++ toString code ++ ")"
  | .permissionDenied _ code _ => "Permission denied (os error " ++ toString code ++ ")"
  | .inappropriateType _ code _ => "Is a directory (os error " ++ toString code ++ ")"
  | e => toString e

def readFile (path : String) : IO FileAnswer := do
  match ← (IO.FS.Handle.mk path .read).toBaseIO with
  | .error e => return .notOpened (reason e)
  | .ok handle =>
    match ← handle.readBinToEnd.toBaseIO with
    | .error e => return .notRead (reason e)
    | .ok content => return .bytes content.toList

partial def readAll (input : IO.FS.Stream) (content : ByteArray) : IO ByteArray := do
  let chunk ← input.read 65536
  if chunk.isEmpty then return content
  readAll input (content ++ chunk)

/-- Reads one line, of which the bytes of `line`, last one first, have been read. -/
partial def nextLine? (input : IO.FS.Stream) (line : List UInt8) : IO (Option (List UInt8)) := do
  match (← input.read 1).toList with
  | [] => return if line.isEmpty then none else some line.reverse
  | b :: _ => if b = 10 then return some line.reverse else nextLine? input (b :: line)

def finish (r : Result) : IO UInt32 := do
  let output ← IO.getStdout
  let diagnostics ← IO.getStderr
  output.putStr r.output
  output.flush
  diagnostics.putStr (String.join r.diagnostics)
  return r.code.toUInt32

/-- Takes turns until the input ends or the session does. -/
partial def takeTurns (a : Args) (done : Summary) (input output diagnostics : IO.FS.Stream) :
    IO (Except ReadFault Summary) := do
  match ← nextLine? input [] with
  | none => return .ok done
  | some line =>
    diagnostics.putStr (String.join (told a.detail? (a.session.lineEvents done.processed [line])))
    match a.session.turn prompt done line with
    | .ends ending => return ending
    | .goesOn text done =>
      output.putStr text
      output.flush
      takeTurns a done input output diagnostics

def interact (a : Args) (input : IO.FS.Stream) : IO UInt32 := do
  let output ← IO.getStdout
  output.putStr (greeting ++ prompt)
  output.flush
  let ending ← takeTurns a ⟨0, 0⟩ input output (← IO.getStderr)
  let exit := a.exit ⟨"", ending⟩
  finish ⟨exit.output, told a.detail? (Args.endEvents ending) ++ [exit.complaint], exit.code⟩

def run (args : List String) : IO UInt32 := do
  let nothing : String → FileAnswer := fun _ => .bytes []
  match CommandLine.read (Program.encoded args) with
  | .ok a =>
    match a.input? with
    | some path =>
      let answer ← readFile (Text.lossy path)
      finish (Program.run args (fun _ => answer) [])
    | none =>
      let input ← IO.getStdin
      if ← input.isTty then interact a input
      else finish (Program.run args nothing (← readAll input .empty).toList)
  | .error _ => finish (Program.run args nothing [])

end Sentential.Main

def main (args : List String) : IO UInt32 := Sentential.Main.run args
