import Sentential.Parser.Basic

/-!
# Errors

Why a line has no outcome.
-/

namespace Sentential

inductive Error where
  | lex (error : LexError)
  | parse (error : ParseError)
  | tooManyVariables (count limit : Nat)
  deriving DecidableEq, Repr

def Error.message : Error → String
  | .lex error => error.message
  | .parse error => error.message
  | .tooManyVariables count limit =>
    "truth table over " ++ toString count ++ " variables exceeds the limit of " ++ toString limit

/-- Reads a line as a statement; if `strict`, an illegal token is an error of its own. -/
def Statement.read (strict : Bool) (text : String) : Except Error Statement :=
  match lex strict text with
  | .error e => .error (.lex e)
  | .ok tokens =>
    match Statement.ofTokens tokens with
    | .error e => .error (.parse e)
    | .ok statement => .ok statement

end Sentential
