/-!
# Faults

What a parser can complain about. A parse error is the list of complaints of one attempt, in the order in
which they were made.
-/

namespace Sentential

inductive Fault where
  | notTokenized
  | endOfInput
  | unexpected (literal : String)
  /-- No operand begins with this token. -/
  | noOperand (literal : String)
  /-- No formula is continued by this token. -/
  | noExtension (literal : String)
  /-- The token stands for a negation and is not spelt like one. -/
  | noNegation (literal : String)
  /-- The token stands for a connective and is not spelt like one. -/
  | noConnective (literal : String)
  /-- Something other than a closing parenthesis, or the end, where one should be. -/
  | unclosed (found? : Option String)
  | custom (message : String)
  deriving DecidableEq, Repr

def Fault.message : Fault → String
  | .notTokenized => "tokenizer must be tokenized before parsing"
  | .endOfInput => "unexpected EOF"
  | .unexpected literal => "unexpected token " ++ literal
  | .noOperand literal => "no prefix parse function for " ++ literal
  | .noExtension literal => "no infix parse function for " ++ literal
  | .noNegation literal => "no operator for prefix " ++ literal
  | .noConnective literal => "no action for infix operator " ++ literal
  | .unclosed (some literal) => "expected ')', found " ++ literal
  | .unclosed none => "expected ')', found EOF"
  | .custom message => message

structure ParseError where
  faults : List Fault
  deriving DecidableEq, Repr

namespace ParseError

/-- No fault is no error. -/
def ofFaults? : List Fault → Option ParseError
  | [] => none
  | faults => some ⟨faults⟩

def messages (e : ParseError) : List String := e.faults.map Fault.message

def message (e : ParseError) : String :=
  "parsing failed, encountered the following errors:\n" ++ "\n".intercalate e.messages

end ParseError

end Sentential
