import Sentential.Text.Printable
import Sentential.Text.Extender
import Sentential.Text.Ignorable

/-!
# Quoted text

Text in double quotes, as it stands in messages: the quote and the backslash are escaped by a backslash,
four controls have short names, and what cannot be seen by itself is given by its code point in braces.
-/

namespace Sentential.Text.Quoted

/-- The code point in lower-case hexadecimal digits between braces. -/
def codePoint (c : Char) : List Char :=
  ['\\', 'u', '\x7b'] ++ Nat.toDigits 16 c.toNat ++ ['\x7d']

/-- A character that can be seen by itself. -/
def isVisible (c : Char) : Bool := isPrintable c && !isExtender c && !isIgnorable c

def escape (c : Char) : List Char :=
  match c with
  | '"' => ['\\', '"']
  | '\\' => ['\\', '\\']
  | '\x00' => ['\\', '0']
  | '\t' => ['\\', 't']
  | '\n' => ['\\', 'n']
  | '\r' => ['\\', 'r']
  | c => if isVisible c then [c] else codePoint c

def encode (text : String) : String :=
  String.ofList ('"' :: text.toList.flatMap escape ++ ['"'])

end Sentential.Text.Quoted
