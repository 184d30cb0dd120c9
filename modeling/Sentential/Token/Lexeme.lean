import Sentential.Token
import Sentential.Text.Alphabetic

/-!
# Lexemes

`Lexeme.first` cuts the first lexeme off a text that does not begin with a separator: the longest operator
or bracket that the text begins with, else the longest run of name characters, else an illegal fragment.
Some part of the text is always taken (`first_chars_ne_nil`) and nothing is added (`first_isPrefix`).
-/

namespace Sentential

structure Lexeme where
  kind : Token.Kind
  chars : List Char
  deriving DecidableEq

namespace Lexeme

/-- Operators and brackets. One that begins another stands behind it, so the first match is the longest. -/
def symbols : List Lexeme :=
  [⟨.connective .iff, ['<', '-', '>']⟩,
   ⟨.connective .and, ['&', '&']⟩,
   ⟨.connective .or, ['|', '|']⟩,
   ⟨.connective .implies, ['-', '>']⟩,
   ⟨.equal, ['=', '=']⟩,
   ⟨.unequal, ['!', '=']⟩,
   ⟨.openParen, ['(']⟩,
   ⟨.closeParen, [')']⟩,
   ⟨.connective .and, ['&']⟩,
   ⟨.connective .and, ['*']⟩,
   ⟨.connective .or, ['|']⟩,
   ⟨.connective .or, ['+']⟩,
   ⟨.const false, ['0']⟩,
   ⟨.const true, ['1']⟩,
   ⟨.bang, ['!']⟩]

def isNameStart (c : Char) : Bool := c == '_' || Text.isAlphabetic c

def isNamePart (c : Char) : Bool := isNameStart c || c.isDigit

/-- A broken-off `<->` is taken as far as it goes; any other unknown character stands alone. -/
def fragment (c : Char) (rest : List Char) : List Char :=
  match c, rest with
  | '<', '-' :: _ => ['<', '-']
  | c, _ => [c]

/-- The first lexeme of the text `c :: rest`. -/
def first (c : Char) (rest : List Char) : Lexeme :=
  match symbols.find? fun s => s.chars.isPrefixOf (c :: rest) with
  | some s => s
  | none =>
    if isNameStart c then
      let word := c :: rest.takeWhile isNamePart
      ⟨.ofWord (String.ofList word), word⟩
    else
      ⟨.illegal, fragment c rest⟩

theorem fragment_isPrefix (c : Char) (rest : List Char) : fragment c rest <+: c :: rest := by
  unfold fragment
  split
  · exact ⟨_, rfl⟩
  · exact ⟨_, rfl⟩

theorem first_isPrefix (c : Char) (rest : List Char) : (first c rest).chars <+: c :: rest := by
  unfold first
  split
  · next s h => exact List.isPrefixOf_iff_prefix.1 (by simpa using List.find?_some h)
  · split
    · exact List.cons_prefix_cons.2 ⟨rfl, List.takeWhile_prefix _⟩
    · exact fragment_isPrefix c rest

theorem chars_ne_nil_of_mem_symbols : ∀ s ∈ symbols, s.chars ≠ [] := by decide

theorem first_chars_ne_nil (c : Char) (rest : List Char) : (first c rest).chars ≠ [] := by
  unfold first
  split
  · next s h => exact chars_ne_nil_of_mem_symbols s (List.mem_of_find?_eq_some h)
  · split
    · simp
    · unfold fragment
      split <;> simp

end Lexeme

end Sentential
