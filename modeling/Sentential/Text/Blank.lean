import Sentential.Text.Ranges

/-!
# Blank characters

The property White_Space of Unicode 17.0, and the text between the blanks at its two ends.
-/

namespace Sentential.Text

def blank : Ranges :=
  [(0x9, 0xd), (0x20, 0x20), (0x85, 0x85), (0xa0, 0xa0), (0x1680, 0x1680), (0x2000, 0x200a),
   (0x2028, 0x2029), (0x202f, 0x202f), (0x205f, 0x205f), (0x3000, 0x3000)]

def isBlank (c : Char) : Bool := blank.contains c.toNat

/-- The text without what satisfies `p` at its end. -/
def dropRight (p : Char → Bool) (text : List Char) : List Char :=
  (text.reverse.dropWhile p).reverse

def trim (text : List Char) : List Char := dropRight isBlank (text.dropWhile isBlank)

theorem dropRight_append_singleton (p : Char → Bool) (text : List Char) (c : Char) :
    dropRight p (text ++ [c]) = if p c then dropRight p text else text ++ [c] := by
  by_cases h : p c <;> simp [dropRight, h]

@[simp] theorem dropRight_nil (p : Char → Bool) : dropRight p [] = [] := rfl

end Sentential.Text
