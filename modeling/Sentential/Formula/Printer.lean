import Sentential.Formula.Basic

/-!
# The text of a formula

Every binary node stands in parentheses, so the text does not depend on how tightly connectives bind.
`write` puts the text in front of what follows it, in one pass; `chars` is the text alone.
-/

namespace Sentential.Formula

def constChar (value : Bool) : Char := if value then '1' else '0'

def write : Formula → List Char → List Char
  | .var name, rest => name.toList ++ rest
  | .const value, rest => constChar value :: rest
  | .not a, rest => UnaryOperator.not.mark :: a.write rest
  | .binary glyph _ l r, rest => '(' :: l.write (' ' :: (glyph.toList ++ ' ' :: r.write (')' :: rest)))

def chars (f : Formula) : List Char := f.write []

/-- The canonical text, by which simplification compares formulas. -/
def literal (f : Formula) : String := String.ofList f.chars

theorem write_eq (f : Formula) (rest : List Char) : f.write rest = f.chars ++ rest := by
  induction f generalizing rest with
  | var name => simp [write, chars]
  | const value => rfl
  | not a ih => rw [chars, write, write, ih, ih []]; simp
  | binary glyph c l r ihl ihr =>
    rw [chars, write, write, ihl, ihr, ihl (' ' :: _), ihr [')']]
    simp

@[simp] theorem chars_var (name : String) : (var name).chars = name.toList := by simp [chars, write]

@[simp] theorem chars_const (value : Bool) : (const value).chars = [constChar value] := rfl

@[simp] theorem chars_not (a : Formula) : (not a).chars = '!' :: a.chars := rfl

@[simp] theorem chars_binary (glyph : String) (c : Connective) (l r : Formula) :
    (binary glyph c l r).chars = '(' :: l.chars ++ ' ' :: glyph.toList ++ ' ' :: r.chars ++ [')'] := by
  rw [chars, write, write_eq l, write_eq r]; simp

@[simp] theorem toList_literal (f : Formula) : f.literal.toList = f.chars := String.toList_ofList

theorem literal_inj {f g : Formula} : f.literal = g.literal ↔ f.chars = g.chars := by
  rw [← String.toList_inj, toList_literal, toList_literal]

end Sentential.Formula
