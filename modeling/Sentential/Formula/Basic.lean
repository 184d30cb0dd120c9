import Sentential.Connective

/-!
# Formulas

A binary node keeps its glyph as it was written beside the connective that it stands for. Only the text of
a formula looks at glyphs; meaning and simplification look at connectives.
-/

namespace Sentential

inductive Formula where
  | var (name : String)
  | const (value : Bool)
  | not (operand : Formula)
  | binary (glyph : String) (connective : Connective) (left right : Formula)
  deriving DecidableEq

namespace Formula

/-- Joins two formulas by the canonical glyph of a connective. -/
def join (c : Connective) (left right : Formula) : Formula :=
  .binary c.glyph c left right

/-- Joins two formulas by a glyph, if it spells a connective. -/
def ofGlyph? (glyph : String) (left right : Formula) : Option Formula :=
  (Connective.ofGlyph? glyph).map fun c => .binary glyph c left right

def connective? : Formula → Option Connective
  | .binary _ c _ _ => some c
  | _ => none

/-- The operand of a negation. -/
def negated? : Formula → Option Formula
  | .not a => some a
  | _ => none

theorem ofGlyph?_glyph (c : Connective) (left right : Formula) :
    ofGlyph? c.glyph left right = some (join c left right) := by
  simp [ofGlyph?, join]

theorem negated?_eq_some {f a : Formula} : f.negated? = some a ↔ f = .not a := by
  cases f <;> simp [negated?]

end Formula

end Sentential
