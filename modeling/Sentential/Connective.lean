/-!
# Connectives

The four binary connectives. A connective may be spelled in several ways; a spelling is called a glyph,
and one glyph of each connective is canonical. Of operators before a single operand there is only the
negation, which is spelled in one way.
-/

namespace Sentential

inductive Connective where
  | or
  | and
  | implies
  | iff
  deriving DecidableEq, Repr

namespace Connective

def ofGlyph? : String → Option Connective
  | "+" | "|" | "||" => some .or
  | "*" | "&" | "&&" => some .and
  | "->" => some .implies
  | "<->" => some .iff
  | _ => none

def glyph : Connective → String
  | .or => "+"
  | .and => "*"
  | .implies => "->"
  | .iff => "<->"

/-- The connective's name, as opposed to its spelling. -/
def label : Connective → String
  | .or => "or"
  | .and => "and"
  | .implies => "->"
  | .iff => "<->"

def apply : Connective → Bool → Bool → Bool
  | .or, a, b => a || b
  | .and, a, b => a && b
  | .implies, a, b => !a || b
  | .iff, a, b => (!a || b) && (!b || a)

@[simp] theorem ofGlyph?_glyph (c : Connective) : ofGlyph? c.glyph = some c := by
  cases c <;> rfl

end Connective

inductive UnaryOperator where
  | not
  deriving DecidableEq, Repr

namespace UnaryOperator

def ofMark? : String → Option UnaryOperator
  | "!" => some .not
  | _ => none

def mark : UnaryOperator → Char
  | .not => '!'

def apply : UnaryOperator → Bool → Bool
  | .not, a => !a

@[simp] theorem ofMark?_mark (o : UnaryOperator) : ofMark? (String.ofList [o.mark]) = some o := by
  cases o; rfl

@[simp] theorem apply_not (a : Bool) : UnaryOperator.not.apply a = !a := rfl

end UnaryOperator

end Sentential
