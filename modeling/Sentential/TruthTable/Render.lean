import Sentential.Formula.Printer
import Sentential.Text.Style
import Sentential.TruthTable.Basic

/-!
# Drawing truth tables

A table is drawn as a grid. A column is as wide as its heading, which is a variable or, in the last
column, the text of the formula.
-/

namespace Sentential.TruthTable

open Text (Style centre)

/-- The headings of the columns. -/
def headings (t : TruthTable) : List (List Char) := t.columns.map String.toList ++ [t.formula.chars]

def widths (t : TruthTable) : List Nat := t.headings.map List.length

/-- A horizontal line of the grid, with the given characters at its left end, crossings and right end. -/
def border (left crossing right : Char) (widths : List Nat) : List Char :=
  left :: (List.intercalate [crossing] (widths.map fun w => List.replicate (w + 2) '─') ++ [right, '\n'])

/-- A line of cells between vertical bars. -/
def line (cells : List (List Char)) : List Char :=
  cells.flatMap (fun cell => '│' :: ' ' :: cell ++ [' ']) ++ ['│', '\n']

/-- A truth value in the middle of its column. -/
def cell (colour : Bool) (width : Nat) (value : Bool) : List Char :=
  centre width ((if value then .green else .red : Style).shown colour) [Formula.constChar value]

def headingLine (t : TruthTable) (colour : Bool) : List Char :=
  line (t.columns.map String.toList ++ [(Style.bold.shown colour).paint t.formula.chars])

def rowLine (t : TruthTable) (colour : Bool) (r : Row) : List Char :=
  line (List.zipWith (cell colour) t.widths (r.values ++ [r.result]))

def renderChars (t : TruthTable) (colour : Bool) : List Char :=
  border '┌' '┬' '┐' t.widths ++ t.headingLine colour ++ border '├' '┼' '┤' t.widths ++
    t.rows.flatMap (t.rowLine colour) ++ border '└' '┴' '┘' t.widths

def render (t : TruthTable) (colour : Bool) : String := String.ofList (t.renderChars colour)

end Sentential.TruthTable
