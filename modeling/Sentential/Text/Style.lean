/-!
# Styled text

Terminal colours, and text centred in a field. A style adds no width: the padding is measured by the text
alone and stays outside the style.
-/

namespace Sentential.Text

inductive Style where
  | plain
  | bold
  | green
  | red
  deriving DecidableEq, Repr

namespace Style

/-- The control sequence that turns on the graphic mode of the given number. -/
def sequence (mode : List Char) : List Char := '\x1b' :: '[' :: (mode ++ ['m'])

def paint : Style → List Char → List Char
  | .plain, text => text
  | .bold, text => sequence ['1'] ++ text ++ sequence ['0']
  | .green, text => sequence ['3', '2'] ++ text ++ sequence ['0']
  | .red, text => sequence ['3', '1'] ++ text ++ sequence ['0']

/-- The style itself where colours are shown, and none elsewhere. -/
def shown (colour : Bool) (style : Style) : Style := if colour then style else .plain

end Style

/-- The text in the middle of `width` columns. An odd space goes to the right. -/
def centre (width : Nat) (style : Style) (text : List Char) : List Char :=
  let spare := width - text.length
  List.replicate (spare / 2) ' ' ++ style.paint text ++ List.replicate (spare - spare / 2) ' '

theorem length_centre_plain {width : Nat} {text : List Char} (h : text.length ≤ width) :
    (centre width .plain text).length = width := by
  simp [centre, Style.paint]; omega

end Sentential.Text
