import Sentential.Text.Blank

/-!
# Lines

Bytes are cut into lines at line feeds; the end of the input ends a line too, unless nothing stands before
it. A line is decoded by itself, so bytes that are no text matter only when their line is reached.
-/

namespace Sentential.Text

/-- Cuts `bytes` into lines, where the bytes of `line`, last one first, have been read of the first one. -/
def cut (line : List UInt8) : List UInt8 → List (List UInt8)
  | [] => if line.isEmpty then [] else [line.reverse]
  | b :: bytes => if b = 10 then line.reverse :: cut [] bytes else cut (b :: line) bytes

def lines (bytes : List UInt8) : List (List UInt8) := cut [] bytes

def decode? (line : List UInt8) : Option String := String.fromUTF8? line.toByteArray

/-- The text without line feeds at its end. -/
def stripNewlines (text : String) : String := String.ofList (dropRight (· == '\n') text.toList)

theorem cut_append_newline (line : List UInt8) {l : List UInt8} (h : 10 ∉ l) (bytes : List UInt8) :
    cut line (l ++ 10 :: bytes) = (line.reverse ++ l) :: cut [] bytes := by
  induction l generalizing line with
  | nil => simp [cut]
  | cons b l ih =>
    have hb : b ≠ 10 := fun hb => h (hb ▸ List.mem_cons_self)
    rw [List.cons_append, cut, if_neg hb, ih _ fun hl => h (List.mem_cons_of_mem _ hl)]
    simp

@[simp] theorem lines_nil : lines [] = [] := rfl

/-- Every line but the last one ends at a line feed. -/
theorem lines_append_newline {l : List UInt8} (h : 10 ∉ l) (bytes : List UInt8) :
    lines (l ++ 10 :: bytes) = l :: lines bytes :=
  cut_append_newline [] h bytes

end Sentential.Text
