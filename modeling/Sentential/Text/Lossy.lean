/-!
# Bytes shown as text

Names of files are bytes and need be no text. To show them, the characters that the bytes encode are kept, and for the
rest one replacement character stands for each longest run of bytes that could have begun a character.
-/

namespace Sentential.Text

/-- A character of several bytes of which some are still to come; the next one lies between two bounds. -/
structure Begun where
  /-- What the bytes so far make of its code. -/
  code : Nat
  owed : Nat
  low : Nat := 0x80
  high : Nat := 0xbf
  deriving DecidableEq

/-- What a byte comes to: a whole character, or one that has begun. -/
abbrev Piece := Char ⊕ Begun

/-- What begins with a byte. -/
def begin? (b : Nat) : Option Piece :=
  if b < 0x80 then some (.inl (.ofNat b))
  else if b < 0xc2 then none
  else if b < 0xe0 then some (.inr { code := b - 0xc0, owed := 1 })
  else if b < 0xf0 then
    some (.inr { code := b - 0xe0, owed := 2, low := if b = 0xe0 then 0xa0 else 0x80,
                 high := if b = 0xed then 0x9f else 0xbf })
  else if b < 0xf5 then
    some (.inr { code := b - 0xf0, owed := 3, low := if b = 0xf0 then 0x90 else 0x80,
                 high := if b = 0xf4 then 0x8f else 0xbf })
  else none

def Begun.next? (x : Begun) (b : Nat) : Option Piece :=
  if x.low ≤ b ∧ b ≤ x.high then
    let code := 64 * x.code + (b - 0x80)
    some (if x.owed = 1 then .inl (.ofNat code) else .inr { code, owed := x.owed - 1 })
  else none

def replacement : Char := '\uFFFD'

/-- Shows bytes behind a character that has begun, if there is one. -/
def lossyFrom (begun? : Option Begun) : List UInt8 → List Char
  | [] => begun?.toList.map fun _ => replacement
  | b :: bytes =>
    -- a byte that does not go on with the character begins anew
    let (broken, piece?) :=
      match begun? with
      | none => ([], begin? b.toNat)
      | some x =>
        match x.next? b.toNat with
        | some piece => ([], some piece)
        | none => ([replacement], begin? b.toNat)
    broken ++
      match piece? with
      | none => replacement :: lossyFrom none bytes
      | some (.inl c) => c :: lossyFrom none bytes
      | some (.inr x) => lossyFrom (some x) bytes

def lossy (bytes : List UInt8) : String := String.ofList (lossyFrom none bytes)

example : lossyFrom none [0x61, 0xe2, 0x82, 0xac, 0xff, 0xe2, 0x82, 0x62, 0xed, 0xa0, 0xc3] =
    ['a', '€', replacement, replacement, 'b', replacement, replacement, replacement] := by decide

end Sentential.Text
