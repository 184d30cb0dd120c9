import Sentential.Token.Lexeme

/-!
# Sources

A source is text that has not been scanned yet, together with the number of characters that stood before
it. Scanning takes one token at a time; each leaves a shorter source (`length_lt_of_next?`).
-/

namespace Sentential

structure Source where
  offset : Nat
  rest : List Char

namespace Source

def ofString (text : String) : Source := ⟨0, text.toList⟩

/-- What may stand between tokens. Other blanks are illegal there. -/
def isSeparator (c : Char) : Bool := c == ' ' || c == '\t' || c == '\n' || c == '\r'

/-- The next token and the source behind it. -/
def next? (s : Source) : Option (Token × Source) :=
  match s.rest.dropWhile isSeparator with
  | [] => none
  | c :: rest =>
    let start := s.offset + (s.rest.takeWhile isSeparator).length
    let lexeme := Lexeme.first c rest
    some (⟨lexeme.kind, String.ofList lexeme.chars, start⟩,
      ⟨start + lexeme.chars.length, (c :: rest).drop lexeme.chars.length⟩)

theorem length_lt_of_next? {s s' : Source} {t : Token} (h : s.next? = some (t, s')) :
    s'.rest.length < s.rest.length := by
  have hle : (s.rest.dropWhile isSeparator).length ≤ s.rest.length := (List.dropWhile_suffix _).length_le
  unfold next? at h
  split at h
  · simp at h
  · next c rest hd =>
    simp only [Option.some.injEq, Prod.mk.injEq] at h
    rw [hd] at hle
    have := List.length_pos_iff.2 (Lexeme.first_chars_ne_nil c rest)
    rw [← h.2]
    simp only [List.length_drop, List.length_cons] at hle ⊢
    omega

/-- The tokens of a source, the illegal token that ended the scan, if any, and the source left over. -/
structure Scan where
  tokens : List Token
  halt? : Option Token
  source : Source

/-- Scans to the end. If `strict`, an illegal token ends the scan; it is taken from the source but not
kept. -/
def scan (strict : Bool) (s : Source) : Scan :=
  match _h : s.next? with
  | none => ⟨[], none, s⟩
  | some (t, s') =>
    if strict && t.kind == .illegal then ⟨[], some t, s'⟩
    else
      let later := scan strict s'
      { later with tokens := t :: later.tokens }
termination_by s.rest.length
decreasing_by exact length_lt_of_next? _h

/-- All tokens, illegal ones among them. -/
def tokens (s : Source) : List Token := (s.scan false).tokens

theorem scan_of_next?_eq_none {strict : Bool} {s : Source} (h : s.next? = none) :
    s.scan strict = ⟨[], none, s⟩ := by
  rw [scan]
  split
  · rfl
  · next t s' h' => rw [h] at h'; simp at h'

theorem scan_of_next?_eq_some {strict : Bool} {s s' : Source} {t : Token} (h : s.next? = some (t, s')) :
    s.scan strict = if strict && t.kind == .illegal then ⟨[], some t, s'⟩
      else { s'.scan strict with tokens := t :: (s'.scan strict).tokens } := by
  rw [scan]
  split
  · next h' => rw [h] at h'; simp at h'
  · next t' s'' h' =>
    rw [h] at h'
    cases h'
    rfl

theorem scan_false_halt? (s : Source) : (s.scan false).halt? = none := by
  fun_induction scan false s with
  | case1 s h => rfl
  | case2 s t s' h hill => simp at hill
  | case3 s t s' h hill later ih => exact ih

end Source

end Sentential
