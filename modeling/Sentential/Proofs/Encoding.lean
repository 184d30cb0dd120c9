import Mathlib.Data.List.DropRight
import Sentential.Text.Lines

/-!
# What lines of bytes say

A line that is text is the UTF-8 encoding of that text (`decode?_eq_some_iff`), and a byte below 128 in it is
a character of its own. So cutting bytes at line feeds is cutting text at line feeds. What a line says is
its text without the blanks at its two ends (`said?`): blanks around it make no difference to that, nor does
the carriage return before a line feed (`said_crlf`).
-/

namespace Sentential.Text

section trim
variable {cs front back : List Char}

theorem dropRight_eq_rdropWhile (p : Char → Bool) (text : List Char) : dropRight p text = text.rdropWhile p := rfl

theorem dropRight_append_of_forall {p : Char → Bool} (h : ∀ c ∈ back, p c = true) :
    dropRight p (cs ++ back) = dropRight p cs := by
  have hback : ∀ c ∈ back.reverse, p c = true := fun c hc => h c (List.mem_reverse.1 hc)
  rw [dropRight, List.reverse_append, List.dropWhile_append_of_pos hback]
  rfl

/-- A text is what is left of it without line feeds at its end, and those line feeds. -/
theorem exists_eq_stripNewlines_append (text : String) :
    ∃ k, text = stripNewlines text ++ String.ofList (List.replicate k '\n') ∧
      ∀ c ∈ (stripNewlines text).toList.getLast?, c ≠ '\n' := by
  have hfeeds : text.toList.rtakeWhile (· == '\n') =
      List.replicate (text.toList.rtakeWhile (· == '\n')).length '\n' :=
    List.eq_replicate_iff.2 ⟨rfl, fun c hc => by simpa using List.mem_rtakeWhile_imp hc⟩
  refine ⟨(text.toList.rtakeWhile (· == '\n')).length, ?_, fun c hc he => ?_⟩
  · rw [← hfeeds, stripNewlines, dropRight_eq_rdropWhile, ← String.ofList_append,
      List.rdropWhile_append_rtakeWhile, String.ofList_toList]
  · rw [stripNewlines, String.toList_ofList, dropRight_eq_rdropWhile] at hc
    obtain ⟨hne, rfl⟩ := List.mem_getLast?_eq_getLast hc
    exact List.rdropWhile_last_not _ _ hne (beq_iff_eq.2 he)

theorem mem_of_mem_trim {c : Char} (h : c ∈ trim cs) : c ∈ cs :=
  (List.dropWhile_suffix _).subset ((List.rdropWhile_prefix _ _).subset h)

/-- Blanks at the ends make no difference. -/
theorem trim_append_append (hfront : ∀ c ∈ front, isBlank c = true) (hback : ∀ c ∈ back, isBlank c = true) :
    trim (front ++ cs ++ back) = trim cs := by
  rw [trim, List.append_assoc, List.dropWhile_append_of_pos hfront, List.dropWhile_append]
  split
  · next hempty =>
    rw [trim, List.isEmpty_iff.1 hempty, List.dropWhile_eq_nil_iff.2 hback]
  · exact dropRight_append_of_forall hback

theorem dropWhile_trim (cs : List Char) : (trim cs).dropWhile isBlank = trim cs := by
  obtain ⟨rest, hrest⟩ := List.rdropWhile_prefix isBlank (cs.dropWhile isBlank)
  have hidem := List.dropWhile_idempotent isBlank cs
  rw [← hrest, ← dropRight_eq_rdropWhile] at hidem
  show (dropRight isBlank (cs.dropWhile isBlank)).dropWhile isBlank = dropRight isBlank (cs.dropWhile isBlank)
  cases htrim : dropRight isBlank (cs.dropWhile isBlank) with
  | nil => rfl
  | cons c text =>
    rw [htrim, List.cons_append] at hidem
    by_cases hc : isBlank c = true
    · rw [List.dropWhile_cons_of_pos hc] at hidem
      have hlen := congrArg List.length hidem
      have hle := (List.dropWhile_suffix isBlank (l := text ++ rest)).length_le
      simp only [List.length_cons] at hlen
      omega
    · exact List.dropWhile_cons_of_neg hc

/-- There is nothing to trim between characters that are not blank. -/
theorem trim_eq_self (hfirst : ∀ c ∈ cs.head?, isBlank c = false) (hlast : ∀ c ∈ cs.getLast?, isBlank c = false) :
    trim cs = cs := by
  have hfront : cs.dropWhile isBlank = cs := by
    cases cs with
    | nil => rfl
    | cons c cs => exact List.dropWhile_cons_of_neg (by simp [hfirst c rfl])
  rw [trim, hfront, dropRight_eq_rdropWhile, List.rdropWhile_eq_self_iff]
  intro hne
  simp [hlast _ (List.getLast?_eq_some_getLast hne)]

theorem trim_trim (cs : List Char) : trim (trim cs) = trim cs := by
  rw [trim, dropWhile_trim]
  exact List.rdropWhile_idempotent isBlank _

end trim

/-- The text without the blanks at its ends. -/
def trimmed (text : String) : String := String.ofList (trim text.toList)

theorem trimmed_trimmed (text : String) : trimmed (trimmed text) = trimmed text := by
  rw [trimmed, trimmed, String.toList_ofList, trim_trim]

theorem trimmed_append_append {text front back : String} (hfront : ∀ c ∈ front.toList, isBlank c = true)
    (hback : ∀ c ∈ back.toList, isBlank c = true) : trimmed (front ++ text ++ back) = trimmed text := by
  rw [trimmed, String.toList_append, String.toList_append, trim_append_append hfront hback]
  rfl

/-- The bytes of a text. -/
def encode (text : String) : List UInt8 := text.toList.flatMap String.utf8EncodeChar

theorem encode_append (text text' : String) : encode (text ++ text') = encode text ++ encode text' := by
  rw [encode, String.toList_append, List.flatMap_append]
  rfl

theorem encode_eq_nil_iff {text : String} : encode text = [] ↔ text = "" := by
  rw [encode, List.flatMap_eq_nil_iff, ← String.toList_eq_nil_iff]
  constructor
  · intro h
    exact List.eq_nil_iff_forall_not_mem.2 fun c hc => String.utf8EncodeChar_ne_nil (h c hc)
  · intro h c hc
    rw [h] at hc
    cases hc

theorem toByteArray_encode (text : String) : (encode text).toByteArray = text.toByteArray :=
  String.utf8Encode_toList

theorem decode?_eq_some_iff {line : List UInt8} {text : String} :
    decode? line = some text ↔ line = encode text := by
  rw [← List.toByteArray_inj, toByteArray_encode, decode?, String.fromUTF8?]
  constructor
  · intro h
    split at h
    · cases h
      rfl
    · cases h
  · intro h
    have hvalid : line.toByteArray.IsValidUTF8 := h ▸ text.isValidUTF8
    rw [dif_pos hvalid]
    exact congrArg some (String.toByteArray_inj.1 h)

theorem le_toNat_of_mem_utf8EncodeChar {b : UInt8} {c : Char} (hc : 127 < c.val.toNat)
    (h : b ∈ String.utf8EncodeChar c) : 128 ≤ b.toNat := by
  unfold String.utf8EncodeChar at h
  dsimp only at h
  rw [if_neg (Nat.not_le.2 hc)] at h
  -- each byte is a remainder with the bits of a mark above it
  split at h
  · simp only [List.mem_cons, List.not_mem_nil, or_false] at h
    rcases h with rfl | rfl <;> rw [UInt8.toNat_ofNat'] <;> omega
  · split at h
    · simp only [List.mem_cons, List.not_mem_nil, or_false] at h
      rcases h with rfl | rfl | rfl <;> rw [UInt8.toNat_ofNat'] <;> omega
    · simp only [List.mem_cons, List.not_mem_nil, or_false] at h
      rcases h with rfl | rfl | rfl | rfl <;> rw [UInt8.toNat_ofNat'] <;> omega

/-- Only the bytes of ASCII characters are below 128. -/
theorem utf8EncodeChar_of_mem {b : UInt8} {c : Char} (hb : b < 128) (h : b ∈ String.utf8EncodeChar c) :
    String.utf8EncodeChar c = [b] ∧ c.toNat = b.toNat := by
  have hb' : b.toNat < 128 := UInt8.lt_iff_toNat_lt.1 hb
  have hc : c.val.toNat ≤ 127 :=
    Nat.not_lt.1 fun hc => Nat.not_lt.2 (le_toNat_of_mem_utf8EncodeChar hc h) hb'
  have hone : String.utf8EncodeChar c = [c.val.toNat.toUInt8] := if_pos hc
  rw [hone] at h ⊢
  obtain rfl := List.mem_singleton.1 h
  refine ⟨rfl, ?_⟩
  rw [UInt8.toNat_ofNat']
  exact (Nat.mod_eq_of_lt (Nat.lt_of_le_of_lt hc (by decide))).symm

theorem newline_mem_encode_iff {text : String} : 10 ∈ encode text ↔ '\n' ∈ text.toList := by
  rw [encode, List.mem_flatMap]
  constructor
  · rintro ⟨c, hc, hb⟩
    have hnat : c.toNat = '\n'.toNat := (utf8EncodeChar_of_mem (by decide) hb).2
    rwa [← Char.toNat_inj.1 hnat]
  · intro h
    exact ⟨'\n', h, by decide⟩

/-- An ASCII byte at the end of a text is its last character. -/
theorem exists_encode_of_append {line : List UInt8} {b : UInt8} {text : String} (hb : b < 128)
    (h : line ++ [b] = encode text) : ∃ text', line = encode text' := by
  rcases List.eq_nil_or_concat text.toList with hnil | ⟨cs, c, hcs⟩
  · rw [encode, hnil] at h
    exact absurd h (by simp)
  · have hmem : b ∈ String.utf8EncodeChar c := by
      have hsplit : encode text = cs.flatMap String.utf8EncodeChar ++ String.utf8EncodeChar c := by
        rw [encode, hcs]
        simp
      rcases List.eq_nil_or_concat (String.utf8EncodeChar c) with hnil | ⟨ds, d, hds⟩
      · exact absurd hnil String.utf8EncodeChar_ne_nil
      · rw [hsplit, hds, List.concat_eq_append, ← List.append_assoc] at h
        have hd := (List.append_inj' h rfl).2
        rw [hds, List.singleton_inj.1 hd]
        simp
    refine ⟨String.ofList cs, ?_⟩
    have hlast : encode text = encode (String.ofList cs) ++ [b] := by
      rw [encode, hcs, encode, String.toList_ofList, ← (utf8EncodeChar_of_mem hb hmem).1]
      simp
    rw [hlast] at h
    exact List.append_cancel_right h

/-- What a line says apart from the blanks at its ends, if it is text. -/
def said? (line : List UInt8) : Option String := (decode? line).map trimmed

section said
variable {line : List UInt8} {text : String}

theorem said?_eq_some_iff : said? line = some text ↔ ∃ whole, line = encode whole ∧ trimmed whole = text := by
  simp [said?, decode?_eq_some_iff]

theorem said?_encode (text : String) : said? (encode text) = some (trimmed text) :=
  said?_eq_some_iff.2 ⟨text, rfl, rfl⟩

theorem trimmed_of_said? (h : said? line = some text) : trimmed text = text := by
  obtain ⟨whole, -, rfl⟩ := said?_eq_some_iff.1 h
  exact trimmed_trimmed whole

theorem newline_not_mem_encode_of_said? (hline : 10 ∉ line) (h : said? line = some text) : 10 ∉ encode text := by
  obtain ⟨whole, rfl, rfl⟩ := said?_eq_some_iff.1 h
  rw [newline_mem_encode_iff] at hline ⊢
  rw [trimmed, String.toList_ofList]
  exact fun hmem => hline (mem_of_mem_trim hmem)

theorem said?_encode_append_append {front back : String} (hfront : ∀ c ∈ front.toList, isBlank c = true)
    (hback : ∀ c ∈ back.toList, isBlank c = true) (h : said? line = some text) :
    said? (encode front ++ line ++ encode back) = some text := by
  obtain ⟨whole, rfl, rfl⟩ := said?_eq_some_iff.1 h
  rw [← encode_append, ← encode_append, said?_encode, trimmed_append_append hfront hback]

/-- A carriage return is a character of its own, so it does not make text of what is none. -/
theorem said?_append_return (line : List UInt8) : said? (line ++ [13]) = said? line := by
  have hreturn : encode "\r" = [13] := by decide
  cases h : said? line with
  | some text =>
    have hpad : said? (encode "" ++ line ++ encode "\r") = some text :=
      said?_encode_append_append nofun (List.all_eq_true.1 (by decide)) h
    rwa [hreturn] at hpad
  | none =>
    cases h' : said? (line ++ [13]) with
    | none => rfl
    | some text =>
      obtain ⟨whole, hwhole, -⟩ := said?_eq_some_iff.1 h'
      obtain ⟨text', rfl⟩ := exists_encode_of_append (by decide) hwhole
      rw [said?_encode] at h
      cases h

end said

/-- The same bytes with a carriage return before every line feed. -/
def crlf (bytes : List UInt8) : List UInt8 := bytes.flatMap fun b => if b = 10 then [13, 10] else [b]

section lines
variable {line : List UInt8}

theorem map_said?_cut_crlf (line bytes : List UInt8) :
    (cut line (crlf bytes)).map said? = (cut line bytes).map said? := by
  induction bytes generalizing line with
  | nil => rfl
  | cons b bytes ih =>
    by_cases hb : b = 10
    · subst hb
      show (cut line (13 :: 10 :: crlf bytes)).map said? = (cut line (10 :: bytes)).map said?
      have hne : (13 : UInt8) ≠ 10 := by decide
      rw [cut, if_neg hne, cut, if_pos rfl, cut, if_pos rfl, List.map_cons, List.map_cons, List.reverse_cons,
        said?_append_return, ih]
    · have hcrlf : crlf (b :: bytes) = b :: crlf bytes := by simp [crlf, hb]
      rw [hcrlf, cut, if_neg hb, cut, if_neg hb]
      exact ih _

theorem cut_of_newline_not_mem (line : List UInt8) {l : List UInt8} (h : 10 ∉ l) (hne : line.reverse ++ l ≠ []) :
    cut line l = [line.reverse ++ l] := by
  induction l generalizing line with
  | nil =>
    rw [List.append_nil] at hne ⊢
    rw [cut, if_neg (by simpa using hne)]
  | cons b l ih =>
    have hb : b ≠ 10 := fun hb => h (hb ▸ List.mem_cons_self)
    rw [cut, if_neg hb, ih _ (fun hl => h (List.mem_cons_of_mem _ hl)) (by simp)]
    simp

/-- Bytes without a line feed are one line. -/
theorem lines_of_newline_not_mem {l : List UInt8} (h : 10 ∉ l) (hne : l ≠ []) : lines l = [l] :=
  cut_of_newline_not_mem [] h hne

theorem newline_not_mem_of_mem_cut {bytes : List UInt8} (hline : 10 ∉ line) : ∀ l ∈ cut line bytes, 10 ∉ l := by
  induction bytes generalizing line with
  | nil =>
    intro l hl
    rw [cut] at hl
    split at hl
    · cases hl
    · rw [List.mem_singleton.1 hl, List.mem_reverse]
      exact hline
  | cons b bytes ih =>
    by_cases hb : b = 10
    · rw [cut, if_pos hb]
      refine List.forall_mem_cons.2 ⟨fun hmem => hline (List.mem_reverse.1 hmem), ih List.not_mem_nil⟩
    · rw [cut, if_neg hb]
      refine ih fun hmem => ?_
      rcases List.mem_cons.1 hmem with he | hmem
      · exact hb he.symm
      · exact hline hmem

theorem newline_not_mem_of_mem_lines {bytes l : List UInt8} (h : l ∈ lines bytes) : 10 ∉ l :=
  newline_not_mem_of_mem_cut List.not_mem_nil l h

theorem cut_append (line a b : List UInt8) : cut line (a ++ 10 :: b) = cut line (a ++ [10]) ++ lines b := by
  induction a generalizing line with
  | nil => rfl
  | cons c a ih =>
    simp only [List.cons_append, cut, ih]
    split <;> rfl

end lines

/-- What the lines of an input say. -/
def said (bytes : List UInt8) : List (Option String) := (lines bytes).map said?

theorem said_crlf (bytes : List UInt8) : said (crlf bytes) = said bytes := map_said?_cut_crlf [] bytes

/-- Where a line feed ends a line, what comes behind it begins another. -/
theorem said_append (a b : List UInt8) : said (a ++ 10 :: b) = said (a ++ [10]) ++ said b := by
  rw [said, lines, cut_append, List.map_append]
  rfl

/-- What a line says is what it says alone, without the blanks around it. -/
theorem said_encode {bytes : List UInt8} {text : String} (h : some text ∈ said bytes) (hne : text ≠ "") :
    said (encode text) = [some text] := by
  obtain ⟨line, hline, hsaid⟩ := List.mem_map.1 h
  have hnewline : 10 ∉ encode text :=
    newline_not_mem_encode_of_said? (newline_not_mem_of_mem_lines hline) hsaid
  have hbytes : encode text ≠ [] := fun hnil => hne (encode_eq_nil_iff.1 hnil)
  rw [said, lines_of_newline_not_mem hnewline hbytes, List.map_singleton, said?_encode, trimmed_of_said? hsaid]

end Sentential.Text
