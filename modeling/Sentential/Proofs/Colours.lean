import Mathlib.Data.List.Forall2
import Sentential.Proofs.Columns
import Sentential.Proofs.Failures
import Sentential.Proofs.Grid
import Sentential.Proofs.Reentry
import Sentential.Proofs.Tiling

/-!
# Colours are presentation only

A coloured drawing `Shows` the plain one: without its control sequences (`bare`) it is that text, whatever is
written behind it. So a text that shows another can be joined to one that shows a third, and a drawing is
dealt with piece by piece, down to a styled text between its blanks (`shows_centre`).

The other texts that a session displays are the same with and without colours, and hold no control sequence
either: a formula that has been read is made of words and glyphs, and a message of phrases, of numbers, and of
what stands in the line (`Place.cases_of_complaint?`) or is quoted from it (`escape_not_mem_encode`).
-/

namespace Sentential

namespace Text
variable {styled plain styled' plain' : List Char}

/-- The text without the control sequences for green, red and bold text, and for text that is none of these. -/
def bare : List Char → List Char
  | '\x1b' :: '[' :: '3' :: '2' :: 'm' :: rest => bare rest
  | '\x1b' :: '[' :: '3' :: '1' :: 'm' :: rest => bare rest
  | '\x1b' :: '[' :: '1' :: 'm' :: rest => bare rest
  | '\x1b' :: '[' :: '0' :: 'm' :: rest => bare rest
  | c :: rest => c :: bare rest
  | [] => []

theorem bare_cons_of_ne {c : Char} (h : c ≠ '\x1b') (rest : List Char) : bare (c :: rest) = c :: bare rest := by
  simp [bare, h]

/-- The control sequences of `styled` leave `plain`, and do not run into what is written behind it. -/
structure Shows (styled plain : List Char) : Prop where
  bare_append : ∀ rest, bare (styled ++ rest) = plain ++ bare rest
  escapeless : '\x1b' ∉ plain

theorem Shows.bare_eq (h : Shows styled plain) : bare styled = plain := by
  have hnil := h.bare_append []
  rwa [List.append_nil, bare, List.append_nil] at hnil

theorem Shows.append (h : Shows styled plain) (h' : Shows styled' plain') :
    Shows (styled ++ styled') (plain ++ plain') where
  bare_append rest := by
    rw [List.append_assoc, h.bare_append, h'.bare_append, List.append_assoc]
  escapeless hmem := (List.mem_append.1 hmem).elim h.escapeless h'.escapeless

theorem shows_self (h : '\x1b' ∉ plain) : Shows plain plain where
  bare_append rest := by
    induction plain with
    | nil => rfl
    | cons c plain ih =>
      rw [List.mem_cons, not_or] at h
      rw [List.cons_append, bare_cons_of_ne (Ne.symm h.1), ih h.2, List.cons_append]
  escapeless := h

theorem shows_flatMap {α : Type} {f g : α → List Char} {xs : List α} (h : ∀ x ∈ xs, Shows (f x) (g x)) :
    Shows (xs.flatMap f) (xs.flatMap g) := by
  induction xs with
  | nil => exact shows_self List.not_mem_nil
  | cons x xs ih =>
    rw [List.forall_mem_cons] at h
    rw [List.flatMap_cons, List.flatMap_cons]
    exact h.1.append (ih h.2)

/-- A style turns a mode on before the text and off behind it, and shows the text. -/
theorem Style.shows_paint (style : Style) {text : List Char} (h : '\x1b' ∉ text) : Shows (style.paint text) text := by
  have htext := shows_self h
  have hreset : Shows (sequence ['0']) [] := ⟨fun rest => by simp [sequence, bare], List.not_mem_nil⟩
  have hpainted : ∀ mode, Shows (sequence mode) [] → Shows (sequence mode ++ text ++ sequence ['0']) text :=
    fun mode hmode => by simpa using (hmode.append htext).append hreset
  cases style with
  | plain => exact htext
  | bold => exact hpainted _ ⟨fun rest => by simp [sequence, bare], List.not_mem_nil⟩
  | green => exact hpainted _ ⟨fun rest => by simp [sequence, bare], List.not_mem_nil⟩
  | red => exact hpainted _ ⟨fun rest => by simp [sequence, bare], List.not_mem_nil⟩

theorem shows_blanks (n : Nat) : Shows (List.replicate n ' ') (List.replicate n ' ') :=
  shows_self fun hmem => absurd (List.eq_of_mem_replicate hmem) (by decide)

theorem shows_centre (width : Nat) (style : Style) {text : List Char} (h : '\x1b' ∉ text) :
    Shows (centre width style text) (centre width .plain text) :=
  ((shows_blanks _).append (style.shows_paint h)).append (shows_blanks _)

end Text

namespace TruthTable
open Text (Shows shows_self shows_flatMap shows_centre)

variable {t : TruthTable}

theorem shows_line {cells cells' : List (List Char)} (h : List.Forall₂ Shows cells cells') :
    Shows (line cells) (line cells') := by
  have hbar : Shows ['│', ' '] ['│', ' '] := shows_self (by decide)
  have hblank : Shows [' '] [' '] := shows_self (by decide)
  induction h with
  | nil => exact shows_self (by decide)
  | cons hcell hcells ih =>
    have hall := ((hbar.append hcell).append hblank).append ih
    simpa [line] using hall

theorem mem_intercalate_dashes {crossing c : Char} {widths : List Nat}
    (h : c ∈ List.intercalate [crossing] (widths.map fun w => List.replicate (w + 2) '─')) :
    c = crossing ∨ c = '─' := by
  cases widths with
  | nil => cases h
  | cons width widths =>
    rw [List.map_cons, intercalate_cons_eq_flatMap, List.flatMap_map, List.mem_append, List.mem_flatMap] at h
    rcases h with hdash | ⟨w, -, hpiece⟩
    · exact .inr (List.eq_of_mem_replicate hdash)
    · exact (List.mem_cons.1 hpiece).imp_right List.eq_of_mem_replicate

theorem shows_border {left crossing right : Char} (h : '\x1b' ∉ [left, crossing, right, '─'])
    (widths : List Nat) : Shows (border left crossing right widths) (border left crossing right widths) := by
  simp only [List.mem_cons, not_or] at h
  obtain ⟨hleft, hcrossing, hright, hdash, -⟩ := h
  refine shows_self fun hmem => ?_
  rw [border, List.mem_cons, List.mem_append] at hmem
  rcases hmem with he | hmem | hmem
  · exact hleft he
  · exact (mem_intercalate_dashes hmem).elim hcrossing hdash
  · simp [hright] at hmem

theorem shows_cell (colour : Bool) (width : Nat) (value : Bool) :
    Shows (cell colour width value) (cell false width value) := by
  cases value
  · exact shows_centre width _ (by decide)
  · exact shows_centre width _ (by decide)

/-- The coloured drawing shows the plain one. -/
theorem shows_renderChars (hcolumns : ∀ name ∈ t.columns, '\x1b' ∉ name.toList) (hformula : '\x1b' ∉ t.formula.chars)
    (colour : Bool) : Shows (t.renderChars colour) (t.renderChars false) := by
  have hheadings : Shows (t.headingLine colour) (t.headingLine false) := by
    refine shows_line (List.rel_append (List.forall₂_same.2 ?_) (.cons (Text.Style.shows_paint _ hformula) .nil))
    exact List.forall_mem_map.2 fun name hname => shows_self (hcolumns name hname)
  have hrow : ∀ r ∈ t.rows, Shows (t.rowLine colour r) (t.rowLine false r) := fun r _ => by
    rw [rowLine, rowLine, ← List.map_uncurry_zip_eq_zipWith, ← List.map_uncurry_zip_eq_zipWith]
    refine shows_line (List.forall₂_map_left_iff.2 (List.forall₂_map_right_iff.2 (List.forall₂_same.2 ?_)))
    exact fun p _ => shows_cell colour p.1 p.2
  exact ((((shows_border (by decide) _).append hheadings).append (shows_border (by decide) _)).append
    (shows_flatMap hrow)).append (shows_border (by decide) _)

/-- The text of the formula is bold where colours are shown. -/
theorem escape_mem_renderChars (t : TruthTable) : '\x1b' ∈ t.renderChars true := by
  have hbold : '\x1b' ∈ (Text.Style.bold.shown true).paint t.formula.chars := List.mem_cons_self
  have hheadings : '\x1b' ∈ t.headingLine true := by
    rw [headingLine, line, List.flatMap_append, List.flatMap_singleton]
    simp [hbold]
  simp [renderChars, hheadings]

end TruthTable

namespace Formula

theorem escape_not_mem_chars {f : Formula} (hnames : ∀ name ∈ f.names, '\x1b' ∉ name.toList)
    (hglyphs : ∀ glyph ∈ f.glyphs, '\x1b' ∉ glyph.toList) : '\x1b' ∉ f.chars := by
  have hchars : ∀ c ∈ f.chars, c ≠ '\x1b' := by
    have hown : ∀ c ∈ ['(', ')', '!', ' ', '0', '1'], c ≠ '\x1b' := forall_mem_of_all (by decide)
    refine forall_mem_chars hown (fun name hname c hc he => ?_) fun glyph hglyph c hc he => ?_
    · exact hnames name hname (he ▸ hc)
    · exact hglyphs glyph hglyph (he ▸ hc)
  exact fun hmem => hchars _ hmem rfl

theorem Spelt.escape_not_mem_names {f : Formula} (h : f.Spelt) : ∀ name ∈ f.names, '\x1b' ∉ name.toList := by
  intro name hname hmem
  have hpart := (h.words name hname).isNamePart _ hmem
  revert hpart
  decide +kernel

theorem Spelt.escape_not_mem_glyphs {f : Formula} (h : f.Spelt) : ∀ glyph ∈ f.glyphs, '\x1b' ∉ glyph.toList :=
  fun glyph hglyph hmem => absurd (h.mem_glyphs glyph hglyph _ hmem) (by decide)

end Formula

namespace Place

/-- What stands before the token that is not wanted. -/
def openingPhrases : List String :=
  ["unexpected token ", "no prefix parse function for ", "no infix parse function for ", "expected ')', found "]

/-- What is said about no token. -/
def wholePhrases : List String := ["unexpected token )", "unexpected EOF", "expected ')', found EOF"]

theorem cases_of_next {p : Place} {t : Token} {message : String} (h : p.next t = .error message) :
    message ∈ wholePhrases ∨ ∃ phrase ∈ openingPhrases, message = phrase ++ t.literal := by
  cases p with
  | start =>
    rw [next] at h
    split at h
    · cases h
    · cases h
      exact .inr ⟨_, by decide, rfl⟩
  | operand depth =>
    rw [next] at h
    split at h
    case h_5 =>
      cases h
      exact .inr ⟨_, by decide, rfl⟩
    all_goals cases h
  | complete depth =>
    cases depth with
    | zero =>
      rw [next] at h
      split at h
      · cases h
      · cases h
        exact .inl (by decide)
      · cases h
        exact .inr ⟨_, by decide, rfl⟩
    | succ depth =>
      rw [next] at h
      split at h
      · cases h
      · cases h
      · cases h
        exact .inr ⟨_, by decide, rfl⟩

/-- What is said about tokens is a phrase, or a phrase and one of the tokens as it is written. -/
theorem cases_of_complaint? {p : Place} {ts : List Token} {message : String} (h : p.complaint? ts = some message) :
    message ∈ wholePhrases ∨ ∃ phrase ∈ openingPhrases, ∃ t ∈ ts, message = phrase ++ t.literal := by
  induction ts generalizing p with
  | nil =>
    rw [complaint?] at h
    unfold atEnd at h
    split at h <;> cases h <;> exact .inl (by decide)
  | cons t ts ih =>
    rw [complaint?] at h
    split at h
    · rcases ih h with hwhole | ⟨phrase, hphrase, u, hu, rfl⟩
      · exact .inl hwhole
      · exact .inr ⟨phrase, hphrase, u, List.mem_cons_of_mem _ hu, rfl⟩
    · next hnext =>
      cases h
      rcases cases_of_next hnext with hwhole | ⟨phrase, hphrase, rfl⟩
      · exact .inl hwhole
      · exact .inr ⟨phrase, hphrase, t, List.mem_cons_self, rfl⟩

end Place

namespace Text.Quoted

theorem escape_not_mem_toDigits {base : Nat} (hbase : 1 < base) (hdigits : base ≤ 16) (n : Nat) :
    '\x1b' ∉ base.toDigits n := by
  have hdigit : ∀ d < 16, '\x1b' ≠ Nat.digitChar d := by decide
  induction n using Nat.strongRecOn with
  | _ n ih =>
    rw [Nat.toDigits_eq_if hbase]
    split
    · next hlt => exact fun hmem => hdigit n (by omega) (List.mem_singleton.1 hmem)
    · next hle =>
      have hsmaller : n / base < n := Nat.div_lt_self (by omega) hbase
      have hmod : n % base < base := Nat.mod_lt n (by omega)
      rw [List.mem_append, List.mem_singleton]
      rintro (hmem | he)
      · exact ih _ hsmaller hmem
      · exact hdigit _ (by omega) he

theorem escape_not_mem_toString (n : Nat) : '\x1b' ∉ (toString n).toList := by
  rw [Nat.toString_eq_repr, Nat.toList_repr]
  exact escape_not_mem_toDigits (by decide) (by decide) n

theorem escape_not_mem_escape (c : Char) : '\x1b' ∉ escape c := by
  have hhidden : isVisible '\x1b' = false := by decide +kernel
  unfold escape
  split
  case h_7 =>
    split
    · next hvisible =>
      rw [List.mem_singleton]
      rintro rfl
      rw [hhidden] at hvisible
      cases hvisible
    · rw [codePoint, List.mem_append, List.mem_append]
      rintro ((hopen | hdigit) | hclose)
      · exact absurd hopen (by decide)
      · exact escape_not_mem_toDigits (by decide) (by decide) _ hdigit
      · exact absurd hclose (by decide)
  all_goals decide

/-- No control character stands for itself between quotes. -/
theorem escape_not_mem_encode (text : String) : '\x1b' ∉ (encode text).toList := by
  rw [encode, String.toList_ofList, List.mem_append, List.mem_cons, List.mem_flatMap]
  rintro ((he | ⟨c, -, hc⟩) | hmem)
  · exact absurd he (by decide)
  · exact escape_not_mem_escape c hc
  · exact absurd hmem (by decide)

end Text.Quoted

/-- A token is written with characters of the line. -/
theorem mem_of_mem_literal {text : String} {t : Token} (ht : t ∈ tokenize text) :
    ∀ c ∈ t.literal.toList, c ∈ text.toList := by
  have htiles : Source.Tiles text.toList 0 (tokenize text) := (Source.fallsInto_tokens (.ofString text)).tiles rfl
  obtain ⟨-, -, -, hpiece⟩ := htiles.piece t ht
  intro c hc
  rw [← hpiece, List.extract_eq_take_drop] at hc
  exact List.mem_of_mem_drop (List.mem_of_mem_take hc)

theorem escape_not_mem_lexError (e : LexError) : '\x1b' ∉ (Error.lex e).message.toList := by
  have hmessage : (Error.lex e).message =
      "illegal character " ++ Text.Quoted.encode e.literal ++ " at position " ++ toString e.position := rfl
  have hopening : '\x1b' ∉ "illegal character ".toList := by decide
  have hplace : '\x1b' ∉ " at position ".toList := by decide
  rw [hmessage]
  simp only [String.toList_append, List.mem_append, not_or]
  exact ⟨⟨⟨hopening, Text.Quoted.escape_not_mem_encode _⟩, hplace⟩, Text.Quoted.escape_not_mem_toString _⟩

theorem escape_not_mem_tooManyVariables (count limit : Nat) :
    '\x1b' ∉ (Error.tooManyVariables count limit).message.toList := by
  have hmessage : (Error.tooManyVariables count limit).message =
      "truth table over " ++ toString count ++ " variables exceeds the limit of " ++ toString limit := rfl
  have hopening : '\x1b' ∉ "truth table over ".toList := by decide
  have hlimit : '\x1b' ∉ " variables exceeds the limit of ".toList := by decide
  rw [hmessage]
  simp only [String.toList_append, List.mem_append, not_or]
  exact ⟨⟨⟨hopening, Text.Quoted.escape_not_mem_toString _⟩, hlimit⟩, Text.Quoted.escape_not_mem_toString _⟩

section line
variable {text : String} (htext : '\x1b' ∉ text.toList)
include htext

namespace Statement

theorem escape_not_mem_fault {fault : Fault} (h : Place.start.complaint? (tokenize text) = some fault.message) :
    '\x1b' ∉ fault.message.toList := by
  rcases Place.cases_of_complaint? h with hwhole | ⟨phrase, hphrase, t, ht, he⟩
  · have hphrases : ∀ phrase ∈ Place.wholePhrases, '\x1b' ∉ phrase.toList := by decide
    exact hphrases _ hwhole
  · have hphrases : ∀ phrase ∈ Place.openingPhrases, '\x1b' ∉ phrase.toList := by decide
    rw [he, String.toList_append, List.mem_append]
    rintro (hmem | hmem)
    · exact hphrases _ hphrase hmem
    · exact htext (mem_of_mem_literal ht _ hmem)

theorem escape_not_mem_lenient {e : Error} (h : read false text = .error e) : '\x1b' ∉ e.message.toList := by
  rcases read_complaint? text with ⟨st, hread, -⟩ | ⟨fault, hread, hsaid⟩
  · rw [hread] at h
    cases h
  · rw [hread] at h
    cases h
    have hmessage : (Error.parse ⟨[fault]⟩).message =
        "parsing failed, encountered the following errors:\n" ++ fault.message := rfl
    rw [hmessage, String.toList_append, List.mem_append]
    rintro (hmem | hmem)
    · exact absurd hmem (by decide)
    · exact escape_not_mem_fault htext hsaid hmem

theorem escape_not_mem_message {strict : Bool} {e : Error} (h : read strict text = .error e) :
    '\x1b' ∉ e.message.toList := by
  cases strict with
  | false => exact escape_not_mem_lenient htext h
  | true =>
    cases hfirst : firstIllegal? (tokenize text) with
    | none =>
      rw [read_true_of_legal hfirst] at h
      exact escape_not_mem_lenient htext h
    | some t =>
      rw [read_true_of_illegal hfirst] at h
      cases h
      exact escape_not_mem_lexError _

end Statement

end line

theorem Formula.Spelt.escape_not_mem_chars {f : Formula} (h : f.Spelt) : '\x1b' ∉ f.chars :=
  Formula.escape_not_mem_chars h.escape_not_mem_names h.escape_not_mem_glyphs

/-- The coloured drawing of a formula shows the plain one, whatever names and glyphs it has, as long as they hold no
control sequences of their own. -/
theorem TruthTable.shows_render {f : Formula} (hnames : ∀ name ∈ f.names, '\x1b' ∉ name.toList)
    (hglyphs : ∀ glyph ∈ f.glyphs, '\x1b' ∉ glyph.toList) (colour : Bool) :
    Text.Shows ((ofFormula f).render colour).toList ((ofFormula f).render false).toList := by
  rw [render, render, String.toList_ofList, String.toList_ofList]
  exact shows_renderChars (fun name hname => hnames name (Formula.mem_vars.1 hname))
    (Formula.escape_not_mem_chars hnames hglyphs) colour

namespace Session
variable {s : Session} {text : String}

/-- What a session displays for a line: what comes of it, or why nothing does. -/
def display (s : Session) (text : String) : String :=
  match s.execute text with
  | .ok outcome => s.render outcome
  | .error e => e.message

theorem escape_not_mem_of_execute_error (htext : '\x1b' ∉ text.toList) {e : Error} (h : s.execute text = .error e) :
    '\x1b' ∉ e.message.toList := by
  cases hread : Statement.read s.strict text with
  | error e' =>
    rw [execute_of_read_error hread] at h
    cases h
    exact Statement.escape_not_mem_message htext hread
  | ok st =>
    obtain ⟨c, f⟩ := st
    rw [execute_of_read hread] at h
    cases c with
    | table =>
      rcases Nat.lt_or_ge s.maxTableVariables f.vars.length with hlt | hle
      · rw [run_table_of_lt hlt] at h
        cases h
        exact escape_not_mem_tooManyVariables _ _
      · rw [run_table_of_le hle] at h
        cases h
    | simplify => cases h

theorem shows_display (htext : '\x1b' ∉ text.toList) (colour : Bool) :
    Text.Shows (({ s with colour } : Session).display text).toList
      (({ s with colour := false } : Session).display text).toList := by
  have hsame : ({ s with colour } : Session).execute text = ({ s with colour := false } : Session).execute text := rfl
  rw [display, display, hsame]
  cases h : ({ s with colour := false } : Session).execute text with
  | error e => exact Text.shows_self (escape_not_mem_of_execute_error htext h)
  | ok o =>
    obtain ⟨f, hf, rfl | rfl⟩ := exists_of_execute_ok h
    · exact TruthTable.shows_render hf.spelt.escape_not_mem_names hf.spelt.escape_not_mem_glyphs colour
    · have hsimplified : (f.simplify Rule.all).WellFormed := (Formula.replaces_simplify Rule.all hf).wellFormed
      have hliteral : '\x1b' ∉ (f.simplify Rule.all).literal.toList := by
        rw [Formula.toList_literal]
        exact hsimplified.spelt.escape_not_mem_chars
      exact Text.shows_self hliteral

/-- A coloured table holds control sequences, and without them it is the plain table, character by character. So what
a session displays for a line, be it a table, a formula or an error, is what it displays without colours, apart from
control sequences; and without colours there are none, unless the line brings them along. -/
theorem display_without_sequences :
    (∀ f : Formula, (∀ name ∈ f.names, '\x1b' ∉ name.toList) → (∀ glyph ∈ f.glyphs, '\x1b' ∉ glyph.toList) →
      let t := TruthTable.ofFormula f
      Text.bare (t.render true).toList = (t.render false).toList ∧ '\x1b' ∉ (t.render false).toList ∧
        '\x1b' ∈ (t.render true).toList) ∧
    ∀ (s : Session) (text : String), '\x1b' ∉ text.toList →
      let displayed := fun colour => (({ s with colour } : Session).display text).toList
      Text.bare (displayed true) = Text.bare (displayed false) ∧
        Text.bare (displayed true) = displayed false ∧ '\x1b' ∉ displayed false := by
  refine ⟨fun f hnames hglyphs => ?_, fun s text htext => ?_⟩
  · have hshows := TruthTable.shows_render hnames hglyphs true
    refine ⟨hshows.bare_eq, hshows.escapeless, ?_⟩
    rw [TruthTable.render, String.toList_ofList]
    exact TruthTable.escape_mem_renderChars _
  · have hcoloured := shows_display (s := s) htext true
    have hplain := shows_display (s := s) htext false
    exact ⟨hcoloured.bare_eq.trans hplain.bare_eq.symm, hcoloured.bare_eq, hcoloured.escapeless⟩

/-- A name and a glyph that look like control sequences from the second character on; and in a session that draws two
columns at most, a table, a simplification, a line that is no statement and a table that is too large. -/
theorem display_without_sequences_of_lookalikes :
    let f : Formula := .binary "[1m" .or (.var "[32m") (.not (.var "é"))
    let t := TruthTable.ofFormula f
    ((∀ name ∈ f.names, '\x1b' ∉ name.toList) ∧ (∀ glyph ∈ f.glyphs, '\x1b' ∉ glyph.toList) ∧
      Text.bare (t.render true).toList = (t.render false).toList) ∧
      ∀ text ∈ ["table a & !b", "simplify a & a", "table (a [0m", "table a + b + c"],
        '\x1b' ∉ text.toList ∧ Text.bare (Session.display { maxTableVariables := 2 } text).toList =
          (Session.display { maxTableVariables := 2, colour := false } text).toList := by
  intro f t
  have hnames : ∀ name ∈ f.names, '\x1b' ∉ name.toList := by decide
  have hglyphs : ∀ glyph ∈ f.glyphs, '\x1b' ∉ glyph.toList := by decide
  have htexts : ∀ text ∈ ["table a & !b", "simplify a & a", "table (a [0m", "table a + b + c"],
      '\x1b' ∉ text.toList := by decide
  exact ⟨⟨hnames, hglyphs, (display_without_sequences.1 f hnames hglyphs).1⟩, fun text hmem =>
    ⟨htexts text hmem, (display_without_sequences.2 { maxTableVariables := 2 } text (htexts text hmem)).2.1⟩⟩

end Session

end Sentential
