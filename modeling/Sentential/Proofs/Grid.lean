import Sentential.Proofs.Encoding
import Sentential.Proofs.Readable
import Sentential.Proofs.Tables
import Sentential.TruthTable.Render

/-!
# Reading a table off its drawing

A line of the grid is `Ruled`: separators with segments of given lengths between them, and none inside a
segment. The lengths alone tell where the separators of a line stand (`Ruled.findIdxs_eq`), so lines with
segments of the same lengths are aligned, whichever separators they have. No name and no formula holds a
separator, so the cells of a line stand between its vertical bars (`cellsOf_barred`).
-/

namespace Sentential

open Lexeme (isNamePart)
open Text (isBlank trim trim_append_append trim_eq_self centre length_centre_plain)

namespace Text

/-- The code points of the blank characters. -/
def blankPoints : List Nat := blank.flatMap fun r => List.range' r.1 (r.2 + 1 - r.1)

theorem toNat_mem_blankPoints {c : Char} (h : isBlank c = true) : c.toNat ∈ blankPoints := by
  have hordered : Ranges.Ordered 0 blank := by simp [Ranges.Ordered, blank]
  obtain ⟨r, hr, hlo, hhi⟩ := (Ranges.contains_iff hordered c.toNat).1 h
  exact List.mem_flatMap.2 ⟨r, hr, List.mem_range'_1.2 ⟨hlo, by omega⟩⟩

/-- No blank is part of a name. -/
theorem isBlank_of_isNamePart {c : Char} (h : isNamePart c = true) : isBlank c = false := by
  have hpoints : ∀ n ∈ blankPoints, isNamePart (Char.ofNat n) = false := by decide +kernel
  cases hblank : isBlank c with
  | false => rfl
  | true =>
    have hpart := hpoints _ (toNat_mem_blankPoints hblank)
    rw [Char.ofNat_toNat, h] at hpart
    cases hpart

end Text

namespace TruthTable

/-- Corners, junctions and vertical bars. -/
def separators : List Char := ['┌', '┬', '┐', '├', '┼', '┤', '└', '┴', '┘', '│']

def isSeparator (c : Char) : Bool := separators.contains c

/-- Neither a separator nor a line feed. -/
def IsInner (c : Char) : Prop := c ∉ '\n' :: separators

instance : DecidablePred IsInner := fun c => inferInstanceAs (Decidable (c ∉ '\n' :: separators))

theorem IsInner.isSeparator {c : Char} (h : IsInner c) : isSeparator c = false := by
  rw [TruthTable.isSeparator, List.contains_eq_mem, decide_eq_false_iff_not]
  exact fun hmem => h (List.mem_cons_of_mem _ hmem)

theorem IsInner.ne_newline {c : Char} (h : IsInner c) : c ≠ '\n' := fun he => h (he ▸ List.mem_cons_self)

/-- Nothing of the frame is part of a name. -/
theorem isInner_of_isNamePart {c : Char} (h : isNamePart c = true) : IsInner c := by
  have hframe : ∀ d ∈ '\n' :: separators, isNamePart d = false :=
    forall_mem_of_all (by decide +kernel)
  intro hmem
  rw [hframe c hmem] at h
  cases h

/-- Where the separators of a line stand that has segments of these lengths, the first one at `start`. -/
def stops (start : Nat) : List Nat → List Nat
  | [] => [start]
  | length :: lengths => start :: stops (start + length + 1) lengths

theorem length_stops (start : Nat) (lengths : List Nat) : (stops start lengths).length = lengths.length + 1 := by
  induction lengths generalizing start with
  | nil => rfl
  | cons length lengths ih => rw [stops, List.length_cons, ih, List.length_cons]

/-- Separators at the ends of the line and between segments of these lengths, and nowhere else. -/
inductive Ruled : List Nat → List Char → Prop
  | last {c : Char} (hc : c ∈ separators) : Ruled [] [c]
  | cons {c : Char} {segment line : List Char} {lengths : List Nat} (hc : c ∈ separators)
      (hsegment : ∀ d ∈ segment, IsInner d) (hline : Ruled lengths line) :
      Ruled (segment.length :: lengths) (c :: (segment ++ line))

namespace Ruled
variable {lengths : List Nat} {line : List Char}

theorem length_eq (h : Ruled lengths line) : line.length = (lengths.map (· + 1)).sum + 1 := by
  induction h with
  | last hc => rfl
  | cons hc hsegment hline ih =>
    simp only [List.length_cons, List.length_append, List.map_cons, List.sum_cons, ih]
    omega

theorem findIdxs_eq (h : Ruled lengths line) (start : Nat) :
    line.findIdxs isSeparator start = stops start lengths := by
  induction h generalizing start with
  | last hc => simp [stops, isSeparator, hc]
  | @cons c segment line lengths hc hsegment hline ih =>
    have hmark : isSeparator c = true := List.contains_iff_mem.2 hc
    have hnone : segment.findIdxs isSeparator (start + 1) = [] :=
      List.findIdxs_eq_nil_iff.2 fun d hd => (hsegment d hd).isSeparator
    rw [List.findIdxs_cons, if_pos hmark, List.findIdxs_append, hnone, List.nil_append, ih, stops]
    congr 2
    omega

theorem newline_not_mem (h : Ruled lengths line) : '\n' ∉ line := by
  have hmark : ∀ c ∈ separators, c ≠ '\n' := forall_mem_of_all (by decide)
  induction h with
  | last hc => simpa using (hmark _ hc).symm
  | cons hc hsegment hline ih =>
    rw [List.mem_cons, List.mem_append]
    rintro (he | hmem | hmem)
    · exact hmark _ hc he.symm
    · exact (hsegment _ hmem).ne_newline rfl
    · exact ih hmem

end Ruled

/-- What stands between two pieces stands in front of each piece but the first. -/
theorem intercalate_cons_eq_flatMap (separator piece : List Char) (pieces : List (List Char)) :
    separator.intercalate (piece :: pieces) = piece ++ pieces.flatMap (separator ++ ·) := by
  induction pieces generalizing piece with
  | nil => simp
  | cons piece' pieces ih => simp [List.intercalate_cons_cons, ih]

/-- A horizontal line without its line feed. -/
def ruling (left crossing right : Char) (widths : List Nat) : List Char :=
  left :: (List.intercalate [crossing] (widths.map fun w => List.replicate (w + 2) '─') ++ [right])

/-- A line of cells without its line feed. -/
def barred (cells : List (List Char)) : List Char :=
  cells.flatMap (fun cell => '│' :: ' ' :: cell ++ [' ']) ++ ['│']

theorem border_eq (left crossing right : Char) (widths : List Nat) :
    border left crossing right widths = ruling left crossing right widths ++ ['\n'] := by
  simp [border, ruling]

theorem line_eq (cells : List (List Char)) : line cells = barred cells ++ ['\n'] := by
  simp [line, barred]

theorem ruled_ruling {left crossing right : Char} (hleft : left ∈ separators) (hcrossing : crossing ∈ separators)
    (hright : right ∈ separators) (width : Nat) (widths : List Nat) :
    Ruled ((width :: widths).map (· + 2)) (ruling left crossing right (width :: widths)) := by
  have hdash : ∀ w, ∀ d ∈ List.replicate (w + 2) '─', IsInner d := fun w d hd => by
    rw [List.eq_of_mem_replicate hd]
    decide
  induction widths generalizing left width with
  | nil =>
    have h := Ruled.cons hleft (hdash width) (.last hright)
    rw [List.length_replicate] at h
    simpa [ruling] using h
  | cons width' widths ih =>
    have h := Ruled.cons hleft (hdash width) (ih hcrossing width')
    rw [List.length_replicate] at h
    simpa [ruling, List.intercalate_cons_cons] using h

theorem isInner_of_mem_padded {cell : List Char} (h : ∀ d ∈ cell, IsInner d) :
    ∀ d ∈ ' ' :: cell ++ [' '], IsInner d := by
  have hblank : IsInner ' ' := by decide
  rw [List.forall_mem_append, List.forall_mem_cons, List.forall_mem_singleton]
  exact ⟨⟨hblank, h⟩, hblank⟩

theorem ruled_barred {cells : List (List Char)} (h : ∀ cell ∈ cells, ∀ d ∈ cell, IsInner d) :
    Ruled (cells.map fun cell => cell.length + 2) (barred cells) := by
  have hbar : '│' ∈ separators := by decide
  induction cells with
  | nil => exact .last hbar
  | cons cell cells ih =>
    rw [List.forall_mem_cons] at h
    simpa [barred] using Ruled.cons hbar (isInner_of_mem_padded h.1) (ih h.2)

/-- What stands between the vertical bars of a line. -/
def cellsOf (line : List Char) : List (List Char) := (line.splitOn '│').tail.dropLast

theorem cellsOf_barred {cells : List (List Char)} (h : ∀ cell ∈ cells, ∀ d ∈ cell, IsInner d) :
    cellsOf (barred cells) = cells.map fun cell => ' ' :: cell ++ [' '] := by
  have hbars : barred cells =
      List.intercalate ['│'] ([] :: (cells.map (fun cell => ' ' :: cell ++ [' ']) ++ [[]])) := by
    simp [barred, intercalate_cons_eq_flatMap, List.flatMap_map]
  have hbar : ¬ IsInner '│' := by decide
  have hfree : ∀ segment ∈ [] :: (cells.map (fun cell => ' ' :: cell ++ [' ']) ++ [[]]), '│' ∉ segment := by
    simp only [List.forall_mem_cons, List.forall_mem_append, List.forall_mem_map]
    refine ⟨List.not_mem_nil, fun cell hcell hmem => ?_, List.not_mem_nil, List.forall_mem_nil _⟩
    exact hbar (isInner_of_mem_padded (h cell hcell) _ hmem)
  rw [cellsOf, hbars, List.splitOn_intercalate _ hfree (List.cons_ne_nil _ _), List.tail_cons, List.dropLast_concat]

theorem trim_padded (cell : List Char) : trim (' ' :: cell ++ [' ']) = trim cell := by
  have hblank : ∀ c ∈ [' '], isBlank c = true := forall_mem_of_all (by decide)
  exact trim_append_append hblank hblank

/-- A digit in a cell under a heading of `width` characters. An odd blank stands on its right. -/
def digitCell (width : Nat) (value : Bool) : List Char :=
  List.replicate (1 + (width - 1) / 2) ' ' ++ Formula.constChar value :: List.replicate (1 + width / 2) ' '

theorem cell_eq_centre (width : Nat) (value : Bool) :
    cell false width value = centre width .plain [Formula.constChar value] := by
  cases value <;> rfl

theorem length_cell {width : Nat} (h : 0 < width) (value : Bool) : (cell false width value).length = width := by
  rw [cell_eq_centre]
  exact length_centre_plain h

theorem padded_cell (width : Nat) (value : Bool) :
    ' ' :: cell false width value ++ [' '] = digitCell width value := by
  have hright : 1 + width / 2 = width - 1 - (width - 1) / 2 + 1 := by omega
  rw [cell_eq_centre, digitCell, hright, Nat.add_comm 1, List.replicate_succ, List.replicate_succ']
  simp [centre, Text.Style.paint]

theorem isInner_constChar (value : Bool) : IsInner (Formula.constChar value) := by
  cases value <;> decide

theorem isBlank_constChar (value : Bool) : isBlank (Formula.constChar value) = false := by
  cases value <;> decide

theorem trim_digitCell (width : Nat) (value : Bool) : trim (digitCell width value) = [Formula.constChar value] := by
  have hblank : ∀ n, ∀ c ∈ List.replicate n ' ', isBlank c = true := fun n c hc => by
    rw [List.eq_of_mem_replicate hc]
    decide
  rw [digitCell, ← List.singleton_append, ← List.append_assoc, trim_append_append (hblank _) (hblank _)]
  exact trim_eq_self (by simp [isBlank_constChar]) (by simp [isBlank_constChar])

end TruthTable

theorem IsWord.trim_eq {cs : List Char} (h : IsWord cs) : trim cs = cs :=
  trim_eq_self (fun c hc => Text.isBlank_of_isNamePart (h.isNamePart c (List.mem_of_mem_head? hc)))
    fun c hc => Text.isBlank_of_isNamePart (h.isNamePart c (List.mem_of_mem_getLast? hc))

namespace Formula
variable {f : Formula}

theorem chars_ne_nil (hwords : ∀ name ∈ f.names, IsWord name.toList) : f.chars ≠ [] := by
  cases f with
  | var name =>
    obtain ⟨c, cs, hname, -⟩ := (hwords name List.mem_cons_self).exists_cons
    simp [hname]
  | const value => simp
  | not a => simp
  | binary glyph c l r => simp

theorem isBlank_head?_chars (hwords : ∀ name ∈ f.names, IsWord name.toList) :
    ∀ c ∈ f.chars.head?, isBlank c = false := by
  cases f with
  | var name =>
    rw [chars_var]
    exact fun c hc => Text.isBlank_of_isNamePart
      ((hwords name List.mem_cons_self).isNamePart c (List.mem_of_mem_head? hc))
  | const value => simp [TruthTable.isBlank_constChar]
  | not a =>
    rintro c ⟨⟩
    decide
  | binary glyph c l r =>
    rw [chars_binary]
    rintro c ⟨⟩
    decide

theorem isBlank_getLast?_chars (hwords : ∀ name ∈ f.names, IsWord name.toList) :
    ∀ c ∈ f.chars.getLast?, isBlank c = false := by
  induction f with
  | var name =>
    rw [chars_var]
    exact fun c hc => Text.isBlank_of_isNamePart
      ((hwords name List.mem_cons_self).isNamePart c (List.mem_of_mem_getLast? hc))
  | const value => simp [TruthTable.isBlank_constChar]
  | not a ih =>
    obtain ⟨c, cs, hchars⟩ := List.exists_cons_of_ne_nil (chars_ne_nil (f := a) hwords)
    rw [chars_not, hchars, List.getLast?_cons_cons, ← hchars]
    exact ih hwords
  | binary glyph c l r ihl ihr =>
    rw [chars_binary, List.getLast?_concat]
    rintro c ⟨⟩
    decide

theorem isInner_of_mem_chars (h : f.Spelt) : ∀ c ∈ f.chars, TruthTable.IsInner c := by
  have hglyphChars : ∀ c ∈ ['+', '|', '*', '&', '-', '>', '<'], TruthTable.IsInner c :=
    forall_mem_of_all (by decide)
  refine forall_mem_chars (forall_mem_of_all (by decide)) (fun name hname c hc => ?_) fun glyph hglyph c hc => ?_
  · exact TruthTable.isInner_of_isNamePart ((h.words name hname).isNamePart c hc)
  · exact hglyphChars c (h.mem_glyphs glyph hglyph c hc)

end Formula

namespace TruthTable
variable {f : Formula}

theorem headings_ofFormula (f : Formula) : (ofFormula f).headings = f.vars.map String.toList ++ [f.chars] := rfl

/-- A heading is a text that shows: the frame does not run through it, and it has no blanks at its ends. -/
theorem of_mem_headings (h : f.Spelt) {heading : List Char} (hmem : heading ∈ (ofFormula f).headings) :
    (∀ c ∈ heading, IsInner c) ∧ 0 < heading.length ∧ trim heading = heading := by
  rw [headings_ofFormula, List.mem_append, List.mem_singleton] at hmem
  rcases hmem with hname | rfl
  · obtain ⟨name, hvar, rfl⟩ := List.mem_map.1 hname
    have hword := h.words name (Formula.mem_vars.1 hvar)
    obtain ⟨c, cs, hcons, -⟩ := hword.exists_cons
    exact ⟨fun c hc => isInner_of_isNamePart (hword.isNamePart c hc), by simp [hcons], hword.trim_eq⟩
  · exact ⟨Formula.isInner_of_mem_chars h, List.length_pos_iff.2 (Formula.chars_ne_nil h.words),
      trim_eq_self (Formula.isBlank_head?_chars h.words) (Formula.isBlank_getLast?_chars h.words)⟩

/-- The cells of a row without colours. -/
def digitsOf (t : TruthTable) (r : Row) : List (List Char) :=
  List.zipWith (cell false) t.widths (r.values ++ [r.result])

/-- The lines of the drawing without colours, without their line feeds. -/
def gridLines (t : TruthTable) : List (List Char) :=
  ruling '┌' '┬' '┐' t.widths :: barred t.headings :: ruling '├' '┼' '┤' t.widths ::
    (t.rows.map (fun r => barred (t.digitsOf r)) ++ [ruling '└' '┴' '┘' t.widths])

theorem renderChars_false (t : TruthTable) : t.renderChars false = t.gridLines.flatMap (· ++ ['\n']) := by
  have hheadings : t.headingLine false = barred t.headings ++ ['\n'] := line_eq t.headings
  have hrow : t.rowLine false = fun r => barred (t.digitsOf r) ++ ['\n'] := funext fun r => line_eq (t.digitsOf r)
  simp [renderChars, gridLines, border_eq, hheadings, hrow, List.flatMap_map]

theorem digitsOf_eq (t : TruthTable) (r : Row) :
    t.digitsOf r = (t.widths.zip (r.values ++ [r.result])).map fun p => cell false p.1 p.2 :=
  (List.map_uncurry_zip_eq_zipWith ..).symm

theorem length_widths (f : Formula) : (ofFormula f).widths.length = f.vars.length + 1 := by
  simp [widths, headings_ofFormula]

theorem length_values_append_result {r : Row} (hr : r ∈ (ofFormula f).rows) :
    (r.values ++ [r.result]).length = (ofFormula f).widths.length := by
  obtain ⟨values, hvalues, rfl⟩ := List.mem_map.1 hr
  rw [length_widths, List.length_append, List.length_singleton, row, length_of_mem_assignments hvalues]

theorem map_length_digitsOf (h : f.Spelt) {r : Row} (hr : r ∈ (ofFormula f).rows) :
    ((ofFormula f).digitsOf r).map List.length = (ofFormula f).widths := by
  rw [digitsOf_eq, List.map_map]
  refine (List.map_congr_left fun p hp => ?_).trans (List.map_fst_zip (length_values_append_result hr).ge)
  obtain ⟨heading, hheading, hwidth⟩ := List.mem_map.1 (List.of_mem_zip hp).1
  exact length_cell (hwidth ▸ (of_mem_headings h hheading).2.1) p.2

theorem isInner_of_mem_digitsOf {t : TruthTable} {r : Row} : ∀ digit ∈ t.digitsOf r, ∀ d ∈ digit, IsInner d := by
  have hblank : IsInner ' ' := by decide
  rw [digitsOf_eq, List.forall_mem_map]
  intro p hp d hd
  rw [cell_eq_centre, centre, List.mem_append, List.mem_append] at hd
  rcases hd with (hd | hd) | hd
  · exact List.eq_of_mem_replicate hd ▸ hblank
  · exact List.mem_singleton.1 hd ▸ isInner_constChar p.2
  · exact List.eq_of_mem_replicate hd ▸ hblank

theorem cellsOf_barred_digitsOf (t : TruthTable) (r : Row) :
    cellsOf (barred (t.digitsOf r)) = List.zipWith digitCell t.widths (r.values ++ [r.result]) := by
  rw [cellsOf_barred isInner_of_mem_digitsOf, digitsOf, List.map_zipWith]
  simp only [padded_cell]

theorem ruled_of_mem_gridLines (h : f.Spelt) :
    ∀ l ∈ (ofFormula f).gridLines, Ruled ((ofFormula f).widths.map (· + 2)) l := by
  obtain ⟨width, widths, hwidths⟩ := List.exists_cons_of_length_eq_add_one (length_widths f)
  have hheadings : Ruled ((ofFormula f).widths.map (· + 2)) (barred (ofFormula f).headings) := by
    rw [TruthTable.widths, List.map_map]
    exact ruled_barred fun heading hmem => (of_mem_headings h hmem).1
  have hrow : ∀ r ∈ (ofFormula f).rows,
      Ruled ((ofFormula f).widths.map (· + 2)) (barred ((ofFormula f).digitsOf r)) := fun r hr => by
    rw [← map_length_digitsOf h hr, List.map_map]
    exact ruled_barred isInner_of_mem_digitsOf
  have hruling : ∀ left ∈ separators, ∀ crossing ∈ separators, ∀ right ∈ separators,
      Ruled ((ofFormula f).widths.map (· + 2)) (ruling left crossing right (ofFormula f).widths) := by
    rw [hwidths]
    exact fun _ hleft _ hcrossing _ hright => ruled_ruling hleft hcrossing hright width widths
  simp only [gridLines, List.forall_mem_cons, List.forall_mem_append, List.forall_mem_map]
  exact ⟨hruling _ (by decide) _ (by decide) _ (by decide), hheadings,
    hruling _ (by decide) _ (by decide) _ (by decide), hrow,
    hruling _ (by decide) _ (by decide) _ (by decide), List.forall_mem_nil _⟩

theorem getElem?_gridLines {t : TruthTable} {k : Nat} {r : Row} (hr : t.rows[k]? = some r) :
    t.gridLines[k + 3]? = some (barred (t.digitsOf r)) := by
  have hlt : k < (t.rows.map fun r => barred (t.digitsOf r)).length := by
    rw [List.length_map]
    exact (List.getElem?_eq_some_iff.1 hr).1
  simp only [gridLines, List.getElem?_cons_succ]
  rw [List.getElem?_append_left hlt, List.getElem?_map, hr]
  rfl

/-- The drawing of a table consists of lines of the same length, with separators at the same places. Its second
line shows the variables and the formula, and the line of a row shows the values of that row under them. -/
theorem render_reads_back {f : Formula} (h : f.Spelt) :
    let t := ofFormula f
    let n := f.vars.length
    let headings := (f.vars ++ [f.literal]).map String.toList
    ∃ lines : List (List Char),
      (t.render false).toList = lines.flatMap (· ++ ['\n']) ∧ (∀ l ∈ lines, '\n' ∉ l) ∧
      lines.length = 2 ^ n + 4 ∧
      (∃ width, ∀ l ∈ lines, l.length = width) ∧
      (∃ places, places.length = n + 2 ∧ ∀ l ∈ lines, l.findIdxs isSeparator = places) ∧
      (∃ l, lines[1]? = some l ∧ (cellsOf l).map trim = headings) ∧
      t.rows.length = 2 ^ n ∧
      ∀ (k : Nat) (r : Row), t.rows[k]? = some r → ∃ l, lines[k + 3]? = some l ∧
        cellsOf l = List.zipWith digitCell (headings.map List.length) (r.values ++ [r.result]) ∧
        (cellsOf l).map trim = (r.values ++ [r.result]).map fun value => [Formula.constChar value] := by
  intro t n headings
  have hheadings : headings = t.headings := by simp [headings, t, headings_ofFormula]
  have hruled := ruled_of_mem_gridLines h
  rw [hheadings]
  refine ⟨t.gridLines, ?_, fun l hl => (hruled l hl).newline_not_mem, ?_, ⟨_, fun l hl => (hruled l hl).length_eq⟩,
    ⟨stops 0 (t.widths.map (· + 2)), ?_, fun l hl => (hruled l hl).findIdxs_eq 0⟩, ⟨barred t.headings, rfl, ?_⟩,
    length_rows f, fun k r hr => ⟨_, getElem?_gridLines hr, cellsOf_barred_digitsOf t r, ?_⟩⟩
  · rw [render, String.toList_ofList, renderChars_false]
  · simp only [gridLines, List.length_cons, List.length_append, List.length_map, List.length_nil]
    rw [length_rows]
  · rw [length_stops, List.length_map, length_widths]
  · rw [cellsOf_barred fun heading hmem => (of_mem_headings h hmem).1, List.map_map]
    refine (List.map_congr_left fun heading hmem => ?_).trans (List.map_id _)
    exact (trim_padded heading).trans (of_mem_headings h hmem).2.2
  · have hlength := length_values_append_result (List.mem_of_getElem? hr)
    rw [cellsOf_barred_digitsOf, List.map_zipWith, ← List.map_uncurry_zip_eq_zipWith]
    simp only [trim_digitCell]
    conv_rhs => rw [← List.map_snd_zip hlength.le, List.map_map]
    rfl

/-- Names of an even width, one of them with a character of two bytes. -/
theorem render_reads_back_of_wide :
    let f : Formula := .binary "->" .implies (.var "ab") (.var "né")
    f.Spelt ∧ ∃ lines : List (List Char),
      ((ofFormula f).render false).toList = lines.flatMap (· ++ ['\n']) ∧ lines.length = 8 ∧
      (∃ l, lines[1]? = some l ∧ (cellsOf l).map trim = ["ab".toList, "né".toList, "(ab -> né)".toList]) ∧
      ∃ l, lines[4]? = some l ∧ cellsOf l = [" 1  ".toList, " 0  ".toList, "     0      ".toList] := by
  intro f
  have hspelt : f.Spelt := ⟨by decide +kernel, by decide +kernel⟩
  obtain ⟨lines, htext, -, hlength, -, -, ⟨heading, hheading, hheadings⟩, -, hrows⟩ := render_reads_back hspelt
  obtain ⟨l, hl, hcells, -⟩ := hrows 1 ⟨[true, false], false⟩ (by decide +kernel)
  exact ⟨hspelt, lines, htext, hlength.trans (by decide +kernel),
    ⟨heading, hheading, hheadings.trans (by decide +kernel)⟩, l, hl, hcells.trans (by decide +kernel)⟩

end TruthTable

end Sentential
