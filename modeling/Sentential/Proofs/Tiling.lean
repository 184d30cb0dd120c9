import Sentential.Proofs.LongestMatch

/-!
# Tokens tile a text

The tokens of a text are pieces of it in their order, none of which overlaps another, and what they leave uncovered
are separators (`Source.Tiles`). So nothing of a text is lost when it is scanned: tokens and the gaps between them,
put together again, are the text (`Source.weave_gaps`). Both are by induction on the way in which the text falls into
tokens, from the place on to which it has been scanned.
-/

namespace Sentential

/-- The place behind the last character of a token. -/
def Token.stop (t : Token) : Nat := t.start + t.length

namespace Lexeme

open Source (isSeparator separators isSeparator_iff)

theorem isSeparator_of_isNamePart {c : Char} (h : isNamePart c = true) : isSeparator c = false := by
  cases hc : isSeparator c with
  | false => rfl
  | true =>
    simp only [isSeparator, Bool.or_eq_true, beq_iff_eq] at hc
    obtain ((rfl | rfl) | rfl) | rfl := hc <;> revert h <;> decide

theorem any_isSeparator_of_mem_symbols : ∀ s ∈ symbols, s.chars.any isSeparator = false := by decide

theorem IsLegal.not_mem_separators {x : Lexeme} (h : x.IsLegal) : ∀ c ∈ x.chars, c ∉ separators := by
  intro c hc
  rw [← isSeparator_iff, Bool.not_eq_true]
  rcases h.mem_symbols_or_isWord with hmem | ⟨hword, -⟩
  · have hany := any_isSeparator_of_mem_symbols x hmem
    rw [List.any_eq_false] at hany
    exact Bool.eq_false_iff.2 (hany c hc)
  · exact isSeparator_of_isNamePart (hword.isNamePart c hc)

theorem not_mem_separators_arrow : ∀ c ∈ ['<', '-'], c ∉ separators := by
  intro c hc
  have hall : ['<', '-'].all (fun c => !isSeparator c) = true := by decide
  rw [← isSeparator_iff, Bool.not_eq_true]
  simpa using List.all_eq_true.1 hall c hc

/-- No lexeme reaches over a separator. -/
theorem IsCut.not_mem_separators {x : Lexeme} {text : List Char} (h : IsCut text x)
    (hhead : ∀ c ∈ text.head?, c ∉ separators) : ∀ c ∈ x.chars, c ∉ separators := by
  intro c hc
  cases h with
  | legal hx _ _ => exact hx.not_mem_separators c hc
  | arrow => exact not_mem_separators_arrow c hc
  | unknown _ _ hpre =>
    obtain ⟨rest, rfl⟩ := hpre
    rw [List.mem_singleton.1 hc]
    exact hhead _ rfl

end Lexeme

namespace Source

/-- What stands before, between and behind the tokens, from the place `n` on. -/
def gaps (text : List Char) (n : Nat) : List Token → List (List Char)
  | [] => [text.drop n]
  | t :: ts => text.extract n t.start :: gaps text t.stop ts

/-- Gaps and tokens in turn. -/
def weave : List (List Char) → List Token → List Char
  | gap :: gaps, t :: ts => gap ++ (t.literal.toList ++ weave gaps ts)
  | gaps, _ => gaps.flatten

/-- The tokens are what the text consists of from the place `n` on, separators apart. -/
structure Tiles (text : List Char) (n : Nat) (ts : List Token) : Prop where
  /-- A token is the piece of the text that stands at its place, and not an empty one. -/
  piece : ∀ t ∈ ts, n ≤ t.start ∧ 1 ≤ t.length ∧ t.stop ≤ text.length ∧
    text.extract t.start t.stop = t.literal.toList
  ordered : ts.Pairwise fun t u => t.stop ≤ u.start
  /-- What no token covers is a separator, and what a token covers is none. -/
  covered : ∀ i c, n ≤ i → text[i]? = some c → c ∈ separators ∨ ∃ t ∈ ts, t.start ≤ i ∧ i < t.stop
  solid : ∀ t ∈ ts, ∀ c ∈ t.literal.toList, c ∉ separators
  /-- With the gaps, which are blank, the tokens make up the text again. -/
  blank : ∀ gap ∈ gaps text n ts, ∀ c ∈ gap, c ∈ separators
  rebuilt : weave (gaps text n ts) ts = text.drop n

variable {text cs blanks rest : List Char} {n i : Nat} {t : Token} {ts : List Token}

section
variable (htext : text.drop n = blanks ++ (t.literal.toList ++ rest)) (hstart : t.start = n + blanks.length)
include htext hstart

theorem drop_start : text.drop t.start = t.literal.toList ++ rest := by
  rw [hstart, ← List.drop_drop, htext, List.drop_left]

theorem drop_stop : text.drop t.stop = rest := by
  rw [Token.stop, ← List.drop_drop, drop_start htext hstart]
  exact List.drop_left

theorem extract_gap : text.extract n t.start = blanks := by
  rw [List.extract_eq_take_drop, htext, hstart, Nat.add_sub_cancel_left, List.take_left]

theorem extract_token : text.extract t.start t.stop = t.literal.toList := by
  rw [List.extract_eq_take_drop, drop_start htext hstart, Token.stop, Nat.add_sub_cancel_left]
  exact List.take_left

theorem stop_le_length (hne : t.literal.toList ≠ []) : t.stop ≤ text.length := by
  have hlen := congrArg List.length (drop_start htext hstart)
  have hpos := List.length_pos_iff.2 hne
  rw [List.length_drop, List.length_append] at hlen
  show t.start + t.literal.toList.length ≤ text.length
  omega

end

theorem Tiles.nil (h : ∀ c ∈ text.drop n, c ∈ separators) : Tiles text n [] where
  piece := nofun
  ordered := .nil
  covered i c hi hc := by
    refine .inl (h c ?_)
    rw [← Nat.add_sub_cancel' hi, ← List.getElem?_drop] at hc
    exact List.mem_of_getElem? hc
  solid := nofun
  blank := List.forall_mem_singleton.2 h
  rebuilt := List.flatten_singleton

theorem Tiles.cons (htext : text.drop n = blanks ++ (t.literal.toList ++ rest)) (hstart : t.start = n + blanks.length)
    (hblanks : ∀ c ∈ blanks, c ∈ separators) (hne : t.literal.toList ≠ [])
    (hsolid : ∀ c ∈ t.literal.toList, c ∉ separators) (hts : Tiles text t.stop ts) : Tiles text n (t :: ts) where
  piece := by
    refine List.forall_mem_cons.2 ⟨⟨by omega, List.length_pos_iff.2 hne, stop_le_length htext hstart hne,
      extract_token htext hstart⟩, fun u hu => ?_⟩
    obtain ⟨hle, hpiece⟩ := hts.piece u hu
    rw [Token.stop] at hle
    exact ⟨by omega, hpiece⟩
  ordered := .cons (fun u hu => (hts.piece u hu).1) hts.ordered
  covered i c hi hc := by
    by_cases hgap : i < t.start
    · rw [← Nat.add_sub_cancel' hi, ← List.getElem?_drop, htext, List.getElem?_append_left (by omega)] at hc
      exact .inl (hblanks c (List.mem_of_getElem? hc))
    · by_cases hstop : i < t.stop
      · exact .inr ⟨t, List.mem_cons_self, Nat.le_of_not_lt hgap, hstop⟩
      · refine (hts.covered i c (Nat.le_of_not_lt hstop) hc).imp_right ?_
        rintro ⟨u, hu, hcover⟩
        exact ⟨u, List.mem_cons_of_mem _ hu, hcover⟩
  solid := List.forall_mem_cons.2 ⟨hsolid, hts.solid⟩
  blank := by
    rw [gaps, extract_gap htext hstart]
    exact List.forall_mem_cons.2 ⟨hblanks, hts.blank⟩
  rebuilt := by
    rw [gaps, weave, hts.rebuilt, drop_stop htext hstart, extract_gap htext hstart, htext]

theorem FallsInto.tiles (h : FallsInto n cs ts) (htext : text.drop n = cs) : Tiles text n ts := by
  induction h with
  | nil hblanks =>
    subst htext
    exact .nil hblanks
  | @cons n blanks rest x ts hblanks hhead hcut _ ih =>
    have hsolid := hcut.not_mem_separators hhead
    have hne := hcut.chars_ne_nil
    generalize ht : Token.mk x.kind (String.ofList x.chars) (n + blanks.length) = t
    have hchars : x.chars = t.literal.toList := by rw [← ht, String.toList_ofList]
    have hstart : t.start = n + blanks.length := by rw [← ht]
    have hstop : n + blanks.length + x.chars.length = t.stop := by rw [← hstart, hchars]; rfl
    rw [hstop] at ih
    rw [hchars] at htext hsolid hne
    exact .cons htext hstart hblanks hne hsolid (ih (drop_stop htext hstart))

end Source

/-- Scanned without an error if illegal tokens are none, every text is tiled by its tokens. Each is a piece of it, of
one character at least and at the place that it says. They follow each other without overlap, and the characters
between them, and no others, are separators. So gaps and tokens in turn are the text. -/
theorem lex_false_tiles (text : String) :
    ∃ tokens, lex false text = .ok tokens ∧ Source.Tiles text.toList 0 tokens ∧
      Source.weave (Source.gaps text.toList 0 tokens) tokens = text.toList := by
  have htiles : Source.Tiles text.toList 0 (tokenize text) := (Source.fallsInto_tokens (.ofString text)).tiles rfl
  exact ⟨tokenize text, lex_false text, htiles, htiles.rebuilt⟩

/-- Broken-off arrows, blanks at both ends, and a name of more bytes than characters. -/
example :
    Source.gaps "\t<-é1 <--> ".toList 0 (tokenize "\t<-é1 <--> ") = [['\t'], [], [' '], [], [' ']] := by
  decide +kernel

end Sentential
