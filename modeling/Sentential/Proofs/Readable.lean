import Sentential.Formula.Eval
import Sentential.Proofs.WellFormed
import Sentential.Rule

/-!
# Unique readability

The first character of a text tells the shape of the formula that it is the text of (`Begins`). So the text
of a well-formed formula determines the formula, and so does any text that goes on behind it in a way that
no name could (`chars_append_inj`). What the rules compare by text they therefore compare by
structure (`WellFormed.same_iff`).
-/

namespace Sentential.Formula

open Lexeme (isNameStart isNamePart)

theorem constChar_inj {a b : Bool} (h : constChar a = constChar b) : a = b := by
  revert a b; decide

theorem isNameStart_constChar (value : Bool) : isNameStart (constChar value) = false := by
  cases value <;> decide

theorem constChar_ne_bang (value : Bool) : constChar value ≠ '!' := by
  cases value <;> decide

theorem constChar_ne_open (value : Bool) : constChar value ≠ '(' := by
  cases value <;> decide

/-- The text of a binary formula up to its glyph and what stands behind that. -/
theorem chars_binary_append (glyph : String) (c : Connective) (l r : Formula) (s : List Char) :
    (binary glyph c l r).chars ++ s =
      '(' :: (l.chars ++ ' ' :: (glyph.toList ++ ' ' :: (r.chars ++ ')' :: s))) := by
  simp

/-- The glyphs that occur, left to right and with repetitions. -/
def glyphs : Formula → List String
  | .var _ => []
  | .const _ => []
  | .not a => a.glyphs
  | .binary glyph _ l r => l.glyphs ++ glyph :: r.glyphs

/-- A text is made of names, of glyphs and of a few characters besides. -/
theorem forall_mem_chars {p : Char → Prop} {f : Formula} (hown : ∀ c ∈ ['(', ')', '!', ' ', '0', '1'], p c)
    (hnames : ∀ name ∈ f.names, ∀ c ∈ name.toList, p c) (hglyphs : ∀ glyph ∈ f.glyphs, ∀ c ∈ glyph.toList, p c) :
    ∀ c ∈ f.chars, p c := by
  induction f with
  | var name =>
    rw [chars_var]
    exact hnames name List.mem_cons_self
  | const value =>
    rw [chars_const, List.forall_mem_singleton]
    cases value
    · exact hown '0' (by simp)
    · exact hown '1' (by simp)
  | not a ih =>
    rw [chars_not, List.forall_mem_cons]
    exact ⟨hown '!' (by simp), ih hnames hglyphs⟩
  | binary glyph c l r ihl ihr =>
    simp only [names, glyphs, List.forall_mem_append, List.forall_mem_cons] at hnames hglyphs
    obtain ⟨hglyphsl, hglyph, hglyphsr⟩ := hglyphs
    simp only [chars_binary, List.forall_mem_append, List.forall_mem_cons]
    exact ⟨⟨⟨⟨hown '(' (by simp), ihl hnames.1 hglyphsl⟩, hown ' ' (by simp), hglyph⟩, hown ' ' (by simp),
      ihr hnames.2 hglyphsr⟩, hown ')' (by simp), List.forall_mem_nil p⟩

/-- The names are words and the glyphs are spellings of connectives. -/
structure Spelt (f : Formula) : Prop where
  words : ∀ name ∈ f.names, IsWord name.toList
  glyphs : ∀ glyph ∈ f.glyphs, (Connective.ofGlyph? glyph).isSome = true

theorem Spelt.mem_glyphs {f : Formula} (h : f.Spelt) :
    ∀ glyph ∈ f.glyphs, ∀ c ∈ glyph.toList, c ∈ ['+', '|', '*', '&', '-', '>', '<'] := by
  intro glyph hglyph
  obtain ⟨c, hc⟩ := Option.isSome_iff_exists.1 (h.glyphs glyph hglyph)
  exact mem_of_ofGlyph? hc

theorem WellFormed.spelt {f : Formula} (hf : f.WellFormed) : f.Spelt := by
  induction f with
  | var name => exact ⟨List.forall_mem_singleton.2 hf.1, nofun⟩
  | const value => exact ⟨nofun, nofun⟩
  | not a ih => exact ⟨(ih hf).words, (ih hf).glyphs⟩
  | binary glyph c l r ihl ihr =>
    obtain ⟨hglyph, hl, hr⟩ := hf
    refine ⟨List.forall_mem_append.2 ⟨(ihl hl).words, (ihr hr).words⟩, ?_⟩
    refine List.forall_mem_append.2 ⟨(ihl hl).glyphs, List.forall_mem_cons.2 ⟨?_, (ihr hr).glyphs⟩⟩
    rw [hglyph]
    rfl

theorem head?_space (s : List Char) : ∀ c ∈ (' ' :: s).head?, (c != ' ') = false := by
  intro c hc
  cases hc
  rfl

theorem delimits_space (s : List Char) : Delimits (' ' :: s) := delimits_cons (by decide) s

theorem delimits_close (s : List Char) : Delimits (')' :: s) := delimits_cons (by decide) s

/-- The first characters of texts of the formula's shape. -/
def Begins (c : Char) : Formula → Prop
  | .var _ => isNameStart c = true
  | .const value => c = constChar value
  | .not _ => c = '!'
  | .binary .. => c = '('

theorem WellFormed.exists_begins {f : Formula} (hf : f.WellFormed) (s : List Char) :
    ∃ c cs, f.chars ++ s = c :: cs ∧ f.Begins c := by
  cases f with
  | var name =>
    obtain ⟨c, cs, hname, hc, -⟩ := hf.1.exists_cons
    exact ⟨c, cs ++ s, by rw [chars_var, hname, List.cons_append], hc⟩
  | const value => exact ⟨_, _, rfl, rfl⟩
  | not a => exact ⟨_, _, rfl, rfl⟩
  | binary glyph c l r => exact ⟨_, _, chars_binary_append glyph c l r s, rfl⟩

theorem WellFormed.begins {f : Formula} (hf : f.WellFormed) {c : Char} {s cs : List Char}
    (h : c :: cs = f.chars ++ s) : f.Begins c := by
  obtain ⟨d, ds, hd, hb⟩ := hf.exists_begins s
  have hcd : c = d := (List.cons.inj (h.trans hd)).1
  rw [hcd]
  exact hb

namespace Begins
variable {f : Formula}

theorem eq_var {c : Char} (h : f.Begins c) (hc : isNameStart c = true) : ∃ name, f = .var name := by
  cases f with
  | var name => exact ⟨name, rfl⟩
  | const value =>
    rw [show c = constChar value from h, isNameStart_constChar] at hc
    cases hc
  | not a =>
    rw [show c = '!' from h] at hc
    exact absurd hc (by decide)
  | binary glyph c' l r =>
    rw [show c = '(' from h] at hc
    exact absurd hc (by decide)

theorem eq_const {value : Bool} (h : f.Begins (constChar value)) : f = .const value := by
  cases f with
  | var name =>
    have hstart : isNameStart (constChar value) = true := h
    rw [isNameStart_constChar] at hstart
    cases hstart
  | const value' => rw [constChar_inj h]
  | not a => exact absurd h (constChar_ne_bang value)
  | binary glyph c l r => exact absurd h (constChar_ne_open value)

theorem eq_not (h : f.Begins '!') : ∃ a, f = .not a := by
  cases f with
  | var name => exact absurd (show isNameStart '!' = true from h) (by decide)
  | const value => exact absurd h.symm (constChar_ne_bang value)
  | not a => exact ⟨a, rfl⟩
  | binary glyph c l r => exact absurd (show '!' = '(' from h) (by decide)

theorem eq_binary (h : f.Begins '(') : ∃ glyph c l r, f = .binary glyph c l r := by
  cases f with
  | var name => exact absurd (show isNameStart '(' = true from h) (by decide)
  | const value => exact absurd h.symm (constChar_ne_open value)
  | not a => exact absurd (show '(' = '!' from h) (by decide)
  | binary glyph c l r => exact ⟨glyph, c, l, r, rfl⟩

/-- So a formula behind a `!` does not turn it into another symbol. -/
theorem ne_equal {c : Char} (h : f.Begins c) : c ≠ '=' := by
  rintro rfl
  cases f with
  | var name => exact absurd (show isNameStart '=' = true from h) (by decide)
  | const value =>
    have hconst : '=' = constChar value := h
    revert hconst
    cases value <;> decide
  | not a => exact absurd (show '=' = '!' from h) (by decide)
  | binary glyph c l r => exact absurd (show '=' = '(' from h) (by decide)

end Begins

/-- The first character tells the shape; a name ends where no name character follows, a glyph at the first
blank, and the rest is by induction on the formula. -/
theorem chars_append_inj {f g : Formula} {s t : List Char} (hf : f.WellFormed) (hg : g.WellFormed)
    (hs : Delimits s) (ht : Delimits t) (h : f.chars ++ s = g.chars ++ t) : f = g ∧ s = t := by
  induction f generalizing g s t with
  | var name =>
    obtain ⟨c, cs, hc, hb⟩ := hf.exists_begins s
    obtain ⟨name', rfl⟩ := (hg.begins (hc.symm.trans h)).eq_var hb
    rw [chars_var, chars_var] at h
    obtain ⟨hname, hst⟩ := run_append_inj hf.1.isNamePart hg.1.isNamePart hs ht h
    exact ⟨by rw [String.toList_inj.1 hname], hst⟩
  | const value =>
    obtain rfl := (hg.begins h).eq_const
    exact ⟨rfl, (List.cons.inj h).2⟩
  | not a ih =>
    obtain ⟨b, rfl⟩ := (hg.begins h).eq_not
    obtain ⟨hab, hst⟩ := ih (g := b) hf hg hs ht (List.cons.inj h).2
    exact ⟨by rw [hab], hst⟩
  | binary glyph c l r ihl ihr =>
    rw [chars_binary_append] at h
    obtain ⟨glyph', c', l', r', rfl⟩ := (hg.begins h).eq_binary
    rw [chars_binary_append] at h
    obtain ⟨hc, hfl, hfr⟩ := hf
    obtain ⟨hc', hgl, hgr⟩ := hg
    obtain ⟨rfl, h₁⟩ := ihl hfl hgl (delimits_space _) (delimits_space _) (List.cons.inj h).2
    obtain ⟨hglyph, h₂⟩ := run_append_inj (ne_space_of_ofGlyph? hc) (ne_space_of_ofGlyph? hc')
      (head?_space _) (head?_space _) (List.cons.inj h₁).2
    obtain ⟨rfl, h₃⟩ := ihr hfr hgr (delimits_close s) (delimits_close t) (List.cons.inj h₂).2
    obtain rfl := String.toList_inj.1 hglyph
    cases hc.symm.trans hc'
    exact ⟨rfl, (List.cons.inj h₃).2⟩

namespace WellFormed
variable {f g : Formula}

theorem chars_inj (hf : f.WellFormed) (hg : g.WellFormed) : f.chars = g.chars ↔ f = g := by
  constructor
  · intro h
    have happ : f.chars ++ [] = g.chars ++ [] := by rw [h]
    exact (chars_append_inj hf hg delimits_nil delimits_nil happ).1
  · rintro rfl
    rfl

theorem literal_inj (hf : f.WellFormed) (hg : g.WellFormed) : f.literal = g.literal ↔ f = g :=
  Formula.literal_inj.trans (hf.chars_inj hg)

theorem same_iff (hf : f.WellFormed) (hg : g.WellFormed) : same f g = true ↔ f = g :=
  Formula.same_iff.trans (hf.chars_inj hg)

theorem complementary_iff (hf : f.WellFormed) (hg : g.WellFormed) :
    complementary f g = true ↔ f = .not g ∨ g = .not f := by
  simp only [complementary, Bool.or_eq_true, Option.any_eq_true, negated?_eq_some]
  constructor
  · rintro (⟨a, rfl, hsame⟩ | ⟨a, rfl, hsame⟩)
    · exact .inl (by rw [(same_iff (f := a) hf hg).1 hsame])
    · exact .inr (by rw [(same_iff (f := a) hg hf).1 hsame])
  · rintro (rfl | rfl)
    · exact .inl ⟨g, rfl, Formula.same_iff.2 rfl⟩
    · exact .inr ⟨f, rfl, Formula.same_iff.2 rfl⟩

end WellFormed

end Sentential.Formula
