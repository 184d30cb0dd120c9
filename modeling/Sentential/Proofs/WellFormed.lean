import Sentential.Statement
import Sentential.Token.Lexeme

/-!
# Well-formed formulas

A formula can hold any text as a name or a glyph. It is `WellFormed` if every name is one that scans as a
variable (`IsName`) and every glyph spells the connective beside it. The characters of the printer's own
punctuation are not name characters, so a name ends where the printer goes on.
-/

namespace Sentential

open Lexeme (isNameStart isNamePart)

/-- A run of name characters that does not begin with a digit. -/
def IsWord : List Char → Prop
  | [] => False
  | c :: cs => isNameStart c = true ∧ ∀ d ∈ cs, isNamePart d = true

instance : DecidablePred IsWord
  | [] => isFalse id
  | c :: cs =>
    have : Decidable (∀ d ∈ cs, isNamePart d = true) := List.decidableBAll _ cs
    inferInstanceAs (Decidable (isNameStart c = true ∧ ∀ d ∈ cs, isNamePart d = true))

/-- The name of a variable: a word that is not reserved. -/
def IsName (name : String) : Prop :=
  IsWord name.toList ∧ Token.Kind.ofReserved? name = none

instance (name : String) : Decidable (IsName name) := inferInstanceAs (Decidable (_ ∧ _))

/-- A name character before `rest` is the last of its run. -/
def Delimits (rest : List Char) : Prop := ∀ c ∈ rest.head?, isNamePart c = false

/-- A run of characters with a property, before one without it, is cut off whole. -/
theorem takeWhile_run {p : Char → Bool} {cs rest : List Char} (hcs : ∀ c ∈ cs, p c = true)
    (hrest : ∀ c ∈ rest.head?, p c = false) : (cs ++ rest).takeWhile p = cs := by
  rw [List.takeWhile_append_of_pos hcs]
  cases rest with
  | nil => simp
  | cons c rest => simp [hrest c rfl]

/-- Runs are told apart from what follows them. -/
theorem run_append_inj {p : Char → Bool} {cs ds s t : List Char} (hcs : ∀ c ∈ cs, p c = true)
    (hds : ∀ d ∈ ds, p d = true) (hs : ∀ c ∈ s.head?, p c = false) (ht : ∀ c ∈ t.head?, p c = false)
    (h : cs ++ s = ds ++ t) : cs = ds ∧ s = t := by
  have he : cs = ds := by rw [← takeWhile_run hcs hs, h, takeWhile_run hds ht]
  subst he
  exact ⟨rfl, List.append_cancel_left h⟩

theorem isNamePart_of_isNameStart {c : Char} (h : isNameStart c = true) : isNamePart c = true := by
  simp [isNamePart, h]

theorem delimits_nil : Delimits [] := nofun

theorem delimits_cons {c : Char} (h : isNamePart c = false) (rest : List Char) : Delimits (c :: rest) := by
  intro d hd
  cases hd
  exact h

namespace IsWord
variable {cs : List Char}

theorem exists_cons (h : IsWord cs) :
    ∃ c rest, cs = c :: rest ∧ isNameStart c = true ∧ ∀ d ∈ rest, isNamePart d = true := by
  cases cs with
  | nil => exact h.elim
  | cons c rest => exact ⟨c, rest, rfl, h⟩

theorem isNamePart (h : IsWord cs) : ∀ c ∈ cs, isNamePart c = true := by
  obtain ⟨c, rest, rfl, hc, hrest⟩ := h.exists_cons
  intro d hd
  rcases List.mem_cons.1 hd with rfl | hd
  · exact isNamePart_of_isNameStart hc
  · exact hrest d hd

end IsWord

/-- A property of the entries of a known list is checked one by one. -/
theorem forall_mem_of_all {α : Type} {p : α → Prop} [DecidablePred p] {l : List α}
    (h : (l.all fun a => decide (p a)) = true) : ∀ a ∈ l, p a :=
  fun a ha => of_decide_eq_true (List.all_eq_true.1 h a ha)

/-- The characters of which glyphs are made. -/
theorem mem_of_ofGlyph? {glyph : String} {c : Connective} (h : Connective.ofGlyph? glyph = some c) :
    ∀ d ∈ glyph.toList, d ∈ ['+', '|', '*', '&', '-', '>', '<'] := by
  unfold Connective.ofGlyph? at h
  split at h
  case h_9 => cases h
  all_goals exact forall_mem_of_all (by decide)

theorem ne_space_of_ofGlyph? {glyph : String} {c : Connective} (h : Connective.ofGlyph? glyph = some c) :
    ∀ d ∈ glyph.toList, (d != ' ') = true := by
  have hchars : ∀ d ∈ ['+', '|', '*', '&', '-', '>', '<'], (d != ' ') = true := forall_mem_of_all (by decide)
  exact fun d hd => hchars d (mem_of_ofGlyph? h d hd)

namespace Formula

def WellFormed : Formula → Prop
  | .var name => IsName name
  | .const _ => True
  | .not a => a.WellFormed
  | .binary glyph c l r => Connective.ofGlyph? glyph = some c ∧ l.WellFormed ∧ r.WellFormed

instance decidableWellFormed : DecidablePred WellFormed
  | .var name => inferInstanceAs (Decidable (IsName name))
  | .const _ => inferInstanceAs (Decidable True)
  | .not a => decidableWellFormed a
  | .binary glyph c l r =>
    have := decidableWellFormed l
    have := decidableWellFormed r
    inferInstanceAs (Decidable (Connective.ofGlyph? glyph = some c ∧ l.WellFormed ∧ r.WellFormed))

theorem WellFormed.join {l r : Formula} (c : Connective) (hl : l.WellFormed) (hr : r.WellFormed) :
    (join c l r).WellFormed :=
  ⟨Connective.ofGlyph?_glyph c, hl, hr⟩

end Formula

def Statement.WellFormed (s : Statement) : Prop := s.formula.WellFormed

instance : DecidablePred Statement.WellFormed := fun s => inferInstanceAs (Decidable s.formula.WellFormed)

end Sentential
