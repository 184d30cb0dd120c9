import Sentential.Proofs.Rescanning
import Sentential.Proofs.Sentences

/-!
# Reading undoes printing

A sentence of scanned tokens stands for a well-formed statement, and the text of a well-formed statement is
scanned as a sentence that stands for it. So the well-formed statements are those that are read from their
own text, and those that are read from any text at all.
-/

namespace Sentential

/-- A link that keeps a formula well-formed. -/
def Link.WellFormed (k : Link) : Prop :=
  Connective.ofGlyph? k.glyph = some k.connective ∧ k.right.WellFormed

theorem Formula.WellFormed.foldLinks {left : Formula} (hleft : left.WellFormed) {links : List Link}
    (hlinks : ∀ k ∈ links, k.WellFormed) : (left.foldLinks links).WellFormed := by
  induction links generalizing left with
  | nil => exact hleft
  | cons k links ih =>
    obtain ⟨⟨hglyph, hright⟩, hrest⟩ := List.forall_mem_cons.1 hlinks
    rw [Formula.foldLinks_cons]
    exact ih ⟨hglyph, hleft, hright⟩ hrest

mutual

theorem IsOperand.wellFormed : ∀ {ts : List Token} {f : Formula}, IsOperand ts f →
    (∀ t ∈ ts, t.Spelt) → f.WellFormed
  | _, _, .name hk, hs => (hs _ List.mem_cons_self).name hk
  | _, _, .const _, _ => trivial
  | _, _, .negation _ ho, hs => ho.wellFormed (List.forall_mem_cons.1 hs).2
  | _, _, .group _ hc _, hs =>
    hc.wellFormed (List.forall_mem_append.1 (List.forall_mem_cons.1 hs).2).1

theorem IsChain.wellFormed : ∀ {ts : List Token} {f : Formula}, IsChain ts f →
    (∀ t ∈ ts, t.Spelt) → f.WellFormed
  | _, _, .intro ho hlinks, hs => by
    obtain ⟨hts, hus⟩ := List.forall_mem_append.1 hs
    exact (ho.wellFormed hts).foldLinks (hlinks.wellFormed hus)

theorem AreLinks.wellFormed : ∀ {ts : List Token} {links : List Link}, AreLinks ts links →
    (∀ t ∈ ts, t.Spelt) → ∀ k ∈ links, k.WellFormed
  | _, _, .nil, _ => fun _ hk => (List.not_mem_nil hk).elim
  | _, _, .cons hk ho hlinks, hs => by
    obtain ⟨ht, hs⟩ := List.forall_mem_cons.1 hs
    obtain ⟨hts, hus⟩ := List.forall_mem_append.1 hs
    exact List.forall_mem_cons.2 ⟨⟨ht.connective hk, ho.wellFormed hts⟩, hlinks.wellFormed hus⟩

end

theorem IsSentence.wellFormed {ts : List Token} {st : Statement} (h : IsSentence ts st)
    (hs : ∀ t ∈ ts, t.Spelt) : st.WellFormed := by
  obtain ⟨_, hc⟩ := h
  exact hc.wellFormed (List.forall_mem_cons.1 hs).2

namespace Statement

theorem WellFormed.read_text {s : Statement} (hs : s.WellFormed) : read false s.text = .ok s :=
  read_ok_iff.2 hs.isSentence_tokenize

theorem wellFormed_of_read {s : Statement} {text : String} (h : read false text = .ok s) : s.WellFormed :=
  (read_ok_iff.1 h).wellFormed (spelt_of_mem_tokenize text)

theorem WellFormed.text_inj {s s' : Statement} (hs : s.WellFormed) (hs' : s'.WellFormed)
    (h : s.text = s'.text) : s = s' := by
  have hread := hs.read_text
  rw [h, hs'.read_text] at hread
  exact (Except.ok.inj hread).symm

/-- A well-formed statement is read back from its text, node by node; nothing else is ever read from any
text; and texts tell well-formed statements apart. -/
theorem read_inverts_text :
    (∀ s : Statement, s.WellFormed → read false s.text = .ok s) ∧
      (∀ (text : String) (s : Statement), read false text = .ok s → s.WellFormed) ∧
      (∀ s : Statement, (∃ text, read false text = .ok s) ↔ s.WellFormed) ∧
      ∀ s s' : Statement, s.WellFormed → s'.WellFormed → s.text = s'.text → s = s' := by
  refine ⟨fun s hs => hs.read_text, fun text s h => wellFormed_of_read h, fun s => ?_,
    fun s s' hs hs' h => hs.text_inj hs' h⟩
  constructor
  · rintro ⟨text, h⟩
    exact wellFormed_of_read h
  · intro hs
    exact ⟨s.text, hs.read_text⟩

theorem read_inverts_text_of_nested :
    let s : Statement :=
      ⟨.table, .binary "<->" .iff (.binary "||" .or (.var "a1") (.not (.not (.var "_b")))) (.const false)⟩
    s.WellFormed ∧ s.text = "table ((a1 || !!_b) <-> 0)" ∧ read false s.text = .ok s := by
  intro s
  have hs : s.WellFormed := by decide
  exact ⟨hs, by decide, read_inverts_text.1 s hs⟩

end Statement

end Sentential
