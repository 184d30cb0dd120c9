import Sentential.Parser.Script
import Sentential.Proofs.Phrases

/-!
# Phrases of several levels

The language of statements where every connective binds at a level of its own choice:

    statement  := command lowest
    lowest     := connective (c connective)*   for the c that bind at `connective`
    connective := negation (c negation)*       for the c that bind at `negation`
    negation   := bang negation | name | const | openParen lowest closeParen

So a chain falls into runs whose operands are joined by the tightest connectives; each run is folded from the
left, and then the chain of the runs is. A connective that binds at `lowest` joins nothing. The tokens are those
of the language in which all connectives bind alike, less such connectives
(`exists_isSentenceAt_iff`); only the formulas differ.
-/

namespace Sentential

open Sentential.Parser (Level)

namespace Parser.Level

theorem eq_of_rank_eq {a b : Level} (h : a.rank = b.rank) : a = b := by
  cases a <;> cases b <;> first | rfl | cases h

theorem rank_le (level : Level) : level.rank ≤ Level.negation.rank := by
  cases level <;> decide

/-- Below a level that is tighter than another one there is a next one. -/
theorem exists_rank_eq_succ {outer inner : Level} (h : outer < inner) :
    ∃ below : Level, inner.rank = below.rank + 1 := by
  cases inner with
  | lowest => exact absurd h (Nat.not_lt_zero _)
  | connective => exact ⟨.lowest, rfl⟩
  | negation => exact ⟨.connective, rfl⟩

end Parser.Level

theorem Formula.foldLinks_append (left : Formula) (links more : List Link) :
    left.foldLinks (links ++ more) = (left.foldLinks links).foldLinks more := List.foldl_append

theorem AreLinks.append {ts us : List Token} {links more : List Link} (h : AreLinks ts links)
    (hmore : AreLinks us more) : AreLinks (ts ++ us) (links ++ more) := by
  induction links generalizing ts with
  | nil => cases h; exact hmore
  | cons k links ih =>
    cases h with
    | cons hk ho hlinks =>
      rw [List.cons_append, List.append_assoc]
      exact .cons hk ho (ih hlinks)

theorem IsChain.append {ts us : List Token} {f : Formula} {links : List Link} (h : IsChain ts f)
    (hlinks : AreLinks us links) : ∃ g, IsChain (ts ++ us) g := by
  obtain ⟨ho, hmore⟩ := h
  rw [List.append_assoc]
  exact ⟨_, .intro ho (hmore.append hlinks)⟩

mutual

/-- A phrase of a level, for the levels at which the connectives bind. -/
inductive IsPhrase (levels : Connective → Level) : Level → List Token → Formula → Prop
  | name {t : Token} : t.kind = .name → IsPhrase levels .negation [t] (.var t.literal)
  | const {t : Token} {value : Bool} : t.kind = .const value → IsPhrase levels .negation [t] (.const value)
  | negation {t : Token} {ts : List Token} {f : Formula} :
    t.kind = .bang → IsPhrase levels .negation ts f → IsPhrase levels .negation (t :: ts) (.not f)
  | group {t t' : Token} {ts : List Token} {f : Formula} :
    t.kind = .openParen → IsPhrase levels .lowest ts f → t'.kind = .closeParen →
      IsPhrase levels .negation (t :: (ts ++ [t'])) f
  | joined {outer inner : Level} {ts us : List Token} {f : Formula} {links : List Link} :
    inner.rank = outer.rank + 1 → IsPhrase levels inner ts f → AreJoined levels inner us links →
      IsPhrase levels outer (ts ++ us) (f.foldLinks links)

/-- Phrases of a level, each behind a connective that binds at this level. -/
inductive AreJoined (levels : Connective → Level) : Level → List Token → List Link → Prop
  | nil {level : Level} : AreJoined levels level [] []
  | cons {level : Level} {t : Token} {c : Connective} {ts us : List Token} {f : Formula} {links : List Link} :
    t.kind = .connective c → levels c = level → IsPhrase levels level ts f → AreJoined levels level us links →
      AreJoined levels level (t :: (ts ++ us)) (⟨t.literal, c, f⟩ :: links)

end

inductive IsSentenceAt (levels : Connective → Level) : List Token → Statement → Prop
  | intro {t : Token} {c : Command} {ts : List Token} {f : Formula} :
    t.kind = .command c → IsPhrase levels .lowest ts f → IsSentenceAt levels (t :: ts) ⟨c, f⟩

/-- All connectives among the tokens bind. -/
def AllBind (levels : Connective → Level) (ts : List Token) : Prop :=
  ∀ t ∈ ts, ∀ c, t.kind = .connective c → levels c ≠ .lowest

variable {levels : Connective → Level} {level outer inner : Level} {ts us : List Token} {f : Formula}

theorem allBind_cons {t : Token} :
    AllBind levels (t :: ts) ↔ (∀ c, t.kind = .connective c → levels c ≠ .lowest) ∧ AllBind levels ts :=
  List.forall_mem_cons

/-- What is no connective need not bind. -/
theorem allBind_cons_of_kind {t : Token} {kind : Token.Kind} (hk : t.kind = kind) (hkind : ∀ c, kind ≠ .connective c) :
    AllBind levels (t :: ts) ↔ AllBind levels ts :=
  allBind_cons.trans (and_iff_right fun c hc => absurd (hk.symm.trans hc) (hkind c))

theorem allBind_append : AllBind levels (ts ++ us) ↔ AllBind levels ts ∧ AllBind levels us :=
  List.forall_mem_append

theorem AreJoined.append {links more : List Link} (h : AreJoined levels level ts links)
    (hmore : AreJoined levels level us more) : AreJoined levels level (ts ++ us) (links ++ more) := by
  induction links generalizing ts with
  | nil => cases h; exact hmore
  | cons k links ih =>
    cases h with
    | cons hk hc hf hlinks =>
      rw [List.cons_append, List.append_assoc]
      exact .cons hk hc hf (ih hlinks)

namespace IsPhrase

theorem ne_nil : ∀ {level : Level} {ts : List Token} {f : Formula}, IsPhrase levels level ts f → ts ≠ []
  | _, _, _, .name _ => List.cons_ne_nil _ _
  | _, _, _, .const _ => List.cons_ne_nil _ _
  | _, _, _, .negation _ _ => List.cons_ne_nil _ _
  | _, _, _, .group _ _ _ => List.cons_ne_nil _ _
  | _, _, _, .joined _ hf _ => fun hnil => hf.ne_nil (List.append_eq_nil_iff.1 hnil).1

/-- A phrase is one of each level that is not tighter. -/
theorem loosen {outer inner : Level} (h : IsPhrase levels inner ts f) (hle : outer.rank ≤ inner.rank) :
    IsPhrase levels outer ts f := by
  rcases Nat.lt_or_eq_of_le hle with hlt | heq
  · obtain ⟨below, hbelow⟩ := Level.exists_rank_eq_succ hlt
    have hf := IsPhrase.joined hbelow h .nil
    rw [List.append_nil] at hf
    exact hf.loosen (by omega)
  · rwa [Level.eq_of_rank_eq heq]
termination_by inner.rank

/-- A chain goes on with a connective of its level. -/
theorem link {t : Token} {c : Connective} {g : Formula} (h : IsPhrase levels outer ts f)
    (hrank : inner.rank = outer.rank + 1) (hk : t.kind = .connective c) (hc : levels c = inner)
    (hg : IsPhrase levels inner us g) : IsPhrase levels outer (ts ++ t :: us) (.binary t.literal c f g) := by
  cases h with
  | joined hrank' hf hlinks =>
    obtain rfl := Level.eq_of_rank_eq (hrank.trans hrank'.symm)
    have hmore := hlinks.append (.cons hk hc hg .nil)
    have hjoined := IsPhrase.joined hrank hf hmore
    rwa [Formula.foldLinks_append, List.append_nil, ← List.append_assoc] at hjoined
  | _ => exact absurd inner.rank_le (by rw [hrank]; decide)

end IsPhrase

mutual

/-- Where the levels are forgotten, a phrase is a chain. -/
theorem IsPhrase.exists_isChain : ∀ {level : Level} {ts : List Token} {f : Formula},
    IsPhrase levels level ts f →
      AllBind levels ts ∧ ∃ g, IsChain ts g ∧ (level = .negation → IsOperand ts g)
  | _, _, _, .name hk =>
    ⟨(allBind_cons_of_kind hk nofun).2 nofun, _, .of_operand (.name hk), fun _ => .name hk⟩
  | _, _, _, .const hk =>
    ⟨(allBind_cons_of_kind hk nofun).2 nofun, _, .of_operand (.const hk), fun _ => .const hk⟩
  | _, _, _, .negation hk hf => by
    obtain ⟨hbind, g, -, ho⟩ := hf.exists_isChain
    have hneg := IsOperand.negation hk (ho rfl)
    exact ⟨(allBind_cons_of_kind hk nofun).2 hbind, _, .of_operand hneg, fun _ => hneg⟩
  | _, _, _, .group hk hf hk' => by
    obtain ⟨hbind, g, hc, -⟩ := hf.exists_isChain
    have hgroup := IsOperand.group hk hc hk'
    have hclose : AllBind levels [_] := (allBind_cons_of_kind hk' nofun).2 nofun
    exact ⟨(allBind_cons_of_kind hk nofun).2 (allBind_append.2 ⟨hbind, hclose⟩), _, .of_operand hgroup, fun _ => hgroup⟩
  | _, _, _, @IsPhrase.joined _ outer inner ts us f links hrank hf hlinks => by
    obtain ⟨hbind, g, hc, -⟩ := hf.exists_isChain
    obtain ⟨hbind', links', hlinks'⟩ := hlinks.exists_areLinks (by omega)
    obtain ⟨g', hg'⟩ := hc.append hlinks'
    refine ⟨allBind_append.2 ⟨hbind, hbind'⟩, g', hg', ?_⟩
    rintro rfl
    exact absurd inner.rank_le (by rw [hrank]; decide)

theorem AreJoined.exists_areLinks : ∀ {level : Level} {us : List Token} {links : List Link},
    AreJoined levels level us links → 0 < level.rank → AllBind levels us ∧ ∃ links', AreLinks us links'
  | _, _, _, .nil, _ => ⟨nofun, _, .nil⟩
  | level, _, _, @AreJoined.cons _ _ t c ts us f links hk hc hf hlinks, hpos => by
    obtain ⟨hbind, g, ⟨ho, hmore⟩, -⟩ := hf.exists_isChain
    obtain ⟨hbind', links', hlinks'⟩ := hlinks.exists_areLinks hpos
    refine ⟨allBind_cons.2 ⟨fun c' hc' => ?_, allBind_append.2 ⟨hbind, hbind'⟩⟩, ?_⟩
    · cases hk.symm.trans hc'
      rintro hlow
      rw [← hc, hlow] at hpos
      exact absurd hpos (by decide)
    · rw [List.append_assoc]
      exact ⟨_, .cons hk ho (hmore.append hlinks')⟩

end

mutual

theorem IsOperand.exists_isPhrase : ∀ {ts : List Token} {f : Formula}, IsOperand ts f → AllBind levels ts →
    ∃ g, IsPhrase levels .negation ts g
  | _, _, .name hk, _ => ⟨_, .name hk⟩
  | _, _, .const hk, _ => ⟨_, .const hk⟩
  | _, _, .negation hk ho, h => by
    obtain ⟨g, hg⟩ := ho.exists_isPhrase (allBind_cons.1 h).2
    exact ⟨_, .negation hk hg⟩
  | _, _, .group hk hc hk', h => by
    obtain ⟨g, hg⟩ := hc.exists_isPhrase (allBind_append.1 (allBind_cons.1 h).2).1
    exact ⟨_, .group hk hg hk'⟩

theorem IsChain.exists_isPhrase : ∀ {ts : List Token} {f : Formula}, IsChain ts f → AllBind levels ts →
    ∃ g, IsPhrase levels .lowest ts g
  | _, _, .intro ho hlinks, h => by
    obtain ⟨hts, hus⟩ := allBind_append.1 h
    obtain ⟨g, hg⟩ := ho.exists_isPhrase hts
    obtain ⟨tight, loose, first, more, rfl, hfirst, hmore⟩ := hlinks.exists_areJoined hus
    rw [← List.append_assoc]
    exact ⟨_, .joined rfl (.joined rfl hg hfirst) hmore⟩

/-- The tightest connectives at the front belong to the run that has begun, and the others begin new runs. -/
theorem AreLinks.exists_areJoined : ∀ {us : List Token} {links : List Link}, AreLinks us links →
    AllBind levels us →
    ∃ tight loose first more, us = tight ++ loose ∧ AreJoined levels .negation tight first ∧
      AreJoined levels .connective loose more
  | _, _, .nil, _ => ⟨[], [], [], [], rfl, .nil, .nil⟩
  | _, _, @AreLinks.cons t c ts us f links hk ho hlinks, h => by
    obtain ⟨ht, h⟩ := allBind_cons.1 h
    obtain ⟨hts, hus⟩ := allBind_append.1 h
    obtain ⟨g, hg⟩ := ho.exists_isPhrase hts
    obtain ⟨tight, loose, first, more, rfl, hfirst, hmore⟩ := hlinks.exists_areJoined hus
    cases hc : levels c with
    | lowest => exact absurd hc (ht c hk)
    | connective =>
      refine ⟨[], t :: (ts ++ tight ++ loose), [], _, by simp, .nil, .cons hk hc (.joined rfl hg hfirst) hmore⟩
    | negation => exact ⟨t :: (ts ++ tight), loose, _, more, by simp, .cons hk hc hg hfirst, hmore⟩

end

/-- Tokens form a statement exactly if they do where all connectives bind alike, and all of theirs bind. -/
theorem exists_isSentenceAt_iff :
    (∃ st, IsSentenceAt levels ts st) ↔ (∃ st, IsSentence ts st) ∧ AllBind levels ts := by
  constructor
  · rintro ⟨st, hk, hf⟩
    obtain ⟨hbind, g, hc, -⟩ := hf.exists_isChain
    exact ⟨⟨_, .intro hk hc⟩, (allBind_cons_of_kind hk nofun).2 hbind⟩
  · rintro ⟨⟨st, hk, hc⟩, h⟩
    obtain ⟨g, hg⟩ := hc.exists_isPhrase (allBind_cons.1 h).2
    exact ⟨_, .intro hk hg⟩

end Sentential
