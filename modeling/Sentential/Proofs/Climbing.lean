import Sentential.Proofs.Levels
import Sentential.Proofs.Sentences

/-!
# Connectives at levels of their own

A client may register the connectives anew, each at a level of its choice, with a script that reads the operand
behind the connective at this level (`Grammar.levelled`). What is read then are the phrases of these levels
(`levelled_expression_eq_some_iff`): by recursion on the phrase every phrase is read, and by induction on the
number of tokens left nothing else is. The invariant of the second half is that the tokens passed so far are a
phrase of a level at which the next connective does not bind too tightly to go on with it.
-/

namespace Sentential.Parser

/-- What extends a formula by a connective that is registered at the level. -/
def joinAt (level : Level) (left : Formula) : Script (Option Formula) :=
  .current fun
    | some t => .advance (.expression level fun f? => .done (f?.bind (Formula.ofGlyph? t.literal left)))
    | none => .done none

namespace Grammar

/-- The standard grammar with the four connectives registered anew. -/
def levelled (levels : Connective → Level) : Grammar :=
  [.or, .and, .implies, .iff].foldl
    (fun g c => g.withExtension (.connective c) (levels c) (joinAt (levels c))) standard

/-- Extends `left` as often as the tokens that are left allow. -/
def extendAll (g : Grammar) (level : Level) (left : Formula) (s : State) : Option (Option Formula × State) :=
  g.extend g.expression level s.rest.length left s

/-- No connective that binds tighter than the level comes next. -/
def StopsAt (levels : Connective → Level) (level : Level) (rest : List Token) : Prop :=
  ∀ t ∈ rest.head?, ∀ c, t.kind = .connective c → ¬ level < levels c

variable {levels : Connective → Level} {level outer inner : Level} {nested : Reader} {t : Token} {t? : Option Token}
  {ts rest : List Token} {left f : Formula} {faults : List Fault} {s : State}

theorem levelled_level_connective (c : Connective) : (levelled levels).level (.connective c) = levels c := by
  cases c <;> rfl

theorem levelled_extension_connective (c : Connective) :
    (levelled levels).extension (.connective c) = some (joinAt (levels c)) := by
  cases c <;> rfl

theorem levelled_extension_other {kind : Token.Kind} (h : ∀ c, kind ≠ .connective c) :
    (levelled levels).extension kind = none := by
  cases kind with
  | connective c => exact absurd rfl (h c)
  | _ => rfl

theorem guarded_levelled : (levelled levels).Guarded := guarded_standard

theorem levelled_readOperand : (levelled levels).readOperand nested s = standard.readOperand nested s := rfl

namespace StopsAt

theorem mono (h : StopsAt levels outer rest) (hle : outer.rank ≤ inner.rank) : StopsAt levels inner rest :=
  fun t ht c hk hlt => h t ht c hk (Nat.lt_of_le_of_lt hle hlt)

/-- Nothing binds tighter than a negation. -/
theorem negation : StopsAt levels .negation rest :=
  fun _ _ c _ hlt => absurd (levels c).rank_le (Nat.not_le.2 hlt)

theorem of_stops (h : Stops rest) : StopsAt levels level rest := fun t ht c hk => absurd hk (h t ht c)

theorem of_connective {c : Connective} (hk : t.kind = .connective c) (h : ¬ level < levels c) :
    StopsAt levels level (t :: rest) := by
  intro u hu c' hc'
  cases hu
  cases hk.symm.trans hc'
  exact h

end StopsAt

theorem stopsAt_of_areJoined {us : List Token} {links : List Link} (h : AreJoined levels level us links)
    (hstops : StopsAt levels level rest) : StopsAt levels level (us ++ rest) := by
  cases h with
  | nil => exact hstops
  | cons hk hc => exact .of_connective hk (by rw [hc]; exact Nat.lt_irrefl _)

theorem stopsAt_or_connective (levels : Connective → Level) (level : Level) (ts : List Token) :
    StopsAt levels level ts ∨ ∃ t c us, ts = t :: us ∧ t.kind = .connective c ∧ level < levels c := by
  rcases stops_or_connective ts with hstops | ⟨t, c, us, rfl, hk⟩
  · exact .inl (.of_stops hstops)
  · by_cases hlt : level < levels c
    · exact .inr ⟨t, c, us, rfl, hk, hlt⟩
    · exact .inl (.of_connective hk hlt)

theorem extendAll_of_stopsAt (h : StopsAt levels level rest) :
    (levelled levels).extendAll level left ⟨t?, rest, faults⟩ = some (some left, ⟨t?, rest, faults⟩) := by
  cases rest with
  | nil => rfl
  | cons t rest =>
    rw [extendAll, List.length_cons, extend]
    show (if level < (levelled levels).level t.kind then _ else _) = _
    by_cases hconn : ∃ c, t.kind = .connective c
    · obtain ⟨c, hk⟩ := hconn
      rw [hk, levelled_level_connective, if_neg (h t rfl c hk)]
    · rw [levelled_extension_other (not_exists.1 hconn)]
      split <;> rfl

theorem levelled_extend_connective {c : Connective} (hk : t.kind = .connective c)
    (hglyph : Connective.ofGlyph? t.literal = some c) (hlt : level < levels c) (count : Nat) :
    (levelled levels).extend nested level (count + 1) left ⟨t?, t :: ts, faults⟩ =
      (nested (levels c) (.facing ts faults)).bind
        ((levelled levels).extendWith nested level count t.literal c left) := by
  rw [extend]
  show (if level < (levelled levels).level t.kind then _ else _) = _
  rw [hk, levelled_level_connective, if_pos hlt, levelled_extension_connective]
  simp only [joinAt, Script.run, State.advance_eq, State.facing_cons]
  cases nested (levels c) (.facing ts faults) with
  | none => rfl
  | some answer =>
    obtain ⟨right?, s⟩ := answer
    cases right? with
    | none => rfl
    | some right => simp [Formula.ofGlyph?, hglyph, extendWith]

/-- A connective that binds tighter goes on with the formula, if an operand of its level comes behind it. -/
theorem extendAll_of_expression {c : Connective} {right : Formula} (hk : t.kind = .connective c)
    (hglyph : Connective.ofGlyph? t.literal = some c) (hlt : level < levels c)
    (hread : (levelled levels).expression (levels c) (.facing ts faults) = some (some right, s)) :
    (levelled levels).extendAll level left ⟨t?, t :: ts, faults⟩ =
      (levelled levels).extendAll level (.binary t.literal c left right) s := by
  have honward : Onward (levelled levels).expression := reaches_of_expression
  have hle : s.rest.length ≤ ts.tail.length := (honward hread).rest_suffix.length_le
  rw [extendAll, List.length_cons, levelled_extend_connective hk hglyph hlt, hread]
  exact extend_count_congr honward level _ (Nat.le_trans hle (List.tail_suffix ts).length_le) (Nat.le_refl _)

theorem exists_of_extendAll {c : Connective} (hk : t.kind = .connective c)
    (hglyph : Connective.ofGlyph? t.literal = some c) (hlt : level < levels c)
    (h : (levelled levels).extendAll level left ⟨t?, t :: ts, faults⟩ = some (some f, s)) :
    ∃ right s', (levelled levels).expression (levels c) (.facing ts faults) = some (some right, s') ∧
      (levelled levels).extendAll level (.binary t.literal c left right) s' = some (some f, s) := by
  have hext := h
  rw [extendAll, List.length_cons, levelled_extend_connective hk hglyph hlt] at hext
  obtain ⟨⟨right?, s'⟩, hread, hext⟩ := Option.bind_eq_some_iff.1 hext
  cases right? with
  | none => cases hext
  | some right => exact ⟨right, s', hread, (extendAll_of_expression hk hglyph hlt hread).symm.trans h⟩

theorem levelled_expression_of_readOperand
    (h : standard.readOperand (levelled levels).expression s = some (some f, ⟨t?, rest, faults⟩)) :
    (levelled levels).expression level s = (levelled levels).extendAll level f ⟨t?, rest, faults⟩ := by
  rw [guarded_levelled.expression_eq, readWith, levelled_readOperand, h]
  rfl

mutual

/-- A phrase is read from its tokens, and what comes behind it may go on with it, if nothing that comes behind it
binds tighter than its own connectives. -/
theorem expression_of_isPhrase : ∀ {level : Level} {ts : List Token} {f : Formula},
    IsPhrase levels level ts f → (∀ t ∈ ts, t.Spelt) → ∀ (outer : Level) (rest : List Token) (faults : List Fault),
    outer.rank ≤ level.rank → (∀ inner, level < inner → StopsAt levels inner rest) →
    (levelled levels).expression outer (.facing (ts ++ rest) faults) =
      (levelled levels).extendAll outer f ⟨ts.getLast?, rest, faults⟩
  | _, _, _, .name hk, _, outer, rest, faults, _, _ => levelled_expression_of_readOperand (readOperand_name hk)
  | _, _, _, .const hk, _, outer, rest, faults, _, _ => levelled_expression_of_readOperand (readOperand_const hk)
  | _, _, _, @IsPhrase.negation _ t ts f hk hf, hs, outer, rest, faults, _, _ => by
    obtain ⟨ht, hts⟩ := List.forall_mem_cons.1 hs
    have hbang : t.literal = "!" := ht.bang hk
    have ih := expression_of_isPhrase hf hts .negation rest faults (Nat.le_refl _) fun _ hlt =>
      StopsAt.negation.mono (Nat.le_of_lt hlt)
    rw [extendAll_of_stopsAt .negation] at ih
    exact levelled_expression_of_readOperand (readOperand_of_negation hk hbang hf.ne_nil ih)
  | _, _, _, @IsPhrase.group _ t t' ts f hk hf hk', hs, outer, rest, faults, _, _ => by
    have hts : ∀ u ∈ ts, u.Spelt := fun u hu => hs u (List.mem_cons_of_mem _ (List.mem_append_left _ hu))
    have hstops {level : Level} : StopsAt levels level (t' :: rest) := .of_stops (.of_kind_eq hk' (fun _ => nofun) rest)
    have ih := expression_of_isPhrase hf hts .lowest (t' :: rest) faults (Nat.le_refl _) fun _ _ => hstops
    rw [extendAll_of_stopsAt hstops] at ih
    exact levelled_expression_of_readOperand (readOperand_of_group hk hk' ih)
  | _, _, _, @IsPhrase.joined _ level inner ts us f links hrank hf hlinks, hs, outer, rest, faults, hle, hstops => by
    obtain ⟨hts, hus⟩ := List.forall_mem_append.1 hs
    have hlt : level < inner := by rw [Level.lt_iff]; omega
    have hstops' : StopsAt levels inner (us ++ rest) := stopsAt_of_areJoined hlinks (hstops inner hlt)
    have ih := expression_of_isPhrase hf hts outer (us ++ rest) faults (by omega) fun _ hlt =>
      hstops'.mono (Nat.le_of_lt hlt)
    rw [List.append_assoc, ih, List.getLast?_append]
    exact extendAll_of_areJoined hlinks hus rest faults (Nat.lt_of_le_of_lt hle hlt) (hstops inner hlt) f _

theorem extendAll_of_areJoined : ∀ {level : Level} {us : List Token} {links : List Link},
    AreJoined levels level us links → (∀ t ∈ us, t.Spelt) → ∀ (rest : List Token) (faults : List Fault)
    {outer : Level}, outer < level → StopsAt levels level rest → ∀ (left : Formula) (t? : Option Token),
    (levelled levels).extendAll outer left ⟨t?, us ++ rest, faults⟩ =
      (levelled levels).extendAll outer (left.foldLinks links) ⟨us.getLast?.or t?, rest, faults⟩
  | _, _, _, .nil, _, rest, faults, _, _, _, left, t? => rfl
  | _, _, _, @AreJoined.cons _ level t c ts us f links hk hc hf hlinks, hs, rest, faults, outer, hlt, hstops,
    left, t? => by
    obtain ⟨ht, hs⟩ := List.forall_mem_cons.1 hs
    obtain ⟨hts, hus⟩ := List.forall_mem_append.1 hs
    have hglyph : Connective.ofGlyph? t.literal = some c := ht.connective hk
    have hstops' : StopsAt levels level (us ++ rest) := stopsAt_of_areJoined hlinks hstops
    have ih := expression_of_isPhrase hf hts level (us ++ rest) faults (Nat.le_refl _) fun _ hlt =>
      hstops'.mono (Nat.le_of_lt hlt)
    rw [extendAll_of_stopsAt hstops', ← hc] at ih
    rw [List.cons_append, List.append_assoc, extendAll_of_expression hk hglyph (hc ▸ hlt) ih, getLast?_link hf.ne_nil]
    exact extendAll_of_areJoined hlinks hus rest faults hlt hstops _ _

end

/-- A formula read from the tokens is that of a phrase at their front, which has been passed, and which cannot go
on. -/
def SoundAtLevels (levels : Connective → Level) (ts : List Token) : Prop :=
  ∀ {outer : Level} {faults : List Fault} {f : Formula} {s : State},
    (levelled levels).expression outer (.facing ts faults) = some (some f, s) →
      ∃ used rest, ts = used ++ rest ∧ IsPhrase levels outer used f ∧ StopsAt levels outer rest ∧
        s = ⟨used.getLast?, rest, faults⟩

theorem isPhrase_of_readOperand (hs : ∀ t ∈ ts, t.Spelt)
    (ih : ∀ us, us.length < ts.length → (∀ t ∈ us, t.Spelt) → SoundAtLevels levels us)
    (h : standard.readOperand (levelled levels).expression (.facing ts faults) = some (some f, s)) :
    ∃ used rest, ts = used ++ rest ∧ IsPhrase levels .negation used f ∧ s = ⟨used.getLast?, rest, faults⟩ := by
  cases readsOperand_of_eq_some hs h with
  | @name t ts hk => exact ⟨[t], ts, rfl, .name hk, rfl⟩
  | @const t ts value hk => exact ⟨[t], ts, rfl, .const hk, rfl⟩
  | @negation t ts f s hk hread =>
    obtain ⟨used, rest, rfl, hf, -, rfl⟩ := ih ts (Nat.lt_succ_self _) (List.forall_mem_cons.1 hs).2 hread
    exact ⟨t :: used, rest, rfl, .negation hk hf, by rw [getLast?_cons_of_ne_nil hf.ne_nil]⟩
  | @group t t' ts rest f s hk hread hrest hk' =>
    obtain ⟨used, rest, rfl, hf, -, rfl⟩ := ih ts (Nat.lt_succ_self _) (List.forall_mem_cons.1 hs).2 hread
    dsimp only at hrest
    subst hrest
    refine ⟨t :: (used ++ [t']), rest, by simp, .group hk hf hk', ?_⟩
    rw [← List.cons_append, List.getLast?_concat]
    rfl

/-- If no connective comes next that binds too tightly, the phrase and what has been joined to it are a phrase of the
level below that of the connective. -/
theorem isPhrase_link {below : Level} {seen used : List Token} {c : Connective} {right : Formula}
    (hseen : IsPhrase levels level seen left) (hstops : ∀ inner, level < inner → StopsAt levels inner (t :: ts))
    (hk : t.kind = .connective c) (hbelow : (levels c).rank = below.rank + 1)
    (hright : IsPhrase levels (levels c) used right) :
    IsPhrase levels below (seen ++ t :: used) (.binary t.literal c left right) := by
  have hlevel : below.rank ≤ level.rank := Nat.le_of_not_lt fun hlt =>
    hstops below hlt t rfl c hk (by rw [Level.lt_iff]; omega)
  exact (hseen.loosen hlevel).link hbelow hk rfl hright

/-- By induction on the number of tokens left. The tokens passed are a phrase of `level`, and no connective comes
next that binds tighter than those of that phrase. -/
theorem isPhrase_of_extendAll {seen : List Token} (hs : ∀ t ∈ rest, t.Spelt)
    (ih : ∀ us, us.length < rest.length → (∀ t ∈ us, t.Spelt) → SoundAtLevels levels us)
    (hseen : IsPhrase levels level seen left) (hle : outer.rank ≤ level.rank)
    (hstops : ∀ inner, level < inner → StopsAt levels inner rest)
    (h : (levelled levels).extendAll outer left ⟨seen.getLast?, rest, faults⟩ = some (some f, s)) :
    ∃ used later, rest = used ++ later ∧ IsPhrase levels outer (seen ++ used) f ∧ StopsAt levels outer later ∧
      s = ⟨(seen ++ used).getLast?, later, faults⟩ := by
  induction hn : rest.length using Nat.strongRecOn generalizing rest seen left level with
  | ind n ihn =>
    rcases stopsAt_or_connective levels outer rest with hend | ⟨t, c, ts, rfl, hk, hlt⟩
    · rw [extendAll_of_stopsAt hend] at h
      cases h
      exact ⟨[], rest, rfl, by rw [List.append_nil]; exact hseen.loosen hle, hend, by rw [List.append_nil]⟩
    · obtain ⟨ht, hts⟩ := List.forall_mem_cons.1 hs
      have hglyph : Connective.ofGlyph? t.literal = some c := ht.connective hk
      obtain ⟨right, s', hread, h⟩ := exists_of_extendAll hk hglyph hlt h
      obtain ⟨used, later, rfl, hright, hlater, rfl⟩ := ih ts (Nat.lt_succ_self _) hts hread
      obtain ⟨below, hbelow⟩ := Level.exists_rank_eq_succ hlt
      have hnow : IsPhrase levels below (seen ++ t :: used) (.binary t.literal c left right) :=
        isPhrase_link hseen hstops hk hbelow hright
      have hlast : (seen ++ t :: used).getLast? = used.getLast? := by
        have hlink := getLast?_link (t := t) hright.ne_nil [] seen.getLast?
        rwa [List.append_nil, ← List.getLast?_append] at hlink
      have hlen : later.length < (t :: (used ++ later)).length :=
        Nat.lt_succ_of_lt (length_lt_append hright.ne_nil later)
      have hle' : outer.rank ≤ below.rank := by rw [Level.lt_iff] at hlt; omega
      rw [← hlast] at h
      obtain ⟨used', later', rfl, hf, hend, rfl⟩ :=
        ihn later.length (hn ▸ hlen) (List.forall_mem_append.1 hts).2 (fun us hus => ih us (Nat.lt_trans hus hlen))
          hnow hle' (fun inner hinner => hlater.mono (hbelow ▸ hinner)) h rfl
      have happ : seen ++ t :: (used ++ used') = seen ++ t :: used ++ used' := by simp
      exact ⟨t :: (used ++ used'), later', by simp, happ ▸ hf, hend, by rw [happ]⟩

theorem soundAtLevels (hs : ∀ t ∈ ts, t.Spelt) : SoundAtLevels levels ts := by
  induction hn : ts.length using Nat.strongRecOn generalizing ts with
  | ind n ihn =>
    have ih : ∀ us, us.length < ts.length → (∀ t ∈ us, t.Spelt) → SoundAtLevels levels us :=
      fun us hlt hus => ihn us.length (hn ▸ hlt) hus rfl
    intro outer faults f s h
    rw [guarded_levelled.expression_eq, readWith, levelled_readOperand] at h
    split at h
    · cases h
    · cases h
    · next left s' hread =>
      obtain ⟨seen, rest, rfl, hleft, rfl⟩ := isPhrase_of_readOperand hs ih hread
      have hlt := length_lt_append hleft.ne_nil rest
      obtain ⟨used, later, rfl, hf, hend, rfl⟩ :=
        isPhrase_of_extendAll (List.forall_mem_append.1 hs).2 (fun us hus => ih us (Nat.lt_trans hus hlt)) hleft
          outer.rank_le (fun _ hlt => StopsAt.negation.mono (Nat.le_of_lt hlt)) h
      exact ⟨seen ++ used, later, by simp, hf, hend, rfl⟩

/-- An expression is read exactly where a phrase of its level begins that cannot go on. -/
theorem levelled_expression_eq_some_iff (hs : ∀ t ∈ ts, t.Spelt) :
    (levelled levels).expression level (.facing ts faults) = some (some f, s) ↔
      ∃ used rest, ts = used ++ rest ∧ IsPhrase levels level used f ∧ StopsAt levels level rest ∧
        s = ⟨used.getLast?, rest, faults⟩ := by
  refine ⟨soundAtLevels hs, ?_⟩
  rintro ⟨used, rest, rfl, hf, hstops, rfl⟩
  have hread := expression_of_isPhrase hf (List.forall_mem_append.1 hs).1 level rest faults (Nat.le_refl _)
    fun _ hlt => hstops.mono (Nat.le_of_lt hlt)
  exact hread.trans (extendAll_of_stopsAt hstops)

theorem levelled_statement_iff (hs : ∀ t ∈ ts, t.Spelt) {st : Statement} :
    (∃ s, (levelled levels).statement (.ofTokens ts) = some (some st, s) ∧ s.faults = []) ↔
      IsSentenceAt levels ts st := by
  rw [statement_eq_some_iff]
  constructor
  · rintro ⟨t, us, s, rfl, hk, -, hread, -, hrest⟩
    obtain ⟨used, rest, rfl, hf, -, rfl⟩ := (levelled_expression_eq_some_iff (List.forall_mem_cons.1 hs).2).1 hread
    obtain rfl : rest = [] := hrest
    rw [List.append_nil]
    exact .intro hk hf
  · rintro ⟨hk, hf⟩
    rename_i t c us f
    refine ⟨t, us, ⟨us.getLast?, [], []⟩, rfl, hk, hf.ne_nil, ?_, rfl, rfl⟩
    exact (levelled_expression_eq_some_iff (List.forall_mem_cons.1 hs).2).2
      ⟨us, [], (List.append_nil us).symm, hf, nofun, rfl⟩

end Grammar

/-- Where the four connectives have been registered anew at any levels, parsing the tokens of a lexer gives an
answer, and that is a statement exactly if the tokens are a sentence of these levels that stands for it. It is one
exactly if the tokens are a sentence of the standard grammar in which all connectives bind. -/
theorem parse_levelled_ok_iff {l : Lexer} (h : l.Reachable) (hf : l.finished = true) (levels : Connective → Level) :
    ∃ result p, { ofLexer l with grammar := .levelled levels }.parse = some (result, p) ∧
      (∀ st, result = .ok st ↔ IsSentenceAt levels l.tokens st) ∧
      ((∃ st, result = .ok st) ↔ (∃ st, IsSentence l.tokens st) ∧ AllBind levels l.tokens) := by
  obtain ⟨result, p, hparse, hiff⟩ :=
    exists_parse_of_guarded (p := { ofLexer l with grammar := .levelled levels }) Grammar.guarded_levelled hf
  have hsentence : ∀ st, result = .ok st ↔ IsSentenceAt levels l.tokens st :=
    fun st => (hiff st).trans (Grammar.levelled_statement_iff h.spelt)
  refine ⟨result, p, hparse, hsentence, ?_⟩
  rw [← exists_isSentenceAt_iff]
  exact exists_congr hsentence

def mixedLevels : Connective → Level
  | .and => .negation
  | .iff => .lowest
  | _ => .connective

def mixed : Lexer := (Lexer.ofString "table a + b * c * !d -> (e + f * g) * h").tokenize.2

/-- The runs `b * c * !d` and `(e + f * g) * h` come before the other connectives, in the group as outside of it. -/
theorem parse_levelled_ok_of_mixed :
    mixed.Reachable ∧ mixed.finished = true ∧
      ∃ p st, { ofLexer mixed with grammar := .levelled mixedLevels }.parse = some (.ok st, p) ∧
        st.text = "table ((a + ((b * c) * !d)) -> ((e + (f * g)) * h))" ∧
        IsSentenceAt mixedLevels mixed.tokens st ∧ AllBind mixedLevels mixed.tokens := by
  have hreachable : mixed.Reachable := .tokenize (.start _)
  have hfinished : mixed.finished = true := by decide +kernel
  have htext : ({ ofLexer mixed with grammar := .levelled mixedLevels }.parse.map
      fun (answer : Except ParseError Statement × Parser) => answer.1.toOption.map Statement.text) =
        some (some "table ((a + ((b * c) * !d)) -> ((e + (f * g)) * h))") := by decide +kernel
  obtain ⟨result, p, hparse, hiff, hok⟩ := parse_levelled_ok_iff hreachable hfinished mixedLevels
  rw [hparse] at htext
  cases result with
  | error e => cases htext
  | ok st =>
    refine ⟨hreachable, hfinished, p, st, hparse, ?_, (hiff st).1 rfl, (hok.1 ⟨st, rfl⟩).2⟩
    exact Option.some.inj (Option.some.inj htext)

end Sentential.Parser
