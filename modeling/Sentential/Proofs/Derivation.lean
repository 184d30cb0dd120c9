import Sentential.Proofs.Phrases
import Sentential.Proofs.Reading
import Sentential.Proofs.Scanning

/-!
# The standard grammar reads phrases

Every phrase is read as the formula that it stands for, by recursion on the phrase, and only phrases are
read, by induction on the number of tokens left. Together (`expression_eq_some_iff`): an expression is read
from a place exactly if a phrase begins there, a whole chain at the lowest level and one operand at the
others. The last token of the phrase is the current one afterwards, and no fault has been recorded.
-/

namespace Sentential.Parser.Grammar

/-- No chain goes on with these tokens. -/
def Stops (rest : List Token) : Prop := ∀ t ∈ rest.head?, ∀ c, t.kind ≠ .connective c

variable {nested : Reader} {level : Level} {f : Formula} {rest : List Token} {faults : List Fault}

theorem stops_or_connective (ts : List Token) :
    Stops ts ∨ ∃ t c us, ts = t :: us ∧ t.kind = .connective c := by
  cases ts with
  | nil => exact .inl nofun
  | cons t us =>
    by_cases hconn : ∃ c, t.kind = .connective c
    · obtain ⟨c, hk⟩ := hconn
      exact .inr ⟨t, c, us, rfl, hk⟩
    · refine .inl fun u hu c hk => hconn ?_
      cases hu
      exact ⟨c, hk⟩

theorem extend_of_stops (h : Stops rest) (count : Nat) (left : Formula) (t? : Option Token) :
    standard.extend nested .lowest count left ⟨t?, rest, faults⟩ = some (some left, ⟨t?, rest, faults⟩) := by
  cases rest with
  | nil => exact extend_nil count left t?
  | cons t rest => exact extend_of_not_connective (h t rfl) count left t?

theorem expression_of_readOperand {s s' : State} (hl : level ≠ .lowest)
    (h : standard.readOperand standard.expression s = some (some f, s')) :
    standard.expression level s = some (some f, s') := by
  rw [standard_eq, readWith, h]
  exact extend_of_ne_lowest hl _ f s'

theorem getLast?_cons_of_ne_nil {t : Token} {ts : List Token} (h : ts ≠ []) :
    (t :: ts).getLast? = ts.getLast? := by
  rw [List.getLast?_cons, List.getLast?_eq_some_getLast h]
  rfl

theorem getLast?_link {t : Token} {ts : List Token} (h : ts ≠ []) (us : List Token) (t? : Option Token) :
    (t :: (ts ++ us)).getLast?.or t? = us.getLast?.or ts.getLast? := by
  have happ : ts ++ us ≠ [] := fun hnil => h (List.append_eq_nil_iff.1 hnil).1
  rw [getLast?_cons_of_ne_nil happ, List.getLast?_append, List.getLast?_eq_some_getLast h]
  cases us.getLast? <;> rfl

theorem Stops.of_kind_eq {t : Token} {kind : Token.Kind} (h : t.kind = kind) (hk : ∀ c, kind ≠ .connective c)
    (rest : List Token) : Stops (t :: rest) := by
  intro u hu c hc
  cases hu
  exact hk c (h.symm.trans hc)

theorem readOperand_of_negation {t : Token} {ts : List Token} (hk : t.kind = .bang) (hbang : t.literal = "!")
    (hts : ts ≠ []) (h : nested .negation (.facing (ts ++ rest) faults) = some (some f, ⟨ts.getLast?, rest, faults⟩)) :
    standard.readOperand nested (.facing (t :: ts ++ rest) faults) =
      some (some (.not f), ⟨(t :: ts).getLast?, rest, faults⟩) := by
  rw [List.cons_append, readOperand_bang hk hbang, h, getLast?_cons_of_ne_nil hts]
  rfl

theorem readOperand_of_group {t t' : Token} {ts : List Token} {t? : Option Token} (hk : t.kind = .openParen)
    (hk' : t'.kind = .closeParen)
    (h : nested .lowest (.facing (ts ++ t' :: rest) faults) = some (some f, ⟨t?, t' :: rest, faults⟩)) :
    standard.readOperand nested (.facing (t :: (ts ++ [t']) ++ rest) faults) =
      some (some f, ⟨(t :: (ts ++ [t'])).getLast?, rest, faults⟩) := by
  have happ : t :: (ts ++ [t']) ++ rest = t :: (ts ++ t' :: rest) := by simp
  have hlast : (t :: (ts ++ [t'])).getLast? = some t' := by rw [← List.cons_append, List.getLast?_concat]
  rw [happ, readOperand_openParen hk, h, hlast]
  simp [Standard.closeGroup, State.peek?, hk', State.facing_cons]

mutual

/-- An operand is read as the formula that it stands for, whatever comes behind it. -/
theorem readOperand_of_isOperand : ∀ {ts : List Token} {f : Formula}, IsOperand ts f →
    (∀ t ∈ ts, t.Spelt) → ∀ (rest : List Token) (faults : List Fault),
    standard.readOperand standard.expression (.facing (ts ++ rest) faults) =
      some (some f, ⟨ts.getLast?, rest, faults⟩)
  | _, _, .name hk, _, rest, faults => readOperand_name hk
  | _, _, .const hk, _, rest, faults => readOperand_const hk
  | _, _, @IsOperand.negation t ts f hk ho, hs, rest, faults => by
    obtain ⟨ht, hts⟩ := List.forall_mem_cons.1 hs
    have hbang : t.literal = "!" := ht.bang hk
    have ih := expression_of_readOperand (show Level.negation ≠ .lowest by decide)
      (readOperand_of_isOperand ho hts rest faults)
    exact readOperand_of_negation hk hbang ho.ne_nil ih
  | _, _, @IsOperand.group t t' ts f hk hc hk', hs, rest, faults => by
    have hts : ∀ u ∈ ts, u.Spelt := fun u hu => hs u (List.mem_cons_of_mem _ (List.mem_append_left _ hu))
    have hstops : Stops (t' :: rest) := .of_kind_eq hk' (fun c => nofun) rest
    exact readOperand_of_group hk hk' (expression_of_isChain hc hts (t' :: rest) faults hstops)

theorem expression_of_isChain : ∀ {ts : List Token} {f : Formula}, IsChain ts f →
    (∀ t ∈ ts, t.Spelt) → ∀ (rest : List Token) (faults : List Fault), Stops rest →
    standard.expression .lowest (.facing (ts ++ rest) faults) = some (some f, ⟨ts.getLast?, rest, faults⟩)
  | _, _, @IsChain.intro ts us f links ho hlinks, hs, rest, faults, hstops => by
    obtain ⟨hts, hus⟩ := List.forall_mem_append.1 hs
    have ih := readOperand_of_isOperand ho hts (us ++ rest) faults
    rw [List.append_assoc, standard_eq, readWith, ih, List.getLast?_append]
    exact extend_of_areLinks hlinks hus rest faults hstops f _ _ (Nat.le_refl _)

theorem extend_of_areLinks : ∀ {ts : List Token} {links : List Link}, AreLinks ts links →
    (∀ t ∈ ts, t.Spelt) → ∀ (rest : List Token) (faults : List Fault), Stops rest →
    ∀ (left : Formula) (t? : Option Token) (count : Nat), (ts ++ rest).length ≤ count →
    standard.extend standard.expression .lowest count left ⟨t?, ts ++ rest, faults⟩ =
      some (some (left.foldLinks links), ⟨ts.getLast?.or t?, rest, faults⟩)
  | _, _, .nil, _, rest, faults, hstops, left, t?, count, _ => extend_of_stops hstops count left t?
  | _, _, @AreLinks.cons t c ts us f links hk ho hlinks, hs, rest, faults, hstops, left, t?, count, hcount => by
    obtain ⟨ht, hs⟩ := List.forall_mem_cons.1 hs
    obtain ⟨hts, hus⟩ := List.forall_mem_append.1 hs
    have hglyph : Connective.ofGlyph? t.literal = some c := ht.connective hk
    have ih := expression_of_readOperand (show Level.connective ≠ .lowest by decide)
      (readOperand_of_isOperand ho hts (us ++ rest) faults)
    cases count with
    | zero => cases hcount
    | succ count =>
      have hlen : (us ++ rest).length ≤ count := by
        simp only [List.cons_append, List.length_cons, List.length_append] at hcount ⊢
        omega
      rw [List.cons_append, List.append_assoc, extend_connective hk hglyph, ih]
      rw [getLast?_link ho.ne_nil]
      exact extend_of_areLinks hlinks hus rest faults hstops _ _ count hlen

end

/-- What is read at a level from the front of `used ++ rest`. -/
inductive Reads : Level → List Token → Formula → List Token → Prop
  | chain {used rest : List Token} {f : Formula} :
    IsChain used f → Stops rest → Reads .lowest used f rest
  | operand {level : Level} {used rest : List Token} {f : Formula} :
    level ≠ .lowest → IsOperand used f → Reads level used f rest

theorem Reads.isOperand {used : List Token} (h : Reads level used f rest) (hl : level ≠ .lowest) :
    IsOperand used f := by
  cases h with
  | chain => exact absurd rfl hl
  | operand _ ho => exact ho

theorem Reads.isChain {used : List Token} (h : Reads .lowest used f rest) : IsChain used f ∧ Stops rest := by
  cases h with
  | chain hc hstops => exact ⟨hc, hstops⟩
  | operand hl _ => exact absurd rfl hl

/-- A formula read from the tokens is that of the phrase at their front, which has been passed. -/
def SoundAt (ts : List Token) : Prop :=
  ∀ {level : Level} {faults : List Fault} {f : Formula} {s : State},
    standard.expression level (.facing ts faults) = some (some f, s) →
      ∃ used rest, ts = used ++ rest ∧ Reads level used f rest ∧ s = ⟨used.getLast?, rest, faults⟩

theorem closeGroup_eq_some {answer : Option Formula × State} {s : State}
    (h : Standard.closeGroup answer = (some f, s)) :
    ∃ t rest, answer.1 = some f ∧ answer.2.rest = t :: rest ∧ t.kind = .closeParen ∧ s = answer.2.advance := by
  obtain ⟨f?, s'⟩ := answer
  cases f? with
  | none => cases h
  | some g =>
    obtain ⟨t?, rest, faults⟩ := s'
    cases rest with
    | nil => cases h
    | cons t rest =>
      rw [Standard.closeGroup] at h
      dsimp only [State.peek?, List.head?_cons] at h
      split at h
      · next hk => cases h; exact ⟨t, rest, rfl, rfl, hk, rfl⟩
      · cases h

/-- The ways in which an operand is read from the front of the tokens, whatever reads the expressions inside it. -/
inductive ReadsOperand (nested : Reader) (faults : List Fault) : List Token → Formula → State → Prop
  | name {t : Token} {ts : List Token} :
    t.kind = .name → ReadsOperand nested faults (t :: ts) (.var t.literal) (.facing (t :: ts) faults)
  | const {t : Token} {ts : List Token} {value : Bool} :
    t.kind = .const value → ReadsOperand nested faults (t :: ts) (.const value) (.facing (t :: ts) faults)
  | negation {t : Token} {ts : List Token} {f : Formula} {s : State} :
    t.kind = .bang → nested .negation (.facing ts faults) = some (some f, s) →
      ReadsOperand nested faults (t :: ts) (.not f) s
  | group {t t' : Token} {ts rest : List Token} {f : Formula} {s : State} :
    t.kind = .openParen → nested .lowest (.facing ts faults) = some (some f, s) → s.rest = t' :: rest →
      t'.kind = .closeParen → ReadsOperand nested faults (t :: ts) f s.advance

theorem readsOperand_of_eq_some {ts : List Token} {s : State} (hs : ∀ t ∈ ts, t.Spelt)
    (h : standard.readOperand nested (.facing ts faults) = some (some f, s)) : ReadsOperand nested faults ts f s := by
  cases ts with
  | nil =>
    rw [readOperand_nil] at h
    cases h
  | cons t ts =>
    cases hk : t.kind with
    | name =>
      rw [readOperand_name hk] at h
      cases h
      exact .name hk
    | const value =>
      rw [readOperand_const hk] at h
      cases h
      exact .const hk
    | bang =>
      have hbang : t.literal = "!" := (hs t List.mem_cons_self).bang hk
      rw [readOperand_bang hk hbang] at h
      obtain ⟨⟨a?, s'⟩, hread, he⟩ := Option.map_eq_some_iff.1 h
      cases a? with
      | none => cases he
      | some a =>
        cases he
        exact .negation hk hread
    | openParen =>
      rw [readOperand_openParen hk] at h
      obtain ⟨⟨a?, s'⟩, hread, he⟩ := Option.map_eq_some_iff.1 h
      obtain ⟨t', rest, hsome, hrest, hk', rfl⟩ := closeGroup_eq_some he
      cases hsome
      exact .group hk hread hrest hk'
    | _ =>
      rw [readOperand_other (by rw [hk]; rfl)] at h
      cases h

theorem isOperand_of_readOperand {ts : List Token} {s : State} (hs : ∀ t ∈ ts, t.Spelt)
    (ih : ∀ us, us.length < ts.length → (∀ t ∈ us, t.Spelt) → SoundAt us)
    (h : standard.readOperand standard.expression (.facing ts faults) = some (some f, s)) :
    ∃ used rest, ts = used ++ rest ∧ IsOperand used f ∧ s = ⟨used.getLast?, rest, faults⟩ := by
  cases readsOperand_of_eq_some hs h with
  | @name t ts hk => exact ⟨[t], ts, rfl, .name hk, rfl⟩
  | @const t ts value hk => exact ⟨[t], ts, rfl, .const hk, rfl⟩
  | @negation t ts f s hk hread =>
    obtain ⟨used, rest, rfl, hreads, rfl⟩ := ih ts (Nat.lt_succ_self _) (List.forall_mem_cons.1 hs).2 hread
    have ho := hreads.isOperand (by decide)
    exact ⟨t :: used, rest, rfl, .negation hk ho, by rw [getLast?_cons_of_ne_nil ho.ne_nil]⟩
  | @group t t' ts rest f s hk hread hrest hk' =>
    obtain ⟨used, rest, rfl, hreads, rfl⟩ := ih ts (Nat.lt_succ_self _) (List.forall_mem_cons.1 hs).2 hread
    dsimp only at hrest
    subst hrest
    refine ⟨t :: (used ++ [t']), rest, by simp, .group hk hreads.isChain.1 hk', ?_⟩
    rw [← List.cons_append, List.getLast?_concat]
    rfl

theorem areLinks_of_extend {count : Nat} {ts : List Token} {left : Formula} {t? : Option Token} {s : State}
    (hs : ∀ t ∈ ts, t.Spelt) (hcount : ts.length ≤ count)
    (ih : ∀ us, us.length < ts.length → (∀ t ∈ us, t.Spelt) → SoundAt us)
    (h : standard.extend standard.expression .lowest count left ⟨t?, ts, faults⟩ = some (some f, s)) :
    ∃ used rest links, ts = used ++ rest ∧ AreLinks used links ∧ Stops rest ∧ f = left.foldLinks links ∧
      s = ⟨used.getLast?.or t?, rest, faults⟩ := by
  induction count generalizing ts left t? with
  | zero =>
    obtain rfl := List.length_eq_zero_iff.1 (Nat.le_zero.1 hcount)
    cases h
    exact ⟨[], [], [], rfl, .nil, nofun, rfl, rfl⟩
  | succ count ihcount =>
    rcases stops_or_connective ts with hstops | ⟨t, c, ts, rfl, hk⟩
    · rw [extend_of_stops hstops] at h
      cases h
      exact ⟨[], ts, [], rfl, .nil, hstops, rfl, rfl⟩
    · obtain ⟨ht, hts⟩ := List.forall_mem_cons.1 hs
      have hglyph : Connective.ofGlyph? t.literal = some c := ht.connective hk
      rw [extend_connective hk hglyph] at h
      obtain ⟨⟨right?, s'⟩, hread, hext⟩ := Option.bind_eq_some_iff.1 h
      cases right? with
      | none => cases hext
      | some right =>
        obtain ⟨used, rest, rfl, hreads, rfl⟩ := ih ts (Nat.lt_succ_self _) hts hread
        have ho := hreads.isOperand (by decide)
        have hlen : rest.length < (t :: (used ++ rest)).length := Nat.lt_succ_of_lt (ho.length_lt rest)
        have hle : rest.length ≤ count := Nat.le_of_lt_succ (Nat.lt_of_lt_of_le hlen hcount)
        obtain ⟨used', rest', links, rfl, hlinks, hstops, rfl, rfl⟩ :=
          ihcount (List.forall_mem_append.1 hts).2 hle (fun us hus => ih us (Nat.lt_trans hus hlen)) hext
        refine ⟨t :: (used ++ used'), rest', _, by simp, .cons hk ho hlinks, hstops, rfl, ?_⟩
        rw [getLast?_link ho.ne_nil]

/-- By induction on the number of tokens: whatever is read inside is read from fewer. -/
theorem soundAt {ts : List Token} (hs : ∀ t ∈ ts, t.Spelt) : SoundAt ts := by
  induction hn : ts.length using Nat.strongRecOn generalizing ts with
  | ind n ih =>
    have ih' : ∀ us, us.length < ts.length → (∀ t ∈ us, t.Spelt) → SoundAt us :=
      fun us hlt hus => ih us.length (hn ▸ hlt) hus rfl
    intro level faults f s h
    rw [standard_eq, readWith] at h
    split at h
    · cases h
    · cases h
    · next left s' hread =>
      obtain ⟨used, rest, rfl, ho, rfl⟩ := isOperand_of_readOperand hs ih' hread
      by_cases hl : level = .lowest
      · subst hl
        have hlt := ho.length_lt rest
        obtain ⟨used', rest', links, rfl, hlinks, hstops, rfl, rfl⟩ :=
          areLinks_of_extend (List.forall_mem_append.1 hs).2 (Nat.le_refl _)
            (fun us hus => ih' us (Nat.lt_trans hus hlt)) h
        refine ⟨used ++ used', rest', by simp, .chain (.intro ho hlinks) hstops, ?_⟩
        rw [List.getLast?_append]
      · rw [extend_of_ne_lowest hl] at h
        cases h
        exact ⟨used, rest, rfl, .operand hl ho, rfl⟩

/-- An expression is read exactly where a phrase of its level begins, however the tokens go on behind it. -/
theorem expression_eq_some_iff {ts : List Token} (hs : ∀ t ∈ ts, t.Spelt) {s : State} :
    standard.expression level (.facing ts faults) = some (some f, s) ↔
      ∃ used rest, ts = used ++ rest ∧ Reads level used f rest ∧ s = ⟨used.getLast?, rest, faults⟩ := by
  refine ⟨soundAt hs, ?_⟩
  rintro ⟨used, rest, rfl, hreads, rfl⟩
  have hused := (List.forall_mem_append.1 hs).1
  cases hreads with
  | chain hc hstops => exact expression_of_isChain hc hused rest faults hstops
  | operand hl ho => exact expression_of_readOperand hl (readOperand_of_isOperand ho hused rest faults)

end Sentential.Parser.Grammar
