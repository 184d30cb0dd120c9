import Mathlib.Data.List.Forall2
import Sentential.Parser.Basic

/-!
# Parsers in step

Two parsers whose tokens look alike, under a relation `T`, go through them in step if their grammars answer such tokens
alike (`Grammar.Alike`): they give the same formulas, stand at tokens that look alike, and record the same faults behind
those that the second one has from before (`State.Alike`). That is shown of scripts, by induction on what relates
them, and passed on from there to whole statements (`Grammar.Alike.statement`).
-/

namespace Sentential.Parser

variable {α : Type} {T : Token → Token → Prop} {earlier : List Fault}

/-- The states look alike, but for faults that the second one has from before. -/
structure State.Alike (T : Token → Token → Prop) (earlier : List Fault) (s s' : State) : Prop where
  current : Option.Rel T s.current? s'.current?
  rest : List.Forall₂ T s.rest s'.rest
  faults : s'.faults = earlier ++ s.faults

/-- There are no answers, or two that are equal and have been left in states that look alike. -/
def AnswersAlike (T : Token → Token → Prop) (earlier : List Fault) (a b : Option (α × State)) : Prop :=
  Option.Rel (fun x y => x.1 = y.1 ∧ x.2.Alike T earlier y.2) a b

/-- From states that look alike, the readers give answers that do. -/
def InStep (T : Token → Token → Prop) (earlier : List Fault) (nested nested' : Reader) : Prop :=
  ∀ level s s', s.Alike T earlier s' → AnswersAlike T earlier (nested level s) (nested' level s')

/-- The scripts make the same requests, and go on alike if the answers look alike. -/
inductive Script.Alike (T : Token → Token → Prop) : Script α → Script α → Prop
  | done (value : α) : Script.Alike T (.done value) (.done value)
  | current {next next' : Option Token → Script α} :
    (∀ t? t'?, Option.Rel T t? t'? → Script.Alike T (next t?) (next' t'?)) →
      Script.Alike T (.current next) (.current next')
  | peek {next next' : Option Token → Script α} :
    (∀ t? t'?, Option.Rel T t? t'? → Script.Alike T (next t?) (next' t'?)) → Script.Alike T (.peek next) (.peek next')
  | advance {next next' : Script α} : Script.Alike T next next' → Script.Alike T (.advance next) (.advance next')
  | report {next next' : Script α} (fault : Fault) :
    Script.Alike T next next' → Script.Alike T (.report fault next) (.report fault next')
  | expression {next next' : Option Formula → Script α} (level : Level) :
    (∀ f?, Script.Alike T (next f?) (next' f?)) → Script.Alike T (.expression level next) (.expression level next')

/-- Tokens that look alike are of one kind and spelt alike, and the grammars have scripts for them that are alike. -/
structure Grammar.Alike (T : Token → Token → Prop) (g g' : Grammar) : Prop where
  kind : ∀ {t t'}, T t t' → t.kind = t'.kind
  literal : ∀ {t t'}, T t t' → t.literal = t'.literal
  operand : ∀ {t t'}, T t t' → Option.Rel (Script.Alike T) (g.operand t.kind) (g'.operand t'.kind)
  extension : ∀ {t t'}, T t t' →
    Option.Rel (fun script script' => ∀ left, Script.Alike T (script left) (script' left))
      (g.extension t.kind) (g'.extension t'.kind)
  level : ∀ {t t'}, T t t' → g.level t.kind = g'.level t'.kind

theorem cases_of_rel {β : Type} {R : α → β → Prop} {a : Option α} {b : Option β} (h : Option.Rel R a b) :
    (a = none ∧ b = none) ∨ ∃ x y, a = some x ∧ b = some y ∧ R x y := by
  cases h with
  | none => exact .inl ⟨rfl, rfl⟩
  | some h => exact .inr ⟨_, _, rfl, rfl, h⟩

theorem rel_eq_iff {a b : Option α} : Option.Rel Eq a b ↔ a = b := by
  constructor
  · intro h
    rcases cases_of_rel h with ⟨rfl, rfl⟩ | ⟨x, y, rfl, rfl, rfl⟩ <;> rfl
  · rintro rfl
    cases a with
    | none => exact .none
    | some x => exact .some rfl

theorem rel_mono {β : Type} {R R' : α → β → Prop} {a : Option α} {b : Option β} (hR : ∀ x y, R x y → R' x y)
    (h : Option.Rel R a b) : Option.Rel R' a b := by
  cases h with
  | none => exact .none
  | some h => exact .some (hR _ _ h)

/-- Scripts that go on alike on more tokens do so on fewer. -/
theorem Script.Alike.mono {T' : Token → Token → Prop} (hT : ∀ t t', T' t t' → T t t') {script script' : Script α}
    (h : Script.Alike T script script') : Script.Alike T' script script' := by
  induction h with
  | done value => exact .done value
  | current _ ih => exact .current fun t? t'? ht => ih t? t'? (rel_mono hT ht)
  | peek _ ih => exact .peek fun t? t'? ht => ih t? t'? (rel_mono hT ht)
  | advance _ ih => exact .advance ih
  | report fault _ ih => exact .report fault ih
  | expression level _ ih => exact .expression level ih

theorem Script.alike_refl (script : Script α) : Script.Alike Eq script script := by
  induction script with
  | done value => exact .done value
  | current next ih => exact .current fun t? t'? ht => rel_eq_iff.1 ht ▸ ih t?
  | peek next ih => exact .peek fun t? t'? ht => rel_eq_iff.1 ht ▸ ih t?
  | advance next ih => exact .advance ih
  | report fault next ih => exact .report fault ih
  | expression level next ih => exact .expression level ih

/-- On the same tokens every grammar goes on as itself. -/
theorem Grammar.alike_refl (g : Grammar) : g.Alike Eq g where
  kind h := by rw [h]
  literal h := by rw [h]
  operand {t t'} h := by
    subst h
    cases g.operand t.kind with
    | none => exact .none
    | some script => exact .some script.alike_refl
  extension {t t'} h := by
    subst h
    cases g.extension t.kind with
    | none => exact .none
    | some script => exact .some fun left => (script left).alike_refl
  level h := by rw [h]

namespace AnswersAlike

theorem cases {a b : Option (α × State)} (h : AnswersAlike T earlier a b) :
    (a = none ∧ b = none) ∨ ∃ x s s', a = some (x, s) ∧ b = some (x, s') ∧ s.Alike T earlier s' := by
  rcases cases_of_rel h with hnone | ⟨⟨x, s⟩, ⟨y, s'⟩, rfl, rfl, he, hs⟩
  · exact .inl hnone
  · obtain rfl : x = y := he
    exact .inr ⟨x, s, s', rfl, rfl, hs⟩

theorem some_of_alike {s s' : State} (x : α) (h : s.Alike T earlier s') :
    AnswersAlike T earlier (some (x, s)) (some (x, s')) := .some ⟨rfl, h⟩

end AnswersAlike

namespace State.Alike

variable {s s' : State}

theorem mono {T' : Token → Token → Prop} (hT : ∀ t t', T t t' → T' t t') (h : s.Alike T earlier s') :
    s.Alike T' earlier s' :=
  ⟨rel_mono hT h.current, h.rest.imp hT, h.faults⟩

theorem head? {ts ts' : List Token} (h : List.Forall₂ T ts ts') : Option.Rel T ts.head? ts'.head? := by
  cases h with
  | nil => exact .none
  | cons ht _ => exact .some ht

theorem tail {ts ts' : List Token} (h : List.Forall₂ T ts ts') : List.Forall₂ T ts.tail ts'.tail := by
  cases h with
  | nil => exact .nil
  | cons _ hts => exact hts

theorem peek (h : s.Alike T earlier s') : Option.Rel T s.peek? s'.peek? := head? h.rest

theorem advance_of_rest (hrest : List.Forall₂ T s.rest s'.rest) (hfaults : s'.faults = earlier ++ s.faults) :
    s.advance.Alike T earlier s'.advance := ⟨head? hrest, tail hrest, hfaults⟩

theorem advance (h : s.Alike T earlier s') : s.advance.Alike T earlier s'.advance := advance_of_rest h.rest h.faults

theorem report (h : s.Alike T earlier s') (fault : Fault) : (s.report fault).Alike T earlier (s'.report fault) := by
  refine ⟨h.current, h.rest, ?_⟩
  rw [State.report, State.report, h.faults, List.append_assoc]

theorem pending_eq (h : s.Alike T earlier s') : s.pending = s'.pending := by
  have hcurrent : s.current?.toList.length = s'.current?.toList.length := by
    rcases cases_of_rel h.current with ⟨hs, hs'⟩ | ⟨t, t', hs, hs', -⟩
    · rw [hs, hs']
    · rw [hs, hs']
      rfl
  rw [State.pending, State.pending, hcurrent, h.rest.length_eq]

end State.Alike

variable {nested nested' : Reader} {s s' : State}

theorem Script.Alike.run (hn : InStep T earlier nested nested') {script script' : Script α}
    (h : Script.Alike T script script') (hs : s.Alike T earlier s') :
    AnswersAlike T earlier (script.run nested s) (script'.run nested' s') := by
  induction h generalizing s s' with
  | done value => exact .some_of_alike value hs
  | current _ ih => exact ih _ _ hs.current hs
  | peek _ ih => exact ih _ _ hs.peek hs
  | advance _ ih => exact ih hs.advance
  | report fault _ ih => exact ih (hs.report fault)
  | expression level _ ih =>
    rw [Script.run, Script.run]
    rcases (hn level s s' hs).cases with ⟨ha, hb⟩ | ⟨f?, u, u', ha, hb, hu⟩
    · rw [ha, hb]
      exact .none
    · rw [ha, hb]
      exact ih f? hu

namespace Grammar.Alike

variable {g g' : Grammar}

theorem extend (h : g.Alike T g') (hn : InStep T earlier nested nested') (level : Level) (count : Nat)
    (left : Formula) (hs : s.Alike T earlier s') :
    AnswersAlike T earlier (g.extend nested level count left s) (g'.extend nested' level count left s') := by
  induction count generalizing left s s' with
  | zero => exact .some_of_alike _ hs
  | succ count ih =>
    rw [Grammar.extend, Grammar.extend]
    rcases cases_of_rel hs.peek with ⟨hp, hp'⟩ | ⟨t, t', hp, hp', ht⟩
    · rw [hp, hp']
      exact .some_of_alike _ hs
    · rw [hp, hp']
      dsimp only
      rw [h.level ht]
      split
      · rcases cases_of_rel (h.extension ht) with ⟨he, he'⟩ | ⟨script, script', he, he', hscript⟩
        · rw [he, he']
          exact .some_of_alike _ hs
        · rw [he, he']
          dsimp only
          rcases ((hscript left).run hn hs.advance).cases with ⟨ha, hb⟩ | ⟨left?, u, u', ha, hb, hu⟩
          · rw [ha, hb]
            exact .none
          · rw [ha, hb]
            cases left? with
            | none => exact .some_of_alike _ hu
            | some left => exact ih left hu
      · exact .some_of_alike _ hs

theorem readOperand (h : g.Alike T g') (hn : InStep T earlier nested nested') (hs : s.Alike T earlier s') :
    AnswersAlike T earlier (g.readOperand nested s) (g'.readOperand nested' s') := by
  unfold Grammar.readOperand
  rcases cases_of_rel hs.current with ⟨hc, hc'⟩ | ⟨t, t', hc, hc', ht⟩
  · rw [hc, hc']
    exact .some_of_alike _ (hs.report _)
  · rw [hc, hc']
    dsimp only
    rcases cases_of_rel (h.operand ht) with ⟨ho, ho'⟩ | ⟨script, script', ho, ho', hscript⟩
    · rw [ho, ho', h.literal ht]
      exact .some_of_alike _ (hs.report _)
    · rw [ho, ho']
      exact hscript.run hn hs

theorem readWith (h : g.Alike T g') (hn : InStep T earlier nested nested') :
    InStep T earlier (g.readWith nested) (g'.readWith nested') := by
  intro level s s' hs
  unfold Grammar.readWith
  rcases (h.readOperand hn hs).cases with ⟨ha, hb⟩ | ⟨left?, u, u', ha, hb, hu⟩
  · rw [ha, hb]
    exact .none
  · rw [ha, hb]
    cases left? with
    | none => exact .some_of_alike _ hu
    | some left =>
      dsimp only
      rw [hu.rest.length_eq]
      exact h.extend hn level _ left hu

theorem climb (h : g.Alike T g') (depth : Nat) : InStep T earlier (g.climb depth) (g'.climb depth) := by
  induction depth with
  | zero => exact fun _ _ _ _ => .none
  | succ depth ih => exact h.readWith ih

theorem expression (h : g.Alike T g') : InStep T earlier g.expression g'.expression := by
  intro level s s' hs
  unfold Grammar.expression
  rw [hs.pending_eq]
  exact h.climb _ level s s' hs

theorem expectEnd (h : g.Alike T g') (hs : s.Alike T earlier s') :
    (g.expectEnd s).Alike T earlier (g'.expectEnd s') := by
  unfold Grammar.expectEnd
  rcases cases_of_rel hs.peek with ⟨hp, hp'⟩ | ⟨t, t', hp, hp', ht⟩
  · rw [hp, hp']
    exact hs
  · have hsome : (g.extension t.kind).isSome = (g'.extension t'.kind).isSome := by
      rcases cases_of_rel (h.extension ht) with ⟨he, he'⟩ | ⟨_, _, he, he', -⟩
      · rw [he, he']
      · rw [he, he']
        rfl
    rw [hp, hp']
    dsimp only
    rw [hsome, h.kind ht, h.literal ht]
    split <;> exact hs.report _

/-- A statement is read from the next token on, so the current ones need not look alike. -/
theorem statement (h : g.Alike T g') (hrest : List.Forall₂ T s.rest s'.rest)
    (hfaults : s'.faults = earlier ++ s.faults) : AnswersAlike T earlier (g.statement s) (g'.statement s') := by
  have hs : s.advance.Alike T earlier s'.advance := .advance_of_rest hrest hfaults
  unfold Grammar.statement
  dsimp only
  rcases cases_of_rel hs.current with ⟨hc, hc'⟩ | ⟨t, t', hc, hc', ht⟩
  · rw [hc, hc']
    exact .some_of_alike _ (hs.report _)
  · rw [hc, hc']
    dsimp only
    rw [h.kind ht, h.literal ht]
    split
    · rcases cases_of_rel hs.peek with ⟨hp, hp'⟩ | ⟨u, u', hp, hp', -⟩
      · rw [hp, hp']
        exact .some_of_alike _ (hs.report _)
      · rw [hp, hp']
        dsimp only
        rcases (h.expression .lowest _ _ hs.advance).cases with ⟨ha, hb⟩ | ⟨f?, u, u', ha, hb, hu⟩
        · rw [ha, hb]
          exact .none
        · rw [ha, hb]
          cases f? with
          | none => exact .some_of_alike _ hu
          | some f => exact .some_of_alike _ (h.expectEnd hu)
    · exact .some_of_alike _ (hs.report _)

end Grammar.Alike

end Sentential.Parser
