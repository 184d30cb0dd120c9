import Sentential.Proofs.Reuse
import Sentential.Proofs.Spans

/-!
# How deep expressions nest

`Grammar.expression` is given a bound on how deep expressions are nested, and on how often a formula is extended. Here
reading is described without either, by what a parser does at a place among the tokens (`Grammar.Ends`): a task that
never comes to an end is related to nothing. What is read inside an expression is kept, with the places where it
begins (`Nesting`).

The invariant is that whatever asks for an expression has moved on since the expression around it began: a script for
an operand because it is guarded, a script that extends a formula because it is started behind an operator
(`Task.Leads`). So each expression begins behind the one that it is nested in (`Ends.beyond`), whatever the scripts
do, and there is an end to it (`Guarded.exists_ends`).
-/

namespace Sentential.Parser

/-- A place among tokens, first of all before the first one, and the faults that have been recorded. -/
structure Cursor where
  place? : Option Nat
  faults : List Fault

namespace Cursor

/-- How often the parser has moved on, which is the order of the places. -/
def moved (c : Cursor) : Nat := c.place?.elim 0 (· + 1)

def current? (T : List Token) (c : Cursor) : Option Token := c.place?.bind fun i => T[i]?

def peek? (T : List Token) (c : Cursor) : Option Token := T[c.moved]?

def advance (c : Cursor) : Cursor := ⟨some c.moved, c.faults⟩

def report (c : Cursor) (fault : Fault) : Cursor := ⟨c.place?, c.faults ++ [fault]⟩

def state (T : List Token) (c : Cursor) : State := .standing T c.place? c.faults

variable {T : List Token} {c : Cursor}

@[simp] theorem moved_advance : c.advance.moved = c.moved + 1 := rfl

@[simp] theorem state_current? : (c.state T).current? = c.current? T := rfl

@[simp] theorem state_peek? : (c.state T).peek? = c.peek? T := List.head?_drop

@[simp] theorem state_advance : (c.state T).advance = c.advance.state T := State.advance_standing T c.place? c.faults

@[simp] theorem state_report (fault : Fault) : (c.state T).report fault = (c.report fault).state T := rfl

theorem state_rest : (c.state T).rest = T.drop c.moved := rfl

end Cursor

/-- Expressions that are read one after the other: where each begins, and those that are read inside it. -/
inductive Nesting where
  | none
  | expression (start : Nat) (inner later : Nesting)

namespace Nesting

def append : Nesting → Nesting → Nesting
  | none, m => m
  | expression start inner later, m => expression start inner (later.append m)

def depth : Nesting → Nat
  | none => 0
  | expression _ inner later => max (inner.depth + 1) later.depth

/-- Each expression begins behind the one that it is nested in, and those that are nested in none begin behind
`outer`. -/
def Beyond (outer : Nat) : Nesting → Prop
  | none => True
  | expression start inner later => outer < start ∧ inner.Beyond start ∧ later.Beyond outer

variable {n m : Nesting} {outer : Nat}

theorem depth_append_lt {bound : Nat} (hn : n.depth < bound) (hm : m.depth < bound) : (n.append m).depth < bound := by
  induction n with
  | none => exact hm
  | expression start inner later _ ih =>
    obtain ⟨hinner, hlater⟩ := Nat.max_lt.1 hn
    exact Nat.max_lt.2 ⟨hinner, ih hlater⟩

theorem Beyond.append (hn : n.Beyond outer) (hm : m.Beyond outer) : (n.append m).Beyond outer := by
  induction n with
  | none => exact hm
  | expression start inner later _ ih =>
    obtain ⟨hlt, hinner, hlater⟩ := hn
    exact ⟨hlt, hinner, ih hlater⟩

end Nesting

/-- What a parser may be at. -/
inductive Task where
  | expression (level : Level)
  /-- Extends a formula, if there is one. -/
  | extension (level : Level) (left? : Option Formula)
  | run (script : Script (Option Formula))

/-- What is begun where the parser has moved on `moved` times asks for no expression before it has moved on more often
than `outer` times. -/
def Task.Leads (outer moved : Nat) : Task → Prop
  | .expression _ | .extension _ _ => outer ≤ moved
  | .run script => outer < moved ∨ outer ≤ moved ∧ script.Guarded

namespace Grammar

/-- What extends a formula before a token, if that binds tighter than the level. -/
def extensionAt? (g : Grammar) (level : Level) (t? : Option Token) : Option (Formula → Script (Option Formula)) :=
  t?.bind fun t => if level < g.level t.kind then g.extension t.kind else none

/-- Begun at a cursor, a task comes to an end at another, with a formula or without one. On the way expressions have
been read. -/
inductive Ends (g : Grammar) (T : List Token) : Task → Cursor → Nesting → Option Formula → Cursor → Prop
  | done {f? : Option Formula} {c : Cursor} : Ends g T (.run (.done f?)) c .none f? c
  | current {next : Option Token → Script (Option Formula)} {c c' : Cursor} {n : Nesting} {f? : Option Formula} :
    Ends g T (.run (next (c.current? T))) c n f? c' → Ends g T (.run (.current next)) c n f? c'
  | peek {next : Option Token → Script (Option Formula)} {c c' : Cursor} {n : Nesting} {f? : Option Formula} :
    Ends g T (.run (next (c.peek? T))) c n f? c' → Ends g T (.run (.peek next)) c n f? c'
  | advance {next : Script (Option Formula)} {c c' : Cursor} {n : Nesting} {f? : Option Formula} :
    Ends g T (.run next) c.advance n f? c' → Ends g T (.run (.advance next)) c n f? c'
  | report {fault : Fault} {next : Script (Option Formula)} {c c' : Cursor} {n : Nesting} {f? : Option Formula} :
    Ends g T (.run next) (c.report fault) n f? c' → Ends g T (.run (.report fault next)) c n f? c'
  | ask {level : Level} {next : Option Formula → Script (Option Formula)} {c c' c'' : Cursor}
      {inner later : Nesting} {e? f? : Option Formula} :
    Ends g T (.expression level) c inner e? c' → Ends g T (.run (next e?)) c' later f? c'' →
      Ends g T (.run (.expression level next)) c (.expression c.moved inner later) f? c''
  | giveUp {level : Level} {c : Cursor} : Ends g T (.extension level none) c .none none c
  | stop {level : Level} {left : Formula} {c : Cursor} :
    g.extensionAt? level (c.peek? T) = none → Ends g T (.extension level (some left)) c .none (some left) c
  | goOn {level : Level} {left : Formula} {left? : Option Formula} {script : Formula → Script (Option Formula)}
      {c c' c'' : Cursor} {n later : Nesting} {f? : Option Formula} :
    g.extensionAt? level (c.peek? T) = some script → Ends g T (.run (script left)) c.advance n left? c' →
      Ends g T (.extension level left?) c' later f? c'' →
        Ends g T (.extension level (some left)) c (n.append later) f? c''
  | noToken {level : Level} {c : Cursor} :
    c.current? T = none → Ends g T (.expression level) c .none none (c.report .endOfInput)
  | noOperand {level : Level} {t : Token} {c : Cursor} :
    c.current? T = some t → g.operand t.kind = none →
      Ends g T (.expression level) c .none none (c.report (.noOperand t.literal))
  | operand {level : Level} {t : Token} {script : Script (Option Formula)} {left? : Option Formula}
      {c c' c'' : Cursor} {n later : Nesting} {f? : Option Formula} :
    c.current? T = some t → g.operand t.kind = some script → Ends g T (.run script) c n left? c' →
      Ends g T (.extension level left?) c' later f? c'' → Ends g T (.expression level) c (n.append later) f? c''

variable {g : Grammar} {T : List Token} {task : Task} {level : Level} {c c' c'' : Cursor} {n n' : Nesting}
  {f? f'? : Option Formula}

namespace Ends

/-- There is only one way to go on. -/
theorem unique (h : g.Ends T task c n f? c') (h' : g.Ends T task c n' f'? c'') : n = n' ∧ f? = f'? ∧ c' = c'' := by
  induction h generalizing n' f'? c'' with
  | done =>
    cases h'
    exact ⟨rfl, rfl, rfl⟩
  | current _ ih =>
    cases h' with
    | current h' => exact ih h'
  | peek _ ih =>
    cases h' with
    | peek h' => exact ih h'
  | advance _ ih =>
    cases h' with
    | advance h' => exact ih h'
  | report _ ih =>
    cases h' with
    | report h' => exact ih h'
  | ask _ _ ih ih' =>
    cases h' with
    | ask h₁ h₂ =>
      obtain ⟨rfl, rfl, rfl⟩ := ih h₁
      obtain ⟨rfl, rfl, rfl⟩ := ih' h₂
      exact ⟨rfl, rfl, rfl⟩
  | giveUp =>
    cases h'
    exact ⟨rfl, rfl, rfl⟩
  | stop hstop =>
    cases h' with
    | stop _ => exact ⟨rfl, rfl, rfl⟩
    | goOn hscript _ _ => cases hstop.symm.trans hscript
  | goOn hscript _ _ ih ih' =>
    cases h' with
    | stop hstop => cases hstop.symm.trans hscript
    | goOn hscript' h₁ h₂ =>
      cases hscript.symm.trans hscript'
      obtain ⟨rfl, rfl, rfl⟩ := ih h₁
      obtain ⟨rfl, rfl, rfl⟩ := ih' h₂
      exact ⟨rfl, rfl, rfl⟩
  | noToken hnone =>
    cases h' with
    | noToken _ => exact ⟨rfl, rfl, rfl⟩
    | noOperand ht _ => cases hnone.symm.trans ht
    | operand ht _ _ _ => cases hnone.symm.trans ht
  | noOperand ht hno =>
    cases h' with
    | noToken hnone => cases hnone.symm.trans ht
    | noOperand ht' _ =>
      cases ht.symm.trans ht'
      exact ⟨rfl, rfl, rfl⟩
    | operand ht' hscript _ _ =>
      cases ht.symm.trans ht'
      cases hno.symm.trans hscript
  | operand ht hscript _ _ ih ih' =>
    cases h' with
    | noToken hnone => cases hnone.symm.trans ht
    | noOperand ht' hno =>
      cases ht.symm.trans ht'
      cases hno.symm.trans hscript
    | operand ht' hscript' h₁ h₂ =>
      cases ht.symm.trans ht'
      cases hscript.symm.trans hscript'
      obtain ⟨rfl, rfl, rfl⟩ := ih h₁
      obtain ⟨rfl, rfl, rfl⟩ := ih' h₂
      exact ⟨rfl, rfl, rfl⟩

/-- The place never moves backwards. -/
theorem moved_le (h : g.Ends T task c n f? c') : c.moved ≤ c'.moved := by
  induction h with
  | done | giveUp | stop | noToken | noOperand => exact Nat.le_refl _
  | current _ ih | peek _ ih | report _ ih => exact ih
  | advance _ ih => exact Nat.le_of_succ_le ih
  | ask _ _ ih ih' => exact Nat.le_trans ih ih'
  | goOn _ _ _ ih ih' => exact Nat.le_trans (Nat.le_of_succ_le ih) ih'
  | operand _ _ _ _ ih ih' => exact Nat.le_trans ih ih'

/-- Each expression begins behind the one that it is nested in. -/
theorem beyond {outer : Nat} (hg : g.Guarded) (h : g.Ends T task c n f? c') (hlead : task.Leads outer c.moved) :
    n.Beyond outer := by
  induction h generalizing outer with
  | done | giveUp | stop _ | noToken _ | noOperand _ _ => trivial
  | current _ ih => exact ih (hlead.imp_right fun ⟨hle, hguard⟩ => ⟨hle, hguard _⟩)
  | peek _ ih => exact ih (hlead.imp_right fun ⟨hle, hguard⟩ => ⟨hle, hguard _⟩)
  | report _ ih => exact ih hlead
  | advance _ ih =>
    refine ih (.inl ?_)
    rcases hlead with hlt | ⟨hle, -⟩
    · exact Nat.lt_succ_of_lt hlt
    · exact Nat.lt_succ_of_le hle
  | ask h₁ _ ih ih' =>
    rcases hlead with hlt | ⟨-, hguard⟩
    · exact ⟨hlt, ih (Nat.le_refl _), ih' (.inl (Nat.lt_of_lt_of_le hlt h₁.moved_le))⟩
    · exact hguard.elim
  | goOn _ h₁ _ ih ih' =>
    have hle : outer ≤ Cursor.moved _ := Nat.le_trans (Nat.le_succ_of_le hlead) h₁.moved_le
    exact (ih (.inl (Nat.lt_succ_of_le hlead))).append (ih' hle)
  | operand _ hscript h₁ _ ih ih' =>
    have hguard := hg _ _ hscript
    exact (ih (.inr ⟨hlead, hguard⟩)).append (ih' (Nat.le_trans hlead h₁.moved_le))

end Ends

/-- The answer is what the task comes to, with expressions nested less than `bound` deep inside it. -/
def Traces (g : Grammar) (T : List Token) (bound : Nat) (task : Task) (c : Cursor) (f? : Option Formula) (s : State) :
    Prop :=
  ∃ n c', g.Ends T task c n f? c' ∧ n.depth < bound ∧ s = c'.state T

/-- The answers of `nested` are what expressions come to. -/
def Tracing (g : Grammar) (T : List Token) (bound : Nat) (nested : Reader) : Prop :=
  ∀ {level c f? s}, nested level (c.state T) = some (f?, s) → g.Traces T bound (.expression level) c f? s

variable {bound : Nat} {nested : Reader} {s : State}

theorem extend_succ (count : Nat) (left : Formula) : g.extend nested level (count + 1) left s =
    match g.extensionAt? level s.peek? with
    | none => some (some left, s)
    | some script =>
      match (script left).run nested s.advance with
      | none => none
      | some (none, s') => some (none, s')
      | some (some left, s') => g.extend nested level count left s' := by
  rw [extend]
  cases s.peek? with
  | none => rfl
  | some t =>
    by_cases hlt : level < g.level t.kind
    · have hext : g.extensionAt? level (some t) = g.extension t.kind := if_pos hlt
      rw [hext]
      exact if_pos hlt
    · have hext : g.extensionAt? level (some t) = none := if_neg hlt
      rw [hext]
      exact if_neg hlt

namespace Tracing

theorem run (hn : g.Tracing T bound nested) {script : Script (Option Formula)}
    (h : script.run nested (c.state T) = some (f?, s)) : g.Traces T (bound + 1) (.run script) c f? s := by
  induction script generalizing c with
  | done value =>
    cases h
    exact ⟨_, _, .done, Nat.succ_pos _, rfl⟩
  | current next ih =>
    obtain ⟨n, c', hends, hrest⟩ := ih _ h
    exact ⟨n, c', .current hends, hrest⟩
  | peek next ih =>
    rw [Script.run, Cursor.state_peek?] at h
    obtain ⟨n, c', hends, hrest⟩ := ih _ h
    exact ⟨n, c', .peek hends, hrest⟩
  | advance next ih =>
    rw [Script.run, Cursor.state_advance] at h
    obtain ⟨n, c', hends, hrest⟩ := ih h
    exact ⟨n, c', .advance hends, hrest⟩
  | report fault next ih =>
    rw [Script.run, Cursor.state_report] at h
    obtain ⟨n, c', hends, hrest⟩ := ih h
    exact ⟨n, c', .report hends, hrest⟩
  | expression level next ih =>
    rw [Script.run] at h
    split at h
    · cases h
    · next e? s' hread =>
      obtain ⟨inner, c', hinner, hlt, rfl⟩ := hn hread
      obtain ⟨later, c'', hlater, hlt', rfl⟩ := ih _ h
      exact ⟨_, c'', .ask hinner hlater, Nat.max_lt.2 ⟨Nat.succ_lt_succ hlt, hlt'⟩, rfl⟩

/-- As many extensions as there are tokens left are all that can be made. -/
theorem extend (hn : g.Tracing T bound nested) (honward : Onward nested) {left : Formula} {count : Nat}
    (hcount : (c.state T).rest.length ≤ count) (h : g.extend nested level count left (c.state T) = some (f?, s)) :
    g.Traces T (bound + 1) (.extension level (some left)) c f? s := by
  induction count generalizing c left with
  | zero =>
    have hnil : c.peek? T = none := by
      rw [← Cursor.state_peek?, State.peek?, List.length_eq_zero_iff.1 (Nat.le_zero.1 hcount)]
      rfl
    cases h
    exact ⟨_, _, .stop (by rw [hnil]; rfl), Nat.succ_pos _, rfl⟩
  | succ count ih =>
    rw [extend_succ, Cursor.state_peek?, Cursor.state_advance] at h
    split at h
    · next hstop =>
      cases h
      exact ⟨_, _, .stop hstop, Nat.succ_pos _, rfl⟩
    · next script hscript =>
      split at h
      · cases h
      · next s' hrun =>
        cases h
        obtain ⟨n, c', hends, hlt, rfl⟩ := hn.run hrun
        exact ⟨_, c', .goOn hscript hends .giveUp, Nesting.depth_append_lt hlt (Nat.succ_pos _), rfl⟩
      · next left' s' hrun =>
        have hle : s'.rest.length ≤ count := by
          have hreach := (Script.reaches_of_run honward hrun).rest_suffix.length_le
          rw [Cursor.state_rest, List.length_drop] at hcount hreach
          rw [Cursor.moved_advance] at hreach
          omega
        obtain ⟨n, c', hends, hlt, rfl⟩ := hn.run hrun
        obtain ⟨later, c'', hlater, hlt', rfl⟩ := ih hle h
        exact ⟨_, c'', .goOn hscript hends hlater, Nesting.depth_append_lt hlt hlt', rfl⟩

theorem readWith (hn : g.Tracing T bound nested) (honward : Onward nested) :
    g.Tracing T (bound + 1) (g.readWith nested) := by
  intro level c f? s h
  rw [Grammar.readWith, readOperand, Cursor.state_current?] at h
  cases ht : c.current? T with
  | none =>
    rw [ht] at h
    cases h
    exact ⟨_, _, .noToken ht, Nat.succ_pos _, rfl⟩
  | some t =>
    rw [ht] at h
    dsimp only at h
    cases hscript : g.operand t.kind with
    | none =>
      rw [hscript] at h
      cases h
      exact ⟨_, _, .noOperand ht hscript, Nat.succ_pos _, rfl⟩
    | some script =>
      rw [hscript] at h
      dsimp only at h
      split at h
      · cases h
      · next s' hrun =>
        cases h
        obtain ⟨n, c', hends, hlt, rfl⟩ := hn.run hrun
        exact ⟨_, c', .operand ht hscript hends .giveUp, Nesting.depth_append_lt hlt (Nat.succ_pos _), rfl⟩
      · next left s' hrun =>
        obtain ⟨n, c', hends, hlt, rfl⟩ := hn.run hrun
        obtain ⟨later, c'', hlater, hlt', rfl⟩ := hn.extend honward (Nat.le_refl _) h
        exact ⟨_, c'', .operand ht hscript hends hlater, Nesting.depth_append_lt hlt hlt', rfl⟩

theorem climb (g : Grammar) (T : List Token) (depth : Nat) : g.Tracing T depth (g.climb depth) := by
  induction depth with
  | zero => exact nofun
  | succ depth ih => exact ih.readWith (g.onward_climb depth)

end Tracing

/-- Under a guarded grammar every expression comes to an end, and is nested no deeper than there are tokens from the
current one on. -/
theorem Guarded.exists_ends (hg : g.Guarded) (T : List Token) (level : Level) (c : Cursor) :
    ∃ n f? c', g.Ends T (.expression level) c n f? c' ∧ g.expression level (c.state T) = some (f?, c'.state T) ∧
      n.depth ≤ (c.state T).pending := by
  obtain ⟨f?, s, hread⟩ := hg.exists_expression level (c.state T)
  obtain ⟨n, c', hends, hlt, rfl⟩ := Tracing.climb g T _ hread
  exact ⟨n, f?, c', hends, hread, Nat.le_of_lt_succ hlt⟩

theorem exists_expectEnd (g : Grammar) (T : List Token) (c : Cursor) :
    ∃ c' : Cursor, g.expectEnd (c.state T) = c'.state T ∧ c'.moved = c.moved := by
  unfold expectEnd
  split
  · exact ⟨c, rfl, rfl⟩
  · split
    · exact ⟨c.report _, Cursor.state_report _, rfl⟩
    · exact ⟨c.report _, Cursor.state_report _, rfl⟩

theorem Guarded.exists_statement_state (hg : g.Guarded) (T : List Token) (c : Cursor) :
    ∃ st?, ∃ c' : Cursor, g.statement (c.state T) = some (st?, c'.state T) ∧ c.moved ≤ c'.moved := by
  unfold statement
  simp only [Cursor.state_advance, Cursor.state_report]
  split
  · exact ⟨_, _, rfl, Nat.le_succ _⟩
  · split
    · split
      · exact ⟨_, _, rfl, Nat.le_succ _⟩
      · obtain ⟨n, f?, c', hends, hread, -⟩ := hg.exists_ends T .lowest c.advance.advance
        have hle : c.moved ≤ c'.moved := Nat.le_trans (Nat.le_add_right _ 2) hends.moved_le
        rw [hread]
        cases f? with
        | none => exact ⟨none, c', rfl, hle⟩
        | some f =>
          obtain ⟨c'', hend, hmoved⟩ := g.exists_expectEnd T c'
          exact ⟨_, c'', congrArg (fun s => some (some _, s)) hend, hmoved ▸ hle⟩
    · exact ⟨_, _, rfl, Nat.le_succ _⟩

end Grammar

open Grammar (Ends)

/-- Whatever the scripts of a grammar do, and whatever binds how tightly: if the scripts for operands move on before
they ask for an expression, reading an expression ends wherever a parser stands among whatever tokens, in one way,
and so does every parse. The place never moves backwards. An expression begins behind the one that it is nested in, so
counting the outermost one they are nested at most one deeper than there are tokens from the current one on. -/
theorem expression_nests_within_tokens {g : Grammar} (hg : g.Guarded) (T : List Token) (c : Cursor) :
    (∀ level, ∃ n f? c',
      (∀ n' f'? c'', g.Ends T (.expression level) c n' f'? c'' ↔ n' = n ∧ f'? = f? ∧ c'' = c') ∧
        g.expression level (c.state T) = some (f?, c'.state T) ∧ c.moved ≤ c'.moved ∧ n.Beyond c.moved ∧
        (Nesting.expression c.moved n .none).depth ≤ (c.state T).pending + 1) ∧
      ∀ ready, ∃ answer, ∃ c' : Cursor,
        parse ⟨g, ready, c.state T⟩ = some (answer, ⟨g, ready, c'.state T⟩) ∧ c.moved ≤ c'.moved := by
  refine ⟨fun level => ?_, fun ready => ?_⟩
  · obtain ⟨n, f?, c', hends, hread, hdepth⟩ := hg.exists_ends T level c
    refine ⟨n, f?, c', fun n' f'? c'' => ⟨fun h => h.unique hends, ?_⟩, hread, hends.moved_le,
      hends.beyond hg (Nat.le_refl _), ?_⟩
    · rintro ⟨rfl, rfl, rfl⟩
      exact hends
    · rw [Nesting.depth, Nesting.depth, Nat.max_zero]
      exact Nat.succ_le_succ hdepth
  · cases ready with
    | false => exact ⟨_, ⟨c.place?, []⟩, rfl, Nat.le_refl _⟩
    | true =>
      obtain ⟨st?, c', hstatement, hle⟩ := hg.exists_statement_state T c
      let last : Parser := ⟨g, true, c'.state T⟩
      have hparse : parse ⟨g, true, c.state T⟩ = some (last.conclude st?) := parse_of_statement rfl hstatement
      have hlast : last.conclude st? = ((last.conclude st?).1, ⟨g, true, Cursor.state T ⟨c'.place?, []⟩⟩) :=
        Prod.ext rfl (conclude_snd last st?)
      exact ⟨_, ⟨c'.place?, []⟩, hparse.trans (congrArg some hlast), hle⟩

/-- Takes the token that it meets for the beginning of a second factor. -/
def juxtapose (left : Formula) : Script (Option Formula) :=
  .expression .connective fun f? => .done (f?.map (.join .and left))

/-- A script that extends a formula without moving on, and a negation and a group that are not completed: each of the
three tokens begins an expression inside the one before, and so does the end behind them. -/
theorem expression_nests_within_tokens_of_juxtapose :
    let g : Grammar := Grammar.standard.withExtension .bang .connective juxtapose
    let T : List Token := [⟨.name, "a", 0⟩, ⟨.bang, "!", 1⟩, ⟨.openParen, "(", 2⟩]
    let n : Nesting := .expression 2 (.expression 3 (.expression 4 .none .none) .none) .none
    T = tokenize "a!(" ∧ g.Guarded ∧
      g.Ends T (.expression .lowest) ⟨some 0, []⟩ n none ⟨some 3, [.endOfInput]⟩ ∧
      g.expression .lowest (.standing T (some 0) []) = some (none, .standing T (some 3) [.endOfInput]) ∧
      n.Beyond 1 ∧ (Nesting.expression 1 n .none).depth = 3 + 1 ∧
      ∃ answer, ∃ c' : Cursor, parse ⟨g, true, .standing T none []⟩ = some (answer, ⟨g, true, c'.state T⟩) := by
  intro g T n
  have hg : g.Guarded := Grammar.guarded_standard
  have hopen : g.operand .openParen = some Standard.group := rfl
  have hbang : g.operand .bang = some Standard.negation := rfl
  have hname : g.operand .name = some Standard.name := rfl
  have hgroup : g.Ends T (.expression .negation) ⟨some 2, []⟩ (.expression 4 .none .none) none
      ⟨some 3, [.endOfInput]⟩ := by
    refine .operand (n := .expression 4 .none .none) rfl hopen ?_ .giveUp
    exact .advance (.ask (.noToken rfl) .done)
  have hnegation : g.Ends T (.expression .connective) ⟨some 1, []⟩ (.expression 3 (.expression 4 .none .none) .none)
      none ⟨some 3, [.endOfInput]⟩ := by
    refine .operand (n := .expression 3 (.expression 4 .none .none) .none) rfl hbang ?_ .giveUp
    exact .current (.advance (.ask hgroup .done))
  have hends : g.Ends T (.expression .lowest) ⟨some 0, []⟩ n none ⟨some 3, [.endOfInput]⟩ := by
    refine .operand (n := .none) rfl hname (.current .done) ?_
    exact .goOn (n := n) rfl (.ask hnegation .done) .giveUp
  obtain ⟨n', f?, c', hiff, hread, -, hbeyond, -⟩ := (expression_nests_within_tokens hg T ⟨some 0, []⟩).1 .lowest
  obtain ⟨rfl, rfl, rfl⟩ := (hiff _ _ _).1 hends
  obtain ⟨answer, c'', hparse, -⟩ := (expression_nests_within_tokens hg T ⟨none, []⟩).2 true
  exact ⟨by decide +kernel, hg, hends, hread, hbeyond, rfl, answer, c'', hparse⟩

end Sentential.Parser
