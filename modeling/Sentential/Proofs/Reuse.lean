import Sentential.Proofs.Failures
import Sentential.Proofs.Simulation

/-!
# Parsers that are used again

Scripts see the tokens and not the faults that have been recorded, so every grammar goes in step with itself from a
state in which faults stand. And a statement is read from the next token on, whatever the current one is. So what a
grammar reads as a statement is what it reads from the tokens that are left alone, with the earlier faults in front
(`Grammar.statement_eq`); what comes of `parse` depends on these tokens and on the faults since the last `parse`
(`exists_parse`), and how a parser has been used before shows in nothing else.
-/

namespace Sentential.Parser

/-- The same place, with faults that were recorded before all others. -/
def State.withEarlier (earlier : List Fault) (s : State) : State := { s with faults := earlier ++ s.faults }

/-- An answer and the state behind it, with faults that were recorded before. -/
def carry {α : Type} (earlier : List Fault) (answer : α × State) : α × State :=
  (answer.1, answer.2.withEarlier earlier)

theorem State.Alike.eq_withEarlier {s s' : State} {earlier : List Fault} (h : s.Alike Eq earlier s') :
    s' = s.withEarlier earlier := by
  obtain ⟨t?, ts, faults⟩ := s
  obtain ⟨t'?, ts', faults'⟩ := s'
  obtain ⟨hcurrent, hrest, hfaults⟩ := h
  rw [rel_eq_iff] at hcurrent
  rw [List.forall₂_eq_eq_eq] at hrest
  cases hcurrent
  cases hrest
  cases hfaults
  rfl

/-- With nothing to tell tokens apart, answers that look alike are one answer but for the earlier faults. -/
theorem AnswersAlike.eq_map_carry {α : Type} {earlier : List Fault} {a b : Option (α × State)}
    (h : AnswersAlike Eq earlier a b) : b = a.map (carry earlier) := by
  rcases h.cases with ⟨rfl, rfl⟩ | ⟨x, s, s', rfl, rfl, hs⟩
  · rfl
  · rw [hs.eq_withEarlier]
    rfl

namespace Grammar

variable (g : Grammar)

/-- A statement is read from the tokens that are left. -/
theorem statement_eq (s : State) : g.statement s = (g.statement (.ofTokens s.rest)).map (carry s.faults) := by
  have halike : AnswersAlike Eq s.faults (g.statement (.ofTokens s.rest)) (g.statement s) :=
    g.alike_refl.statement (List.forall₂_refl s.rest) (List.append_nil _).symm
  exact halike.eq_map_carry

theorem reaches_expectEnd (s : State) : s.Reaches (g.expectEnd s) := by
  unfold expectEnd
  split
  · exact .refl
  · split <;> exact State.Reaches.refl.report _

theorem reaches_of_statement {s s' : State} {st? : Option Statement} (h : g.statement s = some (st?, s')) :
    s.Reaches s' := by
  unfold statement at h
  dsimp only at h
  split at h
  · cases h
    exact State.Reaches.refl.advance.report _
  · split at h
    · split at h
      · cases h
        exact State.Reaches.refl.advance.report _
      · obtain ⟨⟨f?, s''⟩, hread, hfinish⟩ := Option.map_eq_some_iff.1 h
        have hreach := State.Reaches.refl.advance.advance.trans (reaches_of_expression hread)
        cases f? with
        | none => cases hfinish; exact hreach
        | some f => cases hfinish; exact hreach.trans (g.reaches_expectEnd s'')
    · cases h
      exact State.Reaches.refl.advance.report _

/-- A statement that is read without a fault takes all tokens. -/
theorem rest_of_statement {ts : List Token} {s : State} {st : Statement}
    (h : g.statement (.ofTokens ts) = some (some st, s)) (hfaults : s.faults = []) : s.rest = [] := by
  obtain ⟨t, us, c, rfl, hk, hus⟩ := exists_command_of_statement h
  rw [statement_command hk hus] at h
  obtain ⟨⟨f?, s'⟩, -, hfinish⟩ := Option.map_eq_some_iff.1 h
  obtain ⟨f, -, -, rfl⟩ := finish_eq_some hfinish
  exact rest_expectEnd.trans (faults_expectEnd.1 hfaults).2

end Grammar

/-- What is answered if faults have been recorded before. -/
def carried : List Fault → Except ParseError Statement → Except ParseError Statement
  | [], answer => answer
  | earlier, .ok _ => .error ⟨earlier⟩
  | earlier, .error e => .error ⟨earlier ++ e.faults⟩

theorem conclude_snd (p : Parser) (st? : Option Statement) :
    (p.conclude st?).2 = { p with state := { p.state with faults := [] } } := by
  unfold conclude
  obtain ⟨g, ready, t?, ts, faults⟩ := p
  cases st? with
  | none => rfl
  | some st => cases faults <;> rfl

theorem conclude_fst_withEarlier (p : Parser) {st? : Option Statement} (h : st?.isSome ∨ p.state.faults ≠ [])
    (earlier : List Fault) :
    ({ p with state := p.state.withEarlier earlier }.conclude st?).1 = carried earlier (p.conclude st?).1 := by
  unfold conclude
  obtain ⟨g, ready, t?, ts, faults⟩ := p
  cases earlier with
  | nil => rfl
  | cons fault earlier =>
    cases faults with
    | cons => cases st? <;> rfl
    | nil =>
      cases st? with
      | none => simp at h
      | some st => simp [State.withEarlier, ParseError.ofFaults?, carried]

/-- What `parse` answers, and the parser behind it, are those of a fresh parser over the tokens that are left, but
for the faults that have been recorded before. -/
theorem exists_parse {p : Parser} (hg : p.grammar = .standard) (hready : p.ready = true)
    (hs : ∀ t ∈ p.state.rest, t.Spelt) :
    ∃ fresh q, (ofTokens p.state.rest).parse = some (fresh, q) ∧
      p.parse = some (carried p.state.faults fresh, q) ∧ ∀ e, fresh = .error e → ∃ fault, e.faults = [fault] := by
  obtain ⟨g, ready, state⟩ := p
  cases hg
  cases hready
  dsimp only at hs ⊢
  obtain ⟨st?, s, hrun⟩ := Grammar.guarded_standard.exists_statement (.ofTokens state.rest)
  have hfaults : (st?.isSome ∧ s.faults = []) ∨ ∃ fault, s.faults = [fault] := by
    rcases Grammar.statement_complaint? hs hrun with ⟨hsome, hnone, -⟩ | ⟨fault, hfault, -⟩
    · exact .inl ⟨hsome, hnone⟩
    · exact .inr ⟨fault, hfault⟩
  let last : Parser := ⟨.standard, true, s⟩
  refine ⟨(last.conclude st?).1, (last.conclude st?).2, parse_ofTokens hrun, ?_, fun e he => ?_⟩
  · have hsome : st?.isSome ∨ last.state.faults ≠ [] := by
      rcases hfaults with ⟨hsome, -⟩ | ⟨fault, hfault⟩
      · exact .inl hsome
      · exact .inr (by simp [last, hfault])
    have hrun' : Grammar.standard.statement state = some (st?, s.withEarlier state.faults) := by
      rw [Grammar.standard.statement_eq, hrun]
      rfl
    refine (parse_of_statement (p := ⟨.standard, true, state⟩) rfl hrun').trans ?_
    rw [← conclude_fst_withEarlier last hsome, conclude_snd last]
    exact congrArg some (Prod.ext rfl (conclude_snd _ _))
  · -- a parse that fails has left its one fault
    unfold conclude at he
    rcases hfaults with ⟨hsome, hnone⟩ | ⟨fault, hfault⟩
    · obtain ⟨st, rfl⟩ := Option.isSome_iff_exists.1 hsome
      simp [last, hnone, ParseError.ofFaults?] at he
    · refine ⟨fault, ?_⟩
      cases st? <;> simp [last, hfault, ParseError.ofFaults?] at he <;> rw [← he]

/-- Behind a parse no fault is left. -/
theorem exists_statement_of_parse {ts : List Token} {answer : Except ParseError Statement} {q : Parser}
    (h : (ofTokens ts).parse = some (answer, q)) :
    ∃ st? s, Grammar.standard.statement (.ofTokens ts) = some (st?, s) ∧
      answer = ((Parser.mk .standard true s).conclude st?).1 ∧ q = ⟨.standard, true, { s with faults := [] }⟩ := by
  obtain ⟨st?, s, hrun⟩ := Grammar.guarded_standard.exists_statement (.ofTokens ts)
  rw [parse_ofTokens hrun] at h
  obtain ⟨rfl, rfl⟩ := Prod.mk.inj (Option.some.inj h)
  exact ⟨st?, s, hrun, rfl, conclude_snd _ _⟩

/-- What can be asked of a parser. -/
inductive Call where
  | parse
  | expression (level : Level)
  | advance
  | report (fault : Fault)

/-- A parser that has been used, and the faults that have been recorded since its last `parse`. -/
structure Usage where
  parser : Parser
  since : List Fault

namespace Usage

def start (p : Parser) : Usage := ⟨p, []⟩

/-- An expression records the faults behind those that stood there before. -/
def perform (u : Usage) : Call → Option Usage
  | .parse => u.parser.parse.map fun (_, p) => ⟨p, []⟩
  | .expression level => (u.parser.expression level).map fun (_, p) =>
    ⟨p, u.since ++ p.state.faults.drop u.parser.state.faults.length⟩
  | .advance => some ⟨u.parser.advance, u.since⟩
  | .report fault => some ⟨u.parser.report fault, u.since ++ [fault]⟩

def after (u : Usage) : List Call → Option Usage
  | [] => some u
  | c :: calls => (u.perform c).bind fun u' => u'.after calls

/-- A standard parser stands somewhere in the tokens `T`, and the faults that it holds are those since its last
`parse`. -/
structure Within (T : List Token) (u : Usage) : Prop where
  grammar : u.parser.grammar = .standard
  ready : u.parser.ready = true
  rest : u.parser.state.rest <:+ T
  faults : u.parser.state.faults = u.since

namespace Within
variable {T : List Token} {u : Usage}

theorem ofTokens (ts : List Token) : Within ts (start (.ofTokens ts)) := ⟨rfl, rfl, List.suffix_rfl, rfl⟩

theorem spelt (h : Within T u) (hT : ∀ t ∈ T, t.Spelt) : ∀ t ∈ u.parser.state.rest, t.Spelt :=
  fun t ht => hT t (h.rest.subset ht)

theorem exists_perform (h : Within T u) (hT : ∀ t ∈ T, t.Spelt) (c : Call) :
    ∃ u', u.perform c = some u' ∧ Within T u' := by
  cases c with
  | parse =>
    obtain ⟨fresh, q, hfresh, hparse, -⟩ := Parser.exists_parse h.grammar h.ready (h.spelt hT)
    obtain ⟨st?, s, hrun, -, rfl⟩ := exists_statement_of_parse hfresh
    have hreach := Grammar.standard.reaches_of_statement hrun
    exact ⟨_, by rw [perform, hparse]; rfl, rfl, rfl, hreach.rest_suffix.trans h.rest, rfl⟩
  | expression level =>
    obtain ⟨f?, s, hread⟩ := Grammar.guarded_standard.exists_expression level u.parser.state
    have hreach := Grammar.reaches_of_expression hread
    obtain ⟨new, hnew⟩ := hreach.faults_isPrefix
    let u' : Usage := ⟨⟨.standard, u.parser.ready, s⟩, u.since ++ s.faults.drop u.parser.state.faults.length⟩
    have hperform : u.perform (.expression level) = some u' := by
      rw [perform, Parser.expression, h.grammar, hread]
      rfl
    refine ⟨u', hperform, rfl, h.ready, hreach.rest_suffix.trans h.rest, ?_⟩
    show s.faults = u.since ++ s.faults.drop u.parser.state.faults.length
    rw [← h.faults, ← hnew, List.drop_left]
  | advance => exact ⟨_, rfl, h.grammar, h.ready, (List.tail_suffix _).trans h.rest, h.faults⟩
  | report fault => exact ⟨_, rfl, h.grammar, h.ready, h.rest, congrArg (· ++ [fault]) h.faults⟩

theorem exists_after (h : Within T u) (hT : ∀ t ∈ T, t.Spelt) (calls : List Call) :
    ∃ u', u.after calls = some u' ∧ Within T u' := by
  induction calls generalizing u with
  | nil => exact ⟨u, rfl, h⟩
  | cons c calls ih =>
    obtain ⟨u₁, hperform, h₁⟩ := h.exists_perform hT c
    obtain ⟨u₂, hafter, h₂⟩ := ih h₁
    exact ⟨u₂, by rw [after, hperform]; exact hafter, h₂⟩

end Within

theorem since_of_parses {u u' : Usage} {calls : List Call} (hu : u.since = []) (hcalls : ∀ c ∈ calls, c = .parse)
    (h : u.after calls = some u') : u'.since = [] := by
  induction calls generalizing u with
  | nil => cases h; exact hu
  | cons c calls ih =>
    obtain ⟨hc, hlater⟩ := List.forall_mem_cons.1 hcalls
    subst hc
    obtain ⟨u₁, hparse, h⟩ := Option.bind_eq_some_iff.1 h
    obtain ⟨answer, -, rfl⟩ := Option.map_eq_some_iff.1 hparse
    exact ih rfl hlater h

end Usage

open Usage (Within)

theorem rest_of_parse_ok {ts : List Token} {st : Statement} {q : Parser}
    (h : (ofTokens ts).parse = some (.ok st, q)) : q.state.rest = [] := by
  obtain ⟨st?, s, hrun, hanswer, rfl⟩ := exists_statement_of_parse h
  obtain ⟨rfl, hfaults⟩ := conclude_ok_iff.1 hanswer.symm
  show s.rest = []
  exact Grammar.standard.rest_of_statement hrun hfaults

theorem parse_ofTokens_nil : ∃ q, (ofTokens []).parse = some (.error ⟨[.endOfInput]⟩, q) := ⟨_, rfl⟩

/-- A command behind a complete statement ends it with a fault, and the parser stands before that command. -/
theorem parse_ofTokens_trailing {used : List Token} {st : Statement} {t : Token} {c : Command}
    (hused : IsSentence used st) (ht : t.kind = .command c) (hs : ∀ u ∈ used, u.Spelt) (later : List Token) :
    ∃ q, (ofTokens (used ++ t :: later)).parse = some (.error ⟨[.noExtension t.literal]⟩, q) ∧
      q.state.rest = t :: later := by
  obtain ⟨hk, hc⟩ := hused
  rename_i u c' ts f
  have hstops : Grammar.Stops (t :: later) := .of_kind_eq ht (fun _ => nofun) later
  have hread := Grammar.expression_of_isChain hc (List.forall_mem_cons.1 hs).2 (t :: later) [] hstops
  have hne : ts ++ t :: later ≠ [] := List.append_ne_nil_of_right_ne_nil _ (List.cons_ne_nil _ _)
  have hrun : Grammar.standard.statement (.ofTokens (u :: ts ++ t :: later)) =
      some (some ⟨c', f⟩, ⟨ts.getLast?, t :: later, [.noExtension t.literal]⟩) := by
    rw [List.cons_append, Grammar.statement_command hk hne, hread]
    simp [Grammar.finish, Grammar.expectEnd, State.peek?, ht, State.report, Grammar.standard]
  exact ⟨_, parse_ofTokens hrun, rfl⟩

/-- However a parser over the tokens of a lexer has been used, its next `parse` answers what a fresh parser over the
tokens `R` that are left does, and leaves the same parser behind; but if faults have been recorded since
the last `parse`, it fails with these and then the fault of the fresh parser, if it has one, which has no more. So
after a success nothing is left to parse, and a command behind a complete statement, which the parse of that
statement fails on, begins what is parsed next. -/
theorem parse_after_calls {l : Lexer} (h : l.Reachable) (hf : l.finished = true) (calls : List Call) :
    ∃ u, (Usage.start (ofLexer l)).after calls = some u ∧
      let R := u.parser.state.rest
      R <:+ l.tokens ∧
      ∃ fresh p, (ofTokens R).parse = some (fresh, p) ∧ u.parser.parse = some (carried u.since fresh, p) ∧
        (∀ e, fresh = .error e → ∃ fault, e.faults = [fault]) ∧
        (∀ st, carried u.since fresh = .ok st → ∀ more, ∃ u' q, (Usage.start p).after more = some u' ∧
          u'.parser.parse = some (carried u'.since (.error ⟨[.endOfInput]⟩), q) ∧
          ((∀ c ∈ more, c = .parse) → u'.since = [])) ∧
        ∀ used st t c later, R = used ++ t :: later → IsSentence used st → t.kind = .command c →
          fresh = .error ⟨[.noExtension t.literal]⟩ ∧ p.parse = (ofTokens (t :: later)).parse := by
  rw [ofLexer_of_finished hf]
  obtain ⟨u, hafter, hu⟩ := (Within.ofTokens l.tokens).exists_after h.spelt calls
  have hs := hu.spelt h.spelt
  obtain ⟨fresh, p, hfresh, hparse, hone⟩ := exists_parse hu.grammar hu.ready hs
  rw [hu.faults] at hparse
  obtain ⟨st?, s, hrun, -, hp⟩ := exists_statement_of_parse hfresh
  refine ⟨u, hafter, hu.rest, fresh, p, hfresh, hparse, hone, fun st hok more => ?_, ?_⟩
  · have hnil : p.state.rest = [] := by
      cases fresh with
      | ok st' => exact rest_of_parse_ok hfresh
      | error e => cases hsince : u.since <;> rw [hsince] at hok <;> cases hok
    have hp' : Within [] (Usage.start p) := by
      subst hp
      exact ⟨rfl, rfl, by rw [← hnil]; exact List.suffix_rfl, rfl⟩
    obtain ⟨u', hmore, hu'⟩ := hp'.exists_after nofun more
    obtain ⟨fresh', q, hfresh', hparse', -⟩ := exists_parse hu'.grammar hu'.ready (hu'.spelt nofun)
    rw [List.suffix_nil.1 hu'.rest] at hfresh'
    obtain ⟨_, hnothing⟩ := parse_ofTokens_nil
    cases hnothing.symm.trans hfresh'
    exact ⟨u', q, hmore, by rw [← hu'.faults]; exact hparse', fun hmore' => Usage.since_of_parses rfl hmore' hmore⟩
  · rintro used st t c later hR hused ht
    rw [hR] at hs hfresh
    obtain ⟨hs, hlater⟩ := List.forall_mem_append.1 hs
    obtain ⟨q, htrailing, hrest⟩ := parse_ofTokens_trailing hused ht hs later
    cases htrailing.symm.trans hfresh
    subst hp
    obtain ⟨fresh', q', hfresh', hparse', -⟩ := exists_parse (p := ⟨.standard, true, { s with faults := [] }⟩) rfl rfl
      (by rw [show s.rest = t :: later from hrest]; exact hlater)
    rw [show s.rest = t :: later from hrest] at hfresh'
    exact ⟨rfl, hparse'.trans hfresh'.symm⟩

def twoStatements : Lexer := (Lexer.ofString "table (a simplify b").tokenize.2

/-- The group is not closed, so the second command begins what is parsed next; that is a statement, but a fault has
been recorded in between. -/
theorem parse_after_calls_of_two_statements :
    twoStatements.Reachable ∧ twoStatements.finished = true ∧
      ∃ u p, (Usage.start (ofLexer twoStatements)).after [.parse, .report (.custom "again")] = some u ∧
        (ofTokens u.parser.state.rest).parse = some (.ok ⟨.simplify, .var "b"⟩, p) ∧
        u.parser.parse = some (.error ⟨[.custom "again"]⟩, p) := by
  let calls : List Call := [.parse, .report (.custom "again")]
  have hreachable : twoStatements.Reachable := .tokenize (.start _)
  have hfinished : twoStatements.finished = true := by decide +kernel
  have hsince : ((Usage.start (ofLexer twoStatements)).after calls).map (·.since) = some [.custom "again"] := by
    decide +kernel
  have hrest : ((Usage.start (ofLexer twoStatements)).after calls).map (·.parser.state.rest) =
      some [⟨.command .simplify, "simplify", 9⟩, ⟨.name, "b", 18⟩] := by decide +kernel
  obtain ⟨u, hafter, -, fresh, p, hfresh, hparse, -⟩ := parse_after_calls hreachable hfinished calls
  rw [hafter, Option.map_some, Option.some.injEq] at hsince hrest
  rw [hsince] at hparse
  have hok : ∃ q, (ofTokens u.parser.state.rest).parse = some (.ok ⟨.simplify, .var "b"⟩, q) := by
    rw [hrest]
    exact ⟨_, rfl⟩
  obtain ⟨q, hok⟩ := hok
  cases hok.symm.trans hfresh
  exact ⟨hreachable, hfinished, u, p, hafter, hok, hparse⟩

end Sentential.Parser
