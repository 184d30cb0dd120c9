import Sentential.Proofs.Reuse

/-!
# Every report is accounted for

What a parser reports is said of the scripts that it runs, and of nothing that it stores: `Script.reports` goes
through a script as `Script.run` does and lists the faults that it reports, those of the expressions that it asks for
among them, and so on up to a whole `parse`. No matter what the scripts of a grammar do, running one records just
that, behind what stood there before (`Script.faults_run`), and so does every reader built of scripts
(`Grammar.keeps_readWith`). Between two calls of `parse` faults therefore only pile up, and a `parse` hands out all
of them.
-/

namespace Sentential.Parser

/-- What is reported while an expression is read, at a level and from a state on. -/
abbrev Log := Level → State → List Fault

/-- What is reported while a script runs, in order, where `log` says so of the expressions that it asks for. -/
def Script.reports {α : Type} (nested : Reader) (log : Log) : Script α → State → List Fault
  | .done _, _ => []
  | .current next, s => (next s.current?).reports nested log s
  | .peek next, s => (next s.peek?).reports nested log s
  | .advance next, s => next.reports nested log s.advance
  | .report fault next, s => fault :: next.reports nested log (s.report fault)
  | .expression level next, s =>
    match nested level s with
    | none => []
    | some (f?, s') => log level s ++ (next f?).reports nested log s'

namespace Grammar

variable (g : Grammar)

def extendReports (nested : Reader) (log : Log) (level : Level) : Nat → Formula → State → List Fault
  | 0, _, _ => []
  | count + 1, left, s =>
    match s.peek? with
    | none => []
    | some t =>
      if level < g.level t.kind then
        match g.extension t.kind with
        | none => []
        | some script =>
          (script left).reports nested log s.advance ++
            match (script left).run nested s.advance with
            | some (some left, s') => extendReports nested log level count left s'
            | _ => []
      else []

def operandReports (nested : Reader) (log : Log) (s : State) : List Fault :=
  match s.current? with
  | none => [.endOfInput]
  | some t =>
    match g.operand t.kind with
    | none => [.noOperand t.literal]
    | some script => script.reports nested log s

def readReports (nested : Reader) (log : Log) : Log := fun level s =>
  g.operandReports nested log s ++
    match g.readOperand nested s with
    | some (some left, s') => g.extendReports nested log level s'.rest.length left s'
    | _ => []

def climbReports : Nat → Log
  | 0, _, _ => []
  | depth + 1, level, s => g.readReports (g.climb depth) (climbReports depth) level s

def expressionReports : Log := fun level s => g.climbReports (s.pending + 1) level s

def endReports (s : State) : List Fault :=
  match s.peek? with
  | none => []
  | some t =>
    if t.kind = .closeParen ∨ (g.extension t.kind).isSome then [.unexpected t.literal]
    else [.noExtension t.literal]

def statementReports (s : State) : List Fault :=
  let s := s.advance
  match s.current? with
  | none => [.endOfInput]
  | some t =>
    match t.kind with
    | .command _ =>
      match s.peek? with
      | none => [.endOfInput]
      | some _ =>
        g.expressionReports .lowest s.advance ++
          match g.expression .lowest s.advance with
          | some (some _, s') => g.endReports s'
          | _ => []
    | _ => [.unexpected t.literal]

end Grammar

/-- While `nested` reads, just what the log says is recorded, behind what stood there before. -/
def Keeps (nested : Reader) (log : Log) : Prop :=
  ∀ {level s f? s'}, nested level s = some (f?, s') → s'.faults = s.faults ++ log level s

variable {nested : Reader} {log : Log}

theorem Script.faults_run {α : Type} (hk : Keeps nested log) {script : Script α} {s s' : State} {a : α}
    (h : script.run nested s = some (a, s')) : s'.faults = s.faults ++ script.reports nested log s := by
  induction script generalizing s with
  | done value =>
    cases h
    exact (List.append_nil _).symm
  | current next ih => exact ih _ h
  | peek next ih => exact ih _ h
  | advance next ih => exact ih h
  | report fault next ih =>
    have hlater : s'.faults = (s.faults ++ [fault]) ++ next.reports nested log (s.report fault) := ih h
    rw [hlater, reports, List.append_assoc]
    rfl
  | expression level next ih =>
    rw [run] at h
    rw [reports]
    cases hf : nested level s with
    | none =>
      rw [hf] at h
      cases h
    | some answer =>
      rw [hf] at h
      have hlater : s'.faults = answer.2.faults ++ (next answer.1).reports nested log answer.2 := ih _ h
      rw [hlater, hk hf, List.append_assoc]

namespace Grammar

variable {g : Grammar} {level : Level} {s s' : State} {f? : Option Formula}

theorem faults_extend (hk : Keeps nested log) {count : Nat} {left : Formula}
    (h : g.extend nested level count left s = some (f?, s')) :
    s'.faults = s.faults ++ g.extendReports nested log level count left s := by
  induction count generalizing left s with
  | zero =>
    cases h
    exact (List.append_nil _).symm
  | succ count ih =>
    rw [extend] at h
    rw [extendReports]
    cases ht : s.peek? with
    | none =>
      simp only [ht] at h ⊢
      cases h
      exact (List.append_nil _).symm
    | some t =>
      simp only [ht] at h ⊢
      by_cases hlt : level < g.level t.kind
      · simp only [if_pos hlt] at h ⊢
        cases hscript : g.extension t.kind with
        | none =>
          simp only [hscript] at h ⊢
          cases h
          exact (List.append_nil _).symm
        | some script =>
          simp only [hscript] at h ⊢
          cases hr : (script left).run nested s.advance with
          | none =>
            simp only [hr] at h
            cases h
          | some answer =>
            obtain ⟨left?, s''⟩ := answer
            have hstep : s''.faults = s.faults ++ (script left).reports nested log s.advance := Script.faults_run hk hr
            simp only [hr] at h ⊢
            cases left? with
            | none =>
              cases h
              rw [hstep, List.append_nil]
            | some left => rw [ih h, hstep, List.append_assoc]
      · simp only [if_neg hlt] at h ⊢
        cases h
        exact (List.append_nil _).symm

theorem faults_readOperand (hk : Keeps nested log) (h : g.readOperand nested s = some (f?, s')) :
    s'.faults = s.faults ++ g.operandReports nested log s := by
  unfold readOperand at h
  unfold operandReports
  cases ht : s.current? with
  | none =>
    simp only [ht] at h ⊢
    cases h
    rfl
  | some t =>
    simp only [ht] at h ⊢
    cases hscript : g.operand t.kind with
    | none =>
      simp only [hscript] at h ⊢
      cases h
      rfl
    | some script =>
      simp only [hscript] at h ⊢
      exact Script.faults_run hk h

theorem keeps_readWith (hk : Keeps nested log) : Keeps (g.readWith nested) (g.readReports nested log) := by
  intro level s f? s' h
  unfold readWith at h
  unfold readReports
  cases ho : g.readOperand nested s with
  | none =>
    simp only [ho] at h
    cases h
  | some answer =>
    obtain ⟨left?, s''⟩ := answer
    have hoperand := faults_readOperand hk ho
    simp only [ho] at h ⊢
    cases left? with
    | none =>
      cases h
      rw [hoperand, List.append_nil]
    | some left => rw [faults_extend hk h, hoperand, List.append_assoc]

theorem keeps_climb (g : Grammar) (depth : Nat) : Keeps (g.climb depth) (g.climbReports depth) := by
  induction depth with
  | zero => intro level s f? s' h; cases h
  | succ depth ih => exact keeps_readWith ih

theorem keeps_expression (g : Grammar) : Keeps g.expression g.expressionReports :=
  fun h => g.keeps_climb _ h

theorem faults_expectEnd_eq (g : Grammar) (s : State) : (g.expectEnd s).faults = s.faults ++ g.endReports s := by
  unfold expectEnd endReports
  cases s.peek? with
  | none => exact (List.append_nil _).symm
  | some t =>
    dsimp only
    split <;> rfl

theorem faults_statement {st? : Option Statement} (h : g.statement s = some (st?, s')) :
    s'.faults = s.faults ++ g.statementReports s := by
  unfold statement at h
  unfold statementReports
  dsimp only at h ⊢
  cases ht : s.advance.current? with
  | none =>
    simp only [ht] at h ⊢
    cases h
    rfl
  | some t =>
    simp only [ht] at h ⊢
    cases hk : t.kind with
    | command c =>
      simp only [hk] at h ⊢
      cases hp : s.advance.peek? with
      | none =>
        simp only [hp] at h ⊢
        cases h
        rfl
      | some u =>
        simp only [hp] at h ⊢
        obtain ⟨⟨f?, s''⟩, hread, hfinish⟩ := Option.map_eq_some_iff.1 h
        have hexpression : s''.faults = s.faults ++ g.expressionReports .lowest s.advance.advance :=
          g.keeps_expression hread
        rw [hread]
        cases f? with
        | none =>
          cases hfinish
          rw [hexpression, List.append_nil]
        | some f =>
          cases hfinish
          rw [faults_expectEnd_eq, hexpression, List.append_assoc]
    | _ =>
      simp only [hk] at h ⊢
      cases h
      rfl

end Grammar

def expressionReports (p : Parser) (level : Level) : List Fault := p.grammar.expressionReports level p.state

def parseReports (p : Parser) : List Fault :=
  if p.ready then p.grammar.statementReports p.state else [.notTokenized]

/-- The statement that a `parse` finds, whatever is reported meanwhile. -/
def found? (p : Parser) : Option Statement :=
  if p.ready then (p.grammar.statement p.state).bind (·.1) else none

theorem conclude_error_iff {p : Parser} {st? : Option Statement} {e : ParseError} :
    (p.conclude st?).1 = .error e ↔
      (p.state.faults ≠ [] ∧ e = ⟨p.state.faults⟩) ∨ (p.state.faults = [] ∧ st? = none ∧ e = ⟨[.endOfInput]⟩) := by
  unfold conclude
  cases p.state.faults with
  | nil => cases st? <;> simp [ParseError.ofFaults?, eq_comm]
  | cons fault faults => cases st? <;> simp [ParseError.ofFaults?, eq_comm]

/-- A `parse` concludes on what it finds, with its reports recorded behind the faults that were there before. -/
theorem exists_conclude_of_parse {p q : Parser} {answer : Except ParseError Statement}
    (h : p.parse = some (answer, q)) :
    ∃ last : Parser, last.state.faults = p.state.faults ++ p.parseReports ∧ answer = (last.conclude p.found?).1 ∧
      q.grammar = p.grammar ∧ q.state.faults = [] := by
  unfold parse at h
  unfold parseReports found?
  by_cases hready : p.ready
  · simp only [if_pos hready] at h ⊢
    obtain ⟨⟨st?, s⟩, hrun, hconclude⟩ := Option.map_eq_some_iff.1 h
    obtain ⟨rfl, rfl⟩ := Prod.ext_iff.1 hconclude
    rw [hrun, conclude_snd]
    exact ⟨{ p with state := s }, Grammar.faults_statement hrun, rfl, rfl, rfl⟩
  · simp only [if_neg hready] at h ⊢
    obtain ⟨rfl, rfl⟩ := Prod.ext_iff.1 (Option.some.inj h)
    rw [conclude_snd]
    exact ⟨p.report .notTokenized, rfl, rfl, rfl, rfl⟩

/-- Calls lead from the parser `start` to another one, and what has been reported since the last `parse` among
them, or since the start. -/
inductive LeadsTo (start : Parser) : List Fault → Parser → Prop
  | start : LeadsTo start [] start
  | parse {since : List Fault} {p q : Parser} {answer : Except ParseError Statement} :
    LeadsTo start since p → p.parse = some (answer, q) → LeadsTo start [] q
  | expression {since : List Fault} {p q : Parser} {level : Level} {f? : Option Formula} :
    LeadsTo start since p → p.expression level = some (f?, q) →
      LeadsTo start (since ++ p.expressionReports level) q
  | advance {since : List Fault} {p : Parser} : LeadsTo start since p → LeadsTo start since p.advance
  | report {since : List Fault} {p : Parser} (fault : Fault) :
    LeadsTo start since p → LeadsTo start (since ++ [fault]) (p.report fault)

/-- A parser under a grammar of any kind, over the tokens of a lexer. -/
def under (g : Grammar) (l : Lexer) : Parser := { ofLexer l with grammar := g }

namespace LeadsTo
variable {g : Grammar} {l : Lexer} {since : List Fault} {p : Parser}

/-- The faults that a parser holds are those reported since the last `parse`. -/
theorem faults_eq (h : LeadsTo (under g l) since p) : p.grammar = g ∧ p.state.faults = since := by
  induction h with
  | start => exact ⟨rfl, rfl⟩
  | parse _ hparse ih =>
    obtain ⟨_, -, -, hgrammar, hnone⟩ := exists_conclude_of_parse hparse
    exact ⟨hgrammar.trans ih.1, hnone⟩
  | expression _ hread ih =>
    obtain ⟨⟨f?, s⟩, hanswer, he⟩ := Option.map_eq_some_iff.1 hread
    cases he
    rw [← ih.2]
    exact ⟨ih.1, Grammar.keeps_expression _ hanswer⟩
  | advance _ ih => exact ih
  | report fault _ ih => exact ⟨ih.1, congrArg (· ++ [fault]) ih.2⟩

end LeadsTo

/-- Whatever the scripts of a grammar do, and however a parser under it has been used, all that has been reported since
the last `parse` decides the next one, what that reports itself included. It succeeds exactly if nothing has been
reported and a statement is found. It fails with all reports, in the order in which they were made, or if there are
none and no statement is found, with the end of the input as the only fault. No fault is left behind, so none is
handed out twice, and no error is empty. There is an answer if scripts for operands move on before they ask for an
expression. -/
theorem parse_accounts_for_reports (g : Grammar) (l : Lexer) {since : List Fault} {p : Parser}
    (h : LeadsTo (under g l) since p) :
    (g.Guarded → p.parse.isSome) ∧
      ∀ answer q, p.parse = some (answer, q) →
        let reported := since ++ p.parseReports
        (∀ st, answer = .ok st ↔ reported = [] ∧ p.found? = some st) ∧
          (∀ e, answer = .error e ↔ (reported ≠ [] ∧ e = ⟨reported⟩) ∨
            (reported = [] ∧ p.found? = none ∧ e = ⟨[.endOfInput]⟩)) ∧
          (∀ e, answer = .error e → e.messages ≠ []) ∧ q.state.faults = [] := by
  obtain ⟨hgrammar, hfaults⟩ := h.faults_eq
  refine ⟨fun hg => isSome_parse (hgrammar ▸ hg), fun answer q hparse => ?_⟩
  obtain ⟨last, hlast, rfl, -, hnone⟩ := exists_conclude_of_parse hparse
  rw [hfaults] at hlast
  dsimp only
  rw [← hlast]
  refine ⟨fun st => conclude_ok_iff.trans and_comm, fun e => conclude_error_iff, fun e he => ?_, hnone⟩
  rcases conclude_error_iff.1 he with ⟨hne, rfl⟩ | ⟨-, -, rfl⟩
  · exact fun h => hne (List.map_eq_nil_iff.1 h)
  · exact List.cons_ne_nil _ _

def replaced (literal : String) : Fault := .custom ("replaced illegal " ++ literal ++ " with 0")

/-- Takes an illegal token for a constant, and says so. -/
def replaceIllegal : Script (Option Formula) :=
  .current fun
    | some t => .report (replaced t.literal) (.done (some (.const false)))
    | none => .done none

/-- Two tokens are replaced, so the statement that is found is refused, with a report from before the parse in front.
The next parse has nothing left to read. A script that gives no operand and no reason has the end of the input
reported for it. -/
theorem parse_accounts_for_reports_of_replaced :
    let l : Lexer :=
      ⟨⟨11, []⟩, [⟨.command .table, "table", 0⟩, ⟨.illegal, "$", 6⟩, ⟨.connective .or, "+", 8⟩, ⟨.illegal, "#", 10⟩],
        true, false⟩
    let g : Grammar := Grammar.standard.withOperand .illegal replaceIllegal
    let silent : Grammar := Grammar.standard.withOperand .illegal (.done none)
    l.tokens = tokenize "table $ + #" ∧
      (∃ p q r, LeadsTo (under g l) [.custom "early"] p ∧
        p.found? = some ⟨.table, .binary "+" .or (.const false) (.const false)⟩ ∧
        p.parse = some (.error ⟨[.custom "early", replaced "$", replaced "#"]⟩, q) ∧ q.state.faults = [] ∧
        LeadsTo (under g l) [] q ∧ q.parse = some (.error ⟨[.endOfInput]⟩, r)) ∧
      ∃ r, (under silent l).parseReports = [] ∧ (under silent l).parse = some (.error ⟨[.endOfInput]⟩, r) := by
  intro l g silent
  let p := (under g l).report (.custom "early")
  let q : Parser := ⟨g, true, ⟨some ⟨.illegal, "#", 10⟩, [], []⟩⟩
  have hp : LeadsTo (under g l) [.custom "early"] p := .report _ .start
  obtain ⟨first, hfirst⟩ : ∃ answer, p.parse = some (answer, q) := ⟨_, rfl⟩
  obtain ⟨second, hsecond⟩ : ∃ answer, q.parse = some (answer, ⟨g, true, ⟨none, [], []⟩⟩) := ⟨_, rfl⟩
  obtain ⟨third, hthird⟩ :
      ∃ answer, (under silent l).parse = some (answer, ⟨silent, true, ⟨some ⟨.illegal, "$", 6⟩, _, []⟩⟩) := ⟨_, rfl⟩
  have hq : LeadsTo (under g l) [] q := .parse hp hfirst
  have hfirst' : p.parseReports = [replaced "$", replaced "#"] := by decide +kernel
  have hsecond' : q.parseReports = [.endOfInput] := by decide +kernel
  have hthird' : (under silent l).parseReports = [] := by decide +kernel
  obtain ⟨-, herror, -, hnone⟩ := (parse_accounts_for_reports g l hp).2 _ _ hfirst
  rw [hfirst'] at herror
  obtain rfl := (herror _).2 (.inl ⟨List.cons_ne_nil _ _, rfl⟩)
  obtain ⟨-, herror, -⟩ := (parse_accounts_for_reports g l hq).2 _ _ hsecond
  rw [hsecond'] at herror
  obtain rfl := (herror _).2 (.inl ⟨List.cons_ne_nil _ _, rfl⟩)
  obtain ⟨-, herror, -⟩ := (parse_accounts_for_reports silent l .start).2 _ _ hthird
  rw [hthird'] at herror
  obtain rfl := (herror _).2 (.inr ⟨rfl, rfl, rfl⟩)
  exact ⟨by decide +kernel, ⟨p, q, _, hp, rfl, hfirst, hnone, hq, hsecond⟩, _, hthird', hthird⟩

end Sentential.Parser
