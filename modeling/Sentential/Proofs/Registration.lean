import Sentential.Proofs.Reports

/-!
# Scripts that are registered for other tokens

A client extends a grammar by registering scripts for kinds of tokens. What it has for a kind is what was registered
last (`operand_registered`, `binding_registered`), so on all other kinds it agrees with the grammar that is extended.
Grammars that agree on the kinds of the tokens that are left go through these in step, as a grammar does with itself
(`AgreeOn.alike`): no script is ever looked up for another kind, and what a registered script would do is of no
account, were it never to end.
-/

namespace Sentential.Parser

open Token (Kind)

/-- What a client may register for a kind of token. -/
inductive Registration where
  | operand (kind : Kind) (script : Script (Option Formula))
  | extension (kind : Kind) (level : Level) (script : Formula → Script (Option Formula))

namespace Registration

def kind : Registration → Kind
  | .operand kind _ => kind
  | .extension kind _ _ => kind

/-- The script for operands that begin with a token of the kind, if that is registered. -/
def operand? (k : Kind) : Registration → Option (Script (Option Formula))
  | .operand kind script => if k = kind then some script else none
  | .extension _ _ _ => none

/-- How a token of the kind binds, if that is registered. -/
def binding? (k : Kind) : Registration → Option (Level × (Formula → Script (Option Formula)))
  | .operand _ _ => none
  | .extension kind level script => if k = kind then some (level, script) else none

variable {r : Registration} {k : Kind}

theorem operand?_eq_none (h : k ≠ r.kind) : r.operand? k = none := by
  cases r with
  | operand kind script => exact if_neg h
  | extension kind level script => rfl

theorem binding?_eq_none (h : k ≠ r.kind) : r.binding? k = none := by
  cases r with
  | operand kind script => rfl
  | extension kind level script => exact if_neg h

end Registration

namespace Grammar

def register (g : Grammar) : Registration → Grammar
  | .operand kind script => g.withOperand kind script
  | .extension kind level script => g.withExtension kind level script

/-- The grammar after registrations, the first of them first. -/
def registered (g : Grammar) (rs : List Registration) : Grammar := rs.foldl register g

/-- How a grammar has it that a kind of token binds. -/
def binding (g : Grammar) (k : Kind) : Level × Option (Formula → Script (Option Formula)) := (g.level k, g.extension k)

theorem operand_register (g : Grammar) (r : Registration) (k : Kind) :
    (g.register r).operand k = (r.operand? k).or (g.operand k) := by
  cases r with
  | operand kind script =>
    show (if k = kind then some script else g.operand k) = (if k = kind then some script else none).or (g.operand k)
    split <;> rfl
  | extension kind level script => rfl

theorem binding_register (g : Grammar) (r : Registration) (k : Kind) :
    (g.register r).binding k = (r.binding? k).elim (g.binding k) fun b => (b.1, some b.2) := by
  cases r with
  | operand kind script => rfl
  | extension kind level script =>
    show (if k = kind then level else g.level k, if k = kind then some script else g.extension k) =
      (if k = kind then some (level, script) else none).elim (g.binding k) fun b => (b.1, some b.2)
    split <;> rfl

/-- Of the scripts for operands that are registered for a kind, the last one counts. -/
theorem operand_registered (g : Grammar) (rs : List Registration) (k : Kind) :
    (g.registered rs).operand k = (rs.reverse.findSome? (Registration.operand? k)).or (g.operand k) := by
  induction rs generalizing g with
  | nil => rfl
  | cons r rs ih =>
    have hlater : (g.registered (r :: rs)).operand k = _ := ih (g.register r)
    rw [hlater, operand_register, List.reverse_cons, List.findSome?_append, Option.or_assoc, List.findSome?_singleton]

/-- And so it is with what is registered for extensions. -/
theorem binding_registered (g : Grammar) (rs : List Registration) (k : Kind) :
    (g.registered rs).binding k =
      (rs.reverse.findSome? (Registration.binding? k)).elim (g.binding k) fun b => (b.1, some b.2) := by
  induction rs generalizing g with
  | nil => rfl
  | cons r rs ih =>
    have hlater : (g.registered (r :: rs)).binding k = _ := ih (g.register r)
    rw [hlater, binding_register, List.reverse_cons, List.findSome?_append, List.findSome?_singleton]
    cases rs.reverse.findSome? (Registration.binding? k) <;> rfl

/-- The grammars have the same for the kinds. -/
structure AgreeOn (K : Kind → Prop) (g g' : Grammar) : Prop where
  operand : ∀ k, K k → g.operand k = g'.operand k
  binding : ∀ k, K k → g.binding k = g'.binding k

theorem agreeOn_registered (g : Grammar) (rs : List Registration) :
    AgreeOn (fun k => ∀ r ∈ rs, k ≠ r.kind) g (g.registered rs) where
  operand k h := by
    have hnone : rs.reverse.findSome? (Registration.operand? k) = none :=
      List.findSome?_eq_none_iff.2 fun r hr => Registration.operand?_eq_none (h r (List.mem_reverse.1 hr))
    rw [operand_registered, hnone, Option.none_or]
  binding k h := by
    have hnone : rs.reverse.findSome? (Registration.binding? k) = none :=
      List.findSome?_eq_none_iff.2 fun r hr => Registration.binding?_eq_none (h r (List.mem_reverse.1 hr))
    rw [binding_registered, hnone, Option.elim_none]

namespace AgreeOn

variable {K : Kind → Prop} {g g' : Grammar} {s : State}

/-- A token of such a kind is dealt with alike by both. -/
theorem alike (h : AgreeOn K g g') : g.Alike (fun t t' => t = t' ∧ K t.kind) g' where
  kind ht := by rw [ht.1]
  literal ht := by rw [ht.1]
  operand {t t'} ht := by
    obtain ⟨rfl, hK⟩ := ht
    rw [← h.operand t.kind hK]
    cases g.operand t.kind with
    | none => exact .none
    | some script => exact .some (script.alike_refl.mono fun _ _ ht => ht.1)
  extension {t t'} ht := by
    obtain ⟨rfl, hK⟩ := ht
    rw [← (Prod.mk.inj (h.binding t.kind hK)).2]
    cases g.extension t.kind with
    | none => exact .none
    | some script => exact .some fun left => (script left).alike_refl.mono fun _ _ ht => ht.1
  level {t t'} ht := by
    obtain ⟨rfl, hK⟩ := ht
    exact (Prod.mk.inj (h.binding t.kind hK)).1

theorem statement (h : AgreeOn K g g') (hs : ∀ t ∈ s.rest, K t.kind) : g'.statement s = g.statement s := by
  have hrest : List.Forall₂ (fun t t' => t = t' ∧ K t.kind) s.rest s.rest :=
    List.forall₂_same.2 fun t ht => ⟨rfl, hs t ht⟩
  rcases (h.alike.statement hrest (List.nil_append _).symm).cases with ⟨ha, hb⟩ | ⟨st?, u, u', ha, hb, hu⟩
  · rw [ha, hb]
  · rw [ha, hb, (hu.mono fun _ _ ht => ht.1).eq_withEarlier]
    rfl

end AgreeOn

end Grammar

/-- Registering scripts for kinds of tokens that a lexer does not hold is conservative, whatever the scripts are and
however tightly they bind, and were they never to end: a parser under the extended grammar answers what one under the
standard grammar does, with the same statement or the same faults, and is left at the same place. There is an answer. On
other kinds the grammar is extended indeed, and what has been registered last counts. -/
theorem parse_registered (l : Lexer) (rs : List Registration) (h : ∀ r ∈ rs, ∀ t ∈ l.tokens, t.kind ≠ r.kind) :
    let extended := Grammar.standard.registered rs
    (∃ answer s, (ofLexer l).parse = some (answer, ⟨.standard, l.finished, s⟩) ∧
        (under extended l).parse = some (answer, ⟨extended, l.finished, s⟩)) ∧
      (∀ k, extended.operand k =
        (rs.reverse.findSome? (Registration.operand? k)).or (Grammar.standard.operand k)) ∧
      ∀ k, extended.binding k =
        (rs.reverse.findSome? (Registration.binding? k)).elim (Grammar.standard.binding k) fun b => (b.1, some b.2) := by
  intro extended
  refine ⟨?_, Grammar.operand_registered _ rs, Grammar.binding_registered _ rs⟩
  have hparser : ofLexer l = ⟨.standard, l.finished, .ofTokens l.tokens⟩ := rfl
  have hparser' : under extended l = ⟨extended, l.finished, .ofTokens l.tokens⟩ := rfl
  rw [hparser, hparser']
  cases l.finished with
  | false => exact ⟨_, _, rfl, rfl⟩
  | true =>
    obtain ⟨st?, s, hrun⟩ := Grammar.guarded_standard.exists_statement (.ofTokens l.tokens)
    have hrun' : extended.statement (.ofTokens l.tokens) = some (st?, s) := by
      rw [← hrun]
      exact (Grammar.standard.agreeOn_registered rs).statement fun t ht r hr => h r hr t ht
    let last : Parser := ⟨.standard, true, s⟩
    let last' : Parser := ⟨extended, true, s⟩
    refine ⟨(last.conclude st?).1, { s with faults := [] }, ?_, ?_⟩
    · rw [parse_of_statement rfl hrun]
      exact congrArg some (Prod.ext rfl (conclude_snd last st?))
    · rw [parse_of_statement rfl hrun']
      exact congrArg some (Prod.ext (conclude_fst_congr st? rfl) (conclude_snd last' st?))

/-- The group is not closed, and so it is said whatever a closing parenthesis or an illegal token would do. What is
registered second for the `*` has replaced what was there before. -/
theorem parse_registered_of_unclosed :
    let l : Lexer :=
      ⟨⟨15, []⟩, [⟨.command .table, "table", 0⟩, ⟨.bang, "!", 6⟩, ⟨.openParen, "(", 7⟩, ⟨.name, "a", 8⟩,
        ⟨.connective .or, "+", 10⟩, ⟨.name, "b", 12⟩, ⟨.name, "c", 14⟩], true, false⟩
    let endless : Script (Option Formula) := .expression .lowest .done
    let keep : Formula → Script (Option Formula) := fun left => .done (some left)
    let rs : List Registration :=
      [.extension (.connective .and) .negation keep, .extension .closeParen .negation keep, .operand .illegal endless,
        .extension (.connective .and) .lowest fun _ => .done none]
    let extended := Grammar.standard.registered rs
    l.tokens = tokenize "table !(a + b c" ∧ (∀ r ∈ rs, ∀ t ∈ l.tokens, t.kind ≠ r.kind) ∧ ¬ extended.Guarded ∧
      (∃ s, (ofLexer l).parse = some (.error ⟨[.unclosed (some "c")]⟩, ⟨.standard, true, s⟩) ∧
        (under extended l).parse = some (.error ⟨[.unclosed (some "c")]⟩, ⟨extended, true, s⟩)) ∧
      extended.operand .illegal = some endless ∧ extended.level (.connective .and) = .lowest := by
  intro l endless keep rs extended
  have h : ∀ r ∈ rs, ∀ t ∈ l.tokens, t.kind ≠ r.kind := by
    have hkinds : ∀ k ∈ rs.map Registration.kind, ∀ t ∈ l.tokens, t.kind ≠ k := by decide
    exact fun r hr => hkinds r.kind (List.mem_map_of_mem hr)
  obtain ⟨⟨answer, s, hstandard, hextended⟩, hoperand, hbinding⟩ := parse_registered l rs h
  obtain ⟨q, hanswer⟩ : ∃ q, (ofLexer l).parse = some (.error ⟨[.unclosed (some "c")]⟩, q) := ⟨_, rfl⟩
  cases hanswer.symm.trans hstandard
  have hillegal : extended.operand .illegal = some endless := hoperand .illegal
  have hand := hbinding (.connective .and)
  refine ⟨by decide +kernel, h, fun hg => hg _ _ hillegal, ⟨s, hstandard, hextended⟩, hillegal, ?_⟩
  exact (Prod.mk.inj hand).1

end Sentential.Parser
