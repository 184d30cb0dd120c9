import Sentential.Proofs.Simulation
import Sentential.Proofs.Strictness
import Sentential.Proofs.Tiling

/-!
# White space between tokens

The tokens of a text may be moved apart, or closer together as long as they do not touch: they stay the tokens of the
text, each at its new place (`Source.tokenize_weave`). What is cut off the front of a text depends on the characters
behind it, but in front of a separator or the end the same is cut off (`Lexeme.IsCut.of_separated`). The standard
grammar looks at no places (`Parser.Grammar.alike_standard`), so tokens that differ in their places only
are read in step, and the answers are the same but for the places in them (`Session.execute_respaced`).
-/

namespace Sentential

/-- The tokens are of one kind and spelt alike, wherever they stand. -/
structure Token.Alike (t t' : Token) : Prop where
  kind : t.kind = t'.kind
  literal : t.literal = t'.literal

namespace Lexeme

open Source (separators)

variable {x y : Lexeme} {text rest rest' : List Char}

/-- What holds no separator does not reach over the one that stands behind a text. -/
theorem isPrefix_of_separated (hy : ∀ c ∈ y.chars, c ∉ separators) (hrest : ∀ c ∈ rest'.head?, c ∈ separators)
    (hpre : y.chars <+: text ++ rest') : y.chars <+: text := by
  rcases List.prefix_or_prefix_of_prefix hpre (List.prefix_append text rest') with h | ⟨more, hmore⟩
  · exact h
  · rw [← hmore, List.prefix_append_right_inj] at hpre
    cases more with
    | nil => exact ⟨[], by rw [← hmore, List.append_nil, List.append_nil]⟩
    | cons c more =>
      obtain ⟨later, rfl⟩ := hpre
      refine absurd (hrest c rfl) (hy c ?_)
      rw [← hmore]
      exact List.mem_append_right _ List.mem_cons_self

theorem NoneBegins.of_separated (h : NoneBegins (text ++ rest)) (hrest : ∀ c ∈ rest'.head?, c ∈ separators) :
    NoneBegins (text ++ rest') := by
  intro y hy hpre
  exact h y hy ((isPrefix_of_separated hy.not_mem_separators hrest hpre).trans (List.prefix_append _ _))

/-- What is cut off is still cut off when a separator, or the end, comes right behind it. -/
theorem IsCut.of_separated (h : IsCut (x.chars ++ rest) x) (hrest : ∀ c ∈ rest'.head?, c ∈ separators) :
    IsCut (x.chars ++ rest') x := by
  cases h with
  | legal hx _ _ =>
    refine .legal hx (List.prefix_append _ _) fun y hy hpre => ?_
    exact (isPrefix_of_separated hy.not_mem_separators hrest hpre).length_le
  | arrow hnone _ => exact .arrow (hnone.of_separated hrest) (List.prefix_append _ _)
  | unknown hnone harrow _ =>
    refine .unknown (hnone.of_separated hrest) (fun hpre => harrow ?_) (List.prefix_append _ _)
    have hsolid : ∀ d ∈ (⟨.illegal, ['<', '-']⟩ : Lexeme).chars, d ∉ separators := not_mem_separators_arrow
    exact (isPrefix_of_separated hsolid hrest hpre).trans (List.prefix_append _ _)

end Lexeme

namespace Source

/-- There is a gap before, between and behind the tokens. Gaps are blank, and none between two tokens is empty. -/
structure Separate (gaps : List (List Char)) (ts : List Token) : Prop where
  length : gaps.length = ts.length + 1
  blank : ∀ gap ∈ gaps, ∀ c ∈ gap, c ∈ separators
  parted : ∀ gap ∈ gaps.tail.dropLast, gap ≠ []

/-- The tokens at the places where they come to stand between the gaps, from the place `n` on. -/
def placed : Nat → List (List Char) → List Token → List Token
  | n, gap :: gaps, t :: ts => { t with start := n + gap.length } :: placed (n + gap.length + t.length) gaps ts
  | _, _, _ => []

variable {n : Nat} {gaps : List (List Char)} {cs : List Char} {t : Token} {ts : List Token}

theorem weave_singleton (gap : List Char) : weave [gap] [] = gap := List.flatten_singleton

theorem placed_nil (n : Nat) (gaps : List (List Char)) : placed n gaps [] = [] := by cases gaps <;> rfl

theorem Separate.of_nil (h : Separate gaps []) : ∃ gap, gaps = [gap] ∧ ∀ c ∈ gap, c ∈ separators := by
  obtain ⟨gap, rfl⟩ := List.length_eq_one_iff.1 h.length
  exact ⟨gap, rfl, h.blank gap (List.mem_singleton_self gap)⟩

/-- In front stands the first gap; it is empty at most if no token follows. -/
theorem mem_of_head?_weave {gap : List Char} {c : Char} (hlength : gaps.length = ts.length)
    (hne : ts ≠ [] → gap ≠ []) (hc : c ∈ (weave (gap :: gaps) ts).head?) : c ∈ gap := by
  cases ts with
  | nil =>
    obtain rfl := List.length_eq_zero_iff.1 hlength
    rw [weave_singleton] at hc
    exact List.mem_of_mem_head? hc
  | cons t ts =>
    rw [weave, List.head?_append_of_ne_nil _ (hne (List.cons_ne_nil t ts))] at hc
    exact List.mem_of_mem_head? hc

/-- Right behind a token comes a separator or, behind the last one, perhaps the end. -/
theorem Separate.of_cons (h : Separate gaps (t :: ts)) :
    ∃ gap later, gaps = gap :: later ∧ (∀ c ∈ gap, c ∈ separators) ∧ Separate later ts ∧
      ∀ c ∈ (weave later ts).head?, c ∈ separators := by
  obtain ⟨hlength, hblank, hparted⟩ := h
  match gaps with
  | [] => cases hlength
  | [gap] => cases hlength
  | gap :: next :: later =>
    obtain ⟨hgap, hlater⟩ := List.forall_mem_cons.1 hblank
    have hlength' : later.length = ts.length := by simpa using hlength
    rw [List.tail_cons] at hparted
    refine ⟨gap, next :: later, rfl, hgap, ⟨by rw [List.length_cons, hlength'], hlater, fun g hg => ?_⟩, fun c hc => ?_⟩
    · rw [← List.tail_dropLast] at hg
      exact hparted g (List.mem_of_mem_tail hg)
    · have hne : ts ≠ [] → next ≠ [] := by
        intro hts
        have hlater' : later ≠ [] := List.ne_nil_of_length_pos (hlength' ▸ List.length_pos_iff.2 hts)
        refine hparted next ?_
        rw [List.dropLast_cons_of_ne_nil hlater']
        exact List.mem_cons_self
      exact hlater next List.mem_cons_self c (mem_of_head?_weave hlength' hne hc)

/-- Put between blank gaps, the tokens of a text are what the text consists of then. -/
theorem FallsInto.respaced {m : Nat} (h : FallsInto m cs ts) (hgaps : Separate gaps ts) (n : Nat) :
    FallsInto n (weave gaps ts) (placed n gaps ts) := by
  induction h generalizing gaps n with
  | nil _ =>
    obtain ⟨gap, rfl, hgap⟩ := hgaps.of_nil
    rw [weave_singleton]
    exact .nil hgap
  | @cons m blanks rest x ts _ hhead hcut _ ih =>
    obtain ⟨gap, later, rfl, hgap, hlater, hbehind⟩ := hgaps.of_cons
    have hsolid : ∀ c ∈ (x.chars ++ weave later ts).head?, c ∉ separators := by
      rw [List.head?_append_of_ne_nil _ hcut.chars_ne_nil] at hhead ⊢
      exact hhead
    rw [weave, placed, Token.length, String.toList_ofList, String.length_ofList]
    exact .cons hgap hsolid (hcut.of_separated hbehind) (ih hlater _)

theorem tokenize_weave {text : String} (hgaps : Separate gaps (tokenize text)) :
    tokenize (String.ofList (weave gaps (tokenize text))) = placed 0 gaps (tokenize text) := by
  have hfalls : FallsInto 0 (weave gaps (tokenize text)) (placed 0 gaps (tokenize text)) :=
    (fallsInto_tokens (.ofString text)).respaced hgaps 0
  rw [hfalls.eq_tokens, tokenize, ofString, String.toList_ofList]

theorem alike_placed (n : Nat) (hlength : gaps.length = ts.length + 1) :
    List.Forall₂ Token.Alike (placed n gaps ts) ts := by
  induction ts generalizing n gaps with
  | nil =>
    rw [placed_nil]
    exact .nil
  | cons t ts ih =>
    match gaps with
    | [] => cases hlength
    | gap :: later => exact .cons ⟨rfl, rfl⟩ (ih _ (Nat.succ.inj hlength))

end Source

namespace Parser

open Token (Alike)

theorem alike_name : Script.Alike Alike Standard.name Standard.name := by
  refine .current fun t? t'? h => ?_
  rcases cases_of_rel h with ⟨rfl, rfl⟩ | ⟨t, t', rfl, rfl, ht⟩
  · exact .done none
  · rw [Option.map_some, Option.map_some, ht.literal]
    exact .done _

theorem alike_negation : Script.Alike Alike Standard.negation Standard.negation := by
  refine .current fun t? t'? h => ?_
  rcases cases_of_rel h with ⟨rfl, rfl⟩ | ⟨t, t', rfl, rfl, ht⟩
  · exact .done none
  · dsimp only
    rw [ht.literal]
    split
    · exact .advance (.expression .negation fun _ => .done _)
    · exact .report _ (.done none)

theorem alike_group : Script.Alike Alike Standard.group Standard.group := by
  refine .advance (.expression .lowest fun f? => ?_)
  cases f? with
  | none => exact .done none
  | some f =>
    refine .peek fun t? t'? h => ?_
    rcases cases_of_rel h with ⟨rfl, rfl⟩ | ⟨t, t', rfl, rfl, ht⟩
    · exact .report _ (.done none)
    · dsimp only
      rw [ht.kind, ht.literal]
      split
      · exact .advance (.done _)
      · exact .report _ (.done none)

theorem alike_chain (left : Formula) : Script.Alike Alike (Standard.chain left) (Standard.chain left) := by
  refine .current fun t? t'? h => ?_
  rcases cases_of_rel h with ⟨rfl, rfl⟩ | ⟨t, t', rfl, rfl, ht⟩
  · exact .done none
  · dsimp only
    rw [ht.literal]
    split
    · exact .advance (.expression .connective fun _ => .done _)
    · exact .report _ (.done none)

namespace Grammar

theorem alike_standard : Grammar.Alike Token.Alike standard standard where
  kind := Token.Alike.kind
  literal := Token.Alike.literal
  operand {t t'} h := by
    rw [h.kind]
    cases t'.kind with
    | name => exact .some alike_name
    | const value => exact .some (.done _)
    | bang => exact .some alike_negation
    | openParen => exact .some alike_group
    | _ => exact .none
  extension {t t'} h := by
    rw [h.kind]
    cases t'.kind with
    | connective => exact .some alike_chain
    | _ => exact .none
  level h := by rw [h.kind]

end Grammar

end Parser

namespace Statement

/-- No place of a token has a say in the statement, or in what is said if there is none. -/
theorem ofTokens_of_alike {ts ts' : List Token} (h : List.Forall₂ Token.Alike ts ts') : ofTokens ts = ofTokens ts' := by
  have hanswers : Parser.AnswersAlike Token.Alike [] (Parser.Grammar.standard.statement (.ofTokens ts))
      (Parser.Grammar.standard.statement (.ofTokens ts')) := Parser.Grammar.alike_standard.statement h rfl
  obtain ⟨st?, s, hread⟩ := Parser.Grammar.guarded_standard.exists_statement (.ofTokens ts)
  rcases hanswers.cases with ⟨hnone, -⟩ | ⟨st?', s', s'', hread', hread'', hs⟩
  · cases hread.symm.trans hnone
  · have hfaults : s''.faults = s'.faults := hs.faults
    simp only [ofTokens, Parser.parse_ofTokens hread', Parser.parse_ofTokens hread'', Option.get_some]
    exact Parser.conclude_fst_congr st?' hfaults.symm

end Statement

/-- The first illegal tokens are alike, if there are any. -/
theorem firstIllegal?_of_alike {ts ts' : List Token} (h : List.Forall₂ Token.Alike ts ts') :
    Option.Rel Token.Alike (firstIllegal? ts) (firstIllegal? ts') := by
  induction h with
  | nil => exact .none
  | @cons t t' ts ts' ht _ ih =>
    by_cases hk : t.kind = .illegal
    · rw [firstIllegal?_cons_illegal hk, firstIllegal?_cons_illegal (ht.kind ▸ hk)]
      exact .some ht
    · rw [firstIllegal?_cons_legal hk, firstIllegal?_cons_legal (ht.kind ▸ hk)]
      exact ih

/-- The error without the place in the text. -/
def Error.unplaced : Error → Error
  | .lex e => .lex { e with position := 0 }
  | e => e

namespace Statement

/-- Texts with tokens that are alike are read as one statement or refused for the same reason, at its own place each
if the reason is an illegal token. -/
theorem read_of_alike {text text' : String} (h : List.Forall₂ Token.Alike (tokenize text) (tokenize text'))
    (strict : Bool) :
    read strict text = read strict text' ∨
      strict = true ∧
        ∃ e e', read strict text = .error e ∧ read strict text' = .error e' ∧ e.unplaced = e'.unplaced := by
  have hlenient : read false text = read false text' := by rw [read_false, read_false, ofTokens_of_alike h]
  cases strict with
  | false => exact .inl hlenient
  | true =>
    rcases Parser.cases_of_rel (firstIllegal?_of_alike h) with ⟨hfirst, hfirst'⟩ | ⟨t, t', hfirst, hfirst', ht⟩
    · rw [read_true_of_legal hfirst, read_true_of_legal hfirst']
      exact .inl hlenient
    · refine .inr ⟨rfl, _, _, read_true_of_illegal hfirst, read_true_of_illegal hfirst', ?_⟩
      rw [Error.unplaced, Error.unplaced, ht.literal]

end Statement

namespace Session

/-- White space between tokens does not matter. If the tokens of a text are put between other blank gaps, none of them
empty between two tokens, they are the tokens of the new text, each at the place where it comes to stand. So
both texts are read as the same statement or refused with the same faults, and executed they have the same outcome
or give the same error, but for the place that the lexer may report. -/
theorem execute_respaced (s : Session) {text : String} {gaps : List (List Char)}
    (hgaps : Source.Separate gaps (tokenize text)) :
    let respaced := String.ofList (Source.weave gaps (tokenize text))
    tokenize respaced = Source.placed 0 gaps (tokenize text) ∧
      Statement.read false respaced = Statement.read false text ∧
      (s.execute respaced).mapError Error.unplaced = (s.execute text).mapError Error.unplaced := by
  intro respaced
  have htokens : tokenize respaced = Source.placed 0 gaps (tokenize text) := Source.tokenize_weave hgaps
  have halike : List.Forall₂ Token.Alike (tokenize respaced) (tokenize text) := by
    rw [htokens]
    exact Source.alike_placed 0 hgaps.length
  refine ⟨htokens, ?_, ?_⟩
  · rcases Statement.read_of_alike halike false with hread | ⟨hstrict, -⟩
    · exact hread
    · cases hstrict
  · rcases Statement.read_of_alike halike s.strict with hread | ⟨-, e, e', he, he', hunplaced⟩
    · rw [execute, execute, hread]
    · rw [execute_of_read_error he, execute_of_read_error he']
      exact congrArg Except.error hunplaced

/-- A broken-off arrow and a whole one behind it are parted, and a strict session finds the broken one further on. -/
theorem execute_respaced_of_arrows :
    let strict : Session := { strict := true }
    Source.Separate [['\t'], ['\n'], [' '], [' ', '\r'], [' '], []] (tokenize "table a<-->b") ∧
      tokenize "\ttable\na <- \r-> b" =
        [⟨.command .table, "table", 1⟩, ⟨.name, "a", 7⟩, ⟨.illegal, "<-", 9⟩, ⟨.connective .implies, "->", 13⟩,
         ⟨.name, "b", 16⟩] ∧
      Statement.read false "\ttable\na <- \r-> b" = Statement.read false "table a<-->b" ∧
      strict.execute "table a<-->b" = .error (.lex ⟨"<-", 7⟩) ∧
      (strict.execute "\ttable\na <- \r-> b").mapError Error.unplaced = .error (.lex ⟨"<-", 0⟩) := by
  intro strict
  have htokens : tokenize "table a<-->b" =
      [⟨.command .table, "table", 0⟩, ⟨.name, "a", 6⟩, ⟨.illegal, "<-", 7⟩, ⟨.connective .implies, "->", 9⟩,
       ⟨.name, "b", 11⟩] := by decide +kernel
  have hgaps : Source.Separate [['\t'], ['\n'], [' '], [' ', '\r'], [' '], []] (tokenize "table a<-->b") := by
    rw [htokens]
    exact ⟨rfl, by simp [Source.separators], by decide⟩
  obtain ⟨hplaced, hread, hexecute⟩ := execute_respaced strict hgaps
  rw [htokens] at hplaced hread hexecute
  have hfirst : firstIllegal? (tokenize "table a<-->b") = some ⟨.illegal, "<-", 7⟩ := by
    rw [htokens]
    rfl
  have herror : strict.execute "table a<-->b" = .error (.lex ⟨"<-", 7⟩) :=
    execute_of_read_error (Statement.read_true_of_illegal hfirst)
  rw [herror] at hexecute
  exact ⟨hgaps, hplaced, hread, herror, hexecute⟩

end Session

end Sentential
