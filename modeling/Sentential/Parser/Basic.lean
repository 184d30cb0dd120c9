import Sentential.Lexer
import Sentential.Parser.Progress

/-!
# Parsers

A parser reads the tokens of one lexer under a grammar that may be extended. Faults accumulate over its
calls; `parse` succeeds only if none is recorded, and clears those that it hands out.
-/

namespace Sentential

structure Parser where
  grammar : Parser.Grammar
  /-- Whether the lexer had reached the end of its text. -/
  ready : Bool
  state : Parser.State

namespace Parser

def ofTokens (tokens : List Token) : Parser := ⟨.standard, true, .ofTokens tokens⟩

def ofLexer (l : Lexer) : Parser := ⟨.standard, l.finished, .ofTokens l.tokens⟩

def current? (p : Parser) : Option Token := p.state.current?

def peek? (p : Parser) : Option Token := p.state.peek?

def advance (p : Parser) : Parser := { p with state := p.state.advance }

def report (p : Parser) (fault : Fault) : Parser := { p with state := p.state.report fault }

def expression (p : Parser) (level : Level) : Option (Option Formula × Parser) :=
  (p.grammar.expression level p.state).map fun (f?, s) => (f?, { p with state := s })

/-- The end of an attempt: success with no fault recorded, or else the faults. -/
def conclude (p : Parser) (statement? : Option Statement) : Except ParseError Statement × Parser :=
  match statement?, ParseError.ofFaults? p.state.faults with
  | some statement, none => (.ok statement, p)
  | _, e? => (.error (e?.getD ⟨[.endOfInput]⟩), { p with state := { p.state with faults := [] } })

/-- Reads a statement from the next token on. There is no answer where the grammar gives none. -/
def parse (p : Parser) : Option (Except ParseError Statement × Parser) :=
  if p.ready then
    (p.grammar.statement p.state).map fun (statement?, s) => { p with state := s }.conclude statement?
  else
    some ((p.report .notTokenized).conclude none)

theorem isSome_parse {p : Parser} (h : p.grammar.Guarded) : p.parse.isSome := by
  unfold parse
  split
  · obtain ⟨statement?, s, hs⟩ := h.exists_statement p.state
    rw [hs]; rfl
  · rfl

end Parser

/-- The statement that tokens form in the standard grammar. -/
def Statement.ofTokens (tokens : List Token) : Except ParseError Statement :=
  ((Parser.ofTokens tokens).parse.get (Parser.isSome_parse Parser.Grammar.guarded_standard)).1

end Sentential
