import Sentential.Token.Source
import Sentential.Text.Quoted

/-!
# Lexers

A lexer scans one text, possibly in several goes: after an illegal token in strict mode it stands behind
that token, and asking again goes on from there. Once it has reached the end, asking again changes
nothing.
-/

namespace Sentential

/-- An illegal token met in strict mode. -/
structure LexError where
  literal : String
  position : Nat
  deriving DecidableEq, Repr

def LexError.message (e : LexError) : String :=
  "illegal character " ++ Text.Quoted.encode e.literal ++ " at position " ++ toString e.position

structure Lexer where
  source : Source
  tokens : List Token
  finished : Bool
  strict : Bool

namespace Lexer

def ofString (text : String) : Lexer := ⟨.ofString text, [], false, false⟩

def setStrict (l : Lexer) (strict : Bool) : Lexer := { l with strict }

def tokenize (l : Lexer) : Option LexError × Lexer :=
  if l.finished then (none, l)
  else
    let scan := l.source.scan l.strict
    let l' := { l with source := scan.source, tokens := l.tokens ++ scan.tokens }
    match scan.halt? with
    | some t => (some ⟨t.literal, t.start⟩, l')
    | none => (none, { l' with finished := true })

theorem tokenize_of_finished {l : Lexer} (h : l.finished = true) : l.tokenize = (none, l) := by
  simp [tokenize, h]

end Lexer

/-- The tokens of a text, illegal ones among them. -/
def tokenize (text : String) : List Token := (Source.ofString text).tokens

/-- The tokens of a text; if `strict`, an illegal token is an error. -/
def lex (strict : Bool) (text : String) : Except LexError (List Token) :=
  match ((Lexer.ofString text).setStrict strict).tokenize with
  | (some e, _) => .error e
  | (none, l) => .ok l.tokens

theorem lex_false (text : String) : lex false text = .ok (tokenize text) := by
  simp [lex, Lexer.tokenize, Lexer.setStrict, Lexer.ofString, Source.scan_false_halt?, tokenize,
    Source.tokens]

end Sentential
