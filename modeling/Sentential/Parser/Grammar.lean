import Sentential.Parser.Script

/-!
# Grammars

A grammar says for each kind of token how an operand may begin with it, how a formula read so far may go
on with it, and how tightly it binds then. An expression is an operand followed by all extensions that
bind tighter than the level it is read at. In the standard grammar the four connectives bind alike, so
chains group to the left, and a negation takes the shortest operand behind it.
-/

namespace Sentential.Parser

open Token (Kind)

structure Grammar where
  operand : Kind → Option (Script (Option Formula))
  /-- The script starts at the token that continues the given formula. -/
  extension : Kind → Option (Formula → Script (Option Formula))
  level : Kind → Level

namespace Grammar

def withOperand (g : Grammar) (kind : Kind) (script : Script (Option Formula)) : Grammar :=
  { g with operand := fun k => if k = kind then some script else g.operand k }

def withExtension (g : Grammar) (kind : Kind) (level : Level) (script : Formula → Script (Option Formula)) :
    Grammar :=
  { g with
    extension := fun k => if k = kind then some script else g.extension k
    level := fun k => if k = kind then level else g.level k }

/-- Extends `left` as long as the next token binds tighter than `level`, at most `count` times. -/
def extend (g : Grammar) (nested : Reader) (level : Level) :
    Nat → Formula → State → Option (Option Formula × State)
  | 0, left, s => some (some left, s)
  | count + 1, left, s =>
    match s.peek? with
    | none => some (some left, s)
    | some t =>
      if level < g.level t.kind then
        match g.extension t.kind with
        | none => some (some left, s)
        | some script =>
          match (script left).run nested s.advance with
          | none => none
          | some (none, s') => some (none, s')
          | some (some left, s') => g.extend nested level count left s'
      else some (some left, s)

/-- Reads the operand that an expression begins with. -/
def readOperand (g : Grammar) (nested : Reader) (s : State) : Option (Option Formula × State) :=
  match s.current? with
  | none => some (none, s.report .endOfInput)
  | some t =>
    match g.operand t.kind with
    | none => some (none, s.report (.noOperand t.literal))
    | some script => script.run nested s

/-- Reads an expression, given how the expressions inside it are read. -/
def readWith (g : Grammar) (nested : Reader) : Reader := fun level s =>
  match g.readOperand nested s with
  | none => none
  | some (none, s') => some (none, s')
  | some (some left, s') => g.extend nested level s'.rest.length left s'

/-- Reads an expression in which expressions are nested less than `depth` deep; there is no answer if they
are nested deeper. -/
def climb (g : Grammar) : Nat → Reader
  | 0, _, _ => none
  | depth + 1, level, s => g.readWith (g.climb depth) level s

/-- Reads an expression from the current token on. The current token is its last one afterwards. There is
no answer if the scripts of the grammar keep asking for an expression without moving on. -/
def expression (g : Grammar) : Reader := fun level s => g.climb (s.pending + 1) level s

/-- Whatever stands behind the expression of a statement is a fault. -/
def expectEnd (g : Grammar) (s : State) : State :=
  match s.peek? with
  | none => s
  | some t =>
    if t.kind = .closeParen ∨ (g.extension t.kind).isSome then s.report (.unexpected t.literal)
    else s.report (.noExtension t.literal)

/-- The statement of an expression that has been read, if one was found. -/
def finish (g : Grammar) (c : Command) : Option Formula × State → Option Statement × State
  | (none, s) => (none, s)
  | (some f, s) => (some ⟨c, f⟩, g.expectEnd s)

/-- Reads a statement from the next token on. -/
def statement (g : Grammar) (s : State) : Option (Option Statement × State) :=
  let s := s.advance
  match s.current? with
  | none => some (none, s.report .endOfInput)
  | some t =>
    match t.kind with
    | .command c =>
      match s.peek? with
      | none => some (none, s.report .endOfInput)
      | some _ => (g.expression .lowest s.advance).map (g.finish c)
    | _ => some (none, s.report (.unexpected t.literal))

end Grammar

/-- How tightly a kind of token binds unless a grammar says otherwise. -/
def Level.of : Kind → Level
  | .connective _ => .connective
  | .bang => .negation
  | _ => .lowest

namespace Standard

def name : Script (Option Formula) :=
  .current fun t? => .done (t?.map fun t => .var t.literal)

def constant (value : Bool) : Script (Option Formula) := .done (some (.const value))

def negation : Script (Option Formula) :=
  .current fun
    | some t =>
      match UnaryOperator.ofMark? t.literal with
      | some .not => .advance (.expression .negation fun f? => .done (f?.map .not))
      | none => .report (.noNegation t.literal) (.done none)
    | none => .done none

def group : Script (Option Formula) :=
  .advance (.expression .lowest fun f? => .andThen f? fun f => .peek fun
    | some t =>
      if t.kind = .closeParen then .advance (.done (some f))
      else .report (.unclosed (some t.literal)) (.done none)
    | none => .report (.unclosed none) (.done none))

def chain (left : Formula) : Script (Option Formula) :=
  .current fun
    | some t =>
      match Connective.ofGlyph? t.literal with
      | some c => .advance (.expression .connective fun f? => .done (f?.map (.binary t.literal c left)))
      | none => .report (.noConnective t.literal) (.done none)
    | none => .done none

end Standard

def Grammar.standard : Grammar where
  operand
    | .name => some Standard.name
    | .const value => some (Standard.constant value)
    | .bang => some Standard.negation
    | .openParen => some Standard.group
    | _ => none
  extension
    | .connective _ => some Standard.chain
    | _ => none
  level := Level.of

end Sentential.Parser
