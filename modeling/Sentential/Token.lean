import Sentential.Statement

/-!
# Tokens

A token is a classified piece of a line. Its place is counted in characters, so it agrees with what a
reader sees on screen whatever alphabet the names are written in.
-/

namespace Sentential

inductive Token.Kind where
  | openParen
  | closeParen
  | bang
  | connective (c : Connective)
  | equal
  | unequal
  | const (value : Bool)
  | name
  | command (c : Command)
  | introduce
  | illegal
  deriving DecidableEq, Repr

structure Token where
  kind : Token.Kind
  literal : String
  start : Nat
  deriving DecidableEq, Repr

namespace Token

namespace Kind

/-- The kind of a reserved word; `introduce` is reserved although no statement uses it. -/
def ofReserved? : String → Option Kind
  | "table" => some (.command .table)
  | "simplify" => some (.command .simplify)
  | "introduce" => some .introduce
  | "true" => some (.const true)
  | "false" => some (.const false)
  | _ => none

def ofWord (word : String) : Kind := (ofReserved? word).getD .name

def label : Kind → String
  | .openParen => "lparen"
  | .closeParen => "rparen"
  | .bang => "bang"
  | .connective .and => "and"
  | .connective .or => "or"
  | .connective .implies => "implication"
  | .connective .iff => "bicondition"
  | .equal => "eq"
  | .unequal => "neq"
  | .const true => "true"
  | .const false => "false"
  | .name => "ident"
  | .command .table => "table"
  | .command .simplify => "simplify"
  | .introduce => "introduce"
  | .illegal => "illegal"

def all : List Kind :=
  [.openParen, .closeParen, .bang, .connective .and, .connective .or, .connective .implies,
   .connective .iff, .equal, .unequal, .const true, .const false, .name, .command .table,
   .command .simplify, .introduce, .illegal]

theorem mem_all (k : Kind) : k ∈ all := by
  cases k with
  | connective c => cases c <;> decide
  | const b => cases b <;> decide
  | command c => cases c <;> decide
  | _ => decide

def ofLabel? (text : String) : Option Kind := all.find? fun k => k.label == text

theorem ofLabel?_label (k : Kind) : ofLabel? k.label = some k := by
  cases k with
  | connective c => cases c <;> decide
  | const b => cases b <;> decide
  | command c => cases c <;> decide
  | _ => decide

end Kind

/-- The number of characters a token covers. -/
def length (t : Token) : Nat := t.literal.length

def describe (t : Token) : String :=
  t.kind.label ++ " `" ++ t.literal ++ "` at " ++ toString t.start

end Token

end Sentential
