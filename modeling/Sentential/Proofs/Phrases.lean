import Sentential.Token

/-!
# Phrases

The language of statements, said of tokens alone:

    statement := command chain
    chain     := operand (connective operand)*
    operand   := bang operand | name | const | openParen chain closeParen

Each phrase carries the formula that it stands for. The operands of a chain are folded from the left
(`Formula.foldLinks`), and a negation holds only the operand behind it.
-/

namespace Sentential

/-- A connective of a chain and the operand behind it. -/
structure Link where
  glyph : String
  connective : Connective
  right : Formula

/-- The chain that begins with `left` and goes on with the links, grouped to the left. -/
def Formula.foldLinks (left : Formula) (links : List Link) : Formula :=
  links.foldl (fun left k => .binary k.glyph k.connective left k.right) left

@[simp] theorem Formula.foldLinks_nil (left : Formula) : left.foldLinks [] = left := rfl

@[simp] theorem Formula.foldLinks_cons (left : Formula) (k : Link) (links : List Link) :
    left.foldLinks (k :: links) = (Formula.binary k.glyph k.connective left k.right).foldLinks links := rfl

mutual

inductive IsOperand : List Token → Formula → Prop
  | name {t : Token} : t.kind = .name → IsOperand [t] (.var t.literal)
  | const {t : Token} {value : Bool} : t.kind = .const value → IsOperand [t] (.const value)
  | negation {t : Token} {ts : List Token} {f : Formula} :
    t.kind = .bang → IsOperand ts f → IsOperand (t :: ts) (.not f)
  | group {t t' : Token} {ts : List Token} {f : Formula} :
    t.kind = .openParen → IsChain ts f → t'.kind = .closeParen → IsOperand (t :: (ts ++ [t'])) f

inductive IsChain : List Token → Formula → Prop
  | intro {ts us : List Token} {f : Formula} {links : List Link} :
    IsOperand ts f → AreLinks us links → IsChain (ts ++ us) (f.foldLinks links)

inductive AreLinks : List Token → List Link → Prop
  | nil : AreLinks [] []
  | cons {t : Token} {c : Connective} {ts us : List Token} {f : Formula} {links : List Link} :
    t.kind = .connective c → IsOperand ts f → AreLinks us links →
      AreLinks (t :: (ts ++ us)) (⟨t.literal, c, f⟩ :: links)

end

inductive IsSentence : List Token → Statement → Prop
  | intro {t : Token} {c : Command} {ts : List Token} {f : Formula} :
    t.kind = .command c → IsChain ts f → IsSentence (t :: ts) ⟨c, f⟩

theorem IsOperand.ne_nil {ts : List Token} {f : Formula} (h : IsOperand ts f) : ts ≠ [] := by
  cases h <;> exact List.cons_ne_nil _ _

theorem length_lt_append {ts : List Token} (h : ts ≠ []) (rest : List Token) : rest.length < (ts ++ rest).length := by
  have hpos := List.length_pos_iff.2 h
  rw [List.length_append]
  omega

/-- Behind an operand fewer tokens are left. -/
theorem IsOperand.length_lt {ts : List Token} {f : Formula} (h : IsOperand ts f) (rest : List Token) :
    rest.length < (ts ++ rest).length := length_lt_append h.ne_nil rest

theorem IsChain.of_operand {ts : List Token} {f : Formula} (h : IsOperand ts f) : IsChain ts f := by
  have hc := IsChain.intro h .nil
  rwa [List.append_nil] at hc

theorem IsChain.of_link {ts us : List Token} {t : Token} {c : Connective} {l r : Formula}
    (hl : IsOperand ts l) (hk : t.kind = .connective c) (hr : IsOperand us r) :
    IsChain (ts ++ t :: us) (.binary t.literal c l r) := by
  have hc := IsChain.intro hl (.cons hk hr .nil)
  rwa [List.append_nil] at hc

theorem IsChain.ne_nil {ts : List Token} {f : Formula} (h : IsChain ts f) : ts ≠ [] := by
  obtain ⟨ho, -⟩ := h
  exact fun hnil => ho.ne_nil (List.append_eq_nil_iff.1 hnil).1

end Sentential
