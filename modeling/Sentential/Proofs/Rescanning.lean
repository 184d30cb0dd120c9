import Sentential.Lexer
import Sentential.Proofs.Phrases
import Sentential.Proofs.Readable

/-!
# Printed formulas scan as operands

A lexeme `Leads` what follows it if the scanner cuts it off there, and no more than it: a word leads what
delimits it, and a symbol whatever does not lengthen it. The text of a well-formed formula consists of such
lexemes, and its tokens are an operand that stands for it (`Formula.WellFormed.scannedBefore`).
-/

namespace Sentential

namespace Lexeme

open Source (isSeparator)

/-- The scanner cuts the lexeme off before `rest`. -/
def Leads (x : Lexeme) (rest : List Char) : Prop :=
  ∃ c cs, x.chars = c :: cs ∧ isSeparator c = false ∧ first c (cs ++ rest) = x

theorem isNameStart_head_of_mem_symbols :
    ∀ s ∈ symbols, s.chars.head?.any isNameStart = false := by decide

theorem isSeparator_of_isNameStart {c : Char} (h : isNameStart c = true) : isSeparator c = false := by
  cases hc : isSeparator c with
  | false => rfl
  | true =>
    simp only [isSeparator, Bool.or_eq_true, beq_iff_eq] at hc
    obtain ((rfl | rfl) | rfl) | rfl := hc <;> revert h <;> decide

theorem find?_symbols_of_isNameStart {c : Char} (h : isNameStart c = true) (rest : List Char) :
    symbols.find? (fun s => s.chars.isPrefixOf (c :: rest)) = none := by
  rw [List.find?_eq_none]
  intro s hs hpre
  obtain ⟨t, ht⟩ := List.isPrefixOf_iff_prefix.1 hpre
  cases hchars : s.chars with
  | nil => exact chars_ne_nil_of_mem_symbols s hs hchars
  | cons d ds =>
    have hd := isNameStart_head_of_mem_symbols s hs
    rw [hchars, List.cons_append, List.cons.injEq] at ht
    rw [hchars, List.head?_cons, Option.any_some, ht.1, h] at hd
    cases hd

/-- No symbol begins like a word, so a word is scanned up to its delimiter. -/
theorem leads_word {cs rest : List Char} (h : IsWord cs) (hrest : Delimits rest) :
    Leads ⟨.ofWord (String.ofList cs), cs⟩ rest := by
  obtain ⟨c, ds, rfl, hc, hds⟩ := h.exists_cons
  refine ⟨c, ds, rfl, isSeparator_of_isNameStart hc, ?_⟩
  unfold first
  rw [find?_symbols_of_isNameStart hc]
  dsimp only
  rw [if_pos hc, takeWhile_run hds hrest]

theorem leads_name {name : String} (h : IsName name) {rest : List Char} (hrest : Delimits rest) :
    Leads ⟨.name, name.toList⟩ rest := by
  obtain ⟨hword, hreserved⟩ := h
  have hkind : Token.Kind.ofWord name = .name := by rw [Token.Kind.ofWord, hreserved, Option.getD_none]
  have hleads := leads_word hword hrest
  rwa [String.ofList_toList, hkind] at hleads

theorem leads_command (c : Command) {rest : List Char} (hrest : Delimits rest) :
    Leads ⟨.command c, c.word.toList⟩ rest := by
  have hword : IsWord c.word.toList := by cases c <;> decide
  have hkind : Token.Kind.ofWord c.word = .command c := by cases c <;> rfl
  have hleads := leads_word hword hrest
  rwa [String.ofList_toList, hkind] at hleads

theorem leads_openParen (rest : List Char) : Leads ⟨.openParen, ['(']⟩ rest := ⟨_, _, rfl, rfl, rfl⟩

theorem leads_closeParen (rest : List Char) : Leads ⟨.closeParen, [')']⟩ rest := ⟨_, _, rfl, rfl, rfl⟩

theorem leads_const (value : Bool) (rest : List Char) :
    Leads ⟨.const value, [Formula.constChar value]⟩ rest := by
  cases value <;> exact ⟨_, _, rfl, rfl, rfl⟩

/-- Before `=` a `!` would be part of a longer symbol. -/
theorem leads_bang {c : Char} (hc : c ≠ '=') (rest : List Char) : Leads ⟨.bang, ['!']⟩ (c :: rest) := by
  have hne : ('=' == c) = false := beq_eq_false_iff_ne.2 hc.symm
  have hfind : symbols.find? (fun s => s.chars.isPrefixOf ('!' :: c :: rest)) = some ⟨.bang, ['!']⟩ := by
    simp [symbols, List.isPrefixOf, hne]
  refine ⟨_, _, rfl, rfl, ?_⟩
  unfold first
  rw [List.nil_append, hfind]

/-- A blank lengthens no symbol. -/
theorem leads_glyph {glyph : String} {c : Connective} (h : Connective.ofGlyph? glyph = some c)
    (rest : List Char) : Leads ⟨.connective c, glyph.toList⟩ (' ' :: rest) := by
  unfold Connective.ofGlyph? at h
  split at h
  case h_9 => cases h
  all_goals
    cases h
    exact ⟨_, _, rfl, rfl, rfl⟩

end Lexeme

namespace Source

theorem tokens_nil (n : Nat) : (Source.mk n []).tokens = [] := by
  rw [tokens, scan_of_next?_eq_none rfl]

theorem tokens_of_next?_eq_some {s s' : Source} {t : Token} (h : s.next? = some (t, s')) :
    s.tokens = t :: s'.tokens := by
  rw [tokens, scan_of_next?_eq_some h]
  rfl

theorem tokens_separator {c : Char} (hc : isSeparator c = true) (n : Nat) (rest : List Char) :
    (Source.mk n (c :: rest)).tokens = (Source.mk (n + 1) rest).tokens := by
  have hnext : (Source.mk n (c :: rest)).next? = (Source.mk (n + 1) rest).next? := by
    unfold next?
    rw [List.dropWhile_cons_of_pos hc, List.takeWhile_cons_of_pos hc]
    rw [List.length_cons, Nat.add_right_comm, Nat.add_assoc]
  cases h : (Source.mk (n + 1) rest).next? with
  | none =>
    rw [tokens, tokens, scan_of_next?_eq_none h, scan_of_next?_eq_none (hnext.trans h)]
  | some p => rw [tokens_of_next?_eq_some h, tokens_of_next?_eq_some (hnext.trans h)]

theorem tokens_lexeme {x : Lexeme} {rest : List Char} (h : x.Leads rest) (n : Nat) :
    (Source.mk n (x.chars ++ rest)).tokens =
      ⟨x.kind, String.ofList x.chars, n⟩ :: (Source.mk (n + x.chars.length) rest).tokens := by
  obtain ⟨c, cs, hchars, hsep, hfirst⟩ := h
  refine tokens_of_next?_eq_some ?_
  unfold next?
  rw [hchars, List.cons_append, List.dropWhile_cons_of_neg (by rw [hsep]; nofun),
    List.takeWhile_cons_of_neg (by rw [hsep]; nofun)]
  dsimp only
  rw [hfirst, hchars]
  simp

end Source

namespace Formula
variable {rest : List Char}

/-- Wherever the text of the formula stands before `rest`, the scan takes an operand off that stands for the
formula, and goes on at `rest`. -/
def ScannedBefore (rest : List Char) (f : Formula) : Prop :=
  ∀ n, ∃ ts m, (Source.mk n (f.chars ++ rest)).tokens = ts ++ (Source.mk m rest).tokens ∧ IsOperand ts f

theorem scannedBefore_var {name : String} (h : IsName name) (hrest : Delimits rest) :
    ScannedBefore rest (.var name) := by
  intro n
  refine ⟨[⟨.name, name, n⟩], n + name.toList.length, ?_, .name rfl⟩
  rw [chars_var, Source.tokens_lexeme (Lexeme.leads_name h hrest), String.ofList_toList]
  rfl

theorem scannedBefore_const (value : Bool) : ScannedBefore rest (.const value) := by
  intro n
  refine ⟨[⟨.const value, String.ofList [constChar value], n⟩], n + 1, ?_, .const rfl⟩
  exact Source.tokens_lexeme (Lexeme.leads_const value rest) n

theorem scannedBefore_not {a : Formula} (ha : a.WellFormed) (h : ScannedBefore rest a) :
    ScannedBefore rest (.not a) := by
  intro n
  obtain ⟨ts, m, htokens, ho⟩ := h (n + 1)
  obtain ⟨c, cs, hchars, hb⟩ := ha.exists_begins rest
  have hleads : Lexeme.Leads ⟨.bang, ['!']⟩ (a.chars ++ rest) := by
    rw [hchars]
    exact Lexeme.leads_bang hb.ne_equal cs
  refine ⟨⟨.bang, "!", n⟩ :: ts, m, ?_, .negation rfl ho⟩
  rw [List.cons_append, ← htokens]
  exact Source.tokens_lexeme hleads n

theorem scannedBefore_binary {glyph : String} {c : Connective} {l r : Formula}
    (hc : Connective.ofGlyph? glyph = some c)
    (hl : ScannedBefore (' ' :: (glyph.toList ++ ' ' :: (r.chars ++ ')' :: rest))) l)
    (hr : ScannedBefore (')' :: rest) r) : ScannedBefore rest (.binary glyph c l r) := by
  intro n
  let right := ' ' :: (r.chars ++ ')' :: rest)
  let inner := l.chars ++ ' ' :: (glyph.toList ++ right)
  obtain ⟨ts, m, hts, hol⟩ := hl (n + 1)
  obtain ⟨us, k, hus, hor⟩ := hr (m + 1 + glyph.toList.length + 1)
  let opening : Token := ⟨.openParen, "(", n⟩
  let link : Token := ⟨.connective c, glyph, m + 1⟩
  let closing : Token := ⟨.closeParen, ")", k⟩
  have hopening : (Source.mk n ('(' :: inner)).tokens = opening :: (Source.mk (n + 1) inner).tokens :=
    Source.tokens_lexeme (Lexeme.leads_openParen inner) n
  have hlink : (Source.mk (m + 1) (glyph.toList ++ right)).tokens =
      link :: (Source.mk (m + 1 + glyph.toList.length) right).tokens := by
    rw [Source.tokens_lexeme (Lexeme.leads_glyph hc _) (m + 1), String.ofList_toList]
  have hclosing : (Source.mk k (')' :: rest)).tokens = closing :: (Source.mk (k + 1) rest).tokens :=
    Source.tokens_lexeme (Lexeme.leads_closeParen rest) k
  refine ⟨opening :: ((ts ++ link :: us) ++ [closing]), k + 1, ?_, .group rfl (.of_link hol rfl hor) rfl⟩
  rw [chars_binary_append, hopening, hts, Source.tokens_separator rfl, hlink,
    Source.tokens_separator rfl, hus, hclosing]
  simp

/-- By induction on the formula; the blank or parenthesis behind a part of it delimits that part. -/
theorem WellFormed.scannedBefore {f : Formula} (hf : f.WellFormed) (hrest : Delimits rest) :
    f.ScannedBefore rest := by
  induction f generalizing rest with
  | var name => exact scannedBefore_var hf hrest
  | const value => exact scannedBefore_const value
  | not a ih => exact scannedBefore_not hf (ih hf hrest)
  | binary glyph c l r ihl ihr =>
    obtain ⟨hc, hl, hr⟩ := hf
    exact scannedBefore_binary hc (ihl hl (delimits_space _)) (ihr hr (delimits_close rest))

end Formula

namespace Statement

theorem toList_text (s : Statement) : s.text.toList = s.command.word.toList ++ ' ' :: s.formula.chars := by
  simp [text]

/-- A printed statement is scanned as a sentence that stands for it. -/
theorem WellFormed.isSentence_tokenize {s : Statement} (hs : s.WellFormed) : IsSentence (tokenize s.text) s := by
  obtain ⟨c, f⟩ := s
  have hf : f.WellFormed := hs
  obtain ⟨ts, m, hts, ho⟩ := hf.scannedBefore delimits_nil (c.word.toList.length + 1)
  have hleads := Lexeme.leads_command c (Formula.delimits_space f.chars)
  have htokens : tokenize (Statement.mk c f).text = ⟨.command c, c.word, 0⟩ :: ts := by
    rw [List.append_nil, Source.tokens_nil, List.append_nil] at hts
    rw [tokenize, Source.ofString, toList_text, Source.tokens_lexeme hleads, String.ofList_toList,
      Source.tokens_separator rfl, Nat.zero_add, hts]
  rw [htokens]
  exact .intro rfl (.of_operand ho)

end Statement

end Sentential
