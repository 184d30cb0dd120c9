import Sentential.Proofs.Rescanning
import Sentential.Proofs.Scanning

/-!
# The longest lexeme is taken

Which texts are lexemes is said of each text as a whole (`Lexeme.IsLegal`), and a scan has to take the longest
one that the text still to be scanned begins with (`Lexeme.IsCut`). The scanner tries symbols in a fixed order
and words after them. No symbol that it tries later is longer than the one it takes (`pairwise_symbols`), and
none begins like a word, so that is the same. A text falls into its tokens in one way only, and these are
the ones that the scanner finds (`Source.fallsInto_iff`).
-/

namespace Sentential

/-- The kind of a symbol. -/
def Token.Kind.ofSymbol? : String → Option Token.Kind
  | "(" => some .openParen
  | ")" => some .closeParen
  | "&" | "&&" | "*" => some (.connective .and)
  | "|" | "||" | "+" => some (.connective .or)
  | "->" => some (.connective .implies)
  | "<->" => some (.connective .iff)
  | "!" => some .bang
  | "==" => some .equal
  | "!=" => some .unequal
  | "0" => some (.const false)
  | "1" => some (.const true)
  | _ => none

namespace Lexeme

/-- The words that are not free to be names. -/
def reserved : List Lexeme :=
  [⟨.command .table, "table".toList⟩,
   ⟨.command .simplify, "simplify".toList⟩,
   ⟨.introduce, "introduce".toList⟩,
   ⟨.const true, "true".toList⟩,
   ⟨.const false, "false".toList⟩]

inductive IsLegal : Lexeme → Prop
  | symbol {kind : Token.Kind} {cs : List Char} :
    Token.Kind.ofSymbol? (String.ofList cs) = some kind → IsLegal ⟨kind, cs⟩
  | reserved {x : Lexeme} : x ∈ reserved → IsLegal x
  | name {cs : List Char} : IsWord cs → (∀ x ∈ reserved, x.chars ≠ cs) → IsLegal ⟨.name, cs⟩

/-- No legal lexeme stands at the front of the text. -/
def NoneBegins (text : List Char) : Prop := ∀ y : Lexeme, y.IsLegal → ¬ y.chars <+: text

/-- What has to be cut off the front of a text: the longest legal lexeme, or if there is none a broken-off arrow
or a single character. -/
inductive IsCut (text : List Char) : Lexeme → Prop
  | legal {x : Lexeme} : x.IsLegal → x.chars <+: text →
    (∀ y : Lexeme, y.IsLegal → y.chars <+: text → y.chars.length ≤ x.chars.length) → IsCut text x
  | arrow : NoneBegins text → ['<', '-'] <+: text → IsCut text ⟨.illegal, ['<', '-']⟩
  | unknown {c : Char} : NoneBegins text → ¬ ['<', '-'] <+: text → [c] <+: text → IsCut text ⟨.illegal, [c]⟩

theorem mem_symbols_iff {kind : Token.Kind} {cs : List Char} :
    ⟨kind, cs⟩ ∈ symbols ↔ Token.Kind.ofSymbol? (String.ofList cs) = some kind := by
  have hall : ∀ s ∈ symbols, Token.Kind.ofSymbol? (String.ofList s.chars) = some s.kind := by decide
  refine ⟨fun h => hall _ h, fun h => ?_⟩
  unfold Token.Kind.ofSymbol? at h
  split at h
  case h_16 => cases h
  all_goals
    next hcs =>
      cases h
      rw [← String.toList_ofList (l := cs), hcs]
      decide

theorem isLegal_of_mem_symbols {x : Lexeme} (h : x ∈ symbols) : x.IsLegal := .symbol (mem_symbols_iff.1 h)

/-- A symbol that begins another one stands behind it. -/
theorem pairwise_symbols : symbols.Pairwise fun s t => ¬ s.chars <+: t.chars := by decide

theorem mem_reserved_iff {kind : Token.Kind} {cs : List Char} :
    ⟨kind, cs⟩ ∈ reserved ↔ Token.Kind.ofReserved? (String.ofList cs) = some kind := by
  have hall : ∀ x ∈ reserved, Token.Kind.ofReserved? (String.ofList x.chars) = some x.kind := by decide
  refine ⟨fun h => hall _ h, fun h => ?_⟩
  unfold Token.Kind.ofReserved? at h
  split at h
  case h_6 => cases h
  all_goals
    next hcs =>
      cases h
      rw [← String.toList_ofList (l := cs), hcs]
      decide

theorem isWord_of_mem_reserved : ∀ x ∈ reserved, IsWord x.chars := by decide

theorem isLegal_of_isWord {cs : List Char} (h : IsWord cs) : IsLegal ⟨.ofWord (String.ofList cs), cs⟩ := by
  rw [Token.Kind.ofWord]
  cases hres : Token.Kind.ofReserved? (String.ofList cs) with
  | some kind => exact .reserved (mem_reserved_iff.2 hres)
  | none =>
    refine .name h fun x hx hchars => ?_
    subst hchars
    cases hres.symm.trans (mem_reserved_iff.1 hx)

/-- A word has the kind that its whole text decides. -/
theorem IsLegal.mem_symbols_or_isWord {x : Lexeme} (h : x.IsLegal) :
    x ∈ symbols ∨ IsWord x.chars ∧ x.kind = .ofWord (String.ofList x.chars) := by
  cases h with
  | symbol hkind => exact .inl (mem_symbols_iff.2 hkind)
  | reserved hmem =>
    refine .inr ⟨isWord_of_mem_reserved x hmem, ?_⟩
    rw [Token.Kind.ofWord, mem_reserved_iff.1 hmem, Option.getD_some]
  | @name cs hword hfree =>
    refine .inr ⟨hword, ?_⟩
    rw [Token.Kind.ofWord]
    cases hres : Token.Kind.ofReserved? (String.ofList cs) with
    | none => rfl
    | some kind => exact absurd rfl (hfree _ (mem_reserved_iff.2 hres))

section
variable {x y : Lexeme} {c : Char} {text rest : List Char}

/-- The symbol that the scanner takes is the longest one. -/
theorem length_le_of_find?_symbols (h : symbols.find? (fun s => s.chars.isPrefixOf text) = some x)
    (hy : y ∈ symbols) (hpre : y.chars <+: text) : y.chars.length ≤ x.chars.length := by
  obtain ⟨hx, before, after, hsplit, hbefore⟩ := List.find?_eq_some_iff_append.1 h
  have hordered := pairwise_symbols
  rw [hsplit] at hy hordered
  rcases List.mem_append.1 hy with hy | hy
  · have hnot := hbefore y hy
    rw [List.isPrefixOf_iff_prefix.2 hpre] at hnot
    cases hnot
  · rcases List.mem_cons.1 hy with rfl | hy
    · exact Nat.le_refl _
    · have hnot := (List.pairwise_cons.1 (List.pairwise_append.1 hordered).2.1).1 y hy
      refine Nat.le_of_not_lt fun hlt => hnot ?_
      exact List.prefix_of_prefix_length_le (List.isPrefixOf_iff_prefix.1 hx) hpre (Nat.le_of_lt hlt)

theorem not_prefix_of_find?_symbols (h : symbols.find? (fun s => s.chars.isPrefixOf text) = none)
    (hy : y ∈ symbols) : ¬ y.chars <+: text := by
  intro hpre
  exact List.find?_eq_none.1 h y hy (List.isPrefixOf_iff_prefix.2 hpre)

theorem isNameStart_of_isWord (hy : IsWord y.chars) (hpre : y.chars <+: c :: rest) : isNameStart c = true := by
  obtain ⟨d, ds, hchars, hd, -⟩ := hy.exists_cons
  rw [hchars] at hpre
  rw [← (List.cons_prefix_cons.1 hpre).1]
  exact hd

/-- The run of name characters at the front of a text is the longest word there. -/
theorem length_le_of_isWord (hy : IsWord y.chars) (hpre : y.chars <+: c :: rest) :
    y.chars.length ≤ (c :: rest.takeWhile isNamePart).length := by
  obtain ⟨d, ds, hchars, -, hds⟩ := hy.exists_cons
  rw [hchars] at hpre ⊢
  obtain ⟨more, rfl⟩ := (List.cons_prefix_cons.1 hpre).2
  rw [List.takeWhile_append_of_pos hds, List.length_cons, List.length_cons, List.length_append]
  omega

theorem noneBegins_of_find?_symbols (h : symbols.find? (fun s => s.chars.isPrefixOf (c :: rest)) = none)
    (hc : isNameStart c = false) : NoneBegins (c :: rest) := by
  intro y hy hpre
  rcases hy.mem_symbols_or_isWord with hmem | ⟨hword, -⟩
  · exact not_prefix_of_find?_symbols h hmem hpre
  · rw [isNameStart_of_isWord hword hpre] at hc
    cases hc

/-- The three ways in which `first` may end are the three ways to cut. -/
theorem isCut_first (c : Char) (rest : List Char) : IsCut (c :: rest) (first c rest) := by
  have hpre := first_isPrefix c rest
  unfold first at hpre ⊢
  cases hfind : symbols.find? (fun s => s.chars.isPrefixOf (c :: rest)) with
  | some x =>
    rw [hfind] at hpre
    refine .legal (isLegal_of_mem_symbols (List.mem_of_find?_eq_some hfind)) hpre fun y hy hy' => ?_
    rcases hy.mem_symbols_or_isWord with hmem | ⟨hword, -⟩
    · exact length_le_of_find?_symbols hfind hmem hy'
    · rw [find?_symbols_of_isNameStart (isNameStart_of_isWord hword hy')] at hfind
      cases hfind
  | none =>
    rw [hfind] at hpre
    dsimp only at hpre ⊢
    by_cases hc : isNameStart c = true
    · rw [if_pos hc] at hpre ⊢
      refine .legal (isLegal_of_isWord (isWord_takeWhile hc rest)) hpre fun y hy hy' => ?_
      rcases hy.mem_symbols_or_isWord with hmem | ⟨hword, -⟩
      · exact absurd hy' (not_prefix_of_find?_symbols hfind hmem)
      · exact length_le_of_isWord hword hy'
    · have hnone := noneBegins_of_find?_symbols hfind (Bool.eq_false_iff.2 hc)
      rw [if_neg hc]
      unfold fragment
      split
      · exact .arrow hnone ⟨_, rfl⟩
      · next hfragment =>
        refine .unknown hnone (fun ⟨more, he⟩ => ?_) ⟨_, rfl⟩
        cases he
        exact hfragment _ rfl rfl

theorem IsLegal.chars_ne_nil (h : x.IsLegal) : x.chars ≠ [] := by
  rcases h.mem_symbols_or_isWord with hmem | ⟨hword, -⟩
  · exact chars_ne_nil_of_mem_symbols x hmem
  · obtain ⟨c, cs, hchars, -⟩ := hword.exists_cons
    rw [hchars]
    exact List.cons_ne_nil _ _

theorem not_isWord_of_mem_symbols {kind : Token.Kind} {cs : List Char} (h : ⟨kind, cs⟩ ∈ symbols) : ¬ IsWord cs := by
  intro hword
  obtain ⟨c, cs, rfl, hc, -⟩ := hword.exists_cons
  have hhead : isNameStart c = false := isNameStart_head_of_mem_symbols _ h
  rw [hc] at hhead
  cases hhead

/-- The text of a legal lexeme determines its kind. -/
theorem IsLegal.eq_of_chars_eq (hx : x.IsLegal) (hy : y.IsLegal) (h : x.chars = y.chars) : x = y := by
  obtain ⟨kind, cs⟩ := x
  obtain ⟨kind', cs'⟩ := y
  obtain rfl : cs = cs' := h
  rcases hx.mem_symbols_or_isWord with hx | ⟨hx, hkind⟩
  · rcases hy.mem_symbols_or_isWord with hy | ⟨hy, -⟩
    · cases (mem_symbols_iff.1 hx).symm.trans (mem_symbols_iff.1 hy)
      rfl
    · exact absurd hy (not_isWord_of_mem_symbols hx)
  · rcases hy.mem_symbols_or_isWord with hy | ⟨-, hkind'⟩
    · exact absurd hx (not_isWord_of_mem_symbols hy)
    · obtain rfl : kind = kind' := hkind.trans hkind'.symm
      rfl

namespace IsCut

theorem chars_ne_nil (h : IsCut text x) : x.chars ≠ [] := by
  cases h with
  | legal hx _ _ => exact hx.chars_ne_nil
  | arrow => exact List.cons_ne_nil _ _
  | unknown => exact List.cons_ne_nil _ _

theorem unique (hx : IsCut text x) (hy : IsCut text y) : x = y := by
  cases hx with
  | legal hx hxpre hxmax =>
    cases hy with
    | legal hy hypre hymax =>
      have hlen : x.chars.length = y.chars.length := Nat.le_antisymm (hymax x hx hxpre) (hxmax y hy hypre)
      exact hx.eq_of_chars_eq hy ((List.prefix_of_prefix_length_le hxpre hypre (Nat.le_of_eq hlen)).eq_of_length hlen)
    | arrow hnone _ => exact absurd hxpre (hnone x hx)
    | unknown hnone _ _ => exact absurd hxpre (hnone x hx)
  | arrow hnone harrow =>
    cases hy with
    | legal hy hypre _ => exact absurd hypre (hnone y hy)
    | arrow => rfl
    | unknown _ hno _ => exact absurd harrow hno
  | @unknown c hnone hno hc =>
    cases hy with
    | legal hy hypre _ => exact absurd hypre (hnone y hy)
    | arrow _ harrow => exact absurd harrow hno
    | @unknown d _ _ hd =>
      obtain ⟨rest, rfl⟩ := hc
      rw [(List.cons_prefix_cons.1 hd).1]

end IsCut

end

end Lexeme

namespace Source

def separators : List Char := [' ', '\t', '\n', '\r']

/-- The text `cs`, which stands behind `n` characters, consists of the tokens and the separators before, between
and behind them. -/
inductive FallsInto : Nat → List Char → List Token → Prop
  | nil {n : Nat} {blanks : List Char} : (∀ c ∈ blanks, c ∈ separators) → FallsInto n blanks []
  | cons {n : Nat} {blanks rest : List Char} {x : Lexeme} {ts : List Token} :
    (∀ c ∈ blanks, c ∈ separators) → (∀ c ∈ (x.chars ++ rest).head?, c ∉ separators) →
      Lexeme.IsCut (x.chars ++ rest) x → FallsInto (n + blanks.length + x.chars.length) rest ts →
      FallsInto n (blanks ++ (x.chars ++ rest)) (⟨x.kind, String.ofList x.chars, n + blanks.length⟩ :: ts)

variable {n : Nat} {cs rest : List Char} {x : Lexeme} {ts : List Token} {s s' : Source} {t : Token}

theorem isSeparator_iff {c : Char} : isSeparator c = true ↔ c ∈ separators := by
  simp [isSeparator, separators, or_assoc]

theorem tokens_separators (h : ∀ c ∈ cs, c ∈ separators) (n : Nat) (rest : List Char) :
    (Source.mk n (cs ++ rest)).tokens = (Source.mk (n + cs.length) rest).tokens := by
  induction cs generalizing n with
  | nil => rfl
  | cons c cs ih =>
    obtain ⟨hc, hcs⟩ := List.forall_mem_cons.1 h
    rw [List.cons_append, tokens_separator (isSeparator_iff.2 hc), ih hcs, List.length_cons]
    congr 2
    omega

theorem leads_of_isCut (hx : Lexeme.IsCut (x.chars ++ rest) x)
    (hhead : ∀ c ∈ (x.chars ++ rest).head?, c ∉ separators) : x.Leads rest := by
  cases hchars : x.chars with
  | nil => exact absurd hchars hx.chars_ne_nil
  | cons c cs =>
    rw [hchars] at hx hhead
    refine ⟨c, cs, hchars, ?_, (Lexeme.isCut_first c (cs ++ rest)).unique hx⟩
    exact Bool.eq_false_iff.2 fun hc => hhead c rfl (isSeparator_iff.1 hc)

theorem FallsInto.eq_tokens (h : FallsInto n cs ts) : ts = (Source.mk n cs).tokens := by
  induction h with
  | @nil n blanks hblanks =>
    have hall := tokens_separators hblanks n []
    rw [List.append_nil, tokens_nil] at hall
    exact hall.symm
  | cons hblanks hhead hx _ ih =>
    rw [tokens_separators hblanks, tokens_lexeme (leads_of_isCut hx hhead), ← ih]

theorem mem_separators_of_mem_takeWhile : ∀ c ∈ cs.takeWhile isSeparator, c ∈ separators :=
  fun c hc => isSeparator_iff.1 (List.all_eq_true.1 List.all_takeWhile c hc)

theorem not_mem_separators_of_dropWhile {c : Char} (h : cs.dropWhile isSeparator = c :: rest) : c ∉ separators := by
  have hhead := List.head?_dropWhile_not isSeparator cs
  rw [h, List.head?_cons] at hhead
  intro hc
  cases (isSeparator_iff.2 hc).symm.trans hhead

theorem fallsInto_of_next?_eq_none (h : s.next? = none) : FallsInto s.offset s.rest [] := by
  unfold next? at h
  split at h
  · next hdrop =>
    have hall : s.rest.takeWhile isSeparator ++ s.rest.dropWhile isSeparator = s.rest :=
      List.takeWhile_append_dropWhile
    rw [hdrop, List.append_nil] at hall
    rw [← hall]
    exact .nil mem_separators_of_mem_takeWhile
  · cases h

theorem fallsInto_of_next?_eq_some (h : s.next? = some (t, s')) (hrest : FallsInto s'.offset s'.rest ts) :
    FallsInto s.offset s.rest (t :: ts) := by
  unfold next? at h
  split at h
  · cases h
  · next c cs hdrop =>
    cases h
    have hall : s.rest.takeWhile isSeparator ++ s.rest.dropWhile isSeparator = s.rest :=
      List.takeWhile_append_dropWhile
    have hcut := Lexeme.isCut_first c cs
    obtain ⟨rest, hsplit⟩ := Lexeme.first_isPrefix c cs
    have hhead : ∀ d ∈ (c :: cs).head?, d ∉ separators := fun d hd => by
      cases hd
      exact not_mem_separators_of_dropWhile hdrop
    rw [← hsplit] at hcut hhead
    rw [← hsplit, List.drop_left] at hrest
    rw [hdrop, ← hsplit] at hall
    have hcons := FallsInto.cons mem_separators_of_mem_takeWhile hhead hcut hrest
    rwa [hall] at hcons

theorem fallsInto_tokens (s : Source) : FallsInto s.offset s.rest s.tokens := by
  unfold tokens
  fun_induction scan false s with
  | case1 s h => exact fallsInto_of_next?_eq_none h
  | case2 s t s' h hill => cases hill
  | case3 s t s' h hill later ih => exact fallsInto_of_next?_eq_some h ih

theorem fallsInto_iff : FallsInto n cs ts ↔ ts = (Source.mk n cs).tokens := by
  refine ⟨FallsInto.eq_tokens, ?_⟩
  rintro rfl
  exact fallsInto_tokens ⟨n, cs⟩

end Source

/-- Every text is scanned into tokens without an error if illegal ones are none, and these are the tokens that it
falls into when the longest legal lexeme is cut off its front again and again. -/
theorem lex_false_takes_longest (text : String) :
    ∃ tokens, lex false text = .ok tokens ∧ ∀ ts, Source.FallsInto 0 text.toList ts ↔ ts = tokens :=
  ⟨tokenize text, lex_false text, fun _ => Source.fallsInto_iff⟩

/-- A broken-off arrow, symbols in a row and digits at names. -/
example : (tokenize "table &&&!==|||<-->truex true1a<-").map (fun t => (t.kind, t.literal, t.start)) =
    [(.command .table, "table", 0), (.connective .and, "&&", 6), (.connective .and, "&", 8),
     (.unequal, "!=", 9), (.illegal, "=", 11), (.connective .or, "||", 12), (.connective .or, "|", 14),
     (.illegal, "<-", 15), (.connective .implies, "->", 17), (.name, "truex", 19), (.name, "true1a", 25),
     (.illegal, "<-", 31)] := by decide +kernel

end Sentential
