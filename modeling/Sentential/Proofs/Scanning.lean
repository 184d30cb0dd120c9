import Sentential.Lexer
import Sentential.Proofs.WellFormed

/-!
# Tokens are spelt like their kinds

The kind of a token is decided once, by the lexer. A token that a lexer has made is `Spelt`: the parser
finds a connective in the literal of a connective, a `!` in that of a negation, a name of a variable in that
of a name, and a parenthesis in that of a parenthesis.
-/

namespace Sentential

/-- The text may be scanned as a token of the kind. -/
def Token.Kind.Spells (kind : Token.Kind) (literal : String) : Prop :=
  match kind with
  | .connective c => Connective.ofGlyph? literal = some c
  | .bang => literal = "!"
  | .name => IsName literal
  | .openParen => literal = "("
  | .closeParen => literal = ")"
  | _ => True

instance (kind : Token.Kind) (literal : String) : Decidable (kind.Spells literal) := by
  unfold Token.Kind.Spells
  split <;> infer_instance

def Token.Spelt (t : Token) : Prop := t.kind.Spells t.literal

namespace Token.Spelt
variable {t : Token}

theorem connective {c : Connective} (h : t.Spelt) (hk : t.kind = .connective c) :
    Connective.ofGlyph? t.literal = some c := by
  rwa [Token.Spelt, hk] at h

theorem bang (h : t.Spelt) (hk : t.kind = .bang) : t.literal = "!" := by
  rwa [Token.Spelt, hk] at h

theorem name (h : t.Spelt) (hk : t.kind = .name) : IsName t.literal := by
  rwa [Token.Spelt, hk] at h

theorem closeParen (h : t.Spelt) (hk : t.kind = .closeParen) : t.literal = ")" := by
  rwa [Token.Spelt, hk] at h

end Token.Spelt

namespace Lexeme

theorem spells_of_mem_symbols : ∀ s ∈ symbols, s.kind.Spells (String.ofList s.chars) := by decide

theorem spells_ofWord {word : List Char} (h : IsWord word) :
    (Token.Kind.ofWord (String.ofList word)).Spells (String.ofList word) := by
  have hword : IsWord (String.ofList word).toList := by rwa [String.toList_ofList]
  unfold Token.Kind.ofWord
  cases hres : Token.Kind.ofReserved? (String.ofList word) with
  | none => exact ⟨hword, hres⟩
  | some kind =>
    unfold Token.Kind.ofReserved? at hres
    split at hres <;> cases hres <;> trivial

theorem isWord_takeWhile {c : Char} (h : isNameStart c = true) (rest : List Char) :
    IsWord (c :: rest.takeWhile isNamePart) :=
  ⟨h, List.all_eq_true.1 List.all_takeWhile⟩

theorem spells_first (c : Char) (rest : List Char) :
    (first c rest).kind.Spells (String.ofList (first c rest).chars) := by
  unfold first
  split
  · next s h => exact spells_of_mem_symbols s (List.mem_of_find?_eq_some h)
  · split
    · next hc => exact spells_ofWord (isWord_takeWhile hc rest)
    · trivial

end Lexeme

namespace Source

theorem spelt_of_next? {s s' : Source} {t : Token} (h : s.next? = some (t, s')) : t.Spelt := by
  unfold next? at h
  split at h
  · cases h
  · next c rest _ =>
    cases h
    exact Lexeme.spells_first c rest

theorem spelt_of_mem_scan (strict : Bool) (s : Source) : ∀ t ∈ (s.scan strict).tokens, t.Spelt := by
  fun_induction scan strict s with
  | case1 s h => exact fun t ht => (List.not_mem_nil ht).elim
  | case2 s t s' h hill => exact fun t ht => (List.not_mem_nil ht).elim
  | case3 s t s' h hill later ih =>
    intro u hu
    rcases List.mem_cons.1 hu with rfl | hu
    · exact spelt_of_next? h
    · exact ih u hu

end Source

namespace Lexer

/-- The lexers over a text after any calls, in whatever mode each was made. -/
inductive Reachable : Lexer → Prop
  | start (text : String) : Reachable (.ofString text)
  | setStrict {l : Lexer} (strict : Bool) : Reachable l → Reachable (l.setStrict strict)
  | tokenize {l : Lexer} : Reachable l → Reachable l.tokenize.2

theorem spelt_tokenize {l : Lexer} (h : ∀ t ∈ l.tokens, t.Spelt) : ∀ t ∈ l.tokenize.2.tokens, t.Spelt := by
  have happ : ∀ t ∈ l.tokens ++ (l.source.scan l.strict).tokens, t.Spelt :=
    List.forall_mem_append.2 ⟨h, Source.spelt_of_mem_scan l.strict l.source⟩
  unfold tokenize
  split
  · exact h
  · dsimp only
    split <;> exact happ

theorem Reachable.spelt {l : Lexer} (h : l.Reachable) : ∀ t ∈ l.tokens, t.Spelt := by
  induction h with
  | start text => exact fun t ht => (List.not_mem_nil ht).elim
  | setStrict strict _ ih => exact ih
  | tokenize _ ih => exact spelt_tokenize ih

end Lexer

theorem spelt_of_mem_tokenize (text : String) : ∀ t ∈ tokenize text, t.Spelt :=
  Source.spelt_of_mem_scan false (.ofString text)

end Sentential
