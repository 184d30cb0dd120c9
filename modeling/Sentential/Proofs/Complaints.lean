import Sentential.Proofs.Phrases

/-!
# What is wrong with a line

To tell whether tokens form a statement, and if not what to say about them, one look at each token from left
to right is enough, if one knows what has to come next and how many groups are open. That is a `Place`.
`complaint?` is what is said about the first token that cannot stand at its place, or about the end. A phrase
takes its reader from before an operand to behind one, whatever groups it stands in
(`IsChain.complaint?_append`).
-/

namespace Sentential

/-- What has to come next, inside how many open groups. -/
inductive Place where
  | start
  | operand (depth : Nat)
  /-- An operand is complete: it may be continued, or its group closed. -/
  | complete (depth : Nat)
  deriving DecidableEq, Repr

namespace Place

/-- The place behind a token, or what is said if it cannot stand there. -/
def next : Place → Token → Except String Place
  | .start, t =>
    match t.kind with
    | .command _ => .ok (.operand 0)
    | _ => .error ("unexpected token " ++ t.literal)
  | .operand depth, t =>
    match t.kind with
    | .openParen => .ok (.operand (depth + 1))
    | .bang => .ok (.operand depth)
    | .name | .const _ => .ok (.complete depth)
    | _ => .error ("no prefix parse function for " ++ t.literal)
  | .complete 0, t =>
    match t.kind with
    | .connective _ => .ok (.operand 0)
    | .closeParen => .error "unexpected token )"
    | _ => .error ("no infix parse function for " ++ t.literal)
  | .complete (depth + 1), t =>
    match t.kind with
    | .connective _ => .ok (.operand (depth + 1))
    | .closeParen => .ok (.complete depth)
    | _ => .error ("expected ')', found " ++ t.literal)

/-- What is said if nothing more comes. -/
def atEnd : Place → Option String
  | .start | .operand _ => some "unexpected EOF"
  | .complete 0 => none
  | .complete (_ + 1) => some "expected ')', found EOF"

/-- What is said about tokens that begin at the place, if they cannot be the rest of a line. -/
def complaint? : Place → List Token → Option String
  | p, [] => p.atEnd
  | p, t :: ts =>
    match p.next t with
    | .ok p' => p'.complaint? ts
    | .error message => some message

variable {p p' : Place} {t : Token} {ts : List Token} {depth : Nat}

theorem complaint?_of_ok (h : p.next t = .ok p') : p.complaint? (t :: ts) = p'.complaint? ts := by
  rw [complaint?, h]

theorem complaint?_of_error {message : String} (h : p.next t = .error message) :
    p.complaint? (t :: ts) = some message := by
  rw [complaint?, h]

theorem next_start_command {c : Command} (h : t.kind = .command c) : Place.start.next t = .ok (.operand 0) := by
  simp [next, h]

theorem next_start_other (h : ∀ c, t.kind ≠ .command c) :
    Place.start.next t = .error ("unexpected token " ++ t.literal) := by
  rw [next]
  split
  · next hk => exact absurd hk (h _)
  · rfl

theorem next_operand_openParen (h : t.kind = .openParen) :
    (Place.operand depth).next t = .ok (.operand (depth + 1)) := by
  simp [next, h]

theorem next_operand_bang (h : t.kind = .bang) : (Place.operand depth).next t = .ok (.operand depth) := by
  simp [next, h]

theorem next_operand_name (h : t.kind = .name) : (Place.operand depth).next t = .ok (.complete depth) := by
  simp [next, h]

theorem next_operand_const {value : Bool} (h : t.kind = .const value) :
    (Place.operand depth).next t = .ok (.complete depth) := by
  simp [next, h]

theorem next_complete_connective {c : Connective} (h : t.kind = .connective c) :
    (Place.complete depth).next t = .ok (.operand depth) := by
  cases depth <;> simp [next, h]

theorem next_complete_closeParen (h : t.kind = .closeParen) :
    (Place.complete (depth + 1)).next t = .ok (.complete depth) := by
  simp [next, h]

theorem next_complete_closeParen_zero (h : t.kind = .closeParen) :
    (Place.complete 0).next t = .error "unexpected token )" := by
  rw [next, h]

/-- Only `name`, `const`, `bang` and `openParen` begin an operand. -/
theorem next_operand_other (hname : t.kind ≠ .name) (hconst : ∀ value, t.kind ≠ .const value)
    (hbang : t.kind ≠ .bang) (hopen : t.kind ≠ .openParen) :
    (Place.operand depth).next t = .error ("no prefix parse function for " ++ t.literal) := by
  rw [next]
  split
  · next h => exact absurd h hopen
  · next h => exact absurd h hbang
  · next h => exact absurd h hname
  · next h => exact absurd h (hconst _)
  · rfl

theorem next_complete_unclosed (hconn : ∀ c, t.kind ≠ .connective c) (hclose : t.kind ≠ .closeParen) :
    (Place.complete (depth + 1)).next t = .error ("expected ')', found " ++ t.literal) := by
  rw [next]
  split
  · next h => exact absurd h (hconn _)
  · next h => exact absurd h hclose
  · rfl

theorem next_complete_extra (hconn : ∀ c, t.kind ≠ .connective c) (hclose : t.kind ≠ .closeParen) :
    (Place.complete 0).next t = .error ("no infix parse function for " ++ t.literal) := by
  rw [next]
  split
  · next h => exact absurd h (hconn _)
  · next h => exact absurd h hclose
  · rfl

theorem take_toList_append (head tail : String) (h : 4 ≤ head.toList.length) :
    (head ++ tail).toList.take 4 = head.toList.take 4 := by
  rw [String.toList_append, List.take_append_of_le_length h]

/-- How everything that is said begins. -/
def openings : List (List Char) := ["unex".toList, "no p".toList, "no i".toList, "expe".toList]

theorem take_toList_of_next {message : String} (h : p.next t = .error message) :
    message.toList.take 4 ∈ openings := by
  cases p with
  | start =>
    rw [next] at h
    split at h
    · cases h
    · cases h
      rw [take_toList_append _ _ (by decide)]
      decide
  | operand depth =>
    rw [next] at h
    split at h
    case h_5 =>
      cases h
      rw [take_toList_append _ _ (by decide)]
      decide
    all_goals cases h
  | complete depth =>
    cases depth with
    | zero =>
      rw [next] at h
      split at h
      · cases h
      · cases h
        decide
      · cases h
        rw [take_toList_append _ _ (by decide)]
        decide
    | succ depth =>
      rw [next] at h
      split at h
      · cases h
      · cases h
      · cases h
        rw [take_toList_append _ _ (by decide)]
        decide

theorem take_toList_of_complaint? {message : String} (h : p.complaint? ts = some message) :
    message.toList.take 4 ∈ openings := by
  induction ts generalizing p with
  | nil =>
    rw [complaint?] at h
    unfold atEnd at h
    split at h <;> cases h <;> decide
  | cons t ts ih =>
    rw [complaint?] at h
    split at h
    · exact ih h
    · next hnext => cases h; exact take_toList_of_next hnext

theorem ne_append_of_complaint? {message head : String} (h : p.complaint? ts = some message)
    (hlen : 4 ≤ head.toList.length) (hhead : head.toList.take 4 ∉ openings) (tail : String) :
    message ≠ head ++ tail := by
  rintro rfl
  have hmem := take_toList_of_complaint? h
  rw [take_toList_append head tail hlen] at hmem
  exact hhead hmem

end Place

mutual

theorem IsOperand.complaint?_append : ∀ {us : List Token} {f : Formula}, IsOperand us f →
    ∀ (depth : Nat) (ts : List Token),
    (Place.operand depth).complaint? (us ++ ts) = (Place.complete depth).complaint? ts
  | _, _, .name hk, _, _ => Place.complaint?_of_ok (Place.next_operand_name hk)
  | _, _, .const hk, _, _ => Place.complaint?_of_ok (Place.next_operand_const hk)
  | _, _, .negation hk ho, depth, ts => by
    rw [List.cons_append, Place.complaint?_of_ok (Place.next_operand_bang hk)]
    exact ho.complaint?_append depth ts
  | _, _, @IsOperand.group t t' us f hk hc hk', depth, ts => by
    have happ : t :: (us ++ [t']) ++ ts = t :: (us ++ t' :: ts) := by simp
    rw [happ, Place.complaint?_of_ok (Place.next_operand_openParen hk), hc.complaint?_append (depth + 1)]
    exact Place.complaint?_of_ok (Place.next_complete_closeParen hk')

theorem IsChain.complaint?_append : ∀ {us : List Token} {f : Formula}, IsChain us f →
    ∀ (depth : Nat) (ts : List Token),
    (Place.operand depth).complaint? (us ++ ts) = (Place.complete depth).complaint? ts
  | _, _, .intro ho hlinks, depth, ts => by
    rw [List.append_assoc, ho.complaint?_append depth]
    exact hlinks.complaint?_append depth ts

theorem AreLinks.complaint?_append : ∀ {us : List Token} {links : List Link}, AreLinks us links →
    ∀ (depth : Nat) (ts : List Token),
    (Place.complete depth).complaint? (us ++ ts) = (Place.complete depth).complaint? ts
  | _, _, .nil, _, _ => rfl
  | _, _, .cons hk ho hlinks, depth, ts => by
    rw [List.cons_append, List.append_assoc, Place.complaint?_of_ok (Place.next_complete_connective hk),
      ho.complaint?_append depth]
    exact hlinks.complaint?_append depth ts

end

end Sentential
