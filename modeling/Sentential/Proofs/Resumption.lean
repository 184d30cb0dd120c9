import Sentential.Proofs.Strictness

/-!
# Lexers that are asked again

A lexer may be asked for its tokens any number of times, and its mode changed in between. `Stands` says how
far it has come then: some of the tokens of the text have been scanned, all of these are kept but the illegal
ones that calls have reported, and no other token has been touched. One call keeps that
(`Stands.exists_perform`), so any number of them do (`Stands.exists_after`). No two tokens begin at the
same place (`Source.nodup_tokens`), so it is clear which one a failure is about.
-/

namespace Sentential

namespace Source

variable {s s' : Source} {t : Token}

theorem start_of_next? (h : s.next? = some (t, s')) : s.offset ≤ t.start ∧ t.start < s'.offset := by
  unfold next? at h
  split at h
  · cases h
  · next c rest _ =>
    cases h
    exact ⟨Nat.le_add_right _ _, Nat.lt_add_of_pos_right (List.length_pos_iff.2 (Lexeme.first_chars_ne_nil c rest))⟩

theorem offset_le_start (strict : Bool) (s : Source) : ∀ t ∈ (s.scan strict).tokens, s.offset ≤ t.start := by
  fun_induction scan strict s with
  | case1 s h => exact fun t ht => (List.not_mem_nil ht).elim
  | case2 s t s' h hill => exact fun t ht => (List.not_mem_nil ht).elim
  | case3 s t s' h hill later ih =>
    obtain ⟨hle, hlt⟩ := start_of_next? h
    intro u hu
    rcases List.mem_cons.1 hu with rfl | hu
    · exact hle
    · exact Nat.le_trans (Nat.le_of_lt (Nat.lt_of_le_of_lt hle hlt)) (ih u hu)

theorem pairwise_start_lt (strict : Bool) (s : Source) :
    (s.scan strict).tokens.Pairwise fun t u => t.start < u.start := by
  fun_induction scan strict s with
  | case1 s h => exact .nil
  | case2 s t s' h hill => exact .nil
  | case3 s t s' h hill later ih =>
    refine .cons (fun u hu => ?_) ih
    exact Nat.lt_of_lt_of_le (start_of_next? h).2 (offset_le_start strict s' u hu)

theorem nodup_tokens (s : Source) : s.tokens.Nodup :=
  List.Pairwise.imp (fun hlt he => Nat.ne_of_lt hlt (congrArg Token.start he)) (pairwise_start_lt false s)

end Source

namespace Lexer

/-- What can be asked of a lexer. -/
inductive Call where
  | tokenize
  | setStrict (strict : Bool)
  deriving DecidableEq, Repr

/-- The failure of a call, if it fails, and the lexer behind it. -/
def perform (l : Lexer) : Call → Option LexError × Lexer
  | .tokenize => l.tokenize
  | .setStrict strict => (none, l.setStrict strict)

def after (l : Lexer) : List Call → Lexer
  | [] => l
  | c :: calls => (l.perform c).2.after calls

/-- The failures of the calls, in the order in which they happen. -/
def failures (l : Lexer) : List Call → List LexError
  | [] => []
  | c :: calls => (l.perform c).1.toList ++ (l.perform c).2.failures calls

variable {l : Lexer} {t : Token} {T scanned new reported : List Token}

/-- Once finished, a lexer does nothing. Before that it scans all that is left, or if it is strict, up to
the first illegal token, which it reports and does not keep. -/
theorem tokenize_cases (l : Lexer) :
    (l.finished = true ∧ l.tokenize = (none, l)) ∨
      (∃ source, source.tokens = [] ∧ l.tokenize = (none, ⟨source, l.tokens ++ l.source.tokens, true, l.strict⟩)) ∨
      ∃ source legal t, l.strict = true ∧ firstIllegal? l.source.tokens = some t ∧
        l.source.tokens = legal ++ t :: source.tokens ∧
        l.tokenize = (some ⟨t.literal, t.start⟩, ⟨source, l.tokens ++ legal, false, l.strict⟩) := by
  by_cases hf : l.finished = true
  · exact .inl ⟨hf, tokenize_of_finished hf⟩
  · rcases l.source.scan_cases l.strict with ⟨hhalt, hkept, hleft, -⟩ | ⟨t, hhalt, hstrict, hfirst, hsplit⟩
    · exact .inr (.inl ⟨_, hleft, by simp [tokenize, hf, hhalt, hkept]⟩)
    · exact .inr (.inr ⟨_, _, t, hstrict, hfirst, hsplit, by simp [tokenize, hf, hhalt]⟩)

/-- The lexer of a text with the tokens `T` has scanned some of them, and calls have reported some of the
illegal ones among these. -/
structure Stands (T scanned reported : List Token) (l : Lexer) : Prop where
  /-- The other tokens are the ones that are still to be scanned. -/
  split : T = scanned ++ l.source.tokens
  illegal : reported.Sublist (scanned.filter fun t => t.kind == .illegal)
  /-- What has been scanned is kept unless it has been reported. -/
  kept : l.tokens = scanned.filter fun t => t ∉ reported
  ended : l.finished = true → l.source.tokens = []

theorem filter_append_unreported (h : ∀ t ∈ reported, t ∉ new) :
    (scanned ++ new).filter (fun t => t ∉ reported) = scanned.filter (fun t => t ∉ reported) ++ new := by
  have hnew : new.filter (fun t => t ∉ reported) = new :=
    List.filter_eq_self.2 fun u hu => decide_eq_true fun hr => h u hr hu
  rw [List.filter_append, hnew]

theorem filter_append_reported (h : t ∉ scanned) :
    (scanned ++ [t]).filter (fun u => u ∉ reported ++ [t]) = scanned.filter fun u => u ∉ reported := by
  have hscanned : scanned.filter (fun u => u ∉ reported ++ [t]) = scanned.filter fun u => u ∉ reported := by
    refine List.filter_congr fun u hu => ?_
    have hne : u ≠ t := fun he => h (he ▸ hu)
    simp [hne]
  rw [List.filter_append, hscanned]
  simp

namespace Stands

theorem start (text : String) : Stands (Sentential.tokenize text) [] [] (.ofString text) :=
  ⟨rfl, .slnil, rfl, nofun⟩

theorem mem_scanned (h : Stands T scanned reported l) : ∀ t ∈ reported, t ∈ scanned :=
  fun _ ht => (List.mem_filter.1 (h.illegal.subset ht)).1

theorem setStrict (h : Stands T scanned reported l) (strict : Bool) :
    Stands T scanned reported (l.setStrict strict) :=
  ⟨h.split, h.illegal, h.kept, h.ended⟩

/-- All that is left is scanned and kept. -/
theorem finish (h : Stands T scanned reported l) (hT : T.Nodup) {source : Source} (hsource : source.tokens = [])
    (strict : Bool) :
    Stands T (scanned ++ l.source.tokens) reported ⟨source, l.tokens ++ l.source.tokens, true, strict⟩ := by
  rw [h.split] at hT
  have hnew : ∀ t ∈ reported, t ∉ l.source.tokens :=
    fun t ht hl => (List.nodup_append.1 hT).2.2 t (h.mem_scanned t ht) t hl rfl
  refine ⟨?_, ?_, ?_, fun _ => hsource⟩
  · rw [hsource, List.append_nil]
    exact h.split
  · rw [List.filter_append]
    exact h.illegal.trans (List.sublist_append_left _ _)
  · rw [filter_append_unreported hnew, ← h.kept]

/-- Some tokens are scanned and kept, the illegal one behind them is scanned and reported. -/
theorem report (h : Stands T scanned reported l) (hT : T.Nodup) {source : Source}
    (hsplit : l.source.tokens = new ++ t :: source.tokens) (ht : t.kind = .illegal) (strict : Bool) :
    Stands T (scanned ++ new ++ [t]) (reported ++ [t]) ⟨source, l.tokens ++ new, false, strict⟩ := by
  have hT' : T = scanned ++ new ++ [t] ++ source.tokens := by
    rw [h.split, hsplit]
    simp
  rw [hT'] at hT
  obtain ⟨hkept, -, hlast⟩ := List.nodup_append.1 (List.nodup_append.1 hT).1
  have hnew : ∀ u ∈ reported, u ∉ new :=
    fun u hu hn => (List.nodup_append.1 hkept).2.2 u (h.mem_scanned u hu) u hn rfl
  have ht' : t ∉ scanned ++ new := fun hmem => hlast t hmem t (List.mem_singleton_self t) rfl
  refine ⟨hT', ?_, ?_, nofun⟩
  · rw [List.filter_append, List.filter_append]
    refine List.Sublist.append (h.illegal.trans (List.sublist_append_left _ _)) ?_
    simp [ht]
  · rw [filter_append_reported ht', filter_append_unreported hnew, ← h.kept]

/-- One call: nothing is lost or scanned twice, and what is reported is illegal. -/
theorem exists_perform (h : Stands T scanned reported l) (hT : T.Nodup) (c : Call) :
    ∃ scanned' reported', Stands T scanned' (reported ++ reported') (l.perform c).2 ∧
      (l.perform c).1.toList = reported'.map fun t => ⟨t.literal, t.start⟩ := by
  cases c with
  | setStrict strict => exact ⟨scanned, [], by rw [List.append_nil]; exact h.setStrict strict, rfl⟩
  | tokenize =>
    show ∃ scanned' reported', Stands T scanned' (reported ++ reported') l.tokenize.2 ∧
      l.tokenize.1.toList = reported'.map fun t => ⟨t.literal, t.start⟩
    rcases l.tokenize_cases with ⟨-, he⟩ | ⟨source, hsource, he⟩ | ⟨source, legal, t, -, hfirst, hsplit, he⟩
    · exact ⟨scanned, [], by rw [List.append_nil, he]; exact h, by rw [he]; rfl⟩
    · exact ⟨_, [], by rw [List.append_nil, he]; exact h.finish hT hsource l.strict, by rw [he]; rfl⟩
    · have ht := kind_of_firstIllegal? hfirst
      exact ⟨_, [t], by rw [he]; exact h.report hT hsplit ht l.strict, by rw [he]; rfl⟩

theorem exists_after (h : Stands T scanned reported l) (hT : T.Nodup) (calls : List Call) :
    ∃ scanned' reported', Stands T scanned' (reported ++ reported') (l.after calls) ∧
      l.failures calls = reported'.map fun t => ⟨t.literal, t.start⟩ := by
  induction calls generalizing l scanned reported with
  | nil => exact ⟨scanned, [], by rw [List.append_nil]; exact h, rfl⟩
  | cons c calls ih =>
    obtain ⟨scanned₁, reported₁, h₁, hfailed₁⟩ := h.exists_perform hT c
    obtain ⟨scanned₂, reported₂, h₂, hfailed₂⟩ := ih h₁
    refine ⟨scanned₂, reported₁ ++ reported₂, by rw [← List.append_assoc]; exact h₂, ?_⟩
    rw [failures, hfailed₁, hfailed₂, List.map_append]

end Stands

theorem finished_tokenize_iff : l.tokenize.2.finished = true ↔ l.tokenize.1 = none := by
  rcases l.tokenize_cases with ⟨hf, he⟩ | ⟨source, -, he⟩ | ⟨source, legal, t, -, -, -, he⟩
  · simp [he, hf]
  · simp [he]
  · simp [he]

theorem finished_perform_iff (c : Call) :
    (l.perform c).2.finished = true ↔ l.finished = true ∨ c = .tokenize ∧ l.tokenize.1 = none := by
  cases c with
  | setStrict strict => simp [perform, Lexer.setStrict]
  | tokenize =>
    have hnone : l.finished = true → l.tokenize.1 = none := fun hf => by rw [tokenize_of_finished hf]
    rw [perform, finished_tokenize_iff]
    simpa using hnone

/-- A lexer is finished if it was so at the start or some call has succeeded since. -/
theorem finished_after_iff (calls : List Call) :
    (l.after calls).finished = true ↔ l.finished = true ∨
      ∃ before later, calls = before ++ .tokenize :: later ∧ (l.after before).tokenize.1 = none := by
  induction calls generalizing l with
  | nil => simp [after]
  | cons c calls ih =>
    rw [after, ih, finished_perform_iff]
    constructor
    · rintro ((hf | ⟨rfl, hnone⟩) | ⟨before, later, rfl, hnone⟩)
      · exact .inl hf
      · exact .inr ⟨[], calls, rfl, hnone⟩
      · exact .inr ⟨c :: before, later, rfl, hnone⟩
    · rintro (hf | ⟨before, later, he, hnone⟩)
      · exact .inl (.inl hf)
      · cases before with
        | nil => cases he; exact .inl (.inr ⟨rfl, hnone⟩)
        | cons d before => cases he; exact .inr ⟨before, later, rfl, hnone⟩

theorem after_of_finished (hf : l.finished = true) (calls : List Call) :
    (l.after calls).tokens = l.tokens ∧ l.failures calls = [] := by
  induction calls generalizing l with
  | nil => exact ⟨rfl, rfl⟩
  | cons c calls ih =>
    cases c with
    | setStrict strict => exact ih (l := l.setStrict strict) hf
    | tokenize =>
      simp only [after, failures, perform, tokenize_of_finished hf]
      exact ih hf

theorem failure_of_tokenize {e : LexError} (h : l.tokenize.1 = some e) :
    l.strict = true ∧ ∃ t, firstIllegal? l.source.tokens = some t ∧ e = ⟨t.literal, t.start⟩ := by
  rcases l.tokenize_cases with ⟨-, he⟩ | ⟨source, -, he⟩ | ⟨source, legal, t, hstrict, hfirst, -, he⟩
  · rw [he] at h; cases h
  · rw [he] at h; cases h
  · rw [he] at h; cases h; exact ⟨hstrict, t, hfirst, rfl⟩

theorem Stands.left_of_tokenize (h : Stands T scanned reported l) (hnone : l.tokenize.1 = none) :
    l.tokenize.2.source.tokens = [] := by
  rcases l.tokenize_cases with ⟨hf, he⟩ | ⟨source, hsource, he⟩ | ⟨source, legal, t, -, -, -, he⟩
  · rw [he]; exact h.ended hf
  · rw [he]; exact hsource
  · rw [he] at hnone; cases hnone

/-- Whatever is asked of a lexer, it has scanned the first `k` tokens of its text and keeps all of them but
the illegal ones that calls have reported. A call fails only in strict mode, and reports the first
illegal token that has not been scanned before; one that succeeds scans all that is left. The lexer is
finished as soon as one has succeeded, and from then on its tokens stay and no call fails. So no more calls
fail than the text has illegal tokens. -/
theorem stands_after_calls (text : String) (calls : List Call) :
    let T := Sentential.tokenize text
    let l := (ofString text).after calls
    let failed := (ofString text).failures calls
    (∃ k ≤ T.length, ∃ reported, Stands T (T.take k) reported l ∧
        failed = reported.map fun t => ⟨t.literal, t.start⟩) ∧
      (∀ e, l.tokenize.1 = some e →
        l.strict = true ∧ ∃ t, firstIllegal? l.source.tokens = some t ∧ e = ⟨t.literal, t.start⟩) ∧
      (l.tokenize.1 = none → l.tokenize.2.source.tokens = []) ∧
      (l.finished = true ↔ ∃ before later, calls = before ++ .tokenize :: later ∧
        ((ofString text).after before).tokenize.1 = none) ∧
      (l.finished = true → ∀ more, (l.after more).tokens = l.tokens ∧ l.failures more = []) ∧
      failed.length ≤ T.countP fun t => t.kind == .illegal := by
  intro T l failed
  obtain ⟨scanned, reported, h, hfailed⟩ := (Stands.start text).exists_after (Source.nodup_tokens _) calls
  rw [List.nil_append] at h
  have hscanned : T.take scanned.length = scanned := by
    rw [show T = _ from h.split, List.take_left]
  have hk : scanned.length ≤ T.length := by
    rw [show T = _ from h.split, List.length_append]
    exact Nat.le_add_right _ _
  refine ⟨⟨scanned.length, hk, reported, by rw [hscanned]; exact h, hfailed⟩, fun e => failure_of_tokenize,
    h.left_of_tokenize, ?_, after_of_finished, ?_⟩
  · rw [finished_after_iff]
    simp [ofString]
  · have hle := h.illegal.length_le
    rw [← List.countP_eq_length_filter] at hle
    rw [show failed = _ from hfailed, List.length_map, show T = _ from h.split, List.countP_append]
    exact Nat.le_trans hle (Nat.le_add_right _ _)

/-- Two strict calls, then a lenient one, which keeps the last illegal token. -/
theorem stands_after_calls_of_relaxed :
    let twice : Lexer := (ofString "a $b - <-c").after [.setStrict true, .tokenize]
    let relaxed : Lexer := (ofString "a $b - <-c").after [.setStrict true, .tokenize, .tokenize, .setStrict false, .tokenize]
    (twice.tokenize.1 = some ⟨"-", 5⟩ ∧ twice.strict = true ∧
      ∃ t, firstIllegal? twice.source.tokens = some t ∧ LexError.mk "-" 5 = ⟨t.literal, t.start⟩) ∧
      relaxed.tokens = [⟨.name, "a", 0⟩, ⟨.name, "b", 3⟩, ⟨.illegal, "<-", 7⟩, ⟨.name, "c", 9⟩] ∧
      relaxed.tokenize.1 = none ∧ relaxed.tokenize.2.source.tokens = [] ∧ relaxed.finished = true ∧
      ∀ more, (relaxed.after more).tokens = relaxed.tokens ∧ relaxed.failures more = [] := by
  intro twice relaxed
  obtain ⟨-, hfails, -⟩ := stands_after_calls "a $b - <-c" [.setStrict true, .tokenize]
  obtain ⟨-, -, hleft, -, hstays, -⟩ :=
    stands_after_calls "a $b - <-c" [.setStrict true, .tokenize, .tokenize, .setStrict false, .tokenize]
  have hdash : twice.tokenize.1 = some ⟨"-", 5⟩ := by decide +kernel
  have hnone : relaxed.tokenize.1 = none := by decide +kernel
  have hfinished : relaxed.finished = true := by decide +kernel
  exact ⟨⟨hdash, hfails _ hdash⟩, by decide +kernel, hnone, hleft hnone, hfinished, hstays hfinished⟩

end Lexer

end Sentential
