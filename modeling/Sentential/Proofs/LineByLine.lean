import Sentential.Transcript
import Sentential.Proofs.Encoding

/-!
# A session answers line by line

Reading stops at the first line that is no text or begins with `.exit`. Before it, every line that is not
blank is a request (`requests`), and what a session writes is one answer for each, in their order
(`Session.readLines_eq`, by induction on the lines). An answer depends on its request alone, so the session
writes for an input what it would write for each request by itself, and inputs that make the same
requests are not told apart.
-/

namespace Sentential

open Text (said said?)

namespace Summary

def add (a b : Summary) : Summary := ⟨a.processed + b.processed, a.failed + b.failed⟩

theorem zero_add (a : Summary) : add ⟨0, 0⟩ a = a := by
  simp [add]

theorem add_assoc (a b c : Summary) : (a.add b).add c = a.add (b.add c) := by
  simp [add, Nat.add_assoc]

end Summary

namespace Session

/-- Reading stops at a line that says this: it is no text, or an order to leave. -/
def stops : Option String → Bool
  | none => true
  | some text => exitCommand.toList.isPrefixOf text.toList

/-- The lines before the one at which reading stops, where `lines` is what all of them say. -/
def heard (lines : List (Option String)) : List (Option String) := lines.takeWhile fun line? => !stops line?

/-- A line asks for an answer unless it is blank. -/
def request? (line? : Option String) : Option String := line?.filter (· ≠ "")

theorem request?_of_ne {text : String} (h : text ≠ "") : request? (some text) = some text :=
  Option.filter_some_pos (decide_eq_true h)

/-- The lines to answer. -/
def requests (lines : List (Option String)) : List String := (heard lines).filterMap request?

section
variable {line? : Option String} {lines : List (Option String)}

theorem heard_of_stops (h : stops line? = true) : heard (line? :: lines) = [] :=
  List.takeWhile_cons_of_neg (by simp [h])

theorem heard_cons (h : stops line? = false) : heard (line? :: lines) = line? :: heard lines :=
  List.takeWhile_cons_of_pos (by simp [h])

theorem requests_of_stops (h : stops line? = true) : requests (line? :: lines) = [] := by
  rw [requests, heard_of_stops h]
  rfl

theorem requests_cons (h : stops line? = false) :
    requests (line? :: lines) = (request? line?).toList ++ requests lines := by
  rw [requests, heard_cons h, List.filterMap_cons]
  cases request? line? <;> rfl

theorem requests_append {lines' : List (Option String)} (h : ∀ line? ∈ lines, stops line? = false) :
    requests (lines ++ lines') = requests lines ++ requests lines' := by
  induction lines with
  | nil => rfl
  | cons line? lines ih =>
    obtain ⟨hline, hlines⟩ := List.forall_mem_cons.1 h
    rw [List.cons_append, requests_cons hline, requests_cons hline, ih hlines, List.append_assoc]

theorem exists_of_mem_requests {text : String} (h : text ∈ requests lines) :
    some text ∈ lines ∧ text ≠ "" ∧ stops (some text) = false := by
  obtain ⟨line?, hmem, hrequest⟩ := List.mem_filterMap.1 h
  obtain ⟨rfl, hne⟩ := Option.filter_eq_some_iff.1 hrequest
  have hgoes := List.all_eq_true.1 List.all_takeWhile _ hmem
  exact ⟨(List.takeWhile_prefix _).subset hmem, of_decide_eq_true hne, by simpa using hgoes⟩

theorem find?_stops_eq_none (h : ∀ line? ∈ lines, stops line? = false) : lines.find? stops = none :=
  List.find?_eq_none.2 fun line? hline => by simp [h line? hline]

/-- Lines behind one at which reading stops make no difference. -/
theorem heard_append_of_stops {later : List (Option String)} (h : stops line? = true) :
    heard (lines ++ line? :: later) = heard lines := by
  induction lines with
  | nil => exact heard_of_stops h
  | cons line?' lines ih =>
    cases h' : stops line?' with
    | true => rw [List.cons_append, heard_of_stops h', heard_of_stops h']
    | false => rw [List.cons_append, heard_cons h', heard_cons h', ih]

theorem find?_append_of_stops {later : List (Option String)} (h : stops line? = true) :
    (lines ++ line? :: later).find? stops = (lines.find? stops).or (some line?) := by
  rw [List.find?_append, List.find?_cons_of_pos h]

/-- Nor do blank lines. -/
theorem requests_filter (lines : List (Option String)) : requests (lines.filter (· ≠ some "")) = requests lines := by
  induction lines with
  | nil => rfl
  | cons line? lines ih =>
    by_cases hblank : line? = some ""
    · subst hblank
      rw [List.filter_cons_of_neg (by simp), ih, requests_cons (by decide)]
      rfl
    · rw [List.filter_cons_of_pos (by simpa using hblank)]
      cases h : stops line? with
      | true => rw [requests_of_stops h, requests_of_stops h]
      | false => rw [requests_cons h, requests_cons h, ih]

theorem find?_stops_filter (lines : List (Option String)) :
    (lines.filter (· ≠ some "")).find? stops = lines.find? stops := by
  rw [List.find?_filter]
  congr 1
  funext line?
  by_cases hblank : line? = some ""
  · rw [hblank]
    decide
  · simp [hblank]

end

variable {s : Session} {mark : String} {done : Summary}

/-- What is written for a request. -/
def answer (s : Session) (text : String) : String :=
  match s.execute text with
  | .ok outcome => Text.stripNewlines (s.render outcome) ++ "\n"
  | .error e => e.message ++ "\n"

/-- What is written for a line that does not end the session, apart from prompts. -/
def written (s : Session) (line? : Option String) : String := (request? line?).elim "" s.answer

def tally (s : Session) (requests : List String) : Summary :=
  ⟨requests.length, requests.countP fun text => !(s.execute text).isOk⟩

theorem count_eq_add_tally (text : String) : done.count (!(s.execute text).isOk) = done.add (s.tally [text]) := by
  rw [Summary.count, Summary.add, tally, List.countP_singleton]
  cases (s.execute text).isOk <;> rfl

theorem tally_append (requests requests' : List String) :
    s.tally (requests ++ requests') = (s.tally requests).add (s.tally requests') := by
  simp [tally, Summary.add]

theorem reply_of_stops {whole : String} (h : stops (some (Text.trimmed whole)) = true) : s.reply whole = .leave := by
  rw [stops, Text.trimmed, String.toList_ofList] at h
  simp only [reply, h, if_true]

theorem reply_of_blank {whole : String} (h : Text.trimmed whole = "") : s.reply whole = .silence := by
  have hnil : Text.trim whole.toList = [] := by
    rw [← String.toList_ofList (l := Text.trim whole.toList)]
    exact String.toList_eq_nil_iff.2 h
  simp only [reply, hnil]
  rfl

theorem reply_of_request {whole : String} (h : stops (some (Text.trimmed whole)) = false)
    (hne : Text.trimmed whole ≠ "") :
    ∃ text failed, s.reply whole = .answer text failed ∧ text ++ "\n" = s.answer (Text.trimmed whole) ∧
      failed = !(s.execute (Text.trimmed whole)).isOk := by
  have hempty : (Text.trim whole.toList).isEmpty = false := by
    rw [List.isEmpty_eq_false_iff]
    exact fun hnil => hne (by rw [Text.trimmed, hnil])
  rw [stops, Text.trimmed, String.toList_ofList] at h
  simp only [reply, h, hempty, answer, Text.trimmed]
  cases s.execute (String.ofList (Text.trim whole.toList)) with
  | ok outcome => exact ⟨_, _, rfl, rfl, rfl⟩
  | error e => exact ⟨_, _, rfl, rfl, rfl⟩

theorem turn_of_stops {line : List UInt8} (h : stops (said? line) = true) :
    s.turn mark done line = .ends (if said? line = none then .error .notUtf8 else .ok done) := by
  rw [turn, said?] at *
  cases hd : Text.decode? line with
  | none => rfl
  | some whole =>
    rw [hd] at h
    simp only [Option.map_some] at h ⊢
    rw [reply_of_stops h]
    rfl

theorem turn_of_goesOn {line : List UInt8} (h : stops (said? line) = false) :
    s.turn mark done line =
      .goesOn (s.written (said? line) ++ mark) (done.add (s.tally (request? (said? line)).toList)) := by
  rw [turn, said?] at *
  cases hd : Text.decode? line with
  | none => rw [hd] at h; cases h
  | some whole =>
    rw [hd] at h
    simp only [Option.map_some] at h ⊢
    by_cases hblank : Text.trimmed whole = ""
    · have hrequest : request? (some (Text.trimmed whole)) = none := by rw [hblank]; rfl
      rw [reply_of_blank hblank, written, hrequest, Option.elim_none, String.empty_append]
      rfl
    · obtain ⟨text, failed, hreply, htext, rfl⟩ := reply_of_request (s := s) h hblank
      rw [hreply, written, request?_of_ne hblank, Option.elim_some, ← htext]
      dsimp only
      rw [count_eq_add_tally]
      rfl

/-- A session answers the requests in order. Behind every line before the one at which it stops, it writes the
mark. -/
theorem readLines_eq (s : Session) (mark : String) (done : Summary) (lines : List (List UInt8)) :
    let spoken := lines.map said?
    s.readLines mark done lines =
      ⟨String.join ((heard spoken).map fun line? => s.written line? ++ mark),
        if spoken.find? stops = some none then .error .notUtf8 else .ok (done.add (s.tally (requests spoken)))⟩ := by
  induction lines generalizing done with
  | nil => rfl
  | cons line lines ih =>
    dsimp only
    rw [List.map_cons]
    cases h : stops (said? line) with
    | true =>
      rw [readLines, turn_of_stops h, heard_of_stops h, requests_of_stops h, List.find?_cons_of_pos h]
      simp only [Option.some.injEq]
      rfl
    | false =>
      rw [readLines, turn_of_goesOn h, heard_cons h, requests_cons h, List.find?_cons_of_neg (by simp [h])]
      dsimp only
      rw [ih, List.map_cons, String.join_cons, tally_append, Summary.add_assoc]

theorem join_written (lines : List (Option String)) :
    String.join (lines.map fun line? => s.written line? ++ "") =
      String.join ((lines.filterMap request?).map s.answer) := by
  induction lines with
  | nil => rfl
  | cons line? lines ih =>
    rw [List.map_cons, String.join_cons, String.append_empty, ih, List.filterMap_cons, written]
    cases request? line? with
    | none => rw [Option.elim_none, String.empty_append]
    | some text => rw [Option.elim_some, List.map_cons, String.join_cons]

/-- What a session without prompts comes to. -/
theorem converse_eq (s : Session) (input : List UInt8) :
    s.converse false input =
      ⟨String.join ((requests (said input)).map s.answer),
        if (said input).find? stops = some none then .error .notUtf8 else .ok (s.tally (requests (said input)))⟩ := by
  show s.readLines "" ⟨0, 0⟩ (Text.lines input) = _
  rw [readLines_eq, Summary.zero_add, join_written]
  rfl

/-- Inputs that make the same requests and stop alike are not told apart. -/
theorem converse_congr {input input' : List UInt8} (hrequests : requests (said input') = requests (said input))
    (hstops : (said input').find? stops = some none ↔ (said input).find? stops = some none) :
    s.converse false input' = s.converse false input := by
  rw [converse_eq, converse_eq, hrequests]
  simp only [hstops]

/-- What follows an order to leave makes no difference. -/
theorem converse_of_exit {input input' : List UInt8} {before later later' : List (Option String)} {text : String}
    (hexit : exitCommand.toList <+: text.toList) (h : said input = before ++ some text :: later)
    (h' : said input' = before ++ some text :: later') : s.converse false input' = s.converse false input := by
  have hstops : stops (some text) = true := List.isPrefixOf_iff_prefix.2 hexit
  refine converse_congr ?_ ?_
  · rw [h, h', requests, requests, heard_append_of_stops hstops, heard_append_of_stops hstops]
  · rw [h, h', find?_append_of_stops hstops, find?_append_of_stops hstops]

/-- Blank lines make no difference. -/
theorem converse_of_filter_eq {input input' : List UInt8}
    (h : (said input').filter (· ≠ some "") = (said input).filter (· ≠ some "")) :
    s.converse false input' = s.converse false input := by
  refine converse_congr ?_ ?_
  · rw [← requests_filter, h, requests_filter]
  · rw [← find?_stops_filter, h, find?_stops_filter]

theorem converse_encode {input : List UInt8} {text : String} (h : text ∈ requests (said input)) :
    s.converse false (Text.encode text) = ⟨s.answer text, .ok (s.tally [text])⟩ := by
  obtain ⟨hmem, hne, hgoes⟩ := exists_of_mem_requests h
  have hrequests : requests [some text] = [text] := by
    rw [requests_cons hgoes, request?_of_ne hne]
    rfl
  rw [converse_eq, Text.said_encode hmem hne, hrequests, List.find?_cons_of_neg (by simp [hgoes])]
  simp

theorem answer_of_ok {text : String} {outcome : Outcome} (h : s.execute text = .ok outcome) :
    ∃ body k, s.render outcome = body ++ String.ofList (List.replicate k '\n') ∧
      (∀ c ∈ body.toList.getLast?, c ≠ '\n') ∧ s.answer text = body ++ "\n" := by
  obtain ⟨k, hrender, hlast⟩ := Text.exists_eq_stripNewlines_append (s.render outcome)
  exact ⟨_, k, hrender, hlast, by rw [answer, h]⟩

theorem answer_of_error {text : String} {e : Error} (h : s.execute text = .error e) :
    s.answer text = e.message ++ "\n" := by
  rw [answer, h]

theorem converse_append {input later : List UInt8} (h : ∀ line? ∈ said (input ++ [10]), stops line? = false) :
    s.converse false (input ++ 10 :: later) =
      ⟨(s.converse false (input ++ [10])).output ++ (s.converse false later).output,
        (s.converse false later).ending.map (s.tally (requests (said (input ++ [10])))).add⟩ := by
  rw [converse_eq, Text.said_append, requests_append h, List.find?_append, find?_stops_eq_none h, Option.none_or,
    List.map_append, String.join_append, tally_append, converse_eq, converse_eq]
  split <;> rfl

/-- A session without prompts is one pass over the lines up to the first that is no text or begins with
`.exit`. It writes, for each request before that, what it writes for the request alone: the outcome with one
line feed at its end, or the error. It counts the requests and those that fail, unless it stops at a line
that is no text. What follows an order to leave makes no difference, and neither do blank lines, blanks
around a line, carriage returns, or anything else that leaves the requests as they are. An input that
ends at a line feed and does not stop the session is dealt with before what follows, and apart from it. -/
theorem converse_line_by_line (s : Session) (input : List UInt8) :
    let L := requests (said input)
    let alone := fun text => (s.converse false (Text.encode text)).output
    s.converse false input = ⟨String.join (L.map alone),
        if (said input).find? stops = some none then .error .notUtf8
        else .ok ⟨L.length, L.countP fun text => !(s.execute text).isOk⟩⟩ ∧
      (∀ text ∈ L,
        (∀ outcome, s.execute text = .ok outcome →
          ∃ body k, s.render outcome = body ++ String.ofList (List.replicate k '\n') ∧
            (∀ c ∈ body.toList.getLast?, c ≠ '\n') ∧ alone text = body ++ "\n") ∧
        ∀ e, s.execute text = .error e → alone text = e.message ++ "\n") ∧
      (∀ before text later later' input', exitCommand.toList <+: text.toList →
        said input = before ++ some text :: later → said input' = before ++ some text :: later' →
          s.converse false input' = s.converse false input) ∧
      (∀ input', (said input).find? stops ≠ some none → (said input').find? stops ≠ some none →
        requests (said input') = L → s.converse false input' = s.converse false input) ∧
      (∀ input', (said input').filter (· ≠ some "") = (said input).filter (· ≠ some "") →
        s.converse false input' = s.converse false input) ∧
      s.converse false (Text.crlf input) = s.converse false input ∧
      ∀ later, (∀ line? ∈ said (input ++ [10]), stops line? = false) →
        ∃ first, (s.converse false (input ++ [10])).ending = .ok first ∧
          s.converse false (input ++ 10 :: later) =
            ⟨(s.converse false (input ++ [10])).output ++ (s.converse false later).output,
              (s.converse false later).ending.map first.add⟩ := by
  intro L alone
  have halone : ∀ text ∈ L, alone text = s.answer text := by
    intro text h
    show (s.converse false (Text.encode text)).output = s.answer text
    rw [converse_encode h]
  refine ⟨?_, fun text h => ⟨fun outcome hok => ?_, fun e herror => ?_⟩,
    fun before text later later' input' => converse_of_exit, fun input' h h' hrequests => ?_,
    fun input' => converse_of_filter_eq, ?_, fun later h => ?_⟩
  · rw [List.map_congr_left halone]
    exact converse_eq s input
  · rw [halone text h]
    exact answer_of_ok hok
  · rw [halone text h]
    exact answer_of_error herror
  · exact converse_congr hrequests ⟨fun hgarbled => absurd hgarbled h', fun hgarbled => absurd hgarbled h⟩
  · exact converse_congr (by rw [Text.said_crlf]) (by rw [Text.said_crlf])
  · refine ⟨_, ?_, converse_append h⟩
    rw [converse_eq, find?_stops_eq_none h]
    rfl

/-- Two requests and an order to leave, followed by a byte that is no text or by another request; the requests
without that, with a blank line between them and no other blanks. -/
theorem converse_line_by_line_of_two :
    let s : Session := { colour := false }
    let two := Text.encode "simplify a * a\r\n \ttable $"
    let broken := two ++ 10 :: (Text.encode ".exit now\n" ++ [255])
    let longer := two ++ 10 :: Text.encode ".exit now\nsimplify b"
    let plain := Text.encode "simplify a * a\n\ntable $"
    requests (said broken) = ["simplify a * a", "table $"] ∧
      (∃ e, s.execute "table $" = .error e ∧
        (s.converse false (Text.encode "table $")).output = e.message ++ "\n") ∧
      (∃ outcome body, s.execute "simplify a * a" = .ok outcome ∧
        (s.converse false (Text.encode "simplify a * a")).output = body ++ "\n") ∧
      said broken = [some "simplify a * a", some "table $"] ++ some ".exit now" :: [none] ∧
      s.converse false longer = s.converse false broken ∧
      requests (said plain) = requests (said broken) ∧ s.converse false plain = s.converse false broken ∧
      ∃ first, (s.converse false (two ++ [10])).ending = .ok first ∧
        (s.converse false broken).ending = (Except.ok ⟨0, 0⟩ : Except ReadFault Summary).map first.add := by
  intro s two broken longer plain
  have hsaid : said broken = [some "simplify a * a", some "table $"] ++ some ".exit now" :: [none] := by
    decide +kernel
  have hrequests : requests (said broken) = ["simplify a * a", "table $"] := by rw [hsaid]; decide
  obtain ⟨-, hanswers, hexit, hsame, -⟩ := s.converse_line_by_line broken
  refine ⟨hrequests, ?_, ?_, hsaid, ?_, ?_, ?_, ?_⟩
  · have hfails : (s.execute "table $").isOk = false := by decide +kernel
    cases h : s.execute "table $" with
    | ok outcome => rw [h] at hfails; cases hfails
    | error e => exact ⟨e, rfl, (hanswers _ (by rw [hrequests]; decide)).2 e h⟩
  · have hworks : (s.execute "simplify a * a").isOk = true := by decide +kernel
    cases h : s.execute "simplify a * a" with
    | error e => rw [h] at hworks; cases hworks
    | ok outcome =>
      obtain ⟨body, -, -, -, halone⟩ := (hanswers _ (by rw [hrequests]; decide)).1 outcome h
      exact ⟨outcome, body, rfl, halone⟩
  · exact hexit _ ".exit now" _ [some "simplify b"] longer (by decide) hsaid (by decide +kernel)
  · decide +kernel
  · exact hsame plain (by rw [hsaid]; decide) (by decide +kernel) (by decide +kernel)
  · obtain ⟨first, hfirst, happend⟩ := (s.converse_line_by_line two).2.2.2.2.2.2
      (Text.encode ".exit now\n" ++ [255]) (by decide +kernel)
    have htail : said (Text.encode ".exit now\n" ++ [255]) = [some ".exit now", none] := by decide +kernel
    refine ⟨first, hfirst, ?_⟩
    rw [happend, converse_eq s (Text.encode ".exit now\n" ++ [255]), htail]
    rfl

end Session

end Sentential
