import Sentential.Proofs.LineByLine

/-!
# Prompts are all that an interactive session adds

A session with prompts and one without go through the same lines and stop at the same one. For each line up to there
they write the same, which is what a session without prompts writes for that line alone (`output_line`), and the
interactive one puts a prompt behind it. So at every line the two are in step, and they come to the same end.
-/

namespace Sentential

namespace Text

/-- The bytes of an input that consists of the given lines. -/
def unlines (lines : List (List UInt8)) : List UInt8 := lines.flatMap (· ++ [10])

theorem lines_unlines {ls : List (List UInt8)} (h : ∀ line ∈ ls, 10 ∉ line) : lines (unlines ls) = ls := by
  induction ls with
  | nil => rfl
  | cons line ls ih =>
    obtain ⟨hline, hls⟩ := List.forall_mem_cons.1 h
    rw [unlines, List.flatMap_cons, List.append_assoc, List.singleton_append, lines_append_newline hline]
    exact congrArg _ (ih hls)

end Text

open Text (said said?)

namespace Session
variable {s : Session} {mark : String} {input line : List UInt8}

/-- The lines of an input before the one at which a session stops. -/
def linesRead (input : List UInt8) : List (List UInt8) := (Text.lines input).takeWhile fun line => !stops (said? line)

theorem heard_said (input : List UInt8) : heard (said input) = (linesRead input).map said? :=
  List.takeWhile_map ..

theorem of_mem_linesRead (h : line ∈ linesRead input) : 10 ∉ line ∧ stops (said? line) = false :=
  ⟨Text.newline_not_mem_of_mem_lines ((List.takeWhile_prefix _).subset h), by simpa using List.mem_takeWhile_imp h⟩

/-- The lines read are also those of the input that ends with them. -/
theorem linesRead_unlines {ls : List (List UInt8)} (h : ∀ line ∈ ls, line ∈ linesRead input) :
    linesRead (Text.unlines ls) = ls := by
  rw [linesRead, Text.lines_unlines fun line hline => (of_mem_linesRead (h line hline)).1, List.takeWhile_eq_self_iff]
  exact fun line hline => by simp [of_mem_linesRead (h line hline)]

/-- What a session writes for a line is what it would write if that were all there is to read. -/
theorem output_line (h : line ∈ linesRead input) : (s.converse false line).output = s.written (said? line) := by
  obtain ⟨hline, hgoes⟩ := of_mem_linesRead h
  rw [converse_eq, written]
  by_cases hnil : line = []
  · rw [hnil]
    rfl
  · have hsaid : said line = [said? line] := congrArg (·.map said?) (Text.lines_of_newline_not_mem hline hnil)
    rw [hsaid, requests_cons hgoes]
    cases request? (said? line) <;> simp [requests, heard]

/-- What an interactive session writes where one without prompts writes `outputs`, one of them for each line. -/
def prompted (outputs : List String) : String := greeting ++ prompt ++ String.join (outputs.map (· ++ prompt))

/-- With any mark behind the lines, a session writes for each what it writes for it alone. -/
theorem output_readLines (s : Session) (mark : String) (input : List UInt8) :
    (s.readLines mark ⟨0, 0⟩ (Text.lines input)).output =
      String.join (((linesRead input).map fun line => (s.converse false line).output).map (· ++ mark)) := by
  rw [readLines_eq]
  show String.join ((heard (said input)).map _) = _
  rw [heard_said, List.map_map, List.map_map]
  exact congrArg _ (List.map_congr_left fun line hline => congrArg (· ++ mark) (output_line hline).symm)

theorem output_batch (s : Session) (input : List UInt8) :
    (s.converse false input).output =
      String.join ((linesRead input).map fun line => (s.converse false line).output) := by
  have hmarks := s.output_readLines "" input
  simp only [String.append_empty, List.map_id'] at hmarks
  exact hmarks

theorem output_interactive (s : Session) (input : List UInt8) :
    (s.converse true input).output = prompted ((linesRead input).map fun line => (s.converse false line).output) := by
  rw [prompted, ← output_readLines]
  rfl

theorem ending_interactive (s : Session) (input : List UInt8) :
    (s.converse true input).ending = (s.converse false input).ending := by
  show (s.readLines prompt ⟨0, 0⟩ (Text.lines input)).ending = (s.readLines "" ⟨0, 0⟩ (Text.lines input)).ending
  rw [readLines_eq, readLines_eq]

theorem stops_said?_iff : stops (said? line) = true ↔ Text.decode? line = none ∨
    ∃ text, Text.decode? line = some text ∧ exitCommand.toList <+: Text.trim text.toList := by
  rw [said?]
  cases Text.decode? line with
  | none => simp [stops]
  | some text => simp [stops, Text.trimmed]

/-- What a session reads ends before the first line that is no text or an order to leave, and if there is none, at the
end of the input. -/
theorem exists_behind_linesRead (input : List UInt8) :
    ∃ behind, Text.lines input = linesRead input ++ behind ∧ (∀ line ∈ behind.head?, stops (said? line) = true) ∧
      (said input).find? stops = behind.head?.map said? := by
  refine ⟨(Text.lines input).dropWhile fun line => !stops (said? line), List.takeWhile_append_dropWhile.symm, ?_, ?_⟩
  · intro line hline
    have := List.head?_dropWhile_not (fun line => !stops (said? line)) (Text.lines input)
    rw [Option.mem_def.1 hline] at this
    simpa using this
  · rw [said, List.find?_map, List.find?_eq_head?_dropWhile_not]
    rfl

theorem ending_batch_eq_error_iff (s : Session) (input : List UInt8) :
    (∃ fault, (s.converse false input).ending = .error fault) ↔ (said input).find? stops = some none := by
  rw [converse_eq]
  dsimp only
  split
  · next h => exact ⟨fun _ => h, fun _ => ⟨_, rfl⟩⟩
  · next h => exact ⟨nofun, fun h' => absurd h' h⟩

/-- An interactive session reads what a session without prompts reads, comes to the same end, and writes the same for
each line, with the greeting and a prompt before all of it and a prompt behind each line; at every line on the way the
two have written the same so far. What is written for a line is what a session would write for that line alone, and
that is nothing if it is blank. The lines read are those before the first that is no text or an order to leave. -/
theorem converse_prompted (s : Session) (input : List UInt8) :
    let read := linesRead input
    let outputs := read.map fun line => (s.converse false line).output
    (s.converse true input).ending = (s.converse false input).ending ∧
      (s.converse false input).output = String.join outputs ∧ (s.converse true input).output = prompted outputs ∧
      (∀ k, (s.converse false (Text.unlines (read.take k))).output = String.join (outputs.take k) ∧
        (s.converse true (Text.unlines (read.take k))).output = prompted (outputs.take k)) ∧
      (∀ line ∈ read, ∃ text, Text.decode? line = some text ∧ ¬exitCommand.toList <+: Text.trim text.toList ∧
        (Text.trim text.toList = [] → (s.converse false line).output = "")) ∧
      ∃ behind, Text.lines input = read ++ behind ∧
        (∀ line ∈ behind.head?, Text.decode? line = none ∨
          ∃ text, Text.decode? line = some text ∧ exitCommand.toList <+: Text.trim text.toList) ∧
        ((∃ fault, (s.converse false input).ending = .error fault) ↔
          ∃ line ∈ behind.head?, Text.decode? line = none) := by
  intro read outputs
  refine ⟨s.ending_interactive input, s.output_batch input, s.output_interactive input, fun k => ?_,
    fun line hline => ?_, ?_⟩
  · have hread : linesRead (Text.unlines (read.take k)) = read.take k :=
      linesRead_unlines fun line hline => List.mem_of_mem_take hline
    rw [output_batch, output_interactive, hread, List.map_take]
    exact ⟨rfl, rfl⟩
  · have hgoes := (of_mem_linesRead hline).2
    rw [output_line hline]
    rw [← Bool.not_eq_true, stops_said?_iff] at hgoes
    cases hd : Text.decode? line with
    | none => exact absurd (.inl hd) hgoes
    | some text =>
      refine ⟨text, rfl, fun hexit => hgoes (.inr ⟨text, hd, hexit⟩), fun hblank => ?_⟩
      rw [said?, hd, Option.map_some, Text.trimmed, hblank]
      rfl
  · obtain ⟨behind, hlines, hhead, hfind⟩ := exists_behind_linesRead input
    refine ⟨behind, hlines, fun line hline => stops_said?_iff.1 (hhead line hline), ?_⟩
    rw [ending_batch_eq_error_iff, hfind]
    simp [said?]

/-- An answer, a blank line, an error and another answer before a line that is no text or an order to leave; what is
behind that is not read. -/
theorem converse_prompted_of_four :
    let s : Session := { colour := false, strict := true }
    let lines := ["simplify !!a", " \t", "table a $ b", "simplify 1 * b"].map Text.encode
    let garbled := Text.unlines (lines ++ [[0x2e, 0xff], Text.encode "simplify c"])
    let left := Text.unlines (lines ++ [Text.encode " .exit", Text.encode "simplify c"])
    let outputs := ["a\n", "", "illegal character \"$\" at position 8\n", "b\n"]
    ((s.converse true garbled).output = prompted outputs ∧ (s.converse false garbled).output = String.join outputs ∧
        ∃ fault, (s.converse true garbled).ending = .error fault) ∧
      (s.converse true left).output = prompted outputs ∧ (s.converse false left).output = String.join outputs ∧
      (s.converse true left).ending.toOption = some ⟨3, 1⟩ ∧
      Text.encode " \t" ∈ linesRead left ∧ (s.converse false (Text.encode " \t")).output = "" := by
  intro s lines garbled left outputs
  have hgarbled : linesRead garbled = lines := by decide +kernel
  have hleft : linesRead left = lines := by decide +kernel
  have houtputs : (lines.map fun line => (s.converse false line).output) = outputs := by decide +kernel
  obtain ⟨hending, hbatch, hinteractive, -, -, behind, hbehind, -, hfault⟩ := s.converse_prompted garbled
  obtain ⟨hending', hbatch', hinteractive', -, hread, -⟩ := s.converse_prompted left
  rw [hgarbled] at hbatch hinteractive hbehind
  rw [hleft] at hbatch' hinteractive' hread
  have hmem : Text.encode " \t" ∈ lines := by decide
  obtain ⟨text, htext, -, hblank⟩ := hread _ hmem
  refine ⟨⟨by rw [hinteractive, houtputs], by rw [hbatch, houtputs], ?_⟩, by rw [hinteractive', houtputs],
    by rw [hbatch', houtputs], ?_, by rw [hleft]; exact hmem, ?_⟩
  · rw [hending, hfault]
    have hlines : Text.lines garbled = lines ++ [[0x2e, 0xff], Text.encode "simplify c"] := by decide +kernel
    rw [List.append_cancel_left (hbehind.symm.trans hlines)]
    exact ⟨_, rfl, by decide +kernel⟩
  · rw [hending']
    decide +kernel
  · obtain rfl := Option.some.inj (htext.symm.trans (Text.decode?_eq_some_iff.2 rfl))
    exact hblank (by decide)

end Session

end Sentential
