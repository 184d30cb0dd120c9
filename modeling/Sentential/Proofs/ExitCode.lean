import Sentential.Invocation
import Sentential.Proofs.Arguments
import Sentential.Proofs.Prompts

/-!
# The exit code

Whatever reads the options, the program writes what a session without prompts writes for the content, be it that of a
file or of what is piped in. Whether it fails is told from the lines before the first order to leave: one that is no
text makes it fail in both cases, and one that has no outcome only if the lines come from a file. A session stops at a
line that is no text and does not see the lines behind it, but then it has failed anyway
(`linesRead_eq_of_not_garbled`).
-/

namespace Sentential

open Text (said said?)

namespace Session
variable {s : Session} {input : List UInt8} {lines : List (List UInt8)}

/-- The line is an order to leave. -/
def leaves (line : List UInt8) : Bool :=
  (Text.decode? line).any fun text => exitCommand.toList.isPrefixOf (Text.trim text.toList)

/-- The lines of an input before the first order to leave. -/
def linesBeforeExit (input : List UInt8) : List (List UInt8) := (Text.lines input).takeWhile fun line => !leaves line

/-- A line before the first order to leave is no text. -/
def Garbled (input : List UInt8) : Prop := ∃ line ∈ linesBeforeExit input, Text.decode? line = none

instance (input : List UInt8) : Decidable (Garbled input) := inferInstanceAs (Decidable (∃ _ ∈ _, _))

/-- A line before the first order to leave is not blank and has no outcome. -/
def Fails (s : Session) (input : List UInt8) : Prop :=
  ∃ line ∈ linesBeforeExit input, ∃ text, Text.decode? line = some text ∧ Text.trimmed text ≠ "" ∧
    ∃ e, s.execute (Text.trimmed text) = .error e

theorem stops_said?_eq (line : List UInt8) : stops (said? line) = ((Text.decode? line).isNone || leaves line) := by
  rw [Bool.eq_iff_iff, stops_said?_iff, Bool.or_eq_true, Option.isNone_iff_eq_none, leaves, Option.any_eq_true]
  simp only [List.isPrefixOf_iff_prefix]

/-- A session sees the lines before the first order to leave, as long as they are text. -/
theorem linesRead_eq_takeWhile (input : List UInt8) :
    linesRead input = (linesBeforeExit input).takeWhile fun line => (Text.decode? line).isSome := by
  rw [linesBeforeExit, List.takeWhile_takeWhile, linesRead]
  congr 1
  funext line
  rw [stops_said?_eq]
  cases Text.decode? line <;> cases leaves line <;> rfl

theorem linesRead_eq_of_not_garbled (h : ¬Garbled input) : linesRead input = linesBeforeExit input := by
  rw [linesRead_eq_takeWhile, List.takeWhile_eq_self_iff]
  intro line hline
  rw [Option.isSome_iff_ne_none]
  exact fun hnone => h ⟨line, hline, hnone⟩

/-- A session stops at a line that is no text exactly if there is one before the first order to leave. -/
theorem find?_stops_eq_some_none_iff (lines : List (List UInt8)) : (lines.map said?).find? stops = some none ↔
    ∃ line ∈ lines.takeWhile fun line => !leaves line, Text.decode? line = none := by
  induction lines with
  | nil => simp
  | cons line lines ih =>
    have hstops := stops_said?_eq line
    cases hd : Text.decode? line with
    | none =>
      have hleaves : leaves line = false := by rw [leaves, hd]; rfl
      have hsaid : said? line = none := by rw [said?, hd]; rfl
      rw [List.map_cons, hsaid, List.takeWhile_cons_of_pos (by simp [hleaves])]
      exact ⟨fun _ => ⟨line, List.mem_cons_self, hd⟩, fun _ => rfl⟩
    | some text =>
      rw [hd, Option.isNone_some, Bool.false_or] at hstops
      cases hleaves : leaves line with
      | true =>
        rw [hleaves] at hstops
        have hsaid : said? line ≠ none := by rw [said?, hd]; exact Option.some_ne_none _
        rw [List.map_cons, List.find?_cons_of_pos hstops, List.takeWhile_cons_of_neg (by simp [hleaves])]
        simp [hsaid]
      | false =>
        rw [hleaves] at hstops
        rw [List.map_cons, List.find?_cons_of_neg (by simp [hstops]),
          List.takeWhile_cons_of_pos (by simp [hleaves]), ih]
        simp [hd]

theorem garbled_iff : Garbled input ↔ (said input).find? stops = some none :=
  (find?_stops_eq_some_none_iff (Text.lines input)).symm

theorem mem_requests_said_iff {text : String} : text ∈ requests (said input) ↔
    text ≠ "" ∧ ∃ line ∈ linesRead input, ∃ whole, Text.decode? line = some whole ∧ Text.trimmed whole = text := by
  have hrequest (line : List UInt8) : request? (said? line) = some text ↔
      (∃ whole, Text.decode? line = some whole ∧ Text.trimmed whole = text) ∧ text ≠ "" := by
    rw [request?, Option.filter_eq_some_iff, said?, Option.map_eq_some_iff, decide_eq_true_iff]
  rw [requests, heard_said, List.filterMap_map, List.mem_filterMap]
  simp only [Function.comp_apply, hrequest]
  constructor
  · rintro ⟨line, hline, hwhole, hne⟩
    exact ⟨hne, line, hline, hwhole⟩
  · rintro ⟨hne, line, hline, hwhole⟩
    exact ⟨line, hline, hwhole, hne⟩

theorem isSuccess_tally_eq_false_iff {requests : List String} :
    (s.tally requests).isSuccess = false ↔ ∃ text ∈ requests, ∃ e, s.execute text = .error e := by
  have hfails (text : String) : (!(s.execute text).isOk) = true ↔ ∃ e, s.execute text = .error e := by
    cases s.execute text <;> simp [Except.isOk, Except.toBool]
  simp only [← hfails]
  rw [Summary.isSuccess, beq_eq_false_iff_ne, ← Nat.pos_iff_ne_zero]
  exact List.countP_pos_iff

/-- Where a session sees all lines before the order to leave, it counts those that make it fail. -/
theorem fails_iff (h : ¬Garbled input) : s.Fails input ↔ (s.tally (requests (said input))).isSuccess = false := by
  rw [isSuccess_tally_eq_false_iff, Fails, ← linesRead_eq_of_not_garbled h]
  constructor
  · rintro ⟨line, hline, whole, hd, hne, he⟩
    exact ⟨_, mem_requests_said_iff.2 ⟨hne, line, hline, whole, hd, rfl⟩, he⟩
  · rintro ⟨text, htext, he⟩
    obtain ⟨hne, line, hline, whole, hd, rfl⟩ := mem_requests_said_iff.1 htext
    exact ⟨line, hline, whole, hd, hne, he⟩

end Session

namespace Invocation

open Session

variable {read : Reader} {argv : List OsText} {a : Args} {w : Surroundings} {content : List UInt8}

/-- The session that flags make. -/
def settings (flags : List (Option String)) : Session where
  maxTableVariables := (namedLimit? flags).getD 12
  colour := !(flags.contains (some "--no-colour") || flags.contains (some "--no-color"))
  strict := flags.contains (some "--strict")

/-- The lines are those of the one file that the arguments name, or if they name none, those that are piped in. -/
def Reads (argv : List OsText) (w : Surroundings) (content : List UInt8) : Prop :=
  (∃ path, files argv = [path] ∧ w.file path = .bytes content) ∨
    files argv = [] ∧ w.terminal = false ∧ w.input = content

theorem FillsAsDeclared.session_eq (hread : FillsAsDeclared read) (h : read argv = .ok a) :
    a.session = settings (flags argv) := by
  rw [Args.session, hread.maxVariables h, hread.noColour h, hread.strict h]
  rfl

theorem FillsAsDeclared.input?_eq (hread : FillsAsDeclared read) (h : read argv = .ok a) :
    a.input? = (files argv).head? := by
  rw [hread.input h]
  cases a.input? <;> rfl

theorem FillsAsDeclared.isSome_input? (hread : FillsAsDeclared read) (h : read argv = .ok a) :
    a.input?.isSome = true ↔ files argv ≠ [] := by
  rw [hread.input h]
  cases a.input? <;> simp

/-- What is read goes through a session without prompts. -/
theorem run_eq (hread : FillsAsDeclared read) (h : read argv = .ok a) (hreads : Reads argv w content) :
    run read argv w = a.exit (a.session.converse false content) := by
  have hinput := hread.input?_eq h
  rw [run, h]
  dsimp only
  rcases hreads with ⟨path, hfiles, hcontent⟩ | ⟨hfiles, hpiped, rfl⟩
  · rw [hfiles, List.head?_cons] at hinput
    rw [Args.run, hinput]
    dsimp only
    rw [hcontent]
  · rw [hfiles, List.head?_nil] at hinput
    rw [Args.run, hinput, hpiped]

theorem output_exit (a : Args) (t : Transcript) : (a.exit t).output = t.output := by
  unfold Args.exit
  split <;> rfl

theorem code_exit_of_garbled (a : Args) (s : Session) (h : Garbled content) :
    (a.exit (s.converse false content)).code = 1 := by
  rw [Args.exit, converse_eq, if_pos (garbled_iff.1 h)]

theorem code_exit_of_text (a : Args) (s : Session) (h : ¬Garbled content) :
    (a.exit (s.converse false content)).code =
      if a.input?.isSome && !(s.tally (requests (said content))).isSuccess then 1 else 0 := by
  rw [Args.exit, converse_eq, if_neg (mt garbled_iff.2 h)]

theorem code_exit (a : Args) (s : Session) (content : List UInt8) :
    let code := (a.exit (s.converse false content)).code
    (code = 1 ↔ Garbled content ∨ a.input?.isSome = true ∧ s.Fails content) ∧
      (code = 0 ↔ ¬(Garbled content ∨ a.input?.isSome = true ∧ s.Fails content)) := by
  dsimp only
  by_cases hgarbled : Garbled content
  · simp [code_exit_of_garbled a s hgarbled, hgarbled]
  · rw [code_exit_of_text a s hgarbled, fails_iff hgarbled]
    cases a.input?.isSome <;> cases (s.tally (requests (said content))).isSuccess <;> simp [hgarbled]

/-- However arguments are read, if they are accepted and fill the options as these are declared, the program writes what
the session that the flags make would write without prompts for the content of the one file that is named, or of what
is piped in if there is none, and it makes no difference which of the two it is. If the lines come from a file, the
exit code tells whether one of those before the first order to leave is no text or has no outcome, and else only
whether one of them is no text. -/
theorem run_exit_code (hread : FillsAsDeclared read) (h : read argv = .ok a) (hreads : Reads argv w content) :
    let s := settings (flags argv)
    let exit := run read argv w
    exit.output = (s.converse false content).output ∧
      (∀ path, files argv = [path] →
        (exit.code = 1 ↔ Garbled content ∨ s.Fails content) ∧ (exit.code = 0 ↔ ¬(Garbled content ∨ s.Fails content))) ∧
      (files argv = [] → (exit.code = 1 ↔ Garbled content) ∧ (exit.code = 0 ↔ ¬Garbled content)) ∧
      ∀ argv' a' w', read argv' = .ok a' → settings (flags argv') = s → Reads argv' w' content →
        (run read argv' w').output = exit.output := by
  have hsession := hread.session_eq h
  have hcode := code_exit a (settings (flags argv)) content
  simp only [hread.isSome_input? h] at hcode
  dsimp only
  rw [run_eq hread h hreads, hsession, output_exit]
  refine ⟨rfl, fun path hfiles => ?_, fun hfiles => ?_, fun argv' a' w' h' hsettings hreads' => ?_⟩
  · simpa [hfiles] using hcode
  · simpa [hfiles] using hcode
  · rw [run_eq hread h' hreads', output_exit, hread.session_eq h', hsettings]

/-- A table with too many variables, before an order to leave with a line behind it that is no text: that shows in the
exit code if the lines come from a file. The name of the file is no text either. -/
theorem run_exit_code_of_refused_table :
    let argv := ["-v", "--strict", "--max-variables", "1", "--no-color"].map Text.encode
    let path : OsText := [0x66, 0xff]
    let content := Text.unlines (["simplify a", "table a + b", " .exit now"].map Text.encode ++ [[0xff]])
    let s : Session := { maxTableVariables := 1, colour := false, strict := true }
    let w : Surroundings := ⟨fun _ => .bytes content, false, content⟩
    settings (flags argv) = s ∧ ¬Garbled content ∧ s.Fails content ∧ (run CommandLine.read argv w).code = 0 ∧
      (run CommandLine.read (argv ++ [path]) w).code = 1 ∧
      (run CommandLine.read (argv ++ [path]) w).output = (run CommandLine.read argv w).output := by
  intro argv path content s w
  let a : Args := { noColour := true, strict := true, maxVariables := 1, verbose := 1 }
  have hpiped : CommandLine.read argv = .ok a := by decide +kernel
  have hfile : CommandLine.read (argv ++ [path]) = .ok { a with input? := some path } := by decide +kernel
  have hsettings : settings (flags argv) = s := by decide +kernel
  have hsame : settings (flags (argv ++ [path])) = settings (flags argv) := by decide +kernel
  have hnone : files argv = [] := by decide +kernel
  have hone : files (argv ++ [path]) = [path] := by decide +kernel
  have htext : ¬Garbled content := by decide +kernel
  have hfails : s.Fails content := by
    refine ⟨Text.encode "table a + b", by decide +kernel, "table a + b", Text.decode?_eq_some_iff.2 rfl, by decide, ?_⟩
    have herror : (s.execute (Text.trimmed "table a + b")).isOk = false := by decide +kernel
    cases h : s.execute (Text.trimmed "table a + b") with
    | ok outcome => rw [h] at herror; cases herror
    | error e => exact ⟨e, rfl⟩
  have hreads : Reads argv w content := .inr ⟨hnone, rfl, rfl⟩
  have hreads' : Reads (argv ++ [path]) w content := .inl ⟨path, hone, rfl⟩
  obtain ⟨-, -, hzero, houtput⟩ := run_exit_code CommandLine.fillsAsDeclared_read hpiped hreads
  obtain ⟨-, hfailed, -⟩ := run_exit_code CommandLine.fillsAsDeclared_read hfile hreads'
  rw [hsame, hsettings] at hfailed
  exact ⟨hsettings, htext, hfails, (hzero hnone).2.2 htext, (hfailed path hone).1.2 (.inr hfails),
    houtput _ _ w hfile hsame hreads'⟩

end Invocation

end Sentential
