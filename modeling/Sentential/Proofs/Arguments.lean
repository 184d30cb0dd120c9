import Sentential.CommandLine
import Sentential.Proofs.Encoding

/-!
# The reader of options fills them as they are declared

Behind an argument, reading goes on with the options as they were, but for the one that the argument makes, or it ends
and nothing is run (`Draft.step_cases`). So if arguments are accepted, the options that they fill can be told from
those that stand before `--`, in whatever order they come, and from where the files stand (`filled_of_readFrom`).
-/

namespace Sentential.CommandLine

open Invocation

variable {d d' : Draft} {arg : OsText} {argv files files' : List OsText} {flag? : Option String} {flag : String}
  {flags : List (Option String)} {chars : List Char} {a : Args}

theorem joinedLimit?_eq_none (h : ¬"--max-variables=".toList.isPrefixOf flag.toList) : joinedLimit? flag = none :=
  if_neg h

theorem isOption_of_long (h : Text.decode? arg = some flag) (hflag : "--".toList.isPrefixOf flag.toList) :
    isOption arg = true := by
  obtain ⟨chars, hchars⟩ := List.isPrefixOf_iff_prefix.1 hflag
  rw [Text.decode?_eq_some_iff.1 h, Text.encode, ← hchars]
  rfl

/-! ## One argument -/

namespace Draft

/-- Reading goes on behind a flag, or behind a file if it stands where a flag may, with the settings of `d'` instead of
those of `d`. -/
structure Takes (d : Draft) (flag? : Option String) (d' : Draft) : Prop where
  plain : d'.plain = (d.plain || flag? == some "--no-colour" || flag? == some "--no-color")
  strict : d'.strict = (d.strict || flag? == some "--strict")
  limit : d'.limit? = d.limit?.or (flag?.bind joinedLimit?)
  ne_limit : flag? ≠ some "--max-variables"
  ne_rest : flag? ≠ some "--"

/-- The flags that change the settings or how reading goes on, but for those that hold a limit. -/
def keywords : List String := ["--no-colour", "--no-color", "--strict", "--max-variables", "--"]

theorem Takes.of_ne (hne : ∀ name ∈ keywords, flag? ≠ some name) (hplain : d'.plain = d.plain)
    (hstrict : d'.strict = d.strict) (hlimit : d'.limit? = d.limit?.or (flag?.bind joinedLimit?)) :
    d.Takes flag? d' := by
  simp only [keywords, List.forall_mem_cons] at hne
  obtain ⟨hcolour, hcolor, hstrict', hnamed, hrest, -⟩ := hne
  refine ⟨?_, ?_, hlimit, hnamed, hrest⟩
  · rw [hplain, beq_false_of_ne hcolour, beq_false_of_ne hcolor, Bool.or_false, Bool.or_false]
  · rw [hstrict, beq_false_of_ne hstrict', Bool.or_false]

theorem Takes.of_not_long (h : ∀ flag, flag? = some flag → ¬"--".toList.isPrefixOf flag.toList)
    (hplain : d'.plain = d.plain) (hstrict : d'.strict = d.strict) (hlimit : d'.limit? = d.limit?) :
    d.Takes flag? d' := by
  have hjoined : flag?.bind joinedLimit? = none := by
    rw [Option.bind_eq_none_iff]
    intro flag hflag
    exact joinedLimit?_eq_none fun hlong => h flag hflag (List.isPrefixOf_iff_prefix.2
      (List.IsPrefix.trans ⟨"max-variables=".toList, by decide⟩ (List.isPrefixOf_iff_prefix.1 hlong)))
  have hlong : ∀ name ∈ keywords, "--".toList.isPrefixOf name.toList := by decide
  refine .of_ne (fun name hname he => h name he (hlong name hname)) hplain hstrict ?_
  rw [hlimit, hjoined, Option.or_none]

theorem Takes.of_joined (h : flag.toList = "--max-variables=".toList ++ chars) (hplain : d'.plain = d.plain)
    (hstrict : d'.strict = d.strict) (hlimit : d'.limit? = d.limit?.or (number? (String.ofList chars))) :
    d.Takes (some flag) d' := by
  have hpre : "--max-variables=".toList.isPrefixOf flag.toList := List.isPrefixOf_iff_prefix.2 ⟨chars, h.symm⟩
  have hjoined : joinedLimit? flag = number? (String.ofList chars) := by
    rw [joinedLimit?, if_pos hpre, h, List.drop_left]
  have hshort : ∀ name ∈ keywords, ¬"--max-variables=".toList.isPrefixOf name.toList := by decide
  refine .of_ne ?_ hplain hstrict (by rw [hlimit, Option.bind_some, hjoined])
  intro name hname he
  cases he
  exact hshort flag hname hpre

/-- The long options that have no value. -/
def switches : List String := ["--no-colour", "--no-color", "--strict", "--verbose"]

theorem Takes.of_switch (h : flag ∈ switches)
    (hplain : d'.plain = (d.plain || some flag == some "--no-colour" || some flag == some "--no-color"))
    (hstrict : d'.strict = (d.strict || some flag == some "--strict")) (hlimit : d'.limit? = d.limit?) :
    d.Takes (some flag) d' := by
  have hjoined : ∀ name ∈ switches, ¬"--max-variables=".toList.isPrefixOf name.toList := by decide
  have hne : "--max-variables" ∉ switches ∧ "--" ∉ switches := by decide
  refine ⟨hplain, hstrict, ?_, ?_, ?_⟩
  · rw [hlimit, Option.bind_some, joinedLimit?_eq_none (hjoined flag h), Option.or_none]
  · exact fun he => hne.1 (Option.some.inj he ▸ h)
  · exact fun he => hne.2 (Option.some.inj he ▸ h)

theorem file_cases (d : Draft) (path : OsText) :
    (d.file? = none ∧ d.file path = .next { d with file? := some path }) ∨ d.file path = .stop refused := by
  unfold file
  split
  · exact .inr rfl
  · next h =>
    rw [Bool.or_eq_true, not_or, Option.isSome_iff_ne_none, not_not] at h
    exact .inl ⟨h.1, rfl⟩

theorem setLimit_cases (d : Draft) (value? : Option String) :
    (∃ n, d.limit? = none ∧ value?.bind number? = some n ∧ d.setLimit value? = .next { d with limit? := some n }) ∨
      d.setLimit value? = .stop refused := by
  unfold setLimit
  split
  · next n hlimit hn => exact .inl ⟨n, hlimit, hn, rfl⟩
  · exact .inr rfl

theorem short_cases (d : Draft) (chars : List Char) :
    (∃ k, d.short chars = .next { d with verbosity := k }) ∨ ∃ exit, d.short chars = .stop exit := by
  fun_induction short d chars with
  | case1 d => exact .inl ⟨_, rfl⟩
  | case2 d chars ih => exact ih
  | case3 | case4 | case5 => exact .inr ⟨_, rfl⟩

theorem long_cases (d : Draft) (h : flag.toList = '-' :: '-' :: chars) :
    (∃ d', d.long (String.ofList chars) = .next d' ∧ d.Takes (some flag) d' ∧ d'.file? = d.file?) ∨
      (flag = "--max-variables" ∧ d.long (String.ofList chars) = .limit) ∨
      ∃ exit, d.long (String.ofList chars) = .stop exit := by
  have hflag : ∀ name : String, String.ofList chars = name → flag = "--" ++ name := by
    rintro name rfl
    rw [← String.toList_inj, h, String.toList_append, String.toList_ofList (l := chars)]
    rfl
  unfold long
  split
  · next hname => exact .inr (.inl ⟨hflag _ hname, rfl⟩)
  case h_2 hname | h_3 hname | h_4 hname =>
    obtain rfl := hflag _ hname
    split
    · exact .inr (.inr ⟨_, rfl⟩)
    · exact .inl ⟨_, rfl, .of_switch (by decide) (by simp) (by simp) rfl, rfl⟩
  · next hname =>
    obtain rfl := hflag _ hname
    exact .inl ⟨_, rfl, .of_switch (by decide) (by simp) (by simp) rfl, rfl⟩
  case h_6 | h_7 | h_8 => exact .inr (.inr ⟨_, rfl⟩)

theorem longOrValued_cases (d : Draft) (h : flag.toList = '-' :: '-' :: chars) :
    (∃ d', d.longOrValued chars = .next d' ∧ d.Takes (some flag) d' ∧ d'.file? = d.file?) ∨
      (flag = "--max-variables" ∧ d.longOrValued chars = .limit) ∨ ∃ exit, d.longOrValued chars = .stop exit := by
  unfold longOrValued
  split
  · exact long_cases d h
  · next c value hdrop =>
    split
    · next htake =>
      have hequals : c = '=' := by
        have := List.head?_dropWhile_not (· != '=') chars
        rw [hdrop] at this
        simpa using this
      have hchars : chars = "max-variables".toList ++ '=' :: value := by
        rw [← List.takeWhile_append_dropWhile (p := (· != '=')) (l := chars), htake, hdrop, hequals]
      have hflag : flag.toList = "--max-variables=".toList ++ value := by
        rw [h, hchars]
        rfl
      rcases d.setLimit_cases (some (String.ofList value)) with ⟨n, hlimit, hn, hset⟩ | hset
      · rw [Option.bind_some] at hn
        exact .inl ⟨_, hset, .of_joined hflag rfl rfl (by rw [hlimit, hn, Option.none_or]), rfl⟩
      · exact .inr (.inr ⟨_, hset⟩)
    · exact .inr (.inr ⟨_, rfl⟩)

theorem option_cases (d : Draft) (flag : String) :
    (∃ d', d.option flag = .next d' ∧ d.Takes (some flag) d' ∧ d'.file? = d.file?) ∨
      (flag = "--max-variables" ∧ d.option flag = .limit) ∨ (flag = "--" ∧ d.option flag = .rest) ∨
      ∃ exit, d.option flag = .stop exit := by
  unfold option
  split
  · next h => exact .inr (.inr (.inl ⟨String.toList_inj.1 h, rfl⟩))
  · next h => exact (longOrValued_cases d h).imp_right (Or.imp_right .inr)
  · next chars _ hdash h =>
    have hshort : ¬"--".toList.isPrefixOf flag.toList := by
      intro hlong
      obtain ⟨rest, hrest⟩ := List.isPrefixOf_iff_prefix.1 hlong
      exact hdash rest (List.cons.inj (h.symm.trans hrest.symm)).2
    rcases d.short_cases chars with ⟨k, hnext⟩ | hstop
    · exact .inl ⟨_, hnext, .of_not_long (by rintro _ ⟨⟩; exact hshort) rfl rfl rfl, rfl⟩
    · exact .inr (.inr (.inr hstop))
  · exact .inr (.inr (.inr ⟨_, rfl⟩))

/-- What can come of an argument. -/
theorem step_cases (d : Draft) (arg : OsText) :
    (∃ d', d.step arg = .next d' ∧ d.Takes (Text.decode? arg) d' ∧
        d'.file?.toList = d.file?.toList ++ if isOption arg then [] else [arg]) ∨
      (Text.decode? arg = some "--max-variables" ∧ d.step arg = .limit) ∨
      (Text.decode? arg = some "--" ∧ d.step arg = .rest) ∨ ∃ exit, d.step arg = .stop exit := by
  unfold step
  split
  · split
    · exact .inr (.inr (.inr ⟨_, rfl⟩))
    · next flag hflag =>
      rw [hflag]
      rcases d.option_cases flag with ⟨d', hnext, htakes, hfile⟩ | ⟨rfl, hlimit⟩ | ⟨rfl, hrest⟩ | hstop
      · exact .inl ⟨d', hnext, htakes, by rw [hfile, List.append_nil]⟩
      · exact .inr (.inl ⟨rfl, hlimit⟩)
      · exact .inr (.inr (.inl ⟨rfl, hrest⟩))
      · exact .inr (.inr (.inr hstop))
  · next hfile =>
    rcases d.file_cases arg with ⟨hnone, hnext⟩ | hstop
    · have hshort : ∀ flag, Text.decode? arg = some flag → ¬"--".toList.isPrefixOf flag.toList :=
        fun flag hflag hlong => hfile (isOption_of_long hflag hlong)
      exact .inl ⟨_, hnext, .of_not_long hshort rfl rfl rfl, by rw [hnone]; rfl⟩
    · exact .inr (.inr (.inr ⟨_, hstop⟩))

end Draft

/-! ## All arguments -/

/-- The options `a` are those that `d` holds and those that flags and files make behind it. -/
structure Filled (d : Draft) (flags : List (Option String)) (files : List OsText) (a : Args) : Prop where
  input : a.input?.toList = d.file?.toList ++ files
  noColour : a.noColour = (d.plain || flags.contains (some "--no-colour") || flags.contains (some "--no-color"))
  strict : a.strict = (d.strict || flags.contains (some "--strict"))
  maxVariables : a.maxVariables = (d.limit?.or (namedLimit? flags)).getD 12

namespace Filled

theorem nil (d : Draft) : Filled d [] [] d.args where
  input := (List.append_nil _).symm
  noColour := by simp [Draft.args]
  strict := by simp [Draft.args]
  maxVariables := by rw [namedLimit?, Option.or_none]; rfl

theorem of_takes (htakes : d.Takes flag? d') (hfiles : d'.file?.toList ++ files' = d.file?.toList ++ files)
    (h : Filled d' flags files' a) : Filled d (flag? :: flags) files a where
  input := h.input.trans hfiles
  noColour := by
    rw [h.noColour, htakes.plain, List.contains_cons, List.contains_cons, BEq.comm (a := flag?),
      BEq.comm (a := flag?)]
    ac_rfl
  strict := by rw [h.strict, htakes.strict, List.contains_cons, BEq.comm (a := flag?), Bool.or_assoc]
  maxVariables := by rw [h.maxVariables, htakes.limit, namedLimit?, if_neg htakes.ne_limit, Option.or_assoc]

/-- A number is not one of the flags. -/
theorem of_limit {n : Nat} {value? : Option String} (hlimit : d.limit? = none) (hn : value?.bind number? = some n)
    (h : Filled { d with limit? := some n } flags files a) :
    Filled d (some "--max-variables" :: value? :: flags) files a := by
  have hne : ∀ name, number? name = none → (some name == value?) = false := fun name hname =>
    beq_false_of_ne fun he => by rw [← he, Option.bind_some, hname] at hn; cases hn
  have hnamed : namedLimit? (some "--max-variables" :: value? :: flags) = some n := hn
  refine ⟨h.input, ?_, ?_, ?_⟩
  · rw [h.noColour]
    simp only [List.contains_cons, hne "--no-colour" (by decide), hne "--no-color" (by decide), Bool.false_or]
    rfl
  · rw [h.strict]
    simp only [List.contains_cons, hne "--strict" (by decide), Bool.false_or]
    rfl
  · rw [h.maxVariables, hlimit, hnamed]
    rfl

end Filled

theorem filled_of_readFiles (h : readFiles d argv = .ok a) : Filled d [] argv a := by
  induction argv generalizing d with
  | nil => cases h; exact .nil d
  | cons arg argv ih =>
    rw [readFiles] at h
    rcases d.file_cases arg with ⟨hnone, hnext⟩ | hstop
    · rw [hnext] at h
      have hfilled := ih h
      exact ⟨by rw [hfilled.input, hnone]; rfl, hfilled.noColour, hfilled.strict, hfilled.maxVariables⟩
    · rw [hstop] at h
      cases h

theorem flags_cons (h : Text.decode? arg ≠ some "--") :
    Invocation.flags (arg :: argv) = Text.decode? arg :: Invocation.flags argv :=
  List.takeWhile_cons_of_pos (decide_eq_true h)

theorem flags_cons_rest (h : Text.decode? arg = some "--") : Invocation.flags (arg :: argv) = [] :=
  List.takeWhile_cons_of_neg (by simp [h])

/-- By induction on the arguments; where a limit is awaited, its option is the flag before them. -/
theorem filled_of_readFrom {valued : Bool} (h : readFrom valued d argv = .ok a) :
    Filled d (if valued then some "--max-variables" :: Invocation.flags argv else Invocation.flags argv)
      (filesFrom valued argv) a := by
  induction argv generalizing valued d with
  | nil =>
    cases valued with
    | true => cases h
    | false => cases h; exact .nil d
  | cons arg argv ih =>
    rw [readFrom] at h
    rw [filesFrom]
    cases valued with
    | true =>
      rw [if_pos rfl] at h ⊢
      rw [if_pos rfl]
      rcases d.setLimit_cases (Text.decode? arg) with ⟨n, hlimit, hn, hset⟩ | hset
      · rw [hset] at h
        have hne : Text.decode? arg ≠ some "--" := fun he => by rw [he] at hn; cases hn
        rw [flags_cons hne]
        exact .of_limit hlimit hn (ih h)
      · rw [hset] at h
        cases h
    | false =>
      rw [if_neg Bool.false_ne_true] at h ⊢
      rw [if_neg Bool.false_ne_true]
      rcases d.step_cases arg with ⟨d', hstep, htakes, hfiles⟩ | ⟨harg, hstep⟩ | ⟨harg, hstep⟩ | ⟨exit, hstep⟩
      · rw [hstep] at h
        rw [flags_cons htakes.ne_rest, if_neg htakes.ne_rest, if_neg htakes.ne_limit]
        refine .of_takes htakes ?_ (ih h)
        rw [hfiles, List.append_assoc]
        split <;> rfl
      · rw [hstep] at h
        have hne : Text.decode? arg ≠ some "--" := by rw [harg]; decide
        rw [flags_cons hne, if_neg hne, if_pos harg, harg]
        exact ih h
      · rw [hstep] at h
        rw [flags_cons_rest harg, if_pos harg]
        exact filled_of_readFiles h
      · rw [hstep] at h
        cases h

theorem fillsAsDeclared_read : FillsAsDeclared read where
  input h := (filled_of_readFrom h).input.symm
  noColour h := (filled_of_readFrom h).noColour
  strict h := (filled_of_readFrom h).strict
  maxVariables h := (filled_of_readFrom h).maxVariables

end Sentential.CommandLine
