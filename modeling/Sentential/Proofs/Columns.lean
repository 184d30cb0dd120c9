import Sentential.Proofs.Strictness

/-!
# Columns follow the line

A phrase mentions the names that its tokens spell, in the same order (`IsChain.names_eq`): groups, negations and
the folding of a chain to the left move none of them. So the variables of a statement can be read off the tokens of
its line, and with them whether a session refuses to draw its table.
-/

namespace Sentential

/-- The names that the tokens spell, left to right and with repetitions. -/
def spelledNames (ts : List Token) : List String := (ts.filter fun t => t.kind == .name).map Token.literal

section
variable {t : Token} {ts us : List Token}

theorem spelledNames_append : spelledNames (ts ++ us) = spelledNames ts ++ spelledNames us := by
  simp [spelledNames]

theorem spelledNames_cons_name (h : t.kind = .name) : spelledNames (t :: ts) = t.literal :: spelledNames ts := by
  simp [spelledNames, h]

theorem spelledNames_cons_other (h : t.kind ≠ .name) : spelledNames (t :: ts) = spelledNames ts := by
  simp [spelledNames, h]

end

/-- Folding to the left keeps the names in their order. -/
theorem Formula.names_foldLinks (left : Formula) (links : List Link) :
    (left.foldLinks links).names = left.names ++ links.flatMap fun k => k.right.names := by
  induction links generalizing left with
  | nil => simp
  | cons k links ih => rw [foldLinks_cons, ih, names, List.append_assoc, List.flatMap_cons]

mutual

theorem IsOperand.names_eq : ∀ {ts : List Token} {f : Formula}, IsOperand ts f → f.names = spelledNames ts
  | _, _, .name hk => by rw [spelledNames_cons_name hk]; rfl
  | _, _, .const hk => by rw [spelledNames_cons_other (by simp [hk])]; rfl
  | _, _, .negation hk ho => by rw [spelledNames_cons_other (by simp [hk]), Formula.names, ho.names_eq]
  | _, _, @IsOperand.group t t' ts f hk hc hk' => by
    have hclose : spelledNames [t'] = [] := spelledNames_cons_other (by simp [hk'])
    rw [spelledNames_cons_other (by simp [hk]), spelledNames_append, hclose, List.append_nil, hc.names_eq]

theorem IsChain.names_eq : ∀ {ts : List Token} {f : Formula}, IsChain ts f → f.names = spelledNames ts
  | _, _, .intro ho hlinks => by
    rw [Formula.names_foldLinks, spelledNames_append, ho.names_eq, hlinks.names_eq]

theorem AreLinks.names_eq : ∀ {ts : List Token} {links : List Link}, AreLinks ts links →
    links.flatMap (fun k => k.right.names) = spelledNames ts
  | _, _, .nil => rfl
  | _, _, .cons hk ho hlinks => by
    rw [List.flatMap_cons, spelledNames_cons_other (by simp [hk]), spelledNames_append, ho.names_eq,
      hlinks.names_eq]

end

theorem IsSentence.names_eq {ts : List Token} {st : Statement} (h : IsSentence ts st) :
    st.formula.names = spelledNames ts := by
  obtain ⟨hk, hc⟩ := h
  rw [spelledNames_cons_other (by simp [hk])]
  exact hc.names_eq

namespace Session

variable {s : Session} {f : Formula}

theorem run_table_of_lt (h : s.maxTableVariables < f.vars.length) :
    s.run ⟨.table, f⟩ = .error (.tooManyVariables f.vars.length s.maxTableVariables) := if_pos h

theorem run_table_of_le (h : f.vars.length ≤ s.maxTableVariables) :
    s.run ⟨.table, f⟩ = .ok (.table (.ofFormula f)) := if_neg (Nat.not_lt.2 h)

theorem execute_of_read {text : String} {st : Statement} (h : Statement.read s.strict text = .ok st) :
    s.execute text = s.run st := by
  rw [execute, h]

/-- The variables of a line that is read are the names among its tokens, each where it occurs first. If it asks for
a table, these are the columns, unless they are more than the session draws; then the line is refused, with their
number and that limit, and a line is refused for nothing else. A line that asks for a simplification may have any
number of variables. All this is so whether the session is strict or not. -/
theorem execute_draws_spelledNames (s : Session) (text : String) (f : Formula) :
    let columns := (spelledNames (tokenize text)).eraseDups
    (Statement.ofTokens (tokenize text) = .ok ⟨.table, f⟩ →
      f.vars = columns ∧
        (∀ e, s.execute text = .error e ↔
          s.maxTableVariables < columns.length ∧ e = .tooManyVariables columns.length s.maxTableVariables) ∧
        (columns.length ≤ s.maxTableVariables →
          ∃ t, s.execute text = .ok (.table t) ∧ t.formula = f ∧ t.columns = columns)) ∧
      (Statement.ofTokens (tokenize text) = .ok ⟨.simplify, f⟩ →
        f.vars = columns ∧ ∀ count limit, s.execute text ≠ .error (.tooManyVariables count limit)) := by
  intro columns
  have hread : ∀ {c}, Statement.ofTokens (tokenize text) = .ok ⟨c, f⟩ →
      f.vars = columns ∧ s.execute text = s.run ⟨c, f⟩ := by
    intro c h
    have hsentence := (Statement.ofTokens_ok_iff (spelt_of_mem_tokenize text)).1 h
    have hlenient := Statement.read_ok_iff.2 hsentence
    exact ⟨congrArg List.eraseDups hsentence.names_eq,
      execute_of_read ((Statement.read_strict_ok_iff s.strict).2 hlenient)⟩
  refine ⟨fun h => ?_, fun h => ?_⟩
  · obtain ⟨hvars, hrun⟩ := hread h
    rw [hrun, ← hvars]
    refine ⟨rfl, ?_, fun hle => ⟨_, run_table_of_le hle, rfl, rfl⟩⟩
    rcases Nat.lt_or_ge s.maxTableVariables f.vars.length with hlt | hle
    · rw [run_table_of_lt hlt]
      intro e
      constructor
      · intro he
        cases he
        exact ⟨hlt, rfl⟩
      · rintro ⟨-, rfl⟩
        rfl
    · rw [run_table_of_le hle]
      exact fun e => ⟨nofun, fun ⟨hlt, _⟩ => absurd hlt (Nat.not_lt.2 hle)⟩
  · obtain ⟨hvars, hrun⟩ := hread h
    rw [hrun]
    exact ⟨hvars, nofun⟩

/-- Names in a negated group and behind it: the second `b` and `a` are no new columns. A strict session that draws two
columns refuses the line, one that draws three does not, and how many it draws does not matter for a
simplification. -/
theorem execute_draws_spelledNames_of_group :
    let table : String := "table !(b -> a) + b * (c <-> a)"
    let simplify : String := "simplify b + c"
    let f : Formula :=
      .binary "*" .and (.binary "+" .or (.not (.binary "->" .implies (.var "b") (.var "a"))) (.var "b"))
        (.binary "<->" .iff (.var "c") (.var "a"))
    Statement.ofTokens (tokenize table) = .ok ⟨.table, f⟩ ∧ f.vars = ["b", "a", "c"] ∧
      Session.execute { maxTableVariables := 2, strict := true } table = .error (.tooManyVariables 3 2) ∧
      (∃ t, Session.execute { maxTableVariables := 3 } table = .ok (.table t) ∧ t.formula = f ∧
        t.columns = ["b", "a", "c"]) ∧
      Statement.ofTokens (tokenize simplify) = .ok ⟨.simplify, .binary "+" .or (.var "b") (.var "c")⟩ ∧
      ∀ count limit, Session.execute { maxTableVariables := 0 } simplify ≠ .error (.tooManyVariables count limit) := by
  intro table simplify f
  have htable : tokenize table =
      [⟨.command .table, "table", 0⟩, ⟨.bang, "!", 6⟩, ⟨.openParen, "(", 7⟩, ⟨.name, "b", 8⟩,
       ⟨.connective .implies, "->", 10⟩, ⟨.name, "a", 13⟩, ⟨.closeParen, ")", 14⟩, ⟨.connective .or, "+", 16⟩,
       ⟨.name, "b", 18⟩, ⟨.connective .and, "*", 20⟩, ⟨.openParen, "(", 22⟩, ⟨.name, "c", 23⟩,
       ⟨.connective .iff, "<->", 25⟩, ⟨.name, "a", 29⟩, ⟨.closeParen, ")", 30⟩] := by decide +kernel
  have hsimplify : tokenize simplify =
      [⟨.command .simplify, "simplify", 0⟩, ⟨.name, "b", 9⟩, ⟨.connective .or, "+", 11⟩, ⟨.name, "c", 13⟩] := by
    decide +kernel
  have hcolumns : (spelledNames (tokenize table)).eraseDups = ["b", "a", "c"] := by rw [htable]; decide
  have hf : Statement.ofTokens (tokenize table) = .ok ⟨.table, f⟩ := by rw [htable]; rfl
  have hg : Statement.ofTokens (tokenize simplify) = .ok ⟨.simplify, .binary "+" .or (.var "b") (.var "c")⟩ := by
    rw [hsimplify]; rfl
  obtain ⟨hvars, herror, -⟩ := (execute_draws_spelledNames { maxTableVariables := 2, strict := true } table f).1 hf
  obtain ⟨-, -, hok⟩ := (execute_draws_spelledNames { maxTableVariables := 3 } table f).1 hf
  rw [hcolumns] at hvars herror hok
  exact ⟨hf, hvars, (herror _).2 ⟨by decide, rfl⟩, hok (by decide), hg,
    ((execute_draws_spelledNames { maxTableVariables := 0 } simplify _).2 hg).2⟩

end Session

end Sentential
