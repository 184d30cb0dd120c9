import Sentential.Proofs.Fixpoint
import Sentential.Proofs.RoundTrip
import Sentential.Proofs.Strictness

/-!
# What simplification prints can be entered again

A line that is simplified has been read, so its formula is well-formed, and stays so through every rule
(`Session.exists_of_execute_simplified`). Its text is then read back as the same formula, strictly or not,
and simplification has nothing left to do there.
-/

namespace Sentential

/-- Printed statements hold no illegal token, so they are read back by strict lexers too. -/
theorem Formula.WellFormed.read_text {f : Formula} (hf : f.WellFormed) (c : Command) (strict : Bool) :
    Statement.read strict (Statement.text ⟨c, f⟩) = .ok ⟨c, f⟩ := by
  have hs : (Statement.mk c f).WellFormed := hf
  exact (Statement.read_strict_ok_iff strict).2 hs.read_text

namespace Statement

theorem text_simplify (f : Formula) : text ⟨.simplify, f⟩ = "simplify " ++ f.literal := rfl

theorem text_table (f : Formula) : text ⟨.table, f⟩ = "table " ++ f.literal := rfl

end Statement

namespace Session

variable {s : Session} {text : String} {f : Formula}

/-- What comes of a line comes of a well-formed formula. -/
theorem exists_of_execute_ok {o : Outcome} (h : s.execute text = .ok o) :
    ∃ g : Formula, g.WellFormed ∧ (o = .table (.ofFormula g) ∨ o = .simplified (g.simplify Rule.all)) := by
  obtain ⟨⟨c, g⟩, hread, hrun⟩ := execute_ok_iff.1 h
  have hg : g.WellFormed := Statement.wellFormed_of_read ((Statement.read_strict_ok_iff s.strict).1 hread)
  refine ⟨g, hg, ?_⟩
  cases c with
  | table =>
    rw [run] at hrun
    dsimp only at hrun
    split at hrun
    · cases hrun
    · cases hrun
      exact .inl rfl
  | simplify =>
    cases hrun
    exact .inr rfl

theorem exists_of_execute_simplified (h : s.execute text = .ok (.simplified f)) :
    ∃ g : Formula, g.WellFormed ∧ f = g.simplify Rule.all := by
  obtain ⟨g, hg, ho | ho⟩ := exists_of_execute_ok h
  · cases ho
  · cases ho
    exact ⟨g, hg, rfl⟩

/-- A formula that a session has simplified a line to comes back as it is, under whatever settings its text
is entered to be simplified; entered for a table, it is read as that formula. -/
theorem execute_simplified_again (h : s.execute text = .ok (.simplified f)) :
    (∀ s' : Session, s'.execute ("simplify " ++ f.literal) = .ok (.simplified f)) ∧
      ∀ strict, Statement.read strict ("table " ++ f.literal) = .ok ⟨.table, f⟩ := by
  obtain ⟨g, hg, rfl⟩ := exists_of_execute_simplified h
  have hf : (g.simplify Rule.all).WellFormed := (Formula.replaces_simplify Rule.all hg).wellFormed
  have hfix : (g.simplify Rule.all).simplify Rule.all = g.simplify Rule.all :=
    Formula.simplify_of_pass_eq (Formula.pass_simplify Rule.all hg)
  rw [← Statement.text_simplify, ← Statement.text_table]
  refine ⟨fun s' => execute_ok_iff.2 ⟨_, hf.read_text .simplify s'.strict, ?_⟩, hf.read_text .table⟩
  rw [run, hfix]

/-- An implication and a De Morgan negation under a biconditional that is negated, in a session that allows
no table; the result is entered under the standard settings. -/
theorem execute_simplified_again_of_negated :
    let line := "simplify !(a->b <-> !(b&&c))\t|0"
    let f : Formula := .not (.binary "<->" .iff (.binary "+" .or (.not (.var "a")) (.var "b"))
      (.binary "+" .or (.not (.var "b")) (.not (.var "c"))))
    Session.execute { strict := true, maxTableVariables := 0 } line = .ok (.simplified f) ∧
      f.literal = "!((!a + b) <-> (!b + !c))" ∧
      Session.execute {} ("simplify " ++ f.literal) = .ok (.simplified f) ∧
      Statement.read true ("table " ++ f.literal) = .ok ⟨.table, f⟩ := by
  intro line f
  have hvalue : (Session.execute { strict := true, maxTableVariables := 0 } line).toOption =
      some (.simplified f) := by decide +kernel
  have h : Session.execute { strict := true, maxTableVariables := 0 } line = .ok (.simplified f) := by
    cases hexec : Session.execute { strict := true, maxTableVariables := 0 } line with
    | error e => rw [hexec] at hvalue; cases hvalue
    | ok o => rw [hexec] at hvalue; cases hvalue; rfl
  exact ⟨h, by decide, (execute_simplified_again h).1 {}, (execute_simplified_again h).2 true⟩

end Session

end Sentential
