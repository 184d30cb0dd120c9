import Sentential.Proofs.Fixpoint
import Sentential.Proofs.Names
import Sentential.Proofs.Tables

/-!
# Names do not matter

A renaming that keeps the names of a formula apart, and makes names of them, commutes with simplification and with
the making of a truth table. Simplification compares texts, and the texts of two renamed formulas agree exactly if
those of the formulas do (`literal_rename_eq_iff`), however the names look; so each rule fires on a renamed
formula exactly where it fires on the formula (`Rule.reduce?_rename`), and the passes run in step.
-/

namespace Sentential

namespace Formula

def rename (ρ : String → String) : Formula → Formula
  | .var name => .var (ρ name)
  | .const value => .const value
  | .not a => .not (a.rename ρ)
  | .binary glyph c l r => .binary glyph c (l.rename ρ) (r.rename ρ)

/-- A well-formed formula over the names. -/
structure Over (names : List String) (f : Formula) : Prop where
  wellFormed : f.WellFormed
  names_subset : ∀ name ∈ f.names, name ∈ names

end Formula

/-- `ρ` makes names of the names and keeps them apart. -/
structure Renames (ρ : String → String) (names : List String) : Prop where
  isName : ∀ name ∈ names, IsName (ρ name)
  injective : ∀ name ∈ names, ∀ name' ∈ names, ρ name = ρ name' → name = name'

variable {ρ : String → String} {names : List String}

namespace Formula
variable {f g a l r : Formula} {glyph : String} {c : Connective}

namespace Over

theorem not_iff : (Formula.not a).Over names ↔ a.Over names :=
  ⟨fun h => ⟨h.wellFormed, h.names_subset⟩, fun h => ⟨h.wellFormed, h.names_subset⟩⟩

theorem binary_iff :
    (Formula.binary glyph c l r).Over names ↔
      Connective.ofGlyph? glyph = some c ∧ l.Over names ∧ r.Over names := by
  constructor
  · rintro ⟨⟨hc, hl, hr⟩, hnames⟩
    obtain ⟨hnl, hnr⟩ := List.forall_mem_append.1 hnames
    exact ⟨hc, ⟨hl, hnl⟩, ⟨hr, hnr⟩⟩
  · rintro ⟨hc, hl, hr⟩
    exact ⟨⟨hc, hl.wellFormed, hr.wellFormed⟩, List.forall_mem_append.2 ⟨hl.names_subset, hr.names_subset⟩⟩

theorem of_mem_disjuncts (h : f.Over names) : ∀ g ∈ f.disjuncts, g.Over names := by
  fun_induction disjuncts f with
  | case1 glyph l r ihl ihr =>
    obtain ⟨-, hl, hr⟩ := binary_iff.1 h
    exact List.forall_mem_append.2 ⟨ihl hl, ihr hr⟩
  | case2 f hf => exact List.forall_mem_singleton.2 h

theorem of_sublist (h : f.Over names) (hg : g.WellFormed) (hsub : g.names.Sublist f.names) : g.Over names :=
  ⟨hg, fun name hname => h.names_subset name (hsub.subset hname)⟩

theorem reduce? {rule : Rule} (h : f.Over names) (hg : rule.reduce? f = some g) : g.Over names :=
  h.of_sublist (Rule.replaces_of_reduce? h.wellFormed hg).wellFormed (Rule.names_sublist_of_reduce? hg)

theorem pass (rules : List Rule) (h : f.Over names) : (f.pass rules).Over names :=
  h.of_sublist (replaces_pass rules h.wellFormed).wellFormed (names_pass_sublist rules f)

theorem rename (hρ : Renames ρ names) (h : f.Over names) : (f.rename ρ).WellFormed := by
  induction f with
  | var name => exact hρ.isName name (h.names_subset name List.mem_cons_self)
  | const value => trivial
  | not a ih => exact ih (not_iff.1 h)
  | binary glyph c l r ihl ihr =>
    obtain ⟨hc, hl, hr⟩ := binary_iff.1 h
    exact ⟨hc, ihl hl, ihr hr⟩

end Over

theorem rename_inj (hρ : Renames ρ names) (hf : f.Over names) (hg : g.Over names) :
    f.rename ρ = g.rename ρ ↔ f = g := by
  refine ⟨fun h => ?_, fun h => by rw [h]⟩
  induction f generalizing g with
  | var name =>
    cases g with
    | var name' =>
      have hmem := hf.names_subset name List.mem_cons_self
      have hmem' := hg.names_subset name' List.mem_cons_self
      rw [hρ.injective name hmem name' hmem' (Formula.var.inj h)]
    | _ => cases h
  | const value =>
    cases g with
    | const value' => exact congrArg _ (Formula.const.inj h)
    | _ => cases h
  | not a ih =>
    cases g with
    | not b => rw [ih (Over.not_iff.1 hf) (Over.not_iff.1 hg) (Formula.not.inj h)]
    | _ => cases h
  | binary glyph c l r ihl ihr =>
    cases g with
    | binary glyph' c' l' r' =>
      obtain ⟨rfl, rfl, hl, hr⟩ := Formula.binary.inj h
      obtain ⟨-, hfl, hfr⟩ := Over.binary_iff.1 hf
      obtain ⟨-, hgl, hgr⟩ := Over.binary_iff.1 hg
      rw [ihl hfl hgl hl, ihr hfr hgr hr]
    | _ => cases h

/-- Renamed texts agree exactly if the texts do. -/
theorem literal_rename_eq_iff (hρ : Renames ρ names) (hf : f.Over names) (hg : g.Over names) :
    (f.rename ρ).literal = (g.rename ρ).literal ↔ f.literal = g.literal := by
  rw [(hf.rename hρ).literal_inj (hg.rename hρ), hf.wellFormed.literal_inj hg.wellFormed, rename_inj hρ hf hg]

theorem negated?_rename (f : Formula) : (f.rename ρ).negated? = f.negated?.map (rename ρ) := by
  cases f <;> rfl

theorem same_rename (hρ : Renames ρ names) (hf : f.Over names) (hg : g.Over names) :
    same (f.rename ρ) (g.rename ρ) = same f g := by
  rw [same, same, Bool.eq_iff_iff, beq_iff_eq, beq_iff_eq, literal_rename_eq_iff hρ hf hg]

theorem any_negated?_rename (hρ : Renames ρ names) (hf : f.Over names) (hg : g.Over names) :
    ((f.rename ρ).negated?.any fun a => same a (g.rename ρ)) = f.negated?.any fun a => same a g := by
  rw [negated?_rename, Option.any_map]
  cases f with
  | not a => exact same_rename hρ (Over.not_iff.1 hf) hg
  | _ => rfl

theorem complementary_rename (hρ : Renames ρ names) (hf : f.Over names) (hg : g.Over names) :
    complementary (f.rename ρ) (g.rename ρ) = complementary f g := by
  rw [complementary, complementary, any_negated?_rename hρ hf hg, any_negated?_rename hρ hg hf]

theorem disjuncts_rename (f : Formula) : (f.rename ρ).disjuncts = f.disjuncts.map (rename ρ) := by
  induction f with
  | binary glyph c l r ihl ihr =>
    cases c with
    | or => rw [rename, disjuncts, disjuncts, ihl, ihr, List.map_append]
    | _ => rfl
  | _ => rfl

theorem mem_texts_rename (hρ : Renames ρ names) {fs : List Formula} (hfs : ∀ f ∈ fs, f.Over names)
    (ha : a.Over names) :
    (a.rename ρ).literal ∈ (fs.map (rename ρ)).map literal ↔ a.literal ∈ fs.map literal := by
  rw [List.map_map, List.mem_map, List.mem_map]
  exact exists_congr fun g => and_congr_right fun hg => literal_rename_eq_iff hρ (hfs g hg) ha

theorem clash_rename (hρ : Renames ρ names) {fs : List Formula} (hfs : ∀ f ∈ fs, f.Over names) :
    clash (fs.map (rename ρ)) = clash fs := by
  unfold clash
  rw [List.any_map, Bool.eq_iff_iff, List.any_eq_true, List.any_eq_true]
  refine exists_congr fun f => and_congr_right fun hf => ?_
  cases f with
  | not a =>
    have ha := Over.not_iff.1 (hfs _ hf)
    show List.contains _ (a.rename ρ).literal = true ↔ List.contains _ a.literal = true
    rw [List.contains_iff_mem, List.contains_iff_mem, mem_texts_rename hρ hfs ha]
  | _ => rfl

/-- Which text is the first to repeat another one is only asked by comparing them. -/
theorem firstRepeat_rename (hρ : Renames ρ names) (earlier : List Formula) {fs : List Formula}
    (hearlier : ∀ f ∈ earlier, f.Over names) (hfs : ∀ f ∈ fs, f.Over names) :
    firstRepeat ((earlier.map (rename ρ)).map literal) ((fs.map (rename ρ)).map literal) =
      firstRepeat (earlier.map literal) (fs.map literal) := by
  induction fs generalizing earlier with
  | nil => rfl
  | cons f fs ih =>
    obtain ⟨hf, hfs⟩ := List.forall_mem_cons.1 hfs
    have ih := ih (f :: earlier) (List.forall_mem_cons.2 ⟨hf, hearlier⟩) hfs
    simp only [List.map_cons] at ih ⊢
    rw [firstRepeat, firstRepeat, ih]
    by_cases hmem : f.literal ∈ earlier.map literal
    · rw [if_pos hmem, if_pos ((mem_texts_rename hρ hearlier hf).2 hmem)]
    · rw [if_neg hmem, if_neg (mt (mem_texts_rename hρ hearlier hf).1 hmem)]

theorem without_rename (f : Formula) (j : Nat) : (f.rename ρ).without j = (f.without j).map (rename ρ) := by
  have hlen (f : Formula) : (f.rename ρ).disjuncts.length = f.disjuncts.length := by
    rw [disjuncts_rename, List.length_map]
  fun_induction without f j with
  | case1 glyph l r j hlt l' hl' ih | case2 glyph l r j hlt hl' ih =>
    rw [rename, without, hlen, if_pos hlt, ih, hl']
    rfl
  | case3 glyph l r j hlt r' hr' ih | case4 glyph l r j hlt hr' ih =>
    rw [rename, without, hlen, if_neg hlt, ih, hr']
    rfl
  | case5 f hf =>
    cases f with
    | binary glyph c l r =>
      cases c with
      | or => exact absurd rfl (hf glyph l r)
      | _ => rfl
    | _ => rfl
  | case6 f j hf hj =>
    cases f with
    | binary glyph c l r =>
      cases c with
      | or => exact absurd rfl (hf glyph l r)
      | _ => exact if_neg hj
    | _ => exact if_neg hj

theorem rename_eq_const_iff {value : Bool} : f.rename ρ = .const value ↔ f = .const value := by
  cases f <;> simp [rename]

end Formula

namespace Rule

open Formula

variable {f l r : Formula}

theorem absorb?_rename (zero : Bool) (l r : Formula) :
    absorb? zero (l.rename ρ) (r.rename ρ) = (absorb? zero l r).map (rename ρ) := by
  simp only [absorb?, rename_eq_const_iff]
  split
  · rfl
  · split
    · rfl
    · split <;> rfl

/-- A rule that asks the same makes the same. -/
theorem fire_rename {fires fires' : Bool} (h : fires' = fires) (g : Formula) :
    (if fires' then some (g.rename ρ) else none) = (if fires then some g else none).map (rename ρ) := by
  subst h
  cases fires' <;> rfl

/-- A rule makes of a renamed formula what it makes of the formula, renamed, and nothing where it makes nothing. -/
theorem reduce?_rename (hρ : Renames ρ names) (hf : f.Over names) (rule : Rule) :
    rule.reduce? (f.rename ρ) = (rule.reduce? f).map (rename ρ) := by
  cases f with
  | var name => cases rule <;> rfl
  | const value => cases rule <;> rfl
  | not a =>
    cases rule with
    | deMorgan =>
      cases a with
      | binary glyph c l r => cases c <;> rfl
      | _ => rfl
    | doubleNegation => cases a <;> rfl
    | _ => rfl
  | binary glyph c l r =>
    obtain ⟨-, hl, hr⟩ := Over.binary_iff.1 hf
    cases c with
    | or =>
      have hover := hf.of_mem_disjuncts
      have hdisjuncts := disjuncts_rename (ρ := ρ) (.binary glyph .or l r)
      cases rule with
      | identity => exact absorb?_rename true l r
      | idempotence => exact fire_rename (same_rename hρ hl hr) l
      | negatedAlternative =>
        have hclash := clash_rename hρ hover
        rw [← hdisjuncts] at hclash
        exact fire_rename hclash (.const true)
      | duplicateAlternative =>
        have hfirst := firstRepeat_rename hρ [] nofun hover
        rw [← hdisjuncts] at hfirst
        refine (congrArg (Option.bind · _) hfirst).trans ?_
        rw [reduce?, Option.map_bind]
        exact congrArg _ (funext (without_rename (.binary glyph .or l r)))
      | _ => rfl
    | and =>
      cases rule with
      | identity => exact absorb?_rename false l r
      | idempotence => exact fire_rename (same_rename hρ hl hr) l
      | negatedConjunction => exact fire_rename (complementary_rename hρ hl hr) (.const false)
      | _ => rfl
    | _ => cases rule <;> rfl

end Rule

namespace Formula
variable {f : Formula}

theorem applyAll_rename (hρ : Renames ρ names) (hf : f.Over names) (rules : List Rule) :
    applyAll rules (f.rename ρ) = (applyAll rules f).rename ρ := by
  induction rules generalizing f with
  | nil => rfl
  | cons rule rules ih =>
    rw [applyAll, applyAll, Rule.reduce?_rename hρ hf]
    cases h : rule.reduce? f with
    | none => exact ih hf
    | some g => exact ih (hf.reduce? h)

theorem pass_rename (hρ : Renames ρ names) (hf : f.Over names) (rules : List Rule) :
    (f.rename ρ).pass rules = (f.pass rules).rename ρ := by
  induction f with
  | var name => rfl
  | const value => rfl
  | not a ih =>
    have ha := Over.not_iff.1 hf
    rw [rename, pass, pass, ih ha]
    exact applyAll_rename hρ (Over.not_iff.2 (ha.pass rules)) rules
  | binary glyph c l r ihl ihr =>
    obtain ⟨hc, hl, hr⟩ := Over.binary_iff.1 hf
    rw [rename, pass, pass, ihl hl, ihr hr]
    exact applyAll_rename hρ (Over.binary_iff.2 ⟨hc, hl.pass rules, hr.pass rules⟩) rules

/-- A pass leaves the text of a renamed formula the same exactly if it leaves that of the formula the same. -/
theorem literal_pass_rename_iff (hρ : Renames ρ names) (hf : f.Over names) (rules : List Rule) :
    ((f.rename ρ).pass rules).literal = (f.rename ρ).literal ↔ (f.pass rules).literal = f.literal := by
  rw [pass_rename hρ hf, literal_rename_eq_iff hρ (hf.pass rules) hf]

theorem simplify_rename (hρ : Renames ρ names) (hf : f.Over names) (rules : List Rule) :
    (f.rename ρ).simplify rules = (f.simplify rules).rename ρ := by
  fun_induction simplify rules f with
  | case1 f hlit => rw [simplify, dif_pos ((literal_pass_rename_iff hρ hf rules).2 hlit), pass_rename hρ hf]
  | case2 f hlit ih =>
    rw [simplify, dif_neg (mt (literal_pass_rename_iff hρ hf rules).1 hlit), pass_rename hρ hf]
    exact ih (hf.pass rules)

theorem stages_rename (hρ : Renames ρ names) (hf : f.Over names) (rules : List Rule) :
    (f.rename ρ).stages rules = (f.stages rules).map (rename ρ) := by
  fun_induction stages rules f with
  | case1 f hlit =>
    rw [stages, dif_pos ((literal_pass_rename_iff hρ hf rules).2 hlit)]
    rfl
  | case2 f hlit ih =>
    rw [stages, dif_neg (mt (literal_pass_rename_iff hρ hf rules).1 hlit), pass_rename hρ hf, List.map_cons,
      ih (hf.pass rules)]

theorem names_rename (f : Formula) : (f.rename ρ).names = f.names.map ρ := by
  induction f with
  | var name => rfl
  | const value => rfl
  | not a ih => exact ih
  | binary glyph c l r ihl ihr => rw [rename, names, names, ihl, ihr, List.map_append]

theorem eval_rename (σ : Valuation) (f : Formula) : (f.rename ρ).eval σ = f.eval fun name => σ (ρ name) := by
  induction f with
  | var name => rfl
  | const value => rfl
  | not a ih => rw [rename, eval, eval, ih]
  | binary glyph c l r ihl ihr => rw [rename, eval, eval, ihl, ihr]

end Formula

namespace Renames

theorem beq_eq (hρ : Renames ρ names) {name name' : String} (h : name ∈ names) (h' : name' ∈ names) :
    (ρ name == ρ name') = (name == name') := by
  rw [Bool.eq_iff_iff, beq_iff_eq, beq_iff_eq]
  exact ⟨hρ.injective name h name' h', congrArg ρ⟩

theorem eraseDups_map {columns : List String} (hρ : Renames ρ names) (h : ∀ name ∈ columns, name ∈ names) :
    (columns.map ρ).eraseDups = columns.eraseDups.map ρ := by
  match columns with
  | [] => rfl
  | column :: columns =>
    obtain ⟨hcolumn, hcolumns⟩ := List.forall_mem_cons.1 h
    have hfilter : (columns.map ρ).filter (fun name => !name == ρ column) =
        (columns.filter fun name => !name == column).map ρ := by
      rw [List.filter_map]
      refine congrArg _ (List.filter_congr fun name hname => ?_)
      exact congrArg _ (hρ.beq_eq (hcolumns name hname) hcolumn)
    rw [List.map_cons, List.eraseDups_cons, List.eraseDups_cons, List.map_cons, hfilter]
    rw [eraseDups_map hρ fun name hname => hcolumns name (List.mem_of_mem_filter hname)]
termination_by columns.length
decreasing_by exact Nat.lt_succ_of_le (List.length_filter_le _ _)

theorem lookup_map {columns : List String} (hρ : Renames ρ names) (h : ∀ name ∈ columns, name ∈ names)
    {name : String} (hname : name ∈ names) (values : List Bool) :
    Valuation.ofPairs ((columns.map ρ).zip values) (ρ name) = Valuation.ofPairs (columns.zip values) name := by
  induction columns generalizing values with
  | nil => rfl
  | cons column columns ih =>
    obtain ⟨hcolumn, hcolumns⟩ := List.forall_mem_cons.1 h
    cases values with
    | nil => rfl
    | cons value values =>
      have ih := ih hcolumns values
      simp only [Valuation.ofPairs, List.map_cons, List.zip_cons_cons, List.lookup_cons] at ih ⊢
      rw [hρ.beq_eq hname hcolumn]
      cases name == column with
      | true => rfl
      | false => exact ih

end Renames

namespace TruthTable
variable {f : Formula}

theorem vars_rename (hρ : Renames ρ f.names) : (f.rename ρ).vars = f.vars.map ρ := by
  rw [Formula.vars, Formula.vars, Formula.names_rename, hρ.eraseDups_map fun _ h => h]

theorem row_rename (hρ : Renames ρ f.names) (values : List Bool) :
    row (f.rename ρ) (f.vars.map ρ) values = row f f.vars values := by
  rw [row, row, Formula.eval_rename]
  refine congrArg _ (Formula.eval_congr fun name hname => ?_)
  exact hρ.lookup_map (fun _ h => Formula.mem_vars.1 h) hname values

end TruthTable

namespace Formula
variable {f : Formula}

/-- Simplifying a renamed formula, under any list of rules, gives the renamed simplified formula, after as many
passes. Its truth table has the renamed columns in the same order, and the same rows. -/
theorem rename_commutes (hf : f.WellFormed) (hρ : Renames ρ f.names) :
    (∀ rules, (f.rename ρ).simplify rules = (f.simplify rules).rename ρ ∧
      (f.rename ρ).passes rules = f.passes rules) ∧
    (TruthTable.ofFormula (f.rename ρ)).columns = (TruthTable.ofFormula f).columns.map ρ ∧
    (TruthTable.ofFormula (f.rename ρ)).rows = (TruthTable.ofFormula f).rows := by
  have hover : f.Over f.names := ⟨hf, fun _ h => h⟩
  have hvars := TruthTable.vars_rename hρ
  refine ⟨fun rules => ⟨simplify_rename hρ hover rules, ?_⟩, hvars, ?_⟩
  · rw [passes, passes, stages_rename hρ hover, List.length_map]
  · show (TruthTable.assignments (f.rename ρ).vars.length).map _ = (TruthTable.assignments f.vars.length).map _
    rw [hvars, List.length_map]
    exact congrArg (List.map · _) (funext (TruthTable.row_rename hρ))

/-- The two names, one of which begins with the other, are swapped. -/
theorem rename_commutes_of_swap :
    let ρ : String → String := fun name => if name == "a" then "ab" else "a"
    let f : Formula := .binary "->" .implies (.binary "&" .and (.var "a") (.var "ab")) (.not (.not (.var "a")))
    f.WellFormed ∧ Renames ρ f.names ∧
      f.simplify [.implication, .doubleNegation, .deMorgan] =
        .binary "+" .or (.binary "+" .or (.not (.var "a")) (.not (.var "ab"))) (.var "a") ∧
      (f.rename ρ).simplify [.implication, .doubleNegation, .deMorgan] =
        .binary "+" .or (.binary "+" .or (.not (.var "ab")) (.not (.var "a"))) (.var "ab") ∧
      (f.rename ρ).passes [.implication, .doubleNegation, .deMorgan] = 3 ∧
      (TruthTable.ofFormula (f.rename ρ)).columns = ["ab", "a"] ∧
      (TruthTable.ofFormula (f.rename ρ)).rows = (TruthTable.ofFormula f).rows := by
  intro ρ f
  have hf : f.WellFormed := by decide +kernel
  have hρ : Renames ρ f.names := ⟨by decide +kernel, by decide +kernel⟩
  have hsimplified : f.simplify [.implication, .doubleNegation, .deMorgan] =
      .binary "+" .or (.binary "+" .or (.not (.var "a")) (.not (.var "ab"))) (.var "a") := by decide +kernel
  have hpasses : f.passes [.implication, .doubleNegation, .deMorgan] = 3 := by decide +kernel
  obtain ⟨hrules, hcolumns, hrows⟩ := rename_commutes hf hρ
  obtain ⟨hsame, hcount⟩ := hrules [.implication, .doubleNegation, .deMorgan]
  refine ⟨hf, hρ, hsimplified, ?_, hcount.trans hpasses, hcolumns, hrows⟩
  rw [hsame, hsimplified]
  rfl

end Formula

end Sentential
