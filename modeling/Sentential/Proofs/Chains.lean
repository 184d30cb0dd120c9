import Sentential.Proofs.NormalForm

/-!
# What simplification makes of a chain

A chain of disjunctions whose disjuncts are simplified comes to what the list of its disjuncts tells, however
they are nested: it is true if one of them is the constant 1 or denies another, and otherwise each disjunct but
the constant 0 stays at its first place (`upshot`). The upshot of a chain is found from those of its sides
(`upshot_append_congr`), and no rule changes it once constants have been absorbed (`Tidy.reduce?`). That the
standard rules absorb them first matters: `0` and its negation deny each other, but the `0` has to go alone.
-/

namespace Sentential

section
variable {α : Type} [BEq α] [LawfulBEq α] {as as' bs bs' : List α}

theorem eraseDups_filter (p : α → Bool) (xs : List α) : (xs.filter p).eraseDups = xs.eraseDups.filter p := by
  match xs with
  | [] => rfl
  | x :: xs =>
    have ih := eraseDups_filter p (xs.filter fun y => !y == x)
    rw [List.eraseDups_cons]
    by_cases hx : p x = true
    · rw [List.filter_cons_of_pos hx, List.filter_cons_of_pos hx, List.eraseDups_cons, ← ih]
      rw [List.filter_filter, List.filter_filter]
      simp only [Bool.and_comm]
    · have hfilter : (xs.filter fun y => !y == x).filter p = xs.filter p := by
        rw [List.filter_filter]
        refine List.filter_congr fun y _ => ?_
        by_cases hy : y = x
        · rw [hy, Bool.eq_false_iff.2 hx, Bool.false_and]
        · rw [beq_eq_false_iff_ne.2 hy, Bool.not_false, Bool.and_true]
      rw [List.filter_cons_of_neg hx, List.filter_cons_of_neg hx, ← ih, hfilter]
termination_by xs.length
decreasing_by exact Nat.lt_succ_of_le (List.length_filter_le _ _)

theorem mem_iff_of_eraseDups_eq (h : as.eraseDups = as'.eraseDups) (a : α) : a ∈ as ↔ a ∈ as' := by
  rw [← List.mem_eraseDups, h, List.mem_eraseDups]

theorem eraseDups_append_congr (ha : as.eraseDups = as'.eraseDups) (hb : bs.eraseDups = bs'.eraseDups) :
    (as ++ bs).eraseDups = (as' ++ bs').eraseDups := by
  have helem : ∀ b, List.elem b as = List.elem b as' := fun b => by
    rw [Bool.eq_iff_iff, List.elem_iff, List.elem_iff]
    exact mem_iff_of_eraseDups_eq ha b
  rw [List.eraseDups_append, List.eraseDups_append, ha]
  simp only [List.removeAll, eraseDups_filter, hb, helem]

theorem eraseDups_append_of_subset (h : ∀ b ∈ bs, b ∈ as) : (as ++ bs).eraseDups = as.eraseDups := by
  have hnone : bs.removeAll as = [] := by
    rw [List.removeAll, List.filter_eq_nil_iff]
    intro b hb
    simp [h b hb]
  rw [List.eraseDups_append, hnone, List.eraseDups_nil, List.append_nil]

theorem eraseDups_of_nodup (h : as.Nodup) : as.eraseDups = as := by
  induction as with
  | nil => rfl
  | cons a as ih =>
    obtain ⟨ha, has⟩ := List.nodup_cons.1 h
    have hfilter : (as.filter fun b => !b == a) = as := by
      refine List.filter_eq_self.2 fun b hb => ?_
      have hne : b ≠ a := fun he => ha (he ▸ hb)
      rw [beq_eq_false_iff_ne.2 hne, Bool.not_false]
    rw [List.eraseDups_cons, hfilter, ih has]

end

namespace Formula

/-- The disjuncts that can make a chain true. -/
def nonzero (fs : List Formula) : List Formula := fs.filter (· ≠ .const false)

/-- One of the disjuncts is true whatever the valuation. -/
def Certain (fs : List Formula) : Prop := .const true ∈ fs ∨ ∃ a ∈ fs, .not a ∈ fs

instance (fs : List Formula) : Decidable (Certain fs) := inferInstanceAs (Decidable (_ ∨ _))

/-- What a chain of the disjuncts comes to, unless it is true anyway. -/
def upshot (fs : List Formula) : Option (List Formula) :=
  if Certain (nonzero fs) then none else some (nonzero fs).eraseDups

variable {f g l r : Formula} {fs fs' gs gs' : List Formula} {glyph : String}

/-! ## The upshot of a list of disjuncts -/

theorem mem_nonzero : f ∈ nonzero fs ↔ f ∈ fs ∧ f ≠ .const false := by
  rw [nonzero, List.mem_filter, decide_eq_true_iff]

theorem nonzero_append (fs gs : List Formula) : nonzero (fs ++ gs) = nonzero fs ++ nonzero gs :=
  List.filter_append ..

theorem Certain.mono (h : Certain fs) (hsub : ∀ f ∈ fs, f ∈ gs) : Certain gs := by
  rcases h with h | ⟨a, ha, hna⟩
  · exact .inl (hsub _ h)
  · exact .inr ⟨a, hsub a ha, hsub _ hna⟩

theorem upshot_eq_none_iff : upshot fs = none ↔ Certain (nonzero fs) := by
  rw [upshot]
  split <;> simp_all

theorem upshot_eq_some_iff : upshot fs = some gs ↔ ¬Certain (nonzero fs) ∧ (nonzero fs).eraseDups = gs := by
  rw [upshot]
  split <;> simp_all

theorem upshot_eq_none_of_subset (h : upshot fs = none) (hsub : ∀ f ∈ fs, f ∈ gs) : upshot gs = none := by
  refine upshot_eq_none_iff.2 ((upshot_eq_none_iff.1 h).mono fun f hf => ?_)
  obtain ⟨hmem, hne⟩ := mem_nonzero.1 hf
  exact mem_nonzero.2 ⟨hsub f hmem, hne⟩

theorem upshot_congr (h : (nonzero fs).eraseDups = (nonzero gs).eraseDups) : upshot fs = upshot gs := by
  have hmem := mem_iff_of_eraseDups_eq h
  have hcertain : Certain (nonzero fs) ↔ Certain (nonzero gs) :=
    ⟨fun hc => hc.mono fun f => (hmem f).1, fun hc => hc.mono fun f => (hmem f).2⟩
  rw [upshot, upshot, h]
  simp only [hcertain]

/-- The upshot of two lists together depends on their upshots only. -/
theorem upshot_append_congr (hf : upshot fs = upshot fs') (hg : upshot gs = upshot gs') :
    upshot (fs ++ gs) = upshot (fs' ++ gs') := by
  have hleft {fs gs : List Formula} (h : upshot fs = none) : upshot (fs ++ gs) = none :=
    upshot_eq_none_of_subset h fun _ => List.mem_append_left _
  have hright {fs gs : List Formula} (h : upshot gs = none) : upshot (fs ++ gs) = none :=
    upshot_eq_none_of_subset h fun _ => List.mem_append_right _
  cases hcf : upshot fs with
  | none => rw [hleft hcf, hleft (hf.symm.trans hcf)]
  | some us =>
    cases hcg : upshot gs with
    | none => rw [hright hcg, hright (hg.symm.trans hcg)]
    | some vs =>
      have hus := (upshot_eq_some_iff.1 hcf).2.trans (upshot_eq_some_iff.1 (hf.symm.trans hcf)).2.symm
      have hvs := (upshot_eq_some_iff.1 hcg).2.trans (upshot_eq_some_iff.1 (hg.symm.trans hcg)).2.symm
      refine upshot_congr ?_
      rw [nonzero_append, nonzero_append]
      exact eraseDups_append_congr hus hvs

/-- Disjuncts that stand before already add nothing. -/
theorem upshot_append_of_subset (h : ∀ g ∈ gs, g ∈ fs) : upshot (fs ++ gs) = upshot fs := by
  refine upshot_congr ?_
  rw [nonzero_append]
  refine eraseDups_append_of_subset fun g hg => ?_
  obtain ⟨hmem, hne⟩ := mem_nonzero.1 hg
  exact mem_nonzero.2 ⟨h g hmem, hne⟩

/-- Nor does the constant 0, on either side. -/
theorem upshot_append_zero (fs : List Formula) : upshot (fs ++ [.const false]) = upshot fs := by
  refine upshot_congr ?_
  rw [nonzero_append]
  exact congrArg _ (List.append_nil _)

theorem upshot_zero_append (fs : List Formula) : upshot ([.const false] ++ fs) = upshot fs := upshot_congr rfl

theorem upshot_eraseIdx_repeat {earlier later : List Formula} (h : f ∈ earlier) :
    upshot ((earlier ++ f :: later).eraseIdx earlier.length) = upshot (earlier ++ f :: later) := by
  rw [List.eraseIdx_append_of_length_le (Nat.le_refl _), Nat.sub_self, List.eraseIdx_cons_zero, List.append_cons]
  exact (upshot_append_congr (upshot_append_of_subset (List.forall_mem_singleton.2 h)) rfl).symm

theorem upshot_of_one_mem (h : Formula.const true ∈ fs) : upshot fs = none :=
  upshot_eq_none_iff.2 (.inl (mem_nonzero.2 ⟨h, by decide⟩))

theorem upshot_one : upshot (Formula.const true).disjuncts = none := upshot_of_one_mem (List.mem_singleton_self _)

theorem upshot_zero : upshot (Formula.const false).disjuncts = some [] := by decide

/-! ## Rules at the root of a chain -/

/-- A chain whose disjuncts are simplified and in which no constant stands beside another disjunct. -/
structure Tidy (f : Formula) : Prop where
  wellFormed : f.WellFormed
  irreducible : ∀ t ∈ f.disjuncts, Irreducible Rule.all t
  absorbed : f.IsConst ∨ ∀ t ∈ f.disjuncts, ¬t.IsConst

theorem Irreducible.root {rules : List Rule} (h : Irreducible rules f) : ∀ rule ∈ rules, rule.reduce? f = none := by
  refine h f ?_
  cases f <;> exact List.mem_cons_self

theorem IsConst.disjuncts_eq (h : f.IsConst) : f.disjuncts = [f] := by
  cases f with
  | const value => rfl
  | _ => exact h.elim

namespace Tidy

theorem const (value : Bool) : Tidy (.const value) where
  wellFormed := trivial
  irreducible := List.forall_mem_singleton.2 (pass_eq_self_iff.1 rfl)
  absorbed := .inl trivial

theorem of_leaf (hf : f.WellFormed) (hirr : Irreducible Rule.all f) (hleaf : f.disjuncts = [f]) : f.Tidy where
  wellFormed := hf
  irreducible := by rw [hleaf]; exact List.forall_mem_singleton.2 hirr
  absorbed := by
    rw [hleaf]
    exact (em f.IsConst).imp_right List.forall_mem_singleton.2

/-- What is left when disjuncts are dropped from a chain that is no constant is neither. -/
theorem of_subset (h : f.Tidy) (hf : ¬f.IsConst) (hg : g.WellFormed) (hsub : ∀ t ∈ g.disjuncts, t ∈ f.disjuncts) :
    g.Tidy ∧ ¬g.IsConst := by
  have hfree : ∀ t ∈ g.disjuncts, ¬t.IsConst := fun t ht => h.absorbed.resolve_left hf t (hsub t ht)
  refine ⟨⟨hg, fun t ht => h.irreducible t (hsub t ht), .inr hfree⟩, fun hconst => ?_⟩
  refine hfree g ?_ hconst
  rw [hconst.disjuncts_eq]
  exact List.mem_singleton_self g

/-- Where constants have been absorbed, no rule changes the upshot. -/
theorem reduce? {rule : Rule} (hf : f.Tidy) (h : rule.reduce? f = some g) :
    g.Tidy ∧ upshot g.disjuncts = upshot f.disjuncts := by
  rcases f.disjunction_or_leaf with ⟨glyph, l, r, rfl⟩ | hleaf
  · obtain ⟨hl, hlconst⟩ := hf.of_subset id hf.wellFormed.2.1 fun _ => List.mem_append_left _
    obtain ⟨hr, hrconst⟩ := hf.of_subset id hf.wellFormed.2.2 fun _ => List.mem_append_right _
    cases rule with
    | identity =>
      have hnone : Rule.absorb? true l r = none := (absorb?_eq_none_iff true).2 ⟨hlconst, hrconst⟩
      cases hnone.symm.trans h
    | idempotence =>
      obtain ⟨hsame, hg⟩ := Option.ite_none_right_eq_some.1 h
      cases hg
      obtain rfl := (hl.wellFormed.same_iff hr.wellFormed).1 hsame
      exact ⟨hl, (upshot_append_of_subset fun _ h => h).symm⟩
    | negatedAlternative =>
      obtain ⟨hclash, hg⟩ := Option.ite_none_right_eq_some.1 h
      cases hg
      obtain ⟨a, ha, hna⟩ := hf.wellFormed.clash_iff.1 hclash
      have hne : a ≠ .const false := by
        rintro rfl
        exact hf.absorbed.resolve_left id _ ha trivial
      have hcertain : Certain (nonzero (Formula.binary glyph .or l r).disjuncts) :=
        .inr ⟨a, mem_nonzero.2 ⟨ha, hne⟩, mem_nonzero.2 ⟨hna, nofun⟩⟩
      exact ⟨.const true, upshot_one.trans (upshot_eq_none_iff.2 hcertain).symm⟩
    | duplicateAlternative =>
      obtain ⟨j, hj, hg⟩ := Option.bind_eq_some_iff.1 h
      obtain ⟨earlier, a, later, hsplit, rfl, hmem⟩ := hf.wellFormed.exists_repeat hj
      have hlt : earlier.length < (Formula.binary glyph .or l r).disjuncts.length := by rw [hsplit]; simp
      have hdisjuncts := disjuncts_without hlt hg
      refine ⟨(hf.of_subset id (hf.wellFormed.without hg) fun t ht => ?_).1, ?_⟩
      · exact List.mem_of_mem_eraseIdx (hdisjuncts ▸ ht)
      · rw [hdisjuncts, hsplit, upshot_eraseIdx_repeat hmem]
    | _ => cases h
  · -- a chain of one disjunct is that disjunct, and no rule applies to it
    have hroot : f ∈ f.disjuncts := by rw [hleaf]; exact List.mem_singleton_self f
    have hmem : rule ∈ Rule.all := by cases rule <;> decide
    cases ((hf.irreducible f hroot).root rule hmem).symm.trans h

theorem applyAll (rules : List Rule) (hf : f.Tidy) :
    (applyAll rules f).Tidy ∧ upshot (applyAll rules f).disjuncts = upshot f.disjuncts := by
  induction rules generalizing f with
  | nil => exact ⟨hf, rfl⟩
  | cons rule rules ih =>
    rw [Formula.applyAll]
    cases h : rule.reduce? f with
    | none => exact ih hf
    | some g =>
      obtain ⟨hg, hupshot⟩ := hf.reduce? h
      obtain ⟨htidy, hrest⟩ := ih hg
      exact ⟨htidy, hrest.trans hupshot⟩

/-- When constants are absorbed at a disjunction of such chains, one of them is left. -/
theorem absorb (hl : l.Tidy) (hr : r.Tidy) (h : Rule.absorb? true l r = some g) :
    g.Tidy ∧ upshot g.disjuncts = upshot (l.disjuncts ++ r.disjuncts) := by
  rcases Rule.absorb?_cases h with ⟨hone, rfl⟩ | ⟨rfl, rfl⟩ | ⟨rfl, rfl⟩
  · have hmem : Formula.const true ∈ l.disjuncts ++ r.disjuncts := by
      rcases hone with rfl | rfl
      · exact List.mem_append_left _ (List.mem_singleton_self _)
      · exact List.mem_append_right _ (List.mem_singleton_self _)
    exact ⟨.const true, upshot_one.trans (upshot_of_one_mem hmem).symm⟩
  · exact ⟨hr, (upshot_zero_append _).symm⟩
  · exact ⟨hl, (upshot_append_zero _).symm⟩

/-- The rule for constants comes first, so that the others find a chain without them. -/
theorem applyAll_or (hglyph : Connective.ofGlyph? glyph = some .or) (hl : l.Tidy) (hr : r.Tidy) :
    (Formula.applyAll Rule.all (.binary glyph .or l r)).Tidy ∧
      upshot (Formula.applyAll Rule.all (.binary glyph .or l r)).disjuncts =
        upshot (l.disjuncts ++ r.disjuncts) := by
  rw [Rule.all, Formula.applyAll]
  cases h : Rule.absorb? true l r with
  | some g =>
    obtain ⟨hg, hupshot⟩ := absorb hl hr h
    obtain ⟨htidy, hrest⟩ := hg.applyAll Rule.all.tail
    rw [Rule.reduce?, h]
    exact ⟨htidy, hrest.trans hupshot⟩
  | none =>
    obtain ⟨hlconst, hrconst⟩ := (absorb?_eq_none_iff true).1 h
    have hf : (Formula.binary glyph .or l r).Tidy :=
      ⟨⟨hglyph, hl.wellFormed, hr.wellFormed⟩, List.forall_mem_append.2 ⟨hl.irreducible, hr.irreducible⟩,
        .inr (List.forall_mem_append.2 ⟨hl.absorbed.resolve_left hlconst, hr.absorbed.resolve_left hrconst⟩)⟩
    rw [Rule.reduce?, h]
    exact hf.applyAll Rule.all.tail

end Tidy

/-! ## Passes over a chain -/

theorem tidy_pass (hf : f.WellFormed) (hirr : ∀ t ∈ f.disjuncts, Irreducible Rule.all t) :
    (f.pass Rule.all).Tidy ∧ upshot (f.pass Rule.all).disjuncts = upshot f.disjuncts := by
  fun_induction disjuncts f with
  | case1 glyph l r ihl ihr =>
    obtain ⟨hglyph, hl, hr⟩ := hf
    obtain ⟨hirrl, hirrr⟩ := List.forall_mem_append.1 hirr
    obtain ⟨htidyl, hupshotl⟩ := ihl hl hirrl
    obtain ⟨htidyr, hupshotr⟩ := ihr hr hirrr
    obtain ⟨htidy, hupshot⟩ := Tidy.applyAll_or hglyph htidyl htidyr
    exact ⟨htidy, hupshot.trans (upshot_append_congr hupshotl hupshotr)⟩
  | case2 f hleaf =>
    have hirr := hirr f (List.mem_singleton_self f)
    rw [pass_eq_self_iff.2 hirr, disjuncts_leaf hleaf]
    exact ⟨.of_leaf hf hirr (disjuncts_leaf hleaf), rfl⟩

theorem tidy_simplify (hf : f.WellFormed) (hirr : ∀ t ∈ f.disjuncts, Irreducible Rule.all t) :
    (f.simplify Rule.all).Tidy ∧ upshot (f.simplify Rule.all).disjuncts = upshot f.disjuncts := by
  fun_induction simplify Rule.all f with
  | case1 f hlit => exact tidy_pass hf hirr
  | case2 f hlit ih =>
    obtain ⟨htidy, hupshot⟩ := tidy_pass hf hirr
    obtain ⟨htidy', hupshot'⟩ := ih htidy.wellFormed htidy.irreducible
    exact ⟨htidy', hupshot'.trans hupshot⟩

theorem Normal.pairwise_disjuncts (h : f.Normal) : f.disjuncts.Pairwise Apart := by
  rcases f.disjunction_or_leaf with ⟨glyph, l, r, rfl⟩ | hleaf
  · exact (normal_binary.1 h).1.2.2
  · rw [hleaf]
    exact List.pairwise_singleton _ _

/-- A simplified chain shows its upshot. -/
theorem Tidy.upshot_cases (hf : f.Tidy) (hn : f.Normal) :
    (f = .const true ∧ upshot f.disjuncts = none) ∨ (f = .const false ∧ upshot f.disjuncts = some []) ∨
      upshot f.disjuncts = some f.disjuncts := by
  rcases hf.absorbed with hconst | hfree
  · cases f with
    | const value =>
      cases value with
      | true => exact .inl ⟨rfl, upshot_one⟩
      | false => exact .inr (.inl ⟨rfl, upshot_zero⟩)
    | _ => exact hconst.elim
  · obtain ⟨hnodup, hneg⟩ := pairwise_apart_iff.1 hn.pairwise_disjuncts
    have hnonzero : nonzero f.disjuncts = f.disjuncts := by
      refine List.filter_eq_self.2 fun t ht => decide_eq_true ?_
      rintro rfl
      exact hfree _ ht trivial
    refine .inr (.inr (upshot_eq_some_iff.2 ?_))
    rw [hnonzero]
    refine ⟨?_, eraseDups_of_nodup hnodup⟩
    rintro (hone | ⟨a, ha, hna⟩)
    · exact hfree _ hone trivial
    · exact hneg a ha hna

/-- A chain over simplified disjuncts, however it is nested, simplifies to the constant 1 if one of the disjuncts
that are not 0 is that constant, or the negation of another one. Otherwise it simplifies to the constant 0 if there
is no such disjunct, and else to a chain of these, in their order and each at its first place only. -/
theorem simplify_chain (hf : f.WellFormed) (hleaves : ∀ t ∈ f.disjuncts, t.simplify Rule.all = t) :
    let fs := nonzero f.disjuncts
    (Certain fs → f.simplify Rule.all = .const true) ∧
      (¬Certain fs → fs = [] → f.simplify Rule.all = .const false) ∧
      (¬Certain fs → fs ≠ [] → (f.simplify Rule.all).disjuncts = fs.eraseDups) := by
  intro fs
  have hirr : ∀ t ∈ f.disjuncts, Irreducible Rule.all t := fun t ht => by
    have hpass := pass_simplify Rule.all (hf.of_mem_disjuncts ht)
    rw [hleaves t ht] at hpass
    exact pass_eq_self_iff.1 hpass
  obtain ⟨htidy, hupshot⟩ := tidy_simplify hf hirr
  have hcases := htidy.upshot_cases hf.normal_simplify
  rw [hupshot] at hcases
  refine ⟨fun hcertain => ?_, fun hnot hnil => ?_, fun hnot hne => ?_⟩
  · rw [upshot_eq_none_iff.2 hcertain] at hcases
    rcases hcases with ⟨hone, -⟩ | ⟨-, hnone⟩ | hnone
    · exact hone
    · cases hnone
    · cases hnone
  · have hsome : upshot f.disjuncts = some [] := upshot_eq_some_iff.2 ⟨hnot, congrArg List.eraseDups hnil⟩
    rw [hsome] at hcases
    rcases hcases with ⟨-, hnone⟩ | ⟨hzero, -⟩ | hempty
    · cases hnone
    · exact hzero
    · exact absurd (Option.some.inj hempty).symm (disjuncts_ne_nil _)
  · have hsome : upshot f.disjuncts = some fs.eraseDups := upshot_eq_some_iff.2 ⟨hnot, rfl⟩
    rw [hsome] at hcases
    rcases hcases with ⟨-, hnone⟩ | ⟨-, hempty⟩ | hdisjuncts
    · cases hnone
    · obtain ⟨t, ht⟩ := List.exists_mem_of_ne_nil fs hne
      have hmem := List.mem_eraseDups.2 ht
      rw [Option.some.inj hempty] at hmem
      exact absurd hmem List.not_mem_nil
    · exact (Option.some.inj hdisjuncts).symm

/-- Repeated disjuncts, a 0 and its negation, far apart and under different glyphs; and the same chain with the
negation of a disjunct behind it. -/
theorem simplify_chain_of_scattered :
    let differ : Formula := .not (.binary "<->" .iff (.var "x") (.var "y"))
    let f : Formula := .binary "|" .or (.binary "+" .or (.var "b") (.const false))
      (.binary "||" .or differ (.binary "+" .or (.not (.const false)) (.binary "|" .or (.var "b") differ)))
    let g : Formula := .binary "+" .or f (.not (.var "b"))
    (f.WellFormed ∧ (∀ t ∈ f.disjuncts, t.simplify Rule.all = t) ∧
      (f.simplify Rule.all).disjuncts = [.var "b", differ, .not (.const false)]) ∧
    g.WellFormed ∧ (∀ t ∈ g.disjuncts, t.simplify Rule.all = t) ∧ g.simplify Rule.all = .const true := by
  intro differ f g
  have hf : f.WellFormed := by decide +kernel
  have hg : g.WellFormed := by decide +kernel
  have hleaves : ∀ t ∈ f.disjuncts, t.simplify Rule.all = t := by decide +kernel
  have hleaves' : ∀ t ∈ g.disjuncts, t.simplify Rule.all = t := by decide +kernel
  have hdisjuncts := (simplify_chain hf hleaves).2.2 (by decide +kernel) (by decide +kernel)
  have hone := (simplify_chain hg hleaves').1 (by decide +kernel)
  exact ⟨⟨hf, hleaves, hdisjuncts.trans (by decide +kernel)⟩, hg, hleaves', hone⟩

end Formula

end Sentential
