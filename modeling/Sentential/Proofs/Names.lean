import Sentential.Formula.Eval
import Sentential.Proofs.Respect

/-!
# Simplification only drops names

Whatever a rule makes of a formula, its names are some of those of the formula, in their order and none of them
more often than before. So are those of a simplified formula (`names_simplify_sublist`).
-/

namespace Sentential

namespace Formula
variable {f g : Formula}

theorem names_without_sublist {j : Nat} (h : f.without j = some g) : g.names.Sublist f.names := by
  fun_induction without f j generalizing g with
  | case1 glyph l r j hlt l' hl' ih => cases h; exact (ih hl').append_right _
  | case2 glyph l r j hlt hl' ih => cases h; exact List.sublist_append_right _ _
  | case3 glyph l r j hlt r' hr' ih => cases h; exact (ih hr').append_left _
  | case4 glyph l r j hlt hr' ih => cases h; exact List.sublist_append_left _ _
  | case5 f hf => cases h
  | case6 f j hf hj => cases h; exact .refl _

end Formula

namespace Rule

open Formula

variable {f g l r : Formula}

theorem names_sublist_of_absorb? {zero : Bool} (h : absorb? zero l r = some g) :
    g.names.Sublist (l.names ++ r.names) := by
  rcases absorb?_cases h with ⟨-, rfl⟩ | ⟨-, rfl⟩ | ⟨-, rfl⟩
  · exact List.nil_sublist _
  · exact List.sublist_append_right _ _
  · exact List.sublist_append_left _ _

theorem names_sublist_of_reduce? {rule : Rule} (h : rule.reduce? f = some g) : g.names.Sublist f.names := by
  unfold reduce? at h
  split at h
  case h_1 | h_2 => exact names_sublist_of_absorb? h
  case h_3 | h_4 =>
    split at h
    · cases h; exact List.sublist_append_left _ _
    · cases h
  case h_5 | h_6 =>
    split at h
    · cases h; exact List.nil_sublist _
    · cases h
  case h_7 | h_8 | h_9 | h_10 => cases h; exact .refl _
  case h_11 =>
    obtain ⟨j, -, hg⟩ := Option.bind_eq_some_iff.1 h
    exact names_without_sublist hg
  case h_12 => cases h

end Rule

namespace Formula

theorem respected_names : Respected fun f g => g.names.Sublist f.names where
  refl _ := .refl _
  trans hfg hgh := hgh.trans hfg
  not ha := ha
  binary hl hr := hl.append hr
  reduce := Rule.names_sublist_of_reduce?

theorem names_pass_sublist (rules : List Rule) (f : Formula) : (f.pass rules).names.Sublist f.names :=
  respected_names.pass rules f

theorem names_simplify_sublist (rules : List Rule) (f : Formula) : (f.simplify rules).names.Sublist f.names :=
  respected_names.simplify rules f

end Formula

end Sentential
