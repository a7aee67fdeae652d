import Mathlib.Logic.Relation

/-!
# Acyclic relations

A relation is acyclic when no chain of its steps leads from an element back to it. Redirecting the steps
of one element keeps a relation acyclic when there was no way back from the new target.
-/

set_option autoImplicit false
set_option relaxedAutoImplicit false

namespace RallyApi.Graph

variable {α : Type} {before after : α → α → Prop} {source target : α}

/-- No chain of steps leads from an element back to it. -/
def Acyclic (relation : α → α → Prop) : Prop := ∀ a, ¬ Relation.TransGen relation a a

theorem Acyclic.mono (hacyclic : Acyclic before) (hstep : ∀ a b, after a b → before a b) :
    Acyclic after :=
  fun a hcycle ↦ hacyclic a (Relation.TransGen.mono hstep a a hcycle)

/-- Assumes: the only new step goes from the source to the target, and there was no way back. A chain
was there before, or it passes through the new step once. -/
theorem transGen_of_redirect
    (hstep : ∀ a b, after a b → before a b ∨ a = source ∧ b = target)
    (hback : ¬ Relation.ReflTransGen before target source) {a b : α}
    (hchain : Relation.TransGen after a b) :
    Relation.TransGen before a b ∨
      Relation.ReflTransGen before a source ∧ Relation.ReflTransGen before target b := by
  induction hchain with
  | single hlast =>
    rcases hstep _ _ hlast with hold | ⟨rfl, rfl⟩
    · exact .inl (.single hold)
    · exact .inr ⟨.refl, .refl⟩
  | tail _ hlast ih =>
    rcases hstep _ _ hlast with hold | ⟨rfl, rfl⟩
    · rcases ih with hfront | ⟨hsource, htarget⟩
      · exact .inl (hfront.tail hold)
      · exact .inr ⟨hsource, htarget.tail hold⟩
    · rcases ih with hfront | ⟨_, htarget⟩
      · exact .inr ⟨hfront.to_reflTransGen, .refl⟩
      · exact absurd htarget hback

/-- Assumes: the only new step goes from the source to the target, and there was no way back. -/
theorem Acyclic.redirect (hacyclic : Acyclic before)
    (hstep : ∀ a b, after a b → before a b ∨ a = source ∧ b = target)
    (hback : ¬ Relation.ReflTransGen before target source) : Acyclic after := by
  intro a hcycle
  rcases transGen_of_redirect hstep hback hcycle with hold | ⟨hsource, htarget⟩
  · exact hacyclic a hold
  · exact hback (htarget.trans hsource)

/-- There is no way from an element without a step. -/
theorem not_reflTransGen_of_final (hfinal : ∀ a, ¬ before target a) (hne : target ≠ source) :
    ¬ Relation.ReflTransGen before target source := by
  intro hpath
  rcases hpath.cases_head with heq | ⟨next, hnext, _⟩
  · exact hne heq
  · exact hfinal next hnext

/-- Nor to an element that no step leads to. -/
theorem not_reflTransGen_of_initial (hinitial : ∀ a, ¬ before a source) (hne : target ≠ source) :
    ¬ Relation.ReflTransGen before target source := by
  intro hpath
  rcases hpath.cases_tail with heq | ⟨last, _, hlast⟩
  · exact hne heq.symm
  · exact hinitial last hlast

end RallyApi.Graph
