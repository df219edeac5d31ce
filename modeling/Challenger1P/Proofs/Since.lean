import Mathlib.Data.List.Induction

/-!
# Since

Histories are lists, oldest first. `Since p q` says of one that at some point `p` happened and that
nothing but `q` has happened since, which is how what is true now goes back to what was done. A run
over a history with one thing more is a run over the rest and one step (`foldlM_append_singleton`).
-/

namespace Challenger1P

variable {α : Type} {p q : α → Prop}

/-- Something in the list has the first property, and all that comes after it has the second. -/
def Since (p q : α → Prop) (list : List α) : Prop :=
  ∃ before a after, list = before ++ a :: after ∧ p a ∧ ∀ b ∈ after, q b

theorem foldlM_append_singleton {β : Type} (step : β → α → Option β) (b : β) (list : List α)
    (a : α) : (list ++ [a]).foldlM step b = (list.foldlM step b).bind fun b => step b a := by
  rw [List.foldlM_append]
  cases list.foldlM step b with
  | none => rfl
  | some b => exact bind_pure (step b a)

theorem not_since_nil : ¬ Since p q [] := by
  rintro ⟨before, a, after, h, -⟩
  exact List.append_ne_nil_of_right_ne_nil before (List.cons_ne_nil a after) h.symm

theorem since_append_singleton {list : List α} {a : α} :
    Since p q (list ++ [a]) ↔ p a ∨ q a ∧ Since p q list := by
  constructor
  · rintro ⟨before, b, after, heq, hp, hq⟩
    rcases List.eq_nil_or_concat after with rfl | ⟨rest, last, rfl⟩
    · obtain ⟨-, hlast⟩ := List.append_inj' heq rfl
      cases hlast
      exact Or.inl hp
    · rw [List.concat_eq_append] at heq hq
      rw [← List.cons_append, ← List.append_assoc] at heq
      obtain ⟨rfl, hlast⟩ := List.append_inj' heq rfl
      cases hlast
      rw [List.forall_mem_append, List.forall_mem_singleton] at hq
      exact Or.inr ⟨hq.2, before, b, rest, rfl, hp, hq.1⟩
  · rintro (hp | ⟨hqa, before, b, after, rfl, hp, hq⟩)
    · exact ⟨list, a, [], rfl, hp, List.forall_mem_nil _⟩
    · refine ⟨before, b, after ++ [a], by simp, hp, ?_⟩
      rw [List.forall_mem_append, List.forall_mem_singleton]
      exact ⟨hq, hqa⟩

end Challenger1P
