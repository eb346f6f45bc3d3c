import Mathlib.Algebra.BigOperators.Group.List.Basic
import Mathlib.Order.Interval.Set.Basic

/-!
# Saturating accumulation

A saturating accumulator adds a displacement and clamps the sum to `[lo, hi]`. A walk
of it that never hits a bound is plain addition (`walk_free`).
-/

namespace Saturating

variable {α : Type*} [LinearOrder α]

section Step

variable [Add α] {lo hi p d : α}

/-- Add `d` to `p` and clamp to `[lo, hi]`. -/
def step (lo hi p d : α) : α := min (max (p + d) lo) hi

theorem step_free (h : p + d ∈ Set.Icc lo hi) : step lo hi p d = p + d := by
  unfold step
  rw [max_eq_left h.1, min_eq_left h.2]

end Step

section Walk

variable [AddMonoid α] {lo hi p : α}

/-- The position after the displacements `ds`. -/
def walk (lo hi p : α) (ds : List α) : α := ds.foldl (step lo hi) p

/-- No step of the walk hits a bound. -/
def Free (lo hi : α) : α → List α → Prop
  | _, [] => True
  | p, d :: ds => p + d ∈ Set.Icc lo hi ∧ Free lo hi (p + d) ds

instance decidableFree (lo hi : α) : (p : α) → (ds : List α) → Decidable (Free lo hi p ds)
  | _, [] => isTrue trivial
  | p, d :: ds =>
    have : Decidable (Free lo hi (p + d) ds) := decidableFree lo hi (p + d) ds
    inferInstanceAs (Decidable (p + d ∈ Set.Icc lo hi ∧ Free lo hi (p + d) ds))

theorem walk_free {ds : List α} (h : Free lo hi p ds) : walk lo hi p ds = p + ds.sum := by
  induction ds generalizing p with
  | nil => exact (add_zero p).symm
  | cons d ds ih =>
    obtain ⟨hhead, htail⟩ := h
    calc walk lo hi p (d :: ds) = walk lo hi (p + d) ds := by
          rw [walk, List.foldl_cons, step_free hhead]
          rfl
      _ = p + d + ds.sum := ih htail
      _ = p + (d :: ds).sum := by rw [List.sum_cons, add_assoc]

end Walk

end Saturating
