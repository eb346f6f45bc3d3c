import Mathlib.Data.BitVec
import Mathlib.Data.Fintype.Basic
import Mathlib.Data.Fintype.Card
import Mathlib.Data.Finset.Card

/-!
# Counting the entries of a finite table

`tally t P` is the number of cells of the table `t : ι → α` whose entry
satisfies `P`. Overwriting one cell changes a tally by the old and the new entry
of that cell only (`tally_update`); moving an entry onto another cell and leaving
`e` behind changes it by the entry moved onto and by `e` (`tally_relocate`).
-/

namespace Tally

/-- A table indexed by bit vectors is finite. -/
scoped instance fintypeBitVec {w : Nat} : Fintype (BitVec w) :=
  Fintype.ofEquiv (Fin (2 ^ w)) BitVec.equivFin.symm.toEquiv

variable {ι α : Type*} [Fintype ι]

/-- The number of cells of `t` whose entry satisfies `P`. -/
def tally (t : ι → α) (P : α → Prop) [DecidablePred P] : Nat :=
  (Finset.univ.filter fun i => P (t i)).card

variable (P : α → Prop) [DecidablePred P]

variable [DecidableEq ι]

/-- The cells other than `i`, and then `i`. -/
theorem tally_eq_erase_add (t : ι → α) (i : ι) :
    tally t P =
      ((Finset.univ.erase i).filter fun j => P (t j)).card + if P (t i) then 1 else 0 := by
  unfold tally
  rw [← Finset.insert_erase (Finset.mem_univ i), Finset.filter_insert]
  split
  · rw [Finset.card_insert_of_notMem (by simp), Finset.erase_insert (by simp)]
  · rw [Finset.erase_insert (by simp), Nat.add_zero]

theorem tally_update (t : ι → α) (i : ι) (a : α) :
    tally (Function.update t i a) P + (if P (t i) then 1 else 0) =
      tally t P + if P a then 1 else 0 := by
  have hother : (Finset.univ.erase i).filter (fun j => P (Function.update t i a j)) =
      (Finset.univ.erase i).filter fun j => P (t j) := by
    refine Finset.filter_congr fun j hj => ?_
    rw [Function.update_of_ne (Finset.ne_of_mem_erase hj)]
  rw [tally_eq_erase_add P _ i, tally_eq_erase_add P t i, hother, Function.update_self]
  omega

/-- Moving the entry of `s` onto `d` and leaving `e` on `s` loses the entry of
`d` and gains `e`. -/
theorem tally_relocate (t : ι → α) {s d : ι} (hne : s ≠ d) (e : α) :
    tally (Function.update (Function.update t d (t s)) s e) P + (if P (t d) then 1 else 0) =
      tally t P + if P e then 1 else 0 := by
  have hsource := tally_update P (Function.update t d (t s)) s e
  have htarget := tally_update P t d (t s)
  rw [Function.update_of_ne hne] at hsource
  omega

end Tally
