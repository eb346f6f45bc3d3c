import Mathlib.Data.List.Basic

/-!
# Scanning a rectangle

A scan runs through `height` lines of `width` positions each, in row-major order, and
shows something at the positions of a window in the top left corner.

* `range_mul`: the positions of the scan, line by line.
* `filterMap_window`: what is shown, in order, is the window line by line.
-/

namespace Scan

variable {β : Type*}

theorem range_mul (height width : Nat) :
    List.range (height * width) =
      (List.range height).flatMap fun y => (List.range width).map fun x => width * y + x := by
  induction height with
  | zero => simp
  | succ height ih =>
    have hlines : (height + 1) * width = height * width + width := Nat.succ_mul height width
    rw [hlines, List.range_add, ih, List.range_succ, List.flatMap_append, List.flatMap_singleton,
      Nat.mul_comm width height]

/-- A list of numbers of which those below `n` show something and the others do not. -/
theorem filterMap_below {f : Nat → Option β} {g : Nat → β} {n m : Nat} (h : n ≤ m)
    (hin : ∀ x < n, f x = some (g x)) (hout : ∀ x, n ≤ x → x < m → f x = none) :
    (List.range m).filterMap f = (List.range n).map g := by
  obtain ⟨k, rfl⟩ := Nat.exists_eq_add_of_le h
  have hhead : (List.range n).filterMap f = (List.range n).map g := by
    rw [← List.filterMap_eq_map]
    exact List.filterMap_congr fun x hx => hin x (List.mem_range.mp hx)
  have htail : ((List.range k).map fun x => n + x).filterMap f = [] := by
    refine List.filterMap_eq_nil_iff.mpr fun x hx => ?_
    obtain ⟨j, hj, rfl⟩ := List.mem_map.mp hx
    have hlt := List.mem_range.mp hj
    exact hout (n + j) (Nat.le_add_right n j) (by omega)
  rw [List.range_add, List.filterMap_append, hhead, htail, List.append_nil]

theorem filterMap_window {f : Nat → Option β} {g : Nat → Nat → β} {height width rows columns : Nat}
    (hrows : rows ≤ height) (hcolumns : columns ≤ width)
    (hin : ∀ y < rows, ∀ x < columns, f (width * y + x) = some (g y x))
    (hout : ∀ y < height, ∀ x < width, ¬ (y < rows ∧ x < columns) → f (width * y + x) = none) :
    (List.range (height * width)).filterMap f =
      (List.range rows).flatMap fun y => (List.range columns).map (g y) := by
  have hline (y : Nat) (hy : y < rows) :
      ((List.range width).map fun x => width * y + x).filterMap f =
        (List.range columns).map (g y) := by
    rw [List.filterMap_map]
    refine filterMap_below hcolumns (hin y hy) fun x hx hlt => ?_
    exact hout y (Nat.lt_of_lt_of_le hy hrows) x hlt (by omega)
  have hblank (y : Nat) (hy : rows ≤ y) (hlt : y < height) :
      ((List.range width).map fun x => width * y + x).filterMap f = [] := by
    refine List.filterMap_eq_nil_iff.mpr fun p hp => ?_
    obtain ⟨x, hx, rfl⟩ := List.mem_map.mp hp
    exact hout y hlt x (List.mem_range.mp hx) (by omega)
  obtain ⟨k, rfl⟩ := Nat.exists_eq_add_of_le hrows
  rw [range_mul, List.filterMap_flatMap, List.range_add, List.flatMap_append]
  have hshown : (List.range rows).flatMap
      (fun y => ((List.range width).map fun x => width * y + x).filterMap f) =
        (List.range rows).flatMap fun y => (List.range columns).map (g y) :=
    List.flatMap_congr fun y hy => hline y (List.mem_range.mp hy)
  have hrest : ((List.range k).map fun y => rows + y).flatMap
      (fun y => ((List.range width).map fun x => width * y + x).filterMap f) = [] := by
    refine List.flatMap_eq_nil_iff.mpr fun y hy => ?_
    obtain ⟨j, hj, rfl⟩ := List.mem_map.mp hy
    have hlt := List.mem_range.mp hj
    exact hblank (rows + j) (Nat.le_add_right rows j) (by omega)
  rw [hshown, hrest, List.append_nil]

end Scan
