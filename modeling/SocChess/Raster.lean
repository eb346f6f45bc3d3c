import SocChess.Lib.Cyclic
import SocChess.CursorReset

/-!
# The raster is complete, exact and self-stabilising

The counters of `vga_controller` wrap by tests for equality, so a counter above its
limit runs on to 1023 and wraps by overflow.

* `tick_hc`, `tick_vc`, `tick_hs_iff`, `tick_vs_iff`: one clock without reset, in numbers.
* `fuel_tick`: from any contents the counters get into range, at the latest after
  399424 clocks.
* `raster_cycles`: in range the 420000 positions are visited in row-major order.
* `cursor_kept`, `cursor_framed`: the cursor changes at the frame edges only.
* `raster_complete`: the statement about runs.
-/

namespace SocChess

open Cyclic (Cycles settles)

/-! ## One clock in numbers -/

/-- A clock without reset. -/
def VgaController.tick (v : VgaController) : VgaController := v.clock false

/-- The run of the raster over clocks with the given levels of `reset`. -/
abbrev VgaController.run : VgaController → List Bool → VgaController :=
  Clocked.run VgaController.clock

section Tick

variable (v : VgaController)

theorem tick_hc : v.tick.hc.toNat = if v.hc.toNat = 799 then 0 else (v.hc.toNat + 1) % 1024 := by
  have hlast : v.hc = hpixels ↔ v.hc.toNat = 799 := BitVec.toNat_eq
  show (if v.hc = hpixels then 0#10 else v.hc + 1#10).toNat = _
  simp only [hlast]
  split
  · rfl
  · rw [BitVec.toNat_add]
    rfl

theorem tick_vc : v.tick.vc.toNat =
    if v.hc.toNat = 799 then (if v.vc.toNat = 524 then 0 else (v.vc.toNat + 1) % 1024)
    else v.vc.toNat := by
  have hlast : v.hc = hpixels ↔ v.hc.toNat = 799 := BitVec.toNat_eq
  have hbottom : v.vc = vlines ↔ v.vc.toNat = 524 := BitVec.toNat_eq
  show (if v.hc = hpixels then (if v.vc = vlines then 0#10 else v.vc + 1#10) else v.vc).toNat = _
  simp only [hlast, hbottom]
  split
  · split
    · rfl
    · rw [BitVec.toNat_add]
      rfl
  · rfl

/-- The horizontal sync is low after the columns 655 to 750. -/
theorem tick_hs_iff : v.tick.hs = false ↔ 655 ≤ v.hc.toNat ∧ v.hc.toNat ≤ 750 := by
  have hlt := v.hc.isLt
  have hnext : (v.hc + 1#10).toNat = (v.hc.toNat + 1) % 1024 := BitVec.toNat_add ..
  show (if 0b1010010000#10 ≤ v.hc + 1#10 ∧ v.hc + 1#10 < 0b1011110000#10 then false
    else true) = false ↔ _
  simp only [ite_eq_left_iff, Bool.true_eq_false, imp_false, not_not]
  rw [BitVec.le_def, BitVec.lt_def, hnext]
  simp only [BitVec.toNat_ofNat]
  omega

/-- The vertical sync is low after the clocks of the lines 489 and 490. -/
theorem tick_vs_iff : v.tick.vs = false ↔ v.vc.toNat = 489 ∨ v.vc.toNat = 490 := by
  have hlt := v.vc.isLt
  have hnext : (v.vc + 1#10).toNat = (v.vc.toNat + 1) % 1024 := BitVec.toNat_add ..
  show (if v.vc + 1#10 = 0b0111101010#10 ∨ v.vc + 1#10 = 0b0111101011#10 then false
    else true) = false ↔ _
  simp only [ite_eq_left_iff, Bool.true_eq_false, imp_false, not_not]
  rw [BitVec.toNat_eq, BitVec.toNat_eq, hnext]
  simp only [BitVec.toNat_ofNat]
  omega

theorem activeNblank_iff : v.activeNblank = true ↔ v.hc.toNat < 640 ∧ v.vc.toNat < 480 := by
  unfold VgaController.activeNblank
  simp only [ite_eq_right_iff, Bool.false_eq_true, imp_false]
  rw [BitVec.le_def, BitVec.le_def]
  simp only [BitVec.toNat_ofNat]
  omega

end Tick

/-! ## Into range -/

/-- Both counters are on the raster. -/
structure VgaController.InRange (v : VgaController) : Prop where
  column : v.hc.toNat ≤ 799
  line : v.vc.toNat ≤ 524

/-- The number of clocks until both counters are in range. A column above its limit
first runs into the overflow; a line above its limit does so one line at a time. -/
def VgaController.fuel (v : VgaController) : Nat :=
  if v.hc.toNat ≤ 799 then
    if v.vc.toNat ≤ 524 then 0 else (800 - v.hc.toNat) + 800 * (1023 - v.vc.toNat)
  else
    if v.vc.toNat ≤ 524 then 1024 - v.hc.toNat
    else (1024 - v.hc.toNat) + 800 * (1024 - v.vc.toNat)

theorem fuel_le (v : VgaController) : v.fuel ≤ 399424 := by
  unfold VgaController.fuel
  split <;> split <;> omega

theorem fuel_eq_zero_iff (v : VgaController) : v.fuel = 0 ↔ v.InRange := by
  have hcolumn := v.hc.isLt
  constructor
  · intro hfuel
    unfold VgaController.fuel at hfuel
    constructor
    · split at hfuel
      · assumption
      · split at hfuel <;> omega
    · split at hfuel
      · split at hfuel <;> omega
      · split at hfuel <;> omega
  · rintro ⟨hcol, hline⟩
    rw [VgaController.fuel, if_pos hcol, if_pos hline]

theorem fuel_tick (v : VgaController) : v.tick.fuel ≤ v.fuel - 1 := by
  have hcolumn := v.hc.isLt
  have hline := v.vc.isLt
  unfold VgaController.fuel
  rw [tick_hc, tick_vc]
  -- The line changes only at column 799, and wraps to 0 only from 524 or 1023.
  by_cases hlast : v.hc.toNat = 799
  · by_cases hbottom : v.vc.toNat = 524
    · simp [hlast, hbottom]
    · simp only [hlast, hbottom, if_true, if_false, Nat.le_refl, Nat.zero_le]
      split <;> split <;> omega
  · simp only [hlast, if_false]
    split <;> split <;> split <;> omega

/-- A reset puts the counters into range. -/
theorem VgaController.InRange.clock {v : VgaController} (h : v.InRange) (reset : Bool) :
    (v.clock reset).InRange := by
  cases reset with
  | true => exact ⟨Nat.zero_le _, Nat.zero_le _⟩
  | false =>
    rw [← fuel_eq_zero_iff] at h ⊢
    have hfall := fuel_tick v
    rw [h] at hfall
    exact Nat.le_zero.mp hfall

theorem VgaController.InRange.run {v : VgaController} (h : v.InRange) (resets : List Bool) :
    (v.run resets).InRange := Clocked.run_invariant (fun _ reset h => h.clock reset) h resets

/-! ## Round the raster -/

/-- The number of clocks since the top-left corner, in row-major order. -/
def VgaController.position (v : VgaController) : Nat := 800 * v.vc.toNat + v.hc.toNat

theorem position_eq_iff {v : VgaController} (h : v.InRange) {x y : Nat} (hx : x < 800) :
    v.position = 800 * y + x ↔ v.hc.toNat = x ∧ v.vc.toNat = y := by
  obtain ⟨hcol, -⟩ := h
  unfold VgaController.position
  omega

/-- In range the raster steps through its 420000 positions in row-major order. -/
theorem raster_cycles :
    Cycles VgaController.tick VgaController.InRange VgaController.position 420000 where
  closed v h := h.clock false
  bounded v h := by
    obtain ⟨hcol, hline⟩ := h
    unfold VgaController.position
    omega
  next v h := by
    obtain ⟨hcol, hline⟩ := h
    unfold VgaController.position
    rw [tick_hc, tick_vc]
    split
    · split <;> omega
    · omega

theorem origin_inRange : VgaController.origin.InRange := ⟨Nat.zero_le _, Nat.zero_le _⟩

theorem origin_position (n : Nat) :
    (VgaController.tick^[n] .origin).position = n % 420000 := by
  rw [raster_cycles.pos_iterate origin_inRange]
  exact congrArg (· % 420000) (Nat.zero_add n)

/-- What happened before the latest reset does not matter. -/
theorem run_reset_free (power : VgaController) (before : List Bool) (n : Nat) :
    power.run (before ++ true :: List.replicate n false) = VgaController.tick^[n] .origin := by
  rw [VgaController.run, Clocked.run_append, Clocked.run_cons, clock_reset, Cyclic.run_replicate]
  rfl

/-- The vertical sync rises with the end of line 490. -/
theorem vs_rises_iff {v : VgaController} (h : v.InRange) :
    (v.tick.vs = false ∧ v.tick.tick.vs = true) ↔ v.position = 392799 := by
  have hnext : v.tick.tick.vs = true ↔ ¬ (v.tick.vc.toNat = 489 ∨ v.tick.vc.toNat = 490) := by
    rw [← tick_vs_iff, Bool.not_eq_false]
  obtain ⟨hcol, hline⟩ := h
  rw [tick_vs_iff, hnext, tick_vc]
  unfold VgaController.position
  split
  · split <;> omega
  · omega

/-! ## Frame edges of the cursor -/

section Frame

variable (w : VgaController) (c : MouseCursor) {is : Nat → PixelInput}

theorem Video.run_range_succ (v : Video) (is : Nat → PixelInput) (n : Nat) :
    v.run ((List.range (n + 1)).map is) = (v.run ((List.range n).map is)).step (is n) := by
  rw [List.range_succ, List.map_append, Video.run, Clocked.run_append]
  rfl

theorem run_vga (his : ∀ n, (is n).reset = false) (n : Nat) :
    ((Video.mk w c).run ((List.range n).map is)).vga = VgaController.tick^[n] w := by
  induction n with
  | zero => rfl
  | succ n ih =>
    rw [Video.run_range_succ, Function.iterate_succ_apply', ← ih]
    show VgaController.clock _ (is n).reset = _
    rw [his n]
    rfl

theorem frameEdge_iff (his : ∀ n, (is n).reset = false) (n : Nat) :
    ((Video.mk w c).run ((List.range n).map is)).FrameEdge (is n) ↔
      (VgaController.tick^[n] w).vs = false ∧ (VgaController.tick^[n] w).tick.vs = true := by
  rw [Video.FrameEdge, run_vga w c his, his n]
  rfl

/-- Clocks without a frame edge leave the cursor alone. -/
theorem cursor_kept {v : Video} {n m : Nat} (hle : n ≤ m)
    (hquiet : ∀ k, n ≤ k → k < m → ¬ (v.run ((List.range k).map is)).FrameEdge (is k)) :
    (v.run ((List.range m).map is)).cursor = (v.run ((List.range n).map is)).cursor := by
  induction m, hle using Nat.le_induction with
  | base => rfl
  | succ m hm ih =>
    have hstill := ih fun k hk hkm => hquiet k hk (hkm.trans m.lt_succ_self)
    rw [Video.run_range_succ, Video.step, if_neg (hquiet m hm m.lt_succ_self)]
    exact hstill

/-- The clock of a frame edge with the reset low. -/
theorem cursor_framed {v : Video} {n : Nat} (his : ∀ n, (is n).reset = false)
    (hedge : (v.run ((List.range n).map is)).FrameEdge (is n)) :
    (v.run ((List.range (n + 1)).map is)).cursor =
      (v.run ((List.range n).map is)).cursor.frame false (is n).usbDeltaX (is n).usbDeltaY := by
  rw [Video.run_range_succ, Video.step, if_pos hedge, his n]

/-- With one frame edge in the first `length` clocks, the cursor is where it was up to
that clock, and one sample further after it. -/
theorem cursor_updated_once {length n : Nat} (his : ∀ n, (is n).reset = false)
    (honce : ∃! k, k < length ∧ ((Video.mk w c).run ((List.range k).map is)).FrameEdge (is k))
    (hn : n < length) (hedge : ((Video.mk w c).run ((List.range n).map is)).FrameEdge (is n)) :
    (∀ m ≤ n, ((Video.mk w c).run ((List.range m).map is)).cursor = c) ∧
    ∀ m, n < m → m ≤ length → ((Video.mk w c).run ((List.range m).map is)).cursor =
      c.frame false (is n).usbDeltaX (is n).usbDeltaY := by
  have hquiet (k : Nat) (hk : k < length) (hkn : k ≠ n) :
      ¬ ((Video.mk w c).run ((List.range k).map is)).FrameEdge (is k) :=
    fun h => hkn (honce.unique ⟨hk, h⟩ ⟨hn, hedge⟩)
  have hbefore (m : Nat) (hm : m ≤ n) :
      ((Video.mk w c).run ((List.range m).map is)).cursor = c :=
    cursor_kept (Nat.zero_le m) fun k _ hkm => hquiet k (by omega) (by omega)
  refine ⟨hbefore, fun m hnm hm => ?_⟩
  have hafter : ((Video.mk w c).run ((List.range m).map is)).cursor =
      ((Video.mk w c).run ((List.range (n + 1)).map is)).cursor :=
    cursor_kept hnm fun k hk hkm => hquiet k (by omega) (by omega)
  rw [hafter, cursor_framed his hedge, hbefore n le_rfl]

end Frame

/-! ## Runs -/

/-- From any contents of the counters there is a moment after at most 400000 clocks
without reset from which on, whatever `reset` does, both counters are in range. In
any 420000 consecutive clocks without reset that start in such a state `w`, the raster
visits each coordinate pair exactly once and in row-major cyclic order,
`active_nblank` is high on exactly the visible pairs, and, one clock later, the
vertical sync rises exactly once. That edge is the only update of the cursor: whatever
it held, it holds up to the edge, and from then on what `mouse_cursor` makes of it with
the displacements of that clock. -/
theorem raster_complete (v : VgaController) :
    ∃ n ≤ 400000, ∀ resets : List Bool,
      let w := (v.run (List.replicate n false)).run resets
      w.InRange ∧
      (∀ x < 800, ∀ y < 525, ∃! n, n < 420000 ∧
        (VgaController.tick^[n] w).hc.toNat = x ∧ (VgaController.tick^[n] w).vc.toNat = y) ∧
      (∀ n, (VgaController.tick^[n] w).position = (w.position + n) % 420000) ∧
      (∀ n, (VgaController.tick^[n] w).activeNblank = true ↔
        (VgaController.tick^[n] w).hc.toNat < 640 ∧ (VgaController.tick^[n] w).vc.toNat < 480) ∧
      (∃! n, n < 420000 ∧ (VgaController.tick^[n] w.tick).vs = false ∧
        (VgaController.tick^[n] w.tick).tick.vs = true) ∧
      (∀ (c : MouseCursor) (is : Nat → PixelInput), (∀ n, (is n).reset = false) →
        let video := fun m => (Video.mk w.tick c).run ((List.range m).map is)
        (∃! n, n < 420000 ∧ (video n).FrameEdge (is n)) ∧
        ∀ n < 420000, (video n).FrameEdge (is n) →
          (∀ m ≤ n, (video m).cursor = c) ∧
          ∀ m, n < m → m ≤ 420000 →
            (video m).cursor = c.frame false (is n).usbDeltaX (is n).usbDeltaY) := by
  refine ⟨v.fuel, (fuel_le v).trans (by decide), fun resets => ?_⟩
  intro w
  have hsettled : (v.run (List.replicate v.fuel false)).InRange := by
    rw [← fuel_eq_zero_iff, VgaController.run, Cyclic.run_replicate]
    exact settles fuel_tick le_rfl
  have hw : w.InRange := hsettled.run resets
  have hrise : ∃! n, n < 420000 ∧ (VgaController.tick^[n] w.tick).vs = false ∧
      (VgaController.tick^[n] w.tick).tick.vs = true := by
    have honce := raster_cycles.happens_once hw
      (fun v => v.tick.vs = false ∧ v.tick.tick.vs = true) (by decide) fun v h => vs_rises_iff h
    simpa only [← Function.iterate_succ_apply', Function.iterate_succ_apply] using honce
  refine ⟨hw, ?_, raster_cycles.pos_iterate hw, fun n => activeNblank_iff _, hrise, ?_⟩
  · intro x hx y hy
    have hp : 800 * y + x < 420000 := by omega
    exact raster_cycles.happens_once hw (fun v => v.hc.toNat = x ∧ v.vc.toNat = y) hp
      fun v h => (position_eq_iff h hx).symm
  · intro c is his video
    have hedges : ∃! n, n < 420000 ∧ (video n).FrameEdge (is n) := by
      simpa only [video, frameEdge_iff w.tick c his] using hrise
    exact ⟨hedges, fun n hn hedge => cursor_updated_once w.tick c his hedges hn hedge⟩

end SocChess
