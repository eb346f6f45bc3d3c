import SocChess.Raster

/-!
# The sync pulses and the coordinates

Both syncs are registered one clock after the counters they are computed from, and both
look ahead by adding one to the counter. The column advances at every clock, so for the
horizontal sync the two cancel. The line advances once in 800 clocks, so the vertical
sync is early by a line less one clock.

* `hsAligned_tick`: the horizontal sync is aligned in every state out of reset.
* `vs_not_aligned`: the vertical sync is not.
* `syncs_aligned_iff`: in every run, at exactly which clocks both are aligned.
-/

namespace SocChess

/-- The horizontal sync is low exactly in the columns 656 to 751. -/
def VgaController.HsAligned (v : VgaController) : Prop :=
  v.hs = false ↔ 656 ≤ v.hc.toNat ∧ v.hc.toNat ≤ 751

/-- The vertical sync is low exactly in the lines 490 and 491. -/
def VgaController.VsAligned (v : VgaController) : Prop :=
  v.vs = false ↔ v.vc.toNat = 490 ∨ v.vc.toNat = 491

/-- The clocks of a frame in line 489 and in line 491 at which the vertical sync has
already fallen or has already risen. -/
def EarlySync (position : Nat) : Prop :=
  (489 * 800 < position ∧ position < 490 * 800) ∨ (491 * 800 < position ∧ position < 492 * 800)

section Aligned

variable {v : VgaController}

theorem hsAligned_tick (h : v.InRange) : v.tick.HsAligned := by
  obtain ⟨hcol, -⟩ := h
  unfold VgaController.HsAligned
  rw [tick_hs_iff, tick_hc]
  split
  · omega
  · omega

theorem vsAligned_tick_iff (h : v.InRange) : v.tick.VsAligned ↔ ¬ EarlySync v.tick.position := by
  obtain ⟨hcol, hline⟩ := h
  unfold VgaController.VsAligned EarlySync VgaController.position
  rw [tick_vs_iff, tick_hc, tick_vc]
  split
  · split
    · omega
    · omega
  · omega

end Aligned

/-- The alignment after a reset and at least one clock since. -/
theorem vsAligned_after_reset (n : Nat) :
    (VgaController.tick^[n + 1] .origin).VsAligned ↔ ¬ EarlySync ((n + 1) % 420000) := by
  have hrange := raster_cycles.closed_iterate origin_inRange n
  rw [← origin_position (n + 1), Function.iterate_succ_apply']
  exact vsAligned_tick_iff hrange

/-- After 391201 clocks the raster is in line 489 and the vertical sync is low. -/
theorem vs_not_aligned :
    ¬ ∀ (power : VgaController) (before : List Bool) (n : Nat),
      let v := power.run (before ++ true :: List.replicate (n + 1) false)
      v.HsAligned ∧ v.VsAligned := by
  intro hclaim
  obtain ⟨-, hvs⟩ := hclaim .origin [] 391200
  rw [run_reset_free, vsAligned_after_reset] at hvs
  exact hvs (.inl (by decide))

/-- In every run and every state reached from a reset with at least one clock since, the
syncs are aligned with the coordinates exactly outside the last 799 clocks of line 489
and of line 491. The horizontal sync is aligned throughout. -/
theorem syncs_aligned_iff (power : VgaController) (before : List Bool) (n : Nat) :
    let v := power.run (before ++ true :: List.replicate (n + 1) false)
    v.HsAligned ∧ (v.HsAligned ∧ v.VsAligned ↔ ¬ EarlySync ((n + 1) % 420000)) := by
  intro v
  have hv : v = VgaController.tick^[n + 1] .origin := run_reset_free power before (n + 1)
  have hhs : v.HsAligned := by
    rw [hv, Function.iterate_succ_apply']
    exact hsAligned_tick (raster_cycles.closed_iterate origin_inRange n)
  refine ⟨hhs, ?_⟩
  rw [← vsAligned_after_reset, ← hv]
  exact and_iff_right hhs

end SocChess
