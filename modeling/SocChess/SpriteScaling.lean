import SocChess.SpriteRom
import SocChess.Raster

/-!
# The shift-and-add scaling of the sprites

The comments of the wrappers say that `sprite_x` is `floor(DrawX * 60 / 640)` and
`sprite_y` is `floor(DrawY * 60 / 480)`. The rows are exact. The sum that triples
`DrawX` is 10 bits wide, as wide as its widest operand, so it loses its carry as soon as
`3 * DrawX` reaches 1024, in the right half of the visible lines.

* `spriteScaled_iff`, `chessboardScaled_iff`: one address.
* `scaling_not_exact`: a reachable visible clock with wrong addresses.
* `scaling_exact_iff`: in every run, exactly which visible clocks have exact addresses.
-/

namespace SocChess

/-- The number of words of a sprite ROM and of the chessboard ROM. -/
def spriteDepth : Nat := 3600
def chessboardDepth : Nat := 230400

/-- The address a sprite wrapper documents. -/
def SpriteScaled (sprite : Coord → Coord → BitVec 12) (DrawX DrawY : Coord) : Prop :=
  (sprite DrawX DrawY).toNat = 60 * (DrawY.toNat * 60 / 480) + DrawX.toNat * 60 / 640

/-- The address the chessboard wrapper documents. -/
def ChessboardScaled (DrawX DrawY : Coord) : Prop :=
  (chessboardExample DrawX DrawY).toNat = 480 * DrawY.toNat + DrawX.toNat * 480 / 640

/-- All fourteen addresses are the scaled positions, and within their ROMs. -/
structure Scaled (DrawX DrawY : Coord) : Prop where
  sprites : ∀ sprite ∈ sprites, SpriteScaled sprite DrawX DrawY
  chessboard : ChessboardScaled DrawX DrawY
  spriteDepth : ∀ sprite ∈ SocChess.sprites, (sprite DrawX DrawY).toNat < spriteDepth
  chessboardDepth : (chessboardExample DrawX DrawY).toNat < chessboardDepth

section Address

variable {DrawX DrawY : Coord}

theorem spriteScaled_iff (hx : DrawX < 640#10) (hy : DrawY < 480#10) :
    SpriteScaled spriteAddress DrawX DrawY ↔ DrawX.toNat < 342 := by
  have hrow : DrawY.toNat * 60 / 480 = DrawY.toNat / 8 := by omega
  rw [← spriteX_eq_floor_iff hx, spriteX_toNat, SpriteScaled, spriteAddress_toNat _ hy, hrow]
  exact Nat.add_left_cancel_iff

theorem chessboardScaled_iff (hx : DrawX < 640#10) (hy : DrawY < 480#10) :
    ChessboardScaled DrawX DrawY ↔ DrawX.toNat < 342 := by
  have hx' : DrawX.toNat < 640 := hx
  rw [ChessboardScaled, chessboardExample_toNat _ hy, Nat.add_left_cancel_iff]
  omega

/-- Whatever the columns wrap to, the addresses stay in their ROMs. -/
theorem spriteAddress_lt (DrawX : Coord) (hy : DrawY < 480#10) :
    (spriteAddress DrawX DrawY).toNat < spriteDepth := by
  have hy' : DrawY.toNat < 480 := hy
  rw [spriteAddress_toNat _ hy, spriteDepth]
  omega

theorem chessboardExample_lt (DrawX : Coord) (hy : DrawY < 480#10) :
    (chessboardExample DrawX DrawY).toNat < chessboardDepth := by
  have hy' : DrawY.toNat < 480 := hy
  rw [chessboardExample_toNat _ hy, chessboardDepth]
  omega

theorem scaled_iff (hx : DrawX < 640#10) (hy : DrawY < 480#10) :
    Scaled DrawX DrawY ↔ DrawX.toNat < 342 := by
  constructor
  · intro h
    exact (chessboardScaled_iff hx hy).mp h.chessboard
  · intro hcolumn
    refine ⟨?_, (chessboardScaled_iff hx hy).mpr hcolumn, ?_, chessboardExample_lt _ hy⟩
    · intro sprite hmem
      rw [mem_sprites hmem]
      exact (spriteScaled_iff hx hy).mpr hcolumn
    · intro sprite hmem
      rw [mem_sprites hmem]
      exact spriteAddress_lt _ hy

end Address

/-! ## Runs -/

theorem visible_of_activeNblank {v : VgaController} (h : v.activeNblank = true) :
    v.hc < 640#10 ∧ v.vc < 480#10 := (activeNblank_iff v).mp h

/-- At column 342 of the first line the tripled column is 1026, and the chessboard is
sampled at column 0 instead of 256. -/
theorem scaling_not_exact :
    ¬ ∀ (power : VgaController) (resets : List Bool),
      let v := power.run resets
      v.activeNblank = true → Scaled v.hc v.vc := by
  intro hclaim
  have hposition := origin_position 342
  have hrange := raster_cycles.closed_iterate origin_inRange 342
  obtain ⟨hcolumn, hline⟩ := (position_eq_iff (x := 342) (y := 0) hrange (by decide)).mp hposition
  have hscaled := hclaim .origin (List.replicate 342 false)
  rw [VgaController.run, Cyclic.run_replicate] at hscaled
  have hactive : (VgaController.tick^[342] .origin).activeNblank = true := by
    rw [activeNblank_iff, hcolumn, hline]
    decide
  obtain ⟨hx, hy⟩ := visible_of_activeNblank hactive
  have hlt := (scaled_iff hx hy).mp (hscaled hactive)
  rw [hcolumn] at hlt
  exact absurd hlt (by decide)

/-- In every run, at a clock with `active_nblank` high, the addresses are the documented
ones exactly in the columns up to 341. They are below the ROM depths in all columns, and
the rows are exact in all of them. -/
theorem scaling_exact_iff (power : VgaController) (resets : List Bool) :
    let v := power.run resets
    v.activeNblank = true →
      (Scaled v.hc v.vc ↔ v.hc.toNat ≤ 341) ∧
      (∀ sprite ∈ sprites, (sprite v.hc v.vc).toNat < spriteDepth ∧
        (sprite v.hc v.vc).toNat / 60 = v.vc.toNat * 60 / 480) ∧
      (chessboardExample v.hc v.vc).toNat < chessboardDepth ∧
      (chessboardExample v.hc v.vc).toNat / 480 = v.vc.toNat := by
  intro v hactive
  obtain ⟨hx, hy⟩ := visible_of_activeNblank hactive
  refine ⟨(scaled_iff hx hy).trans Nat.lt_succ_iff, ?_, chessboardExample_lt _ hy, ?_⟩
  · intro sprite hmem
    rw [mem_sprites hmem]
    refine ⟨spriteAddress_lt _ hy, ?_⟩
    rw [spriteAddress_toNat _ hy]
    omega
  · rw [chessboardExample_toNat _ hy]
    omega

/-- In line 100 the addresses are exact in column 341 and not in column 342. -/
theorem scaling_exact_iff_carry : Scaled 341#10 100#10 ∧ ¬ Scaled 342#10 100#10 := by
  have hexact := (scaling_exact_iff ⟨340#10, 100#10, true, true⟩ [false] (by decide)).1
  have hwraps := (scaling_exact_iff ⟨340#10, 100#10, true, true⟩ [false, false] (by decide)).1
  exact ⟨hexact.mpr (by decide), mt hwraps.mp (by decide)⟩

end SocChess
