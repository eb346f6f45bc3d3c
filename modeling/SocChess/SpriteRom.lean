import SocChess.GameLogic

/-!
# The sprite addresses: `rtl/sprites/*_example.sv`

Each wrapper computes the address of its ROM from the raw screen position with shifts
and additions. The renderer divides the screen into squares of 60 by 60 pixels; the
wrappers scale the whole screen down instead.

* `spriteAddress_toNat`, `chessboardExample_toNat`: the addresses as numbers.
* `spriteX_eq_floor_iff`: the 10-bit sum `DrawX + 2 * DrawX` loses its carry from
  column 342 on.
* `pixels_not_aligned`, `pixel_aligned_iff`: at which pixels the sprites and the
  texture line up with the squares.
-/

namespace SocChess

/-! ## The wrappers -/

/-- `sprite_x`: the sum is 10 bits wide and the target 6. -/
def spriteX (DrawX : Coord) : BitVec 6 := (((DrawX <<< 1) + DrawX) >>> 5).setWidth 6

/-- `sprite_y`, the 7 bits `DrawY[9:3]` in 6. -/
def spriteY (DrawY : Coord) : BitVec 6 := (DrawY.extractLsb' 3 7).setWidth 6

/-- `row_offset` of the sprites. -/
def rowOffset (spriteY : BitVec 6) : BitVec 12 :=
  (spriteY ++ 0#6) - (spriteY ++ 0#2).setWidth 12

/-- `rom_address`, the same in all sprite wrappers. -/
def spriteAddress (DrawX DrawY : Coord) : BitVec 12 :=
  rowOffset (spriteY DrawY) + (spriteX DrawX).setWidth 12

def wPawnExample : Coord → Coord → BitVec 12 := spriteAddress
def wKnightExample : Coord → Coord → BitVec 12 := spriteAddress
def wBishopExample : Coord → Coord → BitVec 12 := spriteAddress
def wRookExample : Coord → Coord → BitVec 12 := spriteAddress
def wQueenExample : Coord → Coord → BitVec 12 := spriteAddress
def wKingExample : Coord → Coord → BitVec 12 := spriteAddress
def bPawnExample : Coord → Coord → BitVec 12 := spriteAddress
def bKnightExample : Coord → Coord → BitVec 12 := spriteAddress
def bBishopExample : Coord → Coord → BitVec 12 := spriteAddress
def bRookExample : Coord → Coord → BitVec 12 := spriteAddress
def bQueenExample : Coord → Coord → BitVec 12 := spriteAddress
def bKingExample : Coord → Coord → BitVec 12 := spriteAddress
def selectedBorderExample : Coord → Coord → BitVec 12 := spriteAddress

/-- The twelve pieces and the selection border. -/
def sprites : List (Coord → Coord → BitVec 12) :=
  [wPawnExample, wKnightExample, wBishopExample, wRookExample, wQueenExample, wKingExample,
    bPawnExample, bKnightExample, bBishopExample, bRookExample, bQueenExample, bKingExample,
    selectedBorderExample]

theorem mem_sprites {sprite : Coord → Coord → BitVec 12} (h : sprite ∈ sprites) :
    sprite = spriteAddress := by
  simpa [sprites, wPawnExample, wKnightExample, wBishopExample, wRookExample, wQueenExample,
    wKingExample, bPawnExample, bKnightExample, bBishopExample, bRookExample, bQueenExample,
    bKingExample, selectedBorderExample] using h

/-- `scaled_x` of the chessboard. -/
def scaledX (DrawX : Coord) : BitVec 10 := ((DrawX <<< 1) + DrawX) >>> 2

/-- `rom_address` of the chessboard: the 19-bit difference is cut to 18 bits. -/
def chessboardExample (DrawX DrawY : Coord) : BitVec 18 :=
  ((DrawY ++ 0#9) - (DrawY ++ 0#5).setWidth 19).setWidth 18 + (scaledX DrawX).setWidth 18

/-! ## Alignment -/

/-- The sprite is sampled at the pixel's own offset in its square, the image being
stored row by row. -/
def SpriteAligned (sprite : Coord → Coord → BitVec 12) (DrawX DrawY : Coord) : Prop :=
  (sprite DrawX DrawY).toNat = DrawY.toNat % 60 * 60 + DrawX.toNat % 60

/-- The texel lies in the column and row of the pixel's square, the squares of the
480x480 image being 60 texels wide. -/
def TexelAligned (DrawX DrawY : Coord) : Prop :=
  (chessboardExample DrawX DrawY).toNat % 480 / 60 = DrawX.toNat / 60 ∧
  (chessboardExample DrawX DrawY).toNat / 480 / 60 = DrawY.toNat / 60

/-- Every sprite and the background line up with the squares at this pixel. -/
def PixelAligned (DrawX DrawY : Coord) : Prop :=
  (∀ sprite ∈ sprites, SpriteAligned sprite DrawX DrawY) ∧ TexelAligned DrawX DrawY

/-! ## The addresses as numbers -/

section Address

variable {DrawX DrawY : Coord}

theorem tripled_toNat (DrawX : Coord) :
    ((DrawX <<< 1) + DrawX).toNat = 3 * DrawX.toNat % 1024 := by
  rw [BitVec.toNat_add, BitVec.toNat_shiftLeft, Nat.shiftLeft_eq]
  omega

theorem spriteX_toNat (DrawX : Coord) : (spriteX DrawX).toNat = 3 * DrawX.toNat % 1024 / 32 := by
  rw [spriteX, BitVec.toNat_setWidth, BitVec.toNat_ushiftRight, tripled_toNat,
    Nat.shiftRight_eq_div_pow]
  omega

theorem spriteY_toNat (hy : DrawY < 480#10) : (spriteY DrawY).toNat = DrawY.toNat / 8 := by
  have hy' : DrawY.toNat < 480 := hy
  rw [spriteY, BitVec.toNat_setWidth, BitVec.extractLsb'_toNat, Nat.shiftRight_eq_div_pow]
  omega

theorem toNat_append_zeros {w : Nat} (b : BitVec w) (n : Nat) :
    (b ++ 0#n).toNat = b.toNat * 2 ^ n := by
  rw [BitVec.toNat_append, BitVec.toNat_ofNat, Nat.zero_mod, Nat.or_zero, Nat.shiftLeft_eq]

/-- `64 * row - 4 * row` is `60 * row`. -/
theorem rowOffset_toNat (row : BitVec 6) : (rowOffset row).toNat = 60 * row.toNat := by
  have hrow := row.isLt
  show ((row ++ 0#6) - (row ++ 0#2).setWidth 12).toNat = _
  rw [BitVec.toNat_sub, BitVec.toNat_setWidth, toNat_append_zeros, toNat_append_zeros]
  omega

theorem spriteAddress_toNat (DrawX : Coord) (hy : DrawY < 480#10) :
    (spriteAddress DrawX DrawY).toNat =
      60 * (DrawY.toNat / 8) + 3 * DrawX.toNat % 1024 / 32 := by
  have hy' : DrawY.toNat < 480 := hy
  rw [spriteAddress, BitVec.toNat_add, BitVec.toNat_setWidth, rowOffset_toNat, spriteX_toNat,
    spriteY_toNat hy]
  omega

/-- `512 * y - 32 * y` is `480 * y`. -/
theorem chessboardExample_toNat (DrawX : Coord) (hy : DrawY < 480#10) :
    (chessboardExample DrawX DrawY).toNat = 480 * DrawY.toNat + 3 * DrawX.toNat % 1024 / 4 := by
  have hy' : DrawY.toNat < 480 := hy
  have hscaled : (scaledX DrawX).toNat = 3 * DrawX.toNat % 1024 / 4 := by
    rw [scaledX, BitVec.toNat_ushiftRight, tripled_toNat, Nat.shiftRight_eq_div_pow]
  rw [chessboardExample, BitVec.toNat_add, BitVec.toNat_setWidth, BitVec.toNat_setWidth, hscaled]
  show ((((DrawY ++ 0#9) - (DrawY ++ 0#5).setWidth 19).toNat % 2 ^ 18) + _) % 2 ^ 18 = _
  rw [BitVec.toNat_sub, BitVec.toNat_setWidth, toNat_append_zeros, toNat_append_zeros]
  omega

/-- The wrapper's own comment, `floor(DrawX * 60 / 640)`, holds up to column 341. -/
theorem spriteX_eq_floor_iff (hx : DrawX < 640#10) :
    (spriteX DrawX).toNat = DrawX.toNat * 60 / 640 ↔ DrawX.toNat < 342 := by
  have hx' : DrawX.toNat < 640 := hx
  rw [spriteX_toNat]
  omega

end Address

/-! ## Where the pixels are aligned -/

/-- The columns at which a sprite is sampled at its own column. -/
def spriteColumns : List Nat := [0, 66, 132, 198, 264, 330, 331, 361, 428]

/-- The rows at which a sprite is sampled at its own row. -/
def spriteRows : List Nat := [0, 68, 137, 205, 274, 342, 411, 479]

theorem mem_spriteColumns : ∀ x < 480, 3 * x % 1024 / 32 = x % 60 ↔ x ∈ spriteColumns := by
  decide +kernel

theorem mem_spriteRows : ∀ y < 480, y / 8 = y % 60 ↔ y ∈ spriteRows := by
  decide +kernel

/-- The columns whose texel lies in the column of their square. -/
def TexelColumn (x : Nat) : Prop := x < 60 ∨ (80 ≤ x ∧ x < 120) ∨ (160 ≤ x ∧ x < 180)

instance (x : Nat) : Decidable (TexelColumn x) := by
  unfold TexelColumn
  infer_instance

theorem texelColumn_iff : ∀ x < 480, 3 * x % 1024 / 4 / 60 = x / 60 ↔ TexelColumn x := by
  decide +kernel

section Aligned

variable {DrawX DrawY : Coord}

theorem spriteAligned_iff (hx : DrawX < 480#10) (hy : DrawY < 480#10) :
    SpriteAligned spriteAddress DrawX DrawY ↔
      DrawX.toNat ∈ spriteColumns ∧ DrawY.toNat ∈ spriteRows := by
  rw [← mem_spriteColumns _ hx, ← mem_spriteRows _ hy, SpriteAligned, spriteAddress_toNat _ hy]
  omega

theorem sprites_aligned_iff :
    (∀ sprite ∈ sprites, SpriteAligned sprite DrawX DrawY) ↔
      SpriteAligned spriteAddress DrawX DrawY := by
  constructor
  · intro h
    exact h wPawnExample List.mem_cons_self
  · intro h sprite hmem
    rw [mem_sprites hmem]
    exact h

/-- The texture row is always that of the square; the texture column is so on the left
part of three columns of squares. -/
theorem texelAligned_iff (hx : DrawX < 480#10) (hy : DrawY < 480#10) :
    TexelAligned DrawX DrawY ↔ TexelColumn DrawX.toNat := by
  have hcolumn : 3 * DrawX.toNat % 1024 / 4 < 480 := by omega
  rw [← texelColumn_iff _ hx, TexelAligned, chessboardExample_toNat _ hy,
    Nat.mul_add_mod, Nat.mod_eq_of_lt hcolumn, Nat.mul_add_div (by decide),
    Nat.div_eq_of_lt hcolumn]
  exact and_iff_left rfl

end Aligned

/-- At the pixel (60, 0) the sprites are sampled at column 5 and the texel is that of
column 0 of squares. -/
theorem pixels_not_aligned :
    ¬ ∀ DrawX DrawY : Coord, DrawX < 480#10 → DrawY < 480#10 → PixelAligned DrawX DrawY := by
  intro hclaim
  obtain ⟨hsprites, -⟩ := hclaim 60#10 0#10 (by decide) (by decide)
  have hpawn : (spriteAddress 60#10 0#10).toNat = 0 % 60 * 60 + 60 % 60 :=
    hsprites wPawnExample List.mem_cons_self
  exact absurd hpawn (by decide)

/-- Exactly which pixels are aligned: the sprites at nine columns of eight rows, the
texture on the left part of three columns of squares, and both in column 0 of those
rows. -/
theorem pixel_aligned_iff {DrawX DrawY : Coord} (hx : DrawX < 480#10) (hy : DrawY < 480#10) :
    ((∀ sprite ∈ sprites, SpriteAligned sprite DrawX DrawY) ↔
      DrawX.toNat ∈ spriteColumns ∧ DrawY.toNat ∈ spriteRows) ∧
    (TexelAligned DrawX DrawY ↔ TexelColumn DrawX.toNat) ∧
    (PixelAligned DrawX DrawY ↔ DrawX.toNat = 0 ∧ DrawY.toNat ∈ spriteRows) := by
  have hsprites := sprites_aligned_iff.trans (spriteAligned_iff hx hy)
  have htexel := texelAligned_iff hx hy
  refine ⟨hsprites, htexel, ?_⟩
  rw [PixelAligned, hsprites, htexel]
  have hzero : ∀ x < 480, x ∈ spriteColumns ∧ TexelColumn x ↔ x = 0 := by decide +kernel
  have hcolumn := hzero DrawX.toNat hx
  constructor
  · rintro ⟨⟨hx₁, hrow⟩, hx₂⟩
    exact ⟨hcolumn.mp ⟨hx₁, hx₂⟩, hrow⟩
  · rintro ⟨hx₀, hrow⟩
    obtain ⟨hx₁, hx₂⟩ := hcolumn.mpr hx₀
    exact ⟨⟨hx₁, hrow⟩, hx₂⟩

/-- In line 68 the first pixel is aligned, and in column 66 the sprites are but the
texture is not. -/
theorem pixel_aligned_iff_line :
    PixelAligned 0#10 68#10 ∧ (∀ sprite ∈ sprites, SpriteAligned sprite 66#10 68#10) ∧
    ¬ TexelAligned 66#10 68#10 := by
  have hboard : 0#10 < 480#10 ∧ 66#10 < 480#10 ∧ 68#10 < 480#10 := by decide
  obtain ⟨hleft, hcolumn, hline⟩ := hboard
  obtain ⟨-, -, hfirst⟩ := pixel_aligned_iff hleft hline
  obtain ⟨hsprites, htexel, -⟩ := pixel_aligned_iff hcolumn hline
  exact ⟨hfirst.mpr (by decide), hsprites.mpr (by decide), mt htexel.mp (by decide)⟩

end SocChess
