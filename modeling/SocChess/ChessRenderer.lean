import SocChess.LegalMove

/-!
# The picture: `chess_renderer.sv`

The combinational half of the renderer: the square under the raster position, the
cursor disc and the priority cascade `rgb_display` that picks the colour of a pixel. The
colours of the fourteen sprite modules are inputs of the cascade.

* `activeSquare_toNat`: the renderer's own screen-to-square map.
* `hoveredVal_eq_activeSquare`: it agrees with that of the game logic on the board.
* `boardColour_eq`: the twelve branches for pieces are one lookup by the code.
-/

namespace SocChess

/-- A colour as three 4-bit channels. -/
structure Rgb where
  red : BitVec 4
  green : BitVec 4
  blue : BitVec 4
deriving DecidableEq, Repr

/-! ## The square under the raster position -/

def xIndex (DrawX : Coord) : BitVec 4 := (DrawX / 60#10).setWidth 4

def yIndex (DrawY : Coord) : BitVec 4 := (DrawY / 60#10).setWidth 4

/-- `active_square`: the product and the sum are 6 bits wide, the width of the target. -/
def activeSquare (DrawX DrawY : Coord) : Square :=
  (yIndex DrawY).setWidth 6 * 8#6 + (xIndex DrawX).setWidth 6

/-- The renderer's test for a pixel of the board. -/
def OnBoard (DrawX DrawY : Coord) : Prop := DrawX < 480#10 ∧ DrawY < 480#10

instance decidableOnBoard (DrawX DrawY : Coord) : Decidable (OnBoard DrawX DrawY) := by
  unfold OnBoard
  infer_instance

/-! ## The colour of a pixel -/

/-- `is_piece_pixel`: everything but the transparent colour of the pieces. -/
def isPiecePixel (sprite : Rgb) : Bool := sprite ≠ ⟨0xF#4, 0x8#4, 0xD#4⟩

/-- `is_border_pixel`. -/
def isBorderPixel (sprite : Rgb) : Bool := sprite ≠ ⟨0xF#4, 0x4#4, 0xD#4⟩

/-- The outputs of the sprite modules at one clock. -/
structure SpriteColours where
  cb : Rgb
  wPawn : Rgb
  wKnight : Rgb
  wBishop : Rgb
  wRook : Rgb
  wQueen : Rgb
  wKing : Rgb
  bPawn : Rgb
  bKnight : Rgb
  bBishop : Rgb
  bRook : Rgb
  bQueen : Rgb
  bKing : Rgb
  sBorder : Rgb

/-- The game state as `vga_clk` samples it: `board_vga` and the other `_vga` registers. -/
structure Snapshot where
  board : Board
  preSelVal : Square
  highlightBorder : Bool
  currPlayer : Bool

/-- The snapshot a clock of `vga_clk` takes of the core. -/
def Core.snapshot (c : Core) : Snapshot where
  board := c.board
  preSelVal := c.preSelVal
  highlightBorder := c.highlightBorder
  currPlayer := c.currPlayer

/-- The position and the radius of the cursor. -/
structure CursorDisc where
  CursorX : Coord
  CursorY : Coord
  CursorSize : Coord

/-- `ball_on`. The distances are 32-bit integers, exact for 10-bit coordinates. -/
def CursorDisc.ballOn (p : CursorDisc) (DrawX DrawY : Coord) : Bool :=
  let distX : Int := DrawX.toNat - p.CursorX.toNat
  let distY : Int := DrawY.toNat - p.CursorY.toNat
  let cursorRadius : Int := p.CursorSize.toNat
  distX * distX + distY * distY ≤ cursorRadius * cursorRadius

def ballColour : Rgb := ⟨0xF#4, 0x7#4, 0x0#4⟩
def turnColour : Rgb := ⟨0x0#4, 0x0#4, 0xF#4⟩
def panelColour : Rgb := ⟨0xF#4, 0xF#4, 0xF#4⟩

/-- The branches of `rgb_display` for a pixel of the board whose square is `square`. -/
def boardColour (s : Snapshot) (square : Square) (colours : SpriteColours) : Rgb :=
  if square = s.preSelVal ∧ s.highlightBorder ∧ isBorderPixel colours.sBorder then
    colours.sBorder
  else if s.board square = 0b0001#4 ∧ isPiecePixel colours.wPawn then colours.wPawn
  else if s.board square = 0b0010#4 ∧ isPiecePixel colours.wKnight then colours.wKnight
  else if s.board square = 0b0011#4 ∧ isPiecePixel colours.wBishop then colours.wBishop
  else if s.board square = 0b0100#4 ∧ isPiecePixel colours.wRook then colours.wRook
  else if s.board square = 0b0101#4 ∧ isPiecePixel colours.wQueen then colours.wQueen
  else if s.board square = 0b0110#4 ∧ isPiecePixel colours.wKing then colours.wKing
  else if s.board square = 0b1001#4 ∧ isPiecePixel colours.bPawn then colours.bPawn
  else if s.board square = 0b1010#4 ∧ isPiecePixel colours.bKnight then colours.bKnight
  else if s.board square = 0b1011#4 ∧ isPiecePixel colours.bBishop then colours.bBishop
  else if s.board square = 0b1100#4 ∧ isPiecePixel colours.bRook then colours.bRook
  else if s.board square = 0b1101#4 ∧ isPiecePixel colours.bQueen then colours.bQueen
  else if s.board square = 0b1110#4 ∧ isPiecePixel colours.bKing then colours.bKing
  else colours.cb

/-- `rgb_display`. -/
def rgbDisplay (s : Snapshot) (p : CursorDisc) (DrawX DrawY : Coord) (colours : SpriteColours) :
    Rgb :=
  if p.ballOn DrawX DrawY then ballColour
  else if OnBoard DrawX DrawY then boardColour s (activeSquare DrawX DrawY) colours
  else if s.currPlayer = white ∧ 420#10 < DrawY then turnColour
  else if s.currPlayer = black ∧ DrawY < 60#10 then turnColour
  else panelColour

/-! ## The cascade -/

/-- The sprite of a piece. -/
def SpriteColours.piece (colours : SpriteColours) : Piece → Option Rgb
  | 0b0001#4 => some colours.wPawn
  | 0b0010#4 => some colours.wKnight
  | 0b0011#4 => some colours.wBishop
  | 0b0100#4 => some colours.wRook
  | 0b0101#4 => some colours.wQueen
  | 0b0110#4 => some colours.wKing
  | 0b1001#4 => some colours.bPawn
  | 0b1010#4 => some colours.bKnight
  | 0b1011#4 => some colours.bBishop
  | 0b1100#4 => some colours.bRook
  | 0b1101#4 => some colours.bQueen
  | 0b1110#4 => some colours.bKing
  | _ => none

/-- A piece drawn over the background, which shows through its transparent pixels. -/
def SpriteColours.over (colours : SpriteColours) (piece : Piece) : Rgb :=
  match colours.piece piece with
  | some sprite => if isPiecePixel sprite then sprite else colours.cb
  | none => colours.cb

/-- The border of the selected square. -/
def Snapshot.bordered (s : Snapshot) (square : Square) (colours : SpriteColours) : Prop :=
  square = s.preSelVal ∧ s.highlightBorder ∧ isBorderPixel colours.sBorder

instance decidableBordered (s : Snapshot) (square : Square) (colours : SpriteColours) :
    Decidable (s.bordered square colours) := by
  unfold Snapshot.bordered
  infer_instance

theorem code_cases : ∀ code : Piece,
    code = 0#4 ∨ code = 1#4 ∨ code = 2#4 ∨ code = 3#4 ∨ code = 4#4 ∨ code = 5#4 ∨ code = 6#4 ∨
    code = 7#4 ∨ code = 8#4 ∨ code = 9#4 ∨ code = 10#4 ∨ code = 11#4 ∨ code = 12#4 ∨
    code = 13#4 ∨ code = 14#4 ∨ code = 15#4 := by
  decide

/-- A code matches at most one of the twelve branches. -/
theorem boardColour_eq (s : Snapshot) (square : Square) (colours : SpriteColours) :
    boardColour s square colours =
      if s.bordered square colours then colours.sBorder else colours.over (s.board square) := by
  unfold boardColour
  by_cases hborder : s.bordered square colours
  · rw [if_pos hborder, if_pos (by exact hborder)]
  · rw [if_neg hborder, if_neg (by exact hborder)]
    unfold SpriteColours.over SpriteColours.piece
    generalize s.board square = code
    rcases code_cases code with rfl | rfl | rfl | rfl | rfl | rfl | rfl | rfl | rfl | rfl | rfl |
      rfl | rfl | rfl | rfl | rfl <;> simp

/-! ## The screen-to-square maps -/

section Squares

variable {x y : Coord}

/-- On the board the quotients fit in 3 bits and nothing is cut. -/
theorem activeSquare_toNat (h : OnBoard x y) :
    (activeSquare x y).toNat = 8 * (y.toNat / 60) + x.toNat / 60 := by
  have hx : x.toNat < 480 := h.1
  have hy : y.toNat < 480 := h.2
  have hcolumn : (xIndex x).toNat = x.toNat / 60 := by
    rw [xIndex, BitVec.toNat_setWidth, BitVec.toNat_udiv]
    show x.toNat / 60 % 16 = _
    omega
  have hrow : (yIndex y).toNat = y.toNat / 60 := by
    rw [yIndex, BitVec.toNat_setWidth, BitVec.toNat_udiv]
    show y.toNat / 60 % 16 = _
    omega
  rw [activeSquare, BitVec.toNat_add, BitVec.toNat_mul, BitVec.toNat_setWidth,
    BitVec.toNat_setWidth, hcolumn, hrow]
  show (y.toNat / 60 % 64 * 8 % 64 + x.toNat / 60 % 64) % 64 = _
  omega

theorem hoveredValOUB_eq_false_iff : hoveredValOUB x y = false ↔ OnBoard x y := by
  unfold hoveredValOUB
  rw [ite_eq_left_iff]
  simp [OnBoard]

/-- The cursor's map to squares and the raster's agree. -/
theorem hoveredVal_eq_activeSquare (h : OnBoard x y) : hoveredVal x y = activeSquare x y := by
  apply BitVec.eq_of_toNat_eq
  rw [hoveredVal_toNat h.1 h.2, activeSquare_toNat h]

/-- The coordinates of a pixel's square. -/
theorem activeSquare_coordinates (h : OnBoard x y) :
    (activeSquare x y).r = y.toNat / 60 ∧ (activeSquare x y).c = x.toNat / 60 := by
  have hsquare := activeSquare_toNat h
  have hx : x.toNat < 480 := h.1
  unfold Square.r Square.c
  rw [hsquare]
  omega

end Squares

end SocChess
