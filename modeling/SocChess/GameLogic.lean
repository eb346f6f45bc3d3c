import Mathlib.Data.BitVec

/-!
# The game logic: `chess_game_logic.sv`

The module is a five-state machine clocked by `clk`, with an asynchronous
`chess_reset`, and the combinational signals it reads. A `logic [n-1:0]` is a
`BitVec n`, a one-bit `logic` a `Bool`. Each signal is a function of the
registers and inputs it is assigned from, and each `always_ff` branch writes the
registers it assigns and keeps the others.
-/

namespace SocChess

/-! ## Signal types -/

/-- A board address `{row, column}`: row `0` is the top (black) edge. -/
abbrev Square := BitVec 6

/-- A board entry `{colour, type}`. Type `000` is an empty square. -/
abbrev Piece := BitVec 4

/-- The array `logic [3:0] board[63:0]`. -/
abbrev Board := Square → Piece

/-- A 10-bit screen coordinate. -/
abbrev Coord := BitVec 10

/-- `sq[2:0]`. -/
def Square.column (sq : Square) : BitVec 3 := sq.extractLsb' 0 3

/-- `sq[5:3]`. -/
def Square.row (sq : Square) : BitVec 3 := sq.extractLsb' 3 3

/-- `piece[3]`. -/
def Piece.colour (piece : Piece) : Bool := piece.getLsbD 3

/-- `piece[2:0]`. -/
def Piece.type (piece : Piece) : BitVec 3 := piece.extractLsb' 0 3

abbrev white : Bool := false
abbrev black : Bool := true

/-- The values of `curr_state`. The encodings `101`, `110` and `111` have no name
in the source and share the `default` branch. -/
inductive CurrState
  | gameStart
  | pieceToMove
  | moveLocation
  | replacePiece
  | discardPrevLocPiece
  | unused
deriving DecidableEq, Repr

/-- The inputs sampled at a clock edge, besides `curr_board` and `chess_reset`. -/
structure Input where
  chessClick : Bool
  cursorX : Coord
  cursorY : Coord
deriving DecidableEq, Repr

/-- The registers of `chess_game_logic`. -/
structure GameRegs where
  currState : CurrState
  currPlayer : Bool
  preSelVal : Square
  pieceBoardAddr : Square
  pieceChange : Piece
  changeBoard : Bool
deriving DecidableEq, Repr

/-! ## Combinational signals -/

/-- `hovered_val`: the product and the sum are 10 bits wide and are then cut to
the 6 bits of the target. -/
def hoveredVal (cursorX cursorY : Coord) : Square :=
  if cursorX < 480#10 ∧ cursorY < 480#10 then
    ((cursorY / 60#10) * 8#10 + cursorX / 60#10).setWidth 6
  else 0#6

/-- `hovered_val_OUB`. -/
def hoveredValOUB (cursorX cursorY : Coord) : Bool :=
  if cursorX < 480#10 ∧ cursorY < 480#10 then false else true

/-- The unsigned distance of two 3-bit coordinates, in 4 bits. -/
def coordDiff (hovered preSel : BitVec 3) : BitVec 4 :=
  if preSel ≤ hovered then hovered.setWidth 4 - preSel.setWidth 4
  else preSel.setWidth 4 - hovered.setWidth 4

def horizontalDiff (preSelVal hoveredVal : Square) : BitVec 4 :=
  coordDiff hoveredVal.column preSelVal.column

def verticalDiff (preSelVal hoveredVal : Square) : BitVec 4 :=
  coordDiff hoveredVal.row preSelVal.row

/-- The `3'b001` arm of `legal_move` for White. -/
def legalPawnMoveWhite (currBoard : Board) (preSelVal hoveredVal : Square) : Bool :=
  let cursorPiece := currBoard hoveredVal
  let horizontal := horizontalDiff preSelVal hoveredVal
  let vertical := verticalDiff preSelVal hoveredVal
  if vertical = 2#4 ∧ horizontal = 0#4 ∧ preSelVal.row = 0b110#3 ∧
      cursorPiece.type = 0#3 ∧ Piece.type (currBoard (preSelVal - 0b001000#6)) = 0#3 ∧
      hoveredVal.row < preSelVal.row then true
  else if vertical = 1#4 ∧ horizontal = 0#4 ∧ cursorPiece.type = 0#3 ∧
      hoveredVal.row < preSelVal.row then true
  else if vertical = 1#4 ∧ horizontal = 1#4 ∧ cursorPiece.colour = black ∧
      cursorPiece.type ≠ 0#3 ∧ hoveredVal.row < preSelVal.row then true
  else false

/-- The `3'b001` arm of `legal_move` for Black. -/
def legalPawnMoveBlack (currBoard : Board) (preSelVal hoveredVal : Square) : Bool :=
  let cursorPiece := currBoard hoveredVal
  let horizontal := horizontalDiff preSelVal hoveredVal
  let vertical := verticalDiff preSelVal hoveredVal
  if vertical = 2#4 ∧ horizontal = 0#4 ∧ preSelVal.row = 0b001#3 ∧
      cursorPiece.type = 0#3 ∧ Piece.type (currBoard (preSelVal + 0b001000#6)) = 0#3 ∧
      preSelVal.row < hoveredVal.row then true
  else if vertical = 1#4 ∧ horizontal = 0#4 ∧ cursorPiece.type = 0#3 ∧
      preSelVal.row < hoveredVal.row then true
  else if vertical = 1#4 ∧ horizontal = 1#4 ∧ cursorPiece.colour = white ∧
      cursorPiece.type ≠ 0#3 ∧ preSelVal.row < hoveredVal.row then true
  else false

/-- `legal_move`. The pawn arm goes by `curr_player`, not by the colour bit of the
selected piece. -/
def legalMove (currBoard : Board) (currPlayer : Bool) (preSelVal hoveredVal : Square) : Bool :=
  let horizontal := horizontalDiff preSelVal hoveredVal
  let vertical := verticalDiff preSelVal hoveredVal
  match Piece.type (currBoard preSelVal) with
  | 0b001#3 =>
    if currPlayer = white then legalPawnMoveWhite currBoard preSelVal hoveredVal
    else legalPawnMoveBlack currBoard preSelVal hoveredVal
  | 0b010#3 =>
    (horizontal = 2#4 ∧ vertical = 1#4) ∨ (horizontal = 1#4 ∧ vertical = 2#4)
  | 0b011#3 => horizontal = vertical
  | 0b100#3 => horizontal = 0#4 ∨ vertical = 0#4
  | 0b101#3 => horizontal = 0#4 ∨ vertical = 0#4 ∨ horizontal = vertical
  | 0b110#3 => horizontal ≤ 1#4 ∧ vertical ≤ 1#4
  | _ => false

/-- `highlight_border`. -/
def GameRegs.highlightBorder (r : GameRegs) : Bool := r.currState = .moveLocation

/-! ## The state machine -/

/-- The `chess_reset` branch of the `always_ff`. -/
def GameRegs.reset : GameRegs where
  currState := .gameStart
  currPlayer := white
  preSelVal := 0#6
  pieceBoardAddr := 0#6
  pieceChange := 0#4
  changeBoard := false

/-- The `case (curr_state)` of the `always_ff`, taken at a clock edge with
`chess_reset` low. -/
def GameRegs.clock (r : GameRegs) (currBoard : Board) (inp : Input) : GameRegs :=
  let hovered := hoveredVal inp.cursorX inp.cursorY
  let outside := hoveredValOUB inp.cursorX inp.cursorY
  let cursorPiece := currBoard hovered
  let selectedPiece := currBoard r.preSelVal
  match r.currState with
  | .gameStart =>
    { r with
      currState := .pieceToMove, currPlayer := white, changeBoard := false,
      pieceBoardAddr := 0#6, pieceChange := 0#4 }
  | .pieceToMove =>
    if inp.chessClick ∧ ¬ outside ∧ cursorPiece.colour = r.currPlayer ∧
        cursorPiece.type ≠ 0#3 then
      { r with changeBoard := false, currState := .moveLocation, preSelVal := hovered }
    else { r with changeBoard := false }
  | .moveLocation =>
    if inp.chessClick then
      if ¬ outside ∧ (cursorPiece.colour ≠ r.currPlayer ∨ cursorPiece.type = 0#3) ∧
          legalMove currBoard r.currPlayer r.preSelVal hovered then
        { r with
          changeBoard := true, currState := .replacePiece, pieceBoardAddr := hovered,
          pieceChange := selectedPiece }
      else if ¬ outside ∧ cursorPiece.colour = r.currPlayer ∧ cursorPiece.type ≠ 0#3 then
        { r with changeBoard := false, preSelVal := hovered }
      else { r with changeBoard := false, currState := .pieceToMove }
    else { r with changeBoard := false }
  | .replacePiece =>
    { r with
      currState := .discardPrevLocPiece, changeBoard := true, pieceBoardAddr := r.preSelVal,
      pieceChange := 0#4 }
  | .discardPrevLocPiece =>
    { r with
      currState := .pieceToMove, changeBoard := false, pieceBoardAddr := 0#6,
      pieceChange := 0#4, currPlayer := !r.currPlayer }
  | .unused =>
    { currState := .gameStart, currPlayer := white, changeBoard := false,
      pieceBoardAddr := 0#6, pieceChange := 0#4, preSelVal := 0#6 }

end SocChess
