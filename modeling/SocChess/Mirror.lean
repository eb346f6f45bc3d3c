import SocChess.BoardCore

/-!
# White and Black play by the same rules

The pawn rules are written twice in the source, once per side. Turning the board
upside down and swapping the colours exchanges the two copies.

* `legalMove_mirror`: a move is legal iff its mirror image is legal for the other
  side on the mirrored board.
* `Mirrored`: two states of the core that are each other's mirror image, the dead
  write port aside.
* `Mirrored.tick`: one clock keeps mirrored states mirrored, given mirrored inputs.
* `mirrored_play`: so does every run without reset.
-/

namespace SocChess

open SelectMove (Click)

/-! ## Mirror images -/

/-- Row `r` becomes `7 - r`. -/
def Square.mirror (sq : Square) : Square := (7#3 - sq.row) ++ sq.column

/-- The colour bit of a non-empty piece is swapped. -/
def Piece.mirror (piece : Piece) : Piece :=
  if piece.type = 0#3 then piece else piece ^^^ 0b1000#4

/-- The vertical flip of a board, with the colours swapped. -/
def Board.mirror (board : Board) : Board := fun sq => Piece.mirror (board (Square.mirror sq))

/-- A cursor row on the board becomes `479 - cursorY`; the other rows are kept. -/
def Input.mirror (inp : Input) : Input :=
  { inp with cursorY := if inp.cursorY < 480#10 then 479#10 - inp.cursorY else inp.cursorY }

namespace Square

@[simp] theorem mirror_mirror : ∀ sq : Square, sq.mirror.mirror = sq := by decide +kernel

@[simp] theorem column_mirror : ∀ sq : Square, sq.mirror.column = sq.column := by decide +kernel

@[simp] theorem row_mirror : ∀ sq : Square, sq.mirror.row = 7#3 - sq.row := by decide +kernel

/-- The midpoints of the two double pawn steps are mirror images. -/
theorem mirror_add_eight : ∀ sq : Square, sq.mirror + 8#6 = (sq - 8#6).mirror := by
  decide +kernel

theorem mirror_inj {s d : Square} : s.mirror = d.mirror ↔ s = d :=
  Function.Involutive.injective mirror_mirror |>.eq_iff

end Square

namespace Piece

@[simp] theorem mirror_mirror : ∀ piece : Piece, piece.mirror.mirror = piece := by decide

@[simp] theorem mirror_zero : Piece.mirror 0#4 = 0#4 := rfl

@[simp] theorem type_mirror : ∀ piece : Piece, piece.mirror.type = piece.type := by decide

theorem colour_mirror : ∀ piece : Piece, piece.type ≠ 0#3 →
    piece.mirror.colour = !piece.colour := by decide

@[simp] theorem ownedBy_mirror : ∀ (player : Bool) (piece : Piece),
    piece.mirror.ownedBy (!player) = piece.ownedBy player := by decide

end Piece

namespace Board

@[simp] theorem mirror_apply (board : Board) (sq : Square) :
    Board.mirror board sq.mirror = (board sq).mirror := by
  simp [Board.mirror]

@[simp] theorem mirror_mirror (board : Board) : Board.mirror (Board.mirror board) = board := by
  funext sq
  simp [Board.mirror]

theorem mirror_update (board : Board) (sq : Square) (piece : Piece) :
    Board.mirror (Function.update board sq piece) =
      Function.update (Board.mirror board) sq.mirror piece.mirror := by
  funext q
  obtain ⟨q, rfl⟩ : ∃ q', q = Square.mirror q' := ⟨q.mirror, q.mirror_mirror.symm⟩
  rw [mirror_apply]
  by_cases h : q = sq
  · rw [h, Function.update_self, Function.update_self]
  · have hmirror : q.mirror ≠ sq.mirror := Square.mirror_inj.not.mpr h
    rw [Function.update_of_ne h, Function.update_of_ne hmirror, mirror_apply]

end Board

/-! ## The rules -/

theorem coordDiff_flip : ∀ a b : BitVec 3, coordDiff (7#3 - a) (7#3 - b) = coordDiff a b := by
  decide

theorem flip_lt_flip : ∀ a b : BitVec 3, 7#3 - a < 7#3 - b ↔ b < a := by decide

theorem flip_eq_one : ∀ a : BitVec 3, 7#3 - a = 1#3 ↔ a = 6#3 := by decide

@[simp] theorem horizontalDiff_mirror (s d : Square) :
    horizontalDiff s.mirror d.mirror = horizontalDiff s d := by
  simp [horizontalDiff]

@[simp] theorem verticalDiff_mirror (s d : Square) :
    verticalDiff s.mirror d.mirror = verticalDiff s d := by
  simp [verticalDiff, coordDiff_flip]

section Rules

variable (board : Board) (s d : Square)

/-- Black's pawn arm is White's on the mirrored board. -/
theorem legalPawnMove_mirror :
    legalPawnMoveBlack (Board.mirror board) s.mirror d.mirror = legalPawnMoveWhite board s d := by
  have hmid : Board.mirror board (s.mirror + 8#6) = Piece.mirror (board (s - 8#6)) := by
    rw [Square.mirror_add_eight, Board.mirror_apply]
  unfold legalPawnMoveBlack legalPawnMoveWhite
  simp only [horizontalDiff_mirror, verticalDiff_mirror, Square.row_mirror, Board.mirror_apply,
    Piece.type_mirror, hmid, flip_lt_flip, flip_eq_one]
  -- The colour bit is read on occupied squares only, where the mirror swaps it.
  by_cases hpiece : (board d).type = 0#3
  · simp [hpiece]
  · simp [hpiece, Piece.colour_mirror]

theorem legalMove_mirror_white :
    legalMove (Board.mirror board) black s.mirror d.mirror = legalMove board white s d := by
  unfold legalMove
  simp only [horizontalDiff_mirror, verticalDiff_mirror, Board.mirror_apply, Piece.type_mirror]
  simp [legalPawnMove_mirror]

/-- A move is legal for one side iff its mirror image is for the other. -/
theorem legalMove_mirror (player : Bool) :
    legalMove (Board.mirror board) (!player) s.mirror d.mirror = legalMove board player s d := by
  cases player with
  | false => exact legalMove_mirror_white board s d
  | true =>
    have h := legalMove_mirror_white (Board.mirror board) s.mirror d.mirror
    simp only [Board.mirror_mirror, Square.mirror_mirror] at h
    exact h.symm

end Rules

/-! ## The cursor -/

theorem mirror_toNat : ∀ sq : Square,
    sq.mirror.toNat = 8 * (7 - sq.toNat / 8) + sq.toNat % 8 := by decide +kernel

theorem toNat_flip {y : Coord} (hy : y < 480#10) : (479#10 - y).toNat = 479 - y.toNat := by
  have hy' : y.toNat < 480 := hy
  refine BitVec.toNat_sub_of_le ?_
  rw [BitVec.le_def]
  exact Nat.le_of_lt_succ hy'

theorem flip_lt_of_lt {y : Coord} (hy : y < 480#10) : 479#10 - y < 480#10 := by
  show (479#10 - y).toNat < 480
  rw [toNat_flip hy]
  omega

theorem hoveredVal_mirror {x y : Coord} (hx : x < 480#10) (hy : y < 480#10) :
    hoveredVal x (479#10 - y) = (hoveredVal x y).mirror := by
  have hx' : x.toNat < 480 := hx
  have hy' : y.toNat < 480 := hy
  apply BitVec.eq_of_toNat_eq
  rw [hoveredVal_toNat hx (flip_lt_of_lt hy), mirror_toNat, hoveredVal_toNat hx hy, toNat_flip hy]
  omega

theorem cursorPlace_mirror (x y : Coord) :
    cursorPlace x (if y < 480#10 then 479#10 - y else y) = (cursorPlace x y).map Square.mirror := by
  by_cases hy : y < 480#10
  · have hrow : 479#10 - y < 480#10 := flip_lt_of_lt hy
    by_cases hx : x < 480#10
    · simp [cursorPlace, hoveredValOUB, hx, hy, hrow, hoveredVal_mirror hx hy, Click.map]
    · simp [cursorPlace, hoveredValOUB, hx, Click.map]
  · simp [cursorPlace, hoveredValOUB, hy, Click.map]

theorem click_mirror (inp : Input) : inp.mirror.click = inp.click.map Square.mirror := by
  cases hclick : inp.chessClick with
  | false => simp [Input.click, Input.mirror, hclick, Click.map]
  | true =>
    have hplace := cursorPlace_mirror inp.cursorX inp.cursorY
    simpa [Input.click, Input.mirror, hclick] using hplace

/-! ## The core -/

/-- Two states of the core that are each other's mirror image. The write port is
compared only while it is enabled. -/
structure Core.Mirrored (c c' : Core) : Prop where
  playing : c.currState ∈
    [CurrState.pieceToMove, .moveLocation, .replacePiece, .discardPrevLocPiece]
  currState : c'.currState = c.currState
  changeBoard : c'.changeBoard = c.changeBoard
  currPlayer : c'.currPlayer = !c.currPlayer
  preSelVal : c'.preSelVal = c.preSelVal.mirror
  write : c.changeBoard = true →
    c'.pieceBoardAddr = c.pieceBoardAddr.mirror ∧ c'.pieceChange = c.pieceChange.mirror
  board : c'.board = Board.mirror c.board

namespace Core.Mirrored

variable {c c' : Core}

/-- The board registers of mirrored states are written alike. -/
theorem boardNext (h : c.Mirrored c') :
    c'.boardNext false = Board.mirror (c.boardNext false) := by
  have hstarted : c.currState ≠ .gameStart := by
    intro hstate
    have hplaying := h.playing
    rw [hstate] at hplaying
    exact absurd hplaying (by decide)
  have hstarted' : c'.currState ≠ .gameStart := h.currState.symm ▸ hstarted
  cases hwrite : c.changeBoard with
  | false =>
    have hwrite' : c'.changeBoard = false := h.changeBoard.trans hwrite
    rw [boardNext_quiet hstarted hwrite, boardNext_quiet hstarted' hwrite', h.board]
  | true =>
    have hwrite' : c'.changeBoard = true := h.changeBoard.trans hwrite
    obtain ⟨haddr, hpiece⟩ := h.write hwrite
    simp [Core.boardNext, hstarted, hstarted', hwrite, hwrite', haddr, hpiece, h.board,
      Board.mirror_update]

/-- One clock keeps mirrored states mirrored. -/
theorem tick (h : c.Mirrored c') (inp : Input) : (c.tick inp).Mirrored (c'.tick inp.mirror) := by
  have hplaying := h.playing
  rw [tick_eq, tick_eq, h.boardNext, h.board]
  cases hstate : c.currState with
  | pieceToMove =>
    have hstate' : c'.currState = .pieceToMove := h.currState.trans hstate
    rw [clock_pieceToMove _ inp hstate, clock_pieceToMove _ _ hstate', click_mirror, h.currPlayer]
    cases inp.click with
    | released | offBoard =>
      constructor <;> simp [Click.map, hstate, hstate', h.preSelVal]
    | on d =>
      cases hown : (c.board d).ownedBy c.currPlayer <;> constructor <;>
        simp [Click.map, hown, hstate, hstate', h.preSelVal]
  | moveLocation =>
    have hstate' : c'.currState = .moveLocation := h.currState.trans hstate
    rw [clock_moveLocation _ inp hstate, clock_moveLocation _ _ hstate', click_mirror, h.currPlayer,
      h.preSelVal]
    cases inp.click with
    | released | offBoard => constructor <;> simp [Click.map, hstate, hstate']
    | on d =>
      cases hown : (c.board d).ownedBy c.currPlayer <;>
        cases hlegal : legalMove c.board c.currPlayer c.preSelVal d <;> constructor <;>
        simp [Click.map, hown, hlegal, legalMove_mirror, hstate, hstate']
  | replacePiece =>
    have hstate' : c'.currState = .replacePiece := h.currState.trans hstate
    constructor <;> simp [GameRegs.clock, hstate, hstate', h.preSelVal, h.currPlayer]
  | discardPrevLocPiece =>
    have hstate' : c'.currState = .discardPrevLocPiece := h.currState.trans hstate
    constructor <;> simp [GameRegs.clock, hstate, hstate', h.preSelVal, h.currPlayer]
  | gameStart | unused => exact absurd (hstate ▸ hplaying) (by decide)

end Core.Mirrored

/-- Every run without reset keeps mirrored states mirrored. -/
theorem mirrored_play {c c' : Core} (h : c.Mirrored c') (is : List Input) :
    (c.play is).Mirrored (c'.play (is.map Input.mirror)) :=
  Clocked.run_related (fun _ _ inp h => h.tick inp) h is

/-- The initial position is its own mirror image. -/
theorem initialBoard_mirror : Board.mirror initialBoard = initialBoard := by
  funext sq
  revert sq
  decide +kernel

/-- `e2` to `e4` and `e7` to `e5` lead to mirrored boards. -/
theorem mirrored_play_opening :
    let toMove (player : Bool) : Core :=
      { currState := .pieceToMove, currPlayer := player, preSelVal := 0#6, pieceBoardAddr := 9#6,
        pieceChange := 0#4, changeBoard := false, board := initialBoard }
    let is : List Input := [.over true 52#6, .over true 36#6, .over false 3#6, .over false 7#6]
    let mirrored : Core := { toMove black with preSelVal := 56#6 }
    (mirrored.play (is.map Input.mirror)).board = Board.mirror ((toMove white).play is).board := by
  intro toMove is mirrored
  have h : (toMove white).Mirrored mirrored :=
    ⟨by decide, rfl, rfl, rfl, by decide, nofun, initialBoard_mirror.symm⟩
  exact (mirrored_play h is).board

end SocChess
