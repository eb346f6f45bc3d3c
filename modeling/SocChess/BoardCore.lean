import Mathlib.Logic.Function.Basic
import SocChess.Lib.Clocked
import SocChess.Lib.SelectMove
import SocChess.GameLogic

/-!
# The chess core: game logic and board registers

`chess_renderer.sv` owns the 64 board registers and writes them through the port
that `chess_game_logic` drives one clock later. The chess core is the two
`always_ff` blocks together, both clocked by `reg_clk`. The game logic also reacts
to the rising edge of `chess_reset` itself; the board block samples it only at a
clock edge.

The second half of the module says once what a clock does in each state
(`tick_pieceToMove` and so on, in terms of the square under the cursor), gathers
this in the step relation `Core.Step`, and proves the invariant `Core.Inv` of every
state reached after a reset.
-/

namespace SocChess

open SelectMove (Click)

/-! ## The board registers -/

/-- Row 7 of the initial position. -/
def whiteBackRank : BitVec 3 → Piece
  | 0b000#3 => 0b0100#4
  | 0b001#3 => 0b0010#4
  | 0b010#3 => 0b0011#4
  | 0b011#3 => 0b0101#4
  | 0b100#3 => 0b0110#4
  | 0b101#3 => 0b0011#4
  | 0b110#3 => 0b0010#4
  | _ => 0b0100#4

/-- Row 0 of the initial position. -/
def blackBackRank : BitVec 3 → Piece
  | 0b000#3 => 0b1100#4
  | 0b001#3 => 0b1010#4
  | 0b010#3 => 0b1011#4
  | 0b011#3 => 0b1101#4
  | 0b100#3 => 0b1110#4
  | 0b101#3 => 0b1011#4
  | 0b110#3 => 0b1010#4
  | _ => 0b1100#4

/-- The values the reset branch of the board block writes: all 64 registers are
assigned. -/
def initialBoard : Board := fun sq =>
  match sq.row with
  | 0b111#3 => whiteBackRank sq.column
  | 0b110#3 => 0b0001#4
  | 0b001#3 => 0b1001#4
  | 0b000#3 => blackBackRank sq.column
  | _ => 0b0000#4

/-- The chess core: the game-logic registers and the board registers. -/
structure Core extends GameRegs where
  board : Board

/-- The board `always_ff` at a clock edge. -/
def Core.boardNext (c : Core) (resetChess : Bool) : Board :=
  if resetChess ∨ c.currState = .gameStart then initialBoard
  else if c.changeBoard then Function.update c.board c.pieceBoardAddr c.pieceChange
  else c.board

/-- What can happen to the core: a clock edge with the levels of its inputs, or a
rising edge of `chess_reset` between two clock edges. -/
inductive Event
  | clk (chessReset : Bool) (inp : Input)
  | resetRise
deriving DecidableEq, Repr

/-- Both blocks read the registers as they were before the edge. -/
def Core.next (c : Core) : Event → Core
  | .clk chessReset inp =>
    { toGameRegs := if chessReset then GameRegs.reset else c.toGameRegs.clock c.board inp
      board := c.boardNext chessReset }
  | .resetRise => { c with toGameRegs := GameRegs.reset }

/-- A clock edge with reset low. -/
def Core.tick (c : Core) (inp : Input) : Core := c.next (.clk false inp)

/-- The events that reset the game logic. -/
def Event.IsReset : Event → Prop
  | .clk chessReset _ => chessReset = true
  | .resetRise => True

instance (e : Event) : Decidable e.IsReset := by
  cases e <;> unfold Event.IsReset <;> infer_instance

/-- The run of the core over arbitrary events. -/
abbrev Core.run : Core → List Event → Core := Clocked.run Core.next

/-- The run of the core over clock edges with reset low. -/
abbrev Core.play : Core → List Input → Core := Clocked.run Core.tick

/-- The states reached after at least one reset, from any power-up contents. -/
abbrev Core.AfterReset : Core → Prop := Clocked.AfterReset Core.next Event.IsReset

theorem Core.run_clk (c : Core) (is : List Input) :
    c.run (is.map (Event.clk false)) = c.play is := Clocked.run_map ..

theorem Core.AfterReset.of_pulse (power : Core) (es : List Event) :
    (power.run (.resetRise :: es)).AfterReset :=
  Clocked.AfterReset.extend (.of_reset power trivial) es

theorem Core.AfterReset.play {c : Core} (h : c.AfterReset) (is : List Input) :
    (c.play is).AfterReset := by
  rw [← Core.run_clk]
  exact h.extend _

/-- The states between two moves. -/
def Core.Resting (c : Core) : Prop := c.currState = .pieceToMove ∨ c.currState = .moveLocation

instance (c : Core) : Decidable c.Resting := by
  unfold Core.Resting
  infer_instance

/-! ## The square under a click -/

/-- A non-empty piece of the colour of `player`. -/
def Piece.ownedBy (player : Bool) (piece : Piece) : Bool :=
  piece.colour = player ∧ piece.type ≠ 0#3

/-- What a click at a cursor position clicks on. -/
def cursorPlace (cursorX cursorY : Coord) : Click Square :=
  if hoveredValOUB cursorX cursorY then .offBoard else .on (hoveredVal cursorX cursorY)

/-- What one input means for the game. -/
def Input.click (inp : Input) : Click Square :=
  if inp.chessClick then cursorPlace inp.cursorX inp.cursorY else .released

/-- The button held (or not) with the cursor in the middle of `sq`. -/
def Input.over (chessClick : Bool) (sq : Square) : Input where
  chessClick := chessClick
  cursorX := sq.column.setWidth 10 * 60#10 + 30#10
  cursorY := sq.row.setWidth 10 * 60#10 + 30#10

/-- On the board nothing is cut. -/
theorem hoveredVal_toNat {x y : Coord} (hx : x < 480#10) (hy : y < 480#10) :
    (hoveredVal x y).toNat = 8 * (y.toNat / 60) + x.toNat / 60 := by
  have hx' : x.toNat < 480 := hx
  have hy' : y.toNat < 480 := hy
  have hsixty : (60#10).toNat = 60 := rfl
  have height : (8#10).toNat = 8 := rfl
  rw [hoveredVal, if_pos ⟨hx, hy⟩]
  simp only [BitVec.toNat_setWidth, BitVec.toNat_add, BitVec.toNat_mul, BitVec.toNat_udiv, hsixty,
    height]
  omega

theorem not_ownedBy_iff {player : Bool} {piece : Piece} :
    piece.ownedBy player = false ↔ piece.colour ≠ player ∨ piece.type = 0#3 := by
  simp [Piece.ownedBy]
  tauto

theorem ownedBy_not {player : Bool} {piece : Piece} (h : piece.ownedBy player) :
    piece.ownedBy (!player) = false := by
  simp only [Piece.ownedBy, decide_eq_true_eq] at h
  rw [not_ownedBy_iff]
  exact .inl (by rw [h.1]; simp)

/-! ## One clock, state by state -/

section Clock

variable {r : GameRegs} (board : Board) (inp : Input)

/-- In `PIECE_TO_MOVE` a click on an own piece selects it, and nothing else
matters. -/
theorem clock_pieceToMove (h : r.currState = .pieceToMove) :
    r.clock board inp =
      match inp.click with
      | .on d =>
        if (board d).ownedBy r.currPlayer then
          { r with changeBoard := false, currState := .moveLocation, preSelVal := d }
        else { r with changeBoard := false }
      | _ => { r with changeBoard := false } := by
  cases hclick : inp.chessClick <;>
    cases houtside : hoveredValOUB inp.cursorX inp.cursorY <;>
    simp [GameRegs.clock, h, Input.click, cursorPlace, Piece.ownedBy, hclick, houtside]

/-- In `MOVE_LOCATION` a click on an own piece selects it, a click on another
square moves there when `legal_move` holds, and every other click deselects. -/
theorem clock_moveLocation (h : r.currState = .moveLocation) :
    r.clock board inp =
      match inp.click with
      | .released => { r with changeBoard := false }
      | .offBoard => { r with changeBoard := false, currState := .pieceToMove }
      | .on d =>
        if (board d).ownedBy r.currPlayer then { r with changeBoard := false, preSelVal := d }
        else if legalMove board r.currPlayer r.preSelVal d then
          { r with
            changeBoard := true, currState := .replacePiece, pieceBoardAddr := d,
            pieceChange := board r.preSelVal }
        else { r with changeBoard := false, currState := .pieceToMove } := by
  unfold GameRegs.clock
  simp only [h]
  cases hclick : inp.chessClick with
  | false => simp [Input.click, hclick]
  | true =>
    cases houtside : hoveredValOUB inp.cursorX inp.cursorY with
    | true => simp [Input.click, cursorPlace, hclick, houtside]
    | false =>
      have hplace : inp.click = .on (hoveredVal inp.cursorX inp.cursorY) := by
        simp [Input.click, cursorPlace, hclick, houtside]
      rw [hplace]
      generalize hoveredVal inp.cursorX inp.cursorY = d
      -- The two tests on the hovered piece are complementary.
      cases hown : (board d).ownedBy r.currPlayer with
      | true =>
        have hpiece : (board d).colour = r.currPlayer ∧ (board d).type ≠ 0#3 := by
          simpa [Piece.ownedBy] using hown
        simp [hown, hpiece]
      | false =>
        have hfree := not_ownedBy_iff.mp hown
        have hnot : ¬ ((board d).colour = r.currPlayer ∧ (board d).type ≠ 0#3) := by tauto
        simp only [hfree, hnot]
        cases legalMove board r.currPlayer r.preSelVal d <;> simp [hown]

end Clock

section Tick

variable {c : Core} (inp : Input)

theorem tick_eq (c : Core) : c.tick inp = ⟨c.clock c.board inp, c.boardNext false⟩ := rfl

theorem tick_gameStart (h : c.currState = .gameStart) :
    c.tick inp =
      { c with
        currState := .pieceToMove, currPlayer := white, changeBoard := false,
        pieceBoardAddr := 0#6, pieceChange := 0#4, board := initialBoard } := by
  simp [Core.tick, Core.next, Core.boardNext, GameRegs.clock, h]

/-- While the write port is idle a clock leaves the board alone. -/
theorem boardNext_quiet (hstarted : c.currState ≠ .gameStart) (hquiet : c.changeBoard = false) :
    c.boardNext false = c.board := by
  simp [Core.boardNext, hstarted, hquiet]

theorem tick_pieceToMove (h : c.currState = .pieceToMove) (hquiet : c.changeBoard = false) :
    c.tick inp =
      match inp.click with
      | .on d =>
        if (c.board d).ownedBy c.currPlayer then
          { c with currState := .moveLocation, preSelVal := d }
        else c
      | _ => c := by
  rw [tick_eq, boardNext_quiet (by simp [h]) hquiet, clock_pieceToMove c.board inp h]
  obtain ⟨⟨state, player, pre, addr, piece, change⟩, board⟩ := c
  simp only at h hquiet
  subst h hquiet
  cases inp.click with
  | released | offBoard => rfl
  | on d => cases hown : (board d).ownedBy player <;> simp [hown]

theorem tick_moveLocation (h : c.currState = .moveLocation) (hquiet : c.changeBoard = false) :
    c.tick inp =
      match inp.click with
      | .released => c
      | .offBoard => { c with currState := .pieceToMove }
      | .on d =>
        if (c.board d).ownedBy c.currPlayer then { c with preSelVal := d }
        else if legalMove c.board c.currPlayer c.preSelVal d then
          { c with
            currState := .replacePiece, pieceBoardAddr := d,
            pieceChange := c.board c.preSelVal, changeBoard := true }
        else { c with currState := .pieceToMove } := by
  rw [tick_eq, boardNext_quiet (by simp [h]) hquiet, clock_moveLocation c.board inp h]
  obtain ⟨⟨state, player, pre, addr, piece, change⟩, board⟩ := c
  simp only at h hquiet
  subst h hquiet
  cases inp.click with
  | released | offBoard => rfl
  | on d =>
    cases hown : (board d).ownedBy player <;> cases hlegal : legalMove board player pre d <;>
      simp [hown, hlegal]

theorem tick_replacePiece (h : c.currState = .replacePiece) (hwrite : c.changeBoard = true) :
    c.tick inp =
      { c with
        currState := .discardPrevLocPiece, pieceBoardAddr := c.preSelVal, pieceChange := 0#4,
        board := Function.update c.board c.pieceBoardAddr c.pieceChange } := by
  simp [Core.tick, Core.next, Core.boardNext, GameRegs.clock, h, hwrite]

theorem tick_discardPrevLocPiece (h : c.currState = .discardPrevLocPiece)
    (hwrite : c.changeBoard = true) :
    c.tick inp =
      { c with
        currState := .pieceToMove, changeBoard := false, pieceBoardAddr := 0#6,
        pieceChange := 0#4, currPlayer := !c.currPlayer,
        board := Function.update c.board c.pieceBoardAddr c.pieceChange } := by
  simp [Core.tick, Core.next, Core.boardNext, GameRegs.clock, h, hwrite]

end Tick

/-! ## The invariant -/

/-- What holds in every state after a reset. The write port is idle between moves
and holds the pending write while a move is committed; the selected square holds
a piece of the side to move, and the pending move is legal. -/
structure Core.Inv (c : Core) : Prop where
  named : c.currState ≠ .unused
  quiet : c.Resting → c.changeBoard = false
  selected : c.currState = .moveLocation → (c.board c.preSelVal).ownedBy c.currPlayer
  replacing : c.currState = .replacePiece →
    c.changeBoard = true ∧ c.pieceChange = c.board c.preSelVal ∧
    (c.board c.preSelVal).ownedBy c.currPlayer ∧
    (c.board c.pieceBoardAddr).ownedBy c.currPlayer = false ∧
    legalMove c.board c.currPlayer c.preSelVal c.pieceBoardAddr = true
  discarding : c.currState = .discardPrevLocPiece →
    c.changeBoard = true ∧ c.pieceBoardAddr = c.preSelVal ∧ c.pieceChange = 0#4

/-- Everything a clock with reset low can do to a core that satisfies the invariant. -/
inductive Core.Step (c : Core) (inp : Input) : Core → Prop
  | start (hstate : c.currState = .gameStart) :
      Core.Step c inp
        { c with
          currState := .pieceToMove, currPlayer := white, changeBoard := false,
          pieceBoardAddr := 0#6, pieceChange := 0#4, board := initialBoard }
  | stay (hrest : c.Resting)
      (hfree : ∀ d, inp.click = .on d → (c.board d).ownedBy c.currPlayer = false)
      (hstill : c.currState = .moveLocation → inp.click = .released) : Core.Step c inp c
  | select {d : Square} (hrest : c.Resting) (hclick : inp.click = .on d)
      (hown : (c.board d).ownedBy c.currPlayer) :
      Core.Step c inp { c with currState := .moveLocation, preSelVal := d }
  | deselect (hstate : c.currState = .moveLocation) (hpressed : inp.click ≠ .released)
      (hfree : ∀ d, inp.click = .on d → (c.board d).ownedBy c.currPlayer = false ∧
        legalMove c.board c.currPlayer c.preSelVal d = false) :
      Core.Step c inp { c with currState := .pieceToMove }
  | accept {d : Square} (hstate : c.currState = .moveLocation) (hclick : inp.click = .on d)
      (hdest : (c.board d).ownedBy c.currPlayer = false)
      (hlegal : legalMove c.board c.currPlayer c.preSelVal d = true) :
      Core.Step c inp
        { c with
          currState := .replacePiece, pieceBoardAddr := d, pieceChange := c.board c.preSelVal,
          changeBoard := true }
  | replace (hstate : c.currState = .replacePiece) :
      Core.Step c inp
        { c with
          currState := .discardPrevLocPiece, pieceBoardAddr := c.preSelVal, pieceChange := 0#4,
          board := Function.update c.board c.pieceBoardAddr c.pieceChange }
  | discard (hstate : c.currState = .discardPrevLocPiece) :
      Core.Step c inp
        { c with
          currState := .pieceToMove, changeBoard := false, pieceBoardAddr := 0#6,
          pieceChange := 0#4, currPlayer := !c.currPlayer,
          board := Function.update c.board c.pieceBoardAddr c.pieceChange }

theorem tick_step {c : Core} (h : c.Inv) (inp : Input) : c.Step inp (c.tick inp) := by
  cases hstate : c.currState with
  | gameStart =>
    rw [tick_gameStart inp hstate]
    exact .start hstate
  | pieceToMove =>
    rw [tick_pieceToMove inp hstate (h.quiet (.inl hstate))]
    have hidle : ¬ c.currState = .moveLocation := by simp [hstate]
    cases hclick : inp.click with
    | released | offBoard => exact .stay (.inl hstate) (by simp [hclick]) (absurd · hidle)
    | on d =>
      cases hown : (c.board d).ownedBy c.currPlayer with
      | true =>
        simp only [hown, if_true]
        exact .select (.inl hstate) hclick hown
      | false =>
        simp only [hown, if_false, Bool.false_eq_true]
        exact .stay (.inl hstate) (by simp [hclick, hown]) (absurd · hidle)
  | moveLocation =>
    rw [tick_moveLocation inp hstate (h.quiet (.inr hstate))]
    cases hclick : inp.click with
    | released => exact .stay (.inr hstate) (by simp [hclick]) fun _ => hclick
    | offBoard => exact .deselect hstate (by simp [hclick]) (by simp [hclick])
    | on d =>
      cases hown : (c.board d).ownedBy c.currPlayer with
      | true =>
        -- Here `select` writes the state it is in.
        have hselect := Core.Step.select (.inr hstate) hclick hown
        rw [← hstate] at hselect
        simpa only [hown, if_true] using hselect
      | false =>
        cases hlegal : legalMove c.board c.currPlayer c.preSelVal d with
        | true =>
          simp only [hown, hlegal, if_true, if_false, Bool.false_eq_true]
          exact .accept hstate hclick hown hlegal
        | false =>
          simp only [hown, hlegal, if_false, Bool.false_eq_true]
          exact .deselect hstate (by simp [hclick]) (by simp [hclick, hown, hlegal])
  | replacePiece =>
    rw [tick_replacePiece inp hstate (h.replacing hstate).1]
    exact .replace hstate
  | discardPrevLocPiece =>
    rw [tick_discardPrevLocPiece inp hstate (h.discarding hstate).1]
    exact .discard hstate
  | unused => exact absurd hstate h.named

namespace Core.Inv

variable {c : Core}

theorem of_gameStart (h : c.currState = .gameStart) : c.Inv := by
  constructor <;> simp [h, Core.Resting]

theorem of_pieceToMove (h : c.currState = .pieceToMove) (hquiet : c.changeBoard = false) :
    c.Inv := by
  constructor <;> simp [h, hquiet]

theorem of_moveLocation (h : c.currState = .moveLocation) (hquiet : c.changeBoard = false)
    (hown : (c.board c.preSelVal).ownedBy c.currPlayer) : c.Inv := by
  constructor <;> simp [h, hquiet, hown]

theorem reset (c : Core) {e : Event} (he : e.IsReset) : (c.next e).Inv := by
  refine of_gameStart ?_
  cases e with
  | clk chessReset inp =>
    have hreset : chessReset = true := he
    subst hreset
    rfl
  | resetRise => rfl

theorem tick (h : c.Inv) (inp : Input) : (c.tick inp).Inv := by
  have hstep := tick_step h inp
  generalize c.tick inp = c' at hstep ⊢
  cases hstep with
  | start _ => exact of_pieceToMove rfl rfl
  | stay _ _ _ => exact h
  | select hrest _ hown => exact of_moveLocation rfl (h.quiet hrest) hown
  | deselect hstate _ _ => exact of_pieceToMove rfl (h.quiet (.inr hstate))
  | accept hstate _ hdest hlegal =>
    constructor <;> simp [Core.Resting, h.selected hstate, hdest, hlegal]
  | replace hstate => constructor <;> simp [Core.Resting, (h.replacing hstate).1]
  | discard _ => exact of_pieceToMove rfl rfl

theorem next (h : c.Inv) (e : Event) : (c.next e).Inv := by
  cases e with
  | clk chessReset inp =>
    cases chessReset with
    | true => exact reset c rfl
    | false => exact h.tick inp
  | resetRise => exact reset c trivial

theorem play (h : c.Inv) (is : List Input) : (c.play is).Inv :=
  Clocked.run_invariant (fun _ inp h => h.tick inp) h is

end Core.Inv

theorem Core.AfterReset.inv {c : Core} (h : c.AfterReset) : c.Inv :=
  Clocked.AfterReset.invariant (fun c _ he => .reset c he) (fun _ e h => h.next e) h

end SocChess
