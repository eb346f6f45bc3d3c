import SocChess.BoardCore

/-!
# A move is one atomic step

The core commits a move over three clock edges: the destination is latched with
the click, the moved piece is written there one clock later, and the source is
cleared one clock after that. This module shows that the core nevertheless
simulates the select-and-move game in which a move is a single step.

* `chessRules` is the game: `legal_move` decides which moves are legal.
* `Core.game` is the abstraction. A half-committed move is already made.
* `tick_simulates`: one clock of the core is one click of the game, where the
  clicks of the two committing clocks are not seen (`Core.seen`).
* `core_simulates_game`: the run-level statement, from any power-up contents and
  any events before the latest reset.
-/

namespace SocChess

open SelectMove (Click Phase Game Rules relocate)

/-! ## The game and the abstraction -/

/-- Chess as the core plays it. -/
def chessRules : Rules Square Piece Bool where
  vacant := 0#4
  owns := Piece.ownedBy
  opponent := not
  legal := legalMove

/-- Idle, White to move, in the initial position. -/
def newGame : Game Square Piece Bool := ⟨.idle, initialBoard, white⟩

/-- The state of the game that a state of the core stands for. -/
def Core.game (c : Core) : Game Square Piece Bool :=
  match c.currState with
  | .pieceToMove => ⟨.idle, c.board, c.currPlayer⟩
  | .moveLocation => ⟨.selected c.preSelVal, c.board, c.currPlayer⟩
  | .replacePiece =>
    ⟨.idle, relocate 0#4 c.board c.preSelVal c.pieceBoardAddr, !c.currPlayer⟩
  | .discardPrevLocPiece =>
    ⟨.idle, Function.update c.board c.preSelVal 0#4, !c.currPlayer⟩
  | .gameStart => newGame
  | .unused => newGame

/-- The click the game sees: the inputs of a clock at which the core is starting
or committing a move have no effect. -/
def Core.seen (c : Core) (inp : Input) : Click Square :=
  if c.Resting then inp.click else .released

theorem chessRules_opponent (player : Bool) (piece : Piece)
    (h : chessRules.owns player piece) :
    chessRules.owns (chessRules.opponent player) piece = false := ownedBy_not h

/-! ## One clock -/

section Game

variable {c : Core}

theorem game_pieceToMove (h : c.currState = .pieceToMove) :
    c.game = ⟨.idle, c.board, c.currPlayer⟩ := by
  simp [Core.game, h]

theorem game_moveLocation (h : c.currState = .moveLocation) :
    c.game = ⟨.selected c.preSelVal, c.board, c.currPlayer⟩ := by
  simp [Core.game, h]

theorem Core.Inv.sound (h : c.Inv) : chessRules.Sound c.game := by
  cases hstate : c.currState with
  | moveLocation =>
    rw [game_moveLocation hstate]
    rintro s ⟨⟩
    exact h.selected hstate
  | pieceToMove | replacePiece | discardPrevLocPiece | gameStart | unused =>
    exact Rules.sound_of_idle (by simp [Core.game, hstate, newGame])

theorem seen_resting (h : c.Resting) (inp : Input) : c.seen inp = inp.click := if_pos h

theorem seen_busy (h : ¬ c.Resting) (inp : Input) : c.seen inp = .released := if_neg h

/-- One clock of the core is one click of the game. -/
theorem tick_simulates (h : c.Inv) (inp : Input) :
    (c.tick inp).game = chessRules.click c.game (c.seen inp) := by
  have hstep := tick_step h inp
  generalize c.tick inp = c' at hstep ⊢
  cases hstep with
  | start hstate =>
    rw [seen_busy (by simp [Core.Resting, hstate])]
    simp [Core.game, hstate, newGame, Rules.click]
  | stay hrest hfree hstill =>
    rw [seen_resting hrest]
    rcases hrest with hstate | hstate
    · rw [game_pieceToMove hstate]
      cases hclick : inp.click with
      | released => rfl
      | offBoard => rfl
      | on d => exact (Rules.click_idle rfl (by exact hfree d hclick)).symm
    · rw [hstill hstate]
      rfl
  | select hrest hclick hown =>
    rw [seen_resting hrest, hclick]
    rcases hrest with hstate | hstate
    · rw [game_pieceToMove hstate, Rules.click_on_own (by exact hown)]
      rfl
    · rw [game_moveLocation hstate, Rules.click_on_own (by exact hown)]
      rfl
  | deselect hstate hpressed hfree =>
    rw [seen_resting (.inr hstate), game_moveLocation hstate]
    cases hclick : inp.click with
    | released => exact absurd hclick hpressed
    | offBoard => rfl
    | on d =>
      obtain ⟨hown, hlegal⟩ := hfree d hclick
      rw [Rules.click_deselect rfl (by exact hown) (by exact hlegal)]
      rfl
  | accept hstate hclick hdest hlegal =>
    rw [seen_resting (.inr hstate), hclick, game_moveLocation hstate,
      Rules.click_move rfl (by exact hdest) (by exact hlegal)]
    rfl
  | replace hstate =>
    -- The first write is done now, the second one is pending on the port.
    obtain ⟨-, hpiece, -, -, -⟩ := h.replacing hstate
    rw [seen_busy (by simp [Core.Resting, hstate]), hpiece]
    simp [Core.game, hstate, Rules.click, relocate]
  | discard hstate =>
    obtain ⟨-, haddr, hpiece⟩ := h.discarding hstate
    rw [seen_busy (by simp [Core.Resting, hstate]), haddr, hpiece]
    simp [Core.game, hstate, Rules.click]

theorem play_simulates (h : c.Inv) (is : List Input) :
    (c.play is).game =
      Clocked.run chessRules.click c.game (Clocked.viewed Core.tick Core.seen c is) :=
  Clocked.run_simulates (fun _ inp h => h.tick inp) (fun _ inp h => tick_simulates h inp) h is

/-! ## Leaving the start state -/

/-- Only a reset leads back to `GAME_START`. -/
theorem tick_ne_gameStart (h : c.Inv) (inp : Input) : (c.tick inp).currState ≠ .gameStart := by
  have hstep := tick_step h inp
  generalize c.tick inp = c' at hstep ⊢
  cases hstep with
  | stay hrest _ _ => rcases hrest with hstate | hstate <;> simp [hstate]
  | start _ | select _ _ _ | deselect _ _ _ | accept _ _ _ _ | replace _ | discard _ => simp

theorem play_ne_gameStart (h : c.Inv) (hstarted : c.currState ≠ .gameStart) (is : List Input) :
    (c.play is).currState ≠ .gameStart := by
  refine (Clocked.run_invariant (I := fun c : Core => c.Inv ∧ c.currState ≠ .gameStart)
    ?_ ⟨h, hstarted⟩ is).2
  rintro c inp ⟨hinv, -⟩
  exact ⟨hinv.tick inp, tick_ne_gameStart hinv inp⟩

/-- Between two moves the core's registers are the state of the game. -/
theorem resting_game (h : c.Resting) :
    c.board = c.game.board ∧ c.currPlayer = c.game.player ∧
    (c.currState = .pieceToMove ↔ c.game.phase = .idle) ∧
    ∀ s, (c.currState = .moveLocation ∧ c.preSelVal = s) ↔ c.game.phase = .selected s := by
  rcases h with hstate | hstate
  · simp [game_pieceToMove hstate, hstate]
  · simp [game_moveLocation hstate, hstate]

end Game

/-! ## Runs -/

/-- The state after a reset is the start of a new game. -/
theorem reset_gameStart (c : Core) {r : Event} (hr : r.IsReset) :
    (c.next r).currState = .gameStart := by
  cases r with
  | clk chessReset inp =>
    have hhigh : chessReset = true := hr
    subst hhigh
    rfl
  | resetRise => rfl

/-- A property of the initial position that every legal move of an own piece keeps
holds of the board of the game in every state after a reset. -/
theorem Core.AfterReset.board_invariant {I : Board → Prop} (hinit : I initialBoard)
    (hmove : ∀ board player s d, I board → (board s).ownedBy player →
      (board d).ownedBy player = false → legalMove board player s d →
      I (relocate 0#4 board s d)) {c : Core} (hc : c.AfterReset) : I c.game.board := by
  have hreset : ∀ (c : Core) r, r.IsReset → (c.next r).Inv ∧ I (c.next r).game.board := by
    intro c r hr
    refine ⟨.reset c hr, ?_⟩
    have hgame : (c.next r).game = newGame := by simp [Core.game, reset_gameStart c hr]
    rw [hgame]
    exact hinit
  refine (Clocked.AfterReset.invariant (I := fun c : Core => c.Inv ∧ I c.game.board)
    hreset ?_ hc).2
  rintro c e ⟨hinv, hboard⟩
  cases e with
  | clk chessReset inp =>
    cases chessReset with
    | true => exact hreset c _ rfl
    | false =>
      refine ⟨hinv.tick inp, ?_⟩
      show I (c.tick inp).game.board
      rw [tick_simulates hinv inp]
      exact (Rules.board_invariant hmove hinv.sound hboard [c.seen inp]).2
  | resetRise => exact hreset c _ trivial

end SocChess
