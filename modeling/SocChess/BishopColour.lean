import SocChess.LegalMove
import SocChess.AtomicMove

/-!
# Bishops stay on their colour

A legal move of a bishop changes row and column by the same distance, so it keeps
the parity of their sum, and no other move writes a bishop code. Initially each
side has one bishop on each colour.

* `bishopsApart_relocate`: what one legal move keeps.
* `bishops_on_different_colours`: every resting state after a reset.
-/

namespace SocChess

open SelectMove (relocate relocate_cases)

/-! ## Square colours -/

/-- The parity of row + column. -/
def Square.shade (sq : Square) : Int := (sq.r + sq.c) % 2

/-- The code of the bishops of `side`. -/
def bishopOf (side : Bool) : Piece := if side = white then 0b0011#4 else 0b1011#4

/-- On the squares of one colour each side has at most one bishop. -/
def Board.BishopsApart (board : Board) : Prop :=
  ∀ (side : Bool) (p q : Square), board p = bishopOf side → board q = bishopOf side →
    p.shade = q.shade → p = q

theorem bishopOf_type (side : Bool) : (bishopOf side).type = 0b011#3 := by
  cases side <;> rfl

theorem bishopOf_ne_empty (side : Bool) : bishopOf side ≠ 0#4 := by
  cases side <;> decide

theorem initialBoard_bishopsApart : Board.BishopsApart initialBoard := by
  unfold Board.BishopsApart Square.shade Square.r Square.c
  decide +kernel

/-! ## One move -/

section Move

variable {board : Board} {player : Bool} {s d : Square}

theorem shade_of_bishopRule (h : BishopRule s d) : d.shade = s.shade := by
  unfold BishopRule at h
  unfold Square.shade
  rcases abs_eq_abs.mp h with hsame | hopposite
  · omega
  · omega

theorem legal_bishop_shade (hlegal : legalMove board player s d = true)
    (htype : (board s).type = 0b011#3) : d.shade = s.shade := by
  refine shade_of_bishopRule ((bishop_iff s d).mp ?_)
  simpa [legalMove, htype] using hlegal

/-- Where a bishop on the board after a move came from: it is the moved piece on the
destination, which is on a square of the colour of the source, or it did not move. -/
theorem bishop_before (hne : s ≠ d) (hlegal : legalMove board player s d = true) {side : Bool}
    {p : Square} (hp : relocate 0#4 board s d p = bishopOf side) :
    (p = d ∧ board s = bishopOf side ∧ d.shade = s.shade) ∨
      (p ≠ s ∧ p ≠ d ∧ board p = bishopOf side) := by
  rcases relocate_cases 0#4 board hne p with ⟨-, heq⟩ | ⟨hdest, heq⟩ | ⟨hs, hd, heq⟩
  · rw [heq] at hp
    exact absurd hp.symm (bishopOf_ne_empty side)
  · rw [heq] at hp
    have htype : (board s).type = 0b011#3 := by rw [hp, bishopOf_type]
    exact .inl ⟨hdest, hp, legal_bishop_shade hlegal htype⟩
  · rw [heq] at hp
    exact .inr ⟨hs, hd, hp⟩

theorem bishopsApart_relocate (h : Board.BishopsApart board) (hne : s ≠ d)
    (hlegal : legalMove board player s d = true) :
    Board.BishopsApart (relocate 0#4 board s d) := by
  intro side p q hp hq hshade
  rcases bishop_before hne hlegal hp with ⟨rfl, hps, hpshade⟩ | ⟨hpsource, hpdest, hpstay⟩
  · rcases bishop_before hne hlegal hq with ⟨rfl, -, -⟩ | ⟨hqsource, -, hqstay⟩
    · rfl
    · have hsame : s = q := h side s q hps hqstay (hpshade.symm.trans hshade)
      exact absurd hsame.symm hqsource
  · rcases bishop_before hne hlegal hq with ⟨rfl, hqs, hqshade⟩ | ⟨-, -, hqstay⟩
    · have hsame : p = s := h side p s hpstay hqs (hshade.trans hqshade)
      exact absurd hsame hpsource
    · exact h side p q hpstay hqstay hshade

end Move

/-! ## Runs -/

/-- In every resting state after a reset, for each side and each square colour at
most one bishop of that side stands on a square of that colour. -/
theorem bishops_on_different_colours {c : Core} (hc : c.AfterReset) (hrest : c.Resting) :
    Board.BishopsApart c.board := by
  rw [(resting_game hrest).1]
  refine hc.board_invariant initialBoard_bishopsApart ?_
  intro board player s d h hown hdest hlegal
  exact bishopsApart_relocate h (chessRules.source_ne hown hdest) hlegal

/-- After the opening `g4 g5 Bg2 Bg7` of both king's bishops. -/
theorem bishops_on_different_colours_opening :
    Board.BishopsApart ((Core.run ⟨.reset, fun _ => 0#4⟩
      [.resetRise, .clk false (.over false 0#6)]).play
        [.over true 54#6, .over true 38#6, .over false 0#6, .over false 0#6,
          .over true 14#6, .over true 30#6, .over false 0#6, .over false 0#6,
          .over true 61#6, .over true 54#6, .over false 0#6, .over false 0#6]).board :=
  bishops_on_different_colours (Core.AfterReset.play (.of_pulse _ _) _) (by decide +kernel)

end SocChess
