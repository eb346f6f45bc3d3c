import SocChess.Material

/-!
# The moves the core accepts

* `Core.accepted`: the source and the destination of the move that a clock accepts.
* `accepted_isSome_iff`: these are the clocks that lead to `REPLACE_PIECE`.
* `tick_board`: what a clock does to the board of the game.
* `commit_accepted`: where the core is three clocks later.
-/

namespace SocChess

open SelectMove (Click Rules relocate)

/-- The source and the destination of the move accepted at a clock. -/
def Core.accepted (c : Core) (inp : Input) : Option (Square × Square) :=
  if c.currState = .moveLocation then
    match inp.click with
    | .on d =>
      if (c.board d).ownedBy c.currPlayer = false ∧
          legalMove c.board c.currPlayer c.preSelVal d = true then
        some (c.preSelVal, d)
      else none
    | _ => none
  else none

section Accepted

variable {c : Core} {inp : Input}

theorem accepted_eq_some {s d : Square} :
    c.accepted inp = some (s, d) ↔
      c.currState = .moveLocation ∧ inp.click = .on d ∧ s = c.preSelVal ∧
      (c.board d).ownedBy c.currPlayer = false ∧ legalMove c.board c.currPlayer s d = true := by
  unfold Core.accepted
  split
  · next hstate =>
    cases hclick : inp.click with
    | released | offBoard => simp
    | on q =>
      simp only [Option.ite_none_right_eq_some, Option.some.injEq, Prod.mk.injEq, Click.on.injEq,
        hstate, true_and]
      constructor
      · rintro ⟨⟨hown, hlegal⟩, rfl, rfl⟩
        exact ⟨rfl, rfl, hown, hlegal⟩
      · rintro ⟨rfl, rfl, hown, hlegal⟩
        exact ⟨⟨hown, hlegal⟩, rfl, rfl⟩
  · next hstate => simp [hstate]

/-- The clocks that accept a move are those after which the core is in
`REPLACE_PIECE`. -/
theorem accepted_isSome_iff (h : c.Inv) :
    (c.accepted inp).isSome ↔ (c.tick inp).currState = .replacePiece := by
  constructor
  · intro hsome
    obtain ⟨⟨s, d⟩, hmove⟩ := Option.isSome_iff_exists.mp hsome
    obtain ⟨hstate, hclick, rfl, hown, hlegal⟩ := accepted_eq_some.mp hmove
    rw [tick_moveLocation inp hstate (h.quiet (.inr hstate)), hclick]
    simp [hown, hlegal]
  · intro hnext
    obtain ⟨d, hstate, hclick, hown, htick⟩ := previous_of_replace h hnext
    have hlegal := ((h.tick inp).replacing hnext).2.2.2.2
    rw [htick] at hlegal
    rw [Option.isSome_iff_exists]
    exact ⟨(c.preSelVal, d), accepted_eq_some.mpr ⟨hstate, hclick, rfl, hown, hlegal⟩⟩

variable (inp) in
/-- What a clock does to the board of the game. -/
theorem tick_board (h : c.Inv) :
    (c.tick inp).game.board =
      match c.accepted inp with
      | some (s, d) => relocate 0#4 c.game.board s d
      | none => c.game.board := by
  rw [tick_simulates h inp]
  cases haccepted : c.accepted inp with
  | some move =>
    obtain ⟨s, d⟩ := move
    obtain ⟨hstate, hclick, rfl, hown, hlegal⟩ := accepted_eq_some.mp haccepted
    have hseen : c.seen inp = .on d := by rw [seen_resting (.inr hstate), hclick]
    rw [hseen, game_moveLocation hstate, Rules.click_move rfl (by exact hown) (by exact hlegal)]
    rfl
  | none =>
    rcases chessRules.click_cases c.game (c.seen inp) with
      heq | heq | ⟨d, -, -, heq⟩ | ⟨s, d, hseen, hphase, hown, hlegal, -⟩
    · rw [heq]
    · rw [heq]
    · rw [heq]
    · -- A move of the game is a move the core accepts.
      have hrest : c.Resting := by
        by_contra hbusy
        rw [seen_busy hbusy] at hseen
        cases hseen
      obtain ⟨hboard, hplayer, -, hselected⟩ := resting_game hrest
      obtain ⟨hstate, rfl⟩ := (hselected s).mpr hphase
      rw [← hboard, ← hplayer] at hown hlegal
      have hclick : inp.click = .on d := (seen_resting hrest inp).symm.trans hseen
      rw [accepted_eq_some.mpr ⟨hstate, hclick, rfl, hown, hlegal⟩] at haccepted
      cases haccepted

/-- Whatever the inputs of the two committing clocks are, the next player is to move in the
position after the move. -/
theorem commit_accepted (h : c.Inv) {s d : Square} (hmove : c.accepted inp = some (s, d))
    (i₁ i₂ : Input) :
    (((c.tick inp).tick i₁).tick i₂).toGameRegs =
        { c.toGameRegs with
          currState := .pieceToMove, changeBoard := false, pieceBoardAddr := 0#6,
          pieceChange := 0#4, currPlayer := !c.currPlayer } ∧
    (((c.tick inp).tick i₁).tick i₂).board = relocate 0#4 c.board s d := by
  obtain ⟨hstate, hclick, rfl, hown, hlegal⟩ := accepted_eq_some.mp hmove
  have hfirst : c.tick inp =
      { c with
        currState := .replacePiece, pieceBoardAddr := d, pieceChange := c.board c.preSelVal,
        changeBoard := true } := by
    rw [tick_moveLocation inp hstate (h.quiet (.inr hstate)), hclick]
    simp [hown, hlegal]
  rw [hfirst, tick_replacePiece i₁ rfl rfl, tick_discardPrevLocPiece i₂ rfl rfl]
  exact ⟨rfl, rfl⟩

end Accepted

end SocChess
