import SocChess.AcceptedMove
import SocChess.Highlight

/-!
# A move changes the picture only where it should

The picture before an accepted move is that of the `MOVE_LOCATION` state in which the
destination is clicked, the picture after it that of the `PIECE_TO_MOVE` state three clocks
later. The cursor and the outputs of the sprite modules are the same for both.

* `rgbDisplay_board`, `rgbDisplay_panel`: a pixel of the board and one beside it.
* `move_changes_picture`: what may change and what is shown afterwards.
-/

namespace SocChess

open SelectMove (relocate relocate_source relocate_target relocate_other)

/-- A pixel of the picture, blanking excluded. -/
def Visible (x y : Coord) : Prop := x < 640#10 ∧ y < 480#10

instance decidableVisible (x y : Coord) : Decidable (Visible x y) := by
  unfold Visible
  infer_instance

section Pixel

variable {snapshot : Snapshot} {p : CursorDisc} {x y : Coord} {colours : SpriteColours}

theorem rgbDisplay_board (hball : p.ballOn x y = false) (h : OnBoard x y) :
    rgbDisplay snapshot p x y colours = boardColour snapshot (activeSquare x y) colours := by
  rw [rgbDisplay, if_neg (by simp [hball]), if_pos h]

/-- Without a border a square shows its piece over the background. -/
theorem boardColour_plain {square : Square} (h : snapshot.highlightBorder = false) :
    boardColour snapshot square colours = colours.over (snapshot.board square) := by
  have hplain : ¬ snapshot.bordered square colours := by
    rintro ⟨-, hborder, -⟩
    rw [h] at hborder
    cases hborder
  rw [boardColour_eq, if_neg hplain]

/-- The border is drawn on the selected square only. -/
theorem boardColour_other {square : Square} (h : square ≠ snapshot.preSelVal) :
    boardColour snapshot square colours = colours.over (snapshot.board square) := by
  have hplain : ¬ snapshot.bordered square colours := fun hborder => h hborder.1
  rw [boardColour_eq, if_neg hplain]

/-- The middle rows beside the board are the same for both players. -/
theorem rgbDisplay_panel (hball : p.ballOn x y = false) (h : ¬ OnBoard x y) (hlow : ¬ y < 60#10)
    (hhigh : ¬ 420#10 < y) : rgbDisplay snapshot p x y colours = panelColour := by
  rw [rgbDisplay, if_neg (by simp [hball]), if_neg h, if_neg (fun hturn => hhigh hturn.2),
    if_neg (fun hturn => hlow hturn.2)]

/-- The cursor disc hides the rest. -/
theorem rgbDisplay_ball (hball : p.ballOn x y = true) :
    rgbDisplay snapshot p x y colours = ballColour := by
  rw [rgbDisplay, if_pos hball]

/-- What a piece shows: its sprite or the background. -/
theorem over_cases (colours : SpriteColours) (piece : Piece) :
    colours.over piece = colours.cb ∨ colours.piece piece = some (colours.over piece) := by
  unfold SpriteColours.over
  cases colours.piece piece with
  | none => exact .inl rfl
  | some sprite =>
    cases hsolid : isPiecePixel sprite with
    | false => exact .inl (by simp [hsolid])
    | true => exact .inr (by simp [hsolid])

end Pixel

/-- Let the core accept a move from `s` to `d`, and compare the picture before the click
with the picture after the move, pixel by pixel, whatever the sprite modules output and
wherever the cursor is. On the board only the blocks of `s` and `d` change. Afterwards, and
outside the cursor disc, the block of `d` shows the moved piece or the background and the
block of `s` the background. Beside the board only the rows above 60 and below 420 change. -/
theorem move_changes_picture {c : Core} (hc : c.AfterReset) {inp : Input} {s d : Square}
    (hmove : c.accepted inp = some (s, d)) (i₁ i₂ : Input) (p : CursorDisc)
    (colours : Coord → Coord → SpriteColours) :
    let after := ((c.tick inp).tick i₁).tick i₂
    let old := fun x y => rgbDisplay c.snapshot p x y (colours x y)
    let new := fun x y => rgbDisplay after.snapshot p x y (colours x y)
    c.currState = .moveLocation ∧ after.currState = .pieceToMove ∧
    ∀ x y, Visible x y →
      (x < 480#10 → ¬ InBlock s x y → ¬ InBlock d x y → new x y = old x y) ∧
      (p.ballOn x y = false → InBlock d x y →
        new x y = (colours x y).cb ∨ (colours x y).piece (c.board s) = some (new x y)) ∧
      (p.ballOn x y = false → InBlock s x y → new x y = (colours x y).cb) ∧
      (480#10 ≤ x → new x y ≠ old x y → y < 60#10 ∨ 420#10 < y) := by
  intro after old new
  obtain ⟨hstate, -, hs, hdest, -⟩ := accepted_eq_some.mp hmove
  obtain ⟨hregs, hboard⟩ := commit_accepted hc.inv hmove i₁ i₂
  have hown := hc.inv.selected hstate
  rw [← hs] at hown
  have hne : s ≠ d := chessRules.source_ne hown hdest
  have hafter : after.currState = .pieceToMove := congrArg GameRegs.currState hregs
  have hplain : after.snapshot.highlightBorder = false := by
    simp [Core.snapshot, GameRegs.highlightBorder, hafter]
  have hpicture : after.snapshot.board = relocate 0#4 c.board s d := hboard
  refine ⟨hstate, hafter, fun x y hvisible => ⟨?_, ?_, ?_, ?_⟩⟩
  · intro hx hsource htarget
    have hon : OnBoard x y := ⟨hx, hvisible.2⟩
    -- The square is neither `s`, which had the border, nor `d`.
    have hsq : activeSquare x y ≠ s := fun hsame => hsource (inBlock_iff.mp ⟨hon, hsame⟩)
    have hselected : activeSquare x y ≠ c.snapshot.preSelVal := by
      rw [hs] at hsq
      exact hsq
    have hdq : activeSquare x y ≠ d := fun hsame => htarget (inBlock_iff.mp ⟨hon, hsame⟩)
    show rgbDisplay after.snapshot p x y _ = rgbDisplay c.snapshot p x y _
    cases hball : p.ballOn x y with
    | true => rw [rgbDisplay_ball hball, rgbDisplay_ball hball]
    | false =>
      rw [rgbDisplay_board hball hon, rgbDisplay_board hball hon, boardColour_plain hplain,
        boardColour_other hselected, hpicture, relocate_other _ _ hsq hdq]
      rfl
  · intro hball hblock
    obtain ⟨hon, hsquare⟩ := inBlock_iff.mpr hblock
    have hnew : new x y = (colours x y).over (c.board s) := by
      show rgbDisplay after.snapshot p x y _ = _
      rw [rgbDisplay_board hball hon, boardColour_plain hplain, hsquare, hpicture,
        relocate_target _ _ hne]
    rw [hnew]
    exact over_cases _ _
  · intro hball hblock
    obtain ⟨hon, hsquare⟩ := inBlock_iff.mpr hblock
    show rgbDisplay after.snapshot p x y _ = _
    rw [rgbDisplay_board hball hon, boardColour_plain hplain, hsquare, hpicture,
      relocate_source]
    rfl
  · intro hx hchanged
    have hoff : ¬ OnBoard x y := fun hon => absurd hon.1 (BitVec.not_lt.mpr hx)
    by_contra hmiddle
    rw [not_or] at hmiddle
    refine hchanged ?_
    show rgbDisplay after.snapshot p x y _ = rgbDisplay c.snapshot p x y _
    cases hball : p.ballOn x y with
    | true => rw [rgbDisplay_ball hball, rgbDisplay_ball hball]
    | false =>
      rw [rgbDisplay_panel hball hoff hmiddle.1 hmiddle.2,
        rgbDisplay_panel hball hoff hmiddle.1 hmiddle.2]

/-- After `e4` a pixel of the block of `e2` shows the background, with the cursor on `e4`. -/
theorem move_changes_picture_opening :
    let c := (Core.run ⟨.reset, fun _ => 0#4⟩
      [.resetRise, .clk false (.over false 0#6)]).play [.over true 52#6]
    let after := ((c.tick (.over true 36#6)).tick (.over true 36#6)).tick (.over false 36#6)
    let pink : Rgb := ⟨0xF#4, 0x8#4, 0xD#4⟩
    let green : Rgb := ⟨0x7#4, 0x9#4, 0x5#4⟩
    rgbDisplay after.snapshot ⟨270#10, 270#10, 4#10⟩ 270#10 390#10
      ⟨green, pink, pink, pink, pink, pink, pink, pink, pink, pink, pink, pink, pink, pink⟩ =
      green := by
  intro c after pink green
  have hc : c.AfterReset := Core.AfterReset.play (.of_pulse _ _) _
  have hmove : c.accepted (.over true 36#6) = some (52#6, 36#6) := by decide
  obtain ⟨-, -, hpixels⟩ := move_changes_picture hc hmove (.over true 36#6) (.over false 36#6)
    ⟨270#10, 270#10, 4#10⟩ fun _ _ =>
      ⟨green, pink, pink, pink, pink, pink, pink, pink, pink, pink, pink, pink, pink, pink⟩
  obtain ⟨-, -, hsource, -⟩ := hpixels 270#10 390#10 (by decide)
  exact hsource (by decide) (by unfold InBlock Square.c Square.r; decide)

end SocChess
