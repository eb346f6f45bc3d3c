import SocChess.ChessRenderer
import SocChess.AtomicMove

/-!
# What is highlighted is what was clicked

The game logic maps the cursor to a square and the renderer maps the raster position to a
square; `pre_sel_val` comes from the first map and is compared with the second.

* `Core.picks`: the clicks that select a piece.
* `inBlock_iff`: the pixels of a square are a block of 60 by 60.
* `highlight_is_click`: in every state with the border on, it is drawn around the position
  of the latest selecting click, on a piece of the side to move.
-/

namespace SocChess

open SelectMove (Click)

/-- The cursor is on an own piece and the button is down in a state that looks at it. -/
def Core.picks (c : Core) (inp : Input) : Bool :=
  match inp.click with
  | .on d => c.Resting ∧ (c.board d).ownedBy c.currPlayer
  | _ => false

/-- The pixel lies in the block of 60 by 60 of the square `sq`. -/
def InBlock (sq : Square) (x y : Coord) : Prop :=
  (60 * sq.c ≤ x.toNat ∧ x.toNat < 60 * sq.c + 60) ∧
  (60 * sq.r ≤ y.toNat ∧ y.toNat < 60 * sq.r + 60)

/-! ## Blocks -/

section Blocks

variable {x y : Coord} {sq : Square}

theorem inBlock_activeSquare (h : OnBoard x y) : InBlock (activeSquare x y) x y := by
  obtain ⟨hr, hc⟩ := activeSquare_coordinates h
  rw [InBlock, hr, hc]
  omega

/-- The pixels of the board whose square is `sq` are its block. -/
theorem inBlock_iff : OnBoard x y ∧ activeSquare x y = sq ↔ InBlock sq x y := by
  constructor
  · rintro ⟨hboard, rfl⟩
    exact inBlock_activeSquare hboard
  · rintro ⟨⟨hxlow, hxhigh⟩, hylow, hyhigh⟩
    have hr := sq.r_range
    have hc := sq.c_range
    have hboard : OnBoard x y := by
      refine ⟨BitVec.lt_def.mpr ?_, BitVec.lt_def.mpr ?_⟩ <;> simp only [BitVec.toNat_ofNat] <;>
        omega
    obtain ⟨hrow, hcol⟩ := activeSquare_coordinates hboard
    refine ⟨hboard, Square.eq_of_coordinates ?_ ?_⟩
    · rw [hrow]
      omega
    · rw [hcol]
      omega

end Blocks

/-! ## Selecting -/

section Select

variable {c : Core} {inp : Input}

theorem click_eq_on {d : Square} (h : inp.click = .on d) :
    OnBoard inp.cursorX inp.cursorY ∧ hoveredVal inp.cursorX inp.cursorY = d := by
  unfold Input.click cursorPlace at h
  split at h
  · split at h
    · cases h
    · next houtside =>
      have hinside : hoveredValOUB inp.cursorX inp.cursorY = false := by simpa using houtside
      exact ⟨hoveredValOUB_eq_false_iff.mp hinside, by simpa using h⟩
  · cases h

/-- The clicks that select are those after which the border is on and that were on an own
piece. -/
theorem picks_eq_true (h : c.picks inp = true) :
    ∃ d, inp.click = .on d ∧ c.Resting ∧ (c.board d).ownedBy c.currPlayer := by
  unfold Core.picks at h
  split at h
  · next d hclick => exact ⟨d, hclick, of_decide_eq_true h⟩
  · cases h

theorem tick_picks (h : c.Inv) (hpick : c.picks inp = true) :
    (c.tick inp).currState = .moveLocation ∧
    InBlock (c.tick inp).preSelVal inp.cursorX inp.cursorY := by
  obtain ⟨d, hclick, hrest, hown⟩ := picks_eq_true hpick
  have hstep := tick_step h inp
  generalize c.tick inp = c' at hstep ⊢
  cases hstep with
  | select _ hselected _ =>
    obtain ⟨hboard, rfl⟩ := click_eq_on hselected
    refine ⟨rfl, ?_⟩
    show InBlock (hoveredVal inp.cursorX inp.cursorY) inp.cursorX inp.cursorY
    rw [hoveredVal_eq_activeSquare hboard]
    exact inBlock_activeSquare hboard
  | stay _ hfree _ =>
    rw [hfree d hclick] at hown
    cases hown
  | deselect _ _ hfree =>
    rw [(hfree d hclick).1] at hown
    cases hown
  | accept _ hclick' hdest _ =>
    obtain rfl := Click.on.inj (hclick.symm.trans hclick')
    rw [hdest] at hown
    cases hown
  | start hstate | replace hstate | discard hstate => simp [Core.Resting, hstate] at hrest

/-- Without a selecting click the border stays on only around the same square. -/
theorem tick_not_picks (h : c.Inv) (hpick : c.picks inp = false)
    (hnext : (c.tick inp).currState = .moveLocation) :
    c.currState = .moveLocation ∧ (c.tick inp).preSelVal = c.preSelVal := by
  have hstep := tick_step h inp
  generalize c.tick inp = c' at hstep hnext ⊢
  cases hstep with
  | stay _ _ _ => exact ⟨hnext, rfl⟩
  | select hrest hclick hown => simp [Core.picks, hclick, hrest, hown] at hpick
  | start _ | deselect _ _ _ | accept _ _ _ _ | replace _ | discard _ => simp at hnext

end Select

/-! ## Runs -/

/-- The selected square contains the cursor position of the latest selecting click. -/
theorem play_selected {start : Core} (h : start.Inv) (hstart : start.currState ≠ .moveLocation)
    (is : List Input) (hend : (start.play is).currState = .moveLocation) :
    ∃ front inp back, Clocked.Latest Core.tick Core.picks start is front inp back ∧
      InBlock (start.play is).preSelVal inp.cursorX inp.cursorY := by
  refine Clocked.run_latest (I := Core.Inv) (P := fun c : Core => c.currState = .moveLocation)
    (R := fun (inp : Input) (c : Core) => InBlock c.preSelVal inp.cursorX inp.cursorY)
    ?_ ?_ ?_ ?_ h hstart is hend
  · exact fun c inp h => h.tick inp
  · exact fun c inp h hsel => (tick_picks h hsel).2
  · exact fun c inp h hsel hnext => (tick_not_picks h hsel hnext).1
  · intro c inp inp₀ h hsel hnext hblock
    rwa [(tick_not_picks h hsel hnext).2]

/-- The two screen-to-square maps agree on the whole board and on where it ends. In every
state of a run since a reset with the border on, the pixels with the highlighted square are
one block of 60 by 60, which contains the cursor position of the latest selecting click, and
the square holds a piece of the side to move. -/
theorem highlight_is_click (power : Core) (before : List Event) {r : Event} (hr : r.IsReset)
    (is : List Input) :
    (∀ x y : Coord, (hoveredValOUB x y = false ↔ OnBoard x y) ∧
      (OnBoard x y → hoveredVal x y = activeSquare x y ∧
        (activeSquare x y).toNat = 8 * (y.toNat / 60) + x.toNat / 60)) ∧
    let start := power.run (before ++ [r])
    let c := start.play is
    c.highlightBorder = true →
      (∀ x y, OnBoard x y ∧ activeSquare x y = c.preSelVal ↔ InBlock c.preSelVal x y) ∧
      (∃ front inp back, Clocked.Latest Core.tick Core.picks start is front inp back ∧
        InBlock c.preSelVal inp.cursorX inp.cursorY) ∧
      (c.board c.preSelVal).ownedBy c.currPlayer := by
  refine ⟨fun x y => ⟨hoveredValOUB_eq_false_iff, fun h =>
    ⟨hoveredVal_eq_activeSquare h, activeSquare_toNat h⟩⟩, ?_⟩
  intro start c hborder
  have hstate : c.currState = .moveLocation := of_decide_eq_true hborder
  have hstart : start = (power.run before).next r := Clocked.run_concat power before r
  have hinv : start.Inv := hstart ▸ Core.Inv.reset (power.run before) hr
  have hfirst : start.currState ≠ .moveLocation := by
    rw [hstart, reset_gameStart _ hr]
    simp
  refine ⟨fun x y => inBlock_iff, ?_, (hinv.play is).selected hstate⟩
  exact play_selected hinv hfirst is hstate

/-- With the king's pawn of White selected. -/
theorem highlight_is_click_opening :
    let start := Core.run ⟨.reset, fun _ => 0#4⟩ ([] ++ [.resetRise])
    let c := start.play [.over false 0#6, .over true 52#6, .over false 9#6]
    (c.board c.preSelVal).ownedBy c.currPlayer := by
  intro start c
  obtain ⟨-, hborder⟩ := highlight_is_click ⟨.reset, fun _ => 0#4⟩ [] (r := .resetRise) trivial
    [.over false 0#6, .over true 52#6, .over false 9#6]
  obtain ⟨-, -, hown⟩ := hborder (by decide)
  exact hown

end SocChess
