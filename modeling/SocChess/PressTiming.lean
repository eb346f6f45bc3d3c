import SocChess.AtomicMove

/-!
# The click is a level

`chess_click` is sampled at every clock, with no edge detector, so one press of
the button is a long run of clicks. This module says what a press can do.

* `press_timing`: with the cursor inside one square (or off the board) for the
  press, neither the length of the press, nor the length of the pause after it,
  nor the cursor motion during the pause matters.
* `held_press_two_moves`: with the cursor moving under a held button, one press
  can make two moves.
* `held_press_moves`: every move under a held button needs a selection of its
  own, so a second move needs the cursor to be brought, after the first one, onto
  a piece of the side then to move.
-/

namespace SocChess

open SelectMove (Click Phase Game Rules)

/-! ## Clocks with the button released -/

/-- The number of clocks until the core rests. -/
def Core.pending (c : Core) : Nat :=
  match c.currState with
  | .replacePiece => 2
  | .discardPrevLocPiece => 1
  | _ => 0

section Released

variable {c : Core}

theorem pending_le_two (c : Core) : c.pending ≤ 2 := by
  unfold Core.pending
  split <;> decide

/-- Without a click a resting core stays as it is. -/
theorem tick_released (h : c.Inv) (hrest : c.Resting) {inp : Input}
    (hclick : inp.click = .released) : c.tick inp = c := by
  rcases hrest with hstate | hstate
  · rw [tick_pieceToMove inp hstate (h.quiet (.inl hstate)), hclick]
  · rw [tick_moveLocation inp hstate (h.quiet (.inr hstate)), hclick]

/-- Without a click a pending move comes one clock closer to its end. -/
theorem pending_tick (h : c.Inv) (hstarted : c.currState ≠ .gameStart) {inp : Input}
    (hclick : inp.click = .released) : (c.tick inp).pending = c.pending - 1 := by
  cases hstate : c.currState with
  | gameStart => exact absurd hstate hstarted
  | pieceToMove =>
    rw [tick_released h (.inl hstate) hclick]
    simp [Core.pending, hstate]
  | moveLocation =>
    rw [tick_released h (.inr hstate) hclick]
    simp [Core.pending, hstate]
  | replacePiece =>
    rw [tick_replacePiece inp hstate (h.replacing hstate).1]
    simp [Core.pending, hstate]
  | discardPrevLocPiece =>
    rw [tick_discardPrevLocPiece inp hstate (h.discarding hstate).1]
    simp [Core.pending, hstate]
  | unused => exact absurd hstate h.named

theorem resting_of_pending (h : c.Inv) (hstarted : c.currState ≠ .gameStart)
    (hpending : c.pending = 0) : c.Resting := by
  cases hstate : c.currState with
  | gameStart => exact absurd hstate hstarted
  | pieceToMove => exact .inl hstate
  | moveLocation => exact .inr hstate
  | replacePiece => simp [Core.pending, hstate] at hpending
  | discardPrevLocPiece => simp [Core.pending, hstate] at hpending
  | unused => exact absurd hstate h.named

theorem play_released (h : c.Inv) (hstarted : c.currState ≠ .gameStart) {is : List Input}
    (hreleased : ∀ i ∈ is, i.click = .released) (hlength : c.pending ≤ is.length) :
    (c.play is).Resting := by
  induction is generalizing c with
  | nil => exact resting_of_pending h hstarted (Nat.le_zero.mp hlength)
  | cons i is ih =>
    have hnext := pending_tick h hstarted (hreleased i List.mem_cons_self)
    refine ih (h.tick i) (tick_ne_gameStart h i) ?_ ?_
    · exact fun j hj => hreleased j (List.mem_cons_of_mem _ hj)
    · rw [List.length_cons] at hlength
      rw [hnext]
      exact Nat.sub_le_of_le_add hlength

end Released

theorem Core.Resting.started {c : Core} (h : c.Resting) : c.currState ≠ .gameStart := by
  rcases h with hstate | hstate <;> simp [hstate]

/-- A resting core is determined, up to the dead write port and a dead selection,
by the game it stands for. -/
theorem resting_eq_of_game_eq {c c' : Core} (h : c.Resting) (h' : c'.Resting)
    (hgame : c.game = c'.game) :
    c.currState = c'.currState ∧ c.currPlayer = c'.currPlayer ∧ c.board = c'.board ∧
    (c.currState = .moveLocation → c.preSelVal = c'.preSelVal) := by
  rcases h with hstate | hstate <;> rcases h' with hstate' | hstate' <;>
    simp [Core.game, hstate, hstate'] at hgame ⊢ <;> tauto

/-! ## Presses -/

/-- A press of the button on one place: `held` are the cursor positions of the
clocks with the click high, `gap` those of the clocks with the click low that
follow, long enough for a move to be committed. -/
structure Press where
  place : Click Square
  held : List (Coord × Coord)
  gap : List (Coord × Coord)
  held_ne_nil : held ≠ []
  stays : ∀ pos ∈ held, cursorPlace pos.1 pos.2 = place
  two_le_gap : 2 ≤ gap.length

/-- The inputs with the click at one level and the cursor at `positions`. -/
def clicksAt (chessClick : Bool) (positions : List (Coord × Coord)) : List Input :=
  positions.map fun pos => ⟨chessClick, pos.1, pos.2⟩

def Press.inputs (p : Press) : List Input := clicksAt true p.held ++ clicksAt false p.gap

theorem click_of_mem_clicksAt_false {positions : List (Coord × Coord)} {i : Input}
    (h : i ∈ clicksAt false positions) : i.click = .released := by
  obtain ⟨pos, -, rfl⟩ := List.mem_map.mp h
  simp [Input.click]

theorem click_of_mem_clicksAt_true {positions : List (Coord × Coord)} {place : Click Square}
    (hstays : ∀ pos ∈ positions, cursorPlace pos.1 pos.2 = place) {i : Input}
    (h : i ∈ clicksAt true positions) : i.click = place := by
  obtain ⟨pos, hpos, rfl⟩ := List.mem_map.mp h
  simpa [Input.click] using hstays pos hpos

section Place

variable {c : Core} {place : Click Square}

/-- From a resting state, clicks on one place mixed with clocks without a click
are one click of the game, provided the first clock is a click. -/
theorem play_one_place (h : c.Inv) (hrest : c.Resting) {first : Input} {rest : List Input}
    (hfirst : first.click = place) (hall : ∀ i ∈ rest, i.click = place ∨ i.click = .released) :
    (c.play (first :: rest)).game = chessRules.click c.game place := by
  have hseen : c.seen first = place := by simp [Core.seen, hrest, hfirst]
  rw [play_simulates h]
  simp only [Clocked.viewed, Clocked.run_cons, hseen]
  refine Rules.run_same_place chessRules_opponent h.sound place fun k hk => ?_
  obtain ⟨c', i, hmem, rfl⟩ := Clocked.mem_viewed hk
  unfold Core.seen
  split
  · exact hall i hmem
  · exact .inr rfl

end Place

/-- One press is one click of the game, and it leaves the core resting. -/
theorem play_press {c : Core} (h : c.Inv) (hrest : c.Resting) (p : Press) :
    (c.play p.inputs).game = chessRules.click c.game p.place ∧ (c.play p.inputs).Resting := by
  have hheld := fun i => click_of_mem_clicksAt_true (i := i) p.stays
  have hgap : ∀ i ∈ clicksAt false p.gap, i.click = .released :=
    fun _ hi => click_of_mem_clicksAt_false hi
  constructor
  · obtain ⟨pos, held, hsplit⟩ := List.exists_cons_of_ne_nil p.held_ne_nil
    have hinputs : p.inputs =
        ⟨true, pos.1, pos.2⟩ :: (clicksAt true held ++ clicksAt false p.gap) := by
      simp [Press.inputs, hsplit, clicksAt]
    rw [hinputs]
    refine play_one_place h hrest (hheld _ (by simp [hsplit, clicksAt])) fun i hi => ?_
    rcases List.mem_append.mp hi with hi | hi
    · refine .inl (hheld i ?_)
      rw [hsplit]
      exact List.mem_cons_of_mem _ hi
    · exact .inr (hgap i hi)
  · have hinv : (c.play (clicksAt true p.held)).Inv := h.play _
    have hstarted := play_ne_gameStart h hrest.started (clicksAt true p.held)
    rw [Press.inputs, Core.play, Clocked.run_append]
    refine play_released hinv hstarted hgap ?_
    calc (c.play (clicksAt true p.held)).pending ≤ 2 := pending_le_two _
      _ ≤ p.gap.length := p.two_le_gap
      _ = (clicksAt false p.gap).length := (List.length_map _).symm

theorem play_presses {c : Core} (h : c.Inv) (hrest : c.Resting) (ps : List Press) :
    (c.play (ps.flatMap Press.inputs)).game =
      Clocked.run chessRules.click c.game (ps.map Press.place) ∧
    (c.play (ps.flatMap Press.inputs)).Resting := by
  induction ps generalizing c with
  | nil => exact ⟨rfl, hrest⟩
  | cons p ps ih =>
    obtain ⟨hgame, hrest'⟩ := play_press h hrest p
    rw [List.flatMap_cons, Core.play, Clocked.run_append, List.map_cons, Clocked.run_cons,
      ← hgame]
    exact ih (h.play _) hrest'

/-- Press timing does not matter: two lists of presses on the same places, with
any lengths of the presses and of the gaps and any cursor motion in the gaps,
take the core from one resting state to the same state, up to the write port and
a selection that is not in use. In particular `qs` may hold each press for one
clock and release it for two. -/
theorem press_timing {c : Core} (hc : c.AfterReset) (hrest : c.Resting) (ps qs : List Press)
    (hsame : ps.map Press.place = qs.map Press.place) :
    let c₁ := c.play (ps.flatMap Press.inputs)
    let c₂ := c.play (qs.flatMap Press.inputs)
    c₁.currState = c₂.currState ∧ c₁.currPlayer = c₂.currPlayer ∧ c₁.board = c₂.board ∧
    (c₁.currState = .moveLocation → c₁.preSelVal = c₂.preSelVal) := by
  obtain ⟨hgame₁, hrest₁⟩ := play_presses hc.inv hrest ps
  obtain ⟨hgame₂, hrest₂⟩ := play_presses hc.inv hrest qs
  refine resting_eq_of_game_eq hrest₁ hrest₂ ?_
  rw [hgame₁, hgame₂, hsame]

theorem cursorPlace_corner : ∀ sq : Square,
    cursorPlace (sq.column.setWidth 10 * 60#10) (sq.row.setWidth 10 * 60#10) = .on sq := by
  decide +kernel

/-- The shortest press on a square: one clock down at its corner and two clocks up. -/
def Press.tap (sq : Square) : Press where
  place := .on sq
  held := [(sq.column.setWidth 10 * 60#10, sq.row.setWidth 10 * 60#10)]
  gap := [(0#10, 0#10), (0#10, 0#10)]
  held_ne_nil := List.cons_ne_nil _ _
  stays := by
    intro pos hpos
    rw [List.mem_singleton.mp hpos]
    exact cursorPlace_corner sq
  two_le_gap := le_rfl

/-- A tap on the square of the king's pawn and a long press on its destination, with
the cursor wandering afterwards, do what two taps do. -/
theorem press_timing_opening :
    let long : Press :=
      { place := .on 36#6
        held := [(240#10, 240#10), (299#10, 299#10), (250#10, 290#10)]
        gap := [(700#10, 9#10), (3#10, 1000#10), (240#10, 80#10)]
        held_ne_nil := List.cons_ne_nil _ _
        stays := by
          intro pos hpos
          simp only [List.mem_cons, List.not_mem_nil, or_false] at hpos
          rcases hpos with rfl | rfl | rfl <;> decide
        two_le_gap := by decide }
    let c := Core.run ⟨.reset, fun _ => 0#4⟩ [.resetRise, .clk false (.over false 0#6)]
    (c.play ([.tap 52#6, long].flatMap Press.inputs)).board =
      (c.play ([.tap 52#6, .tap 36#6].flatMap Press.inputs)).board := by
  intro long c
  have hc : c.AfterReset := .of_pulse _ _
  exact (press_timing hc (by decide) [.tap 52#6, long] [.tap 52#6, .tap 36#6] rfl).2.2.1

/-! ## A held press with a moving cursor -/

/-- The number of times `curr_player` flips along a run. -/
def Core.flips (c : Core) (is : List Input) : Nat :=
  Clocked.changes Core.tick (·.currPlayer) c is

/-- At this clock the idle core selects a piece of the side to move. -/
def Core.selects (c : Core) (inp : Input) : Bool :=
  match inp.click with
  | .on d => c.currState = .pieceToMove && (c.board d).ownedBy c.currPlayer
  | _ => false

/-- The number of selections by the idle core along a run. -/
def Core.selections (c : Core) (is : List Input) : Nat :=
  Clocked.total Core.tick Core.selects c is

/-- One while a piece is selected or being moved, zero while the core is idle. -/
def Core.engaged (c : Core) : Nat := if c.currState = .pieceToMove then 0 else 1

section Held

variable {c : Core}

/-- A flip ends an engagement, and only a selection starts one. -/
theorem flip_pays (h : c.Inv) (hstarted : c.currState ≠ .gameStart) (inp : Input) :
    (if (c.tick inp).currPlayer = c.currPlayer then 0 else 1) + (c.tick inp).engaged ≤
      c.engaged + if c.selects inp then 1 else 0 := by
  have hstep := tick_step h inp
  generalize c.tick inp = c' at hstep ⊢
  cases hstep with
  | start hstate => exact absurd hstate hstarted
  | stay _ _ _ => simp
  | select hrest hclick hown =>
    rcases hrest with hstate | hstate
    · simp [Core.engaged, Core.selects, hclick, hstate, hown]
    · simp [Core.engaged, hstate]
  | deselect _ _ _ => simp [Core.engaged]
  | accept hstate _ _ _ | replace hstate | discard hstate => simp [Core.engaged, hstate]

/-- Only the last clock of a move flips the player. -/
theorem flip_ends (h : c.Inv) (hstarted : c.currState ≠ .gameStart) (inp : Input)
    (hflip : (c.tick inp).currPlayer ≠ c.currPlayer) : (c.tick inp).engaged = 0 := by
  have hstep := tick_step h inp
  generalize c.tick inp = c' at hstep hflip ⊢
  cases hstep with
  | start hstate => exact absurd hstate hstarted
  | discard _ => simp [Core.engaged]
  | stay _ _ _ | select _ _ _ | deselect _ _ _ | accept _ _ _ _ | replace _ =>
    exact absurd rfl hflip

/-- A click that does not change the game selects nothing. -/
theorem not_selects_of_click_eq {place : Click Square}
    (hfixed : chessRules.click c.game place = c.game) {inp : Input} (hclick : inp.click = place) :
    c.selects inp = false := by
  rw [Bool.eq_false_iff]
  intro hsel
  unfold Core.selects at hsel
  rw [hclick] at hsel
  cases place with
  | released | offBoard => simp at hsel
  | on d =>
    simp only [Bool.and_eq_true, decide_eq_true_eq] at hsel
    obtain ⟨hstate, hown⟩ := hsel
    rw [game_pieceToMove hstate, Rules.click_on_own (by exact hown)] at hfixed
    simp at hfixed

/-- After a first click on a place the game no longer changes on it. -/
theorem click_eq_of_play_place {place : Click Square} (h : c.Inv) (hrest : c.Resting)
    {first : Input} {rest : List Input} (hall : ∀ i ∈ first :: rest, i.click = place) :
    chessRules.click (c.play (first :: rest)).game place = (c.play (first :: rest)).game := by
  have hgame := play_one_place h hrest (hall first List.mem_cons_self)
    fun j hj => .inl (hall j (List.mem_cons_of_mem _ hj))
  rw [hgame]
  exact Rules.click_click chessRules_opponent h.sound place

end Held

/-- One press can move for both sides: the button is held from `e2` to `e4`, and on
from `e7` to `e5`, and `curr_player` flips twice. -/
theorem held_press_two_moves :
    ¬ ∀ c : Core, c.AfterReset → c.Resting → ∀ positions : List (Coord × Coord),
      c.flips (clicksAt true positions) ≤ 1 := by
  intro hclaim
  let c := Core.run ⟨.reset, fun _ => 0#4⟩ [.resetRise, .clk false (.over false 0#6)]
  have hc : c.AfterReset := .of_pulse _ _
  have htwo : c.flips (clicksAt true [(270, 390), (270, 270), (270, 180), (270, 120),
      (270, 90), (270, 210), (270, 210), (270, 210)]) = 2 := by decide +kernel
  have hone := hclaim c hc (by decide) [(270, 390), (270, 270), (270, 180), (270, 120),
    (270, 90), (270, 210), (270, 210), (270, 210)]
  rw [htwo] at hone
  exact absurd hone (by decide)

/-- What one held press can do, whatever the cursor does meanwhile. Every flip of
`curr_player` has a selection of its own. `curr_player` flips at most once unless,
after its first flip, the idle core finds the cursor on a piece of the side then
to move; in particular when the cursor stays on one place. -/
theorem held_press_moves {c : Core} (hc : c.AfterReset) (hrest : c.Resting)
    (positions : List (Coord × Coord)) :
    let is := clicksAt true positions
    c.flips is ≤ c.selections is + (if c.currState = .moveLocation then 1 else 0) ∧
    ((∀ before i after, is = before ++ i :: after → 1 ≤ c.flips before →
      (c.play before).selects i = false) → c.flips is ≤ 1) ∧
    ∀ place, (∀ pos ∈ positions, cursorPlace pos.1 pos.2 = place) → c.flips is ≤ 1 := by
  intro is
  have hinv : ∀ (s : Core) i, s.Inv ∧ s.currState ≠ .gameStart →
      (s.tick i).Inv ∧ (s.tick i).currState ≠ .gameStart :=
    fun s i h => ⟨h.1.tick i, tick_ne_gameStart h.1 i⟩
  have hpay := fun (s : Core) i (h : s.Inv ∧ s.currState ≠ .gameStart) => flip_pays h.1 h.2 i
  have hspent := fun (s : Core) i (h : s.Inv ∧ s.currState ≠ .gameStart) => flip_ends h.1 h.2 i
  have hstart : c.Inv ∧ c.currState ≠ .gameStart := ⟨hc.inv, hrest.started⟩
  have hcond : (∀ before i after, is = before ++ i :: after → 1 ≤ c.flips before →
      (c.play before).selects i = false) → c.flips is ≤ 1 :=
    fun h => Clocked.changes_le_one hinv hpay hspent hstart h
  refine ⟨?_, hcond, fun place hstays => hcond fun before i after hsplit hflipped => ?_⟩
  · have hbound : c.flips is ≤ c.engaged + c.selections is :=
      Clocked.changes_le_total hinv hpay hstart is
    have hengaged : c.engaged = if c.currState = .moveLocation then 1 else 0 := by
      rcases hrest with hstate | hstate <;> simp [Core.engaged, hstate]
    rw [hengaged, Nat.add_comm] at hbound
    exact hbound
  · have hplace : ∀ j ∈ is, j.click = place := fun j => click_of_mem_clicksAt_true hstays
    rw [hsplit] at hplace
    cases before with
    | nil => simp [Core.flips, Clocked.changes] at hflipped
    | cons first rest =>
      have hall : ∀ j ∈ first :: rest, j.click = place := fun j hj =>
        hplace j (List.mem_append_left _ hj)
      have hi : i.click = place := hplace i (List.mem_append_right _ List.mem_cons_self)
      exact not_selects_of_click_eq (click_eq_of_play_place hc.inv hrest hall) hi

/-- The button is held from `e2` to `e4` and on to the empty square above it: the press
makes one move, with a selection of its own. -/
theorem held_press_moves_opening :
    let c := Core.run ⟨.reset, fun _ => 0#4⟩ [.resetRise, .clk false (.over false 0#6)]
    let is := clicksAt true [(270#10, 390#10), (270#10, 270#10), (270#10, 270#10),
      (271#10, 280#10), (270#10, 270#10), (270#10, 200#10)]
    c.flips is = 1 ∧ 1 ≤ c.selections is := by
  intro c is
  have hc : c.AfterReset := .of_pulse _ _
  have hflips : 1 ≤ c.flips is := by decide +kernel
  obtain ⟨hpays, honce, -⟩ := held_press_moves hc (by decide) [(270#10, 390#10), (270#10, 270#10),
    (270#10, 270#10), (271#10, 280#10), (270#10, 270#10), (270#10, 200#10)]
  have hidle : ∀ n < 6, ∀ i ∈ (is.drop n).head?, 1 ≤ c.flips (is.take n) →
      (c.play (is.take n)).selects i = false := by
    decide +kernel
  refine ⟨le_antisymm (honce ?_) hflips, hflips.trans hpays⟩
  intro before i after hsplit hflipped
  change is = before ++ i :: after at hsplit
  have hlength : before.length + (after.length + 1) = 6 := by
    rw [← List.length_cons, ← List.length_append, ← hsplit]
    rfl
  have htake : is.take before.length = before := by rw [hsplit, List.take_left]
  have hhead : i ∈ (is.drop before.length).head? := by
    rw [hsplit, List.drop_left]
    rfl
  have hselects := hidle before.length (by omega) i hhead
  rw [htake] at hselects
  exact hselects hflipped

end SocChess
