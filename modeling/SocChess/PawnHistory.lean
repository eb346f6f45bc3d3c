import Mathlib.Algebra.Order.BigOperators.Group.Finset
import Mathlib.Data.Fintype.Prod
import Mathlib.Tactic.Ring
import SocChess.Lib.Tracking
import SocChess.AcceptedMove
import SocChess.LegalMove

/-!
# The history of the pawns

The source has no flag for a pawn that has moved: the two-row advance is guarded
by the row of the selected square. Following the sixteen pawns of the initial
position by identity shows that the row says it all.

* `Tracked`: the core with a trail of its pawns, restarted by every reset.
* `Tracked.Inv`: the trail agrees with the board, and a pawn has advanced by at
  least as many rows as it has made moves.
* `pawn_history`: the statement about runs.
-/

namespace SocChess

open SelectMove (relocate)
open Tracking (Trail Follows Kept)

/-! ## The pawns of the initial position -/

/-- A pawn is named by its side and its initial column. -/
abbrev Pawn := Bool × Fin 8

def Pawn.side (k : Pawn) : Bool := k.1

/-- The code of the pawns of `side`. -/
def pawnOf (side : Bool) : Piece := if side = white then 0b0001#4 else 0b1001#4

def Pawn.code (k : Pawn) : Piece := pawnOf k.side

def Pawn.start (k : Pawn) : Square :=
  BitVec.ofNat 6 ((if k.side = white then 48 else 8) + k.2)

def startTrail : Trail Pawn Square where
  place k := some k.start
  moves _ := 0

/-- The number of rows a pawn has advanced when it stands on `sq`. -/
def Pawn.advance (k : Pawn) (sq : Square) : Int := (sq.r - startRow k.side) * forward k.side

/-- What holds of a pawn that stands on `sq` after `n` moves. -/
def Pawn.History (k : Pawn) (sq : Square) (n : Nat) : Prop :=
  n ≤ k.advance sq ∧ (n = 0 → sq = k.start)

theorem pawnOf_ne_empty (side : Bool) : pawnOf side ≠ 0#4 := by
  cases side <;> decide

theorem pawnOf_injective {side side' : Bool} (h : pawnOf side = pawnOf side') : side = side' := by
  revert side side'
  decide

theorem pawnOf_of_type {piece : Piece} {player : Bool} (hown : piece.ownedBy player)
    (htype : piece.type = 0b001#3) : piece = pawnOf player := by
  revert piece player
  decide

theorem pawnOf_type (side : Bool) : (pawnOf side).type = 0b001#3 := by
  cases side <;> rfl

theorem owner_of_pawn {side player : Bool} (hown : (pawnOf side).ownedBy player) :
    side = player := by
  revert side player
  decide

theorem Pawn.start_injective : ∀ j k : Pawn, j.start = k.start → j = k := by decide

theorem initialBoard_follows : Follows Pawn.code initialBoard startTrail where
  sound k s hplace := by
    obtain rfl : k.start = s := Option.some.inj hplace
    revert k
    decide
  apart j k s hj hk := Pawn.start_injective j k (Option.some.inj (hj.trans hk.symm))
  complete := by
    unfold startTrail
    decide +kernel

theorem startTrail_history : Kept Pawn.History startTrail := by
  intro k s hplace
  obtain rfl : k.start = s := Option.some.inj hplace
  refine ⟨?_, fun _ => rfl⟩
  revert k
  unfold Pawn.advance Square.r
  decide

/-! ## A legal move of a pawn -/

section PawnRule

variable {board : Board} {player : Bool} {s d : Square}

theorem pawnRule_of_legal (hlegal : legalMove board player s d = true)
    (htype : (board s).type = 0b001#3) : PawnRule board player s d := by
  cases player with
  | false => exact (legalPawnMoveWhite_iff board s d).mp (by simpa [legalMove, htype] using hlegal)
  | true => exact (legalPawnMoveBlack_iff board s d).mp (by simpa [legalMove, htype] using hlegal)

theorem PawnRule.forwards (h : PawnRule board player s d) :
    d.r = s.r + forward player ∨ d.r = s.r + 2 * forward player := by
  rcases h with ⟨-, hr, -⟩ | ⟨-, hr, -, -, -⟩ | ⟨-, hr, -⟩
  · exact .inl hr
  · exact .inr hr
  · exact .inl hr

/-- Only the third kind of move changes the column. -/
theorem PawnRule.captures (h : PawnRule board player s d) (hcolumn : d.c ≠ s.c) :
    (board d).ownedBy (!player) := by
  rcases h with ⟨hc, -, -⟩ | ⟨hc, -, -, -, -⟩ | ⟨-, -, henemy⟩
  · exact absurd hc hcolumn
  · exact absurd hc hcolumn
  · exact henemy

/-- Only the second kind of move advances by two rows. -/
theorem PawnRule.double (h : PawnRule board player s d) (htwo : |d.r - s.r| = 2) :
    s.r = startRow player := by
  have hone : ∀ side, |forward side| = 1 := by decide
  rcases h with ⟨-, hr, -⟩ | ⟨-, -, hstart, -, -⟩ | ⟨-, hr, -⟩
  · rw [hr, add_sub_cancel_left, hone] at htwo
    cases htwo
  · exact hstart
  · rw [hr, add_sub_cancel_left, hone] at htwo
    cases htwo

theorem PawnRule.advance_lt {k : Pawn} (h : PawnRule board k.side s d) :
    k.advance s < k.advance d := by
  have hforward : forward k.side * forward k.side = 1 := by cases k.side <;> rfl
  have hdiff : ∀ n : Int, d.r = s.r + n * forward k.side → k.advance d = k.advance s + n := by
    intro n hn
    rw [Pawn.advance, hn]
    calc (s.r + n * forward k.side - startRow k.side) * forward k.side
        = (s.r - startRow k.side) * forward k.side
            + n * (forward k.side * forward k.side) := by ring
      _ = k.advance s + n := by rw [hforward, mul_one, Pawn.advance]
  rcases h.forwards with hone | htwo
  · have := hdiff 1 (by rw [hone, one_mul])
    omega
  · have := hdiff 2 htwo
    omega

end PawnRule

/-- The rows a pawn has advanced as a row number. -/
theorem advance_white {k : Pawn} (h : k.side = white) (sq : Square) :
    k.advance sq = 6 - sq.r := by
  rw [Pawn.advance, h, startRow, forward, if_pos rfl, if_pos rfl]
  omega

theorem advance_black {k : Pawn} (h : k.side = black) (sq : Square) :
    k.advance sq = sq.r - 1 := by
  rw [Pawn.advance, h, startRow, forward, if_neg (by decide), if_neg (by decide), mul_one]

theorem advance_le (k : Pawn) (sq : Square) : k.advance sq ≤ 6 := by
  obtain ⟨hlow, hhigh⟩ := sq.r_range
  cases hside : k.side with
  | false =>
    rw [advance_white hside]
    omega
  | true =>
    rw [advance_black hside]
    omega

/-! ## The core with a trail of its pawns -/

/-- An accepted move of a piece of type pawn. -/
def Core.pawnMove (c : Core) (inp : Input) : Bool :=
  match c.accepted inp with
  | some (s, _) => (c.board s).type = 0b001#3
  | none => false

/-- The core and the history of its pawns since the latest reset. -/
structure Tracked where
  core : Core
  trail : Trail Pawn Square

/-- A clock edge with reset low: the trail follows the accepted move. -/
def Tracked.tick (t : Tracked) (inp : Input) : Tracked where
  core := t.core.tick inp
  trail :=
    match t.core.accepted inp with
    | some (s, d) => t.trail.follow s d
    | none => t.trail

/-- The history starts again with every reset. -/
def Tracked.next (t : Tracked) : Event → Tracked
  | .clk false inp => t.tick inp
  | .clk true inp => ⟨t.core.next (.clk true inp), startTrail⟩
  | .resetRise => ⟨t.core.next .resetRise, startTrail⟩

abbrev Tracked.run : Tracked → List Event → Tracked := Clocked.run Tracked.next

abbrev Tracked.play : Tracked → List Input → Tracked := Clocked.run Tracked.tick

/-- The number of moves made by the followed pawns. -/
def Tracked.pawnMoves (t : Tracked) : Nat := t.trail.moved

structure Tracked.Inv (t : Tracked) : Prop where
  core : t.core.Inv
  material : Board.Material t.core.game.board
  follows : Follows Pawn.code t.core.game.board t.trail
  history : Kept Pawn.History t.trail
  bounded : ∀ k, t.trail.moves k ≤ 6

theorem Tracked.run_core (t : Tracked) (es : List Event) : (t.run es).core = t.core.run es := by
  refine Clocked.run_project ?_ t es
  intro t e
  rcases e with ⟨_ | _, inp⟩ | _ <;> rfl

theorem Tracked.play_core (t : Tracked) (is : List Input) : (t.play is).core = t.core.play is :=
  Clocked.run_project (fun _ _ => rfl) t is

theorem Tracked.next_reset (t : Tracked) {r : Event} (hr : r.IsReset) :
    (t.next r).trail = startTrail := by
  rcases r with ⟨_ | _, inp⟩ | _
  · exact absurd hr Bool.false_ne_true
  · rfl
  · rfl

section Step

variable {t : Tracked} {inp : Input} {s d : Square}

theorem tick_trail_move (h : t.core.accepted inp = some (s, d)) :
    (t.tick inp).trail = t.trail.follow s d := by
  simp [Tracked.tick, h]

theorem tick_trail_idle (h : t.core.accepted inp = none) : (t.tick inp).trail = t.trail := by
  simp [Tracked.tick, h]

/-- What is known of an accepted move. -/
theorem Tracked.Inv.move (h : t.Inv) (hmove : t.core.accepted inp = some (s, d)) :
    t.core.game.board = t.core.board ∧ s ≠ d ∧
    (t.core.board s).ownedBy t.core.currPlayer ∧
    (t.core.board d).ownedBy t.core.currPlayer = false ∧
    legalMove t.core.board t.core.currPlayer s d = true := by
  obtain ⟨hstate, -, rfl, hdest, hlegal⟩ := accepted_eq_some.mp hmove
  have hown := h.core.selected hstate
  exact ⟨(resting_game (.inr hstate)).1.symm, chessRules.source_ne hown hdest, hown, hdest, hlegal⟩

/-- A pawn that moves belongs to the side to move and obeys the pawn rule. -/
theorem Tracked.Inv.pawn_move (h : t.Inv) (hmove : t.core.accepted inp = some (s, d)) {k : Pawn}
    (hk : t.trail.place k = some s) :
    k.side = t.core.currPlayer ∧ PawnRule t.core.board k.side s d := by
  obtain ⟨hboard, -, hown, -, hlegal⟩ := h.move hmove
  have hcode : t.core.board s = pawnOf k.side := hboard ▸ h.follows.sound k s hk
  have hside : k.side = t.core.currPlayer := owner_of_pawn (hcode ▸ hown)
  refine ⟨hside, ?_⟩
  rw [hside]
  exact pawnRule_of_legal hlegal (by rw [hcode, pawnOf_type])

/-- One more move, at least one more row. -/
theorem Tracked.Inv.history_move (h : t.Inv) (hmove : t.core.accepted inp = some (s, d))
    {k : Pawn} (hk : t.trail.place k = some s) :
    k.History d (t.trail.moves k + 1) := by
  obtain ⟨-, hrule⟩ := h.pawn_move hmove hk
  obtain ⟨hadvance, -⟩ := h.history k s hk
  have hlt := hrule.advance_lt
  exact ⟨by push_cast; omega, fun hzero => absurd hzero (Nat.succ_ne_zero _)⟩

theorem Tracked.Inv.tick (h : t.Inv) (inp : Input) : (t.tick inp).Inv := by
  have hboard := tick_board inp h.core
  cases hmove : t.core.accepted inp with
  | none =>
    have htrail := tick_trail_idle hmove
    rw [hmove] at hboard
    refine ⟨h.core.tick inp, ?_, ?_, ?_, ?_⟩
    · exact hboard ▸ h.material
    · rw [htrail]
      exact hboard ▸ h.follows
    · rw [htrail]
      exact h.history
    · rw [htrail]
      exact h.bounded
  | some move =>
    obtain ⟨s, d⟩ := move
    have htrail := tick_trail_move hmove
    obtain ⟨hgame, hne, hown, hdest, -⟩ := h.move hmove
    rw [hmove] at hboard
    refine ⟨h.core.tick inp, ?_, ?_, ?_, ?_⟩
    · rw [← hgame] at hown hdest
      exact hboard ▸ material_kept h.material hown hdest
    · rw [htrail]
      exact hboard ▸ h.follows.relocate hne fun k => pawnOf_ne_empty k.side
    · rw [htrail]
      exact h.history.follow fun k hk _ => h.history_move hmove hk
    · intro k
      rw [htrail]
      by_cases hk : t.trail.place k = some s
      · obtain ⟨hadvance, -⟩ := h.history_move hmove hk
        have hle := advance_le k d
        rw [Trail.moves_follow_moved hk]
        omega
      · rw [Trail.moves_follow_other hk]
        exact h.bounded k

/-- The accepted moves of pawns are the moves of the followed pawns. -/
theorem Tracked.Inv.pawnMoves_tick (h : t.Inv) (inp : Input) :
    (t.tick inp).pawnMoves = t.pawnMoves + if t.core.pawnMove inp then 1 else 0 := by
  unfold Tracked.pawnMoves
  cases hmove : t.core.accepted inp with
  | none =>
    rw [tick_trail_idle hmove]
    simp [Core.pawnMove, hmove]
  | some move =>
    obtain ⟨s, d⟩ := move
    obtain ⟨hgame, -, hown, -, -⟩ := h.move hmove
    rw [tick_trail_move hmove]
    by_cases htype : (t.core.board s).type = 0b001#3
    · -- Every pawn on the board is a followed one.
      have hcode := pawnOf_of_type hown htype
      obtain ⟨k, -, hk⟩ := h.follows.complete (t.core.currPlayer, 0) s (hgame ▸ hcode)
      rw [h.follows.moved_follow hk]
      simp [Core.pawnMove, hmove, htype]
    · have hother : ∀ k, t.trail.place k ≠ some s := by
        intro k hk
        have hcode := h.follows.sound k s hk
        rw [hgame] at hcode
        rw [hcode] at htype
        exact htype (pawnOf_type k.side)
      rw [Trail.moved_follow_other hother]
      simp [Core.pawnMove, hmove, htype]

end Step

theorem Tracked.Inv.reset (t : Tracked) {r : Event} (hr : r.IsReset) : (t.next r).Inv := by
  have hcore : (t.next r).core = t.core.next r := t.run_core [r]
  have hgame : (t.next r).core.game.board = initialBoard := by
    rw [hcore]
    simp [Core.game, reset_gameStart t.core hr, newGame]
  have htrail := t.next_reset hr
  refine ⟨?_, ?_, ?_, ?_, ?_⟩
  · rw [hcore]
    exact .reset t.core hr
  · exact hgame ▸ initialBoard_material
  · rw [htrail]
    exact hgame ▸ initialBoard_follows
  · rw [htrail]
    exact startTrail_history
  · intro k
    rw [htrail]
    exact Nat.zero_le 6

theorem Tracked.Inv.play {t : Tracked} (h : t.Inv) (is : List Input) : (t.play is).Inv :=
  Clocked.run_invariant (fun _ inp h => h.tick inp) h is

/-! ## Runs -/

section Runs

variable {t : Tracked} {inp : Input} {k : Pawn} {s d sq : Square}

/-- A pawn whose place has changed was moved by the accepted move. -/
theorem accepted_of_moved (hs : t.trail.place k = some s)
    (hd : (t.tick inp).trail.place k = some d) (hne : d ≠ s) :
    t.core.accepted inp = some (s, d) := by
  cases hmove : t.core.accepted inp with
  | none =>
    rw [tick_trail_idle hmove, hs] at hd
    exact absurd (Option.some.inj hd).symm hne
  | some move =>
    obtain ⟨s', d'⟩ := move
    rw [tick_trail_move hmove] at hd
    rcases Trail.place_follow hd with ⟨hs', rfl⟩ | ⟨hd', -, -⟩
    · rw [Option.some.inj (hs.symm.trans hs')]
    · exact absurd (Option.some.inj (hd'.symm.trans hs)) hne

/-- A pawn on its start row has never moved. -/
theorem Tracked.Inv.unmoved (h : t.Inv) (hk : t.trail.place k = some sq)
    (hrow : sq.r = startRow k.side) : sq = k.start ∧ t.trail.moves k = 0 := by
  obtain ⟨hadvance, hstart⟩ := h.history k sq hk
  have hzero : t.trail.moves k = 0 := by
    rw [Pawn.advance, hrow, sub_self, zero_mul] at hadvance
    omega
  exact ⟨hstart hzero, hzero⟩

theorem Tracked.Inv.row_white (h : t.Inv) (hk : t.trail.place k = some sq)
    (hside : k.side = white) : sq.r ≠ 7 := by
  obtain ⟨hadvance, -⟩ := h.history k sq hk
  rw [advance_white hside] at hadvance
  omega

theorem Tracked.Inv.row_black (h : t.Inv) (hk : t.trail.place k = some sq)
    (hside : k.side = black) : sq.r ≠ 0 := by
  obtain ⟨hadvance, -⟩ := h.history k sq hk
  rw [advance_black hside] at hadvance
  omega

/-- A move that changes the column of a pawn removes a piece of the opponent. -/
theorem Tracked.Inv.pawn_captures (h : t.Inv) (hmove : t.core.accepted inp = some (s, d))
    (hk : t.trail.place k = some s) (hcolumn : d.c ≠ s.c) :
    (t.core.board d).ownedBy (!k.side) ∧
    Board.total (t.tick inp).core.game.board (!k.side) + 1 =
      Board.total t.core.board (!k.side) := by
  obtain ⟨hgame, -, hown, hdest, -⟩ := h.move hmove
  obtain ⟨hside, hrule⟩ := h.pawn_move hmove hk
  have henemy := hrule.captures hcolumn
  refine ⟨henemy, ?_⟩
  have hoccupied : t.core.board d ≠ 0#4 := by
    intro hempty
    rw [hempty] at henemy
    revert henemy
    cases k.side <;> decide
  have hcodes := h.material.codes d
  rw [hgame] at hcodes
  have htotal := total_opponent hcodes hown hdest
  rw [if_neg hoccupied, ← hside] at htotal
  have hboard := tick_board inp h.core
  rw [hmove, hgame] at hboard
  exact hboard ▸ htotal

/-- The sixteen pawns make at most six moves each. -/
theorem Tracked.Inv.pawnMoves_le (h : t.Inv) : t.pawnMoves ≤ 96 := by
  have hsum : ∑ k : Pawn, t.trail.moves k ≤ ∑ _k : Pawn, 6 :=
    Finset.sum_le_sum fun k _ => h.bounded k
  have htotal : ∑ _k : Pawn, 6 = 96 := by simp
  exact htotal ▸ hsum

/-- The moves of the followed pawns count the accepted pawn moves. -/
theorem Tracked.Inv.total_pawnMove_le (h : t.Inv) (is : List Input) :
    Clocked.total Core.tick Core.pawnMove t.core is ≤ 96 := by
  have hcount : (t.play is).pawnMoves =
      t.pawnMoves + Clocked.total Tracked.tick (fun t inp => t.core.pawnMove inp) t is :=
    Clocked.run_counter (fun _ inp h => Tracked.Inv.tick h inp)
      (fun _ inp h => Tracked.Inv.pawnMoves_tick h inp) h is
  have hproject : Clocked.total Tracked.tick (fun t inp => t.core.pawnMove inp) t is =
      Clocked.total Core.tick Core.pawnMove t.core is :=
    Clocked.total_project (fun _ _ => rfl) Core.pawnMove t is
  have hle := (h.play is).pawnMoves_le
  omega

end Runs

/-- Let `t` be any state of a run since a reset, with the pawns followed from their
initial squares. A clock that moves a pawn moves it towards the other side, by two
rows only if it has never moved, and into another column only onto a piece of the
opponent, which is removed. Between moves every pawn code on the board is a
followed pawn; none is behind its start row, and one on its start row is on its
initial square and has never moved. The whole run accepts at most 96 pawn moves. -/
theorem pawn_history (power : Tracked) (before : List Event) {r : Event} (hr : r.IsReset)
    (is : List Input) :
    let start := power.run (before ++ [r])
    let t := start.play is
    start.core = power.core.run (before ++ [r]) ∧ start.trail = startTrail ∧
    t.core = start.core.play is ∧
    (∀ inp k s d, t.trail.place k = some s → (t.tick inp).trail.place k = some d → d ≠ s →
      (k.side = white → d.r < s.r) ∧ (k.side = black → s.r < d.r) ∧
      (|d.r - s.r| = 2 → t.trail.moves k = 0) ∧
      (d.c ≠ s.c →
        (t.core.board d).ownedBy (!k.side) ∧
        Board.total (t.tick inp).core.game.board (!k.side) + 1 =
          Board.total t.core.board (!k.side))) ∧
    (t.core.Resting →
      (∀ k sq, t.trail.place k = some sq → t.core.board sq = k.code) ∧
      ∀ side sq, t.core.board sq = pawnOf side →
        ∃ k : Pawn, k.side = side ∧ t.trail.place k = some sq ∧
          (side = white → sq.r ≠ 7 ∧ (sq.r = 6 → sq = k.start ∧ t.trail.moves k = 0)) ∧
          (side = black → sq.r ≠ 0 ∧ (sq.r = 1 → sq = k.start ∧ t.trail.moves k = 0))) ∧
    Clocked.total Core.tick Core.pawnMove start.core is ≤ 96 := by
  intro start t
  have hstart : start = (power.run before).next r := Clocked.run_concat power before r
  have htrail : start.trail = startTrail := hstart ▸ (power.run before).next_reset hr
  have hreset : start.Inv := hstart ▸ Tracked.Inv.reset (power.run before) hr
  have hinv : t.Inv := hreset.play is
  refine ⟨power.run_core _, htrail, start.play_core is, ?_, ?_, ?_⟩
  · intro inp k s d hs hd hne
    have hmove := accepted_of_moved hs hd hne
    obtain ⟨-, hrule⟩ := hinv.pawn_move hmove hs
    have hlt := hrule.advance_lt
    refine ⟨?_, ?_, ?_, ?_⟩
    · intro hside
      rw [advance_white hside, advance_white hside] at hlt
      omega
    · intro hside
      rw [advance_black hside, advance_black hside] at hlt
      omega
    · intro htwo
      exact (hinv.unmoved hs (hrule.double htwo)).2
    · exact hinv.pawn_captures hmove hs
  · intro hrest
    rw [(resting_game hrest).1]
    refine ⟨fun k sq => hinv.follows.sound k sq, ?_⟩
    intro side sq hsq
    obtain ⟨k, hcode, hk⟩ := hinv.follows.complete (side, 0) sq hsq
    have hside : k.side = side := pawnOf_injective hcode
    refine ⟨k, hside, hk, ?_, ?_⟩
    · intro hwhite
      rw [← hside] at hwhite
      refine ⟨hinv.row_white hk hwhite, fun hrow => hinv.unmoved hk ?_⟩
      rw [hrow, hwhite]
      rfl
    · intro hblack
      rw [← hside] at hblack
      refine ⟨hinv.row_black hk hblack, fun hrow => hinv.unmoved hk ?_⟩
      rw [hrow, hblack]
      rfl
  · exact hreset.total_pawnMove_le is

/-- The king's pawn advances by two rows as its first move, and then stands on its new
square. -/
theorem pawn_history_opening :
    let start := Tracked.run ⟨⟨.reset, fun _ => 0#4⟩, startTrail⟩ ([] ++ [.resetRise])
    let t := start.play [.over false 0#6, .over true 52#6]
    let moved := start.play [.over false 0#6, .over true 52#6, .over true 36#6, .over false 0#6,
      .over false 0#6]
    let king : Pawn := (white, 4)
    Square.r 36#6 < Square.r 52#6 ∧ t.trail.moves king = 0 ∧
    moved.core.board 36#6 = king.code ∧
    Clocked.total Core.tick Core.pawnMove start.core
      [.over false 0#6, .over true 52#6, .over true 36#6, .over false 0#6, .over false 0#6] ≤
        96 := by
  intro start t moved king
  obtain ⟨-, -, -, hstep, -, -⟩ := pawn_history ⟨⟨.reset, fun _ => 0#4⟩, startTrail⟩ []
    (r := .resetRise) trivial [.over false 0#6, .over true 52#6]
  obtain ⟨-, -, -, -, hrest, hmoves⟩ := pawn_history ⟨⟨.reset, fun _ => 0#4⟩, startTrail⟩ []
    (r := .resetRise) trivial
    [.over false 0#6, .over true 52#6, .over true 36#6, .over false 0#6, .over false 0#6]
  obtain ⟨hforward, -, hdouble, -⟩ :=
    hstep (.over true 36#6) king 52#6 36#6 (by decide +kernel) (by decide +kernel) (by decide)
  obtain ⟨hsound, -⟩ := hrest (by decide +kernel)
  exact ⟨hforward rfl, hdouble (by decide), hsound king 36#6 (by decide +kernel), hmoves⟩

end SocChess
