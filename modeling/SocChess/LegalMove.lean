import Mathlib.Algebra.Order.Group.Abs
import Mathlib.Algebra.Order.Group.Int
import Mathlib.Data.Set.Insert
import SocChess.BoardCore

/-!
# `legal_move` is the coordinate rule of each piece

`legal_move` compares unsigned distances of 3-bit coordinates and finds the square
in front of a pawn by adding or subtracting 8 in 6 bits. The rule here is written
in signed integer coordinates.

* `horizontalDiff_eq`, `verticalDiff_eq`: the hardware distances are the integer
  ones.
* `legalPawnMoveWhite_iff`, `legalPawnMoveBlack_iff`: both pawn arms are the rule for a
  pawn that walks in the direction `forward player`.
* `legal_move_coordinates`: the whole `case`.
-/

namespace SocChess

/-! ## The rule -/

/-- The row as an integer, counted from the black edge. -/
def Square.r (sq : Square) : Int := sq.toNat / 8

/-- The column as an integer. -/
def Square.c (sq : Square) : Int := sq.toNat % 8

/-- The change of row when a pawn of `player` advances by one. -/
def forward (player : Bool) : Int := if player = white then -1 else 1

/-- The row on which the pawns of `player` start. -/
def startRow (player : Bool) : Int := if player = white then 6 else 1

def Piece.isEmpty (piece : Piece) : Prop := piece.type = 0#3

/-- The three ways a pawn moves: one row onto an empty square, two rows from its
start row over an empty square onto an empty square, or one row diagonally onto a
piece of the opponent. -/
def PawnRule (board : Board) (player : Bool) (s d : Square) : Prop :=
  (d.c = s.c ∧ d.r = s.r + forward player ∧ (board d).isEmpty) ∨
  (d.c = s.c ∧ d.r = s.r + 2 * forward player ∧ s.r = startRow player ∧ (board d).isEmpty ∧
    ∃ q : Square, q.r = s.r + forward player ∧ q.c = s.c ∧ (board q).isEmpty) ∨
  (|d.c - s.c| = 1 ∧ d.r = s.r + forward player ∧ (board d).ownedBy (!player))

def KnightRule (s d : Square) : Prop := ({|d.r - s.r|, |d.c - s.c|} : Set Int) = {1, 2}

def BishopRule (s d : Square) : Prop := |d.r - s.r| = |d.c - s.c|

def RookRule (s d : Square) : Prop := d.r = s.r ∨ d.c = s.c

def KingRule (s d : Square) : Prop := max |d.r - s.r| |d.c - s.c| = 1

/-- The rule of the piece on `s`. Sliding pieces jump over whatever is between. -/
def MoveRule (board : Board) (player : Bool) (s d : Square) : Prop :=
  match (board s).type with
  | 0b001#3 => PawnRule board player s d
  | 0b010#3 => KnightRule s d
  | 0b011#3 => BishopRule s d
  | 0b100#3 => RookRule s d
  | 0b101#3 => RookRule s d ∨ BishopRule s d
  | 0b110#3 => KingRule s d
  | _ => False

/-! ## Coordinates -/

theorem row_toNat (sq : Square) : sq.row.toNat = sq.toNat / 8 := by
  simp only [Square.row, BitVec.extractLsb'_toNat, Nat.shiftRight_eq_div_pow]
  omega

theorem column_toNat (sq : Square) : sq.column.toNat = sq.toNat % 8 := by
  simp [Square.column, BitVec.extractLsb'_toNat]

theorem Square.r_eq (sq : Square) : sq.r = sq.row.toNat := by
  rw [row_toNat, Square.r]
  rfl

theorem Square.c_eq (sq : Square) : sq.c = sq.column.toNat := by
  rw [column_toNat, Square.c]
  rfl

theorem Square.r_range (sq : Square) : 0 ≤ sq.r ∧ sq.r ≤ 7 := by
  have h := sq.isLt
  unfold Square.r
  omega

theorem Square.c_range (sq : Square) : 0 ≤ sq.c ∧ sq.c ≤ 7 := by
  unfold Square.c
  omega

/-- A square is its two coordinates. -/
theorem Square.eq_of_coordinates {p q : Square} (hr : p.r = q.r) (hc : p.c = q.c) : p = q := by
  unfold Square.r at hr
  unfold Square.c at hc
  apply BitVec.eq_of_toNat_eq
  omega

theorem coordDiff_toNat :
    ∀ a b : BitVec 3, ((coordDiff a b).toNat : Int) = |(a.toNat : Int) - b.toNat| := by
  decide

theorem horizontalDiff_eq (s d : Square) : ((horizontalDiff s d).toNat : Int) = |d.c - s.c| := by
  rw [horizontalDiff, coordDiff_toNat, Square.c_eq, Square.c_eq]

theorem verticalDiff_eq (s d : Square) : ((verticalDiff s d).toNat : Int) = |d.r - s.r| := by
  rw [verticalDiff, coordDiff_toNat, Square.r_eq, Square.r_eq]

theorem horizontalDiff_eq_iff {s d : Square} {n : BitVec 4} :
    horizontalDiff s d = n ↔ |d.c - s.c| = n.toNat := by
  rw [← horizontalDiff_eq, BitVec.toNat_eq]
  omega

theorem verticalDiff_eq_iff {s d : Square} {n : BitVec 4} :
    verticalDiff s d = n ↔ |d.r - s.r| = n.toNat := by
  rw [← verticalDiff_eq, BitVec.toNat_eq]
  omega

theorem row_lt_iff {p q : Square} : p.row < q.row ↔ p.r < q.r := by
  rw [BitVec.lt_def, Square.r_eq, Square.r_eq]
  omega

theorem row_eq_iff {sq : Square} {n : BitVec 3} : sq.row = n ↔ sq.r = n.toNat := by
  rw [BitVec.toNat_eq, Square.r_eq]
  omega

/-! ## The arms of the case -/

section Arms

variable (board : Board) (s d : Square)

theorem ownedBy_opponent {player : Bool} {piece : Piece} :
    piece.ownedBy (!player) ↔ piece.colour = (!player) ∧ piece.type ≠ 0#3 := by
  simp [Piece.ownedBy]

/-- Eight less than a square of row 6 is the square above it, without borrow. -/
theorem sub_eight {s : Square} (h : s.r = 6) :
    (s - 0b001000#6).r = s.r - 1 ∧ (s - 0b001000#6).c = s.c := by
  have hlt := s.isLt
  have hrow : (s.toNat : Int) / 8 = 6 := h
  have hsub : (s - 0b001000#6).toNat = s.toNat - 8 := by
    rw [BitVec.toNat_sub]
    simp only [BitVec.toNat_ofNat]
    omega
  unfold Square.r Square.c
  rw [hsub]
  omega

theorem add_eight {s : Square} (h : s.r = 1) :
    (s + 0b001000#6).r = s.r + 1 ∧ (s + 0b001000#6).c = s.c := by
  have hrow : (s.toNat : Int) / 8 = 1 := h
  have hadd : (s + 0b001000#6).toNat = s.toNat + 8 := by
    rw [BitVec.toNat_add]
    simp only [BitVec.toNat_ofNat]
    omega
  unfold Square.r Square.c
  rw [hadd]
  omega

variable {board s} in
/-- What a pawn jumps over is the one square at its coordinates. -/
theorem jumped_empty_iff {q : Square} {r : Int} (hr : q.r = r) (hc : q.c = s.c) :
    (∃ p : Square, p.r = r ∧ p.c = s.c ∧ (board p).isEmpty) ↔ (board q).isEmpty := by
  constructor
  · rintro ⟨p, hpr, hpc, hempty⟩
    rwa [← Square.eq_of_coordinates (hpr.trans hr.symm) (hpc.trans hc.symm)]
  · intro hempty
    exact ⟨q, hr, hc, hempty⟩

theorem same_column_iff : |d.c - s.c| = 0 ↔ d.c = s.c := by
  rw [abs_eq_zero, sub_eq_zero]

/-- The three tests of a pawn arm are the pawn rule, when `ahead` compares the rows
in the direction of `player` and `front` is the square the arm finds in front of a
pawn on its start row. -/
theorem pawn_tests_iff {player : Bool} {ahead : Prop} {front : Square}
    (hahead : ∀ n : Int, 0 < n →
      ((|d.r - s.r| = n ∧ ahead) ↔ d.r = s.r + n * forward player))
    (hfront : s.r = startRow player → front.r = s.r + forward player ∧ front.c = s.c) :
    ((|d.r - s.r| = 2 ∧ |d.c - s.c| = 0 ∧ s.r = startRow player ∧ (board d).isEmpty ∧
        (board front).isEmpty ∧ ahead) ∨
      (|d.r - s.r| = 1 ∧ |d.c - s.c| = 0 ∧ (board d).isEmpty ∧ ahead) ∨
      (|d.r - s.r| = 1 ∧ |d.c - s.c| = 1 ∧ (board d).colour = (!player) ∧
        (board d).type ≠ 0#3 ∧ ahead)) ↔
    PawnRule board player s d := by
  have hone := hahead 1 (by decide)
  have htwo := hahead 2 (by decide)
  rw [one_mul] at hone
  -- The source tests the advance by two rows before the one by one row.
  rw [same_column_iff, PawnRule, ownedBy_opponent, or_left_comm]
  refine or_congr ?_ (or_congr ?_ ?_)
  · rw [← hone]
    tauto
  · rw [← htwo]
    constructor
    · rintro ⟨hrow, hcol, hstart, hempty, hjump, hlt⟩
      obtain ⟨hr, hc⟩ := hfront hstart
      exact ⟨hcol, ⟨hrow, hlt⟩, hstart, hempty, (jumped_empty_iff hr hc).mpr hjump⟩
    · rintro ⟨hcol, ⟨hrow, hlt⟩, hstart, hempty, hjump⟩
      obtain ⟨hr, hc⟩ := hfront hstart
      exact ⟨hrow, hcol, hstart, hempty, (jumped_empty_iff hr hc).mp hjump, hlt⟩
  · rw [← hone]
    tauto

theorem legalPawnMoveWhite_iff :
    legalPawnMoveWhite board s d ↔ PawnRule board white s d := by
  have hahead : ∀ n : Int, 0 < n →
      ((|d.r - s.r| = n ∧ d.r < s.r) ↔ d.r = s.r + n * forward white) := by
    intro n hn
    rw [abs_eq hn.le, forward, if_pos rfl]
    omega
  rw [← pawn_tests_iff board s d hahead sub_eight]
  simp only [legalPawnMoveWhite, Bool.if_true_left, Bool.or_eq_true, decide_eq_true_eq,
    verticalDiff_eq_iff, horizontalDiff_eq_iff, row_lt_iff, row_eq_iff]
  simp [startRow, Piece.isEmpty]

theorem legalPawnMoveBlack_iff :
    legalPawnMoveBlack board s d ↔ PawnRule board black s d := by
  have hahead : ∀ n : Int, 0 < n →
      ((|d.r - s.r| = n ∧ s.r < d.r) ↔ d.r = s.r + n * forward black) := by
    intro n hn
    rw [abs_eq hn.le, forward, if_neg (by decide)]
    omega
  rw [← pawn_tests_iff board s d hahead add_eight]
  simp only [legalPawnMoveBlack, Bool.if_true_left, Bool.or_eq_true, decide_eq_true_eq,
    verticalDiff_eq_iff, horizontalDiff_eq_iff, row_lt_iff, row_eq_iff]
  simp [startRow, Piece.isEmpty]

theorem knight_iff :
    ((horizontalDiff s d = 2#4 ∧ verticalDiff s d = 1#4) ∨
      (horizontalDiff s d = 1#4 ∧ verticalDiff s d = 2#4)) ↔ KnightRule s d := by
  simp only [KnightRule, verticalDiff_eq_iff, horizontalDiff_eq_iff, Set.pair_eq_pair_iff]
  exact or_congr and_comm and_comm

theorem bishop_iff : horizontalDiff s d = verticalDiff s d ↔ BishopRule s d := by
  rw [BishopRule, ← horizontalDiff_eq, ← verticalDiff_eq, BitVec.toNat_eq]
  omega

theorem rook_iff : (horizontalDiff s d = 0#4 ∨ verticalDiff s d = 0#4) ↔ RookRule s d := by
  rw [horizontalDiff_eq_iff, verticalDiff_eq_iff, RookRule, or_comm]
  simp [sub_eq_zero]

/-- Among the squares at distance at most one only the source itself is at
distance zero. -/
theorem king_iff {s d : Square} (hne : s ≠ d) :
    (horizontalDiff s d ≤ 1#4 ∧ verticalDiff s d ≤ 1#4) ↔ KingRule s d := by
  have hh := horizontalDiff_eq s d
  have hv := verticalDiff_eq s d
  have hmoved : ¬ (|d.r - s.r| = 0 ∧ |d.c - s.c| = 0) := by
    rintro ⟨hr, hc⟩
    rw [abs_eq_zero, sub_eq_zero] at hr hc
    exact hne (Square.eq_of_coordinates hr hc).symm
  rw [BitVec.le_def, BitVec.le_def, KingRule]
  simp only [BitVec.toNat_ofNat]
  omega

end Arms

theorem type_cases : ∀ type : BitVec 3, type = 0#3 ∨ type = 1#3 ∨ type = 2#3 ∨ type = 3#3 ∨
    type = 4#3 ∨ type = 5#3 ∨ type = 6#3 ∨ type = 7#3 := by
  decide

/-- For every board, side to move and two different squares, `legal_move` holds
exactly when the coordinates satisfy the rule of the piece on the source. The
types 0 and 7 have no legal move, and since the coordinates are integers no move
wraps around an edge. Who owns the source, or a destination that no pawn captures,
does not matter. -/
theorem legal_move_coordinates (board : Board) (player : Bool) {s d : Square} (hne : s ≠ d) :
    legalMove board player s d = true ↔ MoveRule board player s d := by
  unfold legalMove MoveRule
  rcases type_cases (board s).type with h | h | h | h | h | h | h | h <;> rw [h]
  · exact iff_of_false Bool.false_ne_true id
  · cases player with
    | false => exact legalPawnMoveWhite_iff board s d
    | true => exact legalPawnMoveBlack_iff board s d
  · exact decide_eq_true_iff.trans (knight_iff s d)
  · exact decide_eq_true_iff.trans (bishop_iff s d)
  · exact decide_eq_true_iff.trans (rook_iff s d)
  · refine decide_eq_true_iff.trans ?_
    rw [← or_assoc]
    exact or_congr (rook_iff s d) (bishop_iff s d)
  · exact decide_eq_true_iff.trans (king_iff hne)
  · exact iff_of_false Bool.false_ne_true id

/-- A knight of the initial position jumps over its pawns. -/
theorem legal_move_coordinates_knight : legalMove initialBoard white 62#6 45#6 = true :=
  (legal_move_coordinates initialBoard white (by decide)).mpr (Set.pair_comm 2 1)

end SocChess
