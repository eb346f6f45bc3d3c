import SocChess.Lib.Saturating
import SocChess.GameLogic
import SocChess.UsbMouseBridge

/-!
# The cursor: `mouse_cursor.sv`

Two 10-bit registers, clocked by the vertical sync, that add the signed displacement
bytes of the current GPIO word and stay on the screen. The arithmetic is 11 bits
wide and signed.

* `clampNext_toInt`: the three-way choice of the source is a clamp, for every
  11-bit sum.
* `frames_walk`: frame edges are saturating steps in unbounded integers.
* `reports_to_cursor`: from the mouse reports to the cursor position.
-/

namespace SocChess

open Saturating (walk)

/-! ## The registers -/

def cursorXCenter : Coord := 320#10
def cursorYCenter : Coord := 240#10
def cursorXMin : Coord := 0#10
def cursorXMax : Coord := 639#10
def cursorYMin : Coord := 0#10
def cursorYMax : Coord := 479#10

structure MouseCursor where
  CursorX : Coord
  CursorY : Coord
deriving DecidableEq, Repr

/-- `signed_delta_x` and `signed_delta_y`: the 9-bit concatenation is widened to the
11 bits of the target. -/
def signedDelta (usbDelta : Byte) : BitVec 11 :=
  (BitVec.ofBool (usbDelta.getLsbD 7) ++ usbDelta).signExtend 11

/-- `$signed({1'b0, c})` -/
def Coord.widen (c : Coord) : BitVec 11 := 0#1 ++ c

/-- `next_cursor_x` and `next_cursor_y`. -/
def nextCursor (cursor : Coord) (usbDelta : Byte) : BitVec 11 :=
  Coord.widen cursor + signedDelta usbDelta

/-- What the two chains of comparisons assign. -/
def clampNext (lo hi : Coord) (next : BitVec 11) : Coord :=
  if next.slt (Coord.widen lo) then lo
  else if (Coord.widen hi).slt next then hi
  else next.extractLsb' 0 10

/-- A rising edge of `frame_clk`. -/
def MouseCursor.frame (c : MouseCursor) (Reset : Bool) (usbDeltaX usbDeltaY : Byte) : MouseCursor :=
  if Reset then ⟨cursorXCenter, cursorYCenter⟩
  else
    { CursorX := clampNext cursorXMin cursorXMax (nextCursor c.CursorX usbDeltaX)
      CursorY := clampNext cursorYMin cursorYMax (nextCursor c.CursorY usbDeltaY) }

/-- A rising edge of `frame_clk` with `Reset` low and `channel0` on the GPIO. -/
def MouseCursor.frameWord (c : MouseCursor) (channel0 : Word) : MouseCursor :=
  c.frame false (usbDeltaX channel0) (usbDeltaY channel0)

/-- One frame edge for each word. -/
abbrev MouseCursor.frames : MouseCursor → List Word → MouseCursor :=
  Clocked.run MouseCursor.frameWord

/-- The position as integers. -/
def MouseCursor.x (c : MouseCursor) : Int := c.CursorX.toNat
def MouseCursor.y (c : MouseCursor) : Int := c.CursorY.toNat

/-- The cursor is on the screen. -/
def MouseCursor.OnScreen (c : MouseCursor) : Prop :=
  c.CursorX ≤ cursorXMax ∧ c.CursorY ≤ cursorYMax

instance (c : MouseCursor) : Decidable c.OnScreen := by
  unfold MouseCursor.OnScreen
  infer_instance

/-! ## The arithmetic -/

theorem signedDelta_toInt : ∀ usbDelta : Byte, (signedDelta usbDelta).toInt = usbDelta.toInt := by
  decide +kernel

theorem widen_toInt (c : Coord) : (Coord.widen c).toInt = c.toNat := by
  have hc := c.isLt
  have hnat : (Coord.widen c).toNat = c.toNat := by
    show (0#1 ++ c).toNat = c.toNat
    rw [BitVec.toNat_append]
    simp
  rw [BitVec.toInt_eq_toNat_of_lt (by omega), hnat]

theorem toNat_of_toInt_nonneg {next : BitVec 11} (h : 0 ≤ next.toInt) :
    (next.toNat : Int) = next.toInt := by
  have hnext := next.isLt
  rw [BitVec.toInt_eq_toNat_cond] at *
  split at h <;> omega

/-- On the screen the 11-bit sum does not overflow. -/
theorem nextCursor_toInt {cursor : Coord} (usbDelta : Byte) (h : cursor ≤ cursorXMax) :
    (nextCursor cursor usbDelta).toInt = cursor.toNat + usbDelta.toInt := by
  have hcursor : cursor.toNat ≤ 639 := h
  have hlo : -2 ^ 7 ≤ usbDelta.toInt := BitVec.le_toInt usbDelta
  have hhi : usbDelta.toInt < 2 ^ 7 := BitVec.toInt_lt
  rw [nextCursor, BitVec.toInt_add, widen_toInt, signedDelta_toInt]
  exact Int.bmod_eq_of_le (by omega) (by omega)

/-- The comparisons and the truncation are a clamp, whatever the sum. -/
theorem clampNext_toInt {lo hi : Coord} (h : lo ≤ hi) (next : BitVec 11) :
    ((clampNext lo hi next).toNat : Int) = min (max next.toInt lo.toNat) hi.toNat := by
  have hle : lo.toNat ≤ hi.toNat := h
  have hhi := hi.isLt
  have hslt (a b : BitVec 11) : a.slt b = true ↔ a.toInt < b.toInt := BitVec.slt_iff_toInt_lt
  unfold clampNext
  simp only [hslt, widen_toInt]
  split
  · omega
  · split
    · omega
    · have hnat : (next.toNat : Int) = next.toInt := toNat_of_toInt_nonneg (by omega)
      rw [BitVec.extractLsb'_toNat]
      omega

theorem cursorX_range : cursorXMin ≤ cursorXMax := by decide

theorem cursorY_range : cursorYMin ≤ cursorYMax := by decide

theorem clampNext_le {lo hi : Coord} (h : lo ≤ hi) (next : BitVec 11) :
    clampNext lo hi next ≤ hi := by
  have hclamp := clampNext_toInt h next
  rw [BitVec.le_def]
  omega

/-! ## Frame edges -/

section Frame

variable {c : MouseCursor}

/-- One frame edge is enough to be on the screen, from any power-up contents. -/
theorem frame_onScreen (c : MouseCursor) (usbDeltaX usbDeltaY : Byte) :
    (c.frame false usbDeltaX usbDeltaY).OnScreen :=
  ⟨clampNext_le cursorX_range _, clampNext_le cursorY_range _⟩

/-- Both coordinates are far from the limits of the 11-bit sum. -/
theorem MouseCursor.OnScreen.cursorY_le (h : c.OnScreen) : c.CursorY ≤ cursorXMax :=
  BitVec.le_trans h.2 (show cursorYMax ≤ cursorXMax by decide)

theorem frame_x (h : c.OnScreen) (usbDeltaX usbDeltaY : Byte) :
    (c.frame false usbDeltaX usbDeltaY).x = Saturating.step 0 639 c.x usbDeltaX.toInt := by
  have hclamp := clampNext_toInt cursorX_range (nextCursor c.CursorX usbDeltaX)
  rw [nextCursor_toInt usbDeltaX h.1] at hclamp
  exact hclamp

theorem frame_y (h : c.OnScreen) (usbDeltaX usbDeltaY : Byte) :
    (c.frame false usbDeltaX usbDeltaY).y = Saturating.step 0 479 c.y usbDeltaY.toInt := by
  have hclamp := clampNext_toInt cursorY_range (nextCursor c.CursorY usbDeltaY)
  rw [nextCursor_toInt usbDeltaY h.cursorY_le] at hclamp
  exact hclamp

/-- The cursor walks with the signed displacements of the words it samples. -/
theorem frames_walk (h : c.OnScreen) (words : List Word) :
    (c.frames words).x = walk 0 639 c.x (words.map fun w => (usbDeltaX w).toInt) ∧
    (c.frames words).y = walk 0 479 c.y (words.map fun w => (usbDeltaY w).toInt) := by
  induction words generalizing c with
  | nil => exact ⟨rfl, rfl⟩
  | cons w words ih =>
    have hnext := ih (frame_onScreen c (usbDeltaX w) (usbDeltaY w))
    rw [frame_x h, frame_y h] at hnext
    exact hnext

end Frame

/-! ## From report to cursor -/

/-- None of the intermediate values of a coordinate wraps: `next` stands for the exact
sum `p`, and is compared and cut to 10 bits like it. -/
structure Exact (lo hi : Coord) (next : BitVec 11) (p : Int) : Prop where
  sum : next.toInt = p
  below : next.slt (Coord.widen lo) = true ↔ p < lo.toNat
  above : (Coord.widen hi).slt next = true ↔ hi.toNat < p
  truncation : lo.toNat ≤ p → p ≤ hi.toNat → ((next.extractLsb' 0 10).toNat : Int) = p

theorem nextCursor_exact {lo hi cursor : Coord} (usbDelta : Byte) (h : cursor ≤ cursorXMax) :
    Exact lo hi (nextCursor cursor usbDelta) (cursor.toNat + usbDelta.toInt) := by
  have hsum := nextCursor_toInt usbDelta h
  refine ⟨hsum, ?_, ?_, fun hlo hhi => ?_⟩
  · rw [BitVec.slt_iff_toInt_lt, hsum, widen_toInt]
  · rw [BitVec.slt_iff_toInt_lt, hsum, widen_toInt]
  · have hnat := toNat_of_toInt_nonneg (by omega : 0 ≤ (nextCursor cursor usbDelta).toInt)
    have hlt := hi.isLt
    rw [BitVec.extractLsb'_toNat]
    omega

/-- End to end: the cursor is the fold of the clamped, signed displacements of the
reports; every slice of a report's word is the byte packed there; nothing wraps on the
way; and from any power-up contents the cursor is on the screen from the first frame
edge on. -/
theorem reports_to_cursor :
    (∀ c : MouseCursor, c.OnScreen → ∀ reports : List BootMouseReport,
      let c' := c.frames (reports.map mouseWord)
      c'.x = reports.foldl (fun p r => min (max (p + r.Xdispl.toInt) 0) 639) c.x ∧
      c'.y = reports.foldl (fun p r => min (max (p + r.Ydispl.toInt) 0) 479) c.y) ∧
    (∀ r : BootMouseReport, usbDeltaX (mouseWord r) = r.Xdispl ∧
      usbDeltaY (mouseWord r) = r.Ydispl ∧ Click (mouseWord r) = r.button) ∧
    (∀ (c : MouseCursor) (usbDelta : Byte), c.OnScreen →
      (signedDelta usbDelta).toInt = usbDelta.toInt ∧
      Exact cursorXMin cursorXMax (nextCursor c.CursorX usbDelta) (c.x + usbDelta.toInt) ∧
      Exact cursorYMin cursorYMax (nextCursor c.CursorY usbDelta) (c.y + usbDelta.toInt)) ∧
    ∀ (c : MouseCursor) (words : List Word), words ≠ [] → (c.frames words).OnScreen := by
  refine ⟨fun c hc reports => ?_, mouseWord_fields, fun c usbDelta hc => ?_, fun c words hne => ?_⟩
  · have hwalk := frames_walk hc (reports.map mouseWord)
    simp only [List.map_map, walk, List.foldl_map, Function.comp_apply, mouseWord_fields] at hwalk
    exact hwalk
  · exact ⟨signedDelta_toInt usbDelta, nextCursor_exact usbDelta hc.1,
      nextCursor_exact usbDelta hc.cursorY_le⟩
  · obtain ⟨w, words, rfl⟩ := List.exists_cons_of_ne_nil hne
    exact Clocked.run_invariant (fun c w _ => frame_onScreen c _ _) (frame_onScreen c _ _) words

end SocChess
