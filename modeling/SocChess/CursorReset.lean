import SocChess.MouseCursor
import SocChess.VgaController

/-!
# A reset does not re-centre the cursor

`mouse_cursor` resets synchronously to the vertical sync, which `vga_controller`
holds low while the same reset is high. So the sync never rises with the reset high,
and the reset branch of the cursor is never taken.

* `frameEdge_reset`: no frame edge meets a reset.
* `reset_keeps_cursor`: a reset leaves the cursor alone.
* `reset_recentres_iff`: after the first frame edge the cursor is in the centre iff it
  was there before the reset.
-/

namespace SocChess

/-! ## The raster and the cursor -/

/-- The raster and the cursor that its vertical sync clocks. -/
structure Video where
  vga : VgaController
  cursor : MouseCursor
deriving DecidableEq, Repr

/-- The inputs of one pixel clock. The reset changes only between two clocks, so a
frame edge that the clock causes sees the same level. -/
structure PixelInput where
  reset : Bool
  usbDeltaX : Byte
  usbDeltaY : Byte
deriving DecidableEq, Repr

/-- The pixel clock makes the vertical sync rise. -/
def Video.FrameEdge (v : Video) (i : PixelInput) : Prop :=
  v.vga.vs = false ∧ (v.vga.clock i.reset).vs = true

instance (v : Video) (i : PixelInput) : Decidable (v.FrameEdge i) := by
  unfold Video.FrameEdge
  infer_instance

/-- A rising edge of `pixel_clk`. -/
def Video.step (v : Video) (i : PixelInput) : Video where
  vga := v.vga.clock i.reset
  cursor := if v.FrameEdge i then v.cursor.frame i.reset i.usbDeltaX i.usbDeltaY else v.cursor

abbrev Video.run : Video → List PixelInput → Video := Clocked.run Video.step

/-- The centre of the screen. -/
def MouseCursor.centre : MouseCursor := ⟨cursorXCenter, cursorYCenter⟩

section Reset

variable {v : Video} {i : PixelInput}

/-- The reset branch of `mouse_cursor` is dead: a frame edge needs the reset low. -/
theorem frameEdge_reset (h : v.FrameEdge i) : i.reset = false := reset_of_vs h.2

theorem step_reset (h : i.reset = true) : v.step i = ⟨.origin, v.cursor⟩ := by
  have hno : ¬ v.FrameEdge i := by
    intro hedge
    rw [frameEdge_reset hedge] at h
    cases h
  unfold Video.step
  rw [if_neg hno, h, clock_reset]

/-- However long the reset, the raster is at its origin and the cursor where it was. -/
theorem reset_keeps_cursor {resets : List PixelInput} (hne : resets ≠ [])
    (hhigh : ∀ i ∈ resets, i.reset = true) : v.run resets = ⟨.origin, v.cursor⟩ := by
  obtain ⟨i, rest, rfl⟩ := List.exists_cons_of_ne_nil hne
  have hfirst := hhigh i List.mem_cons_self
  refine Clocked.run_invariant_mem (P := fun i => i.reset = true)
    (I := fun w : Video => w = ⟨.origin, v.cursor⟩) ?_ (step_reset hfirst)
    fun j hj => hhigh j (List.mem_cons_of_mem _ hj)
  rintro w j hj rfl
  exact step_reset hj

/-- The first clock out of reset is a frame edge. -/
theorem frameEdge_origin (c : MouseCursor) (h : i.reset = false) :
    (Video.mk .origin c).FrameEdge i := by
  refine ⟨rfl, ?_⟩
  show (VgaController.origin.clock i.reset).vs = true
  rw [h]
  exact origin_clock_vs

end Reset

/-- Without displacement a coordinate between the bounds is reached only from
itself. -/
theorem clampNext_still {lo hi mid : Coord} (hlo : lo < mid) (hhi : mid < hi) (cursor : Coord) :
    clampNext lo hi (nextCursor cursor 0#8) = mid ↔ cursor = mid := by
  have hlo' : lo.toNat < mid.toNat := hlo
  have hhi' : mid.toNat < hi.toNat := hhi
  have hstill : nextCursor cursor 0#8 = Coord.widen cursor := BitVec.add_zero _
  have hclamp := clampNext_toInt (BitVec.le_of_lt (BitVec.lt_trans hlo hhi)) (nextCursor cursor 0#8)
  rw [hstill, widen_toInt] at hclamp
  rw [hstill, ← BitVec.toNat_inj, ← BitVec.toNat_inj]
  omega

/-- A frame edge without displacement moves no cursor to the centre. -/
theorem frame_still_centre (c : MouseCursor) :
    c.frame false 0#8 0#8 = .centre ↔ c = .centre := by
  have hx := clampNext_still (show cursorXMin < cursorXCenter by decide)
    (show cursorXCenter < cursorXMax by decide) c.CursorX
  have hy := clampNext_still (show cursorYMin < cursorYCenter by decide)
    (show cursorYCenter < cursorYMax by decide) c.CursorY
  obtain ⟨x, y⟩ := c
  simp only [MouseCursor.frame, MouseCursor.centre, Bool.false_eq_true, if_false,
    MouseCursor.mk.injEq]
  exact and_congr hx hy

/-- `first` is the first frame edge after the clocks `quiet`, all with the reset low, and
both displacement bytes are zero there. -/
structure Video.FirstFrame (v : Video) (quiet : List PixelInput) (first : PixelInput) : Prop where
  low : ∀ i ∈ quiet, i.reset = false
  none : ∀ before i after, quiet = before ++ i :: after → ¬ (v.run before).FrameEdge i
  edge : (v.run quiet).FrameEdge first
  still : first.usbDeltaX = 0#8 ∧ first.usbDeltaY = 0#8

namespace Video.FirstFrame

variable {c : MouseCursor} {quiet : List PixelInput} {first : PixelInput}

/-- After a reset the first frame edge is the first clock. -/
theorem quiet_eq_nil (h : (Video.mk .origin c).FirstFrame quiet first) : quiet = [] := by
  cases quiet with
  | nil => rfl
  | cons i rest =>
    have hlow := h.low i List.mem_cons_self
    exact absurd (frameEdge_origin c hlow) (h.none [] i rest rfl)

end Video.FirstFrame

/-- The cursor is anywhere after a reset: it was at the origin at power-up and a reset
leaves it there. -/
theorem reset_not_recentring :
    ¬ ∀ (v : Video) (resets quiet : List PixelInput) (first : PixelInput), resets ≠ [] →
      (∀ i ∈ resets, i.reset = true) → (v.run resets).FirstFrame quiet first →
      (v.run (resets ++ quiet ++ [first])).cursor = .centre := by
  intro hclaim
  let powerUp : Video := ⟨⟨0#10, 0#10, false, false⟩, ⟨0#10, 0#10⟩⟩
  have hcentre := hclaim powerUp [⟨true, 0#8, 0#8⟩] [] ⟨false, 0#8, 0#8⟩ (by decide) (by decide)
    ⟨by decide, by simp, by decide, rfl, rfl⟩
  exact absurd hcentre (by decide)

/-- From any state, after a reset of any length and the first frame edge that follows
it, the cursor is in the centre iff it was there before the reset. -/
theorem reset_recentres_iff (v : Video) {resets quiet : List PixelInput} {first : PixelInput}
    (hne : resets ≠ []) (hhigh : ∀ i ∈ resets, i.reset = true)
    (hfirst : (v.run resets).FirstFrame quiet first) :
    (v.run (resets ++ quiet ++ [first])).cursor = .centre ↔ v.cursor = .centre := by
  have hreset := reset_keeps_cursor (v := v) hne hhigh
  rw [hreset] at hfirst
  have hnil := hfirst.quiet_eq_nil
  subst hnil
  have hedge : (Video.mk .origin v.cursor).FrameEdge first := hfirst.edge
  obtain ⟨hx, hy⟩ := hfirst.still
  have hcursor : (v.run (resets ++ [] ++ [first])).cursor = v.cursor.frame false 0#8 0#8 := by
    rw [List.append_nil, Video.run, Clocked.run_append]
    show ((v.run resets).step first).cursor = _
    rw [hreset, Video.step, if_pos hedge, frameEdge_reset hedge, hx, hy]
  rw [hcursor]
  exact frame_still_centre v.cursor

/-- A cursor in the centre survives a reset of two clocks. -/
theorem reset_recentres_iff_centre :
    ((Video.mk ⟨17#10, 300#10, true, true⟩ .centre).run
      ([⟨true, 3#8, 0#8⟩, ⟨true, 0#8, 0#8⟩] ++ [] ++ [⟨false, 0#8, 0#8⟩])).cursor = .centre := by
  have hfirst : ((Video.mk ⟨17#10, 300#10, true, true⟩ .centre).run
      [⟨true, 3#8, 0#8⟩, ⟨true, 0#8, 0#8⟩]).FirstFrame [] ⟨false, 0#8, 0#8⟩ :=
    ⟨by decide, by simp, by decide, rfl, rfl⟩
  have h := reset_recentres_iff ⟨⟨17#10, 300#10, true, true⟩, .centre⟩ (by decide) (by decide)
    hfirst
  exact h.mpr rfl

end SocChess
