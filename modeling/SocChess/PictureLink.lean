import SocChess.ChessRenderer
import SocChess.HdmiLink
import SocChess.Lib.Scan
import SocChess.Raster

/-!
# The picture over the link

`soc_chess_top` feeds the transmitter from `vga_controller` and the renderer. The raster
keeps the rules of the link: a line is 640 clocks of pixels and 160 clocks of blanking.

* `displayIn_paced`: the enable keeps the rules, from any raster state in range.
* `picture_round_trip`: from the first blanking on, the receiver has every pixel at its
  place in the raster, and the syncs.
* `frame_round_trip`: the pixels of a frame, in order, are the rows of the picture.
-/

namespace SocChess.Hdmi

/-! ## The stream of the display -/

/-- The inputs of the transmitter at clock `n`, with the raster in state `v` at the start
and `colour n` the colour that the renderer shows. -/
def displayIn (v : VgaController) (colour : Nat → Rgb) (n : Nat) : TxIn where
  pixClkLocked := true
  rst := false
  red := (colour n).red
  green := (colour n).green
  blue := (colour n).blue
  hsync := (VgaController.tick^[n] v).hs
  vsync := (VgaController.tick^[n] v).vs
  vde := (VgaController.tick^[n] v).activeNblank
  aux0Din := 0#4
  aux1Din := 0#4
  aux2Din := 0#4
  ade := false

theorem displayIn_plain (v : VgaController) (colour : Nat → Rgb) : Plain (displayIn v colour) :=
  ⟨fun _ => rfl, fun _ => rfl⟩

/-- The stream from a later clock on is that of the raster at that clock. -/
theorem displayIn_add (v : VgaController) (colour : Nat → Rgb) (n k : Nat) :
    displayIn v colour (n + k) =
      displayIn (VgaController.tick^[n] v) (fun k => colour (n + k)) k := by
  have hshift :
      VgaController.tick^[n + k] v = VgaController.tick^[k] (VgaController.tick^[n] v) := by
    rw [Nat.add_comm, Function.iterate_add_apply]
  unfold displayIn
  rw [hshift]

/-- The columns go round on their own. -/
theorem columns_cycle :
    Cyclic.Cycles VgaController.tick VgaController.InRange (fun v => v.hc.toNat) 800 where
  closed v h := h.clock false
  bounded v h := Nat.lt_succ_of_le h.column
  next v h := by
    have hcol := h.column
    rw [tick_hc]
    split
    · omega
    · omega

section Paced

variable {v : VgaController}

/-- Within a line the columns count up. -/
theorem walk_line (h : v.InRange) {k : Nat} (hk : v.hc.toNat + k < 800) :
    (VgaController.tick^[k] v).hc.toNat = v.hc.toNat + k ∧
      (VgaController.tick^[k] v).vc.toNat = v.vc.toNat := by
  have hwalk := raster_cycles.pos_iterate h k
  have hreach := raster_cycles.closed_iterate h k
  have hbound := h.line
  have hposition : (VgaController.tick^[k] v).position = 800 * v.vc.toNat + (v.hc.toNat + k) := by
    rw [hwalk, VgaController.position]
    omega
  exact (position_eq_iff hreach hk).mp hposition

/-- The last visible column of a line is 639. -/
theorem activeNblank_falls (h : v.InRange) (hnow : v.activeNblank = true)
    (hnext : v.tick.activeNblank = false) : v.hc.toNat = 639 := by
  obtain ⟨hcol, hline⟩ := (activeNblank_iff v).mp hnow
  have hstep := walk_line h (k := 1) (by omega)
  rw [Function.iterate_one] at hstep
  rw [← Bool.not_eq_true, activeNblank_iff, hstep.1, hstep.2] at hnext
  omega

/-- The first visible column of a line is 0. -/
theorem activeNblank_rises (h : v.InRange) (hnow : v.activeNblank = false)
    (hnext : v.tick.activeNblank = true) : v.tick.hc.toNat = 0 := by
  have hbound := h.column
  rw [← Bool.not_eq_true, activeNblank_iff] at hnow
  rw [activeNblank_iff] at hnext
  rcases Nat.lt_or_eq_of_le hbound with hlt | hlast
  · have hstep := walk_line h (k := 1) (by omega)
    rw [Function.iterate_one] at hstep
    rw [hstep.1, hstep.2] at hnext
    omega
  · rw [tick_hc, if_pos hlast]

/-- The enable of the display keeps the rules of the link. -/
theorem displayIn_paced (h : v.InRange) (colour : Nat → Rgb) :
    Paced fun n => (displayIn v colour n).vde where
  gap n hnow hnext k hk hk' := by
    have hreach := raster_cycles.closed_iterate h n
    have hcol := activeNblank_falls hreach hnow (by
      rw [← Function.iterate_succ_apply' VgaController.tick]
      exact hnext)
    have hwalk := walk_line hreach (k := k) (by omega)
    show (VgaController.tick^[n + k] v).activeNblank = false
    rw [Nat.add_comm, Function.iterate_add_apply, ← Bool.not_eq_true, activeNblank_iff, hwalk.1]
    omega
  period n hnow hnext k hk hk' := by
    have hreach := raster_cycles.closed_iterate h (n + 1)
    have hcol := activeNblank_rises (raster_cycles.closed_iterate h n) hnow (by
      rw [← Function.iterate_succ_apply' VgaController.tick]
      exact hnext)
    rw [← Function.iterate_succ_apply' VgaController.tick] at hcol
    obtain ⟨-, hline⟩ := (activeNblank_iff _).mp hnext
    have hwalk := walk_line hreach (k := k - 1) (by
      show (VgaController.tick^[n + 1] v).hc.toNat + _ < _
      rw [hcol]
      omega)
    show (VgaController.tick^[n + k] v).activeNblank = true
    have hindex : n + k = (k - 1) + (n + 1) := by omega
    rw [hindex, Function.iterate_add_apply, activeNblank_iff, hwalk.1, hwalk.2]
    refine ⟨?_, hline⟩
    show (VgaController.tick^[n + 1] v).hc.toNat + _ < _
    rw [hcol]
    omega

end Paced

/-! ## Round trip -/

/-- What a monitor should see at a raster state `w` with the colour `c`. -/
def shown (w : VgaController) (c : Rgb) : Received :=
  if w.activeNblank then .pixel (colourDin c.red) (colourDin c.green) (colourDin c.blue)
  else if (VgaController.tick^[2] w).activeNblank then .guard
  else .sync w.hs w.vs

theorem expected_displayIn (v : VgaController) (colour : Nat → Rgb) (n : Nat) :
    expected (displayIn v colour) n = shown (VgaController.tick^[n] v) (colour n) := by
  have hahead : (displayIn v colour (n + 2)).vde =
      (VgaController.tick^[2] (VgaController.tick^[n] v)).activeNblank := by
    rw [displayIn_add]
    rfl
  have hnow : (displayIn v colour n).vde = (VgaController.tick^[n] v).activeNblank := rfl
  unfold expected content shown
  rw [hahead, hnow]
  cases (VgaController.tick^[n] v).activeNblank with
  | true => rfl
  | false =>
    cases (VgaController.tick^[2] (VgaController.tick^[n] v)).activeNblank with
    | true => rfl
    | false => rfl

section Picture

variable {srl : Srl16e} (l : Link srl) {v : VgaController} (colour : Nat → Rgb)

/-- From the first blanking on the receiver is right. -/
theorem shown_of_blanking (h : v.InRange) (hcol : v.hc.toNat = 640) (n : Nat) :
    (l.feed (displayIn v colour) (n + 17)).sink.out =
      shown (VgaController.tick^[n + 2] v) (colour (n + 2)) := by
  rw [← expected_displayIn]
  refine link_round_trip l (displayIn_plain v colour) (displayIn_paced h colour) (fun k hk => ?_) n
  have hwalk := walk_line h (k := k) (by omega)
  show (VgaController.tick^[k] v).activeNblank = false
  rw [← Bool.not_eq_true, activeNblank_iff, hwalk.1]
  omega

/-- One clock before column 799 and one before that. -/
theorem column_before {w : VgaController} (h : w.InRange) {x : Nat} (hx : 0 < x)
    (hcol : w.tick.hc.toNat = x) : w.hc.toNat = x - 1 ∧ w.tick.vc.toNat = w.vc.toNat := by
  have hbound := h.column
  have hne : w.hc.toNat ≠ 799 := by
    intro hlast
    rw [tick_hc, if_pos hlast] at hcol
    omega
  rw [tick_hc, if_neg hne] at hcol
  rw [tick_vc, if_neg hne]
  exact ⟨by omega, rfl⟩

theorem column_zero {w : VgaController} (h : w.InRange) (hcol : w.tick.hc.toNat = 0) :
    w.hc.toNat = 799 := by
  have hbound := h.column
  rw [tick_hc] at hcol
  split at hcol
  · assumption
  · omega

/-- The guard band carries no sync levels, and none is lost: both syncs are high there. -/
theorem guard_syncs {w : VgaController} (h : w.InRange) (hnow : w.tick.activeNblank = false)
    (hahead : w.tick.tick.tick.activeNblank = true) : w.tick.hs = true ∧ w.tick.vs = true := by
  have hrange : w.tick.InRange := h.clock false
  obtain ⟨-, hvisible⟩ := (activeNblank_iff _).mp hahead
  -- The guard band is columns 798 and 799 of a line before a visible one.
  have hplace : (w.tick.hc.toNat = 798 ∨ w.tick.hc.toNat = 799) ∧
      w.tick.vc.toNat ≠ 489 ∧ w.tick.vc.toNat ≠ 490 := by
    cases hmid : w.tick.tick.activeNblank with
    | true =>
      have hlast := column_zero hrange (activeNblank_rises hrange hnow hmid)
      obtain ⟨-, hline⟩ := (activeNblank_iff _).mp hmid
      rw [tick_vc, if_pos hlast] at hline
      refine ⟨.inr hlast, ?_⟩
      split at hline
      · omega
      · omega
    | false =>
      have hnext : w.tick.tick.InRange := hrange.clock false
      have hlast := column_zero hnext (activeNblank_rises hnext hmid hahead)
      obtain ⟨hcol, hkeep⟩ := column_before hrange (by decide) hlast
      have hline : w.tick.tick.tick.vc.toNat = _ := tick_vc w.tick.tick
      rw [if_pos hlast, hkeep] at hline
      rw [hline] at hvisible
      refine ⟨.inl hcol, ?_⟩
      split at hvisible
      · omega
      · omega
  obtain ⟨hcol, hline⟩ := hplace
  have hbefore : 797 ≤ w.hc.toNat ∧ w.tick.vc.toNat = w.vc.toNat := by
    rcases hcol with hcol | hcol
    · obtain ⟨hprev, hkeep⟩ := column_before h (by decide) hcol
      exact ⟨by omega, hkeep⟩
    · obtain ⟨hprev, hkeep⟩ := column_before h (by decide) hcol
      exact ⟨by omega, hkeep⟩
  constructor
  · rw [← Bool.not_eq_false, tick_hs_iff]
    omega
  · rw [← Bool.not_eq_false, tick_vs_iff]
    omega

/-- From every raster state in range, whatever the transmitter and the receiver held: from
at the latest 801 clocks on, the receiver reports fifteen clocks later the colour of every
visible position and the syncs of every other; in the guard band, which carries none, both
are high. -/
theorem picture_round_trip (h : v.InRange) :
    ∃ s ≤ 801, ∀ n ≥ s,
      let w := VgaController.tick^[n] v
      let out := (l.feed (displayIn v colour) (n + 15)).sink.out
      out = shown w (colour n) ∧ (out = .guard → w.hs = true ∧ w.vs = true) := by
  have hcolumn := h.column
  -- The blanking begins `s` clocks from now.
  obtain ⟨s, hs, hblank⟩ : ∃ s < 800, (VgaController.tick^[s] v).hc.toNat = 640 := by
    refine ⟨(640 + 800 - v.hc.toNat) % 800, Nat.mod_lt _ (by decide), ?_⟩
    rw [columns_cycle.pos_iterate h]
    omega
  have hreach := raster_cycles.closed_iterate h s
  refine ⟨s + 2, by omega, fun n hn => ?_⟩
  obtain ⟨k, rfl⟩ : ∃ k, n = s + (k + 2) := ⟨n - s - 2, by omega⟩
  have hshift : VgaController.tick^[s + (k + 2)] v =
      VgaController.tick^[k + 2] (VgaController.tick^[s] v) := by
    rw [Nat.add_comm, Function.iterate_add_apply]
  have hout : (l.feed (displayIn v colour) (s + (k + 2) + 15)).sink.out =
      shown (VgaController.tick^[s + (k + 2)] v) (colour (s + (k + 2))) := by
    have hfeed : l.feed (displayIn v colour) (s + (k + 17)) =
        Clocked.feed Link.clock (l.feed (displayIn v colour) s)
          (fun j => displayIn v colour (s + j)) (k + 17) := Clocked.feed_shift ..
    have hinputs : (fun j => displayIn v colour (s + j)) =
        displayIn (VgaController.tick^[s] v) fun j => colour (s + j) :=
      funext fun j => displayIn_add v colour s j
    rw [hinputs] at hfeed
    show (l.feed (displayIn v colour) (s + (k + 17))).sink.out = _
    rw [hfeed, hshift]
    exact shown_of_blanking _ (fun j => colour (s + j)) hreach hblank k
  refine ⟨hout, fun hguard => ?_⟩
  rw [hout, hshift, shown] at hguard
  rw [hshift]
  have hbefore := raster_cycles.closed_iterate hreach (k + 1)
  rw [Function.iterate_succ_apply'] at hguard ⊢
  split at hguard
  · cases hguard
  · next hnow =>
    split at hguard
    · next hahead => exact guard_syncs hbefore (Bool.eq_false_of_not_eq_true hnow) hahead
    · cases hguard

/-! ## Frames -/

/-- The pixel in a report. -/
def pixel? : Received → Option (BitVec 8 × BitVec 8 × BitVec 8)
  | .pixel red green blue => some (red, green, blue)
  | _ => none

theorem pixel?_shown (w : VgaController) (c : Rgb) :
    pixel? (shown w c) =
      if w.activeNblank then some (colourDin c.red, colourDin c.green, colourDin c.blue)
      else none := by
  unfold shown
  split
  · rfl
  · split <;> rfl

/-- From the same clock on, in every frame: the pixels received in the 420000 clocks after
the raster was at the top left corner are, in order, the 480 rows of 640 colours. -/
theorem frame_round_trip (h : v.InRange) :
    ∃ s ≤ 801, ∀ n ≥ s, (VgaController.tick^[n] v).position = 0 →
      (List.range 420000).filterMap
          (fun k => pixel? (l.feed (displayIn v colour) (n + k + 15)).sink.out) =
        (List.range 480).flatMap fun y => (List.range 640).map fun x =>
          (colourDin (colour (n + (800 * y + x))).red,
            colourDin (colour (n + (800 * y + x))).green,
            colourDin (colour (n + (800 * y + x))).blue) := by
  obtain ⟨s, hs, hpicture⟩ := picture_round_trip l colour h
  refine ⟨s, hs, fun n hn hcorner => ?_⟩
  have hreach := raster_cycles.closed_iterate h n
  -- Clock `800 * y + x` of the frame is at column `x` of line `y`.
  have hplace (y : Nat) (hy : y < 525) (x : Nat) (hx : x < 800) :
      pixel? (l.feed (displayIn v colour) (n + (800 * y + x) + 15)).sink.out =
        if x < 640 ∧ y < 480 then
          some (colourDin (colour (n + (800 * y + x))).red,
            colourDin (colour (n + (800 * y + x))).green,
            colourDin (colour (n + (800 * y + x))).blue)
        else none := by
    have hout := (hpicture (n + (800 * y + x)) (by omega)).1
    have hwalk := raster_cycles.pos_iterate hreach (800 * y + x)
    rw [hcorner, Nat.zero_add, Nat.mod_eq_of_lt (by omega), ← Function.iterate_add_apply,
      Nat.add_comm _ n] at hwalk
    have hrange := raster_cycles.closed_iterate h (n + (800 * y + x))
    obtain ⟨hcol, hline⟩ := (position_eq_iff hrange hx).mp hwalk
    rw [hout, pixel?_shown]
    simp only [activeNblank_iff, hcol, hline]
  show (List.range (525 * 800)).filterMap _ = _
  refine Scan.filterMap_window (by decide) (by decide) (fun y hy x hx => ?_)
    fun y hy x hx hno => ?_
  · rw [hplace y (by omega) x (by omega), if_pos ⟨hx, hy⟩]
  · rw [hplace y hy x hx, if_neg fun hin => hno ⟨hin.2, hin.1⟩]

end Picture

/-! ## A picture from power-up -/

/-- A display of vertical stripes, from a reset. -/
def stripes (n : Nat) : Rgb := ⟨BitVec.ofNat 4 n, 0x7#4, 0x0#4⟩

theorem picture_round_trip_stripes :
    ∃ s ≤ 801, ∀ n ≥ s,
      let w := VgaController.tick^[n] .origin
      let out := (Link.zero.feed (displayIn .origin stripes) (n + 15)).sink.out
      out = shown w (stripes n) ∧ (out = .guard → w.hs = true ∧ w.vs = true) :=
  picture_round_trip Link.zero stripes origin_inRange

/-- The second frame after the reset. -/
theorem frame_round_trip_stripes :
    (List.range 420000).filterMap (fun k =>
        pixel? (Link.zero.feed (displayIn .origin stripes) (420000 + k + 15)).sink.out) =
      (List.range 480).flatMap fun _ => (List.range 640).map fun x =>
        (BitVec.ofNat 4 x ++ 0#4, 0x70#8, 0x00#8) := by
  obtain ⟨s, hs, hframe⟩ := frame_round_trip Link.zero stripes origin_inRange
  have hcorner : (VgaController.tick^[420000] .origin).position = 0 := origin_position 420000
  rw [hframe 420000 (by omega) hcorner]
  -- A line and the frame before it have a multiple of 16 clocks.
  have hstripe (y x : Nat) : BitVec.ofNat 4 (420000 + (800 * y + x)) = BitVec.ofNat 4 x := by
    apply BitVec.eq_of_toNat_eq
    rw [BitVec.toNat_ofNat, BitVec.toNat_ofNat]
    omega
  have hdin : ∀ c : BitVec 4, colourDin c = c ++ 0#4 := by decide
  have hgreen : 0x7#4 ++ 0#4 = 0x70#8 := rfl
  have hblue : 0x0#4 ++ 0#4 = 0x00#8 := rfl
  simp only [stripes, hstripe, hdin, hgreen, hblue]

end SocChess.Hdmi
