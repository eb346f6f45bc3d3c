import SocChess.GameLogic

/-!
# The raster: `vga_controller.sv`

Two counters and two registered sync signals, all clocked by `pixel_clk` with a
synchronous reset.
-/

namespace SocChess

/-- The last column and the last line of the raster, blanking included. -/
def hpixels : Coord := 0b1100011111#10
def vlines : Coord := 0b1000001100#10

structure VgaController where
  hc : Coord
  vc : Coord
  hs : Bool
  vs : Bool
deriving DecidableEq, Repr

/-- A rising edge of `pixel_clk`. The sync signals go by the counters as they were
before it. -/
def VgaController.clock (v : VgaController) (reset : Bool) : VgaController where
  hc :=
    if reset then 0#10
    else if v.hc = hpixels then 0#10
    else v.hc + 1#10
  vc :=
    if reset then 0#10
    else if v.hc = hpixels then (if v.vc = vlines then 0#10 else v.vc + 1#10)
    else v.vc
  hs :=
    if reset then false
    else if 0b1010010000#10 ≤ v.hc + 1#10 ∧ v.hc + 1#10 < 0b1011110000#10 then false
    else true
  vs :=
    if reset then false
    else if v.vc + 1#10 = 0b0111101010#10 ∨ v.vc + 1#10 = 0b0111101011#10 then false
    else true

/-- `active_nblank`. -/
def VgaController.activeNblank (v : VgaController) : Bool :=
  if 0b1010000000#10 ≤ v.hc ∨ 0b0111100000#10 ≤ v.vc then false else true

/-- The state a reset leads to. -/
def VgaController.origin : VgaController := ⟨0#10, 0#10, false, false⟩

@[simp] theorem clock_reset (v : VgaController) : v.clock true = .origin := rfl

/-- Out of reset the sync signal goes high at once: line 0 is far from the sync
lines. -/
theorem origin_clock_vs : (VgaController.origin.clock false).vs = true := by decide

/-- The sync signal is low after a clock with reset high. -/
theorem reset_of_vs {v : VgaController} {reset : Bool} (h : (v.clock reset).vs = true) :
    reset = false := by
  cases reset with
  | false => rfl
  | true => exact absurd h Bool.false_ne_true

end SocChess
