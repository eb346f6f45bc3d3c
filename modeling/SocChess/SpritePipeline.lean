import SocChess.SpriteModule
import SocChess.Raster

/-!
# The sprite pipeline lags behind the raster

A sprite module reads its ROM on the falling edge of the pixel clock and loads its colour
register on the next rising edge, which is also the edge at which the raster moves on. The
renderer composites the register with the raster position of after that edge.

* `run_colour`: what the colour register holds in every run since a reset.
* `pipeline_not_aligned`: the first pixel of a frame is black.
* `pipeline_aligned_iff`: in every run, for every sprite module and ROM contents, exactly at
  which pixels the register holds the colour of the pixel's own word.
-/

namespace SocChess

/-! ## One sprite module beside the raster -/

/-- The configured latency of the ROM: with the output register of the memory primitives it
is two falling edges. -/
inductive Latency
  | one
  | two
deriving DecidableEq, Repr

def Latency.edges : Latency → Nat
  | .one => 1
  | .two => 2

/-- The raster, the two registers of the ROM and the colour register. -/
structure Pipeline where
  vga : VgaController
  latch : BitVec 3
  output : BitVec 3
  colour : Rgb
deriving DecidableEq, Repr

section Module

variable (m : SpriteModule) (rom : BitVec m.width → BitVec 3) (latency : Latency)

/-- `rom_q`. -/
def Pipeline.romQ (p : Pipeline) : BitVec 3 :=
  match latency with
  | .one => p.latch
  | .two => p.output

/-- A falling edge of the pixel clock: the ROM is addressed with the current position. -/
def Pipeline.fall (p : Pipeline) : Pipeline :=
  { p with latch := rom (m.romAddress p.vga.hc p.vga.vc), output := p.latch }

/-- A rising edge of the pixel clock. -/
def Pipeline.rise (p : Pipeline) (reset : Bool) : Pipeline :=
  { p with
    vga := p.vga.clock reset
    colour := if p.vga.activeNblank then m.palette.colour (p.romQ latency) else blankColour }

/-- One period of the pixel clock, from after a rising edge to after the next. -/
def Pipeline.clock (p : Pipeline) (reset : Bool) : Pipeline :=
  (p.fall m rom).rise m latency reset

abbrev Pipeline.run : Pipeline → List Bool → Pipeline :=
  Clocked.run (Pipeline.clock m rom latency)

/-- The palette colour of the ROM word addressed by a position. -/
def romColour (DrawX DrawY : Coord) : Rgb := m.palette.colour (rom (m.romAddress DrawX DrawY))

/-! ## The registers of a run -/

theorem clock_vga (p : Pipeline) (reset : Bool) :
    (p.clock m rom latency reset).vga = p.vga.clock reset := rfl

theorem run_raster (p : Pipeline) (resets : List Bool) :
    (p.run m rom latency resets).vga = p.vga.run resets :=
  Clocked.run_project (fun p reset => clock_vga m rom latency p reset) p resets

/-- After two clocks nothing of the registers before them is left. -/
theorem clock_clock_colour (p : Pipeline) (reset₁ reset₂ : Bool) :
    ((p.clock m rom latency reset₁).clock m rom latency reset₂).colour =
      if (p.vga.clock reset₁).activeNblank then
        match latency with
        | .one => romColour m rom (p.vga.clock reset₁).hc (p.vga.clock reset₁).vc
        | .two => romColour m rom p.vga.hc p.vga.vc
      else blankColour := by
  cases latency with
  | one => rfl
  | two => rfl

end Module

/-! ## Earlier raster positions -/

/-- The raster position one clock earlier. -/
def previous (position : Coord × Coord) : Coord × Coord :=
  if position.1 = 0#10 then
    (799#10, if position.2 = 0#10 then 524#10 else position.2 - 1#10)
  else (position.1 - 1#10, position.2)

theorem previous_tick {v : VgaController} (h : v.InRange) :
    previous (v.tick.hc, v.tick.vc) = (v.hc, v.vc) := by
  obtain ⟨hcol, hline⟩ := h
  have hhc := tick_hc v
  have hvc := tick_vc v
  have hone : ∀ b : Coord, (b - 1#10).toNat = (b.toNat + 1023) % 1024 := by
    intro b
    rw [BitVec.toNat_sub, Nat.add_comm]
    rfl
  have hzero : ∀ b : Coord, b = 0#10 ↔ b.toNat = 0 := fun b => BitVec.toNat_eq
  unfold previous
  simp only [hzero]
  -- The end of a line, of the last one or not, and the middle of a line.
  by_cases hlast : v.hc.toNat = 799
  · rw [if_pos hlast] at hhc hvc
    rw [if_pos hhc]
    refine Prod.ext (BitVec.eq_of_toNat_eq hlast.symm) (BitVec.eq_of_toNat_eq ?_)
    by_cases hbottom : v.vc.toNat = 524
    · rw [if_pos hbottom] at hvc
      simp only [hvc, if_true]
      exact hbottom.symm
    · rw [if_neg hbottom] at hvc
      have hdown : v.tick.vc.toNat ≠ 0 := by omega
      simp only [hdown, if_false]
      rw [hone]
      omega
  · rw [if_neg hlast] at hhc hvc
    have hmoved : v.tick.hc.toNat ≠ 0 := by omega
    rw [if_neg hmoved]
    refine Prod.ext (BitVec.eq_of_toNat_eq ?_) (BitVec.eq_of_toNat_eq hvc)
    show (v.tick.hc - 1#10).toNat = v.hc.toNat
    rw [hone]
    omega

/-- A pixel of the board comes after a visible position, unless it is the first of its
line. -/
theorem active_before_board {v : VgaController} (h : v.InRange)
    (hboard : OnBoard v.tick.hc v.tick.vc) :
    v.activeNblank = true ↔ v.tick.hc ≠ 0#10 := by
  obtain ⟨hcol, hline⟩ := h
  have hx : v.tick.hc.toNat < 480 := hboard.1
  have hy : v.tick.vc.toNat < 480 := hboard.2
  have hzero : v.tick.hc = 0#10 ↔ v.tick.hc.toNat = 0 := BitVec.toNat_eq
  rw [activeNblank_iff, Ne, hzero]
  rw [tick_hc] at hx ⊢
  rw [tick_vc] at hy
  split at hx
  · next hlast =>
    rw [if_pos hlast]
    omega
  · next hlast =>
    rw [if_neg hlast] at hy ⊢
    omega

/-! ## Runs -/

section Runs

variable (m : SpriteModule) (rom : BitVec m.width → BitVec 3) (latency : Latency)

/-- The colour composited with a pixel of the board: black for the first pixel of a line,
and otherwise that of the position as many clocks earlier as the ROM has edges. -/
theorem run_colour (power : Pipeline) (before : List Bool) {n : Nat} (hn : 2 ≤ n) :
    let p := power.run m rom latency (before ++ true :: List.replicate n false)
    OnBoard p.vga.hc p.vga.vc →
      p.colour =
        if p.vga.hc = 0#10 then blankColour
        else
          romColour m rom (previous^[latency.edges] (p.vga.hc, p.vga.vc)).1
            (previous^[latency.edges] (p.vga.hc, p.vga.vc)).2 := by
  intro p hboard
  obtain ⟨k, rfl⟩ := Nat.exists_eq_add_of_le' hn
  -- The state two clocks before `p`.
  let q := power.run m rom latency (before ++ true :: List.replicate k false)
  have hp : p = (q.clock m rom latency false).clock m rom latency false := by
    have hsplit : before ++ true :: List.replicate (k + 2) false =
        (before ++ true :: List.replicate k false) ++ [false, false] := by
      rw [List.append_assoc, List.cons_append, List.replicate_add]
      rfl
    show power.run m rom latency (before ++ true :: List.replicate (k + 2) false) = _
    rw [hsplit, Pipeline.run, Clocked.run_append]
    rfl
  have hq : q.vga.InRange := by
    have hraster : q.vga = VgaController.tick^[k] .origin := by
      rw [run_raster, run_reset_free]
    rw [hraster]
    exact raster_cycles.closed_iterate origin_inRange k
  have hnext : q.vga.tick.InRange := hq.clock false
  have hvga : p.vga = q.vga.tick.tick := by
    rw [hp]
    rfl
  rw [hvga] at hboard ⊢
  have hactive : (q.vga.clock false).activeNblank = true ↔ q.vga.tick.tick.hc ≠ 0#10 :=
    active_before_board hnext hboard
  have hone := previous_tick hnext
  have htwo := previous_tick hq
  rw [hp, clock_clock_colour]
  by_cases hfirst : q.vga.tick.tick.hc = 0#10
  · have hblank : ¬ (q.vga.clock false).activeNblank = true := fun h => hactive.mp h hfirst
    rw [if_pos hfirst, if_neg hblank]
  · rw [if_neg hfirst, if_pos (hactive.mpr hfirst)]
    cases latency with
    | one =>
      rw [Latency.edges, Function.iterate_one, hone]
      rfl
    | two =>
      rw [Latency.edges, Function.iterate_succ_apply, Function.iterate_one, hone, htwo]

end Runs

/-- At the top-left pixel of the second frame the module of the black bishop, with every word
of its ROM zero, shows black and not its colour for the word. -/
theorem pipeline_not_aligned :
    ¬ ∀ m ∈ spriteModules, ∀ (rom : BitVec m.width → BitVec 3) (latency : Latency)
      (power : Pipeline) (before : List Bool) (n : Nat), 420000 ≤ n →
      let p := power.run m rom latency (before ++ true :: List.replicate n false)
      OnBoard p.vga.hc p.vga.vc → p.colour = romColour m rom p.vga.hc p.vga.vc := by
  intro hclaim
  have hmem : blackBishop ∈ spriteModules := by simp [spriteModules]
  let power : Pipeline := ⟨.origin, 0#3, 0#3, blankColour⟩
  have hbishop := hclaim blackBishop hmem (fun _ => 0#3) .one power [] 420000 le_rfl
  have hcolour := run_colour blackBishop (fun _ => 0#3) .one power [] (n := 420000) (by decide)
  simp only at hbishop hcolour
  generalize hp : power.run blackBishop (fun _ => 0#3) .one
    ([] ++ true :: List.replicate 420000 false) = p at hbishop hcolour
  have hvga : p.vga = VgaController.tick^[420000] .origin := by
    rw [← hp, run_raster, run_reset_free]
  have hposition := origin_position 420000
  rw [← hvga] at hposition
  have hrange : p.vga.InRange := hvga ▸ raster_cycles.closed_iterate origin_inRange 420000
  obtain ⟨hcolumn, hline⟩ := (position_eq_iff (x := 0) (y := 0) hrange (by decide)).mp hposition
  have hx : p.vga.hc = 0#10 := BitVec.eq_of_toNat_eq hcolumn
  have hy : p.vga.vc = 0#10 := BitVec.eq_of_toNat_eq hline
  have hboard : OnBoard p.vga.hc p.vga.vc := by
    rw [hx, hy]
    decide
  rw [hcolour hboard, if_pos hx] at hbishop
  exact palette_ne_black hmem _ (hbishop hboard).symm

/-- In every run since a reset, for every sprite module, ROM contents and latency, let
`(x, y)` be a pixel of the board. The colour composited with it is that of the word addressed
one (two) raster positions earlier, and black at the start of a line. So it is the colour of
the pixel's own word exactly if the pixel is not the first of its line and the two words have
the same colour. -/
theorem pipeline_aligned_iff {m : SpriteModule} (hm : m ∈ spriteModules)
    (rom : BitVec m.width → BitVec 3) (latency : Latency) (power : Pipeline) (before : List Bool)
    {n : Nat} (hn : 2 ≤ n) :
    let p := power.run m rom latency (before ++ true :: List.replicate n false)
    let x := p.vga.hc
    let y := p.vga.vc
    let sampled := previous^[latency.edges] (x, y)
    OnBoard x y →
      (p.colour = if x = 0#10 then blankColour else romColour m rom sampled.1 sampled.2) ∧
      (p.colour = romColour m rom x y ↔
        x ≠ 0#10 ∧ romColour m rom sampled.1 sampled.2 = romColour m rom x y) := by
  intro p x y sampled hboard
  have hcolour := run_colour m rom latency power before hn hboard
  refine ⟨hcolour, ?_⟩
  rw [show p.colour = _ from hcolour]
  by_cases hfirst : x = 0#10
  · rw [if_pos hfirst]
    constructor
    · intro hblack
      exact absurd hblack.symm (palette_ne_black hm _)
    · rintro ⟨hx, -⟩
      exact absurd hfirst hx
  · rw [if_neg hfirst]
    exact (and_iff_right hfirst).symm

/-- In the first line of a frame, with a ROM whose words count up: the pixel 15 has the word
of the pixel 13 that is sampled for it, and the pixel 11 does not have that of the pixel 9. -/
theorem pipeline_aligned_iff_words :
    let rom : BitVec blackBishop.width → BitVec 3 := fun address => address.setWidth 3
    let p (n : Nat) := Pipeline.run blackBishop rom .two ⟨.origin, 0#3, 0#3, blankColour⟩
      ([false] ++ true :: List.replicate n false)
    (p 15).colour = romColour blackBishop rom (p 15).vga.hc (p 15).vga.vc ∧
    (p 11).colour ≠ romColour blackBishop rom (p 11).vga.hc (p 11).vga.vc := by
  intro rom p
  have hmem : blackBishop ∈ spriteModules := by simp [spriteModules]
  let power : Pipeline := ⟨.origin, 0#3, 0#3, blankColour⟩
  have hsame := pipeline_aligned_iff hmem rom .two power [false] (n := 15) (by decide) (by decide)
  have hother := pipeline_aligned_iff hmem rom .two power [false] (n := 11) (by decide) (by decide)
  exact ⟨hsame.2.mpr (by decide), mt hother.2.mp (by decide)⟩

end SocChess
