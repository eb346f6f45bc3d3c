import SocChess.TmdsChannel

/-!
# The HDMI transmitter: `hdmi_tx_v1_0.v`, `srldelay.v`

The colours, the syncs and the enables go through a delay line into three channel
encoders. The control inputs of the green and the red channel are not delayed: they
announce a video data period (the preamble) while its first pixels are still on the way.

The delay line is built from a primitive of the device, of which the code uses what
`Srl16e` states.
-/

namespace SocChess.Hdmi

/-! ## The delay line -/

/-- The shift register `SRL16E` with its clock enable tied high: a clock shifts one bit
in, and the output shows the bit shifted in as many clocks before the last one as the
address says. -/
structure Srl16e where
  State : Type
  shift : State → Bool → State
  q : State → BitVec 4 → Bool
  delay : ∀ (s : State) (d : Bool) (after : List Bool) (a : BitVec 4),
    after.length = a.toNat → q (Clocked.run shift s (d :: after)) a = d

/-- The registers of `srldelay`, one for each bit. -/
abbrev Srldelay (srl : Srl16e) (width : Nat) := Fin width → srl.State

namespace Srldelay

variable {srl : Srl16e} {width : Nat}

def clock (s : Srldelay srl width) (dataI : BitVec width) : Srldelay srl width :=
  fun i => srl.shift (s i) (dataI.getLsbD i)

def dataO (s : Srldelay srl width) (taps : BitVec 4) : BitVec width :=
  LineCode.fromBits width (List.ofFn fun i => srl.q (s i) taps)

theorem run_apply (s : Srldelay srl width) (is : List (BitVec width)) (i : Fin width) :
    Clocked.run clock s is i = Clocked.run srl.shift (s i) (is.map (·.getLsbD i)) := by
  induction is generalizing s with
  | nil => rfl
  | cons d is ih => exact ih (s.clock d)

/-- The output is the input of as many clocks before the last one as `TAPS` says. -/
theorem dataO_run (s : Srldelay srl width) (d : BitVec width) (after : List (BitVec width))
    {taps : BitVec 4} (h : after.length = taps.toNat) :
    dataO (Clocked.run clock s (d :: after)) taps = d := by
  refine BitVec.eq_of_getLsbD_eq fun i hi => ?_
  have hbit := srl.delay (s ⟨i, hi⟩) (d.getLsbD i) (after.map (·.getLsbD i)) taps (by simpa using h)
  rw [dataO, LineCode.fromBits_getLsbD _ hi, run_apply]
  exact hbit

theorem dataO_feed (s : Srldelay srl width) (is : Nat → BitVec width) (taps : BitVec 4) (n : Nat) :
    dataO (Clocked.feed clock s is (n + (taps.toNat + 1))) taps = is n := by
  rw [Clocked.feed_add, List.range_succ_eq_map, List.map_cons, Nat.add_zero]
  exact dataO_run _ _ _ (by simp)

end Srldelay

/-- The register as sixteen bits. -/
def Srl16e.register : Srl16e where
  State := BitVec 16
  shift s d := s.shiftConcat d
  q s a := s.getLsbD a.toNat
  delay s d after a h := by
    have hreach (n : Nat) (hn : n < 16) (after : List Bool) (hafter : after.length = n) :
        (Clocked.run BitVec.shiftConcat s (d :: after)).getLsbD n = d := by
      induction n generalizing after with
      | zero =>
        obtain rfl := List.eq_nil_of_length_eq_zero hafter
        simp
      | succ n ih =>
        obtain ⟨front, last, rfl⟩ := List.eq_nil_or_concat after |>.resolve_left (by
          rintro rfl
          cases hafter)
        rw [List.concat_eq_append, ← List.cons_append, Clocked.run_concat,
          BitVec.getLsbD_shiftConcat]
        simp only [hn, decide_true, Bool.true_and, Nat.succ_ne_zero, if_false, Nat.add_sub_cancel]
        exact ih (by omega) front (by simpa using hafter)
    exact hreach a.toNat a.isLt after h

/-! ## The transmitter -/

/-- The colour of a channel padded or cut to eight bits. -/
def colourDin {width : Nat} (colour : BitVec width) : BitVec 8 :=
  if 8 ≤ width then (colour >>> (width - 8)).setWidth 8 else colour.setWidth 8 <<< (8 - width)

def dilndpream : BitVec 4 := 0b1010#4
def videopream : BitVec 4 := 0b1000#4
def nullcontrl : BitVec 4 := 0b0000#4

/-- `SRL_DELAY`. -/
def srlDelay : Mode → BitVec 4
  | .hdmi => 0b1010#4
  | .dvi => 0b0001#4

/-- The inputs at a rising edge of `pix_clk`, with the colours as wide as in
`soc_chess_top`. -/
structure TxIn where
  pixClkLocked : Bool
  rst : Bool
  red : BitVec 4
  green : BitVec 4
  blue : BitVec 4
  hsync : Bool
  vsync : Bool
  vde : Bool
  aux0Din : BitVec 4
  aux1Din : BitVec 4
  aux2Din : BitVec 4
  ade : Bool
deriving DecidableEq, Repr

namespace TxIn

def rstI (i : TxIn) : Bool := i.rst || !i.pixClkLocked

/-- `{hdmi_ctl0, hdmi_ctl1, hdmi_ctl2, hdmi_ctl3}`. -/
def ctl (i : TxIn) : BitVec 4 :=
  if i.vde then videopream else if i.ade then dilndpream else nullcontrl

def dataI (i : TxIn) : BitVec 40 :=
  colourDin i.blue ++ colourDin i.green ++ colourDin i.red ++ i.aux0Din ++ i.aux1Din ++
    i.aux2Din ++ BitVec.ofBool i.hsync ++ BitVec.ofBool i.vsync ++ BitVec.ofBool i.vde ++
    BitVec.ofBool i.ade

end TxIn

/-- The registers of the transmitter. -/
structure HdmiTx (srl : Srl16e) where
  hdmiCtl : BitVec 4
  srldly0 : Srldelay srl 40
  encb : Encode
  encg : Encode
  encr : Encode

namespace HdmiTx

variable {srl : Srl16e}

section Wires

variable (mode : Mode) (tx : HdmiTx srl) (i : TxIn)

def dataO : BitVec 40 := tx.srldly0.dataO (srlDelay mode)

def ctl (k : Nat) : Bool :=
  match mode with
  | .hdmi => tx.hdmiCtl.getLsbD (3 - k)
  | .dvi => false

/-- The inputs of the blue channel, which carries the syncs. -/
def blueIn : EncodeIn where
  rstin := i.rstI
  vdin := (tx.dataO mode).extractLsb' 32 8
  adin := (tx.dataO mode).extractLsb' 12 4
  c0 := (tx.dataO mode).getLsbD 3
  c1 := (tx.dataO mode).getLsbD 2
  vde := (tx.dataO mode).getLsbD 1
  ade := (tx.dataO mode).getLsbD 0

def greenIn : EncodeIn where
  rstin := i.rstI
  vdin := (tx.dataO mode).extractLsb' 24 8
  adin := (tx.dataO mode).extractLsb' 8 4
  c0 := tx.ctl mode 0
  c1 := tx.ctl mode 1
  vde := (tx.dataO mode).getLsbD 1
  ade := (tx.dataO mode).getLsbD 0

def redIn : EncodeIn where
  rstin := i.rstI
  vdin := (tx.dataO mode).extractLsb' 16 8
  adin := (tx.dataO mode).extractLsb' 4 4
  c0 := tx.ctl mode 2
  c1 := tx.ctl mode 3
  vde := (tx.dataO mode).getLsbD 1
  ade := (tx.dataO mode).getLsbD 0

/-- A rising edge of `pix_clk`. -/
def clock : HdmiTx srl where
  hdmiCtl := i.ctl
  srldly0 := tx.srldly0.clock i.dataI
  encb := tx.encb.clock .blue mode (tx.blueIn mode i)
  encg := tx.encg.clock .green mode (tx.greenIn mode i)
  encr := tx.encr.clock .red mode (tx.redIn mode i)

end Wires

end HdmiTx

/-- The symbols of the three channels. -/
structure Symbols where
  blue : Symbol
  green : Symbol
  red : Symbol
deriving DecidableEq, Repr

/-- The registers `tmds_blue`, `tmds_green` and `tmds_red`. -/
def HdmiTx.symbols {srl : Srl16e} (tx : HdmiTx srl) : Symbols :=
  ⟨tx.encb.dout, tx.encg.dout, tx.encr.dout⟩

/-! ## The delayed inputs -/

section Unpack

variable (i : TxIn)

theorem dataI_blue : i.dataI.extractLsb' 32 8 = colourDin i.blue := by
  unfold TxIn.dataI
  iterate 9 rw [BitVec.extractLsb'_append_eq_of_le (by decide)]
  exact BitVec.extractLsb'_eq_self

theorem dataI_green : i.dataI.extractLsb' 24 8 = colourDin i.green := by
  unfold TxIn.dataI
  iterate 8 rw [BitVec.extractLsb'_append_eq_of_le (by decide)]
  exact BitVec.extractLsb'_append_eq_right

theorem dataI_red : i.dataI.extractLsb' 16 8 = colourDin i.red := by
  unfold TxIn.dataI
  iterate 7 rw [BitVec.extractLsb'_append_eq_of_le (by decide)]
  exact BitVec.extractLsb'_append_eq_right

theorem dataI_hsync : i.dataI.getLsbD 3 = i.hsync := by
  unfold TxIn.dataI
  iterate 4 rw [BitVec.getLsbD_append]
  simp

theorem dataI_vsync : i.dataI.getLsbD 2 = i.vsync := by
  unfold TxIn.dataI
  iterate 3 rw [BitVec.getLsbD_append]
  simp

theorem dataI_vde : i.dataI.getLsbD 1 = i.vde := by
  unfold TxIn.dataI
  iterate 2 rw [BitVec.getLsbD_append]
  simp

theorem dataI_ade : i.dataI.getLsbD 0 = i.ade := by
  unfold TxIn.dataI
  rw [BitVec.getLsbD_append]
  simp

end Unpack

/-! ## What the channels send -/

/-- Without auxiliary data a channel sends, three clocks later, the pixel; in the two
clocks before a pixel the guard band; and otherwise its control token. -/
theorem dout_feed (channel : Channel) (e : Encode) {js : Nat → EncodeIn} {n : Nat}
    (hrst : (js (n + 4)).rstin = false)
    (hade : (js n).ade = false ∧ (js (n + 2)).ade = false ∧ (js (n + 4)).ade = false) :
    let s := Clocked.feed (Encode.clock channel .hdmi) e js
    let i := js (n + 2)
    (s (n + 5)).dout =
      if i.vde then word (s (n + 4)).flip (qM (bitSum i.vdin) i.vdin)
      else if (js (n + 4)).vde then videogbnd channel
      else ctrltoken i.c1 i.c0 := by
  intro s i
  have hsecond : (s (n + 4)).Second i := .clock (.clock channel .hdmi (s (n + 2)) i) (js (n + 3))
  have hqq : (s (n + 4)).adeRegQq = (js n).ade := rfl
  obtain ⟨hade0, hade2, hade4⟩ := hade
  have hvld : (s (n + 4)).adeVld (js (n + 4)) channel = false := by
    cases channel <;> simp [Encode.adeVld, hsecond.adeReg, hqq, hade0, hade4, i, hade2]
  show (if (js (n + 4)).rstin then 0#10 else if (s (n + 4)).vdeReg then (s (n + 4)).videoDout
    else (s (n + 4)).blankDout channel .hdmi (js (n + 4))) = _
  rw [hrst, hsecond.vdeReg, Encode.videoDout_eq, hsecond.qMReg, Encode.blankDout, hvld, hqq, hade0,
    hade4, hsecond.c1Reg, hsecond.c0Reg]
  simp

namespace HdmiTx

variable {srl : Srl16e}

/-- The transmitter after the first `n` clocks of a stream of inputs. -/
abbrev feed (tx : HdmiTx srl) (is : Nat → TxIn) : Nat → HdmiTx srl :=
  Clocked.feed (clock .hdmi) tx is

section Feed

variable (tx : HdmiTx srl) (is : Nat → TxIn)

/-- The encoders see what entered eleven clocks before. -/
theorem dataO_feed (n : Nat) : (tx.feed is (n + 11)).dataO .hdmi = (is n).dataI := by
  have hline : (tx.feed is (n + 11)).srldly0 =
      Clocked.feed Srldelay.clock tx.srldly0 (fun k => (is k).dataI) (n + 11) :=
    Clocked.feed_project (f := srldly0) (g := fun _ i => i.dataI) (fun _ _ => rfl) tx is (n + 11)
  rw [dataO, hline]
  exact Srldelay.dataO_feed tx.srldly0 (fun k => (is k).dataI) 0b1010#4 n

theorem encb_feed (n : Nat) : (tx.feed is n).encb =
    Clocked.feed (Encode.clock .blue .hdmi) tx.encb
      (fun k => (tx.feed is k).blueIn .hdmi (is k)) n :=
  Clocked.feed_project (f := encb) (fun _ _ => rfl) tx is n

theorem encg_feed (n : Nat) : (tx.feed is n).encg =
    Clocked.feed (Encode.clock .green .hdmi) tx.encg
      (fun k => (tx.feed is k).greenIn .hdmi (is k)) n :=
  Clocked.feed_project (f := encg) (fun _ _ => rfl) tx is n

theorem encr_feed (n : Nat) : (tx.feed is n).encr =
    Clocked.feed (Encode.clock .red .hdmi) tx.encr
      (fun k => (tx.feed is k).redIn .hdmi (is k)) n :=
  Clocked.feed_project (f := encr) (fun _ _ => rfl) tx is n

end Feed

end HdmiTx

end SocChess.Hdmi
