import SocChess.Lib.LineCode

/-!
# A TMDS channel: `encode.v`

One channel of the HDMI link. A data byte takes three pixel clocks to its ten-bit symbol:
its ones are counted, then the byte is coded differentially (`q_m`) and the ones of the
result are counted, then the symbol is chosen by the running disparity `cnt`. Everything
else that the symbol depends on is delayed to match.

The reset is asynchronous and clears `dout` and `cnt` only.
-/

namespace SocChess.Hdmi

/-- A symbol of a TMDS channel; bit 0 is sent first. -/
abbrev Symbol := BitVec 10

/-- The parameter `CHANNEL`. -/
inductive Channel
  | blue
  | green
  | red
deriving DecidableEq, Repr

/-- The parameter `MODE`. -/
inductive Mode
  | hdmi
  | dvi
deriving DecidableEq, Repr

def videogbnd : Channel → Symbol
  | .blue => 0b1011001100#10
  | .green => 0b0100110011#10
  | .red => 0b1011001100#10

/-- The source leaves the word of the blue channel undefined and never sends it. -/
def dilndgbnd : Channel → Symbol
  | .blue => 0#10
  | .green => 0b0100110011#10
  | .red => 0b0100110011#10

/-- The tokens `CTRLTOKEN0` to `CTRLTOKEN3`. -/
def ctrltoken : Bool → Bool → Symbol
  | false, false => 0b1101010100#10
  | false, true => 0b0010101011#10
  | true, false => 0b0101010100#10
  | true, true => 0b1010101011#10

/-- The words of auxiliary data. -/
def terc4 (adinVld : BitVec 4) : Symbol :=
  match adinVld with
  | 0b0000#4 => 0b1010011100#10
  | 0b0001#4 => 0b1001100011#10
  | 0b0010#4 => 0b1011100100#10
  | 0b0011#4 => 0b1011100010#10
  | 0b0100#4 => 0b0101110001#10
  | 0b0101#4 => 0b0100011110#10
  | 0b0110#4 => 0b0110001110#10
  | 0b0111#4 => 0b0100111100#10
  | 0b1000#4 => 0b1011001100#10
  | 0b1001#4 => 0b0100111001#10
  | 0b1010#4 => 0b0110011100#10
  | 0b1011#4 => 0b1011000110#10
  | 0b1100#4 => 0b1010001110#10
  | 0b1101#4 => 0b1001110001#10
  | 0b1110#4 => 0b0101100011#10
  | _ => 0b1011000011#10

/-! ## The coding -/

/-- The sum of the bits of a byte, in four bits. -/
def bitSum (v : BitVec 8) : BitVec 4 :=
  let bit (b : Bool) : BitVec 4 := (BitVec.ofBool b).setWidth 4
  bit (v.getLsbD 0) + bit (v.getLsbD 1) + bit (v.getLsbD 2) + bit (v.getLsbD 3) +
    bit (v.getLsbD 4) + bit (v.getLsbD 5) + bit (v.getLsbD 6) + bit (v.getLsbD 7)

def decision1 (n1d : BitVec 4) (vdinQ : BitVec 8) : Bool :=
  decide (4#4 < n1d) || (decide (n1d = 4#4) && !vdinQ.getLsbD 0)

/-- The wires `q_m`. -/
def qM (n1d : BitVec 4) (vdinQ : BitVec 8) : BitVec 9 :=
  let next (q d : Bool) : Bool := if decision1 n1d vdinQ then !(q ^^ d) else q ^^ d
  let q0 := vdinQ.getLsbD 0
  let q1 := next q0 (vdinQ.getLsbD 1)
  let q2 := next q1 (vdinQ.getLsbD 2)
  let q3 := next q2 (vdinQ.getLsbD 3)
  let q4 := next q3 (vdinQ.getLsbD 4)
  let q5 := next q4 (vdinQ.getLsbD 5)
  let q6 := next q5 (vdinQ.getLsbD 6)
  let q7 := next q6 (vdinQ.getLsbD 7)
  let q8 := if decision1 n1d vdinQ then false else true
  BitVec.ofBoolListLE [q0, q1, q2, q3, q4, q5, q6, q7, q8]

/-! ## Registers -/

/-- The inputs at a rising edge of `clkin`. -/
structure EncodeIn where
  rstin : Bool
  vdin : BitVec 8
  adin : BitVec 4
  c0 : Bool
  c1 : Bool
  vde : Bool
  ade : Bool
deriving DecidableEq, Repr

structure Encode where
  n1d : BitVec 4
  vdinQ : BitVec 8
  n1qM : BitVec 4
  n0qM : BitVec 4
  qMReg : BitVec 9
  cnt : BitVec 5
  vdeQ : Bool
  vdeReg : Bool
  adeQ : Bool
  adeReg : Bool
  adeRegQ : Bool
  adeRegQq : Bool
  c0Q : Bool
  c0Reg : Bool
  c1Q : Bool
  c1Reg : Bool
  adinQ : BitVec 4
  adinReg : BitVec 4
  dout : Symbol
deriving DecidableEq, Repr

namespace Encode

/-! ## The symbol -/

section Wires

variable (e : Encode)

def decision2 : Bool := decide (e.cnt = 0#5) || decide (e.n1qM = e.n0qM)

def decision3 : Bool :=
  (!e.cnt.msb && decide (e.n0qM < e.n1qM)) || (e.cnt.msb && decide (e.n1qM < e.n0qM))

/-- `dout` in the video data period. -/
def videoDout : Symbol :=
  let q8 := e.qMReg.getLsbD 8
  let low := e.qMReg.setWidth 8
  if e.decision2 then BitVec.ofBool (!q8) ++ BitVec.ofBool q8 ++ (if q8 then low else ~~~low)
  else if e.decision3 then 1#1 ++ BitVec.ofBool q8 ++ (~~~e.qMReg).setWidth 8
  else 0#1 ++ BitVec.ofBool q8 ++ low

/-- `cnt` in the video data period. -/
def videoCnt : BitVec 5 :=
  let q8 := e.qMReg.getLsbD 8
  let n1 := e.n1qM.setWidth 5
  let n0 := e.n0qM.setWidth 5
  if e.decision2 then (if !q8 then e.cnt + n0 - n1 else e.cnt + n1 - n0)
  else if e.decision3 then e.cnt + (BitVec.ofBool q8 ++ 0#1).setWidth 5 + (n0 - n1)
  else e.cnt - (BitVec.ofBool (!q8) ++ 0#1).setWidth 5 + (n1 - n0)

def digbnd (i : EncodeIn) : Bool := (i.ade && !e.adeReg) || (!e.adeReg && e.adeRegQq)

def adeVld (i : EncodeIn) : Channel → Bool
  | .blue => i.ade || e.adeReg || e.adeRegQq
  | _ => e.adeReg

def adinVld (i : EncodeIn) : Channel → BitVec 4
  | .blue =>
    if e.digbnd i then 0b11#2 ++ BitVec.ofBool e.c1Reg ++ BitVec.ofBool e.c0Reg
    else BitVec.ofBool (e.adinReg.getLsbD 3) ++ BitVec.ofBool (e.adinReg.getLsbD 2) ++
      BitVec.ofBool e.c1Reg ++ BitVec.ofBool e.c0Reg
  | _ => e.adinReg

/-- `dout` outside the video data period. -/
def blankDout (channel : Channel) (mode : Mode) (i : EncodeIn) : Symbol :=
  if i.vde ∧ mode = .hdmi then videogbnd channel
  else if e.adeVld i channel ∧ mode = .hdmi then terc4 (e.adinVld i channel)
  else if (i.ade || e.adeRegQq) ∧ channel ≠ .blue ∧ mode = .hdmi then dilndgbnd channel
  else ctrltoken e.c1Reg e.c0Reg

end Wires

/-! ## Clocks -/

/-- A rising edge of `clkin`. -/
def clock (channel : Channel) (mode : Mode) (e : Encode) (i : EncodeIn) : Encode where
  n1d := bitSum i.vdin
  vdinQ := i.vdin
  n1qM := bitSum ((qM e.n1d e.vdinQ).setWidth 8)
  n0qM := 8#4 - bitSum ((qM e.n1d e.vdinQ).setWidth 8)
  qMReg := qM e.n1d e.vdinQ
  cnt := if i.rstin then 0#5 else if e.vdeReg then e.videoCnt else 0#5
  vdeQ := i.vde
  vdeReg := e.vdeQ
  adeQ := i.ade
  adeReg := e.adeQ
  adeRegQ := e.adeReg
  adeRegQq := e.adeRegQ
  c0Q := i.c0
  c0Reg := e.c0Q
  c1Q := i.c1
  c1Reg := e.c1Q
  adinQ := i.adin
  adinReg := e.adinQ
  dout :=
    if i.rstin then 0#10
    else if e.vdeReg then e.videoDout
    else e.blankDout channel mode i

end Encode

/-- A rising edge of `clkin`, or a rising edge of `rstin` between two of them. -/
inductive EncodeEvent
  | clkin (i : EncodeIn)
  | rstRise
deriving DecidableEq, Repr

namespace Encode

def next (channel : Channel) (mode : Mode) (e : Encode) : EncodeEvent → Encode
  | .clkin i => e.clock channel mode i
  | .rstRise => { e with dout := 0#10, cnt := 0#5 }

abbrev run (channel : Channel) (mode : Mode) : Encode → List EncodeEvent → Encode :=
  Clocked.run (next channel mode)

end Encode

end SocChess.Hdmi
