import SocChess.HdmiTx

/-!
# The HDMI link

What the transmitter sends, and a receiver for it. The receiver sees nothing but the
three symbols of each clock. It follows the rules of the format: a control token ends a
video data period; a video data period begins after at least eight preamble tokens and
two guard band symbols; anything else is an error, from which only a control token
recovers.

* `sends_content`: fourteen clocks after its inputs the transmitter sends what the
  abstract `content` says.
* `Sink.step_control`, `Sink.step_pixel`, `Sink.step_guard`: the receiver step by step, in
  terms of the content.
* `tracks_step`: one clock keeps the receiver in step with the stream.
* `link_round_trip`: the receiver recovers every pixel and every sync level.
-/

namespace SocChess.Hdmi

/-! ## Content -/

/-- What the three channels carry in one clock. -/
inductive Content
  | pixel (red green blue : BitVec 8)
  | guard
  | control (hsync vsync preamble : Bool)
deriving DecidableEq, Repr

/-- The symbols stand for the content. -/
def Symbols.Sends (w : Symbols) : Content → Prop
  | .pixel red green blue =>
    (∀ c1 c0, w.blue ≠ ctrltoken c1 c0) ∧
      tmdsDecode w.red = red ∧ tmdsDecode w.green = green ∧ tmdsDecode w.blue = blue
  | .guard => w = ⟨videogbnd .blue, videogbnd .green, videogbnd .red⟩
  | .control hsync vsync preamble =>
    w = ⟨ctrltoken vsync hsync, ctrltoken false preamble, ctrltoken false false⟩

/-- The content for clock `n` of a stream of inputs. The two clocks before a pixel are
guard band, and the eight before those are preamble. -/
def content (is : Nat → TxIn) (n : Nat) : Content :=
  if (is n).vde then
    .pixel (colourDin (is n).red) (colourDin (is n).green) (colourDin (is n).blue)
  else if (is (n + 2)).vde then .guard
  else .control (is n).hsync (is n).vsync (is (n + 10)).vde

/-- The transmitter runs out of reset and without auxiliary data. -/
structure Plain (is : Nat → TxIn) : Prop where
  reset : ∀ n, (is n).rstI = false
  ade : ∀ n, (is n).ade = false

section Transmitter

variable {srl : Srl16e} (tx : HdmiTx srl) {is : Nat → TxIn}

/-- The inputs `js` of a channel encoder are, eleven clocks late, a colour and two control
bits of the stream. -/
structure Enters (is : Nat → TxIn) (js : Nat → EncodeIn) (colour : Nat → BitVec 8)
    (c1 c0 : Nat → Bool) : Prop where
  rstin : ∀ n, (js n).rstin = (is n).rstI
  vdin : ∀ n, (js (n + 11)).vdin = colour n
  c1 : ∀ n, (js (n + 11)).c1 = c1 n
  c0 : ∀ n, (js (n + 11)).c0 = c0 n
  vde : ∀ n, (js (n + 11)).vde = (is n).vde
  ade : ∀ n, (js (n + 11)).ade = (is n).ade

theorem Enters.dout {js : Nat → EncodeIn} {colour : Nat → BitVec 8} {c1 c0 : Nat → Bool}
    (henters : Enters is js colour c1 c0) (h : Plain is) (channel : Channel) (e : Encode)
    (n : Nat) :
    ∃ flip, (Clocked.feed (Encode.clock channel .hdmi) e js (n + 16)).dout =
      if (is (n + 2)).vde then word flip (qM (bitSum (colour (n + 2))) (colour (n + 2)))
      else if (is (n + 4)).vde then videogbnd channel
      else ctrltoken (c1 (n + 2)) (c0 (n + 2)) := by
  have hrst : (js (n + 11 + 4)).rstin = false := by rw [henters.rstin, h.reset]
  have hade (k : Nat) : (js (k + 11)).ade = false := by rw [henters.ade, h.ade]
  have hdout := dout_feed channel e (n := n + 11) hrst ⟨hade n, hade (n + 2), hade (n + 4)⟩
  have hvde : (js (n + 11 + 2)).vde = (is (n + 2)).vde := henters.vde (n + 2)
  have hahead : (js (n + 11 + 4)).vde = (is (n + 4)).vde := henters.vde (n + 4)
  have hvdin : (js (n + 11 + 2)).vdin = colour (n + 2) := henters.vdin (n + 2)
  have hc1 : (js (n + 11 + 2)).c1 = c1 (n + 2) := henters.c1 (n + 2)
  have hc0 : (js (n + 11 + 2)).c0 = c0 (n + 2) := henters.c0 (n + 2)
  refine ⟨(Clocked.feed (Encode.clock channel .hdmi) e js (n + 15)).flip, ?_⟩
  rw [← hvde, ← hahead, ← hvdin, ← hc1, ← hc0]
  exact hdout

theorem blueIn_enters (is : Nat → TxIn) :
    Enters is (fun n => (tx.feed is n).blueIn .hdmi (is n)) (fun n => colourDin (is n).blue)
      (fun n => (is n).vsync) (fun n => (is n).hsync) where
  rstin _ := rfl
  vdin n := by rw [HdmiTx.blueIn, tx.dataO_feed is n, dataI_blue]
  c1 n := by rw [HdmiTx.blueIn, tx.dataO_feed is n, dataI_vsync]
  c0 n := by rw [HdmiTx.blueIn, tx.dataO_feed is n, dataI_hsync]
  vde n := by rw [HdmiTx.blueIn, tx.dataO_feed is n, dataI_vde]
  ade n := by rw [HdmiTx.blueIn, tx.dataO_feed is n, dataI_ade]

/-- The preamble bits are those of one clock before: they do not go through the delay
line. -/
theorem ctl_feed (is : Nat → TxIn) (n k : Nat) :
    (tx.feed is (n + 11)).ctl .hdmi k = (is (n + 10)).ctl.getLsbD (3 - k) := rfl

theorem ctl_plain (h : Plain is) (n : Nat) :
    (is n).ctl.getLsbD 3 = (is n).vde ∧ (is n).ctl.getLsbD 2 = false ∧
      (is n).ctl.getLsbD 1 = false ∧ (is n).ctl.getLsbD 0 = false := by
  unfold TxIn.ctl
  rw [h.ade]
  cases (is n).vde <;> decide

theorem greenIn_enters (h : Plain is) :
    Enters is (fun n => (tx.feed is n).greenIn .hdmi (is n)) (fun n => colourDin (is n).green)
      (fun _ => false) (fun n => (is (n + 10)).vde) where
  rstin _ := rfl
  vdin n := by rw [HdmiTx.greenIn, tx.dataO_feed is n, dataI_green]
  c1 n := (ctl_feed tx is n 1).trans (ctl_plain h (n + 10)).2.1
  c0 n := (ctl_feed tx is n 0).trans (ctl_plain h (n + 10)).1
  vde n := by rw [HdmiTx.greenIn, tx.dataO_feed is n, dataI_vde]
  ade n := by rw [HdmiTx.greenIn, tx.dataO_feed is n, dataI_ade]

theorem redIn_enters (h : Plain is) :
    Enters is (fun n => (tx.feed is n).redIn .hdmi (is n)) (fun n => colourDin (is n).red)
      (fun _ => false) (fun _ => false) where
  rstin _ := rfl
  vdin n := by rw [HdmiTx.redIn, tx.dataO_feed is n, dataI_red]
  c1 n := (ctl_feed tx is n 3).trans (ctl_plain h (n + 10)).2.2.2
  c0 n := (ctl_feed tx is n 2).trans (ctl_plain h (n + 10)).2.2.1
  vde n := by rw [HdmiTx.redIn, tx.dataO_feed is n, dataI_vde]
  ade n := by rw [HdmiTx.redIn, tx.dataO_feed is n, dataI_ade]

/-- Fourteen clocks after it entered, the transmitter sends the content. -/
theorem sends_content (h : Plain is) (n : Nat) :
    (tx.feed is (n + 16)).symbols.Sends (content is (n + 2)) := by
  obtain ⟨flipb, hblue⟩ := (blueIn_enters tx is).dout h .blue tx.encb n
  obtain ⟨flipg, hgreen⟩ := (greenIn_enters tx h).dout h .green tx.encg n
  obtain ⟨flipr, hred⟩ := (redIn_enters tx h).dout h .red tx.encr n
  rw [← HdmiTx.encb_feed] at hblue
  rw [← HdmiTx.encg_feed] at hgreen
  rw [← HdmiTx.encr_feed] at hred
  unfold HdmiTx.symbols content
  rw [hblue, hgreen, hred]
  cases (is (n + 2)).vde with
  | true =>
    exact ⟨word_ne_ctrltoken _ _, decode_word _ _ _, decode_word _ _ _, decode_word _ _ _⟩
  | false =>
    cases (is (n + 4)).vde with
    | true => simp [Symbols.Sends]
    | false => simp [Symbols.Sends]

end Transmitter

/-! ## The receiver -/

/-- The control bits `c1` and `c0` of a control token. -/
def controlToken (s : Symbol) : Option (Bool × Bool) :=
  if s = ctrltoken false false then some (false, false)
  else if s = ctrltoken false true then some (false, true)
  else if s = ctrltoken true false then some (true, false)
  else if s = ctrltoken true true then some (true, true)
  else none

theorem controlToken_ctrltoken (c1 c0 : Bool) : controlToken (ctrltoken c1 c0) = some (c1, c0) := by
  cases c1 <;> cases c0 <;> rfl

theorem controlToken_none {s : Symbol} (h : ∀ c1 c0, s ≠ ctrltoken c1 c0) :
    controlToken s = none := by
  simp only [controlToken, h, if_false]

/-- What the receiver reports for a clock. -/
inductive Received
  | pixel (red green blue : BitVec 8)
  | guard
  | sync (hsync vsync : Bool)
  | error
deriving DecidableEq, Repr

/-- Where in the format the receiver is: without orientation, in a control period with so
many preamble tokens in a row, after one guard band symbol, or in a video data period. -/
inductive Phase
  | lost
  | control (preamble : Nat)
  | guard
  | video
deriving DecidableEq, Repr

/-- The preamble tokens in a row up to here. -/
def Phase.preamble : Phase → Nat
  | .control n => n
  | _ => 0

/-- The receiver: its phase and its report for the last clock. -/
structure Sink where
  phase : Phase
  out : Received
deriving DecidableEq, Repr

def Symbols.isPreamble (w : Symbols) : Bool :=
  w.green == ctrltoken false true && w.red == ctrltoken false false

def Symbols.isGuard (w : Symbols) : Bool :=
  w == ⟨videogbnd .blue, videogbnd .green, videogbnd .red⟩

def Sink.step (s : Sink) (w : Symbols) : Sink :=
  match controlToken w.blue with
  | some (vsync, hsync) =>
    ⟨.control (if w.isPreamble then s.phase.preamble + 1 else 0), .sync hsync vsync⟩
  | none =>
    match s.phase with
    | .lost => ⟨.lost, .error⟩
    | .control n => if 8 ≤ n ∧ w.isGuard then ⟨.guard, .guard⟩ else ⟨.lost, .error⟩
    | .guard => if w.isGuard then ⟨.video, .guard⟩ else ⟨.lost, .error⟩
    | .video => ⟨.video, .pixel (tmdsDecode w.red) (tmdsDecode w.green) (tmdsDecode w.blue)⟩

section Sink

variable {s : Sink} {w : Symbols}

theorem Sink.step_control {hsync vsync preamble : Bool}
    (h : w.Sends (.control hsync vsync preamble)) :
    s.step w =
      ⟨.control (if preamble then s.phase.preamble + 1 else 0), .sync hsync vsync⟩ := by
  obtain rfl : w = _ := h
  have hpreamble : (Symbols.mk (ctrltoken vsync hsync) (ctrltoken false preamble)
      (ctrltoken false false)).isPreamble = preamble := by
    cases preamble <;> rfl
  unfold Sink.step
  rw [controlToken_ctrltoken, hpreamble]

theorem Sink.step_pixel {red green blue : BitVec 8} (h : w.Sends (.pixel red green blue))
    (hphase : s.phase = .video) : s.step w = ⟨.video, .pixel red green blue⟩ := by
  obtain ⟨hnone, rfl, rfl, rfl⟩ := h
  unfold Sink.step
  rw [controlToken_none hnone, hphase]

theorem Sink.step_guard (h : w.Sends .guard) :
    (∀ n, s.phase = .control n → 8 ≤ n → s.step w = ⟨.guard, .guard⟩) ∧
      (s.phase = .guard → s.step w = ⟨.video, .guard⟩) := by
  obtain rfl : w = _ := h
  have hnone : controlToken (videogbnd .blue) = none := by decide
  have hguard : (Symbols.mk (videogbnd .blue) (videogbnd .green) (videogbnd .red)).isGuard = true :=
    rfl
  refine ⟨fun n hphase hn => ?_, fun hphase => ?_⟩
  · unfold Sink.step
    rw [hnone, hphase, hguard]
    exact if_pos ⟨hn, rfl⟩
  · unfold Sink.step
    rw [hnone, hphase, hguard]
    rfl

end Sink

/-! ## Round trip -/

/-- The video data periods are at least eight clocks long and at least ten clocks apart. -/
structure Paced (vde : Nat → Bool) : Prop where
  gap : ∀ n, vde n = true → vde (n + 1) = false → ∀ k, 1 ≤ k → k ≤ 10 → vde (n + k) = false
  period : ∀ n, vde n = false → vde (n + 1) = true → ∀ k, 1 ≤ k → k ≤ 8 → vde (n + k) = true

/-- What the receiver should report for clock `n` of the stream. -/
def expected (is : Nat → TxIn) (n : Nat) : Received :=
  match content is n with
  | .pixel red green blue => .pixel red green blue
  | .guard => .guard
  | .control hsync vsync _ => .sync hsync vsync

/-- The phase of the receiver after clock `n` of the stream. In a control period it has
counted at least the preamble tokens that the stream up to clock `n + 10` accounts for. -/
def Tracks (is : Nat → TxIn) (n : Nat) (phase : Phase) : Prop :=
  if (is n).vde then phase = .video
  else if (is (n + 2)).vde then phase = if (is (n + 1)).vde then .video else .guard
  else ∃ c, phase = .control c ∧ ∀ m ≤ 8, (∀ j < m, (is (n + 10 - j)).vde = true) → m ≤ c

section Tracking

variable {is : Nat → TxIn} {n : Nat} {s : Sink} {w : Symbols}

/-- A pixel: the receiver is in the video data period already. -/
theorem tracks_pixel (h : Paced fun k => (is k).vde) (hs : Tracks is n s.phase)
    (hw : w.Sends (content is (n + 1))) (hnext : (is (n + 1)).vde = true) :
    Tracks is (n + 1) (s.step w).phase ∧ (s.step w).out = expected is (n + 1) := by
  have hvideo : s.phase = .video := by
    cases hnow : (is n).vde with
    | true => simpa [Tracks, hnow] using hs
    | false =>
      have hahead : (is (n + 2)).vde = true := h.period n hnow hnext 2 (by decide) (by decide)
      simpa [Tracks, hnow, hahead, hnext] using hs
  have hcontent : content is (n + 1) = .pixel (colourDin (is (n + 1)).red)
      (colourDin (is (n + 1)).green) (colourDin (is (n + 1)).blue) := by
    simp [content, hnext]
  rw [hcontent] at hw
  rw [Sink.step_pixel hw hvideo, expected, hcontent]
  exact ⟨by simp [Tracks, hnext], rfl⟩

/-- The guard band, its first symbol or its second. -/
theorem tracks_guard (h : Paced fun k => (is k).vde) (hs : Tracks is n s.phase)
    (hw : w.Sends (content is (n + 1))) (hnow : (is n).vde = false)
    (hnext : (is (n + 1)).vde = false) (hahead : (is (n + 3)).vde = true) :
    Tracks is (n + 1) (s.step w).phase ∧ (s.step w).out = expected is (n + 1) := by
  have hcontent : content is (n + 1) = .guard := by simp [content, hnext, hahead]
  rw [hcontent] at hw
  obtain ⟨hfirst, hsecond⟩ := Sink.step_guard (s := s) hw
  cases hmid : (is (n + 2)).vde with
  | true =>
    have hphase : s.phase = .guard := by simpa [Tracks, hnow, hmid, hnext] using hs
    rw [hsecond hphase, expected, hcontent]
    exact ⟨by simp [Tracks, hnext, hahead, hmid], rfl⟩
  | false =>
    simp only [Tracks, hnow, hmid, Bool.false_eq_true, if_false] at hs
    obtain ⟨c, hphase, hc⟩ := hs
    have height : 8 ≤ c := by
      refine hc 8 le_rfl fun j hj => ?_
      have hrise := h.period (n + 2) hmid hahead (8 - j) (by omega) (by omega)
      have hindex : n + 2 + (8 - j) = n + 10 - j := by omega
      rwa [hindex] at hrise
    rw [hfirst c hphase height, expected, hcontent]
    exact ⟨by simp [Tracks, hnext, hahead, hmid], rfl⟩

/-- A control token. The count only has to be right if the clock before was in the control
period too; this is `hcount`. -/
theorem tracks_control (hw : w.Sends (content is n)) (hnow : (is n).vde = false)
    (hahead : (is (n + 2)).vde = false)
    (hcount : ∀ m ≤ 6, (∀ j < m + 2, (is (n + 10 - j)).vde = true) → m + 1 ≤ s.phase.preamble) :
    Tracks is n (s.step w).phase ∧ (s.step w).out = expected is n := by
  have hcontent : content is n = .control (is n).hsync (is n).vsync (is (n + 10)).vde := by
    simp [content, hnow, hahead]
  rw [hcontent] at hw
  rw [Sink.step_control hw, expected, hcontent]
  refine ⟨?_, rfl⟩
  simp only [Tracks, hnow, hahead, Bool.false_eq_true, if_false]
  refine ⟨_, rfl, fun m hm8 hm => ?_⟩
  rcases m with _ | m
  · exact Nat.zero_le _
  · have hlast : (is (n + 10)).vde = true := hm 0 (Nat.zero_lt_succ m)
    rw [if_pos hlast]
    rcases m with _ | m
    · omega
    · have hbefore := hcount m (by omega) hm
      omega

/-- A control token puts the receiver right, whatever its phase. -/
theorem tracks_start (hnow : (is n).vde = false) (hahead : (is (n + 2)).vde = false)
    (hquiet : (is (n + 9)).vde = false) (hw : w.Sends (content is n)) :
    Tracks is n (s.step w).phase ∧ (s.step w).out = expected is n := by
  refine tracks_control hw hnow hahead fun m _ hm => ?_
  have hnine : (is (n + 9)).vde = true := hm 1 (by omega)
  rw [hquiet] at hnine
  cases hnine

/-- One clock of the receiver. -/
theorem tracks_step (h : Paced fun k => (is k).vde) (hs : Tracks is n s.phase)
    (hw : w.Sends (content is (n + 1))) :
    Tracks is (n + 1) (s.step w).phase ∧ (s.step w).out = expected is (n + 1) := by
  cases hnext : (is (n + 1)).vde with
  | true => exact tracks_pixel h hs hw hnext
  | false =>
    -- A pixel less than ten clocks later: the gap began before clock `n`.
    have hgap (k : Nat) (hk : 1 ≤ k) (hk' : k ≤ 10) (hvde : (is (n + k)).vde = true) :
        (is n).vde = false := by
      cases hnow : (is n).vde with
      | false => rfl
      | true =>
        have hlow : (is (n + k)).vde = false := h.gap n hnow hnext k hk hk'
        rw [hlow] at hvde
        cases hvde
    cases hahead : (is (n + 3)).vde with
    | true => exact tracks_guard h hs hw (hgap 3 (by decide) (by decide) hahead) hnext hahead
    | false =>
      refine tracks_control hw hnext hahead fun m hm6 hm => ?_
      have hten : (is (n + 10)).vde = true := hm 1 (by omega)
      have hnow := hgap 10 (by decide) (by decide) hten
      have hmid : (is (n + 2)).vde = false := by
        cases hmid : (is (n + 2)).vde with
        | false => rfl
        | true =>
          have hrise : (is (n + 3)).vde = true :=
            h.period (n + 1) hnext hmid 2 (by decide) (by decide)
          rw [hahead] at hrise
          cases hrise
      simp only [Tracks, hnow, hmid, Bool.false_eq_true, if_false] at hs
      obtain ⟨c, hphase, hc⟩ := hs
      rw [hphase]
      refine hc (m + 1) (by omega) fun j hj => ?_
      have hlater := hm (j + 1) (by omega)
      have hindex : n + 1 + 10 - (j + 1) = n + 10 - j := by omega
      rwa [hindex] at hlater

end Tracking

/-- The transmitter and the receiver at the other end. -/
structure Link (srl : Srl16e) where
  tx : HdmiTx srl
  sink : Sink

/-- A clock at both ends. -/
def Link.clock {srl : Srl16e} (l : Link srl) (i : TxIn) : Link srl where
  tx := l.tx.clock .hdmi i
  sink := l.sink.step l.tx.symbols

section Link

variable {srl : Srl16e} (l : Link srl) {is : Nat → TxIn}

abbrev Link.feed (is : Nat → TxIn) : Nat → Link srl := Clocked.feed Link.clock l is

theorem Link.tx_feed (is : Nat → TxIn) (n : Nat) : (l.feed is n).tx = l.tx.feed is n :=
  Clocked.feed_project (f := Link.tx) (g := fun _ i => i) (fun _ _ => rfl) l is n

/-- For every delay line, whatever transmitter and receiver held before: out of reset and
without auxiliary data, when the stream begins with twelve clocks of blanking and its
video data periods are at least eight clocks long and ten clocks apart, the receiver
reports fifteen clocks later every pixel as it was, every sync level outside the guard
band, and no error. -/
theorem link_round_trip (h : Plain is) (hpaced : Paced fun k => (is k).vde)
    (hstart : ∀ k < 12, (is k).vde = false) (n : Nat) :
    (l.feed is (n + 17)).sink.out = expected is (n + 2) := by
  have hsends (n : Nat) : (l.feed is (n + 16)).tx.symbols.Sends (content is (n + 2)) := by
    rw [l.tx_feed]
    exact sends_content l.tx h n
  have htracks (n : Nat) : Tracks is (n + 2) (l.feed is (n + 17)).sink.phase ∧
      (l.feed is (n + 17)).sink.out = expected is (n + 2) := by
    induction n with
    | zero =>
      exact tracks_start (hstart 2 (by decide)) (hstart 4 (by decide)) (hstart 11 (by decide))
        (hsends 0)
    | succ n ih => exact tracks_step hpaced ih.1 (hsends (n + 1))
  exact (htracks n).2

end Link

/-- A link with all registers zero and the receiver without orientation. -/
def Link.zero : Link .register where
  tx := ⟨0#4, fun _ => 0#16, .zero, .zero, .zero⟩
  sink := ⟨.lost, .error⟩

/-- Sixteen clocks of blanking and sixteen pixels, in turn. -/
def bursts (n : Nat) : TxIn where
  pixClkLocked := true
  rst := false
  red := BitVec.ofNat 4 n
  green := 0#4
  blue := 0xF#4
  hsync := true
  vsync := false
  vde := decide (16 ≤ n % 32)
  aux0Din := 0#4
  aux1Din := 0#4
  aux2Din := 0#4
  ade := false

theorem bursts_paced : Paced fun k => (bursts k).vde where
  gap n hnow hnext k hk hk' := by
    simp only [bursts, decide_eq_true_eq, decide_eq_false_iff_not] at hnow hnext ⊢
    omega
  period n hnow hnext k hk hk' := by
    simp only [bursts, decide_eq_true_eq, decide_eq_false_iff_not] at hnow hnext ⊢
    omega

theorem link_round_trip_bursts :
    (Link.zero.feed bursts 31).sink.out = .pixel 0x00#8 0x00#8 0xF0#8 :=
  link_round_trip Link.zero ⟨fun _ => rfl, fun _ => rfl⟩ bursts_paced
    (fun k hk => by simp only [bursts, decide_eq_false_iff_not]; omega) 14

end SocChess.Hdmi
