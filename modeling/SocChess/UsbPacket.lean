import SocChess.Lib.Program
import SocChess.UsbMouseBridge

/-!
# The USB host controller and its packets

The firmware reaches the MAX3421E over SPI. `Platform` is what lies outside the
repository: the drivers, the chip with the bus behind it, the timer. Nothing is
assumed of it, so a statement about all platforms is one about all devices.

* `Platform.maxRegWr`, `maxBytesWr`, `maxRegRd`, `maxBytesRd` are the accesses of
  `MAX3421E.c`, and `xferDispatchPkt` is the one function of `transfer.c` that starts
  a packet. It repeats a packet that is not acknowledged or not answered.
* `dispatch_verdict`: what it returns is the last code of a sequence of attempts, and
  which sequences these are.
* `dispatch_silent`: with a chip that never finishes, it gives up when the timer says
  so, and never does if it started in the last seconds before the timer wraps.
-/

namespace SocChess.Usb

open Program

/-! ## The platform -/

/-- Why the firmware has no next state. -/
inductive Stop
  /-- A loop has used the passes it is given. -/
  | unfinished
  /-- A buffer is left at its end. -/
  | overrun
  /-- A pointer is `NULL`, or an index outside its table. -/
  | pointer
deriving DecidableEq, Repr

/-- The drivers and the hardware, on a state of their own. -/
structure Platform (P : Type) where
  /-- `XSpi_SetSlaveSelect` -/
  slaveSelect : Word → P → P
  /-- `XSpi_Transfer` of some bytes and then `n` that the program leaves unset; it returns
  what is received with these `n`. -/
  transfer : List Byte → (n : Nat) → P → Vector Byte n × P
  /-- `XTmrCtr_GetValue` -/
  timer : P → Word × P
  /-- `XGpio_DiscreteRead` of the interrupt pin. -/
  interrupt : P → Word × P
  /-- `SPI_init` -/
  spiInit : P → P
  /-- The GPIO set-up and the hardware reset of `MAX3421E_reset`. -/
  resetPin : P → P
  /-- `XTmrCtr_Initialize` and `XTmrCtr_Start` -/
  timerStart : P → P
  /-- The bytes of a local variable that is declared and not set. -/
  garbage : (n : Nat) → P → Vector Byte n × P

namespace Platform

variable {P : Type} (io : Platform P)

/-- `MAXreg_wr` -/
def maxRegWr (reg val : Byte) (p : P) : P :=
  io.slaveSelect 0#32 (io.transfer [reg + 2#8, val] 0 (io.slaveSelect 1#32 p)).2

/-- `MAXbytes_wr` -/
def maxBytesWr (reg : Byte) (data : List Byte) (p : P) : P :=
  io.slaveSelect 0#32 (io.transfer ((reg + 2#8) :: data) 0 (io.slaveSelect 1#32 p)).2

/-- `MAXreg_rd` -/
def maxRegRd (reg : Byte) (p : P) : Byte × P :=
  let received := io.transfer [reg] 1 (io.slaveSelect 1#32 p)
  (received.1.get 0, io.slaveSelect 0#32 received.2)

/-- `MAXbytes_rd`: the bytes stored from `data` on. -/
def maxBytesRd (reg nbytes : Byte) (p : P) : List Byte × P :=
  let received := io.transfer [reg] nbytes.toNat (io.slaveSelect 1#32 p)
  (received.1.toList, io.slaveSelect 0#32 received.2)

/-- `XTmrCtr_GetValue(&Usb_timer, 0)/TICKS_PER_MILLIS` -/
def millis (p : P) : Word × P := ((io.timer p).1 / 100000#32, (io.timer p).2)

end Platform

/-- A platform that plays back what the chip sends, with a timer that advances by `step`
with each reading. -/
structure Script where
  received : List Byte
  clock : Word
  step : Word
deriving DecidableEq, Repr

/-- The next `n` bytes of the script, and zeros after its end. -/
def Script.next (n : Nat) (p : Script) : Vector Byte n × Script :=
  (Vector.ofFn fun i => p.received.getD i 0#8, { p with received := p.received.drop n })

def Script.platform : Platform Script where
  slaveSelect _ p := p
  transfer _ n p := p.next n
  timer p := (p.clock, { p with clock := p.clock + p.step })
  interrupt p := (1#32, p)
  spiInit p := p
  resetPin p := p
  timerStart p := p
  garbage n p := (Vector.replicate n 0#8, p)

def rRCVFIFO : Byte := 0x08#8
def rSUDFIFO : Byte := 0x20#8
def rRCVBC : Byte := 0x30#8
def rSNDBC : Byte := 0x38#8
def rUSBIRQ : Byte := 0x68#8
def rUSBCTL : Byte := 0x78#8
def rCPUCTL : Byte := 0x80#8
def rPINCTL : Byte := 0x88#8
def rREVISION : Byte := 0x90#8
def rIOPINS1 : Byte := 0xa0#8
def rHIRQ : Byte := 0xc8#8
def rHIEN : Byte := 0xd0#8
def rMODE : Byte := 0xd8#8
def rPERADDR : Byte := 0xe0#8
def rHCTL : Byte := 0xe8#8
def rHXFR : Byte := 0xf0#8
def rHRSL : Byte := 0xf8#8

def bmBUSEVENTIRQ : Byte := 0x01#8
def bmRCVDAVIRQ : Byte := 0x04#8
def bmSNDBAVIRQ : Byte := 0x08#8
def bmCONDETIRQ : Byte := 0x20#8
def bmFRAMEIRQ : Byte := 0x40#8
def bmHXFRDNIRQ : Byte := 0x80#8

def tokSETUP : Byte := 0x10#8
def tokIN : Byte := 0x00#8
def tokINHS : Byte := 0x80#8
def tokOUTHS : Byte := 0xa0#8

def hrTIMEOUT : Byte := 0x0e#8

/-- `USB_NAK_LIMIT` -/
def usbNakLimit : Nat := 200

/-- `USB_RETRY_LIMIT` -/
def usbRetryLimit : Nat := 3

/-- `USB_XFER_TIMEOUT` -/
def usbXferTimeout : Word := 5000#32

/-! ## `XferDispatchPkt` -/

/-- The counters of `XferDispatchPkt`; the limits keep them below `2 ^ 8`. -/
structure Retries where
  retryCount : Nat
  nakCount : Nat
deriving DecidableEq, Repr

/-- What follows a result code: another attempt, or the end. -/
def Retries.judge (c : Retries) (rcode : Byte) : Outcome Retries Byte :=
  if rcode = hrNAK then
    if c.nakCount + 1 = usbNakLimit then .done rcode
    else .again { c with nakCount := c.nakCount + 1 }
  else if rcode = hrTIMEOUT then
    if c.retryCount + 1 = usbRetryLimit then .done rcode
    else .again { c with retryCount := c.retryCount + 1 }
  else .done rcode

section Dispatch

variable {P : Type} (io : Platform P) (n : Nat)

/-- The inner loop: whether the transfer was done before the time was over. -/
def awaitTransfer (timeout : Word) : Prog Stop P Bool :=
  loop .unfinished (fun _ => do
    let now ← act io.millis
    if now < timeout then do
      let tmpdata ← act (io.maxRegRd rHIRQ)
      if tmpdata &&& bmHXFRDNIRQ ≠ 0#8 then do
        update (io.maxRegWr rHIRQ bmHXFRDNIRQ)
        return .done true
      else return .again ()
    else return .done false) n ()

/-- A launch of the packet and its result code, `0xff` when the time is over. -/
def attempt (timeout : Word) (token ep : Byte) : Prog Stop P Byte := do
  update (io.maxRegWr rHXFR (token ||| ep))
  let finished ← awaitTransfer io n timeout
  if finished then do
    let hrsl ← act (io.maxRegRd rHRSL)
    return hrsl &&& 0x0f#8
  else return 0xff#8

/-- `XferDispatchPkt`; the end of the time is judged like any other code that is not
repeated. -/
def xferDispatchPkt (token ep : Byte) : Prog Stop P Byte := do
  let start ← act io.millis
  loop .unfinished (judged (attempt io n (start + usbXferTimeout) token ep) Retries.judge pure) n
    ⟨0, 0⟩

end Dispatch

/-! ## Which code is returned -/

/-- `c.Verdict earlier rcode`: with the counters at `c`, each of the codes `earlier` is
followed by another attempt, and then `rcode` ends them. -/
structure Retries.Verdict (c : Retries) (earlier : List Byte) (rcode : Byte) : Prop where
  repeated : ∀ code ∈ earlier, code = hrNAK ∨ code = hrTIMEOUT
  naks : c.nakCount + earlier.count hrNAK < usbNakLimit
  timeouts : c.retryCount + earlier.count hrTIMEOUT < usbRetryLimit
  nak : rcode = hrNAK → c.nakCount + earlier.count hrNAK + 1 = usbNakLimit
  timeout : rcode = hrTIMEOUT → c.retryCount + earlier.count hrTIMEOUT + 1 = usbRetryLimit

section Verdict

variable {c : Retries} {code rcode : Byte} {codes earlier : List Byte}

theorem hrNAK_ne_hrTIMEOUT : hrNAK ≠ hrTIMEOUT := by decide

theorem judge_nak (h : c.nakCount + 1 ≠ usbNakLimit) :
    c.judge hrNAK = .again { c with nakCount := c.nakCount + 1 } := by
  rw [Retries.judge, if_pos rfl, if_neg h]

theorem judge_timeout (h : c.retryCount + 1 ≠ usbRetryLimit) :
    c.judge hrTIMEOUT = .again { c with retryCount := c.retryCount + 1 } := by
  rw [Retries.judge, if_neg hrNAK_ne_hrTIMEOUT.symm, if_pos rfl, if_neg h]

theorem judge_done (hnak : code = hrNAK → c.nakCount + 1 = usbNakLimit)
    (htimeout : code = hrTIMEOUT → c.retryCount + 1 = usbRetryLimit) :
    c.judge code = .done code := by
  unfold Retries.judge
  split
  · next h => rw [if_pos (hnak h)]
  · split
    · next h => rw [if_pos (htimeout h)]
    · rfl

theorem verdict_cons_nak : c.Verdict (hrNAK :: earlier) rcode ↔
    Retries.Verdict { c with nakCount := c.nakCount + 1 } earlier rcode := by
  have hnak : (hrNAK :: earlier).count hrNAK = earlier.count hrNAK + 1 := List.count_cons_self
  have htimeout : (hrNAK :: earlier).count hrTIMEOUT = earlier.count hrTIMEOUT :=
    List.count_cons_of_ne hrNAK_ne_hrTIMEOUT
  have hcount : ∀ a : Nat, c.nakCount + (a + 1) = c.nakCount + 1 + a := fun a => by omega
  constructor
  · rintro ⟨hrep, hn, ht, hrn, hrt⟩
    rw [hnak, hcount] at hn hrn
    rw [htimeout] at ht hrt
    exact ⟨fun code hcode => hrep code (List.mem_cons_of_mem _ hcode), hn, ht, hrn, hrt⟩
  · rintro ⟨hrep, hn, ht, hrn, hrt⟩
    refine ⟨?_, ?_, ?_, ?_, ?_⟩
    · exact List.forall_mem_cons.mpr ⟨Or.inl rfl, hrep⟩
    · rwa [hnak, hcount]
    · rwa [htimeout]
    · rwa [hnak, hcount]
    · rwa [htimeout]

theorem verdict_cons_timeout : c.Verdict (hrTIMEOUT :: earlier) rcode ↔
    Retries.Verdict { c with retryCount := c.retryCount + 1 } earlier rcode := by
  have htimeout : (hrTIMEOUT :: earlier).count hrTIMEOUT = earlier.count hrTIMEOUT + 1 :=
    List.count_cons_self
  have hnak : (hrTIMEOUT :: earlier).count hrNAK = earlier.count hrNAK :=
    List.count_cons_of_ne hrNAK_ne_hrTIMEOUT.symm
  have hcount : ∀ a : Nat, c.retryCount + (a + 1) = c.retryCount + 1 + a := fun a => by omega
  constructor
  · rintro ⟨hrep, hn, ht, hrn, hrt⟩
    rw [hnak] at hn hrn
    rw [htimeout, hcount] at ht hrt
    exact ⟨fun code hcode => hrep code (List.mem_cons_of_mem _ hcode), hn, ht, hrn, hrt⟩
  · rintro ⟨hrep, hn, ht, hrn, hrt⟩
    refine ⟨?_, ?_, ?_, ?_, ?_⟩
    · exact List.forall_mem_cons.mpr ⟨Or.inr rfl, hrep⟩
    · rwa [hnak]
    · rwa [htimeout, hcount]
    · rwa [hnak]
    · rwa [htimeout, hcount]

/-- With the counters below their limits, a code that is not repeated is a verdict. -/
theorem verdict_nil (hnak : c.nakCount < usbNakLimit) (hretry : c.retryCount < usbRetryLimit)
    (hn : rcode = hrNAK → c.nakCount + 1 = usbNakLimit)
    (ht : rcode = hrTIMEOUT → c.retryCount + 1 = usbRetryLimit) : c.Verdict [] rcode :=
  ⟨nofun, hnak, hretry, hn, ht⟩

theorem settle_of_verdict (h : c.Verdict earlier rcode) :
    settle Retries.judge c (earlier ++ [rcode]) = some rcode := by
  induction earlier generalizing c with
  | nil =>
    rw [List.nil_append, settle, judge_done h.nak h.timeout]
    rfl
  | cons code earlier ih =>
    rw [List.cons_append, settle]
    rcases h.repeated code List.mem_cons_self with rfl | rfl
    · have htail := verdict_cons_nak.mp h
      have hbelow : c.nakCount + 1 < usbNakLimit :=
        Nat.lt_of_le_of_lt (Nat.le_add_right _ _) htail.naks
      rw [judge_nak hbelow.ne]
      exact ih htail
    · have htail := verdict_cons_timeout.mp h
      have hbelow : c.retryCount + 1 < usbRetryLimit :=
        Nat.lt_of_le_of_lt (Nat.le_add_right _ _) htail.timeouts
      rw [judge_timeout hbelow.ne]
      exact ih htail

theorem verdict_of_settle (hnak : c.nakCount < usbNakLimit)
    (hretry : c.retryCount < usbRetryLimit)
    (h : settle Retries.judge c codes = some rcode) :
    ∃ earlier, codes = earlier ++ [rcode] ∧ c.Verdict earlier rcode := by
  induction codes generalizing c with
  | nil => cases h
  | cons code codes ih =>
    by_cases hstop : (code = hrNAK → c.nakCount + 1 = usbNakLimit) ∧
        (code = hrTIMEOUT → c.retryCount + 1 = usbRetryLimit)
    · obtain ⟨rfl, rfl⟩ := (settle_done (judge_done hstop.1 hstop.2)).mp h
      exact ⟨[], rfl, verdict_nil hnak hretry hstop.1 hstop.2⟩
    · have hcode : (code = hrNAK ∧ c.nakCount + 1 ≠ usbNakLimit) ∨
          (code = hrTIMEOUT ∧ c.retryCount + 1 ≠ usbRetryLimit) := by
        rwa [not_and_or, Classical.not_imp, Classical.not_imp] at hstop
      rcases hcode with ⟨rfl, hbelow⟩ | ⟨rfl, hbelow⟩
      · rw [settle_again (judge_nak hbelow)] at h
        have hnext : c.nakCount + 1 < usbNakLimit :=
          Nat.lt_of_le_of_ne (Nat.succ_le_of_lt hnak) hbelow
        obtain ⟨earlier, rfl, hverdict⟩ :=
          ih (c := { c with nakCount := c.nakCount + 1 }) hnext hretry h
        exact ⟨hrNAK :: earlier, rfl, verdict_cons_nak.mpr hverdict⟩
      · rw [settle_again (judge_timeout hbelow)] at h
        have hnext : c.retryCount + 1 < usbRetryLimit :=
          Nat.lt_of_le_of_ne (Nat.succ_le_of_lt hretry) hbelow
        obtain ⟨earlier, rfl, hverdict⟩ :=
          ih (c := { c with retryCount := c.retryCount + 1 }) hnak hnext h
        exact ⟨hrTIMEOUT :: earlier, rfl, verdict_cons_timeout.mpr hverdict⟩

/-- Two kinds of codes are repeated, so the limits bound the attempts. -/
theorem verdict_length (h : Retries.Verdict ⟨0, 0⟩ earlier rcode) : earlier.length ≤ 201 := by
  have hrest : earlier.countP (fun code => ¬ (code == hrNAK) = true) = earlier.count hrTIMEOUT := by
    refine List.countP_congr fun code hcode => ?_
    rcases h.repeated code hcode with rfl | rfl <;> decide
  have hcount : earlier.length = earlier.count hrNAK + earlier.count hrTIMEOUT := by
    rw [List.length_eq_countP_add_countP (· == hrNAK), hrest]
    rfl
  have hnaks : 0 + earlier.count hrNAK < 200 := h.naks
  have htimeouts : 0 + earlier.count hrTIMEOUT < 3 := h.timeouts
  omega

end Verdict

section Dispatch

variable {P : Type} {io : Platform P} {n : Nat}

/-- The packet is dispatched with result `rcode` exactly when the attempts end in `rcode`:
each code before it is a NAK or a bus timeout, fewer than the limits allow, and it is one
of these only if it reaches the limit. -/
theorem dispatch_verdict (hn : 202 ≤ n) (token ep rcode : Byte) (p p' : P) :
    (xferDispatchPkt io n token ep).run p = .ok (rcode, p') ↔
      ∃ earlier, Trace (attempt io n ((io.millis p).1 + usbXferTimeout) token ep)
          (earlier ++ [rcode]) (io.millis p).2 p' ∧
        Retries.Verdict ⟨0, 0⟩ earlier rcode := by
  rw [xferDispatchPkt, run_act_bind, loop_judged_iff]
  constructor
  · rintro ⟨codes, code, p₁, -, htrace, hsettle, hfinal⟩
    cases hfinal
    obtain ⟨earlier, rfl, hverdict⟩ := verdict_of_settle (by decide) (by decide) hsettle
    exact ⟨earlier, htrace, hverdict⟩
  · rintro ⟨earlier, htrace, hverdict⟩
    refine ⟨earlier ++ [rcode], rcode, p', ?_, htrace, settle_of_verdict hverdict, rfl⟩
    have hlength := verdict_length hverdict
    rw [List.length_append, List.length_singleton]
    omega

/-- The device answers once with a NAK and then acknowledges. -/
theorem dispatch_verdict_nak :
    ∃ earlier p', Trace (attempt Script.platform 202 5000#32 tokIN 1#8) (earlier ++ [0x00#8])
        ⟨[0x80#8, 0x04#8, 0x80#8, 0x00#8], 0#32, 0#32⟩ p' ∧
      Retries.Verdict ⟨0, 0⟩ earlier 0x00#8 := by
  have hrun : (xferDispatchPkt Script.platform 202 tokIN 1#8).run
      ⟨[0x80#8, 0x04#8, 0x80#8, 0x00#8], 0#32, 0#32⟩ = .ok (0x00#8, ⟨[], 0#32, 0#32⟩) := by
    rfl
  obtain ⟨earlier, htrace, hverdict⟩ := (dispatch_verdict (by decide) tokIN 1#8 _ _ _).mp hrun
  exact ⟨earlier, _, htrace, hverdict⟩

end Dispatch

/-! ## A chip that never finishes -/

section Silent

variable {P : Type} {io : Platform P} {S : P → Prop} {n : Nat} {p p' : P} {timeout : Word}

/-- In the states `S` the chip does not report the end of a transfer, and the firmware's
waiting does not leave them. -/
structure SilentChip (io : Platform P) (S : P → Prop) : Prop where
  launch : ∀ p val, S p → S (io.maxRegWr rHXFR val p)
  timer : ∀ p, S p → S (io.timer p).2
  irq : ∀ p, S p → (io.maxRegRd rHIRQ p).1 &&& bmHXFRDNIRQ = 0#8
  poll : ∀ p, S p → S (io.maxRegRd rHIRQ p).2

/-- A pass of the wait: the timer is read, and then the interrupt register. -/
def Platform.poll (io : Platform P) (p : P) : P := (io.maxRegRd rHIRQ (io.millis p).2).2

/-- The timer at the `k`-th pass of a wait. -/
def Platform.reading (io : Platform P) (k : Nat) (p : P) : Word := (io.millis (io.poll^[k] p)).1

theorem SilentChip.next (h : SilentChip io S) (hp : S p) : S (io.poll p) :=
  h.poll _ (h.timer p hp)

theorem SilentChip.launched (h : SilentChip io S) (hp : S p) {val : Byte} :
    S (io.maxRegWr rHXFR val (io.millis p).2) :=
  h.launch _ _ (h.timer p hp)

theorem await_again (h : SilentChip io S) (hp : S p) (hlt : io.reading 0 p < timeout) (n : Nat) :
    (awaitTransfer io (n + 1) timeout).run p = (awaitTransfer io n timeout).run (io.poll p) := by
  refine loop_again ?_ n
  have hlt' : (io.millis p).1 < timeout := hlt
  have hidle : (io.maxRegRd rHIRQ (io.millis p).2).1 &&& bmHXFRDNIRQ = 0#8 :=
    h.irq _ (h.timer p hp)
  rw [run_act_bind, if_pos hlt', run_act_bind, if_neg (not_not.mpr hidle)]
  rfl

theorem await_done (hle : timeout ≤ io.reading 0 p) (n : Nat) :
    (awaitTransfer io (n + 1) timeout).run p = .ok (false, (io.millis p).2) := by
  refine loop_done ?_ n
  have hnot : ¬ (io.millis p).1 < timeout := BitVec.not_lt.mpr hle
  rw [run_act_bind, if_neg hnot]
  rfl

/-- The wait ends only when the timer reaches the time, and then in vain. -/
theorem await_only (h : SilentChip io S) (hp : S p) {finished : Bool}
    (hwait : (awaitTransfer io n timeout).run p = .ok (finished, p')) :
    finished = false ∧ ∃ k, timeout ≤ io.reading k p := by
  induction n generalizing p with
  | zero => cases hwait
  | succ n ih =>
    by_cases hlt : io.reading 0 p < timeout
    · rw [await_again h hp hlt] at hwait
      obtain ⟨hfinished, k, hk⟩ := ih (h.next hp) hwait
      exact ⟨hfinished, k + 1, hk⟩
    · rw [await_done (BitVec.not_lt.mp hlt)] at hwait
      cases hwait
      exact ⟨rfl, 0, BitVec.not_lt.mp hlt⟩

theorem await_returns (h : SilentChip io S) (hp : S p) {k : Nat} (hk : timeout ≤ io.reading k p) :
    ∃ n p', (awaitTransfer io (n + 1) timeout).run p = .ok (false, p') := by
  induction k generalizing p with
  | zero => exact ⟨0, _, await_done hk 0⟩
  | succ k ih =>
    by_cases hlt : io.reading 0 p < timeout
    · obtain ⟨n, p', hwait⟩ := ih (h.next hp) hk
      exact ⟨n + 1, p', by rw [await_again h hp hlt, hwait]⟩
    · exact ⟨0, _, await_done (BitVec.not_lt.mp hlt) 0⟩

theorem attempt_of_await {token ep : Byte}
    (hwait : (awaitTransfer io n timeout).run (io.maxRegWr rHXFR (token ||| ep) p) =
      .ok (false, p')) :
    (attempt io n timeout token ep).run p = .ok (0xff#8, p') := by
  rw [attempt, run_update_bind, bind_of_ok hwait]
  rfl

theorem await_of_attempt {token ep code : Byte}
    (h : (attempt io n timeout token ep).run p = .ok (code, p')) :
    ∃ finished p₁, (awaitTransfer io n timeout).run (io.maxRegWr rHXFR (token ||| ep) p) =
        .ok (finished, p₁) ∧ (finished = false → code = 0xff#8) := by
  rw [attempt, run_update_bind] at h
  obtain ⟨finished, p₁, hwait, hrest⟩ := bind_eq_ok_iff.mp h
  refine ⟨finished, p₁, hwait, ?_⟩
  rintro rfl
  cases hrest
  rfl

/-- The milliseconds of a 32-bit timer. -/
theorem millis_le (p : P) : (io.millis p).1.toNat ≤ 42949 := by
  have hlt := (io.timer p).1.isLt
  change ((io.timer p).1 / 100000#32).toNat ≤ _
  rw [BitVec.toNat_udiv]
  change (io.timer p).1.toNat / 100000 ≤ _
  omega

theorem toNat_deadline (p : P) :
    ((io.millis p).1 + usbXferTimeout).toNat = (io.millis p).1.toNat + 5000 := by
  have hle : (io.millis p).1.toNat ≤ 42949 := millis_le p
  rw [BitVec.toNat_add, Nat.mod_eq_of_lt]
  · rfl
  · change (io.millis p).1.toNat + 5000 < _
    omega

theorem deadline_le_iff (p : P) (now : Word) :
    (io.millis p).1 + usbXferTimeout ≤ now ↔ (io.millis p).1.toNat + 5000 ≤ now.toNat := by
  rw [BitVec.le_def, toNat_deadline]

/-- A result comes from a first attempt that waits in vain. -/
theorem silent_of_dispatch (h : SilentChip io S) (hp : S p) {token ep rcode : Byte}
    (hok : (xferDispatchPkt io n token ep).run p = .ok (rcode, p')) :
    rcode = 0xff#8 ∧ ∃ k, (io.millis p).1.toNat + 5000 ≤
      (io.reading k (io.maxRegWr rHXFR (token ||| ep) (io.millis p).2)).toNat := by
  rw [xferDispatchPkt, run_act_bind, loop_judged_iff] at hok
  obtain ⟨codes, code, p₁, -, htrace, hsettle, hfinal⟩ := hok
  cases hfinal
  cases htrace with
  | nil => cases hsettle
  | cons hattempt _ =>
    obtain ⟨finished, p₂, hwait, hcode⟩ := await_of_attempt hattempt
    obtain ⟨hfinished, k, hk⟩ := await_only h (h.launched hp) hwait
    rw [hcode hfinished] at hsettle
    obtain ⟨-, rfl⟩ := (settle_done (judge_done (by decide) (by decide))).mp hsettle
    exact ⟨rfl, k, (deadline_le_iff p _).mp hk⟩

theorem dispatch_of_silent (h : SilentChip io S) (hp : S p) {token ep : Byte} {k : Nat}
    (hk : (io.millis p).1.toNat + 5000 ≤
      (io.reading k (io.maxRegWr rHXFR (token ||| ep) (io.millis p).2)).toNat) :
    ∃ n p', (xferDispatchPkt io n token ep).run p = .ok (0xff#8, p') := by
  obtain ⟨n, p', hwait⟩ := await_returns h (h.launched hp) ((deadline_le_iff p _).mpr hk)
  refine ⟨n + 1, p', ?_⟩
  rw [xferDispatchPkt, run_act_bind, loop_judged_iff]
  exact ⟨[0xff#8], 0xff#8, p', Nat.succ_le_succ (Nat.zero_le n),
    .cons (attempt_of_await hwait) (.nil p'),
    (settle_done (judge_done (by decide) (by decide))).mpr ⟨rfl, rfl⟩, rfl⟩

/-- With a chip that never finishes, a dispatch returns `0xff`; it returns exactly when a
reading of the timer lies 5000 ms after the first one, which never happens if that is one
of the last 5000 ms before the timer wraps. -/
theorem dispatch_silent (h : SilentChip io S) (hp : S p) (token ep : Byte) :
    (∀ n rcode p', (xferDispatchPkt io n token ep).run p = .ok (rcode, p') → rcode = 0xff#8) ∧
    ((∃ n r, (xferDispatchPkt io n token ep).run p = .ok r) ↔
      ∃ k, (io.millis p).1.toNat + 5000 ≤
        (io.reading k (io.maxRegWr rHXFR (token ||| ep) (io.millis p).2)).toNat) ∧
    (37950 ≤ (io.millis p).1.toNat → ∀ n r, (xferDispatchPkt io n token ep).run p ≠ .ok r) := by
  refine ⟨fun n rcode p' hok => (silent_of_dispatch h hp hok).1, ⟨?_, ?_⟩, ?_⟩
  · rintro ⟨n, r, hok⟩
    exact (silent_of_dispatch h hp hok).2
  · rintro ⟨k, hk⟩
    obtain ⟨n, p', hok⟩ := dispatch_of_silent h hp hk
    exact ⟨n, _, hok⟩
  · intro hlate n r hok
    obtain ⟨k, hk⟩ := (silent_of_dispatch h hp hok).2
    have hreading := hk.trans (millis_le _)
    omega

/-- A script that has ended is silent. -/
theorem script_silent : SilentChip Script.platform (fun p => p.received = []) where
  launch p val h := by
    change p.received.drop 0 = []
    rw [h, List.drop_nil]
  timer p h := h
  irq p h := by
    have hread : (Script.platform.maxRegRd rHIRQ p).1 = p.received.getD 0 0#8 :=
      Vector.getElem_ofFn (by decide)
    rw [hread, h]
    rfl
  poll p h := by
    change p.received.drop 1 = []
    rw [h, List.drop_nil]

/-- A timer that advances by five seconds a reading ends the wait, unless it starts at
40000 ms. -/
theorem dispatch_silent_script :
    (∃ n r, (xferDispatchPkt Script.platform n tokIN 1#8).run ⟨[], 0#32, 500000000#32⟩ = .ok r) ∧
    ∀ n r, (xferDispatchPkt Script.platform n tokIN 1#8).run ⟨[], 4000000000#32, 1#32⟩ ≠ .ok r := by
  constructor
  · exact (dispatch_silent script_silent rfl tokIN 1#8).2.1.mpr ⟨0, by decide⟩
  · exact (dispatch_silent script_silent rfl tokIN 1#8).2.2 (by decide)

end Silent

end SocChess.Usb
