import SocChess.UsbSafety

/-!
# What the task and the interrupt handler do to the variables

`TaskStep` lists the steps of `USB_Task`, and `Handled` what the interrupt handler makes of
the task state. Both say nothing of the chip: they hold whatever it answers.

* `wp_max3421eTask`, `wp_max3421eInit`: the handler and the initialisation change the task
  state only.
* `wp_usbTask`: a call of the task is one of the steps of `TaskStep`.
-/

namespace SocChess.Usb

open Program

/-! ## The interrupt handler -/

/-- What a probe of the bus makes of the task state. -/
inductive BusProbed : Byte → Byte → Prop
  | attached {s : Byte} : s ≠ usbAttachedWaitResetComplete → BusProbed s usbStateAttached
  | resetting : BusProbed usbAttachedWaitResetComplete usbAttachedWaitResetComplete
  | illegal (s : Byte) : BusProbed s usbDetachedIllegal
  | lost {s : Byte} : s &&& usbStateMask ≠ usbStateDetached → BusProbed s usbDetachedInitialize
  | waiting {s : Byte} : s &&& usbStateMask = usbStateDetached →
      BusProbed s usbDetachedWaitForDevice

/-- The bus is probed if its devices have changed. -/
def Sampled (hirq s t : Byte) : Prop := if hirq &&& bmCONDETIRQ ≠ 0#8 then BusProbed s t else t = s

/-- What the handler makes of the task state when the interrupt register is `hirq`. -/
def Handled (hirq s s' : Byte) : Prop :=
  ∃ t, Sampled hirq s t ∧ s' = if hirq &&& bmBUSEVENTIRQ ≠ 0#8 then t + 1#8 else t

section Handler

variable {P : Type} (io : Platform P) (n : Nat) {f : Firmware P}

/-- The interrupt register when the handler reads it, if the pin is low. -/
def Platform.pending (p : P) : Option Byte :=
  if (io.interrupt p).1 &&& 0x01#32 = 0#32 then some (io.maxRegRd rHIRQ (io.interrupt p).2).1
  else none

/-- What `MAX3421E_Task` makes of the task state. -/
def Interrupted (pending : Option Byte) (s s' : Byte) : Prop :=
  match pending with
  | none => s' = s
  | some hirq => Handled hirq s s'

/-- Only the task state is changed, as `R` says. -/
def Restated (R : Byte → Byte → Prop) (f f' : Firmware P) : Prop :=
  ∃ s, R f.host.usbTaskState s ∧ f'.host = { f.host with usbTaskState := s } ∧
    f'.bridge = f.bridge

theorem wp_attach (fullSpeed lowSpeed : Byte) :
    wp NoPointer (attach io fullSpeed lowSpeed) (fun _ f' => Restated BusProbed f f') f := by
  rw [attach, wp_bind, wp_read, wp_whenever]
  constructor
  · intro hstate
    exact ⟨usbStateAttached, .attached hstate, rfl, rfl⟩
  · intro hstate
    have hresetting : f.host.usbTaskState = usbAttachedWaitResetComplete := not_not.mp hstate
    refine ⟨f.host.usbTaskState, ?_, rfl, rfl⟩
    rw [hresetting]
    exact .resetting

theorem wp_maxBusprobe :
    wp NoPointer (maxBusprobe io) (fun _ f' => Restated BusProbed f f') f := by
  rw [maxBusprobe, wp_bind, wp_onChip, wp_act]
  dsimp only
  split
  · exact wp_attach io _ _
  · split
    · exact wp_attach io _ _
    · split
      · exact ⟨usbDetachedIllegal, .illegal _, rfl, rfl⟩
      · rw [wp_bind, wp_read]
        split
        · next hstate => exact ⟨usbDetachedInitialize, .lost hstate, rfl, rfl⟩
        · next hstate => exact ⟨usbDetachedWaitForDevice, .waiting (not_not.mp hstate), rfl, rfl⟩

theorem wp_maxIntHandler :
    wp NoPointer (maxIntHandler io)
      (fun _ f' => Restated (Handled (io.maxRegRd rHIRQ f.chip).1) f f') f := by
  rw [maxIntHandler, wp_bind, wp_onChip, wp_act]
  generalize (io.maxRegRd rHIRQ f.chip).1 = hirq
  have hprobe : wp NoPointer (whenever (hirq &&& bmCONDETIRQ ≠ 0#8) (maxBusprobe io))
      (fun _ f' => Restated (Sampled hirq) f f')
      { f with chip := (io.maxRegRd rHIRQ f.chip).2 } := by
    rw [wp_whenever]
    constructor
    · intro hcondet
      refine wp_mono (wp_maxBusprobe io) fun _ f' ⟨t, ht, hhost, hbridge⟩ => ?_
      exact ⟨t, by rwa [Sampled, if_pos hcondet], hhost, hbridge⟩
    · intro hcondet
      exact ⟨f.host.usbTaskState, by rw [Sampled, if_neg hcondet], rfl, rfl⟩
  refine wp_bind_of hprobe fun _ f₁ ⟨t, ht, hhost, hbridge⟩ => ?_
  have hsend : wp NoPointer (whenever (hirq &&& bmSNDBAVIRQ ≠ 0#8)
      (onChip (update (io.maxRegWr rSNDBC 0x00#8)))) (fun _ f' => SameHost f₁ f') f₁ := by
    rw [wp_whenever]
    exact ⟨fun _ => ⟨rfl, rfl⟩, fun _ => .refl f₁⟩
  refine wp_bind_of hsend fun _ f₂ hsame => ?_
  rw [wp_bind, wp_whenever]
  have hhost₂ := hsame.host.trans hhost
  have hbridge₂ := hsame.bridge.trans hbridge
  constructor
  · intro hevent
    refine ⟨t + 1#8, ⟨t, ht, by rw [if_pos hevent]⟩, ?_, hbridge₂⟩
    dsimp only
    rw [hhost₂]
  · intro hevent
    exact ⟨t, ⟨t, ht, by rw [if_neg hevent]⟩, hhost₂, hbridge₂⟩

theorem wp_max3421eTask :
    wp NoPointer (max3421eTask io)
      (fun _ f' => Restated (Interrupted (io.pending f.chip)) f f') f := by
  rw [max3421eTask, wp_bind, wp_onChip, wp_act, wp_whenever]
  constructor
  · intro hpin
    rw [Platform.pending, if_pos hpin]
    have hhandled := wp_maxIntHandler io (f := { f with chip := (io.interrupt f.chip).2 })
    exact wp_mono hhandled fun _ f' ⟨s, hs, h⟩ => ⟨s, hs, h⟩
  · intro hpin
    rw [Platform.pending, if_neg hpin]
    exact ⟨f.host.usbTaskState, rfl, rfl, rfl⟩

/-- The firmware after the pin is read. -/
def Firmware.pinRead (f : Firmware P) (io : Platform P) : Firmware P :=
  { f with chip := (io.interrupt f.chip).2 }

theorem run_max3421eTask {io : Platform P} (h : io.pending f.chip = none) :
    (max3421eTask io).run f = .ok ((), f.pinRead io) := by
  have hpin : ¬ (io.interrupt f.chip).1 &&& 0x01#32 = 0#32 := by
    intro hlow
    rw [Platform.pending, if_pos hlow] at h
    cases h
  have hread : (onChip (act io.interrupt)).run f =
      .ok ((io.interrupt f.chip).1, f.pinRead io) := rfl
  rw [max3421eTask, bind_of_ok hread, whenever, if_neg hpin, run_pure]

theorem wp_max3421eInit :
    wp NoPointer (max3421eInit io n) (fun _ f' => Restated BusProbed f f') f := by
  refine wp_bind_of (wp_chip_safe (safe_powerUp io n)) fun _ f₁ hsame => ?_
  refine wp_bind_of (wp_maxBusprobe io) fun _ f₂ ⟨t, ht, hhost, hbridge⟩ => ?_
  rw [hsame.host] at ht hhost
  exact ⟨t, ht, hhost, hbridge.trans hsame.bridge⟩

end Handler

/-! ## The steps of the task -/

def Host.enter (h : Host) (state : Byte) : Host := { h with usbTaskState := state }

def Host.fail (h : Host) (error : Byte) : Host :=
  { h with usbError := error, lastUsbTaskState := h.usbTaskState, usbTaskState := usbStateError }

/-- The device table after `USB_init`. -/
def Host.cleared (h : Host) : Host :=
  { h with devtable := (Vector.replicate 9 ⟨none, 0#8⟩).setIfInBounds 0 ⟨some .dev0ep, 0#8⟩ }

/-- The address is taken, with the endpoints of address 0. -/
def Host.take (h : Host) (addr : Nat) : Host :=
  h.setRecord addr fun r => { r with epinfo := h.epinfo 0 }

/-- A boot device is detected at the address that was given last. -/
def Detected (h h' : Host) : Prop :=
  ∃ devclass interface, (devclass = hidM ∨ devclass = hidK) ∧
    h' = h.detect h.tmpAddr devclass interface

/-- A probe that fails does so before it detects its device, or after. -/
def Tried (h h' : Host) : Prop := h' = h ∨ Detected h h'

/-- The states of a detached or an attached device that the task leaves at once. -/
def transient : List Byte :=
  [usbDetachedInitialize, usbStateAttached, usbAttachedResetDevice, usbAttachedWaitSof,
    usbAttachedGetDeviceDescriptorSize]

/-- The states in which a call of the task may do nothing. -/
structure Waits (s : Byte) : Prop where
  transient : s ∉ transient
  addressing : s &&& usbStateMask ≠ usbStateAddressing
  configuring : s &&& usbStateMask ≠ usbStateConfiguring

/-- What one call of `USB_Task` does to the variables. -/
inductive TaskStep (h : Host) : Host → Prop
  | idle : Waits h.usbTaskState → TaskStep h h
  | initialized : h.usbTaskState = usbDetachedInitialize →
      TaskStep h (h.cleared.enter usbDetachedWaitForDevice)
  | settling (delay : Word) : h.usbTaskState = usbStateAttached →
      TaskStep h { h with usbDelay := delay, usbTaskState := usbAttachedSettle }
  | settled : h.usbTaskState = usbAttachedSettle → TaskStep h (h.enter usbAttachedResetDevice)
  | reset : h.usbTaskState = usbAttachedResetDevice →
      TaskStep h (h.enter usbAttachedWaitResetComplete)
  | resetComplete : h.usbTaskState = usbAttachedWaitResetComplete →
      TaskStep h (h.enter usbAttachedWaitSof)
  | started : h.usbTaskState = usbAttachedWaitSof →
      TaskStep h (h.enter usbAttachedGetDeviceDescriptorSize)
  | described : h.usbTaskState = usbAttachedGetDeviceDescriptorSize →
      TaskStep h (h.enter usbStateAddressing)
  | undescribed (error : Byte) : h.usbTaskState = usbAttachedGetDeviceDescriptorSize →
      TaskStep h (h.fail error)
  | addressed {addr : Nat} : h.usbTaskState &&& usbStateMask = usbStateAddressing →
      h.freeAddr = some addr →
      TaskStep h { h.take addr with
        tmpAddr := BitVec.ofNat 8 addr, usbTaskState := usbStateConfiguring }
  | refused {addr : Nat} (error : Byte) : h.usbTaskState &&& usbStateMask = usbStateAddressing →
      h.freeAddr = some addr → TaskStep h ((h.take addr).fail error)
  | exhausted : h.usbTaskState = usbStateAddressing → h.freeAddr = none → TaskStep h (h.fail 0xfe#8)
  /-- A state that a bus event has moved past `USB_STATE_ADDRESSING`. -/
  | unaddressed : h.usbTaskState &&& usbStateMask = usbStateAddressing →
      h.usbTaskState ≠ usbStateAddressing → h.freeAddr = none → TaskStep h h
  | configured {h' : Host} : h.usbTaskState &&& usbStateMask = usbStateConfiguring →
      Detected h h' → TaskStep h (h'.enter usbStateRunning)
  | unconfigured {h' : Host} : h.usbTaskState = usbStateConfiguring → Tried h h' →
      TaskStep h (h'.fail 0xfd#8)
  /-- A state that a bus event has moved past `USB_STATE_CONFIGURING`. -/
  | abandoned {h' : Host} : h.usbTaskState &&& usbStateMask = usbStateConfiguring →
      h.usbTaskState ≠ usbStateConfiguring → Tried h h' → TaskStep h h'

theorem waits_of_detached {s : Byte} (hmask : s &&& usbStateMask = usbStateDetached)
    (hstate : s ≠ usbDetachedInitialize) : Waits s := by
  constructor
  · intro hmem
    simp only [transient, List.mem_cons, List.not_mem_nil, or_false] at hmem
    rcases hmem with h | h | h | h | h
    · exact hstate h
    all_goals rw [h] at hmask; exact absurd hmask (by decide)
  all_goals rw [hmask]; decide

theorem waits_of_attached {s : Byte} (hmask : s &&& usbStateMask = usbStateAttached)
    (hstate : s ∉ [usbStateAttached, usbAttachedResetDevice, usbAttachedWaitSof,
      usbAttachedGetDeviceDescriptorSize]) : Waits s := by
  constructor
  · intro hmem
    obtain h | hmem := List.mem_cons.mp hmem
    · rw [h] at hmask
      exact absurd hmask (by decide)
    · exact hstate hmem
  all_goals rw [hmask]; decide

section Task

variable {P : Type} (io : Platform P) (n : Nat) {f : Firmware P}

/-! ## Detached and attached -/

theorem wp_usbInit {E : Stop → Prop} {Q : Unit → Firmware P → Prop}
    (h : ∀ f', f'.host = f.host.cleared → f'.bridge = f.bridge → Q () f') : wp E usbInit Q f :=
  h _ rfl rfl

theorem wp_stringDescriptor (h : f.host.Points 0#8 0#8) (index : Byte) :
    wp NoPointer (stringDescriptor io n index) (fun _ f' => SameHost f f') f := by
  rw [stringDescriptor, wp_whenever]
  refine ⟨fun _ => ?_, fun _ => .refl f⟩
  refine wp_same_bind (wp_chip_safe (.act _)) fun strDesc f₁ h₁ => ?_
  have h := points_of_same h h₁
  refine wp_same_bind (wp_xferCtrlReq io n h _ _) fun reply f₂ h₂ => ?_
  have h := points_of_same h h₂
  refine wp_bind_read (wp_storeIn _ _) fun strDesc => ?_
  refine wp_same_bind (wp_xferCtrlReq io n h _ _) fun reply f₃ h₃ => ?_
  refine wp_bind_read (wp_storeIn _ _) fun strDesc => ?_
  unfold convUTF8ToStr
  split
  · exact wp_same_pure _
  · exact overrun_noPointer

theorem wp_getDeviceDescriptor (h : f.host.Points 0#8 0#8)
    (hstate : f.host.usbTaskState = usbAttachedGetDeviceDescriptorSize) :
    wp NoPointer (getDeviceDescriptor io n)
      (fun _ f' => TaskStep f.host f'.host ∧ f'.bridge = f.bridge) f := by
  refine wp_bind_of (wp_chip_safe (.act _)) fun buf f₁ h₁ => ?_
  have h := points_of_same h h₁
  refine wp_bind_of (wp_setEndpoint h _) fun _ f₂ h₂ => ?_
  have h := points_of_same h h₂
  refine wp_bind_of (wp_xferCtrlReq io n h _ _) fun reply f₃ h₃ => ?_
  have h := points_of_same h h₃
  refine wp_bind_read (wp_storeIn _ _) fun buf => ?_
  have hsame := (h₁.trans h₂).trans h₃
  split
  · refine wp_bind_of (wp_setEndpoint h _) fun _ f₄ h₄ => ?_
    have h := points_of_same h h₄
    refine wp_bind_of (wp_xferCtrlReq io n h _ _) fun reply f₅ h₅ => ?_
    have h := points_of_same h h₅
    refine wp_bind_read (wp_storeIn _ _) fun buf => ?_
    refine wp_bind_of (wp_stringDescriptor io n h _) fun _ f₆ h₆ => ?_
    have h := points_of_same h h₆
    refine wp_bind_of (wp_stringDescriptor io n h _) fun _ f₇ h₇ => ?_
    have hsame := (((hsame.trans h₄).trans h₅).trans h₆).trans h₇
    rw [wp_setState, hsame.host]
    exact ⟨.described hstate, hsame.bridge⟩
  · rw [failWith, wp_setHost, hsame.host]
    exact ⟨.undescribed reply.rcode hstate, hsame.bridge⟩

theorem wp_detachedTask (hmask : f.host.usbTaskState &&& usbStateMask = usbStateDetached) :
    wp NoPointer (detachedTask io f.host.usbTaskState)
      (fun _ f' => TaskStep f.host f'.host ∧ f'.bridge = f.bridge) f := by
  unfold detachedTask
  split
  · next hstate =>
    rw [wp_bind]
    refine wp_usbInit fun f' hhost hbridge => ?_
    rw [wp_setState, hhost]
    exact ⟨.initialized hstate, hbridge⟩
  · next hstate =>
    have hwaits := waits_of_detached hmask hstate
    split
    · exact ⟨.idle hwaits, rfl⟩
    · exact ⟨.idle hwaits, rfl⟩

theorem wp_attachedTask (h : f.host.Points 0#8 0#8)
    (hmask : f.host.usbTaskState &&& usbStateMask = usbStateAttached) :
    wp NoPointer (attachedTask io n f.host.usbTaskState)
      (fun _ f' => TaskStep f.host f'.host ∧ f'.bridge = f.bridge) f := by
  unfold attachedTask
  split
  · next hstate => exact ⟨.settling _ hstate, rfl⟩
  split
  · next hstate =>
    rw [wp_bind, wp_onChip, wp_act, wp_bind, wp_read, wp_whenever]
    refine ⟨fun _ => ⟨.settled hstate, rfl⟩, fun _ => ⟨.idle (waits_of_attached hmask ?_), rfl⟩⟩
    rw [hstate]
    decide
  split
  · next hstate => exact ⟨.reset hstate, rfl⟩
  split
  · next hstate =>
    rw [wp_bind, wp_onChip, wp_act, wp_whenever]
    refine ⟨fun _ => ⟨.resetComplete hstate, rfl⟩,
      fun _ => ⟨.idle (waits_of_attached hmask ?_), rfl⟩⟩
    rw [hstate]
    decide
  split
  · next hstate =>
    rw [wp_bind, wp_onChip, wp_act, wp_whenever]
    refine ⟨fun _ => ⟨.started hstate, rfl⟩, fun hframe => absurd ?_ hframe⟩
    -- the `or` with a bit that is set is never zero
    intro hzero
    have hbit := congrArg (·.getLsbD 6) hzero
    simp [bmFRAMEIRQ] at hbit
  split
  · next hstate => exact wp_getDeviceDescriptor io n h hstate
  · next h₁ h₂ h₃ h₄ h₅ h₆ =>
    refine ⟨.idle (waits_of_attached hmask fun hmem => ?_), rfl⟩
    simp only [List.mem_cons, List.not_mem_nil, or_false] at hmem
    obtain h | h | h | h := hmem
    · exact h₁ h
    · exact h₃ h
    · exact h₅ h
    · exact h₆ h

/-! ## Addressing -/

/-- The address that is found is the first one that is free. -/
theorem freeAddr_eq_some {h : Host} {addr : Nat} (hfree : h.freeAddr = some addr) :
    1 ≤ addr ∧ addr < 8 ∧ h.epinfo addr = none := by
  have hmem := List.mem_of_find?_eq_some hfree
  have hnone := List.find?_some hfree
  rw [List.mem_range'_1] at hmem
  exact ⟨hmem.1, hmem.2, Option.isNone_iff_eq_none.mp hnone⟩

theorem freeAddr_eq_none {h : Host} (hfree : h.freeAddr = none) {addr : Nat} (hpos : 1 ≤ addr)
    (hlt : addr < 8) : (h.epinfo addr).isSome := by
  have htaken := List.find?_eq_none.mp hfree addr (List.mem_range'_1.mpr ⟨hpos, hlt⟩)
  rw [Option.isNone_iff_eq_none] at htaken
  exact Option.isSome_iff_ne_none.mpr htaken

theorem toNat_ofNat_addr {addr : Nat} (haddr : addr < 8) : (BitVec.ofNat 8 addr).toNat = addr := by
  rw [BitVec.toNat_ofNat, Nat.mod_eq_of_lt (by omega)]

theorem epinfo_setRecord (h : Host) {addr : Nat} (haddr : addr < 9) (g : DevRecord → DevRecord)
    (i : Nat) : (h.setRecord addr g).epinfo i =
      if i = addr then (g (h.record addr)).epinfo else h.epinfo i := by
  rw [Host.epinfo, record_setRecord h haddr]
  split
  · rfl
  · rfl

theorem wp_addressingTask (h : f.host.Points 0#8 0#8)
    (hmask : f.host.usbTaskState &&& usbStateMask = usbStateAddressing) :
    wp NoPointer (addressingTask io n)
      (fun _ f' => TaskStep f.host f'.host ∧ f'.bridge = f.bridge) f := by
  rw [addressingTask, assignAddress, wp_bind, wp_bind, wp_read]
  cases hfree : f.host.freeAddr with
  | none =>
    dsimp only
    rw [wp_pure, wp_bind, wp_read, wp_whenever]
    exact ⟨fun hstate => ⟨.exhausted hstate hfree, rfl⟩,
      fun hstate => ⟨.unaddressed hmask hstate hfree, rfl⟩⟩
  | some addr =>
    dsimp only
    obtain ⟨hpos, hlt, -⟩ := freeAddr_eq_some hfree
    have htoNat := toNat_ofNat_addr hlt
    rw [wp_bind, wp_read]
    refine wp_bind_of (wp_setRecord (by omega) _) ?_
    rintro _ f₁ rfl
    rw [htoNat]
    have hzero : ({ f with host := f.host.take addr } : Firmware P).host.Points 0#8 0#8 := by
      obtain ⟨info, hinfo, hhas⟩ := h
      refine ⟨info, ?_, hhas⟩
      rw [← hinfo]
      exact (epinfo_setRecord f.host (by omega) _ 0).trans (if_neg (by omega))
    refine wp_bind_of (wp_xferCtrlReq io n hzero _ _) fun reply f₂ hsame => ?_
    -- both outcomes leave the state of addressing, so the check after the loop passes
    split
    · rw [wp_setHost, wp_bind, wp_read, wp_whenever, hsame.host]
      exact ⟨fun hstate => absurd hstate (show usbStateConfiguring ≠ usbStateAddressing by decide),
        fun _ => ⟨.addressed hmask hfree, hsame.bridge⟩⟩
    · rw [failWith, wp_setHost, wp_bind, wp_read, wp_whenever, hsame.host]
      exact ⟨fun hstate => absurd hstate (show usbStateError ≠ usbStateAddressing by decide),
        fun _ => ⟨.refused reply.rcode hmask hfree, hsame.bridge⟩⟩

/-! ## Configuring -/

/-- What a probe does to the variables that the first probe found at `f`. -/
def Probes (f : Firmware P) (found : Bool) (f' : Firmware P) : Prop :=
  Tried f.host f'.host ∧ (found = true → Detected f.host f'.host) ∧ f'.bridge = f.bridge

theorem wp_hidProbe_tried {f₁ : Firmware P} (htmp : f.host.tmpAddr.toNat < 9)
    (h : f.host.Points f.host.tmpAddr 0#8) (htried : Tried f.host f₁.host)
    (hbridge : f₁.bridge = f.bridge) (protocol : Byte) {devclass : Byte}
    (hclass : devclass = hidM ∨ devclass = hidK) :
    wp NoPointer (hidProbe io n protocol devclass f.host.tmpAddr) (Probes f) f₁ := by
  have hpoints : f₁.host.Points f.host.tmpAddr 0#8 := by
    obtain heq | ⟨c, i, -, heq⟩ := htried
    · rw [heq]
      exact h
    · rw [heq]
      exact points_detect f.host htmp c i (.inl rfl)
  refine wp_mono (wp_hidProbe io n htmp hpoints protocol devclass) fun found f' hprobed => ?_
  obtain ⟨⟨hfound, hhost⟩ | ⟨i, hhost⟩, hsame⟩ := hprobed
  · rw [← hhost] at htried
    exact ⟨htried, fun htrue => absurd (hfound.symm.trans htrue) Bool.false_ne_true,
      hsame.trans hbridge⟩
  · have hdetected : Detected f.host f'.host := by
      obtain heq | ⟨c, i', -, heq⟩ := htried
      · exact ⟨devclass, i, hclass, by rw [hhost, heq]⟩
      · exact ⟨devclass, i, hclass, by rw [hhost, heq, detect_detect _ htmp]⟩
    exact ⟨.inr hdetected, fun _ => hdetected, hsame.trans hbridge⟩

theorem wp_runProbes {addr : Byte} {probes : List (Byte → Code P Bool)}
    (hprobes : ∀ probe ∈ probes, ∀ f₁ : Firmware P, Tried f.host f₁.host → f₁.bridge = f.bridge →
      wp NoPointer (probe addr) (Probes f) f₁)
    {f₁ : Firmware P} (htried : Tried f.host f₁.host) (hbridge : f₁.bridge = f.bridge) :
    wp NoPointer (runProbes addr probes) (Probes f) f₁ := by
  induction probes generalizing f₁ with
  | nil => exact ⟨htried, nofun, hbridge⟩
  | cons probe probes ih =>
    refine wp_bind_of (hprobes probe List.mem_cons_self f₁ htried hbridge) ?_
    intro found f₂ hprobed
    split
    · next hfound =>
      exact ⟨hprobed.1, fun _ => hprobed.2.1 hfound, hprobed.2.2⟩
    · exact ih (fun probe hmem => hprobes probe (List.mem_cons_of_mem _ hmem)) hprobed.1 hprobed.2.2

theorem wp_clientDriverTable (htmp : f.host.tmpAddr.toNat < 9)
    (h : f.host.Points f.host.tmpAddr 0#8) :
    wp NoPointer (runProbes f.host.tmpAddr (clientDriverTable io n)) (Probes f) f := by
  refine wp_runProbes (fun probe hmem f₁ htried hbridge => ?_) (.inl rfl) rfl
  have hnone : wp NoPointer (pure false : Code P Bool) (Probes f) f₁ := ⟨htried, nofun, hbridge⟩
  simp only [clientDriverTable, List.mem_cons, List.not_mem_nil, or_false] at hmem
  rcases hmem with rfl | rfl | rfl | rfl
  · exact hnone
  · exact wp_hidProbe_tried io n htmp h htried hbridge _ (.inl rfl)
  · exact wp_hidProbe_tried io n htmp h htried hbridge _ (.inr rfl)
  · exact hnone

theorem state_of_tried {h h' : Host} (htried : Tried h h') : h'.usbTaskState = h.usbTaskState := by
  obtain rfl | ⟨c, i, -, rfl⟩ := htried
  · rfl
  · rfl

theorem wp_configuringTask (htmp : f.host.tmpAddr.toNat < 9)
    (h : f.host.Points f.host.tmpAddr 0#8)
    (hmask : f.host.usbTaskState &&& usbStateMask = usbStateConfiguring) :
    wp NoPointer (configuringTask io n)
      (fun _ f' => TaskStep f.host f'.host ∧ f'.bridge = f.bridge) f := by
  rw [configuringTask, wp_bind, wp_read]
  refine wp_bind_of (wp_clientDriverTable io n htmp h) fun found f₁ hprobed => ?_
  obtain ⟨htried, hdetected, hbridge⟩ := hprobed
  have hstate := state_of_tried htried
  rw [wp_bind, wp_whenever]
  constructor
  · intro hfound
    rw [wp_setState, wp_bind, wp_read, wp_whenever]
    exact ⟨fun hstate => absurd hstate (show usbStateRunning ≠ usbStateConfiguring by decide),
      fun _ => ⟨.configured hmask (hdetected hfound), hbridge⟩⟩
  · intro _
    rw [wp_bind, wp_read, wp_whenever, hstate]
    refine ⟨fun hconfiguring => ⟨?_, hbridge⟩,
      fun hmoved => ⟨.abandoned hmask hmoved htried, hbridge⟩⟩
    exact .unconfigured hconfiguring htried

/-! ## The task -/

/-- The pointers that the task follows. -/
structure Placed (h : Host) : Prop where
  zero : (h.epinfo 0).isSome
  tmpAddr : h.usbTaskState &&& usbStateMask = usbStateConfiguring →
    h.tmpAddr.toNat < 9 ∧ (h.epinfo h.tmpAddr.toNat).isSome

theorem wp_usbTask (h : Placed f.host) :
    wp NoPointer (usbTask io n) (fun _ f' => TaskStep f.host f'.host ∧ f'.bridge = f.bridge) f := by
  have hzero : f.host.Points 0#8 0#8 := points_zero h.zero
  rw [usbTask, wp_bind, wp_read]
  split
  · next hmask => exact wp_detachedTask io hmask
  split
  · next hmask => exact wp_attachedTask io n hzero hmask
  split
  · next hmask => exact wp_addressingTask io n hzero hmask
  split
  · next hmask =>
    obtain ⟨htmp, hinfo⟩ := h.tmpAddr hmask
    exact wp_configuringTask io n htmp (points_zero hinfo) hmask
  · next h₁ h₂ h₃ h₄ =>
    refine ⟨.idle ⟨fun hmem => ?_, h₃, h₄⟩, rfl⟩
    simp only [transient, List.mem_cons, List.not_mem_nil, or_false] at hmem
    obtain h | h | h | h | h := hmem <;> rw [h] at h₁ h₂
    · exact h₁ (by decide)
    · exact h₂ (by decide)
    · exact h₂ (by decide)
    · exact h₂ (by decide)
    · exact h₂ (by decide)

end Task

end SocChess.Usb
