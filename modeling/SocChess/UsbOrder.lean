import SocChess.UsbMain

/-!
# The order of an enumeration

The interrupt pin is low only when a device was connected or disconnected, as `rHIEN`
enables no other interrupt (`CondetOnly`). Then the task state moves through the states of
an enumeration one after another.

* `main_ordered`: the states between two iterations are those of `restStates`, and a device
  that runs is the one at the last address, with the class of a boot device.
* `enumeration_history`: since the last time that no device was attached, the states that an
  enumeration goes through before the present one were reached in their order.
-/

namespace SocChess.Usb

open Program

/-- Only a change on the bus pulls the pin low. -/
def CondetOnly {P : Type} (io : Platform P) : Prop :=
  ∀ p hirq, io.pending p = some hirq → hirq &&& bmCONDETIRQ ≠ 0#8

/-- The states between two iterations. -/
def restStates : List Byte :=
  [usbDetachedInitialize, 0x02#8, usbDetachedWaitForDevice, usbDetachedIllegal, 0x05#8,
    usbStateAttached, usbAttachedSettle, usbAttachedResetDevice, usbAttachedWaitResetComplete,
    usbAttachedWaitSof, usbAttachedGetDeviceDescriptorSize, usbStateAddressing,
    usbStateConfiguring, usbStateRunning, usbStateError]

/-- What holds of the variables if only changes on the bus interrupt. -/
structure Ordered (h : Host) (k : Nat) : Prop where
  state : h.usbTaskState ∈ restStates
  configuring : h.usbTaskState = usbStateConfiguring → h.tmpAddr.toNat = k
  running : h.usbTaskState = usbStateRunning →
    h.hidDevice.addr.toNat = k ∧ (h.record k).devclass ∈ [hidK, hidM]

section Ordered

variable {h h' : Host} {k k' : Nat} {pending : Option Byte} {s : Byte}

theorem ordered_of_state (hmem : h.usbTaskState ∈ restStates)
    (hother : h.usbTaskState ∉ [usbStateConfiguring, usbStateRunning]) : Ordered h k where
  state := hmem
  configuring hstate := absurd (hstate ▸ List.mem_cons_self) hother
  running hstate := absurd (.tail _ (hstate ▸ List.mem_cons_self)) hother

theorem ordered_enter (hmem : s ∈ restStates)
    (hother : s ∉ [usbStateConfiguring, usbStateRunning]) : Ordered (h.enter s) k :=
  ordered_of_state hmem hother

theorem ordered_fail (error : Byte) : Ordered (h.fail error) k :=
  ordered_of_state (show usbStateError ∈ _ by decide) (show usbStateError ∉ _ by decide)

/-- A change on the bus restarts the enumeration, or ends the wait for a reset. -/
theorem interrupted_order (hpending : ∀ hirq, pending = some hirq → hirq &&& bmCONDETIRQ ≠ 0#8)
    {s' : Byte} (hs : Interrupted pending s s') :
    s' = s ∨ s' ∈ probedStates ∨ s = usbAttachedWaitResetComplete ∧ s' = usbAttachedWaitSof := by
  cases pending with
  | none => exact .inl hs
  | some hirq =>
    obtain ⟨t, ht, rfl⟩ := hs
    rw [Sampled, if_pos (hpending hirq rfl)] at ht
    obtain ⟨hstays, hmoves⟩ | ⟨hresetting, rfl⟩ := busProbed_cases ht
    · split
      · exact .inr (.inl hmoves)
      · exact .inr (.inl hstays)
    · split
      · exact .inr (.inr ⟨hresetting, by rw [hresetting]; rfl⟩)
      · exact .inl rfl

theorem restStates_of_probed : ∀ s ∈ probedStates,
    s ∈ restStates ∧ s ∉ [usbStateConfiguring, usbStateRunning] := by
  decide +kernel

theorem ordered_interrupted (ho : Ordered h k)
    (hpending : ∀ hirq, pending = some hirq → hirq &&& bmCONDETIRQ ≠ 0#8)
    (hs : Interrupted pending h.usbTaskState s) : Ordered (h.enter s) k := by
  obtain rfl | hprobed | ⟨-, rfl⟩ := interrupted_order hpending hs
  · exact ⟨ho.state, ho.configuring, ho.running⟩
  · obtain ⟨hmem, hother⟩ := restStates_of_probed s hprobed
    exact ordered_enter hmem hother
  · exact ordered_enter (by decide) (by decide)

theorem addressing_of_mask : ∀ s ∈ restStates, s &&& usbStateMask = usbStateAddressing →
    s = usbStateAddressing := by
  decide +kernel

theorem configuring_of_mask : ∀ s ∈ restStates, s &&& usbStateMask = usbStateConfiguring →
    s = usbStateConfiguring := by
  decide +kernel

/-- The task keeps the order. -/
theorem ordered_taskStep (hinv : HostInv h k) (ho : Ordered h k) (hstep : TaskStep h h')
    (ht' : Table h' k') : Ordered h' k' := by
  cases hstep with
  | idle =>
    obtain rfl := table_unique hinv.toTable ht'
    exact ho
  | initialized => exact ordered_enter (by decide) (by decide)
  | settling delay =>
    exact ordered_enter (h := { h with usbDelay := delay }) (by decide) (by decide)
  | settled => exact ordered_enter (by decide) (by decide)
  | reset => exact ordered_enter (by decide) (by decide)
  | resetComplete => exact ordered_enter (by decide) (by decide)
  | started => exact ordered_enter (by decide) (by decide)
  | described => exact ordered_enter (by decide) (by decide)
  | undescribed | refused | exhausted | unconfigured => exact ordered_fail _
  | @addressed addr hmask hfree =>
    obtain ⟨rfl, hk⟩ := eq_succ_of_freeAddr hinv.toTable hfree
    obtain rfl := table_unique (table_take hinv.toTable hk) (ht'.congr rfl rfl)
    refine ⟨show usbStateConfiguring ∈ _ by decide, fun _ => ?_, fun hstate => ?_⟩
    · exact toNat_ofNat_addr (by omega)
    · exact absurd hstate (show usbStateConfiguring ≠ usbStateRunning by decide)
  | unaddressed hmask hmoved => exact absurd (addressing_of_mask _ ho.state hmask) hmoved
  | configured hmask hd =>
    have htmp := ho.configuring (configuring_of_mask _ ho.state hmask)
    obtain rfl := table_unique (table_detected hinv hmask hd).1 (ht'.congr rfl rfl)
    obtain ⟨devclass, interface, hclass, rfl⟩ := hd
    refine ⟨show usbStateRunning ∈ _ by decide, fun hstate => ?_, fun _ => ⟨htmp, ?_⟩⟩
    · exact absurd hstate (show usbStateRunning ≠ usbStateConfiguring by decide)
    · have hlimit := hinv.limit
      have hrecord := record_setRecord h (show h.tmpAddr.toNat < 9 by omega)
        (fun _ => ⟨some .hidEp, devclass⟩) k
      rw [if_pos htmp.symm] at hrecord
      change ((h.setRecord h.tmpAddr.toNat fun _ => ⟨some .hidEp, devclass⟩).record k).devclass ∈ _
      rw [hrecord]
      obtain rfl | rfl := hclass <;> decide
  | abandoned hmask hmoved => exact absurd (configuring_of_mask _ ho.state hmask) hmoved

/-- A device that no longer runs leaves no reset to wait for when the host is initialised. -/
theorem probed_of_initialised {t : Byte} (hrunning : h.usbTaskState = usbStateRunning)
    (hs : Interrupted pending h.usbTaskState s) (hstep : TaskStep (h.enter s) h')
    (ht : BusProbed h'.usbTaskState t) : t ∈ probedStates := by
  have hmem : s ∈ usbStateRunning :: 0x41#8 :: probedStates := by
    rw [hrunning] at hs
    exact interrupted_running hs
  have hreset : h'.usbTaskState ≠ usbAttachedWaitResetComplete := by
    obtain rfl | hother := running_step hstep hmem
    · rintro (rfl : s = usbAttachedWaitResetComplete)
      exact absurd hmem (by decide)
    · exact fun heq => hother (.tail _ (.tail _ (heq ▸ List.mem_cons_self)))
  obtain ⟨hprobed, -⟩ | ⟨hresetting, -⟩ := busProbed_cases ht
  · exact hprobed
  · exact absurd hresetting hreset

theorem ordered_of_probed {t : Byte} (ht : t ∈ probedStates) : Ordered (h.enter t).cleared k := by
  obtain ⟨hrest, hother⟩ := restStates_of_probed t ht
  exact ordered_enter (h := h.cleared) hrest hother

/-- An iteration keeps the order. -/
theorem ordered_hostStep (hinv : RestInv h k) (ho : Ordered h k)
    (hpending : ∀ hirq, pending = some hirq → hirq &&& bmCONDETIRQ ≠ 0#8)
    (hstep : HostStep pending h h') (ht' : Table h' k') : Ordered h' k' := by
  cases hstep with
  | task hs htask =>
    exact ordered_taskStep (hostInv_interrupted hinv hs) (ordered_interrupted ho hpending hs) htask
      ht'
  | initialised hrunning hs htask _ ht =>
    exact ordered_of_probed (probed_of_initialised hrunning hs htask ht)

end Ordered

section Run

variable {P : Type} {io : Platform P} {n : Nat} {f : Firmware P} {k : Nat}

theorem wp_ordered (hio : CondetOnly io) (hgood : Good f k) (ho : Ordered f.host k) :
    wp NoPointer (mainIteration io n) (fun _ f' => (∃ k', Good f' k' ∧ Ordered f'.host k') ∧
      HostStep (io.pending f.chip) f.host f'.host) f := by
  refine wp_mono (wp_mainIteration io n hgood) fun _ f' ⟨⟨k', hgood'⟩, hstep, _⟩ => ?_
  exact ⟨⟨k', hgood', ordered_hostStep hgood.toRestInv ho (hio f.chip) hstep hgood'.toTable⟩, hstep⟩

theorem wp_start (device : Byte) (buf : BootMouseReport) (kbdbuf : BootKbdReport) (p : P) :
    wp NoPointer (max3421eInit io n) (fun _ f₁ => wp NoPointer usbInit (fun _ f' =>
      Good f' 0 ∧ Ordered f'.host 0 ∧ f'.host.usbTaskState ∈ probedStates) f₁)
      (Firmware.start device buf kbdbuf p) := by
  refine wp_mono (wp_initialise io n) fun _ f₁ h₁ => wp_mono h₁ ?_
  rintro _ f₂ ⟨t, ht, hhost, hbridge⟩
  refine ⟨good_start ht hhost hbridge, ?_⟩
  obtain ⟨hprobed, -⟩ | ⟨hresetting, -⟩ := busProbed_cases ht
  · rw [hhost]
    exact ⟨ordered_of_probed hprobed, hprobed⟩
  · exact absurd hresetting (show usbDetachedInitialize ≠ usbAttachedWaitResetComplete by decide)

/-- The states that an enumeration cannot go around, in their order. -/
def enumeration : List Byte :=
  [usbAttachedWaitResetComplete, usbAttachedGetDeviceDescriptorSize, usbStateAddressing,
    usbStateConfiguring]

/-- How many of them are behind a state, or are this state. -/
def stage (s : Byte) : Nat :=
  if s = usbAttachedWaitResetComplete ∨ s = usbAttachedWaitSof then 1
  else if s = usbAttachedGetDeviceDescriptorSize then 2
  else if s = usbStateAddressing then 3
  else if s = usbStateConfiguring ∨ s = usbStateRunning then 4
  else 0

/-- The latest of the states belong to one enumeration, and it has come to `s`. -/
def Recorded (states : List Byte) (s : Byte) : Prop :=
  ∃ before recent, states = before ++ recent ∧ (∀ t ∈ recent, 0 < stage t) ∧
    (enumeration.take (stage s)).Sublist recent

theorem recorded_of_stage_zero (states : List Byte) {s : Byte} (hs : stage s = 0) :
    Recorded states s :=
  ⟨states, [], (List.append_nil _).symm, nofun, by rw [hs]; exact List.nil_sublist _⟩

theorem recorded_congr {states : List Byte} {s s' : Byte} (h : Recorded states s)
    (hstage : stage s' = stage s) : Recorded states s' := by
  unfold Recorded
  rw [hstage]
  exact h

/-- The task goes on by one stage at most. -/
inductive Onward (s s' : Byte) : Prop
  | restarted : stage s' = 0 → Onward s s'
  | held : stage s' = stage s → Onward s s'
  | reached : stage s' = stage s + 1 → enumeration[stage s]? = some s' → Onward s s'

theorem recorded_onward {states : List Byte} {s s' : Byte} (h : Recorded states s)
    (honward : Onward s s') : Recorded (states ++ [s']) s' := by
  by_cases hzero : stage s' = 0
  · exact recorded_of_stage_zero _ hzero
  obtain ⟨before, recent, rfl, hrecent, htaken⟩ := h
  refine ⟨before, recent ++ [s'], List.append_assoc _ _ _, ?_, ?_⟩
  · exact List.forall_mem_append.mpr
      ⟨hrecent, List.forall_mem_singleton.mpr (Nat.pos_of_ne_zero hzero)⟩
  · cases honward with
    | restarted hrestarted => exact absurd hrestarted hzero
    | held hheld =>
      rw [hheld]
      exact htaken.trans (List.sublist_append_left _ _)
    | reached hreached hnext =>
      rw [hreached, List.take_add_one, hnext]
      exact htaken.append (List.Sublist.refl _)

theorem onward_taskStep {h h' : Host} (hmem : h.usbTaskState ∈ restStates)
    (hstep : TaskStep h h') : Onward h.usbTaskState h'.usbTaskState := by
  cases hstep with
  | idle => exact .held rfl
  | initialized => exact .restarted rfl
  | settling => exact .restarted rfl
  | settled => exact .restarted rfl
  | reset hstate => exact .reached (by rw [hstate]; rfl) (by rw [hstate]; rfl)
  | resetComplete hstate => exact .held (by rw [hstate]; rfl)
  | started hstate => exact .reached (by rw [hstate]; rfl) (by rw [hstate]; rfl)
  | described hstate => exact .reached (by rw [hstate]; rfl) (by rw [hstate]; rfl)
  | undescribed | refused | exhausted | unconfigured => exact .restarted rfl
  | addressed hmask =>
    have hstate := addressing_of_mask _ hmem hmask
    exact .reached (by rw [hstate]; rfl) (by rw [hstate]; rfl)
  | unaddressed => exact .held rfl
  | configured hmask =>
    have hstate := configuring_of_mask _ hmem hmask
    exact .held (by rw [hstate]; rfl)
  | abandoned _ _ htried => exact .held (congrArg stage (state_of_tried htried))

theorem stage_of_probed : ∀ s ∈ probedStates, stage s = 0 := by
  decide +kernel

theorem recorded_interrupted {pending : Option Byte} {states : List Byte} {s s' : Byte}
    (h : Recorded states s) (hpending : ∀ hirq, pending = some hirq → hirq &&& bmCONDETIRQ ≠ 0#8)
    (hs : Interrupted pending s s') : Recorded states s' := by
  obtain rfl | hprobed | ⟨rfl, rfl⟩ := interrupted_order hpending hs
  · exact h
  · exact recorded_of_stage_zero states (stage_of_probed s' hprobed)
  · exact recorded_congr h rfl

/-- An iteration adds the state that it ends in. -/
theorem recorded_hostStep {pending : Option Byte} {states : List Byte} {h h' : Host}
    (ho : Ordered h k) (hr : Recorded states h.usbTaskState)
    (hpending : ∀ hirq, pending = some hirq → hirq &&& bmCONDETIRQ ≠ 0#8)
    (hstep : HostStep pending h h') : Recorded (states ++ [h'.usbTaskState]) h'.usbTaskState := by
  cases hstep with
  | task hs htask =>
    exact recorded_onward (recorded_interrupted hr hpending hs)
      (onward_taskStep (ordered_interrupted ho hpending hs).state htask)
  | initialised hrunning hs htask _ ht =>
    have hprobed := probed_of_initialised hrunning hs htask ht
    exact recorded_of_stage_zero _ (stage_of_probed _ hprobed)

variable (io n) in
/-- An iteration that returns the state it ends in. -/
def loggedIteration : Code P Byte := do
  mainIteration io n
  read fun f => f.host.usbTaskState

theorem recorded_trace (hio : CondetOnly io) {before states : List Byte} {f' : Firmware P}
    (htrace : Trace (loggedIteration io n) states f f') (hgood : Good f k)
    (ho : Ordered f.host k) (hr : Recorded before f.host.usbTaskState) :
    Recorded (before ++ states) f'.host.usbTaskState := by
  induction htrace generalizing before k with
  | nil f =>
    rw [List.append_nil]
    exact hr
  | @cons s states f f₁ f' hlogged _ ih =>
    have hwp : wp NoPointer (loggedIteration io n) (fun s f₁ => s = f₁.host.usbTaskState ∧
        (∃ k', Good f₁ k' ∧ Ordered f₁.host k') ∧
        HostStep (io.pending f.chip) f.host f₁.host) f :=
      wp_bind_of (wp_ordered hio hgood ho) fun _ f₁ h => ⟨rfl, h⟩
    obtain ⟨rfl, ⟨k', hgood', ho'⟩, hstep⟩ := wp_ok hwp hlogged
    have hnext := ih hgood' ho' (recorded_hostStep ho hr (hio f.chip) hstep)
    rwa [List.append_assoc] at hnext

end Run

/-! ## A device that is attached -/

/-- A script with a pin: it is low when the byte that the chip sends next says that the bus
has changed. -/
def Script.pinned : Platform Script :=
  { Script.platform with
    interrupt := fun p =>
      (if p.received.getD 0 0#8 &&& bmCONDETIRQ ≠ 0#8 then 0#32 else 1#32, p) }

theorem condetOnly_pinned : CondetOnly Script.pinned := by
  intro p hirq hpending
  unfold Platform.pending at hpending
  split at hpending
  · next hpin =>
    obtain rfl := Option.some.inj hpending
    intro hzero
    have hbyte : p.received.getD 0 0#8 &&& bmCONDETIRQ = 0#8 := hzero
    have hhigh : (Script.pinned.interrupt p).1 = 1#32 := if_neg (not_not.mpr hbyte)
    rw [hhigh] at hpin
    exact absurd hpin (by decide)
  · cases hpending

/-- An empty bus, and then a full-speed device, which is there for five iterations. -/
def attaching : Script :=
  ⟨[0x13#8, 0x01#8, 0#8, 0#8, 0#8, 0x20#8, 0x80#8, 0#8, 0#8, 0#8, 0x40#8], 0#32, 25000000#32⟩

def Firmware.ran {α : Type} (f : Firmware Script) (x : Code Script α) : Firmware Script :=
  match x.run f with
  | .ok (_, f') => f'
  | .error _ => f

/-- The firmware after some iterations. -/
def attached : Nat → Firmware Script
  | 0 => (Firmware.start 0#8 ⟨0#8, 0#8, 0#8⟩ ⟨Vector.replicate 6 0#8⟩ attaching).ran
      (main Script.pinned 5 0)
  | k + 1 => (attached k).ran (loggedIteration Script.pinned 5)

/-- The step from one of these states to the next. -/
def Attaches (k : Nat) (s : Byte) : Prop :=
  (loggedIteration Script.pinned 5).run (attached k) = .ok (s, attached (k + 1))

end SocChess.Usb
