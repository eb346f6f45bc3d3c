import SocChess.UsbEnumeration

/-!
# The invariants of a run

`Table` says which addresses are taken, and `HostInv` what the task may rely on. There is
one lemma for each operation on the device table.

* `hostInv_interrupted`: the interrupt handler leaves what the task relies on.
* `restInv_taskStep`: the task leaves what holds between two iterations of `main`.
-/

namespace SocChess.Usb

open Program

/-! ## The device table -/

/-- The addresses up to `k` are taken, and the classes are those of boot devices. -/
structure Table (h : Host) (k : Nat) : Prop where
  limit : k ≤ 7
  taken : ∀ i, (h.epinfo i).isSome ↔ i ≤ k
  classes : ∀ i, (h.record i).devclass ∈ [0#8, hidK, hidM]
  /-- When a device has a class, `hid_device` has the endpoints of a HID device. -/
  detected : (∀ i, (h.record i).devclass = 0#8) ∨ h.epinfo h.hidDevice.addr.toNat = some .hidEp

section Table

variable {h h' : Host} {k : Nat}

theorem Table.congr (ht : Table h k) (htable : h'.devtable = h.devtable)
    (hdevice : h'.hidDevice = h.hidDevice) : Table h' k := by
  have hrecord : h'.record = h.record := by
    funext i
    rw [Host.record, htable, Host.record]
  have hinfo : h'.epinfo = h.epinfo := by
    funext i
    rw [Host.epinfo, hrecord, Host.epinfo]
  constructor
  · exact ht.limit
  · rw [hinfo]
    exact ht.taken
  · rw [hrecord]
    exact ht.classes
  · rw [hrecord, hinfo, hdevice]
    exact ht.detected

theorem record_cleared (h : Host) (i : Nat) :
    h.cleared.record i = if i = 0 then ⟨some .dev0ep, 0#8⟩ else ⟨none, 0#8⟩ := by
  unfold Host.cleared Host.record
  dsimp only
  rw [Vector.getElem?_setIfInBounds]
  by_cases hi : 0 = i
  · subst hi
    rfl
  · rw [if_neg hi, if_neg (Ne.symm hi), Vector.getElem?_replicate]
    split <;> rfl

theorem table_cleared (h : Host) : Table h.cleared 0 := by
  constructor
  · exact Nat.zero_le 7
  · intro i
    rw [Host.epinfo, record_cleared]
    split
    · next hi => simp [hi]
    · next hi => simp [hi]
  · intro i
    rw [record_cleared]
    split <;> exact List.mem_cons_self
  · refine .inl fun i => ?_
    rw [record_cleared]
    split <;> rfl

/-- The addresses are taken in order. -/
theorem eq_succ_of_freeAddr (ht : Table h k) {addr : Nat} (hfree : h.freeAddr = some addr) :
    addr = k + 1 ∧ k < 7 := by
  obtain ⟨hpos, hlt, hnone⟩ := freeAddr_eq_some hfree
  have hgt : k < addr := by
    rw [← Nat.not_le, ← ht.taken, hnone]
    exact Bool.false_ne_true
  have hfirst : addr ≤ k + 1 := by
    by_contra hafter
    obtain ⟨-, -, hbefore⟩ := List.find?_range'_eq_some.mp hfree
    have htaken := hbefore (k + 1) (Nat.succ_pos k) (Nat.not_le.mp hafter)
    rw [Bool.not_eq_true', Option.isNone_eq_false_iff, ht.taken] at htaken
    omega
  omega

theorem eq_of_freeAddr_none (ht : Table h k) (hfree : h.freeAddr = none) : k = 7 := by
  have htaken := (ht.taken 7).mp (freeAddr_eq_none hfree (by decide) (by decide))
  exact Nat.le_antisymm ht.limit htaken

theorem table_take (ht : Table h k) (hk : k < 7) : Table (h.take (k + 1)) (k + 1) := by
  have hnone : h.epinfo (k + 1) = none := by
    rw [← Option.not_isSome_iff_eq_none, ht.taken]
    omega
  have hrecord := record_setRecord h (show k + 1 < 9 by omega) fun r =>
    { r with epinfo := h.epinfo 0 }
  have hclass : ∀ i, ((h.take (k + 1)).record i).devclass = (h.record i).devclass := by
    intro i
    rw [Host.take, hrecord]
    split
    · next hi => rw [hi]
    · rfl
  have hinfo : ∀ i, (h.take (k + 1)).epinfo i = if i = k + 1 then h.epinfo 0 else h.epinfo i := by
    intro i
    rw [Host.epinfo, Host.take, hrecord]
    split <;> rfl
  constructor
  · exact hk
  · intro i
    rw [hinfo]
    split
    · next hi => simp [ht.taken, hi]
    · next hi =>
      rw [ht.taken]
      omega
  · intro i
    rw [hclass]
    exact ht.classes i
  · obtain hzero | hhid := ht.detected
    · exact .inl fun i => (hclass i).trans (hzero i)
    · right
      change (h.take (k + 1)).epinfo h.hidDevice.addr.toNat = some .hidEp
      rw [hinfo, if_neg, hhid]
      intro heq
      rw [heq, hnone] at hhid
      cases hhid

theorem table_detect (ht : Table h k) {addr devclass : Byte} (haddr : addr.toNat ≤ k)
    (hclass : devclass = hidM ∨ devclass = hidK) (interface : Byte) :
    Table (h.detect addr devclass interface) k := by
  have hlimit := ht.limit
  have hrecord : ∀ i, (h.detect addr devclass interface).record i =
      if i = addr.toNat then ⟨some .hidEp, devclass⟩ else h.record i :=
    record_setRecord h (show addr.toNat < 9 by omega) fun _ => ⟨some .hidEp, devclass⟩
  constructor
  · exact hlimit
  · intro i
    rw [Host.epinfo, hrecord]
    split
    · next hi => simp [hi, haddr]
    · exact ht.taken i
  · intro i
    rw [hrecord]
    split
    · obtain rfl | rfl := hclass <;> decide
    · exact ht.classes i
  · right
    change (h.detect addr devclass interface).epinfo addr.toNat = some .hidEp
    rw [Host.epinfo, hrecord, if_pos rfl]

end Table

/-! ## The variables -/

/-- What holds at every step of an iteration. -/
structure HostInv (h : Host) (k : Nat) : Prop extends Table h k where
  tmpAddr : h.tmpAddr.toNat ≤ 7
  configuring : h.usbTaskState &&& usbStateMask = usbStateConfiguring →
    1 ≤ k ∧ h.tmpAddr.toNat ≤ k
  running : h.usbTaskState = usbStateRunning → 1 ≤ k

/-- What holds between two iterations: the state stays at an address only if there is no
free one. -/
structure RestInv (h : Host) (k : Nat) : Prop extends HostInv h k where
  addressing : h.usbTaskState &&& usbStateMask = usbStateAddressing →
    h.usbTaskState ≠ usbStateAddressing → k = 7

section Invariant

variable {h h' : Host} {k : Nat}

/-- A state without conditions on the table. -/
theorem restInv_of_state (ht : Table h k) (htmp : h.tmpAddr.toNat ≤ 7)
    (hconfiguring : h.usbTaskState &&& usbStateMask ≠ usbStateConfiguring)
    (haddressing : h.usbTaskState = usbStateAddressing ∨
      h.usbTaskState &&& usbStateMask ≠ usbStateAddressing)
    (hrunning : h.usbTaskState ≠ usbStateRunning) : RestInv h k where
  toTable := ht
  tmpAddr := htmp
  configuring hmask := absurd hmask hconfiguring
  running hstate := absurd hstate hrunning
  addressing hmask hstate := absurd hmask (haddressing.resolve_left hstate)

/-- The states that a probe of the bus leads to, with or without a bus event. -/
def probedStates : List Byte :=
  [usbDetachedInitialize, 0x02#8, usbDetachedWaitForDevice, usbDetachedIllegal, 0x05#8,
    usbStateAttached, usbAttachedSettle]

theorem busProbed_cases {s t : Byte} (h : BusProbed s t) :
    t ∈ probedStates ∧ t + 1#8 ∈ probedStates ∨ s = usbAttachedWaitResetComplete ∧ t = s := by
  cases h with
  | attached => exact .inl ⟨by decide, by decide⟩
  | resetting => exact .inr ⟨rfl, rfl⟩
  | illegal => exact .inl ⟨by decide, by decide⟩
  | lost => exact .inl ⟨by decide, by decide⟩
  | waiting => exact .inl ⟨by decide, by decide⟩

/-- After the handler the state is the same, the next one, or one that a probe leads to. -/
theorem interrupted_cases {pending : Option Byte} {s s' : Byte} (h : Interrupted pending s s') :
    s' = s ∨ s' = s + 1#8 ∨ s' ∈ probedStates := by
  cases pending with
  | none => exact .inl h
  | some hirq =>
    obtain ⟨t, ht, rfl⟩ := h
    have hnext : t = s ∨ t ∈ probedStates ∧ t + 1#8 ∈ probedStates := by
      unfold Sampled at ht
      split at ht
      · obtain hprobed | ⟨-, hsame⟩ := busProbed_cases ht
        · exact .inr hprobed
        · exact .inl hsame
      · exact .inl ht
    obtain rfl | ⟨hstays, hmoves⟩ := hnext
    · split
      · exact .inr (.inl rfl)
      · exact .inl rfl
    · split
      · exact .inr (.inr hmoves)
      · exact .inr (.inr hstays)

theorem mask_of_probed {s : Byte} (h : s ∈ probedStates) :
    s &&& usbStateMask = usbStateDetached ∨ s &&& usbStateMask = usbStateAttached := by
  simp only [probedStates, List.mem_cons, List.not_mem_nil, or_false] at h
  obtain rfl | rfl | rfl | rfl | rfl | rfl | rfl := h <;> decide

/-- A state moves to a configuring one only from such a state or from the last addressing one. -/
theorem succ_configuring : ∀ s : Byte, s + 1#8 &&& usbStateMask = usbStateConfiguring →
    s &&& usbStateMask = usbStateConfiguring ∨
      s &&& usbStateMask = usbStateAddressing ∧ s ≠ usbStateAddressing := by
  decide +kernel

theorem succ_running : ∀ s : Byte, s + 1#8 = usbStateRunning →
    s &&& usbStateMask = usbStateConfiguring := by
  decide +kernel

/-- The handler keeps what the task relies on. -/
theorem hostInv_interrupted (hinv : RestInv h k) {pending : Option Byte} {s : Byte}
    (hs : Interrupted pending h.usbTaskState s) : HostInv { h with usbTaskState := s } k where
  toTable := hinv.toTable.congr rfl rfl
  tmpAddr := hinv.tmpAddr
  configuring hmask := by
    change s &&& usbStateMask = usbStateConfiguring at hmask
    obtain rfl | rfl | hprobed := interrupted_cases hs
    · exact hinv.configuring hmask
    · obtain hbefore | ⟨hbefore, hmoved⟩ := succ_configuring _ hmask
      · exact hinv.configuring hbefore
      · obtain rfl := hinv.addressing hbefore hmoved
        exact ⟨by decide, hinv.tmpAddr⟩
    · obtain h | h := mask_of_probed hprobed <;> rw [h] at hmask <;> exact absurd hmask (by decide)
  running hstate := by
    change s = usbStateRunning at hstate
    obtain rfl | rfl | hprobed := interrupted_cases hs
    · exact hinv.running hstate
    · exact (hinv.configuring (succ_running _ hstate)).1
    · rw [hstate] at hprobed
      exact absurd hprobed (by decide)

theorem placed_of_inv (hinv : HostInv h k) : Placed h where
  zero := (hinv.taken 0).mpr (Nat.zero_le k)
  tmpAddr hmask :=
    ⟨Nat.lt_of_le_of_lt hinv.tmpAddr (by decide),
      (hinv.taken _).mpr (hinv.configuring hmask).2⟩

theorem table_detected (hinv : HostInv h k)
    (hmask : h.usbTaskState &&& usbStateMask = usbStateConfiguring) (hd : Detected h h') :
    Table h' k ∧ h'.tmpAddr = h.tmpAddr := by
  obtain ⟨devclass, interface, hclass, rfl⟩ := hd
  exact ⟨table_detect hinv.toTable (hinv.configuring hmask).2 hclass interface, rfl⟩

theorem table_tried (hinv : HostInv h k)
    (hmask : h.usbTaskState &&& usbStateMask = usbStateConfiguring) (ht : Tried h h') :
    Table h' k ∧ h'.tmpAddr = h.tmpAddr := by
  obtain rfl | hd := ht
  · exact ⟨hinv.toTable, rfl⟩
  · exact table_detected hinv hmask hd

/-- A failure keeps the table. -/
theorem restInv_fail (ht : Table h k) (htmp : h.tmpAddr.toNat ≤ 7) (error : Byte) :
    RestInv (h.fail error) k :=
  restInv_of_state (ht.congr rfl rfl) htmp (show usbStateError &&& usbStateMask ≠ _ by decide)
    (.inr (show usbStateError &&& usbStateMask ≠ _ by decide))
    (show usbStateError ≠ usbStateRunning by decide)

theorem restInv_enter {s : Byte} (ht : Table h k) (htmp : h.tmpAddr.toNat ≤ 7)
    (hs : s &&& usbStateMask = usbStateDetached ∨ s &&& usbStateMask = usbStateAttached) :
    RestInv (h.enter s) k := by
  have hrunning : s ≠ usbStateRunning := by
    rintro rfl
    exact absurd hs (by decide)
  refine restInv_of_state (ht.congr rfl rfl) htmp ?_ (.inr ?_) hrunning
  · change s &&& usbStateMask ≠ usbStateConfiguring
    obtain hs | hs := hs <;> rw [hs] <;> decide
  · change s &&& usbStateMask ≠ usbStateAddressing
    obtain hs | hs := hs <;> rw [hs] <;> decide

/-- The task keeps the invariant. -/
theorem restInv_taskStep (hinv : HostInv h k) (hstep : TaskStep h h') : ∃ k', RestInv h' k' := by
  have ht := hinv.toTable
  have htmp := hinv.tmpAddr
  cases hstep with
  | idle hwaits =>
    exact ⟨k, { hinv with addressing := fun hmask => absurd hmask hwaits.addressing }⟩
  | initialized => exact ⟨0, restInv_enter (table_cleared h) htmp (by decide)⟩
  | settling delay =>
    exact ⟨k, restInv_enter (h := { h with usbDelay := delay }) (ht.congr rfl rfl) htmp (by decide)⟩
  | settled => exact ⟨k, restInv_enter ht htmp (by decide)⟩
  | reset => exact ⟨k, restInv_enter ht htmp (by decide)⟩
  | resetComplete => exact ⟨k, restInv_enter ht htmp (by decide)⟩
  | started => exact ⟨k, restInv_enter ht htmp (by decide)⟩
  | described =>
    exact ⟨k, restInv_of_state (ht.congr rfl rfl) htmp
      (show usbStateAddressing &&& usbStateMask ≠ usbStateConfiguring by decide) (.inl rfl)
      (show usbStateAddressing ≠ usbStateRunning by decide)⟩
  | undescribed error => exact ⟨k, restInv_fail ht htmp error⟩
  | @addressed addr hmask hfree =>
    obtain ⟨rfl, hk⟩ := eq_succ_of_freeAddr ht hfree
    have htoNat := toNat_ofNat_addr (show k + 1 < 8 by omega)
    refine ⟨k + 1, ⟨⟨(table_take ht hk).congr rfl rfl, ?_, fun _ => ⟨Nat.succ_pos k, ?_⟩, ?_⟩, ?_⟩⟩
    · exact htoNat.le.trans hk
    · exact htoNat.le
    · exact fun _ => Nat.succ_pos k
    · exact fun hmask => absurd hmask
        (show usbStateConfiguring &&& usbStateMask ≠ usbStateAddressing by decide)
  | refused error hmask hfree =>
    obtain ⟨rfl, hk⟩ := eq_succ_of_freeAddr ht hfree
    exact ⟨k + 1, restInv_fail (table_take ht hk) htmp error⟩
  | exhausted => exact ⟨k, restInv_fail ht htmp _⟩
  | unaddressed hmask hstate hfree =>
    exact ⟨k, { hinv with addressing := fun _ _ => eq_of_freeAddr_none ht hfree }⟩
  | configured hmask hd =>
    obtain ⟨ht', htmp'⟩ := table_detected hinv hmask hd
    refine ⟨k, ⟨⟨ht'.congr rfl rfl, ?_, ?_, fun _ => (hinv.configuring hmask).1⟩, ?_⟩⟩
    · exact (congrArg BitVec.toNat htmp').le.trans htmp
    · exact fun hmask => absurd hmask
        (show usbStateRunning &&& usbStateMask ≠ usbStateConfiguring by decide)
    · exact fun hmask => absurd hmask
        (show usbStateRunning &&& usbStateMask ≠ usbStateAddressing by decide)
  | unconfigured hstate htried =>
    obtain ⟨ht', htmp'⟩ := table_tried hinv (by rw [hstate]; decide) htried
    exact ⟨k, restInv_fail ht' ((congrArg BitVec.toNat htmp').le.trans htmp) _⟩
  | abandoned hmask _ htried =>
    obtain ⟨ht', htmp'⟩ := table_tried hinv hmask htried
    have hstate := state_of_tried htried
    refine ⟨k, ⟨⟨ht', ?_, fun _ => ?_, fun hrunning => ?_⟩, fun haddressing => ?_⟩⟩
    · exact (congrArg BitVec.toNat htmp').le.trans htmp
    · rw [htmp']
      exact hinv.configuring hmask
    · exact (hinv.configuring hmask).1
    · rw [hstate, hmask] at haddressing
      exact absurd haddressing (by decide)

end Invariant

end SocChess.Usb
