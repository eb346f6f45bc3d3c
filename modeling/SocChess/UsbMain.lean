import SocChess.UsbInvariant

/-!
# Runs of `main`

An iteration of the loop of `main`, from the invariants of its parts.

* `main_good`: whatever the chip answers, `main` follows no stray pointer, and between two
  iterations the flag is set in `USB_STATE_RUNNING` only, with the class of the device that
  was given the last address.
* `main_refines`: a run of `main` is one of `Bridge.iterate`, the loop without the host
  software.
-/

namespace SocChess.Usb

open Program

/-- What holds between two iterations of `main`. -/
structure Good {P : Type} (f : Firmware P) (k : Nat) : Prop extends RestInv f.host k where
  running_iff : f.bridge.runningdebugflag = true ↔ f.host.usbTaskState = usbStateRunning
  device : f.bridge.runningdebugflag = true → f.bridge.device = (f.host.record k).devclass

section Main

variable {P : Type} (io : Platform P) (n : Nat) {f : Firmware P} {k : Nat}

/-! ## The device is reported -/

/-- The loop over the table ends with the class at the last address that is taken. -/
theorem wp_reportDevices (ht : Table f.host k) {a m : Nat} (ham : a + m = 8) (device : Byte) :
    wp NoPointer (reportDevices (List.range' a m) device) (fun reported f' =>
      reported = (if a ≤ k then (f.host.record k).devclass else device) ∧ f' = f) f := by
  have hlimit := ht.limit
  induction m generalizing a device with
  | zero =>
    rw [if_neg (by omega)]
    exact ⟨rfl, rfl⟩
  | succ m ih =>
    rw [List.range'_succ, reportDevices, wp_bind]
    have hlt : a < 9 := by omega
    refine wp_deref_isSome (by rw [Vector.getElem?_eq_getElem hlt]; rfl) fun record hrecord => ?_
    have hrecord : record = f.host.record a := by rw [Host.record, hrecord, Option.getD_some]
    subst hrecord
    have htaken := ht.taken a
    split
    · next hnone =>
      have hfree : ¬ a ≤ k := by
        rw [← htaken, Host.epinfo, hnone]
        exact Bool.false_ne_true
      have hrest := ih (a := a + 1) (by omega) device
      rw [if_neg (by omega)] at hrest
      rwa [if_neg hfree]
    · next hsome =>
      have hle : a ≤ k := htaken.mp (Option.isSome_iff_ne_none.mpr hsome)
      have hclass : (f.host.record a).devclass.toNat < 4 := by
        have hmem := ht.classes a
        simp only [List.mem_cons, List.not_mem_nil, or_false] at hmem
        obtain h | h | h := hmem <;> rw [h] <;> decide
      rw [if_pos hclass, if_pos hle]
      refine wp_mono (ih (a := a + 1) (by omega) _) fun reported f' ⟨hreported, hsame⟩ =>
        ⟨?_, hsame⟩
      rw [hreported]
      split
      · rfl
      · rw [show a = k by omega]

theorem wp_queryByte {request : Code P Reply}
    (h : wp NoPointer request (fun _ f' => SameHost f f') f) :
    wp NoPointer (queryByte request) (fun _ f' => SameHost f f') f := by
  refine wp_same_bind h fun reply f₁ _ => ?_
  split
  · exact wp_same_pure _
  · exact overrun_noPointer

theorem wp_getDriverandReport (ht : Table f.host k) (hk : 1 ≤ k) :
    wp NoPointer (getDriverandReport io n) (fun device f' =>
      device = (f.host.record k).devclass ∧ SameHost f f') f := by
  refine wp_bind_of (wp_reportDevices ht (by decide) 0xff#8) fun device f₁ ⟨hdevice, hsame⟩ => ?_
  subst hsame
  rw [if_pos hk] at hdevice
  have hone : f₁.host.Points 1#8 0#8 := points_zero ((ht.taken 1).mpr hk)
  rw [wp_bind, wp_read]
  refine wp_bind_of (wp_queryByte (wp_xferCtrlReq io n hone _ _)) fun _ f₂ h₂ => ?_
  refine wp_bind_of (wp_queryByte (wp_xferCtrlReq io n (points_of_same hone h₂) _ _)) ?_
  exact fun _ f₃ h₃ => ⟨hdevice, h₂.trans h₃⟩

/-! ## The device is polled -/

/-- What `hid_device` refers to, if there is a class to poll. -/
theorem points_of_class (ht : Table f.host k) {i : Nat}
    (hclass : (f.host.record i).devclass ≠ 0#8) : f.host.Points f.host.hidDevice.addr 1#8 := by
  obtain hzero | hhid := ht.detected
  · exact absurd (hzero i) hclass
  · exact ⟨.hidEp, hhid, .inr rfl⟩

theorem wp_pollReport (h : f.host.Points f.host.hidDevice.addr 1#8) :
    wp NoPointer (pollReport io n) (fun _ f' => SameHost f f') f := by
  rw [pollReport, wp_bind, wp_read]
  refine wp_same_bind (wp_chip_safe (.update _)) fun _ f₁ h₁ => ?_
  have h := points_of_same h h₁
  refine wp_bind_read (wp_endpoint h) fun record => ?_
  refine wp_same_bind (wp_xferInTransfer io n h _ _) fun reply f₂ _ => ?_
  split
  · exact wp_same_pure _
  · exact overrun_noPointer

theorem wp_mouseBranch (h : f.host.Points f.host.hidDevice.addr 1#8) :
    wp NoPointer (mouseBranch io n) (fun _ f' => f'.host = f.host ∧
      ∃ rcode stored, f'.bridge = f.bridge.pollMouse
        ⟨usbStateRunning, 0#8, rcode, storeMouse f.bridge.buf stored, f.bridge.kbdbuf⟩) f := by
  rw [mouseBranch, mousePoll, wp_bind, wp_bind]
  refine wp_mono (wp_pollReport io n h) fun reply f₁ hsame => ?_
  rw [wp_bind, wp_setBridge, wp_pure, hsame.bridge]
  unfold Bridge.pollMouse
  split
  · next hnak => exact ⟨hsame.host, reply.rcode, reply.stored, by rw [if_pos hnak]⟩
  · next hnak =>
    split
    · next hrcode =>
      exact ⟨hsame.host, reply.rcode, reply.stored, by rw [if_neg hnak, if_pos hrcode]⟩
    · next hrcode =>
      exact ⟨hsame.host, reply.rcode, reply.stored, by rw [if_neg hnak, if_neg hrcode]⟩

theorem wp_keyboardBranch (h : f.host.Points f.host.hidDevice.addr 1#8) :
    wp NoPointer (keyboardBranch io n) (fun _ f' => f'.host = f.host ∧
      ∃ rcode stored, f'.bridge = f.bridge.pollKeyboard
        ⟨usbStateRunning, 0#8, rcode, f.bridge.buf, storeKbd f.bridge.kbdbuf stored⟩) f := by
  rw [keyboardBranch, kbdPoll, wp_bind, wp_bind]
  refine wp_mono (wp_pollReport io n h) fun reply f₁ hsame => ?_
  rw [wp_bind, wp_setBridge, wp_pure, hsame.bridge]
  unfold Bridge.pollKeyboard
  split
  · next hnak => exact ⟨hsame.host, reply.rcode, reply.stored, by rw [if_pos hnak]⟩
  · next hnak =>
    split
    · next hrcode =>
      exact ⟨hsame.host, reply.rcode, reply.stored, by rw [if_neg hnak, if_pos hrcode]⟩
    · next hrcode =>
      exact ⟨hsame.host, reply.rcode, reply.stored, by rw [if_neg hnak, if_neg hrcode]⟩

/-! ## The branches of the loop -/

theorem good_of_polled {f' : Firmware P} (h : Good f k) (hhost : f'.host = f.host)
    (hflag : f'.bridge.runningdebugflag = f.bridge.runningdebugflag)
    (hdevice : f'.bridge.device = f.bridge.device) : Good f' k := by
  constructor
  · rw [hhost]
    exact h.toRestInv
  · rw [hhost, hflag]
    exact h.running_iff
  · rw [hhost, hflag, hdevice]
    exact h.device

/-- A poll keeps the flag and the device. -/
theorem pollMouse_keeps (b : Bridge) (it : Iteration) :
    (b.pollMouse it).runningdebugflag = b.runningdebugflag ∧
      (b.pollMouse it).device = b.device := by
  unfold Bridge.pollMouse
  split
  · exact ⟨rfl, rfl⟩
  · split <;> exact ⟨rfl, rfl⟩

theorem pollKeyboard_keeps (b : Bridge) (it : Iteration) :
    (b.pollKeyboard it).runningdebugflag = b.runningdebugflag ∧
    (b.pollKeyboard it).device = b.device := by
  unfold Bridge.pollKeyboard
  split
  · exact ⟨rfl, rfl⟩
  · split <;> exact ⟨rfl, rfl⟩

/-- An iteration without a poll. -/
def unpolled (taskState : Byte) (b : Bridge) : Iteration := ⟨taskState, 0#8, 0#8, b.buf, b.kbdbuf⟩

theorem iterate_error (b : Bridge) :
    b.iterate (unpolled usbStateError b) = { b with errorflag := true } := rfl

theorem iterate_other (b : Bridge) {s : Byte} (hstate : s ≠ usbStateRunning)
    (herror : s ≠ usbStateError) :
    b.iterate (unpolled s b) = { b with runningdebugflag := false, errorflag := false } := by
  simp [Bridge.iterate, unpolled, hstate, herror]

/-- The branch of a device that runs. -/
theorem wp_runningBranch (hinv : RestInv f.host k)
    (hstate : f.host.usbTaskState = usbStateRunning)
    (hdevice : f.bridge.runningdebugflag = true → f.bridge.device = (f.host.record k).devclass) :
    wp NoPointer (runningBranch io n) (fun _ f' => Good f' k ∧ f'.host = f.host ∧
      ∃ it, it.driver ∈ [0#8, hidK, hidM] ∧ f'.bridge = f.bridge.iterate it) f := by
  have hpoints : f.bridge.runningdebugflag = true → f.bridge.device ≠ 0#8 →
      f.host.Points f.host.hidDevice.addr 1#8 := by
    intro hflag hclass
    rw [hdevice hflag] at hclass
    exact points_of_class hinv.toTable hclass
  rw [runningBranch, wp_bind, wp_read]
  split
  · next hflag =>
    rw [wp_bind, wp_setBridge]
    refine wp_bind_of (wp_getDriverandReport io n hinv.toTable (hinv.running hstate)) ?_
    rintro device f₁ ⟨hreported, hsame⟩
    rw [wp_setBridge, hsame.bridge]
    have hinv' : RestInv f₁.host k := by
      rw [hsame.host]
      exact hinv
    refine ⟨⟨hinv', ?_, ?_⟩, hsame.host,
      ⟨usbStateRunning, device, 0#8, f.bridge.buf, f.bridge.kbdbuf⟩, ?_, ?_⟩
    · rw [hsame.host]
      exact iff_of_true rfl hstate
    · intro _
      rw [hsame.host]
      exact hreported
    · rw [hreported]
      exact hinv.classes k
    · simp [Bridge.iterate, hflag]
  · next hnot =>
    have hflag : f.bridge.runningdebugflag = true := by simpa using hnot
    have hgood : Good f k := ⟨hinv, iff_of_true hflag hstate, hdevice⟩
    split
    · next hkbd =>
      have hpoll := wp_keyboardBranch io n (hpoints hflag (by rw [hkbd]; decide))
      refine wp_mono hpoll ?_
      rintro _ f' ⟨hhost, rcode, stored, hbridge⟩
      have hkeeps := pollKeyboard_keeps f.bridge
        ⟨usbStateRunning, 0#8, rcode, f.bridge.buf, storeKbd f.bridge.kbdbuf stored⟩
      rw [← hbridge] at hkeeps
      exact ⟨good_of_polled hgood hhost hkeeps.1 hkeeps.2, hhost, _, List.mem_cons_self,
        hbridge.trans (iterate_polls_keyboard ⟨rfl, hflag, hkbd⟩).symm⟩
    split
    · next hmouse =>
      have hpoll := wp_mouseBranch io n (hpoints hflag (by rw [hmouse]; decide))
      refine wp_mono hpoll ?_
      rintro _ f' ⟨hhost, rcode, stored, hbridge⟩
      have hkeeps := pollMouse_keeps f.bridge
        ⟨usbStateRunning, 0#8, rcode, storeMouse f.bridge.buf stored, f.bridge.kbdbuf⟩
      rw [← hbridge] at hkeeps
      exact ⟨good_of_polled hgood hhost hkeeps.1 hkeeps.2, hhost, _, List.mem_cons_self,
        hbridge.trans (iterate_polls_mouse ⟨rfl, hflag, hmouse⟩).symm⟩
    · next hkbd hmouse =>
      refine ⟨hgood, rfl, unpolled usbStateRunning f.bridge, List.mem_cons_self, ?_⟩
      simp [Bridge.iterate, unpolled, hflag, hkbd, hmouse]

/-- `USB_init` after the bus is probed: the table is empty, and the state needs no device. -/
theorem restInv_init {h : Host} {t : Byte} (ht : BusProbed h.usbTaskState t)
    (htmp : h.tmpAddr.toNat ≤ 7) :
    RestInv (h.enter t).cleared 0 ∧ (h.enter t).cleared.usbTaskState ≠ usbStateRunning := by
  have hmask : t &&& usbStateMask = usbStateDetached ∨ t &&& usbStateMask = usbStateAttached := by
    obtain ⟨hmem, -⟩ | ⟨hresetting, hsame⟩ := busProbed_cases ht
    · exact mask_of_probed hmem
    · rw [hsame, hresetting]
      decide
  refine ⟨restInv_enter (h := h.cleared) (table_cleared h) htmp hmask, ?_⟩
  rintro (rfl : t = usbStateRunning)
  exact absurd hmask (by decide)

theorem wp_initialise :
    wp NoPointer (max3421eInit io n) (fun _ f₁ => wp NoPointer usbInit (fun _ f' =>
      ∃ t, BusProbed f.host.usbTaskState t ∧ f'.host = (f.host.enter t).cleared ∧
        f'.bridge = f.bridge) f₁) f := by
  refine wp_mono (wp_max3421eInit io n) fun _ f₁ ⟨t, ht, hhost, hbridge⟩ => ?_
  refine wp_usbInit fun f' hhost' hsame => ⟨t, ht, ?_, hsame.trans hbridge⟩
  rw [hhost', hhost]
  rfl

/-- A device that does not run is not polled. -/
theorem good_of_idle {f : Firmware P} (hinv : RestInv f.host k)
    (hstate : f.host.usbTaskState ≠ usbStateRunning) (hflag : f.bridge.runningdebugflag = false) :
    Good f k where
  toRestInv := hinv
  running_iff := iff_of_false (by rw [hflag]; exact Bool.false_ne_true) hstate
  device htrue := absurd (hflag.symm.trans htrue) Bool.false_ne_true

/-- The branch of a device that does not run. -/
theorem wp_idleBranch (hinv : RestInv f.host k) (hstate : f.host.usbTaskState ≠ usbStateRunning)
    (herror : f.host.usbTaskState ≠ usbStateError) :
    wp NoPointer (idleBranch io n) (fun _ f' => (∃ k', Good f' k') ∧
      (f'.host = f.host ∨ f.bridge.runningdebugflag = true ∧
        ∃ t, BusProbed f.host.usbTaskState t ∧ f'.host = (f.host.enter t).cleared) ∧
      f'.bridge = f.bridge.iterate (unpolled f.host.usbTaskState f.bridge)) f := by
  have hiterate := iterate_other f.bridge hstate herror
  rw [idleBranch, wp_bind, wp_read, wp_bind, wp_whenever]
  constructor
  · intro hflag
    rw [wp_bind, wp_setBridge, wp_bind]
    refine wp_mono (wp_initialise io n) fun _ f₁ h₁ => wp_mono h₁ ?_
    rintro _ f₂ ⟨t, ht, hhost, hbridge⟩
    obtain ⟨hinv₂, hstate₂⟩ := restInv_init ht hinv.tmpAddr
    rw [← hhost] at hinv₂ hstate₂
    rw [wp_setBridge, hbridge]
    exact ⟨⟨0, good_of_idle hinv₂ hstate₂ rfl⟩, .inr ⟨hflag, t, ht, hhost⟩, hiterate.symm⟩
  · intro hnot
    have hflag : f.bridge.runningdebugflag = false := by simpa using hnot
    rw [wp_setBridge]
    refine ⟨⟨k, good_of_idle hinv hstate hflag⟩, .inl rfl, ?_⟩
    rw [hiterate, ← hflag]

/-! ## The loop -/

theorem table_unique {h : Host} {k k' : Nat} (ht : Table h k) (ht' : Table h k') : k = k' :=
  Nat.le_antisymm ((ht'.taken k).mp ((ht.taken k).mpr le_rfl))
    ((ht.taken k').mp ((ht'.taken k').mpr le_rfl))

/-- The states that the handler leads to from `USB_STATE_RUNNING`. -/
theorem interrupted_running {pending : Option Byte} {s : Byte}
    (h : Interrupted pending usbStateRunning s) :
    s ∈ usbStateRunning :: 0x41#8 :: probedStates := by
  obtain rfl | rfl | hprobed := interrupted_cases h
  · exact List.mem_cons_self
  · exact .tail _ (.head _)
  · exact .tail _ (.tail _ hprobed)

/-- A device that runs stays as it is, or the iteration is neither one of a device that runs
nor one of an error, and no reset is waited for. -/
theorem running_step {h h' : Host} (hstep : TaskStep h h')
    (hmem : h.usbTaskState ∈ usbStateRunning :: 0x41#8 :: probedStates) :
    h' = h ∨
      h'.usbTaskState ∉ [usbStateRunning, usbStateError, usbAttachedWaitResetComplete] := by
  have hfacts : ∀ s ∈ usbStateRunning :: 0x41#8 :: probedStates,
      s ≠ usbAttachedResetDevice ∧ s ≠ usbAttachedGetDeviceDescriptorSize ∧
        s &&& usbStateMask ≠ usbStateAddressing ∧ s &&& usbStateMask ≠ usbStateConfiguring := by
    decide
  obtain ⟨hreset, hsize, haddressing, hconfiguring⟩ := hfacts _ hmem
  cases hstep with
  | idle => exact .inl rfl
  | initialized => exact .inr (show usbDetachedWaitForDevice ∉ _ by decide)
  | settling => exact .inr (show usbAttachedSettle ∉ _ by decide)
  | settled => exact .inr (show usbAttachedResetDevice ∉ _ by decide)
  | reset hstate => exact absurd hstate hreset
  | resetComplete => exact .inr (show usbAttachedWaitSof ∉ _ by decide)
  | started => exact .inr (show usbAttachedGetDeviceDescriptorSize ∉ _ by decide)
  | described hstate => exact absurd hstate hsize
  | undescribed _ hstate => exact absurd hstate hsize
  | addressed hmask => exact absurd hmask haddressing
  | refused _ hmask => exact absurd hmask haddressing
  | exhausted hstate => exact absurd (by rw [hstate]; decide) haddressing
  | unaddressed hmask => exact absurd hmask haddressing
  | configured hmask => exact absurd hmask hconfiguring
  | unconfigured hstate => exact absurd (by rw [hstate]; decide) hconfiguring
  | abandoned hmask => exact absurd hmask hconfiguring

/-- What an iteration does to the variables of the host software. A device that no longer
runs makes the firmware initialise the host again. -/
inductive HostStep (pending : Option Byte) (h : Host) : Host → Prop
  | task {s : Byte} {h' : Host} : Interrupted pending h.usbTaskState s →
      TaskStep (h.enter s) h' → HostStep pending h h'
  | initialised {s t : Byte} {h' : Host} : h.usbTaskState = usbStateRunning →
      Interrupted pending h.usbTaskState s → TaskStep (h.enter s) h' →
      h'.usbTaskState ≠ usbStateRunning → BusProbed h'.usbTaskState t →
      HostStep pending h (h'.enter t).cleared

/-- One iteration: the invariant is kept, and the loop of the bridge makes the same step. -/
theorem wp_mainIteration (h : Good f k) :
    wp NoPointer (mainIteration io n) (fun _ f' => (∃ k', Good f' k') ∧
      HostStep (io.pending f.chip) f.host f'.host ∧
      ∃ it, it.driver ∈ [0#8, hidK, hidM] ∧ f'.bridge = f.bridge.iterate it) f := by
  refine wp_bind_of (wp_max3421eTask io) fun _ f₁ ⟨s, hs, hhost₁, hbridge₁⟩ => ?_
  have hinv₁ : HostInv f₁.host k := by
    rw [hhost₁]
    exact hostInv_interrupted h.toRestInv hs
  refine wp_bind_of (wp_usbTask io n (placed_of_inv hinv₁)) fun _ f₂ ⟨hstep, hbridge₂⟩ => ?_
  have hbridge := hbridge₂.trans hbridge₁
  obtain ⟨k', hinv₂⟩ := restInv_taskStep hinv₁ hstep
  have hmem : f₂.bridge.runningdebugflag = true →
      f₁.host.usbTaskState ∈ usbStateRunning :: 0x41#8 :: probedStates := by
    intro hflag
    rw [hbridge] at hflag
    rw [h.running_iff.mp hflag] at hs
    rw [hhost₁]
    exact interrupted_running hs
  have htask : HostStep (io.pending f.chip) f.host f₂.host := by
    rw [hhost₁] at hstep
    exact .task hs hstep
  rw [wp_bind, wp_read]
  split
  · next hstate =>
    have hdevice : f₂.bridge.runningdebugflag = true →
        f₂.bridge.device = (f₂.host.record k').devclass := by
      intro hflag
      obtain hsame | hother := running_step hstep (hmem hflag)
      · rw [hsame] at hinv₂ ⊢
        obtain rfl := table_unique hinv₂.toTable hinv₁.toTable
        rw [hbridge] at hflag ⊢
        rw [h.device hflag, hhost₁]
        rfl
      · exact absurd (hstate ▸ List.mem_cons_self) hother
    refine wp_mono (wp_runningBranch io n hinv₂ hstate hdevice) ?_
    rintro _ f' ⟨hgood, hhost, it, hdriver, hit⟩
    rw [hhost]
    exact ⟨⟨k', hgood⟩, htask, it, hdriver, by rw [hit, hbridge]⟩
  · next hstate =>
    split
    · next herror =>
      have hflag : f₂.bridge.runningdebugflag = false := by
        by_contra hnot
        have hmem := hmem (by simpa using hnot)
        obtain hsame | hother := running_step hstep hmem
        · rw [← hsame, herror] at hmem
          exact absurd hmem (by decide)
        · exact hother (.tail _ (herror ▸ List.mem_cons_self))
      rw [wp_setBridge]
      refine ⟨⟨k', good_of_idle hinv₂ hstate hflag⟩, htask,
        unpolled usbStateError f.bridge, List.mem_cons_self, ?_⟩
      rw [iterate_error, hbridge]
    · next herror =>
      refine wp_mono (wp_idleBranch io n hinv₂ hstate herror) ?_
      rintro _ f' ⟨hgood, hhost, hit⟩
      refine ⟨hgood, ?_, unpolled f₂.host.usbTaskState f.bridge, List.mem_cons_self,
        by rw [hit, hbridge]⟩
      obtain hhost | ⟨hflag, t, ht, hhost⟩ := hhost
      · rw [hhost]
        exact htask
      · rw [hbridge] at hflag
        rw [hhost₁] at hstep
        rw [hhost]
        exact .initialised (h.running_iff.mp hflag) hs hstep hstate ht

theorem good_start {device : Byte} {buf : BootMouseReport} {kbdbuf : BootKbdReport} {t : Byte}
    (ht : BusProbed Host.start.usbTaskState t) (hhost : f.host = (Host.start.enter t).cleared)
    (hbridge : f.bridge = Bridge.start device buf kbdbuf) : Good f 0 := by
  obtain ⟨hinv, hstate⟩ := restInv_init ht (Nat.zero_le 7)
  rw [← hhost] at hinv hstate
  exact good_of_idle hinv hstate (by rw [hbridge]; rfl)

/-- What holds of `main` after `m` iterations. -/
theorem wp_main (device : Byte) (buf : BootMouseReport) (kbdbuf : BootKbdReport) (p : P) (m : Nat) :
    wp NoPointer (main io n m) (fun _ f' => (∃ k, Good f' k) ∧
      ∃ its : List Iteration, its.length = m ∧ (∀ it ∈ its, it.driver ∈ [0#8, hidK, hidM]) ∧
        f'.bridge = its.foldl Bridge.iterate (Bridge.start device buf kbdbuf))
      (Firmware.start device buf kbdbuf p) := by
  refine wp_bind_of (wp_initialise io n) fun _ f₁ h₁ => wp_bind_of h₁ ?_
  rintro _ f₂ ⟨t, ht, hhost, hbridge⟩
  refine wp_repeated (I := fun m f' => (∃ k, Good f' k) ∧ ∃ its : List Iteration,
    its.length = m ∧ (∀ it ∈ its, it.driver ∈ [0#8, hidK, hidM]) ∧
      f'.bridge = its.foldl Bridge.iterate (Bridge.start device buf kbdbuf)) ?_
    ⟨⟨0, good_start ht hhost hbridge⟩, [], rfl, nofun, hbridge⟩ m
  rintro m f ⟨⟨k, hgood⟩, its, hlength, hdrivers, hits⟩
  refine wp_mono (wp_mainIteration io n hgood) fun _ f' ⟨hgood', _, it, hdriver, hit⟩ => ?_
  refine ⟨hgood', its ++ [it], by rw [List.length_append, hlength, List.length_singleton], ?_, ?_⟩
  · exact List.forall_mem_append.mpr ⟨hdrivers, List.forall_mem_singleton.mpr hdriver⟩
  · rw [List.foldl_append, ← hits, hit]
    rfl

end Main

end SocChess.Usb
