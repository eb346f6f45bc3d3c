import SocChess.UsbTask

/-!
# What each part of the host software may touch

One rule for each function, from the registers up to the task: it stops for no stray
pointer, and it leaves alone everything but what the rule names. Transfers leave the
variables of the task alone; a probe writes the record of its device and `hid_device`.
-/

namespace SocChess.Usb

open Program

/-- The stops other than a stray pointer. -/
def NoPointer (e : Stop) : Prop := e ≠ .pointer

theorem unfinished_noPointer : NoPointer .unfinished := nofun

theorem overrun_noPointer : NoPointer .overrun := nofun

/-- `x` follows no stray pointer, whatever the state. -/
def Safe {σ α : Type} (x : Prog Stop σ α) : Prop := ∀ s, wp NoPointer x (fun _ _ => True) s

section Rules

variable {σ α β γ ρ : Type} {x : Prog Stop σ α} {f : α → Prog Stop σ β}

theorem Safe.bind (hx : Safe x) (hf : ∀ a, Safe (f a)) : Safe (x >>= f) := by
  intro s
  rw [wp_bind]
  exact wp_mono (hx s) fun a s' _ => hf a s'

theorem Safe.pure (a : α) : Safe (pure a : Prog Stop σ α) := fun _ => trivial

theorem Safe.act (g : σ → α × σ) : Safe (act g : Prog Stop σ α) := fun _ => trivial

theorem Safe.update (g : σ → σ) : Safe (update g : Prog Stop σ Unit) := fun _ => trivial

theorem Safe.ite {c : Prop} [Decidable c] {y : Prog Stop σ α} (hx : Safe x) (hy : Safe y) :
    Safe (if c then x else y) := by
  split
  · exact hx
  · exact hy

theorem Safe.loop {body : ρ → Prog Stop σ (Outcome ρ β)} (hbody : ∀ r, Safe (body r)) (n : Nat)
    (r : ρ) : Safe (loop .unfinished body n r) := by
  intro s
  refine wp_loop (I := fun _ _ => True) unfinished_noPointer (fun r s _ => ?_) trivial
  refine wp_mono (hbody r s) fun outcome s' _ => ?_
  cases outcome <;> trivial

theorem Safe.judged {judge : ρ → α → Outcome ρ β} {final : β → Prog Stop σ γ} (hx : Safe x)
    (hfinal : ∀ b, Safe (final b)) (r : ρ) : Safe (judged x judge final r) := by
  refine hx.bind fun a => ?_
  cases judge r a with
  | again r' => exact .pure _
  | done b => exact (hfinal b).bind fun c => .pure _

end Rules

/-! ## The chip -/

section Chip

variable {P : Type} (io : Platform P) (n : Nat)

theorem safe_awaitTransfer (timeout : Word) : Safe (awaitTransfer io n timeout) :=
  .loop (fun _ => (Safe.act _).bind fun _ => .ite ((Safe.act _).bind fun _ =>
    .ite ((Safe.update _).bind fun _ => .pure _) (.pure _)) (.pure _)) n ()

theorem safe_attempt (timeout : Word) (token ep : Byte) : Safe (attempt io n timeout token ep) :=
  (Safe.update _).bind fun _ => (safe_awaitTransfer io n timeout).bind fun _ =>
    .ite ((Safe.act _).bind fun _ => .pure _) (.pure _)

theorem safe_dispatch (token ep : Byte) : Safe (xferDispatchPkt io n token ep) :=
  (Safe.act _).bind fun _ => .loop (Safe.judged (safe_attempt io n _ token ep) fun _ => .pure _) n _

theorem safe_receivePacket (ep : Byte) : Safe (receivePacket io n ep) :=
  (safe_dispatch io n tokIN ep).bind fun _ => .ite (.pure _) ((Safe.act _).bind fun _ =>
    .ite (.pure _) ((Safe.act _).bind fun _ => (Safe.act _).bind fun _ =>
      (Safe.update _).bind fun _ => .pure _))

theorem safe_saveToggle (r : Byte × List Byte) : Safe (saveToggle io r) :=
  .ite ((Safe.act _).bind fun _ => .pure _) (.pure _)

theorem safe_inTransfer (rcvToggle ep : Byte) (nbytes : BitVec 16) (maxpktsize : Byte) :
    Safe (inTransfer io n rcvToggle ep nbytes maxpktsize) :=
  (Safe.update _).bind fun _ =>
    .loop (Safe.judged (safe_receivePacket io n ep) (safe_saveToggle io)) n _

theorem safe_max3421eReset : Safe (max3421eReset io n) :=
  (Safe.update _).bind fun _ => (Safe.act _).bind fun _ => (Safe.update _).bind fun _ =>
    (Safe.update _).bind fun _ => .loop (fun _ => (Safe.act _).bind fun _ =>
      .ite (.pure _) (.pure _)) n ()

theorem safe_awaitTick : Safe (awaitTick io n) :=
  (Safe.act _).bind fun _ =>
    .loop (fun _ => (Safe.act _).bind fun _ => .ite (.pure _) (.pure _)) n ()

theorem safe_vbusPower (action : Bool) : Safe (vbusPower io action) :=
  (Safe.act _).bind fun _ => .update _

theorem safe_powerUp : Safe (powerUp io n) :=
  (Safe.update _).bind fun _ => (Safe.update _).bind fun _ =>
    (safe_max3421eReset io n).bind fun _ => (Safe.update _).bind fun _ =>
    (safe_awaitTick io n).bind fun _ => (safe_awaitTick io n).bind fun _ =>
    (safe_awaitTick io n).bind fun _ => (safe_vbusPower io false).bind fun _ =>
    (safe_vbusPower io true).bind fun _ => (Safe.update _).bind fun _ =>
    (Safe.update _).bind fun _ => .update _

end Chip

/-! ## The device table -/

section Table

variable {P : Type} {f : Firmware P}

theorem record_setRecord (h : Host) {addr : Nat} (haddr : addr < 9) (g : DevRecord → DevRecord)
    (i : Nat) :
    (h.setRecord addr g).record i = if i = addr then g (h.record addr) else h.record i := by
  unfold Host.setRecord Host.record
  dsimp only
  rw [Vector.getElem?_setIfInBounds]
  by_cases hi : addr = i
  · subst hi
    simp [haddr]
  · simp [hi, Ne.symm hi]

/-- A pointer has the endpoint: `epinfo[ep]` is in its array. -/
def EpInfo.has : EpInfo → Byte → Prop
  | .dev0ep, ep => ep = 0#8
  | .hidEp, ep => ep = 0#8 ∨ ep = 1#8

/-- `devtable[addr].epinfo[ep]` is an endpoint record. -/
def Host.Points (h : Host) (addr ep : Byte) : Prop :=
  ∃ info, h.epinfo addr.toNat = some info ∧ info.has ep

theorem points_zero {h : Host} {addr : Byte} (hinfo : (h.epinfo addr.toNat).isSome) :
    h.Points addr 0#8 := by
  obtain ⟨info, hinfo⟩ := Option.isSome_iff_exists.mp hinfo
  refine ⟨info, hinfo, ?_⟩
  cases info with
  | dev0ep => rfl
  | hidEp => exact .inl rfl

theorem endpoint?_isSome {addr ep : Byte} (h : f.host.Points addr ep) :
    (f.endpoint? addr ep).isSome := by
  obtain ⟨info, hinfo, hhas⟩ := h
  rw [Firmware.endpoint?, hinfo, Option.bind_some]
  cases info with
  | dev0ep =>
    obtain rfl : ep = 0#8 := hhas
    rfl
  | hidEp =>
    obtain rfl | rfl : ep = 0#8 ∨ ep = 1#8 := hhas
    · rfl
    · rfl

theorem wp_deref_isSome {α : Type} {E : Stop → Prop} {g : Firmware P → Option α}
    {Q : α → Firmware P → Prop} (h : (g f).isSome) (hQ : ∀ a, g f = some a → Q a f) :
    wp E (deref g) Q f :=
  wp_deref.mpr ⟨hQ, fun hnone => by rw [hnone] at h; cases h⟩

/-- The variables outside the endpoint records and the chip are the same. -/
structure SameHost (f f' : Firmware P) : Prop where
  host : f'.host = f.host
  bridge : f'.bridge = f.bridge

theorem SameHost.refl (f : Firmware P) : SameHost f f := ⟨rfl, rfl⟩

theorem SameHost.trans {f f₁ f₂ : Firmware P} (h : SameHost f f₁) (h' : SameHost f₁ f₂) :
    SameHost f f₂ :=
  ⟨h'.host.trans h.host, h'.bridge.trans h.bridge⟩

theorem wp_chip_safe {α : Type} {x : Prog Stop P α} (hx : Safe x) :
    wp NoPointer (onChip x) (fun _ f' => SameHost f f') f :=
  wp_onChip.mpr (wp_mono (hx f.chip) fun _ _ _ => ⟨rfl, rfl⟩)

theorem wp_endpoint {addr ep : Byte} (h : f.host.Points addr ep) :
    wp NoPointer (endpoint addr ep) (fun _ f' => f' = f) f :=
  wp_deref_isSome (endpoint?_isSome h) fun _ _ => rfl

theorem wp_setEndpoint {addr ep : Byte} (h : f.host.Points addr ep) (g : EpRecord → EpRecord) :
    wp NoPointer (setEndpoint addr ep g) (fun _ f' => SameHost f f') f := by
  have hinfo : (f.host.epinfo addr.toNat).isSome := by
    obtain ⟨info, hinfo, -⟩ := h
    rw [hinfo]
    rfl
  refine wp_bind_read (wp_endpoint h) fun _ => ?_
  exact (wp_bind _ _).mpr (wp_deref_isSome hinfo fun _ _ => ⟨rfl, rfl⟩)

theorem wp_setRecord {addr : Byte} (haddr : addr.toNat < 9) (g : DevRecord → DevRecord) :
    wp NoPointer (setRecord addr g) (fun _ f' =>
      f' = { f with host := f.host.setRecord addr.toNat g }) f := by
  rw [setRecord, wp_bind]
  refine wp_deref_isSome ?_ fun _ _ => rfl
  rw [Vector.getElem?_eq_getElem haddr]
  rfl

theorem wp_storeIn {size : Nat} (buf : Vector Byte size) (stored : List Byte) :
    wp NoPointer (storeIn buf stored) (fun _ f' => f' = f) f := by
  unfold storeIn
  split
  · exact rfl
  · exact overrun_noPointer

theorem wp_storeBigbuf (stored : List Byte) :
    wp NoPointer (storeBigbuf stored) (fun _ f' => SameHost f f') f := by
  rw [storeBigbuf, wp_bind, wp_read]
  exact wp_bind_read (wp_storeIn _ _) fun _ => ⟨rfl, rfl⟩

theorem wp_bigbufAt (i : Nat) : wp NoPointer (bigbufAt i) (fun _ f' => f' = f) f := by
  rw [bigbufAt, wp_bind, wp_read]
  cases f.bigbuf[i]? with
  | some b => exact rfl
  | none => exact overrun_noPointer

theorem wp_bigbufWord (i : Nat) : wp NoPointer (bigbufWord i) (fun _ f' => f' = f) f :=
  wp_bind_read (wp_bigbufAt i) fun _ => wp_bind_read (wp_bigbufAt (i + 1)) fun _ => rfl

/-- Two parts that keep the variables. -/
theorem wp_same_bind {α β : Type} {x : Code P α} {g : α → Code P β}
    (hx : wp NoPointer x (fun _ f' => SameHost f f') f)
    (hg : ∀ a f₁, SameHost f f₁ → wp NoPointer (g a) (fun _ f' => SameHost f₁ f') f₁) :
    wp NoPointer (x >>= g) (fun _ f' => SameHost f f') f :=
  wp_bind_of hx fun a f₁ h₁ => wp_mono (hg a f₁ h₁) fun _ _ h₂ => h₁.trans h₂

theorem wp_same_pure {α : Type} (a : α) :
    wp NoPointer (pure a : Code P α) (fun _ f' => SameHost f f') f :=
  .refl f

end Table

/-! ## Control transfers -/

section Control

variable {P : Type} (io : Platform P) (n : Nat) {f : Firmware P} {addr ep : Byte}

theorem points_of_same {f₁ : Firmware P} (h : f.host.Points addr ep) (hsame : SameHost f f₁) :
    f₁.host.Points addr ep := by
  rw [hsame.host]
  exact h

theorem wp_xferInTransfer (h : f.host.Points addr ep) (nbytes : BitVec 16) (maxpktsize : Byte) :
    wp NoPointer (xferInTransfer io n addr ep nbytes maxpktsize) (fun _ f' => SameHost f f') f := by
  refine wp_bind_read (wp_endpoint h) fun record => ?_
  refine wp_same_bind (wp_chip_safe (safe_inTransfer io n _ ep nbytes maxpktsize)) ?_
  intro result f₁ h₁
  cases result.rcvToggle with
  | some toggle =>
    exact wp_same_bind (wp_setEndpoint (points_of_same h h₁) _) fun _ _ _ => wp_same_pure _
  | none => exact wp_same_pure _

theorem wp_xferCtrlData (h : f.host.Points addr ep) (nbytes : BitVec 16) (direction : Bool) :
    wp NoPointer (xferCtrlData io n addr ep nbytes direction) (fun _ f' => SameHost f f') f := by
  unfold xferCtrlData
  split
  · refine wp_same_bind (wp_setEndpoint h _) fun _ f₁ h₁ => ?_
    have h := points_of_same h h₁
    refine wp_bind_read (wp_endpoint h) fun record => ?_
    refine wp_same_bind (wp_xferInTransfer io n h _ _) fun reply f₂ h₂ => ?_
    split
    · exact wp_same_pure _
    · exact wp_same_bind (wp_chip_safe (safe_dispatch io n _ _)) fun _ _ _ => wp_same_pure _
  · exact wp_same_pure _

theorem wp_xferCtrlReq (h : f.host.Points addr ep) (pkt : SetupPkt) (datastage : Bool) :
    wp NoPointer (xferCtrlReq io n addr ep pkt datastage) (fun _ f' => SameHost f f') f := by
  refine wp_same_bind (wp_chip_safe (.update _)) fun _ f₁ h₁ => ?_
  refine wp_same_bind (wp_chip_safe (.update _)) fun _ f₂ h₂ => ?_
  refine wp_same_bind (wp_chip_safe (safe_dispatch io n _ _)) fun rcode f₃ h₃ => ?_
  have h := points_of_same (points_of_same (points_of_same h h₁) h₂) h₃
  dsimp only
  split
  · exact wp_same_pure _
  · split
    · exact wp_xferCtrlData io n h _ _
    · exact wp_same_bind (wp_chip_safe (safe_dispatch io n _ _)) fun _ _ _ => wp_same_pure _

end Control

/-! ## The probes -/

section Probes

variable {P : Type} (io : Platform P) (n : Nat) {f : Firmware P} {addr : Byte}

theorem wp_fetchConfiguration (h : f.host.Points addr 0#8) :
    wp NoPointer (fetchConfiguration io n addr) (fun _ f' => SameHost f f') f := by
  refine wp_same_bind (wp_xferCtrlReq io n h _ _) fun reply f₁ h₁ => ?_
  refine wp_same_bind (wp_storeBigbuf _) fun _ f₂ h₂ => ?_
  have h := points_of_same (points_of_same h h₁) h₂
  split
  · exact wp_same_pure _
  · refine wp_bind_read (wp_bigbufWord 2) fun wTotalLength => ?_
    refine wp_same_bind (wp_xferCtrlReq io n h _ _) fun reply f₃ h₃ => ?_
    refine wp_same_bind (wp_storeBigbuf _) fun _ f₄ h₄ => ?_
    split
    · exact wp_same_pure _
    · exact wp_same_pure _

theorem wp_skipTo (totalLength : Nat) (type : Byte) (ptr : Nat) :
    wp NoPointer (skipTo n totalLength type ptr) (fun _ f' => f' = f) f := by
  refine wp_loop (I := fun _ f' => f' = f) unfinished_noPointer ?_ rfl
  rintro ptr _ rfl
  split
  · refine wp_bind_read (wp_bigbufAt _) fun bDescriptorType => ?_
    split
    · exact wp_bind_read (wp_bigbufAt _) fun _ => rfl
    · exact rfl
  · exact rfl

theorem wp_configureDevice (h : f.host.Points addr 0#8) (confvalue : Byte) :
    wp NoPointer (configureDevice io n addr confvalue) (fun _ f' => SameHost f f') f := by
  refine wp_same_bind (wp_xferCtrlReq io n h _ _) fun reply f₁ h₁ => ?_
  split
  · exact wp_same_pure _
  · refine (wp_bind _ _).mpr ((wp_read _).mpr ?_)
    refine wp_same_bind (wp_xferCtrlReq io n (points_of_same h h₁) _ _) fun reply f₂ h₂ => ?_
    split
    · exact wp_same_pure _
    · exact wp_same_pure _

/-- The host variables after a device of a class is detected at an address. -/
def Host.detect (h : Host) (addr devclass interface : Byte) : Host :=
  { h.setRecord addr.toNat fun _ => ⟨some .hidEp, devclass⟩ with hidDevice := ⟨addr, interface⟩ }

theorem setRecord_setRecord (h : Host) {a : Nat} (ha : a < 9) (g g' : DevRecord → DevRecord) :
    (h.setRecord a g).setRecord a g' = h.setRecord a fun r => g' (g r) := by
  have hrecord : (h.setRecord a g).record a = g (h.record a) := by
    rw [record_setRecord h ha, if_pos rfl]
  rw [Host.setRecord, hrecord, Host.setRecord, Host.setRecord]
  dsimp only
  rw [Vector.setIfInBounds_setIfInBounds]

theorem detect_detect (h : Host) {addr : Byte} (haddr : addr.toNat < 9) (c c' i i' : Byte) :
    (h.detect addr c i).detect addr c' i' = h.detect addr c' i' := by
  have hset := setRecord_setRecord h haddr (fun _ => ⟨some .hidEp, c⟩)
    (fun _ => ⟨some .hidEp, c'⟩)
  unfold Host.detect
  rw [← hset]
  rfl

theorem points_detect (h : Host) (haddr : addr.toNat < 9) (c i : Byte) {ep : Byte}
    (hep : ep = 0#8 ∨ ep = 1#8) : (h.detect addr c i).Points addr ep := by
  refine ⟨.hidEp, ?_, hep⟩
  have hrecord := record_setRecord h haddr (fun _ => ⟨some .hidEp, c⟩) addr.toNat
  rw [if_pos rfl] at hrecord
  exact congrArg DevRecord.epinfo hrecord

theorem wp_detectDevice (haddr : addr.toNat < 9) (h : f.host.Points addr 0#8) (devclass : Byte) :
    wp NoPointer (detectDevice devclass addr) (fun _ f' =>
      f'.host = f.host.setRecord addr.toNat (fun _ => ⟨some .hidEp, devclass⟩) ∧
      f'.bridge = f.bridge) f := by
  have hsome : (f.host.epinfo addr.toNat).isSome := by
    obtain ⟨info, hinfo, -⟩ := h
    rw [hinfo]
    rfl
  refine wp_bind_of (wp_setRecord haddr _) ?_
  rintro _ f₁ rfl
  have hclass := record_setRecord f.host haddr (fun r => { r with devclass := devclass }) addr.toNat
  rw [if_pos rfl] at hclass
  refine wp_bind_read (wp_endpoint (points_zero ?_)) fun record => ?_
  · rw [Host.epinfo, hclass]
    exact hsome
  refine (wp_bind _ _).mpr ((wp_update _ _).mpr ?_)
  refine wp_bind_of (wp_setRecord haddr _) ?_
  rintro _ f₂ rfl
  rw [setRecord_setRecord _ haddr]
  refine wp_mono (wp_setEndpoint (points_zero ?_) _) fun _ f' h' => ⟨h'.host, h'.bridge⟩
  rw [Host.epinfo, record_setRecord _ haddr, if_pos rfl]
  rfl

theorem wp_parseEndpoint (h₀ : f.host.Points addr 0#8) (h₁ : f.host.Points addr 1#8)
    (confvalue : Byte) (totalLength ptr : Nat) :
    wp NoPointer (parseEndpoint io n addr confvalue totalLength ptr)
      (fun _ f' => SameHost f f') f := by
  refine wp_bind_read (wp_bigbufAt _) fun bLength => ?_
  refine wp_bind_read (wp_skipTo n _ _ _) fun found => ?_
  cases found with
  | none => exact wp_same_pure _
  | some ptr =>
    refine wp_bind_read (wp_bigbufAt _) fun epAddr => ?_
    refine wp_bind_read (wp_bigbufAt _) fun attr => ?_
    refine wp_bind_read (wp_bigbufWord _) fun maxPktSize => ?_
    refine wp_bind_read (wp_bigbufAt _) fun interval => ?_
    exact wp_same_bind (wp_setEndpoint h₁ _) fun _ f₁ hsame =>
      wp_configureDevice io n (points_of_same h₀ hsame) confvalue

theorem wp_setHidDevice (interface : Byte) :
    wp NoPointer (setHidDevice addr interface) (fun _ f' =>
      f'.host = { f.host with hidDevice := ⟨addr, interface⟩ } ∧ f'.bridge = f.bridge) f :=
  ⟨rfl, rfl⟩

/-- A probe leaves the variables alone and fails, or detects a device of its class. -/
def Probed (addr devclass : Byte) (f : Firmware P) (found : Bool) (f' : Firmware P) : Prop :=
  ((found = false ∧ f'.host = f.host) ∨ ∃ i, f'.host = f.host.detect addr devclass i) ∧
    f'.bridge = f.bridge

theorem wp_parseConfiguration (haddr : addr.toNat < 9) (h : f.host.Points addr 0#8)
    (protocol devclass : Byte) (totalLength : Nat) :
    wp NoPointer (parseConfiguration io n protocol devclass addr totalLength)
      (Probed addr devclass f) f := by
  have hsame : Probed addr devclass f false f := ⟨.inl ⟨rfl, rfl⟩, rfl⟩
  refine wp_bind_read (wp_bigbufAt 5) fun confvalue => ?_
  refine wp_bind_read (wp_skipTo n totalLength usbDescriptorInterface 0) fun ptr => ?_
  cases ptr with
  | none => exact hsame
  | some ptr =>
    refine wp_bind_read (wp_bigbufAt (ptr + 5)) fun bInterfaceClass => ?_
    refine wp_bind_read (wp_bigbufAt (ptr + 6)) fun bInterfaceSubClass => ?_
    refine wp_bind_read (wp_bigbufAt (ptr + 7)) fun bInterfaceProtocol => ?_
    split
    · refine wp_bind_of (wp_detectDevice haddr h devclass) fun _ f₁ h₁ => ?_
      refine wp_bind_read (wp_bigbufAt (ptr + 2)) fun interface => ?_
      refine wp_bind_of (wp_setHidDevice interface) fun _ f₂ h₂ => ?_
      have hdetect : f₂.host = f.host.detect addr devclass interface := by
        rw [h₂.1, h₁.1]
        rfl
      have hpoints : ∀ ep : Byte, ep = 0#8 ∨ ep = 1#8 → f₂.host.Points addr ep := by
        intro ep hep
        rw [hdetect]
        exact points_detect f.host haddr devclass interface hep
      refine wp_mono (wp_parseEndpoint io n (hpoints _ (.inl rfl)) (hpoints _ (.inr rfl))
        confvalue totalLength ptr) fun found f' h₃ => ?_
      exact ⟨.inr ⟨interface, h₃.host.trans hdetect⟩,
        h₃.bridge.trans (h₂.2.trans h₁.2)⟩
    · exact hsame

theorem wp_hidProbe (haddr : addr.toNat < 9) (h : f.host.Points addr 0#8)
    (protocol devclass : Byte) :
    wp NoPointer (hidProbe io n protocol devclass addr) (Probed addr devclass f) f := by
  refine wp_bind_of (wp_fetchConfiguration io n h) fun total f₁ hsame => ?_
  cases total with
  | none => exact ⟨.inl ⟨rfl, hsame.host⟩, hsame.bridge⟩
  | some totalLength =>
    refine wp_mono (wp_parseConfiguration io n haddr (points_of_same h hsame) protocol devclass
      totalLength.toNat) fun found f' hprobed => ?_
    rw [Probed, hsame.host, hsame.bridge] at hprobed
    exact hprobed

end Probes

end SocChess.Usb
