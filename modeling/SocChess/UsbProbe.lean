import SocChess.UsbHost

/-!
# The HID probes

`HIDMProbe` and `HIDKProbe` differ in a protocol number and a class number. Both read
the configuration of a device into `bigbuf` and walk over its descriptors: to the first
interface, and from there to the first endpoint. A step of the walk adds the length
that the descriptor gives.

* `probe_parses`: on a buffer that holds a list of descriptors, the walk is a search in
  the list.
* `skipTo_stuck_iff`: on any buffer, the walk ends, unless it comes to a descriptor of
  length `0` that it does not look for.
-/

namespace SocChess.Usb

open Program

def usbDescriptorInterface : Byte := 4#8
def usbDescriptorEndpoint : Byte := 5#8

/-- `HID_INTF`, `BOOT_INTF_SUBCLASS`, and the boot protocols. -/
def hidIntf : Byte := 3#8
def bootIntfSubclass : Byte := 1#8
def hidProtocolKeyboard : Byte := 1#8
def hidProtocolMouse : Byte := 2#8

/-- `HID_K` and `HID_M`, the classes of a device record. -/
def hidK : Byte := 1#8
def hidM : Byte := 2#8

def bmSNDTOG0 : Byte := 0x40#8
def bootProtocol : Byte := 0#8

/-! ## The probes -/

section Probe

variable {P : Type} (io : Platform P) (n : Nat)

/-- The loops over the descriptors: the next one of a type, from `ptr` on. -/
def skipTo (totalLength : Nat) (type : Byte) (ptr : Nat) : Code P (Option Nat) :=
  loop .unfinished (fun ptr =>
    if ptr < totalLength then do
      let bDescriptorType ← bigbufAt (ptr + 1)
      if bDescriptorType ≠ type then do
        let bLength ← bigbufAt ptr
        return .again (ptr + bLength.toNat)
      else return .done (some ptr)
    else return .done none) n ptr

/-- `HID_init` -/
def hidInit : Code P Unit := update fun f =>
  { f with endpoints := { f.endpoints with
    hidEp1 := { f.endpoints.hidEp1 with sndToggle := bmSNDTOG0, rcvToggle := bmRCVTOG0 } } }

/-- A device of the class is detected: its records. -/
def detectDevice (devclass addr : Byte) : Code P Unit := do
  setRecord addr fun r => { r with devclass := devclass }
  let record ← endpoint addr 0#8
  let tmpbyte : Byte := record.maxPktSize.setWidth 8
  hidInit
  setRecord addr fun r => { r with epinfo := some .hidEp }
  setEndpoint addr 0#8 fun e => { e with maxPktSize := tmpbyte.setWidth 16 }

def setHidDevice (addr interface : Byte) : Code P Unit :=
  setHost fun h => { h with hidDevice := ⟨addr, interface⟩ }

/-- The endpoint record is filled in. -/
def fillEndpoint (addr epAddr attr : Byte) (maxPktSize : BitVec 16) (interval : Byte) :
    Code P Unit :=
  setEndpoint addr 1#8 fun e =>
    { e with epAddr := epAddr, attr := attr, maxPktSize := maxPktSize, interval := interval }

/-- The device is configured and set to the boot protocol. -/
def configureDevice (addr confvalue : Byte) : Code P Bool := do
  let reply ← xferSetConf io n addr 0#8 confvalue
  if reply.rcode ≠ 0#8 then return false
  else do
    let interface ← read fun f => f.host.hidDevice.interface
    let reply ← xferSetProto io n addr 0#8 interface bootProtocol
    if reply.rcode ≠ 0#8 then return false else return true

/-- The configuration is read into `bigbuf`: its length, at most 256. -/
def fetchConfiguration (addr : Byte) : Code P (Option (BitVec 16)) := do
  let reply ← xferGetConfDescr io n addr 0#8 9#16 0#8
  storeBigbuf reply.stored
  if reply.rcode ≠ 0#8 then return none
  else do
    let wTotalLength ← bigbufWord 2
    let totalLength : BitVec 16 := if 256#16 < wTotalLength then 256#16 else wTotalLength
    let reply ← xferGetConfDescr io n addr 0#8 totalLength 0#8
    storeBigbuf reply.stored
    if reply.rcode ≠ 0#8 then return none else return some totalLength

/-- After the interface at `ptr`: the next endpoint is registered and the device configured. -/
def parseEndpoint (addr confvalue : Byte) (totalLength ptr : Nat) : Code P Bool := do
  let bLength ← bigbufAt ptr
  match ← skipTo n totalLength usbDescriptorEndpoint (ptr + bLength.toNat) with
  | none => return false
  | some ptr => do
    let epAddr ← bigbufAt (ptr + 2)
    let attr ← bigbufAt (ptr + 3)
    let maxPktSize ← bigbufWord (ptr + 4)
    let interval ← bigbufAt (ptr + 6)
    fillEndpoint addr epAddr attr maxPktSize interval
    configureDevice io n addr confvalue

/-- The configuration in `bigbuf` is parsed, up to its first interface. -/
def parseConfiguration (protocol devclass addr : Byte) (totalLength : Nat) : Code P Bool := do
  let confvalue ← bigbufAt 5
  match ← skipTo n totalLength usbDescriptorInterface 0 with
  | none => return false
  | some ptr => do
    let bInterfaceClass ← bigbufAt (ptr + 5)
    let bInterfaceSubClass ← bigbufAt (ptr + 6)
    let bInterfaceProtocol ← bigbufAt (ptr + 7)
    if bInterfaceClass = hidIntf ∧ bInterfaceSubClass = bootIntfSubclass ∧
        bInterfaceProtocol = protocol then do
      detectDevice devclass addr
      let interface ← bigbufAt (ptr + 2)
      setHidDevice addr interface
      parseEndpoint io n addr confvalue totalLength ptr
    else return false

/-- What the two probes have in common. -/
def hidProbe (protocol devclass addr : Byte) : Code P Bool := do
  match ← fetchConfiguration io n addr with
  | none => return false
  | some totalLength => parseConfiguration io n protocol devclass addr totalLength.toNat

/-- `HIDMProbe` -/
def hidMProbe (addr : Byte) : Code P Bool := hidProbe io n hidProtocolMouse hidM addr

/-- `HIDKProbe` -/
def hidKProbe (addr : Byte) : Code P Bool := hidProbe io n hidProtocolKeyboard hidK addr

/-- `MSDProbe` -/
def msdProbe (_addr : Byte) : Code P Bool := pure false

/-- `DummyProbe` -/
def dummyProbe (_addr : Byte) : Code P Bool := pure false

end Probe

/-! ## Walks that do not end -/

section Stuck

variable {P : Type} {totalLength : Nat} {type : Byte} {f : Firmware P}

/-- `Skips buf totalLength type ptr q`: the walk from `ptr` comes to `q`. -/
inductive Skips (buf : Vector Byte 256) (totalLength : Nat) (type : Byte) : Nat → Nat → Prop
  | here (q : Nat) : Skips buf totalLength type q q
  | past {ptr q : Nat} {bLength bDescriptorType : Byte} : ptr < totalLength →
      buf[ptr + 1]? = some bDescriptorType → bDescriptorType ≠ type → buf[ptr]? = some bLength →
      Skips buf totalLength type (ptr + bLength.toNat) q → Skips buf totalLength type ptr q

/-- A descriptor of length `0` that the walk does not look for. -/
def Blocks (buf : Vector Byte 256) (totalLength : Nat) (type : Byte) (q : Nat) : Prop :=
  q < totalLength ∧ buf[q]? = some 0#8 ∧ ∃ t, buf[q + 1]? = some t ∧ t ≠ type

theorem run_bigbufAt {i : Nat} {b : Byte} (h : f.bigbuf[i]? = some b) :
    (bigbufAt i).run f = .ok (b, f) := by
  rw [bigbufAt, run_read_bind, h]
  rfl

theorem run_bigbufAt_none {i : Nat} (h : f.bigbuf[i]? = none) :
    (bigbufAt i).run f = .error .overrun := by
  rw [bigbufAt, run_read_bind, h]
  rfl

theorem skipTo_end {ptr : Nat} (h : totalLength ≤ ptr) (n : Nat) :
    (skipTo (n + 1) totalLength type ptr).run f = .ok (none, f) := by
  refine loop_done ?_ n
  rw [if_neg (Nat.not_lt.mpr h), run_pure]

theorem skipTo_here {ptr : Nat} (h : ptr < totalLength) (htype : f.bigbuf[ptr + 1]? = some type)
    (n : Nat) : (skipTo (n + 1) totalLength type ptr).run f = .ok (some ptr, f) := by
  refine loop_done ?_ n
  rw [if_pos h, bind_of_ok (run_bigbufAt htype), if_neg (not_not.mpr rfl), run_pure]

theorem skipTo_over {ptr : Nat} {bLength bDescriptorType : Byte} (h : ptr < totalLength)
    (htype : f.bigbuf[ptr + 1]? = some bDescriptorType) (hne : bDescriptorType ≠ type)
    (hlength : f.bigbuf[ptr]? = some bLength) (n : Nat) :
    (skipTo (n + 1) totalLength type ptr).run f =
      (skipTo n totalLength type (ptr + bLength.toNat)).run f := by
  refine loop_again ?_ n
  rw [if_pos h, bind_of_ok (run_bigbufAt htype), if_pos hne, bind_of_ok (run_bigbufAt hlength),
    run_pure]

theorem skipTo_overrun {ptr : Nat} (h : ptr < totalLength) (hnone : f.bigbuf[ptr + 1]? = none)
    (n : Nat) : (skipTo (n + 1) totalLength type ptr).run f = .error .overrun := by
  rw [skipTo, loop, if_pos h]
  exact bind_of_error (bind_of_error (run_bigbufAt_none hnone))

/-- A descriptor that blocks the walk holds it for ever. -/
theorem skipTo_blocked {q : Nat} (h : Blocks f.bigbuf totalLength type q) (n : Nat) :
    (skipTo n totalLength type q).run f = .error .unfinished := by
  obtain ⟨hlt, hzero, t, htype, hne⟩ := h
  induction n with
  | zero => rfl
  | succ n ih =>
    rw [skipTo_over hlt htype hne hzero]
    exact ih

theorem skipTo_skips {ptr q : Nat} (h : Skips f.bigbuf totalLength type ptr q)
    (hq : ∀ n, (skipTo n totalLength type q).run f = .error .unfinished) (n : Nat) :
    (skipTo n totalLength type ptr).run f = .error .unfinished := by
  induction h generalizing n with
  | here q => exact hq n
  | past hlt htype hne hlength _ ih =>
    cases n with
    | zero => rfl
    | succ n =>
      rw [skipTo_over hlt htype hne hlength]
      exact ih hq n

theorem skips_of_stuck {ptr : Nat}
    (h : ∀ n, (skipTo n totalLength type ptr).run f = .error .unfinished) :
    ∃ q, Skips f.bigbuf totalLength type ptr q ∧ Blocks f.bigbuf totalLength type q := by
  -- a walk that does not end is still before the end of the configuration
  have hlt : ptr < totalLength := by
    by_contra hge
    have hend : (skipTo 1 totalLength type ptr).run f = .ok (none, f) :=
      skipTo_end (Nat.not_lt.mp hge) 0
    rw [h 1] at hend
    cases hend
  cases htype : f.bigbuf[ptr + 1]? with
  | none =>
    have hoverrun : (skipTo 1 totalLength type ptr).run f = .error .overrun :=
      skipTo_overrun hlt htype 0
    rw [h 1] at hoverrun
    cases hoverrun
  | some t =>
    by_cases heq : t = type
    · rw [heq] at htype
      have hhere := skipTo_here hlt htype 0
      rw [h 1] at hhere
      cases hhere
    · obtain ⟨hsize, -⟩ := Vector.getElem?_eq_some_iff.mp htype
      obtain ⟨bLength, hlength⟩ : ∃ bLength, f.bigbuf[ptr]? = some bLength :=
        ⟨_, Vector.getElem?_eq_getElem (by omega)⟩
      have hnext : ∀ n, (skipTo n totalLength type (ptr + bLength.toNat)).run f =
          .error .unfinished := by
        intro n
        rw [← skipTo_over hlt htype heq hlength]
        exact h (n + 1)
      by_cases hzero : bLength = 0#8
      · rw [hzero] at hlength
        exact ⟨ptr, .here ptr, hlt, hlength, t, htype, heq⟩
      · have hpos : 0 < bLength.toNat :=
          Nat.pos_of_ne_zero fun h => hzero (BitVec.eq_of_toNat_eq h)
        obtain ⟨q, hskips, hblocks⟩ := skips_of_stuck hnext
        exact ⟨q, .past hlt htype heq hlength hskips, hblocks⟩
termination_by totalLength - ptr
decreasing_by omega

/-- A walk never ends exactly when it comes to a descriptor that blocks it. -/
theorem skipTo_stuck_iff (totalLength : Nat) (type : Byte) (ptr : Nat) (f : Firmware P) :
    (∀ n, (skipTo n totalLength type ptr).run f = .error .unfinished) ↔
      ∃ q, Skips f.bigbuf totalLength type ptr q ∧ Blocks f.bigbuf totalLength type q := by
  constructor
  · exact skips_of_stuck
  · rintro ⟨q, hskips, hblocks⟩
    exact skipTo_skips hskips (skipTo_blocked hblocks)

end Stuck

/-! ## Lists of descriptors -/

/-- A descriptor: its length is given in a byte. -/
structure Descriptor where
  bDescriptorType : Byte
  body : List Byte
  fits : body.length + 2 < 2 ^ 8

namespace Descriptor

def size (d : Descriptor) : Nat := d.body.length + 2

def bytes (d : Descriptor) : List Byte := BitVec.ofNat 8 d.size :: d.bDescriptorType :: d.body

/-- The field at an offset from the start of the descriptor. -/
def field (d : Descriptor) (i : Nat) : Byte := d.bytes.getD i 0#8

/-- An interface and an endpoint have the fields that the probes read. -/
def Shaped (d : Descriptor) : Prop :=
  (d.bDescriptorType = usbDescriptorInterface → 8 ≤ d.size) ∧
  (d.bDescriptorType = usbDescriptorEndpoint → 7 ≤ d.size)

theorem toNat_length (d : Descriptor) : (d.field 0).toNat = d.size := by
  have hlt : d.size < 2 ^ 8 := d.fits
  change (BitVec.ofNat 8 d.size).toNat = d.size
  rw [BitVec.toNat_ofNat, Nat.mod_eq_of_lt hlt]

end Descriptor

def totalSize (ds : List Descriptor) : Nat := (ds.map Descriptor.size).sum

/-- The descriptors lie one after another in the buffer, from `ptr` on. -/
def Laid (buf : Vector Byte 256) : Nat → List Descriptor → Prop
  | _, [] => True
  | ptr, d :: ds =>
    (∀ i < d.size, buf[ptr + i]? = some (d.field i)) ∧ Laid buf (ptr + d.size) ds

theorem Descriptor.length_bytes (d : Descriptor) : d.bytes.length = d.size := rfl

theorem Descriptor.getElem?_bytes (d : Descriptor) {i : Nat} (hi : i < d.size) :
    d.bytes[i]? = some (d.field i) := by
  rw [field, List.getD_eq_getElem?_getD, List.getElem?_eq_getElem hi, Option.getD_some]

theorem laid_of_bytes {buf : Vector Byte 256} {ptr : Nat} {ds : List Descriptor}
    (h : ∀ i < (ds.flatMap Descriptor.bytes).length,
      buf[ptr + i]? = (ds.flatMap Descriptor.bytes)[i]?) : Laid buf ptr ds := by
  induction ds generalizing ptr with
  | nil => trivial
  | cons d ds ih =>
    rw [List.flatMap_cons, List.length_append, d.length_bytes] at h
    constructor
    · intro i hi
      rw [h i (Nat.lt_add_right _ hi), List.getElem?_append_left hi, d.getElem?_bytes hi]
    · refine ih fun i hi => ?_
      rw [Nat.add_assoc, h _ (Nat.add_lt_add_left hi _),
        List.getElem?_append_right (by rw [d.length_bytes]; exact Nat.le_add_right _ _),
        d.length_bytes, Nat.add_sub_cancel_left]

/-- Descriptors that are stored in a buffer lie in it. -/
theorem laid_overlay (buf : Vector Byte 256) {ds : List Descriptor}
    (hfits : (ds.flatMap Descriptor.bytes).length ≤ 256) :
    Laid (overlay buf (ds.flatMap Descriptor.bytes)) 0 ds := by
  refine laid_of_bytes fun i hi => ?_
  have hlt : i < 256 := Nat.lt_of_lt_of_le hi hfits
  rw [Nat.zero_add, overlay, Vector.getElem?_eq_getElem hlt, Vector.getElem_ofFn,
    List.getD_eq_getElem?_getD, List.getElem?_eq_getElem hi, Option.getD_some]

/-- The first descriptor of a type, and what comes after it. -/
def search (type : Byte) : List Descriptor → Option (Descriptor × List Descriptor)
  | [] => none
  | d :: ds => if d.bDescriptorType = type then some (d, ds) else search type ds

section Parse

variable {P : Type} (io : Platform P) (n : Nat)

/-- The first interface, if it is one of the protocol, and the first endpoint after it. -/
def parseDescriptors (protocol devclass addr confvalue : Byte) (ds : List Descriptor) :
    Code P Bool :=
  match search usbDescriptorInterface ds with
  | none => return false
  | some (interface, rest) =>
    if interface.field 5 = hidIntf ∧ interface.field 6 = bootIntfSubclass ∧
        interface.field 7 = protocol then do
      detectDevice devclass addr
      setHidDevice addr (interface.field 2)
      match search usbDescriptorEndpoint rest with
      | none => return false
      | some (e, _) => do
        fillEndpoint addr (e.field 2) (e.field 3) (e.field 5 ++ e.field 4) (e.field 6)
        configureDevice io n addr confvalue
    else return false

variable {io n} {f : Firmware P} {ds : List Descriptor} {ptr totalLength : Nat} {type : Byte}

theorem search_mem {d : Descriptor} {rest : List Descriptor}
    (h : search type ds = some (d, rest)) :
    d ∈ ds ∧ d.bDescriptorType = type ∧ (∀ d' ∈ rest, d' ∈ ds) ∧ rest.length < ds.length := by
  induction ds with
  | nil => cases h
  | cons d' ds ih =>
    rw [search] at h
    split at h
    · next htype =>
      cases h
      exact ⟨List.mem_cons_self, htype, fun _ => List.mem_cons_of_mem _, Nat.lt_succ_self _⟩
    · obtain ⟨hmem, htype, hrest, hlen⟩ := ih h
      exact ⟨List.mem_cons_of_mem _ hmem, htype, fun d hd => List.mem_cons_of_mem _ (hrest d hd),
        Nat.lt_succ_of_lt hlen⟩

theorem size_pos (d : Descriptor) : 2 ≤ d.size := Nat.le_add_left 2 _

theorem totalSize_cons (d : Descriptor) (ds : List Descriptor) :
    totalSize (d :: ds) = d.size + totalSize ds := by
  rw [totalSize, List.map_cons, List.sum_cons, totalSize]

/-- The walk finds what the search does. -/
theorem skipTo_laid (type : Byte) (hlaid : Laid f.bigbuf ptr ds)
    (htotal : totalLength = ptr + totalSize ds) (hn : ds.length < n) :
    (search type ds = none ∧ (skipTo n totalLength type ptr).run f = .ok (none, f)) ∨
    ∃ d rest q, search type ds = some (d, rest) ∧
      (skipTo n totalLength type ptr).run f = .ok (some q, f) ∧
      Laid f.bigbuf q (d :: rest) ∧ totalLength = q + totalSize (d :: rest) := by
  induction ds generalizing ptr n with
  | nil =>
    obtain ⟨n, rfl⟩ := Nat.exists_eq_succ_of_ne_zero hn.ne'
    exact .inl ⟨rfl, skipTo_end htotal.le n⟩
  | cons d ds ih =>
    obtain ⟨n, rfl⟩ := Nat.exists_eq_succ_of_ne_zero (Nat.ne_of_gt (Nat.zero_lt_of_lt hn))
    have hsize := size_pos d
    rw [totalSize_cons] at htotal
    have hlt : ptr < totalLength := by omega
    have htype : f.bigbuf[ptr + 1]? = some d.bDescriptorType := hlaid.1 1 (by omega)
    by_cases heq : d.bDescriptorType = type
    · refine .inr ⟨d, ds, ptr, by rw [search, if_pos heq], ?_, hlaid,
        by rw [totalSize_cons, htotal]⟩
      rw [heq] at htype
      exact skipTo_here hlt htype n
    · have hover := skipTo_over hlt htype heq (hlaid.1 0 (by omega)) n
      rw [d.toNat_length] at hover
      have hsearch : search type (d :: ds) = search type ds := by rw [search, if_neg heq]
      rw [hover, hsearch]
      exact ih hlaid.2 (by omega) (Nat.lt_of_succ_lt_succ hn)

theorem run_field {d : Descriptor} (hlaid : Laid f.bigbuf ptr (d :: ds)) {i : Nat}
    (hi : i < d.size) : (bigbufAt (ptr + i)).run f = .ok (d.field i, f) :=
  run_bigbufAt (hlaid.1 i hi)

theorem run_field_word {d : Descriptor} (hlaid : Laid f.bigbuf ptr (d :: ds)) {i : Nat}
    (hi : i + 1 < d.size) :
    (bigbufWord (ptr + i)).run f = .ok (d.field (i + 1) ++ d.field i, f) := by
  rw [bigbufWord, bind_of_ok (run_field hlaid (Nat.lt_of_succ_lt hi)), Nat.add_assoc,
    bind_of_ok (run_field hlaid hi), run_pure]

theorem detectDevice_bigbuf (devclass addr : Byte) (f : Firmware P) :
    wp (fun _ => True) (detectDevice devclass addr) (fun _ f' => f'.bigbuf = f.bigbuf) f := by
  simp [detectDevice, setRecord, endpoint, hidInit, setEndpoint]

theorem setHidDevice_bigbuf (addr interface : Byte) (f : Firmware P) :
    wp (fun _ => True) (setHidDevice addr interface) (fun _ f' => f'.bigbuf = f.bigbuf) f := rfl

/-- The endpoint after an interface is the one that the search finds. -/
theorem endpoint_parses (io : Platform P) (addr confvalue : Byte) {interface : Descriptor}
    (hlaid : Laid f.bigbuf ptr (interface :: ds)) (hsize : 1 ≤ interface.size)
    (htotal : totalLength = ptr + totalSize (interface :: ds)) (hn : ds.length < n)
    (hshaped : ∀ d ∈ ds, d.Shaped) :
    (parseEndpoint io n addr confvalue totalLength ptr).run f =
      (match search usbDescriptorEndpoint ds with
      | none => pure false
      | some (e, _) => do
        fillEndpoint addr (e.field 2) (e.field 3) (e.field 5 ++ e.field 4) (e.field 6)
        configureDevice io n addr confvalue : Code P Bool).run f := by
  have hlength := run_field hlaid (i := 0) hsize
  rw [Nat.add_zero] at hlength
  rw [totalSize_cons, ← Nat.add_assoc] at htotal
  rw [parseEndpoint, bind_of_ok hlength, interface.toNat_length]
  obtain ⟨hsearch, hskip⟩ | ⟨e, rest, q, hsearch, hskip, he, -⟩ :=
    skipTo_laid usbDescriptorEndpoint hlaid.2 htotal hn
  · rw [bind_of_ok hskip, hsearch]
  · obtain ⟨hmem, htype, -, -⟩ := search_mem hsearch
    have hsize : 7 ≤ e.size := (hshaped e hmem).2 htype
    rw [bind_of_ok hskip, hsearch]
    dsimp only
    rw [bind_of_ok (run_field he (i := 2) (by omega)),
      bind_of_ok (run_field he (i := 3) (by omega)),
      bind_of_ok (run_field_word he (i := 4) (by omega)),
      bind_of_ok (run_field he (i := 6) (by omega))]

/-- On a list of descriptors the probe is a search for the first interface and for the
first endpoint after it. -/
theorem probe_parses (io : Platform P) (protocol devclass addr : Byte) {conf : Descriptor}
    (hlaid : Laid f.bigbuf 0 (conf :: ds)) (hconf : 6 ≤ conf.size)
    (hshaped : ∀ d ∈ conf :: ds, d.Shaped) (hn : (conf :: ds).length < n) :
    (parseConfiguration io n protocol devclass addr (totalSize (conf :: ds))).run f =
      (parseDescriptors io n protocol devclass addr (conf.field 5) (conf :: ds)).run f := by
  have hconfvalue := run_field hlaid (i := 5) (by omega)
  rw [Nat.zero_add] at hconfvalue
  rw [parseConfiguration, bind_of_ok hconfvalue, parseDescriptors]
  obtain ⟨hsearch, hskip⟩ | ⟨interface, rest, ptr, hsearch, hskip, hinterface, htotal⟩ :=
    skipTo_laid usbDescriptorInterface hlaid (Nat.zero_add _).symm hn
  · rw [bind_of_ok hskip, hsearch]
  · obtain ⟨hmem, htype, hrest, hlen⟩ := search_mem hsearch
    have hsize : 8 ≤ interface.size := (hshaped interface hmem).1 htype
    rw [bind_of_ok hskip, hsearch]
    dsimp only
    rw [bind_of_ok (run_field hinterface (i := 5) (by omega)),
      bind_of_ok (run_field hinterface (i := 6) (by omega)),
      bind_of_ok (run_field hinterface (i := 7) (by omega))]
    split
    · refine bind_congr_ok fun _ f₁ hdetect => ?_
      have hbuf : f₁.bigbuf = f.bigbuf := wp_ok (detectDevice_bigbuf devclass addr f) hdetect
      rw [← hbuf] at hinterface
      rw [bind_of_ok (run_field hinterface (i := 2) (by omega))]
      refine bind_congr_ok fun _ f₂ hset => ?_
      have hbuf : f₂.bigbuf = f₁.bigbuf := wp_ok (setHidDevice_bigbuf addr _ f₁) hset
      rw [← hbuf] at hinterface
      exact endpoint_parses io addr _ hinterface (by omega) htotal (hlen.trans hn)
        fun d hd => hshaped d (hrest d hd)
    · rfl

end Parse

/-- The configuration of a boot mouse: a configuration descriptor, and then an interface, a
HID descriptor and an interrupt endpoint with packets of eight bytes. -/
def mouseConf : Descriptor := ⟨2#8, [34#8, 0#8, 1#8, 1#8, 0#8, 0xa0#8, 50#8], by decide⟩

def mouseRest : List Descriptor :=
  [⟨4#8, [0#8, 0#8, 1#8, 3#8, 1#8, 2#8, 0#8], by decide⟩,
    ⟨0x21#8, [0x10#8, 1#8, 0#8, 1#8, 0x22#8, 52#8, 0#8], by decide⟩,
    ⟨5#8, [0x81#8, 3#8, 8#8, 0#8, 10#8], by decide⟩]

instance (d : Descriptor) : Decidable d.Shaped := by
  unfold Descriptor.Shaped
  infer_instance

/-- The firmware with that configuration in `bigbuf`. -/
def mouseFetched : Firmware Script :=
  { Firmware.start 0#8 ⟨0#8, 0#8, 0#8⟩ ⟨Vector.replicate 6 0#8⟩ ⟨[], 0#32, 0#32⟩ with
    bigbuf := overlay (Vector.replicate 256 0#8)
      ((mouseConf :: mouseRest).flatMap Descriptor.bytes) }

theorem probe_parses_mouse :
    (parseConfiguration Script.platform 5 hidProtocolMouse hidM 1#8
        (totalSize (mouseConf :: mouseRest))).run mouseFetched =
      (parseDescriptors Script.platform 5 hidProtocolMouse hidM 1#8 (mouseConf.field 5)
        (mouseConf :: mouseRest)).run mouseFetched := by
  have hlaid : Laid mouseFetched.bigbuf 0 (mouseConf :: mouseRest) := laid_overlay _ (by decide)
  exact probe_parses Script.platform hidProtocolMouse hidM 1#8 hlaid (by decide) (by decide)
    (Nat.lt_succ_self 4)

end SocChess.Usb
