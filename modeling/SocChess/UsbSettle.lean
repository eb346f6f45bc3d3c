import SocChess.UsbMain

/-!
# The settle time

A device that is attached has 200 ms to settle. The task waits for a reading of the timer
after the time it has computed, and the timer wraps.

* `settle_ends_iff`: without interrupts the wait ends at the first iteration that reads a
  later time. A device that is attached in the last 200 ms before the timer wraps is never
  reset.
-/

namespace SocChess.Usb

open Program

section Settle

variable {P : Type} {io : Platform P} {n : Nat} {f : Firmware P}

/-- The chip after an iteration that reads the pin and the timer. -/
def Platform.tick (io : Platform P) (p : P) : P := (io.millis (io.interrupt p).2).2

/-- What the `k`-th of such iterations reads from the timer, from `p` on. -/
def Platform.tickReading (io : Platform P) (k : Nat) (p : P) : Word :=
  (io.millis (io.interrupt (io.tick^[k] p)).2).1

theorem tickReading_succ (k : Nat) (p : P) :
    io.tickReading (k + 1) p = io.tickReading k (io.tick p) := rfl

/-- The firmware after an iteration of a device that does not run. -/
def Firmware.idled (f : Firmware P) : Firmware P :=
  { f with bridge := { f.bridge with errorflag := false } }

theorem run_idleIteration (hpin : io.pending f.chip = none) {f₁ : Firmware P}
    (husb : (usbTask io n).run (f.pinRead io) = .ok ((), f₁))
    (hstate : f₁.host.usbTaskState ∉ [usbStateRunning, usbStateError])
    (hflag : f₁.bridge.runningdebugflag = false) :
    (mainIteration io n).run f = .ok ((), f₁.idled) := by
  have hrunning : f₁.host.usbTaskState ≠ usbStateRunning :=
    fun h => hstate (h ▸ List.mem_cons_self)
  have herror : f₁.host.usbTaskState ≠ usbStateError :=
    fun h => hstate (.tail _ (h ▸ List.mem_cons_self))
  have hidle : ¬ f₁.bridge.runningdebugflag = true := by
    rw [hflag]
    exact Bool.false_ne_true
  rw [mainIteration, bind_of_ok (run_max3421eTask hpin), bind_of_ok husb, run_read_bind,
    if_neg hrunning, if_neg herror, idleBranch, run_read_bind, whenever, if_neg hidle]
  rfl

/-- An iteration of a device that is attached. -/
theorem run_attached (hpin : io.pending f.chip = none)
    (hstate : f.host.usbTaskState = usbStateAttached)
    (hflag : f.bridge.runningdebugflag = false) :
    ∃ f', (mainIteration io n).run f = .ok ((), f') ∧
      f'.host = { f.host with
        usbDelay := io.tickReading 0 f.chip + 200#32, usbTaskState := usbAttachedSettle } ∧
      f'.chip = io.tick f.chip ∧ f'.bridge.runningdebugflag = false := by
  have husb : (usbTask io n).run (f.pinRead io) = .ok ((), { f with
      host := { f.host with
        usbDelay := io.tickReading 0 f.chip + 200#32, usbTaskState := usbAttachedSettle }
      chip := io.tick f.chip }) := by
    have hattached : (f.pinRead io).host.usbTaskState = usbStateAttached := hstate
    rw [usbTask, run_read_bind, hattached, if_neg (by decide), if_pos (by decide), attachedTask,
      if_pos rfl]
    rfl
  exact ⟨_, run_idleIteration hpin husb (show usbAttachedSettle ∉ _ by decide) hflag,
    rfl, rfl, hflag⟩

/-- An iteration of a device that settles. -/
theorem run_settle (hpin : io.pending f.chip = none)
    (hstate : f.host.usbTaskState = usbAttachedSettle)
    (hflag : f.bridge.runningdebugflag = false) :
    ∃ f', (mainIteration io n).run f = .ok ((), f') ∧
      f'.host = (if f.host.usbDelay < io.tickReading 0 f.chip then
        f.host.enter usbAttachedResetDevice else f.host) ∧
      f'.chip = io.tick f.chip ∧ f'.bridge.runningdebugflag = false := by
  have husb : (usbTask io n).run (f.pinRead io) = .ok ((), { f with
      host := if f.host.usbDelay < io.tickReading 0 f.chip then
        f.host.enter usbAttachedResetDevice else f.host
      chip := io.tick f.chip }) := by
    have hsettle : (f.pinRead io).host.usbTaskState = usbAttachedSettle := hstate
    have hread : (onChip (act io.millis)).run (f.pinRead io) =
        .ok (io.tickReading 0 f.chip, { f with chip := io.tick f.chip }) := rfl
    rw [usbTask, run_read_bind, hsettle, if_neg (by decide), if_pos (by decide), attachedTask,
      if_neg (by decide), if_pos rfl, bind_of_ok hread, run_read_bind, whenever]
    split
    · rfl
    · rfl
  refine ⟨_, run_idleIteration hpin husb ?_ hflag, rfl, rfl, hflag⟩
  dsimp only
  split
  · exact (show usbAttachedResetDevice ∉ _ by decide)
  · rw [hstate]
    decide

/-- Iterations that read no later time leave the device settling. -/
theorem run_settling (hpin : ∀ p, io.pending p = none)
    (hstate : f.host.usbTaskState = usbAttachedSettle)
    (hflag : f.bridge.runningdebugflag = false) {m : Nat}
    (hearly : ∀ k < m, ¬ f.host.usbDelay < io.tickReading k f.chip) :
    ∃ f', (repeated (mainIteration io n) m).run f = .ok ((), f') ∧ f'.host = f.host ∧
      f'.chip = io.tick^[m] f.chip ∧ f'.bridge.runningdebugflag = false := by
  induction m with
  | zero => exact ⟨f, rfl, rfl, rfl, hflag⟩
  | succ m ih =>
    obtain ⟨f₁, hrun, hhost, hchip, hflag₁⟩ := ih fun k hk => hearly k (Nat.lt_succ_of_lt hk)
    obtain ⟨f', hnext, hhost', hchip', hflag'⟩ :=
      run_settle (n := n) (hpin f₁.chip) (by rw [hhost, hstate]) hflag₁
    refine ⟨f', ?_, ?_, ?_, hflag'⟩
    · rw [repeated, bind_of_ok hrun, hnext]
    · have hlast := hearly m (Nat.lt_succ_self m)
      have hreading : io.tickReading 0 f₁.chip = io.tickReading m f.chip := by
        rw [hchip]
        rfl
      rw [hhost', hreading, hhost, if_neg hlast]
    · rw [hchip', hchip, Function.iterate_succ_apply']

theorem settle_lt_iff (p q : P) (k : Nat) :
    io.tickReading 0 p + 200#32 < io.tickReading k q ↔
      (io.tickReading 0 p).toNat + 200 < (io.tickReading k q).toNat := by
  have hle : (io.tickReading 0 p).toNat ≤ 42949 := millis_le _
  rw [BitVec.lt_def, BitVec.toNat_add, Nat.mod_eq_of_lt]
  · rfl
  · change (io.tickReading 0 p).toNat + 200 < _
    omega

/-- A device that is attached is reset if and only if the timer is read more than 200 ms
later, which never happens if the first reading is one of the last before the timer wraps. -/
theorem settle_ends_iff (hpin : ∀ p, io.pending p = none)
    (hstate : f.host.usbTaskState = usbStateAttached)
    (hflag : f.bridge.runningdebugflag = false) :
    ((∃ m f', (repeated (mainIteration io n) m).run f = .ok ((), f') ∧
        f'.host.usbTaskState = usbAttachedResetDevice) ↔
      ∃ k, (io.tickReading 0 f.chip).toNat + 200 < (io.tickReading (k + 1) f.chip).toNat) ∧
    (42749 ≤ (io.tickReading 0 f.chip).toNat →
      ∀ m, ∃ f', (repeated (mainIteration io n) (m + 1)).run f = .ok ((), f') ∧
        f'.host.usbTaskState = usbAttachedSettle) := by
  obtain ⟨f₁, hfirst, hhost, hchip, hflag₁⟩ := run_attached (n := n) (hpin f.chip) hstate hflag
  have hsettle : f₁.host.usbTaskState = usbAttachedSettle := by rw [hhost]
  have hlater : ∀ k, f₁.host.usbDelay < io.tickReading k f₁.chip ↔
      (io.tickReading 0 f.chip).toNat + 200 < (io.tickReading (k + 1) f.chip).toNat := by
    intro k
    rw [hhost, hchip, tickReading_succ]
    exact settle_lt_iff f.chip _ k
  have hstays : ∀ m, (∀ k < m, ¬ f₁.host.usbDelay < io.tickReading k f₁.chip) →
      ∃ f', (repeated (mainIteration io n) (m + 1)).run f = .ok ((), f') ∧
        f'.host = f₁.host ∧ f'.chip = io.tick^[m] f₁.chip ∧
        f'.bridge.runningdebugflag = false := by
    intro m hearly
    rw [repeated_succ_of_ok hfirst]
    exact run_settling hpin hsettle hflag₁ hearly
  refine ⟨⟨?_, ?_⟩, ?_⟩
  · rintro ⟨m, f', hrun, hreset⟩
    by_contra hnever
    have hearly : ∀ k, ¬ f₁.host.usbDelay < io.tickReading k f₁.chip :=
      fun k hk => hnever ⟨k, (hlater k).mp hk⟩
    cases m with
    | zero =>
      cases hrun
      rw [hstate] at hreset
      exact absurd hreset (by decide)
    | succ m =>
      obtain ⟨f'', hrun', hhost', -⟩ := hstays m fun k _ => hearly k
      rw [hrun] at hrun'
      cases hrun'
      rw [hhost', hsettle] at hreset
      exact absurd hreset (by decide)
  · intro hends
    -- the first iteration that reads a later time ends the wait
    have hends' : ∃ k, f₁.host.usbDelay < io.tickReading k f₁.chip :=
      hends.imp fun k hk => (hlater k).mpr hk
    classical
    obtain ⟨k, hk, hbefore⟩ := Nat.findX hends'
    obtain ⟨f₂, hrun, hhost₂, hchip₂, hflag₂⟩ := hstays k hbefore
    obtain ⟨f', hnext, hhost', -, -⟩ :=
      run_settle (n := n) (hpin f₂.chip) (by rw [hhost₂, hsettle]) hflag₂
    refine ⟨k + 2, f', ?_, ?_⟩
    · rw [repeated, bind_of_ok hrun, hnext]
    · have hreading : io.tickReading 0 f₂.chip = io.tickReading k f₁.chip := by
        rw [hchip₂]
        rfl
      rw [hhost', hreading, hhost₂, if_pos hk]
      rfl
  · intro hlate m
    have hearly : ∀ k < m, ¬ f₁.host.usbDelay < io.tickReading k f₁.chip := by
      intro k _ hk
      have hle : (io.tickReading (k + 1) f.chip).toNat ≤ 42949 := millis_le _
      have hlt := (hlater k).mp hk
      omega
    obtain ⟨f', hrun, hhost', -⟩ := hstays m hearly
    exact ⟨f', hrun, by rw [hhost', hsettle]⟩

end Settle

/-- A device that has just been attached, with the timer at a value. -/
def attachedAt (clock step : Word) : Firmware Script :=
  { Firmware.start 0#8 ⟨0#8, 0#8, 0#8⟩ ⟨Vector.replicate 6 0#8⟩ ⟨[], clock, step⟩ with
    host := { Host.start with usbTaskState := usbStateAttached } }

/-- A device settles with the timer at 0 ms, and never does with the timer at 42800 ms. -/
theorem settle_ends_iff_script :
    (∃ m f', (repeated (mainIteration Script.platform 0) m).run (attachedAt 0#32 25000000#32) =
      .ok ((), f') ∧ f'.host.usbTaskState = usbAttachedResetDevice) ∧
    ∀ m, ∃ f', (repeated (mainIteration Script.platform 0) (m + 1)).run
      (attachedAt 4280000000#32 25000000#32) = .ok ((), f') ∧
      f'.host.usbTaskState = usbAttachedSettle := by
  have hpin : ∀ p, Script.platform.pending p = none :=
    fun _ => if_neg (show ¬ 1#32 &&& 0x01#32 = 0#32 by decide)
  constructor
  · exact (settle_ends_iff hpin rfl rfl).1.mpr ⟨0, by decide⟩
  · exact (settle_ends_iff hpin rfl rfl).2 (by decide)

end SocChess.Usb
