import SocChess.UsbMouseBridge

/-!
# What the bridge leaves on channel 1

Most exits of the bridge loop do not write the GPIO. This module follows channel 1
over whole runs of the loop, with any behaviour of the USB stack.

* `Monitor` adds the history that the properties talk about: the last mouse report
  since `USB_STATE_RUNNING` was entered, and whether the report buffer still holds it.
* `bridge_not_clean`: a keyboard puts its keycodes where the displacement of a mouse
  is read, so the channel is not clean after every iteration.
* `bridge_polls`: it is clean after the iterations that poll a mouse, and after the
  idle ones that find it zero; a zero channel stays zero while the polls return nothing.
-/

namespace SocChess

/-! ## The history of a run -/

/-- The bridge with the history of its mouse reports. -/
structure Monitor extends Bridge where
  /-- The previous iteration was in `USB_STATE_RUNNING`. -/
  running : Bool
  /-- The last report received since `USB_STATE_RUNNING` was entered. -/
  lastReport : Option BootMouseReport
  /-- No failing poll has changed the report buffer since then. -/
  intact : Bool
deriving DecidableEq, Repr

namespace Monitor

def start (device : Byte) (buf : BootMouseReport) (kbdbuf : BootKbdReport) : Monitor where
  toBridge := Bridge.start device buf kbdbuf
  running := false
  lastReport := none
  intact := false

/-- A mouse report is received in this iteration. -/
def Receives (m : Monitor) (it : Iteration) : Prop := m.polls it 2#8 ∧ it.rcode = 0#8

instance (m : Monitor) (it : Iteration) : Decidable (m.Receives it) := by
  unfold Receives
  infer_instance

def iterate (m : Monitor) (it : Iteration) : Monitor where
  toBridge := m.toBridge.iterate it
  running := it.taskState = usbStateRunning
  lastReport :=
    if m.Receives it then some it.buf
    else if it.taskState = usbStateRunning ∧ m.running = false then none
    else m.lastReport
  intact :=
    if m.Receives it then true
    else if m.polls it 2#8 then m.intact && it.buf = m.buf
    else m.intact

theorem iterate_toBridge (m : Monitor) (it : Iteration) :
    (m.iterate it).toBridge = m.toBridge.iterate it := rfl

abbrev run : Monitor → List Iteration → Monitor := Clocked.run iterate

/-- What a clean channel is at the end of an iteration: no motion but that of a
report received in it, and no button but that of the last report. -/
def CleanAfter (m : Monitor) (it : Iteration) : Prop :=
  let w := (m.iterate it).channel1
  (usbDeltaX w, usbDeltaY w) = (if m.Receives it then (it.buf.Xdispl, it.buf.Ydispl) else (0, 0)) ∧
  (Click w = 0#8 ∨ ∃ r ∈ (m.iterate it).lastReport, Click w = r.button)

instance (m : Monitor) (it : Iteration) : Decidable (m.CleanAfter it) := by
  unfold CleanAfter
  infer_instance

/-- The buffer holds the last report as long as no failing poll has changed it. -/
def Remembers (m : Monitor) : Prop := m.intact = true → ∀ r ∈ m.lastReport, m.buf = r

theorem iterate_remembers (m : Monitor) (it : Iteration) (h : m.Remembers) :
    (m.iterate it).Remembers := by
  intro hintact r hr
  by_cases hrec : m.Receives it
  · -- The report has just been read into the buffer.
    have hreport : it.buf = r := by simpa [iterate, hrec] using hr
    rw [iterate_toBridge, iterate_polls_mouse hrec.1, pollMouse_buf, hreport]
  · have hlast : r ∈ m.lastReport := by
      simp only [iterate, hrec, if_false] at hr
      split at hr
      · cases hr
      · exact hr
    by_cases hmouse : m.polls it 2#8
    · obtain ⟨hbefore, hsame⟩ : m.intact = true ∧ it.buf = m.buf := by
        simpa [iterate, hrec, hmouse] using hintact
      rw [iterate_toBridge, iterate_polls_mouse hmouse, pollMouse_buf, hsame]
      exact h hbefore r hlast
    · have hbefore : m.intact = true := by simpa [iterate, hrec, hmouse] using hintact
      rw [iterate_toBridge, iterate_buf hmouse]
      exact h hbefore r hlast

theorem run_remembers (device : Byte) (buf : BootMouseReport) (kbdbuf : BootKbdReport)
    (is : List Iteration) : ((start device buf kbdbuf).run is).Remembers :=
  Clocked.run_invariant iterate_remembers (by simp [Remembers, start]) is

end Monitor

/-! ## The channel -/

section Channel

variable {m : Monitor} {it : Iteration}

/-- After a mouse poll the displacement is that of the report received in it, and
zero otherwise. -/
theorem displacement_after_poll (h : m.polls it 2#8) :
    usbDeltaX (m.iterate it).channel1 = (if it.rcode = 0#8 then it.buf.Xdispl else 0#8) ∧
    usbDeltaY (m.iterate it).channel1 = if it.rcode = 0#8 then it.buf.Ydispl else 0#8 := by
  rw [Monitor.iterate_toBridge, iterate_polls_mouse h, pollMouse_channel1]
  split
  · next hnak =>
    have hfail : it.rcode ≠ 0#8 := by
      rw [hnak]
      decide
    rw [if_neg hfail, if_neg hfail]
    exact ⟨rfl, rfl⟩
  · split
    · next hfault =>
      obtain ⟨hx, hy, -⟩ := button_fields it.buf.button
      simp only [hx, hy, and_self]
    · next hok =>
      obtain ⟨hx, hy, -⟩ := mouseWord_fields it.buf
      have hzero : it.rcode = 0#8 := not_not.mp hok
      rw [hx, hy, if_pos hzero, if_pos hzero]
      exact ⟨rfl, rfl⟩

/-- After a mouse poll the click byte is that of the report buffer, and zero after a
NAK. -/
theorem click_after_poll (h : m.polls it 2#8) :
    Click (m.iterate it).channel1 = if it.rcode = hrNAK then 0#8 else it.buf.button := by
  rw [Monitor.iterate_toBridge, iterate_polls_mouse h, pollMouse_channel1]
  split
  · rfl
  · split
    · exact (button_fields it.buf.button).2.2
    · exact (mouseWord_fields it.buf).2.2

theorem buf_after_poll (h : m.polls it 2#8) : (m.iterate it).buf = it.buf := by
  rw [Monitor.iterate_toBridge, iterate_polls_mouse h, pollMouse_buf]

/-- A mouse poll that returns a report or a NAK leaves the channel clean; so does one that
fails while the buffer holds the last report. -/
theorem clean_of_poll (hm : m.Remembers) (h : m.polls it 2#8)
    (hlast : it.rcode = 0#8 ∨ it.rcode = hrNAK ∨
      ((m.iterate it).intact = true ∧ (m.iterate it).lastReport ≠ none)) : m.CleanAfter it := by
  obtain ⟨hx, hy⟩ := displacement_after_poll h
  refine ⟨?_, ?_⟩
  · rw [hx, hy]
    by_cases hok : it.rcode = 0#8
    · rw [if_pos hok, if_pos hok, if_pos (show m.Receives it from ⟨h, hok⟩)]
    · rw [if_neg hok, if_neg hok, if_neg fun hrec : m.Receives it => hok hrec.2]
      rfl
  · rw [click_after_poll h]
    rcases hlast with hok | hnak | ⟨hintact, hsome⟩
    · have hreport : (m.iterate it).lastReport = some it.buf := by
        simp [Monitor.iterate, show m.Receives it from ⟨h, hok⟩]
      rw [if_neg (by rw [hok]; decide)]
      exact .inr ⟨it.buf, hreport, rfl⟩
    · exact .inl (if_pos hnak)
    · obtain ⟨r, hr⟩ := Option.ne_none_iff_exists'.mp hsome
      have hbuf : (m.iterate it).buf = r := Monitor.iterate_remembers m it hm hintact r hr
      rw [buf_after_poll h] at hbuf
      rw [hbuf]
      split
      · exact .inl rfl
      · exact .inr ⟨r, hr, rfl⟩

/-- Without a mouse poll or a keyboard report a zero channel stays zero. -/
theorem channel1_idle (hmouse : ¬ m.polls it 2#8) (hkbd : ¬ (m.polls it 1#8 ∧ it.rcode = 0#8))
    (hzero : m.channel1 = 0#32) : (m.iterate it).channel1 = 0#32 := by
  rw [Monitor.iterate_toBridge]
  by_cases hpolls : m.polls it 1#8
  · rw [iterate_polls_keyboard hpolls, pollKeyboard_channel1, if_neg fun hok => hkbd ⟨hpolls, hok⟩,
      hzero]
  · rw [(iterate_idle hpolls hmouse).1, hzero]

/-- A zero channel is clean. -/
theorem clean_of_zero (hmouse : ¬ m.polls it 2#8) (hzero : (m.iterate it).channel1 = 0#32) :
    m.CleanAfter it := by
  unfold Monitor.CleanAfter
  rw [hzero, if_neg fun hrec : m.Receives it => hmouse hrec.1]
  exact ⟨rfl, .inl rfl⟩

/-- A zero channel stays zero while the polls return `hrNAK`. -/
theorem channel1_nak (hzero : m.channel1 = 0#32) (hnak : it.rcode = hrNAK) :
    (m.iterate it).channel1 = 0#32 := by
  by_cases hmouse : m.polls it 2#8
  · rw [Monitor.iterate_toBridge, iterate_polls_mouse hmouse, pollMouse_channel1, if_pos hnak]
  · refine channel1_idle hmouse (fun hrec => ?_) hzero
    rw [hrec.2] at hnak
    exact absurd hnak (by decide)

end Channel

/-- A key press looks like motion: after the report of a keyboard with `a` pressed the
channel carries a displacement, and no mouse report was ever received. -/
theorem bridge_not_clean :
    ¬ ∀ (device : Byte) (buf : BootMouseReport) (kbdbuf : BootKbdReport) (before : List Iteration)
      (it : Iteration), ((Monitor.start device buf kbdbuf).run before).CleanAfter it := by
  intro hclaim
  let keys : BootKbdReport := ⟨#v[4#8, 0#8, 0#8, 0#8, 0#8, 0#8]⟩
  let poll : Iteration := ⟨usbStateRunning, 1#8, 0#8, ⟨0#8, 0#8, 0#8⟩, keys⟩
  have hclean := hclaim 0#8 ⟨0#8, 0#8, 0#8⟩ keys [poll] poll
  revert hclean
  decide

-- The mouse is unplugged while it moves: nothing clears the word of its last report.
example :
    let report : BootMouseReport := ⟨1#8, 5#8, 0#8⟩
    let keys : BootKbdReport := ⟨.replicate 6 0#8⟩
    let mouse : Iteration := ⟨usbStateRunning, 2#8, 0#8, report, keys⟩
    let unplug : Iteration := ⟨0#8, 2#8, hrNAK, report, keys⟩
    ¬ ((Monitor.start 0#8 report keys).run [mouse, mouse]).CleanAfter unplug := by
  decide

/-- What channel 1 carries in every run of the loop. After a mouse poll the displacement
is clean, and the button too, after a failed poll if the buffer holds the last report. After
an iteration that gets nothing from a device the channel is clean if it was zero before.
After a keyboard report it carries the keycodes. A zero channel stays zero while the polls
return nothing new. -/
theorem bridge_polls (device : Byte) (buf : BootMouseReport) (kbdbuf : BootKbdReport)
    (before : List Iteration) (it : Iteration) :
    let m := (Monitor.start device buf kbdbuf).run before
    let m' := m.iterate it
    (m.polls it 2#8 →
      (usbDeltaX m'.channel1 = if it.rcode = 0#8 then it.buf.Xdispl else 0#8) ∧
      (usbDeltaY m'.channel1 = if it.rcode = 0#8 then it.buf.Ydispl else 0#8) ∧
      (it.rcode = 0#8 ∨ it.rcode = hrNAK ∨ (m'.intact = true ∧ m'.lastReport ≠ none) →
        m.CleanAfter it)) ∧
    (¬ m.polls it 2#8 → ¬ (m.polls it 1#8 ∧ it.rcode = 0#8) → m.channel1 = 0#32 →
      m.CleanAfter it) ∧
    (m.polls it 1#8 → it.rcode = 0#8 →
      usbDeltaX m'.channel1 = it.kbdbuf.keycode.get 0 ∧
      usbDeltaY m'.channel1 = it.kbdbuf.keycode.get 1 ∧
      Click m'.channel1 = it.kbdbuf.keycode.get 2) ∧
    (m.channel1 = 0#32 → ∀ rest : List Iteration, (∀ i ∈ rest, i.rcode = hrNAK) →
      (m.run rest).channel1 = 0#32) := by
  intro m m'
  have hm : m.Remembers := Monitor.run_remembers device buf kbdbuf before
  refine ⟨fun hmouse => ?_, fun hmouse hkbd hzero => ?_, fun hkbd hok => ?_,
    fun hzero rest hnak => ?_⟩
  · obtain ⟨hx, hy⟩ := displacement_after_poll hmouse
    exact ⟨hx, hy, clean_of_poll hm hmouse⟩
  · exact clean_of_zero hmouse (channel1_idle hmouse hkbd hzero)
  · have hword : m'.channel1 = kbdWord it.kbdbuf := by
      rw [Monitor.iterate_toBridge, iterate_polls_keyboard hkbd, pollKeyboard_channel1, if_pos hok]
    rw [hword]
    exact kbdWord_fields it.kbdbuf
  · exact Clocked.run_invariant_mem (I := fun m : Monitor => m.channel1 = 0#32)
      (P := fun i => i.rcode = hrNAK)
      (fun _ _ hnak hzero => channel1_nak hzero hnak) hzero hnak

/-- The first iteration finds a mouse, and the second gets a report from it. -/
theorem bridge_polls_report :
    let report : BootMouseReport := ⟨1#8, 5#8, 0xfe#8⟩
    let keys : BootKbdReport := ⟨.replicate 6 0#8⟩
    let poll : Iteration := ⟨usbStateRunning, 2#8, 0#8, report, keys⟩
    let m := (Monitor.start 0#8 ⟨0#8, 0#8, 0#8⟩ keys).run [poll]
    usbDeltaX (m.iterate poll).channel1 = 5#8 ∧ usbDeltaY (m.iterate poll).channel1 = 0xfe#8 ∧
    m.CleanAfter poll := by
  intro report keys poll m
  obtain ⟨hmouse, -⟩ := bridge_polls 0#8 ⟨0#8, 0#8, 0#8⟩ keys [poll] poll
  obtain ⟨hx, hy, hclean⟩ := hmouse (by decide)
  exact ⟨hx.trans (by decide), hy.trans (by decide), hclean (.inl rfl)⟩

end SocChess
