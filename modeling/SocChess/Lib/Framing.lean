import Mathlib.Data.List.Basic
import Mathlib.Data.Nat.Basic

/-!
# Messages in packets

A receiver that asks for `n` elements gets them in packets of at most `m`. It takes a
packet of fewer than `m` as the last one, and stops once it has `n` elements.

* `Framed n m earlier last`: such a receiver takes the packets `earlier` and then `last`.
* `fragments m n msg`: the packets of a sender that knows this. They are framed
  (`framed_fragments`), and every framed sequence of packets of at most `m` elements is
  the fragments of its contents (`fragments_of_framed`).
* `framed_fits`, `framed_overrun`: a receiver gets no more than it asks for, whatever the
  packets of at most `m` elements are, if and only if `m` divides `n`.
-/

namespace Framing

variable {α : Type*} {n m : Nat}

/-- Each of the packets `earlier` is full and leaves something to ask for. -/
structure Pending (n m : Nat) (earlier : List (List α)) : Prop where
  full : ∀ packet ∈ earlier, m ≤ packet.length
  wanted : earlier ≠ [] → earlier.flatten.length < n

/-- After the packets `earlier`, `last` is short or leaves nothing to ask for. -/
structure Framed (n m : Nat) (earlier : List (List α)) (last : List α) : Prop
    extends Pending n m earlier where
  ended : last.length < m ∨ n ≤ earlier.flatten.length + last.length

theorem pending_nil : Pending n m ([] : List (List α)) := ⟨nofun, nofun⟩

theorem length_flatten_cons (packet : List α) (packets : List (List α)) :
    (packet :: packets).flatten.length = packet.length + packets.flatten.length := by
  rw [List.flatten_cons, List.length_append]

theorem pending_cons {packet : List α} {earlier : List (List α)} :
    Pending n m (packet :: earlier) ↔
      m ≤ packet.length ∧ packet.length < n ∧ Pending (n - packet.length) m earlier := by
  constructor
  · rintro ⟨hfull, hwanted⟩
    have hlt := hwanted (List.cons_ne_nil _ _)
    rw [length_flatten_cons] at hlt
    refine ⟨hfull packet List.mem_cons_self, by omega, ?_, ?_⟩
    · exact fun packet' hmem => hfull packet' (List.mem_cons_of_mem _ hmem)
    · intro _
      omega
  · rintro ⟨hm, hn, hfull, hwanted⟩
    refine ⟨List.forall_mem_cons.mpr ⟨hm, hfull⟩, fun _ => ?_⟩
    rw [length_flatten_cons]
    cases earlier with
    | nil => simpa using hn
    | cons packet' earlier =>
      have hlt := hwanted (List.cons_ne_nil _ _)
      omega

theorem framed_nil {last : List α} : Framed n m [] last ↔ last.length < m ∨ n ≤ last.length := by
  constructor
  · intro h
    simpa using h.ended
  · intro h
    exact ⟨pending_nil, by simpa using h⟩

theorem framed_cons {packet : List α} {earlier : List (List α)} {last : List α} :
    Framed n m (packet :: earlier) last ↔
      m ≤ packet.length ∧ packet.length < n ∧ Framed (n - packet.length) m earlier last := by
  constructor
  · rintro ⟨hpending, hended⟩
    obtain ⟨hm, hn, hrest⟩ := pending_cons.mp hpending
    rw [length_flatten_cons] at hended
    exact ⟨hm, hn, hrest, by omega⟩
  · rintro ⟨hm, hn, hrest, hended⟩
    refine ⟨pending_cons.mpr ⟨hm, hn, hrest⟩, ?_⟩
    rw [length_flatten_cons]
    omega

/-! ## Fragments -/

/-- `msg` in packets for a receiver that asks for `n`: full packets, and a short one if it
does not get all it asks for. -/
def fragments (m n : Nat) (msg : List α) : List (List α) :=
  if 0 < m ∧ m ≤ msg.length ∧ m < n then
    msg.take m :: fragments m (n - m) (msg.drop m)
  else [msg]
termination_by msg.length
decreasing_by
  rw [List.length_drop]
  omega

theorem fragments_more {msg : List α} (hm : 0 < m) (hlen : m ≤ msg.length) (hn : m < n) :
    fragments m n msg = msg.take m :: fragments m (n - m) (msg.drop m) := by
  rw [fragments, if_pos ⟨hm, hlen, hn⟩]

theorem fragments_last {msg : List α} (h : msg.length < m ∨ n ≤ m) : fragments m n msg = [msg] := by
  rw [fragments, if_neg (by omega)]

theorem flatten_fragments (m n : Nat) (msg : List α) : (fragments m n msg).flatten = msg := by
  fun_induction fragments m n msg with
  | case1 n msg h ih => rw [List.flatten_cons, ih, List.take_append_drop]
  | case2 n msg h => exact List.flatten_singleton

/-- The receiver takes the fragments of a message that is not longer than it asks for. -/
theorem framed_fragments {msg : List α} (hm : 0 < m) (hlen : msg.length ≤ n) :
    ∃ earlier last, fragments m n msg = earlier ++ [last] ∧ Framed n m earlier last := by
  fun_induction fragments m n msg with
  | case1 n msg h ih =>
    have htake : (msg.take m).length = m := List.length_take_of_le h.2.1
    obtain ⟨earlier, last, heq, hframed⟩ := ih (by rw [List.length_drop]; omega)
    refine ⟨msg.take m :: earlier, last, by rw [heq, List.cons_append], framed_cons.mpr ?_⟩
    rw [htake]
    exact ⟨Nat.le_refl m, h.2.2, hframed⟩
  | case2 n msg h => exact ⟨[], msg, rfl, framed_nil.mpr (by omega)⟩

/-- Framed packets of at most `m` elements are the fragments of their contents. -/
theorem fragments_of_framed {earlier : List (List α)} {last : List α} (hm : 0 < m)
    (h : Framed n m earlier last) (hearlier : ∀ packet ∈ earlier, packet.length ≤ m)
    (hlast : last.length ≤ m) :
    fragments m n (earlier ++ [last]).flatten = earlier ++ [last] := by
  induction earlier generalizing n with
  | nil =>
    have hended := framed_nil.mp h
    rw [List.nil_append, List.flatten_singleton]
    exact fragments_last (by omega)
  | cons packet earlier ih =>
    obtain ⟨hfull, hn, hrest⟩ := framed_cons.mp h
    have hpacket : packet.length = m :=
      Nat.le_antisymm (hearlier packet List.mem_cons_self) hfull
    rw [List.cons_append, List.flatten_cons, fragments_more hm, List.take_left' hpacket,
      List.drop_left' hpacket]
    · congr 1
      rw [hpacket] at hrest
      exact ih hrest fun packet' hmem => hearlier packet' (List.mem_cons_of_mem _ hmem)
    · rw [List.length_append]
      omega
    · rwa [← hpacket]

/-! ## How much is received -/

theorem length_flatten_eq {packets : List (List α)} (h : ∀ packet ∈ packets, packet.length = m) :
    packets.flatten.length = packets.length * m := by
  induction packets with
  | nil => simp
  | cons packet packets ih =>
    rw [List.flatten_cons, List.length_append, List.length_cons, Nat.add_one_mul,
      h packet List.mem_cons_self, ih fun packet' hmem => h packet' (List.mem_cons_of_mem _ hmem),
      Nat.add_comm]

theorem framed_fits {earlier : List (List α)} {last : List α} (hdvd : m ∣ n) (hn : 0 < n)
    (h : Framed n m earlier last) (hearlier : ∀ packet ∈ earlier, packet.length ≤ m)
    (hlast : last.length ≤ m) : (earlier ++ [last]).flatten.length ≤ n := by
  have hfull : ∀ packet ∈ earlier, packet.length = m := fun packet hmem =>
    Nat.le_antisymm (hearlier packet hmem) (h.full packet hmem)
  have hlength : earlier.flatten.length = earlier.length * m := length_flatten_eq hfull
  obtain ⟨k, rfl⟩ := hdvd
  have hlt : earlier.length * m < m * k := by
    cases earlier with
    | nil => simpa using hn
    | cons packet earlier =>
      rw [← hlength]
      exact h.wanted (List.cons_ne_nil _ _)
  have hk : earlier.length + 1 ≤ k := by
    rw [Nat.mul_comm] at hlt
    exact Nat.lt_of_mul_lt_mul_left hlt
  calc (earlier ++ [last]).flatten.length = earlier.length * m + last.length := by
        rw [List.flatten_append, List.length_append, hlength, List.flatten_singleton]
    _ ≤ earlier.length * m + m := Nat.add_le_add_left hlast _
    _ = m * (earlier.length + 1) := by rw [Nat.mul_add_one, Nat.mul_comm]
    _ ≤ m * k := Nat.mul_le_mul_left m hk

/-- Full packets only: if `m` does not divide `n`, the last one is too long. -/
theorem framed_overrun {packet : List α} (hpacket : packet.length = m) (hm : 0 < m)
    (hdvd : ¬ m ∣ n) :
    Framed n m (List.replicate (n / m) packet) packet ∧
      n < (List.replicate (n / m) packet ++ [packet]).flatten.length := by
  have hmod : 0 < n % m := Nat.pos_of_ne_zero fun h => hdvd (Nat.dvd_of_mod_eq_zero h)
  have hdiv : m * (n / m) + n % m = n := Nat.div_add_mod n m
  have hlt : n % m < m := Nat.mod_lt n hm
  have hlength : (List.replicate (n / m) packet).flatten.length = m * (n / m) := by
    rw [length_flatten_eq fun p hp => by rw [List.eq_of_mem_replicate hp, hpacket],
      List.length_replicate, Nat.mul_comm]
  refine ⟨⟨⟨?_, ?_⟩, ?_⟩, ?_⟩
  · intro p hp
    rw [List.eq_of_mem_replicate hp, hpacket]
  · intro _
    omega
  · right
    omega
  · rw [List.flatten_append, List.length_append, hlength, List.flatten_singleton]
    omega

end Framing
