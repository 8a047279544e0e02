import Onebox.Machine

/-! The receive queue of the ZigBee application: `zigb_read_pkt_thread` links packets under
`mutex1` and sets `pkt_pending`, and the main thread tests the flag without the mutex. The
thread runs before `rsi_zb_app_init` clears the flag. -/

namespace Onebox

open Machine

variable {α : Type}

/-- The receive thread: in `recv`, before the mutex with a packet, and within the critical section. -/
inductive ZigbRxPc (α : Type)
  | wait
  | got (p : α)
  | locked (p : α)
  | linked
  | counted
  | flagged
  | stopped

/-- The main thread: before `rsi_zb_app_init`, at the test, in `rsi_frame_read` before, within and behind
the critical section. -/
inductive ZigbMainPc (α : Type)
  | init
  | test
  | lock
  | locked
  | took (p : Option α)
  | use (p : Option α)
  | crashed
  | left

def ZigbRxPc.inCs : ZigbRxPc α → Bool
  | .locked _ | .linked | .counted | .flagged => true
  | _ => false

/-- The packet is in the queue, and the flag is not yet set for it. -/
def ZigbRxPc.unflagged : ZigbRxPc α → Bool
  | .linked | .counted => true
  | _ => false

/-- How many packets of the queue are not yet counted. -/
def ZigbRxPc.uncounted : ZigbRxPc α → Nat
  | .linked => 1
  | _ => 0

def ZigbRxPc.inHand : ZigbRxPc α → List α
  | .got p | .locked p => [p]
  | _ => []

def ZigbMainPc.inCs : ZigbMainPc α → Bool
  | .locked | .took _ => true
  | _ => false

def ZigbMainPc.held : ZigbMainPc α → List α
  | .took p | .use p => p.toList
  | _ => []

def ZigbMainPc.isInit : ZigbMainPc α → Bool
  | .init => true
  | _ => false

/-- `rcv_queue` with `pkt_pending`, the two threads, and what has arrived and been consumed so far. -/
structure ZigbRcv (α : Type) where
  rx : ZigbRxPc α
  main : ZigbMainPc α
  queue : List α
  pendingPktCount : Nat
  pktPending : Bool
  arrived : List α
  consumed : List α

inductive ZigbAct (α : Type)
  | recv (p : α)
  | recvFails
  | rx
  | main
  | processFails

namespace ZigbRcv

def start : ZigbRcv α := ⟨.wait, .init, [], 0, false, [], []⟩

variable (s : ZigbRcv α)

def advanceRx : Option (ZigbRcv α) :=
  match s.rx with
  | .wait | .stopped => none
  | .got p => if s.main.inCs then none else some { s with rx := .locked p }
  | .locked p => some { s with queue := s.queue ++ [p], rx := .linked }
  | .linked => some { s with pendingPktCount := (s.pendingPktCount + 1) % 2 ^ 16, rx := .counted }
  | .counted => some { s with pktPending := true, rx := .flagged }
  | .flagged => some { s with rx := .wait }

/-- A count of zero gives NULL, and an empty queue is only then looked at when the count is not zero. -/
def rsiDequeueFromRcvQ : ZigbRcv α :=
  if 0 < s.pendingPktCount then
    match s.queue with
    | [] => { s with main := .crashed }
    | p :: rest =>
      { s with
        pendingPktCount := s.pendingPktCount - 1
        queue := rest
        pktPending := if rest.isEmpty then false else s.pktPending
        main := .took (some p) }
  else { s with main := .took none }

def advanceMain : Option (ZigbRcv α) :=
  match s.main with
  | .init => some { s with pktPending := false, main := .test }
  | .test => some { s with main := if s.pktPending then .lock else .test }
  | .lock => if s.rx.inCs then none else some { s with main := .locked }
  | .locked => some s.rsiDequeueFromRcvQ
  | .took p => some { s with main := .use p }
  | .use (some p) => some { s with consumed := s.consumed ++ [p], main := .test }
  -- the data of a NULL packet is looked at
  | .use none => some { s with main := .crashed }
  | .crashed | .left => none

def step : ZigbAct α → Option (ZigbRcv α)
  | .recv p =>
    match s.rx with
    | .wait => some { s with rx := .got p, arrived := s.arrived ++ [p] }
    | _ => none
  | .recvFails =>
    match s.rx with
    | .wait => some { s with rx := .stopped }
    | _ => none
  | .rx => s.advanceRx
  | .main => s.advanceMain
  | .processFails =>
    match s.main with
    | .use (some p) => some { s with consumed := s.consumed ++ [p], main := .left }
    | _ => none

/-- `rsi_zb_app_init` finds the flag clear, and the count of pending packets does not wrap. -/
def orderly : ZigbAct α → Bool
  | .rx =>
    match s.rx with
    | .linked => s.pendingPktCount + 1 < 2 ^ 16
    | _ => true
  | .main => !s.main.isInit || !s.pktPending
  | _ => true

end ZigbRcv

/-- The hand-over as it is meant: a packet is there to be dequeued, the packets are consumed in the order in
which they arrive, and the flag tells the main thread whether there is one. -/
structure HandsOver (s : ZigbRcv α) : Prop where
  nonempty : s.main = .locked → s.queue ≠ []
  alive : s.main ≠ .crashed
  order : s.arrived = s.consumed ++ (s.main.held ++ (s.queue ++ s.rx.inHand))
  flag : s.main = .test → s.rx.inCs = false → (s.pktPending = true ↔ s.queue ≠ [])

/-- What the main thread relies on in each place: a packet to be dequeued, the mutex, a packet in hand. -/
def ZigbMainPc.Relies (nonempty : Prop) (busy : Bool) : ZigbMainPc α → Prop
  | .lock => nonempty
  | .locked => nonempty ∧ busy = false
  | .took p => p ≠ none ∧ busy = false
  | .use p => p ≠ none
  | .crashed => False
  | .init | .test | .left => True

structure ZigbInv (s : ZigbRcv α) : Prop where
  count : s.queue.length = s.pendingPktCount + s.rx.uncounted
  linked : s.rx.unflagged = true → s.queue ≠ []
  flag : s.rx.unflagged = false → (s.pktPending = true ↔ s.queue ≠ [])
  main : s.main.Relies (s.queue ≠ []) s.rx.inCs
  order : s.arrived = s.consumed ++ (s.main.held ++ (s.queue ++ s.rx.inHand))

section Invariant

variable {s t : ZigbRcv α} {a : ZigbAct α} {m : ZigbMainPc α} {nonempty nonempty' : Prop} {busy busy' : Bool}

theorem ZigbMainPc.Relies.not_busy (h : m.Relies nonempty busy) (hcs : m.inCs = true) : busy = false := by
  cases m with
  | locked | took => exact h.2
  | _ => cases hcs

theorem ZigbMainPc.Relies.mono (h : m.Relies nonempty busy) (hne : nonempty → nonempty')
    (hbusy : m.inCs = true → busy' = false) : m.Relies nonempty' busy' := by
  cases m with
  | lock => exact hne h
  | locked => exact ⟨hne h.1, hbusy rfl⟩
  | took p => exact ⟨h.1, hbusy rfl⟩
  | use p => exact h
  | crashed => exact h
  | init | test | left => exact trivial

theorem advanceRx_inv (h : ZigbInv s) (hok : s.orderly .rx = true) (ht : s.advanceRx = some t) : ZigbInv t := by
  obtain ⟨rx, main, queue, count, pending, arrived, consumed⟩ := s
  obtain ⟨hcount, hlinked, hflag, hmain, horder⟩ := h
  dsimp only at *
  cases rx with
  | wait => cases ht
  | stopped => cases ht
  | got p =>
    obtain ⟨hcs, ht⟩ := Option.ite_none_left_eq_some.mp ht
    cases ht
    exact ⟨hcount, hlinked, hflag, hmain.mono id fun hm => absurd hm hcs, horder⟩
  | locked p =>
    cases ht
    have hne : queue ++ [p] ≠ [] := List.append_ne_nil_of_right_ne_nil _ (List.cons_ne_nil _ _)
    refine ⟨?_, fun _ => hne, fun h => (by cases h), hmain.mono (fun _ => hne) hmain.not_busy, ?_⟩
    · rw [List.length_append, hcount]
      rfl
    · rw [horder]
      simp [ZigbRxPc.inHand]
  | linked =>
    cases ht
    have hsmall : (count + 1) % 2 ^ 16 = count + 1 := Nat.mod_eq_of_lt (of_decide_eq_true hok)
    refine ⟨?_, fun _ => hlinked rfl, fun h => (by cases h), hmain, horder⟩
    show queue.length = (count + 1) % 2 ^ 16
    rw [hsmall, hcount]
    rfl
  | counted =>
    cases ht
    have hne := hlinked rfl
    exact ⟨hcount, fun _ => hne, fun _ => ⟨fun _ => hne, fun _ => rfl⟩, hmain, horder⟩
  | flagged =>
    cases ht
    exact ⟨hcount, hlinked, hflag, hmain.mono id fun _ => rfl, horder⟩

theorem ZigbRxPc.settled {rx : ZigbRxPc α} (h : rx.inCs = false) : rx.uncounted = 0 ∧ rx.unflagged = false := by
  cases rx with
  | linked | counted => cases h
  | _ => exact ⟨rfl, rfl⟩

/-- Under the mutex every packet is counted and flagged, so that the one at the head is taken. -/
theorem rsiDequeueFromRcvQ_inv (h : ZigbInv s) (hmain : s.main = .locked) : ZigbInv s.rsiDequeueFromRcvQ := by
  obtain ⟨rx, main, queue, count, pending, arrived, consumed⟩ := s
  dsimp only at hmain
  subst hmain
  obtain ⟨hcount, hlinked, hflag, ⟨hne, hrx⟩, horder⟩ := h
  dsimp only at *
  obtain ⟨huncounted, hunflagged⟩ := ZigbRxPc.settled hrx
  have hpos : 0 < count := by
    have hlen := List.length_pos_iff.mpr hne
    omega
  rw [ZigbRcv.rsiDequeueFromRcvQ, if_pos hpos]
  cases queue with
  | nil => exact absurd rfl hne
  | cons p rest =>
    refine ⟨?_, fun h => ?_, fun _ => ?_, ⟨Option.some_ne_none p, hrx⟩, horder⟩
    · rw [List.length_cons, huncounted] at hcount
      show rest.length = count - 1 + rx.uncounted
      omega
    · exact absurd (hunflagged.symm.trans h) Bool.false_ne_true
    · have hset := (hflag hunflagged).mpr hne
      cases rest with
      | nil => exact iff_of_false Bool.false_ne_true fun h => h rfl
      | cons q rest => exact iff_of_true hset (List.cons_ne_nil _ _)

theorem ZigbInv.nonempty_of_pending (h : ZigbInv s) (hpend : s.pktPending = true) : s.queue ≠ [] := by
  cases hrx : s.rx.unflagged with
  | true => exact h.linked hrx
  | false => exact (h.flag hrx).mp hpend

/-- The packet in use is consumed, and the main thread goes to a place that relies on nothing. -/
theorem ZigbInv.consume (h : ZigbInv s) {p : α} (hmain : s.main = .use (some p)) (hheld : m.held = [])
    (hrelies : ∀ nonempty busy, m.Relies nonempty busy) :
    ZigbInv { s with consumed := s.consumed ++ [p], main := m } := by
  refine ⟨h.count, h.linked, h.flag, hrelies _ _, ?_⟩
  have horder := h.order
  rw [hmain] at horder
  show s.arrived = (s.consumed ++ [p]) ++ (m.held ++ (s.queue ++ s.rx.inHand))
  rw [hheld, horder, List.append_assoc]
  rfl

theorem advanceMain_inv (h : ZigbInv s) (hok : s.orderly .main = true) (ht : s.advanceMain = some t) :
    ZigbInv t := by
  have hrelies := h.main
  have horder := h.order
  cases hmain : s.main with
  | locked =>
    simp only [ZigbRcv.advanceMain, hmain] at ht
    cases ht
    exact rsiDequeueFromRcvQ_inv h hmain
  | init =>
    -- the flag is clear, and clearing it changes nothing
    simp only [ZigbRcv.orderly, hmain, ZigbMainPc.isInit, Bool.not_true, Bool.false_or, Bool.not_eq_true'] at hok
    simp only [ZigbRcv.advanceMain, hmain] at ht
    cases ht
    rw [hmain] at horder
    have hflag := h.flag
    rw [hok] at hflag
    exact ⟨h.count, h.linked, hflag, trivial, horder⟩
  | test =>
    simp only [ZigbRcv.advanceMain, hmain] at ht
    cases ht
    rw [hmain] at horder
    by_cases hpend : s.pktPending = true
    · rw [if_pos hpend]
      exact ⟨h.count, h.linked, h.flag, h.nonempty_of_pending hpend, horder⟩
    · rw [if_neg hpend]
      exact ⟨h.count, h.linked, h.flag, trivial, horder⟩
  | lock =>
    simp only [ZigbRcv.advanceMain, hmain] at ht
    obtain ⟨hcs, ht⟩ := Option.ite_none_left_eq_some.mp ht
    cases ht
    rw [hmain] at horder hrelies
    exact ⟨h.count, h.linked, h.flag, ⟨hrelies, eq_false_of_ne_true hcs⟩, horder⟩
  | took p =>
    simp only [ZigbRcv.advanceMain, hmain] at ht
    cases ht
    rw [hmain] at horder hrelies
    exact ⟨h.count, h.linked, h.flag, hrelies.1, horder⟩
  | use p =>
    rw [hmain] at hrelies
    cases p with
    | none => exact absurd rfl hrelies
    | some p =>
      simp only [ZigbRcv.advanceMain, hmain] at ht
      cases ht
      exact h.consume hmain rfl fun _ _ => trivial
  | crashed =>
    rw [hmain] at hrelies
    exact hrelies.elim
  | left =>
    simp only [ZigbRcv.advanceMain, hmain] at ht
    cases ht

/-- The receiving thread leaves its wait with a packet in hand or without one. -/
theorem ZigbInv.received (h : ZigbInv s) (hrx : s.rx = .wait) {rx : ZigbRxPc α} {arrived : List α}
    (hcs : rx.inCs = false) (harrived : arrived = s.arrived ++ rx.inHand) : ZigbInv { s with rx, arrived } := by
  obtain ⟨huncounted, hunflagged⟩ := ZigbRxPc.settled hcs
  have hcount := h.count
  have hflag := h.flag
  have horder := h.order
  rw [hrx] at hcount hflag horder
  refine ⟨?_, fun hset => ?_, fun _ => hflag rfl, h.main.mono id fun _ => hcs, ?_⟩
  · show s.queue.length = s.pendingPktCount + rx.uncounted
    rw [huncounted, hcount]
    rfl
  · exact absurd (hunflagged.symm.trans hset) Bool.false_ne_true
  · show arrived = s.consumed ++ (s.main.held ++ (s.queue ++ rx.inHand))
    rw [harrived, horder]
    simp [ZigbRxPc.inHand]

theorem zigb_step_inv (h : ZigbInv s) (hok : s.orderly a = true) (ht : s.step a = some t) : ZigbInv t := by
  cases a with
  | rx => exact advanceRx_inv h hok ht
  | main => exact advanceMain_inv h hok ht
  | recv p =>
    cases hrx : s.rx with
    | wait =>
      simp only [ZigbRcv.step, hrx] at ht
      cases ht
      exact h.received hrx rfl rfl
    | _ => simp [ZigbRcv.step, hrx] at ht
  | recvFails =>
    cases hrx : s.rx with
    | wait =>
      simp only [ZigbRcv.step, hrx] at ht
      cases ht
      exact h.received hrx rfl (List.append_nil _).symm
    | _ => simp [ZigbRcv.step, hrx] at ht
  | processFails =>
    cases hmain : s.main with
    | use p =>
      cases p with
      | none => simp [ZigbRcv.step, hmain] at ht
      | some p =>
        simp only [ZigbRcv.step, hmain] at ht
        cases ht
        exact h.consume hmain rfl fun _ _ => trivial
    | _ => simp [ZigbRcv.step, hmain] at ht

theorem ZigbInv.handsOver (h : ZigbInv s) : HandsOver s := by
  have hrelies := h.main
  refine ⟨fun hmain => ?_, fun hmain => ?_, h.order, fun _ hcs => h.flag (ZigbRxPc.settled hcs).2⟩
  · rw [hmain] at hrelies
    exact hrelies.1
  · rw [hmain] at hrelies
    exact hrelies

/-- In every run in which `rsi_zb_app_init` finds the flag clear and never 65536 packets are pending, the
packets are handed over as meant. -/
theorem zigb_hands_over {as : List (ZigbAct α)} (hok : Meets ZigbRcv.step ZigbRcv.orderly ZigbRcv.start as)
    (hrun : run ZigbRcv.step ZigbRcv.start as = some s) : HandsOver s := by
  have hstart : ZigbInv (ZigbRcv.start : ZigbRcv α) :=
    ⟨rfl, fun h => (by cases h), fun _ => iff_of_false Bool.false_ne_true fun h => h rfl, trivial, rfl⟩
  exact (run_invariant zigb_step_inv hstart hok hrun).handsOver

end Invariant

/-- The second packet arrives while the main loop is at the first. -/
def twoPackets : List (ZigbAct Nat) :=
  [.main, .recv 7, .rx, .rx, .rx, .rx, .rx, .main, .recv 8, .main, .main, .main, .rx, .rx, .main, .main, .rx, .rx,
    .main, .rx, .main, .main, .main, .main]

/-- The packet is in the queue before `rsi_zb_app_init`. -/
def packetFirst : List (ZigbAct Nat) := [.recv 7, .rx, .rx, .rx, .rx, .rx, .main]

theorem zigb_hands_over_twoPackets :
    Meets ZigbRcv.step ZigbRcv.orderly ZigbRcv.start twoPackets ∧
      ∃ s, run ZigbRcv.step ZigbRcv.start twoPackets = some s ∧ s.consumed = [7, 8] ∧ HandsOver s := by
  have hok : Meets ZigbRcv.step ZigbRcv.orderly ZigbRcv.start twoPackets := by decide
  exact ⟨hok, exists_run_and (by decide) fun s hs => zigb_hands_over hok hs⟩

/-- The flag is cleared for good, with a packet in the queue. -/
theorem packetFirst_stranded :
    ∃ s, run ZigbRcv.step ZigbRcv.start packetFirst = some s ∧ s.queue = [7] ∧ ¬ HandsOver s := by
  refine exists_run_and (by decide) fun s hs h => ?_
  have hend : run ZigbRcv.step ZigbRcv.start packetFirst = some ⟨.wait, .test, [7], 1, false, [7], []⟩ := rfl
  rw [hend] at hs
  cases hs
  have hflag := (h.flag rfl rfl).mpr (List.cons_ne_nil _ _)
  cases hflag

end Onebox
