import Onebox.QosLoop

/-! The transmit thread `sdio_scheduler_thread` and those who give it work: they append
a packet to a queue and then set `sdio_scheduler_event`. The thread has transmit
access, and the status register shows no full buffer. -/

namespace Onebox

open Machine

inductive ThreadPc
  | top
  | select
  | send (q : SoftQ)
  | check
  | wait
  | reset
  deriving DecidableEq, Repr

/-- `setters` counts those who have appended a packet and are about to set the event. -/
structure TxThread where
  qos : QosSys
  event : Bool
  pc : ThreadPc
  setters : Nat

inductive ThreadAct
  | thread
  | append (q : DataQ) (pk : Pkt)
  | appendMgmt (p : MgmtPkt)
  | beacon
  | setEvent

def QosSys.append (s : QosSys) (q : DataQ) (pk : Pkt) : QosSys :=
  { s with tx := { s.tx with queue := Function.update s.tx.queue q (s.tx.queue q ++ [pk]) } }

namespace TxThread

variable (t : TxThread)

/-- The thread goes on: a beacon is loaded, the queues are served, and then the thread waits for the event
and resets it. -/
def advance : Option TxThread :=
  match t.pc with
  | .top => some { t with qos := { t.qos with beaconEvent := false, counter := 0 }, pc := .select }
  | .select =>
    some { t with qos := t.qos.select.1, pc := t.qos.select.2.elim .check .send }
  | .send q =>
    let r := t.qos.send q (some 0#8)
    some { t with qos := r.1, pc := if r.2 then .select else .check }
  | .check => some { t with pc := if t.qos.beaconEvent then .reset else .wait }
  -- with a full buffer the wait is a timed one
  | .wait => if t.event || t.qos.bufferFull then some { t with pc := .reset } else none
  | .reset => some { t with event := false, pc := .top }

def step : ThreadAct → Option TxThread
  | .thread => t.advance
  | .append q pk => some { t with qos := t.qos.append q pk, setters := t.setters + 1 }
  | .appendMgmt p => some { t with qos := { t.qos with mgmtQ := t.qos.mgmtQ ++ [p] }, setters := t.setters + 1 }
  | .beacon => some { t with qos := { t.qos with beaconEvent := true }, setters := t.setters + 1 }
  | .setEvent => if t.setters = 0 then none else some { t with event := true, setters := t.setters - 1 }

end TxThread

/-- A packet waits in a queue that no flag is there to block. -/
def QosSys.HasWork (s : QosSys) : Prop := s.mgmtQ ≠ [] ∨ ∃ q, s.forbidden q = false ∧ s.tx.queue q ≠ []

/-- The untimed wait, with nobody about to end it. -/
structure TxThread.Asleep (t : TxThread) : Prop where
  pc : t.pc = .wait
  untimed : t.qos.bufferFull = false
  event : t.event = false
  setters : t.setters = 0

/-- The station has no request for power save under way. -/
def TxThread.psIdle (t : TxThread) (_ : ThreadAct) : Bool := t.qos.sta.all fun v => v.psState ≠ .enReqSent

abbrev TxThread.Reaches := Machine.Reaches TxThread.step TxThread.psIdle

/-- The thread as it is started. -/
structure ThreadStart (t : TxThread) : Prop where
  pc : t.pc = .top
  event : t.event = false
  setters : t.setters = 0
  queue : ∀ q, t.qos.tx.queue q = []
  mgmtQ : t.qos.mgmtQ = []
  pktContended : ∀ q, t.qos.wmm.pktContended q = false
  pktCnt : t.qos.wmm.pktCnt = 0
  bufferFull : t.qos.bufferFull = false
  mgmtBufferFull : t.qos.mgmtBufferFull = false
  sta : t.qos.sta.all (fun v => v.psState ≠ .enReqSent) = true

namespace QosSys

variable {s : QosSys} {q : DataQ}

structure Roomy (s : QosSys) : Prop where
  bufferFull : s.bufferFull = false
  mgmtBufferFull : s.mgmtBufferFull = false

/-- What comes before the packet is taken leaves the queues and the contention alone. -/
structure Prepared (s u : QosSys) : Prop where
  tx : u.tx = s.tx
  wmm : u.wmm = s.wmm
  mgmtQ : s.mgmtQ ≠ [] → u.mgmtQ ≠ []
  roomy : s.Roomy → u.Roomy

theorem readStatus_prepared (s : QosSys) : Prepared s (s.readStatus (some 0#8)).1 := by
  rw [readStatus]
  split
  · exact ⟨rfl, rfl, id, fun _ => ⟨rfl, rfl⟩⟩
  · exact ⟨rfl, rfl, id, id⟩

theorem readStatus_goes_on (s : QosSys) : (s.readStatus (some 0#8)).2 = true := by
  rw [readStatus]
  split <;> rfl

theorem wakeForPending_prepared (s : QosSys) : Prepared s s.wakeForPending := by
  fun_cases wakeForPending s with
  | case1 => exact ⟨rfl, rfl, id, id⟩
  | case2 => exact ⟨rfl, rfl, fun h => List.append_ne_nil_of_right_ne_nil _ h, fun h => ⟨h.1, h.2⟩⟩
  | case3 => exact ⟨rfl, rfl, id, id⟩

theorem Roomy.not_full (h : s.Roomy) (q : SoftQ) : s.isFull q = false := by
  cases q with
  | data q => exact h.bufferFull
  | mgmt => exact h.mgmtBufferFull

def isEmpty (s : QosSys) : SoftQ → Bool
  | .data q => (s.tx.queue q).isEmpty
  | .mgmt => s.mgmtQ.isEmpty

/-- What sending the packet at the head of `q` does. -/
structure Sent (s : QosSys) (q : SoftQ) (u : QosSys) : Prop where
  net : u.tx.net = s.tx.net
  wmm : u.wmm = s.wmm
  roomy : u.Roomy
  queue : ∀ i, u.tx.queue i = if q = .data i then (s.tx.queue i).tail else s.tx.queue i

theorem dequeue_sent {q : SoftQ} (hroomy : s.Roomy) (hb : s.tx.net.blocks q.num = false)
    (hne : s.isEmpty q = false) : (s.dequeue q).2 = true ∧ Sent s q (s.dequeue q).1 := by
  cases q with
  | mgmt =>
    cases hq : s.mgmtQ with
    | nil => simp [isEmpty, hq] at hne
    | cons p rest =>
      rw [dequeue, sendMgmt, hq]
      exact ⟨rfl, rfl, rfl, ⟨hroomy.1, hroomy.2⟩, fun i => rfl⟩
  | data q =>
    rw [blocks_data] at hb
    rw [dequeue, sendData]
    cases h : s.tx.coreQosProcessor q with
    | none =>
      rcases TxSys.coreQosProcessor_eq_none h with h | h
      · rw [hb] at h
        cases h
      · simp [isEmpty, h] at hne
    | some r =>
      obtain ⟨tx, o⟩ := r
      refine ⟨rfl, (TxSys.coreQosProcessor_spec h).1, rfl, ⟨hroomy.1, hroomy.2⟩, fun i => ?_⟩
      have hqueue : tx.queue i = Function.update s.tx.queue q (s.tx.queue q).tail i := by
        rw [(TxSys.coreQosProcessor_queue h).2]
      refine hqueue.trans ?_
      by_cases hi : i = q
      · subst hi
        simp
      · rw [Function.update_of_ne hi, if_neg fun heq => hi (SoftQ.data.inj heq).symm]

theorem send_sent {q : SoftQ} (hroomy : s.Roomy) (hb : s.tx.net.blocks q.num = false)
    (hne : s.isEmpty q = false) :
    (s.send q (some 0#8)).2 = true ∧ Sent s q (s.send q (some 0#8)).1 := by
  have hread := readStatus_prepared s
  have hwake := wakeForPending_prepared (s.readStatus (some 0#8)).1
  have hfull := (hread.roomy hroomy).not_full q
  have htx := hwake.tx.trans hread.tx
  rw [send, readStatus_goes_on, hfull]
  obtain ⟨hon, hsent⟩ := dequeue_sent (q := q) (hwake.roomy (hread.roomy hroomy)) (by rw [htx, hb]) (by
    cases q with
    | data q => rw [isEmpty, htx, ← hne, isEmpty]
    | mgmt =>
      have hq : s.mgmtQ ≠ [] := by simpa [isEmpty] using hne
      simpa [isEmpty] using hwake.mgmtQ (hread.mgmtQ hq))
  refine ⟨hon, hsent.net.trans (congrArg TxSys.net htx), hsent.wmm.trans (hwake.wmm.trans hread.wmm),
    hsent.roomy, fun i => ?_⟩
  rw [← htx]
  exact hsent.queue i

/-- The queue to send from is not blocked and has a packet, and what is left of a burst is there too. -/
structure Sends (s : QosSys) (q : SoftQ) : Prop where
  free : s.tx.net.blocks q.num = false
  filled : s.isEmpty q = false
  burst : ∀ i, q = .data i → s.wmm.selectedQnum = i ∧ s.wmm.pktCnt < s.len i

theorem determine_determines (s : QosSys) :
    Wmm.Determines s.len s.mgmtQ.length s.wmm s.determine.1 s.determine.2 :=
  Wmm.coreDetermineHalQueue_determines ..

/-- What `select` leaves, with the two flags alike. -/
structure Selected (s u : QosSys) (o : Option SoftQ) : Prop where
  tx : u.tx = s.tx
  roomy : s.Roomy → u.Roomy
  burst : u.wmm.pktCnt ≤ u.len u.wmm.selectedQnum
  sends : ∀ q, o = some q → u.Sends q
  quiet : o = none → u.beaconEvent = true ∨ ¬ u.HasWork

theorem not_hasWork_of_empty (hm : s.mgmtQ.length = 0) (hlen : ∀ i, s.len i = 0) : ¬ s.HasWork := by
  rintro (h | ⟨q, -, h⟩)
  · exact h (List.length_eq_zero_iff.mp hm)
  · exact h (List.length_eq_zero_iff.mp (hlen q))

theorem not_hasWork_of_blocked (hm : s.mgmtQ.length = 0) (hb : s.tx.blocked q = true)
    (hsame : s.tx.net.staDataBlock = s.tx.net.blockApQueues) : ¬ s.HasWork := by
  have hap : s.tx.net.blockApQueues = true := by
    rw [TxSys.blocked, hsame] at hb
    by_contra hno
    simp [hno] at hb
  rintro (h | ⟨i, hforb, -⟩)
  · exact h (List.length_eq_zero_iff.mp hm)
  · rw [forbidden, hsame, hap] at hforb
    simp at hforb
    omega

theorem determine_sends {q : SoftQ} (hq : s.determine.2 = some q) (hb : s.tx.net.blocks q.num = false)
    (hcnt : s.wmm.pktCnt ≤ s.len s.wmm.selectedQnum) : { s with wmm := s.determine.1 }.Sends q := by
  have hdet := determine_determines s
  rw [hq] at hdet
  cases q with
  | mgmt =>
    have hm : s.mgmtQ.length ≠ 0 := hdet.mgmt_ne_zero
    exact ⟨hb, by simpa [isEmpty] using hm, fun i h => by cases h⟩
  | data q =>
    obtain ⟨-, hsel, hlt⟩ := hdet.data hcnt
    refine ⟨hb, ?_, fun i hi => ?_⟩
    · have hpos : 0 < s.len q := Nat.zero_lt_of_lt hlt
      simpa [isEmpty, len, List.length_pos_iff] using hpos
    · cases hi
      exact ⟨hsel, hlt⟩

theorem determine_quiet (hno : (s.determine.2.filter fun q => !s.tx.net.blocks q.num) = none)
    (hcnt : s.wmm.pktCnt ≤ s.len s.wmm.selectedQnum)
    (hsame : s.tx.net.staDataBlock = s.tx.net.blockApQueues) : ¬ s.HasWork := by
  have hdet := determine_determines s
  cases ho : s.determine.2 with
  | none =>
    rw [ho] at hdet
    obtain ⟨hm, hlen⟩ := hdet.empty
    exact not_hasWork_of_empty hm hlen
  | some q =>
    have hb : s.tx.net.blocks q.num = true := by simpa [ho, Option.filter_some] using hno
    cases q with
    | mgmt => simp [blocks_mgmt] at hb
    | data q =>
      rw [ho] at hdet
      rw [blocks_data] at hb
      exact not_hasWork_of_blocked (hdet.data hcnt).1 hb hsame

theorem select_selected (hps : s.psBreaks = false) (hcnt : s.wmm.pktCnt ≤ s.len s.wmm.selectedQnum)
    (hsame : s.tx.net.staDataBlock = s.tx.net.blockApQueues) : Selected s s.select.1 s.select.2 := by
  rw [select]
  split
  case isTrue h =>
    have hbe : s.beaconEvent = true := by simpa [hps] using h
    exact ⟨rfl, id, hcnt, fun q h => (by cases h), fun _ => .inl hbe⟩
  case isFalse =>
    refine ⟨rfl, fun h => ⟨h.1, h.2⟩, (determine_determines s).pktCnt_le hcnt, fun q hq => ?_, fun hno => ?_⟩
    · obtain ⟨ho, hb⟩ := Option.filter_eq_some_iff.mp hq
      exact determine_sends ho (by simpa using hb) hcnt
    · have hquiet : ¬ s.HasWork := determine_quiet hno hcnt hsame
      exact .inr hquiet

theorem psBreaks_eq_false (h : s.sta.all (fun v => v.psState ≠ .enReqSent) = true) : s.psBreaks = false := by
  cases hs : s.sta with
  | none => simp [psBreaks, hs]
  | some v =>
    have hv : v.psState ≠ .enReqSent := by simpa [hs] using h
    simp [psBreaks, hs, hv]

end QosSys

/-- Where the thread is about to wait, there is no work, or somebody sets the event, or a beacon keeps the
thread from waiting. -/
structure ThreadInv (b : Bool) (t : TxThread) : Prop where
  sta : t.qos.tx.net.staDataBlock = b
  ap : t.qos.tx.net.blockApQueues = b
  roomy : t.qos.Roomy
  burst : t.qos.wmm.pktCnt ≤ t.qos.len t.qos.wmm.selectedQnum
  sends : ∀ q, t.pc = .send q → t.qos.Sends q
  check : t.pc = .check → t.event = true ∨ t.setters ≠ 0 ∨ t.qos.beaconEvent = true ∨ ¬ t.qos.HasWork
  wait : t.pc = .wait → t.event = true ∨ t.setters ≠ 0 ∨ ¬ t.qos.HasWork

namespace ThreadInv

variable {b : Bool} {t u : TxThread}

theorem len_append_le (s : QosSys) (q i : DataQ) (pk : Pkt) : s.len i ≤ (s.append q pk).len i := by
  by_cases h : i = q
  · subst h
    simp [QosSys.len, QosSys.append]
  · simp [QosSys.len, QosSys.append, Function.update_of_ne h]

theorem of_running (hsta : t.qos.tx.net.staDataBlock = b) (hap : t.qos.tx.net.blockApQueues = b)
    (hroomy : t.qos.Roomy) (hburst : t.qos.wmm.pktCnt ≤ t.qos.len t.qos.wmm.selectedQnum)
    (hpc : t.pc = .top ∨ t.pc = .select ∨ t.pc = .reset) : ThreadInv b t := by
  refine ⟨hsta, hap, hroomy, hburst, fun q hq => ?_, fun hc => ?_, fun hw => ?_⟩
  · simp [hq] at hpc
  · simp [hc] at hpc
  · simp [hw] at hpc

theorem of_start (h : ThreadStart t) (hsta : t.qos.tx.net.staDataBlock = b)
    (hap : t.qos.tx.net.blockApQueues = b) : ThreadInv b t :=
  of_running hsta hap ⟨h.bufferFull, h.mgmtBufferFull⟩ (by simp [h.pktCnt]) (.inl h.pc)

theorem append (h : ThreadInv b t) (q : DataQ) (pk : Pkt) :
    ThreadInv b { t with qos := t.qos.append q pk, setters := t.setters + 1 } where
  sta := h.sta
  ap := h.ap
  roomy := ⟨h.roomy.1, h.roomy.2⟩
  burst := h.burst.trans (len_append_le ..)
  sends p hp := by
    obtain ⟨hfree, hfilled, hburst⟩ := h.sends p hp
    refine ⟨hfree, ?_, fun i hi => ?_⟩
    · cases p with
      | mgmt => exact hfilled
      | data i =>
        have hpos : 0 < t.qos.len i := by simpa [QosSys.isEmpty, QosSys.len, List.length_pos_iff] using hfilled
        have hpos' := hpos.trans_le (len_append_le t.qos q i pk)
        simpa [QosSys.isEmpty, QosSys.len, List.length_pos_iff] using hpos'
    · obtain ⟨hsel, hlt⟩ := hburst i hi
      exact ⟨hsel, hlt.trans_le (len_append_le ..)⟩
  check _ := .inr (.inl (Nat.succ_ne_zero _))
  wait _ := .inr (.inl (Nat.succ_ne_zero _))

theorem appendMgmt (h : ThreadInv b t) (p : MgmtPkt) :
    ThreadInv b { t with qos := { t.qos with mgmtQ := t.qos.mgmtQ ++ [p] }, setters := t.setters + 1 } where
  sta := h.sta
  ap := h.ap
  roomy := ⟨h.roomy.1, h.roomy.2⟩
  burst := h.burst
  sends q hq := by
    obtain ⟨hfree, hfilled, hburst⟩ := h.sends q hq
    refine ⟨hfree, ?_, hburst⟩
    cases q with
    | mgmt => simp [QosSys.isEmpty]
    | data i => exact hfilled
  check _ := .inr (.inl (Nat.succ_ne_zero _))
  wait _ := .inr (.inl (Nat.succ_ne_zero _))

theorem beacon (h : ThreadInv b t) :
    ThreadInv b { t with qos := { t.qos with beaconEvent := true }, setters := t.setters + 1 } where
  sta := h.sta
  ap := h.ap
  roomy := ⟨h.roomy.1, h.roomy.2⟩
  burst := h.burst
  sends q hq := ⟨(h.sends q hq).free, (h.sends q hq).filled, (h.sends q hq).burst⟩
  check _ := .inr (.inl (Nat.succ_ne_zero _))
  wait _ := .inr (.inl (Nat.succ_ne_zero _))

theorem setEvent (h : ThreadInv b t) :
    ThreadInv b { t with event := true, setters := t.setters - 1 } where
  sta := h.sta
  ap := h.ap
  roomy := h.roomy
  burst := h.burst
  sends := h.sends
  check _ := .inl rfl
  wait _ := .inl rfl

theorem select (h : ThreadInv b t) (hps : t.qos.psBreaks = false) :
    ThreadInv b { t with qos := t.qos.select.1, pc := t.qos.select.2.elim .check .send } := by
  obtain ⟨htx, hroomy, hburst, hsends, hquiet⟩ := QosSys.select_selected hps h.burst (h.sta.trans h.ap.symm)
  refine ⟨by rw [htx, h.sta], by rw [htx, h.ap], hroomy h.roomy, hburst, fun q hq => ?_, fun hc => ?_, fun hw => ?_⟩
  · cases ho : t.qos.select.2 with
    | none => simp [ho] at hq
    | some p =>
      have hp : p = q := by simpa [ho] using hq
      exact hsends q (hp ▸ ho)
  · cases ho : t.qos.select.2 with
    | none => exact .inr (.inr (hquiet ho))
    | some p => simp [ho] at hc
  · cases ho : t.qos.select.2 with
    | none => simp [ho] at hw
    | some p => simp [ho] at hw

theorem send {q : SoftQ} (h : ThreadInv b t) (hpc : t.pc = .send q) :
    ThreadInv b { t with qos := (t.qos.send q (some 0#8)).1, pc := .select } := by
  obtain ⟨hfree, hfilled, hburst⟩ := h.sends q hpc
  obtain ⟨-, hnet, hwmm, hroomy, hqueue⟩ := QosSys.send_sent h.roomy hfree hfilled
  refine of_running (by rw [hnet, h.sta]) (by rw [hnet, h.ap]) hroomy ?_ (.inr (.inl rfl))
  dsimp only
  rw [hwmm, QosSys.len, hqueue]
  split
  case isTrue hq =>
    have hlt := (hburst _ hq).2
    rw [List.length_tail]
    exact Nat.le_sub_one_of_lt hlt
  case isFalse => exact h.burst

theorem advance (h : ThreadInv b t) (hps : t.qos.psBreaks = false) (hstep : t.advance = some u) :
    ThreadInv b u := by
  rw [TxThread.advance] at hstep
  split at hstep
  case h_1 =>
    cases hstep
    exact of_running h.sta h.ap ⟨h.roomy.1, h.roomy.2⟩ h.burst (.inr (.inl rfl))
  case h_2 =>
    cases hstep
    exact h.select hps
  case h_3 q hpc =>
    have hon := (QosSys.send_sent h.roomy (h.sends q hpc).free (h.sends q hpc).filled).1
    dsimp only at hstep
    rw [hon] at hstep
    cases hstep
    exact h.send hpc
  case h_4 hpc =>
    cases hstep
    refine ⟨h.sta, h.ap, h.roomy, h.burst, fun q hq => ?_, fun hc => ?_, fun hw => ?_⟩
    · dsimp only at hq
      split at hq <;> cases hq
    · dsimp only at hc
      split at hc <;> cases hc
    · cases hbe : t.qos.beaconEvent with
      | true => simp [hbe] at hw
      | false => simpa [hbe] using h.check hpc
  case h_5 =>
    split at hstep
    · cases hstep
      exact of_running h.sta h.ap h.roomy h.burst (.inr (.inr rfl))
    · cases hstep
  case h_6 =>
    cases hstep
    exact of_running h.sta h.ap h.roomy h.burst (.inl rfl)

theorem step {a : ThreadAct} (h : ThreadInv b t) (hok : t.psIdle a) (hstep : t.step a = some u) :
    ThreadInv b u := by
  cases a with
  | thread => exact h.advance (QosSys.psBreaks_eq_false hok) hstep
  | append q pk =>
    cases hstep
    exact h.append q pk
  | appendMgmt p =>
    cases hstep
    exact h.appendMgmt p
  | beacon =>
    cases hstep
    exact h.beacon
  | setEvent =>
    rw [TxThread.step] at hstep
    split at hstep
    · cases hstep
    · cases hstep
      exact h.setEvent

theorem not_asleep (h : ThreadInv b t) (hasleep : t.Asleep) : ¬ t.qos.HasWork := by
  rcases h.wait hasleep.pc with hev | hset | hno
  · rw [hasleep.event] at hev
    cases hev
  · exact absurd hasleep.setters hset
  · exact hno

end ThreadInv

/-- Only data packets wait, no burst is going on, and everybody has set the event. -/
structure Calm (t : TxThread) : Prop where
  setters : t.setters = 0
  mgmtQ : t.qos.mgmtQ = []
  pktCnt : t.qos.wmm.pktCnt = 0
  bufferFull : t.qos.bufferFull = false
  sta : t.qos.sta.all (fun v => v.psState ≠ .enReqSent) = true

/-- Whichever queue wins the contention is blocked. -/
def QosSys.Stuck (s : QosSys) : Prop :=
  ∀ q, Wmm.Wins s.len s.wmm (some q) → s.tx.blocked q = true ∧ q ≠ voQSta ∧ q ≠ viQSta

namespace QosSys.Stuck

variable {s : QosSys} {q : DataQ}

theorem of_only (hb : s.tx.blocked q = true ∧ q ≠ voQSta ∧ q ≠ viQSta) (honly : ∀ i, s.len i ≠ 0 → i = q) :
    s.Stuck := by
  intro i hw
  cases hw with
  | some hlen =>
    rw [honly i hlen]
    exact hb

/-- Where no queue has contended yet, `BK_Q_STA` wins. -/
theorem of_fresh (hb : s.tx.blocked bkQSta = true) (hfresh : ∀ i, s.wmm.pktContended i = false)
    (hlen : s.len bkQSta ≠ 0) : s.Stuck := by
  intro i hw
  cases hw with
  | some _ _ hbk =>
    have hnone : ∀ i, s.wmm.contends s.len i = false := fun i => by rw [Wmm.contends, hfresh, Bool.false_and]
    rw [hbk hnone hlen]
    exact ⟨hb, by decide, by decide⟩

/-- A queue that has contended wins over those that have not. -/
theorem of_contended (hb : s.tx.blocked q = true ∧ q ≠ voQSta ∧ q ≠ viQSta) (hlen : s.len q ≠ 0)
    (hcont : ∀ i, s.wmm.pktContended i = true ↔ i = q) : s.Stuck := by
  intro i hw
  cases hw with
  | some _ hwins =>
    have hfirst : s.wmm.contends s.len q = true := Wmm.contends_iff.mpr ⟨(hcont q).mpr rfl, hlen⟩
    have hi := (Wmm.contends_iff.mp (hwins q hfirst)).1
    rw [(hcont i).mp hi]
    exact hb

theorem select (h : s.Stuck) (hbe : s.beaconEvent = false) (hps : s.psBreaks = false)
    (hm : s.mgmtQ = []) (hcnt : s.wmm.pktCnt = 0) :
    ∃ w, s.select = ({ s with wmm := w }, none) ∧ w.pktCnt = 0 ∧
      w.pktContended = fun i => decide (s.len i ≠ 0) := by
  have hsel : s.select =
      ({ s with wmm := s.determine.1 }, s.determine.2.filter fun q => !s.tx.net.blocks q.num) := by
    simp [QosSys.select, hbe, hps]
  have hdet := s.determine_determines
  rw [hm] at hdet
  rw [hsel]
  generalize s.determine = r at hdet
  obtain ⟨w, o⟩ := r
  refine ⟨w, ?_⟩
  cases hdet with
  | mgmt hne => exact absurd rfl hne
  | burst _ hne => exact absurd hcnt hne
  | idle _ _ hadj => exact ⟨rfl, hadj.pktCnt.trans hcnt, hadj.pktContended⟩
  | @chosen w' q _ _ hadj hw =>
    obtain ⟨hb, hvo, hvi⟩ := h q hw
    refine ⟨?_, ?_, hadj.pktContended⟩
    · simp [Option.filter_some, QosSys.blocks_data, hb]
    · simp [hvo, hvi, hadj.pktCnt, hcnt]

end QosSys.Stuck

namespace Calm

variable {t u : TxThread}

theorem of_start (h : ThreadStart t) : Calm t := ⟨h.setters, h.mgmtQ, h.pktCnt, h.bufferFull, h.sta⟩

theorem reaches (h : Calm t) (hstep : t.advance = some u) : t.Reaches u := .head (a := .thread) h.sta hstep (.refl u)

theorem append (h : Calm t) (q : DataQ) (pk : Pkt) :
    ∃ u, t.Reaches u ∧ Calm u ∧ u.pc = t.pc ∧ u.event = true ∧ u.qos = t.qos.append q pk := by
  refine ⟨{ t with qos := t.qos.append q pk, event := true, setters := 0 }, ?_,
    ⟨rfl, h.mgmtQ, h.pktCnt, h.bufferFull, h.sta⟩, rfl, rfl, rfl⟩
  refine .head (a := .append q pk) h.sta rfl (.head (a := .setEvent) h.sta ?_ (.refl _))
  simp [TxThread.step, h.setters]

/-- The thread looks at the queues, finds the winner blocked and waits. -/
theorem parks (h : Calm t) (hpc : t.pc = .top) (hstuck : t.qos.Stuck) :
    ∃ u, t.Reaches u ∧ Calm u ∧ u.pc = .wait ∧ u.event = t.event ∧ u.qos.tx = t.qos.tx ∧
      u.qos.wmm.pktContended = fun i => decide (t.qos.len i ≠ 0) := by
  let t₁ : TxThread := { t with qos := { t.qos with beaconEvent := false, counter := 0 }, pc := .select }
  have h₁ : Calm t₁ := ⟨h.setters, h.mgmtQ, h.pktCnt, h.bufferFull, h.sta⟩
  have hstuck₁ : t₁.qos.Stuck := hstuck
  obtain ⟨w, hsel, hcnt, hcont⟩ := hstuck₁.select rfl (QosSys.psBreaks_eq_false h₁.sta) h₁.mgmtQ h₁.pktCnt
  let t₂ : TxThread := { t₁ with qos := { t₁.qos with wmm := w }, pc := .check }
  have h₂ : Calm t₂ := ⟨h.setters, h.mgmtQ, hcnt, h.bufferFull, h.sta⟩
  refine ⟨{ t₂ with pc := .wait }, ?_, ⟨h.setters, h.mgmtQ, hcnt, h.bufferFull, h.sta⟩, rfl, rfl, rfl, hcont⟩
  have htop : t.advance = some t₁ := by rw [TxThread.advance, hpc]
  have hselect : t₁.advance = some t₂ := by
    show some { t₁ with qos := t₁.qos.select.1, pc := t₁.qos.select.2.elim .check .send } = some t₂
    rw [hsel]
    rfl
  exact (h.reaches htop).trans ((h₁.reaches hselect).trans (h₂.reaches rfl))

theorem wakes (h : Calm t) (hpc : t.pc = .wait) (hev : t.event = true) :
    ∃ u, t.Reaches u ∧ Calm u ∧ u.pc = .top ∧ u.event = false ∧ u.qos = t.qos := by
  let t₁ : TxThread := { t with pc := .reset }
  have h₁ : Calm t₁ := ⟨h.setters, h.mgmtQ, h.pktCnt, h.bufferFull, h.sta⟩
  refine ⟨{ t₁ with event := false, pc := .top }, ?_,
    ⟨h.setters, h.mgmtQ, h.pktCnt, h.bufferFull, h.sta⟩, rfl, rfl, rfl⟩
  have hwait : t.advance = some t₁ := by simp [TxThread.advance, hpc, hev, t₁]
  exact (h.reaches hwait).trans (h₁.reaches rfl)

theorem round (h : Calm t) (hpc : t.pc = .wait) (hev : t.event = true) (hstuck : t.qos.Stuck) :
    ∃ u, t.Reaches u ∧ Calm u ∧ u.pc = .wait ∧ u.event = false ∧ u.qos.tx = t.qos.tx ∧
      u.qos.wmm.pktContended = fun i => decide (t.qos.len i ≠ 0) := by
  obtain ⟨t₁, hwake, h₁, hpc₁, hev₁, hqos⟩ := h.wakes hpc hev
  obtain ⟨u, hpark, hu, hpcu, hevu, htx, hcont⟩ := h₁.parks hpc₁ (hqos ▸ hstuck)
  rw [hqos] at htx hcont
  exact ⟨u, hwake.trans hpark, hu, hpcu, hevu.trans hev₁, htx, hcont⟩

end Calm

def beQSta : DataQ := WmeAc.be.queue .sta

def beQAp : DataQ := WmeAc.be.queue .hostap

theorem QosSys.append_queue (s : QosSys) (q i : DataQ) (pk : Pkt) :
    (s.append q pk).tx.queue i = if i = q then s.tx.queue q ++ [pk] else s.tx.queue i :=
  Function.update_apply ..

theorem QosSys.len_append_ne_zero {s : QosSys} {q i : DataQ} {pk : Pkt} :
    (s.append q pk).len i ≠ 0 ↔ i = q ∨ s.len i ≠ 0 := by
  rw [QosSys.len, QosSys.append_queue]
  by_cases h : i = q
  · simp [h]
  · simp [h, QosSys.len]

section Sleeps

variable {t : TxThread}

theorem ThreadStart.parks (h : ThreadStart t) :
    ∃ u, t.Reaches u ∧ Calm u ∧ u.pc = .wait ∧ u.qos.tx = t.qos.tx ∧ ∀ i, u.qos.wmm.pktContended i = false := by
  have hlen : ∀ i, t.qos.len i = 0 := fun i => List.length_eq_zero_iff.mpr (h.queue i)
  have hstuck : t.qos.Stuck := by
    intro q hw
    cases hw with
    | some hq => exact absurd (hlen q) hq
  obtain ⟨u, hreach, hu, hpc, -, htx, hcont⟩ := (Calm.of_start h).parks h.pc hstuck
  exact ⟨u, hreach, hu, hpc, htx, fun i => by simp [hcont, hlen i]⟩

/-- One more round with a blocked winner, and the thread sleeps on the packets of another queue. -/
theorem Calm.sleeps {q : DataQ} (h : Calm t) (hpc : t.pc = .wait) (hev : t.event = true) (hstuck : t.qos.Stuck)
    (hfree : t.qos.forbidden q = false) (hne : t.qos.tx.queue q ≠ []) :
    ∃ u, t.Reaches u ∧ u.Asleep ∧ u.qos.HasWork := by
  obtain ⟨u, hreach, hu, hpcu, hevu, htx, -⟩ := h.round hpc hev hstuck
  refine ⟨u, hreach, ⟨hpcu, hu.bufferFull, hevu, hu.setters⟩, .inr ⟨q, ?_, ?_⟩⟩
  · rwa [QosSys.forbidden, htx]
  · rwa [htx]

/-- A station packet that is blocked wins before the packet of the access point has contended at all. -/
theorem ThreadStart.sleeps_sta (h : ThreadStart t) (hsta : t.qos.tx.net.staDataBlock = true)
    (hap : t.qos.tx.net.blockApQueues = false) : ∃ u, t.Reaches u ∧ u.Asleep ∧ u.qos.HasWork := by
  obtain ⟨t₁, hr₁, hc₁, hpc₁, htx₁, hcont₁⟩ := h.parks
  obtain ⟨t₂, hr₂, hc₂, hpc₂, -, hqos₂⟩ := hc₁.append bkQSta ipPkt
  obtain ⟨t₃, hr₃, hc₃, hpc₃, hev₃, hqos₃⟩ := hc₂.append beQAp ipPkt
  have hnet : t₃.qos.tx.net = t.qos.tx.net := by
    rw [hqos₃, hqos₂, ← htx₁]
    rfl
  have hwmm : t₃.qos.wmm = t₁.qos.wmm := by
    rw [hqos₃, hqos₂]
    rfl
  have hstuck : t₃.qos.Stuck := by
    refine .of_fresh ?_ (fun i => by rw [hwmm, hcont₁]) ?_
    · rw [TxSys.blocked, hnet, hsta, hap]
      decide
    · rw [hqos₃, hqos₂]
      exact QosSys.len_append_ne_zero.mpr (.inr (QosSys.len_append_ne_zero.mpr (.inl rfl)))
  have hfree : t₃.qos.forbidden beQAp = false := by
    rw [QosSys.forbidden, hnet, hsta, hap]
    decide
  obtain ⟨u, hru, hasleep, hwork⟩ := hc₃.sleeps (hpc₃.trans (hpc₂.trans hpc₁)) hev₃ hstuck hfree
    (by simp [hqos₃, QosSys.append_queue])
  exact ⟨u, hr₁.trans (hr₂.trans (hr₃.trans hru)), hasleep, hwork⟩

/-- A packet of the access point is blocked and keeps winning, since it has contended before the packet
of the station. -/
theorem ThreadStart.sleeps_ap (h : ThreadStart t) (hsta : t.qos.tx.net.staDataBlock = false)
    (hap : t.qos.tx.net.blockApQueues = true) : ∃ u, t.Reaches u ∧ u.Asleep ∧ u.qos.HasWork := by
  obtain ⟨t₁, hr₁, hc₁, hpc₁, htx₁, -⟩ := h.parks
  obtain ⟨t₂, hr₂, hc₂, hpc₂, hev₂, hqos₂⟩ := hc₁.append beQAp ipPkt
  have honly : ∀ q, t₂.qos.len q ≠ 0 ↔ q = beQAp := by
    intro q
    rw [hqos₂, QosSys.len_append_ne_zero, QosSys.len, htx₁, h.queue]
    simp
  have hblocked : ∀ {u : TxThread}, u.qos.tx.net = t.qos.tx.net →
      u.qos.tx.blocked beQAp = true ∧ beQAp ≠ voQSta ∧ beQAp ≠ viQSta := by
    intro u hnet
    rw [TxSys.blocked, hnet, hsta, hap]
    decide
  have hnet₂ : t₂.qos.tx.net = t.qos.tx.net := by
    rw [hqos₂, ← htx₁]
    rfl
  have hstuck₂ : t₂.qos.Stuck := .of_only (hblocked hnet₂) fun q => (honly q).mp
  obtain ⟨t₃, hr₃, hc₃, hpc₃, -, htx₃, hcont₃⟩ := hc₂.round (hpc₂.trans hpc₁) hev₂ hstuck₂
  obtain ⟨t₄, hr₄, hc₄, hpc₄, hev₄, hqos₄⟩ := hc₃.append beQSta ipPkt
  have hnet₄ : t₄.qos.tx.net = t.qos.tx.net := by
    rw [hqos₄, ← hnet₂, ← htx₃]
    rfl
  have hcont₄ : ∀ q, t₄.qos.wmm.pktContended q = true ↔ q = beQAp := by
    intro q
    have hkept : t₄.qos.wmm = t₃.qos.wmm := by
      rw [hqos₄]
      rfl
    rw [hkept, hcont₃, decide_eq_true_eq, honly]
  have hlen : t₄.qos.len beQAp ≠ 0 := by
    rw [hqos₄, QosSys.len_append_ne_zero, QosSys.len, htx₃]
    exact .inr ((honly beQAp).mpr rfl)
  have hstuck₄ : t₄.qos.Stuck := .of_contended (hblocked hnet₄) hlen hcont₄
  have hfree : t₄.qos.forbidden beQSta = false := by
    rw [QosSys.forbidden, hnet₄, hsta, hap]
    decide
  obtain ⟨u, hru, hasleep, hwork⟩ := hc₄.sleeps (hpc₄.trans hpc₃) hev₄ hstuck₄ hfree
    (by simp [hqos₄, QosSys.append_queue])
  exact ⟨u, hr₁.trans (hr₂.trans (hr₃.trans (hr₄.trans hru))), hasleep, hwork⟩

end Sleeps

/-- The thread never sleeps on work that nobody wants blocked exactly if both kinds of data queues are
blocked or neither is. -/
theorem tx_thread_awake_iff {t : TxThread} (h : ThreadStart t) :
    (∀ u, t.Reaches u → u.Asleep → ¬ u.qos.HasWork) ↔
      t.qos.tx.net.staDataBlock = t.qos.tx.net.blockApQueues := by
  constructor
  · intro hawake
    cases hsta : t.qos.tx.net.staDataBlock <;> cases hap : t.qos.tx.net.blockApQueues
    · rfl
    · obtain ⟨u, hreach, hasleep, hwork⟩ := h.sleeps_ap hsta hap
      exact absurd hwork (hawake u hreach hasleep)
    · obtain ⟨u, hreach, hasleep, hwork⟩ := h.sleeps_sta hsta hap
      exact absurd hwork (hawake u hreach hasleep)
    · rfl
  · rintro hsame u ⟨as, hmeets, hrun⟩ hasleep
    have hinv : ThreadInv t.qos.tx.net.blockApQueues t := ThreadInv.of_start h hsame rfl
    exact (run_invariant ThreadInv.step hinv hmeets hrun).not_asleep hasleep

def idleQos (sta ap : Bool) : QosSys :=
  { tx := { freshTx with net := { freshNet with staDataBlock := sta, blockApQueues := ap } }
    wmm := freshWmm, mgmtQ := [], sta := none, macInitDone := true, beaconEvent := false
    bufStatusUpdated := false, counter := 0, mgmtBufferFull := false, bufferFull := false
    semiBufferFull := false }

def idleThread (sta ap : Bool) : TxThread := ⟨idleQos sta ap, false, .top, 0⟩

theorem threadStart_idleThread (sta ap : Bool) : ThreadStart (idleThread sta ap) :=
  ⟨rfl, rfl, rfl, fun _ => rfl, rfl, fun _ => rfl, rfl, rfl, rfl, rfl⟩

theorem tx_thread_awake_connected : ThreadStart (idleThread false false) ∧
    ∀ u, (idleThread false false).Reaches u → u.Asleep → ¬ u.qos.HasWork :=
  ⟨threadStart_idleThread false false, (tx_thread_awake_iff (threadStart_idleThread false false)).mpr rfl⟩

/-- The station is not connected. One packet of its own comes while the thread waits, and then one of the
access point. -/
def staThenAp : List ThreadAct :=
  [.thread, .thread, .thread, .append bkQSta ipPkt, .setEvent, .append beQAp ipPkt, .setEvent,
    .thread, .thread, .thread, .thread, .thread]

theorem ap_packet_left_waiting : ThreadStart (idleThread true false) ∧
    ∃ u, (idleThread true false).Reaches u ∧ u.Asleep ∧ u.qos.HasWork := by
  have hmeets : Meets TxThread.step TxThread.psIdle (idleThread true false) staThenAp := by decide
  obtain ⟨u, hrun, ⟨hpc, hfull, hev, hset⟩, hfree, hne⟩ :
      ∃ u, run TxThread.step (idleThread true false) staThenAp = some u ∧
        (u.pc = .wait ∧ u.qos.bufferFull = false ∧ u.event = false ∧ u.setters = 0) ∧
        u.qos.forbidden beQAp = false ∧ u.qos.tx.queue beQAp ≠ [] := exists_run (by decide)
  exact ⟨threadStart_idleThread true false, u, ⟨staThenAp, hmeets, hrun⟩, ⟨hpc, hfull, hev, hset⟩,
    .inr ⟨beQAp, hfree, hne⟩⟩

end Onebox
