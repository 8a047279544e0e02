import Onebox.Encryption
import Onebox.HalQueue
import Onebox.PowerSave

/-! The transmit loop of `core_qos_processor`. An iteration chooses a queue, leaves the
loop if that queue is blocked or the device has no room, and otherwise sends the
packet at its head. -/

namespace Onebox

open Machine

inductive MgmtPkt
  | ps (f : PsFrame)
  | other
  deriving DecidableEq, Repr

def SoftQ.num : SoftQ → Nat
  | .data q => q.val
  | .mgmt => 8

/-- The two tests with `sta_data_block` and `block_ap_queues`. -/
def Net.blocks (s : Net) (qNum : Nat) : Bool :=
  (s.staDataBlock && qNum < 4) || (s.blockApQueues && ((4 < qNum && qNum < 8) || qNum = 11))

/-- The adapter as the loop sees it. `sta` is the station among the vaps; the requests it has built are
in `mgmtQ`. -/
structure QosSys where
  tx : TxSys
  wmm : Wmm
  mgmtQ : List MgmtPkt
  sta : Option PsVap
  macInitDone : Bool
  beaconEvent : Bool
  bufStatusUpdated : Bool
  counter : Nat
  mgmtBufferFull : Bool
  bufferFull : Bool
  semiBufferFull : Bool

namespace QosSys

variable (s : QosSys)

def len (q : DataQ) : Nat := (s.tx.queue q).length

def psBreaks : Bool := s.macInitDone && s.sta.any fun v => v.psState = .enReqSent && v.ivState ≠ .run

def determine : Wmm × Option SoftQ := s.wmm.coreDetermineHalQueue s.len s.mgmtQ.length

/-- An iteration up to the tests of the blocked queues; without a queue the loop is left. -/
def select : QosSys × Option SoftQ :=
  if s.beaconEvent || s.psBreaks then (s, none)
  else ({ s with wmm := s.determine.1 }, s.determine.2.filter fun q => !s.tx.net.blocks q.num)

def readDue : Bool := s.bufStatusUpdated || s.counter = 0

/-- The buffer status register is read for every fourth packet, and for each while the buffers are half
full. -/
def readStatus (reg : Option (BitVec 8)) : QosSys × Bool :=
  if s.readDue then
    match reg with
    | none => ({ s with bufStatusUpdated := false }, false)
    | some r =>
      if r.getLsbD 2 then ({ s with bufStatusUpdated := false, mgmtBufferFull := true }, false)
      else
        ({ s with
          bufStatusUpdated := false, mgmtBufferFull := false, bufferFull := r.getLsbD 1
          semiBufferFull := r.getLsbD 0, counter := if r.getLsbD 0 then 1 else 4 }, true)
  else (s, true)

def isFull : SoftQ → Bool
  | .mgmt => s.mgmtBufferFull
  | .data _ => s.bufferFull

def wakesUp (v : PsVap) : Bool := s.macInitDone && v.psState = .devInPwrSve && v.ivState ≠ .run

/-- A station that sleeps outside `RUN` is woken, with a request at the head of the management queue. -/
def wakeForPending : QosSys :=
  match s.sta with
  | none => s
  | some v =>
    if s.wakesUp v then
      let u := { v with mgmtQ := [] }.updatePwrSaveStatus false .mgmtPending
      { s with sta := some { u with mgmtQ := [] }, mgmtQ := u.mgmtQ.map .ps ++ s.mgmtQ }
    else s

def markSent : MgmtPkt → Option PsVap
  | .ps f => s.sta.map fun v => v.markSent f
  | .other => s.sta

def sendMgmt : QosSys × Bool :=
  match s.mgmtQ with
  | [] => (s, false)
  | p :: rest => ({ s with mgmtQ := rest, sta := s.markSent p }, true)

def sendData (q : DataQ) : QosSys × Bool :=
  match s.tx.coreQosProcessor q with
  | none => (s, false)
  | some (tx, _) => ({ s with tx }, true)

def dequeue : SoftQ → QosSys × Bool
  | .mgmt => { s with counter := s.counter - 1 }.sendMgmt
  | .data q => { s with counter := s.counter - 1 }.sendData q

/-- The rest of an iteration, and whether the loop goes on. -/
def send (q : SoftQ) (reg : Option (BitVec 8)) : QosSys × Bool :=
  let r := s.readStatus reg
  if !r.2 || r.1.isFull q then (r.1, false) else r.1.wakeForPending.dequeue q

def iteration (reg : Option (BitVec 8)) : QosSys × Bool :=
  match s.select.2 with
  | none => (s.select.1, false)
  | some q => s.select.1.send q reg

variable {s} {q i : DataQ} {reg : Option (BitVec 8)}

theorem blocks_data (s : TxSys) (q : DataQ) : s.net.blocks (SoftQ.data q).num = s.blocked q := by
  rw [Net.blocks, TxSys.blocked]
  generalize s.net.staDataBlock = sta
  generalize s.net.blockApQueues = ap
  revert q sta ap
  decide

theorem blocks_mgmt (s : Net) : s.blocks SoftQ.mgmt.num = false := by simp [Net.blocks, SoftQ.num]

theorem select_tx (s : QosSys) : s.select.1.tx = s.tx := by
  rw [select]
  split <;> rfl

theorem select_eq_some {q : SoftQ} : s.select.2 = some q ↔
    s.beaconEvent = false ∧ s.psBreaks = false ∧ s.determine.2 = some q ∧ s.tx.net.blocks q.num = false := by
  rw [select]
  split
  case isTrue h =>
    rw [Bool.or_eq_true] at h
    rcases h with h | h <;> simp [h]
  case isFalse h =>
    rw [Bool.or_eq_true, not_or] at h
    simp [h, Option.filter_eq_some_iff]

theorem readStatus_tx (s : QosSys) (reg : Option (BitVec 8)) : (s.readStatus reg).1.tx = s.tx := by
  fun_cases readStatus s reg <;> rfl

theorem wakeForPending_tx (s : QosSys) : s.wakeForPending.tx = s.tx := by
  fun_cases wakeForPending s <;> rfl

theorem sendMgmt_tx (s : QosSys) : s.sendMgmt.1.tx = s.tx := by
  fun_cases sendMgmt s <;> rfl

theorem sendData_queue (hb : s.tx.blocked q = false) :
    (s.sendData q).1.tx.queue = Function.update s.tx.queue q (s.tx.queue q).tail := by
  fun_cases sendData s q with
  | case1 h =>
    rcases TxSys.coreQosProcessor_eq_none h with h | h
    · rw [hb] at h
      cases h
    · rw [h, List.tail_nil, ← h, Function.update_eq_self]
  | case2 tx o h => exact (TxSys.coreQosProcessor_queue h).2

theorem send_data_queue (hb : s.tx.blocked q = false) : (s.send (.data q) reg).1.tx.queue = s.tx.queue ∨
    (s.send (.data q) reg).1.tx.queue = Function.update s.tx.queue q (s.tx.queue q).tail := by
  have htx : (s.readStatus reg).1.wakeForPending.tx = s.tx := by rw [wakeForPending_tx, readStatus_tx]
  rw [send]
  split
  · exact .inl (congrArg TxSys.queue (readStatus_tx s reg))
  · rw [← htx] at hb ⊢
    exact .inr (sendData_queue hb)

theorem send_mgmt_tx (s : QosSys) (reg : Option (BitVec 8)) : (s.send .mgmt reg).1.tx = s.tx := by
  rw [send]
  split
  · exact readStatus_tx s reg
  · have htx : (s.readStatus reg).1.wakeForPending.tx = s.tx := by rw [wakeForPending_tx, readStatus_tx]
    exact (sendMgmt_tx _).trans htx

/-- An iteration leaves the data queues as they are, or takes the head of one that is not blocked. -/
theorem iteration_queue (s : QosSys) (reg : Option (BitVec 8)) : (s.iteration reg).1.tx.queue = s.tx.queue ∨
    ∃ q, s.tx.blocked q = false ∧
      (s.iteration reg).1.tx.queue = Function.update s.tx.queue q (s.tx.queue q).tail := by
  rw [iteration]
  cases h : s.select.2 with
  | none => exact .inl (congrArg TxSys.queue (select_tx s))
  | some p =>
    obtain ⟨-, -, -, hb⟩ := select_eq_some.mp h
    rw [← select_tx s] at hb ⊢
    cases p with
    | mgmt => exact .inl (congrArg TxSys.queue (send_mgmt_tx _ reg))
    | data q =>
      rw [blocks_data] at hb
      exact send_data_queue hb |>.imp_right fun hq => ⟨q, hb, hq⟩

end QosSys

namespace TxSys

variable (s : TxSys)

def apVaps : List VapId := (List.finRange 4).filter fun v => (s.vapTx v).inUse && (s.net.vap v).opmode = .hostap

/-- `onebox_scan_start`, as far as the data queues go. -/
def scanStart : TxSys :=
  { s with net := s.apVaps.foldl (fun net v =>
      if (net.vap v).run then { net with blockApQueues := true }.sendBlockUnblock .staDisconnected
      else net) s.net }

/-- The first loop of `traffic_timer_callback`. -/
def timerUnblock : TxSys :=
  { s with net := s.apVaps.foldl (fun net _ =>
      if net.blockApQueues && net.staDataBlock then
        { net with blockApQueues := false }.sendBlockUnblock .staDisconnected
      else net) s.net }

end TxSys

/-- What may happen around the loop. `contention` is `onebox_set_contention_vals`, `enter` a call of
`core_qos_processor`, and `env` stands for all that is set elsewhere. -/
inductive QosAct
  | net (e : NetEvent)
  | xmit (nb : Netbuf)
  | config (vapTx : VapId → VapTx) (radio : Radio) (scNmonvaps : Nat) (fsmOpen : Bool)
  | blockUnblock (ev : NotifyEvent)
  | scanStart
  | timer
  | mgmt (p : MgmtPkt)
  | contention (wmeOrgQ : DataQ → Int) (voAcm viAcm : Bool) (viTxopLimit : BitVec 8)
  | env (sta : Option PsVap) (macInitDone beaconEvent bufStatusUpdated mgmtBufferFull bufferFull : Bool)
  | enter
  | iteration (reg : Option (BitVec 8))

namespace QosSys

def step (s : QosSys) : QosAct → Option QosSys
  | .net e => (s.tx.event (.net e)).map fun tx => { s with tx }
  | .xmit nb => some { s with tx := s.tx.coreXmit nb }
  | .config vapTx radio scNmonvaps fsmOpen =>
    some { s with tx := { s.tx with vapTx, radio, scNmonvaps, fsmOpen } }
  | .blockUnblock ev => some { s with tx := { s.tx with net := s.tx.net.sendBlockUnblock ev } }
  | .scanStart => some { s with tx := s.tx.scanStart }
  | .timer => some { s with tx := s.tx.timerUnblock }
  | .mgmt p => some { s with mgmtQ := s.mgmtQ ++ [p] }
  | .contention wmeOrgQ voAcm viAcm viTxopLimit =>
    some { s with wmm := { s.wmm with
      perQWt := wmeOrgQ, wmeOrgQ, pktContended := fun _ => false, voAcm, viAcm, viTxopLimit } }
  | .env sta macInitDone beaconEvent bufStatusUpdated mgmtBufferFull bufferFull =>
    some { s with sta, macInitDone, beaconEvent, bufStatusUpdated, mgmtBufferFull, bufferFull }
  | .enter => some { s with counter := 0 }
  | .iteration reg => some (s.iteration reg).1

/-- The queues that the two flags are there for. -/
def forbidden (s : QosSys) (q : DataQ) : Bool :=
  (s.tx.net.staDataBlock && q.val < 4) || (s.tx.net.blockApQueues && 4 ≤ q.val)

def blockingEffective (s : QosSys) : QosAct → Bool
  | .iteration reg => decide (∀ q, s.forbidden q = true → (s.iteration reg).1.tx.queue q = s.tx.queue q)
  | _ => true

/-- No iteration starts with the queues of the access point blocked and a packet in `BK_Q_AP`. -/
def bkApDrained (s : QosSys) : QosAct → Bool
  | .iteration _ => !s.tx.net.blockApQueues || (s.tx.queue bkQAp).isEmpty
  | _ => true

variable {s : QosSys} {q : DataQ} {reg : Option (BitVec 8)}

/-- The tests let through one queue that they are meant to stop. -/
theorem forbidden_and_not_blocked :
    s.forbidden q = true ∧ s.tx.blocked q = false ↔ s.tx.net.blockApQueues = true ∧ q = bkQAp := by
  rw [forbidden, TxSys.blocked]
  generalize s.tx.net.staDataBlock = sta
  generalize s.tx.net.blockApQueues = ap
  revert q sta ap
  decide

theorem blockingEffective_of_drained {a : QosAct} (h : s.bkApDrained a = true) :
    s.blockingEffective a = true := by
  cases a with
  | iteration reg =>
    rw [blockingEffective, decide_eq_true_eq]
    intro i hforb
    rcases s.iteration_queue reg with hsame | ⟨q, hb, htail⟩
    · rw [hsame]
    · rw [htail]
      by_cases hi : i = q
      · subst hi
        obtain ⟨hap, rfl⟩ := forbidden_and_not_blocked.mp ⟨hforb, hb⟩
        have hempty : s.tx.queue bkQAp = [] := by simpa [bkApDrained, hap] using h
        rw [Function.update_self, hempty, List.tail_nil]
      · exact Function.update_of_ne hi _ _
  | _ => rfl

end QosSys

/-- Blocking is effective in every run in which `BK_Q_AP` is empty whenever an iteration starts with the
queues of the access point blocked. -/
theorem queue_blocking_effective {s : QosSys} {as : List QosAct}
    (h : Meets QosSys.step QosSys.bkApDrained s as) : Meets QosSys.step QosSys.blockingEffective s as :=
  h.imp (I := fun _ => True) (fun _ _ _ => trivial) (fun _ => QosSys.blockingEffective_of_drained) trivial

def freshWmm : Wmm :=
  { perQWt := fun _ => 0, wmeOrgQ := fun _ => 0, pktContended := fun _ => false, selectedQnum := bkQSta
    pktCnt := 0, voAcm := false, viAcm := false, viTxopLimit := 0#8 }

def ipPkt : Pkt := ⟨ipTo 5, apVap, none, 0#48⟩

/-- One packet waits in the given queue. -/
def oneIn (q : DataQ) : QosSys :=
  { tx := { freshTx with queue := fun i => if i = q then [ipPkt] else [] }
    wmm := freshWmm, mgmtQ := [], sta := none, macInitDone := true, beaconEvent := false
    bufStatusUpdated := false, counter := 0, mgmtBufferFull := false, bufferFull := false
    semiBufferFull := false }

/-- One packet waits in `BK_Q_AP` and two in `BE_Q_AP`. -/
def apTraffic : QosSys :=
  { oneIn bkQAp with tx := { freshTx with
      queue := fun i =>
        if i = bkQAp then [ipPkt] else if i = WmeAc.be.queue .hostap then [ipPkt, ipPkt] else [] } }

/-- Two packets go out before a scan starts, and the loop runs again during the scan. -/
def drainedThenScan : List QosAct :=
  [.enter, .iteration (some 0#8), .iteration (some 0#8), .scanStart, .enter, .iteration (some 0#8)]

theorem queue_blocking_effective_drained :
    Meets QosSys.step QosSys.bkApDrained apTraffic drainedThenScan ∧
      Meets QosSys.step QosSys.blockingEffective apTraffic drainedThenScan ∧
      (run QosSys.step apTraffic drainedThenScan).any (fun t => t.tx.net.blockApQueues ∧
        t.tx.queue bkQAp = [] ∧ t.tx.queue (WmeAc.be.queue .hostap) = [ipPkt]) = true := by
  have hdrained : Meets QosSys.step QosSys.bkApDrained apTraffic drainedThenScan := by decide
  exact ⟨hdrained, queue_blocking_effective hdrained, by decide⟩

/-- A scan blocks the queues of the access point, and `BK_Q_AP` is served all the same. -/
theorem bkQAp_served_in_scan :
    ¬ Meets QosSys.step QosSys.blockingEffective (oneIn bkQAp) [.scanStart, .enter, .iteration (some 0#8)] := by
  decide

end Onebox
