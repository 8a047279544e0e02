import Onebox.PsAgreement
import Onebox.QosLoop

/-! What `core_qos_processor` writes while the station is in deep sleep. The request to wake up
goes to the head of the management queue after the queue to be served has been chosen. -/

namespace Onebox

inductive DevFrame
  | mgmt (p : MgmtPkt)
  | data (pk : Pkt)

/-- What an iteration meets: the buffer status register, if it is read, and whether `send_pkt_to_coex` writes
the frame that it is given. A frame that is refused or whose write fails is freed, and the loop goes on. -/
structure QosRound where
  reg : Option (BitVec 8)
  taken : Bool

/-- What a call of `core_qos_processor` meets: whether it has transmit access, whether there is memory for a
request, and its iterations. -/
structure QosCall where
  access : Bool
  alloc : Bool
  rounds : List QosRound

def QosCall.takenAt (c : QosCall) (i : Nat) : Bool := c.rounds[i]?.any QosRound.taken

def MgmtPkt.isWakeup : MgmtPkt → Bool
  | .ps f => f.request = .wakeup
  | .other => false

def DevFrame.isWakeup : DevFrame → Bool
  | .mgmt p => p.isWakeup
  | .data _ => false

/-- The first of the management frames that is written, one in each iteration, is a request to wake up. -/
def wakesAmong : List MgmtPkt → List QosRound → Bool
  | p :: ps, r :: rs => if r.taken then p.isWakeup else wakesAmong ps rs
  | _, _ => false

/-- The packet at the head of the queue, if there is one, is dropped when it comes out. -/
def TxSys.dropsHead (s : TxSys) (q : DataQ) : Bool :=
  (s.queue q).head?.all fun pk => !((s.vapTx (vapOf pk)).inUse && s.deliverable pk)

namespace QosSys

variable (s : QosSys)

/-- Without memory for the request the state of the station changes all the same. -/
def wakeFor (alloc : Bool) : QosSys :=
  if alloc then s.wakeForPending else { s.wakeForPending with mgmtQ := s.mgmtQ }

/-- The frame that comes out of a queue, if it is not dropped. -/
def frameOf : SoftQ → Option DevFrame
  | .mgmt => s.mgmtQ.head?.map .mgmt
  | .data q => ((s.tx.coreQosProcessor q).bind Prod.snd).map .data

/-- The state in which an iteration takes a packet, with the queue that it takes it from. -/
def ready (alloc : Bool) (reg : Option (BitVec 8)) : Option (QosSys × SoftQ) :=
  s.select.2.bind fun q =>
    let r := s.select.1.readStatus reg
    if !r.2 || r.1.isFull q then none else some (r.1.wakeFor alloc, q)

/-- An iteration of the loop; without memory for the request it is the same but for that frame. -/
def iterated (alloc : Bool) (reg : Option (BitVec 8)) : QosSys × Bool :=
  if alloc then s.iteration reg
  else match s.ready false reg with
    | none => (s, false)
    | some (u, q) => u.dequeue q

def written (alloc : Bool) (r : QosRound) : Option DevFrame :=
  if r.taken then (s.ready alloc r.reg).bind fun p => p.1.frameOf p.2 else none

/-- The frames that are written from here on. -/
def writesFrom (c : QosCall) : QosSys → List QosRound → List DevFrame
  | _, [] => []
  | s, r :: rs =>
    (s.written c.alloc r).toList ++
      if (s.iterated c.alloc r.reg).2 then writesFrom c (s.iterated c.alloc r.reg).1 rs else []

def writes (c : QosCall) : List DevFrame :=
  if c.access then writesFrom c { s with counter := 0 } c.rounds else []

/-- The frame that is written first, if any, is a request to wake up. -/
def WakeupFirst (c : QosCall) : Prop := (s.writes c).head?.all DevFrame.isWakeup

variable {s} {u : QosSys} {q : SoftQ} {alloc : Bool} {reg : Option (BitVec 8)}

/-- The device has no room for a packet of the queue, or its register cannot be read. -/
def noRoom (s : QosSys) (reg : Option (BitVec 8)) (q : SoftQ) : Bool :=
  !(s.readStatus reg).2 || (s.readStatus reg).1.isFull q

theorem noRoom_wmm (s : QosSys) (w : Wmm) (reg : Option (BitVec 8)) (q : SoftQ) :
    { s with wmm := w }.noRoom reg q = s.noRoom reg q := by
  have hdue : { s with wmm := w }.readDue = s.readDue := rfl
  simp only [noRoom, readStatus, hdue]
  split_ifs
  · cases reg with
    | none => rfl
    | some r =>
      by_cases hfull : r.getLsbD 2 = true
      · simp only [hfull, if_true]
        rfl
      · simp only [hfull]
        cases q <;> rfl
  · cases q <;> rfl

theorem noRoom_select (s : QosSys) (reg : Option (BitVec 8)) (q : SoftQ) :
    s.select.1.noRoom reg q = s.noRoom reg q := by
  rw [select]
  split_ifs
  · rfl
  · exact noRoom_wmm s _ reg q

theorem ready_eq_some : s.ready alloc reg = some (u, q) ↔
    s.select.2 = some q ∧ s.noRoom reg q = false ∧ (s.select.1.readStatus reg).1.wakeFor alloc = u := by
  rw [ready, Option.bind_eq_some_iff, ← noRoom_select, noRoom]
  constructor
  · rintro ⟨p, hp, h⟩
    obtain ⟨hroom, h⟩ := Option.ite_none_left_eq_some.mp h
    obtain ⟨rfl, rfl⟩ := Prod.mk.inj (Option.some.inj h)
    exact ⟨hp, eq_false_of_ne_true hroom, rfl⟩
  · rintro ⟨hp, hroom, rfl⟩
    exact ⟨q, hp, by simp [hroom]⟩

theorem iteration_of_ready (h : s.ready true reg = some (u, q)) : s.iteration reg = u.dequeue q := by
  obtain ⟨hsel, hroom, rfl⟩ := ready_eq_some.mp h
  rw [← noRoom_select, noRoom] at hroom
  rw [iteration, hsel]
  simp only [send, hroom, Bool.false_eq_true, if_false]
  rfl

theorem iteration_of_not_ready (h : s.ready true reg = none) : (s.iteration reg).2 = false := by
  rw [iteration]
  cases hsel : s.select.2 with
  | none => rfl
  | some q =>
    by_contra hgo
    simp only [send] at hgo
    split_ifs at hgo with hroom
    · exact hgo rfl
    · have hready : s.ready true reg = some ((s.select.1.readStatus reg).1.wakeFor true, q) :=
        ready_eq_some.mpr ⟨hsel, (noRoom_select s reg q).symm.trans (eq_false_of_ne_true hroom), rfl⟩
      rw [h] at hready
      cases hready

theorem iterated_of_ready (h : s.ready alloc reg = some (u, q)) : s.iterated alloc reg = u.dequeue q := by
  cases alloc with
  | true => exact iteration_of_ready h
  | false =>
    rw [iterated, if_neg Bool.false_ne_true, h]

theorem iterated_of_not_ready (h : s.ready alloc reg = none) : (s.iterated alloc reg).2 = false := by
  cases alloc with
  | true => exact iteration_of_not_ready h
  | false => rw [iterated, if_neg Bool.false_ne_true, h]

/-- The parts of the adapter that decide about a request to wake up. -/
structure SamePs (s t : QosSys) : Prop where
  tx : t.tx = s.tx
  mgmtQ : t.mgmtQ = s.mgmtQ
  sta : t.sta = s.sta
  macInitDone : t.macInitDone = s.macInitDone

theorem samePs_select (s : QosSys) : SamePs s s.select.1 := by
  rw [select]
  split_ifs
  · exact ⟨rfl, rfl, rfl, rfl⟩
  · exact ⟨rfl, rfl, rfl, rfl⟩

theorem samePs_readStatus (s : QosSys) (reg : Option (BitVec 8)) : SamePs s (s.readStatus reg).1 := by
  fun_cases readStatus s reg with
  | case1 | case2 | case3 | case4 => exact ⟨rfl, rfl, rfl, rfl⟩

theorem SamePs.trans {s t u : QosSys} (h : SamePs s t) (h' : SamePs t u) : SamePs s u :=
  ⟨h'.tx.trans h.tx, h'.mgmtQ.trans h.mgmtQ, h'.sta.trans h.sta, h'.macInitDone.trans h.macInitDone⟩

theorem SamePs.wakeFor {s t : QosSys} (h : SamePs s t) (alloc : Bool) :
    SamePs (s.wakeFor alloc) (t.wakeFor alloc) := by
  obtain ⟨htx, hq, hsta, hmac⟩ := h
  have hwakes : t.wakesUp = s.wakesUp := by
    funext v
    rw [wakesUp, wakesUp, hmac]
  have hpending : SamePs s.wakeForPending t.wakeForPending := by
    rw [wakeForPending, wakeForPending, hsta, hwakes, hq]
    cases hs : s.sta with
    | none => exact ⟨htx, hq, hsta, hmac⟩
    | some v =>
      dsimp only
      split_ifs
      · exact ⟨htx, rfl, rfl, hmac⟩
      · exact ⟨htx, hq, hsta, hmac⟩
  cases alloc with
  | true => exact hpending
  | false => exact ⟨hpending.tx, hq, hpending.sta, hpending.macInitDone⟩

/-- An iteration takes its packet from the queue determined at its start. -/
theorem ready_spec (h : s.ready alloc reg = some (u, q)) : s.determine.2 = some q ∧ SamePs (s.wakeFor alloc) u := by
  obtain ⟨hsel, -, rfl⟩ := ready_eq_some.mp h
  obtain ⟨-, -, hdet, -⟩ := select_eq_some.mp hsel
  exact ⟨hdet, ((samePs_select s).trans (samePs_readStatus _ reg)).wakeFor alloc⟩

/-- The management queue is served before any other. -/
theorem eq_mgmt_iff (h : s.determine.2 = some q) : q = .mgmt ↔ s.mgmtQ ≠ [] := by
  constructor
  · rintro rfl hnil
    have hdet := Wmm.coreDetermineHalQueue_determines s.len s.wmm s.mgmtQ.length
    rw [show (s.wmm.coreDetermineHalQueue s.len s.mgmtQ.length).2 = some .mgmt from h] at hdet
    exact hdet.mgmt_ne_zero (by rw [hnil]; rfl)
  · intro hne
    have hlen : s.mgmtQ.length ≠ 0 := fun h0 => hne (List.length_eq_zero_iff.mp h0)
    rw [determine, Wmm.coreDetermineHalQueue, if_pos hlen] at h
    exact (Option.some.inj h).symm

theorem wakeFor_tx (s : QosSys) (alloc : Bool) : (s.wakeFor alloc).tx = s.tx := by
  cases alloc with
  | true => exact wakeForPending_tx s
  | false => exact wakeForPending_tx s

theorem dequeue_mgmt {p : MgmtPkt} {ps : List MgmtPkt} (h : u.mgmtQ = p :: ps) :
    (u.dequeue .mgmt).2 = true ∧ (u.dequeue .mgmt).1.mgmtQ = ps ∧ u.frameOf .mgmt = some (.mgmt p) := by
  rw [dequeue, sendMgmt, frameOf]
  simp [h]

theorem dequeue_data (u : QosSys) (q : DataQ) :
    (u.dequeue (.data q)).1.mgmtQ = u.mgmtQ ∧ (u.dequeue (.data q)).1.sta = u.sta := by
  rw [dequeue]
  fun_cases sendData { u with counter := u.counter - 1 } q with
  | case1 | case2 => exact ⟨rfl, rfl⟩

/-- Once the request is made no other follows, and the loop is not left for it. -/
def Awake (s : QosSys) : Prop := ∃ v, s.sta = some v ∧ v.psState = .disReqSent

theorem Awake.of_samePs (h : s.Awake) (hsame : SamePs s u) : u.Awake := by
  obtain ⟨v, hv, hps⟩ := h
  exact ⟨v, hsame.sta.trans hv, hps⟩

theorem Awake.wakeFor (h : s.Awake) (alloc : Bool) : s.wakeFor alloc = s := by
  obtain ⟨v, hsta, hps⟩ := h
  have hwakes : s.wakesUp v = false := by simp [wakesUp, hps]
  have hpending : s.wakeForPending = s := by simp [wakeForPending, hsta, hwakes]
  rw [QosSys.wakeFor, hpending, ite_self]

theorem Awake.dequeue (h : u.Awake) (q : SoftQ) : (u.dequeue q).1.Awake := by
  obtain ⟨v, hsta, hps⟩ := h
  cases q with
  | data q => exact ⟨v, (dequeue_data u q).2.trans hsta, hps⟩
  | mgmt =>
    have hmark : ∀ f, v.markSent f = v := fun f => by simp [PsVap.markSent, hps]
    rw [QosSys.dequeue, sendMgmt]
    cases hq : u.mgmtQ with
    | nil => exact ⟨v, hsta, hps⟩
    | cons p ps =>
      refine ⟨v, ?_, hps⟩
      cases p with
      | ps f =>
        show u.sta.map (fun v => v.markSent f) = some v
        rw [hsta, Option.map_some, hmark]
      | other => exact hsta

section Rounds

variable {c : QosCall} {rounds : List QosRound}

/-- A call that writes a frame comes past the tests of its first iteration. -/
theorem exists_ready (h : writesFrom c s rounds ≠ []) :
    ∃ r rest u q, rounds = r :: rest ∧ s.ready c.alloc r.reg = some (u, q) ∧
      writesFrom c s rounds = (if r.taken then u.frameOf q else none).toList ++
        if (u.dequeue q).2 then writesFrom c (u.dequeue q).1 rest else [] := by
  cases rounds with
  | nil => exact absurd rfl h
  | cons r rest =>
    cases hready : s.ready c.alloc r.reg with
    | none =>
      rw [writesFrom, iterated_of_not_ready hready, written, hready] at h
      simp at h
    | some p =>
      obtain ⟨u, q⟩ := p
      refine ⟨r, rest, u, q, rfl, hready, ?_⟩
      rw [writesFrom, iterated_of_ready hready, written, hready]
      rfl

/-- From here on no request is added: the management frames go out in their order, before any data. -/
theorem all_head_iff (hq : (s.wakeFor c.alloc).mgmtQ = s.mgmtQ) (hawake : (s.wakeFor c.alloc).Awake)
    (hw : writesFrom c s rounds ≠ []) :
    (writesFrom c s rounds).head?.all DevFrame.isWakeup = wakesAmong s.mgmtQ rounds := by
  induction rounds generalizing s with
  | nil => exact absurd rfl hw
  | cons r rest ih =>
    obtain ⟨_, _, u, q, heq, hready, hcons⟩ := exists_ready hw
    cases heq
    obtain ⟨hdet, hsame⟩ := ready_spec hready
    have hmgmt : u.mgmtQ = s.mgmtQ := hsame.mgmtQ.trans hq
    have hnext := (hawake.of_samePs hsame).dequeue q
    have hsettled := hnext.wakeFor c.alloc
    have hrec := @ih (u.dequeue q).1 (by rw [hsettled]) (by rw [hsettled]; exact hnext)
    rw [hcons] at hw ⊢
    cases hs : s.mgmtQ with
    | cons p ps =>
      obtain rfl := (eq_mgmt_iff hdet).mpr (by rw [hs]; exact List.cons_ne_nil p ps)
      obtain ⟨hgo, hrest, hframe⟩ := dequeue_mgmt (hmgmt.trans hs)
      rw [hgo, if_pos rfl, hframe] at hw ⊢
      cases htaken : r.taken with
      | true => simp [wakesAmong, htaken, DevFrame.isWakeup]
      | false =>
        simp only [htaken, Bool.false_eq_true, if_false, Option.toList_none, List.nil_append] at hw ⊢
        rw [hrec hw, hrest, wakesAmong, htaken]
        rfl
    | nil =>
      cases q with
      | mgmt => exact absurd hs ((eq_mgmt_iff hdet).mp rfl)
      | data q =>
        have hempty : (u.dequeue (.data q)).1.mgmtQ = [] := (dequeue_data u q).1.trans (hmgmt.trans hs)
        cases hframe : (if r.taken then u.frameOf (.data q) else none) with
        | some f =>
          obtain ⟨pk, -, rfl⟩ := Option.map_eq_some_iff.mp (Option.ite_none_right_eq_some.mp hframe).2
          rfl
        | none =>
          simp only [hframe, Option.toList_none, List.nil_append] at hw ⊢
          split_ifs at hw ⊢ with hgo
          · rw [hrec hw, hempty]
            rfl
          · exact absurd rfl hw

end Rounds

end QosSys

/-- The pending frame wakes a station in deep sleep by one request at the head of its queue. -/
theorem PsVap.updatePwrSaveStatus_mgmtPending {v : PsVap} (hps : v.psState = .devInPwrSve)
    (hrun : v.ivState ≠ .run) (hn : v.scNvaps = 1) :
    v.updatePwrSaveStatus false .mgmtPending =
      ({ v with delayPwrSveDecision := false }.sendPsParamsReq false true).setPsState .disReqSent := by
  simp [updatePwrSaveStatus, checkDeepSleepStatus, pwrSveEventHandler, psSwitch, caseSettled, hps, hrun, hn]

/-- One station outside `RUN`, with power save enabled. -/
structure DeepSleeper (s : QosSys) (v : PsVap) : Prop where
  sta : s.sta = some v
  scNvaps : v.scNvaps = 1
  notRun : v.ivState ≠ .run
  macInitDone : s.macInitDone = true
  psEn : v.psParams.psEn = true

/-- What the call finds. With no management frame the request is the second frame that the loop hands over: it
must be written, and the first, a data packet, must not be written or be dropped, whichever queue wins the
contention. Otherwise the request goes ahead of the management frames, and the first of them that is written
must be a request to wake up. -/
def QosSys.RequestAhead (s : QosSys) (c : QosCall) : Prop :=
  if s.mgmtQ = [] then
    c.alloc = true ∧ c.takenAt 1 = true ∧
      (c.takenAt 0 = true → ∀ q, s.tx.blocked q = false → s.tx.dropsHead q = true)
  else if c.alloc then c.takenAt 0 = true ∨ wakesAmong s.mgmtQ c.rounds.tail = true
  else wakesAmong s.mgmtQ c.rounds = true

section Gating

variable {s u : QosSys} {v : PsVap} {c : QosCall} {rounds : List QosRound}

theorem wakeForPending_asleep (h : DeepSleeper s v) (hps : v.psState = .devInPwrSve) :
    ∃ p, s.wakeForPending.mgmtQ = p :: s.mgmtQ ∧ p.isWakeup = true ∧ s.wakeForPending.Awake := by
  have hwakes : s.wakesUp v = true := by
    simp [QosSys.wakesUp, h.macInitDone, hps, h.notRun]
  rw [QosSys.wakeForPending, h.sta]
  simp only [hwakes, if_true]
  have hupdate := PsVap.updatePwrSaveStatus_mgmtPending (v := { v with mgmtQ := [] }) hps h.notRun h.scNvaps
  rw [hupdate]
  exact ⟨_, rfl, rfl, _, rfl, rfl⟩

/-- Without memory only what is in the management queue can be a request. -/
theorem all_head_noAlloc (h : DeepSleeper s v) (hps : v.psState = .devInPwrSve) (halloc : c.alloc = false)
    (hw : QosSys.writesFrom c s rounds ≠ []) :
    (QosSys.writesFrom c s rounds).head?.all DevFrame.isWakeup = wakesAmong s.mgmtQ rounds := by
  obtain ⟨-, -, -, hawake⟩ := wakeForPending_asleep h hps
  refine QosSys.all_head_iff ?_ ?_ hw
  · rw [halloc]
    rfl
  · rw [halloc]
    exact hawake

/-- What is left to the iterations after the first. -/
theorem all_head_tail (hu : u.Awake) (q : SoftQ) (hw : QosSys.writesFrom c (u.dequeue q).1 rounds ≠ []) :
    (QosSys.writesFrom c (u.dequeue q).1 rounds).head?.all DevFrame.isWakeup =
      wakesAmong (u.dequeue q).1.mgmtQ rounds := by
  have hsettled := (hu.dequeue q).wakeFor c.alloc
  exact QosSys.all_head_iff (by rw [hsettled]) (by rw [hsettled]; exact hu.dequeue q) hw

theorem all_head_mgmt (h : DeepSleeper s v) (hps : v.psState = .devInPwrSve) (halloc : c.alloc = true)
    (hq : s.mgmtQ ≠ []) (hw : QosSys.writesFrom c s rounds ≠ []) :
    (QosSys.writesFrom c s rounds).head?.all DevFrame.isWakeup =
      (rounds[0]?.any QosRound.taken || wakesAmong s.mgmtQ rounds.tail) := by
  obtain ⟨p, hqueue, hreq, hawake⟩ := wakeForPending_asleep h hps
  obtain ⟨r, rest, u, q, rfl, hready, hcons⟩ := QosSys.exists_ready hw
  obtain ⟨hdet, hsame⟩ := QosSys.ready_spec hready
  rw [halloc] at hsame
  obtain rfl := (QosSys.eq_mgmt_iff hdet).mpr hq
  obtain ⟨hgo, hrest, hframe⟩ := QosSys.dequeue_mgmt (hsame.mgmtQ.trans hqueue)
  rw [hcons, hgo, if_pos rfl, hframe] at hw ⊢
  cases htaken : r.taken with
  | true => simp [DevFrame.isWakeup, hreq, htaken]
  | false =>
    simp only [htaken, Bool.false_eq_true, if_false, Option.toList_none, List.nil_append] at hw ⊢
    rw [all_head_tail (hawake.of_samePs hsame) .mgmt hw, hrest]
    simp [htaken]

theorem wakesAmong_request {p : MgmtPkt} (hp : p.isWakeup = true) (rounds : List QosRound) :
    wakesAmong [p] rounds = rounds[0]?.any QosRound.taken := by
  cases rounds with
  | nil => rfl
  | cons r rs =>
    rw [wakesAmong]
    cases htaken : r.taken with
    | true => simp [htaken, hp]
    | false => simp [htaken, wakesAmong]

theorem TxSys.isSome_passed {tx : TxSys} {q : DataQ} (hopen : tx.blocked q = false) :
    ((tx.coreQosProcessor q).bind Prod.snd).isSome = !tx.dropsHead q := by
  cases hproc : tx.coreQosProcessor q with
  | none =>
    have hempty : tx.queue q = [] := (coreQosProcessor_eq_none hproc).resolve_left (by simp [hopen])
    simp [dropsHead, hempty]
  | some r =>
    obtain ⟨t, o⟩ := r
    obtain ⟨pk, rest, hq, ⟨huse, -, rfl⟩ | ⟨huse, -, rfl⟩⟩ := coreQosProcessor_cases hproc
    · rw [dropsHead, hq]
      cases hdel : tx.deliverable pk with
      | true => simp [huse, hdel]
      | false => simp [hdel]
    · simp [dropsHead, hq, huse]

theorem QosSys.isSome_frameOf {q : DataQ} (htx : u.tx = s.tx) (hopen : s.tx.blocked q = false) :
    (u.frameOf (.data q)).isSome = !s.tx.dropsHead q := by
  rw [frameOf, Option.isSome_map, htx, TxSys.isSome_passed hopen]

/-- A data packet that is not dropped is written before the request. -/
theorem all_head_of_data {r : QosRound} {q : DataQ} (rounds : List QosRound)
    (hready : s.ready c.alloc r.reg = some (u, .data q)) (htaken : r.taken = true) (hopen : s.tx.blocked q = false) (hhead : s.tx.dropsHead q = false) :
    (QosSys.writesFrom c s (r :: rounds)).head?.all DevFrame.isWakeup = false := by
  have htx : u.tx = s.tx := (QosSys.ready_spec hready).2.tx.trans (QosSys.wakeFor_tx s c.alloc)
  have hsome := QosSys.isSome_frameOf htx hopen
  rw [hhead] at hsome
  obtain ⟨f, hf⟩ := Option.isSome_iff_exists.mp hsome
  obtain ⟨pk, -, rfl⟩ := Option.map_eq_some_iff.mp hf
  rw [QosSys.writesFrom, QosSys.written, if_pos htaken, hready, Option.bind_some, hf]
  rfl

/-- The first iteration serves a data queue, and the request is the next frame. -/
theorem all_head_nil (h : DeepSleeper s v) (hps : v.psState = .devInPwrSve) (halloc : c.alloc = true)
    (hq : s.mgmtQ = []) (hw : QosSys.writesFrom c s rounds ≠ []) :
    ∃ q, s.tx.blocked q = false ∧
      (QosSys.writesFrom c s rounds).head?.all DevFrame.isWakeup =
        (rounds[1]?.any QosRound.taken && (!rounds[0]?.any QosRound.taken || s.tx.dropsHead q)) := by
  obtain ⟨p, hqueue, hreq, hawake⟩ := wakeForPending_asleep h hps
  obtain ⟨r, rest, u, q, rfl, hready, hcons⟩ := QosSys.exists_ready hw
  obtain ⟨hdet, hsame⟩ := QosSys.ready_spec hready
  have hopen := (QosSys.select_eq_some.mp (QosSys.ready_eq_some.mp hready).1).2.2.2
  rw [halloc] at hsame
  cases q with
  | mgmt => exact absurd hq ((QosSys.eq_mgmt_iff hdet).mp rfl)
  | data q =>
    rw [QosSys.blocks_data] at hopen
    refine ⟨q, hopen, ?_⟩
    by_cases hfirst : r.taken = true ∧ s.tx.dropsHead q = false
    · rw [all_head_of_data rest hready hfirst.1 hopen hfirst.2]
      simp [hfirst]
    · have hframe : (if r.taken then u.frameOf (.data q) else none) = none := by
        split_ifs with htaken
        · have hsome := QosSys.isSome_frameOf (hsame.tx.trans (QosSys.wakeFor_tx s true)) hopen
          rw [eq_true_of_ne_false fun hno => hfirst ⟨htaken, hno⟩] at hsome
          exact Option.isNone_iff_eq_none.mp (by simpa using hsome)
        · rfl
      have hmgmt : (u.dequeue (.data q)).1.mgmtQ = [p] := by
        rw [(QosSys.dequeue_data u q).1, hsame.mgmtQ]
        exact hqueue.trans (by rw [hq])
      have hpass : (!r.taken || s.tx.dropsHead q) = true := by
        cases htaken : r.taken with
        | false => rfl
        | true => simpa [htaken] using hfirst
      rw [hcons, hframe] at hw ⊢
      simp only [Option.toList_none, List.nil_append] at hw ⊢
      split_ifs at hw ⊢
      · rw [all_head_tail (hawake.of_samePs hsame) (.data q) hw, hmgmt, wakesAmong_request hreq]
        simp [hpass]
      · exact absurd rfl hw

theorem writesFrom_enReqSent (h : DeepSleeper s v) (hps : v.psState = .enReqSent) :
    QosSys.writesFrom c s rounds = [] := by
  have hbreaks : s.psBreaks = true := by simp [QosSys.psBreaks, h.macInitDone, h.sta, hps, h.notRun]
  by_contra hw
  obtain ⟨r, rest, u, q, -, hready, -⟩ := QosSys.exists_ready hw
  have hno := (QosSys.select_eq_some.mp (QosSys.ready_eq_some.mp hready).1).2.1
  rw [hbreaks] at hno
  cases hno

/-- Each data queue that is not blocked can be the one of a burst. -/
theorem QosSys.exists_ready_wmm {alloc : Bool} {reg : Option (BitVec 8)} {q q' : DataQ}
    (hready : s.ready alloc reg = some (u, .data q)) (hopen : s.tx.blocked q' = false) :
    ∃ w t, { s with wmm := w }.ready alloc reg = some (t, .data q') := by
  obtain ⟨hsel, hroom, -⟩ := ready_eq_some.mp hready
  obtain ⟨hbeacon, hbreaks, hdet, -⟩ := select_eq_some.mp hsel
  have hmgmt : s.mgmtQ = [] := by
    by_contra hne
    cases (eq_mgmt_iff hdet).mpr hne
  refine ⟨{ s.wmm with pktCnt := 1, selectedQnum := q' }, _, ready_eq_some.mpr ⟨?_, ?_, rfl⟩⟩
  · refine select_eq_some.mpr ⟨hbeacon, hbreaks, ?_, (blocks_data s.tx q').trans hopen⟩
    simp [determine, Wmm.coreDetermineHalQueue, hmgmt]
  · exact (noRoom_wmm s _ reg (.data q')).trans hroom

section Forall

theorem DeepSleeper.enter (h : DeepSleeper s v) (w : Wmm) : DeepSleeper { s with wmm := w, counter := 0 } v :=
  ⟨h.sta, h.scNvaps, h.notRun, h.macInitDone, h.psEn⟩

/-- Where the first frame depends on no contention, one call that writes a frame decides about all. -/
theorem wakeupFirst_iff {b : Bool} (hex : ∃ w, { s with wmm := w }.writes c ≠ [])
    (h : ∀ w, { s with wmm := w }.writes c ≠ [] →
      ({ s with wmm := w }.writes c).head?.all DevFrame.isWakeup = b) :
    (∀ w, { s with wmm := w }.WakeupFirst c) ↔ b = true := by
  constructor
  · intro hall
    obtain ⟨w, hw⟩ := hex
    exact (h w hw).symm.trans (hall w)
  · intro hb w
    by_cases hw : { s with wmm := w }.writes c = []
    · rw [QosSys.WakeupFirst, hw]
      rfl
    · exact (h w hw).trans hb

theorem access_of_writes (hw : s.writes c ≠ []) : c.access = true := by
  by_contra hno
  exact hw (if_neg hno)

theorem writes_eq (hacc : c.access = true) : s.writes c = QosSys.writesFrom c { s with counter := 0 } c.rounds :=
  if_pos hacc

theorem wakeupFirst_iff_nil (h : DeepSleeper s v) (hps : v.psState = .devInPwrSve) (halloc : c.alloc = true)
    (hq : s.mgmtQ = []) (hex : ∃ w, { s with wmm := w }.writes c ≠ []) :
    (∀ w, { s with wmm := w }.WakeupFirst c) ↔ c.takenAt 1 = true ∧
      (c.takenAt 0 = true → ∀ q, s.tx.blocked q = false → s.tx.dropsHead q = true) := by
  obtain ⟨w₀, hw₀⟩ := hex
  have hacc := access_of_writes hw₀
  have hspec : ∀ w, { s with wmm := w }.writes c ≠ [] → ∃ q, s.tx.blocked q = false ∧
      ({ s with wmm := w }.writes c).head?.all DevFrame.isWakeup =
        (c.takenAt 1 && (!c.takenAt 0 || s.tx.dropsHead q)) := by
    intro w hw
    rw [writes_eq hacc] at hw ⊢
    exact all_head_nil (h.enter w) hps halloc hq hw
  constructor
  · intro hall
    obtain ⟨q₀, -, hfirst⟩ := hspec w₀ hw₀
    have htaken := Bool.and_eq_true_iff.mp (hfirst.symm.trans (hall w₀))
    refine ⟨htaken.1, fun hzero q hopen => ?_⟩
    by_contra hhead
    rw [writes_eq hacc] at hw₀
    obtain ⟨r, rest, u, p, hrounds, hready, -⟩ := QosSys.exists_ready hw₀
    have hround : r.taken = true := by simpa [QosCall.takenAt, hrounds] using hzero
    cases p with
    | mgmt => exact (QosSys.eq_mgmt_iff (QosSys.ready_spec hready).1).mp rfl hq
    | data p =>
      -- with this queue in a burst its packet is the first frame
      obtain ⟨w, t, ht⟩ := QosSys.exists_ready_wmm hready hopen
      have hdata := all_head_of_data rest ht hround hopen (eq_false_of_ne_true hhead)
      have hwakeup := hall w
      rw [QosSys.WakeupFirst, writes_eq hacc, hrounds] at hwakeup
      cases hdata.symm.trans hwakeup
  · rintro ⟨hone, hzero⟩ w
    by_cases hw : { s with wmm := w }.writes c = []
    · rw [QosSys.WakeupFirst, hw]
      rfl
    · obtain ⟨q, hopen, hfirst⟩ := hspec w hw
      rw [QosSys.WakeupFirst, hfirst, hone, Bool.true_and]
      cases hz : c.takenAt 0 with
      | false => rfl
      | true => exact hzero hz q hopen

theorem wakeupFirst_iff_requestAhead (h : DeepSleeper s v) (hps : v.psState = .devInPwrSve)
    (hex : ∃ w, { s with wmm := w }.writes c ≠ []) :
    (∀ w, { s with wmm := w }.WakeupFirst c) ↔ s.RequestAhead c := by
  have hacc : c.access = true := hex.elim fun w hw => access_of_writes hw
  rw [QosSys.RequestAhead]
  cases halloc : c.alloc with
  | false =>
    have hnone : (∀ w, { s with wmm := w }.WakeupFirst c) ↔ wakesAmong s.mgmtQ c.rounds = true := by
      refine wakeupFirst_iff hex fun w hw => ?_
      rw [writes_eq hacc] at hw ⊢
      exact all_head_noAlloc (h.enter w) hps halloc hw
    rw [hnone]
    by_cases hq : s.mgmtQ = []
    · simp [hq, wakesAmong]
    · rw [if_neg hq, if_neg Bool.false_ne_true]
  | true =>
    by_cases hq : s.mgmtQ = []
    · rw [if_pos hq, wakeupFirst_iff_nil h hps halloc hq hex, and_iff_right rfl]
    · rw [if_neg hq, if_pos rfl, ← Bool.or_eq_true]
      refine wakeupFirst_iff hex fun w hw => ?_
      rw [writes_eq hacc] at hw ⊢
      exact all_head_mgmt (h.enter w) hps halloc hq hw

end Forall

/-- A call that finds the station in deep sleep and can write a frame writes the request to wake up first,
however the contention of the data queues stands, if and only if the request is ahead of what else there is.
A call that finds a request for sleep under way writes nothing. -/
theorem deep_sleep_gating_iff (h : DeepSleeper s v) (c : QosCall) :
    (v.psState = .devInPwrSve → (∃ w, { s with wmm := w }.writes c ≠ []) →
      ((∀ w, { s with wmm := w }.WakeupFirst c) ↔ s.RequestAhead c)) ∧
    (v.psState = .enReqSent → s.writes c = []) := by
  refine ⟨fun hps hex => wakeupFirst_iff_requestAhead h hps hex, fun hps => ?_⟩
  rw [QosSys.writes]
  split_ifs
  · exact writesFrom_enReqSent (h.enter s.wmm) hps
  · rfl

end Gating

def sleepingVap : PsVap := { freshVap with psState := .devInPwrSve, psParams := psOn }

/-- A station in deep sleep with a data packet for a connected peer and the given management frames. -/
def sleeping (mgmtQ : List MgmtPkt) : QosSys :=
  let net := { freshNet with stations := { freshNet.stations with bitmap := 1#128 }, staDataBlock := false }
  let waiting := oneIn bkQSta
  { waiting with tx := { waiting.tx with net }, sta := some sleepingVap, mgmtQ }

theorem deepSleeper_sleeping (mgmtQ : List MgmtPkt) : DeepSleeper (sleeping mgmtQ) sleepingVap :=
  ⟨rfl, rfl, by decide, rfl, rfl⟩

/-- Iterations with room in the device, and which of their frames are written. -/
def roomyCall (taken : List Bool) : QosCall := ⟨true, true, taken.map fun t => ⟨some 0#8, t⟩⟩

theorem deep_sleep_gating_iff_pending :
    DeepSleeper (sleeping [.other]) sleepingVap ∧
      (sleeping [.other]).writes (roomyCall [true, false, true]) ≠ [] ∧
      (sleeping [.other]).WakeupFirst (roomyCall [true, false, true]) := by
  have hsleep := deepSleeper_sleeping [.other]
  have hwrites : (sleeping [.other]).writes (roomyCall [true, false, true]) ≠ [] :=
    List.ne_nil_of_length_pos (by decide)
  have hahead : (sleeping [.other]).RequestAhead (roomyCall [true, false, true]) := by
    rw [QosSys.RequestAhead, if_neg (by decide), if_pos (show (roomyCall _).alloc = true from rfl)]
    exact .inl rfl
  exact ⟨hsleep, hwrites, ((deep_sleep_gating_iff hsleep _).1 rfl ⟨_, hwrites⟩).mpr hahead _⟩

/-- With no management frame waiting, the data packet is written before the request to wake up. -/
theorem sleeping_data_first :
    DeepSleeper (sleeping []) sleepingVap ∧ sleepingVap.psState = .devInPwrSve ∧
      ((sleeping []).writes (roomyCall [true, true])).map DevFrame.isWakeup = [false, true] ∧
      ¬ (sleeping []).WakeupFirst (roomyCall [true, true]) := by
  refine ⟨deepSleeper_sleeping [], rfl, by decide, ?_⟩
  rw [QosSys.WakeupFirst]
  decide

end Onebox
