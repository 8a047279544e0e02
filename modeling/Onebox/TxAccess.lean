import Onebox.Machine

/-! Transmit access of the three protocols over the common HAL, without
`GPIO_HANDSHAKE`. Three threads run: the WLAN transmit thread, the coex thread
that serves Bluetooth and ZigBee, and the receive thread. A section under
`tx_access_lock` that sends or revokes the sleep acknowledgement is one step;
every access to a flag outside the lock is a step of its own. -/

namespace Onebox

inductive Proto
  | wlan | bt | zb
  deriving DecidableEq, Repr

inductive DrvState
  | removed | inserted | active
  deriving DecidableEq, Repr

structure WirelessTech where
  drvState : DrvState
  fwActive : Bool
  txIntention : Bool
  txAccess : Bool
  deregisterFlags : Bool
  defaultPsEn : Bool

structure DriverAssets where
  techs : Proto → WirelessTech
  commonHalTxAccess : Bool
  sleepEntryRecvd : Bool
  ulpSleepAckSent : Bool

inductive TxPktType
  | coex | zigb | bt | wlanM | wlanD
  deriving DecidableEq, Repr

def protoIdToPkttype : TxPktType → Option Proto
  | .zigb => some .zb
  | .bt => some .bt
  | .wlanM | .wlanD => some .wlan
  | .coex => none -- `0xff`

inductive BusEvent
  | sleepAck
  | sleepExit
  | ackRevoked
  | write (q : TxPktType)
  deriving DecidableEq, Repr

namespace DriverAssets

variable (d : DriverAssets) (p : Proto)

def modify (f : WirelessTech → WirelessTech) : DriverAssets :=
  { d with techs := Function.update d.techs p (f (d.techs p)) }

def setTxIntention (b : Bool) : DriverAssets := d.modify p ({ · with txIntention := b })

def setTxAccess (b : Bool) : DriverAssets := d.modify p ({ · with txAccess := b })

def setDeregisterFlags (b : Bool) : DriverAssets := d.modify p ({ · with deregisterFlags := b })

def isActive : Bool := (d.techs p).drvState == .active

def protocolTxAccess : Bool :=
  [Proto.wlan, .bt, .zb].any fun q => d.isActive q && (d.techs q).txIntention

def grantable : Bool := (d.techs p).deregisterFlags && d.isActive p

section Modify

variable {d p} {q : Proto} {f : WirelessTech → WirelessTech}

@[simp] theorem techs_modify :
    (d.modify p f).techs q = if q = p then f (d.techs q) else d.techs q := by
  by_cases h : q = p <;> simp [modify, h]

theorem isActive_modify (hf : ∀ w, (f w).drvState = w.drvState) :
    (d.modify p f).isActive = d.isActive := by
  funext q
  by_cases h : q = p <;> simp [isActive, h, hf]

theorem isActive_setTxAccess {b : Bool} : (d.setTxAccess p b).isActive = d.isActive :=
  isActive_modify fun _ => rfl

end Modify

end DriverAssets

/-- The assets together with the bus log, newest event first. -/
structure Hal where
  assets : DriverAssets
  bus : List BusEvent

namespace Hal

def sendUlpSleepAck (alloc : Bool) (h : Hal) : Hal :=
  if alloc then
    { assets := { h.assets with ulpSleepAckSent := true }, bus := .sleepAck :: h.bus }
  else h

def withdrawAccess (h : Hal) : Hal :=
  { h with assets := { h.assets with commonHalTxAccess := false } }

def sleepEntryRecvd (alloc : Bool) (h : Hal) : Hal × Bool :=
  -- the flag says whether the granting loop of `sleep_entry_recvd` runs, which `rxStep` goes through
  let h := { h with assets := { h.assets with sleepEntryRecvd := true } }
  if h.assets.protocolTxAccess then
    ({ assets := { h.assets with commonHalTxAccess := true, ulpSleepAckSent := false },
       bus := .ackRevoked :: h.bus }, true)
  else (h.withdrawAccess.sendUlpSleepAck alloc, false)

theorem sleepEntryRecvd_of_intention {alloc : Bool} {h : Hal} (hi : h.assets.protocolTxAccess = true) :
    h.sleepEntryRecvd alloc =
      ({ assets := { h.assets with
          sleepEntryRecvd := true, commonHalTxAccess := true, ulpSleepAckSent := false },
         bus := .ackRevoked :: h.bus }, true) := if_pos hi

theorem sleepEntryRecvd_of_no_intention {alloc : Bool} {h : Hal}
    (hi : h.assets.protocolTxAccess = false) :
    h.sleepEntryRecvd alloc =
      (Hal.sendUlpSleepAck alloc
        (Hal.withdrawAccess { h with assets := { h.assets with sleepEntryRecvd := true } }), false) :=
  if_neg (by rw [← Bool.not_eq_true] at hi; exact hi)

def sleepExitRecvd (h : Hal) : Hal :=
  -- the locked part: the granting loop runs after the release
  { assets := { h.assets with
      sleepEntryRecvd := false, commonHalTxAccess := true, ulpSleepAckSent := false },
    bus := .sleepExit :: h.bus }

def updateTxStatus (alloc : Bool) (p : Proto) (h : Hal) : Hal :=
  if (h.assets.techs p).drvState = .removed then h
  else if (h.assets.techs p).txIntention then
    if h.assets.commonHalTxAccess then { h with assets := h.assets.setTxAccess p true } else h
  else if h.assets.sleepEntryRecvd && !h.assets.ulpSleepAckSent && !h.assets.protocolTxAccess then
    h.withdrawAccess.sendUlpSleepAck alloc
  else h

theorem techs_updateTxStatus_of_ne {alloc : Bool} {p q : Proto} {h : Hal} (hq : q ≠ p) :
    (h.updateTxStatus alloc p).assets.techs q = h.assets.techs q := by
  fun_cases updateTxStatus alloc p h
  case case2 => simp [DriverAssets.setTxAccess, hq]
  case case4 => cases alloc <;> rfl
  all_goals rfl

theorem isActive_updateTxStatus {alloc : Bool} {p : Proto} {h : Hal} :
    (h.updateTxStatus alloc p).assets.isActive = h.assets.isActive := by
  fun_cases updateTxStatus alloc p h
  case case2 => exact DriverAssets.isActive_setTxAccess
  case case4 => cases alloc <;> rfl
  all_goals rfl

theorem txAccess_updateTxStatus {alloc : Bool} {p : Proto} {h : Hal} (ha : h.assets.isActive p = true)
    (hi : (h.assets.techs p).txIntention = true) (hc : h.assets.commonHalTxAccess = true) :
    ((h.updateTxStatus alloc p).assets.techs p).txAccess = true := by
  simp only [DriverAssets.isActive, beq_iff_eq] at ha
  simp [updateTxStatus, ha, hi, hc, DriverAssets.setTxAccess]

theorem commonHalTxAccess_updateTxStatus {alloc : Bool} {p : Proto} {h : Hal}
    (hc : (h.updateTxStatus alloc p).assets.commonHalTxAccess = true) :
    h.assets.commonHalTxAccess = true := by
  revert hc
  fun_cases updateTxStatus alloc p h
  case case4 => cases alloc <;> exact nofun
  all_goals exact id

def sendPktToCoexPasses (wifiModeOn : Bool) (p : Proto) (h : Hal) : Bool :=
  !wifiModeOn ||
    ((h.assets.techs p).fwActive && (h.assets.techs p).txAccess && h.assets.commonHalTxAccess)

def coexWritePasses (wifiModeOn : Bool) (q : TxPktType) (h : Hal) : Bool :=
  !wifiModeOn || (protoIdToPkttype q).any fun p => (h.assets.techs p).fwActive

end Hal

inductive Thread
  | wlan | coex
  deriving DecidableEq, Repr

def Proto.thread : Proto → Thread
  | .wlan => .wlan
  | .bt | .zb => .coex

/-- Where a transmitting thread stands. `idle` is the top of its loop. -/
inductive Pc
  | idle
  | enter (p : Proto)
  | intend (p : Proto)
  | request (p : Proto)
  | recheck (p : Proto)
  | register (p : Proto)
  | waiting (p : Proto)
  | woken
  | transmit (p : Proto)
  | write (p : Proto)
  | beaconWrite
  | dropIntention (p : Proto)
  | dropAccess (p : Proto)
  | release (p : Proto)
  deriving DecidableEq, Repr

def Pc.proto : Pc → Option Proto
  | .idle => none
  | .enter p | .intend p | .request p | .recheck p | .register p | .waiting p | .transmit p
  | .write p | .dropIntention p | .dropAccess p | .release p => some p
  | .woken | .beaconWrite => some .wlan

/-- Where the receive thread stands: `granting` is about to test the next
protocol, `grant` has cleared its `deregister_flags`. The flag tells whether
`tx_access_lock` is held. -/
inductive RxPc
  | idle
  | granting (locked : Bool) (todo : List Proto)
  | grant (locked : Bool) (p : Proto) (todo : List Proto)
  deriving DecidableEq, Repr

def RxPc.locked : RxPc → Bool
  | .idle => false
  | .granting b _ | .grant b _ _ => b

inductive CoexQueue
  | coex | bt | zigb
  deriving DecidableEq, Repr

structure Sys where
  hal : Hal
  pc : Thread → Pc
  rx : RxPc
  coexQueues : CoexQueue → Nat
  -- `Driver_Mode == WIFI_MODE_ON && !flashing_mode_on`
  wifiModeOn : Bool

namespace Sys

variable (s : Sys)

def setPc (t : Thread) (c : Pc) : Sys := { s with pc := Function.update s.pc t c }

def assets : DriverAssets := s.hal.assets

def mapAssets (f : DriverAssets → DriverAssets) : Sys :=
  { s with hal := { s.hal with assets := f s.hal.assets } }

def logWrite (q : TxPktType) : Sys := { s with hal := { s.hal with bus := .write q :: s.hal.bus } }

def dequeue (q : CoexQueue) : Sys :=
  { s with coexQueues := Function.update s.coexQueues q (s.coexQueues q - 1) }

@[simp] theorem pc_setPc (t u : Thread) (c : Pc) :
    (s.setPc t c).pc u = if u = t then c else s.pc u := Function.update_apply _ _ _ _

@[simp] theorem hal_setPc (t : Thread) (c : Pc) : (s.setPc t c).hal = s.hal := rfl

@[simp] theorem rx_setPc (t : Thread) (c : Pc) : (s.setPc t c).rx = s.rx := rfl

@[simp] theorem assets_setPc (t : Thread) (c : Pc) : (s.setPc t c).assets = s.assets := rfl

@[simp] theorem assets_mapAssets (f : DriverAssets → DriverAssets) :
    (s.mapAssets f).assets = f s.assets := rfl

@[simp] theorem bus_mapAssets (f : DriverAssets → DriverAssets) :
    (s.mapAssets f).hal.bus = s.hal.bus := rfl

@[simp] theorem pc_mapAssets (f : DriverAssets → DriverAssets) : (s.mapAssets f).pc = s.pc := rfl

@[simp] theorem rx_mapAssets (f : DriverAssets → DriverAssets) : (s.mapAssets f).rx = s.rx := rfl

@[simp] theorem pc_logWrite (q : TxPktType) : (s.logWrite q).pc = s.pc := rfl

@[simp] theorem pc_dequeue (q : CoexQueue) : (s.dequeue q).pc = s.pc := rfl

@[simp] theorem rx_dequeue (q : CoexQueue) : (s.dequeue q).rx = s.rx := rfl

end Sys

def Proto.coexQueue : Proto → CoexQueue
  | .bt => .bt
  | _ => .zigb

def Proto.txPktType : Proto → TxPktType
  | .bt => .bt
  | .zb => .zigb
  | .wlan => .wlanD

/-- How a step goes on where the code leaves a choice: an allocation that
fails, a wait that times out, a beacon to send, the end of the WLAN transmit
loop with or without a station vap in power save. -/
inductive Choice
  | go
  | nomem
  | timeout
  | beacon
  | quit (psEn : Bool)
  deriving DecidableEq, Repr

def coexWrite (s : Sys) (q : TxPktType) : Sys :=
  if s.hal.coexWritePasses s.wifiModeOn q then s.logWrite q else s

theorem coexWrite_cases (s : Sys) (q : TxPktType) : coexWrite s q = s.logWrite q ∨ coexWrite s q = s := by
  unfold coexWrite
  split <;> simp

@[simp] theorem pc_coexWrite (s : Sys) (q : TxPktType) : (coexWrite s q).pc = s.pc := by
  rcases coexWrite_cases s q with h | h <;> rw [h]
  rfl

@[simp] theorem assets_coexWrite (s : Sys) (q : TxPktType) : (coexWrite s q).assets = s.assets := by
  rcases coexWrite_cases s q with h | h <;> rw [h]
  rfl

@[simp] theorem rx_coexWrite (s : Sys) (q : TxPktType) : (coexWrite s q).rx = s.rx := by
  rcases coexWrite_cases s q with h | h <;> rw [h]
  rfl

def coexPick (s : Sys) : Sys :=
  if s.coexQueues .coex ≠ 0 then coexWrite (s.dequeue .coex) .coex
  else if s.coexQueues .bt ≠ 0 then s.setPc .coex (.enter .bt)
  else if s.coexQueues .zigb ≠ 0 then s.setPc .coex (.enter .zb)
  else if (s.assets.techs .bt).defaultPsEn then s.setPc .coex (.dropIntention .bt)
  else if (s.assets.techs .zb).defaultPsEn then s.setPc .coex (.dropIntention .zb)
  else s

def afterRelease (s : Sys) : Proto → Pc
  -- the coex thread goes on from Bluetooth to ZigBee
  | .bt => if (s.assets.techs .zb).defaultPsEn then .dropIntention .zb else .idle
  | _ => .idle

def afterWait : Proto → Pc
  -- only the WLAN thread looks at `tx_access` once more after its wait
  | .wlan => .woken
  | p => .transmit p

def transmitStep (s : Sys) : Proto → Choice → Option Sys
  | .wlan, .go =>
    if s.hal.sendPktToCoexPasses s.wifiModeOn .wlan then some (s.setPc .wlan (.write .wlan))
    else some s
  | .wlan, .quit psEn => some (s.setPc .wlan (if psEn then .dropIntention .wlan else .idle))
  | .wlan, _ => none
  | p, .go =>
    if s.coexQueues p.coexQueue = 0 then some (s.setPc .coex .idle)
    else some ((s.dequeue p.coexQueue).setPc .coex (.write p))
  | _, _ => none

def writeStep (s : Sys) : Proto → Sys
  | .wlan => (s.logWrite .wlanD).setPc .wlan (.transmit .wlan)
  | p => (coexWrite s p.txPktType).setPc .coex .idle

def threadStep (s : Sys) (t : Thread) (c : Choice) : Option Sys :=
  match s.pc t, c with
  | .idle, .go => some (if t = .wlan then s.setPc .wlan (.enter .wlan) else coexPick s)
  | .idle, .beacon =>
    if t = .wlan then
      some (if s.hal.sendPktToCoexPasses s.wifiModeOn .wlan then s.setPc .wlan .beaconWrite else s)
    else none
  | .enter p, .go =>
    some (s.setPc t (if (s.assets.techs p).txAccess then .transmit p else .intend p))
  | .intend p, .go => some ((s.mapAssets (·.setTxIntention p true)).setPc t (.request p))
  | .request p, .go =>
    -- `update_tx_status` waits for the lock
    if s.rx.locked then none
    else some ({ s with hal := s.hal.updateTxStatus true p }.setPc t (.recheck p))
  | .recheck p, .go =>
    some (s.setPc t (if (s.assets.techs p).txAccess then .transmit p else .register p))
  | .register p, .go => some ((s.mapAssets (·.setDeregisterFlags p true)).setPc t (.waiting p))
  | .waiting p, .go =>
    if (s.assets.techs p).deregisterFlags then none else some (s.setPc t (afterWait p))
  | .waiting p, .timeout =>
    if (s.assets.techs p).deregisterFlags then some (s.setPc t .idle) else none
  | .woken, .go =>
    some (s.setPc t (if (s.assets.techs .wlan).txAccess then .transmit .wlan else .idle))
  | .transmit p, c => transmitStep s p c
  | .write p, .go => some (writeStep s p)
  | .beaconWrite, .go => some ((s.logWrite .wlanM).setPc .wlan .idle)
  | .dropIntention p, .go => some ((s.mapAssets (·.setTxIntention p false)).setPc t (.dropAccess p))
  | .dropAccess p, .go => some ((s.mapAssets (·.setTxAccess p false)).setPc t (.release p))
  | .release p, .go =>
    if s.rx.locked then none
    else some ({ s with hal := s.hal.updateTxStatus true p }.setPc t (afterRelease s p))
  | .release p, .nomem =>
    if s.rx.locked then none
    else some ({ s with hal := s.hal.updateTxStatus false p }.setPc t (afterRelease s p))
  | _, _ => none

inductive Act
  | enqueue (q : CoexQueue)
  | thread (t : Thread) (c : Choice)
  | sleepEntry (alloc : Bool)
  | sleepExit
  | rx
  deriving DecidableEq, Repr

def allProtos : List Proto := [.wlan, .bt, .zb]

def rxStep (s : Sys) : Option Sys :=
  match s.rx with
  | .idle => none
  | .granting _ [] => some { s with rx := .idle }
  | .granting b (p :: ps) =>
    if s.assets.grantable p then
      some { s.mapAssets (·.setDeregisterFlags p false) with rx := .grant b p ps }
    else some { s with rx := .granting b ps }
  | .grant b p ps => some { s.mapAssets (·.setTxAccess p true) with rx := .granting b ps }

def Sys.step (s : Sys) : Act → Option Sys
  | .enqueue q =>
    some { s with coexQueues := Function.update s.coexQueues q (s.coexQueues q + 1) }
  | .thread t c => threadStep s t c
  | .sleepEntry alloc =>
    if s.rx = .idle then
      let r := s.hal.sleepEntryRecvd alloc
      some { s with hal := r.1, rx := if r.2 then .granting true allProtos else .idle }
    else none
  | .sleepExit =>
    if s.rx = .idle then
      some { s with hal := s.hal.sleepExitRecvd, rx := .granting false allProtos }
    else none
  | .rx => rxStep s

/-- The state after the card-ready indications: access is open, nobody waits
or transmits, and a protocol that already has access asked for it. -/
structure CardReady (s : Sys) : Prop where
  accessOpen : s.assets.commonHalTxAccess = true
  noEntry : s.assets.sleepEntryRecvd = false
  noAck : s.assets.ulpSleepAckSent = false
  noWaiter : ∀ p, (s.assets.techs p).deregisterFlags = false
  asked : ∀ p, (s.assets.techs p).txAccess = true → (s.assets.techs p).txIntention = true
  threads : ∀ t, s.pc t = .idle
  rx : s.rx = .idle
  bus : s.hal.bus = []

def btPowerSave : Sys where
  hal := {
    assets := {
      techs := fun p => { drvState := .active, fwActive := true, txIntention := false,
                          txAccess := false, deregisterFlags := false, defaultPsEn := p == .bt }
      commonHalTxAccess := true, sleepEntryRecvd := false, ulpSleepAckSent := false }
    bus := [] }
  pc := fun _ => .idle
  rx := .idle
  coexQueues := fun _ => 0
  wifiModeOn := true

theorem btPowerSave_cardReady : CardReady btPowerSave :=
  ⟨rfl, rfl, rfl, fun _ => rfl, nofun, fun _ => rfl, rfl, rfl⟩

def Serves (s : Sys) : Prop := ∀ t p, (s.pc t).proto = some p → p.thread = t

theorem Serves.of_pc_eq {s u : Sys} (h : Serves s) (hpc : u.pc = s.pc) : Serves u := by
  simpa only [Serves, hpc] using h

theorem Serves.goto {s u : Sys} {t : Thread} {c : Pc} (h : Serves s)
    (hu : u.pc = Function.update s.pc t c) (hc : ∀ p, c.proto = some p → p.thread = t) : Serves u := by
  intro t' p hp
  rw [hu, Function.update_apply] at hp
  split at hp
  case isTrue ht => exact ht ▸ hc p hp
  case isFalse => exact h t' p hp

theorem Serves.coexPick {s : Sys} (h : Serves s) : Serves (coexPick s) := by
  fun_cases Onebox.coexPick s
  case case1 => exact h.of_pc_eq (pc_coexWrite _ _)
  case case6 => exact h
  all_goals exact h.goto rfl (by simp [Pc.proto, Proto.thread])

theorem Proto.thread_of_ne_wlan {p : Proto} (h : p ≠ .wlan) : p.thread = .coex := by
  cases p <;> simp_all [Proto.thread]

theorem Serves.transmitStep {s u : Sys} {p : Proto} {c : Choice} (h : Serves s)
    (hs : transmitStep s p c = some u) : Serves u := by
  revert hs
  fun_cases Onebox.transmitStep s p c <;> rintro ⟨⟩
  case case1 => exact h.goto rfl (by simp [Pc.proto, Proto.thread])
  case case2 => exact h
  case case3 => exact h.goto rfl (by split <;> simp [Pc.proto, Proto.thread])
  case case5 => exact h.goto rfl (by simp [Pc.proto])
  case case6 hp _ => exact h.goto rfl (by simpa [Pc.proto] using Proto.thread_of_ne_wlan hp)

theorem Serves.writeStep {s : Sys} (h : Serves s) (p : Proto) : Serves (writeStep s p) := by
  fun_cases Onebox.writeStep s p
  · exact h.goto rfl (by simp [Pc.proto, Proto.thread])
  · exact h.goto (by rw [Sys.setPc, pc_coexWrite]) (by simp [Pc.proto])

@[grind =] theorem proto_afterWait (p : Proto) : (afterWait p).proto = some p := by
  cases p <;> rfl

theorem afterRelease_cases (s : Sys) (p : Proto) :
    afterRelease s p = .idle ∨ (p = .bt ∧ afterRelease s p = .dropIntention .zb) := by
  unfold afterRelease
  split
  · split <;> simp
  · exact .inl rfl

theorem thread_afterRelease {s : Sys} {p q : Proto} (h : (afterRelease s p).proto = some q) :
    q.thread = p.thread := by
  rcases afterRelease_cases s p with hr | ⟨rfl, hr⟩
  · simp [hr, Pc.proto] at h
  · rw [hr] at h
    cases h
    rfl

theorem Serves.threadStep {s u : Sys} {t : Thread} {c : Choice} (h : Serves s)
    (hs : threadStep s t c = some u) : Serves u := by
  have ht := h t
  revert hs
  fun_cases Onebox.threadStep s t c
  case case15 => exact h.transmitStep
  all_goals rintro ⟨⟩
  case case1 =>
    split
    · exact h.goto rfl (by simp [Pc.proto, Proto.thread])
    · exact h.coexPick
  case case2 =>
    split
    · exact h.goto rfl (by simp [Pc.proto, Proto.thread])
    · exact h
  case case16 p _ => exact h.writeStep p
  case case17 => exact h.goto rfl (by simp [Pc.proto])
  case case21 p hpc _ | case23 p hpc _ =>
    exact h.goto rfl fun q hq => (thread_afterRelease hq).trans (ht p (by rw [hpc, Pc.proto]))
  all_goals exact h.goto rfl (by grind [Pc.proto])

end Onebox
