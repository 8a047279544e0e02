import Onebox.Machine

/-! WLAN power save of the station: the event handler `pwr_sve_event_handler`
with everything that calls it, and the way of a request through the management
queue to the device and back as a confirm. -/

namespace Onebox

inductive IvState
  | init | scan | auth | assoc | cac | run | csa | sleep
  deriving DecidableEq, Repr

inductive PsState
  | none | enReqSent | devInPwrSve | disReqSent | enReqQueued
  deriving DecidableEq, Repr

inductive PsPath
  | mgmtPending | ioctl | connected | disconnected | scanEnd | timer | vapCreate | vapDelete
  | txRx | psEnDequeued | psEnReqCnfm | psDisReqCnfm
  deriving DecidableEq, Repr

def PsPath.isCnfm : PsPath → Bool
  | .psEnReqCnfm | .psDisReqCnfm => true
  | _ => false

inductive PsRequest
  | sleep | wakeup
  deriving DecidableEq, Repr

/-- `struct pwr_save_params`. The padding bytes are compared by `memcmp` too. -/
structure PwrSaveParams where
  psEn : Bool
  sleepType : Nat
  txThreshold : Nat
  rxThreshold : Nat
  txHysterisis : Nat
  rxHysterisis : Nat
  monitorInterval : Nat
  listenInterval : Nat
  numBeaconsPerListenInterval : Nat
  dtimIntervalDuration : Nat
  numDtimsPerSleep : Nat
  deepSleepWakeupPeriod : Nat
  padding : Nat
  deriving DecidableEq, Repr

/-- A `WAKEUP_SLEEP_REQUEST` frame. `seq` counts the requests built and is not part of the frame. -/
structure PsFrame where
  request : PsRequest
  connectedSleep : Bool
  params : PwrSaveParams
  seq : Nat
  deriving DecidableEq, Repr

/-- The station vap with what its adapter keeps for it. -/
structure PsVap where
  ivState : IvState
  fScan : Bool
  connInProg : Bool
  roamInd : Bool
  scNvaps : Nat
  jiffies : Nat
  psState : PsState
  updateTa : Bool
  delayPwrSveDecision : Bool
  disablePsForChangeInParams : Bool
  delayStaSupportDecision : Bool
  psParams : PwrSaveParams
  psParamsIoctl : PwrSaveParams
  txDataload : Nat
  rxDataload : Nat
  jiffiesPrev : Nat
  mgmtQ : List PsFrame
  built : Nat
  deriving DecidableEq, Repr

def enqueuePs (toHead : Bool) (f : PsFrame) (q : List PsFrame) : List PsFrame :=
  if toHead then f :: q else q ++ [f]

namespace PsVap

variable (v : PsVap)

def sendPsParamsReq (psEn toHead : Bool) : PsVap :=
  -- with a second vap the request is always a wake-up
  let sleeps := psEn && v.scNvaps < 2
  let f : PsFrame :=
    { request := if sleeps then .sleep else .wakeup, connectedSleep := v.ivState = .run,
      params := v.psParams, seq := v.built }
  { v with
    psState := if sleeps then v.psState else .disReqSent
    mgmtQ := enqueuePs toHead f v.mgmtQ
    built := v.built + 1 }

def setPsState (s : PsState) : PsVap := { v with psState := s }

def busy : Bool := v.delayPwrSveDecision || v.connInProg || v.roamInd || v.fScan

def applyIoctl : PsVap := { v with psParams := v.psParamsIoctl, updateTa := false }

def caseUpdateTa (status toHead : Bool) : PsVap :=
  let u := v.applyIoctl
  match u.psState, u.psParams.psEn with
  -- the request follows `ps_status`, the state does not
  | .devInPwrSve, false => (u.sendPsParamsReq status toHead).setPsState .disReqSent
  | .devInPwrSve, true =>
    if v.psParams ≠ v.psParamsIoctl then
      { (u.sendPsParamsReq false (toHead || v.ivState ≠ .run)).setPsState .disReqSent with
        disablePsForChangeInParams := true }
    else u
  | .none, true => (u.sendPsParamsReq true false).setPsState .enReqQueued
  | _, _ => u

def caseSettled (status : Bool) (path : PsPath) (toHead : Bool) : PsVap :=
  if path = .mgmtPending ∧ v.psState = .devInPwrSve ∧ v.ivState ≠ .run then
    (v.sendPsParamsReq status toHead).setPsState .disReqSent
  else if v.updateTa then v.caseUpdateTa status toHead
  else if !path.isCnfm && v.psParams.psEn then
    (v.sendPsParamsReq status toHead).setPsState (if status then .enReqQueued else .disReqSent)
  else if v.disablePsForChangeInParams then
    let u := { v with disablePsForChangeInParams := false }
    if v.psParams.psEn ∧ v.psState = .none then (u.sendPsParamsReq true toHead).setPsState .enReqQueued else u
  else v

def confirmWakeup : PsVap :=
  let anew := v.ivState = .run ∧ v.psParams.monitorInterval ≠ 0
  { v with
    psState := .none
    txDataload := if anew then 0 else v.txDataload
    rxDataload := if anew then 0 else v.rxDataload }

def confirmSleep : PsVap :=
  { v with
    psState := .devInPwrSve
    jiffiesPrev := if v.ivState = .run ∧ v.psParams.monitorInterval ≠ 0 then v.jiffies else v.jiffiesPrev }

def caseDisReqSent (status : Bool) (path : PsPath) (toHead : Bool) : PsVap × Bool :=
  if path = .psDisReqCnfm then
    -- falls through to `case PS_NONE`
    let v := v.confirmWakeup
    (if v.busy then v else v.caseSettled status path toHead, false)
  else (v, false)

def psSwitch (status : Bool) (path : PsPath) (toHead : Bool) : PsVap × Bool :=
  match v.psState with
  | .enReqSent =>
    if path = .psEnReqCnfm then
      let v := v.confirmSleep
      -- `loop = 1` is undone by the case it falls into
      if v.busy then (v, false) else v.caseDisReqSent status path toHead
    else (v, false)
  | .disReqSent => v.caseDisReqSent status path toHead
  | .none | .devInPwrSve => (v.caseSettled status path toHead, false)
  | .enReqQueued => (if path = .psEnDequeued then v.setPsState .enReqSent else v, false)

def psLoop (status : Bool) (path : PsPath) (toHead : Bool) : Nat → PsVap → Option PsVap
  | 0, _ => Option.none
  | n + 1, v =>
    let r := v.psSwitch status path toHead
    if r.2 then psLoop status path toHead n r.1 else some r.1

theorem psSwitch_loop (status : Bool) (path : PsPath) (toHead : Bool) :
    (v.psSwitch status path toHead).2 = false := by
  have hdis : ∀ u : PsVap, (u.caseDisReqSent status path toHead).2 = false := by
    intro u
    unfold caseDisReqSent
    split <;> rfl
  unfold psSwitch
  split
  · split_ifs
    · simp only
      split_ifs
      · rfl
      · exact hdis _
    · rfl
  · exact hdis v
  all_goals rfl

theorem psLoop_eq (status : Bool) (path : PsPath) (toHead : Bool) (n : Nat) :
    psLoop status path toHead (n + 1) v = some (v.psSwitch status path toHead).1 := by
  simp [psLoop, psSwitch_loop]

def pwrSveEventHandler (status : Bool) (path : PsPath) (toHead : Bool) : PsVap :=
  if v.ivState = .scan ∧ v.fScan ∧ v.psState = .none then v
  else if (v.ivState = .auth ∨ v.ivState = .assoc ∨ v.ivState = .run ∨ v.ivState = .scan) ∧
      (v.connInProg ∨ v.roamInd) ∧ status ∧ !path.isCnfm then v
  else if v.delayPwrSveDecision ∧ !path.isCnfm then v
  -- by `psLoop_eq` the loop around the switch is run once
  else if v.scNvaps < 2 then (v.psSwitch status path toHead).1
  else if v.psParams.psEn ∧ v.psState = .devInPwrSve then
    (v.sendPsParamsReq false false).setPsState .disReqSent
  else if path = .psEnReqCnfm then
    if v.psState = .enReqSent then (v.sendPsParamsReq false toHead).setPsState .disReqSent else v
  else if path = .psDisReqCnfm ∧ v.psState = .disReqSent then v.setPsState .none
  else v

def checkDeepSleepStatus : PsVap × Bool :=
  if v.delayPwrSveDecision ∧ v.ivState ≠ .run then ({ v with delayPwrSveDecision := false }, false)
  else (v, v.psState = .devInPwrSve && v.ivState ≠ .run)

def updatePwrSaveStatus (status : Bool) : PsPath → PsVap
  | .ioctl =>
    if v.ivState = .init ∨ v.ivState = .run then v.pwrSveEventHandler v.psParamsIoctl.psEn .ioctl false else v
  | .disconnected =>
    { v with delayStaSupportDecision := v.ivState = .run, delayPwrSveDecision := true }
  | .connected =>
    { v with
      delayStaSupportDecision := v.delayStaSupportDecision || v.ivState = .run
      delayPwrSveDecision := true }
  | .scanEnd => { v with delayPwrSveDecision := true }
  | .mgmtPending =>
    let r := { v with delayPwrSveDecision := false }.checkDeepSleepStatus
    if r.2 then r.1.pwrSveEventHandler false .mgmtPending true else r.1
  | .vapCreate | .vapDelete => v
  | path => v.pwrSveEventHandler status path false

def bytesConvrtr : Nat := 125 * v.psParams.monitorInterval

def loadExceeded : Bool :=
  v.txDataload > v.psParams.txThreshold * v.bytesConvrtr ||
    v.rxDataload > v.psParams.rxThreshold * v.bytesConvrtr

def resetLoad : PsVap := { v with txDataload := 0, rxDataload := 0, jiffiesPrev := v.jiffies }

def checkDataLoad : PsVap :=
  if v.loadExceeded then
    if v.psState = .devInPwrSve then v.resetLoad.updatePwrSaveStatus false .txRx else v.resetLoad
  else v

def addLoad (txPath : Bool) (payloadSize : Nat) : PsVap :=
  if txPath then { v with txDataload := (v.txDataload + payloadSize) % 2 ^ 32 }
  else { v with rxDataload := (v.rxDataload + payloadSize) % 2 ^ 32 }

def checkTrafficPwrSave (txPath : Bool) (payloadSize : Nat) : PsVap :=
  -- one tick of `jiffies` is taken as one millisecond
  if v.psParams.psEn ∧ v.psParams.monitorInterval ≠ 0 ∧ v.ivState = .run ∧ !v.delayPwrSveDecision then
    let v := v.addLoad txPath payloadSize
    if v.jiffiesPrev = 0 then { v with jiffiesPrev := v.jiffies }
    else if v.jiffies - v.jiffiesPrev ≥ v.psParams.monitorInterval then v.checkDataLoad.resetLoad
    else v.checkDataLoad
  else v

def sendStaSupportedFeatures (bgscanOk : Bool) : PsVap :=
  -- `bgscanOk`: the background scan parameters, if any, could be sent
  if bgscanOk then v.updatePwrSaveStatus true .timer else v

def loadIsLow : Bool :=
  v.txDataload ≤ (v.psParams.txThreshold - v.psParams.txHysterisis) * v.bytesConvrtr &&
    v.rxDataload ≤ (v.psParams.rxThreshold - v.psParams.rxHysterisis) * v.bytesConvrtr

def endDelay : PsVap := { v with delayPwrSveDecision := false }

def timerStaSupport (bgscanOk : Bool) : PsVap :=
  if v.delayStaSupportDecision then
    { v.sendStaSupportedFeatures bgscanOk with delayStaSupportDecision := false }
  else v

def timerLoadDecision : PsVap :=
  if v.loadExceeded ∧ v.psState = .devInPwrSve then v.updatePwrSaveStatus false .timer
  else if v.loadIsLow ∧ v.psState = .none then v.updatePwrSaveStatus true .timer
  else v

def timerLoad : PsVap :=
  if v.psParams.psEn ∧ v.psParams.monitorInterval ≠ 0 then
    { v.timerLoadDecision with txDataload := 0, rxDataload := 0 }
  else v

def trafficTimerCallback (vapInUse bgscanOk : Bool) : PsVap :=
  if !vapInUse ∨ v.connInProg then v
  else if v.ivState = .run then (v.endDelay.timerStaSupport bgscanOk).timerLoad
  else if v.delayPwrSveDecision then v.endDelay.updatePwrSaveStatus true .timer
  else v

def markSent (f : PsFrame) : PsVap :=
  -- a wake-up from deep sleep changes nothing
  if f.request = .wakeup ∧ !f.connectedSleep then v
  else if v.psState = .enReqQueued then v.setPsState .enReqSent
  else v

end PsVap

/-- The vap, the frame that the transmit thread has written and not yet accounted for, and the
requests that the device has received and not yet confirmed. -/
structure PsSys where
  vap : PsVap
  tx : Option PsFrame
  inFlight : List PsFrame
  deriving DecidableEq, Repr

inductive PsEvent
  | ioctl (params : PwrSaveParams)
  | connected
  | disconnected
  | scanEnd
  | timer (vapInUse bgscanOk : Bool)
  | traffic (txPath : Bool) (payloadSize : Nat)
  | mgmtPending
  | confirm
  | env (ivState : IvState) (fScan connInProg roamInd : Bool) (jiffies : Nat)
  deriving DecidableEq, Repr

def PsRequest.cnfmPath : PsRequest → PsPath
  | .sleep => .psEnReqCnfm
  | .wakeup => .psDisReqCnfm

namespace PsSys

variable (s : PsSys)

/-- The device confirms the requests in order, each with its own type. `core_qos_processor` reports a
pending management frame only for a vap in deep sleep. -/
def event : PsEvent → Option PsSys
  | .ioctl params =>
    some { s with vap :=
      { s.vap with psParamsIoctl := params, updateTa := true }.updatePwrSaveStatus true .ioctl }
  | .connected => some { s with vap := s.vap.updatePwrSaveStatus true .connected }
  | .disconnected => some { s with vap := s.vap.updatePwrSaveStatus true .disconnected }
  | .scanEnd => some { s with vap := s.vap.updatePwrSaveStatus true .scanEnd }
  | .timer vapInUse bgscanOk => some { s with vap := s.vap.trafficTimerCallback vapInUse bgscanOk }
  | .traffic txPath payloadSize => some { s with vap := s.vap.checkTrafficPwrSave txPath payloadSize }
  | .mgmtPending =>
    if s.vap.psState = .devInPwrSve ∧ s.vap.ivState ≠ .run then
      some { s with vap := s.vap.updatePwrSaveStatus false .mgmtPending }
    else none
  | .confirm =>
    match s.inFlight with
    | [] => none
    | f :: fs =>
      some { s with vap := s.vap.updatePwrSaveStatus false f.request.cnfmPath, inFlight := fs }
  | .env ivState fScan connInProg roamInd jiffies =>
    some { s with vap := { s.vap with ivState, fScan, connInProg, roamInd, jiffies } }

def write : Option PsSys :=
  -- in `PS_EN_REQ_SENT` the transmit thread looks at the queue only in `RUN`
  if s.tx.isSome ∨ (s.vap.psState = .enReqSent ∧ s.vap.ivState ≠ .run) then none
  else match s.vap.mgmtQ with
    | [] => none
    | f :: q => some { s with vap := { s.vap with mgmtQ := q }, tx := some f, inFlight := s.inFlight ++ [f] }

def mark : Option PsSys := s.tx.map fun f => { s with vap := s.vap.markSent f, tx := none }

end PsSys

inductive PsAct
  | event (e : PsEvent)
  | write
  | mark
  deriving DecidableEq, Repr

def PsSys.step (s : PsSys) : PsAct → Option PsSys
  | .event e => s.event e
  | .write => s.write
  | .mark => s.mark

structure PsStart (s : PsSys) : Prop where
  psState : s.vap.psState = .none
  queue : s.vap.mgmtQ = []
  tx : s.tx = none
  inFlight : s.inFlight = []
  oneVap : s.vap.scNvaps = 1

end Onebox
