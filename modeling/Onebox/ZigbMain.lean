import Onebox.ZigbReceive

/-! The loop of `zigb_main`, which brings a ZigBee device into a network: the states before the scan, the
scans until a network is found, the join, and the loop of `rsi_zigb_handle_data` after it. -/

namespace Onebox

open Calls

inductive ZigbFsm
  | cardNotReady
  | cardReady
  | initStack
  | resetStack
  | getDevType
  | initEnddevRouter
  | initCoordinator
  | initScan
  | scanDone
  | joinNetwork
  | formNetwork
  | zbConnected
  | apiTest
  | zbFormed
  | zbHandleRouter
  | zbRejoinSend
  | zbRejoined
  deriving DecidableEq, Repr

/-- What `rsi_zigb_app_frame_process` has found in a packet. -/
structure ZigbRsp where
  intfId : UInt8
  cmdId : UInt8
  payload : Nat → UInt8

/-- A callback of the interface `INTERFACE_CALLBACK` with the command `APPSCANCOMPLETEHANDLER`. -/
def ZigbRsp.isScanComplete (r : ZigbRsp) : Bool := r.intfId == 6 && r.cmdId == 0x4b

inductive ZigbCmd
  | initStack
  | resetStack
  | updateSas
  | updateZdoConfiguration
  | getSelfIeeeAddress
  | getDeviceType
  | setSimpleDescriptor
  | stackIsUp
  | formNetwork
  | initiateScan
  | joinNetwork
  | permitJoin
  | sendMatchDescriptorsRequest
  | rejoinNetwork
  | endDevicePollForData
  | toggle (endpoint : UInt8) (shortaddress : Nat)
  deriving DecidableEq, Repr

/-- Why `RSI_ZB_FAIL` is returned. -/
inductive ZigbFailure
  | nullResponse
  | unknownState
  | linkKey
  | permitJoin
  | rejoin
  | scanState
  | joinState
  | dataState
  | networkNotFound
  deriving DecidableEq, Repr

inductive ZigbEvent
  | received (r : Option ZigbRsp)
  | sent (c : ZigbCmd)
  | returned (why : ZigbFailure)

/-- The variables of `rsi_zigb_handle_data` while it runs. -/
structure HandleData where
  matchDescReqSent : Bool
  matchDesctimeout : Nat
  shortaddress : Nat
  endpoint : UInt8

structure MainLoop where
  app : ZigbApp
  fsm : ZigbFsm
  deviceType : UInt8
  scanAttempts : Nat
  networkDown : Nat
  waitForRsp : Bool
  inner : Option HandleData
  returned : Option ZigbFailure

/-- The call of `rsi_zigb_app_cb_handler` with the payload. -/
def ZigbApp.callback (app : ZigbApp) (r : ZigbRsp) : ZigbApp :=
  (rsiZigbAppCbHandler app r.payload 240 r.cmdId 0).result.getD app

def zigbSend (c : ZigbCmd) : Calls ZigbEvent Unit := emit (.sent c)

namespace MainLoop

variable (s : MainLoop)

def fail (why : ZigbFailure) : Calls ZigbEvent MainLoop := do
  emit (.returned why)
  pure { s with returned := some why }

def callback (r : ZigbRsp) : MainLoop := { s with app := s.app.callback r }

/-- `rsi_zigb_handle_scan_state`, without a result for `RSI_ZB_FAIL`. -/
def handleScanState (r : ZigbRsp) : Option MainLoop :=
  if r.intfId = 6 then
    if r.cmdId = 0x4b then
      let app := { s.app with numNwkFound := if r.payload 4 ≠ 0 then 0 else 1, scanReqSent := 0 }
      some (callback { s with app := app, fsm := .scanDone } r)
    else some (s.callback r)
  else if r.intfId = 1 then
    if r.cmdId = 0x08 ∧ r.payload 0 = 0xff then none else some s
  else none

/-- `rsi_zigb_handle_join_state`, without a result for `RSI_ZB_FAIL`. -/
def handleJoinState (r : ZigbRsp) : Option MainLoop :=
  if r.intfId = 6 then
    if r.cmdId = 0x4e then
      if r.payload 0 = 0 then some (callback { s with fsm := .zbConnected } r) else none
    else some (s.callback r)
  else if r.intfId = 1 then
    if r.cmdId = 0x02 ∧ r.payload 0 = 0xff then none else some s
  else none

/-- `rsi_zigb_handle_form_state`, whose result is not looked at. -/
def handleFormState (r : ZigbRsp) : Calls ZigbEvent MainLoop :=
  if r.intfId = 6 then
    if r.cmdId = 0x4e then
      if r.payload 0 = 0 then do
        zigbSend .permitJoin
        pure (callback { s with fsm := .zbFormed } r)
      else pure s
    else pure (s.callback r)
  else pure s

/-- `rsi_zigb_handle_data` begins. -/
def enterHandleData : MainLoop := { s with inner := some ⟨false, 0, 0, 0⟩ }

/-- `rsi_zigb_handle_data` returns `RSI_ZB_SUCCESS`. -/
def leaveHandleData : MainLoop := { s with inner := none }

def initiateScan : Calls ZigbEvent MainLoop := do
  zigbSend .initiateScan
  pure { s with fsm := .initScan, app := { s.app with scanReqSent := 1 } }

/-- A response in the state `FSM_JOIN_NETWORK`. -/
def onJoinResponse (r : ZigbRsp) : Calls ZigbEvent MainLoop :=
  match handleJoinState { s with scanAttempts := 0 } r with
  | none => s.fail .joinState
  | some s =>
    if s.fsm = .zbConnected then
      if s.deviceType = 1 then do
        zigbSend .permitJoin
        pure { s with fsm := .zbHandleRouter }
      else do
        zigbSend .sendMatchDescriptorsRequest
        pure s.enterHandleData
    else pure s

/-- The loop of `zigb_main` with a response. -/
def onResponse (r : ZigbRsp) : Calls ZigbEvent MainLoop :=
  match s.fsm with
  | .cardNotReady =>
    if r.cmdId = 0xff then do
      zigbSend .initStack
      pure { s with fsm := .initStack }
    else s.fail .unknownState
  | .initStack =>
    if r.cmdId = 0x61 then do
      zigbSend .resetStack
      pure { s with fsm := .resetStack }
    else s.fail .unknownState
  | .resetStack =>
    if r.cmdId = 0x62 then do
      zigbSend .updateSas
      pure s
    else if r.cmdId = 0x65 then do
      zigbSend .updateZdoConfiguration
      pure s
    else if r.cmdId = 0x66 then do
      zigbSend .getSelfIeeeAddress
      pure { s with fsm := .getDevType }
    else s.fail .unknownState
  | .getDevType =>
    if r.cmdId = 0x0c then do
      zigbSend .getDeviceType
      pure s
    else if r.cmdId = 0x14 then
      let deviceType := r.payload 1
      if deviceType = 2 then do
        zigbSend .setSimpleDescriptor
        pure { s with deviceType := deviceType, fsm := .initEnddevRouter }
      else if deviceType = 1 then do
        zigbSend .stackIsUp
        pure { s with deviceType := deviceType, fsm := .initEnddevRouter }
      else do
        zigbSend .formNetwork
        pure { s with deviceType := deviceType, fsm := .initCoordinator }
    else s.fail .unknownState
  | .initEnddevRouter =>
    if r.cmdId = 0x4a ∨ r.cmdId = 0x0b then
      if r.payload 0 = 0xff then s.fail .linkKey
      else if s.app.scanReqSent = 0 then s.initiateScan
      else pure s
    else s.fail .unknownState
  | .initCoordinator => s.handleFormState r
  | .zbFormed =>
    if r.cmdId = 0x03 ∧ r.payload 0 ≠ 0 then s.fail .permitJoin else pure (s.callback r)
  | .initScan | .scanDone =>
    match s.handleScanState r with
    | none => s.fail .scanState
    | some s => pure s
  | .joinNetwork => s.onJoinResponse r
  | .zbConnected | .zbRejoined => pure s.enterHandleData
  | .zbRejoinSend =>
    if r.cmdId = 0x06 then
      if r.payload 0 ≠ 0 then s.fail .rejoin else pure s.enterHandleData
    else pure s
  | .zbHandleRouter =>
    if r.cmdId = 0x03 then
      if r.payload 0 ≠ 0 then s.fail .permitJoin else pure s
    else pure (s.callback r)
  | .cardReady | .formNetwork | .apiTest => s.fail .unknownState

/-- `MAX_SCAN_ATTEMPTS` -/
def maxScanAttempts : Nat := 5

/-- The loop of `zigb_main` without a packet. -/
def onIdle : Calls ZigbEvent MainLoop :=
  if s.fsm = .scanDone then
    if s.scanAttempts ≥ maxScanAttempts then s.fail .networkNotFound
    else if s.app.numNwkFound ≠ 0 then do
      zigbSend .joinNetwork
      pure { s with fsm := .joinNetwork }
    else if s.app.scanReqSent = 0 then initiateScan { s with scanAttempts := s.scanAttempts + 1 }
    else pure s
  else if s.fsm = .initScan then
    if s.scanAttempts ≥ maxScanAttempts then s.fail .networkNotFound
    else if s.app.scanReqSent = 0 then initiateScan { s with scanAttempts := s.scanAttempts + 1 }
    else pure s
  else pure s

/-- The loop of `rsi_zigb_handle_data` with a response. -/
def onDataResponse (d : HandleData) (r : ZigbRsp) : Calls ZigbEvent MainLoop :=
  if r.intfId = 6 then
    if r.cmdId = 0x4e then
      if r.payload 0 = 4 then do
        zigbSend .sendMatchDescriptorsRequest
        pure { s with fsm := .zbRejoined }
      else if r.payload 0 ≠ 0 then
        if s.networkDown < 10 then do
          zigbSend .rejoinNetwork
          pure (leaveHandleData { s with fsm := .zbRejoinSend, networkDown := s.networkDown + 1 })
        else
          let app := { s.app with rspStatus := Function.update s.app.rspStatus .matchDesc 0xff }
          fail { s with fsm := .initScan, app := app } .dataState
      else pure s.leaveHandleData
    else pure (s.callback r)
  else if r.intfId = 1 then
    if r.cmdId = 0x30 then
      if r.payload 0 = 0xff then s.fail .dataState
      else
        let app := { s.app with rspStatus := Function.update s.app.rspStatus .matchDesc 0xff }
        pure { s with app := app, inner := some { d with matchDescReqSent := true, matchDesctimeout := 0 } }
    else if r.cmdId = 0x25 then
      if r.payload 0 = 0xff then s.fail .dataState else pure { s with waitForRsp := false }
    else pure s
  else s.fail .dataState

/-- The loop of `rsi_zigb_handle_data` without a packet. -/
def onDataIdle (d : HandleData) : Calls ZigbEvent MainLoop :=
  if d.matchDescReqSent then
    if s.app.rspStatus .matchDesc ≠ 0 then
      let s' := { s with inner := some { d with matchDesctimeout := d.matchDesctimeout + 1 } }
      if d.matchDesctimeout ≥ 10 then s.fail .dataState
      else if !s.waitForRsp then do
        zigbSend .endDevicePollForData
        pure { s' with waitForRsp := true }
      else pure s'
    else
      let light := s.app.response .matchDesc
      let d := { d with matchDescReqSent := false, shortaddress := Scan.le16 light 2, endpoint := light 5 }
      do
        zigbSend (.toggle d.endpoint d.shortaddress)
        pure { s with app := { s.app with dataConfWait := 1 }, inner := some d }
  else if s.app.dataConfWait ≠ 0 then pure s
  else if s.app.sendData ≠ 0 then do
    zigbSend (.toggle d.endpoint d.shortaddress)
    pure { s with app := { s.app with dataConfWait := 1, sendData := 0 } }
  else pure s

end MainLoop

/-- An iteration finds a packet pending, of which `NULL` may be made, or none. -/
inductive MainInput
  | response (r : Option ZigbRsp)
  | idle

/-- An iteration of the loop that runs, and what it does. -/
def MainLoop.iterate (s : MainLoop) : MainInput → Calls ZigbEvent MainLoop
  | .response none => do
    emit (.received none)
    s.fail .nullResponse
  | .response (some r) => do
    emit (.received (some r))
    match s.inner with
    | none => s.onResponse r
    | some d => s.onDataResponse d r
  | .idle =>
    match s.inner with
    | none => s.onIdle
    | some d => s.onDataIdle d

/-- The loop, and what has happened, the latest event first. -/
structure ZigbRun where
  main : MainLoop
  past : List ZigbEvent

def ZigbRun.step (s : ZigbRun) (a : MainInput) : Option ZigbRun :=
  if s.main.returned.isSome then none
  else
    let x := s.main.iterate a
    x.result.map fun t => ⟨t, x.log.reverse ++ s.past⟩

/-- The loop begins after `rsi_zb_app_init`. -/
def zigbStart (app : ZigbApp) (deviceType : UInt8) (networkDown : Nat) (waitForRsp skipCardReady : Bool) :
    ZigbRun :=
  let app := { app with scanReqSent := 0, rspStatus := fun _ => 0x0f }
  let main : MainLoop := ⟨app, .cardNotReady, deviceType, 0, networkDown, waitForRsp, none, none⟩
  if skipCardReady then ⟨{ main with fsm := .initStack }, [.sent .initStack]⟩ else ⟨main, []⟩

end Onebox
