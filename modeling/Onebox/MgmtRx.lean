import Onebox.Bootloader
import Onebox.PktCalls
import Onebox.PowerSave
import Onebox.StationTable

/-! Management messages from the device: `onebox_mgmt_pkt_recv` and
`onebox_mgmt_pkt_to_core`, with every state of the start-up and every type of
message. -/

namespace Onebox

/-- `adapter->fsm_state`, which the WLAN driver and the common HAL each have. -/
inductive FsmState
  | cardNotReady | fwLoaded | loadBootupParams | eepromCheck | eepromReadRfType | eepromReadMacAddr
  | eepromRead2p4PwrVals | eepromRead5p1PwrVals | resetMacCfm | bbRfStart | wakeupSleepVals | fsmOpen
  | deepSleepEnable | macInitDone | ampduIndSent | scanCfm | deviceReady | flashBurn
  deriving DecidableEq, Repr

/-- `rx_cmd_type_t`. -/
inductive RxCmd
  | taConfirmType | rxDot11Mgmt | txStatusInd | psNotifyInd | decryptErrorInd | beaconEventInd | debugInd
  | hwBmissEvent | rateGcTableUpdate | tsfSyncConfirm | other
  deriving DecidableEq, Repr

/-- `cmd_frame_type`. -/
inductive CmdFrame
  | resetMacReq | radioCapabilities | bbProgValuesRequest | rfProgValuesRequest | wakeupSleepRequest
  | scanRequest | bootupParamsRequest | eepromReadType | eepromWrite | ampduInd | statsRequestFrame
  | bbBufProgValuesReq | bbpProgInTa | bgScanProbeReq | cwModeReq | rfLoopbackReq | rfLpbkM3 | lmacRegOps
  | other
  deriving DecidableEq, Repr

inductive TxStatus
  | eapol4Confirm | probereqConfirm | nulldataConfirm | other
  deriving DecidableEq, Repr

def RxCmd.decode (b : BitVec 8) : RxCmd :=
  match b.toNat with
  | 0x01 => .taConfirmType
  | 0x02 => .rxDot11Mgmt
  | 0x04 => .txStatusInd
  | 0x05 => .psNotifyInd
  | 0x07 => .decryptErrorInd
  | 0x08 => .beaconEventInd
  | 0x09 => .debugInd
  | 0x0c => .hwBmissEvent
  | 0x0d => .rateGcTableUpdate
  | 0xc0 => .tsfSyncConfirm
  | _ => .other

def CmdFrame.decode (b : BitVec 8) : CmdFrame :=
  match b.toNat with
  | 1 => .resetMacReq
  | 2 => .radioCapabilities
  | 3 => .bbProgValuesRequest
  | 4 => .rfProgValuesRequest
  | 5 => .wakeupSleepRequest
  | 6 => .scanRequest
  | 12 => .bootupParamsRequest
  | 14 => .eepromReadType
  | 15 => .eepromWrite
  | 18 => .ampduInd
  | 19 => .statsRequestFrame
  | 20 => .bbBufProgValuesReq
  | 21 => .bbpProgInTa
  | 23 => .bgScanProbeReq
  | 24 => .cwModeReq
  | 28 => .rfLoopbackReq
  | 29 => .rfLpbkM3
  | 31 => .lmacRegOps
  | _ => .other

def TxStatus.decode (b : BitVec 8) : TxStatus :=
  match b.toNat with
  | 1 => .eapol4Confirm
  | 2 => .probereqConfirm
  | 3 => .nulldataConfirm
  | _ => .other

/-- The bytes from `netbuf_cb->data` on. -/
structure RxMsg where
  byte : Nat → BitVec 8

namespace RxMsg

variable (msg : RxMsg)

def word (i : Nat) : BitVec 16 := msg.byte (i + 1) ++ msg.byte i

def dword (i : Nat) : BitVec 32 := msg.word (i + 2) ++ msg.word i

def mac (i : Nat) : MacAddr :=
  msg.byte i ++ msg.byte (i + 1) ++ msg.byte (i + 2) ++ msg.byte (i + 3) ++ msg.byte (i + 4) ++ msg.byte (i + 5)

def len : Nat := (msg.word 0 &&& 0x0fff).toNat

def type : RxCmd := .decode (msg.byte 2)

def subType : CmdFrame := .decode (msg.byte 15)

def confirms (c : CmdFrame) : Bool := msg.type = .taConfirmType && msg.subType = c

def padBytes : Nat := (msg.byte 4).toNat

end RxMsg

inductive IvOpmode
  | sta | hostap | other
  deriving DecidableEq, Repr

structure MgmtVap where
  opmode : IvOpmode
  run : Bool
  connInProg : Bool
  passive : Bool
  bss : Option NodePtr
  extendedDescSize : BitVec 8
  deriving DecidableEq, Repr

/-- The adapter as the management messages see it. `vaps` is `ic_vaps`; `vapInUse` is read from
`hal_vap` and, behind its last entry, from whatever is there. -/
structure Mgmt where
  fsm : FsmState
  driverMode : DriverMode
  calibMode : Bool
  macAddr : MacAddr
  band5 : Bool
  bandSupported : Bool
  rfReset : Bool
  bbRfProgCount : BitVec 8
  bbRfValue : BitVec 8
  bbRfReadValues : BitVec 8
  rfLpbkLen : BitVec 16
  burstRunning : Bool
  ptkKey : Bool
  gtkKey : Bool
  eapol4Cnfrm : Bool
  staDataBlock : Bool
  blockApQueues : Bool
  beaconEvent : Bool
  beaconEventVapId : Nat
  vaps : List VapId
  vap : VapId → MgmtVap
  vapInUse : Nat → Bool
  stations : Stations

/-- What the functions called give back: whether they succeed, and what net80211 finds. `pastSta` is
the pointer behind the last entry of `sta`. -/
structure MgmtEnv where
  eepromRead : Bool
  sendResetMac : Bool
  loadRadioCaps : Bool
  programBbRf : Bool
  initWlanThread : Bool
  mbufAlloc : Bool
  findNode : MacAddr → Option NodePtr
  findRxnode : MacAddr → Option NodePtr
  nodes : List NodePtr
  associd : NodePtr → BitVec 16
  pastSta : Option NodePtr

inductive RxEvent
  | bbRf | stats | sdioScheduler
  deriving DecidableEq, Repr

inductive CopyDst
  | staInfo | bbRfRead | rfLpbkData | eepromData
  deriving DecidableEq, Repr

inductive MgmtEffect
  | eepromRead (offset length : Nat)
  | net80211Attach
  | sendResetMac
  | loadRadioCaps
  | programBbRf
  | initWlanThread
  | startThread
  | setEvent (ev : RxEvent)
  | copy (dst : CopyDst) (offset len : Nat)
  | staAt (i : Nat)
  | halVapAt (i : Nat)
  | sendScanDone (v : VapId)
  | sendProbereqConfirm (v : VapId)
  | updatePwrSaveStatus (v : VapId) (status : Bool) (path : PsPath)
  | sendBlockUnblock (v : VapId)
  | staLeave (p : NodePtr)
  | reloadInact (p : NodePtr)
  | beaconMiss
  | eospTsf (p : NodePtr) (tsf : BitVec 32)
  | nodePwrsave (p : NodePtr) (enter : Bool)
  | rxmicFailure (p : NodePtr)
  | dumpDebugFrame (len : Nat)
  | netbufAdj (n : Nat)
  | setChno (p : NodePtr) (chno : BitVec 8)
  deriving DecidableEq, Repr

/-- The two ways into net80211. -/
inductive NetInput
  | ivInput (p : NodePtr)
  | inputAll
  deriving DecidableEq, Repr

abbrev Handled := Mgmt × List MgmtEffect

abbrev MgmtExit := Calls (PktCall MgmtEffect NetInput) (Mgmt × Bool)

open PktCall

def magicWord : BitVec 8 := 0x5a

namespace Mgmt

variable (s : Mgmt) (e : MgmtEnv) (msg : RxMsg)

def setVap (v : VapId) (x : MgmtVap) : Mgmt := { s with vap := Function.update s.vap v x }

def staVaps : List VapId := s.vaps.filter fun v => (s.vap v).opmode = .sta

def bootupParams : Handled :=
  if msg.confirms .bootupParamsRequest then
    if s.driverMode = .qspiFlashing then ({ s with fsm := .macInitDone }, [])
    else ({ s with fsm := if e.eepromRead then .eepromReadMacAddr else .cardNotReady }, [.eepromRead 40 11])
  else (s, [])

def oneboxEepromReadBand : Handled :=
  if e.eepromRead then ({ s with fsm := .eepromReadRfType }, [.eepromRead 424 4])
  else ({ s with band5 := false }, [.eepromRead 424 4])

def readMacAddr : Handled :=
  if msg.confirms .eepromReadType then
    if 0 < msg.len then
      if msg.byte 16 = magicWord then { s with macAddr := msg.mac 21 }.oneboxEepromReadBand e
      else if !s.calibMode then ({ s with fsm := .cardNotReady }, [])
      else s.oneboxEepromReadBand e
    else s.oneboxEepromReadBand e
  else (s, [])

def resetMac (es : List MgmtEffect) : Handled :=
  (if e.sendResetMac then { s with fsm := .resetMacCfm } else s, es ++ [.sendResetMac])

def readRfType : Handled :=
  if msg.confirms .eepromReadType then
    if msg.byte 16 = magicWord then
      if msg.byte 17 &&& 3 = 3 then { s with band5 := true, bandSupported := true }.resetMac e [.net80211Attach]
      else if msg.byte 17 &&& 3 = 1 then
        { s with band5 := false, bandSupported := false }.resetMac e [.net80211Attach]
      else ({ s with fsm := .cardNotReady }, [])
    else if !s.calibMode then ({ s with fsm := .cardNotReady }, [])
    else s.resetMac e [.net80211Attach]
  else s.resetMac e []

def resetMacCfm : MgmtExit :=
  if msg.confirms .resetMacReq then
    -- a status of success is taken for a failure
    freed (s, [.loadRadioCaps]) !e.loadRadioCaps
  else if msg.confirms .radioCapabilities then
    freed ({ s with rfReset := true, fsm := if e.programBbRf then .macInitDone else s.fsm },
      [.programBbRf]) true
  else freed (s, []) true

def bbRfStart : Handled :=
  if msg.confirms .bbProgValuesRequest || msg.confirms .rfProgValuesRequest || msg.confirms .bbpProgInTa then
    let count := s.bbRfProgCount - 1
    ({ s with bbRfProgCount := count, fsm := if count = 0 then .macInitDone else s.fsm }, [])
  else (s, [])

def ampduIndSent : MgmtExit :=
  if msg.confirms .ampduInd then
    if !e.initWlanThread then freed (s, [.initWlanThread]) false
    else freed ({ s with burstRunning := true, fsm := .macInitDone }, [.initWlanThread, .startThread]) true
  else freed ({ s with fsm := .macInitDone }, []) true

def scanCfm : Handled := (s, if msg.confirms .scanRequest then [.setEvent .bbRf] else [])

/-- The values read from a BB, RF or LMAC register. -/
def readValues : Handled :=
  ({ s with bbRfReadValues := BitVec.ofNat 8 (msg.len / 2) }, [.copy .bbRfRead 0 msg.len, .setEvent .bbRf])

def loopback (size : Nat) : Handled :=
  if 0 < msg.len then
    let total := s.rfLpbkLen + BitVec.ofNat 16 msg.len
    ({ s with rfLpbkLen := total },
      .copy .rfLpbkData s.rfLpbkLen.toNat msg.len :: if size ≤ total.toNat then [.setEvent .bbRf] else [])
  else (s, [])

def endPassive (s : Mgmt) (v : VapId) : Mgmt := s.setVap v { s.vap v with passive := false }

def scanRequest : Handled :=
  let passive := s.staVaps.filter fun v => (s.vap v).passive
  (passive.foldl endPassive s, passive.map .sendProbereqConfirm)

def taConfirm : CmdFrame → Handled
  | .statsRequestFrame => (s, [.copy .staInfo 0 60, .setEvent .stats])
  | .bbProgValuesRequest | .rfProgValuesRequest | .lmacRegOps => if 0 < msg.len then s.readValues msg else (s, [])
  | .bbBufProgValuesReq =>
    if 0 < msg.len then s.readValues msg
    else if s.bbRfValue = 7 then (s, [.setEvent .bbRf])
    else (s, [])
  | .cwModeReq | .eepromWrite => (s, [.setEvent .bbRf])
  | .rfLoopbackReq => s.loopback msg 4096
  | .rfLpbkM3 => s.loopback msg 512
  | .bgScanProbeReq => (s, s.staVaps.map .sendScanDone)
  | .scanRequest => s.scanRequest
  | .eepromReadType => (s, (if 0 < msg.len then [.copy .eepromData 0 msg.len] else []) ++ [.setEvent .bbRf])
  | _ => (s, [])

/-- The confirm of a sleep or wake-up request, for the first station vap. -/
def wakeupSleepConfirm : MgmtExit :=
  if s.driverMode = .rfEvalModeOn then freed (s, []) true
  else match s.staVaps.head? with
    | none => freed (s, []) true
    | some v =>
      if msg.word 12 = 1 then freed (s, [.updatePwrSaveStatus v false .psEnReqCnfm]) true
      else if msg.word 12 = 2 then freed (s, [.updatePwrSaveStatus v false .psDisReqCnfm]) true
      else kept (s, []) false

def keepAlive : Handled :=
  let acked := e.nodes.filter fun p => (e.associd p).setWidth 8 = msg.byte 13
  (s, if msg.byte 12 ≠ 0 then
    (s.vaps.filter fun v => (s.vap v).opmode = .hostap).flatMap fun _ => acked.map .reloadInact
  else [])

def eapol4Ok : Handled :=
  match s.staVaps.head? with
  | none => (s, [])
  | some v =>
    let s' := { s.setVap v { s.vap v with connInProg := false } with eapol4Cnfrm := true }
    let opened := s.ptkKey && s.staDataBlock
    let keyed := s.ptkKey && s.gtkKey
    ({ s' with
        staDataBlock := s.staDataBlock && !opened
        blockApQueues := s.blockApQueues && !opened
        ptkKey := s.ptkKey && !keyed },
      (if opened then [.sendBlockUnblock v] else []) ++
        if keyed then [.updatePwrSaveStatus v true .connected] else [])

def txStatusInd : TxStatus → Handled
  | .nulldataConfirm => s.keepAlive e msg
  | .eapol4Confirm =>
    if msg.byte 12 ≠ 0 then s.eapol4Ok else (s, (s.staVaps.filterMap fun v => (s.vap v).bss).map .staLeave)
  | .probereqConfirm => (s, s.staVaps.map .sendProbereqConfirm)
  | .other => (s, [])

/-- The pointer read from `sta[i].ni`. The check lets the index 30 pass, one behind the table. -/
def staNi (i : Nat) : Option NodePtr := if h : i < maxStations then (s.stations.slot ⟨i, h⟩).ni else e.pastSta

def tsfSyncConfirm : MgmtExit :=
  let staId := (msg.byte 13).toNat
  if maxStations < staId then kept (s, []) false
  else match s.staNi e staId with
    | none => kept (s, [.staAt staId]) false
    | some p => match s.stations.node p with
      | none => faulted [.staAt staId]
      | some n =>
        -- the message about a wrong mode reads `vap`, which is still null
        if (s.vap n.vap).opmode ≠ .hostap then faulted [.staAt staId]
        else freed (s, [.staAt staId, .eospTsf p (msg.dword 16)]) true

/-- `off` is where the frame begins in the message. -/
def wlanCorePktRecv (off : Nat) : MgmtExit :=
  if !e.mbufAlloc then freed (s, [.netbufAdj off]) true
  else match e.findRxnode (msg.mac (off + 10)) with
    | some p => handedOver (s, [.netbufAdj off, .setChno p (msg.byte 15)]) (.ivInput p) true
    | none => handedOver (s, [.netbufAdj off]) .inputAll true

def rxDot11Mgmt : MgmtExit :=
  if msg.len ≤ msg.padBytes then freed (s, []) true
  else if s.driverMode = .snifferMode then
    match s.vaps.head? with
    | none => faulted []
    | some v => (s.setVap v { s.vap v with extendedDescSize := msg.byte 4 }).wlanCorePktRecv e msg 16
  else s.wlanCorePktRecv e msg (16 + msg.padBytes)

def pwrsaveNotify : Handled :=
  let vapId := ((msg.word 12 &&& 0xc) >>> 2).toNat
  if !s.vapInUse vapId then (s, [.halVapAt vapId])
  else match s.vaps.find? fun v => v.val = vapId with
    | none => (s, [.halVapAt vapId])
    | some v => match e.findNode (msg.mac 6) with
      | none => (s, [.halVapAt vapId])
      | some p =>
        if (s.stations.node p).map Node.vap ≠ some v then (s, [.halVapAt vapId])
        else if (msg.word 12).getLsbD 1 then (s, [.halVapAt vapId, .nodePwrsave p true])
        else if (msg.word 12).getLsbD 0 then (s, [.halVapAt vapId, .nodePwrsave p false])
        else (s, [.halVapAt vapId])

def psNotifyInd : MgmtExit :=
  match s.stations.findMac (msg.mac 6) with
  | none => kept (s, []) true
  | some i => match (s.stations.slot i).ni.bind s.stations.node with
    | none => faulted []
    | some n =>
      if i.val ≠ n.staId then kept (s, []) true
      else freed (s.pwrsaveNotify e msg) true

def beaconEventInd : Handled :=
  let vapId := (msg.byte 15).toNat
  let due := s.vaps.filter fun v => v.val = vapId && (s.vap v).run && !s.blockApQueues
  if !s.vapInUse vapId then (s, [.halVapAt vapId])
  else (if due.isEmpty then s else { s with beaconEvent := true, beaconEventVapId := vapId },
    .halVapAt vapId :: due.map fun _ => .setEvent .sdioScheduler)

def coreMichaelFailure : Handled :=
  match e.findRxnode (msg.mac 6) with
  | none => (s, [])
  | some p => (s, if (msg.byte 12).getLsbD 2 && !(msg.byte 12).getLsbD 3 then [.rxmicFailure p] else [])

/-- The caller reports success whatever this function returns. -/
def oneboxMgmtPktToCore : RxCmd → MgmtExit
  | .rxDot11Mgmt => s.rxDot11Mgmt e msg
  | .psNotifyInd => s.psNotifyInd e msg
  | .beaconEventInd => freed (s.beaconEventInd msg) true
  | .decryptErrorInd => freed (s.coreMichaelFailure e msg) true
  | _ => freed (s, []) true

def macInitDone : MgmtExit :=
  match msg.type with
  | .taConfirmType =>
    if msg.subType = .wakeupSleepRequest then s.wakeupSleepConfirm msg
    else freed (s.taConfirm msg msg.subType) true
  | .txStatusInd => freed (s.txStatusInd e msg (.decode (msg.byte 15))) true
  | .debugInd => freed (s, [.dumpDebugFrame msg.len]) true
  | .hwBmissEvent => freed (s, [.beaconMiss]) true
  | .tsfSyncConfirm => s.tsfSyncConfirm e msg
  | .rateGcTableUpdate => freed (s, []) true
  | t => s.oneboxMgmtPktToCore e msg t

def oneboxMgmtPktRecv : MgmtExit :=
  match s.fsm with
  | .loadBootupParams => freed (s.bootupParams e msg) true
  | .eepromReadMacAddr => freed (s.readMacAddr e msg) true
  | .eepromReadRfType => freed (s.readRfType e msg) true
  | .resetMacCfm => s.resetMacCfm e msg
  | .bbRfStart => freed (s.bbRfStart msg) true
  | .ampduIndSent => s.ampduIndSent e msg
  | .scanCfm => freed (s.scanCfm msg) true
  | .macInitDone => s.macInitDone e msg
  | _ => freed (s, []) true

end Mgmt

end Onebox
