import Onebox.MgmtRx
import Onebox.TxAccess

/-! Received packets on their way from the common HAL to the protocols:
`deploy_packet_to_assets` with the messages of the common HAL itself, the card
readies, and the handlers of Bluetooth and ZigBee. -/

namespace Onebox

open PktCall

inductive CoexMode
  | wifiAlone | wifiBtClassic | wifiZigbee | wifiBtLe | other
  deriving DecidableEq, Repr

/-- `d_assets->common_hal_fsm`. -/
inductive CommonHalFsm
  | waitForCardReady | sendConfigParams | txAccess
  deriving DecidableEq, Repr

inductive RxPktType
  | coex | zigb | bt | wlan | other
  deriving DecidableEq, Repr

def RxMsg.queueno (msg : RxMsg) : Nat := ((msg.word 0 &&& 0x7000) >>> 12).toNat

structure CoexPkt where
  rxPktType : RxPktType
  data : RxMsg
  len : Nat

/-- The common HAL as a received packet sees it. -/
structure Coex where
  hal : Hal
  cardAboard : Bool
  fsm : FsmState
  commonHalFsm : CommonHalFsm
  coexMode : CoexMode
  driverMode : DriverMode
  flashingModeOn : Bool
  flashingStarted : Bool
  eepromCfmCount : BitVec 8
  eepromLength : Nat
  ulpSleepToken : BitVec 16

/-- What the functions called give back. `inaugurate` is the state that the call of a present
function leaves its driver in; `stillActive` is the `drv_state` a protocol reads again under its lock. -/
structure CoexEnv where
  qspiBootupParams : Bool
  ackAlloc : Bool
  configureCommonDevParams : Bool
  inaugurate : Proto → Option DrvState
  handler : Proto → Bool
  stillActive : Bool
  btDeviceReady : Bool
  genlCb : Bool
  genlDone : Bool
  genlAlloc : Bool
  genlFilled : Bool
  genlSent : Bool

inductive CoexEffect
  | qspiBootupParams
  | setFlashEvent
  | setCoexTxEvent
  | copyFlash (len : Nat)
  | configureCommonDevParams (sent : Bool)
  | wakeUp (p : Proto)
  | inaugurate (p : Proto)
  | netbufAdj (n : Nat)
  | hciEventAt (i : Nat)
  | genlUnicast (len : Nat) (sent : Bool)
  deriving DecidableEq, Repr

/-- Who gets a packet: the Bluetooth stack, or `wlan_read_pkt`. -/
inductive CoexReceiver
  | bluez | wlan
  deriving DecidableEq, Repr

abbrev CoexHandled := Coex × List CoexEffect

abbrev CoexExit := Calls (PktCall CoexEffect CoexReceiver) (Coex × Bool)

/-- One turn of the loop that grants access to the protocols that wait for it. -/
def grantOne (r : DriverAssets × List CoexEffect) (p : Proto) : DriverAssets × List CoexEffect :=
  if r.1.grantable p then ((r.1.setDeregisterFlags p false).setTxAccess p true, r.2 ++ [.wakeUp p])
  else r

def grantWaiting (d : DriverAssets) : DriverAssets × List CoexEffect := allProtos.foldl grantOne (d, [])

namespace Coex

variable (s : Coex) (e : CoexEnv)

def assets : DriverAssets := s.hal.assets

def mapAssets (f : DriverAssets → DriverAssets) : Coex :=
  { s with hal := { s.hal with assets := f s.hal.assets } }

def fwActive (p : Proto) : Bool := (s.assets.techs p).fwActive

def grant : CoexHandled :=
  let r := grantWaiting s.assets
  (s.mapAssets fun _ => r.1, r.2)

def processUlpSleepNotify (msg : RxMsg) : CoexHandled :=
  if (msg.byte 12).getLsbD 0 then
    let r := s.hal.sleepEntryRecvd e.ackAlloc
    let s' := { s with hal := r.1, ulpSleepToken := msg.word 12 >>> 4 }
    if r.2 then s'.grant else (s', [])
  else { s with hal := s.hal.sleepExitRecvd, ulpSleepToken := 0xabcd }.grant

def oneboxProcessCoexRxPkt (msg : RxMsg) : CoexHandled :=
  match s.fsm with
  | .cardNotReady =>
    if (msg.byte 2 = 0 && s.driverMode = .qspiFlashing) || (msg.byte 2 = 0x0a && msg.byte 15 = 0) then
      ({ s with flashingModeOn := true, fsm := if e.qspiBootupParams then .loadBootupParams else s.fsm },
        [.qspiBootupParams])
    else (s, [])
  | .flashBurn =>
    if msg.byte 15 = 15 then ({ s with eepromCfmCount := s.eepromCfmCount + 1 }, [.setFlashEvent])
    else if msg.byte 15 = 14 && 0 < msg.len && s.eepromLength = msg.len then
      (s, [.copyFlash msg.len, .setFlashEvent])
    else (s, [])
  | .loadBootupParams =>
    if msg.byte 2 = 1 && msg.byte 15 = 12 then ({ s with flashingStarted := true }, [.setCoexTxEvent])
    else (s, [])
  | .deviceReady => if msg.byte 2 = 6 then s.processUlpSleepNotify e msg else (s, [])
  | _ => (s, [])

/-- Every technology of the mode has sent its card ready. -/
def allReady : Bool :=
  match s.coexMode with
  | .wifiAlone => s.fwActive .wlan
  | .wifiBtClassic | .wifiBtLe => s.fwActive .wlan && s.fwActive .bt
  | .wifiZigbee => s.fwActive .wlan && s.fwActive .zb
  | .other => false

def openAccess : Coex :=
  { s.mapAssets ({ · with commonHalTxAccess := true }) with commonHalFsm := .txAccess }

def sendConfigParams : CoexHandled :=
  let r := s.openAccess.grant
  (r.1, .configureCommonDevParams e.configureCommonDevParams :: r.2)

def oneboxUpdateCommonHalTxAccess : CoexHandled :=
  match s.commonHalFsm with
  -- the first state falls through to the second once all are ready
  | .waitForCardReady => if s.allReady then s.sendConfigParams e else (s, [])
  | .sendConfigParams => s.sendConfigParams e
  | .txAccess => (s, [])

def inaugurateAssets (p : Proto) : CoexHandled :=
  match (s.assets.techs p).drvState, e.inaugurate p with
  | .inserted, some st => (s.mapAssets (·.modify p ({ · with drvState := st })), [.inaugurate p])
  | _, _ => (s, [])

def markReady (p : Proto) : Coex := s.mapAssets (·.modify p ({ · with fwActive := true }))

def cardReady (p : Proto) : CoexHandled :=
  let r := (s.markReady p).oneboxUpdateCommonHalTxAccess e
  let r' := r.1.inaugurateAssets e p
  (r'.1, r.2 ++ r'.2)

/-- The part of `deploy_packet_to_assets` for one protocol. `ready` says whether the packet is its
card ready, and `read` is its handler. -/
def deployTo (p : Proto) (ready : Bool) (read : CoexExit) : CoexExit :=
  if !s.fwActive p then freed (if ready then s.cardReady e p else (s, [])) true
  else if !s.assets.isActive p then freed (s, []) true
  else if e.handler p then read
  else kept (s, []) true

/-- Looks at the packet for its debug output. The result says whether it is a debug message. -/
def printHciEventType (msg : RxMsg) : List CoexEffect × Bool :=
  if msg.byte 14 = 4 then ([.hciEventAt (msg.byte 16).toNat], false)
  else ([], msg.byte 14 = 0xff && (msg.word 16 = 1 || msg.word 16 = 2))

def toBluez (es : List CoexEffect) : CoexExit := handedOver (s, es ++ [.netbufAdj 16]) .bluez true

def oneboxMgmtPktToCore (msg : RxMsg) : CoexExit :=
  if msg.len = 0 then freed (s, []) true else s.toBluez []

def oneboxBtMgmtPktRecv (msg : RxMsg) : CoexExit :=
  -- `STATION_STATISTICS_RESP` is more than a byte, so no message has that type
  if e.btDeviceReady && msg.byte 14 ≠ 0x80 then s.oneboxMgmtPktToCore msg else freed (s, []) true

def btReadPkt (msg : RxMsg) : CoexExit :=
  match msg.queueno with
  | 7 =>
    if msg.len = 0 then freed (s, []) true
    else
      let r := printHciEventType msg
      if r.2 then kept (s, r.1) true else s.toBluez r.1
  | 6 => s.oneboxBtMgmtPktRecv e msg
  | _ => freed (s, []) true

def btGplReadPkt (msg : RxMsg) : CoexExit := if e.stillActive then s.btReadPkt e msg else freed (s, []) true

/-- Copies the payload into a message of its own and never frees the packet. -/
def oneboxGenlsend (len : Nat) : List CoexEffect :=
  if e.genlCb && e.genlDone && len ≠ 0 && e.genlAlloc && e.genlFilled then [.genlUnicast len e.genlSent] else []

def zigbReadPkt (pkt : CoexPkt) : CoexExit := kept (s, oneboxGenlsend e pkt.len) true

def zigbGplReadPkt (pkt : CoexPkt) : CoexExit := if e.stillActive then s.zigbReadPkt e pkt else freed (s, []) true

def wlanGplReadPkt : CoexExit :=
  if e.stillActive then handedOver (s, []) .wlan true else freed (s, []) true

def deployPacketToAssets (pkt : CoexPkt) : CoexExit :=
  if !s.cardAboard then freed (s, []) true
  else match pkt.rxPktType with
    | .coex => freed (s.oneboxProcessCoexRxPkt e pkt.data) true
    | .bt => s.deployTo e .bt (pkt.data.byte 14 = 0x89) (s.btGplReadPkt e pkt.data)
    | .wlan => s.deployTo e .wlan (pkt.data.byte 2 = 0) (s.wlanGplReadPkt e)
    | .zigb => s.deployTo e .zb (pkt.data.byte 15 = 0xff) (s.zigbGplReadPkt e pkt)
    | .other => kept (s, []) true

end Coex

end Onebox
