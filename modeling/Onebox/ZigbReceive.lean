import Onebox.Ensures
import Onebox.Scan
import Onebox.Spans

/-! A packet of the ZigBee module on its way through the application. `rsi_frame_read` copies the packet out
of a netlink message, `rsi_zigb_app_frame_process` looks at its header, and `rsi_zigb_app_cb_handler` takes
the fields out of a callback. -/

namespace Onebox

open ByteMem Calls Scan Span

/-- What `recv` has put into the buffer, of `RSI_ZIGB_MAX_PAYLOAD_SIZE` bytes. Behind the bytes received it
has what was there before. -/
structure NetlinkMessage where
  data : Nat → UInt8
  received : Nat
  fits : received ≤ 256

/-- The responses that `rsi_zigb_app_handle_data_indication` keeps, each in a buffer of 30 bytes. -/
inductive ZdpResponse
  | powerDesc
  | nodeDesc
  | bind
  | unbind
  | actep
  | ieeeaddr
  | simpledesc
  | networkaddr
  | matchDesc
  deriving DecidableEq, Repr

/-- The arrays that are accessed. -/
inductive RxArray
  | message
  | readPacketBuffer
  | asduPkt
  | response (r : ZdpResponse)
  deriving DecidableEq, Repr

abbrev Rx (α : Type) : Type := Calls (Span RxArray) α

structure NetworkDetails where
  shortPanId : Nat
  channel : UInt8
  extendedPanId : List UInt8
  stackProfile : UInt8
  nwkUpdateId : UInt8
  allowingJoining : UInt8

structure DataIndication where
  destAddrMode : UInt8
  destAddress : List UInt8
  destEndpoint : UInt8
  srcAddrMode : UInt8
  srcAddress : List UInt8
  srcEndpoint : UInt8
  profileId : Nat
  clusterId : Nat
  asdulength : UInt8
  wasBroadcast : UInt8
  securityStatus : UInt8
  linkQuality : UInt8

structure DataConfirmation where
  destAddrMode : UInt8
  destAddress : List UInt8
  destEndpoint : UInt8
  srcEndpoint : UInt8
  status : UInt8

/-- The fields of `rsi_zigb_app_cb` and `rsi_zigb_app_info` that the callbacks write. -/
structure ZigbApp where
  readPacketBuffer : Nat → UInt8
  scanChannel : Nat
  scanStatus : UInt8
  scanReqSent : UInt8
  numNwkFound : UInt16
  nwkinfo : NetworkDetails
  stackStatus : UInt8
  shortAddr : Nat
  dataConf : DataConfirmation
  dataConfWait : UInt8
  sendData : UInt16
  asduPkt : Nat → UInt8
  response : ZdpResponse → Nat → UInt8
  rspStatus : ZdpResponse → UInt8

/-- The variables are zero at the start. -/
def ZigbApp.init : ZigbApp where
  readPacketBuffer _ := 0
  scanChannel := 0
  scanStatus := 0
  scanReqSent := 0
  numNwkFound := 0
  nwkinfo := ⟨0, 0, List.replicate 8 0, 0, 0, 0⟩
  stackStatus := 0
  shortAddr := 0
  dataConf := ⟨0, [], 0, 0, 0⟩
  dataConfWait := 0
  sendData := 0
  asduPkt _ := 0
  response _ _ := 0
  rspStatus _ := 0

/-- The packet is as long as the first two bytes of its descriptor say. -/
def NetlinkMessage.length (msg : NetlinkMessage) : Nat := (le16 msg.data 24 &&& 0xfff) + 16

/-- The buffer with the packet. -/
def rsiFrameRead (packetBuffer : Nat → UInt8) (msg : NetlinkMessage) : Rx (Nat → UInt8) := do
  touch .message 24 2 msg.received
  touch .readPacketBuffer 0 msg.length 256
  let packetBuffer := copy packetBuffer 0 (fun _ => 0) 0 msg.length
  touch .message 24 msg.length msg.received
  touch .readPacketBuffer 0 msg.length 256
  pure (copy packetBuffer 0 msg.data 24 msg.length)

/-- The header of a response, and where its payload stands. -/
structure UCmdRsp where
  seqNo : UInt8
  dir : UInt8
  intfId : UInt8
  cmdId : UInt8
  payload : Nat
  deriving DecidableEq

section Packet

-- the buffer, and how many bytes of it have been received
variable (buffer : Nat → UInt8) (n : Nat)

def packetByte (i : Nat) : Rx UInt8 := Span.get .readPacketBuffer buffer n i

def dumpTest (i base : Nat) : Rx Bool := do
  let payloadLength ← packetByte buffer n base
  pure (decide (i < 16 + payloadLength.toNat))

/-- The loop of a dump, with the buffer moved on by `d` bytes in each round. -/
def dumpLoop (d : Nat) : Nat → Nat → Nat → Rx Nat :=
  byteLoop (dumpTest buffer n) fun i base => do
    let _ ← packetByte buffer n (base + d + i)
    pure (base + d)

/-- The dump of the packet. A loop of more rounds than the counter has values does not end. -/
def dumpPacket : Rx Nat := dumpLoop buffer n 0 257 0 0

/-- The dump of a packet in the wrong direction. -/
def dumpInvalid : Rx Nat := dumpLoop buffer n 12 257 0 0

def rsiZigbAppFrameProcess : Rx (Option UCmdRsp) := do
  let _ ← dumpPacket buffer n
  let payloadLength ← packetByte buffer n 0
  if payloadLength.toNat ≥ 256 then pure none
  else
    let seqNo ← packetByte buffer n 12
    if seqNo.toNat ≥ 256 then pure none
    else
      let dir ← packetByte buffer n 13
      if dir ≠ 2 then
        let _ ← dumpInvalid buffer n
        pure none
      else
        let intfId ← packetByte buffer n 14
        if intfId > 7 then pure none
        else
          let cmdId ← packetByte buffer n 15
          if cmdId = 0 then pure none else pure (some ⟨seqNo, dir, intfId, cmdId, 16⟩)

def packetBytes (p k : Nat) : Rx (List UInt8) := do
  touch .readPacketBuffer p k n
  pure (window buffer p k)

/-- `rsi_zigb_bytes2R_to_uint16` -/
def packetWord (p : Nat) : Rx Nat := do
  touch .readPacketBuffer p 2 n
  pure (le16 buffer p)

/-- The bytes of an address, for `g_SHORT_ADDR_MODE_c` and `g_EXTENDED_ADDR_MODE_c`. -/
def addrSize (mode : UInt8) : Nat := if mode = 2 then 2 else if mode = 3 then 8 else 0

end Packet

/-- The clusters of the responses, with the status that is looked for. -/
def zdpResponses : List (Nat × ZdpResponse × UInt8) :=
  [(0x8003, .powerDesc, 0x00), (0x8002, .nodeDesc, 0x00), (0x8021, .bind, 0x84), (0x8022, .unbind, 0x84),
    (0x8005, .actep, 0x00), (0x8001, .ieeeaddr, 0x00), (0x8004, .simpledesc, 0x00),
    (0x8000, .networkaddr, 0x00), (0x8006, .matchDesc, 0x00)]

inductive AppCallback
  | scanComplete
  | energyScanResult
  | networkFound
  | stackStatus
  | childJoin
  | manyToOneRouteRequest
  | dataIndication
  | dataConfirmation
  deriving DecidableEq, Repr

def appCallbacks : List (UInt8 × AppCallback) :=
  [(0x4b, .scanComplete), (0x4c, .energyScanResult), (0x4d, .networkFound), (0x4e, .stackStatus),
    (0x4f, .childJoin), (0x50, .manyToOneRouteRequest), (0x51, .dataIndication), (0x52, .dataConfirmation)]

namespace ZigbApp

variable (app : ZigbApp)

def scanCompleteHandler (channel : Nat) (status : UInt8) : ZigbApp :=
  { app with scanChannel := channel, scanStatus := status, scanReqSent := 0 }

def networkFoundHandler (networkInformation : NetworkDetails) : ZigbApp :=
  { app with numNwkFound := app.numNwkFound + 1, nwkinfo := networkInformation }

def stackStatusHandler (statusInfo : UInt8) : ZigbApp := { app with stackStatus := statusInfo }

def childJoinHandler (shortAddress : Nat) : ZigbApp := { app with shortAddr := shortAddress }

def handleDataConfirmation (pDataConfirmation : DataConfirmation) : ZigbApp :=
  { app with dataConf := pDataConfirmation, dataConfWait := 0, sendData := 1 }

/-- The ASDU stands in `asdu_pkt`, and no more of it has been received than its length. -/
def handleDataIndication (pDataIndication : DataIndication) : Rx ZigbApp :=
  let asdulength := pDataIndication.asdulength.toNat
  match zdpResponses.lookup pDataIndication.clusterId with
  | none => pure app
  | some (r, expected) => do
    let status ← Span.get .asduPkt app.asduPkt asdulength 1
    if status = expected then
      touch .asduPkt 0 asdulength asdulength
      touch (.response r) 0 asdulength 30
      pure
        { app with
          response := Function.update app.response r (copy (app.response r) 0 app.asduPkt 0 asdulength)
          rspStatus := Function.update app.rspStatus r 0 }
    else pure app

end ZigbApp

section Callbacks

variable (app : ZigbApp) (buffer : Nat → UInt8) (n : Nat)

def readConfirmation (p : Nat) : Rx DataConfirmation := do
  let destAddrMode ← packetByte buffer n p
  let destAddress ← packetBytes buffer n (p + 1) (addrSize destAddrMode)
  let p := p + 1 + addrSize destAddrMode
  let destEndpoint ← packetByte buffer n p
  let srcEndpoint ← packetByte buffer n (p + 1)
  let status ← packetByte buffer n (p + 2)
  pure ⟨destAddrMode, destAddress, destEndpoint, srcEndpoint, status⟩

/-- The fields of an indication, and where the ASDU stands. -/
def readIndication (p : Nat) : Rx (DataIndication × Nat) := do
  let destAddrMode ← packetByte buffer n p
  let destAddress ← packetBytes buffer n (p + 1) (addrSize destAddrMode)
  let p := p + 1 + addrSize destAddrMode
  let destEndpoint ← packetByte buffer n p
  let srcAddrMode ← packetByte buffer n (p + 1)
  let srcAddress ← packetBytes buffer n (p + 2) (addrSize srcAddrMode)
  let p := p + 2 + addrSize srcAddrMode
  let srcEndpoint ← packetByte buffer n p
  let profileId ← packetWord buffer n (p + 1)
  let clusterId ← packetWord buffer n (p + 3)
  let asdulength ← packetByte buffer n (p + 5)
  let wasBroadcast ← packetByte buffer n (p + 6)
  let securityStatus ← packetByte buffer n (p + 7)
  let linkQuality ← packetByte buffer n (p + 8)
  pure (⟨destAddrMode, destAddress, destEndpoint, srcAddrMode, srcAddress, srcEndpoint, profileId, clusterId,
    asdulength, wasBroadcast, securityStatus, linkQuality⟩, p + 9)

def rsiZigbAppCbHandler (cmdId : UInt8) (p : Nat) : Rx ZigbApp :=
  match appCallbacks.lookup cmdId with
  | none => pure app
  | some .scanComplete => do
    let _ ← packetBytes buffer n p 4
    let status ← packetByte buffer n (p + 4)
    pure (app.scanCompleteHandler (le32 buffer p) status)
  | some .energyScanResult => do
    let _ ← packetBytes buffer n p 4
    let _ ← packetBytes buffer n (p + 4) 16
    pure app
  | some .networkFound => do
    let shortPanId ← packetWord buffer n p
    let channel ← packetByte buffer n (p + 2)
    let extendedPanId ← packetBytes buffer n (p + 3) 8
    let stackProfile ← packetByte buffer n (p + 11)
    let nwkUpdateId ← packetByte buffer n (p + 12)
    let allowingJoining ← packetByte buffer n (p + 13)
    pure (app.networkFoundHandler
      ⟨shortPanId, channel, extendedPanId, stackProfile, nwkUpdateId, allowingJoining⟩)
  | some .stackStatus => do
    let statusInfo ← packetByte buffer n p
    pure (app.stackStatusHandler statusInfo)
  | some .childJoin => do
    let shortAddress ← packetWord buffer n p
    let _ ← packetByte buffer n (p + 2)
    pure (app.childJoinHandler shortAddress)
  | some .manyToOneRouteRequest => do
    let _ ← packetWord buffer n p
    let _ ← packetBytes buffer n (p + 2) 8
    let _ ← packetByte buffer n (p + 10)
    pure app
  | some .dataIndication => do
    let (pDataIndication, p) ← readIndication buffer n p
    let asdulength := pDataIndication.asdulength.toNat
    touch .readPacketBuffer p asdulength n
    touch .asduPkt 0 asdulength 256
    let app := { app with asduPkt := copy app.asduPkt 0 buffer p asdulength }
    app.handleDataIndication pDataIndication
  | some .dataConfirmation => do
    let confirmation ← readConfirmation buffer n p
    pure (app.handleDataConfirmation confirmation)

end Callbacks

/-- A message from its arrival to the callback. -/
def zigbReceive (app : ZigbApp) (msg : NetlinkMessage) : Rx ZigbApp := do
  let buffer ← rsiFrameRead app.readPacketBuffer msg
  let app := { app with readPacketBuffer := buffer }
  match ← rsiZigbAppFrameProcess buffer msg.length with
  | none => pure app
  | some rsp => rsiZigbAppCbHandler app buffer msg.length rsp.cmdId rsp.payload

/-- An indication with its ASDU is inside the packet. A response among the clusters has a status, and if that
is the one looked for it has room in its buffer. -/
def IndicationFits (b : Nat → UInt8) (n : Nat) : Prop :=
  let addrs := addrSize (b 16) + addrSize (b (18 + addrSize (b 16)))
  let asdulength := (b (24 + addrs)).toNat
  28 + addrs + asdulength ≤ n ∧
    ∀ r ∈ zdpResponses.lookup (le16 b (22 + addrs)),
      2 ≤ asdulength ∧ (b (29 + addrs) = r.2 → asdulength ≤ 30)

/-- The fields of a callback are inside the packet. -/
def CallbackFits (b : Nat → UInt8) (n : Nat) : Option AppCallback → Prop
  | none => True
  | some .scanComplete => 16 + 5 ≤ n
  | some .energyScanResult => 16 + 20 ≤ n
  | some .networkFound => 16 + 14 ≤ n
  | some .stackStatus => 16 + 1 ≤ n
  | some .childJoin => 16 + 3 ≤ n
  | some .manyToOneRouteRequest => 16 + 11 ≤ n
  | some .dataIndication => IndicationFits b n
  | some .dataConfirmation => 16 + 4 + addrSize (b 16) ≤ n

/-- The dump of a packet in the wrong direction comes to an end inside the packet. -/
def DumpFits (b : Nat → UInt8) (n : Nat) : Prop := 208 ≤ n ∧ (b 192 = 0 ∨ 221 ≤ n ∧ b 204 ≤ 1)

/-- All of the packet has been received, and what it is taken apart into is inside it. -/
def NetlinkMessage.Parsable (msg : NetlinkMessage) : Prop :=
  let b := fun i => msg.data (24 + i)
  24 + msg.length ≤ msg.received ∧
    if b 13 = 2 then b 14 ≤ 7 → b 15 ≠ 0 → CallbackFits b msg.length (appCallbacks.lookup (b 15))
    else DumpFits b msg.length

section Fields

variable {α : Type} {b : Nat → UInt8} {n i p k : Nat}

@[simp] theorem safe_packetByte_bind {f : UInt8 → Rx α} :
    Safe (packetByte b n i >>= f) ↔ i < n ∧ Safe (f (b i)) := safe_get_bind

@[simp] theorem safe_packetBytes_bind {f : List UInt8 → Rx α} :
    Safe (packetBytes b n p k >>= f) ↔ (0 < k → p + k ≤ n) ∧ Safe (f (window b p k)) := by
  rw [safe_bind rfl]
  exact and_congr_left' List.forall_mem_singleton

@[simp] theorem safe_packetWord_bind {f : Nat → Rx α} :
    Safe (packetWord b n p >>= f) ↔ p + 2 ≤ n ∧ Safe (f (le16 b p)) := by
  rw [safe_bind rfl]
  refine and_congr_left' (List.forall_mem_singleton.trans ?_)
  exact forall_prop_of_true Nat.two_pos

theorem safe_readConfirmation :
    Safe (readConfirmation b n p) ↔ p + 4 + addrSize (b p) ≤ n := by
  rw [readConfirmation]
  simp only [safe_packetByte_bind, safe_packetBytes_bind, safe_pure, and_true]
  omega

theorem safe_readIndication {ind : DataIndication × Nat} (h : (readIndication b n p).result = some ind) :
    Safe (readIndication b n p) ↔ ind.2 ≤ n := by
  cases h
  rw [readIndication]
  simp only [safe_packetByte_bind, safe_packetBytes_bind, safe_packetWord_bind, safe_pure, and_true]
  omega

theorem safe_handleDataIndication {app : ZigbApp} {ind : DataIndication} :
    Safe (app.handleDataIndication ind) ↔
      ∀ r ∈ zdpResponses.lookup ind.clusterId,
        2 ≤ ind.asdulength.toNat ∧ (app.asduPkt 1 = r.2 → ind.asdulength.toNat ≤ 30) := by
  rw [ZigbApp.handleDataIndication]
  cases h : zdpResponses.lookup ind.clusterId with
  | none => simp
  | some r =>
    dsimp only
    rw [safe_get_bind]
    by_cases hstatus : app.asduPkt 1 = r.2
    · rw [if_pos hstatus]
      simp only [safe_touch_bind, safe_pure, Option.mem_some_iff, forall_eq', hstatus, true_implies, and_true]
      omega
    · rw [if_neg hstatus]
      simp only [safe_pure, Option.mem_some_iff, forall_eq', hstatus, false_implies, and_true]
      omega

theorem indicationFits_iff {ind : DataIndication × Nat} (h : (readIndication b n 16).result = some ind) :
    IndicationFits b n ↔
      ind.2 + ind.1.asdulength.toNat ≤ n ∧
        ∀ r ∈ zdpResponses.lookup ind.1.clusterId,
          2 ≤ ind.1.asdulength.toNat ∧ (b (ind.2 + 1) = r.2 → ind.1.asdulength.toNat ≤ 30) := by
  cases h
  have hsrc : 16 + 1 + addrSize (b 16) + 1 = 18 + addrSize (b 16) := by omega
  rw [IndicationFits]
  simp only [hsrc]
  generalize addrSize (b 16) = dest
  generalize addrSize (b (18 + dest)) = src
  have hcluster : 16 + 1 + dest + 2 + src + 3 = 22 + (dest + src) := by omega
  have hlength : 16 + 1 + dest + 2 + src + 5 = 24 + (dest + src) := by omega
  have hasdu : 16 + 1 + dest + 2 + src + 9 = 28 + (dest + src) := by omega
  have hstatus : 28 + (dest + src) + 1 = 29 + (dest + src) := by omega
  rw [hcluster, hlength, hasdu, hstatus]

/-- An indication is taken apart in bounds just if it fits. -/
theorem safe_dataIndication {app : ZigbApp} {cmdId : UInt8}
    (h : appCallbacks.lookup cmdId = some .dataIndication) :
    Safe (rsiZigbAppCbHandler app b n cmdId 16) ↔ IndicationFits b n := by
  obtain ⟨ind, hind⟩ : ∃ ind, (readIndication b n 16).result = some ind := ⟨_, rfl⟩
  have hlt : ind.1.asdulength.toNat < 256 := ind.1.asdulength.toNat_lt
  rw [rsiZigbAppCbHandler, h, indicationFits_iff hind]
  dsimp only
  rw [safe_bind_iff hind, safe_readIndication hind, safe_touch_bind, safe_touch_bind,
    safe_handleDataIndication]
  have hstatus (r : ZdpResponse × UInt8) :
      2 ≤ ind.1.asdulength.toNat ∧
          (copy app.asduPkt 0 b ind.2 ind.1.asdulength.toNat 1 = r.2 → ind.1.asdulength.toNat ≤ 30) ↔
        2 ≤ ind.1.asdulength.toNat ∧ (b (ind.2 + 1) = r.2 → ind.1.asdulength.toNat ≤ 30) := by
    refine and_congr_right fun htwo => ?_
    have hone : copy app.asduPkt 0 b ind.2 ind.1.asdulength.toNat (0 + 1) = b (ind.2 + 1) := copy_of_mem htwo
    rw [← hone, Nat.zero_add]
  simp only [hstatus]
  constructor
  · rintro ⟨hfields, hasdu, -, hresponse⟩
    exact ⟨by omega, hresponse⟩
  · rintro ⟨hasdu, hresponse⟩
    exact ⟨by omega, fun _ => hasdu, fun _ => by omega, hresponse⟩

theorem safe_cbHandler {app : ZigbApp} {cmdId : UInt8} :
    Safe (rsiZigbAppCbHandler app b n cmdId 16) ↔ CallbackFits b n (appCallbacks.lookup cmdId) := by
  cases h : appCallbacks.lookup cmdId with
  | none =>
    rw [rsiZigbAppCbHandler, h]
    exact iff_of_true safe_pure trivial
  | some callback =>
    cases callback with
    | dataIndication => exact safe_dataIndication h
    | dataConfirmation =>
      rw [rsiZigbAppCbHandler, h]
      dsimp only
      rw [safe_bind_iff rfl, safe_readConfirmation]
      exact and_iff_left safe_pure
    | _ =>
      rw [rsiZigbAppCbHandler, h, CallbackFits]
      simp only [safe_packetByte_bind, safe_packetBytes_bind, safe_packetWord_bind, safe_pure, and_true]
      omega

end Fields

section Header

variable {b : Nat → UInt8} {n : Nat}

theorem dumpTest_inBounds {i base : Nat} :
    (∀ e ∈ (dumpTest b n i base).log, e.InBounds) ↔ base < n :=
  List.forall_mem_singleton.trans (forall_prop_of_true Nat.one_pos)

variable {d fuel i base : Nat}

theorem safe_dumpLoop_round (h : i < 16 + (b base).toNat) :
    Safe (dumpLoop b n d (fuel + 1) i base) ↔
      base < n ∧ base + d + i < n ∧ Safe (dumpLoop b n d fuel ((i + 1) % 2 ^ 8) (base + d)) := by
  have htest : (dumpTest b n i base).result = some true := congrArg some (decide_eq_true h)
  rw [dumpLoop, safe_byteLoop_round htest, dumpTest_inBounds, safe_bind rfl]
  refine and_congr_right fun _ => and_congr_left' ?_
  exact List.forall_mem_singleton.trans (forall_prop_of_true Nat.one_pos)

theorem safe_dumpLoop_end (h : 16 + (b base).toNat ≤ i) :
    Safe (dumpLoop b n d (fuel + 1) i base) ↔ base < n := by
  have htest : (dumpTest b n i base).result = some false :=
    congrArg some (decide_eq_false (Nat.not_lt.mpr h))
  rw [dumpLoop, safe_byteLoop_end htest, dumpTest_inBounds]

/-- The dump of a packet is inside it when its length is that of the descriptor. -/
theorem safe_dumpPacket_from (hn : n = 16 + (b 0).toNat) (hlt : n < 256) (hi : i ≤ n) (hfuel : n < i + fuel) :
    Safe (dumpLoop b n 0 fuel i 0) := by
  induction fuel generalizing i with
  | zero => omega
  | succ fuel ih =>
    by_cases hin : i < n
    · have hmod : (i + 1) % 2 ^ 8 = i + 1 := Nat.mod_eq_of_lt (by omega)
      rw [safe_dumpLoop_round (by omega), hmod]
      exact ⟨by omega, by omega, ih (by omega) (by omega)⟩
    · rw [safe_dumpLoop_end (by omega)]
      omega

/-- The first sixteen rounds of the other dump are made whatever the bytes are. -/
theorem safe_dumpInvalid_rounds (b : Nat → UInt8) (n fuel : Nat) {i : Nat} (hi : i ≤ 16) :
    Safe (dumpLoop b n 12 (fuel + i) 0 0) ↔
      (∀ j < i, 13 * j + 12 < n) ∧ Safe (dumpLoop b n 12 fuel i (12 * i)) := by
  induction i generalizing fuel with
  | zero => simp
  | succ i ih =>
    have hfuel : fuel + (i + 1) = fuel + 1 + i := by omega
    have hmod : (i + 1) % 2 ^ 8 = i + 1 := Nat.mod_eq_of_lt (by omega)
    have hbase : 12 * i + 12 = 12 * (i + 1) := by omega
    have hread : 12 * (i + 1) + i = 13 * i + 12 := by omega
    rw [hfuel, ih (fuel + 1) (by omega), safe_dumpLoop_round (by omega), hmod, hbase, hread,
      Nat.forall_lt_succ_right]
    constructor
    · rintro ⟨hbefore, -, hread, hrest⟩
      exact ⟨⟨hbefore, hread⟩, hrest⟩
    · rintro ⟨⟨hbefore, hread⟩, hrest⟩
      exact ⟨hbefore, by omega, hread, hrest⟩

theorem safe_dumpInvalid (hn : n < 233) : Safe (dumpInvalid b n) ↔ DumpFits b n := by
  have hrounds : Safe (dumpInvalid b n) ↔ (∀ j < 16, 13 * j + 12 < n) ∧ Safe (dumpLoop b n 12 241 16 192) :=
    safe_dumpInvalid_rounds b n 241 (Nat.le_refl 16)
  have hbytes : (∀ j < 16, 13 * j + 12 < n) ↔ 208 ≤ n :=
    ⟨fun h => h 15 (by decide), fun h j hj => by omega⟩
  rw [hrounds, hbytes, DumpFits]
  refine and_congr_right fun hlow => ?_
  by_cases hzero : b 192 = 0
  · rw [safe_dumpLoop_end (by simp [hzero])]
    exact iff_of_true (by omega) (.inl hzero)
  · have hpos : 0 < (b 192).toNat := Nat.pos_of_ne_zero fun h => hzero (UInt8.toNat_inj.mp h)
    have hround : Safe (dumpLoop b n 12 241 16 192) ↔ 192 < n ∧ 220 < n ∧ Safe (dumpLoop b n 12 240 17 204) :=
      safe_dumpLoop_round (Nat.lt_add_of_pos_right hpos)
    have hone : b 204 ≤ 1 ↔ (b 204).toNat ≤ 1 := UInt8.le_iff_toNat_le
    rw [hround, or_iff_right hzero, hone]
    by_cases hend : (b 204).toNat ≤ 1
    · rw [safe_dumpLoop_end (Nat.add_le_add_left hend 16)]
      omega
    · -- the next byte would be behind the longest packet
      have hlast : Safe (dumpLoop b n 12 240 17 204) ↔ 204 < n ∧ 233 < n ∧ _ :=
        safe_dumpLoop_round (Nat.add_lt_add_left (Nat.not_le.mp hend) 16)
      exact iff_of_false (fun h => by have := (hlast.mp h.2.2).2.1; omega) fun h => hend h.2

theorem safe_frameProcess_bind {α : Type} {f : Option UCmdRsp → Rx α} (hn : n = 16 + (b 0).toNat)
    (hlt : n < 233) (hnone : Safe (f none)) :
    Safe (rsiZigbAppFrameProcess b n >>= f) ↔
      if b 13 = 2 then b 14 ≤ 7 → b 15 ≠ 0 → Safe (f (some ⟨b 12, b 13, b 14, b 15, 16⟩))
      else DumpFits b n := by
  have hdump : Safe (dumpPacket b n) := safe_dumpPacket_from hn (by omega) (Nat.zero_le n) (by omega)
  obtain ⟨base, hbase⟩ := Option.isSome_iff_exists.mp hdump.1
  have hlength : ¬ (b 0).toNat ≥ 256 := Nat.not_le.mpr (b 0).toNat_lt
  have hseq : ¬ (b 12).toNat ≥ 256 := Nat.not_le.mpr (b 12).toNat_lt
  rw [rsiZigbAppFrameProcess, bind_assoc, safe_bind_iff hbase, and_iff_right hdump, bind_assoc,
    safe_packetByte_bind, and_iff_right (by omega), if_neg hlength, bind_assoc, safe_packetByte_bind,
    and_iff_right (by omega), if_neg hseq, bind_assoc, safe_packetByte_bind, and_iff_right (by omega)]
  by_cases hdir : b 13 = 2
  · rw [if_neg (not_not.mpr hdir), if_pos hdir, bind_assoc, safe_packetByte_bind, and_iff_right (by omega)]
    by_cases hintf : b 14 > 7
    · rw [if_pos hintf]
      exact iff_of_true hnone fun hle => absurd hintf (UInt8.not_lt.mpr hle)
    · rw [if_neg hintf, bind_assoc, safe_packetByte_bind, and_iff_right (by omega),
        forall_prop_of_true (UInt8.not_lt.mp hintf)]
      by_cases hcmd : b 15 = 0
      · rw [if_pos hcmd]
        exact iff_of_true hnone fun hne => absurd hcmd hne
      · rw [if_neg hcmd, forall_prop_of_true hcmd]
        rfl
  · rw [if_pos hdir, if_neg hdir, bind_assoc, ← safe_dumpInvalid hlt]
    exact safe_bind_of_forall fun _ => hnone

end Header

/-! The conditions look at the bytes of the packet only. -/

section Congr

variable {b c : Nat → UInt8} {n : Nat}

theorem IndicationFits.congr (h : ∀ i < n, b i = c i) (hb : IndicationFits b n) : IndicationFits c n := by
  obtain ⟨hle, hresponse⟩ := hb
  have hdest : b 16 = c 16 := h 16 (by omega)
  rw [hdest] at hle hresponse
  have hsrc : b (18 + addrSize (c 16)) = c (18 + addrSize (c 16)) := h _ (by omega)
  rw [hsrc] at hle hresponse
  rw [IndicationFits]
  generalize addrSize (c 16) + addrSize (c (18 + addrSize (c 16))) = addrs at *
  have hlength : b (24 + addrs) = c (24 + addrs) := h _ (by omega)
  have hcluster : le16 b (22 + addrs) = le16 c (22 + addrs) := by
    rw [le16, le16, h (22 + addrs) (by omega), h (22 + addrs + 1) (by omega)]
  rw [hlength] at hle hresponse
  rw [hcluster] at hresponse
  refine ⟨hle, fun r hr => ?_⟩
  obtain ⟨htwo, hroom⟩ := hresponse r hr
  rw [h (29 + addrs) (by omega)] at hroom
  exact ⟨htwo, hroom⟩

theorem CallbackFits.congr {callback : Option AppCallback} (h : ∀ i < n, b i = c i)
    (hb : CallbackFits b n callback) : CallbackFits c n callback := by
  cases callback with
  | none => exact trivial
  | some callback =>
    cases callback with
    | dataIndication => exact IndicationFits.congr h hb
    | dataConfirmation =>
      have hle : 16 + 4 + addrSize (b 16) ≤ n := hb
      rw [h 16 (by omega)] at hle
      exact hle
    | _ => exact hb

theorem DumpFits.congr (h : ∀ i < n, b i = c i) (hb : DumpFits b n) : DumpFits c n := by
  obtain ⟨hle, hend⟩ := hb
  rw [h 192 (by omega)] at hend
  refine ⟨hle, hend.imp_right fun ⟨hlong, hone⟩ => ?_⟩
  rw [h 204 (by omega)] at hone
  exact ⟨hlong, hone⟩

end Congr

/-- The descriptor of a packet of less than 256 bytes has its length in one byte. -/
theorem NetlinkMessage.length_eq (msg : NetlinkMessage) (h : msg.length < 256) :
    msg.length = 16 + (msg.data 24).toNat := by
  have hmod : le16 msg.data 24 &&& 0xfff = le16 msg.data 24 % 2 ^ 12 := Nat.and_two_pow_sub_one_eq_mod _ 12
  have hlow := (msg.data 24).toNat_lt
  rw [NetlinkMessage.length, hmod, le16] at h ⊢
  omega

theorem safe_rsiFrameRead (packetBuffer : Nat → UInt8) (msg : NetlinkMessage) :
    Safe (rsiFrameRead packetBuffer msg) ↔ 24 + msg.length ≤ msg.received := by
  have hpos : 16 ≤ msg.length := Nat.le_add_left 16 _
  have hfits := msg.fits
  rw [rsiFrameRead]
  simp only [safe_touch_bind, safe_pure, and_true]
  omega

/-- A message is received in bounds, and to the end, just if all of the packet is there and what it is taken
apart into is inside it. -/
theorem safe_zigbReceive_iff (app : ZigbApp) (msg : NetlinkMessage) :
    Safe (zigbReceive app msg) ↔ msg.Parsable := by
  rw [zigbReceive, safe_bind_iff rfl, safe_rsiFrameRead, NetlinkMessage.Parsable]
  refine and_congr_right fun hreceived => ?_
  have hlt : msg.length < 233 := by
    have hfits := msg.fits
    omega
  have hpos : 16 ≤ msg.length := Nat.le_add_left 16 _
  generalize hp : copy (copy app.readPacketBuffer 0 (fun _ => 0) 0 msg.length) 0 msg.data 24 msg.length = p
  have hbytes : ∀ i < msg.length, p i = msg.data (24 + i) := by
    intro i hi
    have hcopy : p (0 + i) = msg.data (24 + i) := by
      rw [← hp]
      exact copy_of_mem hi
    rwa [Nat.zero_add] at hcopy
  have hn : msg.length = 16 + (p 0).toNat := by
    rw [hbytes 0 (by omega)]
    exact msg.length_eq (by omega)
  dsimp only
  rw [safe_frameProcess_bind hn hlt (by exact safe_pure), hbytes 13 (by omega), hbytes 14 (by omega),
    hbytes 15 (by omega)]
  by_cases hdir : msg.data (24 + 13) = 2
  · rw [if_pos hdir, if_pos hdir]
    refine forall₂_congr fun _ _ => safe_cbHandler.trans ?_
    exact ⟨.congr hbytes, .congr fun i hi => (hbytes i hi).symm⟩
  · rw [if_neg hdir, if_neg hdir]
    exact ⟨.congr hbytes, .congr fun i hi => (hbytes i hi).symm⟩

/-- A power descriptor response with an ASDU of 31 bytes, all of them zero. -/
def powerDescMessage : NetlinkMessage where
  data i := (List.replicate 24 (0 : UInt8) ++ ([47] ++ List.replicate 12 0 ++ [2, 6, 0x51]) ++
    ([2, 0, 0, 1, 2, 0, 0, 1, 0, 0, 0x03, 0x80, 31, 0, 0, 0xff] ++ List.replicate 31 0)).getD i 0
  received := 87
  fits := by decide

theorem powerDesc_overflows : ¬ Safe (zigbReceive .init powerDescMessage) := by
  intro h
  have hmem : ⟨.response .powerDesc, 0, 31, 30⟩ ∈ (zigbReceive .init powerDescMessage).log := by
    decide +kernel
  have hroom := h.2 _ hmem (by decide)
  exact absurd hroom (by decide)

end Onebox
