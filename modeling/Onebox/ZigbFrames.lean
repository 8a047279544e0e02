import Onebox.CLayout
import Onebox.ZigbCommand

/-! The requests of the ZigBee library that carry data or cluster lists. Each fills a structure on the
stack, copies the variable part into the array at its end, and passes a part of the structure to
`rsi_zigb_execute_cmd` by a length taken from its `sizeof`. -/

namespace Onebox

open ByteMem CLayout Scan

/-- A copy into an array of `room` bytes from its position `start` on, out of an array of `avail` bytes. -/
structure Copied where
  start : Nat
  room : Nat
  avail : Nat
  count : Nat
  deriving DecidableEq, Repr

def Copied.Inside (c : Copied) : Prop := ∀ i < c.count, c.start + i < c.room ∧ i < c.avail

/-- What is passed to `rsi_zigb_execute_cmd`, and the copies that led to it. The memory begins with the
structure. -/
structure ZigbRequest where
  desc : UInt8
  buf : Nat → UInt8
  pktSize : BitVec 8
  copies : List Copied

def managementInterface : UInt8 := 0x01

def ZigbRequest.payload (r : ZigbRequest) : List UInt8 := window r.buf 0 r.pktSize.toNat

/-- The assignments to members of a structure, in their order. -/
def assign (s : Tailed) (stack : Nat → UInt8) (values : List (Nat × List UInt8)) : Nat → UInt8 :=
  values.foldl (fun m v => put m (offset s.members v.1) v.2) stack

/-! Data. -/

structure ApsdeDataRequest where
  destEndpoint : UInt8
  srcEndpoint : UInt8
  profileId : BitVec 16
  clusterId : BitVec 16
  asduLength : UInt8
  txOptions : UInt8
  radius : UInt8
  aPayload : Nat → UInt8

def ApsdeDataRequest.asdu (req : ApsdeDataRequest) : List UInt8 := window req.aPayload 0 req.asduLength.toNat

/-- `ProfileId`, `ClusterId`, `msgType`, `ieee_Addr`, `DestEndpoint`, `SrcEndpoint`, `AsduLength`,
`TxOptions`, `Radius` and `Data`. -/
def unicastDataFrameSnd : Tailed := ⟨[half, half, byte, bytes 8, byte, byte, byte, byte, byte], 120⟩

/-- `ProfileId`, `ClusterId`, `group_addr`, `DestEndpoint`, `SrcEndpoint`, `AsduLength`, `TxOptions`, `Radius`
and `Data`. -/
def groupDataFrameSnd : Tailed := ⟨[half, half, half, byte, byte, byte, byte, byte], 120⟩

/-- `ProfileId`, `ClusterId`, `DestEndpoint`, `SrcEndpoint`, `AsduLength`, `TxOptions`, `Radius` and
`Data`. -/
def bcastDataFrameSnd : Tailed := ⟨[half, half, byte, byte, byte, byte, byte], 120⟩

/-- What the three functions share: the copy of the payload and the length. -/
def sendData (s : Tailed) (desc : UInt8) (buf : Nat → UInt8) (copies : List Copied) (req : ApsdeDataRequest) :
    ZigbRequest :=
  { desc
    buf := copy buf s.tail req.aPayload 0 req.asduLength.toNat
    pktSize := BitVec.ofNat 8 (s.sizeof - 120 + req.asduLength.toNat)
    copies := copies ++ [⟨0, s.room, 0x33, req.asduLength.toNat⟩] }

def rsiZigbSendUnicastData (stack : Nat → UInt8) (msgType : UInt8) (ieeeAddress : Nat → UInt8)
    (req : ApsdeDataRequest) : ZigbRequest :=
  let buf := assign unicastDataFrameSnd stack
    [(2, [msgType]), (3, window ieeeAddress 0 8), (4, [req.destEndpoint]), (5, [req.srcEndpoint]),
      (0, le16Bytes req.profileId.toNat), (1, le16Bytes req.clusterId.toNat), (6, [req.asduLength]),
      (7, [req.txOptions]), (8, [req.radius])]
  sendData unicastDataFrameSnd 0x36 buf [⟨0, 8, 8, 8⟩] req

def rsiZigbSendGroupData (stack : Nat → UInt8) (groupAddress : BitVec 16) (req : ApsdeDataRequest) :
    ZigbRequest :=
  let buf := assign groupDataFrameSnd stack
    [(2, le16Bytes groupAddress.toNat), (3, [req.destEndpoint]), (4, [req.srcEndpoint]),
      (0, le16Bytes req.profileId.toNat), (1, le16Bytes req.clusterId.toNat), (5, [req.asduLength]),
      (6, [req.txOptions]), (7, [req.radius])]
  sendData groupDataFrameSnd 0x37 buf [] req

def rsiZigbSendBroadcastData (stack : Nat → UInt8) (req : ApsdeDataRequest) : ZigbRequest :=
  let buf := assign bcastDataFrameSnd stack
    [(2, [req.destEndpoint]), (3, [req.srcEndpoint]), (0, le16Bytes req.profileId.toNat),
      (1, le16Bytes req.clusterId.toNat), (4, [req.asduLength]), (5, [req.txOptions]),
      (6, [req.radius])]
  sendData bcastDataFrameSnd 0x38 buf [] req

/-! Cluster lists. -/

/-- A list of cluster ids in the memory of the caller. -/
structure ClusterList where
  count : UInt8
  mem : Nat → UInt8

def ClusterList.bytes (l : ClusterList) : List UInt8 := window l.mem 0 (2 * l.count.toNat)

/-- `ProfileId`, `DevId`, `EndPointId`, `DevVersion`, `InClusterCnt`, `OutClusterCnt` and `ClusterInfo`. -/
def setSimpleDescFrameSnd : Tailed := ⟨[half, half, byte, byte, byte, byte], 40⟩

/-- `ShortAddr`, `ProfileId`, `DestAddress`, `InClusterCnt`, `OutClusterCnt`, `APSAckRequired` and
`ClusterInfo`. -/
def sendMatchDescFrameSnd : Tailed := ⟨[half, half, half, byte, byte, byte], 40⟩

/-- What the two functions share: the copies of the lists, whose sizes are 8 bits of `rsi_zigb_mcpy`, and
the place of the second one. -/
def sendClusters (s : Tailed) (desc : UInt8) (buf : Nat → UInt8) (pktSize : BitVec 8)
    (inList outList : ClusterList) : ZigbRequest :=
  let inSize := inList.count.toNat * 2 % 2 ^ 8
  let outSize := outList.count.toNat * 2 % 2 ^ 8
  { desc
    buf := copy (copy buf s.tail inList.mem 0 inSize) (s.tail + inSize) outList.mem 0 outSize
    pktSize
    copies :=
      [⟨0, s.room, 2 * inList.count.toNat, inSize⟩, ⟨inSize, s.room, 2 * outList.count.toNat, outSize⟩] }

structure SimpleDescriptor where
  appProfileId : BitVec 16
  appDeviceId : BitVec 16
  appDeviceVersion : UInt8
  inList : ClusterList
  outList : ClusterList

def rsiZigbSetSimpleDescriptor (stack : Nat → UInt8) (endPointId : UInt8) (d : SimpleDescriptor) :
    ZigbRequest :=
  let buf := assign setSimpleDescFrameSnd stack
    [(2, [endPointId]), (0, le16Bytes d.appProfileId.toNat), (1, le16Bytes d.appDeviceId.toNat),
      (3, [d.appDeviceVersion]), (4, [d.inList.count]), (5, [d.outList.count])]
  let pktSize := BitVec.ofNat 8 setSimpleDescFrameSnd.sizeof
  -- in `size_t`, where the difference in the brackets may wrap
  let unused := BitVec.ofNat 64 40 - BitVec.ofNat 64 ((d.inList.count.toNat + d.outList.count.toNat) * 2)
  sendClusters setSimpleDescFrameSnd 0x4a buf ((pktSize.setWidth 64 - unused).setWidth 8) d.inList d.outList

structure MatchRequest where
  shortAddress : BitVec 16
  profileId : BitVec 16
  inList : ClusterList
  outList : ClusterList
  apsAckRequired : UInt8
  dstAddress : BitVec 16

def rsiZigbSendMatchDescriptorsRequest (stack : Nat → UInt8) (req : MatchRequest) : ZigbRequest :=
  let buf := assign sendMatchDescFrameSnd stack
    [(0, le16Bytes req.shortAddress.toNat), (1, le16Bytes req.profileId.toNat),
      (3, [req.inList.count]), (4, [req.outList.count]), (5, [req.apsAckRequired]),
      (2, le16Bytes req.dstAddress.toNat)]
  let pktSize := BitVec.ofNat 8 sendMatchDescFrameSnd.sizeof
  let used := BitVec.ofNat 64 (2 * (req.inList.count.toNat + req.outList.count.toNat))
  sendClusters sendMatchDescFrameSnd 0x30 buf ((pktSize.setWidth 64 - BitVec.ofNat 64 40 + used).setWidth 8)
    req.inList req.outList

/-- The copies are inside their arrays, and what is passed on ends with the last byte of the variable
part. -/
structure ZigbRequest.Framed (r : ZigbRequest) (s : Tailed) (part : List UInt8) : Prop where
  inside : ∀ c ∈ r.copies, c.Inside
  length : r.pktSize.toNat = s.tail + part.length
  ends : r.payload.drop s.tail = part

/-- A call of one of the five functions. -/
inductive ZigbCall
  | unicast (msgType : UInt8) (ieeeAddress : Nat → UInt8) (req : ApsdeDataRequest)
  | group (groupAddress : BitVec 16) (req : ApsdeDataRequest)
  | broadcast (req : ApsdeDataRequest)
  | simpleDescriptor (endPointId : UInt8) (d : SimpleDescriptor)
  | matchDescriptors (req : MatchRequest)

namespace ZigbCall

def request (stack : Nat → UInt8) : ZigbCall → ZigbRequest
  | unicast msgType ieeeAddress req => rsiZigbSendUnicastData stack msgType ieeeAddress req
  | group groupAddress req => rsiZigbSendGroupData stack groupAddress req
  | broadcast req => rsiZigbSendBroadcastData stack req
  | simpleDescriptor endPointId d => rsiZigbSetSimpleDescriptor stack endPointId d
  | matchDescriptors req => rsiZigbSendMatchDescriptorsRequest stack req

def layout : ZigbCall → Tailed
  | unicast .. => unicastDataFrameSnd
  | group .. => groupDataFrameSnd
  | broadcast .. => bcastDataFrameSnd
  | simpleDescriptor .. => setSimpleDescFrameSnd
  | matchDescriptors .. => sendMatchDescFrameSnd

/-- The bytes that the caller wants to be sent behind the fixed members. -/
def part : ZigbCall → List UInt8
  | unicast _ _ req | group _ req | broadcast req => req.asdu
  | simpleDescriptor _ d => d.inList.bytes ++ d.outList.bytes
  | matchDescriptors req => req.inList.bytes ++ req.outList.bytes

/-- The structure has no padding, and the arrays have room for the part. -/
def Fits : ZigbCall → Prop
  | unicast _ _ req => req.asduLength.toNat ≤ 0x33
  | simpleDescriptor _ d => d.inList.count.toNat + d.outList.count.toNat ≤ 20
  | _ => False

end ZigbCall

section Framing

variable {s : Tailed} {desc : UInt8} {buf : Nat → UInt8} {copies : List Copied}

theorem Copied.inside_iff {start room avail count : Nat} :
    (⟨start, room, avail, count⟩ : Copied).Inside ↔ (0 < count → start + count ≤ room ∧ count ≤ avail) := by
  constructor
  · intro h hpos
    have hlast := h (count - 1) (by show count - 1 < count; omega)
    dsimp only at hlast
    omega
  · intro h i hi
    have hend := h (Nat.zero_lt_of_lt hi)
    dsimp only at hi ⊢
    omega

theorem ZigbRequest.drop_payload {r : ZigbRequest} {t n : Nat} (hlen : r.pktSize.toNat = t + n) :
    r.payload.drop t = window r.buf t n := by
  rw [payload, hlen, window_add, List.drop_left' length_window, Nat.zero_add]

/-- The packet of a framed request ends with the variable part. -/
theorem ZigbRequest.Framed.packet {r : ZigbRequest} {part : List UInt8} {deliver : GenlDelivery} {env : GenlEnv}
    (h : r.Framed s part) (hdeliver : HandsOn deliver) (app : NlApp) (heap skb : Nat → UInt8)
    (hready : env.Ready) :
    zigbCommand deliver app env heap skb managementInterface r.desc r.payload =
      some ⟨env.coexStatus, some (commandPkt managementInterface r.desc (window r.buf 0 s.tail ++ part))⟩ := by
  have hpayload : r.payload = window r.buf 0 s.tail ++ part := by
    have hends := h.ends
    rw [drop_payload h.length] at hends
    rw [payload, h.length, window_add, Nat.zero_add, hends]
  have hsmall : r.payload.length < 2 ^ 8 := by
    rw [payload, length_window]
    exact r.pktSize.isLt
  have hdesc := length_rsiZigbBuildFrameDescriptor managementInterface r.desc r.payload.length
  rw [zigbCommand_eq hdeliver app heap skb _ _ hready (by omega), ← hpayload, List.take_of_length_le,
    append_eq_commandPkt hsmall]
  rw [List.length_append, hdesc]
  omega

theorem framed_sendData {req : ApsdeDataRequest} (hroom : s.room = 120) (halign : align s.members ≤ 2 ^ 8)
    (htail : s.tail ≤ 120) (hcopies : ∀ c ∈ copies, c.Inside) :
    (sendData s desc buf copies req).Framed s req.asdu ↔
      align s.members ∣ s.tail + s.room ∧ req.asduLength.toNat ≤ 0x33 := by
  have hasdu : req.asdu.length = req.asduLength.toNat := length_window
  have hsize : (sendData s desc buf copies req).pktSize.toNat =
      (s.sizeof - s.room + req.asduLength.toNat) % 2 ^ 8 := by
    rw [hroom]
    exact BitVec.toNat_ofNat _ _
  have hexact := s.length_eq_iff halign req.asduLength.toNat
  constructor
  · intro h
    have hlen := h.length
    rw [hasdu, hsize, hexact] at hlen
    have hlast := h.inside ⟨0, s.room, 0x33, req.asduLength.toNat⟩ (List.mem_append_right _ List.mem_cons_self)
    rw [Copied.inside_iff] at hlast
    exact ⟨hlen.1, by omega⟩
  · rintro ⟨hdvd, hle⟩
    have hlen : (sendData s desc buf copies req).pktSize.toNat = s.tail + req.asduLength.toNat := by
      rw [hsize, hexact]
      exact ⟨hdvd, by omega⟩
    refine ⟨?_, by rw [hlen, hasdu], ?_⟩
    · intro c hc
      rcases List.mem_append.mp hc with hc | hc
      · exact hcopies c hc
      · rw [List.mem_singleton.mp hc, Copied.inside_iff, hroom]
        omega
    · rw [ZigbRequest.drop_payload hlen]
      exact window_copy

theorem framed_sendClusters {inList outList : ClusterList} {pktSize : BitVec 8} (hroom : s.room = 40)
    (halign : align s.members ≤ 2 ^ 8) (htail : s.tail ≤ 40)
    (hsize : pktSize.toNat =
      (s.sizeof - s.room + 2 * (inList.count.toNat + outList.count.toNat)) % 2 ^ 8) :
    (sendClusters s desc buf pktSize inList outList).Framed s (inList.bytes ++ outList.bytes) ↔
      align s.members ∣ s.tail + s.room ∧ inList.count.toNat + outList.count.toNat ≤ 20 := by
  have hpart : (inList.bytes ++ outList.bytes).length = 2 * (inList.count.toNat + outList.count.toNat) := by
    rw [List.length_append, ClusterList.bytes, ClusterList.bytes, length_window, length_window, Nat.mul_add]
  have hexact := s.length_eq_iff halign (2 * (inList.count.toNat + outList.count.toNat))
  rw [← hsize] at hexact
  constructor
  · intro h
    have hlen := h.length
    rw [hpart] at hlen
    have hfits := hexact.mp hlen
    -- so the sizes of the copies are not cut
    have hin := h.inside _ List.mem_cons_self
    have hout := h.inside _ (List.mem_cons_of_mem _ List.mem_cons_self)
    rw [Copied.inside_iff] at hin hout
    exact ⟨hfits.1, by omega⟩
  · rintro ⟨hdvd, hle⟩
    have hlen : pktSize.toNat = s.tail + 2 * (inList.count.toNat + outList.count.toNat) :=
      hexact.mpr ⟨hdvd, by omega⟩
    have hin : inList.count.toNat * 2 % 2 ^ 8 = 2 * inList.count.toNat := by omega
    have hout : outList.count.toNat * 2 % 2 ^ 8 = 2 * outList.count.toNat := by omega
    refine ⟨?_, by rw [hpart]; exact hlen, ?_⟩
    · simp only [sendClusters, hin, hout, hroom, List.forall_mem_cons, Copied.inside_iff]
      refine ⟨by omega, by omega, List.forall_mem_nil _⟩
    · rw [ZigbRequest.drop_payload hlen, Nat.mul_add, window_add]
      simp only [sendClusters, hin, hout]
      congr 1
      · rw [ClusterList.bytes, window_eq_iff]
        intro i hi
        rw [copy_of_not_mem (by omega), copy_of_mem hi]
      · exact window_copy

end Framing

/-- A request is framed exactly just if it is a unicast of at most 51 bytes or a simple descriptor of at most
20 clusters. The other three structures have a byte of padding, which the length counts. -/
theorem zigbCall_framed_iff (stack : Nat → UInt8) (call : ZigbCall) :
    (call.request stack).Framed call.layout call.part ↔ call.Fits := by
  cases call with
  | unicast msgType ieeeAddress req =>
    have hieee : ∀ c ∈ [(⟨0, 8, 8, 8⟩ : Copied)], c.Inside := by
      intro c hc
      rw [List.mem_singleton.mp hc, Copied.inside_iff]
      omega
    refine (framed_sendData rfl (by decide) (by decide) hieee).trans ?_
    exact and_iff_right (by decide)
  | group groupAddress req =>
    refine (framed_sendData rfl (by decide) (by decide) (List.forall_mem_nil _)).trans ?_
    exact iff_of_false (fun h => absurd h.1 (by decide)) id
  | broadcast req =>
    refine (framed_sendData rfl (by decide) (by decide) (List.forall_mem_nil _)).trans ?_
    exact iff_of_false (fun h => absurd h.1 (by decide)) id
  | simpleDescriptor endPointId d =>
    have hsize : setSimpleDescFrameSnd.sizeof = 48 := rfl
    have hin := d.inList.count.toNat_lt
    have hout := d.outList.count.toNat_lt
    refine (framed_sendClusters rfl (by decide) (by decide) ?_).trans ?_
    · rw [BitVec.toNat_setWidth, BitVec.toNat_sub, BitVec.toNat_sub, BitVec.toNat_setWidth, BitVec.toNat_ofNat,
        BitVec.toNat_ofNat, BitVec.toNat_ofNat, hsize, show setSimpleDescFrameSnd.room = 40 from rfl]
      omega
    · exact and_iff_right (by decide)
  | matchDescriptors req =>
    have hsize : sendMatchDescFrameSnd.sizeof = 50 := rfl
    have hin := req.inList.count.toNat_lt
    have hout := req.outList.count.toNat_lt
    refine (framed_sendClusters rfl (by decide) (by decide) ?_).trans ?_
    · rw [BitVec.toNat_setWidth, BitVec.toNat_add, BitVec.toNat_sub, BitVec.toNat_setWidth, BitVec.toNat_ofNat,
        BitVec.toNat_ofNat, BitVec.toNat_ofNat, hsize, show sendMatchDescFrameSnd.room = 40 from rfl]
      omega
    · exact iff_of_false (fun h => absurd h.1 (by decide)) id

def oneByteData : ApsdeDataRequest := ⟨1, 1, 0x0104, 0x0006, 1, 0, 0, fun _ => 0xaa⟩

def tooLongData : ApsdeDataRequest := { oneByteData with asduLength := 52 }

/-- A broadcast of one byte is sent with a byte of the stack behind it, and a unicast of 52 bytes reads
beyond the payload of the request. -/
theorem zigbCall_not_framed :
    ((ZigbCall.broadcast oneByteData).request fun _ => 0xee).payload =
      [0x04, 0x01, 0x06, 0x00, 1, 1, 1, 0, 0, 0xaa, 0xee] ∧
    ¬ ((ZigbCall.broadcast oneByteData).request fun _ => 0xee).Framed bcastDataFrameSnd [0xaa] ∧
    ¬ ((ZigbCall.unicast 0 (fun _ => 0) tooLongData).request fun _ => 0).Framed unicastDataFrameSnd
      tooLongData.asdu := by
  refine ⟨by decide, fun h => absurd h.length (by decide), fun h => ?_⟩
  have hlast := h.inside ⟨0, 120, 51, 52⟩ (by decide)
  exact absurd (hlast 51 (by decide)).2 (by decide)

end Onebox
