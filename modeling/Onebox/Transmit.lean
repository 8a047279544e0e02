import Onebox.Calls
import Onebox.DataPath

/-! The two ways into the WLAN transmit queues, `core_xmit` and
`onebox_send_mgmt_pkt`, with the builders of the data and the management
descriptor, the bytes they leave in the packet and what happens to the packet. -/

namespace Onebox

/-- A packet on its way down. `staId` is what its control block holds when a management frame comes in, and
`tail` what lies behind the packet in memory. -/
structure TxBuf where
  nb : Netbuf
  headroom : Nat
  staId : Nat
  tail : List (BitVec 8)
  deriving DecidableEq, Repr

/-- What the calls read besides the packet: whether `ni_vap`, the first vap of `ic_vaps` and a new
mbuf are there, the flags and rates of the node, and the queues that the data path does not have.
`rsRates` is the memory from `rs_rates` on, as far as an 8-bit index reaches. -/
structure TxEnv where
  sys : TxSys
  niVap : Bool
  firstVap : Bool
  mbufAlloc : Bool
  nodeAuth : Bool
  nodeTmp : Bool
  uapsd : Bool
  rsNrates : Nat
  rsRates : List (BitVec 8)
  stdRates : List (BitVec 8)
  rpsRates : List (BitVec 16)
  aboveScan : Bool
  scanning : Bool
  probeReqBcast : Bool
  mcastqLen : Nat
  mgmtqLen : Nat
  stopMgmtQ : Bool
  stopUdpMgmtQ : Bool

inductive HostQ
  | data (q : DataQ)
  | mgmt
  deriving DecidableEq, Repr

/-- `ONEBOX_WIFI_MGMT_Q` and `ONEBOX_WIFI_DATA_Q`, the classes in word 0. -/
inductive QueueClass
  | mgmt | data
  deriving DecidableEq, Repr

def QueueClass.toNat : QueueClass → Nat
  | .mgmt => 4
  | .data => 5

inductive TxCall
  | freePkt
  | mcastTail (bytes : List (BitVec 8))
  | hostTail (q : HostQ) (c : QueueClass) (bytes : List (BitVec 8))
  | radiotapTx (bytes : List (BitVec 8))
  | freeNode
  | coreSendStationInfo
  deriving DecidableEq, Repr

/-- `len` of a control block has 16 bits. -/
def cbLen (bytes : List (BitVec 8)) : Nat := bytes.length % 2 ^ 16

def pushData (n : Nat) (p : Nat × List (BitVec 8)) : Nat × List (BitVec 8) :=
  if n ≤ p.1 then (p.1 - n, List.replicate n 0 ++ p.2) else p

def netbufAdj (n : Nat) (bytes : List (BitVec 8)) : List (BitVec 8) := (bytes.take (cbLen bytes)).drop n

def leBytes (w : BitVec 16) : List (BitVec 8) := [w.setWidth 8, (w >>> 8).setWidth 8]

/-- The descriptor and the extended descriptor, with the bytes that align it. -/
def headerBytes (word0 : BitVec 16) (d : Desc) (confirmFrameType : BitVec 8) (extndSize : BitVec 2) :
    List (BitVec 8) :=
  leBytes word0 ++ (d.word.toList.drop 1).flatMap leBytes ++
    ([confirmFrameType, BitVec.ofNat 8 d.retryCnt, 0, 0] ++ List.replicate extndSize.toNat 0)

/-- Writes at the start of a buffer, as far as the buffer goes. -/
def writeFront (header bytes : List (BitVec 8)) : List (BitVec 8) :=
  (header ++ bytes.drop header.length).take bytes.length

namespace TxBuf

variable (b : TxBuf)

/-- The header takes 20 bytes and up to 3 more that align it. A failed `push_data` is not noticed. -/
def grown : List (BitVec 8) :=
  (pushData b.nb.extndSize.toNat (pushData 20 (b.headroom, b.nb.frame))).2

def len : Nat := cbLen b.grown

def room : Bool := 20 + b.nb.extndSize.toNat ≤ b.headroom

/-- The memory from `netbuf_cb->data` on, after the `memset` of the header. -/
def cleared : List (BitVec 8) :=
  List.replicate (16 + 4 + b.nb.extndSize.toNat) 0 ++ (b.grown ++ b.tail).drop (16 + 4 + b.nb.extndSize.toNat)

/-- `netbuf_cb->data[i]` behind the header. -/
def data (i : Nat) : BitVec 8 := b.cleared.getD i 0

/-- Where the caller's frame begins. -/
def frameStart : Nat := b.grown.length - b.nb.frame.length

/-- How many bytes of the header have no room in front of the frame. -/
def missing : Nat := 16 + 4 + b.nb.extndSize.toNat - b.frameStart

/-- The bytes from the beginning of the caller's frame on, before anything is written. -/
def byte (i : Nat) : BitVec 8 := (b.nb.frame ++ b.tail).getD i 0

/-- The packet as `core_xmit` passes it on. -/
def sent (n : Node) : TxBuf := { b with nb := b.nb.toOne, staId := n.staId }

def word0 (c : QueueClass) : BitVec 16 :=
  BitVec.ofInt 16 (b.len - 16) ||| BitVec.ofNat 16 (c.toNat * 2 ^ 12)

end TxBuf

structure MgmtArgs where
  env : TxEnv
  node : Node
  buf : TxBuf

namespace MgmtArgs

variable (a : MgmtArgs)

def vap : Vap := a.env.sys.net.vap a.node.vap

def hostap : Bool := a.vap.opmode = .hostap

def flags : NetbufFlags := a.buf.nb.flags

def extndSize : Nat := a.buf.nb.extndSize.toNat

def eapol : Bool :=
  a.buf.data (a.extndSize + 16 + 12 + 4) = 0x88 && a.buf.data (a.extndSize + 16 + 13 + 4) = 0x8e && a.flags.eapol

def eapol4 : Bool :=
  a.eapol && a.buf.len = 113 + 16 + a.extndSize + 4 && a.vap.connInProg && !a.hostap

/-- The first byte of the frame behind the header. -/
def first : BitVec 8 := a.buf.data (16 + a.extndSize + 4)

def probeReq : Bool := a.first = 0x40 && a.env.probeReqBcast

def probeResp : Bool := a.first = 0x50

def addr1 : MacAddr :=
  let byte i := a.buf.data (20 + a.extndSize + 4 + i)
  byte 0 ++ byte 1 ++ byte 2 ++ byte 3 ++ byte 4 ++ byte 5

def nullData : Bool := a.hostap && (a.first = 0xc8 || a.first = 0x48) && a.addr1 = a.node.mac

def actionFrame : Bool := a.first = 0xd0

def eosp : Bool := a.hostap && a.flags.eosp

def word1 : BitVec 16 :=
  bit (a.eapol4 || a.probeReq || a.nullData) 0x0400 ||| bit a.eapol 0x9000 ||| bit a.probeResp 0x1800 |||
    bit (a.eosp && a.env.uapsd) 0x2000 ||| bit a.eosp 0x4000

def word2 : BitVec 16 := BitVec.ofNat 16 (a.extndSize + 4) ||| 0x1800

/-- Words 0 to 3 as they are when `wh` is read. -/
def firstWords : List (BitVec 16) :=
  [a.buf.word0 .mgmt, 0, BitVec.ofNat 16 (a.extndSize + 4), 0x0001 ||| bit (!a.flags.eapol) 0x0004]

/-- Byte `i` from `wh` on, which points to the beginning of the caller's frame. Without headroom it is in the
header. -/
def wh (i : Nat) : BitVec 8 :=
  (a.firstWords.flatMap leBytes ++ a.buf.cleared.drop 8).getD (a.buf.frameStart + i) 0

def word3 : BitVec 16 :=
  bit (!a.eapol) 0x0001 ||| bit (!a.flags.eapol) 0x0004 ||| bit ((a.wh 4).getLsbD 0 && !a.eapol) 0x0200 |||
    bit a.probeResp 0x8000

def ratesUsed : Bool :=
  a.env.aboveScan && !a.hostap && !a.env.scanning && a.env.sys.radio.band24 && 0 < a.env.rsNrates

def basicRate : Option (BitVec 8) := a.env.rsRates.find? (·.getLsbD 7)

/-- The loop over the rates ends at a basic rate only: its bound is a variable that it never changes. -/
def endless : Bool := a.ratesUsed && a.basicRate.isNone

def defaultRate : BitVec 16 := bit (!a.env.sys.radio.band24 || (a.env.sys.vapTx a.node.vap).p2pEnable) 0x008b

def rate : BitVec 16 :=
  match a.basicRate with
  | some r =>
    if a.ratesUsed then
      (((a.env.stdRates.zip a.env.rpsRates).find? (·.1 = r &&& 0x7f)).map Prod.snd).getD a.defaultRate
    else a.defaultRate
  | none => a.defaultRate

def word4 : BitVec 16 := a.rate ||| (BitVec.ofNat 16 a.node.vap <<< 14)

def word5 : BitVec 16 :=
  if a.env.sys.radio.ht40 then if a.env.sys.radio.ht40u then 0x4004 else 0x2002 else 0

def word6 : BitVec 16 := ((a.wh 23 ++ a.wh 22) >>> 4) ||| bit (a.eapol && a.node.addqos) 0x1000

def word7 : BitVec 16 :=
  (if a.nullData then (BitVec.ofNat 16 a.node.staId &&& 0x00ff) <<< 8
    else bit (a.eapol && a.node.addqos) (0x0070 ||| (BitVec.ofNat 16 a.buf.staId <<< 8))) |||
    bit a.actionFrame (BitVec.ofNat 16 a.node.staId <<< 8)

def retryCnt : Nat := if a.probeResp then 3 else if a.eapol then 15 else 0

def confirmFrameType : BitVec 8 :=
  if a.nullData then 3 else if a.probeReq then 2 else if a.eapol4 then 1 else 0

def desc : Desc :=
  ⟨#v[a.buf.word0 .mgmt, a.word1, a.word2, a.word3, a.word4, a.word5, a.word6, a.word7], a.retryCnt⟩

def packet : List (BitVec 8) :=
  writeFront (headerBytes (a.buf.word0 .mgmt) a.desc a.confirmFrameType a.buf.nb.extndSize) a.buf.grown

/-- A frame of a connection that is already up renews its keys. -/
def rekeying : Bool :=
  a.buf.byte 12 = 0x88 && a.buf.byte 13 = 0x8e && a.flags.eapol &&
    (if a.hostap then a.env.nodeAuth else a.vap.run && !a.vap.connInProg)

end MgmtArgs

namespace TxEnv

variable (e : TxEnv)

def descArgs (n : Node) (b : TxBuf) (tid : Nat) (q : DataQ) : DescArgs :=
  { e.sys.descArgs n b.nb q with data := b.cleared, staId := b.staId, tid }

def dataPacket (n : Node) (b : TxBuf) (tid : Nat) (q : DataQ) : List (BitVec 8) :=
  writeFront (headerBytes (b.word0 .data) (e.descArgs n b tid q).prepare 0 b.nb.extndSize) b.grown

def coreRadiotapTx (bytes : List (BitVec 8)) : Calls TxCall Unit :=
  if !e.mbufAlloc then .emit .freePkt
  else if e.firstVap then .emit (.radiotapTx bytes)
  else .stuck

/-- The header is taken off for a monitor vap, and the queue gets the packet without it too. -/
def toMonitor (bytes : List (BitVec 8)) : Calls TxCall (List (BitVec 8)) :=
  if e.sys.scNmonvaps ≠ 0 then
    let stripped := netbufAdj (16 + (bytes.getD 4 0).toNat) bytes
    do
      e.coreRadiotapTx stripped
      pure stripped
  else pure bytes

def freeTmpNode : Calls TxCall Unit := if e.nodeTmp then .emit .freeNode else pure ()

def freeAndFail : Calls TxCall (Option (QueueClass × List (BitVec 8))) := do
  .emit .freePkt
  pure none

def prepareOnairDataPktDesc (ni : Option Node) (b : TxBuf) (tid : Nat) (q : DataQ) :
    Calls TxCall (Option (QueueClass × List (BitVec 8))) :=
  match ni with
  | none => freeAndFail
  | some n =>
    if !e.niVap then freeAndFail
    -- a packet that is too big is only reported
    else if cbLen (e.dataPacket n b tid q) ≤ 1594 then do
      let bytes ← e.toMonitor (e.dataPacket n b tid q)
      pure (some (.data, bytes))
    else pure (some (.data, e.dataPacket n b tid q))

def prepareOnairMgmtPktDesc (ni : Option Node) (b : TxBuf) :
    Calls TxCall (Option (QueueClass × List (BitVec 8))) :=
  match ni with
  | none => freeAndFail
  | some n =>
    let a : MgmtArgs := ⟨e, n, b⟩
    if !e.niVap then freeAndFail
    else if a.rekeying then e.prepareOnairDataPktDesc ni b 7 (WmeAc.vo.queue a.vap.opmode)
    else if !b.nb.flags.eapol && 512 < b.len then freeAndFail
    else if a.endless then .stuck
    else do
      let bytes ← e.toMonitor a.packet
      e.freeTmpNode
      pure (some (.mgmt, bytes))

/-- Queues what a builder has made of the packet. After a failure of the builder the packet is freed. -/
def finish (q : HostQ) (built : Calls TxCall (Option (QueueClass × List (BitVec 8)))) : Calls TxCall Unit := do
  match ← built with
  | some (c, bytes) => .emit (.hostTail q c bytes)
  | none => .emit .freePkt

/-- Where `core_xmit` sends a packet before a descriptor is built. -/
inductive Route
  | drop
  | fault
  | mcast
  | data (n : Node) (q : DataQ)
  | mgmt (n : Node)
  deriving DecidableEq, Repr

def connecting (n : Node) : Bool := (e.sys.net.vap n.vap).connInProg && (e.sys.vapTx n.vap).wpaIe

def dataRoute (n : Node) (nb : Netbuf) (q : DataQ) : Route :=
  let len := (e.sys.queue q).length + 1
  if (e.sys.stopPerQ n.vap q || maxLen q ≤ len) && !e.connecting n then .drop
  else if (e.sys.stopUdpPkts n.vap q || waterMark q ≤ len) && nb.isUdp then .drop
  else .data n q

def mgmtRoute (n : Node) (nb : Netbuf) : Route :=
  if e.stopMgmtQ && !e.connecting n then .drop
  else if e.stopUdpMgmtQ && nb.isUdp then .drop
  else .mgmt n

def route (b : TxBuf) : Route :=
  if cbLen b.nb.frame = 0 then .drop
  else if !e.sys.fsmOpen then .drop
  else match e.sys.net.stations.node b.nb.ni with
    | none => .drop
    | some n =>
      let opmode := (e.sys.net.vap n.vap).opmode
      -- `iv_opmode` is read without a check of `ni_vap`
      if !e.niVap then .fault
      else if b.nb.toAll && opmode = .hostap then if 200 < e.mcastqLen then .drop else .mcast
      else if e.sys.noKey n b.nb then .drop
      else if b.nb.toMgmt opmode then e.mgmtRoute n b.nb
      else e.dataRoute n b.nb (e.sys.pktPriority opmode b.nb)

def coreXmit (b : TxBuf) : Calls TxCall Unit :=
  match e.route b with
  | .drop => .emit .freePkt
  | .fault => .stuck
  | .mcast => .emit (.mcastTail b.nb.frame)
  | .data n q => finish (.data q) (e.prepareOnairDataPktDesc (some n) (b.sent n) b.nb.tid q)
  | .mgmt n => finish .mgmt (e.prepareOnairMgmtPktDesc (some n) (b.sent n))

/-- An association request of a station announces the peer to the device first. -/
def notifyPeer (n : Node) (nb : Netbuf) : Calls TxCall Unit :=
  if (nb.data 0 = 0x00 || nb.data 0 = 0x20) && (e.sys.net.vap n.vap).opmode = .sta then
    .emit .coreSendStationInfo
  else pure ()

def oneboxSendMgmtPkt (b : TxBuf) : Calls TxCall Unit :=
  match e.sys.net.stations.node b.nb.ni with
  | none => .stuck
  | some n =>
    if !e.niVap then .stuck
    else if cbLen b.nb.frame = 0 || !e.sys.fsmOpen || 200 < e.mgmtqLen then .emit .freePkt
    else do
      e.notifyPeer n b.nb
      finish .mgmt (e.prepareOnairMgmtPktDesc (some n) b)

/-- The data queues after a packet has taken a route. -/
def appendTo (nb : Netbuf) : Route → DataQ → List Pkt
  | .data n q => Function.update e.sys.queue q (e.sys.queue q ++ [e.sys.packet n nb.toOne q])
  | _ => e.sys.queue

end TxEnv

section Refinement

variable {e : TxEnv} {b : TxBuf}

theorem length_writeFront (header bytes : List (BitVec 8)) :
    (writeFront header bytes).length = bytes.length := by
  simp only [writeFront, List.length_take, List.length_append, List.length_drop]
  omega

theorem TxBuf.length_grown (h : b.room = true) :
    b.grown.length = b.nb.frame.length + 20 + b.nb.extndSize.toNat := by
  simp only [TxBuf.room, decide_eq_true_eq] at h
  have h20 : 20 ≤ b.headroom := by omega
  have hext : b.nb.extndSize.toNat ≤ b.headroom - 20 := by omega
  simp only [TxBuf.grown, pushData, h20, hext, if_true, List.length_append, List.length_replicate]
  omega

/-- Whichever of the two calls of `push_data` succeed, zeros are put in front of the frame. -/
theorem TxBuf.exists_grown (b : TxBuf) :
    ∃ k ≤ 16 + 4 + b.nb.extndSize.toNat, b.grown = List.replicate k 0 ++ b.nb.frame := by
  simp only [TxBuf.grown, pushData]
  split_ifs
  · refine ⟨b.nb.extndSize.toNat + 20, by omega, ?_⟩
    rw [← List.append_assoc, List.replicate_append_replicate]
  · exact ⟨20, by omega, rfl⟩
  · exact ⟨b.nb.extndSize.toNat, by omega, rfl⟩
  · exact ⟨0, by omega, rfl⟩

theorem TxBuf.missing_of_room (h : b.room = true) : b.missing = 0 := by
  rw [TxBuf.missing, TxBuf.frameStart, TxBuf.length_grown h]
  omega

/-- Where a byte behind the header is in the caller's frame, for every alignment and every headroom. -/
theorem TxBuf.data_header (b : TxBuf) (i : Nat) :
    b.data (16 + 4 + b.nb.extndSize.toNat + i) = b.byte (b.missing + i) := by
  obtain ⟨k, hk, hgrown⟩ := b.exists_grown
  have hmissing : b.missing = 16 + 4 + b.nb.extndSize.toNat - k := by
    rw [TxBuf.missing, TxBuf.frameStart, hgrown, List.length_append, List.length_replicate]
    omega
  have hbehind : b.data (16 + 4 + b.nb.extndSize.toNat + i) =
      (b.grown ++ b.tail).getD (16 + 4 + b.nb.extndSize.toNat + i) 0 := by
    rw [TxBuf.data, TxBuf.cleared, List.getD_append_right _ _ _ _ (by simp), List.length_replicate,
      Nat.add_sub_cancel_left]
    simp [List.getD_eq_getElem?_getD]
  rw [hbehind, hgrown, List.append_assoc, List.getD_append_right _ _ _ _ (by simp; omega), List.length_replicate,
    TxBuf.byte, hmissing]
  congr 1
  omega

theorem TxEnv.word0_descArgs (n : Node) (tid : Nat) (q : DataQ) (h : b.room = true)
    (hlen : b.grown.length < 2 ^ 16) : (e.descArgs n b tid q).word0 = b.word0 .data := by
  have hl : b.len = b.nb.frame.length + 20 + b.nb.extndSize.toNat := by
    rw [TxBuf.len, cbLen, Nat.mod_eq_of_lt hlen, TxBuf.length_grown h]
  have hsub : (b.len : Int) - 16 = ((b.nb.frame.length + 4 + b.nb.extndSize.toNat : Nat) : Int) := by omega
  simp only [TxBuf.word0, hsub, BitVec.ofInt_natCast, descArgs, TxSys.descArgs, DescArgs.word0]
  rfl

theorem TxEnv.queue_enqueue (n : Node) (nb : Netbuf) (q : DataQ) :
    (e.sys.enqueue n nb.toOne q).queue = e.appendTo nb (e.dataRoute n nb q) := by
  have hudp : nb.toOne.isUdp = nb.isUdp := rfl
  have hconn : ((e.sys.net.vap n.vap).connInProg && (e.sys.vapTx n.vap).wpaIe) = e.connecting n := rfl
  simp only [TxSys.enqueue, dataRoute, hudp, hconn]
  split_ifs <;> rfl

theorem TxEnv.appendTo_mgmtRoute (n : Node) (nb nb' : Netbuf) :
    e.appendTo nb' (e.mgmtRoute n nb) = e.sys.queue := by
  unfold mgmtRoute
  split_ifs <;> rfl

/-- The data path appends a packet exactly where it is sent to a data queue here. -/
theorem TxEnv.queue_coreXmit (hv : e.niVap = true) (hlen : b.nb.frame.length < 2 ^ 16) :
    (e.sys.coreXmit b.nb).queue = e.appendTo b.nb (e.route b) := by
  have hempty : cbLen b.nb.frame = 0 ↔ b.nb.frame.isEmpty = true := by
    rw [cbLen, Nat.mod_eq_of_lt hlen, List.isEmpty_iff, List.length_eq_zero_iff]
  cases hn : e.sys.net.stations.node b.nb.ni with
  | none =>
    simp only [TxSys.coreXmit, route, hn]
    split_ifs <;> rfl
  | some n =>
    by_cases hz : b.nb.frame.isEmpty = true
    · simp [TxSys.coreXmit, route, hn, TxSys.skips, hempty.mpr hz, hz, appendTo]
    have hlen0 : cbLen b.nb.frame ≠ 0 := fun h => hz (hempty.mp h)
    simp only [TxSys.coreXmit, route, hn, hv, TxSys.skips, if_neg hlen0, Bool.eq_false_of_not_eq_true hz]
    cases e.sys.fsmOpen
    · rfl
    cases b.nb.toAll && decide ((e.sys.net.vap n.vap).opmode = Opmode.hostap)
    · cases e.sys.noKey n b.nb
      · cases b.nb.toMgmt (e.sys.net.vap n.vap).opmode
        · exact queue_enqueue ..
        · exact (appendTo_mgmtRoute ..).symm
      · rfl
    · by_cases hfull : 200 < e.mcastqLen <;> simp [hfull, appendTo]

end Refinement

end Onebox
