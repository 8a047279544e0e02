import Onebox.SeqSpace

/-! The A-MPDU reorder queues of `ieee80211_ht.c`, and the way of a data packet from the driver's
`onebox_reorder_pkt` through them. A queue is an array of frames behind the start of the block ack window. -/

namespace Onebox.Net80211

/-- A received frame: its buffer, and what the reorder code reads of it. -/
structure Mbuf where
  buf : Nat
  pktLen : Nat
  /-- `M_DECAP`: the firmware has removed the 802.11 header; `tid` and `aggr_len` are taken instead. -/
  decap : Bool
  tid : UInt8
  aggrLen : UInt16
  data : List UInt8
deriving DecidableEq, Repr

/-- Where a frame goes: it is processed further up, or freed. -/
inductive RxFate
  | up (m : Mbuf)
  | free (m : Mbuf)
deriving DecidableEq, Repr

/-! ## Sequence numbers -/

def seqRange : Nat := 4096

def seqBaRange : Nat := 2048

def seqAdd (seq incr : Nat) : Nat := SeqSpace.add seqRange seq incr

def seqInc (seq : Nat) : Nat := seqAdd seq 1

def seqSub (a b : Nat) : Nat := SeqSpace.sub seqRange a b

def seqBaBefore (a b : Nat) : Bool := seqSub b (a + 1) < seqBaRange - 1

/-! ## The reorder queue -/

def aggrBawmax : Nat := 16

/-- `struct ieee80211_rx_ampdu`. -/
structure RxAmpdu where
  /-- `IEEE80211_AGGR_RUNNING` -/
  running : Bool := false
  /-- `IEEE80211_AGGR_XCHGPEND` -/
  xchgPend : Bool := false
  qbytes : Int := 0
  qframes : Int := 0
  start : Nat := 0
  wnd : Nat := 0
  nframes : Int := 0
  m : Nat → Option Mbuf := fun _ => none

namespace RxAmpdu

/-- A frame is taken out of its slot. -/
def release (rap : RxAmpdu) (i : Nat) (b : Mbuf) : RxAmpdu :=
  { rap with m := Function.update rap.m i none, qbytes := rap.qbytes - b.pktLen, qframes := rap.qframes - 1 }

/-- The loop of `ampdu_rx_purge` and `ampdu_rx_flush`, `k` slots before its end. It stops when no frame is
left. -/
def drainLoop (fate : Mbuf → RxFate) : Nat → Nat → RxAmpdu → RxAmpdu × List RxFate
  | 0, _, rap => (rap, [])
  | k + 1, i, rap =>
    match rap.m i with
    | none => drainLoop fate k (i + 1) rap
    | some b =>
      let rap := rap.release i b
      if rap.qframes = 0 then (rap, [fate b])
      else
        let r := drainLoop fate k (i + 1) rap
        (r.1, fate b :: r.2)

def ampduRxPurge (rap : RxAmpdu) : RxAmpdu × List RxFate := drainLoop .free rap.wnd 0 rap

def ampduRxFlush (rap : RxAmpdu) : RxAmpdu × List RxFate := drainLoop .up rap.wnd 0 rap

/-- `MS(baparamset, IEEE80211_BAPS_BUFSIZ)` -/
def bapsBufsiz (baparamset : UInt16) : Nat := ((baparamset &&& 0xffc0) >>> 6).toNat

/-- `MS(baseqctl, IEEE80211_BASEQ_START)` -/
def baseqStart (baseqctl : UInt16) : Nat := ((baseqctl &&& 0xfff0) >>> 4).toNat

def ampduRxStart (rap : RxAmpdu) (baparamset baseqctl : UInt16) : RxAmpdu × List RxFate :=
  let purged := if rap.running then rap.ampduRxPurge.2 else []
  let bufsiz := bapsBufsiz baparamset
  ({ wnd := if bufsiz = 0 then aggrBawmax else min bufsiz aggrBawmax
     start := baseqStart baseqctl
     running := true
     xchgPend := true }, purged)

def ampduRxStop (rap : RxAmpdu) : RxAmpdu × List RxFate :=
  let r := rap.ampduRxPurge
  ({ r.1 with running := false, xchgPend := false }, r.2)

/-- The first loop of `ampdu_rx_dispatch`; the index at which it ends comes with the result. -/
def dispatchLoop : Nat → Nat → RxAmpdu → Nat × RxAmpdu × List RxFate
  | 0, i, rap => (i, rap, [])
  | k + 1, i, rap =>
    match rap.m i with
    | none => (i, rap, [])
    | some b =>
      let r := dispatchLoop k (i + 1) (rap.release i b)
      (r.1, r.2.1, .up b :: r.2.2)

/-- The loop that copies the frames from slot `j` on down by `i` slots, until `n` of them are copied. -/
def copyDown (i : Nat) : Nat → Nat → Int → (Nat → Option Mbuf) → Nat → Option Mbuf
  | 0, _, _, m => m
  | k + 1, j, n, m =>
    match m j with
    | none => copyDown i k (j + 1) n m
    | some b =>
      let m := Function.update (Function.update m (j - i) (some b)) j none
      if n - 1 = 0 then m else copyDown i k (j + 1) (n - 1) m

/-- What both ways of moving the window end with: frames that remain keep their sequence numbers. -/
def shift (rap : RxAmpdu) (i : Nat) : RxAmpdu :=
  if rap.qframes ≠ 0 then { rap with m := copyDown i (rap.wnd - (i + 1)) (i + 1) rap.qframes rap.m } else rap

def ampduRxDispatch (rap : RxAmpdu) : RxAmpdu × List RxFate :=
  let r := dispatchLoop (rap.wnd - 1) 1 rap
  let rap := r.2.1.shift r.1
  ({ rap with start := seqAdd rap.start r.1 }, r.2.2)

/-- The first loop of `ampdu_rx_flush_upto`, with the index and the sequence number at which it ends. -/
def flushUptoLoop (winstart : Nat) : Nat → Nat → Nat → RxAmpdu → Nat × Nat × RxAmpdu × List RxFate
  | 0, i, seqno, rap => (i, seqno, rap, [])
  | k + 1, i, seqno, rap =>
    match rap.m i with
    | some b =>
      let r := flushUptoLoop winstart k (i + 1) (seqInc seqno) (rap.release i b)
      (r.1, r.2.1, r.2.2.1, .up b :: r.2.2.2)
    | none =>
      if seqBaBefore seqno winstart then flushUptoLoop winstart k (i + 1) (seqInc seqno) rap
      else (i, seqno, rap, [])

def ampduRxFlushUpto (rap : RxAmpdu) (winstart : Nat) : RxAmpdu × List RxFate :=
  let r := flushUptoLoop winstart rap.wnd 0 rap.start rap
  let rap := r.2.2.1.shift r.1
  ({ rap with start := r.2.1 }, r.2.2.2)

/-! ## Receiving a frame -/

/-- What `ieee80211_ampdu_reorder` has done with the frame. -/
inductive Verdict
  | process
  | consumed
deriving DecidableEq, Repr

/-- From the label `again` on. With `expired` the oldest held frame has been there for longer than
`ieee80211_ampdu_age` (the build with `IEEE80211_AMPDU_AGE`). `none`: the loop has not ended yet. -/
def reorderFrom (expired : Bool) (b : Mbuf) (rxseq : Nat) :
    Nat → RxAmpdu → Option (RxAmpdu × List RxFate × Verdict)
  | 0, _ => none
  | fuel + 1, rap =>
    if rxseq = rap.start then
      if rap.qframes ≠ 0 then
        let r := rap.ampduRxDispatch
        some (r.1, .up b :: r.2, .consumed)
      else some ({ rap with start := seqInc rxseq }, [], .process)
    else
      let off := seqSub rxseq rap.start
      if off < rap.wnd then
        if rap.qframes ≠ 0 ∧ expired then
          let r := rap.ampduRxFlush
          some ({ r.1 with start := seqInc rxseq }, r.2, .process)
        else
          match rap.m off with
          | none =>
            some ({ rap with
              m := Function.update rap.m off (some b)
              qframes := rap.qframes + 1
              qbytes := rap.qbytes + b.pktLen }, [], .consumed)
          | some _ => some (rap, [.free b], .consumed)
      else if off < seqBaRange then
        let r := rap.ampduRxFlushUpto (seqSub rxseq (rap.wnd - 1))
        (reorderFrom expired b rxseq fuel r.1).map fun s => (s.1, r.2 ++ s.2.1, s.2.2)
      else some (rap, [.free b], .consumed)

end RxAmpdu

/-- The frame control, sequence control and QoS fields of a frame with its 802.11 header. -/
def Mbuf.fc (m : Mbuf) (i : Nat) : UInt8 := m.data.getD i 0

def Mbuf.isQosData (m : Mbuf) : Bool := m.fc 0 = 0x88

def Mbuf.isDstods (m : Mbuf) : Bool := m.fc 1 &&& 0x03 = 0x03

def Mbuf.qos0 (m : Mbuf) : UInt8 := m.data.getD (if m.isDstods then 30 else 24) 0

def Mbuf.seqCtl (m : Mbuf) : Nat := (m.data.getD 22 0).toNat + 256 * (m.data.getD 23 0).toNat

def Mbuf.rxTid (m : Mbuf) : Nat := ((if m.decap then m.tid else m.qos0) &&& 0x0f).toNat

def Mbuf.rxSeq (m : Mbuf) : Nat := if m.decap then m.aggrLen.toNat else m.seqCtl >>> 4

/-- The `again` loop moves the window by at least one number in each round. -/
def reorderFuel : Nat := seqBaRange + 1

/-- `ieee80211_ampdu_reorder` for the queue of the frame's TID. -/
def RxAmpdu.reorder (rap : RxAmpdu) (expired : Bool) (m : Mbuf) :
    Option (RxAmpdu × List RxFate × RxAmpdu.Verdict) :=
  if !m.decap && !m.isQosData then some (rap, [], .process)
  else if !rap.xchgPend then some (rap, [], .process)
  else if !m.decap && m.seqCtl % 16 ≠ 0 then some (rap, [.free m], .consumed)
  else reorderFrom expired m m.rxSeq reorderFuel { rap with nframes := rap.nframes + 1 }

/-- What `hostap_input` and `sta_input` do next: a frame that is not consumed goes up at once. -/
def settle (m : Mbuf) (r : RxAmpdu × List RxFate × RxAmpdu.Verdict) : RxAmpdu × List RxFate :=
  match r.2.2 with
  | .process => (r.1, r.2.1 ++ [.up m])
  | .consumed => (r.1, r.2.1)

/-- A frame that is marked `M_AMPDU` comes in. -/
def RxAmpdu.input (rap : RxAmpdu) (expired : Bool) (m : Mbuf) : Option (RxAmpdu × List RxFate) :=
  (rap.reorder expired m).map (settle m)

/-- The rest of `ieee80211_recv_bar`, after the stream has been looked up. -/
def RxAmpdu.recvBar (rap : RxAmpdu) (rxseq : Nat) : RxAmpdu × List RxFate :=
  if !rap.xchgPend then (rap, [])
  else if rxseq = rap.start then (rap, [])
  else
    let off := seqSub rxseq rap.start
    if off < seqBaRange then
      let r := rap.ampduRxFlushUpto rxseq
      (if off ≥ rap.wnd then { r.1 with start := rxseq } else r.1, r.2)
    else (rap, [])

/-- One round of the loop of `ieee80211_ht_node_age`. -/
def RxAmpdu.htAge (rap : RxAmpdu) (expired : Bool) : RxAmpdu × List RxFate :=
  if !rap.xchgPend then (rap, [])
  else if rap.qframes = 0 then (rap, [])
  else if expired then rap.ampduRxFlush
  else (rap, [])

end Onebox.Net80211
