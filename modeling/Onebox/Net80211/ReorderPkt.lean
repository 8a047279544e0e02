import Mathlib.Data.Multiset.Fold
import Onebox.Net80211.AmpduOrder

/-! The way of a received data packet from `onebox_reorder_pkt` through the reorder queues of its sender, with
all that happens to these queues in the meantime: block ack requests and agreements, aging, nodes that come
and go. Every packet ends in one place. -/

namespace Onebox.Net80211

open ReorderWindow (Window)

def wmeNumTid : Nat := 16

def frameDescSz : Nat := 16

/-- `struct ieee80211vap`, as far as `onebox_reorder_pkt` reads it. -/
structure RxVap where
  vapId : UInt8
  /-- `iv_opmode == IEEE80211_M_HOSTAP` -/
  hostap : Bool
  /-- `iv_bss->ni_macaddr` -/
  bss : List UInt8
deriving DecidableEq, Repr

/-- `struct ieee80211_node`: its flags `IEEE80211_NODE_HT` and `IEEE80211_NODE_AMPDU_TX`, and its queues. -/
structure RxNode where
  macaddr : List UInt8
  ht : Bool := false
  ampduTx : Bool := false
  /-- `ni_htrates.rs_nrates` -/
  nrates : Nat := 0
  rxAmpdu : Fin wmeNumTid → RxAmpdu := fun _ => {}

/-- `struct ieee80211com`: the vaps, and the table of the nodes with the newest one first. -/
structure RxCom where
  vaps : List RxVap
  sta : List RxNode := []

/-- A packet with the descriptor of the firmware in front. It is `long` enough for the descriptor and the
padding, which `onebox_netbuf_adj` removes: of a shorter one `skb_pull` leaves a null pointer, which is read. -/
structure RxPkt where
  buf : Nat
  data : List UInt8
  long : frameDescSz + (data.getD 4 0).toNat ≤ data.length

namespace RxPkt

def padBytes (p : RxPkt) : Nat := (p.data.getD 4 0).toNat

def vapId (p : RxPkt) : UInt8 := (p.data.getD 14 0 &&& 0xf0) >>> 4

def qosPkt (p : RxPkt) : Bool := p.data.getD 7 0 &&& 1 ≠ 0

def tid (p : RxPkt) : UInt8 := p.data.getD 14 0 &&& 0x0f

/-- `(((*(uint16 *)&msg[5]) >> 4) & 0xfff)` -/
def seqno (p : RxPkt) : UInt16 :=
  (((p.data.getD 5 0).toUInt16 ||| (p.data.getD 6 0).toUInt16 <<< 8) >>> 4) &&& 0xfff

/-- After `onebox_netbuf_adj` and `onebox_translate_netbuf_to_mbuf`. -/
def mbuf (p : RxPkt) : Mbuf :=
  let data := p.data.drop (frameDescSz + p.padBytes)
  { buf := p.buf, pktLen := data.length, decap := false, tid := 0, aggrLen := 0, data := data }

end RxPkt

/-- Where a packet ends: it is delivered, or its buffer is freed. -/
inductive PktFate
  | deliver (m : Mbuf)
  | free (buf : Nat)
deriving DecidableEq, Repr

def RxFate.pkt : RxFate → PktFate
  | .up m => .deliver m
  | .free m => .free m.buf

/-- The queue of one stream of a node is worked on. -/
def RxNode.onQueue (ni : RxNode) (tid : Fin wmeNumTid) (r : RxAmpdu × List RxFate) : RxNode × List RxFate :=
  ({ ni with rxAmpdu := Function.update ni.rxAmpdu tid r.1 }, r.2)

/-- The loops over all streams of a node. -/
def RxNode.onQueues (ni : RxNode) (f : Fin wmeNumTid → RxAmpdu → RxAmpdu × List RxFate) :
    RxNode × List RxFate :=
  ({ ni with rxAmpdu := fun tid => (f tid (ni.rxAmpdu tid)).1 },
    (List.finRange wmeNumTid).flatMap fun tid => (f tid (ni.rxAmpdu tid)).2)

/-- A field of four bits is a stream. -/
def tidOf (x : Nat) : Fin wmeNumTid := ⟨x % wmeNumTid, Nat.mod_lt _ (by decide)⟩

/-- `hostap_input` and `sta_input`, for a frame without its 802.11 header. -/
def RxNode.input (ni : RxNode) (ampdu expired : Bool) (m : Mbuf) : Option (RxNode × List RxFate) :=
  if ampdu then
    let tid := tidOf m.rxTid
    ((ni.rxAmpdu tid).input expired m).map (ni.onQueue tid)
  else some (ni, [.up m])

/-- `ht_recv_action_ba_addba_request`; `ampduRx` is the vap's `IEEE80211_FHT_AMPDU_RX`. -/
def RxNode.addbaRequest (ni : RxNode) (ampduRx : Bool) (baparamset baseqctl : UInt16) :
    RxNode × List RxFate :=
  let tid := tidOf ((baparamset &&& 0x003c) >>> 2).toNat
  if ni.ampduTx ∧ ni.nrates ≠ 0 ∧ ampduRx then
    ni.onQueue tid ((ni.rxAmpdu tid).ampduRxStart baparamset baseqctl)
  else (ni, [])

/-- `ht_recv_action_ba_delba`: a request of the initiator stops the stream. -/
def RxNode.delba (ni : RxNode) (baparamset : UInt16) : RxNode × List RxFate :=
  let tid := tidOf ((baparamset &&& 0xf000) >>> 12).toNat
  if baparamset &&& 0x0800 = 0 then (ni, [])
  else ni.onQueue tid (ni.rxAmpdu tid).ampduRxStop

/-- `ieee80211_recv_bar` -/
def RxNode.recvBar (ni : RxNode) (ctl seq : UInt16) : RxNode × List RxFate :=
  let tid := tidOf ((ctl &&& 0xf000) >>> 12).toNat
  ni.onQueue tid ((ni.rxAmpdu tid).recvBar (seq >>> 4).toNat)

/-- `ieee80211_ht_node_age`, with the streams whose frames have been held for too long. -/
def RxNode.htNodeAge (ni : RxNode) (expired : Fin wmeNumTid → Bool) : RxNode × List RxFate :=
  ni.onQueues fun tid rap => rap.htAge (expired tid)

def RxNode.htNodeCleanup (ni : RxNode) : RxNode × List RxFate :=
  let r := ni.onQueues fun _ rap => rap.ampduRxStop
  ({ r.1 with ht := false, ampduTx := false }, r.2)

def RxNode.htNodeInit (ni : RxNode) : RxNode × List RxFate :=
  let r := if ni.ht then ni.htNodeCleanup else (ni, [])
  ({ r.1 with ht := true, ampduTx := true }, r.2)

/-- What `node_cleanup` does to the queues. -/
def RxNode.cleanup (ni : RxNode) : RxNode × List RxFate := if ni.ht then ni.htNodeCleanup else (ni, [])

namespace RxCom

/-- A node of the table is worked on. -/
def onNode (s : RxCom) (i : Nat) (f : RxNode → RxNode × List RxFate) : RxCom × List PktFate :=
  match s.sta[i]? with
  | none => (s, [])
  | some ni => ({ s with sta := s.sta.set i (f ni).1 }, (f ni).2.map RxFate.pkt)

/-- `onebox_reorder_pkt`. With `alloc` false there is no memory for the `mbuf`. -/
def oneboxReorderPkt (s : RxCom) (p : RxPkt) (alloc expired : Bool) : Option (RxCom × List PktFate) :=
  match s.vaps.find? (fun vap => vap.vapId = p.vapId) with
  | none => some (s, [.free p.buf])
  | some vap =>
    if !alloc then some (s, [.free p.buf])
    else
      let addr := if vap.hostap then (p.mbuf.data.drop 6).take 6 else vap.bss
      match s.sta.findIdx? (fun ni => ni.macaddr = addr) with
      | none => some (s, [.deliver p.mbuf])
      | some i =>
        let m := { p.mbuf with decap := true }
        if !p.qosPkt then some (s, [.deliver m])
        else if p.tid > 8 then some (s, [.deliver m])
        else
          let m := { m with tid := p.tid, aggrLen := p.seqno }
          match s.sta[i]? with
          | none => none
          | some ni =>
            let ampdu := ni.ht && (ni.rxAmpdu (tidOf p.tid.toNat)).running
            (ni.input ampdu expired m).map fun r =>
              ({ s with sta := s.sta.set i r.1 }, r.2.map RxFate.pkt)

end RxCom

/-- What happens to the table and its queues. -/
inductive RxEvent
  | packet (p : RxPkt) (alloc expired : Bool)
  | addbaRequest (i : Nat) (ampduRx : Bool) (baparamset baseqctl : UInt16)
  | delba (i : Nat) (baparamset : UInt16)
  | recvBar (i : Nat) (ctl seq : UInt16)
  | age (i : Nat) (expired : Fin wmeNumTid → Bool)
  | htInit (i : Nat)
  | htCleanup (i : Nat)
  | rates (i : Nat) (nrates : Nat)
  /-- `ieee80211_alloc_node` -/
  | alloc (macaddr : List UInt8)
  /-- The last reference is dropped: `node_free` cleans the node up. -/
  | release (i : Nat)

def RxCom.step (s : RxCom) : RxEvent → Option (RxCom × List PktFate)
  | .packet p alloc expired => s.oneboxReorderPkt p alloc expired
  | .addbaRequest i ampduRx baparamset baseqctl =>
    some (s.onNode i fun ni => ni.addbaRequest ampduRx baparamset baseqctl)
  | .delba i baparamset => some (s.onNode i fun ni => ni.delba baparamset)
  | .recvBar i ctl seq => some (s.onNode i fun ni => ni.recvBar ctl seq)
  | .age i expired => some (s.onNode i fun ni => ni.htNodeAge expired)
  | .htInit i => some (s.onNode i RxNode.htNodeInit)
  | .htCleanup i => some (s.onNode i RxNode.htNodeCleanup)
  | .rates i nrates => some (s.onNode i fun ni => ({ ni with nrates := nrates }, []))
  | .alloc macaddr => some ({ s with sta := { macaddr := macaddr } :: s.sta }, [])
  | .release i =>
    let r := s.onNode i RxNode.cleanup
    some ({ r.1 with sta := r.1.sta.eraseIdx i }, r.2)

def RxCom.run : RxCom → List RxEvent → Option (RxCom × List PktFate)
  | s, [] => some (s, [])
  | s, e :: es => (s.step e).bind fun r => (run r.1 es).map fun t => (t.1, r.2 ++ t.2)

/-! ## What one queue keeps -/

def RxFate.mbuf : RxFate → Mbuf
  | .up m => m
  | .free m => m

def RxAmpdu.held (rap : RxAmpdu) : Multiset Mbuf := (frames rap.m 0 rap.wnd : List Mbuf)

/-- A stream has no agreement and no frames, or it is in step with a reorder window. -/
inductive RxAmpdu.Sound (rap : RxAmpdu) : Prop
  | idle (agreed : rap.running = false ∧ rap.xchgPend = false) (slots : ∀ i, rap.m i = none)
  | active {size : Nat} (w : Window Mbuf size) (tracks : Tracks w rap) (next : seqBaRange ≤ w.next)

/-- A queue of `rap` takes `more` frames in; each frame is still held or has met its fate. -/
structure RxAmpdu.Keeps (rap : RxAmpdu) (more : Multiset Mbuf) (r : RxAmpdu × List RxFate) : Prop where
  sound : r.1.Sound
  all : ((r.2.map RxFate.mbuf : List Mbuf) : Multiset Mbuf) + r.1.held = more + rap.held

section Queue

variable {size n : Nat} {w v : Window Mbuf size} {rap : RxAmpdu} {b : Mbuf}

theorem Tracks.held_eq (h : Tracks w rap) : rap.held = (w.contents.map Prod.snd : List Mbuf) := by
  rw [RxAmpdu.held, h.frames_contents]

theorem held_of_slots (h : ∀ i, rap.m i = none) : rap.held = 0 := by
  rw [RxAmpdu.held, frames_eq_nil fun x _ _ => h x]
  rfl

theorem keeps_self (h : rap.Sound) : rap.Keeps 0 (rap, []) := ⟨h, rfl⟩

theorem keeps_up (h : rap.Sound) : rap.Keeps {b} (rap, [.up b]) := ⟨h, rfl⟩

theorem keeps_free (h : rap.Sound) : rap.Keeps {b} (rap, [.free b]) := ⟨h, rfl⟩

theorem mbuf_map_up (xs : List (Nat × Mbuf)) :
    (xs.map fun x => RxFate.up x.2).map RxFate.mbuf = xs.map Prod.snd := by
  rw [List.map_map]
  rfl

/-- The result tracks a window with the frames that are left. -/
theorem Tracks.keeps {r : RxAmpdu × List RxFate} (h : Tracks w rap) (hv : Tracks v r.1)
    (hnext : seqBaRange ≤ v.next) (more : List Mbuf)
    (hperm : (r.2.map RxFate.mbuf ++ v.contents.map Prod.snd).Perm (more ++ w.contents.map Prod.snd)) :
    rap.Keeps more r := by
  refine ⟨.active v hv hnext, ?_⟩
  rw [hv.held_eq, h.held_eq, Multiset.coe_add, Multiset.coe_add]
  exact Multiset.coe_eq_coe.mpr hperm

theorem Follows.keeps {expired : Bool} {r : RxAmpdu × List RxFate × RxAmpdu.Verdict} (h : Tracks w rap)
    (hfollows : Follows w n b expired r) (hnext : seqBaRange ≤ w.next) : rap.Keeps {b} (settle b r) := by
  refine h.keeps hfollows.tracks (hnext.trans (w.next_le_receive n b expired)) [b] ?_
  by_cases hfresh : w.Fresh n expired
  · rw [hfollows.taken hfresh, mbuf_map_up, ← List.map_append]
    exact (Window.receive_contents h.pos hfresh b).map Prod.snd
  · rw [hfollows.refused hfresh, Window.receive_of_not_fresh hfresh]
    exact List.Perm.refl _

theorem Tracks.keeps_advance {r : RxAmpdu × List RxFate} (h : Tracks w rap) (hnext : seqBaRange ≤ w.next)
    (hv : Tracks (w.advance n).1 r.1) (hout : r.2 = (w.advance n).2.map fun x => .up x.2) :
    rap.Keeps 0 r := by
  refine h.keeps hv (hnext.trans (w.next_le_advance n)) [] ?_
  rw [hout, mbuf_map_up, ← List.map_append, Window.advance_contents]
  exact List.Perm.refl _

/-- A drained queue starts where it did. -/
theorem Tracks.keeps_drain (h : Tracks w rap) (hnext : seqBaRange ≤ w.next) (fate : Mbuf → RxFate)
    (hfate : ∀ m, (fate m).mbuf = m) : rap.Keeps 0 (RxAmpdu.drainLoop fate rap.wnd 0 rap) := by
  obtain ⟨hloop, hempty⟩ := h.drain fate
  have htracks : Tracks (Window.empty w.next : Window Mbuf size) (rap.cleared 0 rap.wnd) := by
    have hmoved := hempty w.next
    rw [← h.start] at hmoved
    exact hmoved
  rw [hloop]
  refine h.keeps (v := Window.empty w.next) htracks hnext [] ?_
  have hid : RxFate.mbuf ∘ fate = id := funext hfate
  rw [Window.contents_empty, List.map_nil, List.append_nil, List.map_map, hid, List.map_id]
  exact List.Perm.refl _

theorem drainLoop_of_slots (fate : Mbuf → RxFate) (h : ∀ i, rap.m i = none) (k i : Nat) :
    RxAmpdu.drainLoop fate k i rap = (rap, []) := by
  induction k generalizing i with
  | zero => rfl
  | succ k ih =>
    rw [RxAmpdu.drainLoop, h i]
    exact ih (i + 1)

theorem baseqStart_lt (baseqctl : UInt16) : RxAmpdu.baseqStart baseqctl < seqRange := by
  have hshift : ((baseqctl &&& 0xfff0) >>> 4).toNat = (baseqctl &&& 0xfff0).toNat >>> 4 := by
    simp [UInt16.toNat_shiftRight]
  have hlt := (baseqctl &&& 0xfff0).toNat_lt
  rw [RxAmpdu.baseqStart, hshift, Nat.shiftRight_eq_div_pow, seqRange]
  omega

end Queue

namespace RxAmpdu.Sound

variable {rap : RxAmpdu} {b : Mbuf}

theorem ampduRxPurge (h : rap.Sound) : rap.Keeps 0 rap.ampduRxPurge := by
  cases h with
  | idle agreed slots =>
    rw [RxAmpdu.ampduRxPurge, drainLoop_of_slots .free slots]
    exact keeps_self (.idle agreed slots)
  | active w tracks next => exact tracks.keeps_drain next .free fun _ => rfl

theorem slots_ampduRxPurge (h : rap.Sound) : ∀ i, rap.ampduRxPurge.1.m i = none := by
  cases h with
  | idle agreed slots =>
    rw [RxAmpdu.ampduRxPurge, drainLoop_of_slots .free slots]
    exact slots
  | active w tracks next =>
    intro i
    rw [RxAmpdu.ampduRxPurge, (tracks.drain .free).1]
    exact ((tracks.drain .free).2 0).slot i

theorem ampduRxStart (h : rap.Sound) (baparamset baseqctl : UInt16) :
    rap.Keeps 0 (rap.ampduRxStart baparamset baseqctl) := by
  have hfirst : RxAmpdu.baseqStart baseqctl = (RxAmpdu.baseqStart baseqctl + seqRange) % seqRange := by
    rw [Nat.add_mod_right, Nat.mod_eq_of_lt (baseqStart_lt baseqctl)]
  refine ⟨.active _ (tracks_ampduRxStart hfirst) ?_, ?_⟩
  · show seqBaRange ≤ RxAmpdu.baseqStart baseqctl + seqRange
    simp only [seqBaRange, seqRange]
    omega
  · have hnew : (rap.ampduRxStart baparamset baseqctl).1.held = 0 := held_of_slots fun _ => rfl
    rw [hnew, add_zero, RxAmpdu.ampduRxStart]
    have hpurge := h.ampduRxPurge.all
    rw [held_of_slots h.slots_ampduRxPurge, add_zero] at hpurge
    cases h with
    | idle agreed slots =>
      rw [agreed.1, held_of_slots slots]
      rfl
    | active w tracks next =>
      rw [tracks.agreed.1]
      exact hpurge

theorem ampduRxStop (h : rap.Sound) : rap.Keeps 0 rap.ampduRxStop :=
  ⟨.idle ⟨rfl, rfl⟩ h.slots_ampduRxPurge, h.ampduRxPurge.all⟩

theorem recvBar (h : rap.Sound) {rxseq : Nat} (hlt : rxseq < seqRange) : rap.Keeps 0 (rap.recvBar rxseq) := by
  cases h with
  | idle agreed slots =>
    rw [RxAmpdu.recvBar, agreed.2]
    exact keeps_self (.idle agreed slots)
  | active w tracks next =>
    obtain ⟨n, rfl, hlow, hhigh⟩ := SeqSpace.exists_of_residue hlt (w.next - seqBaRange)
    have hhigh' : n < w.next + seqBaRange := by
      simp only [seqBaRange, seqRange] at hhigh next ⊢
      omega
    obtain ⟨hv, hout⟩ := tracks.recvBar (by omega) hhigh'
    exact tracks.keeps_advance next hv hout

theorem htAge (h : rap.Sound) (expired : Bool) : rap.Keeps 0 (rap.htAge expired) := by
  rw [RxAmpdu.htAge]
  split
  · exact keeps_self h
  · next hpend =>
    split
    · exact keeps_self h
    · split
      · cases h with
        | idle agreed slots => exact absurd agreed.2 (by simpa using hpend)
        | active w tracks next => exact tracks.keeps_drain next .up fun _ => rfl
      · exact keeps_self h

theorem not_xchgPend (h : rap.Sound) (hrun : rap.running = false) : rap.xchgPend = false := by
  cases h with
  | idle agreed slots => exact agreed.2
  | active w tracks next => exact absurd (tracks.agreed.1.symm.trans hrun) (by simp)

/-- A frame of a number of the sequence space comes in. -/
theorem input (h : rap.Sound) (expired : Bool) (hseq : b.rxSeq < seqRange) :
    ∃ r, rap.input expired b = some r ∧ rap.Keeps {b} r := by
  rw [RxAmpdu.input, RxAmpdu.reorder]
  split
  · exact ⟨_, rfl, keeps_up h⟩
  · split
    · exact ⟨_, rfl, keeps_up h⟩
    · next hpend =>
      split
      · exact ⟨_, rfl, keeps_free h⟩
      · cases h with
        | idle agreed slots => exact absurd agreed.2 (by simpa using hpend)
        | active w tracks next =>
          obtain ⟨n, hn, hlow, hhigh⟩ := SeqSpace.exists_of_residue hseq (w.next - seqBaRange)
          have hhigh' : n < w.next + seqBaRange := by
            simp only [seqBaRange, seqRange] at hhigh next ⊢
            omega
          have hfuel : n - w.next < reorderFuel := by
            rw [reorderFuel]
            omega
          have htracks := tracks.nframes (rap.nframes + 1)
          rw [← hn]
          obtain ⟨r, hr, hfollows⟩ := htracks.reorder (b := b) (by omega) hhigh' hfuel
          rw [hr]
          have hkeeps := hfollows.keeps htracks next
          exact ⟨_, rfl, hkeeps.sound, hkeeps.all⟩

end RxAmpdu.Sound

/-! ## What a node keeps -/

namespace RxNode

def held (ni : RxNode) : Multiset Mbuf := ∑ tid, (ni.rxAmpdu tid).held

/-- Only an HT node has agreements, so that `node_cleanup` finds every queue with frames. -/
structure Sound (ni : RxNode) : Prop where
  queues : ∀ tid, (ni.rxAmpdu tid).Sound
  ht : ni.ampduTx = true → ni.ht = true
  legacy : ni.ht = false → ∀ tid, (ni.rxAmpdu tid).running = false

structure Keeps (ni : RxNode) (more : Multiset Mbuf) (r : RxNode × List RxFate) : Prop where
  sound : r.1.Sound
  all : ((r.2.map RxFate.mbuf : List Mbuf) : Multiset Mbuf) + r.1.held = more + ni.held

variable {ni : RxNode}

theorem Sound.keeps_self (h : ni.Sound) : ni.Keeps 0 (ni, []) := ⟨h, rfl⟩

theorem sound_new (macaddr : List UInt8) : ({ macaddr := macaddr } : RxNode).Sound where
  queues _ := .idle ⟨rfl, rfl⟩ fun _ => rfl
  ht h := h
  legacy _ _ := rfl

theorem held_eq_add (ni : RxNode) (tid : Fin wmeNumTid) :
    ni.held = (ni.rxAmpdu tid).held + ∑ t ∈ Finset.univ.erase tid, (ni.rxAmpdu t).held :=
  (Finset.add_sum_erase _ (fun t => (ni.rxAmpdu t).held) (Finset.mem_univ tid)).symm

theorem held_onQueue (ni : RxNode) (tid : Fin wmeNumTid) (r : RxAmpdu × List RxFate) :
    (ni.onQueue tid r).1.held = r.1.held + ∑ t ∈ Finset.univ.erase tid, (ni.rxAmpdu t).held := by
  rw [held_eq_add _ tid]
  congr 1
  · simp [onQueue]
  · refine Finset.sum_congr rfl fun t ht => ?_
    simp [onQueue, Function.update_of_ne (Finset.ne_of_mem_erase ht)]

theorem Sound.onQueue {tid : Fin wmeNumTid} {more : Multiset Mbuf} {r : RxAmpdu × List RxFate} (h : ni.Sound)
    (hr : (ni.rxAmpdu tid).Keeps more r) (hlegacy : ni.ht = false → r.1.running = false) :
    ni.Keeps more (ni.onQueue tid r) := by
  refine ⟨⟨fun t => ?_, h.ht, fun hht t => ?_⟩, ?_⟩
  · by_cases ht : t = tid
    · subst ht
      simpa [RxNode.onQueue] using hr.sound
    · simpa [RxNode.onQueue, ht] using h.queues t
  · by_cases ht : t = tid
    · subst ht
      simpa [RxNode.onQueue] using hlegacy hht
    · simpa [RxNode.onQueue, ht] using h.legacy hht t
  · rw [held_onQueue, held_eq_add ni tid, ← add_assoc, ← add_assoc, ← hr.all]
    rfl

theorem coe_flatMap {ι : Type*} (f : ι → List Mbuf) (xs : List ι) :
    (xs.flatMap f : Multiset Mbuf) = (xs.map fun x => (f x : Multiset Mbuf)).sum := by
  induction xs with
  | nil => rfl
  | cons x xs ih => rw [List.flatMap_cons, ← Multiset.coe_add, ih, List.map_cons, List.sum_cons]

theorem all_onQueues {f : Fin wmeNumTid → RxAmpdu → RxAmpdu × List RxFate}
    (hf : ∀ tid, (ni.rxAmpdu tid).Keeps 0 (f tid (ni.rxAmpdu tid))) :
    (((ni.onQueues f).2.map RxFate.mbuf : List Mbuf) : Multiset Mbuf) + (ni.onQueues f).1.held = ni.held := by
  have hfates : (((ni.onQueues f).2.map RxFate.mbuf : List Mbuf) : Multiset Mbuf) =
      ∑ tid, (((f tid (ni.rxAmpdu tid)).2.map RxFate.mbuf : List Mbuf) : Multiset Mbuf) := by
    rw [onQueues, List.map_flatMap, coe_flatMap, Fin.sum_univ_def]
  rw [hfates, held, held, ← Finset.sum_add_distrib]
  refine Finset.sum_congr rfl fun tid _ => ?_
  have hall := (hf tid).all
  rw [zero_add] at hall
  exact hall

theorem Sound.htNodeAge (h : ni.Sound) (expired : Fin wmeNumTid → Bool) :
    ni.Keeps 0 (ni.htNodeAge expired) := by
  have hqueues (tid : Fin wmeNumTid) := (h.queues tid).htAge (expired tid)
  refine ⟨⟨fun tid => (hqueues tid).sound, h.ht, fun hht tid => ?_⟩, ?_⟩
  · show ((ni.rxAmpdu tid).htAge (expired tid)).1.running = false
    rw [RxAmpdu.htAge, (h.queues tid).not_xchgPend (h.legacy hht tid)]
    exact h.legacy hht tid
  · rw [zero_add]
    exact all_onQueues hqueues

theorem Sound.htNodeCleanup (h : ni.Sound) : ni.Keeps 0 ni.htNodeCleanup := by
  have hqueues (tid : Fin wmeNumTid) := (h.queues tid).ampduRxStop
  refine ⟨⟨fun tid => (hqueues tid).sound, fun hfalse => (by cases hfalse), fun _ _ => rfl⟩, ?_⟩
  rw [zero_add]
  exact all_onQueues hqueues

theorem Sound.cleanup (h : ni.Sound) : ni.Keeps 0 ni.cleanup := by
  rw [RxNode.cleanup]
  split
  · exact h.htNodeCleanup
  · exact h.keeps_self

theorem Sound.held_cleanup (h : ni.Sound) : ni.cleanup.1.held = 0 := by
  refine Finset.sum_eq_zero fun tid _ => ?_
  rw [RxNode.cleanup]
  split
  · exact held_of_slots (h.queues tid).slots_ampduRxPurge
  · next hht =>
    cases h.queues tid with
    | idle agreed slots => exact held_of_slots slots
    | active w tracks next =>
      have hrun := h.legacy (by simpa using hht) tid
      exact absurd (tracks.agreed.1.symm.trans hrun) (by simp)

theorem Sound.htNodeInit (h : ni.Sound) : ni.Keeps 0 ni.htNodeInit :=
  ⟨⟨h.cleanup.sound.queues, fun _ => rfl, fun hfalse => (by cases hfalse)⟩, h.cleanup.all⟩

theorem Sound.addbaRequest (h : ni.Sound) (ampduRx : Bool) (baparamset baseqctl : UInt16) :
    ni.Keeps 0 (ni.addbaRequest ampduRx baparamset baseqctl) := by
  rw [RxNode.addbaRequest]
  split
  · next hok =>
    refine h.onQueue ((h.queues _).ampduRxStart baparamset baseqctl) fun hht => ?_
    exact absurd ((h.ht hok.1).symm.trans hht) (by simp)
  · exact h.keeps_self

theorem Sound.delba (h : ni.Sound) (baparamset : UInt16) : ni.Keeps 0 (ni.delba baparamset) := by
  rw [RxNode.delba]
  split
  · exact h.keeps_self
  · exact h.onQueue (h.queues _).ampduRxStop fun _ => rfl

theorem shiftRight_four_lt (seq : UInt16) : (seq >>> 4).toNat < seqRange := by
  have hshift : (seq >>> 4).toNat = seq.toNat >>> 4 := by simp [UInt16.toNat_shiftRight]
  have hlt := seq.toNat_lt
  rw [hshift, Nat.shiftRight_eq_div_pow, seqRange]
  omega

theorem Sound.recvBar (h : ni.Sound) (ctl seq : UInt16) : ni.Keeps 0 (ni.recvBar ctl seq) := by
  refine h.onQueue ((h.queues _).recvBar (shiftRight_four_lt seq)) fun hht => ?_
  rw [RxAmpdu.recvBar, (h.queues _).not_xchgPend (h.legacy hht _)]
  exact h.legacy hht _

theorem Sound.input {m : Mbuf} (h : ni.Sound) (ampdu expired : Bool)
    (hampdu : ampdu = true → ni.ht = true) (hseq : m.rxSeq < seqRange) :
    ∃ r, ni.input ampdu expired m = some r ∧ ni.Keeps {m} r := by
  rw [RxNode.input]
  split
  · next ht =>
    obtain ⟨r, hr, hkeeps⟩ := (h.queues (tidOf m.rxTid)).input expired hseq
    refine ⟨_, by dsimp only; rw [hr]; rfl, h.onQueue hkeeps fun hht => ?_⟩
    exact absurd ((hampdu ht).symm.trans hht) (by simp)
  · exact ⟨_, rfl, h, rfl⟩

end RxNode

/-! ## What the driver keeps -/

def PktFate.buf : PktFate → Nat
  | .deliver m => m.buf
  | .free buf => buf

namespace RxCom

/-- The buffers that the queues of all nodes hold. -/
def held (s : RxCom) : Multiset Nat := (s.sta.map fun ni => ni.held.map Mbuf.buf).sum

def Sound (s : RxCom) : Prop := ∀ ni ∈ s.sta, ni.Sound

structure Keeps (s : RxCom) (more : Multiset Nat) (r : RxCom × List PktFate) : Prop where
  sound : r.1.Sound
  all : ((r.2.map PktFate.buf : List Nat) : Multiset Nat) + r.1.held = more + s.held

variable {s : RxCom} {i : Nat} {ni ni' : RxNode}

theorem Sound.keeps_one (h : s.Sound) (fate : PktFate) : s.Keeps {fate.buf} (s, [fate]) := ⟨h, rfl⟩

theorem held_eq_add (hi : s.sta[i]? = some ni) :
    s.held = ni.held.map Mbuf.buf + ((s.sta.eraseIdx i).map fun ni => ni.held.map Mbuf.buf).sum := by
  obtain ⟨hlt, rfl⟩ := List.getElem?_eq_some_iff.mp hi
  have hperm := (List.getElem_cons_eraseIdx_perm hlt).map fun ni => ni.held.map Mbuf.buf
  rw [held, ← hperm.sum_eq, List.map_cons, List.sum_cons]

theorem held_set (hi : s.sta[i]? = some ni) :
    ({ s with sta := s.sta.set i ni' } : RxCom).held =
      ni'.held.map Mbuf.buf + ((s.sta.eraseIdx i).map fun ni => ni.held.map Mbuf.buf).sum := by
  obtain ⟨hlt, -⟩ := List.getElem?_eq_some_iff.mp hi
  have hset : ({ s with sta := s.sta.set i ni' } : RxCom).sta[i]? = some ni' := by
    show (s.sta.set i ni')[i]? = some ni'
    rw [List.getElem?_set_self hlt]
  rw [held_eq_add hset]
  congr 3
  exact List.eraseIdx_set_eq ..

theorem buf_pkt (fate : RxFate) : fate.pkt.buf = fate.mbuf.buf := by cases fate <;> rfl

theorem bufs_eq (fates : List RxFate) :
    (((fates.map RxFate.pkt).map PktFate.buf : List Nat) : Multiset Nat) =
      ((fates.map RxFate.mbuf : List Mbuf) : Multiset Mbuf).map Mbuf.buf := by
  rw [Multiset.map_coe, List.map_map, List.map_map]
  exact congrArg _ (List.map_congr_left fun fate _ => buf_pkt fate)

/-- One node is worked on, the others are as before. -/
theorem Sound.set {more : Multiset Mbuf} {r : RxNode × List RxFate} (h : s.Sound) (hi : s.sta[i]? = some ni)
    (hr : ni.Keeps more r) :
    s.Keeps (more.map Mbuf.buf) ({ s with sta := s.sta.set i r.1 }, r.2.map RxFate.pkt) := by
  refine ⟨fun ni' hmem => ?_, ?_⟩
  · rcases List.mem_or_eq_of_mem_set hmem with hmem | rfl
    · exact h ni' hmem
    · exact hr.sound
  · rw [held_set hi, held_eq_add hi, bufs_eq, ← add_assoc, ← add_assoc, ← Multiset.map_add, hr.all,
      Multiset.map_add]

theorem Sound.onNode {f : RxNode → RxNode × List RxFate} (h : s.Sound)
    (hf : ∀ ni : RxNode, ni.Sound → ni.Keeps 0 (f ni)) : s.Keeps 0 (s.onNode i f) := by
  rw [RxCom.onNode]
  split
  · exact ⟨h, rfl⟩
  · next ni hi => exact h.set hi (hf ni (h ni (List.mem_of_getElem? hi)))

/-- A node that is cleaned up has no frames left when its memory is freed. -/
theorem Sound.release (h : s.Sound) :
    s.Keeps 0 ({ (s.onNode i RxNode.cleanup).1 with sta := (s.onNode i RxNode.cleanup).1.sta.eraseIdx i },
      (s.onNode i RxNode.cleanup).2) := by
  have hclean : s.Keeps 0 (s.onNode i RxNode.cleanup) := h.onNode fun ni hni => hni.cleanup
  refine ⟨fun ni hmem => hclean.sound ni (List.mem_of_mem_eraseIdx hmem), ?_⟩
  rw [← hclean.all]
  congr 1
  cases hi : s.sta[i]? with
  | none =>
    have hsame : s.onNode i RxNode.cleanup = (s, []) := by rw [RxCom.onNode, hi]
    rw [hsame, List.eraseIdx_of_length_le (List.getElem?_eq_none_iff.mp hi)]
  | some ni =>
    have hempty : ni.cleanup.1.held = 0 := (h ni (List.mem_of_getElem? hi)).held_cleanup
    have hset : (s.onNode i RxNode.cleanup).1 = { s with sta := s.sta.set i ni.cleanup.1 } := by
      rw [RxCom.onNode, hi]
    rw [hset, held_set hi, hempty, Multiset.map_zero, zero_add, held, List.eraseIdx_set_eq]

theorem seqno_lt (p : RxPkt) : p.seqno.toNat < seqRange := by
  rw [RxPkt.seqno, UInt16.toNat_and]
  exact lt_of_le_of_lt Nat.and_le_right (by decide)

theorem Sound.oneboxReorderPkt (h : s.Sound) (p : RxPkt) (alloc expired : Bool) :
    ∃ r, s.oneboxReorderPkt p alloc expired = some r ∧ s.Keeps {p.buf} r := by
  rw [RxCom.oneboxReorderPkt]
  split
  · exact ⟨_, rfl, h.keeps_one (.free p.buf)⟩
  · split
    · exact ⟨_, rfl, h.keeps_one (.free p.buf)⟩
    · next vap _ _ =>
      dsimp only
      split
      · exact ⟨_, rfl, h.keeps_one (.deliver p.mbuf)⟩
      · next i hfind =>
        split
        · exact ⟨_, rfl, h.keeps_one (.deliver { p.mbuf with decap := true })⟩
        · split
          · exact ⟨_, rfl, h.keeps_one (.deliver { p.mbuf with decap := true })⟩
          · obtain ⟨hlt, -⟩ := List.findIdx?_eq_some_iff_getElem.mp hfind
            have hi : s.sta[i]? = some s.sta[i] := List.getElem?_eq_getElem hlt
            rw [hi]
            obtain ⟨r, hr, hkeeps⟩ := (h _ (List.getElem_mem hlt)).input
              (m := { p.mbuf with decap := true, tid := p.tid, aggrLen := p.seqno })
              (s.sta[i].ht && (s.sta[i].rxAmpdu (tidOf p.tid.toNat)).running) expired
              (fun ht => (Bool.and_eq_true_iff.mp ht).1) (seqno_lt p)
            dsimp only
            rw [hr]
            exact ⟨_, rfl, h.set hi hkeeps⟩

/-- The buffers of the packets that come in. -/
def received : List RxEvent → Multiset Nat
  | [] => 0
  | .packet p _ _ :: es => {p.buf} + received es
  | _ :: es => received es

theorem Sound.step (h : s.Sound) (e : RxEvent) : ∃ r, s.step e = some r ∧ s.Keeps (received [e]) r := by
  cases e with
  | packet p alloc expired => exact h.oneboxReorderPkt p alloc expired
  | addbaRequest i ampduRx baparamset baseqctl =>
    exact ⟨_, rfl, h.onNode fun ni hni => hni.addbaRequest ampduRx baparamset baseqctl⟩
  | delba i baparamset => exact ⟨_, rfl, h.onNode fun ni hni => hni.delba baparamset⟩
  | recvBar i ctl seq => exact ⟨_, rfl, h.onNode fun ni hni => hni.recvBar ctl seq⟩
  | age i expired => exact ⟨_, rfl, h.onNode fun ni hni => hni.htNodeAge expired⟩
  | htInit i => exact ⟨_, rfl, h.onNode fun ni hni => hni.htNodeInit⟩
  | htCleanup i => exact ⟨_, rfl, h.onNode fun ni hni => hni.htNodeCleanup⟩
  | rates i nrates => exact ⟨_, rfl, h.onNode fun ni hni => ⟨⟨hni.queues, hni.ht, hni.legacy⟩, rfl⟩⟩
  | alloc macaddr =>
    refine ⟨_, rfl, List.forall_mem_cons.mpr ⟨RxNode.sound_new macaddr, h⟩, ?_⟩
    have hnew : ({ macaddr := macaddr } : RxNode).held = 0 :=
      Finset.sum_eq_zero fun tid _ => held_of_slots fun _ => rfl
    show 0 + ((_ :: s.sta).map _).sum = 0 + s.held
    rw [List.map_cons, List.sum_cons, hnew]
    exact congrArg (0 + ·) (zero_add _)
  | release i => exact ⟨_, rfl, h.release⟩

theorem received_cons (e : RxEvent) (es : List RxEvent) :
    received (e :: es) = received [e] + received es := by
  cases e with
  | packet p alloc expired => rfl
  | _ => exact (zero_add _).symm

theorem Sound.run (h : s.Sound) (es : List RxEvent) : ∃ r, s.run es = some r ∧ s.Keeps (received es) r := by
  induction es generalizing s with
  | nil => exact ⟨_, rfl, h, rfl⟩
  | cons e es ih =>
    obtain ⟨r, hr, hstep⟩ := h.step e
    obtain ⟨t, ht, hrest⟩ := ih hstep.sound
    refine ⟨(t.1, r.2 ++ t.2), ?_, hrest.sound, ?_⟩
    · rw [RxCom.run, hr, Option.bind_some, ht]
      rfl
    · rw [List.map_append, ← Multiset.coe_add, add_assoc, hrest.all, add_left_comm, hstep.all, ← add_assoc,
        received_cons e es, add_comm (received es)]

end RxCom

/-- Whatever comes in and whatever happens to the streams and nodes in between, each packet has been delivered
or freed or is held by one queue, exactly once; a running queue counts the frames it holds. -/
theorem reorderPkt_conserves (vaps : List RxVap) (es : List RxEvent) :
    ∃ s fates, ({ vaps := vaps } : RxCom).run es = some (s, fates) ∧
      ((fates.map PktFate.buf : List Nat) : Multiset Nat) + s.held = RxCom.received es ∧
      ∀ ni ∈ s.sta, ∀ tid, (ni.rxAmpdu tid).running = true →
        (ni.rxAmpdu tid).qframes = (ni.rxAmpdu tid).held.card := by
  have hstart : ({ vaps := vaps } : RxCom).Sound := fun _ hmem => (by cases hmem)
  obtain ⟨⟨s, fates⟩, hrun, hkeeps⟩ := hstart.run es
  refine ⟨s, fates, hrun, hkeeps.all.trans (add_zero _), fun ni hmem tid hactive => ?_⟩
  cases (hkeeps.sound ni hmem).queues tid with
  | idle agreed slots => exact absurd (agreed.1.symm.trans hactive) (by simp)
  | active w tracks next => exact tracks.counted.qframes

end Onebox.Net80211
