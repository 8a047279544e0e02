import Onebox.Descriptor

/-! The data path: `core_xmit` puts a frame with its descriptor into one of the
eight data queues, and `core_qos_processor` takes it out again, checks the
station id in the descriptor and passes it to the device. -/

namespace Onebox

inductive WmeAc
  | be | bk | vi | vo
  deriving DecidableEq, Repr

def tidToWmeAc (tid : Nat) : WmeAc :=
  if tid = 0 ∨ tid = 3 then .be else if tid < 3 then .bk else if tid < 6 then .vi else .vo

/-- The data queues: `BK_Q_STA` to `VO_Q_STA`, then the same for an access point. -/
abbrev DataQ := Fin 8

def WmeAc.queue : WmeAc → Opmode → DataQ
  | .bk, .sta => 0
  | .be, .sta => 1
  | .vi, .sta => 2
  | .vo, .sta => 3
  | .bk, .hostap => 4
  | .be, .hostap => 5
  | .vi, .hostap => 6
  | .vo, .hostap => 7

def maxLen (q : DataQ) : Nat := [1000, 3500, 4800, 5500].getD (q.val % 4) 0

def waterMark (q : DataQ) : Nat := [600, 3200, 3900, 4500].getD (q.val % 4) 0

/-- A queued packet. `desc` is gone when a monitor vap has had the packet, and `dst` records the
address of its node. -/
structure Pkt where
  nb : Netbuf
  vap : VapId
  desc : Option Desc
  dst : MacAddr
  deriving DecidableEq, Repr

def Pkt.data (pk : Pkt) (i : Nat) : BitVec 8 :=
  match pk.desc with
  | some d => d.byte i
  | none => pk.nb.data i

structure TxSys where
  net : Net
  vapTx : VapId → VapTx
  radio : Radio
  scNmonvaps : Nat
  fsmOpen : Bool
  stopPerQ : VapId → DataQ → Bool
  stopUdpPkts : VapId → DataQ → Bool
  queue : DataQ → List Pkt

def Netbuf.toMgmt (nb : Netbuf) (opmode : Opmode) : Bool :=
  -- an access point sends only marked EAPOL frames through the management queue
  nb.etherType = etherTypePae && (opmode = .sta || nb.flags.eapol)

def Netbuf.toAll (nb : Netbuf) : Bool := nb.flags.broadcast || nb.flags.multicast

def Netbuf.toOne (nb : Netbuf) : Netbuf :=
  { nb with flags := { nb.flags with broadcast := false, multicast := false } }

def Netbuf.tid (nb : Netbuf) : Nat := (nb.data 15 >>> 5).toNat

/-- An IP packet with UDP in it, as far as one byte of the EtherType tells. -/
def Netbuf.isUdp (nb : Netbuf) : Bool := nb.data 12 = 0x08 && nb.data 23 = 17

namespace TxSys

variable (s : TxSys)

/-- A monitor vap gets the packet without its descriptor, and so does the queue. -/
def strips (nb : Netbuf) : Bool := s.scNmonvaps ≠ 0 && nb.frame.length + 20 + nb.extndSize.toNat ≤ 1594

def descArgs (n : Node) (nb : Netbuf) (q : DataQ) : DescArgs :=
  { radio := s.radio, vapTx := s.vapTx n.vap, vap := s.net.vap n.vap, vapId := n.vap, node := n, nb,
    data := nb.headed, staId := n.staId, tid := nb.tid, q := q }

def packet (n : Node) (nb : Netbuf) (q : DataQ) : Pkt :=
  { nb, vap := n.vap, desc := if s.strips nb then none else some (s.descArgs n nb q).prepare, dst := n.mac }

def setStop (f : VapId → DataQ → Bool) (v : VapId) (q : DataQ) (b : Bool) : VapId → DataQ → Bool :=
  Function.update f v (Function.update (f v) q b)

def enqueue (n : Node) (nb : Netbuf) (q : DataQ) : TxSys :=
  let len := (s.queue q).length + 1
  let stop := s.stopPerQ n.vap q || maxLen q ≤ len
  let s := { s with stopPerQ := setStop s.stopPerQ n.vap q stop }
  -- a full queue still takes what a WPA connection in progress sends
  if stop && !((s.net.vap n.vap).connInProg && (s.vapTx n.vap).wpaIe) then s
  else
    let stopUdp := s.stopUdpPkts n.vap q || waterMark q ≤ len
    let s := { s with stopUdpPkts := setStop s.stopUdpPkts n.vap q stopUdp }
    if stopUdp && nb.isUdp then s
    else { s with queue := Function.update s.queue q (s.queue q ++ [s.packet n nb q]) }

def pktPriority (opmode : Opmode) (nb : Netbuf) : DataQ :=
  (if s.radio.fWme then tidToWmeAc nb.tid else .be).queue opmode

def noKey (n : Node) (nb : Netbuf) : Bool :=
  (s.net.vap n.vap).opmode = .hostap && (s.net.vap n.vap).privacy && !n.encryptEnbl &&
    !(nb.flags.eapol && nb.etherType = etherTypePae)

/-- Broadcast frames of an access point wait in a queue of their own, and EAPOL frames in the
management queue. Neither is followed here. -/
def skips (n : Node) (nb : Netbuf) : Bool :=
  nb.frame.isEmpty || !s.fsmOpen || (nb.toAll && (s.net.vap n.vap).opmode = .hostap) || s.noKey n nb ||
    nb.toMgmt (s.net.vap n.vap).opmode

def coreXmit (nb : Netbuf) : TxSys :=
  match s.net.stations.node nb.ni with
  | none => s
  | some n =>
    if s.skips n nb then s else s.enqueue n nb.toOne (s.pktPriority (s.net.vap n.vap).opmode nb)

/-- Which queues are blocked. The first queue of an access point is not. -/
def blocked (q : DataQ) : Bool := (s.net.staDataBlock && q < 4) || (s.net.blockApQueues && 4 < q)

def vapOf (pk : Pkt) : VapId := ((pk.data 9 >>> 6).setWidth 2).toFin

def restart (pk : Pkt) (q : DataQ) : TxSys :=
  if vapOf pk = pk.vap && (s.queue q).length < maxLen q - 500 && s.stopUdpPkts pk.vap q then
    { s with
      stopUdpPkts := setStop s.stopUdpPkts pk.vap q false
      stopPerQ := setStop s.stopPerQ pk.vap q false }
  else s

def deliverable (pk : Pkt) : Bool :=
  (pk.nb.flags.broadcast && (s.net.vap pk.vap).opmode = .hostap) ||
    ((pk.data 15).toNat < maxStations && s.net.stations.connected (pk.data 15).toNat)

/-- One round of `core_qos_processor` on a data queue, and the packet it passes to the device. -/
def coreQosProcessor (q : DataQ) : Option (TxSys × Option Pkt) :=
  if s.blocked q then none
  else match s.queue q with
    | [] => none
    | pk :: rest =>
      let s := { s with queue := Function.update s.queue q rest }
      if (s.vapTx (vapOf pk)).inUse then
        some (s.restart pk q, if s.deliverable pk then some pk else none)
      else some (s, none)

end TxSys

/-- `config` stands for all that is set elsewhere. -/
inductive TxEvent
  | net (e : NetEvent)
  | xmit (nb : Netbuf)
  | dequeue (q : DataQ)
  | config (vapTx : VapId → VapTx) (radio : Radio) (scNmonvaps : Nat) (fsmOpen : Bool)

def TxSys.event (s : TxSys) : TxEvent → Option TxSys
  | .net e => (s.net.event e).map fun net => { s with net }
  | .xmit nb => some (s.coreXmit nb)
  | .dequeue q => (s.coreQosProcessor q).map Prod.fst
  | .config vapTx radio scNmonvaps fsmOpen => some { s with vapTx, radio, scNmonvaps, fsmOpen }

section Spec

variable {s t : TxSys}

theorem TxSys.packet_desc (s : TxSys) {nb : Netbuf} (h : s.strips nb = false) (n : Node) (q : DataQ) :
    (s.packet n nb.toOne q).desc = some (s.descArgs n nb.toOne q).prepare := by
  have hstrip : s.strips nb.toOne = false := h
  simp [TxSys.packet, hstrip]

theorem TxSys.mem_enqueue {n : Node} {nb : Netbuf} {q q' : DataQ} {pk : Pkt}
    (h : pk ∈ (s.enqueue n nb q).queue q') : pk ∈ s.queue q' ∨ pk = s.packet n nb q := by
  simp only [TxSys.enqueue] at h
  split_ifs at h
  · exact .inl h
  · exact .inl h
  · by_cases hq : q' = q
    · subst hq
      simp only [Function.update_self, List.mem_append, List.mem_singleton] at h
      exact h
    · simp only [Function.update_of_ne hq] at h
      exact .inl h

theorem TxSys.enqueue_net (n : Node) (nb : Netbuf) (q : DataQ) : (s.enqueue n nb q).net = s.net := by
  simp only [TxSys.enqueue]
  split_ifs <;> rfl

theorem TxSys.coreXmit_net (nb : Netbuf) : (s.coreXmit nb).net = s.net := by
  unfold TxSys.coreXmit
  split
  · rfl
  · split_ifs
    · rfl
    · exact enqueue_net ..

theorem TxSys.mem_coreXmit {nb : Netbuf} {q' : DataQ} {pk : Pkt} (h : pk ∈ (s.coreXmit nb).queue q') :
    pk ∈ s.queue q' ∨ ∃ n q, s.net.stations.node nb.ni = some n ∧ s.skips n nb = false ∧
      pk = s.packet n nb.toOne q := by
  unfold TxSys.coreXmit at h
  split at h
  · exact .inl h
  case h_2 n hn =>
    split_ifs at h with hskip
    · exact .inl h
    · exact (mem_enqueue h).imp_right fun hpk => ⟨n, _, hn, by simpa using hskip, hpk⟩

theorem TxSys.restart_frame (pk : Pkt) (q : DataQ) :
    (s.restart pk q).net = s.net ∧ (s.restart pk q).queue = s.queue := by
  unfold TxSys.restart
  split_ifs <;> exact ⟨rfl, rfl⟩

theorem TxSys.mem_rest {q q' : DataQ} {pk pk' : Pkt} {rest : List Pkt} (hq : s.queue q = pk :: rest)
    (h : pk' ∈ Function.update s.queue q rest q') : pk' ∈ s.queue q' := by
  by_cases hqq : q' = q
  · subst hqq
    rw [Function.update_self] at h
    exact hq ▸ List.mem_cons_of_mem _ h
  · rwa [Function.update_of_ne hqq] at h

/-- A round takes the head of its queue. For a vap in use it may start the flow again and pass the packet
on. -/
theorem TxSys.coreQosProcessor_cases {q : DataQ} {o : Option Pkt} (h : s.coreQosProcessor q = some (t, o)) :
    ∃ pk rest, s.queue q = pk :: rest ∧
      (((s.vapTx (vapOf pk)).inUse = true ∧
          t = { s with queue := Function.update s.queue q rest }.restart pk q ∧
          o = if s.deliverable pk then some pk else none) ∨
        ((s.vapTx (vapOf pk)).inUse = false ∧ t = { s with queue := Function.update s.queue q rest } ∧
          o = none)) := by
  rw [coreQosProcessor] at h
  split_ifs at h
  cases hq : s.queue q with
  | nil => simp [hq] at h
  | cons pk rest =>
    simp only [hq] at h
    refine ⟨pk, rest, rfl, ?_⟩
    cases huse : (s.vapTx (vapOf pk)).inUse with
    | true =>
      rw [if_pos huse] at h
      obtain ⟨rfl, rfl⟩ := Prod.mk.inj (Option.some.inj h)
      exact .inl ⟨rfl, rfl, rfl⟩
    | false =>
      rw [if_neg (by simp [huse])] at h
      obtain ⟨rfl, rfl⟩ := Prod.mk.inj (Option.some.inj h)
      exact .inr ⟨rfl, rfl, rfl⟩

theorem TxSys.coreQosProcessor_frame {q : DataQ} {o : Option Pkt} (h : s.coreQosProcessor q = some (t, o)) :
    ∃ pk rest, s.queue q = pk :: rest ∧ t.net = s.net ∧ t.queue = Function.update s.queue q rest := by
  obtain ⟨pk, rest, hq, ⟨-, rfl, -⟩ | ⟨-, rfl, -⟩⟩ := coreQosProcessor_cases h
  · exact ⟨pk, rest, hq, restart_frame pk q⟩
  · exact ⟨pk, rest, hq, rfl, rfl⟩

theorem TxSys.coreQosProcessor_spec {q : DataQ} {o : Option Pkt} (h : s.coreQosProcessor q = some (t, o)) :
    t.net = s.net ∧ (∀ q' pk, pk ∈ t.queue q' → pk ∈ s.queue q') ∧
      ∀ pk, o = some pk → pk ∈ s.queue q ∧ s.deliverable pk := by
  obtain ⟨pk, rest, hq, hnet, hqueue⟩ := coreQosProcessor_frame h
  refine ⟨hnet, fun q' pk' hm => mem_rest hq (hqueue ▸ hm), fun pk' ho => ?_⟩
  obtain ⟨head, tail, hq', ⟨-, -, hpass⟩ | ⟨-, -, hnone⟩⟩ := coreQosProcessor_cases h
  · obtain ⟨hdel, ⟨⟩⟩ := Option.ite_none_right_eq_some.mp (hpass.symm.trans ho)
    exact ⟨hq' ▸ List.mem_cons_self, hdel⟩
  · cases hnone.symm.trans ho

theorem TxSys.coreQosProcessor_queue {q : DataQ} {o : Option Pkt} (h : s.coreQosProcessor q = some (t, o)) :
    s.queue q ≠ [] ∧ t.queue = Function.update s.queue q (s.queue q).tail := by
  obtain ⟨pk, rest, hq, -, hqueue⟩ := coreQosProcessor_frame h
  rw [hq, hqueue]
  exact ⟨List.cons_ne_nil _ _, rfl⟩

theorem TxSys.coreQosProcessor_eq_none {q : DataQ} (h : s.coreQosProcessor q = none) :
    s.blocked q = true ∨ s.queue q = [] := by
  revert h
  fun_cases TxSys.coreQosProcessor s q
  case case1 hb => exact fun _ => .inl hb
  case case2 hq => exact fun _ => .inr hq
  case case3 | case4 => nofun

def QueueInv (P : Net → Pkt → Prop) (s : TxSys) : Prop := ∀ q pk, pk ∈ s.queue q → P s.net pk

theorem QueueInv.event {P : Net → Pkt → Prop} {e : TxEvent} (h : QueueInv P s)
    (hnet : ∀ e' net, e = .net e' → s.net.event e' = some net → ∀ q pk, pk ∈ s.queue q → P s.net pk → P net pk)
    (hnew : ∀ nb n q, e = .xmit nb → s.net.stations.node nb.ni = some n → s.skips n nb = false →
      P s.net (s.packet n nb.toOne q))
    (hs : s.event e = some t) : QueueInv P t := by
  cases e with
  | net e' =>
    obtain ⟨net, hn, rfl⟩ := Option.map_eq_some_iff.mp hs
    exact fun q pk hpk => hnet e' net rfl hn q pk hpk (h q pk hpk)
  | xmit nb =>
    cases hs
    intro q pk hpk
    rw [TxSys.coreXmit_net]
    rcases TxSys.mem_coreXmit hpk with hpk | ⟨n, q', hn, hskip, rfl⟩
    · exact h q pk hpk
    · exact hnew nb n q' rfl hn hskip
  | dequeue q =>
    obtain ⟨⟨u, o⟩, hu, rfl⟩ := Option.map_eq_some_iff.mp hs
    obtain ⟨hnet', hmem, -⟩ := TxSys.coreQosProcessor_spec hu
    intro q' pk hpk
    rw [hnet']
    exact h q' pk (hmem q' pk hpk)
  | config =>
    cases hs
    exact h

end Spec

end Onebox
