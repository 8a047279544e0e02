import Onebox.Encryption
import Onebox.HalQueue

/-! Flow control on the data queues. `core_xmit` sets `stop_udp_pkts` and `stop_per_q` of
its own vap by the length of a queue that the vaps share, and `core_qos_processor`
clears them only for the vap of the packet it takes. -/

namespace Onebox

open Machine

inductive FlowAct
  | xmit (nb : Netbuf)
  | dequeue (q : DataQ)

def TxSys.flowStep (s : TxSys) : FlowAct → Option TxSys
  | .xmit nb => some (s.coreXmit nb)
  | .dequeue q => (s.coreQosProcessor q).map Prod.fst

/-- The packet belongs to the vap, and its descriptor says so. -/
def Pkt.marks (v : VapId) (pk : Pkt) : Bool := pk.vap = v && TxSys.vapOf pk = v

/-- A live vap is stopped on an empty queue. -/
def TxSys.Wedged (s : TxSys) : Prop :=
  ∃ v q, (s.vapTx v).inUse = true ∧ s.stopPerQ v q = true ∧ s.queue q = []

/-- No vap has a WPA connection in progress. -/
def TxSys.Settled (s : TxSys) : Prop := ∀ v, ((s.net.vap v).connInProg && (s.vapTx v).wpaIe) = false

structure FlowStart (s : TxSys) : Prop where
  queue : ∀ q, s.queue q = []
  stopPerQ : ∀ v q, s.stopPerQ v q = false
  stopUdpPkts : ∀ v q, s.stopUdpPkts v q = false
  settled : s.Settled

namespace TxSys

/-- A vap that is stopped will be started: it has passed the mark for UDP, and one of its own packets
is still to come. -/
def willStart (s : TxSys) (v : VapId) (q : DataQ) : Bool := s.stopUdpPkts v q && (s.queue q).any (Pkt.marks v)

def isFull (s : TxSys) (q : DataQ) : Bool := maxLen q ≤ (s.queue q).length + 1

/-- The queue that `core_xmit` chooses. -/
def xmitQueue (s : TxSys) (n : Node) (nb : Netbuf) : DataQ := s.pktPriority (s.net.vap n.vap).opmode nb

/-- A live vap that finds the queue full will be started again. -/
def admits (s : TxSys) (n : Node) (q : DataQ) : Bool :=
  !(s.vapTx n.vap).inUse || s.stopPerQ n.vap q || !s.isFull q || s.willStart n.vap q

/-- The last packet of a stopped vap is taken when the queue is short enough to start it. -/
def releases (s : TxSys) (q : DataQ) (pk : Pkt) (rest : List Pkt) : Bool :=
  !(s.vapTx pk.vap).inUse || !s.stopPerQ pk.vap q || !pk.marks pk.vap || rest.any (Pkt.marks pk.vap) ||
    rest.length < maxLen q - 500

def flows (s : TxSys) : FlowAct → Bool
  | .xmit nb =>
    (s.net.stations.node nb.ni).all fun n =>
      s.skips n nb || s.admits n (s.xmitQueue n nb)
  | .dequeue q =>
    match s.queue q with
    | [] => true
    | pk :: rest => s.releases q pk rest

theorem setStop_apply (f : VapId → DataQ → Bool) (v v' : VapId) (q q' : DataQ) (b : Bool) :
    setStop f v q b v' q' = if v' = v ∧ q' = q then b else f v' q' := by
  rw [setStop]
  by_cases hv : v' = v
  · subst hv
    rw [Function.update_self, Function.update_apply]
    simp
  · rw [Function.update_of_ne hv]
    simp [hv]

section SetStop

variable {f : VapId → DataQ → Bool} {v v' : VapId} {q q' : DataQ} {b : Bool}

theorem setStop_at : setStop f v q b v q = b := by
  rw [setStop_apply, if_pos ⟨rfl, rfl⟩]

theorem setStop_off (h : ¬ (v' = v ∧ q' = q)) : setStop f v q b v' q' = f v' q' := by
  rw [setStop_apply, if_neg h]

/-- Setting a flag clears none. -/
theorem setStop_true (h : f v' q' = true) : setStop f v q true v' q' = true := by
  rw [setStop_apply, h, ite_self]

theorem setStop_self (h : f v q = b) : setStop f v q b = f := by
  funext v' q'
  rw [setStop_apply]
  split
  case isTrue heq => rw [heq.1, heq.2, h]
  case isFalse => rfl

end SetStop

variable {s t : TxSys} {v : VapId} {q : DataQ} {n : Node} {nb : Netbuf} {pk : Pkt}

/-- What `enqueue` does outside a WPA connection in progress. -/
inductive Enqueues (s : TxSys) (n : Node) (nb : Netbuf) (q : DataQ) : TxSys → Prop
  | refused (h : s.stopPerQ n.vap q = true ∨ s.isFull q = true) :
      Enqueues s n nb q { s with stopPerQ := setStop s.stopPerQ n.vap q true }
  | dropped (hroom : s.stopPerQ n.vap q = false ∧ s.isFull q = false) (hip : nb.isUdp = true) :
      Enqueues s n nb q { s with stopUdpPkts := setStop s.stopUdpPkts n.vap q true }
  | queued (hroom : s.stopPerQ n.vap q = false ∧ s.isFull q = false) (udp : Bool)
      (hudp : udp = (s.stopUdpPkts n.vap q || decide (waterMark q ≤ (s.queue q).length + 1))) :
      Enqueues s n nb q { s with
        stopUdpPkts := setStop s.stopUdpPkts n.vap q udp
        queue := Function.update s.queue q (s.queue q ++ [s.packet n nb q]) }

theorem enqueue_enqueues (hs : s.Settled) (n : Node) (nb : Netbuf) (q : DataQ) :
    Enqueues s n nb q (s.enqueue n nb q) := by
  have hexc := hs n.vap
  cases hstop : s.stopPerQ n.vap q || s.isFull q with
  | true =>
    have henq : s.enqueue n nb q = { s with stopPerQ := setStop s.stopPerQ n.vap q true } := by
      rw [isFull] at hstop
      simp [enqueue, hstop, hexc]
    rw [henq]
    exact .refused (by simpa using hstop)
  | false =>
    have hroom : s.stopPerQ n.vap q = false ∧ s.isFull q = false := by simpa using hstop
    have hkeep : setStop s.stopPerQ n.vap q false = s.stopPerQ := setStop_self hroom.1
    have hstop' : (s.stopPerQ n.vap q || decide (maxLen q ≤ (s.queue q).length + 1)) = false := hstop
    cases hudp : s.stopUdpPkts n.vap q || decide (waterMark q ≤ (s.queue q).length + 1) with
    | false =>
      have henq : s.enqueue n nb q = { s with
          stopUdpPkts := setStop s.stopUdpPkts n.vap q false
          queue := Function.update s.queue q (s.queue q ++ [s.packet n nb q]) } := by
        simp only [enqueue, hstop', hudp, hkeep]
        rfl
      rw [henq]
      exact .queued hroom false hudp.symm
    | true =>
      cases hip : nb.isUdp with
      | true =>
        have henq : s.enqueue n nb q = { s with stopUdpPkts := setStop s.stopUdpPkts n.vap q true } := by
          simp only [enqueue, hstop', hudp, hkeep, hip]
          rfl
        rw [henq]
        exact .dropped hroom hip
      | false =>
        have henq : s.enqueue n nb q = { s with
            stopUdpPkts := setStop s.stopUdpPkts n.vap q true
            queue := Function.update s.queue q (s.queue q ++ [s.packet n nb q]) } := by
          simp only [enqueue, hstop', hudp, hkeep, hip]
          rfl
        rw [henq]
        exact .queued hroom true hudp.symm

/-- What a round on a queue does. -/
inductive Takes (s : TxSys) (q : DataQ) : TxSys → Prop
  | started {pk : Pkt} {rest : List Pkt} (hq : s.queue q = pk :: rest) (hmark : pk.marks pk.vap = true)
      (hshort : rest.length < maxLen q - 500) (hudp : s.stopUdpPkts pk.vap q = true) :
      Takes s q { s with
        queue := Function.update s.queue q rest
        stopUdpPkts := setStop s.stopUdpPkts pk.vap q false
        stopPerQ := setStop s.stopPerQ pk.vap q false }
  | taken {pk : Pkt} {rest : List Pkt} (hq : s.queue q = pk :: rest)
      (h : (s.vapTx pk.vap).inUse = true → pk.marks pk.vap = true → rest.length < maxLen q - 500 →
        s.stopUdpPkts pk.vap q = false) :
      Takes s q { s with queue := Function.update s.queue q rest }

theorem marks_iff : pk.marks v = true ↔ pk.vap = v ∧ vapOf pk = v := by simp [Pkt.marks]

theorem marks_self : pk.marks pk.vap = true ↔ vapOf pk = pk.vap := by simp [Pkt.marks]

theorem restart_takes {rest : List Pkt} (hq : s.queue q = pk :: rest) :
    Takes s q ({ s with queue := Function.update s.queue q rest }.restart pk q) := by
  rw [restart]
  split
  case isTrue h =>
    simp only [Function.update_self, Bool.and_eq_true, decide_eq_true_eq] at h
    obtain ⟨⟨hmark, hshort⟩, hudp⟩ := h
    exact .started hq (marks_self.mpr hmark) hshort hudp
  case isFalse h =>
    refine .taken hq fun _ hmark hshort => ?_
    by_contra hudp
    refine h ?_
    simp only [Function.update_self, Bool.and_eq_true, decide_eq_true_eq]
    exact ⟨⟨marks_self.mp hmark, hshort⟩, by simpa using hudp⟩

theorem coreQosProcessor_takes {o : Option Pkt} (h : s.coreQosProcessor q = some (t, o)) : Takes s q t := by
  obtain ⟨pk, rest, hq, ⟨-, rfl, -⟩ | ⟨hno, rfl, -⟩⟩ := coreQosProcessor_cases h
  · exact restart_takes hq
  · refine .taken hq fun hin hmark _ => ?_
    rw [marks_self.mp hmark, hin] at hno
    cases hno

/-- What a step does. -/
inductive FlowSteps (s : TxSys) : FlowAct → TxSys → Prop
  | skipped {nb : Netbuf} (h : (s.net.stations.node nb.ni).all (s.skips · nb)) : FlowSteps s (.xmit nb) s
  | xmit {nb : Netbuf} {n : Node} {t : TxSys} (hn : s.net.stations.node nb.ni = some n)
      (hskip : s.skips n nb = false) (henq : Enqueues s n nb.toOne (s.xmitQueue n nb) t) :
      FlowSteps s (.xmit nb) t
  | dequeue {q : DataQ} {t : TxSys} (htakes : Takes s q t) : FlowSteps s (.dequeue q) t

theorem flowStep_steps {a : FlowAct} (hs : s.Settled) (hstep : s.flowStep a = some t) : FlowSteps s a t := by
  cases a with
  | xmit nb =>
    cases hstep
    cases hn : s.net.stations.node nb.ni with
    | none =>
      have hxmit : s.coreXmit nb = s := by simp [coreXmit, hn]
      rw [hxmit]
      exact .skipped (by simp [hn])
    | some n =>
      cases hskip : s.skips n nb with
      | true =>
        have hxmit : s.coreXmit nb = s := by simp [coreXmit, hn, hskip]
        rw [hxmit]
        exact .skipped (by simp [hn, hskip])
      | false =>
        have hxmit : s.coreXmit nb = s.enqueue n nb.toOne (s.xmitQueue n nb) := by
          simp [coreXmit, hn, hskip, xmitQueue]
        rw [hxmit]
        exact .xmit hn hskip (enqueue_enqueues hs n nb.toOne _)
  | dequeue q =>
    obtain ⟨⟨u, o⟩, hu, rfl⟩ := Option.map_eq_some_iff.mp hstep
    exact .dequeue (coreQosProcessor_takes hu)

end TxSys

section Config

variable {s t : TxSys} {q : DataQ} {n : Node} {nb : Netbuf}

/-- All but the queues and the stop flags is as it was. -/
structure SameConfig (s t : TxSys) : Prop where
  net : t.net = s.net
  vapTx : t.vapTx = s.vapTx
  radio : t.radio = s.radio
  fsmOpen : t.fsmOpen = s.fsmOpen

theorem SameConfig.trans {u : TxSys} (h : SameConfig s t) (h' : SameConfig t u) : SameConfig s u :=
  ⟨h'.net.trans h.net, h'.vapTx.trans h.vapTx, h'.radio.trans h.radio, h'.fsmOpen.trans h.fsmOpen⟩

theorem SameConfig.enqueues (henq : TxSys.Enqueues s n nb q t) : SameConfig s t := by
  cases henq with
  | refused => exact ⟨rfl, rfl, rfl, rfl⟩
  | dropped => exact ⟨rfl, rfl, rfl, rfl⟩
  | queued => exact ⟨rfl, rfl, rfl, rfl⟩

theorem SameConfig.takes (htakes : TxSys.Takes s q t) : SameConfig s t := by
  cases htakes with
  | started => exact ⟨rfl, rfl, rfl, rfl⟩
  | taken => exact ⟨rfl, rfl, rfl, rfl⟩

theorem SameConfig.settled (h : SameConfig s t) (hs : s.Settled) : t.Settled := by
  intro v
  rw [h.net, h.vapTx]
  exact hs v

theorem SameConfig.step {a : FlowAct} (hs : s.Settled) (hstep : s.flowStep a = some t) : SameConfig s t := by
  cases TxSys.flowStep_steps hs hstep with
  | skipped => exact ⟨rfl, rfl, rfl, rfl⟩
  | xmit _ _ henq => exact .enqueues henq
  | dequeue htakes => exact .takes htakes

end Config

/-- Every stopped vap will be started. -/
structure FlowInv (s : TxSys) : Prop where
  settled : s.Settled
  starts : ∀ v q, (s.vapTx v).inUse = true → s.stopPerQ v q = true → s.willStart v q = true

namespace FlowInv

variable {s t : TxSys} {q : DataQ} {n : Node} {nb : Netbuf}

theorem willStart_iff {v : VapId} : s.willStart v q = true ↔
    s.stopUdpPkts v q = true ∧ ∃ pk ∈ s.queue q, pk.marks v = true := by
  simp [TxSys.willStart]

theorem enqueues (h : FlowInv s) (henq : TxSys.Enqueues s n nb q t)
    (hok : s.admits n q) : FlowInv t := by
  cases henq with
  | refused hfull =>
    refine ⟨h.settled, fun v q' hin hstop => ?_⟩
    by_cases hvq : v = n.vap ∧ q' = q
    · obtain ⟨rfl, rfl⟩ := hvq
      cases hold : s.stopPerQ n.vap q' with
      | true => exact h.starts n.vap q' hin hold
      | false =>
        have hfull' : s.isFull q' = true := by simpa [hold] using hfull
        have hin' : (s.vapTx n.vap).inUse = true := hin
        have hstart : s.willStart n.vap q' = true := by simpa [TxSys.admits, hold, hfull', hin'] using hok
        exact hstart
    · exact h.starts v q' hin ((TxSys.setStop_off hvq).symm.trans hstop)
  | dropped hroom =>
    refine ⟨h.settled, fun v q' hin hstop => ?_⟩
    obtain ⟨hudp, hpk⟩ := willStart_iff.mp (h.starts v q' hin hstop)
    exact willStart_iff.mpr ⟨TxSys.setStop_true hudp, hpk⟩
  | queued hroom udp hudp =>
    refine ⟨h.settled, fun v q' hin hstop => ?_⟩
    obtain ⟨hold, pk, hpk, hmark⟩ := willStart_iff.mp (h.starts v q' hin hstop)
    refine willStart_iff.mpr ⟨?_, pk, ?_, hmark⟩
    · dsimp only
      rw [TxSys.setStop_apply]
      split
      case isTrue hvq =>
        rw [hudp, ← hvq.1, ← hvq.2, hold, Bool.true_or]
      case isFalse => exact hold
    · dsimp only
      by_cases hqq : q' = q
      · subst hqq
        rw [Function.update_self]
        exact List.mem_append_left _ hpk
      · rwa [Function.update_of_ne hqq]

/-- Of the packets of a vap at most the head of the queue is taken. -/
theorem marked_rest {pk : Pkt} {rest : List Pkt} {v : VapId} {q' : DataQ} (hq : s.queue q = pk :: rest)
    (h : ∃ pk' ∈ s.queue q', pk'.marks v = true)
    (hhead : q' = q → pk.marks v = true → ∃ pk' ∈ rest, pk'.marks v = true) :
    ∃ pk' ∈ Function.update s.queue q rest q', pk'.marks v = true := by
  by_cases hqq : q' = q
  · subst hqq
    rw [Function.update_self]
    obtain ⟨pk', hmem, hmark⟩ := h
    rw [hq] at hmem
    rcases List.mem_cons.mp hmem with rfl | hrest
    · exact hhead rfl hmark
    · exact ⟨pk', hrest, hmark⟩
  · rwa [Function.update_of_ne hqq]

theorem takes (h : FlowInv s) (htakes : TxSys.Takes s q t) (hok : s.flows (.dequeue q)) : FlowInv t := by
  cases htakes with
  | @started pk rest hq =>
    refine ⟨h.settled, fun v q' hin hstop => ?_⟩
    dsimp only at hstop
    rw [TxSys.setStop_apply] at hstop
    split at hstop
    · cases hstop
    case isFalse hvq =>
      obtain ⟨hudp, hpk⟩ := willStart_iff.mp (h.starts v q' hin hstop)
      refine willStart_iff.mpr ⟨(TxSys.setStop_off hvq).trans hudp, marked_rest hq hpk fun hqq hmark => ?_⟩
      exact absurd ⟨(TxSys.marks_iff.mp hmark).1.symm, hqq⟩ hvq
  | @taken pk rest hq hno =>
    refine ⟨h.settled, fun v q' hin hstop => ?_⟩
    obtain ⟨hudp, hpk⟩ := willStart_iff.mp (h.starts v q' hin hstop)
    refine willStart_iff.mpr ⟨hudp, marked_rest hq hpk fun hqq hmark => ?_⟩
    subst hqq
    obtain ⟨rfl, -⟩ := TxSys.marks_iff.mp hmark
    have hlast : rest.any (Pkt.marks pk.vap) = true ∨ rest.length < maxLen q' - 500 := by
      have hin' : (s.vapTx pk.vap).inUse = true := hin
      have hstop' : s.stopPerQ pk.vap q' = true := hstop
      simpa [TxSys.flows, TxSys.releases, hq, hin', hstop', hmark] using hok
    rcases hlast with hany | hshort
    · exact List.any_eq_true.mp hany
    · rw [hno hin hmark hshort] at hudp
      cases hudp

theorem step {a : FlowAct} (h : FlowInv s) (hok : s.flows a) (hstep : s.flowStep a = some t) : FlowInv t := by
  cases TxSys.flowStep_steps h.settled hstep with
  | skipped => exact h
  | xmit hn hskip henq => exact h.enqueues henq (by simpa [TxSys.flows, hn, hskip] using hok)
  | dequeue htakes => exact h.takes htakes hok

theorem of_start (h : FlowStart s) : FlowInv s := by
  refine ⟨h.settled, fun v q _ hstop => ?_⟩
  rw [h.stopPerQ] at hstop
  cases hstop

theorem not_wedged (h : FlowInv s) : ¬ s.Wedged := by
  rintro ⟨v, q, hin, hstop, hempty⟩
  obtain ⟨-, pk, hpk, -⟩ := willStart_iff.mp (h.starts v q hin hstop)
  rw [hempty] at hpk
  cases hpk

end FlowInv

/-- A vap that is stopped and will not be started. -/
structure Doomed (v : VapId) (q : DataQ) (s : TxSys) : Prop where
  settled : s.Settled
  stopPerQ : s.stopPerQ v q = true
  lost : s.stopUdpPkts v q = true → ∀ pk ∈ s.queue q, pk.marks v = false

namespace Doomed

variable {s t : TxSys} {v : VapId} {q q' : DataQ} {n : Node} {nb : Netbuf}

theorem enqueues (h : Doomed v q s) (henq : TxSys.Enqueues s n nb q' t) : Doomed v q t := by
  cases henq with
  | refused => exact ⟨h.settled, TxSys.setStop_true h.stopPerQ, h.lost⟩
  | dropped hroom =>
    have hne : ¬ (v = n.vap ∧ q = q') := by
      rintro ⟨rfl, rfl⟩
      simp [h.stopPerQ] at hroom
    exact ⟨h.settled, h.stopPerQ, fun hudp => h.lost ((TxSys.setStop_off hne).symm.trans hudp)⟩
  | queued hroom =>
    have hne : ¬ (v = n.vap ∧ q = q') := by
      rintro ⟨rfl, rfl⟩
      simp [h.stopPerQ] at hroom
    refine ⟨h.settled, h.stopPerQ, fun hudp pk hpk => ?_⟩
    dsimp only at hudp hpk
    rw [TxSys.setStop_off hne] at hudp
    by_cases hqq : q = q'
    · subst hqq
      rw [Function.update_self, List.mem_append, List.mem_singleton] at hpk
      rcases hpk with hpk | rfl
      · exact h.lost hudp pk hpk
      · -- the new packet belongs to another vap
        by_contra hmark
        have hvap := (TxSys.marks_iff.mp (Bool.not_eq_false _ ▸ hmark)).1
        exact hne ⟨hvap.symm, rfl⟩
    · rw [Function.update_of_ne hqq] at hpk
      exact h.lost hudp pk hpk

theorem takes (h : Doomed v q s) (htakes : TxSys.Takes s q' t) : Doomed v q t := by
  have hkept : ∀ {pk rest pk'}, s.queue q' = pk :: rest → pk' ∈ Function.update s.queue q' rest q →
      pk' ∈ s.queue q := fun hq hmem => TxSys.mem_rest hq hmem
  cases htakes with
  | @started pk rest hq hmark _ hudp =>
    have hne : ¬ (v = pk.vap ∧ q = q') := by
      rintro ⟨rfl, rfl⟩
      have hno := h.lost hudp pk (hq ▸ List.mem_cons_self)
      rw [hmark] at hno
      cases hno
    refine ⟨h.settled, (TxSys.setStop_off hne).trans h.stopPerQ, fun hudp pk' hpk' => ?_⟩
    exact h.lost ((TxSys.setStop_off hne).symm.trans hudp) pk' (hkept hq hpk')
  | @taken pk rest hq =>
    exact ⟨h.settled, h.stopPerQ, fun hudp pk' hpk' => h.lost hudp pk' (hkept hq hpk')⟩

/-- Nothing that is sent or taken helps it. -/
theorem step {a : FlowAct} (h : Doomed v q s) (hstep : s.flowStep a = some t) : Doomed v q t := by
  cases TxSys.flowStep_steps h.settled hstep with
  | skipped => exact h
  | xmit _ _ henq => exact h.enqueues henq
  | dequeue htakes => exact h.takes htakes

theorem of_full (henq : TxSys.Enqueues s n nb q t) (hs : s.Settled) (hfull : s.isFull q = true)
    (hlost : s.willStart n.vap q = false) : Doomed n.vap q t := by
  cases henq with
  | refused =>
    refine ⟨hs, TxSys.setStop_at, fun hudp pk hpk => ?_⟩
    by_contra hmark
    have hstart : s.willStart n.vap q = true :=
      FlowInv.willStart_iff.mpr ⟨hudp, pk, hpk, Bool.not_eq_false _ ▸ hmark⟩
    rw [hlost] at hstart
    cases hstart
  | dropped hroom => simp [hfull] at hroom
  | queued hroom => simp [hfull] at hroom

theorem of_last {pk : Pkt} {rest : List Pkt} (htakes : TxSys.Takes s q t) (hs : s.Settled)
    (hq : s.queue q = pk :: rest) (hstop : s.stopPerQ pk.vap q = true)
    (hlast : rest.any (Pkt.marks pk.vap) = false) (hlong : ¬ rest.length < maxLen q - 500) :
    Doomed pk.vap q t := by
  cases htakes with
  | started hq' _ hshort =>
    obtain ⟨-, rfl⟩ := List.cons.inj (hq.symm.trans hq')
    exact absurd hshort hlong
  | taken hq' =>
    obtain ⟨-, rfl⟩ := List.cons.inj (hq.symm.trans hq')
    refine ⟨hs, hstop, fun _ pk' hpk' => ?_⟩
    dsimp only at hpk'
    rw [Function.update_self] at hpk'
    have hnone := List.any_eq_false.mp hlast pk' hpk'
    simpa using hnone

/-- An `xmit` or a round that does not meet the condition leaves such a vap behind. -/
theorem of_not_flows {a : FlowAct} (hs : s.Settled) (hno : ¬ s.flows a = true) (hstep : s.flowStep a = some t) :
    ∃ v q, (t.vapTx v).inUse = true ∧ Doomed v q t := by
  rw [Bool.not_eq_true] at hno
  have hst : SameConfig s t := .step hs hstep
  rw [hst.vapTx]
  cases TxSys.flowStep_steps hs hstep with
  | @skipped nb hskip =>
    cases hn : s.net.stations.node nb.ni with
    | none => simp [TxSys.flows, hn] at hno
    | some n =>
      have hskips : s.skips n nb = true := by simpa [hn] using hskip
      simp [TxSys.flows, hn, hskips] at hno
  | @xmit nb n _ hn hskip henq =>
    simp only [TxSys.flows, hn, Option.all_some, hskip, Bool.false_or, TxSys.admits, Bool.or_eq_false_iff,
      Bool.not_eq_false'] at hno
    obtain ⟨⟨⟨hin, -⟩, hfull⟩, hlost⟩ := hno
    exact ⟨n.vap, _, hin, of_full henq hs hfull hlost⟩
  | @dequeue q _ htakes =>
    cases hq : s.queue q with
    | nil => simp [TxSys.flows, hq] at hno
    | cons pk rest =>
      simp only [TxSys.flows, hq, TxSys.releases, Bool.or_eq_false_iff, Bool.not_eq_false',
        decide_eq_false_iff_not] at hno
      obtain ⟨⟨⟨⟨hin, hstop⟩, -⟩, hlast⟩, hlong⟩ := hno
      exact ⟨pk.vap, q, hin, of_last htakes hs hq hstop hlast hlong⟩

theorem wedged (h : Doomed v q s) (hin : (s.vapTx v).inUse = true) (hempty : s.queue q = []) : s.Wedged :=
  ⟨v, q, hin, h.stopPerQ, hempty⟩

end Doomed

theorem FlowInv.not_doomed {s : TxSys} {v : VapId} {q : DataQ} (h : FlowInv s)
    (hlive : (s.vapTx v).inUse = true) : ¬ Doomed v q s := by
  intro hdoomed
  obtain ⟨hudp, pk, hpk, hmark⟩ := FlowInv.willStart_iff.mp (h.starts v q hlive hdoomed.stopPerQ)
  rw [hdoomed.lost hudp pk hpk] at hmark
  cases hmark

/-- The condition is met by exactly the runs that leave no live vap stopped for good. -/
theorem FlowInv.meets_flows_iff {s t : TxSys} {as : List FlowAct} (h : FlowInv s)
    (hrun : run TxSys.flowStep s as = some t) :
    Meets TxSys.flowStep TxSys.flows s as ↔ ∀ v q, (t.vapTx v).inUse = true → ¬ Doomed v q t := by
  refine (meets_iff_not_marked (M := fun u => ∃ v q, (u.vapTx v).inUse = true ∧ Doomed v q u)
    FlowInv.step (fun h hno hstep => Doomed.of_not_flows h.settled hno hstep)
    (fun ⟨v, q, hlive, hdoomed⟩ hstep => ⟨v, q, by rwa [(SameConfig.step hdoomed.settled hstep).vapTx],
      hdoomed.step hstep⟩) h hrun
    (fun h ⟨v, q, hlive, hdoomed⟩ => h.not_doomed hlive hdoomed)).trans ?_
  push Not
  rfl

/-- In a run whose steps all meet `flows` no vap is stopped on an empty queue. -/
theorem flow_control_never_wedges {s t : TxSys} {as : List FlowAct} (hs : FlowStart s)
    (hok : Meets TxSys.flowStep TxSys.flows s as) (hrun : run TxSys.flowStep s as = some t) : ¬ t.Wedged :=
  (run_invariant FlowInv.step (FlowInv.of_start hs) hok hrun).not_wedged

/-- Only one live vap has packets in the queue, with descriptors that name it. -/
def TxSys.oneOwner (s : TxSys) : FlowAct → Bool
  | .xmit nb =>
    (s.net.stations.node nb.ni).all fun n =>
      s.skips n nb || (s.vapTx n.vap).inUse && (s.packet n nb.toOne (s.xmitQueue n nb)).marks n.vap &&
        (s.queue (s.xmitQueue n nb)).all (Pkt.marks n.vap)
  | .dequeue _ => true

/-- The length from which on the owner of the queue has its UDP packets stopped. -/
def udpLen (q : DataQ) : Nat := max (waterMark q) (maxLen q - 500)

theorem udpLen_lt (q : DataQ) : udpLen q < maxLen q - 1 ∧ 500 < maxLen q := by
  revert q
  decide

/-- The queue belongs to `v`, which has its UDP packets stopped if the queue is long, and which is stopped
itself only while the queue is too long to start it. -/
structure OwnedBy (s : TxSys) (q : DataQ) (v : VapId) : Prop where
  live : (s.vapTx v).inUse = true
  marks : ∀ pk ∈ s.queue q, pk.marks v = true
  udp : udpLen q ≤ (s.queue q).length → s.stopUdpPkts v q = true
  long : s.stopPerQ v q = true → s.stopUdpPkts v q = true ∧ maxLen q - 500 ≤ (s.queue q).length
  others : ∀ w, w ≠ v → s.stopPerQ w q = false

def QueueOk (s : TxSys) (q : DataQ) : Prop :=
  (s.queue q = [] ∧ ∀ v, s.stopPerQ v q = false) ∨ ∃ v, OwnedBy s q v

section OwnedBy

variable {s t : TxSys} {q q' : DataQ} {v : VapId} {n : Node} {nb : Netbuf} {pk : Pkt}

theorem OwnedBy.not_stopped (h : OwnedBy s q v) (hempty : s.queue q = []) (w : VapId) : s.stopPerQ w q = false := by
  by_cases hw : w = v
  · subst hw
    by_contra hstop
    have hlong := (h.long (by simpa using hstop)).2
    have hmax := (udpLen_lt q).2
    rw [hempty, List.length_nil] at hlong
    omega
  · exact h.others w hw

theorem OwnedBy.head {rest : List Pkt} (h : OwnedBy s q v) (hq : s.queue q = pk :: rest) :
    pk.marks v = true ∧ pk.vap = v := by
  have hmark := h.marks pk (hq ▸ List.mem_cons_self)
  exact ⟨hmark, (TxSys.marks_iff.mp hmark).1⟩

/-- A vap whose packets alone are in the queue owns it. -/
theorem QueueOk.owned (h : QueueOk s q) (hlive : (s.vapTx v).inUse = true)
    (hmarks : ∀ pk ∈ s.queue q, pk.marks v = true) : OwnedBy s q v := by
  have hempty : s.queue q = [] → (∀ w, s.stopPerQ w q = false) → OwnedBy s q v := by
    intro hq hstop
    refine ⟨hlive, hmarks, fun hlen => ?_, fun hyes => ?_, fun w _ => hstop w⟩
    · have hmax := (udpLen_lt q).2
      have hudp : maxLen q - 500 ≤ udpLen q := le_max_right _ _
      rw [hq, List.length_nil] at hlen
      omega
    · rw [hstop v] at hyes
      cases hyes
  rcases h with ⟨hq, hstop⟩ | ⟨w, hw⟩
  · exact hempty hq hstop
  · cases hq : s.queue q with
    | nil => exact hempty hq (hw.not_stopped hq)
    | cons pk rest =>
      have hpkv := (TxSys.marks_iff.mp (hmarks pk (hq ▸ List.mem_cons_self))).1
      have hwv : w = v := (hw.head hq).2.symm.trans hpkv
      exact hwv ▸ hw

theorem OwnedBy.enqueues (h : OwnedBy s q n.vap) (henq : TxSys.Enqueues s n nb q t)
    (hmark : (s.packet n nb q).marks n.vap = true) : OwnedBy t q n.vap := by
  have hlen := udpLen_lt q
  cases henq with
  | refused hfull =>
    refine ⟨h.live, h.marks, h.udp, fun _ => ?_, fun w hw => ?_⟩
    · cases hold : s.stopPerQ n.vap q with
      | true => exact h.long hold
      | false =>
        have hfull' : maxLen q ≤ (s.queue q).length + 1 := by simpa [hold, TxSys.isFull] using hfull
        exact ⟨h.udp (by omega), by dsimp only; omega⟩
    · exact (TxSys.setStop_off fun heq => hw heq.1).trans (h.others w hw)
  | dropped hroom =>
    exact ⟨h.live, h.marks, fun _ => TxSys.setStop_at, fun hstop => ⟨TxSys.setStop_at, (h.long hstop).2⟩, h.others⟩
  | queued hroom udp hudp =>
    refine ⟨h.live, fun pk hpk => ?_, fun hlong => ?_, fun hstop => ?_, h.others⟩
    · dsimp only at hpk
      rw [Function.update_self, List.mem_append, List.mem_singleton] at hpk
      rcases hpk with hpk | rfl
      · exact h.marks pk hpk
      · exact hmark
    · dsimp only at hlong ⊢
      rw [Function.update_self, List.length_append, List.length_singleton] at hlong
      have hmark : waterMark q ≤ (s.queue q).length + 1 := (le_max_left _ _).trans hlong
      rw [TxSys.setStop_at, hudp, decide_eq_true hmark, Bool.or_true]
    · have hno : s.stopPerQ n.vap q = true := hstop
      rw [hroom.1] at hno
      cases hno

theorem OwnedBy.takes (h : OwnedBy s q v) (htakes : TxSys.Takes s q t) : OwnedBy t q v := by
  have hudpLen : maxLen q - 500 ≤ udpLen q := le_max_right _ _
  have hrest : ∀ {pk rest}, s.queue q = pk :: rest →
      ∀ pk' ∈ Function.update s.queue q rest q, pk'.marks v = true :=
    fun hq pk' hpk' => h.marks pk' (TxSys.mem_rest hq hpk')
  cases htakes with
  | @started pk rest hq _ hshort =>
    obtain ⟨-, rfl⟩ := h.head hq
    refine ⟨h.live, hrest hq, fun hlong => ?_, fun hstop => ?_, fun w hw => ?_⟩
    · dsimp only at hlong
      rw [Function.update_self] at hlong
      omega
    · dsimp only at hstop
      rw [TxSys.setStop_at] at hstop
      cases hstop
    · exact (TxSys.setStop_off fun heq => hw heq.1).trans (h.others w hw)
  | @taken pk rest hq hno =>
    obtain ⟨hmark, rfl⟩ := h.head hq
    have hlen : (s.queue q).length = rest.length + 1 := by rw [hq, List.length_cons]
    refine ⟨h.live, hrest hq, fun hlong => ?_, fun hstop => ?_, h.others⟩
    · dsimp only at hlong
      rw [Function.update_self] at hlong
      exact h.udp (by omega)
    · have hudp := (h.long hstop).1
      refine ⟨hudp, ?_⟩
      by_contra hshort
      dsimp only at hshort
      rw [Function.update_self, not_le] at hshort
      rw [hno h.live hmark hshort] at hudp
      cases hudp

/-- Nothing about this queue has changed. -/
structure SameAt (q : DataQ) (s t : TxSys) : Prop where
  vapTx : t.vapTx = s.vapTx
  queue : t.queue q = s.queue q
  stopPerQ : ∀ v, t.stopPerQ v q = s.stopPerQ v q
  stopUdpPkts : ∀ v, t.stopUdpPkts v q = s.stopUdpPkts v q

theorem setStop_of_ne {f : VapId → DataQ → Bool} {b : Bool} (hne : q' ≠ q) (w : VapId) :
    TxSys.setStop f v q b w q' = f w q' :=
  TxSys.setStop_off fun heq => hne heq.2

theorem SameAt.enqueues (henq : TxSys.Enqueues s n nb q t) (hne : q' ≠ q) : SameAt q' s t := by
  cases henq with
  | refused => exact ⟨rfl, rfl, setStop_of_ne hne, fun _ => rfl⟩
  | dropped => exact ⟨rfl, rfl, fun _ => rfl, setStop_of_ne hne⟩
  | queued => exact ⟨rfl, Function.update_of_ne hne .., fun _ => rfl, setStop_of_ne hne⟩

theorem SameAt.takes (htakes : TxSys.Takes s q t) (hne : q' ≠ q) : SameAt q' s t := by
  cases htakes with
  | started => exact ⟨rfl, Function.update_of_ne hne .., setStop_of_ne hne, setStop_of_ne hne⟩
  | taken => exact ⟨rfl, Function.update_of_ne hne .., fun _ => rfl, fun _ => rfl⟩

theorem QueueOk.same (h : QueueOk s q) (hst : SameAt q s t) : QueueOk t q := by
  rcases h with ⟨hq, hstop⟩ | ⟨v, hlive, hmarks, hudp, hlong, hothers⟩
  · exact .inl ⟨hst.queue.trans hq, fun v => (hst.stopPerQ v).trans (hstop v)⟩
  · right
    refine ⟨v, ?_, ?_, ?_, ?_, ?_⟩
    · rwa [hst.vapTx]
    · rwa [hst.queue]
    · rwa [hst.queue, hst.stopUdpPkts]
    · rwa [hst.queue, hst.stopUdpPkts, hst.stopPerQ]
    · intro w hw
      rw [hst.stopPerQ]
      exact hothers w hw

structure OwnerInv (s : TxSys) : Prop where
  settled : s.Settled
  queues : ∀ q, QueueOk s q

theorem OwnerInv.of_start (h : FlowStart s) : OwnerInv s :=
  ⟨h.settled, fun q => .inl ⟨h.queue q, fun v => h.stopPerQ v q⟩⟩

/-- What `oneOwner` says of a frame that is not skipped. -/
theorem OwnerInv.owned {n : Node} (h : OwnerInv s) (hok : s.oneOwner (.xmit nb))
    (hn : s.net.stations.node nb.ni = some n) (hskip : s.skips n nb = false) :
    OwnedBy s (s.xmitQueue n nb) n.vap ∧ (s.packet n nb.toOne (s.xmitQueue n nb)).marks n.vap = true := by
  simp only [TxSys.oneOwner, hn, Option.all_some, hskip, Bool.false_or, Bool.and_eq_true, List.all_eq_true] at hok
  obtain ⟨⟨hlive, hmark⟩, hall⟩ := hok
  exact ⟨(h.queues _).owned hlive hall, hmark⟩

theorem OwnerInv.enqueues (h : OwnerInv s) (henq : TxSys.Enqueues s n nb q t) (howned : OwnedBy s q n.vap)
    (hmark : (s.packet n nb q).marks n.vap = true) : OwnerInv t := by
  refine ⟨(SameConfig.enqueues henq).settled h.settled, fun q' => ?_⟩
  by_cases hqq : q' = q
  · subst hqq
    exact .inr ⟨n.vap, howned.enqueues henq hmark⟩
  · exact (h.queues q').same (.enqueues henq hqq)

theorem OwnerInv.takes (h : OwnerInv s) (htakes : TxSys.Takes s q t) : OwnerInv t := by
  refine ⟨(SameConfig.takes htakes).settled h.settled, fun q' => ?_⟩
  by_cases hqq : q' = q
  · subst hqq
    rcases h.queues q' with ⟨hempty, -⟩ | ⟨v, hv⟩
    · cases htakes with
      | started hq => simp [hempty] at hq
      | taken hq => simp [hempty] at hq
    · exact .inr ⟨v, hv.takes htakes⟩
  · exact (h.queues q').same (.takes htakes hqq)

theorem OwnerInv.step {a : FlowAct} (h : OwnerInv s) (hok : s.oneOwner a) (hstep : s.flowStep a = some t) :
    OwnerInv t := by
  cases TxSys.flowStep_steps h.settled hstep with
  | skipped => exact h
  | xmit hn hskip henq =>
    obtain ⟨howned, hmark⟩ := h.owned hok hn hskip
    exact h.enqueues henq howned hmark
  | dequeue htakes => exact h.takes htakes

theorem OwnedBy.admits (h : OwnedBy s q n.vap) : s.admits n q = true := by
  cases hfull : s.isFull q with
  | false => simp [TxSys.admits, hfull]
  | true =>
    have hlen : maxLen q ≤ (s.queue q).length + 1 := by simpa [TxSys.isFull] using hfull
    have hudp := h.udp (by have := udpLen_lt q; omega)
    have hstart : s.willStart n.vap q = true := by
      obtain ⟨pk, hpk⟩ := List.exists_mem_of_length_pos (l := s.queue q) (by have := udpLen_lt q; omega)
      exact FlowInv.willStart_iff.mpr ⟨hudp, pk, hpk, h.marks pk hpk⟩
    simp [TxSys.admits, hstart]

theorem OwnedBy.releases {rest : List Pkt} (h : OwnedBy s q v) (hq : s.queue q = pk :: rest) :
    s.releases q pk rest = true := by
  obtain ⟨-, rfl⟩ := h.head hq
  cases rest with
  | nil =>
    have hshort : 0 < maxLen q - 500 := by have := udpLen_lt q; omega
    simp [TxSys.releases, hshort]
  | cons pk' rest =>
    have hmark := h.marks pk' (hq ▸ List.mem_cons_of_mem _ List.mem_cons_self)
    simp [TxSys.releases, hmark]

theorem OwnerInv.flows {a : FlowAct} (h : OwnerInv s) (hok : s.oneOwner a) : s.flows a = true := by
  cases a with
  | xmit nb =>
    cases hn : s.net.stations.node nb.ni with
    | none => simp [TxSys.flows, hn]
    | some n =>
      cases hskip : s.skips n nb with
      | true => simp [TxSys.flows, hn, hskip]
      | false => simp [TxSys.flows, hn, (h.owned hok hn hskip).1.admits]
  | dequeue q =>
    cases hq : s.queue q with
    | nil => simp [TxSys.flows, hq]
    | cons pk rest =>
      rcases h.queues q with ⟨hempty, -⟩ | ⟨v, hv⟩
      · simp [hq] at hempty
      · simp [TxSys.flows, hq, hv.releases hq]

/-- With one vap for each queue, and no monitor vap that takes the descriptors away, the condition holds. -/
theorem flows_of_oneOwner {as : List FlowAct} (hs : FlowStart s)
    (hok : Meets TxSys.flowStep TxSys.oneOwner s as) : Meets TxSys.flowStep TxSys.flows s as :=
  Meets.imp OwnerInv.step OwnerInv.flows (OwnerInv.of_start hs) hok

end OwnedBy

section Fill

variable {s t : TxSys} {q : DataQ} {n : Node} {nb : Netbuf}

/-- Frames of this kind go to the queue. -/
structure SendsTo (nb : Netbuf) (n : Node) (q : DataQ) (s : TxSys) : Prop where
  settled : s.Settled
  node : s.net.stations.node nb.ni = some n
  skips : s.skips n nb = false
  priority : s.pktPriority (s.net.vap n.vap).opmode nb = q

theorem SendsTo.coreXmit (h : SendsTo nb n q s) : s.coreXmit nb = s.enqueue n nb.toOne q := by
  simp [TxSys.coreXmit, h.node, h.skips, h.priority]

theorem SendsTo.config (h : SendsTo nb n q s) (hst : SameConfig s t) : SendsTo nb n q t := by
  obtain ⟨hsettled, hnode, hskips, hpriority⟩ := h
  refine ⟨hst.settled hsettled, ?_, ?_, ?_⟩
  · rw [hst.net, hnode]
  · rw [TxSys.skips, TxSys.noKey, hst.net, hst.fsmOpen]
    exact hskips
  · rw [TxSys.pktPriority, hst.net, hst.radio]
    exact hpriority

/-- The queue holds `k` packets, all of one vap, and stops nobody. -/
structure Filled (q : DataQ) (v : VapId) (k : Nat) (s : TxSys) : Prop where
  length : (s.queue q).length = k
  vap : ∀ pk ∈ s.queue q, pk.vap = v
  stopPerQ : ∀ w, s.stopPerQ w q = false

theorem Filled.xmit {k : Nat} (h : Filled q n.vap k s) (hs : SendsTo nb n q s) (hip : nb.isUdp = false)
    (hk : k + 1 < maxLen q) : Filled q n.vap (k + 1) (s.coreXmit nb) ∧ SameConfig s (s.coreXmit nb) := by
  rw [hs.coreXmit]
  have henq := TxSys.enqueue_enqueues hs.settled n nb.toOne q
  refine ⟨?_, .enqueues henq⟩
  generalize s.enqueue n nb.toOne q = t at henq
  cases henq with
  | refused hfull =>
    rw [h.stopPerQ, TxSys.isFull, h.length, decide_eq_true_eq] at hfull
    simp at hfull
    omega
  | dropped _ hudp =>
    have hno : nb.isUdp = true := hudp
    rw [hip] at hno
    cases hno
  | queued =>
    refine ⟨?_, fun pk hpk => ?_, h.stopPerQ⟩
    · simp [h.length]
    · dsimp only at hpk
      rw [Function.update_self, List.mem_append, List.mem_singleton] at hpk
      rcases hpk with hpk | rfl
      · exact h.vap pk hpk
      · rfl

theorem fill (hs : SendsTo nb n q s) (hip : nb.isUdp = false) (h : Filled q n.vap 0 s) {k : Nat}
    (hk : k < maxLen q) : ∃ t, run TxSys.flowStep s (List.replicate k (.xmit nb)) = some t ∧
      Filled q n.vap k t ∧ SameConfig s t := by
  induction k with
  | zero => exact ⟨s, rfl, h, ⟨rfl, rfl, rfl, rfl⟩⟩
  | succ k ih =>
    obtain ⟨t, hrun, hfilled, hst⟩ := ih (by omega)
    obtain ⟨hfilled', hst'⟩ := hfilled.xmit (hs.config hst) hip hk
    refine ⟨t.coreXmit nb, ?_, hfilled', hst.trans hst'⟩
    rw [List.replicate_succ', run_append, hrun]
    rfl

theorem drain {k : Nat} (hlen : (s.queue q).length = k) (hfree : s.blocked q = false) :
    ∃ t, run TxSys.flowStep s (List.replicate k (.dequeue q)) = some t ∧ t.queue q = [] ∧ SameConfig s t := by
  induction k generalizing s with
  | zero => exact ⟨s, rfl, List.length_eq_zero_iff.mp hlen, ⟨rfl, rfl, rfl, rfl⟩⟩
  | succ k ih =>
    cases hround : s.coreQosProcessor q with
    | none =>
      rcases TxSys.coreQosProcessor_eq_none hround with hb | hq
      · rw [hfree] at hb
        cases hb
      · simp [hq] at hlen
    | some r =>
      obtain ⟨u, o⟩ := r
      have hst := SameConfig.takes (TxSys.coreQosProcessor_takes hround)
      have hulen : (u.queue q).length = k := by
        rw [(TxSys.coreQosProcessor_queue hround).2, Function.update_self, List.length_tail, hlen]
        rfl
      have hufree : u.blocked q = false := by rw [TxSys.blocked, hst.net, ← hfree, TxSys.blocked]
      obtain ⟨t, hrun, hempty, hst'⟩ := ih hulen hufree
      refine ⟨t, ?_, hempty, hst.trans hst'⟩
      rw [List.replicate_succ, run_cons, TxSys.flowStep, hround]
      exact hrun

/-- One vap fills the queue, another one sends to it, and the queue is drained. -/
theorem wedge {nb' : Netbuf} {n' : Node} (hs : FlowStart s) (hsend : SendsTo nb n q s) (hip : nb.isUdp = false)
    (hsend' : SendsTo nb' n' q s) (hne : n'.vap ≠ n.vap) (hlive : (s.vapTx n'.vap).inUse = true)
    (hfree : s.blocked q = false) : ∃ as t, run TxSys.flowStep s as = some t ∧ t.Wedged := by
  have hmax := udpLen_lt q
  have hempty : Filled q n.vap 0 s := by
    refine ⟨by rw [hs.queue, List.length_nil], fun pk hpk => ?_, fun w => hs.stopPerQ w q⟩
    rw [hs.queue] at hpk
    cases hpk
  obtain ⟨t₁, hrun₁, hfilled, hst₁⟩ := fill hsend hip hempty (k := maxLen q - 1) (by omega)
  have hsend₁ := hsend'.config hst₁
  have henq := TxSys.enqueue_enqueues hsend₁.settled n' nb'.toOne q
  have hfull : t₁.isFull q = true := by
    rw [TxSys.isFull, hfilled.length, decide_eq_true_eq]
    omega
  have hlost : t₁.willStart n'.vap q = false := by
    by_contra hyes
    obtain ⟨-, pk, hpk, hmark⟩ := FlowInv.willStart_iff.mp (Bool.not_eq_false _ ▸ hyes)
    exact hne ((TxSys.marks_iff.mp hmark).1.symm.trans (hfilled.vap pk hpk))
  have hdoomed : Doomed n'.vap q (t₁.coreXmit nb') := by
    rw [hsend₁.coreXmit]
    exact .of_full henq hsend₁.settled hfull hlost
  have hst₂ : SameConfig s (t₁.coreXmit nb') := by
    rw [hsend₁.coreXmit]
    exact hst₁.trans (.enqueues henq)
  obtain ⟨u, hrun₂, hdrained, hst₃⟩ := drain (q := q) rfl (show (t₁.coreXmit nb').blocked q = false by
    rw [TxSys.blocked, hst₂.net, ← hfree, TxSys.blocked])
  let drains : List FlowAct := List.replicate ((t₁.coreXmit nb').queue q).length (.dequeue q)
  refine ⟨List.replicate (maxLen q - 1) (.xmit nb) ++ .xmit nb' :: drains, u, ?_, ?_⟩
  · rw [run_append, hrun₁]
    exact hrun₂
  · refine (run_preserves Doomed.step hdoomed hrun₂).wedged ?_ hdrained
    rw [hst₃.vapTx, hst₂.vapTx, hlive]

end Fill

def apVap2 : VapId := ⟨2, by decide⟩

/-- A station of the given access point, with its key. -/
def staOf (mac : MacAddr) (v : VapId) : Node := { freshNode mac v with encryptEnbl := true }

/-- Two access points with a station each. -/
def twoAps : TxSys :=
  { freshTx with net := { freshNet with stations := { emptyTable with
      node := fun p => if p = 5 then some (staOf 7 apVap) else if p = 6 then some (staOf 8 apVap2) else none } } }

theorem flowStart_twoAps : FlowStart twoAps := by
  refine ⟨fun _ => rfl, fun _ _ => rfl, fun _ _ => rfl, fun v => ?_⟩
  revert v
  decide

def bkTo (p : NodePtr) : Netbuf := { ipTo p with frame := ipFrame.set 15 0x20 }

def bothSend : List FlowAct := [.xmit (bkTo 5), .xmit (bkTo 6), .dequeue bkQAp, .dequeue bkQAp]

theorem flow_control_bothSend : Meets TxSys.flowStep TxSys.flows twoAps bothSend ∧
    ∃ t, run TxSys.flowStep twoAps bothSend = some t ∧ ¬ t.Wedged := by
  have hok : Meets TxSys.flowStep TxSys.flows twoAps bothSend := by decide
  exact ⟨hok, exists_run_of (by decide) fun t hrun => flow_control_never_wedges flowStart_twoAps hok hrun⟩

/-- The first access point fills `BK_Q_AP`, and the second one is stopped on it for good. -/
theorem second_ap_wedged : FlowStart twoAps ∧ ∃ as t, run TxSys.flowStep twoAps as = some t ∧ t.Wedged := by
  have hsend : SendsTo (bkTo 5) (staOf 7 apVap) bkQAp twoAps :=
    ⟨flowStart_twoAps.settled, rfl, by decide, by decide⟩
  have hsend' : SendsTo (bkTo 6) (staOf 8 apVap2) bkQAp twoAps :=
    ⟨flowStart_twoAps.settled, rfl, by decide, by decide⟩
  exact ⟨flowStart_twoAps, wedge flowStart_twoAps hsend (by decide) hsend' (by decide) rfl (by decide)⟩

end Onebox
