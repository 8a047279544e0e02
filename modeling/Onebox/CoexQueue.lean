import Onebox.CoexSend
import Onebox.Machine

/-! The queues of the coex thread: `send_pkt_to_coex` and `onebox_coex_mgmt_frame` append packets
while `coex_pkt_processor` selects a queue, asks for transmit access, takes a packet, writes
or drops it and frees it. -/

namespace Onebox

open Machine

/-- `coex_pkt_processor`: not running, before the test of a queue in `coex_get_queue_num`, before the access and
the dequeuing from a queue, and with a packet before the write and before it is freed. -/
inductive CoexPc
  | idle
  | select (q : CoexQ)
  | access (q : CoexQ)
  | take (q : CoexQ)
  | write (q : CoexQ) (nb : CoexNetbuf)
  | free (q : CoexQ) (nb : CoexNetbuf)

/-- What the common HAL and the bus have for the next move of the thread. -/
structure CoexRound where
  granted : Bool
  driverMode : DriverMode
  flashingModeOn : Bool
  assets : DriverAssets

/-- `seen` has each queue as its last test has found it. What has been appended, dequeued with what
the selection had found, written and freed is recorded. -/
structure CoexThread where
  tx : CoexTx
  pc : CoexPc
  seen : CoexQ → List CoexNetbuf
  arrived : CoexQ → List CoexNetbuf
  dequeued : List (CoexQ × (CoexQ → List CoexNetbuf))
  written : CoexQ → List CoexNetbuf
  freed : CoexQ → List CoexNetbuf

inductive CoexAct
  | send (c : SendCall)
  | mgmtFrame (alloc : Bool) (nb : CoexNetbuf)
  | start
  | thread (r : CoexRound)

def appendTo (f : CoexQ → List CoexNetbuf) (q : CoexQ) (nb : CoexNetbuf) : CoexQ → List CoexNetbuf :=
  Function.update f q (f q ++ [nb])

def CoexQ.rank : CoexQ → Nat
  | .vip => 0
  | .coex => 1
  | .bt => 2
  | .zigb => 3
  | .wlan => 4

/-- The queue that is tested after one that is empty. -/
def CoexQ.next : CoexQ → Option CoexQ
  | .vip => some .coex
  | .coex => some .bt
  | .bt => some .zigb
  | .zigb => some .wlan
  | .wlan => none

/-- The immediate wake-up bit is set in the packet before it is written. -/
def CoexNetbuf.wake (nb : CoexNetbuf) : CoexNetbuf :=
  { nb with data := nb.data.modify 1 (· ||| 0x80#8) }

/-- A packet of no protocol, or of one without firmware, is dropped. -/
def CoexRound.passes (r : CoexRound) (nb : CoexNetbuf) : Bool :=
  if r.driverMode = .wifiModeOn ∧ r.flashingModeOn = false then
    ((TxPktType.decode nb.txPktType).bind protoIdToPkttype).any fun p => (r.assets.techs p).fwActive
  else true

namespace CoexThread

variable (s : CoexThread)

def start : CoexThread := ⟨freshCoexTx, .idle, fun _ => [], fun _ => [], [], fun _ => [], fun _ => []⟩

def queues : CoexQ → List CoexNetbuf := s.tx.coexQueues

def afterSelect : CoexQ → CoexPc
  | .bt => .access .bt
  | .zigb => .access .zigb
  | q => .take q

/-- One test of `coex_get_queue_num`. With all queues empty the run ends. -/
def coexGetQueueNum (q : CoexQ) : CoexThread :=
  { s with
    seen := Function.update s.seen q (s.queues q)
    pc := if (s.queues q).length ≠ 0 then afterSelect q else (q.next.map .select).getD .idle }

def take (q : CoexQ) : CoexThread :=
  match s.queues q with
  | [] => { s with pc := .idle }
  | nb :: rest =>
    { s with
      tx := { s.tx with coexQueues := Function.update s.queues q rest }
      dequeued := s.dequeued ++ [(q, s.seen)]
      pc := .write q nb }

def write (r : CoexRound) (q : CoexQ) (nb : CoexNetbuf) : CoexThread :=
  if r.passes nb then
    { s with
      tx := { s.tx with totPktsSentout := bump s.tx.totPktsSentout q }
      written := appendTo s.written q nb.wake
      pc := .free q nb }
  else { s with pc := .free q nb }

/-- The thread goes on. Without the access it gives up before it dequeues. -/
def advance (r : CoexRound) : Option CoexThread :=
  match s.pc with
  | .idle => none
  | .select q => some (s.coexGetQueueNum q)
  | .access q => some { s with pc := if r.granted then .take q else .idle }
  | .take q => some (s.take q)
  | .write q nb => some (s.write r q nb)
  | .free q nb => some { s with freed := appendTo s.freed q nb, pc := .select .vip }

/-- A packet goes to a queue when there is an adapter and the queue is not one of those written at once. -/
def send (c : SendCall) : CoexThread :=
  { s with
    tx := (sendPktToCoex s.tx c).1
    arrived := if c.adapter && !c.direct then appendTo s.arrived c.halQueue c.netbuf else s.arrived }

def oneboxCoexMgmtFrame (alloc : Bool) (nb : CoexNetbuf) : CoexThread :=
  if alloc then
    { s with
      tx := { s.tx with coexQueues := appendTo s.queues .coex nb }
      arrived := appendTo s.arrived .coex nb }
  else s

def step : CoexAct → Option CoexThread
  | .send c => some (s.send c)
  | .mgmtFrame alloc nb => some (s.oneboxCoexMgmtFrame alloc nb)
  | .start =>
    match s.pc with
    | .idle => some { s with pc := .select .vip }
    | _ => none
  | .thread r => s.advance r

end CoexThread

def CoexPc.choice : CoexPc → Option CoexQ
  | .access q | .take q => some q
  | _ => none

def CoexPc.tests : CoexPc → Option CoexQ
  | .select q => some q
  | _ => none

def CoexPc.held : CoexPc → CoexQ → List CoexNetbuf
  | .write q nb, r | .free q nb, r => if r = q then [nb] else []
  | _, _ => []

/-- The packet in hand once it is written or dropped. -/
def CoexPc.handled : CoexPc → CoexQ → List CoexNetbuf
  | .free q nb, r => if r = q then [nb] else []
  | _, _ => []

/-- The discipline of the queues: what has been appended to one is freed, in hand or still there, in this
order; the packets written are some of those dequeued, in their order; and a queue is only served when those
before it were empty at the selection, each at its test. -/
structure CoexDiscipline (s : CoexThread) : Prop where
  conserved : ∀ q, s.arrived q = s.freed q ++ (s.pc.held q ++ s.queues q)
  written : ∀ q, (s.written q).Sublist ((s.freed q ++ s.pc.held q).map CoexNetbuf.wake)
  priority : ∀ d ∈ s.dequeued, d.2 d.1 ≠ [] ∧ ∀ q, q.rank < d.1.rank → d.2 q = []

structure Selected (s : CoexThread) (q : CoexQ) : Prop where
  seen : s.seen q ≠ []
  queued : s.queues q ≠ []
  higher : ∀ r, r.rank < q.rank → s.seen r = []

structure CoexInv (s : CoexThread) : Prop where
  conserved : ∀ q, s.arrived q = s.freed q ++ (s.pc.held q ++ s.queues q)
  written : ∀ q, (s.written q).Sublist ((s.freed q ++ s.pc.handled q).map CoexNetbuf.wake)
  priority : ∀ d ∈ s.dequeued, d.2 d.1 ≠ [] ∧ ∀ q, q.rank < d.1.rank → d.2 q = []
  selected : ∀ q, s.pc.choice = some q → Selected s q
  tested : ∀ q, s.pc.tests = some q → ∀ r, r.rank < q.rank → s.seen r = []

section Steps

variable {s t : CoexThread} {a : CoexAct} {q : CoexQ} {nb : CoexNetbuf}

theorem appendTo_apply (f : CoexQ → List CoexNetbuf) (q : CoexQ) (nb : CoexNetbuf) (r : CoexQ) :
    appendTo f q nb r = f r ++ if r = q then [nb] else [] := by
  rw [appendTo]
  by_cases hr : r = q
  · subst hr
    rw [Function.update_self, if_pos rfl]
  · rw [Function.update_of_ne hr, if_neg hr, List.append_nil]

/-- The queues before the next one are those before this one, and this one. -/
theorem CoexQ.rank_next {r q' : CoexQ} (h : q.next = some q') (hr : r.rank < q'.rank) : r = q ∨ r.rank < q.rank := by
  cases q with
  | vip | coex | bt | zigb =>
    cases h
    cases r <;> simp_all [CoexQ.rank]
  | wlan => cases h

theorem CoexInv.append (h : CoexInv s) (hqueues : t.queues = appendTo s.queues q nb)
    (harrived : t.arrived = appendTo s.arrived q nb) (hpc : t.pc = s.pc) (hseen : t.seen = s.seen)
    (hdequeued : t.dequeued = s.dequeued) (hwritten : t.written = s.written) (hfreed : t.freed = s.freed) :
    CoexInv t := by
  refine ⟨fun r => ?_, fun r => ?_, ?_, fun r hr => ?_, ?_⟩
  · rw [harrived, hqueues, hpc, hfreed, appendTo_apply, appendTo_apply, h.conserved r]
    simp only [List.append_assoc]
  · rw [hwritten, hfreed, hpc]
    exact h.written r
  · rw [hdequeued]
    exact h.priority
  · rw [hpc] at hr
    obtain ⟨hs, hq, hhigher⟩ := h.selected r hr
    refine ⟨hseen ▸ hs, ?_, hseen ▸ hhigher⟩
    rw [hqueues, appendTo_apply]
    exact List.append_ne_nil_of_left_ne_nil hq _
  · rw [hpc, hseen]
    exact h.tested

theorem sendPktToCoex_queues (tx : CoexTx) (c : SendCall) :
    (sendPktToCoex tx c).1.coexQueues =
      if c.adapter && !c.direct then appendTo tx.coexQueues c.halQueue c.netbuf else tx.coexQueues := by
  fun_cases sendPktToCoex tx c
  all_goals simp_all [appendTo, writePkt]

theorem CoexInv.send (h : CoexInv s) (c : SendCall) : CoexInv (s.send c) := by
  have hqueues := sendPktToCoex_queues s.tx c
  by_cases hc : (c.adapter && !c.direct) = true
  · rw [if_pos hc] at hqueues
    exact h.append hqueues (if_pos hc) rfl rfl rfl rfl rfl
  · rw [if_neg hc] at hqueues
    have hsame : (s.send c).queues = s.queues := hqueues
    have harrived : (s.send c).arrived = s.arrived := if_neg hc
    refine ⟨fun r => ?_, h.written, h.priority, fun r hr => ?_, h.tested⟩
    · rw [harrived, hsame]
      exact h.conserved r
    · obtain ⟨hs, hq, hhigher⟩ := h.selected r hr
      exact ⟨hs, hsame ▸ hq, hhigher⟩

theorem CoexInv.mgmtFrame (h : CoexInv s) (alloc : Bool) (nb : CoexNetbuf) :
    CoexInv (s.oneboxCoexMgmtFrame alloc nb) := by
  cases alloc with
  | false => exact h
  | true => exact h.append rfl rfl rfl rfl rfl rfl rfl

/-- A step that moves the thread and leaves the packets where they are. -/
theorem CoexInv.moved (h : CoexInv s) {pc : CoexPc} {seen : CoexQ → List CoexNetbuf} (hheld : pc.held = s.pc.held)
    (hhandled : pc.handled = s.pc.handled)
    (hselected : ∀ q, pc.choice = some q → Selected { s with pc, seen } q)
    (htested : ∀ q, pc.tests = some q → ∀ r, r.rank < q.rank → seen r = []) : CoexInv { s with pc, seen } := by
  refine ⟨fun r => ?_, fun r => ?_, h.priority, hselected, htested⟩
  · rw [hheld]
    exact h.conserved r
  · rw [hhandled]
    exact h.written r

theorem CoexInv.take (h : CoexInv s) (hpc : s.pc = .take q) : CoexInv (s.take q) := by
  have hsel := h.selected q (by rw [hpc]; rfl)
  have hconserved := h.conserved
  have hwritten := h.written
  rw [hpc] at hconserved hwritten
  rw [CoexThread.take]
  cases hq : s.queues q with
  | nil => exact absurd hq hsel.queued
  | cons nb rest =>
    refine ⟨fun r => ?_, hwritten, fun d hd => ?_, fun r hr => (by cases hr), fun r hr => (by cases hr)⟩
    · by_cases hr : r = q
      · subst hr
        simp [hconserved r, CoexPc.held, CoexThread.queues]
        exact hq
      · simp [hconserved r, CoexPc.held, CoexThread.queues, hr]
    · rcases List.mem_append.mp hd with hd | hd
      · exact h.priority d hd
      · obtain rfl := List.mem_singleton.mp hd
        exact ⟨hsel.seen, hsel.higher⟩

theorem CoexInv.write (h : CoexInv s) (hpc : s.pc = .write q nb) (r : CoexRound) : CoexInv (s.write r q nb) := by
  have hconserved := h.conserved
  have hwritten : ∀ r, (s.written r).Sublist ((s.freed r).map CoexNetbuf.wake) := by
    intro r
    have hr := h.written r
    rw [hpc] at hr
    simpa [CoexPc.handled] using hr
  rw [hpc] at hconserved
  rw [CoexThread.write]
  split_ifs with hpass
  · refine ⟨hconserved, fun r => ?_, h.priority, fun r hr => (by cases hr), fun r hr => (by cases hr)⟩
    show (appendTo s.written q nb.wake r).Sublist ((s.freed r ++ if r = q then [nb] else []).map CoexNetbuf.wake)
    rw [appendTo_apply, List.map_append]
    refine (hwritten r).append ?_
    split_ifs
    · exact List.Sublist.refl _
    · exact List.Sublist.refl _
  · refine ⟨hconserved, fun r => ?_, h.priority, fun r hr => (by cases hr), fun r hr => (by cases hr)⟩
    rw [List.map_append]
    exact (hwritten r).trans (List.sublist_append_left _ _)

theorem afterSelect_spec (q : CoexQ) :
    (CoexThread.afterSelect q).choice = some q ∧ (CoexThread.afterSelect q).tests = none ∧
      (CoexThread.afterSelect q).held = (fun _ => []) ∧ (CoexThread.afterSelect q).handled = fun _ => [] := by
  cases q with
  | coex | bt | wlan | vip | zigb => exact ⟨rfl, rfl, rfl, rfl⟩

/-- The queues tested so far in a selection were empty. -/
theorem CoexInv.coexGetQueueNum (h : CoexInv s) (hpc : s.pc = .select q) : CoexInv (s.coexGetQueueNum q) := by
  have htested := h.tested q (by rw [hpc]; rfl)
  have hbefore : ∀ r, r.rank < q.rank → Function.update s.seen q (s.queues q) r = [] := by
    intro r hr
    have hne : r ≠ q := fun heq => absurd hr (by rw [heq]; exact lt_irrefl _)
    rw [Function.update_of_ne hne]
    exact htested r hr
  have hseen : Function.update s.seen q (s.queues q) q = s.queues q := Function.update_self q _ _
  rw [CoexThread.coexGetQueueNum]
  by_cases hlen : (s.queues q).length ≠ 0
  · have hne : s.queues q ≠ [] := fun hnil => hlen (by rw [hnil]; rfl)
    obtain ⟨hchoice, htests, hheld, hhandled⟩ := afterSelect_spec q
    rw [if_pos hlen]
    refine h.moved (by rw [hheld, hpc]; rfl) (by rw [hhandled, hpc]; rfl) (fun r hr => ?_) fun r hr => ?_
    · obtain rfl := Option.some.inj (hchoice.symm.trans hr)
      exact ⟨hseen.trans_ne hne, hne, hbefore⟩
    · rw [htests] at hr
      cases hr
  · rw [if_neg hlen]
    cases hnext : q.next with
    | none =>
      exact h.moved (by rw [hpc]; rfl) (by rw [hpc]; rfl) (fun r hr => (by cases hr)) fun r hr => (by cases hr)
    | some q' =>
      refine h.moved (by rw [hpc]; rfl) (by rw [hpc]; rfl) (fun r hr => (by cases hr)) fun r hr r' hr' => ?_
      obtain rfl : q' = r := Option.some.inj hr
      rcases CoexQ.rank_next hnext hr' with rfl | hlt
      · exact hseen.trans (List.length_eq_zero_iff.mp (not_not.mp hlen))
      · exact hbefore r' hlt

theorem vip_first (seen : CoexQ → List CoexNetbuf) (r : CoexQ) (hr : r.rank < CoexQ.vip.rank) : seen r = [] :=
  absurd hr (Nat.not_lt_zero _)

theorem CoexInv.advance (h : CoexInv s) {r : CoexRound} (ht : s.advance r = some t) : CoexInv t := by
  have hconserved := h.conserved
  have hwritten := h.written
  cases hpc : s.pc with
  | idle =>
    simp only [CoexThread.advance, hpc] at ht
    cases ht
  | select q =>
    simp only [CoexThread.advance, hpc] at ht
    cases ht
    exact h.coexGetQueueNum hpc
  | access q =>
    simp only [CoexThread.advance, hpc] at ht
    cases ht
    have hsel := h.selected q (by rw [hpc]; rfl)
    by_cases hgranted : r.granted = true
    · rw [if_pos hgranted]
      refine h.moved (by rw [hpc]; rfl) (by rw [hpc]; rfl) (fun r hr => ?_) fun r hr => (by cases hr)
      cases hr
      exact ⟨hsel.seen, hsel.queued, hsel.higher⟩
    · rw [if_neg hgranted]
      -- the packet stays where it is
      exact h.moved (by rw [hpc]; rfl) (by rw [hpc]; rfl) (fun r hr => (by cases hr)) fun r hr => (by cases hr)
  | take q =>
    simp only [CoexThread.advance, hpc] at ht
    cases ht
    exact h.take hpc
  | write q nb =>
    simp only [CoexThread.advance, hpc] at ht
    cases ht
    exact h.write hpc r
  | free q nb =>
    simp only [CoexThread.advance, hpc] at ht
    cases ht
    -- what was in hand is the last of those freed
    rw [hpc] at hconserved hwritten
    have hfreed : ∀ r, appendTo s.freed q nb r = s.freed r ++ (CoexPc.free q nb).held r :=
      fun r => appendTo_apply s.freed q nb r
    refine ⟨fun r => ?_, fun r => ?_, h.priority, fun r hr => (by cases hr), fun r hr => ?_⟩
    · show s.arrived r = appendTo s.freed q nb r ++ ([] ++ s.queues r)
      rw [hfreed, hconserved r, List.nil_append, List.append_assoc]
    · show (s.written r).Sublist ((appendTo s.freed q nb r ++ []).map CoexNetbuf.wake)
      rw [hfreed, List.append_nil]
      exact hwritten r
    · cases hr
      exact vip_first s.seen

theorem CoexInv.step (h : CoexInv s) (ht : s.step a = some t) : CoexInv t := by
  cases a with
  | send c =>
    cases ht
    exact h.send c
  | mgmtFrame alloc nb =>
    cases ht
    exact h.mgmtFrame alloc nb
  | thread r => exact h.advance ht
  | start =>
    cases hpc : s.pc with
    | idle =>
      simp only [CoexThread.step, hpc] at ht
      cases ht
      refine h.moved (by rw [hpc]; rfl) (by rw [hpc]; rfl) (fun r hr => (by cases hr)) fun r hr => ?_
      cases hr
      exact vip_first s.seen
    | _ => simp [CoexThread.step, hpc] at ht

theorem CoexInv.discipline (h : CoexInv s) : CoexDiscipline s := by
  refine ⟨h.conserved, fun q => (h.written q).trans ?_, h.priority⟩
  apply List.Sublist.map
  apply List.Sublist.append_left
  cases s.pc with
  | free q nb => exact List.Sublist.refl _
  | idle | select | access | take | write => exact List.nil_sublist _

/-- However the packets come and the thread runs, the queues keep their discipline. -/
theorem coex_discipline {as : List CoexAct} (hrun : run CoexThread.step .start as = some s) : CoexDiscipline s := by
  have hstart : CoexInv .start :=
    ⟨fun _ => rfl, fun _ => List.Sublist.refl _, fun _ h => (by cases h),
      fun _ h => (by cases h), fun _ h => (by cases h)⟩
  exact (run_preserves CoexInv.step hstart hrun).discipline

end Steps

def openRound : CoexRound := ⟨true, .wifiModeOn, false, openAssets⟩

def btSend : SendCall := { wlanSend with netbuf := ⟨[4, 0x70], 2⟩, halQueue := .bt }

/-- A Bluetooth packet is selected, the thread gives up, a management frame comes, and both are served in
the next run, the frame first. It is dropped, since its type belongs to no protocol. -/
def twoRuns : List CoexAct :=
  ([.send btSend, .start, .thread openRound, .thread openRound, .thread openRound,
    .thread { openRound with granted := false }, .mgmtFrame true ⟨[0, 0], 0⟩, .start] : List CoexAct) ++
    List.replicate 17 (.thread openRound)

theorem coex_discipline_twoRuns :
    ∃ s, run CoexThread.step .start twoRuns = some s ∧
      (s.dequeued.map Prod.fst = [.coex, .bt] ∧ (s.written .coex).length = 0 ∧ (s.written .bt).length = 1) ∧
        CoexDiscipline s :=
  exists_run_and (by decide) fun _ hs => coex_discipline hs

end Onebox
