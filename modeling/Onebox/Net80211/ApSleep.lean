import Onebox.Net80211.ApTable

/-! Frames for sleeping stations. Over whole runs the power-save queues stay bounded and agree with their
counts, every frame is sent, freed or waiting, frames for a station leave in the order in which they came, and
a station with waiting frames is announced in the traffic indication map. -/

namespace Onebox.Net80211

open Tally (total perm_entry perm_set)

variable {conf : ApConf} {c : ApCom} {ni ni' : ApNode} {r : ApStep}
variable {s : Ap} {i : Nat} {e : ApEvent} {t : ApOut}

/-! ## One queue -/

namespace PsFate

def frame : PsFate → PsFrame
  | toVap m _ _ => m
  | toParent m _ _ => m
  | free m => m

def id (f : PsFate) : Nat := f.frame.id

/-- The frames that are handed on. -/
def sent (fates : List PsFate) : List Nat :=
  fates.filterMap fun
    | toVap m _ _ => some m.id
    | toParent m _ _ => some m.id
    | free _ => none

theorem sent_free (q : List PsFrame) : sent (q.map free) = [] := by
  induction q with
  | nil => rfl
  | cons m q ih => exact ih

theorem id_free (q : List PsFrame) : (q.map free).map id = q.map (·.id) := by
  rw [List.map_map]
  rfl

theorem sent_append (fs gs : List PsFate) : sent (fs ++ gs) = sent fs ++ sent gs := List.filterMap_append

end PsFate

namespace ApNode

/-- The frames that wait for the station. -/
def ids (ni : ApNode) : List Nat := (ni.high ++ ni.low).map (·.id)

/-- The queue of a station: nothing is ever on the high priority queue, and nothing waits for a station that
is awake. -/
structure QueueOk (ni : ApNode) : Prop where
  high : ni.high = []
  len : ni.psqLen = ni.low.length
  bound : ni.psqLen ≤ psMaxQueue
  awake : ni.pwrMgt = false → ni.low = []

theorem QueueOk.ids_eq (h : ni.QueueOk) : ni.ids = ni.low.map (·.id) := by rw [ids, h.high, List.nil_append]

theorem QueueOk.low_eq_nil (h : ni.QueueOk) (hlen : ni.psqLen = 0) : ni.low = [] := by
  rw [h.len] at hlen
  exact List.eq_nil_of_length_eq_zero (by omega)

theorem queueOk_empty (hhigh : ni.high = []) (hlow : ni.low = []) (hlen : ni.psqLen = 0) : ni.QueueOk where
  high := hhigh
  len := by rw [hlen, hlow]; rfl
  bound := by rw [hlen]; decide
  awake _ := hlow

/-- The station's queue after an event: no frame is lost or made, and what is sent was first in the queue. -/
structure Serves (ni : ApNode) (offered : List Nat) (fates : List PsFate) (ni' : ApNode) : Prop where
  ok : ni'.QueueOk
  all : (fates.map PsFate.id ++ ni'.ids).Perm (ni.ids ++ offered)
  order : (PsFate.sent fates ++ ni'.ids).Sublist (ni.ids ++ offered)

theorem Serves.of_eq {offered : List Nat} {fates : List PsFate} (hok : ni'.QueueOk)
    (hall : fates.map PsFate.id ++ ni'.ids = ni.ids ++ offered)
    (hsent : PsFate.sent fates = fates.map PsFate.id) : Serves ni offered fates ni' where
  ok := hok
  all := by rw [hall]
  order := by rw [hsent, hall]

theorem serves_refl (h : ni.QueueOk) : Serves ni [] [] ni :=
  Serves.of_eq h (by simp) rfl

theorem serves_drain (hhigh : ni'.high = []) (hlow : ni'.low = []) (hlen : ni'.psqLen = 0) :
    Serves ni [] ((ni.high ++ ni.low).map .free) ni' where
  ok := queueOk_empty hhigh hlow hlen
  all := by rw [PsFate.id_free, ids, ids, hhigh, hlow]; rfl
  order := by
    rw [PsFate.sent_free, ids, hhigh, hlow]
    exact List.nil_sublist _

/-- Two events one after the other. -/
theorem Serves.trans {ni'' : ApNode} {ms ns : List Nat} {fs gs : List PsFate} (h : Serves ni ms fs ni')
    (h' : Serves ni' ns gs ni'') : Serves ni (ms ++ ns) (fs ++ gs) ni'' where
  ok := h'.ok
  all := by
    rw [List.map_append, List.append_assoc, ← List.append_assoc ni.ids]
    refine (h'.all.append_left _).trans ?_
    rw [← List.append_assoc]
    exact h.all.append_right ns
  order := by
    rw [PsFate.sent_append, List.append_assoc, ← List.append_assoc ni.ids]
    refine (h'.order.append_left _).trans ?_
    rw [← List.append_assoc]
    exact h.order.append_right ns

theorem psqEnqueue_eq (ni : ApNode) (m : PsFrame) (age : Int) (hm : m.encap = false) :
    ∃ m', m'.id = m.id ∧
      ni.psqEnqueue m age = { ni with low := ni.low ++ [m'], psqLen := ni.psqLen + 1 } := by
  rw [psqEnqueue, if_neg (by rw [hm]; exact Bool.false_ne_true)]
  split
  · next hlow =>
    rw [hlow]
    exact ⟨{ m with age := age - headAge ni.high }, rfl, rfl⟩
  · next h t hlow =>
    rw [hlow]
    exact ⟨{ m with age := age - h.age }, rfl, rfl⟩

theorem serves_pwrsave {m : PsFrame} (h : ni.QueueOk) (hm : m.encap = false) (hsleep : ni.pwrMgt = true) :
    Serves ni [m.id] (ni.pwrsave conf c m).fates (ni.pwrsave conf c m).ni := by
  rw [pwrsave]
  split
  · exact ⟨⟨h.high, h.len, h.bound, h.awake⟩, List.perm_append_comm, List.sublist_append_left _ _⟩
  · next hroom =>
    obtain ⟨m', hid, heq⟩ := psqEnqueue_eq ni m (ni.maxAge conf.bintval) hm
    dsimp only
    rw [heq]
    have hlen : ni.psqLen + 1 = ((ni.low ++ [m']).length : Int) := by
      rw [h.len, List.length_append, List.length_singleton]
      rfl
    refine Serves.of_eq ⟨h.high, hlen, ?_, fun hawake => ?_⟩ ?_ rfl
    · dsimp only
      omega
    · exact absurd (hsleep.symm.trans hawake) (by decide)
    · simp only [List.map_nil, List.nil_append, ids, h.high, List.map_append, List.map_cons, hid]

theorem sent_handTo (m : PsFrame) (more eosp : Bool) : PsFate.sent [handTo m more eosp] = [m.id] := by
  rw [handTo]
  split <;> rfl

theorem id_handTo (m : PsFrame) (more eosp : Bool) : (handTo m more eosp).id = m.id := by
  rw [handTo]
  split <;> rfl

/-- A frame is taken from the queue and handed on. -/
theorem serves_dequeue {m : PsFrame} (h : ni.QueueOk) (heq : ni.psqDequeue = (some m, ni'))
    (more eosp : Bool) : Serves ni [] [handTo m more eosp] ni' := by
  rw [psqDequeue] at heq
  split at heq
  · next hhigh => exact absurd (h.high.symm.trans hhigh) (List.cons_ne_nil _ _).symm
  · next rest hhigh hlow =>
    obtain ⟨hm, rfl⟩ := Prod.mk.inj heq
    obtain rfl := Option.some.inj hm
    have hlen := h.len
    have hbound := h.bound
    rw [hlow, List.length_cons] at hlen
    refine Serves.of_eq ⟨h.high, ?_, ?_, fun hawake => ?_⟩ ?_ ?_
    · dsimp only
      omega
    · dsimp only
      omega
    · exact absurd ((h.awake hawake).symm.trans hlow) (List.cons_ne_nil _ _).symm
    · simp only [List.map_cons, List.map_nil, id_handTo, ids, hhigh, hlow, List.nil_append, List.cons_append,
        List.append_nil]
    · rw [sent_handTo, List.map_singleton, id_handTo]
  · cases (Prod.mk.inj heq).1

theorem psqDequeue_none (heq : ni.psqDequeue = (none, ni')) : ni' = ni ∧ ni.low = [] := by
  rw [psqDequeue] at heq
  split at heq
  · cases (Prod.mk.inj heq).1
  · cases (Prod.mk.inj heq).1
  · next hlow => exact ⟨(Prod.mk.inj heq).2.symm, hlow⟩

theorem serves_recvPspoll (h : ni.QueueOk) (aid : UInt16) :
    Serves ni [] (ni.recvPspoll c aid).fates (ni.recvPspoll c aid).ni := by
  rw [recvPspoll]
  split
  · exact serves_refl h
  · split
    · exact serves_refl h
    · split
      · next heq =>
        obtain ⟨rfl, -⟩ := psqDequeue_none heq
        exact serves_refl h
      · next heq =>
        split
        · exact serves_dequeue h heq _ _
        · exact serves_dequeue h heq _ _

theorem serves_triggerLoop {k : Nat} (h : ni.QueueOk) (hrun : triggerLoop k c ni = some r) :
    Serves ni [] r.fates r.ni := by
  induction k generalizing ni r with
  | zero => cases hrun
  | succ k ih =>
    rw [triggerLoop] at hrun
    split at hrun
    · next heq =>
      obtain ⟨rfl, -⟩ := psqDequeue_none heq
      obtain rfl := Option.some.inj hrun
      exact serves_refl h
    · next m ni' heq =>
      have hfirst := serves_dequeue h heq
      split at hrun
      · obtain ⟨r', hr', rfl⟩ := Option.map_eq_some_iff.mp hrun
        exact (hfirst true false).trans (ih (hfirst true false).ok hr')
      · obtain rfl := Option.some.inj hrun
        exact hfirst false true

theorem serves_recvTriggerFrame (h : ni.QueueOk) (hrun : ni.recvTriggerFrame c = some r) :
    Serves ni [] r.fates r.ni := by
  rw [recvTriggerFrame] at hrun
  split at hrun
  · obtain rfl := Option.some.inj hrun
    exact serves_refl h
  · exact serves_triggerLoop h hrun

theorem ids_subAge (q : List PsFrame) : (subAge q).map (·.id) = q.map (·.id) := by
  cases q <;> rfl

theorem length_subAge (q : List PsFrame) : (subAge q).length = q.length := by
  cases q <;> rfl

theorem serves_psqAge (h : ni.QueueOk) : Serves ni [] ni.psqAge.2 ni.psqAge.1 := by
  rw [psqAge]
  split
  · next hlen =>
    have hsplit : tooOld ni.low ++ youngEnough ni.low = ni.low := List.takeWhile_append_dropWhile
    have hcount := congrArg List.length hsplit
    rw [List.length_append] at hcount
    have hold : tooOld ni.high = [] := by rw [h.high]; rfl
    have hyoung : youngEnough ni.high = [] := by rw [h.high]; rfl
    have hnum := h.len
    have hbound := h.bound
    rw [hold, hyoung, List.nil_append]
    refine ⟨⟨rfl, ?_, ?_, fun hawake => ?_⟩, ?_, ?_⟩
    · rw [length_subAge]
      dsimp only
      omega
    · dsimp only
      omega
    · have hnone := h.awake hawake
      rw [hnone] at hnum
      exact absurd hnum hlen
    · rw [PsFate.id_free, h.ids_eq, List.append_nil]
      show ((tooOld ni.low).map (·.id) ++ (subAge (youngEnough ni.low)).map (·.id)).Perm _
      rw [ids_subAge, ← List.map_append, hsplit]
    · rw [PsFate.sent_free, h.ids_eq, List.append_nil, List.nil_append]
      show ((subAge (youngEnough ni.low)).map (·.id)).Sublist _
      rw [ids_subAge]
      exact (List.dropWhile_sublist _).map _
  · exact serves_refl h

theorem serves_nodePwrsave (h : ni.QueueOk) (enable : Bool) :
    Serves ni [] (ni.nodePwrsave c enable).fates (ni.nodePwrsave c enable).ni := by
  rw [nodePwrsave]
  split
  · exact Serves.of_eq ⟨h.high, h.len, h.bound, fun hawake => Bool.noConfusion hawake⟩
      (List.append_nil _).symm rfl
  · dsimp only
    split
    · refine Serves.of_eq (queueOk_empty rfl rfl rfl) ?_ ?_
      · simp [pwrsaveFlushq, ids, h.high, PsFate.id, PsFate.frame, Function.comp_def]
      · simp [pwrsaveFlushq, h.high, PsFate.sent, PsFate.id, PsFate.frame, Function.comp_def,
          List.filterMap_map]
    · next hlen =>
      have hempty := h.low_eq_nil (not_not.mp hlen)
      exact Serves.of_eq ⟨h.high, h.len, h.bound, fun _ => hempty⟩ (List.append_nil _).symm rfl

theorem serves_nodeCleanup : Serves ni [] (ni.nodeCleanup c).fates (ni.nodeCleanup c).ni :=
  serves_drain rfl rfl rfl

theorem serves_nodeLeave (h : ni.QueueOk) :
    Serves ni [] (ni.nodeLeave conf c).fates (ni.nodeLeave conf c).ni := by
  rw [nodeLeave]
  split
  · exact serves_refl h
  · exact serves_drain rfl rfl rfl

theorem serves_recvAuth (h : ni.QueueOk) (marked authorize : Bool) :
    Serves ni [] (ni.recvAuth c marked authorize).fates (ni.recvAuth c marked authorize).ni := by
  rw [recvAuth, dropConnection]
  split
  · exact serves_drain rfl rfl rfl
  · exact Serves.of_eq ⟨h.high, h.len, h.bound, h.awake⟩ (List.append_nil _).symm rfl

theorem serves_start (h : ni.QueueOk) (m : PsFrame) (pae : Bool) :
    Serves ni [m.id] (ni.start conf c m pae).fates (ni.start conf c m pae).ni := by
  rw [start]
  split
  · exact ⟨h, List.perm_append_comm, List.sublist_append_left _ _⟩
  · split
    · next hsleep => exact serves_pwrsave (m := { m with encap := false }) h rfl hsleep
    · next hawake =>
      have hempty := h.awake (Bool.not_eq_true _ ▸ hawake)
      have hids : ni.ids = [] := by rw [h.ids_eq, hempty, List.map_nil]
      exact Serves.of_eq h (by rw [hids]; rfl) rfl

/-- Only fields that have nothing to do with the queue are changed. -/
theorem serves_same (h : ni.QueueOk) (hhigh : ni'.high = ni.high) (hlow : ni'.low = ni.low)
    (hlen : ni'.psqLen = ni.psqLen) (hsleep : ni'.pwrMgt = ni.pwrMgt) : Serves ni [] [] ni' := by
  refine Serves.of_eq ⟨hhigh.trans h.high, ?_, hlen ▸ h.bound, fun hawake => ?_⟩ ?_ rfl
  · rw [hlen, hlow]
    exact h.len
  · rw [hlow]
    exact h.awake (hsleep ▸ hawake)
  · rw [ids, ids, hhigh, hlow]
    exact (List.append_nil _).symm

theorem Serves.reclaim {offered : List Nat} (h : Serves ni offered r.fates r.ni) :
    Serves ni offered (Ap.reclaim (r, false)).fates (Ap.reclaim (r, false)).ni where
  ok := ⟨h.ok.high, h.ok.len, h.ok.bound, h.ok.awake⟩
  all := h.all
  order := h.order

theorem Renewed.serves (h : ni.QueueOk) (hnew : ni.Renewed conf ni') : Serves ni [] [] ni' := by
  obtain ⟨_, _, _, _, _, _, rfl, _⟩ := hnew
  exact serves_same h rfl rfl rfl rfl

end ApNode

theorem NodeOp.serves (h : ni.QueueOk) (hop : NodeOp conf c ni e r) :
    ni.Serves (e.offered.map (·.2.id)) r.fates r.ni := by
  cases hop with
  | recvAuth marked authorize => exact ApNode.serves_recvAuth h marked authorize
  | authorize on => exact ApNode.serves_same h rfl rfl rfl rfl
  | renew e quiet ni' renewed =>
    rw [ApEvent.offered_of_quiet quiet]
    exact renewed.serves h
  | leave e quiet ni' renewed =>
    rw [ApEvent.offered_of_quiet quiet]
    have hnew := renewed.serves h
    exact (hnew.trans (ApNode.serves_nodeLeave hnew.ok)).reclaim
  | join req ni' renewed aid free found =>
    have hnew := renewed.serves h
    exact hnew.trans (ApNode.serves_same hnew.ok rfl rfl rfl rfl)
  | pwrsave enable => exact ApNode.serves_nodePwrsave h enable
  | start m pae => exact ApNode.serves_start h m pae
  | pspoll aid => exact ApNode.serves_recvPspoll h aid
  | trigger r served => exact ApNode.serves_recvTriggerFrame h served
  | age => exact ApNode.serves_psqAge h
  | probe asleep => exact ApNode.serves_refl h

theorem QueueOp.macaddr (h : QueueOp c ni r) : r.ni.macaddr = ni.macaddr := by
  obtain ⟨_, _, _, _, hni⟩ := h.ni
  rw [hni]

namespace ApNode

theorem macaddr_nodeLeave : (ni.nodeLeave conf c).ni.macaddr = ni.macaddr := by
  rw [nodeLeave]
  split <;> rfl

theorem macaddr_recvAuth (marked authorize : Bool) :
    (ni.recvAuth c marked authorize).ni.macaddr = ni.macaddr := by
  rw [recvAuth, dropConnection]
  split <;> rfl

theorem macaddr_nodePwrsave (enable : Bool) : (ni.nodePwrsave c enable).ni.macaddr = ni.macaddr := by
  rw [nodePwrsave]
  split
  · rfl
  · dsimp only
    split <;> rfl

theorem Renewed.macaddr (h : ni.Renewed conf ni') : ni'.macaddr = ni.macaddr := by
  obtain ⟨_, _, _, _, _, _, rfl, _⟩ := h
  rfl

end ApNode

theorem NodeOp.macaddr (hop : NodeOp conf c ni e r) : r.ni.macaddr = ni.macaddr := by
  cases hop with
  | recvAuth marked authorize => exact ApNode.macaddr_recvAuth marked authorize
  | authorize on => rfl
  | renew e quiet ni' renewed => exact renewed.macaddr
  | leave e quiet ni' renewed => exact ApNode.macaddr_nodeLeave.trans renewed.macaddr
  | join req ni' renewed aid free found => exact renewed.macaddr
  | pwrsave enable => exact ApNode.macaddr_nodePwrsave enable
  | start m pae => exact (ApNode.queueOp_start m pae).macaddr
  | pspoll aid => exact (ApNode.queueOp_recvPspoll aid).macaddr
  | trigger r served => exact (ApNode.queueOp_recvTriggerFrame served).macaddr
  | age => exact ApNode.queueOp_nodeAge.macaddr
  | probe asleep => rfl

/-- The frames that come with an event, each with the address of its station. -/
def ApEvent.offeredIds (e : ApEvent) : List (Nat × Nat) := e.offered.map fun p => (p.1, p.2.id)

theorem NodeOp.offeredIds_eq (hop : NodeOp conf c ni e r) :
    e.offeredIds = (e.offered.map (·.2.id)).map (ni.macaddr, ·) := by
  cases hop with
  | renew e quiet | leave e quiet => rw [ApEvent.offeredIds, ApEvent.offered_of_quiet quiet]; rfl
  | recvAuth | authorize | join | pwrsave | start | pspoll | trigger | age | probe => rfl

/-! ## All queues -/

/-- The frames that wait for the station, each with its address. -/
def ApNode.heldBy (ni : ApNode) : Multiset (Nat × Nat) := (ni.ids.map (ni.macaddr, ·) : List (Nat × Nat))

namespace Ap

/-- All the frames that wait. -/
def held (s : Ap) : Multiset (Nat × Nat) := total ApNode.heldBy s.nodes

def QueuesOk (s : Ap) : Prop := ∀ ni ∈ s.nodes, ni.QueueOk

theorem QueuesOk.set (h : s.QueuesOk) (hni : ni.QueueOk) (c : ApCom) : QueuesOk ⟨c, s.nodes.set i ni⟩ := by
  intro ni' hmem
  rcases List.mem_or_eq_of_mem_set hmem with hmem | rfl
  · exact h ni' hmem
  · exact hni

theorem QueuesOk.move (hs : s.QueuesOk) (h : ApMove conf s e t) : t.1.QueuesOk := by
  cases h with
  | idle | refused | unknown | tbtt | construct => exact hs
  | node e i ni r found at_i present op =>
    exact hs.set (op.serves (hs ni (List.mem_of_getElem? at_i))).ok r.com
  | newNode mac authorize unknown =>
    intro ni hmem
    rcases List.mem_cons.mp hmem with rfl | hmem
    · exact ApNode.queueOk_empty rfl rfl rfl
    · exact hs ni hmem
  | release i ni at_i gone => exact fun ni' hmem => hs ni' (List.mem_of_mem_eraseIdx hmem)
  | beacon e quiet c op => exact hs

/-- The frames that went somewhere. -/
def fateIds (fates : List (Nat × PsFate)) : List (Nat × Nat) := fates.map fun p => (p.1, p.2.id)

theorem fateIds_tag (mac : Nat) (fates : List PsFate) :
    fateIds (fates.map (mac, ·)) = (fates.map PsFate.id).map (mac, ·) := by
  rw [fateIds, List.map_map, List.map_map]
  rfl

theorem held_move (hs : s.QueuesOk) (h : ApMove conf s e t) :
    (fateIds t.2 : Multiset _) + t.1.held = s.held + (e.offeredIds : Multiset _) := by
  cases h with
  | idle e quiet | beacon e quiet =>
    rw [ApEvent.offeredIds, ApEvent.offered_of_quiet quiet]
    exact add_comm _ _
  | refused | unknown | tbtt | construct => exact add_comm _ _
  | newNode mac authorize unknown =>
    have hnew := Tally.total_cons ApNode.heldBy
      { macaddr := mac, needAssocid := true, auth := authorize } s.nodes
    exact (zero_add _).trans (hnew.trans ((zero_add _).trans (add_zero _).symm))
  | node e i ni r found at_i present op =>
    have hserves := op.serves (hs ni (List.mem_of_getElem? at_i))
    refine Tally.set_of_exchange at_i ?_
    rw [fateIds_tag, op.offeredIds_eq, ApNode.heldBy, ApNode.heldBy, op.macaddr, Multiset.coe_add,
      Multiset.coe_add, ← List.map_append, ← List.map_append]
    exact Multiset.coe_eq_coe.mpr (hserves.all.map _)
  | release i ni at_i gone =>
    have hserves : ni.Serves [] (ni.freeNode s.com).fates (ni.freeNode s.com).ni := ApNode.serves_nodeCleanup
    have hall := hserves.all
    rw [show (ni.freeNode s.com).ni.ids = [] from rfl, List.append_nil, List.append_nil] at hall
    show ((fateIds ((ni.freeNode s.com).fates.map (ni.macaddr, ·)) : List _) : Multiset _) + _ = s.held + 0
    rw [fateIds_tag, Multiset.coe_eq_coe.mpr (hall.map _), add_zero]
    exact (Tally.total_eq_add (w := ApNode.heldBy) at_i).symm

theorem held_run {es : List ApEvent} (hs : s.QueuesOk) (h : s.run conf es = some t) :
    (fateIds t.2 : Multiset _) + t.1.held = s.held + (es.flatMap ApEvent.offeredIds : Multiset _) := by
  induction es generalizing s t with
  | nil =>
    obtain rfl := Option.some.inj h
    exact add_comm _ _
  | cons e es ih =>
    obtain ⟨u, v, hu, hv, rfl⟩ := run_cons h
    have hfirst := held_move hs hu
    have hrest := ih (t := v) (hs.move hu) hv
    have hfates : fateIds (u.2 ++ v.2) = fateIds u.2 ++ fateIds v.2 := List.map_append
    rw [List.flatMap_cons, hfates, ← Multiset.coe_add, ← Multiset.coe_add, add_assoc, hrest, ← add_assoc,
      hfirst, add_assoc]

/-! ## The order of frames for one station -/

/-- The frames that wait for the station with an address. -/
def waiting (mac : Nat) (nodes : List ApNode) : List Nat :=
  (nodes.filter fun ni => !ni.gone && ni.macaddr == mac).flatMap ApNode.ids

/-- The frames that were handed on for the station with an address. -/
def sentTo (mac : Nat) (fates : List (Nat × PsFate)) : List Nat :=
  PsFate.sent ((fates.filter fun p => p.1 == mac).map (·.2))

/-- The frames that came for the station with an address. -/
def offeredTo (mac : Nat) (es : List ApEvent) : List Nat :=
  ((es.flatMap ApEvent.offeredIds).filter fun p => p.1 == mac).map (·.2)

/-- No two stations of the table have the same address. -/
def Distinct (nodes : List ApNode) : Prop :=
  nodes.Pairwise fun a b => a.gone = false → b.gone = false → a.macaddr ≠ b.macaddr

variable {mac : Nat} {nodes : List ApNode}

theorem waiting_append (l l' : List ApNode) : waiting mac (l ++ l') = waiting mac l ++ waiting mac l' := by
  rw [waiting, List.filter_append, List.flatMap_append, waiting, waiting]

theorem waiting_cons_of_ne (h : ni.macaddr ≠ mac) : waiting mac (ni :: nodes) = waiting mac nodes := by
  rw [waiting, List.filter_cons_of_neg (by simp [h]), waiting]

theorem waiting_cons_gone (h : ni.gone = true) : waiting mac (ni :: nodes) = waiting mac nodes := by
  rw [waiting, List.filter_cons_of_neg (by simp [h]), waiting]

theorem waiting_cons_self (h : ni.gone = false) (hmac : ni.macaddr = mac) :
    waiting mac (ni :: nodes) = ni.ids ++ waiting mac nodes := by
  rw [waiting, List.filter_cons_of_pos (by simp [h, hmac]), List.flatMap_cons, waiting]

theorem waiting_eq_nil (h : ∀ ni ∈ nodes, ni.gone = false → ni.macaddr ≠ mac) : waiting mac nodes = [] := by
  induction nodes with
  | nil => rfl
  | cons ni nodes ih =>
    have hrest := ih fun ni' hmem => h ni' (List.mem_cons_of_mem _ hmem)
    cases hgone : ni.gone with
    | true => rw [waiting_cons_gone hgone, hrest]
    | false => rw [waiting_cons_of_ne (h ni List.mem_cons_self hgone), hrest]

theorem sentTo_append (fs gs : List (Nat × PsFate)) :
    sentTo mac (fs ++ gs) = sentTo mac fs ++ sentTo mac gs := by
  rw [sentTo, List.filter_append, List.map_append, PsFate.sent_append, sentTo, sentTo]

theorem sentTo_tag_self (fates : List PsFate) : sentTo mac (fates.map (mac, ·)) = PsFate.sent fates := by
  have hall : (fates.map (mac, ·)).filter (fun p => p.1 == mac) = fates.map (mac, ·) :=
    List.filter_eq_self.mpr (by simp)
  rw [sentTo, hall, List.map_map]
  exact congrArg PsFate.sent (List.map_id _)

theorem sentTo_tag_of_ne {mac' : Nat} (h : mac' ≠ mac) (fates : List PsFate) :
    sentTo mac (fates.map (mac', ·)) = [] := by
  have hnone : (fates.map (mac', ·)).filter (fun p => p.1 == mac) = [] :=
    List.filter_eq_nil_iff.mpr (by simp [h])
  rw [sentTo, hnone]
  rfl

theorem sentTo_free (mac' : Nat) (q : List PsFrame) : sentTo mac ((q.map .free).map (mac', ·)) = [] := by
  by_cases h : mac' = mac
  · rw [h, sentTo_tag_self, PsFate.sent_free]
  · exact sentTo_tag_of_ne h _

theorem offeredTo_cons (es : List ApEvent) :
    offeredTo mac (e :: es) = offeredTo mac [e] ++ offeredTo mac es := by
  simp only [offeredTo, List.flatMap_cons, List.flatMap_nil, List.filter_append, List.map_append,
    List.append_nil]

/-- What a station's event does to the frames for an address. -/
theorem order_node {l₁ l₂ : List ApNode} (hdistinct : Distinct (l₁ ++ ni :: l₂)) (hgone : ni.gone = false)
    (hok : ni.QueueOk) (hop : NodeOp conf c ni e r) :
    (sentTo mac (r.fates.map (ni.macaddr, ·)) ++ waiting mac (l₁ ++ r.ni :: l₂)).Sublist
      (waiting mac (l₁ ++ ni :: l₂) ++ offeredTo mac [e]) := by
  obtain ⟨-, hright, hleft⟩ := List.pairwise_append.mp hdistinct
  by_cases hmac : ni.macaddr = mac
  · subst hmac
    have hnil₁ : waiting ni.macaddr l₁ = [] :=
      waiting_eq_nil fun ni' hmem hgone' => hleft ni' hmem ni List.mem_cons_self hgone' hgone
    have hnil₂ : waiting ni.macaddr l₂ = [] :=
      waiting_eq_nil fun ni' hmem hgone' => ((List.pairwise_cons.mp hright).1 ni' hmem hgone hgone').symm
    have hafter : (waiting ni.macaddr (r.ni :: l₂)).Sublist r.ni.ids := by
      cases hgone' : r.ni.gone with
      | true =>
        rw [waiting_cons_gone hgone', hnil₂]
        exact List.nil_sublist _
      | false => rw [waiting_cons_self hgone' hop.macaddr, hnil₂, List.append_nil]
    have hoffered : offeredTo ni.macaddr [e] = e.offered.map (·.2.id) := by
      rw [offeredTo, List.flatMap_cons, List.flatMap_nil, List.append_nil, hop.offeredIds_eq,
        List.filter_eq_self.mpr fun p hp => ?_, List.map_map]
      · exact List.map_id _
      · obtain ⟨_, -, rfl⟩ := List.mem_map.mp hp
        exact beq_self_eq_true _
    rw [sentTo_tag_self, waiting_append, waiting_append, hnil₁, waiting_cons_self hgone rfl, hnil₂, hoffered,
      List.nil_append, List.nil_append, List.append_nil]
    exact (hafter.append_left _).trans (hop.serves hok).order
  · have hmac' : r.ni.macaddr ≠ mac := hop.macaddr ▸ hmac
    rw [sentTo_tag_of_ne hmac, waiting_append, waiting_append, waiting_cons_of_ne hmac,
      waiting_cons_of_ne hmac', List.nil_append]
    exact List.sublist_append_left _ _

theorem order_move (mac : Nat) (hdistinct : Distinct s.nodes) (hs : s.QueuesOk) (h : ApMove conf s e t) :
    (sentTo mac t.2 ++ waiting mac t.1.nodes).Sublist (waiting mac s.nodes ++ offeredTo mac [e]) := by
  cases h with
  | idle | refused | tbtt | construct | beacon => exact List.sublist_append_left _ _
  | unknown mac' m pae =>
    have hsent : sentTo mac [(mac', .free { m with encap := false })] = [] := sentTo_free mac' [_]
    rw [hsent]
    exact List.sublist_append_left _ _
  | newNode mac' authorize unknown =>
    by_cases hmac : mac' = mac
    · show (waiting mac (_ :: s.nodes)).Sublist _
      rw [waiting_cons_self rfl hmac]
      exact List.sublist_append_left _ _
    · show (waiting mac (_ :: s.nodes)).Sublist _
      rw [waiting_cons_of_ne hmac]
      exact List.sublist_append_left _ _
  | node e i ni r found at_i present op =>
    have hok := hs ni (List.mem_of_getElem? at_i)
    obtain ⟨l₁, l₂, hnodes, hset, -⟩ := Tally.split_entry at_i
    rw [hset, hnodes]
    rw [hnodes] at hdistinct
    exact order_node hdistinct present hok op
  | release i ni at_i gone =>
    obtain ⟨l₁, l₂, hnodes, -, herase⟩ := Tally.split_entry at_i
    have hsent : sentTo mac ((ni.freeNode s.com).fates.map (ni.macaddr, ·)) = [] :=
      sentTo_free ni.macaddr (ni.high ++ ni.low)
    rw [hsent, herase, hnodes, waiting_append, waiting_append, waiting_cons_gone gone]
    exact List.sublist_append_left _ _

theorem Distinct.move (hs : Distinct s.nodes) (h : ApMove conf s e t) : Distinct t.1.nodes := by
  cases h with
  | idle | refused | tbtt | construct | beacon | unknown => exact hs
  | newNode mac authorize unknown =>
    refine List.pairwise_cons.mpr ⟨fun ni hmem _ hgone => ?_, hs⟩
    rcases findNode_eq_none unknown hmem with hgone' | hmac
    · exact absurd (hgone.symm.trans hgone') (by decide)
    · exact hmac.symm
  | node e i ni r found at_i present op =>
    obtain ⟨l₁, l₂, hnodes, hset, -⟩ := Tally.split_entry at_i
    rw [hnodes] at hs
    show Distinct (s.nodes.set i r.ni)
    rw [hset]
    obtain ⟨hl₁, hright, hcross⟩ := List.pairwise_append.mp hs
    obtain ⟨hni, hl₂⟩ := List.pairwise_cons.mp hright
    refine List.pairwise_append.mpr ⟨hl₁, List.pairwise_cons.mpr ⟨fun b hb _ hgone => ?_, hl₂⟩, ?_⟩
    · rw [op.macaddr]
      exact hni b hb present hgone
    · intro a ha b hb hgone hgone'
      rcases List.mem_cons.mp hb with rfl | hb
      · rw [op.macaddr]
        exact hcross a ha ni List.mem_cons_self hgone present
      · exact hcross a ha b (List.mem_cons_of_mem _ hb) hgone hgone'
  | release i ni at_i gone => exact hs.sublist (List.eraseIdx_sublist _ _)

theorem order_run {es : List ApEvent} (hdistinct : Distinct s.nodes) (hs : s.QueuesOk)
    (h : s.run conf es = some t) :
    (sentTo mac t.2 ++ waiting mac t.1.nodes).Sublist (waiting mac s.nodes ++ offeredTo mac es) := by
  induction es generalizing s t with
  | nil =>
    obtain rfl := Option.some.inj h
    exact List.sublist_append_left _ _
  | cons e es ih =>
    obtain ⟨u, v, hu, hv, rfl⟩ := run_cons h
    have hfirst := order_move mac hdistinct hs hu
    have hrest := ih (t := v) (hdistinct.move hu) (hs.move hu) hv
    rw [sentTo_append, offeredTo_cons, List.append_assoc, ← List.append_assoc (waiting mac s.nodes)]
    refine (hrest.append_left _).trans ?_
    rw [← List.append_assoc]
    exact hfirst.append_right _

/-- Every frame that comes for a station is sent on, freed or waits, once, and the frames for a station are
sent in the order in which they came. -/
theorem run_custody (conf : ApConf) (es : List ApEvent) :
    ∃ t, ({} : Ap).run conf es = some t ∧
      (fateIds t.2 : Multiset _) + t.1.held = (es.flatMap ApEvent.offeredIds : Multiset _) ∧
      ∀ mac, (sentTo mac t.2 ++ waiting mac t.1.nodes).Sublist (offeredTo mac es) := by
  obtain ⟨t, ht⟩ := exists_run conf {} es
  have hok : ({} : Ap).QueuesOk := fun _ hmem => absurd hmem List.not_mem_nil
  have hdistinct : Distinct ({} : Ap).nodes := List.Pairwise.nil
  refine ⟨t, ht, ?_, fun mac => order_run hdistinct hok ht⟩
  rw [held_run hok ht]
  exact zero_add _

end Ap

end Onebox.Net80211
