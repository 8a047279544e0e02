import Onebox.Net80211.ApSleep

/-! What the access point says about sleeping stations. The counts of sleeping stations and of traffic
indication bits are exact over whole runs, and every station with waiting frames has its bit set, unless an
authentication frame ends a connection without marking the node. -/

namespace Onebox.Net80211

open Tally (total)

variable {conf : ApConf} {c c' : ApCom} {ni : ApNode} {r : ApStep}
variable {s : Ap} {i : Nat} {e : ApEvent} {t : ApOut}

/-! ## Sleeping stations -/

namespace ApNode

def asleep (ni : ApNode) : UInt16 := if ni.pwrMgt then 1 else 0

end ApNode

/-- The count of sleeping stations follows one station. -/
def SleepStep (c : ApCom) (ni : ApNode) (r : ApStep) : Prop :=
  r.com.psSta = c.psSta - ni.asleep + r.ni.asleep

theorem sleepStep_same (hcom : r.com.psSta = c.psSta) (hni : r.ni.pwrMgt = ni.pwrMgt) : SleepStep c ni r := by
  rw [SleepStep, hcom, ApNode.asleep, ApNode.asleep, hni, sub_add_cancel]

theorem QueueOp.sleepStep (h : QueueOp c ni r) : SleepStep c ni r := by
  obtain ⟨_, _, _, _, hni⟩ := h.ni
  refine sleepStep_same ?_ (by rw [hni])
  rcases h.com with hcom | ⟨set, hcom⟩
  · rw [hcom]
  · rw [hcom, ApCom.psSta_setTim]

namespace ApNode

theorem psSta_nodeCleanup : (ni.nodeCleanup c).com.psSta = c.psSta - ni.asleep := by
  rw [nodeCleanup, asleep]
  dsimp only
  split <;> cases ni.pwrMgt <;> simp

theorem psSta_of_core (h : c'.core = c.core) : c'.psSta = c.psSta := by
  show c'.core.psSta = c.core.psSta
  rw [h]

theorem psSta_nodeJoinAt (aid : Nat) : (ni.nodeJoinAt conf c aid).com.psSta = c.psSta := by
  rw [nodeJoinAt]
  dsimp only
  rw [psSta_of_core ApCom.core_joinBss]

theorem sleepStep_nodeLeave : SleepStep c ni (ni.nodeLeave conf c) := by
  rw [nodeLeave]
  split
  · exact sleepStep_same rfl rfl
  · rw [SleepStep, psSta_nodeCleanup, psSta_of_core ApCom.core_leaveBss]
    exact (add_zero _).symm

theorem sleepStep_recvAuth (marked authorize : Bool) : SleepStep c ni (ni.recvAuth c marked authorize) := by
  rw [recvAuth, dropConnection]
  split
  · rw [SleepStep, psSta_nodeCleanup]
    exact (add_zero _).symm
  · exact sleepStep_same rfl rfl

theorem sleepStep_nodePwrsave (enable : Bool) : SleepStep c ni (ni.nodePwrsave c enable) := by
  rw [nodePwrsave, SleepStep]
  split
  · cases h : ni.pwrMgt <;> simp [asleep, h]
  · dsimp only
    split <;> cases h : ni.pwrMgt <;> simp [asleep, h, pwrsaveFlushq]

end ApNode

theorem NodeOp.sleepStep (hop : NodeOp conf c ni e r) : SleepStep c ni r := by
  cases hop with
  | recvAuth marked authorize => exact ApNode.sleepStep_recvAuth marked authorize
  | authorize on => exact sleepStep_same rfl rfl
  | renew e quiet ni' renewed =>
    obtain ⟨_, _, _, _, _, _, rfl, _⟩ := renewed
    exact sleepStep_same rfl rfl
  | leave e quiet ni' renewed =>
    obtain ⟨_, _, _, _, _, _, rfl, _⟩ := renewed
    exact ApNode.sleepStep_nodeLeave
  | join req ni' renewed aid free found =>
    obtain ⟨_, _, _, _, _, _, rfl, _⟩ := renewed
    exact sleepStep_same (ApNode.psSta_nodeJoinAt aid) rfl
  | pwrsave enable => exact ApNode.sleepStep_nodePwrsave enable
  | start m pae => exact (ApNode.queueOp_start m pae).sleepStep
  | pspoll aid => exact (ApNode.queueOp_recvPspoll aid).sleepStep
  | trigger r served => exact (ApNode.queueOp_recvTriggerFrame served).sleepStep
  | age => exact ApNode.queueOp_nodeAge.sleepStep
  | probe asleep => exact sleepStep_same (ApCom.psSta_setTim _ _) rfl

/-- The count of sleeping stations, of those that have left but are not freed as well. -/
def Ap.SleepOk (s : Ap) : Prop := s.com.psSta = total ApNode.asleep s.nodes

theorem Ap.SleepOk.move (hs : s.SleepOk) (h : ApMove conf s e t) : t.1.SleepOk := by
  cases h with
  | idle | refused | unknown | tbtt | construct => exact hs
  | newNode mac authorize unknown =>
    have hnew := Tally.total_cons ApNode.asleep
      { macaddr := mac, needAssocid := true, auth := authorize } s.nodes
    exact hs.trans ((zero_add _).symm.trans hnew.symm)
  | node e i ni r found at_i present op =>
    exact Tally.set_of_step at_i hs op.sleepStep
  | release i ni at_i gone =>
    refine Tally.eraseIdx_of_step at_i hs ?_
    show (ni.freeNode s.com).com.psSta = s.com.psSta - ni.asleep
    rw [ApNode.freeNode, ApNode.psSta_nodeCleanup]
    split <;> rfl
  | beacon e quiet c op => exact (ApNode.psSta_of_core op.core_eq).trans hs

/-! ## Traffic indication bits -/

/-- The traffic indication bits, their count, whether they are newer than the beacon, and its element. -/
structure TimState where
  bitmap : Nat → Bool
  pending : UInt16
  flag : Bool
  tie : TimIe

namespace ApCom

def tim (c : ApCom) : TimState := ⟨c.timBitmap, c.psPending, c.timFlag, c.tie⟩

theorem timBitmap_of_tim (h : c'.tim = c.tim) : c'.timBitmap = c.timBitmap := (TimState.mk.inj h).1

theorem timBitmap_setTim (c : ApCom) (associd : UInt16) (set : Bool) :
    (c.setTim associd set).timBitmap = Function.update c.timBitmap (aidOf associd) set := by
  rw [setTim]
  split
  · next h => rw [h, Function.update_eq_self]
  · split
    · next hset => rw [hset]
    · next hset => rw [Bool.eq_false_iff.mpr hset]

theorem tim_setTim_congr (h : c'.tim = c.tim) (associd : UInt16) (set : Bool) :
    (c'.setTim associd set).tim = (c.setTim associd set).tim := by
  obtain ⟨hbits, hcount, hflag, htie⟩ := TimState.mk.inj h
  rw [setTim, setTim, hbits]
  split
  · exact h
  · split <;> rw [tim, tim, hcount, htie]

theorem tim_of_core (h : c'.core = c.core) : c'.tim = c.tim := by
  show c'.core.tim = c.core.tim
  rw [h]

/-- The count of pending stations is the number of traffic indication bits that are set. -/
def PendingOk (c : ApCom) : Prop :=
  c.psPending.toNat = ((Finset.range 0x4000).filter fun aid => c.timBitmap aid = true).card

theorem aidOf_zero : aidOf 0 = 0 := rfl

theorem aidOf_lt (associd : UInt16) : aidOf associd < 0x4000 := by
  rw [aidOf, UInt16.toNat_and]
  exact Nat.and_lt_two_pow associd.toNat (show (0x3fff : UInt16).toNat < 2 ^ 14 by decide)

theorem PendingOk.setTim (h : c.PendingOk) (associd : UInt16) (set : Bool) :
    (c.setTim associd set).PendingOk := by
  have hmem : aidOf associd ∈ Finset.range 0x4000 := Finset.mem_range.mpr (aidOf_lt associd)
  have hmax : ∀ bits : Nat → Bool, ((Finset.range 0x4000).filter fun aid => bits aid = true).card ≤ 0x4000 :=
    fun bits => (Finset.card_filter_le _ _).trans (Finset.card_range _).le
  rw [ApCom.setTim]
  split
  · exact h
  · next hne =>
    split
    · next hset =>
      have hclear : c.timBitmap (aidOf associd) = false := by
        rw [hset] at hne
        exact Bool.eq_false_iff.mpr (Ne.symm hne)
      have hcard := Tally.card_update_true hmem hclear
      have hlt := hmax (Function.update c.timBitmap (aidOf associd) true)
      rw [PendingOk] at h ⊢
      rw [hcard, ← h] at hlt
      rw [hcard, ← h, UInt16.toNat_add]
      exact Nat.mod_eq_of_lt (by change c.psPending.toNat + 1 < 65536; omega)
    · next hset =>
      have hbit : c.timBitmap (aidOf associd) = true := by
        rw [Bool.eq_false_iff.mpr hset] at hne
        exact (Bool.eq_true_of_not_eq_false (Ne.symm hne))
      have hcard := Tally.card_update_false hmem hbit
      rw [PendingOk] at h ⊢
      rw [← h] at hcard
      have hle : (1 : UInt16) ≤ c.psPending := UInt16.le_iff_toNat_le.mpr (by change 1 ≤ _; omega)
      rw [UInt16.toNat_sub_of_le _ _ hle]
      exact (Nat.eq_sub_of_add_eq hcard).symm

theorem PendingOk.of_tim (h : c.PendingOk) (htim : c'.tim = c.tim) : c'.PendingOk := by
  obtain ⟨hbits, hcount, -, -⟩ := TimState.mk.inj htim
  rw [PendingOk, hbits, hcount]
  exact h

end ApCom

/-- At most one bit changes: that of the station, or bit 0 is cleared. -/
inductive TimStep (c : ApCom) (ni : ApNode) (r : ApStep) : Prop
  | keep (tim : r.com.tim = c.tim)
  | own (set : Bool) (tim : r.com.tim = (c.setTim ni.associd set).tim)
  | zero (tim : r.com.tim = (c.setTim 0 false).tim)

theorem QueueOp.timStep (h : QueueOp c ni r) : TimStep c ni r := by
  rcases h.com with hcom | ⟨set, hcom⟩
  · exact .keep (by rw [hcom])
  · exact .own set (by rw [hcom])

theorem TimStep.pendingOk (h : TimStep c ni r) (hc : c.PendingOk) : r.com.PendingOk := by
  cases h with
  | keep tim => exact hc.of_tim tim
  | own set tim => exact (hc.setTim ni.associd set).of_tim tim
  | zero tim => exact (hc.setTim 0 false).of_tim tim

/-- The bits of other identifiers stay. -/
theorem TimStep.other {aid : Nat} (h : TimStep c ni r) (hpos : aid ≠ 0) (hother : aid ≠ aidOf ni.associd) :
    r.com.timBitmap aid = c.timBitmap aid := by
  cases h with
  | keep tim => rw [ApCom.timBitmap_of_tim tim]
  | own set tim => rw [ApCom.timBitmap_of_tim tim, ApCom.timBitmap_setTim, Function.update_of_ne hother]
  | zero tim =>
    rw [ApCom.timBitmap_of_tim tim, ApCom.timBitmap_setTim, ApCom.aidOf_zero, Function.update_of_ne hpos]

namespace ApNode

theorem tim_nodeCleanup (c : ApCom) (ni : ApNode) :
    (ni.nodeCleanup c).com.tim = c.tim ∨ (ni.nodeCleanup c).com.tim = (c.setTim ni.associd false).tim := by
  have hsleep : (if ni.pwrMgt then { c with psSta := c.psSta - 1 } else c).tim = c.tim := by
    split <;> rfl
  rw [nodeCleanup]
  dsimp only
  split
  · exact .inr (ApCom.tim_setTim_congr hsleep _ _)
  · exact .inl hsleep

/-- The identifier is gone before the queue is drained, so it is bit 0 that is cleared. -/
theorem tim_nodeCleanup_zero (hid : ni.associd = 0) (htim : c'.tim = c.tim) :
    (ni.nodeCleanup c').com.tim = c.tim ∨ (ni.nodeCleanup c').com.tim = (c.setTim 0 false).tim := by
  rcases ni.tim_nodeCleanup c' with h | h
  · exact .inl (h.trans htim)
  · rw [hid] at h
    exact .inr (h.trans (ApCom.tim_setTim_congr htim _ _))

theorem tim_nodeLeave (conf : ApConf) (c : ApCom) (ni : ApNode) :
    (ni.nodeLeave conf c).com.tim = c.tim ∨ (ni.nodeLeave conf c).com.tim = (c.setTim 0 false).tim := by
  rw [nodeLeave]
  split
  · exact .inl rfl
  · refine tim_nodeCleanup_zero rfl ?_
    rw [ApCom.tim_of_core ApCom.core_leaveBss]
    rfl

theorem tim_recvAuth (marked authorize : Bool) :
    (ni.recvAuth c marked authorize).com.tim = c.tim ∨
      (ni.recvAuth c marked authorize).com.tim = (c.setTim 0 false).tim := by
  rw [recvAuth, dropConnection]
  split
  · exact tim_nodeCleanup_zero rfl rfl
  · exact .inl rfl

theorem tim_nodeJoinAt (aid : Nat) : (ni.nodeJoinAt conf c aid).com.tim = c.tim := by
  rw [nodeJoinAt]
  dsimp only
  rw [ApCom.tim_of_core ApCom.core_joinBss]
  rfl

theorem timStep_nodePwrsave (enable : Bool) : TimStep c ni (ni.nodePwrsave c enable) := by
  have hsleep : (if ni.pwrMgt then { c with psSta := c.psSta - 1 } else c).tim = c.tim := by
    split <;> rfl
  rw [nodePwrsave]
  split
  · exact .keep (by dsimp only; split <;> rfl)
  · dsimp only
    split <;> exact .own false (ApCom.tim_setTim_congr hsleep _ _)

end ApNode

theorem timStep_of_zero (h : r.com.tim = c.tim ∨ r.com.tim = (c.setTim 0 false).tim) : TimStep c ni r :=
  h.elim .keep .zero

theorem NodeOp.timStep (hop : NodeOp conf c ni e r) : TimStep c ni r := by
  cases hop with
  | recvAuth marked authorize => exact timStep_of_zero (ApNode.tim_recvAuth marked authorize)
  | authorize | renew => exact .keep rfl
  | leave e quiet ni' renewed => exact timStep_of_zero (ni'.tim_nodeLeave conf c)
  | join req ni' renewed aid free found => exact .keep (ApNode.tim_nodeJoinAt aid)
  | pwrsave enable => exact ApNode.timStep_nodePwrsave enable
  | start m pae => exact (ApNode.queueOp_start m pae).timStep
  | pspoll aid => exact (ApNode.queueOp_recvPspoll aid).timStep
  | trigger r served => exact (ApNode.queueOp_recvTriggerFrame served).timStep
  | age => exact ApNode.queueOp_nodeAge.timStep
  | probe asleep => exact .own true rfl

theorem ApNode.timStep_freeNode : TimStep c ni (ni.freeNode c) := by
  have hgive : (if ni.associd ≠ 0 then
      { c with aidBitmap := Function.update c.aidBitmap (aidOf ni.associd) false } else c).tim = c.tim := by
    split <;> rfl
  rw [ApNode.freeNode]
  rcases ni.tim_nodeCleanup _ with h | h
  · exact .keep (h.trans hgive)
  · exact .own false (h.trans (ApCom.tim_setTim_congr hgive _ _))

theorem ApCom.PendingOk.move (hs : s.com.PendingOk) (h : ApMove conf s e t) : t.1.com.PendingOk := by
  cases h with
  | idle | refused | unknown | newNode | tbtt | construct => exact hs
  | node e i ni r found at_i present op => exact op.timStep.pendingOk hs
  | release i ni at_i gone => exact ApNode.timStep_freeNode.pendingOk hs
  | beacon e quiet c op => exact hs.of_tim (ApCom.tim_of_core op.core_eq)

namespace Ap

/-- Whatever stations do, the power-save queues are bounded and agree with their lengths, frames wait only for
sleeping stations, and the counts of sleeping stations and of traffic indication bits are exact. -/
theorem run_counts (conf : ApConf) (es : List ApEvent) :
    ∃ t, ({} : Ap).run conf es = some t ∧ t.1.QueuesOk ∧
      t.1.com.psSta = UInt16.ofNat (t.1.nodes.countP (·.pwrMgt)) ∧ t.1.com.PendingOk := by
  obtain ⟨t, ht⟩ := exists_run conf {} es
  have hqueues : t.1.QueuesOk :=
    run_induct (fun _ _ _ h hs => QueuesOk.move hs h) (fun _ hmem => absurd hmem List.not_mem_nil) ht
  have hinit : ({} : Ap).SleepOk := rfl
  have hsleep : t.1.SleepOk := run_induct (fun _ _ _ h hs => SleepOk.move hs h) hinit ht
  have hpending : t.1.com.PendingOk :=
    run_induct (P := fun s => s.com.PendingOk) (fun _ _ _ h hs => hs.move h) (by simp [ApCom.PendingOk]) ht
  refine ⟨t, ht, hqueues, ?_, hpending⟩
  rw [← Tally.total_indicator]
  exact hsleep

end Ap

/-! ## Announced stations -/

namespace ApNode

/-- Frames that wait for the station are announced; a station without an identifier is marked, so that no
frame is kept for it. -/
structure Listed (c : ApCom) (ni : ApNode) : Prop where
  marked : ni.gone = false → ni.associd = 0 → ni.needAssocid = true
  tim : ni.low ≠ [] → ni.associd ≠ 0 ∧ c.timBitmap (aidOf ni.associd) = true

theorem Listed.low_eq_nil (h : ni.Listed c) (hid : ni.associd = 0) : ni.low = [] :=
  not_not.mp fun hlow => (h.tim hlow).1 hid

theorem Serves.low_ne_nil {fates : List PsFate} {ni' : ApNode} (h : ni.Serves [] fates ni') (hok : ni.QueueOk)
    (hlow : ni'.low ≠ []) : ni.low ≠ [] := by
  intro hnil
  have hsub := (List.sublist_append_right _ _).trans h.order
  rw [List.append_nil, hok.ids_eq, h.ok.ids_eq, hnil, List.map_nil] at hsub
  exact hlow (List.map_eq_nil_iff.mp (List.sublist_nil.mp hsub))

theorem Requeued.listed {ni' : ApNode} (hni : ni.Requeued ni') (h : ni.Listed c)
    (htim : ni'.low ≠ [] → ni.associd ≠ 0 ∧ c'.timBitmap (aidOf ni.associd) = true) : ni'.Listed c' := by
  obtain ⟨_, _, _, _, rfl⟩ := hni
  exact ⟨h.marked, htim⟩

theorem listed_pwrsave {m : PsFrame} (h : ni.Listed c) (hok : ni.QueueOk) (hid : ni.associd ≠ 0)
    (hm : m.encap = false) : (ni.pwrsave conf c m).ni.Listed (ni.pwrsave conf c m).com := by
  refine (queueOp_pwrsave m).ni.listed h ?_
  obtain ⟨m', -, heq⟩ := psqEnqueue_eq ni m (ni.maxAge conf.bintval) hm
  rw [pwrsave]
  split
  · exact h.tim
  · rw [heq]
    dsimp only
    split
    · intro _
      rw [ApCom.timBitmap_setTim, Function.update_self]
      exact ⟨hid, rfl⟩
    · next hlen =>
      -- a queue that gets its second frame was announced with the first
      refine fun _ => h.tim fun hnil => hlen ?_
      rw [hok.len, hnil]
      rfl

theorem listed_start (h : ni.Listed c) (hok : ni.QueueOk) (hgone : ni.gone = false) (m : PsFrame)
    (pae : Bool) : (ni.start conf c m pae).ni.Listed (ni.start conf c m pae).com := by
  rw [start]
  split
  · exact h
  · next hpass =>
    split
    · exact listed_pwrsave h hok (fun hid => hpass (.inl ⟨hid, h.marked hgone hid⟩)) rfl
    · exact h

/-- Frames are taken from the queue, and the bit is cleared only when none is left. -/
theorem Listed.served (h : ni.Listed c) (hok : ni.QueueOk) (hop : QueueOp c ni r)
    (hserves : ni.Serves [] r.fates r.ni) (hcom : r.com = c ∨ r.ni.low = []) : r.ni.Listed r.com := by
  refine hop.ni.listed h fun hlow => ?_
  rw [hcom.resolve_right hlow]
  exact h.tim (hserves.low_ne_nil hok hlow)

theorem com_recvPspoll (hok : ni.QueueOk) (aid : UInt16) :
    (ni.recvPspoll c aid).com = c ∨ (ni.recvPspoll c aid).ni.low = [] := by
  rw [recvPspoll]
  split
  · exact .inl rfl
  · split
    · exact .inl rfl
    · split
      · next heq =>
        obtain ⟨rfl, hlow⟩ := psqDequeue_none heq
        exact .inr hlow
      · next heq =>
        have hok' := (serves_dequeue hok heq false false).ok
        split
        · exact .inl rfl
        · next hlen => exact .inr (hok'.low_eq_nil (not_not.mp hlen))

theorem low_triggerLoop {k : Nat} (hok : ni.QueueOk) (h : triggerLoop k c ni = some r) : r.ni.low = [] := by
  induction k generalizing ni r with
  | zero => cases h
  | succ k ih =>
    rw [triggerLoop] at h
    split at h
    · next heq =>
      obtain ⟨rfl, hlow⟩ := psqDequeue_none heq
      obtain rfl := Option.some.inj h
      exact hlow
    · next heq =>
      have hok' := (serves_dequeue hok heq false false).ok
      split at h
      · obtain ⟨r', hr', rfl⟩ := Option.map_eq_some_iff.mp h
        exact ih (r := r') hok' hr'
      · next hlen =>
        obtain rfl := Option.some.inj h
        exact hok'.low_eq_nil (not_not.mp hlen)

theorem com_recvTriggerFrame (hok : ni.QueueOk) (h : ni.recvTriggerFrame c = some r) :
    r.com = c ∨ r.ni.low = [] := by
  rw [recvTriggerFrame] at h
  split at h
  · obtain rfl := Option.some.inj h
    exact .inl rfl
  · exact .inr (low_triggerLoop hok h)

theorem com_nodeAge (hok : ni.QueueOk) : (ni.nodeAge c).com = c ∨ (ni.nodeAge c).ni.low = [] := by
  rw [nodeAge]
  dsimp only
  split
  · next hempty => exact .inr ((serves_psqAge hok).ok.low_eq_nil hempty.2)
  · exact .inl rfl

theorem low_nodePwrsave (hok : ni.QueueOk) : (ni.nodePwrsave c false).ni.low = [] := by
  rw [nodePwrsave, if_neg Bool.false_ne_true]
  dsimp only
  split
  · rfl
  · next hlen => exact hok.low_eq_nil (not_not.mp hlen)

theorem listed_nodePwrsave (h : ni.Listed c) (hok : ni.QueueOk) (enable : Bool) :
    (ni.nodePwrsave c enable).ni.Listed (ni.nodePwrsave c enable).com := by
  cases enable with
  | true =>
    refine ⟨h.marked, fun hlow => ?_⟩
    have hbit := h.tim hlow
    rw [nodePwrsave, if_pos rfl]
    refine ⟨hbit.1, ?_⟩
    dsimp only
    split <;> exact hbit.2
  | false =>
    have hlow := low_nodePwrsave (c := c) hok
    rw [nodePwrsave, if_neg Bool.false_ne_true] at hlow ⊢
    dsimp only at hlow ⊢
    split at hlow
    · next hlen =>
      rw [if_pos hlen]
      exact ⟨h.marked, fun hne => absurd hlow hne⟩
    · next hlen =>
      rw [if_neg hlen]
      exact ⟨h.marked, fun hne => absurd hlow hne⟩

/-- An authentication frame that ends a connection marks the node again. -/
def Tidy (ni : ApNode) : ApEvent → Bool
  | .auth _ marked _ => marked || (ni.associd == 0 && !ni.auth)
  | _ => true

theorem listed_recvAuth {mac : Nat} {marked authorize : Bool} (h : ni.Listed c) (hgone : ni.gone = false)
    (htidy : ni.Tidy (.auth mac marked authorize) = true) :
    (ni.recvAuth c marked authorize).ni.Listed (ni.recvAuth c marked authorize).com := by
  rw [recvAuth, dropConnection]
  split
  · next hconn =>
    have hmarked : marked = true := by
      rcases Bool.or_eq_true_iff.mp htidy with hmarked | hfresh
      · exact hmarked
      · simp only [Bool.and_eq_true, beq_iff_eq, Bool.not_eq_true'] at hfresh
        rcases hconn with hid | hauth
        · exact absurd hfresh.1 hid
        · exact absurd (hauth.symm.trans hfresh.2) (by decide)
    rw [hmarked]
    exact ⟨fun _ _ => rfl, fun hlow => absurd rfl hlow⟩
  · refine ⟨fun hgone' hid => ?_, h.tim⟩
    show (ni.needAssocid || marked) = true
    rw [h.marked hgone hid, Bool.true_or]

theorem listed_nodeLeave (h : ni.Listed c) :
    (Ap.reclaim (ni.nodeLeave conf c, false)).ni.Listed (Ap.reclaim (ni.nodeLeave conf c, false)).com := by
  rw [nodeLeave, Ap.reclaim]
  split
  · exact ⟨fun hgone => Bool.noConfusion hgone, h.tim⟩
  · exact ⟨fun hgone => Bool.noConfusion hgone, fun hlow => absurd rfl hlow⟩

theorem listed_nodeJoinAt {aid : Nat} (h : ni.Listed c) (hfree : ni.associd = 0)
    (hfound : c.freeAid conf = some aid) :
    (ni.nodeJoinAt conf c aid).ni.Listed (ni.nodeJoinAt conf c aid).com := by
  have hlow := h.low_eq_nil hfree
  have hid := (associd_nodeJoinAt ni hfound).1
  exact ⟨fun _ hzero => absurd hzero hid, fun hne => absurd hlow hne⟩

theorem Renewed.listed {ni' : ApNode} (hnew : ni.Renewed conf ni') (h : ni.Listed c) : ni'.Listed c := by
  obtain ⟨_, _, _, _, _, _, rfl, _⟩ := hnew
  exact ⟨h.marked, h.tim⟩

end ApNode

theorem NodeOp.listed (hop : NodeOp conf c ni e r) (h : ni.Listed c) (hok : ni.QueueOk)
    (hgone : ni.gone = false)
    (htidy : ∀ marked authorize, e = .auth ni.macaddr marked authorize → ni.Tidy e = true) :
    r.ni.Listed r.com := by
  have hserves := hop.serves hok
  cases hop with
  | recvAuth marked authorize => exact ApNode.listed_recvAuth h hgone (htidy marked authorize rfl)
  | authorize on => exact ⟨h.marked, h.tim⟩
  | renew e quiet ni' renewed => exact renewed.listed h
  | leave e quiet ni' renewed => exact ApNode.listed_nodeLeave (renewed.listed h)
  | join req ni' renewed aid free found =>
    exact ApNode.listed_nodeJoinAt (renewed.listed h) free found
  | pwrsave enable => exact ApNode.listed_nodePwrsave h hok enable
  | start m pae => exact ApNode.listed_start h hok hgone m pae
  | pspoll aid => exact h.served hok (ApNode.queueOp_recvPspoll aid) hserves (ApNode.com_recvPspoll hok aid)
  | trigger r served =>
    exact h.served hok (ApNode.queueOp_recvTriggerFrame served) hserves
      (ApNode.com_recvTriggerFrame hok served)
  | age => exact h.served hok ApNode.queueOp_nodeAge hserves (ApNode.com_nodeAge hok)
  | probe asleep =>
    refine ⟨h.marked, fun _ => ⟨asleep.1, ?_⟩⟩
    rw [ApCom.timBitmap_setTim, Function.update_self]

namespace ApNode

/-- Another station's event does not touch the bit of an associated station. -/
theorem Listed.other {ni' : ApNode} (h : ni'.Listed c) (hstep : TimStep c ni r)
    (hother : ni'.associd ≠ 0 → aidOf ni'.associd ≠ 0 ∧ aidOf ni'.associd ≠ aidOf ni.associd) :
    ni'.Listed r.com := by
  refine ⟨h.marked, fun hlow => ?_⟩
  obtain ⟨hid, hbit⟩ := h.tim hlow
  obtain ⟨hpos, hne⟩ := hother hid
  exact ⟨hid, (hstep.other hpos hne).trans hbit⟩

end ApNode

theorem AidTable.other {rest : List ApNode} {ni' : ApNode} {bits : Nat → Bool}
    (h : AidTable conf bits (Ap.aids (ni :: rest))) (hmem : ni' ∈ rest) (hid : ni'.associd ≠ 0) :
    aidOf ni'.associd ≠ 0 ∧ aidOf ni'.associd ≠ aidOf ni.associd := by
  have haid : aidOf ni'.associd ∈ Ap.aids rest :=
    List.mem_filterMap.mpr ⟨ni', hmem, by rw [if_neg hid]⟩
  by_cases hfree : ni.associd = 0
  · rw [Ap.aids_cons_free rest hfree] at h
    have hpos := (h.range _ haid).1
    rw [hfree, ApCom.aidOf_zero]
    exact ⟨by omega, by omega⟩
  · rw [Ap.aids_cons_used rest hfree] at h
    have hpos := (h.range _ (List.mem_cons_of_mem _ haid)).1
    have hnew := (List.nodup_cons.mp h.nodup).1
    exact ⟨by omega, fun heq => hnew (heq ▸ haid)⟩

namespace Ap

/-- All that the announcements rest on. -/
structure AnnounceOk (conf : ApConf) (s : Ap) : Prop where
  aids : s.AidsOk conf
  queues : s.QueuesOk
  listed : ∀ ni ∈ s.nodes, ni.Listed s.com

/-- The event does not end a connection without marking the node. -/
def tidy (s : Ap) : ApEvent → Bool
  | .auth mac marked authorize => (s.findNode mac).all fun p => p.2.Tidy (.auth mac marked authorize)
  | _ => true

def tidyRun (conf : ApConf) : Ap → List ApEvent → Bool
  | _, [] => true
  | s, e :: es => s.tidy e && (s.step conf e).all fun t => tidyRun conf t.1 es

theorem AnnounceOk.move (hs : s.AnnounceOk conf) (h : ApMove conf s e t) (htidy : s.tidy e = true) :
    t.1.AnnounceOk conf := by
  refine ⟨hs.aids.move h, hs.queues.move h, ?_⟩
  cases h with
  | idle | refused | unknown => exact hs.listed
  | tbtt | construct => exact fun ni hmem => ⟨(hs.listed ni hmem).marked, (hs.listed ni hmem).tim⟩
  | newNode mac authorize unknown =>
    intro ni hmem
    rcases List.mem_cons.mp hmem with rfl | hmem
    · exact ⟨fun _ _ => rfl, fun hlow => absurd rfl hlow⟩
    · exact hs.listed ni hmem
  | node e i ni r found at_i present op =>
    have hfirst : AidTable conf s.com.aidBitmap (Ap.aids (ni :: s.nodes.eraseIdx i)) :=
      hs.aids.perm (aids_perm (Tally.perm_entry at_i))
    have hmem := List.mem_of_getElem? at_i
    intro ni' hni'
    rcases List.mem_cons.mp ((Tally.perm_set at_i r.ni).mem_iff.mp hni') with rfl | hrest
    · refine op.listed (hs.listed ni hmem) (hs.queues ni hmem) present fun marked authorize he => ?_
      subst he
      rwa [tidy, found] at htidy
    · exact (hs.listed ni' (List.mem_of_mem_eraseIdx hrest)).other op.timStep (hfirst.other hrest)
  | release i ni at_i gone =>
    have hfirst : AidTable conf s.com.aidBitmap (Ap.aids (ni :: s.nodes.eraseIdx i)) :=
      hs.aids.perm (aids_perm (Tally.perm_entry at_i))
    intro ni' hrest
    exact (hs.listed ni' (List.mem_of_mem_eraseIdx hrest)).other ApNode.timStep_freeNode (hfirst.other hrest)
  | beacon e quiet c op =>
    intro ni hmem
    have hni := hs.listed ni hmem
    refine ⟨hni.marked, fun hlow => ?_⟩
    rw [ApCom.timBitmap_of_tim (ApCom.tim_of_core op.core_eq)]
    exact hni.tim hlow

theorem announceOk_run {es : List ApEvent} (hs : s.AnnounceOk conf) (htidy : s.tidyRun conf es = true)
    (h : s.run conf es = some t) : t.1.AnnounceOk conf := by
  induction es generalizing s t with
  | nil =>
    obtain rfl := Option.some.inj h
    exact hs
  | cons e es ih =>
    obtain ⟨u, v, hu, hv, rfl⟩ := run_cons_eq_some h
    obtain ⟨he, hes⟩ := Bool.and_eq_true_iff.mp htidy
    rw [hu] at hes
    exact ih (t := v) (hs.move (move_step hu) he) hes hv

theorem AnnounceOk.tim_of_ids (hs : s.AnnounceOk conf) (hmem : ni ∈ s.nodes) (hids : ni.ids ≠ []) :
    ni.associd ≠ 0 ∧ s.com.timBitmap (aidOf ni.associd) = true := by
  refine (hs.listed ni hmem).tim fun hlow => hids ?_
  rw [(hs.queues ni hmem).ids_eq, hlow, List.map_nil]

theorem announceOk_init : ({} : Ap).AnnounceOk conf where
  aids := aidsOk_init
  queues _ hmem := absurd hmem List.not_mem_nil
  listed _ hmem := absurd hmem List.not_mem_nil

/-- As long as no authentication frame ends a connection without marking the node, every station for which
frames wait is associated and has its traffic indication bit set. -/
theorem run_announced (conf : ApConf) (es : List ApEvent) (htidy : ({} : Ap).tidyRun conf es = true) :
    ∃ t, ({} : Ap).run conf es = some t ∧
      ∀ ni ∈ t.1.nodes, ni.ids ≠ [] → ni.associd ≠ 0 ∧ t.1.com.timBitmap (aidOf ni.associd) = true := by
  obtain ⟨t, ht⟩ := exists_run conf {} es
  have hannounce := announceOk_run announceOk_init htidy ht
  exact ⟨t, ht, fun ni hmem hids => hannounce.tim_of_ids hmem hids⟩

/-- An access point on a plain 11g channel, and a request that fits it. -/
def plainConf : ApConf where
  maxAid := 128
  maxAid_le := by decide
  chanHt := false
  chanHt40 := false
  chanAnyg := true
  chanFull := true
  chan108g := false
  protmode := true
  capShslot := true
  capShpreamble := true
  p2pEnable := false
  puren := false
  bintval := 100

def plainReq : ApNode.AssocReq where
  wpaOk := true
  ess := true
  ratesOk := true
  shortSlot := true
  shortPreamble := true
  erpRates := true
  htcap := none
  htCipher := true
  intval := 10

def nap : List ApEvent :=
  [.auth 7 true true, .assoc 7 plainReq, .pwrsave 7 true, .start 7 ⟨1, false, 0⟩ false]

theorem nap_announced :
    ({} : Ap).tidyRun plainConf nap = true ∧ ∃ t, ({} : Ap).run plainConf nap = some t ∧
      ∀ ni ∈ t.1.nodes, ni.ids ≠ [] → ni.associd ≠ 0 ∧ t.1.com.timBitmap (aidOf ni.associd) = true :=
  ⟨by decide, run_announced plainConf nap (by decide)⟩

-- after an authentication frame with a bad sequence number a frame is kept for a station without an
-- identifier, and is not announced under the one that the station gets
example :
    (({} : Ap).run plainConf ([.auth 7 true true, .assoc 7 plainReq, .auth 7 false false, .pwrsave 7 true,
      .start 7 ⟨1, false, 0⟩ false, .assoc 7 plainReq] : List ApEvent)).map
        (fun t => (t.1.nodes.map fun ni => (ni.ids, aidOf ni.associd), t.1.com.timBitmap 1)) =
      some ([([1], 1)], false) := by decide

/-- A station that leaves while frames wait for it gives its identifier back but leaves its traffic indication
bit behind. -/
theorem run_leave_keeps_bit (conf : ApConf) (es : List ApEvent) (htidy : ({} : Ap).tidyRun conf es = true) :
    ∃ t, ({} : Ap).run conf es = some t ∧
      ∀ mac i ni, t.1.findNode mac = some (i, ni) → ni.ids ≠ [] →
        ∃ u, t.1.step conf (.leave mac) = some u ∧ u.1.com.aidBitmap (aidOf ni.associd) = false ∧
          u.1.com.timBitmap (aidOf ni.associd) = true := by
  obtain ⟨t, ht⟩ := exists_run conf {} es
  have hannounce := announceOk_run announceOk_init htidy ht
  refine ⟨t, ht, fun mac i ni hfind hids => ?_⟩
  obtain ⟨at_i, -, -⟩ := findNode_eq_some hfind
  have hmem := List.mem_of_getElem? at_i
  obtain ⟨hid, hbit⟩ := hannounce.tim_of_ids hmem hids
  have hpos : aidOf ni.associd ≠ 0 := by
    have haid : aidOf ni.associd ∈ aids t.1.nodes := List.mem_filterMap.mpr ⟨ni, hmem, by rw [if_neg hid]⟩
    have hrange := (hannounce.aids.range _ haid).1
    omega
  rw [step, onNode, hfind]
  refine ⟨_, rfl, ?_, ?_⟩
  · show (ni.nodeLeave conf t.1.com).com.aidBitmap _ = _
    rw [ApNode.aidBitmap_nodeLeave hid, Function.update_self]
  · show (ni.nodeLeave conf t.1.com).com.timBitmap _ = _
    rcases ni.tim_nodeLeave conf t.1.com with h | h
    · rw [ApCom.timBitmap_of_tim h, hbit]
    · rw [ApCom.timBitmap_of_tim h, ApCom.timBitmap_setTim, ApCom.aidOf_zero, Function.update_of_ne hpos,
        hbit]

theorem nap_leave_keeps_bit :
    ({} : Ap).tidyRun plainConf nap = true ∧ ∃ t, ({} : Ap).run plainConf nap = some t ∧
      ∀ mac i ni, t.1.findNode mac = some (i, ni) → ni.ids ≠ [] →
        ∃ u, t.1.step plainConf (.leave mac) = some u ∧ u.1.com.aidBitmap (aidOf ni.associd) = false ∧
          u.1.com.timBitmap (aidOf ni.associd) = true :=
  ⟨by decide, run_leave_keeps_bit plainConf nap (by decide)⟩

end Ap

end Onebox.Net80211
