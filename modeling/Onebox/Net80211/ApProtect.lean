import Onebox.Net80211.ApTim

/-! The 11g bookkeeping of an access point over whole runs: while a station that needs it is associated,
protection is on and the slot time is long, and the assertions of `ieee80211_node_leave_11g` hold. The count
of associated stations is off by the authentication frames that hit an authorized station without an
identifier. -/

namespace Onebox.Net80211

open Tally (total)

variable {conf : ApConf} {c c' : ApCom} {ni ni' : ApNode} {r : ApStep}
variable {s : Ap} {i n : Nat} {e : ApEvent} {t : ApOut}

/-! ## What the stations need -/

/-- The fields of the 11g bookkeeping. -/
structure ErpState where
  nonerpsta : UInt16
  longslotsta : UInt16
  useprot : Bool
  shslot : Bool
  nonerpPr : Bool

namespace ErpState

variable {b : ErpState}

def joinSlot (b : ErpState) (shortSlot : Bool) : ErpState :=
  if shortSlot then b else { b with longslotsta := b.longslotsta + 1, shslot := false }

def joinErp (b : ErpState) (erpRates : Bool) : ErpState :=
  if erpRates then b
  else { b with
    nonerpsta := b.nonerpsta + 1
    useprot := b.useprot || (b.nonerpsta + 1 == 1 && !b.nonerpPr) }

def leaveSlot (b : ErpState) (capShslot shortSlot : Bool) : ErpState :=
  if shortSlot then b
  else { b with
    longslotsta := b.longslotsta - 1
    shslot := b.shslot || (b.longslotsta - 1 == 0 && capShslot) }

def leaveErp (b : ErpState) (erp : Bool) : ErpState :=
  if erp then b
  else { b with
    nonerpsta := b.nonerpsta - 1
    useprot := b.useprot && !(b.nonerpsta - 1 == 0 && !b.nonerpPr) }

/-- Protection is on while there are non-ERP stations, and the slot time is long while there are stations that
need it so. -/
structure Ok (b : ErpState) : Prop where
  prot : b.nonerpsta ≠ 0 → b.useprot = true
  slot : b.longslotsta ≠ 0 → b.shslot = false
  absent : b.nonerpPr = false

theorem Ok.joinSlot (h : b.Ok) (shortSlot : Bool) : (b.joinSlot shortSlot).Ok := by
  rw [ErpState.joinSlot]
  split
  · exact h
  · exact ⟨h.prot, fun _ => rfl, h.absent⟩

theorem Ok.joinErp (h : b.Ok) (erpRates : Bool) : (b.joinErp erpRates).Ok := by
  rw [ErpState.joinErp]
  split
  · exact h
  · refine ⟨fun _ => ?_, h.slot, h.absent⟩
    by_cases hzero : b.nonerpsta = 0
    · simp [hzero, h.absent]
    · simp [h.prot hzero]

theorem Ok.leaveSlot (h : b.Ok) (capShslot : Bool) {shortSlot : Bool}
    (hcount : shortSlot = false → b.longslotsta ≠ 0) : (b.leaveSlot capShslot shortSlot).Ok := by
  rw [ErpState.leaveSlot]
  split
  · exact h
  · next hshort =>
    refine ⟨h.prot, fun hleft => ?_, h.absent⟩
    have hlong := h.slot (hcount (Bool.eq_false_iff.mpr hshort))
    simpa [hlong] using fun hzero => absurd hzero hleft

theorem Ok.leaveErp (h : b.Ok) {erp : Bool} (hcount : erp = false → b.nonerpsta ≠ 0) :
    (b.leaveErp erp).Ok := by
  rw [ErpState.leaveErp]
  split
  · exact h
  · next herp =>
    refine ⟨fun hleft => ?_, h.slot, h.absent⟩
    have hprot := h.prot (hcount (Bool.eq_false_iff.mpr herp))
    simpa [hprot] using Or.inl hleft

variable (shortSlot erp capShslot : Bool)

theorem nonerpsta_leaveSlot : (b.leaveSlot capShslot shortSlot).nonerpsta = b.nonerpsta := by
  cases shortSlot <;> rfl

theorem nonerpsta_leave :
    ((b.leaveSlot capShslot shortSlot).leaveErp erp).nonerpsta =
      if erp then b.nonerpsta else b.nonerpsta - 1 := by
  cases shortSlot <;> cases erp <;> rfl

theorem longslotsta_leave :
    ((b.leaveSlot capShslot shortSlot).leaveErp erp).longslotsta =
      if shortSlot then b.longslotsta else b.longslotsta - 1 := by
  cases shortSlot <;> cases erp <;> rfl

theorem nonerpsta_join :
    ((b.joinSlot shortSlot).joinErp erp).nonerpsta = if erp then b.nonerpsta else b.nonerpsta + 1 := by
  cases shortSlot <;> cases erp <;> rfl

theorem longslotsta_join :
    ((b.joinSlot shortSlot).joinErp erp).longslotsta =
      if shortSlot then b.longslotsta else b.longslotsta + 1 := by
  cases shortSlot <;> cases erp <;> rfl

end ErpState

namespace ApCom

def erpState (c : ApCom) : ErpState := ⟨c.nonerpsta, c.longslotsta, c.useprot, c.shslot, c.nonerpPr⟩

@[simp] theorem erpState_setTim (associd : UInt16) (set : Bool) :
    (c.setTim associd set).erpState = c.erpState := by
  rw [setTim_eq]
  rfl

end ApCom

namespace ApNode

/-- An associated station that is not marked as one with ERP rates. -/
def nonErp (ni : ApNode) : Bool := ni.associd != 0 && !ni.erp

/-- An associated station that needs the long slot time. -/
def longSlot (ni : ApNode) : Bool := ni.associd != 0 && !ni.shortSlot

end ApNode

/-- The access point keeps the 11g books. -/
structure Books11g (conf : ApConf) : Prop where
  chanAnyg : conf.chanAnyg = true
  chanFull : conf.chanFull = true
  chan108g : conf.chan108g = false
  protmode : conf.protmode = true
  p2pEnable : conf.p2pEnable = false

namespace Books11g

theorem erpState_joinSlot (hconf : Books11g conf) :
    (c.joinSlot conf ni).erpState = c.erpState.joinSlot ni.shortSlot := by
  rw [ApCom.joinSlot, ErpState.joinSlot]
  split
  · rfl
  · simp only [ApCom.erpState, hconf.chan108g, Bool.and_false]

theorem erpState_joinErp (hconf : Books11g conf) :
    (c.joinErp conf ni).erpState = c.erpState.joinErp ni.erpRates := by
  rw [ApCom.joinErp, ErpState.joinErp]
  split
  · rfl
  · simp only [hconf.protmode, hconf.p2pEnable, Bool.false_eq_true, if_false, true_and]
    split
    · next h => simp [ApCom.erpState, h]
    · next h =>
      have hoff : (c.nonerpsta + 1 == 1 && !c.nonerpPr) = false := by simpa using h
      simp only [ApCom.erpState, hoff, Bool.or_false]

theorem erpState_leaveSlot :
    (c.leaveSlot conf ni).erpState = c.erpState.leaveSlot conf.capShslot ni.shortSlot := by
  rw [ApCom.leaveSlot, ErpState.leaveSlot]
  split
  · rfl
  · dsimp only
    split
    · next h => simp [ApCom.erpState, h]
    · next h =>
      have hoff : (c.longslotsta - 1 == 0 && conf.capShslot) = false := by simpa using h
      simp only [ApCom.erpState, hoff, Bool.or_false]

theorem erpState_leaveErp : (c.leaveErp conf ni).erpState = c.erpState.leaveErp ni.erp := by
  rw [ApCom.leaveErp, ErpState.leaveErp]
  split
  · rfl
  · dsimp only
    split
    · next h => simp [ApCom.erpState, ApCom.disableProtection, h]
    · next h =>
      have hoff : (c.nonerpsta - 1 == 0 && !c.nonerpPr) = false := by simpa using h
      simp only [ApCom.erpState, hoff, Bool.not_false, Bool.and_true]

theorem erpState_joinBss (hconf : Books11g conf) :
    (c.joinBss conf ni).erpState = (c.erpState.joinSlot ni.shortSlot).joinErp ni.erpRates := by
  rw [ApCom.joinBss, hconf.chanAnyg, hconf.chanFull, Bool.and_self, if_pos rfl, hconf.erpState_joinErp,
    hconf.erpState_joinSlot]
  split <;> rfl

theorem erpState_leaveBss (hconf : Books11g conf) :
    (c.leaveBss conf ni).erpState =
      (c.erpState.leaveSlot conf.capShslot ni.shortSlot).leaveErp ni.erp := by
  rw [ApCom.leaveBss, hconf.chanAnyg, hconf.chanFull, Bool.and_self, if_pos rfl, erpState_leaveErp,
    erpState_leaveSlot]
  split <;> rfl

end Books11g

/-- What an event may do to the 11g books: a station joins, leaves, or is dropped without being counted
off. -/
inductive ErpStep (conf : ApConf) (c : ApCom) (ni : ApNode) (r : ApStep) : Prop
  | keep (books : r.com.erpState = c.erpState) (erp : r.ni.nonErp = true → ni.nonErp = true)
      (slot : r.ni.longSlot = true → ni.longSlot = true)
  | leave (books : r.com.erpState = (c.erpState.leaveSlot conf.capShslot ni.shortSlot).leaveErp ni.erp)
      (old : ni.associd ≠ 0) (new : r.ni.associd = 0)
  | join (books : r.com.erpState = (c.erpState.joinSlot r.ni.shortSlot).joinErp r.ni.erpRates)
      (erp : r.ni.erpRates = true → r.ni.erp = true)

theorem QueueOp.erpStep (h : QueueOp c ni r) : ErpStep conf c ni r := by
  obtain ⟨_, _, _, _, hni⟩ := h.ni
  refine .keep ?_ (by rw [hni]; exact id) (by rw [hni]; exact id)
  rcases h.com with hcom | ⟨set, hcom⟩
  · rw [hcom]
  · rw [hcom, ApCom.erpState_setTim]

namespace ApNode

theorem erpState_nodeCleanup : (ni.nodeCleanup c).com.erpState = c.erpState := by
  rw [nodeCleanup]
  dsimp only
  split
  · rw [ApCom.erpState_setTim]
    split <;> rfl
  · split <;> rfl

theorem nonErp_eq_false (h : ni.associd = 0) : ni.nonErp = false := by rw [nonErp, h]; rfl

theorem longSlot_eq_false (h : ni.associd = 0) : ni.longSlot = false := by rw [longSlot, h]; rfl

theorem erpStep_recvAuth (marked authorize : Bool) : ErpStep conf c ni (ni.recvAuth c marked authorize) := by
  rw [recvAuth, dropConnection]
  split
  · refine .keep erpState_nodeCleanup (fun h => ?_) fun h => ?_
    · rw [nonErp_eq_false rfl] at h
      cases h
    · rw [longSlot_eq_false rfl] at h
      cases h
  · exact .keep rfl id id

theorem erpStep_nodePwrsave (enable : Bool) : ErpStep conf c ni (ni.nodePwrsave c enable) := by
  rw [nodePwrsave]
  split
  · exact .keep (by dsimp only; split <;> rfl) id id
  · dsimp only
    split
    · exact .keep (by dsimp only; rw [ApCom.erpState_setTim]; split <;> rfl) id id
    · exact .keep (by dsimp only; rw [ApCom.erpState_setTim]; split <;> rfl) id id

theorem erpStep_nodeLeave (hconf : Books11g conf) (hnew : ni.Renewed conf ni') :
    ErpStep conf c ni (Ap.reclaim (ni'.nodeLeave conf c, false)) := by
  obtain ⟨_, _, _, _, _, _, rfl, hslot⟩ := hnew
  rw [nodeLeave]
  split
  · next hid =>
    refine .keep rfl (fun h => ?_) fun h => ?_
    · exact absurd (h.symm.trans (nonErp_eq_false hid)) (by decide)
    · exact absurd (h.symm.trans (longSlot_eq_false hid)) (by decide)
  · next hid =>
    refine .leave ?_ hid rfl
    have hkept := hslot hid hconf.chanAnyg
    show ((nodeCleanup _ _).com).erpState = _
    rw [erpState_nodeCleanup, hconf.erpState_leaveBss]
    dsimp only
    rw [hkept]
    rfl

theorem erpStep_nodeJoinAt (hconf : Books11g conf) (aid : Nat) :
    ErpStep conf c ni (ni'.nodeJoinAt conf c aid) := by
  refine .join ?_ fun herp => ?_
  · exact hconf.erpState_joinBss
  · show (ni'.erp || (conf.chanAnyg && conf.chanFull && ni'.erpRates)) = true
    have herp' : ni'.erpRates = true := herp
    rw [hconf.chanAnyg, hconf.chanFull, herp', Bool.and_self, Bool.and_self, Bool.or_true]

theorem Renewed.erpStep (hconf : Books11g conf) (hnew : ni.Renewed conf ni') :
    ErpStep conf c ni ⟨c, ni', []⟩ := by
  obtain ⟨_, _, _, _, _, _, rfl, hslot⟩ := hnew
  refine .keep rfl id fun h => ?_
  by_cases hid : ni.associd = 0
  · exact absurd (h.symm.trans (longSlot_eq_false hid)) (by decide)
  · rw [longSlot, ← hslot hid hconf.chanAnyg]
    exact h

end ApNode

theorem NodeOp.erpStep (hconf : Books11g conf) (hop : NodeOp conf c ni e r) : ErpStep conf c ni r := by
  cases hop with
  | recvAuth marked authorize => exact ApNode.erpStep_recvAuth marked authorize
  | authorize on => exact .keep rfl id id
  | renew e quiet ni' renewed => exact renewed.erpStep hconf
  | leave e quiet ni' renewed => exact ApNode.erpStep_nodeLeave hconf renewed
  | join req ni' renewed aid free found => exact ApNode.erpStep_nodeJoinAt hconf aid
  | pwrsave enable => exact ApNode.erpStep_nodePwrsave enable
  | start m pae => exact (ApNode.queueOp_start m pae).erpStep
  | pspoll aid => exact (ApNode.queueOp_recvPspoll aid).erpStep
  | trigger r served => exact (ApNode.queueOp_recvTriggerFrame served).erpStep
  | age => exact ApNode.queueOp_nodeAge.erpStep
  | probe asleep => exact .keep (ApCom.erpState_setTim _ _) id id

/-! ## Over runs -/

namespace Ap

/-- The books of the access point after at most `n` events. -/
structure ProtectOk (n : Nat) (s : Ap) : Prop where
  books : s.com.erpState.Ok
  nonErp : Tally.Covers ApNode.nonErp s.nodes s.com.nonerpsta n
  longSlot : Tally.Covers ApNode.longSlot s.nodes s.com.longslotsta n

theorem count_leave {p : ApNode → Bool} {count count' : UInt16} {flag : Bool}
    (hcount : count' = if flag then count else count - 1) (hold : p ni = !flag) (hnew : p ni' = false) :
    Tally.Count p ni ni' count count' := by
  rw [hcount]
  cases flag with
  | true => exact .keep fun h => absurd (h.symm.trans hnew) (by decide)
  | false => exact .down hold hnew

theorem count_join {p : ApNode → Bool} {count count' : UInt16} {flag : Bool}
    (hcount : count' = if flag then count else count + 1) (hnew : flag = true → p ni' = false) :
    Tally.Count p ni ni' count count' := by
  rw [hcount]
  cases flag with
  | true => exact .keep fun h => absurd (h.symm.trans (hnew rfl)) (by decide)
  | false => exact .up

theorem ProtectOk.node (hs : s.ProtectOk n) (hn : n + 1 < 65536) (at_i : s.nodes[i]? = some ni)
    (h : ErpStep conf s.com ni r) : ProtectOk (n + 1) ⟨r.com, s.nodes.set i r.ni⟩ := by
  cases h with
  | keep books erp slot =>
    have hnon : r.com.nonerpsta = s.com.nonerpsta := congrArg ErpState.nonerpsta books
    have hlong : r.com.longslotsta = s.com.longslotsta := congrArg ErpState.longslotsta books
    refine ⟨books ▸ hs.books, hs.nonErp.set at_i hn ?_, hs.longSlot.set at_i hn ?_⟩
    · rw [hnon]
      exact .keep erp
    · rw [hlong]
      exact .keep slot
  | leave books old new =>
    have hnon := (congrArg ErpState.nonerpsta books).trans (ErpState.nonerpsta_leave ..)
    have hlong := (congrArg ErpState.longslotsta books).trans (ErpState.longslotsta_leave ..)
    have hid : (ni.associd != 0) = true := bne_iff_ne.mpr old
    have herp : ni.nonErp = !ni.erp := by rw [ApNode.nonErp, hid, Bool.true_and]
    have hslot : ni.longSlot = !ni.shortSlot := by rw [ApNode.longSlot, hid, Bool.true_and]
    refine ⟨?_, hs.nonErp.set at_i hn ?_, hs.longSlot.set at_i hn ?_⟩
    · show r.com.erpState.Ok
      rw [books]
      -- the counts of the leaving station are above zero, as the assertions of the source say
      refine (hs.books.leaveSlot _ fun hshort => ?_).leaveErp fun hnot => ?_
      · exact hs.longSlot.pos at_i (by rw [hslot, hshort]; rfl)
      · rw [ErpState.nonerpsta_leaveSlot]
        exact hs.nonErp.pos at_i (by rw [herp, hnot]; rfl)
    · exact count_leave hnon herp (ApNode.nonErp_eq_false new)
    · exact count_leave hlong hslot (ApNode.longSlot_eq_false new)
  | join books erp =>
    have hnon := (congrArg ErpState.nonerpsta books).trans (ErpState.nonerpsta_join ..)
    have hlong := (congrArg ErpState.longslotsta books).trans (ErpState.longslotsta_join ..)
    refine ⟨?_, hs.nonErp.set at_i hn ?_, hs.longSlot.set at_i hn ?_⟩
    · show r.com.erpState.Ok
      rw [books]
      exact (hs.books.joinSlot _).joinErp _
    · refine count_join hnon fun hrates => ?_
      rw [ApNode.nonErp, erp hrates, Bool.not_true, Bool.and_false]
    · refine count_join hlong fun hshort => ?_
      rw [ApNode.longSlot, hshort, Bool.not_true, Bool.and_false]

theorem ProtectOk.mono {m : Nat} (hs : s.ProtectOk n) (hle : n ≤ m) : s.ProtectOk m :=
  ⟨hs.books, hs.nonErp.mono hle, hs.longSlot.mono hle⟩

theorem ProtectOk.com (hs : s.ProtectOk n) (h : ComOp conf s.com c) : ProtectOk n { s with com := c } := by
  have hkeep : c.nonerpsta = s.com.nonerpsta ∧ c.longslotsta = s.com.longslotsta ∧ c.erpState.Ok := by
    cases h with
    | beaconErp =>
      rw [ApCom.beaconErp]
      split
      · exact ⟨rfl, rfl, fun _ => rfl, hs.books.slot, hs.books.absent⟩
      · exact ⟨rfl, rfl, hs.books⟩
    | htprotUpdate protmode =>
      rw [ApCom.htprotUpdate]
      dsimp only
      split <;> exact ⟨rfl, rfl, hs.books.prot, hs.books.slot, hs.books.absent⟩
    | erpTimeout late =>
      -- nothing sets `IEEE80211_FEXT_NONERP_PR`
      have habsent : s.com.nonerpPr = false := hs.books.absent
      rw [ApCom.erpTimeout, habsent, if_neg (by simp)]
      exact ⟨rfl, rfl, hs.books⟩
    | htTimeout late =>
      rw [ApCom.htTimeout]
      split
      · exact ⟨rfl, rfl, hs.books.prot, hs.books.slot, hs.books.absent⟩
      · exact ⟨rfl, rfl, hs.books⟩
  obtain ⟨hnon, hlong, hok⟩ := hkeep
  refine ⟨hok, ?_, ?_⟩
  · show Tally.Covers _ _ c.nonerpsta _
    rw [hnon]
    exact hs.nonErp
  · show Tally.Covers _ _ c.longslotsta _
    rw [hlong]
    exact hs.longSlot

theorem erpState_freeNode : (ni.freeNode c).com.erpState = c.erpState := by
  rw [ApNode.freeNode, ApNode.erpState_nodeCleanup]
  split <;> rfl

theorem ProtectOk.move (hconf : Books11g conf) (hs : s.ProtectOk n) (hn : n + 1 < 65536)
    (h : ApMove conf s e t) : t.1.ProtectOk (n + 1) := by
  cases h with
  | idle | refused | unknown => exact hs.mono (Nat.le_succ n)
  | tbtt | construct => exact mono ⟨hs.books, hs.nonErp, hs.longSlot⟩ (Nat.le_succ n)
  | node e i ni r found at_i present op => exact hs.node hn at_i (op.erpStep hconf)
  | newNode mac authorize unknown =>
    exact mono ⟨hs.books, hs.nonErp.cons rfl, hs.longSlot.cons rfl⟩ (Nat.le_succ n)
  | release i ni at_i gone =>
    have hnon : (ni.freeNode s.com).com.nonerpsta = s.com.nonerpsta :=
      congrArg ErpState.nonerpsta erpState_freeNode
    have hlong : (ni.freeNode s.com).com.longslotsta = s.com.longslotsta :=
      congrArg ErpState.longslotsta erpState_freeNode
    refine mono ⟨?_, ?_, ?_⟩ (Nat.le_succ n)
    · show (ni.freeNode s.com).com.erpState.Ok
      rw [erpState_freeNode]
      exact hs.books
    · show Tally.Covers _ _ (ni.freeNode s.com).com.nonerpsta _
      rw [hnon]
      exact hs.nonErp.erase at_i
    · show Tally.Covers _ _ (ni.freeNode s.com).com.longslotsta _
      rw [hlong]
      exact hs.longSlot.erase at_i
  | beacon e quiet c op => exact (hs.com op).mono (Nat.le_succ n)

theorem protectOk_run {es : List ApEvent} (hconf : Books11g conf) (hs : s.ProtectOk n)
    (hn : n + es.length < 65536) (h : s.run conf es = some t) : t.1.ProtectOk (n + es.length) := by
  induction es generalizing s t n with
  | nil =>
    obtain rfl := Option.some.inj h
    exact hs
  | cons e es ih =>
    obtain ⟨u, v, hu, hv, rfl⟩ := run_cons h
    rw [List.length_cons] at hn ⊢
    have hrest := ih (t := v) (hs.move hconf (by omega) hu) (by omega) hv
    exact hrest.mono (by omega)

/-- An access point that nobody has joined. -/
def fresh (shslot shpreamble : Bool) : Ap := { com := { shslot := shslot, shpreamble := shpreamble } }

/-- While a station that is not known to have ERP rates is associated, protection is on; while one that needs
the long slot time is, the slot time is long; and the counts that `ieee80211_node_leave_11g` asserts to be
above zero are. -/
theorem run_protects (conf : ApConf) (hconf : Books11g conf) (shslot shpreamble : Bool) (es : List ApEvent)
    (hlen : es.length < 65536) :
    ∃ t, (fresh shslot shpreamble).run conf es = some t ∧
      ∀ ni ∈ t.1.nodes, ni.associd ≠ 0 →
        (ni.erp = false → t.1.com.nonerpsta ≠ 0 ∧ t.1.com.useprot = true) ∧
        (ni.shortSlot = false → t.1.com.longslotsta ≠ 0 ∧ t.1.com.shslot = false) := by
  obtain ⟨t, ht⟩ := exists_run conf (fresh shslot shpreamble) es
  have hinit : (fresh shslot shpreamble).ProtectOk 0 :=
    ⟨⟨fun h => absurd rfl h, fun h => absurd rfl h, rfl⟩, ⟨le_rfl, le_rfl⟩, ⟨le_rfl, le_rfl⟩⟩
  have hok := protectOk_run hconf hinit (by omega) ht
  refine ⟨t, ht, fun ni hmem hid => ?_⟩
  obtain ⟨i, at_i⟩ := List.mem_iff_getElem?.mp hmem
  have hne : (ni.associd != 0) = true := bne_iff_ne.mpr hid
  constructor
  · intro herp
    have hcount := hok.nonErp.pos at_i (by rw [ApNode.nonErp, hne, herp]; rfl)
    exact ⟨hcount, hok.books.prot hcount⟩
  · intro hslot
    have hcount := hok.longSlot.pos at_i (by rw [ApNode.longSlot, hne, hslot]; rfl)
    exact ⟨hcount, hok.books.slot hcount⟩

theorem books11g_plainConf : Books11g plainConf := ⟨rfl, rfl, rfl, rfl, rfl⟩

/-- Two stations, one with legacy rates and the long slot time, that join. -/
def mixedCell : List ApEvent :=
  [.auth 7 true true, .assoc 7 plainReq, .auth 8 true true,
    .assoc 8 { plainReq with erpRates := false, shortSlot := false }]

theorem mixedCell_protects :
    mixedCell.length < 65536 ∧ ∃ t, (fresh true true).run plainConf mixedCell = some t ∧
      ∀ ni ∈ t.1.nodes, ni.associd ≠ 0 →
        (ni.erp = false → t.1.com.nonerpsta ≠ 0 ∧ t.1.com.useprot = true) ∧
        (ni.shortSlot = false → t.1.com.longslotsta ≠ 0 ∧ t.1.com.shslot = false) :=
  ⟨by decide, run_protects plainConf books11g_plainConf true true mixedCell (by decide)⟩

end Ap

/-! ## The count of associated stations -/

namespace ApNode

def associated (ni : ApNode) : UInt16 := if ni.associd != 0 then 1 else 0

/-- An authentication frame of the station counts off a station that was not counted. -/
def ghost (ni : ApNode) : Bool := ni.associd == 0 && ni.auth

end ApNode

/-- The count of associated stations follows one station; `g` is by how much too far it is counted down. -/
def AssocStep (c : ApCom) (ni : ApNode) (g : UInt16) (r : ApStep) : Prop :=
  r.com.staAssoc + g = c.staAssoc - ni.associated + r.ni.associated

theorem assocStep_same (hcom : r.com.staAssoc = c.staAssoc) (hni : r.ni.associd = ni.associd) :
    AssocStep c ni 0 r := by
  rw [AssocStep, hcom, ApNode.associated, ApNode.associated, hni, sub_add_cancel, add_zero]

theorem QueueOp.assocStep (h : QueueOp c ni r) : AssocStep c ni 0 r := by
  refine assocStep_same ?_ h.ni.associd
  rcases h.com with hcom | ⟨set, hcom⟩
  · rw [hcom]
  · rw [hcom, ApCom.staAssoc_setTim]

namespace ApNode

theorem staAssoc_of_core (h : c'.core = c.core) : c'.staAssoc = c.staAssoc := by
  show c'.core.staAssoc = c.core.staAssoc
  rw [h]

theorem staAssoc_nodeCleanup : (ni.nodeCleanup c).com.staAssoc = c.staAssoc := by
  rw [nodeCleanup]
  dsimp only
  split
  · rw [ApCom.staAssoc_setTim]
    split <;> rfl
  · split <;> rfl

theorem associated_zero (h : ni.associd = 0) : ni.associated = 0 := by rw [associated, h]; rfl

theorem associated_one (h : ni.associd ≠ 0) : ni.associated = 1 := by
  rw [associated, if_pos (bne_iff_ne.mpr h)]

theorem assocStep_nodeLeave : AssocStep c ni 0 (ni.nodeLeave conf c) := by
  rw [nodeLeave]
  split
  · exact assocStep_same rfl rfl
  · next hid =>
    rw [AssocStep, staAssoc_nodeCleanup, staAssoc_of_core ApCom.core_leaveBss, associated_one hid,
      associated_zero rfl]

theorem assocStep_nodeJoinAt {aid : Nat} (hold : ni.associd = 0) (hfound : c.freeAid conf = some aid) :
    AssocStep c ni 0 (ni.nodeJoinAt conf c aid) := by
  have hcount : (ni.nodeJoinAt conf c aid).com.staAssoc = c.staAssoc + 1 := by
    rw [nodeJoinAt]
    exact staAssoc_of_core ApCom.core_joinBss
  rw [AssocStep, hcount, associated_zero hold, associated_one (associd_nodeJoinAt ni hfound).1, add_zero,
    sub_zero]

theorem assocStep_recvAuth (marked authorize : Bool) :
    AssocStep c ni (if ni.ghost then 1 else 0) (ni.recvAuth c marked authorize) := by
  show AssocStep c ni (if ni.ghost then 1 else 0) (ni.dropConnection c)
  rw [dropConnection]
  by_cases hconn : ni.associd ≠ 0 ∨ ni.auth = true
  · rw [if_pos hconn, AssocStep, staAssoc_nodeCleanup]
    show c.staAssoc - 1 + _ = c.staAssoc - ni.associated + 0
    by_cases hid : ni.associd = 0
    · have hghost : ni.ghost = true := by rw [ghost, hid, hconn.resolve_left (not_not.mpr hid)]; rfl
      rw [hghost, if_pos rfl, associated_zero hid, sub_add_cancel, sub_zero, add_zero]
    · have hghost : ni.ghost = false := by simp [ghost, hid]
      rw [hghost, associated_one hid]
      rfl
  · have hghost : ni.ghost = false := by
      rw [ghost, Bool.eq_false_iff.mpr (mt .inr hconn), Bool.and_false]
    rw [if_neg hconn, hghost]
    exact assocStep_same rfl rfl

theorem assocStep_nodePwrsave (enable : Bool) : AssocStep c ni 0 (ni.nodePwrsave c enable) := by
  rw [nodePwrsave]
  split
  · exact assocStep_same (by dsimp only; split <;> rfl) rfl
  · dsimp only
    split
    · exact assocStep_same (by dsimp only; rw [ApCom.staAssoc_setTim]; split <;> rfl) rfl
    · exact assocStep_same (by dsimp only; rw [ApCom.staAssoc_setTim]; split <;> rfl) rfl

end ApNode

/-- The authentication frames that count off a station that was not counted. -/
def Ap.ghost (s : Ap) : ApEvent → Nat
  | .auth mac _ _ => if (s.findNode mac).any (·.2.ghost) then 1 else 0
  | _ => 0

theorem Ap.ghost_of_quiet (h : e.quiet = true) : s.ghost e = 0 := by
  cases e with
  | auth => cases h
  | _ => rfl

theorem NodeOp.assocStep (hfound : s.findNode ni.macaddr = some (i, ni)) (hop : NodeOp conf s.com ni e r) :
    AssocStep s.com ni (UInt16.ofNat (s.ghost e)) r := by
  cases hop with
  | recvAuth marked authorize =>
    have hghost : UInt16.ofNat (s.ghost (.auth ni.macaddr marked authorize)) = if ni.ghost then 1 else 0 := by
      rw [Ap.ghost, hfound, Option.any_some]
      split <;> rfl
    rw [hghost]
    exact ApNode.assocStep_recvAuth marked authorize
  | renew e quiet ni' renewed =>
    rw [Ap.ghost_of_quiet quiet]
    exact assocStep_same rfl renewed.associd
  | leave e quiet ni' renewed =>
    rw [Ap.ghost_of_quiet quiet]
    obtain ⟨_, _, _, _, _, _, rfl, _⟩ := renewed
    exact ApNode.assocStep_nodeLeave
  | join req ni' renewed aid free found =>
    obtain ⟨_, _, _, _, _, _, rfl, _⟩ := renewed
    exact ApNode.assocStep_nodeJoinAt free found
  | authorize on => exact assocStep_same rfl rfl
  | pwrsave enable => exact ApNode.assocStep_nodePwrsave enable
  | start m pae => exact (ApNode.queueOp_start m pae).assocStep
  | pspoll aid => exact (ApNode.queueOp_recvPspoll aid).assocStep
  | trigger r served => exact (ApNode.queueOp_recvTriggerFrame served).assocStep
  | age => exact ApNode.queueOp_nodeAge.assocStep
  | probe asleep => exact assocStep_same (ApCom.staAssoc_setTim _ _) rfl

namespace Ap

/-- A station that has left has no identifier. -/
def LeftOk (s : Ap) : Prop := ∀ ni ∈ s.nodes, ni.gone = true → ni.associd = 0

/-- The count of associated stations, with `d` authentication frames that counted off a station too many. -/
def DriftOk (d : Nat) (s : Ap) : Prop :=
  s.com.staAssoc + UInt16.ofNat d = total ApNode.associated s.nodes

end Ap

theorem QueueOp.gone (h : QueueOp c ni r) : r.ni.gone = ni.gone := by
  obtain ⟨_, _, _, _, hni⟩ := h.ni
  rw [hni]

namespace ApNode

theorem gone_recvAuth (marked authorize : Bool) : (ni.recvAuth c marked authorize).ni.gone = ni.gone := by
  rw [recvAuth, dropConnection]
  split <;> rfl

theorem gone_nodePwrsave (enable : Bool) : (ni.nodePwrsave c enable).ni.gone = ni.gone := by
  rw [nodePwrsave]
  split
  · rfl
  · dsimp only
    split <;> rfl

theorem associd_nodeLeave : (ni.nodeLeave conf c).ni.associd = 0 := by
  rw [nodeLeave]
  split
  · next hid => exact hid
  · rfl

end ApNode

theorem NodeOp.gone (hop : NodeOp conf c ni e r) : r.ni.gone = ni.gone ∨ r.ni.associd = 0 := by
  cases hop with
  | recvAuth marked authorize => exact .inl (ApNode.gone_recvAuth marked authorize)
  | leave e quiet ni' renewed => exact .inr ApNode.associd_nodeLeave
  | renew e quiet ni' renewed =>
    obtain ⟨_, _, _, _, _, _, rfl, _⟩ := renewed
    exact .inl rfl
  | join req ni' renewed aid free found =>
    obtain ⟨_, _, _, _, _, _, rfl, _⟩ := renewed
    exact .inl rfl
  | pwrsave enable => exact .inl (ApNode.gone_nodePwrsave enable)
  | start m pae => exact .inl (ApNode.queueOp_start m pae).gone
  | pspoll aid => exact .inl (ApNode.queueOp_recvPspoll aid).gone
  | trigger r served => exact .inl (ApNode.queueOp_recvTriggerFrame served).gone
  | age => exact .inl ApNode.queueOp_nodeAge.gone
  | authorize | probe => exact .inl rfl

namespace Ap

theorem LeftOk.move (hs : s.LeftOk) (h : ApMove conf s e t) : t.1.LeftOk := by
  cases h with
  | idle | refused | unknown | tbtt | construct | beacon => exact hs
  | newNode mac authorize unknown =>
    intro ni hmem hgone
    rcases List.mem_cons.mp hmem with rfl | hmem
    · rfl
    · exact hs ni hmem hgone
  | node e i ni r found at_i present op =>
    intro ni' hmem hgone
    rcases List.mem_or_eq_of_mem_set hmem with hmem | rfl
    · exact hs ni' hmem hgone
    · exact op.gone.resolve_left fun hsame => absurd (hgone.symm.trans (hsame.trans present)) (by decide)
  | release i ni at_i gone => exact fun ni' hmem => hs ni' (List.mem_of_mem_eraseIdx hmem)

theorem DriftOk.move {d : Nat} (hs : s.DriftOk d) (hleft : s.LeftOk) (h : ApMove conf s e t) :
    t.1.DriftOk (d + s.ghost e) := by
  cases h with
  | idle e quiet =>
    rw [ghost_of_quiet quiet]
    exact hs
  | beacon e quiet c op =>
    rw [ghost_of_quiet quiet, DriftOk, ApNode.staAssoc_of_core op.core_eq]
    exact hs
  | unknown | tbtt | construct => exact hs
  | refused mac authorize unknown =>
    rw [ghost, unknown]
    exact hs
  | newNode mac authorize unknown =>
    have hnew := Tally.total_cons ApNode.associated
      { macaddr := mac, needAssocid := true, auth := authorize } s.nodes
    rw [ghost, unknown]
    exact hs.trans ((zero_add _).symm.trans hnew.symm)
  | node e i ni r found at_i present op =>
    refine Tally.set_of_step at_i hs ?_
    have hstep := op.assocStep found
    rw [AssocStep] at hstep
    rw [UInt16.ofNat_add, add_comm (UInt16.ofNat d), ← add_assoc, hstep]
    abel
  | release i ni at_i gone =>
    have hid := hleft ni (List.mem_of_getElem? at_i) gone
    refine Tally.eraseIdx_of_step at_i hs ?_
    have hcount : (ni.freeNode s.com).com.staAssoc = s.com.staAssoc := by
      rw [ApNode.freeNode, ApNode.staAssoc_nodeCleanup]
      split <;> rfl
    rw [hcount, ApNode.associated_zero hid, sub_zero]
    rfl

/-- How many authentication frames of a run count off a station that was not counted. -/
def ghosts (conf : ApConf) : Ap → List ApEvent → Nat
  | _, [] => 0
  | s, e :: es => s.ghost e + ((s.step conf e).elim 0 fun t => ghosts conf t.1 es)

theorem driftOk_run {d : Nat} {es : List ApEvent} (hs : s.DriftOk d) (hleft : s.LeftOk)
    (h : s.run conf es = some t) : t.1.DriftOk (d + s.ghosts conf es) := by
  induction es generalizing s t d with
  | nil =>
    obtain rfl := Option.some.inj h
    exact hs
  | cons e es ih =>
    obtain ⟨u, v, hu, hv, rfl⟩ := run_cons_eq_some h
    have hmove := move_step hu
    have hrest := ih (t := v) (hs.move hleft hmove) (hleft.move hmove) hv
    rw [ghosts, hu, Option.elim_some, ← Nat.add_assoc]
    exact hrest

/-- The count of associated stations is their number less the number of authentication frames that hit an
authorized station without an identifier. -/
theorem run_staAssoc (conf : ApConf) (es : List ApEvent) :
    ∃ t, ({} : Ap).run conf es = some t ∧
      t.1.com.staAssoc =
        UInt16.ofNat (t.1.nodes.countP (·.associd != 0)) - UInt16.ofNat (({} : Ap).ghosts conf es) := by
  obtain ⟨t, ht⟩ := exists_run conf {} es
  have hinit : ({} : Ap).DriftOk 0 := rfl
  have hdrift := driftOk_run hinit (fun _ hmem => absurd hmem List.not_mem_nil) ht
  refine ⟨t, ht, eq_sub_of_add_eq ?_⟩
  rw [Nat.zero_add] at hdrift
  rw [← Tally.total_indicator]
  exact hdrift

-- an authorized station that authenticates twice before it associates makes the count wrap
example :
    (({} : Ap).run plainConf [.auth 7 true true, .auth 7 true true]).map (fun t => t.1.com.staAssoc) =
      some 65535 := by decide

end Ap

end Onebox.Net80211
