import Onebox.Tally
import Onebox.Net80211.ApNode

/-! The station table of an access point over whole runs: association identifiers are unique and the bitmap is
exactly the set of those in use, the counts of sleeping and of associated stations, and the frames that wait
for sleeping stations. -/

namespace Onebox.Net80211

open Tally (total perm_entry perm_set)

variable {conf : ApConf} {c : ApCom} {ni : ApNode} {r : ApStep} {s : Ap} {i : Nat}

/-! ## What the functions leave alone -/

namespace ApCom

/-- The traffic indication bits, their count and the flag are all that `ieee80211_set_tim` changes. -/
theorem setTim_eq (c : ApCom) (associd : UInt16) (set : Bool) :
    c.setTim associd set =
      { c with
        timBitmap := (c.setTim associd set).timBitmap
        psPending := (c.setTim associd set).psPending
        timFlag := (c.setTim associd set).timFlag } := by
  rw [setTim]
  split
  · rfl
  · split <;> rfl

@[simp] theorem aidBitmap_setTim (associd : UInt16) (set : Bool) :
    (c.setTim associd set).aidBitmap = c.aidBitmap := by rw [setTim_eq]

@[simp] theorem psSta_setTim (associd : UInt16) (set : Bool) : (c.setTim associd set).psSta = c.psSta := by
  rw [setTim_eq]

@[simp] theorem staAssoc_setTim (associd : UInt16) (set : Bool) :
    (c.setTim associd set).staAssoc = c.staAssoc := by rw [setTim_eq]

/-- The state without the 11g and HT bookkeeping. -/
def core (c : ApCom) : ApCom :=
  { aidBitmap := c.aidBitmap
    timBitmap := c.timBitmap
    psPending := c.psPending
    psSta := c.psSta
    ivStaAssoc := c.ivStaAssoc
    staAssoc := c.staAssoc
    timFlag := c.timFlag
    tie := c.tie }

theorem core_joinSlot : (c.joinSlot conf ni).core = c.core := by
  rw [joinSlot]
  split <;> rfl

theorem core_joinErp : (c.joinErp conf ni).core = c.core := by
  rw [joinErp]
  split
  · rfl
  · dsimp only
    split <;> split <;> rfl

theorem core_leaveSlot : (c.leaveSlot conf ni).core = c.core := by
  rw [leaveSlot]
  split
  · rfl
  · dsimp only
    split <;> rfl

theorem core_leaveErp : (c.leaveErp conf ni).core = c.core := by
  rw [leaveErp]
  split
  · rfl
  · dsimp only
    split <;> rfl

theorem core_joinBss : (c.joinBss conf ni).core = c.core := by
  rw [joinBss]
  cases conf.chanHt <;> cases conf.chanAnyg && conf.chanFull
  · rfl
  · exact core_joinErp.trans core_joinSlot
  · rfl
  · exact core_joinErp.trans core_joinSlot

theorem core_leaveBss : (c.leaveBss conf ni).core = c.core := by
  rw [leaveBss]
  cases conf.chanHt <;> cases conf.chanAnyg && conf.chanFull
  · rfl
  · exact core_leaveErp.trans core_leaveSlot
  · rfl
  · exact core_leaveErp.trans core_leaveSlot

end ApCom

namespace ApNode

/-- The node with another power-save queue. -/
def Requeued (ni ni' : ApNode) : Prop :=
  ∃ high low psqLen psqDrops,
    ni' = { ni with high := high, low := low, psqLen := psqLen, psqDrops := psqDrops }

theorem Requeued.trans {a b d : ApNode} (hab : a.Requeued b) (hbd : b.Requeued d) : a.Requeued d := by
  obtain ⟨_, _, _, _, rfl⟩ := hab
  obtain ⟨high, low, psqLen, psqDrops, rfl⟩ := hbd
  exact ⟨high, low, psqLen, psqDrops, rfl⟩

theorem Requeued.associd {a b : ApNode} (h : a.Requeued b) : b.associd = a.associd := by
  obtain ⟨_, _, _, _, rfl⟩ := h
  rfl

theorem requeued_psqEnqueue (ni : ApNode) (m : PsFrame) (age : Int) : ni.Requeued (ni.psqEnqueue m age) := by
  rw [psqEnqueue]
  split
  · split <;> exact ⟨_, _, _, _, rfl⟩
  · split <;> exact ⟨_, _, _, _, rfl⟩

theorem requeued_psqDequeue (ni : ApNode) : ni.Requeued ni.psqDequeue.2 := by
  rw [psqDequeue]
  split <;> exact ⟨_, _, _, _, rfl⟩

theorem length_psqDequeue {m : PsFrame} {ni' : ApNode} (h : ni.psqDequeue = (some m, ni')) :
    ni.high.length + ni.low.length = ni'.high.length + ni'.low.length + 1 := by
  rw [psqDequeue] at h
  split at h
  · next rest hhigh =>
    obtain ⟨-, rfl⟩ := Prod.mk.inj h
    simp only [hhigh, List.length_cons]
    omega
  · next rest hhigh hlow =>
    obtain ⟨-, rfl⟩ := Prod.mk.inj h
    simp only [hhigh, hlow, List.length_cons, List.length_nil]
    omega
  · cases (Prod.mk.inj h).1

theorem requeued_psqAge (ni : ApNode) : ni.Requeued ni.psqAge.1 := by
  rw [psqAge]
  split <;> exact ⟨_, _, _, _, rfl⟩

end ApNode

/-- Only the power-save queue of the node changes, and perhaps its traffic indication bit. -/
structure QueueOp (c : ApCom) (ni : ApNode) (r : ApStep) : Prop where
  com : r.com = c ∨ ∃ set, r.com = c.setTim ni.associd set
  ni : ni.Requeued r.ni

theorem queueOp_self (fates : List PsFate) : QueueOp c ni ⟨c, ni, fates⟩ := ⟨.inl rfl, ⟨_, _, _, _, rfl⟩⟩

namespace ApNode

theorem Requeued.queueOp_setTim {ni' : ApNode} (h : ni.Requeued ni') (set : Bool) (fates : List PsFate) :
    QueueOp c ni ⟨c.setTim ni'.associd set, ni', fates⟩ := ⟨.inr ⟨set, by rw [h.associd]⟩, h⟩

theorem queueOp_pwrsave (m : PsFrame) : QueueOp c ni (ni.pwrsave conf c m) := by
  rw [pwrsave]
  split
  · exact ⟨.inl rfl, ⟨_, _, _, _, rfl⟩⟩
  · have hni := ni.requeued_psqEnqueue m (ni.maxAge conf.bintval)
    dsimp only
    split
    · exact hni.queueOp_setTim true []
    · exact ⟨.inl rfl, hni⟩

theorem queueOp_recvPspoll (aid : UInt16) : QueueOp c ni (ni.recvPspoll c aid) := by
  have hni := ni.requeued_psqDequeue
  rw [recvPspoll]
  split
  · exact queueOp_self _
  · split
    · exact queueOp_self _
    · split
      · next ni' heq =>
        rw [heq] at hni
        exact hni.queueOp_setTim false []
      · next m ni' heq =>
        rw [heq] at hni
        split
        · exact ⟨.inl rfl, hni⟩
        · exact hni.queueOp_setTim false _

theorem queueOp_triggerLoop {k : Nat} (h : triggerLoop k c ni = some r) : QueueOp c ni r := by
  induction k generalizing ni r with
  | zero => cases h
  | succ k ih =>
    have hni := ni.requeued_psqDequeue
    rw [triggerLoop] at h
    split at h
    · next ni' heq =>
      rw [heq] at hni
      obtain rfl := Option.some.inj h
      exact hni.queueOp_setTim false []
    · next m ni' heq =>
      rw [heq] at hni
      split at h
      · obtain ⟨r', hr', rfl⟩ := Option.map_eq_some_iff.mp h
        obtain ⟨hcom, hr⟩ := ih hr'
        rw [hni.associd] at hcom
        exact ⟨hcom, hni.trans hr⟩
      · obtain rfl := Option.some.inj h
        exact hni.queueOp_setTim false _

/-- Each round takes a frame, so the loop ends. -/
theorem exists_triggerLoop {k : Nat} (h : ni.high.length + ni.low.length < k) :
    ∃ r, triggerLoop k c ni = some r := by
  induction k generalizing ni with
  | zero => omega
  | succ k ih =>
    rw [triggerLoop]
    split
    · exact ⟨_, rfl⟩
    · next m ni' heq =>
      split
      · have hlen := length_psqDequeue heq
        obtain ⟨r, hr⟩ := ih (show ni'.high.length + ni'.low.length < k by omega)
        exact ⟨_, by rw [hr]; rfl⟩
      · exact ⟨_, rfl⟩

theorem exists_recvTriggerFrame (c : ApCom) (ni : ApNode) : ∃ r, ni.recvTriggerFrame c = some r := by
  rw [recvTriggerFrame]
  split
  · exact ⟨_, rfl⟩
  · exact exists_triggerLoop (Nat.lt_succ_self _)

theorem queueOp_recvTriggerFrame (h : ni.recvTriggerFrame c = some r) : QueueOp c ni r := by
  rw [recvTriggerFrame] at h
  split at h
  · obtain rfl := Option.some.inj h
    exact queueOp_self _
  · exact queueOp_triggerLoop h

theorem queueOp_nodeAge : QueueOp c ni (ni.nodeAge c) := by
  have hni := ni.requeued_psqAge
  rw [nodeAge]
  split
  · exact hni.queueOp_setTim false _
  · exact ⟨.inl rfl, hni⟩

theorem queueOp_start (m : PsFrame) (pae : Bool) : QueueOp c ni (ni.start conf c m pae) := by
  rw [start]
  split
  · exact queueOp_self _
  · split
    · exact queueOp_pwrsave _
    · exact queueOp_self _

end ApNode

/-! ## What an event does to a station -/

namespace ApNode

/-- The node with the capabilities of another association request; an associated 11g station keeps its slot
time. -/
def Renewed (conf : ApConf) (ni ni' : ApNode) : Prop :=
  ∃ erpRates ht chw40 shortSlot shortPreamble intval,
    ni' = { ni with
      erpRates := erpRates
      ht := ht
      chw40 := chw40
      shortSlot := shortSlot
      shortPreamble := shortPreamble
      intval := intval } ∧
    (ni.associd ≠ 0 → conf.chanAnyg = true → shortSlot = ni.shortSlot)

theorem renewed_self (ni : ApNode) : ni.Renewed conf ni := ⟨_, _, _, _, _, _, rfl, fun _ _ => rfl⟩

theorem Renewed.associd {ni' : ApNode} (h : ni.Renewed conf ni') : ni'.associd = ni.associd := by
  obtain ⟨_, _, _, _, _, _, rfl, _⟩ := h
  rfl

theorem assocHt_eq (conf : ApConf) (ni : ApNode) (req : AssocReq) :
    ∃ ht chw40, ni.assocHt conf req = { ni with ht := ht, chw40 := chw40 } := by
  rw [assocHt]
  split
  · exact ⟨_, _, rfl⟩
  · exact ⟨_, ni.chw40, rfl⟩

/-- After an association request the station has to leave, or it joins. -/
theorem recvAssocReq_cases (conf : ApConf) (c : ApCom) (ni : ApNode) (req : AssocReq) :
    ∃ ni', ni.Renewed conf ni' ∧
      (ni.recvAssocReq conf c req = (ni'.nodeLeave conf c, false) ∨
        ni.recvAssocReq conf c req = ni'.nodeJoin conf c) := by
  rw [recvAssocReq]
  split
  · exact ⟨ni, ni.renewed_self, .inl rfl⟩
  · split
    · exact ⟨ni, ni.renewed_self, .inl rfl⟩
    · split
      · exact ⟨ni, ni.renewed_self, .inl rfl⟩
      · next hslot =>
        obtain ⟨ht, chw40, hassoc⟩ := assocHt_eq conf { ni with erpRates := req.erpRates } req
        rw [hassoc]
        dsimp only
        split
        · exact ⟨_, ⟨_, _, _, _, _, _, rfl, fun _ _ => rfl⟩, .inl rfl⟩
        · have hcipher : ∃ ht', (if ht ∧ !req.htCipher then
              { ni with erpRates := req.erpRates, ht := false, chw40 := chw40 }
            else { ni with erpRates := req.erpRates, ht := ht, chw40 := chw40 }) =
              { ni with erpRates := req.erpRates, ht := ht', chw40 := chw40 } := by
            split
            · exact ⟨false, rfl⟩
            · exact ⟨ht, rfl⟩
          obtain ⟨ht', hcipher⟩ := hcipher
          rw [hcipher]
          split
          · exact ⟨_, ⟨_, _, _, _, _, _, rfl, fun _ _ => rfl⟩, .inl rfl⟩
          · refine ⟨_, ⟨_, _, _, _, _, _, rfl, fun hid hg => ?_⟩, .inr rfl⟩
            exact Eq.symm (not_not.mp fun hne => hslot ⟨hid, hg, hne⟩)

end ApNode

/-- The frames that come with an event, each for the station with an address. -/
def ApEvent.offered : ApEvent → List (Nat × PsFrame)
  | .start mac m _ => [(mac, { m with encap := false })]
  | _ => []

/-- Neither a frame to send nor an authentication frame. -/
def ApEvent.quiet : ApEvent → Bool
  | .start .. => false
  | .auth .. => false
  | _ => true

theorem ApEvent.offered_of_quiet {e : ApEvent} (h : e.quiet = true) : e.offered = [] := by
  cases e with
  | start => cases h
  | _ => rfl

/-- The ways in which an event works on a station. -/
inductive NodeOp (conf : ApConf) (c : ApCom) (ni : ApNode) : ApEvent → ApStep → Prop
  | recvAuth (marked authorize : Bool) :
      NodeOp conf c ni (.auth ni.macaddr marked authorize) (ni.recvAuth c marked authorize)
  | authorize (on : Bool) : NodeOp conf c ni (.authorize ni.macaddr on) ⟨c, { ni with auth := on }, []⟩
  | renew (e : ApEvent) (quiet : e.quiet = true) (ni' : ApNode) (renewed : ni.Renewed conf ni') :
      NodeOp conf c ni e ⟨c, ni', []⟩
  | leave (e : ApEvent) (quiet : e.quiet = true) (ni' : ApNode) (renewed : ni.Renewed conf ni') :
      NodeOp conf c ni e (Ap.reclaim (ni'.nodeLeave conf c, false))
  | join (req : ApNode.AssocReq) (ni' : ApNode) (renewed : ni.Renewed conf ni') (aid : Nat)
      (free : ni'.associd = 0) (found : c.freeAid conf = some aid) :
      NodeOp conf c ni (.assoc ni.macaddr req) (ni'.nodeJoinAt conf c aid)
  | pwrsave (enable : Bool) : NodeOp conf c ni (.pwrsave ni.macaddr enable) (ni.nodePwrsave c enable)
  | start (m : PsFrame) (pae : Bool) : NodeOp conf c ni (.start ni.macaddr m pae) (ni.start conf c m pae)
  | pspoll (aid : UInt16) : NodeOp conf c ni (.pspoll ni.macaddr aid) (ni.recvPspoll c aid)
  | trigger (r : ApStep) (served : ni.recvTriggerFrame c = some r) :
      NodeOp conf c ni (.trigger ni.macaddr) r
  | age : NodeOp conf c ni (.age ni.macaddr) (ni.nodeAge c)
  | probe (asleep : ni.associd ≠ 0 ∧ ni.pwrMgt = true) :
      NodeOp conf c ni (.probe ni.macaddr) ⟨c.setTim ni.associd true, ni, []⟩

theorem nodeOp_assoc (req : ApNode.AssocReq) :
    NodeOp conf c ni (.assoc ni.macaddr req) (Ap.reclaim (ni.recvAssocReq conf c req)) := by
  obtain ⟨ni', hnew, h | h⟩ := ApNode.recvAssocReq_cases conf c ni req
  · rw [h]
    exact .leave _ rfl ni' hnew
  · rw [h, ApNode.nodeJoin]
    split
    · next hfree =>
      split
      · exact .leave _ rfl ni' hnew
      · next aid hfound => exact .join req ni' hnew aid hfree hfound
    · exact .renew _ rfl ni' hnew

/-- The ways in which an event works on what the stations share. -/
inductive ComOp (conf : ApConf) (c : ApCom) : ApCom → Prop
  | beaconErp : ComOp conf c (c.beaconErp conf)
  | htprotUpdate (protmode : UInt8) : ComOp conf c (c.htprotUpdate protmode)
  | erpTimeout (late : Bool) : ComOp conf c (c.erpTimeout conf late)
  | htTimeout (late : Bool) : ComOp conf c (c.htTimeout conf late)

theorem ComOp.core_eq {c' : ApCom} (h : ComOp conf c c') : c'.core = c.core := by
  cases h with
  | beaconErp =>
    rw [ApCom.beaconErp]
    split <;> rfl
  | htprotUpdate protmode =>
    rw [ApCom.htprotUpdate]
    dsimp only
    split <;> rfl
  | erpTimeout late =>
    rw [ApCom.erpTimeout]
    dsimp only
    split
    · split <;> rfl
    · rfl
  | htTimeout late =>
    rw [ApCom.htTimeout]
    split <;> rfl

/-- What an event does to the access point: it works on a station of the table, adds one or drops one that has
left, or changes only the 11g and HT bookkeeping. -/
inductive ApMove (conf : ApConf) (s : Ap) : ApEvent → ApOut → Prop
  | idle (e : ApEvent) (quiet : e.quiet = true) : ApMove conf s e (s, [])
  | node (e : ApEvent) (i : Nat) (ni : ApNode) (r : ApStep) (found : s.findNode ni.macaddr = some (i, ni))
      (at_i : s.nodes[i]? = some ni) (present : ni.gone = false) (op : NodeOp conf s.com ni e r) :
      ApMove conf s e (⟨r.com, s.nodes.set i r.ni⟩, r.fates.map (ni.macaddr, ·))
  | newNode (mac : Nat) (authorize : Bool) (unknown : s.findNode mac = none) :
      ApMove conf s (.auth mac true authorize)
        ({ s with nodes := { macaddr := mac, needAssocid := true, auth := authorize } :: s.nodes }, [])
  | refused (mac : Nat) (authorize : Bool) (unknown : s.findNode mac = none) :
      ApMove conf s (.auth mac false authorize) (s, [])
  | unknown (mac : Nat) (m : PsFrame) (pae : Bool) :
      ApMove conf s (.start mac m pae) (s, [(mac, .free { m with encap := false })])
  | release (i : Nat) (ni : ApNode) (at_i : s.nodes[i]? = some ni) (gone : ni.gone = true) :
      ApMove conf s (.release i)
        (⟨(ni.freeNode s.com).com, s.nodes.eraseIdx i⟩, (ni.freeNode s.com).fates.map (ni.macaddr, ·))
  | tbtt (mcast : Bool) : ApMove conf s (.tbtt mcast) ({ s with com := s.com.beaconUpdate conf mcast }, [])
  | construct : ApMove conf s .construct ({ s with com := s.com.beaconConstruct }, [])
  | beacon (e : ApEvent) (quiet : e.quiet = true) (c : ApCom) (op : ComOp conf s.com c) :
      ApMove conf s e ({ s with com := c }, [])

namespace Ap

variable {e : ApEvent} {t : ApOut} {mac : Nat}

theorem findNode_eq_some (h : s.findNode mac = some (i, ni)) :
    s.nodes[i]? = some ni ∧ ni.gone = false ∧ ni.macaddr = mac := by
  obtain ⟨j, hj, h⟩ := Option.bind_eq_some_iff.mp h
  obtain ⟨nj, hnj, hpair⟩ := Option.map_eq_some_iff.mp h
  obtain ⟨rfl, rfl⟩ := Prod.mk.inj hpair
  obtain ⟨hlt, hfound, -⟩ := List.findIdx?_eq_some_iff_getElem.mp hj
  obtain ⟨_, rfl⟩ := List.getElem?_eq_some_iff.mp hnj
  simp only [Bool.and_eq_true, Bool.not_eq_true', beq_iff_eq] at hfound
  exact ⟨hnj, hfound⟩

theorem findNode_eq_none (h : s.findNode mac = none) (hmem : ni ∈ s.nodes) :
    ni.gone = true ∨ ni.macaddr ≠ mac := by
  cases hidx : s.nodes.findIdx? fun ni => !ni.gone && ni.macaddr == mac with
  | none =>
    have hnot := List.findIdx?_eq_none_iff.mp hidx ni hmem
    cases hgone : ni.gone with
    | true => exact .inl rfl
    | false =>
      rw [hgone] at hnot
      exact .inr (by simpa using hnot)
  | some i =>
    obtain ⟨hlt, -⟩ := List.findIdx?_eq_some_iff_getElem.mp hidx
    rw [findNode, hidx, Option.bind_some, List.getElem?_eq_getElem hlt] at h
    cases h

theorem move_onNode {f : ApCom → ApNode → Option ApStep} (hquiet : e.quiet = true)
    (hop : ∀ ni r, ni.macaddr = mac → f s.com ni = some r → NodeOp conf s.com ni e r)
    (h : s.onNode mac f = some t) : ApMove conf s e t := by
  rw [onNode] at h
  split at h
  · obtain rfl := Option.some.inj h
    exact .idle e hquiet
  · next i ni hfind =>
    obtain ⟨hi, hgone, rfl⟩ := findNode_eq_some hfind
    obtain ⟨r, hr, rfl⟩ := Option.map_eq_some_iff.mp h
    exact .node e i ni r hfind hi hgone (hop ni r rfl hr)

theorem move_onNode_total {f : ApCom → ApNode → ApStep} (hquiet : e.quiet = true)
    (hop : ∀ ni, ni.macaddr = mac → NodeOp conf s.com ni e (f s.com ni))
    (h : (s.onNode mac fun c ni => some (f c ni)) = some t) : ApMove conf s e t := by
  refine move_onNode hquiet (fun ni r hmac hr => ?_) h
  obtain rfl := Option.some.inj hr
  exact hop ni hmac

theorem move_found {f : ApCom → ApNode → ApStep} (hfind : s.findNode mac = some (i, ni))
    (hop : ni.macaddr = mac → NodeOp conf s.com ni e (f s.com ni))
    (h : (s.onNode mac fun c ni => some (f c ni)) = some t) : ApMove conf s e t := by
  obtain ⟨hi, hgone, rfl⟩ := findNode_eq_some hfind
  rw [onNode, hfind] at h
  obtain rfl := Option.some.inj h
  exact .node e i ni _ hfind hi hgone (hop rfl)

theorem move_auth {marked authorize : Bool} (h : s.auth mac marked authorize = some t) :
    ApMove conf s (.auth mac marked authorize) t := by
  rw [auth] at h
  split at h
  · next hfind =>
    split at h
    · next hmarked =>
      obtain rfl := Option.some.inj h
      rw [hmarked]
      exact .newNode mac authorize hfind
    · next hmarked =>
      obtain rfl := Option.some.inj h
      rw [Bool.eq_false_iff.mpr hmarked]
      exact .refused mac authorize hfind
  · next hfind => exact move_found hfind (fun hmac => hmac ▸ .recvAuth marked authorize) h

theorem move_start {m : PsFrame} {pae : Bool} (h : s.start conf mac m pae = some t) :
    ApMove conf s (.start mac m pae) t := by
  rw [start] at h
  split at h
  · obtain rfl := Option.some.inj h
    exact .unknown mac m pae
  · next hfind => exact move_found hfind (fun hmac => hmac ▸ .start m pae) h

theorem move_release : ApMove conf s (.release i) (s.release i) := by
  rw [release]
  split
  · exact .idle _ rfl
  · next ni hi =>
    split
    · next hgone => exact .release i ni hi hgone
    · exact .idle _ rfl

theorem move_step (h : s.step conf e = some t) : ApMove conf s e t := by
  cases e with
  | auth mac marked authorize => exact move_auth h
  | authorize mac on =>
    rw [step] at h
    exact move_onNode_total rfl (fun ni hmac => hmac ▸ .authorize on) h
  | assoc mac req =>
    rw [step] at h
    exact move_onNode_total rfl (fun ni hmac => hmac ▸ nodeOp_assoc req) h
  | leave mac =>
    rw [step] at h
    exact move_onNode_total rfl (fun ni _ => .leave _ rfl ni ni.renewed_self) h
  | release i =>
    obtain rfl := Option.some.inj h
    exact move_release
  | pwrsave mac enable =>
    rw [step] at h
    exact move_onNode_total rfl (fun ni hmac => hmac ▸ .pwrsave enable) h
  | start mac m pae => exact move_start h
  | pspoll mac aid =>
    rw [step] at h
    exact move_onNode_total rfl (fun ni hmac => hmac ▸ .pspoll aid) h
  | trigger mac =>
    rw [step] at h
    refine move_onNode rfl (fun ni r hmac hr => ?_) h
    rw [← hmac]
    exact .trigger r hr
  | age mac =>
    rw [step] at h
    exact move_onNode_total rfl (fun ni hmac => hmac ▸ .age) h
  | probe mac =>
    rw [step] at h
    refine move_onNode_total rfl (fun ni hmac => ?_) h
    split
    · next hasleep => exact hmac ▸ .probe hasleep
    · exact .renew _ rfl ni ni.renewed_self
  | tbtt mcast =>
    obtain rfl := Option.some.inj h
    exact .tbtt mcast
  | construct =>
    obtain rfl := Option.some.inj h
    exact .construct
  | beaconErp =>
    obtain rfl := Option.some.inj h
    exact .beacon _ rfl _ .beaconErp
  | beaconHt mixed =>
    obtain rfl := Option.some.inj h
    exact .beacon _ rfl _ (.htprotUpdate _)
  | erpTimeout late =>
    obtain rfl := Option.some.inj h
    exact .beacon _ rfl _ (.erpTimeout late)
  | htTimeout late =>
    obtain rfl := Option.some.inj h
    exact .beacon _ rfl _ (.htTimeout late)

theorem exists_onNode {f : ApCom → ApNode → Option ApStep} (hf : ∀ ni, ∃ r, f s.com ni = some r) :
    ∃ t, s.onNode mac f = some t := by
  rw [onNode]
  split
  · exact ⟨_, rfl⟩
  · next i ni _ =>
    obtain ⟨r, hr⟩ := hf ni
    exact ⟨_, by rw [hr]; rfl⟩

theorem exists_step (conf : ApConf) (s : Ap) (e : ApEvent) : ∃ t, s.step conf e = some t := by
  cases e with
  | release | tbtt | construct | beaconErp | beaconHt | erpTimeout | htTimeout => exact ⟨_, rfl⟩
  | auth mac marked authorize =>
    rw [step, auth]
    split
    · split <;> exact ⟨_, rfl⟩
    · exact exists_onNode fun _ => ⟨_, rfl⟩
  | start mac m pae =>
    rw [step, start]
    split
    · exact ⟨_, rfl⟩
    · exact exists_onNode fun _ => ⟨_, rfl⟩
  | trigger mac => exact exists_onNode fun ni => ni.exists_recvTriggerFrame s.com
  | authorize | assoc | leave | pwrsave | pspoll | age | probe =>
    rw [step]
    exact exists_onNode fun _ => ⟨_, rfl⟩

theorem exists_run (conf : ApConf) (s : Ap) (es : List ApEvent) : ∃ t, s.run conf es = some t := by
  induction es generalizing s with
  | nil => exact ⟨_, rfl⟩
  | cons e es ih =>
    obtain ⟨u, hu⟩ := exists_step conf s e
    obtain ⟨v, hv⟩ := ih u.1
    exact ⟨_, by rw [run, hu, Option.bind_some, hv, Option.map_some]⟩

theorem run_cons_eq_some {es : List ApEvent} (h : s.run conf (e :: es) = some t) :
    ∃ u v, s.step conf e = some u ∧ u.1.run conf es = some v ∧ t = (v.1, u.2 ++ v.2) := by
  obtain ⟨u, hu, h⟩ := Option.bind_eq_some_iff.mp h
  obtain ⟨v, hv, rfl⟩ := Option.map_eq_some_iff.mp h
  exact ⟨u, v, hu, hv, rfl⟩

theorem run_cons {es : List ApEvent} (h : s.run conf (e :: es) = some t) :
    ∃ u v, ApMove conf s e u ∧ u.1.run conf es = some v ∧ t = (v.1, u.2 ++ v.2) := by
  obtain ⟨u, v, hu, hv, rfl⟩ := run_cons_eq_some h
  exact ⟨u, v, move_step hu, hv, rfl⟩

/-- What every move keeps holds after a run. -/
theorem run_induct {P : Ap → Prop} (hmove : ∀ s e t, ApMove conf s e t → P s → P t.1) {es : List ApEvent}
    (hs : P s) (h : s.run conf es = some t) : P t.1 := by
  induction es generalizing s t with
  | nil =>
    obtain rfl := Option.some.inj h
    exact hs
  | cons e es ih =>
    obtain ⟨u, v, hu, hv, rfl⟩ := run_cons h
    exact ih (t := v) (hmove s e u hu hs) hv

end Ap

/-! ## Association identifiers -/

/-- What may happen to the identifier of one station. -/
inductive AidStep (conf : ApConf) (c : ApCom) (ni : ApNode) (r : ApStep) : Prop
  | keep (bits : r.com.aidBitmap = c.aidBitmap) (id : r.ni.associd = ni.associd)
  | clear (bits : r.com.aidBitmap = Function.update c.aidBitmap (aidOf ni.associd) false)
      (id : r.ni.associd = 0)
  | take (aid : Nat) (free : ni.associd = 0) (range : 1 ≤ aid ∧ aid < conf.maxAid)
      (unused : c.aidBitmap aid = false) (least : ∀ a, 1 ≤ a → a < aid → c.aidBitmap a = true) (bits : r.com.aidBitmap = Function.update c.aidBitmap aid true)
      (id : r.ni.associd ≠ 0 ∧ aidOf r.ni.associd = aid)

theorem QueueOp.aidStep (h : QueueOp c ni r) : AidStep conf c ni r := by
  refine .keep ?_ h.ni.associd
  rcases h.com with hcom | ⟨set, hcom⟩
  · rw [hcom]
  · rw [hcom, ApCom.aidBitmap_setTim]

theorem AidStep.of_associd {ni' : ApNode} (hid : ni'.associd = ni.associd) (h : AidStep conf c ni' r) :
    AidStep conf c ni r := by
  cases h with
  | keep bits id => exact .keep bits (id.trans hid)
  | clear bits id => exact .clear (hid ▸ bits) id
  | take aid free range unused least bits id => exact .take aid (hid ▸ free) range unused least bits id

namespace ApNode

theorem aidStep_nodePwrsave (enable : Bool) : AidStep conf c ni (ni.nodePwrsave c enable) := by
  rw [nodePwrsave]
  dsimp only
  split
  · exact .keep (by dsimp only; split <;> rfl) rfl
  · split
    · exact .keep (by dsimp only; rw [ApCom.aidBitmap_setTim]; split <;> rfl) rfl
    · exact .keep (by dsimp only; rw [ApCom.aidBitmap_setTim]; split <;> rfl) rfl

theorem aidBitmap_nodeCleanup : (ni.nodeCleanup c).com.aidBitmap = c.aidBitmap := by
  rw [nodeCleanup]
  dsimp only
  split
  · rw [ApCom.aidBitmap_setTim]
    split <;> rfl
  · split <;> rfl

theorem aidBitmap_nodeLeave (hid : ni.associd ≠ 0) :
    (ni.nodeLeave conf c).com.aidBitmap = Function.update c.aidBitmap (aidOf ni.associd) false := by
  rw [nodeLeave, if_neg hid, aidBitmap_nodeCleanup]
  exact congrArg ApCom.aidBitmap ApCom.core_leaveBss

theorem aidStep_nodeLeave : AidStep conf c ni (ni.nodeLeave conf c) := by
  by_cases hid : ni.associd = 0
  · rw [nodeLeave, if_pos hid]
    exact .keep rfl rfl
  · refine .clear (aidBitmap_nodeLeave hid) ?_
    rw [nodeLeave, if_neg hid]
    rfl

theorem aidStep_dropConnection : AidStep conf c ni (ni.dropConnection c) := by
  rw [dropConnection]
  split
  · refine .clear ?_ rfl
    rw [aidBitmap_nodeCleanup]
  · exact .keep rfl rfl

theorem aidOf_join {aid : Nat} (h : aid < 0x4000) :
    aid.toUInt16 ||| 0xc000 ≠ 0 ∧ aidOf (aid.toUInt16 ||| 0xc000) = aid := by
  have hword : aid.toUInt16.toNat = aid := by
    rw [Nat.toUInt16, UInt16.toNat_ofNat']
    exact Nat.mod_eq_of_lt (by omega)
  have hor : (aid.toUInt16 ||| 0xc000).toNat = aid ||| 0xc000 := by
    rw [UInt16.toNat_or, hword]
    rfl
  constructor
  · intro hzero
    rw [hzero] at hor
    have hle : 0xc000 ≤ aid ||| 0xc000 := Nat.right_le_or
    have hnat : (0 : UInt16).toNat = 0 := rfl
    omega
  · have hmask : (0x3fff : UInt16).toNat = 2 ^ 14 - 1 := rfl
    have hlow : 0xc000 % 2 ^ 14 = 0 := rfl
    rw [aidOf, UInt16.toNat_and, hor, hmask, Nat.and_two_pow_sub_one_eq_mod, Nat.or_mod_two_pow, hlow,
      Nat.or_zero]
    exact Nat.mod_eq_of_lt h

theorem freeAid_spec {aid : Nat} (h : c.freeAid conf = some aid) :
    (1 ≤ aid ∧ aid < conf.maxAid) ∧ c.aidBitmap aid = false := by
  have hrange := List.mem_range'_1.mp (List.mem_of_find?_eq_some h)
  exact ⟨by omega, by simpa using List.find?_some h⟩

/-- The first free identifier is taken. -/
theorem freeAid_least {aid a : Nat} (h : c.freeAid conf = some aid) (hpos : 1 ≤ a) (hlt : a < aid) :
    c.aidBitmap a = true := by
  obtain ⟨-, k, hk, hfound, hbefore⟩ := List.find?_eq_some_iff_getElem.mp h
  rw [List.length_range'] at hk
  rw [List.getElem_range'] at hfound
  have hused := hbefore (a - 1) (by omega)
  rw [List.getElem_range'] at hused
  simpa [show 1 + (a - 1) = a by omega] using hused

theorem associd_nodeJoinAt {aid : Nat} (ni : ApNode) (h : c.freeAid conf = some aid) :
    (ni.nodeJoinAt conf c aid).ni.associd ≠ 0 ∧ aidOf (ni.nodeJoinAt conf c aid).ni.associd = aid := by
  have hrange := (freeAid_spec h).1
  have hmax := conf.maxAid_le
  exact aidOf_join (by omega)

theorem aidStep_nodeJoinAt {aid : Nat} (hfree : ni.associd = 0) (h : c.freeAid conf = some aid) :
    AidStep conf c ni (ni.nodeJoinAt conf c aid) := by
  obtain ⟨hrange, hunused⟩ := freeAid_spec h
  obtain ⟨hne, hid⟩ := associd_nodeJoinAt ni h
  have hbits : (ni.nodeJoinAt conf c aid).com.aidBitmap =
      Function.update c.aidBitmap (aidOf (ni.nodeJoinAt conf c aid).ni.associd) true :=
    congrArg ApCom.aidBitmap ApCom.core_joinBss
  rw [hid] at hbits
  exact .take aid hfree hrange hunused (fun _ => freeAid_least h) hbits ⟨hne, hid⟩

theorem aidStep_recvAuth (marked authorize : Bool) : AidStep conf c ni (ni.recvAuth c marked authorize) := by
  cases aidStep_dropConnection with
  | keep bits id => exact .keep bits id
  | clear bits id => exact .clear bits id
  | take aid free range unused least bits id => exact .take aid free range unused least bits id

theorem aidStep_freeNode : AidStep conf c ni (ni.freeNode c) := by
  rw [freeNode]
  split
  · refine .clear ?_ rfl
    rw [aidBitmap_nodeCleanup]
  · next hid => exact .keep aidBitmap_nodeCleanup (not_not.mp hid).symm

end ApNode

theorem AidStep.reclaim (h : AidStep conf c ni r) : AidStep conf c ni (Ap.reclaim (r, false)) := by
  cases h with
  | keep bits id => exact .keep bits id
  | clear bits id => exact .clear bits id
  | take aid free range unused least bits id => exact .take aid free range unused least bits id

theorem NodeOp.aidStep {e : ApEvent} (h : NodeOp conf c ni e r) : AidStep conf c ni r := by
  cases h with
  | recvAuth marked authorize => exact ApNode.aidStep_recvAuth marked authorize
  | authorize on => exact .keep rfl rfl
  | renew _ _ ni' renewed => exact .keep rfl renewed.associd
  | leave _ _ ni' renewed => exact AidStep.of_associd renewed.associd ApNode.aidStep_nodeLeave.reclaim
  | join req ni' renewed aid free found =>
    exact AidStep.of_associd renewed.associd (ApNode.aidStep_nodeJoinAt free found)
  | pwrsave enable => exact ApNode.aidStep_nodePwrsave enable
  | start m pae => exact (ApNode.queueOp_start m pae).aidStep
  | pspoll aid => exact (ApNode.queueOp_recvPspoll aid).aidStep
  | trigger r served => exact (ApNode.queueOp_recvTriggerFrame served).aidStep
  | age => exact ApNode.queueOp_nodeAge.aidStep
  | probe asleep => exact .keep (ApCom.aidBitmap_setTim _ _) rfl

/-- The identifiers in use. -/
def Ap.aids (nodes : List ApNode) : List Nat :=
  nodes.filterMap fun ni => if ni.associd = 0 then none else some (aidOf ni.associd)

/-- Identifiers are taken once, and the bitmap says which. -/
structure AidTable (conf : ApConf) (bits : Nat → Bool) (aids : List Nat) : Prop where
  nodup : aids.Nodup
  range : ∀ aid ∈ aids, 1 ≤ aid ∧ aid < conf.maxAid
  used : ∀ aid, bits aid = true ↔ aid ∈ aids

namespace AidTable

variable {bits : Nat → Bool} {aid : Nat} {aids aids' : List Nat}

theorem perm (h : AidTable conf bits aids) (hperm : aids.Perm aids') : AidTable conf bits aids' where
  nodup := hperm.nodup_iff.mp h.nodup
  range a ha := h.range a (hperm.mem_iff.mpr ha)
  used a := (h.used a).trans hperm.mem_iff

theorem clear (h : AidTable conf bits (aid :: aids)) :
    AidTable conf (Function.update bits aid false) aids where
  nodup := h.nodup.of_cons
  range a ha := h.range a (List.mem_cons_of_mem _ ha)
  used a := by
    have hnew := (List.nodup_cons.mp h.nodup).1
    rw [Function.update_apply]
    split
    · next ha => simpa [ha] using hnew
    · next ha => simpa [ha] using h.used a

/-- No station has the identifier that an unassociated one would give back. -/
theorem clear_zero (h : AidTable conf bits aids) : AidTable conf (Function.update bits 0 false) aids where
  nodup := h.nodup
  range := h.range
  used a := by
    rw [Function.update_apply]
    split
    · next ha =>
      have hzero : 0 ∉ aids := fun hmem => absurd (h.range 0 hmem).1 (by omega)
      simpa [ha] using hzero
    · exact h.used a

theorem take (h : AidTable conf bits aids) (hrange : 1 ≤ aid ∧ aid < conf.maxAid)
    (hunused : bits aid = false) : AidTable conf (Function.update bits aid true) (aid :: aids) where
  nodup := List.nodup_cons.mpr ⟨fun hmem => by simp [(h.used aid).mpr hmem] at hunused, h.nodup⟩
  range a ha := by
    rcases List.mem_cons.mp ha with rfl | ha
    · exact hrange
    · exact h.range a ha
  used a := by
    rw [Function.update_apply]
    split
    · next ha => simp [ha]
    · next ha => simpa [ha] using h.used a

end AidTable

namespace Ap

theorem aids_cons_free (nodes : List ApNode) (h : ni.associd = 0) : aids (ni :: nodes) = aids nodes := by
  rw [aids, List.filterMap_cons_none (by rw [if_pos h]), aids]

theorem aids_cons_used (nodes : List ApNode) (h : ni.associd ≠ 0) :
    aids (ni :: nodes) = aidOf ni.associd :: aids nodes := by
  rw [aids, List.filterMap_cons_some (by rw [if_neg h]), aids]

theorem aids_cons_congr {ni' : ApNode} (nodes : List ApNode) (h : ni'.associd = ni.associd) :
    aids (ni' :: nodes) = aids (ni :: nodes) := by
  by_cases hid : ni.associd = 0
  · rw [aids_cons_free nodes hid, aids_cons_free nodes (h.trans hid)]
  · rw [aids_cons_used nodes hid, aids_cons_used nodes (h ▸ hid), h]

end Ap

/-- A step of the first station of the table. -/
theorem AidStep.aidTable {rest : List ApNode} (h : AidStep conf c ni r)
    (htable : AidTable conf c.aidBitmap (Ap.aids (ni :: rest))) :
    AidTable conf r.com.aidBitmap (Ap.aids (r.ni :: rest)) := by
  cases h with
  | keep bits id =>
    rw [bits, Ap.aids_cons_congr rest id]
    exact htable
  | clear bits id =>
    rw [bits, Ap.aids_cons_free rest id]
    by_cases hid : ni.associd = 0
    · rw [Ap.aids_cons_free rest hid] at htable
      rw [hid]
      exact htable.clear_zero
    · rw [Ap.aids_cons_used rest hid] at htable
      exact htable.clear
  | take aid free range unused least bits id =>
    rw [Ap.aids_cons_free rest free] at htable
    rw [bits, Ap.aids_cons_used rest id.1, id.2]
    exact htable.take range unused

namespace Ap

/-- Association identifiers are unique and the bitmap says exactly which are in use. -/
def AidsOk (conf : ApConf) (s : Ap) : Prop := AidTable conf s.com.aidBitmap (aids s.nodes)

theorem aids_perm {nodes nodes' : List ApNode} (h : nodes.Perm nodes') : (aids nodes).Perm (aids nodes') :=
  h.filterMap _

theorem AidsOk.move {e : ApEvent} {t : ApOut} (hs : s.AidsOk conf) (h : ApMove conf s e t) :
    t.1.AidsOk conf := by
  cases h with
  | idle | newNode | refused | unknown | tbtt | construct => exact hs
  | node e i ni r found at_i present op =>
    have hfirst : AidTable conf s.com.aidBitmap (aids (ni :: s.nodes.eraseIdx i)) :=
      hs.perm (aids_perm (perm_entry at_i))
    exact (op.aidStep.aidTable hfirst).perm (aids_perm (perm_set at_i r.ni).symm)
  | release i ni at_i gone =>
    have hfirst : AidTable conf s.com.aidBitmap (aids (ni :: s.nodes.eraseIdx i)) :=
      hs.perm (aids_perm (perm_entry at_i))
    have hfree := ApNode.aidStep_freeNode.aidTable hfirst
    rw [aids_cons_free _ rfl] at hfree
    exact hfree
  | beacon e quiet c op =>
    have hbits := congrArg ApCom.aidBitmap op.core_eq
    show AidTable conf c.core.aidBitmap (aids s.nodes)
    rw [hbits]
    exact hs

theorem aidsOk_init : ({} : Ap).AidsOk conf where
  nodup := List.nodup_nil
  range aid h := absurd h List.not_mem_nil
  used aid := by simp [aids]

/-- Whatever stations do, two associated stations never have the same association identifier, every identifier
is in range, and the bitmap has a bit set exactly for those that a station has. -/
theorem run_aidsOk (conf : ApConf) (es : List ApEvent) :
    ∃ t, ({} : Ap).run conf es = some t ∧ t.1.AidsOk conf := by
  obtain ⟨t, ht⟩ := exists_run conf {} es
  exact ⟨t, ht, run_induct (fun _ _ _ h hs => hs.move h) aidsOk_init ht⟩

end Ap

end Onebox.Net80211
