import Onebox.Net80211.ApTim

/-! What a beacon says about sleeping stations over whole runs. The assertion on the bitmap in
`ieee80211_beacon_update` holds and the length of the element is right; the element itself is right exactly
when its length changes or its offset happens to be the one of the last change, which is always so with at
most fifteen stations at a time and a beacon that is not built anew while frames wait. -/

namespace Onebox.Net80211

variable {conf : ApConf} {c c' : ApCom} {ni : ApNode} {r : ApStep}
variable {s : Ap} {e : ApEvent} {t : ApOut}

namespace ApCom

/-- The bytes of the bitmap. -/
def timMap (conf : ApConf) (c : ApCom) : List UInt8 := timBytes c.timBitmap conf.timLen

/-- The element is well formed, and only identifiers in range have their bit set. -/
structure TieOk (conf : ApConf) (c : ApCom) : Prop where
  tie : c.tie.Ok
  range : ∀ aid, c.timBitmap aid = true → aid < conf.maxAid

theorem TieOk.of_tim (h : c.TieOk conf) (htim : c'.tim = c.tim) : c'.TieOk conf := by
  obtain ⟨hbits, -, -, htie⟩ := TimState.mk.inj htim
  refine ⟨?_, ?_⟩
  · rw [htie]
    exact h.tie
  · rw [hbits]
    exact h.range

theorem tie_setTim (associd : UInt16) (set : Bool) : (c.setTim associd set).tie = c.tie := by rw [setTim_eq]

theorem TieOk.setTim {associd : UInt16} (h : c.TieOk conf) (hid : aidOf associd < conf.maxAid) (set : Bool) :
    (c.setTim associd set).TieOk conf := by
  refine ⟨?_, fun aid hbit => ?_⟩
  · rw [tie_setTim]
    exact h.tie
  · rw [timBitmap_setTim, Function.update_apply] at hbit
    split at hbit
    · next heq => rwa [heq]
    · exact h.range aid hbit

end ApCom

theorem TimStep.tieOk (h : TimStep c ni r) (hc : c.TieOk conf) (hid : aidOf ni.associd < conf.maxAid)
    (hpos : 0 < conf.maxAid) : r.com.TieOk conf := by
  cases h with
  | keep tim => exact hc.of_tim tim
  | own set tim => exact (hc.setTim hid set).of_tim tim
  | zero tim =>
    have hzero : aidOf 0 < conf.maxAid := hpos
    exact (hc.setTim hzero false).of_tim tim

namespace ApCom

/-- A station waits exactly if a byte of the bitmap is not zero. -/
theorem timMap_getD (h : c.TieOk conf) {aid : Nat} (hbit : c.timBitmap aid = true) :
    (c.timMap conf).getD (aid / 8) 0 ≠ 0 := by
  have hrange := h.range aid hbit
  refine isset_byte ?_
  rw [timMap, isset_timBytes (by rw [ApConf.timLen]; omega)]
  exact hbit

theorem length_timMap : (c.timMap conf).length = conf.timLen := by
  rw [timMap, timBytes, List.length_map, List.length_range]

theorem timMap_zero (h : c.PendingOk) (hnone : c.psPending = 0) (k : Nat) : (c.timMap conf).getD k 0 = 0 := by
  by_contra hne
  have hk := lt_length_of_getD hne
  obtain ⟨j, hj, hset⟩ := exists_isset hne
  have hmax := conf.maxAid_le
  rw [length_timMap, ApConf.timLen] at hk
  rw [timMap, isset_timBytes (by rw [ApConf.timLen]; omega)] at hset
  rw [PendingOk, hnone] at h
  have hempty := Finset.card_eq_zero.mp h.symm
  have hmem : 8 * k + j ∈ (Finset.range 0x4000).filter fun aid => c.timBitmap aid = true :=
    Finset.mem_filter.mpr ⟨Finset.mem_range.mpr (by omega), hset⟩
  rw [hempty] at hmem
  exact absurd hmem (Finset.notMem_empty _)

theorem timMap_ne_zero (h : c.PendingOk) (hok : c.TieOk conf) (hsome : c.psPending ≠ 0) :
    ∃ k, (c.timMap conf).getD k 0 ≠ 0 := by
  have hcard : ((Finset.range 0x4000).filter fun aid => c.timBitmap aid = true).card ≠ 0 := by
    rw [← h]
    exact fun hzero => hsome (UInt16.toNat_inj.mp hzero)
  obtain ⟨aid, hmem⟩ := Finset.card_ne_zero.mp hcard
  exact ⟨aid / 8, timMap_getD hok (Finset.mem_filter.mp hmem).2⟩

/-- What the update makes of the element is right exactly if no station waits, the length changes or the
offset is the old one. -/
theorem shows_beaconUpdate_iff (hmax : conf.maxAid ≤ 2008) (h : c.PendingOk) (hok : c.TieOk conf)
    (hflag : c.timFlag = true) (mcast : Bool) :
    (c.beaconUpdate conf mcast).tie.Shows (c.timMap conf) ↔
      c.psPending = 0 ∨ (timRange (c.timMap conf) true).2 ≠ c.tie.boTimLen ∨
        c.tie.offset = (timRange (c.timMap conf) true).1 := by
  have hlen : (c.timMap conf).length ≤ 251 := by
    rw [length_timMap, ApConf.timLen]
    omega
  have hcount : (c.beaconUpdate conf mcast).tie.Shows (c.timMap conf) ↔
      (c.tie.update (c.timMap conf) (c.psPending != 0)).Shows (c.timMap conf) := by
    rw [beaconUpdate, if_pos hflag]
    exact forall_congr' fun aid => by rw [TimIe.announces_countDown]; rfl
  rw [hcount]
  by_cases hnone : c.psPending = 0
  · rw [hnone]
    exact iff_of_true (TimIe.shows_update_none hok.tie (timMap_zero h hnone)) (.inl rfl)
  · obtain ⟨k, hk⟩ := timMap_ne_zero h hok hnone
    rw [bne_iff_ne.mpr hnone, TimIe.shows_update_iff hok.tie hlen hk]
    exact (or_iff_right hnone).symm

theorem exists_byte (h : c.PendingOk) (hok : c.TieOk conf) :
    (c.psPending != 0) = true → ∃ k, (c.timMap conf).getD k 0 ≠ 0 := fun hsome =>
  timMap_ne_zero h hok (bne_iff_ne.mp hsome)

theorem TieOk.beaconUpdate (hmax : conf.maxAid ≤ 2008) (h : c.PendingOk) (hok : c.TieOk conf) (mcast : Bool) :
    (c.beaconUpdate conf mcast).TieOk conf := by
  refine ⟨?_, hok.range⟩
  rw [ApCom.beaconUpdate]
  split
  · refine TimIe.ok_update hok.tie ?_ (exists_byte h hok)
    rw [← timMap, length_timMap, ApConf.timLen]
    omega
  · exact hok.tie

end ApCom

namespace Ap

/-- All that the beacon rests on. -/
structure BeaconOk (conf : ApConf) (s : Ap) : Prop where
  aids : s.AidsOk conf
  pending : s.com.PendingOk
  tie : s.com.TieOk conf

theorem aidOf_lt_maxAid (hs : s.AidsOk conf) (hpos : 0 < conf.maxAid) (hmem : ni ∈ s.nodes) :
    aidOf ni.associd < conf.maxAid := by
  by_cases hid : ni.associd = 0
  · rw [hid]
    exact hpos
  · exact (hs.range _ (List.mem_filterMap.mpr ⟨ni, hmem, by rw [if_neg hid]⟩)).2

theorem BeaconOk.move (hpos : 0 < conf.maxAid) (hmax : conf.maxAid ≤ 2008) (hs : s.BeaconOk conf)
    (h : ApMove conf s e t) : t.1.BeaconOk conf := by
  refine ⟨hs.aids.move h, hs.pending.move h, ?_⟩
  cases h with
  | idle | newNode | refused | unknown => exact hs.tie
  | node e i ni r found at_i present op =>
    exact op.timStep.tieOk hs.tie (aidOf_lt_maxAid hs.aids hpos (List.mem_of_getElem? at_i)) hpos
  | release i ni at_i gone =>
    exact ApNode.timStep_freeNode.tieOk hs.tie
      (aidOf_lt_maxAid hs.aids hpos (List.mem_of_getElem? at_i)) hpos
  | tbtt mcast => exact hs.tie.beaconUpdate hmax hs.pending mcast
  | construct => exact ⟨rfl, hs.tie.range⟩
  | beacon e quiet c op => exact hs.tie.of_tim (ApCom.tim_of_core op.core_eq)

theorem beaconOk_init (conf : ApConf) : ({} : Ap).BeaconOk conf where
  aids := aidsOk_init
  pending := by simp [ApCom.PendingOk]
  tie := ⟨rfl, fun _ h => Bool.noConfusion h⟩

/-- Whatever stations do, a beacon that is brought up to date announces exactly the stations whose bit is set
if and only if none is, or the partial bitmap has another length than in the last beacon, or the same
offset. -/
theorem run_beacon_shows_iff (conf : ApConf) (hpos : 0 < conf.maxAid) (hmax : conf.maxAid ≤ 2008)
    (es : List ApEvent) :
    ∃ t, ({} : Ap).run conf es = some t ∧ (t.1.com.timFlag = true → ∀ mcast,
      ((t.1.com.beaconUpdate conf mcast).tie.Shows (t.1.com.timMap conf) ↔
        t.1.com.psPending = 0 ∨ (timRange (t.1.com.timMap conf) true).2 ≠ t.1.com.tie.boTimLen ∨
          t.1.com.tie.offset = (timRange (t.1.com.timMap conf) true).1)) := by
  obtain ⟨t, ht⟩ := exists_run conf {} es
  have hok : t.1.BeaconOk conf := run_induct (fun _ _ _ h hs => hs.move hpos hmax h) (beaconOk_init conf) ht
  exact ⟨t, ht, ApCom.shows_beaconUpdate_iff hmax hok.pending hok.tie⟩

theorem nap_beacon_shows_iff :
    plainConf.maxAid ≤ 2008 ∧ ∃ t, ({} : Ap).run plainConf nap = some t ∧ (t.1.com.timFlag = true → ∀ mcast,
      ((t.1.com.beaconUpdate plainConf mcast).tie.Shows (t.1.com.timMap plainConf) ↔
        t.1.com.psPending = 0 ∨ (timRange (t.1.com.timMap plainConf) true).2 ≠ t.1.com.tie.boTimLen ∨
          t.1.com.tie.offset = (timRange (t.1.com.timMap plainConf) true).1)) :=
  ⟨by decide, run_beacon_shows_iff plainConf (by decide) (by decide) nap⟩

end Ap

/-! ## Few stations -/

theorem ApCom.setTim_cases (associd : UInt16) (set : Bool) :
    c.setTim associd set = c ∨ (c.setTim associd set).timFlag = true := by
  rw [ApCom.setTim]
  split
  · exact .inl rfl
  · split <;> exact .inr rfl

namespace TimStep

theorem tie (h : TimStep c ni r) : r.com.tie = c.tie := by
  cases h with
  | keep tim => exact (TimState.mk.inj tim).2.2.2
  | own set tim => exact (TimState.mk.inj tim).2.2.2.trans (ApCom.tie_setTim _ _)
  | zero tim => exact (TimState.mk.inj tim).2.2.2.trans (ApCom.tie_setTim _ _)

/-- A change of the bits is noted. -/
theorem flag (h : TimStep c ni r) (hflag : r.com.timFlag = false) : r.com.tim = c.tim := by
  have hset : ∀ associd set, r.com.tim = (c.setTim associd set).tim → r.com.tim = c.tim := by
    intro associd set htim
    rcases ApCom.setTim_cases (c := c) associd set with hsame | hset
    · rw [htim, hsame]
    · have hnew := (TimState.mk.inj htim).2.2.1
      rw [hflag, hset] at hnew
      cases hnew
  cases h with
  | keep tim => exact tim
  | own set tim => exact hset _ _ tim
  | zero tim => exact hset _ _ tim

end TimStep

/-- The element has offset zero, and is right if nothing has changed since the last beacon. No bit beyond the
first two bytes is set. -/
structure ApCom.SmallOk (conf : ApConf) (c : ApCom) : Prop where
  offset : c.tie.offset = 0
  low : ∀ aid, c.timBitmap aid = true → aid < 16
  shows : c.timFlag = false → c.tie.Shows (c.timMap conf)

namespace ApCom

theorem SmallOk.of_tim (hc : c.SmallOk conf) (htim : c'.tim = c.tim) : c'.SmallOk conf := by
  obtain ⟨hbits, -, hflag, htie⟩ := TimState.mk.inj htim
  refine ⟨by rw [htie]; exact hc.offset, by rw [hbits]; exact hc.low, fun h => ?_⟩
  rw [htie, ApCom.timMap, hbits]
  exact hc.shows (hflag ▸ h)

theorem low_setTim (hc : ∀ aid, c.timBitmap aid = true → aid < 16) {associd : UInt16} (hid : aidOf associd < 16)
    (set : Bool) : ∀ aid, (c.setTim associd set).timBitmap aid = true → aid < 16 := by
  intro aid hbit
  rw [timBitmap_setTim, Function.update_apply] at hbit
  split at hbit
  · next heq => rwa [heq]
  · exact hc aid hbit

theorem SmallOk.timStep (hc : c.SmallOk conf) (h : TimStep c ni r) (hid : aidOf ni.associd < 16) :
    r.com.SmallOk conf := by
  refine ⟨h.tie ▸ hc.offset, ?_, fun hflag => (hc.of_tim (h.flag hflag)).shows hflag⟩
  cases h with
  | keep tim => exact (hc.of_tim tim).low
  | own set tim =>
    rw [timBitmap_of_tim tim]
    exact low_setTim hc.low hid set
  | zero tim =>
    rw [timBitmap_of_tim tim]
    exact low_setTim hc.low (show aidOf 0 < 16 by decide) false

theorem SmallOk.byte_lt (hc : c.SmallOk conf) {k : Nat} (hk : (c.timMap conf).getD k 0 ≠ 0) : k < 2 := by
  have hlen := lt_length_of_getD hk
  rw [length_timMap] at hlen
  obtain ⟨j, hj, hset⟩ := exists_isset hk
  rw [timMap, isset_timBytes (show (8 * k + j) / 8 < conf.timLen by omega)] at hset
  have hlow := hc.low _ hset
  omega

theorem SmallOk.beaconUpdate (hmax : conf.maxAid ≤ 2008) (hc : c.SmallOk conf) (hpending : c.PendingOk)
    (hok : c.TieOk conf) (mcast : Bool) :
    (c.beaconUpdate conf mcast).SmallOk conf ∧ (c.beaconUpdate conf mcast).tie.Shows (c.timMap conf) := by
  have hlen : (c.timMap conf).length ≤ 251 := by
    rw [ApCom.length_timMap, ApConf.timLen]
    omega
  have hshows : (c.beaconUpdate conf mcast).tie.Shows (c.timMap conf) := by
    cases hflag : c.timFlag with
    | true =>
      rw [ApCom.shows_beaconUpdate_iff hmax hpending hok hflag]
      by_cases hnone : c.psPending = 0
      · exact .inl hnone
      · have hzero : (timRange (c.timMap conf) true).1 = 0 :=
          (TimIe.offset_update hok.tie hlen (fun _ => hc.byte_lt)
            (fun _ => ApCom.timMap_ne_zero hpending hok hnone) hc.offset).1
        exact .inr (.inr (hc.offset.trans hzero.symm))
    | false =>
      intro aid
      rw [ApCom.beaconUpdate, hflag, if_neg Bool.false_ne_true]
      dsimp only
      rw [TimIe.announces_countDown]
      exact hc.shows hflag aid
  refine ⟨⟨?_, hc.low, fun _ => hshows⟩, hshows⟩
  rw [ApCom.beaconUpdate]
  dsimp only
  rw [TimIe.offset_countDown]
  split
  · exact (TimIe.offset_update hok.tie hlen (fun _ => hc.byte_lt) (ApCom.exists_byte hpending hok) hc.offset).2
  · exact hc.offset

/-- An empty element is right as long as no bit is set. -/
theorem shows_empty (hpending : c.PendingOk) (hnone : c.psPending = 0) (period : UInt8) :
    ({ timPeriod := period } : TimIe).Shows (c.timMap conf) := by
  intro aid
  have hmap : isset (c.timMap conf) aid = false :=
    Bool.eq_false_iff.mpr fun h => isset_byte h (timMap_zero hpending hnone _)
  have hfirst : ∀ k, ([0] : List UInt8).getD k 0 = 0 := fun k => by cases k <;> rfl
  rw [hmap]
  exact Bool.eq_false_iff.mpr fun h => isset_byte (Bool.and_eq_true_iff.mp h).2 (hfirst _)

theorem SmallOk.beaconConstruct (hc : c.SmallOk conf) (hpending : c.PendingOk) (hnone : c.psPending = 0) :
    c.beaconConstruct.SmallOk conf where
  offset := show ((0 : UInt8) &&& 0xfe).toNat = 0 by decide
  low := hc.low
  shows _ := shows_empty hpending hnone _

end ApCom

/-- Of at most fifteen stations none has an identifier of 16 or more, since the first free one is taken. -/
theorem AidStep.low {rest : List ApNode} (h : AidStep conf c ni r)
    (htable : AidTable conf c.aidBitmap (Ap.aids (ni :: rest))) (hlow : ∀ aid ∈ Ap.aids (ni :: rest), aid < 16)
    (hfew : (Ap.aids (r.ni :: rest)).length ≤ 15) : ∀ aid ∈ Ap.aids (r.ni :: rest), aid < 16 := by
  cases h with
  | keep bits id =>
    rw [Ap.aids_cons_congr rest id]
    exact hlow
  | clear bits id =>
    rw [Ap.aids_cons_free rest id]
    intro aid hmem
    by_cases hid : ni.associd = 0
    · rw [Ap.aids_cons_free rest hid] at hlow
      exact hlow aid hmem
    · rw [Ap.aids_cons_used rest hid] at hlow
      exact hlow aid (List.mem_cons_of_mem _ hmem)
  | take aid free range unused least bits id =>
    rw [Ap.aids_cons_free rest free] at htable hlow
    rw [Ap.aids_cons_used rest id.1, id.2] at hfew ⊢
    have haid : aid < 16 := by
      by_contra hge
      -- the identifiers from 1 to 15 would all be in use
      have hsub : List.range' 1 15 ⊆ Ap.aids rest := by
        intro a ha
        have hrange := List.mem_range'_1.mp ha
        exact (htable.used a).mp (least a hrange.1 (by omega))
      have hnodup : (List.range' 1 15).Nodup := by decide
      have hcard := (hnodup.subperm hsub).length_le
      rw [List.length_range'] at hcard
      rw [List.length_cons] at hfew
      omega
    intro a ha
    rcases List.mem_cons.mp ha with rfl | ha
    · exact haid
    · exact hlow a ha

namespace Ap

/-- At most fifteen stations are associated. -/
def few (s : Ap) : Bool := (aids s.nodes).length ≤ 15

/-- The beacon is not built anew while traffic indication bits are set. -/
def keepsElement (s : Ap) : ApEvent → Bool
  | .construct => s.com.psPending = 0
  | _ => true

/-- Few stations at a time, no connection that ends without marking the node, and no element that is lost. -/
def calmRun (conf : ApConf) : Ap → List ApEvent → Bool
  | s, [] => s.few
  | s, e :: es => s.few && s.tidy e && s.keepsElement e && (s.step conf e).all fun t => calmRun conf t.1 es

theorem few_of_calmRun {es : List ApEvent} (h : s.calmRun conf es = true) : s.few = true := by
  cases es with
  | nil => exact h
  | cons e es =>
    simp only [calmRun, Bool.and_eq_true] at h
    exact h.1.1.1

/-- All that holds along a calm run. -/
structure CalmOk (conf : ApConf) (s : Ap) : Prop where
  announce : s.AnnounceOk conf
  beacon : s.BeaconOk conf
  small : s.com.SmallOk conf
  low : ∀ aid ∈ aids s.nodes, aid < 16

theorem CalmOk.aid_lt (hs : s.CalmOk conf) (hmem : ni ∈ s.nodes) : aidOf ni.associd < 16 := by
  by_cases hid : ni.associd = 0
  · rw [hid]
    decide
  · exact hs.low _ (List.mem_filterMap.mpr ⟨ni, hmem, by rw [if_neg hid]⟩)

theorem CalmOk.low_move (hs : s.CalmOk conf) (h : ApMove conf s e t) (hfew : t.1.few = true) :
    ∀ aid ∈ aids t.1.nodes, aid < 16 := by
  have haids := hs.beacon.aids
  cases h with
  | idle | newNode | refused | unknown | tbtt | construct | beacon => exact hs.low
  | node e i ni r found at_i present op =>
    have hperm := aids_perm (Tally.perm_entry at_i)
    have hset := aids_perm (Tally.perm_set at_i r.ni)
    have hcount : (aids (r.ni :: s.nodes.eraseIdx i)).length ≤ 15 := by
      rw [← hset.length_eq]
      exact of_decide_eq_true hfew
    intro aid hmem
    exact op.aidStep.low (haids.perm hperm) (fun a ha => hs.low a (hperm.mem_iff.mpr ha)) hcount aid
      (hset.mem_iff.mp hmem)
  | release i ni at_i gone =>
    intro aid hmem
    exact hs.low aid (((List.eraseIdx_sublist s.nodes i).filterMap _).subset hmem)

theorem CalmOk.move (hpos : 0 < conf.maxAid) (hmax : conf.maxAid ≤ 2008) (hs : s.CalmOk conf)
    (h : ApMove conf s e t) (htidy : s.tidy e = true) (hkeeps : s.keepsElement e = true)
    (hfew : t.1.few = true) : t.1.CalmOk conf := by
  refine ⟨hs.announce.move h htidy, hs.beacon.move hpos hmax h, ?_, hs.low_move h hfew⟩
  cases h with
  | idle | newNode | refused | unknown => exact hs.small
  | node e i ni r found at_i present op =>
    exact hs.small.timStep op.timStep (hs.aid_lt (List.mem_of_getElem? at_i))
  | release i ni at_i gone =>
    exact hs.small.timStep ApNode.timStep_freeNode (hs.aid_lt (List.mem_of_getElem? at_i))
  | tbtt mcast => exact (hs.small.beaconUpdate hmax hs.beacon.pending hs.beacon.tie mcast).1
  | construct => exact hs.small.beaconConstruct hs.beacon.pending (of_decide_eq_true hkeeps)
  | beacon e quiet c op => exact hs.small.of_tim (ApCom.tim_of_core op.core_eq)

theorem calmOk_init (conf : ApConf) : ({} : Ap).CalmOk conf where
  announce := announceOk_init
  beacon := beaconOk_init conf
  small := ⟨rfl, fun _ h => Bool.noConfusion h, fun _ => ApCom.shows_empty (beaconOk_init conf).pending rfl 1⟩
  low _ hmem := absurd hmem List.not_mem_nil

theorem CalmOk.run (hpos : 0 < conf.maxAid) (hmax : conf.maxAid ≤ 2008) {es : List ApEvent}
    (hs : s.CalmOk conf) (hcalm : s.calmRun conf es = true) (h : s.run conf es = some t) :
    t.1.CalmOk conf := by
  induction es generalizing s t with
  | nil =>
    obtain rfl := Option.some.inj h
    exact hs
  | cons e es ih =>
    obtain ⟨u, v, hu, hv, rfl⟩ := run_cons_eq_some h
    simp only [calmRun, hu, Option.all_some, Bool.and_eq_true] at hcalm
    obtain ⟨⟨⟨-, htidy⟩, hkeeps⟩, hrest⟩ := hcalm
    exact ih (t := v) (hs.move hpos hmax (move_step hu) htidy hkeeps (few_of_calmRun hrest)) hrest hv

/-- With at most fifteen stations at a time, as long as no authentication frame ends a connection without
marking the node and no beacon is built anew while bits are set, the next beacon announces exactly the
stations whose bit is set, and so every station for which frames wait. -/
theorem run_beacon_announces (conf : ApConf) (hpos : 0 < conf.maxAid) (hmax : conf.maxAid ≤ 2008)
    (es : List ApEvent) (hcalm : ({} : Ap).calmRun conf es = true) :
    ∃ t, ({} : Ap).run conf es = some t ∧ ∀ mcast,
      (t.1.com.beaconUpdate conf mcast).tie.Shows (t.1.com.timMap conf) ∧
      ∀ ni ∈ t.1.nodes, ni.ids ≠ [] →
        ni.associd ≠ 0 ∧ (t.1.com.beaconUpdate conf mcast).tie.announces (aidOf ni.associd) = true := by
  obtain ⟨t, ht⟩ := exists_run conf {} es
  have hok := (calmOk_init conf).run hpos hmax hcalm ht
  refine ⟨t, ht, fun mcast => ?_⟩
  have hshows := (hok.small.beaconUpdate hmax hok.beacon.pending hok.beacon.tie mcast).2
  refine ⟨hshows, fun ni hmem hids => ?_⟩
  obtain ⟨hid, hbit⟩ := hok.announce.tim_of_ids hmem hids
  have haid := aidOf_lt_maxAid hok.beacon.aids hpos hmem
  refine ⟨hid, ?_⟩
  rw [hshows, ApCom.timMap, isset_timBytes (by rw [ApConf.timLen]; omega)]
  exact hbit

/-- Two stations sleep; the beacon is built anew before frames wait, and brought up to date between them. -/
def naps : List ApEvent :=
  [.auth 7 true true, .assoc 7 plainReq, .auth 9 true true, .assoc 9 plainReq, .pwrsave 7 true, .construct,
    .pwrsave 9 true, .start 9 ⟨1, false, 0⟩ false, .tbtt false, .start 7 ⟨2, false, 0⟩ false]

theorem naps_beacon_announces :
    ({} : Ap).calmRun plainConf naps = true ∧ ∃ t, ({} : Ap).run plainConf naps = some t ∧ ∀ mcast,
      (t.1.com.beaconUpdate plainConf mcast).tie.Shows (t.1.com.timMap plainConf) ∧
      ∀ ni ∈ t.1.nodes, ni.ids ≠ [] →
        ni.associd ≠ 0 ∧ (t.1.com.beaconUpdate plainConf mcast).tie.announces (aidOf ni.associd) = true :=
  ⟨by decide, run_beacon_announces plainConf (by decide) (by decide) naps (by decide)⟩

-- a beacon that is built anew while a frame waits announces nobody until a bit changes
example :
    (({} : Ap).run plainConf (nap ++ [.tbtt false, .construct, .tbtt false])).map
        (fun t => (t.1.com.timBitmap 1, t.1.com.tie.announces 1)) = some (true, false) := by decide

end Ap

end Onebox.Net80211
