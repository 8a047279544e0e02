import Onebox.TxAccess

/-! Wake-ups of the protocols that wait for transmit access. The test of
`tx_access` and the registration of the waiter are two steps, and the granting
loop of the receive thread may pass the protocol between them. -/

namespace Onebox

open Machine

def RxPc.pending (p : Proto) : RxPc → Bool
  | .idle => false
  | .granting _ todo => p ∈ todo
  | .grant _ q todo => p = q ∨ p ∈ todo

/-- An active protocol waits although access is open and nobody will wake it. -/
structure LostWakeup (s : Sys) (p : Proto) : Prop where
  active : s.assets.isActive p = true
  waiting : s.pc p.thread = .waiting p
  registered : (s.assets.techs p).deregisterFlags = true
  noAccess : (s.assets.techs p).txAccess = false
  accessOpen : s.assets.commonHalTxAccess = true
  passed : s.rx.pending p = false

/-- The granting loop tests no protocol that has been refused access and has not registered yet. -/
def testsSettled (s : Sys) : Act → Bool
  | .rx =>
    match s.rx with
    | .granting _ (p :: _) =>
      s.pc p.thread ≠ .register p && (s.pc p.thread ≠ .recheck p || (s.assets.techs p).txAccess)
    | _ => true
  | _ => true

/-- From the request on, a protocol without access depends on a wake-up. -/
structure Owed (s : Sys) (p : Proto) : Prop where
  active : s.assets.isActive p = true
  place : s.pc p.thread = .recheck p ∨ s.pc p.thread = .register p ∨
    (s.pc p.thread = .waiting p ∧ (s.assets.techs p).deregisterFlags = true)
  noAccess : (s.assets.techs p).txAccess = false
  accessOpen : s.assets.commonHalTxAccess = true

theorem Owed.congr {s u : Sys} {p : Proto} (h : Owed u p) (hpc : u.pc = s.pc)
    (ha : u.assets = s.assets) : Owed s p := by
  obtain ⟨hact, hplace, hacc, hopen⟩ := h
  rw [ha] at hact hplace hacc hopen
  rw [hpc] at hplace
  exact ⟨hact, hplace, hacc, hopen⟩

structure WakeInv (s : Sys) : Prop where
  serves : Serves s
  asked : ∀ p, s.pc p.thread = .request p → (s.assets.techs p).txIntention = true
  owed : ∀ p, Owed s p → s.rx.pending p = true

def Pc.settled : Pc → Bool
  | .request _ | .recheck _ | .register _ | .waiting _ => false
  | _ => true

structure Frame (t : Thread) (c : Pc) (s u : Sys) : Prop where
  pc : u.pc = Function.update s.pc t c
  techs : ∀ q, q.thread ≠ t → u.assets.techs q = s.assets.techs q
  common : u.assets.commonHalTxAccess = true → s.assets.commonHalTxAccess = true
  rx : u.rx = s.rx

namespace WakeInv

variable {s u : Sys} {t : Thread} {p : Proto} {c : Pc}

theorem frame (h : WakeInv s) (hf : Frame t c s u) (hs : Serves u)
    (hasked : ∀ q, q.thread = t → c = .request q → (u.assets.techs q).txIntention = true)
    (howed : ∀ q, q.thread = t → Owed u q → s.rx.pending q = true) : WakeInv u := by
  have hother : ∀ q : Proto, q.thread ≠ t → u.pc q.thread = s.pc q.thread := by
    intro q hq
    rw [hf.pc, Function.update_of_ne hq]
  refine ⟨hs, fun q hq => ?_, fun q hq => ?_⟩
  · by_cases ht : q.thread = t
    · rw [hf.pc, ht, Function.update_self] at hq
      exact hasked q ht hq
    · rw [hf.techs q ht]
      exact h.asked q (hother q ht ▸ hq)
  · rw [hf.rx]
    by_cases ht : q.thread = t
    · exact howed q ht hq
    · refine h.owed q ⟨?_, ?_, ?_, hf.common hq.accessOpen⟩
      · simpa only [DriverAssets.isActive, hf.techs q ht] using hq.active
      · simpa only [hother q ht, hf.techs q ht] using hq.place
      · simpa only [hf.techs q ht] using hq.noAccess

theorem settle (h : WakeInv s) (hf : Frame t c s u) (hs : Serves u) (hc : c.settled = true) :
    WakeInv u := by
  refine h.frame hf hs (fun q _ hq => ?_) fun q ht hq => ?_
  · simp [hq, Pc.settled] at hc
  · have hplace := hq.place
    rw [hf.pc, ht, Function.update_self] at hplace
    rcases hplace with rfl | rfl | ⟨rfl, -⟩ <;> simp [Pc.settled] at hc

theorem congr (h : WakeInv s) (hpc : u.pc = s.pc) (ha : u.assets = s.assets) (hrx : u.rx = s.rx) :
    WakeInv u := by
  refine ⟨h.serves.of_pc_eq hpc, fun q hq => ?_, fun q hq => ?_⟩
  · rw [ha]
    exact h.asked q (hpc ▸ hq)
  · rw [hrx]
    exact h.owed q (hq.congr hpc ha)

end WakeInv

namespace Frame

variable {s : Sys} {t : Thread} {p : Proto} {c : Pc}

theorem setPc : Frame t c s (s.setPc t c) := ⟨rfl, fun _ _ => rfl, id, rfl⟩

theorem modify {f : WirelessTech → WirelessTech} (hp : p.thread = t) :
    Frame t c s ((s.mapAssets (·.modify p f)).setPc t c) := by
  refine ⟨rfl, fun q hq => ?_, id, rfl⟩
  have hqp : q ≠ p := fun h => hq (h ▸ hp)
  simp [hqp]

theorem updateTxStatus {alloc : Bool} (hp : p.thread = t) :
    Frame t c s ({ s with hal := s.hal.updateTxStatus alloc p }.setPc t c) := by
  refine ⟨rfl, fun q hq => ?_, ?_, rfl⟩
  · have hqp : q ≠ p := fun h => hq (h ▸ hp)
    exact Hal.techs_updateTxStatus_of_ne hqp
  · exact Hal.commonHalTxAccess_updateTxStatus

end Frame

namespace WakeInv

variable {s u : Sys} {t : Thread} {p : Proto} {c : Pc}

theorem coexPick (h : WakeInv s) : WakeInv (coexPick s) := by
  have hs := h.serves.coexPick
  revert hs
  fun_cases Onebox.coexPick s <;> intro hs
  case case1 => exact h.congr (by simp) (by rw [assets_coexWrite]; rfl) (by simp)
  case case6 => exact h
  all_goals exact h.settle .setPc hs rfl

theorem transmitStep {c : Choice} (h : WakeInv s) (hs : transmitStep s p c = some u) : WakeInv u := by
  have hu := h.serves.transmitStep hs
  revert hs
  fun_cases Onebox.transmitStep s p c <;> rintro ⟨⟩
  case case1 => exact h.settle .setPc hu rfl
  case case2 => exact h
  case case3 psEn => exact h.settle .setPc hu (by cases psEn <;> rfl)
  case case5 => exact h.settle .setPc hu rfl
  case case6 => exact h.settle ⟨rfl, fun _ _ => rfl, id, rfl⟩ hu rfl

theorem writeStep (h : WakeInv s) : WakeInv (writeStep s p) := by
  have hu := h.serves.writeStep p
  revert hu
  fun_cases Onebox.writeStep s p <;> intro hu
  · exact h.settle ⟨rfl, fun _ _ => rfl, id, rfl⟩ hu rfl
  · refine h.settle ⟨by rw [Sys.setPc, pc_coexWrite], fun q _ => ?_, fun hc => ?_, by simp⟩ hu rfl
    · rw [Sys.assets_setPc, assets_coexWrite]
    · simpa using hc

theorem request (h : WakeInv s) (hpc : s.pc t = .request p)
    (hu : Serves ({ s with hal := s.hal.updateTxStatus true p }.setPc t (.recheck p))) :
    WakeInv ({ s with hal := s.hal.updateTxStatus true p }.setPc t (.recheck p)) := by
  obtain rfl : p.thread = t := h.serves t p (by rw [hpc, Pc.proto])
  refine h.frame (.updateTxStatus rfl) hu (by simp) fun q ht hq => ?_
  have hplace := hq.place
  rw [Sys.pc_setPc, if_pos ht] at hplace
  obtain rfl : p = q := by simpa using hplace
  have hact : s.assets.isActive p = true := by
    simpa [Sys.assets, Hal.isActive_updateTxStatus] using hq.active
  have hopen := Hal.commonHalTxAccess_updateTxStatus hq.accessOpen
  exact absurd (Hal.txAccess_updateTxStatus hact (h.asked p hpc) hopen) (by simpa [Sys.assets] using hq.noAccess)

theorem intend (h : WakeInv s) (hpc : s.pc t = .intend p)
    (hu : Serves ((s.mapAssets (·.setTxIntention p true)).setPc t (.request p))) :
    WakeInv ((s.mapAssets (·.setTxIntention p true)).setPc t (.request p)) := by
  refine h.frame (.modify (h.serves t p (by rw [hpc, Pc.proto]))) hu (fun q _ hq => ?_) fun q hqt hq => ?_
  · cases hq
    simp [DriverAssets.setTxIntention]
  · have hplace := hq.place
    simp [hqt] at hplace

theorem refused (h : WakeInv s) (hpc : s.pc t = .recheck p) : WakeInv (s.setPc t (.register p)) := by
  have hu : Serves (s.setPc t (.register p)) := by
    refine h.serves.goto rfl fun q hq => ?_
    cases hq
    exact h.serves t p (by rw [hpc, Pc.proto])
  refine h.frame .setPc hu (by simp) fun q hqt hq => ?_
  obtain rfl : p = q := by simpa [hqt] using hq.place
  exact h.owed p ⟨hq.active, .inl (hqt ▸ hpc), hq.noAccess, hq.accessOpen⟩

theorem register (h : WakeInv s) (hpc : s.pc t = .register p)
    (hu : Serves ((s.mapAssets (·.setDeregisterFlags p true)).setPc t (.waiting p))) :
    WakeInv ((s.mapAssets (·.setDeregisterFlags p true)).setPc t (.waiting p)) := by
  refine h.frame (.modify (h.serves t p (by rw [hpc, Pc.proto]))) hu (by simp) fun q hqt hq => ?_
  obtain ⟨rfl, -⟩ : p = q ∧ _ := by simpa [hqt] using hq.place
  refine h.owed p ⟨?_, .inr (.inl (hqt ▸ hpc)), ?_, hq.accessOpen⟩
  · simpa [DriverAssets.isActive, DriverAssets.setDeregisterFlags] using hq.active
  · simpa [DriverAssets.setDeregisterFlags] using hq.noAccess

theorem threadStep {c : Choice} (h : WakeInv s) (hs : threadStep s t c = some u) : WakeInv u := by
  have hu := h.serves.threadStep hs
  have hserves := h.serves t
  revert hs
  fun_cases Onebox.threadStep s t c
  case case15 => exact h.transmitStep
  all_goals rintro ⟨⟩
  case case1 =>
    split
    case isTrue ht => exact h.settle .setPc (h.serves.goto rfl (by simp [Pc.proto, Proto.thread])) rfl
    case isFalse => exact h.coexPick
  case case2 =>
    split
    case isTrue => exact h.settle .setPc (h.serves.goto rfl (by simp [Pc.proto, Proto.thread])) rfl
    case isFalse => exact h
  case case4 p hpc => exact h.settle .setPc hu (by split <;> rfl)
  case case5 p hpc => exact h.intend hpc hu
  case case7 p hpc _ => exact h.request hpc hu
  case case8 p hpc =>
    split
    case isTrue hx => exact h.settle .setPc (h.serves.goto rfl (by simp_all [Pc.proto])) rfl
    case isFalse => exact h.refused hpc
  case case9 p hpc => exact h.register hpc hu
  case case11 p hpc _ => exact h.settle .setPc hu (by cases p <;> rfl)
  case case12 => exact h.settle .setPc hu rfl
  case case14 => exact h.settle .setPc hu (by split <;> rfl)
  case case16 => exact h.writeStep
  case case17 hpc =>
    obtain rfl : t = .wlan := (h.serves t .wlan (by rw [hpc, Pc.proto])).symm
    exact h.settle ⟨rfl, fun _ _ => rfl, id, rfl⟩ hu rfl
  case case18 p hpc | case19 p hpc =>
    exact h.settle (.modify (h.serves t p (by rw [hpc, Pc.proto]))) hu rfl
  case case21 p hpc _ | case23 p hpc _ =>
    refine h.settle (.updateTxStatus (h.serves t p (by rw [hpc, Pc.proto]))) hu ?_
    rcases afterRelease_cases s p with hr | ⟨-, hr⟩ <;> rw [hr] <;> rfl

theorem pass {r : RxPc} (h : WakeInv s)
    (hr : ∀ q, Owed s q → s.rx.pending q = true → r.pending q = true) : WakeInv { s with rx := r } :=
  ⟨h.serves.of_pc_eq rfl, h.asked, fun q hq => hr q (hq.congr rfl rfl) (h.owed q (hq.congr rfl rfl))⟩

theorem relieve {f : WirelessTech → WirelessTech} (h : WakeInv s)
    (hd : ∀ w, (f w).drvState = w.drvState) (hi : ∀ w, (f w).txIntention = w.txIntention)
    (hr : ∀ w, (f w).deregisterFlags = true → w.deregisterFlags = true)
    (hx : ∀ w, (f w).txAccess = false → w.txAccess = false) :
    WakeInv (s.mapAssets (·.modify p f)) := by
  refine ⟨h.serves.of_pc_eq rfl, fun q hq => ?_, fun q hq => h.owed q ?_⟩
  · by_cases hqp : q = p <;> simpa [hqp, hi] using h.asked q hq
  · obtain ⟨hact, hplace, hacc, hopen⟩ := hq
    refine ⟨DriverAssets.isActive_modify (d := s.assets) hd ▸ hact, ?_, ?_, hopen⟩
    · refine hplace.imp_right (.imp_right (.imp_right fun hq => ?_))
      by_cases hqp : q = p
      · exact hr _ (by simpa [hqp] using hq)
      · simpa [hqp] using hq
    · by_cases hqp : q = p
      · exact hx _ (by simpa [hqp] using hacc)
      · simpa [hqp] using hacc

theorem not_owed (h : testsSettled s .rx = true) {b : Bool} {ps : List Proto}
    (hrx : s.rx = .granting b (p :: ps)) (hg : s.assets.grantable p = false) : ¬ Owed s p := by
  intro ho
  have hf : (s.assets.techs p).deregisterFlags = false := by
    simpa [DriverAssets.grantable, ho.active] using hg
  simp only [testsSettled, hrx, ho.noAccess] at h
  rcases ho.place with hpc | hpc | ⟨hpc, hreg⟩
  · simp [hpc] at h
  · simp [hpc] at h
  · simp [hf] at hreg

theorem rxStep (h : WakeInv s) (hok : testsSettled s .rx = true) (hs : rxStep s = some u) :
    WakeInv u := by
  revert hs
  fun_cases Onebox.rxStep s <;> rintro ⟨⟩
  case case2 b hrx => exact h.pass (by simp [hrx, RxPc.pending])
  case case3 b p ps hrx hg =>
    have hf : WakeInv (s.mapAssets (·.setDeregisterFlags p false)) :=
      h.relieve (fun _ => rfl) (fun _ => rfl) (by simp) fun _ => id
    exact hf.pass (by simp [hrx, RxPc.pending])
  case case4 b p ps hrx hg =>
    refine h.pass fun q ho hq => ?_
    have hne : q ≠ p := by
      rintro rfl
      exact not_owed hok hrx (by simpa using hg) ho
    simpa [hrx, RxPc.pending, hne] using hq
  case case5 b p ps hrx =>
    have hx : WakeInv (s.mapAssets (·.setTxAccess p true)) :=
      h.relieve (fun _ => rfl) (fun _ => rfl) (fun _ => id) (by simp)
    refine hx.pass fun q ho hq => ?_
    have hne : q ≠ p := by
      rintro rfl
      simpa [DriverAssets.setTxAccess] using ho.noAccess
    simpa [hrx, RxPc.pending, hne] using hq

theorem announce {b : Bool} (h : WakeInv s) (hpc : u.pc = s.pc) (ht : u.assets.techs = s.assets.techs)
    (hrx : u.rx = .granting b allProtos) : WakeInv u := by
  refine ⟨h.serves.of_pc_eq hpc, fun q hq => ?_, fun q _ => ?_⟩
  · rw [ht]
    exact h.asked q (hpc ▸ hq)
  · rw [hrx]
    cases q <;> rfl

theorem sleepEntry {alloc : Bool} (h : WakeInv s) :
    WakeInv { s with
      hal := (s.hal.sleepEntryRecvd alloc).1
      rx := if (s.hal.sleepEntryRecvd alloc).2 then .granting true allProtos else .idle } := by
  cases hi : s.hal.assets.protocolTxAccess with
  | true =>
    rw [Hal.sleepEntryRecvd_of_intention hi]
    exact h.announce rfl rfl rfl
  | false =>
    rw [Hal.sleepEntryRecvd_of_no_intention hi]
    cases alloc
    all_goals exact ⟨h.serves.of_pc_eq rfl, h.asked, fun q hq => absurd hq.accessOpen Bool.false_ne_true⟩

theorem step {a : Act} (h : WakeInv s) (hok : testsSettled s a = true) (hs : s.step a = some u) :
    WakeInv u := by
  revert hs
  fun_cases Sys.step s a
  case case2 => exact h.threadStep
  case case7 => exact h.rxStep hok
  all_goals rintro ⟨⟩
  case case1 => exact h.congr rfl rfl rfl
  case case3 => exact h.sleepEntry
  case case5 => exact h.announce rfl rfl rfl

theorem of_cardReady (h : CardReady s) : WakeInv s where
  serves t p hp := by simp [h.threads t, Pc.proto] at hp
  asked p hp := by simp [h.threads] at hp
  owed p hp := by simpa [h.threads] using hp.place

theorem not_lostWakeup (h : WakeInv s) (p : Proto) : ¬ LostWakeup s p := by
  intro hl
  have howed := h.owed p ⟨hl.active, .inr (.inr ⟨hl.waiting, hl.registered⟩), hl.noAccess, hl.accessOpen⟩
  simp [hl.passed] at howed

end WakeInv

/-- No wake-up is lost in a run whose granting loops test settled protocols only. -/
theorem no_lost_wakeup {s t : Sys} {as : List Act} (hs : CardReady s)
    (hok : Meets Sys.step testsSettled s as) (hrun : run Sys.step s as = some t) (p : Proto) :
    ¬ LostWakeup t p :=
  (run_invariant WakeInv.step (WakeInv.of_cardReady hs) hok hrun).not_lostWakeup p

def wakeThenWrite : List Act :=
  (.sleepEntry true :: .enqueue .bt :: List.replicate 6 (.thread .coex .go) : List Act) ++
  (.sleepExit :: List.replicate 5 .rx : List Act) ++ (List.replicate 4 (.thread .coex .go) : List Act)

theorem no_lost_wakeup_wakeThenWrite :
    CardReady btPowerSave ∧ Meets Sys.step testsSettled btPowerSave wakeThenWrite ∧
      ∃ t, run Sys.step btPowerSave wakeThenWrite = some t ∧ ¬ LostWakeup t .bt := by
  have hok : Meets Sys.step testsSettled btPowerSave wakeThenWrite := by decide
  exact ⟨btPowerSave_cardReady, hok, _, rfl, no_lost_wakeup btPowerSave_cardReady hok rfl .bt⟩

def lateRegistration : List Act :=
  (.sleepEntry true :: .enqueue .bt :: List.replicate 5 (.thread .coex .go) : List Act) ++
  (.sleepExit :: List.replicate 4 .rx : List Act) ++ ([.thread .coex .go] : List Act)

theorem lost_wakeup_lateRegistration :
    CardReady btPowerSave ∧ ∃ t, run Sys.step btPowerSave lateRegistration = some t ∧ LostWakeup t .bt :=
  ⟨btPowerSave_cardReady, _, rfl, rfl, rfl, rfl, rfl, rfl, rfl⟩

end Onebox
