import Onebox.VapTable

/-! Power save with several virtual interfaces. `onebox_vap_create` and
`onebox_vap_delete` ask for a change through `update_pwr_save_status`, on two paths
for which that function has no case. -/

namespace Onebox

open Machine

/-- The operations on the vaps, and anything that happens to one of them between these. -/
inductive MultiVapAct
  | vap (a : VapAct)
  | ps (p : Nat) (ps : PsVap)

def VapTable.multiVapStep (s : VapTable) : MultiVapAct → Option VapTable
  | .vap a => s.step a
  | .ps p ps => some (s.setVap p fun v => { v with ps })

/-- A station with power save on that sleeps. -/
def LiveVap.Asleep (v : LiveVap) : Prop :=
  v.opmode = .sta ∧ v.ps.psParams.psEn = true ∧ v.ps.psState = .devInPwrSve

/-- A station with power save on that has nothing to stay awake for. -/
def LiveVap.MaySleep (v : LiveVap) : Prop :=
  v.opmode = .sta ∧ v.ps.psParams.psEn = true ∧ v.ps.ivState = .run ∧ v.ps.psState = .none ∧
    v.ps.connInProg = false ∧ v.ps.roamInd = false ∧ v.ps.delayPwrSveDecision = false

instance (v : LiveVap) : Decidable v.Asleep :=
  inferInstanceAs (Decidable (v.opmode = .sta ∧ v.ps.psParams.psEn = true ∧ v.ps.psState = .devInPwrSve))

instance (v : LiveVap) : Decidable v.MaySleep :=
  inferInstanceAs (Decidable (v.opmode = .sta ∧ v.ps.psParams.psEn = true ∧ v.ps.ivState = .run ∧
    v.ps.psState = .none ∧ v.ps.connInProg = false ∧ v.ps.roamInd = false ∧ v.ps.delayPwrSveDecision = false))

/-- Between `v` and `u` a request of this kind went to the management queue. -/
def Issued (v : PsVap) (k : PsRequest) (u : PsVap) : Prop :=
  ∃ f toHead, f.request = k ∧ u.mgmtQ = enqueuePs toHead f v.mgmtQ

namespace VapTable

/-- What the operation is to do about power save. -/
def PsFollows (s t : VapTable) : VapAct → Prop
  | .create a => (s.oneboxVapCreate a).2 = true → 2 ≤ t.scNvaps → ∀ v ∈ s.vaps, v.Asleep →
      ∃ w ∈ t.vaps, w.ptr = v.ptr ∧ Issued v.ps .wakeup w.ps ∧ w.ps.psState = .disReqSent
  | .delete p => t.scNvaps = 1 → ∀ v ∈ s.vaps, v.ptr ≠ p → v.MaySleep →
      ∃ w ∈ t.vaps, w.ptr = v.ptr ∧ Issued v.ps .sleep w.ps
  | .newstate .. => True

/-- A vap can be created: its mode is admitted, there is a slot for it, and net80211 attaches it. -/
def creates (s : VapTable) (a : VapArgs) : Bool :=
  (s.opmodes a).isSome && s.scNvaps < oneboxVapsDefault && s.freeSlot.isSome && a.vapAttach

/-- The operation finds no station for which power save would have to change. -/
def psIdle (s : VapTable) : VapAct → Prop
  | .create a => s.creates a = true → ∀ v ∈ s.vaps, ¬ v.Asleep
  | .delete p => s.scNvaps = 2 → ∀ v ∈ s.vaps, v.ptr ≠ p → ¬ v.MaySleep
  | .newstate .. => True

instance (s : VapTable) : DecidablePred s.psIdle
  | .create a => inferInstanceAs (Decidable (s.creates a = true → ∀ v ∈ s.vaps, ¬ v.Asleep))
  | .delete p => inferInstanceAs (Decidable (s.scNvaps = 2 → ∀ v ∈ s.vaps, v.ptr ≠ p → ¬ v.MaySleep))
  | .newstate .. => isTrue trivial

variable {base : MacAddr} {s t : VapTable} {v w : LiveVap}

theorem Inv.multiVapStep {a : MultiVapAct} (h : s.Inv base) (hstep : s.multiVapStep a = some t) :
    t.Inv base := by
  cases a with
  | vap a => exact h.step hstep
  | ps p ps =>
    cases hstep
    exact h.setVap fun v _ => ⟨rfl, rfl, rfl, rfl, rfl⟩

theorem not_issued {v u : PsVap} {k : PsRequest} (h : u.mgmtQ = v.mgmtQ) : ¬ Issued v k u := by
  rintro ⟨f, toHead, -, hq⟩
  have hlen := congrArg List.length (h.symm.trans hq)
  cases toHead <;> simp [enqueuePs] at hlen

/-- The queue of each vap of `t` is the one the vap had in `s`. -/
def QueuesKept (s t : VapTable) : Prop :=
  ∀ w ∈ t.vaps, ∀ v ∈ s.vaps, w.ptr = v.ptr → w.ps.mgmtQ = v.ps.mgmtQ

theorem Inv.eq_of_ptr (h : s.Inv base) (hv : v ∈ s.vaps) (hw : w ∈ s.vaps) (hptr : w.ptr = v.ptr) : w = v :=
  List.inj_on_of_nodup_map h.ptrs hw hv hptr

theorem Inv.queuesKept (h : s.Inv base) (hsub : ∀ w ∈ t.vaps, w ∈ s.vaps) : QueuesKept s t := by
  intro w hw v hv hptr
  rw [h.eq_of_ptr hv (hsub w hw) hptr]

/-- On these two paths `update_pwr_save_status` does nothing. -/
theorem mem_notifyPs {status : Bool} {path : PsPath} (hpath : path = .vapCreate ∨ path = .vapDelete)
    (hw : w ∈ (s.notifyPs status path).vaps) :
    ∃ v ∈ s.vaps, v.ptr = w.ptr ∧ v.ps.mgmtQ = w.ps.mgmtQ := by
  obtain ⟨v, hv, rfl⟩ := List.mem_map.mp hw
  refine ⟨v, hv, ?_⟩
  split
  · rcases hpath with rfl | rfl <;> exact ⟨rfl, rfl⟩
  · exact ⟨rfl, rfl⟩

theorem QueuesKept.notifyPs {status : Bool} {path : PsPath} (h : QueuesKept s t)
    (hpath : path = .vapCreate ∨ path = .vapDelete) : QueuesKept s (t.notifyPs status path) := by
  intro w hw v hv hptr
  obtain ⟨u, hu, huptr, huq⟩ := mem_notifyPs hpath hw
  rw [← huq]
  exact h u hu v hv (huptr.trans hptr)

theorem Inv.queuesKept_create (h : s.Inv base) (a : VapArgs) : QueuesKept s (s.oneboxVapCreate a).1 := by
  fun_cases oneboxVapCreate s a with
  | case1 => exact h.queuesKept fun w hw => hw
  | case2 => exact h.queuesKept fun w hw => hw
  | case3 => exact h.queuesKept fun w hw => hw
  | case4 => exact h.queuesKept fun w hw => hw
  | case5 _ _ _ _ _ _ _ _ _ s₂ =>
    have hadd : QueuesKept s s₂ := by
      intro w hw v hv hptr
      rcases List.mem_append.mp hw with hw | hw
      · rw [h.eq_of_ptr hv hw hptr]
      · rw [List.mem_singleton.mp hw] at hptr
        -- the new vap is not one of the old ones
        exact absurd hptr (h.placed v hv).fresh.ne'
    split
    · exact hadd.notifyPs (.inl rfl)
    · exact hadd

theorem mem_newstate {nstate : IvState} {beaconAlloc : Bool}
    (hw : w ∈ (s.oneboxNewstate v nstate beaconAlloc).vaps) :
    ∃ u ∈ s.vaps, u.ptr = w.ptr ∧ u.ps.mgmtQ = w.ps.mgmtQ := by
  rw [oneboxNewstate] at hw
  split at hw
  · obtain ⟨u, hu, rfl⟩ := List.mem_map.mp hw
    refine ⟨u, hu, ?_⟩
    split <;> exact ⟨rfl, rfl⟩
  · split at hw
    · exact ⟨w, hw, rfl, rfl⟩
    · obtain ⟨u, hu, rfl⟩ := List.mem_map.mp hw
      refine ⟨u, hu, ?_⟩
      split <;> exact ⟨rfl, rfl⟩

theorem Inv.queuesKept_delete (h : s.Inv base) (v : LiveVap) : QueuesKept s (s.oneboxVapDelete v) := by
  have hdrop : QueuesKept s (((s.oneboxNewstate v .init false).dropVap v).use [v.vapId]) := by
    intro w hw x hx hptr
    obtain ⟨u, hu, huptr, huq⟩ := mem_newstate (List.mem_of_mem_eraseP hw)
    rw [← huq, h.eq_of_ptr hx hu (huptr.trans hptr)]
  rw [oneboxVapDelete]
  split
  · exact hdrop.notifyPs (.inr rfl)
  · exact hdrop

theorem scNvaps_create {a : VapArgs} (h : (s.oneboxVapCreate a).2 = true) :
    (s.oneboxVapCreate a).1.scNvaps = s.scNvaps + 1 := by
  revert h
  fun_cases oneboxVapCreate s a with
  | case1 => exact fun h => absurd h Bool.false_ne_true
  | case2 => exact fun h => absurd h Bool.false_ne_true
  | case3 => exact fun h => absurd h Bool.false_ne_true
  | case4 => exact fun h => absurd h Bool.false_ne_true
  | case5 =>
    intro _
    split <;> rfl

theorem oneboxVapCreate_snd (s : VapTable) (a : VapArgs) : (s.oneboxVapCreate a).2 = s.creates a := by
  rw [creates]
  fun_cases oneboxVapCreate s a with
  | case1 hmodes => simp [hmodes]
  | case2 _ _ _ _ hfull =>
    have hno : ¬ s.scNvaps < oneboxVapsDefault := Nat.not_lt.mpr hfull
    simp [hno]
  | case3 _ _ _ _ _ hslot =>
    have hnone : s.freeSlot = none := hslot
    simp [hnone]
  | case4 _ _ _ _ _ _ _ _ hattach =>
    rw [Bool.not_eq_true'] at hattach
    simp [hattach]
  | case5 _ _ hmodes _ hroom k hslot _ hattach =>
    have hlt : s.scNvaps < oneboxVapsDefault := Nat.not_le.mp hroom
    have hsome : s.freeSlot = some k := hslot
    rw [Bool.not_eq_true', Bool.not_eq_false] at hattach
    simp [hmodes, hlt, hsome, hattach]

theorem scNvaps_newstate (nstate : IvState) (beaconAlloc : Bool) :
    (s.oneboxNewstate v nstate beaconAlloc).scNvaps = s.scNvaps := by
  rw [oneboxNewstate]
  split
  · rfl
  · split <;> rfl

theorem scNvaps_delete (hmode : v.opmode ≠ .wds) : (s.oneboxVapDelete v).scNvaps = s.scNvaps - 1 := by
  have hdrop : (((s.oneboxNewstate v .init false).dropVap v).use [v.vapId]).scNvaps = s.scNvaps - 1 :=
    (if_neg hmode).trans (by rw [scNvaps_newstate])
  rw [oneboxVapDelete]
  split
  · exact hdrop
  · exact hdrop

theorem Inv.psFollows_create_iff (h : s.Inv base) (a : VapArgs) :
    s.PsFollows (s.oneboxVapCreate a).1 (.create a) ↔ s.psIdle (.create a) := by
  rw [PsFollows, psIdle, ← oneboxVapCreate_snd]
  constructor
  · intro hfollows hok v hv hasleep
    have hlive : s.scNvaps ≠ 0 := by
      rw [h.count]
      exact (List.length_pos_of_mem hv).ne'
    have hnvaps : 2 ≤ (s.oneboxVapCreate a).1.scNvaps := by
      rw [scNvaps_create hok]
      omega
    obtain ⟨w, hw, hptr, hissued, -⟩ := hfollows hok hnvaps v hv hasleep
    exact not_issued (h.queuesKept_create a w hw v hv hptr) hissued
  · intro hidle hok _ v hv hasleep
    exact absurd hasleep (hidle hok v hv)

theorem Inv.psFollows_delete_iff {p : Nat} (h : s.Inv base) (hp : s.vapAt p = some v) :
    s.PsFollows (s.oneboxVapDelete v) (.delete p) ↔ s.psIdle (.delete p) := by
  have hcount := scNvaps_delete (s := s) (h.placed v (mem_of_vapAt hp)).mode
  constructor
  · intro hfollows htwo w hw hne hsleep
    obtain ⟨u, hu, hptr, hissued⟩ := hfollows (by omega) w hw hne hsleep
    exact not_issued (h.queuesKept_delete v u hu w hw hptr) hissued
  · intro hidle hone w hw hne hsleep
    exact absurd hsleep (hidle (by omega) w hw hne)

end VapTable

/-- Of all vap operations, in whatever state the vaps have come to, those do what power save asks for that
find nothing to do. -/
theorem multi_vap_ps_iff {base : MacAddr} {s u t : VapTable} {as : List MultiVapAct} {a : VapAct}
    (hs : VapStart base s) (hrun : run VapTable.multiVapStep s as = some u) (hstep : u.step a = some t) :
    u.PsFollows t a ↔ u.psIdle a := by
  have hinv : u.Inv base := run_preserves VapTable.Inv.multiVapStep (VapTable.Inv.of_start hs) hrun
  cases a with
  | create a =>
    cases hstep
    exact hinv.psFollows_create_iff a
  | delete p =>
    obtain ⟨v, hv, rfl⟩ := Option.map_eq_some_iff.mp hstep
    exact hinv.psFollows_delete_iff hv
  | newstate p nstate beaconAlloc => exact iff_of_true trivial trivial

/-- A station in `RUN`, in the given power-save state. -/
def staIn (st : PsState) : List MultiVapAct :=
  [.vap (.create ⟨.sta, true, true, freshVap⟩), .vap (.newstate 0 .scan false), .vap (.newstate 0 .run false),
    .ps 0 { freshVap with ivState := .run, psState := st, psParams := psOn }]

def newAp : VapAct := .create ⟨.hostap, false, true, freshVap⟩

theorem multi_vap_ps_awake : ∃ u t, run VapTable.multiVapStep vapBoot (staIn .none) = some u ∧
    u.step newAp = some t ∧ u.PsFollows t newAp := by
  obtain ⟨u, hrun, hidle⟩ : ∃ u, run VapTable.multiVapStep vapBoot (staIn .none) = some u ∧ u.psIdle newAp :=
    exists_run (by decide)
  exact ⟨u, _, hrun, rfl, (multi_vap_ps_iff vapBoot_start hrun rfl).mpr hidle⟩

/-- An access point is created beside a station that sleeps, and one is deleted beside a station that may. -/
theorem multi_vap_ps_unchanged :
    (∃ u t, run VapTable.multiVapStep vapBoot (staIn .devInPwrSve) = some u ∧ u.step newAp = some t ∧
      ¬ u.PsFollows t newAp) ∧
    ∃ u t, run VapTable.multiVapStep vapBoot (staIn .none ++ [.vap newAp]) = some u ∧
      u.step (.delete 1) = some t ∧ ¬ u.PsFollows t (.delete 1) := by
  have hinv := VapTable.Inv.of_start vapBoot_start
  constructor
  · obtain ⟨u, hrun, hbusy⟩ :
        ∃ u, run VapTable.multiVapStep vapBoot (staIn .devInPwrSve) = some u ∧ ¬ u.psIdle newAp :=
      exists_run (by decide)
    have hu : u.Inv _ := run_preserves VapTable.Inv.multiVapStep hinv hrun
    exact ⟨u, _, hrun, rfl, fun h => hbusy ((hu.psFollows_create_iff _).mp h)⟩
  · obtain ⟨u, hrun, hv, hbusy⟩ : ∃ u, run VapTable.multiVapStep vapBoot (staIn .none ++ [.vap newAp]) = some u ∧
        (u.vapAt 1).isSome ∧ ¬ u.psIdle (.delete 1) := exists_run (by decide)
    have hu : u.Inv _ := run_preserves VapTable.Inv.multiVapStep hinv hrun
    obtain ⟨v, hv⟩ := Option.isSome_iff_exists.mp hv
    exact ⟨u, _, hrun, congrArg (Option.map u.oneboxVapDelete) hv, fun h =>
      hbusy ((hu.psFollows_delete_iff hv).mp h)⟩

end Onebox
