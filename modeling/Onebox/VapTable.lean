import Onebox.PsAgreement
import Onebox.StationTable

/-! The virtual interfaces and the table `hal_vap` of their slots: a slot is taken by
`onebox_vap_create`, released by `onebox_vap_delete`, and written through
`beacon_loc` by `onebox_newstate`, which a deletion runs as well. The build has `AUTO_RATE_SUPPORT` and
`ENABLE_P2P_SUPPORT`. -/

namespace Onebox

open Machine

inductive VapMode
  | ibss | sta | wds | ahdemo | hostap | monitor | mbss | p2p
  deriving DecidableEq, Repr

def oneboxVapsDefault : Nat := 4

/-- A `struct ieee80211vap` of `ic_vaps`; its state is `ps.ivState`. -/
structure LiveVap where
  ptr : Nat
  opmode : VapMode
  vapId : Nat
  myaddr : MacAddr
  beaconLoc : Nat
  ps : PsVap

structure HalVap where
  vapInUse : Bool
  vap : Option Nat

/-- The adapter with its vaps. `halVap` stands for the memory from the start of the table on, so that an
index past its end has a place too; `indices` are the indices used so far. -/
structure VapTable where
  macAddr : MacAddr
  icOpmode : VapMode
  scNvaps : Nat
  scNstavaps : Nat
  scNmonvaps : Nat
  icMontaps : Nat
  scNostabeacons : Bool
  halVap : Nat → HalVap
  vaps : List LiveVap
  created : Nat
  indices : List Nat

/-- `macaddr[5] = ((adapter->mac_addr[5] & 0xfc) | vap_id)`. -/
def vapMac (m : MacAddr) (vapId : Nat) : MacAddr := m &&& 0xfffffffffffc#48 ||| BitVec.ofNat 48 vapId

def PwrSaveParams.zero : PwrSaveParams :=
  { psEn := false, sleepType := 0, txThreshold := 0, rxThreshold := 0, txHysterisis := 0, rxHysterisis := 0
    monitorInterval := 0, listenInterval := 0, numBeaconsPerListenInterval := 0, dtimIntervalDuration := 0
    numDtimsPerSleep := 0, deepSleepWakeupPeriod := 0, padding := 0 }

/-- The `memset` of `hal_priv_vap`; what belongs to the adapter stays. -/
def PsVap.cleared (v : PsVap) : PsVap :=
  { v with
    ivState := .init, connInProg := false, roamInd := false, psState := .none, updateTa := false
    delayPwrSveDecision := false, disablePsForChangeInParams := false
    psParams := .zero, psParamsIoctl := .zero, txDataload := 0, rxDataload := 0, jiffiesPrev := 0 }

/-- The arguments of a creation, whether net80211 attaches the vap, and what the adapter has for power save
at that time. -/
structure VapArgs where
  opmode : VapMode
  cloneNobeacons : Bool
  vapAttach : Bool
  ps : PsVap

namespace VapTable

variable (s : VapTable)

/-- The mode of the chip for a new station. -/
def staOpmode (cloneNobeacons : Bool) : Option VapMode :=
  if s.scNstavaps ≠ 0 then none
  else if s.scNvaps ≠ 0 ∧ cloneNobeacons = false ∧ s.icOpmode ≠ .monitor then none
  else some (if cloneNobeacons then .hostap else .sta)

/-- The modes of the new vap and of the chip, unless the mode asked for is refused. -/
def opmodes (a : VapArgs) : Option (VapMode × VapMode) :=
  match a.opmode with
  | .hostap => if s.scNvaps ≠ 0 ∧ s.icOpmode = .sta then none else some (.hostap, .hostap)
  -- a P2P device starts as a station
  | .sta | .p2p => (s.staOpmode a.cloneNobeacons).map fun ic => (.sta, ic)
  | .ibss =>
    if s.scNvaps ≠ 0 ∧ s.icOpmode = .sta then none
    else some (.ibss, if s.icOpmode = .hostap then .hostap else .ibss)
  | .ahdemo => some (.ahdemo, if s.scNvaps ≠ 0 ∧ s.icOpmode ≠ .ahdemo then s.icOpmode else .ahdemo)
  | .monitor => some (.monitor, if s.scNvaps ≠ 0 ∧ s.icOpmode ≠ .monitor then s.icOpmode else .monitor)
  | .wds | .mbss => none

def freeSlot : Option Nat := (List.range oneboxVapsDefault).find? fun i => !(s.halVap i).vapInUse

def use (is : List Nat) : VapTable := { s with indices := s.indices ++ is }

/-- The loop over the stations at the end of a creation and of a deletion. -/
def notifyPs (status : Bool) (path : PsPath) : VapTable :=
  { s with vaps := s.vaps.map fun v =>
      if v.opmode = .sta ∧ v.ps.psParams.psEn then
        { v with ps := { v.ps with scNvaps := s.scNvaps }.updatePwrSaveStatus status path }
      else v }

/-- `onebox_vap_create` from the place where the vap is stored for the HAL. -/
def addVap (opmode icOpmode : VapMode) (vapId : Nat) (ps : PsVap) : VapTable :=
  let v : LiveVap :=
    { ptr := s.created, opmode, vapId, myaddr := s.macAddr, beaconLoc := 100
      ps := ps.cleared }
  { s with
    halVap := Function.update s.halVap vapId ⟨true, some s.created⟩
    icOpmode := icOpmode
    scNvaps := s.scNvaps + 1
    scNstavaps := if opmode = .sta then s.scNstavaps + 1 else s.scNstavaps
    scNmonvaps := if opmode = .monitor then s.scNmonvaps + 1 else s.scNmonvaps
    vaps := s.vaps ++ [v]
    created := s.created + 1 }

def oneboxVapCreate (a : VapArgs) : VapTable × Bool :=
  match s.opmodes a with
  | none => (s, false)
  | some (opmode, icOpmode) =>
    let s := { s with scNostabeacons := s.scNostabeacons || (opmode = .sta && a.cloneNobeacons) }
    if s.scNvaps ≥ oneboxVapsDefault then (s, false)
    else match s.freeSlot with
      | none => (s.use (List.range oneboxVapsDefault), false)
      | some vapId =>
        -- `macaddr` is `adapter->mac_addr` itself
        let s := { s.use (List.range (vapId + 1)) with
          macAddr := vapMac s.macAddr vapId
          icMontaps := if opmode = .monitor then s.icMontaps + 1 else s.icMontaps }
        if !a.vapAttach then (s, false)
        else
          let s := (s.addVap opmode icOpmode vapId a.ps).use [vapId]
          (if s.scNstavaps ≠ 0 ∧ s.scNvaps > 1 then s.notifyPs false .vapCreate else s, true)

/-- What `onebox_vap_delete` takes away up to the place where the slot is free. -/
def dropVap (v : LiveVap) : VapTable :=
  { s with
    scNvaps := if v.opmode = .wds then s.scNvaps else s.scNvaps - 1
    scNmonvaps := if v.opmode = .monitor then s.scNmonvaps - 1 else s.scNmonvaps
    icMontaps := if v.opmode = .monitor then s.icMontaps - 1 else s.icMontaps
    scNstavaps := if v.opmode = .sta then s.scNstavaps - 1 else s.scNstavaps
    vaps := s.vaps.eraseP fun w => w.ptr = v.ptr
    halVap := Function.update s.halVap v.vapId ⟨false, none⟩ }

def setVap (p : Nat) (f : LiveVap → LiveVap) : VapTable :=
  { s with vaps := s.vaps.map fun v => if v.ptr = p then f v else v }

end VapTable

/-- The vap leaves a state above `INIT` for `INIT`, and its `beacon_loc` is used. -/
def LiveVap.leaves (v : LiveVap) (nstate : IvState) : Bool :=
  (v.opmode = .hostap || v.opmode = .sta) && nstate = .init && v.ps.ivState ≠ .init

/-- An access point needs a beacon to go to `RUN`; from `INIT` it has changed its state before. -/
def VapTable.refuses (s : VapTable) (v : LiveVap) (nstate : IvState) (beaconAlloc : Bool) : Bool :=
  v.opmode = .hostap && nstate = .run && v.beaconLoc = 100 && v.ps.ivState ≠ .init &&
    (!beaconAlloc || s.scNvaps = 0)

def LiveVap.setState (v : LiveVap) (nstate : IvState) : LiveVap :=
  { v with ps := { v.ps with ivState := nstate } }

def VapTable.oneboxNewstate (s : VapTable) (v : LiveVap) (nstate : IvState) (beaconAlloc : Bool) : VapTable :=
  if v.leaves nstate then
    let slot := s.halVap v.beaconLoc
    { s.use [v.beaconLoc] with halVap := Function.update s.halVap v.beaconLoc { slot with vap := none } }.setVap
      v.ptr fun v => { v.setState nstate with beaconLoc := 100 }
  else if s.refuses v nstate beaconAlloc then s
  else s.setVap v.ptr fun v => v.setState nstate

/-- `ieee80211_vap_detach` stops the vap, which brings it to `INIT`, before it leaves the list. -/
def VapTable.oneboxVapDelete (s : VapTable) (v : LiveVap) : VapTable :=
  let s := ((s.oneboxNewstate v .init false).dropVap v).use [v.vapId]
  if s.scNstavaps ≠ 0 ∧ s.scNvaps < 2 then s.notifyPs true .vapDelete else s

inductive VapAct
  | create (a : VapArgs)
  | delete (p : Nat)
  | newstate (p : Nat) (nstate : IvState) (beaconAlloc : Bool)

def VapTable.vapAt (s : VapTable) (p : Nat) : Option LiveVap := s.vaps.find? fun v => v.ptr = p

def VapTable.step (s : VapTable) : VapAct → Option VapTable
  | .create a => some (s.oneboxVapCreate a).1
  | .delete p => (s.vapAt p).map s.oneboxVapDelete
  | .newstate p nstate beaconAlloc => (s.vapAt p).map fun v => s.oneboxNewstate v nstate beaconAlloc

/-- The table is right for the live vaps, whose addresses are derived from `base`. -/
structure VapTable.SlotsOk (base : MacAddr) (s : VapTable) : Prop where
  inUse : ∀ i < oneboxVapsDefault, (s.halVap i).vapInUse = true ↔ ∃! v, v ∈ s.vaps ∧ v.vapId = i
  vap : ∀ v ∈ s.vaps, v.vapId < oneboxVapsDefault ∧ (s.halVap v.vapId).vap = some v.ptr
  count : s.scNvaps = ((List.range oneboxVapsDefault).filter fun i => (s.halVap i).vapInUse).length
  addr : ∀ v ∈ s.vaps, v.myaddr = vapMac base v.vapId
  distinct : s.vaps.Pairwise fun v w => v.myaddr ≠ w.myaddr

/-- No access point or station goes back to `INIT`, and none is deleted in another state. -/
def VapTable.staysUp (s : VapTable) : VapAct → Bool
  | .create _ => true
  | .delete p => (s.vapAt p).all fun v => !v.leaves .init
  | .newstate p nstate _ => (s.vapAt p).all fun v => !v.leaves nstate

structure VapStart (base : MacAddr) (s : VapTable) : Prop where
  macAddr : s.macAddr = base
  scNvaps : s.scNvaps = 0
  vaps : s.vaps = []
  halVap : ∀ i < oneboxVapsDefault, (s.halVap i).vapInUse = false
  indices : s.indices = []

section Mac

variable {m : MacAddr} {i j : Nat}

theorem vapMac_vapMac (hi : i < oneboxVapsDefault) : vapMac (vapMac m i) j = vapMac m j := by
  have hlow : BitVec.ofNat 48 i &&& 0xfffffffffffc#48 = 0#48 := by
    simp only [oneboxVapsDefault] at hi
    interval_cases i <;> rfl
  rw [vapMac, vapMac, BitVec.and_or_distrib_right, hlow, BitVec.and_assoc, BitVec.and_self, BitVec.or_zero]
  rfl

theorem vapMac_and_three (hi : i < oneboxVapsDefault) : vapMac m i &&& 3#48 = BitVec.ofNat 48 i := by
  have hid : BitVec.ofNat 48 i &&& 3#48 = BitVec.ofNat 48 i := by
    simp only [oneboxVapsDefault] at hi
    interval_cases i <;> rfl
  have hmask : 0xfffffffffffc#48 &&& 3#48 = 0#48 := rfl
  rw [vapMac, BitVec.and_or_distrib_right, BitVec.and_assoc, hmask, hid, BitVec.and_zero, BitVec.zero_or]

theorem vapMac_inj (hi : i < oneboxVapsDefault) (hj : j < oneboxVapsDefault) (h : vapMac m i = vapMac m j) :
    i = j := by
  have heq : BitVec.ofNat 48 i = BitVec.ofNat 48 j := by rw [← vapMac_and_three hi, h, vapMac_and_three hj]
  have hnat := congrArg BitVec.toNat heq
  simp only [BitVec.toNat_ofNat, oneboxVapsDefault] at hnat hi hj
  omega

end Mac

/-- A live vap has its slot, its address and a mode that is counted. -/
structure LiveVap.Placed (base : MacAddr) (halVap : Nat → HalVap) (created : Nat) (v : LiveVap) : Prop where
  slot : v.vapId < oneboxVapsDefault
  inUse : halVap v.vapId = ⟨true, some v.ptr⟩
  addr : v.myaddr = vapMac base v.vapId
  fresh : v.ptr < created
  mode : v.opmode ≠ .wds
  beaconLoc : v.beaconLoc = 100

/-- The vap as the table knows it. -/
structure SameVap (v w : LiveVap) : Prop where
  ptr : w.ptr = v.ptr
  opmode : w.opmode = v.opmode
  vapId : w.vapId = v.vapId
  myaddr : w.myaddr = v.myaddr
  beaconLoc : w.beaconLoc = v.beaconLoc

section Placed

variable {base : MacAddr} {halVap halVap' : Nat → HalVap} {created created' : Nat} {v w : LiveVap}

theorem LiveVap.Placed.same (h : v.Placed base halVap created) (hw : SameVap v w) :
    w.Placed base halVap created where
  slot := hw.vapId ▸ h.slot
  inUse := by rw [hw.vapId, hw.ptr, h.inUse]
  addr := by rw [hw.vapId, hw.myaddr, h.addr]
  fresh := hw.ptr ▸ h.fresh
  mode := hw.opmode ▸ h.mode
  beaconLoc := hw.beaconLoc ▸ h.beaconLoc

/-- A write to another slot leaves a vap where it is. -/
theorem LiveVap.Placed.update {i : Nat} {x : HalVap} (h : v.Placed base halVap created) (hi : v.vapId ≠ i)
    (hc : created ≤ created') : v.Placed base (Function.update halVap i x) created' where
  slot := h.slot
  inUse := by rw [Function.update_of_ne hi, h.inUse]
  addr := h.addr
  fresh := h.fresh.trans_le hc
  mode := h.mode
  beaconLoc := h.beaconLoc

end Placed

namespace VapTable

structure Inv (base : MacAddr) (s : VapTable) : Prop where
  placed : ∀ v ∈ s.vaps, v.Placed base s.halVap s.created
  free : ∀ i < oneboxVapsDefault, (s.halVap i).vapInUse = true → ∃ v ∈ s.vaps, v.vapId = i
  ids : (s.vaps.map LiveVap.vapId).Nodup
  ptrs : (s.vaps.map LiveVap.ptr).Nodup
  count : s.scNvaps = s.vaps.length
  macAddr : ∀ i, vapMac s.macAddr i = vapMac base i

variable {base : MacAddr} {s t : VapTable} {v : LiveVap}

theorem Inv.inUse_iff (h : s.Inv base) {i : Nat} (hi : i < oneboxVapsDefault) :
    (s.halVap i).vapInUse = true ↔ ∃ v ∈ s.vaps, v.vapId = i := by
  refine ⟨h.free i hi, ?_⟩
  rintro ⟨v, hv, rfl⟩
  rw [(h.placed v hv).inUse]

/-- The slots in use are the ids of the live vaps. -/
theorem Inv.slots_perm (h : s.Inv base) :
    ((List.range oneboxVapsDefault).filter fun i => (s.halVap i).vapInUse).Perm (s.vaps.map LiveVap.vapId) := by
  refine (List.perm_ext_iff_of_nodup (List.nodup_range.filter _) h.ids).mpr fun i => ?_
  rw [List.mem_filter, List.mem_range, List.mem_map]
  constructor
  · rintro ⟨hi, huse⟩
    exact h.free i hi huse
  · rintro ⟨v, hv, rfl⟩
    have hp := h.placed v hv
    exact ⟨hp.slot, by rw [hp.inUse]⟩

theorem Inv.slotsOk (h : s.Inv base) : s.SlotsOk base where
  inUse i hi := by
    rw [h.inUse_iff hi]
    constructor
    · rintro ⟨v, hv, hid⟩
      refine ⟨v, ⟨hv, hid⟩, fun w ⟨hw, hwid⟩ => ?_⟩
      exact List.inj_on_of_nodup_map h.ids hw hv (hwid.trans hid.symm)
    · rintro ⟨v, ⟨hv, hid⟩, -⟩
      exact ⟨v, hv, hid⟩
  vap v hv := ⟨(h.placed v hv).slot, by rw [(h.placed v hv).inUse]⟩
  count := by rw [h.slots_perm.length_eq, List.length_map, h.count]
  addr v hv := (h.placed v hv).addr
  distinct := by
    have hids : s.vaps.Pairwise fun v w => v.vapId ≠ w.vapId := List.pairwise_map.mp h.ids
    refine hids.imp_of_mem fun {v w} hv hw hne haddr => hne ?_
    rw [(h.placed v hv).addr, (h.placed w hw).addr] at haddr
    exact vapMac_inj (h.placed v hv).slot (h.placed w hw).slot haddr

theorem Inv.map {f : LiveVap → LiveVap} (h : s.Inv base) (hf : ∀ v ∈ s.vaps, SameVap v (f v)) :
    { s with vaps := s.vaps.map f }.Inv base where
  placed w hw := by
    obtain ⟨v, hv, rfl⟩ := List.mem_map.mp hw
    exact (h.placed v hv).same (hf v hv)
  free i hi huse := by
    obtain ⟨v, hv, hid⟩ := h.free i hi huse
    exact ⟨f v, List.mem_map_of_mem hv, (hf v hv).vapId.trans hid⟩
  ids := by
    have hids : (s.vaps.map f).map LiveVap.vapId = s.vaps.map LiveVap.vapId := by
      rw [List.map_map]
      exact List.map_congr_left fun v hv => (hf v hv).vapId
    rw [hids]
    exact h.ids
  ptrs := by
    have hptrs : (s.vaps.map f).map LiveVap.ptr = s.vaps.map LiveVap.ptr := by
      rw [List.map_map]
      exact List.map_congr_left fun v hv => (hf v hv).ptr
    rw [hptrs]
    exact h.ptrs
  count := by
    rw [List.length_map]
    exact h.count
  macAddr := h.macAddr

theorem Inv.use (h : s.Inv base) (is : List Nat) : (s.use is).Inv base :=
  ⟨h.placed, h.free, h.ids, h.ptrs, h.count, h.macAddr⟩

theorem Inv.notifyPs (h : s.Inv base) (status : Bool) (path : PsPath) : (s.notifyPs status path).Inv base := by
  refine h.map fun v _ => ?_
  split
  · exact ⟨rfl, rfl, rfl, rfl, rfl⟩
  · exact ⟨rfl, rfl, rfl, rfl, rfl⟩

theorem freeSlot_eq_some {i : Nat} (h : s.freeSlot = some i) :
    i < oneboxVapsDefault ∧ (s.halVap i).vapInUse = false := by
  have hmem := List.mem_of_find?_eq_some h
  have hfree := List.find?_some h
  exact ⟨List.mem_range.mp hmem, by simpa using hfree⟩

/-- No live vap has the id of a free slot. -/
theorem Inv.vapId_ne {i : Nat} (h : s.Inv base) (hfree : (s.halVap i).vapInUse = false) (hv : v ∈ s.vaps) :
    v.vapId ≠ i := by
  rintro rfl
  rw [(h.placed v hv).inUse] at hfree
  cases hfree

theorem Inv.addVap {i : Nat} {opmode icOpmode : VapMode} {ps : PsVap} (h : s.Inv base)
    (hi : i < oneboxVapsDefault) (hfree : (s.halVap i).vapInUse = false) (hmac : s.macAddr = vapMac base i)
    (hmode : opmode ≠ .wds) : (s.addVap opmode icOpmode i ps).Inv base where
  placed v hv := by
    rcases List.mem_append.mp hv with hv | hv
    · exact (h.placed v hv).update (h.vapId_ne hfree hv) (Nat.le_succ _)
    · rw [List.mem_singleton.mp hv]
      exact ⟨hi, Function.update_self .., hmac, Nat.lt_succ_self _, hmode, rfl⟩
  free j hj huse := by
    by_cases hji : j = i
    · exact ⟨_, List.mem_append_right _ List.mem_cons_self, hji.symm⟩
    · have hold : (s.halVap j).vapInUse = true := by
        simpa [VapTable.addVap, Function.update_of_ne hji] using huse
      obtain ⟨v, hv, hid⟩ := h.free j hj hold
      exact ⟨v, List.mem_append_left _ hv, hid⟩
  ids := by
    rw [VapTable.addVap, List.map_append]
    refine List.nodup_append.mpr ⟨h.ids, List.nodup_singleton _, fun a ha b hb => ?_⟩
    obtain ⟨v, hv, rfl⟩ := List.mem_map.mp ha
    rw [List.mem_singleton.mp hb]
    exact h.vapId_ne hfree hv
  ptrs := by
    rw [VapTable.addVap, List.map_append]
    refine List.nodup_append.mpr ⟨h.ptrs, List.nodup_singleton _, fun a ha b hb => ?_⟩
    obtain ⟨v, hv, rfl⟩ := List.mem_map.mp ha
    rw [List.mem_singleton.mp hb]
    exact (h.placed v hv).fresh.ne
  count := by
    show s.scNvaps + 1 = (s.vaps ++ [_]).length
    rw [List.length_append, h.count]
    rfl
  macAddr := h.macAddr

/-- The deletion takes the vap out of the list, and no other. -/
theorem Inv.eraseP_vaps (h : s.Inv base) (hv : v ∈ s.vaps) :
    ∃ l r, s.vaps = l ++ v :: r ∧ (s.vaps.eraseP fun w => w.ptr = v.ptr) = l ++ r := by
  obtain ⟨w, l, r, -, hw, hsplit, herase⟩ :=
    List.exists_of_eraseP (p := fun w : LiveVap => w.ptr = v.ptr) hv (by simp)
  have hmem : w ∈ s.vaps := by simp [hsplit]
  have hwv : w = v := List.inj_on_of_nodup_map h.ptrs hmem hv (by simpa using hw)
  exact ⟨l, r, hwv ▸ hsplit, herase⟩

theorem Inv.dropVap (h : s.Inv base) (hv : v ∈ s.vaps) : (s.dropVap v).Inv base := by
  obtain ⟨l, r, hsplit, herase⟩ := h.eraseP_vaps hv
  have hids := h.ids
  have hptrs := h.ptrs
  rw [hsplit, List.map_append, List.map_cons, List.nodup_middle, List.nodup_cons, ← List.map_append] at hids hptrs
  have hmem : ∀ w, w ∈ l ++ r → w ∈ s.vaps := fun w hw => by
    rw [hsplit]
    simp only [List.mem_append, List.mem_cons] at hw ⊢
    tauto
  have hne : ∀ w, w ∈ l ++ r → w.vapId ≠ v.vapId := fun w hw heq => hids.1 (heq ▸ List.mem_map_of_mem hw)
  have hcount := h.count
  have hmode := (h.placed v hv).mode
  constructor
  · intro w hw
    simp only [VapTable.dropVap, herase] at hw
    exact (h.placed w (hmem w hw)).update (hne w hw) le_rfl
  · intro i hi huse
    simp only [VapTable.dropVap, herase] at huse ⊢
    by_cases hiv : i = v.vapId
    · simp [hiv] at huse
    · rw [Function.update_of_ne hiv] at huse
      obtain ⟨w, hw, hid⟩ := h.free i hi huse
      rw [hsplit] at hw
      have hwv : w ≠ v := fun heq => hiv (heq ▸ hid.symm)
      refine ⟨w, ?_, hid⟩
      simp only [List.mem_append, List.mem_cons, hwv, false_or] at hw ⊢
      exact hw
  · simpa only [VapTable.dropVap, herase] using hids.2
  · simpa only [VapTable.dropVap, herase] using hptrs.2
  · simp only [VapTable.dropVap, herase, if_neg hmode]
    rw [hcount, hsplit]
    simp only [List.length_append, List.length_cons]
    omega
  · exact h.macAddr

theorem Inv.setVap {p : Nat} {f : LiveVap → LiveVap} (h : s.Inv base) (hf : ∀ v ∈ s.vaps, SameVap v (f v)) :
    (s.setVap p f).Inv base := by
  refine h.map fun v hv => ?_
  split
  · exact hf v hv
  · exact ⟨rfl, rfl, rfl, rfl, rfl⟩

/-- A write past the table. -/
theorem Inv.update_halVap {i : Nat} {x : HalVap} (h : s.Inv base) (hi : oneboxVapsDefault ≤ i) :
    { s with halVap := Function.update s.halVap i x }.Inv base where
  placed v hv := (h.placed v hv).update (by have := (h.placed v hv).slot; omega) le_rfl
  free j hj huse := by
    dsimp only at huse
    rw [Function.update_of_ne (by omega)] at huse
    exact h.free j hj huse
  ids := h.ids
  ptrs := h.ptrs
  count := h.count
  macAddr := h.macAddr

theorem Inv.newstate {nstate : IvState} {beaconAlloc : Bool} (h : s.Inv base) (hv : v ∈ s.vaps) :
    (s.oneboxNewstate v nstate beaconAlloc).Inv base := by
  rw [oneboxNewstate]
  split
  · have hloc : oneboxVapsDefault ≤ v.beaconLoc := by
      rw [(h.placed v hv).beaconLoc]
      decide
    refine ((h.use [v.beaconLoc]).update_halVap hloc).setVap fun w hw => ?_
    exact ⟨rfl, rfl, rfl, rfl, ((h.placed w hw).beaconLoc).symm⟩
  · split
    · exact h
    · exact h.setVap fun w _ => ⟨rfl, rfl, rfl, rfl, rfl⟩

theorem Inv.exists_newstate (h : s.Inv base) (hv : v ∈ s.vaps) (nstate : IvState) (beaconAlloc : Bool) :
    ∃ w ∈ (s.oneboxNewstate v nstate beaconAlloc).vaps, SameVap v w := by
  rw [oneboxNewstate]
  split
  · refine ⟨_, List.mem_map_of_mem hv, ?_⟩
    rw [if_pos rfl]
    exact ⟨rfl, rfl, rfl, rfl, ((h.placed v hv).beaconLoc).symm⟩
  · split
    · exact ⟨v, hv, rfl, rfl, rfl, rfl, rfl⟩
    · refine ⟨_, List.mem_map_of_mem hv, ?_⟩
      rw [if_pos rfl]
      exact ⟨rfl, rfl, rfl, rfl, rfl⟩

theorem dropVap_same {w : LiveVap} (h : SameVap v w) : s.dropVap w = s.dropVap v := by
  rw [dropVap, dropVap, h.opmode, h.ptr, h.vapId]

theorem opmodes_ne_wds {a : VapArgs} {m ic : VapMode} (h : s.opmodes a = some (m, ic)) : m ≠ .wds := by
  rintro rfl
  rw [opmodes] at h
  split at h
  all_goals simp_all

theorem Inv.create (h : s.Inv base) (a : VapArgs) : (s.oneboxVapCreate a).1.Inv base := by
  fun_cases oneboxVapCreate s a with
  | case1 => exact h
  | case2 => exact ⟨h.placed, h.free, h.ids, h.ptrs, h.count, h.macAddr⟩
  | case3 => exact ⟨h.placed, h.free, h.ids, h.ptrs, h.count, h.macAddr⟩
  | case4 _ _ _ _ _ i hslot =>
    obtain ⟨hi, -⟩ := freeSlot_eq_some hslot
    exact ⟨h.placed, h.free, h.ids, h.ptrs, h.count, fun j => (vapMac_vapMac hi).trans (h.macAddr j)⟩
  | case5 opmode icOpmode hmodes _ _ i hslot s₁ _ s₂ =>
    obtain ⟨hi, hfree⟩ := freeSlot_eq_some hslot
    have hinv : s₁.Inv base :=
      ⟨h.placed, h.free, h.ids, h.ptrs, h.count, fun j => (vapMac_vapMac hi).trans (h.macAddr j)⟩
    have hadd : s₂.Inv base := (hinv.addVap hi hfree (h.macAddr i) (opmodes_ne_wds hmodes)).use [i]
    split
    · exact hadd.notifyPs false .vapCreate
    · exact hadd

theorem Inv.delete (h : s.Inv base) (hv : v ∈ s.vaps) : (s.oneboxVapDelete v).Inv base := by
  obtain ⟨w, hw, hsame⟩ := h.exists_newstate hv .init false
  have hdrop := ((h.newstate hv).dropVap hw).use [v.vapId]
  rw [dropVap_same hsame] at hdrop
  rw [oneboxVapDelete]
  split
  · exact hdrop.notifyPs true .vapDelete
  · exact hdrop

theorem mem_of_vapAt {p : Nat} (h : s.vapAt p = some v) : v ∈ s.vaps := List.mem_of_find?_eq_some h

theorem Inv.step {a : VapAct} (h : s.Inv base) (hstep : s.step a = some t) : t.Inv base := by
  cases a with
  | create a =>
    cases hstep
    exact h.create a
  | delete p =>
    obtain ⟨v, hv, rfl⟩ := Option.map_eq_some_iff.mp hstep
    exact h.delete (mem_of_vapAt hv)
  | newstate p nstate beaconAlloc =>
    obtain ⟨v, hv, rfl⟩ := Option.map_eq_some_iff.mp hstep
    exact h.newstate (mem_of_vapAt hv)

theorem Inv.of_start (h : VapStart base s) : s.Inv base where
  placed v hv := by simp [h.vaps] at hv
  free i hi huse := by simp [h.halVap i hi] at huse
  ids := by simp [h.vaps]
  ptrs := by simp [h.vaps]
  count := by rw [h.scNvaps, h.vaps, List.length_nil]
  macAddr i := by rw [h.macAddr]

/-- The indices a step uses. -/
def Uses (s t : VapTable) (is : List Nat) : Prop := t.indices = s.indices ++ is

theorem create_uses (s : VapTable) (a : VapArgs) :
    ∃ is, s.Uses (s.oneboxVapCreate a).1 is ∧ ∀ i ∈ is, i < oneboxVapsDefault := by
  fun_cases oneboxVapCreate s a with
  | case1 => exact ⟨[], (List.append_nil _).symm, by simp⟩
  | case2 => exact ⟨[], (List.append_nil _).symm, by simp⟩
  | case3 => exact ⟨_, rfl, fun i hi => List.mem_range.mp hi⟩
  | case4 _ _ _ _ _ k hslot =>
    have hk := (freeSlot_eq_some hslot).1
    exact ⟨_, rfl, fun i hi => (Nat.lt_succ_iff.mp (List.mem_range.mp hi)).trans_lt hk⟩
  | case5 _ _ _ _ _ k hslot =>
    have hk := (freeSlot_eq_some hslot).1
    refine ⟨List.range (k + 1) ++ [k], ?_, fun i hi => ?_⟩
    · split <;> exact List.append_assoc ..
    · have hik : i ≤ k := by
        rcases List.mem_append.mp hi with hi | hi
        · exact Nat.lt_succ_iff.mp (List.mem_range.mp hi)
        · exact (List.mem_singleton.mp hi).le
      exact hik.trans_lt hk

theorem newstate_uses (s : VapTable) (v : LiveVap) (nstate : IvState) (beaconAlloc : Bool) :
    s.Uses (s.oneboxNewstate v nstate beaconAlloc) (if v.leaves nstate then [v.beaconLoc] else []) := by
  rw [oneboxNewstate]
  split
  · rfl
  · split <;> exact (List.append_nil _).symm

theorem delete_uses (s : VapTable) (v : LiveVap) :
    s.Uses (s.oneboxVapDelete v) ((if v.leaves .init then [v.beaconLoc] else []) ++ [v.vapId]) := by
  have hstop : (s.oneboxNewstate v .init false).indices = _ := newstate_uses s v .init false
  rw [Uses, ← List.append_assoc, ← hstop, oneboxVapDelete]
  split <;> rfl

/-- A step uses an index past the table only where an interface goes back to `INIT`: its `beacon_loc`
is still 100. -/
theorem Inv.step_uses {a : VapAct} (h : s.Inv base) (hstep : s.step a = some t) :
    ∃ is, s.Uses t is ∧ ((∀ i ∈ is, i < oneboxVapsDefault) ↔ s.staysUp a = true) := by
  cases a with
  | create a =>
    cases hstep
    obtain ⟨is, huses, his⟩ := create_uses s a
    exact ⟨is, huses, iff_of_true his rfl⟩
  | delete p =>
    obtain ⟨v, hv, rfl⟩ := Option.map_eq_some_iff.mp hstep
    refine ⟨_, delete_uses s v, ?_⟩
    have hloc := (h.placed v (mem_of_vapAt hv)).beaconLoc
    have hslot := (h.placed v (mem_of_vapAt hv)).slot
    rw [staysUp, hv, List.forall_mem_append, List.forall_mem_singleton, and_iff_left hslot]
    cases hleaves : v.leaves .init <;> simp [hleaves, hloc, oneboxVapsDefault]
  | newstate p nstate beaconAlloc =>
    obtain ⟨v, hv, rfl⟩ := Option.map_eq_some_iff.mp hstep
    refine ⟨_, newstate_uses s v nstate beaconAlloc, ?_⟩
    have hloc := (h.placed v (mem_of_vapAt hv)).beaconLoc
    rw [staysUp, hv]
    cases hleaves : v.leaves nstate <;> simp [hleaves, hloc, oneboxVapsDefault]

theorem Inv.run {as : List VapAct} (h : s.Inv base) (hrun : Machine.run VapTable.step s as = some t) :
    t.Inv base :=
  run_preserves Inv.step h hrun

theorem Inv.indices_step {a : VapAct} (h : s.Inv base) (hstep : s.step a = some t) :
    (∀ i ∈ t.indices, i < oneboxVapsDefault) ↔
      (∀ i ∈ s.indices, i < oneboxVapsDefault) ∧ s.staysUp a = true := by
  obtain ⟨is, huses, his⟩ := h.step_uses hstep
  rw [huses, List.forall_mem_append, his]

/-- The indices used stay within the table just as long as no interface goes back to `INIT`, to be deleted
or not. -/
theorem Inv.indices_run {as : List VapAct} (h : s.Inv base) (hin : ∀ i ∈ s.indices, i < oneboxVapsDefault)
    (hrun : Machine.run VapTable.step s as = some t) :
    (∀ i ∈ t.indices, i < oneboxVapsDefault) ↔ Meets VapTable.step staysUp s as := by
  symm
  refine (meets_iff_not_marked (I := fun s => s.Inv base ∧ ∀ i ∈ s.indices, i < oneboxVapsDefault)
    (M := fun s => s.Inv base ∧ ¬ ∀ i ∈ s.indices, i < oneboxVapsDefault)
    (fun hs hok hstep => ⟨hs.1.step hstep, (hs.1.indices_step hstep).mpr ⟨hs.2, hok⟩⟩)
    (fun hs hno hstep => ⟨hs.1.step hstep, fun hall => hno ((hs.1.indices_step hstep).mp hall).2⟩)
    (fun hs hstep => ⟨hs.1.step hstep, fun hall => hs.2 ((hs.1.indices_step hstep).mp hall).1⟩)
    ⟨h, hin⟩ hrun (fun hs hout => hout.2 hs.2)).trans ?_
  rw [not_and, not_not]
  exact ⟨fun hall => hall (h.run hrun), fun hall _ => hall⟩

end VapTable

/-- The table is right, and is used within its bounds, in exactly the runs in which no access point or
station goes back to `INIT` and none is deleted that is above it. -/
theorem vap_slots_ok_iff {base : MacAddr} {s t : VapTable} {as : List VapAct} (hs : VapStart base s)
    (hrun : run VapTable.step s as = some t) :
    t.SlotsOk base ∧ (∀ i ∈ t.indices, i < oneboxVapsDefault) ↔ Meets VapTable.step VapTable.staysUp s as := by
  have hinv : s.Inv base := VapTable.Inv.of_start hs
  have hslots : t.SlotsOk base := (hinv.run hrun).slotsOk
  rw [hinv.indices_run (by simp [hs.indices]) hrun]
  exact and_iff_right hslots

def vapBoot : VapTable :=
  { macAddr := 0x00235a001100#48, icOpmode := .sta, scNvaps := 0, scNstavaps := 0, scNmonvaps := 0
    icMontaps := 0, scNostabeacons := false, halVap := fun _ => ⟨false, none⟩, vaps := [], created := 0
    indices := [] }

theorem vapBoot_start : VapStart 0x00235a001100#48 vapBoot :=
  ⟨rfl, rfl, rfl, fun _ _ => rfl, rfl⟩

/-- An access point runs beside a station; another one is deleted before it was started, and its slot is
taken again. -/
def apWithSta : List VapAct :=
  [.create ⟨.hostap, false, true, freshVap⟩, .newstate 0 .run true, .create ⟨.sta, true, true, freshVap⟩,
    .newstate 1 .scan false, .newstate 1 .run false, .create ⟨.hostap, false, true, freshVap⟩, .delete 2,
    .create ⟨.hostap, false, true, freshVap⟩, .newstate 3 .run true]

theorem apWithSta_slots_ok : ∃ t, run VapTable.step vapBoot apWithSta = some t ∧
    t.SlotsOk 0x00235a001100#48 ∧ ∀ i ∈ t.indices, i < oneboxVapsDefault := by
  exact exists_run_of (by decide) fun t hrun => (vap_slots_ok_iff vapBoot_start hrun).mpr (by decide)

/-- A station scans and its interface is taken down: `hal_vap[100].vap` is written. -/
def staScansAndStops : List VapAct :=
  [.create ⟨.sta, false, true, freshVap⟩, .newstate 0 .scan false, .newstate 0 .init false]

theorem beacon_loc_past_table : VapStart 0x00235a001100#48 vapBoot ∧
    ∃ t, run VapTable.step vapBoot staScansAndStops = some t ∧ ¬ ∀ i ∈ t.indices, i < oneboxVapsDefault :=
  ⟨vapBoot_start, exists_run (by decide)⟩

end Onebox
