import Onebox.StationTable

/-! The bitmap, the addresses, the node pointers and the ids in the nodes agree
after every call of `core_send_station_info`, however nodes come and go. -/

namespace Onebox

/-- What the three structures and the nodes have to say about each other. -/
structure Consistent (s : Stations) : Prop where
  mac : ∀ i : Fin maxStations, s.connected i ↔ (s.slot i).mac ≠ 0
  ni : ∀ i : Fin maxStations, s.connected i ↔ (s.slot i).ni ≠ none
  distinct : ∀ i j : Fin maxStations, s.connected i → s.connected j → (s.slot i).mac = (s.slot j).mac → i = j
  node : ∀ (i : Fin maxStations) (p : NodePtr), (s.slot i).ni = some p →
    ∃ n, s.node p = some n ∧ n.mac = (s.slot i).mac ∧ n.staId = i

structure NodesOk (s : Stations) : Prop where
  nonzero : ∀ {p n}, s.node p = some n → n.mac ≠ 0
  unique : ∀ {p q n m}, s.node p = some n → s.node q = some m → n.mac = m.mac → p = q

/-- A slot is empty, or a node that has been announced holds it. -/
structure TableInv (s : Stations) (announced : NodePtr → Bool) : Prop where
  nodes : NodesOk s
  empty : ∀ i : Fin maxStations, s.connected i = false → s.slot i = ⟨0, none⟩
  held : ∀ i : Fin maxStations, s.connected i → ∃ p n, s.slot i = ⟨n.mac, some p⟩ ∧
    s.node p = some n ∧ n.staId = i ∧ announced p

theorem TableInv.consistent {s : Stations} {announced : NodePtr → Bool} (h : TableInv s announced) :
    Consistent s := by
  constructor
  · intro i
    cases hc : s.connected i with
    | false => simp [h.empty i hc]
    | true =>
      obtain ⟨p, n, hi, hp, -⟩ := h.held i hc
      simpa [hi, hc] using h.nodes.nonzero hp
  · intro i
    cases hc : s.connected i with
    | false => simp [h.empty i hc]
    | true =>
      obtain ⟨p, n, hi, -⟩ := h.held i hc
      simp [hi]
  · intro i j hi hj hmac
    obtain ⟨p, n, hpi, hp, hn, -⟩ := h.held i hi
    obtain ⟨q, m, hqj, hq, hm, -⟩ := h.held j hj
    simp only [hpi, hqj] at hmac
    obtain rfl := h.nodes.unique hp hq hmac
    obtain rfl : n = m := by simpa [hp] using hq
    exact Fin.ext (hn.symm.trans hm)
  · intro i p hi
    have hc : s.connected i := by
      by_contra hc
      simp [h.empty i (by simpa using hc)] at hi
    obtain ⟨q, n, hq, hn, hid, -⟩ := h.held i hc
    obtain rfl : q = p := by simpa [hq] using hi
    exact ⟨n, hn, by simp [hq], hid⟩

section Steps

variable {s t : Stations} {announced announced' : NodePtr → Bool} {p : NodePtr} {n : Node}

theorem TableInv.isNodeValid (h : TableInv s announced) {i : Fin maxStations} (hp : s.node p = some n)
    (hi : (s.slot i).ni = some p) : s.isNodeValid n ∧ n.staId = i := by
  have hc := (h.consistent.ni i).mpr (by simp [hi])
  obtain ⟨m, hm, hmac, hid⟩ := h.consistent.node i p hi
  obtain rfl : n = m := by simpa [hp] using hm
  exact ⟨isNodeValid_iff.mpr ⟨i, hid.symm, hmac.symm, hc⟩, hid⟩

theorem NodesOk.setStaId (h : NodesOk s) (hp : s.node p = some n) (i : Nat) :
    NodesOk (s.setNode p (some { n with staId := i })) := by
  have old : ∀ {q m}, (s.setNode p (some { n with staId := i })).node q = some m →
      ∃ m', s.node q = some m' ∧ m'.mac = m.mac := by
    intro q m hq
    by_cases hqp : q = p
    · subst hqp
      simp only [Stations.setNode, Function.update_self, Option.some.injEq] at hq
      exact ⟨n, hp, by rw [← hq]⟩
    · simp only [Stations.setNode, Function.update_of_ne hqp] at hq
      exact ⟨m, hq, rfl⟩
  constructor
  · intro q m hq
    obtain ⟨m', hq', hmac⟩ := old hq
    exact hmac ▸ h.nonzero hq'
  · intro q r m m' hq hr hmac
    obtain ⟨a, ha, hma⟩ := old hq
    obtain ⟨b, hb, hmb⟩ := old hr
    exact h.unique ha hb (hma.trans (hmac.trans hmb.symm))

theorem TableInv.connect_known (h : TableInv s announced) (hp : s.node p = some n) {i : Fin maxStations}
    (hi : s.findMac n.mac = some i) : s.slot i = ⟨n.mac, some p⟩ ∧ n.staId = i := by
  have hmac := findMac_some hi
  have hc : s.connected i := (h.consistent.mac i).mpr (hmac ▸ h.nodes.nonzero hp)
  obtain ⟨q, m, hslot, hq, hid, -⟩ := h.held i hc
  rw [hslot] at hmac
  obtain rfl := h.nodes.unique hq hp hmac
  obtain rfl : m = n := by simpa [hp] using hq.symm
  exact ⟨hslot, hid⟩

theorem TableInv.announce (h : TableInv s announced) (hle : ∀ q, announced q → announced' q) :
    TableInv s announced' := by
  refine ⟨h.nodes, h.empty, fun i hc => ?_⟩
  obtain ⟨p, n, hi, hp, hid, ha⟩ := h.held i hc
  exact ⟨p, n, hi, hp, hid, hle p ha⟩

theorem TableInv.connect (h : TableInv s announced) (hp : s.node p = some n) (ha : announced p)
    (hs : s.connect p n = some t) : TableInv t announced := by
  revert hs
  fun_cases Stations.connect s p n
  case case1 => rintro ⟨⟩
  case case2 i hi hid =>
    rintro ⟨⟩
    obtain ⟨hslot, -⟩ := h.connect_known hp hi
    have hsame : s.sta.set i ⟨(s.slot i).mac, some p⟩ = s.sta := by
      rw [hslot, ← hslot]
      simp [Stations.slot]
    rw [hsame]
    exact h
  case case3 hnone =>
    rintro hs
    obtain ⟨i, hfree, rfl⟩ := Option.map_eq_some_iff.mp hs
    have hempty := freeSlot_some hfree
    have hnodes := h.nodes.setStaId hp i
    refine ⟨⟨hnodes.nonzero, hnodes.unique⟩, fun j hj => ?_, fun j hj => ?_⟩
    · rw [connected_set rfl, Bool.or_eq_false_iff, decide_eq_false_iff_not] at hj
      rw [slot_set rfl, if_neg (fun hij => hj.2 (by rw [hij]))]
      exact h.empty j hj.1
    · rw [slot_set rfl]
      by_cases hij : i = j
      · subst hij
        refine ⟨p, { n with staId := i }, by simp, ?_, rfl, ha⟩
        exact Function.update_self ..
      · rw [connected_set rfl] at hj
        have hc : s.connected j := by simpa [Fin.val_ne_of_ne hij] using hj
        obtain ⟨q, m, hslot, hq, hid, ha⟩ := h.held j hc
        have hqp : q ≠ p := by
          rintro rfl
          obtain rfl : m = n := by simpa [hp] using hq.symm
          exact findMac_none hnone j (by rw [hslot])
        refine ⟨q, m, by simpa [hij] using hslot, ?_, hid, ha⟩
        exact (Function.update_of_ne hqp ..).trans hq

theorem TableInv.retire (h : TableInv s announced) (hp : ∀ i, (s.slot i).ni ≠ some p) :
    TableInv s (Function.update announced p false) := by
  refine ⟨h.nodes, h.empty, fun i hc => ?_⟩
  obtain ⟨q, m, hslot, hq, hid, ha⟩ := h.held i hc
  have hqp : q ≠ p := by
    rintro rfl
    exact hp i (by rw [hslot])
  exact ⟨q, m, hslot, hq, hid, by rwa [Function.update_of_ne hqp]⟩

theorem TableInv.disconnect (h : TableInv s announced) (hp : s.node p = some n)
    (hs : s.disconnect n = some t) : TableInv t (Function.update announced p false) := by
  simp only [Stations.disconnect, Option.ite_none_right_eq_some] at hs
  obtain ⟨hv, ⟨⟩⟩ := hs
  obtain ⟨i, hi, -, hc⟩ := isNodeValid_iff.mp hv
  rw [← hi]
  refine TableInv.retire ⟨⟨h.nodes.nonzero, h.nodes.unique⟩, fun j hj => ?_, fun j hj => ?_⟩ fun j => ?_
  · rw [slot_clear rfl]
    split_ifs with hij
    · rfl
    · rw [connected_clear rfl] at hj
      exact h.empty j (by simpa [Fin.val_ne_of_ne hij] using hj)
  · rw [connected_clear rfl] at hj
    simp only [Bool.and_eq_true, Bool.not_eq_true', decide_eq_false_iff_not] at hj
    rw [slot_clear rfl, if_neg (fun hij => hj.2 (by rw [hij]))]
    exact h.held j hj.1
  · rw [slot_clear rfl]
    split_ifs with hij
    · nofun
    · intro hslot
      exact hij (Fin.ext (hi.trans (h.isNodeValid hp hslot).2))

theorem TableInv.disconnect_none (h : TableInv s announced) (hp : s.node p = some n)
    (hs : s.disconnect n = none) : TableInv s (Function.update announced p false) := by
  refine h.retire fun i hslot => ?_
  simp [Stations.disconnect, (h.isNodeValid hp hslot).1] at hs

end Steps

/-- The table, and the nodes that have been announced as connected and not as disconnected since. -/
structure StaSys where
  tbl : Stations
  announced : NodePtr → Bool

def StaSys.sendStationInfo (s : StaSys) (p : NodePtr) (ev : NotifyEvent) (vapValid : Bool) : StaSys :=
  if vapValid then
    { tbl := (s.tbl.sendStationInfo p ev).getD s.tbl
      announced := Function.update s.announced p (ev = .staConnected) }
  else s

/-- Nodes come and go around the calls. A node goes only after its disconnect. -/
inductive StaStep : StaSys → StaSys → Prop
  | create {s : StaSys} (p : NodePtr) (n : Node) (hp : s.tbl.node p = none) (hmac : n.mac ≠ 0)
      (hid : n.staId = 0) (hnew : ∀ q m, s.tbl.node q = some m → m.mac ≠ n.mac) :
      StaStep s ⟨s.tbl.setNode p (some n), Function.update s.announced p false⟩
  | destroy {s : StaSys} (p : NodePtr) (hp : s.announced p = false) :
      StaStep s ⟨s.tbl.setNode p none, s.announced⟩
  | info {s : StaSys} (p : NodePtr) (ev : NotifyEvent) (vapValid : Bool) (hp : (s.tbl.node p).isSome) :
      StaStep s (s.sendStationInfo p ev vapValid)

structure StaStart (s : StaSys) : Prop where
  nodes : NodesOk s.tbl
  bitmap : s.tbl.bitmap = 0
  empty : ∀ i, s.tbl.slot i = ⟨0, none⟩

theorem StaStart.tableInv {s : StaSys} (h : StaStart s) : TableInv s.tbl s.announced := by
  refine ⟨h.nodes, fun i _ => h.empty i, fun i hc => ?_⟩
  simp [Stations.connected, h.bitmap] at hc

theorem TableInv.setNode {s : Stations} {announced : NodePtr → Bool} {p : NodePtr} {n : Option Node}
    (h : TableInv s announced) (hp : ∀ i, (s.slot i).ni ≠ some p) (hnodes : NodesOk (s.setNode p n)) :
    TableInv (s.setNode p n) announced := by
  refine ⟨hnodes, h.empty, fun i hc => ?_⟩
  obtain ⟨q, m, hslot, hq, hid, ha⟩ := h.held i hc
  have hqp : q ≠ p := by
    rintro rfl
    exact hp i (by rw [hslot])
  exact ⟨q, m, hslot, (Function.update_of_ne hqp ..).trans hq, hid, ha⟩

theorem NodesOk.create {s : Stations} {p : NodePtr} {n : Node} (h : NodesOk s) (hmac : n.mac ≠ 0)
    (hnew : ∀ q m, s.node q = some m → m.mac ≠ n.mac) : NodesOk (s.setNode p (some n)) := by
  have new : ∀ {q m}, (s.setNode p (some n)).node q = some m → q = p ∧ m = n ∨ s.node q = some m := by
    intro q m hq
    by_cases hqp : q = p
    · subst hqp
      exact .inl ⟨rfl, by simpa [Stations.setNode] using hq.symm⟩
    · exact .inr (by simpa [Stations.setNode, hqp] using hq)
  constructor
  · intro q m hq
    rcases new hq with ⟨-, rfl⟩ | hq
    · exact hmac
    · exact h.nonzero hq
  · intro q r m m' hq hr heq
    rcases new hq with ⟨rfl, rfl⟩ | hq' <;> rcases new hr with ⟨rfl, rfl⟩ | hr'
    · rfl
    · exact absurd heq.symm (hnew r m' hr')
    · exact absurd heq (hnew q m hq')
    · exact h.unique hq' hr' heq

theorem NodesOk.destroy {s : Stations} (p : NodePtr) (h : NodesOk s) : NodesOk (s.setNode p none) := by
  have old : ∀ {q m}, (s.setNode p none).node q = some m → s.node q = some m := by
    intro q m hq
    by_cases hqp : q = p
    · simp [Stations.setNode, hqp] at hq
    · simpa [Stations.setNode, hqp] using hq
  exact ⟨fun hq => h.nonzero (old hq), fun hq hr => h.unique (old hq) (old hr)⟩

theorem TableInv.sendStationInfo {s : StaSys} {p : NodePtr} {n : Node} (h : TableInv s.tbl s.announced)
    (hp : s.tbl.node p = some n) (ev : NotifyEvent) (vapValid : Bool) :
    TableInv (s.sendStationInfo p ev vapValid).tbl (s.sendStationInfo p ev vapValid).announced := by
  cases vapValid with
  | false => exact h
  | true =>
    simp only [StaSys.sendStationInfo, Stations.sendStationInfo, hp, if_true, Option.bind_some]
    cases ev with
    | staConnected =>
      have ha : TableInv s.tbl (Function.update s.announced p true) := by
        refine h.announce fun q hq => ?_
        by_cases hqp : q = p
        · simp [hqp]
        · rwa [Function.update_of_ne hqp]
      cases hs : s.tbl.connect p n with
      | none => simpa using ha
      | some t => simpa using ha.connect hp (Function.update_self ..) hs
    | staDisconnected =>
      cases hs : s.tbl.disconnect n with
      | none => simpa using h.disconnect_none hp hs
      | some t => simpa using h.disconnect hp hs

theorem StaStep.tableInv {s t : StaSys} (h : TableInv s.tbl s.announced) (hs : StaStep s t) :
    TableInv t.tbl t.announced := by
  cases hs with
  | create p n hp hmac hid hnew =>
    have hfree : ∀ i, (s.tbl.slot i).ni ≠ some p := by
      intro i hi
      obtain ⟨m, hm, -⟩ := h.consistent.node i p hi
      simp [hp] at hm
    exact (h.setNode hfree (h.nodes.create hmac hnew)).retire hfree
  | destroy p hp =>
    refine h.setNode (fun i hi => ?_) (h.nodes.destroy p)
    obtain ⟨q, m, hslot, -, -, ha⟩ := h.held i ((h.consistent.ni i).mpr (by simp [hi]))
    obtain rfl : q = p := by simpa [hslot] using hi
    simp [hp] at ha
  | info p ev vapValid hp =>
    obtain ⟨n, hn⟩ := Option.isSome_iff_exists.mp hp
    exact h.sendStationInfo hn ev vapValid

theorem station_table_consistent {s t : StaSys} (h0 : StaStart s)
    (h : Relation.ReflTransGen StaStep s t) : Consistent t.tbl := by
  have hinv : TableInv t.tbl t.announced := by
    induction h with
    | refl => exact h0.tableInv
    | tail _ hs ih => exact hs.tableInv ih
  exact hinv.consistent

theorem staStart_emptyTable : StaStart ⟨emptyTable, fun _ => false⟩ := by
  refine ⟨⟨nofun, nofun⟩, rfl, fun i => ?_⟩
  simp [Stations.slot, emptyTable]

theorem station_table_consistent_connect :
    StaStart ⟨emptyTable, fun _ => false⟩ ∧
      ∃ t, Relation.ReflTransGen StaStep ⟨emptyTable, fun _ => false⟩ t ∧
        t.tbl.connected 0 ∧ (t.tbl.slot 0).mac = 7 ∧ Consistent t.tbl := by
  have hcreate : StaStep ⟨emptyTable, fun _ => false⟩ _ :=
    .create 5 (freshNode 7 0) rfl (by decide) rfl nofun
  have hreach := (Relation.ReflTransGen.single hcreate).tail
    (.info 5 .staConnected true (by simp [Stations.setNode]))
  exact ⟨staStart_emptyTable, _, hreach, by decide, by decide, station_table_consistent staStart_emptyTable hreach⟩

end Onebox
