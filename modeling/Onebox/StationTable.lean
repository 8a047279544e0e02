import Mathlib

/-! The table of connected stations: the bitmap, the MAC addresses and the node
pointers that `core_send_station_info` keeps side by side, and the station id
that it stores in the node. -/

namespace Onebox

abbrev MacAddr := BitVec 48

abbrev NodePtr := Nat

abbrev VapId := Fin 4

abbrev maxStations : Nat := 30

/-- `struct ieee80211_node`, with the capabilities that a data descriptor depends on. -/
structure Node where
  mac : MacAddr
  staId : Nat
  vap : VapId
  encryptEnbl : Bool
  addqos : Bool
  shortgi20 : Bool
  chwidth40 : Bool
  deriving DecidableEq, Repr

/-- `sta_cbl_t`. Its `sta_id` is never written. -/
structure StaCbl where
  mac : MacAddr
  ni : Option NodePtr
  deriving DecidableEq, Repr

inductive NotifyEvent
  | staConnected | staDisconnected
  deriving DecidableEq, Repr

/-- The four words of `sta_connected_bitmap` are one vector of 128 bits. -/
structure Stations where
  sta : Vector StaCbl maxStations
  bitmap : BitVec 128
  node : NodePtr → Option Node

namespace Stations

variable (s : Stations)

def connected (i : Nat) : Bool := s.bitmap.getLsbD i

def slot (i : Fin maxStations) : StaCbl := s.sta[i]

def setNode (p : NodePtr) (n : Option Node) : Stations := { s with node := Function.update s.node p n }

def isNodeValid (n : Node) : Bool := s.sta[n.staId]?.map StaCbl.mac = some n.mac && s.connected n.staId

def findMac (mac : MacAddr) : Option (Fin maxStations) :=
  (List.finRange maxStations).find? fun i => (s.slot i).mac = mac

def freeSlot : Option (Fin maxStations) := (List.finRange maxStations).find? fun i => !s.connected i

def connect (p : NodePtr) (n : Node) : Option Stations :=
  match s.findMac n.mac with
  | some i =>
    -- without a result the function returns before the peer notify frame
    if i.val ≠ n.staId then none
    else some { s with sta := s.sta.set i ⟨(s.slot i).mac, some p⟩ }
  | none =>
    s.freeSlot.map fun i : Fin maxStations =>
      { s.setNode p (some { n with staId := i }) with
        sta := s.sta.set i ⟨n.mac, some p⟩
        bitmap := s.bitmap ||| (1#128 <<< i.val) }

def disconnect (n : Node) : Option Stations :=
  if s.isNodeValid n then
    some { s with
      sta := s.sta.setIfInBounds n.staId ⟨0, none⟩
      bitmap := s.bitmap &&& ~~~(1#128 <<< n.staId) }
  else none

def sendStationInfo (p : NodePtr) (ev : NotifyEvent) : Option Stations :=
  (s.node p).bind fun n =>
    match ev with
    | .staConnected => s.connect p n
    | .staDisconnected => s.disconnect n

end Stations

theorem connected_set {s t : Stations} {i : Fin maxStations} (h : t.bitmap = s.bitmap ||| (1#128 <<< i.val))
    (j : Nat) : t.connected j = (s.connected j || decide (i.val = j)) := by
  have hi : i.val < 30 := i.isLt
  simp only [Stations.connected, h, BitVec.getLsbD_or, BitVec.getLsbD_shiftLeft, BitVec.getLsbD_one]
  grind

theorem connected_clear {s t : Stations} {i : Nat} (h : t.bitmap = s.bitmap &&& ~~~(1#128 <<< i))
    (j : Nat) : t.connected j = (s.connected j && !decide (i = j)) := by
  simp only [Stations.connected, h, BitVec.getLsbD_and, BitVec.getLsbD_not, BitVec.getLsbD_shiftLeft,
    BitVec.getLsbD_one]
  by_cases hj : j < 128
  · grind
  · simp [BitVec.getLsbD_of_ge s.bitmap j (by omega)]

theorem slot_set {s t : Stations} {i : Fin maxStations} {c : StaCbl} (h : t.sta = s.sta.set i c)
    (j : Fin maxStations) : t.slot j = if i = j then c else s.slot j := by
  simp [Stations.slot, h, Vector.getElem_set, Fin.ext_iff]

theorem slot_clear {s t : Stations} {i : Fin maxStations} {c : StaCbl} (h : t.sta = s.sta.setIfInBounds i.val c)
    (j : Fin maxStations) : t.slot j = if i = j then c else s.slot j := by
  simp [Stations.slot, h, Vector.getElem_setIfInBounds, Fin.ext_iff]

theorem findMac_some {s : Stations} {mac : MacAddr} {i : Fin maxStations} (h : s.findMac mac = some i) :
    (s.slot i).mac = mac := by
  simpa using List.find?_some h

theorem findMac_none {s : Stations} {mac : MacAddr} (h : s.findMac mac = none) (i : Fin maxStations) :
    (s.slot i).mac ≠ mac := by
  simpa using List.find?_eq_none.mp h i (List.mem_finRange i)

theorem freeSlot_some {s : Stations} {i : Fin maxStations} (h : s.freeSlot = some i) :
    s.connected i = false := by
  simpa using List.find?_some h

theorem isNodeValid_iff {s : Stations} {n : Node} :
    s.isNodeValid n ↔ ∃ i : Fin maxStations, i.val = n.staId ∧ (s.slot i).mac = n.mac ∧ s.connected i := by
  simp only [Stations.isNodeValid, Bool.and_eq_true, decide_eq_true_eq, Option.map_eq_some_iff,
    Vector.getElem?_eq_some_iff]
  constructor
  · rintro ⟨⟨c, ⟨hi, rfl⟩, hmac⟩, hc⟩
    exact ⟨⟨n.staId, hi⟩, rfl, hmac, hc⟩
  · rintro ⟨i, hi, hmac, hc⟩
    refine ⟨⟨s.slot i, ⟨hi ▸ i.isLt, ?_⟩, hmac⟩, hi ▸ hc⟩
    simp [← hi, Stations.slot]

theorem connect_node {s t : Stations} {p : NodePtr} {n : Node} (hp : s.node p = some n)
    (hs : s.connect p n = some t) : ∃ i, t.node p = some { n with staId := i } := by
  revert hs
  fun_cases Stations.connect s p n
  case case1 => nofun
  case case2 =>
    rintro ⟨⟩
    exact ⟨n.staId, hp⟩
  case case3 =>
    intro hs
    obtain ⟨i, -, rfl⟩ := Option.map_eq_some_iff.mp hs
    exact ⟨i, Function.update_self ..⟩

def freshNode (mac : MacAddr) (vap : VapId) : Node :=
  { mac, staId := 0, vap, encryptEnbl := false, addqos := true, shortgi20 := false, chwidth40 := false }

def emptyTable : Stations := ⟨Vector.replicate maxStations ⟨0, none⟩, 0, fun _ => none⟩

end Onebox
