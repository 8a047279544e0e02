import Onebox.Encryption

/-! A packet reaches the station it was meant for: the slot that its descriptor
names still belongs to its destination, as long as packets are queued only for
stations that hold their slot and a slot with packets of another station is not
given away. -/

namespace Onebox

/-- If the slot that the packet names is in use, then by the destination of the packet. -/
def SlotOk (st : Stations) (pk : Pkt) : Prop :=
  ∀ i : Fin maxStations, (pk.data 15).toNat = i → st.connected i → (st.slot i).mac = pk.dst

structure Addressed (net : Net) (pk : Pkt) : Prop where
  desc : pk.desc ≠ none
  toOne : pk.nb.flags.broadcast = false
  slot : SlotOk net.stations pk

section Table

variable {st st' : Stations} {pk : Pkt}

theorem SlotOk.disconnect {n : Node} (h : SlotOk st pk) (hs : st.disconnect n = some st') : SlotOk st' pk := by
  simp only [Stations.disconnect, Option.ite_none_right_eq_some] at hs
  obtain ⟨hv, ⟨⟩⟩ := hs
  obtain ⟨j, hj, -, -⟩ := isNodeValid_iff.mp hv
  rw [← hj]
  intro i hi hc
  rw [connected_clear rfl] at hc
  simp only [Bool.and_eq_true, Bool.not_eq_true', decide_eq_false_iff_not] at hc
  rw [slot_clear rfl, if_neg (fun hji => hc.2 (by rw [hji]))]
  exact h i hi hc.1

theorem SlotOk.connect {p : NodePtr} {n : Node} (h : SlotOk st pk) (hs : st.connect p n = some st')
    (hfree : ∀ i, st.findMac n.mac = none → st.freeSlot = some i → (pk.data 15).toNat = i → pk.dst = n.mac) :
    SlotOk st' pk := by
  revert hs
  fun_cases Stations.connect st p n
  case case1 => rintro ⟨⟩
  case case2 j hj _ =>
    rintro ⟨⟩
    intro i hi hc
    rw [slot_set rfl]
    split_ifs with hji
    · subst hji
      exact h j hi hc
    · exact h i hi hc
  case case3 hnone =>
    intro hs
    obtain ⟨j, hj, rfl⟩ := Option.map_eq_some_iff.mp hs
    intro i hi hc
    rw [slot_set rfl]
    split_ifs with hji
    · subst hji
      exact (hfree j hnone hj hi).symm
    · rw [connected_set rfl] at hc
      exact h i hi (by simpa [Fin.val_ne_of_ne hji] using hc)

end Table

theorem NetMove.slotOk {s t : Net} {pk : Pkt} (hm : NetMove s t) (h : SlotOk s.stations pk) :
    SlotOk t.stations pk := by
  cases hm with
  | node | staModeId | inFlight | vap => exact h
  | keyLoaded v kt => rwa [keyLoaded_stations]
  | portDown => rwa [portDown_stations]
  | disconnect n st hst => exact h.disconnect hst

theorem NetMoves.slotOk {s t : Net} {pk : Pkt} (hm : NetMoves s t) (h : SlotOk s.stations pk) :
    SlotOk t.stations pk := by
  induction hm with
  | refl => exact h
  | tail _ hm ih => exact hm.slotOk ih

def TxSys.slotUnclaimed (s : TxSys) (p : NodePtr) : Bool :=
  match s.net.stations.node p with
  | none => true
  | some n =>
    match s.net.stations.findMac n.mac, s.net.stations.freeSlot with
    | none, some i => (List.finRange 8).all fun q => (s.queue q).all fun pk =>
        (pk.data 15).toNat ≠ i || pk.dst = n.mac
    | _, _ => true

/-- Packets are queued for stations that hold their slot, and slots go to stations without packets of
others in them. -/
def TxSys.settled (s : TxSys) : TxEvent → Bool
  | .xmit nb => !s.strips nb && (s.net.stations.node nb.ni).all s.net.stations.isNodeValid
  | .net (.stationInfo p .staConnected _ _) => s.slotUnclaimed p
  | .net (.newassoc p _ _) => s.slotUnclaimed p
  | _ => true

theorem SlotOk.coreSendStationInfo {s : TxSys} {p : NodePtr} {q : DataQ} {pk : Pkt}
    (h : SlotOk s.net.stations pk) (hpk : pk ∈ s.queue q) (hok : s.slotUnclaimed p) (vapValid : Bool)
    (sends : Sends) : SlotOk (s.net.coreSendStationInfo p .staConnected vapValid sends).stations pk := by
  refine (s.net.coreSendStationInfo_moves p .staConnected vapValid sends).slotOk ?_
  cases hst : s.net.stationTable p .staConnected vapValid with
  | none => exact h
  | some st =>
    simp only [Net.stationTable, Option.ite_none_right_eq_some, Stations.sendStationInfo,
      Option.bind_eq_some_iff] at hst
    obtain ⟨-, n, hn, hconn⟩ := hst
    refine h.connect hconn fun i hnone hfree hi => ?_
    simp only [TxSys.slotUnclaimed, hn, hnone, hfree, List.all_eq_true, List.mem_finRange] at hok
    simpa [hi] using hok q trivial pk hpk

theorem Addressed.event {s : TxSys} {e : NetEvent} {net : Net} {q : DataQ} {pk : Pkt}
    (h : Addressed s.net pk) (hpk : pk ∈ s.queue q) (hok : s.settled (.net e)) (hs : s.net.event e = some net) :
    Addressed net pk := by
  refine ⟨h.desc, h.toOne, ?_⟩
  rcases Net.event_moves hs with hm | ⟨p, vapValid, sends, rfl, rfl⟩ | ⟨p, vapValid, sends, rfl, rfl⟩ |
    ⟨vapValid, sends, a, rest, -, -, rfl⟩
  · exact hm.slotOk h.slot
  · exact h.slot.coreSendStationInfo hpk hok vapValid sends
  · have hconn := h.slot.coreSendStationInfo hpk hok vapValid sends
    unfold Net.oneboxNewassoc
    split
    · exact h.slot
    · simp only
      split_ifs <;> exact hconn
  · unfold Net.eapol4Success
    split
    · exact h.slot
    · rw [(Net.openPort_frame _).1]
      exact h.slot

theorem Addressed.packet {s : TxSys} {nb : Netbuf} {n : Node} (hok : s.settled (.xmit nb))
    (hn : s.net.stations.node nb.ni = some n) (q : DataQ) : Addressed s.net (s.packet n nb.toOne q) := by
  simp only [TxSys.settled, hn, Option.all_some, Bool.and_eq_true, Bool.not_eq_true'] at hok
  obtain ⟨hstrip, hvalid⟩ := hok
  have hd := s.packet_desc hstrip n q
  refine ⟨by simp [hd], rfl, fun i hi _ => ?_⟩
  obtain ⟨j, hj, hmac, -⟩ := isNodeValid_iff.mp hvalid
  have hbyte : ((s.packet n nb.toOne q).data 15).toNat = j := by
    rw [Pkt.data, hd]
    simp only
    have hid : (s.descArgs n nb.toOne q).staId = j := hj.symm
    rw [DescArgs.prepare_staId _ rfl, BitVec.toNat_ofNat, hid]
    have hlt : j.val < 30 := j.isLt
    omega
  have hij : i = j := Fin.ext (hi.symm.trans hbyte)
  subst hij
  exact hmac

/-- Every packet that is passed to the device names a slot of its destination. -/
theorem no_misdelivery {s t u : TxSys} {es : List TxEvent} {q : DataQ} {pk : Pkt} (h0 : TxStart s)
    (hok : Machine.Meets TxSys.event TxSys.settled s es) (hrun : Machine.run TxSys.event s es = some t)
    (hq : t.coreQosProcessor q = some (u, some pk)) :
    ∃ d, pk.desc = some d ∧ ∃ i : Fin maxStations, (d.byte 15).toNat = i ∧
      (t.net.stations.slot i).mac = pk.dst := by
  have hinv : QueueInv Addressed t := by
    refine Machine.run_invariant (fun {s e t} h hok hs => ?_) (QueueInv.start h0) hok hrun
    refine h.event ?_ ?_ hs
    · rintro e' net rfl hn q pk hpk hp
      exact hp.event hpk hok hn
    · rintro nb n q rfl hn -
      exact .packet hok hn q
  obtain ⟨-, -, hmem⟩ := TxSys.coreQosProcessor_spec hq
  obtain ⟨hpk, hdel⟩ := hmem pk rfl
  obtain ⟨hdesc, hone, hslot⟩ := hinv q pk hpk
  obtain ⟨d, hd⟩ := Option.ne_none_iff_exists'.mp hdesc
  have hdata : pk.data 15 = d.byte 15 := by simp [Pkt.data, hd]
  simp only [TxSys.deliverable, hone, hdata, Bool.false_and, Bool.false_or, Bool.and_eq_true,
    decide_eq_true_eq] at hdel
  obtain ⟨hlt, hconn⟩ := hdel
  exact ⟨d, hd, ⟨_, hlt⟩, rfl, hslot ⟨_, hlt⟩ (by rw [hdata]) hconn⟩

section Traces

def twoStations : List TxEvent :=
  [.net (.create 8 (freshNode 8 apVap)), .net (.create 9 (freshNode 9 apVap)),
    .net (.stationInfo 8 .staConnected true .all), .net (.keySet apVap 8 pairwiseKey true)]

def inSlotXmit : List TxEvent := twoStations ++ [.xmit (ipTo 8)]

def slotReused : List TxEvent :=
  inSlotXmit ++ [.net (.stationInfo 8 .staDisconnected true .all), .net (.stationInfo 9 .staConnected true .all)]

end Traces

theorem no_misdelivery_inSlot :
    TxStart freshTx ∧ Machine.Meets TxSys.event TxSys.settled freshTx inSlotXmit ∧
      ∃ t u pk, Machine.run TxSys.event freshTx inSlotXmit = some t ∧ t.coreQosProcessor 5 = some (u, some pk) ∧
        ∃ d, pk.desc = some d ∧ ∃ i : Fin maxStations, (d.byte 15).toNat = i ∧
          (t.net.stations.slot i).mac = pk.dst := by
  have hok : Machine.Meets TxSys.event TxSys.settled freshTx inSlotXmit := by decide
  have hsent : (Machine.run TxSys.event freshTx inSlotXmit).any fun t => (t.coreQosProcessor 5).any fun r =>
      r.2.isSome := by decide
  simp only [Option.any_eq_true, Option.isSome_iff_exists] at hsent
  obtain ⟨t, hrun, ⟨u, o⟩, hq, pk, rfl⟩ := hsent
  exact ⟨txStart_freshTx, hok, t, u, pk, hrun, hq, no_misdelivery txStart_freshTx hok hrun hq⟩

/-- The packet of the first station goes to the second, which has its slot now. -/
theorem misdelivery_slotReused :
    TxStart freshTx ∧ ∃ t u pk d, Machine.run TxSys.event freshTx slotReused = some t ∧
      t.coreQosProcessor 5 = some (u, some pk) ∧ pk.desc = some d ∧
      ∀ i : Fin maxStations, (d.byte 15).toNat = i → (t.net.stations.slot i).mac ≠ pk.dst := by
  have hsent : (Machine.run TxSys.event freshTx slotReused).any fun t => (t.coreQosProcessor 5).any fun r =>
      r.2.any fun pk => pk.desc.any fun d => decide (∀ i : Fin maxStations, (d.byte 15).toNat = i.val →
        (t.net.stations.slot i).mac ≠ pk.dst) := by decide
  simp only [Option.any_eq_true, decide_eq_true_eq] at hsent
  obtain ⟨t, hrun, ⟨u, o⟩, hq, pk, rfl, d, hd, hmac⟩ := hsent
  exact ⟨txStart_freshTx, t, u, pk, d, hrun, hq, hd, hmac⟩

end Onebox
