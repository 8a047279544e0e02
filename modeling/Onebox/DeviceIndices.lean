import Onebox.CoexOwnership
import Onebox.MgmtOwnership
import Onebox.StationRuns

/-! Indices and addresses from the device: the places in `sta`, `hal_vap` and `hci_events` that a
received message makes the drivers read, and the node behind the slot that it leads to. -/

namespace Onebox

open PktCall

/-- An access to `sta` or `hal_vap` is inside the table. -/
def MgmtEffect.inRange : MgmtEffect → Bool
  | .staAt i => i < maxStations
  | .halVapAt i => i < 4
  | _ => true

def CoexEffect.inRange : CoexEffect → Bool
  | .hciEventAt i => i < 78
  | _ => true

/-- The first slot with this address, if there is one, has a node. -/
def Stations.MacHasNode (t : Stations) (mac : MacAddr) : Prop :=
  ∀ i, t.findMac mac = some i → (t.slot i).ni ≠ none

/-- In a consistent table only the zero address leads to a slot without a node, and only while some slot is
empty. -/
theorem Consistent.macHasNode_iff {t : Stations} (h : Consistent t) (mac : MacAddr) :
    t.MacHasNode mac ↔ (mac = 0 → ∀ i : Fin maxStations, t.connected i = true) := by
  constructor
  · intro hnode hzero i
    by_contra hfree
    have hmac : (t.slot i).mac = 0 := by
      by_contra hne
      exact hfree ((h.mac i).mpr hne)
    cases hfind : t.findMac mac with
    | none => exact findMac_none hfind i (hmac.trans hzero.symm)
    | some j =>
      have hj : (t.slot j).mac ≠ 0 := (h.mac j).mp ((h.ni j).mpr (hnode j hfind))
      exact hj ((findMac_some hfind).trans hzero)
  · intro hfull i hfind
    have hmac := findMac_some hfind
    apply (h.ni i).mp
    by_cases hzero : mac = 0
    · exact hfull hzero i
    · exact (h.mac i).mpr (by rwa [hmac])

namespace Mgmt

variable (s : Mgmt) (e : MgmtEnv) (msg : RxMsg)

/-- The pointer to a node that the message makes the driver take from `sta`. -/
def niRead : Option (Option NodePtr) :=
  match msg.type with
  | .tsfSyncConfirm => if maxStations < (msg.byte 13).toNat then none else some (s.staNi e (msg.byte 13).toNat)
  | .psNotifyInd => (s.stations.findMac (msg.mac 6)).map fun i => (s.stations.slot i).ni
  | _ => none

/-- All accesses to the tables are in range, and a null pointer found there is not followed: the handler
returns. -/
structure ReadsSafe : Prop where
  tables : EffectsMeet MgmtEffect.inRange (s.oneboxMgmtPktRecv e msg)
  node : s.fsm = .macInitDone → s.niRead e msg = some none → (s.oneboxMgmtPktRecv e msg).result.isSome

/-- What a message may say about the tables. -/
structure IndicesOk : Prop where
  staId : msg.type = .tsfSyncConfirm → msg.byte 13 ≠ 30
  vapId : msg.type = .beaconEventInd → (msg.byte 15).toNat < 4
  mac : msg.type = .psNotifyInd → s.stations.MacHasNode (msg.mac 6)

section Effects

variable {s e msg}

theorem inRange_map {α : Type} {f : α → MgmtEffect} (hf : ∀ x, (f x).inRange = true) (xs : List α) :
    ∀ a ∈ xs.map f, a.inRange = true :=
  List.forall_mem_map.mpr fun x _ => hf x

theorem inRange_pwrsaveNotify : ∀ a ∈ (s.pwrsaveNotify e msg).2, a.inRange = true := by
  have hvap : ((msg.word 12 &&& 0xc) >>> 2).toNat < 4 := by
    have hle : (msg.word 12 &&& 0xc).toNat ≤ 0xc := Nat.and_le_right
    rw [BitVec.toNat_ushiftRight, Nat.shiftRight_eq_div_pow]
    omega
  have hread : (MgmtEffect.halVapAt ((msg.word 12 &&& 0xc) >>> 2).toNat).inRange = true := decide_eq_true hvap
  rw [pwrsaveNotify]
  split
  · simpa using hread
  · split
    · simpa using hread
    · split
      · simpa using hread
      · split_ifs
        · simpa using hread
        · simpa [MgmtEffect.inRange] using hread
        · simpa [MgmtEffect.inRange] using hread
        · simpa using hread

theorem effectsMeet_psNotifyInd : EffectsMeet MgmtEffect.inRange (s.psNotifyInd e msg) := by
  rw [psNotifyInd]
  cases s.stations.findMac (msg.mac 6) with
  | none => simp
  | some i =>
    dsimp only
    cases (s.stations.slot i).ni.bind s.stations.node with
    | none => simp
    | some n =>
      dsimp only
      split_ifs
      · simp
      · exact effectsMeet_freed.mpr inRange_pwrsaveNotify

theorem effectsMeet_tsfSyncConfirm :
    EffectsMeet MgmtEffect.inRange (s.tsfSyncConfirm e msg) ↔ msg.byte 13 ≠ 30 := by
  have hid : msg.byte 13 ≠ 30 ↔ (msg.byte 13).toNat ≠ 30 := by
    rw [Ne, ← BitVec.toNat_inj]
    rfl
  rw [hid, tsfSyncConfirm]
  by_cases hmax : maxStations < (msg.byte 13).toNat
  · have hne : (msg.byte 13).toNat ≠ 30 := Nat.ne_of_gt hmax
    simp [hmax, hne]
  · have hlt : (msg.byte 13).toNat < maxStations ↔ (msg.byte 13).toNat ≠ 30 := by
      rw [maxStations] at hmax ⊢
      omega
    rw [if_neg hmax, ← hlt]
    cases hni : s.staNi e (msg.byte 13).toNat with
    | none => simp [MgmtEffect.inRange]
    | some p =>
      dsimp only
      cases hn : s.stations.node p with
      | none => simp [MgmtEffect.inRange]
      | some n => by_cases hap : (s.vap n.vap).opmode = .hostap <;> simp [hap, MgmtEffect.inRange]

theorem inRange_beaconEventInd :
    (∀ a ∈ (s.beaconEventInd msg).2, a.inRange = true) ↔ (msg.byte 15).toNat < 4 := by
  have hread : (MgmtEffect.halVapAt (msg.byte 15).toNat).inRange = true ↔ (msg.byte 15).toNat < 4 :=
    decide_eq_true_iff
  rw [beaconEventInd, ← hread]
  by_cases huse : s.vapInUse (msg.byte 15).toNat = true
  · rw [if_neg (by simp [huse]), List.forall_mem_cons]
    exact and_iff_left (inRange_map (fun _ => rfl) _)
  · rw [if_pos (by simp [huse]), List.forall_mem_singleton]

theorem inRange_taConfirm (c : CmdFrame) : ∀ a ∈ (s.taConfirm msg c).2, a.inRange = true := by
  cases c with
  | bgScanProbeReq => exact inRange_map (fun _ => rfl) _
  | scanRequest => exact inRange_map (fun _ => rfl) _
  | _ =>
    simp only [taConfirm, readValues, loopback]
    try split_ifs
    all_goals simp [MgmtEffect.inRange]

theorem inRange_keepAlive : ∀ a ∈ (s.keepAlive e msg).2, a.inRange = true := by
  rw [keepAlive]
  split_ifs
  · intro a ha
    obtain ⟨v, -, hv⟩ := List.mem_flatMap.mp ha
    exact inRange_map (fun _ => rfl) _ a hv
  · simp

theorem inRange_eapol4Ok : ∀ a ∈ s.eapol4Ok.2, a.inRange = true := by
  rw [eapol4Ok]
  cases s.staVaps.head? with
  | none => simp
  | some v =>
    dsimp only
    split_ifs <;> simp [MgmtEffect.inRange]

theorem inRange_txStatusInd (t : TxStatus) : ∀ a ∈ (s.txStatusInd e msg t).2, a.inRange = true := by
  cases t with
  | nulldataConfirm => exact inRange_keepAlive
  | eapol4Confirm =>
    rw [txStatusInd]
    split_ifs
    · exact inRange_eapol4Ok
    · exact inRange_map (fun _ => rfl) _
  | probereqConfirm => exact inRange_map (fun _ => rfl) _
  | other => simp [txStatusInd]

theorem effectsMeet_wlanCorePktRecv (off : Nat) :
    EffectsMeet MgmtEffect.inRange (s.wlanCorePktRecv e msg off) := by
  rw [wlanCorePktRecv]
  split_ifs
  · simp [MgmtEffect.inRange]
  · cases e.findRxnode (msg.mac (off + 10)) <;> simp [MgmtEffect.inRange]

theorem effectsMeet_rxDot11Mgmt : EffectsMeet MgmtEffect.inRange (s.rxDot11Mgmt e msg) := by
  rw [rxDot11Mgmt]
  split_ifs
  · simp
  · cases s.vaps.head? with
    | none => simp
    | some v => exact effectsMeet_wlanCorePktRecv _
  · exact effectsMeet_wlanCorePktRecv _

theorem effectsMeet_wakeupSleepConfirm : EffectsMeet MgmtEffect.inRange (s.wakeupSleepConfirm msg) := by
  rw [wakeupSleepConfirm]
  cases s.staVaps.head? with
  | none => split_ifs <;> simp
  | some v => split_ifs <;> simp [MgmtEffect.inRange]

theorem inRange_coreMichaelFailure : ∀ a ∈ (s.coreMichaelFailure e msg).2, a.inRange = true := by
  rw [coreMichaelFailure]
  cases e.findRxnode (msg.mac 6) with
  | none => simp
  | some p =>
    dsimp only
    split_ifs <;> simp [MgmtEffect.inRange]

theorem effectsMeet_macInitDone :
    EffectsMeet MgmtEffect.inRange (s.macInitDone e msg) ↔
      (msg.type = .tsfSyncConfirm → msg.byte 13 ≠ 30) ∧
        (msg.type = .beaconEventInd → (msg.byte 15).toNat < 4) := by
  rw [macInitDone]
  cases htype : msg.type with
  | taConfirmType =>
    dsimp only
    split_ifs
    · simp [effectsMeet_wakeupSleepConfirm]
    · simpa using inRange_taConfirm _
  | tsfSyncConfirm => simpa using effectsMeet_tsfSyncConfirm
  | beaconEventInd => simpa [oneboxMgmtPktToCore] using inRange_beaconEventInd
  | txStatusInd => simpa using inRange_txStatusInd _
  | rxDot11Mgmt => simp [oneboxMgmtPktToCore, effectsMeet_rxDot11Mgmt]
  | psNotifyInd => simp [oneboxMgmtPktToCore, effectsMeet_psNotifyInd]
  | decryptErrorInd => simpa [oneboxMgmtPktToCore] using inRange_coreMichaelFailure
  | _ => simp [oneboxMgmtPktToCore, MgmtEffect.inRange]

/-- Before the start-up is over no message leads to a table. -/
theorem effectsMeet_oneboxMgmtPktRecv :
    EffectsMeet MgmtEffect.inRange (s.oneboxMgmtPktRecv e msg) ↔
      (s.fsm = .macInitDone → EffectsMeet MgmtEffect.inRange (s.macInitDone e msg)) := by
  rw [oneboxMgmtPktRecv]
  cases hfsm : s.fsm with
  | macInitDone => simp
  | loadBootupParams =>
    simp only [bootupParams]
    split_ifs <;> simp [MgmtEffect.inRange]
  | eepromReadMacAddr =>
    simp only [readMacAddr, oneboxEepromReadBand]
    split_ifs <;> simp [MgmtEffect.inRange]
  | eepromReadRfType =>
    simp only [readRfType, resetMac]
    split_ifs <;> simp [MgmtEffect.inRange]
  | resetMacCfm =>
    simp only [resetMacCfm]
    split_ifs <;> simp [MgmtEffect.inRange]
  | bbRfStart =>
    simp only [bbRfStart]
    split_ifs <;> simp
  | ampduIndSent =>
    simp only [ampduIndSent]
    split_ifs <;> simp [MgmtEffect.inRange]
  | scanCfm =>
    simp only [scanCfm]
    split_ifs <;> simp [MgmtEffect.inRange]
  | _ => simp

end Effects

section Nodes

variable {s e msg}

theorem tsfSyncConfirm_null (h : msg.type = .tsfSyncConfirm) (hnull : s.niRead e msg = some none) :
    (s.tsfSyncConfirm e msg).result.isSome := by
  rw [niRead, h] at hnull
  dsimp only at hnull
  rw [tsfSyncConfirm]
  by_cases hmax : maxStations < (msg.byte 13).toNat
  · rw [if_pos hmax]
    rfl
  · rw [if_neg hmax] at hnull ⊢
    rw [Option.some.inj hnull]
    rfl

/-- The handler follows the pointer in the slot without a look at it. -/
theorem psNotifyInd_null {i : Fin maxStations} (hfind : s.stations.findMac (msg.mac 6) = some i)
    (hnull : (s.stations.slot i).ni = none) : (s.psNotifyInd e msg).result = none := by
  rw [psNotifyInd, hfind]
  dsimp only
  rw [hnull]
  rfl

theorem macInitDone_null :
    (s.niRead e msg = some none → (s.macInitDone e msg).result.isSome) ↔
      (msg.type = .psNotifyInd → s.stations.MacHasNode (msg.mac 6)) := by
  by_cases htsf : msg.type = .tsfSyncConfirm
  · have hrecv : s.macInitDone e msg = s.tsfSyncConfirm e msg := by
      rw [macInitDone, htsf]
    rw [hrecv]
    simpa [htsf] using tsfSyncConfirm_null htsf
  by_cases hps : msg.type = .psNotifyInd
  · have hrecv : s.macInitDone e msg = s.psNotifyInd e msg := by
      rw [macInitDone, hps]
      rfl
    rw [hrecv, niRead, hps]
    constructor
    · intro h _ i hfind hnull
      have hsome := h (by simp [hfind, hnull])
      rw [psNotifyInd_null hfind hnull] at hsome
      cases hsome
    · intro h hread
      obtain ⟨i, hfind, hnull⟩ := Option.map_eq_some_iff.mp hread
      exact absurd hnull (h rfl i hfind)
  · have hread : s.niRead e msg = none := by
      rw [niRead]
      split <;> simp_all
    simp [hread, hps]

end Nodes

theorem readsSafe_iff : s.ReadsSafe e msg ↔ (s.fsm = .macInitDone → s.IndicesOk msg) := by
  have hrecv : s.fsm = .macInitDone → s.oneboxMgmtPktRecv e msg = s.macInitDone e msg := by
    intro hfsm
    rw [oneboxMgmtPktRecv, hfsm]
  constructor
  · intro h hfsm
    obtain ⟨hsta, hvap⟩ := effectsMeet_macInitDone.mp (effectsMeet_oneboxMgmtPktRecv.mp h.tables hfsm)
    have hnode := h.node hfsm
    rw [hrecv hfsm] at hnode
    exact ⟨hsta, hvap, macInitDone_null.mp hnode⟩
  · intro h
    constructor
    · apply effectsMeet_oneboxMgmtPktRecv.mpr
      intro hfsm
      exact effectsMeet_macInitDone.mpr ⟨(h hfsm).staId, (h hfsm).vapId⟩
    · intro hfsm
      rw [hrecv hfsm]
      exact macInitDone_null.mpr (h hfsm).mac

end Mgmt

theorem effectsMeet_btReadPkt (s : Coex) (e : CoexEnv) (msg : RxMsg) :
    EffectsMeet CoexEffect.inRange (s.btReadPkt e msg) ↔
      (msg.queueno = 7 → msg.len ≠ 0 → msg.byte 14 = 4 → (msg.byte 16).toNat < 78) := by
  rw [Coex.btReadPkt]
  split
  next hq =>
    by_cases hlen : msg.len = 0
    · simp [hlen]
    · by_cases hev : msg.byte 14 = 4
      · simp [hq, hlen, hev, Coex.printHciEventType, Coex.toBluez, CoexEffect.inRange]
      · have hnone : (Coex.printHciEventType msg).1 = [] := by
          rw [Coex.printHciEventType, if_neg hev]
        refine iff_of_true ?_ (fun _ _ h => absurd h hev)
        cases hdebug : (Coex.printHciEventType msg).2 <;>
          simp [hlen, hnone, hdebug, Coex.toBluez, CoexEffect.inRange]
  next hq =>
    rw [Coex.oneboxBtMgmtPktRecv, Coex.oneboxMgmtPktToCore]
    split_ifs <;> simp [hq, Coex.toBluez, CoexEffect.inRange]
  next hdata _ => exact iff_of_true (by simp) (fun h => absurd h hdata)

/-- What a management message and a Bluetooth packet may hold for every access to be safe. In the tables that
the driver builds, the address in question is the zero address. -/
theorem deviceReads_safe_iff (s : Mgmt) (e : MgmtEnv) (msg : RxMsg) (c : Coex) (ce : CoexEnv) (pkt : RxMsg) :
    (s.ReadsSafe e msg ↔ (s.fsm = .macInitDone → s.IndicesOk msg)) ∧
      (Consistent s.stations → (s.stations.MacHasNode (msg.mac 6) ↔
        (msg.mac 6 = 0 → ∀ i : Fin maxStations, s.stations.connected i = true))) ∧
      (EffectsMeet CoexEffect.inRange (c.btReadPkt ce pkt) ↔
        (pkt.queueno = 7 → pkt.len ≠ 0 → pkt.byte 14 = 4 → (pkt.byte 16).toNat < 78)) :=
  ⟨s.readsSafe_iff e msg, fun h => h.macHasNode_iff (msg.mac 6), effectsMeet_btReadPkt c ce pkt⟩

def tsfConfirm30 : RxMsg := ⟨fun i => if i = 2 then 0xc0 else if i = 13 then 30 else 0⟩

def beaconEvent4 : RxMsg := ⟨fun i => if i = 2 then 8 else if i = 15 then 4 else 0⟩

def zeroNotify : RxMsg := ⟨fun i => if i = 2 then 5 else 0⟩

/-- A vendor-specific HCI event, of code 255. -/
def vendorEvent : RxMsg :=
  ⟨fun i => if i = 0 then 3 else if i = 1 then 0x70 else if i = 14 then 4 else if i = 16 then 0xff else 0⟩

theorem deviceReads_outside :
    (idleMgmt.oneboxMgmtPktRecv mgmtEnv tsfConfirm30).log = [.effect (.staAt 30)] ∧
      .effect (.halVapAt 4) ∈ (idleMgmt.oneboxMgmtPktRecv mgmtEnv beaconEvent4).log ∧
      (idleMgmt.niRead mgmtEnv zeroNotify = some none ∧
        (idleMgmt.oneboxMgmtPktRecv mgmtEnv zeroNotify).result = none) ∧
      .effect (.hciEventAt 255) ∈ (readyCoex.btReadPkt coexEnv vendorEvent).log ∧
      ¬ idleMgmt.ReadsSafe mgmtEnv tsfConfirm30 ∧ ¬ idleMgmt.ReadsSafe mgmtEnv beaconEvent4 ∧
      ¬ idleMgmt.ReadsSafe mgmtEnv zeroNotify ∧
      ¬ EffectsMeet CoexEffect.inRange (readyCoex.btReadPkt coexEnv vendorEvent) := by
  have hnull : idleMgmt.niRead mgmtEnv zeroNotify = some none := by decide
  have hfault : (idleMgmt.oneboxMgmtPktRecv mgmtEnv zeroNotify).result = none := by decide
  refine ⟨by decide, by decide, ⟨hnull, hfault⟩, by decide, fun h => ?_, fun h => ?_, fun h => ?_, fun h => ?_⟩
  · exact absurd (h.tables (.staAt 30) (by decide)) (by decide)
  · exact absurd (h.tables (.halVapAt 4) (by decide)) (by decide)
  · have hsome := h.node rfl hnull
    rw [hfault] at hsome
    cases hsome
  · exact absurd (h (.hciEventAt 255) (by decide)) (by decide)

end Onebox
