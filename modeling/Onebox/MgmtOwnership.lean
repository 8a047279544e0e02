import Onebox.ControlledPort
import Onebox.MgmtRx

/-! Who owns a management message after `onebox_mgmt_pkt_recv`. Every exit frees the
packet or hands it over, but for five of them: three return with nothing done and
two follow a pointer that is not there. -/

namespace Onebox

open PktCall

namespace Mgmt

variable (s : Mgmt) (e : MgmtEnv) (msg : RxMsg)

def confirmOk : Bool :=
  s.driverMode = .rfEvalModeOn || s.staVaps.isEmpty || msg.word 12 = 1 || msg.word 12 = 2

/-- The station id of a TSF confirm names a station of an access point. -/
def tsfOk : Bool :=
  (msg.byte 13).toNat ≤ maxStations &&
    ((s.staNi e (msg.byte 13).toNat).bind s.stations.node).any fun n => (s.vap n.vap).opmode = .hostap

/-- A sniffer needs a vap to receive a frame. -/
def sniffOk : Bool := msg.len ≤ msg.padBytes || s.driverMode ≠ .snifferMode || !s.vaps.isEmpty

/-- The address of a power-save notification is in the table, at the id of its node. -/
def notifyOk : Bool :=
  (s.stations.findMac (msg.mac 6)).any fun i =>
    ((s.stations.slot i).ni.bind s.stations.node).any fun n => i.val = n.staId

def recvOk : Bool :=
  s.fsm ≠ .macInitDone ||
    match msg.type with
    | .taConfirmType => msg.subType ≠ .wakeupSleepRequest || s.confirmOk msg
    | .tsfSyncConfirm => s.tsfOk e msg
    | .rxDot11Mgmt => s.sniffOk msg
    | .psNotifyInd => s.notifyOk msg
    | _ => true

section Spec

variable {s e msg}

theorem disposed_wakeupSleepConfirm : Disposed (s.wakeupSleepConfirm msg) ↔ s.confirmOk msg = true := by
  rw [wakeupSleepConfirm, confirmOk]
  by_cases hmode : s.driverMode = .rfEvalModeOn
  · simp [hmode]
  · cases hsta : s.staVaps with
    | nil => simp [hmode]
    | cons v vs =>
      by_cases hsleep : msg.word 12 = 1#16
      · simp [hmode, hsleep]
      · by_cases hwake : msg.word 12 = 2#16 <;> simp [hmode, hsleep, hwake]

theorem disposed_tsfSyncConfirm : Disposed (s.tsfSyncConfirm e msg) ↔ s.tsfOk e msg = true := by
  simp only [tsfSyncConfirm, tsfOk]
  by_cases hid : maxStations < (msg.byte 13).toNat
  · simp [hid]
  · cases hni : s.staNi e (msg.byte 13).toNat with
    | none => simp [hid]
    | some p =>
      cases hn : s.stations.node p with
      | none => simp [hid, hn]
      | some n => by_cases hap : (s.vap n.vap).opmode = .hostap <;> simp [hid, hn, hap, Nat.le_of_not_lt hid]

theorem disposed_wlanCorePktRecv (off : Nat) : Disposed (s.wlanCorePktRecv e msg off) := by
  rw [wlanCorePktRecv]
  split_ifs
  · exact disposed_freed _ _
  · cases e.findRxnode (msg.mac (off + 10)) with
    | none => exact disposed_handedOver ..
    | some p => exact disposed_handedOver ..

theorem disposed_rxDot11Mgmt : Disposed (s.rxDot11Mgmt e msg) ↔ s.sniffOk msg = true := by
  rw [rxDot11Mgmt, sniffOk]
  by_cases hlen : msg.len ≤ msg.padBytes
  · simp [hlen]
  · by_cases hmode : s.driverMode = .snifferMode
    · cases hv : s.vaps with
      | nil => simp [hlen, hmode]
      | cons v vs => simp [hlen, hmode, disposed_wlanCorePktRecv]
    · simp [hlen, hmode, disposed_wlanCorePktRecv]

theorem disposed_psNotifyInd : Disposed (s.psNotifyInd e msg) ↔ s.notifyOk msg = true := by
  rw [psNotifyInd, notifyOk]
  cases hi : s.stations.findMac (msg.mac 6) with
  | none => simp
  | some i =>
    cases hn : (s.stations.slot i).ni.bind s.stations.node with
    | none => simp [hn]
    | some n => by_cases hid : i.val = n.staId <;> simp [hn, hid]

theorem disposed_macInitDone (hfsm : s.fsm = .macInitDone) :
    Disposed (s.macInitDone e msg) ↔ s.recvOk e msg = true := by
  simp only [macInitDone, recvOk, hfsm, ne_eq, not_true_eq_false, decide_false, Bool.false_or]
  cases htype : msg.type with
  | taConfirmType =>
    by_cases hsub : msg.subType = .wakeupSleepRequest
    · simpa [hsub] using disposed_wakeupSleepConfirm
    · simp [hsub]
  | tsfSyncConfirm => exact disposed_tsfSyncConfirm
  | rxDot11Mgmt => exact disposed_rxDot11Mgmt
  | psNotifyInd => exact disposed_psNotifyInd
  | _ => simp [oneboxMgmtPktToCore]

end Spec

end Mgmt

/-- The message is disposed of exactly once if and only if it meets the condition of its type. -/
theorem mgmtPktRecv_disposed_iff (s : Mgmt) (e : MgmtEnv) (msg : RxMsg) :
    Disposed (s.oneboxMgmtPktRecv e msg) ↔ s.recvOk e msg = true := by
  rw [Mgmt.oneboxMgmtPktRecv]
  cases hfsm : s.fsm with
  | macInitDone => exact Mgmt.disposed_macInitDone hfsm
  | resetMacCfm =>
    rw [Mgmt.resetMacCfm, Mgmt.recvOk]
    split_ifs <;> simp [hfsm]
  | ampduIndSent =>
    rw [Mgmt.ampduIndSent, Mgmt.recvOk]
    split_ifs <;> simp [hfsm]
  | _ => simp [Mgmt.recvOk, hfsm]

/-- A station after the start-up, connected to nobody. -/
def idleMgmt : Mgmt :=
  { fsm := .macInitDone, driverMode := .wifiModeOn, calibMode := false, macAddr := 1, band5 := false,
    bandSupported := false, rfReset := true, bbRfProgCount := 0, bbRfValue := 0, bbRfReadValues := 0,
    rfLpbkLen := 0, burstRunning := false, ptkKey := false, gtkKey := false, eapol4Cnfrm := false,
    staDataBlock := true, blockApQueues := false, beaconEvent := false, beaconEventVapId := 0,
    vaps := [staVap], vap := fun _ => ⟨.sta, false, false, false, none, 0⟩, vapInUse := fun i => i = 0,
    stations := emptyTable }

def mgmtEnv : MgmtEnv :=
  { eepromRead := true, sendResetMac := true, loadRadioCaps := true, programBbRf := true,
    initWlanThread := true, mbufAlloc := true, findNode := fun _ => none, findRxnode := fun _ => none,
    nodes := [], associd := fun _ => 0, pastSta := none }

/-- A confirm of type 3, which is neither a sleep nor a wake-up request. -/
def strayConfirm : RxMsg := ⟨fun i => if i = 2 then 1 else if i = 15 then 5 else if i = 12 then 3 else 0⟩

/-- A notification about a station that is not in the table. -/
def strayNotify : RxMsg := ⟨fun i => if i = 2 then 5 else if i = 11 then 9 else 0⟩

theorem strayConfirm_kept :
    (idleMgmt.oneboxMgmtPktRecv mgmtEnv strayConfirm).log = [] ∧
      (idleMgmt.oneboxMgmtPktRecv mgmtEnv strayNotify).log = [] ∧
      ¬ Disposed (idleMgmt.oneboxMgmtPktRecv mgmtEnv strayConfirm) ∧
      ¬ Disposed (idleMgmt.oneboxMgmtPktRecv mgmtEnv strayNotify) := by
  refine ⟨?_, ?_, ?_, ?_⟩ <;> decide +kernel

end Onebox
