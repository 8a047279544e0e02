import Onebox.Machine
import Onebox.MgmtOwnership

/-! The order in which the WLAN part of the device comes up. The state machine of
`onebox_mgmt_pkt_recv` waits for one confirm after the other, but not every state
looks at what it is given. -/

namespace Onebox

open Machine PktCall

section Order

variable {α : Type} [DecidableEq α]

/-- What is left of a list of expected events after one event. -/
def heard : List α → α → List α
  | [], _ => []
  | x :: xs, y => if x = y then xs else x :: xs

def outstanding (expected events : List α) : List α := events.foldl heard expected

theorem outstanding_append (expected events : List α) (y : α) :
    outstanding expected (events ++ [y]) = heard (outstanding expected events) y := by
  simp [outstanding]

theorem outstanding_nil (events : List α) : outstanding [] events = [] := by
  induction events with
  | nil => rfl
  | cons y ys ih => exact ih

/-- Nothing is left just when the expected events came in their order. -/
theorem outstanding_eq_nil_iff {expected events : List α} :
    outstanding expected events = [] ↔ expected.Sublist events := by
  induction events generalizing expected with
  | nil => simp [outstanding]
  | cons y ys ih =>
    cases expected with
    | nil => simp [outstanding_nil]
    | cons x xs =>
      show outstanding (heard (x :: xs) y) ys = [] ↔ _
      rw [heard]
      by_cases hxy : x = y
      · rw [if_pos hxy, ih, hxy, List.cons_sublist_cons]
      · rw [if_neg hxy, ih]
        constructor
        · exact fun h => h.cons y
        · intro h
          cases h with
          | cons _ h => exact h
          | cons_cons _ h => exact absurd rfl hxy

end Order

/-- A message and what the functions called for it give back. -/
structure MgmtArrival where
  env : MgmtEnv
  msg : RxMsg

def MgmtEnv.sendsOk (e : MgmtEnv) : Bool :=
  e.eepromRead && e.sendResetMac && e.loadRadioCaps && e.programBbRf

/-- The driver with its history: the confirms received, the effects of its handlers, and whether
`RESET_MAC_REQ` has been confirmed in the state that waits for it. -/
structure WlanInit where
  mgmt : Mgmt
  confirmed : List CmdFrame
  effects : List MgmtEffect
  resetConfirmed : Bool

def RxMsg.confirmed (msg : RxMsg) : List CmdFrame :=
  if msg.type = .taConfirmType then [msg.subType] else []

/-- A message confirms one command at most. -/
theorem RxMsg.confirms_of_ne {msg : RxMsg} {c d : CmdFrame} (hc : msg.confirms c = true) (hne : d ≠ c) :
    msg.confirms d = false := by
  simp only [confirms, Bool.and_eq_true, decide_eq_true_eq] at hc
  rw [confirms, hc.2, decide_eq_false (Ne.symm hne), Bool.and_false]

namespace WlanInit

def attaches (s : WlanInit) : Nat := s.effects.count .net80211Attach

def step (s : WlanInit) (a : MgmtArrival) : Option WlanInit :=
  if a.env.sendsOk then
    let x := s.mgmt.oneboxMgmtPktRecv a.env a.msg
    x.result.map fun r =>
      { mgmt := r.1
        confirmed := s.confirmed ++ a.msg.confirmed
        effects := s.effects ++ effectsOf x.log
        resetConfirmed := s.resetConfirmed ||
          (s.mgmt.fsm = .resetMacCfm && a.msg.confirms .resetMacReq) }
  else none

end WlanInit

def bringUpOrder : List CmdFrame :=
  [.bootupParamsRequest, .eepromReadType, .eepromReadType, .resetMacReq, .radioCapabilities]

/-- The confirms of the start-up have come in their order, and net80211 is attached once. -/
def WlanInit.Ordered (s : WlanInit) : Prop := bringUpOrder.Sublist s.confirmed ∧ s.attaches = 1

instance (s : WlanInit) : Decidable s.Ordered := inferInstanceAs (Decidable (_ ∧ _))

def wlanStart (m : Mgmt) : WlanInit := { mgmt := m, confirmed := [], effects := [], resetConfirmed := false }

/-- The RF type is what arrives while it is awaited, and the radio capabilities are not
confirmed before the reset. -/
def awaited (s : WlanInit) (a : MgmtArrival) : Bool :=
  match s.mgmt.fsm with
  | .eepromReadRfType => a.msg.confirms .eepromReadType
  | .resetMacCfm => !a.msg.confirms .radioCapabilities || s.resetConfirmed
  | _ => true

namespace Mgmt

section Keeps

variable {s : Mgmt} {e : MgmtEnv} {msg : RxMsg} {r : Handled} {ok : Bool}

/-- The state of the start-up is left alone. -/
structure Untouched (s : Mgmt) (r : Handled) : Prop where
  fsm : r.1.fsm = s.fsm
  driverMode : r.1.driverMode = s.driverMode
  attach : .net80211Attach ∉ r.2

theorem untouched_effects {es : List MgmtEffect} (h : .net80211Attach ∉ es) : s.Untouched (s, es) :=
  ⟨rfl, rfl, h⟩

theorem keeps_wakeupSleepConfirm : Ends s.Untouched (s.wakeupSleepConfirm msg) := by
  rw [wakeupSleepConfirm]
  split
  · exact ends_freed (untouched_effects (by simp))
  split
  · exact ends_freed (untouched_effects (by simp))
  split
  · exact ends_freed (untouched_effects (by simp))
  split
  · exact ends_freed (untouched_effects (by simp))
  · exact ends_kept (untouched_effects (by simp))

theorem foldl_endPassive (vs : List VapId) :
    (vs.foldl endPassive s).fsm = s.fsm ∧ (vs.foldl endPassive s).driverMode = s.driverMode := by
  induction vs generalizing s with
  | nil => exact ⟨rfl, rfl⟩
  | cons v vs ih => exact ih (s := s.endPassive v)

theorem untouched_readValues : s.Untouched (s.readValues msg) := ⟨rfl, rfl, by simp [readValues]⟩

theorem untouched_loopback (size : Nat) : s.Untouched (s.loopback msg size) := by
  rw [loopback]
  split
  · refine ⟨rfl, rfl, ?_⟩
    dsimp only
    split <;> simp
  · exact untouched_effects (by simp)

theorem untouched_taConfirm (c : CmdFrame) : s.Untouched (s.taConfirm msg c) := by
  have hread : s.Untouched (if 0 < msg.len then s.readValues msg else (s, [])) := by
    split
    · exact untouched_readValues
    · exact untouched_effects (by simp)
  rw [taConfirm.eq_def]
  split
  case h_1 => exact untouched_effects (by simp)
  case h_2 | h_3 | h_4 => exact hread
  case h_5 =>
    split
    · exact untouched_readValues
    · split <;> exact untouched_effects (by simp)
  case h_6 | h_7 => exact untouched_effects (by simp)
  case h_8 | h_9 => exact untouched_loopback _
  case h_10 => exact untouched_effects (by simp)
  case h_11 =>
    obtain ⟨hfsm, hmode⟩ := foldl_endPassive (s := s) (s.staVaps.filter fun v => (s.vap v).passive)
    exact ⟨hfsm, hmode, by simp [scanRequest]⟩
  case h_12 =>
    refine untouched_effects ?_
    split <;> simp
  case h_13 => exact untouched_effects (by simp)

theorem untouched_eapol4Ok : s.Untouched s.eapol4Ok := by
  rw [eapol4Ok]
  split
  · exact untouched_effects (by simp)
  · refine ⟨rfl, rfl, ?_⟩
    dsimp only
    split_ifs <;> simp

theorem untouched_txStatusInd (st : TxStatus) : s.Untouched (s.txStatusInd e msg st) := by
  cases st with
  | eapol4Confirm =>
    rw [txStatusInd]
    split
    · exact untouched_eapol4Ok
    · exact untouched_effects (by simp)
  | probereqConfirm => exact untouched_effects (by simp)
  | nulldataConfirm =>
    refine untouched_effects ?_
    split <;> simp
  | other => exact untouched_effects (by simp)

theorem keeps_tsfSyncConfirm : Ends s.Untouched (s.tsfSyncConfirm e msg) := by
  simp only [tsfSyncConfirm]
  split
  · exact ends_kept (untouched_effects (by simp))
  split
  · exact ends_kept (untouched_effects (by simp))
  split
  · exact ends_faulted
  split
  · exact ends_faulted
  · exact ends_freed (untouched_effects (by simp))

theorem keeps_wlanCorePktRecv (s₀ : Mgmt) (hfsm : s.fsm = s₀.fsm)
    (hmode : s.driverMode = s₀.driverMode) (off : Nat) : Ends s₀.Untouched (s.wlanCorePktRecv e msg off) := by
  rw [wlanCorePktRecv]
  split
  · exact ends_freed ⟨hfsm, hmode, by simp⟩
  split
  · exact ends_handedOver ⟨hfsm, hmode, by simp⟩
  · exact ends_handedOver ⟨hfsm, hmode, by simp⟩

theorem keeps_rxDot11Mgmt : Ends s.Untouched (s.rxDot11Mgmt e msg) := by
  rw [rxDot11Mgmt]
  split
  · exact ends_freed (untouched_effects (by simp))
  split
  · split
    · exact ends_faulted
    · exact keeps_wlanCorePktRecv s (by rfl) (by rfl) _
  · exact keeps_wlanCorePktRecv s (by rfl) (by rfl) _

theorem untouched_pwrsaveNotify : s.Untouched (s.pwrsaveNotify e msg) := by
  fun_cases pwrsaveNotify s e msg
  all_goals exact untouched_effects (by simp)

theorem keeps_psNotifyInd : Ends s.Untouched (s.psNotifyInd e msg) := by
  rw [psNotifyInd]
  split
  · exact ends_kept (untouched_effects (by simp))
  split
  · exact ends_faulted
  split
  · exact ends_kept (untouched_effects (by simp))
  · exact ends_freed untouched_pwrsaveNotify

theorem untouched_beaconEventInd : s.Untouched (s.beaconEventInd msg) := by
  simp only [beaconEventInd]
  split
  · exact untouched_effects (by simp)
  · split <;> exact ⟨rfl, rfl, by simp⟩

theorem untouched_coreMichaelFailure : s.Untouched (s.coreMichaelFailure e msg) := by
  rw [coreMichaelFailure]
  split
  · exact untouched_effects (by simp)
  · refine untouched_effects ?_
    split <;> simp

theorem keeps_oneboxMgmtPktToCore (t : RxCmd) : Ends s.Untouched (s.oneboxMgmtPktToCore e msg t) := by
  rw [oneboxMgmtPktToCore.eq_def]
  split
  · exact keeps_rxDot11Mgmt
  · exact keeps_psNotifyInd
  · exact ends_freed untouched_beaconEventInd
  · exact ends_freed untouched_coreMichaelFailure
  · exact ends_freed (untouched_effects (by simp))

theorem keeps_macInitDone : Ends s.Untouched (s.macInitDone e msg) := by
  rw [macInitDone]
  split
  · split
    · exact keeps_wakeupSleepConfirm
    · exact ends_freed (untouched_taConfirm _)
  · exact ends_freed (untouched_txStatusInd _)
  · exact ends_freed (untouched_effects (by simp))
  · exact ends_freed (untouched_effects (by simp))
  · exact keeps_tsfSyncConfirm
  · exact ends_freed (untouched_effects (by simp))
  · exact keeps_oneboxMgmtPktToCore _

end Keeps

/-- What a message does to the state of the start-up when the sends succeed: the next state and the
number of times net80211 is attached. -/
inductive FsmMove (s : Mgmt) (msg : RxMsg) : FsmState → Nat → Prop
  | bootup (h : s.fsm = .loadBootupParams) (hc : msg.confirms .bootupParamsRequest = true) :
      FsmMove s msg (if s.driverMode = .qspiFlashing then .macInitDone else .eepromReadMacAddr) 0
  | macAddr (h : s.fsm = .eepromReadMacAddr) (hc : msg.confirms .eepromReadType = true) :
      FsmMove s msg .eepromReadRfType 0
  | rfType (h : s.fsm = .eepromReadRfType) (hc : msg.confirms .eepromReadType = true) :
      FsmMove s msg .resetMacCfm 1
  | rfTypeUnread (h : s.fsm = .eepromReadRfType) (hc : msg.confirms .eepromReadType = false) :
      FsmMove s msg .resetMacCfm 0
  | badEeprom (h : s.fsm = .eepromReadMacAddr ∨ s.fsm = .eepromReadRfType)
      (hc : msg.confirms .eepromReadType = true) : FsmMove s msg .cardNotReady 0
  | radioCaps (h : s.fsm = .resetMacCfm) (hc : msg.confirms .radioCapabilities = true) :
      FsmMove s msg .macInitDone 0
  | later (h : s.fsm = .bbRfStart ∨ s.fsm = .ampduIndSent) (next : FsmState) : FsmMove s msg next 0
  | stay (hboot : s.fsm = .loadBootupParams → msg.confirms .bootupParamsRequest = false)
      (hmac : s.fsm = .eepromReadMacAddr → msg.confirms .eepromReadType = false)
      (hrf : s.fsm ≠ .eepromReadRfType)
      (hreset : s.fsm = .resetMacCfm → msg.confirms .radioCapabilities = false) : FsmMove s msg s.fsm 0

section Moves

variable {s c : Mgmt} {e : MgmtEnv} {msg : RxMsg} {status : Bool}

/-- The part of a handler's outcome that the start-up depends on. -/
def Moved (s : Mgmt) (msg : RxMsg) (r : Handled) : Prop :=
  r.1.driverMode = s.driverMode ∧ FsmMove s msg r.1.fsm (r.2.count .net80211Attach)

theorem moved_bootupParams (he : e.sendsOk = true) (h : s.fsm = .loadBootupParams) :
    s.Moved msg (s.bootupParams e msg) := by
  have hread : e.eepromRead = true := by simp_all [MgmtEnv.sendsOk]
  cases hc : msg.confirms .bootupParamsRequest with
  | false =>
    simp only [bootupParams, hc]
    exact ⟨rfl, .stay (fun _ => hc) (by simp [h]) (by simp [h]) (by simp [h])⟩
  | true =>
    have hmove := FsmMove.bootup h hc
    by_cases hmode : s.driverMode = .qspiFlashing
    · simp only [hmode, if_true] at hmove
      simpa [Moved, bootupParams, hc, hmode] using hmove
    · simp only [hmode, if_false] at hmove
      simpa [Moved, bootupParams, hc, hmode, hread] using hmove

theorem moved_eepromReadBand {m : MacAddr} (he : e.sendsOk = true) (h : s.fsm = .eepromReadMacAddr)
    (hc : msg.confirms .eepromReadType = true) :
    s.Moved msg ({ s with macAddr := m }.oneboxEepromReadBand e) := by
  have hread : e.eepromRead = true := by simp_all [MgmtEnv.sendsOk]
  rw [oneboxEepromReadBand, if_pos hread]
  exact ⟨rfl, .macAddr h hc⟩

theorem moved_readMacAddr (he : e.sendsOk = true) (h : s.fsm = .eepromReadMacAddr) :
    s.Moved msg (s.readMacAddr e msg) := by
  cases hc : msg.confirms .eepromReadType with
  | false =>
    simp only [readMacAddr, hc]
    exact ⟨rfl, .stay (by simp [h]) (fun _ => hc) (by simp [h]) (by simp [h])⟩
  | true =>
    rw [readMacAddr, if_pos hc]
    split
    · split
      · exact moved_eepromReadBand he h hc
      · split
        · exact ⟨rfl, .badEeprom (.inl h) hc⟩
        · exact moved_eepromReadBand (m := s.macAddr) he h hc
    · exact moved_eepromReadBand (m := s.macAddr) he h hc

theorem moved_readRfType (he : e.sendsOk = true) (h : s.fsm = .eepromReadRfType) :
    s.Moved msg (s.readRfType e msg) := by
  have hreset : e.sendResetMac = true := by simp_all [MgmtEnv.sendsOk]
  cases hc : msg.confirms .eepromReadType with
  | false =>
    simp only [readRfType, hc, resetMac, hreset]
    exact ⟨rfl, .rfTypeUnread h hc⟩
  | true =>
    rw [readRfType, if_pos hc]
    simp only [resetMac, hreset, if_true]
    split
    · split
      · exact ⟨rfl, .rfType h hc⟩
      · split
        · exact ⟨rfl, .rfType h hc⟩
        · exact ⟨rfl, .badEeprom (.inr h) hc⟩
    · split
      · exact ⟨rfl, .badEeprom (.inr h) hc⟩
      · exact ⟨rfl, .rfType h hc⟩

theorem moved_of_untouched {r : Handled} (hlate : s.fsm ≠ .loadBootupParams ∧ s.fsm ≠ .eepromReadMacAddr ∧
    s.fsm ≠ .eepromReadRfType ∧ s.fsm ≠ .resetMacCfm) (h : s.Untouched r) : s.Moved msg r := by
  obtain ⟨hboot, hmac, hrf, hreset⟩ := hlate
  refine ⟨h.driverMode, ?_⟩
  rw [h.fsm, List.count_eq_zero.mpr h.attach]
  exact .stay (fun hf => absurd hf hboot) (fun hf => absurd hf hmac) hrf (fun hf => absurd hf hreset)

theorem ends_resetMacCfm (he : e.sendsOk = true) (h : s.fsm = .resetMacCfm) :
    Ends (s.Moved msg) (s.resetMacCfm e msg) := by
  have hprog : e.programBbRf = true := by simp_all [MgmtEnv.sendsOk]
  have hstay : msg.confirms .radioCapabilities = false → FsmMove s msg s.fsm 0 := fun hc =>
    .stay (by simp [h]) (by simp [h]) (by simp [h]) fun _ => hc
  rw [resetMacCfm]
  split
  · next hc => exact ends_freed ⟨rfl, hstay (RxMsg.confirms_of_ne hc (by decide))⟩
  · split
    · next hc => exact ends_freed ⟨rfl, .radioCaps h hc⟩
    · next hc => exact ends_freed ⟨rfl, hstay (Bool.eq_false_of_not_eq_true hc)⟩

theorem ends_ampduIndSent (h : s.fsm = .ampduIndSent) : Ends (s.Moved msg) (s.ampduIndSent e msg) := by
  rw [ampduIndSent]
  split
  · split
    · exact ends_freed ⟨rfl, .later (.inr h) _⟩
    · exact ends_freed ⟨rfl, .later (.inr h) _⟩
  · exact ends_freed ⟨rfl, .later (.inr h) _⟩

theorem moved_bbRfStart (h : s.fsm = .bbRfStart) : s.Moved msg (s.bbRfStart msg) := by
  rw [bbRfStart]
  split
  · exact ⟨rfl, .later (.inl h) _⟩
  · exact ⟨rfl, .later (.inl h) _⟩

/-- The spec of a message: it moves the start-up as `FsmMove` says. -/
theorem ends_oneboxMgmtPktRecv (he : e.sendsOk = true) : Ends (s.Moved msg) (s.oneboxMgmtPktRecv e msg) := by
  rw [oneboxMgmtPktRecv]
  split
  case h_1 h => exact ends_freed (moved_bootupParams he h)
  case h_2 h => exact ends_freed (moved_readMacAddr he h)
  case h_3 h => exact ends_freed (moved_readRfType he h)
  case h_4 h => exact ends_resetMacCfm he h
  case h_5 h => exact ends_freed (moved_bbRfStart h)
  case h_6 h => exact ends_ampduIndSent h
  case h_7 h =>
    refine ends_freed (moved_of_untouched (by simp [h]) (untouched_effects ?_))
    split <;> simp
  case h_8 h => exact keeps_macInitDone.mono fun r => moved_of_untouched (by simp [h])
  case h_9 hboot hmac hrf hreset _ _ _ _ =>
    exact ends_freed (moved_of_untouched ⟨hboot, hmac, hrf, hreset⟩ (untouched_effects (by simp)))

end Moves

end Mgmt

namespace WlanInit

variable {s t u : WlanInit} {a : MgmtArrival} {as : List MgmtArrival} {c : CmdFrame} {cs : List CmdFrame}

def awaiting (s : WlanInit) : List CmdFrame := outstanding bringUpOrder s.confirmed

theorem ordered_iff : s.Ordered ↔ s.awaiting = [] ∧ s.attaches = 1 := by
  rw [Ordered, awaiting, outstanding_eq_nil_iff]

structure Arrives (s : WlanInit) (a : MgmtArrival) (t : WlanInit) (n : Nat) : Prop where
  move : s.mgmt.FsmMove a.msg t.mgmt.fsm n
  driverMode : t.mgmt.driverMode = s.mgmt.driverMode
  confirmed : t.confirmed = s.confirmed ++ a.msg.confirmed
  attaches : t.attaches = s.attaches + n
  resetConfirmed : t.resetConfirmed =
    (s.resetConfirmed || (s.mgmt.fsm = .resetMacCfm && a.msg.confirms .resetMacReq))

theorem arrives_of_step (h : s.step a = some t) : ∃ n, s.Arrives a t n := by
  rw [step] at h
  split at h
  · next he =>
    obtain ⟨⟨c, status⟩, hres, rfl⟩ := Option.map_eq_some_iff.mp h
    obtain ⟨hmode, hmove⟩ := s.mgmt.ends_oneboxMgmtPktRecv he c status hres
    exact ⟨_, hmove, hmode, rfl, List.count_append, rfl⟩
  · cases h

theorem Arrives.awaiting {n : Nat} (h : s.Arrives a t n) (hs : s.awaiting = c :: cs) :
    t.awaiting = if a.msg.confirms c then cs else c :: cs := by
  rw [WlanInit.awaiting] at hs ⊢
  rw [h.confirmed, RxMsg.confirmed, RxMsg.confirms]
  by_cases ht : a.msg.type = .taConfirmType
  · simp [ht, outstanding_append, hs, heard, eq_comm]
  · simp [ht, hs]

/-- What has been received and done by the time the driver is in each state. -/
def Stage (s : WlanInit) : Prop :=
  match s.mgmt.fsm with
  | .loadBootupParams => s.mgmt.driverMode ≠ .qspiFlashing ∧ s.attaches = 0 ∧ s.awaiting = bringUpOrder ∧
      s.resetConfirmed = false
  | .eepromReadMacAddr => s.attaches = 0 ∧
      s.awaiting = [.eepromReadType, .eepromReadType, .resetMacReq, .radioCapabilities] ∧
      s.resetConfirmed = false
  | .eepromReadRfType => s.attaches = 0 ∧ s.awaiting = [.eepromReadType, .resetMacReq, .radioCapabilities] ∧
      s.resetConfirmed = false
  | .resetMacCfm => s.attaches = 0 ∨ s.attaches = 1 ∧
      s.awaiting = if s.resetConfirmed then [.radioCapabilities] else [.resetMacReq, .radioCapabilities]
  | .macInitDone | .cardNotReady => True
  | _ => False

theorem Stage.not_later (hs : s.Stage) : ¬ (s.mgmt.fsm = .bbRfStart ∨ s.mgmt.fsm = .ampduIndSent) := by
  rintro (hf | hf)
  · simp [Stage, hf] at hs
  · simp [Stage, hf] at hs

/-- A message that leaves the state leaves what is waited for in it. -/
theorem Stage.stays (hs : s.Stage) (ha : s.Arrives a t 0) (hfsm : t.mgmt.fsm = s.mgmt.fsm)
    (hboot : s.mgmt.fsm = .loadBootupParams → a.msg.confirms .bootupParamsRequest = false)
    (hmac : s.mgmt.fsm = .eepromReadMacAddr → a.msg.confirms .eepromReadType = false)
    (hrf : s.mgmt.fsm ≠ .eepromReadRfType)
    (hradio : s.mgmt.fsm = .resetMacCfm → a.msg.confirms .radioCapabilities = false) : t.Stage := by
  have hcount := ha.attaches
  have hreset := ha.resetConfirmed
  rw [Stage] at hs
  split at hs
  case h_1 hf =>
    obtain ⟨hmode, hzero, hwait, hrc⟩ := hs
    have hkept : t.awaiting = bringUpOrder := by
      rw [ha.awaiting hwait, hboot hf]
      rfl
    simp [Stage, hfsm, hcount, hzero, hreset, hrc, hf, hkept, ha.driverMode, hmode]
  case h_2 hf =>
    obtain ⟨hzero, hwait, hrc⟩ := hs
    simp [Stage, hfsm, hcount, hzero, hreset, hrc, hf, ha.awaiting hwait, hmac hf]
  case h_3 hf => exact absurd hf hrf
  case h_4 hf =>
    simp only [Stage, hfsm, hf, hcount, Nat.add_zero]
    refine hs.imp_right fun ⟨hone, hwait⟩ => ⟨hone, ?_⟩
    -- a second confirm of the reset changes nothing
    cases hrc : s.resetConfirmed with
    | true =>
      rw [hrc] at hwait
      simp [hreset, hrc, ha.awaiting hwait, hradio hf]
    | false =>
      rw [hrc] at hwait
      simp [hreset, hrc, hf, ha.awaiting hwait]
  case h_5 hf => simp [Stage, hfsm, hf]
  case h_6 hf => simp [Stage, hfsm, hf]
  case h_7 => exact hs.elim

theorem Stage.step (hs : s.Stage) (h : s.step a = some t) : t.Stage := by
  obtain ⟨n, ha⟩ := arrives_of_step h
  have hcount := ha.attaches
  have hreset := ha.resetConfirmed
  have hmove := ha.move
  generalize hfsm : t.mgmt.fsm = fsm at hmove
  cases hmove with
  | bootup hf hc =>
    simp only [Stage, hf] at hs
    obtain ⟨hmode, hzero, hwait, hrc⟩ := hs
    rw [if_neg hmode] at hfsm
    simp [Stage, hfsm, hcount, hzero, hreset, hrc, hf, ha.awaiting hwait, hc]
  | macAddr hf hc =>
    simp only [Stage, hf] at hs
    obtain ⟨hzero, hwait, hrc⟩ := hs
    simp [Stage, hfsm, hcount, hzero, hreset, hrc, hf, ha.awaiting hwait, hc]
  | rfType hf hc =>
    simp only [Stage, hf] at hs
    obtain ⟨hzero, hwait, hrc⟩ := hs
    simp [Stage, hfsm, hcount, hzero, hreset, hrc, hf, ha.awaiting hwait, hc]
  | rfTypeUnread hf hc =>
    simp only [Stage, hf] at hs
    simp [Stage, hfsm, hcount, hs.1]
  | badEeprom | radioCaps => simp [Stage, hfsm]
  | later hf => exact absurd hf hs.not_later
  | stay hboot hmac hrf hradio => exact hs.stays ha hfsm hboot hmac hrf hradio

/-- The driver got past the RF type without attaching net80211. -/
def Unattached (s : WlanInit) : Prop :=
  (s.mgmt.fsm = .resetMacCfm ∨ s.mgmt.fsm = .macInitDone) ∧ s.attaches = 0

theorem Unattached.step (hs : s.Unattached) (h : s.step a = some t) : t.Unattached := by
  obtain ⟨n, ha⟩ := arrives_of_step h
  obtain ⟨hf, hzero⟩ := hs
  have hcount := ha.attaches
  have hmove := ha.move
  generalize hfsm : t.mgmt.fsm = fsm at hmove
  cases hmove with
  | radioCaps => exact ⟨.inr hfsm, by omega⟩
  | stay => exact ⟨by rwa [hfsm], by omega⟩
  | bootup hb | macAddr hb | rfType hb | rfTypeUnread hb => simp [hb] at hf
  | badEeprom hb | later hb => rcases hb with hb | hb <;> simp [hb] at hf

theorem done_step (hs : s.mgmt.fsm = .macInitDone) (h : s.step a = some t) : t.mgmt.fsm = .macInitDone := by
  obtain ⟨n, ha⟩ := arrives_of_step h
  have hmove := ha.move
  generalize hfsm : t.mgmt.fsm = fsm at hmove
  cases hmove with
  | stay => exact hs
  | radioCaps hb => simp [hb] at hs
  | bootup hb | macAddr hb | rfType hb | rfTypeUnread hb => simp [hb] at hs
  | badEeprom hb | later hb => rcases hb with hb | hb <;> simp [hb] at hs

/-- The step that completes the start-up is the confirm of the radio capabilities. -/
theorem Stage.completes (hs : s.Stage) (hnot : s.mgmt.fsm ≠ .macInitDone) (h : s.step a = some t)
    (hdone : t.mgmt.fsm = .macInitDone) :
    s.mgmt.fsm = .resetMacCfm ∧ a.msg.confirms .radioCapabilities = true ∧
      (t.Ordered ↔ s.attaches = 1 ∧ s.resetConfirmed = true) := by
  obtain ⟨n, ha⟩ := arrives_of_step h
  have hcount := ha.attaches
  have hmove := ha.move
  generalize hfsm : t.mgmt.fsm = fsm at hmove
  cases hmove with
  | radioCaps hf hc =>
    refine ⟨hf, hc, ?_⟩
    rw [ordered_iff, hcount, Nat.add_zero]
    simp only [Stage, hf] at hs
    rcases hs with hzero | ⟨hone, hwait⟩
    · simp [hzero]
    · cases hrc : s.resetConfirmed with
      | true =>
        rw [hrc] at hwait
        simp [hone, ha.awaiting hwait, hc]
      | false =>
        have hother : a.msg.confirms .resetMacReq = false := RxMsg.confirms_of_ne hc (by decide)
        rw [hrc] at hwait
        simp [ha.awaiting hwait, hother]
  | bootup hf hc =>
    simp only [Stage, hf] at hs
    rw [if_neg hs.1, hdone] at hfsm
    cases hfsm
  | later hf => exact absurd hf hs.not_later
  | stay => exact absurd (hfsm.symm.trans hdone) hnot
  | macAddr | rfType | rfTypeUnread | badEeprom => simp [hdone] at hfsm

theorem Stage.attached_step (hs : s.Stage) (hone : s.mgmt.fsm = .resetMacCfm → s.attaches = 1)
    (hok : awaited s a = true) (h : s.step a = some t) : t.mgmt.fsm = .resetMacCfm → t.attaches = 1 := by
  obtain ⟨n, ha⟩ := arrives_of_step h
  have hcount := ha.attaches
  have hmove := ha.move
  intro ht
  generalize hfsm : t.mgmt.fsm = fsm at hmove
  cases hmove with
  | rfType hf hc =>
    simp only [Stage, hf] at hs
    omega
  | rfTypeUnread hf hc => simp [awaited, hf, hc] at hok
  | stay => rw [hcount, Nat.add_zero, hone (hfsm.symm.trans ht)]
  | later hf => exact absurd hf hs.not_later
  | bootup hf hc =>
    rw [ht] at hfsm
    split at hfsm <;> cases hfsm
  | macAddr | badEeprom | radioCaps => simp [ht] at hfsm

/-- After a message out of order. -/
def Lost (s : WlanInit) : Prop := s.Unattached ∨ s.mgmt.fsm = .macInitDone

theorem Lost.step (hs : s.Lost) (h : s.step a = some t) : t.Lost :=
  hs.imp (fun hu => hu.step h) fun hd => done_step hd h

theorem Stage.lost (hs : s.Stage) (hno : ¬ awaited s a = true) (h : s.step a = some t) : t.Lost := by
  rw [Bool.not_eq_true] at hno
  obtain ⟨n, ha⟩ := arrives_of_step h
  have hcount := ha.attaches
  have hmove := ha.move
  generalize hfsm : t.mgmt.fsm = fsm at hmove
  cases hmove with
  | rfTypeUnread hf hc =>
    simp only [Stage, hf] at hs
    exact .inl ⟨.inl hfsm, by omega⟩
  | radioCaps hf hc => exact .inr hfsm
  | bootup hf hc => simp [awaited, hf] at hno
  | macAddr hf hc => simp [awaited, hf] at hno
  | rfType hf hc => simp [awaited, hf, hc] at hno
  | badEeprom hf hc => rcases hf with hf | hf <;> simp [awaited, hf, hc] at hno
  | later hf => exact absurd hf hs.not_later
  | stay hboot hmac hrf hradio =>
    rw [awaited] at hno
    split at hno
    · next hf => exact absurd hf hrf
    · next hf => simp [hradio hf] at hno
    · cases hno

theorem Stage.lost_iff (hs : s.Stage) (hf : s.mgmt.fsm = .resetMacCfm) : s.Lost ↔ s.attaches ≠ 1 := by
  simp only [Stage, hf] at hs
  constructor
  · rintro (⟨-, hzero⟩ | hdone)
    · omega
    · rw [hf] at hdone
      cases hdone
  · intro hne
    exact .inl ⟨.inl hf, by omega⟩

/-- While the reset is awaited, the messages so far were in order just when net80211 is attached. -/
theorem Stage.meets_awaited_iff (hs : s.Stage) (hone : s.mgmt.fsm = .resetMacCfm → s.attaches = 1)
    (hrun : run WlanInit.step s as = some t) (ht : t.mgmt.fsm = .resetMacCfm) :
    Meets WlanInit.step awaited s as ↔ t.attaches = 1 := by
  have hstage : t.Stage := run_preserves (fun h hstep => h.step hstep) hs hrun
  refine (meets_iff_not_marked (I := fun s => s.Stage ∧ (s.mgmt.fsm = .resetMacCfm → s.attaches = 1))
    (fun h hok hstep => ⟨h.1.step hstep, h.1.attached_step h.2 hok hstep⟩)
    (fun h hno hstep => h.1.lost hno hstep) Lost.step ⟨hs, hone⟩ hrun
    (fun h hlost => (hstage.lost_iff ht).mp hlost (h.2 ht))).trans ?_
  rw [hstage.lost_iff ht, not_not]

end WlanInit

/-- A step that brings the driver to `FSM_MAC_INIT_DONE` finds the confirms received in their order and
net80211 attached once just when the RF type and the reset were waited for. -/
theorem bringUp_ordered_iff {m : Mgmt} {s t : WlanInit} {as : List MgmtArrival} {a : MgmtArrival}
    (hfsm : m.fsm = .loadBootupParams) (hmode : m.driverMode ≠ .qspiFlashing)
    (hrun : run WlanInit.step (wlanStart m) as = some s) (hnot : s.mgmt.fsm ≠ .macInitDone)
    (hstep : s.step a = some t) (hdone : t.mgmt.fsm = .macInitDone) :
    t.Ordered ↔ Meets WlanInit.step awaited (wlanStart m) (as ++ [a]) := by
  have hstart : (wlanStart m).Stage := by
    simp only [WlanInit.Stage, wlanStart, hfsm, and_true]
    exact ⟨hmode, rfl, rfl⟩
  have hs : s.Stage := run_preserves (fun h hstep => h.step hstep) hstart hrun
  obtain ⟨hreset, hc, hordered⟩ := hs.completes hnot hstep hdone
  have hbefore := hstart.meets_awaited_iff (by simp [wlanStart, hfsm]) hrun hreset
  rw [hordered, meets_concat hrun, hbefore]
  simp [awaited, hreset, hc]

/-- A confirm of the command with the given code, with an EEPROM content of the 2.4 GHz band. -/
def confirmOf (code : BitVec 8) : MgmtArrival :=
  { env := mgmtEnv
    msg := ⟨fun i => if i = 2 then 1 else if i = 15 then code else if i = 0 then 4 else
      if i = 16 then magicWord else if i = 17 then 1 else 0⟩ }

def bootMgmt : Mgmt := { idleMgmt with fsm := .loadBootupParams }

def bootupCfm : MgmtArrival := confirmOf 12

def eepromCfm : MgmtArrival := confirmOf 14

def resetCfm : MgmtArrival := confirmOf 1

def radioCapsCfm : MgmtArrival := confirmOf 2

/-- A late scan confirm arrives in place of the RF type, and net80211 is never attached. -/
theorem strayForRfType :
    ∃ s t, run WlanInit.step (wlanStart bootMgmt) [bootupCfm, eepromCfm, confirmOf 6, resetCfm] = some s ∧
      s.mgmt.fsm ≠ .macInitDone ∧ s.step radioCapsCfm = some t ∧ t.mgmt.fsm = .macInitDone ∧
      ¬ t.Ordered ∧ t.attaches = 0 :=
  ⟨_, _, rfl, by decide, rfl, rfl, by decide, by decide⟩

/-- The RF type comes, after messages nobody waits for. -/
def strayBootup : List MgmtArrival := [confirmOf 6, bootupCfm, bootupCfm, eepromCfm, eepromCfm, resetCfm]

theorem strayBootup_ordered :
    ∃ s t, run WlanInit.step (wlanStart bootMgmt) strayBootup = some s ∧ s.step radioCapsCfm = some t ∧
      t.mgmt.fsm = .macInitDone ∧ t.Ordered := by
  refine ⟨_, _, rfl, rfl, rfl, ?_⟩
  exact (@bringUp_ordered_iff bootMgmt _ _ strayBootup radioCapsCfm rfl (by decide) rfl (by decide)
    rfl rfl).mpr (by decide)

end Onebox
