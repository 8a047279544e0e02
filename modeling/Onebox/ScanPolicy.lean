import Onebox.Machine
import Onebox.ZigbMain

/-! The scans of the loop of `zigb_main`. The state, the count of the attempts and the flag `scanReqSent` go
with the scan requests that have been sent and the completions that have come, over every run. -/

namespace Onebox

open Calls Machine

/-- The scan requests that have been sent and have not been completed. -/
def scansOutstanding : List ZigbEvent → Nat
  | [] => 0
  | .sent .initiateScan :: past => scansOutstanding past + 1
  | .received (some r) :: past =>
    if r.isScanComplete then scansOutstanding past - 1 else scansOutstanding past
  | _ :: past => scansOutstanding past

/-- The scan requests since the last join request. -/
def scanRequests : List ZigbEvent → Nat
  | [] => 0
  | .sent .initiateScan :: past => scanRequests past + 1
  | .sent .joinNetwork :: _ => 0
  | _ :: past => scanRequests past

/-- A scan that was requested has completed. -/
def Scanned : List ZigbEvent → Prop
  | [] => False
  | .received (some r) :: past => r.isScanComplete = true ∧ 0 < scansOutstanding past ∨ Scanned past
  | _ :: past => Scanned past

/-- At most one scan is outstanding, the requests are bounded, and a join request that has just been sent
follows a completed scan. -/
structure Orderly (time : List ZigbEvent) : Prop where
  outstanding : scansOutstanding time ≤ 1
  requests : scanRequests time ≤ MainLoop.maxScanAttempts + 1
  join : ∀ past, time = .sent .joinNetwork :: past → Scanned past

/-- The loop does not give up while a scan is outstanding, either. -/
structure Obeys (time : List ZigbEvent) : Prop extends Orderly time where
  notFound : ∀ past, time = .returned .networkNotFound :: past → scansOutstanding past = 0

/-- The policy, at every time. -/
def ScanPolicy (past : List ZigbEvent) : Prop := ∀ time, time <:+ past → Obeys time

/-- No iteration without a packet happens while the last scan request is outstanding. -/
def awaits (s : ZigbRun) : MainInput → Bool
  | .idle =>
    !(s.main.inner.isNone && s.main.fsm = .initScan && MainLoop.maxScanAttempts ≤ s.main.scanAttempts)
  | .response _ => true

section Policy

variable {e : ZigbEvent} {past : List ZigbEvent}

theorem Orderly.of_cons (hout : scansOutstanding (e :: past) ≤ 1)
    (hrequests : scanRequests (e :: past) ≤ MainLoop.maxScanAttempts + 1)
    (hjoin : e = .sent .joinNetwork → Scanned past) : Orderly (e :: past) := by
  refine ⟨hout, hrequests, fun past' heq => ?_⟩
  cases heq
  exact hjoin rfl

theorem Obeys.of_cons (h : Orderly (e :: past))
    (hreturn : e = .returned .networkNotFound → scansOutstanding past = 0) : Obeys (e :: past) := by
  refine ⟨h, fun past' heq => ?_⟩
  cases heq
  exact hreturn rfl

theorem scanPolicy_cons : ScanPolicy (e :: past) ↔ Obeys (e :: past) ∧ ScanPolicy past := by
  constructor
  · intro h
    exact ⟨h _ List.suffix_rfl, fun time htime => h time (htime.trans (List.suffix_cons e past))⟩
  · rintro ⟨hnow, hpast⟩ time htime
    rcases List.suffix_cons_iff.mp htime with rfl | htime
    · exact hnow
    · exact hpast time htime

theorem ScanPolicy.now (h : ScanPolicy past) : Obeys past := h past List.suffix_rfl

/-- The latest event is a return while a scan request is outstanding. -/
def lostScan : List ZigbEvent → Bool
  | .returned .networkNotFound :: past => scansOutstanding past ≠ 0
  | _ => false

theorem not_scanPolicy_of_lostScan (h : lostScan past = true) : ¬ ScanPolicy past := by
  intro hpolicy
  unfold lostScan at h
  split at h
  · have hzero := hpolicy.now.notFound _ rfl
    simp [hzero] at h
  · cases h

theorem ScanPolicy.of_append {later : List ZigbEvent} (h : ScanPolicy (later ++ past)) : ScanPolicy past :=
  fun time htime => h time (htime.trans (List.suffix_append later past))

/-- The policy is as well off after the later events. -/
structure Carries (past later : List ZigbEvent) : Prop where
  outstanding : scansOutstanding later = scansOutstanding past
  requests : scanRequests later = scanRequests past
  scanned : Scanned past → Scanned later
  policy : ScanPolicy past → ScanPolicy later

theorem Carries.refl (past : List ZigbEvent) : Carries past past := ⟨rfl, rfl, id, id⟩

theorem Carries.trans {a b c : List ZigbEvent} (h : Carries a b) (h' : Carries b c) : Carries a c where
  outstanding := h'.outstanding.trans h.outstanding
  requests := h'.requests.trans h.requests
  scanned := h'.scanned ∘ h.scanned
  policy := h'.policy ∘ h.policy

theorem Carries.of_cons (hout : scansOutstanding (e :: past) = scansOutstanding past)
    (hrequests : scanRequests (e :: past) = scanRequests past) (hscanned : Scanned past → Scanned (e :: past))
    (hjoin : e ≠ .sent .joinNetwork) (hreturn : e ≠ .returned .networkNotFound) :
    Carries past (e :: past) := by
  have hout' (h : ScanPolicy past) : scansOutstanding (e :: past) ≤ 1 := hout.trans_le h.now.outstanding
  have hrequests' (h : ScanPolicy past) : scanRequests (e :: past) ≤ MainLoop.maxScanAttempts + 1 :=
    hrequests.trans_le h.now.requests
  refine ⟨hout, hrequests, hscanned, fun h => scanPolicy_cons.mpr ⟨.of_cons ?_ ?_, h⟩⟩
  · exact .of_cons (hout' h) (hrequests' h) fun heq => absurd heq hjoin
  · exact fun heq => absurd heq hreturn

/-- A response that does not complete a scan, or comes when none is outstanding. -/
theorem carries_received {r : Option ZigbRsp}
    (h : scansOutstanding past = 0 ∨ ∀ r' ∈ r, r'.isScanComplete = false) :
    Carries past (.received r :: past) := by
  cases r with
  | none => exact .of_cons rfl rfl id (by simp) (by simp)
  | some r =>
    refine .of_cons ?_ rfl .inr (by simp) (by simp)
    rw [scansOutstanding]
    rcases h with hzero | hnot
    · simp [hzero]
    · simp [hnot r rfl]

/-- Commands and returns that the policy does not look at. -/
def ZigbEvent.Plain : ZigbEvent → Prop
  | .received _ => False
  | .sent c => c ≠ .initiateScan ∧ c ≠ .joinNetwork
  | .returned why => why ≠ .networkNotFound

theorem carries_of_plain (h : e.Plain) : Carries past (e :: past) := by
  cases e with
  | received r => exact h.elim
  | returned why => exact .of_cons rfl rfl id (by simp) fun heq => h (ZigbEvent.returned.inj heq)
  | sent c =>
    have hjoin : ZigbEvent.sent c ≠ .sent .joinNetwork := fun heq => h.2 (ZigbEvent.sent.inj heq)
    cases c with
    | initiateScan => exact absurd rfl h.1
    | joinNetwork => exact absurd rfl h.2
    | _ => exact .of_cons rfl rfl id hjoin (by simp)

theorem carries_log {log : List ZigbEvent} (h : ∀ e ∈ log, e.Plain) : Carries past (log.reverse ++ past) := by
  induction log generalizing past with
  | nil => exact .refl past
  | cons e log ih =>
    obtain ⟨he, hlog⟩ := List.forall_mem_cons.mp h
    rw [List.reverse_cons, List.append_assoc]
    exact (carries_of_plain he).trans (ih hlog)

end Policy

inductive ScanPhase
  | early
  | scanning
  | scanned
  | joined
  deriving DecidableEq, Repr

def ZigbFsm.phase : ZigbFsm → ScanPhase
  | .initScan => .scanning
  | .scanDone => .scanned
  | .joinNetwork | .zbConnected | .zbHandleRouter | .zbRejoinSend | .zbRejoined => .joined
  | _ => .early

/-- The attempts are counted from the second scan request on. -/
def Counted (s : MainLoop) (past : List ZigbEvent) : Prop :=
  scanRequests past = s.scanAttempts + 1 ∧ s.scanAttempts ≤ MainLoop.maxScanAttempts

/-- How the variables go with what has happened. -/
def ScanInv (s : MainLoop) (past : List ZigbEvent) : Prop :=
  match s.fsm.phase with
  | .early =>
    s.inner = none ∧ s.scanAttempts = 0 ∧ s.app.scanReqSent = 0 ∧ scansOutstanding past = 0 ∧
      scanRequests past = 0
  | .scanning => s.inner = none ∧ s.app.scanReqSent ≠ 0 ∧ scansOutstanding past = 1 ∧ Counted s past
  | .scanned =>
    s.inner = none ∧ s.app.scanReqSent = 0 ∧ scansOutstanding past = 0 ∧ Counted s past ∧ Scanned past
  | .joined => s.app.scanReqSent = 0 ∧ scansOutstanding past = 0 ∧ scanRequests past = 0

section Callback

theorem eq_of_lookup_scanComplete :
    ∀ cmdId : UInt8, appCallbacks.lookup cmdId = some .scanComplete → cmdId = 0x4b := by
  decide +kernel

theorem scanReqSent_handleDataIndication (app : ZigbApp) (ind : DataIndication) :
    ∃ app', (app.handleDataIndication ind).result = some app' ∧ app'.scanReqSent = app.scanReqSent := by
  rw [ZigbApp.handleDataIndication]
  cases zdpResponses.lookup ind.clusterId with
  | none => exact ⟨app, rfl, rfl⟩
  | some r =>
    dsimp only
    rw [bind_of_result rfl]
    by_cases h : app.asduPkt 1 = r.2
    · rw [if_pos h]
      exact ⟨_, rfl, rfl⟩
    · rw [if_neg h]
      exact ⟨app, rfl, rfl⟩

/-- The flag is cleared when a scan completes, and is left alone otherwise. -/
theorem scanReqSent_callback (app : ZigbApp) (r : ZigbRsp) :
    (app.callback r).scanReqSent = if r.cmdId = 0x4b then 0 else app.scanReqSent := by
  rw [ZigbApp.callback, rsiZigbAppCbHandler]
  by_cases hcmd : r.cmdId = 0x4b
  · have hlookup : appCallbacks.lookup r.cmdId = some .scanComplete := by
      rw [hcmd]
      rfl
    rw [if_pos hcmd, hlookup]
    rfl
  · rw [if_neg hcmd]
    cases hlookup : appCallbacks.lookup r.cmdId with
    | none => rfl
    | some callback =>
      cases callback with
      | scanComplete => exact absurd (eq_of_lookup_scanComplete _ hlookup) hcmd
      | dataIndication =>
        obtain ⟨ind, hind⟩ : ∃ ind, (readIndication r.payload 240 0).result = some ind := ⟨_, rfl⟩
        dsimp only
        rw [bind_of_result hind]
        obtain ⟨app', happ, hflag⟩ := scanReqSent_handleDataIndication
          { app with asduPkt := ByteMem.copy app.asduPkt 0 r.payload ind.2 ind.1.asdulength.toNat } ind.1
        rw [bind_of_result rfl, bind_of_result rfl, happ]
        exact hflag
      | _ => rfl

end Callback

/-- Where an iteration that has nothing to do with the scans leads to. -/
def ScanCalm (p : ScanPhase) (t : MainLoop) : Prop :=
  t.returned ≠ none ∨
    t.fsm.phase = p ∧ t.app.scanReqSent = 0 ∧ (p = .early → t.inner = none ∧ t.scanAttempts = 0)

section ScanCalm

variable {p : ScanPhase} {s : MainLoop} {r : ZigbRsp} {d : HandleData}

theorem ensures_fail {why : ZigbFailure} (h : why ≠ .networkNotFound) :
    Ensures ZigbEvent.Plain (ScanCalm p) (s.fail why) :=
  .bind_emit h (.pure (.inl (by simp)))

theorem ensures_send {c : ZigbCmd} {t : MainLoop} (hc : c ≠ .initiateScan ∧ c ≠ .joinNetwork)
    (ht : ScanCalm p t) : Ensures ZigbEvent.Plain (ScanCalm p) (do zigbSend c; pure t) :=
  .bind_emit hc (.pure ht)

theorem flag_callback (h : s.app.scanReqSent = 0) : (s.callback r).app.scanReqSent = 0 := by
  show (s.app.callback r).scanReqSent = 0
  rw [scanReqSent_callback, h, ite_self]

theorem ScanCalm.callback (hphase : s.fsm.phase = p) (hflag : s.app.scanReqSent = 0)
    (hfirst : p = .early → s.inner = none ∧ s.scanAttempts = 0) : ScanCalm p (s.callback r) :=
  .inr ⟨hphase, flag_callback hflag, hfirst⟩

theorem ensures_onResponse_early (hphase : s.fsm.phase = .early) (hfsm : s.fsm ≠ .initEnddevRouter)
    (hfirst : s.inner = none ∧ s.scanAttempts = 0) (hflag : s.app.scanReqSent = 0) :
    Ensures ZigbEvent.Plain (ScanCalm .early) (s.onResponse r) := by
  have hcalm : ScanCalm .early s := .inr ⟨hphase, hflag, fun _ => hfirst⟩
  have hback : ScanCalm .early (s.callback r) := .callback hphase hflag fun _ => hfirst
  have hmove {fsm : ZigbFsm} (h : fsm.phase = .early) : ScanCalm .early { s with fsm := fsm } :=
    .inr ⟨h, hflag, fun _ => hfirst⟩
  have hfail {why : ZigbFailure} (h : why ≠ .networkNotFound) : Ensures _ (ScanCalm .early) (s.fail why) :=
    ensures_fail h
  rw [MainLoop.onResponse]
  cases hs : s.fsm with
  | cardNotReady =>
    exact .ite (fun _ => ensures_send (by decide) (hmove rfl)) fun _ => hfail (by decide)
  | initStack =>
    exact .ite (fun _ => ensures_send (by decide) (hmove rfl)) fun _ => hfail (by decide)
  | resetStack =>
    refine .ite (fun _ => ensures_send (by decide) hcalm) fun _ => ?_
    refine .ite (fun _ => ensures_send (by decide) hcalm) fun _ => ?_
    exact .ite (fun _ => ensures_send (by decide) (hmove rfl)) fun _ => hfail (by decide)
  | getDevType =>
    refine .ite (fun _ => ensures_send (by decide) hcalm) fun _ => ?_
    refine .ite (fun _ => ?_) fun _ => hfail (by decide)
    refine .ite (fun _ => ensures_send (by decide) (.inr ⟨rfl, hflag, fun _ => hfirst⟩)) fun _ => ?_
    refine .ite (fun _ => ensures_send (by decide) (.inr ⟨rfl, hflag, fun _ => hfirst⟩)) fun _ => ?_
    exact ensures_send (by decide) (.inr ⟨rfl, hflag, fun _ => hfirst⟩)
  | initEnddevRouter => exact absurd hs hfsm
  | initCoordinator =>
    refine .ite (fun _ => ?_) fun _ => .pure hcalm
    refine .ite (fun _ => ?_) fun _ => .pure hback
    refine .ite (fun _ => ?_) fun _ => .pure hcalm
    exact ensures_send (by decide) (.callback rfl hflag fun _ => hfirst)
  | zbFormed => exact .ite (fun _ => hfail (by decide)) fun _ => .pure hback
  | cardReady | formNetwork | apiTest => exact hfail (by decide)
  | _ =>
    rw [hs] at hphase
    cases hphase

theorem handleJoinState_joined {t : MainLoop} (ht : s.handleJoinState r = some t)
    (hphase : s.fsm.phase = .joined) (hflag : s.app.scanReqSent = 0) :
    t.fsm.phase = .joined ∧ t.app.scanReqSent = 0 := by
  rw [MainLoop.handleJoinState] at ht
  split_ifs at ht
  · cases ht
    exact ⟨rfl, flag_callback hflag⟩
  · cases ht
    exact ⟨hphase, flag_callback hflag⟩
  · cases ht
    exact ⟨hphase, hflag⟩

theorem ensures_onJoinResponse (hphase : s.fsm.phase = .joined) (hflag : s.app.scanReqSent = 0) :
    Ensures ZigbEvent.Plain (ScanCalm .joined) (s.onJoinResponse r) := by
  have hlate {t : MainLoop} : ScanPhase.joined = .early → t.inner = none ∧ t.scanAttempts = 0 := by simp
  rw [MainLoop.onJoinResponse]
  cases ht : MainLoop.handleJoinState { s with scanAttempts := 0 } r with
  | none => exact ensures_fail (by decide)
  | some t =>
    obtain ⟨hphase, hflag⟩ := handleJoinState_joined ht hphase hflag
    refine .ite (fun _ => ?_) fun _ => .pure (.inr ⟨hphase, hflag, hlate⟩)
    refine .ite (fun _ => ?_) fun _ => ?_
    · exact ensures_send (by decide) (.inr ⟨rfl, hflag, hlate⟩)
    · exact ensures_send (by decide) (.inr ⟨hphase, hflag, hlate⟩)

theorem ensures_onResponse_joined (hphase : s.fsm.phase = .joined) (hflag : s.app.scanReqSent = 0) :
    Ensures ZigbEvent.Plain (ScanCalm .joined) (s.onResponse r) := by
  have hlate {t : MainLoop} : ScanPhase.joined = .early → t.inner = none ∧ t.scanAttempts = 0 := by simp
  have hcalm : ScanCalm .joined s := .inr ⟨hphase, hflag, hlate⟩
  have hback : ScanCalm .joined (s.callback r) := .callback hphase hflag hlate
  have henter : ScanCalm .joined s.enterHandleData := .inr ⟨hphase, hflag, hlate⟩
  rw [MainLoop.onResponse]
  cases hs : s.fsm with
  | joinNetwork => exact ensures_onJoinResponse hphase hflag
  | zbConnected => exact .pure henter
  | zbRejoined => exact .pure henter
  | zbRejoinSend =>
    refine .ite (fun _ => ?_) fun _ => .pure hcalm
    exact .ite (fun _ => ensures_fail (by decide)) fun _ => .pure henter
  | zbHandleRouter =>
    refine .ite (fun _ => ?_) fun _ => .pure hback
    exact .ite (fun _ => ensures_fail (by decide)) fun _ => .pure hcalm
  | _ =>
    rw [hs] at hphase
    cases hphase

theorem ensures_onDataResponse (hphase : s.fsm.phase = .joined) (hflag : s.app.scanReqSent = 0) :
    Ensures ZigbEvent.Plain (ScanCalm .joined) (s.onDataResponse d r) := by
  have hlate {t : MainLoop} : ScanPhase.joined = .early → t.inner = none ∧ t.scanAttempts = 0 := by simp
  have hcalm : ScanCalm .joined s := .inr ⟨hphase, hflag, hlate⟩
  rw [MainLoop.onDataResponse]
  refine .ite (fun _ => ?_) fun _ => .ite (fun _ => ?_) fun _ => ensures_fail (by decide)
  · refine .ite (fun _ => ?_) fun _ => .pure (.callback hphase hflag hlate)
    refine .ite (fun _ => ensures_send (by decide) (.inr ⟨rfl, hflag, hlate⟩)) fun _ => ?_
    refine .ite (fun _ => ?_) fun _ => .pure (.inr ⟨hphase, hflag, hlate⟩)
    refine .ite (fun _ => ?_) fun _ => ensures_fail (by decide)
    exact ensures_send (by decide) (.inr ⟨rfl, hflag, hlate⟩)
  · refine .ite (fun _ => ?_) fun _ => ?_
    · exact .ite (fun _ => ensures_fail (by decide)) fun _ => .pure (.inr ⟨hphase, hflag, hlate⟩)
    · refine .ite (fun _ => ?_) fun _ => .pure hcalm
      exact .ite (fun _ => ensures_fail (by decide)) fun _ => .pure (.inr ⟨hphase, hflag, hlate⟩)

theorem ensures_onDataIdle (hphase : s.fsm.phase = .joined) (hflag : s.app.scanReqSent = 0) :
    Ensures ZigbEvent.Plain (ScanCalm .joined) (s.onDataIdle d) := by
  have hlate {t : MainLoop} : ScanPhase.joined = .early → t.inner = none ∧ t.scanAttempts = 0 := by simp
  have hcalm : ScanCalm .joined s := .inr ⟨hphase, hflag, hlate⟩
  rw [MainLoop.onDataIdle]
  refine .ite (fun _ => .ite (fun _ => ?_) fun _ => ?_) fun _ => .ite (fun _ => .pure hcalm) fun _ => ?_
  · refine .ite (fun _ => ensures_fail (by decide)) fun _ => ?_
    refine .ite (fun _ => ?_) fun _ => .pure (.inr ⟨hphase, hflag, hlate⟩)
    exact ensures_send (by decide) (.inr ⟨hphase, hflag, hlate⟩)
  · exact ensures_send (by simp) (.inr ⟨hphase, hflag, hlate⟩)
  · exact .ite (fun _ => ensures_send (by simp) (.inr ⟨hphase, hflag, hlate⟩)) fun _ => .pure hcalm

end ScanCalm

/-- After what the iteration does the policy holds, and so does the invariant if the loop goes on. -/
def Keeps (past : List ZigbEvent) (x : Calls ZigbEvent MainLoop) : Prop :=
  ∃ t, x.result = some t ∧ ScanPolicy (x.log.reverse ++ past) ∧
    (t.returned = none → ScanInv t (x.log.reverse ++ past))

section Steps

variable {s : MainLoop} {past : List ZigbEvent} {r : ZigbRsp} {x : Calls ZigbEvent MainLoop}

theorem keeps_emit {e : ZigbEvent} : Keeps past (do emit e; x) ↔ Keeps (e :: past) x := by
  rw [Keeps, Keeps, bind_of_result rfl]
  simp [emit]

theorem keeps_pure (hpolicy : ScanPolicy past) (h : ScanInv s past) : Keeps past (pure s) :=
  ⟨s, rfl, hpolicy, fun _ => h⟩

theorem keeps_fail {why : ZigbFailure} (h : ScanPolicy (.returned why :: past)) : Keeps past (s.fail why) :=
  ⟨_, rfl, h, fun hnone => by cases hnone⟩

theorem keeps_fail_of_ne {why : ZigbFailure} (h : why ≠ .networkNotFound) (hpolicy : ScanPolicy past) :
    Keeps past (s.fail why) := by
  have hplain : (ZigbEvent.returned why).Plain := h
  exact keeps_fail ((carries_of_plain hplain).policy hpolicy)

theorem keeps_of_calm {p : ScanPhase} (hx : Ensures ZigbEvent.Plain (ScanCalm p) x)
    (hp : p = .early ∨ p = .joined) (hpolicy : ScanPolicy past) (hout : scansOutstanding past = 0)
    (hrequests : scanRequests past = 0) : Keeps past x := by
  obtain ⟨hlog, t, ht, hcalm⟩ := hx
  have hcarries : Carries past (x.log.reverse ++ past) := carries_log hlog
  refine ⟨t, ht, hcarries.policy hpolicy, fun hnone => ?_⟩
  obtain ⟨hphase, hflag, hfirst⟩ := hcalm.resolve_left (not_not.mpr hnone)
  have hout' := hcarries.outstanding.trans hout
  have hrequests' := hcarries.requests.trans hrequests
  rw [ScanInv, hphase]
  rcases hp with rfl | rfl
  · exact ⟨(hfirst rfl).1, (hfirst rfl).2, hflag, hout', hrequests'⟩
  · exact ⟨hflag, hout', hrequests'⟩

theorem keeps_initiateScan (hpolicy : ScanPolicy past) (hinner : s.inner = none)
    (hout : scansOutstanding past = 0) (hrequests : scanRequests past = s.scanAttempts)
    (hle : s.scanAttempts ≤ MainLoop.maxScanAttempts) : Keeps past s.initiateScan := by
  have hone : scansOutstanding (.sent .initiateScan :: past) = 1 := congrArg (· + 1) hout
  have hnext : scanRequests (.sent .initiateScan :: past) = s.scanAttempts + 1 := congrArg (· + 1) hrequests
  have hflag : (1 : UInt8) ≠ 0 := by decide
  have horderly : Orderly (.sent .initiateScan :: past) :=
    .of_cons hone.le (hnext.trans_le (Nat.succ_le_succ hle)) (by simp)
  have hpolicy' := scanPolicy_cons.mpr ⟨.of_cons horderly (by simp), hpolicy⟩
  exact ⟨_, rfl, hpolicy', fun _ => ⟨hinner, hflag, hone, hnext, hle⟩⟩

theorem keeps_join (hpolicy : ScanPolicy past) (hflag : s.app.scanReqSent = 0)
    (hout : scansOutstanding past = 0) (hscanned : Scanned past) :
    Keeps past (do zigbSend .joinNetwork; pure { s with fsm := .joinNetwork }) := by
  have horderly : Orderly (.sent .joinNetwork :: past) :=
    .of_cons hpolicy.now.outstanding (Nat.zero_le _) fun _ => hscanned
  have hpolicy' := scanPolicy_cons.mpr ⟨.of_cons horderly (by simp), hpolicy⟩
  exact ⟨_, rfl, hpolicy', fun _ => ⟨hflag, hout, rfl⟩⟩

theorem orderly_notFound (hpolicy : ScanPolicy past) : Orderly (.returned .networkNotFound :: past) :=
  .of_cons hpolicy.now.outstanding hpolicy.now.requests (by simp)

theorem keeps_notFound (hpolicy : ScanPolicy past) (hout : scansOutstanding past = 0) :
    Keeps past (s.fail .networkNotFound) :=
  keeps_fail (scanPolicy_cons.mpr ⟨.of_cons (orderly_notFound hpolicy) fun _ => hout, hpolicy⟩)

theorem scanPolicy_received {r : Option ZigbRsp} (h : ScanPolicy past) :
    ScanPolicy (.received r :: past) := by
  have hone := h.now.outstanding
  have hout : scansOutstanding (.received r :: past) ≤ 1 := by
    cases r with
    | none => exact hone
    | some r =>
      rw [scansOutstanding]
      split_ifs <;> omega
  exact scanPolicy_cons.mpr ⟨.of_cons (.of_cons hout h.now.requests (by simp)) (by simp), h⟩

/-- What a response in a scan does to the variables of the invariant. -/
theorem handleScanState_cases (s : MainLoop) (r : ZigbRsp) :
    (r.isScanComplete = true ∧ ∃ t, s.handleScanState r = some t ∧ t.fsm = .scanDone ∧ t.inner = s.inner ∧
        t.scanAttempts = s.scanAttempts ∧ t.app.scanReqSent = 0) ∨
      r.isScanComplete = false ∧ ∀ t, s.handleScanState r = some t →
        t.fsm = s.fsm ∧ t.inner = s.inner ∧ t.scanAttempts = s.scanAttempts ∧
          t.app.scanReqSent = s.app.scanReqSent := by
  rw [MainLoop.handleScanState, ZigbRsp.isScanComplete]
  by_cases hintf : r.intfId = 6
  · by_cases hcmd : r.cmdId = 0x4b
    · rw [if_pos hintf, if_pos hcmd]
      exact .inl ⟨by simp [hintf, hcmd], _, rfl, rfl, rfl, rfl, flag_callback rfl⟩
    · rw [if_pos hintf, if_neg hcmd]
      refine .inr ⟨by simp [hcmd], fun t ht => ?_⟩
      cases ht
      refine ⟨rfl, rfl, rfl, (scanReqSent_callback s.app r).trans (if_neg hcmd)⟩
  · rw [if_neg hintf]
    refine .inr ⟨by simp [hintf], fun t ht => ?_⟩
    split_ifs at ht
    cases ht
    exact ⟨rfl, rfl, rfl, rfl⟩

theorem ScanInv.carries {later : List ZigbEvent} (h : ScanInv s past) (hc : Carries past later) :
    ScanInv s later := by
  rw [ScanInv] at h ⊢
  cases hphase : s.fsm.phase with
  | scanned =>
    rw [hphase] at h
    obtain ⟨hinner, hflag, hout, hcounted, hscanned⟩ := h
    rw [← hc.outstanding] at hout
    rw [Counted, ← hc.requests] at hcounted
    exact ⟨hinner, hflag, hout, hcounted, hc.scanned hscanned⟩
  | _ =>
    rw [hphase] at h
    dsimp only [Counted] at h ⊢
    rw [hc.outstanding, hc.requests]
    exact h

/-- The invariant looks at four variables. -/
theorem ScanInv.congr {t : MainLoop} (h : ScanInv s past) (hfsm : t.fsm = s.fsm) (hinner : t.inner = s.inner)
    (hattempts : t.scanAttempts = s.scanAttempts) (hflag : t.app.scanReqSent = s.app.scanReqSent) :
    ScanInv t past := by
  rw [ScanInv, hfsm, hinner, hattempts, hflag, Counted, hattempts]
  exact h

theorem ScanInv.in_scan (h : ScanInv s past) (hphase : s.fsm.phase = .scanning ∨ s.fsm.phase = .scanned) :
    s.inner = none ∧ Counted s past ∧
      (scansOutstanding past = 1 ∨ scansOutstanding past = 0 ∧ Scanned past) := by
  rw [ScanInv] at h
  rcases hphase with hphase | hphase
  · rw [hphase] at h
    exact ⟨h.1, h.2.2.2, .inl h.2.2.1⟩
  · rw [hphase] at h
    exact ⟨h.1, h.2.2.2.1, .inr ⟨h.2.2.1, h.2.2.2.2⟩⟩

/-- A response in a scan. -/
theorem keeps_handleScanState (hpolicy : ScanPolicy past) (hinv : ScanInv s past)
    (hphase : s.fsm.phase = .scanning ∨ s.fsm.phase = .scanned) :
    Keeps (.received (some r) :: past)
      (match s.handleScanState r with
        | none => s.fail .scanState
        | some s => pure s) := by
  have hpolicy' : ScanPolicy (.received (some r) :: past) := scanPolicy_received hpolicy
  rcases handleScanState_cases s r with ⟨hdone, t, ht, hfsm, hinner, hattempts, hflag⟩ | ⟨hnot, hsame⟩
  · obtain ⟨hnone, hcounted, hscan⟩ := hinv.in_scan hphase
    have hout : scansOutstanding (.received (some r) :: past) = 0 := by
      rw [scansOutstanding, if_pos hdone]
      omega
    have hscanned : Scanned (.received (some r) :: past) := by
      rcases hscan with hone | ⟨-, hscanned⟩
      · exact .inl ⟨hdone, by omega⟩
      · exact .inr hscanned
    have hcounted' : Counted t (.received (some r) :: past) := by
      rw [Counted, hattempts]
      exact hcounted
    rw [ht]
    refine keeps_pure hpolicy' ?_
    rw [ScanInv, hfsm]
    exact ⟨hinner.trans hnone, hflag, hout, hcounted', hscanned⟩
  · have hcarries : Carries past (.received (some r) :: past) :=
      carries_received (.inr fun r' hr' => by cases hr'; exact hnot)
    cases ht : s.handleScanState r with
    | none => exact keeps_fail_of_ne (by decide) hpolicy'
    | some t =>
      obtain ⟨hfsm, hinner, hattempts, hflag⟩ := hsame t ht
      exact keeps_pure hpolicy' ((hinv.carries hcarries).congr hfsm hinner hattempts hflag)

theorem ZigbFsm.eq_of_scanning {fsm : ZigbFsm} (h : fsm.phase = .scanning) : fsm = .initScan := by
  cases fsm with
  | initScan => rfl
  | _ => cases h

theorem ZigbFsm.eq_of_scanned {fsm : ZigbFsm} (h : fsm.phase = .scanned) : fsm = .scanDone := by
  cases fsm with
  | scanDone => rfl
  | _ => cases h

theorem onIdle_of_phase (h : s.fsm.phase = .early ∨ s.fsm.phase = .joined) : s.onIdle = pure s := by
  have hdone : s.fsm ≠ .scanDone := fun heq => by rw [heq] at h; revert h; decide
  have hscan : s.fsm ≠ .initScan := fun heq => by rw [heq] at h; revert h; decide
  rw [MainLoop.onIdle, if_neg hdone, if_neg hscan]

theorem keeps_response (hpolicy : ScanPolicy past) (hinv : ScanInv s past) :
    Keeps past (s.iterate (.response (some r))) := by
  have hpolicy' : ScanPolicy (.received (some r) :: past) := scanPolicy_received hpolicy
  rw [MainLoop.iterate, keeps_emit]
  cases hphase : s.fsm.phase with
  | early =>
    rw [ScanInv, hphase] at hinv
    obtain ⟨hinner, hattempts, hflag, hout, hrequests⟩ := hinv
    have hcarries : Carries past (.received (some r) :: past) := carries_received (.inl hout)
    have hout' := hcarries.outstanding.trans hout
    rw [hinner]
    dsimp only
    by_cases hfsm : s.fsm = .initEnddevRouter
    · rw [MainLoop.onResponse, hfsm]
      dsimp only
      rw [if_pos hflag]
      split_ifs
      · exact keeps_fail_of_ne (by decide) hpolicy'
      · have hzero : scanRequests (.received (some r) :: past) = s.scanAttempts :=
          hrequests.trans hattempts.symm
        exact keeps_initiateScan hpolicy' hinner hout' hzero (by omega)
      · exact keeps_fail_of_ne (by decide) hpolicy'
    · exact keeps_of_calm (ensures_onResponse_early hphase hfsm ⟨hinner, hattempts⟩ hflag) (.inl rfl) hpolicy'
        hout' hrequests
  | scanning =>
    rw [(hinv.in_scan (.inl hphase)).1, MainLoop.onResponse, ZigbFsm.eq_of_scanning hphase]
    exact keeps_handleScanState hpolicy hinv (.inl hphase)
  | scanned =>
    rw [(hinv.in_scan (.inr hphase)).1, MainLoop.onResponse, ZigbFsm.eq_of_scanned hphase]
    exact keeps_handleScanState hpolicy hinv (.inr hphase)
  | joined =>
    rw [ScanInv, hphase] at hinv
    obtain ⟨hflag, hout, hrequests⟩ := hinv
    have hcarries : Carries past (.received (some r) :: past) := carries_received (.inl hout)
    have hout' := hcarries.outstanding.trans hout
    cases hinner : s.inner with
    | none => exact keeps_of_calm (ensures_onResponse_joined hphase hflag) (.inr rfl) hpolicy' hout' hrequests
    | some d => exact keeps_of_calm (ensures_onDataResponse hphase hflag) (.inr rfl) hpolicy' hout' hrequests

theorem keeps_idle (hpolicy : ScanPolicy past) (hinv : ScanInv s past) (hok : awaits ⟨s, past⟩ .idle) :
    Keeps past (s.iterate .idle) := by
  rw [MainLoop.iterate]
  cases hphase : s.fsm.phase with
  | early =>
    have hinv' := hinv
    rw [ScanInv, hphase] at hinv'
    rw [hinv'.1]
    dsimp only
    rw [onIdle_of_phase (.inl hphase)]
    exact keeps_pure hpolicy hinv
  | scanning =>
    have hfsm := ZigbFsm.eq_of_scanning hphase
    have hinv' := hinv
    rw [ScanInv, hphase] at hinv'
    obtain ⟨hinner, hflag, -, -⟩ := hinv'
    -- the attempts are not used up, or the guard would not hold
    have hless : ¬ s.scanAttempts ≥ MainLoop.maxScanAttempts := by simpa [awaits, hinner, hfsm] using hok
    have hdone : s.fsm ≠ .scanDone := by simp [hfsm]
    rw [hinner]
    dsimp only
    rw [MainLoop.onIdle, if_neg hdone, if_pos hfsm, if_neg hless, if_neg hflag]
    exact keeps_pure hpolicy hinv
  | scanned =>
    have hfsm := ZigbFsm.eq_of_scanned hphase
    rw [ScanInv, hphase] at hinv
    obtain ⟨hinner, hflag, hout, ⟨hrequests, hle⟩, hscanned⟩ := hinv
    rw [hinner]
    dsimp only
    rw [MainLoop.onIdle, if_pos hfsm, if_pos hflag]
    split_ifs with hlast
    · exact keeps_notFound hpolicy hout
    · exact keeps_join hpolicy hflag hout hscanned
    · exact keeps_initiateScan hpolicy hinner hout hrequests (Nat.not_le.mp hlast)
  | joined =>
    cases hinner : s.inner with
    | none =>
      dsimp only
      rw [onIdle_of_phase (.inr hphase)]
      exact keeps_pure hpolicy hinv
    | some d =>
      rw [ScanInv, hphase] at hinv
      obtain ⟨hflag, hout, hrequests⟩ := hinv
      exact keeps_of_calm (ensures_onDataIdle hphase hflag) (.inr rfl) hpolicy hout hrequests

end Steps

namespace ZigbRun

variable {s t : ZigbRun} {a : MainInput}

theorem step_eq_some (h : s.step a = some t) :
    s.main.returned = none ∧ ∃ main, (s.main.iterate a).result = some main ∧
      t = ⟨main, (s.main.iterate a).log.reverse ++ s.past⟩ := by
  rw [step] at h
  split_ifs at h with hreturned
  obtain ⟨main, hmain, rfl⟩ := Option.map_eq_some_iff.mp h
  exact ⟨Option.not_isSome_iff_eq_none.mp hreturned, main, hmain, rfl⟩

/-- The policy holds, and so does the invariant until the loop returns. -/
structure Obedient (s : ZigbRun) : Prop where
  policy : ScanPolicy s.past
  inv : s.main.returned = none → ScanInv s.main s.past

theorem Obedient.step (h : s.Obedient) (hok : awaits s a) (hstep : s.step a = some t) : t.Obedient := by
  obtain ⟨hnone, main, hmain, rfl⟩ := step_eq_some hstep
  have hkeeps : Keeps s.past (s.main.iterate a) := by
    cases a with
    | idle => exact keeps_idle h.policy (h.inv hnone) hok
    | response r =>
      cases r with
      | none => exact keeps_emit.mpr (keeps_fail_of_ne (by decide) (scanPolicy_received h.policy))
      | some r => exact keeps_response h.policy (h.inv hnone)
  obtain ⟨main', hmain', hpolicy, hinv⟩ := hkeeps
  rw [hmain] at hmain'
  cases hmain'
  exact ⟨hpolicy, hinv⟩

/-- An iteration without a packet returns while the last scan request is outstanding. -/
theorem Obedient.gives_up (h : s.Obedient) (hno : ¬ awaits s a) (hstep : s.step a = some t) :
    t.main.returned = some .networkNotFound ∧ t.past = .returned .networkNotFound :: s.past ∧
      scansOutstanding s.past = 1 := by
  obtain ⟨hnone, main, hmain, rfl⟩ := step_eq_some hstep
  cases a with
  | response r => exact absurd rfl hno
  | idle =>
    have hlast : s.main.inner = none ∧ s.main.fsm = .initScan ∧
        s.main.scanAttempts ≥ MainLoop.maxScanAttempts := by
      simpa [awaits, and_assoc] using hno
    obtain ⟨hinner, hfsm, hattempts⟩ := hlast
    have hinv := h.inv hnone
    rw [ScanInv, hfsm] at hinv
    obtain ⟨-, -, hone, -, -⟩ := hinv
    have hdone : s.main.fsm ≠ .scanDone := by simp [hfsm]
    have hiterate : s.main.iterate .idle = s.main.fail .networkNotFound := by
      rw [MainLoop.iterate, hinner]
      dsimp only
      rw [MainLoop.onIdle, if_neg hdone, if_pos hfsm, if_pos hattempts]
    rw [hiterate] at hmain ⊢
    cases hmain
    exact ⟨rfl, rfl, hone⟩

theorem Obedient.lost (h : s.Obedient) (hno : ¬ awaits s a) (hstep : s.step a = some t) :
    ¬ ScanPolicy t.past := by
  obtain ⟨-, hpast, hone⟩ := h.gives_up hno hstep
  rw [hpast]
  have hout : scansOutstanding s.past ≠ 0 := hone ▸ Nat.one_ne_zero
  exact not_scanPolicy_of_lostScan (decide_eq_true hout)

/-- The scans are orderly at every time, and until the loop returns it has kept the policy. -/
structure Supervised (s : ZigbRun) : Prop where
  orderly : ∀ time, time <:+ s.past → Orderly time
  obedient : s.main.returned = none → s.Obedient

theorem Supervised.step (h : s.Supervised) (hstep : s.step a = some t) : t.Supervised := by
  have hs := h.obedient (step_eq_some hstep).1
  by_cases hok : awaits s a
  · have ht := hs.step hok hstep
    exact ⟨fun time htime => (ht.policy time htime).toOrderly, fun _ => ht⟩
  · obtain ⟨hreturned, hpast, -⟩ := hs.gives_up hok hstep
    refine ⟨fun time htime => ?_, fun hnone => ?_⟩
    · rw [hpast] at htime
      rcases List.suffix_cons_iff.mp htime with rfl | htime
      · exact orderly_notFound hs.policy
      · exact h.orderly time htime
    · rw [hreturned] at hnone
      cases hnone

end ZigbRun

theorem zigbStart_obedient (app : ZigbApp) (deviceType : UInt8) (networkDown : Nat)
    (waitForRsp skipCardReady : Bool) :
    (zigbStart app deviceType networkDown waitForRsp skipCardReady).Obedient := by
  have hnil : ScanPolicy [] := by
    intro time htime
    rw [List.suffix_nil.mp htime]
    exact ⟨⟨Nat.zero_le 1, Nat.zero_le _, by simp⟩, by simp⟩
  cases skipCardReady with
  | false => exact ⟨hnil, fun _ => ⟨rfl, rfl, rfl, rfl, rfl⟩⟩
  | true =>
    have hcarries : Carries [] [.sent .initStack] := carries_of_plain (by simp [ZigbEvent.Plain])
    exact ⟨hcarries.policy hnil, fun _ => ⟨rfl, rfl, rfl, rfl, rfl⟩⟩

/-- In every run the scans are orderly at every time. -/
theorem scans_orderly {app : ZigbApp} {deviceType : UInt8} {networkDown : Nat}
    {waitForRsp skipCardReady : Bool} {as : List MainInput} {t : ZigbRun}
    (hrun : run ZigbRun.step (zigbStart app deviceType networkDown waitForRsp skipCardReady) as = some t) :
    ∀ time, time <:+ t.past → Orderly time := by
  have hstart := zigbStart_obedient app deviceType networkDown waitForRsp skipCardReady
  have hsupervised : t.Supervised := by
    refine run_preserves ZigbRun.Supervised.step ⟨fun time htime => ?_, fun _ => hstart⟩ hrun
    exact (hstart.policy time htime).toOrderly
  exact hsupervised.orderly

/-- The policy is kept in exactly the runs in which the last scan is waited for. -/
theorem scanPolicy_iff_awaits {app : ZigbApp} {deviceType : UInt8} {networkDown : Nat}
    {waitForRsp skipCardReady : Bool} {as : List MainInput} {t : ZigbRun}
    (hrun : run ZigbRun.step (zigbStart app deviceType networkDown waitForRsp skipCardReady) as = some t) :
    ScanPolicy t.past ↔
      Meets ZigbRun.step awaits (zigbStart app deviceType networkDown waitForRsp skipCardReady) as := by
  symm
  refine (meets_iff_not_marked (M := fun s => ¬ ScanPolicy s.past) ZigbRun.Obedient.step ZigbRun.Obedient.lost
    (fun {s a t} hlost hstep => ?_) (zigbStart_obedient ..) hrun fun h => not_not.mpr h.policy).trans not_not
  obtain ⟨-, main, -, rfl⟩ := ZigbRun.step_eq_some hstep
  exact fun hpolicy => hlost hpolicy.of_append

def reply (intfId cmdId : UInt8) (payload : List UInt8) : MainInput :=
  .response (some ⟨intfId, cmdId, fun i => payload.getD i 0⟩)

/-- The responses of an end device, up to the first scan request. -/
def bringUp : List MainInput :=
  [reply 7 0xff [], reply 7 0x61 [], reply 7 0x62 [], reply 7 0x65 [], reply 7 0x66 [], reply 1 0x0c [],
    reply 1 0x14 [0, 2], reply 1 0x4a [0]]

/-- A scan that completes without a beacon, and the iteration that sends the next request. -/
def emptyScan : List MainInput := [reply 6 0x4b [0, 0, 0, 0, 1], .idle]

/-- The first scan finds a network, and a join request is sent. -/
theorem first_scan_joins :
    ∃ t, run ZigbRun.step (zigbStart .init 0 0 false false)
        (bringUp ++ [reply 6 0x4b [0, 0, 0, 0, 0], .idle]) = some t ∧
      t.main.fsm = .joinNetwork ∧ ScanPolicy t.past := by
  have hmeets : Meets ZigbRun.step awaits (zigbStart .init 0 0 false false)
      (bringUp ++ [reply 6 0x4b [0, 0, 0, 0, 0], .idle]) := by decide +kernel
  exact exists_run_and (by decide +kernel) fun t hrun => (scanPolicy_iff_awaits hrun).mpr hmeets

/-- Five scans find nothing. The sixth request has been sent when an iteration finds no packet. -/
theorem sixth_scan_abandoned :
    ∃ t, run ZigbRun.step (zigbStart .init 0 0 false false)
        (bringUp ++ (emptyScan ++ emptyScan ++ emptyScan ++ emptyScan ++ emptyScan) ++ [.idle]) = some t ∧
      ¬ ScanPolicy t.past := by
  have hlost : ∃ t, run ZigbRun.step (zigbStart .init 0 0 false false)
        (bringUp ++ (emptyScan ++ emptyScan ++ emptyScan ++ emptyScan ++ emptyScan) ++ [.idle]) = some t ∧
      lostScan t.past = true := exists_run (by decide +kernel)
  obtain ⟨t, hrun, hlost⟩ := hlost
  exact ⟨t, hrun, not_scanPolicy_of_lostScan hlost⟩

end Onebox
