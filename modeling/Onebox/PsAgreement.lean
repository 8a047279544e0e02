import Onebox.PsEvents

/-! `PS_STATE` agrees with the requests under way as long as no requests cross,
and no confirm of a sleep request is missed as long as none comes between the
write of a frame and the state change after it. -/

namespace Onebox

def PsSys.unconfirmed (s : PsSys) : List PsFrame := s.vap.mgmtQ ++ s.inFlight

def PsSys.lastUnconfirmed (s : PsSys) : Option PsRequest :=
  (s.unconfirmed.find? fun f => f.seq + 1 = s.vap.built).map PsFrame.request

structure Agreement (s : PsSys) : Prop where
  sleep : (s.vap.psState = .enReqQueued ∨ s.vap.psState = .enReqSent) ↔ s.lastUnconfirmed = some .sleep
  wakeup : s.vap.psState = .disReqSent ↔ s.lastUnconfirmed = some .wakeup
  atMostOne : s.unconfirmed.length ≤ 1

theorem Quiescent.unconfirmed {s : PsSys} (h : Quiescent s) : s.unconfirmed = [] := by
  simp [PsSys.unconfirmed, h.queue, h.inFlight]

theorem Outstanding.unconfirmed {s : PsSys} {f : PsFrame} (h : Outstanding s f) : s.unconfirmed = [f] := by
  rcases h.place with ⟨hq, hin, -⟩ | ⟨hq, hin, -⟩ <;> simp [PsSys.unconfirmed, hq, hin]

theorem Outstanding.lastUnconfirmed {s : PsSys} {f : PsFrame} (h : Outstanding s f) :
    s.lastUnconfirmed = some f.request := by
  simp [PsSys.lastUnconfirmed, h.unconfirmed, h.last]

theorem Handshake.agreement {s : PsSys} (h : Handshake True s) : Agreement s := by
  have idle : Quiescent s → s.lastUnconfirmed = none := fun hq => by
    simp [PsSys.lastUnconfirmed, hq.unconfirmed]
  cases hst : s.vap.psState <;> simp only [Handshake, hst] at h
  case none | devInPwrSve =>
    refine ⟨?_, ?_, by simp [h.unconfirmed]⟩ <;> simp [hst, idle h]
  case enReqQueued | enReqSent =>
    obtain ⟨f, hk, ho, -⟩ := h
    refine ⟨?_, ?_, by simp [ho.unconfirmed]⟩ <;> simp [hst, ho.lastUnconfirmed, hk]
  case disReqSent =>
    obtain ⟨f, hk, ho⟩ := h.resolve_right fun hns => hns.1 trivial
    refine ⟨?_, ?_, by simp [ho.unconfirmed]⟩ <;> simp [hst, ho.lastUnconfirmed, hk]

inductive PsCall
  | event (e : PsEvent)
  | dequeue
  deriving DecidableEq, Repr

def PsSys.call (s : PsSys) : PsCall → Option PsSys
  | .event e => s.event e
  | .dequeue => s.write.bind PsSys.mark

/-- No timer expiry asks for power save while an `ioctl` that ends it is still pending. -/
def PsSys.uncrossed (s : PsSys) : PsCall → Bool
  | .event (.timer vapInUse bgscanOk) => !s.vap.crosses (s.vap.timerAsks vapInUse bgscanOk)
  | _ => true

theorem PsSys.call_tx {s t : PsSys} {c : PsCall} (h : s.tx = none) (hs : s.call c = some t) :
    t.tx = none := by
  cases c with
  | dequeue =>
    obtain ⟨u, -, hu⟩ := Option.bind_eq_some_iff.mp hs
    obtain ⟨f, -, rfl⟩ := Option.map_eq_some_iff.mp hu
    rfl
  | event e =>
    revert hs
    simp only [PsSys.call]
    fun_cases PsSys.event s e <;> rintro ⟨⟩ <;> exact h

theorem PsInv.call {s t : PsSys} {c : PsCall} (h : PsInv True s) (htx : s.tx = none)
    (hok : s.uncrossed c) (hs : s.call c = some t) : PsInv True t := by
  cases c with
  | event e =>
    refine h.event (fun _ => htx) ?_ hs
    rintro vapInUse bgscanOk rfl -
    simpa [PsSys.uncrossed] using hok
  | dequeue =>
    obtain ⟨u, hw, hm⟩ := Option.bind_eq_some_iff.mp hs
    exact (h.write hw).mark hm

/-- The handshake agrees with `PS_STATE` after every event, as long as no requests cross. -/
theorem ps_agreement {s t : PsSys} {cs : List PsCall} (h0 : PsStart s)
    (hok : Machine.Meets PsSys.call PsSys.uncrossed s cs) (hrun : Machine.run PsSys.call s cs = some t) :
    Agreement t := by
  have hinv : PsInv True t ∧ t.tx = none :=
    Machine.run_invariant (I := fun s => PsInv True s ∧ s.tx = none)
      (fun h hok hs => ⟨h.1.call h.2 hok hs, PsSys.call_tx h.2 hs⟩) ⟨h0.psInv, h0.tx⟩ hok hrun
  exact hinv.1.handshake.agreement

section Traces

def psOff : PwrSaveParams :=
  { psEn := false, sleepType := 1, txThreshold := 0, rxThreshold := 0, txHysterisis := 0,
    rxHysterisis := 0, monitorInterval := 0, listenInterval := 0, numBeaconsPerListenInterval := 0,
    dtimIntervalDuration := 0, numDtimsPerSleep := 0, deepSleepWakeupPeriod := 100, padding := 0 }

def psOn : PwrSaveParams := { psOff with psEn := true }

def freshVap : PsVap :=
  { ivState := .init, fScan := false, connInProg := false, roamInd := false, scNvaps := 1, jiffies := 1,
    psState := .none, updateTa := false, delayPwrSveDecision := false, disablePsForChangeInParams := false,
    delayStaSupportDecision := false, psParams := psOff, psParamsIoctl := psOff, txDataload := 0,
    rxDataload := 0, jiffiesPrev := 0, mgmtQ := [], built := 0 }

def freshPs : PsSys := ⟨freshVap, none, []⟩

theorem psStart_freshPs : PsStart freshPs := ⟨rfl, rfl, rfl, rfl, rfl⟩

def psOnOff : List PsCall :=
  [.event (.ioctl psOn), .dequeue, .event .confirm, .event (.ioctl psOff), .dequeue, .event .confirm]

def psCrossed : List PsCall :=
  [.event (.ioctl psOn), .dequeue, .event .confirm, .event .scanEnd, .event (.ioctl psOff),
    .event (.timer true true)]

end Traces

theorem ps_agreement_onOff :
    PsStart freshPs ∧ Machine.Meets PsSys.call PsSys.uncrossed freshPs psOnOff ∧
      ∃ t, Machine.run PsSys.call freshPs psOnOff = some t ∧ Agreement t := by
  have hok : Machine.Meets PsSys.call PsSys.uncrossed freshPs psOnOff := by decide
  exact ⟨psStart_freshPs, hok, _, rfl, ps_agreement psStart_freshPs hok rfl⟩

theorem ps_disagreement_crossed :
    PsStart freshPs ∧ ∃ t, Machine.run PsSys.call freshPs psCrossed = some t ∧
      t.vap.psState = .disReqSent ∧ t.lastUnconfirmed = some .sleep ∧ ¬ Agreement t := by
  refine ⟨psStart_freshPs, _, rfl, rfl, by decide, fun h => ?_⟩
  have hlast := h.wakeup.mp rfl
  revert hlast
  decide

/-- `PS_STATE` waits for the confirm of a sleep request, and there is none to come. -/
def SleepConfirmMissed (s : PsSys) : Prop :=
  (s.vap.psState = .enReqQueued ∨ s.vap.psState = .enReqSent) ∧ ∀ f ∈ s.unconfirmed, f.request ≠ .sleep

/-- The confirm does not come between the write of a frame and the state change after it. -/
def PsSys.confirmSettled (s : PsSys) : PsAct → Bool
  | .event .confirm => s.tx.isNone
  | _ => true

theorem PsInv.step {s t : PsSys} {a : PsAct} (h : PsInv False s) (hok : s.confirmSettled a)
    (hs : s.step a = some t) : PsInv False t := by
  cases a with
  | event e =>
    refine h.event ?_ (fun _ _ _ => False.elim) hs
    rintro rfl
    exact Option.isNone_iff_eq_none.mp hok
  | write => exact h.write hs
  | mark => exact h.mark hs

theorem Handshake.not_sleepConfirmMissed {strict : Prop} {s : PsSys} (h : Handshake strict s) :
    ¬ SleepConfirmMissed s := by
  rintro ⟨hst, hnone⟩
  have hsleep : ∃ f, f.request = .sleep ∧ Outstanding s f := by
    rcases hst with hst | hst <;> simp only [Handshake, hst] at h <;> obtain ⟨f, hk, ho, -⟩ := h <;>
      exact ⟨f, hk, ho⟩
  obtain ⟨f, hk, ho⟩ := hsleep
  exact hnone f (by simp [ho.unconfirmed]) hk

theorem sleep_confirm_not_missed {s t : PsSys} {as : List PsAct} (h0 : PsStart s)
    (hok : Machine.Meets PsSys.step PsSys.confirmSettled s as) (hrun : Machine.run PsSys.step s as = some t) :
    ¬ SleepConfirmMissed t := by
  have hinv : PsInv False t := Machine.run_invariant PsInv.step h0.psInv hok hrun
  exact hinv.handshake.not_sleepConfirmMissed

theorem sleep_confirm_not_missed_inOrder :
    PsStart freshPs ∧
      Machine.Meets PsSys.step PsSys.confirmSettled freshPs
        [.event (.ioctl psOn), .write, .mark, .event .confirm] ∧
      ∃ t, Machine.run PsSys.step freshPs [.event (.ioctl psOn), .write, .mark, .event .confirm] = some t ∧
        ¬ SleepConfirmMissed t := by
  have hok : Machine.Meets PsSys.step PsSys.confirmSettled freshPs
      [.event (.ioctl psOn), .write, .mark, .event .confirm] := by decide
  exact ⟨psStart_freshPs, hok, _, rfl, sleep_confirm_not_missed psStart_freshPs hok rfl⟩

/-- The confirm comes right after the write: it is ignored, and `PS_EN_REQ_SENT` stays. -/
theorem sleep_confirm_missed_early :
    PsStart freshPs ∧
      ∃ t, Machine.run PsSys.step freshPs [.event (.ioctl psOn), .write, .event .confirm, .mark] = some t ∧
        t.unconfirmed = [] ∧ SleepConfirmMissed t := by
  refine ⟨psStart_freshPs, _, rfl, rfl, .inr rfl, ?_⟩
  exact List.forall_mem_nil _

end Onebox
