import Onebox.PsAgreement

/-! A power-save ioctl that finds a request under way stays pending until the
confirm, which is meant to run the switch of the handler once more. -/

namespace Onebox

def PsRequest.opposite : PsRequest → PsRequest
  | .sleep => .wakeup
  | .wakeup => .sleep

/-- `PS_STATE` while the request is out. -/
def PsRequest.sentState : PsRequest → PsState
  | .sleep => .enReqSent
  | .wakeup => .disReqSent

/-- The confirm of `k` takes `v` to `u` with the parameters of the ioctl, and with the opposite request where
they ask for it. -/
structure IoctlApplied (v : PsVap) (k : PsRequest) (u : PsVap) : Prop where
  params : u.psParams = v.psParamsIoctl
  cleared : u.updateTa = false
  opposite : v.psParamsIoctl.psEn = decide (k = .wakeup) → Built v k.opposite u

namespace PsVap

variable {v : PsVap}

/-- The confirm goes straight to the switch. -/
theorem updatePwrSaveStatus_cnfm {k : PsRequest} (hn : v.scNvaps = 1) (hsent : v.psState = k.sentState) :
    v.updatePwrSaveStatus false k.cnfmPath = (v.psSwitch false k.cnfmPath false).1 := by
  have hstate : v.psState ≠ .none := by
    rw [hsent]
    cases k <;> decide
  cases k with
  | sleep => simp [updatePwrSaveStatus, PsRequest.cnfmPath, pwrSveEventHandler, hstate, hn, PsPath.isCnfm]
  | wakeup => simp [updatePwrSaveStatus, PsRequest.cnfmPath, pwrSveEventHandler, hstate, hn, PsPath.isCnfm]

theorem psSwitch_sleepCnfm (hsent : v.psState = .enReqSent) :
    (v.psSwitch false PsRequest.sleep.cnfmPath false).1 = v.confirmSleep := by
  simp only [psSwitch, PsRequest.cnfmPath, hsent, if_true]
  split
  · rfl
  · simp [caseDisReqSent]

theorem psSwitch_wakeupCnfm (hsent : v.psState = .disReqSent) (hidle : v.busy = false)
    (hta : v.updateTa = true) :
    (v.psSwitch false PsRequest.wakeup.cnfmPath false).1 = v.confirmWakeup.caseUpdateTa false false := by
  have hbusy : v.confirmWakeup.busy = false := hidle
  have hpending : v.confirmWakeup.updateTa = true := hta
  simp [psSwitch, PsRequest.cnfmPath, hsent, caseDisReqSent, hbusy, caseSettled, hpending]

theorem caseUpdateTa_wakeupCnfm (hn : v.scNvaps = 1) :
    IoctlApplied v .wakeup (v.confirmWakeup.caseUpdateTa false false) := by
  cases hen : v.psParamsIoctl.psEn with
  | false =>
    have hcase : v.confirmWakeup.caseUpdateTa false false = v.confirmWakeup.applyIoctl := by
      simp [caseUpdateTa, applyIoctl, confirmWakeup, hen]
    rw [hcase]
    exact ⟨rfl, rfl, by simp [hen]⟩
  | true =>
    have hcase : v.confirmWakeup.caseUpdateTa false false =
        (v.confirmWakeup.applyIoctl.sendPsParamsReq true false).setPsState .enReqQueued := by
      simp [caseUpdateTa, applyIoctl, confirmWakeup, hen]
    rw [hcase]
    have hunbuilt : Unbuilt v v.confirmWakeup.applyIoctl := ⟨rfl, rfl, rfl⟩
    have hone : v.confirmWakeup.applyIoctl.scNvaps < 2 := by
      show v.scNvaps < 2
      omega
    exact ⟨rfl, rfl, fun _ => hunbuilt.built_of (built_sleep hone _)⟩

end PsVap

/-- At the confirm of a request under way, the handler ends having applied the pending ioctl just when the
request was a wake-up. -/
theorem pending_ioctl_applied_iff {s : PsSys} {f : PsFrame} {fs : List PsFrame} (hin : s.inFlight = f :: fs)
    (hsent : s.vap.psState = f.request.sentState) (hn : s.vap.scNvaps = 1) (hta : s.vap.updateTa = true)
    (hidle : s.vap.busy = false) :
    (∃ n t, PsVap.psLoop false f.request.cnfmPath false n s.vap = some t.vap ∧
        s.step (.event .confirm) = some t ∧ IoctlApplied s.vap f.request t.vap) ↔
      s.vap.psState = .disReqSent := by
  have hcnfm := PsVap.updatePwrSaveStatus_cnfm hn hsent
  have hstep : s.step (.event .confirm) =
      some { s with vap := (s.vap.psSwitch false f.request.cnfmPath false).1, inFlight := fs } := by
    simp [PsSys.step, PsSys.event, hin, hcnfm]
  cases hk : f.request with
  | sleep =>
    rw [hk] at hsent hstep
    rw [hstep, PsVap.psSwitch_sleepCnfm hsent]
    constructor
    · rintro ⟨n, t, -, hs, happlied⟩
      cases hs
      -- the confirm leaves the ioctl pending
      have hpending : s.vap.confirmSleep.updateTa = true := hta
      exact absurd happlied.cleared (by simp [hpending])
    · intro hdis
      rw [hsent] at hdis
      cases hdis
  | wakeup =>
    rw [hk] at hsent hstep
    rw [PsVap.psSwitch_wakeupCnfm hsent hidle hta] at hstep
    refine ⟨fun _ => hsent, fun _ => ⟨1, _, ?_, hstep, PsVap.caseUpdateTa_wakeupCnfm hn⟩⟩
    rw [PsVap.psLoop_eq, PsVap.psSwitch_wakeupCnfm hsent hidle hta]

/-- Power save is switched off by an ioctl while the sleep request is out. -/
def offBeforeSleep : List PsAct := [.event (.ioctl psOn), .write, .mark, .event (.ioctl psOff)]

theorem pending_ioctl_kept :
    PsStart freshPs ∧ ∃ s f, Machine.run PsSys.step freshPs offBeforeSleep = some s ∧ s.inFlight = [f] ∧
      s.vap.psState = f.request.sentState ∧ s.vap.scNvaps = 1 ∧ s.vap.updateTa = true ∧
      s.vap.busy = false ∧
      ¬ ∃ n t, PsVap.psLoop false f.request.cnfmPath false n s.vap = some t.vap ∧
        s.step (.event .confirm) = some t ∧ IoctlApplied s.vap f.request t.vap := by
  refine ⟨psStart_freshPs, _, _, rfl, rfl, rfl, rfl, rfl, rfl, ?_⟩
  rintro ⟨n, t, -, hs, happlied⟩
  cases hs
  exact absurd happlied.cleared (by decide)

/-- The same ioctl, switched on again, while the wake-up is out. -/
def onBeforeWakeup : List PsAct :=
  [.event (.ioctl psOn), .write, .mark, .event .confirm, .event (.ioctl psOff), .write, .event (.ioctl psOn)]

theorem pending_ioctl_applied_wakeup :
    ∃ s f, Machine.run PsSys.step freshPs onBeforeWakeup = some s ∧ s.inFlight = [f] ∧
      ∃ n t, PsVap.psLoop false f.request.cnfmPath false n s.vap = some t.vap ∧
        s.step (.event .confirm) = some t ∧ IoctlApplied s.vap f.request t.vap :=
  ⟨_, _, rfl, rfl, (pending_ioctl_applied_iff rfl rfl rfl rfl rfl).mpr rfl⟩

end Onebox
