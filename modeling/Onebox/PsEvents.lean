import Onebox.PsHandshake

/-! Every event and every step of the transmit thread keeps the power-save
handshake. -/

namespace Onebox

section Vap

variable {strict : Prop} {v u : PsVap} {tx : Option PsFrame} {inFlight : List PsFrame}

theorem PsInv.unbuilt (h : PsInv strict ⟨v, tx, inFlight⟩) (hu : Unbuilt v u)
    (hs : u.psState = v.psState) : PsInv strict ⟨u, tx, inFlight⟩ :=
  ⟨hu.nvaps.trans h.oneVap, h.handshake.unbuilt hu hs⟩

theorem PsInv.handler {status : Bool} {path : PsPath} (toHead : Bool) (h : PsInv strict ⟨v, tx, inFlight⟩)
    (hp : path.isCnfm = false) (hm : path = .mgmtPending → status = false) (hd : path ≠ .psEnDequeued)
    (hc : strict → v.crosses status = false) :
    PsInv strict ⟨v.pwrSveEventHandler status path toHead, tx, inFlight⟩ := by
  have hone : v.scNvaps < 2 := by
    have := h.oneVap
    simp_all
  have hmove : PsMove v status path (v.pwrSveEventHandler status path toHead) :=
    PsVap.pwrSveEventHandler_move hone hm hd
  exact ⟨hmove.nvaps.trans h.oneVap, h.handshake.move hmove hp hc⟩

theorem PsVap.crosses_false (v : PsVap) : v.crosses false = false := by
  simp [PsVap.crosses]

theorem PsVap.crosses_ioctl (v : PsVap) : v.crosses v.psParamsIoctl.psEn = false := by
  cases h : v.psParamsIoctl.psEn <;> simp [PsVap.crosses, h]

theorem PsInv.update {status : Bool} {path : PsPath} (h : PsInv strict ⟨v, tx, inFlight⟩)
    (hp : path.isCnfm = false) (hd : path ≠ .psEnDequeued)
    (hc : strict → path = .timer ∨ path = .txRx → v.crosses status = false) :
    PsInv strict ⟨v.updatePwrSaveStatus status path, tx, inFlight⟩ := by
  cases path with
  | ioctl =>
    unfold PsVap.updatePwrSaveStatus
    split_ifs
    · exact h.handler false rfl nofun nofun fun _ => v.crosses_ioctl
    · exact h
  | disconnected | connected | scanEnd => exact h.unbuilt ⟨rfl, rfl, rfl⟩ rfl
  | mgmtPending =>
    have hr : PsInv strict ⟨({ v with delayPwrSveDecision := false }.checkDeepSleepStatus).1, tx, inFlight⟩ := by
      unfold PsVap.checkDeepSleepStatus
      split_ifs <;> exact h.unbuilt ⟨rfl, rfl, rfl⟩ rfl
    unfold PsVap.updatePwrSaveStatus
    simp only
    split_ifs
    · exact hr.handler true rfl (fun _ => rfl) nofun fun _ => PsVap.crosses_false _
    · exact hr
  | vapCreate | vapDelete => exact h
  | timer | txRx => exact h.handler false rfl nofun nofun fun hst => hc hst (by simp)
  | psEnDequeued => exact absurd rfl hd
  | psEnReqCnfm | psDisReqCnfm => simp [PsPath.isCnfm] at hp

theorem PsInv.checkDataLoad (h : PsInv strict ⟨v, tx, inFlight⟩) :
    PsInv strict ⟨v.checkDataLoad, tx, inFlight⟩ := by
  have hr : PsInv strict ⟨v.resetLoad, tx, inFlight⟩ := h.unbuilt ⟨rfl, rfl, rfl⟩ rfl
  unfold PsVap.checkDataLoad
  split_ifs
  · exact hr.update rfl nofun fun _ _ => PsVap.crosses_false _
  · exact hr
  · exact h

theorem PsInv.traffic (h : PsInv strict ⟨v, tx, inFlight⟩) (txPath : Bool) (payloadSize : Nat) :
    PsInv strict ⟨v.checkTrafficPwrSave txPath payloadSize, tx, inFlight⟩ := by
  have hload : PsInv strict ⟨v.addLoad txPath payloadSize, tx, inFlight⟩ := by
    unfold PsVap.addLoad
    split_ifs <;> exact h.unbuilt ⟨rfl, rfl, rfl⟩ rfl
  unfold PsVap.checkTrafficPwrSave
  simp only
  split_ifs
  · exact hload.unbuilt ⟨rfl, rfl, rfl⟩ rfl
  · exact hload.checkDataLoad.unbuilt ⟨rfl, rfl, rfl⟩ rfl
  · exact hload.checkDataLoad
  · exact h

def PsVap.timerAsks (v : PsVap) (vapInUse bgscanOk : Bool) : Bool :=
  vapInUse && !v.connInProg &&
    if v.ivState = .run then v.delayStaSupportDecision && bgscanOk else v.delayPwrSveDecision

theorem PsInv.timerStaSupport (h : PsInv strict ⟨v, tx, inFlight⟩) (bgscanOk : Bool)
    (hc : strict → v.crosses (v.delayStaSupportDecision && bgscanOk) = false) :
    PsInv strict ⟨v.timerStaSupport bgscanOk, tx, inFlight⟩ := by
  unfold PsVap.timerStaSupport PsVap.sendStaSupportedFeatures
  split_ifs with hdelay hok
  · simp only [hdelay, hok, Bool.and_self] at hc
    have hu : PsInv strict ⟨v.updatePwrSaveStatus true .timer, tx, inFlight⟩ := 
      h.update rfl nofun fun hst _ => hc hst
    exact hu.unbuilt ⟨rfl, rfl, rfl⟩ rfl
  · exact h.unbuilt ⟨rfl, rfl, rfl⟩ rfl
  · exact h

theorem PsInv.timerLoad (h : PsInv strict ⟨v, tx, inFlight⟩) : PsInv strict ⟨v.timerLoad, tx, inFlight⟩ := by
  -- the load decides only between a vap in power save and one that is not, so it never crosses
  have hd : PsInv strict ⟨v.timerLoadDecision, tx, inFlight⟩ := by
    unfold PsVap.timerLoadDecision
    split_ifs with hhigh hlow
    · exact h.update rfl nofun fun _ _ => v.crosses_false
    · exact h.update rfl nofun fun _ _ => by simp [PsVap.crosses, hlow.2]
    · exact h
  unfold PsVap.timerLoad
  split_ifs
  · exact hd.unbuilt ⟨rfl, rfl, rfl⟩ rfl
  · exact h

theorem PsInv.timer (h : PsInv strict ⟨v, tx, inFlight⟩) (vapInUse bgscanOk : Bool)
    (hc : strict → v.crosses (v.timerAsks vapInUse bgscanOk) = false) :
    PsInv strict ⟨v.trafficTimerCallback vapInUse bgscanOk, tx, inFlight⟩ := by
  have hdelay : PsInv strict ⟨v.endDelay, tx, inFlight⟩ := h.unbuilt ⟨rfl, rfl, rfl⟩ rfl
  unfold PsVap.trafficTimerCallback
  split_ifs with hskip hrun hpending
  · exact h
  · simp only [not_or, Bool.not_eq_true', Bool.not_eq_false] at hskip
    simp only [PsVap.timerAsks, hskip, hrun, if_true, Bool.true_and] at hc
    exact (hdelay.timerStaSupport bgscanOk hc).timerLoad
  · simp only [not_or, Bool.not_eq_true', Bool.not_eq_false] at hskip
    simp only [PsVap.timerAsks, hskip, hrun, if_false, hpending] at hc
    exact hdelay.update rfl nofun fun hst _ => hc hst
  · exact h

end Vap

section Steps

variable {strict : Prop} {s t : PsSys}

theorem Outstanding.inFlight_cons {f g : PsFrame} {fs : List PsFrame} (h : Outstanding s g)
    (htx : s.tx = none) (hf : s.inFlight = f :: fs) : g = f ∧ Quiescent ⟨s.vap, s.tx, fs⟩ := by
  rcases h.place with ⟨-, hin, -⟩ | ⟨hq, hin, -⟩
  · simp [hin] at hf
  · rw [hin, List.cons.injEq] at hf
    exact ⟨hf.1, hq, hf.2.symm, htx⟩

theorem Handshake.inFlight_cons {f : PsFrame} {fs : List PsFrame} (h : Handshake strict s)
    (htx : s.tx = none) (hf : s.inFlight = f :: fs) :
    Quiescent ⟨s.vap, s.tx, fs⟩ ∧ (s.vap.psState = .enReqSent ∧ f.request = .sleep ∨
      s.vap.psState = .disReqSent ∧ (f.request = .wakeup ∨ ¬ strict)) := by
  cases hst : s.vap.psState <;> simp only [Handshake, hst] at h
  case none | devInPwrSve => simp [h.inFlight] at hf
  case enReqQueued =>
    obtain ⟨g, -, -, hin | hin⟩ := h
    · simp [hin] at hf
    · simp [htx] at hin
  case enReqSent =>
    obtain ⟨g, hk, ho, -, -⟩ := h
    obtain ⟨rfl, hq⟩ := ho.inFlight_cons htx hf
    exact ⟨hq, .inl ⟨rfl, hk⟩⟩
  case disReqSent =>
    rcases h with ⟨g, hk, ho⟩ | ⟨hns, hq | ⟨g, hk, ho⟩⟩
    · obtain ⟨rfl, hq⟩ := ho.inFlight_cons htx hf
      exact ⟨hq, .inr ⟨rfl, .inl hk⟩⟩
    · simp [hq.inFlight] at hf
    · obtain ⟨rfl, hq⟩ := ho.inFlight_cons htx hf
      exact ⟨hq, .inr ⟨rfl, .inr hns⟩⟩

theorem Handshake.confirm {u : PsVap} {f : PsFrame} {fs : List PsFrame} (h : Handshake strict s)
    (htx : s.tx = none) (hf : s.inFlight = f :: fs) (hm : PsMove s.vap false f.request.cnfmPath u) :
    Handshake strict ⟨u, s.tx, fs⟩ := by
  obtain ⟨hq, hst⟩ := h.inFlight_cons htx hf
  have quiet (hu : Unbuilt s.vap u) : Quiescent ⟨u, s.tx, fs⟩ :=
    ⟨hu.queue.trans hq.queue, hq.inFlight, hq.tx⟩
  cases hm with
  | stay hu hs hen hdis =>
    rcases hst with ⟨hst, hk⟩ | ⟨hst, hk | hns⟩
    · simp [hk, PsRequest.cnfmPath] at hen
      exact absurd hst hen
    · simp [hk, PsRequest.cnfmPath] at hdis
      exact absurd hst hdis
    · simp only [Handshake, hs, hst]
      exact .inr ⟨hns, .inl (quiet hu)⟩
  | asleep _ _ hu hs | awake _ _ hu hs =>
    simp only [Handshake, hs]
    exact quiet hu
  | awakeSleep _ _ hu hs =>
    obtain ⟨g, hk, ho⟩ := hq.outstanding hu
    simp only [Handshake, hs]
    exact ⟨g, hk, ho, .inl hq.inFlight⟩
  | sleep hv | wakeup hv | crossed hv => rcases hst with ⟨hst, -⟩ | ⟨hst, -⟩ <;> simp [hst] at hv

theorem PsInv.confirm {u : PsVap} {f : PsFrame} {fs : List PsFrame} (h : PsInv strict s)
    (htx : s.tx = none) (hf : s.inFlight = f :: fs)
    (hu : u = s.vap.pwrSveEventHandler false f.request.cnfmPath false) : PsInv strict ⟨u, s.tx, fs⟩ := by
  have hm : PsMove s.vap false f.request.cnfmPath u := by
    have hone : s.vap.scNvaps < 2 := by simp [h.oneVap]
    rw [hu]
    exact PsVap.pwrSveEventHandler_move hone (fun _ => rfl) (by cases f.request <;> nofun)
  exact ⟨hm.nvaps.trans h.oneVap, h.handshake.confirm htx hf hm⟩

theorem PsInv.event {e : PsEvent} (h : PsInv strict s) (htx : e = .confirm → s.tx = none)
    (hc : ∀ vapInUse bgscanOk, e = .timer vapInUse bgscanOk → strict →
      s.vap.crosses (s.vap.timerAsks vapInUse bgscanOk) = false)
    (hs : s.event e = some t) : PsInv strict t := by
  cases e with
  | ioctl params =>
    cases hs
    have hp : PsInv strict ⟨{ s.vap with psParamsIoctl := params, updateTa := true }, s.tx, s.inFlight⟩ :=
      h.unbuilt ⟨rfl, rfl, rfl⟩ rfl
    exact hp.update rfl nofun nofun
  | connected | disconnected | scanEnd =>
    cases hs
    exact h.update rfl nofun nofun
  | timer vapInUse bgscanOk =>
    cases hs
    exact h.timer vapInUse bgscanOk (hc vapInUse bgscanOk rfl)
  | traffic txPath payloadSize =>
    cases hs
    exact h.traffic txPath payloadSize
  | mgmtPending =>
    simp only [PsSys.event, Option.ite_none_right_eq_some] at hs
    obtain ⟨-, ⟨⟩⟩ := hs
    exact h.update rfl nofun nofun
  | confirm =>
    cases hf : s.inFlight with
    | nil => simp [PsSys.event, hf] at hs
    | cons f fs =>
      simp only [PsSys.event, hf, Option.some.injEq] at hs
      subst hs
      exact h.confirm (htx rfl) hf (by cases f.request <;> rfl)
  | env =>
    cases hs
    exact h.unbuilt ⟨rfl, rfl, rfl⟩ rfl

theorem Outstanding.write {f g : PsFrame} {q : List PsFrame} (h : Outstanding s g)
    (hq : s.vap.mgmtQ = f :: q) (st : PsState) :
    g = f ∧ Outstanding ⟨{ s.vap with mgmtQ := q, psState := st }, some f, s.inFlight ++ [f]⟩ f := by
  rcases h.place with ⟨hg, hin, -⟩ | ⟨hg, -, -⟩
  · rw [hg, List.cons.injEq] at hq
    obtain ⟨rfl, rfl⟩ := hq
    exact ⟨rfl, h.last, .inr ⟨rfl, by simp [hin], .inr rfl⟩⟩
  · simp [hg] at hq

theorem PsInv.write (h : PsInv strict s) (hs : s.write = some t) : PsInv strict t := by
  revert hs
  fun_cases PsSys.write s
  case case1 | case2 => nofun
  case case3 hbusy f q hq =>
    rintro ⟨⟩
    refine ⟨h.oneVap, ?_⟩
    have hh := h.handshake
    simp only [Handshake] at hh ⊢
    cases hst : s.vap.psState <;> simp only [hst] at hh ⊢
    case none | devInPwrSve => simp [hh.queue] at hq
    case enReqQueued =>
      obtain ⟨g, hk, ho, -⟩ := hh
      obtain ⟨rfl, ho⟩ := ho.write hq _
      exact ⟨g, hk, ho, .inr rfl⟩
    case enReqSent =>
      obtain ⟨g, hk, ho, hin, -⟩ := hh
      have hempty : s.vap.mgmtQ = [] := by
        rcases ho.place with ⟨-, hin', -⟩ | ⟨hempty, -, -⟩
        · simp [hin'] at hin
        · exact hempty
      simp [hempty] at hq
    case disReqSent =>
      rcases hh with ⟨g, hk, ho⟩ | ⟨hns, hquiet | ⟨g, hk, ho⟩⟩
      · obtain ⟨rfl, ho⟩ := ho.write hq _
        exact .inl ⟨g, hk, ho⟩
      · simp [hquiet.queue] at hq
      · obtain ⟨rfl, ho⟩ := ho.write hq _
        exact .inr ⟨hns, .inr ⟨g, hk, ho⟩⟩

theorem Outstanding.tx_eq {f g : PsFrame} (h : Outstanding s g) (htx : s.tx = some f) :
    g = f ∧ s.vap.mgmtQ = [] ∧ s.inFlight = [f] := by
  rcases h.place with ⟨-, -, hnone⟩ | ⟨hq, hin, hnone | hsome⟩
  · simp [hnone] at htx
  · simp [hnone] at htx
  · rw [hsome, Option.some.injEq] at htx
    exact ⟨htx, hq, htx ▸ hin⟩

theorem Outstanding.mark {f g : PsFrame} (h : Outstanding s g) (htx : s.tx = some f) (st : PsState) :
    Outstanding ⟨s.vap.setPsState st, none, s.inFlight⟩ g := by
  obtain ⟨rfl, hq, hin⟩ := h.tx_eq htx
  exact ⟨h.last, .inr ⟨hq, hin, .inl rfl⟩⟩

theorem PsInv.mark (h : PsInv strict s) (hs : s.mark = some t) : PsInv strict t := by
  obtain ⟨f, htx, rfl⟩ := Option.map_eq_some_iff.mp hs
  have hh := h.handshake
  simp only [Handshake] at hh
  cases hst : s.vap.psState <;> simp only [hst] at hh
  case none | devInPwrSve => simp [hh.tx] at htx
  case enReqSent =>
    obtain ⟨g, -, -, -, hnone⟩ := hh
    simp [hnone] at htx
  case enReqQueued =>
    obtain ⟨g, hk, ho, -⟩ := hh
    obtain ⟨rfl, -, hin⟩ := ho.tx_eq htx
    have hvap : s.vap.markSent g = s.vap.setPsState .enReqSent := by simp [PsVap.markSent, hk, hst]
    rw [hvap]
    exact ⟨h.oneVap, g, hk, ho.mark htx _, hin, rfl⟩
  case disReqSent =>
    have hvap : s.vap.markSent f = s.vap := by simp [PsVap.markSent, hst]
    have mark (g : PsFrame) (ho : Outstanding s g) : Outstanding ⟨s.vap, none, s.inFlight⟩ g :=
      ho.mark htx s.vap.psState
    rw [hvap]
    refine ⟨h.oneVap, ?_⟩
    simp only [Handshake, hst]
    rcases hh with ⟨g, hk, ho⟩ | ⟨hns, hquiet | ⟨g, hk, ho⟩⟩
    · exact .inl ⟨g, hk, mark g ho⟩
    · simp [hquiet.tx] at htx
    · exact .inr ⟨hns, .inr ⟨g, hk, mark g ho⟩⟩

end Steps

end Onebox
