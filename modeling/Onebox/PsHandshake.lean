import Onebox.PowerSave

/-! What a call of the power-save handler can do to `PS_STATE` and to the
requests under way, and the invariant that ties the two together. -/

namespace Onebox

structure Built (v : PsVap) (k : PsRequest) (u : PsVap) : Prop where
  queued : ∃ f toHead, f.request = k ∧ f.seq = v.built ∧ u.mgmtQ = enqueuePs toHead f v.mgmtQ
  counted : u.built = v.built + 1
  nvaps : u.scNvaps = v.scNvaps

structure Unbuilt (v u : PsVap) : Prop where
  queue : u.mgmtQ = v.mgmtQ
  built : u.built = v.built
  nvaps : u.scNvaps = v.scNvaps

theorem Unbuilt.built_of {v u w : PsVap} {k : PsRequest} (h : Unbuilt v u) (hb : Built u k w) :
    Built v k w := by
  obtain ⟨⟨f, toHead, hk, hseq, hq⟩, hc, hn⟩ := hb
  exact ⟨⟨f, toHead, hk, h.built ▸ hseq, h.queue ▸ hq⟩, h.built ▸ hc, hn.trans h.nvaps⟩

theorem Unbuilt.trans {v u w : PsVap} (h : Unbuilt v u) (h' : Unbuilt u w) : Unbuilt v w :=
  ⟨h'.queue.trans h.queue, h'.built.trans h.built, h'.nvaps.trans h.nvaps⟩

/-- The moves of the handler for one vap. In `crossed` the request and the state disagree. -/
inductive PsMove (v : PsVap) (status : Bool) (path : PsPath) (u : PsVap) : Prop
  | stay (hu : Unbuilt v u) (hs : u.psState = v.psState)
      (hen : v.psState = .enReqSent → path ≠ .psEnReqCnfm)
      (hdis : v.psState = .disReqSent → path ≠ .psDisReqCnfm)
  | sleep (hv : v.psState = .none ∨ v.psState = .devInPwrSve) (hu : Built v .sleep u)
      (hs : u.psState = .enReqQueued)
  | wakeup (hv : v.psState = .devInPwrSve ∨ v.psState = .none ∧ path.isCnfm = false)
      (hu : Built v .wakeup u) (hs : u.psState = .disReqSent)
  | crossed (hv : v.psState = .devInPwrSve) (hta : v.updateTa = true) (hio : v.psParamsIoctl.psEn = false)
      (hst : status = true) (hu : Built v .sleep u) (hs : u.psState = .disReqSent)
  | asleep (hv : v.psState = .enReqSent) (hp : path = .psEnReqCnfm) (hu : Unbuilt v u)
      (hs : u.psState = .devInPwrSve)
  | awake (hv : v.psState = .disReqSent) (hp : path = .psDisReqCnfm) (hu : Unbuilt v u)
      (hs : u.psState = .none)
  | awakeSleep (hv : v.psState = .disReqSent) (hp : path = .psDisReqCnfm) (hu : Built v .sleep u)
      (hs : u.psState = .enReqQueued)

theorem PsMove.of_settled {v u : PsVap} {status : Bool} {path : PsPath}
    (hv : v.psState = .none ∨ v.psState = .devInPwrSve) (hu : Unbuilt v u) (hs : u.psState = v.psState) :
    PsMove v status path u := by
  refine .stay hu hs ?_ ?_ <;> rcases hv with hv | hv <;> simp [hv]

namespace PsVap

variable {v : PsVap} {status toHead : Bool} {path : PsPath}

theorem built_sleep (hn : v.scNvaps < 2) (st : PsState) :
    Built v .sleep ((v.sendPsParamsReq true toHead).setPsState st) := by
  refine ⟨⟨_, toHead, ?_, ?_, rfl⟩, rfl, rfl⟩
  · simp [hn]
  · rfl

theorem built_wakeup (st : PsState) : Built v .wakeup ((v.sendPsParamsReq false toHead).setPsState st) :=
  ⟨⟨_, toHead, rfl, rfl, rfl⟩, rfl, rfl⟩

theorem caseUpdateTa_move (hv : v.psState = .none ∨ v.psState = .devInPwrSve) (hta : v.updateTa = true)
    (hn : v.scNvaps < 2) : PsMove v status path (v.caseUpdateTa status toHead) := by
  have hu : Unbuilt v v.applyIoctl := ⟨rfl, rfl, rfl⟩
  fun_cases caseUpdateTa v status toHead
  case case1 u hen hdev =>
    cases status with
    | false => exact .wakeup (.inl hdev) (hu.built_of (built_wakeup _)) rfl
    | true => exact .crossed hdev hta hen rfl (hu.built_of (built_sleep (v := v.applyIoctl) hn _)) rfl
  case case2 hdev _ _ =>
    obtain ⟨hq, hc, hn⟩ := hu.built_of (built_wakeup .disReqSent)
    exact .wakeup (.inl hdev) ⟨hq, hc, hn⟩ rfl
  case case3 => exact .of_settled hv hu rfl
  case case4 u _ hnone =>
    exact .sleep (.inl hnone) (hu.built_of (built_sleep (v := v.applyIoctl) hn _)) rfl
  case case5 => exact .of_settled hv hu rfl

theorem caseSettled_move (hv : v.psState = .none ∨ v.psState = .devInPwrSve) (hn : v.scNvaps < 2)
    (hm : path = .mgmtPending → status = false) :
    PsMove v status path (v.caseSettled status path toHead) := by
  fun_cases caseSettled v status path toHead
  case case1 hc =>
    obtain ⟨rfl, hdev, -⟩ := hc
    rw [hm rfl]
    exact .wakeup (.inl hdev) (built_wakeup _) rfl
  case case2 hta => exact caseUpdateTa_move hv hta hn
  case case3 hpath =>
    simp only [Bool.and_eq_true, Bool.not_eq_true'] at hpath
    cases status with
    | false => exact .wakeup (hv.symm.imp_right fun h => ⟨h, hpath.1⟩) (built_wakeup _) rfl
    | true => exact .sleep hv (built_sleep hn _) rfl
  case case4 u hc =>
    have hu : Unbuilt v u := ⟨rfl, rfl, rfl⟩
    exact .sleep (.inl hc.2) (hu.built_of (built_sleep (v := u) hn _)) rfl
  case case5 => exact .of_settled hv ⟨rfl, rfl, rfl⟩ rfl
  case case6 => exact .of_settled hv ⟨rfl, rfl, rfl⟩ rfl

theorem PsMove.after_awake {v u w : PsVap} {status : Bool} (hv : v.psState = .disReqSent) (hu : Unbuilt v u)
    (hnone : u.psState = .none) (h : PsMove u status .psDisReqCnfm w) : PsMove v status .psDisReqCnfm w := by
  cases h with
  | stay hw hs => exact .awake hv rfl (hu.trans hw) (hs.trans hnone)
  | sleep _ hw hs => exact .awakeSleep hv rfl (hu.built_of hw) hs
  | wakeup hu' => simp [hnone, PsPath.isCnfm] at hu'
  | crossed hu' => simp [hnone] at hu'
  | asleep hu' => simp [hnone] at hu'
  | awake hu' => simp [hnone] at hu'
  | awakeSleep hu' => simp [hnone] at hu'

theorem caseDisReqSent_move (hv : v.psState = .disReqSent) (hn : v.scNvaps < 2) :
    PsMove v status path (v.caseDisReqSent status path toHead).1 := by
  unfold caseDisReqSent
  split
  case isTrue hp =>
    subst hp
    refine PsMove.after_awake hv (u := v.confirmWakeup) ⟨rfl, rfl, rfl⟩ rfl ?_
    simp only
    split
    · exact .of_settled (.inl rfl) ⟨rfl, rfl, rfl⟩ rfl
    · exact caseSettled_move (.inl rfl) hn nofun
  case isFalse hp => exact .stay ⟨rfl, rfl, rfl⟩ rfl (by simp [hv]) fun _ => hp

theorem psSwitch_move (hn : v.scNvaps < 2) (hm : path = .mgmtPending → status = false)
    (hd : path ≠ .psEnDequeued) : PsMove v status path (v.psSwitch status path toHead).1 := by
  fun_cases psSwitch v status path toHead
  case case1 hv hp _ _ => exact .asleep hv hp ⟨rfl, rfl, rfl⟩ rfl
  case case2 hv hp _ _ =>
    refine .asleep hv hp ?_ ?_ <;> simp [caseDisReqSent, hp]
    · exact ⟨rfl, rfl, rfl⟩
    · rfl
  case case3 hv hp => exact .stay ⟨rfl, rfl, rfl⟩ rfl (fun _ => hp) (by simp [hv])
  case case4 hv => exact caseDisReqSent_move hv hn
  case case5 hv => exact caseSettled_move (.inl hv) hn hm
  case case6 hv => exact caseSettled_move (.inr hv) hn hm
  case case7 hv =>
    rw [if_neg hd]
    exact .stay ⟨rfl, rfl, rfl⟩ rfl (by simp [hv]) (by simp [hv])

theorem pwrSveEventHandler_move (hn : v.scNvaps < 2) (hm : path = .mgmtPending → status = false)
    (hd : path ≠ .psEnDequeued) : PsMove v status path (v.pwrSveEventHandler status path toHead) := by
  have hstay : path.isCnfm = false → PsMove v status path v := by
    intro hp
    refine .stay ⟨rfl, rfl, rfl⟩ rfl (fun _ h => ?_) (fun _ h => ?_) <;> simp [h, PsPath.isCnfm] at hp
  unfold pwrSveEventHandler
  split_ifs with h1 h2 h3
  · exact .of_settled (.inl h1.2.2) ⟨rfl, rfl, rfl⟩ rfl
  · exact hstay (by simpa using h2.2.2.2)
  · exact hstay (by simpa using h3.2)
  · exact psSwitch_move hn hm hd

end PsVap

theorem PsMove.nvaps {v u : PsVap} {status : Bool} {path : PsPath} (h : PsMove v status path u) :
    u.scNvaps = v.scNvaps := by
  cases h with
  | stay hu | asleep _ _ hu | awake _ _ hu => exact hu.nvaps
  | sleep _ hu | wakeup _ hu | crossed _ _ _ _ hu | awakeSleep _ _ hu => exact hu.nvaps

structure Quiescent (s : PsSys) : Prop where
  queue : s.vap.mgmtQ = []
  inFlight : s.inFlight = []
  tx : s.tx = none

structure Outstanding (s : PsSys) (f : PsFrame) : Prop where
  last : f.seq + 1 = s.vap.built
  place : (s.vap.mgmtQ = [f] ∧ s.inFlight = [] ∧ s.tx = none) ∨
    (s.vap.mgmtQ = [] ∧ s.inFlight = [f] ∧ (s.tx = none ∨ s.tx = some f))

/-- What `PS_STATE` says about the request under way. In a strict handshake a wake-up request stands
behind `PS_DIS_REQ_SENT`; otherwise that state may also be left over from crossed requests. -/
def Handshake (strict : Prop) (s : PsSys) : Prop :=
  match s.vap.psState with
  | .none | .devInPwrSve => Quiescent s
  | .enReqQueued => ∃ f, f.request = .sleep ∧ Outstanding s f ∧ (s.inFlight = [] ∨ s.tx = some f)
  | .enReqSent => ∃ f, f.request = .sleep ∧ Outstanding s f ∧ s.inFlight = [f] ∧ s.tx = none
  | .disReqSent => (∃ f, f.request = .wakeup ∧ Outstanding s f) ∨
      (¬ strict ∧ (Quiescent s ∨ ∃ f, f.request = .sleep ∧ Outstanding s f))

structure PsInv (strict : Prop) (s : PsSys) : Prop where
  oneVap : s.vap.scNvaps = 1
  handshake : Handshake strict s

def PsVap.crosses (v : PsVap) (status : Bool) : Bool :=
  v.psState = .devInPwrSve && v.updateTa && !v.psParamsIoctl.psEn && status

theorem PsStart.psInv {strict : Prop} {s : PsSys} (h : PsStart s) : PsInv strict s := by
  refine ⟨h.oneVap, ?_⟩
  rw [Handshake, h.psState]
  exact ⟨h.queue, h.inFlight, h.tx⟩

theorem Quiescent.outstanding {s : PsSys} {u : PsVap} {k : PsRequest} (h : Quiescent s)
    (hu : Built s.vap k u) : ∃ f, f.request = k ∧ Outstanding { s with vap := u } f := by
  obtain ⟨⟨f, toHead, hk, hseq, hq⟩, hc, -⟩ := hu
  refine ⟨f, hk, ?_, .inl ⟨?_, h.inFlight, h.tx⟩⟩
  · rw [hseq, hc]
  · cases toHead <;> simpa [enqueuePs, h.queue] using hq

section Move

variable {strict : Prop} {v u : PsVap} {tx : Option PsFrame} {inFlight : List PsFrame}

theorem Handshake.unbuilt (h : Handshake strict ⟨v, tx, inFlight⟩) (hu : Unbuilt v u)
    (hs : u.psState = v.psState) : Handshake strict ⟨u, tx, inFlight⟩ := by
  have hq : Quiescent ⟨v, tx, inFlight⟩ → Quiescent ⟨u, tx, inFlight⟩ :=
    fun h => ⟨hu.queue.trans h.queue, h.inFlight, h.tx⟩
  have ho : ∀ f, Outstanding ⟨v, tx, inFlight⟩ f → Outstanding ⟨u, tx, inFlight⟩ f :=
    fun f h => ⟨h.last.trans hu.built.symm, by simpa only [hu.queue] using h.place⟩
  simp only [Handshake, hs] at h ⊢
  cases hst : v.psState <;> simp only [hst] at h ⊢
  case none | devInPwrSve => exact hq h
  case enReqSent | enReqQueued => exact h.imp fun f hf => ⟨hf.1, ho f hf.2.1, hf.2.2⟩
  case disReqSent =>
    exact h.imp (fun ⟨f, hf⟩ => ⟨f, hf.1, ho f hf.2⟩) fun hs =>
      ⟨hs.1, hs.2.imp hq fun ⟨f, hf⟩ => ⟨f, hf.1, ho f hf.2⟩⟩

theorem Handshake.move {status : Bool} {path : PsPath} (h : Handshake strict ⟨v, tx, inFlight⟩)
    (hm : PsMove v status path u) (hp : path.isCnfm = false) (hc : strict → v.crosses status = false) :
    Handshake strict ⟨u, tx, inFlight⟩ := by
  have settled : v.psState = .none ∨ v.psState = .devInPwrSve → Quiescent ⟨v, tx, inFlight⟩ := by
    rintro (hv | hv) <;> simpa only [Handshake, hv] using h
  cases hm with
  | stay hu hs => exact h.unbuilt hu hs
  | sleep hv hu hs =>
    obtain ⟨f, hk, hf⟩ := (settled hv).outstanding hu
    simp only [Handshake, hs]
    exact ⟨f, hk, hf, .inl (settled hv).inFlight⟩
  | wakeup hv hu hs =>
    simp only [Handshake, hs]
    exact .inl ((settled (hv.symm.imp_left And.left)).outstanding hu)
  | crossed hv hta hio hst hu hs =>
    simp only [Handshake, hs]
    refine .inr ⟨fun hstrict => ?_, .inr ((settled (.inr hv)).outstanding hu)⟩
    simp [PsVap.crosses, hv, hta, hio, hst] at hc
    exact hc hstrict
  | asleep _ hp' | awake _ hp' | awakeSleep _ hp' => simp [hp', PsPath.isCnfm] at hp

end Move

end Onebox
