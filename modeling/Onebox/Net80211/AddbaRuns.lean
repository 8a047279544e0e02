import Onebox.Net80211.Addba

/-! One station's agreements over whole runs, whatever frames it receives. A stream waits for an answer, runs
or is refused, and never two of these at once. -/

namespace Onebox.Net80211

variable {vap : BaVap} {ni : BaNode} {ac ac' : WmeAc}

/-! ## What the functions do to the streams -/

/-- After `ieee80211_addba_stop`. -/
def TxAmpdu.stopped (tap : TxAmpdu) : TxAmpdu := { tap.addbaStopTimeout with running := false, attempts := 0 }

/-- After `ampdu_tx_stop`. -/
def TxAmpdu.cleared (tap : TxAmpdu) : TxAmpdu :=
  { tap.stopped with timer := none, setup := false, nak := false }

/-- After `ieee80211_addba_response`. -/
def TxAmpdu.answered (tap : TxAmpdu) (status baparamset : UInt16) : TxAmpdu :=
  if status = statusSuccess then
    { tap.addbaStopTimeout with wnd := grantedWnd baparamset, running := true, attempts := 0 }
  else { tap.addbaStopTimeout with nak := true }

namespace BaNode

/-- Only what is noted for the firmware changes. -/
theorem sendStationInfo_fst (ni : BaNode) (vap : BaVap) (ev : StaNotify) :
    ∃ seqStart bawSize infoFate, (ni.sendStationInfo vap ev).1 =
      { ni with seqStart := seqStart, bawSize := bawSize, infoFate := infoFate } := by
  have hnote (ni : BaNode) : ∃ seqStart bawSize,
      ni.noteAddba vap ev = { ni with seqStart := seqStart, bawSize := bawSize } := by
    cases ev with
    | addbaDone =>
      simp only [noteAddba]
      split <;> exact ⟨_, _, rfl⟩
    | rxAddbaDone => exact ⟨_, _, rfl⟩
    | rxDelba => exact ⟨_, _, rfl⟩
  obtain ⟨seqStart, bawSize, hnoted⟩ := hnote { ni with infoFate := fun k => ni.infoFate (k + 1) }
  simp only [sendStationInfo, coreSendStationInfo]
  split
  · exact ⟨_, _, _, rfl⟩
  · exact ⟨_, _, _, hnoted⟩
  · exact ⟨_, _, _, hnoted⟩

@[simp] theorem txAmpdu_sendStationInfo (ev : StaNotify) :
    (ni.sendStationInfo vap ev).1.txAmpdu = ni.txAmpdu := by
  obtain ⟨_, _, _, h⟩ := ni.sendStationInfo_fst vap ev
  rw [h]

@[simp] theorem rx_sendStationInfo (ev : StaNotify) : (ni.sendStationInfo vap ev).1.rx = ni.rx := by
  obtain ⟨_, _, _, h⟩ := ni.sendStationInfo_fst vap ev
  rw [h]

@[simp] theorem txAmpdu_addbaStop :
    (ni.addbaStop vap ac).1.txAmpdu = Function.update ni.txAmpdu ac (ni.txAmpdu ac).stopped := by
  simp only [addbaStop]
  split <;> simp [setTap, TxAmpdu.stopped]

@[simp] theorem rx_addbaStop : (ni.addbaStop vap ac).1.rx = ni.rx := by
  simp only [addbaStop]
  split <;> simp [setTap]

@[simp] theorem txAmpdu_ampduTxStop :
    (ni.ampduTxStop vap ac).1.txAmpdu = Function.update ni.txAmpdu ac (ni.txAmpdu ac).cleared := by
  simp [ampduTxStop, setTap, TxAmpdu.cleared]

@[simp] theorem rx_ampduTxStop : (ni.ampduTxStop vap ac).1.rx = ni.rx := by
  simp [ampduTxStop, setTap]

@[simp] theorem rx_txCleanup (acs : List WmeAc) : (txCleanup vap acs ni).1.rx = ni.rx := by
  induction acs generalizing ni with
  | nil => rfl
  | cons ac acs ih =>
    simp only [txCleanup, ih]
    split <;> simp

theorem txAmpdu_txCleanup (acs : List WmeAc) (ac : WmeAc) :
    (txCleanup vap acs ni).1.txAmpdu ac =
      if ac ∈ acs ∧ (ni.txAmpdu ac).setup then (ni.txAmpdu ac).cleared else ni.txAmpdu ac := by
  induction acs generalizing ni with
  | nil => simp [txCleanup]
  | cons ac' acs ih =>
    simp only [txCleanup, ih]
    by_cases hac : ac = ac'
    · subst hac
      by_cases hset : (ni.txAmpdu ac).setup = true
      · simp [hset, TxAmpdu.cleared]
      · simp [hset]
    · by_cases hset : (ni.txAmpdu ac').setup = true
      · simp [hset, hac]
      · simp [hset, hac]

theorem mem_wmeAcs (ac : WmeAc) : ac ∈ wmeAcs := by cases ac <;> decide

@[simp] theorem txAmpdu_htNodeCleanup :
    (ni.htNodeCleanup vap).1.txAmpdu ac =
      if (ni.txAmpdu ac).setup then (ni.txAmpdu ac).cleared else ni.txAmpdu ac := by
  simp [htNodeCleanup, txAmpdu_txCleanup, mem_wmeAcs]

theorem txAmpdu_addbaResponse (status params : UInt16) :
    (ni.addbaResponse vap ac status params).1.txAmpdu =
      Function.update ni.txAmpdu ac ((ni.txAmpdu ac).answered status params) := by
  unfold addbaResponse TxAmpdu.answered
  split <;> simp [setTap]

@[simp] theorem rx_addbaResponse (status params : UInt16) :
    (ni.addbaResponse vap ac status params).1.rx = ni.rx := by
  unfold addbaResponse
  split <;> simp [setTap]

@[simp] theorem txAmpdu_recvAddbaRequest (token : UInt8) (params seqctl : UInt16) :
    (ni.recvAddbaRequest vap token params seqctl).1.txAmpdu = ni.txAmpdu := by
  simp [recvAddbaRequest]

@[simp] theorem rx_recvAddbaRequest (token : UInt8) (params seqctl : UInt16) :
    (ni.recvAddbaRequest vap token params seqctl).1.rx =
      (ni.rx.addbaRequest vap.ampduRx params seqctl).1 := by
  simp [recvAddbaRequest]

@[simp] theorem rx_recvAddbaResponse (token : UInt8) (code params : UInt16) :
    (ni.recvAddbaResponse vap token code params).1.rx = ni.rx := by
  simp only [recvAddbaResponse]
  split_ifs <;> simp

@[simp] theorem rx_recvDelba (params : UInt16) :
    (ni.recvDelba vap params).1.rx = (ni.rx.delba params).1 := by
  unfold recvDelba
  split <;> simp_all [RxNode.delba, delbapsInit]

theorem txAmpdu_recvDelba (params : UInt16) :
    (ni.recvDelba vap params).1.txAmpdu =
      if params &&& delbapsInit = 0 then
        Function.update ni.txAmpdu (tidToWmeAc (delbapsTid params))
          (ni.txAmpdu (tidToWmeAc (delbapsTid params))).stopped
      else ni.txAmpdu := by
  unfold recvDelba
  split <;> simp

/-- An answer is taken for a stream that waits for it, with the token of its question. -/
theorem txAmpdu_recvAddbaResponse (token : UInt8) (code params : UInt16) :
    (ni.recvAddbaResponse vap token code params).1.txAmpdu = ni.txAmpdu ∨
      let ac := tidToWmeAc (bapsTid params)
      (ni.txAmpdu ac).xchgPend = true ∧ (ni.txAmpdu ac).token = token ∧
        (ni.recvAddbaResponse vap token code params).1.txAmpdu =
          Function.update ni.txAmpdu ac ((ni.txAmpdu ac).answered code params) := by
  simp only [recvAddbaResponse]
  split_ifs with hpend htoken hpolicy
  · exact .inl rfl
  · exact .inl rfl
  · exact .inl rfl
  · exact .inr ⟨by simpa using hpend, (not_ne_iff.mp htoken).symm, txAmpdu_addbaResponse code params⟩

end BaNode

/-! ## The ways of a stream -/

/-- The node's HT state is set up anew or taken down. -/
def BaEvent.resets : BaEvent → Bool
  | .htInit => true
  | .cleanup => true
  | _ => false

/-- The peer ends a stream of this category with a DELBA. -/
def BaEvent.ends (ac : WmeAc) : BaEvent → Prop
  | .recv frm => ∃ params reason, BaAction.read frm = some (.delba params reason) ∧
      params &&& delbapsInit = 0 ∧ tidToWmeAc (delbapsTid params) = ac
  | _ => False

/-- All that a step can do to a stream. -/
inductive TapMove (ticks : Nat) (e : BaEvent) (ac : WmeAc) (tap : TxAmpdu) : TxAmpdu → Prop
  | same : TapMove ticks e ac tap tap
  | ask (token : UInt8) (start params : UInt16) (timeout : Nat) (hreq : tap.requested = false)
    (henable : tap.ampduEnable ticks = true) :
    TapMove ticks e ac tap
      ({ tap with setup := true, nak := false, start := start }.addbaRequest token params timeout ticks)
  | expire (due : Nat) (htimer : tap.timer = some due) (hle : due ≤ ticks) :
    TapMove ticks e ac tap tap.addbaTimeout
  | answer (status params : UInt16) (hpend : tap.xchgPend = true) :
    TapMove ticks e ac tap (tap.answered status params)
  | stop (h : (tap.running = true ∧ ∃ reason, e = .stop ac reason) ∨ e.ends ac) :
    TapMove ticks e ac tap tap.stopped
  | clear (h : e.resets = true) : TapMove ticks e ac tap tap.cleared

section

variable {ticks : Nat} {e : BaEvent}

theorem TapMove.update {taps : WmeAc → TxAmpdu} {tap : TxAmpdu} (h : TapMove ticks e ac (taps ac) tap)
    (ac' : WmeAc) : TapMove ticks e ac' (taps ac') (Function.update taps ac tap ac') := by
  by_cases hac : ac' = ac
  · subst hac
    simpa using h
  · rw [Function.update_of_ne hac]
    exact .same

theorem TapMove.cleanup (h : e.resets = true) (ac : WmeAc) :
    TapMove ticks e ac (ni.txAmpdu ac) ((ni.cleanup vap).1.txAmpdu ac) := by
  unfold BaNode.cleanup
  split
  · rw [BaNode.txAmpdu_htNodeCleanup]
    split
    · exact .clear h
    · exact .same
  · exact .same

theorem TapMove.recvAction {frm : List UInt8} {a : BaAction} (h : BaAction.read frm = some a) (ac : WmeAc) :
    TapMove ticks (.recv frm) ac (ni.txAmpdu ac) ((ni.recvAction vap a).1.txAmpdu ac) := by
  cases a with
  | addbaRequest token params timeout seqctl =>
    simp only [BaNode.recvAction, BaNode.txAmpdu_recvAddbaRequest]
    exact .same
  | addbaResponse token code params timeout =>
    rcases @BaNode.txAmpdu_recvAddbaResponse vap ni token code params with heq | ⟨hpend, -, heq⟩
    · simp only [BaNode.recvAction, heq]
      exact .same
    · simp only [BaNode.recvAction, heq]
      exact (TapMove.answer code params hpend).update ac
  | delba params reason =>
    simp only [BaNode.recvAction, BaNode.txAmpdu_recvDelba]
    split
    · rename_i hinit
      have hends : (BaEvent.recv frm).ends (tidToWmeAc (delbapsTid params)) := ⟨params, reason, h, hinit, rfl⟩
      exact (TapMove.stop (.inr hends)).update ac
    · exact .same

end

namespace BaSta

variable {s t : BaSta} {e : BaEvent} {r : BaSta × List BaOut}

theorem tapMove_step (h : s.step e = some r) (ac : WmeAc) :
    TapMove s.ticks e ac (s.ni.txAmpdu ac) (r.1.ni.txAmpdu ac) := by
  cases e with
  | start ac' eapol =>
    cases h
    simp only [start]
    split_ifs with hht hrun hask
    · exact .same
    · simp only [Bool.and_eq_true, Bool.not_eq_true'] at hask
      exact (TapMove.ask _ _ _ _ hask.1 hask.2).update ac
    · exact .same
    · exact .same
  | timeout ac' =>
    simp only [step] at h
    split at h
    · rename_i hany
      cases h
      obtain ⟨e, htimer, hle⟩ := (Option.any_eq_true _ _).mp hany
      exact (TapMove.expire e htimer (of_decide_eq_true hle)).update ac
    · cases h
  | recv frm =>
    cases h
    unfold recv
    split
    · exact .same
    · rename_i hread
      exact TapMove.recvAction hread ac
  | stop ac' reason =>
    cases h
    unfold ampduStop
    split
    · rename_i hrun
      simp only [BaNode.txAmpdu_addbaStop]
      exact (TapMove.stop (.inl ⟨hrun, reason, rfl⟩)).update ac
    · exact .same
  | htInit =>
    cases h
    exact TapMove.cleanup rfl ac
  | cleanup =>
    cases h
    exact TapMove.cleanup rfl ac
  | data ampdu expired m =>
    obtain ⟨q, -, rfl⟩ := Option.map_eq_some_iff.mp h
    exact .same
  | tick n => cases h; exact .same
  | txseq tid seq => cases h; exact .same
  | other => cases h; exact .same
  | info fates => cases h; exact .same
  | bar ctl seq => cases h; exact .same
  | age expired => cases h; exact .same

theorem ticks_step (h : s.step e = some r) : s.ticks ≤ r.1.ticks := by
  cases e with
  | start ac eapol =>
    cases h
    simp only [start]
    split_ifs <;> exact le_refl _
  | timeout ac =>
    simp only [step] at h
    split at h <;> cases h
    exact le_refl _
  | recv frm =>
    cases h
    unfold recv
    split <;> exact le_refl _
  | stop ac reason =>
    cases h
    unfold ampduStop
    split <;> exact le_refl _
  | tick n =>
    cases h
    exact Nat.le_add_right _ _
  | data ampdu expired m =>
    obtain ⟨q, -, rfl⟩ := Option.map_eq_some_iff.mp h
    exact le_refl _
  | txseq tid seq => cases h; exact le_refl _
  | other => cases h; exact le_refl _
  | info fates => cases h; exact le_refl _
  | htInit => cases h; exact le_refl _
  | cleanup => cases h; exact le_refl _
  | bar ctl seq => cases h; exact le_refl _
  | age expired => cases h; exact le_refl _

theorem run_cons {es : List BaEvent} (h : s.run (e :: es) = some r) :
    ∃ u v, s.step e = some u ∧ u.1.run es = some v ∧ r = (v.1, u.2 ++ v.2) := by
  simp only [run, Option.bind_eq_bind, Option.bind_eq_some_iff, Option.pure_def, Option.some.injEq] at h
  obtain ⟨u, hu, v, hv, rfl⟩ := h
  exact ⟨u, v, hu, hv, rfl⟩

/-- A run on given data is found by evaluation. -/
theorem exists_run {es : List BaEvent} {P : BaSta × List BaOut → Prop} [DecidablePred P]
    (h : (s.run es).any (fun r => decide (P r)) = true) : ∃ r, s.run es = some r ∧ P r := by
  obtain ⟨r, hr, hP⟩ := (Option.any_eq_true _ _).mp h
  exact ⟨r, hr, of_decide_eq_true hP⟩

/-- What every step keeps holds after a run. -/
theorem run_induct {P : BaSta → Prop} (hstep : ∀ {s e r}, P s → s.step e = some r → P r.1) {es : List BaEvent}
    (hs : P s) (h : s.run es = some r) : P r.1 := by
  induction es generalizing s r with
  | nil =>
    cases h
    exact hs
  | cons e es ih =>
    obtain ⟨u, v, hu, hv, rfl⟩ := run_cons h
    show P v.1
    exact ih (hstep hs hu) hv

end BaSta

/-! ## One thing at a time -/

/-- What holds of a stream at any time: its three states exclude one another, and its timer is pending just
while an answer is awaited. -/
structure TxAmpdu.Ok (tap : TxAmpdu) (ticks : Nat) : Prop where
  waits : tap.xchgPend = true → tap.running = false ∧ tap.nak = false
  runs : tap.running = true → tap.nak = false
  timer : tap.timer.isSome = tap.xchgPend
  wnd : tap.wnd ≤ aggrBawmax
  due : ∀ e, tap.timer = some e → tap.nextrequest = toCInt e
  /-- After an attempt in vain the time of `txa_nextrequest` is over. -/
  tried : tap.attempts ≠ 0 → tap.requested = false → ∃ e ≤ ticks, tap.nextrequest = toCInt e

namespace TxAmpdu

variable {tap tap' : TxAmpdu} {ticks ticks' : Nat} {e : BaEvent}

theorem grantedWnd_le (params : UInt16) : grantedWnd params ≤ aggrBawmax := by
  simp only [grantedWnd]
  split
  · exact le_refl _
  · exact Nat.min_le_right _ _

@[simp] theorem wnd_addbaStopTimeout : tap.addbaStopTimeout.wnd = tap.wnd := by
  unfold addbaStopTimeout
  split <;> rfl

theorem ok_new : ({} : TxAmpdu).Ok ticks := by
  constructor <;> simp

theorem Ok.later (h : tap.Ok ticks) (hle : ticks ≤ ticks') : tap.Ok ticks' :=
  { h with
    tried := fun hatt hreq => by
      obtain ⟨e, he, heq⟩ := h.tried hatt hreq
      exact ⟨e, he.trans hle, heq⟩ }

theorem Ok.addbaStopTimeout (h : tap.Ok ticks) : tap.addbaStopTimeout.timer = none ∧
    tap.addbaStopTimeout.xchgPend = false := by
  unfold TxAmpdu.addbaStopTimeout
  split
  · exact ⟨rfl, rfl⟩
  · rename_i hpend
    have hpend : tap.xchgPend = false := by simpa using hpend
    have htimer := h.timer
    rw [hpend] at htimer
    exact ⟨by simpa using htimer, hpend⟩

theorem Ok.stopped (h : tap.Ok ticks) : tap.stopped.Ok ticks := by
  obtain ⟨htimer, hpend⟩ := h.addbaStopTimeout
  constructor <;> simp [TxAmpdu.stopped, htimer, hpend, h.wnd]

theorem Ok.move (h : tap.Ok ticks) (hmove : TapMove ticks e ac tap tap') : tap'.Ok ticks := by
  cases hmove with
  | same => exact h
  | ask token start params timeout hreq henable =>
    simp only [requested, Bool.or_eq_false_iff] at hreq
    constructor <;> simp [addbaRequest, addbaStartTimeout, requested, hreq, grantedWnd_le]
  | expire due htimer hle =>
    have hpend : tap.xchgPend = true := by rw [← h.timer, htimer]; rfl
    obtain ⟨hrun, hnak⟩ := h.waits hpend
    constructor <;> simp [addbaTimeout, hrun, hnak, h.wnd]
    exact fun _ _ => ⟨due, hle, h.due due htimer⟩
  | answer status params hpend =>
    obtain ⟨hrun, hnak⟩ := h.waits hpend
    unfold answered
    split
    · constructor <;> simp [TxAmpdu.addbaStopTimeout, hpend, hnak, grantedWnd_le]
    · constructor <;> simp [TxAmpdu.addbaStopTimeout, hpend, hrun, requested, h.wnd]
  | stop hend => exact h.stopped
  | clear hres =>
    obtain ⟨htimer, hpend⟩ := h.addbaStopTimeout
    constructor <;> simp [cleared, TxAmpdu.stopped, htimer, hpend, h.wnd]

theorem toULong_toCInt {e : Nat} (h : ticks < 0xffffffff80000000) (hle : e ≤ ticks) :
    ticks < toULong (toCInt e) ↔ toCInt e < 0 := by
  unfold toULong toCInt
  rw [Int.bmod_def]
  norm_num
  split_ifs <;> omega

/-- An attempt is held back, after the last one allowed, just if the time of the next request has become
negative as an `int`. -/
theorem Ok.ampduEnable_iff (h : tap.Ok ticks) (hreq : tap.requested = false)
    (hticks : ticks < 0xffffffff80000000) :
    tap.ampduEnable ticks = false ↔ addbaMaxtries ≤ tap.attempts ∧ tap.nextrequest < 0 := by
  simp only [ampduEnable, Bool.not_eq_false', Bool.and_eq_true, decide_eq_true_eq]
  refine and_congr_right fun hatt => ?_
  have hne : tap.attempts ≠ 0 := by
    intro hzero
    rw [hzero] at hatt
    revert hatt
    decide
  obtain ⟨e, hle, heq⟩ := h.tried hne hreq
  rw [heq]
  exact toULong_toCInt hticks hle

end TxAmpdu

namespace BaSta

variable {s t : BaSta} {e : BaEvent} {r : BaSta × List BaOut}

/-- No agreement has been asked for yet. -/
def new (vap : BaVap) (rx : RxNode) (ticks : Nat) : BaSta :=
  { vap := vap, ni := { rx := rx }, ticks := ticks }

def TapsOk (s : BaSta) : Prop := ∀ ac, (s.ni.txAmpdu ac).Ok s.ticks

theorem TapsOk.step (h : s.TapsOk) (hstep : s.step e = some r) : r.1.TapsOk :=
  fun ac => ((h ac).move (tapMove_step hstep ac)).later (ticks_step hstep)

theorem tapsOk_run {rx : RxNode} {ticks : Nat} {es : List BaEvent} (h : (new vap rx ticks).run es = some r) :
    r.1.TapsOk :=
  run_induct TapsOk.step (fun _ => TxAmpdu.ok_new) h

/-- A stream waits for an answer, runs, or is refused, and its timer is pending just while it waits. -/
theorem run_one_state {rx : RxNode} {ticks : Nat} {es : List BaEvent}
    (h : (new vap rx ticks).run es = some r) (ac : WmeAc) :
    let tap := r.1.ni.txAmpdu ac
    (tap.xchgPend = true → tap.running = false ∧ tap.nak = false) ∧ (tap.running = true → tap.nak = false) ∧
      tap.timer.isSome = tap.xchgPend :=
  have hok := tapsOk_run h ac
  ⟨hok.waits, hok.runs, hok.timer⟩

/-- A peer with HT. -/
def htPeer : RxNode := { macaddr := [], ht := true, ampduTx := true, nrates := 1 }

theorem first_frame_one_state : ∃ r, (new {} htPeer 0).run [.start .be false] = some r ∧
    (r.1.ni.txAmpdu .be).xchgPend = true ∧
    (r.1.ni.txAmpdu .be).running = false ∧ (r.1.ni.txAmpdu .be).nak = false ∧
    (r.1.ni.txAmpdu .be).timer.isSome = true := by
  have hex : ∃ r, (new {} htPeer 0).run [.start .be false] = some r ∧ (r.1.ni.txAmpdu .be).xchgPend = true :=
    exists_run (by decide)
  obtain ⟨r, hr, hpend⟩ := hex
  obtain ⟨hwaits, -, htimer⟩ := run_one_state hr .be
  exact ⟨r, hr, hpend, (hwaits hpend).1, (hwaits hpend).2, htimer.trans hpend⟩

/-- Whether the limit of attempts holds a request back depends on one bit of the clock at the last request:
the time of the next one is kept in an `int`. -/
theorem run_ampduEnable_iff {rx : RxNode} {ticks : Nat} {es : List BaEvent}
    (h : (new vap rx ticks).run es = some r) (hticks : r.1.ticks < 0xffffffff80000000) (ac : WmeAc)
    (hreq : (r.1.ni.txAmpdu ac).requested = false) :
    (r.1.ni.txAmpdu ac).ampduEnable r.1.ticks = false ↔
      addbaMaxtries ≤ (r.1.ni.txAmpdu ac).attempts ∧ (r.1.ni.txAmpdu ac).nextrequest < 0 :=
  (tapsOk_run h ac).ampduEnable_iff hreq hticks

/-- Three requests of a best effort stream, and no answer. -/
def threeTries : List BaEvent :=
  [.start .be false, .tick 70, .timeout .be, .start .be false, .tick 70, .timeout .be,
    .start .be false, .tick 70, .timeout .be]

/-- The clock has just set its bit 31. -/
theorem threeTries_ampduEnable : ∃ r, (new {} htPeer 0x80000000).run threeTries = some r ∧
    (r.1.ni.txAmpdu .be).ampduEnable r.1.ticks = false := by
  have hex : ∃ r, (new {} htPeer 0x80000000).run threeTries = some r ∧
      r.1.ticks < 0xffffffff80000000 ∧ (r.1.ni.txAmpdu .be).requested = false ∧
      addbaMaxtries ≤ (r.1.ni.txAmpdu .be).attempts ∧ (r.1.ni.txAmpdu .be).nextrequest < 0 :=
    exists_run (by decide)
  obtain ⟨r, hr, hticks, hreq, hheld⟩ := hex
  exact ⟨r, hr, (run_ampduEnable_iff hr hticks .be hreq).mpr hheld⟩

example : ((new {} htPeer 0).run threeTries).any
    (fun r => (r.1.ni.txAmpdu .be).ampduEnable r.1.ticks) = true := by decide

end BaSta

/-! ## When nothing is asked any more -/

theorem TapMove.nak {tap tap' : TxAmpdu} {ticks : Nat} {e : BaEvent} (hmove : TapMove ticks e ac tap tap')
    (h : tap.Ok ticks) (hnak : tap.nak = true) (hres : e.resets = false) : tap'.nak = true := by
  cases hmove with
  | same => exact hnak
  | ask token start params timeout hreq henable => simp [TxAmpdu.requested, hnak] at hreq
  | expire due htimer hle => exact hnak
  | answer status params hpend =>
    rw [(h.waits hpend).2] at hnak
    cases hnak
  | stop hend =>
    unfold TxAmpdu.stopped TxAmpdu.addbaStopTimeout
    split <;> exact hnak
  | clear hclear =>
    rw [hres] at hclear
    cases hclear

/-- A stream that neither waits nor asks stays as it is until something ends it. -/
theorem TapMove.eq_self {tap tap' : TxAmpdu} {ticks : Nat} {e : BaEvent} (hmove : TapMove ticks e ac tap tap')
    (h : tap.Ok ticks) (hpend : tap.xchgPend = false)
    (hasks : tap.requested = false → tap.ampduEnable ticks = false) (hres : e.resets = false)
    (hends : ¬ e.ends ac) (hstop : tap.running = true → ∀ reason, e ≠ .stop ac reason) : tap' = tap := by
  cases hmove with
  | same => rfl
  | ask token start params timeout hreq henable =>
    rw [hasks hreq] at henable
    cases henable
  | expire due htimer hle =>
    have htime := h.timer
    rw [htimer, hpend] at htime
    cases htime
  | answer status params hpend' =>
    rw [hpend] at hpend'
    cases hpend'
  | stop hend =>
    rcases hend with ⟨hrun, reason, rfl⟩ | hend
    · exact absurd rfl (hstop hrun reason)
    · exact absurd hend hends
  | clear hclear =>
    rw [hres] at hclear
    cases hclear

@[simp] theorem tidToWmeAc_wmeAcToTid (ac : WmeAc) : tidToWmeAc (wmeAcToTid ac) = ac := by
  cases ac <;> decide

theorem wmeAcToTid_inj {ac ac' : WmeAc} (h : wmeAcToTid ac = wmeAcToTid ac') : ac = ac' := by
  rw [← tidToWmeAc_wmeAcToTid ac, h, tidToWmeAc_wmeAcToTid]

theorem tidOf_and (tid : Fin wmeNumTid) : tidOf (UInt16.ofNat tid.val &&& 0x000f).toNat = tid := by
  revert tid
  decide

@[simp] theorem bapsTid_baparams (tid : Fin wmeNumTid) (b : UInt16) :
    bapsTid (baparams (UInt16.ofNat tid.val) b) = tid := by
  rw [bapsTid, tid_baparams, tidOf_and]

/-- The action frames among the outputs. -/
def sent (outs : List BaOut) : List BaAction :=
  outs.filterMap fun
    | .send a => some a
    | _ => none

@[simp] theorem sent_append (outs outs' : List BaOut) : sent (outs ++ outs') = sent outs ++ sent outs' :=
  List.filterMap_append

namespace BaNode

@[simp] theorem sent_sendStationInfo (ev : StaNotify) : sent (ni.sendStationInfo vap ev).2 = [] := by
  simp only [sendStationInfo, coreSendStationInfo]
  split <;> rfl

@[simp] theorem sent_addbaStop : sent (ni.addbaStop vap ac).2 = [] := by
  simp only [addbaStop]
  split
  · exact sent_sendStationInfo _
  · rfl

@[simp] theorem sent_txCleanup (acs : List WmeAc) : sent (txCleanup vap acs ni).2 = [] := by
  induction acs generalizing ni with
  | nil => rfl
  | cons ac acs ih =>
    simp only [txCleanup, sent_append, ih, List.append_nil]
    split
    · exact sent_addbaStop
    · rfl

@[simp] theorem sent_cleanup : sent (ni.cleanup vap).2 = [] := by
  unfold cleanup
  split
  · exact sent_txCleanup _
  · rfl

@[simp] theorem sent_recvAddbaResponse (token : UInt8) (code params : UInt16) :
    sent (ni.recvAddbaResponse vap token code params).2 = [] := by
  simp only [recvAddbaResponse, addbaResponse]
  split_ifs
  · rfl
  · rfl
  · rfl
  · exact sent_sendStationInfo _
  · rfl

@[simp] theorem sent_recvDelba (params : UInt16) : sent (ni.recvDelba vap params).2 = [] := by
  simp only [recvDelba, sent_append, sent_sendStationInfo, List.append_nil]
  split
  · exact sent_addbaStop
  · rfl

/-- The answer to a request names its stream and repeats its token. -/
@[simp] theorem sent_recvAddbaRequest (token : UInt8) (params seqctl : UInt16) :
    sent (ni.recvAddbaRequest vap token params seqctl).2 =
      [.addbaResponse token
        (if ni.rx.ampduTx ∧ ni.rx.nrates ≠ 0 ∧ vap.ampduRx then statusSuccess else statusUnspecified)
        (baparams (UInt16.ofNat (bapsTid params).val) vap.aggrRxLimit.toUInt16) 0] := by
  simp only [recvAddbaRequest]
  exact congrArg (_ :: ·) (sent_sendStationInfo _)

end BaNode

namespace BaSta

variable {s t : BaSta} {e : BaEvent} {r q : BaSta × List BaOut} {rx : RxNode} {ticks : Nat}
  {es es' : List BaEvent}

/-- A frame that finds its stream neither running nor asked for, and not held back. -/
def Asks (s : BaSta) (ac : WmeAc) : Prop :=
  (s.ni.txAmpdu ac).requested = false ∧ (s.ni.txAmpdu ac).ampduEnable s.ticks = true

theorem asks_of_request {token : UInt8} {params timeout seqctl : UInt16} (h : s.step e = some r)
    (hsent : .addbaRequest token params timeout seqctl ∈ sent r.2) :
    s.Asks (tidToWmeAc (bapsTid params)) := by
  cases e with
  | start ac eapol =>
    cases h
    simp only [start] at hsent
    split_ifs at hsent with hht hrun hask
    · simp [sent] at hsent
    · simp only [ampduRequest, sent, List.filterMap_append, List.filterMap_cons, List.filterMap_nil,
        List.append_nil, List.mem_singleton] at hsent
      cases hsent
      simpa [Asks] using hask
    · simp [sent] at hsent
    · simp [sent] at hsent
  | recv frm =>
    cases h
    unfold recv at hsent
    split at hsent
    · simp [sent] at hsent
    · rename_i a _
      cases a <;> simp [onNode, BaNode.recvAction] at hsent
  | stop ac reason =>
    cases h
    unfold ampduStop at hsent
    split at hsent
    · simp [sent_append] at hsent
      simp [sent] at hsent
    · simp [sent] at hsent
  | timeout ac =>
    simp only [step] at h
    split at h <;> cases h
    simp [sent] at hsent
  | data ampdu expired m =>
    obtain ⟨u, -, rfl⟩ := Option.map_eq_some_iff.mp h
    simp [sent] at hsent
  | htInit =>
    cases h
    simp [onNode, BaNode.htNodeInit] at hsent
  | cleanup =>
    cases h
    simp [onNode] at hsent
  | tick n => cases h; simp [sent] at hsent
  | txseq tid seq => cases h; simp [sent] at hsent
  | other => cases h; simp [sent] at hsent
  | info fates => cases h; simp [sent] at hsent
  | bar ctl seq => cases h; simp [sent] at hsent
  | age expired => cases h; simp [sent] at hsent

theorem ticks_run (h : s.run es = some r) : s.ticks ≤ r.1.ticks :=
  run_induct (P := fun t => s.ticks ≤ t.ticks) (fun hle hstep => hle.trans (ticks_step hstep)) (le_refl _) h

/-- While something keeps a stream from asking, no request for it is sent. -/
theorem run_quiet (ac : WmeAc) {P : BaSta → Prop} {ok : BaEvent → Prop} {bound : Nat}
    (hkeep : ∀ {s e r}, P s → s.ticks < bound → ok e → s.step e = some r → P r.1)
    (hquiet : ∀ {s}, P s → s.ticks < bound → ¬ s.Asks ac) (hs : P s) (hok : ∀ e ∈ es, ok e)
    (h : s.run es = some r) (hbound : r.1.ticks < bound) :
    P r.1 ∧ ∀ token params timeout seqctl, .addbaRequest token params timeout seqctl ∈ sent r.2 →
      tidToWmeAc (bapsTid params) ≠ ac := by
  induction es generalizing s r with
  | nil =>
    cases h
    exact ⟨hs, by simp [sent]⟩
  | cons e es ih =>
    obtain ⟨u, v, hu, hv, rfl⟩ := run_cons h
    have hlt : s.ticks < bound := ((ticks_step hu).trans (ticks_run hv)).trans_lt hbound
    obtain ⟨hend, hrest⟩ :=
      ih (hkeep hs hlt (hok e List.mem_cons_self) hu) (fun e he => hok e (List.mem_cons_of_mem _ he)) hv
        hbound
    refine ⟨hend, fun token params timeout seqctl hmem => ?_⟩
    rw [sent_append] at hmem
    rcases List.mem_append.mp hmem with hmem | hmem
    · rintro rfl
      exact hquiet hs hlt (asks_of_request hu hmem)
    · exact hrest token params timeout seqctl hmem

def Refused (ac : WmeAc) (s : BaSta) : Prop := s.TapsOk ∧ (s.ni.txAmpdu ac).nak = true

theorem Refused.step (h : s.Refused ac) (hres : e.resets = false) (hstep : s.step e = some r) :
    r.1.Refused ac :=
  ⟨h.1.step hstep, (tapMove_step hstep ac).nak (h.1 ac) h.2 hres⟩

theorem Refused.not_asks (h : s.Refused ac) : ¬ s.Asks ac := by
  simp [Asks, TxAmpdu.requested, h.2]

/-- A refusal is final: until the node's HT state is set up anew the stream is not asked for again. -/
theorem run_refused (h : (new vap rx ticks).run es = some r) (hnak : (r.1.ni.txAmpdu ac).nak = true)
    (hes : ∀ e ∈ es', e.resets = false) (h' : r.1.run es' = some q) :
    (q.1.ni.txAmpdu ac).nak = true ∧
      ∀ token params timeout seqctl, .addbaRequest token params timeout seqctl ∈ sent q.2 →
        tidToWmeAc (bapsTid params) ≠ ac := by
  obtain ⟨hend, hquiet⟩ := run_quiet ac (fun hs _ hres hstep => Refused.step hs hres hstep)
    (fun hs _ => hs.not_asks) ⟨tapsOk_run h, hnak⟩ hes h' (Nat.lt_succ_self _)
  exact ⟨hend.2, hquiet⟩

/-- The answer to the first request, which refuses. -/
def refusal : List UInt8 := BaAction.bytes (.addbaResponse 1 statusUnspecified (baparams 0 64) 0)

theorem refusal_refused : ∃ r q, (new {} htPeer 0).run [.start .be false, .recv refusal] = some r ∧
    r.1.run [.start .be false] = some q ∧ (q.1.ni.txAmpdu .be).nak = true ∧
    ∀ token params timeout seqctl, .addbaRequest token params timeout seqctl ∈ sent q.2 →
      tidToWmeAc (bapsTid params) ≠ .be := by
  have hex : ∃ r, (new {} htPeer 0).run [.start .be false, .recv refusal] = some r ∧
      (r.1.ni.txAmpdu .be).nak = true ∧ (r.1.run [.start .be false]).isSome = true :=
    exists_run (by decide)
  obtain ⟨r, hr, hnak, hsome⟩ := hex
  obtain ⟨q, hq⟩ := Option.isSome_iff_exists.mp hsome
  exact ⟨r, q, hr, hq, run_refused hr hnak (by decide) hq⟩

/-- The attempts are used up, and the time of the next one is negative. -/
structure HeldBack (ac : WmeAc) (tap : TxAmpdu) (s : BaSta) : Prop where
  ok : s.TapsOk
  tap_eq : s.ni.txAmpdu ac = tap
  requested : tap.requested = false
  attempts : addbaMaxtries ≤ tap.attempts
  late : tap.nextrequest < 0

namespace HeldBack

variable {tap : TxAmpdu}

theorem ampduEnable (h : s.HeldBack ac tap) (hticks : s.ticks < 0xffffffff80000000) :
    (s.ni.txAmpdu ac).ampduEnable s.ticks = false := by
  have hreq : (s.ni.txAmpdu ac).requested = false := by rw [h.tap_eq]; exact h.requested
  rw [(h.ok ac).ampduEnable_iff hreq hticks, h.tap_eq]
  exact ⟨h.attempts, h.late⟩

theorem step (h : s.HeldBack ac tap) (hticks : s.ticks < 0xffffffff80000000)
    (he : e.resets = false ∧ ¬ e.ends ac) (hstep : s.step e = some r) : r.1.HeldBack ac tap := by
  have hreq : (s.ni.txAmpdu ac).requested = false := by rw [h.tap_eq]; exact h.requested
  simp only [TxAmpdu.requested, Bool.or_eq_false_iff] at hreq
  have hsame := (tapMove_step hstep ac).eq_self (h.ok ac) hreq.1.2 (fun _ => h.ampduEnable hticks) he.1 he.2
    (by simp [hreq])
  exact { h with ok := h.ok.step hstep, tap_eq := hsame.trans h.tap_eq }

theorem not_asks (h : s.HeldBack ac tap) (hticks : s.ticks < 0xffffffff80000000) : ¬ s.Asks ac := by
  simp [Asks, h.ampduEnable hticks]

end HeldBack

/-- A stream whose attempts end at such a time is never asked for again, however long one waits, unless the
peer sends a DELBA for it or the node's HT state is set up anew. -/
theorem run_heldBack (h : (new vap rx ticks).run es = some r) (hreq : (r.1.ni.txAmpdu ac).requested = false)
    (hatt : addbaMaxtries ≤ (r.1.ni.txAmpdu ac).attempts) (hlate : (r.1.ni.txAmpdu ac).nextrequest < 0)
    (hes : ∀ e ∈ es', e.resets = false ∧ ¬ e.ends ac) (h' : r.1.run es' = some q)
    (hticks : q.1.ticks < 0xffffffff80000000) :
    q.1.ni.txAmpdu ac = r.1.ni.txAmpdu ac ∧
      ∀ token params timeout seqctl, .addbaRequest token params timeout seqctl ∈ sent q.2 →
        tidToWmeAc (bapsTid params) ≠ ac := by
  obtain ⟨hend, hquiet⟩ := run_quiet ac (fun hs hlt he hstep => HeldBack.step hs hlt he hstep)
    (fun hs hlt => hs.not_asks hlt) ⟨tapsOk_run h, rfl, hreq, hatt, hlate⟩ hes h' hticks
  exact ⟨hend.tap_eq, hquiet⟩

theorem threeTries_heldBack : ∃ r q, (new {} htPeer 0x80000000).run threeTries = some r ∧
    r.1.run [.tick 1000000000, .start .be false] = some q ∧
    q.1.ni.txAmpdu .be = r.1.ni.txAmpdu .be ∧
    ∀ token params timeout seqctl, .addbaRequest token params timeout seqctl ∈ sent q.2 →
      tidToWmeAc (bapsTid params) ≠ .be := by
  have hex : ∃ r, (new {} htPeer 0x80000000).run threeTries = some r ∧
      (r.1.ni.txAmpdu .be).requested = false ∧ addbaMaxtries ≤ (r.1.ni.txAmpdu .be).attempts ∧
      (r.1.ni.txAmpdu .be).nextrequest < 0 ∧
      (r.1.run [.tick 1000000000, .start .be false]).any (fun q => q.1.ticks < 0xffffffff80000000) = true :=
    exists_run (by decide)
  obtain ⟨r, hr, hreq, hatt, hlate, hany⟩ := hex
  obtain ⟨q, hq, hticks⟩ := (Option.any_eq_true _ _).mp hany
  refine ⟨r, q, hr, hq, run_heldBack hr hreq hatt hlate ?_ hq (of_decide_eq_true hticks)⟩
  simp [BaEvent.resets, BaEvent.ends]

end BaSta

/-! ## What the firmware is told -/

namespace RxAmpdu

variable {rap : RxAmpdu}

@[simp] theorem running_drainLoop (fate : Mbuf → RxFate) (k i : Nat) :
    (drainLoop fate k i rap).1.running = rap.running := by
  induction k generalizing i rap with
  | zero => rfl
  | succ k ih =>
    simp only [drainLoop]
    split
    · exact ih (i + 1)
    · split
      · rfl
      · exact ih (i + 1)

@[simp] theorem running_dispatchLoop (k i : Nat) : (dispatchLoop k i rap).2.1.running = rap.running := by
  induction k generalizing i rap with
  | zero => rfl
  | succ k ih =>
    unfold dispatchLoop
    split
    · rfl
    · exact ih (i + 1)

@[simp] theorem running_flushUptoLoop (winstart k i seqno : Nat) :
    (flushUptoLoop winstart k i seqno rap).2.2.1.running = rap.running := by
  induction k generalizing i seqno rap with
  | zero => rfl
  | succ k ih =>
    unfold flushUptoLoop
    split
    · exact ih (i + 1) (seqInc seqno)
    · split
      · exact ih (i + 1) (seqInc seqno)
      · rfl

@[simp] theorem running_shift (i : Nat) : (rap.shift i).running = rap.running := by
  unfold shift
  split <;> rfl

theorem running_reorderFrom {expired : Bool} {b : Mbuf} {rxseq fuel : Nat}
    {r : RxAmpdu × List RxFate × Verdict} (h : reorderFrom expired b rxseq fuel rap = some r) :
    r.1.running = rap.running := by
  induction fuel generalizing rap r with
  | zero => cases h
  | succ fuel ih =>
    simp only [reorderFrom] at h
    split at h
    · split at h
      · cases h
        simp [ampduRxDispatch]
      · cases h
        rfl
    · split at h
      · split at h
        · cases h
          simp [ampduRxFlush]
        · split at h
          · cases h
            rfl
          · cases h
            rfl
      · split at h
        · obtain ⟨q, hq, rfl⟩ := Option.map_eq_some_iff.mp h
          rw [ih hq]
          simp [ampduRxFlushUpto]
        · cases h
          rfl

theorem running_input {expired : Bool} {m : Mbuf} {r : RxAmpdu × List RxFate}
    (h : rap.input expired m = some r) : r.1.running = rap.running := by
  obtain ⟨q, hq, rfl⟩ := Option.map_eq_some_iff.mp h
  have hsettle : (settle m q).1 = q.1 := by
    unfold settle
    split <;> rfl
  rw [hsettle]
  simp only [reorder] at hq
  split_ifs at hq
  · cases hq
    rfl
  · cases hq
    rfl
  · cases hq
    rfl
  · exact (running_reorderFrom hq).trans rfl

@[simp] theorem running_recvBar (rxseq : Nat) : (rap.recvBar rxseq).1.running = rap.running := by
  simp only [recvBar]
  split_ifs <;> simp [ampduRxFlushUpto]

@[simp] theorem running_htAge (expired : Bool) : (rap.htAge expired).1.running = rap.running := by
  simp only [htAge]
  split_ifs <;> simp [ampduRxFlush]

end RxAmpdu

/-- What the firmware has last been told of a stream, of its receiving end if `rx` is set. -/
def told (fw : Bool → Fin wmeNumTid → Bool) : List BaOut → Bool → Fin wmeNumTid → Bool
  | [] => fw
  | .notify ind :: outs =>
    told (fun rx tid => if ind.rx = rx ∧ ind.tid = tid then ind.start else fw rx tid) outs
  | _ :: outs => told fw outs

@[simp] theorem told_append (fw : Bool → Fin wmeNumTid → Bool) (outs outs' : List BaOut) :
    told fw (outs ++ outs') = told (told fw outs) outs' := by
  induction outs generalizing fw with
  | nil => rfl
  | cons o outs ih => cases o <;> exact ih _

/-- The firmware knows of the streams that run. -/
structure BaNode.Known (ni : BaNode) (fw : Bool → Fin wmeNumTid → Bool) : Prop where
  tx : ∀ ac, (ni.txAmpdu ac).running = true → ∃ tid, tidToWmeAc tid = ac ∧ fw false tid = true
  rx : ∀ tid, (ni.rx.rxAmpdu tid).running = true → fw true tid = true

theorem RxNode.rxAmpdu_delba (rx : RxNode) (params : UInt16) :
    (rx.delba params).1.rxAmpdu =
      if params &&& delbapsInit = 0 then rx.rxAmpdu
      else Function.update rx.rxAmpdu (delbapsTid params) (rx.rxAmpdu (delbapsTid params)).ampduRxStop.1 := by
  unfold RxNode.delba
  split
  · exact (if_pos ‹_›).symm
  · exact (if_neg ‹_›).symm

theorem RxNode.rxAmpdu_addbaRequest (rx : RxNode) (ampduRx : Bool) (params seqctl : UInt16) :
    (rx.addbaRequest ampduRx params seqctl).1.rxAmpdu =
      if rx.ampduTx ∧ rx.nrates ≠ 0 ∧ ampduRx then
        Function.update rx.rxAmpdu (bapsTid params)
          ((rx.rxAmpdu (bapsTid params)).ampduRxStart params seqctl).1
      else rx.rxAmpdu := by
  simp only [RxNode.addbaRequest]
  split <;> rfl

namespace BaNode

variable {fw fw' : Bool → Fin wmeNumTid → Bool} {ni' : BaNode}

/-- Fewer streams run, or the firmware takes more of them for running. -/
theorem Known.mono (h : ni.Known fw) (hfw : ∀ b tid, fw b tid = true → fw' b tid = true)
    (htx : ∀ ac, (ni'.txAmpdu ac).running = true → (ni.txAmpdu ac).running = true)
    (hrx : ∀ tid, (ni'.rx.rxAmpdu tid).running = true → (ni.rx.rxAmpdu tid).running = true) :
    ni'.Known fw' where
  tx ac hrun := by
    obtain ⟨tid, htid, htold⟩ := h.tx ac (htx ac hrun)
    exact ⟨tid, htid, hfw false tid htold⟩
  rx tid hrun := hfw true tid (h.rx tid (hrx tid hrun))

theorem told_sendStationInfo (h : ni.infoFate 0 = .sent) (ev : StaNotify) :
    told fw (ni.sendStationInfo vap ev).2 = fun rx tid =>
      if (ni.ampduInd ev).rx = rx ∧ (ni.ampduInd ev).tid = tid then (ni.ampduInd ev).start else fw rx tid := by
  simp only [sendStationInfo, coreSendStationInfo, h]
  cases ev with
  | addbaDone =>
    simp only [noteAddba]
    split <;> rfl
  | rxAddbaDone => rfl
  | rxDelba => rfl

theorem told_sendStationInfo_of_ne (h : ni.infoFate 0 ≠ .sent) (ev : StaNotify) :
    told fw (ni.sendStationInfo vap ev).2 = fw := by
  simp only [sendStationInfo, coreSendStationInfo]
  split
  · rfl
  · rfl
  · next hsent => exact absurd hsent h

/-- A notice makes the firmware forget no stream but the one it stops. -/
theorem told_sendStationInfo_of_told {b : Bool} {tid : Fin wmeNumTid} {ev : StaNotify} (h : fw b tid = true)
    (hkeep : (ni.ampduInd ev).start = true ∨ ¬ ((ni.ampduInd ev).rx = b ∧ (ni.ampduInd ev).tid = tid)) :
    told fw (ni.sendStationInfo vap ev).2 b tid = true := by
  by_cases hsent : ni.infoFate 0 = .sent
  · rw [told_sendStationInfo hsent]
    dsimp only
    split_ifs with hnamed
    · exact hkeep.resolve_right (not_not.mpr hnamed)
    · exact h
  · rwa [told_sendStationInfo_of_ne hsent]

theorem told_addbaStop_of_told {b : Bool} {tid : Fin wmeNumTid} (h : fw b tid = true) :
    told fw (ni.addbaStop vap ac).2 b tid = true := by
  simp only [addbaStop]
  split
  · exact told_sendStationInfo_of_told h (.inl rfl)
  · exact h

theorem told_txCleanup_of_told {b : Bool} {tid : Fin wmeNumTid} (acs : List WmeAc) (h : fw b tid = true) :
    told fw (txCleanup vap acs ni).2 b tid = true := by
  induction acs generalizing fw ni with
  | nil => exact h
  | cons ac acs ih =>
    simp only [txCleanup, told_append]
    apply ih
    split
    · exact told_addbaStop_of_told h
    · exact h

theorem running_of_update_stopped {taps : WmeAc → TxAmpdu}
    (h : (Function.update taps ac (taps ac).stopped ac').running = true) : (taps ac').running = true := by
  by_cases hac : ac' = ac
  · subst hac
    simp [TxAmpdu.stopped] at h
  · simpa [hac] using h

theorem Known.addbaStop (h : ni.Known fw) :
    (ni.addbaStop vap ac).1.Known (told fw (ni.addbaStop vap ac).2) := by
  refine h.mono (fun b tid => told_addbaStop_of_told) (fun ac' hrun => ?_) (fun tid hrun => ?_)
  · rw [txAmpdu_addbaStop] at hrun
    exact running_of_update_stopped hrun
  · simpa using hrun

theorem Known.cleanup (h : ni.Known fw) : (ni.cleanup vap).1.Known (told fw (ni.cleanup vap).2) := by
  unfold BaNode.cleanup
  split
  · refine h.mono (fun b tid => told_txCleanup_of_told _) (fun ac' hrun => ?_) (fun tid hrun => ?_)
    · rw [txAmpdu_htNodeCleanup] at hrun
      split at hrun
      · simp [TxAmpdu.cleared, TxAmpdu.stopped] at hrun
      · exact hrun
    · simp [htNodeCleanup, RxNode.htNodeCleanup, RxNode.onQueues, RxAmpdu.ampduRxStop] at hrun
  · exact h

theorem running_answered_refused {tap : TxAmpdu} {status params : UInt16} (h : status ≠ statusSuccess) :
    (tap.answered status params).running = tap.running := by
  unfold TxAmpdu.answered TxAmpdu.addbaStopTimeout
  rw [if_neg h]
  split <;> rfl

/-- The category of the stream is that of the TID in the answer. -/
theorem Known.addbaResponse (h : ni.Known fw) (hinfo : ni.infoFate 0 = .sent) (status params : UInt16) :
    (ni.addbaResponse vap (tidToWmeAc (bapsTid params)) status params).1.Known
      (told fw (ni.addbaResponse vap (tidToWmeAc (bapsTid params)) status params).2) := by
  by_cases hstatus : status = statusSuccess
  · have hup : ∀ b tid, fw b tid = true →
        told fw (ni.addbaResponse vap (tidToWmeAc (bapsTid params)) status params).2 b tid = true := by
      intro b tid htold
      rw [BaNode.addbaResponse, if_pos hstatus]
      exact told_sendStationInfo_of_told htold (.inl rfl)
    refine ⟨fun ac hrun => ?_, fun tid hrun => hup _ _ (h.rx tid (by simpa using hrun))⟩
    by_cases hac : ac = tidToWmeAc (bapsTid params)
    · refine ⟨bapsTid params, hac.symm, ?_⟩
      simp only [BaNode.addbaResponse, if_pos hstatus]
      rw [told_sendStationInfo (by exact hinfo)]
      exact if_pos ⟨rfl, rfl⟩
    · rw [txAmpdu_addbaResponse, Function.update_of_ne hac] at hrun
      obtain ⟨tid, htid, htold⟩ := h.tx ac hrun
      exact ⟨tid, htid, hup _ _ htold⟩
  · refine h.mono (fun b tid htold => ?_) (fun ac hrun => ?_) (fun tid hrun => by simpa using hrun)
    · rw [BaNode.addbaResponse, if_neg hstatus]
      exact htold
    · rw [txAmpdu_addbaResponse] at hrun
      by_cases hac : ac = tidToWmeAc (bapsTid params)
      · subst hac
        rwa [Function.update_self, running_answered_refused hstatus] at hrun
      · rwa [Function.update_of_ne hac] at hrun

theorem Known.recvAddbaResponse (h : ni.Known fw) (hinfo : ni.infoFate 0 = .sent) (token : UInt8)
    (code params : UInt16) :
    (ni.recvAddbaResponse vap token code params).1.Known
      (told fw (ni.recvAddbaResponse vap token code params).2) := by
  simp only [BaNode.recvAddbaResponse]
  split_ifs
  · exact h
  · exact h
  · exact h
  · exact h.addbaResponse hinfo code params

/-- The firmware hears of every request, granted or not. -/
theorem Known.recvAddbaRequest (h : ni.Known fw) (hinfo : ni.infoFate 0 = .sent) (token : UInt8)
    (params seqctl : UInt16) :
    (ni.recvAddbaRequest vap token params seqctl).1.Known
      (told fw (ni.recvAddbaRequest vap token params seqctl).2) := by
  have htold : told fw (ni.recvAddbaRequest vap token params seqctl).2 =
      fun rx tid => if true = rx ∧ bapsTid params = tid then true else fw rx tid := by
    simp only [BaNode.recvAddbaRequest, told]
    rw [told_sendStationInfo (by exact hinfo)]
    rfl
  rw [htold]
  refine ⟨fun ac hrun => ?_, fun tid hrun => ?_⟩
  · obtain ⟨tid, htid, htx⟩ := h.tx ac (by simpa using hrun)
    exact ⟨tid, htid, by simpa using htx⟩
  · by_cases htid : bapsTid params = tid
    · simp [htid]
    · have hsame : (ni.rx.addbaRequest vap.ampduRx params seqctl).1.rxAmpdu tid = ni.rx.rxAmpdu tid := by
        rw [RxNode.rxAmpdu_addbaRequest]
        split
        · exact Function.update_of_ne (Ne.symm htid) _ _
        · rfl
      rw [rx_recvAddbaRequest, hsame] at hrun
      simp [htid, h.rx tid hrun]

theorem delbaInd_addbaStop : (ni.addbaStop vap ac).1.delbaInd = ni.delbaInd := by
  simp only [BaNode.addbaStop]
  split
  · obtain ⟨_, _, _, h⟩ := BaNode.sendStationInfo_fst (ni.setTap ac _) vap .addbaDone
    rw [h]
    rfl
  · rfl

/-- A DELBA makes the firmware forget no stream but the one it names. -/
theorem told_recvDelba_of_told {params : UInt16} {b : Bool} {tid : Fin wmeNumTid} (h : fw b tid = true)
    (hne : ¬ (decide (params &&& delbapsInit ≠ 0) = b ∧ delbapsTid params = tid)) :
    told fw (ni.recvDelba vap params).2 b tid = true := by
  simp only [BaNode.recvDelba, told_append]
  split
  · next hinit =>
    refine told_sendStationInfo_of_told (told_addbaStop_of_told h) (.inr ?_)
    simpa [ampduInd, delbaInd_addbaStop, hinit] using hne
  · next hinit =>
    refine told_sendStationInfo_of_told h (.inr ?_)
    simpa [ampduInd, hinit] using hne

/-- The streams of the other categories have other TIDs. -/
theorem Known.recvDelba (h : ni.Known fw) (params : UInt16) :
    (ni.recvDelba vap params).1.Known (told fw (ni.recvDelba vap params).2) := by
  refine ⟨fun ac hrun => ?_, fun tid hrun => ?_⟩
  · rw [txAmpdu_recvDelba] at hrun
    by_cases hinit : params &&& delbapsInit = 0
    · rw [if_pos hinit] at hrun
      have hac : ac ≠ tidToWmeAc (delbapsTid params) := by
        rintro rfl
        simp [TxAmpdu.stopped] at hrun
      obtain ⟨tid, htid, htx⟩ := h.tx ac (running_of_update_stopped hrun)
      refine ⟨tid, htid, told_recvDelba_of_told htx ?_⟩
      rintro ⟨-, rfl⟩
      exact hac htid.symm
    · rw [if_neg hinit] at hrun
      obtain ⟨tid, htid, htx⟩ := h.tx ac hrun
      exact ⟨tid, htid, told_recvDelba_of_told htx (by simp [hinit])⟩
  · rw [rx_recvDelba, RxNode.rxAmpdu_delba] at hrun
    by_cases hinit : params &&& delbapsInit = 0
    · rw [if_pos hinit] at hrun
      exact told_recvDelba_of_told (h.rx tid hrun) (by simp [hinit])
    · rw [if_neg hinit] at hrun
      have htid : tid ≠ delbapsTid params := by
        rintro rfl
        simp [RxAmpdu.ampduRxStop] at hrun
      rw [Function.update_of_ne htid] at hrun
      exact told_recvDelba_of_told (h.rx tid hrun) fun hc => htid hc.2.symm

/-- The call that a request or an answer leads to gets through. -/
def informs (ni : BaNode) : BaAction → Bool
  | .addbaRequest .. => ni.infoFate 0 = .sent
  | .addbaResponse .. => ni.infoFate 0 = .sent
  | .delba .. => true

theorem Known.recvAction (h : ni.Known fw) {a : BaAction} (hinfo : ni.informs a = true) :
    (ni.recvAction vap a).1.Known (told fw (ni.recvAction vap a).2) := by
  cases a with
  | addbaRequest token params timeout seqctl =>
    exact h.recvAddbaRequest (of_decide_eq_true hinfo) token params seqctl
  | addbaResponse token code params timeout =>
    exact h.recvAddbaResponse (of_decide_eq_true hinfo) token code params
  | delba params reason => exact h.recvDelba params

/-- The queues are worked on and none is started. -/
theorem Known.queues {rx : RxNode} (h : ni.Known fw)
    (hrx : ∀ tid, (rx.rxAmpdu tid).running = (ni.rx.rxAmpdu tid).running) : { ni with rx := rx }.Known fw :=
  ⟨h.tx, fun tid hrun => h.rx tid (hrx tid ▸ hrun)⟩

end BaNode

namespace RxNode

variable {rx : RxNode}

theorem running_onQueue {tid : Fin wmeNumTid} {r : RxAmpdu × List RxFate}
    (h : r.1.running = (rx.rxAmpdu tid).running) (tid' : Fin wmeNumTid) :
    ((rx.onQueue tid r).1.rxAmpdu tid').running = (rx.rxAmpdu tid').running := by
  by_cases htid : tid' = tid
  · subst htid
    simpa [onQueue] using h
  · simp [onQueue, htid]

theorem running_rxInput {ampdu expired : Bool} {m : Mbuf} {r : RxNode × List RxFate}
    (h : rx.input ampdu expired m = some r) (tid : Fin wmeNumTid) :
    (r.1.rxAmpdu tid).running = (rx.rxAmpdu tid).running := by
  unfold input at h
  split at h
  · obtain ⟨q, hq, rfl⟩ := Option.map_eq_some_iff.mp h
    exact running_onQueue (RxAmpdu.running_input hq) tid
  · cases h
    rfl

end RxNode

namespace BaSta

variable {s : BaSta} {e : BaEvent} {r : BaSta × List BaOut} {rx : RxNode} {ticks : Nat} {es : List BaEvent}
  {fw : Bool → Fin wmeNumTid → Bool}

/-- The firmware hears of the request or the answer that comes in, if one does. -/
def informs (s : BaSta) : BaEvent → Bool
  | .recv frm => (BaAction.read frm).all s.ni.informs
  | _ => true

/-- So it is in each step of a run. -/
def allInform : BaSta → List BaEvent → Bool
  | _, [] => true
  | s, e :: es => s.informs e && (s.step e).all fun r => r.1.allInform es

theorem known_step (h : s.ni.Known fw) (hinfo : s.informs e = true) (hstep : s.step e = some r) :
    r.1.ni.Known (told fw r.2) := by
  cases e with
  | start ac eapol =>
    cases hstep
    simp only [start]
    split_ifs with hht hrun hask
    · exact h
    · refine h.mono (fun b tid htold => htold) (fun ac' hrun' => ?_) (fun tid hrun' => hrun')
      by_cases hac : ac' = ac
      · subst hac
        simp [ampduRequest, BaNode.setTap, TxAmpdu.addbaRequest, TxAmpdu.addbaStartTimeout, hrun] at hrun'
      · simpa [ampduRequest, BaNode.setTap, hac] using hrun'
    · exact h
    · exact h
  | timeout ac =>
    simp only [step] at hstep
    split at hstep <;> cases hstep
    refine h.mono (fun b tid htold => htold) (fun ac' hrun => ?_) (fun tid hrun => hrun)
    by_cases hac : ac' = ac
    · subst hac
      simpa [BaNode.setTap, TxAmpdu.addbaTimeout] using hrun
    · simpa [BaNode.setTap, hac] using hrun
  | recv frm =>
    cases hstep
    unfold recv
    split
    · exact h
    · next a hread =>
      rw [informs, hread] at hinfo
      exact h.recvAction hinfo
  | stop ac reason =>
    cases hstep
    unfold ampduStop
    split
    · rw [told_append]
      exact h.addbaStop
    · exact h
  | htInit =>
    cases hstep
    exact (h.cleanup).queues (fun tid => rfl)
  | cleanup =>
    cases hstep
    exact h.cleanup
  | data ampdu expired m =>
    obtain ⟨q, hq, rfl⟩ := Option.map_eq_some_iff.mp hstep
    exact h.queues (RxNode.running_rxInput hq)
  | bar ctl seq =>
    cases hstep
    exact h.queues (RxNode.running_onQueue (RxAmpdu.running_recvBar _))
  | age expired =>
    cases hstep
    exact h.queues (fun tid => RxAmpdu.running_htAge _)
  | tick n => cases hstep; exact h
  | txseq tid seq => cases hstep; exact ⟨h.tx, h.rx⟩
  | other => cases hstep; exact h
  | info fates => cases hstep; exact ⟨h.tx, h.rx⟩

theorem known_run (hs : s.ni.Known fw) (hinfo : s.allInform es = true) (h : s.run es = some r) :
    r.1.ni.Known (told fw r.2) := by
  induction es generalizing s r fw with
  | nil =>
    cases h
    exact hs
  | cons e es ih =>
    obtain ⟨u, v, hu, hv, rfl⟩ := run_cons h
    rw [allInform, hu, Bool.and_eq_true] at hinfo
    rw [told_append]
    exact ih (known_step hs hinfo.1 hu) hinfo.2 hv

/-- Whatever the peer sends, a stream that runs is one the firmware has been told to start and not to stop
since, as long as it hears of each request and each answer that comes in. It need not hear of the end of a
stream. -/
theorem run_known (hrx : ∀ tid, (rx.rxAmpdu tid).running = false)
    (hinfo : (new vap rx ticks).allInform es = true) (h : (new vap rx ticks).run es = some r) :
    r.1.ni.Known (told (fun _ _ => false) r.2) := by
  refine known_run ⟨fun ac hrun => ?_, fun tid hrun => ?_⟩ hinfo h
  · simp [new] at hrun
  · simp [new, hrx] at hrun

/-- The answer to the first request, which grants it. -/
def grant : List UInt8 := BaAction.bytes (.addbaResponse 1 statusSuccess (baparams 0 8) 0)

/-- A stream in each direction, and a DELBA for the first when no call gets through any more. -/
def unheardDelba : List BaEvent :=
  [.start .be false, .recv grant, .recv (BaAction.bytes (.addbaRequest 9 (baparams 5 16) 0 0)),
    .info fun _ => .unsent, .recv (BaAction.bytes (.delba 0 0))]

theorem unheardDelba_known : ∃ r, (new {} htPeer 0).run unheardDelba = some r ∧
    (r.1.ni.rx.rxAmpdu (tidOf 5)).running = true ∧ r.1.ni.Known (told (fun _ _ => false) r.2) := by
  have hex : ∃ r, (new {} htPeer 0).run unheardDelba = some r ∧
      (r.1.ni.rx.rxAmpdu (tidOf 5)).running = true :=
    exists_run (by decide)
  obtain ⟨r, hr, hrun⟩ := hex
  exact ⟨r, hr, hrun, run_known (fun _ => rfl) (by decide) hr⟩

-- no call gets through from the start: the stream runs, and the firmware has not heard of it
example : ((new {} htPeer 0).run [.info fun _ => .unsent, .start .be false, .recv grant]).any
    (fun r => (r.1.ni.txAmpdu .be).running ∧ !told (fun _ _ => false) r.2 false (tidOf 0)) = true := by decide

-- the firmware is given the limit of the adapter for its window, and not what the peer has granted
example : ((new {} htPeer 0).run [.start .be false, .recv grant]).any
    (fun r => (r.1.ni.txAmpdu .be).wnd = 8 ∧ .notify ⟨tidOf 0, true, false, 0, 11⟩ ∈ r.2) = true := by decide

-- the peer asks for TID 3, and then ends the stream: the firmware is told to start TID 3 before it stops
-- TID 0
example : ((new {} htPeer 0).run [.start .be false, .recv grant,
      .recv (BaAction.bytes (.addbaRequest 9 (baparams 3 16) 0 0)), .recv (BaAction.bytes (.delba 0 0))]).any
    (fun r => !(r.1.ni.txAmpdu .be).running ∧ told (fun _ _ => false) r.2 false (tidOf 3)) = true := by decide

end BaSta

end Onebox.Net80211
