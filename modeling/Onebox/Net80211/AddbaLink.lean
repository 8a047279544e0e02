import Onebox.Negotiation
import Onebox.Net80211.AddbaRuns

/-! Two stations that run this code, with a channel in each direction that loses frames but keeps their order.
For each stream of each side they follow the handshake of `Onebox.Negotiation`: dialog tokens, which come
round after 63 requests, stand for the numbers of the questions there. -/

namespace Onebox.Net80211

open Negotiation (Asker Msg Act)

/-- A frame on its way, with the number of the request that it makes or answers. The number is not in the
frame. -/
structure Flight where
  serial : Nat
  frame : BaAction

/-- The two sides, what each has sent to the other, how many requests each has made, and which of them was the
latest for a stream. -/
structure Link where
  sta : Bool → BaSta
  air : Bool → List Flight := fun _ => []
  made : Bool → Nat := fun _ => 0
  asked : Bool → WmeAc → Nat := fun _ _ => 0

inductive LinkEvent
  /-- Something other than the arrival of an action frame. -/
  | act (side : Bool) (e : BaEvent)
  /-- The oldest frame that the side has sent arrives. -/
  | deliver (side : Bool)
  | lose (side : Bool) (i : Nat)

namespace Link

def isRequest : BaAction → Bool
  | .addbaRequest .. => true
  | _ => false

/-- The step takes a token. -/
def takesToken (e : BaEvent) (frames : List BaAction) : Bool :=
  match e with
  | .other => true
  | _ => frames.any isRequest

def acted (l : Link) (x : Bool) (e : BaEvent) (r : BaSta × List BaOut) : Link :=
  let taken := takesToken e (sent r.2)
  let n := if taken then l.made x + 1 else l.made x
  { sta := Function.update l.sta x r.1
    air := Function.update l.air x (l.air x ++ (sent r.2).map (Flight.mk n))
    made := Function.update l.made x n
    asked :=
      match e with
      | .start ac _ =>
        if taken then Function.update l.asked x (Function.update (l.asked x) ac n) else l.asked
      | _ => l.asked }

/-- An answer does not outlive the token of its question: it arrives before 63 more requests are made. -/
def fresh (l : Link) (x : Bool) (m : Flight) : Bool :=
  match m.frame with
  | .addbaResponse .. => l.made (!x) < m.serial + 63
  | _ => true

def delivered (l : Link) (x : Bool) (m : Flight) (rest : List Flight) : Link :=
  let r := (l.sta (!x)).recv m.frame.bytes
  { l with
    sta := Function.update l.sta (!x) r.1
    air := Function.update (Function.update l.air x rest) (!x)
      (l.air (!x) ++ (sent r.2).map (Flight.mk m.serial)) }

def step (l : Link) : LinkEvent → Option Link
  | .act _ (.recv _) => none
  | .act x e => ((l.sta x).step e).map (l.acted x e)
  | .deliver x =>
    match l.air x with
    | [] => none
    | m :: rest => if l.fresh x m then some (l.delivered x m rest) else none
  | .lose x i => some { l with air := Function.update l.air x ((l.air x).eraseIdx i) }

def start (vap : Bool → BaVap) (rx : Bool → RxNode) (ticks : Bool → Nat) : Link where
  sta x := .new (vap x) (rx x) (ticks x)

end Link

/-! ## What a station does at its own end -/

/-- The parameter word of a request. -/
def requestParams (ac : WmeAc) : UInt16 :=
  baparams (UInt16.ofNat (wmeAcToTid ac).val) (UInt16.ofNat aggrBawmax)

/-- The parameter word of the initiator's DELBA. -/
def delbaParams (ac : WmeAc) : UInt16 :=
  BitField.delbapsTid.sm (UInt16.ofNat (wmeAcToTid ac).val) ||| delbapsInit

namespace BaSta

variable {s : BaSta} {e : BaEvent} {r : BaSta × List BaOut}

/-- What a step that is not the arrival of an action frame does to the streams of the station, with the frames
it sends. -/
inductive Kind (s : BaSta) (r : BaSta × List BaOut) : BaEvent → Prop
  | ask (ac : WmeAc) (eapol : Bool) (hasks : s.Asks ac)
    (hr : r = ((s.ampduRequest ac).1, (s.ampduRequest ac).2 ++ [.frame ac false])) :
    Kind s r (.start ac eapol)
  | other (hr : r = ({ s with tokens := s.nextToken }, [])) : Kind s r .other
  | stop (ac : WmeAc) (reason : UInt16) (hrun : (s.ni.txAmpdu ac).running = true)
    (htaps : r.1.ni.txAmpdu = Function.update s.ni.txAmpdu ac (s.ni.txAmpdu ac).stopped)
    (htokens : r.1.tokens = s.tokens) (hsent : sent r.2 = [.delba (delbaParams ac) reason]) :
    Kind s r (.stop ac reason)
  | quiet (e : BaEvent) (hother : e ≠ .other) (hsent : sent r.2 = []) (htokens : r.1.tokens = s.tokens)
    (htaps : ∀ ac, r.1.ni.txAmpdu ac = s.ni.txAmpdu ac ∨
      (r.1.ni.txAmpdu ac).running = false ∧ (r.1.ni.txAmpdu ac).xchgPend = false) : Kind s r e

theorem quiet_of_same (hother : e ≠ .other) (hsent : sent r.2 = []) (htokens : r.1.tokens = s.tokens)
    (htaps : r.1.ni.txAmpdu = s.ni.txAmpdu) : Kind s r e :=
  .quiet e hother hsent htokens fun ac => .inl (congrFun htaps ac)

theorem cleanup_quiet {vap : BaVap} {ni : BaNode} (ac : WmeAc) :
    (ni.cleanup vap).1.txAmpdu ac = ni.txAmpdu ac ∨
      ((ni.cleanup vap).1.txAmpdu ac).running = false ∧ ((ni.cleanup vap).1.txAmpdu ac).xchgPend = false := by
  unfold BaNode.cleanup
  split
  · rw [BaNode.txAmpdu_htNodeCleanup]
    split
    · right
      simp [TxAmpdu.cleared, TxAmpdu.stopped, TxAmpdu.addbaStopTimeout]
      split <;> simp_all
    · exact .inl rfl
  · exact .inl rfl

theorem kind_step (h : s.step e = some r) (hok : s.TapsOk) (hrecv : ∀ frm, e ≠ .recv frm) : Kind s r e := by
  cases e with
  | start ac eapol =>
    cases h
    by_cases hask : s.Asks ac ∧ s.ni.rx.ampduTx ∧ s.ni.rx.nrates ≠ 0 ∧ s.vap.ampduTx ∧ !eapol
    · refine .ask ac eapol hask.1 ?_
      have hrun : (s.ni.txAmpdu ac).running ≠ true := by
        have hreq := hask.1.1
        simp only [TxAmpdu.requested, Bool.or_eq_false_iff] at hreq
        simp [hreq]
      rw [start, if_pos hask.2, if_neg hrun, if_pos (by simp [hask.1.1, hask.1.2])]
    · have hsame : (s.start ac eapol).1 = s ∧ sent (s.start ac eapol).2 = [] := by
        simp only [start]
        split_ifs with hht hrun hasks
        · exact ⟨rfl, rfl⟩
        · exact absurd ⟨by simpa [Asks] using hasks, hht⟩ hask
        · exact ⟨rfl, rfl⟩
        · exact ⟨rfl, rfl⟩
      exact quiet_of_same (by simp) hsame.2 (by rw [hsame.1]) (by rw [hsame.1])
  | timeout ac =>
    simp only [step] at h
    split at h
    · rename_i hany
      cases h
      refine .quiet _ (by simp) rfl rfl fun ac' => ?_
      by_cases hac : ac' = ac
      · subst hac
        have hpend : (s.ni.txAmpdu ac').xchgPend = true := by
          rw [← (hok ac').timer]
          exact Option.isSome_of_any hany
        right
        simp [BaNode.setTap, TxAmpdu.addbaTimeout, ((hok ac').waits hpend).1]
      · left
        simp [BaNode.setTap, hac]
    · cases h
  | recv frm => exact absurd rfl (hrecv frm)
  | stop ac reason =>
    cases h
    by_cases hrun : (s.ni.txAmpdu ac).running = true
    · refine .stop ac reason hrun ?_ ?_ ?_ <;> rw [ampduStop, if_pos hrun]
      · exact BaNode.txAmpdu_addbaStop
      · rw [sent_append, BaNode.sent_addbaStop]
        rfl
    · have hsame : s.ampduStop ac reason = (s, []) := if_neg hrun
      exact quiet_of_same (by simp) (by rw [hsame]; rfl) (by rw [hsame]) (by rw [hsame])
  | other =>
    cases h
    exact .other rfl
  | htInit =>
    cases h
    exact .quiet _ (by simp) BaNode.sent_cleanup rfl cleanup_quiet
  | cleanup =>
    cases h
    exact .quiet _ (by simp) BaNode.sent_cleanup rfl cleanup_quiet
  | data ampdu expired m =>
    obtain ⟨q, -, rfl⟩ := Option.map_eq_some_iff.mp h
    exact quiet_of_same (by simp) rfl rfl rfl
  | tick n => cases h; exact quiet_of_same (by simp) rfl rfl rfl
  | txseq tid seq => cases h; exact quiet_of_same (by simp) rfl rfl rfl
  | info fates => cases h; exact quiet_of_same (by simp) rfl rfl rfl
  | bar ctl seq => cases h; exact quiet_of_same (by simp) rfl rfl rfl
  | age expired => cases h; exact quiet_of_same (by simp) rfl rfl rfl

end BaSta

/-! ## The receiving end -/

/-- A queue that `q` has become by what arrived in it and by aging. -/
inductive RxAmpdu.Fed (q : RxAmpdu) : RxAmpdu → Prop
  | refl : Fed q q
  | input {rap : RxAmpdu} {r : RxAmpdu × List RxFate} (expired : Bool) (m : Mbuf) (h : Fed q rap)
    (hin : rap.input expired m = some r) : Fed q r.1
  | bar {rap : RxAmpdu} (rxseq : Nat) (h : Fed q rap) : Fed q (rap.recvBar rxseq).1
  | age {rap : RxAmpdu} (expired : Bool) (h : Fed q rap) : Fed q (rap.htAge expired).1

/-- The queue of a new agreement. -/
def queueFrom (start : Nat) : RxAmpdu :=
  { wnd := aggrBawmax, start := start, running := true, xchgPend := true }

namespace BaSta

variable {s : BaSta} {e : BaEvent} {r : BaSta × List BaOut} {tid : Fin wmeNumTid} {q : RxAmpdu}

theorem fed_onQueue {rx : RxNode} {tid' : Fin wmeNumTid} {p : RxAmpdu × List RxFate}
    (hq : q.Fed (rx.rxAmpdu tid)) (hp : q.Fed (rx.rxAmpdu tid') → q.Fed p.1) :
    q.Fed ((rx.onQueue tid' p).1.rxAmpdu tid) := by
  by_cases htid : tid = tid'
  · subst htid
    simpa [RxNode.onQueue] using hp hq
  · simpa [RxNode.onQueue, htid] using hq

theorem fed_step (h : s.step e = some r) (hres : e.resets = false) (hrecv : ∀ frm, e ≠ .recv frm)
    (hq : q.Fed (s.ni.rx.rxAmpdu tid)) : q.Fed (r.1.ni.rx.rxAmpdu tid) := by
  cases e with
  | start ac eapol =>
    cases h
    simp only [start]
    split_ifs <;> exact hq
  | timeout ac =>
    simp only [step] at h
    split at h <;> cases h
    exact hq
  | recv frm => exact absurd rfl (hrecv frm)
  | stop ac reason =>
    cases h
    unfold ampduStop
    split
    · simpa using hq
    · exact hq
  | data ampdu expired m =>
    obtain ⟨u, hu, rfl⟩ := Option.map_eq_some_iff.mp h
    unfold RxNode.input at hu
    split at hu
    · obtain ⟨v, hv, rfl⟩ := Option.map_eq_some_iff.mp hu
      exact fed_onQueue hq fun hq => hq.input expired m hv
    · cases hu
      exact hq
  | bar ctl seq =>
    cases h
    exact fed_onQueue hq fun hq => hq.bar _
  | age expired =>
    cases h
    exact hq.age (expired tid)
  | htInit => cases hres
  | cleanup => cases hres
  | other => cases h; exact hq
  | tick n => cases h; exact hq
  | txseq tid seq => cases h; exact hq
  | info fates => cases h; exact hq

end BaSta

/-! ## Tokens and numbers -/

def tokenOf (n : Nat) : UInt8 := UInt8.ofNat (n % 63)

/-- Two numbers less than one round apart have the same token only if they are equal. -/
theorem eq_of_tokenOf_eq {m n : Nat} (h : tokenOf m = tokenOf n) (hle : m ≤ n) (hlt : n < m + 63) :
    m = n := by
  have hmod : m % 63 = n % 63 := by
    have := congrArg UInt8.toNat h
    simp only [tokenOf, UInt8.toNat_ofNat'] at this
    omega
  omega

namespace Link

variable {l l' : Link} {x : Bool}

/-- A frame on its way is one that the side has sent: as for the code, there are no others. -/
def Genuine (l : Link) (x : Bool) (m : Flight) : Prop :=
  match m.frame with
  | .addbaRequest token params _ _ =>
    token = tokenOf m.serial ∧ ∃ ac, params = requestParams ac ∧ m.serial ≤ l.asked x ac
  | .addbaResponse token _ params _ =>
    token = tokenOf m.serial ∧ ∃ ac, bapsTid params = wmeAcToTid ac ∧ m.serial ≤ l.asked (!x) ac
  | .delba params _ => ∃ ac, params = delbaParams ac

structure Ok (l : Link) : Prop where
  taps : ∀ x, (l.sta x).TapsOk
  tokens : ∀ x, (l.sta x).tokens = l.made x % 63
  asked_le : ∀ x ac, l.asked x ac ≤ l.made x
  token : ∀ x ac, ((l.sta x).ni.txAmpdu ac).xchgPend = true →
    ((l.sta x).ni.txAmpdu ac).token = tokenOf (l.asked x ac)
  genuine : ∀ x, ∀ m ∈ l.air x, l.Genuine x m

theorem ok_start (vap : Bool → BaVap) (rx : Bool → RxNode) (ticks : Bool → Nat) :
    (start vap rx ticks).Ok where
  taps _ _ := TxAmpdu.ok_new
  tokens _ := rfl
  asked_le _ _ := le_refl _
  token x ac hpend := by simp [start, BaSta.new] at hpend
  genuine x m hmem := by simp [start] at hmem

theorem Genuine.mono {m : Flight} (h : l.Genuine x m) (hasked : ∀ y ac, l.asked y ac ≤ l'.asked y ac) :
    l'.Genuine x m := by
  obtain ⟨serial, frame⟩ := m
  cases frame with
  | addbaRequest token params timeout seqctl =>
    obtain ⟨htoken, ac, hparams, hle⟩ := h
    exact ⟨htoken, ac, hparams, hle.trans (hasked x ac)⟩
  | addbaResponse token status params timeout =>
    obtain ⟨htoken, ac, hparams, hle⟩ := h
    exact ⟨htoken, ac, hparams, hle.trans (hasked (!x) ac)⟩
  | delba params reason => exact h

end Link

namespace BaSta

variable {s : BaSta} {ac : WmeAc}

theorem recv_bytes (a : BaAction) : s.recv a.bytes = s.onNode (s.ni.recvAction s.vap a) := by
  rw [recv, BaAction.read_bytes]

theorem tokens_recv (frm : List UInt8) : (s.recv frm).1.tokens = s.tokens := by
  unfold recv
  split <;> rfl

theorem update_same_or {P : TxAmpdu → Prop} {taps : WmeAc → TxAmpdu} {tap : TxAmpdu} {ac : WmeAc} (h : P tap)
    (ac' : WmeAc) :
    Function.update taps ac tap ac' = taps ac' ∨ P (Function.update taps ac tap ac') := by
  by_cases hac : ac' = ac
  · subst hac
    rw [Function.update_self]
    exact .inr h
  · exact .inl (Function.update_of_ne hac _ _)

theorem xchgPend_answered {tap : TxAmpdu} {ticks : Nat} (h : tap.Ok ticks) (status params : UInt16) :
    (tap.answered status params).xchgPend = false := by
  unfold TxAmpdu.answered
  split <;> exact h.addbaStopTimeout.2

theorem xchgPend_stopped {tap : TxAmpdu} {ticks : Nat} (h : tap.Ok ticks) : tap.stopped.xchgPend = false :=
  h.addbaStopTimeout.2

/-- A frame that arrives makes no stream wait. -/
theorem tap_recv (hok : s.TapsOk) (a : BaAction) (ac : WmeAc) :
    (s.recv a.bytes).1.ni.txAmpdu ac = s.ni.txAmpdu ac ∨
      ((s.recv a.bytes).1.ni.txAmpdu ac).xchgPend = false := by
  rw [recv_bytes]
  cases a with
  | addbaRequest token params timeout seqctl =>
    exact .inl (congrFun (BaNode.txAmpdu_recvAddbaRequest token params seqctl) ac)
  | addbaResponse token code params timeout =>
    rcases @BaNode.txAmpdu_recvAddbaResponse s.vap s.ni token code params with heq | ⟨-, -, heq⟩
    · exact .inl (congrFun heq ac)
    · simp only [onNode, BaNode.recvAction, heq]
      exact update_same_or (P := fun tap => tap.xchgPend = false) (xchgPend_answered (hok _) code params) ac
  | delba params reason =>
    simp only [onNode, BaNode.recvAction, BaNode.txAmpdu_recvDelba]
    split
    · exact update_same_or (P := fun tap => tap.xchgPend = false) (xchgPend_stopped (hok _)) ac
    · exact .inl rfl

end BaSta

namespace Link

variable {l l' : Link} {x : Bool} {e : BaEvent} {r : BaSta × List BaOut}

/-- A side moves and sends these frames. It has then made `n` requests, the latest for each stream as `asked`
says. -/
def moved (l : Link) (x : Bool) (t : BaSta) (frames : List Flight) (n : Nat) (asked : WmeAc → Nat) :
    Link where
  sta := Function.update l.sta x t
  air := Function.update l.air x (l.air x ++ frames)
  made := Function.update l.made x n
  asked := Function.update l.asked x asked

/-- What a request puts on its way. -/
def requestFlight (l : Link) (x : Bool) (ac : WmeAc) : Flight :=
  ⟨l.made x + 1, .addbaRequest (UInt8.ofNat (l.sta x).nextToken) (requestParams ac) 0
    (BitField.baseqStart.sm ((l.sta x).ni.txseqs (wmeAcToTid ac)))⟩

theorem acted_ask (ac : WmeAc) (eapol : Bool) :
    l.acted x (.start ac eapol) (((l.sta x).ampduRequest ac).1,
      ((l.sta x).ampduRequest ac).2 ++ [.frame ac false]) =
    l.moved x ((l.sta x).ampduRequest ac).1 [l.requestFlight x ac] (l.made x + 1)
      (Function.update (l.asked x) ac (l.made x + 1)) := rfl

theorem acted_other :
    l.acted x .other ({ l.sta x with tokens := (l.sta x).nextToken }, []) =
    l.moved x { l.sta x with tokens := (l.sta x).nextToken } [] (l.made x + 1) (l.asked x) := by
  simp [acted, moved, takesToken, sent]

theorem acted_of_not_taken (h : takesToken e (sent r.2) = false) :
    l.acted x e r = l.moved x r.1 ((sent r.2).map (Flight.mk (l.made x))) (l.made x) (l.asked x) := by
  unfold acted
  cases e <;> simp [h, moved]

theorem acted_quiet (hother : e ≠ .other) (hsent : sent r.2 = []) :
    l.acted x e r = l.moved x r.1 [] (l.made x) (l.asked x) := by
  have htaken : takesToken e (sent r.2) = false := by
    rw [hsent]
    cases e <;> first | rfl | exact absurd rfl hother
  rw [acted_of_not_taken htaken, hsent]
  rfl

theorem delivered_eq_moved (m : Flight) (rest : List Flight) :
    l.delivered x m rest =
      ({ l with air := Function.update l.air x rest } : Link).moved (!x) ((l.sta (!x)).recv m.frame.bytes).1
        ((sent ((l.sta (!x)).recv m.frame.bytes).2).map (Flight.mk m.serial)) (l.made (!x))
        (l.asked (!x)) := by
  simp [delivered, moved]

theorem Ok.nextToken (h : l.Ok) : (l.sta x).nextToken = (l.made x + 1) % 63 := by
  rw [BaSta.nextToken, h.tokens x]
  omega

section

variable {t : BaSta} {frames : List Flight} {n : Nat} {asked : WmeAc → Nat}

theorem asked_le_moved (hmono : ∀ ac, l.asked x ac ≤ asked ac) (y : Bool) (ac : WmeAc) :
    l.asked y ac ≤ (l.moved x t frames n asked).asked y ac := by
  by_cases hy : y = x
  · subst hy
    simpa only [moved, Function.update_self] using hmono ac
  · simp only [moved, Function.update_of_ne hy, le_refl]

theorem Ok.moved (h : l.Ok) (htaps : t.TapsOk) (htokens : t.tokens = n % 63)
    (hmono : ∀ ac, l.asked x ac ≤ asked ac) (hle : ∀ ac, asked ac ≤ n)
    (htoken : ∀ ac, (t.ni.txAmpdu ac).xchgPend = true → (t.ni.txAmpdu ac).token = tokenOf (asked ac))
    (hframes : ∀ m ∈ frames, (l.moved x t frames n asked).Genuine x m) :
    (l.moved x t frames n asked).Ok where
  taps y := by
    by_cases hy : y = x
    · subst hy
      simpa only [Link.moved, Function.update_self] using htaps
    · simpa only [Link.moved, Function.update_of_ne hy] using h.taps y
  tokens y := by
    by_cases hy : y = x
    · subst hy
      simpa only [Link.moved, Function.update_self] using htokens
    · simpa only [Link.moved, Function.update_of_ne hy] using h.tokens y
  asked_le y ac := by
    by_cases hy : y = x
    · subst hy
      simpa only [Link.moved, Function.update_self] using hle ac
    · simpa only [Link.moved, Function.update_of_ne hy] using h.asked_le y ac
  token y ac := by
    by_cases hy : y = x
    · subst hy
      simpa only [Link.moved, Function.update_self] using htoken ac
    · simpa only [Link.moved, Function.update_of_ne hy] using h.token y ac
  genuine y m hmem := by
    by_cases hy : y = x
    · subst hy
      simp only [Link.moved, Function.update_self] at hmem
      rcases List.mem_append.mp hmem with hmem | hmem
      · exact (h.genuine y m hmem).mono (asked_le_moved hmono)
      · exact hframes m hmem
    · simp only [Link.moved, Function.update_of_ne hy] at hmem
      exact (h.genuine y m hmem).mono (asked_le_moved hmono)

/-- A side moves without a request. -/
theorem Ok.plain (h : l.Ok) (htaps : t.TapsOk) (htokens : t.tokens = (l.sta x).tokens)
    (hsame : ∀ ac, t.ni.txAmpdu ac = (l.sta x).ni.txAmpdu ac ∨ (t.ni.txAmpdu ac).xchgPend = false)
    (hframes : ∀ m ∈ frames, l.Genuine x m) : (l.moved x t frames (l.made x) (l.asked x)).Ok := by
  refine h.moved htaps (htokens.trans (h.tokens x)) (fun _ => le_refl _) (h.asked_le x) (fun ac hpend => ?_)
    fun m hmem => (hframes m hmem).mono (asked_le_moved fun _ => le_refl _)
  rcases hsame ac with heq | hnot
  · rw [heq] at hpend ⊢
    exact h.token x ac hpend
  · rw [hnot] at hpend
    cases hpend

end

theorem Ok.ask (h : l.Ok) (ac : WmeAc) (htaps : ((l.sta x).ampduRequest ac).1.TapsOk) :
    (l.moved x ((l.sta x).ampduRequest ac).1 [l.requestFlight x ac] (l.made x + 1)
      (Function.update (l.asked x) ac (l.made x + 1))).Ok := by
  refine h.moved htaps h.nextToken (fun ac' => ?_) (fun ac' => ?_) (fun ac' hpend => ?_) (fun m hmem => ?_)
  · by_cases hac : ac' = ac
    · subst hac
      rw [Function.update_self]
      exact (h.asked_le x ac').trans (Nat.le_succ _)
    · rw [Function.update_of_ne hac]
  · by_cases hac : ac' = ac
    · subst hac
      rw [Function.update_self]
    · rw [Function.update_of_ne hac]
      exact (h.asked_le x ac').trans (Nat.le_succ _)
  · by_cases hac : ac' = ac
    · subst hac
      simp only [BaSta.ampduRequest, BaNode.setTap, Function.update_self]
      rw [h.nextToken]
      rfl
    · simp only [BaSta.ampduRequest, BaNode.setTap, Function.update_of_ne hac] at hpend ⊢
      exact h.token x ac' hpend
  · cases List.mem_singleton.mp hmem
    refine ⟨?_, ac, rfl, by simp [requestFlight, Link.moved]⟩
    rw [h.nextToken]
    rfl

theorem Ok.acted (h : l.Ok) (hstep : (l.sta x).step e = some r) (hrecv : ∀ frm, e ≠ .recv frm) :
    (l.acted x e r).Ok := by
  have htaps' := (h.taps x).step hstep
  cases BaSta.kind_step hstep (h.taps x) hrecv with
  | ask ac eapol hasks hr =>
    subst hr
    exact h.ask ac htaps'
  | other hr =>
    subst hr
    rw [acted_other]
    exact h.moved htaps' h.nextToken (fun _ => le_refl _) (fun ac => (h.asked_le x ac).trans (Nat.le_succ _))
      (h.token x) (by simp)
  | stop ac reason hrun htaps htokens hsent =>
    rw [acted_of_not_taken (by rw [hsent]; rfl), hsent]
    refine h.plain htaps' htokens (fun ac' => ?_) (fun m hmem => ?_)
    · rw [htaps]
      exact BaSta.update_same_or (P := fun tap => tap.xchgPend = false)
        (BaSta.xchgPend_stopped (h.taps x ac)) ac'
    · cases List.mem_singleton.mp hmem
      exact ⟨ac, rfl⟩
  | quiet e hother hsent htokens htaps =>
    rw [acted_quiet hother hsent]
    exact h.plain htaps' htokens (fun ac => (htaps ac).imp_right And.right) (by simp)

/-- What is sent in answer to a frame is an answer to its request. -/
theorem Ok.genuine_sent {m : Flight} {a : BaAction} (h : l.Genuine x m)
    (ha : a ∈ sent ((l.sta (!x)).recv m.frame.bytes).2) : l.Genuine (!x) ⟨m.serial, a⟩ := by
  obtain ⟨serial, frame⟩ := m
  rw [BaSta.recv_bytes] at ha
  cases frame with
  | addbaRequest token params timeout seqctl =>
    obtain ⟨htoken, ac, hparams, hle⟩ := h
    simp only [BaSta.onNode, BaNode.recvAction, BaNode.sent_recvAddbaRequest, List.mem_singleton] at ha
    subst ha
    refine ⟨htoken, ac, ?_, by simpa using hle⟩
    rw [bapsTid_baparams]
    exact hparams ▸ bapsTid_baparams _ _
  | addbaResponse token status params timeout => simp [BaSta.onNode, BaNode.recvAction] at ha
  | delba params reason => simp [BaSta.onNode, BaNode.recvAction] at ha

theorem Ok.thinned {frames : List Flight} (h : l.Ok) (hsub : frames ⊆ l.air x) :
    Ok { l with air := Function.update l.air x frames } :=
  { h with
    genuine := fun y m hmem => by
      by_cases hy : y = x
      · subst hy
        simp only [Function.update_self] at hmem
        exact h.genuine y m (hsub hmem)
      · simp only [Function.update_of_ne hy] at hmem
        exact h.genuine y m hmem }

theorem Ok.delivered {m : Flight} {rest : List Flight} (h : l.Ok) (hair : l.air x = m :: rest) :
    (l.delivered x m rest).Ok := by
  have hgen : l.Genuine x m := h.genuine x m (hair ▸ List.mem_cons_self)
  have hthin := h.thinned (hair ▸ List.subset_cons_self m rest : rest ⊆ l.air x)
  have hstep : (l.sta (!x)).step (.recv m.frame.bytes) = some ((l.sta (!x)).recv m.frame.bytes) := rfl
  rw [delivered_eq_moved]
  refine hthin.plain ((h.taps (!x)).step hstep) (BaSta.tokens_recv _)
    (BaSta.tap_recv (h.taps (!x)) m.frame) (fun k hmem => ?_)
  obtain ⟨f, hf, rfl⟩ := List.mem_map.mp hmem
  exact genuine_sent hgen hf

theorem step_act (hrecv : ∀ frm, e ≠ .recv frm) :
    l.step (.act x e) = ((l.sta x).step e).map (l.acted x e) := by
  cases e with
  | recv frm => exact absurd rfl (hrecv frm)
  | _ => rfl

/-- A step of the link: one side acts, or a frame arrives or is lost. -/
theorem step_cases {ev : LinkEvent} (h : l.step ev = some l') :
    (∃ x e r, ev = .act x e ∧ (∀ frm, e ≠ .recv frm) ∧ (l.sta x).step e = some r ∧ l' = l.acted x e r) ∨
    (∃ x m rest, ev = .deliver x ∧ l.air x = m :: rest ∧ l.fresh x m = true ∧ l' = l.delivered x m rest) ∨
    (∃ x i, ev = .lose x i ∧ l' = { l with air := Function.update l.air x ((l.air x).eraseIdx i) }) := by
  cases ev with
  | act x e =>
    by_cases hrecv : ∀ frm, e ≠ .recv frm
    · rw [step_act hrecv] at h
      obtain ⟨r, hr, rfl⟩ := Option.map_eq_some_iff.mp h
      exact .inl ⟨x, e, r, rfl, hrecv, hr, rfl⟩
    · obtain ⟨frm, hfrm⟩ := not_forall.mp hrecv
      cases not_ne_iff.mp hfrm
      cases h
  | deliver x =>
    simp only [step] at h
    split at h
    · cases h
    · rename_i m rest hair
      split at h
      · cases h
        exact .inr (.inl ⟨x, m, rest, rfl, hair, ‹_›, rfl⟩)
      · cases h
  | lose x i =>
    cases h
    exact .inr (.inr ⟨x, i, rfl, rfl⟩)

theorem Ok.step {ev : LinkEvent} (h : l.Ok) (hstep : l.step ev = some l') : l'.Ok := by
  obtain ⟨x, e, r, -, hrecv, hr, rfl⟩ | ⟨x, m, rest, -, hair, -, rfl⟩ | ⟨x, i, -, rfl⟩ := step_cases hstep
  · exact h.acted hr hrecv
  · exact h.delivered hair
  · exact h.thinned (List.eraseIdx_subset)

end Link

/-! ## The handshake behind the frames -/

/-- The state of a stream whose latest request has this number. The terms are the first sequence number. -/
def askerOf (tap : TxAmpdu) (n : Nat) : Asker Nat :=
  if tap.running then .opened n (tap.start.toNat % seqRange)
  else if tap.xchgPend then .waiting n (tap.start.toNat % seqRange)
  else .idle

/-- What a frame says to the receiving end of a stream. -/
def forthOf (ac : WmeAc) (m : Flight) : Option (Msg Nat) :=
  match m.frame with
  | .addbaRequest _ params _ seqctl =>
    if bapsTid params = wmeAcToTid ac then some (.ask m.serial (RxAmpdu.baseqStart seqctl)) else none
  | .addbaResponse .. => none
  | .delba params _ => if delbapsTid params = wmeAcToTid ac then some .close else none

/-- What a frame says to the sending end. -/
def backOf (ac : WmeAc) (m : Flight) : Option (Nat × Bool) :=
  match m.frame with
  | .addbaResponse _ status params _ =>
    if bapsTid params = wmeAcToTid ac then some (m.serial, decide (status = statusSuccess)) else none
  | _ => none

theorem baseqStart_sm (start : UInt16) :
    RxAmpdu.baseqStart (BitField.baseqStart.sm start) = start.toNat % seqRange := by
  have h : RxAmpdu.baseqStart (BitField.baseqStart.sm start) = (start &&& 0x0fff).toNat :=
    congrArg UInt16.toNat (start_baseqctl start)
  rw [h, UInt16.toNat_and]
  exact Nat.and_two_pow_sub_one_eq_mod start.toNat 12

@[simp] theorem bapsTid_requestParams (ac : WmeAc) : bapsTid (requestParams ac) = wmeAcToTid ac :=
  bapsTid_baparams _ _

@[simp] theorem delbapsTid_delbaParams (ac : WmeAc) : delbapsTid (delbaParams ac) = wmeAcToTid ac := by
  rw [delbapsTid, delbaParams, tid_delbaparams, tidOf_and]

theorem init_delbaParams (ac : WmeAc) : delbaParams ac &&& delbapsInit ≠ 0 := by
  rw [delbaParams, init_delbaparams]
  decide

theorem wmeAcToTid_eq_iff {ac ac' : WmeAc} : wmeAcToTid ac' = wmeAcToTid ac ↔ ac' = ac :=
  ⟨wmeAcToTid_inj, congrArg wmeAcToTid⟩

theorem forthOf_request (ac ac' : WmeAc) (n : Nat) (token : UInt8) (timeout seqctl : UInt16) :
    forthOf ac ⟨n, .addbaRequest token (requestParams ac') timeout seqctl⟩ =
      if ac' = ac then some (.ask n (RxAmpdu.baseqStart seqctl)) else none := by
  simp [forthOf, wmeAcToTid_eq_iff]

theorem forthOf_delba (ac ac' : WmeAc) (n : Nat) (reason : UInt16) :
    forthOf ac ⟨n, .delba (delbaParams ac') reason⟩ = if ac' = ac then some .close else none := by
  simp [forthOf, wmeAcToTid_eq_iff]

theorem backOf_response {ac ac' : WmeAc} {params : UInt16} (h : bapsTid params = wmeAcToTid ac') (n : Nat)
    (token : UInt8) (status timeout : UInt16) :
    backOf ac ⟨n, .addbaResponse token status params timeout⟩ =
      if ac' = ac then some (n, decide (status = statusSuccess)) else none := by
  simp [backOf, h, wmeAcToTid_eq_iff]

/-- The queue that a request starts. -/
theorem ampduRxStart_request (rap : RxAmpdu) (ac : WmeAc) (seqctl : UInt16) :
    (rap.ampduRxStart (requestParams ac) seqctl).1 = queueFrom (RxAmpdu.baseqStart seqctl) := by
  have hwnd : RxAmpdu.bapsBufsiz (requestParams ac) = aggrBawmax := by cases ac <;> decide
  simp only [RxAmpdu.ampduRxStart, hwnd]
  rfl

theorem BaSta.rxAmpdu_recv_request (s : BaSta) (ac : WmeAc) (token : UInt8) (timeout seqctl : UInt16) :
    (s.recv (BaAction.bytes (.addbaRequest token (requestParams ac) timeout seqctl))).1.ni.rx.rxAmpdu =
      if s.ni.rx.ampduTx ∧ s.ni.rx.nrates ≠ 0 ∧ s.vap.ampduRx then
        Function.update s.ni.rx.rxAmpdu (wmeAcToTid ac) (queueFrom (RxAmpdu.baseqStart seqctl))
      else s.ni.rx.rxAmpdu := by
  rw [recv_bytes]
  simp only [onNode, BaNode.recvAction, BaNode.rx_recvAddbaRequest, RxNode.rxAmpdu_addbaRequest,
    bapsTid_requestParams, ampduRxStart_request]

namespace Link

/-- The link plays this state of the handshake for a stream of the side `o`. -/
structure Plays (l : Link) (o : Bool) (ac : WmeAc) (a : Negotiation.State Nat) : Prop where
  asker : a.asker = askerOf ((l.sta o).ni.txAmpdu ac) (l.asked o ac)
  forth : a.forth = (l.air o).filterMap (forthOf ac)
  back : a.back = (l.air (!o)).filterMap (backOf ac)
  last : a.last = l.made o
  peer : ∀ n p, a.peer = some (n, p) → (queueFrom p).Fed ((l.sta (!o)).ni.rx.rxAmpdu (wmeAcToTid ac))

variable {l l' : Link} {o x : Bool} {ac : WmeAc} {e : BaEvent} {r : BaSta × List BaOut}
  {a a' : Negotiation.State Nat}

/-- The handshake goes on, by some steps or none, to a state that the link plays. -/
def Goes (l' : Link) (o : Bool) (ac : WmeAc) (a : Negotiation.State Nat) : Prop :=
  ∃ as a', Machine.run Negotiation.step a as = some a' ∧ l'.Plays o ac a'

theorem Plays.goes (h : l'.Plays o ac a) : l'.Goes o ac a := ⟨[], a, rfl, h⟩

theorem goes_of_step (act : Act Nat) (hstep : Negotiation.step a act = some a') (h : l'.Plays o ac a') :
    l'.Goes o ac a :=
  ⟨[act], a', by simp [hstep], h⟩

theorem plays_start (vap : Bool → BaVap) (rx : Bool → RxNode) (ticks : Bool → Nat) :
    (start vap rx ticks).Plays o ac {} where
  asker := rfl
  forth := rfl
  back := rfl
  last := rfl
  peer := by simp

theorem forthOf_requestFlight (ac' : WmeAc) :
    forthOf ac (l.requestFlight x ac') =
      if ac' = ac then
        some (.ask (l.made x + 1) (((l.sta x).ni.txseqs (wmeAcToTid ac')).toNat % seqRange))
      else none := by
  rw [requestFlight, forthOf_request, baseqStart_sm]

theorem plays_moved {t : BaSta} {frames : List Flight} {n : Nat} {asked : WmeAc → Nat} (h : l.Plays o ac a)
    (hasker : a'.asker = askerOf (t.ni.txAmpdu ac) (asked ac)) (hlast : a'.last = n)
    (hforth : a'.forth = a.forth ++ frames.filterMap (forthOf ac)) (hback : a'.back = a.back)
    (hpeer : a'.peer = a.peer) : (l.moved o t frames n asked).Plays o ac a' := by
  have hne : (!o) ≠ o := by simp
  constructor
  · simpa only [moved, Function.update_self] using hasker
  · simp only [moved, Function.update_self, List.filterMap_append]
    rw [hforth, h.forth]
  · simpa only [moved, Function.update_of_ne hne] using hback.trans h.back
  · simpa only [moved, Function.update_self] using hlast
  · simpa only [moved, Function.update_of_ne hne, hpeer] using h.peer

/-- The asking side makes a request, for this stream or another. -/
theorem Plays.ask (h : l.Plays o ac a) (ac' : WmeAc) (eapol : Bool) (hasks : (l.sta o).Asks ac') :
    (l.acted o (.start ac' eapol) (((l.sta o).ampduRequest ac').1,
      ((l.sta o).ampduRequest ac').2 ++ [.frame ac' false])).Goes o ac a := by
  rw [acted_ask]
  by_cases hac : ac' = ac
  · subst hac
    have hreq := hasks.1
    simp only [TxAmpdu.requested, Bool.or_eq_false_iff] at hreq
    have hidle : a.asker = .idle := by simp [h.asker, askerOf, hreq]
    refine goes_of_step (.ask (((l.sta o).ni.txseqs (wmeAcToTid ac')).toNat % seqRange))
      (Negotiation.step_ask hidle) (plays_moved h ?_ ?_ ?_ rfl rfl)
    · simp [askerOf, BaSta.ampduRequest, BaNode.setTap, TxAmpdu.addbaRequest, TxAmpdu.addbaStartTimeout, hreq,
        h.last]
    · simp [h.last]
    · simp [h.last, forthOf_requestFlight]
  · refine goes_of_step .skip rfl (plays_moved h ?_ ?_ ?_ rfl rfl)
    · simp [h.asker, BaSta.ampduRequest, BaNode.setTap, Ne.symm hac]
    · simp [h.last]
    · simp [forthOf_requestFlight, hac]

/-- A stream that neither runs nor waits is idle in the handshake. -/
theorem askerOf_idle {tap : TxAmpdu} {n : Nat} (hrun : tap.running = false) (hpend : tap.xchgPend = false) :
    askerOf tap n = .idle := by
  simp [askerOf, hrun, hpend]

theorem Plays.act_asker (h : l.Plays o ac a) (hok : l.Ok) (hstep : (l.sta o).step e = some r)
    (hrecv : ∀ frm, e ≠ .recv frm) : (l.acted o e r).Goes o ac a := by
  cases BaSta.kind_step hstep (hok.taps o) hrecv with
  | ask ac' eapol hasks hr =>
    subst hr
    exact h.ask ac' eapol hasks
  | other hr =>
    subst hr
    rw [acted_other]
    exact goes_of_step .skip rfl (plays_moved h h.asker (by simp [h.last]) (by simp) rfl rfl)
  | stop ac' reason hrun htaps htokens hsent =>
    rw [acted_of_not_taken (by rw [hsent]; rfl), hsent]
    by_cases hac : ac' = ac
    · subst hac
      have hopen : a.asker = .opened (l.asked o ac') (((l.sta o).ni.txAmpdu ac').start.toNat % seqRange) := by
        simp [h.asker, askerOf, hrun]
      refine goes_of_step .close (Negotiation.step_close hopen) (plays_moved h ?_ h.last ?_ rfl rfl)
      · rw [htaps, Function.update_self]
        exact (askerOf_idle rfl (BaSta.xchgPend_stopped (hok.taps o ac'))).symm
      · simp [forthOf_delba]
    · refine Plays.goes (plays_moved h ?_ h.last ?_ rfl rfl)
      · rw [htaps, Function.update_of_ne (Ne.symm hac)]
        exact h.asker
      · simp [forthOf_delba, hac]
  | quiet e hother hsent htokens htaps =>
    rw [acted_quiet hother hsent]
    rcases htaps ac with htap | ⟨hrun, hpend⟩
    · exact Plays.goes (plays_moved h (htap ▸ h.asker) h.last (by simp) rfl rfl)
    · exact goes_of_step .abandon rfl
        (plays_moved h (askerOf_idle hrun hpend).symm h.last (by simp) rfl rfl)

theorem acted_of_ne {y : Bool} (hy : y ≠ x) :
    (l.acted x e r).sta y = l.sta y ∧ (l.acted x e r).air y = l.air y ∧ (l.acted x e r).made y = l.made y ∧
      (l.acted x e r).asked y = l.asked y := by
  refine ⟨Function.update_of_ne hy _ _, Function.update_of_ne hy _ _, Function.update_of_ne hy _ _, ?_⟩
  cases e with
  | start ac eapol =>
    simp only [acted]
    split
    · exact Function.update_of_ne hy _ _
    · rfl
  | _ => rfl

/-- Only the arrival of a request is answered. -/
theorem backOf_sent {f : BaAction} (hok : l.Ok) (hstep : (l.sta x).step e = some r)
    (hrecv : ∀ frm, e ≠ .recv frm) (hf : f ∈ sent r.2) (n : Nat) : backOf ac ⟨n, f⟩ = none := by
  cases BaSta.kind_step hstep (hok.taps x) hrecv with
  | ask ac' eapol hasks hr =>
    subst hr
    cases List.mem_singleton.mp hf
    rfl
  | other hr =>
    subst hr
    cases hf
  | stop ac' reason hrun htaps htokens hsent =>
    rw [hsent] at hf
    cases List.mem_singleton.mp hf
    rfl
  | quiet e hother hsent htokens htaps =>
    rw [hsent] at hf
    cases hf

/-- The other side acts: it says nothing about this stream, and its queue stays open. -/
theorem Plays.act_peer (h : l.Plays o ac a) (hok : l.Ok) (hstep : (l.sta (!o)).step e = some r)
    (hrecv : ∀ frm, e ≠ .recv frm) (hres : e.resets = false) : (l.acted (!o) e r).Plays o ac a := by
  have hne : o ≠ !o := by simp
  obtain ⟨hsta, hair, hmade, hasked⟩ := @acted_of_ne l (!o) e r o hne
  constructor
  · rw [hsta, hasked]
    exact h.asker
  · rw [hair]
    exact h.forth
  · have hnew (n : Nat) : ((sent r.2).map (Flight.mk n)).filterMap (backOf ac) = [] := by
      rw [List.filterMap_map, List.filterMap_eq_nil_iff]
      exact fun f hf => backOf_sent hok hstep hrecv hf n
    simp only [acted, Function.update_self, List.filterMap_append, hnew, List.append_nil]
    exact h.back
  · rw [hmade]
    exact h.last
  · intro n p hpeer
    have hfed := h.peer n p hpeer
    simpa [acted] using BaSta.fed_step hstep hres hrecv hfed

/-! ### Frames that arrive -/

theorem plays_of_heard {m : Flight} {rest : List Flight} (h : l.Plays o ac a) (hasker : a'.asker = a.asker)
    (hlast : a'.last = a.last) (hforth : a'.forth = rest.filterMap (forthOf ac))
    (hback : a'.back = a.back ++
      ((sent ((l.sta (!o)).recv m.frame.bytes).2).map (Flight.mk m.serial)).filterMap (backOf ac))
    (hpeer : ∀ n p, a'.peer = some (n, p) →
      (queueFrom p).Fed (((l.sta (!o)).recv m.frame.bytes).1.ni.rx.rxAmpdu (wmeAcToTid ac))) :
    (l.delivered o m rest).Plays o ac a' := by
  have hne : o ≠ !o := by simp
  constructor
  · simp only [delivered, Function.update_of_ne hne]
    exact hasker.trans h.asker
  · simp only [delivered, Function.update_of_ne hne, Function.update_self]
    exact hforth
  · simp only [delivered, Function.update_self, List.filterMap_append]
    rw [hback, h.back]
  · exact hlast.trans h.last
  · simp only [delivered, Function.update_self]
    exact hpeer

/-- A request arrives, for this stream or another. -/
theorem Plays.hear_request {serial : Nat} {token : UInt8} {timeout seqctl : UInt16} {rest : List Flight}
    (h : l.Plays o ac a) (ac' : WmeAc)
    (hair : l.air o = ⟨serial, .addbaRequest token (requestParams ac') timeout seqctl⟩ :: rest) :
    (l.delivered o ⟨serial, .addbaRequest token (requestParams ac') timeout seqctl⟩ rest).Goes o ac a := by
  have hforth := h.forth
  rw [hair, List.filterMap_cons, forthOf_request] at hforth
  by_cases hac : ac' = ac
  · subst hac
    rw [if_pos rfl] at hforth
    refine goes_of_step (.hear (decide ((l.sta (!o)).ni.rx.ampduTx ∧ (l.sta (!o)).ni.rx.nrates ≠ 0 ∧
      (l.sta (!o)).vap.ampduRx))) (Negotiation.step_hear_ask hforth) (plays_of_heard h rfl rfl rfl ?_ ?_)
    · rw [BaSta.recv_bytes]
      simp only [BaSta.onNode, BaNode.recvAction, BaNode.sent_recvAddbaRequest, bapsTid_requestParams,
        List.map_cons, List.map_nil, List.filterMap_cons, List.filterMap_nil,
        backOf_response (bapsTid_baparams _ _), if_true]
      congr
      split <;> simp_all [statusSuccess, statusUnspecified]
    · intro n p hpeer
      rw [BaSta.rxAmpdu_recv_request]
      by_cases hgrant : (l.sta (!o)).ni.rx.ampduTx ∧ (l.sta (!o)).ni.rx.nrates ≠ 0 ∧
          (l.sta (!o)).vap.ampduRx
      · rw [if_pos (decide_eq_true hgrant)] at hpeer
        cases hpeer
        rw [if_pos hgrant, Function.update_self]
        exact .refl
      · rw [if_neg (by simpa using hgrant)] at hpeer
        rw [if_neg hgrant]
        exact h.peer n p hpeer
  · rw [if_neg hac] at hforth
    have htid : wmeAcToTid ac ≠ wmeAcToTid ac' := fun heq => hac (wmeAcToTid_inj heq).symm
    refine Plays.goes (plays_of_heard h rfl rfl hforth ?_ ?_)
    · rw [BaSta.recv_bytes]
      simp [BaSta.onNode, BaNode.recvAction, backOf_response (bapsTid_baparams _ _), hac]
    · intro n p hpeer
      rw [BaSta.rxAmpdu_recv_request]
      split
      · rw [Function.update_of_ne htid]
        exact h.peer n p hpeer
      · exact h.peer n p hpeer

/-- The asking side has ended this stream or another. -/
theorem Plays.hear_delba {serial : Nat} {reason : UInt16} {rest : List Flight} (h : l.Plays o ac a)
    (ac' : WmeAc) (hair : l.air o = ⟨serial, .delba (delbaParams ac') reason⟩ :: rest) :
    (l.delivered o ⟨serial, .delba (delbaParams ac') reason⟩ rest).Goes o ac a := by
  have hforth := h.forth
  rw [hair, List.filterMap_cons, forthOf_delba] at hforth
  have hsent : sent ((l.sta (!o)).recv (BaAction.bytes (.delba (delbaParams ac') reason))).2 = [] := by
    rw [BaSta.recv_bytes]
    simp [BaSta.onNode, BaNode.recvAction]
  by_cases hac : ac' = ac
  · subst hac
    rw [if_pos rfl] at hforth
    exact goes_of_step (.hear true) (Negotiation.step_hear_close hforth)
      (plays_of_heard h rfl rfl rfl (by simp [hsent]) (by simp))
  · rw [if_neg hac] at hforth
    have htid : wmeAcToTid ac ≠ wmeAcToTid ac' := fun heq => hac (wmeAcToTid_inj heq).symm
    refine Plays.goes (plays_of_heard h rfl rfl hforth (by simp [hsent]) fun n p hpeer => ?_)
    rw [BaSta.recv_bytes]
    simp only [BaSta.onNode, BaNode.recvAction, BaNode.rx_recvDelba, RxNode.rxAmpdu_delba,
      delbapsTid_delbaParams, if_neg (init_delbaParams ac'), Function.update_of_ne htid]
    exact h.peer n p hpeer

theorem Plays.deliver_forth {m : Flight} {rest : List Flight} (h : l.Plays o ac a) (hok : l.Ok)
    (hair : l.air o = m :: rest) : (l.delivered o m rest).Goes o ac a := by
  have hgen : l.Genuine o m := hok.genuine o m (hair ▸ List.mem_cons_self)
  obtain ⟨serial, frame⟩ := m
  cases frame with
  | addbaRequest token params timeout seqctl =>
    obtain ⟨-, ac', rfl, -⟩ := hgen
    exact h.hear_request ac' hair
  | addbaResponse token status params timeout =>
    have hforth := h.forth
    rw [hair] at hforth
    refine Plays.goes (plays_of_heard h rfl rfl hforth ?_ ?_)
    · rw [BaSta.recv_bytes]
      simp [BaSta.onNode, BaNode.recvAction]
    · rw [BaSta.recv_bytes]
      simpa [BaSta.onNode, BaNode.recvAction] using h.peer
  | delba params reason =>
    obtain ⟨ac', rfl⟩ := hgen
    exact h.hear_delba ac' hair

theorem plays_of_answered {m : Flight} {rest : List Flight} (h : l.Plays o ac a)
    (hasker : a'.asker = askerOf (((l.sta o).recv m.frame.bytes).1.ni.txAmpdu ac) (l.asked o ac))
    (hlast : a'.last = a.last) (hforth : a'.forth = a.forth) (hpeer : a'.peer = a.peer)
    (hback : a'.back = rest.filterMap (backOf ac)) : (l.delivered (!o) m rest).Plays o ac a' := by
  have hne : (!o) ≠ o := by simp
  have hsent :
      ((sent ((l.sta o).recv m.frame.bytes).2).map (Flight.mk m.serial)).filterMap (forthOf ac) = [] := by
    rw [BaSta.recv_bytes]
    cases m.frame with
    | addbaRequest token params timeout seqctl => simp [BaSta.onNode, BaNode.recvAction, forthOf]
    | addbaResponse token status params timeout => simp [BaSta.onNode, BaNode.recvAction]
    | delba params reason => simp [BaSta.onNode, BaNode.recvAction]
  constructor
  · simp only [delivered, Bool.not_not, Function.update_self]
    exact hasker
  · simp only [delivered, Bool.not_not, Function.update_self, List.filterMap_append, hsent, List.append_nil]
    exact hforth.trans h.forth
  · simp only [delivered, Bool.not_not, Function.update_of_ne hne, Function.update_self]
    exact hback
  · exact hlast.trans h.last
  · simp only [delivered, Bool.not_not, Function.update_of_ne hne]
    rw [hpeer]
    exact h.peer

/-- The answer that a stream takes is the one to its latest request. -/
theorem Ok.serial_eq {m : Flight} {token : UInt8} {status params timeout : UInt16} (hok : l.Ok)
    (hframe : m.frame = .addbaResponse token status params timeout) (hgen : l.Genuine (!o) m)
    (hfresh : l.fresh (!o) m = true) (htid : bapsTid params = wmeAcToTid ac)
    (hpend : ((l.sta o).ni.txAmpdu ac).xchgPend = true) (htoken : ((l.sta o).ni.txAmpdu ac).token = token) :
    m.serial = l.asked o ac := by
  rw [Genuine, hframe] at hgen
  obtain ⟨hserial, ac', hparams, hle⟩ := hgen
  obtain rfl : ac = ac' := wmeAcToTid_inj (htid.symm.trans hparams)
  rw [fresh, hframe] at hfresh
  simp only [Bool.not_not, decide_eq_true_eq] at hle hfresh
  refine eq_of_tokenOf_eq ?_ hle ((hok.asked_le o ac).trans_lt hfresh)
  rw [← hserial, ← htoken]
  exact hok.token o ac hpend

theorem askerOf_answered {tap : TxAmpdu} {n ticks : Nat} {status params : UInt16} (hok : tap.Ok ticks)
    (hrun : tap.running = false) :
    askerOf (tap.answered status params) n =
      if status = statusSuccess then .opened n (tap.start.toNat % seqRange) else .idle := by
  have hpend := BaSta.xchgPend_answered hok status params
  unfold TxAmpdu.answered TxAmpdu.addbaStopTimeout at *
  split <;> split <;> simp_all [askerOf]

theorem Plays.deliver_back {m : Flight} {rest : List Flight} (h : l.Plays o ac a) (hok : l.Ok)
    (hair : l.air (!o) = m :: rest) (hfresh : l.fresh (!o) m = true) :
    (l.delivered (!o) m rest).Goes o ac a := by
  have hgen : l.Genuine (!o) m := hok.genuine (!o) m (hair ▸ List.mem_cons_self)
  have hback := h.back
  rw [hair, List.filterMap_cons] at hback
  obtain ⟨serial, frame⟩ := m
  cases frame with
  | addbaRequest token params timeout seqctl =>
    refine Plays.goes (plays_of_answered h ?_ rfl rfl rfl hback)
    rw [BaSta.recv_bytes]
    simpa [BaSta.onNode, BaNode.recvAction] using h.asker
  | delba params reason =>
    obtain ⟨ac', rfl⟩ := hgen
    refine Plays.goes (plays_of_answered h ?_ rfl rfl rfl hback)
    rw [BaSta.recv_bytes]
    simpa [BaSta.onNode, BaNode.recvAction, BaNode.txAmpdu_recvDelba, init_delbaParams] using h.asker
  | addbaResponse token status params timeout =>
    obtain ⟨-, ac', hparams, -⟩ := id hgen
    rw [backOf_response hparams] at hback
    have htaps := @BaNode.txAmpdu_recvAddbaResponse (l.sta o).vap (l.sta o).ni token status params
    rw [hparams, tidToWmeAc_wmeAcToTid] at htaps
    by_cases hac : ac' = ac
    · subst hac
      rw [if_pos rfl] at hback
      rcases htaps with hsame | ⟨hpend, htoken, hupdate⟩
      · refine goes_of_step (.loseBack 0) rfl (plays_of_answered h ?_ rfl rfl rfl ?_)
        · rw [BaSta.recv_bytes]
          simpa [BaSta.onNode, BaNode.recvAction, hsame] using h.asker
        · simp [hback]
      · have hserial := hok.serial_eq rfl hgen hfresh hparams hpend htoken
        refine goes_of_step .answer (Negotiation.step_answer hback) (plays_of_answered h ?_ rfl rfl rfl rfl)
        rw [BaSta.recv_bytes]
        simp only [BaSta.onNode, BaNode.recvAction, hupdate, Function.update_self]
        have hrun := ((hok.taps o ac').waits hpend).1
        have hwait : a.asker =
            .waiting (l.asked o ac') (((l.sta o).ni.txAmpdu ac').start.toNat % seqRange) := by
          simp [h.asker, askerOf, hrun, hpend]
        rw [hwait, askerOf_answered (hok.taps o ac') hrun]
        simp only [Asker.answered, hserial.symm, if_true, decide_eq_true_eq]
    · rw [if_neg hac] at hback
      refine Plays.goes (plays_of_answered h ?_ rfl rfl rfl hback)
      rw [BaSta.recv_bytes]
      simp only [BaSta.onNode, BaNode.recvAction]
      rcases htaps with hsame | ⟨-, -, hupdate⟩
      · rw [hsame]
        exact h.asker
      · rw [hupdate, Function.update_of_ne (Ne.symm hac)]
        exact h.asker

theorem Plays.lose (h : l.Plays o ac a) (i : Nat) :
    Goes { l with air := Function.update l.air x ((l.air x).eraseIdx i) } o ac a := by
  by_cases hx : x = o
  · subst hx
    have hne : (!x) ≠ x := by simp
    obtain ⟨j, hj⟩ := Negotiation.exists_eraseIdx_filterMap (forthOf ac) (l.air x) i
    refine goes_of_step (.loseForth j) rfl ⟨h.asker, ?_, ?_, h.last, h.peer⟩
    · simp only [Function.update_self, hj, h.forth]
    · simp only [Function.update_of_ne hne, h.back]
  · obtain rfl : x = !o := Bool.eq_not_of_ne hx
    have hne : o ≠ !o := by simp
    obtain ⟨j, hj⟩ := Negotiation.exists_eraseIdx_filterMap (backOf ac) (l.air (!o)) i
    refine goes_of_step (.loseBack j) rfl ⟨h.asker, ?_, ?_, h.last, h.peer⟩
    · simp only [Function.update_of_ne hne, h.forth]
    · simp only [Function.update_self, hj, h.back]

end Link

/-- The HT state of the side is set up anew or taken down. -/
def LinkEvent.resets (y : Bool) : LinkEvent → Bool
  | .act x e => x == y && e.resets
  | _ => false

namespace Link

variable {l l' : Link} {o : Bool} {ac : WmeAc} {ev : LinkEvent} {a : Negotiation.State Nat}
  {vap : Bool → BaVap} {rx : Bool → RxNode} {ticks : Bool → Nat} {es es' : List LinkEvent}

/-- Each step of the link is one of the handshake, or none, for each stream of a side, as long as the other
side's HT state stays. -/
theorem Plays.step (h : l.Plays o ac a) (hok : l.Ok) (hres : ev.resets (!o) = false)
    (hstep : l.step ev = some l') : l'.Goes o ac a := by
  obtain ⟨x, e, r, rfl, hrecv, hr, rfl⟩ | ⟨x, m, rest, rfl, hair, hfresh, rfl⟩ | ⟨x, i, rfl, rfl⟩ :=
    step_cases hstep
  · by_cases hx : x = o
    · subst hx
      exact h.act_asker hok hr hrecv
    · obtain rfl : x = !o := Bool.eq_not_of_ne hx
      exact (h.act_peer hok hr hrecv (by simpa [LinkEvent.resets] using hres)).goes
  · by_cases hx : x = o
    · subst hx
      exact h.deliver_forth hok hair
    · obtain rfl : x = !o := Bool.eq_not_of_ne hx
      exact h.deliver_back hok hair hfresh
  · exact h.lose i

theorem ok_run (h : Machine.run step (start vap rx ticks) es = some l) : l.Ok :=
  Machine.run_preserves (fun hok hstep => hok.step hstep) (ok_start vap rx ticks) h

theorem plays_run (hplays : l.Plays o ac a) (hok : l.Ok) (hinv : Negotiation.Inv a)
    (hes : ∀ ev ∈ es, ev.resets (!o) = false) (h : Machine.run step l es = some l') :
    ∃ a', l'.Plays o ac a' ∧ Negotiation.Inv a' := by
  induction es generalizing l a with
  | nil =>
    cases h
    exact ⟨a, hplays, hinv⟩
  | cons ev es ih =>
    obtain ⟨u, hu, h⟩ := Machine.run_cons_eq_some.mp h
    obtain ⟨as, b, hb, hnext⟩ := hplays.step hok (hes ev List.mem_cons_self) hu
    exact ih hnext (hok.step hu) (Negotiation.inv_run hinv hb)
      (fun ev hev => hes ev (List.mem_cons_of_mem _ hev)) h

/-- A stream runs only while the queue of the peer is the one of its request: started at the number from which
the stream counts, with a window not smaller than its own, and nothing on its way that would end it. The peer
must have kept its HT state. -/
theorem run_agrees (h : Machine.run step (start vap rx ticks) es = some l)
    (hes : ∀ ev ∈ es, ev.resets (!o) = false) (hrun : ((l.sta o).ni.txAmpdu ac).running = true) :
    let tap := (l.sta o).ni.txAmpdu ac
    let queue := queueFrom (tap.start.toNat % seqRange)
    queue.Fed ((l.sta (!o)).ni.rx.rxAmpdu (wmeAcToTid ac)) ∧ tap.wnd ≤ queue.wnd ∧
      ∀ m ∈ l.air o, forthOf ac m = none := by
  obtain ⟨a, hplays, hinv⟩ :=
    plays_run (plays_start vap rx ticks) (ok_start vap rx ticks) Negotiation.inv_init hes h
  have hopen : a.asker = .opened (l.asked o ac) (((l.sta o).ni.txAmpdu ac).start.toNat % seqRange) := by
    rw [hplays.asker, askerOf, if_pos hrun]
  obtain ⟨hpeer, hempty⟩ := hinv.opened _ _ hopen
  rw [hplays.forth] at hempty
  exact ⟨hplays.peer _ _ hpeer, ((ok_run h).taps o ac).wnd, List.filterMap_eq_nil_iff.mp hempty⟩

/-- Two stations with HT. -/
def pair : Link := start (fun _ => {}) (fun _ => BaSta.htPeer) fun _ => 0

/-- A voice frame with the number 4095 asks for an agreement, and both frames of the exchange arrive. -/
def exchange : List LinkEvent :=
  [.act false (.txseq (tidOf 6) 4095), .act false (.start .vo false), .deliver false, .deliver true]

theorem exchange_agrees : ∃ l, Machine.run step pair exchange = some l ∧
    (((l.sta false).ni.txAmpdu .vo).running = true ∧ ((l.sta false).ni.txAmpdu .vo).start = 4095) ∧
    (queueFrom (((l.sta false).ni.txAmpdu .vo).start.toNat % seqRange)).Fed
      ((l.sta true).ni.rx.rxAmpdu (wmeAcToTid .vo)) := by
  have hex : ∃ l, Machine.run step pair exchange = some l ∧
      ((l.sta false).ni.txAmpdu .vo).running = true ∧ ((l.sta false).ni.txAmpdu .vo).start = 4095 :=
    Machine.exists_run (by decide)
  obtain ⟨l, hl, hstart⟩ := hex
  exact ⟨l, hl, hstart, (run_agrees hl (by decide) hstart.1).1⟩

theorem tapMove_eq_of_running {tap tap' : TxAmpdu} {n : Nat} {e : BaEvent} (hmove : TapMove n e ac tap tap')
    (hok : tap.Ok n) (hrun : tap.running = true) (hres : e.resets = false) (hends : ¬ e.ends ac)
    (hstop : ∀ reason, e ≠ .stop ac reason) : tap' = tap := by
  have hpend : tap.xchgPend = false := by
    by_contra hpend
    rw [(hok.waits (by simpa using hpend)).1] at hrun
    cases hrun
  exact hmove.eq_self hok hpend (by simp [TxAmpdu.requested, hrun]) hres hends fun _ => hstop

/-- No frame that this code sends ends a stream of the peer. -/
theorem Genuine.not_ends {m : Flight} {x : Bool} (h : l.Genuine x m) (ac : WmeAc) :
    ¬ (BaEvent.recv m.frame.bytes).ends ac := by
  rintro ⟨params, reason, hread, hinit, -⟩
  rw [BaAction.read_bytes] at hread
  rw [Genuine, Option.some.inj hread] at h
  obtain ⟨ac', rfl⟩ := h
  exact init_delbaParams ac' hinit

theorem tap_step (hok : l.Ok) (hrun : ((l.sta o).ni.txAmpdu ac).running = true) (hres : ev.resets o = false)
    (hstop : ∀ reason, ev ≠ .act o (.stop ac reason)) (hstep : l.step ev = some l') :
    (l'.sta o).ni.txAmpdu ac = (l.sta o).ni.txAmpdu ac := by
  obtain ⟨x, e, r, rfl, hrecv, hr, rfl⟩ | ⟨x, m, rest, rfl, hair, -, rfl⟩ | ⟨x, i, rfl, rfl⟩ :=
    step_cases hstep
  · by_cases hx : x = o
    · subst hx
      simp only [acted, Function.update_self]
      refine tapMove_eq_of_running (BaSta.tapMove_step hr ac) (hok.taps x ac) hrun
        (by simpa [LinkEvent.resets] using hres) ?_ (fun reason he => hstop reason (he ▸ rfl))
      cases e with
      | recv frm => exact absurd rfl (hrecv frm)
      | _ => exact id
    · rw [(acted_of_ne (Ne.symm hx)).1]
  · by_cases hx : x = o
    · subst hx
      have hne : x ≠ !x := by simp
      simp only [delivered, Function.update_of_ne hne]
    · obtain rfl : x = !o := Bool.eq_not_of_ne hx
      have hgen : l.Genuine (!o) m := hok.genuine (!o) m (hair ▸ List.mem_cons_self)
      have hrecv : (l.sta o).step (.recv m.frame.bytes) = some ((l.sta o).recv m.frame.bytes) := rfl
      simp only [delivered, Bool.not_not, Function.update_self]
      exact tapMove_eq_of_running (BaSta.tapMove_step hrecv ac) (hok.taps o ac) hrun rfl (hgen.not_ends ac)
        (fun reason => by simp)
  · rfl

/-- A stream that runs goes on until its own side ends it. The peer has no way to do so, and when its HT state
is set up anew the stream goes on without a queue. -/
theorem run_lasts (h : Machine.run step (start vap rx ticks) es = some l)
    (hrun : ((l.sta o).ni.txAmpdu ac).running = true)
    (hes : ∀ ev ∈ es', ev.resets o = false ∧ ∀ reason, ev ≠ .act o (.stop ac reason))
    (h' : Machine.run step l es' = some l') :
    (l'.sta o).ni.txAmpdu ac = (l.sta o).ni.txAmpdu ac := by
  have hok := ok_run h
  clear h
  induction es' generalizing l with
  | nil =>
    cases h'
    rfl
  | cons ev es' ih =>
    obtain ⟨u, hu, h'⟩ := Machine.run_cons_eq_some.mp h'
    have hsame := tap_step hok hrun (hes ev List.mem_cons_self).1 (hes ev List.mem_cons_self).2 hu
    rw [← hsame] at hrun ⊢
    exact ih hrun (fun ev hev => hes ev (List.mem_cons_of_mem _ hev)) h' (hok.step hu)

/-- The peer takes its HT state down after the exchange, and the stream goes on without a queue. -/
theorem exchange_lasts : ∃ l l', Machine.run step pair exchange = some l ∧
    Machine.run step l [.act true .cleanup] = some l' ∧
    ((l'.sta true).ni.rx.rxAmpdu (wmeAcToTid .vo)).running = false ∧
    (l'.sta false).ni.txAmpdu .vo = (l.sta false).ni.txAmpdu .vo := by
  have hex : ∃ l, Machine.run step pair exchange = some l ∧
      ((l.sta false).ni.txAmpdu .vo).running = true ∧
      (Machine.run step l [.act true .cleanup]).any
        (fun l' => !((l'.sta true).ni.rx.rxAmpdu (wmeAcToTid .vo)).running) = true :=
    Machine.exists_run (by decide)
  obtain ⟨l, hl, hrun, hany⟩ := hex
  obtain ⟨l', hl', hstopped⟩ := (Option.any_eq_true _ _).mp hany
  refine ⟨l, l', hl, hl', by simpa using hstopped, run_lasts hl hrun ?_ hl'⟩
  simp [LinkEvent.resets]

end Link

end Onebox.Net80211
