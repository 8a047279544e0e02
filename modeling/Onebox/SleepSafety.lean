import Onebox.WakeUp

/-! Sleep safety: from the acknowledgement of a sleep entry to the notification
that ends it, no frame of an active protocol is written. The proof follows what
each protocol may hold while an acknowledgement is pending. -/

namespace Onebox

open Machine

/-- The latest acknowledgement has been ended neither by a sleep exit nor by a
sleep entry that revokes it. -/
def ackPending : List BusEvent → Bool
  | [] => false
  | .sleepAck :: _ => true
  | .sleepExit :: _ => false
  | .ackRevoked :: _ => false
  | .write _ :: l => ackPending l

/-- No write of an active protocol follows a pending acknowledgement. -/
def SleepSafe (s : Sys) : Prop :=
  ∀ post pre q p, s.hal.bus = post ++ .write q :: pre → protoIdToPkttype q = some p →
    s.assets.isActive p = true → ackPending pre = false

/-- The receive thread grants access to a protocol that intends to transmit, and
a beacon that goes out unchecked would have passed the checks. -/
def grantsIntended (s : Sys) : Act → Bool
  | .rx =>
    match s.rx with
    | .grant _ p _ => (s.assets.techs p).txIntention
    | _ => true
  | .thread .wlan .beacon => s.wifiModeOn || s.hal.sendPktToCoexPasses true .wlan
  | _ => true

def Pc.asked (p : Proto) (c : Pc) : Prop :=
  c = .request p ∨ c = .recheck p ∨ c = .register p ∨ c = .waiting p ∨ c = .transmit p ∨
    c = .write p ∨ (p = .wlan ∧ (c = .woken ∨ c = .beaconWrite))

def Pc.sending (p : Proto) (c : Pc) : Prop :=
  c = .transmit p ∨ c = .write p ∨ (p = .wlan ∧ (c = .woken ∨ c = .beaconWrite))

theorem Pc.sending.asked {p : Proto} {c : Pc} (h : c.sending p) : c.asked p := by
  unfold Pc.sending at h
  unfold Pc.asked
  tauto

theorem Pc.asked.proto {p : Proto} {c : Pc} (h : c.asked p) : c.proto = some p := by
  rcases h with rfl | rfl | rfl | rfl | rfl | rfl | ⟨rfl, rfl | rfl⟩ <;> rfl

/-- What holds of one protocol, given whether an acknowledgement is pending. -/
structure Quiet (asleep : Bool) (w : WirelessTech) (c : Pc) (p : Proto) : Prop where
  access : w.txAccess = true → w.txIntention = true ∨ c = .dropAccess p
  asked : c.asked p → w.txIntention = true
  revoked : asleep = true → w.drvState = .active → w.txAccess = true → c = .dropAccess p
  silent : asleep = true → w.drvState = .active → ¬ c.sending p
  registered : asleep = true → w.drvState = .active → c = .waiting p → w.deregisterFlags = true

structure SleepInv (s : Sys) : Prop where
  serves : Serves s
  quiet : ∀ p, Quiet (ackPending s.hal.bus) (s.assets.techs p) (s.pc p.thread) p
  closed : ackPending s.hal.bus = true → s.assets.commonHalTxAccess = false
  rxOpen : s.rx ≠ .idle → ackPending s.hal.bus = false
  rxExit : s.rx ≠ .idle → s.rx.locked = false → s.assets.sleepEntryRecvd = false
  safe : SleepSafe s

namespace Quiet

variable {b : Bool} {w : WirelessTech} {c c' : Pc} {p : Proto}

theorem awake (h : Quiet b w c p) : Quiet false w c p :=
  ⟨h.access, h.asked, by simp, by simp, by simp⟩

theorem asleep (h : Quiet b w c p) (hw : w.drvState = .active → w.txIntention = false) :
    Quiet true w c p := by
  have hno : w.drvState = .active → ¬ c.asked p := by
    intro ha hc
    simp [h.asked hc] at hw
    exact hw ha
  refine ⟨h.access, h.asked, fun _ ha hx => ?_, fun _ ha hs => hno ha (hs.asked), fun _ ha hc => ?_⟩
  · exact (h.access hx).resolve_left (by simp [hw ha])
  · exact absurd (by simp [hc, Pc.asked]) (hno ha)

theorem grant (h : Quiet false w c p) (hi : w.txIntention = true) :
    Quiet false { w with txAccess := true } c p :=
  ⟨fun _ => .inl hi, h.asked, by simp, by simp, by simp⟩

theorem goto (h : Quiet b w c p) (hc : c ≠ .dropAccess p)
    (hask : c'.asked p → w.txIntention = true)
    (hsend : b = true → w.drvState = .active → ¬ c'.sending p)
    (hwait : b = true → w.drvState = .active → c' = .waiting p → w.deregisterFlags = true) :
    Quiet b w c' p where
  access hx := (h.access hx).imp_right (absurd · hc)
  asked := hask
  revoked hb ha hx := absurd (h.revoked hb ha hx) hc
  silent := hsend
  registered := hwait

theorem leave (h : Quiet b w c p) (hc : c ≠ .dropAccess p) (hc' : ¬ c'.asked p) : Quiet b w c' p :=
  h.goto hc (absurd · hc') (fun _ _ hs => hc' hs.asked)
    fun _ _ hw => absurd (by simp [hw, Pc.asked]) hc'

theorem keepAsking (h : Quiet b w c p) (hc : c.asked p) (hsend : ¬ c'.sending p)
    (hwait : c' ≠ .waiting p) : Quiet b w c' p := by
  refine h.goto ?_ (fun _ => h.asked hc) (fun _ _ => hsend) (fun _ _ hw => absurd hw hwait)
  rintro rfl
  simp [Pc.asked] at hc

theorem keepSending (h : Quiet b w c p) (hc : c.sending p) (hwait : c' ≠ .waiting p) :
    Quiet b w c' p := by
  refine h.goto ?_ (fun _ => h.asked hc.asked) (fun hb ha => absurd hc (h.silent hb ha))
    (fun _ _ hw => absurd hw hwait)
  rintro rfl
  simp [Pc.sending] at hc

theorem useAccess (h : Quiet b w c p) (hc : c ≠ .dropAccess p) (hx : w.txAccess = true)
    (hwait : c' ≠ .waiting p) : Quiet b w c' p :=
  h.goto hc (fun _ => (h.access hx).resolve_right hc) (fun hb ha _ => hc (h.revoked hb ha hx))
    fun _ _ hw => absurd hw hwait

theorem atDropAccess : Quiet b w (.dropAccess p) p :=
  ⟨fun _ => .inr rfl, by simp [Pc.asked], fun _ _ _ => rfl, by simp [Pc.sending], by simp⟩

theorem dropped (hx : w.txAccess = false) (hc : ¬ c.asked p) : Quiet b w c p where
  access hx' := by simp [hx] at hx'
  asked hc' := absurd hc' hc
  revoked _ _ hx' := by simp [hx] at hx'
  silent _ _ hs := hc hs.asked
  registered _ _ hw := absurd (by simp [hw, Pc.asked]) hc

end Quiet

namespace SleepSafe

variable {s u : Sys}

theorem of_bus_eq (h : SleepSafe s) (hbus : u.hal.bus = s.hal.bus)
    (hact : u.assets.isActive = s.assets.isActive) : SleepSafe u := by
  simpa only [SleepSafe, hbus, hact] using h

theorem cons {e : BusEvent} (h : SleepSafe s) (hbus : u.hal.bus = e :: s.hal.bus)
    (hact : u.assets.isActive = s.assets.isActive)
    (he : ∀ q p, e = .write q → protoIdToPkttype q = some p → s.assets.isActive p = true →
      ackPending s.hal.bus = false) : SleepSafe u := by
  intro post pre q p hsplit hp ha
  rw [hbus] at hsplit
  rw [hact] at ha
  cases post with
  | nil =>
    obtain ⟨rfl, rfl⟩ := List.cons.inj hsplit
    exact he q p rfl hp ha
  | cons e' post => exact h post pre q p (List.cons.inj hsplit).2 hp ha

end SleepSafe

namespace SleepInv

variable {s u : Sys} {t : Thread} {p : Proto} {c : Pc}

theorem goto (h : SleepInv s) (hold : ∀ q, s.pc t = .dropAccess q → q = p)
    (hnew : ∀ q, c.proto = some q → q = p ∧ p.thread = t)
    (hq : Quiet (ackPending s.hal.bus) (s.assets.techs p) c p) : SleepInv (s.setPc t c) := by
  refine ⟨h.serves.goto rfl ?_, fun q => ?_, h.closed, h.rxOpen, h.rxExit, h.safe⟩
  · intro q hq
    obtain ⟨rfl, ht⟩ := hnew q hq
    exact ht
  · rw [Sys.pc_setPc]
    split
    case isTrue ht =>
      by_cases hqp : q = p
      · exact hqp ▸ hq
      · exact (h.quiet q).leave (fun hc => hqp (hold q (ht ▸ hc)))
          fun hc => hqp (hnew q hc.proto).1
    case isFalse => exact h.quiet q

theorem modify {f : WirelessTech → WirelessTech} (h : SleepInv s)
    (hf : ∀ w, (f w).drvState = w.drvState)
    (hq : Quiet (ackPending s.hal.bus) (f (s.assets.techs p)) (s.pc p.thread) p) :
    SleepInv (s.mapAssets (·.modify p f)) := by
  refine ⟨h.serves.of_pc_eq rfl, fun q => ?_, h.closed, h.rxOpen, h.rxExit,
    h.safe.of_bus_eq rfl (DriverAssets.isActive_modify hf)⟩
  by_cases hqp : q = p
  · subst hqp
    simpa using hq
  · simpa [hqp] using h.quiet q

theorem logWrite {q : TxPktType} (h : SleepInv s)
    (hq : ∀ p, protoIdToPkttype q = some p → s.assets.isActive p = true →
      ackPending s.hal.bus = false) : SleepInv (s.logWrite q) where
  serves := h.serves.of_pc_eq rfl
  quiet := h.quiet
  closed := h.closed
  rxOpen := h.rxOpen
  rxExit := h.rxExit
  safe := h.safe.cons rfl rfl fun _ p he => by
    cases he
    exact hq p

theorem protocolTxAccess_eq_false {d : DriverAssets} (h : d.protocolTxAccess = false) (p : Proto)
    (hp : (d.techs p).drvState = .active) : (d.techs p).txIntention = false := by
  simp only [DriverAssets.protocolTxAccess, List.any_eq_false, DriverAssets.isActive] at h
  have := h p (by cases p <;> simp)
  simpa [hp] using this

theorem sendUlpSleepAck {alloc : Bool} (h : SleepInv s) (hrx : s.rx = .idle)
    (hno : s.assets.protocolTxAccess = false) :
    SleepInv { s with hal := s.hal.withdrawAccess.sendUlpSleepAck alloc } := by
  have hquiet : ∀ p b, Quiet b (s.assets.techs p) (s.pc p.thread) p := by
    intro p b
    have hp := (h.quiet p).asleep (protocolTxAccess_eq_false hno p)
    cases b
    · exact hp.awake
    · exact hp
  cases alloc with
  | false =>
    exact ⟨h.serves.of_pc_eq rfl, fun p => hquiet p _, fun _ => rfl, fun hx => absurd hrx hx,
      fun hx => absurd hrx hx, h.safe.of_bus_eq rfl rfl⟩
  | true =>
    exact ⟨h.serves.of_pc_eq rfl, fun p => hquiet p _, fun _ => rfl, fun hx => absurd hrx hx,
      fun hx => absurd hrx hx, h.safe.cons rfl rfl (by simp)⟩

theorem updateTxStatus {alloc : Bool} (h : SleepInv s) (hrx : s.rx.locked = false) (p : Proto) :
    SleepInv { s with hal := s.hal.updateTxStatus alloc p } := by
  fun_cases Hal.updateTxStatus alloc p s.hal
  case case1 | case3 | case5 => exact h
  case case2 hi hc =>
    have hb : ackPending s.hal.bus = false := by
      by_contra hb
      exact absurd hc (by simpa [Sys.assets] using h.closed (by simpa using hb))
    refine h.modify (fun _ => rfl) ?_
    have hp := h.quiet p
    rw [hb] at hp ⊢
    exact hp.grant hi
  case case4 hs =>
    simp only [Bool.and_eq_true, Bool.not_eq_true'] at hs
    refine h.sendUlpSleepAck ?_ hs.2
    by_contra hne
    exact absurd hs.1.1 (by simpa [Sys.assets] using h.rxExit hne hrx)

theorem quiet_at (h : SleepInv s) (hc : (s.pc t).proto = some p) :
    Quiet (ackPending s.hal.bus) (s.assets.techs p) (s.pc t) p :=
  h.serves t p hc ▸ h.quiet p

theorem move (h : SleepInv s) (hc : (s.pc t).proto = some p) (hnew : ∀ q, c.proto = some q → q = p)
    (hq : Quiet (ackPending s.hal.bus) (s.assets.techs p) (s.pc t) p →
      Quiet (ackPending s.hal.bus) (s.assets.techs p) c p) : SleepInv (s.setPc t c) := by
  refine h.goto ?_ (fun q hq => ⟨hnew q hq, h.serves t p hc⟩) (hq (h.quiet_at hc))
  intro q hpc
  simpa [hpc, Pc.proto] using hc

theorem leave (h : SleepInv s) (hc : ∀ q, s.pc t ≠ .dropAccess q)
    (hnew : ∀ q, c.proto = some q → q.thread = t) (hno : ∀ q, ¬ c.asked q) : SleepInv (s.setPc t c) := by
  refine ⟨h.serves.goto rfl hnew, fun q => ?_, h.closed, h.rxOpen, h.rxExit, h.safe⟩
  rw [Sys.pc_setPc]
  split
  case isTrue ht => exact (h.quiet q).leave (ht ▸ hc q) (hno q)
  case isFalse => exact h.quiet q

theorem of_dequeue {q : CoexQueue} (h : SleepInv s) : SleepInv (s.dequeue q) :=
  ⟨h.serves.of_pc_eq rfl, h.quiet, h.closed, h.rxOpen, h.rxExit, h.safe.of_bus_eq rfl rfl⟩

theorem coexWrite {q : TxPktType} (h : SleepInv s)
    (hq : ∀ p, protoIdToPkttype q = some p → s.assets.isActive p = true →
      ackPending s.hal.bus = false) : SleepInv (coexWrite s q) := by
  unfold Onebox.coexWrite
  split
  · exact h.logWrite hq
  · exact h

theorem coexPick (h : SleepInv s) (hpc : s.pc .coex = .idle) : SleepInv (coexPick s) := by
  fun_cases Onebox.coexPick s
  case case1 => exact h.of_dequeue.coexWrite (by simp [protoIdToPkttype])
  case case6 => exact h
  all_goals
    exact h.leave (by simp [hpc]) (by simp [Pc.proto, Proto.thread]) (by simp [Pc.asked])

theorem transmitStep {c : Choice} (h : SleepInv s) (hpc : s.pc t = .transmit p)
    (hs : transmitStep s p c = some u) : SleepInv u := by
  have hc : (s.pc t).proto = some p := by rw [hpc, Pc.proto]
  have hd : ∀ q, s.pc t ≠ .dropAccess q := by simp [hpc]
  have hsend : (s.pc t).sending p := by simp [hpc, Pc.sending]
  obtain rfl : p.thread = t := h.serves t p hc
  revert hs
  fun_cases Onebox.transmitStep s p c <;> rintro ⟨⟩
  case case1 => exact h.move hc (by simp [Pc.proto]) (·.keepSending hsend (by simp))
  case case2 => exact h
  case case3 => exact h.leave hd (by split <;> simp [Pc.proto, Proto.thread]) (by split <;> simp [Pc.asked])
  case case5 hp _ =>
    rw [Proto.thread_of_ne_wlan hp] at hd
    exact h.leave hd (by simp [Pc.proto]) (by simp [Pc.asked])
  case case6 hp _ =>
    rw [Proto.thread_of_ne_wlan hp] at hc hsend
    exact h.of_dequeue.move hc (by simp [Pc.proto]) (·.keepSending hsend (by simp))

theorem write_awake (h : SleepInv s) (hc : (s.pc t).proto = some p) (hsend : (s.pc t).sending p)
    (ha : s.assets.isActive p = true) : ackPending s.hal.bus = false := by
  by_contra hb
  exact (h.quiet_at hc).silent (by simpa using hb) (by simpa [DriverAssets.isActive] using ha) hsend

theorem writeStep (h : SleepInv s) (hpc : s.pc t = .write p) : SleepInv (writeStep s p) := by
  have hc : (s.pc t).proto = some p := by rw [hpc, Pc.proto]
  have hd : ∀ q, s.pc t ≠ .dropAccess q := by simp [hpc]
  have hsend : (s.pc t).sending p := by simp [hpc, Pc.sending]
  have hwrite := h.write_awake hc hsend
  obtain rfl : p.thread = t := h.serves t p hc
  fun_cases Onebox.writeStep s p
  · exact (h.logWrite (by simpa [protoIdToPkttype] using hwrite)).move hc (by simp [Pc.proto])
      (·.keepSending hsend (by simp))
  · rename_i hp
    rw [Proto.thread_of_ne_wlan hp] at hd
    refine (h.coexWrite ?_).leave (by simpa using hd) (by simp [Pc.proto]) (by simp [Pc.asked])
    cases p <;> simp_all [protoIdToPkttype, Proto.txPktType]

theorem beacon (h : SleepInv s) (hpc : s.pc .wlan = .idle)
    (hok : grantsIntended s (.thread .wlan .beacon) = true)
    (hpass : s.hal.sendPktToCoexPasses s.wifiModeOn .wlan = true) :
    SleepInv (s.setPc .wlan .beaconWrite) := by
  -- outside Wi-Fi mode the check passes by itself, and `grantsIntended` stands in for it
  have hx : (s.assets.techs .wlan).txAccess = true := by
    cases hw : s.wifiModeOn <;>
      simp_all [grantsIntended, Hal.sendPktToCoexPasses, Sys.assets]
  refine h.goto (p := .wlan) (by simp [hpc]) (by simp [Pc.proto, Proto.thread]) ?_
  exact (h.quiet .wlan).useAccess (by simp [Proto.thread, hpc]) hx (by simp)

theorem useAccess (h : SleepInv s) (hc : (s.pc t).proto = some p) (hd : s.pc t ≠ .dropAccess p)
    (hx : (s.assets.techs p).txAccess = true) : SleepInv (s.setPc t (.transmit p)) :=
  h.move hc (by simp [Pc.proto]) (·.useAccess hd hx (by simp))

theorem intend (h : SleepInv s) (hpc : s.pc t = .intend p) :
    SleepInv ((s.mapAssets (·.setTxIntention p true)).setPc t (.request p)) := by
  have hc : (s.pc t).proto = some p := by rw [hpc, Pc.proto]
  have hq := h.quiet_at hc
  have hi : SleepInv (s.mapAssets (·.setTxIntention p true)) := by
    rw [← h.serves t p hc] at hq
    exact h.modify (fun _ => rfl) ⟨fun _ => .inl rfl, fun _ => rfl, hq.revoked, hq.silent, hq.registered⟩
  refine hi.move hc (by simp [Pc.proto]) fun hq => ?_
  exact hq.goto (by simp [hpc]) (by simp [DriverAssets.setTxIntention]) (by simp [Pc.sending]) (by simp)

theorem register (h : SleepInv s) (hpc : s.pc t = .register p) :
    SleepInv ((s.mapAssets (·.setDeregisterFlags p true)).setPc t (.waiting p)) := by
  have hc : (s.pc t).proto = some p := by rw [hpc, Pc.proto]
  have hq := h.quiet_at hc
  have hf : SleepInv (s.mapAssets (·.setDeregisterFlags p true)) := by
    rw [← h.serves t p hc] at hq
    exact h.modify (fun _ => rfl) ⟨hq.access, hq.asked, hq.revoked, hq.silent, fun _ _ _ => rfl⟩
  refine hf.move hc (by simp [Pc.proto]) fun hq => ?_
  exact hq.goto (by simp [hpc]) (fun _ => hq.asked (by simp [hpc, Pc.asked])) (by simp [Pc.sending])
    (by simp [DriverAssets.setDeregisterFlags])

/-- A waiter whose registration is gone has been granted access, so the device is awake. -/
theorem woken (h : SleepInv s) (hpc : s.pc t = .waiting p)
    (hf : ¬ (s.assets.techs p).deregisterFlags = true) : SleepInv (s.setPc t (afterWait p)) := by
  refine h.move (by rw [hpc, Pc.proto]) (by simp [proto_afterWait]) fun hq => ?_
  refine hq.goto (by simp [hpc]) (fun _ => hq.asked (by simp [hpc, Pc.asked])) ?_ ?_
  · exact fun hb ha _ => hf (hq.registered hb ha hpc)
  · exact fun hb ha _ => absurd (hq.registered hb ha hpc) hf

theorem beaconWrite (h : SleepInv s) (hpc : s.pc .wlan = .beaconWrite) :
    SleepInv ((s.logWrite .wlanM).setPc .wlan .idle) := by
  refine (h.logWrite fun p hp ha => ?_).leave (by simp [hpc]) (by simp [Pc.proto]) (by simp [Pc.asked])
  cases hp
  exact h.write_awake (by rw [hpc, Pc.proto]) (by simp [hpc, Pc.sending]) ha

theorem dropIntention (h : SleepInv s) (hpc : s.pc t = .dropIntention p) :
    SleepInv ((s.mapAssets (·.setTxIntention p false)).setPc t (.dropAccess p)) := by
  have hc : (s.pc t).proto = some p := by rw [hpc, Pc.proto]
  have ht := h.serves t p hc
  -- the place comes first: only there may a protocol have access without an intention
  have hd : SleepInv (s.setPc t (.dropAccess p)) := h.move hc (by simp [Pc.proto]) fun _ => .atDropAccess
  refine hd.modify (fun _ => rfl) ?_
  simpa [ht] using Quiet.atDropAccess

theorem dropAccess (h : SleepInv s) (hpc : s.pc t = .dropAccess p) :
    SleepInv ((s.mapAssets (·.setTxAccess p false)).setPc t (.release p)) := by
  have hc : (s.pc t).proto = some p := by rw [hpc, Pc.proto]
  have hx : SleepInv (s.mapAssets (·.setTxAccess p false)) :=
    h.modify (fun _ => rfl) (.dropped rfl (by simp [h.serves t p hc, hpc, Pc.asked]))
  exact hx.move hc (by simp [Pc.proto]) fun _ =>
    .dropped (by simp [DriverAssets.setTxAccess]) (by simp [Pc.asked])

theorem release {alloc : Bool} (h : SleepInv s) (hpc : s.pc t = .release p) (hrx : s.rx.locked = false) :
    SleepInv ({ s with hal := s.hal.updateTxStatus alloc p }.setPc t (afterRelease s p)) := by
  refine (h.updateTxStatus hrx p).leave (by simp [hpc]) (fun q hq => ?_) fun q => ?_
  · exact (thread_afterRelease hq).trans (h.serves t p (by rw [hpc, Pc.proto]))
  · rcases afterRelease_cases s p with hr | ⟨_, hr⟩ <;> simp [hr, Pc.asked]

theorem threadStep {c : Choice} (h : SleepInv s) (hok : grantsIntended s (.thread t c) = true)
    (hs : threadStep s t c = some u) : SleepInv u := by
  revert hs hok
  fun_cases Onebox.threadStep s t c
  case case15 p hpc => exact fun _ => h.transmitStep hpc
  all_goals (rintro hok ⟨⟩)
  case case1 hpc =>
    split
    case isTrue ht =>
      subst ht
      exact h.leave (by simp [hpc]) (by simp [Pc.proto, Proto.thread]) (by simp [Pc.asked])
    case isFalse ht =>
      obtain rfl : t = .coex := by cases t <;> simp_all
      exact h.coexPick hpc
  case case2 hpc ht =>
    subst ht
    split
    case isTrue hpass => exact h.beacon hpc hok hpass
    case isFalse => exact h
  case case4 p hpc =>
    have hc : (s.pc t).proto = some p := by rw [hpc, Pc.proto]
    split
    case isTrue hx => exact h.useAccess hc (by simp [hpc]) hx
    case isFalse => exact h.move hc (by simp [Pc.proto]) (·.leave (by simp [hpc]) (by simp [Pc.asked]))
  case case5 p hpc => exact h.intend hpc
  case case7 p hpc hrx =>
    exact (h.updateTxStatus (by simpa using hrx) p).move (by rw [hpc, Pc.proto]) (by simp [Pc.proto])
      (·.keepAsking (by simp [hpc, Pc.asked]) (by simp [Pc.sending]) (by simp))
  case case8 p hpc =>
    have hc : (s.pc t).proto = some p := by rw [hpc, Pc.proto]
    split
    case isTrue hx => exact h.useAccess hc (by simp [hpc]) hx
    case isFalse =>
      exact h.move hc (by simp [Pc.proto])
        (·.keepAsking (by simp [hpc, Pc.asked]) (by simp [Pc.sending]) (by simp))
  case case9 p hpc => exact h.register hpc
  case case11 p hpc hf => exact h.woken hpc hf
  case case12 p hpc _ =>
    exact h.leave (by simp [hpc]) (by simp [Pc.proto]) (by simp [Pc.asked])
  case case14 hpc =>
    split
    case isTrue hx => exact h.useAccess (by rw [hpc, Pc.proto]) (by simp [hpc]) hx
    case isFalse => exact h.leave (by simp [hpc]) (by simp [Pc.proto]) (by simp [Pc.asked])
  case case16 p hpc => exact h.writeStep hpc
  case case17 hpc =>
    obtain rfl : t = .wlan := (h.serves t .wlan (by rw [hpc, Pc.proto])).symm
    exact h.beaconWrite hpc
  case case18 p hpc => exact h.dropIntention hpc
  case case19 p hpc => exact h.dropAccess hpc
  case case21 p hpc hrx | case23 p hpc hrx => exact h.release hpc (by simpa using hrx)

theorem setRx {r : RxPc} (h : SleepInv s) (hr : r ≠ .idle → s.rx ≠ .idle ∧ r.locked = s.rx.locked) :
    SleepInv { s with rx := r } where
  serves := h.serves.of_pc_eq rfl
  quiet := h.quiet
  closed := h.closed
  rxOpen hx := h.rxOpen (hr hx).1
  rxExit hx hl := h.rxExit (hr hx).1 ((hr hx).2 ▸ hl)
  safe := h.safe.of_bus_eq rfl rfl

theorem rxStep (h : SleepInv s) (hok : grantsIntended s .rx = true) (hs : rxStep s = some u) :
    SleepInv u := by
  revert hs
  fun_cases Onebox.rxStep s <;> rintro ⟨⟩
  case case2 => exact h.setRx (absurd rfl)
  case case3 b p ps hrx hg =>
    have hb : ackPending s.hal.bus = false := h.rxOpen (by simp [hrx])
    have hq := (h.quiet p).awake
    have hf : SleepInv (s.mapAssets (·.setDeregisterFlags p false)) := by
      refine h.modify (fun _ => rfl) ?_
      rw [hb]
      exact ⟨hq.access, hq.asked, by simp, by simp, by simp⟩
    exact hf.setRx (by simp [hrx, RxPc.locked])
  case case4 b p ps hrx hg => exact h.setRx (by simp [hrx, RxPc.locked])
  case case5 b p ps hrx =>
    have hb : ackPending s.hal.bus = false := h.rxOpen (by simp [hrx])
    have hx : SleepInv (s.mapAssets (·.setTxAccess p true)) :=
      h.modify (fun _ => rfl) (hb ▸ (h.quiet p).awake.grant (by simpa [grantsIntended, hrx] using hok))
    exact hx.setRx (by simp [hrx, RxPc.locked])

theorem wakeUp {e : BusEvent} (h : SleepInv s) (he : e = .sleepExit ∨ e = .ackRevoked)
    (hpc : u.pc = s.pc) (hbus : u.hal.bus = e :: s.hal.bus) (ht : u.assets.techs = s.assets.techs)
    (hrx : u.rx.locked = false → u.assets.sleepEntryRecvd = false) : SleepInv u := by
  have hb : ackPending u.hal.bus = false := by rcases he with rfl | rfl <;> rw [hbus] <;> rfl
  have hact : u.assets.isActive = s.assets.isActive := by
    funext p
    rw [DriverAssets.isActive, ht, DriverAssets.isActive]
  refine ⟨h.serves.of_pc_eq hpc, fun p => ?_, by simp [hb], fun _ => hb, fun _ => hrx, ?_⟩
  · rw [hb, hpc, ht]
    exact (h.quiet p).awake
  · exact h.safe.cons hbus hact (by rcases he with rfl | rfl <;> simp)

theorem sleepEntry {alloc : Bool} (h : SleepInv s) (hrx : s.rx = .idle) :
    SleepInv { s with
      hal := (s.hal.sleepEntryRecvd alloc).1
      rx := if (s.hal.sleepEntryRecvd alloc).2 then .granting true allProtos else .idle } := by
  cases hi : s.hal.assets.protocolTxAccess with
  | true =>
    rw [Hal.sleepEntryRecvd_of_intention hi]
    exact h.wakeUp (.inr rfl) rfl rfl rfl (by simp [RxPc.locked])
  | false =>
    rw [Hal.sleepEntryRecvd_of_no_intention hi]
    have he : SleepInv (s.mapAssets ({ · with sleepEntryRecvd := true })) :=
      ⟨h.serves.of_pc_eq rfl, h.quiet, h.closed, h.rxOpen, fun hx => absurd hrx hx,
        h.safe.of_bus_eq rfl rfl⟩
    exact (he.sendUlpSleepAck hrx hi).setRx (absurd rfl)

theorem step {a : Act} (h : SleepInv s) (hok : grantsIntended s a = true) (hs : s.step a = some u) :
    SleepInv u := by
  revert hs
  fun_cases Sys.step s a
  case case2 => exact h.threadStep hok
  case case7 => exact h.rxStep hok
  all_goals rintro ⟨⟩
  case case1 =>
    exact ⟨h.serves.of_pc_eq rfl, h.quiet, h.closed, h.rxOpen, h.rxExit, h.safe.of_bus_eq rfl rfl⟩
  case case3 hrx _ => exact h.sleepEntry hrx
  case case5 hrx => exact h.wakeUp (.inl rfl) rfl rfl rfl fun _ => rfl

theorem of_cardReady (h : CardReady s) : SleepInv s where
  serves t p hp := by simp [h.threads t, Pc.proto] at hp
  quiet p := by
    have hb : ackPending s.hal.bus = false := by rw [h.bus, ackPending]
    rw [hb, h.threads]
    exact ⟨fun hx => .inl (h.asked p hx), by simp [Pc.asked], by simp, by simp, by simp⟩
  closed hb := by simp [h.bus, ackPending] at hb
  rxOpen hx := absurd h.rx hx
  rxExit hx := absurd h.rx hx
  safe post pre q p hb := by simp [h.bus] at hb

end SleepInv

/-- Sleep safety over every run whose grants go to protocols that intend to transmit. -/
theorem sleep_safe {s t : Sys} {as : List Act} (hs : CardReady s) (hok : Meets Sys.step grantsIntended s as)
    (hrun : run Sys.step s as = some t) : SleepSafe t :=
  (run_invariant SleepInv.step (SleepInv.of_cardReady hs) hok hrun).safe

theorem sleep_safe_wakeThenWrite :
    CardReady btPowerSave ∧ Meets Sys.step grantsIntended btPowerSave wakeThenWrite ∧
      ∃ t, run Sys.step btPowerSave wakeThenWrite = some t ∧ SleepSafe t := by
  have hok : Meets Sys.step grantsIntended btPowerSave wakeThenWrite := by decide
  exact ⟨btPowerSave_cardReady, hok, _, rfl, sleep_safe btPowerSave_cardReady hok rfl⟩

def staleGrant : List Act :=
  -- Bluetooth registers late, gives up after its wait and later transmits and drops its access; its
  -- `deregister_flags` stays set, so the next sleep exit gives it access that it did not ask for
  lateRegistration ++
  (.thread .coex .timeout :: .enqueue .bt :: List.replicate 15 (.thread .coex .go) : List Act) ++
  (.sleepEntry true :: .sleepExit :: List.replicate 5 .rx : List Act)

/-- After the stale grant the device falls asleep again and a Bluetooth packet is written. -/
theorem sleep_unsafe_stale_grant :
    CardReady btPowerSave ∧ ∃ t, run Sys.step btPowerSave
      (staleGrant ++ .sleepEntry true :: .enqueue .bt :: List.replicate 4 (.thread .coex .go)) = some t ∧
      ¬ SleepSafe t := by
  refine ⟨btPowerSave_cardReady, _, rfl, fun h => ?_⟩
  exact absurd (h [] _ .bt .bt rfl rfl rfl) (by decide)

end Onebox
