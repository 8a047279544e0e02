import Onebox.CoexOwnership

/-! The bring-up of the coexistence modes over every sequence of received packets:
when the configuration frame is sent and transmit access opens. A sleep message of
the firmware can open the access before the card readies are complete. -/

namespace Onebox

open PktCall Machine

def CoexEffect.isConfig : CoexEffect → Bool
  | .configureCommonDevParams _ => true
  | _ => false

def configs (es : List CoexEffect) : Nat := es.countP CoexEffect.isConfig

/-- The technologies a mode consists of. -/
def CoexMode.requires : CoexMode → Proto → Bool
  | .wifiAlone, p => p = .wlan
  | .wifiBtClassic, p | .wifiBtLe, p => p = .wlan || p = .bt
  | .wifiZigbee, p => p = .wlan || p = .zb
  | .other, _ => false

def CoexPkt.cardReadyOf (pkt : CoexPkt) : Proto → Bool
  | .bt => pkt.rxPktType = .bt && pkt.data.byte 14 = 0x89
  | .wlan => pkt.rxPktType = .wlan && pkt.data.byte 2 = 0
  | .zb => pkt.rxPktType = .zigb && pkt.data.byte 15 = 0xff

/-- The common HAL with the card readies received and everything done so far. -/
structure BringUp where
  coex : Coex
  ready : Proto → Bool
  effects : List CoexEffect

/-- Between two packets the other threads may change the protocols and the state of the flash code,
but only this code activates a firmware or opens the access. -/
inductive BringUpAct
  | packet (pkt : CoexPkt) (e : CoexEnv)
  | others (d : DriverAssets) (fsm : FsmState) (cardAboard : Bool)

def Coex.others (s : Coex) (d : DriverAssets) (fsm : FsmState) (cardAboard : Bool) : Coex :=
  { s.mapAssets fun old => { d with
      techs := fun p => { d.techs p with fwActive := (d.techs p).fwActive && (old.techs p).fwActive }
      commonHalTxAccess := d.commonHalTxAccess && old.commonHalTxAccess } with fsm, cardAboard }

namespace BringUp

variable (s : BringUp)

def step : BringUpAct → Option BringUp
  | .packet pkt e =>
    let x := s.coex.deployPacketToAssets e pkt
    x.result.map fun r =>
      { coex := r.1, ready := fun p => s.ready p || pkt.cardReadyOf p, effects := s.effects ++ effectsOf x.log }
  | .others d fsm cardAboard => some { s with coex := s.coex.others d fsm cardAboard }

end BringUp

/-- A message about the sleep of the firmware that opens the access. -/
def Coex.sleepOpens (s : Coex) (pkt : CoexPkt) : Bool :=
  pkt.rxPktType = .coex && s.fsm = .deviceReady && pkt.data.byte 2 = 6 &&
    (!(pkt.data.byte 12).getLsbD 0 || s.assets.protocolTxAccess)

/-- No sleep message opens the access before the card readies are complete. -/
def sleepsInOrder (s : BringUp) : BringUpAct → Bool
  | .packet pkt _ => s.coex.commonHalFsm ≠ .waitForCardReady || !s.coex.sleepOpens pkt
  | .others .. => true

structure BringUpStart (s : BringUp) : Prop where
  fsm : s.coex.commonHalFsm = .waitForCardReady
  closed : s.coex.assets.commonHalTxAccess = false
  inactive : ∀ p, s.coex.fwActive p = false
  effects : s.effects = []

/-- At most one configuration frame, only after the card readies of the mode, and no access before. -/
structure Gate (s : BringUp) : Prop where
  once : configs s.effects ≤ 1
  ready : configs s.effects = 1 → ∀ p, s.coex.coexMode.requires p = true → s.ready p = true
  closed : configs s.effects = 0 → s.coex.assets.commonHalTxAccess = false

/-- What a step that sends the frame does: it opens the access, which was closed until then, and
grants it to every active protocol that waits. -/
structure GateStep (s t : BringUp) : Prop where
  first : configs s.effects = 0
  opens : t.coex.assets.commonHalTxAccess = true
  granted : ∀ p, s.coex.assets.grantable p = true →
    (t.coex.assets.techs p).txAccess = true ∧ (t.coex.assets.techs p).deregisterFlags = false ∧
      .wakeUp p ∈ t.effects.drop s.effects.length

section Grant

variable {d : DriverAssets} {p q : Proto}

def granted (w : WirelessTech) : WirelessTech := { w with deregisterFlags := false, txAccess := true }

theorem setTxAccess_setDeregisterFlags :
    (d.setDeregisterFlags p false).setTxAccess p true = d.modify p granted := by
  simp [DriverAssets.setTxAccess, DriverAssets.setDeregisterFlags, DriverAssets.modify, granted]

theorem grantable_modify_of_ne (h : q ≠ p) : (d.modify p granted).grantable q = d.grantable q := by
  simp [DriverAssets.grantable, DriverAssets.isActive, h]

theorem foldl_grantOne {ps : List Proto} (hnd : ps.Nodup) (d : DriverAssets) (es : List CoexEffect) :
    ps.foldl grantOne (d, es) =
      ({ d with techs := fun p => if p ∈ ps ∧ d.grantable p = true then granted (d.techs p) else d.techs p },
        es ++ (ps.filter d.grantable).map .wakeUp) := by
  induction ps generalizing d es with
  | nil => simp
  | cons p ps ih =>
    obtain ⟨hp, hnd⟩ := List.nodup_cons.mp hnd
    rw [List.foldl_cons, grantOne]
    cases hg : d.grantable p with
    | false =>
      simp only [Bool.false_eq_true, if_false, ih hnd, hg, List.filter_cons_of_neg, not_false_eq_true,
        Prod.mk.injEq, and_true]
      congr 1
      funext q
      by_cases hq : q = p
      · simp [hq, hg]
      · simp [hq]
    | true =>
      have hfilter : ps.filter (d.modify p granted).grantable = ps.filter d.grantable := by
        refine List.filter_congr fun q hq => grantable_modify_of_ne ?_
        rintro rfl
        exact hp hq
      simp only [if_true, setTxAccess_setDeregisterFlags, ih hnd, hfilter, hg, List.filter_cons_of_pos,
        List.map_cons, List.append_assoc, List.singleton_append, Prod.mk.injEq, and_true]
      rw [DriverAssets.modify]
      congr 1
      funext q
      by_cases hq : q = p
      · simp [hq, hg, hp]
      · simp [hq, ← grantable_modify_of_ne (d := d) hq, DriverAssets.modify]

theorem grantWaiting_eq (d : DriverAssets) :
    grantWaiting d =
      ({ d with techs := fun p => if d.grantable p = true then granted (d.techs p) else d.techs p },
        (allProtos.filter d.grantable).map .wakeUp) := by
  have hall : ∀ p, p ∈ allProtos := by
    intro p
    cases p <;> decide
  rw [grantWaiting, foldl_grantOne (by decide)]
  simp [hall]

end Grant

theorem configs_append (es es' : List CoexEffect) : configs (es ++ es') = configs es + configs es' :=
  List.countP_append

theorem configs_wakeUp (ps : List Proto) : configs (ps.map .wakeUp) = 0 := by
  rw [configs, List.countP_eq_zero]
  intro c hc
  obtain ⟨p, -, rfl⟩ := List.mem_map.mp hc
  simp [CoexEffect.isConfig]

/-- A part of the handler that neither sends the frame nor activates a firmware. -/
structure QuietPart (s c : Coex) (es : List CoexEffect) : Prop where
  fsm : c.commonHalFsm = s.commonHalFsm
  mode : c.coexMode = s.coexMode
  fw : c.fwActive = s.fwActive
  configs : configs es = 0

namespace Coex

variable {s c : Coex} {e : CoexEnv} {pkt : CoexPkt} {p : Proto} {es : List CoexEffect}

theorem quietPart_refl (h : configs es = 0) : QuietPart s s es := ⟨rfl, rfl, rfl, h⟩

theorem grant_eq : s.grant =
    (s.mapAssets fun d => { d with
      techs := fun p => if d.grantable p = true then granted (d.techs p) else d.techs p },
      (allProtos.filter s.assets.grantable).map .wakeUp) := by
  rw [grant, grantWaiting_eq]
  rfl

theorem quiet_grant (hfsm : c.commonHalFsm = s.commonHalFsm) (hmode : c.coexMode = s.coexMode)
    (hfw : c.fwActive = s.fwActive) : QuietPart s c.grant.1 c.grant.2 := by
  rw [grant_eq]
  refine ⟨hfsm, hmode, ?_, configs_wakeUp _⟩
  rw [← hfw]
  funext p
  simp only [fwActive, assets, mapAssets]
  split_ifs <;> rfl

theorem techs_sleepEntryRecvd (h : Hal) (alloc : Bool) :
    (h.sleepEntryRecvd alloc).1.assets.techs = h.assets.techs := by
  cases hi : h.assets.protocolTxAccess with
  | false =>
    rw [Hal.sleepEntryRecvd_of_no_intention hi]
    cases alloc <;> rfl
  | true => rw [Hal.sleepEntryRecvd_of_intention hi]

theorem quiet_processUlpSleepNotify (msg : RxMsg) :
    QuietPart s (s.processUlpSleepNotify e msg).1 (s.processUlpSleepNotify e msg).2 := by
  have hfw : ∀ token, { s with hal := (s.hal.sleepEntryRecvd e.ackAlloc).1, ulpSleepToken := token }.fwActive =
      s.fwActive := by
    intro token
    funext p
    simp only [fwActive, assets, techs_sleepEntryRecvd]
  simp only [processUlpSleepNotify]
  split_ifs
  · exact quiet_grant rfl rfl (hfw _)
  · exact ⟨rfl, rfl, hfw _, rfl⟩
  · exact quiet_grant rfl rfl rfl

theorem quiet_process (msg : RxMsg) :
    QuietPart s (s.oneboxProcessCoexRxPkt e msg).1 (s.oneboxProcessCoexRxPkt e msg).2 := by
  simp only [oneboxProcessCoexRxPkt]
  split
  case h_4 =>
    split_ifs
    · exact quiet_processUlpSleepNotify msg
    · exact quietPart_refl rfl
  all_goals try split_ifs
  all_goals exact ⟨rfl, rfl, rfl, rfl⟩

theorem closed_process (hclosed : s.assets.commonHalTxAccess = false) (hpkt : pkt.rxPktType = .coex)
    (hno : s.sleepOpens pkt = false) :
    (s.oneboxProcessCoexRxPkt e pkt.data).1.assets.commonHalTxAccess = false := by
  simp only [oneboxProcessCoexRxPkt]
  split
  case h_4 hfsm =>
    split_ifs with hnotify
    · have hentry : (pkt.data.byte 12).getLsbD 0 = true ∧ s.assets.protocolTxAccess = false := by
        simpa [sleepOpens, hpkt, hfsm, hnotify] using hno
      simp only [processUlpSleepNotify, hentry.1, Hal.sleepEntryRecvd_of_no_intention (h := s.hal) hentry.2]
      cases e.ackAlloc <;> rfl
    · exact hclosed
  all_goals try split_ifs
  all_goals exact hclosed

theorem allReady_requires (h : s.allReady = true) (hp : s.coexMode.requires p = true) : s.fwActive p = true := by
  rw [allReady] at h
  cases hm : s.coexMode <;> simp only [hm, CoexMode.requires] at h hp <;> cases p <;> simp_all

/-- `inaugurate_assets` changes the driver state of one protocol only. -/
structure Inaugurated (s c : Coex) (es : List CoexEffect) : Prop where
  quiet : QuietPart s c es
  access : c.assets.commonHalTxAccess = s.assets.commonHalTxAccess
  techs : ∀ q, (c.assets.techs q).txAccess = (s.assets.techs q).txAccess ∧
    (c.assets.techs q).deregisterFlags = (s.assets.techs q).deregisterFlags

theorem inaugurated_inaugurateAssets :
    Inaugurated s (s.inaugurateAssets e p).1 (s.inaugurateAssets e p).2 := by
  rw [inaugurateAssets]
  split
  · refine ⟨⟨rfl, rfl, ?_, rfl⟩, rfl, fun q => ?_⟩
    · funext q
      by_cases hq : q = p <;> simp [fwActive, assets, mapAssets, hq]
    · by_cases hq : q = p <;> simp [assets, mapAssets, hq]
  · exact ⟨quietPart_refl rfl, rfl, fun _ => ⟨rfl, rfl⟩⟩

/-- What the state that sends the frame does. -/
structure Sent (s c : Coex) (es : List CoexEffect) : Prop where
  fsm : c.commonHalFsm = .txAccess
  mode : c.coexMode = s.coexMode
  fw : c.fwActive = s.fwActive
  configs : configs es = 1
  access : c.assets.commonHalTxAccess = true
  granted : ∀ q, s.assets.grantable q = true →
    (c.assets.techs q).txAccess = true ∧ (c.assets.techs q).deregisterFlags = false ∧ .wakeUp q ∈ es

theorem sent_sendConfigParams : Sent s (s.sendConfigParams e).1 (s.sendConfigParams e).2 := by
  have hall : ∀ q, q ∈ allProtos := by
    intro q
    cases q <;> decide
  have hq : QuietPart s.openAccess s.openAccess.grant.1 s.openAccess.grant.2 := quiet_grant rfl rfl rfl
  refine ⟨hq.fsm, hq.mode, hq.fw, ?_, ?_, fun q hg => ?_⟩
  · exact (List.countP_cons_of_pos rfl).trans (congrArg (· + 1) hq.configs)
  · rw [sendConfigParams, grant_eq]
    rfl
  · have hg' : s.openAccess.hal.assets.grantable q = true := hg
    simp only [sendConfigParams, grant_eq]
    refine ⟨?_, ?_, ?_⟩
    · simp [assets, mapAssets, hg', Onebox.granted]
    · simp [assets, mapAssets, hg', Onebox.granted]
    · exact List.mem_cons_of_mem _ (List.mem_map_of_mem (List.mem_filter.mpr ⟨hall q, hg'⟩))

theorem Sent.inaugurated {d : Coex} {es' : List CoexEffect} (h : Sent s c es) (hd : Inaugurated c d es') :
    Sent s d (es ++ es') := by
  refine ⟨hd.quiet.fsm.trans h.fsm, hd.quiet.mode.trans h.mode, hd.quiet.fw.trans h.fw, ?_,
    hd.access.trans h.access, fun q hq => ?_⟩
  · rw [configs_append, h.configs, hd.quiet.configs]
  · obtain ⟨hacc, hflag, hwake⟩ := h.granted q hq
    obtain ⟨hacc', hflag'⟩ := hd.techs q
    exact ⟨hacc'.trans hacc, hflag'.trans hflag, List.mem_append_left _ hwake⟩

/-- A card ready marks the firmware, and then it changes nothing else or opens the gate. -/
theorem cardReady_cases (s : Coex) (e : CoexEnv) (p : Proto) :
    Inaugurated (s.markReady p) (s.cardReady e p).1 (s.cardReady e p).2 ∨
      s.commonHalFsm ≠ .txAccess ∧ (s.commonHalFsm = .waitForCardReady → (s.markReady p).allReady = true) ∧
        Sent (s.markReady p) (s.cardReady e p).1 (s.cardReady e p).2 := by
  have hsend (h : (s.markReady p).oneboxUpdateCommonHalTxAccess e = (s.markReady p).sendConfigParams e) :
      Sent (s.markReady p) (s.cardReady e p).1 (s.cardReady e p).2 := by
    simp only [cardReady, h]
    exact sent_sendConfigParams.inaugurated inaugurated_inaugurateAssets
  have hsame (h : (s.markReady p).oneboxUpdateCommonHalTxAccess e = (s.markReady p, [])) :
      Inaugurated (s.markReady p) (s.cardReady e p).1 (s.cardReady e p).2 := by
    simp only [cardReady, h]
    exact inaugurated_inaugurateAssets
  cases hfsm : s.commonHalFsm with
  | waitForCardReady =>
    have hfsm' : (s.markReady p).commonHalFsm = .waitForCardReady := hfsm
    cases hall : (s.markReady p).allReady with
    | false => exact .inl (hsame (by simp [oneboxUpdateCommonHalTxAccess, hfsm', hall]))
    | true =>
      refine .inr ⟨by decide, fun _ => rfl, hsend ?_⟩
      simp [oneboxUpdateCommonHalTxAccess, hfsm', hall]
  | sendConfigParams =>
    have hfsm' : (s.markReady p).commonHalFsm = .sendConfigParams := hfsm
    refine .inr ⟨by decide, (fun hwait => by cases hwait), hsend ?_⟩
    simp [oneboxUpdateCommonHalTxAccess, hfsm']
  | txAccess =>
    have hfsm' : (s.markReady p).commonHalFsm = .txAccess := hfsm
    exact .inl (hsame (by simp [oneboxUpdateCommonHalTxAccess, hfsm']))

/-- What `deploy_packet_to_assets` can do: leave the state as it is, handle a message of its own, or
take the card ready of a protocol. -/
inductive Deployed (s : Coex) (e : CoexEnv) (pkt : CoexPkt) : Coex → List CoexEffect → Prop
  | left {es : List CoexEffect} (h : configs es = 0) : Deployed s e pkt s es
  | coex (h : pkt.rxPktType = .coex) :
    Deployed s e pkt (s.oneboxProcessCoexRxPkt e pkt.data).1 (s.oneboxProcessCoexRxPkt e pkt.data).2
  | ready (p : Proto) (h : pkt.cardReadyOf p = true) :
    Deployed s e pkt (s.cardReady e p).1 (s.cardReady e p).2

theorem leaves_deployTo {ready : Bool} {read : CoexExit} (hready : ready = true → pkt.cardReadyOf p = true)
    (hread : Leaves (Deployed s e pkt) read) : Leaves (Deployed s e pkt) (s.deployTo e p ready read) := by
  rw [deployTo]
  split_ifs with hfw hr hact hh
  · exact leaves_freed (.ready p (hready hr))
  · exact leaves_freed (.left rfl)
  · exact leaves_freed (.left rfl)
  · exact hread
  · exact leaves_kept (.left rfl)

theorem leaves_toBluez (h : configs es = 0) : Leaves (Deployed s e pkt) (s.toBluez es) :=
  leaves_handedOver (.left ((configs_append ..).trans (by rw [h]; rfl)))

theorem leaves_oneboxBtMgmtPktRecv (msg : RxMsg) :
    Leaves (Deployed s e pkt) (s.oneboxBtMgmtPktRecv e msg) := by
  rw [oneboxBtMgmtPktRecv, oneboxMgmtPktToCore]
  split_ifs
  · exact leaves_freed (.left rfl)
  · exact leaves_toBluez rfl
  · exact leaves_freed (.left rfl)

theorem leaves_btReadPkt (msg : RxMsg) : Leaves (Deployed s e pkt) (s.btReadPkt e msg) := by
  have hprint : configs (printHciEventType msg).1 = 0 := by
    rw [printHciEventType]
    split_ifs <;> rfl
  rw [btReadPkt]
  split
  · by_cases hlen : msg.len = 0
    · rw [if_pos hlen]
      exact leaves_freed (.left rfl)
    · simp only [if_neg hlen]
      split_ifs
      · exact leaves_kept (.left hprint)
      · exact leaves_toBluez hprint
  · exact leaves_oneboxBtMgmtPktRecv msg
  · exact leaves_freed (.left rfl)

theorem leaves_btGplReadPkt (msg : RxMsg) : Leaves (Deployed s e pkt) (s.btGplReadPkt e msg) := by
  rw [btGplReadPkt]
  cases e.stillActive with
  | true => exact leaves_btReadPkt msg
  | false => exact leaves_freed (.left rfl)

theorem leaves_zigbGplReadPkt : Leaves (Deployed s e pkt) (s.zigbGplReadPkt e pkt) := by
  have hsend : configs (oneboxGenlsend e pkt.len) = 0 := by
    rw [oneboxGenlsend]
    split_ifs <;> rfl
  rw [zigbGplReadPkt]
  split_ifs
  · exact leaves_kept (.left hsend)
  · exact leaves_freed (.left rfl)

theorem leaves_deployPacketToAssets (s : Coex) (e : CoexEnv) (pkt : CoexPkt) :
    Leaves (Deployed s e pkt) (s.deployPacketToAssets e pkt) := by
  rw [deployPacketToAssets]
  split_ifs
  · exact leaves_freed (.left rfl)
  · cases hpkt : pkt.rxPktType with
    | coex => exact leaves_freed (.coex hpkt)
    | bt => exact leaves_deployTo (fun h => by simpa [CoexPkt.cardReadyOf, hpkt] using h) (leaves_btGplReadPkt _)
    | wlan =>
      refine leaves_deployTo (fun h => by simpa [CoexPkt.cardReadyOf, hpkt] using h) ?_
      rw [wlanGplReadPkt]
      split_ifs
      · exact leaves_handedOver (.left rfl)
      · exact leaves_freed (.left rfl)
    | zigb => exact leaves_deployTo (fun h => by simpa [CoexPkt.cardReadyOf, hpkt] using h) leaves_zigbGplReadPkt
    | other => exact leaves_kept (.left rfl)

end Coex

section Steps

variable {s t : BringUp} {a : BringUpAct} {p : Proto}

structure GateInv (s : BringUp) : Prop where
  fw : ∀ p, s.coex.fwActive p = true → s.ready p = true
  phase : (s.coex.commonHalFsm = .waitForCardReady ∧ configs s.effects = 0 ∧
      s.coex.assets.commonHalTxAccess = false) ∨
    (s.coex.commonHalFsm = .txAccess ∧ configs s.effects = 1 ∧
      ∀ p, s.coex.coexMode.requires p = true → s.ready p = true)

theorem GateInv.gate (h : GateInv s) : Gate s := by
  rcases h.phase with ⟨-, hzero, hclosed⟩ | ⟨-, hone, hready⟩
  · exact ⟨by omega, fun h1 => by omega, fun _ => hclosed⟩
  · exact ⟨by omega, fun _ => hready, fun h0 => by omega⟩

/-- A step is quiet, or it is the card ready that completes the mode. -/
def GateMove (s t : BringUp) : Prop :=
  configs t.effects = configs s.effects ∨ GateStep s t

theorem GateInv.quiet {es : List CoexEffect} (h : GateInv s) (hq : QuietPart s.coex t.coex es)
    (hes : t.effects = s.effects ++ es) (hready : ∀ p, s.ready p = true → t.ready p = true)
    (hclosed : s.coex.commonHalFsm = .waitForCardReady → t.coex.assets.commonHalTxAccess = false) :
    GateInv t ∧ GateMove s t := by
  have hcount : configs t.effects = configs s.effects := by
    rw [hes, configs_append, hq.configs, Nat.add_zero]
  refine ⟨⟨fun p hp => hready p (h.fw p (hq.fw ▸ hp)), ?_⟩, .inl hcount⟩
  rw [hq.fsm, hcount, hq.mode]
  rcases h.phase with ⟨hfsm, hzero, -⟩ | ⟨hfsm, hone, hall⟩
  · exact .inl ⟨hfsm, hzero, hclosed hfsm⟩
  · exact .inr ⟨hfsm, hone, fun p hp => hready p (hall p hp)⟩

theorem GateInv.cardReady {pkt : CoexPkt} {e : CoexEnv} (h : GateInv s) (hp : pkt.cardReadyOf p = true)
    (hcoex : t.coex = (s.coex.cardReady e p).1) (hes : t.effects = s.effects ++ (s.coex.cardReady e p).2)
    (hready : t.ready = fun q => s.ready q || pkt.cardReadyOf q) : GateInv t ∧ GateMove s t := by
  have hmarked : ∀ q, (s.coex.markReady p).fwActive q = true → t.ready q = true := by
    intro q hq
    rw [hready]
    by_cases hqp : q = p
    · simp [hqp, hp]
    · have hfw : s.coex.fwActive q = true := by
        simpa [Coex.markReady, Coex.fwActive, Coex.assets, Coex.mapAssets, hqp] using hq
      simp [h.fw q hfw]
  have hcount : configs t.effects = configs s.effects + configs (s.coex.cardReady e p).2 := by
    rw [hes, configs_append]
  rcases s.coex.cardReady_cases e p with hi | ⟨hfsm, hall, hsent⟩
  · rw [hi.quiet.configs, Nat.add_zero] at hcount
    rw [← hcoex] at hi
    refine ⟨⟨fun q hq => hmarked q (hi.quiet.fw ▸ hq), ?_⟩, .inl hcount⟩
    rw [hi.quiet.fsm, hcount, hi.quiet.mode, hi.access]
    refine h.phase.imp_right fun ⟨hfsm, hone, hreq⟩ => ⟨hfsm, hone, fun q hq => ?_⟩
    simp [hready, hreq q hq]
  · have hphase := h.phase.resolve_right fun hopen => hfsm hopen.1
    rw [hsent.configs, hphase.2.1, Nat.zero_add] at hcount
    rw [← hcoex] at hsent
    refine ⟨⟨fun q hq => hmarked q (hsent.fw ▸ hq), .inr ⟨hsent.fsm, hcount, fun q hq => ?_⟩⟩, .inr ?_⟩
    · exact hmarked q (Coex.allReady_requires (hall hphase.1) (hsent.mode ▸ hq))
    · refine ⟨hphase.2.1, hsent.access, fun q hq => ?_⟩
      have hg : (s.coex.markReady p).assets.grantable q = true := by
        rw [← hq]
        by_cases hqp : q = p <;>
          simp [Coex.markReady, Coex.assets, Coex.mapAssets, DriverAssets.grantable, DriverAssets.isActive, hqp]
      obtain ⟨hacc, hflag, hwake⟩ := hsent.granted q hg
      refine ⟨hacc, hflag, ?_⟩
      rw [hes, List.drop_left]
      exact hwake

theorem GateInv.others (h : GateInv s) (d : DriverAssets) (fsm : FsmState) (aboard : Bool) :
    GateInv { s with coex := s.coex.others d fsm aboard } := by
  refine ⟨fun p hp => h.fw p ?_, h.phase.imp_left fun ⟨hfsm, hzero, hclosed⟩ => ⟨hfsm, hzero, ?_⟩⟩
  · exact (Bool.and_eq_true_iff.mp hp).2
  · show (d.commonHalTxAccess && s.coex.assets.commonHalTxAccess) = false
    rw [hclosed, Bool.and_false]

theorem GateInv.step (h : GateInv s) (hok : sleepsInOrder s a = true) (hstep : s.step a = some t) :
    GateInv t ∧ GateMove s t := by
  cases a with
  | others d fsm aboard =>
    cases hstep
    exact ⟨h.others d fsm aboard, .inl rfl⟩
  | packet pkt e =>
    obtain ⟨c, es, status, hres, hes, hd⟩ := s.coex.leaves_deployPacketToAssets e pkt
    simp only [BringUp.step, hres, Option.map_some, Option.some.injEq, hes] at hstep
    subst hstep
    have hmono : ∀ q, s.ready q = true → (s.ready q || pkt.cardReadyOf q) = true := fun q hq => by simp [hq]
    cases hd with
    | left hnone =>
      refine h.quiet (Coex.quietPart_refl hnone) rfl hmono fun hwait => ?_
      rcases h.phase with hclosed | hopen
      · exact hclosed.2.2
      · simp [hopen.1] at hwait
    | coex hpkt =>
      refine h.quiet (Coex.quiet_process pkt.data) rfl hmono fun hwait => ?_
      have hno : s.coex.sleepOpens pkt = false := by simpa [sleepsInOrder, hwait] using hok
      rcases h.phase with hclosed | hopen
      · exact Coex.closed_process hclosed.2.2 hpkt hno
      · simp [hopen.1] at hwait
    | ready p hp => exact h.cardReady hp rfl rfl rfl

theorem GateInv.of_start (h : BringUpStart s) : GateInv s where
  fw p hp := by simp [h.inactive p] at hp
  phase := .inl ⟨h.fsm, by rw [h.effects]; rfl, h.closed⟩

end Steps

/-- In every run without a sleep message that comes too early, the gate holds in each state, and a
step that sends the frame opens the access and grants it to all that wait. -/
theorem bring_up_gate {s t : BringUp} {as : List BringUpAct} (hs : BringUpStart s)
    (hok : Meets BringUp.step sleepsInOrder s as) (hrun : run BringUp.step s as = some t) :
    Gate t ∧ ∀ a u, sleepsInOrder t a = true → t.step a = some u →
      configs u.effects = configs t.effects ∨ GateStep t u := by
  have hinv : GateInv t :=
    run_invariant (fun h hok hstep => (h.step hok hstep).1) (GateInv.of_start hs) hok hrun
  exact ⟨hinv.gate, fun a u ha hu => (hinv.step ha hu).2⟩

/-- A WLAN and ZigBee device before the first card ready. ZigBee waits for access. -/
def coldStart : BringUp :=
  { coex := { readyCoex with
      commonHalFsm := .waitForCardReady
      hal := { readyCoex.hal with assets := { readyCoex.assets with
        techs := fun p => { readyCoex.assets.techs p with fwActive := false, deregisterFlags := p = .zb }
        commonHalTxAccess := false } } },
    ready := fun _ => false, effects := [] }

theorem coldStart_start : BringUpStart coldStart := ⟨rfl, rfl, fun _ => rfl, rfl⟩

def wlanReady : BringUpAct := .packet ⟨.wlan, ⟨fun _ => 0⟩, 16⟩ coexEnv

def zigbReady : BringUpAct := .packet ⟨.zigb, ⟨fun _ => 0xff⟩, 16⟩ coexEnv

/-- A sleep exit: type 6 with bit 0 of byte 12 clear. -/
def sleepExitMsg : BringUpAct := .packet ⟨.coex, ⟨fun i => if i = 2 then 6 else 0⟩, 16⟩ coexEnv

theorem bring_up_gate_zigbee :
    ∃ t u, run BringUp.step coldStart [wlanReady] = some t ∧ t.step zigbReady = some u ∧ Gate t ∧
      GateStep t u := by
  obtain ⟨t, ht⟩ : ∃ t, run BringUp.step coldStart [wlanReady] = some t := ⟨_, rfl⟩
  have h := bring_up_gate coldStart_start (by decide) ht
  cases ht
  exact ⟨_, _, rfl, rfl, h.1, (h.2 zigbReady _ rfl rfl).resolve_left (by decide)⟩

/-- A sleep exit before any card ready opens the access. -/
theorem sleepExit_opens_early :
    ∃ t, run BringUp.step coldStart [sleepExitMsg] = some t ∧ configs t.effects = 0 ∧
      t.coex.assets.commonHalTxAccess = true ∧ ¬ Gate t := by
  refine ⟨_, rfl, rfl, rfl, fun h => ?_⟩
  cases h.closed rfl

end Onebox
