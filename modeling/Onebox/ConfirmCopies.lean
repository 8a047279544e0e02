import Onebox.MgmtOwnership

/-! The copies that the confirms of the device make into the adapter. The loop-back data of one confirm goes
behind those of the confirms before it, at an offset that only an ioctl takes back to zero. -/

namespace Onebox

open PktCall

/-- A copy is inside `bb_rf_read.Data`, `rf_lpbk_data` or `eeprom.data`. -/
def MgmtEffect.fits : MgmtEffect → Bool
  | .copy .bbRfRead offset len => offset + len ≤ 1024
  | .copy .rfLpbkData offset len => offset + len ≤ 4096
  | .copy .eepromData offset len => offset + len ≤ 480
  | _ => true

namespace RxMsg

variable (msg : RxMsg)

def readsRegisters : Bool :=
  msg.subType = .bbProgValuesRequest || msg.subType = .rfProgValuesRequest ||
    msg.subType = .bbBufProgValuesReq || msg.subType = .lmacRegOps

/-- What a confirm adds to the loop-back data. -/
def loopLen : Nat := if msg.subType = .rfLoopbackReq ∨ msg.subType = .rfLpbkM3 then msg.len else 0

/-- The length is one that the destination without an offset has room for. -/
structure LenFits : Prop where
  registers : msg.readsRegisters = true → msg.len ≤ 1024
  eeprom : msg.subType = .eepromReadType → msg.len ≤ 480

theorem loopLen_lt : msg.loopLen < 2 ^ 16 := by
  have hlen : msg.len < 2 ^ 16 := (msg.word 0 &&& 0x0fff).isLt
  rw [loopLen]
  split_ifs
  · exact hlen
  · decide

end RxMsg

namespace Mgmt

/-- Messages one after the other, each with what the functions called give back. -/
def recvAll : Mgmt → List (MgmtEnv × RxMsg) → Calls (PktCall MgmtEffect NetInput) Mgmt
  | s, [] => pure s
  | s, (e, msg) :: rest => do
    let r ← s.oneboxMgmtPktRecv e msg
    recvAll r.1 rest

section Confirms

variable {s : Mgmt} {e : MgmtEnv} {msg : RxMsg}

/-- What a confirm does to the adapter, as far as the copies are concerned. -/
structure Confirmed (s : Mgmt) (msg : RxMsg) (t : Mgmt) (es : List MgmtEffect) : Prop where
  fsm : t.fsm = s.fsm
  offset : t.rfLpbkLen = s.rfLpbkLen + BitVec.ofNat 16 msg.loopLen
  copies : (∀ a ∈ es, a.fits = true) ↔
    msg.LenFits ∧ (msg.loopLen = 0 ∨ s.rfLpbkLen.toNat + msg.loopLen ≤ 4096)

theorem lenFits_iff :
    msg.LenFits ↔
      (msg.readsRegisters = true → msg.len ≤ 1024) ∧ (msg.subType = .eepromReadType → msg.len ≤ 480) :=
  ⟨fun h => ⟨h.registers, h.eeprom⟩, fun h => ⟨h.1, h.2⟩⟩

theorem confirmed_registers (hreg : msg.readsRegisters = true) (hloop : msg.loopLen = 0)
    (hsub : msg.subType ≠ .eepromReadType) (es : List MgmtEffect) (hes : ∀ a ∈ es, a.fits = true) :
    Confirmed s msg (if 0 < msg.len then s.readValues msg else (s, es)).1
      (if 0 < msg.len then s.readValues msg else (s, es)).2 := by
  by_cases hlen : 0 < msg.len
  · rw [if_pos hlen]
    refine ⟨rfl, by simp [readValues, hloop], ?_⟩
    simp [readValues, lenFits_iff, hreg, hloop, hsub, MgmtEffect.fits]
  · rw [if_neg hlen]
    refine ⟨rfl, by simp [hloop], iff_of_true hes ?_⟩
    exact ⟨⟨fun _ => by omega, fun h => absurd h hsub⟩, .inl hloop⟩

theorem confirmed_loopback (size : Nat) (hreg : msg.readsRegisters = false) (hloop : msg.loopLen = msg.len)
    (hsub : msg.subType ≠ .eepromReadType) :
    Confirmed s msg (s.loopback msg size).1 (s.loopback msg size).2 := by
  have hlens : msg.LenFits := by
    refine ⟨fun h => ?_, fun h => absurd h hsub⟩
    rw [hreg] at h
    cases h
  rw [loopback]
  by_cases hlen : 0 < msg.len
  · rw [if_pos hlen]
    refine ⟨rfl, by rw [hloop], ?_⟩
    have hne : msg.loopLen ≠ 0 := by omega
    have hevent : ∀ a ∈ (if size ≤ (s.rfLpbkLen + BitVec.ofNat 16 msg.len).toNat then
        [MgmtEffect.setEvent .bbRf] else []), a.fits = true := by
      split_ifs <;> simp [MgmtEffect.fits]
    rw [List.forall_mem_cons, and_iff_left hevent, and_iff_right hlens, or_iff_right hne, hloop]
    exact decide_eq_true_iff
  · rw [if_neg hlen]
    have hzero : msg.loopLen = 0 := by omega
    exact ⟨rfl, by simp [hzero], iff_of_true (List.forall_mem_nil _) ⟨hlens, .inl hzero⟩⟩

/-- A confirm that copies nothing into the three buffers. -/
theorem confirmed_other {t : Mgmt} {es : List MgmtEffect} (hfsm : t.fsm = s.fsm)
    (hoffset : t.rfLpbkLen = s.rfLpbkLen) (hes : ∀ a ∈ es, a.fits = true)
    (hsub : msg.subType ∉ [.bbProgValuesRequest, .rfProgValuesRequest, .bbBufProgValuesReq, .lmacRegOps,
      .rfLoopbackReq, .rfLpbkM3, .eepromReadType]) : Confirmed s msg t es := by
  simp only [List.mem_cons, List.not_mem_nil, or_false, not_or] at hsub
  obtain ⟨hbb, hrf, hbuf, hlmac, hloopback, hm3, heeprom⟩ := hsub
  have hreg : msg.readsRegisters = false := by simp [RxMsg.readsRegisters, hbb, hrf, hbuf, hlmac]
  have hloop : msg.loopLen = 0 := by simp [RxMsg.loopLen, hloopback, hm3]
  have hlens : msg.LenFits := by
    refine ⟨fun h => ?_, fun h => absurd h heeprom⟩
    rw [hreg] at h
    cases h
  exact ⟨hfsm, by simp [hoffset, hloop], iff_of_true hes ⟨hlens, .inl hloop⟩⟩

theorem foldl_endPassive_rfLpbkLen (vs : List VapId) (s : Mgmt) :
    (vs.foldl endPassive s).fsm = s.fsm ∧ (vs.foldl endPassive s).rfLpbkLen = s.rfLpbkLen := by
  induction vs generalizing s with
  | nil => exact ⟨rfl, rfl⟩
  | cons v vs ih => exact ih (s.endPassive v)

theorem confirmed_taConfirm :
    Confirmed s msg (s.taConfirm msg msg.subType).1 (s.taConfirm msg msg.subType).2 := by
  cases hsub : msg.subType with
  | bbProgValuesRequest | rfProgValuesRequest | lmacRegOps =>
    exact confirmed_registers (by simp [RxMsg.readsRegisters, hsub]) (by simp [RxMsg.loopLen, hsub])
      (by simp [hsub]) [] (List.forall_mem_nil _)
  | bbBufProgValuesReq =>
    have hreg : msg.readsRegisters = true := by simp [RxMsg.readsRegisters, hsub]
    have hloop : msg.loopLen = 0 := by simp [RxMsg.loopLen, hsub]
    have hne : msg.subType ≠ .eepromReadType := by simp [hsub]
    rw [taConfirm]
    by_cases hvalue : s.bbRfValue = 7
    · rw [if_pos hvalue]
      exact confirmed_registers hreg hloop hne _ (by simp [MgmtEffect.fits])
    · rw [if_neg hvalue]
      exact confirmed_registers hreg hloop hne _ (List.forall_mem_nil _)
  | rfLoopbackReq | rfLpbkM3 =>
    exact confirmed_loopback _ (by simp [RxMsg.readsRegisters, hsub]) (by simp [RxMsg.loopLen, hsub])
      (by simp [hsub])
  | eepromReadType =>
    rw [taConfirm]
    refine ⟨rfl, by simp [RxMsg.loopLen, hsub], ?_⟩
    by_cases hlen : 0 < msg.len
    · simp [hlen, hsub, lenFits_iff, RxMsg.readsRegisters, RxMsg.loopLen, MgmtEffect.fits]
    · have hnone : msg.len = 0 := Nat.eq_zero_of_not_pos hlen
      simp [hnone, hsub, lenFits_iff, RxMsg.readsRegisters, RxMsg.loopLen, MgmtEffect.fits]
  | scanRequest =>
    obtain ⟨hfsm, hoffset⟩ := foldl_endPassive_rfLpbkLen (s.staVaps.filter fun v => (s.vap v).passive) s
    exact confirmed_other hfsm hoffset (List.forall_mem_map.mpr fun _ _ => rfl) (by simp [hsub])
  | bgScanProbeReq =>
    exact confirmed_other rfl rfl (List.forall_mem_map.mpr fun _ _ => rfl) (by simp [hsub])
  | _ =>
    exact confirmed_other rfl rfl (by simp [taConfirm, MgmtEffect.fits]) (by simp [hsub])

theorem leaves_wakeupSleepConfirm : Leaves (fun t es => t = s ∧ ∀ a ∈ es, a.fits = true)
    (s.wakeupSleepConfirm msg) := by
  rw [wakeupSleepConfirm]
  cases s.staVaps.head? with
  | none => split_ifs <;> exact leaves_freed ⟨rfl, List.forall_mem_nil _⟩
  | some v =>
    dsimp only
    split_ifs
    · exact leaves_freed ⟨rfl, List.forall_mem_nil _⟩
    · exact leaves_freed ⟨rfl, by simp [MgmtEffect.fits]⟩
    · exact leaves_freed ⟨rfl, by simp [MgmtEffect.fits]⟩
    · exact leaves_kept ⟨rfl, List.forall_mem_nil _⟩

theorem leaves_confirm (hfsm : s.fsm = .macInitDone) (htype : msg.type = .taConfirmType) :
    Leaves (Confirmed s msg) (s.oneboxMgmtPktRecv e msg) := by
  rw [oneboxMgmtPktRecv, hfsm]
  dsimp only
  rw [macInitDone, htype]
  dsimp only
  by_cases hsub : msg.subType = .wakeupSleepRequest
  · rw [if_pos hsub]
    obtain ⟨c, es, status, hres, hes, rfl, hfits⟩ := @leaves_wakeupSleepConfirm s msg
    refine ⟨c, es, status, hres, hes, ?_⟩
    exact confirmed_other rfl rfl hfits (by simp [hsub])
  · rw [if_neg hsub]
    exact leaves_freed confirmed_taConfirm

end Confirms

/-- The copies of a sequence of confirms are all inside their buffers just when no single length is too large
and the loop-back data of all confirms fit behind those that are there. -/
theorem copies_fit_iff {s : Mgmt} {msgs : List (MgmtEnv × RxMsg)} (hfsm : s.fsm = .macInitDone)
    (hconf : ∀ m ∈ msgs, m.2.type = .taConfirmType) :
    EffectsMeet MgmtEffect.fits (s.recvAll msgs) ↔
      (∀ m ∈ msgs, m.2.LenFits) ∧
        ((msgs.map fun m => m.2.loopLen).sum = 0 ∨
          s.rfLpbkLen.toNat + (msgs.map fun m => m.2.loopLen).sum ≤ 4096) := by
  induction msgs generalizing s with
  | nil => simp [recvAll, EffectsMeet, effectsOf, pure]
  | cons m msgs ih =>
    obtain ⟨e, msg⟩ := m
    have htype : msg.type = .taConfirmType := hconf (e, msg) List.mem_cons_self
    have hlen : msg.loopLen < 2 ^ 16 := msg.loopLen_lt
    obtain ⟨t, es, status, hdone, hmeet⟩ :=
      (leaves_confirm (e := e) hfsm htype).effectsMeet_bind (p := MgmtEffect.fits) fun r => recvAll r.1 msgs
    have hrest := ih (s := t) (hdone.fsm.trans hfsm) fun m hm => hconf m (List.mem_cons_of_mem _ hm)
    have hoffset : t.rfLpbkLen.toNat = (s.rfLpbkLen.toNat + msg.loopLen) % 2 ^ 16 := by
      rw [hdone.offset, BitVec.toNat_add, BitVec.toNat_ofNat]
      omega
    have hsum : ∀ total, (msg.loopLen = 0 ∨ s.rfLpbkLen.toNat + msg.loopLen ≤ 4096) ∧
        (total = 0 ∨ (s.rfLpbkLen.toNat + msg.loopLen) % 2 ^ 16 + total ≤ 4096) ↔
        msg.loopLen + total = 0 ∨ s.rfLpbkLen.toNat + (msg.loopLen + total) ≤ 4096 := by
      intro total
      have hoff := s.rfLpbkLen.isLt
      omega
    rw [recvAll, hmeet, hdone.copies, hrest, hoffset, List.forall_mem_cons, List.map_cons, List.sum_cons,
      ← hsum, and_and_and_comm]

/-- A confirm of `len` bytes for the command of type `sub`. -/
def confirmOf (sub len : Nat) : RxMsg :=
  ⟨fun i => if i = 0 then BitVec.ofNat 8 len else if i = 1 then BitVec.ofNat 8 (len / 256)
    else if i = 2 then 1 else if i = 15 then BitVec.ofNat 8 sub else 0⟩

/-- Register values of 1025 bytes, one more than there is room for, and loop-back data that two confirms of
2049 bytes take past the end. -/
theorem confirms_outside :
    .effect (.copy .bbRfRead 0 1025) ∈ (idleMgmt.recvAll [(mgmtEnv, confirmOf 3 1025)]).log ∧
      ¬ EffectsMeet MgmtEffect.fits (idleMgmt.recvAll [(mgmtEnv, confirmOf 3 1025)]) ∧
      .effect (.copy .rfLpbkData 2049 2049) ∈
        (idleMgmt.recvAll [(mgmtEnv, confirmOf 28 2049), (mgmtEnv, confirmOf 28 2049)]).log ∧
      ¬ EffectsMeet MgmtEffect.fits
        (idleMgmt.recvAll [(mgmtEnv, confirmOf 28 2049), (mgmtEnv, confirmOf 28 2049)]) := by
  refine ⟨by decide, fun h => ?_, by decide, fun h => ?_⟩
  · exact absurd (h (.copy .bbRfRead 0 1025) (by decide)) (by decide)
  · exact absurd (h (.copy .rfLpbkData 2049 2049) (by decide)) (by decide)

theorem confirms_inside :
    EffectsMeet MgmtEffect.fits
      (idleMgmt.recvAll
        [(mgmtEnv, confirmOf 28 2048), (mgmtEnv, confirmOf 3 1024), (mgmtEnv, confirmOf 28 2048)]) := by
  refine (copies_fit_iff rfl (by decide)).mpr ⟨?_, .inr (by decide)⟩
  have hloop : (confirmOf 28 2048).LenFits := ⟨fun h => absurd h (by decide), fun h => absurd h (by decide)⟩
  have hread : (confirmOf 3 1024).LenFits := ⟨fun _ => by decide, fun h => absurd h (by decide)⟩
  rw [List.forall_mem_cons, List.forall_mem_cons, List.forall_mem_singleton]
  exact ⟨hloop, hread, hloop⟩

end Mgmt

end Onebox
