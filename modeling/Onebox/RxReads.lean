import Onebox.Unaggregated

/-! The positions of the received buffer that `process_lmac_aggregated_pkt` and
`process_unaggregated_pkt` read. Both read the frame descriptor at the offset that
the host descriptor says before they compare the offset with the length. -/

namespace Onebox

open Calls Scan

/-- A round behind the checks of the host descriptor, which copies the subframe. -/
def acceptReads (wifiModeOn : Bool) (m : RcvBuffer) (pktType : UInt8) (s : AggrState) (sl : Slot) (ext : Nat) :
    Calls Nat (Except AggrError AggrState) :=
  if sl.actualLength ≠ unitedLen sl.offset sl.length then pure (.error .lengthMismatch)
  else if ext > sl.length then pure (.error .extendedDescTooLong)
  else if sl.length > maxPktLength wifiModeOn then pure (.error .pktTooBig)
  else do
    let data ← block m (sl.index + sl.offset) (sl.length + frameDescSz)
    pure (.ok
      { index := (s.index + sl.actualLength) % 2 ^ 32
        pktLen := (s.pktLen + 2 ^ 32 - sl.actualLength) % 2 ^ 32
        extendedDesc := ext
        slots := s.slots ++ [sl]
        queue := s.queue ++ [{ rxPktType := pktType, data }] })

/-- `subframe` with its reads. -/
def subframeReads (wifiModeOn : Bool) (m : RcvBuffer) (pktType : UInt8) (s : AggrState) :
    Calls Nat (Except AggrError AggrState) := do
  let actualLength ← word m s.index
  let offset ← word m (s.index + 2)
  match hostDescError actualLength offset s.pktLen with
  | some e => pure (.error e)
  | none =>
    let desc ← word m (s.index + offset)
    let sl : Slot := { index := s.index, actualLength, offset, length := desc &&& 0x0fff }
    let ext ← readExtendedDesc m pktType sl s.extendedDesc
    -- `queueno`, from the same word
    let _ ← word m (s.index + offset)
    acceptReads wifiModeOn m pktType s sl ext

def aggrLoopReads (wifiModeOn : Bool) (m : RcvBuffer) (pktType : UInt8) :
    Nat → AggrState → Calls Nat AggrResult
  | 0, _ => stuck
  | fuel + 1, s => do
    match ← subframeReads wifiModeOn m pktType s with
    | .error e => pure { status := .error e, slots := s.slots, queue := s.queue }
    | .ok s =>
      if s.pktLen > 0 then aggrLoopReads wifiModeOn m pktType fuel s
      else pure { status := .ok (), slots := s.slots, queue := s.queue }

/-- `processLmacAggregatedPkt` with its reads. Every round but the last consumes a subframe. -/
def lmacReads (wifiModeOn : Bool) (m : RcvBuffer) (pktLen : Nat) (pktType : UInt8) : Calls Nat AggrResult :=
  aggrLoopReads wifiModeOn m pktType pktLen
    { index := 0, pktLen, extendedDesc := 0, slots := [], queue := [] }

def aggrRounds (wifiModeOn : Bool) (m : RcvBuffer) (pktType : UInt8) : Nat → AggrState → List AggrState
  | 0, _ => []
  | fuel + 1, s =>
    s :: match subframe wifiModeOn m pktType s with
      | .error _ => []
      | .ok s => if s.pktLen > 0 then aggrRounds wifiModeOn m pktType fuel s else []

def lmacRounds (wifiModeOn : Bool) (m : RcvBuffer) (pktLen : Nat) (pktType : UInt8) : List AggrState :=
  aggrRounds wifiModeOn m pktType pktLen { index := 0, pktLen, extendedDesc := 0, slots := [], queue := [] }

/-- The last byte of the frame descriptor that the checks read. -/
def Slot.descEnd (sl : Slot) (pktType : UInt8) : Nat :=
  sl.index + sl.offset + if pktType = wlanPkt then 4 else 1

/-- If the host descriptor passes its checks, the offset in it is within the transfer. -/
def Slot.DescWithin (sl : Slot) (pktType : UInt8) (pktLen total : Nat) : Prop :=
  hostDescError sl.actualLength sl.offset pktLen = none → sl.descEnd pktType < total

def acceptSubframe (wifiModeOn : Bool) (m : RcvBuffer) (pktType : UInt8) (s : AggrState) (sl : Slot) (ext : Nat) :
    Except AggrError AggrState :=
  if sl.actualLength ≠ unitedLen sl.offset sl.length then .error .lengthMismatch
  else if ext > sl.length then .error .extendedDescTooLong
  else if sl.length > maxPktLength wifiModeOn then .error .pktTooBig
  else .ok
    { index := (s.index + sl.actualLength) % 2 ^ 32
      pktLen := (s.pktLen + 2 ^ 32 - sl.actualLength) % 2 ^ 32
      extendedDesc := ext
      slots := s.slots ++ [sl]
      queue := s.queue ++ [sl.payload m pktType] }

instance (sl : Slot) (pktType : UInt8) (pktLen total : Nat) : Decidable (sl.DescWithin pktType pktLen total) :=
  inferInstanceAs (Decidable (_ → _))

section Rounds

variable {wifiModeOn : Bool} {m : RcvBuffer} {pktType : UInt8} {total : Nat} {s s' : AggrState}

theorem Slot.descEnd_lt {sl : Slot} :
    sl.descEnd pktType < total ↔
      sl.index + sl.offset + 1 < total ∧ (pktType = wlanPkt → sl.index + sl.offset + 4 < total) := by
  rw [descEnd]
  by_cases hw : pktType = wlanPkt
  · rw [if_pos hw]
    exact ⟨fun h => ⟨by omega, fun _ => h⟩, fun h => h.2 hw⟩
  · rw [if_neg hw]
    exact ⟨fun h => ⟨h, fun hw' => absurd hw' hw⟩, fun h => h.1⟩

theorem within_readExtendedDesc_bind {sl : Slot} {old : Nat} {α : Type} {f : Nat → Calls Nat α} :
    Within total (readExtendedDesc m pktType sl old >>= f) ↔
      (pktType = wlanPkt → sl.index + sl.offset + 4 < total) ∧
        Within total (f (extendedDesc m pktType sl old)) := by
  rw [within_bind result_readExtendedDesc, readExtendedDesc]
  refine and_congr_left' ?_
  by_cases hw : pktType = wlanPkt
  · rw [if_pos hw, within_cell_bind]
    simp [hw]
  · rw [if_neg hw]
    simp [hw]

theorem subframe_eq :
    subframe wifiModeOn m pktType s =
      match hostDescError (Slot.read m s.index).actualLength (Slot.read m s.index).offset s.pktLen with
      | some e => .error e
      | none =>
        acceptSubframe wifiModeOn m pktType s (Slot.read m s.index)
          (extendedDesc m pktType (Slot.read m s.index) s.extendedDesc) := by
  rw [subframe, hostDescError]
  by_cases hshort : (Slot.read m s.index).actualLength < 4 + frameDescSz ∨ (Slot.read m s.index).offset < 4
  · rw [if_pos hshort, if_pos hshort]
  · rw [if_neg hshort, if_neg hshort]
    by_cases hcorrupt : ¬ ((Slot.read m s.index).actualLength = s.pktLen ∨
        (Slot.read m s.index).actualLength + 4 + frameDescSz ≤ s.pktLen)
    · rw [if_pos hcorrupt, if_pos hcorrupt]
    · rw [if_neg hcorrupt, if_neg hcorrupt]
      rfl

theorem result_acceptReads {sl : Slot} {ext : Nat} :
    (acceptReads wifiModeOn m pktType s sl ext).result =
      some (acceptSubframe wifiModeOn m pktType s sl ext) := by
  rw [acceptReads, acceptSubframe]
  split_ifs
  · rfl
  · rfl
  · rfl
  · rw [result_block_bind]
    rfl

/-- The length compared with the subframe's bounds the copy. -/
theorem within_acceptReads (wifiModeOn : Bool) (m : RcvBuffer) (pktType : UInt8) (s : AggrState) {sl : Slot}
    (ext : Nat) (hoff : sl.offset < 2 ^ 16) (hlen : sl.length < 2 ^ 12)
    (hend : sl.index + sl.actualLength ≤ total) :
    Within total (acceptReads wifiModeOn m pktType s sl ext) := by
  rw [acceptReads]
  split_ifs with hunited hext hbig
  · exact within_pure
  · exact within_pure
  · exact within_pure
  · have hround := le_unitedLen hoff hlen
    rw [within_block_bind]
    exact ⟨fun _ => by omega, within_pure⟩

theorem result_subframeReads :
    (subframeReads wifiModeOn m pktType s).result = some (subframe wifiModeOn m pktType s) := by
  have hread : Slot.read m s.index =
      ⟨s.index, le16 m s.index, le16 m (s.index + 2), le16 m (s.index + le16 m (s.index + 2)) &&& 0x0fff⟩ := rfl
  rw [subframe_eq, hread, subframeReads, result_word_bind, result_word_bind]
  cases hostDescError (le16 m s.index) (le16 m (s.index + 2)) s.pktLen with
  | some e => rfl
  | none =>
    dsimp only
    rw [result_word_bind, bind_of_result result_readExtendedDesc]
    dsimp only
    rw [result_word_bind, result_acceptReads]

theorem result_aggrLoopReads (fuel : Nat) (s : AggrState) :
    (aggrLoopReads wifiModeOn m pktType fuel s).result = aggrLoop wifiModeOn m pktType fuel s := by
  induction fuel generalizing s with
  | zero => rfl
  | succ fuel ih =>
    rw [aggrLoopReads, aggrLoop, bind_of_result result_subframeReads]
    cases subframe wifiModeOn m pktType s with
    | error e => rfl
    | ok s' =>
      by_cases hmore : s'.pktLen > 0
      · simp only [hmore, if_true]
        exact ih s'
      · simp only [hmore, if_false]
        rfl

/-- A subframe that is accepted leaves nothing, or room for the descriptors of another one. -/
theorem subframe_ok_left (hs : subframe wifiModeOn m pktType s = .ok s') (hleft : s.index + s.pktLen = total)
    (htotal : total < 2 ^ 32) :
    s'.index + s'.pktLen = total ∧ (s'.pktLen = 0 ∨ 20 ≤ s'.pktLen) := by
  rw [subframe_eq] at hs
  cases hhost : hostDescError (Slot.read m s.index).actualLength (Slot.read m s.index).offset s.pktLen with
  | some e =>
    rw [hhost] at hs
    cases hs
  | none =>
    rw [hhost] at hs
    obtain ⟨-, -, hfits⟩ := hostDescError_eq_none.mp hhost
    dsimp only at hs
    rw [acceptSubframe] at hs
    split_ifs at hs
    cases hs
    dsimp only
    omega

theorem within_subframeReads (hleft : s.index + s.pktLen = total) (hroom : 20 ≤ s.pktLen) :
    Within total (subframeReads wifiModeOn m pktType s) ↔
      (Slot.read m s.index).DescWithin pktType s.pktLen total := by
  have hread : Slot.read m s.index =
      ⟨s.index, le16 m s.index, le16 m (s.index + 2), le16 m (s.index + le16 m (s.index + 2)) &&& 0x0fff⟩ := rfl
  obtain ⟨hoff, hlen⟩ := Slot.read_bounds m s.index
  rw [hread] at hoff hlen
  rw [hread, subframeReads, Slot.DescWithin, within_word_bind, within_word_bind]
  cases hhost : hostDescError (le16 m s.index) (le16 m (s.index + 2)) s.pktLen with
  | some e =>
    refine iff_of_true ⟨by omega, by omega, within_pure⟩ fun h => by cases h
  | none =>
    obtain ⟨-, -, hfits⟩ := hostDescError_eq_none.mp hhost
    have hend : s.index + le16 m s.index ≤ total := by omega
    have haccept := within_acceptReads wifiModeOn m pktType s
      (extendedDesc m pktType (Slot.read m s.index) s.extendedDesc) hoff hlen hend
    rw [hread] at haccept
    rw [within_word_bind, within_readExtendedDesc_bind, within_word_bind, Slot.descEnd_lt]
    dsimp only
    constructor
    · rintro ⟨-, -, hdesc, hext, -⟩ -
      exact ⟨hdesc, hext⟩
    · intro h
      obtain ⟨hdesc, hext⟩ := h rfl
      exact ⟨by omega, by omega, hdesc, hext, hdesc, haccept⟩

theorem within_aggrLoopReads (htotal : total < 2 ^ 32) (fuel : Nat) (hleft : s.index + s.pktLen = total)
    (hroom : 20 ≤ s.pktLen) :
    Within total (aggrLoopReads wifiModeOn m pktType fuel s) ↔
      ∀ t ∈ aggrRounds wifiModeOn m pktType fuel s, (Slot.read m t.index).DescWithin pktType t.pktLen total := by
  induction fuel generalizing s with
  | zero => exact iff_of_true (List.forall_mem_nil _) (List.forall_mem_nil _)
  | succ fuel ih =>
    rw [aggrLoopReads, aggrRounds, within_bind result_subframeReads, List.forall_mem_cons,
      within_subframeReads hleft hroom]
    refine and_congr_right' ?_
    cases hs : subframe wifiModeOn m pktType s with
    | error e => exact iff_of_true within_pure (List.forall_mem_nil _)
    | ok s' =>
      obtain ⟨hleft', hroom'⟩ := subframe_ok_left hs hleft htotal
      by_cases hmore : s'.pktLen > 0
      · simp only [hmore, if_true]
        exact ih hleft' (by omega)
      · simp only [hmore, if_false]
        exact iff_of_true within_pure (List.forall_mem_nil _)

/-- On SDIO the data of the frame are not looked at. -/
theorem within_deployFrame {mode : RxMode} {len ext : Nat} {sl : Slot} :
    Within total (deployFrame .sdio mode m len pktType sl ext) := by
  rw [deployFrame]
  cases unaggrError .sdio mode sl ext with
  | some e => exact within_pure
  | none => exact within_pure

theorem within_unaggregated (mode : RxMode) (hroom : 20 ≤ total) :
    Within total (processUnaggregatedPkt .sdio mode m total pktType) ↔
      (Slot.read m 0).DescWithin pktType total total := by
  rw [Slot.read_zero, processUnaggregatedPkt, Slot.DescWithin, within_word_bind, within_word_bind]
  cases hhost : hostDescError (le16 m 0) (le16 m 2) total with
  | some e => exact iff_of_true ⟨by omega, by omega, within_pure⟩ fun h => by cases h
  | none =>
    dsimp only
    rw [within_word_bind, within_readExtendedDesc_bind, Slot.descEnd_lt]
    simp only [Nat.zero_add, true_imp_iff]
    constructor
    · rintro ⟨-, -, hdesc, hext, -⟩
      exact ⟨hdesc, hext⟩
    · rintro ⟨hdesc, hext⟩
      exact ⟨by omega, by omega, hdesc, hext, within_deployFrame⟩

theorem isSome_unaggregated (mode : RxMode) :
    (processUnaggregatedPkt .sdio mode m total pktType).result.isSome := by
  rw [result_processUnaggregatedPkt]
  split
  · rfl
  · rfl
  · rfl

/-- On a transfer of `n` blocks both functions read received bytes only if and only if every host descriptor
that they come to and find correct has its frame descriptor within the transfer. -/
theorem rx_reads_within_iff (wifiModeOn : Bool) (mode : RxMode) (m : RcvBuffer) (pktType : UInt8) {n : Nat}
    (hpos : 1 ≤ n) (hmax : n ≤ 31) :
    ((lmacReads wifiModeOn m (256 * n) pktType).result.isSome ∧
      (Within (256 * n) (lmacReads wifiModeOn m (256 * n) pktType) ↔
        ∀ s ∈ lmacRounds wifiModeOn m (256 * n) pktType,
          (Slot.read m s.index).DescWithin pktType s.pktLen (256 * n))) ∧
    (processUnaggregatedPkt .sdio mode m (256 * n) pktType).result.isSome ∧
      (Within (256 * n) (processUnaggregatedPkt .sdio mode m (256 * n) pktType) ↔
        (Slot.read m 0).DescWithin pktType (256 * n) (256 * n)) := by
  have hinit : AggrInv m pktType (256 * n)
      { index := 0, pktLen := 256 * n, extendedDesc := 0, slots := [], queue := [] } :=
    ⟨by simp, rfl, fun _ h => (by cases h), rfl⟩
  obtain ⟨r, hr, -⟩ := @aggrLoop_spec wifiModeOn _ _ _ _ (by omega) hinit (by simp; omega)
  refine ⟨⟨?_, ?_⟩, isSome_unaggregated mode, within_unaggregated mode (by omega)⟩
  · rw [lmacReads, result_aggrLoopReads, hr _ le_rfl]
    rfl
  · exact within_aggrLoopReads (by omega) (256 * n) (Nat.zero_add _) (by dsimp only; omega)

/-- The host descriptor of a single block, with its frame descriptor at `offset`. -/
def blockWith (offset : UInt16) : RcvBuffer := fun a =>
  if a = 1 then 1 else if a = 2 then offset.toUInt8 else if a = 3 then (offset >>> 8).toUInt8 else 0

/-- The frame descriptor is 65535 bytes behind the beginning of a transfer of 256 bytes. It is read by both
functions before the packet is refused. -/
theorem farDescriptor_read :
    65535 ∈ (lmacReads true (blockWith 65535) (256 * 1) wlanPkt).log ∧
      65535 ∈ (processUnaggregatedPkt .sdio ⟨false, true⟩ (blockWith 65535) (256 * 1) wlanPkt).log ∧
      ¬ Within (256 * 1) (lmacReads true (blockWith 65535) (256 * 1) wlanPkt) ∧
      ¬ Within (256 * 1) (processUnaggregatedPkt .sdio ⟨false, true⟩ (blockWith 65535) (256 * 1) wlanPkt) := by
  decide +kernel

theorem rx_reads_within_iff_near :
    Within (256 * 1) (lmacReads true (blockWith 4) (256 * 1) wlanPkt) ∧
      Within (256 * 1) (processUnaggregatedPkt .sdio ⟨false, true⟩ (blockWith 4) (256 * 1) wlanPkt) := by
  obtain ⟨⟨-, haggr⟩, -, hsingle⟩ :=
    rx_reads_within_iff true ⟨false, true⟩ (blockWith 4) wlanPkt (n := 1) le_rfl (by decide)
  refine ⟨haggr.mpr ?_, hsingle.mpr ?_⟩
  · decide +kernel
  · decide +kernel

end Rounds

end Onebox
