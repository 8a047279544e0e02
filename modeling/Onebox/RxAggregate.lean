import Onebox.Tiling

/-! Receive de-aggregation on SDIO: the device hands over a transfer of whole
256-byte blocks, and `process_lmac_aggregated_pkt` cuts it into subframes by
lengths and offsets that it reads from the transfer itself. -/

namespace Onebox

open Tiling

/-- `DataRcvPacket`. What lies beyond the transfer is arbitrary. -/
abbrev RcvBuffer := Nat → UInt8

def RcvBuffer.u16 (m : RcvBuffer) (a : Nat) : Nat := (m a).toNat + 256 * (m (a + 1)).toNat

def RcvBuffer.bytes (m : RcvBuffer) (a n : Nat) : List UInt8 := (List.range n).map fun k => m (a + k)

def frameDescSz : Nat := 16

def wlanPkt : UInt8 := 3

def commonPktLength : Nat := 2304

def maxSnifferModePktLen : Nat := 4096

structure RxPkt where
  rxPktType : UInt8
  data : List UInt8
  deriving DecidableEq

structure Slot where
  index : Nat
  actualLength : Nat
  offset : Nat
  length : Nat
  deriving DecidableEq

inductive AggrError
  | descTooShort | lengthCorrupted | lengthMismatch | extendedDescTooLong | pktTooBig
  deriving DecidableEq

/-- The variables of the loop, with the subframes consumed so far and the
packets appended to `deferred_rx_queue`. -/
structure AggrState where
  index : Nat
  pktLen : Nat
  extendedDesc : Nat
  slots : List Slot
  queue : List RxPkt

structure AggrResult where
  status : Except AggrError Unit
  slots : List Slot
  queue : List RxPkt

def unitedLen (offset length : Nat) : Nat := (offset + length + frameDescSz + 255) &&& 0xffffff00

def Slot.payload (m : RcvBuffer) (pktType : UInt8) (sl : Slot) : RxPkt :=
  { rxPktType := pktType, data := m.bytes (sl.index + sl.offset) (sl.length + frameDescSz) }

def Slot.read (m : RcvBuffer) (index : Nat) : Slot :=
  let offset := m.u16 (index + 2)
  { index, actualLength := m.u16 index, offset, length := m.u16 (index + offset) &&& 0x0fff }

def extendedDesc (m : RcvBuffer) (pktType : UInt8) (sl : Slot) (old : Nat) : Nat :=
  -- `extended_desc` keeps the value of the subframe before, unless these are WLAN packets
  if pktType = wlanPkt then (m (sl.index + sl.offset + 4)).toNat else old

def maxPktLength (wifiModeOn : Bool) : Nat :=
  if wifiModeOn then commonPktLength else maxSnifferModePktLen

def subframe (wifiModeOn : Bool) (m : RcvBuffer) (pktType : UInt8) (s : AggrState) :
    Except AggrError AggrState :=
  let sl := Slot.read m s.index
  let ext := extendedDesc m pktType sl s.extendedDesc
  if sl.actualLength < 4 + frameDescSz ∨ sl.offset < 4 then .error .descTooShort
  else if ¬ (sl.actualLength = s.pktLen ∨ sl.actualLength + 4 + frameDescSz ≤ s.pktLen) then
    .error .lengthCorrupted
  else if sl.actualLength ≠ unitedLen sl.offset sl.length then .error .lengthMismatch
  else if ext > sl.length then .error .extendedDescTooLong
  else if sl.length > maxPktLength wifiModeOn then .error .pktTooBig
  else
    .ok { index := (s.index + sl.actualLength) % 2 ^ 32
          pktLen := (s.pktLen + 2 ^ 32 - sl.actualLength) % 2 ^ 32
          extendedDesc := ext
          slots := s.slots ++ [sl]
          queue := s.queue ++ [sl.payload m pktType] }

def aggrLoop (wifiModeOn : Bool) (m : RcvBuffer) (pktType : UInt8) : Nat → AggrState → Option AggrResult
  | 0, _ => none
  | fuel + 1, s =>
    match subframe wifiModeOn m pktType s with
    | .error e => some { status := .error e, slots := s.slots, queue := s.queue }
    | .ok s =>
      if s.pktLen > 0 then aggrLoop wifiModeOn m pktType fuel s
      else some { status := .ok (), slots := s.slots, queue := s.queue }

def processLmacAggregatedPkt (wifiModeOn : Bool) (m : RcvBuffer) (pktLen : Nat) (pktType : UInt8)
    (fuel : Nat) : Option AggrResult :=
  aggrLoop wifiModeOn m pktType fuel
    { index := 0, pktLen, extendedDesc := 0, slots := [], queue := [] }

theorem land_mask256 {x : Nat} (h : x < 2 ^ 32) : x &&& 0xffffff00 = x / 256 * 256 := by
  have hmask : 0xffffff00 = (2 ^ 24 - 1) <<< 8 := rfl
  have hdiv : x / 256 * 256 = (x >>> 8) <<< 8 := by
    rw [Nat.shiftLeft_eq, Nat.shiftRight_eq_div_pow]
  rw [hdiv, hmask]
  apply Nat.eq_of_testBit_eq
  intro k
  simp only [Nat.testBit_and, Nat.testBit_shiftLeft, Nat.testBit_two_pow_sub_one, Nat.testBit_shiftRight]
  by_cases hlow : 8 ≤ k
  · have hk : 8 + (k - 8) = k := by omega
    by_cases hhigh : k - 8 < 24
    · simp [hlow, hhigh, hk]
    · -- the bits above the mask are zero
      have hzero : x.testBit k = false :=
        Nat.testBit_lt_two_pow (h.trans_le (Nat.pow_le_pow_right (by omega) (by omega)))
      simp [hlow, hhigh, hk, hzero]
  · simp [hlow]

theorem le_unitedLen {offset length : Nat} (ho : offset < 2 ^ 16) (hl : length < 2 ^ 12) :
    offset + length + frameDescSz ≤ unitedLen offset length := by
  rw [unitedLen, frameDescSz, land_mask256 (by omega)]
  omega

theorem RcvBuffer.u16_lt (m : RcvBuffer) (a : Nat) : m.u16 a < 2 ^ 16 := by
  have h0 := (m a).toNat_lt
  have h1 := (m (a + 1)).toNat_lt
  unfold u16
  omega

theorem Slot.read_bounds (m : RcvBuffer) (index : Nat) :
    (Slot.read m index).offset < 2 ^ 16 ∧ (Slot.read m index).length < 2 ^ 12 :=
  ⟨m.u16_lt _, Nat.and_lt_two_pow _ (by decide)⟩

/-- What the checks have established of a consumed subframe. -/
structure Slot.Sound (m : RcvBuffer) (sl : Slot) : Prop where
  read : sl = Slot.read m sl.index
  afterHostDesc : 4 ≤ sl.offset
  inside : sl.offset + sl.length + frameDescSz ≤ sl.actualLength

/-- The slots consumed so far tile the transfer up to `index`, and `pktLen` bytes are left. -/
structure AggrInv (m : RcvBuffer) (pktType : UInt8) (total : Nat) (s : AggrState) : Prop where
  left : s.index + s.pktLen = total
  tiles : Tiles Slot.index Slot.actualLength 0 s.index s.slots
  sound : ∀ sl ∈ s.slots, sl.Sound m
  queue : s.queue = s.slots.map (Slot.payload m pktType)

variable {wifiModeOn : Bool} {m : RcvBuffer} {pktType : UInt8} {total : Nat} {s s' : AggrState}

theorem subframe_eq_ok (hs : subframe wifiModeOn m pktType s = .ok s') :
    ∃ sl : Slot, sl.index = s.index ∧ sl.Sound m ∧ 0 < sl.actualLength ∧ sl.actualLength ≤ s.pktLen ∧
      s'.index = (s.index + sl.actualLength) % 2 ^ 32 ∧
      s'.pktLen = (s.pktLen + 2 ^ 32 - sl.actualLength) % 2 ^ 32 ∧
      s'.slots = s.slots ++ [sl] ∧ s'.queue = s.queue ++ [sl.payload m pktType] := by
  unfold subframe at hs
  simp only at hs
  split_ifs at hs with hshort hcorrupt hunited hext hbig
  cases hs
  obtain ⟨hoff, hlen⟩ := Slot.read_bounds m s.index
  have hround := le_unitedLen hoff hlen
  exact ⟨Slot.read m s.index, rfl, ⟨rfl, by omega, by omega⟩, by omega, by omega, rfl, rfl, rfl, rfl⟩

theorem AggrInv.subframe (h : AggrInv m pktType total s) (htotal : total < 2 ^ 32)
    (hs : subframe wifiModeOn m pktType s = .ok s') :
    AggrInv m pktType total s' ∧ s'.pktLen < s.pktLen := by
  obtain ⟨sl, hsl, hsound, hpos, hfits, hindex, hpkt, hslots, hqueue⟩ := subframe_eq_ok hs
  have hleft := h.left
  rw [Nat.mod_eq_of_lt (by omega)] at hindex
  have hpkt : s'.pktLen = s.pktLen - sl.actualLength := by omega
  refine ⟨⟨by omega, ?_, ?_, ?_⟩, by omega⟩
  · rw [hindex, hslots]
    exact h.tiles.concat hsl
  · rw [hslots]
    exact List.forall_mem_append.mpr ⟨h.sound, by simpa using hsound⟩
  · rw [hslots, hqueue, h.queue, List.map_append, List.map_singleton]

theorem aggrLoop_spec (htotal : total < 2 ^ 32) (h : AggrInv m pktType total s) (hpos : 0 < s.pktLen) :
    ∃ r, (∀ fuel, s.pktLen ≤ fuel → aggrLoop wifiModeOn m pktType fuel s = some r) ∧
      (r.status = .ok () → ∃ t, AggrInv m pktType total t ∧ t.pktLen = 0 ∧
        r.slots = t.slots ∧ r.queue = t.queue) := by
  induction hn : s.pktLen using Nat.strong_induction_on generalizing s with
  | _ n ih =>
    cases hs : Onebox.subframe wifiModeOn m pktType s with
    | error e =>
      refine ⟨{ status := .error e, slots := s.slots, queue := s.queue }, fun fuel hfuel => ?_, nofun⟩
      obtain ⟨fuel, rfl⟩ := Nat.exists_eq_add_of_le' (show 1 ≤ fuel by omega)
      simp [aggrLoop, hs]
    | ok s' =>
      obtain ⟨hinv, hlt⟩ := h.subframe htotal hs
      by_cases hmore : 0 < s'.pktLen
      · obtain ⟨r, hr, hok⟩ := ih s'.pktLen (hn ▸ hlt) hinv hmore rfl
        refine ⟨r, fun fuel hfuel => ?_, hok⟩
        obtain ⟨fuel, rfl⟩ := Nat.exists_eq_add_of_le' (show 1 ≤ fuel by omega)
        simp [aggrLoop, hs, hmore, hr fuel (by omega)]
      · refine ⟨{ status := .ok (), slots := s'.slots, queue := s'.queue }, fun fuel hfuel => ?_,
          fun _ => ⟨s', hinv, by omega, rfl, rfl⟩⟩
        obtain ⟨fuel, rfl⟩ := Nat.exists_eq_add_of_le' (show 1 ≤ fuel by omega)
        simp [aggrLoop, hs, hmore]

/-- De-aggregation is exact: on any transfer of `n` blocks the loop ends, and if it succeeds the slots
tile the transfer and the queued packets are the payloads that lie inside them. -/
theorem process_lmac_aggregated_pkt_exact (wifiModeOn : Bool) (m : RcvBuffer) (pktType : UInt8) {n : Nat}
    (hpos : 1 ≤ n) (hmax : n ≤ 31) :
    ∃ r, (∀ fuel, 256 * n ≤ fuel →
        processLmacAggregatedPkt wifiModeOn m (256 * n) pktType fuel = some r) ∧
      (r.status = .ok () →
        Tiles Slot.index Slot.actualLength 0 (256 * n) r.slots ∧
        (∀ x < 256 * n, ∃! k : Fin r.slots.length, (r.slots.get k).index ≤ x ∧
          x < (r.slots.get k).index + (r.slots.get k).actualLength) ∧
        (∀ sl ∈ r.slots, sl.Sound m) ∧ r.queue = r.slots.map (Slot.payload m pktType)) := by
  have hinit : AggrInv m pktType (256 * n)
      { index := 0, pktLen := 256 * n, extendedDesc := 0, slots := [], queue := [] } :=
    ⟨by simp, rfl, nofun, rfl⟩
  obtain ⟨r, hr, hok⟩ := aggrLoop_spec (by omega) hinit (by simp; omega)
  refine ⟨r, hr, fun hstatus => ?_⟩
  obtain ⟨t, hinv, hzero, hslots, hqueue⟩ := hok hstatus
  have htiles : Tiles Slot.index Slot.actualLength 0 (256 * n) r.slots := by
    have hleft := hinv.left
    rw [hslots, ← hleft, hzero]
    exact hinv.tiles
  refine ⟨htiles, fun x hx => htiles.existsUnique (Nat.zero_le x) hx, ?_, ?_⟩
  · rw [hslots]
    exact hinv.sound
  · rw [hslots, hqueue]
    exact hinv.queue

/-- Two slots in three blocks: a frame of 300 bytes in the first two, one of 40 bytes in the third. -/
def twoSlots : RcvBuffer := fun a =>
  (([(0, 0), (1, 2), (2, 4), (3, 0), (4, 0x2c), (5, 1), (8, 4), (512, 0), (513, 1), (514, 8), (515, 0), (520, 40),
    (521, 0), (524, 4)] : List (Nat × UInt8)).lookup a).getD 0x5a

theorem process_lmac_aggregated_pkt_twoSlots :
    ∃ r, processLmacAggregatedPkt true twoSlots (256 * 3) wlanPkt 768 = some r ∧ r.status = .ok () ∧
      r.slots.map Slot.length = [300, 40] ∧ Tiles Slot.index Slot.actualLength 0 (256 * 3) r.slots := by
  obtain ⟨r, hr, hok⟩ := process_lmac_aggregated_pkt_exact true twoSlots wlanPkt (n := 3) (by decide) (by decide)
  have hrun : (processLmacAggregatedPkt true twoSlots (256 * 3) wlanPkt 768).map
      (fun r => (r.status, r.slots.map Slot.length)) = some (.ok (), [300, 40]) := by decide +kernel
  rw [hr 768 le_rfl] at hrun
  obtain ⟨hstatus, hlengths⟩ := Prod.mk.inj (Option.some.inj hrun)
  exact ⟨r, hr 768 le_rfl, hstatus, hlengths, (hok hstatus).1⟩

end Onebox
