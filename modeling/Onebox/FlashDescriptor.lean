import Onebox.Chunks
import Onebox.ManualFlash
import Onebox.RxAggregate

/-! The frames of `auto_flash_write`, one for each chunk of `trigger_auto_flash_burn`, and the bus address
under which `host_intf_write_pkt` of the SDIO interface writes them. -/

namespace Onebox

open ByteMem

section Fields

variable {k q n : Nat}

theorem or_shiftLeft_mod : (q <<< k ||| n) % 2 ^ k = n % 2 ^ k := by
  rw [Nat.or_mod_two_pow, Nat.shiftLeft_eq, Nat.mul_mod_left, Nat.zero_or]

theorem or_shiftLeft_div (hn : n < 2 ^ k) : (q <<< k ||| n) / 2 ^ k = q := by
  rw [← Nat.shiftRight_eq_div_pow, Nat.shiftRight_or_distrib, Nat.shiftLeft_shiftRight,
    Nat.shiftRight_eq_div_pow n, Nat.div_eq_of_lt hn, Nat.or_zero]

theorem toNat_packed_low {w : Nat} (hw : k ≤ w) :
    ((BitVec.ofNat w (q <<< k ||| n)).extractLsb' 0 k).toNat = n % 2 ^ k := by
  rw [BitVec.extractLsb'_toNat, BitVec.toNat_ofNat, Nat.shiftRight_zero,
    Nat.mod_mod_of_dvd _ (Nat.pow_dvd_pow 2 hw), or_shiftLeft_mod]

theorem toNat_packed_high {w : Nat} (hn : n < 2 ^ k) (hfit : q <<< k ||| n < 2 ^ w) :
    (BitVec.ofNat w (q <<< k ||| n)).toNat >>> k = q := by
  rw [BitVec.toNat_ofNat, Nat.mod_eq_of_lt hfit, Nat.shiftRight_eq_div_pow, or_shiftLeft_div hn]

end Fields

/-- A write over the SDIO bus. -/
structure SdioWrite where
  address : BitVec 32
  length : BitVec 32
  deriving DecidableEq, Repr

def wlanTxMQ : BitVec 8 := 4

def wlanTxDQ : BitVec 32 := 5

/-- The write that `host_intf_write_pkt` asks for, if it does not take the length for wrong. -/
def hostIntfWritePkt (blockSize len : BitVec 32) (qNo : BitVec 8) : Option SdioWrite :=
  let queueno := qNo.setWidth 32
  if len = 0 ∧ queueno = wlanTxDQ then none
  else
    let numBlocks := if len % blockSize ≠ 0 then len / blockSize + 1 else len / blockSize
    some { address := numBlocks * blockSize ||| queueno <<< 12, length := numBlocks * blockSize }

def sdioTransmitBlockSize : BitVec 32 := 256

/-- What `auto_flash_write` reads of the adapter. -/
structure FlashControl where
  eepromErase : Bool
  eepromInit : Bool
  length : BitVec 32
  offset : BitVec 32

/-- A call of `auto_flash_write`: the chunk given, the frame made of it and the write on the bus. -/
structure FlashWrite where
  chunkSize : Nat
  descWord : Vector (BitVec 16) 8
  payload : List UInt8
  bus : Option SdioWrite
  deriving DecidableEq, Repr

def delaysLen : Nat := 12

def eepromWrite : BitVec 16 := 15

def sectorErase : BitVec 16 := 0x20

def oneboxWifiMgmtQ : Nat := 4

def autoFlashWrite (ctl : FlashControl) (flashContent : Nat → UInt8) (blockSize : Nat) : FlashWrite :=
  let pktLen := (frameDescSz + blockSize + delaysLen) % 2 ^ 16
  let flags : BitVec 16 :=
    3#16 <<< 8 ||| (if ctl.eepromErase then 1#16 <<< 10 else 0) ||| (if ctl.eepromInit then 1#16 <<< 13 else 0)
  { chunkSize := blockSize
    descWord := #v[
      BitVec.ofNat 16 (oneboxWifiMgmtQ <<< 12 ||| (pktLen - frameDescSz)),
      eepromWrite,
      (flags ||| 1#16 <<< 11) &&& ~~~(1#16 <<< 12),
      (ctl.length <<< 4).setWidth 16,
      ctl.offset.setWidth 16,
      (ctl.offset >>> 16).setWidth 16,
      256,
      sectorErase ||| 0x02#16 <<< 8]
    payload := List.replicate delaysLen 0 ++ window flashContent 0 blockSize
    bus := hostIntfWritePkt sdioTransmitBlockSize (BitVec.ofNat 32 pktLen) wlanTxMQ }

/-- The calls that the loop of `trigger_auto_flash_burn` makes. `goesOn` tells whether the write of a chunk
succeeds and the wait after it does not expire. -/
def flashBurnLoop (flashContent : Nat → UInt8) (goesOn : Nat → Bool) :
    Nat → Nat → Nat → BitVec 32 → List FlashWrite
  | 0, _, _, _ => []
  | n + 1, idx, instructionsSz, eepromOffset =>
    let chunkSize := if instructionsSz < flashWriteChunkSize then instructionsSz else flashWriteChunkSize
    let ctl :=
      { eepromErase := idx % (flashSectorSize / flashWriteChunkSize) = 0, eepromInit := idx = 0
        length := BitVec.ofNat 32 chunkSize, offset := eepromOffset }
    autoFlashWrite ctl (fun i => flashContent (idx * flashWriteChunkSize + i)) chunkSize ::
      if goesOn idx then
        flashBurnLoop flashContent goesOn n (idx + 1) (instructionsSz - chunkSize)
          (eepromOffset + BitVec.ofNat 32 chunkSize)
      else []

def flashWrites (flashContent : Nat → UInt8) (goesOn : Nat → Bool) (instructionsSz : Nat)
    (eepromOffset : BitVec 32) : List FlashWrite :=
  let numLoops := Chunks.count flashWriteChunkSize instructionsSz
  flashBurnLoop flashContent goesOn numLoops 0 instructionsSz eepromOffset

namespace FlashWrite

variable (w : FlashWrite)

/-- The descriptor tells the length and the queue of the frame. -/
def TellsLength : Prop :=
  (w.descWord[0].extractLsb' 0 12).toNat = w.chunkSize + delaysLen ∧
    (w.descWord[0].extractLsb' 12 4).toNat = oneboxWifiMgmtQ

def TellsChunk : Prop := (w.descWord[3] >>> 4).toNat = w.chunkSize

/-- The bus address tells the queue and the length of the transfer. -/
def TellsTransfer : Prop :=
  ∃ b ∈ w.bus, (b.address >>> 12).toNat = wlanTxMQ.toNat ∧ (b.address.extractLsb' 0 12).toNat = b.length.toNat

def Decodes : Prop := w.TellsLength ∧ w.TellsChunk ∧ w.TellsTransfer

end FlashWrite

section Decoding

variable {ctl : FlashControl} {flashContent : Nat → UInt8} {chunk : Nat}

theorem autoFlashWrite_tellsLength (hle : chunk ≤ flashWriteChunkSize) :
    (autoFlashWrite ctl flashContent chunk).TellsLength ↔ chunk + delaysLen < 2 ^ 12 := by
  rw [flashWriteChunkSize] at hle
  have hlen : (frameDescSz + chunk + delaysLen) % 2 ^ 16 - frameDescSz = chunk + delaysLen := by
    simp only [frameDescSz, delaysLen]
    omega
  have hword : (autoFlashWrite ctl flashContent chunk).descWord[0] =
      BitVec.ofNat 16 (oneboxWifiMgmtQ <<< 12 ||| (chunk + delaysLen)) := by
    rw [← hlen]
    rfl
  rw [FlashWrite.TellsLength, hword, toNat_packed_low (by decide)]
  constructor
  · intro h
    have hmod := Nat.mod_lt (chunk + delaysLen) (show 0 < 2 ^ 12 by decide)
    rw [h.1] at hmod
    exact hmod
  · intro hlt
    have hfit : oneboxWifiMgmtQ <<< 12 ||| (chunk + delaysLen) < 2 ^ 16 :=
      Nat.or_lt_two_pow (by decide) (hlt.trans (by decide))
    refine ⟨Nat.mod_eq_of_lt hlt, ?_⟩
    rw [BitVec.extractLsb'_toNat, toNat_packed_high hlt hfit]
    rfl

theorem autoFlashWrite_tellsChunk (hlength : ctl.length = BitVec.ofNat 32 chunk)
    (hle : chunk ≤ flashWriteChunkSize) :
    (autoFlashWrite ctl flashContent chunk).TellsChunk ↔ chunk < 2 ^ 12 := by
  rw [flashWriteChunkSize] at hle
  have hword : (autoFlashWrite ctl flashContent chunk).descWord[3] =
      (BitVec.ofNat 32 chunk <<< 4).setWidth 16 := by
    rw [← hlength]
    rfl
  have hchunk : (autoFlashWrite ctl flashContent chunk).chunkSize = chunk := rfl
  rw [FlashWrite.TellsChunk, hword, hchunk, BitVec.toNat_ushiftRight, BitVec.toNat_setWidth,
    BitVec.toNat_shiftLeft, BitVec.toNat_ofNat, Nat.shiftLeft_eq, Nat.shiftRight_eq_div_pow]
  omega

theorem numBlocks_eq {len : Nat} (hlen : len < 2 ^ 16) :
    (if BitVec.ofNat 32 len % sdioTransmitBlockSize ≠ 0 then BitVec.ofNat 32 len / sdioTransmitBlockSize + 1
      else BitVec.ofNat 32 len / sdioTransmitBlockSize) = BitVec.ofNat 32 (Chunks.count 256 len) := by
  have hblock : sdioTransmitBlockSize.toNat = 256 := rfl
  have hrem : BitVec.ofNat 32 len % sdioTransmitBlockSize = BitVec.ofNat 32 (len % 256) := by
    apply BitVec.eq_of_toNat_eq
    rw [BitVec.toNat_umod, hblock, BitVec.toNat_ofNat, BitVec.toNat_ofNat]
    omega
  have hdiv : BitVec.ofNat 32 len / sdioTransmitBlockSize = BitVec.ofNat 32 (len / 256) := by
    apply BitVec.eq_of_toNat_eq
    rw [BitVec.toNat_udiv, hblock, BitVec.toNat_ofNat, BitVec.toNat_ofNat]
    omega
  have hzero : BitVec.ofNat 32 (len % 256) = 0 ↔ len % 256 = 0 := by
    rw [← BitVec.toNat_inj, BitVec.toNat_ofNat, Nat.mod_eq_of_lt (by omega)]
    rfl
  rw [hrem, hdiv, Chunks.count]
  by_cases hfull : len % 256 = 0
  · rw [if_neg (not_not.mpr (hzero.mpr hfull)), if_pos hfull]
  · rw [if_pos (mt hzero.mp hfull), if_neg hfull, BitVec.ofNat_add]
    rfl

/-- The write on the bus is of whole blocks, whose length and queue share the address. -/
theorem hostIntfWritePkt_blocks {len : Nat} (hlen : len < 2 ^ 16) :
    hostIntfWritePkt sdioTransmitBlockSize (BitVec.ofNat 32 len) wlanTxMQ =
      some { address := BitVec.ofNat 32 (wlanTxMQ.toNat <<< 12 ||| Chunks.count 256 len * 256)
             length := BitVec.ofNat 32 (Chunks.count 256 len * 256) } := by
  have hqueue : (wlanTxMQ.setWidth 32 : BitVec 32) <<< 12 = BitVec.ofNat 32 (wlanTxMQ.toNat <<< 12) := by decide
  have hnotData : (wlanTxMQ.setWidth 32 : BitVec 32) ≠ wlanTxDQ := by decide
  rw [hostIntfWritePkt, if_neg (fun h => hnotData h.2), numBlocks_eq hlen, hqueue, BitVec.ofNat_or,
    BitVec.ofNat_mul, BitVec.or_comm]
  rfl

theorem autoFlashWrite_tellsTransfer (hle : chunk ≤ flashWriteChunkSize) :
    (autoFlashWrite ctl flashContent chunk).TellsTransfer ↔ chunk ≤ 3812 := by
  rw [flashWriteChunkSize] at hle
  have hlen : (frameDescSz + chunk + delaysLen) % 2 ^ 16 = chunk + 28 := by
    simp only [frameDescSz, delaysLen]
    omega
  have hbus : (autoFlashWrite ctl flashContent chunk).bus =
      hostIntfWritePkt sdioTransmitBlockSize (BitVec.ofNat 32 (chunk + 28)) wlanTxMQ := by
    rw [← hlen]
    rfl
  have hroom : Chunks.count 256 (chunk + 28) * 256 < 2 ^ 12 ↔ chunk ≤ 3812 := by
    rw [Chunks.count]
    split_ifs <;> omega
  have hblocks : Chunks.count 256 (chunk + 28) * 256 < 2 ^ 16 := by
    rw [Chunks.count]
    split_ifs <;> omega
  rw [FlashWrite.TellsTransfer, hbus, hostIntfWritePkt_blocks (by omega), ← hroom]
  generalize Chunks.count 256 (chunk + 28) * 256 = n at hblocks
  have hlow : ((BitVec.ofNat 32 (wlanTxMQ.toNat <<< 12 ||| n)).extractLsb' 0 12).toNat = n % 2 ^ 12 :=
    toNat_packed_low (by decide)
  have hlength : (BitVec.ofNat 32 n).toNat = n := by rw [BitVec.toNat_ofNat, Nat.mod_eq_of_lt (by omega)]
  constructor
  · rintro ⟨b, hb, -, h⟩
    rw [← Option.mem_some.mp hb, hlow, hlength] at h
    omega
  · intro hlt
    have hfit : wlanTxMQ.toNat <<< 12 ||| n < 2 ^ 32 := Nat.or_lt_two_pow (by decide) (by omega)
    refine ⟨_, rfl, ?_, ?_⟩
    · rw [BitVec.toNat_ushiftRight, toNat_packed_high hlt hfit]
    · rw [hlow, hlength, Nat.mod_eq_of_lt hlt]

end Decoding

section Burning

variable {flashContent : Nat → UInt8} {goesOn : Nat → Bool} {w : FlashWrite}

theorem mem_flashBurnLoop {n idx instructionsSz : Nat} {offset : BitVec 32}
    (hn : n = Chunks.count flashWriteChunkSize instructionsSz)
    (hw : w ∈ flashBurnLoop flashContent goesOn n idx instructionsSz offset) :
    ∃ ctl content chunk, w = autoFlashWrite ctl content chunk ∧ ctl.length = BitVec.ofNat 32 chunk ∧
      0 < chunk ∧ chunk ≤ flashWriteChunkSize := by
  induction n generalizing idx instructionsSz offset with
  | zero => exact absurd hw List.not_mem_nil
  | succ n ih =>
    have hmin : (if instructionsSz < flashWriteChunkSize then instructionsSz else flashWriteChunkSize) =
        min instructionsSz flashWriteChunkSize := by
      split_ifs <;> omega
    have hsome : 0 < instructionsSz := by
      by_contra hzero
      rw [show instructionsSz = 0 by omega, Chunks.count_zero] at hn
      omega
    rw [flashBurnLoop, hmin, List.mem_cons] at hw
    rcases hw with rfl | hw
    · exact ⟨_, _, _, rfl, rfl, lt_min hsome (by decide), min_le_right _ _⟩
    · split_ifs at hw with hgo
      · rw [Chunks.count_sub_min (by decide) hsome] at hn
        exact ih (by omega) hw
      · exact absurd hw List.not_mem_nil

/-- The frame of a chunk decodes to what was meant just for the chunks of up to 3812 bytes. -/
theorem flashWrite_decodes_iff {instructionsSz : Nat} {offset : BitVec 32}
    (hw : w ∈ flashWrites flashContent goesOn instructionsSz offset) : w.Decodes ↔ w.chunkSize ≤ 3812 := by
  obtain ⟨ctl, content, chunk, rfl, hlength, hpos, hle⟩ := mem_flashBurnLoop rfl hw
  rw [FlashWrite.Decodes, autoFlashWrite_tellsLength hle, autoFlashWrite_tellsChunk hlength hle,
    autoFlashWrite_tellsTransfer hle, delaysLen]
  show _ ↔ chunk ≤ 3812
  omega

theorem flashWrite_short_decodes :
    ∃ w ∈ flashWrites (fun _ => 0xa5) (fun _ => true) 3812 0x2000, w.chunkSize = 3812 ∧ w.Decodes := by
  obtain ⟨w, hw, hchunk⟩ : ∃ w ∈ flashWrites (fun _ => 0xa5) (fun _ => true) 3812 0x2000, w.chunkSize = 3812 :=
    ⟨_, List.mem_cons_self, rfl⟩
  exact ⟨w, hw, hchunk, (flashWrite_decodes_iff hw).mpr hchunk.le⟩

/-- A full chunk makes the queue 5 and the length 12. -/
theorem flashWrite_full_chunk :
    ∃ w ∈ flashWrites (fun _ => 0xa5) (fun _ => true) 8192 0x2000, w.chunkSize = 4096 ∧ ¬ w.Decodes ∧
      w.descWord[0] = 0x500c ∧ w.descWord[3] = 0 ∧ w.bus = some { address := 0x5100, length := 0x1100 } := by
  refine ⟨_, List.mem_cons_self, rfl, ?_, by decide, by decide, by decide⟩
  intro h
  exact absurd h.1.1 (by decide)

end Burning

end Onebox
