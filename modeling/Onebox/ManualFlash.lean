import Onebox.AutoFlash

/-! `manual_load_flash_content`: blocks of 32K are put into the memory of the device and
burnt from there in sectors of 4K, and `verify_flash_content` reads the flash back. -/

namespace Onebox

open ByteMem

/-- The values of `flashing_mode` for which it is called. -/
inductive ManualMode
  | qspiFlashing | qspiUpdate | swblFlashingNosbl | swblFlashingNosblFile
  deriving DecidableEq, Repr

/-- What the outside does in one call: the capacity read from the device (zero if that fails), the status
of each bus access of each block loaded and of each sector write, whether each read of the verification is
accepted and answered in time, the calibration data read in `QSPI_UPDATE` mode, and what
`read_calib_data` makes of the content in the modes of the bootloader. -/
structure ManualEnv where
  bus : Bus
  qspiFlashing : Bool
  flashCapacity : Nat
  loadOk : Nat → Nat → Bool
  burnOk : Nat → Nat → Bool
  readOk : Nat → Bool
  calibData : Nat → BitVec 8
  readCalibData : (Nat → BitVec 8) → Option (Nat → BitVec 8)

/-- The memory and the flash of the device. -/
structure FlashDev where
  dev : DevMem
  flash : BitVec 32 → BitVec 8

def flashSectorSize : Nat := 4096
def flashBlockSize : Nat := 32768
def blHeader : Nat := 32
/-- Of all the files, and where every later block is put. -/
def metadataAddress : Nat := 0x10000

/-- The loop over the sectors, `n` of them left. The wait after a write has no effect on it. -/
def burnSectors (ok : Nat → Bool) (mem : Nat → BitVec 8) :
    (n idx : Nat) → (eepromOffset : BitVec 32) → (flashOffset left : Nat) →
      (BitVec 32 → BitVec 8) → BitVec 32 → BitVec 8
  | 0, _, _, _, _, flash => flash
  | n + 1, idx, eepromOffset, flashOffset, left, flash =>
    let chunkSize := if left < flashSectorSize then left else flashSectorSize
    if ok idx then
      burnSectors ok mem n (idx + 1) (eepromOffset + BitVec.ofNat 32 chunkSize) (flashOffset + chunkSize)
        (left - chunkSize) (wrapCopy flash eepromOffset mem flashOffset chunkSize)
    else flash

/-- Its status is ignored. The number of sectors is a `uint8`. -/
def triggerManualFlashBurn (ok : Nat → Bool) (d : FlashDev) (address size : Nat) (eepromOffset : BitVec 32) :
    FlashDev :=
  let numLoops := Chunks.count flashSectorSize size % 2 ^ 8
  { d with flash := burnSectors ok d.dev.mem numLoops 0 eepromOffset address size d.flash }

/-- `instructions_sz` in the round `kk`. -/
def blockLen (qspiFlashing : Bool) (size kk : Nat) : Nat :=
  if qspiFlashing then if kk ≠ size / flashBlockSize then flashBlockSize else size % flashBlockSize
  else size

/-- The loop over the blocks, `n` rounds of it left, with the offset of the next byte of the file. -/
def manualLoop (env : ManualEnv) (bytes : Nat → BitVec 8) (size : Nat) :
    (n kk : Nat) → (flashIndx : BitVec 32) → (taFirmware : Nat) → FlashDev → FlashDev × Bool
  | 0, _, _, _, d => (d, true)
  | n + 1, kk, flashIndx, taFirmware, d =>
    let len := blockLen env.qspiFlashing size kk
    if env.qspiFlashing ∧ kk = size / flashBlockSize ∧ len = 0 then (d, true)
    else if len = 0 then
      manualLoop env bytes size n (kk + 1) (flashIndx + BitVec.ofNat 32 flashBlockSize) taFirmware d
    else
      match loadDataMasterWrite env.bus (env.loadOk kk) d.dev metadataAddress len env.bus.transmitBlockSize
        fun i => bytes (taFirmware + i) with
      | none => (d, false)
      | some dev =>
        let d := triggerManualFlashBurn (env.burnOk kk) { d with dev } metadataAddress len flashIndx
        manualLoop env bytes size n (kk + 1) (flashIndx + BitVec.ofNat 32 flashBlockSize) (taFirmware + len) d

/-- `verify_flash_content` with EEPROM reads. -/
def verifyFlashContent (env : ManualEnv) (flash : BitVec 32 → BitVec 8) (bytes : Nat → BitVec 8) (size : Nat)
    (eepromOffset : BitVec 32) : Bool :=
  (List.range (env.bus.numReads size)).all fun idx =>
    let len := env.bus.readLen size idx
    let offset := env.bus.readOffset idx
    env.readOk idx &&
      window bytes offset len = window (fun i => flash (eepromOffset + BitVec.ofNat 32 (offset + i))) 0 len

/-- The part that all modes share. The verification begins at `STARTING_BLOCK_INDEX`. -/
def flashAndVerify (env : ManualEnv) (bytes : Nat → BitVec 8) (size : Nat) (flashIndx : BitVec 32) (d : FlashDev) :
    FlashDev × Bool :=
  match manualLoop env bytes size (size / flashBlockSize + 1) 0 flashIndx 0 d with
  | (d, false) => (d, false)
  | (d, true) => (d, verifyFlashContent env d.flash bytes size 0)

namespace ManualEnv

variable (env : ManualEnv)

/-- The checks of the `QSPI_FLASHING` mode; the sum is a `uint32`. -/
def fits (file : FlashImage) : Bool :=
  flashSectorSize < file.start && file.start % flashSectorSize = 0 && env.flashCapacity ≠ 0 &&
    (file.start + file.size) % 2 ^ 32 ≤ env.flashCapacity

def accepts (file : FlashImage) : Bool := file.size ≤ 400 * 1024 && env.fits file

/-- The calibration values of the flash are put into the file. -/
def updated (file : FlashImage) : FlashImage := { file with bytes := copy file.bytes 16 env.calibData 0 4080 }

end ManualEnv

def manualLoadFlashContent (env : ManualEnv) (mode : ManualMode) (file : FlashImage) (d : FlashDev) :
    FlashDev × Bool :=
  if 400 * 1024 < file.size then (d, false)
  else match mode with
    | .qspiFlashing =>
      if env.fits file then flashAndVerify env file.bytes file.size (BitVec.ofNat 32 file.start) d else (d, false)
    | .qspiUpdate =>
      let file := env.updated file
      if env.fits file then flashAndVerify env file.bytes file.size (BitVec.ofNat 32 file.start) d else (d, false)
    | .swblFlashingNosbl | .swblFlashingNosblFile =>
      match env.readCalibData fun i => file.bytes (blHeader + i) with
      | none => (d, false)
      | some bytes => flashAndVerify env bytes ((file.size + 2 ^ 32 - blHeader) % 2 ^ 32) 0 d

/-- What the call is for: the image is burnt at its address, and the result says whether it is there. -/
structure FlashesImage (env : ManualEnv) (file : FlashImage) (d : FlashDev) : Prop where
  burnt : ∀ i < file.size,
    (manualLoadFlashContent env .qspiFlashing file d).1.flash (file.address i) = file.bytes i
  verified : (manualLoadFlashContent env .qspiFlashing file d).2 = true ↔
    ∀ i < file.size, (manualLoadFlashContent env .qspiFlashing file d).1.flash (file.address i) = file.bytes i

section Sectors

variable {ok : Nat → Bool} {mem : Nat → BitVec 8} {flash : BitVec 32 → BitVec 8}

/-- A sector is burnt when no write of its block has failed so far. -/
def sectorBurnt (ok : Nat → Bool) (k : Nat) : Bool := (List.range (k + 1)).all ok

theorem sectorBurnt_zero : sectorBurnt ok 0 = ok 0 := by simp [sectorBurnt]

theorem sectorBurnt_succ (k : Nat) : sectorBurnt ok (k + 1) = (ok 0 && sectorBurnt (fun j => ok (j + 1)) k) := by
  rw [sectorBurnt, List.range_succ_eq_map, List.all_cons, List.all_map]
  rfl

theorem sectorBurnt_of_refused {idx : Nat} (h : ok idx = false) (k : Nat) :
    sectorBurnt (fun j => ok (idx + j)) k = false := by
  cases k with
  | zero => rw [sectorBurnt_zero, Nat.add_zero, h]
  | succ k => rw [sectorBurnt_succ, Nat.add_zero, h, Bool.false_and]

theorem sectorBurnt_next {idx c i : Nat} (h : ok idx = true) (hi : c + flashSectorSize ≤ i) :
    sectorBurnt (fun j => ok (idx + j)) ((i - c) / flashSectorSize) =
      sectorBurnt (fun j => ok (idx + 1 + j)) ((i - (c + flashSectorSize)) / flashSectorSize) := by
  have hnext : (i - c) / flashSectorSize = (i - (c + flashSectorSize)) / flashSectorSize + 1 := by
    rw [← Nat.add_div_right _ (by decide)]
    congr 1
    omega
  have hshift : (fun j => ok (idx + (j + 1))) = fun j => ok (idx + 1 + j) := by
    funext j
    congr 1
    omega
  rw [hnext, sectorBurnt_succ, Nat.add_zero, h, Bool.true_and, hshift]

/-- When the first sector of a block is written, the burnt bytes are those of the sector and those of the
rest of the block. -/
theorem burnt_iff {idx c left chunk i : Nat} (h : ok idx = true) (hchunk : chunk = min left flashSectorSize) :
    (c ≤ i ∧ i < c + left ∧ sectorBurnt (fun j => ok (idx + j)) ((i - c) / flashSectorSize)) ↔
      (c ≤ i ∧ i < c + chunk) ∨ (c + chunk ≤ i ∧ i < c + chunk + (left - chunk) ∧
        sectorBurnt (fun j => ok (idx + 1 + j)) ((i - (c + chunk)) / flashSectorSize)) := by
  by_cases hfirst : i < c + chunk
  · constructor
    · rintro ⟨hin, -, -⟩
      exact .inl ⟨hin, hfirst⟩
    · rintro (⟨hin, -⟩ | ⟨hafter, -⟩)
      · have hzero : (i - c) / flashSectorSize = 0 := Nat.div_eq_of_lt (by omega)
        exact ⟨hin, by omega, by rw [hzero, sectorBurnt_zero, Nat.add_zero, h]⟩
      · omega
  · constructor
    · rintro ⟨hin, hend, hburnt⟩
      obtain rfl : chunk = flashSectorSize := by omega
      rw [sectorBurnt_next h (by omega)] at hburnt
      exact .inr ⟨by omega, by omega, hburnt⟩
    · rintro (⟨-, hlt⟩ | ⟨hge, hend, hburnt⟩)
      · exact absurd hlt hfirst
      · obtain rfl : chunk = flashSectorSize := by omega
        rw [← sectorBurnt_next h hge] at hburnt
        exact ⟨by omega, by omega, hburnt⟩

/-- What the burn of a block of `left` bytes leaves at the offset `i`, when the block begins at `c`. -/
theorem burnSectors_apply (a : BitVec 32) (src : Nat → BitVec 8) (c : Nat) {n idx flashOffset left i : Nat}
    (hn : n = Chunks.count flashSectorSize left) (hmem : ∀ t < left, mem (flashOffset + t) = src (c + t))
    (hc : c + left < 2 ^ 32) (hi : i < 2 ^ 32) :
    burnSectors ok mem n idx (a + BitVec.ofNat 32 c) flashOffset left flash (a + BitVec.ofNat 32 i) =
      if c ≤ i ∧ i < c + left ∧ sectorBurnt (fun j => ok (idx + j)) ((i - c) / flashSectorSize) then src i
      else flash (a + BitVec.ofNat 32 i) := by
  induction n generalizing idx c flashOffset left flash with
  | zero =>
    have hleft : left = 0 := by
      have hnot : ¬ 0 < Chunks.count flashSectorSize left := by omega
      rw [Chunks.lt_count_iff (by decide)] at hnot
      omega
    rw [if_neg (by omega)]
    rfl
  | succ n ih =>
    have hpos : 0 < left := by
      have hlt : 0 < Chunks.count flashSectorSize left := by omega
      rw [Chunks.lt_count_iff (by decide)] at hlt
      omega
    have hchunk : (if left < flashSectorSize then left else flashSectorSize) = min left flashSectorSize := by
      split_ifs <;> omega
    have hcount := Chunks.count_sub_min (show 0 < flashSectorSize by decide) hpos
    rw [burnSectors, hchunk]
    obtain ⟨chunk, hmin⟩ : ∃ chunk, chunk = min left flashSectorSize := ⟨_, rfl⟩
    rw [← hmin] at hcount ⊢
    cases hok : ok idx with
    | false => simp [sectorBurnt_of_refused hok]
    | true =>
      have haddr : a + BitVec.ofNat 32 c + BitVec.ofNat 32 chunk = a + BitVec.ofNat 32 (c + chunk) := by
        rw [BitVec.ofNat_add, add_assoc]
      have hrest : ∀ t < left - chunk, mem (flashOffset + chunk + t) = src (c + chunk + t) := by
        intro t ht
        rw [Nat.add_assoc, hmem _ (by omega), Nat.add_assoc]
      rw [if_pos rfl, haddr, ih (c + chunk) (by omega) hrest (by omega), wrapCopy_offset hi (by omega) (by omega)]
      simp only [burnt_iff hok hmin]
      by_cases hlater : c + chunk ≤ i ∧ i < c + chunk + (left - chunk) ∧
          sectorBurnt (fun j => ok (idx + 1 + j)) ((i - (c + chunk)) / flashSectorSize)
      · rw [if_pos hlater, if_pos (.inr hlater)]
      · rw [if_neg hlater]
        by_cases hfirst : c ≤ i ∧ i < c + chunk
        · rw [if_pos hfirst, if_pos (.inl hfirst), hmem _ (by omega), Nat.add_sub_cancel' hfirst.1]
        · rw [if_neg hfirst, if_neg (not_or.mpr ⟨hfirst, hlater⟩)]

end Sectors

section Blocks

variable {env : ManualEnv} {bytes : Nat → BitVec 8} {size : Nat} {d : FlashDev}

/-- The sector of the byte is burnt. -/
def ManualEnv.burntByte (env : ManualEnv) (i : Nat) : Bool :=
  sectorBurnt (env.burnOk (i / flashBlockSize)) (i % flashBlockSize / flashSectorSize)

/-- No bus access of the block fails. -/
def ManualEnv.BlockLoaded (env : ManualEnv) (size kk : Nat) : Prop :=
  (env.bus = .sdio → env.loadOk kk 0 = true) ∧
    ∀ ii < Chunks.count env.bus.transmitBlockSize (Chunks.len flashBlockSize size kk),
      env.loadOk kk (2 * ii + 1) = true

theorem blockLen_eq {kk : Nat} (h : kk < Chunks.count flashBlockSize size) :
    blockLen true size kk = Chunks.len flashBlockSize size kk := by
  rw [Chunks.lt_count_iff (by decide)] at h
  have hsplit := Nat.div_add_mod' size flashBlockSize
  have hmod := Nat.mod_lt size (show 0 < flashBlockSize by decide)
  rw [blockLen, if_pos rfl, Chunks.len]
  by_cases hlast : kk = size / flashBlockSize
  · rw [if_neg (not_not.mpr hlast), hlast]
    omega
  · have hlt : kk < size / flashBlockSize := by
      have hle := Nat.div_le_div_right (c := flashBlockSize) h.le
      rw [Nat.mul_div_cancel _ (by decide)] at hle
      omega
    have hmul := Nat.mul_le_mul_right flashBlockSize (show kk + 1 ≤ size / flashBlockSize from hlt)
    rw [Nat.succ_mul] at hmul
    rw [if_pos hlast]
    omega

/-- A last block of no bytes. -/
theorem blockLen_past {kk : Nat} (h : ¬ kk < Chunks.count flashBlockSize size)
    (hle : kk ≤ size / flashBlockSize) : kk = size / flashBlockSize ∧ blockLen true size kk = 0 := by
  have hlast : kk = size / flashBlockSize ∧ size % flashBlockSize = 0 := by
    rw [Chunks.count] at h
    split_ifs at h with hrem
    · exact ⟨by omega, hrem⟩
    · omega
  refine ⟨hlast.1, ?_⟩
  rw [blockLen, if_pos rfl, if_neg (not_not.mpr hlast.1), hlast.2]

/-- The device has been given the block, and burns it at its place. -/
theorem block_apply (a : BitVec 32) {kk i : Nat} {dev : DevMem} (hkk : kk < Chunks.count flashBlockSize size)
    (hsize : size < 2 ^ 32) (hi : i < 2 ^ 32)
    (hload : loadDataMasterWrite env.bus (env.loadOk kk) d.dev metadataAddress (Chunks.len flashBlockSize size kk)
      env.bus.transmitBlockSize (fun i => bytes (kk * flashBlockSize + i)) = some dev) :
    (triggerManualFlashBurn (env.burnOk kk) { d with dev } metadataAddress (Chunks.len flashBlockSize size kk)
      (a + BitVec.ofNat 32 (kk * flashBlockSize))).flash (a + BitVec.ofNat 32 i) =
      if kk * flashBlockSize ≤ i ∧ i < Chunks.before flashBlockSize size (kk + 1) ∧ env.burntByte i then bytes i
      else d.flash (a + BitVec.ofNat 32 i) := by
  rw [Chunks.lt_count_iff (by decide)] at hkk
  have hlen : Chunks.len flashBlockSize size kk ≤ 32768 := Chunks.len_le
  have hend : Chunks.before flashBlockSize size (kk + 1) ≤ size := Chunks.before_le
  rw [Chunks.before_succ, Chunks.before_of_lt hkk] at hend ⊢
  have hmem := loadDataMasterWrite_mem_of_window (by rw [metadataAddress]; omega) (by decide) hload
  have hnum : Chunks.count flashSectorSize (Chunks.len flashBlockSize size kk) % 2 ^ 8 =
      Chunks.count flashSectorSize (Chunks.len flashBlockSize size kk) := by
    refine Nat.mod_eq_of_lt ?_
    rw [Chunks.count, flashSectorSize]
    split_ifs <;> omega
  rw [triggerManualFlashBurn]
  simp only [hnum]
  rw [burnSectors_apply a bytes (kk * flashBlockSize) rfl ?_ (by omega) hi]
  · congr 1
    apply propext
    refine and_congr_right fun hge => and_congr_right fun hlt => ?_
    have hdiv : i / flashBlockSize = kk := by
      rw [flashBlockSize] at hge hlt hlen ⊢
      omega
    have hmod : i % flashBlockSize = i - kk * flashBlockSize := by
      rw [flashBlockSize] at hge hlt hlen ⊢
      omega
    rw [ManualEnv.burntByte, hdiv, hmod]
    simp only [Nat.zero_add]
  · intro t ht
    rw [hmem, copy_of_mem ht, Nat.zero_add]

theorem loaded_iff (kk : Nat) (dev : DevMem) (fw : Nat → BitVec 8) :
    (loadDataMasterWrite env.bus (env.loadOk kk) dev metadataAddress (Chunks.len flashBlockSize size kk)
      env.bus.transmitBlockSize fw).isSome ↔ env.BlockLoaded size kk := by
  have hlen : Chunks.len flashBlockSize size kk ≤ 32768 := Chunks.len_le
  exact loadDataMasterWrite_isSome_iff (by rw [metadataAddress]; omega) (by decide)

/-- The blocks from `kk` on: all of them are loaded or the call fails, and what the burns leave. -/
structure BlocksDone (env : ManualEnv) (bytes : Nat → BitVec 8) (size kk : Nat) (a : BitVec 32) (d : FlashDev)
    (r : FlashDev × Bool) : Prop where
  loaded : r.2 = true ↔ ∀ k, kk ≤ k → k < Chunks.count flashBlockSize size → env.BlockLoaded size k
  flash : r.2 = true → ∀ i < 2 ^ 32, r.1.flash (a + BitVec.ofNat 32 i) =
    if kk * flashBlockSize ≤ i ∧ i < size ∧ env.burntByte i then bytes i else d.flash (a + BitVec.ofNat 32 i)

theorem BlocksDone.none {kk : Nat} (a : BitVec 32) (hkk : ¬ kk < Chunks.count flashBlockSize size) :
    BlocksDone env bytes size kk a d (d, true) := by
  refine ⟨iff_of_true rfl fun k hk hlt => absurd (hk.trans_lt hlt) hkk, fun _ i _ => ?_⟩
  rw [Chunks.lt_count_iff (by decide)] at hkk
  rw [if_neg (by omega)]

theorem BlocksDone.failed {kk : Nat} (a : BitVec 32) (hkk : kk < Chunks.count flashBlockSize size)
    (hload : loadDataMasterWrite env.bus (env.loadOk kk) d.dev metadataAddress (Chunks.len flashBlockSize size kk)
      env.bus.transmitBlockSize (fun i => bytes (kk * flashBlockSize + i)) = Option.none) :
    BlocksDone env bytes size kk a d (d, false) := by
  refine ⟨iff_of_false (by simp) fun hall => ?_, fun h => by cases h⟩
  have hsome := (loaded_iff kk d.dev fun i => bytes (kk * flashBlockSize + i)).mpr (hall kk le_rfl hkk)
  simp [hload] at hsome

theorem BlocksDone.cons {kk : Nat} {a : BitVec 32} {dev : DevMem} {r : FlashDev × Bool}
    (hkk : kk < Chunks.count flashBlockSize size) (hsize : size < 2 ^ 32)
    (hload : loadDataMasterWrite env.bus (env.loadOk kk) d.dev metadataAddress (Chunks.len flashBlockSize size kk)
      env.bus.transmitBlockSize (fun i => bytes (kk * flashBlockSize + i)) = some dev)
    (hrest : BlocksDone env bytes size (kk + 1) a
      (triggerManualFlashBurn (env.burnOk kk) { d with dev } metadataAddress (Chunks.len flashBlockSize size kk)
        (a + BitVec.ofNat 32 (kk * flashBlockSize))) r) : BlocksDone env bytes size kk a d r := by
  have hloaded : env.BlockLoaded size kk := (loaded_iff kk d.dev _).mp (by rw [hload]; rfl)
  refine ⟨hrest.loaded.trans ⟨fun hall k hk hlt => ?_, fun hall k hk => hall k (by omega)⟩, fun hr i hi => ?_⟩
  · rcases Nat.lt_or_eq_of_le hk with hk | rfl
    · exact hall k hk hlt
    · exact hloaded
  · rw [hrest.flash hr i hi, block_apply a hkk hsize hi hload]
    have hbefore : Chunks.before flashBlockSize size (kk + 1) = min ((kk + 1) * flashBlockSize) size := rfl
    have hmul : (kk + 1) * flashBlockSize = kk * flashBlockSize + flashBlockSize := Nat.succ_mul _ _
    cases env.burntByte i with
    | false => simp
    | true =>
      by_cases hge : kk * flashBlockSize ≤ i ∧ i < size
      · rw [if_pos (show kk * flashBlockSize ≤ i ∧ i < size ∧ true = true from ⟨hge.1, hge.2, rfl⟩)]
        by_cases hnext : (kk + 1) * flashBlockSize ≤ i
        · rw [if_pos ⟨hnext, hge.2, rfl⟩]
        · rw [if_neg (by omega), if_pos ⟨hge.1, by omega, rfl⟩]
      · rw [if_neg (by omega), if_neg (by omega), if_neg (by omega)]

theorem manualLoop_done (bytes : Nat → BitVec 8) (hq : env.qspiFlashing = true) (hsize : size < 2 ^ 32)
    (a : BitVec 32) {n : Nat} (kk : Nat) (hn : kk + n = size / flashBlockSize + 1) :
    BlocksDone env bytes size kk a d
      (manualLoop env bytes size n kk (a + BitVec.ofNat 32 (kk * flashBlockSize)) (kk * flashBlockSize) d) := by
  have hsplit := Nat.div_add_mod' size flashBlockSize
  have hmod := Nat.mod_lt size (show 0 < flashBlockSize by decide)
  have hend : ¬ size / flashBlockSize + 1 < Chunks.count flashBlockSize size := by
    rw [Chunks.lt_count_iff (by decide), Nat.succ_mul]
    omega
  induction n generalizing kk d with
  | zero =>
    obtain rfl : kk = size / flashBlockSize + 1 := hn
    exact .none a hend
  | succ n ih =>
    by_cases hkk : kk < Chunks.count flashBlockSize size
    · have hlen := blockLen_eq hkk
      have hlt := (Chunks.lt_count_iff (show 0 < flashBlockSize by decide)).mp hkk
      have hpos : Chunks.len flashBlockSize size kk ≠ 0 := by
        rw [Chunks.len]
        omega
      rw [manualLoop, hq, hlen]
      simp only [hpos, and_false, if_false]
      cases hload : loadDataMasterWrite env.bus (env.loadOk kk) d.dev metadataAddress
          (Chunks.len flashBlockSize size kk) env.bus.transmitBlockSize
          (fun i => bytes (kk * flashBlockSize + i)) with
      | none => exact .failed a hkk hload
      | some dev =>
        refine BlocksDone.cons hkk hsize hload ?_
        cases n with
        | zero =>
          obtain rfl : kk = size / flashBlockSize := by omega
          exact .none a hend
        | succ n =>
          have hmul := Nat.mul_le_mul_right flashBlockSize (show kk + 1 ≤ size / flashBlockSize by omega)
          rw [Nat.succ_mul] at hmul
          have hfull : Chunks.len flashBlockSize size kk = flashBlockSize := Nat.min_eq_right (by omega)
          have haddr : a + BitVec.ofNat 32 (kk * flashBlockSize) + BitVec.ofNat 32 flashBlockSize =
              a + BitVec.ofNat 32 ((kk + 1) * flashBlockSize) := by
            rw [Nat.succ_mul, BitVec.ofNat_add, add_assoc]
          rw [haddr, hfull, ← Nat.succ_mul]
          exact ih (kk + 1) (by omega)
    · obtain ⟨hlast, hlen⟩ := blockLen_past hkk (by omega)
      rw [manualLoop, hq, hlen, if_pos ⟨rfl, hlast, rfl⟩]
      exact .none a hkk

end Blocks

section Verification

variable {env : ManualEnv} {file : FlashImage} {d : FlashDev}

theorem verifyFlashContent_iff (flash : BitVec 32 → BitVec 8) (bytes : Nat → BitVec 8) (size : Nat)
    (eepromOffset : BitVec 32) :
    verifyFlashContent env flash bytes size eepromOffset = true ↔
      (∀ idx < env.bus.numReads size, env.readOk idx = true) ∧
        ∀ j < size, flash (eepromOffset + BitVec.ofNat 32 j) = bytes j := by
  rw [verifyFlashContent, List.all_eq_true, Chunks.forall_lt_iff
    (P := fun j => flash (eepromOffset + BitVec.ofNat 32 j) = bytes j) env.bus.flashReadChunkSize_pos]
  simp only [List.mem_range, Bool.and_eq_true, decide_eq_true_eq, window_eq_iff, Nat.zero_add, Bus.numReads,
    Bus.readLen, Bus.readOffset]
  constructor
  · intro h
    exact ⟨fun idx hidx => (h idx hidx).1, fun idx hidx i hi => ((h idx hidx).2 i hi).symm⟩
  · intro h idx hidx
    exact ⟨h.1 idx hidx, fun i hi => (h.2 idx hidx i hi).symm⟩

/-- Every block is loaded, every read is answered, every sector is burnt or has its content already, and
the flash with the image at its address also has it at the address zero, where it is read back. -/
structure Verifiable (env : ManualEnv) (file : FlashImage) (d : FlashDev) : Prop where
  loaded : ∀ kk < Chunks.count flashBlockSize file.size, env.BlockLoaded file.size kk
  answered : ∀ idx < env.bus.numReads file.size, env.readOk idx = true
  burnt : ∀ i < file.size, env.burntByte i = true ∨ d.flash (file.address i) = file.bytes i
  atZero : ∀ j < file.size,
    wrapCopy d.flash (BitVec.ofNat 32 file.start) file.bytes 0 file.size (BitVec.ofNat 32 j) = file.bytes j

theorem manualLoad_eq (hacc : env.accepts file = true) :
    manualLoadFlashContent env .qspiFlashing file d =
      flashAndVerify env file.bytes file.size (BitVec.ofNat 32 file.start) d := by
  simp only [ManualEnv.accepts, Bool.and_eq_true, decide_eq_true_eq] at hacc
  rw [manualLoadFlashContent, if_neg (by omega)]
  simp only [hacc.2, if_true]

theorem flashesImage_iff :
    FlashesImage env file d ↔
      (manualLoadFlashContent env .qspiFlashing file d).2 = true ∧
        ∀ i < file.size, (manualLoadFlashContent env .qspiFlashing file d).1.flash (file.address i) =
          file.bytes i := by
  constructor
  · intro h
    exact ⟨h.verified.mpr h.burnt, h.burnt⟩
  · intro h
    exact ⟨h.2, iff_of_true h.1 h.2⟩

/-- What is left to say once all the blocks have been loaded and the flash has the content `flash`. -/
theorem image_read_back_iff {flash : BitVec 32 → BitVec 8}
    (hflash : ∀ i < 2 ^ 32, flash (BitVec.ofNat 32 file.start + BitVec.ofNat 32 i) =
      if i < file.size ∧ env.burntByte i then file.bytes i
      else d.flash (BitVec.ofNat 32 file.start + BitVec.ofNat 32 i)) (hsize : file.size < 2 ^ 32) :
    ((∀ i < file.size, flash (file.address i) = file.bytes i) ∧
        ∀ j < file.size, flash (0 + BitVec.ofNat 32 j) = file.bytes j) ↔
      (∀ i < file.size, env.burntByte i = true ∨ d.flash (file.address i) = file.bytes i) ∧
        ∀ j < file.size, wrapCopy d.flash (BitVec.ofNat 32 file.start) file.bytes 0 file.size (BitVec.ofNat 32 j) =
          file.bytes j := by
  have hburnt : (∀ i < file.size, flash (file.address i) = file.bytes i) ↔
      ∀ i < file.size, env.burntByte i = true ∨ d.flash (file.address i) = file.bytes i := by
    refine forall_congr' fun i => imp_congr_right fun hi => ?_
    rw [FlashImage.address, hflash i (by omega)]
    by_cases hb : env.burntByte i = true
    · simp [hi, hb]
    · simp [hb]
  rw [← hburnt]
  refine and_congr_right fun himage => ?_
  have hcopy : flash = wrapCopy d.flash (BitVec.ofNat 32 file.start) file.bytes 0 file.size := by
    refine eq_wrapCopy (fun i hi => ?_) fun i hi hge => ?_
    · rw [Nat.zero_add]
      exact himage i hi
    · rw [hflash i hi, if_neg (by omega)]
  rw [hcopy]
  simp only [zero_add]

/-- Manual flashing does what it is for just when the image is also found where it is read back. -/
theorem manual_flash_verified_iff (hq : env.qspiFlashing = true) (hacc : env.accepts file = true) :
    FlashesImage env file d ↔ Verifiable env file d := by
  have hsize : file.size < 2 ^ 32 := by
    simp only [ManualEnv.accepts, Bool.and_eq_true, decide_eq_true_eq] at hacc
    omega
  have hdone := manualLoop_done (d := d) file.bytes hq hsize (BitVec.ofNat 32 file.start) 0 (Nat.zero_add _)
  rw [Nat.zero_mul, BitVec.add_zero] at hdone
  rw [flashesImage_iff, manualLoad_eq hacc, flashAndVerify]
  revert hdone
  generalize manualLoop env file.bytes file.size (file.size / flashBlockSize + 1) 0
    (BitVec.ofNat 32 file.start) 0 d = r
  intro hdone
  obtain ⟨last, loaded⟩ := r
  cases loaded with
  | false =>
    refine iff_of_false (fun h => by cases h.1) fun h => ?_
    have hres := hdone.loaded.mpr fun k _ hk => h.loaded k hk
    cases hres
  | true =>
    have hload := hdone.loaded.mp rfl
    have hread := image_read_back_iff (fun i hi => by simpa using hdone.flash rfl i hi) hsize
    rw [verifyFlashContent_iff]
    constructor
    · rintro ⟨⟨hans, hzero⟩, himage⟩
      obtain ⟨hburnt, hat⟩ := hread.mp ⟨himage, hzero⟩
      exact ⟨fun k hk => hload k (Nat.zero_le k) hk, hans, hburnt, hat⟩
    · intro h
      obtain ⟨himage, hzero⟩ := hread.mpr ⟨h.burnt, h.atZero⟩
      exact ⟨⟨h.answered, hzero⟩, himage⟩

end Verification

section ReadBack

/-- A flash of a megabyte, with nothing going wrong. -/
def faultlessEnv : ManualEnv where
  bus := .sdio
  qspiFlashing := true
  flashCapacity := 0x100000
  loadOk _ _ := true
  burnOk _ _ := true
  readOk _ := true
  calibData _ := 0
  readCalibData := some

def flashOf (flash : BitVec 32 → BitVec 8) : FlashDev := ⟨⟨fun _ => 0, 0⟩, flash⟩

/-- The image is burnt into an empty flash as it should, and the call fails: it reads back the first bytes of
the flash. -/
theorem emptyFlash_not_verified :
    faultlessEnv.qspiFlashing = true ∧ faultlessEnv.accepts oneChunk = true ∧
      (∀ i < oneChunk.size, (manualLoadFlashContent faultlessEnv .qspiFlashing oneChunk
        (flashOf fun _ => 0xFF)).1.flash (oneChunk.address i) = oneChunk.bytes i) ∧
      (manualLoadFlashContent faultlessEnv .qspiFlashing oneChunk (flashOf fun _ => 0xFF)).2 = false ∧
      ¬ FlashesImage faultlessEnv oneChunk (flashOf fun _ => 0xFF) := by
  have himage : ∀ i < oneChunk.size, (manualLoadFlashContent faultlessEnv .qspiFlashing oneChunk
      (flashOf fun _ => 0xFF)).1.flash (oneChunk.address i) = oneChunk.bytes i := by decide
  have hfails : (manualLoadFlashContent faultlessEnv .qspiFlashing oneChunk
      (flashOf fun _ => 0xFF)).2 = false := by decide
  refine ⟨rfl, by decide, himage, hfails, fun h => ?_⟩
  have hres := h.verified.mpr himage
  rw [hfails] at hres
  cases hres

/-- A flash that has the image at the address zero already. -/
theorem manual_flash_verified_iff_twice :
    faultlessEnv.qspiFlashing = true ∧ faultlessEnv.accepts oneChunk = true ∧
      Verifiable faultlessEnv oneChunk (flashOf fun x => oneChunk.bytes x.toNat) ∧
      FlashesImage faultlessEnv oneChunk (flashOf fun x => oneChunk.bytes x.toNat) := by
  have hcond : Verifiable faultlessEnv oneChunk (flashOf fun x => oneChunk.bytes x.toNat) := by
    refine ⟨fun _ _ => ⟨fun _ => rfl, fun _ _ => rfl⟩, fun _ _ => rfl, fun i _ => .inl ?_, by decide⟩
    simp [ManualEnv.burntByte, sectorBurnt, faultlessEnv]
  exact ⟨rfl, by decide, hcond, (manual_flash_verified_iff rfl (by decide)).mpr hcond⟩

end ReadBack

end Onebox
