import Onebox.MasterWrite

/-! The SDIO load down to the registers of the window. An access of the bus reaches the 64K that the two
master-access bytes select and goes round at their end, so that a block in the wrong window, or over the
edge of the right one, lands in the wrong place. -/

namespace Onebox

open ByteMem

/-- The memory behind SDIO, with the registers `SDIO_MASTER_ACCESS_MSBYTE` and `SDIO_MASTER_ACCESS_LSBYTE`. -/
structure SdioDev where
  mem : Nat → BitVec 8
  msByte : Nat
  lsByte : Nat

/-- The bus accesses of one load: the two bytes of the window, for the call (0) and after block `ii`
(`ii + 1`), and the data of a block. -/
inductive SdioAccess
  | msByte (k : Nat)
  | lsByte (k : Nat)
  | data (ii : Nat)
  deriving DecidableEq, Repr

namespace SdioDev

variable (d : SdioDev)

/-- The driver writes the low byte of the word to `MSBYTE` and its high byte to `LSBYTE`. -/
def window : Nat := d.lsByte * 2 ^ 8 + d.msByte

/-- `onebox_write_multiple` with `SD_REQUEST_MASTER`: `n` bytes from `lsb` on, inside the window. -/
def writeMultiple (lsb : Nat) (fw : Nat → BitVec 8) (cur n : Nat) : SdioDev :=
  { d with
    mem := fun x =>
      let off := (x % 2 ^ 16 + 2 ^ 16 - lsb) % 2 ^ 16
      if x / 2 ^ 16 = d.window ∧ off < n then fw (cur + off) else d.mem x }

/-- `onebox_sdio_master_access_msword`. Without a result it returns `ONEBOX_STATUS_FAILURE`. -/
def masterAccessMsword (ok : SdioAccess → Bool) (k msWord : Nat) : Option SdioDev :=
  if !ok (.msByte k) then none
  else if !ok (.lsByte k) then none
  else some { d with msByte := msWord % 2 ^ 8, lsByte := msWord / 2 ^ 8 % 2 ^ 8 }

/-- The device as the load of both buses sees it. -/
def flat : DevMem := { mem := d.mem, msword := d.window }

end SdioDev

structure SdioLoop where
  dev : SdioDev
  base : Nat
  msb : Nat
  cur : Nat

/-- The block `ii` of the loop. -/
def sdioLoadBlock (ok : SdioAccess → Bool) (blockSize : Nat) (fw : Nat → BitVec 8) (l : SdioLoop) (ii : Nat) :
    Option SdioLoop :=
  if !ok (.data ii) then none
  else
    let dev := l.dev.writeMultiple (l.base % 2 ^ 16) fw l.cur blockSize
    let base := (l.base + blockSize) % 2 ^ 32
    let cur := l.cur + blockSize
    if base / 2 ^ 16 ≠ l.msb then
      let msb := (l.msb + 1) % 2 ^ 16
      (dev.masterAccessMsword ok (ii + 1) msb).map fun dev => { dev, base, msb, cur }
    else some { dev, base, msb := l.msb, cur }

/-- `load_data_master_write` of `onebox_sdio_devops.c`. -/
def sdioLoadDataMasterWrite (ok : SdioAccess → Bool) (d : SdioDev) (base size blockSize : Nat)
    (fw : Nat → BitVec 8) : Option SdioDev := do
  let numBlocks := size / blockSize
  let msb := base / 2 ^ 16
  let dev ← d.masterAccessMsword ok 0 msb
  let l ← (List.range numBlocks).foldlM (sdioLoadBlock ok blockSize fw) { dev, base, msb, cur := 0 }
  if size % blockSize ≠ 0 then
    if !ok (.data numBlocks) then none
    else some (l.dev.writeMultiple (l.base % 2 ^ 16) fw l.cur (size % blockSize))
  else some l.dev

/-- The statuses with the two writes of a window as one access, numbered as in `loadBlock`. -/
def flatStatus (ok : SdioAccess → Bool) (n : Nat) : Bool :=
  if n % 2 = 1 then ok (.data (n / 2)) else ok (.msByte (n / 2)) && ok (.lsByte (n / 2))

section Statuses

variable (ok : SdioAccess → Bool) (ii : Nat)

@[simp] theorem flatStatus_data : flatStatus ok (2 * ii + 1) = ok (.data ii) := by
  have hmod : (2 * ii + 1) % 2 = 1 := by omega
  have hdiv : (2 * ii + 1) / 2 = ii := by omega
  rw [flatStatus, if_pos hmod, hdiv]

@[simp] theorem flatStatus_window : flatStatus ok (2 * ii) = (ok (.msByte ii) && ok (.lsByte ii)) := by
  have hmod : ¬ (2 * ii) % 2 = 1 := by omega
  have hdiv : 2 * ii / 2 = ii := by omega
  rw [flatStatus, if_neg hmod, hdiv]

end Statuses

namespace SdioDev

variable {d : SdioDev} {ok : SdioAccess → Bool} {fw : Nat → BitVec 8} {lsb cur n k w : Nat}

/-- Bytes that do not run over the end of the window are in one piece behind its start. -/
theorem writeMultiple_mem (hfit : lsb + n ≤ 2 ^ 16) :
    (d.writeMultiple lsb fw cur n).mem = copy d.mem (d.window * 2 ^ 16 + lsb) fw cur n := by
  funext x
  show (if _ ∧ _ then _ else _) = _
  by_cases hx : d.window * 2 ^ 16 + lsb ≤ x ∧ x < d.window * 2 ^ 16 + lsb + n
  · have hwin : x / 2 ^ 16 = d.window := by omega
    have hoff : (x % 2 ^ 16 + 2 ^ 16 - lsb) % 2 ^ 16 = x - (d.window * 2 ^ 16 + lsb) := by omega
    rw [copy, if_pos hx, hoff, if_pos ⟨hwin, by omega⟩]
  · rw [copy, if_neg hx, if_neg]
    rintro ⟨hwin, hoff⟩
    omega

theorem masterAccessMsword_cases (ok : SdioAccess → Bool) (k : Nat) (hw : w < 2 ^ 16) :
    (flatStatus ok (2 * k) = false ∧ d.masterAccessMsword ok k w = none) ∨
      (flatStatus ok (2 * k) = true ∧
        ∃ dev, d.masterAccessMsword ok k w = some dev ∧ dev.flat = d.flat.masterAccessMsword .sdio w) := by
  have hword : w / 2 ^ 8 % 2 ^ 8 * 2 ^ 8 + w % 2 ^ 8 = w := by omega
  rw [flatStatus_window, masterAccessMsword]
  cases ok (.msByte k) with
  | false => exact .inl ⟨rfl, rfl⟩
  | true =>
    cases ok (.lsByte k) with
    | false => exact .inl ⟨rfl, rfl⟩
    | true =>
      refine .inr ⟨rfl, _, rfl, ?_⟩
      simp only [flat, window, DevMem.masterAccessMsword, hword]

theorem writeMultiple_flat {base : Nat} (hfit : base % 2 ^ 16 + n ≤ 2 ^ 16) :
    (d.writeMultiple (base % 2 ^ 16) fw cur n).flat = d.flat.writeMultiple .sdio base fw cur n := by
  rw [flat, writeMultiple_mem hfit]
  rfl

end SdioDev

def SdioLoop.flat (l : SdioLoop) : LoadLoop :=
  { dev := l.dev.flat, base := l.base, msb := l.msb, cur := l.cur }

section Refinement

variable {ok : SdioAccess → Bool} {d d' : SdioDev} {base size blockSize : Nat} {fw : Nat → BitVec 8}

/-- An aligned block ends at the edge of its window at the latest. -/
theorem aligned_fits (hdvd : blockSize ∣ 2 ^ 16) (hbase : blockSize ∣ base) :
    base % 2 ^ 16 + blockSize ≤ 2 ^ 16 := by
  obtain ⟨q, hq⟩ := hdvd
  have hlow : blockSize ∣ base % 2 ^ 16 := (Nat.dvd_mod_iff ⟨q, hq⟩).mpr hbase
  obtain ⟨r, hr⟩ := hlow
  have hlt : blockSize * r < blockSize * q := by
    rw [← hr, ← hq]
    exact Nat.mod_lt _ (by decide)
  have hle : blockSize * (r + 1) ≤ blockSize * q := Nat.mul_le_mul_left _ (Nat.lt_of_mul_lt_mul_left hlt)
  rw [hr, hq]
  exact hle

theorem sdioLoadBlock_flat {l : SdioLoop} {ii : Nat} (hfit : l.base % 2 ^ 16 + blockSize ≤ 2 ^ 16) :
    (sdioLoadBlock ok blockSize fw l ii).map SdioLoop.flat =
      loadBlock .sdio (flatStatus ok) blockSize fw l.flat ii := by
  have hmsb : (l.msb + 1) % 2 ^ 16 < 2 ^ 16 := Nat.mod_lt _ (by decide)
  have hwrite : (l.dev.writeMultiple (l.base % 2 ^ 16) fw l.cur blockSize).flat =
      l.dev.flat.writeMultiple .sdio l.base fw l.cur blockSize := SdioDev.writeMultiple_flat hfit
  have hstatus : flatStatus ok (2 * ii + 2) = flatStatus ok (2 * (ii + 1)) := rfl
  rw [sdioLoadBlock, loadBlock, flatStatus_data, hstatus]
  cases ok (.data ii) with
  | false => rfl
  | true =>
    simp only [Bool.not_true, Bool.false_eq_true, if_false, true_and, SdioLoop.flat, ← hwrite]
    by_cases hcross : (l.base + blockSize) % 2 ^ 32 / 2 ^ 16 = l.msb
    · rw [if_neg (not_not.mpr hcross), if_neg (not_not.mpr hcross)]
      rfl
    · rw [if_pos hcross, if_pos hcross]
      obtain ⟨hs, hdev⟩ | ⟨hs, dev, hdev, hflat⟩ := SdioDev.masterAccessMsword_cases
        (d := l.dev.writeMultiple (l.base % 2 ^ 16) fw l.cur blockSize) ok (ii + 1) hmsb
      · rw [hs, hdev]
        rfl
      · rw [hs, hdev, ← hflat]
        rfl

theorem sdioLoadBlock_base {l l' : SdioLoop} {ii : Nat} (h : sdioLoadBlock ok blockSize fw l ii = some l') :
    l'.base = (l.base + blockSize) % 2 ^ 32 := by
  simp only [sdioLoadBlock] at h
  split_ifs at h
  · obtain ⟨dev, -, hl'⟩ := Option.map_eq_some_iff.mp h
    rw [← hl']
  · rw [← Option.some.inj h]

/-- The loop over the blocks, from an aligned address on. -/
theorem sdioBlocks_flat (ok : SdioAccess → Bool) (fw : Nat → BitVec 8) (hdvd : blockSize ∣ 2 ^ 16) (l : SdioLoop)
    (hl : blockSize ∣ l.base) (iis : List Nat) :
    (iis.foldlM (sdioLoadBlock ok blockSize fw) l).map SdioLoop.flat =
        iis.foldlM (loadBlock .sdio (flatStatus ok) blockSize fw) l.flat ∧
      ∀ l', iis.foldlM (sdioLoadBlock ok blockSize fw) l = some l' → blockSize ∣ l'.base := by
  induction iis generalizing l with
  | nil =>
    refine ⟨rfl, fun l' hl' => ?_⟩
    rw [← Option.some.inj hl']
    exact hl
  | cons ii iis ih =>
    have hblock : (sdioLoadBlock ok blockSize fw l ii).map SdioLoop.flat =
        loadBlock .sdio (flatStatus ok) blockSize fw l.flat ii := sdioLoadBlock_flat (aligned_fits hdvd hl)
    rw [List.foldlM_cons, List.foldlM_cons, ← hblock]
    cases hnext : sdioLoadBlock ok blockSize fw l ii with
    | none => exact ⟨rfl, fun l' hl' => by cases hl'⟩
    | some l₁ =>
      apply ih
      rw [sdioLoadBlock_base hnext]
      have h32 : blockSize ∣ 2 ^ 32 := hdvd.trans (by decide)
      exact (Nat.dvd_mod_iff h32).mpr (hl.add (dvd_refl blockSize))

/-- A successful load through the registers is a successful load of `loadDataMasterWrite`. -/
theorem sdioLoadDataMasterWrite_flat (hdvd : blockSize ∣ 2 ^ 16) (haligned : blockSize ∣ base)
    (hbase : base < 2 ^ 32) :
    (sdioLoadDataMasterWrite ok d base size blockSize fw).map SdioDev.flat =
      loadDataMasterWrite .sdio (flatStatus ok) d.flat base size blockSize fw := by
  have hmsb : base / 2 ^ 16 < 2 ^ 16 := by omega
  rw [sdioLoadDataMasterWrite, loadDataMasterWrite]
  obtain ⟨hs, hdev⟩ | ⟨hs, dev, hdev, hflat⟩ := SdioDev.masterAccessMsword_cases (d := d) ok 0 hmsb
  · rw [show flatStatus ok 0 = false from hs, hdev]
    rfl
  · rw [show flatStatus ok 0 = true from hs, hdev]
    obtain ⟨hblocks, hlast⟩ := sdioBlocks_flat ok fw hdvd
      { dev, base, msb := base / 2 ^ 16, cur := 0 } haligned (List.range (size / blockSize))
    have hstart : SdioLoop.flat { dev, base, msb := base / 2 ^ 16, cur := 0 } =
        .start .sdio d.flat base := by
      simp only [SdioLoop.flat, LoadLoop.start, hflat]
    rw [hstart] at hblocks
    simp only [Bool.not_true, Bool.false_eq_true, and_false, if_false, Option.bind_eq_bind, Option.bind_some,
      ← hblocks, flatStatus_data]
    cases hl : (List.range (size / blockSize)).foldlM (sdioLoadBlock ok blockSize fw)
        { dev, base, msb := base / 2 ^ 16, cur := 0 } with
    | none => rfl
    | some l =>
      have hfits := aligned_fits hdvd (hlast l hl)
      have hrem : size % blockSize ≤ blockSize := by
        have hpos := Nat.pos_of_dvd_of_pos hdvd (by decide)
        exact (Nat.mod_lt size hpos).le
      have hwrite : (l.dev.writeMultiple (l.base % 2 ^ 16) fw l.cur (size % blockSize)).flat =
          l.dev.flat.writeMultiple .sdio l.base fw l.cur (size % blockSize) :=
        SdioDev.writeMultiple_flat (by omega)
      simp only [Option.bind_some, Option.map_some, SdioLoop.flat, ← hwrite]
      split_ifs <;> rfl

theorem loadBlocks_isSome {bus : Bus} {ok : Nat → Bool} (hok : ∀ n, ok n = true) (iis : List Nat)
    (l : LoadLoop) : (iis.foldlM (loadBlock bus ok blockSize fw) l).isSome := by
  induction iis generalizing l with
  | nil => rfl
  | cons ii iis ih =>
    have hblock : (loadBlock bus ok blockSize fw l ii).isSome := by
      simp only [loadBlock, hok, Bool.not_true, Bool.false_eq_true, if_false]
      split_ifs <;> rfl
    obtain ⟨l₁, hl₁⟩ := Option.isSome_iff_exists.mp hblock
    rw [List.foldlM_cons, hl₁]
    exact ih l₁

/-- A load no access of which fails returns. -/
theorem loadDataMasterWrite_isSome {bus : Bus} {ok : Nat → Bool} {d : DevMem} (hok : ∀ n, ok n = true) :
    (loadDataMasterWrite bus ok d base size blockSize fw).isSome := by
  have hblocks :
      ((List.range (size / blockSize)).foldlM (loadBlock bus ok blockSize fw) (.start bus d base)).isSome :=
    loadBlocks_isSome hok _ _
  obtain ⟨l, hl⟩ := Option.isSome_iff_exists.mp hblocks
  simp only [loadDataMasterWrite, hok, Bool.not_true, Bool.false_eq_true, and_false, if_false, hl,
    Option.bind_eq_bind, Option.bind_some]
  split_ifs <;> rfl

/-- An aligned load through the window puts the image at `base` and changes nothing else, as the USB load
does, and it returns when no access fails. -/
theorem sdioLoadDataMasterWrite_eq_copy (hdvd : blockSize ∣ 65536) (haligned : blockSize ∣ base)
    (hbase : base < 2 ^ 32) (hmax : base + size ≤ 2 ^ 32) :
    (∀ d', sdioLoadDataMasterWrite ok d base size blockSize fw = some d' →
      d'.mem = copy d.mem base fw 0 size ∧
        ∀ okUsb usb usb', usb.mem = d.mem →
          loadDataMasterWrite .usb okUsb usb base size blockSize fw = some usb' → usb'.mem = d'.mem) ∧
      ((∀ a, ok a = true) → (sdioLoadDataMasterWrite ok d base size blockSize fw).isSome) := by
  have hflat : (sdioLoadDataMasterWrite ok d base size blockSize fw).map SdioDev.flat =
      loadDataMasterWrite .sdio (flatStatus ok) d.flat base size blockSize fw :=
    sdioLoadDataMasterWrite_flat hdvd haligned hbase
  have hfit : ∀ ii < size / blockSize, (base + ii * blockSize) % 2 ^ 16 + blockSize ≤ 2 ^ 16 :=
    fun ii _ => aligned_fits hdvd (haligned.add (dvd_mul_left blockSize ii))
  constructor
  · intro d' hload
    rw [hload] at hflat
    have hmem : d'.mem = copy d.mem base fw 0 size := loadDataMasterWrite_mem hfit hbase hmax hflat.symm
    refine ⟨hmem, fun okUsb usb usb' husb hload' => ?_⟩
    have hmem' := loadDataMasterWrite_mem hfit hbase hmax hload'
    rw [hmem', hmem, husb]
  · intro hok
    have hall : ∀ n, flatStatus ok n = true := by
      intro n
      simp only [flatStatus, hok, Bool.and_self, ite_self]
    have hsome : (loadDataMasterWrite .sdio (flatStatus ok) d.flat base size blockSize fw).isSome :=
      loadDataMasterWrite_isSome hall
    rw [← hflat, Option.isSome_map] at hsome
    exact hsome

/-- The first block ends at the edge of a window and the rest of the image is in the next one. -/
theorem sdioLoad_over_edge :
    ∃ d', sdioLoadDataMasterWrite (fun _ => true) ⟨fun _ => 0, 0, 0⟩ 0x1FF00 300 256 (BitVec.ofNat 8) = some d' ∧
      d'.mem = copy (fun _ => 0) 0x1FF00 (BitVec.ofNat 8) 0 300 := by
  have hdvd : 256 ∣ 65536 := by decide
  have haligned : 256 ∣ 0x1FF00 := by decide
  obtain ⟨hcopy, hsome⟩ := sdioLoadDataMasterWrite_eq_copy (d := ⟨fun _ => 0, 0, 0⟩) hdvd haligned
    (show 0x1FF00 < 2 ^ 32 by decide) (show 0x1FF00 + 300 ≤ 2 ^ 32 by decide)
  obtain ⟨d', hd'⟩ := Option.isSome_iff_exists.mp (hsome fun _ => rfl)
  exact ⟨d', hd', (hcopy d' hd').1⟩

end Refinement

end Onebox
