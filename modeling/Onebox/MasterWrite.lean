import Onebox.ByteMem
import Onebox.Chunks

/-! Data written into the memory of the device by `load_data_master_write`, block by
block, on SDIO through a window of 64K that a register selects. -/

namespace Onebox

open ByteMem

inductive Bus
  | sdio | usb
  deriving DecidableEq, Repr

/-- `adapter->TransmitBlockSize`. -/
def Bus.transmitBlockSize : Bus → Nat
  | .sdio => 256
  | .usb => 252

/-- The memory of the device and the register that selects the window of an SDIO access. -/
structure DevMem where
  mem : Nat → BitVec 8
  msword : Nat

namespace DevMem

variable (d : DevMem)

/-- An SDIO access carries the low half of the address, a USB one the whole of it. -/
def target (bus : Bus) (base : Nat) : Nat :=
  match bus with
  | .sdio => d.msword * 2 ^ 16 + base % 2 ^ 16
  | .usb => base

/-- `onebox_write_multiple` on SDIO, `onebox_ta_write_multiple` on USB. -/
def writeMultiple (bus : Bus) (base : Nat) (fw : Nat → BitVec 8) (cur n : Nat) : DevMem :=
  { d with mem := copy d.mem (d.target bus base) fw cur n }

/-- `onebox_sdio_master_access_msword`. There are no windows on USB. -/
def masterAccessMsword (bus : Bus) (w : Nat) : DevMem :=
  match bus with
  | .sdio => { d with msword := w }
  | .usb => d

@[simp] theorem masterAccessMsword_mem {bus : Bus} {w : Nat} : (d.masterAccessMsword bus w).mem = d.mem := by
  cases bus <;> rfl

end DevMem

/-- The variables of the loop over the blocks. -/
structure LoadLoop where
  dev : DevMem
  base : Nat
  msb : Nat
  cur : Nat

/-- The variables before the first block. -/
def LoadLoop.start (bus : Bus) (d : DevMem) (base : Nat) : LoadLoop :=
  let msb := base / 2 ^ 16
  { dev := d.masterAccessMsword bus msb, base, msb, cur := 0 }

/-- One block. `ok` gives the status of each bus access of the call, of the block `ii` the access
`2 * ii + 1` for its data and `2 * ii + 2` for the window. -/
def loadBlock (bus : Bus) (ok : Nat → Bool) (blockSize : Nat) (fw : Nat → BitVec 8) (l : LoadLoop) (ii : Nat) :
    Option LoadLoop :=
  let base := (l.base + blockSize) % 2 ^ 32
  let dev := l.dev.writeMultiple bus l.base fw l.cur blockSize
  let cur := l.cur + blockSize
  if !ok (2 * ii + 1) then none
  else if bus = .sdio ∧ base / 2 ^ 16 ≠ l.msb then
    let msb := (l.msb + 1) % 2 ^ 16
    if !ok (2 * ii + 2) then none
    else some { dev := dev.masterAccessMsword bus msb, base, msb, cur }
  else some { dev, base, msb := l.msb, cur }

/-- `load_data_master_write`. Without a result it returns `ONEBOX_STATUS_FAILURE`. -/
def loadDataMasterWrite (bus : Bus) (ok : Nat → Bool) (d : DevMem) (base size blockSize : Nat)
    (fw : Nat → BitVec 8) : Option DevMem :=
  let numBlocks := size / blockSize
  if bus = .sdio ∧ !ok 0 then none
  else do
    let l ← (List.range numBlocks).foldlM (loadBlock bus ok blockSize fw) (.start bus d base)
    if size % blockSize ≠ 0 then
      if !ok (2 * numBlocks + 1) then none
      else some (l.dev.writeMultiple bus l.base fw l.cur (size % blockSize))
    else some l.dev

section Spec

variable {bus : Bus} {ok : Nat → Bool} {d d' : DevMem} {base size blockSize : Nat} {fw : Nat → BitVec 8}

/-- After `n` blocks: the blocks are in place and the window is the one of the next address. -/
structure Loaded (bus : Bus) (d : DevMem) (base blockSize : Nat) (fw : Nat → BitVec 8) (n : Nat) (l : LoadLoop) :
    Prop where
  base_eq : l.base = (base + n * blockSize) % 2 ^ 32
  cur_eq : l.cur = n * blockSize
  msb_eq : bus = .sdio → l.msb = l.base / 2 ^ 16
  msword_eq : bus = .sdio → l.dev.msword = l.msb
  mem_eq : l.dev.mem = copy d.mem base fw 0 (n * blockSize)

theorem Loaded.start (hbase : base < 2 ^ 32) : Loaded bus d base blockSize fw 0 (.start bus d base) := by
  refine ⟨?_, ?_, fun _ => rfl, fun hbus => ?_, ?_⟩
  · rw [Nat.zero_mul, Nat.add_zero, Nat.mod_eq_of_lt hbase, LoadLoop.start]
  · rw [Nat.zero_mul, LoadLoop.start]
  · simp only [hbus, LoadLoop.start, DevMem.masterAccessMsword]
  · rw [LoadLoop.start, DevMem.masterAccessMsword_mem, Nat.zero_mul, copy_zero]

theorem Loaded.writeMultiple_mem {n : Nat} {l : LoadLoop} (h : Loaded bus d base blockSize fw n l)
    (hlt : base + n * blockSize < 2 ^ 32) (k : Nat) :
    (l.dev.writeMultiple bus l.base fw l.cur k).mem = copy d.mem base fw 0 (n * blockSize + k) := by
  have hbase : l.base = base + n * blockSize := by rw [h.base_eq, Nat.mod_eq_of_lt hlt]
  have htarget : l.dev.target bus l.base = base + n * blockSize := by
    cases bus with
    | usb => exact hbase
    | sdio =>
      rw [DevMem.target, h.msword_eq rfl, h.msb_eq rfl, hbase]
      exact Nat.div_add_mod' _ _
  have hcopy := copy_copy d.mem fw base 0 (n * blockSize) k
  rw [Nat.zero_add] at hcopy
  rw [DevMem.writeMultiple, htarget, h.mem_eq, h.cur_eq, hcopy]

/-- A block that stays inside one window is put in its place. -/
theorem Loaded.step {n : Nat} {l l' : LoadLoop} (h : Loaded bus d base blockSize fw n l)
    (hlt : base + n * blockSize < 2 ^ 32)
    (hfit : (base + n * blockSize) % 2 ^ 16 + blockSize ≤ 2 ^ 16)
    (hl : loadBlock bus ok blockSize fw l n = some l') : Loaded bus d base blockSize fw (n + 1) l' := by
  have hbase : l.base = base + n * blockSize := by rw [h.base_eq, Nat.mod_eq_of_lt hlt]
  have hnext : l.base + blockSize = base + (n + 1) * blockSize := by
    rw [hbase, Nat.succ_mul, Nat.add_assoc]
  have hcur : l.cur + blockSize = (n + 1) * blockSize := by rw [h.cur_eq, ← Nat.succ_mul]
  have hmem := h.writeMultiple_mem hlt blockSize
  rw [← Nat.succ_mul] at hmem
  rw [← hbase] at hfit hlt
  simp only [loadBlock, hcur] at hl
  split_ifs at hl with hok hcross hok'
  · -- the next block is in the next window
    cases hl
    have hmsb := h.msb_eq hcross.1
    refine ⟨?_, rfl, fun _ => ?_, fun hbus => ?_, ?_⟩
    · rw [← hnext]
    · have hne := hcross.2
      show (l.msb + 1) % 2 ^ 16 = (l.base + blockSize) % 2 ^ 32 / 2 ^ 16
      omega
    · simp only [hbus, DevMem.masterAccessMsword]
    · rw [DevMem.masterAccessMsword_mem, hmem]
  · cases hl
    refine ⟨?_, rfl, fun hbus => ?_, fun hbus => h.msword_eq hbus, hmem⟩
    · rw [← hnext]
    · have hsame := not_and_not_right.mp hcross hbus
      exact hsame.symm

theorem Loaded.blocks {n : Nat} {l : LoadLoop} (hbase : base < 2 ^ 32)
    (hlt : ∀ ii < n, base + ii * blockSize < 2 ^ 32)
    (hfit : ∀ ii < n, (base + ii * blockSize) % 2 ^ 16 + blockSize ≤ 2 ^ 16)
    (hl : (List.range n).foldlM (loadBlock bus ok blockSize fw) (.start bus d base) = some l) :
    Loaded bus d base blockSize fw n l := by
  induction n generalizing l with
  | zero =>
    cases hl
    exact Loaded.start hbase
  | succ n ih =>
    rw [List.range_succ, List.foldlM_append, Option.bind_eq_bind, Option.bind_eq_some_iff] at hl
    obtain ⟨l₀, hl₀, hlast⟩ := hl
    have h := ih (fun ii hii => hlt ii (by omega)) (fun ii hii => hfit ii (by omega)) hl₀
    simp only [List.foldlM_cons, List.foldlM_nil, bind_pure] at hlast
    exact h.step (hlt n (by omega)) (hfit n (by omega)) hlast

/-- Data no block of which straddles a window arrives at `base`, and nothing else changes. -/
theorem loadDataMasterWrite_mem
    (hfit : ∀ ii < size / blockSize, (base + ii * blockSize) % 2 ^ 16 + blockSize ≤ 2 ^ 16)
    (hbase : base < 2 ^ 32) (hmax : base + size ≤ 2 ^ 32)
    (h : loadDataMasterWrite bus ok d base size blockSize fw = some d') :
    d'.mem = copy d.mem base fw 0 size := by
  have hsize := Nat.div_add_mod' size blockSize
  have hlt : ∀ ii < size / blockSize, base + ii * blockSize < 2 ^ 32 := by
    intro ii hii
    have hpos : 0 < blockSize := Nat.pos_of_ne_zero fun h0 => by simp [h0] at hii
    have hle := Nat.mul_le_mul_right blockSize (show ii + 1 ≤ size / blockSize from hii)
    rw [Nat.succ_mul] at hle
    omega
  rw [loadDataMasterWrite] at h
  by_cases hmsword : bus = .sdio ∧ !ok 0
  · simp [hmsword] at h
  · rw [if_neg hmsword] at h
    obtain ⟨l, hl, hlast⟩ := Option.bind_eq_some_iff.mp h
    have hblocks := Loaded.blocks hbase hlt hfit hl
    split_ifs at hlast with hrem hok
    · cases hlast
      rw [hblocks.writeMultiple_mem (by omega), hsize]
    · cases hlast
      rw [hblocks.mem_eq]
      congr 1
      omega

theorem loadDataMasterWrite_mem_of_window (hwindow : base % 2 ^ 16 + size ≤ 2 ^ 16) (hbase : base < 2 ^ 32)
    (h : loadDataMasterWrite bus ok d base size blockSize fw = some d') :
    d'.mem = copy d.mem base fw 0 size := by
  refine loadDataMasterWrite_mem (fun ii hii => ?_) hbase (by omega) h
  have hle := Nat.mul_le_mul_right blockSize (show ii + 1 ≤ size / blockSize from hii)
  rw [Nat.succ_mul] at hle
  have hsize := Nat.div_mul_le_self size blockSize
  omega

theorem Loaded.isSome_step {n : Nat} {l : LoadLoop} (h : Loaded bus d base blockSize fw n l)
    (hwindow : base % 2 ^ 16 + (n + 1) * blockSize < 2 ^ 16) :
    (loadBlock bus ok blockSize fw l n).isSome ↔ ok (2 * n + 1) = true := by
  rw [Nat.succ_mul] at hwindow
  have hsame : ¬ (bus = .sdio ∧ (l.base + blockSize) % 2 ^ 32 / 2 ^ 16 ≠ l.msb) := by
    rintro ⟨hbus, hne⟩
    have hmsb := h.msb_eq hbus
    have hl := h.base_eq
    omega
  simp only [loadBlock, if_neg hsame]
  cases ok (2 * n + 1) <;> simp

theorem Loaded.isSome_blocks {n : Nat} (hwindow : base % 2 ^ 16 + n * blockSize < 2 ^ 16) (hbase : base < 2 ^ 32) :
    ((List.range n).foldlM (loadBlock bus ok blockSize fw) (.start bus d base)).isSome ↔
      ∀ ii < n, ok (2 * ii + 1) = true := by
  have hfit : ∀ ii < n, base % 2 ^ 16 + (ii + 1) * blockSize < 2 ^ 16 := by
    intro ii hii
    have hle := Nat.mul_le_mul_right blockSize (show ii + 1 ≤ n from hii)
    omega
  induction n with
  | zero => simp
  | succ n ih =>
    have hn := hfit n (Nat.lt_succ_self n)
    rw [Nat.succ_mul] at hn
    have hblocks := ih (by omega) fun ii hii => hfit ii (by omega)
    rw [List.range_succ, List.foldlM_append, Nat.forall_lt_succ_right]
    cases hl : (List.range n).foldlM (loadBlock bus ok blockSize fw) (.start bus d base) with
    | none =>
      have hno := hblocks.not.mp (by simp [hl])
      simp [hno]
    | some l =>
      have hyes := hblocks.mp (by simp [hl])
      have hmul : ∀ ii < n,
          base + ii * blockSize < 2 ^ 32 ∧ (base + ii * blockSize) % 2 ^ 16 + blockSize ≤ 2 ^ 16 := by
        intro ii hii
        have hle := hfit ii (by omega)
        rw [Nat.succ_mul] at hle
        omega
      have hloaded := Loaded.blocks hbase (fun ii hii => (hmul ii hii).1) (fun ii hii => (hmul ii hii).2) hl
      have hlast : (loadBlock bus ok blockSize fw l n).isSome ↔ ok (2 * n + 1) = true :=
        hloaded.isSome_step (by rw [Nat.succ_mul]; omega)
      refine Iff.trans ?_ (hlast.trans (and_iff_right hyes).symm)
      simp

/-- Inside one window the accesses of a load are the selection of the window and one for each block. -/
theorem loadDataMasterWrite_isSome_iff (hwindow : base % 2 ^ 16 + size < 2 ^ 16) (hbase : base < 2 ^ 32) :
    (loadDataMasterWrite bus ok d base size blockSize fw).isSome ↔
      (bus = .sdio → ok 0 = true) ∧ ∀ ii < Chunks.count blockSize size, ok (2 * ii + 1) = true := by
  have hsize := Nat.div_add_mod' size blockSize
  have hblocks :
      ((List.range (size / blockSize)).foldlM (loadBlock bus ok blockSize fw) (.start bus d base)).isSome ↔
        ∀ ii < size / blockSize, ok (2 * ii + 1) = true := Loaded.isSome_blocks (by omega) hbase
  have hcount : (∀ ii < Chunks.count blockSize size, ok (2 * ii + 1) = true) ↔
      (∀ ii < size / blockSize, ok (2 * ii + 1) = true) ∧
        (size % blockSize ≠ 0 → ok (2 * (size / blockSize) + 1) = true) := by
    rw [Chunks.count]
    split_ifs with hrem
    · simp [hrem]
    · rw [Nat.forall_lt_succ_right]
      simp [hrem]
  rw [loadDataMasterWrite, hcount]
  by_cases hselect : bus = .sdio ∧ !ok 0
  · rw [if_pos hselect]
    refine iff_of_false (by simp) fun hall => ?_
    simp [hall.1 hselect.1] at hselect
  · have hyes : bus = .sdio → ok 0 = true := by
      intro hbus
      simpa [hbus] using hselect
    rw [if_neg hselect]
    cases hl : (List.range (size / blockSize)).foldlM (loadBlock bus ok blockSize fw) (.start bus d base) with
    | none =>
      have hno := hblocks.not.mp (by simp [hl])
      exact iff_of_false (by simp) fun hall => hno hall.2.1
    | some l =>
      have hall := hblocks.mp (by simp [hl])
      simp only [Option.bind_eq_bind, Option.bind_some]
      by_cases hrem : size % blockSize = 0
      · simpa [hrem] using ⟨hyes, hall⟩
      · cases hlast : ok (2 * (size / blockSize) + 1) with
        | false => simp [hrem]
        | true => simpa [hrem] using ⟨hyes, hall⟩

end Spec

end Onebox
