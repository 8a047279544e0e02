import Onebox.OnesComplement
import Onebox.Scan

/-! The checksum of the calibration data: `checksum_32bit` over the segments of a scatter list. -/

namespace Onebox

open ByteMem OnesComplement Scan

/-- A segment: the memory from its address on, and its length. -/
structure Scatter where
  buf : Nat → UInt8
  size : Nat

def Scatter.bytes (s : Scatter) : List UInt8 := window s.buf 0 s.size

/-- Adds a word, and one more where the sum shows that a carry is lost. -/
def accumulate (sum dword : BitVec 32) : BitVec 32 :=
  if sum + dword < dword then sum + dword + 1 else sum + dword

def dwordAt (buf : Nat → UInt8) (cnt : Nat) : BitVec 32 := BitVec.ofNat 32 (le32 buf cnt)

def checksumAddition (buf : Nat → UInt8) (size : Nat) (prevSum : BitVec 32) : BitVec 32 :=
  if size = 0 then prevSum
  else
    -- `cnt` runs over the multiples of 4 below `size & ~0x3` and is left there
    let sum := (List.range (size / 4)).foldl (fun sum k => accumulate sum (dwordAt buf (4 * k))) prevSum
    if size % 4 ≠ 0 then
      -- the word read goes beyond the segment, of which the mask keeps the valid bytes
      accumulate sum (dwordAt buf (4 * (size / 4)) &&& ~~~(0xffffffff#32 <<< (8 * (size % 4))))
    else sum

def checksum32bit (scatters : List Scatter) : BitVec 32 :=
  ~~~scatters.foldl (fun sum s => checksumAddition s.buf s.size sum) 0

/-- The little-endian words of some bytes, with zeros behind them up to a multiple of four. -/
def leWords (bs : List UInt8) : List Nat :=
  (List.range ((bs.length + 3) / 4)).map fun k => le32 (fun i => bs.getD i 0) (4 * k)

def bytesOf (scatters : List Scatter) : List UInt8 := scatters.flatMap Scatter.bytes

section Words

variable {buf : Nat → UInt8} {a b : List UInt8} {k : Nat}

theorem le32_lt (buf : Nat → UInt8) (k : Nat) : le32 buf k < 2 ^ 32 := by
  have h0 := (buf k).toNat_lt
  have h1 := (buf (k + 1)).toNat_lt
  have h2 := (buf (k + 2)).toNat_lt
  have h3 := (buf (k + 2 + 1)).toNat_lt
  simp only [le32, le16]
  omega

theorem le32_congr {c : Nat → UInt8} (h : ∀ j < 4, buf (k + j) = c (k + j)) : le32 buf k = le32 c k := by
  have h0 := h 0 (by decide)
  have h1 := h 1 (by decide)
  have h2 := h 2 (by decide)
  have h3 := h 3 (by decide)
  rw [Nat.add_zero] at h0
  simp only [le32, le16, h0, h1, h2, Nat.add_assoc, h3]

theorem toNat_dwordAt (buf : Nat → UInt8) (k : Nat) : (dwordAt buf k).toNat = le32 buf k := by
  rw [dwordAt, BitVec.toNat_ofNat, Nat.mod_eq_of_lt (le32_lt buf k)]

/-- The mask leaves what the bytes below the end are worth. -/
theorem toNat_masked (hk : 4 * k < a.length) (hlast : a.length < 4 * k + 4)
    (hbuf : ∀ i < a.length, buf i = a.getD i 0) :
    (dwordAt buf (4 * k) &&& ~~~(0xffffffff#32 <<< (8 * (a.length % 4)))).toNat =
      le32 (fun i => a.getD i 0) (4 * k) := by
  have hmask : ∀ r < 4, 0 < r → (~~~(0xffffffff#32 <<< (8 * r))).toNat = 2 ^ (8 * r) - 1 := by decide
  have hzero : ∀ i, a.length ≤ i → a.getD i 0 = 0 := fun i hi => List.getD_eq_default _ _ hi
  have h0 := (buf (4 * k)).toNat_lt
  have h1 := (buf (4 * k + 1)).toNat_lt
  have h2 := (buf (4 * k + 2)).toNat_lt
  rw [BitVec.toNat_and, toNat_dwordAt, hmask _ (by omega) (by omega), Nat.and_two_pow_sub_one_eq_mod]
  simp only [le32, le16, Nat.add_assoc, Nat.reduceAdd]
  rw [← hbuf (4 * k) hk, hzero (4 * k + 3) (by omega)]
  -- one, two or three bytes are left
  obtain hlen | hlen | hlen : a.length = 4 * k + 1 ∨ a.length = 4 * k + 2 ∨ a.length = 4 * k + 3 := by omega
  · have hr : a.length % 4 = 1 := by omega
    rw [hr, hzero (4 * k + 1) (by omega), hzero (4 * k + 2) (by omega)]
    simp only [UInt8.toNat_zero]
    omega
  · have hr : a.length % 4 = 2 := by omega
    rw [hr, ← hbuf (4 * k + 1) (by omega), hzero (4 * k + 2) (by omega)]
    simp only [UInt8.toNat_zero]
    omega
  · have hr : a.length % 4 = 3 := by omega
    rw [hr, ← hbuf (4 * k + 1) (by omega), ← hbuf (4 * k + 2) (by omega)]
    simp only [UInt8.toNat_zero]
    omega

theorem leWords_append (ha : 4 ∣ a.length) : leWords (a ++ b) = leWords a ++ leWords b := by
  obtain ⟨n, hn⟩ := ha
  have hcount : ((a ++ b).length + 3) / 4 = (a.length + 3) / 4 + (b.length + 3) / 4 := by
    rw [List.length_append]
    omega
  rw [leWords, hcount, List.range_add, List.map_append, List.map_map, leWords, leWords]
  congr 1
  · refine List.map_congr_left fun k hk => le32_congr fun j hj => ?_
    rw [List.mem_range] at hk
    exact List.getD_append _ _ _ _ (by omega)
  · refine List.map_congr_left fun k _ => ?_
    have hoff : (a.length + 3) / 4 = n := by omega
    simp only [Function.comp_apply, hoff]
    have hget : ∀ i, (a ++ b).getD (a.length + i) 0 = b.getD i 0 := by
      intro i
      rw [List.getD_append_right _ _ _ _ (by omega), Nat.add_sub_cancel_left]
    rw [Nat.mul_add, ← hn]
    simp only [le32, le16, Nat.add_assoc, hget]

theorem leWords_lt (a : List UInt8) : ∀ v ∈ leWords a, v < 2 ^ 32 := by
  rw [leWords, List.forall_mem_map]
  exact fun k _ => le32_lt _ _

theorem leWords_le32Bytes (v : BitVec 32) : leWords (le32Bytes v.toNat) = [v.toNat] := by
  have hv := v.isLt
  have hword : le32 (fun i => (le32Bytes v.toNat).getD i 0) 0 = v.toNat := by
    simp only [le32, le16, le32Bytes, le16Bytes, List.cons_append, List.nil_append, Nat.zero_add, Nat.reduceAdd,
      List.getD_cons_zero, List.getD_cons_succ, UInt8.toNat_ofNat']
    omega
  rw [leWords, length_le32Bytes]
  exact congrArg (fun w => [w]) hword

theorem leWords_window (buf : Nat → UInt8) (size : Nat) :
    leWords (window buf 0 size) = (List.range (size / 4)).map (fun k => le32 buf (4 * k)) ++
      if size % 4 ≠ 0 then [le32 (fun i => (window buf 0 size).getD i 0) (4 * (size / 4))] else [] := by
  have hwords : ∀ k ∈ List.range (size / 4),
      le32 (fun i => (window buf 0 size).getD i 0) (4 * k) = le32 buf (4 * k) := by
    intro k hk
    rw [List.mem_range] at hk
    refine le32_congr fun j hj => ?_
    rw [getD_window (by omega), Nat.zero_add]
  rw [leWords, length_window]
  split_ifs with hrem
  · rw [show (size + 3) / 4 = size / 4 + 1 by omega, List.range_succ, List.map_append,
      List.map_congr_left hwords, List.map_singleton]
  · rw [show (size + 3) / 4 = size / 4 by omega, List.append_nil, List.map_congr_left hwords]

end Words

section Sums

variable {sum : BitVec 32} {n : Nat}

theorem accumulate_norm (h : sum.toNat = norm 32 n) (dword : BitVec 32) :
    (accumulate sum dword).toNat = norm 32 (n + dword.toNat) := by
  rw [accumulate, toNat_add_carry, endAround_eq_norm sum.isLt dword.isLt, h, norm_norm_add]

theorem foldl_accumulate_norm (dword : Nat → BitVec 32) (ks : List Nat) (h : sum.toNat = norm 32 n) :
    (ks.foldl (fun sum k => accumulate sum (dword k)) sum).toNat =
      norm 32 (n + (ks.map fun k => (dword k).toNat).sum) := by
  induction ks generalizing sum n with
  | nil => exact h
  | cons k ks ih =>
    rw [List.foldl_cons, ih (accumulate_norm h (dword k)), List.map_cons, List.sum_cons, Nat.add_assoc]

theorem checksumAddition_norm (s : Scatter) (h : sum.toNat = norm 32 n) :
    (checksumAddition s.buf s.size sum).toNat = norm 32 (n + (leWords s.bytes).sum) := by
  rw [checksumAddition, Scatter.bytes]
  by_cases hzero : s.size = 0
  · have hnone : leWords (window s.buf 0 0) = [] := by simp [leWords]
    rw [if_pos hzero, hzero, hnone]
    exact h
  · have hwhole := foldl_accumulate_norm (fun k => dwordAt s.buf (4 * k)) (List.range (s.size / 4)) h
    simp only [toNat_dwordAt] at hwhole
    rw [if_neg hzero, leWords_window, List.sum_append, ← Nat.add_assoc]
    split_ifs with hrem
    · have hbuf : ∀ i < (window s.buf 0 s.size).length, s.buf i = (window s.buf 0 s.size).getD i 0 := by
        intro i hi
        rw [length_window] at hi
        rw [getD_window hi, Nat.zero_add]
      have hfull : 4 * (s.size / 4) < (window s.buf 0 s.size).length := by rw [length_window]; omega
      have hmask := toNat_masked hfull (by rw [length_window]; omega) hbuf
      rw [length_window] at hmask
      rw [accumulate_norm hwhole, hmask, List.sum_singleton]
    · exact hwhole

/-- Segments of whole words, but for the last one, add the words of all their bytes. -/
theorem foldl_checksumAddition_norm {scatters : List Scatter} (hsizes : ∀ s ∈ scatters.dropLast, 4 ∣ s.size)
    (h : sum.toNat = norm 32 n) :
    (scatters.foldl (fun sum s => checksumAddition s.buf s.size sum) sum).toNat =
      norm 32 (n + (leWords (bytesOf scatters)).sum) := by
  induction scatters generalizing sum n with
  | nil => exact h
  | cons s rest ih =>
    have hfirst := checksumAddition_norm s h
    cases rest with
    | nil => simpa [bytesOf] using hfirst
    | cons s' rest =>
      rw [List.dropLast_cons_cons, List.forall_mem_cons] at hsizes
      have hlen : 4 ∣ s.bytes.length := by
        rw [Scatter.bytes, length_window]
        exact hsizes.1
      have hbytes : bytesOf (s :: s' :: rest) = s.bytes ++ bytesOf (s' :: rest) := List.flatMap_cons
      rw [List.foldl_cons, ih hsizes.2 hfirst, hbytes, leWords_append hlen, List.sum_append, Nat.add_assoc]

end Sums

theorem toNat_checksum32bit {scatters : List Scatter} (hsizes : ∀ s ∈ scatters.dropLast, 4 ∣ s.size) :
    (checksum32bit scatters).toNat = 2 ^ 32 - 1 - norm 32 (leWords (bytesOf scatters)).sum := by
  rw [checksum32bit, BitVec.toNat_not, foldl_checksumAddition_norm (n := 0) hsizes rfl, Nat.zero_add]

/-- The checksum is the complement of the ones-complement sum of the words, so it depends on the bytes only,
and with the checksum behind them they have the checksum zero. -/
theorem checksum32bit_sum {scatters : List Scatter} (hsizes : ∀ s ∈ scatters.dropLast, 4 ∣ s.size) :
    checksum32bit scatters = ~~~BitVec.ofNat 32 (sum 32 (leWords (bytesOf scatters))) ∧
    (∀ others : List Scatter, (∀ s ∈ others.dropLast, 4 ∣ s.size) → bytesOf others = bytesOf scatters →
      checksum32bit others = checksum32bit scatters) ∧
    (4 ∣ (bytesOf scatters).length → ∀ whole : List Scatter, (∀ s ∈ whole.dropLast, 4 ∣ s.size) →
      bytesOf whole = bytesOf scatters ++ le32Bytes (checksum32bit scatters).toNat → checksum32bit whole = 0) := by
  have hsum := toNat_checksum32bit hsizes
  refine ⟨BitVec.eq_of_toNat_eq ?_, fun others hothers hbytes => BitVec.eq_of_toNat_eq ?_,
    fun haligned whole hwhole hbytes => BitVec.eq_of_toNat_eq ?_⟩
  · rw [hsum, BitVec.toNat_not, BitVec.toNat_ofNat, sum_eq_norm (by decide) (leWords_lt _),
      Nat.mod_eq_of_lt (norm_lt (by decide))]
  · rw [hsum, toNat_checksum32bit hothers, hbytes]
  · rw [toNat_checksum32bit hwhole, hbytes, leWords_append haligned, List.sum_append, leWords_le32Bytes,
      List.sum_singleton, hsum, norm_add_compl (by decide)]
    rfl

theorem checksum32bit_two_segments :
    (∀ s ∈ [⟨fun i => UInt8.ofNat (i + 1), 4⟩, (⟨fun _ => 0xff, 3⟩ : Scatter)].dropLast, 4 ∣ s.size) ∧
      checksum32bit [⟨fun i => UInt8.ofNat (i + 1), 4⟩, ⟨fun _ => 0xff, 3⟩] =
        ~~~BitVec.ofNat 32 (sum 32 [0x04030201, 0x00ffffff]) :=
  ⟨by decide, (checksum32bit_sum (by decide)).1⟩

end Onebox
