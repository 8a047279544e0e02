import Mathlib

/-! Memories as functions of the address, blocks copied between them and windows
read from them. Copies of adjacent blocks are one copy. -/

namespace ByteMem

variable {α : Type*} {m src : Nat → α} {a b n k : Nat}

/-- The memory after `n` cells of `src` from `b` on have been copied to `a`. -/
def copy (m : Nat → α) (a : Nat) (src : Nat → α) (b n : Nat) : Nat → α :=
  fun i => if a ≤ i ∧ i < a + n then src (b + (i - a)) else m i

def window (m : Nat → α) (a n : Nat) : List α := (List.range n).map fun i => m (a + i)

@[simp] theorem length_window : (window m a n).length = n := by simp [window]

theorem getD_window {i : Nat} {d : α} (hi : i < n) : (window m a n).getD i d = m (a + i) := by
  simp [window, hi]

theorem copy_of_mem {i : Nat} (hi : i < n) : copy m a src b n (a + i) = src (b + i) := by
  rw [copy, if_pos (by omega), Nat.add_sub_cancel_left]

theorem copy_of_not_mem {i : Nat} (hi : i < a ∨ a + n ≤ i) : copy m a src b n i = m i :=
  if_neg (by omega)

@[simp] theorem copy_zero : copy m a src b 0 = m := by
  funext i
  exact copy_of_not_mem (by omega)

theorem copy_copy (m src : Nat → α) (a b n k : Nat) :
    copy (copy m a src b n) (a + n) src (b + n) k = copy m a src b (n + k) := by
  funext i
  by_cases hi : a ≤ i ∧ i < a + (n + k)
  · obtain ⟨j, rfl⟩ := Nat.exists_eq_add_of_le hi.1
    rw [copy_of_mem (n := n + k) (by omega)]
    by_cases hj : j < n
    · rw [copy_of_not_mem (by omega), copy_of_mem hj]
    · obtain ⟨l, rfl⟩ := Nat.exists_eq_add_of_le (Nat.le_of_not_lt hj)
      rw [← Nat.add_assoc, copy_of_mem (by omega), Nat.add_assoc]
  · rw [copy_of_not_mem (n := n + k) (by omega), copy_of_not_mem (by omega), copy_of_not_mem (by omega)]

/-- The memory after `n` cells from `b` on have been copied to `a` one by one, upwards. -/
def forward (m : Nat → α) (a b : Nat) : Nat → Nat → α
  | 0 => m
  | n + 1 => Function.update (forward m a b n) (a + n) (forward m a b n (b + n))

/-- Downwards the blocks may overlap: each cell is read before it is overwritten. -/
theorem forward_eq_copy (h : a ≤ b) : forward m a b n = copy m a m b n := by
  induction n with
  | zero => rw [forward, copy_zero]
  | succ n ih =>
    have hread : copy m a m b n (b + n) = m (b + n) := copy_of_not_mem (by omega)
    rw [forward, ih, hread]
    funext i
    by_cases hi : i = a + n
    · subst hi
      rw [Function.update_self, copy_of_mem n.lt_succ_self]
    · rw [Function.update_of_ne hi, copy, copy]
      congr 1
      simp only [eq_iff_iff]
      omega

theorem window_add : window m a (n + k) = window m a n ++ window m (a + n) k := by
  rw [window, List.range_add, List.map_append, List.map_map]
  simp only [window, Function.comp_def, Nat.add_assoc]

theorem window_copy : window (copy m a src b n) a n = window src b n :=
  List.map_congr_left fun _ hi => copy_of_mem (List.mem_range.mp hi)

theorem window_shift : window (fun i => m (b + i)) a n = window m (b + a) n := by
  simp only [window, Nat.add_assoc]

theorem window_eq_iff : window m a n = window src b n ↔ ∀ i < n, m (a + i) = src (b + i) := by
  rw [window, window, List.map_inj_left]
  simp only [List.mem_range]

theorem window_eq_cons {x : α} {l : List α} (h : window m a n = x :: l) :
    0 < n ∧ m a = x ∧ window m (a + 1) (n - 1) = l := by
  cases n with
  | zero => cases h
  | succ n =>
    rw [Nat.add_comm, window_add] at h
    obtain ⟨hx, hl⟩ := List.cons.inj (show m (a + 0) :: window m (a + 1) n = x :: l from h)
    exact ⟨n.succ_pos, hx, hl⟩

theorem window_eq_append {l l' : List α} (h : window m a n = l ++ l') :
    l.length ≤ n ∧ window m (a + l.length) (n - l.length) = l' := by
  induction l generalizing a n with
  | nil => exact ⟨n.zero_le, h⟩
  | cons x l ih =>
    obtain ⟨hpos, -, hrest⟩ := window_eq_cons h
    obtain ⟨hle, htail⟩ := ih hrest
    rw [List.length_cons]
    refine ⟨by omega, ?_⟩
    rw [← htail]
    congr 1 <;> omega

/-! Lists of cells that are put into a memory. -/

section Put

variable {l l' : List α} {i : Nat} {d : α}

def put (m : Nat → α) (a : Nat) (l : List α) : Nat → α :=
  fun i => if a ≤ i then l.getD (i - a) (m i) else m i

theorem put_of_lt (hi : i < l.length) : put m a l (a + i) = l.getD i d := by
  rw [put, if_pos (Nat.le_add_right a i), Nat.add_sub_cancel_left, List.getD_eq_getElem _ _ hi,
    List.getD_eq_getElem _ _ hi]

theorem put_of_not_mem (hi : i < a ∨ a + l.length ≤ i) : put m a l i = m i := by
  rw [put]
  split_ifs with hle
  · exact List.getD_eq_default _ _ (by omega)
  · rfl

theorem put_append (m : Nat → α) (a : Nat) (l l' : List α) :
    put (put m a l) (a + l.length) l' = put m a (l ++ l') := by
  funext i
  rw [put, put, put]
  by_cases hlow : a ≤ i
  · rw [if_pos hlow, if_pos hlow]
    by_cases hmid : a + l.length ≤ i
    · rw [if_pos hmid, List.getD_append_right _ _ _ _ (by omega), List.getD_eq_default l _ (by omega)]
      congr 1
      omega
    · rw [if_neg hmid, List.getD_append _ _ _ _ (by omega)]
  · rw [if_neg hlow, if_neg (by omega), if_neg hlow]

/-- A list put over the beginning of another one. -/
theorem put_put (m : Nat → α) (a : Nat) (l l' : List α) :
    put (put m a l) a l' = put m a (l' ++ l.drop l'.length) := by
  funext i
  rw [put, put, put]
  by_cases hlow : a ≤ i
  · rw [if_pos hlow, if_pos hlow, if_pos hlow]
    by_cases hin : i - a < l'.length
    · rw [List.getD_append _ _ _ _ hin, List.getD_eq_getElem _ _ hin, List.getD_eq_getElem _ _ hin]
    · have hge : l'.length ≤ i - a := Nat.not_lt.mp hin
      rw [List.getD_eq_default l' _ hge, List.getD_append_right _ _ _ _ hge, List.getD_eq_getElem?_getD,
        List.getD_eq_getElem?_getD, List.getElem?_drop, Nat.add_sub_cancel' hge]
  · rw [if_neg hlow, if_neg hlow, if_neg hlow]

theorem window_eq_take (hk : k ≤ l.length) (h : ∀ i < k, m (a + i) = l.getD i d) : window m a k = l.take k := by
  apply List.ext_getElem
  · simp [hk]
  · intro i hi _
    rw [length_window] at hi
    have hl : i < l.length := by omega
    have hm := h i hi
    rw [List.getD_eq_getElem _ _ hl] at hm
    simpa [window] using hm

theorem put_singleton (x : α) : put m a [x] = Function.update m a x := by
  funext i
  by_cases hi : i = a
  · subst hi
    simp [put]
  · rw [Function.update_of_ne hi, put_of_not_mem]
    rw [List.length_singleton]
    omega

theorem update_put (x : α) (hk : k = a + l.length) : Function.update (put m a l) k x = put m a (l ++ [x]) := by
  rw [hk, ← put_append, put_singleton]

theorem window_put : window (put m a l) a l.length = l := by
  cases l with
  | nil => rfl
  | cons x l =>
    rw [window_eq_take (Nat.le_refl _) fun i hi => put_of_lt (d := x) hi, List.take_length]

end Put

/-! Addresses of `w` bits, which wrap around. -/

def wrapCopy {w : Nat} (m : BitVec w → α) (a : BitVec w) (src : Nat → α) (b n : Nat) : BitVec w → α :=
  fun x => if (x - a).toNat < n then src (b + (x - a).toNat) else m x

section Wrap

variable {w : Nat} {m : BitVec w → α} {a : BitVec w} {src : Nat → α} {b n i : Nat}

theorem toNat_sub_add_ofNat (x a : BitVec w) (hn : n < 2 ^ w) :
    (x - (a + BitVec.ofNat w n)).toNat =
      if n ≤ (x - a).toNat then (x - a).toNat - n else (x - a).toNat + 2 ^ w - n := by
  have hlt := (x - a).isLt
  rw [sub_add_eq_sub_sub, BitVec.toNat_sub, BitVec.toNat_ofNat, Nat.mod_eq_of_lt hn]
  split_ifs with hle
  · have hsum : 2 ^ w - n + (x - a).toNat = (x - a).toNat - n + 2 ^ w := by omega
    rw [hsum, Nat.add_mod_right, Nat.mod_eq_of_lt (by omega)]
  · rw [Nat.mod_eq_of_lt (by omega)]
    omega

/-- What a copy at the offset `o` leaves at the offset `i`. -/
theorem wrapCopy_offset {o : Nat} (hi : i < 2 ^ w) (ho : o < 2 ^ w) (hn : o + n ≤ 2 ^ w) :
    wrapCopy m (a + BitVec.ofNat w o) src b n (a + BitVec.ofNat w i) =
      if o ≤ i ∧ i < o + n then src (b + (i - o)) else m (a + BitVec.ofNat w i) := by
  have hsub : (a + BitVec.ofNat w i - a).toNat = i := by
    rw [add_sub_cancel_left, BitVec.toNat_ofNat, Nat.mod_eq_of_lt hi]
  have hoff := toNat_sub_add_ofNat (a + BitVec.ofNat w i) a ho
  rw [hsub] at hoff
  rw [wrapCopy, hoff]
  by_cases hle : o ≤ i
  · rw [if_pos hle]
    by_cases hlt : i < o + n
    · rw [if_pos (by omega), if_pos ⟨hle, hlt⟩]
    · rw [if_neg (by omega), if_neg (by omega)]
  · rw [if_neg hle, if_neg (by omega), if_neg (by omega)]

/-- Memories are told apart by what they hold at the offsets from any base. -/
theorem eq_wrapCopy {m' : BitVec w → α} (hin : ∀ i < n, m' (a + BitVec.ofNat w i) = src (b + i))
    (hout : ∀ i < 2 ^ w, n ≤ i → m' (a + BitVec.ofNat w i) = m (a + BitVec.ofNat w i)) :
    m' = wrapCopy m a src b n := by
  funext x
  have hx : a + BitVec.ofNat w (x - a).toNat = x := by
    rw [BitVec.ofNat_toNat, BitVec.setWidth_eq, add_sub_cancel]
  rw [wrapCopy]
  by_cases hlt : (x - a).toNat < n
  · have hsrc := hin _ hlt
    rw [hx] at hsrc
    rw [if_pos hlt, hsrc]
  · have hold := hout _ (x - a).isLt (Nat.not_lt.mp hlt)
    rw [hx] at hold
    rw [if_neg hlt, hold]

end Wrap
end ByteMem
