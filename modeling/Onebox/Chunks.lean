import Mathlib

/-! Data of `size` cells cut into chunks of `c`, the last of which may be shorter. -/

namespace Chunks

variable {c size idx : Nat}

def count (c size : Nat) : Nat := if size % c = 0 then size / c else size / c + 1

/-- The length of a chunk: what is left of the data, at most `c`. -/
def len (c size idx : Nat) : Nat := min (size - idx * c) c

/-- How much of the data the chunks before `idx` hold. -/
def before (c size idx : Nat) : Nat := min (idx * c) size

theorem lt_count_iff (hc : 0 < c) : idx < count c size ↔ idx * c < size := by
  have hsize := Nat.div_add_mod' size c
  have hmod := Nat.mod_lt size hc
  rw [count]
  split_ifs with hrem
  · rw [Nat.lt_div_iff_mul_lt_of_dvd (by omega) (Nat.dvd_of_mod_eq_zero hrem)]
  · constructor
    · intro hlt
      have hle := Nat.mul_le_mul_right c (show idx ≤ size / c by omega)
      omega
    · intro hlt
      have hle := Nat.div_le_div_right (c := c) hlt.le
      rw [Nat.mul_div_cancel _ hc] at hle
      omega

@[simp] theorem count_zero : count c 0 = 0 := by simp [count]

/-- Without its first chunk the data has one chunk less. -/
theorem count_sub_min (hc : 0 < c) (hsize : 0 < size) : count c size = count c (size - min size c) + 1 := by
  by_cases hle : size ≤ c
  · rw [Nat.min_eq_left hle, Nat.sub_self, count_zero, count]
    rcases Nat.lt_or_eq_of_le hle with hlt | rfl
    · rw [Nat.mod_eq_of_lt hlt, Nat.div_eq_of_lt hlt, if_neg (by omega)]
    · rw [Nat.mod_self, Nat.div_self hc, if_pos rfl]
  · obtain ⟨k, rfl⟩ := Nat.exists_eq_add_of_le' (show c ≤ size by omega)
    rw [Nat.min_eq_right (by omega), Nat.add_sub_cancel, count, count, Nat.add_mod_right, Nat.add_div_right k hc]
    split_ifs <;> rfl

theorem len_le : len c size idx ≤ c := Nat.min_le_right _ _

@[simp] theorem before_zero : before c size 0 = 0 := by rw [before, Nat.zero_mul, Nat.zero_min]

theorem before_le : before c size idx ≤ size := Nat.min_le_right _ _

theorem before_of_lt (h : idx * c < size) : before c size idx = idx * c := Nat.min_eq_left h.le

/-- A chunk follows on those before it. -/
theorem before_succ : before c size (idx + 1) = before c size idx + len c size idx := by
  rw [before, before, len, Nat.succ_mul]
  omega

theorem before_count (hc : 0 < c) : before c size (count c size) = size := by
  have hnot : ¬ count c size < count c size := Nat.lt_irrefl _
  rw [lt_count_iff hc] at hnot
  exact Nat.min_eq_right (by omega)

/-- The chunks cover the data. -/
theorem forall_lt_iff (hc : 0 < c) {P : Nat → Prop} :
    (∀ j < size, P j) ↔ ∀ idx < count c size, ∀ i < len c size idx, P (idx * c + i) := by
  constructor
  · intro h idx _ i hi
    rw [len] at hi
    exact h _ (by omega)
  · intro h j hj
    have hsplit := Nat.div_add_mod' j c
    have hmod := Nat.mod_lt j hc
    have hidx : j / c < count c size := (lt_count_iff hc).mpr (by omega)
    have hi : j % c < len c size (j / c) := by
      rw [len]
      omega
    have hp := h (j / c) hidx (j % c) hi
    rw [hsplit] at hp
    exact hp

end Chunks
