import Mathlib

/-! How the members of a C structure are placed: each at the next multiple of its alignment, and padding
behind the last one up to a multiple of the largest. A structure may end in an array of bytes of which a
part only is in use; then its length is often taken from `sizeof`, which counts the padding as well. -/

namespace CLayout

structure Member where
  size : Nat
  align : Nat

def byte : Member := ⟨1, 1⟩

def half : Member := ⟨2, 2⟩

def bytes (n : Nat) : Member := ⟨n, 1⟩

def alignUp (a n : Nat) : Nat := (n + (a - 1)) / a * a

/-- Where the members end. -/
def extent (ms : List Member) : Nat := ms.foldl (fun n m => alignUp m.align n + m.size) 0

def offset (ms : List Member) (i : Nat) : Nat := alignUp (ms.getD i byte).align (extent (ms.take i))

def align (ms : List Member) : Nat := (ms.map Member.align).foldr max 1

def sizeof (ms : List Member) : Nat := alignUp (align ms) (extent ms)

section AlignUp

variable {a n : Nat}

theorem le_alignUp (ha : 0 < a) : n ≤ alignUp a n := by
  have hmod := Nat.mod_lt (n + (a - 1)) ha
  have hsplit := Nat.div_add_mod' (n + (a - 1)) a
  rw [alignUp]
  omega

theorem alignUp_lt (ha : 0 < a) : alignUp a n < n + a := by
  have hle := Nat.div_mul_le_self (n + (a - 1)) a
  rw [alignUp]
  omega

theorem alignUp_eq_self_iff (ha : 0 < a) : alignUp a n = n ↔ a ∣ n := by
  constructor
  · intro h
    rw [← h]
    exact Nat.dvd_mul_left a _
  · rintro ⟨k, rfl⟩
    have hdiv : (a * k + (a - 1)) / a = k := by
      rw [Nat.mul_add_div ha, Nat.div_eq_of_lt (by omega), Nat.add_zero]
    rw [alignUp, hdiv, Nat.mul_comm]

end AlignUp

theorem align_pos (ms : List Member) : 0 < align ms := by
  induction ms with
  | nil => exact Nat.one_pos
  | cons m ms ih => exact lt_max_of_lt_right ih

/-- A structure that ends in an array of `room` bytes. -/
structure Tailed where
  fixed : List Member
  room : Nat

namespace Tailed

variable (s : Tailed)

def members : List Member := s.fixed ++ [bytes s.room]

def tail : Nat := offset s.members s.fixed.length

def sizeof : Nat := CLayout.sizeof s.members

theorem extent_members : extent s.members = s.tail + s.room := by
  have hget : s.members.getD s.fixed.length byte = bytes s.room := by simp [members]
  have htake : s.members.take s.fixed.length = s.fixed := List.take_left
  rw [tail, offset, hget, htake, extent, members, List.foldl_append]
  rfl

theorem le_sizeof : s.tail + s.room ≤ s.sizeof := by
  rw [← extent_members]
  exact le_alignUp (align_pos _)

theorem sizeof_lt : s.sizeof < s.tail + s.room + align s.members := by
  rw [← extent_members]
  exact alignUp_lt (align_pos _)

theorem sizeof_eq_iff : s.sizeof = s.tail + s.room ↔ align s.members ∣ s.tail + s.room := by
  rw [← extent_members]
  exact alignUp_eq_self_iff (align_pos _)

/-- The length that is taken from `sizeof`, in a byte, counts `n` bytes of the array just if there is no
padding and the length fits. -/
theorem length_eq_iff (halign : align s.members ≤ 2 ^ 8) (n : Nat) :
    (s.sizeof - s.room + n) % 2 ^ 8 = s.tail + n ↔ align s.members ∣ s.tail + s.room ∧ s.tail + n < 2 ^ 8 := by
  have hle := s.le_sizeof
  have hlt := s.sizeof_lt
  rw [← sizeof_eq_iff]
  omega

end Tailed

end CLayout
