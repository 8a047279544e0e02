import Mathlib.Data.Nat.ModEq
import Mathlib.Tactic.Ring

/-! Sequence numbers that wrap around. A number of an unbounded count is carried modulo the size of the
space; distances below that size can be read off the residues. -/

namespace SeqSpace

variable {range m n k : Nat}

def add (range a k : Nat) : Nat := (a + k) % range

def sub (range a b : Nat) : Nat := (a + range - b) % range

theorem add_mod (range n k : Nat) : add range (n % range) k = (n + k) % range := Nat.mod_add_mod n range k

theorem sub_lt (h : 0 < range) (a b : Nat) : sub range a b < range := Nat.mod_lt _ h

/-- Going back by `k`. -/
theorem sub_mod_left (hn : k ≤ n) (hk : k ≤ range) : sub range (n % range) k = (n - k) % range := by
  have hcongr : n % range + range - k + k ≡ n - k + k [MOD range] := by
    have hleft : n % range + range - k + k = n % range + range := by omega
    rw [hleft, Nat.sub_add_cancel hn]
    simp [Nat.ModEq]
  exact Nat.ModEq.add_right_cancel' _ hcongr

/-- The distance forwards. -/
theorem sub_mod (hle : m ≤ n) (hlt : n - m < range) : sub range (n % range) (m % range) = n - m := by
  have hpos : 0 < range := by omega
  have hm : n - m % range ≡ n - m [MOD range] :=
    Nat.ModEq.sub ((Nat.mod_le m range).trans hle) hle (Nat.ModEq.refl n) (Nat.mod_modEq m range)
  rw [sub_mod_left ((Nat.mod_le m range).trans hle) (Nat.mod_lt m hpos).le, hm, Nat.mod_eq_of_lt hlt]

theorem sub_mod_succ (hpos : 0 < range) (a n : Nat) :
    sub range a (n % range + 1) = sub range a ((n + 1) % range) := by
  have hlt := Nat.mod_lt n hpos
  have hmod : (n + 1) % range = (n % range + 1) % range := (Nat.mod_add_mod n range 1).symm
  by_cases hlast : n % range + 1 = range
  · rw [hmod, hlast, Nat.mod_self, sub, sub, Nat.add_sub_cancel, Nat.sub_zero, Nat.add_mod_right]
  · have hsmall : (n % range + 1) % range = n % range + 1 := Nat.mod_eq_of_lt (by omega)
    rw [hmod, hsmall]

/-- The distance to a number that has been passed. -/
theorem sub_mod_of_lt (hlt : n < m) (hle : m - n ≤ range) :
    sub range (n % range) (m % range) = range - (m - n) := by
  have hpos : 0 < range := by omega
  have hn : (n + range) % range = n % range := Nat.add_mod_right n range
  have h : sub range ((n + range) % range) (m % range) = n + range - m := sub_mod (by omega) (by omega)
  rw [hn] at h
  omega

/-- A residue stands for a number of each stretch of the length of the space. -/
theorem exists_of_residue {x : Nat} (hx : x < range) (c : Nat) :
    ∃ n, n % range = x ∧ c ≤ n ∧ n < c + range := by
  have hpos : 0 < range := by omega
  have hlt := Nat.mod_lt c hpos
  have hsum : c % range + (x + range - c % range) = x + range := by omega
  refine ⟨c + sub range x (c % range), ?_, Nat.le_add_right _ _, Nat.add_lt_add_left (sub_lt hpos _ _) c⟩
  rw [sub, Nat.add_mod_mod, ← Nat.mod_add_mod, hsum, Nat.add_mod_right, Nat.mod_eq_of_lt hx]

end SeqSpace
