import Mathlib

/-! Sums in ones-complement arithmetic of `w` bits, where a carry out of the highest bit is added at the
lowest one. Zero and `2 ^ w - 1` both stand for zero, so that a sum is known modulo `2 ^ w - 1` only; the
representative that the additions lead to is zero just when all words are zero. -/

namespace OnesComplement

variable {w a b : Nat}

/-- The representative of a number. -/
def norm (w n : Nat) : Nat := if n = 0 then 0 else (n - 1) % (2 ^ w - 1) + 1

/-- Addition with the carry brought round. -/
def endAround (w a b : Nat) : Nat := (a + b) % 2 ^ w + (a + b) / 2 ^ w

def sum (w : Nat) (ws : List Nat) : Nat := ws.foldl (endAround w) 0

theorem norm_of_lt (ha : a < 2 ^ w) : norm w a = a := by
  rw [norm]
  split_ifs with hzero
  · exact hzero.symm
  · rw [Nat.mod_eq_of_lt (by omega)]
    omega

theorem norm_lt (hw : 0 < w) : norm w a < 2 ^ w := by
  have htwo : 2 ≤ 2 ^ w := Nat.le_self_pow hw.ne' 2
  rw [norm]
  split_ifs
  · omega
  · have hmod := Nat.mod_lt (a - 1) (show 0 < 2 ^ w - 1 by omega)
    omega

theorem norm_norm_add (w a b : Nat) : norm w (norm w a + b) = norm w (a + b) := by
  by_cases ha : a = 0
  · rw [ha]
    rfl
  · have hna : norm w a = (a - 1) % (2 ^ w - 1) + 1 := if_neg ha
    rw [hna, norm, norm, if_neg (by omega), if_neg (by omega)]
    have hleft : (a - 1) % (2 ^ w - 1) + 1 + b - 1 = (a - 1) % (2 ^ w - 1) + b := by omega
    have hright : a + b - 1 = a - 1 + b := by omega
    rw [hleft, hright, Nat.mod_add_mod]

theorem endAround_of_lt (hlt : a + b < 2 ^ w) : endAround w a b = a + b := by
  rw [endAround, Nat.mod_eq_of_lt hlt, Nat.div_eq_of_lt hlt, Nat.add_zero]

theorem endAround_of_carry (ha : a < 2 ^ w) (hb : b < 2 ^ w) (hcarry : 2 ^ w ≤ a + b) :
    endAround w a b = a + b - 2 ^ w + 1 := by
  have hdiv : (a + b) / 2 ^ w = 1 := by
    rw [Nat.div_eq_iff (by omega)]
    omega
  rw [endAround, hdiv, Nat.mod_eq_sub_mod hcarry, Nat.mod_eq_of_lt (by omega)]

theorem endAround_eq_norm (ha : a < 2 ^ w) (hb : b < 2 ^ w) : endAround w a b = norm w (a + b) := by
  by_cases hlt : a + b < 2 ^ w
  · rw [endAround_of_lt hlt, norm_of_lt hlt]
  · have hmod : (a + b - 1) % (2 ^ w - 1) = a + b - 1 - (2 ^ w - 1) := by
      rw [Nat.mod_eq_sub_mod (by omega), Nat.mod_eq_of_lt (by omega)]
    rw [endAround_of_carry ha hb (Nat.le_of_not_lt hlt), norm, if_neg (by omega), hmod]
    omega

theorem foldl_endAround (hw : 0 < w) (a : Nat) (ws : List Nat) (hws : ∀ b ∈ ws, b < 2 ^ w) :
    ws.foldl (endAround w) (norm w a) = norm w (a + ws.sum) := by
  induction ws generalizing a with
  | nil => rfl
  | cons b ws ih =>
    rw [List.forall_mem_cons] at hws
    rw [List.foldl_cons, endAround_eq_norm (norm_lt hw) hws.1, norm_norm_add, ih _ hws.2, List.sum_cons,
      Nat.add_assoc]

theorem sum_eq_norm (hw : 0 < w) {ws : List Nat} (hws : ∀ b ∈ ws, b < 2 ^ w) : sum w ws = norm w ws.sum := by
  have hfold := foldl_endAround hw 0 ws hws
  rwa [Nat.zero_add] at hfold

/-- An unsigned sum below one of its summands has lost a carry. -/
theorem toNat_add_carry (x y : BitVec w) :
    (if x + y < y then x + y + 1 else x + y).toNat = endAround w x.toNat y.toNat := by
  have hx := x.isLt
  have hy := y.isLt
  by_cases hcarry : x.toNat + y.toNat < 2 ^ w
  · have hsum : (x + y).toNat = x.toNat + y.toNat := by rw [BitVec.toNat_add, Nat.mod_eq_of_lt hcarry]
    have hnot : ¬ x + y < y := by
      rw [BitVec.lt_def, hsum]
      omega
    rw [if_neg hnot, hsum, endAround_of_lt hcarry]
  · have hsum : (x + y).toNat = x.toNat + y.toNat - 2 ^ w := by
      rw [BitVec.toNat_add, Nat.mod_eq_sub_mod (by omega), Nat.mod_eq_of_lt (by omega)]
    have hlost : x + y < y := by
      rw [BitVec.lt_def, hsum]
      omega
    have hone : (1 : BitVec w).toNat = 1 := by
      show (1#w).toNat = 1
      rw [BitVec.toNat_ofNat, Nat.mod_eq_of_lt (by omega)]
    rw [if_pos hlost, BitVec.toNat_add, hsum, hone, Nat.mod_eq_of_lt (by omega),
      endAround_of_carry hx hy (Nat.le_of_not_lt hcarry)]

/-- A sum and its complement make all ones, which is zero again. -/
theorem norm_add_compl (hw : 0 < w) (a : Nat) : norm w (a + (2 ^ w - 1 - norm w a)) = 2 ^ w - 1 := by
  have hlt : norm w a < 2 ^ w := norm_lt hw
  rw [← norm_norm_add, Nat.add_sub_cancel' (by omega), norm_of_lt (by omega)]

end OnesComplement
