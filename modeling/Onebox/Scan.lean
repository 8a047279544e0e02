import Onebox.ByteMem
import Onebox.Calls

/-! Computations that read a memory. Their log has the positions they read, so that
bounds on the positions are a property of the computation itself. -/

namespace Scan

open ByteMem Calls

variable {α β γ : Type} {m : Nat → β} {b : Nat → UInt8} {n i a k : Nat}

def cell (m : Nat → β) (i : Nat) : Calls Nat β := ⟨[i], some (m i)⟩

def block (m : Nat → β) (a k : Nat) : Calls Nat (List β) := ⟨List.range' a k, some (window m a k)⟩

/-- Two bytes, the lower one first. -/
def le16 (b : Nat → UInt8) (a : Nat) : Nat := (b a).toNat + 256 * (b (a + 1)).toNat

def word (b : Nat → UInt8) (a : Nat) : Calls Nat Nat := ⟨[a, a + 1], some (le16 b a)⟩

/-- Every position read is below `n`. -/
def Within (n : Nat) (x : Calls Nat α) : Prop := ∀ i ∈ x.log, i < n

instance (n : Nat) (x : Calls Nat α) : Decidable (Within n x) :=
  inferInstanceAs (Decidable (∀ i ∈ x.log, i < n))

section Rules

variable {x : Calls Nat α} {f : α → Calls Nat γ} {v : α}

@[simp] theorem within_pure : Within n (pure v : Calls Nat α) := List.forall_mem_nil _

theorem within_bind (hx : x.result = some v) : Within n (x >>= f) ↔ Within n x ∧ Within n (f v) := by
  rw [bind_of_result hx]
  exact List.forall_mem_append

theorem within_bind_pure {g : α → γ} : Within n (do let v ← x; pure (g v)) ↔ Within n x := by
  cases h : x.result with
  | none => rw [bind_of_stuck h, Within, Within]
  | some v =>
    rw [within_bind h]
    exact and_iff_left within_pure

end Rules

section Reads

variable {f : β → Calls Nat γ} {g : List β → Calls Nat γ} {w : Nat → Calls Nat γ}

@[simp] theorem within_cell_bind : Within n (cell m i >>= f) ↔ i < n ∧ Within n (f (m i)) := by
  rw [within_bind rfl]
  simp [Within, cell]

@[simp] theorem within_word_bind : Within n (word b a >>= w) ↔ a + 1 < n ∧ Within n (w (le16 b a)) := by
  rw [within_bind rfl]
  refine and_congr_left' ?_
  simp only [Within, word, List.mem_cons, List.not_mem_nil, or_false, forall_eq_or_imp, forall_eq]
  omega

@[simp] theorem within_block_bind :
    Within n (block m a k >>= g) ↔ (0 < k → a + k ≤ n) ∧ Within n (g (window m a k)) := by
  rw [within_bind rfl]
  refine and_congr_left' ?_
  simp only [Within, block, List.mem_range'_1]
  constructor
  · intro h hk
    have hlast := h (a + (k - 1)) (by omega)
    omega
  · intro h i hi
    have hend := h (by omega)
    omega

@[simp] theorem result_cell_bind : (cell m i >>= f).result = (f (m i)).result := by
  rw [bind_of_result rfl]

@[simp] theorem result_word_bind : (word b a >>= w).result = (w (le16 b a)).result := by
  rw [bind_of_result rfl]

@[simp] theorem result_block_bind : (block m a k >>= g).result = (g (window m a k)).result := by
  rw [bind_of_result rfl]

end Reads

/-! Words that are put into a memory. -/

section Words

def le16Bytes (v : Nat) : List UInt8 := [UInt8.ofNat v, UInt8.ofNat (v / 256)]

def le32Bytes (v : Nat) : List UInt8 := le16Bytes v ++ le16Bytes (v / 2 ^ 16)

def le32 (b : Nat → UInt8) (a : Nat) : Nat := le16 b a + 2 ^ 16 * le16 b (a + 2)

@[simp] theorem length_le16Bytes (v : Nat) : (le16Bytes v).length = 2 := rfl

@[simp] theorem length_le32Bytes (v : Nat) : (le32Bytes v).length = 4 := rfl

/-- A word reads back from where it stands in the list that was put. -/
theorem le16_put (b : Nat → UInt8) (l r : List UInt8) (v : Nat) (ha : a = l.length) :
    le16 (put b 0 (l ++ (le16Bytes v ++ r))) a = v % 2 ^ 16 := by
  subst ha
  have hlow : put b 0 (l ++ (le16Bytes v ++ r)) l.length = UInt8.ofNat v := by
    rw [put, if_pos (Nat.zero_le _), Nat.sub_zero, List.getD_append_right _ _ _ _ (Nat.le_refl _), Nat.sub_self]
    rfl
  have hhigh : put b 0 (l ++ (le16Bytes v ++ r)) (l.length + 1) = UInt8.ofNat (v / 256) := by
    rw [put, if_pos (Nat.zero_le _), Nat.sub_zero, List.getD_append_right _ _ _ _ (Nat.le_add_right _ 1),
      Nat.add_sub_cancel_left]
    rfl
  rw [le16, hlow, hhigh, UInt8.toNat_ofNat', UInt8.toNat_ofNat']
  omega

theorem le32_put (b : Nat → UInt8) (r : List UInt8) (v : Nat) :
    le32 (put b 0 (le32Bytes v ++ r)) 0 = v % 2 ^ 32 := by
  have hlow : le16 (put b 0 (le32Bytes v ++ r)) 0 = v % 2 ^ 16 :=
    le16_put b [] (le16Bytes (v / 2 ^ 16) ++ r) v rfl
  have hhigh : le16 (put b 0 (le32Bytes v ++ r)) 2 = v / 2 ^ 16 % 2 ^ 16 :=
    le16_put b (le16Bytes v) r (v / 2 ^ 16) rfl
  rw [le32, hlow, hhigh]
  omega

end Words

end Scan
