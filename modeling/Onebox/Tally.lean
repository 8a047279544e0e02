import Mathlib

/-! Totals over a table. Each entry of a list has a weight, and a total is kept beside the list; when one
entry is replaced, removed or added, the total changes by the weights of that entry only. -/

namespace Tally

variable {ε M : Type*}

section Entry

variable {es : List ε} {i : ℕ} {x : ε}

theorem split_entry (h : es[i]? = some x) :
    ∃ l₁ l₂, es = l₁ ++ x :: l₂ ∧ (∀ y, es.set i y = l₁ ++ y :: l₂) ∧ es.eraseIdx i = l₁ ++ l₂ := by
  have hi := List.getElem?_eq_some_iff.mp h
  have hset : ∀ y, es.set i y = es.take i ++ y :: es.drop (i + 1) := fun y => by
    rw [List.set_eq_take_append_cons_drop, if_pos hi.1]
  refine ⟨es.take i, es.drop (i + 1), ?_, hset, List.eraseIdx_eq_take_drop_succ _ _⟩
  rw [← hset, ← hi.2, List.set_getElem_self]

theorem perm_entry (h : es[i]? = some x) : es.Perm (x :: es.eraseIdx i) := by
  obtain ⟨l₁, l₂, hes, -, herase⟩ := split_entry h
  rw [herase, hes]
  exact List.perm_middle

theorem perm_set (h : es[i]? = some x) (y : ε) : (es.set i y).Perm (y :: es.eraseIdx i) := by
  obtain ⟨l₁, l₂, -, hset, herase⟩ := split_entry h
  rw [herase, hset]
  exact List.perm_middle

end Entry

section Monoid

variable [AddCommMonoid M] {w : ε → M} {es : List ε} {i : ℕ} {x y : ε}

def total (w : ε → M) (es : List ε) : M := (es.map w).sum

theorem total_cons (w : ε → M) (x : ε) (es : List ε) : total w (x :: es) = w x + total w es := by
  rw [total, List.map_cons, List.sum_cons, total]

theorem total_eq_add (h : es[i]? = some x) : total w es = w x + total w (es.eraseIdx i) := by
  rw [total, ((perm_entry h).map w).sum_eq, List.map_cons, List.sum_cons, total]

theorem total_set (h : es[i]? = some x) : total w (es.set i y) = w y + total w (es.eraseIdx i) := by
  rw [total, ((perm_set h y).map w).sum_eq, List.map_cons, List.sum_cons, total]

/-- One entry is replaced, with `b` taken in and `a` given out. -/
theorem set_of_exchange {a b : M} (h : es[i]? = some x) (hstep : a + w y = w x + b) :
    a + total w (es.set i y) = total w es + b := by
  rw [total_eq_add h, total_set h, ← add_assoc, hstep]
  abel

end Monoid

section Group

variable [AddCommGroup M] {w : ε → M} {es : List ε} {i : ℕ} {x y : ε} {t t' : M}

theorem set_of_step (h : es[i]? = some x) (ht : t = total w es) (hstep : t' = t - w x + w y) :
    t' = total w (es.set i y) := by
  rw [hstep, ht, total_eq_add h, total_set h]
  abel

theorem eraseIdx_of_step (h : es[i]? = some x) (ht : t = total w es) (hstep : t' = t - w x) :
    t' = total w (es.eraseIdx i) := by
  rw [hstep, ht, total_eq_add h]
  abel

end Group

section Bits

variable {α : Type*} [DecidableEq α] {f : α → Bool} {s : Finset α} {a : α}

theorem card_update_true (ha : a ∈ s) (hf : f a = false) :
    {x ∈ s | Function.update f a true x = true}.card = {x ∈ s | f x = true}.card + 1 := by
  have hinsert : {x ∈ s | Function.update f a true x = true} = insert a {x ∈ s | f x = true} := by
    ext x
    by_cases hx : x = a
    · simp [hx, ha]
    · simp [hx]
  rw [hinsert, Finset.card_insert_of_notMem (by simp [hf])]

theorem card_update_false (ha : a ∈ s) (hf : f a = true) :
    {x ∈ s | Function.update f a false x = true}.card + 1 = {x ∈ s | f x = true}.card := by
  have hset := card_update_true (f := Function.update f a false) ha (Function.update_self a false f)
  have hback : Function.update (Function.update f a false) a true = f := by
    rw [Function.update_idem]
    exact Function.update_eq_self_iff.mpr hf.symm
  rw [hback] at hset
  exact hset.symm

end Bits

/-- The number of entries with a property, as a machine word. -/
theorem total_indicator (p : ε → Bool) (es : List ε) :
    total (fun x => if p x then (1 : UInt16) else 0) es = UInt16.ofNat (es.countP p) := by
  induction es with
  | nil => rfl
  | cons x es ih =>
    rw [total_cons, ih, List.countP_cons]
    cases p x with
    | true => simp [UInt16.ofNat_add, add_comm]
    | false => simp

/-! A counter of the entries with a property may be too large, but never too small, and it has been counted up
at most `n` times. -/

/-- What a counter does when entry `x` becomes `y`. -/
inductive Count (p : ε → Bool) (x y : ε) (count : UInt16) : UInt16 → Prop
  | keep (still : p y = true → p x = true) : Count p x y count count
  | up : Count p x y count (count + 1)
  | down (old : p x = true) (new : p y = false) : Count p x y count (count - 1)

/-- The counter is at least the number of entries with the property, and at most `n`. -/
structure Covers (p : ε → Bool) (es : List ε) (count : UInt16) (n : ℕ) : Prop where
  lower : es.countP p ≤ count.toNat
  upper : count.toNat ≤ n

namespace Covers

variable {p : ε → Bool} {es : List ε} {count : UInt16} {n : ℕ} {i : ℕ} {x y : ε}

theorem mono {m : ℕ} (h : Covers p es count n) (hle : n ≤ m) : Covers p es count m :=
  ⟨h.lower, h.upper.trans hle⟩

theorem countP_entry (h : es[i]? = some x) :
    es.countP p = (es.eraseIdx i).countP p + (if p x then 1 else 0) := by
  rw [(perm_entry h).countP_eq, List.countP_cons]

theorem countP_set (h : es[i]? = some x) (y : ε) :
    (es.set i y).countP p = (es.eraseIdx i).countP p + (if p y then 1 else 0) := by
  rw [(perm_set h y).countP_eq, List.countP_cons]

theorem set_keep (h : Covers p es count n) (hi : es[i]? = some x) (hxy : p y = true → p x = true) :
    Covers p (es.set i y) count n := by
  refine ⟨le_trans ?_ h.lower, h.upper⟩
  rw [countP_entry hi, countP_set hi]
  cases hy : p y with
  | false => simp
  | true => rw [hxy hy]

/-- The counter is counted up, whether or not the new entry has the property. -/
theorem set_up (h : Covers p es count n) (hi : es[i]? = some x) (hn : n + 1 < 65536) :
    Covers p (es.set i y) (count + 1) (n + 1) := by
  have hup := h.upper
  have hcount : (count + 1).toNat = count.toNat + 1 := by
    rw [UInt16.toNat_add]
    exact Nat.mod_eq_of_lt (by change count.toNat + 1 < 65536; omega)
  refine ⟨?_, by rw [hcount]; omega⟩
  have hlow := h.lower
  rw [countP_entry hi] at hlow
  rw [hcount, countP_set hi]
  split <;> omega

theorem pos (h : Covers p es count n) (hi : es[i]? = some x) (hx : p x = true) : count ≠ 0 := by
  intro hzero
  have hlow := h.lower
  rw [countP_entry hi, hx, if_pos rfl, hzero] at hlow
  exact absurd hlow (by simp)

/-- The counter is counted down for an entry that loses the property. -/
theorem set_down (h : Covers p es count n) (hi : es[i]? = some x) (hx : p x = true) (hy : p y = false) :
    Covers p (es.set i y) (count - 1) n := by
  have hlow := h.lower
  have hup := h.upper
  rw [countP_entry hi, hx, if_pos rfl] at hlow
  have hle : (1 : UInt16) ≤ count := UInt16.le_iff_toNat_le.mpr (by change 1 ≤ _; omega)
  have hcount : (count - 1).toNat = count.toNat - 1 := UInt16.toNat_sub_of_le _ _ hle
  refine ⟨?_, by rw [hcount]; omega⟩
  rw [hcount, countP_set hi, hy]
  simp only [Bool.false_eq_true, if_false]
  omega

theorem set {count' : UInt16} (h : Covers p es count n) (hi : es[i]? = some x) (hn : n + 1 < 65536)
    (hstep : Count p x y count count') : Covers p (es.set i y) count' (n + 1) := by
  cases hstep with
  | keep still => exact (h.set_keep hi still).mono (Nat.le_succ n)
  | up => exact h.set_up hi hn
  | down old new => exact (h.set_down hi old new).mono (Nat.le_succ n)

theorem erase (h : Covers p es count n) (hi : es[i]? = some x) : Covers p (es.eraseIdx i) count n := by
  refine ⟨le_trans ?_ h.lower, h.upper⟩
  rw [countP_entry hi]
  exact Nat.le_add_right _ _

theorem cons (h : Covers p es count n) (hx : p x = false) : Covers p (x :: es) count n := by
  refine ⟨?_, h.upper⟩
  rw [List.countP_cons_of_neg (by rw [hx]; exact Bool.false_ne_true)]
  exact h.lower

end Covers

end Tally
