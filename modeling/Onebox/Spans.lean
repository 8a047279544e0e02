import Onebox.Calls

/-! Computations that access arrays. An event of their log is a run of places in an array, with the number of
places that may be accessed there, so that staying in bounds is a property of the log. -/

/-- The places from `start` on. Those below `size` may be accessed. -/
structure Span (ρ : Type) where
  array : ρ
  start : Nat
  count : Nat
  size : Nat
  deriving DecidableEq

namespace Span

open Calls

variable {ρ α β σ : Type}

def InBounds (s : Span ρ) : Prop := 0 < s.count → s.start + s.count ≤ s.size

def touch (array : ρ) (start count size : Nat) : Calls (Span ρ) Unit := emit ⟨array, start, count, size⟩

def get (array : ρ) (m : Nat → β) (size i : Nat) : Calls (Span ρ) β := ⟨[⟨array, i, 1, size⟩], some (m i)⟩

/-- A loop whose counter has one byte. -/
def byteLoop (test : Nat → σ → Calls (Span ρ) Bool) (body : Nat → σ → Calls (Span ρ) σ) :
    Nat → Nat → σ → Calls (Span ρ) σ
  | 0, _, _ => stuck
  | fuel + 1, i, s => do
    if ← test i s then
      let s ← body i s
      byteLoop test body fuel ((i + 1) % 2 ^ 8) s
    else pure s

/-- The computation returns and stays in bounds. -/
def Safe (x : Calls (Span ρ) α) : Prop := Returns InBounds x

section Rules

variable {array : ρ} {m : Nat → β} {a i k n : Nat} {v : α} {x : Calls (Span ρ) α} {f : α → Calls (Span ρ) β}

@[simp] theorem safe_pure : Safe (pure v : Calls (Span ρ) α) := returns_pure

theorem safe_bind (hx : x.result = some v) : Safe (x >>= f) ↔ (∀ s ∈ x.log, s.InBounds) ∧ Safe (f v) := by
  rw [bind_of_result hx, Safe, Safe, Returns, Returns, List.forall_mem_append]
  exact and_left_comm

theorem safe_bind_iff (hx : x.result = some v) : Safe (x >>= f) ↔ Safe x ∧ Safe (f v) := by
  have hsome : x.result.isSome := Option.isSome_iff_exists.mpr ⟨v, hx⟩
  rw [safe_bind hx]
  exact and_congr_left' (and_iff_right hsome).symm

theorem safe_bind_of_forall (hf : ∀ v, Safe (f v)) : Safe (x >>= f) ↔ Safe x := by
  cases hx : x.result with
  | none =>
    rw [bind_of_stuck hx, Safe, Safe, Returns, Returns, hx]
    exact Iff.rfl
  | some v =>
    rw [safe_bind_iff hx]
    exact and_iff_left (hf v)

@[simp] theorem safe_touch_bind {f : Unit → Calls (Span ρ) β} :
    Safe (touch array a k n >>= f) ↔ (0 < k → a + k ≤ n) ∧ Safe (f ()) := by
  rw [safe_bind rfl]
  exact and_congr_left' List.forall_mem_singleton

@[simp] theorem safe_get_bind {f : β → Calls (Span ρ) α} :
    Safe (get array m n i >>= f) ↔ i < n ∧ Safe (f (m i)) := by
  rw [safe_bind rfl]
  refine and_congr_left' (List.forall_mem_singleton.trans ?_)
  exact forall_prop_of_true Nat.one_pos

end Rules

section Loop

variable {test : Nat → σ → Calls (Span ρ) Bool} {body : Nat → σ → Calls (Span ρ) σ} {fuel i : Nat} {s : σ}

theorem safe_byteLoop_round (h : (test i s).result = some true) :
    Safe (byteLoop test body (fuel + 1) i s) ↔
      (∀ e ∈ (test i s).log, e.InBounds) ∧
        Safe (body i s >>= byteLoop test body fuel ((i + 1) % 2 ^ 8)) := by
  rw [byteLoop, safe_bind h]
  rfl

theorem safe_byteLoop_end (h : (test i s).result = some false) :
    Safe (byteLoop test body (fuel + 1) i s) ↔ ∀ e ∈ (test i s).log, e.InBounds := by
  rw [byteLoop, safe_bind h]
  exact and_iff_left safe_pure

end Loop

end Span
