import Mathlib

/-! Lists of consecutive intervals. A list tiles a range when each interval
starts where the one before it ends. -/

namespace Tiling

variable {ι : Type*} {start len : ι → Nat} {a b c : Nat} {i : ι} {l : List ι}

/-- The intervals `[start i, start i + len i)` follow each other from `a` to `b`. -/
def Tiles (start len : ι → Nat) : Nat → Nat → List ι → Prop
  | a, b, [] => a = b
  | a, b, i :: l => start i = a ∧ Tiles start len (a + len i) b l

@[simp] theorem tiles_nil : Tiles start len a b [] ↔ a = b := Iff.rfl

@[simp] theorem tiles_cons :
    Tiles start len a b (i :: l) ↔ start i = a ∧ Tiles start len (a + len i) b l := Iff.rfl

theorem Tiles.concat (h : Tiles start len a b l) (hi : start i = b) :
    Tiles start len a (b + len i) (l ++ [i]) := by
  induction l generalizing a with
  | nil =>
    cases h
    exact ⟨hi, rfl⟩
  | cons j l ih => exact ⟨h.1, ih h.2⟩

theorem Tiles.le_start (h : Tiles start len a b l) (hi : i ∈ l) : a ≤ start i := by
  induction l generalizing a with
  | nil => simp at hi
  | cons j l ih =>
    rcases List.mem_cons.mp hi with rfl | hi
    · exact Nat.le_of_eq h.1.symm
    · have hle := ih h.2 hi
      omega

/-- Every position of a tiled range lies in exactly one interval. -/
theorem Tiles.existsUnique (h : Tiles start len a b l) {x : Nat} (ha : a ≤ x) (hb : x < b) :
    ∃! k : Fin l.length, start (l.get k) ≤ x ∧ x < start (l.get k) + len (l.get k) := by
  induction l generalizing a with
  | nil =>
    rw [tiles_nil] at h
    omega
  | cons i l ih =>
    obtain ⟨hi, hl⟩ := h
    by_cases hx : x < a + len i
    · -- the later intervals all start at or after `a + len i`
      refine ⟨0, by simp [hi]; omega, fun k hk => ?_⟩
      cases k using Fin.cases with
      | zero => rfl
      | succ k =>
        have hstart := hl.le_start (List.get_mem l k)
        have hkx : start (l.get k) ≤ x := hk.1
        omega
    · obtain ⟨k, hk, huniq⟩ := ih hl (by omega)
      refine ⟨k.succ, hk, fun j hj => ?_⟩
      cases j using Fin.cases with
      | zero =>
        have h0 : x < start i + len i := hj.2
        omega
      | succ j => exact congrArg Fin.succ (huniq j hj)

end Tiling
