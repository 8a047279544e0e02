import Mathlib

/-! Computations that log the calls they make and may stop before they return,
at a null pointer, in a loop that does not end or on an error path. -/

/-- The calls made, oldest first, and the result of a computation that returns. -/
structure Calls (ε α : Type) where
  log : List ε
  result : Option α
  deriving DecidableEq

namespace Calls

variable {ε α β : Type}

def emit (e : ε) : Calls ε Unit := ⟨[e], some ()⟩

def stuck : Calls ε α := ⟨[], none⟩

def lift (o : Option α) : Calls ε α := ⟨[], o⟩

def bind (x : Calls ε α) (f : α → Calls ε β) : Calls ε β :=
  match x.result with
  | some a => ⟨x.log ++ (f a).log, (f a).result⟩
  | none => ⟨x.log, none⟩

instance : Monad (Calls ε) where
  pure a := ⟨[], some a⟩
  bind := bind

/-- The computation returns, and exactly one of its calls is among those of `p`. -/
def Once (p : ε → Bool) (x : Calls ε α) : Prop := x.result.isSome ∧ x.log.countP p = 1

/-- The computation returns without a call among those of `p`. -/
def Never (p : ε → Bool) (x : Calls ε α) : Prop := x.result.isSome ∧ x.log.countP p = 0

/-- The computation returns after one call of `p` and none of `q`, or the other way round. -/
def OneOf (p q : ε → Bool) (x : Calls ε α) : Prop :=
  x.result.isSome ∧
    (x.log.countP p = 1 ∧ x.log.countP q = 0 ∨ x.log.countP p = 0 ∧ x.log.countP q = 1)

/-- No call is among those of `p`, whether the computation returns or not. -/
def Quiet (p : ε → Bool) (x : Calls ε α) : Prop := ∀ e ∈ x.log, p e = false

/-- The computation returns, and its calls all meet the condition. -/
def Returns (P : ε → Prop) (x : Calls ε α) : Prop := x.result.isSome ∧ ∀ e ∈ x.log, P e

instance (p : ε → Bool) (x : Calls ε α) : Decidable (Once p x) :=
  inferInstanceAs (Decidable (_ ∧ _))

instance (p q : ε → Bool) (x : Calls ε α) : Decidable (OneOf p q x) :=
  inferInstanceAs (Decidable (_ ∧ _))

section Lemmas

variable {p : ε → Bool} {x : Calls ε α} {f : α → Calls ε β} {a : α} {e : ε}

@[simp] theorem not_once_stuck : ¬ Once p (stuck : Calls ε α) := by simp [Once, stuck]

@[simp] theorem not_never_stuck : ¬ Never p (stuck : Calls ε α) := by simp [Never, stuck]

@[simp] theorem never_pure : Never p (pure a : Calls ε α) := ⟨rfl, rfl⟩

@[simp] theorem once_emit : Once p (emit e) ↔ p e = true := by
  cases h : p e <;> simp [Once, emit, h]

@[simp] theorem never_emit : Never p (emit e) ↔ p e = false := by
  cases h : p e <;> simp [Never, emit, h]

@[simp] theorem pure_bind : (pure a >>= f : Calls ε β) = f a := rfl

theorem bind_of_result (h : x.result = some a) : x >>= f = ⟨x.log ++ (f a).log, (f a).result⟩ := by
  show bind x f = _
  simp [bind, h]

theorem bind_of_stuck (h : x.result = none) : x >>= f = ⟨x.log, none⟩ := by
  show bind x f = _
  simp [bind, h]

theorem bind_pure_of_eq {log : List ε} {g : α → β} (h : x = ⟨log, some a⟩) :
    (do let a ← x; pure (g a)) = ⟨log, some (g a)⟩ := by
  subst h
  rw [bind_of_result rfl]
  simp [pure]

theorem result_bind {b : β} :
    (x >>= f).result = some b ↔ ∃ a, x.result = some a ∧ (f a).result = some b := by
  cases h : x.result with
  | none => simp [bind_of_stuck h]
  | some a => simp [bind_of_result h]

theorem result_bind_pure {g : α → β} : (do let a ← x; pure (g a)).result = x.result.map g := by
  cases h : x.result with
  | none => rw [bind_of_stuck h, Option.map_none]
  | some a =>
    rw [bind_of_result h, Option.map_some]
    rfl

theorem isSome_result_bind : (x >>= f).result.isSome ↔ ∃ a, x.result = some a ∧ (f a).result.isSome := by
  cases h : x.result with
  | none => simp [bind_of_stuck h]
  | some a => simp [bind_of_result h]

theorem mem_log_bind : e ∈ (x >>= f).log ↔ e ∈ x.log ∨ ∃ a, x.result = some a ∧ e ∈ (f a).log := by
  cases h : x.result with
  | none => simp [bind_of_stuck h]
  | some a => simp [bind_of_result h]

theorem never_bind (hf : ∀ a, Never p (f a)) : Never p (x >>= f) ↔ Never p x := by
  cases h : x.result with
  | none => simp [Never, bind_of_stuck h, h]
  | some a =>
    obtain ⟨hres, hnone⟩ := hf a
    rw [bind_of_result h]
    simp only [Never, h, hres, hnone, List.countP_append, Option.isSome_some, Nat.add_zero]

/-- A last part that always makes the one call needs a first part that makes none. -/
theorem once_bind (hf : ∀ a, Once p (f a)) : Once p (x >>= f) ↔ Never p x := by
  cases h : x.result with
  | none => simp [Once, Never, bind_of_stuck h, h]
  | some a =>
    obtain ⟨hres, hone⟩ := hf a
    rw [bind_of_result h]
    simp [Once, Never, h, hres, hone]

theorem once_bind_of_never (hx : Never p x) {Q : Prop} (hf : ∀ a, Once p (f a) ↔ Q) :
    Once p (x >>= f) ↔ Q := by
  obtain ⟨a, ha⟩ := Option.isSome_iff_exists.mp hx.1
  rw [bind_of_result ha, ← hf a]
  simp [Once, hx.2]

theorem countP_or {q : ε → Bool} (h : ∀ e, p e = true → q e = false) (log : List ε) :
    log.countP (fun e => p e || q e) = log.countP p + log.countP q := by
  induction log with
  | nil => rfl
  | cons e log ih =>
    rw [List.countP_cons, List.countP_cons, List.countP_cons, ih]
    cases hp : p e with
    | false =>
      simp only [Bool.false_or, Bool.false_eq_true, if_false]
      omega
    | true =>
      simp only [h e hp, Bool.true_or, Bool.false_eq_true, if_false, if_true]
      omega

theorem oneOf_iff_once {q : ε → Bool} (h : ∀ e, p e = true → q e = false) :
    OneOf p q x ↔ Once (fun e => p e || q e) x := by
  rw [OneOf, Once, countP_or h]
  refine and_congr_right fun _ => ?_
  omega

@[simp] theorem quiet_pure : Quiet p (pure a : Calls ε α) := List.forall_mem_nil _

@[simp] theorem quiet_stuck : Quiet p (stuck : Calls ε α) := List.forall_mem_nil _

@[simp] theorem quiet_emit : Quiet p (emit e) ↔ p e = false := by simp [Quiet, emit]

theorem Quiet.bind (hx : Quiet p x) (hf : ∀ a, Quiet p (f a)) : Quiet p (x >>= f) := by
  intro e he
  rcases mem_log_bind.mp he with he | ⟨a, -, he⟩
  · exact hx e he
  · exact hf a e he

variable {P : ε → Prop}

@[simp] theorem returns_pure : Returns P (pure a : Calls ε α) := ⟨rfl, List.forall_mem_nil _⟩

@[simp] theorem returns_emit : Returns P (emit e) ↔ P e := by simp [Returns, emit]

theorem Returns.bind (hx : Returns P x) (hf : ∀ a, Returns P (f a)) : Returns P (x >>= f) := by
  obtain ⟨a, ha⟩ := Option.isSome_iff_exists.mp hx.1
  rw [bind_of_result ha]
  exact ⟨(hf a).1, fun e he => (List.mem_append.mp he).elim (hx.2 e) ((hf a).2 e)⟩

end Lemmas

end Calls
