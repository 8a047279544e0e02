import Onebox.Calls

/-! Total correctness of logged computations: a computation ensures `Q` under `P` when it returns, its result
meets `Q`, and each event of its log meets `P`. -/

namespace Calls

variable {ε ι α β γ σ : Type} {P : ε → Prop} {Q Q' : α → Prop} {R : β → Prop}
  {x : Calls ε α} {f : α → Calls ε β}

def Ensures (P : ε → Prop) (Q : α → Prop) (x : Calls ε α) : Prop :=
  (∀ e ∈ x.log, P e) ∧ ∃ a, x.result = some a ∧ Q a

/-- The loop that runs `f` for `0`, `1` and so on below `n`. -/
def forUpTo (f : Nat → σ → Calls ε σ) : Nat → σ → Calls ε σ
  | 0, s => pure s
  | n + 1, s => forUpTo f n s >>= f n

/-- The loop that runs `f` for the elements of a list. -/
def forEach (f : ι → σ → Calls ε σ) : List ι → σ → Calls ε σ
  | [], s => pure s
  | x :: xs, s => f x s >>= forEach f xs

theorem bind_assoc {g : β → Calls ε γ} : (x >>= f) >>= g = x >>= fun a => f a >>= g := by
  cases hx : x.result with
  | none => rw [bind_of_stuck hx, bind_of_stuck hx, bind_of_stuck rfl]
  | some a =>
    rw [bind_of_result hx, bind_of_result hx]
    cases hf : (f a).result with
    | none => rw [bind_of_stuck hf, bind_of_stuck rfl]
    | some b => rw [bind_of_result hf, bind_of_result rfl, List.append_assoc]

theorem forEach_concat {f : ι → σ → Calls ε σ} (xs : List ι) (y : ι) (s : σ) :
    forEach f (xs ++ [y]) s = forEach f xs s >>= f y := by
  induction xs generalizing s with
  | nil =>
    show (f y s >>= fun s' => pure s') = f y s
    cases h : (f y s).result with
    | none => rw [bind_of_stuck h, ← h]
    | some s' =>
      rw [bind_of_result h, show (pure s' : Calls ε σ) = ⟨[], some s'⟩ from rfl, List.append_nil, ← h]
  | cons x xs ih =>
    rw [List.cons_append, forEach, forEach, bind_assoc]
    congr 1
    funext s'
    exact ih s'

theorem mem_log_forUpTo {f : Nat → σ → Calls ε σ} {i n : Nat} {s s' : σ} {e : ε} (hi : i < n)
    (hs : (forUpTo f i s).result = some s') (he : e ∈ (f i s').log) : e ∈ (forUpTo f n s).log := by
  induction n with
  | zero => exact absurd hi (Nat.not_lt_zero i)
  | succ n ih =>
    rw [forUpTo, mem_log_bind]
    by_cases hin : i < n
    · exact .inl (ih hin)
    · obtain rfl : i = n := by omega
      exact .inr ⟨s', hs, he⟩

/-- A loop that returns has come through each of its rounds. -/
theorem result_round_of_forUpTo {f : Nat → σ → Calls ε σ} {i n : Nat} {s : σ} (hi : i < n)
    (h : (forUpTo f n s).result.isSome) : ∃ s', (f i s').result.isSome := by
  induction n with
  | zero => exact absurd hi (Nat.not_lt_zero i)
  | succ n ih =>
    rw [forUpTo, isSome_result_bind] at h
    obtain ⟨s', hs', hround⟩ := h
    by_cases hin : i < n
    · exact ih hin (hs' ▸ rfl)
    · obtain rfl : i = n := by omega
      exact ⟨s', hround⟩

theorem mem_log_forEach {f : ι → σ → Calls ε σ} {done xs : List ι} {x : ι} {s s' : σ} {e : ε}
    (hpre : done ++ [x] <+: xs) (hs : (forEach f done s).result = some s') (he : e ∈ (f x s').log) :
    e ∈ (forEach f xs s).log := by
  induction xs using List.reverseRecOn with
  | nil => simp at hpre
  | append_singleton xs y ih =>
    rw [forEach_concat, mem_log_bind]
    rcases List.prefix_concat_iff.mp hpre with heq | hpre
    · obtain ⟨rfl, hxy⟩ := List.append_inj' heq rfl
      obtain rfl := List.singleton_inj.mp hxy
      exact .inr ⟨s', hs, he⟩
    · exact .inl (ih hpre)

namespace Ensures

theorem pure {a : α} (h : Q a) : Ensures P Q (pure a : Calls ε α) := ⟨List.forall_mem_nil _, a, rfl, h⟩

theorem of_eq {log : List ε} {a : α} (hx : x = ⟨log, some a⟩) (hlog : ∀ e ∈ log, P e) (h : Q a) :
    Ensures P Q x := by
  subst hx
  exact ⟨hlog, a, rfl, h⟩

theorem bind (hx : Ensures P Q x) (hf : ∀ a, Q a → Ensures P R (f a)) : Ensures P R (x >>= f) := by
  obtain ⟨hlog, a, ha, hQ⟩ := hx
  obtain ⟨hlog', b, hb, hR⟩ := hf a hQ
  rw [bind_of_result ha]
  exact ⟨List.forall_mem_append.mpr ⟨hlog, hlog'⟩, b, hb, hR⟩

theorem bind_of_eq {log : List ε} {a : α} (hx : x = ⟨log, some a⟩) (hlog : ∀ e ∈ log, P e)
    (hf : Ensures P R (f a)) : Ensures P R (x >>= f) := by
  have ha : Ensures P (· = a) x := of_eq hx hlog rfl
  exact ha.bind fun b hb => hb ▸ hf

theorem bind_emit {e : ε} {x : Calls ε β} (he : P e) (hx : Ensures P R x) : Ensures P R (do emit e; x) :=
  bind_of_eq rfl (List.forall_mem_singleton.mpr he) hx

theorem mono (hx : Ensures P Q x) (h : ∀ a, Q a → Q' a) : Ensures P Q' x := by
  obtain ⟨hlog, a, ha, hQ⟩ := hx
  exact ⟨hlog, a, ha, h a hQ⟩

theorem ite {c : Prop} [Decidable c] {y : Calls ε α} (hx : c → Ensures P Q x) (hy : ¬ c → Ensures P Q y) :
    Ensures P Q (if c then x else y) := by
  by_cases h : c
  · rw [if_pos h]
    exact hx h
  · rw [if_neg h]
    exact hy h

theorem result (hx : Ensures P Q x) : ∃ a, x.result = some a ∧ Q a := hx.2

theorem of_result {a : α} (hx : Ensures P Q x) (ha : x.result = some a) : Q a := by
  obtain ⟨-, b, hb, hQ⟩ := hx
  rw [ha] at hb
  cases hb
  exact hQ

theorem forUpTo {f : Nat → σ → Calls ε σ} {n : Nat} {s : σ} (I : Nat → σ → Prop) (hinit : I 0 s)
    (hstep : ∀ i < n, ∀ s, I i s → Ensures P (I (i + 1)) (f i s)) : Ensures P (I n) (forUpTo f n s) := by
  induction n with
  | zero => exact Ensures.pure hinit
  | succ n ih =>
    have hbefore := ih fun i hi => hstep i (Nat.lt_succ_of_lt hi)
    exact hbefore.bind (hstep n (Nat.lt_succ_self n))

/-- An invariant of the loop, which may depend on the elements that are done. -/
theorem forEach {f : ι → σ → Calls ε σ} {xs : List ι} {s : σ} (I : List ι → σ → Prop) (hinit : I [] s)
    (hstep : ∀ done x s, done ++ [x] <+: xs → I done s → Ensures P (I (done ++ [x])) (f x s)) :
    Ensures P (I xs) (forEach f xs s) := by
  induction xs using List.reverseRecOn with
  | nil => exact Ensures.pure hinit
  | append_singleton xs y ih =>
    have hbefore := ih fun done x s hpre => hstep done x s (hpre.trans (List.prefix_append xs [y]))
    rw [forEach_concat]
    exact hbefore.bind fun s' => hstep xs y s' (List.prefix_refl _)

end Ensures

end Calls
