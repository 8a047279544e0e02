import Mathlib

/-! Runs of a partial step function. An action that is not enabled in a state
has no result there, so a run exists only when each of its actions is enabled
in turn. -/

namespace Machine

variable {σ α : Type*} {step : σ → α → Option σ} {ok : σ → α → Bool}

def run (step : σ → α → Option σ) : σ → List α → Option σ
  | s, [] => some s
  | s, a :: as => (step s a).bind (run step · as)

/-- Each action of the list meets `ok` in the state in which it is taken. -/
def Meets (step : σ → α → Option σ) (ok : σ → α → Bool) : σ → List α → Prop
  | _, [] => True
  | s, a :: as => ok s a ∧ ∀ t, step s a = some t → Meets step ok t as

def meets (step : σ → α → Option σ) (ok : σ → α → Bool) : σ → List α → Bool
  | _, [] => true
  | s, a :: as => ok s a && (step s a).all (meets step ok · as)

@[simp] theorem run_nil (s : σ) : run step s [] = some s := rfl

@[simp] theorem run_cons (s : σ) (a : α) (as : List α) :
    run step s (a :: as) = (step s a).bind (run step · as) := rfl

@[simp] theorem meets_nil (s : σ) : Meets step ok s [] := trivial

@[simp] theorem meets_cons (s : σ) (a : α) (as : List α) :
    Meets step ok s (a :: as) ↔ ok s a ∧ ∀ t, step s a = some t → Meets step ok t as := Iff.rfl

theorem meets_iff (s : σ) (as : List α) : meets step ok s as = true ↔ Meets step ok s as := by
  induction as generalizing s with
  | nil => simp [meets]
  | cons a as ih => cases h : step s a <;> simp [meets, h, ih]

instance (s : σ) (as : List α) : Decidable (Meets step ok s as) :=
  decidable_of_iff _ (meets_iff s as)

theorem run_cons_eq_some {s u : σ} {a : α} {as : List α} :
    run step s (a :: as) = some u ↔ ∃ t, step s a = some t ∧ run step t as = some u := by
  simp [Option.bind_eq_some_iff]

/-- The invariant rule: what every guarded step keeps, every guarded run keeps. -/
theorem run_invariant {I : σ → Prop}
    (hstep : ∀ {s a t}, I s → ok s a → step s a = some t → I t)
    {s t : σ} {as : List α} (hs : I s) (hok : Meets step ok s as)
    (hrun : run step s as = some t) : I t := by
  induction as generalizing s with
  | nil =>
    cases hrun
    exact hs
  | cons a as ih =>
    obtain ⟨u, hu, hrun⟩ := run_cons_eq_some.mp hrun
    exact ih (hstep hs hok.1 hu) (hok.2 u hu) hrun

theorem run_preserves {I : σ → Prop} (hstep : ∀ {s a t}, I s → step s a = some t → I t)
    {s t : σ} {as : List α} (hs : I s) (hrun : run step s as = some t) : I t := by
  induction as generalizing s with
  | nil =>
    cases hrun
    exact hs
  | cons a as ih =>
    obtain ⟨u, hu, hrun⟩ := run_cons_eq_some.mp hrun
    exact ih (hstep hs hu) hrun

/-- A step against the guard leaves a mark, and the mark stays: a run meets the guard just when its end
has none. -/
theorem meets_iff_not_marked {I M : σ → Prop} (hkeep : ∀ {s a t}, I s → ok s a → step s a = some t → I t)
    (hmark : ∀ {s a t}, I s → ¬ ok s a → step s a = some t → M t)
    (hstay : ∀ {s a t}, M s → step s a = some t → M t)
    {s t : σ} {as : List α} (hs : I s) (hrun : run step s as = some t) (hend : I t → ¬ M t) :
    Meets step ok s as ↔ ¬ M t := by
  constructor
  · intro hok
    exact hend (run_invariant hkeep hs hok hrun)
  · intro hnot
    induction as generalizing s with
    | nil => exact trivial
    | cons a as ih =>
      obtain ⟨u, hu, hrun⟩ := run_cons_eq_some.mp hrun
      have hok : ok s a := by
        by_contra hno
        exact hnot (run_preserves hstay (hmark hs hno hu) hrun)
      refine ⟨hok, fun v hv => ?_⟩
      rw [hu] at hv
      cases hv
      exact ih (hkeep hs hok hu) hrun

/-- Under an invariant of the guarded runs a guard implies another. -/
theorem Meets.imp {I : σ → Prop} {ok' : σ → α → Bool}
    (hstep : ∀ {s a t}, I s → ok s a → step s a = some t → I t) (himp : ∀ {s a}, I s → ok s a → ok' s a)
    {s : σ} {as : List α} (hs : I s) (hok : Meets step ok s as) : Meets step ok' s as := by
  induction as generalizing s with
  | nil => exact trivial
  | cons a as ih => exact ⟨himp hs hok.1, fun t ht => ih (hstep hs hok.1 ht) (hok.2 t ht)⟩

theorem run_append (s : σ) (as bs : List α) :
    run step s (as ++ bs) = (run step s as).bind (run step · bs) := by
  induction as generalizing s with
  | nil => rfl
  | cons a as ih => cases h : step s a <;> simp [h, ih]

theorem meets_concat {s t : σ} {as : List α} {a : α} (hrun : run step s as = some t) :
    Meets step ok s (as ++ [a]) ↔ Meets step ok s as ∧ ok t a := by
  induction as generalizing s with
  | nil =>
    cases hrun
    simp
  | cons b as ih =>
    obtain ⟨u, hu, hrun⟩ := run_cons_eq_some.mp hrun
    simp [hu, ih hrun, and_assoc]

/-- There is a run to `t` all of whose steps meet `ok`. -/
def Reaches (step : σ → α → Option σ) (ok : σ → α → Bool) (s t : σ) : Prop :=
  ∃ as, Meets step ok s as ∧ run step s as = some t

theorem Reaches.refl (s : σ) : Reaches step ok s s := ⟨[], meets_nil s, rfl⟩

theorem Reaches.head {s t u : σ} {a : α} (hok : ok s a) (hstep : step s a = some t)
    (h : Reaches step ok t u) : Reaches step ok s u := by
  obtain ⟨as, hmeets, hrun⟩ := h
  refine ⟨a :: as, ⟨hok, fun t' ht' => ?_⟩, run_cons_eq_some.mpr ⟨t, hstep, hrun⟩⟩
  rw [hstep] at ht'
  cases ht'
  exact hmeets

theorem Reaches.trans {s t u : σ} (h : Reaches step ok s t) (h' : Reaches step ok t u) :
    Reaches step ok s u := by
  obtain ⟨as, hmeets, hrun⟩ := h
  induction as generalizing s with
  | nil =>
    cases hrun
    exact h'
  | cons a as ih =>
    obtain ⟨v, hv, hrun⟩ := run_cons_eq_some.mp hrun
    exact .head hmeets.1 hv (ih (hmeets.2 v hv) hrun)

/-- A run on given data is found by evaluation. -/
theorem exists_run {s : σ} {as : List α} {P : σ → Prop} [DecidablePred P]
    (h : (run step s as).any (fun t => decide (P t)) = true) : ∃ t, run step s as = some t ∧ P t := by
  obtain ⟨t, ht, hP⟩ := (Option.any_eq_true _ _).mp h
  exact ⟨t, ht, of_decide_eq_true hP⟩

theorem exists_run_of {s : σ} {as : List α} {Q : σ → Prop} (h : (run step s as).isSome = true)
    (hall : ∀ t, run step s as = some t → Q t) : ∃ t, run step s as = some t ∧ Q t := by
  obtain ⟨t, ht⟩ := Option.isSome_iff_exists.mp h
  exact ⟨t, ht, hall t ht⟩

/-- Part of what the run comes to is evaluated, the rest is known of every such run. -/
theorem exists_run_and {s : σ} {as : List α} {P Q : σ → Prop} [DecidablePred P]
    (h : (run step s as).any (fun t => decide (P t)) = true) (hall : ∀ t, run step s as = some t → Q t) :
    ∃ t, run step s as = some t ∧ P t ∧ Q t := by
  obtain ⟨t, ht, hP⟩ := exists_run h
  exact ⟨t, ht, hP, hall t ht⟩

/-- Whichever actions that meet `ok` are taken, and there is always one, a state of `goal` is reached. -/
inductive Inevitable (step : σ → α → Option σ) (ok : σ → α → Bool) (goal : σ → Prop) : σ → Prop
  | here {s : σ} (h : goal s) : Inevitable step ok goal s
  | next {s : σ} (hsome : ∃ a t, ok s a ∧ step s a = some t)
    (hall : ∀ a t, ok s a → step s a = some t → Inevitable step ok goal t) : Inevitable step ok goal s

/-- The rule for it: short of the goal a step can be taken, and each one makes the measure smaller. -/
theorem inevitable_of_measure {I goal : σ → Prop} (μ : σ → Nat)
    (hsome : ∀ {s}, I s → ¬ goal s → ∃ a t, ok s a ∧ step s a = some t)
    (hstep : ∀ {s a t}, I s → ¬ goal s → ok s a → step s a = some t → I t ∧ μ t < μ s)
    {s : σ} (hs : I s) : Inevitable step ok goal s := by
  induction hn : μ s using Nat.strong_induction_on generalizing s with
  | _ n ih =>
    by_cases hgoal : goal s
    · exact .here hgoal
    · refine .next (hsome hs hgoal) fun a t hok ht => ?_
      obtain ⟨hI, hless⟩ := hstep hs hgoal hok ht
      exact ih (μ t) (hn ▸ hless) hI rfl

end Machine
