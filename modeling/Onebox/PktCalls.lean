import Onebox.Calls

/-! Handlers that own a packet. What a handler does apart from the packet is a list
of effects, so that only the ways to leave it can dispose of the packet. -/

/-- The calls of a handler: an effect, the call that frees the packet, or one that hands it over. -/
inductive PktCall (ε κ : Type) where
  | effect (e : ε)
  | freePkt
  | handOver (receiver : κ)
  deriving DecidableEq, Repr

namespace PktCall

variable {ε κ σ β : Type}

def frees : PktCall ε κ → Bool
  | .freePkt => true
  | _ => false

def hands : PktCall ε κ → Bool
  | .handOver _ => true
  | _ => false

/-- Leaves with the packet freed. -/
def freed (r : σ × List ε) (status : β) : Calls (PktCall ε κ) (σ × β) :=
  ⟨r.2.map effect ++ [freePkt], some (r.1, status)⟩

def handedOver (r : σ × List ε) (receiver : κ) (status : β) : Calls (PktCall ε κ) (σ × β) :=
  ⟨r.2.map effect ++ [handOver receiver], some (r.1, status)⟩

/-- Leaves with nothing done about the packet. -/
def kept (r : σ × List ε) (status : β) : Calls (PktCall ε κ) (σ × β) :=
  ⟨r.2.map effect, some (r.1, status)⟩

/-- Follows a pointer that is null or no longer valid. -/
def faulted (es : List ε) : Calls (PktCall ε κ) (σ × β) := ⟨es.map effect, none⟩

/-- The packet is freed once and not handed over, or handed over once and not freed. -/
def Disposed {α : Type} (x : Calls (PktCall ε κ) α) : Prop := x.OneOf frees hands

instance {α : Type} (x : Calls (PktCall ε κ) α) : Decidable (Disposed x) :=
  inferInstanceAs (Decidable (x.OneOf _ _))

theorem disposed_iff_once {α : Type} {x : Calls (PktCall ε κ) α} :
    Disposed x ↔ x.Once fun c => c.frees || c.hands := by
  refine Calls.oneOf_iff_once fun c hc => ?_
  cases c <;> simp_all [frees, hands]

theorem countP_effect (es : List ε) :
    (es.map (effect : ε → PktCall ε κ)).countP (fun c => c.frees || c.hands) = 0 := by
  rw [List.countP_eq_zero]
  intro c hc
  obtain ⟨e, -, rfl⟩ := List.mem_map.mp hc
  simp [frees, hands]

section Exits

variable (r : σ × List ε) (status : β)

@[simp] theorem disposed_freed : Disposed (freed r status : Calls (PktCall ε κ) (σ × β)) := by
  rw [disposed_iff_once]
  refine ⟨rfl, ?_⟩
  rw [freed, List.countP_append, countP_effect, List.countP_singleton]
  rfl

@[simp] theorem disposed_handedOver (receiver : κ) : Disposed (handedOver r receiver status) := by
  rw [disposed_iff_once]
  refine ⟨rfl, ?_⟩
  rw [handedOver, List.countP_append, countP_effect, List.countP_singleton]
  rfl

@[simp] theorem not_disposed_kept : ¬ Disposed (kept r status : Calls (PktCall ε κ) (σ × β)) := by
  rw [disposed_iff_once]
  intro h
  have hone := h.2
  rw [kept, countP_effect] at hone
  cases hone

@[simp] theorem not_disposed_faulted (es : List ε) :
    ¬ Disposed (faulted es : Calls (PktCall ε κ) (σ × β)) := by
  intro h
  cases h.1

end Exits

section Effects

def effectsOf (log : List (PktCall ε κ)) : List ε :=
  log.filterMap fun
    | .effect e => some e
    | _ => none

theorem effectsOf_append (log log' : List (PktCall ε κ)) :
    effectsOf (log ++ log') = effectsOf log ++ effectsOf log' := List.filterMap_append

theorem effectsOf_effects (es : List ε) : effectsOf (es.map (effect : ε → PktCall ε κ)) = es := by
  induction es with
  | nil => rfl
  | cons e es ih => exact congrArg (e :: ·) ih

variable {D : σ → List ε → Prop} {r : σ × List ε} {status : β}

/-- A handler that returns, with a state and effects as `D` says. -/
def Leaves (D : σ → List ε → Prop) (x : Calls (PktCall ε κ) (σ × β)) : Prop :=
  ∃ c es status, x.result = some (c, status) ∧ effectsOf x.log = es ∧ D c es

theorem leaves_kept (h : D r.1 r.2) : Leaves D (kept r status : Calls (PktCall ε κ) (σ × β)) :=
  ⟨r.1, r.2, status, rfl, effectsOf_effects _, h⟩

theorem leaves_freed (h : D r.1 r.2) : Leaves D (freed r status : Calls (PktCall ε κ) (σ × β)) := by
  refine ⟨r.1, r.2, status, rfl, ?_, h⟩
  rw [freed, effectsOf_append, effectsOf_effects]
  exact List.append_nil _

theorem leaves_handedOver {receiver : κ} (h : D r.1 r.2) : Leaves D (handedOver r receiver status) := by
  refine ⟨r.1, r.2, status, rfl, ?_, h⟩
  rw [handedOver, effectsOf_append, effectsOf_effects]
  exact List.append_nil _

variable {E : σ × List ε → Prop}

/-- A handler that does as `E` says where it returns. -/
def Ends (E : σ × List ε → Prop) (x : Calls (PktCall ε κ) (σ × β)) : Prop :=
  ∀ c status, x.result = some (c, status) → E (c, effectsOf x.log)

theorem Leaves.ends {x : Calls (PktCall ε κ) (σ × β)} (h : Leaves (fun c es => E (c, es)) x) : Ends E x := by
  obtain ⟨c, es, status, hres, hes, hd⟩ := h
  intro c' status' hres'
  rw [hres] at hres'
  cases hres'
  rw [hes]
  exact hd

theorem ends_freed (h : E r) : Ends E (freed r status : Calls (PktCall ε κ) (σ × β)) :=
  (leaves_freed h).ends

theorem ends_kept (h : E r) : Ends E (kept r status : Calls (PktCall ε κ) (σ × β)) :=
  (leaves_kept h).ends

theorem ends_handedOver {receiver : κ} (h : E r) : Ends E (handedOver r receiver status) :=
  (leaves_handedOver h).ends

theorem ends_faulted {es : List ε} : Ends E (faulted es : Calls (PktCall ε κ) (σ × β)) := by
  intro c status hres
  cases hres

theorem Ends.mono {E' : σ × List ε → Prop} {x : Calls (PktCall ε κ) (σ × β)} (h : Ends E x)
    (hE : ∀ r, E r → E' r) : Ends E' x :=
  fun c status hres => hE _ (h c status hres)

end Effects

section Meets

variable {p : ε → Bool} {r : σ × List ε} {status : β}

/-- All effects of a handler are among those of `p`, whether it returns or not. -/
def EffectsMeet {α : Type} (p : ε → Bool) (x : Calls (PktCall ε κ) α) : Prop :=
  ∀ e ∈ effectsOf x.log, p e = true

@[simp] theorem effectsMeet_kept :
    EffectsMeet p (kept r status : Calls (PktCall ε κ) (σ × β)) ↔ ∀ e ∈ r.2, p e = true := by
  rw [EffectsMeet, kept, effectsOf_effects]

@[simp] theorem effectsMeet_faulted {es : List ε} :
    EffectsMeet p (faulted es : Calls (PktCall ε κ) (σ × β)) ↔ ∀ e ∈ es, p e = true := by
  rw [EffectsMeet, faulted, effectsOf_effects]

@[simp] theorem effectsMeet_freed :
    EffectsMeet p (freed r status : Calls (PktCall ε κ) (σ × β)) ↔ ∀ e ∈ r.2, p e = true := by
  have heffects : effectsOf (r.2.map effect ++ [(freePkt : PktCall ε κ)]) = r.2 := by
    rw [effectsOf_append, effectsOf_effects]
    exact List.append_nil _
  rw [EffectsMeet, freed, heffects]

@[simp] theorem effectsMeet_handedOver {receiver : κ} :
    EffectsMeet p (handedOver r receiver status) ↔ ∀ e ∈ r.2, p e = true := by
  have heffects : effectsOf (r.2.map effect ++ [handOver receiver]) = r.2 := by
    rw [effectsOf_append, effectsOf_effects]
    exact List.append_nil _
  rw [EffectsMeet, handedOver, heffects]

/-- The effects of a handler that returns come before those of the rest. -/
theorem Leaves.effectsMeet_bind {D : σ → List ε → Prop} {α : Type} {x : Calls (PktCall ε κ) (σ × β)}
    (h : Leaves D x) (f : σ × β → Calls (PktCall ε κ) α) :
    ∃ c es status, D c es ∧
      (EffectsMeet p (x >>= f) ↔ (∀ e ∈ es, p e = true) ∧ EffectsMeet p (f (c, status))) := by
  obtain ⟨c, es, status, hres, hes, hd⟩ := h
  refine ⟨c, es, status, hd, ?_⟩
  rw [Calls.bind_of_result hres, EffectsMeet, effectsOf_append, hes]
  exact List.forall_mem_append

end Meets

end PktCall
