import Onebox.Machine

/-! Opening a session with a peer over two channels that lose messages but keep their order. Each question has
a number of its own and the answer repeats it; the peer opens its end when it grants the question. -/

namespace Negotiation

variable {π : Type*}

/-- The end that asks. A session is opened with the terms of the question. -/
inductive Asker (π : Type*)
  | idle
  | waiting (n : Nat) (terms : π)
  | opened (n : Nat) (terms : π)

inductive Msg (π : Type*)
  | ask (n : Nat) (terms : π)
  | close

structure State (π : Type*) where
  asker : Asker π := .idle
  /-- What the other end has open. -/
  peer : Option (Nat × π) := none
  forth : List (Msg π) := []
  back : List (Nat × Bool) := []
  /-- The number of the newest question. -/
  last : Nat := 0

inductive Act (π : Type*)
  | ask (terms : π)
  /-- The next number is used up elsewhere. -/
  | skip
  /-- The asker gives the question or the session up and says nothing. -/
  | abandon
  | close
  | hear (grant : Bool)
  | answer
  | loseForth (i : Nat)
  | loseBack (i : Nat)

/-- An answer counts only for the question that waits for it. -/
def Asker.answered (a : Asker π) (n : Nat) (grant : Bool) : Asker π :=
  match a with
  | .waiting m terms => if m = n then if grant then .opened m terms else .idle else .waiting m terms
  | a => a

def step (s : State π) : Act π → Option (State π)
  | .ask terms =>
    match s.asker with
    | .idle => some { s with
        asker := .waiting (s.last + 1) terms
        forth := s.forth ++ [.ask (s.last + 1) terms]
        last := s.last + 1 }
    | _ => none
  | .skip => some { s with last := s.last + 1 }
  | .abandon => some { s with asker := .idle }
  | .close =>
    match s.asker with
    | .opened _ _ => some { s with asker := .idle, forth := s.forth ++ [.close] }
    | _ => none
  | .hear grant =>
    match s.forth with
    | [] => none
    | .ask n terms :: rest => some { s with
        forth := rest
        peer := if grant then some (n, terms) else s.peer
        back := s.back ++ [(n, grant)] }
    | .close :: rest => some { s with forth := rest, peer := none }
  | .answer =>
    match s.back with
    | [] => none
    | (n, grant) :: rest => some { s with back := rest, asker := s.asker.answered n grant }
  | .loseForth i => some { s with forth := s.forth.eraseIdx i }
  | .loseBack i => some { s with back := s.back.eraseIdx i }

section

variable {s : State π} {n : Nat} {terms : π} {grant : Bool}

theorem step_ask (h : s.asker = .idle) :
    step s (.ask terms) = some { s with
      asker := .waiting (s.last + 1) terms
      forth := s.forth ++ [.ask (s.last + 1) terms]
      last := s.last + 1 } := by
  simp [step, h]

theorem step_close (h : s.asker = .opened n terms) :
    step s .close = some { s with asker := .idle, forth := s.forth ++ [.close] } := by
  simp [step, h]

theorem step_hear_ask {rest : List (Msg π)} (h : s.forth = .ask n terms :: rest) :
    step s (.hear grant) = some { s with
      forth := rest
      peer := if grant then some (n, terms) else s.peer
      back := s.back ++ [(n, grant)] } := by
  simp [step, h]

theorem step_hear_close {rest : List (Msg π)} (h : s.forth = .close :: rest) :
    step s (.hear grant) = some { s with forth := rest, peer := none } := by
  simp [step, h]

theorem step_answer {rest : List (Nat × Bool)} (h : s.back = (n, grant) :: rest) :
    step s .answer = some { s with back := rest, asker := s.asker.answered n grant } := by
  simp [step, h]

end

/-- The peer has this session open, and nothing that could end it is on its way. -/
def State.Settled (s : State π) (n : Nat) (terms : π) : Prop := s.peer = some (n, terms) ∧ s.forth = []

/-- What holds while a question waits. Nothing is sent behind it, so when the peer answers it nothing else is
on its way. -/
structure State.Waits (s : State π) (n : Nat) (terms : π) : Prop where
  le : n ≤ s.last
  same : ∀ terms', .ask n terms' ∈ s.forth → terms' = terms
  newest : ∀ terms' m, ¬ [.ask n terms', m].Sublist s.forth
  granted : (n, true) ∈ s.back → s.Settled n terms

structure Inv (s : State π) : Prop where
  forth_le : ∀ n terms, .ask n terms ∈ s.forth → n ≤ s.last
  back_le : ∀ x ∈ s.back, x.1 ≤ s.last
  waiting : ∀ n terms, s.asker = .waiting n terms → s.Waits n terms
  opened : ∀ n terms, s.asker = .opened n terms → s.Settled n terms

theorem inv_init : Inv ({} : State π) := by
  constructor <;> simp

variable {s t : State π} {n : Nat} {terms : π}

/-- Messages have got lost, and numbers are used up. -/
structure Thinned (s t : State π) : Prop where
  forth : t.forth.Sublist s.forth
  back : t.back.Sublist s.back
  peer : t.peer = s.peer
  last : s.last ≤ t.last

theorem State.Settled.not_cons {m : Msg π} {rest : List (Msg π)} (h : s.Settled n terms) :
    s.forth ≠ m :: rest := by
  simp [h.2]

theorem State.Settled.thinned (h : s.Settled n terms) (ht : Thinned s t) : t.Settled n terms := by
  obtain ⟨hopen, hempty⟩ := h
  have hforth := ht.forth
  rw [hempty] at hforth
  exact ⟨ht.peer.trans hopen, List.sublist_nil.mp hforth⟩

theorem State.Waits.thinned (h : s.Waits n terms) (ht : Thinned s t) : t.Waits n terms where
  le := h.le.trans ht.last
  same terms' hmem := h.same terms' (ht.forth.subset hmem)
  newest terms' m hsub := h.newest terms' m (hsub.trans ht.forth)
  granted hmem := (h.granted (ht.back.subset hmem)).thinned ht

theorem Inv.thinned (h : Inv s) (ht : Thinned s t) (hasker : t.asker = s.asker ∨ t.asker = .idle) :
    Inv t where
  forth_le n terms hmem := (h.forth_le n terms (ht.forth.subset hmem)).trans ht.last
  back_le x hmem := (h.back_le x (ht.back.subset hmem)).trans ht.last
  waiting n terms hwait := by
    rcases hasker with hasker | hasker
    · exact (h.waiting n terms (hasker ▸ hwait)).thinned ht
    · rw [hasker] at hwait
      cases hwait
  opened n terms hopen := by
    rcases hasker with hasker | hasker
    · exact (h.opened n terms (hasker ▸ hopen)).thinned ht
    · rw [hasker] at hopen
      cases hopen

theorem head_mem_of_sublist {x y z : Msg π} {l : List (Msg π)} (h : [x, y].Sublist (l ++ [z])) : x ∈ l := by
  obtain ⟨l₁, l₂, heq, hl, hz⟩ := List.sublist_append_iff.mp h
  cases l₁ with
  | nil =>
    have hlen := hz.length_le
    rw [List.nil_append] at heq
    subst heq
    simp at hlen
  | cons a as =>
    obtain ⟨rfl, -⟩ := List.cons_eq_cons.mp heq
    exact hl.subset List.mem_cons_self

theorem Inv.ask (h : Inv s) : Inv { s with
    asker := .waiting (s.last + 1) terms
    forth := s.forth ++ [.ask (s.last + 1) terms]
    last := s.last + 1 } where
  forth_le n terms' hmem := by
    rcases List.mem_append.mp hmem with hmem | hmem
    · exact (h.forth_le n terms' hmem).trans (Nat.le_succ _)
    · cases List.mem_singleton.mp hmem
      exact le_refl _
  back_le x hmem := (h.back_le x hmem).trans (Nat.le_succ _)
  waiting n terms' hwait := by
    cases hwait
    have hnew : ∀ terms', .ask (s.last + 1) terms' ∉ s.forth :=
      fun terms' hmem => absurd (h.forth_le _ terms' hmem) (Nat.not_succ_le_self _)
    refine ⟨le_refl _, fun terms' hmem => ?_, fun terms' m hsub => ?_, fun hmem => ?_⟩
    · rcases List.mem_append.mp hmem with hmem | hmem
      · exact absurd hmem (hnew terms')
      · cases List.mem_singleton.mp hmem
        rfl
    · exact hnew terms' (head_mem_of_sublist hsub)
    · exact absurd (h.back_le _ hmem) (Nat.not_succ_le_self _)
  opened n terms' hopen := by cases hopen

/-- The peer takes a message, and the question still waits. -/
theorem State.Waits.heard {m : Msg π} {rest : List (Msg π)} {peer : Option (Nat × π)}
    {back : List (Nat × Bool)} (h : s.Waits n terms) (hforth : s.forth = m :: rest)
    (hgranted : (n, true) ∈ back → peer = some (n, terms) ∧ rest = []) :
    ({ s with forth := rest, peer := peer, back := back } : State π).Waits n terms where
  le := h.le
  same terms' hmem := h.same terms' (hforth ▸ List.mem_cons_of_mem _ hmem)
  newest terms' x hsub := h.newest terms' x (hforth ▸ hsub.cons _)
  granted := hgranted

/-- The peer hears a question. If it is the one that waits, nothing is behind it. -/
theorem Inv.hear_ask {rest : List (Msg π)} {grant : Bool} (h : Inv s)
    (hforth : s.forth = .ask n terms :: rest) :
    Inv { s with
      forth := rest
      peer := if grant then some (n, terms) else s.peer
      back := s.back ++ [(n, grant)] } where
  forth_le m terms' hmem := h.forth_le m terms' (hforth ▸ List.mem_cons_of_mem _ hmem)
  back_le x hmem := by
    rcases List.mem_append.mp hmem with hmem | hmem
    · exact h.back_le x hmem
    · cases List.mem_singleton.mp hmem
      exact h.forth_le n terms (hforth ▸ List.mem_cons_self)
  waiting m terms' hwait := by
    have hw := h.waiting m terms' hwait
    refine hw.heard hforth fun hmem => ?_
    rcases List.mem_append.mp hmem with hmem | hmem
    · exact absurd hforth (hw.granted hmem).not_cons
    · cases List.mem_singleton.mp hmem
      obtain rfl : terms = terms' := hw.same terms (hforth ▸ List.mem_cons_self)
      refine ⟨rfl, ?_⟩
      cases rest with
      | nil => rfl
      | cons x rest =>
        exact absurd (hforth ▸ by simp) (hw.newest terms x)
  opened m terms' hopen := absurd hforth (h.opened m terms' hopen).not_cons

theorem Inv.hear_close {rest : List (Msg π)} (h : Inv s) (hforth : s.forth = .close :: rest) :
    Inv { s with forth := rest, peer := none } where
  forth_le m terms' hmem := h.forth_le m terms' (hforth ▸ List.mem_cons_of_mem _ hmem)
  back_le := h.back_le
  waiting m terms' hwait := by
    have hw := h.waiting m terms' hwait
    exact hw.heard hforth fun hmem => absurd hforth (hw.granted hmem).not_cons
  opened m terms' hopen := absurd hforth (h.opened m terms' hopen).not_cons

theorem Inv.answer {grant : Bool} {rest : List (Nat × Bool)} (h : Inv s)
    (hback : s.back = (n, grant) :: rest) :
    Inv { s with back := rest, asker := s.asker.answered n grant } := by
  have hthin (a : Asker π) : Thinned s { s with back := rest, asker := a } :=
    ⟨List.Sublist.refl _, hback ▸ List.sublist_cons_self _ _, rfl, le_refl _⟩
  cases hasker : s.asker with
  | idle => exact h.thinned (hthin _) (.inl hasker.symm)
  | opened m terms => exact h.thinned (hthin _) (.inl hasker.symm)
  | waiting m terms =>
    by_cases hm : m = n
    · subst hm
      cases grant with
      | false => exact h.thinned (hthin _) (.inr (by simp [Asker.answered]))
      | true =>
        have hsettled := (h.waiting m terms hasker).granted (hback ▸ List.mem_cons_self)
        exact
          { forth_le := h.forth_le
            back_le := fun x hmem => h.back_le x (hback ▸ List.mem_cons_of_mem _ hmem)
            waiting := by simp [Asker.answered]
            opened := by
              intro k q hopen
              simp only [Asker.answered, if_true, Asker.opened.injEq] at hopen
              obtain ⟨rfl, rfl⟩ := hopen
              exact hsettled }
    · exact h.thinned (hthin _) (.inl (by simp [Asker.answered, hm, hasker]))

theorem inv_step {a : Act π} (h : Inv s) (hstep : step s a = some t) : Inv t := by
  cases a with
  | ask terms =>
    cases hasker : s.asker with
    | idle =>
      rw [step_ask hasker] at hstep
      exact Option.some.inj hstep ▸ h.ask
    | _ => simp [step, hasker] at hstep
  | skip =>
    cases hstep
    exact h.thinned ⟨List.Sublist.refl _, List.Sublist.refl _, rfl, Nat.le_succ _⟩ (.inl rfl)
  | abandon =>
    cases hstep
    exact h.thinned ⟨List.Sublist.refl _, List.Sublist.refl _, rfl, le_refl _⟩ (.inr rfl)
  | close =>
    cases hasker : s.asker with
    | opened n terms =>
      rw [step_close hasker] at hstep
      cases hstep
      exact
        { forth_le := by simpa using h.forth_le
          back_le := h.back_le
          waiting := by simp
          opened := by simp }
    | _ => simp [step, hasker] at hstep
  | hear grant =>
    cases hforth : s.forth with
    | nil => simp [step, hforth] at hstep
    | cons m rest =>
      cases m with
      | ask n terms =>
        rw [step_hear_ask hforth] at hstep
        exact Option.some.inj hstep ▸ h.hear_ask hforth
      | close =>
        rw [step_hear_close hforth] at hstep
        exact Option.some.inj hstep ▸ h.hear_close hforth
  | answer =>
    cases hback : s.back with
    | nil => simp [step, hback] at hstep
    | cons x rest =>
      rw [step_answer hback] at hstep
      exact Option.some.inj hstep ▸ h.answer hback
  | loseForth i =>
    cases hstep
    exact h.thinned ⟨List.eraseIdx_sublist _ _, List.Sublist.refl _, rfl, le_refl _⟩ (.inl rfl)
  | loseBack i =>
    cases hstep
    exact h.thinned ⟨List.Sublist.refl _, List.eraseIdx_sublist _ _, rfl, le_refl _⟩ (.inl rfl)

theorem inv_run {as : List (Act π)} (h : Inv s) (hrun : Machine.run step s as = some t) : Inv t :=
  Machine.run_preserves inv_step h hrun

/-- Where only some messages count, the loss of a message is the loss of one that counts or of none. -/
theorem exists_eraseIdx_filterMap {α β : Type*} (f : α → Option β) (l : List α) (i : Nat) :
    ∃ j, (l.eraseIdx i).filterMap f = (l.filterMap f).eraseIdx j := by
  induction l generalizing i with
  | nil => exact ⟨0, rfl⟩
  | cons a l ih =>
    cases i with
    | zero =>
      cases h : f a with
      | none =>
        refine ⟨(l.filterMap f).length, ?_⟩
        rw [List.filterMap_cons_none h, List.eraseIdx_of_length_le (le_refl _), List.eraseIdx_cons_zero]
      | some b => exact ⟨0, by simp [h]⟩
    | succ i =>
      obtain ⟨j, hj⟩ := ih i
      cases h : f a with
      | none => exact ⟨j, by simp [h, hj]⟩
      | some b => exact ⟨j + 1, by simp [h, hj]⟩

end Negotiation
