import Onebox.FlashBurn

/-! How far the burner gets ahead of the confirms, and that it comes to its end. -/

namespace Onebox

namespace Burn

/-- The event is not reset in the loop over the chunks between a count and its `set_event`. -/
def paces (s : Burn) (a : BurnAct) : Bool :=
  match s.pc, a with
  | .reset _, .burner => !s.counted
  | _, _ => true

/-- The chunks in the pipeline where the burner stands. After a reset the event stands for a confirm that
came after it. -/
def Paced (s : Burn) : Prop :=
  match s.pc with
  | .reset _ | .failure => s.unconfirmed ≤ 2
  | .compare _ | .wait _ => s.unconfirmed ≤ 2 ∧ (s.flashEvent = true ∨ s.counted = true → s.unconfirmed ≤ 1)
  | .write _ | .finalCompare | .finalReset | .finalWait | .success => s.unconfirmed ≤ 1

section Pacing

variable {s t : Burn} {a : BurnAct} {idx : Nat}

theorem Paced.le (h : s.Paced) : s.unconfirmed ≤ 2 := by
  rw [Paced] at h
  cases hpc : s.pc with
  | compare idx | wait idx =>
    rw [hpc] at h
    exact h.1
  | reset idx | failure =>
    rw [hpc] at h
    exact h
  | write idx | finalCompare | finalReset | finalWait | success =>
    rw [hpc] at h
    exact h.trans (by decide)

theorem next_paced (h : s.unconfirmed ≤ 1) : (s.next idx).Paced := by
  rw [next]
  split_ifs <;> exact h

theorem Paced.step (h : s.Paced) (hc : s.Counts) (hok : s.paces a = true) (hm : s.Moves a t) : t.Paced := by
  have hle := h.le
  cases hm with
  | write idx hpc =>
    rw [Paced, hpc] at h
    exact Nat.succ_le_succ h
  | writeFailed | timeout => exact hle
  | reset idx hpc =>
    have hidle : s.counted = false := by simpa [paces, hpc] using hok
    refine ⟨hle, fun hset => ?_⟩
    rcases hset with hset | hset
    · cases hset
    · cases hidle.symm.trans hset
  | block idx hpc =>
    rw [Paced, hpc] at h
    exact h
  | pass idx hpc hroom =>
    have hplaced := hc.placed
    rw [Placed, hpc] at hplaced
    rw [hc.inPipeline hplaced.1] at hroom
    exact next_paced (by omega)
  | wake idx hpc hev =>
    rw [Paced, hpc] at h
    exact next_paced (h.2 (.inl hev))
  | again hpc | finish hpc | finalReset hpc | finalWake hpc =>
    rw [Paced, hpc] at h
    exact h
  | confirm hidle hpos =>
    have hless : s.unconfirmed - 1 ≤ 1 := by omega
    rw [Paced]
    cases hpc : s.pc with
    | compare idx | wait idx => exact ⟨hless.trans (by decide), fun _ => hless⟩
    | reset idx | failure => exact hless.trans (by decide)
    | write idx | finalCompare | finalReset | finalWait | success => exact hless
  | notify hcounted =>
    rw [Paced] at h ⊢
    cases hpc : s.pc with
    | compare idx | wait idx =>
      rw [hpc] at h
      exact ⟨hle, fun _ => h.2 (.inr hcounted)⟩
    | reset idx | failure => exact hle
    | write idx | finalCompare | finalReset | finalWait | success =>
      rw [hpc] at h
      exact h

end Pacing

/-- What is left to do where the burner stands. A wait with the event set is worth more than the
comparison it leads to, and less than a confirm. -/
def rank (s : Burn) : Nat :=
  let event := s.flashEvent.toNat
  match s.pc with
  | .write _ => 3 + 4 * event
  | .reset _ => 5 + 5 * event
  | .compare _ => 4 + 5 * event
  | .wait _ => 1 + 7 * event
  | .finalCompare => 2 + 4 * event
  | .finalReset => 1 + 4 * event
  | .finalWait => 7 * event
  | .success | .failure => 4 * event

def work (s : Burn) : Nat :=
  20 * (s.numLoops - s.written) + 9 * s.unconfirmed + 8 * s.counted.toNat + s.rank

/-- The steps of a bus that fails no write and of confirms that come in time. -/
def steady (s : Burn) (a : BurnAct) : Bool := noneErased s a && s.paces a && a ≠ .write false

section Progress

variable {s t : Burn} {a : BurnAct} {idx : Nat}

theorem Hopeful.not_drained (h : s.Hopeful) (hpc : s.pc = .finalWait ∨ ∃ idx, s.pc = .wait idx) :
    s.drained = false := by
  have hleft : s.flashEvent = true ∨ s.counted = true ∨ 0 < s.unconfirmed := by
    rw [Hopeful] at h
    rcases hpc with hpc | ⟨idx, hpc⟩
    · rw [hpc] at h
      exact h
    · rw [hpc] at h
      exact h
  rw [drained]
  rcases hleft with hev | hcounted | hpos
  · simp [hev]
  · simp [hcounted]
  · simp [Nat.pos_iff_ne_zero.mp hpos]

theorem next_work (h : 3 + 4 * s.flashEvent.toNat < s.rank) : (s.next idx).work < s.work := by
  have hrank : (s.next idx).rank ≤ 3 + 4 * s.flashEvent.toNat := by
    rw [next]
    split_ifs
    · exact le_rfl
    · show 2 + 4 * s.flashEvent.toNat ≤ _
      omega
  show 20 * (s.numLoops - s.written) + 9 * s.unconfirmed + 8 * s.counted.toNat + (s.next idx).rank < s.work
  rw [work]
  omega

theorem rank_notified (counted : Bool) : rank { s with flashEvent := true, counted } ≤ s.rank + 7 := by
  cases hpc : s.pc <;> simp only [rank, hpc, Bool.toNat_true] <;> omega

theorem work_lt (h : s.Hopeful) (hc : s.Counts) (hm : s.Moves a t) : t.work < s.work := by
  have hbit : s.flashEvent.toNat ≤ 1 := Bool.toNat_le _
  cases hm with
  | write idx hpc =>
    have hplaced := hc.placed
    rw [Placed, hpc] at hplaced
    simp only [work, rank, goto, hpc]
    omega
  | writeFailed idx hpc =>
    simp only [work, rank, goto, hpc]
    omega
  | reset idx hpc =>
    simp only [work, rank, goto, hpc, Bool.toNat_false]
    omega
  | block idx hpc =>
    simp only [work, rank, goto, hpc]
    omega
  | pass idx hpc =>
    refine next_work ?_
    simp only [rank, hpc]
    omega
  | wake idx hpc hev =>
    refine next_work ?_
    simp only [rank, hpc, hev, Bool.toNat_true]
    omega
  | again hpc | finish hpc =>
    simp only [work, rank, goto, hpc]
    omega
  | finalReset hpc =>
    simp only [work, rank, goto, hpc, Bool.toNat_false]
    omega
  | finalWake hpc hev =>
    simp only [work, rank, goto, hpc, hev, Bool.toNat_true]
    omega
  | timeout hpc hdrained => simp [h.not_drained hpc] at hdrained
  | confirm hidle hpos =>
    have hrank : rank { s with
        unconfirmed := s.unconfirmed - 1, cfmCount := (s.cfmCount + 1) % 2 ^ 8, counted := true } = s.rank := rfl
    simp only [work, hrank, hidle, Bool.toNat_true, Bool.toNat_false]
    omega
  | notify hcounted =>
    have hrank := s.rank_notified false
    simp only [work, hcounted, Bool.toNat_true, Bool.toNat_false]
    omega

theorem Moves.numLoops_eq (hm : s.Moves a t) : t.numLoops = s.numLoops := by cases hm <;> rfl

theorem Moves.written_eq (hm : s.Moves a t) (ha : a ≠ .write true) : t.written = s.written := by
  cases hm with
  | write => exact absurd rfl ha
  | _ => rfl

theorem next_ne (idx : Nat) : (s.next idx).pc ≠ .success ∧ (s.next idx).pc ≠ .failure := by
  rw [next]
  split_ifs <;> exact ⟨by simp [goto], by simp [goto]⟩

theorem Hopeful.not_failure (h : s.Hopeful) (hok : s.steady a = true) (hm : s.Moves a t) (hf : s.pc ≠ .failure) :
    t.pc ≠ .failure := by
  cases hm with
  | writeFailed => simp [steady] at hok
  | timeout hpc hdrained => simp [h.not_drained hpc] at hdrained
  | pass idx | wake idx => exact (next_ne idx).2
  | confirm | notify => exact hf
  | _ => simp [goto]

/-- The burner returns success only when every chunk is confirmed. -/
theorem Counts.none_of_success (hc : s.Counts) (hm : s.Moves a t) (hs : s.pc ≠ .success) (ht : t.pc = .success) :
    t.unconfirmed = 0 := by
  cases hm with
  | finish hpc heq =>
    have hplaced := hc.placed
    have hsum := hc.sum
    simp only [Placed, hpc] at hplaced
    show s.unconfirmed = 0
    omega
  | pass idx | wake idx => exact absurd ht (next_ne idx).1
  | confirm | notify => exact absurd ht hs
  | _ => cases ht

def CanStep (s : Burn) : Prop := ∃ a t, s.steady a = true ∧ s.step a = some t

theorem canStep_notify (hcounted : s.counted = true) (hpc : s.pc ≠ .finalReset) : s.CanStep := by
  refine ⟨.notify, { s with flashEvent := true, counted := false }, ?_, if_pos hcounted⟩
  simp [steady, noneErased, paces, hpc]

theorem canStep_burner (hreset : ∀ idx, s.pc = .reset idx → s.counted = false) (ht : s.burner = some t) :
    s.CanStep := by
  refine ⟨.burner, t, ?_, ht⟩
  cases hpc : s.pc with
  | reset idx => simp [steady, noneErased, paces, hpc, hreset idx hpc]
  | _ => simp [steady, noneErased, paces, hpc]

theorem canStep_wait (h : s.Hopeful) (hpc : s.pc = .finalWait ∨ ∃ idx, s.pc = .wait idx) : s.CanStep := by
  have hreset : ∀ idx, s.pc = .reset idx → s.counted = false := by
    intro idx hr
    simp [hr] at hpc
  by_cases hev : s.flashEvent = true
  · have hwake : ∃ t, s.burner = some t := by
      rcases hpc with hpc | ⟨idx, hpc⟩
      · exact ⟨_, by simp only [burner, hpc, hev, if_true]; rfl⟩
      · exact ⟨_, by simp only [burner, hpc, hev, if_true]; rfl⟩
    obtain ⟨t, ht⟩ := hwake
    exact canStep_burner hreset ht
  · by_cases hcounted : s.counted = true
    · refine canStep_notify hcounted fun hr => ?_
      simp [hr] at hpc
    · have hdrained := h.not_drained hpc
      have hidle : s.counted = false := Bool.eq_false_of_not_eq_true hcounted
      have hpos : 0 < s.unconfirmed := by
        simp only [drained, Bool.eq_false_of_not_eq_true hev, hidle] at hdrained
        simpa [Nat.pos_iff_ne_zero] using hdrained
      refine ⟨.confirm, _, ?_, if_pos ⟨by simp [hidle], hpos⟩⟩
      simp [steady, noneErased, paces]

/-- While the burner has not returned, a step can be taken. -/
theorem canStep (h : s.Hopeful) (hs : s.pc ≠ .success) (hf : s.pc ≠ .failure) : s.CanStep := by
  cases hpc : s.pc with
  | write idx =>
    refine ⟨.write true, _, ?_, by simp only [step, hpc]; rfl⟩
    simp [steady, noneErased, paces]
  | reset idx =>
    cases hcounted : s.counted with
    | true => exact canStep_notify hcounted (by simp [hpc])
    | false => exact canStep_burner (fun _ _ => hcounted) (by simp only [burner, hpc]; rfl)
  | wait idx => exact canStep_wait h (.inr ⟨idx, hpc⟩)
  | finalWait => exact canStep_wait h (.inl hpc)
  | success => exact absurd hpc hs
  | failure => exact absurd hpc hf
  | compare idx | finalCompare | finalReset =>
    refine canStep_burner (fun idx hr => ?_) (by simp only [burner, hpc]; rfl)
    simp [hpc] at hr

end Progress

/-- What holds of a burn that began with the counter at zero, along steps that are `steady`. -/
structure Steady (s : Burn) : Prop where
  counts : s.Counts
  hopeful : s.Hopeful
  paced : s.Paced

theorem Steady.step {s t : Burn} {a : BurnAct} (h : s.Steady) (hok : s.steady a = true) (hs : s.step a = some t) :
    t.Steady := by
  have hm := moves_of_step hs
  have hok' : (noneErased s a = true ∧ s.paces a = true) ∧ a ≠ .write false := by
    simpa [steady] using hok
  exact ⟨h.counts.step hm, h.hopeful.step h.counts hok'.1.1 hm, h.paced.step h.counts hok'.1.2 hm⟩

end Burn

theorem triggerAutoFlashBurn_steady {s : Burn} {size : Nat} (hcfm : s.cfmCount = 0) (hnone : s.unconfirmed = 0)
    (hsize : size ≤ 400 * 1024) : (triggerAutoFlashBurn s size).Steady := by
  refine ⟨triggerAutoFlashBurn_counts hcfm hnone hsize, triggerAutoFlashBurn_hopeful, ?_⟩
  have hle : s.unconfirmed ≤ 1 := by omega
  rw [Burn.Paced]
  rcases triggerAutoFlashBurn_pc s size with ⟨hpc, -⟩ | ⟨hpc, -⟩
  · rw [hpc]
    exact hle
  · rw [hpc]
    exact hle

end Onebox
