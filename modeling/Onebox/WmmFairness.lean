import Onebox.WmmSelection

/-! How long a queue with packets waits. A pass from `GET_QUEUE_NUM` reads the lengths of the queues one
after the other, and packets come and go between the reads. -/

namespace Onebox

open Machine

/-- The lengths as one pass reads them: in the search for the least back-off, in the loop that adjusts the
weights, and of the chosen queue at the end. -/
structure Seen where
  sel : DataQ → Nat
  adj : DataQ → Nat
  chk : DataQ → Nat

/-- The contention between two passes. `again` is the variable `min` where the `goto` has been taken. -/
structure PassSys where
  wmm : Wmm
  again : Option Int

/-- A pass, or what calls do besides passes. -/
inductive PassAct
  | pass (seen : Seen)
  | account (selectedQnum : DataQ) (pktCnt : Nat)

/-- The first two loops with the value that `min` has before them. -/
def Wmm.choose (w : Wmm) (min : Int) (len : DataQ → Nat) : Int × DataQ :=
  if (List.finRange 8).any (w.contends len) then w.leastBackoff len else (min, bkQSta)

namespace PassSys

variable (s : PassSys)

def chosen (seen : Seen) : Int × DataQ := s.wmm.choose (s.again.getD 0) seen.sel

/-- The pass goes to `GET_QUEUE_NUM` again. -/
def repeats (seen : Seen) : Bool :=
  seen.chk (s.chosen seen).2 = 0 && (List.finRange 8).any (s.wmm.isFresh seen.adj (s.chosen seen).2)

def next : PassAct → PassSys
  | .pass seen =>
    { wmm := s.wmm.adjust seen.adj (s.chosen seen).1 (s.chosen seen).2
      again := if s.repeats seen then some (s.chosen seen).1 else none }
  | .account selectedQnum pktCnt => { s with wmm := { s.wmm with selectedQnum, pktCnt } }

def step (a : PassAct) : Option PassSys := some (s.next a)

/-- The queues that the passes of a run select. -/
def picks : PassSys → List PassAct → List DataQ
  | _, [] => []
  | s, .pass seen :: as => (s.chosen seen).2 :: picks (s.next (.pass seen)) as
  | s, .account q n :: as => picks (s.next (.account q n)) as

end PassSys

/-- The queue has packets whenever the pass looks. -/
def PassAct.Sees (q : DataQ) : PassAct → Prop
  | .pass seen => seen.sel q ≠ 0 ∧ seen.adj q ≠ 0 ∧ seen.chk q ≠ 0
  | .account .. => True

section Choose

variable {w : Wmm} {len : DataQ → Nat} {min : Int} {q : DataQ}

theorem choose_of_contends (h : w.contends len q = true) : w.choose min len = w.leastBackoff len :=
  if_pos (List.any_eq_true.mpr ⟨q, List.mem_finRange q, h⟩)

theorem choose_zero (w : Wmm) (len : DataQ → Nat) : w.choose 0 len = w.leastBackoff len := by
  rcases Wmm.leastBackoff_cases len w with ⟨hnone, hbk⟩ | hc
  · rw [Wmm.choose, if_neg, hbk]
    simp [hnone]
  · exact choose_of_contends hc

end Choose

/-! ## A call is a run of passes -/

section Calls

variable {len : DataQ → Nat} {w w' : Wmm} {o : Option DataQ}

/-- The lengths of a call during which no packet comes or goes. -/
def still (len : DataQ → Nat) : Seen := ⟨len, len, len⟩

/-- One pass is one round of `getQueueNum`. -/
theorem next_still {again : Option Int} (hmin : again.getD 0 = 0 ∨ ∃ i, w.contends len i = true) :
    PassSys.next ⟨w, again⟩ (.pass (still len)) =
      ⟨w.adjust len (w.leastBackoff len).1 (w.leastBackoff len).2,
        if len (w.leastBackoff len).2 = 0 ∧ (List.finRange 8).any (w.isFresh len (w.leastBackoff len).2) = true
        then some (w.leastBackoff len).1 else none⟩ := by
  have hchosen : PassSys.chosen ⟨w, again⟩ (still len) = w.leastBackoff len := by
    rcases hmin with hzero | ⟨i, hi⟩
    · rw [PassSys.chosen, hzero]
      exact choose_zero w len
    · exact choose_of_contends hi
  have hrepeats : PassSys.repeats ⟨w, again⟩ (still len) = true ↔ len (w.leastBackoff len).2 = 0 ∧
      (List.finRange 8).any (w.isFresh len (w.leastBackoff len).2) = true := by
    rw [PassSys.repeats, hchosen, Bool.and_eq_true, decide_eq_true_iff]
    rfl
  rw [PassSys.next, hchosen]
  simp only [hrepeats]
  rfl

/-- A queue that is fresh contends once the weights are adjusted. -/
theorem exists_contends_adjust {min : Int} {q : DataQ} (hfresh : (List.finRange 8).any (w.isFresh len q) = true) :
    ∃ i, (w.adjust len min q).contends len i = true := by
  obtain ⟨i, -, hi⟩ := List.any_eq_true.mp hfresh
  have hlen : len i ≠ 0 := by
    rw [Wmm.isFresh, Bool.and_eq_true] at hi
    simpa using hi.1
  have hadj : Wmm.Adjusted len w (w.adjust len min q) := Wmm.adjusted _ _
  exact ⟨i, hadj.contends_iff.mpr hlen⟩

theorem getQueueNum_eq_run {n : Nat} {again : Option Int}
    (hmin : again.getD 0 = 0 ∨ ∃ i, w.contends len i = true) (h : Wmm.getQueueNum len n w = some (w', o)) :
    ∃ k ≤ n, run PassSys.step ⟨w, again⟩ (List.replicate k (.pass (still len))) = some ⟨w', none⟩ := by
  induction n generalizing w again with
  | zero => cases h
  | succ n ih =>
    have hnext := next_still hmin
    rw [Wmm.getQueueNum] at h
    split_ifs at h with hlen hfresh
    · cases h
      rw [if_neg fun hrep => hlen hrep.1] at hnext
      exact ⟨1, by omega, by rw [List.replicate_one, run_cons, PassSys.step, hnext]; rfl⟩
    · obtain ⟨k, hk, hrun⟩ := ih (.inr (exists_contends_adjust hfresh)) h
      rw [if_pos ⟨not_not.mp hlen, hfresh⟩] at hnext
      refine ⟨k + 1, by omega, ?_⟩
      rw [List.replicate_succ, run_cons, PassSys.step, hnext]
      exact hrun
    · cases h
      rw [if_neg fun hrep => hfresh hrep.2] at hnext
      exact ⟨1, by omega, by rw [List.replicate_one, run_cons, PassSys.step, hnext]; rfl⟩

/-- A call makes at most two passes, and nothing else of it changes the contention. -/
theorem coreDetermineHalQueue_eq_run (len : DataQ → Nat) (w : Wmm) (mgmtLen : Nat) :
    ∃ k ≤ 2, ∃ q n, run PassSys.step ⟨w, none⟩ (List.replicate k (.pass (still len)) ++ [.account q n]) =
      some ⟨(w.coreDetermineHalQueue len mgmtLen).1, none⟩ := by
  rw [Wmm.coreDetermineHalQueue]
  by_cases hm : mgmtLen ≠ 0
  · rw [if_pos hm]
    exact ⟨0, by omega, w.selectedQnum, w.pktCnt, rfl⟩
  · rw [if_neg hm]
    by_cases hcnt : w.pktCnt ≠ 0
    · rw [if_pos hcnt]
      exact ⟨0, by omega, w.selectedQnum, w.pktCnt - 1, rfl⟩
    · rw [if_neg hcnt]
      obtain ⟨w', o, hget, -, -⟩ := Wmm.getQueueNum_eq_some len w 0
      have hnone : (none : Option Int).getD 0 = 0 ∨ ∃ i, w.contends len i = true := .inl rfl
      obtain ⟨k, hk, hrun⟩ := getQueueNum_eq_run hnone hget
      rw [hget]
      cases o with
      | none =>
        refine ⟨k, hk, w'.selectedQnum, w'.pktCnt, ?_⟩
        rw [run_append, hrun]
        rfl
      | some q =>
        refine ⟨k, hk, q, (w'.select len q).pktCnt, ?_⟩
        rw [run_append, hrun]
        rfl

end Calls

/-! ## The wait of a queue -/

/-- The weights stay between 0 and the largest original one. -/
structure Weighted (W : Nat) (s : PassSys) : Prop where
  org : ∀ q, 1 ≤ s.wmm.wmeOrgQ q ∧ s.wmm.wmeOrgQ q ≤ W
  wt : ∀ q, 0 ≤ s.wmm.perQWt q ∧ s.wmm.perQWt q ≤ W
  again : ∀ min, s.again = some min → 0 ≤ min

namespace Weighted

variable {W : Nat} {s : PassSys} {seen : Seen} {q : DataQ}

theorem fits (h : Weighted W s) (hW : W ≤ 255) : Wmm.Fits s.wmm.perQWt := by
  intro i
  have hi := h.wt i
  omega

theorem chosen_nonneg (h : Weighted W s) (hW : W ≤ 255) (seen : Seen) : 0 ≤ (s.chosen seen).1 := by
  rw [PassSys.chosen, Wmm.choose]
  split_ifs with hany
  · obtain ⟨i, -, hi⟩ := List.any_eq_true.mp hany
    rw [(Wmm.leastBackoff_isLeast (h.fits hW) hi).1]
    exact (h.wt _).1
  · cases hagain : s.again with
    | none => exact le_refl 0
    | some min => exact h.again min hagain

theorem next (h : Weighted W s) (hW : W ≤ 255) (a : PassAct) : Weighted W (s.next a) := by
  cases a with
  | account q n => exact ⟨h.org, h.wt, h.again⟩
  | pass seen =>
    have hmin := h.chosen_nonneg hW seen
    refine ⟨h.org, fun q => ?_, fun min hagain => ?_⟩
    · have horg := h.org q
      have hwt := h.wt q
      simp only [PassSys.next, Wmm.adjust]
      split_ifs <;> omega
    · simp only [PassSys.next] at hagain
      split_ifs at hagain
      rw [← Option.some.inj hagain]
      exact hmin

end Weighted

/-- The queues other than `q` that contend without any back-off left. -/
def zeros (q : DataQ) (w : Wmm) : Finset DataQ :=
  Finset.univ.filter fun i => i ≠ q ∧ w.pktContended i = true ∧ w.perQWt i = 0

/-- What lies between a queue that contends and its selection: back-off of its own, and for as long as that
does not shrink, the queues without any that are taken in its place. -/
def waits (q : DataQ) (w : Wmm) : Nat := 8 * (w.perQWt q).toNat + (zeros q w).card

section Wait

variable {W : Nat} {s : PassSys} {seen : Seen} {q : DataQ}

theorem card_zeros_le (q : DataQ) (w : Wmm) : (zeros q w).card ≤ 7 := by
  have hsub : zeros q w ⊆ Finset.univ.erase q := by
    intro i hi
    exact Finset.mem_erase.mpr ⟨(Finset.mem_filter.mp hi).2.1, Finset.mem_univ i⟩
  have hcard : (Finset.univ.erase q).card = 7 := by
    rw [Finset.card_erase_of_mem (Finset.mem_univ q)]
    rfl
  exact hcard ▸ Finset.card_le_card hsub

theorem waits_le (h : Weighted W s) (q : DataQ) : waits q s.wmm ≤ 8 * W + 7 := by
  have hcard := card_zeros_le q s.wmm
  have hwt := h.wt q
  rw [waits]
  omega

/-- A queue that goes on contending keeps what is left of its back-off. -/
theorem adjust_perQWt_of_stays {w : Wmm} {len : DataQ → Nat} {min : Int} {c : DataQ} (hlen : len q ≠ 0)
    (hc : q ≠ c) (hcont : w.pktContended q = true) :
    (w.adjust len min c).perQWt q = if min < w.perQWt q then w.perQWt q - min else 0 := by
  have hfresh : ¬ w.isFresh len c q = true := by simp [Wmm.isFresh, hc, hcont]
  simp only [Wmm.adjust, if_neg hlen, if_neg hfresh]

/-- With nothing to subtract, the queues without back-off are what they were, less the chosen one. -/
theorem zeros_adjust_subset {w : Wmm} {len : DataQ → Nat} {c : DataQ} (horg : ∀ i, 1 ≤ w.wmeOrgQ i)
    (hwt : ∀ i, 0 ≤ w.perQWt i) : zeros q (w.adjust len 0 c) ⊆ (zeros q w).erase c := by
  intro i hi
  obtain ⟨-, hiq, hcont, hzero⟩ := Finset.mem_filter.mp hi
  have hlen : len i ≠ 0 := by simpa [Wmm.adjust] using hcont
  have hstays : ¬ w.isFresh len c i = true := by
    intro hfresh
    simp only [Wmm.adjust, if_neg hlen, if_pos hfresh] at hzero
    have horgi := horg i
    omega
  simp only [Wmm.isFresh, hlen, ne_eq, not_false_eq_true, decide_true, Bool.true_and, Bool.or_eq_true,
    decide_eq_true_eq, Bool.not_eq_true', not_or, Bool.not_eq_false] at hstays
  rw [adjust_perQWt_of_stays hlen hstays.1 hstays.2] at hzero
  have hwti := hwt i
  have hold : w.perQWt i = 0 := by
    split_ifs at hzero <;> omega
  exact Finset.mem_erase.mpr ⟨hstays.1, Finset.mem_filter.mpr ⟨Finset.mem_univ i, hiq, hstays.2, hold⟩⟩

/-- A pass that selects another queue brings a queue that contends nearer to its own turn. -/
theorem waits_next_lt (h : Weighted W s) (hW : W ≤ 255) (hcont : s.wmm.pktContended q = true)
    (hsees : (PassAct.pass seen).Sees q) (hother : (s.chosen seen).2 ≠ q) :
    waits q (s.next (.pass seen)).wmm < waits q s.wmm := by
  obtain ⟨hsel, hadj, -⟩ := hsees
  have hq : s.wmm.contends seen.sel q = true := Wmm.contends_iff.mpr ⟨hcont, hsel⟩
  have hchosen : s.chosen seen = s.wmm.leastBackoff seen.sel := choose_of_contends hq
  obtain ⟨hmin, hc, hleast⟩ := Wmm.leastBackoff_isLeast (h.fits hW) hq
  rw [← hchosen] at hmin hc hleast
  have hle : (s.chosen seen).1 ≤ s.wmm.perQWt q := hmin ▸ (hleast q hq).le
  have hwt := h.wt q
  have hnext : (s.next (.pass seen)).wmm.perQWt q =
      if (s.chosen seen).1 < s.wmm.perQWt q then s.wmm.perQWt q - (s.chosen seen).1 else 0 :=
    adjust_perQWt_of_stays hadj hother.symm hcont
  rw [waits, waits, hnext]
  by_cases hzero : (s.chosen seen).1 = 0
  · -- the back-off stays, and the chosen queue is no longer among those without
    have hmem : (s.chosen seen).2 ∈ zeros q s.wmm := by
      refine Finset.mem_filter.mpr ⟨Finset.mem_univ _, hother, (Wmm.contends_iff.mp hc).1, ?_⟩
      rw [← hmin, hzero]
    have hsub : zeros q (s.next (.pass seen)).wmm ⊆ (zeros q s.wmm).erase (s.chosen seen).2 := by
      rw [PassSys.next, hzero]
      exact zeros_adjust_subset (fun i => (h.org i).1) fun i => (h.wt i).1
    have hless := (Finset.card_le_card hsub).trans_lt (Finset.card_erase_lt_of_mem hmem)
    rw [hzero]
    split_ifs <;> omega
  · have hpos : 0 < (s.chosen seen).1 := lt_of_le_of_ne (h.chosen_nonneg hW seen) (Ne.symm hzero)
    have hcard := card_zeros_le q (s.next (.pass seen)).wmm
    split_ifs <;> omega

theorem contended_next {a : PassAct} (hsees : a.Sees q) (hcont : s.wmm.pktContended q = true) :
    (s.next a).wmm.pktContended q = true := by
  cases a with
  | account i n => exact hcont
  | pass seen => exact decide_eq_true hsees.2.1

/-- Passes that select other queues are no more than what the queue has to wait. -/
theorem length_picks_le (hW : W ≤ 255) {as : List PassAct} (h : Weighted W s)
    (hcont : s.wmm.pktContended q = true) (hsees : ∀ a ∈ as, a.Sees q) (hnot : q ∉ s.picks as) :
    (s.picks as).length ≤ waits q s.wmm := by
  induction as generalizing s with
  | nil => exact Nat.zero_le _
  | cons a as ih =>
    have ha := hsees a List.mem_cons_self
    have hrest : ∀ b ∈ as, b.Sees q := fun b hb => hsees b (List.mem_cons_of_mem a hb)
    have hnext := h.next hW a
    have hcont' := contended_next ha hcont
    cases a with
    | account i n => exact ih hnext hcont' hrest hnot
    | pass seen =>
      rw [PassSys.picks, List.mem_cons, not_or] at hnot
      have hlen := ih hnext hcont' hrest hnot.2
      have hless := waits_next_lt h hW hcont ha (Ne.symm hnot.1)
      rw [PassSys.picks, List.length_cons]
      omega

/-- The first pass makes the queue contend, if it did not before. -/
theorem length_picks_lt (hW : W ≤ 255) {as : List PassAct} (h : Weighted W s) (hsees : ∀ a ∈ as, a.Sees q)
    (hnot : q ∉ s.picks as) : (s.picks as).length < 8 * (W + 2) := by
  induction as generalizing s with
  | nil => exact Nat.mul_pos (by decide) (Nat.succ_pos _)
  | cons a as ih =>
    have ha := hsees a List.mem_cons_self
    have hrest : ∀ b ∈ as, b.Sees q := fun b hb => hsees b (List.mem_cons_of_mem a hb)
    have hnext := h.next hW a
    cases a with
    | account i n => exact ih hnext hrest hnot
    | pass seen =>
      rw [PassSys.picks, List.mem_cons, not_or] at hnot
      have hlen := length_picks_le hW hnext (decide_eq_true ha.2.1) hrest hnot.2
      have hwaits := waits_le hnext q
      rw [PassSys.picks, List.length_cons]
      omega

end Wait

/-- After `onebox_set_contention_vals`, with `min` as a call starts. -/
def PassSys.start (w : Wmm) (org : DataQ → Int) : PassSys := { wmm := w.resetContention org, again := none }

theorem weighted_start {W : Nat} {org : DataQ → Int} (w : Wmm) (horg : ∀ q, 1 ≤ org q ∧ org q ≤ W) :
    Weighted W (.start w org) := by
  refine ⟨horg, fun q => ?_, fun min hmin => by cases hmin⟩
  have hq := horg q
  exact ⟨by show 0 ≤ org q; omega, hq.2⟩

/-- No queue starves: in any run, one that keeps packets is selected within `8 * (W + 2)` passes. -/
theorem selected_within {W : Nat} (hW : W ≤ 255) {org : DataQ → Int} (horg : ∀ q, 1 ≤ org q ∧ org q ≤ W)
    {w : Wmm} {before as : List PassAct} {s : PassSys} (hrun : run PassSys.step (.start w org) before = some s)
    {q : DataQ} (hsees : ∀ a ∈ as, a.Sees q) (hpasses : (s.picks as).length = 8 * (W + 2)) :
    q ∈ s.picks as := by
  have hkeep : ∀ {s t : PassSys} {a : PassAct}, Weighted W s → s.step a = some t → Weighted W t := by
    intro s t a h hstep
    rw [← Option.some.inj hstep]
    exact h.next hW a
  have h : Weighted W s := run_preserves hkeep (weighted_start w horg) hrun
  by_contra hnot
  exact absurd hpasses (length_picks_lt hW h hsees hnot).ne

theorem length_picks_replicate (s : PassSys) (seen : Seen) (n : Nat) :
    (s.picks (List.replicate n (.pass seen))).length = n := by
  induction n generalizing s with
  | zero => rfl
  | succ n ih => rw [List.replicate_succ, PassSys.picks, List.length_cons, ih]

/-- Background traffic among seven other queues that never run empty, with the weights of `voiceParams`. -/
theorem selected_within_background :
    bkQSta ∈ (PassSys.start SoftQueues.voiceStart.wmm SoftQueues.voiceParams.wmeOrgQ).picks
      (List.replicate (8 * (97 + 2)) (.pass (still fun _ => 1))) := by
  have horg : ∀ q, 1 ≤ SoftQueues.voiceParams.wmeOrgQ q ∧ SoftQueues.voiceParams.wmeOrgQ q ≤ (97 : Nat) := by
    decide
  refine selected_within (by decide) horg (run_nil _) (fun a ha => ?_) (length_picks_replicate _ _ _)
  rw [List.eq_of_mem_replicate ha]
  exact ⟨one_ne_zero, one_ne_zero, one_ne_zero⟩

end Onebox
