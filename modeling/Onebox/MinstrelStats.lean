import Onebox.MinstrelReset

/-! The statistics of a node over its rounds: the probabilities and throughputs stay small, the three
chosen rates are the best ones, and only the history counters can leave 32 bits. -/

namespace Onebox

open Calls

/-- The value fits into the type it is computed in. -/
def MinstrelEvent.InRange : MinstrelEvent → Prop
  | .uint32 v => 0 ≤ v ∧ v < 2 ^ 32
  | .int32 v => -2 ^ 31 ≤ v ∧ v < 2 ^ 31
  | .rate _ | .sample _ => True

theorem inRange_allowsSmall : AllowsSmall MinstrelEvent.InRange := by
  intro v hv
  simp only [MinstrelEvent.InRange]
  omega

/-! The entry of one rate. -/

/-- The average of the last probability and the new one. -/
def MinstrelRate.average (mr : MinstrelRate) (mp : MinstrelPriv) (st : RateStats) : Nat :=
  (st.success * 18000 / st.attempts * (100 - mp.ewmaLevel) + mr.probability * mp.ewmaLevel) / 100

def MinstrelRate.averaged (mr : MinstrelRate) (mp : MinstrelPriv) (st : RateStats) : MinstrelRate :=
  if st.attempts = 0 then mr
  else
    { mr with
      succHist := (mr.succHist + st.success) % 2 ^ 32
      attHist := (mr.attHist + st.attempts) % 2 ^ 32
      curProb := st.success * 18000 / st.attempts
      probability := mr.average mp st
      curTp := mr.average mp st * (1000000 / mr.usecs) }

/-- What a round makes of an entry. -/
def MinstrelRate.updated (mr : MinstrelRate) (mp : MinstrelPriv) (st : RateStats) : MinstrelRate :=
  ((mr.averaged mp st).cleared st).adjusted

section Rate

variable {P : MinstrelEvent → Prop} {mp : MinstrelPriv} {mr : MinstrelRate} {st : RateStats}

theorem success_scaled_le (h : st.success ≤ st.attempts) : st.success * 18000 / st.attempts ≤ 18000 := by
  exact Nat.div_le_of_le_mul (Nat.mul_le_mul_right 18000 h)

theorem average_le (hlevel : mp.ewmaLevel ≤ 100) (h : st.success ≤ st.attempts)
    (hprob : mr.probability ≤ 18000) : mr.average mp st ≤ 18000 := by
  have hnew := Nat.mul_le_mul_right (100 - mp.ewmaLevel) (success_scaled_le h)
  have hold := Nat.mul_le_mul_right mp.ewmaLevel hprob
  rw [MinstrelRate.average]
  omega

theorem usecs_ge (htime : 10 ≤ mr.perfectTxTime) : 1000000 / mr.usecs ≤ 100000 := by
  have husecs : 10 ≤ mr.usecs := by
    rw [MinstrelRate.usecs]
    split_ifs <;> omega
  exact Nat.div_le_div_left husecs (by norm_num)

/-- Only the two history counters need room for more than the values of this round. -/
theorem updateRate_ensures (hP : AllowsSmall P) (hlevel : mp.ewmaLevel ≤ 100)
    (htime : 10 ≤ mr.perfectTxTime) (hprob : mr.probability ≤ 18000) (hst : st.success ≤ st.attempts)
    (hhist : st.attempts ≠ 0 →
      P (.uint32 (mr.succHist + st.success)) ∧ P (.uint32 (mr.attHist + st.attempts))) :
    Ensures P (· = mr.updated mp st) (updateRate mp mr st) := by
  suffices h : Ensures P (· = mr.averaged mp st) (updateProbability mp mr st) from
    h.bind fun mr' hmr' => Ensures.pure (by rw [hmr', MinstrelRate.updated])
  rw [updateProbability, MinstrelRate.averaged]
  by_cases hzero : st.attempts = 0
  · rw [if_pos hzero, if_pos hzero]
    exact Ensures.pure rfl
  rw [if_neg hzero, if_neg hzero]
  have hattempts : st.attempts < 2 ^ 16 := UInt16.toNat_lt _
  have hnew := Nat.mul_le_mul_right (100 - mp.ewmaLevel) (success_scaled_le hst)
  have hold := Nat.mul_le_mul_right mp.ewmaLevel hprob
  have hspeed := Nat.mul_le_mul (average_le hlevel hst hprob) (usecs_ge htime)
  have hwrap : ∀ a b : Nat, P (.uint32 (a + b)) → Ensures P (· = (a + b) % 2 ^ 32) (u32 (a + b)) := by
    intro a b h
    exact Ensures.of_eq rfl (List.forall_mem_singleton.mpr h) (by omega)
  refine u32_bind hP (st.success * 18000) (by push_cast; rfl) (by omega) ?_
  refine (hwrap _ _ (hhist hzero).1).bind ?_
  rintro _ rfl
  refine (hwrap _ _ (hhist hzero).2).bind ?_
  rintro _ rfl
  refine u32_bind hP (100 - mp.ewmaLevel) (by omega) (by omega) ?_
  refine u32_bind hP (st.success * 18000 / st.attempts * (100 - mp.ewmaLevel)) (by push_cast; rfl)
    (by omega) ?_
  refine u32_bind hP (mr.probability * mp.ewmaLevel) (by push_cast; rfl) (by omega) ?_
  refine u32_bind hP (st.success * 18000 / st.attempts * (100 - mp.ewmaLevel) +
    mr.probability * mp.ewmaLevel) (by push_cast; rfl) (by omega) ?_
  refine u32_bind hP (mr.average mp st * (1000000 / mr.usecs)) (by push_cast; rfl) (by omega) ?_
  exact Ensures.pure rfl

/-- Whatever the counters are, the entry keeps its rate and gets a count that is not 0. -/
structure KeptRate (mr mr' : MinstrelRate) : Prop where
  hix : mr'.hix = mr.hix
  perfectTxTime : mr'.perfectTxTime = mr.perfectTxTime
  retryCount : mr'.retryCount = mr.retryCount
  one_le : 1 ≤ mr'.adjustedRetryCount
  le_max : mr'.adjustedRetryCount ≤ max mr.retryCount 2

theorem KeptRate.of_adjusted {mr' : MinstrelRate} (hhix : mr'.hix = mr.hix)
    (htime : mr'.perfectTxTime = mr.perfectTxTime) (hretry : mr'.retryCount = mr.retryCount) :
    KeptRate mr mr'.adjusted := by
  have hcount : 1 ≤ mr'.adjusted.adjustedRetryCount ∧
      mr'.adjusted.adjustedRetryCount ≤ max mr.retryCount 2 := by
    rw [← hretry, MinstrelRate.adjusted]
    dsimp only
    split_ifs <;> omega
  exact ⟨hhix, htime, hretry, hcount.1, hcount.2⟩

theorem updateRate_returns : Ensures (fun _ => True) (KeptRate mr) (updateRate mp mr st) := by
  refine ⟨fun _ _ => trivial, ?_⟩
  rw [updateRate, updateProbability]
  by_cases hzero : st.attempts = 0
  · rw [if_pos hzero]
    exact ⟨_, rfl, KeptRate.of_adjusted rfl rfl rfl⟩
  · rw [if_neg hzero]
    exact ⟨_, rfl, KeptRate.of_adjusted rfl rfl rfl⟩

theorem attHist_mem_log (h : st.attempts ≠ 0) :
    .uint32 (mr.attHist + st.attempts) ∈ (updateRate mp mr st).log := by
  refine mem_log_bind.mpr (.inl ?_)
  rw [updateProbability, if_neg h]
  exact List.mem_cons_of_mem _ (List.mem_cons_of_mem _ List.mem_cons_self)

end Rate

/-! A round. -/

/-- The counters after the passes over the rates below `i`. -/
def countersAt (hix : Nat → Nat) (stats : Nat → RateStats) : Nat → Nat → RateStats
  | 0 => stats
  | i + 1 => Function.update (countersAt hix stats i) (hix i) ⟨0, 0⟩

/-- What the pass over the rate `i` reads. -/
def countersOf (hix : Nat → Nat) (stats : Nat → RateStats) (i : Nat) : RateStats :=
  countersAt hix stats i (hix i)

def MinstrelNode.hix (sn : MinstrelNode) (i : Nat) : Nat := (sn.r i).hix

section Counters

variable {hix : Nat → Nat} {stats : Nat → RateStats}

theorem countersAt_zero_or (hix : Nat → Nat) (stats : Nat → RateStats) (i h : Nat) :
    countersAt hix stats i h = ⟨0, 0⟩ ∨ countersAt hix stats i h = stats h := by
  induction i with
  | zero => exact .inr rfl
  | succ i ih =>
    by_cases hih : h = hix i
    · rw [countersAt, hih, Function.update_self]
      exact .inl rfl
    · rwa [countersAt, Function.update_of_ne hih]

theorem countersAt_of_ne {i h : Nat} (hne : ∀ j < i, hix j ≠ h) : countersAt hix stats i h = stats h := by
  induction i with
  | zero => rfl
  | succ i ih =>
    rw [countersAt, Function.update_of_ne (hne i (Nat.lt_succ_self i)).symm]
    exact ih fun j hj => hne j (Nat.lt_succ_of_lt hj)

theorem countersOf_attempts_le (i : Nat) : (countersOf hix stats i).attempts ≤ (stats (hix i)).attempts := by
  rcases countersAt_zero_or hix stats i (hix i) with h | h
  · rw [countersOf, h]
    exact Nat.zero_le _
  · rw [countersOf, h]

theorem countersOf_success_le (hstats : ∀ h, (stats h).success ≤ (stats h).attempts) (i : Nat) :
    (countersOf hix stats i).success ≤ (countersOf hix stats i).attempts := by
  rcases countersAt_zero_or hix stats i (hix i) with h | h
  · rw [countersOf, h]
    exact Nat.le_refl _
  · rw [countersOf, h]
    exact hstats _

end Counters

/-- What the rounds keep of an entry. -/
structure SoundRates (sn : MinstrelNode) : Prop where
  time : ∀ i < sn.nRates, 10 ≤ (sn.r i).perfectTxTime
  probability : ∀ i < sn.nRates, (sn.r i).probability ≤ 18000

theorem ResetNode.soundRates {rates : NodeRates} {sn sn' : MinstrelNode} (h : ResetNode rates sn sn') :
    SoundRates sn' := by
  refine ⟨fun i hi => ?_, fun i hi => ?_⟩
  · exact (h.fresh i (h.nRates ▸ hi)).le_perfectTxTime
  · rw [(h.fresh i (h.nRates ▸ hi)).probability]
    exact Nat.zero_le _

section Round

variable {P : MinstrelEvent → Prop} {mp : MinstrelPriv} {R : Nat → MinstrelRate → Prop} {sn : MinstrelNode}
  {stats : Nat → RateStats}

theorem updateRates_ensures {n : Nat} (hrate : ∀ i < n, P (.rate i))
    (hupdate : ∀ i < n, Ensures P (R i) (updateRate mp (sn.r i) (countersOf sn.hix stats i))) :
    Ensures P (fun s : MinstrelNode × (Nat → RateStats) =>
        UpdatedTo R sn n s.1 ∧ s.2 = countersAt sn.hix stats n)
      (forUpTo (updateRateAt mp) n (sn, stats)) := by
  refine Ensures.forUpTo (fun k (s : MinstrelNode × (Nat → RateStats)) =>
    UpdatedTo R sn k s.1 ∧ s.2 = countersAt sn.hix stats k) ?_ ?_
  · exact ⟨updatedTo_zero R sn, rfl⟩
  · rintro k hk ⟨sn', stats'⟩ ⟨hupdated, rfl⟩
    refine rateAt_bind (hrate k hk) ?_
    dsimp only at hupdated ⊢
    rw [hupdated.rest k (Nat.le_refl k)]
    refine (hupdate k hk).bind fun mr hmr => ?_
    exact setRate_bind (hrate k hk) (Ensures.pure ⟨hupdated.step hmr, rfl⟩)

end Round

/-- The best of the values `f i` with `i < k` in `S`, or the start if there is none above 0. -/
structure Best.Ranks (f : Nat → Nat) (S : Nat → Prop) (k : Nat) (best : Best) : Prop where
  above : ∀ i < k, S i → f i ≤ best.value
  attained : best = ⟨0, 0⟩ ∨ best.index < k ∧ S best.index ∧ best.value = f best.index

section Ranking

variable {f : Nat → Nat} {S : Nat → Prop} {k : Nat} {best : Best}

theorem Best.ranks_zero : Best.Ranks f S 0 ⟨0, 0⟩ := ⟨fun i hi => absurd hi (Nat.not_lt_zero i), .inl rfl⟩

theorem Best.Ranks.skip (h : best.Ranks f S k) (hk : ¬ S k) : best.Ranks f S (k + 1) := by
  refine ⟨fun i hi hS => ?_, ?_⟩
  · have hik : i ≠ k := fun he => hk (he ▸ hS)
    exact h.above i (by omega) hS
  · rcases h.attained with hstart | ⟨hlt, hS, hval⟩
    · exact .inl hstart
    · exact .inr ⟨Nat.lt_succ_of_lt hlt, hS, hval⟩

theorem Best.Ranks.offer (h : best.Ranks f S k) (hk : S k) : (best.offer k (f k)).Ranks f S (k + 1) := by
  rw [Best.offer]
  by_cases hbetter : best.value < f k
  · rw [if_pos hbetter]
    refine ⟨fun i hi hS => ?_, .inr ⟨Nat.lt_succ_self k, hk, rfl⟩⟩
    by_cases hik : i = k
    · rw [hik]
    · exact Nat.le_of_lt (Nat.lt_of_le_of_lt (h.above i (by omega) hS) hbetter)
  · rw [if_neg hbetter]
    refine ⟨fun i hi hS => ?_, ?_⟩
    · by_cases hik : i = k
      · rw [hik]
        exact Nat.le_of_not_lt hbetter
      · exact h.above i (by omega) hS
    · rcases h.attained with hstart | ⟨hlt, hS, hval⟩
      · exact .inl hstart
      · exact .inr ⟨Nat.lt_succ_of_lt hlt, hS, hval⟩

/-- If all start values are 0, the index 0 is as good as any. -/
theorem Best.Ranks.argmax (h : best.Ranks f (fun _ => True) k) (hk : 0 < k) :
    best.index < k ∧ ∀ i < k, f i ≤ f best.index := by
  rcases h.attained with hstart | ⟨hlt, -, hval⟩
  · rw [hstart]
    refine ⟨hk, fun i hi => ?_⟩
    have hzero := h.above i hi trivial
    rw [hstart] at hzero
    exact Nat.le_trans hzero (Nat.zero_le _)
  · exact ⟨hlt, fun i hi => hval ▸ h.above i hi trivial⟩

theorem Best.Ranks.index_lt (h : best.Ranks f S k) (hk : 0 < k) : best.index < k := by
  rcases h.attained with hstart | ⟨hlt, -, -⟩
  · rwa [hstart]
  · exact hlt

theorem Best.Ranks.of_pos (h : best.Ranks f S k) {i : Nat} (hi : i < k) (hS : S i) (hpos : 0 < f i) :
    S best.index ∧ ∀ j < k, S j → f j ≤ f best.index := by
  rcases h.attained with hstart | ⟨-, hbest, hval⟩
  · have hzero := h.above i hi hS
    rw [hstart] at hzero
    exact absurd hpos (Nat.not_lt_of_le hzero)
  · exact ⟨hbest, fun j hj hSj => hval ▸ h.above j hj hSj⟩

end Ranking

/-- The three rates that `minstrel_update_stats` chooses. -/
structure MinstrelNode.Ranked (sn : MinstrelNode) : Prop where
  maxTpRate_lt : sn.maxTpRate < sn.nRates
  maxTpRate2_lt : sn.maxTpRate2 < sn.nRates
  maxProbRate_lt : sn.maxProbRate < sn.nRates
  maxTpRate : ∀ i < sn.nRates, (sn.r i).curTp ≤ (sn.r sn.maxTpRate).curTp
  maxProbRate : ∀ i < sn.nRates, (sn.r i).probability ≤ (sn.r sn.maxProbRate).probability
  maxTpRate2 : (∃ i < sn.nRates, i ≠ sn.maxTpRate ∧ 0 < (sn.r i).curTp) → sn.maxTpRate2 ≠ sn.maxTpRate ∧
    ∀ i < sn.nRates, i ≠ sn.maxTpRate → (sn.r i).curTp ≤ (sn.r sn.maxTpRate2).curTp

section Update

variable {P : MinstrelEvent → Prop} {mp : MinstrelPriv} {sn : MinstrelNode} {c : StatsRound}

theorem rank_ensures {n : Nat} (hrate : ∀ i < n, P (.rate i)) :
    Ensures P (fun b => b.1.Ranks (fun i => (sn.r i).curTp) (fun _ => True) n ∧
        b.2.Ranks (fun i => (sn.r i).probability) (fun _ => True) n)
      (forUpTo (rankAt sn) n (⟨0, 0⟩, ⟨0, 0⟩)) := by
  refine Ensures.forUpTo (fun k (b : Best × Best) => b.1.Ranks (fun i => (sn.r i).curTp) (fun _ => True) k ∧
    b.2.Ranks (fun i => (sn.r i).probability) (fun _ => True) k) ⟨Best.ranks_zero, Best.ranks_zero⟩ ?_
  intro k hk b hb
  exact rateAt_bind (hrate k hk) (Ensures.pure ⟨hb.1.offer trivial, hb.2.offer trivial⟩)

theorem rankSecond_ensures {n indexMaxTp : Nat} (hrate : ∀ i < n, P (.rate i)) :
    Ensures P (Best.Ranks (fun i => (sn.r i).curTp) (· ≠ indexMaxTp) n)
      (forUpTo (rankSecondAt sn indexMaxTp) n ⟨0, 0⟩) := by
  refine Ensures.forUpTo (Best.Ranks (fun i => (sn.r i).curTp) (· ≠ indexMaxTp)) Best.ranks_zero ?_
  intro k hk b hb
  rw [rankSecondAt]
  by_cases hmax : k = indexMaxTp
  · rw [if_pos hmax]
    exact Ensures.pure (hb.skip (not_not_intro hmax))
  · rw [if_neg hmax]
    exact rateAt_bind (hrate k hk) (Ensures.pure (hb.offer hmax))

/-- The node after a round that passes the checks and makes entries with `R`. -/
structure RoundResult (R : Nat → MinstrelRate → Prop) (sn sn' : MinstrelNode) : Prop where
  rates : ∀ i < sn.nRates, R i (sn'.r i)
  beyond : ∀ i, sn.nRates ≤ i → sn'.r i = sn.r i
  ranked : 0 < sn.nRates → sn'.Ranked
  kept : sn' = { sn with
    r := sn'.r, maxTpRate := sn'.maxTpRate, maxTpRate2 := sn'.maxTpRate2, maxProbRate := sn'.maxProbRate }

theorem minstrelUpdateStats_ensures {R : Nat → MinstrelRate → Prop} (hrate : ∀ i < sn.nRates, P (.rate i))
    (hupdate : ∀ i < sn.nRates, Ensures P (R i) (updateRate mp (sn.r i) (countersOf sn.hix c.stats i)))
    (hc : c.passes = true) : Ensures P (RoundResult R sn) (minstrelUpdateStats mp c sn) := by
  rw [minstrelUpdateStats, if_pos hc]
  refine (updateRates_ensures hrate hupdate).bind ?_
  rintro ⟨sn', stats'⟩ ⟨⟨hdone, hrest, hkept⟩, -⟩
  dsimp only at hdone hrest hkept ⊢
  have hn : sn'.nRates = sn.nRates := by rw [hkept]
  refine (rank_ensures (hn.symm ▸ hrate)).bind ?_
  rintro ⟨tp, prob⟩ ⟨htp, hprob⟩
  dsimp only
  refine (rankSecond_ensures (hn.symm ▸ hrate)).bind fun tp2 htp2 => ?_
  refine Ensures.pure ⟨hdone, hrest, fun hpos => ?_, by rw [hkept]⟩
  have hpos' : 0 < sn'.nRates := by omega
  have hmax := htp.argmax hpos'
  have hmaxProb := hprob.argmax hpos'
  refine ⟨hmax.1, htp2.index_lt hpos', hmaxProb.1, hmax.2, hmaxProb.2, ?_⟩
  rintro ⟨i, hi, hne, hval⟩
  exact htp2.of_pos hi hne hval

theorem minstrelUpdateStats_of_not_passes (hc : c.passes = false) :
    minstrelUpdateStats mp c sn = pure sn := by
  rw [minstrelUpdateStats, if_neg (by simp [hc])]

/-- The history counters of the rates may be computed. -/
def AllowsHistory (P : MinstrelEvent → Prop) (sn : MinstrelNode) (stats : Nat → RateStats) : Prop :=
  ∀ i < sn.nRates, (countersOf sn.hix stats i).attempts ≠ 0 →
    P (.uint32 ((sn.r i).succHist + (countersOf sn.hix stats i).success)) ∧
      P (.uint32 ((sn.r i).attHist + (countersOf sn.hix stats i).attempts))

theorem updateRate_round_ensures (hP : AllowsSmall P) (hhist : AllowsHistory P sn c.stats)
    (hlevel : mp.ewmaLevel ≤ 100) (hsn : SoundRates sn)
    (hstats : ∀ h, (c.stats h).success ≤ (c.stats h).attempts) {i : Nat} (hi : i < sn.nRates) :
    Ensures P (· = (sn.r i).updated mp (countersOf sn.hix c.stats i))
      (updateRate mp (sn.r i) (countersOf sn.hix c.stats i)) :=
  updateRate_ensures hP hlevel (hsn.time i hi) (hsn.probability i hi) (countersOf_success_le hstats i)
    (hhist i hi)

theorem attHist_mem_round (mp : MinstrelPriv) (hc : c.passes = true) {i : Nat} (hi : i < sn.nRates)
    (hattempts : (countersOf sn.hix c.stats i).attempts ≠ 0) :
    .uint32 ((sn.r i).attHist + (countersOf sn.hix c.stats i).attempts) ∈
      (minstrelUpdateStats mp c sn).log := by
  rw [minstrelUpdateStats, if_pos hc]
  have hbefore : Ensures (fun _ => True) _ (forUpTo (updateRateAt mp) i (sn, c.stats)) :=
    updateRates_ensures (fun _ _ => trivial) fun k _ => updateRate_returns
  obtain ⟨⟨sn', stats'⟩, hs, ⟨-, hrest, -⟩, hleft⟩ := hbefore.result
  dsimp only at hrest hleft
  refine mem_log_bind.mpr (.inl (mem_log_forUpTo hi hs ?_))
  refine mem_log_bind.mpr (.inr ⟨sn.r i, ?_, ?_⟩)
  · show some (sn'.r i) = some (sn.r i)
    rw [hrest i (Nat.le_refl i)]
  · refine mem_log_bind.mpr (.inl ?_)
    rw [hleft]
    exact attHist_mem_log hattempts

end Update

/-! The rounds of a node. -/

section Totals

variable {count : RateStats → Nat} {hix : Nat → Nat} {cs : List StatsRound} {i : Nat}

/-- What the rounds that pass the checks report for the rate `i`. -/
def totalOf (count : RateStats → Nat) (hix : Nat → Nat) (cs : List StatsRound) (i : Nat) : Nat :=
  ((cs.filter StatsRound.passes).map fun c => count (countersOf hix c.stats i)).sum

/-- What these rounds report for a hardware index. -/
def reportedAttempts (cs : List StatsRound) (h : Nat) : Nat :=
  ((cs.filter StatsRound.passes).map fun c => (c.stats h).attempts).sum

theorem totalOf_concat (c : StatsRound) : totalOf count hix (cs ++ [c]) i =
    totalOf count hix cs i + if c.passes then count (countersOf hix c.stats i) else 0 := by
  rw [totalOf, totalOf, List.filter_append, List.map_append, List.sum_append]
  cases hc : c.passes <;> simp [hc]

theorem totalOf_initial_le {done : List StatsRound} (h : done <+: cs) :
    totalOf count hix done i ≤ totalOf count hix cs i := by
  obtain ⟨rest, rfl⟩ := h
  rw [totalOf, totalOf, List.filter_append, List.map_append, List.sum_append]
  exact Nat.le_add_right _ _

theorem totalOf_success_le (h : ∀ c ∈ cs, ∀ h, (c.stats h).success ≤ (c.stats h).attempts) :
    totalOf RateStats.success hix cs i ≤ totalOf RateStats.attempts hix cs i := by
  refine List.sum_le_sum fun c hc => ?_
  exact countersOf_success_le (h c (List.mem_of_mem_filter hc)) i

theorem totalOf_le_reported : totalOf RateStats.attempts hix cs i ≤ reportedAttempts cs (hix i) :=
  List.sum_le_sum fun _ _ => countersOf_attempts_le i

theorem totalOf_eq_reported (hfirst : ∀ j < i, hix j ≠ hix i) :
    totalOf RateStats.attempts hix cs i = reportedAttempts cs (hix i) := by
  rw [totalOf, reportedAttempts]
  congr 2
  funext c
  rw [countersOf, countersAt_of_ne hfirst]

/-- The first rate with a hardware index gets everything that is reported for it. -/
theorem forall_totalOf_lt_iff {n m : Nat} :
    (∀ i < n, totalOf RateStats.attempts hix cs i < m) ↔ ∀ i < n, reportedAttempts cs (hix i) < m := by
  constructor
  · intro h i hi
    have hex : ∃ j, hix j = hix i := ⟨i, rfl⟩
    have hfind := Nat.find_spec hex
    have hle : Nat.find hex ≤ i := Nat.find_min' hex rfl
    have hfirst : ∀ j < Nat.find hex, hix j ≠ hix (Nat.find hex) := by
      intro j hj he
      exact Nat.find_min hex hj (he.trans hfind)
    rw [← hfind, ← totalOf_eq_reported hfirst]
    exact h _ (by omega)
  · exact fun h i hi => Nat.lt_of_le_of_lt totalOf_le_reported (h i hi)

end Totals

section Updated

variable {mp : MinstrelPriv} {mr : MinstrelRate} {st : RateStats}

theorem updated_hix : (mr.updated mp st).hix = mr.hix := by
  show (mr.averaged mp st).hix = mr.hix
  rw [MinstrelRate.averaged]
  split_ifs <;> rfl

theorem updated_perfectTxTime : (mr.updated mp st).perfectTxTime = mr.perfectTxTime := by
  show (mr.averaged mp st).perfectTxTime = mr.perfectTxTime
  rw [MinstrelRate.averaged]
  split_ifs <;> rfl

theorem updated_probability_le (hlevel : mp.ewmaLevel ≤ 100) (hst : st.success ≤ st.attempts)
    (hprob : mr.probability ≤ 18000) : (mr.updated mp st).probability ≤ 18000 := by
  show (mr.averaged mp st).probability ≤ 18000
  rw [MinstrelRate.averaged]
  split_ifs
  · exact hprob
  · exact average_le hlevel hst hprob

theorem updated_attHist {total : Nat} (h : mr.attHist = total % 2 ^ 32) :
    (mr.updated mp st).attHist = (total + st.attempts) % 2 ^ 32 := by
  show (mr.averaged mp st).attHist = _
  rw [MinstrelRate.averaged]
  split_ifs with hzero
  · rw [h, hzero, Nat.add_zero]
  · show (mr.attHist + st.attempts) % 2 ^ 32 = _
    rw [h, Nat.mod_add_mod]

theorem updated_succHist {total : Nat} (hst : st.success ≤ st.attempts) (h : mr.succHist = total % 2 ^ 32) :
    (mr.updated mp st).succHist = (total + st.success) % 2 ^ 32 := by
  show (mr.averaged mp st).succHist = _
  rw [MinstrelRate.averaged]
  split_ifs with hzero
  · rw [h, show st.success = 0 by omega, Nat.add_zero]
  · show (mr.succHist + st.success) % 2 ^ 32 = _
    rw [h, Nat.mod_add_mod]

end Updated

/-- The node `sn` after the rounds `cs` on `sn₀`. -/
structure History (sn₀ : MinstrelNode) (cs : List StatsRound) (sn : MinstrelNode) : Prop where
  nRates : sn.nRates = sn₀.nRates
  hix : sn.hix = sn₀.hix
  sound : SoundRates sn
  attHist : ∀ i < sn₀.nRates, (sn.r i).attHist = totalOf RateStats.attempts sn₀.hix cs i % 2 ^ 32
  succHist : ∀ i < sn₀.nRates, (sn.r i).succHist = totalOf RateStats.success sn₀.hix cs i % 2 ^ 32
  ranked : ∀ c, cs.getLast? = some c → c.passes = true → 0 < sn₀.nRates → sn.Ranked

section Rounds

variable {P : MinstrelEvent → Prop} {mp : MinstrelPriv} {sn₀ sn : MinstrelNode} {cs : List StatsRound}
  (hlevel : mp.ewmaLevel ≤ 100) (hcs : ∀ c ∈ cs, ∀ h, (c.stats h).success ≤ (c.stats h).attempts)

theorem History.returned {c : StatsRound} (h : History sn₀ cs sn) (hc : c.passes = false) :
    History sn₀ (cs ++ [c]) sn := by
  have htotal : ∀ count i, totalOf count sn₀.hix (cs ++ [c]) i = totalOf count sn₀.hix cs i := by
    intro count i
    rw [totalOf_concat, hc]
    rfl
  refine ⟨h.nRates, h.hix, h.sound, fun i hi => ?_, fun i hi => ?_, fun c' hlast hpass => ?_⟩
  · rw [htotal, h.attHist i hi]
  · rw [htotal, h.succHist i hi]
  · rw [List.getLast?_concat, Option.some.injEq] at hlast
    rw [← hlast, hc] at hpass
    exact absurd hpass Bool.false_ne_true

include hlevel

theorem History.round {c : StatsRound} {sn' : MinstrelNode} (h : History sn₀ cs sn)
    (hstats : ∀ h, (c.stats h).success ≤ (c.stats h).attempts) (hc : c.passes = true)
    (hsn' : RoundResult (fun i mr => mr = (sn.r i).updated mp (countersOf sn.hix c.stats i)) sn sn') :
    History sn₀ (cs ++ [c]) sn' := by
  have hn : sn'.nRates = sn.nRates := by rw [hsn'.kept]
  have hle : ∀ i, (countersOf sn₀.hix c.stats i).success ≤ (countersOf sn₀.hix c.stats i).attempts :=
    countersOf_success_le hstats
  have hrates : ∀ i < sn₀.nRates, sn'.r i = (sn.r i).updated mp (countersOf sn₀.hix c.stats i) := by
    intro i hi
    rw [hsn'.rates i (h.nRates.symm ▸ hi), h.hix]
  refine ⟨hn.trans h.nRates, ?_, ⟨fun i hi => ?_, fun i hi => ?_⟩, fun i hi => ?_, fun i hi => ?_, ?_⟩
  · rw [← h.hix]
    funext i
    by_cases hi : i < sn.nRates
    · show (sn'.r i).hix = (sn.r i).hix
      rw [hsn'.rates i hi, updated_hix]
    · show (sn'.r i).hix = (sn.r i).hix
      rw [hsn'.beyond i (Nat.le_of_not_lt hi)]
  · rw [hn] at hi
    rw [hrates i (h.nRates ▸ hi), updated_perfectTxTime]
    exact h.sound.time i hi
  · rw [hn] at hi
    rw [hrates i (h.nRates ▸ hi)]
    exact updated_probability_le hlevel (hle i) (h.sound.probability i hi)
  · rw [hrates i hi, updated_attHist (h.attHist i hi), totalOf_concat, if_pos hc]
  · rw [hrates i hi, updated_succHist (hle i) (h.succHist i hi), totalOf_concat, if_pos hc]
  · exact fun _ _ _ hpos => hsn'.ranked (h.nRates.symm ▸ hpos)

include hcs

theorem rounds_ensures (hP : AllowsSmall P) (hrate : ∀ i < sn₀.nRates, P (.rate i))
    (hsn₀ : History sn₀ [] sn₀)
    (hhist : ∀ done c sn, done ++ [c] <+: cs → c.passes = true → History sn₀ done sn →
      AllowsHistory P sn c.stats) :
    Ensures P (History sn₀ cs) (forEach (minstrelUpdateStats mp) cs sn₀) := by
  refine Ensures.forEach (History sn₀) hsn₀ fun done c sn hpre hsn => ?_
  have hstats := hcs c (hpre.subset (List.mem_append_right _ List.mem_cons_self))
  cases hc : c.passes with
  | false =>
    rw [minstrelUpdateStats_of_not_passes hc]
    exact Ensures.pure (hsn.returned hc)
  | true =>
    refine (minstrelUpdateStats_ensures (hsn.nRates.symm ▸ hrate) (fun i hi => ?_) hc).mono
      fun sn' hsn' => hsn.round hlevel hstats hc hsn'
    exact updateRate_round_ensures hP (hhist done c sn hpre hc hsn) hlevel hsn.sound hstats hi

theorem rounds_return (hsn₀ : History sn₀ [] sn₀) :
    ∃ sn, (forEach (minstrelUpdateStats mp) cs sn₀).result = some sn ∧ History sn₀ cs sn := by
  have hall : Ensures (fun _ => True) (History sn₀ cs) (forEach (minstrelUpdateStats mp) cs sn₀) :=
    rounds_ensures hlevel hcs (fun _ _ => ⟨trivial, trivial⟩) (fun _ _ => trivial) hsn₀
      fun _ _ _ _ _ _ _ _ _ => ⟨trivial, trivial⟩
  exact hall.result

/-- Each round logs the sum of attempts that it stores, so the total fits after every round. -/
theorem totalOf_lt_of_inRange (hsn₀ : History sn₀ [] sn₀)
    (hlog : ∀ e ∈ (forEach (minstrelUpdateStats mp) cs sn₀).log, e.InRange) {i : Nat} (hi : i < sn₀.nRates)
    {done : List StatsRound} (hpre : done <+: cs) :
    totalOf RateStats.attempts sn₀.hix done i < 2 ^ 32 := by
  induction done using List.reverseRecOn with
  | nil => exact Nat.two_pow_pos 32
  | append_singleton done c ih =>
    have hdone : done <+: cs := (List.prefix_append done [c]).trans hpre
    have hbefore := ih hdone
    obtain ⟨sn, hrun, hsn⟩ := rounds_return hlevel (fun c hc => hcs c (hdone.subset hc)) hsn₀
    have hval := hsn.attHist i hi
    rw [Nat.mod_eq_of_lt hbefore] at hval
    rw [totalOf_concat]
    cases hc : c.passes with
    | false => exact hbefore
    | true =>
      by_cases hzero : (countersOf sn₀.hix c.stats i).attempts = 0
      · rw [hzero]
        exact hbefore
      · have hmem := attHist_mem_round mp hc (hsn.nRates.symm ▸ hi) (hsn.hix.symm ▸ hzero)
        have hrange := hlog _ (mem_log_forEach hpre hrun hmem)
        rw [hsn.hix, hval] at hrange
        have hlt := hrange.2
        simp only [if_true]
        omega

omit hlevel in
theorem History.allowsHistory {c : StatsRound} {done : List StatsRound} (h : History sn₀ done sn)
    (hpre : done ++ [c] <+: cs) (hc : c.passes = true)
    (htotal : ∀ i < sn₀.nRates, totalOf RateStats.attempts sn₀.hix cs i < 2 ^ 32) :
    AllowsHistory MinstrelEvent.InRange sn c.stats := by
  intro i hi _
  rw [h.nRates] at hi
  have hlt := Nat.lt_of_le_of_lt (totalOf_initial_le hpre) (htotal i hi)
  have hle : totalOf RateStats.success sn₀.hix (done ++ [c]) i ≤
      totalOf RateStats.attempts sn₀.hix (done ++ [c]) i :=
    totalOf_success_le fun c hc => hcs c (hpre.subset hc)
  rw [totalOf_concat, totalOf_concat, if_pos hc, if_pos hc] at hle
  rw [totalOf_concat, if_pos hc] at hlt
  rw [h.hix, h.attHist i hi, h.succHist i hi, Nat.mod_eq_of_lt (by omega), Nat.mod_eq_of_lt (by omega)]
  simp only [MinstrelEvent.InRange]
  omega

/-- No computation of the rounds overflows exactly if the attempts of each rate fit into its history. -/
theorem rounds_inRange_iff (hsn₀ : History sn₀ [] sn₀) :
    (∀ e ∈ (forEach (minstrelUpdateStats mp) cs sn₀).log, e.InRange) ↔
      ∀ i < sn₀.nRates, totalOf RateStats.attempts sn₀.hix cs i < 2 ^ 32 := by
  constructor
  · exact fun hlog i hi => totalOf_lt_of_inRange hlevel hcs hsn₀ hlog hi (List.prefix_refl cs)
  · intro htotal
    refine (rounds_ensures hlevel hcs inRange_allowsSmall (fun _ _ => trivial) hsn₀ ?_).1
    exact fun done c sn hpre hc hsn => hsn.allowsHistory hcs hpre hc htotal

end Rounds

/-- A reset and the rounds after it. -/
def statsRun (mp : MinstrelPriv) (rates : NodeRates) (rnd : Nat → UInt8) (cs : List StatsRound)
    (sn : MinstrelNode) : Minstrel MinstrelNode := do
  let sn ← arRateCtlReset mp rates rnd sn
  forEach (minstrelUpdateStats mp) cs sn

section Runs

variable (level : Nat) (rates : NodeRates) (rnd : Nat → UInt8) (sn : MinstrelNode) {cs : List StatsRound}

theorem reset_history :
    Ensures MinstrelEvent.InRange (fun sn₀ => sn₀.nRates = rates.count ∧ History sn₀ [] sn₀ ∧
        ∀ i < rates.count, sn₀.hix i = hixOf rates.band24GHz (rates.bitrate i))
      (arRateCtlReset { minstrelAlloc with ewmaLevel := level } rates rnd sn) := by
  by_cases hzero : rates.count = 0
  · rw [arRateCtlReset, if_pos hzero]
    refine Ensures.pure ⟨rfl, ⟨rfl, rfl, ⟨?_, ?_⟩, ?_, ?_, ?_⟩, ?_⟩
    all_goals simp [hzero]
  · refine (arRateCtlReset_ensures inRange_allowsSmall rfl rfl (fun _ _ => trivial) (fun _ _ => trivial)
      (Nat.pos_of_ne_zero hzero) sn).mono fun sn₀ hsn₀ => ⟨hsn₀.nRates, ?_, fun i hi => (hsn₀.fresh i hi).hix⟩
    refine ⟨rfl, rfl, hsn₀.soundRates, fun i hi => ?_, fun i hi => ?_, by simp⟩
    · exact (hsn₀.fresh i (hsn₀.nRates ▸ hi)).attHist
    · exact (hsn₀.fresh i (hsn₀.nRates ▸ hi)).succHist

variable (hlevel : level ≤ 100) (hcs : ∀ c ∈ cs, ∀ h, (c.stats h).success ≤ (c.stats h).attempts)

include hlevel hcs

theorem statsRun_inRange_iff :
    (∀ e ∈ (statsRun { minstrelAlloc with ewmaLevel := level } rates rnd cs sn).log, e.InRange) ↔
      ∀ i < rates.count, reportedAttempts cs (hixOf rates.band24GHz (rates.bitrate i)) < 2 ^ 32 := by
  obtain ⟨hreset, sn₀, hres, hn, hsn₀, hhix⟩ := reset_history level rates rnd sn
  rw [statsRun, bind_of_result hres, List.forall_mem_append, rounds_inRange_iff hlevel hcs hsn₀]
  rw [and_iff_right hreset, forall_totalOf_lt_iff, hn]
  refine forall₂_congr fun i hi => ?_
  rw [hhix i hi]

theorem statsRun_history :
    ∃ sn₀ sn', (statsRun { minstrelAlloc with ewmaLevel := level } rates rnd cs sn).result = some sn' ∧
      sn₀.nRates = rates.count ∧ History sn₀ cs sn' := by
  obtain ⟨-, sn₀, hres, hn, hsn₀, -⟩ := reset_history level rates rnd sn
  have hmp : ({ minstrelAlloc with ewmaLevel := level } : MinstrelPriv).ewmaLevel ≤ 100 := hlevel
  obtain ⟨sn', hrun, hsn'⟩ := rounds_return hmp hcs hsn₀
  refine ⟨sn₀, sn', ?_, hn, hsn'⟩
  rw [statsRun, bind_of_result hres]
  exact hrun

/-- No computation of a node overflows, its probabilities stay below 18000 and each round chooses the best
rates exactly if the attempts reported for each of its rates stay below `2 ^ 32` over all rounds, and the node
has a rate once a round passes the checks. -/
theorem statsRun_sound_iff :
    ((∀ e ∈ (statsRun { minstrelAlloc with ewmaLevel := level } rates rnd cs sn).log, e.InRange) ∧
      ∀ done, done <+: cs →
        ∃ sn', (statsRun { minstrelAlloc with ewmaLevel := level } rates rnd done sn).result = some sn' ∧
          (∀ i < sn'.nRates, (sn'.r i).probability ≤ 18000) ∧
          ∀ c, done.getLast? = some c → c.passes = true → sn'.Ranked) ↔
      (∀ i < rates.count, reportedAttempts cs (hixOf rates.band24GHz (rates.bitrate i)) < 2 ^ 32) ∧
        (rates.count = 0 → ∀ c ∈ cs, c.passes = false) := by
  rw [statsRun_inRange_iff level rates rnd sn hlevel hcs]
  refine and_congr_right fun _ => ⟨fun hranked hzero c hc => ?_, fun hrates done hdone => ?_⟩
  · obtain ⟨before, after, hsplit⟩ := List.append_of_mem hc
    have hpre : before ++ [c] <+: cs := ⟨after, by rw [hsplit, List.append_assoc, List.singleton_append]⟩
    obtain ⟨sn₀, sn₁, hrun, hn, hsn₁⟩ :=
      statsRun_history level rates rnd sn hlevel fun c hc => hcs c (hpre.subset hc)
    obtain ⟨sn', hrun', -, hlast⟩ := hranked _ hpre
    rw [hrun, Option.some.injEq] at hrun'
    by_contra hpass
    have hlt := (hlast c List.getLast?_concat (Bool.eq_true_of_not_eq_false hpass)).maxTpRate_lt
    rw [← hrun', hsn₁.nRates, hn, hzero] at hlt
    exact Nat.not_lt_zero _ hlt
  · obtain ⟨sn₀, sn', hrun, hn, hsn'⟩ :=
      statsRun_history level rates rnd sn hlevel fun c hc => hcs c (hdone.subset hc)
    refine ⟨sn', hrun, hsn'.sound.probability, fun c hlast hpass => ?_⟩
    refine hsn'.ranked c hlast hpass (hn ▸ Nat.pos_of_ne_zero fun hzero => ?_)
    have hreturned := hrates hzero c (hdone.subset (List.mem_of_getLast? hlast))
    rw [hpass] at hreturned
    exact absurd hreturned.symm Bool.false_ne_true

end Runs

/-- A node with legacy rates only. -/
def NodeRates.ofLegacy (rates : List UInt8) (band24GHz : Bool) (h : rates.length ≤ 15) : NodeRates :=
  { legacyCount := rates.length, legacy := fun i => rates.getD i 0, htCount := 0, ht := fun _ => 0
    beyond := fun _ => 0, band24GHz, legacyCount_le := h
    htCount_le := Nat.zero_le 77 }

def oneMbps : NodeRates := .ofLegacy [2] true (by decide)

/-- A round of a station of an access point, with the same counters for all rates. -/
def evenRound (st : RateStats) : StatsRound :=
  { opmode := .hostap, associd := 1, ownAddress := false, stats := fun _ => st }

/-- The attempts of 65538 full rounds do not fit. -/
theorem statsRun_overflow :
    ∃ e ∈ (statsRun minstrelAlloc oneMbps (fun _ => 0) (List.replicate 65538 (evenRound ⟨65535, 0⟩))
      (minstrelAllocSta (fun _ => .zero) fun _ => 0)).log, ¬ e.InRange := by
  by_contra hnone
  have hcs : ∀ c ∈ List.replicate 65538 (evenRound ⟨65535, 0⟩),
      ∀ h, (c.stats h).success ≤ (c.stats h).attempts := by
    intro c hc h
    rw [List.eq_of_mem_replicate hc]
    exact Nat.zero_le _
  have hpass : (evenRound ⟨65535, 0⟩).passes = true := by decide
  have hsum := (statsRun_inRange_iff 75 oneMbps _ _ (by norm_num) hcs).mp
    (fun e he => by_contra fun hout => hnone ⟨e, he, hout⟩) 0 (by decide)
  rw [reportedAttempts, List.filter_replicate, if_pos hpass, List.map_replicate, List.sum_replicate] at hsum
  exact absurd hsum (by decide)

def twoRates : NodeRates := .ofLegacy [2, 4] true (by decide)

def twoRounds : List StatsRound := [evenRound ⟨2, 1⟩, evenRound ⟨6, 4⟩]

theorem statsRun_sound_twoRounds :
    ∃ sn', (statsRun minstrelAlloc twoRates (fun _ => 0) twoRounds
        (minstrelAllocSta (fun _ => .zero) fun _ => 0)).result = some sn' ∧
      (∀ i < sn'.nRates, (sn'.r i).probability ≤ 18000) ∧ sn'.Ranked := by
  have hcs : ∀ c ∈ twoRounds, ∀ h, (c.stats h).success ≤ (c.stats h).attempts := by
    simp [twoRounds, evenRound, RateStats.success, RateStats.attempts]
  have hfits : ∀ i < twoRates.count, reportedAttempts twoRounds
      (hixOf twoRates.band24GHz (twoRates.bitrate i)) < 2 ^ 32 := by decide
  have hsound := (statsRun_sound_iff 75 twoRates (fun _ => 0) (minstrelAllocSta (fun _ => .zero) fun _ => 0)
    (by norm_num) hcs).mpr ⟨hfits, fun hzero => absurd hzero (by decide)⟩
  obtain ⟨sn', hrun, hprob, hlast⟩ := hsound.2 twoRounds (List.prefix_refl _)
  exact ⟨sn', hrun, hprob, hlast _ rfl rfl⟩

end Onebox
