import Onebox.MinstrelChoice

/-! The four stages of a frame. The later ones carry a hardware index and take their count from the table
with it, so a stage has the count of its own rate exactly if the two numberings of the rates agree. -/

namespace Onebox

open Calls

/-- Each stage is for a rate of the node, with the count of that rate or with 1 where it samples. -/
structure RateChain.Matches (ch : RateChain) (sn : MinstrelNode) : Prop where
  length : ch.rates.length = 4
  stage : ∀ i a, ch.rates[i]? = some a → ∃ t < sn.nRates, a.idx = sn.hix t ∧
    (ch.sampling ≠ some i → a.count = (sn.r t).adjustedRetryCount ∧ 1 ≤ a.count)
  sampling : ∀ i a, ch.rates[i]? = some a → ch.sampling = some i → a.count = 1

/-- Distinct rates of the twenty that the hardware has an index for. -/
structure StandardRates (rates : NodeRates) : Prop where
  two_le : 2 ≤ rates.count
  le_twenty : rates.count ≤ 20
  standard : ∀ i < rates.count, rates.bitrate i ∈ hwRates
  distinct : ∀ i < rates.count, ∀ j < rates.count, rates.bitrate i = rates.bitrate j → i = j

/-! Where the numberings agree. -/

/-- A node whose hardware indices are its own, with counts from 1 to 3. -/
structure ChainReady (n : Nat) (sn : MinstrelNode) : Prop where
  nRates : sn.nRates = n
  choosable : Choosable sn
  hix : ∀ t < n, sn.hix t = t
  retryCount_le : ∀ t < n, (sn.r t).retryCount ≤ 3
  one_le : ∀ t < n, 1 ≤ (sn.r t).adjustedRetryCount
  le_three : ∀ t < n, (sn.r t).adjustedRetryCount ≤ 3

section Agreeing

variable {n : Nat} {sn sn' : MinstrelNode} {s : Sampled} {flagged : Bool}

theorem ChainReady.sampled (h : ChainReady n sn) (hchoosable : Choosable sn') (hkept : SampledFrom sn sn') :
    ChainReady n sn' := by
  refine ⟨hkept.nRates.trans h.nRates, hchoosable, fun t ht => ?_, fun t ht => ?_, fun t ht => ?_,
    fun t ht => ?_⟩
  · rw [hkept.hix, h.hix t ht]
  all_goals obtain ⟨limit, hr⟩ := hkept.rates t
  all_goals rw [hr]
  · exact h.retryCount_le t ht
  · exact h.one_le t ht
  · exact h.le_three t ht

theorem ChainReady.round (h : ChainReady n sn) (hn : 0 < n)
    (hround : RoundResult (fun i mr => KeptRate (sn.r i) mr) sn sn') : ChainReady n sn' := by
  have hn' : sn'.nRates = n := by rw [hround.kept, h.nRates]
  have hrates : ∀ t < n, KeptRate (sn.r t) (sn'.r t) := fun t ht => hround.rates t (h.nRates.symm ▸ ht)
  have hranked := hround.ranked (h.nRates.symm ▸ hn)
  have hchoosable := h.choosable
  refine ⟨hn', ?_, fun t ht => ?_, fun t ht => ?_, fun t ht => (hrates t ht).one_le, fun t ht => ?_⟩
  · refine ⟨?_, ?_, ?_, hranked.1, hranked.2, hranked.3⟩
    all_goals rw [hround.kept]
    · exact hchoosable.covering
    · exact hchoosable.sampleIdx
    · exact hchoosable.sampleColumn
  · rw [MinstrelNode.hix, (hrates t ht).hix]
    exact h.hix t ht
  · rw [(hrates t ht).retryCount]
    exact h.retryCount_le t ht
  · have hle := (hrates t ht).le_max
    have hretry := h.retryCount_le t ht
    omega

/-- Before the sampling stage is set to 1, every stage has the count of its rate. -/
theorem ChainReady.stages (h : ChainReady n s.sn) (hndx : s.ndx < n) (hsecond : s.second < n) {i : Nat}
    {a : TxRate} (ha : (s.stages flagged)[i]? = some a) :
    ∃ t < n, a.idx = s.sn.hix t ∧ a.count = (s.sn.r t).adjustedRetryCount ∧ 1 ≤ a.count := by
  have hprob : s.sn.maxProbRate < n := h.nRates ▸ h.choosable.maxProbRate
  have hpos : 0 < n := by omega
  have hcount : ∀ t < n, (s.sn.r t).adjustedRetryCount % 2 ^ 8 = (s.sn.r t).adjustedRetryCount := by
    intro t ht
    have hle := h.le_three t ht
    omega
  have hlater : ∀ first, ∀ t < n, a = laterStage s.sn first t →
      ∃ t < n, a.idx = s.sn.hix t ∧ a.count = (s.sn.r t).adjustedRetryCount ∧ 1 ≤ a.count := by
    intro first t ht hat
    have heq : a.count = (s.sn.r t).adjustedRetryCount := by
      rw [hat, laterStage, h.hix t ht]
      exact hcount t ht
    exact ⟨t, ht, by rw [hat, laterStage], heq, heq ▸ h.one_le t ht⟩
  have hmem := List.mem_of_getElem? ha
  simp only [Sampled.stages, List.mem_cons, List.not_mem_nil, or_false] at hmem
  rcases hmem with hfirst | hsnd | hthird | hlast
  · have heq : a.count = (s.sn.r s.ndx).adjustedRetryCount := by
      rw [hfirst]
      exact hcount _ hndx
    exact ⟨s.ndx, hndx, by rw [hfirst], heq, heq ▸ h.one_le _ hndx⟩
  · exact hlater _ _ hsecond hsnd
  · exact hlater _ _ hprob hthird
  · exact hlater _ _ hpos hlast

theorem ChainReady.chain_matches (h : ChainReady n s.sn) (hndx : s.ndx < n) (hsecond : s.second < n)
    (flagged : Bool) : (s.chain flagged).Matches s.sn := by
  have hlength : (s.stages flagged).length = 4 := rfl
  rw [Sampled.chain]
  cases hsample : s.sample with
  | false =>
    refine ⟨hlength, fun i a ha => ?_, fun i a _ hsampling => ?_⟩
    · obtain ⟨t, ht, hidx, hcount⟩ := h.stages hndx hsecond ha
      exact ⟨t, h.nRates.symm ▸ ht, hidx, fun _ => hcount⟩
    · exact absurd hsampling.symm (Option.some_ne_none i)
  | true =>
    rw [if_pos rfl]
    generalize hstage : (if s.slower.isSome then 1 else 0) = stage
    refine ⟨?_, fun i a ha => ?_, fun i a ha hsampling => ?_⟩
    · rw [List.length_modify, hlength]
    all_goals
      rw [List.getElem?_modify] at ha
      obtain ⟨b, hb, rfl⟩ := Option.map_eq_some_iff.mp ha
    · obtain ⟨t, ht, hidx, hcount⟩ := h.stages hndx hsecond hb
      refine ⟨t, h.nRates.symm ▸ ht, ?_, fun hother => ?_⟩
      · split_ifs <;> exact hidx
      · rw [if_neg fun hi => hother (congrArg some hi)]
        exact hcount
    · rw [if_pos (Option.some.inj hsampling)]

end Agreeing

section Calls

variable {n : Nat} {sn : MinstrelNode}

theorem ChainReady.getRate (h : ChainReady n sn) (hn : n < 2 ^ 32) (flagged : Bool) :
    Ensures (fun _ => True) (fun x => ChainReady n x.1 ∧ x.2.Matches x.1)
      (minstrelGetRate minstrelAlloc flagged sn) := by
  refine (minstrelGetRate_ensures (fun _ _ => trivial) (fun _ _ => trivial) (fun _ _ => trivial)
    (h.nRates.symm ▸ hn) h.choosable).mono ?_
  rintro _ ⟨s, hs, rfl⟩
  obtain ⟨hchoosable, hkept⟩ := hs.after
  have hs' : ChainReady n s.sn := h.sampled hs.choosable hs.kept
  have hmatches := hs'.chain_matches (h.nRates ▸ hs.ndx) (h.nRates ▸ hs.second_lt) flagged
  exact ⟨h.sampled hchoosable hkept, ⟨hmatches.1, hmatches.2, hmatches.3⟩⟩

theorem ChainReady.run (h : ChainReady n sn) (hpos : 0 < n) (hn : n < 2 ^ 32) (call : MinstrelCall) :
    Ensures (fun _ => True) (ChainReady n) (call.run minstrelAlloc sn) := by
  cases call with
  | getRate flagged => exact (h.getRate hn flagged).bind fun x hx => Ensures.pure hx.1
  | updateStats c =>
    show Ensures (fun _ => True) (ChainReady n) (minstrelUpdateStats minstrelAlloc c sn)
    cases hc : c.passes with
    | false =>
      rw [minstrelUpdateStats_of_not_passes hc]
      exact Ensures.pure h
    | true =>
      have hround : Ensures (fun _ => True) (RoundResult (fun i mr => KeptRate (sn.r i) mr) sn)
          (minstrelUpdateStats minstrelAlloc c sn) :=
        minstrelUpdateStats_ensures (fun _ _ => trivial) (fun i _ => updateRate_returns) hc
      exact hround.mono fun sn' hsn' => h.round hpos hsn'

end Calls

/-- After any calls the next frame gets a chain that matches. -/
def ChainsMatch (rates : NodeRates) (rnd : Nat → UInt8) (r : Nat → MinstrelRate) (heap : Nat → UInt8) :
    Prop :=
  ∀ calls flagged, ∃ sn sn' ch, (minstrelRun rates rnd r heap calls).result = some sn ∧
    (minstrelGetRate minstrelAlloc flagged sn).result = some (sn', ch) ∧ ch.Matches sn'

section Chains

variable {rates : NodeRates} {rnd : Nat → UInt8} {r : Nat → MinstrelRate} {heap : Nat → UInt8}

theorem reset_returns (hpos : 0 < rates.count) :
    Ensures (fun _ => True) (ResetNode rates (minstrelAllocSta r heap))
      (arRateCtlReset minstrelAlloc rates rnd (minstrelAllocSta r heap)) :=
  arRateCtlReset_ensures (fun _ _ => ⟨trivial, trivial⟩) rfl rfl (fun _ _ => trivial) (fun _ _ => trivial)
    hpos _

theorem chainsMatch_of_agree (hrates : StandardRates rates)
    (hagree : ∀ t < rates.count, hixOf rates.band24GHz (rates.bitrate t) = t) :
    ChainsMatch rates rnd r heap := by
  intro calls flagged
  have htwo := hrates.two_le
  have htwenty := hrates.le_twenty
  have hrun : Ensures (fun _ => True) (ChainReady rates.count) (minstrelRun rates rnd r heap calls) := by
    refine (reset_returns (by omega)).bind fun sn₀ hsn₀ => ?_
    have hready : ChainReady rates.count sn₀ := by
      refine ⟨hsn₀.nRates, hsn₀.choosable htwo, fun t ht => ?_,
        fun t ht => (hsn₀.fresh t ht).retryCount_le, ?_, ?_⟩
      · rw [MinstrelNode.hix, (hsn₀.fresh t ht).hix, hagree t ht]
      · intro t ht
        rw [(hsn₀.fresh t ht).adjustedRetryCount]
        exact (hsn₀.fresh t ht).one_le_retryCount
      · intro t ht
        rw [(hsn₀.fresh t ht).adjustedRetryCount]
        exact (hsn₀.fresh t ht).retryCount_le
    exact Ensures.forEach (fun _ => ChainReady rates.count) hready
      fun _ call sn _ hsn => hsn.run (by omega) (by omega) call
  obtain ⟨sn, hres, hsn⟩ := hrun.result
  obtain ⟨⟨sn', ch⟩, hget, -, hmatches⟩ := (hsn.getRate (by omega) flagged).result
  exact ⟨sn, sn', ch, hres, hget, hmatches⟩

/-! Where they differ. -/

theorem hixOf_eq_idxOf (hrates : StandardRates rates) {t : Nat} (ht : t < rates.count) :
    hixOf rates.band24GHz (rates.bitrate t) = hwRates.idxOf (rates.bitrate t) := by
  rw [hixOf, if_pos (hrates.standard t ht)]

theorem StandardRates.hix_inj (hrates : StandardRates rates) {sn : MinstrelNode}
    (hsn : ResetNode rates (minstrelAllocSta r heap) sn) {t u : Nat} (ht : t < rates.count)
    (hu : u < rates.count) (h : sn.hix t = sn.hix u) : t = u := by
  rw [MinstrelNode.hix, MinstrelNode.hix, (hsn.fresh t ht).hix, (hsn.fresh u hu).hix] at h
  rw [hixOf_eq_idxOf hrates ht, hixOf_eq_idxOf hrates hu] at h
  exact hrates.distinct t ht u hu ((List.idxOf_inj (hrates.standard t ht)).mp h)

/-- A round with one try for the hardware index `o`, which succeeds, and two for `o'` if it is used. -/
def tryRound (o o' : Nat) (used : Bool) : StatsRound :=
  { opmode := .hostap, associd := 1, ownAddress := false
    stats := fun h => if h = o then ⟨1, 1⟩ else if used = true ∧ h = o' then ⟨2, 1⟩ else ⟨0, 0⟩ }

theorem tryRound_self (o o' : Nat) (used : Bool) : (tryRound o o' used).stats o = ⟨1, 1⟩ := if_pos rfl

theorem tryRound_other {o o' h : Nat} (used : Bool) (hne : h ≠ o) :
    (tryRound o o' used).stats h = if used = true ∧ h = o' then ⟨2, 1⟩ else ⟨0, 0⟩ := if_neg hne

theorem tryRound_success_le (o o' : Nat) (used : Bool) (h : Nat) :
    ((tryRound o o' used).stats h).success ≤ ((tryRound o o' used).stats h).attempts := by
  rw [tryRound]
  dsimp only
  split_ifs <;> decide

theorem round_returns {sn₀ : MinstrelNode} {c : StatsRound}
    (hres : (arRateCtlReset minstrelAlloc rates rnd (minstrelAllocSta r heap)).result = some sn₀)
    (hsn₀ : ResetNode rates (minstrelAllocSta r heap) sn₀) (hc : c.passes = true)
    (hstats : ∀ h, (c.stats h).success ≤ (c.stats h).attempts) :
    ∃ sn₁, (minstrelRun rates rnd r heap [.updateStats c]).result = some sn₁ ∧
      RoundResult (fun i mr => mr = (sn₀.r i).updated minstrelAlloc (countersOf sn₀.hix c.stats i))
        sn₀ sn₁ := by
  have hlevel : minstrelAlloc.ewmaLevel ≤ 100 := by decide
  have hround : Ensures (fun _ => True)
      (RoundResult (fun i mr => mr = (sn₀.r i).updated minstrelAlloc (countersOf sn₀.hix c.stats i)) sn₀)
      (minstrelUpdateStats minstrelAlloc c sn₀) :=
    minstrelUpdateStats_ensures (fun _ _ => trivial) (fun i hi => updateRate_round_ensures
      (fun _ _ => ⟨trivial, trivial⟩) (fun _ _ _ => ⟨trivial, trivial⟩) hlevel hsn₀.soundRates hstats hi) hc
  obtain ⟨sn₁, hrun, hsn₁⟩ := hround.result
  exact ⟨sn₁, result_bind.mpr ⟨sn₀, hres, result_bind.mpr ⟨sn₁, hrun, rfl⟩⟩, hsn₁⟩

theorem minstrelGetRate_first {sn : MinstrelNode} (flagged : Bool) (hpackets : sn.packetCount = 0)
    (hcount : sn.sampleCount = 0) (hdeferred : sn.sampleDeferred = 0) :
    (minstrelGetRate minstrelAlloc flagged sn).result =
      some ({ sn.countPacket with prevSample := false },
        (⟨sn.countPacket, sn.maxTpRate, false, none⟩ : Sampled).chain flagged) := by
  have hdelta : sn.countPacket.delta minstrelAlloc = 0 := by
    rw [MinstrelNode.delta, MinstrelNode.countPacket]
    dsimp only
    rw [hpackets, hcount, hdeferred]
    decide
  have hfirst : firstRate minstrelAlloc sn.countPacket =
      pure ⟨sn.countPacket, sn.countPacket.maxTpRate, false, none⟩ := by
    rw [firstRate, hdelta, if_neg (Int.lt_irrefl 0)]
  rw [minstrelGetRate, hfirst, pure_bind, retryChain_eq, bind_of_result rfl]
  rfl

section Counts

variable {mr : MinstrelRate} {st : RateStats}

theorem averaged_retryCount (mr : MinstrelRate) (st : RateStats) :
    (mr.averaged minstrelAlloc st).retryCount = mr.retryCount := by
  rw [MinstrelRate.averaged]
  split_ifs <;> rfl

theorem updated_count_of_mid (hlow : 1800 ≤ (mr.updated minstrelAlloc st).probability)
    (hhigh : (mr.updated minstrelAlloc st).probability ≤ 17100) (hretry : 1 ≤ mr.retryCount) :
    (mr.updated minstrelAlloc st).adjustedRetryCount = mr.retryCount := by
  have hcount : ∀ x : MinstrelRate, 1800 ≤ x.probability → x.probability ≤ 17100 → 1 ≤ x.retryCount →
      x.adjusted.adjustedRetryCount = x.retryCount := by
    intro x hx hx' hone
    rw [MinstrelRate.adjusted]
    dsimp only
    split_ifs <;> omega
  rw [← averaged_retryCount mr st] at hretry ⊢
  exact hcount _ hlow hhigh hretry

theorem updated_count_of_low (hlow : (mr.updated minstrelAlloc st).probability < 1800)
    (hretry : 1 ≤ mr.retryCount) (hmax : mr.retryCount ≤ 3) :
    (mr.updated minstrelAlloc st).adjustedRetryCount ≠ mr.retryCount ∧
      (mr.updated minstrelAlloc st).adjustedRetryCount ≤ 2 := by
  have hcount : ∀ x : MinstrelRate, x.probability < 1800 → 1 ≤ x.retryCount → x.retryCount ≤ 3 →
      x.adjusted.adjustedRetryCount ≠ x.retryCount ∧ x.adjusted.adjustedRetryCount ≤ 2 := by
    intro x hx hone hthree
    rw [MinstrelRate.adjusted]
    dsimp only
    split_ifs <;> omega
  rw [← averaged_retryCount mr st] at hretry hmax ⊢
  exact hcount _ hlow hretry hmax

theorem updated_probability_of (hfresh : mr.probability = 0) :
    (mr.updated minstrelAlloc st).probability =
      if st.attempts = 0 then 0 else st.success * 18000 / st.attempts * 25 / 100 := by
  show (mr.averaged minstrelAlloc st).probability = _
  rw [MinstrelRate.averaged]
  split_ifs with hzero
  · exact hfresh
  · show mr.average minstrelAlloc st = _
    rw [MinstrelRate.average, hfresh, Nat.zero_mul, Nat.add_zero]
    rfl

/-- An entry that is not used in its first round gets another count than one with a success in two tries. -/
theorem FreshRate.counts_ne {i : Nat} (h : FreshRate rates i mr) :
    (mr.updated minstrelAlloc ⟨0, 0⟩).adjustedRetryCount % 2 ^ 8 ≠
      (mr.updated minstrelAlloc ⟨2, 1⟩).adjustedRetryCount % 2 ^ 8 := by
  have hunused : (mr.updated minstrelAlloc ⟨0, 0⟩).probability = 0 := updated_probability_of h.probability
  have hused : (mr.updated minstrelAlloc ⟨2, 1⟩).probability = 2250 := updated_probability_of h.probability
  have hlow := updated_count_of_low (hunused.trans_lt (by norm_num)) h.one_le_retryCount h.retryCount_le
  have hmid := updated_count_of_mid ((show 1800 ≤ 2250 by norm_num).trans_eq hused.symm)
    (hused.trans_le (by norm_num)) h.one_le_retryCount
  have hthree := h.retryCount_le
  omega

end Counts

/-- The node after the round of `tryRound`, where each rate reads its own counters. -/
structure TriedNode (o o' : Nat) (used : Bool) (sn₀ sn₁ : MinstrelNode) : Prop where
  nRates : sn₁.nRates = sn₀.nRates
  rates : ∀ i < sn₀.nRates, sn₁.r i = (sn₀.r i).updated minstrelAlloc ((tryRound o o' used).stats (sn₀.hix i))
  beyond : ∀ i, sn₀.nRates ≤ i → sn₁.r i = sn₀.r i
  ranked : sn₁.Ranked
  packetCount : sn₁.packetCount = 0
  sampleCount : sn₁.sampleCount = 0
  sampleDeferred : sn₁.sampleDeferred = 0

theorem tryRound_returns (hrates : StandardRates rates) {sn₀ : MinstrelNode}
    (hres : (arRateCtlReset minstrelAlloc rates rnd (minstrelAllocSta r heap)).result = some sn₀)
    (hsn₀ : ResetNode rates (minstrelAllocSta r heap) sn₀) (o o' : Nat) (used : Bool) :
    ∃ sn₁, (minstrelRun rates rnd r heap [.updateStats (tryRound o o' used)]).result = some sn₁ ∧
      TriedNode o o' used sn₀ sn₁ := by
  have htwo := hrates.two_le
  have hn := hsn₀.nRates
  obtain ⟨sn₁, hrun, hsn₁⟩ :=
    round_returns hres hsn₀ (c := tryRound o o' used) rfl (tryRound_success_le o o' used)
  refine ⟨sn₁, hrun, by rw [hsn₁.kept], fun i hi => ?_, hsn₁.beyond, hsn₁.ranked (by omega), ?_, ?_, ?_⟩
  · have hown : ∀ j < i, sn₀.hix j ≠ sn₀.hix i := by
      intro j hj he
      have hji := hrates.hix_inj hsn₀ (by omega) (by omega) he
      omega
    rw [hsn₁.rates i hi, countersOf, countersAt_of_ne hown]
  all_goals rw [hsn₁.kept]
  · exact hsn₀.unused.packetCount
  · exact hsn₀.unused.sampleCount
  · exact hsn₀.unused.sampleDeferred

section Tried

variable {sn₀ sn₁ : MinstrelNode} {o' t : Nat} {used : Bool}

theorem TriedNode.hix (h : TriedNode (sn₀.hix t) o' used sn₀ sn₁) {i : Nat} (hi : i < sn₀.nRates) :
    sn₁.hix i = sn₀.hix i := by
  rw [MinstrelNode.hix, h.rates i hi, updated_hix]
  rfl

theorem TriedNode.probability (h : TriedNode (sn₀.hix t) o' used sn₀ sn₁)
    (hsn₀ : ResetNode rates (minstrelAllocSta r heap) sn₀) (ht : t < rates.count) :
    (sn₁.r t).probability = 4500 := by
  rw [h.rates t (hsn₀.nRates.symm ▸ ht), tryRound_self, updated_probability_of (hsn₀.fresh t ht).probability]
  rfl

theorem TriedNode.maxProbRate (h : TriedNode (sn₀.hix t) o' used sn₀ sn₁) (hrates : StandardRates rates)
    (hsn₀ : ResetNode rates (minstrelAllocSta r heap) sn₀) (ht : t < rates.count) : sn₁.maxProbRate = t := by
  by_contra hne
  have hlt : sn₁.maxProbRate < sn₀.nRates := h.nRates ▸ h.ranked.maxProbRate_lt
  have hlt' : sn₁.maxProbRate < rates.count := hsn₀.nRates ▸ hlt
  have hle := h.ranked.maxProbRate t (by rw [h.nRates, hsn₀.nRates]; exact ht)
  have hother : sn₀.hix sn₁.maxProbRate ≠ sn₀.hix t := fun he => hne (hrates.hix_inj hsn₀ hlt' ht he)
  rw [h.probability hsn₀ ht, h.rates _ hlt, tryRound_other used hother,
    updated_probability_of (hsn₀.fresh _ hlt').probability] at hle
  by_cases hused : used = true ∧ sn₀.hix sn₁.maxProbRate = o'
  · simp only [if_pos hused] at hle
    exact absurd hle (by decide)
  · simp only [if_neg hused] at hle
    exact absurd hle (by decide)

/-- The third stage carries the hardware index of that rate with the count of the entry at this index. -/
theorem ChainsMatch.third_stage (hmatch : ChainsMatch rates rnd r heap) (hrates : StandardRates rates)
    (hsn₀ : ResetNode rates (minstrelAllocSta r heap) sn₀) (ht : t < rates.count)
    (hrun : (minstrelRun rates rnd r heap [.updateStats (tryRound (sn₀.hix t) o' used)]).result = some sn₁)
    (h : TriedNode (sn₀.hix t) o' used sn₀ sn₁) :
    (sn₁.r (sn₀.hix t)).adjustedRetryCount % 2 ^ 8 = (sn₀.r t).retryCount := by
  have hmax := h.maxProbRate hrates hsn₀ ht
  have hn : sn₁.nRates = rates.count := h.nRates.trans hsn₀.nRates
  have hhix : ∀ i < rates.count, sn₁.hix i = sn₀.hix i := fun i hi => h.hix (hsn₀.nRates.symm ▸ hi)
  obtain ⟨sn, sn', ch, hrun', hget, hch⟩ := hmatch [.updateStats (tryRound (sn₀.hix t) o' used)] false
  rw [hrun, Option.some.injEq] at hrun'
  subst hrun'
  rw [minstrelGetRate_first false h.packetCount h.sampleCount h.sampleDeferred, Option.some.injEq,
    Prod.mk.injEq] at hget
  obtain ⟨rfl, rfl⟩ := hget
  obtain ⟨t', ht', hidx, hcount⟩ := hch.stage 2 _ rfl
  have hsame : sn₁.hix t = sn₁.hix t' := by rw [← hmax]; exact hidx
  rw [hhix t ht, hhix t' (hn ▸ ht')] at hsame
  obtain rfl := hrates.hix_inj hsn₀ ht (hn ▸ ht') hsame
  have heq : (sn₁.r (sn₁.hix sn₁.maxProbRate)).adjustedRetryCount % 2 ^ 8 = (sn₁.r t).adjustedRetryCount :=
    (hcount fun hnone => absurd hnone.symm (Option.some_ne_none 2)).1
  have hprob := h.probability hsn₀ ht
  rw [hmax, hhix t ht, h.rates t (hsn₀.nRates.symm ▸ ht)] at heq
  rw [h.rates t (hsn₀.nRates.symm ▸ ht)] at hprob
  rw [heq]
  exact updated_count_of_mid (by omega) (by omega) (hsn₀.fresh t ht).one_le_retryCount

/-- A rate with another index has a history whose chain does not match. -/
theorem ChainsMatch.agree (hmatch : ChainsMatch rates rnd r heap) (hrates : StandardRates rates)
    (ht : t < rates.count) : hixOf rates.band24GHz (rates.bitrate t) = t := by
  have htwo := hrates.two_le
  have hreset : Ensures (fun _ => True) (ResetNode rates (minstrelAllocSta r heap))
      (arRateCtlReset minstrelAlloc rates rnd (minstrelAllocSta r heap)) := reset_returns (by omega)
  obtain ⟨sn₀, hres, hsn₀⟩ := hreset.result
  have hhix : sn₀.hix t = hixOf rates.band24GHz (rates.bitrate t) := (hsn₀.fresh t ht).hix
  have hlt := hsn₀.hix_lt ht
  rw [← hhix]
  by_contra hne
  have hretry := (hsn₀.fresh t ht).one_le_retryCount
  -- the entry that the count is read from, after a round that leaves it and after one that uses it
  obtain ⟨sn₁, hrun₁, hsn₁⟩ := tryRound_returns hrates hres hsn₀ (sn₀.hix t) (sn₀.hix (sn₀.hix t)) false
  obtain ⟨sn₂, hrun₂, hsn₂⟩ := tryRound_returns hrates hres hsn₀ (sn₀.hix t) (sn₀.hix (sn₀.hix t)) true
  have hcount₁ := hmatch.third_stage hrates hsn₀ ht hrun₁ hsn₁
  have hcount₂ := hmatch.third_stage hrates hsn₀ ht hrun₂ hsn₂
  by_cases hin : sn₀.hix t < rates.count
  · have hother : sn₀.hix (sn₀.hix t) ≠ sn₀.hix t := fun he => hne (hrates.hix_inj hsn₀ hin ht he)
    have hin' : sn₀.hix t < sn₀.nRates := hsn₀.nRates.symm ▸ hin
    rw [hsn₁.rates _ hin', tryRound_other false hother,
      if_neg fun hused => Bool.false_ne_true hused.1] at hcount₁
    rw [hsn₂.rates _ hin', tryRound_other true hother, if_pos ⟨rfl, rfl⟩] at hcount₂
    exact (hsn₀.fresh _ hin).counts_ne (hcount₁.trans hcount₂.symm)
  · have hzero : sn₁.r (sn₀.hix t) = .zero := by
      rw [hsn₁.beyond _ (hsn₀.nRates.symm ▸ Nat.le_of_not_lt hin), hsn₀.beyond _ (Nat.le_of_not_lt hin)]
      exact if_pos hlt
    rw [hzero] at hcount₁
    exact absurd (hcount₁ ▸ hretry) (by decide)

end Tried

end Chains

/-- Every chain of a set of standard rates has the counts of its rates exactly if the rates stand in the order
of their hardware indices, from the first one on. -/
theorem chainsMatch_iff {rates : NodeRates} (hrates : StandardRates rates) (rnd : Nat → UInt8)
    (r : Nat → MinstrelRate) (heap : Nat → UInt8) :
    ChainsMatch rates rnd r heap ↔ ∀ t < rates.count, hwRates[t]? = some (rates.bitrate t) := by
  constructor
  · intro hmatch t ht
    have hagree := hmatch.agree hrates ht
    rw [hixOf_eq_idxOf hrates ht] at hagree
    have hget := List.getElem?_idxOf (hrates.standard t ht)
    rwa [hagree] at hget
  · intro horder
    refine chainsMatch_of_agree hrates fun t ht => ?_
    obtain ⟨hlt, hget⟩ := List.getElem?_eq_some_iff.mp (horder t ht)
    rw [hixOf_eq_idxOf hrates ht, ← hget]
    exact List.Nodup.idxOf_getElem (by decide) t hlt

/-- The rates from 1 to 11 Mbps. -/
def cckRates : NodeRates := .ofLegacy [2, 4, 11, 22] true (by decide)

theorem chainsMatch_cck : ChainsMatch cckRates (fun _ => 0) (fun _ => .zero) fun _ => 0 := by
  have hrates : StandardRates cckRates := by refine ⟨?_, ?_, ?_, ?_⟩ <;> decide
  exact (chainsMatch_iff hrates _ _ _).mpr (by decide)

/-- The rates from 6 to 54 Mbps, whose hardware indices start at 4. -/
def ofdmRates : NodeRates := .ofLegacy [12, 18, 24, 36, 48, 72, 96, 108] false (by decide)

/-- After a success at 54 Mbps the third stage of the next frame is for that rate, with no try at all. -/
theorem chain_without_tries :
    ∃ sn sn' ch, (minstrelRun ofdmRates (fun _ => 0) (fun _ => .zero) (fun _ => 0)
        [.updateStats (tryRound 11 0 false)]).result = some sn ∧
      (minstrelGetRate minstrelAlloc false sn).result = some (sn', ch) ∧
      ch.rates[2]? = some ⟨11, 0, true⟩ ∧ ch.sampling = none ∧ ¬ ch.Matches sn' := by
  have hrates : StandardRates ofdmRates := by refine ⟨?_, ?_, ?_, ?_⟩ <;> decide
  have hreset : Ensures (fun _ => True) (ResetNode ofdmRates (minstrelAllocSta (fun _ => .zero) fun _ => 0))
      (arRateCtlReset minstrelAlloc ofdmRates (fun _ => 0) (minstrelAllocSta (fun _ => .zero) fun _ => 0)) :=
    reset_returns (by decide)
  obtain ⟨sn₀, hres, hsn₀⟩ := hreset.result
  have hhix : sn₀.hix 7 = 11 := (hsn₀.fresh 7 (by decide)).hix
  obtain ⟨sn₁, hrun, hsn₁⟩ := tryRound_returns hrates hres hsn₀ 11 0 false
  rw [← hhix] at hsn₁
  have hmax : sn₁.maxProbRate = 7 := hsn₁.maxProbRate hrates hsn₀ (by decide)
  have hhix₁ : sn₁.hix 7 = 11 := (hsn₁.hix (by rw [hsn₀.nRates]; decide)).trans hhix
  have hzero : sn₁.r 11 = .zero := by
    rw [hsn₁.beyond 11 (by rw [hsn₀.nRates]; decide), hsn₀.beyond 11 (by decide)]
    rfl
  have hthird : ∀ first, laterStage sn₁.countPacket first sn₁.maxProbRate = ⟨11, 0, first || true⟩ := by
    intro first
    show (⟨sn₁.hix sn₁.maxProbRate, (sn₁.r (sn₁.hix sn₁.maxProbRate)).adjustedRetryCount % 2 ^ 8,
      first || decide (sn₁.hix sn₁.maxProbRate < 12)⟩ : TxRate) = _
    rw [hmax, hhix₁, hzero]
    rfl
  refine ⟨sn₁, _, _, hrun, minstrelGetRate_first false hsn₁.packetCount hsn₁.sampleCount hsn₁.sampleDeferred,
    ?_, rfl, fun hmatches => ?_⟩
  · show some (laterStage sn₁.countPacket _ sn₁.maxProbRate) = _
    rw [hthird, Bool.or_true]
  · obtain ⟨t, -, -, hcount⟩ := hmatches.stage 2 _ rfl
    have hone : 1 ≤ (laterStage sn₁.countPacket _ sn₁.maxProbRate).count :=
      (hcount fun hnone => absurd hnone.symm (Option.some_ne_none 2)).2
    rw [hthird] at hone
    exact absurd hone (Nat.not_succ_le_zero 0)

end Onebox
