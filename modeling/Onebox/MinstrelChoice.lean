import Onebox.MinstrelStats

/-! How `minstrel_get_rate` chooses: the rate of the first stage with or without a sample, and the four
stages as a function of that choice. -/

namespace Onebox

open Calls

/-- The cursor is inside the table and the chosen rates are rates of the node. -/
structure Choosable (sn : MinstrelNode) : Prop where
  covering : sn.Covering
  sampleIdx : sn.sampleIdx + 1 < sn.nRates
  sampleColumn : sn.sampleColumn < sampleColumns
  maxTpRate : sn.maxTpRate < sn.nRates
  maxTpRate2 : sn.maxTpRate2 < sn.nRates
  maxProbRate : sn.maxProbRate < sn.nRates

/-- What the choice of a rate leaves of a node. -/
structure SampledFrom (sn sn' : MinstrelNode) : Prop where
  nRates : sn'.nRates = sn.nRates
  maxTpRate : sn'.maxTpRate = sn.maxTpRate
  maxTpRate2 : sn'.maxTpRate2 = sn.maxTpRate2
  maxProbRate : sn'.maxProbRate = sn.maxProbRate
  rates : ∀ i, ∃ limit, sn'.r i = { sn.r i with sampleLimit := limit }

section Sampling

variable {P : MinstrelEvent → Prop} {mp : MinstrelPriv} {sn sn' sn'' : MinstrelNode}

theorem Choosable.counters (h : Choosable sn) (packets count : Nat) (deferred : Int)
    (r : Nat → MinstrelRate) (prev : Bool) : Choosable { sn with
      packetCount := packets, sampleCount := count, sampleDeferred := deferred, r, prevSample := prev } :=
  ⟨h.covering, h.sampleIdx, h.sampleColumn, h.maxTpRate, h.maxTpRate2, h.maxProbRate⟩

theorem SampledFrom.counters (sn : MinstrelNode) (packets count idx column : Nat) (deferred : Int)
    (prev : Bool) : SampledFrom sn { sn with
      packetCount := packets, sampleCount := count, sampleDeferred := deferred, sampleIdx := idx
      sampleColumn := column, prevSample := prev } :=
  ⟨rfl, rfl, rfl, rfl, fun i => ⟨(sn.r i).sampleLimit, rfl⟩⟩

theorem SampledFrom.trans (h : SampledFrom sn sn') (h' : SampledFrom sn' sn'') : SampledFrom sn sn'' := by
  refine ⟨h'.nRates.trans h.nRates, h'.maxTpRate.trans h.maxTpRate, h'.maxTpRate2.trans h.maxTpRate2,
    h'.maxProbRate.trans h.maxProbRate, fun i => ?_⟩
  obtain ⟨limit, hr⟩ := h.rates i
  obtain ⟨limit', hr'⟩ := h'.rates i
  exact ⟨limit', by rw [hr', hr]⟩

theorem SampledFrom.hix (h : SampledFrom sn sn') (i : Nat) : sn'.hix i = sn.hix i := by
  obtain ⟨limit, hr⟩ := h.rates i
  rw [MinstrelNode.hix, hr]
  rfl

theorem limitBacklog_kept (h : Choosable sn) (delta : Nat) :
    Choosable (sn.limitBacklog delta) ∧ SampledFrom sn (sn.limitBacklog delta) := by
  rw [MinstrelNode.limitBacklog]
  split_ifs
  · exact ⟨h.counters .., .counters ..⟩
  · exact ⟨h.counters .., .counters ..⟩
  · exact ⟨h, .counters ..⟩

theorem afterSample_kept (h : Choosable sn) : Choosable sn.afterSample ∧ SampledFrom sn sn.afterSample := by
  have hidx := h.sampleIdx
  have hcolumn := h.sampleColumn
  rw [MinstrelNode.afterSample]
  by_cases hmore : sn.sampleIdx + 2 < sn.nRates
  · rw [if_pos hmore]
    exact ⟨⟨h.covering, hmore, hcolumn, h.maxTpRate, h.maxTpRate2, h.maxProbRate⟩, .counters ..⟩
  · rw [if_neg hmore]
    refine ⟨⟨h.covering, ?_, ?_, h.maxTpRate, h.maxTpRate2, h.maxProbRate⟩, .counters ..⟩
    · show 0 + 1 < sn.nRates
      omega
    · show (if sampleColumns ≤ sn.sampleColumn + 1 then 0 else sn.sampleColumn + 1) < sampleColumns
      split_ifs <;> omega

theorem spendSample_ensures {i : Nat} (hrate : P (.rate i)) (h : Choosable sn) :
    Ensures P (fun sn' => Choosable sn' ∧ SampledFrom sn sn') (sn.spendSample i (sn.r i)) := by
  rw [MinstrelNode.spendSample]
  by_cases hlimit : 0 < (sn.r i).sampleLimit
  · rw [if_pos hlimit]
    refine Ensures.of_eq rfl (List.forall_mem_singleton.mpr hrate) ⟨h.counters .., ?_⟩
    refine ⟨rfl, rfl, rfl, rfl, fun j => ?_⟩
    by_cases hj : j = i
    · refine ⟨(sn.r i).sampleLimit - 1, ?_⟩
      dsimp only
      rw [hj, Function.update_self]
    · refine ⟨(sn.r j).sampleLimit, ?_⟩
      dsimp only
      rw [Function.update_of_ne hj]
  · rw [if_neg hlimit]
    exact Ensures.pure ⟨h, .counters ..⟩

/-- A choice among the rates of the node `sn`. -/
structure ChosenFrom (sn : MinstrelNode) (s : Sampled) : Prop where
  choosable : Choosable s.sn
  kept : SampledFrom sn s.sn
  ndx : s.ndx < sn.nRates
  slower : ∀ t, s.slower = some t → t < sn.nRates

theorem minstrelGetNextSample_ensures (hsample : ∀ cell < sampleColumns * sn.nRates, P (.sample cell))
    (hn : sn.nRates < 2 ^ 32) (h : Choosable sn) :
    Ensures P (fun x => x.1 < sn.nRates ∧ x.2 = sn.afterSample) (minstrelGetNextSample sn) := by
  have hcell := sampleTbl_lt (show sn.sampleIdx < sn.nRates by have := h.sampleIdx; omega) h.sampleColumn
  refine Ensures.of_eq (minstrelGetNextSample_eq h.sampleIdx hn) ?_ ⟨?_, rfl⟩
  · exact List.forall_mem_singleton.mpr (hsample _ hcell)
  · exact (h.covering.sample_mem h.sampleIdx h.sampleColumn).2

theorem sampleRate_ensures (hrate : ∀ i < sn.nRates, P (.rate i))
    (hsample : ∀ cell < sampleColumns * sn.nRates, P (.sample cell)) (hn : sn.nRates < 2 ^ 32)
    (h : Choosable sn) (delta : Nat) : Ensures P (ChosenFrom sn) (sampleRate delta sn) := by
  obtain ⟨hlimited, hfrom⟩ := limitBacklog_kept h delta
  rw [sampleRate]
  have hnext := minstrelGetNextSample_ensures (hfrom.nRates.symm ▸ hsample) (hfrom.nRates.symm ▸ hn) hlimited
  refine hnext.bind ?_
  rintro ⟨sampleNdx, sn₁⟩ ⟨hlt, hsn₁⟩
  dsimp only at hlt hsn₁ ⊢
  obtain ⟨hready, hfrom'⟩ := afterSample_kept hlimited
  rw [← hsn₁] at hready hfrom'
  have hkept := hfrom.trans hfrom'
  have hlt' : sampleNdx < sn.nRates := hfrom.nRates ▸ hlt
  refine rateAt_bind (hrate _ hlt') (rateAt_bind (hrate _ h.maxTpRate) ?_)
  by_cases hslower : (sn₁.r sn.maxTpRate).perfectTxTime ≤ (sn₁.r sampleNdx).perfectTxTime
  · rw [if_pos hslower]
    refine Ensures.pure ⟨hready.counters .., hkept.trans (.counters ..), h.maxTpRate, fun t ht => ?_⟩
    exact Option.some.inj ht ▸ hlt'
  rw [if_neg hslower]
  by_cases hlimit : (sn₁.r sampleNdx).sampleLimit ≠ 0
  · rw [if_pos hlimit]
    have hcounted : Choosable { sn₁ with sampleCount := (sn₁.sampleCount + 1) % 2 ^ 32 } :=
      hready.counters ..
    have hfrom₁ : SampledFrom sn { sn₁ with sampleCount := (sn₁.sampleCount + 1) % 2 ^ 32 } :=
      hkept.trans (.counters ..)
    refine (spendSample_ensures (hrate _ hlt') hcounted).bind fun sn₂ hsn₂ => ?_
    refine Ensures.pure ⟨hsn₂.1, hfrom₁.trans hsn₂.2, hlt', ?_⟩
    exact fun t ht => absurd ht.symm (Option.some_ne_none t)
  · rw [if_neg hlimit]
    exact Ensures.pure ⟨hready, hkept, h.maxTpRate, fun t ht => absurd ht.symm (Option.some_ne_none t)⟩

theorem firstRate_ensures (hrate : ∀ i < sn.nRates, P (.rate i))
    (hsample : ∀ cell < sampleColumns * sn.nRates, P (.sample cell)) (hn : sn.nRates < 2 ^ 32)
    (h : Choosable sn) : Ensures P (ChosenFrom sn) (firstRate mp sn) := by
  rw [firstRate]
  by_cases hdelta : 0 < sn.delta mp
  · rw [if_pos hdelta]
    exact sampleRate_ensures hrate hsample hn h _
  · rw [if_neg hdelta]
    refine Ensures.pure ⟨h, .counters .., h.maxTpRate, ?_⟩
    exact fun t ht => absurd ht.symm (Option.some_ne_none t)

end Sampling

/-! The stages. -/

def Sampled.second (s : Sampled) : Nat :=
  if s.sample then s.slower.getD s.sn.maxTpRate else s.sn.maxTpRate2

/-- A later stage for the rate `t`. -/
def laterStage (sn : MinstrelNode) (first : Bool) (t : Nat) : TxRate :=
  ⟨sn.hix t, (sn.r (sn.hix t)).adjustedRetryCount % 2 ^ 8, first || decide (sn.hix t < 12)⟩

def Sampled.stages (s : Sampled) (flagged : Bool) : List TxRate :=
  let first := flagged || decide (s.sn.hix s.ndx < 12)
  [⟨s.sn.hix s.ndx, (s.sn.r s.ndx).adjustedRetryCount % 2 ^ 8, first⟩, laterStage s.sn first s.second,
    laterStage s.sn first s.sn.maxProbRate, laterStage s.sn first 0]

def Sampled.chain (s : Sampled) (flagged : Bool) : RateChain :=
  if s.sample then
    let stage := if s.slower.isSome then 1 else 0
    { rates := (s.stages flagged).modify stage fun a => { a with count := 1 }, sampling := some stage }
  else { rates := s.stages flagged, sampling := none }

theorem retryChain_eq (flagged : Bool) (s : Sampled) :
    retryChain flagged s = ⟨[.rate s.ndx, .rate s.second, .rate s.sn.maxProbRate, .rate 0,
      .rate (s.sn.hix s.second), .rate (s.sn.hix s.sn.maxProbRate), .rate (s.sn.hix 0)],
      some (s.chain flagged)⟩ := by
  rw [Sampled.chain, Sampled.stages, Sampled.second, retryChain]
  cases hsample : s.sample with
  | true => rfl
  | false => rfl

section Choice

variable {P : MinstrelEvent → Prop} {mp : MinstrelPriv} {sn : MinstrelNode} {s : Sampled}

theorem ChosenFrom.second_lt (h : ChosenFrom sn s) : s.second < sn.nRates := by
  have htp : s.sn.maxTpRate < sn.nRates := h.kept.nRates ▸ h.choosable.maxTpRate
  have htp2 : s.sn.maxTpRate2 < sn.nRates := h.kept.nRates ▸ h.choosable.maxTpRate2
  rw [Sampled.second]
  split_ifs
  · cases hslower : s.slower with
    | none => exact htp
    | some t => exact h.slower t hslower
  · exact htp2

theorem retryChain_ensures {flagged : Bool} (h : ChosenFrom sn s) (hrate : ∀ i < sn.nRates, P (.rate i))
    (hhix : ∀ t < sn.nRates, P (.rate (sn.hix t))) :
    Ensures P (· = s.chain flagged) (retryChain flagged s) := by
  have hprob : s.sn.maxProbRate < sn.nRates := h.kept.nRates ▸ h.choosable.maxProbRate
  have hpos : 0 < sn.nRates := by omega
  refine Ensures.of_eq (retryChain_eq flagged s) ?_ rfl
  rw [h.kept.hix, h.kept.hix, h.kept.hix]
  simp only [List.forall_mem_cons]
  exact ⟨hrate _ h.ndx, hrate _ h.second_lt, hrate _ hprob, hrate _ hpos, hhix _ h.second_lt, hhix _ hprob,
    hhix _ hpos, List.forall_mem_nil _⟩

theorem minstrelGetRate_ensures {flagged : Bool} (hrate : ∀ i < sn.nRates, P (.rate i))
    (hhix : ∀ t < sn.nRates, P (.rate (sn.hix t)))
    (hsample : ∀ cell < sampleColumns * sn.nRates, P (.sample cell)) (hn : sn.nRates < 2 ^ 32)
    (h : Choosable sn) :
    Ensures P (fun x => ∃ s, ChosenFrom sn s ∧ x = ({ s.sn with prevSample := s.sample }, s.chain flagged))
      (minstrelGetRate mp flagged sn) := by
  have hcounted : Choosable sn.countPacket := h.counters ..
  have hfrom : SampledFrom sn sn.countPacket := .counters ..
  have hfirst : Ensures P (ChosenFrom sn.countPacket) (firstRate mp sn.countPacket) :=
    firstRate_ensures hrate hsample hn hcounted
  refine hfirst.bind fun s hs => ?_
  refine (retryChain_ensures hs hrate hhix).bind fun chain hchain => ?_
  rw [hchain]
  exact Ensures.pure ⟨s, ⟨hs.choosable, hfrom.trans hs.kept, hs.ndx, hs.slower⟩, rfl⟩

theorem ChosenFrom.after (h : ChosenFrom sn s) :
    Choosable { s.sn with prevSample := s.sample } ∧ SampledFrom sn { s.sn with prevSample := s.sample } := by
  exact ⟨h.choosable.counters .., h.kept.trans (.counters ..)⟩

end Choice

/-- A node that is allocated and reset, and the calls after that. -/
def minstrelRun (rates : NodeRates) (rnd : Nat → UInt8) (r : Nat → MinstrelRate) (heap : Nat → UInt8)
    (calls : List MinstrelCall) : Minstrel MinstrelNode := do
  let sn ← arRateCtlReset minstrelAlloc rates rnd (minstrelAllocSta r heap)
  forEach (MinstrelCall.run minstrelAlloc) calls sn

theorem hixOf_lt (band24GHz : Bool) (bitrate : Nat) : hixOf band24GHz bitrate < 20 := by
  rw [hixOf]
  split_ifs with hrate
  · exact List.idxOf_lt_length_of_mem hrate
  · norm_num
  · norm_num

/-- The counters of a node that no call has been made for. -/
structure Unused (sn : MinstrelNode) : Prop where
  maxTpRate : sn.maxTpRate = 0
  maxTpRate2 : sn.maxTpRate2 = 0
  maxProbRate : sn.maxProbRate = 0
  packetCount : sn.packetCount = 0
  sampleCount : sn.sampleCount = 0
  sampleDeferred : sn.sampleDeferred = 0
  sampleIdx : sn.sampleIdx = 0
  sampleColumn : sn.sampleColumn = 0

section Start

variable {rates : NodeRates} {r : Nat → MinstrelRate} {heap : Nat → UInt8} {sn : MinstrelNode}

theorem ResetNode.unused (h : ResetNode rates (minstrelAllocSta r heap) sn) : Unused sn := by
  rw [h.kept]
  exact ⟨rfl, rfl, rfl, rfl, rfl, rfl, rfl, rfl⟩

theorem ResetNode.choosable (h : ResetNode rates (minstrelAllocSta r heap) sn) (hn : 2 ≤ rates.count) :
    Choosable sn := by
  obtain ⟨htp, htp2, hprob, -, -, -, hidx, hcolumn⟩ := h.unused
  have hpos : 0 < sn.nRates := by rw [h.nRates]; omega
  refine ⟨h.covering, ?_, hcolumn ▸ by decide, htp ▸ hpos, htp2 ▸ hpos, hprob ▸ hpos⟩
  rw [hidx, h.nRates]
  omega

theorem ResetNode.hix_lt (h : ResetNode rates (minstrelAllocSta r heap) sn) {t : Nat} (ht : t < rates.count) :
    sn.hix t < 20 := by
  rw [MinstrelNode.hix, (h.fresh t ht).hix]
  exact hixOf_lt _ _

end Start

end Onebox
