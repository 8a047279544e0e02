import Onebox.MinstrelChoice

/-! Accesses to the two tables of a node. With two to twenty rates they stay inside; more rates leave the
table of rates at the reset, and with one rate the cursor never returns to the start of its column. -/

namespace Onebox

open Calls

/-- The access is inside what `minstrel_alloc_sta` allocates. -/
def MinstrelEvent.InTables : MinstrelEvent → Prop
  | .rate i => i < maxRates
  | .sample cell => cell < sampleColumns * maxRates
  | .uint32 _ | .int32 _ => True

theorem inTables_allowsSmall : AllowsSmall MinstrelEvent.InTables := fun _ _ => ⟨trivial, trivial⟩

theorem inTables_rate_zero : (MinstrelEvent.rate 0).InTables := Nat.zero_lt_succ 19

section Bounds

variable {rates : NodeRates} {rnd : Nat → UInt8} {r : Nat → MinstrelRate} {heap : Nat → UInt8}
  {sn : MinstrelNode} {flagged : Bool}

theorem reset_inTables (hpos : 0 < rates.count) (hmax : rates.count ≤ 20) :
    Ensures MinstrelEvent.InTables (ResetNode rates (minstrelAllocSta r heap))
      (arRateCtlReset minstrelAlloc rates rnd (minstrelAllocSta r heap)) := by
  refine arRateCtlReset_ensures inTables_allowsSmall rfl rfl ?_ ?_ hpos _
  · exact fun i hi => Nat.lt_of_lt_of_le hi hmax
  · exact fun cell hcell => Nat.lt_of_lt_of_le hcell (Nat.mul_le_mul_left sampleColumns hmax)

/-- Past the twentieth rate the reset itself leaves the table. -/
theorem reset_outside (hmax : 20 < rates.count) :
    .rate 20 ∈ (arRateCtlReset minstrelAlloc rates rnd sn).log := by
  have hsmall : AllowsSmall fun _ => True := fun _ _ => ⟨trivial, trivial⟩
  have hlegacy : (rates.legacy 0).toNat < 256 := UInt8.toNat_lt _
  rw [arRateCtlReset]
  dsimp only
  rw [if_neg (by omega)]
  obtain ⟨_, hrate, rfl⟩ :=
    (i32_ensures hsmall ((rates.legacy 0).toNat * 5) (by push_cast; rfl) (by omega)).result
  refine mem_log_bind.mpr (.inr ⟨_, hrate, ?_⟩)
  obtain ⟨dur, hdur, -, hle⟩ := (ieee80211FrameDuration_ensures hsmall (show 10 ≤ 1200 by norm_num)
    (show (rates.legacy 0).toNat * 5 < 2 ^ 20 by omega)).result
  refine mem_log_bind.mpr (.inr ⟨dur, hdur, mem_log_bind.mpr (.inl ?_)⟩)
  have hreset : Ensures (fun _ => True) _ (forUpTo (resetRateAt minstrelAlloc rates dur) 20
      { sn with nRates := rates.count, spAckDur := dur }) :=
    resetRates_ensures hsmall rfl rfl (fun _ _ => trivial) hle _
  obtain ⟨sn', hbefore, -⟩ := hreset.result
  exact mem_log_forUpTo hmax hbefore (mem_log_bind.mpr (.inl List.mem_cons_self))

/-! Two rates or more. -/

/-- A node of `n` rates whose accesses are inside its tables. -/
structure Bounded (n : Nat) (sn : MinstrelNode) : Prop where
  nRates : sn.nRates = n
  choosable : Choosable sn
  hix : ∀ t < n, sn.hix t < maxRates

theorem getRate_bounded {n : Nat} (hmax : n ≤ 20) (h : Bounded n sn) :
    Ensures MinstrelEvent.InTables (Bounded n) ((MinstrelCall.getRate flagged).run minstrelAlloc sn) := by
  have hn := h.nRates
  have hrate : ∀ i < sn.nRates, MinstrelEvent.InTables (.rate i) := by
    intro i hi
    show i < 20
    omega
  have hsample : ∀ cell < sampleColumns * sn.nRates, MinstrelEvent.InTables (.sample cell) := by
    intro cell hcell
    refine Nat.lt_of_lt_of_le hcell (Nat.mul_le_mul_left sampleColumns ?_)
    show sn.nRates ≤ 20
    omega
  have hhix : ∀ t < sn.nRates, MinstrelEvent.InTables (.rate (sn.hix t)) := fun t ht => h.hix t (hn ▸ ht)
  refine (minstrelGetRate_ensures hrate hhix hsample (by omega) h.choosable).bind ?_
  rintro _ ⟨s, hs, rfl⟩
  obtain ⟨hready, hkept⟩ := hs.after
  refine Ensures.pure ⟨hkept.nRates.trans hn, hready, fun t ht => ?_⟩
  rw [hkept.hix]
  exact h.hix t ht

/-! One rate. -/

/-- How often a node with one rate has sampled in `k` calls: at each tenth call and, but for the first time,
at the call after it. -/
def Deferred (k d : Nat) : Prop :=
  if k % 10 = 0 ∧ 10 ≤ k then d + 1 = 2 * (k / 10) else d = 2 * (k / 10)

section Deferring

variable {k d : Nat} (h : Deferred k d)

include h

theorem Deferred.le_twenty (hk : k ≤ 109) : d ≤ 20 := by
  rw [Deferred] at h
  split_ifs at h <;> omega

theorem Deferred.lt_twenty (hk : k < 109) (hdelta : d / 2 < (k + 1) / 10) : d < 20 := by
  rw [Deferred] at h
  split_ifs at h <;> omega

theorem Deferred.due_le : (k + 1) / 10 ≤ d / 2 + 1 := by
  rw [Deferred] at h
  split_ifs at h <;> omega

theorem Deferred.sampled (hdelta : d / 2 < (k + 1) / 10) : Deferred (k + 1) (d + 1) := by
  rw [Deferred] at h ⊢
  split_ifs at h ⊢ <;> omega

theorem Deferred.skipped (hdelta : (k + 1) / 10 ≤ d / 2) : Deferred (k + 1) d := by
  rw [Deferred] at h ⊢
  split_ifs at h ⊢ <;> omega

end Deferring

/-- A node with one rate after `k` calls. -/
structure OneRate (k : Nat) (sn : MinstrelNode) : Prop where
  nRates : sn.nRates = 1
  maxTpRate : sn.maxTpRate = 0
  maxTpRate2 : sn.maxTpRate2 = 0
  maxProbRate : sn.maxProbRate = 0
  packetCount : sn.packetCount = k
  sampleCount : sn.sampleCount = 0
  sampleColumn : sn.sampleColumn = 0
  sampleDeferred : sn.sampleDeferred = sn.sampleIdx
  sampleIdx : Deferred k sn.sampleIdx
  table : ∀ cell < sampleColumns * maxRates, sn.sampleTable cell = 0
  hix : sn.hix 0 < maxRates

theorem OneRate.delta {k : Nat} (h : OneRate k sn) (hk : k ≤ 109) :
    sn.countPacket.delta minstrelAlloc = ((k + 1) / 10 : Nat) - (sn.sampleIdx / 2 : Nat) := by
  have hidx := h.sampleIdx.le_twenty hk
  have hpackets :
      sn.countPacket.packetCount * minstrelAlloc.lookaroundRateMrr % 2 ^ 32 / 100 = (k + 1) / 10 := by
    show (sn.packetCount + 1) % 2 ^ 32 * 10 % 2 ^ 32 / 100 = (k + 1) / 10
    rw [h.packetCount]
    omega
  have hcount : sn.countPacket.sampleCount = 0 := h.sampleCount
  have hdeferred : sn.countPacket.sampleDeferred = sn.sampleIdx := h.sampleDeferred
  rw [MinstrelNode.delta, hpackets, hcount, hdeferred, Int.tdiv_eq_ediv_of_nonneg (Int.natCast_nonneg _)]
  rw [Int.bmod_eq_of_le] <;> omega

/-- The cursor is compared with `2 ^ 32 - 1`. -/
theorem minstrelGetNextSample_one (hn : sn.nRates = 1) (hcolumn : sn.sampleColumn = 0)
    (hidx : sn.sampleIdx ≤ 20) :
    minstrelGetNextSample sn = ⟨[.sample (sn.sampleIdx * 10)],
      some ((sn.sampleTable (sn.sampleIdx * 10)).toNat, { sn with sampleIdx := sn.sampleIdx + 1 })⟩ := by
  have hnext : (sn.sampleIdx + 1) % 2 ^ 32 = sn.sampleIdx + 1 := Nat.mod_eq_of_lt (by omega)
  have hlast : (((1 : Nat) : Int) - 2) % 2 ^ 32 = 4294967295 := by decide
  rw [minstrelGetNextSample, bind_of_result rfl, hn, hnext, hlast, hcolumn, if_neg (by omega)]
  rfl

theorem OneRate.packets {k : Nat} (h : OneRate k sn) (hk : k ≤ 109) : sn.countPacket.packetCount = k + 1 := by
  show (sn.packetCount + 1) % 2 ^ 32 = k + 1
  rw [h.packetCount]
  omega

/-- The cell that a sample reads is the first one of the next row. -/
theorem OneRate.nextSample_eq {k delta : Nat} (h : OneRate k sn) (hk : k ≤ 109) (hdelta : delta ≤ 1) :
    minstrelGetNextSample (sn.countPacket.limitBacklog delta) = ⟨[.sample (sn.sampleIdx * 10)],
      some ((sn.sampleTable (sn.sampleIdx * 10)).toNat,
        { sn.countPacket with sampleIdx := sn.sampleIdx + 1 })⟩ := by
  have hn : sn.countPacket.nRates = 1 := h.nRates
  have hlimit : sn.countPacket.limitBacklog delta = sn.countPacket := by
    rw [MinstrelNode.limitBacklog, h.packets hk, hn, if_neg (by omega), if_neg (by omega)]
  rw [hlimit]
  exact minstrelGetNextSample_one hn h.sampleColumn (h.sampleIdx.le_twenty hk)

/-- The rate that a sample reads is the only one, so it counts as slower. -/
theorem OneRate.sampled {k : Nat} (h : OneRate k sn) (hk : k < 109)
    (hdue : sn.sampleIdx / 2 < (k + 1) / 10) : OneRate (k + 1)
      { sn.countPacket with
        sampleIdx := sn.sampleIdx + 1, sampleDeferred := (sn.sampleDeferred + 1).bmod (2 ^ 32) } := by
  have hidx := h.sampleIdx.lt_twenty hk hdue
  refine ⟨h.nRates, h.maxTpRate, h.maxTpRate2, h.maxProbRate, h.packets (Nat.le_of_lt hk), h.sampleCount,
    h.sampleColumn, ?_, h.sampleIdx.sampled hdue, h.table, h.hix⟩
  show (sn.sampleDeferred + 1).bmod (2 ^ 32) = (sn.sampleIdx + 1 : Nat)
  rw [h.sampleDeferred, Int.bmod_eq_of_le] <;> omega

theorem OneRate.skipped {k : Nat} (h : OneRate k sn) (hk : k < 109)
    (hdue : (k + 1) / 10 ≤ sn.sampleIdx / 2) : OneRate (k + 1) sn.countPacket :=
  ⟨h.nRates, h.maxTpRate, h.maxTpRate2, h.maxProbRate, h.packets (Nat.le_of_lt hk), h.sampleCount,
    h.sampleColumn, h.sampleDeferred, h.sampleIdx.skipped hdue, h.table, h.hix⟩

theorem OneRate.firstRate_ensures {k : Nat} (h : OneRate k sn) (hk : k < 109) :
    Ensures MinstrelEvent.InTables (fun s => OneRate (k + 1) s.sn ∧ s.ndx = 0 ∧ s.second = 0)
      (firstRate minstrelAlloc sn.countPacket) := by
  have hk' := Nat.le_of_lt hk
  have hle := h.sampleIdx.due_le
  have htp : sn.countPacket.maxTpRate = 0 := h.maxTpRate
  rw [firstRate, h.delta hk']
  by_cases hdelta : (0 : Int) < ((k + 1) / 10 : Nat) - (sn.sampleIdx / 2 : Nat)
  · have hdue : sn.sampleIdx / 2 < (k + 1) / 10 := by omega
    have hcell : sn.sampleIdx * 10 < sampleColumns * maxRates :=
      Nat.mul_lt_mul_of_pos_right (h.sampleIdx.lt_twenty hk hdue) (by norm_num)
    rw [if_pos hdelta, sampleRate, h.nextSample_eq hk' (by omega)]
    refine Ensures.bind_of_eq rfl (List.forall_mem_singleton.mpr hcell) ?_
    dsimp only
    rw [h.table _ hcell, UInt8.toNat_zero]
    refine rateAt_bind inTables_rate_zero (rateAt_bind (htp ▸ inTables_rate_zero) ?_)
    rw [if_pos (by rw [htp])]
    exact Ensures.pure ⟨h.sampled hk hdue, htp, rfl⟩
  · rw [if_neg hdelta]
    exact Ensures.pure ⟨h.skipped hk (by omega), htp, h.maxTpRate2⟩

theorem OneRate.getRate_ensures {k : Nat} (h : OneRate k sn) (hk : k < 109) :
    Ensures MinstrelEvent.InTables (OneRate (k + 1))
      ((MinstrelCall.getRate flagged).run minstrelAlloc sn) := by
  have hget : Ensures MinstrelEvent.InTables (fun x => OneRate (k + 1) x.1)
      (minstrelGetRate minstrelAlloc flagged sn) := by
    refine (h.firstRate_ensures hk).bind fun s hs => ?_
    obtain ⟨hone, hndx, hsecond⟩ := hs
    have hchain : Ensures MinstrelEvent.InTables (fun _ => True) (retryChain flagged s) := by
      refine Ensures.of_eq (retryChain_eq flagged s) ?_ trivial
      rw [hndx, hsecond, hone.maxProbRate]
      have hzero := inTables_rate_zero
      have hhix : MinstrelEvent.InTables (.rate (s.sn.hix 0)) := hone.hix
      simp only [List.forall_mem_cons]
      exact ⟨hzero, hzero, hzero, hzero, hhix, hhix, hhix, List.forall_mem_nil _⟩
    refine hchain.bind fun chain _ => Ensures.pure ?_
    exact ⟨hone.1, hone.2, hone.3, hone.4, hone.5, hone.6, hone.7, hone.8, hone.9, hone.10, hone.11⟩
  exact hget.bind fun x hx => Ensures.pure hx

/-- The hundred and tenth call reads the first byte after the table. -/
theorem OneRate.getRate_outside (h : OneRate 109 sn) :
    .sample 200 ∈ ((MinstrelCall.getRate flagged).run minstrelAlloc sn).log := by
  have hidx : sn.sampleIdx = 20 := h.sampleIdx
  refine mem_log_bind.mpr (.inl (mem_log_bind.mpr (.inl ?_)))
  rw [firstRate, h.delta (Nat.le_refl 109), hidx, if_pos (by decide), sampleRate]
  refine mem_log_bind.mpr (.inl ?_)
  rw [h.nextSample_eq (Nat.le_refl 109) (by decide), hidx]
  exact List.mem_cons_self

theorem ResetNode.oneRate (h : ResetNode rates (minstrelAllocSta r heap) sn) (hone : rates.count = 1) :
    OneRate 0 sn := by
  obtain ⟨htp, htp2, hprob, hpackets, hcount, hdeferred, hidx, hcolumn⟩ := h.unused
  refine ⟨h.nRates.trans hone, htp, htp2, hprob, hpackets, hcount, hcolumn, ?_, ?_, fun cell hcell => ?_,
    h.hix_lt (by omega)⟩
  · rw [hdeferred, hidx]
    rfl
  · rw [hidx]
    rfl
  · rw [h.lastRow cell (by rw [hone]; exact Nat.zero_le _), minstrelAllocSta]
    dsimp only
    rw [if_pos hcell, ite_self]

theorem getRates_bounded {n : Nat} {flags : List Bool} (hmax : n ≤ 20) (h : Bounded n sn) :
    Ensures MinstrelEvent.InTables (Bounded n)
      (forEach (MinstrelCall.run minstrelAlloc) (flags.map .getRate) sn) := by
  refine Ensures.forEach (fun _ => Bounded n) h fun done x sn hpre hsn => ?_
  obtain ⟨flagged, -, rfl⟩ := List.mem_map.mp (hpre.subset (List.mem_append_right done List.mem_cons_self))
  exact getRate_bounded hmax hsn

theorem getRates_oneRate {flags : List Bool} (h : OneRate 0 sn) (hlen : flags.length ≤ 109) :
    Ensures MinstrelEvent.InTables (OneRate flags.length)
      (forEach (MinstrelCall.run minstrelAlloc) (flags.map .getRate) sn) := by
  rw [← List.length_map (f := MinstrelCall.getRate)]
  refine Ensures.forEach (fun done => OneRate done.length) h fun done x sn hpre hsn => ?_
  obtain ⟨flagged, -, rfl⟩ := List.mem_map.mp (hpre.subset (List.mem_append_right done List.mem_cons_self))
  have hlt := hpre.length_le
  rw [List.length_append, List.length_map, List.length_singleton] at hlt
  rw [List.length_append, List.length_singleton]
  exact hsn.getRate_ensures (by omega)

theorem getRates_outside {flags : List Bool} (h : OneRate 0 sn) (hlen : 109 < flags.length) :
    .sample 200 ∈ (forEach (MinstrelCall.run minstrelAlloc) (flags.map .getRate) sn).log := by
  have hbefore : (flags.take 109).length = 109 := List.length_take_of_le (Nat.le_of_lt hlen)
  obtain ⟨sn', hrun, hsn'⟩ := (getRates_oneRate h (Nat.le_of_eq hbefore)).result
  rw [hbefore] at hsn'
  have hpre : (flags.take 109).map .getRate ++ [.getRate flags[109]] <+: flags.map MinstrelCall.getRate := by
    rw [← List.map_singleton, ← List.map_append, List.take_append_getElem hlen]
    exact (List.take_prefix 110 flags).map _
  exact mem_log_forEach hpre hrun hsn'.getRate_outside

theorem minstrelRun_one_outside {flags : List Bool} (hone : rates.count = 1) (hlen : 109 < flags.length) :
    .sample 200 ∈ (minstrelRun rates rnd r heap (flags.map .getRate)).log := by
  have hreset : Ensures MinstrelEvent.InTables (ResetNode rates (minstrelAllocSta r heap))
      (arRateCtlReset minstrelAlloc rates rnd (minstrelAllocSta r heap)) :=
    reset_inTables (by omega) (by omega)
  obtain ⟨sn₀, hres, hsn₀⟩ := hreset.result
  exact mem_log_bind.mpr (.inr ⟨sn₀, hres, getRates_outside (hsn₀.oneRate hone) hlen⟩)

end Bounds

/-- The accesses of a node and of the calls that choose its rates are inside the tables exactly if the node
has two to twenty rates, or one rate and at most 109 calls. -/
theorem minstrelRun_inTables_iff (rates : NodeRates) (hlegacy : 1 ≤ rates.legacyCount) (rnd : Nat → UInt8)
    (r : Nat → MinstrelRate) (heap : Nat → UInt8) (flags : List Bool) :
    (∀ e ∈ (minstrelRun rates rnd r heap (flags.map .getRate)).log, e.InTables) ↔
      rates.count ≤ 20 ∧ (2 ≤ rates.count ∨ flags.length ≤ 109) := by
  have hpos : 0 < rates.count := Nat.lt_of_lt_of_le hlegacy (Nat.le_add_right _ _)
  constructor
  · intro hin
    refine ⟨?_, ?_⟩
    · by_contra hmany
      have hout := hin _ (mem_log_bind.mpr (.inl (reset_outside (Nat.lt_of_not_le hmany))))
      exact absurd hout (Nat.lt_irrefl 20)
    · by_contra hmany
      rw [not_or, Nat.not_le, Nat.not_le] at hmany
      have hout := hin _ (minstrelRun_one_outside (by omega) hmany.2)
      exact absurd hout (Nat.lt_irrefl 200)
  · rintro ⟨hmax, hcalls⟩
    suffices h : Ensures MinstrelEvent.InTables (fun _ => True)
      (minstrelRun rates rnd r heap (flags.map .getRate)) from h.1
    refine (reset_inTables hpos hmax).bind fun sn hsn => ?_
    by_cases htwo : 2 ≤ rates.count
    · have hbounded : Bounded rates.count sn := ⟨hsn.nRates, hsn.choosable htwo, fun t ht => hsn.hix_lt ht⟩
      exact (getRates_bounded hmax hbounded).mono fun _ _ => trivial
    · have hone := hsn.oneRate (by omega)
      exact (getRates_oneRate hone (hcalls.resolve_left htwo)).mono fun _ _ => trivial

/-- Twelve legacy rates and nine of the high throughput. -/
def twentyOneRates : NodeRates :=
  { legacyCount := 12, legacy := fun _ => 2, htCount := 9, ht := fun _ => 0, beyond := fun _ => 0
    band24GHz := true
    legacyCount_le := by decide
    htCount_le := by decide }

theorem minstrelRun_outside :
    (∃ e ∈ (minstrelRun twentyOneRates (fun _ => 0) (fun _ => .zero) (fun _ => 0) []).log, ¬ e.InTables) ∧
      ∃ e ∈ (minstrelRun oneMbps (fun _ => 0) (fun _ => .zero) (fun _ => 0)
        ((List.replicate 110 false).map .getRate)).log, ¬ e.InTables := by
  refine ⟨⟨.rate 20, ?_, Nat.lt_irrefl 20⟩, ⟨.sample 200, ?_, Nat.lt_irrefl 200⟩⟩
  · exact mem_log_bind.mpr (.inl (reset_outside (by decide)))
  · exact minstrelRun_one_outside (by decide) (by decide)

theorem minstrelRun_inside_one_rate :
    oneMbps.count = 1 ∧ ∀ e ∈ (minstrelRun oneMbps (fun _ => 0) (fun _ => .zero) (fun _ => 0)
      ((List.replicate 109 false).map .getRate)).log, e.InTables :=
  ⟨rfl, (minstrelRun_inTables_iff oneMbps (by decide) _ _ _ _).mpr ⟨by decide, .inr (by decide)⟩⟩

end Onebox
