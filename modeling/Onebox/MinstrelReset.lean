import Onebox.MinstrelSampling

/-! A node after `ar_rate_ctl_reset`: the bounds of its times, its retry counts, and the entries of its
table, together with what the reset leaves of the node. -/

namespace Onebox

open Calls

/-- Every value below `2 ^ 31` may be computed. -/
def AllowsSmall (P : MinstrelEvent → Prop) : Prop :=
  ∀ v : Nat, v < 2 ^ 31 → P (.uint32 v) ∧ P (.int32 v)

section Times

variable {α : Type} {P : MinstrelEvent → Prop} {Q : α → Prop} {f : Nat → Minstrel α} (hP : AllowsSmall P)

theorem u32_eq (v : Nat) (hv : v < 2 ^ 32) : u32 v = ⟨[.uint32 v], some v⟩ := by
  have hmod : ((v : Int) % 2 ^ 32).toNat = v := by omega
  rw [u32, hmod]

theorem i32_eq (v : Nat) (hv : v < 2 ^ 32) : i32 v = ⟨[.int32 v], some v⟩ := by
  have hmod : ((v : Int) % 2 ^ 32).toNat = v := by omega
  rw [i32, hmod]

include hP

theorem u32_ensures {v : Int} (k : Nat) (hv : v = k) (hk : k < 2 ^ 31) : Ensures P (· = k) (u32 v) := by
  subst hv
  refine Ensures.of_eq (u32_eq k (by omega)) ?_ rfl
  exact List.forall_mem_singleton.mpr (hP k hk).1

theorem i32_ensures {v : Int} (k : Nat) (hv : v = k) (hk : k < 2 ^ 31) : Ensures P (· = k) (i32 v) := by
  subst hv
  refine Ensures.of_eq (i32_eq k (by omega)) ?_ rfl
  exact List.forall_mem_singleton.mpr (hP k hk).2

theorem u32_bind {v : Int} (k : Nat) (hv : v = k) (hk : k < 2 ^ 31) (hf : Ensures P Q (f k)) :
    Ensures P Q (u32 v >>= f) := by
  subst hv
  exact Ensures.bind_of_eq (u32_eq k (by omega)) (List.forall_mem_singleton.mpr (hP k hk).1) hf

theorem i32_bind {v : Int} (k : Nat) (hv : v = k) (hk : k < 2 ^ 31) (hf : Ensures P Q (f k)) :
    Ensures P Q (i32 v >>= f) := by
  subst hv
  exact Ensures.bind_of_eq (i32_eq k (by omega)) (List.forall_mem_singleton.mpr (hP k hk).2) hf

theorem divRoundUp_ensures {n d : Nat} (hn : n < 2 ^ 30) (hd : 0 < d) (hd' : d < 2 ^ 30) :
    Ensures P (· ≤ n) (divRoundUp n d) := by
  refine u32_bind hP (n + d) (by push_cast; rfl) (by omega) ?_
  refine u32_bind hP (n + d - 1) (by omega) (by omega) ?_
  refine Ensures.pure (Nat.le_of_lt_succ ((Nat.div_lt_iff_lt_mul hd).mpr ?_))
  have hmul : n ≤ n * d := Nat.le_mul_of_pos_right n hd
  rw [Nat.succ_mul]
  omega

/-- The durations that are computed here are long enough for a quotient and far from an overflow. -/
theorem ieee80211FrameDuration_ensures {len rate : Nat} {erp short : Bool} (hlen : len ≤ 1200)
    (hrate : rate < 2 ^ 20) :
    Ensures P (fun d => 10 ≤ d ∧ d ≤ 400000) (ieee80211FrameDuration len rate erp short) := by
  rw [ieee80211FrameDuration]
  by_cases hzero : rate = 0
  · rw [if_pos hzero]
    exact Ensures.pure (by omega)
  rw [if_neg hzero]
  cases erp with
  | true =>
    refine u32_bind hP ((16 + 8 * (len + 4) + 6) * 10) (by push_cast; rfl) (by omega) ?_
    refine i32_bind hP (4 * rate) (by push_cast; rfl) (by omega) ?_
    refine (divRoundUp_ensures hP (by omega) (by omega) (by omega)).bind fun symbols hsymbols => ?_
    refine u32_bind hP (4 * symbols) (by push_cast; rfl) (by omega) ?_
    refine (i32_ensures hP (36 + 4 * symbols) (by push_cast; ring) (by omega)).mono ?_
    rintro _ rfl
    omega
  | false =>
    refine u32_bind hP (8 * (len + 4) * 10) (by push_cast; rfl) (by omega) ?_
    refine (divRoundUp_ensures hP (by omega) (by omega) (by omega)).bind fun time htime => ?_
    refine (i32_ensures hP (10 + (if short then 96 else 192) + time) ?_ ?_).mono ?_
    · cases short <;> simp
    · cases short <;> simp <;> omega
    · rintro _ rfl
      cases short <;> simp <;> omega

/-- A fourth round of the loop never starts. -/
structure RetryReady (spAckDur : Nat) (t : RetryTimes) (mr : MinstrelRate) : Prop where
  one_le : 1 ≤ mr.retryCount
  le_two : mr.retryCount ≤ 2
  ackDur : spAckDur ≤ 400000
  ackTime : mr.ackTime ≤ 400000
  perfectTxTime : mr.perfectTxTime ≤ 400000
  cw : t.cw ≤ 15 + 100 * (mr.retryCount - 1)
  txTime : t.txTime ≤ 2 ^ 21 * mr.retryCount
  txTimeCts : t.txTimeCts ≤ 2 ^ 21 * mr.retryCount
  txTimeRtscts : t.txTimeRtscts ≤ 2 ^ 21 * mr.retryCount

theorem retryLoop_ensures {mp : MinstrelPriv} (hretry : mp.maxRetry = 3) {spAckDur fuel : Nat}
    {t : RetryTimes} {mr : MinstrelRate} (hfuel : 4 ≤ fuel + mr.retryCount) (h : RetryReady spAckDur t mr) :
    Ensures P (fun mr' => 1 ≤ mr'.retryCount ∧ mr'.retryCount ≤ 3 ∧
        mr' = { mr with
          retryCount := mr'.retryCount
          retryCountCts := mr'.retryCountCts
          retryCountRtscts := mr'.retryCountRtscts })
      (retryLoop mp spAckDur fuel t mr) := by
  induction fuel generalizing t mr with
  | zero =>
    have htwo := h.le_two
    omega
  | succ fuel ih =>
    obtain ⟨hone, htwo, hdur, hack, hperfect, hcw, htime, hcts, hrtscts⟩ := h
    have hmin : min t.cw mp.cwMax ≤ t.cw := Nat.min_le_left _ _
    rw [retryLoop]
    refine u32_bind hP (mr.ackTime + mr.perfectTxTime) (by push_cast; rfl) (by omega) ?_
    refine (u32_ensures hP (mr.ackTime + mr.perfectTxTime + (9 + min t.cw mp.cwMax))
      (by push_cast; rfl) (by omega)).bind fun single hsingle => ?_
    have hle : single ≤ 801200 := by omega
    refine u32_bind hP ((t.cw + 1) * 2) (by push_cast; rfl) (by omega) ?_
    refine u32_bind hP (t.txTime + single) (by push_cast; rfl) (by omega) ?_
    refine u32_bind hP (t.txTimeCts + (single + spAckDur)) (by push_cast; rfl) (by omega) ?_
    refine u32_bind hP (t.txTimeRtscts + (single + 2 * spAckDur)) (by push_cast; rfl) (by omega) ?_
    dsimp only
    by_cases hshort : t.txTime + single < mp.segmentSize
    · rw [if_pos hshort, hretry]
      by_cases hmore : mr.retryCount + 1 < 3
      · rw [if_pos hmore]
        have hnext : ∀ cts rtscts, RetryReady spAckDur ⟨t.txTime + single, t.txTimeCts + (single + spAckDur),
            t.txTimeRtscts + (single + 2 * spAckDur), (t.cw + 1) * 2⟩
            { mr with
              retryCount := mr.retryCount + 1, retryCountCts := cts, retryCountRtscts := rtscts } := by
          intro cts rtscts
          constructor <;> first | assumption | (dsimp only; omega)
        exact ih (by dsimp only; omega) (hnext _ _)
      · rw [if_neg hmore]
        exact Ensures.pure ⟨Nat.le_add_left 1 _, by dsimp only; omega, rfl⟩
    · rw [if_neg hshort]
      exact Ensures.pure ⟨hone, by dsimp only; omega, rfl⟩

end Times

theorem NodeRates.bitrate_lt (rates : NodeRates) (i : Nat) : rates.bitrate i < 2 ^ 16 := by
  have hht : ∀ v ∈ ht20Rates, v < 2 ^ 16 := by decide
  rw [NodeRates.bitrate]
  dsimp only
  split_ifs with hlegacy hindex
  · exact Nat.lt_of_lt_of_le (UInt8.toNat_lt _) (by norm_num)
  · rw [List.getD_eq_getElem _ _ hindex]
    exact hht _ (List.getElem_mem _)
  · exact UInt16.toNat_lt _

/-- The node in a loop over the rates, which makes entries with `R` of those below `k`. -/
structure UpdatedTo (R : Nat → MinstrelRate → Prop) (sn : MinstrelNode) (k : Nat) (sn' : MinstrelNode) :
    Prop where
  done : ∀ i < k, R i (sn'.r i)
  rest : ∀ i, k ≤ i → sn'.r i = sn.r i
  kept : sn' = { sn with r := sn'.r }

section Loop

variable {α : Type} {P : MinstrelEvent → Prop} {Q : α → Prop} {R : Nat → MinstrelRate → Prop}
  {sn sn' : MinstrelNode}

theorem rateAt_bind {f : MinstrelRate → Minstrel α} {i : Nat} (hi : P (.rate i))
    (hf : Ensures P Q (f (sn.r i))) : Ensures P Q (sn.rateAt i >>= f) :=
  Ensures.bind_of_eq rfl (List.forall_mem_singleton.mpr hi) hf

theorem setRate_bind {f : MinstrelNode → Minstrel α} {i : Nat} {mr : MinstrelRate} (hi : P (.rate i))
    (hf : Ensures P Q (f { sn with r := Function.update sn.r i mr })) : Ensures P Q (sn.setRate i mr >>= f) :=
  Ensures.bind_of_eq rfl (List.forall_mem_singleton.mpr hi) hf

theorem updatedTo_zero (R : Nat → MinstrelRate → Prop) (sn : MinstrelNode) : UpdatedTo R sn 0 sn :=
  ⟨fun i hi => absurd hi (Nat.not_lt_zero i), fun _ _ => rfl, rfl⟩

theorem UpdatedTo.step {k : Nat} {mr : MinstrelRate} (h : UpdatedTo R sn k sn') (hmr : R k mr) :
    UpdatedTo R sn (k + 1) { sn' with r := Function.update sn'.r k mr } := by
  refine ⟨fun i hi => ?_, fun i hi => ?_, by rw [h.kept]⟩
  · dsimp only
    by_cases hik : i = k
    · rw [hik, Function.update_self]
      exact hmr
    · rw [Function.update_of_ne hik]
      exact h.done i (by omega)
  · dsimp only
    rw [Function.update_of_ne (by omega), h.rest i (by omega)]

end Loop

/-- The entry of the rate `i` right after the reset. -/
structure FreshRate (rates : NodeRates) (i : Nat) (mr : MinstrelRate) : Prop where
  bitrate : mr.bitrate = rates.bitrate i
  hix : mr.hix = hixOf rates.band24GHz (rates.bitrate i)
  le_perfectTxTime : 10 ≤ mr.perfectTxTime
  perfectTxTime_le : mr.perfectTxTime ≤ 400000
  one_le_retryCount : 1 ≤ mr.retryCount
  retryCount_le : mr.retryCount ≤ 3
  adjustedRetryCount : mr.adjustedRetryCount = mr.retryCount
  probability : mr.probability = 0
  curTp : mr.curTp = 0
  succHist : mr.succHist = 0
  attHist : mr.attHist = 0

/-- A node after the reset of `sn`. -/
structure ResetNode (rates : NodeRates) (sn sn' : MinstrelNode) : Prop where
  nRates : sn'.nRates = rates.count
  fresh : ∀ i < rates.count, FreshRate rates i (sn'.r i)
  beyond : ∀ i, rates.count ≤ i → sn'.r i = sn.r i
  covering : sn'.Covering
  lastRow : ∀ cell, sampleColumns * (rates.count - 1) ≤ cell →
    sn'.sampleTable cell = if cell < sampleColumns * rates.count then 0 else sn.sampleTable cell
  kept : sn' = { sn with
    nRates := rates.count, sampleColumn := 0, sampleIdx := 0
    spAckDur := sn'.spAckDur, r := sn'.r, sampleTable := sn'.sampleTable }

section Reset

variable {P : MinstrelEvent → Prop} (hP : AllowsSmall P) {mp : MinstrelPriv} (hretry : mp.maxRetry = 3)
  (hcw : mp.cwMin = 15) {rates : NodeRates} {rnd : Nat → UInt8}

include hP hretry hcw

theorem resetRate_ensures {spAckDur : Nat} (hdur : spAckDur ≤ 400000) (i : Nat) :
    Ensures P (FreshRate rates i) (resetRate mp rates spAckDur i) := by
  have hlt := rates.bitrate_lt i
  rw [resetRate]
  refine i32_bind hP (rates.bitrate i * 5) (by push_cast; rfl) (by omega) ?_
  refine (ieee80211FrameDuration_ensures hP (Nat.le_refl 1200) (by omega)).bind fun perfect hperfect => ?_
  refine (ieee80211FrameDuration_ensures hP (by norm_num) (by omega)).bind fun ack hack => ?_
  refine u32_bind hP (perfect + spAckDur) (by push_cast; rfl) (by omega) ?_
  have hready : RetryReady spAckDur ⟨perfect + spAckDur, 0, 0, mp.cwMin⟩
      { MinstrelRate.zero with
        rix := i, bitrate := rates.bitrate i, hix := hixOf rates.band24GHz (rates.bitrate i)
        perfectTxTime := perfect, ackTime := ack, sampleLimit := -1
        retryCount := 1, retryCountCts := 1, retryCountRtscts := 1 } := by
    constructor <;> first | assumption | (dsimp only; omega)
  refine (retryLoop_ensures hP hretry (by dsimp only; omega) hready).bind fun mr hmr => Ensures.pure ?_
  obtain ⟨hone, hthree, heq⟩ := hmr
  rw [heq]
  exact ⟨rfl, rfl, hperfect.1, hperfect.2, hone, hthree, rfl, rfl, rfl, rfl, rfl⟩

theorem resetRates_ensures {n spAckDur : Nat} (hrate : ∀ i < n, P (.rate i)) (hdur : spAckDur ≤ 400000)
    (sn : MinstrelNode) :
    Ensures P (UpdatedTo (FreshRate rates) sn n) (forUpTo (resetRateAt mp rates spAckDur) n sn) := by
  refine Ensures.forUpTo (UpdatedTo (FreshRate rates) sn) (updatedTo_zero _ sn) fun k hk sn' hsn' => ?_
  refine Ensures.bind_emit (hrate k hk) ?_
  refine (resetRate_ensures hP hretry hcw hdur k).bind fun mr hmr => ?_
  exact Ensures.of_eq rfl (List.forall_mem_singleton.mpr (hrate k hk)) (hsn'.step hmr)

theorem arRateCtlReset_ensures (hrate : ∀ i < rates.count, P (.rate i))
    (hsample : ∀ cell < sampleColumns * rates.count, P (.sample cell)) (hpos : 0 < rates.count)
    (sn : MinstrelNode) : Ensures P (ResetNode rates sn) (arRateCtlReset mp rates rnd sn) := by
  have hlegacy : (rates.legacy 0).toNat < 256 := UInt8.toNat_lt _
  have hcount : rates.count ≤ 92 := Nat.add_le_add rates.legacyCount_le rates.htCount_le
  rw [arRateCtlReset]
  dsimp only
  rw [if_neg (by omega)]
  refine i32_bind hP ((rates.legacy 0).toNat * 5) (by push_cast; rfl) (by omega) ?_
  refine (ieee80211FrameDuration_ensures hP (by norm_num) (by omega)).bind fun dur hdur => ?_
  refine (resetRates_ensures hP hretry hcw hrate hdur.2 _).bind fun sn1 hsn1 => ?_
  obtain ⟨hfresh, hbeyond, heq⟩ := hsn1
  have hn : sn1.nRates = rates.count := by rw [heq]
  refine (initSampleTable_ensures (hn.symm ▸ hsample) (by omega)).mono fun sn' hsn' => ?_
  obtain ⟨hcover, hlast, heq'⟩ := hsn'
  have hr : sn'.r = sn1.r := by rw [heq']
  have hn' : sn'.nRates = rates.count := by rw [heq', hn]
  have htable : sn1.sampleTable = sn.sampleTable := by rw [heq]
  refine ⟨hn', fun i hi => hr ▸ hfresh i hi, fun i hi => hr ▸ hbeyond i hi, hcover, ?_, ?_⟩
  · rwa [hn, htable] at hlast
  · rw [heq', heq]

end Reset

end Onebox
