import Onebox.Ensures
import Onebox.VapTable

/-! The rate control of the driver: the node of a station with its rates and its sampling table, how it is
reset, how the statistics of a round go into it, and how it chooses the four stages of a frame. The log has
the exact values of the 32-bit computations and the accesses to the two tables. -/

namespace Onebox

open Calls

inductive MinstrelEvent
  | uint32 (v : Int)
  | int32 (v : Int)
  | rate (i : Nat)
  | sample (i : Nat)
  deriving DecidableEq, Repr

abbrev Minstrel : Type → Type := Calls MinstrelEvent

/-- The value of a computation in `uint32`. -/
def u32 (v : Int) : Minstrel Nat := ⟨[.uint32 v], some (v % 2 ^ 32).toNat⟩

/-- The bits of a computation in `int32`. -/
def i32 (v : Int) : Minstrel Nat := ⟨[.int32 v], some (v % 2 ^ 32).toNat⟩

structure MinstrelPriv where
  cwMin : Nat
  cwMax : Nat
  maxRetry : Nat
  ewmaLevel : Nat
  segmentSize : Nat
  lookaroundRateMrr : Nat
  deriving DecidableEq, Repr

def minstrelAlloc : MinstrelPriv :=
  { cwMin := 15, cwMax := 1023, maxRetry := 3, ewmaLevel := 75, segmentSize := 6000, lookaroundRateMrr := 10 }

structure MinstrelRate where
  bitrate : Nat
  rix : Nat
  hix : Nat
  perfectTxTime : Nat
  ackTime : Nat
  sampleLimit : Int
  retryCount : Nat
  retryCountCts : Nat
  retryCountRtscts : Nat
  adjustedRetryCount : Nat
  success : Nat
  attempts : Nat
  lastAttempts : Nat
  lastSuccess : Nat
  curProb : Nat
  probability : Nat
  curTp : Nat
  succHist : Nat
  attHist : Nat
  deriving DecidableEq, Repr

def MinstrelRate.zero : MinstrelRate := ⟨0, 0, 0, 0, 0, 0, 0, 0, 0, 0, 0, 0, 0, 0, 0, 0, 0, 0, 0⟩

/-- The tables `r` and `sample_table` are given with the memory behind them. -/
structure MinstrelNode where
  spAckDur : Nat
  maxTpRate : Nat
  maxTpRate2 : Nat
  maxProbRate : Nat
  packetCount : Nat
  sampleCount : Nat
  sampleDeferred : Int
  sampleIdx : Nat
  sampleColumn : Nat
  nRates : Nat
  r : Nat → MinstrelRate
  prevSample : Bool
  sampleTable : Nat → UInt8

def maxRates : Nat := 12 + 8

def sampleColumns : Nat := 10

/-- A node whose tables are cleared, in memory that held something else. -/
def minstrelAllocSta (r : Nat → MinstrelRate) (heap : Nat → UInt8) : MinstrelNode :=
  { spAckDur := 0, maxTpRate := 0, maxTpRate2 := 0, maxProbRate := 0, packetCount := 0, sampleCount := 0
    sampleDeferred := 0, sampleIdx := 0, sampleColumn := 0, nRates := 0
    r := fun i => if i < maxRates then .zero else r i
    prevSample := false
    sampleTable := fun i => if i < sampleColumns * maxRates then 0 else heap i }

namespace MinstrelNode

variable (sn : MinstrelNode)

def rateAt (i : Nat) : Minstrel MinstrelRate := ⟨[.rate i], some (sn.r i)⟩

def setRate (i : Nat) (mr : MinstrelRate) : Minstrel MinstrelNode :=
  ⟨[.rate i], some { sn with r := Function.update sn.r i mr }⟩

end MinstrelNode

/-! `init_sample_table`. -/

/-- `SAMPLE_TBL`. -/
def sampleTbl (idx col : Nat) : Nat := idx * sampleColumns + col

/-- The search for a free row, which ends in none if there is none. -/
def probeFrom (table : Nat → UInt8) (nSrates col : Nat) : Nat → Nat → Minstrel Nat
  | 0, _ => stuck
  | fuel + 1, newIdx => do
    emit (.sample (sampleTbl newIdx col))
    if table (sampleTbl newIdx col) ≠ 0 then probeFrom table nSrates col fuel ((newIdx + 1) % nSrates)
    else pure newIdx

/-- The draw of eight random bytes, of which one gives the first row, and the store. -/
def insertSample (rnd : Nat → UInt8) (nSrates col i : Nat) (table : Nat → UInt8) :
    Minstrel (Nat → UInt8) := do
  let draw := 8 * (col * nSrates + i)
  let newIdx ← probeFrom table nSrates col nSrates ((i + (rnd (draw + i % 8)).toNat) % nSrates)
  emit (.sample (sampleTbl newIdx col))
  pure (Function.update table (sampleTbl newIdx col) (UInt8.ofNat (i + 1)))

def clearSamples (n : Nat) (table : Nat → UInt8) : Minstrel (Nat → UInt8) :=
  forUpTo (fun i table => do
    emit (.sample i)
    pure (Function.update table i 0)) n table

def initSampleTable (rnd : Nat → UInt8) (mi : MinstrelNode) : Minstrel MinstrelNode := do
  let nSrates := mi.nRates - 1
  let table ← clearSamples (sampleColumns * mi.nRates) mi.sampleTable
  let table ← forUpTo (fun col => forUpTo (insertSample rnd nSrates col) nSrates) sampleColumns table
  pure { mi with sampleColumn := 0, sampleIdx := 0, sampleTable := table }

/-- `n_rates - 2` is compared as a `uint32`. -/
def minstrelGetNextSample (mi : MinstrelNode) : Minstrel (Nat × MinstrelNode) := do
  let cell := sampleTbl mi.sampleIdx mi.sampleColumn
  emit (.sample cell)
  let sampleNdx := (mi.sampleTable cell).toNat
  let sampleIdx := (mi.sampleIdx + 1) % 2 ^ 32
  if (((mi.nRates : Int) - 2) % 2 ^ 32).toNat < sampleIdx then
    let sampleColumn := if sampleColumns ≤ mi.sampleColumn + 1 then 0 else mi.sampleColumn + 1
    pure (sampleNdx, { mi with sampleIdx := 0, sampleColumn })
  else pure (sampleNdx, { mi with sampleIdx })

/-! `ar_rate_ctl_reset`. -/

def divRoundUp (n d : Nat) : Minstrel Nat := do
  let sum ← u32 (n + d)
  let sum ← u32 (sum - 1)
  pure (sum / d)

def ieee80211FrameDuration (len rate : Nat) (erp shortPreamble : Bool) : Minstrel Nat := do
  if rate = 0 then pure 10
  else if erp then
    let bits ← u32 ((16 + 8 * (len + 4) + 6) * 10)
    let perSymbol ← i32 (4 * rate)
    let symbols ← divRoundUp bits perSymbol
    let symbolTime ← u32 (4 * symbols)
    i32 (16 + 16 + 4 + symbolTime)
  else
    let bits ← u32 (8 * (len + 4) * 10)
    let time ← divRoundUp bits rate
    i32 (10 + (if shortPreamble then 72 + 24 else 144 + 48) + time)

/-- The rate indices of the hardware, in the order of the bit rates. -/
def hwRates : List Nat :=
  [2, 4, 11, 22, 12, 18, 24, 36, 48, 72, 96, 108, 13, 26, 39, 52, 78, 104, 117, 130]

def hixOf (band24GHz : Bool) (bitrate : Nat) : Nat :=
  if bitrate ∈ hwRates then hwRates.idxOf bitrate else if band24GHz then 0 else 4

/-- The column `ht20_rate_800ns` of `ieee80211_htrates`. -/
def ht20Rates : List Nat :=
  [13, 26, 39, 52, 78, 104, 117, 130, 26, 52, 78, 104, 156, 208, 234, 260, 39, 78, 117, 156, 234, 312, 351,
    390, 52, 104, 156, 208, 312, 416, 468, 520, 0, 78, 104, 130, 117, 156, 195, 104, 130, 130, 156, 182, 182,
    208, 156, 195, 195, 234, 273, 273, 312, 130, 156, 182, 156, 182, 208, 234, 208, 234, 260, 260, 286, 195,
    234, 273, 234, 273, 312, 351, 312, 351, 390, 390, 429]

/-- `ni_rates` and `ni_htrates` of a node, and what stands behind `ieee80211_htrates`. -/
structure NodeRates where
  legacyCount : Nat
  legacy : Nat → UInt8
  htCount : Nat
  ht : Nat → UInt8
  beyond : Nat → UInt16
  band24GHz : Bool
  -- the sets have room for `IEEE80211_RATE_MAXSIZE` and `IEEE80211_HTRATE_MAXSIZE` rates
  legacyCount_le : legacyCount ≤ 15
  htCount_le : htCount ≤ 77

def NodeRates.count (rates : NodeRates) : Nat := rates.legacyCount + rates.htCount

def NodeRates.bitrate (rates : NodeRates) (i : Nat) : Nat :=
  if i < rates.legacyCount then (rates.legacy i &&& 0x7f).toNat
  else
    let index := (rates.ht (i - rates.legacyCount)).toNat
    if index < ht20Rates.length then ht20Rates.getD index 0 else (rates.beyond index).toNat

/-- The times summed up in the loop for the retry counts. -/
structure RetryTimes where
  txTime : Nat
  txTimeCts : Nat
  txTimeRtscts : Nat
  cw : Nat

def retryLoop (mp : MinstrelPriv) (spAckDur : Nat) : Nat → RetryTimes → MinstrelRate → Minstrel MinstrelRate
  | 0, _, _ => stuck
  | fuel + 1, t, mr => do
    let single ← u32 (mr.ackTime + mr.perfectTxTime)
    let single ← u32 (single + (9 + min t.cw mp.cwMax))
    let cw ← u32 ((t.cw + 1) * 2)
    let txTime ← u32 (t.txTime + single)
    let txTimeCts ← u32 (t.txTimeCts + (single + spAckDur))
    let txTimeRtscts ← u32 (t.txTimeRtscts + (single + 2 * spAckDur))
    let counted := fun time count => if time < mp.segmentSize ∧ count < mp.maxRetry then count + 1 else count
    let mr :=
      { mr with
        retryCountCts := counted txTimeCts mr.retryCountCts
        retryCountRtscts := counted txTimeRtscts mr.retryCountRtscts }
    if txTime < mp.segmentSize then
      let mr := { mr with retryCount := mr.retryCount + 1 }
      if mr.retryCount < mp.maxRetry then retryLoop mp spAckDur fuel ⟨txTime, txTimeCts, txTimeRtscts, cw⟩ mr
      else pure mr
    else pure mr

/-- The entry of the rate `i`, which `calc_rate_durations` and the loop for the retry counts fill. -/
def resetRate (mp : MinstrelPriv) (rates : NodeRates) (spAckDur i : Nat) : Minstrel MinstrelRate := do
  let bitrate := rates.bitrate i
  let rate ← i32 (bitrate * 5)
  let perfectTxTime ← ieee80211FrameDuration 1200 rate (3 < i) true
  let ackTime ← ieee80211FrameDuration 10 rate (3 < i) true
  let mr :=
    { MinstrelRate.zero with
      rix := i, bitrate, hix := hixOf rates.band24GHz bitrate, perfectTxTime, ackTime, sampleLimit := -1
      retryCount := 1, retryCountCts := 1, retryCountRtscts := 1 }
  let txTime ← u32 (perfectTxTime + spAckDur)
  let mr ← retryLoop mp spAckDur (mp.maxRetry + 1) ⟨txTime, 0, 0, mp.cwMin⟩ mr
  pure { mr with adjustedRetryCount := mr.retryCount }

def resetRateAt (mp : MinstrelPriv) (rates : NodeRates) (spAckDur i : Nat) (sn : MinstrelNode) :
    Minstrel MinstrelNode := do
  emit (.rate i)
  let mr ← resetRate mp rates spAckDur i
  sn.setRate i mr

def arRateCtlReset (mp : MinstrelPriv) (rates : NodeRates) (rnd : Nat → UInt8) (sn : MinstrelNode) :
    Minstrel MinstrelNode := do
  let sn := { sn with nRates := rates.count }
  if sn.nRates = 0 then pure sn
  else
    let rate ← i32 ((rates.legacy 0).toNat * 5)
    let spAckDur ← ieee80211FrameDuration 10 rate false true
    let sn ← forUpTo (resetRateAt mp rates spAckDur) sn.nRates { sn with spAckDur }
    initSampleTable rnd sn

/-! `minstrel_update_stats`. -/

structure RateStats where
  totalAttempts : UInt16
  totalSuccess : UInt16
  deriving DecidableEq, Repr

def RateStats.attempts (st : RateStats) : Nat := st.totalAttempts.toNat

def RateStats.success (st : RateStats) : Nat := st.totalSuccess.toNat

/-- A call of `minstrel_update_stats`: what its checks look at, and the counters of the station. -/
structure StatsRound where
  opmode : VapMode
  associd : Nat
  ownAddress : Bool
  stats : Nat → RateStats

def StatsRound.passes (c : StatsRound) : Bool :=
  !(((c.opmode = .hostap || c.opmode = .sta) && c.associd = 0) || c.ownAddress)

def MinstrelRate.usecs (mr : MinstrelRate) : Nat := if mr.perfectTxTime = 0 then 1000000 else mr.perfectTxTime

/-- The part that needs attempts. -/
def updateProbability (mp : MinstrelPriv) (mr : MinstrelRate) (st : RateStats) : Minstrel MinstrelRate := do
  if st.attempts = 0 then pure mr
  else
    let scaled ← u32 (st.success * 18000)
    let p := scaled / st.attempts
    let succHist ← u32 (mr.succHist + st.success)
    let attHist ← u32 (mr.attHist + st.attempts)
    let level ← u32 (100 - mp.ewmaLevel)
    let new ← u32 (p * level)
    let old ← u32 (mr.probability * mp.ewmaLevel)
    let sum ← u32 (new + old)
    let curTp ← u32 ((sum / 100 : Nat) * (1000000 / mr.usecs : Nat))
    pure { mr with succHist, attHist, curProb := p, probability := sum / 100, curTp }

/-- How often the rate is to be retried and sampled below a chance of 10% and above one of 95%. -/
def MinstrelRate.adjusted (mr : MinstrelRate) : MinstrelRate :=
  let rare := 17100 < mr.probability ∨ mr.probability < 1800
  let count := if rare then min (mr.retryCount / 2) 2 else mr.retryCount
  { mr with adjustedRetryCount := if count = 0 then 2 else count, sampleLimit := if rare then 4 else -1 }

def MinstrelRate.cleared (mr : MinstrelRate) (st : RateStats) : MinstrelRate :=
  { mr with lastSuccess := st.success, lastAttempts := st.attempts, success := 0, attempts := 0 }

def updateRate (mp : MinstrelPriv) (mr : MinstrelRate) (st : RateStats) : Minstrel MinstrelRate := do
  let mr ← updateProbability mp mr st
  pure (mr.cleared st).adjusted

/-- The pass over the rate `i`, which takes the counters of its hardware index and clears them. -/
def updateRateAt (mp : MinstrelPriv) (i : Nat) (s : MinstrelNode × (Nat → RateStats)) :
    Minstrel (MinstrelNode × (Nat → RateStats)) := do
  let mr ← s.1.rateAt i
  let mr' ← updateRate mp mr (s.2 mr.hix)
  let sn ← s.1.setRate i mr'
  pure (sn, Function.update s.2 mr.hix ⟨0, 0⟩)

/-- The best value so far, and its index. -/
structure Best where
  index : Nat
  value : Nat
  deriving DecidableEq, Repr

def Best.offer (best : Best) (i v : Nat) : Best := if best.value < v then ⟨i, v⟩ else best

def rankAt (sn : MinstrelNode) (i : Nat) (best : Best × Best) : Minstrel (Best × Best) := do
  let mr ← sn.rateAt i
  pure (best.1.offer i mr.curTp, best.2.offer i mr.probability)

def rankSecondAt (sn : MinstrelNode) (indexMaxTp i : Nat) (best : Best) : Minstrel Best := do
  if i = indexMaxTp then pure best
  else
    let mr ← sn.rateAt i
    pure (best.offer i mr.curTp)

def minstrelUpdateStats (mp : MinstrelPriv) (c : StatsRound) (sn : MinstrelNode) : Minstrel MinstrelNode := do
  if c.passes then
    let (sn, _) ← forUpTo (updateRateAt mp) sn.nRates (sn, c.stats)
    let (tp, prob) ← forUpTo (rankAt sn) sn.nRates (⟨0, 0⟩, ⟨0, 0⟩)
    let tp2 ← forUpTo (rankSecondAt sn tp.index) sn.nRates ⟨0, 0⟩
    pure { sn with maxTpRate := tp.index, maxTpRate2 := tp2.index, maxProbRate := prob.index }
  else pure sn

/-! `minstrel_get_rate`. -/

structure TxRate where
  idx : Nat
  count : Nat
  doNotAggregate : Bool
  deriving DecidableEq, Repr

/-- The stages of a frame, and which of them samples. -/
structure RateChain where
  rates : List TxRate
  sampling : Option Nat
  deriving DecidableEq, Repr

def MinstrelNode.countPacket (sn : MinstrelNode) : MinstrelNode :=
  { sn with packetCount := (sn.packetCount + 1) % 2 ^ 32 }

/-- `delta`, a `uint32` taken as an `int32`. -/
def MinstrelNode.delta (sn : MinstrelNode) (mp : MinstrelPriv) : Int :=
  let wanted : Nat := sn.packetCount * mp.lookaroundRateMrr % 2 ^ 32 / 100
  ((wanted : Int) - (sn.sampleCount + sn.sampleDeferred.tdiv 2)).bmod (2 ^ 32)

/-- The counters before a rate is sampled. -/
def MinstrelNode.limitBacklog (sn : MinstrelNode) (delta : Nat) : MinstrelNode :=
  if 10000 ≤ sn.packetCount then { sn with sampleDeferred := 0, sampleCount := 0, packetCount := 0 }
  else if sn.nRates * 2 < delta then
    { sn with sampleCount := (sn.sampleCount + (delta - sn.nRates * 2)) % 2 ^ 32 }
  else sn

/-- The rate of the first stage after sampling: the node, the index, whether the frame samples, and the rate
that is sampled in the second stage because it is slower. -/
structure Sampled where
  sn : MinstrelNode
  ndx : Nat
  sample : Bool
  slower : Option Nat

def MinstrelNode.spendSample (sn : MinstrelNode) (i : Nat) (msr : MinstrelRate) : Minstrel MinstrelNode :=
  if 0 < msr.sampleLimit then sn.setRate i { msr with sampleLimit := msr.sampleLimit - 1 } else pure sn

def sampleRate (delta : Nat) (sn : MinstrelNode) : Minstrel Sampled := do
  let ndx := sn.maxTpRate
  let (sampleNdx, sn) ← minstrelGetNextSample (sn.limitBacklog delta)
  let msr ← sn.rateAt sampleNdx
  let mr ← sn.rateAt ndx
  if mr.perfectTxTime ≤ msr.perfectTxTime then
    pure { sn := { sn with sampleDeferred := (sn.sampleDeferred + 1).bmod (2 ^ 32) }, ndx, sample := true
           slower := some sampleNdx }
  else if msr.sampleLimit ≠ 0 then
    let sn ← { sn with sampleCount := (sn.sampleCount + 1) % 2 ^ 32 }.spendSample sampleNdx msr
    pure { sn, ndx := sampleNdx, sample := true, slower := none }
  else pure { sn, ndx, sample := false, slower := none }

def firstRate (mp : MinstrelPriv) (sn : MinstrelNode) : Minstrel Sampled :=
  if 0 < sn.delta mp then sampleRate (sn.delta mp).toNat sn
  else pure { sn, ndx := sn.maxTpRate, sample := false, slower := none }

/-- A later stage is given by a hardware index, and its count is read with that index. -/
def mrrStage (sn : MinstrelNode) (first : Bool) (hix : Nat) : Minstrel TxRate := do
  let mr ← sn.rateAt hix
  pure ⟨hix, mr.adjustedRetryCount % 2 ^ 8, first || decide (hix < 12)⟩

/-- The four stages; `flagged` is the flag that the first one has before. -/
def retryChain (flagged : Bool) (s : Sampled) : Minstrel RateChain := do
  let mr ← s.sn.rateAt s.ndx
  let first := flagged || decide (mr.hix < 12)
  let second ← s.sn.rateAt (if s.sample then s.slower.getD s.sn.maxTpRate else s.sn.maxTpRate2)
  let third ← s.sn.rateAt s.sn.maxProbRate
  let last ← s.sn.rateAt 0
  let ar1 ← mrrStage s.sn first second.hix
  let ar2 ← mrrStage s.sn first third.hix
  let ar3 ← mrrStage s.sn first last.hix
  let ar := [⟨mr.hix, mr.adjustedRetryCount % 2 ^ 8, first⟩, ar1, ar2, ar3]
  if s.sample then
    let stage := if s.slower.isSome then 1 else 0
    pure { rates := ar.modify stage fun a => { a with count := 1 }, sampling := some stage }
  else pure { rates := ar, sampling := none }

def minstrelGetRate (mp : MinstrelPriv) (flagged : Bool) (sn : MinstrelNode) :
    Minstrel (MinstrelNode × RateChain) := do
  let s ← firstRate mp sn.countPacket
  let chain ← retryChain flagged s
  pure ({ s.sn with prevSample := s.sample }, chain)

/-- The calls that change a node after its reset. -/
inductive MinstrelCall
  | updateStats (c : StatsRound)
  | getRate (flagged : Bool)

def MinstrelCall.run (mp : MinstrelPriv) : MinstrelCall → MinstrelNode → Minstrel MinstrelNode
  | .updateStats c, sn => minstrelUpdateStats mp c sn
  | .getRate flagged, sn => do
    let (sn, _) ← minstrelGetRate mp flagged sn
    pure sn

end Onebox
