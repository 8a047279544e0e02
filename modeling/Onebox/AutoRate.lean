import Onebox.ByteMem

/-! The table of rates of `onebox_send_auto_rate_request`: the rates of a node from the highest to the
lowest, then those for aggregates. The log has the accesses to the arrays. -/

namespace Onebox

open ByteMem

def stdRates : List Nat := [2, 4, 11, 12, 18, 22, 24, 36, 48, 72, 96, 108]

def rpsRates : List Nat := [0x0, 0x2, 0x4, 0x8b, 0x8f, 0x6, 0x8a, 0x8e, 0x89, 0x8d, 0x88, 0x8c]

def mcs : List Nat := [13, 26, 39, 52, 78, 104, 117, 130]

def mcsRates : List Nat := [0x100, 0x101, 0x102, 0x103, 0x104, 0x105, 0x106, 0x107]

/-- The device's code of a standard rate. -/
def rpsRate (rate : Nat) : Option Nat := (stdRates.zip rpsRates).lookup rate

/-- `ni_rates` with the memory around `rs_rates`, at whose index -1 there is `rs_nrates`. -/
structure RateSet where
  nrates : Nat
  mem : Int → Nat

def RateSet.get (rs : RateSet) (i : Int) : Nat := if i = -1 then rs.nrates else rs.mem i

/-- The 8th bit announces a basic rate. -/
def RateSet.masked (rs : RateSet) : RateSet :=
  { rs with mem := fun i => if 0 ≤ i ∧ i < rs.nrates then rs.mem i &&& 0x7f else rs.mem i }

structure HtRateSet where
  nrates : Nat
  rates : Nat → Nat

def HtRateSet.bandCheck (htrs : HtRateSet) : Nat :=
  if htrs.nrates ≠ 0 ∧ htrs.rates 0 &&& 0x80 ≠ 0 then 0x80 else 0

/-- Bit `j` of `ht_rate_bitmap`. -/
def HtRateSet.bitmap (htrs : HtRateSet) (j : Nat) : Bool :=
  (List.range htrs.nrates).any fun mm => htrs.rates mm = j ||| htrs.bandCheck

structure AutoRateNode where
  rs : RateSet
  htrs : HtRateSet
  htcapShortgi20 : Bool
  htcapShortgi40 : Bool
  curchanHt20 : Bool
  curchanHt40 : Bool
  band5GHz : Bool

/-- Reads of `rs_rates` and of `mcs`, and writes of `supported_rates`. -/
inductive RateEvent
  | readRs (i : Int)
  | readMcs (j : Nat)
  | put (k v : Nat)
  deriving DecidableEq, Repr

def legacyTail (rs : RateSet) : Nat → Int → Nat → List RateEvent
  | 0, _, _ => []
  | n + 1, ii, kk =>
    .readRs ii ::
      match rpsRate (rs.get ii) with
      | some v => .put kk v :: legacyTail rs n (ii - 1) (kk + 1)
      | none => legacyTail rs n ii (kk + 1)

/-- The loop that merges the two sets; `n` counts what `kk` is below its end. -/
def mergeLoop (rs : RateSet) : Nat → Int → Nat → Nat → List RateEvent
  | 0, _, _, _ => []
  | n + 1, ii, jj, kk =>
    .readRs ii :: .readMcs jj ::
      if rs.get ii < mcs.getD jj 0 then
        .put kk (mcsRates.getD jj 0) ::
          if jj = 0 then legacyTail rs n ii (kk + 1) else mergeLoop rs n ii (jj - 1) (kk + 1)
      else
        match rpsRate (rs.get ii) with
        | some v => .put kk v :: mergeLoop rs n (ii - 1) jj (kk + 1)
        | none => mergeLoop rs n (ii - 1) jj (kk + 1)

/-- Writes one after the other. -/
def putFrom : Nat → List Nat → List RateEvent
  | _, [] => []
  | kk, v :: vs => .put kk v :: putFrom (kk + 1) vs

def legacyRates (rs : RateSet) : List Nat → Nat → List RateEvent
  | [], _ => []
  | ii :: rest, kk =>
    .readRs ii ::
      match rpsRate (rs.get ii) with
      | some v => .put kk v :: legacyRates rs rest (kk + 1)
      | none => legacyRates rs rest kk

namespace AutoRateNode

variable (nd : AutoRateNode)

def total : Nat := nd.rs.nrates + nd.htrs.nrates

def numSupportedRates : Nat := nd.total * 2

def minRate : Nat :=
  if nd.rs.nrates = 8 then 0x8b
  else if nd.rs.nrates = 0 then 0x100
  else if nd.band5GHz then 0x8b
  else 0x0

/-- The bits of the bitmap, from the highest on. -/
def mapped : List Nat := (List.range 8).reverse.filter nd.htrs.bitmap

def shortGi : Bool := (nd.htcapShortgi20 && nd.curchanHt20) || (nd.htcapShortgi40 && nd.curchanHt40)

/-- `remaining`, a `uint8`, after the rates for aggregates. -/
def remaining : Nat := (BitVec.ofNat 8 nd.total - BitVec.ofNat 8 (2 * nd.mapped.length)).toNat

def minMcsRate : Nat := (nd.mapped.getLast?.map fun ii => mcsRates.getD ii 0).getD 0

def defaultRate : Nat :=
  if 0x104 < nd.minMcsRate then if 4 < nd.rs.nrates then 0x8d else 0x0 else nd.minMcsRate

/-- Each rate of the bitmap once with a short guard interval, if there is one, and once without. -/
def aggregationRates : List Nat :=
  nd.mapped.flatMap fun ii =>
    [if nd.shortGi then mcsRates.getD ii 0 ||| 1 <<< 9 else mcsRates.getD ii 0, mcsRates.getD ii 0]

def bgnMode : List RateEvent :=
  mergeLoop nd.rs.masked nd.total (nd.rs.nrates - 1) (nd.htrs.nrates - 1) 0 ++
    putFrom nd.total
      (nd.aggregationRates ++ List.replicate (nd.remaining - 2) nd.defaultRate ++ [nd.minRate, nd.minRate])

def nMode : List RateEvent :=
  let down := (List.range nd.htrs.nrates).reverse
  let aggregation := down.flatMap fun ii =>
    if nd.htcapShortgi20 || nd.htcapShortgi40 then [mcsRates.getD ii 0 ||| 1 <<< 9, mcsRates.getD ii 0]
    else [mcsRates.getD ii 0]
  let remaining := (BitVec.ofNat 8 nd.total - BitVec.ofNat 8 down.length).toNat
  putFrom 0
    (down.map (fun ii => mcsRates.getD ii 0) ++ aggregation ++ List.replicate remaining (mcsRates.getD 0 0) ++
      [nd.minRate])

def bgMode : List RateEvent := legacyRates nd.rs.masked (List.range 13).reverse 0

/-- The log of `onebox_send_auto_rate_request`. -/
def log : List RateEvent :=
  (List.range nd.rs.nrates).map (fun (ii : Nat) => .readRs ii) ++
    if nd.htrs.nrates ≠ 0 ∧ nd.rs.nrates ≠ 0 then nd.bgnMode
    else if nd.htrs.nrates ≠ 0 then nd.nMode
    else nd.bgMode

/-- `rates` are the legacy rates of the node, and its HT rates are those from MCS0 on. -/
structure Standard (rates : List Nat) : Prop where
  nrates : nd.rs.nrates = rates.length
  entries : ∀ i < rates.length, nd.rs.mem i &&& 0x7f = rates.getD i 0
  ascending : rates.Pairwise (· < ·)
  std : ∀ r ∈ rates, r ∈ stdRates
  htNrates : nd.htrs.nrates ≤ 8
  htEntries : ∀ i < nd.htrs.nrates, nd.htrs.rates i = i ∨ nd.htrs.rates i = i ||| 0x80

end AutoRateNode

def legacyCode (rate : Nat) : Nat × Nat := (rate, (rpsRate rate).getD 0)

def htCode (j : Nat) : Nat × Nat := (mcs.getD j 0, mcsRates.getD j 0)

/-- What `supported_rates`, which is cleared before, holds in the end. -/
def supportedRates (log : List RateEvent) : Nat → Nat :=
  log.foldl (fun a e => match e with | .put k v => Function.update a k v | _ => a) fun _ => 0

def RateEvent.ReadsValid (n : Nat) : RateEvent → Prop
  | .readRs i => 0 ≤ i ∧ i < n
  | .readMcs j => j < mcs.length
  | .put _ _ => True

namespace AutoRateNode

variable (nd : AutoRateNode) (rates : List Nat)

/-- Valid entries only are read, and the table begins with the codes of all rates, the higher ones first. -/
def Ordered : Prop :=
  (∀ e ∈ nd.log, e.ReadsValid nd.rs.nrates) ∧
    ∃ l : List (Nat × Nat), l.Perm (rates.map legacyCode ++ (List.range nd.htrs.nrates).map htCode) ∧
      l.Pairwise (fun a b => b.1 ≤ a.1) ∧ window (supportedRates nd.log) 0 nd.total = l.map Prod.snd

def InBounds : Prop := ∀ k v, .put k v ∈ nd.log → k < min 40 nd.numSupportedRates

/-- The standard rates behind the legacy rates in the part of `rs_rates` that is searched without HT rates. -/
def stale : Nat :=
  (List.range' nd.rs.nrates (13 - nd.rs.nrates)).countP fun (i : Nat) => nd.rs.mem i ∈ stdRates

/-- The HT rates whose 8th bit is that of the first one. -/
def alike : Nat :=
  (List.range nd.htrs.nrates).countP fun i => nd.htrs.rates i &&& 0x80 = nd.htrs.rates 0 &&& 0x80

end AutoRateNode

/-! The writes go on from one index to the next. -/

section Writes

def puts (log : List RateEvent) : List (Nat × Nat) :=
  log.filterMap fun e => match e with | .put k v => some (v, k) | _ => none

def Writes (log : List RateEvent) (kk : Nat) (vs : List Nat) : Prop := puts log = vs.zipIdx kk

variable {log log' : List RateEvent} {kk n : Nat} {vs vs' : List Nat}

theorem writes_nil : Writes [] kk [] := rfl

theorem Writes.put (h : Writes log (kk + 1) vs) (v : Nat) : Writes (.put kk v :: log) kk (v :: vs) :=
  congrArg ((v, kk) :: ·) h

theorem Writes.readRs (h : Writes log kk vs) (i : Int) : Writes (.readRs i :: log) kk vs := h

theorem Writes.readMcs (h : Writes log kk vs) (j : Nat) : Writes (.readMcs j :: log) kk vs := h

theorem Writes.append (h : Writes log kk vs) (h' : Writes log' n vs') (hn : n = kk + vs.length) :
    Writes (log ++ log') kk (vs ++ vs') := by
  rw [Writes, puts, List.filterMap_append, List.zipIdx_append, ← hn]
  exact congrArg₂ (· ++ ·) h h'

theorem writes_putFrom (kk : Nat) (vs : List Nat) : Writes (putFrom kk vs) kk vs := by
  induction vs generalizing kk with
  | nil => exact writes_nil
  | cons v vs ih => exact (ih (kk + 1)).put v

theorem Writes.lt_iff (h : Writes log 0 vs) : (∀ k v, .put k v ∈ log → k < n) ↔ vs.length ≤ n := by
  have hmem : ∀ k v, .put k v ∈ log ↔ vs[k]? = some v := by
    intro k v
    rw [← List.mem_zipIdx_iff_getElem? (x := (v, k)), ← h, puts, List.mem_filterMap]
    constructor
    · intro hput
      exact ⟨_, hput, rfl⟩
    · rintro ⟨e, he, heq⟩
      cases e with
      | readRs i => cases heq
      | readMcs j => cases heq
      | put k' v' =>
        cases heq
        exact he
  simp only [hmem]
  constructor
  · intro hall
    by_contra hlt
    have hget : vs[n]? = some vs[n] := List.getElem?_eq_getElem (by omega)
    exact absurd (hall n _ hget) (Nat.lt_irrefl n)
  · intro hle k v hget
    have hk := (List.getElem?_eq_some_iff.mp hget).1
    omega

theorem foldl_update_zipIdx (vs : List Nat) (kk : Nat) (a : Nat → Nat) :
    (vs.zipIdx kk).foldl (fun a p => Function.update a p.2 p.1) a = put a kk vs := by
  induction vs generalizing kk a with
  | nil =>
    funext i
    exact (put_of_not_mem (l := []) (Nat.lt_or_ge i kk)).symm
  | cons v vs ih =>
    rw [List.zipIdx_cons, List.foldl_cons, ih, ← List.singleton_append, ← put_append]
    congr 1
    funext i
    rw [Function.update_apply]
    split_ifs with hi
    · rw [hi]
      exact (put_of_lt (i := 0) (l := [v]) (d := 0) Nat.one_pos).symm
    · exact (put_of_not_mem (l := [v]) (by simp only [List.length_singleton]; omega)).symm

theorem Writes.supportedRates (h : Writes log 0 vs) : supportedRates log = ByteMem.put (fun _ => 0) 0 vs := by
  rw [← foldl_update_zipIdx, ← h, puts, List.foldl_filterMap, Onebox.supportedRates]
  congr 1
  funext a e
  cases e <;> rfl

theorem Writes.window (h : Writes log 0 (vs ++ vs')) :
    ByteMem.window (Onebox.supportedRates log) 0 vs.length = vs := by
  have hlen : vs.length ≤ (vs ++ vs').length := by
    rw [List.length_append]
    exact Nat.le_add_right _ _
  have hentries : ∀ i < vs.length, Onebox.supportedRates log (0 + i) = (vs ++ vs').getD i 0 := by
    intro i hi
    rw [h.supportedRates]
    exact put_of_lt (hi.trans_le hlen)
  rw [window_eq_take hlen hentries, List.take_left]

theorem Writes.mask (h : Writes log kk vs) (l : List Nat) :
    Writes (l.map (fun (ii : Nat) => .readRs ii) ++ log) kk vs := by
  induction l with
  | nil => exact h
  | cons ii l ih => exact ih.readRs ii

end Writes

/-! The loop merges the two sets. -/

section Merge

variable {rs : RateSet} {rates : List Nat} {k jj kk : Nat}

theorem rpsRate_std : ∀ r ∈ stdRates, rpsRate r = some ((rpsRate r).getD 0) := by decide

theorem isSome_rpsRate (r : Nat) : (rpsRate r).isSome = decide (r ∈ stdRates) := by
  by_cases hr : r ∈ stdRates
  · rw [rpsRate_std r hr, decide_eq_true hr]
    rfl
  · have hkeys : ∀ p ∈ stdRates.zip rpsRates, p.1 ∈ stdRates := by decide
    have hnone : rpsRate r = none := by
      rw [rpsRate, List.lookup_eq_none_iff]
      intro p hp
      have hne : r ≠ p.1 := fun heq => hr (heq ▸ hkeys p hp)
      exact bne_iff_ne.mpr hne
    rw [hnone, decide_eq_false hr]
    rfl

theorem mcs_ge : ∀ jj < 8, 13 ≤ mcs.getD jj 0 := by decide

/-- What the loops know of `rs_rates`. -/
structure RateSet.Holds (rs : RateSet) (rates : List Nat) : Prop where
  count : rs.get (-1) < 13
  entries : ∀ i < rates.length, rs.get i = rates.getD i 0
  ascending : rates.Pairwise (· < ·)
  std : ∀ r ∈ rates, r ∈ stdRates

/-- The first `k` legacy rates from the highest on, and the HT rates below MCS `j`. -/
def legacyDown (rates : List Nat) (k : Nat) : List (Nat × Nat) := (rates.take k).reverse.map legacyCode

def htDown (j : Nat) : List (Nat × Nat) := (List.range j).reverse.map htCode

def notAbove (a b : Nat × Nat) : Bool := b.1 ≤ a.1

def merged (rates : List Nat) (k j : Nat) : List (Nat × Nat) := (legacyDown rates k).merge (htDown j) notAbove

theorem legacyDown_succ (hk : k < rates.length) :
    legacyDown rates (k + 1) = legacyCode (rates.getD k 0) :: legacyDown rates k := by
  rw [legacyDown, ← List.take_append_getElem hk, List.reverse_append, List.getD_eq_getElem _ _ hk]
  rfl

theorem htDown_succ (j : Nat) : htDown (j + 1) = htCode j :: htDown j := by
  rw [htDown, List.range_succ, List.reverse_append]
  rfl

theorem pred_cast (k : Nat) : ((k + 1 : Nat) : Int) - 1 = k := by omega

theorem merged_ht (h : rs.Holds rates) (hk : k ≤ rates.length) (hlt : rs.get (k - 1) < mcs.getD jj 0) :
    merged rates k (jj + 1) = htCode jj :: merged rates k jj := by
  cases k with
  | zero =>
    have hnone : legacyDown rates 0 = [] := rfl
    rw [merged, merged, hnone, htDown_succ, List.nil_merge, List.nil_merge]
  | succ k =>
    have hnot : ¬ notAbove (legacyCode (rates.getD k 0)) (htCode jj) := by
      rw [pred_cast] at hlt
      rw [notAbove, decide_eq_true_eq, ← h.entries k hk]
      exact Nat.not_le.mpr hlt
    rw [merged, merged, legacyDown_succ hk, htDown_succ, List.cons_merge_cons, if_neg hnot]

theorem merged_legacy (h : rs.Holds rates) (hk : k < rates.length) (hge : ¬ rs.get k < mcs.getD jj 0) :
    merged rates (k + 1) (jj + 1) = legacyCode (rates.getD k 0) :: merged rates k (jj + 1) := by
  have habove : notAbove (legacyCode (rates.getD k 0)) (htCode jj) := by
    rw [notAbove, decide_eq_true_eq, ← h.entries k hk]
    exact Nat.le_of_not_lt hge
  rw [merged, legacyDown_succ hk, htDown_succ, List.cons_merge_cons, if_pos habove, merged, htDown_succ]

theorem RateSet.Holds.rpsRate (h : rs.Holds rates) (hk : k < rates.length) :
    rpsRate (rs.get k) = some (legacyCode (rates.getD k 0)).2 := by
  have hmem : rates.getD k 0 ∈ rates := by
    rw [List.getD_eq_getElem _ _ hk]
    exact List.getElem_mem hk
  rw [h.entries k hk]
  exact rpsRate_std _ (h.std _ hmem)

theorem writes_legacyTail (h : rs.Holds rates) (hk : k ≤ rates.length) :
    Writes (legacyTail rs k (k - 1) kk) kk ((legacyDown rates k).map Prod.snd) := by
  induction k generalizing kk with
  | zero => exact writes_nil
  | succ k ih =>
    rw [legacyTail, pred_cast, h.rpsRate hk, legacyDown_succ hk]
    exact ((ih (by omega)).put _).readRs _

/-- Below the last legacy rate there is the number of them, which is less than any HT rate. -/
theorem RateSet.Holds.pos (h : rs.Holds rates) (hjj : jj < 8) (hge : ¬ rs.get (k - 1) < mcs.getD jj 0) :
    0 < k := by
  by_contra hzero
  rw [show k = 0 by omega] at hge
  have hcount : rs.get (((0 : Nat) : Int) - 1) < 13 := h.count
  have hmcs := mcs_ge jj hjj
  omega

theorem writes_mergeLoop (h : rs.Holds rates) (hk : k ≤ rates.length) (hjj : jj < 8) :
    Writes (mergeLoop rs (k + (jj + 1)) (k - 1) jj kk) kk ((merged rates k (jj + 1)).map Prod.snd) := by
  induction hn : k + (jj + 1) generalizing k jj kk with
  | zero => omega
  | succ n ih =>
    rw [mergeLoop]
    refine Writes.readRs (Writes.readMcs ?_ _) _
    by_cases hlt : rs.get (k - 1) < mcs.getD jj 0
    · rw [if_pos hlt, merged_ht h hk hlt, List.map_cons]
      refine Writes.put ?_ _
      cases jj with
      | zero =>
        have hlast : merged rates k 0 = legacyDown rates k := List.merge_right _
        rw [if_pos rfl, hlast, show n = k by omega]
        exact writes_legacyTail h hk
      | succ jj =>
        rw [if_neg (Nat.succ_ne_zero jj)]
        exact ih hk (by omega) (by omega)
    · have hpos := h.pos hjj hlt
      rw [if_neg hlt]
      cases k with
      | zero => omega
      | succ k =>
        rw [pred_cast] at hlt ⊢
        rw [merged_legacy h hk hlt, h.rpsRate hk]
        exact Writes.put (ih (by omega) hjj (by omega)) _

theorem reads_legacyTail {n count : Nat} {ii : Int} (hn : n ≤ ii + 1) (hii : ii < count) :
    ∀ e ∈ legacyTail rs n ii kk, e.ReadsValid count := by
  induction n generalizing ii kk with
  | zero => exact List.forall_mem_nil _
  | succ n ih =>
    rw [legacyTail, List.forall_mem_cons]
    refine ⟨⟨by omega, hii⟩, ?_⟩
    cases rpsRate (rs.get ii) with
    | some v => exact List.forall_mem_cons.mpr ⟨trivial, ih (by omega) (by omega)⟩
    | none => exact ih (by omega) hii

theorem RateSet.Holds.lowest_le (h : rs.Holds rates) (hk : k < rates.length) : rates.getD 0 0 ≤ rs.get k := by
  rw [h.entries k hk, List.getD_eq_getElem _ _ hk, List.getD_eq_getElem _ _ (by omega)]
  rcases Nat.eq_zero_or_pos k with rfl | hpos
  · exact Nat.le_refl _
  · exact (List.pairwise_iff_getElem.mp h.ascending 0 k (by omega) hk hpos).le

theorem not_reads_below {n count : Nat} : ¬ ∀ e ∈ mergeLoop rs (n + 1) (-1) jj kk, e.ReadsValid count := by
  intro hall
  rw [mergeLoop, List.forall_mem_cons] at hall
  exact absurd hall.1.1 (by decide)

/-- The loop stays within the legacy rates just if the lowest of them is below MCS0. -/
theorem reads_mergeLoop (h : rs.Holds rates) (hk : k < rates.length) (hjj : jj < 8) :
    (∀ e ∈ mergeLoop rs (k + 1 + (jj + 1)) k jj kk, e.ReadsValid rates.length) ↔ rates.getD 0 0 < 13 := by
  induction hn : k + 1 + (jj + 1) generalizing k jj kk with
  | zero => omega
  | succ n ih =>
    have hfirst : RateEvent.ReadsValid rates.length (.readRs k) := ⟨by omega, by omega⟩
    have hsecond : RateEvent.ReadsValid rates.length (.readMcs jj) := hjj
    have hput : ∀ v, RateEvent.ReadsValid rates.length (.put kk v) := fun _ => trivial
    rw [mergeLoop, List.forall_mem_cons, and_iff_right hfirst, List.forall_mem_cons, and_iff_right hsecond]
    by_cases hlt : rs.get k < mcs.getD jj 0
    · rw [if_pos hlt, List.forall_mem_cons, and_iff_right (hput _)]
      cases jj with
      | zero =>
        have hlow : rates.getD 0 0 < 13 := (h.lowest_le hk).trans_lt hlt
        rw [if_pos rfl]
        exact iff_of_true (reads_legacyTail (by omega) (by omega)) hlow
      | succ jj =>
        rw [if_neg (Nat.succ_ne_zero jj)]
        exact ih hk (by omega) (by omega)
    · rw [if_neg hlt, h.rpsRate hk]
      dsimp only
      rw [List.forall_mem_cons, and_iff_right (hput _)]
      cases k with
      | zero =>
        -- what is left is read at index -1 first
        have hget := h.entries 0 hk
        have hmcs := mcs_ge jj hjj
        rw [Nat.cast_zero] at hget hlt
        rw [show n = jj + 1 by omega]
        exact iff_of_false not_reads_below (by omega)
      | succ k =>
        rw [pred_cast]
        exact ih (by omega) hjj (by omega)

end Merge

theorem reads_putFrom {count : Nat} (kk : Nat) (vs : List Nat) : ∀ e ∈ putFrom kk vs, e.ReadsValid count := by
  induction vs generalizing kk with
  | nil => exact List.forall_mem_nil _
  | cons v vs ih => exact List.forall_mem_cons.mpr ⟨trivial, ih (kk + 1)⟩

theorem writes_legacyRates (rs : RateSet) (l : List Nat) (kk : Nat) :
    Writes (legacyRates rs l kk) kk (l.filterMap fun (ii : Nat) => rpsRate (rs.get ii)) := by
  induction l generalizing kk with
  | nil => exact writes_nil
  | cons ii l ih =>
    rw [legacyRates, List.filterMap_cons]
    refine Writes.readRs ?_ _
    cases rpsRate (rs.get ii) with
    | none => exact ih kk
    | some v => exact (ih (kk + 1)).put v

namespace AutoRateNode

variable {nd : AutoRateNode} {rates : List Nat}

namespace Standard

theorem length_le (h : nd.Standard rates) : rates.length ≤ 12 := by
  have hnodup : rates.Nodup := h.ascending.imp Nat.ne_of_lt
  exact (hnodup.subperm h.std).length_le

theorem holds (h : nd.Standard rates) : nd.rs.masked.Holds rates := by
  have hle := h.length_le
  refine ⟨?_, ?_, h.ascending, h.std⟩
  · show nd.rs.nrates < 13
    rw [h.nrates]
    omega
  · intro i hi
    have hentry := h.entries i hi
    rw [RateSet.get, if_neg (by omega), RateSet.masked]
    dsimp only
    rw [if_pos ⟨by omega, by rw [h.nrates]; omega⟩, hentry]

end Standard

theorem length_aggregationRates (nd : AutoRateNode) : nd.aggregationRates.length = 2 * nd.mapped.length := by
  rw [aggregationRates, List.length_flatMap]
  simp [Nat.mul_comm]

theorem length_merged (rates : List Nat) (j : Nat) :
    (merged rates rates.length j).length = rates.length + j := by
  rw [merged, List.length_merge, legacyDown, htDown]
  simp

theorem writes_bgnMode (h : nd.Standard rates) (hm : nd.htrs.nrates ≠ 0) :
    Writes nd.bgnMode 0 ((merged rates rates.length nd.htrs.nrates).map Prod.snd ++
      (nd.aggregationRates ++ List.replicate (nd.remaining - 2) nd.defaultRate ++ [nd.minRate, nd.minRate])) := by
  have hht := h.htNrates
  have hlast : nd.htrs.nrates - 1 + 1 = nd.htrs.nrates := by omega
  have hlt : nd.htrs.nrates - 1 < 8 := by omega
  have hmerge := @writes_mergeLoop _ _ _ _ 0 h.holds (Nat.le_refl _) hlt
  rw [hlast] at hmerge
  rw [bgnMode, total, h.nrates]
  refine hmerge.append (writes_putFrom _ _) ?_
  rw [List.length_map, length_merged, Nat.zero_add]

theorem lowest_lt_iff (h : nd.Standard rates) (hn : rates ≠ []) :
    rates.getD 0 0 < 13 ↔ ∃ r ∈ rates, r < 13 := by
  have hpos := List.length_pos_of_ne_nil hn
  have hmem : rates.getD 0 0 ∈ rates := by
    rw [List.getD_eq_getElem _ _ hpos]
    exact List.getElem_mem hpos
  constructor
  · intro hlt
    exact ⟨_, hmem, hlt⟩
  · rintro ⟨r, hr, hlt⟩
    obtain ⟨k, hk, rfl⟩ := List.getElem_of_mem hr
    have hle := h.holds.lowest_le hk
    rw [h.holds.entries k hk, List.getD_eq_getElem _ _ hk] at hle
    omega

theorem log_bgn (h : nd.Standard rates) (hn : rates ≠ []) (hm : nd.htrs.nrates ≠ 0) :
    nd.log = (List.range nd.rs.nrates).map (fun (ii : Nat) => .readRs ii) ++ nd.bgnMode := by
  have hpos := List.length_pos_of_ne_nil hn
  rw [log, if_pos ⟨hm, by rw [h.nrates]; omega⟩]

theorem reads_iff (h : nd.Standard rates) (hn : rates ≠ []) (hm : nd.htrs.nrates ≠ 0) :
    (∀ e ∈ nd.log, e.ReadsValid nd.rs.nrates) ↔ rates.getD 0 0 < 13 := by
  have hpos := List.length_pos_of_ne_nil hn
  have hht := h.htNrates
  have hmask : ∀ e ∈ (List.range nd.rs.nrates).map (fun (ii : Nat) => RateEvent.readRs ii),
      e.ReadsValid nd.rs.nrates := by
    rw [List.forall_mem_map]
    intro i hi
    rw [List.mem_range] at hi
    exact ⟨by omega, by omega⟩
  have htotal : nd.total = rates.length - 1 + 1 + (nd.htrs.nrates - 1 + 1) := by
    rw [total, h.nrates]
    omega
  have hlast : (nd.rs.nrates : Int) - 1 = (rates.length - 1 : Nat) := by
    rw [h.nrates]
    omega
  rw [log_bgn h hn hm, List.forall_mem_append, and_iff_right hmask, bgnMode, List.forall_mem_append,
    and_iff_left (reads_putFrom _ _), htotal, hlast, h.nrates]
  exact reads_mergeLoop h.holds (by omega) (by omega)

theorem writes_log_bgn (h : nd.Standard rates) (hn : rates ≠ []) (hm : nd.htrs.nrates ≠ 0) :
    Writes nd.log 0 ((merged rates rates.length nd.htrs.nrates).map Prod.snd ++
      (nd.aggregationRates ++ List.replicate (nd.remaining - 2) nd.defaultRate ++ [nd.minRate, nd.minRate])) := by
  rw [log_bgn h hn hm]
  exact (writes_bgnMode h hm).mask _

theorem merged_perm (rates : List Nat) (j : Nat) :
    (merged rates rates.length j).Perm (rates.map legacyCode ++ (List.range j).map htCode) := by
  refine (List.merge_perm_append notAbove).trans (List.Perm.append ?_ ?_)
  · rw [legacyDown, List.take_length]
    exact (List.reverse_perm rates).map _
  · exact (List.reverse_perm _).map _

theorem merged_pairwise (h : nd.Standard rates) :
    (merged rates rates.length nd.htrs.nrates).Pairwise fun a b => b.1 ≤ a.1 := by
  have hht : ∀ j ≤ 8, (htDown j).Pairwise fun a b => notAbove a b = true := by decide
  have hlegacy : (legacyDown rates rates.length).Pairwise fun a b => notAbove a b = true := by
    rw [legacyDown, List.take_length, List.pairwise_map, List.pairwise_reverse]
    exact h.ascending.imp fun hlt => decide_eq_true hlt.le
  have htrans : ∀ a b c, notAbove a b = true → notAbove b c = true → notAbove a c = true := by
    intro a b c hab hbc
    simp only [notAbove, decide_eq_true_eq] at hab hbc ⊢
    omega
  have htotal : ∀ a b, (notAbove a b || notAbove b a) = true := by
    intro a b
    simp only [notAbove, Bool.or_eq_true, decide_eq_true_eq]
    omega
  have hmerge := List.pairwise_merge htrans htotal _ _ hlegacy (hht _ h.htNrates)
  exact hmerge.imp fun hle => of_decide_eq_true hle

theorem ordered_iff (h : nd.Standard rates) (hn : rates ≠ []) (hm : nd.htrs.nrates ≠ 0) :
    nd.Ordered rates ↔ ∃ r ∈ rates, r < 13 := by
  rw [Ordered, reads_iff h hn hm, lowest_lt_iff h hn]
  refine and_iff_left ⟨_, merged_perm _ _, merged_pairwise h, ?_⟩
  have htotal : nd.total = ((merged rates rates.length nd.htrs.nrates).map Prod.snd).length := by
    rw [List.length_map, length_merged, total, h.nrates]
  rw [htotal]
  exact (writes_log_bgn h hn hm).window

/-! The bounds, for each kind of node. -/

theorem range_split {n m : Nat} (h : n ≤ m) : List.range m = List.range n ++ List.range' n (m - n) := by
  have happend : List.range' 0 n ++ List.range' (0 + n) (m - n) = List.range' 0 (n + (m - n)) :=
    List.range'_append_1
  rw [Nat.zero_add, Nat.add_sub_cancel' h] at happend
  rw [List.range_eq_range', List.range_eq_range', happend]

theorem writes_log_n (hn : nd.rs.nrates = 0) (hm : nd.htrs.nrates ≠ 0) :
    ∃ vs, Writes nd.log 0 vs ∧ 2 * nd.htrs.nrates < vs.length := by
  have hlog : nd.log = nd.nMode := by
    rw [log, if_neg (fun h => h.2 hn), if_pos hm, hn]
    rfl
  refine ⟨_, by rw [hlog]; exact writes_putFrom _ _, ?_⟩
  simp only [List.length_append, List.length_map, List.length_flatMap, List.length_replicate,
    List.length_singleton, List.length_reverse, List.length_range]
  split_ifs
  · simp
    omega
  · simp
    omega

theorem writes_log_bg (h : nd.Standard rates) (hm : nd.htrs.nrates = 0) :
    ∃ vs, Writes nd.log 0 vs ∧ vs.length = rates.length + nd.stale := by
  have hle := h.length_le
  have hlog : nd.log = (List.range nd.rs.nrates).map (fun (ii : Nat) => .readRs ii) ++ nd.bgMode := by
    rw [log, if_neg (fun hboth => hboth.1 hm), if_neg (not_not.mpr hm)]
  refine ⟨_, by rw [hlog]; exact (writes_legacyRates _ _ _).mask _, ?_⟩
  rw [List.length_filterMap_eq_countP, List.countP_reverse, range_split (show rates.length ≤ 13 by omega),
    List.countP_append, stale, h.nrates]
  congr 1
  · rw [List.countP_eq_length.mpr, List.length_range]
    intro i hi
    rw [h.holds.rpsRate (List.mem_range.mp hi)]
    rfl
  · refine List.countP_congr fun i hi => ?_
    rw [List.mem_range'_1] at hi
    have hmem : nd.rs.masked.get i = nd.rs.mem i := by
      rw [RateSet.get, if_neg (by omega), RateSet.masked]
      dsimp only
      rw [if_neg (by rw [h.nrates]; omega)]
    rw [hmem, isSome_rpsRate]

theorem flags_eq_iff :
    ∀ i < 8, ∀ j < 8, ∀ b ∈ [0, 0x80], ∀ c ∈ [0, 0x80], i ||| b = j ||| c ↔ i = j ∧ b = c := by
  decide

theorem Standard.flag (h : nd.Standard rates) {i : Nat} (hi : i < nd.htrs.nrates) :
    nd.htrs.rates i &&& 0x80 ∈ [0, 0x80] ∧ nd.htrs.rates i = i ||| (nd.htrs.rates i &&& 0x80) := by
  have hplain : ∀ i < 8, i &&& 0x80 ∈ [0, 0x80] ∧ i = i ||| (i &&& 0x80) := by decide
  have hbasic : ∀ i < 8,
      (i ||| 0x80) &&& 0x80 ∈ [0, 0x80] ∧ i ||| 0x80 = i ||| ((i ||| 0x80) &&& 0x80) := by decide
  have hi8 := hi.trans_le h.htNrates
  rcases h.htEntries i hi with heq | heq
  · rw [heq]
    exact hplain i hi8
  · rw [heq]
    exact hbasic i hi8

theorem Standard.bitmap_iff (h : nd.Standard rates) (hm : nd.htrs.nrates ≠ 0) {j : Nat} (hj : j < 8) :
    nd.htrs.bitmap j = true ↔
      j < nd.htrs.nrates ∧ nd.htrs.rates j &&& 0x80 = nd.htrs.rates 0 &&& 0x80 := by
  have hfirst := (h.flag (Nat.pos_of_ne_zero hm)).1
  have hband : nd.htrs.bandCheck = nd.htrs.rates 0 &&& 0x80 := by
    rw [HtRateSet.bandCheck]
    rcases List.mem_pair.mp hfirst with heq | heq
    · rw [heq, if_neg (fun hboth => hboth.2 rfl)]
    · rw [heq, if_pos ⟨hm, by decide⟩]
  have hentry : ∀ i < nd.htrs.nrates, nd.htrs.rates i = j ||| nd.htrs.bandCheck ↔
      i = j ∧ nd.htrs.rates i &&& 0x80 = nd.htrs.rates 0 &&& 0x80 := by
    intro i hi
    obtain ⟨hmem, heq⟩ := h.flag hi
    have hflags := flags_eq_iff i (hi.trans_le h.htNrates) j hj _ hmem _ hfirst
    rw [← heq, ← hband] at hflags
    rw [hflags, hband]
  rw [HtRateSet.bitmap, List.any_eq_true]
  constructor
  · rintro ⟨i, hi, heq⟩
    rw [List.mem_range] at hi
    obtain ⟨rfl, hflag⟩ := (hentry i hi).mp (of_decide_eq_true heq)
    exact ⟨hi, hflag⟩
  · rintro ⟨hlt, hflag⟩
    exact ⟨j, List.mem_range.mpr hlt, decide_eq_true ((hentry j hlt).mpr ⟨rfl, hflag⟩)⟩

theorem Standard.length_mapped (h : nd.Standard rates) (hm : nd.htrs.nrates ≠ 0) :
    nd.mapped.length = nd.alike := by
  have hnone : (List.range' nd.htrs.nrates (8 - nd.htrs.nrates)).countP nd.htrs.bitmap = 0 := by
    rw [List.countP_eq_zero]
    intro j hj hbit
    rw [List.mem_range'_1] at hj
    have hlt := ((h.bitmap_iff hm (by omega)).mp hbit).1
    omega
  rw [mapped, ← List.countP_eq_length_filter, List.countP_reverse, range_split h.htNrates, List.countP_append,
    hnone, Nat.add_zero, alike]
  refine List.countP_congr fun j hj => ?_
  rw [List.mem_range] at hj
  rw [h.bitmap_iff hm (hj.trans_le h.htNrates), decide_eq_true_eq]
  exact and_iff_right hj

/-- When the limits of the table are kept. -/
def Fits (nd : AutoRateNode) (rates : List Nat) : Prop :=
  if nd.htrs.nrates = 0 then nd.stale ≤ rates.length
  else rates ≠ [] ∧ (∃ r ∈ rates, r < 13) ∧ 2 * nd.alike + 2 ≤ nd.total

theorem inBounds_iff {vs : List Nat} (h : nd.Standard rates) (hvs : Writes nd.log 0 vs) :
    nd.InBounds ↔ vs.length ≤ 2 * nd.total := by
  have hle := h.length_le
  have hht := h.htNrates
  have hmin : min 40 nd.numSupportedRates = 2 * nd.total := by
    rw [numSupportedRates, total, h.nrates]
    omega
  rw [InBounds, hmin]
  exact hvs.lt_iff

theorem inBounds_bgn (h : nd.Standard rates) (hn : rates ≠ []) (hm : nd.htrs.nrates ≠ 0) :
    nd.InBounds ↔ 2 * nd.alike + 2 ≤ nd.total := by
  have hle := h.length_le
  have hht := h.htNrates
  have hmapped : nd.mapped.length ≤ 8 := List.length_filter_le _ _
  have htotal : nd.total = rates.length + nd.htrs.nrates := by rw [total, h.nrates]
  have hremaining : nd.remaining = (nd.total + (2 ^ 8 - 2 * nd.mapped.length)) % 2 ^ 8 := by
    rw [remaining, BitVec.toNat_sub, BitVec.toNat_ofNat, BitVec.toNat_ofNat]
    omega
  rw [inBounds_iff h (writes_log_bgn h hn hm), ← h.length_mapped hm]
  simp only [List.length_append, List.length_map, length_merged, length_aggregationRates, List.length_replicate,
    List.length_cons, List.length_nil]
  omega

/-- The table is as meant just if the node fits. -/
theorem autoRate_iff_fits (h : nd.Standard rates) :
    ((rates ≠ [] → nd.htrs.nrates ≠ 0 → nd.Ordered rates) ∧ nd.InBounds) ↔ nd.Fits rates := by
  by_cases hm : nd.htrs.nrates = 0
  · obtain ⟨vs, hvs, hlen⟩ := writes_log_bg h hm
    rw [Fits, if_pos hm, inBounds_iff h hvs, hlen, total, h.nrates, hm]
    constructor
    · intro hall
      omega
    · intro hle
      exact ⟨fun _ hne => absurd rfl hne, by omega⟩
  · rw [Fits, if_neg hm]
    by_cases hn : rates = []
    · obtain ⟨vs, hvs, hlen⟩ := writes_log_n (by rw [h.nrates, hn]; rfl) hm
      rw [inBounds_iff h hvs, total, h.nrates, hn, List.length_nil]
      refine iff_of_false (fun hall => ?_) (fun hall => hall.1 rfl)
      omega
    · rw [ordered_iff h hn hm, inBounds_bgn h hn hm]
      constructor
      · intro hall
        exact ⟨hn, hall.1 hn hm, hall.2⟩
      · intro hall
        exact ⟨fun _ _ => hall.2.1, hall.2.2⟩

end AutoRateNode

/-- A node of 2.4 GHz with these rates, without basic ones and with zeros behind them, and with the first `m`
HT rates. -/
def plainNode (rates : List Nat) (m : Nat) : AutoRateNode :=
  { rs := ⟨rates.length, fun i => rates.getD i.toNat 0⟩, htrs := ⟨m, id⟩, htcapShortgi20 := false
    htcapShortgi40 := false, curchanHt20 := true, curchanHt40 := false, band5GHz := false }

theorem plainNode_standard {rates : List Nat} {m : Nat} (hrates : ∀ r ∈ rates, r ∈ stdRates)
    (hasc : rates.Pairwise (· < ·)) (hm : m ≤ 8) : (plainNode rates m).Standard rates where
  nrates := rfl
  entries := by
    have hmask : ∀ r ∈ stdRates, r &&& 0x7f = r := by decide
    intro i hi
    have hmem : rates.getD i 0 ∈ rates := by
      rw [List.getD_eq_getElem _ _ hi]
      exact List.getElem_mem hi
    exact hmask _ (hrates _ hmem)
  ascending := hasc
  std := hrates
  htNrates := hm
  htEntries := fun _ _ => .inl rfl

theorem autoRate_all_rates :
    (plainNode stdRates 8).Standard stdRates ∧ (plainNode stdRates 8).Ordered stdRates ∧
      (plainNode stdRates 8).InBounds := by
  have hstd : (plainNode stdRates 8).Standard stdRates :=
    plainNode_standard (fun _ hr => hr) (by decide) (by decide)
  have hfits : (plainNode stdRates 8).Fits stdRates := by
    rw [AutoRateNode.Fits, if_neg (by decide)]
    exact ⟨by decide, by decide, by decide⟩
  have hsound := (AutoRateNode.autoRate_iff_fits hstd).mpr hfits
  exact ⟨hstd, hsound.1 (by decide) (by decide), hsound.2⟩

/-- With the OFDM rates from 9 Mbps on the loop reads below the first legacy rate, with eight legacy rates
and eight HT rates the table is written beyond its end, and so it is without legacy rates. -/
theorem autoRate_outside :
    .readRs (-1) ∈ (plainNode [18, 24, 36, 48, 72, 96, 108] 1).log ∧
    .put 32 0x8b ∈ (plainNode [12, 18, 24, 36, 48, 72, 96, 108] 8).log ∧
    (plainNode [12, 18, 24, 36, 48, 72, 96, 108] 8).numSupportedRates = 32 ∧
    .put 16 0x100 ∈ (plainNode [] 8).log ∧ (plainNode [] 8).numSupportedRates = 16 := by
  decide

end Onebox
