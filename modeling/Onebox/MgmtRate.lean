import Onebox.Scan
import Onebox.TxOwnership

/-! The rate of a management frame: `prepare_onair_mgmt_pkt_desc` looks for the first basic rate of the node
with two 8-bit variables, of which the loop counts with one and tests the other. -/

namespace Onebox

open Calls Scan

namespace MgmtArgs

variable (a : MgmtArgs)

/-- The memory from `rs_rates` on. -/
def rsRate (i : Nat) : BitVec 8 := a.env.rsRates.getD i 0

def isBasic (i : Nat) : Bool := (a.rsRate i).getLsbD 7

/-- The inner loop: the device code of a standard rate. -/
def deviceCode (r : BitVec 8) : Option (BitVec 16) :=
  ((a.env.stdRates.zip a.env.rpsRates).find? (·.1 = r &&& 0x7f)).map Prod.snd

/-- The outer loop, with fuel for its rounds. The log has the entries of `rs_rates` that are read. -/
def rateLoop : Nat → BitVec 8 → Nat → BitVec 16 → Calls Nat (BitVec 16)
  | 0, _, _, _ => .stuck
  | fuel + 1, ii, jj, word4 =>
    if jj < a.env.rsNrates then do
      let r ← cell a.rsRate ii.toNat
      if r.getLsbD 7 then pure ((a.deviceCode r).getD word4) else rateLoop fuel (ii + 1) jj word4
    else pure word4

/-- The vap has passed `SCAN`, is a station that does not scan and is in the 2.4 GHz band. -/
def looksUp : Bool := a.env.aboveScan && !a.hostap && !a.env.scanning && a.env.sys.radio.band24

def rateCalls (fuel : Nat) : Calls Nat (BitVec 16) :=
  if a.looksUp then a.rateLoop fuel 0 0 a.defaultRate else pure a.defaultRate

/-- The first basic rate of the set, which has `rs_nrates` entries. -/
def firstBasic : Option (BitVec 8) := ((List.range a.env.rsNrates).find? a.isBasic).map a.rsRate

/-- What the rate is meant to be. -/
def meantRate : BitVec 16 := (a.firstBasic.bind a.deviceCode).getD a.defaultRate

/-- The lookup returns the rate that is meant and reads no entry behind the set. -/
def RateFound : Prop :=
  ∃ fuel, (a.rateCalls fuel).result = some a.meantRate ∧ Within a.env.rsNrates (a.rateCalls fuel)

variable {a}

theorem rateLoop_succ {fuel : Nat} {ii : BitVec 8} {word4 : BitVec 16} (hn : 0 < a.env.rsNrates) :
    a.rateLoop (fuel + 1) ii 0 word4 = (do
      let r ← cell a.rsRate ii.toNat
      if r.getLsbD 7 then pure ((a.deviceCode r).getD word4) else a.rateLoop fuel (ii + 1) 0 word4) := by
  rw [rateLoop, if_pos hn]

/-- The loop returns at a basic rate only, which it has read. -/
theorem exists_basic_of_result {fuel : Nat} {ii : BitVec 8} {word4 : BitVec 16} (hn : 0 < a.env.rsNrates)
    (h : (a.rateLoop fuel ii 0 word4).result.isSome) :
    ∃ i ∈ (a.rateLoop fuel ii 0 word4).log, a.isBasic i = true := by
  induction fuel generalizing ii with
  | zero => cases h
  | succ fuel ih =>
    rw [rateLoop_succ hn, bind_of_result rfl] at h ⊢
    by_cases hbasic : (a.rsRate ii.toNat).getLsbD 7 = true
    · exact ⟨ii.toNat, List.mem_append_left _ List.mem_cons_self, hbasic⟩
    · rw [if_neg hbasic] at h ⊢
      obtain ⟨i, hi, hib⟩ := ih h
      exact ⟨i, List.mem_append_right _ hi, hib⟩

/-- From an index with `d` rates before the first basic one, the loop reads just those and the basic one. -/
theorem rateLoop_to_basic (word4 : BitVec 16) (hn : 0 < a.env.rsNrates) (d : Nat) {i : Nat}
    (hlt : i + d < 256) (hbefore : ∀ j, i ≤ j → j < i + d → a.isBasic j = false)
    (hbasic : a.isBasic (i + d) = true) :
    a.rateLoop (d + 1) (BitVec.ofNat 8 i) 0 word4 =
      ⟨List.range' i (d + 1), some ((a.deviceCode (a.rsRate (i + d))).getD word4)⟩ := by
  induction d generalizing i with
  | zero =>
    have hi : (BitVec.ofNat 8 i).toNat = i := BitVec.toNat_ofNat .. ▸ Nat.mod_eq_of_lt hlt
    have hb : (a.rsRate i).getLsbD 7 = true := hbasic
    rw [rateLoop_succ hn, bind_of_result rfl, hi, if_pos hb]
    rfl
  | succ d ih =>
    have hi : (BitVec.ofNat 8 i).toNat = i := BitVec.toNat_ofNat .. ▸ Nat.mod_eq_of_lt (by omega)
    have hnot : ¬ (a.rsRate i).getLsbD 7 = true := Bool.eq_false_iff.mp (hbefore i (le_refl i) (by omega))
    have hnext : BitVec.ofNat 8 i + 1 = BitVec.ofNat 8 (i + 1) := BitVec.ofNat_add i 1 ▸ rfl
    have hrest := ih (i := i + 1) (by omega) (fun j hj hj' => hbefore j (by omega) (by omega))
      (by rw [← hbasic]; congr 1; omega)
    rw [rateLoop_succ hn, bind_of_result rfl, hi, if_neg hnot, hnext, hrest, Nat.add_right_comm]
    rfl

/-- With the first basic rate at `k` the loop reads the rates up to it and returns its code. -/
theorem rateLoop_first {k : Nat} (hn : 0 < a.env.rsNrates) (hk : k < 256) (hbasic : a.isBasic k = true)
    (hfirst : ∀ j < k, a.isBasic j = false) (word4 : BitVec 16) :
    a.rateLoop (k + 1) 0 0 word4 =
      ⟨List.range' 0 (k + 1), some ((a.deviceCode (a.rsRate k)).getD word4)⟩ := by
  rw [← Nat.zero_add k] at hk hbasic
  have h := rateLoop_to_basic word4 hn k hk (fun j _ hj => hfirst j (by omega)) hbasic
  rw [Nat.zero_add] at h
  exact h

theorem rateCalls_of_looksUp (hlook : a.looksUp = true) (fuel : Nat) :
    a.rateCalls fuel = a.rateLoop fuel 0 0 a.defaultRate := if_pos hlook

/-- The lookup does what is meant of it just when the set is empty or has a basic rate. -/
theorem rateFound_iff (a : MgmtArgs) (hn : a.env.rsNrates ≤ 15) (hlook : a.looksUp = true) :
    a.RateFound ↔ a.env.rsNrates = 0 ∨ ∃ i < a.env.rsNrates, a.isBasic i = true := by
  simp only [RateFound, rateCalls_of_looksUp hlook]
  by_cases hzero : a.env.rsNrates = 0
  · refine iff_of_true ⟨1, ?_, ?_⟩ (.inl hzero)
    · rw [rateLoop, hzero, meantRate, firstBasic, hzero]
      rfl
    · rw [rateLoop, hzero]
      exact within_pure
  · have hpos : 0 < a.env.rsNrates := Nat.pos_of_ne_zero hzero
    constructor
    · rintro ⟨fuel, hresult, hwithin⟩
      obtain ⟨i, hi, hbasic⟩ := exists_basic_of_result hpos (Option.isSome_iff_exists.mpr ⟨_, hresult⟩)
      exact .inr ⟨i, hwithin i hi, hbasic⟩
    · rintro (h | hex)
      · exact absurd h hzero
      · obtain ⟨hlt, hbasic⟩ := Nat.find_spec hex
        have hfirst : ∀ j < Nat.find hex, a.isBasic j = false := by
          intro j hj
          have hmin := Nat.find_min hex hj
          exact Bool.eq_false_iff.mpr fun hb => hmin ⟨hj.trans hlt, hb⟩
        have hrange : (List.range a.env.rsNrates).find? a.isBasic = some (Nat.find hex) := by
          rw [List.find?_range_eq_some]
          exact ⟨hbasic, List.mem_range.mpr hlt, fun j hj => by rw [hfirst j hj]; rfl⟩
        have hloop := rateLoop_first hpos (by omega) hbasic hfirst a.defaultRate
        refine ⟨Nat.find hex + 1, ?_, ?_⟩
        · rw [hloop, meantRate, firstBasic, hrange]
          rfl
        · intro i hi
          rw [hloop] at hi
          have hle := (List.mem_range'_1.mp hi).2
          omega

def ratesOf (rates : List (BitVec 8)) : MgmtArgs :=
  { env := { quietEnv with
      rsNrates := rates.length, rsRates := rates, stdRates := [0x02, 0x04, 0x0b, 0x16], rpsRates := [0, 2, 4, 6] },
    node := apNode, buf := longActionFrame }

/-- The first basic rate is 2 Mbps, the second entry. -/
theorem rateFound_two : (ratesOf [0x02, 0x84, 0x8b]).RateFound :=
  (rateFound_iff (ratesOf [0x02, 0x84, 0x8b]) (by decide) (by decide)).mpr (.inr ⟨1, by decide, by decide⟩)

theorem rate_of_not_used (hused : a.ratesUsed = false) : a.rate = a.defaultRate := by
  rw [rate]
  cases a.basicRate <;> simp [hused]

theorem isBasic_of_lt {i : Nat} (hi : i < a.env.rsRates.length) :
    a.isBasic i = (a.env.rsRates[i]).getLsbD 7 := by
  rw [isBasic, rsRate, List.getD_eq_getElem _ _ hi]

/-- Where no byte of the memory has bit 7, the loop does not return. -/
theorem rateLoop_of_no_basicRate (hpos : 0 < a.env.rsNrates) (hbasic : a.basicRate = none) (fuel : Nat)
    (word4 : BitVec 16) : (a.rateLoop fuel 0 0 word4).result = none := by
  rw [← Option.not_isSome_iff_eq_none]
  intro hsome
  obtain ⟨i, -, hi⟩ := exists_basic_of_result hpos hsome
  by_cases hlt : i < a.env.rsRates.length
  · have hno := List.find?_eq_none.mp hbasic _ (List.getElem_mem hlt)
    rw [isBasic_of_lt hlt] at hi
    exact hno hi
  · rw [isBasic, rsRate, List.getD_eq_default _ _ (Nat.le_of_not_lt hlt)] at hi
    cases hi

theorem exists_rateLoop_of_basicRate (hmem : a.env.rsRates.length ≤ 256) (hpos : 0 < a.env.rsNrates)
    {r : BitVec 8} (hbasic : a.basicRate = some r) (word4 : BitVec 16) :
    ∃ fuel, (a.rateLoop fuel 0 0 word4).result = some ((a.deviceCode r).getD word4) := by
  obtain ⟨hr, k, hk, hget, hbefore⟩ := List.find?_eq_some_iff_getElem.mp hbasic
  have hrk : a.rsRate k = r := by rw [rsRate, List.getD_eq_getElem _ _ hk, hget]
  have hfirst : ∀ j < k, a.isBasic j = false := by
    intro j hj
    have hno := hbefore j hj
    rw [isBasic_of_lt (hj.trans hk)]
    simpa using hno
  have hloop := rateLoop_first hpos (by omega) (by rw [isBasic, hrk]; exact hr) hfirst word4
  exact ⟨k + 1, by rw [hloop, hrk]⟩

/-- The descriptor of `MgmtArgs.desc` has the rate that the loop comes to, unless the loop never ends. -/
theorem rateCalls_eq_rate (a : MgmtArgs) (hmem : a.env.rsRates.length ≤ 256) :
    (a.endless = false → ∃ fuel, (a.rateCalls fuel).result = some a.rate) ∧
      (a.endless = true → ∀ fuel, (a.rateCalls fuel).result = none) := by
  have hused : a.ratesUsed = (a.looksUp && decide (0 < a.env.rsNrates)) := rfl
  by_cases hlook : a.looksUp = true
  · by_cases hpos : 0 < a.env.rsNrates
    · rw [hlook, decide_eq_true hpos] at hused
      cases hbasic : a.basicRate with
      | none =>
        refine ⟨fun hendless => by simp [endless, hused, hbasic] at hendless, fun _ fuel => ?_⟩
        rw [rateCalls_of_looksUp hlook]
        exact rateLoop_of_no_basicRate hpos hbasic fuel _
      | some r =>
        obtain ⟨fuel, hloop⟩ := exists_rateLoop_of_basicRate hmem hpos hbasic a.defaultRate
        refine ⟨fun _ => ⟨fuel, ?_⟩, fun hendless => by simp [endless, hbasic] at hendless⟩
        rw [rateCalls_of_looksUp hlook, hloop, rate, hbasic]
        simp only [hused, Bool.and_self, if_true]
        rfl
    · rw [decide_eq_false hpos, Bool.and_false] at hused
      refine ⟨fun _ => ⟨1, ?_⟩, fun hendless => by simp [endless, hused] at hendless⟩
      rw [rateCalls_of_looksUp hlook, rateLoop, if_neg hpos, rate_of_not_used hused]
      rfl
  · rw [Bool.eq_false_iff.mpr hlook, Bool.false_and] at hused
    refine ⟨fun _ => ⟨0, ?_⟩, fun hendless => by simp [endless, hused] at hendless⟩
    rw [rateCalls, if_neg hlook, rate_of_not_used hused]
    rfl

/-- A set without a basic rate, and the loop does not end. -/
theorem rateCalls_endless :
    (ratesOf [0x02, 0x04]).looksUp = true ∧
      (∀ fuel, ((ratesOf [0x02, 0x04]).rateCalls fuel).result = none) ∧ ¬ (ratesOf [0x02, 0x04]).RateFound := by
  have hnone := (rateCalls_eq_rate (ratesOf [0x02, 0x04]) (by decide)).2 (by decide)
  refine ⟨by decide, hnone, ?_⟩
  rintro ⟨fuel, hresult, -⟩
  rw [hnone fuel] at hresult
  cases hresult

end MgmtArgs

end Onebox
