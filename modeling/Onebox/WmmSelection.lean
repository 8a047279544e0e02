import Onebox.HalQueue
import Onebox.Machine

/-! The choice of a queue by `core_determine_hal_queue`, over any history of packets put into the queues and
taken out of them, and the queue that a call prefers. -/

namespace Onebox

open Machine

/-- The part of `cap_wmeParams` that `onebox_set_contention_vals` reads. -/
structure WmeParams where
  logcwmin : WmeAc → BitVec 8
  aifsn : WmeAc → BitVec 8

namespace WmeParams

variable (p : WmeParams)

/-- The weight of an access category. `less` is what the source takes off the number of slots. -/
def weight (ac : WmeAc) (less : Int) : Int :=
  (((p.logcwmin ac).toNat / 2 : Nat) + ((p.aifsn ac).toNat - less)) * 9 + 16

/-- `wme_org_q`. Only the best effort queue of a station has a slot less. -/
def wmeOrgQ : DataQ → Int
  | 0 | 4 => p.weight .bk 0
  | 1 => p.weight .be 1
  | 5 => p.weight .be 0
  | 2 | 6 => p.weight .vi 0
  | 3 | 7 => p.weight .vo 0

end WmeParams

namespace Wmm

/-- The two copies at the end of `onebox_set_contention_vals`. -/
def resetContention (org : DataQ → Int) (w : Wmm) : Wmm :=
  { w with wmeOrgQ := org, perQWt := org, pktContended := fun _ => false }

def setContentionVals (p : WmeParams) (w : Wmm) : Wmm := w.resetContention p.wmeOrgQ

end Wmm

/-- The lengths of the queues beside the state of the contention. -/
structure SoftQueues where
  wmm : Wmm
  len : DataQ → Nat
  mgmtLen : Nat

namespace SoftQueues

variable (s : SoftQueues)

def lenOf : SoftQ → Nat
  | .data q => s.len q
  | .mgmt => s.mgmtLen

def setLen (n : Nat) : SoftQ → SoftQueues
  | .data q => { s with len := Function.update s.len q n }
  | .mgmt => { s with mgmtLen := n }

def determine : Wmm × Option SoftQ := s.wmm.coreDetermineHalQueue s.len s.mgmtLen

/-- A packet of the queue that a call has returned is taken out. -/
def dequeue : Option SoftQ → SoftQueues
  | none => s
  | some q => s.setLen (s.lenOf q - 1) q

end SoftQueues

inductive SelectAct
  | enqueue (q : SoftQ)
  | call (dequeues : Bool)
  deriving DecidableEq, Repr

namespace SoftQueues

def step (s : SoftQueues) : SelectAct → Option SoftQueues
  | .enqueue q => some (s.setLen (s.lenOf q + 1) q)
  | .call dequeues =>
    let s' := { s with wmm := s.determine.1 }
    some (if dequeues then s'.dequeue s.determine.2 else s')

/-- Empty queues after `onebox_set_contention_vals`. -/
def start (w : Wmm) (org : DataQ → Int) : SoftQueues :=
  { wmm := { w.resetContention org with pktCnt := 0 }, len := fun _ => 0, mgmtLen := 0 }

/-- What holds between two calls: the rest of a burst is in its queue. -/
def BurstFits (s : SoftQueues) : Prop := s.wmm.pktCnt ≤ s.len s.wmm.selectedQnum

theorem burstFits_enqueue {s : SoftQueues} (h : s.BurstFits) (q : SoftQ) :
    (s.setLen (s.lenOf q + 1) q).BurstFits := by
  cases q with
  | mgmt => exact h
  | data q =>
    have hle : s.len s.wmm.selectedQnum ≤ Function.update s.len q (s.len q + 1) s.wmm.selectedQnum := by
      by_cases hq : s.wmm.selectedQnum = q
      · rw [hq, Function.update_self]
        exact Nat.le_succ _
      · rw [Function.update_of_ne hq]
    exact h.trans hle

theorem burstFits_call {s : SoftQueues} (h : s.BurstFits) (dequeues : Bool) :
    (if dequeues then { s with wmm := s.determine.1 }.dequeue s.determine.2
      else { s with wmm := s.determine.1 }).BurstFits := by
  have hdet := Wmm.coreDetermineHalQueue_determines s.len s.wmm s.mgmtLen
  have hcall : s.determine.1.pktCnt ≤ s.len s.determine.1.selectedQnum := hdet.pktCnt_le h
  cases dequeues with
  | false => exact hcall
  | true =>
    cases hr : s.determine.2 with
    | none => exact hcall
    | some q =>
      cases q with
      | mgmt => exact hcall
      | data q =>
        rw [show (s.wmm.coreDetermineHalQueue s.len s.mgmtLen).2 = some (.data q) from hr] at hdet
        obtain ⟨-, hq, hlt⟩ := hdet.data h
        show s.determine.1.pktCnt ≤ Function.update s.len q (s.len q - 1) s.determine.1.selectedQnum
        rw [show s.determine.1.selectedQnum = q from hq, Function.update_self]
        exact Nat.le_sub_one_of_lt hlt

theorem burstFits_step {s t : SoftQueues} {a : SelectAct} (h : s.BurstFits) (hstep : s.step a = some t) :
    t.BurstFits := by
  cases a with
  | enqueue q =>
    rw [← Option.some.inj hstep]
    exact burstFits_enqueue h q
  | call dequeues =>
    rw [← Option.some.inj hstep]
    exact burstFits_call h dequeues

/-- What a call in a state returns and leaves. -/
structure CallSound (s : SoftQueues) : Prop where
  passes : (Wmm.getQueueNum s.len 2 s.wmm).isSome
  mgmt : s.determine.2 = some .mgmt ↔ s.mgmtLen ≠ 0
  invalid : s.mgmtLen = 0 → (s.determine.2 = none ↔ ∀ q, s.len q = 0)
  data : ∀ q, s.determine.2 = some (.data q) → s.len q ≠ 0
  pktCnt : ∀ dequeues t, s.step (.call dequeues) = some t → t.wmm.pktCnt ≤ t.len t.wmm.selectedQnum

theorem BurstFits.callSound {s : SoftQueues} (h : s.BurstFits) : s.CallSound := by
  have hdet : Wmm.Determines s.len s.mgmtLen s.wmm s.determine.1 s.determine.2 :=
    Wmm.coreDetermineHalQueue_determines s.len s.wmm s.mgmtLen
  have hdata : ∀ q, s.determine.2 = some (.data q) → s.mgmtLen = 0 ∧ s.len q ≠ 0 := by
    intro q hq
    rw [hq] at hdet
    obtain ⟨hm, -, hlt⟩ := hdet.data h
    exact ⟨hm, Nat.ne_zero_of_lt hlt⟩
  have hempty : s.determine.2 = none → s.mgmtLen = 0 ∧ ∀ q, s.len q = 0 := by
    intro hnone
    rw [hnone] at hdet
    exact hdet.empty
  refine ⟨?_, ⟨fun hm => ?_, fun hm => ?_⟩, fun hm => ⟨fun hnone => ?_, fun hall => ?_⟩, fun q hq => ?_, ?_⟩
  · obtain ⟨w', o, hget, -, -⟩ := Wmm.getQueueNum_eq_some s.len s.wmm 0
    rw [hget]
    rfl
  · rw [hm] at hdet
    exact hdet.mgmt_ne_zero
  · rw [determine, Wmm.coreDetermineHalQueue, if_pos hm]
  · exact (hempty hnone).2
  · cases hr : s.determine.2 with
    | none => rfl
    | some q =>
      cases q with
      | mgmt =>
        rw [hr] at hdet
        exact absurd hm hdet.mgmt_ne_zero
      | data q => exact absurd (hall q) (hdata q hr).2
  · exact (hdata q hq).2
  · intro dequeues t ht
    exact burstFits_step h ht

/-- After `onebox_set_contention_vals`, whatever is put into the queues and taken out of them, each call
is sound. -/
theorem call_sound {w : Wmm} {org : DataQ → Int} {as : List SelectAct} {s : SoftQueues}
    (hrun : run step (start w org) as = some s) : s.CallSound := by
  have hstart : (start w org).BurstFits := Nat.zero_le _
  have hfits : s.BurstFits := run_preserves burstFits_step hstart hrun
  exact hfits.callSound

def voiceParams : WmeParams where
  logcwmin
    | .be | .bk => 4
    | .vi => 3
    | .vo => 2
  aifsn
    | .be => 3
    | .bk => 7
    | .vi | .vo => 2

def voiceStart : SoftQueues :=
  start ⟨fun _ => 0, fun _ => 0, fun _ => false, bkQSta, 0, false, false, 94⟩ voiceParams.wmeOrgQ

/-- Two voice packets and a call that takes none of them. -/
theorem call_sound_voice :
    ∃ s, run step voiceStart [.enqueue (.data voQSta), .enqueue (.data voQSta), .call false] = some s ∧
      s.wmm.pktCnt = 1 ∧ s.CallSound :=
  exists_run_and (by decide) fun _ hrun => call_sound hrun

end SoftQueues

/-! ## The queue a call prefers -/

/-- The order of two queues by weight, and by number where the weights are equal. -/
def Precedes (wt : DataQ → Int) (q i : DataQ) : Prop := wt q < wt i ∨ wt q = wt i ∧ q ≤ i

theorem Precedes.refl (wt : DataQ → Int) (q : DataQ) : Precedes wt q q := .inr ⟨rfl, le_refl q⟩

theorem Precedes.le {wt : DataQ → Int} {q i : DataQ} (h : Precedes wt q i) : wt q ≤ wt i := by
  rcases h with hlt | ⟨heq, -⟩
  · exact hlt.le
  · exact heq.le

theorem Precedes.trans {wt : DataQ → Int} {q i j : DataQ} (h : Precedes wt q i) (h' : Precedes wt i j) :
    Precedes wt q j := by
  rcases h with hlt | ⟨heq, hqi⟩
  · exact .inl (hlt.trans_le h'.le)
  · rcases h' with hlt' | ⟨heq', hij⟩
    · exact .inl (heq.trans_lt hlt')
    · exact .inr ⟨heq.trans heq', hqi.trans hij⟩

/-- The least of the queues that satisfy `P`. -/
def LeastOf (wt : DataQ → Int) (P : DataQ → Prop) (q : DataQ) : Prop := P q ∧ ∀ i, P i → Precedes wt q i

namespace Wmm

open SoftQueues

variable {len : DataQ → Nat} {w : Wmm} {q : DataQ}

/-- Weights that the `uint8` variable `min` can hold. -/
def Fits (wt : DataQ → Int) : Prop := ∀ i, 0 ≤ wt i ∧ wt i ≤ 255

theorem toUint8_of_fits {wt : DataQ → Int} (h : Fits wt) (i : DataQ) : toUint8 (wt i) = wt i := by
  have hi := h i
  exact Int.emod_eq_of_lt hi.1 (by omega)

/-- The second loop over queues in ascending order, all behind the one that is least so far. -/
theorem foldl_lower_least (len : DataQ → Nat) (hfits : Fits w.perQWt) (l : List DataQ)
    (hl : l.Pairwise (· ≤ ·)) (c : Int × DataQ) (hc : c.1 = w.perQWt c.2) (hle : ∀ i ∈ l, c.2 ≤ i) :
    (l.foldl (w.lower len) c).1 = w.perQWt (l.foldl (w.lower len) c).2 ∧
      Precedes w.perQWt (l.foldl (w.lower len) c).2 c.2 ∧
      ∀ i ∈ l, w.contends len i = true → Precedes w.perQWt (l.foldl (w.lower len) c).2 i := by
  induction l generalizing c with
  | nil => exact ⟨hc, .refl _ _, fun i hi => by cases hi⟩
  | cons j l ih =>
    obtain ⟨hj, hl⟩ := List.pairwise_cons.mp hl
    have hcj : c.2 ≤ j := hle j List.mem_cons_self
    rw [List.foldl_cons]
    by_cases hlow : (w.contends len j && decide (w.perQWt j < c.1)) = true
    · have hnext : w.lower len c j = (w.perQWt j, j) := by rw [lower, if_pos hlow, toUint8_of_fits hfits]
      rw [Bool.and_eq_true, decide_eq_true_eq] at hlow
      obtain ⟨hfst, hsnd, hrest⟩ := ih hl (w.perQWt j, j) rfl hj
      rw [hnext]
      have hjc : Precedes w.perQWt j c.2 := .inl (hc ▸ hlow.2)
      refine ⟨hfst, hsnd.trans hjc, fun i hi hcont => ?_⟩
      rcases List.mem_cons.mp hi with rfl | hi
      · exact hsnd
      · exact hrest i hi hcont
    · have hnext : w.lower len c j = c := if_neg hlow
      obtain ⟨hfst, hsnd, hrest⟩ := ih hl c hc fun i hi => hle i (List.mem_cons_of_mem _ hi)
      rw [hnext]
      refine ⟨hfst, hsnd, fun i hi hcont => ?_⟩
      rcases List.mem_cons.mp hi with rfl | hi
      · rw [Bool.and_eq_true, decide_eq_true_eq, hc] at hlow
        have hwt : w.perQWt c.2 ≤ w.perQWt i := not_lt.mp fun h => hlow ⟨hcont, h⟩
        have hci : Precedes w.perQWt c.2 i := hwt.lt_or_eq.imp_right fun heq => ⟨heq, hcj⟩
        exact hsnd.trans hci
      · exact hrest i hi hcont

/-- The first two loops find the least of the queues that contend, with its weight. -/
theorem leastBackoff_isLeast (hfits : Fits w.perQWt) (hq : w.contends len q = true) :
    (w.leastBackoff len).1 = w.perQWt (w.leastBackoff len).2 ∧
      LeastOf w.perQWt (fun i => w.contends len i = true) (w.leastBackoff len).2 := by
  have hcont := leastBackoff_of_contends hq
  rw [leastBackoff] at hcont ⊢
  cases hfind : (List.finRange 8).find? (w.contends len) with
  | none =>
    have hno := List.find?_eq_none.mp hfind q (List.mem_finRange q)
    exact absurd hq hno
  | some f =>
    rw [hfind] at hcont
    obtain ⟨-, n, hn, hget, hbefore⟩ := List.find?_eq_some_iff_getElem.mp hfind
    have hnf : n = f.val := by simpa using congrArg Fin.val hget
    subst hnf
    have hsorted : ((List.finRange 8).drop f.val).Pairwise (· ≤ ·) :=
      ((List.pairwise_lt_finRange 8).imp le_of_lt).sublist (List.drop_sublist _ _)
    have hbehind : ∀ i : DataQ, i ∈ (List.finRange 8).drop f.val ↔ f ≤ i := by
      intro i
      rw [List.mem_drop_iff_getElem]
      constructor
      · rintro ⟨k, hk, rfl⟩
        simp [Fin.le_def]
      · intro hfi
        have hval : f.val ≤ i.val := hfi
        exact ⟨i.val - f.val, by simp; omega, by simp [Fin.ext_iff]; omega⟩
    obtain ⟨hfst, -, hrest⟩ := foldl_lower_least len hfits _ hsorted (toUint8 (w.perQWt f), f)
      (toUint8_of_fits hfits f) fun i hi => (hbehind i).mp hi
    refine ⟨hfst, hcont, fun i hi => ?_⟩
    by_cases hfi : f ≤ i
    · exact hrest i ((hbehind i).mpr hfi) hi
    · have hno := hbefore i.val (Nat.lt_of_not_le hfi)
      simp [hi] at hno

theorem getQueueNum_isLeast {n : Nat} {w' : Wmm} {i : DataQ} (hfits : Fits w.perQWt)
    (hi : w.contends len i = true) (h : getQueueNum len (n + 1) w = some (w', some q)) :
    LeastOf w.perQWt (fun j => w.contends len j = true) q := by
  obtain ⟨-, hleast⟩ := leastBackoff_isLeast hfits hi
  have hlen : len (w.leastBackoff len).2 ≠ 0 := (contends_iff.mp hleast.1).2
  rw [getQueueNum_of_len rfl hlen] at h
  have hq := congrArg Prod.snd (Option.some.inj h)
  rw [← Option.some.inj hq]
  exact hleast

/-- A round in which nothing contends leaves the queues with packets at their original weights. -/
theorem adjust_of_not_contends (hnone : ∀ i, w.contends len i = false) {i : DataQ} (hi : len i ≠ 0) :
    (w.adjust len 0 bkQSta).perQWt i = w.wmeOrgQ i := by
  have hold : w.pktContended i = false := by simpa [contends, hi] using hnone i
  have hfresh : w.isFresh len bkQSta i = true := by simp [isFresh, hi, hold]
  simp only [adjust, if_neg hi, if_pos hfresh]

theorem fits_adjust_of_not_contends (hnone : ∀ i, w.contends len i = false) (hfits : Fits w.wmeOrgQ) :
    Fits (w.adjust len 0 bkQSta).perQWt := by
  intro i
  by_cases hi : len i = 0
  · have hzero : (w.adjust len 0 bkQSta).perQWt i = 0 := if_pos hi
    rw [hzero]
    decide
  · rw [adjust_of_not_contends hnone hi]
    exact hfits i

theorem getQueueNum_isLeast_again {w' : Wmm} (hfits : Fits w.wmeOrgQ) (hnone : ∀ i, w.contends len i = false)
    (hempty : len bkQSta = 0) (h : getQueueNum len 2 w = some (w', some q)) :
    LeastOf w.wmeOrgQ (fun j => len j ≠ 0) q := by
  have hbk : w.leastBackoff len = (0, bkQSta) := by
    rcases leastBackoff_cases len w with ⟨-, hbk⟩ | hc
    · exact hbk
    · rw [hnone] at hc
      cases hc
  have hadj : Adjusted len w (w.adjust len 0 bkQSta) := adjusted 0 bkQSta
  rw [getQueueNum, hbk] at h
  dsimp only at h
  rw [if_neg (not_not.mpr hempty)] at h
  split_ifs at h with hany
  · obtain ⟨i, -, hfresh⟩ := List.any_eq_true.mp hany
    have hi : len i ≠ 0 := by
      rw [isFresh, Bool.and_eq_true] at hfresh
      simpa using hfresh.1
    obtain ⟨hq, hleast⟩ := getQueueNum_isLeast (fits_adjust_of_not_contends hnone hfits)
      (hadj.contends_iff.mpr hi) h
    have hqlen := hadj.contends_iff.mp hq
    refine ⟨hqlen, fun j hj => ?_⟩
    have hprec := hleast j (hadj.contends_iff.mpr hj)
    rw [Precedes, adjust_of_not_contends hnone hqlen, adjust_of_not_contends hnone hj] at hprec
    exact hprec
  · cases congrArg Prod.snd (Option.some.inj h)

/-- The queue with the least back-off: of those that contend with packets, or, where there is none, of all
that have packets, which then start with their original weights. -/
def LeastBackoff (len : DataQ → Nat) (w : Wmm) (q : DataQ) : Prop :=
  ((∃ i, w.contends len i = true) → LeastOf w.perQWt (fun i => w.contends len i = true) q) ∧
    ((∀ i, w.contends len i = false) → LeastOf w.wmeOrgQ (fun i => len i ≠ 0) q)

theorem getQueueNum_of_determine (hcnt : w.pktCnt = 0)
    (h : (w.coreDetermineHalQueue len 0).2 = some (.data q)) :
    ∃ w', getQueueNum len 2 w = some (w', some q) := by
  obtain ⟨w', o, hget, -, -⟩ := getQueueNum_eq_some len w 0
  rw [coreDetermineHalQueue, if_neg (by decide), if_neg (not_not.mpr hcnt), hget] at h
  cases o with
  | none => cases h
  | some i =>
    have hi : SoftQ.data i = .data q := Option.some.inj h
    exact ⟨w', by rw [hget, SoftQ.data.inj hi]⟩

/-- Where nothing contends `BK_Q_STA` is taken unseen if it has packets, so the least back-off is found
just when something contends, `BK_Q_STA` is empty or its weight is least anyway. -/
theorem determine_leastBackoff_iff (hwt : Fits w.perQWt) (horg : Fits w.wmeOrgQ) (hcnt : w.pktCnt = 0)
    (h : (w.coreDetermineHalQueue len 0).2 = some (.data q)) :
    LeastBackoff len w q ↔ (∃ i, w.contends len i = true) ∨ len bkQSta = 0 ∨
      ∀ i, len i ≠ 0 → w.wmeOrgQ bkQSta ≤ w.wmeOrgQ i := by
  obtain ⟨w', hget⟩ := getQueueNum_of_determine hcnt h
  by_cases hcont : ∃ i, w.contends len i = true
  · obtain ⟨i, hi⟩ := hcont
    refine iff_of_true ⟨fun _ => getQueueNum_isLeast hwt hi hget, fun hnone => ?_⟩ (.inl ⟨i, hi⟩)
    rw [hnone i] at hi
    cases hi
  · have hnone : ∀ i, w.contends len i = false := fun i => Bool.eq_false_iff.mpr fun hi => hcont ⟨i, hi⟩
    by_cases hempty : len bkQSta = 0
    · have hleast := getQueueNum_isLeast_again horg hnone hempty hget
      exact iff_of_true ⟨fun hi => absurd hi hcont, fun _ => hleast⟩ (.inr (.inl hempty))
    · have hbk : q = bkQSta := by
        obtain ⟨w'', o, hget', -, hwins⟩ := getQueueNum_eq_some len w 0
        rw [hget] at hget'
        cases hget'
        cases hwins with
        | some _ _ hbk => exact hbk hnone hempty
      subst hbk
      constructor
      · intro hleast
        exact .inr (.inr fun i hi => ((hleast.2 hnone).2 i hi).le)
      · rintro (hi | hzero | hall)
        · exact absurd hi hcont
        · exact absurd hzero hempty
        · refine ⟨fun hi => absurd hi hcont, fun _ => ⟨hempty, fun i hi => ?_⟩⟩
          exact (hall i hi).lt_or_eq.imp_right fun heq => ⟨heq, Fin.zero_le i⟩

def bkAndVo (i : DataQ) : Nat := if i = bkQSta ∨ i = voQSta then 1 else 0

/-- After `onebox_set_contention_vals` the background packet goes before the voice packet. -/
theorem determine_background_first :
    voiceStart.wmm.pktCnt = 0 ∧ (∀ i, 0 ≤ voiceStart.wmm.perQWt i ∧ voiceStart.wmm.perQWt i ≤ 255) ∧
      (voiceStart.wmm.coreDetermineHalQueue bkAndVo 0).2 = some (.data bkQSta) ∧
      ¬ LeastBackoff bkAndVo voiceStart.wmm bkQSta := by
  refine ⟨rfl, by decide, by decide, fun h => ?_⟩
  have hprec := (h.2 fun _ => rfl).2 voQSta (by decide)
  exact absurd hprec.le (by decide)

def viAndVo (i : DataQ) : Nat := if i = viQSta ∨ i = voQSta then 1 else 0

/-- Video and voice have equal weights here, and the lower number goes first. -/
theorem determine_leastBackoff_tie :
    (voiceStart.wmm.coreDetermineHalQueue viAndVo 0).2 = some (.data viQSta) ∧
      LeastBackoff viAndVo voiceStart.wmm viQSta := by
  have hfits : Fits voiceStart.wmm.perQWt := by
    unfold Fits
    decide
  have hvi : (voiceStart.wmm.coreDetermineHalQueue viAndVo 0).2 = some (.data viQSta) := by decide
  exact ⟨hvi, (determine_leastBackoff_iff hfits hfits rfl hvi).mpr (.inr (.inl rfl))⟩

end Wmm

end Onebox
