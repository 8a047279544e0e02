import Onebox.DataPath

/-! `core_determine_hal_queue`: the management queue comes first, then the rest of a
burst, then the data queue that wins the contention. -/

namespace Onebox

inductive SoftQ
  | data (q : DataQ)
  | mgmt
  deriving DecidableEq, Repr

def bkQSta : DataQ := WmeAc.bk.queue .sta

def viQSta : DataQ := WmeAc.vi.queue .sta

def voQSta : DataQ := WmeAc.vo.queue .sta

def bkQAp : DataQ := WmeAc.bk.queue .hostap

/-- What the adapter keeps for the contention, and the WME parameters that decide about bursts. -/
structure Wmm where
  perQWt : DataQ → Int
  wmeOrgQ : DataQ → Int
  pktContended : DataQ → Bool
  selectedQnum : DataQ
  pktCnt : Nat
  voAcm : Bool
  viAcm : Bool
  viTxopLimit : BitVec 8

/-- What is left of an `int` in the `uint8` variable `min`. -/
def toUint8 (x : Int) : Int := x % 256

namespace Wmm

variable (len : DataQ → Nat) (w : Wmm)

def contends (q : DataQ) : Bool := w.pktContended q && len q ≠ 0

def lower (c : Int × DataQ) (q : DataQ) : Int × DataQ :=
  if w.contends len q && w.perQWt q < c.1 then (toUint8 (w.perQWt q), q) else c

/-- `min` and `q_num` after the first two loops. -/
def leastBackoff : Int × DataQ :=
  match (List.finRange 8).find? (w.contends len) with
  | none => (0, bkQSta)
  | some q => ((List.finRange 8).drop q.val).foldl (w.lower len) (toUint8 (w.perQWt q), q)

/-- The chosen queue contends afresh, as the new ones do. -/
def isFresh (q i : DataQ) : Bool := len i ≠ 0 && (i = q || !w.pktContended i)

def adjust (min : Int) (q : DataQ) : Wmm :=
  { w with
    perQWt := fun i =>
      if len i = 0 then 0
      else if w.isFresh len q i then w.wmeOrgQ i
      else if min < w.perQWt i then w.perQWt i - min
      else 0
    pktContended := fun i => len i ≠ 0 }

/-- The code from `GET_QUEUE_NUM` on, with fuel for the `goto`. -/
def getQueueNum : Nat → Wmm → Option (Wmm × Option DataQ)
  | 0, _ => none
  | n + 1, w =>
    let c := w.leastBackoff len
    let w' := w.adjust len c.1 c.2
    if len c.2 ≠ 0 then some (w', some c.2)
    else if (List.finRange 8).any (w.isFresh len c.2) then getQueueNum n w'
    else some (w', none)

def burstLen (q : DataQ) : Nat :=
  if q = voQSta then if w.voAcm then 1 else 6
  else if w.viAcm then 1 else w.viTxopLimit.toNat * 32 / 800

def select (q : DataQ) : Wmm :=
  { w with
    selectedQnum := q
    pktCnt := if q = voQSta ∨ q = viQSta then min (len q) (w.burstLen q) - 1 else w.pktCnt }

/-- By `getQueueNum_eq_some` two rounds are enough. -/
def coreDetermineHalQueue (mgmtLen : Nat) : Wmm × Option SoftQ :=
  if mgmtLen ≠ 0 then (w, some .mgmt)
  else if w.pktCnt ≠ 0 then ({ w with pktCnt := w.pktCnt - 1 }, some (.data w.selectedQnum))
  else match getQueueNum len 2 w with
    | some (w', some q) => (w'.select len q, some (.data q))
    | some (w', none) => (w', none)
    | none => (w, none)

variable {len w} {w' : Wmm} {q : DataQ} {mgmtLen : Nat}

theorem contends_iff : w.contends len q = true ↔ w.pktContended q = true ∧ len q ≠ 0 := by
  simp [contends]

theorem foldl_lower_contends (l : List DataQ) {c : Int × DataQ} (hc : w.contends len c.2 = true) :
    w.contends len (l.foldl (w.lower len) c).2 = true := by
  induction l generalizing c with
  | nil => exact hc
  | cons i l ih =>
    apply ih
    rw [lower]
    split
    case isTrue h =>
      rw [Bool.and_eq_true] at h
      exact h.1
    case isFalse => exact hc

/-- A queue that contends and has packets is chosen where there is one, and `BK_Q_STA` otherwise. -/
theorem leastBackoff_cases (len : DataQ → Nat) (w : Wmm) :
    (∀ i, w.contends len i = false) ∧ w.leastBackoff len = (0, bkQSta) ∨
      w.contends len (w.leastBackoff len).2 = true := by
  rw [leastBackoff]
  cases h : (List.finRange 8).find? (w.contends len) with
  | none =>
    left
    refine ⟨fun i => ?_, rfl⟩
    have hi := List.find?_eq_none.mp h i (List.mem_finRange i)
    simpa using hi
  | some q =>
    right
    exact foldl_lower_contends _ (List.find?_some h)

theorem leastBackoff_of_contends (h : w.contends len q = true) :
    w.contends len (w.leastBackoff len).2 = true := by
  rcases leastBackoff_cases len w with ⟨hnone, -⟩ | hc
  · rw [hnone q] at h
    cases h
  · exact hc

/-- What one choice leaves: the queues with packets contend, and a burst that is going on stays. -/
structure Adjusted (len : DataQ → Nat) (w w' : Wmm) : Prop where
  pktContended : w'.pktContended = fun i => decide (len i ≠ 0)
  pktCnt : w'.pktCnt = w.pktCnt

theorem adjusted (min : Int) (q : DataQ) : Adjusted len w (w.adjust len min q) := ⟨rfl, rfl⟩

theorem Adjusted.contends_iff (h : Adjusted len w w') : w'.contends len q = true ↔ len q ≠ 0 := by
  rw [Wmm.contends_iff, h.pktContended]
  simp

/-- The queue that `GET_QUEUE_NUM` comes to, if any has packets. -/
inductive Wins (len : DataQ → Nat) (w : Wmm) : Option DataQ → Prop
  | none (h : ∀ i, len i = 0) : Wins len w none
  | some {q : DataQ} (hlen : len q ≠ 0) (hcont : ∀ i, w.contends len i = true → w.contends len q = true)
      (hbk : (∀ i, w.contends len i = false) → len bkQSta ≠ 0 → q = bkQSta) : Wins len w (some q)

theorem getQueueNum_of_len {n : Nat} {min : Int} (h : w.leastBackoff len = (min, q)) (hlen : len q ≠ 0) :
    getQueueNum len (n + 1) w = some (w.adjust len min q, some q) := by
  rw [getQueueNum, h, if_pos hlen]

theorem getQueueNum_of_contends {n : Nat} (h : w.contends len q = true) :
    ∃ w' i, getQueueNum len (n + 1) w = some (w', some i) ∧ Adjusted len w w' ∧ w.contends len i = true := by
  have hc := leastBackoff_of_contends h
  have hlen : len (w.leastBackoff len).2 ≠ 0 := (contends_iff.mp hc).2
  exact ⟨_, _, getQueueNum_of_len rfl hlen, adjusted _ _, hc⟩

/-- Nothing contends and `BK_Q_STA` is empty: after one round the queues with packets contend, and the
next round finds one of them. -/
theorem getQueueNum_again {n : Nat} (hnone : ∀ i, w.contends len i = false)
    (hbk : w.leastBackoff len = (0, bkQSta)) (hempty : len bkQSta = 0) (hq : len q ≠ 0) :
    ∃ w' i, getQueueNum len (n + 2) w = some (w', some i) ∧ Adjusted len w w' ∧ len i ≠ 0 := by
  have hold : w.pktContended q = false := by simpa [contends, hq] using hnone q
  have hfresh : (List.finRange 8).any (w.isFresh len bkQSta) = true :=
    List.any_eq_true.mpr ⟨q, List.mem_finRange q, by simp [isFresh, hq, hold]⟩
  have hadj : Adjusted len w (w.adjust len 0 bkQSta) := adjusted 0 bkQSta
  obtain ⟨w', i, hget, hadj', hi⟩ := getQueueNum_of_contends (n := n) (hadj.contends_iff.mpr hq)
  refine ⟨w', i, ?_, ⟨hadj'.pktContended, hadj'.pktCnt⟩, hadj.contends_iff.mp hi⟩
  rw [getQueueNum, hbk]
  simp [hempty, hfresh, hget]

theorem getQueueNum_eq_some (len : DataQ → Nat) (w : Wmm) (n : Nat) :
    ∃ w' o, getQueueNum len (n + 2) w = some (w', o) ∧ Adjusted len w w' ∧ Wins len w o := by
  rcases leastBackoff_cases len w with ⟨hnone, hbk⟩ | hc
  · have hcont : ∀ {q}, ∀ i, w.contends len i = true → w.contends len q = true := fun i hi => by
      rw [hnone i] at hi
      cases hi
    by_cases hempty : len bkQSta = 0
    · by_cases hall : ∀ i, len i = 0
      · refine ⟨w.adjust len 0 bkQSta, none, ?_, adjusted _ _, .none hall⟩
        rw [getQueueNum, hbk]
        simp [isFresh, hall]
      · push Not at hall
        obtain ⟨q, hq⟩ := hall
        obtain ⟨w', i, hget, hadj, hi⟩ := getQueueNum_again (n := n) hnone hbk hempty hq
        exact ⟨w', some i, hget, hadj, .some hi hcont fun _ h => absurd hempty h⟩
    · exact ⟨_, _, getQueueNum_of_len hbk hempty, adjusted _ _, .some hempty hcont fun _ _ => rfl⟩
  · have hlen : len (w.leastBackoff len).2 ≠ 0 := (contends_iff.mp hc).2
    refine ⟨_, _, getQueueNum_of_len rfl hlen, adjusted _ _, .some hlen (fun _ _ => hc) fun hnone => ?_⟩
    rw [hnone] at hc
    cases hc

/-- What `core_determine_hal_queue` does. -/
inductive Determines (len : DataQ → Nat) (mgmtLen : Nat) (w : Wmm) : Wmm → Option SoftQ → Prop
  | mgmt (h : mgmtLen ≠ 0) : Determines len mgmtLen w w (some .mgmt)
  | burst (h : mgmtLen = 0) (hcnt : w.pktCnt ≠ 0) :
      Determines len mgmtLen w { w with pktCnt := w.pktCnt - 1 } (some (.data w.selectedQnum))
  | idle {w' : Wmm} (h : mgmtLen = 0) (hcnt : w.pktCnt = 0) (hadj : Adjusted len w w') (hw : Wins len w none) :
      Determines len mgmtLen w w' none
  | chosen {w' : Wmm} {q : DataQ} (h : mgmtLen = 0) (hcnt : w.pktCnt = 0) (hadj : Adjusted len w w')
      (hw : Wins len w (some q)) : Determines len mgmtLen w (w'.select len q) (some (.data q))

theorem coreDetermineHalQueue_determines (len : DataQ → Nat) (w : Wmm) (mgmtLen : Nat) :
    Determines len mgmtLen w (w.coreDetermineHalQueue len mgmtLen).1 (w.coreDetermineHalQueue len mgmtLen).2 := by
  rw [coreDetermineHalQueue]
  split
  case isTrue h => exact .mgmt h
  case isFalse h =>
    have hm : mgmtLen = 0 := not_not.mp h
    split
    case isTrue hcnt => exact .burst hm hcnt
    case isFalse hcnt =>
      obtain ⟨w', o, hget, hadj, hwins⟩ := getQueueNum_eq_some len w 0
      rw [hget]
      cases o with
      | none => exact .idle hm (not_not.mp hcnt) hadj hwins
      | some q => exact .chosen hm (not_not.mp hcnt) hadj hwins

/-- A burst is never longer than its queue, the packet of now apart. -/
theorem select_pktCnt_lt (hlen : len q ≠ 0) (hcnt : w.pktCnt = 0) : (w.select len q).pktCnt < len q := by
  rw [select]
  dsimp only
  split
  · have hmin := Nat.min_le_left (len q) (w.burstLen q)
    omega
  · omega

theorem Determines.pktCnt_le {o : Option SoftQ} (h : Determines len mgmtLen w w' o)
    (hcnt : w.pktCnt ≤ len w.selectedQnum) : w'.pktCnt ≤ len w'.selectedQnum := by
  cases h with
  | mgmt => exact hcnt
  | burst => exact (Nat.sub_le ..).trans hcnt
  | idle _ hzero hadj => simp [hadj.pktCnt, hzero]
  | chosen _ hzero hadj hw =>
    cases hw with
    | some hlen => exact (select_pktCnt_lt hlen (hadj.pktCnt.trans hzero)).le

theorem Determines.mgmt_ne_zero (h : Determines len mgmtLen w w' (some .mgmt)) : mgmtLen ≠ 0 := by
  cases h with
  | mgmt hm => exact hm

theorem Determines.data (h : Determines len mgmtLen w w' (some (.data q)))
    (hcnt : w.pktCnt ≤ len w.selectedQnum) : mgmtLen = 0 ∧ w'.selectedQnum = q ∧ w'.pktCnt < len q := by
  cases h with
  | burst hm hne => exact ⟨hm, rfl, by dsimp only; omega⟩
  | chosen hm hzero hadj hw =>
    cases hw with
    | some hlen => exact ⟨hm, rfl, select_pktCnt_lt hlen (hadj.pktCnt.trans hzero)⟩

theorem Determines.empty (h : Determines len mgmtLen w w' none) : mgmtLen = 0 ∧ ∀ i, len i = 0 := by
  cases h with
  | idle hm _ _ hw =>
    cases hw with
    | none hlen => exact ⟨hm, hlen⟩

end Wmm

end Onebox
