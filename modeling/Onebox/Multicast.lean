import Mathlib

/-! The multicast frames that `send_beacon` takes from `rv_mcastq` after a DTIM beacon, and the flags that
tell the device whether more of them follow. -/

namespace Onebox

/-- A frame of `rv_mcastq`, with the flags `MORE_DATA` and `LAST_BCAST` of its control block. -/
structure McastFrame (α : Type) where
  body : α
  moreData : Bool
  lastBcast : Bool
  deriving DecidableEq, Repr

/-- The buffer status as the adapter keeps it. -/
structure BufStatus where
  mgmtBufferFull : Bool
  bufferFull : Bool
  semiBufferFull : Bool
  deriving DecidableEq, Repr

def BufStatus.ofReg (r : BitVec 8) : BufStatus := ⟨r.getLsbD 2, r.getLsbD 1, r.getLsbD 0⟩

structure McastOut (α : Type) where
  status : BufStatus
  beacon : Bool
  sent : List (McastFrame α)
  rest : List (McastFrame α)
  deriving DecidableEq, Repr

/-- One call. `reads` has the buffer status registers as they are read, `none` where a read fails. -/
structure BeaconCall (α : Type) where
  len : Nat
  alloc : Bool
  extndSize : BitVec 2
  status : BufStatus
  dtimBeacon : Bool
  reads : Nat → Option (BitVec 8)
  mcastq : List (McastFrame α)

section Model

variable {α : Type}

/-- The flags of a frame that leaves `n` others in the queue, where lengths are of type `int`. -/
def McastFrame.flagged (f : McastFrame α) (n : Nat) : McastFrame α :=
  if (n : Int) - 1 > 0 then { f with moreData := true }
  else { f with moreData := false, lastBcast := true }

/-- The loop after the beacon, with the variable `i`. -/
def mcastLoop (reads : Nat → Option (BitVec 8)) : Nat → BufStatus → List (McastFrame α) → McastOut α
  | _, b, [] => ⟨b, true, [], []⟩
  | i, b, f :: q =>
    if 3 < i then ⟨b, true, [], f :: q⟩
    else match reads i with
      | none => ⟨b, true, [], f :: q⟩
      | some r =>
        if (BufStatus.ofReg r).mgmtBufferFull then ⟨.ofReg r, true, [], f :: q⟩
        else
          let out := mcastLoop reads (i + 1) (.ofReg r) q
          { out with sent := f.flagged q.length :: out.sent }

namespace BeaconCall

variable (c : BeaconCall α)

/-- The call comes to the beacon: 506 and 512 are the two limits of its length. -/
def loads : Bool :=
  c.len ≤ 506 && !c.status.mgmtBufferFull && c.alloc && c.len + 16 + c.extndSize.toNat ≤ 512

def sendBeacon : McastOut α :=
  if !c.loads then ⟨c.status, false, [], c.mcastq⟩
  else if c.dtimBeacon then mcastLoop c.reads 0 c.status c.mcastq
  else ⟨c.status, true, [], c.mcastq⟩

/-- A read that lets a frame out. -/
def lets (reads : Nat → Option (BitVec 8)) (i : Nat) : Bool := (reads i).any fun r => !r.getLsbD 2

/-- How many frames go out: one for each of the first four reads up to one that does not let it. -/
def count : Nat :=
  if c.loads && c.dtimBeacon then min c.mcastq.length ((List.range 4).takeWhile (lets c.reads)).length else 0

end BeaconCall

/-- What a loop that lets out `k` frames leaves and sends. -/
structure Delivers (q : List (McastFrame α)) (k : Nat) (out : McastOut α) : Prop where
  rest : out.rest = q.drop k
  length : out.sent.length = k
  sent : ∀ j < k, out.sent[j]? = (q[j]?).map fun f => f.flagged (q.length - (j + 1))

end Model

section Spec

variable {α : Type} {reads : Nat → Option (BitVec 8)}

theorem delivers_none (q : List (McastFrame α)) (b : BufStatus) (l : Bool) : Delivers q 0 ⟨b, l, [], q⟩ :=
  ⟨rfl, rfl, fun j hj => absurd hj (Nat.not_lt_zero j)⟩

theorem Delivers.cons {f : McastFrame α} {q : List (McastFrame α)} {k : Nat} {out : McastOut α}
    (h : Delivers q k out) :
    Delivers (f :: q) (k + 1) { out with sent := f.flagged q.length :: out.sent } := by
  refine ⟨h.rest, congrArg (· + 1) h.length, fun j hj => ?_⟩
  cases j with
  | zero => rfl
  | succ j =>
    have hsent := h.sent j (by omega)
    simp only [List.getElem?_cons_succ, List.length_cons, Nat.add_sub_add_right]
    exact hsent

/-- The loop lets out one frame for each read from `i` on, up to the fourth. -/
theorem delivers_mcastLoop (reads : Nat → Option (BitVec 8)) (q : List (McastFrame α)) (i : Nat)
    (b : BufStatus) :
    Delivers q (min q.length ((List.range' i (4 - i)).takeWhile (BeaconCall.lets reads)).length)
      (mcastLoop reads i b q) := by
  induction q generalizing i b with
  | nil =>
    rw [List.length_nil, Nat.zero_min]
    exact delivers_none [] b true
  | cons f q ih =>
    rw [mcastLoop]
    by_cases hi : 3 < i
    · rw [if_pos hi, show 4 - i = 0 by omega]
      exact delivers_none _ _ _
    · rw [if_neg hi, show 4 - i = (4 - (i + 1)) + 1 by omega, List.range'_succ, List.takeWhile_cons]
      have hlets : BeaconCall.lets reads i = (reads i).any fun r => !r.getLsbD 2 := rfl
      rw [hlets]
      cases reads i with
      | none => exact delivers_none _ _ _
      | some r =>
        by_cases hfull : (BufStatus.ofReg r).mgmtBufferFull = true
        · have hno : ¬ (some r).any (fun r => !r.getLsbD 2) = true := by
            simpa [BufStatus.ofReg] using hfull
          rw [if_neg hno]
          dsimp only
          rw [if_pos hfull]
          exact delivers_none _ _ _
        · have hyes : (some r).any (fun r => !r.getLsbD 2) = true := by
            simpa [BufStatus.ofReg] using hfull
          rw [if_pos hyes, List.length_cons, List.length_cons, Nat.add_min_add_right]
          dsimp only
          rw [if_neg hfull]
          exact (ih (i + 1) _).cons

theorem delivers_sendBeacon (c : BeaconCall α) : Delivers c.mcastq c.count c.sendBeacon := by
  rw [BeaconCall.sendBeacon, BeaconCall.count]
  cases c.loads with
  | false => exact delivers_none _ _ _
  | true =>
    cases c.dtimBeacon with
    | false => exact delivers_none _ _ _
    | true => exact delivers_mcastLoop c.reads c.mcastq 0 c.status

theorem BeaconCall.count_le (c : BeaconCall α) : c.count ≤ 4 ∧ c.count ≤ c.mcastq.length := by
  have htake : ((List.range 4).takeWhile (lets c.reads)).length ≤ 4 :=
    (List.takeWhile_sublist _).length_le
  rw [count]
  split_ifs <;> omega

theorem McastFrame.body_flagged (f : McastFrame α) (n : Nat) : (f.flagged n).body = f.body := by
  rw [flagged]
  split_ifs <;> rfl

/-- The flags that are meant, of a frame with `n` others behind it. -/
def McastFrame.FlagsRight (f : McastFrame α) (n : Nat) : Prop :=
  (f.moreData = true ↔ n ≠ 0) ∧ (f.lastBcast = true ↔ n = 0)

theorem flagsRight_flagged (f : McastFrame α) (n : Nat) :
    (f.flagged n).FlagsRight n ↔ n ≠ 1 ∧ (f.lastBcast = true → n = 0) := by
  rw [McastFrame.FlagsRight, McastFrame.flagged]
  by_cases hn : (n : Int) - 1 > 0
  · rw [if_pos hn]
    have h0 : n ≠ 0 := by omega
    have h1 : n ≠ 1 := by omega
    simp [h0, h1]
  · rw [if_neg hn]
    simp only [Bool.false_eq_true, false_iff, not_not, true_iff, and_self]
    omega

namespace Delivers

variable {q : List (McastFrame α)} {k : Nat} {out : McastOut α}

theorem getElem?_sent (h : Delivers q k out) (hk : k ≤ q.length) {j : Nat} (hj : j < k) :
    ∃ f, q[j]? = some f ∧ out.sent[j]? = some (f.flagged (q.length - (j + 1))) := by
  have hget : q[j]? = some q[j] := List.getElem?_eq_getElem (by omega)
  refine ⟨_, hget, ?_⟩
  rw [h.sent j hj, hget]
  rfl

theorem bodies (h : Delivers q k out) (hk : k ≤ q.length) :
    out.sent.map McastFrame.body = (q.take k).map McastFrame.body := by
  apply List.ext_getElem?
  intro j
  rw [List.getElem?_map, List.getElem?_map]
  by_cases hj : j < k
  · obtain ⟨f, hf, hs⟩ := h.getElem?_sent hk hj
    rw [List.getElem?_take_of_lt hj, hs, hf]
    exact congrArg some (f.body_flagged _)
  · have hlong : out.sent.length ≤ j := by
      rw [h.length]
      omega
    have hlong' : (q.take k).length ≤ j := by
      rw [List.length_take]
      omega
    rw [List.getElem?_eq_none hlong, List.getElem?_eq_none hlong']

theorem flagsRight_iff (h : Delivers q k out) (hk : k ≤ q.length) :
    (∀ j (f : McastFrame α), out.sent[j]? = some f → f.FlagsRight (q.length - (j + 1))) ↔
      ∀ j < k, ∀ f, q[j]? = some f →
        q.length - (j + 1) ≠ 1 ∧ (f.lastBcast = true → q.length - (j + 1) = 0) := by
  constructor
  · intro hall j hj f hf
    obtain ⟨f', hf', hs⟩ := h.getElem?_sent hk hj
    rw [hf] at hf'
    cases hf'
    exact (flagsRight_flagged f _).mp (hall j _ hs)
  · intro hall j f hf
    have hj : j < k := by
      rw [← h.length]
      exact (List.getElem?_eq_some_iff.mp hf).1
    obtain ⟨f', hf', hs⟩ := h.getElem?_sent hk hj
    rw [hs] at hf
    cases hf
    exact (flagsRight_flagged f' _).mpr (hall j hj f' hf')

end Delivers

/-- The frames that go out are the first ones of the queue, in order and four at most. Their flags are right
just when the last frame but one is not among them, and none with others behind it came in with
`LAST_BCAST`. -/
theorem sendBeacon_mcast (c : BeaconCall α) :
    (c.count ≤ 4 ∧ c.sendBeacon.sent.map McastFrame.body = (c.mcastq.take c.count).map McastFrame.body ∧
      c.sendBeacon.rest = c.mcastq.drop c.count) ∧
      ((∀ j (f : McastFrame α), c.sendBeacon.sent[j]? = some f → f.FlagsRight (c.mcastq.length - (j + 1))) ↔
        (c.mcastq.length < 2 ∨ c.count + 1 < c.mcastq.length) ∧
          ∀ j < c.count, ∀ f, c.mcastq[j]? = some f → f.lastBcast = true → j + 1 = c.mcastq.length) := by
  have h := delivers_sendBeacon c
  obtain ⟨hfour, hlen⟩ := c.count_le
  refine ⟨⟨hfour, h.bodies hlen, h.rest⟩, (h.flagsRight_iff hlen).trans ⟨fun hall => ?_, ?_⟩⟩
  · refine ⟨?_, fun j hj f hf hlast => ?_⟩
    · by_contra hbad
      obtain ⟨f, hf, -⟩ := h.getElem?_sent hlen (show c.mcastq.length - 2 < c.count by omega)
      exact (hall _ (by omega) f hf).1 (by omega)
    · have hzero := (hall j hj f hf).2 hlast
      omega
  · rintro ⟨hshort, hlast⟩ j hj f hf
    refine ⟨by omega, fun hl => ?_⟩
    have hend := hlast j hj f hf hl
    omega

/-- Two frames, and buffers that are never full. -/
def twoFrames : BeaconCall Nat :=
  { len := 100, alloc := true, extndSize := 0, status := ⟨false, false, false⟩, dtimBeacon := true,
    reads := fun _ => some 0, mcastq := [⟨1, false, false⟩, ⟨2, false, false⟩] }

/-- The first is sent as the last one while the second waits behind it. -/
theorem twoFrames_first_is_last :
    ∃ f, twoFrames.sendBeacon.sent[0]? = some f ∧ f.lastBcast = true ∧
      ¬ f.FlagsRight (twoFrames.mcastq.length - 1) := by
  refine ⟨⟨1, false, true⟩, by decide, rfl, fun h => ?_⟩
  exact absurd (h.2.mp rfl) (by decide)

end Spec

end Onebox
