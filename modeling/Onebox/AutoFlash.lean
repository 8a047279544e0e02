import Onebox.BurnPacing

/-! Calls of `auto_load_flash_content` on one adapter, one after the other: each burns an
image and reads it back with `verify_flash_content`, while the handler of the flash
confirms runs beside it. -/

namespace Onebox

open ByteMem Machine

namespace Bus

def flashReadChunkSize : Bus → Nat
  | .sdio => 2048
  | .usb => 2044

/-- `num_loops` of `verify_flash_content`, and where each of the reads begins and how long it is. -/
def numReads (bus : Bus) (size : Nat) : Nat := Chunks.count bus.flashReadChunkSize size

def readOffset (bus : Bus) (idx : Nat) : Nat := idx * bus.flashReadChunkSize

def readLen (bus : Bus) (size idx : Nat) : Nat := Chunks.len bus.flashReadChunkSize size idx

theorem flashReadChunkSize_pos (bus : Bus) : 0 < bus.flashReadChunkSize := by cases bus <;> decide

theorem readOffset_add_readLen_le {bus : Bus} {size idx : Nat} (h : idx < bus.numReads size) :
    bus.readOffset idx + bus.readLen size idx ≤ size := by
  have hlt := (Chunks.lt_count_iff bus.flashReadChunkSize_pos).mp h
  have hle : bus.readLen size idx ≤ size - bus.readOffset idx := Nat.min_le_left _ _
  rw [readOffset] at hle ⊢
  omega

end Bus

structure FlashImage where
  bytes : Nat → BitVec 8
  size : Nat

namespace FlashImage

variable (image : FlashImage)

def start : Nat := flashStartAddress image.bytes

/-- The checks of `auto_load_flash_content`; the sum is a `uint32`. -/
def accepted : Bool :=
  image.size ≤ 400 * 1024 && 4 * 1024 < image.start && image.start % (4 * 1024) = 0 &&
    (image.start + image.size) % 2 ^ 32 ≤ 4 * 1024 * 1024

/-- The address in the flash, where offsets are of 32 bits. -/
def address (i : Nat) : BitVec 32 := BitVec.ofNat 32 image.start + BitVec.ofNat 32 i

end FlashImage

inductive AutoStage
  | idle
  | burning
  | readSend (idx : Nat)
  | readReset (idx : Nat)
  | readWait (idx : Nat)
  deriving DecidableEq, Repr

/-- The adapter with the flash of the device. `readPending` stands for a read request that the device has
yet to answer; `results` has what the calls returned, newest first. -/
structure AutoFlash where
  bus : Bus
  stage : AutoStage
  burn : Burn
  image : FlashImage
  flash : BitVec 32 → BitVec 8
  readPending : Bool
  dataRcvPacket : Nat → BitVec 8
  results : List Bool

inductive AutoAct
  | call (image : FlashImage)
  | burn (a : BurnAct)
  | readSend (ok : Bool)
  | readReset
  | readConfirm
  | readWake
  | readTimeout

def BurnAct.ofHandler : BurnAct → Bool
  | .confirm | .notify => true
  | _ => false

namespace AutoFlash

variable (s : AutoFlash)

def finish (ok : Bool) : AutoFlash := { s with stage := .idle, results := ok :: s.results }

def verifyFrom (idx : Nat) : AutoFlash :=
  if idx < s.bus.numReads s.image.size then { s with stage := .readSend idx } else s.finish true

/-- The device carries out the requests in order, so a write is in the flash before a later read. -/
def flashAfter (a : BurnAct) : BitVec 32 → BitVec 8 :=
  match a, s.burn.pc with
  | .write true, .write idx =>
    let offset := idx * flashWriteChunkSize
    wrapCopy s.flash (s.image.address offset) s.image.bytes offset
      (Chunks.len flashWriteChunkSize s.image.size idx)
  | _, _ => s.flash

def afterBurn (a : BurnAct) (burn : Burn) : AutoFlash :=
  let t := { s with burn, flash := s.flashAfter a }
  match s.stage, burn.pc with
  | .burning, .success => t.verifyFrom 0
  | .burning, .failure => t.finish false
  | _, _ => t

/-- `memcmp` of the chunk with what was received. -/
def matchesChunk (idx : Nat) : Bool :=
  let len := s.bus.readLen s.image.size idx
  window s.image.bytes (s.bus.readOffset idx) len = window s.dataRcvPacket 0 len

def received (idx : Nat) : Nat → BitVec 8 :=
  copy s.dataRcvPacket 0 (fun i => s.flash (s.image.address (s.bus.readOffset idx + i))) 0
    (s.bus.readLen s.image.size idx)

def step (a : AutoAct) : Option AutoFlash :=
  match a, s.stage with
  | .call image, .idle =>
    if image.accepted then
      some { s with stage := .burning, image, burn := triggerAutoFlashBurn s.burn image.size }
    else none
  | .burn a, stage =>
    if a.ofHandler ∨ stage = .burning then (s.burn.step a).map (s.afterBurn a) else none
  | .readSend ok, .readSend idx =>
    some (if ok then { s with stage := .readReset idx, readPending := true } else s.finish false)
  | .readReset, .readReset idx =>
    some { s with stage := .readWait idx, burn := { s.burn with flashEvent := false } }
  | .readConfirm, .readReset idx | .readConfirm, .readWait idx =>
    if s.readPending ∧ !s.burn.counted then
      some { s with
        readPending := false, dataRcvPacket := s.received idx, burn := { s.burn with flashEvent := true } }
    else none
  | .readWake, .readWait idx =>
    if s.burn.flashEvent then some (if s.matchesChunk idx then s.verifyFrom (idx + 1) else s.finish false)
    else none
  | .readTimeout, .readWait _ => if s.burn.drained ∧ !s.readPending then some (s.finish false) else none
  | _, _ => none

end AutoFlash

/-- An adapter that has not flashed anything yet. -/
def autoStart (bus : Bus) (flash : BitVec 32 → BitVec 8) (dataRcvPacket : Nat → BitVec 8) (flashEvent : Bool) :
    AutoFlash :=
  { bus, stage := .idle, burn := restingBurn 0 flashEvent, image := ⟨fun _ => 0, 0⟩, flash,
    readPending := false, dataRcvPacket, results := [] }

/-- A call starts with the counter at zero, the bus fails no request, no confirm is erased by a reset
that comes after it, and no reset comes between a count and its `set_event`. -/
def undisturbed (s : AutoFlash) (a : AutoAct) : Bool :=
  match a, s.stage with
  | .call _, _ => s.burn.cfmCount = 0
  | .burn a, _ => s.burn.steady a
  | .readSend ok, _ => ok
  | .readReset, _ => !s.burn.counted
  | .readConfirm, .readReset _ => false
  | _, _ => true

namespace AutoFlash

/-- The first `n` bytes of the image are in the flash. -/
def Holds (s : AutoFlash) (n : Nat) : Prop := ∀ j < n, s.flash (s.image.address j) = s.image.bytes j

/-- All chunks are confirmed, and the flash has the image. -/
structure Burnt (s : AutoFlash) (idx : Nat) : Prop where
  pc : s.burn.pc = .success
  none : s.burn.unconfirmed = 0
  holds : s.Holds s.image.size
  lt : idx < s.bus.numReads s.image.size

structure Burning (s : AutoFlash) : Prop where
  steady : s.burn.Steady
  running : s.burn.pc ≠ .success ∧ s.burn.pc ≠ .failure
  size : s.image.size ≤ 400 * 1024
  loops : s.burn.numLoops = Chunks.count flashWriteChunkSize s.image.size
  holds : s.Holds (Chunks.before flashWriteChunkSize s.image.size s.burn.written)

/-- The read request is on its way, or its answer is there. -/
def Answering (s : AutoFlash) (idx : Nat) : Prop :=
  s.readPending = true ∧ s.burn.flashEvent = false ∨
    s.readPending = false ∧ s.burn.flashEvent = true ∧ s.matchesChunk idx = true

def Fits (s : AutoFlash) : Prop :=
  match s.stage with
  | .idle => s.burn.unconfirmed = 0
  | .burning => s.Burning
  | .readSend idx => s.Burnt idx
  | .readReset idx => s.Burnt idx ∧ s.readPending = true
  | .readWait idx => s.Burnt idx ∧ s.burn.counted = false ∧ s.Answering idx

section Steps

variable {s t : AutoFlash} {idx n : Nat} {a : BurnAct} {b : Burn}

/-- What the device answers to a read of the burnt image is the chunk. -/
theorem Burnt.matches_received (h : s.Burnt idx) (ev : Bool) :
    matchesChunk { s with
      readPending := false, dataRcvPacket := s.received idx, burn := { s.burn with flashEvent := ev } } idx =
      true := by
  have hend := Bus.readOffset_add_readLen_le h.lt
  refine decide_eq_true ?_
  show window s.image.bytes (s.bus.readOffset idx) (s.bus.readLen s.image.size idx) =
    window (s.received idx) 0 (s.bus.readLen s.image.size idx)
  rw [received, window_copy]
  refine List.map_congr_left fun i hi => ?_
  have hi' := List.mem_range.mp hi
  show s.image.bytes (s.bus.readOffset idx + i) = s.flash (s.image.address (s.bus.readOffset idx + (0 + i)))
  rw [Nat.zero_add]
  exact (h.holds _ (by omega)).symm

theorem fits_verifyFrom (hpc : s.burn.pc = .success) (hnone : s.burn.unconfirmed = 0)
    (hholds : s.Holds s.image.size) : (s.verifyFrom idx).Fits := by
  rw [verifyFrom]
  split_ifs with hlt
  · exact ⟨hpc, hnone, hholds, hlt⟩
  · exact hnone

/-- A chunk written after those before it makes the image complete up to its end. -/
theorem holds_write (h : s.Burning) (hpc : s.burn.pc = .write idx) :
    Holds { s with flash := s.flashAfter (.write true) }
      (Chunks.before flashWriteChunkSize s.image.size (s.burn.written + 1)) := by
  have hplaced := h.steady.counts.placed
  simp only [Burn.Placed, hpc, h.loops, Chunks.lt_count_iff (show 0 < flashWriteChunkSize by decide)] at hplaced
  obtain ⟨hwritten, hlt⟩ := hplaced
  have hsize := h.size
  have hholds := h.holds
  rw [hwritten, Chunks.before_of_lt hlt] at hholds
  have hle : idx * flashWriteChunkSize + Chunks.len flashWriteChunkSize s.image.size idx ≤ s.image.size := by
    rw [← Chunks.before_of_lt hlt, ← Chunks.before_succ]
    exact Chunks.before_le
  intro j hj
  rw [hwritten, Chunks.before_succ, Chunks.before_of_lt hlt] at hj
  show s.flashAfter (.write true) (s.image.address j) = s.image.bytes j
  simp only [flashAfter, hpc]
  rw [FlashImage.address, FlashImage.address, wrapCopy_offset (by omega) (by omega) (by omega)]
  split_ifs with hin
  · congr 1
    omega
  · exact hholds j (by omega)

theorem Burning.holds_step (h : s.Burning) (hm : s.burn.Moves a b) :
    Holds { s with flash := s.flashAfter a } (Chunks.before flashWriteChunkSize s.image.size b.written) := by
  by_cases ha : a = .write true
  · subst ha
    cases hm with
    | write idx hpc => exact holds_write h hpc
  · rw [hm.written_eq ha]
    have hflash : s.flashAfter a = s.flash := by
      cases a with
      | write ok =>
        cases ok with
        | true => exact absurd rfl ha
        | false => rfl
      | _ => rfl
    rw [hflash]
    exact h.holds

theorem Burning.step (h : s.Burning) (hstage : s.stage = .burning) (hok : s.burn.steady a = true)
    (hb : s.burn.step a = some b) : (s.afterBurn a b).Fits := by
  have hm := Burn.moves_of_step hb
  have hsteady := h.steady.step hok hb
  have hholds := h.holds_step hm
  have hfail := h.steady.hopeful.not_failure hok hm h.running.2
  have hloops := hm.numLoops_eq.trans h.loops
  by_cases hsucc : b.pc = .success
  · have hnone := h.steady.counts.none_of_success hm h.running.1 hsucc
    have hplaced := hsteady.counts.placed
    simp only [Burn.Placed, hsucc] at hplaced
    rw [hplaced, hloops, Chunks.before_count (by decide)] at hholds
    simp only [afterBurn, hstage, hsucc]
    exact fits_verifyFrom hsucc hnone hholds
  · have hafter : s.afterBurn a b = { s with burn := b, flash := s.flashAfter a } := by
      simp only [afterBurn, hstage]
      cases hpc : b.pc with
      | success => exact absurd hpc hsucc
      | failure => exact absurd hpc hfail
      | _ => rfl
    rw [hafter, Fits]
    simp only [hstage]
    exact ⟨hsteady, ⟨hsucc, hfail⟩, h.size, hloops, hholds⟩

/-- With no chunk outstanding the handler of a write confirm can only set the event. -/
theorem handler_step (hnone : s.burn.unconfirmed = 0) (hstage : s.stage ≠ .burning)
    (ht : s.step (.burn a) = some t) :
    s.burn.counted = true ∧ t = { s with burn := { s.burn with flashEvent := true, counted := false } } := by
  simp only [step] at ht
  split_ifs at ht with hact
  obtain ⟨b, hb, rfl⟩ := Option.map_eq_some_iff.mp ht
  have hm := Burn.moves_of_step hb
  have hhandler : a.ofHandler = true := hact.resolve_right hstage
  cases hm with
  | confirm hidle hpos => omega
  | notify hcounted =>
    refine ⟨hcounted, ?_⟩
    rw [afterBurn]
    cases hs : s.stage with
    | burning => exact absurd hs hstage
    | _ => rfl
  | _ => cases hhandler

theorem Fits.burning (h : s.Fits) (hs : s.stage = .burning) : s.Burning := by
  rw [Fits, hs] at h
  exact h

theorem Fits.readSend (h : s.Fits) (hs : s.stage = .readSend idx) : s.Burnt idx := by
  rw [Fits, hs] at h
  exact h

theorem Fits.readReset (h : s.Fits) (hs : s.stage = .readReset idx) : s.Burnt idx ∧ s.readPending = true := by
  rw [Fits, hs] at h
  exact h

theorem Fits.readWait (h : s.Fits) (hs : s.stage = .readWait idx) :
    s.Burnt idx ∧ s.burn.counted = false ∧ s.Answering idx := by
  rw [Fits, hs] at h
  exact h

theorem Fits.none (h : s.Fits) (hs : s.stage ≠ .burning) : s.burn.unconfirmed = 0 := by
  cases hstage : s.stage with
  | idle =>
    rw [Fits, hstage] at h
    exact h
  | burning => exact absurd hstage hs
  | readSend idx => exact (h.readSend hstage).none
  | readReset idx => exact (h.readReset hstage).1.none
  | readWait idx => exact (h.readWait hstage).1.none

/-- What an undisturbed step does. -/
inductive Goes (s : AutoFlash) : AutoFlash → Prop
  | call (image : FlashImage) (hs : s.stage = .idle) (hcfm : s.burn.cfmCount = 0) (hacc : image.accepted = true) :
    Goes s { s with stage := .burning, image, burn := triggerAutoFlashBurn s.burn image.size }
  | burn (a : BurnAct) (b : Burn) (hs : s.stage = .burning) (hok : s.burn.steady a = true)
    (hb : s.burn.step a = some b) : Goes s (s.afterBurn a b)
  | notify (hs : s.stage ≠ .burning) (hcounted : s.burn.counted = true) :
    Goes s { s with burn := { s.burn with flashEvent := true, counted := false } }
  | send (idx : Nat) (hs : s.stage = .readSend idx) :
    Goes s { s with stage := .readReset idx, readPending := true }
  | reset (idx : Nat) (hs : s.stage = .readReset idx) (hidle : s.burn.counted = false) :
    Goes s { s with stage := .readWait idx, burn := { s.burn with flashEvent := false } }
  | confirm (idx : Nat) (hs : s.stage = .readWait idx) (hpend : s.readPending = true) :
    Goes s { s with
      readPending := false, dataRcvPacket := s.received idx, burn := { s.burn with flashEvent := true } }
  | wake (idx : Nat) (hs : s.stage = .readWait idx) (hdone : s.readPending = false) :
    Goes s (s.verifyFrom (idx + 1))

theorem Fits.goes {a : AutoAct} (h : s.Fits) (hok : undisturbed s a = true) (ht : s.step a = some t) :
    s.Goes t := by
  revert ht
  fun_cases AutoFlash.step s a
  case case1 image hs hacc =>
    rintro ⟨⟩
    exact .call image hs (by simpa [undisturbed] using hok) hacc
  case case3 a hact =>
    intro ht
    by_cases hstage : s.stage = .burning
    · obtain ⟨b, hb, rfl⟩ := Option.map_eq_some_iff.mp ht
      exact .burn a b hstage hok hb
    · have hstep : s.step (.burn a) = some t := by
        rw [AutoFlash.step, if_pos hact]
        exact ht
      obtain ⟨hcounted, rfl⟩ := handler_step (h.none hstage) hstage hstep
      exact .notify hstage hcounted
  case case5 ok idx hs =>
    rintro ⟨⟩
    have hsent : ok = true := hok
    rw [if_pos hsent]
    exact .send idx hs
  case case6 idx hs =>
    rintro ⟨⟩
    exact .reset idx hs (by simpa [undisturbed] using hok)
  case case7 idx hs hready => simp [undisturbed, hs] at hok
  case case9 idx hs hready =>
    rintro ⟨⟩
    exact .confirm idx hs hready.1
  case case11 idx hs hev =>
    rintro ⟨⟩
    rcases (h.readWait hs).2.2 with ⟨-, hclear⟩ | ⟨hdone, -, hmatch⟩
    · simp [hclear] at hev
    · rw [if_pos hmatch]
      exact .wake idx hs hdone
  case case13 idx hs hdrained =>
    -- the answer to the read is on its way or there
    rcases (h.readWait hs).2.2 with ⟨hpend, -⟩ | ⟨-, hset, -⟩
    · simp [hpend] at hdrained
    · simp [Burn.drained, hset] at hdrained
  all_goals rintro ⟨⟩

theorem Fits.step (h : s.Fits) (hg : s.Goes t) : t.Fits := by
  cases hg with
  | call image hs hcfm hacc =>
    have hsize : image.size ≤ 400 * 1024 := by
      simp only [FlashImage.accepted, Bool.and_eq_true, decide_eq_true_eq] at hacc
      exact hacc.1.1.1
    have hnone := h.none (by simp [hs])
    refine ⟨triggerAutoFlashBurn_steady hcfm hnone hsize, ?_, hsize, rfl, ?_⟩
    · rcases triggerAutoFlashBurn_pc s.burn image.size with ⟨hpc, -⟩ | ⟨hpc, -⟩
      · exact ⟨by simp [hpc], by simp [hpc]⟩
      · exact ⟨by simp [hpc], by simp [hpc]⟩
    · intro j hj
      have hzero : (triggerAutoFlashBurn s.burn image.size).written = 0 := rfl
      rw [hzero, Chunks.before_zero] at hj
      omega
  | burn a b hs hok hb => exact (h.burning hs).step hs hok hb
  | notify hs hcounted =>
    have hnone := h.none hs
    rw [Fits]
    cases hstage : s.stage with
    | idle => exact hnone
    | burning => exact absurd hstage hs
    | readSend idx =>
      have hb := h.readSend hstage
      exact ⟨hb.pc, hnone, hb.holds, hb.lt⟩
    | readReset idx =>
      have hb := h.readReset hstage
      exact ⟨⟨hb.1.pc, hnone, hb.1.holds, hb.1.lt⟩, hb.2⟩
    | readWait idx => simp [(h.readWait hstage).2.1] at hcounted
  | send idx hs =>
    have hb := h.readSend hs
    exact ⟨⟨hb.pc, hb.none, hb.holds, hb.lt⟩, rfl⟩
  | reset idx hs hidle =>
    have hb := h.readReset hs
    exact ⟨⟨hb.1.pc, hb.1.none, hb.1.holds, hb.1.lt⟩, hidle, .inl ⟨hb.2, rfl⟩⟩
  | confirm idx hs hpend =>
    have hb := h.readWait hs
    rw [Fits]
    simp only [hs]
    exact ⟨⟨hb.1.pc, hb.1.none, hb.1.holds, hb.1.lt⟩, hb.2.1, .inr ⟨rfl, rfl, hb.1.matches_received true⟩⟩
  | wake idx hs hdone =>
    have hb := h.readWait hs
    exact fits_verifyFrom hb.1.pc hb.1.none hb.1.holds

/-- The call goes on, or it has just returned success. -/
def Proceeds (s t : AutoFlash) : Prop :=
  t.stage ≠ .idle ∧ t.results = s.results ∨ t.stage = .idle ∧ t.results = true :: s.results

theorem proceeds_verifyFrom : s.Proceeds (s.verifyFrom idx) := by
  rw [verifyFrom]
  split_ifs
  · exact .inl ⟨by simp, rfl⟩
  · exact .inr ⟨rfl, rfl⟩

theorem afterBurn_cases (hs : s.stage = .burning) (hf : b.pc ≠ .failure) :
    s.afterBurn a b = verifyFrom { s with burn := b, flash := s.flashAfter a } 0 ∨
      s.afterBurn a b = { s with burn := b, flash := s.flashAfter a } := by
  simp only [afterBurn, hs]
  cases hpc : b.pc with
  | success => exact .inl rfl
  | failure => exact absurd hpc hf
  | _ => exact .inr rfl

theorem Fits.proceeds (h : s.Fits) (hs : s.stage ≠ .idle) (hg : s.Goes t) : s.Proceeds t := by
  cases hg with
  | call image hidle => exact absurd hidle hs
  | burn a b hburn hok hb =>
    have hrun := h.burning hburn
    have hfail := hrun.steady.hopeful.not_failure hok (Burn.moves_of_step hb) hrun.running.2
    rcases afterBurn_cases hburn hfail with heq | heq
    · rw [heq]
      exact proceeds_verifyFrom (s := { s with burn := b, flash := s.flashAfter a })
    · rw [heq]
      exact .inl ⟨hs, rfl⟩
  | notify => exact .inl ⟨hs, rfl⟩
  | send | reset => exact .inl ⟨by simp, rfl⟩
  | confirm => exact .inl ⟨hs, rfl⟩
  | wake idx => exact proceeds_verifyFrom

/-- What is left to do in a call. -/
def work (s : AutoFlash) : Nat :=
  match s.stage with
  | .idle => 0
  | .burning => s.burn.work + 4 * s.bus.numReads s.image.size + 1
  | .readSend idx => 4 * (s.bus.numReads s.image.size - idx) + 8 * s.burn.counted.toNat
  | .readReset idx => 4 * (s.bus.numReads s.image.size - idx) - 1 + 8 * s.burn.counted.toNat
  | .readWait idx =>
    4 * (s.bus.numReads s.image.size - idx) - (if s.readPending then 2 else 3) + 8 * s.burn.counted.toNat

theorem work_verifyFrom (s : AutoFlash) (idx : Nat) :
    (s.verifyFrom idx).work ≤ 4 * (s.bus.numReads s.image.size - idx) + 8 * s.burn.counted.toNat := by
  rw [verifyFrom]
  split_ifs
  · exact le_rfl
  · exact Nat.zero_le _

/-- A step of the burn that does not fail: the burn has less to do, or the verification is left. -/
theorem work_afterBurn (hs : s.stage = .burning) (hfail : b.pc ≠ .failure) (hless : b.work < s.burn.work) :
    (s.afterBurn a b).work < s.work := by
  have hwork : s.work = s.burn.work + 4 * s.bus.numReads s.image.size + 1 := by simp only [work, hs]
  rcases afterBurn_cases hs hfail with heq | heq
  · have hcounted : 8 * b.counted.toNat ≤ b.work := by
      rw [Burn.work]
      omega
    have hverify : (verifyFrom { s with burn := b, flash := s.flashAfter a } 0).work ≤
        4 * (s.bus.numReads s.image.size - 0) + 8 * b.counted.toNat := work_verifyFrom _ 0
    rw [heq, hwork]
    omega
  · have hafter : work { s with burn := b, flash := s.flashAfter a } =
        b.work + 4 * s.bus.numReads s.image.size + 1 := by
      simp only [work, hs]
    rw [heq, hafter, hwork]
    omega

theorem Fits.work_lt (h : s.Fits) (hs : s.stage ≠ .idle) (hg : s.Goes t) : t.work < s.work := by
  cases hg with
  | call image hidle => exact absurd hidle hs
  | burn a b hburn hok hb =>
    have hrun := h.burning hburn
    have hm := Burn.moves_of_step hb
    have hfail := hrun.steady.hopeful.not_failure hok hm hrun.running.2
    exact work_afterBurn hburn hfail (Burn.work_lt hrun.steady.hopeful hrun.steady.counts hm)
  | notify hnot hcounted =>
    cases hstage : s.stage with
    | idle => exact absurd hstage hs
    | burning => exact absurd hstage hnot
    | readSend idx | readReset idx | readWait idx =>
      simp only [work, hstage, hcounted, Bool.toNat_false, Bool.toNat_true]
      exact Nat.add_lt_add_left (by decide) _
  | send idx hs =>
    have hlt := (h.readSend hs).lt
    simp only [work, hs]
    omega
  | reset idx hs hidle =>
    have hb := h.readReset hs
    have hlt := hb.1.lt
    simp only [work, hs, hb.2, if_true]
    omega
  | confirm idx hs hpend =>
    have hlt := (h.readWait hs).1.lt
    simp only [work, hs, hpend, if_true, Bool.false_eq_true, if_false]
    omega
  | wake idx hs hdone =>
    have hlt := (h.readWait hs).1.lt
    have hverify := work_verifyFrom s (idx + 1)
    simp only [work, hs, hdone, Bool.false_eq_true, if_false] at hverify ⊢
    omega

/-- While a call is under way, a step can be taken. -/
theorem Fits.exists_step (h : s.Fits) (hs : s.stage ≠ .idle) :
    ∃ a t, undisturbed s a = true ∧ s.step a = some t := by
  cases hstage : s.stage with
  | idle => exact absurd hstage hs
  | burning =>
    have hb := h.burning hstage
    obtain ⟨a, b, hok, hstep⟩ := Burn.canStep hb.steady.hopeful hb.running.1 hb.running.2
    refine ⟨.burn a, s.afterBurn a b, hok, ?_⟩
    simp only [AutoFlash.step, hstage, or_true, if_true, hstep, Option.map_some]
  | readSend idx =>
    refine ⟨.readSend true, { s with stage := .readReset idx, readPending := true }, rfl, ?_⟩
    simp only [AutoFlash.step, hstage, if_true]
  | readReset idx =>
    cases hcounted : s.burn.counted with
    | true =>
      have hpc := (h.readReset hstage).1.pc
      refine ⟨.burn .notify, s.afterBurn .notify { s.burn with flashEvent := true, counted := false }, ?_, ?_⟩
      · simp [undisturbed, Burn.steady, noneErased, Burn.paces, hpc]
      · simp [AutoFlash.step, BurnAct.ofHandler, Burn.step, hcounted]
    | false =>
      refine ⟨.readReset, { s with stage := .readWait idx, burn := { s.burn with flashEvent := false } }, ?_, ?_⟩
      · simp [undisturbed, hcounted]
      · simp only [AutoFlash.step, hstage, hcounted]
  | readWait idx =>
    have hb := h.readWait hstage
    rcases hb.2.2 with ⟨hpend, -⟩ | ⟨-, hev, hmatch⟩
    · refine ⟨.readConfirm, { s with
        readPending := false, dataRcvPacket := s.received idx, burn := { s.burn with flashEvent := true } }, ?_, ?_⟩
      · simp [undisturbed, hstage]
      · simp [AutoFlash.step, hstage, hpend, hb.2.1]
    · refine ⟨.readWake, s.verifyFrom (idx + 1), by simp [undisturbed], ?_⟩
      simp only [AutoFlash.step, hstage, hev, hmatch, if_true]

theorem Fits.le_two (h : s.Fits) : s.burn.unconfirmed ≤ 2 := by
  by_cases hs : s.stage = .burning
  · exact (h.burning hs).steady.paced.le
  · rw [h.none hs]
    decide

end Steps

end AutoFlash

section Runs

variable {bus : Bus} {flash : BitVec 32 → BitVec 8} {dataRcvPacket : Nat → BitVec 8} {flashEvent : Bool}
  {as : List AutoAct} {s t : AutoFlash}

/-- A call under way returns success. -/
theorem call_returns (h : s.Fits) (hs : s.stage ≠ .idle) :
    Inevitable AutoFlash.step undisturbed (fun t => t.stage = .idle ∧ t.results = true :: s.results) s := by
  -- along the call the results stay as they are, and at its end there is one more
  let I : AutoFlash → Prop := fun t =>
    (t.stage = .idle ∧ t.results = true :: s.results) ∨ t.Fits ∧ t.stage ≠ .idle ∧ t.results = s.results
  have hI : I s := .inr ⟨h, hs, rfl⟩
  refine inevitable_of_measure (I := I) AutoFlash.work (fun hI hgoal => ?_) (fun hI hgoal hok ht => ?_) hI
  · obtain ⟨hfits, hstage, -⟩ := hI.resolve_left hgoal
    exact hfits.exists_step hstage
  · obtain ⟨hfits, hstage, hres⟩ := hI.resolve_left hgoal
    have hg := hfits.goes hok ht
    refine ⟨?_, hfits.work_lt hstage hg⟩
    rcases hfits.proceeds hstage hg with ⟨hgo, hsame⟩ | ⟨hidle, hdone⟩
    · exact .inr ⟨hfits.step hg, hgo, hsame.trans hres⟩
    · exact .inl ⟨hidle, by rw [hdone, hres]⟩

theorem results_step {a : AutoAct} (h : s.Fits ∧ ∀ r ∈ s.results, r = true) (hok : undisturbed s a = true)
    (ht : s.step a = some t) : t.Fits ∧ ∀ r ∈ t.results, r = true := by
  have hg := h.1.goes hok ht
  refine ⟨h.1.step hg, ?_⟩
  by_cases hs : s.stage = .idle
  · have hsame : t.results = s.results := by
      cases hg with
      | call | notify => rfl
      | burn a b hb | send idx hb | reset idx hb | confirm idx hb | wake idx hb => cases hs.symm.trans hb
    rw [hsame]
    exact h.2
  · rcases h.1.proceeds hs hg with ⟨-, hsame⟩ | ⟨-, hdone⟩
    · rw [hsame]
      exact h.2
    · rw [hdone]
      exact List.forall_mem_cons.mpr ⟨rfl, h.2⟩

/-- In every undisturbed sequence of calls at most two chunks are in flight, every call that has returned
has returned success, and one that is under way will. -/
theorem auto_flash_succeeds
    (hok : Meets AutoFlash.step undisturbed (autoStart bus flash dataRcvPacket flashEvent) as)
    (hrun : run AutoFlash.step (autoStart bus flash dataRcvPacket flashEvent) as = some s) :
    s.burn.unconfirmed ≤ 2 ∧ (∀ r ∈ s.results, r = true) ∧
      (s.stage ≠ .idle →
        Inevitable AutoFlash.step undisturbed (fun t => t.stage = .idle ∧ t.results = true :: s.results) s) := by
  have hinv := run_invariant (I := fun s => s.Fits ∧ ∀ r ∈ s.results, r = true) results_step
    ⟨rfl, List.forall_mem_nil _⟩ hok hrun
  exact ⟨hinv.1.le_two, hinv.2, call_returns hinv.1⟩

/-- A file of one chunk for the address 68K. -/
def oneChunk : FlashImage := ⟨bootImage, 20⟩

def twoChunks : FlashImage := ⟨bootImage, 5000⟩

/-- A call that burns one chunk and reads it back. -/
def flashOneChunk : List AutoAct :=
  ([.call oneChunk] : List AutoAct) ++
    ([.write true, .burner, .burner, .burner, .burner, .confirm, .notify, .burner, .burner] :
      List BurnAct).map .burn ++
    ([.readSend true, .readReset, .readConfirm, .readWake] : List AutoAct)

/-- The second call starts with the counter at one. It ends with the counter at three for two chunks. -/
theorem secondCall_fails :
    ∃ s, run AutoFlash.step (autoStart .sdio (fun _ => 0) (fun _ => 0) false)
        (flashOneChunk ++ [.call twoChunks] ++
          ([.write true, .burner, .burner, .write true, .burner, .burner, .burner, .burner, .confirm, .notify,
            .confirm, .notify, .burner, .burner, .burner, .timeout] : List BurnAct).map .burn) = some s ∧
      s.burn.unconfirmed = 0 ∧ s.results = [false, true] := by
  exact exists_run (by decide +kernel)

/-- A call with its two chunks in flight and the burner in the wait for the first confirm. -/
def twoInFlight : List AutoAct :=
  ([.call twoChunks] : List AutoAct) ++
    ([.write true, .burner, .burner, .write true, .burner, .burner] : List BurnAct).map .burn

/-- From there the call returns success, whichever undisturbed steps are taken. -/
theorem auto_flash_succeeds_twoInFlight :
    ∃ s, run AutoFlash.step (autoStart .sdio (fun _ => 0) (fun _ => 0) false) twoInFlight = some s ∧
      s.burn.unconfirmed = 2 ∧ s.burn.pc = .wait 1 ∧
      Inevitable AutoFlash.step undisturbed (fun t => t.stage = .idle ∧ t.results = [true]) s := by
  obtain ⟨s, hs, htwo, hpc, hstage, hres⟩ :
      ∃ s, run AutoFlash.step (autoStart .sdio (fun _ => 0) (fun _ => 0) false) twoInFlight = some s ∧
        s.burn.unconfirmed = 2 ∧ s.burn.pc = .wait 1 ∧ s.stage = .burning ∧ s.results = [] :=
    exists_run (by decide +kernel)
  obtain ⟨-, -, hreturns⟩ := auto_flash_succeeds (by decide +kernel) hs
  rw [hres] at hreturns
  exact ⟨s, hs, htwo, hpc, hreturns (by simp [hstage])⟩

end Runs

end Onebox
