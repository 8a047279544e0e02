import Onebox.Chunks
import Onebox.FwUpgrade
import Onebox.Machine

/-! `trigger_auto_flash_burn` writes the chunks of an image and keeps one of them in the
pipeline; the handler of the flash confirms counts them and sets `flash_event`. Each
access to the counter or to the event is a step of its own. -/

namespace Onebox

open Machine

/-- Where the burner stands: before the write of a chunk, before the reset of the event, before the
comparison and in the wait after it; the same in the final loop, where a comparison comes first. -/
inductive BurnPc
  | write (idx : Nat)
  | reset (idx : Nat)
  | compare (idx : Nat)
  | wait (idx : Nat)
  | finalCompare
  | finalReset
  | finalWait
  | success
  | failure
  deriving DecidableEq, Repr

/-- The burner with the counter `eeprom_cfm_count` and the event. `counted` says that the handler stands
between its increment and its `set_event`. Of the chunks `written` the device has yet to confirm
`unconfirmed`. -/
structure Burn where
  pc : BurnPc
  numLoops : Nat
  cfmCount : Nat
  flashEvent : Bool
  counted : Bool
  written : Nat
  unconfirmed : Nat
  deriving DecidableEq, Repr

/-- The write of a chunk with its status, the next operation of the burner, the expiry of its wait, and
the two steps of the handler. -/
inductive BurnAct
  | write (ok : Bool)
  | burner
  | timeout
  | confirm
  | notify
  deriving DecidableEq, Repr

namespace Burn

variable (s : Burn)

def goto (pc : BurnPc) : Burn := { s with pc }

def next (idx : Nat) : Burn := s.goto (if idx + 1 < s.numLoops then .write (idx + 1) else .finalCompare)

/-- `(idx + 1) - eeprom_cfm_count` is a `uint32`. -/
def inPipeline (idx : Nat) : Nat := (idx + 1 + (2 ^ 32 - s.cfmCount)) % 2 ^ 32

/-- Nothing is left that would set the event. -/
def drained : Bool := !s.flashEvent && !s.counted && s.unconfirmed = 0

def burner : Option Burn :=
  match s.pc with
  | .reset idx => some ({ s with flashEvent := false }.goto (.compare idx))
  | .compare idx => some (if 2 ≤ s.inPipeline idx then s.goto (.wait idx) else s.next idx)
  | .wait idx => if s.flashEvent then some (s.next idx) else none
  | .finalCompare => some (s.goto (if s.numLoops ≠ s.cfmCount then .finalReset else .success))
  | .finalReset => some ({ s with flashEvent := false }.goto .finalWait)
  | .finalWait => if s.flashEvent then some (s.goto .finalCompare) else none
  | _ => none

/-- The device confirms the chunks while the burner waits, so a wait expires only if no confirm is left. -/
def step (a : BurnAct) : Option Burn :=
  match a with
  | .write ok =>
    match s.pc with
    | .write idx =>
      some (if ok then { s with written := s.written + 1, unconfirmed := s.unconfirmed + 1 }.goto (.reset idx)
        else s.goto .failure)
    | _ => none
  | .burner => s.burner
  | .timeout =>
    match s.pc with
    | .wait _ | .finalWait => if s.drained then some (s.goto .failure) else none
    | _ => none
  | .confirm =>
    if !s.counted ∧ 0 < s.unconfirmed then
      some { s with unconfirmed := s.unconfirmed - 1, cfmCount := (s.cfmCount + 1) % 2 ^ 8, counted := true }
    else none
  | .notify => if s.counted then some { s with flashEvent := true, counted := false } else none

end Burn

/-- An adapter that does not burn and has no confirm outstanding. -/
def restingBurn (cfmCount : Nat) (flashEvent : Bool) : Burn :=
  { pc := .success, numLoops := 0, cfmCount, flashEvent, counted := false, written := 0, unconfirmed := 0 }

/-- The beginning of `trigger_auto_flash_burn`, which leaves the counter and the event as they are. -/
def triggerAutoFlashBurn (s : Burn) (size : Nat) : Burn :=
  let numLoops := Chunks.count flashWriteChunkSize size
  { s with pc := if 0 < numLoops then .write 0 else .finalCompare, numLoops, written := 0 }

/-- The burner waits for an event that nothing will set: all chunks written are confirmed. -/
def Stranded (s : Burn) : Prop :=
  (s.pc = .finalWait ∨ ∃ idx, s.pc = .wait idx) ∧ s.flashEvent = false ∧ s.counted = false ∧ s.unconfirmed = 0

/-- The event of the last confirm outstanding is not set between a comparison of the final loop and the
reset after it. -/
def noneErased (s : Burn) (a : BurnAct) : Bool := !(s.pc = .finalReset && a = .notify && s.unconfirmed = 0)

namespace Burn

/-- What a step can do. -/
inductive Moves (s : Burn) : BurnAct → Burn → Prop
  | write (idx : Nat) (hpc : s.pc = .write idx) :
    Moves s (.write true)
      ({ s with written := s.written + 1, unconfirmed := s.unconfirmed + 1 }.goto (.reset idx))
  | writeFailed (idx : Nat) (hpc : s.pc = .write idx) : Moves s (.write false) (s.goto .failure)
  | reset (idx : Nat) (hpc : s.pc = .reset idx) :
    Moves s .burner ({ s with flashEvent := false }.goto (.compare idx))
  | block (idx : Nat) (hpc : s.pc = .compare idx) (hfull : 2 ≤ s.inPipeline idx) :
    Moves s .burner (s.goto (.wait idx))
  | pass (idx : Nat) (hpc : s.pc = .compare idx) (hroom : ¬ 2 ≤ s.inPipeline idx) : Moves s .burner (s.next idx)
  | wake (idx : Nat) (hpc : s.pc = .wait idx) (hev : s.flashEvent = true) : Moves s .burner (s.next idx)
  | again (hpc : s.pc = .finalCompare) (hne : s.numLoops ≠ s.cfmCount) : Moves s .burner (s.goto .finalReset)
  | finish (hpc : s.pc = .finalCompare) (heq : s.numLoops = s.cfmCount) : Moves s .burner (s.goto .success)
  | finalReset (hpc : s.pc = .finalReset) : Moves s .burner ({ s with flashEvent := false }.goto .finalWait)
  | finalWake (hpc : s.pc = .finalWait) (hev : s.flashEvent = true) : Moves s .burner (s.goto .finalCompare)
  | timeout (hpc : s.pc = .finalWait ∨ ∃ idx, s.pc = .wait idx) (hdrained : s.drained = true) :
    Moves s .timeout (s.goto .failure)
  | confirm (hidle : s.counted = false) (hpos : 0 < s.unconfirmed) :
    Moves s .confirm
      { s with unconfirmed := s.unconfirmed - 1, cfmCount := (s.cfmCount + 1) % 2 ^ 8, counted := true }
  | notify (hcounted : s.counted = true) : Moves s .notify { s with flashEvent := true, counted := false }

section Steps

variable {s t : Burn} {a : BurnAct} {idx : Nat}

theorem moves_burner (h : s.burner = some t) : s.Moves .burner t := by
  revert h
  fun_cases burner s <;> rintro ⟨⟩
  case case1 idx hpc => exact .reset idx hpc
  case case2 idx hpc =>
    split_ifs with hfull
    · exact .block idx hpc hfull
    · exact .pass idx hpc hfull
  case case3 idx hpc hev => exact .wake idx hpc hev
  case case5 hpc =>
    split_ifs with heq
    · exact .again hpc heq
    · exact .finish hpc (not_not.mp heq)
  case case6 hpc => exact .finalReset hpc
  case case7 hpc hev => exact .finalWake hpc hev

theorem moves_of_step (h : s.step a = some t) : s.Moves a t := by
  revert h
  fun_cases step s a
  case case1 ok idx hpc =>
    rintro ⟨⟩
    cases ok with
    | false => exact .writeFailed idx hpc
    | true => exact .write idx hpc
  case case3 => exact moves_burner
  case case4 idx hpc hdrained =>
    rintro ⟨⟩
    exact .timeout (.inr ⟨idx, hpc⟩) hdrained
  case case6 hpc hdrained =>
    rintro ⟨⟩
    exact .timeout (.inl hpc) hdrained
  case case9 h =>
    rintro ⟨⟩
    exact .confirm (by simpa using h.1) h.2
  case case11 h =>
    rintro ⟨⟩
    exact .notify h
  all_goals rintro ⟨⟩

end Steps

/-- How many chunks have been written where the burner stands. -/
def Placed (s : Burn) : Prop :=
  match s.pc with
  | .write idx => s.written = idx ∧ idx < s.numLoops
  | .reset idx | .compare idx | .wait idx => s.written = idx + 1 ∧ idx < s.numLoops
  | .finalCompare | .finalReset | .finalWait | .success => s.written = s.numLoops
  | .failure => True

/-- A burn that began with the counter at zero: the counter is the number of chunks confirmed. -/
structure Counts (s : Burn) : Prop where
  sum : s.cfmCount + s.unconfirmed = s.written
  placed : s.Placed
  le : s.written ≤ s.numLoops
  max : s.numLoops ≤ 100

section Counting

variable {s t : Burn} {a : BurnAct} {idx : Nat}

theorem Counts.next (h : s.Counts) (hp : s.written = idx + 1 ∧ idx < s.numLoops) : (s.next idx).Counts := by
  refine ⟨h.sum, ?_, h.le, h.max⟩
  rw [Burn.next]
  split_ifs with hlt
  · exact ⟨hp.1, hlt⟩
  · have hlast : s.numLoops = idx + 1 := by omega
    exact hp.1.trans hlast.symm

theorem Counts.inPipeline (h : s.Counts) (hp : s.written = idx + 1) : s.inPipeline idx = s.unconfirmed := by
  have hsum := h.sum
  have hle := h.le
  have hmax := h.max
  rw [Burn.inPipeline]
  omega

theorem Counts.step (h : s.Counts) (hm : s.Moves a t) : t.Counts := by
  have hsum := h.sum
  have hle := h.le
  have hmax := h.max
  have hplaced := h.placed
  cases hm with
  | write idx hpc =>
    rw [Placed, hpc] at hplaced
    have hlt : s.written < s.numLoops := by omega
    refine ⟨?_, ⟨congrArg (· + 1) hplaced.1, hplaced.2⟩, hlt, hmax⟩
    exact congrArg (· + 1) hsum
  | writeFailed idx hpc => exact ⟨hsum, trivial, hle, hmax⟩
  | reset idx hpc | block idx hpc =>
    rw [Placed, hpc] at hplaced
    exact ⟨hsum, hplaced, hle, hmax⟩
  | pass idx hpc | wake idx hpc =>
    rw [Placed, hpc] at hplaced
    exact h.next hplaced
  | again hpc | finish hpc | finalReset hpc | finalWake hpc =>
    rw [Placed, hpc] at hplaced
    exact ⟨hsum, hplaced, hle, hmax⟩
  | timeout => exact ⟨hsum, trivial, hle, hmax⟩
  | confirm hidle hpos =>
    refine ⟨?_, hplaced, hle, hmax⟩
    show (s.cfmCount + 1) % 2 ^ 8 + (s.unconfirmed - 1) = s.written
    omega
  | notify => exact ⟨hsum, hplaced, hle, hmax⟩

end Counting

/-- Before a wait there is something left that will set the event. -/
def Hopeful (s : Burn) : Prop :=
  match s.pc with
  | .wait _ | .finalWait => s.flashEvent = true ∨ s.counted = true ∨ 0 < s.unconfirmed
  | .finalReset => s.counted = true ∨ 0 < s.unconfirmed
  | _ => True

section Waiting

variable {s t : Burn} {a : BurnAct} {idx : Nat}

theorem next_hopeful : (s.next idx).Hopeful := by
  rw [next]
  split_ifs <;> trivial

theorem Hopeful.step (h : s.Hopeful) (hc : s.Counts) (hok : noneErased s a = true) (hm : s.Moves a t) :
    t.Hopeful := by
  have hsum := hc.sum
  have hplaced := hc.placed
  cases hm with
  | write | writeFailed | reset | finish | finalWake | timeout => trivial
  | pass idx | wake idx => exact next_hopeful
  | block idx hpc hfull =>
    -- two chunks are not counted yet, so there are confirms to come
    rw [Placed, hpc] at hplaced
    rw [hc.inPipeline hplaced.1] at hfull
    exact .inr (.inr (show 0 < s.unconfirmed by omega))
  | again hpc hne =>
    rw [Placed, hpc] at hplaced
    exact .inr (show 0 < s.unconfirmed by omega)
  | finalReset hpc =>
    rw [Hopeful, hpc] at h
    exact .inr h
  | confirm hidle hpos =>
    rw [Hopeful] at h ⊢
    cases hpc : s.pc with
    | wait idx | finalWait => exact .inr (.inl rfl)
    | finalReset => exact .inl rfl
    | _ => trivial
  | notify hcounted =>
    rw [Hopeful] at h ⊢
    cases hpc : s.pc with
    | wait idx | finalWait => exact .inl rfl
    | finalReset =>
      have hpos : s.unconfirmed ≠ 0 := by simpa [noneErased, hpc] using hok
      exact .inr (Nat.pos_of_ne_zero hpos)
    | _ => trivial

end Waiting

end Burn

theorem count_le_of_size {size : Nat} (h : size ≤ 400 * 1024) : Chunks.count flashWriteChunkSize size ≤ 100 := by
  rw [Chunks.count, flashWriteChunkSize]
  split_ifs <;> omega

section Start

variable {s : Burn} {size : Nat}

theorem triggerAutoFlashBurn_pc (s : Burn) (size : Nat) :
    (triggerAutoFlashBurn s size).pc = .write 0 ∧ 0 < Chunks.count flashWriteChunkSize size ∨
      (triggerAutoFlashBurn s size).pc = .finalCompare ∧ Chunks.count flashWriteChunkSize size = 0 := by
  by_cases hpos : 0 < Chunks.count flashWriteChunkSize size
  · exact .inl ⟨if_pos hpos, hpos⟩
  · exact .inr ⟨if_neg hpos, by omega⟩

theorem triggerAutoFlashBurn_counts (hcfm : s.cfmCount = 0) (hnone : s.unconfirmed = 0)
    (hsize : size ≤ 400 * 1024) : (triggerAutoFlashBurn s size).Counts := by
  refine ⟨?_, ?_, Nat.zero_le _, count_le_of_size hsize⟩
  · show s.cfmCount + s.unconfirmed = 0
    omega
  · rw [Burn.Placed]
    rcases triggerAutoFlashBurn_pc s size with ⟨hpc, hpos⟩ | ⟨hpc, hzero⟩
    · rw [hpc]
      exact ⟨rfl, hpos⟩
    · rw [hpc]
      exact hzero.symm

theorem triggerAutoFlashBurn_hopeful : (triggerAutoFlashBurn s size).Hopeful := by
  rw [Burn.Hopeful]
  rcases triggerAutoFlashBurn_pc s size with ⟨hpc, -⟩ | ⟨hpc, -⟩
  · rw [hpc]
    trivial
  · rw [hpc]
    trivial

end Start

/-- In every interleaving that erases no last confirm the burner never waits in vain. -/
theorem burn_not_stranded {size : Nat} {flashEvent : Bool} {as : List BurnAct} {s : Burn}
    (hsize : size ≤ 400 * 1024)
    (hok : Meets Burn.step noneErased (triggerAutoFlashBurn (restingBurn 0 flashEvent) size) as)
    (hrun : run Burn.step (triggerAutoFlashBurn (restingBurn 0 flashEvent) size) as = some s) : ¬ Stranded s := by
  have hinv : s.Counts ∧ s.Hopeful := by
    refine run_invariant (I := fun s => s.Counts ∧ s.Hopeful) (fun h hok hs => ?_)
      ⟨triggerAutoFlashBurn_counts rfl rfl hsize, triggerAutoFlashBurn_hopeful⟩ hok hrun
    have hm := Burn.moves_of_step hs
    exact ⟨h.1.step hm, h.2.step h.1 hok hm⟩
  rintro ⟨hpc, hev, hcounted, hnone⟩
  have hhope := hinv.2
  rw [Burn.Hopeful] at hhope
  rcases hpc with hpc | ⟨idx, hpc⟩
  · simp [hpc, hev, hcounted, hnone] at hhope
  · simp [hpc, hev, hcounted, hnone] at hhope

/-- One chunk, confirmed between the comparison and the reset of the final loop. -/
theorem lastConfirm_erased :
    ∃ s, run Burn.step (triggerAutoFlashBurn (restingBurn 0 false) 4096)
        [.write true, .burner, .burner, .burner, .confirm, .notify, .burner] = some s ∧
      Stranded s ∧ s.cfmCount = s.numLoops :=
  ⟨_, rfl, ⟨.inl rfl, rfl, rfl, rfl⟩, rfl⟩

/-- Two chunks with the first confirm awaited in the loop and the second one at its end. -/
theorem burn_not_stranded_twoChunks :
    ∃ s, run Burn.step (triggerAutoFlashBurn (restingBurn 0 false) 5000)
        [.write true, .burner, .burner, .write true, .burner, .burner, .confirm, .notify, .burner, .burner,
          .burner, .confirm, .notify, .burner, .burner] = some s ∧ s.pc = .success ∧ ¬ Stranded s := by
  exact exists_run_and (by decide) fun s hs => burn_not_stranded (by decide) (by decide) hs

end Onebox
