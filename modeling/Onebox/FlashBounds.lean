import Onebox.ManualFlash

/-! The checks that the three flashing functions make of an image before they begin
to write it. Each of them compares the end of the image, a sum of two `uint32`, with
a capacity of its own. -/

namespace Onebox

open Calls

/-- The functions that write an image, with what their checks depend on: the configuration and
`flash_capacity` of the adapter, the value that `read_flash_capacity` returns, or nothing. -/
inductive FlashEntry
  | autoFwUpgrade (b : Boot)
  | manualLoadFlashContent (env : ManualEnv)
  | autoLoadFlashContent

namespace FlashEntry

def flashMaxAddress : Nat := 4 * 1024 * 1024

def capacity : FlashEntry → Nat
  | .autoFwUpgrade b => b.flashCapacity
  | .manualLoadFlashContent env => env.flashCapacity
  | .autoLoadFlashContent => flashMaxAddress

def passes (image : FlashImage) : FlashEntry → Bool
  | .autoFwUpgrade b => { b with image := imageOf image.bytes image.size }.upgradeAllowed
  | .manualLoadFlashContent env => env.accepts image
  | .autoLoadFlashContent => image.accepted

/-- The image is for whole sectors and ends within the flash. -/
structure Bounded (e : FlashEntry) (image : FlashImage) : Prop where
  aligned : image.start % flashSectorSize = 0
  within : image.start + image.size ≤ e.capacity

variable {e : FlashEntry} {image : FlashImage}

theorem passes_spec (h : e.passes image = true) :
    image.start % flashSectorSize = 0 ∧ (image.start + image.size) % 2 ^ 32 ≤ e.capacity := by
  cases e with
  | autoFwUpgrade b =>
    rw [passes, Boot.upgradeAllowed, Bool.and_eq_true, Bool.and_eq_true] at h
    exact ⟨of_decide_eq_true h.1.2, of_decide_eq_true h.2⟩
  | manualLoadFlashContent env =>
    simp only [passes, ManualEnv.accepts, ManualEnv.fits, Bool.and_eq_true, decide_eq_true_eq] at h
    exact ⟨h.2.1.1.2, h.2.2⟩
  | autoLoadFlashContent =>
    simp only [passes, FlashImage.accepted, Bool.and_eq_true, decide_eq_true_eq] at h
    exact ⟨h.1.2, h.2⟩

section Refused

variable {b : Boot} {env : ManualEnv}

/-! An image that does not pass is not written. -/

theorem autoFwUpgrade_refused (h : passes image (.autoFwUpgrade b) = false) (up : UpgradeEnv) (d : DevMem) :
    Onebox.autoFwUpgrade up b image.bytes image.size d = stuck := by
  rw [passes] at h
  rw [Onebox.autoFwUpgrade, h]
  rfl

theorem manualLoadFlashContent_refused (h : passes image (.manualLoadFlashContent env) = false)
    (d : FlashDev) : Onebox.manualLoadFlashContent env .qspiFlashing image d = (d, false) := by
  rw [passes, ManualEnv.accepts, Bool.and_eq_false_iff] at h
  rw [Onebox.manualLoadFlashContent]
  by_cases hbig : 400 * 1024 < image.size
  · rw [if_pos hbig]
  · have hfits : env.fits image = false := by
      apply h.resolve_left
      simpa using hbig
    rw [if_neg hbig, hfits]
    rfl

theorem autoLoadFlashContent_refused (h : passes image .autoLoadFlashContent = false) (s : AutoFlash) :
    s.step (.call image) = none := by
  rw [passes] at h
  rw [AutoFlash.step.eq_def]
  cases s.stage with
  | idle => simp [h]
  | burning | readSend | readReset | readWait => rfl

end Refused

/-- An image that passes the checks is within the flash exactly when its end fits into 32 bits. By
`autoFwUpgrade_refused`, `manualLoadFlashContent_refused` and `autoLoadFlashContent_refused` no other image is
written. -/
theorem image_bounded_iff (hcap : e.capacity < 2 ^ 32) (h : e.passes image = true) :
    e.Bounded image ↔ image.start + image.size < 2 ^ 32 := by
  obtain ⟨haligned, hsum⟩ := passes_spec h
  constructor
  · intro hb
    exact hb.within.trans_lt hcap
  · intro hlt
    rw [Nat.mod_eq_of_lt hlt] at hsum
    exact ⟨haligned, hsum⟩

theorem image_bounded_iff_oneChunk :
    (autoFwUpgrade readyBoot).capacity < 2 ^ 32 ∧ (autoFwUpgrade readyBoot).passes oneChunk = true ∧
      (autoFwUpgrade readyBoot).Bounded oneChunk :=
  ⟨by decide, by decide, (image_bounded_iff (by decide) (by decide)).mpr (by decide)⟩

/-- A sector for the address `0xFFFFF000`. -/
def topSector : FlashImage where
  bytes i := if i = 17 then 0xF0 else if i = 18 ∨ i = 19 then 0xFF else 0
  size := 4096

/-- The end of the image is zero as a `uint32`. It passes all the checks, and the burner stands before its
first write. -/
theorem topSector_burnt :
    (autoFwUpgrade readyBoot).passes topSector = true ∧
      (manualLoadFlashContent faultlessEnv).passes topSector = true ∧
      (∃ s, (autoStart .sdio (fun _ => 0) (fun _ => 0) false).step (.call topSector) = some s ∧
        s.stage = .burning ∧ s.burn.pc = .write 0 ∧ s.image.address 0 = 0xFFFFF000#32) ∧
      ∀ e ∈ [autoFwUpgrade readyBoot, manualLoadFlashContent faultlessEnv, autoLoadFlashContent],
        ¬ e.Bounded topSector := by
  refine ⟨by decide, by decide, ⟨_, rfl, rfl, rfl, rfl⟩, fun e he hb => ?_⟩
  have hcap : e.capacity < 2 ^ 32 := by
    simp only [List.mem_cons, List.not_mem_nil, or_false] at he
    rcases he with rfl | rfl | rfl <;> decide
  have hend : topSector.start + topSector.size = 2 ^ 32 := by decide
  have hwithin := hb.within
  omega

end FlashEntry

end Onebox
