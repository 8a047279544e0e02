import Onebox.Bootloader
import Onebox.Calls
import Onebox.MasterWrite

/-! The image that `auto_fw_upgrade` hands to the bootloader, in chunks of 4096 bytes
written by `ping_pong_write` into two buffers of the device in turn. -/

namespace Onebox

open ByteMem Calls

inductive Buffer
  | ping | pong
  deriving DecidableEq, Repr

namespace Buffer

def address : Buffer → Nat
  | .ping => 0x19000
  | .pong => 0x1a000

def other : Buffer → Buffer
  | .ping => .pong
  | .pong => .ping

def valid : Buffer → BlCmd
  | .ping => .pingValid
  | .pong => .pongValid

/-- The response by which the bootloader reports the buffer available. -/
def avail : Buffer → Nat
  | .ping => pingAvail
  | .pong => pongAvail

end Buffer

/-- How a `bl_cmd` ends: before the command is in the register, without a response, or with one,
after which the response register has still to be cleared before the timer expires. -/
inductive BlOutcome
  | unsent
  | unanswered
  | answered (resp : Nat) (cleared : Bool)
  deriving DecidableEq, Repr

/-- What the outside does in one upgrade: the status of each bus access of each chunk, and how the
command after each chunk and the last command end. -/
structure UpgradeEnv where
  bus : Bus
  busOk : Nat → Nat → Bool
  chunkCmd : Nat → BlOutcome
  eofCmd : BlOutcome

/-- A buffer filled, with the part of it the round is about, a command issued and its response. -/
inductive UpgradeEvent
  | written (buf : Buffer) (content : List (BitVec 8))
  | issued (c : BlCmd)
  | answered (resp : Nat)
  deriving DecidableEq, Repr

def blCmd (o : BlOutcome) (cmd : BlCmd) (expResp : Nat) : Calls UpgradeEvent Unit :=
  match o with
  | .unsent => stuck
  | .unanswered => do
    emit (.issued cmd)
    stuck
  | .answered resp cleared => do
    emit (.issued cmd)
    emit (.answered resp)
    if cleared ∧ resp = expResp then pure () else stuck

def pingPongWrite (env : UpgradeEnv) (kk : Nat) (buf : Buffer) (addr : Nat → BitVec 8) (size : Nat) (d : DevMem) :
    Calls UpgradeEvent DevMem := do
  let d ← lift (loadDataMasterWrite env.bus (env.busOk kk) d buf.address size env.bus.transmitBlockSize addr)
  emit (.written buf (window d.mem buf.address size))
  blCmd (env.chunkCmd kk) buf.valid buf.other.avail
  pure d

def flashWriteChunkSize : Nat := 4096

/-- `content_size` in the round `kk`. -/
def chunkSize (s kk : Nat) : Nat :=
  if kk ≠ s / flashWriteChunkSize then flashWriteChunkSize else s % flashWriteChunkSize

def bufferOf (kk : Nat) : Buffer := if kk % 2 = 1 then .ping else .pong

/-- The loop over the chunks, `n` rounds of it left, with `flashContent` the offset of the next byte. -/
def upgradeLoop (env : UpgradeEnv) (img : Nat → BitVec 8) (s : Nat) :
    (n kk flashContent : Nat) → DevMem → Calls UpgradeEvent DevMem
  | 0, _, _, d => pure d
  | n + 1, kk, flashContent, d =>
    let contentSize := chunkSize s kk
    if kk = s / flashWriteChunkSize ∧ contentSize = 0 then pure d
    else do
      let d ← pingPongWrite env kk (bufferOf kk) (fun i => img (flashContent + i)) contentSize d
      upgradeLoop env img s n (kk + 1) (flashContent + contentSize) d

/-- `FLASHING_START_ADDRESS` of the image, a little endian word. -/
def flashStartAddress (img : Nat → BitVec 8) : Nat :=
  (img 16).toNat + 2 ^ 8 * (img 17).toNat + 2 ^ 16 * (img 18).toNat + 2 ^ 24 * (img 19).toNat

def imageOf (img : Nat → BitVec 8) (s : Nat) : FwImage :=
  { contentSize := s, flashStartAddress := flashStartAddress img }

/-- `auto_fw_upgrade`, which fails when it has no result. `b` has the configuration and the capacity of
the flash that the image is checked against. -/
def autoFwUpgrade (env : UpgradeEnv) (b : Boot) (img : Nat → BitVec 8) (s : Nat) (d : DevMem) :
    Calls UpgradeEvent Unit := do
  if !{ b with image := imageOf img s }.upgradeAllowed then stuck
  else
    let _ ← upgradeLoop env img s (s / flashWriteChunkSize + 1) 0 0 d
    blCmd env.eofCmd .eofReached fwLoadingSuccessful

/-- The rounds in which there is something to write. -/
def numRounds (s : Nat) : Nat :=
  if s % flashWriteChunkSize = 0 then s / flashWriteChunkSize else s / flashWriteChunkSize + 1

section Log

variable {env : UpgradeEnv} {b : Boot} {img : Nat → BitVec 8} {s : Nat} {d d' : DevMem}

theorem bufferOf_succ (kk : Nat) : bufferOf (kk + 1) = (bufferOf kk).other := by
  rcases Nat.mod_two_eq_zero_or_one kk with h | h
  · rw [bufferOf, bufferOf, if_pos (by omega), if_neg (by omega), Buffer.other]
  · rw [bufferOf, bufferOf, if_neg (by omega), if_pos h, Buffer.other]

theorem Buffer.inWindow (buf : Buffer) {size : Nat} (hsize : size ≤ flashWriteChunkSize) :
    buf.address % 2 ^ 16 + size < 2 ^ 16 ∧ buf.address < 2 ^ 32 := by
  rw [flashWriteChunkSize] at hsize
  cases buf with
  | ping => exact ⟨by simp only [Buffer.address]; omega, by decide⟩
  | pong => exact ⟨by simp only [Buffer.address]; omega, by decide⟩

theorem Buffer.other_ne (buf : Buffer) : buf ≠ buf.other := by cases buf <;> decide

theorem blCmd_result {o : BlOutcome} {cmd : BlCmd} {expResp : Nat} {u : Unit}
    (h : (blCmd o cmd expResp).result = some u) :
    (blCmd o cmd expResp).log = [.issued cmd, .answered expResp] := by
  cases o with
  | unsent => cases h
  | unanswered => cases h
  | answered resp cleared =>
    by_cases hresp : cleared ∧ resp = expResp
    · rw [← hresp.2]
      simp only [blCmd, hresp.1, and_self, if_true]
      rfl
    · simp only [blCmd, if_neg hresp] at h
      cases h

/-- What a successful round writes, asks and is told. -/
def roundLog (img : Nat → BitVec 8) (s kk : Nat) : List UpgradeEvent :=
  [.written (bufferOf kk) (window img (kk * flashWriteChunkSize) (chunkSize s kk)),
    .issued (bufferOf kk).valid, .answered (bufferOf (kk + 1)).avail]

theorem chunkSize_le (s kk : Nat) : chunkSize s kk ≤ flashWriteChunkSize := by
  rw [chunkSize]
  split_ifs
  · exact le_rfl
  · exact (Nat.mod_lt _ (by decide)).le

theorem pingPongWrite_log {kk : Nat}
    (h : (pingPongWrite env kk (bufferOf kk) (fun i => img (kk * flashWriteChunkSize + i))
      (chunkSize s kk) d).result = some d') :
    (pingPongWrite env kk (bufferOf kk) (fun i => img (kk * flashWriteChunkSize + i))
      (chunkSize s kk) d).log = roundLog img s kk := by
  rw [pingPongWrite] at h ⊢
  obtain ⟨d₁, hd₁, hrest⟩ := result_bind.mp h
  obtain ⟨-, -, hrest⟩ := result_bind.mp hrest
  obtain ⟨u, hu, -⟩ := result_bind.mp hrest
  have hwindow := (bufferOf kk).inWindow (chunkSize_le s kk)
  have hmem := loadDataMasterWrite_mem_of_window hwindow.1.le hwindow.2 hd₁
  have hcontent : window d₁.mem (bufferOf kk).address (chunkSize s kk)
      = window img (kk * flashWriteChunkSize) (chunkSize s kk) := by
    rw [hmem, window_copy, window_shift, Nat.add_zero]
  have hcmd := blCmd_result hu
  rw [bind_of_result hd₁, bind_of_result rfl, bind_of_result hu, hcmd, hcontent, roundLog, bufferOf_succ]
  rfl

theorem lt_numRounds (s kk : Nat) :
    kk < numRounds s ↔
      kk ≤ s / flashWriteChunkSize ∧ ¬ (kk = s / flashWriteChunkSize ∧ s % flashWriteChunkSize = 0) := by
  rw [numRounds]
  split_ifs <;> omega

/-- A loop that comes to its end has gone through the rounds from `kk` on. -/
theorem upgradeLoop_log {n : Nat} (kk : Nat) (hn : kk + n = s / flashWriteChunkSize + 1)
    (h : (upgradeLoop env img s n kk (kk * flashWriteChunkSize) d).result = some d') :
    (upgradeLoop env img s n kk (kk * flashWriteChunkSize) d).log
      = (List.range' kk (numRounds s - kk)).flatMap (roundLog img s) := by
  induction n generalizing kk d with
  | zero =>
    have hend : numRounds s - kk = 0 := by
      have hlt := (lt_numRounds s kk).mp
      omega
    rw [hend]
    rfl
  | succ n ih =>
    rw [upgradeLoop] at h ⊢
    by_cases hlast : kk = s / flashWriteChunkSize
    · have hsize : chunkSize s kk = s % flashWriteChunkSize := if_neg (not_not.mpr hlast)
      have hn0 : n = 0 := by omega
      subst hn0
      by_cases hrem : s % flashWriteChunkSize = 0
      · rw [if_pos ⟨hlast, hsize.trans hrem⟩, numRounds, if_pos hrem, hlast, Nat.sub_self]
        rfl
      · have hrounds : numRounds s - kk = 1 := by
          rw [numRounds, if_neg hrem, hlast, Nat.add_sub_cancel_left]
        simp only [hsize, hrem, and_false, if_false] at h ⊢
        rw [← hsize] at h ⊢
        obtain ⟨d₁, hd₁, -⟩ := result_bind.mp h
        rw [bind_of_result hd₁, hrounds]
        show _ ++ [] = roundLog img s kk ++ []
        rw [pingPongWrite_log hd₁]
    · have hsize : chunkSize s kk = flashWriteChunkSize := if_pos hlast
      have hrounds : numRounds s - kk = numRounds s - (kk + 1) + 1 := by
        have hlt := (lt_numRounds s kk).mpr ⟨by omega, fun h => hlast h.1⟩
        omega
      simp only [hlast, false_and, if_false] at h ⊢
      obtain ⟨d₁, hd₁, hrest⟩ := result_bind.mp h
      have hnext : kk * flashWriteChunkSize + chunkSize s kk = (kk + 1) * flashWriteChunkSize := by
        rw [hsize, Nat.succ_mul]
      rw [hnext] at hrest
      rw [bind_of_result hd₁, hrounds, List.range'_succ, List.flatMap_cons]
      simp only [hnext]
      rw [pingPongWrite_log hd₁, ih (kk + 1) (by omega) hrest]

/-- The calls of an upgrade that succeeds. -/
theorem autoFwUpgrade_log {u : Unit} (h : (autoFwUpgrade env b img s d).result = some u) :
    (autoFwUpgrade env b img s d).log =
      (List.range (numRounds s)).flatMap (roundLog img s) ++
        [.issued .eofReached, .answered fwLoadingSuccessful] := by
  rw [autoFwUpgrade] at h ⊢
  by_cases hallowed : !{ b with image := imageOf img s }.upgradeAllowed
  · rw [if_pos hallowed] at h
    cases h
  · rw [if_neg hallowed] at h ⊢
    obtain ⟨d', hloop, heof⟩ := result_bind.mp h
    rw [← Nat.zero_mul flashWriteChunkSize] at hloop
    have hrounds := upgradeLoop_log 0 (Nat.zero_add _) hloop
    rw [Nat.zero_mul] at hloop hrounds
    rw [Nat.sub_zero, ← List.range_eq_range'] at hrounds
    rw [bind_of_result hloop]
    simp only [hrounds, blCmd_result heof]

end Log

namespace UpgradeEvent

def content : UpgradeEvent → List (BitVec 8)
  | .written _ c => c
  | _ => []

def buffer? : UpgradeEvent → Option Buffer
  | .written buf _ => some buf
  | _ => none

end UpgradeEvent

/-- The image goes through the two buffers in turn, a buffer is filled again only when the bootloader
has just reported it available, and one end of file closes the transfer. -/
structure TransfersImage (img : Nat → BitVec 8) (s : Nat) (log : List UpgradeEvent) : Prop where
  content : log.flatMap UpgradeEvent.content = window img 0 s
  starts : (log.filterMap UpgradeEvent.buffer?).head? = some .pong
  alternates : (log.filterMap UpgradeEvent.buffer?).IsChain (· ≠ ·)
  available : log.IsChain fun e e' => ∀ buf c, e' = .written buf c → e = .answered buf.avail
  eof : ∃ chunks, log = chunks ++ [.issued .eofReached, .answered fwLoadingSuccessful] ∧
    .issued .eofReached ∉ chunks

section Rounds

variable {env : UpgradeEnv} {b : Boot} {img : Nat → BitVec 8} {s : Nat} {d : DevMem}

theorem roundLog_content (img : Nat → BitVec 8) (s kk : Nat) :
    (roundLog img s kk).flatMap UpgradeEvent.content =
      window img (kk * flashWriteChunkSize) (chunkSize s kk) := by
  simp [roundLog, UpgradeEvent.content]

theorem fullRounds_content {n : Nat} (hn : n ≤ s / flashWriteChunkSize) :
    ((List.range n).flatMap (roundLog img s)).flatMap UpgradeEvent.content =
      window img 0 (n * flashWriteChunkSize) := by
  induction n with
  | zero => rw [Nat.zero_mul]; rfl
  | succ n ih =>
    have hsize : chunkSize s n = flashWriteChunkSize := if_pos (by omega)
    rw [List.range_succ, List.flatMap_append, List.flatMap_append, ih (by omega), List.flatMap_singleton,
      roundLog_content, hsize, Nat.succ_mul, window_add, Nat.zero_add]

/-- With the rest of the image, which may be nothing, the rounds carry all of it. -/
theorem rounds_content :
    ((List.range (numRounds s)).flatMap (roundLog img s)).flatMap UpgradeEvent.content = window img 0 s := by
  have hsplit := Nat.div_add_mod' s flashWriteChunkSize
  rw [numRounds]
  split_ifs with hrem
  · rw [hrem, Nat.add_zero] at hsplit
    rw [fullRounds_content le_rfl, hsplit]
  · have hsize : chunkSize s (s / flashWriteChunkSize) = s % flashWriteChunkSize :=
      if_neg (not_not.mpr rfl)
    have hwhole : window img 0 s =
        window img 0 (s / flashWriteChunkSize * flashWriteChunkSize + s % flashWriteChunkSize) := by
      rw [hsplit]
    rw [List.range_succ, List.flatMap_append, List.flatMap_append, fullRounds_content le_rfl,
      List.flatMap_singleton, roundLog_content, hsize, hwhole, window_add, Nat.zero_add]

theorem rounds_buffers (n : Nat) :
    ((List.range n).flatMap (roundLog img s)).filterMap UpgradeEvent.buffer? = (List.range n).map bufferOf := by
  rw [List.filterMap_flatMap, List.map_eq_flatMap]
  rfl

theorem rounds_available (n : Nat) :
    ((List.range n).flatMap (roundLog img s)).IsChain
      fun e e' => ∀ buf c, e' = .written buf c → e = .answered buf.avail := by
  induction n with
  | zero => exact List.isChain_nil
  | succ n ih =>
    rw [List.range_succ, List.flatMap_append, List.flatMap_singleton, List.isChain_append]
    refine ⟨ih, by simp [roundLog], ?_⟩
    intro e he e' he' buf c hwritten
    cases n with
    | zero => simp at he
    | succ n =>
      -- the round before ends with the report of this buffer
      rw [List.range_succ, List.flatMap_append, List.flatMap_singleton, roundLog, List.getLast?_append] at he
      rw [roundLog] at he'
      cases hwritten
      simp at he he'
      rw [← he, ← he'.1]

theorem rounds_no_eof (n : Nat) : .issued .eofReached ∉ (List.range n).flatMap (roundLog img s) := by
  intro hmem
  obtain ⟨kk, -, hkk⟩ := List.mem_flatMap.mp hmem
  cases hbuf : bufferOf kk <;> simp [roundLog, hbuf, Buffer.valid] at hkk

/-- A successful upgrade has transferred exactly the image. -/
theorem upgrade_transfers_image (h0 : 0 < s) (h : (autoFwUpgrade env b img s d).result = some ()) :
    TransfersImage img s (autoFwUpgrade env b img s d).log := by
  have hrounds : 0 < numRounds s := by
    rw [numRounds, flashWriteChunkSize]
    split_ifs <;> omega
  obtain ⟨n, hn⟩ := Nat.exists_eq_add_of_lt hrounds
  rw [autoFwUpgrade_log h]
  have hbuffers : ((List.range (numRounds s)).flatMap (roundLog img s) ++
      [UpgradeEvent.issued .eofReached, .answered fwLoadingSuccessful]).filterMap UpgradeEvent.buffer? =
      (List.range (numRounds s)).map bufferOf := by
    rw [List.filterMap_append, rounds_buffers]
    exact List.append_nil _
  refine ⟨?_, ?_, ?_, ?_, _, rfl, rounds_no_eof _⟩
  · rw [List.flatMap_append, rounds_content]
    exact List.append_nil _
  · rw [hbuffers, hn, List.range_succ_eq_map]
    rfl
  · rw [hbuffers, List.isChain_map, List.isChain_range]
    intro kk _
    show bufferOf kk ≠ bufferOf (kk + 1)
    rw [bufferOf_succ]
    exact (bufferOf kk).other_ne
  · rw [List.isChain_append]
    refine ⟨rounds_available _, by simp, ?_⟩
    intro e _ e' he' buf c hwritten
    cases hwritten
    simp at he'

/-- A bus without errors and a bootloader that answers each command as the driver expects it to. -/
def willingEnv (bus : Bus) : UpgradeEnv :=
  { bus, busOk := fun _ _ => true, chunkCmd := fun kk => .answered (bufferOf kk).other.avail true,
    eofCmd := .answered fwLoadingSuccessful true }

theorem pingPongWrite_willing (bus : Bus) (kk : Nat) {size : Nat} (hsize : size ≤ flashWriteChunkSize)
    (addr : Nat → BitVec 8) (d : DevMem) :
    (pingPongWrite (willingEnv bus) kk (bufferOf kk) addr size d).result.isSome := by
  have hwindow := (bufferOf kk).inWindow hsize
  have hload : (loadDataMasterWrite bus ((willingEnv bus).busOk kk) d (bufferOf kk).address size
      bus.transmitBlockSize addr).isSome :=
    (loadDataMasterWrite_isSome_iff hwindow.1 hwindow.2).mpr ⟨fun _ => rfl, fun _ _ => rfl⟩
  obtain ⟨d', hd'⟩ := Option.isSome_iff_exists.mp hload
  rw [pingPongWrite, isSome_result_bind]
  refine ⟨d', hd', ?_⟩
  have hcmd : (blCmd ((willingEnv bus).chunkCmd kk) (bufferOf kk).valid (bufferOf kk).other.avail).result =
      some () := by
    simp [willingEnv, blCmd]
    rfl
  rw [bind_of_result rfl, bind_of_result hcmd]
  rfl

theorem upgradeLoop_willing (bus : Bus) (img : Nat → BitVec 8) (s n kk flashContent : Nat) (d : DevMem) :
    (upgradeLoop (willingEnv bus) img s n kk flashContent d).result.isSome := by
  induction n generalizing kk flashContent d with
  | zero => rfl
  | succ n ih =>
    rw [upgradeLoop]
    split_ifs
    · rfl
    · obtain ⟨d', hd'⟩ := Option.isSome_iff_exists.mp
        (pingPongWrite_willing bus kk (chunkSize_le s kk) (fun i => img (flashContent + i)) d)
      rw [isSome_result_bind]
      exact ⟨d', hd', ih _ _ _⟩

/-- With such a device every image that passes the checks is transferred. -/
theorem autoFwUpgrade_willing (bus : Bus) (hallowed : { b with image := imageOf img s }.upgradeAllowed) :
    (autoFwUpgrade (willingEnv bus) b img s d).result = some () := by
  obtain ⟨d', hd'⟩ := Option.isSome_iff_exists.mp
    (upgradeLoop_willing bus img s (s / flashWriteChunkSize + 1) 0 0 d)
  simp only [autoFwUpgrade, hallowed, Bool.not_true, Bool.false_eq_true, if_false]
  rw [bind_of_result hd']
  simp [willingEnv, blCmd]
  rfl

/-- An image for the address 68K of the flash. -/
def bootImage : Nat → BitVec 8 := fun i =>
  if i = 17 then 0x10#8 else if i = 18 then 0x01#8 else if i < 20 then 0#8 else BitVec.ofNat 8 i

def readyBoot : Boot :=
  { loadFwThruSbl ⟨.fullFlashSbl, .wifiModeOn, .swblFlashingNosbl⟩ with flashCapacity := 2 ^ 20 }

/-- Two chunks, the second of 904 bytes. -/
theorem upgrade_transfers_image_twoChunks :
    TransfersImage bootImage 5000
      (autoFwUpgrade (willingEnv .sdio) readyBoot bootImage 5000 ⟨fun _ => 0, 0⟩).log :=
  upgrade_transfers_image (by decide) (autoFwUpgrade_willing .sdio (by decide))

end Rounds

end Onebox
