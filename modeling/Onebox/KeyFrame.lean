import Onebox.Association
import Onebox.Netlink
import Onebox.VapTable

/-! The SET_KEY frame that `onebox_hal_keyset` and `hal_load_key` build from a buffer on the
stack, of which they copy more than they have written. -/

namespace Onebox

open ByteMem Scan

inductive Cipher
  | wep | tkip | aesOcb | aesCcm | tkipmic | ckip | none
  deriving DecidableEq, Repr

/-- A `struct ieee80211_key`, with the memory from `wk_key` on. -/
structure WkKey where
  keylen : UInt8
  xmit : Bool
  recv : Bool
  keyix : Nat
  key : Nat → UInt8

/-- The vap and the tables of the adapter as `onebox_hal_keyset` finds them. -/
structure KeyEnv where
  opmode : VapMode
  vapId : Nat
  staModeStaId : Nat
  maxStationsSupported : Nat
  connected : Nat → Bool
  alloc : Bool

/-- The return value, with the frame put into the management queue. -/
structure KeyResult where
  ret : Int
  frame : Option (List UInt8)
  deriving DecidableEq

def micbufSize : Nat := 16

def setKeySize : Nat := 4 * 32 + 8 + 8

def setKey : Nat := 10

def wifiMgmtQ : Nat := 4

namespace KeyEnv

variable (env : KeyEnv)

def validSta (staId : Nat) : Bool := staId < env.maxStationsSupported && env.connected staId

/-- The immediate wake-up bit is set in the copy of the frame. -/
def sendInternalMgmtFrame : List UInt8 → KeyResult
  | b0 :: b1 :: rest => if env.alloc then ⟨0, some (b0 :: (b1 ||| 0x80) :: rest)⟩ else ⟨-1, none⟩
  | short => if env.alloc then ⟨0, some short⟩ else ⟨-1, none⟩

def keyDescriptor (keyLen : Nat) (keyType : KeyType) (keyId : Nat) (cipher : Cipher) : Nat :=
  let base := if keyType = .group ∧ env.opmode = .hostap then 2 ^ 7 else 0
  let t1 := if keyType = .group then 1 <<< 1 else 0
  let id := if keyType = .pairwise ∧ cipher ≠ .wep then 0 else keyId % 2 ^ 8
  let sec :=
    if cipher = .wep then 2 ^ 2 ||| (if 13 ≤ keyLen then 2 ^ 3 else 0)
    else if cipher ≠ .none then 2 ^ 4 ||| (if cipher = .tkip then 2 ^ 5 else 0)
    else 0
  (base ||| t1 ||| 2 ^ 13 ||| id <<< 14 ||| sec) % 2 ^ 16

def keyHeader (descriptor staId : Nat) : List UInt8 :=
  le16Bytes (setKeySize ||| wifiMgmtQ <<< 12) ++ le16Bytes setKey ++ le16Bytes 0 ++ le16Bytes 0 ++
    le16Bytes descriptor ++ le16Bytes 0 ++ le16Bytes 0 ++ le16Bytes (staId ||| env.vapId <<< 8)

/-- The three copies take 128 bytes from `data`, and the MIC keys from its second half once more. -/
def keyBody (data : Nat → UInt8) : List UInt8 := window data 0 (4 * 32) ++ window data 16 8 ++ window data 24 8

def halLoadKey (data : Nat → UInt8) (keyLen staId : Nat) (keyType : KeyType) (keyId : Nat) (cipher : Cipher) :
    KeyResult :=
  if (keyType = .pairwise ∨ env.opmode ≠ .hostap) ∧ env.validSta staId = false then ⟨-1, none⟩
  else env.sendInternalMgmtFrame
    (env.keyHeader (env.keyDescriptor keyLen keyType keyId cipher) staId ++ keyBody data)

end KeyEnv

namespace WkKey

variable (k : WkKey)

def isPairwise (nodeId : Nat) (cipher : Cipher) : Bool := (k.xmit || k.recv) && nodeId ≠ 0xff && cipher ≠ .wep

def copyMic (cipher : Cipher) (buf : Nat → UInt8) : Nat → UInt8 :=
  if cipher = .tkip then copy buf 16 k.key 16 micbufSize else buf

/-- How far the key is copied into `key_buf`, which begins with a zero for WEP. -/
def keyOffset (cipher : Cipher) : Nat := if cipher = .wep then 1 else 0

def keyBuf (cipher : Cipher) (stack : Nat → UInt8) : Nat → UInt8 :=
  let buf := if cipher = .wep then put stack 0 [0] else stack
  k.copyMic cipher (copy buf (keyOffset cipher) k.key 0 k.keylen.toNat)

def keyLen (cipher : Cipher) : Nat := k.keylen.toNat + if cipher = .tkip then micbufSize else 0

def isZero (cipher : Cipher) : Bool := (window k.key 0 (k.keyLen cipher)).count 0 = k.keyLen cipher

end WkKey

/-- A node that is not there has the station id 0xff, for which another one is taken. -/
def KeyEnv.keyNode (env : KeyEnv) (nodeId : Nat) : Nat :=
  if nodeId = 0xff then if env.opmode = .sta then env.staModeStaId else env.vapId else nodeId

/-- The WEP keys of a station are only remembered. -/
def oneboxHalKeyset (env : KeyEnv) (k : WkKey) (sta : Option Nat) (cipher : Cipher) (stack : Nat → UInt8) :
    KeyResult :=
  let nodeId := sta.getD 0xff
  let node := env.keyNode nodeId
  let data := k.keyBuf cipher stack
  if k.isPairwise nodeId cipher then env.halLoadKey data (k.keyLen cipher) node .pairwise k.keyix cipher
  else if k.isZero cipher then ⟨0, none⟩
  else if cipher = .wep then
    if env.opmode = .hostap then
      ⟨0, (env.halLoadKey data (k.keyLen cipher + 1) node .group k.keyix cipher).frame⟩
    else ⟨0, none⟩
  else env.halLoadKey data (k.keyLen cipher) node .group k.keyix cipher

/-- Whether a frame is sent at all: not for a zero group key, for the WEP key of a station, for a station
that is not connected or without memory. -/
def KeyEnv.sendsKey (env : KeyEnv) (k : WkKey) (sta : Option Nat) (cipher : Cipher) : Bool :=
  let node := env.keyNode (sta.getD 0xff)
  env.alloc &&
    if k.isPairwise (sta.getD 0xff) cipher then env.validSta node
    else !k.isZero cipher && (cipher ≠ .wep || env.opmode = .hostap) &&
      (env.opmode = .hostap || env.validSta node)

/-- A frame that is the same whatever the stack has held before. -/
def FrameDetermined (env : KeyEnv) (k : WkKey) (sta : Option Nat) (cipher : Cipher) : Prop :=
  ∀ stack stack', (oneboxHalKeyset env k sta cipher stack).frame = (oneboxHalKeyset env k sta cipher stack').frame

section Residue

variable {env : KeyEnv} {k : WkKey} {sta : Option Nat} {cipher : Cipher} {stack : Nat → UInt8} {i : Nat}

theorem copyMic_of_not_mem {buf : Nat → UInt8} (hi : i < 16 ∨ 32 ≤ i) : k.copyMic cipher buf i = buf i := by
  rw [WkKey.copyMic]
  split_ifs
  · exact copy_of_not_mem hi
  · rfl

theorem copyMic_congr {buf buf' : Nat → UInt8} (h : buf i = buf' i) :
    k.copyMic cipher buf i = k.copyMic cipher buf' i := by
  rw [WkKey.copyMic, WkKey.copyMic]
  split_ifs
  · rw [copy, copy, h]
  · exact h

/-- What `onebox_hal_keyset` has written is the same for all stacks. -/
theorem keyBuf_of_copied (stack stack' : Nat → UInt8) (hi : i < WkKey.keyOffset cipher + k.keylen.toNat) :
    k.keyBuf cipher stack i = k.keyBuf cipher stack' i := by
  apply copyMic_congr
  by_cases hle : WkKey.keyOffset cipher ≤ i
  · rw [copy, copy, if_pos ⟨hle, hi⟩, if_pos ⟨hle, hi⟩]
  · -- the byte in front of a WEP key
    have hwep : cipher = .wep := by
      by_contra hne
      rw [WkKey.keyOffset, if_neg hne] at hle
      omega
    subst hwep
    have hzero : i = 0 := Nat.lt_one_iff.mp (Nat.not_le.mp hle)
    subst hzero
    rfl

theorem keyBuf_of_not_copied (hlow : 32 ≤ i) (hi : WkKey.keyOffset cipher + k.keylen.toNat ≤ i) :
    k.keyBuf cipher stack i = stack i := by
  rw [WkKey.keyBuf, copyMic_of_not_mem (.inr hlow), copy_of_not_mem (.inr hi)]
  split_ifs
  · exact put_of_not_mem (.inr (by show 0 + 1 ≤ i; omega))
  · rfl

theorem keyBody_eq_iff {data data' : Nat → UInt8} :
    KeyEnv.keyBody data = KeyEnv.keyBody data' ↔ ∀ i < 128, data i = data' i := by
  constructor
  · intro h i hi
    have hlen : (window data 0 (4 * 32) ++ window data 16 8).length =
        (window data' 0 (4 * 32) ++ window data' 16 8).length := by
      simp only [List.length_append, length_window]
    have hkey := (List.append_inj (List.append_inj h hlen).1 (by rw [length_window, length_window])).1
    have hcell := window_eq_iff.mp hkey i hi
    rwa [Nat.zero_add] at hcell
  · intro h
    have hpart : ∀ a n, a + n ≤ 128 → window data a n = window data' a n := by
      intro a n hle
      exact window_eq_iff.mpr fun j hj => h (a + j) (by omega)
    rw [KeyEnv.keyBody, KeyEnv.keyBody, hpart 0 _ (by decide), hpart 16 8 (by decide), hpart 24 8 (by decide)]

theorem invalidSta_iff {keyType : KeyType} {staId : Nat} :
    ((keyType = .pairwise ∨ env.opmode ≠ .hostap) ∧ env.validSta staId = false) ↔
      (keyType = .group && env.opmode = .hostap || env.validSta staId) = false := by
  cases keyType with
  | pairwise => simp
  | group => simp

theorem halLoadKey_frame (env : KeyEnv) (keyLen staId : Nat) (keyType : KeyType) (keyId : Nat) (cipher : Cipher) :
    ∃ hdr, ∀ data, (env.halLoadKey data keyLen staId keyType keyId cipher).frame =
      if env.alloc && (keyType = .group && env.opmode = .hostap || env.validSta staId) then
        some (hdr ++ KeyEnv.keyBody data)
      else none := by
  obtain ⟨b0, b1, rest, hhdr⟩ : ∃ b0 b1 rest,
      env.keyHeader (env.keyDescriptor keyLen keyType keyId cipher) staId = b0 :: b1 :: rest := ⟨_, _, _, rfl⟩
  refine ⟨b0 :: (b1 ||| 0x80) :: rest, fun data => ?_⟩
  have hsend : (env.sendInternalMgmtFrame (b0 :: b1 :: rest ++ KeyEnv.keyBody data)).frame =
      if env.alloc then some (b0 :: (b1 ||| 0x80) :: rest ++ KeyEnv.keyBody data) else none := by
    show (if env.alloc then KeyResult.mk 0 (some _) else ⟨-1, none⟩).frame = _
    split_ifs
    · rfl
    · rfl
  rw [KeyEnv.halLoadKey, hhdr]
  simp only [invalidSta_iff]
  cases hcheck : (keyType = .group && env.opmode = .hostap || env.validSta staId) with
  | false => simp
  | true => rw [if_neg (by decide), hsend, Bool.and_true]

theorem oneboxHalKeyset_frame (env : KeyEnv) (k : WkKey) (sta : Option Nat) (cipher : Cipher) :
    ∃ hdr, ∀ stack, (oneboxHalKeyset env k sta cipher stack).frame =
      if env.sendsKey k sta cipher then some (hdr ++ KeyEnv.keyBody (k.keyBuf cipher stack)) else none := by
  have hload := fun keyLen keyType => halLoadKey_frame env keyLen (env.keyNode (sta.getD 0xff)) keyType k.keyix cipher
  obtain ⟨pair, hpair⟩ := hload (k.keyLen cipher) .pairwise
  obtain ⟨wep, hwep⟩ := hload (k.keyLen cipher + 1) .group
  obtain ⟨grp, hgrp⟩ := hload (k.keyLen cipher) .group
  by_cases hp : k.isPairwise (sta.getD 0xff) cipher = true
  · refine ⟨pair, fun stack => ?_⟩
    simp [oneboxHalKeyset, KeyEnv.sendsKey, hp, hpair]
  by_cases hz : k.isZero cipher = true
  · exact ⟨[], fun stack => by simp [oneboxHalKeyset, KeyEnv.sendsKey, hp, hz]⟩
  by_cases hc : cipher = .wep
  · refine ⟨wep, fun stack => ?_⟩
    by_cases hap : env.opmode = .hostap
    · simp [oneboxHalKeyset, KeyEnv.sendsKey, hp, hz, hap, hwep, if_pos hc]
    · subst hc
      simp [oneboxHalKeyset, KeyEnv.sendsKey, hp, hz, hap]
  · refine ⟨grp, fun stack => ?_⟩
    simp [oneboxHalKeyset, KeyEnv.sendsKey, hp, hz, hc, hgrp]

theorem frameDetermined_iff (env : KeyEnv) (k : WkKey) (sta : Option Nat) (cipher : Cipher) :
    FrameDetermined env k sta cipher ↔
      env.sendsKey k sta cipher = false ∨ 128 ≤ WkKey.keyOffset cipher + k.keylen.toNat := by
  obtain ⟨hdr, hframe⟩ := oneboxHalKeyset_frame env k sta cipher
  rw [FrameDetermined]
  simp only [hframe]
  cases hsends : env.sendsKey k sta cipher with
  | false => simp
  | true =>
    simp only [if_true, Option.some.injEq, List.append_cancel_left_eq, keyBody_eq_iff, Bool.true_eq_false, false_or]
    constructor
    · intro h
      by_contra hshort
      -- the last of the 128 bytes is still what the stack had there
      have hlast := h (fun _ => 0) (fun _ => 1) 127 (by decide)
      rw [keyBuf_of_not_copied (by decide) (by omega), keyBuf_of_not_copied (by decide) (by omega)] at hlast
      exact absurd hlast (by decide)
    · intro hlong stack stack' i hi
      exact keyBuf_of_copied stack stack' (by omega)

theorem btFrameDesc_residue (pktLen : Nat) (btPktType : UInt8) :
    btFrameDesc (fun _ => 0) pktLen btPktType ≠ btFrameDesc (fun _ => 1) pktLen btPktType := by
  intro h
  have hword := congrArg (fun l => l.getD 2 0) h
  exact absurd (show (0 : UInt8) = 1 from hword) (by decide)

/-- The SET_KEY frame is the same for all stacks if and only if none is sent or the key fills the whole copy,
which no key in an array of 32 bytes does. The descriptor of a BT packet is never the same for all headrooms. -/
theorem frames_determined_iff (env : KeyEnv) (k : WkKey) (sta : Option Nat) (cipher : Cipher) (pktLen : Nat)
    (btPktType : UInt8) :
    (FrameDetermined env k sta cipher ↔
      env.sendsKey k sta cipher = false ∨ 128 ≤ WkKey.keyOffset cipher + k.keylen.toNat) ∧
    ¬ ∀ headroom headroom', btFrameDesc headroom pktLen btPktType = btFrameDesc headroom' pktLen btPktType := by
  refine ⟨frameDetermined_iff env k sta cipher, fun h => ?_⟩
  exact btFrameDesc_residue pktLen btPktType (h _ _)

def joinedSta : KeyEnv where
  opmode := .sta
  vapId := 0
  staModeStaId := 1
  maxStationsSupported := 32
  connected := fun i => i = 1
  alloc := true

def ccmpKey : WkKey := ⟨16, true, true, 0, fun _ => 7⟩

/-- Byte 48 of the frame, which is byte 32 of the copy, comes from the stack. -/
theorem ccmpKey_residue :
    ((oneboxHalKeyset joinedSta ccmpKey (some 1) .aesCcm fun _ => 0).frame.map fun f => f.getD 48 0) = some 0 ∧
    ((oneboxHalKeyset joinedSta ccmpKey (some 1) .aesCcm fun _ => 1).frame.map fun f => f.getD 48 0) = some 1 ∧
    ¬ FrameDetermined joinedSta ccmpKey (some 1) .aesCcm ∧
    btFrameDesc (fun _ => 0) 4 1 ≠ btFrameDesc (fun _ => 1) 4 1 := by
  refine ⟨by decide, by decide, fun h => ?_, btFrameDesc_residue 4 1⟩
  have hcond := (frameDetermined_iff _ _ _ _).mp h
  revert hcond
  decide

end Residue

end Onebox
