import Mathlib.Data.List.Basic
import Mathlib.Tactic.IntervalCases

/-! The block ack action frames of `ieee80211_ht.c`: what its two send functions write behind the header, and
what `ieee80211_parse_action` lets pass and the receive functions then read. -/

namespace Onebox.Net80211

/-! ## Fields of a parameter word -/

/-- A mask `_f` with its shift `_f##_S`. -/
structure BitField where
  mask : UInt16
  shift : UInt16

namespace BitField

/-- `MS` -/
def ms (f : BitField) (v : UInt16) : UInt16 := (v &&& f.mask) >>> f.shift

/-- `SM` -/
def sm (f : BitField) (v : UInt16) : UInt16 := (v <<< f.shift) &&& f.mask

def bapsBufsiz : BitField := ⟨0xffc0, 6⟩

def bapsTid : BitField := ⟨0x003c, 2⟩

def bapsPolicy : BitField := ⟨0x0002, 1⟩

def baseqStart : BitField := ⟨0xfff0, 4⟩

def delbapsTid : BitField := ⟨0xf000, 12⟩

end BitField

def bapsPolicyImmediate : UInt16 := 0x0002

def delbapsInit : UInt16 := 0x0800

def statusSuccess : UInt16 := 0

def statusUnspecified : UInt16 := 1

/-! ## Writing and reading -/

def actionCatBa : UInt8 := 3

def actionBaAddbaRequest : UInt8 := 0

def actionBaAddbaResponse : UInt8 := 1

def actionBaDelba : UInt8 := 2

/-- `ADDSHORT` -/
def addShort (v : UInt16) : List UInt8 := [v.toUInt8, (v >>> 8).toUInt8]

def leWord (low high : UInt8) : UInt16 := low.toUInt16 ||| high.toUInt16 <<< 8

/-- `LE_READ_2` -/
def leRead2 (frm : List UInt8) (i : Nat) : UInt16 := leWord (frm.getD i 0) (frm.getD (i + 1) 0)

/-- `ht_send_action_ba_addba`, with the five words of `args` in their order. -/
def htSendActionBaAddba (action : UInt8) (dialogtoken status baparamset batimeout baseqctl : UInt16) :
    List UInt8 :=
  [actionCatBa, action, dialogtoken.toUInt8]
    ++ (if action = actionBaAddbaResponse then addShort status else [])
    ++ addShort baparamset ++ addShort batimeout
    ++ (if action = actionBaAddbaRequest then addShort baseqctl else [])

/-- `ht_send_action_ba_delba`, with the three words of `args`. -/
def htSendActionBaDelba (tid initiator reason : UInt16) : List UInt8 :=
  [actionCatBa, actionBaDelba] ++ addShort (BitField.delbapsTid.sm tid ||| initiator) ++ addShort reason

/-- The payloads, with the fields of `struct ieee80211_action_ba_*`. -/
inductive BaAction
  | addbaRequest (dialogtoken : UInt8) (baparamset batimeout baseqctl : UInt16)
  | addbaResponse (dialogtoken : UInt8) (statuscode baparamset batimeout : UInt16)
  | delba (baparamset reasoncode : UInt16)
deriving DecidableEq, Repr

namespace BaAction

def bytes : BaAction → List UInt8
  | addbaRequest token params timeout seqctl =>
    htSendActionBaAddba actionBaAddbaRequest token.toUInt16 0 params timeout seqctl
  | addbaResponse token status params timeout =>
    htSendActionBaAddba actionBaAddbaResponse token.toUInt16 status params timeout 0
  | delba params reason => htSendActionBaDelba (BitField.delbapsTid.ms params) (params &&& 0x0fff) reason

end BaAction

/-- The sizes of `struct ieee80211_action` and of the structures for the block ack actions. -/
def actionSize (category action : UInt8) : Nat :=
  if category = actionCatBa then
    if action = actionBaAddbaRequest then 9
    else if action = actionBaAddbaResponse then 9
    else if action = actionBaDelba then 6
    else 2
  else 2

/-- `ieee80211_parse_action` on the bytes from `frm` to `efrm`, for the category of block acks. -/
def parseAction (frm : List UInt8) : Bool :=
  2 ≤ frm.length && actionSize (frm.getD 0 0) (frm.getD 1 0) ≤ frm.length

/-- Which receive function `ieee80211_recv_action` calls after that, with the fields this one reads. -/
def BaAction.read (frm : List UInt8) : Option BaAction :=
  if !parseAction frm then none
  else if frm.getD 0 0 = actionCatBa then
    if frm.getD 1 0 = actionBaAddbaRequest then
      some (.addbaRequest (frm.getD 2 0) (leRead2 frm 3) (leRead2 frm 5) (leRead2 frm 7))
    else if frm.getD 1 0 = actionBaAddbaResponse then
      some (.addbaResponse (frm.getD 2 0) (leRead2 frm 3) (leRead2 frm 5) (leRead2 frm 7))
    else if frm.getD 1 0 = actionBaDelba then some (.delba (leRead2 frm 2) (leRead2 frm 4))
    else none
  else none

/-! ## What comes out of a field -/

section

variable (t b s p : UInt16)

/-- The parameter word of a request and of a response. -/
def baparams (tid bufsiz : UInt16) : UInt16 :=
  bapsPolicyImmediate ||| BitField.bapsTid.sm tid ||| BitField.bapsBufsiz.sm bufsiz

theorem eq_of_bits {v w : UInt16} (h : ∀ i < 16, v.toBitVec.getLsbD i = w.toBitVec.getLsbD i) : v = w :=
  UInt16.toBitVec_inj.mp (BitVec.eq_of_getLsbD_eq h)

@[simp] theorem tid_baparams : BitField.bapsTid.ms (baparams t b) = t &&& 0x000f := by
  apply eq_of_bits
  intro i hi
  simp only [baparams, BitField.ms, BitField.sm, BitField.bapsTid, BitField.bapsBufsiz, bapsPolicyImmediate]
  interval_cases i <;> simp

@[simp] theorem start_baseqctl : BitField.baseqStart.ms (BitField.baseqStart.sm s) = s &&& 0x0fff := by
  apply eq_of_bits
  intro i hi
  simp only [BitField.ms, BitField.sm, BitField.baseqStart]
  interval_cases i <;> simp

@[simp] theorem tid_delbaparams :
    BitField.delbapsTid.ms (BitField.delbapsTid.sm t ||| delbapsInit) = t &&& 0x000f := by
  apply eq_of_bits
  intro i hi
  simp only [BitField.ms, BitField.sm, BitField.delbapsTid, delbapsInit]
  interval_cases i <;> simp

@[simp] theorem init_delbaparams :
    (BitField.delbapsTid.sm t ||| delbapsInit) &&& delbapsInit = delbapsInit := by
  apply eq_of_bits
  intro i hi
  simp only [BitField.sm, BitField.delbapsTid, delbapsInit]
  interval_cases i <;> simp

theorem delbaparams_eq : BitField.delbapsTid.sm (BitField.delbapsTid.ms p) ||| (p &&& 0x0fff) = p := by
  apply eq_of_bits
  intro i hi
  simp only [BitField.ms, BitField.sm, BitField.delbapsTid]
  interval_cases i <;> simp

end

/-! ## Round trips -/

theorem toNat_leWord (a b : UInt8) : (leWord a b).toNat = a.toNat + 256 * b.toNat := by
  have ha : a.toNat < 2 ^ 8 := a.toNat_lt
  have hb : b.toNat < 2 ^ 8 := b.toNat_lt
  have hshift : b.toNat <<< 8 % 2 ^ 16 = b.toNat <<< 8 := by
    rw [Nat.shiftLeft_eq]
    omega
  calc (leWord a b).toNat = a.toNat ||| b.toNat <<< 8 % 2 ^ 16 := by simp [leWord]
    _ = b.toNat <<< 8 + a.toNat := by rw [hshift, Nat.or_comm, Nat.shiftLeft_add_eq_or_of_lt ha]
    _ = a.toNat + 256 * b.toNat := by rw [Nat.shiftLeft_eq]; omega

@[simp] theorem leWord_addShort (v : UInt16) : leWord v.toUInt8 (v >>> 8).toUInt8 = v := by
  apply UInt16.toNat_inj.mp
  have hv : v.toNat < 2 ^ 16 := v.toNat_lt
  rw [toNat_leWord]
  simp [Nat.shiftRight_eq_div_pow]
  omega

@[simp] theorem addShort_leWord (a b : UInt8) : addShort (leWord a b) = [a, b] := by
  have ha := a.toNat_lt
  have hb := b.toNat_lt
  have hlow : (leWord a b).toUInt8 = a := by
    apply UInt8.toNat_inj.mp
    rw [UInt16.toNat_toUInt8, toNat_leWord]
    omega
  have hhigh : (leWord a b >>> 8).toUInt8 = b := by
    apply UInt8.toNat_inj.mp
    rw [UInt16.toNat_toUInt8, UInt16.toNat_shiftRight, toNat_leWord]
    simp [Nat.shiftRight_eq_div_pow]
    omega
  rw [addShort, hlow, hhigh]

namespace BaAction

/-- What `read` accepts is long enough for the fields it takes. -/
theorem read_cases {frm : List UInt8} {a : BaAction} (h : read frm = some a) :
    (9 ≤ frm.length ∧ frm.getD 0 0 = actionCatBa ∧ frm.getD 1 0 = actionBaAddbaRequest ∧
      a = .addbaRequest (frm.getD 2 0) (leRead2 frm 3) (leRead2 frm 5) (leRead2 frm 7)) ∨
    (9 ≤ frm.length ∧ frm.getD 0 0 = actionCatBa ∧ frm.getD 1 0 = actionBaAddbaResponse ∧
      a = .addbaResponse (frm.getD 2 0) (leRead2 frm 3) (leRead2 frm 5) (leRead2 frm 7)) ∨
    (6 ≤ frm.length ∧ frm.getD 0 0 = actionCatBa ∧ frm.getD 1 0 = actionBaDelba ∧
      a = .delba (leRead2 frm 2) (leRead2 frm 4)) := by
  unfold read at h
  split_ifs at h with hshort hcat hreq hresp hdel
  all_goals
    simp only [parseAction, hcat, Bool.not_eq_true, Bool.not_eq_false', Bool.and_eq_true,
      decide_eq_true_eq] at hshort
    cases h
  · rw [hreq] at hshort
    exact .inl ⟨hshort.2, hcat, hreq, rfl⟩
  · rw [hresp] at hshort
    exact .inr (.inl ⟨hshort.2, hcat, hresp, rfl⟩)
  · rw [hdel] at hshort
    exact .inr (.inr ⟨hshort.2, hcat, hdel, rfl⟩)

theorem read_bytes_append (a : BaAction) (rest : List UInt8) : read (a.bytes ++ rest) = some a := by
  cases a with
  | addbaRequest token params timeout seqctl =>
    simp [read, parseAction, actionSize, bytes, htSendActionBaAddba, addShort, leRead2, actionCatBa,
      actionBaAddbaRequest, actionBaAddbaResponse]
  | addbaResponse token status params timeout =>
    simp [read, parseAction, actionSize, bytes, htSendActionBaAddba, addShort, leRead2, actionCatBa,
      actionBaAddbaRequest, actionBaAddbaResponse]
  | delba params reason =>
    simp [read, parseAction, actionSize, bytes, htSendActionBaDelba, addShort, leRead2, actionCatBa,
      actionBaAddbaRequest, actionBaAddbaResponse, actionBaDelba, delbaparams_eq]

@[simp] theorem read_bytes (a : BaAction) : read a.bytes = some a := by
  simpa using read_bytes_append a []

theorem exists_six {frm : List UInt8} (h : 6 ≤ frm.length) :
    ∃ b0 b1 b2 b3 b4 b5 rest, frm = b0 :: b1 :: b2 :: b3 :: b4 :: b5 :: rest := by
  rcases frm with _ | ⟨b0, _ | ⟨b1, _ | ⟨b2, _ | ⟨b3, _ | ⟨b4, _ | ⟨b5, rest⟩⟩⟩⟩⟩⟩ <;> simp at h ⊢

theorem exists_nine {frm : List UInt8} (h : 9 ≤ frm.length) :
    ∃ b0 b1 b2 b3 b4 b5 b6 b7 b8 rest,
      frm = b0 :: b1 :: b2 :: b3 :: b4 :: b5 :: b6 :: b7 :: b8 :: rest := by
  obtain ⟨b0, b1, b2, b3, b4, b5, rest, rfl⟩ := exists_six (by omega : 6 ≤ frm.length)
  rcases rest with _ | ⟨b6, _ | ⟨b7, _ | ⟨b8, rest⟩⟩⟩ <;> simp at h ⊢

theorem exists_rest_of_read {frm : List UInt8} {a : BaAction} (h : read frm = some a) :
    ∃ rest, frm = a.bytes ++ rest := by
  obtain ⟨hlen, hcat, hact, rfl⟩ | ⟨hlen, hcat, hact, rfl⟩ | ⟨hlen, hcat, hact, rfl⟩ := read_cases h
  · obtain ⟨b0, b1, b2, b3, b4, b5, b6, b7, b8, rest, rfl⟩ := exists_nine hlen
    refine ⟨rest, ?_⟩
    simp at hcat hact
    simp [bytes, htSendActionBaAddba, leRead2, hcat, hact, actionBaAddbaRequest, actionBaAddbaResponse]
  · obtain ⟨b0, b1, b2, b3, b4, b5, b6, b7, b8, rest, rfl⟩ := exists_nine hlen
    refine ⟨rest, ?_⟩
    simp at hcat hact
    simp [bytes, htSendActionBaAddba, leRead2, hcat, hact, actionBaAddbaRequest, actionBaAddbaResponse]
  · obtain ⟨b0, b1, b2, b3, b4, b5, rest, rfl⟩ := exists_six hlen
    refine ⟨rest, ?_⟩
    simp at hcat hact
    simp [bytes, htSendActionBaDelba, leRead2, hcat, hact, delbaparams_eq]

/-- A payload is read just from the bytes the send functions write for it, with anything behind them. -/
theorem read_eq_some_iff (frm : List UInt8) (a : BaAction) :
    read frm = some a ↔ ∃ rest, frm = a.bytes ++ rest := by
  constructor
  · exact exists_rest_of_read
  · rintro ⟨rest, rfl⟩
    exact read_bytes_append a rest

end BaAction

end Onebox.Net80211
