import Onebox.MasterWrite
import Onebox.RxAggregate
import Onebox.Scan

/-! `process_unaggregated_pkt`, which hands on the received buffer itself: it is advanced
to the frame descriptor and cut to the length found there. On USB the length of the
frame is not compared with that of the transfer. -/

namespace Onebox

open ByteMem Calls Scan

def coexPkt : UInt8 := 0

def zigbPkt : UInt8 := 1

def rxMiscInd : UInt8 := 0xa

def fwUpgradeReq : UInt8 := 0

/-- A netbuf over the received buffer: where its data begin, unless the pointer is null, and how long
they are. -/
structure RcvNetbuf where
  data : Option Nat
  len : Nat
  deriving DecidableEq, Repr

namespace RcvNetbuf

variable (nb : RcvNetbuf)

/-- `skb_pull` returns a null pointer when it is asked for more than there is. -/
def adj (len : Nat) : RcvNetbuf :=
  if len = 0 then nb
  else if nb.len < len then { nb with data := none }
  else { data := nb.data.map (· + len), len := nb.len - len }

def trim (len : Nat) : RcvNetbuf := if 0 < len ∧ len < nb.len then { nb with len } else nb

def bytes (m : RcvBuffer) : Option (List UInt8) := nb.data.map fun a => window m a nb.len

end RcvNetbuf

/-- `Driver_Mode` as far as the checks depend on it: `QSPI_FLASHING`, and `WIFI_MODE_ON` without
`flashing_mode_on`. -/
structure RxMode where
  qspiFlashing : Bool
  wifiModeOn : Bool

structure QueuedPkt where
  rxPktType : UInt8
  nb : RcvNetbuf
  deriving DecidableEq

/-- The checks of the host descriptor, with `pktLen` bytes left in the transfer. -/
def hostDescError (actualLength offset pktLen : Nat) : Option AggrError :=
  if actualLength < 4 + frameDescSz ∨ offset < 4 then some .descTooShort
  else if ¬ (actualLength = pktLen ∨ actualLength + 4 + frameDescSz ≤ pktLen) then some .lengthCorrupted
  else none

/-- The checks of the frame descriptor. The first of them is left out of the USB build. -/
def unaggrError (bus : Bus) (mode : RxMode) (sl : Slot) (extendedDesc : Nat) : Option AggrError :=
  if bus ≠ .usb ∧ sl.actualLength ≠ unitedLen sl.offset sl.length then some .lengthMismatch
  else if mode.qspiFlashing then none
  else if extendedDesc > sl.length then some .extendedDescTooLong
  else if sl.length > maxPktLength mode.wifiModeOn then some .pktTooBig
  else none

def Slot.netbuf (sl : Slot) (len : Nat) : RcvNetbuf :=
  ((RcvNetbuf.mk (some 0) len).adj sl.offset).trim (sl.length + frameDescSz)

/-- `old` is the value that `extended_desc` has for other packets than those of the WLAN. -/
def readExtendedDesc (m : RcvBuffer) (pktType : UInt8) (sl : Slot) (old : Nat) : Calls Nat Nat :=
  if pktType = wlanPkt then do
    let b ← cell m (sl.index + sl.offset + 4)
    pure b.toNat
  else pure old

/-- On USB a request for a firmware upgrade is passed on as a coex packet. -/
def deployType (bus : Bus) (m : RcvBuffer) (rxPktType : UInt8) (nb : RcvNetbuf) : Calls Nat UInt8 :=
  if bus = .usb ∧ rxPktType = wlanPkt then
    match nb.data with
    | none => stuck
    | some a => do
      let msgType ← cell m (a + 2)
      if msgType = rxMiscInd then
        let subType ← cell m (a + 15)
        pure (if subType = fwUpgradeReq then coexPkt else rxPktType)
      else pure rxPktType
  else pure rxPktType

def deployFrame (bus : Bus) (mode : RxMode) (m : RcvBuffer) (totalLen : Nat) (rxPktType : UInt8) (sl : Slot)
    (extendedDesc : Nat) : Calls Nat (Except AggrError QueuedPkt) :=
  match unaggrError bus mode sl extendedDesc with
  | some e => pure (.error e)
  | none => do
    let nb := sl.netbuf totalLen
    let rxPktType ← deployType bus m rxPktType nb
    pure (.ok { rxPktType, nb })

/-- The reads from the received buffer, with the packet that is appended to `deferred_rx_queue` or the
check that fails. -/
def processUnaggregatedPkt (bus : Bus) (mode : RxMode) (m : RcvBuffer) (totalLen : Nat) (rxPktType : UInt8) :
    Calls Nat (Except AggrError QueuedPkt) := do
  let actualLength ← word m 0
  let offset ← word m 2
  match hostDescError actualLength offset totalLen with
  | some e => pure (.error e)
  | none =>
    let desc ← word m offset
    let sl : Slot := { index := 0, actualLength, offset, length := desc &&& 0x0fff }
    let extendedDesc ← readExtendedDesc m rxPktType sl 0
    deployFrame bus mode m totalLen rxPktType sl extendedDesc

/-- A packet of the type `ZIGB_PKT` is queued as it is. -/
def processUsbRcvPkt (mode : RxMode) (m : RcvBuffer) (len : Nat) (pktType : UInt8) :
    Calls Nat (Except AggrError QueuedPkt) :=
  if pktType = zigbPkt then pure (.ok { rxPktType := pktType, nb := ⟨some 0, len⟩ })
  else processUnaggregatedPkt .usb mode m len pktType

section Delivery

variable {bus : Bus} {mode : RxMode} {m : RcvBuffer} {len : Nat} {rxPktType : UInt8} {sl : Slot}

theorem Slot.read_zero : Slot.read m 0 = ⟨0, le16 m 0, le16 m 2, le16 m (le16 m 2) &&& 0x0fff⟩ := by
  have hoff : 0 + m.u16 (0 + 2) = le16 m 2 := Nat.zero_add _
  rw [read, hoff]
  rfl

theorem result_readExtendedDesc {old : Nat} :
    (readExtendedDesc m rxPktType sl old).result = some (extendedDesc m rxPktType sl old) := by
  rw [readExtendedDesc, extendedDesc]
  split_ifs
  · rw [result_cell_bind]
    rfl
  · rfl

theorem hostDescError_eq_none {actualLength offset pktLen : Nat} :
    hostDescError actualLength offset pktLen = none ↔
      20 ≤ actualLength ∧ 4 ≤ offset ∧ (actualLength = pktLen ∨ actualLength + 20 ≤ pktLen) := by
  rw [hostDescError, frameDescSz]
  split_ifs with hshort hcorrupt
  · exact iff_of_false (fun h => by cases h) (by omega)
  · exact iff_of_true rfl (by omega)
  · exact iff_of_false (fun h => by cases h) (by omega)

theorem result_processUnaggregatedPkt (bus : Bus) (mode : RxMode) (m : RcvBuffer) (len : Nat)
    (rxPktType : UInt8) :
    (processUnaggregatedPkt bus mode m len rxPktType).result =
      match hostDescError (Slot.read m 0).actualLength (Slot.read m 0).offset len,
        unaggrError bus mode (Slot.read m 0) (extendedDesc m rxPktType (Slot.read m 0) 0) with
      | some e, _ => some (.error e)
      | none, some e => some (.error e)
      | none, none =>
        (deployType bus m rxPktType ((Slot.read m 0).netbuf len)).result.map fun t =>
          .ok { rxPktType := t, nb := (Slot.read m 0).netbuf len } := by
  rw [Slot.read_zero, processUnaggregatedPkt, result_word_bind, result_word_bind]
  cases hostDescError (le16 m 0) (le16 m 2) len with
  | some e => rfl
  | none =>
    dsimp only
    rw [result_word_bind, bind_of_result result_readExtendedDesc]
    dsimp only
    rw [deployFrame]
    cases unaggrError bus mode _ _ with
    | some e => rfl
    | none =>
      exact result_bind_pure

/-- One of the checks of the USB build fails on the fields of the descriptors. -/
def FieldsRefused (mode : RxMode) (m : RcvBuffer) (len : Nat) (rxPktType : UInt8) : Prop :=
  (Slot.read m 0).actualLength < 20 ∨ (Slot.read m 0).offset < 4 ∨
    ((Slot.read m 0).actualLength ≠ len ∧ len < (Slot.read m 0).actualLength + 20) ∨
    mode.qspiFlashing = false ∧
      (rxPktType = wlanPkt ∧ (Slot.read m 0).length < (m ((Slot.read m 0).offset + 4)).toNat ∨
        maxPktLength mode.wifiModeOn < (Slot.read m 0).length)

instance (mode : RxMode) (m : RcvBuffer) (len : Nat) (rxPktType : UInt8) :
    Decidable (FieldsRefused mode m len rxPktType) :=
  inferInstanceAs (Decidable (_ ∨ _ ∨ _ ∨ _))

theorem extendedDesc_gt_iff :
    extendedDesc m rxPktType (Slot.read m 0) 0 > (Slot.read m 0).length ↔
      rxPktType = wlanPkt ∧ (Slot.read m 0).length < (m ((Slot.read m 0).offset + 4)).toNat := by
  have hindex : (Slot.read m 0).index + (Slot.read m 0).offset = (Slot.read m 0).offset := Nat.zero_add _
  rw [extendedDesc, hindex]
  split_ifs with hwlan
  · simp [hwlan]
  · simp [hwlan]

/-- The comparison of the length field with the length of the frame is not among the checks. -/
theorem unaggrError_usb_eq_none :
    unaggrError .usb mode (Slot.read m 0) (extendedDesc m rxPktType (Slot.read m 0) 0) = none ↔
      ¬ (mode.qspiFlashing = false ∧
        (rxPktType = wlanPkt ∧ (Slot.read m 0).length < (m ((Slot.read m 0).offset + 4)).toNat ∨
          maxPktLength mode.wifiModeOn < (Slot.read m 0).length)) := by
  rw [unaggrError, ← extendedDesc_gt_iff, if_neg fun h => h.1 rfl]
  split_ifs with hflash hext hbig
  · simp [hflash]
  · simp [hflash, hext]
  · simp [hflash, hbig]
  · simp [hflash, hext, Nat.not_lt.mp hbig]

theorem not_fieldsRefused : ¬ FieldsRefused mode m len rxPktType ↔
    hostDescError (Slot.read m 0).actualLength (Slot.read m 0).offset len = none ∧
      unaggrError .usb mode (Slot.read m 0) (extendedDesc m rxPktType (Slot.read m 0) 0) = none := by
  rw [FieldsRefused, hostDescError_eq_none, unaggrError_usb_eq_none, not_or, not_or, not_or, ← and_assoc, ← and_assoc]
  refine and_congr_left' ?_
  omega

theorem result_of_refused (h : FieldsRefused mode m len rxPktType) :
    ∃ e, (processUnaggregatedPkt .usb mode m len rxPktType).result = some (.error e) := by
  rw [result_processUnaggregatedPkt]
  cases hhost : hostDescError (Slot.read m 0).actualLength (Slot.read m 0).offset len with
  | some e => exact ⟨e, rfl⟩
  | none =>
    cases hframe : unaggrError .usb mode (Slot.read m 0) (extendedDesc m rxPktType (Slot.read m 0) 0) with
    | some e => exact ⟨e, rfl⟩
    | none => exact absurd h (not_fieldsRefused.mpr ⟨hhost, hframe⟩)

theorem result_of_not_refused (h : ¬ FieldsRefused mode m len rxPktType) :
    (processUnaggregatedPkt .usb mode m len rxPktType).result =
      (deployType .usb m rxPktType ((Slot.read m 0).netbuf len)).result.map fun t =>
        .ok { rxPktType := t, nb := (Slot.read m 0).netbuf len } := by
  obtain ⟨hhost, hframe⟩ := not_fieldsRefused.mp h
  rw [result_processUnaggregatedPkt, hhost, hframe]

theorem RcvNetbuf.adj_of_le {k : Nat} (hpos : 0 < k) (hle : k ≤ len) :
    (RcvNetbuf.mk (some 0) len).adj k = ⟨some k, len - k⟩ := by
  rw [adj, if_neg hpos.ne', if_neg (Nat.not_lt.mpr hle), Option.map_some, Nat.zero_add]

theorem Slot.netbuf_eq (hpos : 0 < sl.offset) (hle : sl.offset + frameDescSz + sl.length ≤ len) :
    sl.netbuf len = ⟨some sl.offset, sl.length + frameDescSz⟩ := by
  rw [netbuf, RcvNetbuf.adj_of_le hpos (by omega), RcvNetbuf.trim]
  by_cases hlt : sl.length + frameDescSz < len - sl.offset
  · have hk : 0 < sl.length + frameDescSz := Nat.add_pos_right _ (by decide)
    rw [if_pos ⟨hk, hlt⟩]
  · rw [if_neg fun h => hlt h.2]
    congr 1
    omega

theorem Slot.netbuf_within (hpos : 0 < sl.offset) {bs : List UInt8} (hbytes : (sl.netbuf len).bytes m = some bs) :
    sl.offset ≤ len ∧ bs.length ≤ len - sl.offset := by
  obtain ⟨a, hdata, rfl⟩ := Option.map_eq_some_iff.mp hbytes
  rw [length_window]
  by_cases hpull : len < sl.offset
  · have hadj : (RcvNetbuf.mk (some 0) len).adj sl.offset = ⟨none, len⟩ := by
      rw [RcvNetbuf.adj, if_neg hpos.ne', if_pos hpull]
    rw [netbuf, hadj, RcvNetbuf.trim] at hdata
    split_ifs at hdata
  · have hle := Nat.not_lt.mp hpull
    refine ⟨hle, ?_⟩
    rw [netbuf, RcvNetbuf.adj_of_le hpos hle, RcvNetbuf.trim]
    split_ifs with htrim
    · exact htrim.2.le
    · exact le_rfl

theorem isSome_deployType (bus : Bus) (m : RcvBuffer) (rxPktType : UInt8) (a len : Nat) :
    (deployType bus m rxPktType ⟨some a, len⟩).result.isSome := by
  rw [deployType]
  split_ifs
  · dsimp only
    rw [result_cell_bind]
    split_ifs
    · rw [result_cell_bind]
      rfl
    · rfl
  · rfl

/-- No check fails on the transfer. -/
def Accepted (mode : RxMode) (m : RcvBuffer) (len : Nat) (pktType : UInt8) : Prop :=
  ∀ e, (processUsbRcvPkt mode m len pktType).result ≠ some (.error e)

/-- Where the frame in a transfer begins and how long it is. A ZigBee packet is the transfer itself. -/
def usbFrame (m : RcvBuffer) (len : Nat) (pktType : UInt8) : Nat × Nat :=
  if pktType = zigbPkt then (0, len) else ((Slot.read m 0).offset, (Slot.read m 0).length + frameDescSz)

/-- What is queued are the bytes of the frame, and all of them. -/
def DeliversFrame (mode : RxMode) (m : RcvBuffer) (len : Nat) (pktType : UInt8) : Prop :=
  ∃ q, (processUsbRcvPkt mode m len pktType).result = some (.ok q) ∧
    q.nb.bytes m = some (window m (usbFrame m len pktType).1 (usbFrame m len pktType).2)

theorem processUsbRcvPkt_of_ne (h : rxPktType ≠ zigbPkt) :
    processUsbRcvPkt mode m len rxPktType = processUnaggregatedPkt .usb mode m len rxPktType := if_neg h

theorem accepted_iff (h : rxPktType ≠ zigbPkt) :
    Accepted mode m len rxPktType ↔ ¬ FieldsRefused mode m len rxPktType := by
  rw [Accepted, processUsbRcvPkt_of_ne h]
  constructor
  · intro hacc href
    obtain ⟨e, he⟩ := result_of_refused href
    exact hacc e he
  · intro hacc e he
    rw [result_of_not_refused hacc] at he
    obtain ⟨t, -, ht⟩ := Option.map_eq_some_iff.mp he
    cases ht

theorem deliversFrame_zigb (mode : RxMode) (m : RcvBuffer) (len : Nat) : DeliversFrame mode m len zigbPkt :=
  ⟨_, rfl, rfl⟩

/-- A packet that passes the checks is delivered as received if and only if its frame ends within the
transfer. -/
theorem deliversFrame_iff (h : rxPktType ≠ zigbPkt) (hacc : ¬ FieldsRefused mode m len rxPktType) :
    DeliversFrame mode m len rxPktType ↔
      (Slot.read m 0).offset + frameDescSz + (Slot.read m 0).length ≤ len := by
  have hoff := (hostDescError_eq_none.mp (not_fieldsRefused.mp hacc).1).2.1
  have hres := result_of_not_refused hacc
  rw [DeliversFrame, processUsbRcvPkt_of_ne h, usbFrame, if_neg h]
  constructor
  · rintro ⟨q, hq, hbytes⟩
    rw [hres] at hq
    obtain ⟨t, -, ht⟩ := Option.map_eq_some_iff.mp hq
    cases ht
    obtain ⟨hpull, hlen⟩ := Slot.netbuf_within (by omega) hbytes
    rw [length_window] at hlen
    omega
  · intro hle
    rw [Slot.netbuf_eq (by omega) hle] at hres
    obtain ⟨t, ht⟩ := Option.isSome_iff_exists.mp (isSome_deployType .usb m rxPktType
      (Slot.read m 0).offset ((Slot.read m 0).length + frameDescSz))
    rw [ht, Option.map_some] at hres
    exact ⟨_, hres, rfl⟩

theorem accepted_delivers_iff (mode : RxMode) (m : RcvBuffer) (len : Nat) (pktType : UInt8) :
    (Accepted mode m len pktType → DeliversFrame mode m len pktType) ↔
      pktType = zigbPkt ∨ FieldsRefused mode m len pktType ∨
        (Slot.read m 0).offset + frameDescSz + (Slot.read m 0).length ≤ len := by
  by_cases hzigb : pktType = zigbPkt
  · subst hzigb
    exact iff_of_true (fun _ => deliversFrame_zigb mode m len) (.inl rfl)
  · rw [accepted_iff hzigb, or_iff_right hzigb]
    by_cases href : FieldsRefused mode m len pktType
    · exact iff_of_true (fun h => absurd href h) (.inl href)
    · rw [deliversFrame_iff hzigb href, or_iff_right href]
      exact ⟨fun h => h href, fun h _ => h⟩

/-- For every transfer: what is accepted has its frame within the transfer and is delivered as received if and
only if it is a ZigBee packet, its fields fail one of the checks, or the frame that they describe ends within
the transfer. That it is delivered as received is equivalent by itself. -/
theorem usb_delivers_received_iff (mode : RxMode) (m : RcvBuffer) (len : Nat) (pktType : UInt8) :
    ((Accepted mode m len pktType →
        (usbFrame m len pktType).1 + (usbFrame m len pktType).2 ≤ len ∧ DeliversFrame mode m len pktType) ↔
      pktType = zigbPkt ∨ FieldsRefused mode m len pktType ∨
        (Slot.read m 0).offset + frameDescSz + (Slot.read m 0).length ≤ len) ∧
    ((Accepted mode m len pktType → DeliversFrame mode m len pktType) ↔
      pktType = zigbPkt ∨ FieldsRefused mode m len pktType ∨
        (Slot.read m 0).offset + frameDescSz + (Slot.read m 0).length ≤ len) := by
  have hdelivers := accepted_delivers_iff mode m len pktType
  refine ⟨⟨fun h => hdelivers.mp fun hacc => (h hacc).2, fun h hacc => ⟨?_, hdelivers.mpr h hacc⟩⟩, hdelivers⟩
  rw [usbFrame]
  split_ifs with hzigb
  · exact (Nat.zero_add len).le
  · have hfits := (h.resolve_left hzigb).resolve_left ((accepted_iff hzigb).mp hacc)
    dsimp only
    omega

/-- A transfer of 24 bytes whose frame descriptor says `length`. -/
def urbOf (length : UInt16) : RcvBuffer := fun a =>
  if a = 0 then 24 else if a = 2 then 4
  else if a = 4 then length.toUInt8 else if a = 5 then (length >>> 8).toUInt8 else 0

/-- The descriptor says 2047 bytes, and the 20 bytes that are there are queued. -/
theorem shortUrb_accepted :
    Accepted ⟨false, true⟩ (urbOf 2047) 24 wlanPkt ∧
      (processUsbRcvPkt ⟨false, true⟩ (urbOf 2047) 24 wlanPkt).result = some (.ok ⟨wlanPkt, ⟨some 4, 20⟩⟩) ∧
      usbFrame (urbOf 2047) 24 wlanPkt = (4, 2063) ∧ ¬ DeliversFrame ⟨false, true⟩ (urbOf 2047) 24 wlanPkt := by
  have hacc : ¬ FieldsRefused ⟨false, true⟩ (urbOf 2047) 24 wlanPkt := by decide
  refine ⟨(accepted_iff (by decide)).mpr hacc, by decide, by decide, ?_⟩
  rw [deliversFrame_iff (by decide) hacc]
  decide

end Delivery

end Onebox
