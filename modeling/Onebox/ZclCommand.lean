import Onebox.ZigbFrames

/-! The ZCL framing of `rsi_zigb_zcl_create_command`. The application puts its request into the payload of the
data request, and the frame is built over it in the same bytes. -/

namespace Onebox

open ByteMem CLayout Scan

/-- `command_type`, `manufacture_specific`, `a_manufacturer_code`, `disable_default_response`,
`command_identifier` and the union `Foundation_Commands`. -/
def appZclRequest : List Member := [byte, byte, bytes 2, byte, byte, bytes 20]

/-- `command_identifier` and `Foundation_Commands`. -/
def zclCommand : List Member := [byte, bytes 20]

/-- `frame_control`, `a_manufacture_code`, `transaction_sequence_number` and `ZCL_Command`. -/
def zclHeaderAndPayload : List Member := [byte, bytes 2, byte, bytes 21]

def zclHeaderLength : Nat := sizeof appZclRequest - sizeof zclCommand + 1

def rsiZigbMcpy (m : Nat → UInt8) (src dst : Nat) (size : UInt8) : Nat → UInt8 := forward m dst src size.toNat

/-- The memory up to the command identifier, `data_length` and what is left of `ZCL_Cmd_Data_Length`. -/
structure ZclHeader where
  mem : Nat → UInt8
  dataLength : UInt8
  left : UInt8

/-- The part before the transaction sequence number. -/
def zclFrameControl (m : Nat → UInt8) (direction : UInt8) (pAsdu pData : Nat) (length : UInt8) : ZclHeader :=
  let manufactureSpecific := m (pData + offset appZclRequest 1)
  let disableDefaultResponse := m (pData + offset appZclRequest 3)
  let m := Function.update m pAsdu (if m pData &&& 0x01 = 0 then 0x00 else 0x01)
  let m := Function.update m pAsdu (m pAsdu ||| direction)
  let m := if disableDefaultResponse ≠ 0 then Function.update m pAsdu (m pAsdu ||| 0x10) else m
  if manufactureSpecific ≠ 0 then
    let m := Function.update m pAsdu (m pAsdu ||| 0x04)
    ⟨rsiZigbMcpy m (pData + offset appZclRequest 2) (pAsdu + offset zclHeaderAndPayload 1) 2, 3, length - 3⟩
  else ⟨m, 1, length - 5⟩

def zclHeader (m : Nat → UInt8) (direction : UInt8) (pAsdu pData : Nat) (length seqNum : UInt8) : ZclHeader :=
  let h := zclFrameControl m direction pAsdu pData length
  let m := Function.update h.mem (pAsdu + h.dataLength.toNat) seqNum
  let m := Function.update m (pAsdu + (h.dataLength + 1).toNat) (m (pData + offset appZclRequest 4))
  ⟨m, h.dataLength + 2, h.left - 1⟩

/-- The memory afterwards and the length of the frame. -/
def rsiZigbZclCreateCommand (m : Nat → UInt8) (direction : UInt8) (pAsdu pData : Nat)
    (length seqNum : UInt8) : (Nat → UInt8) × UInt8 :=
  let h := zclHeader m direction pAsdu pData length seqNum
  (rsiZigbMcpy h.mem (pData + offset appZclRequest 5) (pAsdu + h.dataLength.toNat) h.left,
    h.dataLength + h.left)

/-- A request of the application. -/
structure ZclRequest where
  commandType : UInt8
  manufactureSpecific : UInt8
  code0 : UInt8
  code1 : UInt8
  disableDefaultResponse : UInt8
  commandIdentifier : UInt8
  payload : List UInt8

namespace ZclRequest

variable (r : ZclRequest)

def bytes : List UInt8 :=
  [r.commandType, r.manufactureSpecific, r.code0, r.code1, r.disableDefaultResponse, r.commandIdentifier] ++
    r.payload

def frameControl (direction : UInt8) : UInt8 :=
  let fc := (if r.commandType &&& 0x01 = 0 then 0x00 else 0x01) ||| direction
  let fc := if r.disableDefaultResponse ≠ 0 then fc ||| 0x10 else fc
  if r.manufactureSpecific ≠ 0 then fc ||| 0x04 else fc

/-- The frame as it is meant. -/
def frame (direction seqNum : UInt8) : List UInt8 :=
  r.frameControl direction :: (if r.manufactureSpecific ≠ 0 then [r.code0, r.code1] else []) ++
    seqNum :: r.commandIdentifier :: r.payload

end ZclRequest

section Framing

variable {r : ZclRequest} {m : Nat → UInt8} {a : Nat} {direction seqNum length : UInt8}

/-- The request stands in the memory, its fields in the first six bytes. -/
structure ZclRequest.StandsAt (r : ZclRequest) (m : Nat → UInt8) (a : Nat) : Prop where
  commandType : m a = r.commandType
  manufactureSpecific : m (a + 1) = r.manufactureSpecific
  code0 : m (a + 2) = r.code0
  code1 : m (a + 3) = r.code1
  disableDefaultResponse : m (a + 4) = r.disableDefaultResponse
  commandIdentifier : m (a + 5) = r.commandIdentifier
  payload : window m (a + 6) r.payload.length = r.payload

theorem ZclRequest.standsAt (h : window m a (6 + r.payload.length) = r.bytes) : r.StandsAt m a := by
  rw [window_add, bytes] at h
  obtain ⟨hfields, hpayload⟩ := List.append_inj h length_window
  change [m a, m (a + 1), m (a + 2), m (a + 3), m (a + 4), m (a + 5)] = _ at hfields
  simp only [List.cons.injEq] at hfields
  obtain ⟨h0, h1, h2, h3, h4, h5, -⟩ := hfields
  exact ⟨h0, h1, h2, h3, h4, h5, hpayload⟩

theorem zclFrameControl_eq (hr : r.StandsAt m a) :
    zclFrameControl m direction a a length =
      if r.manufactureSpecific ≠ 0 then
        ⟨rsiZigbMcpy (Function.update m a (r.frameControl direction)) (a + 2) (a + 1) 2, 3, length - 3⟩
      else ⟨Function.update m a (r.frameControl direction), 1, length - 5⟩ := by
  have hman : m (a + offset appZclRequest 1) = r.manufactureSpecific := hr.manufactureSpecific
  have hdis : m (a + offset appZclRequest 3) = r.disableDefaultResponse := hr.disableDefaultResponse
  simp only [zclFrameControl, ZclRequest.frameControl, hman, hdis, hr.commandType, Function.update_self,
    Function.update_idem]
  by_cases h : r.disableDefaultResponse ≠ 0 <;> by_cases hspec : r.manufactureSpecific ≠ 0
  · simp only [if_pos h, if_pos hspec, Function.update_self, Function.update_idem]
    rfl
  · simp only [if_pos h, if_neg hspec]
  · simp only [if_neg h, if_pos hspec, Function.update_self, Function.update_idem]
    rfl
  · simp only [if_neg h, if_neg hspec]

theorem update_frameControl (x : UInt8) :
    Function.update (Function.update m a (r.frameControl direction)) (a + 1) x =
      put m a [r.frameControl direction, x] := by
  rw [← put_singleton (r.frameControl direction)]
  exact update_put x rfl

/-- In place the header takes the first bytes of the request, and no field is overwritten before it is
read. -/
theorem zclHeader_generic (hr : r.StandsAt m a) (hman : r.manufactureSpecific = 0)
    (direction length seqNum : UInt8) :
    zclHeader m direction a a length seqNum =
      ⟨put m a [r.frameControl direction, seqNum, r.commandIdentifier], 3, length - 5 - 1⟩ := by
  have hid : put m a [r.frameControl direction, seqNum] (a + 5) = r.commandIdentifier := by
    rw [put_of_not_mem (.inr (by simp)), hr.commandIdentifier]
  rw [zclHeader, zclFrameControl_eq hr, if_neg (not_not.mpr hman)]
  show ZclHeader.mk (Function.update (Function.update (Function.update m a _) (a + 1) _) (a + 2)
    (Function.update (Function.update m a _) (a + 1) _ (a + 5))) 3 _ = _
  rw [update_frameControl, hid]
  exact congrArg (ZclHeader.mk · 3 _) (update_put r.commandIdentifier rfl)

theorem mcpy_manufacturerCode (hr : r.StandsAt m a) :
    rsiZigbMcpy (Function.update m a (r.frameControl direction)) (a + 2) (a + 1) 2 =
      put m a [r.frameControl direction, r.code0, r.code1] := by
  have h0 : Function.update m a (r.frameControl direction) (a + 2) = r.code0 := by
    rw [Function.update_of_ne (by omega), hr.code0]
  have h1 : put m a [r.frameControl direction, r.code0] (a + 3) = r.code1 := by
    rw [put_of_not_mem (.inr (by simp)), hr.code1]
  show Function.update (Function.update (Function.update m a _) (a + 1) (Function.update m a _ (a + 2)))
    (a + 2) (Function.update (Function.update m a _) (a + 1) (Function.update m a _ (a + 2)) (a + 3)) = _
  rw [h0, update_frameControl, h1]
  exact update_put r.code1 rfl

theorem zclHeader_manufacturer (hr : r.StandsAt m a) (hman : r.manufactureSpecific ≠ 0)
    (direction length seqNum : UInt8) :
    zclHeader m direction a a length seqNum =
      ⟨put m a [r.frameControl direction, r.code0, r.code1, seqNum, r.commandIdentifier], 5,
        length - 3 - 1⟩ := by
  have hid : put m a [r.frameControl direction, r.code0, r.code1, seqNum] (a + 5) = r.commandIdentifier := by
    rw [put_of_not_mem (.inr (by simp)), hr.commandIdentifier]
  have hseq : Function.update (put m a [r.frameControl direction, r.code0, r.code1]) (a + 3) seqNum =
      put m a [r.frameControl direction, r.code0, r.code1, seqNum] := update_put seqNum rfl
  rw [zclHeader, zclFrameControl_eq hr, if_pos hman, mcpy_manufacturerCode hr]
  show ZclHeader.mk (Function.update (Function.update (put m a _) (a + 3) _) (a + 4)
    (Function.update (put m a _) (a + 3) _ (a + 5))) 5 _ = _
  rw [hseq, hid]
  exact congrArg (ZclHeader.mk · 5 _) (update_put r.commandIdentifier rfl)

/-- The payload moves down behind the header, byte by byte. -/
theorem window_mcpy_payload {header : List UInt8} (hlen : header.length ≤ 6) (n : UInt8) :
    window (rsiZigbMcpy (put m a header) (a + 6) (a + header.length) n) a (header.length + n.toNat) =
      header ++ window m (a + 6) n.toNat := by
  have hkept : window (copy (put m a header) (a + header.length) (put m a header) (a + 6) n.toNat) a
      header.length = window (put m a header) a header.length :=
    window_eq_iff.mpr fun i hi => copy_of_not_mem (by omega)
  have hmoved : window (put m a header) (a + 6) n.toNat = window m (a + 6) n.toNat :=
    window_eq_iff.mpr fun i _ => put_of_not_mem (by omega)
  rw [rsiZigbMcpy, forward_eq_copy (by omega), window_add, window_copy, hkept, hmoved, window_put]

/-- In place: behind the header come as many bytes from the payload on as are left of the length. -/
theorem createCommand_of_header {header : List UInt8} {dataLength left : UInt8} {k : Nat}
    (hhead : zclHeader m direction a a length seqNum = ⟨put m a header, dataLength, left⟩)
    (hdata : dataLength.toNat = header.length) (hleft : left.toNat = k) (hlen : header.length ≤ 6)
    (hsum : header.length + k < 2 ^ 8) :
    (rsiZigbZclCreateCommand m direction a a length seqNum).2.toNat = header.length + k ∧
      window (rsiZigbZclCreateCommand m direction a a length seqNum).1 a (header.length + k) =
        header ++ window m (a + 6) k := by
  rw [rsiZigbZclCreateCommand, hhead]
  constructor
  · rw [UInt8.toNat_add, hdata, hleft]
    exact Nat.mod_eq_of_lt hsum
  · show window (rsiZigbMcpy (put m a header) (a + 6) (a + dataLength.toNat) left) a _ = _
    rw [hdata, ← hleft]
    exact window_mcpy_payload hlen left

theorem toNat_sub_sub {d k : Nat} {b c : UInt8} (hk : b.toNat + c.toNat + k = d + 6) (hd : d + 6 < 2 ^ 8) :
    (UInt8.ofNat (d + 6) - b - c).toNat = k := by
  rw [UInt8.toNat_sub, UInt8.toNat_sub, UInt8.toNat_ofNat']
  omega

theorem createCommand_generic (hr : r.StandsAt m a) (hd : r.payload.length ≤ 45)
    (hman : r.manufactureSpecific = 0) (direction seqNum : UInt8) :
    let out := rsiZigbZclCreateCommand m direction a a (UInt8.ofNat (r.payload.length + 6)) seqNum
    out.2.toNat = 3 + r.payload.length ∧
      window out.1 a (3 + r.payload.length) = r.frame direction seqNum := by
  have hleft : (UInt8.ofNat (r.payload.length + 6) - 5 - 1).toNat = r.payload.length :=
    toNat_sub_sub (Nat.add_comm _ _) (by omega)
  have hout := createCommand_of_header (zclHeader_generic hr hman direction _ seqNum) rfl hleft (by simp)
    (by rw [List.length_cons, List.length_cons, List.length_singleton]; omega)
  rw [hr.payload] at hout
  rw [ZclRequest.frame, if_neg (not_not.mpr hman)]
  exact hout

/-- The two bytes behind the payload are taken for a part of it. -/
theorem createCommand_manufacturer (hr : r.StandsAt m a) (hd : r.payload.length ≤ 45)
    (hman : r.manufactureSpecific ≠ 0) (direction seqNum : UInt8) :
    let out := rsiZigbZclCreateCommand m direction a a (UInt8.ofNat (r.payload.length + 6)) seqNum
    out.2.toNat = 5 + (r.payload.length + 2) ∧
      window out.1 a (5 + (r.payload.length + 2)) =
        r.frame direction seqNum ++ window m (a + 6 + r.payload.length) 2 := by
  have hleft : (UInt8.ofNat (r.payload.length + 6) - 3 - 1).toNat = r.payload.length + 2 :=
    toNat_sub_sub (show 3 + 1 + _ = _ by omega) (by omega)
  have hout := createCommand_of_header (zclHeader_manufacturer hr hman direction _ seqNum) rfl hleft (by simp)
    (by simp only [List.length_cons, List.length_nil]; omega)
  have hbehind : window m (a + 6) (r.payload.length + 2) =
      r.payload ++ window m (a + 6 + r.payload.length) 2 := by
    rw [window_add, hr.payload]
  rw [hbehind] at hout
  rw [ZclRequest.frame, if_pos hman]
  exact hout

end Framing

/-- The frame is built in place and its length returned. -/
def ZclFramed (r : ZclRequest) (direction seqNum : UInt8) (a : Nat) (out : (Nat → UInt8) × UInt8) : Prop :=
  out.2.toNat = (r.frame direction seqNum).length ∧ window out.1 a out.2.toNat = r.frame direction seqNum

/-- With the manufacturer code the length counts two bytes too many: the frame is right just without it. -/
theorem zclFramed_iff (r : ZclRequest) (m : Nat → UInt8) (a : Nat) (direction seqNum : UInt8)
    (hd : r.payload.length ≤ 45) (hm : window m a (6 + r.payload.length) = r.bytes) :
    ZclFramed r direction seqNum a
        (rsiZigbZclCreateCommand m direction a a (UInt8.ofNat (r.payload.length + 6)) seqNum) ↔
      r.manufactureSpecific = 0 := by
  have hr := ZclRequest.standsAt hm
  constructor
  · intro h
    by_contra hman
    obtain ⟨hlen, -⟩ := createCommand_manufacturer hr hd hman direction seqNum
    have hcount := h.1
    rw [hlen, ZclRequest.frame, if_pos hman] at hcount
    simp only [List.length_append, List.length_cons, List.length_nil] at hcount
    omega
  · intro hman
    obtain ⟨hlen, hwindow⟩ := createCommand_generic hr hd hman direction seqNum
    rw [ZclFramed, hlen, ← hwindow, length_window]
    exact ⟨rfl, rfl⟩

/-- A toggle command for the light, with the manufacturer code 0x1037. -/
def toggleRequest (manufactureSpecific : UInt8) : ZclRequest :=
  { commandType := 1, manufactureSpecific, code0 := 0x37, code1 := 0x10, disableDefaultResponse := 0x10
    commandIdentifier := 2, payload := [] }

theorem toggle_manufacturer_too_long :
    let m := put (fun _ => 0xee) 0 (toggleRequest 1).bytes
    let out := rsiZigbZclCreateCommand m 0 0 0 6 0
    window m 0 6 = (toggleRequest 1).bytes ∧ (toggleRequest 1).frame 0 0 = [0x15, 0x37, 0x10, 0, 2] ∧
      window out.1 0 out.2.toNat = [0x15, 0x37, 0x10, 0, 2, 0xee, 0xee] ∧
      ¬ ZclFramed (toggleRequest 1) 0 0 0 out := by
  refine ⟨by decide, by decide, by decide, fun h => ?_⟩
  exact absurd h.1 (by decide)

/-- A move to the level 0x80 in one second. -/
def levelRequest : ZclRequest := { toggleRequest 0 with commandIdentifier := 4, payload := [0x80, 0x0a, 0] }

theorem level_framed :
    let m := put (fun _ => 0xee) 0 levelRequest.bytes
    let out := rsiZigbZclCreateCommand m 0 0 0 9 0
    window m 0 9 = levelRequest.bytes ∧ ZclFramed levelRequest 0 0 0 out ∧
      window out.1 0 out.2.toNat = [0x11, 0, 4, 0x80, 0x0a, 0] :=
  ⟨window_put, (zclFramed_iff levelRequest _ 0 0 0 (by decide) window_put).mpr rfl, by decide⟩

/-! The application's own requests are not manufacturer specific. -/

/-- `stack` is what `aPayload` holds before. The short address that is asked for is not used: the request goes
to the coordinator. -/
def rsiZigbAppSendData (stack : Nat → UInt8) (direction commandType destEP commandId : UInt8)
    (cluster : BitVec 16) (dataLength : UInt8) (payload : Nat → UInt8) : ApsdeDataRequest :=
  let m := Function.update stack (offset appZclRequest 0) commandType
  let m := Function.update m (offset appZclRequest 3) 0x10
  let m := Function.update m (offset appZclRequest 1) 0
  let m := Function.update m (offset appZclRequest 4) commandId
  let m := copy m zclHeaderLength payload 0 dataLength.toNat
  let out := rsiZigbZclCreateCommand m direction 0 0 (dataLength + UInt8.ofNat zclHeaderLength) 0
  { destEndpoint := destEP, srcEndpoint := 0x01, profileId := 0x0104, clusterId := cluster
    asduLength := out.2, txOptions := 0x02 ||| 0x04, radius := 0x1e, aPayload := out.1 }

section AppSendData

variable {stack payload : Nat → UInt8} {direction commandType destEP commandId dataLength : UInt8}
  {cluster : BitVec 16}

def appRequest (stack : Nat → UInt8) (commandType commandId : UInt8) (data : List UInt8) : ZclRequest :=
  { commandType, manufactureSpecific := 0, code0 := stack 2, code1 := stack 3, disableDefaultResponse := 0x10
    commandIdentifier := commandId, payload := data }

theorem standsAt_appRequest (stack payload : Nat → UInt8) (commandType commandId : UInt8) (n : Nat) :
    (appRequest stack commandType commandId (window payload 0 n)).StandsAt
      (copy (Function.update (Function.update (Function.update (Function.update stack 0 commandType) 4 0x10)
        1 0) 5 commandId) 6 payload 0 n) 0 := by
  refine ⟨rfl, rfl, rfl, rfl, rfl, rfl, ?_⟩
  show window _ 6 (window payload 0 n).length = window payload 0 n
  rw [length_window]
  exact window_copy

theorem asdu_rsiZigbAppSendData (hd : dataLength.toNat ≤ 45) :
    (rsiZigbAppSendData stack direction commandType destEP commandId cluster dataLength payload).asdu =
      (appRequest stack commandType commandId (window payload 0 dataLength.toNat)).frame direction 0 := by
  have hpayload :
      (appRequest stack commandType commandId (window payload 0 dataLength.toNat)).payload.length =
        dataLength.toNat := length_window
  have hlength : UInt8.ofNat (dataLength.toNat + 6) = dataLength + 6 := by
    rw [UInt8.ofNat_add, UInt8.ofNat_toNat]
    rfl
  have hstands := standsAt_appRequest stack payload commandType commandId dataLength.toNat
  have hout := createCommand_generic hstands (by rw [hpayload]; exact hd) rfl direction 0
  rw [hpayload, hlength] at hout
  obtain ⟨hlen, hframe⟩ := hout
  rw [← hframe, ← hlen]
  rfl

/-- The packet to the device ends with the ZCL frame. -/
theorem framed_rsiZigbAppSendData (buf ieeeAddress : Nat → UInt8) (hd : dataLength.toNat ≤ 45) :
    (rsiZigbSendUnicastData buf 0 ieeeAddress
        (rsiZigbAppSendData stack direction commandType destEP commandId cluster dataLength payload)).Framed
      unicastDataFrameSnd
      ((appRequest stack commandType commandId (window payload 0 dataLength.toNat)).frame direction 0) := by
  have hasdu :
      (rsiZigbAppSendData stack direction commandType destEP commandId cluster dataLength payload).asdu = _ :=
    asdu_rsiZigbAppSendData hd
  have hlength := congrArg List.length hasdu
  rw [ApsdeDataRequest.asdu, length_window] at hlength
  have hieee : ∀ c ∈ [(⟨0, 8, 8, 8⟩ : Copied)], c.Inside := by
    intro c hc
    rw [List.mem_singleton.mp hc, Copied.inside_iff]
    omega
  rw [← hasdu]
  refine (framed_sendData rfl (by decide) (by decide) hieee).mpr ⟨by decide, ?_⟩
  rw [hlength]
  show (window payload 0 dataLength.toNat).length + 3 ≤ 0x33
  rw [length_window]
  omega

end AppSendData

end Onebox
