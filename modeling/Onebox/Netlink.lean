import Onebox.RxAggregate
import Onebox.Scan

/-! Transmission from user space: `onebox_genlrecv` of BT and `zigb_genlrecv` take a packet
out of the attribute of a generic netlink message. The length of the packet is part of
the attribute, and is not compared with the length of the attribute. -/

namespace Onebox

open ByteMem Calls Scan

/-- The payload of `RSI_USER_A_MSG`. What lies behind its `len` bytes is arbitrary. -/
structure NlAttr where
  len : Nat
  bytes : Nat → UInt8

/-- The control block, the debug zones, the allocation, `fsm_state` and the status of the coex layer as
the handlers find them. -/
structure GenlEnv where
  gcb : Bool
  adapter : Bool
  gcDone : Bool
  zoneInfo : Bool
  alloc : Bool
  deviceReady : Bool
  coexStatus : Int

/-- The return value of a handler, with the packet passed to `onebox_send_pkt_to_coex`. -/
structure GenlResult where
  rc : Int
  handed : Option (List UInt8)
  deriving DecidableEq

def btDataQ : Nat := 7

/-- `frame_desc` of `send_bt_pkt`, of which only the first and the last word are assigned. -/
def btFrameDesc (headroom : Nat → UInt8) (pktLen : Nat) (btPktType : UInt8) : List UInt8 :=
  let word0 := btDataQ <<< 12 ||| (pktLen &&& 0xfff)
  [UInt8.ofNat (word0 % 256), UInt8.ofNat (word0 / 256)] ++ window headroom 2 12 ++ [btPktType, 0]

/-- `len` of a netbuf is a `uint16`. -/
def sendBtPkt (headroom : Nat → UInt8) (payload : List UInt8) (btPktType : UInt8) : List UInt8 :=
  let len := (payload.length + frameDescSz) % 2 ^ 16
  let pktLen := (len + 2 ^ 16 - frameDescSz) % 2 ^ 16
  (btFrameDesc headroom pktLen btPktType ++ payload).take len

def btXmit (env : GenlEnv) (headroom : Nat → UInt8) (payload : List UInt8) (btPktType : UInt8) :
    Option (List UInt8) :=
  if payload.length = 0 ∨ env.deviceReady = false then none
  else some (sendBtPkt headroom payload btPktType)

def genlrecvHandler (env : GenlEnv) (attr : Option NlAttr) : Option NlAttr := if env.gcDone then attr else none

/-- `onebox_print_dump` in the zone `ONEBOX_ZONE_INFO`. -/
def dumpInfo (env : GenlEnv) (b : Nat → UInt8) (a k : Nat) : Calls Nat Unit :=
  if env.zoneInfo then do
    let _ ← block b a k
    pure ()
  else pure ()

def oneboxGenlrecv (env : GenlEnv) (headroom : Nat → UInt8) (attr : Option NlAttr) : Calls Nat GenlResult :=
  if env.gcb = false ∨ env.adapter = false then pure ⟨-1, none⟩
  else match genlrecvHandler env attr with
    | none => pure ⟨-1, none⟩
    | some na => do
      let pkttype ← word na.bytes 0
      let len ← word na.bytes 2
      dumpInfo env na.bytes 16 len
      if env.alloc then
        let payload ← block na.bytes 16 len
        pure ⟨0, btXmit env headroom payload (UInt8.ofNat pkttype)⟩
      else pure ⟨-12, none⟩

def zigbGenlrecv (env : GenlEnv) (attr : Option NlAttr) : Calls Nat GenlResult :=
  if env.gcb = false ∨ env.adapter = false then pure ⟨-1, none⟩
  else match genlrecvHandler env attr with
    | none => pure ⟨-1, none⟩
    | some na => do
      let desc ← word na.bytes 0
      let len := desc &&& 0x0fff
      dumpInfo env na.bytes 0 (len + 16)
      if env.alloc then
        let data ← block na.bytes 0 (len + 16)
        pure ⟨env.coexStatus, some data⟩
      else pure ⟨-12, none⟩

inductive NlHandler
  | bt | zigb
  deriving DecidableEq, Repr

namespace NlHandler

def recv (env : GenlEnv) (headroom : Nat → UInt8) (attr : Option NlAttr) : NlHandler → Calls Nat GenlResult
  | .bt => oneboxGenlrecv env headroom attr
  | .zigb => zigbGenlrecv env attr

def embeddedLen (na : NlAttr) : NlHandler → Nat
  | .bt => le16 na.bytes 2
  | .zigb => le16 na.bytes 0 &&& 0x0fff

/-- How much of a packet the driver builds itself. A ZigBee packet comes with its descriptor. -/
def ownDesc : NlHandler → Nat
  | .bt => frameDescSz
  | .zigb => 0

end NlHandler

def lengthField (pkt : List UInt8) : Nat := le16 (fun i => pkt.getD i 0) 0 &&& 0x0fff

/-- Behind the descriptor of the driver a packet has bytes of the attribute only, and the field in the
descriptor says how many. -/
structure WellFormedPkt (h : NlHandler) (na : NlAttr) (pkt : List UInt8) : Prop where
  user : ∃ a k, a + k ≤ na.len ∧ pkt.drop h.ownDesc = window na.bytes a k
  length : pkt.length = frameDescSz + lengthField pkt

/-- What the handlers owe to the user who sends a message. -/
structure UsesOnlyUserBytes (h : NlHandler) (env : GenlEnv) (headroom : Nat → UInt8) (na : NlAttr) : Prop where
  reads : Within na.len (h.recv env headroom (some na))
  pkt : ∀ r pkt, (h.recv env headroom (some na)).result = some r → r.handed = some pkt → WellFormedPkt h na pkt
  rejects : ∀ r, (h.recv env headroom (some na)).result = some r → na.len < frameDescSz + h.embeddedLen na →
    r.handed = none

/-- The handler finds its control block and the memory it allocates. -/
structure GenlEnv.Ready (env : GenlEnv) : Prop where
  gcb : env.gcb = true
  adapter : env.adapter = true
  gcDone : env.gcDone = true
  alloc : env.alloc = true

/-- The announced bytes are in the attribute, and for BT they can be counted in 12 bits. An empty BT packet
is dropped as soon as the four bytes before it are read. -/
def NlHandler.Fits (env : GenlEnv) (na : NlAttr) : NlHandler → Prop
  | .bt =>
    4 ≤ na.len ∧
      (le16 na.bytes 2 ≠ 0 →
        frameDescSz + le16 na.bytes 2 ≤ na.len ∧ (env.deviceReady = true → le16 na.bytes 2 < 4096))
  | .zigb => frameDescSz + (le16 na.bytes 0 &&& 0x0fff) ≤ na.len

section Bounds

variable {env : GenlEnv} {headroom : Nat → UInt8} {na : NlAttr} {b : Nat → UInt8} {n a k : Nat}

theorem within_dumpInfo_bind {α : Type} {f : Unit → Calls Nat α} :
    Within n (dumpInfo env b a k >>= f) ↔
      (env.zoneInfo = true → 0 < k → a + k ≤ n) ∧ Within n (f ()) := by
  rw [dumpInfo]
  by_cases hz : env.zoneInfo = true
  · have hres : ((block b a k >>= fun _ => pure ()) : Calls Nat Unit).result = some () := rfl
    rw [if_pos hz, within_bind hres, within_block_bind]
    simp [hz]
  · have hres : (pure () : Calls Nat Unit).result = some () := rfl
    rw [if_neg hz, within_bind hres]
    simp [hz]

theorem result_dumpInfo_bind {α : Type} {f : Unit → Calls Nat α} :
    (dumpInfo env b a k >>= f).result = (f ()).result := by
  have hres : (dumpInfo env b a k).result = some () := by
    rw [dumpInfo]
    split_ifs
    · rfl
    · rfl
  rw [bind_of_result hres]

theorem oneboxGenlrecv_eq (h : env.Ready) :
    oneboxGenlrecv env headroom (some na) = (do
      let pkttype ← word na.bytes 0
      let len ← word na.bytes 2
      dumpInfo env na.bytes 16 len
      let payload ← block na.bytes 16 len
      pure ⟨0, btXmit env headroom payload (UInt8.ofNat pkttype)⟩) := by
  simp [oneboxGenlrecv, genlrecvHandler, h.gcb, h.adapter, h.gcDone, h.alloc]

theorem zigbGenlrecv_eq (h : env.Ready) :
    zigbGenlrecv env (some na) = (do
      let desc ← word na.bytes 0
      dumpInfo env na.bytes 0 ((desc &&& 0x0fff) + 16)
      let data ← block na.bytes 0 ((desc &&& 0x0fff) + 16)
      pure ⟨env.coexStatus, some data⟩) := by
  simp [zigbGenlrecv, genlrecvHandler, h.gcb, h.adapter, h.gcDone, h.alloc]

theorem result_oneboxGenlrecv (headroom : Nat → UInt8) (na : NlAttr) (h : env.Ready) :
    (oneboxGenlrecv env headroom (some na)).result =
      some ⟨0, btXmit env headroom (window na.bytes 16 (le16 na.bytes 2)) (UInt8.ofNat (le16 na.bytes 0))⟩ := by
  rw [oneboxGenlrecv_eq h, result_word_bind, result_word_bind, result_dumpInfo_bind, result_block_bind]
  rfl

theorem result_zigbGenlrecv (na : NlAttr) (h : env.Ready) :
    (zigbGenlrecv env (some na)).result =
      some ⟨env.coexStatus, some (window na.bytes 0 ((le16 na.bytes 0 &&& 0x0fff) + 16))⟩ := by
  rw [zigbGenlrecv_eq h, result_word_bind, result_dumpInfo_bind, result_block_bind]
  rfl

theorem within_oneboxGenlrecv (h : env.Ready) :
    Within n (oneboxGenlrecv env headroom (some na)) ↔
      4 ≤ n ∧ (le16 na.bytes 2 ≠ 0 → frameDescSz + le16 na.bytes 2 ≤ n) := by
  rw [oneboxGenlrecv_eq h, within_word_bind, within_word_bind, within_dumpInfo_bind, within_block_bind, frameDescSz]
  simp only [within_pure, and_true]
  constructor
  · rintro ⟨-, hhead, -, hcopy⟩
    exact ⟨by omega, fun hne => hcopy (by omega)⟩
  · rintro ⟨hhead, hcopy⟩
    exact ⟨by omega, by omega, fun _ hpos => hcopy (by omega), fun hpos => hcopy (by omega)⟩

theorem within_zigbGenlrecv (h : env.Ready) :
    Within n (zigbGenlrecv env (some na)) ↔ frameDescSz + (le16 na.bytes 0 &&& 0x0fff) ≤ n := by
  rw [zigbGenlrecv_eq h, within_word_bind, within_dumpInfo_bind, within_block_bind, frameDescSz]
  simp only [within_pure, and_true]
  constructor
  · rintro ⟨-, -, hcopy⟩
    have hend := hcopy (by omega)
    omega
  · intro hend
    exact ⟨by omega, fun _ _ => by omega, fun _ => by omega⟩

theorem btWord0_eq (pktLen : Nat) :
    btDataQ <<< 12 ||| (pktLen &&& 0xfff) = 7 * 4096 + pktLen % 4096 := by
  have hmask : pktLen &&& 0xfff = pktLen % 2 ^ 12 := Nat.and_two_pow_sub_one_eq_mod pktLen 12
  have hlt : pktLen % 2 ^ 12 < 2 ^ 12 := Nat.mod_lt _ (by decide)
  rw [hmask, btDataQ, Nat.shiftLeft_eq, Nat.mul_comm, ← Nat.two_pow_add_eq_or_of_lt hlt, Nat.mul_comm]
  rfl

theorem length_btFrameDesc (pktLen : Nat) (btPktType : UInt8) :
    (btFrameDesc headroom pktLen btPktType).length = frameDescSz := rfl

theorem lengthField_btFrameDesc_append (pktLen : Nat) (btPktType : UInt8) (payload : List UInt8) :
    lengthField (btFrameDesc headroom pktLen btPktType ++ payload) = pktLen % 4096 := by
  have hlow : (UInt8.ofNat ((7 * 4096 + pktLen % 4096) % 256)).toNat = (7 * 4096 + pktLen % 4096) % 256 :=
    UInt8.toNat_ofNat_of_lt' (by show _ < 256; omega)
  have hhigh : (UInt8.ofNat ((7 * 4096 + pktLen % 4096) / 256)).toNat = (7 * 4096 + pktLen % 4096) / 256 :=
    UInt8.toNat_ofNat_of_lt' (by show _ < 256; omega)
  have hword : le16 (fun i => (btFrameDesc headroom pktLen btPktType ++ payload).getD i 0) 0 =
      7 * 4096 + pktLen % 4096 := by
    show (UInt8.ofNat ((btDataQ <<< 12 ||| (pktLen &&& 0xfff)) % 256)).toNat +
      256 * (UInt8.ofNat ((btDataQ <<< 12 ||| (pktLen &&& 0xfff)) / 256)).toNat = _
    rw [btWord0_eq, hlow, hhigh]
    omega
  have hmask : ∀ x : Nat, x &&& 0xfff = x % 2 ^ 12 := fun x => Nat.and_two_pow_sub_one_eq_mod x 12
  rw [lengthField, hword, hmask]
  omega

/-- A BT packet is well formed exactly when its payload can be counted in 12 bits. -/
theorem wellFormedPkt_sendBtPkt (hend : frameDescSz + k ≤ na.len) (hk : k < 2 ^ 16) (btPktType : UInt8) :
    WellFormedPkt .bt na (sendBtPkt headroom (window na.bytes frameDescSz k) btPktType) ↔ k < 4096 := by
  have hpkt : sendBtPkt headroom (window na.bytes frameDescSz k) btPktType =
      (btFrameDesc headroom k btPktType ++ window na.bytes frameDescSz k).take ((k + frameDescSz) % 2 ^ 16) := by
    have hlen : ((k + frameDescSz) % 2 ^ 16 + 2 ^ 16 - frameDescSz) % 2 ^ 16 = k := by
      rw [frameDescSz]
      omega
    rw [sendBtPkt, length_window, hlen]
  have htotal : (btFrameDesc headroom k btPktType ++ window na.bytes frameDescSz k).length = frameDescSz + k := by
    rw [List.length_append, length_btFrameDesc, length_window]
  rw [hpkt]
  by_cases hwrap : k + frameDescSz < 2 ^ 16
  · have htake : (btFrameDesc headroom k btPktType ++ window na.bytes frameDescSz k).take
        ((k + frameDescSz) % 2 ^ 16) = btFrameDesc headroom k btPktType ++ window na.bytes frameDescSz k := by
      rw [Nat.mod_eq_of_lt hwrap]
      exact List.take_of_length_le (by omega)
    rw [htake]
    constructor
    · intro h
      have hfield := h.length
      rw [htotal, lengthField_btFrameDesc_append] at hfield
      omega
    · intro hsmall
      refine ⟨⟨frameDescSz, k, hend, List.drop_left' (length_btFrameDesc k btPktType)⟩, ?_⟩
      rw [htotal, lengthField_btFrameDesc_append, Nat.mod_eq_of_lt hsmall]
  · -- the length of the netbuf wraps to less than a descriptor
    refine iff_of_false (fun h => ?_) (by rw [frameDescSz] at hwrap; omega)
    have hshort := h.length
    rw [List.length_take, htotal, frameDescSz] at hshort
    rw [frameDescSz] at hwrap
    omega

theorem lengthField_window (hk : 2 ≤ k) : lengthField (window b 0 k) = le16 b 0 &&& 0x0fff := by
  have h0 : (window b 0 k).getD 0 0 = b 0 := getD_window (by omega)
  have h1 : (window b 0 k).getD 1 0 = b 1 := getD_window (by omega)
  rw [lengthField, le16, Nat.zero_add, h0, h1]
  rfl

theorem le16_lt (b : Nat → UInt8) (a : Nat) : le16 b a < 2 ^ 16 := by
  have h0 := (b a).toNat_lt
  have h1 := (b (a + 1)).toNat_lt
  unfold le16
  omega

theorem btXmit_eq_some {payload pkt : List UInt8} {btPktType : UInt8} :
    btXmit env headroom payload btPktType = some pkt ↔
      payload.length ≠ 0 ∧ env.deviceReady = true ∧ sendBtPkt headroom payload btPktType = pkt := by
  rw [btXmit]
  split_ifs with hdrop
  · refine iff_of_false (fun h => by cases h) ?_
    rintro ⟨hne, hready, -⟩
    rw [hready] at hdrop
    exact hdrop.elim hne fun h => by cases h
  · rw [not_or, Bool.not_eq_false] at hdrop
    simp [hdrop.1, hdrop.2]

theorem usesOnlyUserBytes_bt (h : env.Ready) :
    UsesOnlyUserBytes .bt env headroom na ↔ NlHandler.bt.Fits env na := by
  have hres := result_oneboxGenlrecv headroom na h
  have hlt := le16_lt na.bytes 2
  constructor
  · intro hu
    obtain ⟨hhead, hend⟩ := (within_oneboxGenlrecv h).mp hu.reads
    refine ⟨hhead, fun hne => ⟨hend hne, fun hready => ?_⟩⟩
    have hlen : (window na.bytes 16 (le16 na.bytes 2)).length ≠ 0 := by rwa [length_window]
    have hpkt := hu.pkt _ _ hres (btXmit_eq_some.mpr ⟨hlen, hready, rfl⟩)
    exact (wellFormedPkt_sendBtPkt (hend hne) hlt _).mp hpkt
  · rintro ⟨hhead, hfits⟩
    refine ⟨(within_oneboxGenlrecv h).mpr ⟨hhead, fun hne => (hfits hne).1⟩, ?_, ?_⟩
    · intro r pkt hr hpkt
      obtain rfl := Option.some.inj (hres.symm.trans hr)
      obtain ⟨hne, hready, rfl⟩ := btXmit_eq_some.mp hpkt
      rw [length_window] at hne
      exact (wellFormedPkt_sendBtPkt (hfits hne).1 hlt _).mpr ((hfits hne).2 hready)
    · intro r hr hshort
      obtain rfl := Option.some.inj (hres.symm.trans hr)
      by_contra hhanded
      obtain ⟨pkt, hpkt⟩ := Option.ne_none_iff_exists'.mp hhanded
      obtain ⟨hne, -, -⟩ := btXmit_eq_some.mp hpkt
      rw [length_window] at hne
      exact absurd (hfits hne).1 (Nat.not_le.mpr hshort)

theorem usesOnlyUserBytes_zigb (h : env.Ready) :
    UsesOnlyUserBytes .zigb env headroom na ↔ NlHandler.zigb.Fits env na := by
  have hres := result_zigbGenlrecv na h
  constructor
  · intro hu
    exact (within_zigbGenlrecv h).mp hu.reads
  · intro hfits
    rw [NlHandler.Fits] at hfits
    refine ⟨(within_zigbGenlrecv h).mpr hfits, ?_, fun r hr hshort => ?_⟩
    · intro r pkt hr hpkt
      obtain rfl := Option.some.inj (hres.symm.trans hr)
      obtain rfl := Option.some.inj hpkt
      refine ⟨⟨0, _, by rw [frameDescSz] at hfits; omega, rfl⟩, ?_⟩
      rw [length_window, lengthField_window (by omega), frameDescSz, Nat.add_comm]
    · exact absurd hfits (Nat.not_le.mpr hshort)

/-- With its control block and its memory there, a handler uses only what the user has sent if and only if
the announced packet fits the attribute. -/
theorem uses_only_user_bytes_iff (h : NlHandler) (headroom : Nat → UInt8) (na : NlAttr) (hready : env.Ready) :
    UsesOnlyUserBytes h env headroom na ↔ h.Fits env na := by
  cases h with
  | bt => exact usesOnlyUserBytes_bt hready
  | zigb => exact usesOnlyUserBytes_zigb hready

def readyGenl : GenlEnv where
  gcb := true
  adapter := true
  gcDone := true
  zoneInfo := false
  alloc := true
  deviceReady := true
  coexStatus := 0

theorem readyGenl_ready : readyGenl.Ready := ⟨rfl, rfl, rfl, rfl⟩

/-- A message of 20 bytes that announces `k` bytes of payload to either handler. -/
def attrOf (k : UInt8) : NlAttr := ⟨20, fun i => if i = 0 ∨ i = 2 then k else 0⟩

theorem uses_only_user_bytes_iff_four :
    readyGenl.Ready ∧ UsesOnlyUserBytes .bt readyGenl (fun _ => 0) (attrOf 4) ∧
      UsesOnlyUserBytes .zigb readyGenl (fun _ => 0) (attrOf 4) := by
  have hbt : NlHandler.bt.Fits readyGenl (attrOf 4) := ⟨by decide, fun _ => ⟨by decide, fun _ => by decide⟩⟩
  have hzigb : NlHandler.zigb.Fits readyGenl (attrOf 4) := by
    rw [NlHandler.Fits]
    decide
  exact ⟨readyGenl_ready, (uses_only_user_bytes_iff .bt _ _ readyGenl_ready).mpr hbt,
    (uses_only_user_bytes_iff .zigb _ _ readyGenl_ready).mpr hzigb⟩

/-- With 100 bytes announced in a message of 20, both handlers pass on 116 bytes. -/
theorem shortMessage_overread :
    (∃ r pkt, (NlHandler.bt.recv readyGenl (fun _ => 0) (some (attrOf 100))).result = some r ∧
      r.handed = some pkt ∧ pkt.length = 116) ∧
    (∃ r pkt, (NlHandler.zigb.recv readyGenl (fun _ => 0) (some (attrOf 100))).result = some r ∧
      r.handed = some pkt ∧ pkt.length = 116) ∧
    ¬ UsesOnlyUserBytes .bt readyGenl (fun _ => 0) (attrOf 100) ∧
    ¬ UsesOnlyUserBytes .zigb readyGenl (fun _ => 0) (attrOf 100) := by
  refine ⟨⟨_, _, rfl, rfl, by decide⟩, ⟨_, _, rfl, rfl, by decide⟩, fun h => ?_, fun h => ?_⟩
  · have hreads := (within_oneboxGenlrecv readyGenl_ready).mp h.reads
    have hend := hreads.2 (by decide)
    revert hend
    decide
  · have hend := (within_zigbGenlrecv readyGenl_ready).mp h.reads
    revert hend
    decide

end Bounds

end Onebox
