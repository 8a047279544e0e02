import Onebox.Netlink

/-! A ZigBee command from `rsi_zigb_execute_cmd` to the packet that `zigb_genlrecv` passes on.
The size of the payload is cut to 8 bits in the descriptor, and the netlink message is
longer than the buffer it is sent from. -/

namespace Onebox

open ByteMem Calls Scan

def frameDescLen : Nat := 16

def nlHeadSize : Nat := 24

def nlaHdrlen : Nat := 4

/-- `NLMSG_LENGTH(GENL_HDRLEN)`. -/
def genlMsgLen : Nat := 20

def nlmsgAlign (len : Nat) : Nat := (len + 3) / 4 * 4

/-- The family id from the kernel and the process id, which `rsi_linux_app_cb` keeps for its headers. -/
structure NlApp where
  familyId : Nat
  pid : Nat

/-- The parameter `size_param` is a `uint8_t`. -/
def rsiZigbBuildFrameDescriptor (intf cmd : UInt8) (sizeParam : Nat) : List UInt8 :=
  [UInt8.ofNat sizeParam, 0x10] ++ List.replicate 11 0 ++ [1, intf, cmd]

def rsiFillGenlNlHdrsForCmd (app : NlApp) : List UInt8 :=
  le32Bytes genlMsgLen ++
    (le16Bytes app.familyId ++ le16Bytes 1 ++ le32Bytes 60 ++ le32Bytes app.pid ++ [1, 0, 0, 0])

/-- A block of the heap with the bytes from its start on. -/
structure CmdBuff where
  size : Nat
  mem : Nat → UInt8

def rsiAllocAndInitCmdbuff (app : NlApp) (heap : Nat → UInt8) (desc payload : List UInt8) : CmdBuff :=
  let hdr := put heap 0 (rsiFillGenlNlHdrsForCmd app)
  let nlaLen := payload.length + frameDescLen + nlaHdrlen + 2
  let attr := put hdr 20 (le16Bytes nlaLen ++ le16Bytes 1)
  let body := put attr 24 desc
  let full := if payload.length ≠ 0 then put body 40 payload else body
  { size := payload.length + frameDescLen + nlHeadSize
    mem := put full 0 (le32Bytes (le32 full 0 + nlmsgAlign (le16 full 20))) }

def getSendLength (buff : CmdBuff) : Nat := le32 buff.mem 0 % 2 ^ 16

def rsiSendUsrCmd (buff : CmdBuff) (bufLen : Nat) : Calls Nat (List UInt8) := block buff.mem 0 bufLen

def cmdBuff (app : NlApp) (heap : Nat → UInt8) (intf cmd : UInt8) (payload : List UInt8) : CmdBuff :=
  rsiAllocAndInitCmdbuff app heap (rsiZigbBuildFrameDescriptor intf cmd payload.length) payload

def rsiZigbExecuteCmd (app : NlApp) (heap : Nat → UInt8) (intf cmd : UInt8) (payload : List UInt8) :
    Calls Nat (List UInt8) :=
  let buff := cmdBuff app heap intf cmd payload
  rsiSendUsrCmd buff (getSendLength buff)

/-- A message of `len` bytes with one attribute, `RSI_USER_A_MSG`, which is a string with a zero in it as
`zigb_genl_policy` wants it. -/
structure OneAttr (m : Nat → UInt8) (len : Nat) : Prop where
  head : genlMsgLen + nlaHdrlen ≤ le32 m 0
  whole : le32 m 0 ≤ len
  attr : nlaHdrlen ≤ le16 m 20
  inside : le16 m 20 ≤ le32 m 0 - genlMsgLen
  type : le16 m 22 = 1
  zero : 0 ∈ window m 24 (le16 m 20 - nlaHdrlen)

/-- What the kernel hands to `zigb_genlrecv` of a message that it has put into `skb`. -/
abbrev GenlDelivery := (Nat → UInt8) → List UInt8 → Option NlAttr

/-- What is assumed of generic netlink: the attribute of such a message is delivered. -/
def HandsOn (deliver : GenlDelivery) : Prop :=
  ∀ skb msg, OneAttr (put skb 0 msg) msg.length →
    deliver skb msg = some ⟨le16 (put skb 0 msg) 20 - nlaHdrlen, fun i => put skb 0 msg (24 + i)⟩

def zigbCommand (deliver : GenlDelivery) (app : NlApp) (env : GenlEnv) (heap skb : Nat → UInt8) (intf cmd : UInt8)
    (payload : List UInt8) : Option GenlResult := do
  let msg ← (rsiZigbExecuteCmd app heap intf cmd payload).result
  (zigbGenlrecv env (deliver skb msg)).result

/-- The packet of a command: 12 bits of length, queue 1, direction 1, interface and command, then the
payload. -/
def commandPkt (intf cmd : UInt8) (payload : List UInt8) : List UInt8 :=
  le16Bytes (payload.length + 1 * 2 ^ 12) ++ List.replicate 11 0 ++ [1, intf, cmd] ++ payload

section Path

variable {deliver : GenlDelivery} {app : NlApp} {heap skb : Nat → UInt8} {intf cmd : UInt8} {payload desc : List UInt8}

theorem length_rsiZigbBuildFrameDescriptor (intf cmd : UInt8) (k : Nat) :
    (rsiZigbBuildFrameDescriptor intf cmd k).length = 16 := rfl

def cmdMessage (app : NlApp) (desc payload : List UInt8) : List UInt8 :=
  le32Bytes (genlMsgLen + nlmsgAlign (payload.length + 22)) ++
    ((rsiFillGenlNlHdrsForCmd app).drop 4 ++
      (le16Bytes (payload.length + 22) ++ (le16Bytes 1 ++ (desc ++ payload))))

theorem put_payload (m : Nat → UInt8) (payload : List UInt8) :
    (if payload.length ≠ 0 then put m 40 payload else m) = put m 40 payload := by
  split_ifs with h
  · rfl
  · obtain rfl := List.length_eq_zero_iff.mp (not_not.mp h)
    funext i
    exact (put_of_not_mem (Nat.lt_or_ge i 40)).symm

theorem put_parts (heap : Nat → UInt8) (hdr attr payload : List UInt8) (hhdr : hdr.length = 20)
    (hattr : attr.length = 4) (hdesc : desc.length = 16) :
    put (put (put (put heap 0 hdr) 20 attr) 24 desc) 40 payload = put heap 0 (hdr ++ (attr ++ (desc ++ payload))) := by
  have h1 := put_append heap 0 hdr attr
  have h2 := put_append heap 0 (hdr ++ attr) desc
  have h3 := put_append heap 0 (hdr ++ attr ++ desc) payload
  simp only [List.length_append, hhdr, hattr, hdesc, Nat.zero_add, Nat.reduceAdd] at h1 h2 h3
  rw [h1, h2, h3]
  simp only [List.append_assoc]

theorem rsiAllocAndInitCmdbuff_mem (hlen : payload.length ≤ 4095) (hdesc : desc.length = 16) :
    (rsiAllocAndInitCmdbuff app heap desc payload).mem = put heap 0 (cmdMessage app desc payload) := by
  have hparts := put_parts heap (rsiFillGenlNlHdrsForCmd app) (le16Bytes (payload.length + 22) ++ le16Bytes 1)
    payload rfl rfl hdesc
  rw [List.append_assoc (le16Bytes _)] at hparts
  have hlong : le32 (put heap 0 (rsiFillGenlNlHdrsForCmd app ++ (le16Bytes (payload.length + 22) ++
      (le16Bytes 1 ++ (desc ++ payload))))) 0 = genlMsgLen := by
    rw [rsiFillGenlNlHdrsForCmd, List.append_assoc, le32_put]
    rfl
  have hnla : le16 (put heap 0 (rsiFillGenlNlHdrsForCmd app ++ (le16Bytes (payload.length + 22) ++
      (le16Bytes 1 ++ (desc ++ payload))))) 20 = payload.length + 22 := by
    have hword := le16_put (a := 20) heap (rsiFillGenlNlHdrsForCmd app) (le16Bytes 1 ++ (desc ++ payload))
      (payload.length + 22) rfl
    rw [hword]
    omega
  have hsize : payload.length + frameDescLen + nlaHdrlen + 2 = payload.length + 22 := rfl
  rw [rsiAllocAndInitCmdbuff]
  simp only [put_payload]
  rw [hsize, hparts, hlong, hnla, put_put]
  rfl

theorem length_cmdMessage (app : NlApp) (payload : List UInt8) (hdesc : desc.length = 16) :
    (cmdMessage app desc payload).length = payload.length + 40 := by
  have hhead : ((rsiFillGenlNlHdrsForCmd app).drop 4).length = 16 := rfl
  simp only [cmdMessage, List.length_append, length_le32Bytes, length_le16Bytes, hhead, hdesc]
  omega

/-- What is sent: the message with up to five bytes of the heap behind it. -/
structure SentMessage (app : NlApp) (desc payload msg : List UInt8) : Prop where
  length : msg.length = genlMsgLen + nlmsgAlign (payload.length + 22)
  bytes : ∀ i < payload.length + 40, msg.getD i 0 = (cmdMessage app desc payload).getD i 0

theorem getSendLength_cmdBuff (hlen : payload.length ≤ 4095) :
    getSendLength (cmdBuff app heap intf cmd payload) = genlMsgLen + nlmsgAlign (payload.length + 22) := by
  rw [getSendLength, cmdBuff, rsiAllocAndInitCmdbuff_mem hlen (length_rsiZigbBuildFrameDescriptor ..), cmdMessage,
    le32_put, nlmsgAlign, genlMsgLen]
  omega

theorem result_rsiZigbExecuteCmd (app : NlApp) (heap : Nat → UInt8) (intf cmd : UInt8)
    (hlen : payload.length ≤ 4095) :
    ∃ msg, (rsiZigbExecuteCmd app heap intf cmd payload).result = some msg ∧
      SentMessage app (rsiZigbBuildFrameDescriptor intf cmd payload.length) payload msg := by
  have hdesc := length_rsiZigbBuildFrameDescriptor intf cmd payload.length
  refine ⟨_, rfl, ?_, ?_⟩
  · rw [length_window, getSendLength_cmdBuff hlen]
  · intro i hi
    have hsent : i < getSendLength (cmdBuff app heap intf cmd payload) := by
      rw [getSendLength_cmdBuff hlen, genlMsgLen, nlmsgAlign]
      omega
    rw [getD_window hsent, cmdBuff, rsiAllocAndInitCmdbuff_mem hlen hdesc]
    exact put_of_lt (by rw [length_cmdMessage app payload hdesc]; exact hi)

theorem not_within_rsiZigbExecuteCmd (hlen : payload.length ≤ 4095) :
    ¬ Within (cmdBuff app heap intf cmd payload).size (rsiZigbExecuteCmd app heap intf cmd payload) := by
  intro h
  have hsize : (cmdBuff app heap intf cmd payload).size = payload.length + 40 := rfl
  have hlast := h (payload.length + 40) (by
    rw [rsiZigbExecuteCmd, rsiSendUsrCmd, block, List.mem_range'_1, getSendLength_cmdBuff hlen, genlMsgLen,
      nlmsgAlign]
    omega)
  omega

theorem SentMessage.put_eq {msg : List UInt8} (h : SentMessage app desc payload msg) (hdesc : desc.length = 16)
    (skb : Nat → UInt8) {i : Nat} (hi : i < payload.length + 40) :
    put skb 0 msg i = put skb 0 (cmdMessage app desc payload) i := by
  have hlong : i < msg.length := by
    rw [h.length, genlMsgLen, nlmsgAlign]
    omega
  have hsent := put_of_lt (m := skb) (a := 0) (d := 0) hlong
  have hput := put_of_lt (m := skb) (a := 0) (d := 0) (hi.trans_eq (length_cmdMessage app payload hdesc).symm)
  rw [Nat.zero_add] at hsent hput
  rw [hsent, hput, h.bytes i hi]

theorem put_cmdMessage (skb : Nat → UInt8) (app : NlApp) (hdesc : desc.length = 16) {i : Nat}
    (hi : i < payload.length + 16) :
    put skb 0 (cmdMessage app desc payload) (24 + i) = (desc ++ payload).getD i 0 := by
  have hend : 24 + i < (cmdMessage app desc payload).length := by
    rw [length_cmdMessage app payload hdesc]
    omega
  have hput := put_of_lt (m := skb) (a := 0) (d := 0) hend
  rw [Nat.zero_add] at hput
  rw [hput, cmdMessage]
  simp only [← List.append_assoc]
  rw [List.append_assoc _ desc payload, List.getD_append_right _ _ _ _ (Nat.le_add_right 24 i)]
  exact congrArg (fun k => (desc ++ payload).getD k 0) (Nat.add_sub_cancel_left 24 i)

/-- The attribute has the descriptor and the payload, and two bytes behind them. -/
theorem SentMessage.oneAttr {msg : List UInt8} (h : SentMessage app desc payload msg)
    (hlen : payload.length ≤ 4095) (hdesc : desc.length = 16) (hzero : desc.getD 2 0 = 0) (skb : Nat → UInt8) :
    OneAttr (put skb 0 msg) msg.length ∧
      ∀ i < payload.length + 16, put skb 0 msg (24 + i) = (desc ++ payload).getD i 0 := by
  have hword : ∀ a, a + 1 < payload.length + 40 →
      le16 (put skb 0 msg) a = le16 (put skb 0 (cmdMessage app desc payload)) a := by
    intro a ha
    rw [le16, le16, h.put_eq hdesc skb (by omega), h.put_eq hdesc skb ha]
  have hlong : le32 (put skb 0 msg) 0 = genlMsgLen + nlmsgAlign (payload.length + 22) := by
    rw [le32, hword 0 (by omega), hword 2 (by omega)]
    have hput := le32_put skb ((rsiFillGenlNlHdrsForCmd app).drop 4 ++ (le16Bytes (payload.length + 22) ++
      (le16Bytes 1 ++ (desc ++ payload)))) (genlMsgLen + nlmsgAlign (payload.length + 22))
    refine hput.trans (Nat.mod_eq_of_lt ?_)
    rw [genlMsgLen, nlmsgAlign]
    omega
  have hnla : le16 (put skb 0 msg) 20 = payload.length + 22 := by
    rw [hword 20 (by omega), cmdMessage, ← List.append_assoc]
    refine (le16_put skb _ _ (payload.length + 22) rfl).trans (Nat.mod_eq_of_lt (by omega))
  have htype : le16 (put skb 0 msg) 22 = 1 := by
    rw [hword 22 (by omega), cmdMessage, ← List.append_assoc, ← List.append_assoc]
    exact le16_put skb _ _ 1 rfl
  have hcell : ∀ i < payload.length + 16, put skb 0 msg (24 + i) = (desc ++ payload).getD i 0 := by
    intro i hi
    rw [h.put_eq hdesc skb (by omega), put_cmdMessage skb app hdesc hi]
  refine ⟨⟨?_, ?_, ?_, ?_, htype, ?_⟩, hcell⟩
  · rw [hlong, genlMsgLen, nlmsgAlign, nlaHdrlen]
    omega
  · rw [hlong, h.length]
  · rw [hnla, nlaHdrlen]
    omega
  · rw [hnla, hlong, genlMsgLen, nlmsgAlign]
    omega
  · refine List.mem_map.mpr ⟨2, List.mem_range.mpr (by rw [hnla, nlaHdrlen]; omega), ?_⟩
    rw [hcell 2 (by omega), List.getD_append _ _ _ _ (by omega), hzero]

/-- The handler counts the payload in the 8 bits that the descriptor has of its size. -/
theorem zigbCommand_eq {env : GenlEnv} (hdeliver : HandsOn deliver) (app : NlApp) (heap skb : Nat → UInt8)
    (intf cmd : UInt8) (hready : env.Ready) (hlen : payload.length ≤ 4095) :
    zigbCommand deliver app env heap skb intf cmd payload = some ⟨env.coexStatus,
      some ((rsiZigbBuildFrameDescriptor intf cmd payload.length ++ payload).take (payload.length % 256 + 16))⟩ := by
  have hdesc := length_rsiZigbBuildFrameDescriptor intf cmd payload.length
  obtain ⟨msg, hres, hmsg⟩ := result_rsiZigbExecuteCmd app heap intf cmd hlen
  obtain ⟨hattr, hbytes⟩ := hmsg.oneAttr hlen hdesc rfl skb
  have hna := hdeliver skb msg hattr
  generalize hbody : (fun i => put skb 0 msg (24 + i)) = body at hna
  replace hbytes : ∀ i < payload.length + 16, body i =
      (rsiZigbBuildFrameDescriptor intf cmd payload.length ++ payload).getD i 0 := hbody ▸ hbytes
  have hword : le16 body 0 = payload.length % 256 + 4096 := by
    rw [le16, hbytes 0 (by omega), hbytes 1 (by omega)]
    show (UInt8.ofNat payload.length).toNat + 256 * 16 = _
    rw [UInt8.toNat_ofNat']
  have hmask : le16 body 0 &&& 0x0fff = payload.length % 256 := by
    have hlow : le16 body 0 &&& 0x0fff = le16 body 0 % 2 ^ 12 := Nat.and_two_pow_sub_one_eq_mod _ 12
    rw [hlow, hword]
    omega
  have hwindow : window body 0 (payload.length % 256 + 16) =
      (rsiZigbBuildFrameDescriptor intf cmd payload.length ++ payload).take (payload.length % 256 + 16) := by
    have hmod := Nat.mod_le payload.length 256
    apply window_eq_take (d := 0)
    · rw [List.length_append, hdesc]
      omega
    · intro i hi
      rw [Nat.zero_add, hbytes i (by omega)]
  rw [zigbCommand, hres]
  show (zigbGenlrecv env (deliver skb msg)).result = _
  rw [hna, result_zigbGenlrecv _ hready, hmask, hwindow]

theorem append_eq_commandPkt (hlen : payload.length < 256) :
    rsiZigbBuildFrameDescriptor intf cmd payload.length ++ payload = commandPkt intf cmd payload := by
  have hlow : UInt8.ofNat (payload.length + 1 * 2 ^ 12) = UInt8.ofNat payload.length := by
    apply UInt8.toNat_inj.mp
    rw [UInt8.toNat_ofNat', UInt8.toNat_ofNat']
    omega
  have hhigh : (payload.length + 1 * 2 ^ 12) / 256 = 16 := by omega
  rw [commandPkt, le16Bytes, hlow, hhigh]
  rfl

/-- For every command the message reaches beyond its buffer, and the packet is the one of the command if and
only if the payload has less than 256 bytes. -/
theorem command_path_iff {env : GenlEnv} (hdeliver : HandsOn deliver) (app : NlApp) (heap skb : Nat → UInt8)
    (intf cmd : UInt8) (hready : env.Ready) (hlen : payload.length ≤ 4095) :
    ¬ Within (cmdBuff app heap intf cmd payload).size (rsiZigbExecuteCmd app heap intf cmd payload) ∧
      ∃ r, zigbCommand deliver app env heap skb intf cmd payload = some r ∧
        (r.handed = some (commandPkt intf cmd payload) ↔ payload.length < 256) := by
  refine ⟨not_within_rsiZigbExecuteCmd hlen, _, zigbCommand_eq hdeliver app heap skb intf cmd hready hlen, ?_⟩
  have hdesc := length_rsiZigbBuildFrameDescriptor intf cmd payload.length
  constructor
  · intro h
    have hpkt := congrArg List.length (Option.some.inj h)
    have htotal : (commandPkt intf cmd payload).length = payload.length + 16 := by
      rw [commandPkt, List.length_append, Nat.add_comm]
      rfl
    rw [List.length_take, List.length_append, hdesc, htotal] at hpkt
    omega
  · intro hsmall
    dsimp only
    rw [List.take_of_length_le (by rw [List.length_append, hdesc]; omega), append_eq_commandPkt hsmall]

instance (m : Nat → UInt8) (len : Nat) : Decidable (OneAttr m len) :=
  decidable_of_iff ((genlMsgLen + nlaHdrlen ≤ le32 m 0 ∧ le32 m 0 ≤ len) ∧
      (nlaHdrlen ≤ le16 m 20 ∧ le16 m 20 ≤ le32 m 0 - genlMsgLen) ∧ le16 m 22 = 1 ∧
      0 ∈ window m 24 (le16 m 20 - nlaHdrlen))
    ⟨fun ⟨⟨h1, h2⟩, ⟨h3, h4⟩, h5, h6⟩ => ⟨h1, h2, h3, h4, h5, h6⟩,
      fun h => ⟨⟨h.head, h.whole⟩, ⟨h.attr, h.inside⟩, h.type, h.zero⟩⟩

/-- A kernel that delivers such messages and no others. -/
def genlDeliver : GenlDelivery := fun skb msg =>
  let m := put skb 0 msg
  if OneAttr m msg.length then some ⟨le16 m 20 - nlaHdrlen, fun i => m (24 + i)⟩ else none

theorem genlDeliver_handsOn : HandsOn genlDeliver := fun _ _ h => if_pos h

def shellApp : NlApp := ⟨28, 1⟩

theorem command_path_iff_threeBytes :
    readyGenl.Ready ∧ ∃ r, zigbCommand genlDeliver shellApp readyGenl (fun _ => 0) (fun _ => 0) 1 2 [3, 4, 5] =
        some r ∧ r.handed = some (commandPkt 1 2 [3, 4, 5]) := by
  have hlen : ([3, 4, 5] : List UInt8).length ≤ 4095 := by decide
  obtain ⟨-, r, hr, hiff⟩ :=
    command_path_iff genlDeliver_handsOn shellApp (fun _ => 0) (fun _ => 0) 1 2 readyGenl_ready hlen
  exact ⟨readyGenl_ready, r, hr, hiff.mpr (by decide)⟩

/-- A command without payload is sent from beyond its buffer of 40 bytes, and of a payload of 256 bytes none
is passed on. -/
theorem longCommand_cut :
    ¬ Within (cmdBuff shellApp (fun _ => 0) 1 2 []).size (rsiZigbExecuteCmd shellApp (fun _ => 0) 1 2 []) ∧
      zigbCommand genlDeliver shellApp readyGenl (fun _ => 0) (fun _ => 0) 1 2 (List.replicate 256 7) =
        some ⟨0, some [0, 0x10, 0, 0, 0, 0, 0, 0, 0, 0, 0, 0, 0, 1, 1, 2]⟩ := by
  refine ⟨not_within_rsiZigbExecuteCmd (by decide), ?_⟩
  have hlen : (List.replicate 256 (7 : UInt8)).length ≤ 4095 := by
    rw [List.length_replicate]
    decide
  rw [zigbCommand_eq genlDeliver_handsOn shellApp _ _ 1 2 readyGenl_ready hlen, List.length_replicate]
  rfl

end Path

end Onebox
