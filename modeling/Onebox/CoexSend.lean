import Onebox.Bootloader
import Onebox.TxAccess

/-! Packets on their way to the device. `send_pkt_to_coex` queues the packets of
Bluetooth and ZigBee for the coex thread, writes those of WLAN itself, and counts
both. -/

namespace Onebox

inductive CoexQ
  | coex | bt | wlan | vip | zigb
  deriving DecidableEq, Repr

def TxPktType.decode (b : BitVec 8) : Option TxPktType :=
  match b.toNat with
  | 0 => some .coex
  | 1 => some .zigb
  | 2 => some .bt
  | 4 => some .wlanM
  | 5 => some .wlanD
  | _ => none

structure CoexNetbuf where
  data : List (BitVec 8)
  txPktType : BitVec 8

def CoexNetbuf.type (nb : CoexNetbuf) : BitVec 16 := nb.data.getD 1 0 ++ nb.data.getD 0 0

structure CoexTx where
  coexQueues : CoexQ → List CoexNetbuf
  totPktsQed : CoexQ → BitVec 32
  totPktsSentout : CoexQ → BitVec 32
  totPktsDropped : CoexQ → BitVec 32

/-- A call, with the common HAL as it finds it and what the bus makes of the packet. -/
structure SendCall where
  netbuf : CoexNetbuf
  halQueue : CoexQ
  adapter : Bool
  driverMode : DriverMode
  flashingModeOn : Bool
  assets : DriverAssets
  writeOk : Bool

inductive SendEffect
  | queueTail (q : CoexQ)
  | schedPktXmit
  | hostIntfWritePkt (txPktType : BitVec 8) (len : Nat) (ok : Bool)
  deriving DecidableEq, Repr

inductive Refusal
  | invalidPktType | fwInactive | noTxAccess
  deriving DecidableEq, Repr

namespace SendCall

variable (c : SendCall)

def refusal : Option Refusal :=
  if c.driverMode = .wifiModeOn ∧ c.flashingModeOn = false then
    match (TxPktType.decode c.netbuf.txPktType).bind protoIdToPkttype with
    | none => some .invalidPktType
    | some p =>
      if !(c.assets.techs p).fwActive then some .fwInactive
      else if !(c.assets.techs p).txAccess || !c.assets.commonHalTxAccess then some .noTxAccess
      else none
  else none

/-- The packet goes to the bus in this call. -/
def direct : Bool := c.halQueue = .wlan || c.halQueue = .vip

/-- The type handed to the bus, which for WLAN is read from the descriptor. -/
def pktType : BitVec 8 :=
  if c.halQueue = .wlan then (c.netbuf.type >>> 12).setWidth 8 else c.netbuf.txPktType

end SendCall

def bump (f : CoexQ → BitVec 32) (q : CoexQ) : CoexQ → BitVec 32 := Function.update f q (f q + 1)

def writePkt (s : CoexTx) (c : SendCall) : CoexTx :=
  { s with
    totPktsDropped := if c.writeOk then s.totPktsDropped else bump s.totPktsDropped c.halQueue
    totPktsSentout := bump s.totPktsSentout c.halQueue }

def sendPktToCoex (s : CoexTx) (c : SendCall) : CoexTx × Bool × List SendEffect :=
  if !c.adapter then (s, false, [])
  else if !c.direct then
    ({ s with
        coexQueues := Function.update s.coexQueues c.halQueue (s.coexQueues c.halQueue ++ [c.netbuf])
        totPktsQed := bump s.totPktsQed c.halQueue },
      true, [.queueTail c.halQueue, .schedPktXmit])
  else
    match c.refusal with
    | some .invalidPktType | some .fwInactive => (s, false, [])
    | some .noTxAccess => (s, true, []) -- `status` is still `ONEBOX_STATUS_SUCCESS` at `fail`
    | none => (writePkt s c, c.writeOk, [.hostIntfWritePkt c.pktType c.netbuf.data.length c.writeOk])

structure SendOutcome where
  call : SendCall
  status : Bool
  effects : List SendEffect

def sendAll : CoexTx → List SendCall → CoexTx × List SendOutcome
  | s, [] => (s, [])
  | s, c :: cs =>
    let (s, status, effects) := sendPktToCoex s c
    let (s, outcomes) := sendAll s cs
    (s, ⟨c, status, effects⟩ :: outcomes)

/-- The packet is in a queue, or its write succeeded. -/
def SendEffect.takes : SendEffect → Bool
  | .queueTail _ => true
  | .schedPktXmit => false
  | .hostIntfWritePkt _ _ ok => ok

def SendEffect.written : SendEffect → Bool
  | .hostIntfWritePkt _ _ ok => ok
  | _ => false

def SendOutcome.wlanWritten (o : SendOutcome) : Bool :=
  o.call.halQueue = .wlan && o.effects.any SendEffect.written

/-- Success is reported just for the packets that were taken, and the packets written are counted. -/
structure SentTruthfully (s : CoexTx) (cs : List SendCall) : Prop where
  status : ∀ o ∈ (sendAll s cs).2, o.status = true ↔ ∃ e ∈ o.effects, e.takes = true
  counted : ((sendAll s cs).1.totPktsSentout .wlan).toNat = (sendAll s cs).2.countP SendOutcome.wlanWritten

namespace SendCall

variable (c : SendCall)

/-- Only the lack of transmit access keeps the packet back. -/
def keptBack : Bool := c.adapter && c.direct && c.refusal = some .noTxAccess

def writesWlan : Bool := c.adapter && c.halQueue = .wlan && c.refusal = none

end SendCall

section Call

variable (s : CoexTx) (c : SendCall)

/-- The status of a call is right unless it is kept back for want of transmit access. -/
theorem sendPktToCoex_status_iff :
    ((sendPktToCoex s c).2.1 = true ↔ ∃ e ∈ (sendPktToCoex s c).2.2, e.takes = true) ↔ c.keptBack = false := by
  rw [SendCall.keptBack]
  fun_cases sendPktToCoex s c
  all_goals simp_all [SendEffect.takes]

theorem writePkt_sentout :
    (writePkt s c).totPktsSentout .wlan = s.totPktsSentout .wlan + if c.halQueue = .wlan then 1 else 0 := by
  by_cases hq : c.halQueue = .wlan
  · simp [writePkt, bump, hq]
  · simp [writePkt, bump, hq, Function.update_of_ne (Ne.symm hq)]

theorem sendPktToCoex_sentout :
    (sendPktToCoex s c).1.totPktsSentout .wlan =
      s.totPktsSentout .wlan + if c.writesWlan then 1 else 0 := by
  have hwrite := writePkt_sentout s c
  rw [SendCall.writesWlan]
  fun_cases sendPktToCoex s c
  all_goals simp_all [SendCall.direct]

theorem sendPktToCoex_written :
    (⟨c, (sendPktToCoex s c).2.1, (sendPktToCoex s c).2.2⟩ : SendOutcome).wlanWritten =
      (c.writesWlan && c.writeOk) := by
  rw [SendOutcome.wlanWritten, SendCall.writesWlan]
  fun_cases sendPktToCoex s c
  all_goals simp_all [SendEffect.written, SendCall.direct]

end Call

section Calls

variable (s : CoexTx) (cs : List SendCall)

theorem sendAll_status_iff :
    (∀ o ∈ (sendAll s cs).2, o.status = true ↔ ∃ e ∈ o.effects, e.takes = true) ↔
      ∀ c ∈ cs, c.keptBack = false := by
  induction cs generalizing s with
  | nil => simp [sendAll]
  | cons c cs ih =>
    have hc := sendPktToCoex_status_iff s c
    have hcs := ih (sendPktToCoex s c).1
    simp only [sendAll, List.forall_mem_cons, hcs, hc]

theorem sendAll_sentout :
    (sendAll s cs).1.totPktsSentout .wlan =
      s.totPktsSentout .wlan + BitVec.ofNat 32 (cs.countP SendCall.writesWlan) := by
  induction cs generalizing s with
  | nil => simp [sendAll]
  | cons c cs ih =>
    have hcs := ih (sendPktToCoex s c).1
    rw [sendPktToCoex_sentout] at hcs
    simp only [sendAll, hcs, List.countP_cons, BitVec.ofNat_add]
    cases c.writesWlan
    · simp
    · simp only [if_true]
      rw [BitVec.add_assoc, BitVec.add_comm 1]
      rfl

theorem sendAll_written :
    (sendAll s cs).2.countP SendOutcome.wlanWritten = cs.countP fun c => c.writesWlan && c.writeOk := by
  induction cs generalizing s with
  | nil => simp [sendAll]
  | cons c cs ih =>
    have hcs := ih (sendPktToCoex s c).1
    simp only [sendAll, List.countP_cons, hcs, sendPktToCoex_written]

/-- The writes that succeed, among all those the counter counts. -/
theorem sentTruthfully_iff_counts {s : CoexTx} (hs : s.totPktsSentout .wlan = 0) (cs : List SendCall) :
    SentTruthfully s cs ↔ (∀ c ∈ cs, c.keptBack = false) ∧
      cs.countP SendCall.writesWlan % 2 ^ 32 = cs.countP fun c => c.writesWlan && c.writeOk := by
  have hcount : ((sendAll s cs).1.totPktsSentout .wlan).toNat = cs.countP SendCall.writesWlan % 2 ^ 32 := by
    rw [sendAll_sentout, hs]
    simp
  constructor
  · intro h
    exact ⟨(sendAll_status_iff s cs).mp h.status, by rw [← hcount, h.counted, sendAll_written]⟩
  · rintro ⟨hkept, hwritten⟩
    exact ⟨(sendAll_status_iff s cs).mpr hkept, by rw [hcount, hwritten, sendAll_written]⟩

end Calls

theorem countP_written {cs : List SendCall} (h : ∀ c ∈ cs, c.writesWlan = true → c.writeOk = true) :
    (cs.countP fun c => c.writesWlan && c.writeOk) = cs.countP SendCall.writesWlan := by
  refine List.countP_congr fun c hc => ?_
  have hok := h c hc
  cases hw : c.writesWlan <;> simp_all

/-- Status and counter are right after every part of a sequence just when no call is kept back for want of
access, no write of a WLAN packet fails and there are fewer than `2 ^ 32` of them. -/
theorem sent_truthfully_iff {s : CoexTx} (hs : s.totPktsSentout .wlan = 0) (cs : List SendCall) :
    (∀ n, SentTruthfully s (cs.take n)) ↔
      (∀ c ∈ cs, c.keptBack = false ∧ (c.writesWlan = true → c.writeOk = true)) ∧
        cs.countP SendCall.writesWlan < 2 ^ 32 := by
  constructor
  · intro h
    have hall := (sentTruthfully_iff_counts hs _).mp (h cs.length)
    rw [List.take_length] at hall
    have hok : ∀ c ∈ cs, c.writesWlan = true → c.writeOk = true := by
      intro c hc hw
      by_contra hno
      -- the counter takes a step that the number of successful writes does not
      obtain ⟨i, hi, rfl⟩ := List.getElem_of_mem hc
      have hbefore := ((sentTruthfully_iff_counts hs _).mp (h i)).2
      have hafter := ((sentTruthfully_iff_counts hs _).mp (h (i + 1))).2
      rw [List.take_add_one, List.getElem?_eq_getElem hi] at hafter
      simp only [Option.toList_some, List.countP_append, List.countP_singleton, hw, hno] at hafter
      simp only [Bool.and_false, if_true, Bool.false_eq_true, if_false] at hafter
      omega
    have hfew := hall.2
    rw [countP_written hok] at hfew
    refine ⟨fun c hc => ⟨hall.1 c hc, hok c hc⟩, ?_⟩
    omega
  · rintro ⟨hok, hfew⟩ n
    have hmem : ∀ c ∈ cs.take n, c ∈ cs := fun c hc => List.mem_of_mem_take hc
    refine (sentTruthfully_iff_counts hs _).mpr ⟨fun c hc => (hok c (hmem c hc)).1, ?_⟩
    rw [countP_written fun c hc => (hok c (hmem c hc)).2]
    have hle : (cs.take n).countP SendCall.writesWlan ≤ cs.countP SendCall.writesWlan :=
      (List.take_sublist n cs).countP_le
    omega

/-- The gate of the transmit access model, where the packets on the bus are judged against the sleep of the
device, is the one a WLAN data packet meets here. -/
theorem refusal_none_iff_passes {c : SendCall} {h : Hal}
    (hpkt : TxPktType.decode c.netbuf.txPktType = some .wlanD) (hassets : c.assets = h.assets) :
    c.refusal = none ↔
      h.sendPktToCoexPasses (c.driverMode = .wifiModeOn && !c.flashingModeOn) .wlan = true := by
  rw [SendCall.refusal, Hal.sendPktToCoexPasses, hpkt, hassets]
  by_cases hmode : c.driverMode = .wifiModeOn ∧ c.flashingModeOn = false
  · simp only [hmode, and_self, if_true, Option.bind_some, protoIdToPkttype]
    cases (h.assets.techs .wlan).fwActive <;> cases (h.assets.techs .wlan).txAccess <;>
      cases h.assets.commonHalTxAccess <;> simp
  · have hoff : (c.driverMode = .wifiModeOn && !c.flashingModeOn) = false := by simpa using hmode
    simp [if_neg hmode, hoff]

def activeTech : WirelessTech :=
  { drvState := .active, fwActive := true, txIntention := true, txAccess := true, deregisterFlags := false,
    defaultPsEn := false }

def openAssets : DriverAssets :=
  { techs := fun _ => activeTech, commonHalTxAccess := true, sleepEntryRecvd := false, ulpSleepAckSent := false }

def freshCoexTx : CoexTx :=
  { coexQueues := fun _ => [], totPktsQed := fun _ => 0, totPktsSentout := fun _ => 0,
    totPktsDropped := fun _ => 0 }

def wlanSend : SendCall :=
  { netbuf := ⟨[0x10, 0x50], 5⟩, halQueue := .wlan, adapter := true, driverMode := .wifiModeOn,
    flashingModeOn := false, assets := openAssets, writeOk := true }

def sendWithoutAccess : SendCall := { wlanSend with assets := { openAssets with commonHalTxAccess := false } }

def failedSend : SendCall := { wlanSend with writeOk := false }

/-- A packet that is not sent is reported as sent, and a failed write is counted as a packet sent out. -/
theorem refused_send_succeeds :
    ¬ (∀ n, SentTruthfully freshCoexTx ([sendWithoutAccess].take n)) ∧
      ¬ (∀ n, SentTruthfully freshCoexTx ([failedSend].take n)) := by
  constructor
  · intro h
    have hstatus := ((sentTruthfully_iff_counts rfl _).mp (h 1)).1
    exact absurd hstatus (by decide)
  · intro h
    have hcount := ((sentTruthfully_iff_counts rfl _).mp (h 1)).2
    exact absurd hcount (by decide)

/-- Two packets of WLAN and one of Bluetooth, and a write on the other direct queue that fails. -/
theorem sent_truthfully_four : freshCoexTx.totPktsSentout .wlan = 0 ∧
    ∀ n, SentTruthfully freshCoexTx
      ([wlanSend, { wlanSend with halQueue := .bt }, { failedSend with halQueue := .vip }, wlanSend].take n) :=
  ⟨rfl, (sent_truthfully_iff rfl _).mpr (by decide)⟩

end Onebox
