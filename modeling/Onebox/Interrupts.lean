import Onebox.Calls

/-! The SDIO interrupt handler. `interrupt_handler` reads the interrupt register
until it is zero and serves the sources of each value one at a time, the one with
the highest priority first, clearing its bit in the value. -/

namespace Onebox

inductive SdioInterruptType
  | beaconInterrupt | buffStatusUpdate | firmwareAssertInd | msduPacketPending | unknownInt
  deriving DecidableEq, Repr

def SdioInterruptType.code : SdioInterruptType → Nat
  | .beaconInterrupt => 0x1
  | .buffStatusUpdate => 0x2
  | .firmwareAssertInd => 0x3
  | .msduPacketPending => 0x4
  | .unknownInt => 0xE

def sdBeaconInterupt : Nat := 0

def sdBuffStatusUpdate : Nat := 1

def sdFwAssertInd : Nat := 2

def sdMsduPacketPending : Nat := 3

/-- `BIT(n)` stored into a byte. -/
def byteBit (n : Nat) : BitVec 8 := BitVec.ofNat 8 (1 <<< n)

def getSdioInterruptType (status : BitVec 8) : SdioInterruptType :=
  if status.getLsbD sdBeaconInterupt then .beaconInterrupt
  else if status.getLsbD sdBuffStatusUpdate then .buffStatusUpdate
  else if status.getLsbD sdMsduPacketPending then .msduPacketPending
  else if status.getLsbD sdFwAssertInd then .firmwareAssertInd
  else .unknownInt

def coexPktType : BitVec 8 := 0

def zigbPktType : BitVec 8 := 1

def btPktType : BitVec 8 := 2

structure IntrAdapter where
  stopCardWrite : Nat
  cardNotReady : Bool
  cardDetached : Bool
  fwInactive : Bool
  flashingModeOn : Bool
  taAggr : Nat
  wlanDrvActive : Bool
  bufStatusHandler : Bool
  coexTxEvent : Bool
  sdioIntCounter : Nat
  sdioIntrStatusZero : Nat
  totalSdioMsduPendingIntr : Nat
  totalSdioUnknownIntr : Nat

/-- One read of the interrupt register and what the bus gives while its value is served.
`intact` tells whether the transfer passes the checks of the function that processes it. -/
structure IntrRead where
  status : Option (BitVec 8)
  deviceBufStatus : Option (BitVec 8)
  fwStatus : Option (BitVec 8)
  rxNumBlocks : Option (BitVec 8)
  ackInterrupt : Bool
  allocSkb : Bool
  hostIntfReadPkt : Bool
  intact : Bool

inductive IntrCall
  | ackInterrupt (mask : BitVec 8)
  | readDeviceBufStatus
  | getBufStatus (status : BitVec 8)
  | readFwStatus
  | wlanDumpMgmtPending
  | readPkt
  | deregisterIrq
  | hostIntfReadPkt (len : Nat)
  | deferRx
  | processUnaggregatedPkt
  | processLmacAggregatedPkt
  deriving DecidableEq, Repr

def IntrAdapter.panicked (a : IntrAdapter) : IntrAdapter :=
  { a with cardNotReady := true, stopCardWrite := 2, cardDetached := true, fwInactive := true }

def panicStopAllActivites (a : IntrAdapter) (regToAck : Nat) : Calls IntrCall IntrAdapter := do
  .emit (.ackInterrupt (byteBit regToAck))
  pure a.panicked

/-- The part of `onebox_read_pkt` after the number of blocks has been checked. -/
def readBlocks (r : IntrRead) (a : IntrAdapter) (protocol : BitVec 8) (numBlks : Nat) :
    Calls IntrCall (IntrAdapter × Bool) := do
  let unaggrPkt : Bool := a.taAggr < 2 || protocol = btPktType || protocol = zigbPktType
  let protocol := if a.flashingModeOn then coexPktType else protocol
  if unaggrPkt && !r.allocSkb then pure (a, false)
  else
    .emit (.hostIntfReadPkt (numBlks * 256))
    if !r.hostIntfReadPkt then
      let a ← panicStopAllActivites a sdMsduPacketPending
      pure (a, false)
    else if protocol = zigbPktType then
      .emit .deferRx
      pure (a, true)
    else
      .emit (if unaggrPkt then .processUnaggregatedPkt else .processLmacAggregatedPkt)
      if r.intact then pure (a, true)
      else
        -- the status of the two functions is not looked at
        let a ← panicStopAllActivites a sdMsduPacketPending
        pure (a, true)

def oneboxReadPkt (r : IntrRead) (a : IntrAdapter) : Calls IntrCall (IntrAdapter × Bool) := do
  .emit .readPkt
  match r.rxNumBlocks with
  | none => pure (a, false)
  | some regValue =>
    if a.stopCardWrite = 2 then
      .emit (.ackInterrupt (byteBit sdMsduPacketPending))
      if r.ackInterrupt then pure (a, false)
      else
        .emit .deregisterIrq
        pure (a, false)
    else if regValue &&& 0x1F = 0 then
      let a ← panicStopAllActivites { a with stopCardWrite := 2 } sdMsduPacketPending
      pure (a, false)
    else readBlocks r a (regValue >>> 5) (regValue &&& 0x1F).toNat

def buffStatusUpdate (r : IntrRead) (a : IntrAdapter) : Calls IntrCall IntrAdapter := do
  .emit (.ackInterrupt (byteBit sdBuffStatusUpdate))
  .emit .readDeviceBufStatus
  match r.deviceBufStatus with
  | none => pure a
  | some v =>
    if a.wlanDrvActive && a.bufStatusHandler then
      .emit (.getBufStatus v)
      pure a
    else pure a

/-- The `FIRMWARE_ASSERT_IND` case; the flag tells that the handler returns. -/
def firmwareAssertInd (r : IntrRead) (a : IntrAdapter) : Calls IntrCall (IntrAdapter × Bool) := do
  .emit .readFwStatus
  match r.fwStatus with
  | none => pure ({ a with cardNotReady := true, cardDetached := true }, false)
  | some _ =>
    if a.wlanDrvActive then
      .emit .wlanDumpMgmtPending
      let a ← panicStopAllActivites a sdFwAssertInd
      pure (a, true)
    else
      let a ← panicStopAllActivites a sdFwAssertInd
      pure (a, true)

/-- One pass of the inner loop: the status it leaves, or nothing where the handler returns. -/
def interruptPass (r : IntrRead) (a : IntrAdapter) (status : BitVec 8) :
    Calls IntrCall (IntrAdapter × Option (BitVec 8)) := do
  let type := getSdioInterruptType status
  let served := byteBit (type.code - 1)
  match type with
  | .buffStatusUpdate =>
    let a ← buffStatusUpdate r a
    pure (a, some (status ^^^ served))
  | .firmwareAssertInd =>
    let (a, returns) ← firmwareAssertInd r a
    pure (a, if returns then none else some (status ^^^ served))
  | .msduPacketPending =>
    let (a, _) ← oneboxReadPkt r
      { a with totalSdioMsduPendingIntr := a.totalSdioMsduPendingIntr + 1 }
    pure (a, some (status ^^^ served))
  | .beaconInterrupt | .unknownInt =>
    .emit (.ackInterrupt status)
    -- the status is zero when the bit of the type is flipped
    pure ({ a with totalSdioUnknownIntr := a.totalSdioUnknownIntr + 1 }, some (0#8 ^^^ served))

def serveStatus (r : IntrRead) : Nat → IntrAdapter → BitVec 8 → Calls IntrCall (IntrAdapter × Bool)
  | 0, _, _ => .stuck
  | fuel + 1, a, status => do
    let (a, next) ← interruptPass r a status
    match next with
    | none => pure (a, true)
    | some status => if status = 0#8 then pure (a, false) else serveStatus r fuel a status

/-- A non-zero value of the interrupt register and the calls made for it. -/
structure IntrRound where
  value : BitVec 8
  calls : List IntrCall

def IntrAdapter.notOurInterrupt (a : IntrAdapter) : IntrAdapter :=
  { a with coexTxEvent := true, sdioIntrStatusZero := a.sdioIntrStatusZero + 1 }

def interruptLoop (fuel : Nat) : List IntrRead → IntrAdapter → Option (IntrAdapter × List IntrRound)
  | [], _ => none
  | r :: rs, a =>
    match r.status with
    | none => some (a, [])
    | some status =>
      if status = 0#8 then some (a.notOurInterrupt, [])
      else
        let served := serveStatus r fuel a status
        match served.result with
        | none => none
        | some (a, true) => some (a, [⟨status, served.log⟩])
        | some (a, false) =>
          (interruptLoop fuel rs a).map fun (a, rounds) => (a, ⟨status, served.log⟩ :: rounds)

/-- `interrupt_handler` over the reads of the register; nothing where it does not return. -/
def interruptHandler (fuel : Nat) (reads : List IntrRead) (a : IntrAdapter) :
    Option (IntrAdapter × List IntrRound) :=
  interruptLoop fuel reads { a with sdioIntCounter := a.sdioIntCounter + 1 }

inductive IntrSource
  | bufferStatus | firmwareAssert | packetPending
  deriving DecidableEq, Repr

def IntrSource.bit : IntrSource → Nat
  | .bufferStatus => sdBuffStatusUpdate
  | .firmwareAssert => sdFwAssertInd
  | .packetPending => sdMsduPacketPending

/-- The source that a call serves. -/
def IntrCall.source : IntrCall → Option IntrSource
  | .readDeviceBufStatus => some .bufferStatus
  | .readFwStatus => some .firmwareAssert
  | .readPkt => some .packetPending
  | _ => none

def servings (src : IntrSource) (calls : List IntrCall) : Nat :=
  calls.countP fun c => c.source = some src

structure Serviced (v : BitVec 8) (calls : List IntrCall) : Prop where
  once : ∀ src, servings src calls = if v.getLsbD src.bit then 1 else 0
  acked : ∀ m, .ackInterrupt m ∈ calls → ∀ src, src ≠ .firmwareAssert →
    m.getLsbD src.bit = true → 0 < servings src calls

structure IntrRead.BusOk (r : IntrRead) : Prop where
  status : r.status.isSome
  deviceBufStatus : r.deviceBufStatus.isSome
  fwStatus : r.fwStatus.isSome
  rxNumBlocks : r.rxNumBlocks.isSome
  ackInterrupt : r.ackInterrupt = true
  hostIntfReadPkt : r.hostIntfReadPkt = true

/-- The non-zero values the handler comes to read: it ends at a zero and at a firmware assert. -/
def valuesRead : List IntrRead → List (BitVec 8)
  | [] => []
  | r :: rs =>
    match r.status with
    | none => []
    | some v =>
      if v = 0#8 then []
      else if v.getLsbD sdFwAssertInd then [v]
      else v :: valuesRead rs

section Logs

variable {src : IntrSource} {log rest : List IntrCall} {v : BitVec 8}

@[simp] theorem servings_append : servings src (log ++ rest) = servings src log + servings src rest :=
  List.countP_append

/-- The calls serve one source and acknowledge no other. -/
structure Services (src : IntrSource) (log : List IntrCall) : Prop where
  count : ∀ other, servings other log = if other = src then 1 else 0
  acks : ∀ m, .ackInterrupt m ∈ log → m = byteBit src.bit

theorem byteBit_getLsbD {src other : IntrSource} :
    (byteBit src.bit).getLsbD other.bit = decide (other = src) := by
  cases src <;> cases other <;> rfl

theorem getLsbD_xor_bit (v : BitVec 8) (src other : IntrSource) :
    (v ^^^ byteBit src.bit).getLsbD other.bit = (v.getLsbD other.bit ^^ decide (other = src)) := by
  rw [BitVec.getLsbD_xor, byteBit_getLsbD]

theorem xor_keeps_beacon : (v ^^^ byteBit src.bit).getLsbD sdBeaconInterupt = v.getLsbD sdBeaconInterupt := by
  have hclear : (byteBit src.bit).getLsbD sdBeaconInterupt = false := by cases src <;> rfl
  rw [BitVec.getLsbD_xor, hclear, Bool.xor_false]

theorem Services.acked (h : Services src log) {m : BitVec 8} (hm : .ackInterrupt m ∈ log)
    {other : IntrSource} (hbit : m.getLsbD other.bit = true) : servings other log = 1 := by
  rw [h.acks m hm, byteBit_getLsbD, decide_eq_true_eq] at hbit
  simp [h.count, hbit]

/-- What is left after one source is served has to serve the other sources. -/
theorem Services.serviced_append (h : Services src log) (hbit : v.getLsbD src.bit = true)
    (hrest : Serviced (v ^^^ byteBit src.bit) rest) : Serviced v (log ++ rest) := by
  constructor
  · intro other
    rw [servings_append, h.count, hrest.once, getLsbD_xor_bit]
    by_cases ho : other = src
    · subst ho
      simp [hbit]
    · simp [ho]
  · intro m hm other hne hother
    rw [servings_append]
    rcases List.mem_append.mp hm with hm | hm
    · have hone := h.acked hm hother
      omega
    · have hpos := hrest.acked m hm other hne hother
      omega

theorem serviced_nil (h : ∀ src : IntrSource, v.getLsbD src.bit = false) : Serviced v [] := by
  constructor
  · intro src
    simp [servings, h src]
  · intro m hm
    cases hm

end Logs

section Pass

open Calls

variable {src : IntrSource} {r : IntrRead} {a : IntrAdapter} {status : BitVec 8}

/-- A call that serves nothing and acknowledges nothing but `src`. -/
def IntrCall.tame (src : IntrSource) (c : IntrCall) : Prop :=
  c.source = none ∧ ∀ m, c = .ackInterrupt m → m = byteBit src.bit

theorem services_cons {c : IntrCall} {log : List IntrCall} (hc : c.source = some src)
    (hlog : ∀ c ∈ log, c.tame src) : Services src (c :: log) := by
  constructor
  · intro other
    have hnone : servings other log = 0 := by
      rw [servings, List.countP_eq_zero]
      intro c' hc'
      simp [(hlog c' hc').1]
    rw [servings] at hnone ⊢
    rw [List.countP_cons, hnone, hc]
    by_cases ho : other = src
    · simp [ho]
    · simp [ho, Ne.symm ho]
  · intro m hm
    rcases List.mem_cons.mp hm with rfl | hm
    · cases hc
    · exact (hlog _ hm).2 m rfl

theorem services_of_bind {α : Type} {c : IntrCall} {x : Calls IntrCall α} (hc : c.source = some src)
    (hx : x.Returns (IntrCall.tame src)) :
    ∃ log res, (do Calls.emit c; x) = ⟨log, some res⟩ ∧ Services src log := by
  obtain ⟨res, hres⟩ := Option.isSome_iff_exists.mp hx.1
  refine ⟨c :: x.log, res, ?_, services_cons hc hx.2⟩
  rw [bind_of_result rfl, hres]
  rfl

theorem panicStopAllActivites_returns (src : IntrSource) (a : IntrAdapter) :
    (panicStopAllActivites a src.bit).Returns (IntrCall.tame src) := by
  refine Returns.bind (returns_emit.mpr ⟨rfl, ?_⟩) fun _ => returns_pure
  rintro m ⟨⟩
  rfl

theorem panicStop_returns (a : IntrAdapter) (ok : Bool) :
    Returns (IntrCall.tame .packetPending)
      (do let a ← panicStopAllActivites a sdMsduPacketPending; pure (a, ok)) :=
  Returns.bind (panicStopAllActivites_returns .packetPending a) fun _ => returns_pure

theorem tame_of_source {c : IntrCall} (h : c.source = none) (hack : ∀ m, c ≠ .ackInterrupt m) :
    c.tame src :=
  ⟨h, fun m hm => absurd hm (hack m)⟩

theorem readBlocks_returns (r : IntrRead) (a : IntrAdapter) (protocol : BitVec 8) (numBlks : Nat) :
    (readBlocks r a protocol numBlks).Returns (IntrCall.tame .packetPending) := by
  rw [readBlocks]
  split
  · exact returns_pure
  refine Returns.bind (returns_emit.mpr (tame_of_source rfl (by simp))) fun _ => ?_
  split
  · exact panicStop_returns a false
  generalize (if a.flashingModeOn then coexPktType else protocol) = protocol'
  split
  · exact Returns.bind (returns_emit.mpr (tame_of_source rfl (by simp))) fun _ => returns_pure
  refine Returns.bind (returns_emit.mpr ?_) fun _ => ?_
  · split
    · exact tame_of_source rfl (by simp)
    · exact tame_of_source rfl (by simp)
  split
  · exact returns_pure
  · exact panicStop_returns a true

theorem oneboxReadPkt_serves (r : IntrRead) (a : IntrAdapter) :
    ∃ log res, oneboxReadPkt r a = ⟨log, some res⟩ ∧ Services .packetPending log := by
  refine services_of_bind rfl ?_
  split
  · exact returns_pure
  split
  · -- the driver is stopped: the interrupt is acknowledged without a transfer
    refine Returns.bind (returns_emit.mpr ⟨rfl, ?_⟩) fun _ => ?_
    · rintro m ⟨⟩
      rfl
    split
    · exact returns_pure
    · exact Returns.bind (returns_emit.mpr (tame_of_source rfl (by simp))) fun _ => returns_pure
  split
  · exact panicStop_returns _ false
  · exact readBlocks_returns r a _ _

theorem buffStatusUpdate_serves (r : IntrRead) (a : IntrAdapter) :
    ∃ log, buffStatusUpdate r a = ⟨log, some a⟩ ∧ Services .bufferStatus log := by
  have hserves : ∀ tail : List IntrCall, (∀ c ∈ tail, c.tame .bufferStatus) →
      Services .bufferStatus (.ackInterrupt (byteBit sdBuffStatusUpdate) :: .readDeviceBufStatus :: tail) := by
    intro tail htail
    have hread : Services .bufferStatus (.readDeviceBufStatus :: tail) := services_cons rfl htail
    refine ⟨hread.count, fun m hm => ?_⟩
    rcases List.mem_cons.mp hm with hm | hm
    · cases hm
      rfl
    · exact hread.acks m hm
  have hquiet : ∀ v, ∀ c ∈ [IntrCall.getBufStatus v], c.tame .bufferStatus := by
    intro v c hc
    rw [List.mem_singleton.mp hc]
    exact tame_of_source rfl (by simp)
  cases hv : r.deviceBufStatus with
  | none =>
    refine ⟨_, ?_, hserves [] (by simp)⟩
    simp only [buffStatusUpdate, hv]
    rfl
  | some v =>
    cases hh : a.wlanDrvActive && a.bufStatusHandler with
    | false =>
      refine ⟨_, ?_, hserves [] (by simp)⟩
      simp only [buffStatusUpdate, hv, hh]
      rfl
    | true =>
      refine ⟨_, ?_, hserves [.getBufStatus v] (hquiet v)⟩
      simp only [buffStatusUpdate, hv, hh]
      rfl

theorem firmwareAssertInd_serves (a : IntrAdapter) (h : r.fwStatus.isSome) :
    ∃ log, firmwareAssertInd r a = ⟨log, some (a.panicked, true)⟩ ∧ Services .firmwareAssert log := by
  obtain ⟨v, hv⟩ := Option.isSome_iff_exists.mp h
  have hack : (IntrCall.ackInterrupt (byteBit sdFwAssertInd)).tame .firmwareAssert := by
    refine ⟨rfl, ?_⟩
    rintro m ⟨⟩
    rfl
  cases hw : a.wlanDrvActive with
  | false =>
    refine ⟨[.readFwStatus, .ackInterrupt (byteBit sdFwAssertInd)], ?_, services_cons rfl (by simpa)⟩
    simp only [firmwareAssertInd, hv, hw]
    rfl
  | true =>
    have hdump : IntrCall.wlanDumpMgmtPending.tame .firmwareAssert := tame_of_source rfl (by simp)
    refine ⟨[.readFwStatus, .wlanDumpMgmtPending, .ackInterrupt (byteBit sdFwAssertInd)], ?_,
      services_cons rfl (by simp [hdump, hack])⟩
    simp only [firmwareAssertInd, hv, hw]
    rfl

/-- What one pass can do with a status that has no beacon bit. -/
inductive Passes (status : BitVec 8) : Calls IntrCall (IntrAdapter × Option (BitVec 8)) → Prop
  | serve {log} (src : IntrSource) (a : IntrAdapter) (hsrc : src ≠ .firmwareAssert)
      (hbit : status.getLsbD src.bit = true) (hlog : Services src log) :
       Passes status ⟨log, some (a, some (status ^^^ byteBit src.bit))⟩
  | assert {log} (a : IntrAdapter) (hbuff : status.getLsbD sdBuffStatusUpdate = false)
      (hmsdu : status.getLsbD sdMsduPacketPending = false) (hbit : status.getLsbD sdFwAssertInd = true)
      (hlog : Services .firmwareAssert log) : Passes status ⟨log, some (a, none)⟩
  | unknown (a : IntrAdapter) (hnone : ∀ src : IntrSource, status.getLsbD src.bit = false) :
      Passes status ⟨[.ackInterrupt status], some (a, some 0#8)⟩

theorem passes_of_interruptPass (a : IntrAdapter) (hfw : r.fwStatus.isSome)
    (hbeacon : status.getLsbD sdBeaconInterupt = false) : Passes status (interruptPass r a status) := by
  cases hbuff : status.getLsbD sdBuffStatusUpdate with
  | true =>
    have htype : getSdioInterruptType status = .buffStatusUpdate := by
      simp [getSdioInterruptType, hbeacon, hbuff]
    obtain ⟨log, hcalls, hlog⟩ := buffStatusUpdate_serves r a
    simp only [interruptPass, htype]
    rw [bind_pure_of_eq hcalls]
    exact .serve .bufferStatus a (by decide) hbuff hlog
  | false =>
    cases hmsdu : status.getLsbD sdMsduPacketPending with
    | true =>
      have htype : getSdioInterruptType status = .msduPacketPending := by
        simp [getSdioInterruptType, hbeacon, hbuff, hmsdu]
      obtain ⟨log, res, hcalls, hlog⟩ := oneboxReadPkt_serves r
        { a with totalSdioMsduPendingIntr := a.totalSdioMsduPendingIntr + 1 }
      simp only [interruptPass, htype]
      rw [bind_pure_of_eq hcalls]
      exact .serve .packetPending res.1 (by decide) hmsdu hlog
    | false =>
      cases hassert : status.getLsbD sdFwAssertInd with
      | true =>
        have htype : getSdioInterruptType status = .firmwareAssertInd := by
          simp [getSdioInterruptType, hbeacon, hbuff, hmsdu, hassert]
        obtain ⟨log, hcalls, hlog⟩ := firmwareAssertInd_serves a hfw
        simp only [interruptPass, htype]
        rw [bind_pure_of_eq hcalls]
        exact .assert _ hbuff hmsdu hassert hlog
      | false =>
        have htype : getSdioInterruptType status = .unknownInt := by
          simp [getSdioInterruptType, hbeacon, hbuff, hmsdu, hassert]
        simp only [interruptPass, htype]
        -- bit 13 is lost in the byte
        refine .unknown _ fun src => ?_
        cases src
        · exact hbuff
        · exact hassert
        · exact hmsdu

theorem interruptPass_beacon (r : IntrRead) (a : IntrAdapter) (h : status.getLsbD sdBeaconInterupt = true) :
    ∃ log a', interruptPass r a status = ⟨log, some (a', some 1)⟩ := by
  have htype : getSdioInterruptType status = .beaconInterrupt := by simp [getSdioInterruptType, h]
  simp only [interruptPass, htype]
  exact ⟨_, _, rfl⟩

end Pass

section Loops

open Calls

variable {r : IntrRead} {fuel : Nat} {a a' : IntrAdapter} {status : BitVec 8} {reads : List IntrRead}
  {ret : Bool}

/-- The beacon bit comes back in every pass. -/
theorem serveStatus_beacon (r : IntrRead) (fuel : Nat) (a : IntrAdapter)
    (h : status.getLsbD sdBeaconInterupt = true) : (serveStatus r fuel a status).result = none := by
  induction fuel generalizing a status with
  | zero => rfl
  | succ fuel ih =>
    obtain ⟨log, a', hpass⟩ := interruptPass_beacon r a h
    rw [serveStatus, hpass, bind_of_result rfl]
    exact ih a' rfl

theorem serveStatus_succ {log : List IntrCall} {next : BitVec 8}
    (hpass : interruptPass r a status = ⟨log, some (a', some next)⟩) :
    serveStatus r (fuel + 1) a status =
      if next = 0#8 then ⟨log, some (a', false)⟩
      else ⟨log ++ (serveStatus r fuel a' next).log, (serveStatus r fuel a' next).result⟩ := by
  rw [serveStatus, hpass, bind_of_result rfl]
  by_cases hnext : next = 0#8
  · simp [hnext, pure]
  · simp [hnext]

theorem serveStatus_assert {log : List IntrCall}
    (hpass : interruptPass r a status = ⟨log, some (a', none)⟩) :
    serveStatus r (fuel + 1) a status = ⟨log, some (a', true)⟩ := by
  rw [serveStatus, hpass, bind_of_result rfl]
  simp [pure]

theorem Passes.serviced_of_assert {log : List IntrCall} (hbuff : status.getLsbD sdBuffStatusUpdate = false)
    (hmsdu : status.getLsbD sdMsduPacketPending = false) (hbit : status.getLsbD sdFwAssertInd = true)
    (hlog : Services .firmwareAssert log) : Serviced status log := by
  rw [← List.append_nil log]
  refine hlog.serviced_append hbit (serviced_nil fun src => ?_)
  rw [getLsbD_xor_bit]
  cases src
  · simpa [IntrSource.bit] using hbuff
  · simpa [IntrSource.bit] using hbit
  · simpa [IntrSource.bit] using hmsdu

theorem serviced_unknown (h : ∀ src : IntrSource, status.getLsbD src.bit = false) :
    Serviced status [.ackInterrupt status] := by
  constructor
  · intro src
    simp [servings, IntrCall.source, h src]
  · intro m hm src _ hbit
    rw [List.mem_singleton] at hm
    cases hm
    simp [h src] at hbit

/-- A value without the beacon bit is served source by source; the handler returns at a firmware assert. -/
theorem serveStatus_serviced (hfw : r.fwStatus.isSome) (hbeacon : status.getLsbD sdBeaconInterupt = false)
    (hres : (serveStatus r fuel a status).result = some (a', ret)) :
    Serviced status (serveStatus r fuel a status).log ∧ ret = status.getLsbD sdFwAssertInd := by
  induction fuel generalizing a status with
  | zero => cases hres
  | succ fuel ih =>
    generalize hpass : interruptPass r a status = pass
    have hp := passes_of_interruptPass a hfw hbeacon
    rw [hpass] at hp
    cases hp with
    | @serve log src a₁ hsrc hbit hlog =>
      -- the assert bit is not the one that was cleared
      have hkeep : (status ^^^ byteBit src.bit).getLsbD sdFwAssertInd = status.getLsbD sdFwAssertInd := by
        have hx := getLsbD_xor_bit status src .firmwareAssert
        simpa [IntrSource.bit, Ne.symm hsrc] using hx
      rw [serveStatus_succ hpass] at hres ⊢
      by_cases hnext : status ^^^ byteBit src.bit = 0#8
      · simp only [hnext, if_true, Option.some.injEq, Prod.mk.injEq] at hres ⊢
        refine ⟨?_, ?_⟩
        · rw [← List.append_nil log]
          refine hlog.serviced_append hbit (serviced_nil fun other => ?_)
          rw [hnext]
          simp
        · rw [← hkeep, hnext, ← hres.2]
          rfl
      · simp only [hnext, if_false] at hres ⊢
        obtain ⟨hrest, hret⟩ := ih (xor_keeps_beacon.trans hbeacon) hres
        exact ⟨hlog.serviced_append hbit hrest, hret.trans hkeep⟩
    | assert a₁ hbuff hmsdu hbit hlog =>
      rw [serveStatus_assert hpass] at hres ⊢
      simp only [Option.some.injEq, Prod.mk.injEq] at hres
      exact ⟨Passes.serviced_of_assert hbuff hmsdu hbit hlog, by rw [hbit, hres.2]⟩
    | unknown a₁ hnone =>
      rw [serveStatus_succ hpass] at hres ⊢
      simp only [if_true, Option.some.injEq, Prod.mk.injEq] at hres ⊢
      exact ⟨serviced_unknown hnone, by rw [← hres.2]; exact (hnone .firmwareAssert).symm⟩

def pendingSources (status : BitVec 8) : Nat :=
  (status.getLsbD sdBuffStatusUpdate).toNat + (status.getLsbD sdMsduPacketPending).toNat

theorem pendingSources_xor {src : IntrSource} (hsrc : src ≠ .firmwareAssert)
    (hbit : status.getLsbD src.bit = true) :
    pendingSources (status ^^^ byteBit src.bit) < pendingSources status := by
  have hbuff := getLsbD_xor_bit status src .bufferStatus
  have hmsdu := getLsbD_xor_bit status src .packetPending
  simp only [IntrSource.bit] at hbuff hmsdu
  rw [pendingSources, pendingSources]
  cases src
  · simp only [IntrSource.bit] at hbit hbuff hmsdu ⊢
    simp [hbuff, hmsdu, hbit]
  · exact absurd rfl hsrc
  · simp only [IntrSource.bit] at hbit hbuff hmsdu ⊢
    simp [hbuff, hmsdu, hbit]

theorem serveStatus_returns (hfw : r.fwStatus.isSome) (hbeacon : status.getLsbD sdBeaconInterupt = false)
    (hfuel : pendingSources status < fuel) : (serveStatus r fuel a status).result.isSome := by
  induction fuel generalizing a status with
  | zero => omega
  | succ fuel ih =>
    generalize hpass : interruptPass r a status = pass
    have hp := passes_of_interruptPass a hfw hbeacon
    rw [hpass] at hp
    cases hp with
    | serve src a₁ hsrc hbit hlog =>
      rw [serveStatus_succ hpass]
      split
      · rfl
      · have hless := pendingSources_xor hsrc hbit
        exact ih (xor_keeps_beacon.trans hbeacon) (by omega)
    | assert a₁ hbuff hmsdu hbit hlog =>
      rw [serveStatus_assert hpass]
      rfl
    | unknown a₁ hnone =>
      rw [serveStatus_succ hpass]
      rfl

theorem pendingSources_lt (status : BitVec 8) : pendingSources status < 3 := by
  have hbuff := Bool.toNat_le (status.getLsbD sdBuffStatusUpdate)
  have hmsdu := Bool.toNat_le (status.getLsbD sdMsduPacketPending)
  rw [pendingSources]
  omega

/-- Each read value was served, and the reads are those the handler comes to. -/
def RoundsServiced (reads : List IntrRead) (rounds : List IntrRound) : Prop :=
  rounds.map IntrRound.value = valuesRead reads ∧ ∀ round ∈ rounds, Serviced round.value round.calls

theorem RoundsServiced.cons {v : BitVec 8} {calls : List IntrCall} {rounds : List IntrRound}
    (hv : r.status = some v) (hne : v ≠ 0#8) (hassert : v.getLsbD sdFwAssertInd = false)
    (hcalls : Serviced v calls) (h : RoundsServiced reads rounds) :
    RoundsServiced (r :: reads) (⟨v, calls⟩ :: rounds) := by
  refine ⟨?_, ?_⟩
  · simp [valuesRead, hv, hne, hassert, h.1]
  · intro round hround
    rcases List.mem_cons.mp hround with rfl | hround
    · exact hcalls
    · exact h.2 round hround

/-- Where the handler returns, no value it read has the beacon bit. -/
theorem noBeacon_of_interruptLoop (hbus : ∀ r ∈ reads, r.BusOk) {rounds : List IntrRound}
    (h : interruptLoop fuel reads a = some (a', rounds)) :
    ∀ v ∈ valuesRead reads, v.getLsbD sdBeaconInterupt = false := by
  induction reads generalizing a a' rounds with
  | nil => cases h
  | cons r reads ih =>
    obtain ⟨v, hv⟩ := Option.isSome_iff_exists.mp (hbus r List.mem_cons_self).status
    have hfw := (hbus r List.mem_cons_self).fwStatus
    by_cases hzero : v = 0#8
    · simp [valuesRead, hv, hzero]
    have hbeacon : v.getLsbD sdBeaconInterupt = false := by
      by_contra hb
      rw [Bool.not_eq_false] at hb
      simp [interruptLoop, hv, hzero, serveStatus_beacon r fuel a hb] at h
    simp only [interruptLoop, hv, hzero, if_false] at h
    cases hserve : (serveStatus r fuel a v).result with
    | none => simp [hserve] at h
    | some res =>
      obtain ⟨a₁, ret⟩ := res
      obtain ⟨-, hret⟩ := serveStatus_serviced hfw hbeacon hserve
      cases ret with
      | true => simp [valuesRead, hv, hzero, ← hret, hbeacon]
      | false =>
        simp only [hserve, Option.map_eq_some_iff] at h
        obtain ⟨⟨a₂, rest⟩, hrest, -⟩ := h
        have htail := ih (fun r hr => hbus r (List.mem_cons_of_mem _ hr)) hrest
        simpa [valuesRead, hv, hzero, ← hret, hbeacon] using htail

theorem interruptLoop_services (hbus : ∀ r ∈ reads, r.BusOk) (hend : ∃ r ∈ reads, r.status = some 0#8)
    (hbeacon : ∀ v ∈ valuesRead reads, v.getLsbD sdBeaconInterupt = false) :
    ∃ a' rounds, interruptLoop 3 reads a = some (a', rounds) ∧ RoundsServiced reads rounds := by
  induction reads generalizing a with
  | nil => simp at hend
  | cons r reads ih =>
    obtain ⟨v, hv⟩ := Option.isSome_iff_exists.mp (hbus r List.mem_cons_self).status
    have hfw := (hbus r List.mem_cons_self).fwStatus
    by_cases hzero : v = 0#8
    · refine ⟨a.notOurInterrupt, [], ?_, by simp [RoundsServiced, valuesRead, hv, hzero]⟩
      simp only [interruptLoop, hv, hzero, if_true]
    have hb : v.getLsbD sdBeaconInterupt = false := by
      refine hbeacon v ?_
      by_cases hassert : v.getLsbD sdFwAssertInd = true
      · simp [valuesRead, hv, hzero, hassert]
      · simp [valuesRead, hv, hzero, hassert]
    have hsome := serveStatus_returns (a := a) hfw hb (pendingSources_lt v)
    obtain ⟨⟨a₁, ret⟩, hserve⟩ := Option.isSome_iff_exists.mp hsome
    obtain ⟨hcalls, hret⟩ := serveStatus_serviced hfw hb hserve
    cases ret with
    | true =>
      refine ⟨a₁, [⟨v, (serveStatus r 3 a v).log⟩], ?_, ?_, ?_⟩
      · simp only [interruptLoop, hv, hzero, if_false, hserve]
      · simp [valuesRead, hv, hzero, ← hret]
      · simpa using hcalls
    | false =>
      have hend' : ∃ r ∈ reads, r.status = some 0#8 := by simpa [hv, hzero] using hend
      have hbeacon' : ∀ v ∈ valuesRead reads, v.getLsbD sdBeaconInterupt = false := by
        intro w hw
        exact hbeacon w (by simp [valuesRead, hv, hzero, ← hret, hw])
      obtain ⟨a₂, rounds, hrest, hrounds⟩ :=
        ih (a := a₁) (fun r hr => hbus r (List.mem_cons_of_mem _ hr)) hend' hbeacon'
      refine ⟨a₂, ⟨v, _⟩ :: rounds, ?_, hrounds.cons hv hzero hret.symm hcalls⟩
      simp only [interruptLoop, hv, hzero, if_false, hserve, hrest, Option.map_some]

end Loops

/-- With a working bus and a zero at the end, the handler returns and serves every value it reads just when
none of these values has the beacon bit. -/
theorem interruptHandler_services_iff {reads : List IntrRead} (a : IntrAdapter)
    (hbus : ∀ r ∈ reads, r.BusOk) (hend : ∃ r ∈ reads, r.status = some 0#8) :
    (∃ fuel a' rounds, interruptHandler fuel reads a = some (a', rounds) ∧
        rounds.map IntrRound.value = valuesRead reads ∧
        ∀ round ∈ rounds, Serviced round.value round.calls) ↔
      ∀ v ∈ valuesRead reads, v.getLsbD sdBeaconInterupt = false := by
  constructor
  · rintro ⟨fuel, a', rounds, h, -⟩
    exact noBeacon_of_interruptLoop hbus h
  · intro hbeacon
    obtain ⟨a', rounds, h, hrounds⟩ := interruptLoop_services hbus hend hbeacon
    exact ⟨3, a', rounds, h, hrounds⟩

def idleAdapter : IntrAdapter where
  stopCardWrite := 0
  cardNotReady := false
  cardDetached := false
  fwInactive := false
  flashingModeOn := false
  taAggr := 0
  wlanDrvActive := true
  bufStatusHandler := true
  coexTxEvent := false
  sdioIntCounter := 0
  sdioIntrStatusZero := 0
  totalSdioMsduPendingIntr := 0
  totalSdioUnknownIntr := 0

/-- A read of `v` with a working bus and a packet of one block behind it. -/
def readOf (v : BitVec 8) : IntrRead where
  status := some v
  deviceBufStatus := some 0
  fwStatus := some 0
  rxNumBlocks := some 0x61
  ackInterrupt := true
  allocSkb := true
  hostIntfReadPkt := true
  intact := true

theorem readOf_busOk (v : BitVec 8) : (readOf v).BusOk := ⟨rfl, rfl, rfl, rfl, rfl, rfl⟩

/-- A packet is pending together with a beacon interrupt. -/
theorem beaconInterrupt_hangs :
    ¬ ∃ fuel a' rounds, interruptHandler fuel [readOf 0x09, readOf 0] idleAdapter = some (a', rounds) ∧
      rounds.map IntrRound.value = valuesRead [readOf 0x09, readOf 0] ∧
      ∀ round ∈ rounds, Serviced round.value round.calls := by
  rintro ⟨fuel, a', rounds, h, -⟩
  have hbus : ∀ r ∈ [readOf 0x09, readOf 0], r.BusOk := by simp [readOf_busOk]
  have hclear := noBeacon_of_interruptLoop hbus h 0x09 (by decide)
  exact absurd hclear (by decide)

/-- A buffer status with a packet, an unknown interrupt and a firmware assert, read one after the other. -/
theorem interruptHandler_services_four :
    ∃ fuel a' rounds, interruptHandler fuel [readOf 0x0A, readOf 0x80, readOf 0x0E, readOf 0] idleAdapter =
        some (a', rounds) ∧
      rounds.map IntrRound.value = valuesRead [readOf 0x0A, readOf 0x80, readOf 0x0E, readOf 0] ∧
      ∀ round ∈ rounds, Serviced round.value round.calls :=
  (interruptHandler_services_iff idleAdapter (by simp [readOf_busOk])
    ⟨readOf 0, by simp, rfl⟩).mpr (by decide)

end Onebox
