import Onebox.Encryption
import Onebox.Transmit

/-! Who owns a packet after `core_xmit` and `onebox_send_mgmt_pkt`. A builder that
fails has freed the packet, and its caller frees it once more. -/

namespace Onebox

namespace TxCall

def frees : TxCall → Bool
  | .freePkt => true
  | _ => false

def queues : TxCall → Bool
  | .mcastTail _ | .hostTail .. => true
  | _ => false

def disposes (c : TxCall) : Bool := c.frees || c.queues

end TxCall

/-- The packet is freed once and in no queue, or in exactly one queue and not freed. -/
def Owned (x : Calls TxCall Unit) : Prop := x.OneOf TxCall.frees TxCall.queues

instance (x : Calls TxCall Unit) : Decidable (Owned x) := inferInstanceAs (Decidable (x.OneOf _ _))

theorem owned_iff_once {x : Calls TxCall Unit} : Owned x ↔ x.Once TxCall.disposes := by
  refine Calls.oneOf_iff_once fun c hc => ?_
  cases c <;> simp_all [TxCall.frees, TxCall.queues]

namespace TxEnv

variable (e : TxEnv)

def tapOk : Bool := e.sys.scNmonvaps = 0 || (e.mbufAlloc && e.firstVap)

def dataOk (b : TxBuf) : Bool := 1594 < b.len || e.tapOk

/-- What the management builder needs: a frame of at most 512 bytes with its header, unless it is
marked as EAPOL, a basic rate where the rates are used, and a monitor that can be served. -/
def mgmtOk (n : Node) (b : TxBuf) : Bool :=
  if MgmtArgs.rekeying ⟨e, n, b⟩ then e.dataOk b
  else (b.nb.flags.eapol || b.len ≤ 512) && !MgmtArgs.endless ⟨e, n, b⟩ && e.tapOk

def xmitOk (b : TxBuf) : Bool :=
  match e.route b with
  | .drop | .mcast => true
  | .fault => false
  | .data _ _ => e.dataOk b
  | .mgmt n => e.mgmtOk n (b.sent n)

def sendMgmtOk (b : TxBuf) : Bool :=
  e.niVap && (e.sys.net.stations.node b.nb.ni).any fun n =>
    (cbLen b.nb.frame = 0 || !e.sys.fsmOpen || 200 < e.mgmtqLen) || e.mgmtOk n b

section Spec

variable {e} {b : TxBuf} {n : Node} {q : HostQ}

theorem not_never_freeAndFail : ¬ freeAndFail.Never TxCall.disposes := by
  rw [freeAndFail, Calls.never_bind fun _ => Calls.never_pure]
  simp [TxCall.disposes, TxCall.frees]

theorem never_coreRadiotapTx (bytes : List (BitVec 8)) :
    (e.coreRadiotapTx bytes).Never TxCall.disposes ↔ (e.mbufAlloc && e.firstVap) = true := by
  rw [coreRadiotapTx]
  cases e.mbufAlloc <;> cases e.firstVap <;> simp [TxCall.disposes, TxCall.frees, TxCall.queues]

theorem never_toMonitor (bytes : List (BitVec 8)) :
    (e.toMonitor bytes).Never TxCall.disposes ↔ e.tapOk = true := by
  rw [toMonitor, tapOk]
  by_cases hm : e.sys.scNmonvaps = 0
  · simp [hm]
  · rw [if_pos hm, Calls.never_bind fun _ => Calls.never_pure, never_coreRadiotapTx]
    simp [hm]

theorem never_freeTmpNode : e.freeTmpNode.Never TxCall.disposes := by
  rw [freeTmpNode]
  cases e.nodeTmp <;> simp [TxCall.disposes, TxCall.frees, TxCall.queues]

theorem never_prepareOnairDataPktDesc (hv : e.niVap = true) (tid : Nat) (dq : DataQ) :
    (e.prepareOnairDataPktDesc (some n) b tid dq).Never TxCall.disposes ↔ e.dataOk b = true := by
  have hlen : cbLen (e.dataPacket n b tid dq) = b.len := by
    rw [TxBuf.len, cbLen, cbLen, dataPacket, length_writeFront]
  simp only [prepareOnairDataPktDesc, hv, hlen, dataOk, Bool.not_true, Bool.false_eq_true, if_false]
  by_cases hbig : b.len ≤ 1594
  · rw [if_pos hbig, Calls.never_bind fun _ => Calls.never_pure, never_toMonitor]
    simp [Nat.not_lt.mpr hbig]
  · simp [hbig, Nat.lt_of_not_le hbig]

theorem never_prepareOnairMgmtPktDesc (hv : e.niVap = true) :
    (e.prepareOnairMgmtPktDesc (some n) b).Never TxCall.disposes ↔ e.mgmtOk n b = true := by
  simp only [prepareOnairMgmtPktDesc, hv, mgmtOk, Bool.not_true, Bool.false_eq_true, if_false]
  split_ifs with hrekey hlong hend
  · exact never_prepareOnairDataPktDesc hv _ _
  · have hshort : (b.nb.flags.eapol || decide (b.len ≤ 512)) = false := by
      simpa using hlong
    simp [hshort, not_never_freeAndFail]
  · simp [hend]
  · have hshort : (b.nb.flags.eapol || decide (b.len ≤ 512)) = true := by
      cases h : b.nb.flags.eapol <;> simp_all
    rw [Calls.never_bind fun bytes => (Calls.never_bind fun _ => Calls.never_pure).mpr never_freeTmpNode,
      never_toMonitor]
    simp [hshort, hend]

theorem never_notifyPeer {nb : Netbuf} : (e.notifyPeer n nb).Never TxCall.disposes := by
  rw [notifyPeer]
  split_ifs <;> simp [TxCall.disposes, TxCall.frees, TxCall.queues]

theorem once_finish {built : Calls TxCall (Option (QueueClass × List (BitVec 8)))} :
    (finish q built).Once TxCall.disposes ↔ built.Never TxCall.disposes := by
  refine Calls.once_bind fun r => ?_
  cases r <;> simp [TxCall.disposes, TxCall.frees, TxCall.queues]

theorem found_of_route (h : (∃ q, e.route b = .data n q) ∨ e.route b = .mgmt n) :
    e.niVap = true ∧ cbLen b.nb.frame ≠ 0 := by
  revert h
  fun_cases route e b
  all_goals simp_all

end Spec

end TxEnv

theorem owned_coreXmit (e : TxEnv) (b : TxBuf) : Owned (e.coreXmit b) ↔ e.xmitOk b = true := by
  rw [owned_iff_once, TxEnv.coreXmit, TxEnv.xmitOk]
  cases h : e.route b with
  | drop => simp [TxCall.disposes, TxCall.frees]
  | fault => simp
  | mcast => simp [TxCall.disposes, TxCall.queues]
  | data n q =>
    exact TxEnv.once_finish.trans
      (TxEnv.never_prepareOnairDataPktDesc (TxEnv.found_of_route (.inl ⟨q, h⟩)).1 _ _)
  | mgmt n =>
    exact TxEnv.once_finish.trans
      (TxEnv.never_prepareOnairMgmtPktDesc (TxEnv.found_of_route (.inr h)).1)

theorem owned_oneboxSendMgmtPkt (e : TxEnv) (b : TxBuf) :
    Owned (e.oneboxSendMgmtPkt b) ↔ e.sendMgmtOk b = true := by
  rw [owned_iff_once, TxEnv.oneboxSendMgmtPkt, TxEnv.sendMgmtOk]
  cases e.sys.net.stations.node b.nb.ni with
  | none => simp
  | some n =>
    cases hv : e.niVap with
    | false => simp
    | true =>
      simp only [Bool.not_true, Bool.false_eq_true, if_false, Bool.true_and, Option.any_some]
      split_ifs with hfree
      · simp [hfree, TxCall.disposes, TxCall.frees]
      · rw [Bool.eq_false_of_not_eq_true hfree, Bool.false_or]
        exact Calls.once_bind_of_never TxEnv.never_notifyPeer fun _ =>
          TxEnv.once_finish.trans (TxEnv.never_prepareOnairMgmtPktDesc hv)

theorem transmit_owned_iff (e : TxEnv) (b : TxBuf) :
    (Owned (e.coreXmit b) ↔ e.xmitOk b = true) ∧
      (Owned (e.oneboxSendMgmtPkt b) ↔ e.sendMgmtOk b = true) :=
  ⟨owned_coreXmit e b, owned_oneboxSendMgmtPkt e b⟩

/-- A station that is up, with its access point as node 7. -/
def quietEnv : TxEnv :=
  { sys := { freshTx with net := { freshNet with
      stations := { emptyTable with node := fun p => if p = 7 then some apNode else none } } },
    niVap := true, firstVap := true, mbufAlloc := true, nodeAuth := true, nodeTmp := false, uapsd := false,
    rsNrates := 0, rsRates := [], stdRates := [], rpsRates := [], aboveScan := true, scanning := false,
    probeReqBcast := false, mcastqLen := 0, mgmtqLen := 0, stopMgmtQ := false, stopUdpMgmtQ := false }

/-- An action frame of 500 bytes, which is 520 with its header. -/
def longActionFrame : TxBuf :=
  { nb := ⟨7, List.replicate 500 0xd0, ⟨false, false, false, false, false⟩, 0⟩, headroom := 52, staId := 0,
    tail := [] }

theorem longActionFrame_freed_twice :
    quietEnv.oneboxSendMgmtPkt longActionFrame = ⟨[.freePkt, .freePkt], some ()⟩ ∧
      ¬ Owned (quietEnv.oneboxSendMgmtPkt longActionFrame) := by
  have h : quietEnv.oneboxSendMgmtPkt longActionFrame = ⟨[.freePkt, .freePkt], some ()⟩ := by decide +kernel
  rw [h]
  exact ⟨rfl, by decide⟩

end Onebox
