import Onebox.Net80211.BaAction
import Onebox.Net80211.ReorderPkt

/-! Block ack agreements as `ieee80211_ht.c` makes them, with what the driver tells the firmware of them. The
frame that finds no agreement for its access category asks for one, and the answer is awaited under a timer;
for what the peer asks a reorder queue is started. -/

namespace Onebox.Net80211

inductive WmeAc
  | be | bk | vi | vo
deriving DecidableEq, Repr

def wmeAcs : List WmeAc := [.be, .bk, .vi, .vo]

/-- `TID_TO_WME_AC` -/
def tidToWmeAc (tid : Fin wmeNumTid) : WmeAc :=
  if tid.val = 0 ∨ tid.val = 3 then .be
  else if tid.val < 3 then .bk
  else if tid.val < 6 then .vi
  else .vo

/-- `WME_AC_TO_TID` -/
def wmeAcToTid : WmeAc → Fin wmeNumTid
  | .vo => tidOf 6
  | .vi => tidOf 5
  | .bk => tidOf 1
  | .be => tidOf 0

/-- `struct ieee80211_tx_ampdu`. `IEEE80211_AGGR_BARPEND` is left out: nothing calls `ieee80211_send_bar`. -/
structure TxAmpdu where
  immediate : Bool := false
  xchgPend : Bool := false
  running : Bool := false
  setup : Bool := false
  nak : Bool := false
  token : UInt8 := 0
  start : UInt16 := 0
  wnd : Nat := 0
  attempts : UInt8 := 0
  /-- an `int` -/
  nextrequest : Int := 0
  /-- `txa_timer`: when it expires, while it is pending -/
  timer : Option Nat := none
deriving DecidableEq, Repr

/-- The vap and the adapter: what they allow, and the limits they advertise. -/
structure BaVap where
  /-- `IEEE80211_FHT_AMPDU_TX` -/
  ampduTx : Bool := true
  /-- `IEEE80211_FHT_AMPDU_RX` -/
  ampduRx : Bool := true
  aggrRxLimit : UInt8 := 64
  /-- `aggr_limit.tx_limit` -/
  txLimit : UInt16 := 11
  hz : Nat := 100
deriving DecidableEq, Repr

/-- What becomes of a call of `core_send_station_info`. -/
inductive InfoFate
  | sent
  /-- `is_vap_valid` or `is_node_valid` fails. -/
  | invalid
  /-- There is no `skb` for the frame, or `hal_send_sta_notify_frame` does not know the mode of the vap. -/
  | unsent
deriving DecidableEq, Repr

/-- `struct ieee80211_node`: both ends of its agreements, and what the driver keeps in `hal_priv_node`. The
calls of `core_send_station_info` that are to come fare as `infoFate` says, the next one first. -/
structure BaNode where
  rx : RxNode
  txAmpdu : WmeAc → TxAmpdu := fun _ => {}
  txseqs : Fin wmeNumTid → UInt16 := fun _ => 0
  tidnum : Fin wmeNumTid := tidOf 0
  delbaInd : Bool := false
  seqStart : Fin wmeNumTid → UInt16 := fun _ => 0
  bawSize : Fin wmeNumTid → UInt16 := fun _ => 0
  infoFate : Nat → InfoFate := fun _ => .sent

/-- The frame of `onebox_send_ampdu_indication_frame`: words 4 and 5 of its descriptor, and the fields of
word 7. -/
structure AmpduInd where
  tid : Fin wmeNumTid
  start : Bool
  rx : Bool
  seqStart : UInt16 := 0
  bawSize : UInt16 := 0
deriving DecidableEq, Repr

inductive BaOut
  | send (a : BaAction)
  | notify (ind : AmpduInd)
  /-- A data frame goes on, with or without the mark `M_AMPDU_MPDU`. -/
  | frame (ac : WmeAc) (marked : Bool)
deriving DecidableEq, Repr

/-- The events of `sta_notify_events_t` that concern agreements. -/
inductive StaNotify
  | addbaDone | rxAddbaDone | rxDelba
deriving DecidableEq, Repr

def addbaMaxtries : UInt8 := 3

/-- `msecs_to_ticks(700)` -/
def BaVap.addbaTimeout (vap : BaVap) : Nat := 700 * vap.hz / 1000

/-- A count of ticks, assigned to an `int`. -/
def toCInt (n : Nat) : Int := (n : Int).bmod (2 ^ 32)

/-- An `int`, compared with an `unsigned long` of 64 bits. -/
def toULong (i : Int) : Nat := (i % 2 ^ 64).toNat

/-- `(bufsiz == 0) ? IEEE80211_AGGR_BAWMAX : min(bufsiz, IEEE80211_AGGR_BAWMAX)` -/
def grantedWnd (baparamset : UInt16) : Nat :=
  let bufsiz := (BitField.bapsBufsiz.ms baparamset).toNat
  if bufsiz = 0 then aggrBawmax else min bufsiz aggrBawmax

def bapsTid (baparamset : UInt16) : Fin wmeNumTid := tidOf (BitField.bapsTid.ms baparamset).toNat

def delbapsTid (baparamset : UInt16) : Fin wmeNumTid := tidOf (BitField.delbapsTid.ms baparamset).toNat

namespace TxAmpdu

/-- `IEEE80211_AMPDU_REQUESTED` -/
def requested (tap : TxAmpdu) : Bool := tap.running || tap.xchgPend || tap.nak

/-- `txa_flags & IEEE80211_AGGR_IMMEDIATE` -/
def policy (tap : TxAmpdu) : UInt16 := if tap.immediate then 1 else 0

def addbaStartTimeout (tap : TxAmpdu) (timeout ticks : Nat) : TxAmpdu :=
  { tap with timer := some (ticks + timeout), xchgPend := true, nextrequest := toCInt (ticks + timeout) }

def addbaStopTimeout (tap : TxAmpdu) : TxAmpdu :=
  if tap.xchgPend then { tap with timer := none, xchgPend := false } else tap

/-- `addba_timeout`; the timer is no longer pending when it is called. -/
def addbaTimeout (tap : TxAmpdu) : TxAmpdu :=
  { tap with timer := none, xchgPend := false, attempts := tap.attempts + 1 }

/-- `ieee80211_addba_request` -/
def addbaRequest (tap : TxAmpdu) (dialogtoken : UInt8) (baparamset : UInt16) (timeout ticks : Nat) :
    TxAmpdu :=
  { tap with token := dialogtoken, immediate := true, wnd := grantedWnd baparamset }.addbaStartTimeout
    timeout ticks

/-- `ieee80211_ampdu_enable` -/
def ampduEnable (tap : TxAmpdu) (ticks : Nat) : Bool :=
  !(addbaMaxtries ≤ tap.attempts && ticks < toULong tap.nextrequest)

end TxAmpdu

namespace BaNode

def setTap (ni : BaNode) (ac : WmeAc) (tap : TxAmpdu) : BaNode :=
  { ni with txAmpdu := Function.update ni.txAmpdu ac tap }

/-- The frame of `onebox_send_ampdu_indication_frame`. -/
def ampduInd (ni : BaNode) : StaNotify → AmpduInd
  | .addbaDone =>
    { tid := ni.tidnum, start := true, rx := false,
      seqStart := ni.seqStart ni.tidnum, bawSize := ni.bawSize ni.tidnum }
  | .rxAddbaDone => { tid := ni.tidnum, start := true, rx := true, seqStart := ni.seqStart ni.tidnum }
  | .rxDelba => { tid := ni.tidnum, start := false, rx := ni.delbaInd }

/-- What `core_send_station_info` notes of the stream. -/
def noteAddba (ni : BaNode) (vap : BaVap) : StaNotify → BaNode
  | .addbaDone =>
    let tid := ni.tidnum
    if (ni.txAmpdu (tidToWmeAc tid)).running then
      { ni with
        seqStart := Function.update ni.seqStart tid (ni.txseqs tid &&& 0xfff)
        bawSize := Function.update ni.bawSize tid vap.txLimit }
    else ni
  | .rxAddbaDone => ni
  | .rxDelba => ni

/-- `core_send_station_info`, with whether it returns `ONEBOX_STATUS_SUCCESS`. -/
def coreSendStationInfo (ni : BaNode) (vap : BaVap) (ev : StaNotify) : Bool × BaNode × List BaOut :=
  let fate := ni.infoFate 0
  let ni := { ni with infoFate := fun k => ni.infoFate (k + 1) }
  match fate with
  | .invalid => (false, ni, [])
  | .unsent => (false, ni.noteAddba vap ev, [])
  | .sent =>
    let ni := ni.noteAddba vap ev
    (true, ni, [.notify (ni.ampduInd ev)])

/-- `ic_send_station_info`: none of its callers looks at the result. -/
def sendStationInfo (ni : BaNode) (vap : BaVap) (ev : StaNotify) : BaNode × List BaOut :=
  (ni.coreSendStationInfo vap ev).2

/-- `ieee80211_addba_response` -/
def addbaResponse (ni : BaNode) (vap : BaVap) (ac : WmeAc) (status baparamset : UInt16) :
    BaNode × List BaOut :=
  let tap := (ni.txAmpdu ac).addbaStopTimeout
  if status = statusSuccess then
    let ni := ni.setTap ac { tap with wnd := grantedWnd baparamset, running := true, attempts := 0 }
    { ni with tidnum := bapsTid baparamset }.sendStationInfo vap .addbaDone
  else (ni.setTap ac { tap with nak := true }, [])

/-- `ieee80211_addba_stop`. The firmware hears of `tidnum`, whichever stream this is. -/
def addbaStop (ni : BaNode) (vap : BaVap) (ac : WmeAc) : BaNode × List BaOut :=
  let tap := (ni.txAmpdu ac).addbaStopTimeout
  let ni := ni.setTap ac { tap with running := false, attempts := 0 }
  if tap.running then ni.sendStationInfo vap .addbaDone else (ni, [])

/-- `ampdu_tx_stop` -/
def ampduTxStop (ni : BaNode) (vap : BaVap) (ac : WmeAc) : BaNode × List BaOut :=
  let r := ni.addbaStop vap ac
  (r.1.setTap ac { r.1.txAmpdu ac with timer := none, setup := false, nak := false }, r.2)

/-- The loop of `ieee80211_ht_node_cleanup` over the access categories. -/
def txCleanup (vap : BaVap) : List WmeAc → BaNode → BaNode × List BaOut
  | [], ni => (ni, [])
  | ac :: acs, ni =>
    let r := if (ni.txAmpdu ac).setup then ni.ampduTxStop vap ac else (ni, [])
    let q := txCleanup vap acs r.1
    (q.1, r.2 ++ q.2)

def htNodeCleanup (ni : BaNode) (vap : BaVap) : BaNode × List BaOut :=
  let r := txCleanup vap wmeAcs ni
  ({ r.1 with rx := r.1.rx.htNodeCleanup.1 }, r.2)

/-- What `node_cleanup` does to the agreements. -/
def cleanup (ni : BaNode) (vap : BaVap) : BaNode × List BaOut :=
  if ni.rx.ht then ni.htNodeCleanup vap else (ni, [])

def htNodeInit (ni : BaNode) (vap : BaVap) : BaNode × List BaOut :=
  let r := ni.cleanup vap
  ({ r.1 with rx := { r.1.rx with ht := true, ampduTx := true } }, r.2)

/-- `ht_recv_action_ba_addba_request` -/
def recvAddbaRequest (ni : BaNode) (vap : BaVap) (dialogtoken : UInt8) (baparamset baseqctl : UInt16) :
    BaNode × List BaOut :=
  let tid := bapsTid baparamset
  let status :=
    if ni.rx.ampduTx ∧ ni.rx.nrates ≠ 0 ∧ vap.ampduRx then statusSuccess else statusUnspecified
  let rx := (ni.rx.addbaRequest vap.ampduRx baparamset baseqctl).1
  let args2 := baparams (UInt16.ofNat tid.val) vap.aggrRxLimit.toUInt16
  let seqStart := Function.update ni.seqStart tid (UInt16.ofNat (rx.rxAmpdu tid).start)
  let r := { ni with rx := rx, tidnum := tid, seqStart := seqStart }.sendStationInfo vap .rxAddbaDone
  (r.1, .send (.addbaResponse dialogtoken status args2 0) :: r.2)

/-- `ht_recv_action_ba_addba_response` -/
def recvAddbaResponse (ni : BaNode) (vap : BaVap) (dialogtoken : UInt8) (code baparamset : UInt16) :
    BaNode × List BaOut :=
  let ac := tidToWmeAc (bapsTid baparamset)
  let tap := ni.txAmpdu ac
  if !tap.xchgPend then (ni, [])
  else if dialogtoken ≠ tap.token then (ni, [])
  else if BitField.bapsPolicy.ms baparamset ≠ tap.policy then (ni, [])
  else ni.addbaResponse vap ac code baparamset

/-- `ht_recv_action_ba_delba` -/
def recvDelba (ni : BaNode) (vap : BaVap) (baparamset : UInt16) : BaNode × List BaOut :=
  let tid := delbapsTid baparamset
  let r :=
    if baparamset &&& delbapsInit = 0 then { ni with delbaInd := false }.addbaStop vap (tidToWmeAc tid)
    else ({ ni with delbaInd := true, rx := (ni.rx.delba baparamset).1 }, [])
  let q := { r.1 with tidnum := tid }.sendStationInfo vap .rxDelba
  (q.1, r.2 ++ q.2)

def recvAction (ni : BaNode) (vap : BaVap) : BaAction → BaNode × List BaOut
  | .addbaRequest token params _ seqctl => ni.recvAddbaRequest vap token params seqctl
  | .addbaResponse token code params _ => ni.recvAddbaResponse vap token code params
  | .delba params _ => ni.recvDelba vap params

end BaNode

/-- A station with its peer. `tokens` is the `static int` of `ieee80211_ampdu_request`. -/
structure BaSta where
  vap : BaVap
  ni : BaNode
  tokens : Nat := 0
  ticks : Nat := 0

inductive BaEvent
  /-- `ieee80211_start` has a frame for the peer. -/
  | start (ac : WmeAc) (eapol : Bool)
  /-- The timer of a request expires. -/
  | timeout (ac : WmeAc)
  /-- An action frame arrives; from its category on. -/
  | recv (frm : List UInt8)
  /-- `ieee80211_ampdu_stop`, which is there for drivers. -/
  | stop (ac : WmeAc) (reason : UInt16)
  | tick (n : Nat)
  | txseq (tid : Fin wmeNumTid) (seq : UInt16)
  /-- A request to another node takes the next token. -/
  | other
  /-- The adapter's tables or its memory change: from now on `core_send_station_info` fares otherwise. -/
  | info (fates : Nat → InfoFate)
  | htInit
  | cleanup
  | data (ampdu expired : Bool) (m : Mbuf)
  | bar (ctl seq : UInt16)
  | age (expired : Fin wmeNumTid → Bool)

namespace BaSta

def onNode (s : BaSta) (r : BaNode × List BaOut) : BaSta × List BaOut := ({ s with ni := r.1 }, r.2)

def onRx (s : BaSta) (rx : RxNode) : BaSta := { s with ni := { s.ni with rx := rx } }

def nextToken (s : BaSta) : Nat := (s.tokens + 1) % 63

/-- `ieee80211_ampdu_request` -/
def ampduRequest (s : BaSta) (ac : WmeAc) : BaSta × List BaOut :=
  let dialogtoken := s.nextToken
  let tid := wmeAcToTid ac
  let start := s.ni.txseqs tid
  let args2 := baparams (UInt16.ofNat tid.val) (UInt16.ofNat aggrBawmax)
  let tap := { s.ni.txAmpdu ac with setup := true, nak := false, start := start }
  let tap := tap.addbaRequest (UInt8.ofNat dialogtoken) args2 s.vap.addbaTimeout s.ticks
  ({ s with ni := s.ni.setTap ac tap, tokens := dialogtoken },
    [.send (.addbaRequest (UInt8.ofNat dialogtoken) args2 0 (BitField.baseqStart.sm start))])

/-- The part of `ieee80211_start` that looks for an agreement. -/
def start (s : BaSta) (ac : WmeAc) (eapol : Bool) : BaSta × List BaOut :=
  let tap := s.ni.txAmpdu ac
  if s.ni.rx.ampduTx ∧ s.ni.rx.nrates ≠ 0 ∧ s.vap.ampduTx ∧ !eapol then
    if tap.running then (s, [.frame ac true])
    else if !tap.requested && tap.ampduEnable s.ticks then
      let r := s.ampduRequest ac
      (r.1, r.2 ++ [.frame ac false])
    else (s, [.frame ac false])
  else (s, [.frame ac false])

/-- `ieee80211_ampdu_stop` -/
def ampduStop (s : BaSta) (ac : WmeAc) (reason : UInt16) : BaSta × List BaOut :=
  if (s.ni.txAmpdu ac).running then
    let r := s.ni.addbaStop s.vap ac
    let params := BitField.delbapsTid.sm (UInt16.ofNat (wmeAcToTid ac).val) ||| delbapsInit
    ({ s with ni := r.1 }, r.2 ++ [.send (.delba params reason)])
  else (s, [])

/-- The receive function for the frame, if `ieee80211_parse_action` lets it pass. -/
def recv (s : BaSta) (frm : List UInt8) : BaSta × List BaOut :=
  match BaAction.read frm with
  | none => (s, [])
  | some a => s.onNode (s.ni.recvAction s.vap a)

/-- A timer that is not pending or not due does not expire, and has no step. -/
def step (s : BaSta) : BaEvent → Option (BaSta × List BaOut)
  | .start ac eapol => some (s.start ac eapol)
  | .timeout ac =>
    if (s.ni.txAmpdu ac).timer.any (· ≤ s.ticks) then
      some ({ s with ni := s.ni.setTap ac (s.ni.txAmpdu ac).addbaTimeout }, [])
    else none
  | .recv frm => some (s.recv frm)
  | .stop ac reason => some (s.ampduStop ac reason)
  | .tick n => some ({ s with ticks := s.ticks + n }, [])
  | .txseq tid seq => some ({ s with ni := { s.ni with txseqs := Function.update s.ni.txseqs tid seq } }, [])
  | .other => some ({ s with tokens := s.nextToken }, [])
  | .info fates => some ({ s with ni := { s.ni with infoFate := fates } }, [])
  | .htInit => some (s.onNode (s.ni.htNodeInit s.vap))
  | .cleanup => some (s.onNode (s.ni.cleanup s.vap))
  | .data ampdu expired m => (s.ni.rx.input ampdu expired m).map fun r => (s.onRx r.1, [])
  | .bar ctl seq => some (s.onRx (s.ni.rx.recvBar ctl seq).1, [])
  | .age expired => some (s.onRx (s.ni.rx.htNodeAge expired).1, [])

def run : BaSta → List BaEvent → Option (BaSta × List BaOut)
  | s, [] => some (s, [])
  | s, e :: es => do
    let r ← s.step e
    let q ← r.1.run es
    return (q.1, r.2 ++ q.2)

end BaSta

end Onebox.Net80211
