import Onebox.Net80211.TimElement

/-! The stations of an access point: association identifiers, the counts and flags of the 11g and HT
bookkeeping of `ieee80211_node.c` and `ieee80211_ht.c`, and the power-save queues of `ieee80211_power.c` with
the traffic indication bits. -/

namespace Onebox.Net80211

/-- What is set once for the access point. -/
structure ApConf where
  /-- `iv_max_aid` -/
  maxAid : Nat
  maxAid_le : maxAid ≤ 0x4000
  /-- `ic_bsschan` is an HT channel, one of 40 MHz, an 11g one, a full-rate one, a 108G one. -/
  chanHt : Bool
  chanHt40 : Bool
  chanAnyg : Bool
  chanFull : Bool
  chan108g : Bool
  /-- `ic_protmode != IEEE80211_PROT_NONE` -/
  protmode : Bool
  capShslot : Bool
  capShpreamble : Bool
  p2pEnable : Bool
  /-- `IEEE80211_FHT_PUREN` -/
  puren : Bool
  /-- `ic_bintval` -/
  bintval : Nat

/-- `iv_tim_len` -/
def ApConf.timLen (conf : ApConf) : Nat := (conf.maxAid + 7) / 8

/-- A frame on a power-save queue. -/
structure PsFrame where
  id : Nat
  /-- `M_ENCAP`: it already has its 802.11 header. -/
  encap : Bool
  /-- `M_AGE_GET` -/
  age : Int
deriving DecidableEq, Repr

/-- `struct ieee80211_node` of a station. -/
structure ApNode where
  macaddr : Nat
  associd : UInt16 := 0
  /-- The flags `IEEE80211_NODE_AUTH`, `_ASSOCID`, `_PWR_MGT`, `_ERP`, `_HT`. -/
  auth : Bool := false
  needAssocid : Bool := false
  pwrMgt : Bool := false
  erp : Bool := false
  ht : Bool := false
  /-- `ni_chw == 40` -/
  chw40 : Bool := false
  /-- `IEEE80211_CAPINFO_SHORT_SLOTTIME` and `_SHORT_PREAMBLE` of `ni_capinfo`. -/
  shortSlot : Bool := false
  shortPreamble : Bool := false
  /-- `ieee80211_iserp_rateset(&ni->ni_rates)` -/
  erpRates : Bool := false
  /-- The listen interval `ni_intval`. -/
  intval : Nat := 0
  /-- `psq_head[0]` and `psq_head[1]`. -/
  high : List PsFrame := []
  low : List PsFrame := []
  psqLen : Int := 0
  psqDrops : Nat := 0
  /-- Taken out of the node table, with references left. -/
  gone : Bool := false
deriving DecidableEq, Repr

/-- What the stations share: fields of `struct ieee80211com` and of the `struct ieee80211vap`. -/
structure ApCom where
  aidBitmap : Nat → Bool := fun _ => false
  timBitmap : Nat → Bool := fun _ => false
  psPending : UInt16 := 0
  psSta : UInt16 := 0
  ivStaAssoc : UInt16 := 0
  staAssoc : UInt16 := 0
  htStaAssoc : UInt16 := 0
  ht40StaAssoc : UInt16 := 0
  nonerpsta : UInt16 := 0
  longslotsta : UInt16 := 0
  /-- `IEEE80211_F_USEPROT`, `_USEBARKER`, `_SHPREAMBLE`, `_SHSLOT` -/
  useprot : Bool := false
  usebarker : Bool := false
  shpreamble : Bool := false
  shslot : Bool := false
  /-- `IEEE80211_FEXT_NONERP_PR` and `IEEE80211_FHT_NONHT_PR` -/
  nonerpPr : Bool := false
  nonhtPr : Bool := false
  curhtprotmode : UInt8 := 0
  /-- `IEEE80211_BEACON_TIM` of the beacon's flags, and the element. -/
  timFlag : Bool := false
  tie : TimIe := {}

/-- Where a frame of a power-save queue goes: to the send queue of the vap or of its parent, with its flags
`M_MORE_DATA` and `M_EOSP`, or it is freed. -/
inductive PsFate
  | toVap (m : PsFrame) (more eosp : Bool)
  | toParent (m : PsFrame) (more eosp : Bool)
  | free (m : PsFrame)
deriving DecidableEq, Repr

/-- `IEEE80211_AID` -/
def aidOf (associd : UInt16) : Nat := (associd &&& 0x3fff).toNat

/-! ## Power save -/

namespace ApCom

/-- `ieee80211_set_tim` -/
def setTim (c : ApCom) (associd : UInt16) (set : Bool) : ApCom :=
  let aid := aidOf associd
  if set = c.timBitmap aid then c
  else if set then
    { c with
      timBitmap := Function.update c.timBitmap aid true
      psPending := c.psPending + 1
      timFlag := true }
  else
    { c with
      timBitmap := Function.update c.timBitmap aid false
      psPending := c.psPending - 1
      timFlag := true }

/-- The parts of `ieee80211_beacon_update` for the traffic indication element; `mcast`: multicast frames
wait. -/
def beaconUpdate (conf : ApConf) (c : ApCom) (mcast : Bool) : ApCom :=
  let tie := if c.timFlag then c.tie.update (timBytes c.timBitmap conf.timLen) (c.psPending != 0) else c.tie
  { c with tie := tie.countDown mcast, timFlag := false }

/-- `ieee80211_beacon_construct`, for a new channel: the element is empty, and no change is pending. -/
def beaconConstruct (c : ApCom) : ApCom := { c with tie := { timPeriod := c.tie.timPeriod }, timFlag := false }

end ApCom

namespace ApNode

def psMaxQueue : Int := 50

def inactWait : Int := 15

/-- `ieee80211_node_psq_dequeue` -/
def psqDequeue (ni : ApNode) : Option PsFrame × ApNode :=
  match ni.high, ni.low with
  | m :: rest, _ => (some m, { ni with high := rest, psqLen := ni.psqLen - 1 })
  | [], m :: rest => (some m, { ni with low := rest, psqLen := ni.psqLen - 1 })
  | [], [] => (none, ni)

/-- `ieee80211_node_psq_drain` -/
def psqDrain (ni : ApNode) : ApNode × List PsFate :=
  ({ ni with high := [], low := [], psqLen := 0 }, (ni.high ++ ni.low).map .free)

/-- The frames at the head of a queue that are too old. -/
def tooOld (q : List PsFrame) : List PsFrame := q.takeWhile fun m => m.age < inactWait

def youngEnough (q : List PsFrame) : List PsFrame := q.dropWhile fun m => m.age < inactWait

/-- `M_AGE_SUB` of the head -/
def subAge : List PsFrame → List PsFrame
  | [] => []
  | m :: rest => { m with age := m.age - inactWait } :: rest

/-- `ieee80211_node_psq_age`: only the head of the second queue gets older. -/
def psqAge (ni : ApNode) : ApNode × List PsFate :=
  if ni.psqLen ≠ 0 then
    let discard := tooOld ni.high ++ tooOld ni.low
    ({ ni with
        high := youngEnough ni.high
        low := subAge (youngEnough ni.low)
        psqLen := ni.psqLen - discard.length }, discard.map .free)
  else (ni, [])

/-- `IEEE80211_TU_TO_MS((ni->ni_intval * ic->ic_bintval) << 2) / 1000`, which is `int` arithmetic: long listen
intervals overflow. -/
def maxAge (ni : ApNode) (bintval : Nat) : Int :=
  (((BitVec.ofNat 32 (ni.intval * bintval) <<< 2) * 1024#32).sdiv 1000#32).sdiv 1000#32 |>.toInt

/-- The age of the other queue's head when the first frame of the high priority queue comes. -/
def clampAge (age : Int) : List PsFrame → List PsFrame
  | [] => []
  | mh :: rest => { mh with age := if mh.age - age < 0 then 0 else mh.age - age } :: rest

def headAge : List PsFrame → Int
  | [] => 0
  | m :: _ => m.age

/-- The frame is put on its queue, with ages as differences to the head. -/
def psqEnqueue (ni : ApNode) (m : PsFrame) (age : Int) : ApNode :=
  if m.encap then
    match ni.high with
    | [] => { ni with high := [{ m with age := age }], low := clampAge age ni.low, psqLen := ni.psqLen + 1 }
    | h :: t => { ni with high := (h :: t) ++ [{ m with age := age - h.age }], psqLen := ni.psqLen + 1 }
  else
    match ni.low with
    | [] => { ni with low := [{ m with age := age - headAge ni.high }], psqLen := ni.psqLen + 1 }
    | h :: t => { ni with low := (h :: t) ++ [{ m with age := age - h.age }], psqLen := ni.psqLen + 1 }

/-- The queue that a frame is handed to. -/
def handTo (m : PsFrame) (more eosp : Bool) : PsFate :=
  if m.encap then .toParent m more eosp else .toVap m more eosp

/-- `pwrsave_flushq` -/
def pwrsaveFlushq (ni : ApNode) : ApNode × List PsFate :=
  ({ ni with high := [], low := [], psqLen := 0 },
    ni.high.map (fun m => .toParent m false false) ++ ni.low.map (fun m => .toVap m false false))

end ApNode

/-- A station, what it shares with the others, and where frames went. -/
structure ApStep where
  com : ApCom
  ni : ApNode
  fates : List PsFate := []

namespace ApNode

/-- `ieee80211_pwrsave` -/
def pwrsave (conf : ApConf) (c : ApCom) (ni : ApNode) (m : PsFrame) : ApStep :=
  if ni.psqLen ≥ psMaxQueue then ⟨c, { ni with psqDrops := ni.psqDrops + 1 }, [.free m]⟩
  else
    let ni := ni.psqEnqueue m (ni.maxAge conf.bintval)
    ⟨if ni.psqLen = 1 then c.setTim ni.associd true else c, ni, []⟩

/-- `ieee80211_node_pwrsave` -/
def nodePwrsave (c : ApCom) (ni : ApNode) (enable : Bool) : ApStep :=
  if enable then
    ⟨if ni.pwrMgt then c else { c with psSta := c.psSta + 1 }, { ni with pwrMgt := true }, []⟩
  else
    let c := if ni.pwrMgt then { c with psSta := c.psSta - 1 } else c
    let ni := { ni with pwrMgt := false }
    let c := c.setTim ni.associd false
    if ni.psqLen ≠ 0 then ⟨c, ni.pwrsaveFlushq.1, ni.pwrsaveFlushq.2⟩ else ⟨c, ni, []⟩

/-- `hostap_recv_pspoll` of a frame with the identifier `aid`. -/
def recvPspoll (c : ApCom) (ni : ApNode) (aid : UInt16) : ApStep :=
  if ni.associd = 0 then ⟨c, ni, []⟩
  else if aid ≠ ni.associd then ⟨c, ni, []⟩
  else
    match ni.psqDequeue with
    | (none, ni) => ⟨c.setTim ni.associd false, ni, []⟩
    | (some m, ni) =>
      if ni.psqLen ≠ 0 then ⟨c, ni, [handTo m true false]⟩
      else ⟨c.setTim ni.associd false, ni, [handTo m false false]⟩

/-- The loop of `hostap_recv_trigger_frame`; each round but the last takes a frame from the queue. -/
def triggerLoop : Nat → ApCom → ApNode → Option ApStep
  | 0, _, _ => none
  | k + 1, c, ni =>
    match ni.psqDequeue with
    | (none, ni) => some ⟨c.setTim ni.associd false, ni, []⟩
    | (some m, ni) =>
      if ni.psqLen ≠ 0 then
        (triggerLoop k c ni).map fun r => { r with fates := handTo m true false :: r.fates }
      else some ⟨c.setTim ni.associd false, ni, [handTo m false true]⟩

/-- `hostap_recv_trigger_frame` -/
def recvTriggerFrame (c : ApCom) (ni : ApNode) : Option ApStep :=
  if ni.associd = 0 then some ⟨c, ni, []⟩ else triggerLoop (ni.high.length + ni.low.length + 1) c ni

/-- The part of `node_age` for the power-save queue. -/
def nodeAge (c : ApCom) (ni : ApNode) : ApStep :=
  let r := ni.psqAge
  ⟨if r.2.length ≠ 0 ∧ r.1.psqLen = 0 then c.setTim r.1.associd false else c, r.1, r.2⟩

/-- `node_cleanup` -/
def nodeCleanup (c : ApCom) (ni : ApNode) : ApStep :=
  let c := if ni.pwrMgt then { c with psSta := c.psSta - 1 } else c
  let qlen := ni.psqLen
  let r := { ni with pwrMgt := false, ht := false, needAssocid := false }.psqDrain
  ⟨if qlen ≠ 0 then c.setTim r.1.associd false else c, { r.1 with associd := 0 }, r.2⟩

/-- `ieee80211_start` for a frame to the station: it is dropped, saved or sent. `M_ENCAP` is among the flags
that are cleared first. -/
def start (conf : ApConf) (c : ApCom) (ni : ApNode) (m : PsFrame) (pae : Bool) : ApStep :=
  let m := { m with encap := false }
  if (ni.associd = 0 ∧ ni.needAssocid) ∨ (!ni.auth ∧ !pae) then ⟨c, ni, [.free m]⟩
  else if ni.pwrMgt then ni.pwrsave conf c m
  else ⟨c, ni, [.toVap m false false]⟩

end ApNode

/-! ## Association -/

def opmodePure : UInt8 := 0x00

def opmodeProtopt : UInt8 := 0x01

def opmodeHt20pr : UInt8 := 0x02

def opmodeMixed : UInt8 := 0x03

def nonhtPresent : UInt8 := 0x10

namespace ApCom

/-- `htinfo_update` -/
def htinfoUpdate (conf : ApConf) (c : ApCom) : ApCom :=
  { c with curhtprotmode :=
      if c.staAssoc ≠ c.htStaAssoc then opmodeMixed ||| nonhtPresent
      else if c.nonhtPr then opmodeProtopt ||| nonhtPresent
      else if conf.chanHt40 ∧ c.staAssoc ≠ c.ht40StaAssoc then opmodeHt20pr
      else opmodePure }

/-- `ieee80211_htprot_update` -/
def htprotUpdate (c : ApCom) (protmode : UInt8) : ApCom :=
  let c := { c with nonhtPr := true }
  if protmode ≠ c.curhtprotmode ∧ (c.curhtprotmode &&& 3 ≠ opmodeMixed ∨ protmode &&& 3 = opmodeProtopt) then
    { c with curhtprotmode := protmode }
  else c

/-- `ieee80211_ht_timeout`; `late`: the last legacy beacon is old enough. -/
def htTimeout (conf : ApConf) (c : ApCom) (late : Bool) : ApCom :=
  if c.nonhtPr ∧ late then { c with nonhtPr := false }.htinfoUpdate conf else c

/-- `disable_protection` -/
def disableProtection (conf : ApConf) (c : ApCom) : ApCom :=
  { c with
    useprot := false
    shpreamble := c.shpreamble || conf.capShpreamble
    usebarker := c.usebarker && !conf.capShpreamble }

/-- `ieee80211_erp_timeout` -/
def erpTimeout (conf : ApConf) (c : ApCom) (late : Bool) : ApCom :=
  if c.nonerpPr ∧ late then
    let c := { c with nonerpPr := false }
    if c.nonerpsta = 0 then c.disableProtection conf else c
  else c

/-- The check of a beacon for an overlapping network with legacy stations, in `hostap_recv_mgmt`. The line
that sets `IEEE80211_FEXT_NONERP_PR` is commented out in the source. -/
def beaconErp (conf : ApConf) (c : ApCom) : ApCom :=
  if conf.protmode ∧ !c.useprot then { c with useprot := true } else c

/-- `ieee80211_ht_node_join` -/
def htNodeJoin (conf : ApConf) (c : ApCom) (ni : ApNode) : ApCom :=
  { c with
    htStaAssoc := if ni.ht then c.htStaAssoc + 1 else c.htStaAssoc
    ht40StaAssoc := if ni.ht && ni.chw40 then c.ht40StaAssoc + 1 else c.ht40StaAssoc }.htinfoUpdate conf

/-- `ieee80211_ht_node_leave` -/
def htNodeLeave (conf : ApConf) (c : ApCom) (ni : ApNode) : ApCom :=
  { c with
    htStaAssoc := if ni.ht then c.htStaAssoc - 1 else c.htStaAssoc
    ht40StaAssoc := if ni.ht && ni.chw40 then c.ht40StaAssoc - 1 else c.ht40StaAssoc }.htinfoUpdate conf

/-- The slot time part of `ieee80211_node_join_11g` -/
def joinSlot (conf : ApConf) (c : ApCom) (ni : ApNode) : ApCom :=
  if ni.shortSlot then c
  else { c with longslotsta := c.longslotsta + 1, shslot := c.shslot && conf.chan108g }

/-- The protection part of `ieee80211_node_join_11g` -/
def joinErp (conf : ApConf) (c : ApCom) (ni : ApNode) : ApCom :=
  if ni.erpRates then c
  else
    let c := { c with
      nonerpsta := if conf.p2pEnable then c.nonerpsta else c.nonerpsta + 1
      usebarker := c.usebarker || !ni.shortPreamble
      shpreamble := c.shpreamble && ni.shortPreamble }
    if conf.protmode ∧ c.nonerpsta = 1 ∧ !c.nonerpPr then { c with useprot := true } else c

/-- The slot time part of `ieee80211_node_leave_11g` -/
def leaveSlot (conf : ApConf) (c : ApCom) (ni : ApNode) : ApCom :=
  if ni.shortSlot then c
  else
    let c := { c with longslotsta := c.longslotsta - 1 }
    if c.longslotsta = 0 ∧ conf.capShslot then { c with shslot := true } else c

/-- The protection part of `ieee80211_node_leave_11g` -/
def leaveErp (conf : ApConf) (c : ApCom) (ni : ApNode) : ApCom :=
  if ni.erp then c
  else
    let c := { c with nonerpsta := c.nonerpsta - 1 }
    if c.nonerpsta = 0 ∧ !c.nonerpPr then c.disableProtection conf else c

/-- The HT and 11g parts of `ieee80211_node_join` -/
def joinBss (conf : ApConf) (c : ApCom) (ni : ApNode) : ApCom :=
  let c := if conf.chanHt then c.htNodeJoin conf ni else c
  if conf.chanAnyg && conf.chanFull then (c.joinSlot conf ni).joinErp conf ni else c

/-- The HT and 11g parts of `ieee80211_node_leave` -/
def leaveBss (conf : ApConf) (c : ApCom) (ni : ApNode) : ApCom :=
  let c := if conf.chanHt then c.htNodeLeave conf ni else c
  if conf.chanAnyg && conf.chanFull then (c.leaveSlot conf ni).leaveErp conf ni else c

/-- The search for a free identifier in `ieee80211_node_join` -/
def freeAid (conf : ApConf) (c : ApCom) : Option Nat :=
  (List.range' 1 (conf.maxAid - 1)).find? fun aid => !c.aidBitmap aid

end ApCom

namespace ApNode

/-- `ieee80211_node_leave`, up to the removal from the table. -/
def nodeLeave (conf : ApConf) (c : ApCom) (ni : ApNode) : ApStep :=
  if ni.associd = 0 then ⟨c, ni, []⟩
  else
    let c := { c with
      aidBitmap := Function.update c.aidBitmap (aidOf ni.associd) false
      ivStaAssoc := c.ivStaAssoc - 1
      staAssoc := c.staAssoc - 1 }
    let ni := { ni with associd := 0 }
    ni.nodeCleanup (c.leaveBss conf ni)

/-- `_ieee80211_free_node` and `node_free` -/
def freeNode (c : ApCom) (ni : ApNode) : ApStep :=
  ni.nodeCleanup (if ni.associd ≠ 0 then
      { c with aidBitmap := Function.update c.aidBitmap (aidOf ni.associd) false }
    else c)

/-- `ieee80211_node_join` with a free identifier. -/
def nodeJoinAt (conf : ApConf) (c : ApCom) (ni : ApNode) (aid : Nat) : ApStep :=
  let associd : UInt16 := aid.toUInt16 ||| 0xc000
  let ni := { ni with associd := associd }
  let c := { c with
    aidBitmap := Function.update c.aidBitmap (aidOf associd) true
    ivStaAssoc := c.ivStaAssoc + 1
    staAssoc := c.staAssoc + 1 }
  -- a station with ERP rates is marked by `ieee80211_node_join_11g`
  ⟨c.joinBss conf ni, { ni with erp := ni.erp || (conf.chanAnyg && conf.chanFull && ni.erpRates) }, []⟩

/-- `ieee80211_node_join`; the flag says whether the station stays. -/
def nodeJoin (conf : ApConf) (c : ApCom) (ni : ApNode) : ApStep × Bool :=
  if ni.associd = 0 then
    match c.freeAid conf with
    | none => (ni.nodeLeave conf c, false)
    | some aid => (ni.nodeJoinAt conf c aid, true)
  else (⟨c, ni, []⟩, true)

/-- The block of `hostap_recv_mgmt` that ends an earlier connection when an authentication frame comes. -/
def dropConnection (c : ApCom) (ni : ApNode) : ApStep :=
  if ni.associd ≠ 0 ∨ ni.auth then
    let c := { c with
      aidBitmap := Function.update c.aidBitmap (aidOf ni.associd) false
      ivStaAssoc := c.ivStaAssoc - 1
      staAssoc := c.staAssoc - 1 }
    { ni with associd := 0 }.nodeCleanup c
  else ⟨c, ni, []⟩

/-- An authentication frame of a known station. With `marked` the frame comes to where `hostap_auth_open` and
`hostap_auth_shared` mark the node, with `authorize` it is authorized at once. -/
def recvAuth (c : ApCom) (ni : ApNode) (marked authorize : Bool) : ApStep :=
  let r := ni.dropConnection c
  { r with ni := { r.ni with needAssocid := r.ni.needAssocid || marked, auth := r.ni.auth || authorize } }

/-- An association request, with the outcome of the checks that read only the frame and the configuration. -/
structure AssocReq where
  wpaOk : Bool
  ess : Bool
  ratesOk : Bool
  shortSlot : Bool
  shortPreamble : Bool
  erpRates : Bool
  /-- The HT capabilities, if there are any: whether they allow 40 MHz. -/
  htcap : Option Bool
  /-- The cipher allows HT. -/
  htCipher : Bool
  intval : Nat

/-- The HT part of the request. -/
def assocHt (conf : ApConf) (ni : ApNode) (req : AssocReq) : ApNode :=
  match conf.chanHt, req.htcap with
  | true, some chw40 => { ni with ht := true, chw40 := chw40 }
  | _, _ => { ni with ht := false }

/-- `hostap_recv_mgmt` for an association request; the flag says whether the station stays. -/
def recvAssocReq (conf : ApConf) (c : ApCom) (ni : ApNode) (req : AssocReq) : ApStep × Bool :=
  if !req.wpaOk then (ni.nodeLeave conf c, false)
  else if !req.ess then (ni.nodeLeave conf c, false)
  else if ni.associd ≠ 0 ∧ conf.chanAnyg ∧ ni.shortSlot ≠ req.shortSlot then (ni.nodeLeave conf c, false)
  else
    let ni := { ni with erpRates := req.erpRates }.assocHt conf req
    if !req.ratesOk then (ni.nodeLeave conf c, false)
    else
      let ni := if ni.ht ∧ !req.htCipher then { ni with ht := false } else ni
      if conf.puren ∧ !ni.ht then (ni.nodeLeave conf c, false)
      else
        { ni with
          intval := req.intval
          shortSlot := req.shortSlot
          shortPreamble := req.shortPreamble }.nodeJoin conf c

end ApNode

/-! ## The access point -/

structure Ap where
  com : ApCom := {}
  nodes : List ApNode := []

/-- Frames and requests that come for the station with a given address, and timers. -/
inductive ApEvent
  | auth (mac : Nat) (marked authorize : Bool)
  /-- `ieee80211_node_authorize` and `ieee80211_node_unauthorize` for the authenticator -/
  | authorize (mac : Nat) (on : Bool)
  | assoc (mac : Nat) (req : ApNode.AssocReq)
  /-- The station leaves: it says so, is told to, or has been silent for too long. -/
  | leave (mac : Nat)
  /-- The last reference to a node outside the table is dropped. -/
  | release (i : Nat)
  | pwrsave (mac : Nat) (enable : Bool)
  | start (mac : Nat) (m : PsFrame) (pae : Bool)
  | pspoll (mac : Nat) (aid : UInt16)
  | trigger (mac : Nat)
  | age (mac : Nat)
  /-- `ieee80211_timeout_stations` probes a sleeping station. -/
  | probe (mac : Nat)
  /-- The beacon is brought up to date. -/
  | tbtt (mcast : Bool)
  /-- The beacon is built anew. -/
  | construct
  | beaconErp
  | beaconHt (mixed : Bool)
  | erpTimeout (late : Bool)
  | htTimeout (late : Bool)

/-- The state after an event, and where frames went, each with the address of its station. -/
abbrev ApOut := Ap × List (Nat × PsFate)

namespace Ap

/-- The station with an address among those of the table, and its place. -/
def findNode (s : Ap) (mac : Nat) : Option (Nat × ApNode) :=
  (s.nodes.findIdx? fun ni => !ni.gone && ni.macaddr == mac).bind fun i => s.nodes[i]?.map fun ni => (i, ni)

/-- The station with an address is worked on, if there is one. -/
def onNode (s : Ap) (mac : Nat) (f : ApCom → ApNode → Option ApStep) : Option ApOut :=
  match s.findNode mac with
  | none => some (s, [])
  | some (i, ni) => (f s.com ni).map fun r => (⟨r.com, s.nodes.set i r.ni⟩, r.fates.map (mac, ·))

/-- A station that leaves is taken out of the table. -/
def reclaim (r : ApStep × Bool) : ApStep :=
  if r.2 then r.1 else { r.1 with ni := { r.1.ni with gone := true } }

/-- An authentication frame; `ieee80211_dup_bss` makes a node for an unknown station. -/
def auth (s : Ap) (mac : Nat) (marked authorize : Bool) : Option ApOut :=
  match s.findNode mac with
  | none =>
    if marked then
      some ({ s with nodes := { macaddr := mac, needAssocid := true, auth := authorize } :: s.nodes }, [])
    else some (s, [])
  | some _ => s.onNode mac fun c ni => some (ni.recvAuth c marked authorize)

/-- The last reference to a station outside the table goes. -/
def release (s : Ap) (i : Nat) : ApOut :=
  match s.nodes[i]? with
  | none => (s, [])
  | some ni =>
    if ni.gone then
      (⟨(ni.freeNode s.com).com, s.nodes.eraseIdx i⟩, (ni.freeNode s.com).fates.map (ni.macaddr, ·))
    else (s, [])

/-- A frame comes from above; one for an unknown station is freed. -/
def start (conf : ApConf) (s : Ap) (mac : Nat) (m : PsFrame) (pae : Bool) : Option ApOut :=
  match s.findNode mac with
  | none => some (s, [(mac, .free { m with encap := false })])
  | some _ => s.onNode mac fun c ni => some (ni.start conf c m pae)

def step (conf : ApConf) (s : Ap) : ApEvent → Option ApOut
  | .auth mac marked authorize => s.auth mac marked authorize
  | .authorize mac on => s.onNode mac fun c ni => some ⟨c, { ni with auth := on }, []⟩
  | .assoc mac req => s.onNode mac fun c ni => some (reclaim (ni.recvAssocReq conf c req))
  | .leave mac => s.onNode mac fun c ni => some (reclaim (ni.nodeLeave conf c, false))
  | .release i => some (s.release i)
  | .pwrsave mac enable => s.onNode mac fun c ni => some (ni.nodePwrsave c enable)
  | .start mac m pae => s.start conf mac m pae
  | .pspoll mac aid => s.onNode mac fun c ni => some (ni.recvPspoll c aid)
  | .trigger mac => s.onNode mac fun c ni => ni.recvTriggerFrame c
  | .age mac => s.onNode mac fun c ni => some (ni.nodeAge c)
  | .probe mac => s.onNode mac fun c ni =>
    some ⟨if ni.associd ≠ 0 ∧ ni.pwrMgt then c.setTim ni.associd true else c, ni, []⟩
  | .tbtt mcast => some ({ s with com := s.com.beaconUpdate conf mcast }, [])
  | .construct => some ({ s with com := s.com.beaconConstruct }, [])
  | .beaconErp => some ({ s with com := s.com.beaconErp conf }, [])
  | .beaconHt mixed =>
    let opmode := if mixed then opmodeMixed else opmodeProtopt
    some ({ s with com := s.com.htprotUpdate (opmode ||| nonhtPresent) }, [])
  | .erpTimeout late => some ({ s with com := s.com.erpTimeout conf late }, [])
  | .htTimeout late => some ({ s with com := s.com.htTimeout conf late }, [])

def run (conf : ApConf) : Ap → List ApEvent → Option ApOut
  | s, [] => some (s, [])
  | s, e :: es => (s.step conf e).bind fun r => (run conf r.1 es).map fun t => (t.1, r.2 ++ t.2)

end Ap

end Onebox.Net80211
