import Onebox.TxOwnership
import Onebox.WmmSelection

/-! What the transmit path decides about one packet: whether a long queue drops it, whether it goes to the
background queue for want of a traffic specification, and whether its descriptor asks for the retries of an
EAPOL frame. -/

namespace Onebox

open Machine

/-! ## Queue pressure -/

def Netbuf.isIpv4Udp (nb : Netbuf) : Bool := nb.etherType = 0x0800 && nb.data 23 = 17

/-- Any other EtherType that starts with the byte of the test. -/
def Netbuf.isOther08 (nb : Netbuf) : Bool := nb.data 12 = 0x08 && nb.data 13 ≠ 0

theorem Netbuf.etherType_eq_iff (nb : Netbuf) (hi lo : BitVec 8) :
    nb.etherType = hi ++ lo ↔ nb.data 12 = hi ∧ nb.data 13 = lo := by
  rw [etherType]
  constructor
  · intro h
    have hhi := congrArg (BitVec.extractLsb' 8 8) h
    have hlo := congrArg (BitVec.extractLsb' 0 8) h
    rw [BitVec.extractLsb'_append_eq_left, BitVec.extractLsb'_append_eq_left] at hhi
    rw [BitVec.extractLsb'_append_eq_right, BitVec.extractLsb'_append_eq_right] at hlo
    exact ⟨hhi, hlo⟩
  · rintro ⟨hhi, hlo⟩
    rw [hhi, hlo]

theorem Netbuf.isUdp_iff (nb : Netbuf) :
    nb.isUdp = true ↔ nb.isIpv4Udp = true ∨ nb.isOther08 = true ∧ nb.data 23 = 17 := by
  have hether : nb.etherType = 0x0800 ↔ nb.data 12 = 0x08 ∧ nb.data 13 = 0 := nb.etherType_eq_iff 0x08 0
  simp only [isUdp, isIpv4Udp, isOther08, Bool.and_eq_true, decide_eq_true_eq, hether]
  by_cases h13 : nb.data 13 = 0 <;> tauto

theorem Netbuf.isIpv4Udp_of_isOther08 {nb : Netbuf} (h : nb.isOther08 = true) : nb.isIpv4Udp = false := by
  have hether : nb.etherType = 0x0800 ↔ nb.data 12 = 0x08 ∧ nb.data 13 = 0 := nb.etherType_eq_iff 0x08 0
  simp only [isOther08, Bool.and_eq_true, decide_eq_true_eq] at h
  rw [isIpv4Udp, Bool.and_eq_false_iff]
  exact .inl (decide_eq_false fun heq => h.2 (hether.mp heq).2)

namespace TxEnv

variable (e : TxEnv)

/-- The packet comes to the tests of the queue lengths on its way into the data queue `q`. -/
structure BoundFor (b : TxBuf) (n : Node) (q : DataQ) : Prop where
  len : cbLen b.nb.frame ≠ 0
  fsmOpen : e.sys.fsmOpen = true
  node : e.sys.net.stations.node b.nb.ni = some n
  niVap : e.niVap = true
  unicast : b.nb.toAll = false
  key : e.sys.noKey n b.nb = false
  data : b.nb.toMgmt (e.sys.net.vap n.vap).opmode = false
  queue : q = e.sys.pktPriority (e.sys.net.vap n.vap).opmode b.nb

/-- The queue has reached its limit, and no WPA connection is in progress. -/
def Full (n : Node) (q : DataQ) : Prop := maxLen q ≤ (e.sys.queue q).length + 1 ∧ e.connecting n = false

def AboveMark (q : DataQ) : Prop := waterMark q ≤ (e.sys.queue q).length + 1

/-- The packets that queue pressure is meant to drop. -/
def Pressed (n : Node) (nb : Netbuf) (q : DataQ) : Prop := e.Full n q ∨ e.AboveMark q ∧ nb.isIpv4Udp = true

variable {e} {b : TxBuf} {n : Node} {q : DataQ}

theorem BoundFor.route_eq (h : e.BoundFor b n q) : e.route b = e.dataRoute n b.nb q := by
  rw [route, if_neg h.len, h.fsmOpen, h.node, h.queue]
  simp only [Bool.not_true, Bool.false_eq_true, if_false, h.niVap, h.unicast, Bool.false_and, h.key, h.data]

/-- With the two stop flags clear, the lengths and the one-byte test decide. -/
theorem BoundFor.route_cases (h : e.BoundFor b n q) (hstop : e.sys.stopPerQ n.vap q = false)
    (hudp : e.sys.stopUdpPkts n.vap q = false) :
    (e.Full n q ∨ e.AboveMark q ∧ b.nb.isUdp = true) ∧ e.route b = .drop ∨
      ¬ (e.Full n q ∨ e.AboveMark q ∧ b.nb.isUdp = true) ∧ e.route b = .data n q := by
  rw [h.route_eq, dataRoute, hstop, hudp]
  simp only [Bool.false_or, Bool.and_eq_true, decide_eq_true_eq, Bool.not_eq_true', Full, AboveMark]
  split_ifs with hfull hmark
  · exact .inl ⟨.inl hfull, rfl⟩
  · exact .inl ⟨.inr hmark, rfl⟩
  · exact .inr ⟨not_or.mpr ⟨hfull, hmark⟩, rfl⟩

/-- Queue pressure drops what it is meant to drop, and lets everything else go on to its descriptor, just
when the packet is not one of another EtherType 08xx that the test takes for IPv4 and UDP. -/
theorem dropped_iff_pressed (h : e.BoundFor b n q) (hstop : e.sys.stopPerQ n.vap q = false)
    (hudp : e.sys.stopUdpPkts n.vap q = false) :
    ((e.route b = .drop ↔ e.Pressed n b.nb q) ∧ (¬ e.Pressed n b.nb q → e.route b = .data n q)) ↔
      ¬ (b.nb.isOther08 = true ∧ b.nb.data 23 = 17 ∧ e.AboveMark q ∧ ¬ e.Full n q) := by
  rcases h.route_cases hstop hudp with ⟨hdrop, hroute⟩ | ⟨hpass, hroute⟩
  · constructor
    · rintro ⟨hiff, -⟩ ⟨hother, -, -, hfull⟩
      rcases hiff.mp hroute with hpressed | ⟨-, hip⟩
      · exact hfull hpressed
      · rw [Netbuf.isIpv4Udp_of_isOther08 hother] at hip
        cases hip
    · intro hcond
      have hpressed : e.Pressed n b.nb q := by
        rcases hdrop with hfull | ⟨hmark, hisUdp⟩
        · exact .inl hfull
        · rcases (Netbuf.isUdp_iff _).mp hisUdp with hip | ⟨hother, h23⟩
          · exact .inr ⟨hmark, hip⟩
          · by_contra hnot
            exact hcond ⟨hother, h23, hmark, fun hfull => hnot (.inl hfull)⟩
      exact ⟨iff_of_true hroute hpressed, fun hnot => absurd hpressed hnot⟩
  · have hnot : ¬ e.Pressed n b.nb q := by
      rintro (hfull | ⟨hmark, hip⟩)
      · exact hpass (.inl hfull)
      · exact hpass (.inr ⟨hmark, (Netbuf.isUdp_iff _).mpr (.inl hip)⟩)
    refine iff_of_true ⟨iff_of_false ?_ hnot, fun _ => hroute⟩ ?_
    · rw [hroute]
      exact Route.noConfusion
    · rintro ⟨hother, h23, hmark, -⟩
      exact hpass (.inr ⟨hmark, (Netbuf.isUdp_iff _).mpr (.inr ⟨hother, h23⟩)⟩)

/-- Best effort traffic of a station between its water mark and its limit. -/
def busyEnv : TxEnv :=
  { quietEnv with
    sys := { quietEnv.sys with queue := fun _ => List.replicate 3300 ⟨ipTo 7, staVap, none, 0⟩ } }

/-- An ARP reply from `02:11:00:00:00:01`. -/
def arpFrame : List (BitVec 8) :=
  [0, 0, 0, 0, 0, 7, 0x02, 0x11, 0, 0, 0, 1, 0x08, 0x06, 0, 1, 0x08, 0, 6, 4, 0, 2, 0x02, 0x11, 0, 0, 0, 1,
    10, 0, 0, 1, 0, 0, 0, 0, 0, 7, 10, 0, 0, 2]

def frameTo7 (frame : List (BitVec 8)) : TxBuf :=
  { nb := ⟨7, frame, ⟨false, false, false, false, false⟩, 0⟩, headroom := 52, staId := 0, tail := [] }

theorem busyEnv_boundFor {frame : List (BitVec 8)} (hlen : cbLen frame ≠ 0)
    (hdata : (frameTo7 frame).nb.toMgmt .sta = false)
    (htid : busyEnv.sys.pktPriority .sta (frameTo7 frame).nb = 1) :
    busyEnv.BoundFor (frameTo7 frame) apNode 1 :=
  ⟨hlen, rfl, rfl, rfl, rfl, rfl, hdata, htid.symm⟩

theorem busyEnv_aboveMark : busyEnv.AboveMark 1 ∧ ¬ busyEnv.Full apNode 1 := by
  have hlen : (busyEnv.sys.queue 1).length = 3300 := List.length_replicate
  rw [AboveMark, Full, hlen]
  decide

/-- The reply is dropped for a byte of the address of its sender. -/
theorem arp_dropped :
    busyEnv.BoundFor (frameTo7 arpFrame) apNode 1 ∧ busyEnv.sys.stopPerQ apNode.vap 1 = false ∧
      busyEnv.sys.stopUdpPkts apNode.vap 1 = false ∧ busyEnv.route (frameTo7 arpFrame) = .drop ∧
      ¬ busyEnv.Pressed apNode (frameTo7 arpFrame).nb 1 := by
  have hbound : busyEnv.BoundFor (frameTo7 arpFrame) apNode 1 :=
    busyEnv_boundFor (by decide) (by decide) (by decide)
  obtain ⟨hmark, hfull⟩ := busyEnv_aboveMark
  have hudp : (frameTo7 arpFrame).nb.isUdp = true := by decide
  have hip : (frameTo7 arpFrame).nb.isIpv4Udp = false := by decide
  refine ⟨hbound, rfl, rfl, ?_, ?_⟩
  · rcases hbound.route_cases rfl rfl with ⟨-, hdrop⟩ | ⟨hpass, -⟩
    · exact hdrop
    · exact absurd (.inr ⟨hmark, hudp⟩) hpass
  · rintro (h | ⟨-, h⟩)
    · exact hfull h
    · rw [hip] at h
      cases h

theorem dropped_iff_pressed_tcp :
    (busyEnv.route (frameTo7 ipFrame) = .drop ↔ busyEnv.Pressed apNode (frameTo7 ipFrame).nb 1) := by
  have hbound : busyEnv.BoundFor (frameTo7 ipFrame) apNode 1 :=
    busyEnv_boundFor (by decide) (by decide) (by decide)
  have hother : (frameTo7 ipFrame).nb.isOther08 = false := by decide
  refine ((dropped_iff_pressed hbound rfl rfl).mpr ?_).1
  rintro ⟨h, -⟩
  rw [hother] at h
  cases h

end TxEnv

/-! ## Admission control -/

theorem Wmm.getQueueNum_selectedQnum {len : DataQ → Nat} {n : Nat} {w w' : Wmm} {o : Option DataQ}
    (h : getQueueNum len n w = some (w', o)) : w'.selectedQnum = w.selectedQnum := by
  induction n generalizing w with
  | zero => cases h
  | succ n ih =>
    rw [getQueueNum] at h
    split_ifs at h
    · cases h
      rfl
    · have hrest := ih h
      exact hrest
    · cases h
      rfl

theorem Wmm.selectedQnum_of_no_data {len : DataQ → Nat} {w : Wmm} {m : Nat}
    (h : ∀ q, (w.coreDetermineHalQueue len m).2 ≠ some (.data q)) :
    (w.coreDetermineHalQueue len m).1.selectedQnum = w.selectedQnum := by
  by_cases hm : m = 0
  · by_cases hcnt : w.pktCnt = 0
    · obtain ⟨w', o, hget, -, -⟩ := getQueueNum_eq_some len w 0
      rw [coreDetermineHalQueue, if_neg (not_not.mpr hm), if_neg (not_not.mpr hcnt), hget] at h ⊢
      cases o with
      | none => exact getQueueNum_selectedQnum hget
      | some q => exact absurd rfl (h q)
    · rw [coreDetermineHalQueue, if_neg (not_not.mpr hm), if_pos hcnt]
  · rw [coreDetermineHalQueue, if_pos hm]

/-- The data queue that the last call before the end of a run has returned, `q` if there was none. -/
def SoftQueues.lastData (q : DataQ) : SoftQueues → List SelectAct → DataQ
  | _, [] => q
  | s, .enqueue i :: as => lastData q (s.setLen (s.lenOf i + 1) i) as
  | s, .call dequeues :: as =>
    let s' := { s with wmm := s.determine.1 }
    lastData (match s.determine.2 with
      | some (.data i) => i
      | _ => q) (if dequeues then s'.dequeue s.determine.2 else s') as

theorem SoftQueues.wmm_setLen (s : SoftQueues) (n : Nat) (q : SoftQ) : (s.setLen n q).wmm = s.wmm := by
  cases q <;> rfl

theorem SoftQueues.wmm_dequeue (s : SoftQueues) (o : Option SoftQ) : (s.dequeue o).wmm = s.wmm := by
  cases o with
  | none => rfl
  | some q => exact s.wmm_setLen _ q

theorem SoftQueues.BurstFits.selectedQnum_determine {s : SoftQueues} (h : s.BurstFits) :
    s.determine.1.selectedQnum = match s.determine.2 with
      | some (.data i) => i
      | _ => s.wmm.selectedQnum := by
  have hdet : Wmm.Determines s.len s.mgmtLen s.wmm s.determine.1 s.determine.2 :=
    Wmm.coreDetermineHalQueue_determines s.len s.wmm s.mgmtLen
  cases hr : s.determine.2 with
  | none => exact Wmm.selectedQnum_of_no_data fun q hq => by cases hr.symm.trans hq
  | some i =>
    cases i with
    | mgmt => exact Wmm.selectedQnum_of_no_data fun q hq => by cases hr.symm.trans hq
    | data i =>
      rw [hr] at hdet
      exact (hdet.data h).2.1

theorem SoftQueues.BurstFits.selectedQnum_run {s t : SoftQueues} {as : List SelectAct} (h : s.BurstFits)
    (hrun : run step s as = some t) : t.wmm.selectedQnum = lastData s.wmm.selectedQnum s as := by
  induction as generalizing s with
  | nil =>
    cases hrun
    rfl
  | cons a as ih =>
    obtain ⟨u, hu, hrun⟩ := run_cons_eq_some.mp hrun
    have hrest := ih (burstFits_step h hu) hrun
    cases a with
    | enqueue q =>
      rw [← Option.some.inj hu] at hrest
      rw [hrest, wmm_setLen]
      rfl
    | call dequeues =>
      have hwmm : u.wmm = s.determine.1 := by
        rw [← Option.some.inj hu]
        cases dequeues with
        | false => rfl
        | true => exact wmm_dequeue _ _
      rw [hrest, hwmm, h.selectedQnum_determine, lastData]
      rw [show u = _ from (Option.some.inj hu).symm]

/-- The place of an access category in `cap_wmeParams`. The queues are numbered in another order. -/
def WmeAc.index : WmeAc → Nat
  | .be => 0
  | .bk => 1
  | .vi => 2
  | .vo => 3

/-- The environment with the bit that `prepare_onair_data_pkt_desc` reads. `acm` is `wmep_acm` in the four
entries of `cap_wmeParams` and in what lies behind them. -/
def TxEnv.withAcm (e : TxEnv) (acm : Nat → Bool) (w : Wmm) : TxEnv :=
  { e with sys := { e.sys with radio := { e.sys.radio with wmeAcm := acm w.selectedQnum } } }

section Acm

variable {e : TxEnv} {acm : Nat → Bool} {w : Wmm} {b : TxBuf} {n : Node} {q : DataQ}

theorem DescArgs.word7_low (a : DescArgs) : a.prepare.byte 14 = a.tidAndQ.setWidth 8 := by
  show (a.tidAndQ ||| BitVec.ofNat 16 (if a.toAll then a.vapId else a.staId) <<< 8).setWidth 8 = _
  ext i hi
  simp

theorem acm_withAcm (hsta : (e.sys.net.vap n.vap).opmode = .sta) (tid : Nat) :
    ((e.withAcm acm w).descArgs n b tid q).acm = acm w.selectedQnum := by
  have hvap : ((e.withAcm acm w).descArgs n b tid q).vap.opmode = .sta := hsta
  rw [DescArgs.acm, hvap]
  rfl

/-- The low byte of word 7 shows tid 1 and the background queue for a packet that is downgraded, and what
the packet came with otherwise. -/
theorem DescArgs.byte14_eq (a : DescArgs) : a.prepare.byte 14 =
    if a.acm then 0x10#8
    else (((BitVec.ofNat 16 a.tid &&& 0x000f) <<< 4) ||| (BitVec.ofNat 16 a.q &&& 0x000f)).setWidth 8 := by
  rw [a.word7_low, tidAndQ, tidNum, qNum]
  split_ifs <;> rfl

/-- The downgrade is that of the packet's own category, by an entry of `cap_wmeParams`. -/
structure AcmSound (acm : Nat → Bool) (w : Wmm) (a : DescArgs) (c : WmeAc) : Prop where
  index : w.selectedQnum.val < 4
  downgraded : a.acm = true ↔ acm c.index = true

/-- After any history the decision is that of the queue returned last, whatever the packet: it is right for
the category of the packet just when that number has an entry and the entry agrees with the right one. -/
theorem acmSound_iff_last {w₀ : Wmm} {org : DataQ → Int} {as : List SelectAct} {s : SoftQueues}
    (hrun : run SoftQueues.step (.start w₀ org) as = some s) (hsta : (e.sys.net.vap n.vap).opmode = .sta)
    (acm : Nat → Bool) (b : TxBuf) (tid : Nat) (q : DataQ) (c : WmeAc) :
    ((e.withAcm acm s.wmm).descArgs n b tid q).prepare.byte 14 =
        (if ((e.withAcm acm s.wmm).descArgs n b tid q).acm then 0x10#8
        else (((BitVec.ofNat 16 tid &&& 0x000f) <<< 4) ||| (BitVec.ofNat 16 q &&& 0x000f)).setWidth 8) ∧
      (AcmSound acm s.wmm ((e.withAcm acm s.wmm).descArgs n b tid q) c ↔
        (SoftQueues.lastData w₀.selectedQnum (.start w₀ org) as).val < 4 ∧
          acm (SoftQueues.lastData w₀.selectedQnum (.start w₀ org) as) = acm c.index) := by
  have hstart : (SoftQueues.start w₀ org).BurstFits := Nat.zero_le _
  have hlast : s.wmm.selectedQnum = SoftQueues.lastData w₀.selectedQnum (.start w₀ org) as :=
    hstart.selectedQnum_run hrun
  refine ⟨DescArgs.byte14_eq _, ?_⟩
  rw [← hlast]
  constructor
  · rintro ⟨hindex, hdown⟩
    rw [acm_withAcm hsta] at hdown
    exact ⟨hindex, Bool.eq_iff_iff.mpr hdown⟩
  · rintro ⟨hindex, hagree⟩
    refine ⟨hindex, ?_⟩
    rw [acm_withAcm hsta, hagree]

/-- Admission control for voice only. -/
def voiceAcm (i : Nat) : Bool := i = WmeAc.vo.index

def beBuf : TxBuf := TxEnv.frameTo7 ipFrame

/-- A voice packet has been sent, and the best effort packet that comes next is downgraded for it. After a
packet of an access point the index is past the end. -/
theorem bestEffort_downgraded :
    (∃ s, run SoftQueues.step SoftQueues.voiceStart [.enqueue (.data voQSta), .call true] = some s ∧
      ((quietEnv.withAcm voiceAcm s.wmm).descArgs apNode beBuf beBuf.nb.tid 1).prepare.byte 14 = 0x10 ∧
      voiceAcm WmeAc.be.index = false) ∧
      ∃ s, run SoftQueues.step SoftQueues.voiceStart [.enqueue (.data 7), .call true] = some s ∧
        s.wmm.selectedQnum = 7 :=
  ⟨exists_run (by decide), exists_run (by decide)⟩

theorem acmSound_voice :
    ∃ s, run SoftQueues.step SoftQueues.voiceStart [.enqueue (.data voQSta), .call true] = some s ∧
      AcmSound voiceAcm s.wmm ((quietEnv.withAcm voiceAcm s.wmm).descArgs apNode beBuf 6 voQSta) .vo :=
  exists_run_of (by decide) fun s hrun =>
    (acmSound_iff_last hrun rfl voiceAcm beBuf 6 voQSta .vo).2.mpr (by decide)

end Acm

/-! ## EAPOL frames -/

/-- The descriptor asks for the retry count of EAPOL frames: `FETCH_RETRY_CNT_FRM_HST` with
`EAPOL_RETRY_CNT`. -/
def Desc.EapolRetry (d : Desc) : Prop := d.word[1].getLsbD 12 = true ∧ d.retryCnt = 15

/-- The two builders, as a caller comes to them. -/
inductive TxPath
  | data (tid : Nat) (q : DataQ)
  | mgmt

namespace TxEnv

variable (e : TxEnv) (n : Node) (b : TxBuf)

/-- A frame that renews keys is given to the builder of data descriptors. -/
def redirected : TxPath → Bool
  | .data .. => true
  | .mgmt => MgmtArgs.rekeying ⟨e, n, b⟩

def built : TxPath → Desc
  | .data tid q => (e.descArgs n b tid q).prepare
  | .mgmt =>
    if MgmtArgs.rekeying ⟨e, n, b⟩ then
      (e.descArgs n b 7 (WmeAc.vo.queue (e.sys.net.vap n.vap).opmode)).prepare
    else MgmtArgs.desc ⟨e, n, b⟩

def packetOf : TxPath → List (BitVec 8)
  | .data tid q => e.dataPacket n b tid q
  | .mgmt =>
    if MgmtArgs.rekeying ⟨e, n, b⟩ then e.dataPacket n b 7 (WmeAc.vo.queue (e.sys.net.vap n.vap).opmode)
    else MgmtArgs.packet ⟨e, n, b⟩

/-- The descriptor is the one in front of the packet. -/
theorem packetOf_eq (path : TxPath) : ∃ c frameType, e.packetOf n b path =
    writeFront (headerBytes (b.word0 c) (e.built n b path) frameType b.nb.extndSize) b.grown := by
  cases path with
  | data tid q => exact ⟨.data, 0, rfl⟩
  | mgmt =>
    rw [packetOf, built]
    split_ifs
    · exact ⟨.data, 0, rfl⟩
    · exact ⟨.mgmt, _, rfl⟩

variable {e n b}

/-- Four bytes before the EtherType, for every alignment. -/
theorem eapolTest_iff (tid : Nat) (q : DataQ) : (e.descArgs n b tid q).eapolTest = true ↔
    b.byte (b.missing + 8) = 0x88 ∧ b.byte (b.missing + 9) = 0x8e := by
  have hat (i : Nat) : b.data (16 + 12 + b.nb.extndSize.toNat + i) = b.byte (b.missing + (8 + i)) := by
    rw [← b.data_header (8 + i)]
    congr 1
    omega
  rw [DescArgs.eapolTest, Bool.and_eq_true, decide_eq_true_eq, decide_eq_true_eq]
  exact and_congr (by rw [← hat 0]; rfl) (by rw [← hat 1]; rfl)

theorem eapolRetry_data (tid : Nat) (q : DataQ) : (e.descArgs n b tid q).prepare.EapolRetry ↔
    b.byte (b.missing + 8) = 0x88 ∧ b.byte (b.missing + 9) = 0x8e := by
  have hbit : ∀ x y : Bool, (0x0001 ||| bit x 0x6000 ||| bit y 0x1000).getLsbD 12 = y := by decide
  have hword : (e.descArgs n b tid q).prepare.word[1].getLsbD 12 = (e.descArgs n b tid q).eapolTest :=
    hbit _ _
  rw [Desc.EapolRetry, hword, ← eapolTest_iff (e := e) (n := n) tid q]
  refine and_iff_left_of_imp fun h => ?_
  show (bit (e.descArgs n b tid q).eapolTest 15).toNat = 15
  rw [h]
  rfl

/-- The management builder looks at the right place, for every alignment. -/
theorem eapol_iff (a : MgmtArgs) (hflag : a.buf.nb.flags.eapol = true) : a.eapol = true ↔
    a.buf.byte (a.buf.missing + 12) = 0x88 ∧ a.buf.byte (a.buf.missing + 13) = 0x8e := by
  have hat (i : Nat) : a.buf.data (a.extndSize + 16 + i + 4) = a.buf.byte (a.buf.missing + i) := by
    rw [← a.buf.data_header i, MgmtArgs.extndSize]
    congr 1
    omega
  rw [MgmtArgs.eapol, hat 12, hat 13, MgmtArgs.flags, hflag, Bool.and_true, Bool.and_eq_true, decide_eq_true_eq,
    decide_eq_true_eq]

theorem probeResp_iff (a : MgmtArgs) : a.probeResp = true ↔ a.buf.byte a.buf.missing = 0x50 := by
  have hfirst : a.first = a.buf.byte a.buf.missing := by
    rw [← Nat.add_zero a.buf.missing, ← a.buf.data_header 0, MgmtArgs.first, MgmtArgs.extndSize]
    congr 1
    omega
  rw [MgmtArgs.probeResp, hfirst, decide_eq_true_eq]

theorem eapolRetry_mgmt (a : MgmtArgs) (hflag : a.buf.nb.flags.eapol = true) : a.desc.EapolRetry ↔
    (a.buf.byte (a.buf.missing + 12) = 0x88 ∧ a.buf.byte (a.buf.missing + 13) = 0x8e) ∧
      a.buf.byte a.buf.missing ≠ 0x50 := by
  have hbit : ∀ x y z u v : Bool, (bit x 0x0400 ||| bit y 0x9000 ||| bit z 0x1800 ||| bit u 0x2000 |||
      bit v 0x4000).getLsbD 12 = (y || z) := by decide
  have hword : a.desc.word[1].getLsbD 12 = (a.eapol || a.probeResp) := hbit _ _ _ _ _
  rw [Desc.EapolRetry, hword, ← eapol_iff a hflag, Ne, ← probeResp_iff a]
  show _ ∧ (if a.probeResp then 3 else if a.eapol then 15 else 0) = 15 ↔ _
  cases a.probeResp <;> cases a.eapol <;> decide

/-- The retry count of EAPOL frames is asked for just when the frame is one, on condition that: over the
builder of data descriptors, bytes 8 and 9 tell the same as the EtherType; over the other, the frame is not
taken for a probe response. Where `missing` bytes of the header have no room, both look that much further on
in the frame. This is so for every alignment. -/
theorem eapolRetry_iff (e : TxEnv) (n : Node) (b : TxBuf) (path : TxPath)
    (hflag : path = .mgmt → b.nb.flags.eapol = true) :
    (b.room = true → b.missing = 0) ∧
    (((e.built n b path).EapolRetry ↔ b.nb.etherType = etherTypePae) ↔
      if e.redirected n b path then
        ((b.byte (b.missing + 8) = 0x88 ∧ b.byte (b.missing + 9) = 0x8e) ↔ b.nb.etherType = etherTypePae)
      else
        ((b.byte (b.missing + 12) = 0x88 ∧ b.byte (b.missing + 13) = 0x8e) ∧ b.byte b.missing ≠ 0x50 ↔
          b.nb.etherType = etherTypePae)) := by
  refine ⟨TxBuf.missing_of_room, ?_⟩
  cases path with
  | data tid q =>
    rw [built, redirected, if_pos rfl, eapolRetry_data]
  | mgmt =>
    rw [built, redirected]
    cases MgmtArgs.rekeying ⟨e, n, b⟩ with
    | false => rw [if_neg Bool.false_ne_true, if_neg Bool.false_ne_true, eapolRetry_mgmt _ (hflag rfl)]
    | true => rw [if_pos rfl, if_pos rfl, eapolRetry_data]

/-- A frame that `M_EAPOL` is set for, from `02:11:00:00:00:01`, at an address that is not aligned. -/
def eapolBuf : TxBuf :=
  { nb := ⟨7, [0, 0, 0, 0, 0, 7, 0x02, 0x11, 0, 0, 0, 1, 0x88, 0x8e, 2, 3], ⟨false, false, false, false, true⟩, 2⟩,
    headroom := 52, staId := 0, tail := [] }

def connectingEnv : TxEnv :=
  let net := { quietEnv.sys.net with vap := fun _ => { wpaSta with connInProg := true } }
  { quietEnv with sys := { quietEnv.sys with net } }

/-- A frame that renews the keys of a station goes out unmarked, and an IP frame from `02:11:88:8e:00:01`
is marked. -/
theorem rekeying_unmarked :
    (quietEnv.route eapolBuf = .mgmt apNode ∧ eapolBuf.room = true ∧
      eapolBuf.nb.etherType = etherTypePae ∧ ¬ (quietEnv.built apNode eapolBuf .mgmt).EapolRetry) ∧
      ((quietEnv.built apNode (frameTo7 [0, 0, 0, 0, 0, 7, 0x02, 0x11, 0x88, 0x8e, 0, 1, 0x08, 0x00])
        (.data 0 1)).EapolRetry) := by
  refine ⟨⟨by decide, by decide, by decide, ?_⟩, ?_⟩
  · rw [show quietEnv.built apNode eapolBuf .mgmt = (quietEnv.descArgs apNode eapolBuf 7 3).prepare from rfl,
      eapolRetry_data]
    decide
  · rw [built, eapolRetry_data]
    decide

/-- During a handshake the frame is marked. -/
theorem handshake_marked :
    ((connectingEnv.built apNode eapolBuf .mgmt).EapolRetry ↔ eapolBuf.nb.etherType = etherTypePae) :=
  (eapolRetry_iff connectingEnv apNode eapolBuf .mgmt fun _ => rfl).2.mpr (by decide)

end TxEnv

end Onebox
