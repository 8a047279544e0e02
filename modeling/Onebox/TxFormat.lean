import Onebox.TxOwnership

/-! The format of the packets in the transmit queues: descriptor, extended
descriptor, frame. The queue gets that format unless the header did not fit, the
packet is too long, or a monitor vap has had its header taken away. -/

namespace Onebox

def firstWord (bytes : List (BitVec 8)) : Nat := (bytes.getD 0 0).toNat + 256 * (bytes.getD 1 0).toNat

/-- A packet of the given class that carries the frame. -/
structure Framed (frame : List (BitVec 8)) (c : QueueClass) (bytes : List (BitVec 8)) : Prop where
  length_le : bytes.length ≤ 1594
  desc : 16 ≤ bytes.length
  lowBits : firstWord bytes % 2 ^ 12 = bytes.length - 16
  highBits : firstWord bytes / 2 ^ 12 = c.toNat
  payload : bytes.drop (16 + (bytes.getD 4 0).toNat) = frame

def TxEnv.framesOk (e : TxEnv) (b : TxBuf) : Bool :=
  b.room && b.nb.frame.length + 20 + b.nb.extndSize.toNat ≤ 1594 && e.sys.scNmonvaps = 0

/-- What a builder writes in front of the frame. -/
structure IsHeader (b : TxBuf) (c : QueueClass) (header : List (BitVec 8)) : Prop where
  length : header.length = 20 + b.nb.extndSize.toNat
  first : firstWord header = (b.word0 c).toNat
  size : (header.getD 4 0).toNat = b.nb.extndSize.toNat + 4

theorem toNat_leBytes (w : BitVec 16) :
    ((w.setWidth 8).toNat + 256 * ((w >>> 8).setWidth 8).toNat) = w.toNat := by
  have := w.isLt
  simp only [BitVec.toNat_setWidth, BitVec.toNat_ushiftRight, Nat.shiftRight_eq_div_pow]
  omega

theorem isHeader_headerBytes {b : TxBuf} {c : QueueClass} {d : Desc} (ft : BitVec 8) {w1 w2 : BitVec 16}
    {ws : List (BitVec 16)} (hd : d.word.toList.drop 1 = w1 :: w2 :: ws) (hws : ws.length = 5)
    (hsize : (w2.setWidth 8).toNat = b.nb.extndSize.toNat + 4) :
    IsHeader b c (headerBytes (b.word0 c) d ft b.nb.extndSize) := by
  refine ⟨?_, ?_, ?_⟩
  · simp [headerBytes, hd, leBytes, hws]
    omega
  · exact toNat_leBytes _
  · simpa [headerBytes, hd, leBytes] using hsize

theorem isHeader_data (e : TxEnv) (n : Node) (b : TxBuf) (tid : Nat) (q : DataQ) :
    IsHeader b .data (headerBytes (b.word0 .data) (e.descArgs n b tid q).prepare 0 b.nb.extndSize) := by
  have hsize : ∀ x : BitVec 2, ((BitVec.ofNat 16 (x.toNat + 4)).setWidth 8).toNat = x.toNat + 4 := by decide
  exact isHeader_headerBytes 0 rfl rfl (hsize _)

theorem isHeader_mgmt (a : MgmtArgs) :
    IsHeader a.buf .mgmt (headerBytes (a.buf.word0 .mgmt) a.desc a.confirmFrameType a.buf.nb.extndSize) := by
  have hsize : ∀ x : BitVec 2, ((BitVec.ofNat 16 (x.toNat + 4) ||| 0x1800).setWidth 8).toNat = x.toNat + 4 := by
    decide
  exact isHeader_headerBytes _ rfl rfl (hsize _)

/-- What a builder hands over: the grown packet with a header, or that packet without its front when
there is a monitor vap. A data packet that is too big keeps its header. -/
def BuiltPacket (e : TxEnv) (b : TxBuf) (c : QueueClass) (bytes : List (BitVec 8)) : Prop :=
  ∃ header, IsHeader b c header ∧
    ((bytes = writeFront header b.grown ∧ (e.sys.scNmonvaps = 0 ∨ 1594 < b.len)) ∨
      (e.sys.scNmonvaps ≠ 0 ∧ ∃ k, bytes = netbufAdj (16 + k) (writeFront header b.grown)))

section Queued

variable {e : TxEnv} {b : TxBuf} {n : Node} {c : QueueClass} {bytes : List (BitVec 8)}

theorem toMonitor_result {bs bs' : List (BitVec 8)} (h : (e.toMonitor bs).result = some bs') :
    (bs' = bs ∧ e.sys.scNmonvaps = 0) ∨ (e.sys.scNmonvaps ≠ 0 ∧ ∃ k, bs' = netbufAdj (16 + k) bs) := by
  unfold TxEnv.toMonitor at h
  split_ifs at h with hmon
  · obtain ⟨-, -, ⟨⟩⟩ := Calls.result_bind.mp h
    exact .inr ⟨hmon, _, rfl⟩
  · cases h
    exact .inl ⟨rfl, not_not.mp hmon⟩

theorem freeAndFail_result : TxEnv.freeAndFail.result = some none := rfl

theorem built_data {tid : Nat} {q : DataQ}
    (h : (e.prepareOnairDataPktDesc (some n) b tid q).result = some (some (c, bytes))) :
    BuiltPacket e b c bytes := by
  have hlen : cbLen (e.dataPacket n b tid q) = b.len := by
    rw [TxBuf.len, cbLen, cbLen, TxEnv.dataPacket, length_writeFront]
  simp only [TxEnv.prepareOnairDataPktDesc, hlen] at h
  split_ifs at h with hv hbig
  · rw [freeAndFail_result] at h
    cases h
  · obtain ⟨bs, hbs, ⟨⟩⟩ := Calls.result_bind.mp h
    refine ⟨_, isHeader_data e n b tid q, ?_⟩
    rcases toMonitor_result hbs with ⟨rfl, hmon⟩ | ⟨hmon, hk⟩
    · exact .inl ⟨rfl, .inl hmon⟩
    · exact .inr ⟨hmon, hk⟩
  · cases h
    exact ⟨_, isHeader_data e n b tid q, .inl ⟨rfl, .inr (Nat.lt_of_not_le hbig)⟩⟩

theorem built_mgmt (h : (e.prepareOnairMgmtPktDesc (some n) b).result = some (some (c, bytes))) :
    BuiltPacket e b c bytes := by
  simp only [TxEnv.prepareOnairMgmtPktDesc] at h
  split_ifs at h with hv hrekey hlong hend
  · rw [freeAndFail_result] at h
    cases h
  · exact built_data h
  · rw [freeAndFail_result] at h
    cases h
  · cases h
  · obtain ⟨bs, hbs, hlast⟩ := Calls.result_bind.mp h
    obtain ⟨-, -, ⟨⟩⟩ := Calls.result_bind.mp hlast
    refine ⟨_, isHeader_mgmt ⟨e, n, b⟩, ?_⟩
    rcases toMonitor_result hbs with ⟨rfl, hmon⟩ | ⟨hmon, hk⟩
    · exact .inl ⟨rfl, .inl hmon⟩
    · exact .inr ⟨hmon, hk⟩

end Queued

section Quiet

variable {e : TxEnv} {b : TxBuf} {n : Node} {c : QueueClass} {bytes : List (BitVec 8)}

theorem quiet_freeAndFail : TxEnv.freeAndFail.Quiet TxCall.queues :=
  Calls.Quiet.bind (Calls.quiet_emit.mpr rfl) fun _ => Calls.quiet_pure

theorem quiet_toMonitor (bs : List (BitVec 8)) : (e.toMonitor bs).Quiet TxCall.queues := by
  have htap (bytes : List (BitVec 8)) : (e.coreRadiotapTx bytes).Quiet TxCall.queues := by
    unfold TxEnv.coreRadiotapTx
    split_ifs <;> simp [TxCall.queues]
  unfold TxEnv.toMonitor
  split_ifs
  · exact (htap _).bind fun _ => Calls.quiet_pure
  · exact Calls.quiet_pure

theorem quiet_data {tid : Nat} {q : DataQ} :
    (e.prepareOnairDataPktDesc (some n) b tid q).Quiet TxCall.queues := by
  simp only [TxEnv.prepareOnairDataPktDesc]
  split_ifs
  · exact quiet_freeAndFail
  · exact (quiet_toMonitor _).bind fun _ => Calls.quiet_pure
  · exact Calls.quiet_pure

theorem quiet_mgmt : (e.prepareOnairMgmtPktDesc (some n) b).Quiet TxCall.queues := by
  have htmp : e.freeTmpNode.Quiet TxCall.queues := by
    unfold TxEnv.freeTmpNode
    split_ifs <;> simp [TxCall.queues]
  simp only [TxEnv.prepareOnairMgmtPktDesc]
  split_ifs
  · exact quiet_freeAndFail
  · exact quiet_data
  · exact quiet_freeAndFail
  · exact Calls.quiet_stuck
  · exact (quiet_toMonitor _).bind fun _ => htmp.bind fun _ => Calls.quiet_pure

theorem result_of_mem_finish {q q' : HostQ} {built : Calls TxCall (Option (QueueClass × List (BitVec 8)))}
    (hq : built.Quiet TxCall.queues) (h : .hostTail q' c bytes ∈ (TxEnv.finish q built).log) :
    built.result = some (some (c, bytes)) := by
  rcases Calls.mem_log_bind.mp h with h | ⟨r, hr, h⟩
  · cases hq _ h
  · rcases r with - | ⟨c', bytes'⟩
    · simp [Calls.emit] at h
    · simp only [Calls.emit, List.mem_singleton, TxCall.hostTail.injEq] at h
      obtain ⟨-, rfl, rfl⟩ := h
      exact hr

end Quiet

section Format

variable {e : TxEnv} {b : TxBuf} {c : QueueClass} {bytes frame header : List (BitVec 8)}

theorem Framed.length_eq (h : Framed frame c bytes) (hne : frame ≠ []) :
    bytes.length = frame.length + 16 + (bytes.getD 4 0).toNat := by
  have hpos : 0 < frame.length := List.length_pos_iff.mpr hne
  have hlen := congrArg List.length h.payload
  rw [List.length_drop] at hlen
  omega

theorem TxBuf.length_grown_le : b.grown.length ≤ b.nb.frame.length + 20 + b.nb.extndSize.toNat := by
  obtain ⟨k, hk, hgrown⟩ := b.exists_grown
  rw [hgrown, List.length_append, List.length_replicate]
  omega

theorem TxBuf.length_grown_of_no_room (h : b.room = false) :
    b.grown.length ≤ b.nb.frame.length + 3 ∨
      b.grown.length = b.nb.frame.length + 20 ∧ 0 < b.nb.extndSize.toNat := by
  have hext : b.nb.extndSize.toNat < 4 := b.nb.extndSize.isLt
  simp only [TxBuf.room, decide_eq_false_iff_not] at h
  simp only [TxBuf.grown, pushData]
  split_ifs <;> simp_all <;> omega

theorem toNat_word0 (h : b.len ≤ 1594) (hdesc : 16 ≤ b.len) :
    (b.word0 c).toNat = b.len - 16 + 2 ^ 12 * c.toNat := by
  have hsub : (b.len : Int) - 16 = ((b.len - 16 : Nat) : Int) := by omega
  have hclass : c.toNat ≤ 5 := by cases c <;> decide
  rw [TxBuf.word0, hsub, BitVec.ofInt_natCast, BitVec.toNat_or, BitVec.toNat_ofNat, BitVec.toNat_ofNat,
    Nat.mod_eq_of_lt (by omega), Nat.mod_eq_of_lt (by omega), Nat.mul_comm c.toNat, Nat.lor_comm,
    ← Nat.two_pow_add_eq_or_of_lt (by omega), Nat.add_comm]

theorem writeFront_of_room (h : b.room = true) (hh : header.length = 20 + b.nb.extndSize.toNat) :
    writeFront header b.grown = header ++ b.nb.frame := by
  obtain ⟨k, -, hgrown⟩ := b.exists_grown
  have hlen := TxBuf.length_grown h
  rw [hgrown, List.length_append, List.length_replicate] at hlen
  rw [writeFront, hgrown, hh, List.drop_left' (by rw [List.length_replicate]; omega), List.take_of_length_le]
  simp only [List.length_append, List.length_replicate, hh]
  omega

theorem framed_of_room (h : b.room = true) (hh : IsHeader b c header) :
    Framed b.nb.frame c (writeFront header b.grown) ↔
      b.nb.frame.length + 20 + b.nb.extndSize.toNat ≤ 1594 := by
  have hlen : (header ++ b.nb.frame).length = b.nb.frame.length + 20 + b.nb.extndSize.toNat := by
    rw [List.length_append, hh.length]
    omega
  have hget : ∀ i < 20, (header ++ b.nb.frame).getD i 0 = header.getD i 0 := fun i hi =>
    List.getD_append _ _ _ _ (by rw [hh.length]; omega)
  rw [writeFront_of_room h hh.length]
  refine ⟨fun hf => hlen ▸ hf.length_le, fun hle => ?_⟩
  have hcb : b.len = b.nb.frame.length + 20 + b.nb.extndSize.toNat := by
    rw [TxBuf.len, cbLen, TxBuf.length_grown h, Nat.mod_eq_of_lt (by omega)]
  have hword : firstWord (header ++ b.nb.frame) = b.len - 16 + 2 ^ 12 * c.toNat := by
    rw [← toNat_word0 (by omega) (by omega), ← hh.first, firstWord, firstWord, hget 0 (by decide),
      hget 1 (by decide)]
  refine ⟨by omega, by omega, by omega, by omega, ?_⟩
  rw [hget 4 (by decide), hh.size]
  exact List.drop_left' (by rw [hh.length]; omega)

theorem not_framed_of_no_room (h : b.room = false) (hne : b.nb.frame ≠ []) (hh : IsHeader b c header) :
    ¬ Framed b.nb.frame c (writeFront header b.grown) := by
  intro hf
  have hlen := hf.length_eq hne
  rw [length_writeFront] at hlen
  rcases b.length_grown_of_no_room h with hshort | ⟨hgrown, hext⟩
  · omega
  · -- the header overwrites the first bytes of the frame
    have hsize : (writeFront header b.grown).getD 4 0 = header.getD 4 0 := by
      rw [writeFront, List.getD_eq_getElem?_getD, List.getElem?_take, if_pos (by omega),
        List.getElem?_append_left (by rw [hh.length]; omega), ← List.getD_eq_getElem?_getD]
    rw [hsize, hh.size] at hlen
    omega

theorem not_framed_of_stripped {k : Nat} (hne : b.nb.frame ≠ []) :
    ¬ Framed b.nb.frame c (netbufAdj (16 + k) (writeFront header b.grown)) := by
  intro hf
  have hlen := hf.length_eq hne
  have hext : b.nb.extndSize.toNat < 4 := b.nb.extndSize.isLt
  have hle := b.length_grown_le
  rw [netbufAdj, List.length_drop, List.length_take, length_writeFront] at hlen
  omega

theorem framed_iff_of_built (hne : b.nb.frame ≠ []) (hb : BuiltPacket e b c bytes) :
    Framed b.nb.frame c bytes ↔ e.framesOk b = true := by
  obtain ⟨header, hh, ⟨rfl, hmon⟩ | ⟨hmon, k, rfl⟩⟩ := hb
  · cases hroom : b.room with
    | false => simp [TxEnv.framesOk, hroom, not_framed_of_no_room hroom hne hh]
    | true =>
      rw [framed_of_room hroom hh]
      have hlen : b.len ≤ b.nb.frame.length + 20 + b.nb.extndSize.toNat := by
        rw [← TxBuf.length_grown hroom]
        exact Nat.mod_le _ _
      simp only [TxEnv.framesOk, hroom, Bool.true_and, Bool.and_eq_true, decide_eq_true_eq]
      omega
  · simp [TxEnv.framesOk, hmon, not_framed_of_stripped hne]

end Format

theorem built_of_sent {e : TxEnv} {b : TxBuf} {n : Node} {c : QueueClass} {bytes : List (BitVec 8)}
    (h : BuiltPacket e (b.sent n) c bytes) : BuiltPacket e b c bytes := by
  obtain ⟨header, hh, hbytes⟩ := h
  exact ⟨header, ⟨hh.length, hh.first, hh.size⟩, hbytes⟩

theorem built_of_coreXmit {e : TxEnv} {b : TxBuf} {q : HostQ} {c : QueueClass} {bytes : List (BitVec 8)}
    (h : .hostTail q c bytes ∈ (e.coreXmit b).log) : b.nb.frame ≠ [] ∧ BuiltPacket e b c bytes := by
  have hne : cbLen b.nb.frame ≠ 0 → b.nb.frame ≠ [] := fun h0 hnil => h0 (by rw [hnil]; rfl)
  rw [TxEnv.coreXmit] at h
  cases hr : e.route b with
  | drop | fault | mcast =>
    rw [hr] at h
    simp [Calls.emit, Calls.stuck] at h
  | data n q' =>
    rw [hr] at h
    have hres := result_of_mem_finish quiet_data h
    exact ⟨hne (TxEnv.found_of_route (.inl ⟨q', hr⟩)).2, built_of_sent (built_data hres)⟩
  | mgmt n =>
    rw [hr] at h
    have hres := result_of_mem_finish quiet_mgmt h
    exact ⟨hne (TxEnv.found_of_route (.inr hr)).2, built_of_sent (built_mgmt hres)⟩

theorem built_of_oneboxSendMgmtPkt {e : TxEnv} {b : TxBuf} {q : HostQ} {c : QueueClass}
    {bytes : List (BitVec 8)} (h : .hostTail q c bytes ∈ (e.oneboxSendMgmtPkt b).log) :
    b.nb.frame ≠ [] ∧ BuiltPacket e b c bytes := by
  revert h
  fun_cases TxEnv.oneboxSendMgmtPkt e b
  case case1 | case2 | case3 => simp [Calls.emit, Calls.stuck]
  case case4 n _ _ hfree =>
    intro h
    refine ⟨fun hnil => hfree (by simp [hnil, cbLen]), ?_⟩
    rcases Calls.mem_log_bind.mp h with h | ⟨-, -, h⟩
    · unfold TxEnv.notifyPeer at h
      split_ifs at h
      · simp [Calls.emit] at h
      · cases h
    · exact built_mgmt (result_of_mem_finish quiet_mgmt h)

/-- Every packet that gets into a host queue has the format exactly if there was room for its header,
it is short enough and there is no monitor vap. -/
theorem queued_framed_iff {e : TxEnv} {b : TxBuf} {q : HostQ} {c : QueueClass} {bytes : List (BitVec 8)}
    (h : .hostTail q c bytes ∈ (e.coreXmit b).log ∨ .hostTail q c bytes ∈ (e.oneboxSendMgmtPkt b).log) :
    Framed b.nb.frame c bytes ↔ e.framesOk b = true := by
  have hb : b.nb.frame ≠ [] ∧ BuiltPacket e b c bytes := h.elim built_of_coreXmit built_of_oneboxSendMgmtPkt
  exact framed_iff_of_built hb.1 hb.2

def ipPacket : TxBuf := { nb := ipTo 7, headroom := 60, staId := 0, tail := [] }

theorem queued_framed_iff_ipPacket :
    ∃ bytes, .hostTail (.data 1) .data bytes ∈ (quietEnv.coreXmit ipPacket).log ∧
      Framed ipPacket.nb.frame .data bytes := by
  have h : .hostTail (.data 1) .data (quietEnv.dataPacket apNode (ipPacket.sent apNode) 0 1) ∈
      (quietEnv.coreXmit ipPacket).log := by decide +kernel
  exact ⟨_, h, (queued_framed_iff (.inl h)).mpr (by decide)⟩

/-- The queue gets the bare frame after a monitor vap has had the packet. -/
theorem ipPacket_not_framed :
    ∃ bytes, .hostTail (.data 1) .data bytes ∈
        (({ quietEnv with sys := { quietEnv.sys with scNmonvaps := 1 } } : TxEnv).coreXmit ipPacket).log ∧
      bytes = ipPacket.nb.frame ∧ ¬ Framed ipPacket.nb.frame .data bytes := by
  refine ⟨ipPacket.nb.frame, by decide +kernel, rfl, fun hf => ?_⟩
  have hlen := hf.length_eq (by decide)
  omega

end Onebox
