import Onebox.CoexRx

/-! Who owns a packet after `deploy_packet_to_assets`. The dispatcher frees what no
active protocol takes; a protocol without a handler, an unknown packet type, a
debug message of Bluetooth and every ZigBee packet are left behind. -/

namespace Onebox

open PktCall

namespace Coex

variable (s : Coex) (e : CoexEnv) (pkt : CoexPkt)

def btReadOk (msg : RxMsg) : Bool :=
  msg.queueno ≠ 7 || msg.len = 0 || !(printHciEventType msg).2

/-- A protocol that takes its packet must have a handler that deals with it. -/
def deployToOk (p : Proto) (readOk : Bool) : Bool :=
  !s.fwActive p || !s.assets.isActive p || (e.handler p && readOk)

def deployOk : Bool :=
  !s.cardAboard ||
    match pkt.rxPktType with
    | .coex => true
    | .bt => s.deployToOk e .bt (!e.stillActive || btReadOk pkt.data)
    | .wlan => s.deployToOk e .wlan true
    | .zigb => s.deployToOk e .zb !e.stillActive
    | .other => false

section Spec

variable {s e pkt} {msg : RxMsg}

theorem disposed_deployTo {p : Proto} {ready readOk : Bool} {read : CoexExit}
    (hread : Disposed read ↔ readOk = true) :
    Disposed (s.deployTo e p ready read) ↔ s.deployToOk e p readOk = true := by
  rw [deployTo, deployToOk]
  cases hfw : s.fwActive p with
  | false => simp
  | true =>
    cases hact : s.assets.isActive p with
    | false => simp
    | true => cases hh : e.handler p <;> simp [hread]

theorem disposed_oneboxBtMgmtPktRecv : Disposed (s.oneboxBtMgmtPktRecv e msg) := by
  rw [oneboxBtMgmtPktRecv, oneboxMgmtPktToCore, toBluez]
  split_ifs
  · exact disposed_freed _ _
  · exact disposed_handedOver ..
  · exact disposed_freed _ _

theorem disposed_btReadPkt : Disposed (s.btReadPkt e msg) ↔ btReadOk msg = true := by
  rw [btReadPkt, btReadOk]
  split
  case h_1 hq =>
    by_cases hlen : msg.len = 0
    · simp [hlen]
    · cases hdebug : (printHciEventType msg).2 <;> simp [hq, hlen, hdebug, toBluez]
  case h_2 hq => simp [hq, disposed_oneboxBtMgmtPktRecv]
  case h_3 hdata _ =>
    have hq : msg.queueno ≠ 7 := hdata
    simp [hq]

theorem disposed_btGplReadPkt :
    Disposed (s.btGplReadPkt e msg) ↔ (!e.stillActive || btReadOk msg) = true := by
  rw [btGplReadPkt]
  cases e.stillActive <;> simp [disposed_btReadPkt]

theorem disposed_zigbGplReadPkt : Disposed (s.zigbGplReadPkt e pkt) ↔ (!e.stillActive) = true := by
  rw [zigbGplReadPkt, zigbReadPkt]
  cases e.stillActive <;> simp

theorem disposed_wlanGplReadPkt : Disposed (s.wlanGplReadPkt e) := by
  rw [wlanGplReadPkt]
  split_ifs
  · exact disposed_handedOver ..
  · exact disposed_freed _ _

end Spec

end Coex

/-- The packet is freed once or handed over once exactly under the condition of its type. -/
theorem deploy_disposed_iff (s : Coex) (e : CoexEnv) (pkt : CoexPkt) :
    Disposed (s.deployPacketToAssets e pkt) ↔ s.deployOk e pkt = true := by
  rw [Coex.deployPacketToAssets, Coex.deployOk]
  cases s.cardAboard with
  | false => simp
  | true =>
    simp only [Bool.not_true, Bool.false_eq_true, if_false, Bool.false_or]
    cases pkt.rxPktType with
    | coex => simp
    | bt => exact Coex.disposed_deployTo Coex.disposed_btGplReadPkt
    | wlan => exact Coex.disposed_deployTo (iff_of_true Coex.disposed_wlanGplReadPkt rfl)
    | zigb => exact Coex.disposed_deployTo Coex.disposed_zigbGplReadPkt
    | other => simp

/-- A device whose three protocols are up. -/
def readyCoex : Coex :=
  { hal := btPowerSave.hal, cardAboard := true, fsm := .deviceReady, commonHalFsm := .txAccess,
    coexMode := .wifiZigbee, driverMode := .wifiModeOn, flashingModeOn := false, flashingStarted := false,
    eepromCfmCount := 0, eepromLength := 0, ulpSleepToken := 0 }

def coexEnv : CoexEnv :=
  { qspiBootupParams := true, ackAlloc := true, configureCommonDevParams := true,
    inaugurate := fun _ => some .active, handler := fun _ => true, stillActive := true, btDeviceReady := true,
    genlCb := true, genlDone := true, genlAlloc := true, genlFilled := true, genlSent := true }

def zigbPacket : CoexPkt := ⟨.zigb, ⟨fun _ => 0⟩, 32⟩

theorem zigbPacket_kept :
    (readyCoex.deployPacketToAssets coexEnv zigbPacket).log = [.effect (.genlUnicast 32 true)] ∧
      ¬ Disposed (readyCoex.deployPacketToAssets coexEnv zigbPacket) := by
  constructor <;> decide +kernel

end Onebox
