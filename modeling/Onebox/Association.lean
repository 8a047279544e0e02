import Onebox.Machine
import Onebox.StationTable

/-! Associations of a vap: what the peer notify frame, the key load, the confirm
of EAPOL-4 and `onebox_newassoc` do to the nodes and to the flags of the
controlled port. -/

namespace Onebox

inductive Opmode
  | sta | hostap
  deriving DecidableEq, Repr

/-- `struct ieee80211vap`. `wpa` stands for `IEEE80211_F_WPA1` or `IEEE80211_F_WPA2`. -/
structure Vap where
  opmode : Opmode
  privacy : Bool
  wpa : Bool
  run : Bool
  connInProg : Bool
  bss : Option NodePtr
  deriving DecidableEq, Repr

inductive KeyType
  | pairwise | group
  deriving DecidableEq, Repr

/-- The adapter. The last four fields record the history that no flag of the source keeps: how many
`STA_DISCONNECTED` there were, whether a pairwise key has been loaded and the EAPOL-4 of this
association confirmed since the last one, and the association of each EAPOL-4 not yet confirmed. -/
structure Net where
  stations : Stations
  vap : VapId → Vap
  staDataBlock : Bool
  blockApQueues : Bool
  ptkKey : Bool
  gtkKey : Bool
  eapol4Cnfrm : Bool
  staModeId : Nat
  assoc : Nat
  pairwise : Bool
  confirmed : Bool
  eapol4InFlight : List Nat

structure Sends where
  notify : Bool
  ptk : Bool
  gtk : Bool
  deriving DecidableEq, Repr

def Sends.all : Sends := ⟨true, true, true⟩

structure KeyReq where
  xmitOrRecv : Bool
  zero : Bool
  wep : Bool
  deriving DecidableEq, Repr

def Vap.isWep (v : Vap) : Bool := !v.wpa && v.privacy

namespace Net

variable (s : Net)

def setVap (v : VapId) (x : Vap) : Net := { s with vap := Function.update s.vap v x }

def setConnInProg (v : VapId) (b : Bool) : Net := s.setVap v { s.vap v with connInProg := b }

def setEncryptEnbl (p : NodePtr) (b : Bool) : Net :=
  { s with stations := s.stations.setNode p ((s.stations.node p).map fun n => { n with encryptEnbl := b }) }

def sendBlockUnblock : NotifyEvent → Net
  | .staDisconnected => { s with staDataBlock := true }
  | .staConnected => { s with staDataBlock := false, blockApQueues := false }

def openPort : Net :=
  let s := if s.ptkKey && s.eapol4Cnfrm && s.staDataBlock then s.sendBlockUnblock .staConnected else s
  if s.ptkKey && s.gtkKey && s.eapol4Cnfrm then { s with ptkKey := false } else s

theorem openPort_staDataBlock : s.openPort.staDataBlock = (s.staDataBlock && !(s.ptkKey && s.eapol4Cnfrm)) := by
  cases hb : s.staDataBlock <;> cases hp : s.ptkKey <;> cases he : s.eapol4Cnfrm <;>
    cases hg : s.gtkKey <;> simp [openPort, sendBlockUnblock, hb, hp, he, hg]

theorem openPort_ptkKey : s.openPort.ptkKey = (s.ptkKey && !(s.gtkKey && s.eapol4Cnfrm)) := by
  cases hb : s.staDataBlock <;> cases hp : s.ptkKey <;> cases he : s.eapol4Cnfrm <;>
    cases hg : s.gtkKey <;> simp [openPort, sendBlockUnblock, hb, hp, he, hg]

theorem openPort_frame : s.openPort.stations = s.stations ∧ s.openPort.vap = s.vap ∧
    s.openPort.eapol4Cnfrm = s.eapol4Cnfrm ∧ s.openPort.pairwise = s.pairwise ∧
    s.openPort.confirmed = s.confirmed := by
  simp only [openPort]
  split_ifs <;> exact ⟨rfl, rfl, rfl, rfl, rfl⟩

def keyLoaded (v : VapId) (kt : KeyType) : Net :=
  match (s.vap v).opmode, kt with
  | .hostap, _ => s
  | .sta, .pairwise => { s with ptkKey := true, pairwise := true }.openPort
  | .sta, .group => { s with gtkKey := true }.openPort

def keyAllowed (v : VapId) (staId : Nat) (kt : KeyType) : Bool :=
  -- the group key of an access point is loaded without a look at the station id
  ((s.vap v).opmode = .hostap && kt = .group) || (staId < maxStations && s.stations.connected staId)

def halLoadKey (v : VapId) (staId : Nat) (kt : KeyType) (sent : Bool) : Option Net :=
  if s.keyAllowed v staId kt && sent then some (s.keyLoaded v kt) else none

def portDown : Net :=
  let s := if s.staDataBlock then s else s.sendBlockUnblock .staDisconnected
  { s with
    ptkKey := false, gtkKey := false, eapol4Cnfrm := false, staModeId := 0
    assoc := s.assoc + 1, pairwise := false, confirmed := false }

def notifyDisconnect (p : NodePtr) (v : VapId) : Net :=
  let s := s.setEncryptEnbl p false
  match (s.vap v).opmode with
  | .hostap => s
  | .sta => s.portDown

def loadWepKeys (p : NodePtr) (v : VapId) (staId : Nat) (sends : Sends) : Net :=
  let s := (s.halLoadKey v staId .pairwise sends.ptk).getD s
  let s := match (s.vap v).opmode with
    | .sta => ((s.halLoadKey v staId .group sends.gtk).getD s).setConnInProg v false
    | .hostap => s
  s.setEncryptEnbl p true

def halSendStaNotifyFrame (p : NodePtr) (n : Node) (ev : NotifyEvent) (sends : Sends) : Net :=
  let s := match ev with
    | .staConnected => s
    | .staDisconnected => s.notifyDisconnect p n.vap
  if !sends.notify then s
  else if (s.vap n.vap).isWep then s.loadWepKeys p n.vap n.staId sends
  else if (s.vap n.vap).opmode = .sta && (s.vap n.vap).run && !(s.vap n.vap).privacy then
    s.setConnInProg n.vap false
  else s

def noteStaId (n : Node) : NotifyEvent → Net
  -- `sta_mode.sta_id`, for the keys that come without a node
  | .staConnected => if (s.vap n.vap).opmode = .sta then { s with staModeId := n.staId } else s
  | .staDisconnected => s

def stationTable (p : NodePtr) (ev : NotifyEvent) (vapValid : Bool) : Option Stations :=
  if vapValid then s.stations.sendStationInfo p ev else none

def coreSendStationInfo (p : NodePtr) (ev : NotifyEvent) (vapValid : Bool) (sends : Sends) : Net :=
  match s.stationTable p ev vapValid with
  | none => s
  | some st =>
    let s := { s with stations := st }
    match st.node p with
    | none => s
    | some n => (s.noteStaId n ev).halSendStaNotifyFrame p n ev sends

def oneboxNewassoc (p : NodePtr) (vapValid : Bool) (sends : Sends) : Net :=
  match s.stations.node p with
  | none => s
  | some n =>
    let s := s.coreSendStationInfo p .staConnected vapValid sends
    if (s.vap n.vap).opmode = .sta && ((s.vap n.vap).isWep || !(s.vap n.vap).connInProg) then
      s.sendBlockUnblock .staConnected
    else s

def halKeyset (v : VapId) (ni : Option (NodePtr × Node)) (k : KeyReq) (sent : Bool) : Net :=
  match ni, k.xmitOrRecv && !k.wep with
  | some (p, n), true =>
    match s.halLoadKey v n.staId .pairwise sent with
    | none => s
    | some s => s.setEncryptEnbl p true
  | _, _ =>
    -- a station only stores its WEP keys
    if k.zero || (k.wep && (s.vap v).opmode = .sta) then s
    else
      let nodeId := match ni, (s.vap v).opmode with
        | some (_, n), _ => n.staId
        | none, .sta => s.staModeId
        | none, .hostap => v
      (s.halLoadKey v nodeId .group sent).getD s

def staVaps : List VapId := (List.finRange 4).filter fun v => (s.vap v).opmode = .sta

def eapol4Success (current : Bool) : Net :=
  -- `current` tells whether the confirm belongs to the association of now
  match s.staVaps with
  | [] => s
  | v :: _ =>
    { s.setConnInProg v false with eapol4Cnfrm := true, confirmed := s.confirmed || current }.openPort

def eapol4Failure (vapValid : Bool) (sends : Sends) : Net :=
  s.staVaps.foldl (fun s v => match (s.vap v).bss with
    | none => s
    | some p => s.coreSendStationInfo p .staDisconnected vapValid sends) s

end Net

/-- `sendAuth` and `authFailed` are the places of net80211 that set and reset `conn_in_prog`. -/
inductive NetEvent
  | create (p : NodePtr) (n : Node)
  | destroy (p : NodePtr)
  | join (v : VapId) (p : NodePtr)
  | state (v : VapId) (run : Bool)
  | sendAuth (v : VapId)
  | authFailed (v : VapId)
  | stationInfo (p : NodePtr) (ev : NotifyEvent) (vapValid : Bool) (sends : Sends)
  | newassoc (p : NodePtr) (vapValid : Bool) (sends : Sends)
  | keySet (v : VapId) (p : NodePtr) (k : KeyReq) (sent : Bool)
  | sendEapol4
  | eapol4Confirm (success vapValid : Bool) (sends : Sends)

/-- The device confirms the EAPOL-4 frames in the order in which they were sent. -/
def Net.event (s : Net) : NetEvent → Option Net
  | .create p n =>
    if (s.stations.node p).isNone && n.staId = 0 && !n.encryptEnbl then
      some { s with stations := s.stations.setNode p (some n) }
    else none
  | .destroy p => some { s with stations := s.stations.setNode p none }
  | .join v p => some (s.setVap v { s.vap v with bss := some p })
  | .state v run => some (s.setVap v { s.vap v with run })
  | .sendAuth v => some (s.setConnInProg v true)
  | .authFailed v => some (s.setConnInProg v false)
  | .stationInfo p ev vapValid sends => some (s.coreSendStationInfo p ev vapValid sends)
  | .newassoc p vapValid sends => some (s.oneboxNewassoc p vapValid sends)
  | .keySet v p k sent => some (s.halKeyset v ((s.stations.node p).map (p, ·)) k sent)
  | .sendEapol4 => some { s with eapol4InFlight := s.eapol4InFlight ++ [s.assoc] }
  | .eapol4Confirm success vapValid sends =>
    match s.eapol4InFlight with
    | [] => none
    | a :: rest =>
      let current : Bool := a = s.assoc
      let s := { s with eapol4InFlight := rest }
      some (if success then s.eapol4Success current else s.eapol4Failure vapValid sends)

def Vap.mode (v : Vap) : Opmode × Bool × Bool := (v.opmode, v.privacy, v.wpa)

/-- The small changes that the functions above are made of, apart from a connect and from the opening
of the port. -/
inductive NetMove : Net → Net → Prop
  | node {s : Net} (p : NodePtr) (n : Option Node) : NetMove s { s with stations := s.stations.setNode p n }
  | vap {s : Net} (v : VapId) (x : Vap) (h : x.mode = (s.vap v).mode) : NetMove s (s.setVap v x)
  | staModeId {s : Net} (i : Nat) : NetMove s { s with staModeId := i }
  | keyLoaded {s : Net} (v : VapId) (kt : KeyType) : NetMove s (s.keyLoaded v kt)
  | portDown {s : Net} : NetMove s s.portDown
  | inFlight {s : Net} (l : List Nat) : NetMove s { s with eapol4InFlight := l }
  | disconnect {s : Net} (n : Node) (st : Stations) (h : s.stations.disconnect n = some st) :
      NetMove s { s with stations := st }

abbrev NetMoves := Relation.ReflTransGen NetMove

theorem NetMove.connInProg {s : Net} (v : VapId) (b : Bool) : NetMove s (s.setConnInProg v b) := .vap v _ rfl

theorem NetMove.encryptEnbl {s : Net} (p : NodePtr) (b : Bool) : NetMove s (s.setEncryptEnbl p b) := .node p _

theorem keyLoaded_vap (s : Net) (v : VapId) (kt : KeyType) : (s.keyLoaded v kt).vap = s.vap := by
  unfold Net.keyLoaded
  split
  · rfl
  all_goals exact (Net.openPort_frame _).2.1

theorem keyLoaded_stations (s : Net) (v : VapId) (kt : KeyType) :
    (s.keyLoaded v kt).stations = s.stations := by
  unfold Net.keyLoaded
  split
  · rfl
  all_goals exact (Net.openPort_frame _).1

theorem portDown_stations (s : Net) : s.portDown.stations = s.stations := by
  simp only [Net.portDown]
  split_ifs <;> rfl

theorem NetMove.mode {s t : Net} (h : NetMove s t) (v : VapId) : (t.vap v).mode = (s.vap v).mode := by
  cases h with
  | node | staModeId | inFlight | disconnect => rfl
  | keyLoaded w kt => rw [keyLoaded_vap]
  | portDown =>
    simp only [Net.portDown]
    split_ifs <;> rfl
  | vap w x hx =>
    by_cases hw : v = w
    · subst hw
      simpa [Net.setVap] using hx
    · simp [Net.setVap, hw]

theorem NetMoves.mode {s t : Net} (h : NetMoves s t) (v : VapId) : (t.vap v).mode = (s.vap v).mode := by
  induction h with
  | refl => rfl
  | tail _ hm ih => exact (hm.mode v).trans ih

namespace Net

variable (s : Net)

theorem halLoadKey_moves (v : VapId) (staId : Nat) (kt : KeyType) (sent : Bool) :
    NetMoves s ((s.halLoadKey v staId kt sent).getD s) := by
  unfold halLoadKey
  split_ifs
  · exact .single (.keyLoaded v kt)
  · exact .refl

theorem notifyDisconnect_moves (p : NodePtr) (v : VapId) : NetMoves s (s.notifyDisconnect p v) := by
  have h : NetMoves s (s.setEncryptEnbl p false) := .single (.encryptEnbl ..)
  simp only [notifyDisconnect]
  split
  · exact h
  · exact h.tail .portDown

theorem loadWepKeys_moves (p : NodePtr) (v : VapId) (staId : Nat) (sends : Sends) :
    NetMoves s (s.loadWepKeys p v staId sends) := by
  have h := s.halLoadKey_moves v staId .pairwise sends.ptk
  simp only [loadWepKeys]
  split
  · exact ((h.trans (halLoadKey_moves ..)).tail (.connInProg ..)).tail (.encryptEnbl ..)
  · exact h.tail (.encryptEnbl ..)

theorem halSendStaNotifyFrame_moves (p : NodePtr) (n : Node) (ev : NotifyEvent) (sends : Sends) :
    NetMoves s (s.halSendStaNotifyFrame p n ev sends) := by
  have h : NetMoves s (match ev with
      | .staConnected => s
      | .staDisconnected => s.notifyDisconnect p n.vap) := by
    cases ev with
    | staConnected => exact .refl
    | staDisconnected => exact s.notifyDisconnect_moves p n.vap
  simp only [halSendStaNotifyFrame]
  split_ifs
  · exact h
  · exact h.trans (loadWepKeys_moves ..)
  · exact h.tail (.connInProg ..)
  · exact h

theorem noteStaId_moves (n : Node) (ev : NotifyEvent) : NetMoves s (s.noteStaId n ev) := by
  cases ev with
  | staDisconnected => exact .refl
  | staConnected =>
    simp only [noteStaId]
    split_ifs
    · exact .single (.staModeId _)
    · exact .refl

theorem coreSendStationInfo_moves (p : NodePtr) (ev : NotifyEvent) (vapValid : Bool) (sends : Sends) :
    NetMoves { s with stations := (s.stationTable p ev vapValid).getD s.stations }
      (s.coreSendStationInfo p ev vapValid sends) := by
  unfold coreSendStationInfo
  cases s.stationTable p ev vapValid with
  | none => exact .refl
  | some st =>
    simp only [Option.getD_some]
    split
    · exact .refl
    · exact (noteStaId_moves ..).trans (halSendStaNotifyFrame_moves ..)

theorem coreSendStationInfo_disconnect (p : NodePtr) (vapValid : Bool) (sends : Sends) :
    NetMoves s (s.coreSendStationInfo p .staDisconnected vapValid sends) := by
  refine Relation.ReflTransGen.trans ?_ (s.coreSendStationInfo_moves p .staDisconnected vapValid sends)
  cases hst : s.stationTable p .staDisconnected vapValid with
  | none => exact .refl
  | some st =>
    simp only [stationTable, Option.ite_none_right_eq_some, Stations.sendStationInfo,
      Option.bind_eq_some_iff] at hst
    obtain ⟨-, n, -, hn⟩ := hst
    exact .single (.disconnect n st hn)

theorem halKeyset_moves (v : VapId) (ni : Option (NodePtr × Node)) (k : KeyReq) (sent : Bool) :
    NetMoves s (s.halKeyset v ni k sent) := by
  unfold halKeyset
  split
  case h_1 p n _ =>
    have h := s.halLoadKey_moves v n.staId .pairwise sent
    cases hk : s.halLoadKey v n.staId .pairwise sent with
    | none => exact .refl
    | some t =>
      rw [hk] at h
      exact h.tail (.encryptEnbl p true)
  · split_ifs
    · exact .refl
    · exact halLoadKey_moves ..

theorem eapol4Failure_moves (vapValid : Bool) (sends : Sends) :
    NetMoves s (s.eapol4Failure vapValid sends) := by
  unfold eapol4Failure
  induction s.staVaps using List.reverseRecOn with
  | nil => exact .refl
  | append_singleton vs v ih =>
    simp only [List.foldl_append, List.foldl_cons, List.foldl_nil]
    split
    · exact ih
    · exact ih.trans (coreSendStationInfo_disconnect ..)

end Net

/-- An event is made of moves, unless it connects a station or is a confirm of success. -/
theorem Net.event_moves {s t : Net} {e : NetEvent} (hs : s.event e = some t) :
    NetMoves s t ∨
      (∃ p vapValid sends, e = .stationInfo p .staConnected vapValid sends ∧
        t = s.coreSendStationInfo p .staConnected vapValid sends) ∨
      (∃ p vapValid sends, e = .newassoc p vapValid sends ∧ t = s.oneboxNewassoc p vapValid sends) ∨
      (∃ vapValid sends a rest, e = .eapol4Confirm true vapValid sends ∧ s.eapol4InFlight = a :: rest ∧
        t = Net.eapol4Success { s with eapol4InFlight := rest } (a = s.assoc)) := by
  cases e with
  | create p n =>
    obtain ⟨-, ⟨⟩⟩ := Option.ite_none_right_eq_some.mp hs
    exact .inl (.single (.node p _))
  | destroy p =>
    cases hs
    exact .inl (.single (.node p none))
  | join v p =>
    cases hs
    exact .inl (.single (.vap v { s.vap v with bss := some p } rfl))
  | state v run =>
    cases hs
    exact .inl (.single (.vap v { s.vap v with run } rfl))
  | sendAuth v =>
    cases hs
    exact .inl (.single (.connInProg v true))
  | authFailed v =>
    cases hs
    exact .inl (.single (.connInProg v false))
  | stationInfo p ev vapValid sends =>
    cases hs
    cases ev with
    | staConnected => exact .inr (.inl ⟨p, vapValid, sends, rfl, rfl⟩)
    | staDisconnected => exact .inl (s.coreSendStationInfo_disconnect p vapValid sends)
  | newassoc p vapValid sends =>
    cases hs
    exact .inr (.inr (.inl ⟨p, vapValid, sends, rfl, rfl⟩))
  | keySet v p k sent =>
    cases hs
    exact .inl (s.halKeyset_moves ..)
  | sendEapol4 =>
    cases hs
    exact .inl (.single (.inFlight _))
  | eapol4Confirm success vapValid sends =>
    cases hl : s.eapol4InFlight with
    | nil => simp [Net.event, hl] at hs
    | cons a rest =>
      simp only [Net.event, hl, Option.some.injEq] at hs
      subst hs
      cases success with
      | false => exact .inl ((Relation.ReflTransGen.single (.inFlight rest)).trans (eapol4Failure_moves ..))
      | true => exact .inr (.inr (.inr ⟨vapValid, sends, a, rest, rfl, rfl, rfl⟩))

theorem Net.event_mode {s t : Net} {e : NetEvent} (hs : s.event e = some t) (v : VapId) :
    (t.vap v).mode = (s.vap v).mode := by
  rcases Net.event_moves hs with hm | ⟨p, vapValid, sends, -, rfl⟩ | ⟨p, vapValid, sends, -, rfl⟩ |
    ⟨vapValid, sends, a, rest, -, -, rfl⟩
  · exact hm.mode v
  · exact (s.coreSendStationInfo_moves p .staConnected vapValid sends).mode v
  · have h := (s.coreSendStationInfo_moves p .staConnected vapValid sends).mode v
    unfold Net.oneboxNewassoc
    split
    · rfl
    · simp only
      split_ifs <;> exact h
  · unfold Net.eapol4Success
    split
    · rfl
    · rw [(Net.openPort_frame _).2.1]
      exact (NetMove.connInProg _ _).mode v

end Onebox
