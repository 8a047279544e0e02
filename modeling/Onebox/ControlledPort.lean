import Onebox.Association

/-! The controlled port of a station in WPA mode. The port is open exactly when a
pairwise key has been loaded and the EAPOL-4 of the association confirmed since
the last disconnect, as long as no late confirm and no idle `onebox_newassoc`
comes between. -/

namespace Onebox

def WpaOnly (s : Net) : Prop := ∀ v, (s.vap v).opmode = .sta → (s.vap v).privacy ∧ (s.vap v).wpa

structure PortInv (s : Net) : Prop where
  wpa : WpaOnly s
  eapol4 : s.eapol4Cnfrm = s.confirmed
  ptk : s.ptkKey → s.pairwise
  keyed : s.pairwise → s.confirmed = false → s.ptkKey
  port : s.staDataBlock = !(s.pairwise && s.confirmed)

section Moves

variable {s t : Net}

theorem PortInv.openPort (hw : WpaOnly s) (heapol : s.eapol4Cnfrm = s.confirmed)
    (hptk : s.ptkKey → s.pairwise) (hkeyed : s.pairwise → s.confirmed = false → s.ptkKey)
    (hopen : s.pairwise → s.confirmed → s.ptkKey = false → s.staDataBlock = false)
    (hport : (s.pairwise && s.confirmed) = false → s.staDataBlock) : PortInv s.openPort := by
  obtain ⟨-, hvap, he, hp, hc⟩ := s.openPort_frame
  refine ⟨fun v hv => ?_, ?_, ?_, ?_, ?_⟩
  · rw [hvap] at hv ⊢
    exact hw v hv
  · rw [he, hc, heapol]
  · rw [Net.openPort_ptkKey, hp]
    intro h
    exact hptk (Bool.and_eq_true .. ▸ h).1
  · rw [Net.openPort_ptkKey, hp, hc]
    intro h hconf
    simp [hkeyed h hconf, heapol, hconf]
  · rw [Net.openPort_staDataBlock, hp, hc, heapol]
    cases hpw : s.pairwise <;> cases hcf : s.confirmed <;> cases hk : s.ptkKey <;> simp_all

theorem PortInv.keyLoaded (h : PortInv s) (v : VapId) (kt : KeyType) : PortInv (s.keyLoaded v kt) := by
  have hport := h.port
  unfold Net.keyLoaded
  split
  · exact h
  · refine .openPort h.wpa h.eapol4 (fun _ => rfl) (fun _ _ => rfl) (by simp) fun hno => ?_
    simp_all
  · refine .openPort h.wpa h.eapol4 h.ptk h.keyed (fun hp hc _ => ?_) fun hno => ?_
    · simp_all
    · simp_all

theorem WpaOnly.setVap {v : VapId} {x : Vap} (h : WpaOnly s) (hx : x.mode = (s.vap v).mode) :
    WpaOnly (s.setVap v x) := by
  intro w hw
  by_cases hwv : w = v
  · subst hwv
    simp only [Vap.mode, Prod.mk.injEq] at hx
    simp only [Net.setVap, Function.update_self] at hw ⊢
    rw [hx.2.1, hx.2.2]
    exact h w (hx.1 ▸ hw)
  · simp only [Net.setVap, Function.update_of_ne hwv] at hw ⊢
    exact h w hw

theorem PortInv.move (h : PortInv s) (hm : NetMove s t) : PortInv t := by
  cases hm with
  | node | staModeId | inFlight | disconnect => exact ⟨h.wpa, h.eapol4, h.ptk, h.keyed, h.port⟩
  | vap v x hx => exact ⟨h.wpa.setVap hx, h.eapol4, h.ptk, h.keyed, h.port⟩
  | keyLoaded v kt => exact h.keyLoaded v kt
  | portDown =>
    simp only [Net.portDown]
    split_ifs with hb
    · exact ⟨h.wpa, rfl, by simp, by simp, hb⟩
    · exact ⟨h.wpa, rfl, by simp, by simp, rfl⟩

theorem PortInv.moves (h : PortInv s) (hm : NetMoves s t) : PortInv t := by
  induction hm with
  | refl => exact h
  | tail _ hm ih => exact ih.move hm

theorem PortInv.stations (h : PortInv s) (st : Stations) : PortInv { s with stations := st } :=
  ⟨h.wpa, h.eapol4, h.ptk, h.keyed, h.port⟩

theorem PortInv.coreSendStationInfo (h : PortInv s) (p : NodePtr) (ev : NotifyEvent) (vapValid : Bool)
    (sends : Sends) : PortInv (s.coreSendStationInfo p ev vapValid sends) :=
  (h.stations _).moves (s.coreSendStationInfo_moves p ev vapValid sends)

end Moves

theorem coreSendStationInfo_connected {s : Net} {p : NodePtr} {n : Node} (hw : WpaOnly s)
    (hn : s.stations.node p = some n) (hsta : (s.vap n.vap).opmode = .sta) (vapValid : Bool) (sends : Sends) :
    (s.coreSendStationInfo p .staConnected vapValid sends).vap = s.vap ∧
      (s.coreSendStationInfo p .staConnected vapValid sends).staDataBlock = s.staDataBlock := by
  obtain ⟨hpriv, hwpa⟩ := hw n.vap hsta
  unfold Net.coreSendStationInfo
  cases hst : s.stationTable p .staConnected vapValid with
  | none => exact ⟨rfl, rfl⟩
  | some st =>
    have hconn : s.stations.connect p n = some st := by
      simpa [Stations.sendStationInfo, hn] using (Option.ite_none_right_eq_some.mp hst).2
    obtain ⟨i, hi⟩ := connect_node hn hconn
    simp [hi, Net.noteStaId, Net.halSendStaNotifyFrame, Vap.isWep, hsta, hpriv, hwpa]

def Net.assocInProg (s : Net) (p : NodePtr) : Bool :=
  match s.stations.node p with
  | none => true
  | some n => (s.vap n.vap).opmode = .hostap || (s.vap n.vap).connInProg || !s.staDataBlock

theorem PortInv.oneboxNewassoc {s : Net} {p : NodePtr} (h : PortInv s) (hok : s.assocInProg p)
    (vapValid : Bool) (sends : Sends) : PortInv (s.oneboxNewassoc p vapValid sends) := by
  have ht := h.coreSendStationInfo p .staConnected vapValid sends
  unfold Net.oneboxNewassoc
  cases hn : s.stations.node p with
  | none => exact h
  | some n =>
    simp only
    split_ifs with hopen
    · simp only [Bool.and_eq_true, decide_eq_true_eq] at hopen
      have hmode := (s.coreSendStationInfo_moves p .staConnected vapValid sends).mode n.vap
      have hsta : (s.vap n.vap).opmode = .sta := (congrArg Prod.fst hmode).symm.trans hopen.1
      obtain ⟨hvap, hblock⟩ := coreSendStationInfo_connected h.wpa hn hsta vapValid sends
      have hidle : (s.vap n.vap).connInProg = false := by
        simpa [hvap, Vap.isWep, (h.wpa n.vap hsta).2] using hopen.2
      have hb : s.staDataBlock = false := by simpa [Net.assocInProg, hn, hsta, hidle] using hok
      exact ⟨ht.wpa, ht.eapol4, ht.ptk, ht.keyed, (hblock.trans hb).symm.trans ht.port⟩
    · exact ht

theorem PortInv.eapol4Success {s : Net} (h : PortInv s) : PortInv (s.eapol4Success true) := by
  unfold Net.eapol4Success
  split
  · exact h
  case h_2 v _ _ =>
    have hc : PortInv (s.setConnInProg v false) := h.move (.connInProg v false)
    refine .openPort hc.wpa ?_ h.ptk ?_ (fun hp _ hk => ?_) fun hno => ?_
    · simp
    · simp
    · -- a key that was loaded and reset has opened the port
      have hconf : s.confirmed := by
        by_contra hno
        have := h.keyed hp (by simpa using hno)
        exact absurd (this.symm.trans hk) (by simp)
      have hp' : s.pairwise := hp
      exact h.port.trans (by simp [hp', hconf])
    · have hp : s.pairwise = false := (Bool.and_eq_false_iff.mp hno).resolve_right (by simp)
      exact h.port.trans (by simp [hp])

/-- A confirm of success belongs to the association of now, and `onebox_newassoc` finds a connection in
progress or the port open. -/
def Net.inOrder (s : Net) : NetEvent → Bool
  | .eapol4Confirm true _ _ => s.eapol4InFlight.head? = some s.assoc
  | .newassoc p _ _ => s.assocInProg p
  | _ => true

theorem PortInv.event {s t : Net} {e : NetEvent} (h : PortInv s) (hok : s.inOrder e)
    (hs : s.event e = some t) : PortInv t := by
  rcases Net.event_moves hs with hm | ⟨p, vapValid, sends, -, rfl⟩ | ⟨p, vapValid, sends, rfl, rfl⟩ |
    ⟨vapValid, sends, a, rest, rfl, hl, rfl⟩
  · exact h.moves hm
  · exact h.coreSendStationInfo p .staConnected vapValid sends
  · exact h.oneboxNewassoc hok vapValid sends
  · have hcur : a = s.assoc := by simpa [Net.inOrder, hl] using hok
    rw [decide_eq_true hcur]
    exact (h.move (.inFlight rest)).eapol4Success

structure PortStart (s : Net) : Prop where
  wpa : WpaOnly s
  blocked : s.staDataBlock = true
  flags : s.ptkKey = false ∧ s.eapol4Cnfrm = false
  history : s.pairwise = false ∧ s.confirmed = false

theorem PortStart.portInv {s : Net} (h : PortStart s) : PortInv s :=
  ⟨h.wpa, by rw [h.flags.2, h.history.2], by simp [h.flags.1], by simp [h.history.1],
    by rw [h.blocked, h.history.1, Bool.false_and, Bool.not_false]⟩

/-- The port opens only after both the key and the confirm, and then it does open. -/
theorem controlled_port {s t u : Net} {es : List NetEvent} {e : NetEvent} (h0 : PortStart s)
    (hok : Machine.Meets Net.event Net.inOrder s (es ++ [e])) (hrun : Machine.run Net.event s es = some t)
    (hstep : t.event e = some u) :
    (t.staDataBlock = true → u.staDataBlock = false → u.pairwise ∧ u.confirmed) ∧
      (u.pairwise ∧ u.confirmed → u.staDataBlock = false) := by
  have hinv : PortInv u := by
    refine Machine.run_invariant PortInv.event h0.portInv hok ?_
    simp [Machine.run_append, hrun, hstep]
  constructor
  · intro _ hb
    simpa [hb] using hinv.port
  · rintro ⟨hp, hc⟩
    simp [hinv.port, hp, hc]

section Traces

def wpaSta : Vap :=
  { opmode := .sta, privacy := true, wpa := true, run := true, connInProg := false, bss := none }

def wpaAp : Vap := { wpaSta with opmode := .hostap }

def staVap : VapId := 0

def apVap : VapId := 1

def freshNet : Net :=
  { stations := emptyTable, vap := fun v => if v = staVap then wpaSta else wpaAp, staDataBlock := true,
    blockApQueues := false, ptkKey := false, gtkKey := false, eapol4Cnfrm := false, staModeId := 0,
    assoc := 0, pairwise := false, confirmed := false, eapol4InFlight := [] }

theorem portStart_freshNet : PortStart freshNet := by
  refine ⟨fun v hv => ?_, rfl, ⟨rfl, rfl⟩, ⟨rfl, rfl⟩⟩
  by_cases h : v = staVap
  · simp [freshNet, h, wpaSta]
  · simp [freshNet, h, wpaAp, wpaSta] at hv

def pairwiseKey : KeyReq := ⟨true, false, false⟩

def apNode : Node := freshNode 7 staVap

def associate : List NetEvent :=
  [.create 5 apNode, .sendAuth staVap, .stationInfo 5 .staConnected true .all, .newassoc 5 true .all]

def lateEapol4 : List NetEvent :=
  associate ++ ([.sendEapol4, .stationInfo 5 .staDisconnected true .all, .sendAuth staVap,
    .stationInfo 5 .staConnected true .all, .newassoc 5 true .all, .eapol4Confirm true true .all] : List NetEvent)

end Traces

theorem controlled_port_associate :
    PortStart freshNet ∧
      Machine.Meets Net.event Net.inOrder freshNet
        ((associate ++ [.sendEapol4, .eapol4Confirm true true .all]) ++ [.keySet staVap 5 pairwiseKey true]) ∧
      ∃ t u, Machine.run Net.event freshNet (associate ++ [.sendEapol4, .eapol4Confirm true true .all]) = some t ∧
        t.event (.keySet staVap 5 pairwiseKey true) = some u ∧ t.staDataBlock = true ∧ u.staDataBlock = false ∧
        (u.pairwise ∧ u.confirmed) := by
  have hok : Machine.Meets Net.event Net.inOrder freshNet
      ((associate ++ [.sendEapol4, .eapol4Confirm true true .all]) ++ [.keySet staVap 5 pairwiseKey true]) := by decide
  exact ⟨portStart_freshNet, hok, _, _, rfl, rfl, rfl, rfl, (controlled_port portStart_freshNet hok rfl rfl).1 rfl rfl⟩

/-- The late confirm of an association that has ended opens the port of the next one. -/
theorem controlled_port_lateEapol4 :
    PortStart freshNet ∧ ∃ t u, Machine.run Net.event freshNet lateEapol4 = some t ∧
      t.event (.keySet staVap 5 pairwiseKey true) = some u ∧ t.staDataBlock = true ∧ u.staDataBlock = false ∧
      ¬ (u.pairwise ∧ u.confirmed) := by
  refine ⟨portStart_freshNet, _, _, rfl, rfl, rfl, rfl, ?_⟩
  decide

end Onebox
