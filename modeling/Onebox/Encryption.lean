import Onebox.DataPath
import Onebox.ControlledPort

/-! No data leaves a vap with privacy in the clear, as long as a station
transmits only once its node has its key and no monitor vap takes the
descriptors away. -/

namespace Onebox

def Pkt.encrypted (pk : Pkt) : Bool := pk.desc.any Desc.encrypt

/-- A frame of a vap with privacy is encrypted, unless it is an EAPOL frame. -/
def Private (net : Net) (pk : Pkt) : Prop :=
  (net.vap pk.vap).privacy → pk.nb.etherType ≠ etherTypePae → pk.encrypted

/-- The node of a station has its key, and the packet keeps its descriptor. -/
def TxSys.keyed (s : TxSys) : TxEvent → Bool
  | .xmit nb => !s.strips nb && match s.net.stations.node nb.ni with
    | none => true
    | some n => (s.net.vap n.vap).opmode = .hostap || !(s.net.vap n.vap).privacy || n.encryptEnbl ||
        nb.etherType = etherTypePae
  | _ => true

theorem Private.event {net net' : Net} {e : NetEvent} {pk : Pkt} (h : Private net pk)
    (hs : net.event e = some net') : Private net' pk := by
  have hmode := Net.event_mode hs pk.vap
  simp only [Vap.mode, Prod.mk.injEq] at hmode
  intro hpriv
  exact h (hmode.2.1 ▸ hpriv)

theorem TxSys.packet_encrypted {s : TxSys} {n : Node} {nb : Netbuf} (hstrip : s.strips nb = false)
    (hpriv : (s.net.vap n.vap).privacy) (hkey : n.encryptEnbl) (q : DataQ) :
    (s.packet n nb.toOne q).encrypted := by
  rw [Pkt.encrypted, s.packet_desc hstrip, Option.any_some, DescArgs.prepare_encrypt]
  simp [DescArgs.encrypt, TxSys.descArgs, hpriv, hkey]

theorem Private.packet {s : TxSys} {nb : Netbuf} {n : Node} (hok : s.keyed (.xmit nb))
    (hn : s.net.stations.node nb.ni = some n) (hskip : s.skips n nb = false) (q : DataQ) :
    Private s.net (s.packet n nb.toOne q) := by
  simp only [TxSys.keyed, hn, Bool.and_eq_true, Bool.not_eq_true'] at hok
  intro hpriv het
  have hpriv' : (s.net.vap n.vap).privacy := hpriv
  have het' : nb.etherType ≠ etherTypePae := het
  refine s.packet_encrypted hok.1 hpriv' ?_ q
  cases hop : (s.net.vap n.vap).opmode with
  | sta =>
    have hkey : n.encryptEnbl ∨ nb.etherType = etherTypePae := by simpa [hop, hpriv'] using hok.2
    exact hkey.resolve_right het'
  | hostap =>
    -- the access point has dropped the frame itself if there was no key
    have hkey : s.noKey n nb = false := by
      simp only [TxSys.skips, Bool.or_eq_false_iff] at hskip
      exact hskip.1.2
    by_contra hno
    simp only [TxSys.noKey, hop, hpriv', Bool.not_eq_true] at hno hkey
    simp [hno, het'] at hkey

def TxStart (s : TxSys) : Prop := ∀ q, s.queue q = []

theorem QueueInv.start {P : Net → Pkt → Prop} {s : TxSys} (h : TxStart s) : QueueInv P s := by
  intro q pk hpk
  simp [h q] at hpk

theorem no_cleartext {s t u : TxSys} {es : List TxEvent} {q : DataQ} {pk : Pkt} (h0 : TxStart s)
    (hok : Machine.Meets TxSys.event TxSys.keyed s es) (hrun : Machine.run TxSys.event s es = some t)
    (hq : t.coreQosProcessor q = some (u, some pk)) (hpriv : (t.net.vap pk.vap).privacy)
    (het : pk.nb.etherType ≠ etherTypePae) : pk.encrypted := by
  have hinv : QueueInv Private t := by
    refine Machine.run_invariant (fun {s e t} h hok hs => ?_) (QueueInv.start h0) hok hrun
    refine h.event (fun e' net _ hn _ pk _ hp => hp.event hn) ?_ hs
    rintro nb n q rfl hn hskip
    exact .packet hok hn hskip q
  obtain ⟨-, -, hmem⟩ := TxSys.coreQosProcessor_spec hq
  exact hinv q pk (hmem pk rfl).1 hpriv het

section Traces

def plainVapTx : VapTx :=
  { inUse := true, fixedRateEnable := false, rateHix := 0, shortgi20 := false, p2pEnable := false, wpaIe := true }

def plainRadio : Radio := { fWme := true, ht40 := false, ht40u := false, band24 := true, wmeAcm := false }

def freshTx : TxSys :=
  { net := freshNet, vapTx := fun _ => plainVapTx, radio := plainRadio, scNmonvaps := 0, fsmOpen := true,
    stopPerQ := fun _ _ => false, stopUdpPkts := fun _ _ => false, queue := fun _ => [] }

theorem txStart_freshTx : TxStart freshTx := fun _ => rfl

def ipFrame : List (BitVec 8) :=
  [0, 0, 0, 0, 0, 7, 0, 0, 0, 0, 0, 1, 0x08, 0x00, 0x45, 0x00, 0, 0, 0, 0, 0, 0, 0, 6]

def ipTo (p : NodePtr) : Netbuf := ⟨p, ipFrame, ⟨false, false, false, false, false⟩, 0⟩

def openPortOf (p : NodePtr) : List NetEvent :=
  [.sendEapol4, .eapol4Confirm true true .all, .keySet staVap p pairwiseKey true]

def keyedXmit : List TxEvent := (associate ++ openPortOf 5).map .net ++ [.xmit (ipTo 5)]

def staleXmit : List TxEvent :=
  (associate ++ openPortOf 5).map .net ++
    ([.net (.stationInfo 5 .staDisconnected true .all), .xmit (ipTo 5), .net (.sendAuth staVap),
      .net (.stationInfo 5 .staConnected true .all), .net (.newassoc 5 true .all)] : List TxEvent) ++
    (openPortOf 5).map .net

end Traces

theorem no_cleartext_keyedXmit :
    TxStart freshTx ∧ Machine.Meets TxSys.event TxSys.keyed freshTx keyedXmit ∧
      ∃ t u pk, Machine.run TxSys.event freshTx keyedXmit = some t ∧
        t.coreQosProcessor 1 = some (u, some pk) ∧ (t.net.vap pk.vap).privacy ∧ pk.nb.etherType ≠ etherTypePae ∧
        pk.encrypted := by
  have hok : Machine.Meets TxSys.event TxSys.keyed freshTx keyedXmit := by decide
  have hsent : (Machine.run TxSys.event freshTx keyedXmit).any fun t => (t.coreQosProcessor 1).any fun r =>
      r.2.any fun pk => (t.net.vap pk.vap).privacy && pk.nb.etherType ≠ etherTypePae := by decide
  simp only [Option.any_eq_true, Bool.and_eq_true, decide_eq_true_eq] at hsent
  obtain ⟨t, hrun, ⟨u, o⟩, hq, pk, rfl, hpriv, het⟩ := hsent
  exact ⟨txStart_freshTx, hok, t, u, pk, hrun, hq, hpriv, het,
    no_cleartext txStart_freshTx hok hrun hq hpriv het⟩

/-- The frame is sent in the clear once the station is connected again. -/
theorem cleartext_staleXmit :
    TxStart freshTx ∧ ∃ t u pk, Machine.run TxSys.event freshTx staleXmit = some t ∧
      t.coreQosProcessor 1 = some (u, some pk) ∧ (t.net.vap pk.vap).privacy ∧ pk.nb.etherType ≠ etherTypePae ∧
      pk.encrypted = false := by
  have hsent : (Machine.run TxSys.event freshTx staleXmit).any fun t => (t.coreQosProcessor 1).any fun r =>
      r.2.any fun pk =>
        (t.net.vap pk.vap).privacy && pk.nb.etherType ≠ etherTypePae && !pk.encrypted := by decide
  simp only [Option.any_eq_true, Bool.and_eq_true, decide_eq_true_eq, Bool.not_eq_true'] at hsent
  obtain ⟨t, hrun, ⟨u, o⟩, hq, pk, rfl, ⟨hpriv, het⟩, hclear⟩ := hsent
  exact ⟨txStart_freshTx, t, u, pk, hrun, hq, hpriv, het, hclear⟩

end Onebox
