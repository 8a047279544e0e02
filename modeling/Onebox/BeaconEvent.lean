import Onebox.Machine
import Onebox.VapTable

/-! The beacon event: the receive thread stores `beacon_event` and `beacon_event_vap_id` for all
vaps, one after the other, and `sdio_scheduler_thread` clears the first and then reads the
second. -/

namespace Onebox

open Machine

/-- The transmit thread: the test and the clearing of the flag, the three places that read the vap id, the
queues, and the wait with the test before it and the reset behind it. -/
inductive BeaconTxPc
  | top
  | clear
  | vapCheck
  | modeCheck
  | load
  | qos
  | waitTest
  | wait
  | reset
  deriving DecidableEq, Repr

/-- The receive thread within an accepted indication: the flag is stored, then the id. -/
inductive BeaconRxPc
  | idle
  | flagged (v : Nat)
  | stored
  deriving DecidableEq, Repr

def VapMode.isBeacon : VapMode → Bool
  | .hostap | .ibss => true
  | _ => false

/-- `fresh` has the indications accepted since the flag was last cleared and `taken` those from before, as
long as no beacon of their vap has been loaded. -/
structure BeaconSys where
  tx : BeaconTxPc
  rx : BeaconRxPc
  beaconEvent : Bool
  beaconEventVapId : Nat
  event : Bool
  loaded : List Nat
  fresh : List Nat
  taken : List Nat
  deriving DecidableEq

inductive BeaconAct
  | accept (v : Nat)
  | rx
  | tx
  | timeout
  | schedule

namespace BeaconSys

def start : BeaconSys := ⟨.top, .idle, false, 0, false, [], [], []⟩

variable (s : BeaconSys)

def loadBeacon (v : Nat) : BeaconSys :=
  { s with
    loaded := s.loaded ++ [v]
    fresh := s.fresh.filter (· ≠ v)
    taken := s.taken.filter (· ≠ v)
    tx := .qos }

/-- `vaps` has the modes of the vaps in `hal_vap`. -/
def advanceTx (vaps : Nat → Option VapMode) : Option BeaconSys :=
  match s.tx with
  | .top => some { s with tx := if s.beaconEvent then .clear else .qos }
  | .clear =>
    some { s with beaconEvent := false, fresh := [], taken := s.taken ++ s.fresh, tx := .vapCheck }
  | .vapCheck => some { s with tx := if (vaps s.beaconEventVapId).isSome then .modeCheck else .qos }
  | .modeCheck =>
    (vaps s.beaconEventVapId).map fun m => { s with tx := if m.isBeacon then .load else .qos }
  | .load => some (s.loadBeacon s.beaconEventVapId)
  | .qos => some { s with tx := .waitTest }
  | .waitTest => some { s with tx := if s.beaconEvent then .reset else .wait }
  | .wait => if s.event then some { s with tx := .reset } else none
  | .reset => some { s with event := false, tx := .top }

def advanceRx : Option BeaconSys :=
  match s.rx with
  | .idle => none
  | .flagged v => some { s with beaconEventVapId := v, rx := .stored }
  | .stored => some { s with event := true, rx := .idle }

def step (vaps : Nat → Option VapMode) (s : BeaconSys) : BeaconAct → Option BeaconSys
  -- an indication for an access point in RUN is accepted
  | .accept v =>
    if s.rx = .idle ∧ vaps v = some .hostap then
      some { s with beaconEvent := true, fresh := s.fresh ++ [v], rx := .flagged v }
    else none
  | .rx => s.advanceRx
  | .tx => s.advanceTx vaps
  -- with a full buffer the wait is a timed one
  | .timeout => if s.tx = .wait then some { s with tx := .reset } else none
  | .schedule => some { s with event := true }

/-- The vap id is read while it is the one of every indication for which the flag has been cleared. -/
def readsTaken : BeaconAct → Bool
  | .tx =>
    match s.tx with
    | .vapCheck | .modeCheck | .load => s.taken.all (· = s.beaconEventVapId)
    | _ => true
  | _ => true

def unserved : List Nat := s.taken ++ s.fresh

end BeaconSys

/-- The transmit thread blocks without the flag only when a beacon has been loaded for every accepted
indication since it came. -/
def BeaconServed (s : BeaconSys) : Prop := s.tx = .wait → s.beaconEvent = false → s.unserved = []

instance (s : BeaconSys) : Decidable (BeaconServed s) :=
  inferInstanceAs (Decidable (s.tx = .wait → s.beaconEvent = false → s.unserved = []))

/-- The places between the clearing of the flag and the load. -/
def BeaconTxPc.serving : BeaconTxPc → Bool
  | .vapCheck | .modeCheck | .load => true
  | _ => false

structure BeaconInv (vaps : Nat → Option VapMode) (s : BeaconSys) : Prop where
  flag : s.fresh ≠ [] → s.beaconEvent = true
  serving : s.tx.serving = false → s.taken = []
  mode : ∀ v ∈ s.unserved, vaps v = some .hostap

section Runs

variable {vaps : Nat → Option VapMode} {s t : BeaconSys} {a : BeaconAct}

theorem taken_eq_nil_of_not_mode (h : BeaconInv vaps s) (hread : s.taken.all (· = s.beaconEventVapId) = true)
    (hmode : vaps s.beaconEventVapId ≠ some .hostap) : s.taken = [] := by
  by_contra hne
  obtain ⟨v, hv⟩ := List.exists_mem_of_ne_nil _ hne
  have hid := of_decide_eq_true (List.all_eq_true.mp hread v hv)
  have hap := h.mode v (List.mem_append_left _ hv)
  rw [hid] at hap
  exact hmode hap

theorem BeaconInv.moved (h : BeaconInv vaps s) (htx : s.tx.serving = false) (pc : BeaconTxPc) (e : Bool) :
    BeaconInv vaps { s with tx := pc, event := e } :=
  ⟨h.flag, fun _ => h.serving htx, h.mode⟩

/-- A test of the vap id that an access point passes leaves nothing behind. -/
theorem BeaconInv.tested (h : BeaconInv vaps s) (hread : s.taken.all (· = s.beaconEventVapId) = true)
    {pc : BeaconTxPc} (hap : vaps s.beaconEventVapId = some .hostap → pc.serving = true) :
    BeaconInv vaps { s with tx := pc } := by
  refine ⟨h.flag, fun hnot => ?_, h.mode⟩
  apply taken_eq_nil_of_not_mode h hread
  intro hmode
  exact absurd (hnot.symm.trans (hap hmode)) Bool.false_ne_true

theorem BeaconInv.loadBeacon (h : BeaconInv vaps s) (hread : s.taken.all (· = s.beaconEventVapId) = true) :
    BeaconInv vaps (s.loadBeacon s.beaconEventVapId) := by
  refine ⟨fun hne => h.flag fun hnil => ?_, fun _ => ?_, fun v hv => h.mode v ?_⟩
  · rw [BeaconSys.loadBeacon, hnil] at hne
    exact hne rfl
  · show s.taken.filter (· ≠ s.beaconEventVapId) = []
    rw [List.filter_eq_nil_iff]
    intro v hv
    have hid := List.all_eq_true.mp hread v hv
    simpa using hid
  · simp only [BeaconSys.unserved, BeaconSys.loadBeacon, List.mem_append, List.mem_filter] at hv ⊢
    exact hv.imp And.left And.left

theorem beaconInv_advanceTx (h : BeaconInv vaps s) (hread : s.readsTaken .tx = true)
    (ht : s.advanceTx vaps = some t) : BeaconInv vaps t := by
  cases htx : s.tx with
  | top | qos | waitTest | reset =>
    simp only [BeaconSys.advanceTx, htx] at ht
    cases ht
    exact h.moved (by rw [htx]; rfl) _ _
  | clear =>
    simp only [BeaconSys.advanceTx, htx] at ht
    cases ht
    refine ⟨fun h => absurd rfl h, fun h => (by cases h), fun v hv => h.mode v ?_⟩
    simpa [BeaconSys.unserved] using hv
  | vapCheck =>
    simp only [BeaconSys.readsTaken, htx] at hread
    simp only [BeaconSys.advanceTx, htx] at ht
    cases ht
    apply h.tested hread
    intro hap
    rw [hap]
    rfl
  | modeCheck =>
    simp only [BeaconSys.readsTaken, htx] at hread
    simp only [BeaconSys.advanceTx, htx] at ht
    obtain ⟨m, hm, rfl⟩ := Option.map_eq_some_iff.mp ht
    apply h.tested hread
    intro hap
    rw [hap] at hm
    cases hm
    rfl
  | load =>
    simp only [BeaconSys.readsTaken, htx] at hread
    simp only [BeaconSys.advanceTx, htx] at ht
    cases ht
    exact h.loadBeacon hread
  | wait =>
    simp only [BeaconSys.advanceTx, htx] at ht
    obtain ⟨-, ht⟩ := Option.ite_none_right_eq_some.mp ht
    cases ht
    exact h.moved (by rw [htx]; rfl) _ _

theorem beaconInv_step (h : BeaconInv vaps s) (hread : s.readsTaken a = true) (ht : s.step vaps a = some t) :
    BeaconInv vaps t := by
  cases a with
  | tx => exact beaconInv_advanceTx h hread ht
  | accept v =>
    obtain ⟨⟨-, hap⟩, ht⟩ := Option.ite_none_right_eq_some.mp ht
    cases ht
    refine ⟨fun _ => rfl, h.serving, fun w hw => ?_⟩
    simp only [BeaconSys.unserved, List.mem_append, List.mem_singleton] at hw
    rcases hw with hw | hw | rfl
    · exact h.mode w (List.mem_append_left _ hw)
    · exact h.mode w (List.mem_append_right _ hw)
    · exact hap
  | rx =>
    cases hrx : s.rx with
    | idle => simp [BeaconSys.step, BeaconSys.advanceRx, hrx] at ht
    | flagged v =>
      simp only [BeaconSys.step, BeaconSys.advanceRx, hrx] at ht
      cases ht
      exact ⟨h.flag, h.serving, h.mode⟩
    | stored =>
      simp only [BeaconSys.step, BeaconSys.advanceRx, hrx] at ht
      cases ht
      exact ⟨h.flag, h.serving, h.mode⟩
  | timeout =>
    obtain ⟨hwait, ht⟩ := Option.ite_none_right_eq_some.mp ht
    cases ht
    exact h.moved (by rw [hwait]; rfl) _ _
  | schedule =>
    cases ht
    exact ⟨h.flag, h.serving, h.mode⟩

theorem BeaconInv.served (h : BeaconInv vaps s) : BeaconServed s := by
  intro hwait hflag
  have htaken := h.serving (by rw [hwait]; rfl)
  have hfresh : s.fresh = [] := by
    by_contra hne
    exact absurd (hflag.symm.trans (h.flag hne)) Bool.false_ne_true
  rw [BeaconSys.unserved, htaken, hfresh]
  rfl

/-- In every run in which the vap id is read while it is the one of every indication for which the flag has
been cleared, no indication is lost. -/
theorem beacons_served {as : List BeaconAct} (hok : Meets (BeaconSys.step vaps) BeaconSys.readsTaken .start as)
    (hrun : run (BeaconSys.step vaps) .start as = some s) : BeaconServed s := by
  have hstart : BeaconInv vaps .start := ⟨fun h => absurd rfl h, fun _ => rfl, fun _ h => (by cases h)⟩
  exact (run_invariant beaconInv_step hstart hok hrun).served

end Runs

def twoApModes : Nat → Option VapMode := fun v => if v < 2 then some .hostap else none

def inTurn : List BeaconAct :=
  ([.accept 0, .rx, .rx] : List BeaconAct) ++ List.replicate 5 .tx ++
    ([.accept 1, .rx, .rx] : List BeaconAct) ++ List.replicate 10 .tx

/-- Both indications come before the transmit thread looks. -/
def together : List BeaconAct :=
  ([.accept 0, .rx, .rx, .accept 1, .rx, .rx] : List BeaconAct) ++ List.replicate 7 .tx

theorem beacons_served_inTurn :
    Meets (BeaconSys.step twoApModes) BeaconSys.readsTaken .start inTurn ∧
      ∃ s, run (BeaconSys.step twoApModes) .start inTurn = some s ∧ s.loaded = [0, 1] ∧ BeaconServed s := by
  have hok : Meets (BeaconSys.step twoApModes) BeaconSys.readsTaken .start inTurn := by decide
  exact ⟨hok, exists_run_and (by decide) fun s hs => beacons_served hok hs⟩

/-- The id of the first vap is overwritten, and only the beacon of the second one is loaded. -/
theorem together_lost :
    ∃ s, run (BeaconSys.step twoApModes) .start together = some s ∧
      s.tx = .wait ∧ s.loaded = [1] ∧ s.unserved = [0] ∧ ¬ BeaconServed s :=
  exists_run (by decide)

end Onebox
