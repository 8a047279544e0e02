import Onebox.Machine

/-! Writes to the card over USB. There is one URB and one event for all of them: a
write submits the URB and waits for the event that the completion handler sets, and
what a failed write leaves behind is found by the next one. -/

namespace Onebox

open Machine

/-- The three ways to write. -/
inductive UsbEntry
  | writeRegisterMultiple | sgCardWrite | cardWrite
  deriving DecidableEq, Repr

/-- `addr` is the `uint32` that `write_register_multiple` has; the other two get the endpoint as a `uint8`. -/
structure UsbCall where
  entry : UsbEntry
  adapter : Bool
  addr : BitVec 32
  data : List (BitVec 8)
  wifiZigbee : Bool
  submitUrb : Bool

/-- `tx_usb_urb[0]`, with the number of the write that filled it. -/
structure UsbUrb where
  write : Nat
  epNum : BitVec 8
  transferBuffer : List (BitVec 8)
  deriving DecidableEq, Repr

inductive UsbPc
  | idle | waiting | woken | timedOut
  deriving DecidableEq, Repr

/-- The writer with the URB while the device has it. `writes` counts the calls that have returned, so it is
the number of the write under way; `completed` are the URBs that ended without an error. -/
structure UsbTx where
  writeFail : Bool
  usbTxEvent : Bool
  pc : UsbPc
  urb : Option UsbUrb
  writes : Nat
  completed : List UsbUrb
  results : List (Nat × Bool)
  deriving DecidableEq, Repr

inductive UsbAct
  | call (c : UsbCall)
  | txDone (ok : Bool)
  | wake
  | signal
  | timeout
  | ret

def usbTxHeadRoom : Nat := 128

namespace UsbCall

variable (c : UsbCall)

def epNum : BitVec 8 := c.addr.setWidth 8

/-- The lengths are 16 bits wide. -/
def len : Nat := c.data.length % 2 ^ 16

/-- The bytes that `onebox_usb_sg_card_write` hands on. -/
def segment : List (BitVec 8) :=
  if c.wifiZigbee ∧ c.epNum = 2 then c.data.take c.len
  else (List.replicate usbTxHeadRoom 0 ++ c.data).take ((c.len + usbTxHeadRoom) % 2 ^ 16)

end UsbCall

namespace UsbTx

variable (s : UsbTx) (c : UsbCall)

def returns (success : Bool) : UsbTx :=
  { s with pc := .idle, results := s.results ++ [(s.writes, success)], writes := s.writes + 1 }

def oneboxUsbCardWrite (buf : List (BitVec 8)) : UsbTx :=
  -- a URB that the device still has cannot be submitted again
  if c.submitUrb && s.urb.isNone then { s with pc := .waiting, urb := some ⟨s.writes, c.epNum, buf⟩ }
  else { s with writeFail := true }.returns false

def oneboxUsbSgCardWrite : UsbTx :=
  -- `status_l` is 0, which is `ONEBOX_STATUS_SUCCESS`
  if s.writeFail then s.returns true else s.oneboxUsbCardWrite c c.segment

def writeRegisterMultiple : UsbTx :=
  if s.writeFail then s.returns true
  else if !c.adapter || c.addr = 0 then s.returns false
  else s.oneboxUsbSgCardWrite c

def enter : UsbTx :=
  match c.entry with
  | .writeRegisterMultiple => s.writeRegisterMultiple c
  | .sgCardWrite => s.oneboxUsbSgCardWrite c
  | .cardWrite => s.oneboxUsbCardWrite c (c.data.take c.len)

def usbTxDoneHandler (u : UsbUrb) (ok : Bool) : UsbTx :=
  if ok then { s with urb := none, usbTxEvent := true, completed := s.completed ++ [u] }
  else { s with urb := none, writeFail := true }

/-- The end of `onebox_usb_card_write` after the wait. -/
def leave : Option UsbTx :=
  match s.pc with
  | .woken => some ({ s with usbTxEvent := false }.returns true)
  | .timedOut => some ({ s with usbTxEvent := false, writeFail := true }.returns false)
  | _ => none

def step : UsbAct → Option UsbTx
  | .call c => if s.pc = .idle then some (s.enter c) else none
  | .txDone ok => s.urb.map fun u => s.usbTxDoneHandler u ok
  | .wake => if s.pc = .waiting ∧ s.usbTxEvent then some { s with pc := .woken } else none
  -- an interrupted wait ends with a negative status, which is not 0 either
  | .signal => if s.pc = .waiting then some { s with pc := .woken } else none
  | .timeout => if s.pc = .waiting ∧ !s.usbTxEvent then some { s with pc := .timedOut } else none
  | .ret => s.leave

end UsbTx

def usbStart : UsbTx :=
  { writeFail := false, usbTxEvent := false, pc := .idle, urb := none, writes := 0, completed := [],
    results := [] }

/-- Each write that returned success had its own URB completed. -/
def UsbTx.Truthful (s : UsbTx) : Prop :=
  ∀ r ∈ s.results, r.2 = true → ∃ u ∈ s.completed, u.write = r.1

instance (s : UsbTx) : Decidable s.Truthful := inferInstanceAs (Decidable (∀ _ ∈ _, _))

/-- No signal ends a wait, no write finds `write_fail` set, and a direct `onebox_usb_card_write`, which does
not look at it, finds no event left over. -/
def UsbTx.orderly (s : UsbTx) : UsbAct → Bool
  | .call c => if c.entry = .cardWrite then !s.usbTxEvent else !s.writeFail
  | .signal => false
  | _ => true

namespace UsbTx

variable {s t : UsbTx} {a : UsbAct} {c : UsbCall} {buf : List (BitVec 8)}

/-- The URB of the write under way has completed without an error. -/
def Done (s : UsbTx) : Prop := ∃ u ∈ s.completed, u.write = s.writes

/-- What holds at each point of a write. -/
def Place (s : UsbTx) : Prop :=
  match s.pc with
  | .idle => s.writeFail = false → s.usbTxEvent = false ∧ s.urb = none
  | .waiting => (∃ u, s.urb = some u ∧ u.write = s.writes) ∧ s.usbTxEvent = false ∨
      s.urb = none ∧ (s.usbTxEvent = true → s.Done)
  | .woken => s.urb = none ∧ s.Done
  | .timedOut => True

theorem Truthful.returns_false (h : s.Truthful) : (s.returns false).Truthful := by
  intro r hr hok
  rcases List.mem_append.mp hr with hr | hr
  · exact h r hr hok
  · rw [List.mem_singleton.mp hr] at hok
    cases hok

theorem Truthful.returns_true (h : s.Truthful) (hdone : s.Done) : (s.returns true).Truthful := by
  intro r hr hok
  rcases List.mem_append.mp hr with hr | hr
  · exact h r hr hok
  · rw [List.mem_singleton.mp hr]
    exact hdone

structure Inv (s : UsbTx) : Prop where
  truthful : s.Truthful
  place : s.Place

theorem Inv.returns_false (h : s.Inv) (hidle : s.pc = .idle) : (s.returns false).Inv := by
  have hplace := h.place
  simp only [Place, hidle] at hplace
  exact ⟨h.truthful.returns_false, hplace⟩

/-- A write that fails leaves `write_fail` behind, whatever the device still has. -/
theorem Inv.fails (h : s.Truthful) (hfail : s.writeFail = true) : (s.returns false).Inv := by
  refine ⟨h.returns_false, fun hclear => ?_⟩
  have hno : s.writeFail = false := hclear
  rw [hfail] at hno
  cases hno

theorem Inv.cardWrite (h : s.Inv) (hevent : s.usbTxEvent = false) : (s.oneboxUsbCardWrite c buf).Inv := by
  rw [oneboxUsbCardWrite]
  split
  · exact ⟨h.truthful, .inl ⟨⟨_, rfl, rfl⟩, hevent⟩⟩
  · exact .fails h.truthful rfl

theorem Inv.enter (h : s.Inv) (hidle : s.pc = .idle) (hok : s.orderly (.call c) = true) : (s.enter c).Inv := by
  have hplace := h.place
  simp only [Place, hidle] at hplace
  rw [UsbTx.enter]
  cases he : c.entry with
  | cardWrite =>
    simp only [orderly, he, if_true, Bool.not_eq_true'] at hok
    exact h.cardWrite hok
  | sgCardWrite =>
    have hf : s.writeFail = false := by simpa [orderly, he] using hok
    simp only [oneboxUsbSgCardWrite, hf, Bool.false_eq_true, if_false]
    exact h.cardWrite (hplace hf).1
  | writeRegisterMultiple =>
    have hf : s.writeFail = false := by simpa [orderly, he] using hok
    simp only [writeRegisterMultiple, oneboxUsbSgCardWrite, hf, Bool.false_eq_true, if_false]
    split
    · exact h.returns_false hidle
    · exact h.cardWrite (hplace hf).1

/-- The URB at the device is that of the write under way, or the write that filled it gave up. -/
theorem Place.urb_cases {u : UsbUrb} (h : s.Place) (hu : s.urb = some u) :
    (s.pc = .waiting ∧ u.write = s.writes ∧ s.usbTxEvent = false) ∨
      (s.pc = .idle ∧ s.writeFail = true) ∨ s.pc = .timedOut := by
  rw [Place] at h
  split at h
  · next hpc =>
    refine .inr (.inl ⟨hpc, ?_⟩)
    by_contra hclear
    simp [(h (by simpa using hclear)).2] at hu
  · next hpc =>
    rcases h with ⟨⟨v, hv, hid⟩, hevent⟩ | ⟨hnone, -⟩
    · rw [hu] at hv
      cases hv
      exact .inl ⟨hpc, hid, hevent⟩
    · simp [hnone] at hu
  · simp [h.1] at hu
  · next hpc => exact .inr (.inr hpc)

theorem Place.txDone {u : UsbUrb} {ok : Bool} (h : s.Place) (hu : s.urb = some u) :
    (s.usbTxDoneHandler u ok).Place := by
  rcases h.urb_cases hu with ⟨hpc, hid, hevent⟩ | ⟨hpc, hfail⟩ | hpc
  · cases ok with
    | true =>
      simp only [usbTxDoneHandler, Place, hpc, if_true]
      exact .inr ⟨trivial, fun _ => ⟨u, List.mem_append_right _ List.mem_cons_self, hid⟩⟩
    | false =>
      simp only [usbTxDoneHandler, Place, hpc, Bool.false_eq_true, if_false]
      exact .inr ⟨trivial, fun he => by simp [hevent] at he⟩
  · cases ok <;> simp [usbTxDoneHandler, Place, hpc, hfail]
  · cases ok <;> simp [usbTxDoneHandler, Place, hpc]

theorem Truthful.txDone {u : UsbUrb} {ok : Bool} (h : s.Truthful) : (s.usbTxDoneHandler u ok).Truthful := by
  cases ok with
  | true =>
    intro r hr hsuccess
    obtain ⟨v, hv, hid⟩ := h r hr hsuccess
    exact ⟨v, List.mem_append_left _ hv, hid⟩
  | false => exact h

theorem Inv.step (h : s.Inv) (hok : s.orderly a = true) (hs : s.step a = some t) : t.Inv := by
  have hplace := h.place
  cases a with
  | call c =>
    obtain ⟨hidle, hs⟩ := Option.ite_none_right_eq_some.mp hs
    cases hs
    exact h.enter hidle hok
  | txDone ok =>
    obtain ⟨u, hu, rfl⟩ := Option.map_eq_some_iff.mp hs
    exact ⟨h.truthful.txDone, hplace.txDone hu⟩
  | wake =>
    obtain ⟨⟨hpc, hevent⟩, hs⟩ := Option.ite_none_right_eq_some.mp hs
    cases hs
    simp only [Place, hpc] at hplace
    rcases hplace with ⟨-, hclear⟩ | ⟨hnone, hdone⟩
    · simp [hclear] at hevent
    · exact ⟨h.truthful, hnone, hdone hevent⟩
  | signal => cases hok
  | timeout =>
    obtain ⟨-, hs⟩ := Option.ite_none_right_eq_some.mp hs
    cases hs
    exact ⟨h.truthful, trivial⟩
  | ret =>
    simp only [UsbTx.step, leave] at hs
    split at hs
    · next hpc =>
      cases hs
      simp only [Place, hpc] at hplace
      exact ⟨Truthful.returns_true h.truthful hplace.2, fun _ => ⟨rfl, hplace.1⟩⟩
    · cases hs
      exact .fails h.truthful rfl
    · cases hs

end UsbTx

/-- In every orderly run, a write that returned success had its own URB completed without an error. -/
theorem usb_write_truthful {as : List UsbAct} {t : UsbTx} (hok : Meets UsbTx.step UsbTx.orderly usbStart as)
    (hrun : run UsbTx.step usbStart as = some t) : t.Truthful := by
  have hstart : usbStart.Inv := ⟨List.forall_mem_nil _, fun _ => ⟨rfl, rfl⟩⟩
  have hinv : t.Inv := run_invariant (fun h hok hs => h.step hok hs) hstart hok hrun
  exact hinv.truthful

def plainWrite (entry : UsbEntry) (submitUrb : Bool) : UsbAct :=
  .call { entry, adapter := true, addr := 1, data := [0x42], wifiZigbee := false, submitUrb }

/-- After a write that could not be submitted the next one returns success and submits nothing; and the
completion of a write that had timed out ends the wait of the next one. -/
theorem failed_write_sticks :
    (∃ t, run UsbTx.step usbStart
        [plainWrite .writeRegisterMultiple false, plainWrite .writeRegisterMultiple true] = some t ∧
      t.results = [(0, false), (1, true)] ∧ t.urb = none ∧ t.completed = [] ∧ ¬ t.Truthful) ∧
    ∃ t, run UsbTx.step usbStart
        [plainWrite .writeRegisterMultiple true, .timeout, .ret, .txDone true, plainWrite .cardWrite true,
          .wake, .ret] = some t ∧
      t.results = [(0, false), (1, true)] ∧ t.urb.isSome ∧ ¬ t.Truthful :=
  ⟨⟨_, rfl, rfl, rfl, rfl, by decide⟩, _, rfl, rfl, rfl, by decide⟩

def twoWritesThenFailure : List UsbAct :=
  [plainWrite .writeRegisterMultiple true, .txDone true, .wake, .ret, plainWrite .sgCardWrite true, .txDone true,
    .wake, .ret, plainWrite .cardWrite true, .txDone false, .timeout, .ret]

theorem usb_write_truthful_twice :
    ∃ t, run UsbTx.step usbStart twoWritesThenFailure = some t ∧
      t.results = [(0, true), (1, true), (2, false)] ∧ t.Truthful :=
  ⟨_, rfl, rfl, @usb_write_truthful twoWritesThenFailure _ (by decide) rfl⟩

end Onebox
