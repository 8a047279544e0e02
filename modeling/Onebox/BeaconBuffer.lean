import Onebox.MgmtRx
import Onebox.VapTable

/-! The beacon buffer of a vap: `onebox_newstate` allocates it, and `vap_load_beacon` frees it and allocates
another one when the channel has changed. The pointer that it passes on is taken before that. -/

namespace Onebox

/-- `ni_chan` of the vap's node and `rv_bcbuf`, which is an address or `NULL`. -/
structure BeaconVap where
  niChan : Nat
  rvBcbuf : Option Nat
  deriving DecidableEq, Repr

/-- What happens to buffers. The use of one comes with what `rv_bcbuf` and `ic_curchan` are then. -/
inductive BufferEvent
  | alloc (a : Nat) (chan : Nat)
  | kfree (p : Option Nat)
  | beaconUpdate (p rvBcbuf : Option Nat) (curchan mcastLen : Nat)
  | sendBeacon (p rvBcbuf : Option Nat) (curchan : Nat)
  deriving DecidableEq, Repr

/-- A call of `vap_load_beacon` with what it finds: whether there are a vap and a node, their states, the
channel, the multicast queue, and what `onebox_beacon_alloc` returns if it is called. -/
structure LoadCall where
  vap : Bool
  opmode : VapMode
  ivState : IvState
  ivBss : Bool
  curstate : IvState
  curchan : Nat
  mcastLen : Nat
  alloc : Option Nat
  fsmState : FsmState
  deriving DecidableEq, Repr

/-- The part behind the change of the channel. -/
def updateAndSend (s : BeaconVap) (netbufCbM : Option Nat) (c : LoadCall) : List BufferEvent :=
  .beaconUpdate netbufCbM s.rvBcbuf c.curchan c.mcastLen ::
    if c.fsmState = .macInitDone then [.sendBeacon netbufCbM s.rvBcbuf c.curchan] else []

def vapLoadBeacon (s : BeaconVap) (c : LoadCall) : BeaconVap × List BufferEvent :=
  if !c.vap then (s, [])
  else if c.opmode ≠ .hostap ∨ c.ivState ≠ .run then (s, [])
  else if !c.ivBss then (s, [])
  else if c.curstate ≠ .run then (s, [])
  else
    let netbufCbM := s.rvBcbuf
    if s.niChan ≠ c.curchan then
      let s' := { niChan := c.curchan, rvBcbuf := c.alloc }
      match c.alloc with
      | none => (s', [.kfree s.rvBcbuf])
      | some a => (s', .kfree s.rvBcbuf :: .alloc a c.curchan :: updateAndSend s' netbufCbM c)
    else (s, updateAndSend s netbufCbM c)

def loadBeacons : BeaconVap → List LoadCall → List BufferEvent
  | _, [] => []
  | s, c :: cs => (vapLoadBeacon s c).2 ++ loadBeacons (vapLoadBeacon s c).1 cs

/-- The buffer of `onebox_newstate` and the calls after it. -/
def beaconRun (a chan : Nat) (cs : List LoadCall) : List BufferEvent :=
  .alloc a chan :: loadBeacons { niChan := chan, rvBcbuf := some a } cs

/-- The live buffers, each with the channel it was built for. -/
abbrev Buffers : Type := Nat → Option Nat

namespace BufferEvent

def apply (h : Buffers) : BufferEvent → Buffers
  | alloc a chan => Function.update h a (some chan)
  | kfree (some a) => Function.update h a none
  | _ => h

/-- A buffer is freed while it is live, that is once. -/
def FreesLive (h : Buffers) : BufferEvent → Prop
  | kfree p => ∀ a ∈ p, h a ≠ none
  | _ => True

/-- A buffer in use is the one of the vap, is live, and is built for the channel. -/
def UsesCurrent (h : Buffers) : BufferEvent → Prop
  | beaconUpdate p rvBcbuf chan _ | sendBeacon p rvBcbuf chan => p = rvBcbuf ∧ ∃ a ∈ p, h a = some chan
  | _ => True

def Valid (h : Buffers) (e : BufferEvent) : Prop := e.FreesLive h ∧ e.UsesCurrent h

end BufferEvent

/-- A property of each event and the buffers it meets. -/
def Along (P : Buffers → BufferEvent → Prop) : Buffers → List BufferEvent → Prop
  | _, [] => True
  | h, e :: es => P h e ∧ Along P (e.apply h) es

namespace LoadCall

def passes (c : LoadCall) : Bool :=
  c.vap && c.opmode = .hostap && c.ivState = .run && c.ivBss && c.curstate = .run

end LoadCall

/-- A call past the checks has a buffer on the channel it finds, or gets for another channel no buffer or
one at the address of the buffer it frees. -/
def Harmless : Option Nat → Nat → List LoadCall → Prop
  | _, _, [] => True
  | p, chan, c :: cs =>
    if c.passes then
      if c.curchan = chan then p ≠ none ∧ Harmless p chan cs
      else (c.alloc = none ∨ c.alloc = p) ∧ Harmless c.alloc c.curchan cs
    else Harmless p chan cs

section Step

variable {s : BeaconVap} {c : LoadCall} {a b : Nat}

theorem vapLoadBeacon_stays (h : c.passes = false) : vapLoadBeacon s c = (s, []) := by
  rw [vapLoadBeacon]
  split_ifs with h1 h2 h3 h4
  · rfl
  · rfl
  · rfl
  · rfl
  · simp_all [LoadCall.passes]
  · simp_all [LoadCall.passes]

theorem vapLoadBeacon_of_passes (h : c.passes = true) :
    vapLoadBeacon s c =
      if s.niChan ≠ c.curchan then
        match c.alloc with
        | none => ({ niChan := c.curchan, rvBcbuf := none }, [.kfree s.rvBcbuf])
        | some b => ({ niChan := c.curchan, rvBcbuf := some b }, .kfree s.rvBcbuf :: .alloc b c.curchan ::
            updateAndSend { niChan := c.curchan, rvBcbuf := some b } s.rvBcbuf c)
      else (s, updateAndSend s s.rvBcbuf c) := by
  simp only [LoadCall.passes, Bool.and_eq_true, decide_eq_true_eq] at h
  obtain ⟨⟨⟨⟨hvap, hmode⟩, hiv⟩, hbss⟩, hcur⟩ := h
  cases halloc : c.alloc <;> simp [vapLoadBeacon, hvap, hmode, hiv, hbss, hcur, halloc]

theorem vapLoadBeacon_same (h : c.passes = true) (hchan : c.curchan = s.niChan) :
    vapLoadBeacon s c = (s, updateAndSend s s.rvBcbuf c) := by
  rw [vapLoadBeacon_of_passes h, if_neg (not_not.mpr hchan.symm)]

theorem vapLoadBeacon_lost (h : c.passes = true) (hchan : c.curchan ≠ s.niChan) (halloc : c.alloc = none) :
    vapLoadBeacon s c = ({ niChan := c.curchan, rvBcbuf := none }, [.kfree s.rvBcbuf]) := by
  rw [vapLoadBeacon_of_passes h, if_pos hchan.symm, halloc]

theorem vapLoadBeacon_moved (h : c.passes = true) (hchan : c.curchan ≠ s.niChan) (halloc : c.alloc = some b) :
    vapLoadBeacon s c = ({ niChan := c.curchan, rvBcbuf := some b }, .kfree s.rvBcbuf :: .alloc b c.curchan ::
      updateAndSend { niChan := c.curchan, rvBcbuf := some b } s.rvBcbuf c) := by
  rw [vapLoadBeacon_of_passes h, if_pos hchan.symm, halloc]

/-- The only live buffer is the one of the vap, built for the channel of its node. -/
def BeaconVap.buffers (s : BeaconVap) : Buffers := fun a => if s.rvBcbuf = some a then some s.niChan else none

theorem apply_kfree_buffers (s : BeaconVap) : (BufferEvent.kfree s.rvBcbuf).apply s.buffers = fun _ => none := by
  funext a
  cases hb : s.rvBcbuf with
  | none =>
    have hnone : s.rvBcbuf ≠ some a := by rw [hb]; exact (Option.some_ne_none a).symm
    exact if_neg hnone
  | some b =>
    rw [BufferEvent.apply, Function.update_apply]
    split_ifs with heq
    · rfl
    · exact if_neg fun hother => heq (Option.some.inj (hother.symm.trans hb))

theorem apply_alloc_none (b chan : Nat) :
    (BufferEvent.alloc b chan).apply (fun _ => none) = BeaconVap.buffers { niChan := chan, rvBcbuf := some b } := by
  funext a
  rw [BufferEvent.apply, Function.update_apply, BeaconVap.buffers]
  simp only [Option.some.injEq, eq_comm]

theorem freesLive_kfree (s : BeaconVap) : (BufferEvent.kfree s.rvBcbuf).FreesLive s.buffers := by
  intro a ha
  rw [BeaconVap.buffers, if_pos (Option.mem_def.mp ha)]
  exact Option.some_ne_none _

end Step

section Runs

variable {P : Buffers → BufferEvent → Prop} {h : Buffers} {a chan : Nat}

theorem along_updateAndSend {s : BeaconVap} {p : Option Nat} {c : LoadCall} {es : List BufferEvent} :
    Along P h (updateAndSend s p c ++ es) ↔
      (P h (.beaconUpdate p s.rvBcbuf c.curchan c.mcastLen) ∧
        (c.fsmState = .macInitDone → P h (.sendBeacon p s.rvBcbuf c.curchan))) ∧ Along P h es := by
  rw [updateAndSend]
  split_ifs with hfsm
  · simp only [List.cons_append, List.nil_append, Along, BufferEvent.apply, hfsm, true_implies, and_assoc]
  · simp only [List.cons_append, List.nil_append, Along, BufferEvent.apply, hfsm, false_implies, and_true]

/-! What a property of the events says of the first call, in each of its outcomes. -/

section First

variable {s : BeaconVap} {c : LoadCall} {cs : List LoadCall} {b : Nat}

theorem along_stays (hpass : c.passes = false) :
    Along P s.buffers (loadBeacons s (c :: cs)) ↔ Along P s.buffers (loadBeacons s cs) := by
  rw [loadBeacons, vapLoadBeacon_stays hpass, List.nil_append]

theorem along_same (hpass : c.passes = true) (hchan : c.curchan = s.niChan) :
    Along P s.buffers (loadBeacons s (c :: cs)) ↔
      Along P s.buffers (updateAndSend s s.rvBcbuf c ++ loadBeacons s cs) := by
  rw [loadBeacons, vapLoadBeacon_same hpass hchan]

theorem along_lost (hpass : c.passes = true) (hchan : c.curchan ≠ s.niChan) (halloc : c.alloc = none)
    (hfree : P s.buffers (.kfree s.rvBcbuf)) :
    Along P s.buffers (loadBeacons s (c :: cs)) ↔
      Along P (BeaconVap.buffers ⟨c.curchan, none⟩) (loadBeacons ⟨c.curchan, none⟩ cs) := by
  rw [loadBeacons, vapLoadBeacon_lost hpass hchan halloc, List.cons_append, Along, and_iff_right hfree,
    apply_kfree_buffers]
  exact Iff.rfl

theorem along_moved (hpass : c.passes = true) (hchan : c.curchan ≠ s.niChan) (halloc : c.alloc = some b)
    (hfree : P s.buffers (.kfree s.rvBcbuf)) (hfresh : P (fun _ => none) (.alloc b c.curchan)) :
    Along P s.buffers (loadBeacons s (c :: cs)) ↔
      Along P (BeaconVap.buffers ⟨c.curchan, some b⟩)
        (updateAndSend ⟨c.curchan, some b⟩ s.rvBcbuf c ++ loadBeacons ⟨c.curchan, some b⟩ cs) := by
  rw [loadBeacons, vapLoadBeacon_moved hpass hchan halloc, List.cons_append, List.cons_append, Along, Along,
    and_iff_right hfree, apply_kfree_buffers, and_iff_right hfresh, apply_alloc_none]

end First

/-- Whatever the channels and the allocations are, a buffer is freed only while it is live. -/
theorem along_freesLive (s : BeaconVap) (cs : List LoadCall) :
    Along BufferEvent.FreesLive s.buffers (loadBeacons s cs) := by
  induction cs generalizing s with
  | nil => trivial
  | cons c cs ih =>
    cases hpass : c.passes with
    | false => exact (along_stays hpass).mpr (ih s)
    | true =>
      by_cases hchan : c.curchan = s.niChan
      · rw [along_same hpass hchan]
        exact along_updateAndSend.mpr ⟨⟨trivial, fun _ => trivial⟩, ih s⟩
      · cases halloc : c.alloc with
        | none => exact (along_lost hpass hchan halloc (freesLive_kfree s)).mpr (ih _)
        | some b =>
          rw [along_moved hpass hchan halloc (freesLive_kfree s) trivial]
          exact along_updateAndSend.mpr ⟨⟨trivial, fun _ => trivial⟩, ih _⟩

theorem along_valid_updateAndSend {s : BeaconVap} {p : Option Nat} {c : LoadCall} {es : List BufferEvent} :
    Along BufferEvent.Valid h (updateAndSend s p c ++ es) ↔
      (p = s.rvBcbuf ∧ ∃ a ∈ p, h a = some c.curchan) ∧ Along BufferEvent.Valid h es := by
  rw [along_updateAndSend]
  refine and_congr_left fun _ => ⟨fun h => h.1.2, fun h => ⟨⟨trivial, h⟩, fun _ => ⟨trivial, h⟩⟩⟩

theorem usesOwn_iff {s : BeaconVap} {c : LoadCall} (hchan : c.curchan = s.niChan) :
    (s.rvBcbuf = s.rvBcbuf ∧ ∃ a ∈ s.rvBcbuf, s.buffers a = some c.curchan) ↔ s.rvBcbuf ≠ none := by
  rw [Option.ne_none_iff_exists']
  constructor
  · rintro ⟨-, a, ha, -⟩
    exact ⟨a, ha⟩
  · rintro ⟨a, ha⟩
    refine ⟨rfl, a, ha, ?_⟩
    rw [BeaconVap.buffers, if_pos ha, hchan]

/-- The stale pointer is the new buffer just if the allocation returns the address that was freed. -/
theorem usesStale_iff {p : Option Nat} {b chan : Nat} :
    (p = some b ∧ ∃ a ∈ p, BeaconVap.buffers ⟨chan, some b⟩ a = some chan) ↔ some b = none ∨ some b = p := by
  constructor
  · intro h
    exact .inr h.1.symm
  · rintro (h | h)
    · exact absurd h (Option.some_ne_none b)
    · exact ⟨h.symm, b, h.symm, if_pos rfl⟩

theorem along_valid_iff (s : BeaconVap) (cs : List LoadCall) :
    Along BufferEvent.Valid s.buffers (loadBeacons s cs) ↔ Harmless s.rvBcbuf s.niChan cs := by
  induction cs generalizing s with
  | nil => exact Iff.rfl
  | cons c cs ih =>
    rw [Harmless]
    cases hpass : c.passes with
    | false =>
      rw [if_neg Bool.false_ne_true, along_stays hpass]
      exact ih s
    | true =>
      rw [if_pos rfl]
      by_cases hchan : c.curchan = s.niChan
      · rw [if_pos hchan, along_same hpass hchan, along_valid_updateAndSend, usesOwn_iff hchan, ih s]
      · rw [if_neg hchan]
        have hfree : BufferEvent.Valid s.buffers (.kfree s.rvBcbuf) := ⟨freesLive_kfree s, trivial⟩
        cases halloc : c.alloc with
        | none =>
          rw [along_lost hpass hchan halloc hfree, ih]
          exact (and_iff_right (.inl rfl)).symm
        | some b =>
          rw [along_moved hpass hchan halloc hfree ⟨trivial, trivial⟩, along_valid_updateAndSend,
            usesStale_iff, ih]

/-- Buffers are freed once. They are used only while they are the buffer of the vap, built for the channel,
just if no call that frees one gets another address for the next. -/
theorem beaconRun_iff (a chan : Nat) (cs : List LoadCall) :
    Along BufferEvent.FreesLive (fun _ => none) (beaconRun a chan cs) ∧
      (Along BufferEvent.Valid (fun _ => none) (beaconRun a chan cs) ↔ Harmless (some a) chan cs) := by
  rw [beaconRun, Along, Along, apply_alloc_none]
  refine ⟨⟨trivial, along_freesLive _ cs⟩, ?_⟩
  rw [along_valid_iff]
  exact and_iff_right ⟨trivial, trivial⟩

end Runs

/-- A call past the checks on a channel, with what an allocation returns. -/
def loadOn (curchan : Nat) (alloc : Option Nat) : LoadCall :=
  { vap := true, opmode := .hostap, ivState := .run, ivBss := true, curstate := .run, curchan, mcastLen := 0, alloc
    fsmState := .macInitDone }

/-- The first call on another channel updates and sends the buffer that it has freed, and after a failed
allocation the next call uses `NULL`. -/
theorem beaconRun_after_free :
    beaconRun 0x1000 1 [loadOn 6 (some 0x2000)] =
      [.alloc 0x1000 1, .kfree (some 0x1000), .alloc 0x2000 6, .beaconUpdate (some 0x1000) (some 0x2000) 6 0,
        .sendBeacon (some 0x1000) (some 0x2000) 6] ∧
    ¬ Along BufferEvent.Valid (fun _ => none) (beaconRun 0x1000 1 [loadOn 6 (some 0x2000)]) ∧
    beaconRun 0x1000 1 [loadOn 6 none, loadOn 6 none] =
      [.alloc 0x1000 1, .kfree (some 0x1000), .beaconUpdate none none 6 0, .sendBeacon none none 6] ∧
    ¬ Along BufferEvent.Valid (fun _ => none) (beaconRun 0x1000 1 [loadOn 6 none, loadOn 6 none]) := by
  refine ⟨by decide, ?_, by decide, ?_⟩
  · rintro ⟨-, -, -, ⟨-, hsame, -⟩, -⟩
    exact absurd hsame (by decide)
  · rintro ⟨-, -, ⟨-, -, a, ha, -⟩, -⟩
    exact Option.not_mem_none a ha

end Onebox
