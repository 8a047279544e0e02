import Onebox.MgmtRx
import Onebox.Multicast
import Onebox.Scan

/-! The search of `core_send_beacon` for the TIM element. Its DTIM count tells `send_beacon` whether the
multicast frames follow the beacon. -/

namespace Onebox

open ByteMem Calls Scan

def elemidTim : UInt8 := 5

/-- An information element, whose length is one byte. -/
structure InfoElement where
  id : UInt8
  body : List UInt8
  fits : body.length ≤ 255

namespace InfoElement

def bytes (e : InfoElement) : List UInt8 := e.id :: UInt8.ofNat e.body.length :: e.body

def IsTim (e : InfoElement) : Prop := e.id = elemidTim

instance (e : InfoElement) : Decidable e.IsTim := inferInstanceAs (Decidable (_ = _))

/-- A TIM element has its DTIM count, to begin with. -/
def WellFormed (e : InfoElement) : Prop := e.IsTim → e.body ≠ []

instance (e : InfoElement) : Decidable e.WellFormed := inferInstanceAs (Decidable (_ → _))

end InfoElement

/-- The loop from the index `i` on, which has 16 bits. -/
def dtimLoop (data : Nat → UInt8) (len : Nat) : Nat → Nat → Calls Nat Bool
  | 0, _ => stuck
  | fuel + 1, i =>
    if i < len then do
      let id ← cell data i
      if id = elemidTim then
        let count ← cell data (i + 2)
        pure (count == 0)
      else
        let n ← cell data (i + 1)
        dtimLoop data len fuel ((i + (n.toNat + 2)) % 2 ^ 16)
    else pure false

/-- The positions of the beacon that are read, and the flag that `onebox_send_beacon` is called with. A loop
of more rounds than there are indices does not end. -/
def coreSendBeacon (fsm : FsmState) (data : Nat → UInt8) (len : Nat) : Calls Nat (Option Bool) :=
  if len = 0 then pure none
  else if fsm ≠ .macInitDone then pure none
  else do
    let dtimBeacon ← dtimLoop data len (2 ^ 16) 36
    pure (some dtimBeacon)

/-- There is a TIM element, and the first one has the DTIM count 0. -/
def isDtim (es : List InfoElement) : Bool :=
  (es.find? fun e => e.IsTim).any fun e => e.body.head? = some 0

/-- The byte behind the length of the first TIM element is its DTIM count, or else at least the identifier of
another element, and not that of the SSID, which is 0. -/
def TimReadable : List InfoElement → Prop
  | [] => True
  | e :: es => if e.IsTim then e.body = [] → ∃ f ∈ es.head?, f.id ≠ 0 else TimReadable es

/-- The search returns, reads the beacon only, and finds out whether it is a DTIM beacon. -/
def TellsDtim (len : Nat) (es : List InfoElement) (x : Calls Nat Bool) : Prop :=
  Within len x ∧ x.result = some (isDtim es)

section Walk

variable {data : Nat → UInt8} {len fuel i : Nat} {e : InfoElement} {es : List InfoElement}

theorem isDtim_of_not_tim (he : ¬ e.IsTim) : isDtim (e :: es) = isDtim es := by
  rw [isDtim, List.find?_cons_of_neg (by simpa using he)]
  rfl

theorem isDtim_of_tim (he : e.IsTim) : isDtim (e :: es) = decide (e.body.head? = some 0) := by
  rw [isDtim, List.find?_cons_of_pos (by simpa using he)]
  rfl

theorem dtimLoop_end (hi : len ≤ i) : dtimLoop data len (fuel + 1) i = pure false := by
  rw [dtimLoop, if_neg (Nat.not_lt.mpr hi)]

theorem dtimLoop_tim (hi : i < len) (hid : data i = elemidTim) :
    dtimLoop data len (fuel + 1) i = ⟨[i, i + 2], some (data (i + 2) == 0)⟩ := by
  rw [dtimLoop, if_pos hi, bind_of_result rfl, if_pos hid]
  rfl

theorem dtimLoop_other {j : Nat} (hi : i < len) (hid : data i ≠ elemidTim)
    (hj : (i + ((data (i + 1)).toNat + 2)) % 2 ^ 16 = j) :
    dtimLoop data len (fuel + 1) i =
      ⟨i :: (i + 1) :: (dtimLoop data len fuel j).log, (dtimLoop data len fuel j).result⟩ := by
  subst hj
  rw [dtimLoop, if_pos hi, bind_of_result rfl, if_neg hid, bind_of_result rfl]
  rfl

theorem window_element (h : window data i (len - i) = (e :: es).flatMap InfoElement.bytes) :
    i + 2 + e.body.length ≤ len ∧ data i = e.id ∧ (data (i + 1)).toNat = e.body.length ∧
      window data (i + 2) (len - (i + 2)) = e.body ++ es.flatMap InfoElement.bytes := by
  rw [List.flatMap_cons, InfoElement.bytes, List.cons_append, List.cons_append] at h
  obtain ⟨hpos, hid, h⟩ := window_eq_cons h
  obtain ⟨hpos', hlength, h⟩ := window_eq_cons h
  obtain ⟨hle, -⟩ := window_eq_append h
  refine ⟨by omega, hid, ?_, ?_⟩
  · rw [hlength, UInt8.toNat_ofNat']
    exact Nat.mod_eq_of_lt (Nat.lt_succ_of_le e.fits)
  · rw [← h, Nat.sub_sub, Nat.sub_sub]

/-- Where the walk meets a TIM element, the byte it compares is the first one behind the length. -/
theorem tellsDtim_tim (hlen : i < len) (he : e.IsTim) (hid : data i = e.id)
    (h : window data (i + 2) (len - (i + 2)) = e.body ++ es.flatMap InfoElement.bytes) :
    TellsDtim len (e :: es) (dtimLoop data len (fuel + 1) i) ↔ TimReadable (e :: es) := by
  rw [TimReadable, if_pos he, TellsDtim, dtimLoop_tim hlen (hid.trans he), isDtim_of_tim he]
  cases hbody : e.body with
  | cons b bs =>
    rw [hbody] at h
    obtain ⟨hpos, hb, -⟩ := window_eq_cons h
    have hwithin : i + 2 < len := by omega
    simp [Within, hlen, hwithin, hb, beq_eq_decide]
  | nil =>
    rw [hbody] at h
    cases es with
    | nil =>
      have hend : ¬ i + 2 < len := by
        have := congrArg List.length h
        simp only [length_window, List.flatMap_nil, List.append_nil, List.length_nil] at this
        omega
      simp [Within, hend]
    | cons f fs =>
      obtain ⟨hle, hf, -⟩ := window_element h
      have hwithin : i + 2 < len := by omega
      simp [Within, hlen, hwithin, hf]

theorem tellsDtim_dtimLoop (hlen : len < 2 ^ 16) (hfuel : es.length < fuel)
    (h : window data i (len - i) = es.flatMap InfoElement.bytes) :
    TellsDtim len es (dtimLoop data len fuel i) ↔ TimReadable es := by
  induction es generalizing i fuel with
  | nil =>
    obtain ⟨fuel, rfl⟩ := Nat.exists_eq_succ_of_ne_zero (Nat.ne_of_gt hfuel)
    have hend : len ≤ i := by
      have := congrArg List.length h
      simp only [length_window, List.flatMap_nil, List.length_nil] at this
      omega
    rw [dtimLoop_end hend]
    exact ⟨fun _ => trivial, fun _ => ⟨within_pure, rfl⟩⟩
  | cons e es ih =>
    rw [List.length_cons] at hfuel
    obtain ⟨fuel, rfl⟩ := Nat.exists_eq_succ_of_ne_zero (Nat.ne_of_gt (Nat.zero_lt_of_lt hfuel))
    obtain ⟨hle, hid, hlength, hrest⟩ := window_element h
    by_cases he : e.IsTim
    · exact tellsDtim_tim (by omega) he hid hrest
    · have hnext : (i + ((data (i + 1)).toNat + 2)) % 2 ^ 16 = i + 2 + e.body.length := by
        rw [hlength, Nat.mod_eq_of_lt (by omega)]
        omega
      obtain ⟨-, hrest⟩ := window_eq_append hrest
      rw [Nat.sub_sub] at hrest
      have hwalk := ih (Nat.lt_of_succ_lt_succ hfuel) hrest
      rw [TimReadable, if_neg he, ← hwalk, TellsDtim, TellsDtim, isDtim_of_not_tim he,
        dtimLoop_other (by omega) (fun h => he (hid.symm.trans h)) hnext]
      have hi : i < len := by omega
      have hi' : i + 1 < len := by omega
      simp only [Within, List.forall_mem_cons, hi, hi', true_and]

theorem length_le_flatMap_bytes (es : List InfoElement) :
    es.length ≤ (es.flatMap InfoElement.bytes).length := by
  induction es with
  | nil => exact Nat.zero_le _
  | cons e es ih =>
    rw [List.flatMap_cons, List.length_append, List.length_cons]
    have hpos : 0 < e.bytes.length := Nat.zero_lt_succ _
    omega

/-- The whole search: there are more indices than bytes, and more bytes than elements. -/
theorem tellsDtim_search (hlen : len ≤ 2304) (h : window data 36 (len - 36) = es.flatMap InfoElement.bytes) :
    TellsDtim len es (dtimLoop data len (2 ^ 16) 36) ↔ TimReadable es := by
  have hbytes := congrArg List.length h
  have hcount := length_le_flatMap_bytes es
  rw [length_window] at hbytes
  exact tellsDtim_dtimLoop (by omega) (by omega) h

theorem coreSendBeacon_of_sent {fsm : FsmState} (hlen : len ≠ 0) (hfsm : fsm = .macInitDone) :
    coreSendBeacon fsm data len = (do let d ← dtimLoop data len (2 ^ 16) 36; pure (some d)) := by
  rw [coreSendBeacon, if_neg hlen, if_neg (not_not.mpr hfsm)]

theorem coreSendBeacon_of_dropped {fsm : FsmState} (h : len = 0 ∨ fsm ≠ .macInitDone) :
    coreSendBeacon fsm data len = pure none := by
  rw [coreSendBeacon]
  by_cases hlen : len = 0
  · rw [if_pos hlen]
  · rw [if_neg hlen, if_pos (h.resolve_left hlen)]

end Walk

/-- What the search is meant to be for every beacon: it is made for a beacon that is not dropped, and passes
on whether the beacon is a DTIM beacon. -/
def MarksDtim (fsm : FsmState) (len : Nat) (es : List InfoElement) (x : Calls Nat (Option Bool)) : Prop :=
  Within len x ∧ x.result = some (if len = 0 ∨ fsm ≠ .macInitDone then none else some (isDtim es))

instance (fsm : FsmState) (len : Nat) (es : List InfoElement) (x : Calls Nat (Option Bool)) :
    Decidable (MarksDtim fsm len es x) :=
  inferInstanceAs (Decidable (_ ∧ _))

/-- The search is right just for the beacons whose first TIM element has a byte to compare. -/
theorem marksDtim_coreSendBeacon_iff (fsm : FsmState) (data : Nat → UInt8) (len : Nat) (es : List InfoElement)
    (hlen : len ≤ 2304) (h : window data 36 (len - 36) = es.flatMap InfoElement.bytes) :
    MarksDtim fsm len es (coreSendBeacon fsm data len) ↔ (len ≠ 0 → fsm = .macInitDone → TimReadable es) := by
  rw [MarksDtim]
  by_cases hdrop : len = 0 ∨ fsm ≠ .macInitDone
  · rw [coreSendBeacon_of_dropped hdrop, if_pos hdrop]
    exact ⟨fun _ hzero hfsm => absurd hdrop (by simp [hzero, hfsm]), fun _ => ⟨within_pure, rfl⟩⟩
  · obtain ⟨hzero, hfsm⟩ := not_or.mp hdrop
    have hfsm := not_not.mp hfsm
    rw [coreSendBeacon_of_sent hzero hfsm, if_neg hdrop, within_bind_pure, result_bind_pure,
      forall_prop_of_true hzero, forall_prop_of_true hfsm, ← tellsDtim_search hlen h, TellsDtim]
    refine and_congr_right' ?_
    simp only [Option.map_eq_some_iff, Option.some.injEq, exists_eq_right]

theorem timReadable_of_wellFormed {es : List InfoElement} (h : ∀ e ∈ es, e.WellFormed) : TimReadable es := by
  induction es with
  | nil => exact trivial
  | cons e es ih =>
    obtain ⟨he, hes⟩ := List.forall_mem_cons.mp h
    rw [TimReadable]
    split
    · rename_i htim
      exact fun hbody => absurd hbody (he htim)
    · exact ih hes

/-- For every beacon that is a list of elements the search returns, reads only the beacon, and passes on
whether the first TIM element has the DTIM count 0. -/
theorem coreSendBeacon_marksDtim (fsm : FsmState) {data : Nat → UInt8} {len : Nat} {es : List InfoElement}
    (hlen : len ≤ 2304) (h : window data 36 (len - 36) = es.flatMap InfoElement.bytes)
    (hes : ∀ e ∈ es, e.WellFormed) : MarksDtim fsm len es (coreSendBeacon fsm data len) :=
  (marksDtim_coreSendBeacon_iff fsm data len es hlen h).mpr fun _ _ => timReadable_of_wellFormed hes

/-- A beacon of the elements, with a header of zeros. -/
def beaconOf (es : List InfoElement) : Nat → UInt8 := put (fun _ => 0) 36 (es.flatMap InfoElement.bytes)

def ssidElement : InfoElement := ⟨0, [], Nat.zero_le _⟩

-- without a DTIM count the search would read past the end of the beacon
example : (coreSendBeacon .macInitDone (beaconOf [⟨elemidTim, [], Nat.zero_le _⟩]) 38).log = [36, 38] := by
  decide

def dtimTim : InfoElement := ⟨elemidTim, [0, 3, 0, 0], by decide⟩

theorem coreSendBeacon_marksDtim_two :
    window (beaconOf [ssidElement, dtimTim]) 36 (44 - 36) = [ssidElement, dtimTim].flatMap InfoElement.bytes ∧
      isDtim [ssidElement, dtimTim] = true ∧
      MarksDtim .macInitDone 44 [ssidElement, dtimTim]
        (coreSendBeacon .macInitDone (beaconOf [ssidElement, dtimTim]) 44) := by
  have hbytes : window (beaconOf [ssidElement, dtimTim]) 36 (44 - 36) =
      [ssidElement, dtimTim].flatMap InfoElement.bytes := by decide
  exact ⟨hbytes, by decide, coreSendBeacon_marksDtim .macInitDone (by decide) hbytes (by decide)⟩

/-- The multicast frames that wait in the queue leave it after DTIM beacons only. -/
theorem isDtim_of_mcast_sent {α : Type} {fsm : FsmState} {data : Nat → UInt8} {es : List InfoElement}
    {c : BeaconCall α} (hlen : c.len ≤ 2304) (h : window data 36 (c.len - 36) = es.flatMap InfoElement.bytes)
    (hread : TimReadable es) (hflag : (coreSendBeacon fsm data c.len).result = some (some c.dtimBeacon))
    (hsent : c.sendBeacon.sent ≠ []) : isDtim es = true := by
  have hdtim : c.dtimBeacon = true := by
    by_contra hno
    rw [BeaconCall.sendBeacon, if_neg hno] at hsent
    split_ifs at hsent <;> exact hsent rfl
  have hkept : ¬ (c.len = 0 ∨ fsm ≠ .macInitDone) := by
    intro hdrop
    rw [coreSendBeacon_of_dropped hdrop] at hflag
    cases hflag
  obtain ⟨hzero, hfsm⟩ := not_or.mp hkept
  obtain ⟨-, hresult⟩ := (tellsDtim_search hlen h).mpr hread
  rw [coreSendBeacon_of_sent hzero (not_not.mp hfsm), result_bind_pure, hresult, hdtim] at hflag
  exact Option.some.inj (Option.some.inj hflag)

end Onebox
