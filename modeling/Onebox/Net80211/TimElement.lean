import Mathlib

/-! The traffic indication element of a beacon: how `ieee80211_beacon_update` copies the bitmap of the access
point into it, and what a station reads from it. -/

namespace Onebox.Net80211

/-- Eight bits of the map as a byte of `iv_tim_bitmap`. -/
def timByte (bits : Nat → Bool) (k : Nat) : UInt8 :=
  UInt8.ofNat (Nat.ofBits fun j : Fin 8 => bits (8 * k + j))

/-- The first `n` bytes of `iv_tim_bitmap` -/
def timBytes (bits : Nat → Bool) (n : Nat) : List UInt8 := (List.range n).map (timByte bits)

/-- `isset` -/
def isset (bytes : List UInt8) (i : Nat) : Bool := (bytes.getD (i / 8) 0).toNat.testBit (i % 8)

/-- `struct ieee80211_tim_ie`, and `bo_tim_len` of the beacon offsets. -/
structure TimIe where
  timLen : UInt8 := 4
  timCount : UInt8 := 0
  timPeriod : UInt8 := 1
  timBitctl : UInt8 := 0
  timBitmap : List UInt8 := [0]
  boTimLen : Nat := 1

/-- The even offset of the first byte that is not zero; 128 is what the source takes for impossible. -/
def timOff (bytes : List UInt8) : Nat :=
  match bytes.findIdx? (· != 0) with
  | some i => i - i % 2
  | none => 128

/-- The loop from byte `i` down to the last byte that is not zero. -/
def timLast (bytes : List UInt8) (timoff : Nat) : Nat → Nat
  | 0 => 0
  | i + 1 =>
    if i + 1 < timoff then i + 1
    else if bytes.getD (i + 1) 0 != 0 then i + 1
    else timLast bytes timoff i

/-- The offset and the length of the partial bitmap. -/
def timRange (bytes : List UInt8) (pending : Bool) : Nat × Nat :=
  if pending then (timOff bytes, 1 + (timLast bytes (timOff bytes) (bytes.length - 1) - timOff bytes))
  else (0, 1)

namespace TimIe

/-- The part of `ieee80211_beacon_update` for `IEEE80211_BEACON_TIM`: the offset is written only when the
length changes. -/
def update (tie : TimIe) (bytes : List UInt8) (pending : Bool) : TimIe :=
  let timoff := (timRange bytes pending).1
  let timlen := (timRange bytes pending).2
  let tie := if timlen ≠ tie.boTimLen then
      { tie with boTimLen := timlen, timLen := UInt8.ofNat (3 + timlen), timBitctl := UInt8.ofNat timoff }
    else tie
  { tie with timBitmap := (bytes.drop timoff).take tie.boTimLen }

/-- The count of beacons to the next DTIM, and the bit for multicast frames. -/
def countDown (tie : TimIe) (mcast : Bool) : TimIe :=
  let count := if tie.timCount = 0 then tie.timPeriod - 1 else tie.timCount - 1
  { tie with
    timCount := count
    timBitctl := if mcast ∧ count = 0 then tie.timBitctl ||| 1 else tie.timBitctl &&& 0xfe }

/-- The offset of the partial bitmap, `tim_bitctl &~ 1`. -/
def offset (tie : TimIe) : Nat := (tie.timBitctl &&& 0xfe).toNat

/-- The station with an identifier is told that frames wait for it, as a station reads the element. -/
def announces (tie : TimIe) (aid : Nat) : Bool :=
  tie.offset ≤ aid / 8 && aid / 8 + 4 ≤ tie.timLen.toNat + tie.offset &&
    isset tie.timBitmap (aid - 8 * tie.offset)

end TimIe

/-! ## The bytes of the map -/

variable {bits : Nat → Bool} {bytes : List UInt8} {n i k : Nat}

theorem testBit_timByte (j : Nat) (hj : j < 8) : (timByte bits k).toNat.testBit j = bits (8 * k + j) := by
  have hlt : Nat.ofBits (fun j : Fin 8 => bits (8 * k + j)) < 2 ^ 8 := Nat.ofBits_lt_two_pow _
  rw [timByte, UInt8.toNat_ofNat_of_lt' hlt, Nat.testBit_ofBits_lt _ _ hj]

theorem isset_timBytes (h : i / 8 < n) : isset (timBytes bits n) i = bits i := by
  rw [isset, timBytes, List.getD_eq_getElem?_getD, List.getElem?_map, List.getElem?_range h, Option.map_some,
    Option.getD_some, testBit_timByte _ (Nat.mod_lt _ (by decide)), Nat.div_add_mod]

theorem isset_byte (h : isset bytes i = true) : bytes.getD (i / 8) 0 ≠ 0 := by
  intro hzero
  rw [isset, hzero] at h
  simp at h

theorem exists_isset (h : bytes.getD k 0 ≠ 0) : ∃ j < 8, isset bytes (8 * k + j) = true := by
  have hne : (bytes.getD k 0).toNat ≠ 0 := fun hzero => h (UInt8.toNat_inj.mp hzero)
  obtain ⟨j, hj⟩ := Nat.exists_testBit_of_ne_zero hne
  have hlt : j < 8 := by
    by_contra hge
    have hbyte : (bytes.getD k 0).toNat < 2 ^ j :=
      lt_of_lt_of_le (UInt8.toNat_lt _) (Nat.pow_le_pow_right (by decide) (not_lt.mp hge))
    rw [Nat.testBit_lt_two_pow hbyte] at hj
    cases hj
  refine ⟨j, hlt, ?_⟩
  rw [isset, show (8 * k + j) / 8 = k by omega, show (8 * k + j) % 8 = j by omega]
  exact hj

theorem isset_take_drop (off len : Nat) :
    isset ((bytes.drop off).take len) i = (decide (i / 8 < len) && isset bytes (i + 8 * off)) := by
  rw [isset, isset, show (i + 8 * off) / 8 = off + i / 8 by omega, show (i + 8 * off) % 8 = i % 8 by omega,
    List.getD_eq_getElem?_getD, List.getD_eq_getElem?_getD, List.getElem?_take]
  by_cases hlt : i / 8 < len
  · rw [if_pos hlt, List.getElem?_drop, decide_eq_true hlt, Bool.true_and]
  · rw [if_neg hlt, decide_eq_false hlt, Bool.false_and]
    simp

/-! ## The part of the map that is copied -/

/-- The part has all the bytes that are not zero, and its offset is even and that of the first of them. -/
structure Trimmed (bytes : List UInt8) (off len : Nat) : Prop where
  even : off % 2 = 0
  pos : 1 ≤ len
  fits : off + len ≤ bytes.length
  covers : ∀ k, bytes.getD k 0 ≠ 0 → off ≤ k ∧ k < off + len

theorem lt_length_of_getD (h : bytes.getD k 0 ≠ 0) : k < bytes.length := by
  by_contra hge
  exact h (List.getD_eq_default _ _ (not_lt.mp hge))

theorem timOff_spec (h : bytes.getD k 0 ≠ 0) :
    ∃ f, bytes.getD f 0 ≠ 0 ∧ timOff bytes = f - f % 2 ∧ ∀ j, bytes.getD j 0 ≠ 0 → f ≤ j := by
  have hk := lt_length_of_getD h
  cases hfind : bytes.findIdx? (· != 0) with
  | none =>
    have hzero := List.findIdx?_eq_none_iff.mp hfind bytes[k] (List.getElem_mem hk)
    rw [List.getD_eq_getElem _ _ hk] at h
    exact absurd hzero (by simpa using h)
  | some f =>
    obtain ⟨hf, hne, hmin⟩ := List.findIdx?_eq_some_iff_getElem.mp hfind
    refine ⟨f, ?_, by rw [timOff, hfind], fun j hj => ?_⟩
    · rw [List.getD_eq_getElem _ _ hf]
      simpa using hne
    · by_contra hlt
      have hjlen := lt_length_of_getD hj
      rw [List.getD_eq_getElem _ _ hjlen] at hj
      exact hmin j (by omega) (by simpa using hj)

theorem timLast_spec {off : Nat} (hk : bytes.getD k 0 ≠ 0) (hoff : off ≤ k) (hki : k ≤ i) :
    k ≤ timLast bytes off i ∧ timLast bytes off i ≤ i ∧
      ∀ j, timLast bytes off i < j → j ≤ i → bytes.getD j 0 = 0 := by
  induction i with
  | zero => exact ⟨by rw [timLast]; omega, le_rfl, fun j hlt hle => by rw [timLast] at hlt; omega⟩
  | succ i ih =>
    rw [timLast, if_neg (by omega)]
    by_cases hzero : bytes.getD (i + 1) 0 = 0
    · have hle : k ≤ i := by
        by_contra hgt
        exact hk (by rw [show k = i + 1 by omega]; exact hzero)
      obtain ⟨hlow, hup, hrest⟩ := ih hle
      rw [if_neg fun hne => bne_iff_ne.mp hne hzero]
      refine ⟨hlow, by omega, fun j hlt hji => ?_⟩
      rcases Nat.lt_or_ge i j with hij | hij
      · rw [show j = i + 1 by omega]
        exact hzero
      · exact hrest j hlt hij
    · rw [if_pos (bne_iff_ne.mpr hzero)]
      exact ⟨hki, le_rfl, fun j hlt hle => absurd hlt (by omega)⟩

/-- With a byte that is not zero, the assertion of the source holds and the part is as it should be. -/
theorem timRange_spec (h : bytes.getD k 0 ≠ 0) :
    Trimmed bytes (timRange bytes true).1 (timRange bytes true).2 ∧
      ∃ f, bytes.getD f 0 ≠ 0 ∧ (timRange bytes true).1 = f - f % 2 ∧ ∀ j, bytes.getD j 0 ≠ 0 → f ≤ j := by
  obtain ⟨f, hf, hoff, hmin⟩ := timOff_spec h
  have hlen := lt_length_of_getD hf
  rw [timRange, if_pos rfl]
  obtain ⟨hlow, hup, hrest⟩ := timLast_spec hf (show timOff bytes ≤ f by omega)
    (show f ≤ bytes.length - 1 by omega)
  refine ⟨⟨?_, ?_, ?_, fun j hj => ?_⟩, f, hf, hoff, hmin⟩
  · dsimp only
    omega
  · exact Nat.le_add_right 1 _
  · dsimp only
    omega
  · have hjlen := lt_length_of_getD hj
    have hfj := hmin j hj
    dsimp only
    refine ⟨by omega, ?_⟩
    by_contra hge
    exact hj (hrest j (by omega) (by omega))

/-- The length and the offset fit the fields of the element. -/
theorem timRange_bounds {pending : Bool} (hlen : bytes.length ≤ 251)
    (h : pending = true → ∃ k, bytes.getD k 0 ≠ 0) :
    (timRange bytes pending).2 ≤ 251 ∧ (timRange bytes pending).1 ≤ bytes.length ∧
      (timRange bytes pending).1 % 2 = 0 := by
  cases pending with
  | false => exact ⟨Nat.le_add_left 1 250, Nat.zero_le _, rfl⟩
  | true =>
    obtain ⟨k, hk⟩ := h rfl
    have htrim := (timRange_spec hk).1
    have hfits := htrim.fits
    exact ⟨by omega, by omega, htrim.even⟩

/-! ## What the element says after an update -/

namespace TimIe

variable {tie : TimIe} {pending : Bool} {aid : Nat}

/-- The length field agrees with the length of the partial bitmap. -/
def Ok (tie : TimIe) : Prop := tie.timLen.toNat = 3 + tie.boTimLen

theorem and_fe (n : Fin 256) : n.val &&& 254 = n.val - n.val % 2 := by
  revert n
  decide +kernel

theorem toNat_and_fe (b : UInt8) : (b &&& 0xfe).toNat = b.toNat - b.toNat % 2 := by
  rw [UInt8.toNat_and]
  exact and_fe ⟨b.toNat, b.toNat_lt⟩

theorem offset_countDown (mcast : Bool) : (tie.countDown mcast).offset = tie.offset := by
  have hmask : ∀ m : Bool, (if m then tie.timBitctl ||| 1 else tie.timBitctl &&& 0xfe) &&& 0xfe =
      tie.timBitctl &&& 0xfe := by
    intro m
    cases m with
    | true =>
      apply UInt8.toNat_inj.mp
      rw [if_pos rfl, UInt8.toNat_and, UInt8.toNat_or, Nat.and_or_distrib_right, UInt8.toNat_and]
      exact Nat.or_zero _
    | false => rw [if_neg Bool.false_ne_true, UInt8.and_assoc, UInt8.and_self]
  have hcount := hmask (mcast && (tie.countDown mcast).timCount == 0)
  simp only [Bool.and_eq_true, beq_iff_eq] at hcount
  exact congrArg UInt8.toNat hcount

theorem announces_countDown (mcast : Bool) : (tie.countDown mcast).announces aid = tie.announces aid := by
  rw [announces, announces, offset_countDown]
  rfl

theorem update_spec (hok : tie.Ok) (hlen : (timRange bytes pending).2 ≤ 251)
    (hoff : (timRange bytes pending).1 < 256) (heven : (timRange bytes pending).1 % 2 = 0) :
    (tie.update bytes pending).Ok ∧
      (tie.update bytes pending).boTimLen = (timRange bytes pending).2 ∧
      (tie.update bytes pending).timBitmap =
        (bytes.drop (timRange bytes pending).1).take (timRange bytes pending).2 ∧
      (tie.update bytes pending).offset =
        if (timRange bytes pending).2 ≠ tie.boTimLen then (timRange bytes pending).1 else tie.offset := by
  rw [update]
  dsimp only
  split
  · next hchange =>
    refine ⟨?_, rfl, rfl, ?_⟩
    · exact UInt8.toNat_ofNat_of_lt' (show 3 + (timRange bytes pending).2 < 256 by omega)
    · rw [offset, toNat_and_fe, UInt8.toNat_ofNat_of_lt' hoff]
      omega
  · next hsame =>
    have hlen' := not_not.mp hsame
    exact ⟨hok, hlen'.symm, by rw [hlen'], rfl⟩

theorem announces_update (hok : tie.Ok) (hlen : (timRange bytes pending).2 ≤ 251)
    (hoff : (timRange bytes pending).1 < 256) (heven : (timRange bytes pending).1 % 2 = 0) (aid : Nat) :
    (tie.update bytes pending).announces aid = true ↔
      (tie.update bytes pending).offset ≤ aid / 8 ∧
      aid / 8 < (tie.update bytes pending).offset + (timRange bytes pending).2 ∧
      isset bytes (aid - 8 * (tie.update bytes pending).offset + 8 * (timRange bytes pending).1) = true := by
  obtain ⟨hok', hbo, hmap, -⟩ := update_spec hok hlen hoff heven
  rw [Ok, hbo] at hok'
  generalize (tie.update bytes pending) = tie' at hok' hmap
  rw [announces, hmap, isset_take_drop, hok']
  simp only [Bool.and_eq_true, decide_eq_true_eq]
  constructor
  · rintro ⟨⟨hlow, hup⟩, hin, hset⟩
    exact ⟨hlow, by omega, hset⟩
  · rintro ⟨hlow, hup, hset⟩
    exact ⟨⟨hlow, by omega⟩, by omega, hset⟩

/-- The element announces exactly the stations of the map. -/
def Shows (tie : TimIe) (bytes : List UInt8) : Prop := ∀ aid, tie.announces aid = isset bytes aid

/-- After an update with a byte that is not zero, the element is right exactly if its offset is. -/
theorem shows_update_iff {k : Nat} (hok : tie.Ok) (hbytes : bytes.length ≤ 251) (hk : bytes.getD k 0 ≠ 0) :
    (tie.update bytes true).Shows bytes ↔
      (timRange bytes true).2 ≠ tie.boTimLen ∨ tie.offset = (timRange bytes true).1 := by
  obtain ⟨htrim, f, hf, hfirst, hmin⟩ := timRange_spec hk
  have hfits := htrim.fits
  have hpos := htrim.pos
  have hlen : (timRange bytes true).2 ≤ 251 := by omega
  have hoff : (timRange bytes true).1 < 256 := by omega
  have hann := announces_update hok hlen hoff htrim.even
  have hspec := (update_spec hok hlen hoff htrim.even).2.2.2
  have hmoved : (tie.update bytes true).offset = (timRange bytes true).1 ↔
      (timRange bytes true).2 ≠ tie.boTimLen ∨ tie.offset = (timRange bytes true).1 := by
    rw [hspec]
    split
    · next h => simp [h]
    · next h => simp [not_not.mp h]
  rw [← hmoved]
  generalize (timRange bytes true).1 = off at *
  generalize (timRange bytes true).2 = len at *
  generalize (tie.update bytes true) = tie' at *
  constructor
  · intro hshows
    obtain ⟨j, hj, hset⟩ := exists_isset hf
    -- the first station is announced, so the offset is not too large
    have hfound := (hann (8 * f + j)).mp ((hshows _).trans hset)
    have hlow := hmin _ (isset_byte hfound.2.2)
    -- what the first byte of the part announces is a station, so the offset is not too small
    have hcovers := htrim.covers f hf
    have hback : 8 * (f - off + tie'.offset) + j - 8 * tie'.offset + 8 * off = 8 * f + j := by omega
    have hshift := (hann (8 * (f - off + tie'.offset) + j)).mpr ⟨by omega, by omega, hback ▸ hset⟩
    have hup := hmin _ (isset_byte ((hshows _).symm.trans hshift))
    omega
  · intro heq aid
    rw [Bool.eq_iff_iff, hann aid, heq]
    constructor
    · rintro ⟨hlow, hup, hset⟩
      rwa [show aid - 8 * off + 8 * off = aid by omega] at hset
    · intro hset
      obtain ⟨hlow, hup⟩ := htrim.covers _ (isset_byte hset)
      exact ⟨hlow, hup, by rwa [show aid - 8 * off + 8 * off = aid by omega]⟩

-- a lone station with an identifier of 16 or more is announced under another one
example : ((({} : TimIe).update (timBytes (· == 20) 4) true).announces 20,
    (({} : TimIe).update (timBytes (· == 20) 4) true).announces 4) = (false, true) := by decide

theorem shows_update_none (hok : tie.Ok) (hzero : ∀ k, bytes.getD k 0 = 0) :
    (tie.update bytes false).Shows bytes := by
  have hann := announces_update hok (show (timRange bytes false).2 ≤ 251 from Nat.le_add_left 1 250)
    (show (timRange bytes false).1 < 256 from Nat.zero_lt_succ 255)
    (show (timRange bytes false).1 % 2 = 0 from rfl)
  intro aid
  rw [Bool.eq_iff_iff]
  constructor
  · intro h
    exact absurd (hzero _) (isset_byte ((hann aid).mp h).2.2)
  · intro h
    exact absurd (hzero _) (isset_byte h)

theorem ok_update (hok : tie.Ok) (hlen : bytes.length ≤ 251)
    (h : pending = true → ∃ k, bytes.getD k 0 ≠ 0) : (tie.update bytes pending).Ok := by
  obtain ⟨hpart, hoff, heven⟩ := timRange_bounds hlen h
  exact (update_spec hok hpart (by omega) heven).1

/-- A map with nothing beyond its first two bytes has no other offset than zero. -/
theorem offset_update (hok : tie.Ok) (hlen : bytes.length ≤ 251) (hlow : ∀ k, bytes.getD k 0 ≠ 0 → k < 2)
    (h : pending = true → ∃ k, bytes.getD k 0 ≠ 0) (hoff : tie.offset = 0) :
    (timRange bytes pending).1 = 0 ∧ (tie.update bytes pending).offset = 0 := by
  obtain ⟨hpart, hle, heven⟩ := timRange_bounds hlen h
  have hzero : (timRange bytes pending).1 = 0 := by
    cases pending with
    | false => rfl
    | true =>
      obtain ⟨k, hk⟩ := h rfl
      obtain ⟨-, f, hf, hoff, -⟩ := timRange_spec hk
      have hfirst := hlow f hf
      omega
  refine ⟨hzero, ?_⟩
  rw [(update_spec hok hpart (by omega) heven).2.2.2, hzero, hoff, ite_self]

end TimIe

end Onebox.Net80211
