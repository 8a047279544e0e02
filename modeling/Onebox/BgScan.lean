import Onebox.Ensures

/-! The channel filter of `onebox_send_bgscan_params`. The list of the frame is cleared by as many bytes as it
has entries, and the loops over the user's list and over the regulatory table have counters of one byte. -/

namespace Onebox

open Calls

def maxNumScanBgchans : Nat := 24

/-- An array `channels2scan`. -/
structure ScanList where
  entries : List UInt16
  full : entries.length = maxNumScanBgchans

/-- The channel numbers of `ic_channels`, as many as `ic_nchans` says. -/
structure RegTable where
  channels : List UInt8
  fits : channels.length ≤ 256

inductive ListAccess
  | readIoctl (ii : Nat)
  | writeFrame (jj : Nat)
  deriving DecidableEq, Repr

def ListAccess.InBounds : ListAccess → Prop
  | readIoctl i | writeFrame i => i < maxNumScanBgchans

namespace ScanList

variable (l : ScanList)

def read (ii : Nat) : Calls ListAccess UInt16 := ⟨[.readIoctl ii], l.entries[ii]?⟩

def set (jj : Nat) (c : UInt16) : ScanList := ⟨l.entries.set jj c, by rw [List.length_set, l.full]⟩

def write (jj : Nat) (c : UInt16) : Calls ListAccess ScanList :=
  ⟨[.writeFrame jj], if jj < maxNumScanBgchans then some (l.set jj c) else none⟩

/-- `memset` to zero of an even number of bytes. An entry has two. -/
def clearBytes (n : Nat) : ScanList :=
  ⟨l.entries.mapIdx fun i c => if 2 * i < n then 0 else c, by rw [List.length_mapIdx, l.full]⟩

end ScanList

/-- `bgscan_params` of the frame, and the same fields of `bgscan_params_ioctl`. -/
structure BgscanParams where
  bgscanThreshold : UInt16
  roamThreshold : UInt16
  bgscanPeriodicity : UInt16
  numBgChannels : UInt8
  twoProbe : UInt8
  activeScanDuration : UInt16
  passiveScanDuration : UInt16
  channels2scan : ScanList

structure BgscanFrame where
  descWord0 : Nat
  descWord1 : Nat
  params : BgscanParams

/-- What the vap and the adapter hold: the parameters, whether the ioctl has stored them, and the band. -/
structure BgscanVap where
  params : BgscanParams
  bgIoctl : Bool
  band5 : Bool

/-- The loop of `is_channel_valid`, with the counter `ii` of one byte. -/
def chanLoop (table : RegTable) (chnNum : Nat) : Nat → Nat → Option Bool
  | 0, _ => none
  | fuel + 1, ii =>
    if ii < table.channels.length then
      if (table.channels.getD ii 0).toNat = chnNum then some true
      else chanLoop table chnNum fuel ((ii + 1) % 2 ^ 8)
    else some false

/-- The DFS bit of the channel is cleared. A loop of more rounds than the counter has values does not end. -/
def isChannelValid (table : RegTable) (chnNum : UInt16) : Option Bool :=
  chanLoop table (chnNum &&& 0x7fff).toNat (2 ^ 8) 0

def filterRound (table : RegTable) (l : ScanList) (ii : Nat) (s : Nat × ScanList) :
    Calls ListAccess (Nat × ScanList) := do
  let c ← l.read ii
  if ← lift (isChannelValid table c) then
    let c ← l.read ii
    let frame ← s.2.write s.1 c
    pure (s.1 + 1, frame)
  else pure s

/-- The parameters that the frame gets when the ioctl has stored none. -/
def defaultBgscan (band5 : Bool) : BgscanParams :=
  { bgscanThreshold := 10, roamThreshold := 65, bgscanPeriodicity := 5
    numBgChannels := if band5 then 4 else 3
    twoProbe := 0, activeScanDuration := 20, passiveScanDuration := 50
    channels2scan :=
      ⟨(if band5 then [36, 48, 56 ||| 0x8000, 44] else [1, 6, 11, 0]) ++ List.replicate 20 0,
        by cases band5 <;> rfl⟩ }

/-- A copy of `data` whose list is that of the vap, filtered. -/
def filteredParams (table : RegTable) (stored data : BgscanParams) (defaultVal : UInt8) :
    Calls ListAccess BgscanParams := do
  let cleared := data.channels2scan.clearBytes maxNumScanBgchans
  let (jj, channels) ←
    forUpTo (filterRound table stored.channels2scan) stored.numBgChannels.toNat (0, cleared)
  pure
    { data with
      channels2scan := channels
      numBgChannels := UInt8.ofNat jj
      bgscanPeriodicity := if defaultVal = 2 then 0 else data.bgscanPeriodicity }

def bgscanFrame (p : BgscanParams) : Option BgscanFrame :=
  if p.numBgChannels = 0 then none else some ⟨(12 + 2 * maxNumScanBgchans) ||| 4 <<< 12, 22, p⟩

/-- The parameters that the vap has afterwards, and the frame if one is sent. -/
def oneboxSendBgscanParams (table : RegTable) (vap : BgscanVap) (data : BgscanParams) (defaultVal : UInt8) :
    Calls ListAccess (BgscanParams × Option BgscanFrame) :=
  if defaultVal = 1 then
    let p := if vap.bgIoctl then vap.params else defaultBgscan vap.band5
    pure (p, bgscanFrame p)
  else do
    let p ← filteredParams table vap.params data defaultVal
    pure (vap.params, bgscanFrame p)

/-- The channel is in the table, whether it is marked for DFS or not. -/
def RegTable.Has (table : RegTable) (c : UInt16) : Prop :=
  ∃ ch ∈ table.channels, ch.toNat = (c &&& 0x7fff).toNat

instance (table : RegTable) (c : UInt16) : Decidable (table.Has c) :=
  inferInstanceAs (Decidable (∃ _ ∈ _, _))

/-- The channels of the user's list. -/
def BgscanParams.listed (p : BgscanParams) : List UInt16 := p.channels2scan.entries.take p.numBgChannels.toNat

def RegTable.filter (table : RegTable) (cs : List UInt16) : List UInt16 := cs.filter fun c => table.Has c

/-- The frame has the channels of the list that are in the table, and zeros behind them. -/
structure HasChannels (cs : List UInt16) (p : BgscanParams) : Prop where
  count : p.numBgChannels.toNat = cs.length
  list : p.channels2scan.entries = cs ++ List.replicate (maxNumScanBgchans - cs.length) 0

/-- The filter as it is meant: it returns, keeps to the two arrays, and sends the channels of the list that
are in the table, if there is any. -/
def FiltersChannels (table : RegTable) (p : BgscanParams)
    (x : Calls ListAccess (BgscanParams × Option BgscanFrame)) : Prop :=
  Ensures ListAccess.InBounds
    (fun r => (r.2 = none → table.filter p.listed = []) ∧
      ∀ frame ∈ r.2, HasChannels (table.filter p.listed) frame.params) x

/-- The list is not longer than its array, the search for each channel ends, and behind the channels that are
sent and the twelve entries that are cleared there is nothing. -/
structure Filterable (table : RegTable) (p : BgscanParams) : Prop where
  count : p.numBgChannels.toNat ≤ maxNumScanBgchans
  ends : ∀ c ∈ p.listed, table.Has c ∨ table.channels.length < 256
  clean : table.filter p.listed ≠ [] →
    ∀ c ∈ p.channels2scan.entries.drop (max 12 (table.filter p.listed).length), c = 0

section Search

variable {table : RegTable} {c : UInt16} {n fuel ii k : Nat}

theorem chanLoop_of_index (hk : k < table.channels.length) (hat : (table.channels.getD k 0).toNat = n)
    (hle : ii ≤ k) (hfuel : k < ii + fuel) : chanLoop table n fuel ii = some true := by
  have hfits := table.fits
  induction fuel generalizing ii with
  | zero => omega
  | succ fuel ih =>
    rw [chanLoop, if_pos (by omega)]
    by_cases hhere : (table.channels.getD ii 0).toNat = n
    · rw [if_pos hhere]
    · have hne : ii ≠ k := fun h => hhere (h ▸ hat)
      rw [if_neg hhere, Nat.mod_eq_of_lt (by omega)]
      exact ih (by omega) (by omega)

theorem chanLoop_of_absent (hno : ∀ k < table.channels.length, (table.channels.getD k 0).toNat ≠ n)
    (hlen : table.channels.length < 256) (hii : ii ≤ table.channels.length)
    (hfuel : table.channels.length < ii + fuel) : chanLoop table n fuel ii = some false := by
  induction fuel generalizing ii with
  | zero => omega
  | succ fuel ih =>
    rw [chanLoop]
    by_cases hin : ii < table.channels.length
    · rw [if_pos hin, if_neg (hno ii hin), Nat.mod_eq_of_lt (by omega)]
      exact ih (by omega) (by omega)
    · rw [if_neg hin]

/-- In a full table the counter starts again before it reaches the end. -/
theorem chanLoop_never (hno : ∀ k < table.channels.length, (table.channels.getD k 0).toNat ≠ n)
    (hlen : 256 ≤ table.channels.length) (hii : ii < 256) : chanLoop table n fuel ii = none := by
  induction fuel generalizing ii with
  | zero => rfl
  | succ fuel ih =>
    rw [chanLoop, if_pos (by omega), if_neg (hno ii (by omega))]
    exact ih (Nat.mod_lt _ (by decide))

theorem RegTable.has_iff :
    table.Has c ↔ ∃ k < table.channels.length, (table.channels.getD k 0).toNat = (c &&& 0x7fff).toNat := by
  constructor
  · rintro ⟨ch, hch, hn⟩
    obtain ⟨k, hk, rfl⟩ := List.getElem_of_mem hch
    exact ⟨k, hk, by rw [List.getD_eq_getElem _ _ hk, hn]⟩
  · rintro ⟨k, hk, hn⟩
    rw [List.getD_eq_getElem _ _ hk] at hn
    exact ⟨_, List.getElem_mem hk, hn⟩

theorem isChannelValid_of_has (h : table.Has c) : isChannelValid table c = some true := by
  obtain ⟨k, hk, hat⟩ := RegTable.has_iff.mp h
  have hfits := table.fits
  exact chanLoop_of_index hk hat k.zero_le (by omega)

theorem isChannelValid_of_not_has (h : ¬ table.Has c) :
    isChannelValid table c = if table.channels.length < 256 then some false else none := by
  have hno : ∀ k < table.channels.length, (table.channels.getD k 0).toNat ≠ (c &&& 0x7fff).toNat :=
    fun k hk hat => h (RegTable.has_iff.mpr ⟨k, hk, hat⟩)
  by_cases hlen : table.channels.length < 256
  · rw [if_pos hlen]
    exact chanLoop_of_absent hno hlen (Nat.zero_le _) (by omega)
  · rw [if_neg hlen]
    exact chanLoop_never hno (Nat.not_lt.mp hlen) (by decide)

theorem isChannelValid_isSome :
    (isChannelValid table c).isSome ↔ table.Has c ∨ table.channels.length < 256 := by
  by_cases h : table.Has c
  · rw [isChannelValid_of_has h]
    simp [h]
  · rw [isChannelValid_of_not_has h]
    by_cases hlen : table.channels.length < 256
    · rw [if_pos hlen]
      simp [hlen]
    · rw [if_neg hlen]
      simp [h, hlen]

end Search

section Filter

variable {table : RegTable} {l : ScanList} {ii : Nat} {s : Nat × ScanList} {c : UInt16}

theorem filterRound_isSome (h : (filterRound table l ii s).result.isSome) :
    ∃ c, l.entries[ii]? = some c ∧ (isChannelValid table c).isSome := by
  rw [filterRound, isSome_result_bind] at h
  obtain ⟨c, hc, h⟩ := h
  rw [isSome_result_bind] at h
  obtain ⟨valid, hvalid, -⟩ := h
  exact ⟨c, hc, Option.isSome_iff_exists.mpr ⟨valid, hvalid⟩⟩

theorem read_eq (hc : l.entries[ii]? = some c) : l.read ii = ⟨[.readIoctl ii], some c⟩ := by
  rw [ScanList.read, hc]

theorem readIoctl_inBounds (hii : ii < maxNumScanBgchans) : ∀ e ∈ [ListAccess.readIoctl ii], e.InBounds :=
  List.forall_mem_singleton.mpr hii

theorem filterRound_of_has (hii : ii < maxNumScanBgchans) (hc : l.entries[ii]? = some c) (h : table.Has c)
    (hjj : s.1 < maxNumScanBgchans) :
    Ensures ListAccess.InBounds (· = (s.1 + 1, s.2.set s.1 c)) (filterRound table l ii s) := by
  have hwrite : s.2.write s.1 c = ⟨[.writeFrame s.1], some (s.2.set s.1 c)⟩ := by
    rw [ScanList.write, if_pos hjj]
  apply Ensures.bind_of_eq (read_eq hc) (readIoctl_inBounds hii)
  rw [isChannelValid_of_has h]
  apply Ensures.bind_of_eq rfl (List.forall_mem_nil _)
  apply Ensures.bind_of_eq (read_eq hc) (readIoctl_inBounds hii)
  apply Ensures.bind_of_eq hwrite (List.forall_mem_singleton.mpr hjj)
  exact Ensures.pure rfl

theorem filterRound_of_not_has (hii : ii < maxNumScanBgchans) (hc : l.entries[ii]? = some c)
    (h : ¬ table.Has c) (hlen : table.channels.length < 256) :
    Ensures ListAccess.InBounds (· = s) (filterRound table l ii s) := by
  apply Ensures.bind_of_eq (read_eq hc) (readIoctl_inBounds hii)
  rw [isChannelValid_of_not_has h, if_pos hlen]
  apply Ensures.bind_of_eq rfl (List.forall_mem_nil _)
  exact Ensures.pure rfl

/-- After some rounds the frame has the channels found so far, and behind them what it had before. -/
structure Filtered (old : ScanList) (found : List UInt16) (s : Nat × ScanList) : Prop where
  count : s.1 = found.length
  list : s.2.entries = found ++ old.entries.drop found.length

theorem Filtered.set {old : ScanList} {found : List UInt16} (hs : Filtered old found s)
    (hjj : s.1 < maxNumScanBgchans) (c : UInt16) : Filtered old (found ++ [c]) (s.1 + 1, s.2.set s.1 c) := by
  have hold : found.length < old.entries.length := by rw [old.full, ← hs.count]; exact hjj
  constructor
  · rw [hs.count, List.length_append]
    rfl
  · show s.2.entries.set s.1 c = _
    rw [hs.list, hs.count, List.set_append_right _ _ (Nat.le_refl _), Nat.sub_self,
      List.drop_eq_getElem_cons hold, List.set_cons_zero, List.append_assoc, List.length_append]
    rfl

theorem filter_take_succ (hc : l.entries[ii]? = some c) :
    table.filter (l.entries.take (ii + 1)) =
      table.filter (l.entries.take ii) ++ if table.Has c then [c] else [] := by
  rw [List.take_add_one, hc, RegTable.filter, List.filter_append]
  by_cases h : table.Has c <;> simp [RegTable.filter, h]

theorem ensures_filterRounds {n : Nat} (old : ScanList) (hn : n ≤ maxNumScanBgchans)
    (hends : ∀ c ∈ l.entries.take n, table.Has c ∨ table.channels.length < 256) :
    Ensures ListAccess.InBounds (Filtered old (table.filter (l.entries.take n)))
      (forUpTo (filterRound table l) n (0, old)) := by
  apply Ensures.forUpTo fun ii s => Filtered old (table.filter (l.entries.take ii)) s
  · exact ⟨rfl, rfl⟩
  · intro ii hii s hs
    have hlt : ii < l.entries.length := by rw [l.full]; omega
    have hc : l.entries[ii]? = some l.entries[ii] := List.getElem?_eq_getElem hlt
    have hmem : l.entries[ii] ∈ l.entries.take n := List.mem_take_iff_getElem.mpr ⟨ii, by omega, rfl⟩
    have hjj : s.1 < maxNumScanBgchans := by
      have hlength := List.length_filter_le (fun c => table.Has c) (l.entries.take ii)
      rw [hs.count, RegTable.filter]
      rw [List.length_take] at hlength
      omega
    rw [filter_take_succ hc]
    by_cases hhas : table.Has l.entries[ii]
    · rw [if_pos hhas]
      exact (filterRound_of_has (by omega) hc hhas hjj).mono fun t ht => ht ▸ hs.set hjj _
    · rw [if_neg hhas, List.append_nil]
      have hlen := (hends _ hmem).resolve_left hhas
      exact (filterRound_of_not_has (by omega) hc hhas hlen).mono fun t ht => ht ▸ hs

theorem forall_mem_drop_clearBytes (k : Nat) :
    (∀ c ∈ (l.clearBytes maxNumScanBgchans).entries.drop k, c = 0) ↔
      ∀ c ∈ l.entries.drop (max 12 k), c = 0 := by
  simp only [List.mem_iff_getElem?, List.getElem?_drop, forall_exists_index, ScanList.clearBytes,
    List.getElem?_mapIdx, Option.map_eq_some_iff]
  constructor
  · intro h c j hj
    obtain ⟨i, hi⟩ := Nat.exists_eq_add_of_le (Nat.le_trans (Nat.le_max_right 12 k) (Nat.le_add_right _ j))
    rw [hi] at hj
    refine h c i c ⟨hj, if_neg ?_⟩
    rw [maxNumScanBgchans]
    omega
  · intro h d i c hc
    obtain ⟨hc, rfl⟩ := hc
    by_cases hlow : 2 * (k + i) < maxNumScanBgchans
    · rw [if_pos hlow]
    · rw [if_neg hlow]
      rw [maxNumScanBgchans] at hlow
      apply h c (k + i - max 12 k)
      rw [show max 12 k + (k + i - max 12 k) = k + i by omega]
      exact hc

theorem length_filter_listed (table : RegTable) (p : BgscanParams) :
    (table.filter p.listed).length ≤ maxNumScanBgchans := by
  rw [← p.channels2scan.full]
  exact Nat.le_trans (List.length_filter_le _ _) (List.length_take_le' _ _)

/-- Behind the channels the frame has zeros just when the uncleared part of the list has. -/
theorem zeros_behind_iff (found : List UInt16) :
    found ++ (l.clearBytes maxNumScanBgchans).entries.drop found.length =
        found ++ List.replicate (maxNumScanBgchans - found.length) 0 ↔
      ∀ c ∈ l.entries.drop (max 12 found.length), c = 0 := by
  rw [List.append_cancel_left_eq, List.eq_replicate_iff, List.length_drop, (l.clearBytes _).full,
    ← forall_mem_drop_clearBytes]
  exact and_iff_right rfl

end Filter

section Frame

variable {table : RegTable} {p data : BgscanParams} {defaultVal : UInt8}

theorem of_filteredParams_isSome (h : (filteredParams table p data defaultVal).result.isSome) :
    p.numBgChannels.toNat ≤ maxNumScanBgchans ∧
      ∀ c ∈ p.listed, table.Has c ∨ table.channels.length < 256 := by
  rw [filteredParams, isSome_result_bind] at h
  obtain ⟨s, hs, -⟩ := h
  have hround : ∀ ii < p.numBgChannels.toNat, ∃ c, p.channels2scan.entries[ii]? = some c ∧
      (isChannelValid table c).isSome := by
    intro ii hii
    obtain ⟨s', hs'⟩ := result_round_of_forUpTo hii (Option.isSome_iff_exists.mpr ⟨s, hs⟩)
    exact filterRound_isSome hs'
  constructor
  · by_contra hmany
    obtain ⟨c, hc, -⟩ := hround maxNumScanBgchans (Nat.not_le.mp hmany)
    rw [List.getElem?_eq_none (Nat.le_of_eq p.channels2scan.full)] at hc
    cases hc
  · intro c hc
    obtain ⟨ii, hii, rfl⟩ := List.mem_take_iff_getElem.mp hc
    obtain ⟨d, hd, hsome⟩ := hround ii (by omega)
    rw [List.getElem?_eq_getElem (by omega)] at hd
    rw [Option.some.inj hd]
    exact isChannelValid_isSome.mp hsome

/-- The parameters of the frame after the filter, whose list has the old entries behind the channels. -/
structure Compacted (data : BgscanParams) (found : List UInt16) (q : BgscanParams) : Prop where
  count : q.numBgChannels.toNat = found.length
  list : q.channels2scan.entries =
    found ++ (data.channels2scan.clearBytes maxNumScanBgchans).entries.drop found.length

theorem compacted_filteredParams (data : BgscanParams) (defaultVal : UInt8)
    (hcount : p.numBgChannels.toNat ≤ maxNumScanBgchans)
    (hends : ∀ c ∈ p.listed, table.Has c ∨ table.channels.length < 256) :
    Ensures ListAccess.InBounds (Compacted data (table.filter p.listed))
      (filteredParams table p data defaultVal) := by
  apply (ensures_filterRounds (data.channels2scan.clearBytes maxNumScanBgchans) hcount hends).bind
  intro s hs
  have hfits : (table.filter p.listed).length ≤ 24 := length_filter_listed table p
  have hnum : (UInt8.ofNat s.1).toNat = (table.filter p.listed).length := by
    rw [UInt8.toNat_ofNat', hs.count]
    exact Nat.mod_eq_of_lt (Nat.lt_of_le_of_lt hfits (by decide))
  exact Ensures.pure ⟨hnum, hs.list⟩

theorem Compacted.sends_iff {found : List UInt16} {q : BgscanParams} (hq : Compacted data found q) :
    ((bgscanFrame q = none → found = []) ∧ ∀ frame ∈ bgscanFrame q, HasChannels found frame.params) ↔
      (found ≠ [] → ∀ c ∈ data.channels2scan.entries.drop (max 12 found.length), c = 0) := by
  rw [bgscanFrame]
  by_cases hzero : q.numBgChannels = 0
  · have hnil : found = [] := by
      have hcount := hq.count
      rw [hzero] at hcount
      exact List.length_eq_zero_iff.mp hcount.symm
    rw [if_pos hzero]
    simp [hnil]
  · have hne : found ≠ [] := by
      intro hnil
      have hcount := hq.count
      rw [hnil] at hcount
      exact hzero (UInt8.toNat_inj.mp hcount)
    rw [if_neg hzero, forall_prop_of_true hne, ← zeros_behind_iff, ← hq.list]
    constructor
    · intro h
      exact (h.2 _ rfl).list
    · intro h
      refine ⟨fun hnone => (by cases hnone), fun frame hframe => ?_⟩
      cases hframe
      exact ⟨hq.count, h⟩

/-- The call with the parameters that the ioctl has stored filters them just when they are filterable. -/
theorem filtersChannels_iff (table : RegTable) (vap : BgscanVap) (defaultVal : UInt8)
    (hdefault : defaultVal ≠ 1) :
    FiltersChannels table vap.params (oneboxSendBgscanParams table vap vap.params defaultVal) ↔
      Filterable table vap.params := by
  rw [FiltersChannels, oneboxSendBgscanParams, if_neg hdefault]
  constructor
  · intro h
    obtain ⟨r, hr, hsends⟩ := h.result
    obtain ⟨q, hq, hpure⟩ := result_bind.mp hr
    cases hpure
    obtain ⟨hcount, hends⟩ := of_filteredParams_isSome (Option.isSome_iff_exists.mpr ⟨q, hq⟩)
    have hcompact := (compacted_filteredParams vap.params defaultVal hcount hends).of_result hq
    exact ⟨hcount, hends, hcompact.sends_iff.mp hsends⟩
  · intro h
    apply (compacted_filteredParams vap.params defaultVal h.count h.ends).bind
    intro q hq
    exact Ensures.pure (hq.sends_iff.mpr h.clean)

end Frame

/-- A vap whose ioctl has stored the channels. -/
def bgscanVapOf (n : UInt8) (cs : List UInt16) : BgscanVap :=
  { params :=
      { bgscanThreshold := 10, roamThreshold := 65, bgscanPeriodicity := 5, numBgChannels := n, twoProbe := 0
        activeScanDuration := 20, passiveScanDuration := 50
        channels2scan := ⟨(cs ++ List.replicate 24 0).take 24, by simp [maxNumScanBgchans]⟩ }
    bgIoctl := true, band5 := false }

def onlyChannelOne : RegTable := ⟨[1], by decide⟩

/-- A count of 25 is followed past the array, and of fourteen channels of which one is in the table the
thirteenth and the fourteenth are still in the frame. -/
theorem longList_not_filtered :
    (ListAccess.readIoctl 24 ∈
        (oneboxSendBgscanParams onlyChannelOne (bgscanVapOf 25 [1]) (bgscanVapOf 25 [1]).params 0).log ∧
      ¬ FiltersChannels onlyChannelOne (bgscanVapOf 25 [1]).params
        (oneboxSendBgscanParams onlyChannelOne (bgscanVapOf 25 [1]) (bgscanVapOf 25 [1]).params 0)) ∧
    let vap := bgscanVapOf 14 [1, 2, 3, 4, 5, 6, 7, 8, 9, 10, 11, 12, 13, 14]
    (oneboxSendBgscanParams onlyChannelOne vap vap.params 0).result.map
        (fun r => r.2.map fun frame => (frame.params.numBgChannels, frame.params.channels2scan.entries)) =
      some (some (1, [1, 0, 0, 0, 0, 0, 0, 0, 0, 0, 0, 0, 13, 14, 0, 0, 0, 0, 0, 0, 0, 0, 0, 0])) := by
  refine ⟨⟨by decide, fun h => ?_⟩, by decide⟩
  obtain ⟨r, hr, -⟩ := h.result
  have hstuck : (oneboxSendBgscanParams onlyChannelOne (bgscanVapOf 25 [1])
      (bgscanVapOf 25 [1]).params 0).result.isSome = false := by decide
  rw [hr] at hstuck
  cases hstuck

def twoChannels : RegTable := ⟨[1, 52], by decide⟩

/-- Channel 52 is marked for DFS. -/
theorem dfsList_filtered :
    Filterable twoChannels (bgscanVapOf 3 [1, 6, 0x8034]).params ∧
      FiltersChannels twoChannels (bgscanVapOf 3 [1, 6, 0x8034]).params
        (oneboxSendBgscanParams twoChannels (bgscanVapOf 3 [1, 6, 0x8034])
          (bgscanVapOf 3 [1, 6, 0x8034]).params 0) := by
  have hzeros :
      ((bgscanVapOf 3 [1, 6, 0x8034]).params.channels2scan.entries.drop 12).all (· == 0) = true := by decide
  have hclean : Filterable twoChannels (bgscanVapOf 3 [1, 6, 0x8034]).params :=
    ⟨by decide, fun _ _ => .inr (by decide), fun _ c hc => eq_of_beq (List.all_eq_true.mp hzeros c hc)⟩
  exact ⟨hclean, (filtersChannels_iff _ _ _ (by decide)).mpr hclean⟩

end Onebox
