import Onebox.Minstrel

/-! The sampling table. Each insertion finds a free row of its column, so a column becomes a permutation of
the rates above the first one, and the cursor goes down one column after the other. -/

namespace Onebox

open Calls

section Insertion

variable {P : MinstrelEvent → Prop} {table : Nat → UInt8} {n col : Nat}

theorem probeFrom_ensures (hP : ∀ row < n, P (.sample (sampleTbl row col))) {fuel newIdx k : Nat}
    (hidx : newIdx < n) (hk : k < fuel) (hfree : table (sampleTbl ((newIdx + k) % n) col) = 0) :
    Ensures P (fun row => row < n ∧ table (sampleTbl row col) = 0) (probeFrom table n col fuel newIdx) := by
  -- the distance to a free row is smaller after each step
  induction fuel generalizing newIdx k with
  | zero => exact absurd hk (Nat.not_lt_zero k)
  | succ fuel ih =>
    rw [probeFrom]
    refine Ensures.bind_emit (hP newIdx hidx) ?_
    by_cases hempty : table (sampleTbl newIdx col) = 0
    · rw [if_neg (not_not_intro hempty)]
      exact Ensures.pure ⟨hidx, hempty⟩
    · rw [if_pos hempty]
      cases k with
      | zero =>
        rw [Nat.add_zero, Nat.mod_eq_of_lt hidx] at hfree
        exact absurd hfree hempty
      | succ k =>
        refine ih (Nat.mod_lt _ (by omega)) (k := k) (by omega) ?_
        rwa [Nat.mod_add_mod, Nat.add_assoc, Nat.add_comm 1 k]

theorem exists_add_mod_eq {a b : Nat} (ha : a < n) (hb : b < n) : ∃ k < n, (a + k) % n = b := by
  refine ⟨(b + (n - a)) % n, Nat.mod_lt _ (by omega), ?_⟩
  rw [Nat.add_mod_mod, show a + (b + (n - a)) = b + n by omega, Nat.add_mod_right, Nat.mod_eq_of_lt hb]

/-- The rows of a column below `n`. -/
def columnRows (table : Nat → UInt8) (n col : Nat) : List Nat :=
  (List.range n).map fun row => (table (sampleTbl row col)).toNat

/-- The column has the values up to `i`, and its other rows are free. -/
def FilledTo (n col i : Nat) (table : Nat → UInt8) : Prop :=
  (columnRows table n col).Perm (List.range' 1 i ++ List.replicate (n - i) 0)

theorem sampleTbl_inj {row row' c : Nat} (hcol : col < sampleColumns) (hc : c < sampleColumns)
    (h : sampleTbl row' c = sampleTbl row col) : row' = row ∧ c = col := by
  rw [sampleColumns] at hcol hc
  rw [sampleTbl, sampleTbl, sampleColumns] at h
  omega

theorem sampleTbl_lt {row : Nat} (hrow : row < n) (hcol : col < sampleColumns) :
    sampleTbl row col < sampleColumns * n := by
  rw [sampleTbl]
  rw [sampleColumns] at hcol ⊢
  omega

theorem columnRows_update {row : Nat} {v : UInt8} (hcol : col < sampleColumns) :
    columnRows (Function.update table (sampleTbl row col) v) n col =
      (columnRows table n col).set row v.toNat := by
  refine List.ext_getElem (by simp [columnRows]) fun k hk hk' => ?_
  rw [List.getElem_set]
  simp only [columnRows, List.getElem_map, List.getElem_range, Function.update_apply]
  by_cases h : row = k
  · simp [h]
  · rw [if_neg h, if_neg fun he => h (sampleTbl_inj hcol hcol he).1.symm]

/-- Two tables that differ in the rows of one column only. -/
def SameOutside (n col : Nat) (t table : Nat → UInt8) : Prop :=
  ∀ cell, (∀ row < n, cell ≠ sampleTbl row col) → t cell = table cell

theorem SameOutside.columnRows_eq {t : Nat → UInt8} {c : Nat} (h : SameOutside n col t table)
    (hcol : col < sampleColumns) (hc : c < sampleColumns) (hne : c ≠ col) :
    columnRows t n c = columnRows table n c := by
  refine List.map_congr_left fun row _ => ?_
  rw [h _ fun row' _ he => hne (sampleTbl_inj hcol hc he).2]

theorem FilledTo.exists_free {i : Nat} (h : FilledTo n col i table) (hi : i < n) :
    ∃ row < n, table (sampleTbl row col) = 0 := by
  have hzero : 0 ∈ List.range' 1 i ++ List.replicate (n - i) 0 :=
    List.mem_append_right _ (List.mem_replicate.mpr ⟨by omega, rfl⟩)
  obtain ⟨row, hrow, hval⟩ := List.mem_map.mp (h.mem_iff.mpr hzero)
  exact ⟨row, List.mem_range.mp hrow, UInt8.toNat_inj.mp hval⟩

theorem FilledTo.insert {i row : Nat} (h : FilledTo n col i table) (hcol : col < sampleColumns) (hi : i < n)
    (hn : n < 256) (hrow : row < n) (hfree : table (sampleTbl row col) = 0) :
    FilledTo n col (i + 1) (Function.update table (sampleTbl row col) (UInt8.ofNat (i + 1))) := by
  have hlen : row < (columnRows table n col).length := by simpa [columnRows] using hrow
  have hget : (columnRows table n col)[row] = 0 := by simp [columnRows, hfree]
  have hval : (UInt8.ofNat (i + 1)).toNat = i + 1 := UInt8.toNat_ofNat_of_lt' (by rw [UInt8.size]; omega)
  -- the other rows, which the store leaves
  have hrest : ((columnRows table n col).eraseIdx row).Perm
      (List.range' 1 i ++ List.replicate (n - (i + 1)) 0) := by
    have hsplit : List.replicate (n - i) 0 = 0 :: List.replicate (n - (i + 1)) 0 := by
      rw [← List.replicate_succ]
      congr 1
      omega
    have hbefore := (List.getElem_cons_eraseIdx_perm hlen).trans h
    rw [hget, hsplit] at hbefore
    exact List.Perm.cons_inv (hbefore.trans List.perm_middle)
  rw [FilledTo, columnRows_update hcol, hval, List.range'_concat]
  refine (List.set_perm_cons_eraseIdx hlen _).trans ((hrest.cons _).trans ?_)
  rw [List.append_assoc, Nat.one_mul, Nat.add_comm 1 i]
  exact List.perm_middle.symm

variable {rnd : Nat → UInt8}

theorem insertSample_ensures (hP : ∀ row < n, P (.sample (sampleTbl row col))) (hcol : col < sampleColumns)
    (hn : n < 256) {i : Nat} (hi : i < n) (h : FilledTo n col i table) :
    Ensures P (fun t => FilledTo n col (i + 1) t ∧ SameOutside n col t table)
      (insertSample rnd n col i table) := by
  obtain ⟨free, hfree, hempty⟩ := h.exists_free hi
  have hstart : (i + (rnd (8 * (col * n + i) + i % 8)).toNat) % n < n := Nat.mod_lt _ (by omega)
  obtain ⟨k, hk, hto⟩ := exists_add_mod_eq hstart hfree
  refine (probeFrom_ensures hP hstart hk (hto ▸ hempty)).bind fun row hrow => ?_
  refine Ensures.bind_emit (hP row hrow.1) (Ensures.pure ⟨h.insert hcol hi hn hrow.1 hrow.2, ?_⟩)
  exact fun cell hcell => Function.update_of_ne (hcell row hrow.1) _ _

theorem fillColumn_ensures (hP : ∀ row < n, P (.sample (sampleTbl row col))) (hcol : col < sampleColumns)
    (hn : n < 256) (h : FilledTo n col 0 table) :
    Ensures P (fun t => FilledTo n col n t ∧ SameOutside n col t table)
      (forUpTo (insertSample rnd n col) n table) := by
  refine Ensures.forUpTo (fun i t => FilledTo n col i t ∧ SameOutside n col t table) ⟨h, fun _ _ => rfl⟩ ?_
  intro i hi t ht
  refine (insertSample_ensures hP hcol hn hi ht.1).mono fun t' ht' => ⟨ht'.1, fun cell hcell => ?_⟩
  rw [ht'.2 cell hcell, ht.2 cell hcell]

theorem clearSamples_ensures (hP : ∀ cell < n, P (.sample cell)) :
    Ensures P (fun t : Nat → UInt8 => ∀ cell, t cell = if cell < n then 0 else table cell)
      (clearSamples n table) := by
  refine Ensures.forUpTo (fun i (t : Nat → UInt8) => ∀ cell, t cell = if cell < i then 0 else table cell)
    (fun cell => by simp) ?_
  intro i hi t ht
  refine Ensures.bind_emit (hP i hi) (Ensures.pure fun cell => ?_)
  rw [Function.update_apply, ht cell]
  split_ifs <;> first | rfl | omega

end Insertion

/-- Each column of the table is a permutation of the rates above the first one. -/
def MinstrelNode.Covering (mi : MinstrelNode) : Prop :=
  ∀ col < sampleColumns, (columnRows mi.sampleTable (mi.nRates - 1) col).Perm (List.range' 1 (mi.nRates - 1))

section Filling

variable {P : MinstrelEvent → Prop} {table : Nat → UInt8} {n : Nat} {rnd : Nat → UInt8}

theorem filled_of_clear {col : Nat} (hcol : col < sampleColumns)
    (h : ∀ cell < sampleColumns * n, table cell = 0) : FilledTo n col 0 table := by
  have hrows : columnRows table n col = List.replicate n 0 := by
    refine List.eq_replicate_iff.mpr ⟨by simp [columnRows], fun v hv => ?_⟩
    obtain ⟨row, hrow, rfl⟩ := List.mem_map.mp hv
    rw [h _ (sampleTbl_lt (List.mem_range.mp hrow) hcol)]
    rfl
  rw [FilledTo, hrows]
  exact List.Perm.refl _

theorem fillColumns_ensures (hP : ∀ cell < sampleColumns * n, P (.sample cell)) (hn : n < 256)
    (h : ∀ cell < sampleColumns * n, table cell = 0) :
    Ensures P (fun t => (∀ col < sampleColumns, FilledTo n col n t) ∧
        ∀ cell, sampleColumns * n ≤ cell → t cell = table cell)
      (forUpTo (fun col => forUpTo (insertSample rnd n col) n) sampleColumns table) := by
  -- the columns before the current one are filled, the others are free
  refine (Ensures.forUpTo (fun col t =>
    (∀ c < sampleColumns, FilledTo n c (if c < col then n else 0) t) ∧
      ∀ cell, sampleColumns * n ≤ cell → t cell = table cell) ?_ ?_).mono fun t ht =>
        ⟨fun col hcol => ?_, ht.2⟩
  · exact ⟨fun col hcol => filled_of_clear hcol h, fun _ _ => rfl⟩
  · intro col hcol t ht
    have hcur := ht.1 col hcol
    rw [if_neg (Nat.lt_irrefl col)] at hcur
    have hrow : ∀ row < n, P (.sample (sampleTbl row col)) := fun row hrow => hP _ (sampleTbl_lt hrow hcol)
    refine (fillColumn_ensures hrow hcol hn hcur).mono fun t' ht' => ⟨fun c hc => ?_, fun cell hcell => ?_⟩
    · by_cases hne : c = col
      · rw [hne, if_pos (Nat.lt_succ_self col)]
        exact ht'.1
      · have hsame := ht.1 c hc
        rw [FilledTo] at hsame ⊢
        rw [ht'.2.columnRows_eq hcol hc hne]
        simpa only [show c < col + 1 ↔ c < col by omega] using hsame
    · rw [ht'.2 cell fun row hrow => ?_, ht.2 cell hcell]
      exact Nat.ne_of_gt (Nat.lt_of_lt_of_le (sampleTbl_lt hrow hcol) hcell)
  · have hfull := ht.1 col hcol
    rwa [if_pos hcol] at hfull

end Filling

/-- Besides its columns the table has one more row, which is cleared. -/
theorem initSampleTable_ensures {P : MinstrelEvent → Prop} {mi : MinstrelNode} {rnd : Nat → UInt8}
    (hP : ∀ cell < sampleColumns * mi.nRates, P (.sample cell)) (hn : mi.nRates ≤ 256) :
    Ensures P (fun mi' => mi'.Covering ∧
        (∀ cell, sampleColumns * (mi.nRates - 1) ≤ cell → mi'.sampleTable cell =
          if cell < sampleColumns * mi.nRates then 0 else mi.sampleTable cell) ∧
        mi' = { mi with sampleColumn := 0, sampleIdx := 0, sampleTable := mi'.sampleTable })
      (initSampleTable rnd mi) := by
  have hle : sampleColumns * (mi.nRates - 1) ≤ sampleColumns * mi.nRates := by
    rw [sampleColumns]
    omega
  refine (clearSamples_ensures hP).bind fun table htable => ?_
  have hclear : ∀ cell < sampleColumns * (mi.nRates - 1), table cell = 0 := by
    intro cell hcell
    rw [htable, if_pos (Nat.lt_of_lt_of_le hcell hle)]
  have hcell : ∀ cell < sampleColumns * (mi.nRates - 1), P (.sample cell) :=
    fun cell hcell => hP cell (Nat.lt_of_lt_of_le hcell hle)
  refine (fillColumns_ensures hcell (by omega) hclear).bind fun t ht => Ensures.pure ⟨?_, ?_, rfl⟩
  · intro col hcol
    have hfull := ht.1 col hcol
    rwa [FilledTo, Nat.sub_self, List.replicate_zero, List.append_nil] at hfull
  · exact fun cell hcell => (ht.2 cell hcell).trans (htable cell)

/-! The cursor. -/

def MinstrelNode.afterSample (mi : MinstrelNode) : MinstrelNode :=
  if mi.sampleIdx + 2 < mi.nRates then { mi with sampleIdx := mi.sampleIdx + 1 }
  else
    { mi with
      sampleIdx := 0
      sampleColumn := if sampleColumns ≤ mi.sampleColumn + 1 then 0 else mi.sampleColumn + 1 }

theorem minstrelGetNextSample_eq {mi : MinstrelNode} (hidx : mi.sampleIdx + 1 < mi.nRates)
    (hn : mi.nRates < 2 ^ 32) :
    minstrelGetNextSample mi = ⟨[.sample (sampleTbl mi.sampleIdx mi.sampleColumn)],
      some ((mi.sampleTable (sampleTbl mi.sampleIdx mi.sampleColumn)).toNat, mi.afterSample)⟩ := by
  have hlast : (((mi.nRates : Int) - 2) % 2 ^ 32).toNat = mi.nRates - 2 := by omega
  have hnext : (mi.sampleIdx + 1) % 2 ^ 32 = mi.sampleIdx + 1 := Nat.mod_eq_of_lt (by omega)
  rw [minstrelGetNextSample, bind_of_result rfl, hlast, hnext, MinstrelNode.afterSample]
  by_cases hmore : mi.sampleIdx + 2 < mi.nRates
  · rw [if_pos hmore, if_neg (by omega)]
    rfl
  · rw [if_neg hmore, if_pos (by omega)]
    rfl

/-- The node after `k` samples. -/
def MinstrelNode.sampledAt (mi : MinstrelNode) (k : Nat) : MinstrelNode :=
  { mi with sampleIdx := k % (mi.nRates - 1), sampleColumn := k / (mi.nRates - 1) % sampleColumns }

def MinstrelNode.sampleAt (mi : MinstrelNode) (k : Nat) : Nat :=
  (mi.sampleTable (sampleTbl (k % (mi.nRates - 1)) (k / (mi.nRates - 1) % sampleColumns))).toNat

/-- Calls of `minstrel_get_next_sample`, and what they return. -/
def nextSamples : Nat → MinstrelNode → Minstrel (List Nat × MinstrelNode)
  | 0, mi => pure ([], mi)
  | calls + 1, mi => do
    let (sample, mi) ← minstrelGetNextSample mi
    let (samples, mi) ← nextSamples calls mi
    pure (sample :: samples, mi)

theorem take_drop_range' {a m calls : Nat} (h : a + m ≤ calls) :
    ((List.range' 0 calls).drop a).take m = List.range' a m := by
  obtain ⟨rest, rfl⟩ := Nat.exists_eq_add_of_le h
  have hsplit : List.range' 0 (a + m + rest) =
      List.range' 0 a ++ (List.range' a m ++ List.range' (a + m) rest) := by
    rw [List.range'_append_1, Nat.add_assoc, ← List.range'_append_1, Nat.zero_add]
  rw [hsplit, List.drop_left' (List.length_range' ..), List.take_left' (List.length_range' ..)]

section Cursor

variable {mi : MinstrelNode}

theorem afterSample_sampledAt (hn : 2 ≤ mi.nRates) (k : Nat) :
    (mi.sampledAt k).afterSample = mi.sampledAt (k + 1) := by
  obtain ⟨m, hm⟩ : ∃ m, mi.nRates = m + 2 := ⟨mi.nRates - 2, by omega⟩
  have hmod := Nat.mod_lt k (show 0 < m + 1 by omega)
  simp only [MinstrelNode.afterSample, MinstrelNode.sampledAt, hm,
    show m + 2 - 1 = m + 1 by omega, sampleColumns]
  by_cases hmore : k % (m + 1) + 2 < m + 2
  · have hrow : (k + 1) % (m + 1) = k % (m + 1) + 1 := by
      rw [Nat.add_mod, Nat.mod_eq_of_lt (show 1 < m + 1 by omega)]
      exact Nat.mod_eq_of_lt (by omega)
    have hndvd : ¬ m + 1 ∣ k + 1 := by
      intro hdvd
      rw [Nat.mod_eq_zero_of_dvd hdvd] at hrow
      omega
    rw [if_pos hmore, hrow, Nat.succ_div, if_neg hndvd]
    rfl
  · have hdvd : m + 1 ∣ k + 1 := by
      refine Nat.dvd_of_mod_eq_zero ?_
      rw [← Nat.mod_add_mod, show k % (m + 1) + 1 = m + 1 by omega, Nat.mod_self]
    rw [if_neg hmore, Nat.mod_eq_zero_of_dvd hdvd, Nat.succ_div, if_pos hdvd]
    congr 1
    split_ifs <;> omega

theorem nextSamples_sampledAt (hn : 2 ≤ mi.nRates) (hmax : mi.nRates < 2 ^ 32) (calls k : Nat) :
    (nextSamples calls (mi.sampledAt k)).result =
      some ((List.range' k calls).map mi.sampleAt, mi.sampledAt (k + calls)) := by
  induction calls generalizing k with
  | zero => rfl
  | succ calls ih =>
    have hidx : (mi.sampledAt k).sampleIdx + 1 < (mi.sampledAt k).nRates := by
      have hmod := Nat.mod_lt k (show 0 < mi.nRates - 1 by omega)
      show k % (mi.nRates - 1) + 1 < mi.nRates
      omega
    have hfirst : (minstrelGetNextSample (mi.sampledAt k)).result =
        some (mi.sampleAt k, mi.sampledAt (k + 1)) := by
      rw [minstrelGetNextSample_eq hidx hmax, afterSample_sampledAt hn]
      rfl
    refine result_bind.mpr ⟨_, hfirst, result_bind.mpr ⟨_, ih (k + 1), ?_⟩⟩
    rw [List.range'_succ, List.map_cons, Nat.add_right_comm, Nat.add_assoc]
    rfl

theorem sampleAt_block (mi : MinstrelNode) (b : Nat) :
    (List.range' (b * (mi.nRates - 1)) (mi.nRates - 1)).map mi.sampleAt =
      columnRows mi.sampleTable (mi.nRates - 1) (b % sampleColumns) := by
  rw [List.range'_eq_map_range, List.map_map, columnRows]
  refine List.map_congr_left fun row hrow => ?_
  have hlt := List.mem_range.mp hrow
  have hmod : (b * (mi.nRates - 1) + row) % (mi.nRates - 1) = row := by
    rw [Nat.mul_add_mod_self_right, Nat.mod_eq_of_lt hlt]
  have hdiv : (b * (mi.nRates - 1) + row) / (mi.nRates - 1) = b := by
    rw [Nat.mul_comm, Nat.mul_add_div (by omega), Nat.div_eq_of_lt hlt, Nat.add_zero]
  rw [Function.comp_apply, MinstrelNode.sampleAt, hmod, hdiv]

end Cursor

theorem MinstrelNode.Covering.sample_mem {mi : MinstrelNode} (h : mi.Covering) {row col : Nat}
    (hrow : row + 1 < mi.nRates) (hcol : col < sampleColumns) :
    0 < (mi.sampleTable (sampleTbl row col)).toNat ∧
      (mi.sampleTable (sampleTbl row col)).toNat < mi.nRates := by
  have hmem : (mi.sampleTable (sampleTbl row col)).toNat ∈ columnRows mi.sampleTable (mi.nRates - 1) col :=
    List.mem_map.mpr ⟨row, List.mem_range.mpr (by omega), rfl⟩
  have hrange := List.mem_range'_1.mp ((h col hcol).mem_iff.mp hmem)
  omega

/-- For any random bytes the table is built, each of its columns has every rate above the first one once,
and so has each block of `n_rates - 1` calls counted from the reset; no call returns another value. -/
theorem sampling_fair {mi : MinstrelNode} (hmin : 2 ≤ mi.nRates) (hmax : mi.nRates ≤ 20) (rnd : Nat → UInt8) :
    ∃ mi', (initSampleTable rnd mi).result = some mi' ∧
      (∀ col < sampleColumns, (columnRows mi'.sampleTable (mi.nRates - 1) col).Perm
        (List.range' 1 (mi.nRates - 1))) ∧
      ∀ calls, ∃ samples mi'', (nextSamples calls mi').result = some (samples, mi'') ∧
        samples.length = calls ∧ (∀ s ∈ samples, 1 ≤ s ∧ s < mi.nRates) ∧
        ∀ b, (b + 1) * (mi.nRates - 1) ≤ calls →
          ((samples.drop (b * (mi.nRates - 1))).take (mi.nRates - 1)).Perm
            (List.range' 1 (mi.nRates - 1)) := by
  have hinit : Ensures (fun _ => True) _ (initSampleTable rnd mi) :=
    initSampleTable_ensures (fun _ _ => trivial) (by omega)
  obtain ⟨mi', hmi', hcover, -, heq⟩ := hinit.result
  have hn : mi'.nRates = mi.nRates := by rw [heq]
  have hstart : mi'.sampledAt 0 = mi' := by
    rw [MinstrelNode.sampledAt, Nat.zero_mod, Nat.zero_div, Nat.zero_mod, heq]
  refine ⟨mi', hmi', by rwa [MinstrelNode.Covering, hn] at hcover, fun calls => ?_⟩
  have hcalls := nextSamples_sampledAt (hn ▸ hmin) (by omega) calls 0
  rw [hstart] at hcalls
  refine ⟨_, _, hcalls, by simp, fun s hs => ?_, fun b hb => ?_⟩
  · obtain ⟨k, -, rfl⟩ := List.mem_map.mp hs
    have hrow := Nat.mod_lt k (show 0 < mi'.nRates - 1 by omega)
    have hmem := hcover.sample_mem (show k % (mi'.nRates - 1) + 1 < mi'.nRates by omega)
      (Nat.mod_lt (k / (mi'.nRates - 1)) (show 0 < sampleColumns by decide))
    exact ⟨hmem.1, hn ▸ hmem.2⟩
  · have hblock : (((List.range' 0 calls).drop (b * (mi.nRates - 1))).take (mi.nRates - 1)) =
        List.range' (b * (mi.nRates - 1)) (mi.nRates - 1) := take_drop_range' (by rwa [← Nat.succ_mul])
    have hcolumn := sampleAt_block mi' b
    rw [hn] at hcolumn
    rw [← List.map_drop, ← List.map_take, hblock, hcolumn]
    have hperm := hcover (b % sampleColumns) (Nat.mod_lt b (by decide))
    rwa [hn] at hperm

theorem sampling_fair_three :
    ∃ mi', (initSampleTable (fun i => UInt8.ofNat i)
        { minstrelAllocSta (fun _ => .zero) (fun _ => 0) with nRates := 3 }).result = some mi' ∧
      ∀ calls, ∃ samples mi'', (nextSamples calls mi').result = some (samples, mi'') ∧
        ∀ b, (b + 1) * 2 ≤ calls → ((samples.drop (b * 2)).take 2).Perm [1, 2] := by
  obtain ⟨mi', hinit, -, hcalls⟩ :=
    @sampling_fair { minstrelAllocSta (fun _ => .zero) (fun _ => 0) with nRates := 3 } (by decide) (by decide)
      fun i => UInt8.ofNat i
  refine ⟨mi', hinit, fun calls => ?_⟩
  obtain ⟨samples, mi'', hsamples, -, -, hblocks⟩ := hcalls calls
  exact ⟨samples, mi'', hsamples, hblocks⟩

end Onebox
