import Onebox.ByteMem
import Onebox.Calls

/-! The files that the driver reads and writes itself. `get_firmware` and `write_to_file` raise the address
limit of the thread, open the file, allocate a buffer, and have to undo a part of that on each way out. -/

namespace Onebox

open ByteMem Calls

inductive AddrLimit
  | userDs
  | kernelDs
  deriving DecidableEq, Repr

inductive FileType
  | hexFile
  | binFile
  deriving DecidableEq, Repr

/-- What the two functions acquire and release, and the elements they store into the buffer. An `filpOpen` is
one that succeeds. -/
inductive FileOp
  | setFs (limit : AddrLimit)
  | filpOpen
  | filpClose
  | vmalloc (length : Nat)
  | vfree
  | store (ii : Nat) (value : UInt16)
  deriving DecidableEq, Repr

/-- How far a read or a write comes: it fails with the error `e + 1`, or it may be short. -/
inductive VfsLimit
  | error (e : Fin 4095)
  | upTo (n : Nat)

structure DiskFile where
  size : Nat
  bytes : Nat → UInt8

/-- The files by their paths, whether there is memory, and how far each read comes. -/
structure FileEnv where
  disk : String → Option DiskFile
  memory : Bool
  reads : Nat → VfsLimit

/-- The result as the 32 bits that the callers look at, and the number of bytes read. -/
structure VfsResult where
  ret : Nat
  count : Nat
  deriving DecidableEq, Repr

def VfsLimit.result (limit : VfsLimit) (available : Nat) : VfsResult :=
  match limit with
  | .error e => ⟨2 ^ 32 - (e.val + 1), 0⟩
  | .upTo n => ⟨min n available % 2 ^ 32, min n available⟩

/-- There is nothing to be read behind the end of the file. -/
def DiskFile.vfsRead (f : DiskFile) (limit : VfsLimit) (count pos : Nat) : VfsResult :=
  limit.result (min count (f.size - pos))

/-- `UNIX_FILE_TYPE` and `DOS_FILE_TYPE`, the bytes of a line. -/
def unixFileType : Nat := 8

def dosFileType : Nat := 9

/-- The type and the buffer with the first eight bytes of the file. -/
def oneboxCheckFileType (f : DiskFile) (limit : VfsLimit) (ptr : Nat → UInt8) :
    Option (Nat × (Nat → UInt8)) :=
  let temp := f.vfsRead limit 8 0
  if temp.ret ≠ 8 then none
  else
    let ptr := copy ptr 0 f.bytes 0 temp.count
    some (if ptr 7 = 10 then unixFileType else dosFileType, ptr)

/-- The variables `pos` and `num` of the loop, and how many reads there have been. -/
structure HexState where
  pos : Nat
  num : Nat
  reads : Nat

section Model

variable (simpleStrtol : List UInt8 → UInt16) (env : FileEnv) (f : DiskFile)

/-- A round of the loop, with the element that it stores. The first round looks at the type of the file
whatever it has read. -/
def hexRound (ii : Nat) (s : HexState) : Option (UInt16 × HexState) :=
  let temp := f.vfsRead (env.reads s.reads) s.num s.pos
  let readData := copy (fun _ => 0) 0 f.bytes s.pos temp.count
  let pos := s.pos + temp.count
  if ii = 0 then
    match oneboxCheckFileType f (env.reads (s.reads + 1)) readData with
    | none => none
    | some (num, readData) =>
      if num = dosFileType then
        let temp := f.vfsRead (env.reads (s.reads + 2)) 1 pos
        let readData := copy readData 8 f.bytes pos temp.count
        if temp.ret ≠ 1 then none
        else some (simpleStrtol (window readData 2 8), ⟨pos + temp.count, num, s.reads + 3⟩)
      else some (simpleStrtol (window readData 2 8), ⟨pos, unixFileType, s.reads + 2⟩)
  else if temp.ret ≠ s.num then none
  else some (simpleStrtol (window readData 2 8), ⟨pos, s.num, s.reads + 1⟩)

/-- The rounds from `ii` on. -/
def hexLoop : Nat → Nat → HexState → Calls FileOp Bool
  | 0, _, _ => pure true
  | n + 1, ii, s =>
    match hexRound simpleStrtol env f ii s with
    | none => pure false
    | some (value, s) => do
      emit (.store ii value)
      hexLoop n (ii + 1) s

/-- Half of `LMAC_INSTRUCTIONS_SIZE`. -/
def lmacInstructions : Nat := 8192

/-- The contents of the buffer, whose length is that of the file. -/
def readFile (type : FileType) : Calls FileOp Bool :=
  match type with
  | .hexFile => hexLoop simpleStrtol env f lmacInstructions 0 ⟨0, unixFileType, 0⟩
  | .binFile => pure ((f.vfsRead (env.reads 0) (f.size % 2 ^ 32) 0).ret == f.size % 2 ^ 32)

/-- The length that is returned with the buffer, and `none` for `NULL`. -/
def getFirmware (fs : AddrLimit) (firmwarePath fn : String) (type : FileType) :
    Calls FileOp (Option Nat) := do
  emit (.setFs .kernelDs)
  match env.disk (firmwarePath ++ fn) with
  | none => pure none
  | some f =>
    emit .filpOpen
    if f.size % 2 ^ 32 = 0 then
      emit .filpClose
      pure none
    else if !env.memory then
      emit .filpClose
      pure none
    else
      emit (.vmalloc (f.size % 2 ^ 32))
      if ← readFile simpleStrtol env f type then
        emit .filpClose
        emit (.setFs fs)
        pure (some (f.size % 2 ^ 32))
      else
        emit .vfree
        emit .filpClose
        pure none

end Model

/-- Whether the file can be opened or created, and how far the write comes. -/
structure WriteEnv where
  opens : Bool
  write : VfsLimit

def writeToFile (env : WriteEnv) (fs : AddrLimit) (writeLen : Nat) : Calls FileOp Int := do
  emit (.setFs .kernelDs)
  if !env.opens then pure (-1)
  else
    emit .filpOpen
    if (env.write.result writeLen).ret ≠ writeLen then
      emit .filpClose
      pure (-1)
    else
      emit .filpClose
      emit (.setFs fs)
      pure 0

def FileOp.limit (fs : AddrLimit) : FileOp → AddrLimit
  | .setFs limit => limit
  | _ => fs

/-- The limit that a thread has afterwards. -/
def limitAfter (fs : AddrLimit) (log : List FileOp) : AddrLimit := log.foldl FileOp.limit fs

/-- The call returns with the address limit it found, and has closed what it opened. -/
structure LeavesTidy {α : Type} (fs : AddrLimit) (x : Calls FileOp α) : Prop where
  returns : x.result.isSome
  limit : limitAfter fs x.log = fs
  closed : x.log.count .filpClose = x.log.count .filpOpen

/-- A buffer is freed just when `NULL` is returned, and one that is returned has room for its elements. -/
structure ReturnsBuffer (type : FileType) (x : Calls FileOp (Option Nat)) : Prop where
  freed : ∀ length, .vmalloc length ∈ x.log → (.vfree ∈ x.log ↔ x.result = some none)
  room : type = .hexFile → ∀ length, x.result = some (some length) →
    ∀ ii value, .store ii value ∈ x.log → 2 * ii + 2 ≤ length

/-- The type of the file can be told, and every read but the first gets a line. -/
def HexReadable (env : FileEnv) (f : DiskFile) : Prop :=
  let first := (f.vfsRead (env.reads 0) 8 0).count
  (f.vfsRead (env.reads 1) 8 0).ret = 8 ∧
    if f.bytes 7 = 10 then ∀ i < 8191, (f.vfsRead (env.reads (2 + i)) 8 (first + 8 * i)).ret = 8
    else (f.vfsRead (env.reads 2) 1 first).ret = 1 ∧
      ∀ i < 8191, (f.vfsRead (env.reads (3 + i)) 9 (first + 1 + 9 * i)).ret = 9

/-- The contents are read to the end. -/
def ReadsAll (env : FileEnv) (f : DiskFile) : FileType → Prop
  | .hexFile => HexReadable env f
  | .binFile => (f.vfsRead (env.reads 0) (f.size % 2 ^ 32) 0).ret = f.size % 2 ^ 32

/-- Nothing goes wrong: the file is there and not empty, there is memory, and the reads are not short. -/
def FileEnv.Readable (env : FileEnv) (path : String) (type : FileType) : Prop :=
  ∃ f, env.disk path = some f ∧ f.size % 2 ^ 32 ≠ 0 ∧ env.memory = true ∧ ReadsAll env f type

section Reads

variable {f : DiskFile} {limit : VfsLimit} {count pos : Nat}

theorem vfsRead_count (h : (f.vfsRead limit count pos).ret = count) (hcount : count ≤ 9) (hpos : 0 < count) :
    (f.vfsRead limit count pos).count = count ∧ pos + count ≤ f.size := by
  rw [DiskFile.vfsRead] at h ⊢
  cases limit with
  | error e =>
    have he := e.isLt
    simp only [VfsLimit.result] at h
    omega
  | upTo n =>
    simp only [VfsLimit.result] at h ⊢
    omega

end Reads

section Hex

variable {simpleStrtol : List UInt8 → UInt16} {env : FileEnv} {f : DiskFile} {s : HexState} {n ii : Nat}

theorem hexRound_later (simpleStrtol : List UInt8 → UInt16) (env : FileEnv) (f : DiskFile) (hii : ii ≠ 0)
    (hnum : 0 < s.num ∧ s.num ≤ 9) :
    (∃ value, hexRound simpleStrtol env f ii s = some (value, ⟨s.pos + s.num, s.num, s.reads + 1⟩)) ∧
        (f.vfsRead (env.reads s.reads) s.num s.pos).ret = s.num ∨
      hexRound simpleStrtol env f ii s = none ∧ (f.vfsRead (env.reads s.reads) s.num s.pos).ret ≠ s.num := by
  rw [hexRound, if_neg hii]
  by_cases h : (f.vfsRead (env.reads s.reads) s.num s.pos).ret = s.num
  · obtain ⟨hcount, -⟩ := vfsRead_count h hnum.2 hnum.1
    rw [if_neg (not_not.mpr h), hcount]
    exact .inl ⟨⟨_, rfl⟩, h⟩
  · rw [if_pos h]
    exact .inr ⟨rfl, h⟩

theorem hexLoop_none (h : hexRound simpleStrtol env f ii s = none) :
    hexLoop simpleStrtol env f (n + 1) ii s = pure false := by
  rw [hexLoop, h]

theorem hexLoop_some {value : UInt16} {t : HexState}
    (h : hexRound simpleStrtol env f ii s = some (value, t)) :
    hexLoop simpleStrtol env f (n + 1) ii s =
      ⟨.store ii value :: (hexLoop simpleStrtol env f n (ii + 1) t).log,
        (hexLoop simpleStrtol env f n (ii + 1) t).result⟩ := by
  rw [hexLoop, h]
  rfl

/-- The loop returns and does nothing but store elements, and if it comes to the end all of them. -/
theorem hexLoop_stores (n ii : Nat) (s : HexState) :
    ∃ ok, (hexLoop simpleStrtol env f n ii s).result = some ok ∧
      (∀ op ∈ (hexLoop simpleStrtol env f n ii s).log, ∃ i value, op = .store i value ∧ i < ii + n) ∧
      (ok = true → ∀ i, ii ≤ i → i < ii + n →
        ∃ value, .store i value ∈ (hexLoop simpleStrtol env f n ii s).log) := by
  induction n generalizing ii s with
  | zero => exact ⟨true, rfl, List.forall_mem_nil _, fun _ i hle hlt => absurd hlt (by omega)⟩
  | succ n ih =>
    cases h : hexRound simpleStrtol env f ii s with
    | none =>
      rw [hexLoop_none h]
      exact ⟨false, rfl, List.forall_mem_nil _, fun hok => by cases hok⟩
    | some r =>
      obtain ⟨value, t⟩ := r
      obtain ⟨ok, hresult, hlog, hall⟩ := ih (ii + 1) t
      rw [hexLoop_some h]
      refine ⟨ok, hresult, ?_, fun hok i hle hlt => ?_⟩
      · intro op hop
        rcases List.mem_cons.mp hop with rfl | hop
        · exact ⟨ii, value, rfl, by omega⟩
        · obtain ⟨i, v, rfl, hlt⟩ := hlog op hop
          exact ⟨i, v, rfl, by omega⟩
      · by_cases hi : i = ii
        · subst hi
          exact ⟨value, List.mem_cons_self⟩
        · obtain ⟨v, hv⟩ := hall hok i (by omega) (by omega)
          exact ⟨v, List.mem_cons_of_mem _ hv⟩

theorem hexLoop_later_iff (hii : ii ≠ 0) (hnum : 0 < s.num ∧ s.num ≤ 9) :
    (hexLoop simpleStrtol env f n ii s).result = some true ↔
      ∀ i < n, (f.vfsRead (env.reads (s.reads + i)) s.num (s.pos + s.num * i)).ret = s.num := by
  induction n generalizing ii s with
  | zero => exact ⟨fun _ i hi => absurd hi (Nat.not_lt_zero i), fun _ => rfl⟩
  | succ n ih =>
    rw [Nat.forall_lt_succ_left]
    rcases hexRound_later simpleStrtol env f hii hnum with ⟨⟨value, hround⟩, hread⟩ | ⟨hround, hread⟩
    · rw [hexLoop_some hround]
      have hrest := ih (s := ⟨s.pos + s.num, s.num, s.reads + 1⟩) (Nat.succ_ne_zero ii) hnum
      refine Iff.trans (hrest.trans (forall₂_congr fun i _ => ?_)) (and_iff_right hread).symm
      show (f.vfsRead (env.reads (s.reads + 1 + i)) s.num (s.pos + s.num + s.num * i)).ret = s.num ↔ _
      have hreads : s.reads + 1 + i = s.reads + (i + 1) := by omega
      have hpos : s.pos + s.num + s.num * i = s.pos + s.num * (i + 1) := by ring
      rw [hreads, hpos]
    · rw [hexLoop_none hround]
      exact iff_of_false (fun h => by cases h) fun h => hread h.1

theorem oneboxCheckFileType_of_ret {limit : VfsLimit} (ptr : Nat → UInt8)
    (h : (f.vfsRead limit 8 0).ret = 8) :
    ∃ ptr', oneboxCheckFileType f limit ptr =
      some (if f.bytes 7 = 10 then unixFileType else dosFileType, ptr') := by
  obtain ⟨hcount, -⟩ := vfsRead_count h (by decide) (by decide)
  have hseven : copy ptr 0 f.bytes 0 8 7 = f.bytes 7 := copy_of_mem (i := 7) (by decide)
  rw [oneboxCheckFileType, if_neg (not_not.mpr h), hcount]
  dsimp only
  rw [hseven]
  exact ⟨_, rfl⟩

/-- The rounds of a file of one type: the first one leaves the position, and the others read lines. -/
theorem hexLoop_iff_of_first {value : UInt16} {t : HexState} (hnum : 0 < t.num ∧ t.num ≤ 9)
    (h : hexRound simpleStrtol env f 0 s = some (value, t)) :
    (hexLoop simpleStrtol env f lmacInstructions 0 s).result = some true ↔
      ∀ i < 8191, (f.vfsRead (env.reads (t.reads + i)) t.num (t.pos + t.num * i)).ret = t.num := by
  rw [lmacInstructions, hexLoop_some h]
  exact hexLoop_later_iff Nat.one_ne_zero hnum

/-- The first round of a file whose type can be told. -/
theorem hexRound_first (simpleStrtol : List UInt8 → UInt16) (htype : (f.vfsRead (env.reads 1) 8 0).ret = 8) :
    let first := (f.vfsRead (env.reads 0) unixFileType 0).count
    (f.bytes 7 = 10 →
        ∃ value, hexRound simpleStrtol env f 0 ⟨0, unixFileType, 0⟩ =
          some (value, ⟨first, unixFileType, 2⟩)) ∧
      (f.bytes 7 ≠ 10 → (f.vfsRead (env.reads 2) 1 first).ret = 1 →
        ∃ value, hexRound simpleStrtol env f 0 ⟨0, unixFileType, 0⟩ =
          some (value, ⟨first + 1, dosFileType, 3⟩)) ∧
      (f.bytes 7 ≠ 10 → (f.vfsRead (env.reads 2) 1 first).ret ≠ 1 →
        hexRound simpleStrtol env f 0 ⟨0, unixFileType, 0⟩ = none) := by
  obtain ⟨ptr, hcheck⟩ := oneboxCheckFileType_of_ret
    (copy (fun _ => 0) 0 f.bytes 0 (f.vfsRead (env.reads 0) unixFileType 0).count) htype
  rw [hexRound, if_pos rfl]
  simp only [Nat.zero_add, hcheck]
  refine ⟨fun hunix => ?_, fun hdos hread => ?_, fun hdos hread => ?_⟩
  · rw [if_pos hunix]
    exact ⟨_, rfl⟩
  · rw [if_neg hdos]
    rw [if_pos rfl, if_neg (not_not.mpr hread), (vfsRead_count hread (by decide) (by decide)).1]
    exact ⟨_, rfl⟩
  · rw [if_neg hdos]
    rw [if_pos rfl, if_pos hread]

theorem hexLoop_iff :
    (hexLoop simpleStrtol env f lmacInstructions 0 ⟨0, unixFileType, 0⟩).result = some true ↔
      HexReadable env f := by
  rw [HexReadable]
  by_cases htype : (f.vfsRead (env.reads 1) 8 0).ret = 8
  · obtain ⟨hunix, hdos, hshort⟩ := hexRound_first simpleStrtol htype
    rw [and_iff_right htype]
    by_cases hseven : f.bytes 7 = 10
    · obtain ⟨value, hround⟩ := hunix hseven
      have hnum : 0 < unixFileType ∧ unixFileType ≤ 9 := by decide
      rw [if_pos hseven]
      exact hexLoop_iff_of_first hnum hround
    · rw [if_neg hseven]
      by_cases hread : (f.vfsRead (env.reads 2) 1 (f.vfsRead (env.reads 0) 8 0).count).ret = 1
      · obtain ⟨value, hround⟩ := hdos hseven hread
        have hnum : 0 < dosFileType ∧ dosFileType ≤ 9 := by decide
        rw [and_iff_right hread]
        exact hexLoop_iff_of_first hnum hround
      · rw [lmacInstructions, hexLoop_none (hshort hseven hread)]
        exact iff_of_false (fun h => by cases h) fun h => hread h.1
  · have hround : hexRound simpleStrtol env f 0 ⟨0, unixFileType, 0⟩ = none := by
      rw [hexRound, if_pos rfl, oneboxCheckFileType, if_pos htype]
    rw [lmacInstructions, hexLoop_none hround]
    exact iff_of_false (fun h => by cases h) fun h => htype h.1

end Hex

section Paths

variable {simpleStrtol : List UInt8 → UInt16} {env : FileEnv} {f : DiskFile} {fs : AddrLimit}
  {firmwarePath fn : String} {type : FileType}

def FileOp.IsStore (op : FileOp) : Prop := ∃ ii value, op = .store ii value

theorem not_mem_stores {stores : List FileOp} {op : FileOp} (h : ∀ op ∈ stores, op.IsStore)
    (hop : ∀ ii value, op ≠ .store ii value) : op ∉ stores := by
  intro hmem
  obtain ⟨ii, value, heq⟩ := h op hmem
  exact hop ii value heq

/-- The reading returns, stores elements only, and comes to the end just if nothing is short. -/
theorem readFile_spec (simpleStrtol : List UInt8 → UInt16) (env : FileEnv) (f : DiskFile) (type : FileType) :
    ∃ stores ok, readFile simpleStrtol env f type = ⟨stores, some ok⟩ ∧ (∀ op ∈ stores, op.IsStore) ∧
      (ok = true ↔ ReadsAll env f type) := by
  cases type with
  | hexFile =>
    have hiff : (readFile simpleStrtol env f .hexFile).result = some true ↔ HexReadable env f := hexLoop_iff
    obtain ⟨ok, hresult, hlog, -⟩ : ∃ ok, (readFile simpleStrtol env f .hexFile).result = some ok ∧ _ ∧ _ :=
      hexLoop_stores _ _ _
    rw [hresult, Option.some.injEq] at hiff
    refine ⟨(readFile simpleStrtol env f .hexFile).log, ok, ?_, ?_, hiff⟩
    · rw [← hresult]
    · intro op hop
      obtain ⟨ii, value, hop, -⟩ := hlog op hop
      exact ⟨ii, value, hop⟩
  | binFile => exact ⟨[], _, rfl, List.forall_mem_nil _, beq_iff_eq⟩

theorem getFirmware_of_read {stores : List FileOp} {ok : Bool} (fs : AddrLimit)
    (hdisk : env.disk (firmwarePath ++ fn) = some f) (hsize : f.size % 2 ^ 32 ≠ 0) (hmem : env.memory = true)
    (hread : readFile simpleStrtol env f type = ⟨stores, some ok⟩) :
    getFirmware simpleStrtol env fs firmwarePath fn type =
      ⟨.setFs .kernelDs :: .filpOpen :: .vmalloc (f.size % 2 ^ 32) ::
          (stores ++ if ok then [FileOp.filpClose, .setFs fs] else [FileOp.vfree, .filpClose]),
        some (if ok then some (f.size % 2 ^ 32) else none)⟩ := by
  rw [getFirmware, hdisk]
  dsimp only
  rw [if_neg hsize, hmem, hread]
  cases ok <;> rfl

/-- What follows the raising of the limit when `NULL` is returned. -/
structure Undone (ops : List FileOp) : Prop where
  limit : ∀ limit, .setFs limit ∉ ops
  closed : ops.count .filpClose = ops.count .filpOpen
  freed : ∀ length, .vmalloc length ∈ ops → .vfree ∈ ops

theorem getFirmware_of_not_readable (simpleStrtol : List UInt8 → UInt16) (fs : AddrLimit)
    (h : ¬ env.Readable (firmwarePath ++ fn) type) :
    ∃ ops, getFirmware simpleStrtol env fs firmwarePath fn type = ⟨.setFs .kernelDs :: ops, some none⟩ ∧
      Undone ops := by
  cases hdisk : env.disk (firmwarePath ++ fn) with
  | none =>
    rw [getFirmware, hdisk]
    exact ⟨[], rfl, by simp, rfl, by simp⟩
  | some f =>
    by_cases hsize : f.size % 2 ^ 32 = 0
    · rw [getFirmware, hdisk]
      dsimp only
      rw [if_pos hsize]
      exact ⟨[.filpOpen, .filpClose], rfl, by simp, rfl, by simp⟩
    · cases hmem : env.memory with
      | false =>
        rw [getFirmware, hdisk]
        dsimp only
        rw [if_neg hsize, hmem]
        exact ⟨[.filpOpen, .filpClose], rfl, by simp, rfl, by simp⟩
      | true =>
        obtain ⟨stores, ok, hread, hstores, hok⟩ := readFile_spec simpleStrtol env f type
        have hshort : ok = false := by
          rw [← Bool.not_eq_true, hok]
          exact fun hall => h ⟨f, hdisk, hsize, hmem, hall⟩
        rw [getFirmware_of_read fs hdisk hsize hmem hread, hshort]
        have hset : ∀ limit, .setFs limit ∉ stores := fun _ => not_mem_stores hstores (by simp)
        have hopen : .filpOpen ∉ stores := not_mem_stores hstores (by simp)
        have hclose : .filpClose ∉ stores := not_mem_stores hstores (by simp)
        refine ⟨_, rfl, ?_, ?_, ?_⟩
        · intro limit
          simp [hset]
        · simp [List.count_eq_zero.mpr hopen, List.count_eq_zero.mpr hclose]
        · simp

theorem limitAfter_of_not_mem {ops : List FileOp} (h : ∀ limit, .setFs limit ∉ ops) :
    limitAfter fs ops = fs := by
  induction ops with
  | nil => rfl
  | cons op ops ih =>
    have hrest := ih fun limit hmem => h limit (List.mem_cons_of_mem op hmem)
    cases op with
    | setFs limit => exact absurd List.mem_cons_self (h limit)
    | _ => exact hrest

theorem limitAfter_concat (fs : AddrLimit) (ops : List FileOp) (limit : AddrLimit) :
    limitAfter fs (ops ++ [FileOp.setFs limit]) = limit := by
  rw [limitAfter, List.foldl_append]
  rfl

/-- When `NULL` is returned the limit is left raised. -/
theorem tidy_of_not_readable (simpleStrtol : List UInt8 → UInt16) (fs : AddrLimit)
    (h : ¬ env.Readable (firmwarePath ++ fn) type) :
    (LeavesTidy fs (getFirmware simpleStrtol env fs firmwarePath fn type) ↔ fs = .kernelDs) ∧
      ReturnsBuffer type (getFirmware simpleStrtol env fs firmwarePath fn type) := by
  obtain ⟨ops, hops, hundone⟩ := getFirmware_of_not_readable simpleStrtol fs h
  have hlimit : limitAfter fs (.setFs .kernelDs :: ops) = .kernelDs := limitAfter_of_not_mem hundone.limit
  rw [hops]
  refine ⟨⟨fun h => ?_, fun h => ⟨rfl, ?_, ?_⟩⟩, fun length hlength => ?_, fun _ length hlength => ?_⟩
  · rw [← h.limit]
    exact hlimit
  · rw [h]
    exact h ▸ hlimit
  · simpa using hundone.closed
  · have hmem : .vmalloc length ∈ ops := by simpa using hlength
    exact iff_of_true (List.mem_cons_of_mem _ (hundone.freed length hmem)) rfl
  · cases hlength

/-- The elements of a buffer that is returned, of which there are as many as instructions. -/
theorem hex_stores {stores : List FileOp}
    (hread : readFile simpleStrtol env f .hexFile = ⟨stores, some true⟩) :
    (∀ ii value, .store ii value ∈ stores → ii < lmacInstructions) ∧ ∃ value, .store 8191 value ∈ stores := by
  obtain ⟨ok, hresult, hlog, hall⟩ : ∃ ok, (readFile simpleStrtol env f .hexFile).result = some ok ∧ _ ∧ _ :=
    hexLoop_stores _ _ _
  rw [hread] at hresult
  have hlast := hall (Option.some.inj hresult).symm 8191 (by decide) (by decide)
  have hlogs : hexLoop simpleStrtol env f lmacInstructions 0 ⟨0, unixFileType, 0⟩ = ⟨stores, some true⟩ :=
    hread
  rw [hlogs] at hlast hlog
  refine ⟨fun ii value hmem => ?_, hlast⟩
  obtain ⟨i, v, heq, hi⟩ := hlog _ hmem
  cases heq
  omega

theorem tidy_of_readable (simpleStrtol : List UInt8 → UInt16) (fs : AddrLimit)
    (h : env.Readable (firmwarePath ++ fn) type) :
    LeavesTidy fs (getFirmware simpleStrtol env fs firmwarePath fn type) ∧
      (ReturnsBuffer type (getFirmware simpleStrtol env fs firmwarePath fn type) ↔
        (type = .hexFile → ∀ f ∈ env.disk (firmwarePath ++ fn), 2 * lmacInstructions ≤ f.size % 2 ^ 32)) := by
  obtain ⟨f, hdisk, hsize, hmem, hall⟩ := h
  obtain ⟨stores, ok, hread, hstores, hok⟩ := readFile_spec simpleStrtol env f type
  have hopen : .filpOpen ∉ stores := not_mem_stores hstores (by simp)
  have hclose : .filpClose ∉ stores := not_mem_stores hstores (by simp)
  have hfree : .vfree ∉ stores := not_mem_stores hstores (by simp)
  rw [hok.mpr hall] at hread
  rw [getFirmware_of_read fs hdisk hsize hmem hread, hdisk]
  refine ⟨⟨rfl, ?_, ?_⟩, fun h htype g hg => ?_, fun h => ⟨fun _ _ => ?_, fun htype length hlength => ?_⟩⟩
  · have hlog := limitAfter_concat fs
      (.setFs .kernelDs :: .filpOpen :: .vmalloc (f.size % 2 ^ 32) :: (stores ++ [FileOp.filpClose])) fs
    simpa using hlog
  · simp [List.count_eq_zero.mpr hopen, List.count_eq_zero.mpr hclose]
  · cases hg
    subst htype
    obtain ⟨value, hlast⟩ := (hex_stores hread).2
    exact h.room rfl _ rfl 8191 value (by simp [hlast])
  · simp [hfree]
  · subst htype
    cases hlength
    intro ii value hmem
    have hlt := (hex_stores hread).1 ii value (by simpa using hmem)
    have hfits := h rfl f rfl
    omega

end Paths

theorem leavesTidy_writeToFile (env : WriteEnv) (fs : AddrLimit) (writeLen : Nat) :
    LeavesTidy fs (writeToFile env fs writeLen) ↔
      fs = .kernelDs ∨ env.opens = true ∧ (env.write.result writeLen).ret = writeLen := by
  rw [writeToFile]
  cases hopens : env.opens with
  | false =>
    refine ⟨fun h => .inl h.limit.symm, fun h => ⟨rfl, ?_, rfl⟩⟩
    exact (h.resolve_right fun h => by cases h.1).symm
  | true =>
    by_cases hret : (env.write.result writeLen).ret = writeLen
    · rw [if_neg (by decide), if_neg (not_not.mpr hret)]
      exact iff_of_true ⟨rfl, rfl, rfl⟩ (.inr ⟨rfl, hret⟩)
    · rw [if_neg (by decide), if_pos hret]
      refine ⟨fun h => .inl h.limit.symm, fun h => ⟨rfl, ?_, rfl⟩⟩
      exact (h.resolve_right fun h => hret h.2).symm

/-- Both helpers leave the thread and the file as they should just when nothing goes wrong or the limit was
raised before. A hex file also has to have a buffer for all instructions, whose length is that of the file in
32 bits. -/
theorem fileHelpers_tidy_iff (fs : AddrLimit) :
    (∀ (simpleStrtol : List UInt8 → UInt16) (env : FileEnv) (firmwarePath fn : String) (type : FileType),
      LeavesTidy fs (getFirmware simpleStrtol env fs firmwarePath fn type) ∧
          ReturnsBuffer type (getFirmware simpleStrtol env fs firmwarePath fn type) ↔
        (fs = .kernelDs ∨ env.Readable (firmwarePath ++ fn) type) ∧
          (type = .hexFile → env.Readable (firmwarePath ++ fn) type →
            ∀ f ∈ env.disk (firmwarePath ++ fn), 2 * lmacInstructions ≤ f.size % 2 ^ 32)) ∧
      ∀ (env : WriteEnv) (writeLen : Nat),
        LeavesTidy fs (writeToFile env fs writeLen) ↔
          fs = .kernelDs ∨ env.opens = true ∧ (env.write.result writeLen).ret = writeLen := by
  refine ⟨fun simpleStrtol env firmwarePath fn type => ?_, fun env => leavesTidy_writeToFile env fs⟩
  by_cases h : env.Readable (firmwarePath ++ fn) type
  · obtain ⟨htidy, hbuffer⟩ := tidy_of_readable simpleStrtol fs h
    rw [and_iff_right htidy, hbuffer, and_iff_right (.inr h)]
    exact ⟨fun hroom htype _ => hroom htype, fun hroom htype => hroom htype h⟩
  · obtain ⟨htidy, hbuffer⟩ := tidy_of_not_readable simpleStrtol fs h
    rw [and_iff_left hbuffer, htidy, or_iff_left h]
    exact ⟨fun hfs => ⟨hfs, fun _ hread => absurd hread h⟩, And.left⟩

/-- A firmware file that is missing, with the path of the distribution. -/
theorem missing_file_raised :
    ¬ LeavesTidy .userDs (getFirmware (fun _ => 0) ⟨fun _ => none, true, fun _ => .upTo 4096⟩ .userDs
      "/home/rsi/release/firmware/" "taim" .binFile) := by
  intro h
  have hlimit := h.limit
  cases hlimit

end Onebox
