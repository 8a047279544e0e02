import Mathlib

/-! Receiving numbered frames in order. A receiver with a window of `size` numbers passes frames on in the
order of their numbers: it holds back what comes early, and gives up waiting when a number beyond the window
arrives, when it is told to, or when what it holds has become stale. Numbers are unbounded. -/

namespace ReorderWindow

variable {α : Type*} {size : ℕ}

/-- What is waited for next, and the frames that are held behind it. -/
structure Window (α : Type*) (size : ℕ) where
  next : ℕ
  held : ℕ → Option α
  inside : ∀ n, (held n).isSome → next < n ∧ n < next + size

namespace Window

variable {w : Window α size} {a b c n : ℕ} {f : α} {stale : Bool}

def empty (next : ℕ) : Window α size := ⟨next, fun _ => none, fun _ h => (by cases h)⟩

theorem held_eq_none_of_le (w : Window α size) (h : n ≤ w.next) : w.held n = none := by
  by_contra hne
  have hin := w.inside n (Option.isSome_iff_ne_none.mpr hne)
  omega

theorem held_eq_none_of_ge (w : Window α size) (h : w.next + size ≤ n) : w.held n = none := by
  by_contra hne
  have hin := w.inside n (Option.isSome_iff_ne_none.mpr hne)
  omega

theorem exists_gap (w : Window α size) (n : ℕ) : ∃ k, n ≤ k ∧ w.held k = none :=
  ⟨max n (w.next + size), le_max_left _ _, w.held_eq_none_of_ge (le_max_right _ _)⟩

instance decidableGap (w : Window α size) (n k : ℕ) : Decidable (n ≤ k ∧ w.held k = none) :=
  match h : w.held k with
  | none => decidable_of_iff (n ≤ k) (by simp)
  | some _ => isFalse (by simp)

/-- The first number from `n` on that is not held. -/
def gap (w : Window α size) (n : ℕ) : ℕ := Nat.find (w.exists_gap n)

theorem le_gap (w : Window α size) (n : ℕ) : n ≤ w.gap n := (Nat.find_spec (w.exists_gap n)).1

theorem held_gap (w : Window α size) (n : ℕ) : w.held (w.gap n) = none :=
  (Nat.find_spec (w.exists_gap n)).2

theorem gap_le (hle : n ≤ a) (hnone : w.held a = none) : w.gap n ≤ a :=
  Nat.find_min' (w.exists_gap n) ⟨hle, hnone⟩

theorem gap_eq (hle : n ≤ a) (hnone : w.held a = none) (hheld : ∀ k, n ≤ k → k < a → (w.held k).isSome) :
    w.gap n = a := by
  refine le_antisymm (gap_le hle hnone) (not_lt.mp fun hlt => ?_)
  have hsome := hheld _ (w.le_gap n) hlt
  rw [w.held_gap n] at hsome
  cases hsome

theorem isSome_of_lt_gap (hle : n ≤ a) (hlt : a < w.gap n) : (w.held a).isSome := by
  rw [Option.isSome_iff_ne_none]
  exact fun hnone => absurd (gap_le hle hnone) (not_le.mpr hlt)

/-- The held frames with numbers from `a` to before `b`, in order. -/
def between (held : ℕ → Option α) (a b : ℕ) : List (ℕ × α) :=
  (List.range' a (b - a)).filterMap fun n => (held n).map (n, ·)

theorem mem_between {held : ℕ → Option α} {x : ℕ × α} :
    x ∈ between held a b ↔ (a ≤ x.1 ∧ x.1 < b) ∧ held x.1 = some x.2 := by
  obtain ⟨k, f⟩ := x
  simp only [between, List.mem_filterMap, List.mem_range'_1, Option.map_eq_some_iff, Prod.mk.injEq]
  constructor
  · rintro ⟨n, hn, f', hf, rfl, rfl⟩
    exact ⟨by omega, hf⟩
  · rintro ⟨hk, hf⟩
    exact ⟨k, by omega, f, hf, rfl, rfl⟩

theorem between_self (held : ℕ → Option α) (a : ℕ) : between held a a = [] := by simp [between]

theorem between_append (held : ℕ → Option α) (hab : a ≤ b) (hbc : b ≤ c) :
    between held a b ++ between held b c = between held a c := by
  have hsplit : List.range' a (c - a) = List.range' a (b - a) ++ List.range' b (c - b) := by
    have hb : a + 1 * (b - a) = b := by omega
    have hc : c - a = (b - a) + (c - b) := by omega
    rw [hc, ← List.range'_append, hb]
  rw [between, between, between, hsplit, List.filterMap_append]

theorem between_succ (held : ℕ → Option α) (h : a < b) :
    between held a b = ((held a).map (a, ·)).toList ++ between held (a + 1) b := by
  have hlen : b - a = (b - (a + 1)) + 1 := by omega
  rw [between, hlen, List.range'_succ, List.filterMap_cons, between]
  cases held a <;> simp

theorem pairwise_between (held : ℕ → Option α) (a b : ℕ) :
    (between held a b).Pairwise (fun x y => x.1 < y.1) := by
  rw [between, List.pairwise_filterMap]
  apply List.Pairwise.imp _ List.pairwise_lt_range'
  intro m n hmn x hx y hy
  obtain ⟨f, -, rfl⟩ := Option.map_eq_some_iff.mp hx
  obtain ⟨g, -, rfl⟩ := Option.map_eq_some_iff.mp hy
  exact hmn

/-- Numbers before `b` are not waited for any more. Held frames up to there are passed on, and also those
that follow without a gap. -/
def advance (w : Window α size) (b : ℕ) : Window α size × List (ℕ × α) :=
  ({ next := w.gap (max w.next b)
     held := fun n => if w.gap (max w.next b) ≤ n then w.held n else none
     inside := by
       intro n hn
       split at hn
       · next hle =>
         have hne : n ≠ w.gap (max w.next b) := by
           rintro rfl
           rw [w.held_gap] at hn
           cases hn
         have hnext := (le_max_left w.next b).trans (w.le_gap _)
         have hin := w.inside n hn
         omega
       · cases hn },
    between w.held w.next (w.gap (max w.next b)))

def hold (w : Window α size) (n : ℕ) (f : α) (h : w.next < n ∧ n < w.next + size) : Window α size where
  next := w.next
  held := Function.update w.held n (some f)
  inside := by
    intro k hk
    by_cases hkn : k = n
    · exact hkn ▸ h
    · rw [Function.update_of_ne hkn] at hk
      exact w.inside k hk

/-- The frames that are held, in order. -/
def contents (w : Window α size) : List (ℕ × α) := between w.held w.next (w.next + size)

/-- Frames are held, and they are `stale`. -/
def Overdue (w : Window α size) (stale : Bool) : Prop := stale = true ∧ w.contents ≠ []

instance (w : Window α size) (stale : Bool) : Decidable (w.Overdue stale) :=
  decidable_of_iff (stale = true ∧ ¬ w.contents.isEmpty) (by rw [Overdue, List.isEmpty_iff])

/-- Frame `n` comes, with `n` not beyond the window. If it is early and frames are overdue, nothing before `n`
is waited for any more: all that is held is passed on, and then the frame. -/
def place (w : Window α size) (n : ℕ) (f : α) (stale : Bool) : Window α size × List (ℕ × α) :=
  if n = w.next then
    let r := w.advance (n + 1)
    (r.1, (n, f) :: r.2)
  else if h : w.next < n ∧ n < w.next + size then
    if w.Overdue stale then (empty (n + 1), w.contents ++ [(n, f)])
    else
      match w.held n with
      | none => (w.hold n f h, [])
      | some _ => (w, [])
  else (w, [])

/-- Frame `n` comes. If it is beyond the window, the window moves until `n` is its last number. -/
def receive (w : Window α size) (n : ℕ) (f : α) (stale : Bool) : Window α size × List (ℕ × α) :=
  if n < w.next + size then w.place n f stale
  else
    let r := w.advance (n + 1 - size)
    let r' := r.1.place n f stale
    (r'.1, r.2 ++ r'.2)

/-- All that is held is passed on; what is missing is still waited for. -/
def flush (w : Window α size) : Window α size × List (ℕ × α) := (empty w.next, w.contents)

/-- What happens at the receiver: a frame comes and finds what is held `stale` or not, the frames before a
number are given up, or what is held is found stale without a frame. -/
inductive Arrival (α : Type*)
  | frame (n : ℕ) (f : α) (stale : Bool)
  | giveUp (n : ℕ)
  | flush

/-- The frame that an arrival brings. -/
def Arrival.brings : Arrival α → List (ℕ × α)
  | .frame n f _ => [(n, f)]
  | .giveUp _ => []
  | .flush => []

def Arrival.isStale : Arrival α → Bool
  | .frame _ _ stale => stale
  | .giveUp _ => false
  | .flush => true

def step (w : Window α size) : Arrival α → Window α size × List (ℕ × α)
  | .frame n f stale => w.receive n f stale
  | .giveUp n => w.advance n
  | .flush => w.flush

def run (w : Window α size) : List (Arrival α) → Window α size × List (ℕ × α)
  | [] => (w, [])
  | a :: as =>
    let r := w.step a
    let r' := run r.1 as
    (r'.1, r.2 ++ r'.2)

/-! ## What is held -/

theorem between_congr {held held' : ℕ → Option α} (h : ∀ k, a ≤ k → k < b → held k = held' k) :
    between held a b = between held' a b := by
  apply List.filterMap_congr
  intro k hk
  obtain ⟨hle, hlt⟩ := List.mem_range'_1.mp hk
  rw [h k hle (by omega)]

theorem between_eq_nil {held : ℕ → Option α} (h : ∀ k, a ≤ k → k < b → held k = none) :
    between held a b = [] := by
  rw [between_congr h, between]
  simp

theorem held_eq_none_of_contents_eq_nil (h : w.contents = []) (n : ℕ) : w.held n = none := by
  by_contra hne
  obtain ⟨f, hf⟩ := Option.ne_none_iff_exists'.mp hne
  have hin := w.inside n (by rw [hf]; rfl)
  have hmem : (n, f) ∈ w.contents := mem_between.mpr ⟨⟨hin.1.le, hin.2⟩, hf⟩
  rw [h] at hmem
  cases hmem

theorem contents_empty (next : ℕ) : (empty next : Window α size).contents = [] :=
  between_eq_nil fun _ _ _ => rfl

theorem next_le_advance (w : Window α size) (b : ℕ) : w.next ≤ (w.advance b).1.next :=
  (le_max_left w.next b).trans (w.le_gap _)

theorem le_next_advance (w : Window α size) (b : ℕ) : b ≤ (w.advance b).1.next :=
  (le_max_right w.next b).trans (w.le_gap _)

theorem held_advance (w : Window α size) (h : (w.advance b).1.next ≤ n) : (w.advance b).1.held n = w.held n :=
  if_pos h

/-- What is not passed on is still held. -/
theorem advance_append_contents (w : Window α size) (b : ℕ) :
    (w.advance b).2 ++ (w.advance b).1.contents = between w.held w.next ((w.advance b).1.next + size) := by
  have hcontents : (w.advance b).1.contents =
      between w.held (w.advance b).1.next ((w.advance b).1.next + size) :=
    between_congr fun k hle _ => w.held_advance hle
  rw [hcontents]
  exact between_append _ (w.next_le_advance b) (Nat.le_add_right _ _)

theorem contents_eq_between (w : Window α size) (h : w.next + size ≤ b) :
    between w.held w.next b = w.contents := by
  rw [contents, ← between_append w.held (Nat.le_add_right _ _) h,
    between_eq_nil fun k hle _ => w.held_eq_none_of_ge hle, List.append_nil]

theorem advance_contents (w : Window α size) (b : ℕ) :
    (w.advance b).2 ++ (w.advance b).1.contents = w.contents := by
  rw [advance_append_contents, contents_eq_between]
  exact Nat.add_le_add_right (w.next_le_advance b) size

theorem gap_advance (w : Window α size) (h : b ≤ c) :
    (w.advance b).1.gap (max (w.advance b).1.next c) = w.gap (max w.next c) := by
  have hnext := w.next_le_advance b
  have hg : (w.advance b).1.next ≤ w.gap (max w.next c) :=
    gap_le ((max_le_max le_rfl h).trans (w.le_gap _)) (w.held_gap _)
  apply gap_eq
  · exact max_le hg ((le_max_right _ _).trans (w.le_gap _))
  · rw [w.held_advance hg, w.held_gap]
  · intro k hle hlt
    rw [w.held_advance ((le_max_left _ _).trans hle)]
    exact isSome_of_lt_gap ((max_le_max hnext le_rfl).trans hle) hlt

@[ext] theorem ext {v : Window α size} (hnext : w.next = v.next) (hheld : ∀ n, w.held n = v.held n) :
    w = v := by
  cases w
  cases v
  obtain rfl : _ = _ := hnext
  obtain rfl : _ = _ := funext hheld
  rfl

/-- To give up the numbers before `b` and then those before `c` is to give up those before `c`. -/
theorem advance_advance (w : Window α size) (h : b ≤ c) :
    ((w.advance b).1.advance c).1 = (w.advance c).1 ∧
      (w.advance b).2 ++ ((w.advance b).1.advance c).2 = (w.advance c).2 := by
  have hgap := w.gap_advance h
  have hle : (w.advance b).1.next ≤ w.gap (max w.next c) := by
    rw [← hgap]
    exact (le_max_left _ _).trans (Window.le_gap _ _)
  constructor
  · refine ext hgap fun n => ?_
    show (if (w.advance b).1.gap _ ≤ n then _ else _) = if w.gap _ ≤ n then _ else _
    rw [hgap]
    split
    · next hn => exact w.held_advance (hle.trans hn)
    · rfl
  · show _ ++ between _ _ ((w.advance b).1.gap _) = _
    rw [hgap, between_congr fun k hk _ => w.held_advance hk]
    exact between_append _ (w.next_le_advance b) hle

theorem not_overdue_advance (h : ¬ w.Overdue stale) (b : ℕ) : ¬ (w.advance b).1.Overdue stale := by
  rintro ⟨hstale, hne⟩
  refine h ⟨hstale, fun hnil => hne ?_⟩
  have hall := w.advance_contents b
  rw [hnil] at hall
  exact (List.append_eq_nil_iff.mp hall).2

/-- The frame is not late, and no frame with its number is held, or none is any more once it has come. -/
def Fresh (w : Window α size) (n : ℕ) (stale : Bool) : Prop :=
  w.next ≤ n ∧ (w.held n = none ∨ stale = true)

theorem place_of_not_fresh (h : ¬ w.Fresh n stale) (f : α) : w.place n f stale = (w, []) := by
  rw [place]
  split
  · next hn => exact absurd ⟨hn.ge, .inl (w.held_eq_none_of_le hn.le)⟩ h
  · split
    · next hin =>
      rw [if_neg fun hover => h ⟨hin.1.le, .inr hover.1⟩]
      split
      · next hnone => exact absurd ⟨hin.1.le, .inl hnone⟩ h
      · rfl
    · rfl

theorem contents_hold (h : w.next < n ∧ n < w.next + size) (hnone : w.held n = none) (f : α) :
    (w.hold n f h).contents.Perm ((n, f) :: w.contents) := by
  have hsplit (v : Window α size) (hv : v.next = w.next) : v.contents =
      between v.held w.next n ++
        (((v.held n).map (n, ·)).toList ++ between v.held (n + 1) (w.next + size)) := by
    rw [← between_succ _ h.2, between_append _ h.1.le h.2.le, contents, hv]
  have hother (k : ℕ) (hk : k ≠ n) : (w.hold n f h).held k = w.held k := Function.update_of_ne hk _ _
  have hself : (w.hold n f h).held n = some f := Function.update_self _ _ _
  rw [hsplit (w.hold n f h) rfl, hsplit w rfl, hself, hnone, between_congr fun k _ hk => hother k hk.ne,
    between_congr fun k hk _ => hother k (by omega)]
  exact List.perm_middle

/-- A fresh frame is passed on or held. -/
theorem place_contents (h : w.Fresh n stale) (hlt : n < w.next + size) (f : α) :
    ((w.place n f stale).2 ++ (w.place n f stale).1.contents).Perm ((n, f) :: w.contents) := by
  rw [place]
  split
  · exact (w.advance_contents (n + 1)).symm ▸ List.Perm.refl _
  · next hne =>
    have hin : w.next < n ∧ n < w.next + size := ⟨lt_of_le_of_ne h.1 (Ne.symm hne), hlt⟩
    rw [dif_pos hin]
    split
    · rw [contents_empty, List.append_nil]
      exact List.perm_append_singleton _ _
    · next hkeep =>
      have hnone : w.held n = none := by
        rcases h.2 with hnone | hstale
        · exact hnone
        · exact held_eq_none_of_contents_eq_nil (not_not.mp fun hne => hkeep ⟨hstale, hne⟩) n
      split
      · exact contents_hold hin hnone f
      · next hsome => exact absurd (hsome.symm.trans hnone) (Option.some_ne_none _)

theorem lt_of_not_fresh (h : ¬ w.Fresh n stale) : n < w.next + size := by
  by_contra hge
  rw [not_lt] at hge
  exact h ⟨(Nat.le_add_right _ _).trans hge, .inl (w.held_eq_none_of_ge hge)⟩

theorem receive_of_not_fresh (h : ¬ w.Fresh n stale) (f : α) : w.receive n f stale = (w, []) := by
  rw [receive, if_pos (lt_of_not_fresh h), place_of_not_fresh h]

/-- Frame `n` is the last of the window that is moved for it. -/
theorem next_advance_le (hpos : 0 < size) (h : w.next + size ≤ n) :
    (w.advance (n + 1 - size)).1.next ≤ n := by
  apply gap_le _ (w.held_eq_none_of_ge h)
  omega

theorem receive_contents (hpos : 0 < size) (h : w.Fresh n stale) (f : α) :
    ((w.receive n f stale).2 ++ (w.receive n f stale).1.contents).Perm ((n, f) :: w.contents) := by
  rw [receive]
  split
  · next hlt => exact place_contents h hlt f
  · next hge =>
    have hnext := next_advance_le hpos (not_lt.mp hge)
    have hlt := w.le_next_advance (n + 1 - size)
    have hnone := w.held_eq_none_of_ge (not_lt.mp hge)
    have hfresh : (w.advance (n + 1 - size)).1.Fresh n stale :=
      ⟨hnext, .inl ((w.held_advance hnext).trans hnone)⟩
    have hplace := (place_contents hfresh (by omega) f).append_left (w.advance (n + 1 - size)).2
    rw [← w.advance_contents (n + 1 - size), List.append_assoc]
    exact hplace.trans List.perm_middle

theorem gap_of_held_eq_none (h : w.held n = none) : w.gap n = n :=
  gap_eq le_rfl h fun _ hle hlt => absurd hle (not_le.mpr hlt)

theorem advance_of_le (h : b ≤ w.next) : w.advance b = (w, []) := by
  have hgap : w.gap (max w.next b) = w.next := by
    rw [max_eq_left h]
    exact gap_of_held_eq_none (w.held_eq_none_of_le le_rfl)
  refine Prod.ext (ext hgap fun n => ?_) ?_
  · show (if w.gap _ ≤ n then w.held n else none) = w.held n
    split
    · rfl
    · next hn => exact (w.held_eq_none_of_le (by omega)).symm
  · show between _ _ (w.gap _) = []
    rw [hgap, between_self]

/-- The window may be moved in steps for a frame from beyond it. -/
theorem receive_advance (hb : b ≤ n + 1 - size) (hge : w.next + size ≤ n) (f : α) (stale : Bool) :
    w.receive n f stale = (((w.advance b).1.receive n f stale).1,
      (w.advance b).2 ++ ((w.advance b).1.receive n f stale).2) := by
  obtain ⟨hwindow, hout⟩ := w.advance_advance hb
  rw [receive, if_neg (by omega)]
  dsimp only
  rw [← hwindow, ← hout]
  by_cases hlt : n < (w.advance b).1.next + size
  · have hsame : (w.advance b).1.advance (n + 1 - size) = ((w.advance b).1, []) := advance_of_le (by omega)
    rw [receive, if_pos hlt, hsame, List.append_nil]
  · rw [receive, if_neg hlt, List.append_assoc]

/-! ## What is passed on -/

/-- Passed on in order, from the number that is waited for to before the one that is waited for next. -/
structure InOrder (w : Window α size) (r : Window α size × List (ℕ × α)) : Prop where
  next : w.next ≤ r.1.next
  sorted : r.2.Pairwise (fun x y => x.1 < y.1)
  from_next : ∀ x ∈ r.2, w.next ≤ x.1
  to_next : ∀ x ∈ r.2, x.1 < r.1.next

theorem inOrder_nil {v : Window α size} (h : w.next ≤ v.next) : InOrder w (v, []) :=
  ⟨h, List.Pairwise.nil, fun _ h => (by cases h), fun _ h => (by cases h)⟩

theorem InOrder.append {r s : Window α size × List (ℕ × α)} (hr : InOrder w r) (hs : InOrder r.1 s) :
    InOrder w (s.1, r.2 ++ s.2) := by
  refine ⟨hr.next.trans hs.next, ?_, ?_, ?_⟩
  · refine List.pairwise_append.mpr ⟨hr.sorted, hs.sorted, fun x hx y hy => ?_⟩
    exact (hr.to_next x hx).trans_le (hs.from_next y hy)
  · intro x hx
    rcases List.mem_append.mp hx with hx | hx
    · exact hr.from_next x hx
    · exact hr.next.trans (hs.from_next x hx)
  · intro x hx
    rcases List.mem_append.mp hx with hx | hx
    · exact (hr.to_next x hx).trans_le hs.next
    · exact hs.to_next x hx

theorem inOrder_advance (w : Window α size) (b : ℕ) : InOrder w (w.advance b) where
  next := w.next_le_advance b
  sorted := pairwise_between _ _ _
  from_next _ hx := (mem_between.mp hx).1.1
  to_next _ hx := (mem_between.mp hx).1.2

theorem inOrder_place (hkeep : ¬ w.Overdue stale) (n : ℕ) (f : α) : InOrder w (w.place n f stale) := by
  rw [place]
  split
  · next hn =>
    have hadv := inOrder_advance w (n + 1)
    have hlt := le_next_advance w (n + 1)
    refine ⟨hadv.next, List.pairwise_cons.mpr ⟨fun x hx => ?_, hadv.sorted⟩, fun x hx => ?_, fun x hx => ?_⟩
    · -- number `n` itself is not held
      have hle := hadv.from_next x hx
      have hx' := (mem_between.mp hx).2
      have hne : x.1 ≠ n := by
        intro heq
        rw [heq, hn, w.held_eq_none_of_le le_rfl] at hx'
        cases hx'
      change n < x.1
      omega
    · rcases List.mem_cons.mp hx with rfl | hx
      · exact hn.ge
      · exact hadv.from_next x hx
    · rcases List.mem_cons.mp hx with rfl | hx
      · exact hlt
      · exact hadv.to_next x hx
  · split
    · split
      · exact inOrder_nil le_rfl
      · exact inOrder_nil le_rfl
    · exact inOrder_nil le_rfl

theorem inOrder_receive (hkeep : ¬ w.Overdue stale) (n : ℕ) (f : α) : InOrder w (w.receive n f stale) := by
  rw [receive]
  split
  · exact inOrder_place hkeep n f
  · exact (inOrder_advance w _).append (inOrder_place (not_overdue_advance hkeep _) n f)

theorem inOrder_step {a : Arrival α} (hkeep : ¬ w.Overdue a.isStale) : InOrder w (w.step a) := by
  cases a with
  | frame n f stale => exact inOrder_receive hkeep n f
  | giveUp n => exact inOrder_advance w n
  | flush =>
    have hnil : w.contents = [] := not_not.mp fun hne => hkeep ⟨rfl, hne⟩
    rw [step, flush, hnil]
    exact inOrder_nil le_rfl

/-- Nothing that is held becomes stale. -/
def Timely (w : Window α size) : List (Arrival α) → Prop
  | [] => True
  | a :: as => ¬ w.Overdue a.isStale ∧ Timely (w.step a).1 as

/-- As long as nothing becomes stale, frames are passed on in the order of their numbers, and no number
twice. -/
theorem inOrder_run {as : List (Arrival α)} (h : w.Timely as) : InOrder w (w.run as) := by
  induction as generalizing w with
  | nil => exact inOrder_nil le_rfl
  | cons a as ih => exact (inOrder_step h.1).append (ih h.2)

/-- Whatever is stale, the number that is waited for does not go back. -/
theorem next_le_place (w : Window α size) (n : ℕ) (f : α) (stale : Bool) :
    w.next ≤ (w.place n f stale).1.next := by
  rw [place]
  split
  · exact w.next_le_advance (n + 1)
  · split
    · next hin =>
      split
      · exact hin.1.le.trans (Nat.le_succ n)
      · split <;> exact le_rfl
    · exact le_rfl

theorem next_le_receive (w : Window α size) (n : ℕ) (f : α) (stale : Bool) :
    w.next ≤ (w.receive n f stale).1.next := by
  rw [receive]
  split
  · exact next_le_place w n f stale
  · exact (w.next_le_advance _).trans (next_le_place _ n f stale)

/-- What is passed on or held afterwards has just come, or was held before. -/
theorem step_subperm (hpos : 0 < size) (w : Window α size) (a : Arrival α) :
    ((w.step a).2 ++ (w.step a).1.contents).Subperm (a.brings ++ w.contents) := by
  cases a with
  | frame n f stale =>
    by_cases hfresh : w.Fresh n stale
    · exact (receive_contents hpos hfresh f).subperm
    · rw [step, receive_of_not_fresh hfresh]
      exact (List.sublist_cons_self _ _).subperm
  | giveUp n =>
    rw [step, advance_contents]
    exact List.Subperm.refl _
  | flush =>
    rw [step, flush, contents_empty, List.append_nil]
    exact List.Subperm.refl _

/-- Each frame that has come is passed on at most once, and nothing else is. -/
theorem run_subperm (hpos : 0 < size) (w : Window α size) (as : List (Arrival α)) :
    ((w.run as).2 ++ (w.run as).1.contents).Subperm (as.flatMap Arrival.brings ++ w.contents) := by
  induction as generalizing w with
  | nil => exact List.Subperm.refl _
  | cons a as ih =>
    have hrest := ih (w.step a).1
    have hstep := step_subperm hpos w a
    have hmid : ((w.step a).2 ++ (as.flatMap Arrival.brings ++ (w.step a).1.contents)).Perm
        (as.flatMap Arrival.brings ++ ((w.step a).2 ++ (w.step a).1.contents)) := by
      rw [← List.append_assoc, ← List.append_assoc]
      exact List.perm_append_comm.append_right _
    have hend : (as.flatMap Arrival.brings ++ (a.brings ++ w.contents)).Perm
        ((a :: as).flatMap Arrival.brings ++ w.contents) := by
      rw [List.flatMap_cons, ← List.append_assoc]
      exact List.perm_append_comm.append_right _
    rw [run, List.append_assoc]
    exact (((List.subperm_append_left _).mpr hrest).trans hmid.subperm).trans
      (((List.subperm_append_left _).mpr hstep).trans hend.subperm)

/-- No frame comes from beyond the window, and nothing is given up. -/
def Within (w : Window α size) : List (Arrival α) → Prop
  | [] => True
  | .frame n f stale :: as => n < w.next + size ∧ Within (w.receive n f stale).1 as
  | .giveUp _ :: _ => False
  | .flush :: as => Within w.flush.1 as

theorem numbers_between {held : ℕ → Option α} (h : ∀ k, a ≤ k → k < b → (held k).isSome) :
    (between held a b).map Prod.fst = List.range' a (b - a) := by
  rw [between, List.map_filterMap]
  have hall : ∀ k ∈ List.range' a (b - a), ((held k).map (k, ·)).map Prod.fst = some k := by
    intro k hk
    obtain ⟨hle, hlt⟩ := List.mem_range'_1.mp hk
    obtain ⟨f, hf⟩ := Option.isSome_iff_exists.mp (h k hle (by omega))
    rw [hf]
    rfl
  rw [List.filterMap_congr hall, List.filterMap_some]

theorem numbers_place (hkeep : ¬ w.Overdue stale) (n : ℕ) (f : α) :
    (w.place n f stale).2.map Prod.fst = List.range' w.next ((w.place n f stale).1.next - w.next) := by
  rw [place]
  split
  · next hn =>
    subst hn
    have hmax : max w.next (w.next + 1) = w.next + 1 := max_eq_right (Nat.le_succ _)
    have hgap := w.le_gap (w.next + 1)
    have hlen : w.gap (w.next + 1) - w.next = (w.gap (w.next + 1) - (w.next + 1)) + 1 := by omega
    have hnone := w.held_eq_none_of_le le_rfl
    simp only [advance, hmax, List.map_cons, hlen, List.range'_succ]
    rw [between_succ _ (by omega), hnone, Option.map_none, Option.toList_none, List.nil_append,
      numbers_between fun k hle hlt => isSome_of_lt_gap hle hlt]
  · have hnil : List.range' w.next (w.next - w.next) = [] := by simp
    split
    · split
      · exact hnil.symm
      · exact hnil.symm
    · exact hnil.symm

/-- As long as nothing becomes stale and no frame comes from beyond the window, the numbers passed on are
consecutive. -/
theorem numbers_run {as : List (Arrival α)} (htimely : w.Timely as) (h : w.Within as) :
    (w.run as).2.map Prod.fst = List.range' w.next ((w.run as).1.next - w.next) := by
  induction as generalizing w with
  | nil => simp [run]
  | cons x as ih =>
    obtain ⟨hkeep, htimely⟩ := htimely
    have hnext := (inOrder_step hkeep).next
    have hnext' := (inOrder_run htimely).next
    have hlast : w.next + 1 * ((w.step x).1.next - w.next) = (w.step x).1.next := by omega
    have hstep : (w.step x).2.map Prod.fst = List.range' w.next ((w.step x).1.next - w.next) ∧
        (w.step x).1.Within as := by
      cases x with
      | giveUp n => exact h.elim
      | flush =>
        have hnil : w.contents = [] := not_not.mp fun hne => hkeep ⟨rfl, hne⟩
        refine ⟨?_, h⟩
        simp [step, flush, empty, hnil]
      | frame n f stale =>
        refine ⟨?_, h.2⟩
        have hplace : w.step (.frame n f stale) = w.place n f stale := if_pos h.1
        rw [hplace]
        exact numbers_place hkeep n f
    rw [run, List.map_append, hstep.1, ih htimely hstep.2]
    nth_rewrite 2 [← hlast]
    rw [List.range'_append]
    congr 1
    dsimp only
    omega

end Window

end ReorderWindow
