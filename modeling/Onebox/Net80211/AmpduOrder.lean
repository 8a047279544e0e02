import Onebox.Net80211.AmpduRx
import Onebox.ReorderWindow

/-! The reorder queue refines a window of unbounded sequence numbers, also when frames have been held for too
long. As long as none has, frames leave the queue in the order of their numbers; each leaves it once. -/

namespace Onebox.Net80211

open ReorderWindow

variable {rap : RxAmpdu} {b : Mbuf} {i j k e n : Nat}

/-! ## The loops over the slots -/

/-- The frames in the slots from `a` to before `b`. -/
def frames (m : Nat → Option Mbuf) (a b : Nat) : List Mbuf := (Window.between m a b).map Prod.snd

theorem frames_self (m : Nat → Option Mbuf) (a : Nat) : frames m a a = [] := by
  rw [frames, Window.between_self]
  rfl

theorem frames_succ (m : Nat → Option Mbuf) (h : i < e) :
    frames m i e = (m i).toList ++ frames m (i + 1) e := by
  rw [frames, Window.between_succ m h, List.map_append, frames]
  cases m i <;> rfl

theorem frames_append (m : Nat → Option Mbuf) (hij : i ≤ j) (hje : j ≤ e) :
    frames m i j ++ frames m j e = frames m i e := by
  rw [frames, frames, frames, ← Window.between_append m hij hje, List.map_append]

theorem frames_congr {m m' : Nat → Option Mbuf} (h : ∀ x, i ≤ x → x < e → m x = m' x) :
    frames m i e = frames m' i e := by
  rw [frames, frames, Window.between_congr h]

theorem frames_eq_nil {m : Nat → Option Mbuf} (h : ∀ x, i ≤ x → x < e → m x = none) : frames m i e = [] := by
  rw [frames, Window.between_eq_nil h]
  rfl

theorem eq_none_of_frames_eq_nil {m : Nat → Option Mbuf} (h : frames m i e = []) (hle : i ≤ j) (hlt : j < e) :
    m j = none := by
  by_contra hne
  obtain ⟨b, hb⟩ := Option.ne_none_iff_exists'.mp hne
  have hmem : (j, b) ∈ Window.between m i e := Window.mem_between.mpr ⟨⟨hle, hlt⟩, hb⟩
  rw [List.map_eq_nil_iff.mp h] at hmem
  cases hmem

theorem frames_shift (m : Nat → Option Mbuf) (s i e : Nat) :
    frames (fun x => m (s + x)) i e = frames m (s + i) (s + e) := by
  have hlen : s + e - (s + i) = e - i := by omega
  rw [frames, frames, Window.between, Window.between, hlen, ← List.map_add_range', List.filterMap_map,
    List.map_filterMap, List.map_filterMap]
  apply List.filterMap_congr
  intro x _
  cases h : m (s + x) <;> simp [h]

theorem frames_copied {m : Nat → Option Mbuf} {wnd : Nat} (hlow : ∀ x, x < e → m x = none)
    (hend : ∀ x, wnd ≤ x → m x = none) : frames (fun x => m (x + e)) 0 wnd = frames m 0 wnd := by
  have hcomm : (fun x => m (x + e)) = fun x => m (e + x) := by
    funext x
    rw [Nat.add_comm]
  calc frames (fun x => m (x + e)) 0 wnd = frames m e (e + wnd) := by rw [hcomm, frames_shift, Nat.add_zero]
    _ = frames m 0 e ++ frames m e (e + wnd) := by rw [frames_eq_nil fun x _ hx => hlow x hx, List.nil_append]
    _ = frames m 0 wnd ++ frames m wnd (e + wnd) := by
      rw [frames_append m (by omega) (by omega), frames_append m (by omega) (by omega)]
    _ = frames m 0 wnd := by rw [frames_eq_nil fun x hx _ => hend x hx, List.append_nil]

/-- The slots from `a` to before `b` have been emptied. -/
def RxAmpdu.cleared (rap : RxAmpdu) (a b : Nat) : RxAmpdu :=
  { rap with
    m := fun j => if a ≤ j ∧ j < b then none else rap.m j
    qframes := rap.qframes - (frames rap.m a b).length
    qbytes := rap.qbytes - ((frames rap.m a b).map Mbuf.pktLen).sum }

theorem RxAmpdu.cleared_eq_self (h : frames rap.m i e = []) : rap.cleared i e = rap := by
  have hm : (fun j => if i ≤ j ∧ j < e then none else rap.m j) = rap.m := by
    funext j
    split
    · next hj => exact (eq_none_of_frames_eq_nil h hj.1 hj.2).symm
    · rfl
  simp [cleared, h, hm]

theorem RxAmpdu.cleared_succ_of_none (h : rap.m i = none) (hlt : i < e) :
    rap.cleared (i + 1) e = rap.cleared i e := by
  have hm : (fun j => if i + 1 ≤ j ∧ j < e then none else rap.m j) =
      fun j => if i ≤ j ∧ j < e then none else rap.m j := by
    funext j
    by_cases hj : j = i
    · simp [hj, h]
    · have hiff : i + 1 ≤ j ∧ j < e ↔ i ≤ j ∧ j < e := by omega
      simp only [hiff]
  rw [cleared, cleared, hm, frames_succ rap.m hlt, h, Option.toList_none, List.nil_append]

theorem RxAmpdu.frames_release (rap : RxAmpdu) (i e : Nat) (b : Mbuf) :
    frames (rap.release i b).m (i + 1) e = frames rap.m (i + 1) e :=
  frames_congr fun _ hx _ => Function.update_of_ne (by omega) _ _

theorem RxAmpdu.cleared_release (h : rap.m i = some b) (hlt : i < e) :
    (rap.release i b).cleared (i + 1) e = rap.cleared i e := by
  have hm : (fun j => if i + 1 ≤ j ∧ j < e then none else (rap.release i b).m j) =
      fun j => if i ≤ j ∧ j < e then none else rap.m j := by
    funext j
    by_cases hj : j = i
    · simp [hj, hlt, release]
    · have hiff : i + 1 ≤ j ∧ j < e ↔ i ≤ j ∧ j < e := by omega
      have hother : (rap.release i b).m j = rap.m j := Function.update_of_ne hj _ _
      simp only [hiff, hother]
  rw [cleared, cleared, hm, frames_release, frames_succ rap.m hlt, h]
  simp only [release, Option.toList_some, List.singleton_append, List.length_cons, List.map_cons,
    List.sum_cons, Nat.cast_add, Nat.cast_one, RxAmpdu.mk.injEq, true_and, and_true]
  omega

/-- The loop empties the run of full slots that begins at slot `i`. -/
theorem RxAmpdu.dispatchLoop_eq (hie : i ≤ e) (hek : e ≤ i + k)
    (hsome : ∀ j, i ≤ j → j < e → (rap.m j).isSome) (hstop : e = i + k ∨ rap.m e = none) :
    dispatchLoop k i rap = (e, rap.cleared i e, (frames rap.m i e).map .up) := by
  induction k generalizing i rap with
  | zero =>
    obtain rfl : e = i := by omega
    rw [dispatchLoop, cleared_eq_self (frames_self _ _), frames_self]
    rfl
  | succ k ih =>
    rw [dispatchLoop]
    by_cases hi : i = e
    · subst hi
      have hnone : rap.m i = none := hstop.resolve_left (by omega)
      rw [hnone, cleared_eq_self (frames_self _ _), frames_self]
      rfl
    · have hlt : i < e := by omega
      obtain ⟨b, hb⟩ := Option.isSome_iff_exists.mp (hsome i le_rfl hlt)
      have hother (j : Nat) (hj : i + 1 ≤ j) : (rap.release i b).m j = rap.m j :=
        Function.update_of_ne (by omega) _ _
      have hrest : dispatchLoop k (i + 1) (rap.release i b) =
          (e, (rap.release i b).cleared (i + 1) e, (frames (rap.release i b).m (i + 1) e).map .up) := by
        apply ih hlt (by omega)
        · intro j hle hj
          rw [hother j hle]
          exact hsome j (by omega) hj
        · rw [hother e hlt]
          exact hstop.imp (by omega) id
      rw [hb]
      simp only [hrest]
      rw [cleared_release hb hlt, frames_release, frames_succ rap.m hlt, hb]
      rfl

/-- The loop empties all slots, if the count of the frames is right. -/
theorem RxAmpdu.drainLoop_eq (fate : Mbuf → RxFate) (hq : rap.qframes = (frames rap.m i (i + k)).length) :
    drainLoop fate k i rap = (rap.cleared i (i + k), (frames rap.m i (i + k)).map fate) := by
  induction k generalizing i rap with
  | zero =>
    rw [drainLoop, Nat.add_zero, cleared_eq_self (frames_self _ _), frames_self]
    rfl
  | succ k ih =>
    have hlt : i < i + (k + 1) := by omega
    have hend : i + (k + 1) = i + 1 + k := by omega
    rw [drainLoop]
    cases hb : rap.m i with
    | none =>
      have hframes : frames rap.m i (i + (k + 1)) = frames rap.m (i + 1) (i + 1 + k) := by
        rw [frames_succ rap.m hlt, hb, hend]
        rfl
      rw [hframes] at hq ⊢
      rw [← cleared_succ_of_none hb hlt, hend]
      exact ih hq
    | some b =>
      have hframes : frames rap.m i (i + (k + 1)) = b :: frames (rap.release i b).m (i + 1) (i + 1 + k) := by
        rw [frames_release, frames_succ rap.m hlt, hb, hend]
        rfl
      have hq' : (rap.release i b).qframes = (frames (rap.release i b).m (i + 1) (i + 1 + k)).length := by
        rw [hframes, List.length_cons] at hq
        simp only [release] at hq ⊢
        omega
      rw [hframes, ← cleared_release hb hlt, hend]
      by_cases hzero : (rap.release i b).qframes = 0
      · have hnil : frames (rap.release i b).m (i + 1) (i + 1 + k) = [] := by
          rw [hzero] at hq'
          exact List.length_eq_zero_iff.mp (by omega)
        simp only [hzero, if_true]
        rw [cleared_eq_self hnil, hnil]
        rfl
      · simp only [hzero, if_false]
        rw [ih hq']
        rfl

/-- The loop empties the slots up to the first empty one that is not before `winstart`. -/
theorem RxAmpdu.flushUptoLoop_eq {s winstart : Nat} (hie : i ≤ e) (hek : e ≤ i + k)
    (hgo : ∀ j, i ≤ j → j < e → (rap.m j).isSome ∨ seqBaBefore ((s + j) % seqRange) winstart = true)
    (hstop : e = i + k ∨ rap.m e = none ∧ seqBaBefore ((s + e) % seqRange) winstart = false) :
    flushUptoLoop winstart k i ((s + i) % seqRange) rap =
      (e, (s + e) % seqRange, rap.cleared i e, (frames rap.m i e).map .up) := by
  induction k generalizing i rap with
  | zero =>
    obtain rfl : e = i := by omega
    rw [flushUptoLoop, cleared_eq_self (frames_self _ _), frames_self]
    rfl
  | succ k ih =>
    rw [flushUptoLoop]
    by_cases hi : i = e
    · subst hi
      obtain ⟨hnone, hbefore⟩ := hstop.resolve_left (by omega)
      rw [hnone, cleared_eq_self (frames_self _ _), frames_self]
      simp only [hbefore]
      rfl
    · have hlt : i < e := by omega
      have hseq : seqInc ((s + i) % seqRange) = (s + (i + 1)) % seqRange := SeqSpace.add_mod _ _ _
      cases hb : rap.m i with
      | none =>
        have hbefore : seqBaBefore ((s + i) % seqRange) winstart = true := by
          have h := hgo i le_rfl hlt
          rw [hb] at h
          exact h.resolve_left (by simp)
        simp only [hbefore, if_true, hseq]
        rw [ih hlt (by omega) (fun j hle hj => hgo j (by omega) hj) (hstop.imp (by omega) id),
          cleared_succ_of_none hb hlt, frames_succ rap.m hlt, hb]
        rfl
      | some b =>
        have hother (j : Nat) (hj : i + 1 ≤ j) : (rap.release i b).m j = rap.m j :=
          Function.update_of_ne (by omega) _ _
        have hrest : flushUptoLoop winstart k (i + 1) ((s + (i + 1)) % seqRange) (rap.release i b) =
            (e, (s + e) % seqRange, (rap.release i b).cleared (i + 1) e,
              (frames (rap.release i b).m (i + 1) e).map .up) := by
          apply ih hlt (by omega)
          · intro j hle hj
            rw [hother j hle]
            exact hgo j (by omega) hj
          · rw [hother e hlt]
            exact hstop.imp (by omega) id
        simp only [hseq, hrest]
        rw [cleared_release hb hlt, frames_release, frames_succ rap.m hlt, hb]
        rfl

/-- The frames behind slot `i` are copied down by `i` slots. `m` is what the loop has made of `orig` when it
comes to slot `j`. -/
theorem RxAmpdu.copyDown_eq {m orig : Nat → Option Mbuf} {c : Int} (hi : 0 < i) (hij : i < j)
    (hm : ∀ x, m x = if x + i < j then orig (x + i) else if x < j then none else orig x)
    (hend : ∀ x, j + k ≤ x → orig x = none) (hc : c = (frames orig j (j + k)).length) :
    copyDown i k j c m = fun x => orig (x + i) := by
  induction k generalizing j c m with
  | zero =>
    rw [copyDown]
    funext x
    rw [hm x]
    split
    · rfl
    · next hx =>
      rw [hend (x + i) (by omega)]
      split
      · rfl
      · exact hend x (by omega)
  | succ k ih =>
    have hlt : j < j + (k + 1) := by omega
    have hnext : j + (k + 1) = j + 1 + k := by omega
    have hmj : m j = orig j := by
      rw [hm j, if_neg (by omega), if_neg (by omega)]
    rw [copyDown, hmj]
    rw [frames_succ orig hlt, hnext] at hc
    cases hb : orig j with
    | none =>
      rw [hb] at hc
      refine ih (by omega) (fun x => ?_) (fun x hx => hend x (by omega)) hc
      rw [hm x]
      by_cases hx : x + i = j
      · rw [if_neg (by omega), if_pos (by omega), if_pos (by omega), hx, hb]
      · by_cases hxj : x = j
        · rw [if_neg (by omega), if_neg (by omega), if_neg (by omega), if_pos (by omega), hxj, hb]
        · have h1 : x + i < j + 1 ↔ x + i < j := by omega
          have h2 : x < j + 1 ↔ x < j := by omega
          simp only [h1, h2]
    | some b =>
      rw [hb] at hc
      have hm' : ∀ x, Function.update (Function.update m (j - i) (some b)) j none x =
          if x + i < j + 1 then orig (x + i) else if x < j + 1 then none else orig x := by
        intro x
        by_cases hxj : x = j
        · rw [hxj, Function.update_self, if_neg (by omega), if_pos (by omega)]
        · rw [Function.update_of_ne hxj]
          by_cases hx : x = j - i
          · rw [hx, Function.update_self, if_pos (by omega), Nat.sub_add_cancel hij.le, hb]
          · rw [Function.update_of_ne hx, hm x]
            have h1 : x + i < j + 1 ↔ x + i < j := by omega
            have h2 : x < j + 1 ↔ x < j := by omega
            simp only [h1, h2]
      have hc' : c - 1 = (frames orig (j + 1) (j + 1 + k)).length := by
        rw [Option.toList_some, List.singleton_append, List.length_cons] at hc
        omega
      by_cases hzero : c - 1 = 0
      · -- no frame is left behind slot `j`
        have hnil : frames orig (j + 1) (j + 1 + k) = [] := List.length_eq_zero_iff.mp (by omega)
        simp only [hzero, if_true]
        funext x
        rw [hm' x]
        have hnone (y : Nat) (hy : j + 1 ≤ y) : orig y = none := by
          by_cases hlast : y < j + 1 + k
          · exact eq_none_of_frames_eq_nil hnil hy hlast
          · exact hend y (by omega)
        split
        · rfl
        · rw [hnone (x + i) (by omega)]
          split
          · rfl
          · exact hnone x (by omega)
      · simp only [hzero, if_false]
        exact ih (by omega) hm' (fun x hx => hend x (by omega)) hc'

/-- The counters of the queue are those of the frames in its slots. -/
structure RxAmpdu.Counted (rap : RxAmpdu) : Prop where
  qframes : rap.qframes = (frames rap.m 0 rap.wnd).length
  qbytes : rap.qbytes = ((frames rap.m 0 rap.wnd).map Mbuf.pktLen).sum

theorem RxAmpdu.Counted.cleared (h : rap.Counted) (hle : e ≤ rap.wnd) : (rap.cleared 0 e).Counted := by
  have hsplit := frames_append rap.m (Nat.zero_le e) hle
  have hrest : frames (rap.cleared 0 e).m 0 rap.wnd = frames rap.m e rap.wnd := by
    have hnil : frames (rap.cleared 0 e).m 0 e = [] := frames_eq_nil fun x hx hxe => if_pos ⟨hx, hxe⟩
    have hcongr : frames (rap.cleared 0 e).m e rap.wnd = frames rap.m e rap.wnd :=
      frames_congr fun x hx _ => if_neg (by omega)
    rw [← frames_append _ (Nat.zero_le e) hle, hnil, hcongr]
    rfl
  constructor
  · show rap.qframes - (frames rap.m 0 e).length = (frames _ 0 rap.wnd).length
    rw [hrest, h.qframes, ← hsplit, List.length_append]
    omega
  · show rap.qbytes - ((frames rap.m 0 e).map Mbuf.pktLen).sum = ((frames _ 0 rap.wnd).map Mbuf.pktLen).sum
    rw [hrest, h.qbytes, ← hsplit, List.map_append, List.sum_append]
    omega

theorem RxAmpdu.shift_eq (hi : 0 < i) (hle : i ≤ rap.wnd) (hlow : ∀ x, x ≤ i → rap.m x = none)
    (hend : ∀ x, rap.wnd ≤ x → rap.m x = none) (hq : rap.qframes = (frames rap.m 0 rap.wnd).length) :
    rap.shift i = { rap with m := fun x => rap.m (x + i) } := by
  rw [shift]
  split
  · next hne =>
    have hlt : i < rap.wnd := by
      by_contra hge
      rw [frames_eq_nil fun x _ hx => hlow x (by omega)] at hq
      exact hne hq
    have hlast : i + 1 + (rap.wnd - (i + 1)) = rap.wnd := by omega
    have hframes : frames rap.m 0 rap.wnd = frames rap.m (i + 1) rap.wnd := by
      rw [← frames_append rap.m (Nat.zero_le (i + 1)) hlt, frames_eq_nil fun x _ hx => hlow x (by omega)]
      rfl
    rw [copyDown_eq hi (Nat.lt_succ_self i)]
    · intro x
      split
      · rw [hlow x (by omega), hlow (x + i) (by omega)]
      · split
        · exact hlow x (by omega)
        · rfl
    · intro x hx
      exact hend x (by omega)
    · rw [hlast, ← hframes]
      exact hq
  · next hzero =>
    rw [not_not] at hzero
    have hnil : frames rap.m 0 rap.wnd = [] := List.length_eq_zero_iff.mp (by omega)
    have hnone (x : Nat) : rap.m x = none := by
      by_cases hx : x < rap.wnd
      · exact eq_none_of_frames_eq_nil hnil (Nat.zero_le x) hx
      · exact hend x (by omega)
    have hm : (fun x => rap.m (x + i)) = rap.m := by
      funext x
      rw [hnone, hnone]
    rw [hm]

/-! ## The window that the queue stands for -/

/-- The queue holds in slot `i` what the window holds `i` numbers behind the one that is waited for. -/
structure Tracks {size : Nat} (w : Window Mbuf size) (rap : RxAmpdu) : Prop where
  pos : 0 < size
  le_max : size ≤ aggrBawmax
  agreed : rap.running = true ∧ rap.xchgPend = true
  wnd : rap.wnd = size
  start : rap.start = w.next % seqRange
  slot : ∀ i, rap.m i = w.held (w.next + i)
  counted : rap.Counted

section Window

variable {size : Nat} {w : Window Mbuf size}

theorem Tracks.slot_zero (h : Tracks w rap) : rap.m 0 = none := by
  rw [h.slot 0]
  exact w.held_eq_none_of_le le_rfl

theorem Tracks.slot_end (h : Tracks w rap) (hle : rap.wnd ≤ i) : rap.m i = none := by
  rw [h.slot i]
  rw [h.wnd] at hle
  exact w.held_eq_none_of_ge (by omega)

theorem frames_of_slots {m held : Nat → Option Mbuf} {s : Nat} (h : ∀ i, m i = held (s + i)) (i e : Nat) :
    frames m i e = (Window.between held (s + i) (s + e)).map Prod.snd := by
  rw [frames_congr fun x _ _ => h x]
  exact frames_shift held s i e

theorem Tracks.frames_eq (h : Tracks w rap) (i e : Nat) :
    frames rap.m i e = (Window.between w.held (w.next + i) (w.next + e)).map Prod.snd :=
  frames_of_slots h.slot i e

theorem Tracks.frames_contents (h : Tracks w rap) : frames rap.m 0 rap.wnd = w.contents.map Prod.snd := by
  rw [h.frames_eq, h.wnd]
  rfl

/-- The slots before slot `e` are emptied, and the frames that remain are copied down. -/
theorem Tracks.moved (h : Tracks w rap) (hpos : 0 < e) (hle : e ≤ size)
    (hb : w.gap (max w.next n) = w.next + e) :
    Tracks (w.advance n).1 { (rap.cleared 0 e).shift e with start := (w.next + e) % seqRange } := by
  have hle' : e ≤ rap.wnd := h.wnd ▸ hle
  have hcounted := h.counted.cleared hle'
  have hlow (x : Nat) (hx : x ≤ e) : (rap.cleared 0 e).m x = none := by
    show (if 0 ≤ x ∧ x < e then none else rap.m x) = none
    split
    · rfl
    · obtain rfl : x = e := by omega
      rw [h.slot, ← hb, w.held_gap]
  have hhigh (x : Nat) (hx : e ≤ x) : (rap.cleared 0 e).m x = rap.m x := if_neg (by omega)
  have hend (x : Nat) (hx : rap.wnd ≤ x) : (rap.cleared 0 e).m x = none := by
    rw [hhigh x (by omega), h.slot_end hx]
  have hshift : (rap.cleared 0 e).shift e =
      { rap.cleared 0 e with m := fun x => (rap.cleared 0 e).m (x + e) } :=
    RxAmpdu.shift_eq hpos hle' hlow hend hcounted.qframes
  have hframes := frames_copied (fun x hx => hlow x hx.le) hend
  rw [hshift]
  exact {
    pos := h.pos
    le_max := h.le_max
    agreed := h.agreed
    wnd := h.wnd
    start := by rw [← hb]; rfl
    slot := by
      intro x
      have hnext : (w.advance n).1.next = w.next + e := hb
      show (rap.cleared 0 e).m (x + e) = _
      rw [hhigh _ (by omega), h.slot, hnext, w.held_advance (by omega)]
      congr 1
      omega
    counted := by
      constructor
      · show (rap.cleared 0 e).qframes = (frames (fun x => (rap.cleared 0 e).m (x + e)) 0 rap.wnd).length
        rw [hframes]
        exact hcounted.qframes
      · show (rap.cleared 0 e).qbytes =
          ((frames (fun x => (rap.cleared 0 e).m (x + e)) 0 rap.wnd).map Mbuf.pktLen).sum
        rw [hframes]
        exact hcounted.qbytes }

/-- The number of the first slot that stays: the first gap from number `n` on. -/
theorem Tracks.exists_slot (h : Tracks w rap) (hlow : w.next < n) (hhigh : n ≤ w.next + size) :
    ∃ e, w.gap (max w.next n) = w.next + e ∧ 0 < e ∧ e ≤ size ∧ rap.m e = none ∧
      ∀ j, n ≤ w.next + j → j < e → (rap.m j).isSome := by
  have hmax : max w.next n = n := max_eq_right hlow.le
  have hge := w.le_gap n
  have hle : w.gap n ≤ w.next + size := Window.gap_le hhigh (w.held_eq_none_of_ge le_rfl)
  have hgap : w.next + (w.gap n - w.next) = w.gap n := by omega
  refine ⟨w.gap n - w.next, by rw [hmax, hgap], by omega, by omega, ?_, fun j hj hlt => ?_⟩
  · rw [h.slot, hgap, w.held_gap]
  · rw [h.slot]
    exact Window.isSome_of_lt_gap hj (by omega)

theorem seqBaBefore_of_lt {x y : Nat} (hlt : x < y) (h : y - x < seqBaRange) :
    seqBaBefore (x % seqRange) (y % seqRange) = true := by
  have hsub : seqSub (y % seqRange) (x % seqRange + 1) = y - (x + 1) := by
    rw [seqSub, SeqSpace.sub_mod_succ (by decide), SeqSpace.sub_mod hlt]
    simp only [seqBaRange, seqRange] at h ⊢
    omega
  rw [seqBaBefore, hsub, decide_eq_true_eq]
  omega

theorem seqBaBefore_of_ge {x y : Nat} (hle : y ≤ x) (h : x - y < seqBaRange) :
    seqBaBefore (x % seqRange) (y % seqRange) = false := by
  have hsub : seqSub (y % seqRange) (x % seqRange + 1) = seqRange - (x + 1 - y) := by
    rw [seqSub, SeqSpace.sub_mod_succ (by decide), SeqSpace.sub_mod_of_lt (by omega)]
    simp only [seqBaRange, seqRange] at h ⊢
    omega
  rw [seqBaBefore, hsub, decide_eq_false_iff_not]
  simp only [seqBaRange, seqRange] at h ⊢
  omega

theorem Tracks.cleared_one (h : Tracks w rap) (hpos : 0 < e) :
    rap.cleared 1 e = rap.cleared 0 e ∧ frames rap.m 1 e = frames rap.m 0 e := by
  refine ⟨RxAmpdu.cleared_succ_of_none h.slot_zero hpos, ?_⟩
  rw [frames_succ rap.m hpos, h.slot_zero]
  rfl

/-- The frames that go up when the window moves. -/
theorem Tracks.delivered (h : Tracks w rap) (hb : w.gap (max w.next n) = w.next + e) :
    (frames rap.m 0 e).map RxFate.up = (w.advance n).2.map fun x => RxFate.up x.2 := by
  rw [h.frames_eq, ← hb, List.map_map]
  rfl

theorem Tracks.dispatch (h : Tracks w rap) :
    Tracks (w.advance (w.next + 1)).1 rap.ampduRxDispatch.1 ∧
      rap.ampduRxDispatch.2 = (w.advance (w.next + 1)).2.map fun x => .up x.2 := by
  have hsize := h.pos
  obtain ⟨e, hgap, hpos, hle, hnone, hsome⟩ := h.exists_slot (Nat.lt_succ_self _) (by omega)
  have hloop : RxAmpdu.dispatchLoop (rap.wnd - 1) 1 rap =
      (e, rap.cleared 1 e, (frames rap.m 1 e).map .up) := by
    refine RxAmpdu.dispatchLoop_eq hpos ?_ (fun j hj hlt => hsome j (by omega) hlt) (.inr hnone)
    rw [h.wnd]
    omega
  obtain ⟨hcleared, hframes⟩ := h.cleared_one hpos
  have hstart : seqAdd ((rap.cleared 0 e).shift e).start e = (w.next + e) % seqRange := by
    have hshift : ((rap.cleared 0 e).shift e).start = w.next % seqRange := by
      rw [← h.start, RxAmpdu.shift]
      split <;> rfl
    rw [hshift]
    exact SeqSpace.add_mod _ _ _
  rw [RxAmpdu.ampduRxDispatch, hloop, hcleared, hframes]
  dsimp only
  rw [hstart]
  exact ⟨h.moved hpos hle hgap, h.delivered hgap⟩

theorem Tracks.flushUpto {d : Nat} (h : Tracks w rap) (hd : 0 < d) (hlt : d < seqBaRange) :
    Tracks (w.advance (w.next + min d size)).1 (rap.ampduRxFlushUpto ((w.next + d) % seqRange)).1 ∧
      (rap.ampduRxFlushUpto ((w.next + d) % seqRange)).2 =
        (w.advance (w.next + min d size)).2.map fun x => .up x.2 := by
  have hsize := h.pos
  have hmax := h.le_max
  obtain ⟨e, hgap, hpos, hle, hnone, hsome⟩ : ∃ e, w.gap (max w.next (w.next + min d size)) = w.next + e ∧
      0 < e ∧ e ≤ size ∧ rap.m e = none ∧ ∀ j, w.next + min d size ≤ w.next + j → j < e → (rap.m j).isSome :=
    h.exists_slot (by omega) (by omega)
  have hge : min d size ≤ e := by
    have := (le_max_right w.next (w.next + min d size)).trans (w.le_gap _)
    omega
  have hloop : RxAmpdu.flushUptoLoop ((w.next + d) % seqRange) rap.wnd 0 ((w.next + 0) % seqRange) rap =
      (e, (w.next + e) % seqRange, rap.cleared 0 e, (frames rap.m 0 e).map .up) := by
    apply RxAmpdu.flushUptoLoop_eq (Nat.zero_le e)
    · rw [h.wnd]
      omega
    · intro j _ hj
      by_cases hjd : j < min d size
      · exact .inr (seqBaBefore_of_lt (by omega) (by omega))
      · exact .inl (hsome j (by omega) hj)
    · rw [h.wnd]
      by_cases he : e = size
      · exact .inl (by omega)
      · -- the loop ends before the end of the window, so it has come to number `d`
        refine .inr ⟨hnone, seqBaBefore_of_ge (by omega) ?_⟩
        simp only [aggrBawmax, seqBaRange] at hmax ⊢
        omega
  rw [Nat.add_zero, ← h.start] at hloop
  rw [RxAmpdu.ampduRxFlushUpto, hloop]
  exact ⟨h.moved hpos hle hgap, h.delivered hgap⟩

theorem Tracks.eq_none_of_qframes (h : Tracks w rap) (hq : rap.qframes = 0) (i : Nat) : rap.m i = none := by
  have hnil : frames rap.m 0 rap.wnd = [] := List.length_eq_zero_iff.mp (by have := h.counted.qframes; omega)
  by_cases hi : i < rap.wnd
  · exact eq_none_of_frames_eq_nil hnil (Nat.zero_le i) hi
  · exact h.slot_end (not_lt.mp hi)

/-- The frame that is waited for comes, and no frame is held. -/
theorem Tracks.inOrder (h : Tracks w rap) (hq : rap.qframes = 0) :
    Tracks (w.advance (w.next + 1)).1 { rap with start := (w.next + 1) % seqRange } ∧
      (w.advance (w.next + 1)).2 = [] := by
  have hnone := h.eq_none_of_qframes hq
  have hheld (n : Nat) (hn : w.next ≤ n) : w.held n = none := by
    have hslot := h.slot (n - w.next)
    rw [hnone, Nat.add_sub_cancel' hn] at hslot
    exact hslot.symm
  have hgap : w.gap (max w.next (w.next + 1)) = w.next + 1 := by
    rw [max_eq_right (Nat.le_succ _), Window.gap_of_held_eq_none (hheld _ (Nat.le_succ _))]
  have hcleared : rap.cleared 0 1 = rap := RxAmpdu.cleared_eq_self (frames_eq_nil fun x _ _ => hnone x)
  have hshift : rap.shift 1 = rap := if_neg (not_not.mpr hq)
  have hmoved := h.moved Nat.one_pos h.pos hgap
  rw [hcleared, hshift] at hmoved
  refine ⟨hmoved, ?_⟩
  show Window.between _ _ (w.gap _) = []
  exact Window.between_eq_nil fun k hk _ => hheld k hk

/-- A frame is put into its slot. -/
theorem Tracks.hold (h : Tracks w rap) (hin : w.next < n ∧ n < w.next + size) (hnone : w.held n = none) :
    Tracks (w.hold n b hin) { rap with
      m := Function.update rap.m (n - w.next) (some b)
      qframes := rap.qframes + 1
      qbytes := rap.qbytes + b.pktLen } := by
  have hslot : ∀ i, Function.update rap.m (n - w.next) (some b) i =
      Function.update w.held n (some b) (w.next + i) := by
    intro i
    by_cases hi : i = n - w.next
    · have hn : w.next + i = n := by omega
      rw [hi, Function.update_self, ← hi, hn, Function.update_self]
    · rw [Function.update_of_ne hi, Function.update_of_ne (by omega), h.slot]
  have hframes : (frames (Function.update rap.m (n - w.next) (some b)) 0 rap.wnd).Perm
      (b :: frames rap.m 0 rap.wnd) := by
    rw [frames_of_slots hslot, h.frames_contents, h.wnd]
    exact (Window.contents_hold hin hnone b).map Prod.snd
  refine ⟨h.pos, h.le_max, h.agreed, h.wnd, h.start, hslot, ?_, ?_⟩
  · show rap.qframes + 1 = (frames (Function.update rap.m (n - w.next) (some b)) 0 rap.wnd).length
    rw [hframes.length_eq, h.counted.qframes]
    rfl
  · show rap.qbytes + b.pktLen =
      ((frames (Function.update rap.m (n - w.next) (some b)) 0 rap.wnd).map Mbuf.pktLen).sum
    rw [(hframes.map Mbuf.pktLen).sum_eq, h.counted.qbytes, List.map_cons, List.sum_cons]
    omega

theorem Tracks.empty {v : RxAmpdu} (h : Tracks w rap) (hagreed : v.running = true ∧ v.xchgPend = true)
    (hwnd : v.wnd = rap.wnd)
    (hstart : v.start = n % seqRange)
    (hm : ∀ i, v.m i = none) (hqframes : v.qframes = 0) (hqbytes : v.qbytes = 0) :
    Tracks (Window.empty n : Window Mbuf size) v := by
  have hnil : frames v.m 0 v.wnd = [] := frames_eq_nil fun x _ _ => hm x
  refine ⟨h.pos, h.le_max, hagreed, hwnd.trans h.wnd, hstart, hm, ?_, ?_⟩
  · rw [hnil, hqframes]
    rfl
  · rw [hnil, hqbytes]
    rfl

/-- All frames leave the queue; the window may start anywhere then. -/
theorem Tracks.drain (h : Tracks w rap) (fate : Mbuf → RxFate) :
    RxAmpdu.drainLoop fate rap.wnd 0 rap = (rap.cleared 0 rap.wnd, (w.contents.map Prod.snd).map fate) ∧
      ∀ n, Tracks (Window.empty n : Window Mbuf size)
        { rap.cleared 0 rap.wnd with start := n % seqRange } := by
  have hq := h.counted.qframes
  have hcounted := h.counted.cleared le_rfl
  have hm (i : Nat) : (rap.cleared 0 rap.wnd).m i = none := by
    show (if 0 ≤ i ∧ i < rap.wnd then none else rap.m i) = none
    split
    · rfl
    · exact h.slot_end (by omega)
  have hnil : frames (rap.cleared 0 rap.wnd).m 0 (rap.cleared 0 rap.wnd).wnd = [] :=
    frames_eq_nil fun x _ _ => hm x
  constructor
  · have hloop : RxAmpdu.drainLoop fate rap.wnd 0 rap =
        (rap.cleared 0 (0 + rap.wnd), (frames rap.m 0 (0 + rap.wnd)).map fate) :=
      RxAmpdu.drainLoop_eq fate (by rw [Nat.zero_add]; exact hq)
    rw [hloop, Nat.zero_add, h.frames_contents]
  · intro n
    refine h.empty h.agreed rfl rfl hm ?_ ?_
    · have := hcounted.qframes
      rw [hnil] at this
      exact this
    · have := hcounted.qbytes
      rw [hnil] at this
      exact this

/-! ## A frame comes in -/

theorem seqSub_start (h : Tracks w rap) (hle : w.next ≤ n) (hlt : n < w.next + seqBaRange) :
    seqSub (n % seqRange) rap.start = n - w.next := by
  rw [h.start, seqSub, SeqSpace.sub_mod hle]
  simp only [seqBaRange, seqRange] at hlt ⊢
  omega

theorem seq_ne_start (h : Tracks w rap) (hne : n ≠ w.next) (hlow : w.next ≤ n + seqBaRange)
    (hhigh : n < w.next + seqBaRange) : n % seqRange ≠ rap.start := by
  rw [h.start]
  simp only [seqBaRange, seqRange] at hlow hhigh ⊢
  omega

/-- What has become of frame `n` in the queue is what becomes of it in the window; a frame that the window
does not take is freed. -/
structure Follows (w : Window Mbuf size) (n : Nat) (b : Mbuf) (expired : Bool)
    (r : RxAmpdu × List RxFate × RxAmpdu.Verdict) : Prop where
  tracks : Tracks (w.receive n b expired).1 (settle b r).1
  taken : w.Fresh n expired → (settle b r).2 = (w.receive n b expired).2.map fun x => .up x.2
  refused : ¬ w.Fresh n expired → (settle b r).2 = [.free b]

theorem follows_free {expired : Bool} (h : Tracks w rap) (hnot : ¬ w.Fresh n expired) :
    Follows w n b expired (rap, [.free b], .consumed) where
  tracks := by
    rw [Window.receive_of_not_fresh hnot]
    exact h
  taken hfresh := absurd hfresh hnot
  refused _ := rfl

theorem follows_of_place {expired : Bool} {r : RxAmpdu × List RxFate × RxAmpdu.Verdict}
    (hin : n < w.next + size) (hfresh : w.Fresh n expired)
    (htracks : Tracks (w.place n b expired).1 (settle b r).1)
    (hout : (settle b r).2 = (w.place n b expired).2.map fun x => .up x.2) : Follows w n b expired r := by
  have hreceive : w.receive n b expired = w.place n b expired := if_pos hin
  rw [← hreceive] at htracks hout
  exact ⟨htracks, fun _ => hout, fun hnot => absurd hfresh hnot⟩

/-- The number has been passed. -/
theorem Tracks.reorder_late {fuel : Nat} {expired : Bool} (h : Tracks w rap) (hlt : n < w.next)
    (hlow : w.next ≤ n + seqBaRange) :
    ∃ r, RxAmpdu.reorderFrom expired b (n % seqRange) (fuel + 1) rap = some r ∧ Follows w n b expired r := by
  have hmax := h.le_max
  have hne := seq_ne_start h hlt.ne hlow (by omega)
  have hoff : seqSub (n % seqRange) rap.start = seqRange - (w.next - n) := by
    rw [h.start, seqSub, SeqSpace.sub_mod_of_lt hlt]
    simp only [seqBaRange, seqRange] at hlow ⊢
    omega
  have hwnd : ¬ seqRange - (w.next - n) < rap.wnd := by
    rw [h.wnd]
    simp only [aggrBawmax, seqBaRange, seqRange] at hmax hlow ⊢
    omega
  have hrange : ¬ seqRange - (w.next - n) < seqBaRange := by
    simp only [seqBaRange, seqRange] at hlow ⊢
    omega
  refine ⟨_, ?_, follows_free h fun hfresh => absurd hfresh.1 (not_le.mpr hlt)⟩
  rw [RxAmpdu.reorderFrom, if_neg hne, hoff, if_neg hwnd, if_neg hrange]

/-- The number is the one that is waited for. -/
theorem Tracks.reorder_next {fuel : Nat} {expired : Bool} (h : Tracks w rap) :
    ∃ r, RxAmpdu.reorderFrom expired b (w.next % seqRange) (fuel + 1) rap = some r ∧
      Follows w w.next b expired r := by
  have hin : w.next < w.next + size := Nat.lt_add_of_pos_right h.pos
  have hfresh : w.Fresh w.next expired := ⟨le_rfl, .inl (w.held_eq_none_of_le le_rfl)⟩
  have hplace : w.place w.next b expired =
      ((w.advance (w.next + 1)).1, (w.next, b) :: (w.advance (w.next + 1)).2) := if_pos rfl
  rw [RxAmpdu.reorderFrom, if_pos h.start.symm]
  by_cases hq : rap.qframes = 0
  · obtain ⟨htracks, hnil⟩ := h.inOrder hq
    have hseq : seqInc (w.next % seqRange) = (w.next + 1) % seqRange := SeqSpace.add_mod _ _ _
    rw [if_neg (not_not.mpr hq), hseq]
    refine ⟨_, rfl, follows_of_place hin hfresh ?_ ?_⟩
    · rw [hplace]
      exact htracks
    · rw [hplace, hnil]
      rfl
  · obtain ⟨htracks, hout⟩ := h.dispatch
    rw [if_pos hq]
    refine ⟨_, rfl, follows_of_place hin hfresh ?_ ?_⟩
    · rw [hplace]
      exact htracks
    · rw [hplace, settle, hout]
      rfl

theorem Tracks.overdue_iff {expired : Bool} (h : Tracks w rap) :
    w.Overdue expired ↔ rap.qframes ≠ 0 ∧ expired = true := by
  have hlen : rap.qframes = w.contents.length := by
    rw [h.counted.qframes, h.frames_contents, List.length_map]
  rw [Window.Overdue, hlen, ← List.length_pos_iff, and_comm]
  exact and_congr_left fun _ => by omega

/-- The number is inside the window, and a frame that is held has expired: all go up, and this one too. -/
theorem Tracks.reorder_expired {fuel : Nat} {expired : Bool} (h : Tracks w rap)
    (hin : w.next < n ∧ n < w.next + size) (hne : n % seqRange ≠ rap.start)
    (hoff : seqSub (n % seqRange) rap.start = n - w.next) (hover : w.Overdue expired) :
    ∃ r, RxAmpdu.reorderFrom expired b (n % seqRange) (fuel + 1) rap = some r ∧ Follows w n b expired r := by
  have hwnd : n - w.next < rap.wnd := by
    rw [h.wnd]
    omega
  have hplace : w.place n b expired = (Window.empty (n + 1), w.contents ++ [(n, b)]) := by
    rw [Window.place, if_neg hin.1.ne', dif_pos hin, if_pos hover]
  have hseq : seqInc (n % seqRange) = (n + 1) % seqRange := SeqSpace.add_mod _ _ _
  obtain ⟨hloop, hempty⟩ := h.drain RxFate.up
  rw [RxAmpdu.reorderFrom, if_neg hne, hoff, if_pos hwnd, if_pos (h.overdue_iff.mp hover), hseq,
    RxAmpdu.ampduRxFlush, hloop]
  refine ⟨_, rfl, follows_of_place hin.2 ⟨hin.1.le, .inr hover.1⟩ ?_ ?_⟩
  · rw [hplace]
    exact hempty (n + 1)
  · rw [hplace, List.map_append]
    exact congrArg (· ++ [RxFate.up b]) (List.map_map ..)

/-- The number is inside the window. -/
theorem Tracks.reorder_inside {fuel : Nat} {expired : Bool} (h : Tracks w rap)
    (hin : w.next < n ∧ n < w.next + size) :
    ∃ r, RxAmpdu.reorderFrom expired b (n % seqRange) (fuel + 1) rap = some r ∧ Follows w n b expired r := by
  have hmax := h.le_max
  have hhigh : n < w.next + seqBaRange := by
    simp only [aggrBawmax, seqBaRange] at hmax ⊢
    omega
  have hne := seq_ne_start h hin.1.ne' (by omega) hhigh
  have hoff := seqSub_start h hin.1.le hhigh
  by_cases hover : w.Overdue expired
  · exact h.reorder_expired hin hne hoff hover
  · have hwnd : n - w.next < rap.wnd := by
      rw [h.wnd]
      omega
    have hslot : rap.m (n - w.next) = w.held n := by
      rw [h.slot, Nat.add_sub_cancel' hin.1.le]
    rw [RxAmpdu.reorderFrom, if_neg hne, hoff, if_pos hwnd, if_neg (mt h.overdue_iff.mpr hover)]
    cases hheld : w.held n with
    | none =>
      have hplace : w.place n b expired = (w.hold n b hin, []) := by
        rw [Window.place, if_neg hin.1.ne', dif_pos hin, if_neg hover, hheld]
      rw [hslot, hheld]
      refine ⟨_, rfl, follows_of_place hin.2 ⟨hin.1.le, .inl hheld⟩ ?_ ?_⟩
      · rw [hplace]
        exact h.hold hin hheld
      · rw [hplace]
        rfl
    | some c =>
      rw [hslot, hheld]
      refine ⟨_, rfl, follows_free h fun hfresh => ?_⟩
      rcases hfresh.2 with hnone | hexpired
      · exact absurd (hheld.symm.trans hnone) (Option.some_ne_none c)
      · refine hover ⟨hexpired, fun hnil => ?_⟩
        have hnone := Window.held_eq_none_of_contents_eq_nil hnil n
        exact absurd (hheld.symm.trans hnone) (Option.some_ne_none c)

/-- The number is beyond the window, which is moved by at most its size in one round. -/
theorem Tracks.reorder_beyond (h : Tracks w rap) (hge : w.next + size ≤ n) (hhigh : n < w.next + seqBaRange)
    (expired : Bool) (b : Mbuf) (fuel : Nat) :
    ∃ c, w.next < c ∧ c ≤ n + 1 - size ∧ ∃ rap', Tracks (w.advance c).1 rap' ∧
      RxAmpdu.reorderFrom expired b (n % seqRange) (fuel + 1) rap =
        (RxAmpdu.reorderFrom expired b (n % seqRange) fuel rap').map fun s =>
          (s.1, (w.advance c).2.map (fun x => RxFate.up x.2) ++ s.2.1, s.2.2) := by
  have hsize := h.pos
  have hmax := h.le_max
  have hne := seq_ne_start h (show n ≠ w.next by omega) (by omega) hhigh
  have hwnd : ¬ n - w.next < rap.wnd := by
    rw [h.wnd]
    omega
  have hrange : n - w.next < seqBaRange := by omega
  have hstart : seqSub (n % seqRange) (rap.wnd - 1) = (w.next + (n + 1 - size - w.next)) % seqRange := by
    have hd : w.next + (n + 1 - size - w.next) = n - (size - 1) := by omega
    rw [hd, h.wnd, seqSub, SeqSpace.sub_mod_left (by omega)]
    simp only [aggrBawmax, seqRange] at hmax ⊢
    omega
  obtain ⟨htracks, hout⟩ := h.flushUpto (show 0 < n + 1 - size - w.next by omega) (by omega)
  refine ⟨_, ?_, ?_, _, htracks, ?_⟩
  · omega
  · omega
  · rw [RxAmpdu.reorderFrom, if_neg hne, seqSub_start h (by omega) hhigh, if_neg hwnd, if_pos hrange, hstart,
      ← hout]

theorem settle_append (b : Mbuf) (outs : List RxFate) (r : RxAmpdu × List RxFate × RxAmpdu.Verdict) :
    settle b (r.1, outs ++ r.2.1, r.2.2) = ((settle b r).1, outs ++ (settle b r).2) := by
  obtain ⟨rap', outs', verdict⟩ := r
  cases verdict with
  | process => simp only [settle, List.append_assoc]
  | consumed => rfl

/-- The frame is looked at again after the window has been moved to number `c`. -/
theorem Follows.after {expired : Bool} {r : RxAmpdu × List RxFate × RxAmpdu.Verdict} {c : Nat}
    (h : Follows (w.advance c).1 n b expired r) (hge : w.next + size ≤ n) (hc : c ≤ n + 1 - size)
    (hnext : (w.advance c).1.next ≤ n) :
    Follows w n b expired (r.1, (w.advance c).2.map (fun x => RxFate.up x.2) ++ r.2.1, r.2.2) := by
  have hnone := w.held_eq_none_of_ge hge
  have hfresh : (w.advance c).1.Fresh n expired := ⟨hnext, .inl ((w.held_advance hnext).trans hnone)⟩
  have hreceive := Window.receive_advance hc hge b expired
  constructor
  · rw [settle_append, hreceive]
    exact h.tracks
  · intro _
    rw [settle_append, hreceive, List.map_append, ← h.taken hfresh]
  · intro hnot
    exact absurd ⟨by omega, .inl hnone⟩ hnot

/-- Within half of the sequence space the queue does what the window does. -/
theorem Tracks.reorder {fuel : Nat} {expired : Bool} (h : Tracks w rap) (hlow : w.next ≤ n + seqBaRange)
    (hhigh : n < w.next + seqBaRange) (hfuel : n - w.next < fuel) :
    ∃ r, RxAmpdu.reorderFrom expired b (n % seqRange) fuel rap = some r ∧ Follows w n b expired r := by
  induction fuel generalizing w rap with
  | zero => omega
  | succ fuel ih =>
    rcases lt_trichotomy n w.next with hlt | rfl | hgt
    · exact h.reorder_late hlt hlow
    · exact h.reorder_next
    · by_cases hin : n < w.next + size
      · exact h.reorder_inside ⟨hgt, hin⟩
      · have hge := not_lt.mp hin
        have hsize := h.pos
        obtain ⟨c, hc, hcn, rap', htracks, hround⟩ := h.reorder_beyond hge hhigh expired b fuel
        have hnone := w.held_eq_none_of_ge hge
        have hnext : (w.advance c).1.next ≤ n := Window.gap_le (max_le (by omega) (by omega)) hnone
        have hmoved := w.le_next_advance c
        obtain ⟨r, hr, hfollows⟩ := ih htracks (by omega) (by omega) (by omega)
        rw [hr] at hround
        exact ⟨_, hround, hfollows.after hge hcn hnext⟩

/-! ## A block ack request comes in -/

theorem Tracks.giveUp_beyond {v : Window Mbuf size} (h : Tracks v rap) (hempty : ∀ k, v.held k = none)
    (hn : v.next ≤ n) :
    Tracks (v.advance n).1 { rap with start := n % seqRange } ∧ (v.advance n).2 = [] := by
  have hgap : v.gap (max v.next n) = n := by
    rw [max_eq_right hn, Window.gap_of_held_eq_none (hempty n)]
  have hm (i : Nat) : rap.m i = none := (h.slot i).trans (hempty _)
  have hnil : frames rap.m 0 rap.wnd = [] := frames_eq_nil fun x _ _ => hm x
  have hwindow : (v.advance n).1 = Window.empty n := by
    refine Window.ext hgap fun k => ?_
    show (if _ ≤ k then v.held k else none) = none
    split
    · exact hempty k
    · rfl
  refine ⟨?_, ?_⟩
  · rw [hwindow]
    refine h.empty h.agreed rfl rfl hm ?_ ?_
    · exact h.counted.qframes.trans (by rw [hnil]; rfl)
    · exact h.counted.qbytes.trans (by rw [hnil]; rfl)
  · show Window.between _ _ _ = []
    exact Window.between_eq_nil fun k _ _ => hempty k

/-- A request from within half of the sequence space gives up the numbers before it. -/
theorem Tracks.recvBar (h : Tracks w rap) (hlow : w.next ≤ n + seqBaRange)
    (hhigh : n < w.next + seqBaRange) :
    Tracks (w.advance n).1 (rap.recvBar (n % seqRange)).1 ∧
      (rap.recvBar (n % seqRange)).2 = (w.advance n).2.map fun x => .up x.2 := by
  rw [RxAmpdu.recvBar, h.agreed.2, if_neg (by simp)]
  rcases lt_trichotomy n w.next with hlt | rfl | hgt
  · have hoff : ¬ seqSub (n % seqRange) rap.start < seqBaRange := by
      rw [h.start, seqSub, SeqSpace.sub_mod_of_lt hlt]
      all_goals
        simp only [seqBaRange, seqRange] at hlow ⊢
        omega
    rw [if_neg (seq_ne_start h hlt.ne hlow hhigh), if_neg hoff, Window.advance_of_le hlt.le]
    exact ⟨h, rfl⟩
  · rw [if_pos h.start.symm, Window.advance_of_le le_rfl]
    exact ⟨h, rfl⟩
  · have hoff := seqSub_start h hgt.le hhigh
    have hn : w.next + (n - w.next) = n := by omega
    have hflush := h.flushUpto (show 0 < n - w.next by omega) (by omega)
    rw [hn] at hflush
    rw [if_neg (seq_ne_start h hgt.ne' hlow hhigh), hoff, if_pos (by omega), h.wnd]
    dsimp only
    by_cases hfar : n - w.next ≥ size
    · -- every slot is emptied, and the window starts at the requested number
      have hmin : w.next + min (n - w.next) size = w.next + size := by omega
      rw [hmin] at hflush
      obtain ⟨htracks, hout⟩ := hflush
      have hempty (k : Nat) : (w.advance (w.next + size)).1.held k = none := by
        by_cases hk : (w.advance (w.next + size)).1.next ≤ k
        · rw [w.held_advance hk]
          exact w.held_eq_none_of_ge ((w.le_next_advance _).trans hk)
        · exact Window.held_eq_none_of_le _ (by omega)
      have hnext : (w.advance (w.next + size)).1.next ≤ n :=
        Window.gap_le (max_le (by omega) (by omega)) (w.held_eq_none_of_ge (by omega))
      obtain ⟨hmoved, hnil⟩ := htracks.giveUp_beyond hempty hnext
      obtain ⟨hwindow, happend⟩ := w.advance_advance (show w.next + size ≤ n by omega)
      rw [hnil, List.append_nil] at happend
      rw [if_pos hfar, ← hwindow, ← happend]
      exact ⟨hmoved, hout⟩
    · have hmin : w.next + min (n - w.next) size = n := by omega
      rw [hmin] at hflush
      rw [if_neg hfar]
      exact hflush

/-- Ageing passes up what is held; the window stays where it is. -/
theorem Tracks.htAge (h : Tracks w rap) :
    Tracks w.flush.1 (rap.htAge true).1 ∧ (rap.htAge true).2 = w.flush.2.map fun x => .up x.2 := by
  rw [RxAmpdu.htAge, h.agreed.2, if_neg (by simp)]
  by_cases hq : rap.qframes = 0
  · have hnil : w.contents = [] := not_not.mp fun hne => (h.overdue_iff.mp ⟨rfl, hne⟩).1 hq
    have hwindow : w.flush.1 = w :=
      Window.ext rfl fun n => (Window.held_eq_none_of_contents_eq_nil hnil n).symm
    rw [if_pos hq, hwindow, Window.flush, hnil]
    exact ⟨h, rfl⟩
  · obtain ⟨hloop, hempty⟩ := h.drain RxFate.up
    have htracks := hempty w.next
    rw [← h.start] at htracks
    rw [if_neg hq, if_pos rfl, RxAmpdu.ampduRxFlush, hloop, List.map_map]
    exact ⟨htracks, rfl⟩

/-! ## Whole streams -/

theorem RxAmpdu.input_eq {expired : Bool} (hpend : rap.xchgPend = true)
    (hdata : b.decap = true ∨ b.isQosData = true ∧ b.seqCtl % 16 = 0) :
    rap.input expired b =
      (RxAmpdu.reorderFrom expired b b.rxSeq reorderFuel { rap with nframes := rap.nframes + 1 }).map
        (settle b) := by
  rw [RxAmpdu.input, RxAmpdu.reorder, hpend]
  rcases hdata with hdecap | ⟨hqos, hfrag⟩
  · simp [hdecap]
  · simp [hqos, hfrag]

theorem Tracks.nframes (h : Tracks w rap) (c : Int) : Tracks w { rap with nframes := c } :=
  ⟨h.pos, h.le_max, h.agreed, h.wnd, h.start, h.slot, h.counted.1, h.counted.2⟩

end Window

/-- The frame has number `n` for its sender, and carries it modulo the sequence space. -/
def Mbuf.Numbered (b : Mbuf) (n : Nat) : Prop :=
  b.rxSeq = n % seqRange ∧ (b.decap = true ∨ b.isQosData = true ∧ b.seqCtl % 16 = 0)

/-- What happens on a stream: a data frame with its number comes, which may find that the oldest held frame
has expired, a block ack request for a number comes, or ageing finds the oldest held frame expired. -/
def RxAmpdu.arrive (rap : RxAmpdu) : Window.Arrival Mbuf → Option (RxAmpdu × List RxFate)
  | .frame _ b expired => rap.input expired b
  | .giveUp n => some (rap.recvBar (n % seqRange))
  | .flush => some (rap.htAge true)

def RxAmpdu.arriveAll : RxAmpdu → List (Window.Arrival Mbuf) → Option (RxAmpdu × List RxFate)
  | rap, [] => some (rap, [])
  | rap, a :: as => (rap.arrive a).bind fun r => (arriveAll r.1 as).map fun t => (t.1, r.2 ++ t.2)

/-- The sender stays within half of the sequence space of what is waited for. -/
def InReach {size : Nat} (w : Window Mbuf size) : List (Window.Arrival Mbuf) → Prop
  | [] => True
  | .frame n b expired :: as =>
    b.Numbered n ∧ (w.next ≤ n + seqBaRange ∧ n < w.next + seqBaRange) ∧ InReach (w.receive n b expired).1 as
  | .giveUp n :: as => (w.next ≤ n + seqBaRange ∧ n < w.next + seqBaRange) ∧ InReach (w.advance n).1 as
  | .flush :: as => InReach w.flush.1 as

/-- The frames that go up, in order. -/
def sentUp : List RxFate → List Mbuf
  | [] => []
  | .up m :: fates => m :: sentUp fates
  | .free _ :: fates => sentUp fates

theorem sentUp_append (xs ys : List RxFate) : sentUp (xs ++ ys) = sentUp xs ++ sentUp ys := by
  induction xs with
  | nil => rfl
  | cons x xs ih =>
    cases x with
    | up m => exact congrArg (m :: ·) ih
    | free m => exact ih

theorem sentUp_map_up (xs : List (Nat × Mbuf)) : sentUp (xs.map fun x => .up x.2) = xs.map Prod.snd := by
  induction xs with
  | nil => rfl
  | cons x xs ih => exact congrArg (x.2 :: ·) ih

section Streams

variable {size : Nat} {w : Window Mbuf size}

theorem Tracks.arrive {a : Window.Arrival Mbuf} {as : List (Window.Arrival Mbuf)} (h : Tracks w rap)
    (hreach : InReach w (a :: as)) :
    ∃ r, rap.arrive a = some r ∧ Tracks (w.step a).1 r.1 ∧ sentUp r.2 = (w.step a).2.map Prod.snd ∧
      InReach (w.step a).1 as := by
  cases a with
  | frame n b expired =>
    obtain ⟨⟨hseq, hdata⟩, ⟨hlow, hhigh⟩, hrest⟩ := hreach
    have hfuel : n - w.next < reorderFuel := by
      rw [reorderFuel]
      omega
    obtain ⟨r, hr, hfollows⟩ := (h.nframes (rap.nframes + 1)).reorder (b := b) hlow hhigh hfuel
    refine ⟨settle b r, ?_, hfollows.tracks, ?_, hrest⟩
    · show rap.input expired b = _
      rw [RxAmpdu.input_eq h.agreed.2 hdata, hseq, hr]
      rfl
    · show _ = (w.receive n b expired).2.map Prod.snd
      by_cases hfresh : w.Fresh n expired
      · rw [hfollows.taken hfresh, sentUp_map_up]
      · rw [hfollows.refused hfresh, Window.receive_of_not_fresh hfresh]
        rfl
  | giveUp n =>
    obtain ⟨⟨hlow, hhigh⟩, hrest⟩ := hreach
    obtain ⟨htracks, hout⟩ := h.recvBar hlow hhigh
    refine ⟨_, rfl, htracks, ?_, hrest⟩
    rw [hout, sentUp_map_up]
    rfl
  | flush =>
    obtain ⟨htracks, hout⟩ := h.htAge
    refine ⟨_, rfl, htracks, ?_, hreach⟩
    rw [hout, sentUp_map_up]
    rfl

theorem Tracks.arriveAll {as : List (Window.Arrival Mbuf)} (h : Tracks w rap) (hreach : InReach w as) :
    ∃ r, rap.arriveAll as = some r ∧ Tracks (w.run as).1 r.1 ∧ sentUp r.2 = (w.run as).2.map Prod.snd := by
  induction as generalizing w rap with
  | nil => exact ⟨_, rfl, h, rfl⟩
  | cons a as ih =>
    obtain ⟨r, hr, htracks, hdelivered, hrest⟩ := h.arrive hreach
    obtain ⟨t, ht, htracks', hdelivered'⟩ := ih htracks hrest
    refine ⟨(t.1, r.2 ++ t.2), ?_, htracks', ?_⟩
    · rw [RxAmpdu.arriveAll, hr, Option.bind_some, ht]
      rfl
    · rw [sentUp_append, hdelivered, hdelivered', ← List.map_append]
      rfl

end Streams

/-- The window size that an ADDBA request gives. -/
def addbaWnd (baparamset : UInt16) : Nat :=
  if RxAmpdu.bapsBufsiz baparamset = 0 then aggrBawmax else min (RxAmpdu.bapsBufsiz baparamset) aggrBawmax

theorem tracks_ampduRxStart {rap : RxAmpdu} {baparamset baseqctl : UInt16} {first : Nat}
    (hfirst : RxAmpdu.baseqStart baseqctl = first % seqRange) :
    Tracks (Window.empty first : Window Mbuf (addbaWnd baparamset))
      (rap.ampduRxStart baparamset baseqctl).1 := by
  have hnil : ∀ k, frames (fun _ => none) 0 k = [] := fun k => frames_eq_nil fun _ _ _ => rfl
  refine ⟨?_, ?_, ⟨rfl, rfl⟩, rfl, hfirst, fun _ => rfl, ?_, ?_⟩
  · rw [addbaWnd]
    split
    · decide
    · exact lt_min (by omega) (by decide)
  · rw [addbaWnd]
    split
    · exact le_rfl
    · exact min_le_right _ _
  · exact congrArg (fun l => (List.length l : Int)) (hnil _).symm
  · exact congrArg (fun l => ((List.map Mbuf.pktLen l).sum : Int)) (hnil _).symm

/-- The reorder window of a stream whose ADDBA request is for the sender's number `first`. -/
def addbaWindow (baparamset : UInt16) (first : Nat) : Window Mbuf (addbaWnd baparamset) := Window.empty first

/-- After an ADDBA request the queue passes the frames of its stream up as the reorder window does, whatever
the order in which they come and whenever they expire. The loop over the window always ends. -/
theorem arriveAll_eq_window_run {rap : RxAmpdu} {baparamset baseqctl : UInt16} {first : Nat}
    {as : List (Window.Arrival Mbuf)} (hfirst : RxAmpdu.baseqStart baseqctl = first % seqRange)
    (hreach : InReach (addbaWindow baparamset first) as) :
    ∃ r, (rap.ampduRxStart baparamset baseqctl).1.arriveAll as = some r ∧
      Tracks ((addbaWindow baparamset first).run as).1 r.1 ∧
      sentUp r.2 = ((addbaWindow baparamset first).run as).2.map Prod.snd :=
  (tracks_ampduRxStart hfirst).arriveAll hreach

/-- A QoS data frame of the sender's number `n` that the firmware has stripped of its header. -/
def decapFrame (buf n : Nat) : Mbuf :=
  { buf := buf, pktLen := 100, decap := true, tid := 0, aggrLen := (n % seqRange).toUInt16, data := [] }

/-- Frames 2 and 8 are held, and frame 5 comes when they have expired. -/
def overdue : List (Window.Arrival Mbuf) :=
  [.frame 2 (decapFrame 0 2) false, .frame 8 (decapFrame 1 8) false, .frame 5 (decapFrame 2 5) true]

theorem inReach_overdue : InReach (addbaWindow 0x400 0) overdue :=
  ⟨⟨rfl, .inl rfl⟩, by decide, ⟨rfl, .inl rfl⟩, by decide, ⟨rfl, .inl rfl⟩, by decide, trivial⟩

/-- All three go up, the last one out of order. -/
theorem overdue_eq_window_run :
    ((addbaWindow 0x400 0).run overdue).2.map Prod.fst = [2, 8, 5] ∧
    ∃ r, (({} : RxAmpdu).ampduRxStart 0x400 0).1.arriveAll overdue = some r ∧
      Tracks ((addbaWindow 0x400 0).run overdue).1 r.1 ∧
      sentUp r.2 = ((addbaWindow 0x400 0).run overdue).2.map Prod.snd :=
  ⟨by decide, arriveAll_eq_window_run rfl inReach_overdue⟩

/-- So each frame that comes in goes up at most once. As long as none expires, frames go up in the order of
their sender, and none is skipped unless one comes from beyond the window or a block ack request gives some
up. -/
theorem arriveAll_inOrder {rap : RxAmpdu} {baparamset baseqctl : UInt16} {first : Nat}
    {as : List (Window.Arrival Mbuf)} (hfirst : RxAmpdu.baseqStart baseqctl = first % seqRange)
    (hreach : InReach (addbaWindow baparamset first) as) :
    ∃ r, ∃ xs : List (Nat × Mbuf), (rap.ampduRxStart baparamset baseqctl).1.arriveAll as = some r ∧
      sentUp r.2 = xs.map Prod.snd ∧ xs.Subperm (as.flatMap Window.Arrival.brings) ∧
      ((addbaWindow baparamset first).Timely as → xs.Pairwise (fun x y => x.1 < y.1) ∧
        ((addbaWindow baparamset first).Within as → xs.map Prod.fst = List.range' first xs.length)) := by
  have hstart : Tracks (addbaWindow baparamset first) (rap.ampduRxStart baparamset baseqctl).1 :=
    tracks_ampduRxStart hfirst
  obtain ⟨r, hr, -, hup⟩ := hstart.arriveAll hreach
  have hall := Window.run_subperm hstart.pos (addbaWindow baparamset first) as
  have hnil : (addbaWindow baparamset first).contents = [] := Window.contents_empty first
  rw [hnil, List.append_nil] at hall
  refine ⟨r, _, hr, hup, (List.sublist_append_left _ _).subperm.trans hall, fun htimely => ⟨?_, ?_⟩⟩
  · exact (Window.inOrder_run htimely).sorted
  · intro hwithin
    have hnumbers := Window.numbers_run htimely hwithin
    have hlen := congrArg List.length hnumbers
    rw [List.length_map, List.length_range'] at hlen
    rw [hnumbers, hlen]
    rfl

/-- Three frames across the wrap of the sequence numbers, the first of them last. -/
def swapped : List (Window.Arrival Mbuf) :=
  [.frame 4096 (decapFrame 1 4096) false, .frame 4097 (decapFrame 2 4097) false,
    .frame 4095 (decapFrame 0 4095) false]

theorem inReach_swapped : InReach (addbaWindow 0x100 4095) swapped :=
  ⟨⟨rfl, .inl rfl⟩, by decide, ⟨rfl, .inl rfl⟩, by decide, ⟨rfl, .inl rfl⟩, by decide, trivial⟩

theorem swapped_inOrder :
    ((addbaWindow 0x100 4095).Timely swapped ∧ (addbaWindow 0x100 4095).Within swapped) ∧
    ∃ r, ∃ xs : List (Nat × Mbuf), (({} : RxAmpdu).ampduRxStart 0x100 0xfff0).1.arriveAll swapped = some r ∧
      sentUp r.2 = xs.map Prod.snd ∧ xs.Subperm (swapped.flatMap Window.Arrival.brings) ∧
      ((addbaWindow 0x100 4095).Timely swapped → xs.Pairwise (fun x y => x.1 < y.1) ∧
        ((addbaWindow 0x100 4095).Within swapped → xs.map Prod.fst = List.range' 4095 xs.length)) :=
  ⟨⟨⟨by decide, by decide, by decide, trivial⟩, by decide, by decide, by decide, trivial⟩,
    arriveAll_inOrder rfl inReach_swapped⟩

end Onebox.Net80211
