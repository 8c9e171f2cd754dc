import ClHost.Array.Basic
import Mathlib.Data.List.Forall2
import Mathlib.Tactic.Linarith
import Mathlib.Tactic.Ring

/-!
# Basic indexing

Which elements of an array an index of positions, slices and new axes selects, said without layouts, and
when the view that indexing gives holds these elements.
-/

/-! ## Ranges of indices -/

namespace ClHost.IndexRange

open Int

def nth (r : IndexRange) (k : Nat) : Int := r.start + r.step * k

variable {r : IndexRange} {n : Int} {start stop step : Option Int}

lemma count_of_pos (h : 0 < r.step) : r.count = ((r.stop - r.start + r.step - 1) / r.step).toNat := if_pos h

lemma count_of_neg (h : r.step < 0) : r.count = ((-(r.stop - r.start) + -r.step - 1) / -r.step).toNat := by
  rw [count, if_neg (by omega), if_pos h, show r.start - r.stop - r.step - 1 =
    -(r.stop - r.start) + -r.step - 1 by omega]

lemma lt_ceil_iff {d s : Int} (hs : 0 < s) (k : Nat) : k < ((d + s - 1) / s).toNat ↔ s * k < d := by
  rw [Int.lt_toNat, ← Int.add_one_le_iff, Int.le_ediv_iff_mul_le hs]
  constructor <;> intro h <;> linarith

/-- **The indices of a range are numbered up to its count.** The next one would reach the stop. -/
lemma lt_count_iff (r : IndexRange) (k : Nat) :
    k < r.count ↔ 0 < r.step ∧ r.nth k < r.stop ∨ r.step < 0 ∧ r.stop < r.nth k := by
  unfold nth
  rcases lt_trichotomy r.step 0 with h | h | h
  · rw [count_of_neg h, lt_ceil_iff (by omega)]
    constructor
    · intro hk
      exact Or.inr ⟨h, by linarith⟩
    · rintro (⟨h', -⟩ | ⟨-, hk⟩)
      · omega
      · linarith
  · have hcnt : r.count = 0 := by simp [count, h]
    simp [hcnt, h]
  · rw [count_of_pos h, lt_ceil_iff h]
    constructor
    · intro hk
      exact Or.inl ⟨h, by linarith⟩
    · rintro (⟨-, hk⟩ | ⟨h', -⟩)
      · linarith
      · omega

lemma steps_eq_ceil_iff {d s : Int} (hs : 0 < s) :
    fdiv ((d.natAbs : Int) - 1) s + 1 = ((d + s - 1) / s).toNat ↔ 0 ≤ d := by
  rw [fdiv_eq_ediv_of_nonneg _ hs.le]
  constructor
  · intro h
    by_contra hd
    -- nothing is below the quotient, but one step at least is counted
    have hzero : ((d + s - 1) / s).toNat = 0 := by
      by_contra hne
      have := (lt_ceil_iff hs 0).1 (Nat.pos_of_ne_zero hne)
      omega
    have hnn : 0 ≤ ((d.natAbs : Int) - 1) / s := ediv_nonneg (by omega) hs.le
    omega
  · intro hd
    have hceil : 0 ≤ (d + s - 1) / s := ediv_nonneg (by omega) hs.le
    rw [toNat_of_nonneg hceil, natAbs_of_nonneg hd, show d + s - 1 = d - 1 + 1 * s by omega,
      add_mul_ediv_right _ _ hs.ne']

/-- **Steps are indices along the step only.** The number of steps from start to stop, rounded up, is the
number of indices exactly if the stop does not lie against the step. -/
lemma steps_eq_count_iff (h : r.step ≠ 0) : r.steps = r.count ↔ 0 ≤ (r.stop - r.start) * r.step := by
  unfold steps
  rcases lt_or_gt_of_ne h with h | h
  · rw [count_of_neg h, ← natAbs_neg (r.stop - r.start), ofNat_natAbs_of_nonpos h.le, steps_eq_ceil_iff (by omega)]
    constructor
    · intro hd
      exact mul_nonneg_of_nonpos_of_nonpos (by omega) h.le
    · intro hd
      have := nonpos_of_mul_nonneg_left hd h
      omega
  · rw [count_of_pos h, natAbs_of_nonneg h.le, steps_eq_ceil_iff h]
    exact (mul_nonneg_iff_of_pos_right h).symm

structure InAxis (r : IndexRange) (n : Int) : Prop where
  step_ne : r.step ≠ 0
  forward : 0 < r.step → (0 ≤ r.start ∧ r.start ≤ n) ∧ 0 ≤ r.stop ∧ r.stop ≤ n
  backward : r.step < 0 → (-1 ≤ r.start ∧ r.start ≤ n - 1) ∧ -1 ≤ r.stop ∧ r.stop ≤ n - 1

lemma ofSlice_bounds (start stop step : Option Int) (hn : 0 ≤ n) (hstep : step ≠ some 0) :
    ∃ r, ofSlice start stop step n = .ok r ∧ r.InAxis n := by
  have hne : step.getD 1 ≠ 0 := by
    cases step with
    | none => decide
    | some => simpa using hstep
  unfold ofSlice
  rw [if_neg (by simp [hne]; omega)]
  refine ⟨_, rfl, hne, fun hpos => ?_, fun hneg => ?_⟩
  · have hpos : ¬ step.getD 1 < 0 := by simpa using le_of_lt hpos
    simp only [hpos, if_false]
    cases start <;> cases stop <;> grind
  · have hneg : step.getD 1 < 0 := hneg
    simp only [hneg, if_true]
    cases start <;> cases stop <;> grind

lemma ofSlice_eq_error (h : n < 0 ∨ step = some 0) : ofSlice start stop step n = .error (.bare .value) := by
  unfold ofSlice
  rcases h with h | rfl
  · simp [h]
  · simp

lemma not_error_of_ofSlice (h : ofSlice start stop step n = .ok r) : 0 ≤ n ∧ step ≠ some 0 := by
  rw [← not_lt, ← not_or]
  intro hbad
  rw [ofSlice_eq_error hbad] at h
  cases h

lemma inAxis_of_ofSlice (h : ofSlice start stop step n = .ok r) : r.InAxis n := by
  obtain ⟨hn, hstep⟩ := not_error_of_ofSlice h
  obtain ⟨r', hr', hin⟩ := ofSlice_bounds start stop step hn hstep
  rw [h] at hr'
  cases hr'
  exact hin

lemma InAxis.nth_mem (h : r.InAxis n) {k : Nat} (hk : k < r.count) : 0 ≤ r.nth k ∧ r.nth k < n := by
  rcases (lt_count_iff r k).1 hk with ⟨hpos, hlt⟩ | ⟨hneg, hlt⟩
  · have hle : 0 ≤ r.step * k := mul_nonneg hpos.le (natCast_nonneg k)
    have hb := h.forward hpos
    unfold nth at hlt ⊢
    omega
  · have hle : r.step * k ≤ 0 := mul_nonpos_of_nonpos_of_nonneg hneg.le (natCast_nonneg k)
    have hb := h.backward hneg
    unfold nth at hlt ⊢
    omega

end ClHost.IndexRange

/-! ## Selected elements -/

namespace ClHost

open List Layout IndexRange Int Strides

def InShape (shape : List Int) (index : List Nat) : Prop := List.Forall₂ (fun n (i : Nat) => (i : Int) < n) shape index

namespace Strides

variable {shape : List Int}

lemma length_tail_lt {n : Int} {strides : List Int} (hne : strides ≠ []) (h : strides.length < (n :: shape).length) :
    strides.tail.length < shape.length := by
  have := length_pos_iff.2 hne
  rw [length_cons] at h
  rw [length_tail]
  omega

lemma byteOffset_nil_right (strides : List Int) : byteOffset strides [] = 0 := by
  simp [byteOffset]

lemma byteOffset_cons (s : Int) (strides : List Int) (i : Nat) (index : List Nat) :
    byteOffset (s :: strides) (i :: index) = s * i + byteOffset strides index := by
  simp only [byteOffset, ← sum_eq_foldl, zip_cons_cons, map_cons, sum_cons]

lemma byteOffset_take {index : List Nat} (h : InShape shape index) (strides : List Int) :
    byteOffset (strides.take shape.length) index = byteOffset strides index := by
  induction h generalizing strides with
  | nil => rw [byteOffset_nil_right, byteOffset_nil_right]
  | cons _ _ ih =>
    cases strides with
    | nil => rfl
    | cons => rw [length_cons, take_succ_cons, byteOffset_cons, byteOffset_cons, ih]

end Strides

namespace IndexEntry

/-- The elements of an array that an index selects: the lengths of the selection, and the multi-index in the array for
each multi-index of the selection. -/
inductive Selects : List Int → List IndexEntry → List Int → (List Nat → List Nat) → Prop
  | whole (shape : List Int) : Selects shape [] shape id
  | newAxis {shape entries lengths origin} (h : Selects shape entries lengths origin) :
    Selects shape (.newAxis :: entries) (1 :: lengths) fun j => origin j.tail
  | position {shape entries lengths origin} {n i : Int} {p : Nat} (hlt : (p : Int) < n)
    (hp : i = p ∨ i = p - n) (h : Selects shape entries lengths origin) :
    Selects (n :: shape) (.position i :: entries) lengths fun j => p :: origin j
  | slice {shape entries lengths origin} {n : Int} {start stop step : Option Int} {r : IndexRange}
    (hr : ofSlice start stop step n = .ok r) (h : Selects shape entries lengths origin) :
    Selects (n :: shape) (.slice start stop step :: entries) (r.count :: lengths) fun j =>
      (r.nth (j.headD 0)).toNat :: origin j.tail

def Refused : List Int → List Int → List IndexEntry → Prop
  | shape, strides, [] => strides.length < shape.length
  | shape, strides, .newAxis :: entries => Refused shape strides entries
  | n :: shape, strides, .position i :: entries => i < -n ∨ n ≤ i ∨ strides = [] ∨ Refused shape strides.tail entries
  | n :: shape, strides, .slice _ _ step :: entries =>
    0 ≤ n ∧ step ≠ some 0 ∧ (strides = [] ∨ Refused shape strides.tail entries)
  | _, _, _ => True

def Straight : List Int → List IndexEntry → Prop
  | _, [] => True
  | shape, .newAxis :: entries => Straight shape entries
  | n :: shape, .position i :: entries => (-n ≤ i ∧ i < n) ∧ Straight shape entries
  | n :: shape, .slice start stop step :: entries =>
    (∃ r, ofSlice start stop step n = .ok r ∧ 0 ≤ (r.stop - r.start) * r.step) ∧ Straight shape entries
  | _, _ => False

lemma Selects.inShape {shape entries lengths origin} (h : Selects shape entries lengths origin)
    {j : List Nat} (hj : InShape lengths j) : InShape shape (origin j) := by
  induction h generalizing j with
  | whole => exact hj
  | newAxis _ ih =>
    cases hj with
    | cons _ hj => exact ih hj
  | position hlt _ _ ih => exact .cons hlt (ih hj)
  | slice hr _ ih =>
    cases hj with
    | cons hk hj =>
      have hmem := (inAxis_of_ofSlice hr).nth_mem (ofNat_lt.1 hk)
      refine .cons ?_ (ih hj)
      rw [headD_cons, toNat_of_nonneg hmem.1]
      exact hmem.2

lemma exists_place {n i : Int} (h : -n ≤ i ∧ i < n) : ∃ p : Nat, (p : Int) < n ∧ (i = p ∨ i = p - n) := by
  obtain hneg | hnn := lt_or_ge i 0
  · exact ⟨(i + n).toNat, by omega, Or.inr (by omega)⟩
  · exact ⟨i.toNat, by omega, Or.inl (by omega)⟩

lemma Straight.exists_selects {shape : List Int} {entries : List IndexEntry} (h : Straight shape entries) :
    ∃ lengths origin, Selects shape entries lengths origin := by
  fun_induction Straight shape entries with
  | case1 shape => exact ⟨_, _, .whole shape⟩
  | case2 shape entries ih =>
    obtain ⟨lengths, origin, hsel⟩ := ih h
    exact ⟨_, _, .newAxis hsel⟩
  | case3 n shape i entries ih =>
    obtain ⟨hi, hrest⟩ := h
    obtain ⟨lengths, origin, hsel⟩ := ih hrest
    obtain ⟨p, hlt, hp⟩ := exists_place hi
    exact ⟨_, _, .position hlt hp hsel⟩
  | case4 n shape start stop step entries ih =>
    obtain ⟨⟨r, hr, -⟩, hrest⟩ := h
    obtain ⟨lengths, origin, hsel⟩ := ih hrest
    exact ⟨_, _, .slice hr hsel⟩
  | case5 => exact h.elim

end IndexEntry

namespace Layout

def append (l v : Layout) : Layout := ⟨l.shape ++ v.shape, l.strides ++ v.strides, l.offset + v.offset⟩

lemma append_push (l v : Layout) (n s d : Int) : (({ l with offset := l.offset + d } : Layout).push n s).append v =
      l.append ⟨n :: v.shape, s :: v.strides, d + v.offset⟩ := by
  simp [append, push, add_assoc]

lemma address_cons (n s d : Int) (v : Layout) (k : Nat) (j : List Nat) :
    (⟨n :: v.shape, s :: v.strides, d + v.offset⟩ : Layout).address (k :: j) = d + s * k + v.address j := by
  rw [address, address, byteOffset_cons]
  ring

lemma axes_cons (n : Int) (shape strides : List Int) :
    axes (n :: shape) strides = (n, strides.head?) :: axes shape strides.tail := by
  cases strides <;> rfl

variable {shape strides : List Int}

lemma pushAll_axes (l : Layout) (h : shape.length ≤ strides.length) :
    l.pushAll (axes shape strides) = .ok (l.append ⟨shape, strides.take shape.length, 0⟩) := by
  induction shape generalizing l strides with
  | nil => simp [axes, pushAll, append]
  | cons n shape ih =>
    obtain ⟨s, strides, rfl⟩ := exists_cons_of_length_pos (Nat.lt_of_lt_of_le (Nat.succ_pos _) h)
    have hpush : l.pushAll (axes (n :: shape) (s :: strides)) = (l.push n s).pushAll (axes shape strides) := rfl
    have happ := append_push l ⟨shape, strides.take shape.length, 0⟩ n s 0
    rw [add_zero] at happ
    rw [hpush, ih _ (Nat.le_of_succ_le_succ h)]
    exact congrArg Except.ok happ

lemma pushAll_axes_error (l : Layout) (h : strides.length < shape.length) :
    l.pushAll (axes shape strides) = .error (.bare .index) := by
  induction shape generalizing l strides with
  | nil => exact absurd h (Nat.not_lt_zero _)
  | cons n shape ih =>
    cases strides with
    | nil => rfl
    | cons s => exact ih (l.push n s) (Nat.lt_of_succ_lt_succ h)

end Layout

namespace IndexEntry

variable {seen : Bool} {l : Layout} {axes : List (Int × Option Int)} {number : Nat} {entries : List IndexEntry}

variable {n i : Int} {stride start stop step : Option Int}

lemma applyFrom_position {p : Nat} (hlt : (p : Int) < n) (hp : i = p ∨ i = p - n) :
    applyFrom seen l ((n, stride) :: axes) number (.position i :: entries) = (strideOf stride >>= fun s =>
        applyFrom seen { l with offset := l.offset + s * p } axes (number + 1) entries) := by
  have hplace : (if i < 0 then i + n else i) = p := by
    split <;> omega
  simp only [applyFrom, hplace]
  rw [if_neg (by simp; omega)]

lemma applyFrom_position_outside (h : i < -n ∨ n ≤ i) :
    applyFrom seen l ((n, stride) :: axes) number (.position i :: entries) =
      .error (refusal ("subindex in axis " ++ toString number ++ " out of range")) := by
  simp only [applyFrom]
  rw [if_pos]
  · rfl
  · split <;> simp <;> omega

lemma applyFrom_slice {r : IndexRange} (hr : ofSlice start stop step n = .ok r) :
    applyFrom seen l ((n, stride) :: axes) number (.slice start stop step :: entries) = (strideOf stride >>= fun s =>
        applyFrom seen (({ l with offset := l.offset + s * r.start } : Layout).push r.steps (r.step * s)) axes
          (number + 1) entries) := by
  simp only [applyFrom, hr]
  rfl

lemma applyFrom_slice_error (h : n < 0 ∨ step = some 0) :
    applyFrom seen l ((n, stride) :: axes) number (.slice start stop step :: entries) = .error (.bare .value) := by
  simp only [applyFrom, ofSlice_eq_error h]
  rfl

variable {shape strides lengths : List Int} {origin : List Nat → List Nat}

/-- **The layout of an index.** Every selected element lies where the array has it. The lengths are those of
the selection exactly if the index is straight. -/
lemma applyFrom_of_selects (h : Selects shape entries lengths origin) (hs : shape.length ≤ strides.length) :
    ∃ v : Layout, (∀ seen l number, applyFrom seen l (Layout.axes shape strides) number entries = .ok (l.append v)) ∧
      (v.shape = lengths ↔ Straight shape entries) ∧
      ∀ j, InShape lengths j → v.address j = byteOffset strides (origin j) := by
  induction h generalizing strides with
  | whole shape =>
    refine ⟨⟨shape, strides.take shape.length, 0⟩, fun _ l _ => l.pushAll_axes hs, ?_, fun j hj => ?_⟩
    · simp [Straight]
    · rw [address, zero_add]
      exact byteOffset_take hj strides
  | newAxis _ ih =>
    obtain ⟨v, happly, hsh, haddr⟩ := ih hs
    refine ⟨⟨1 :: v.shape, 0 :: v.strides, v.offset⟩, fun seen l number => ?_, ?_, fun j hj => ?_⟩
    · have happ := append_push l v 1 0 0
      rw [add_zero, zero_add] at happ
      exact (happly _ _ _).trans (congrArg Except.ok happ)
    · simpa [Straight] using hsh
    · cases hj with
      | @cons _ k _ j _ hj =>
        have hcons := address_cons 1 0 0 v k j
        rw [zero_add, zero_mul, zero_add, zero_add] at hcons
        exact hcons.trans (haddr j hj)
  | @position shape entries lengths origin n i p hlt hp _ ih =>
    obtain ⟨s, strides, rfl⟩ := exists_cons_of_length_pos (Nat.lt_of_lt_of_le (Nat.succ_pos _) hs)
    obtain ⟨v, happly, hsh, haddr⟩ := ih (Nat.le_of_succ_le_succ hs)
    refine ⟨⟨v.shape, v.strides, s * p + v.offset⟩, fun seen l number => ?_, ?_, fun j hj => ?_⟩
    · refine (applyFrom_position hlt hp).trans ((happly _ _ _).trans ?_)
      simp [append, add_assoc]
    · have hi : -n ≤ i ∧ i < n := by omega
      simpa [Straight, hi] using hsh
    · have hrest := haddr j hj
      rw [address] at hrest ⊢
      rw [byteOffset_cons, ← hrest, add_assoc]
  | @slice shape entries lengths origin n start stop step r hr _ ih =>
    obtain ⟨s, strides, rfl⟩ := exists_cons_of_length_pos (Nat.lt_of_lt_of_le (Nat.succ_pos _) hs)
    obtain ⟨v, happly, hsh, haddr⟩ := ih (Nat.le_of_succ_le_succ hs)
    have hin := inAxis_of_ofSlice hr
    refine ⟨⟨r.steps :: v.shape, r.step * s :: v.strides, s * r.start + v.offset⟩, fun seen l number => ?_,
      ?_, fun j hj => ?_⟩
    · refine (applyFrom_slice hr).trans ((happly _ _ _).trans ?_)
      rw [append_push]
    · rw [List.cons.injEq, hsh, steps_eq_count_iff hin.step_ne]
      simp [Straight, hr]
    · cases hj with
      | @cons _ k _ j hk hj =>
        have hnth := toNat_of_nonneg (hin.nth_mem (ofNat_lt.1 hk)).1
        rw [address_cons, haddr j hj, byteOffset_cons, headD_cons, tail_cons, hnth, nth]
        ring

lemma Selects.refused (h : Selects shape entries lengths origin) (hs : strides.length < shape.length) :
    Refused shape strides entries := by
  induction h generalizing strides with
  | whole => exact hs
  | newAxis _ ih => exact ih hs
  | position _ _ _ ih =>
    refine Or.inr (Or.inr (or_iff_not_imp_left.2 fun hne => ih ?_))
    exact length_tail_lt hne hs
  | slice hr _ ih =>
    obtain ⟨hn, hstep⟩ := not_error_of_ofSlice hr
    refine ⟨hn, hstep, or_iff_not_imp_left.2 fun hne => ih ?_⟩
    exact length_tail_lt hne hs

variable {shape strides : List Int}

section Refused

variable (h : ∀ l : Layout, (∃ message, applyFrom seen l (Layout.axes shape strides.tail) (number + 1) entries =
      .error (.failure .index message)) ↔ Refused shape strides.tail entries)

include h

lemma strideOf_refused_iff {next : Int → Layout} : (∃ message, (Layout.strideOf strides.head? >>= fun s =>
      applyFrom seen (next s) (Layout.axes shape strides.tail) (number + 1) entries) =
        .error (.failure .index message)) ↔ strides = [] ∨ Refused shape strides.tail entries := by
  cases strides with
  | nil => exact ⟨fun _ => Or.inl rfl, fun _ => ⟨none, rfl⟩⟩
  | cons s => exact (h (next s)).trans (or_iff_right (cons_ne_nil _ _)).symm

lemma position_refused_iff :
    (∃ message, applyFrom seen l (Layout.axes (n :: shape) strides) number (.position i :: entries) =
      .error (.failure .index message)) ↔ Refused (n :: shape) strides (.position i :: entries) := by
  rw [Layout.axes_cons, Refused, ← or_assoc]
  by_cases hi : i < -n ∨ n ≤ i
  · rw [applyFrom_position_outside hi]
    exact ⟨fun _ => Or.inl hi, fun _ => ⟨_, rfl⟩⟩
  · obtain ⟨p, hlt, hp⟩ := exists_place (by omega : -n ≤ i ∧ i < n)
    rw [applyFrom_position hlt hp, strideOf_refused_iff h, or_iff_right hi]

lemma slice_refused_iff : (∃ message, applyFrom seen l (Layout.axes (n :: shape) strides) number
      (.slice start stop step :: entries) = .error (.failure .index message)) ↔
        Refused (n :: shape) strides (.slice start stop step :: entries) := by
  rw [Layout.axes_cons]
  by_cases hbad : n < 0 ∨ step = some 0
  · rw [applyFrom_slice_error hbad]
    constructor
    · rintro ⟨message, he⟩
      cases he
    · rintro ⟨hn, hstep, -⟩
      exact absurd hbad (by simp [hn, hstep])
  · rw [not_or, not_lt] at hbad
    obtain ⟨r, hr, -⟩ := ofSlice_bounds start stop step hbad.1 hbad.2
    rw [applyFrom_slice hr, strideOf_refused_iff h]
    exact ⟨fun hor => ⟨hbad.1, hbad.2, hor⟩, fun hall => hall.2.2⟩

end Refused

lemma applyFrom_refused_iff (h : .ellipsis ∉ entries) :
    (∃ message, applyFrom seen l (Layout.axes shape strides) number entries =
      .error (.failure .index message)) ↔ Refused shape strides entries := by
  induction entries generalizing l shape strides number with
  | nil =>
    constructor
    · rintro ⟨message, he⟩
      by_contra hs
      rw [applyFrom, pushAll_axes _ (Nat.le_of_not_lt hs)] at he
      cases he
    · intro hs
      exact ⟨none, pushAll_axes_error _ hs⟩
  | cons e entries ih =>
    have hrest : .ellipsis ∉ entries := fun hm => h (mem_cons_of_mem _ hm)
    -- positions and slices are refused without an axis, whatever follows them
    cases e with
    | ellipsis => exact absurd (mem_cons_self ..) h
    | other => exact ⟨fun _ => trivial, fun _ => ⟨_, rfl⟩⟩
    | newAxis => exact ih hrest
    | position =>
      cases shape with
      | nil => exact ⟨fun _ => trivial, fun _ => ⟨_, rfl⟩⟩
      | cons => exact position_refused_iff fun l => ih hrest
    | slice =>
      cases shape with
      | nil => exact ⟨fun _ => trivial, fun _ => ⟨_, rfl⟩⟩
      | cons => exact slice_refused_iff fun l => ih hrest

end IndexEntry

namespace DeviceArray

open IndexEntry

/-- A view of the elements that an index selects: it has their lengths, and each element lies where the
array has the element it stands for. -/
def ShowsSelection (a : DeviceArray) (entries : List IndexEntry) (b : DeviceArray) : Prop :=
  b = a.view b.layout ∧ ∃ origin, Selects a.shape entries b.shape origin ∧
    ∀ j, InShape b.shape j → InShape a.shape (origin j) ∧ b.layout.address j = a.layout.address (origin j)

variable {a : DeviceArray} {entries : List IndexEntry}

lemma index_of_selects {lengths : List Int} {origin : List Nat → List Nat}
    (h : Selects a.shape entries lengths origin) (hs : a.shape.length ≤ a.strides.length) :
    ∃ b, a.index entries = .ok b ∧ b = a.view b.layout ∧ (b.shape = lengths ↔ Straight a.shape entries) ∧
      ∀ j, InShape lengths j → InShape a.shape (origin j) ∧ b.layout.address j = a.layout.address (origin j) := by
  obtain ⟨v, happly, hsh, haddr⟩ := applyFrom_of_selects h hs
  have hidx : a.layout.index entries = .ok ⟨v.shape, v.strides, a.offset + v.offset⟩ := happly _ _ _
  refine ⟨a.view ⟨v.shape, v.strides, a.offset + v.offset⟩, ?_, rfl, hsh, fun j hj =>
    ⟨h.inShape hj, ?_⟩⟩
  · rw [index, hidx]
    rfl
  · have hj := haddr j hj
    simp only [address, layout, view, withLayout] at hj ⊢
    rw [add_assoc, hj]

lemma index_refused_iff (h : .ellipsis ∉ entries) : (∃ message, a.index entries = .error (.failure .index message)) ↔
      Refused a.shape a.strides entries := by
  have hlay : (∃ message, a.layout.index entries = .error (.failure .index message)) ↔
      Refused a.shape a.strides entries := applyFrom_refused_iff h
  rw [← hlay, index]
  cases a.layout.index entries with
  | error => simp [bind, Except.bind]
  | ok => constructor <;> rintro ⟨message, he⟩ <;> cases he

/-- **Basic indexing.** An index without an ellipsis is refused exactly if it asks for what is not there, and
gives the view of the elements it selects exactly if none of its slices runs against its step. -/
theorem index_selects_iff (a : DeviceArray) (entries : List IndexEntry) (h : .ellipsis ∉ entries) :
    ((∃ message, a.index entries = .error (.failure .index message)) ↔
      Refused a.shape a.strides entries) ∧
    ((∃ b, a.index entries = .ok b ∧ a.ShowsSelection entries b) ↔
      a.shape.length ≤ a.strides.length ∧ Straight a.shape entries) := by
  refine ⟨index_refused_iff h, ?_, ?_⟩
  · rintro ⟨b, hb, -, origin, hsel, -⟩
    have hs : a.shape.length ≤ a.strides.length := by
      by_contra hs
      obtain ⟨message, he⟩ := (index_refused_iff h).2 (hsel.refused (Nat.lt_of_not_le hs))
      rw [hb] at he
      cases he
    obtain ⟨b', hb', -, hsh, -⟩ := index_of_selects hsel hs
    rw [hb] at hb'
    cases hb'
    exact ⟨hs, hsh.1 rfl⟩
  · rintro ⟨hs, hstr⟩
    obtain ⟨lengths, origin, hsel⟩ := hstr.exists_selects
    obtain ⟨b, hb, hview, hsh, haddr⟩ := index_of_selects hsel hs
    obtain rfl := hsh.2 hstr
    exact ⟨b, hb, hview, origin, hsel, haddr⟩

/-- Every other element of the last row, backward and with a new axis before it, is a view of four rows of six
elements. -/
theorem index_selects_rows :
    let a : DeviceArray := { (default : DeviceArray) with shape := [4, 6], strides := [24, 4], offset := 8 }
    (∃ b, a.index [.position (-1), .newAxis, .slice none none (some (-2))] = .ok b ∧
      a.ShowsSelection [.position (-1), .newAxis, .slice none none (some (-2))] b) ∧
    ¬ ∃ b, a.index [.slice (some 3) (some 1) none] = .ok b ∧
      a.ShowsSelection [.slice (some 3) (some 1) none] b := by
  intro a
  constructor
  · refine (index_selects_iff a _ (by decide)).2.2 ⟨by decide, ?_⟩
    exact ⟨by decide, ⟨_, rfl, by decide⟩, trivial⟩
  · intro hview
    obtain ⟨-, ⟨r, hr, hdir⟩, -⟩ := (index_selects_iff a _ (by decide)).2.1 hview
    cases hr
    exact absurd hdir (by decide)

end DeviceArray

end ClHost
