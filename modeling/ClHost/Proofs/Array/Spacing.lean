import ClHost.Proofs.Array.Reshaping
import Mathlib.Data.Multiset.Bind

/-!
# How elements are spaced

Where the elements of an array lie, counted from the first one. Views of a contiguous array that go forward keep
its elements apart, whole elements from each other, but may leave gaps between them.
-/

namespace ClHost

open Layout
open List hiding count

variable {shape : List Int}

lemma InShape.one_le {index : List Nat} (h : InShape shape index) : ∀ n ∈ shape, 1 ≤ n := by
  induction h with
  | nil => simp
  | cons hi _ ih => exact forall_mem_cons.2 ⟨by omega, ih⟩

lemma inShape_zeros (h : ∀ n ∈ shape, 1 ≤ n) : InShape shape (List.replicate shape.length 0) := by
  induction shape with
  | nil => exact .nil
  | cons n ns ih =>
    rw [forall_mem_cons] at h
    exact .cons (by have := h.1; omega) (ih h.2)

namespace Strides

lemma nodup_positions (shape : List Int) : (positions .row shape).Nodup := by
  induction shape with
  | nil => simp [positions]
  | cons n ns ih =>
    rw [positions, nodup_flatMap]
    refine ⟨fun i _ => ih.map (cons_injective), nodup_range.imp ?_⟩
    intro i j hij index hi hj
    obtain ⟨_, -, rfl⟩ := mem_map.1 hi
    obtain ⟨_, -, heq⟩ := mem_map.1 hj
    exact hij (List.cons.inj heq).1.symm

lemma length_positions {shape : List Int} (h : ∀ n ∈ shape, 0 ≤ n) :
    ((positions .row shape).length : Int) = count shape := by
  induction shape with
  | nil => rfl
  | cons n ns ih =>
    rw [forall_mem_cons] at h
    rw [count_cons, ← ih h.2, positions]
    simp [length_flatMap, h.1]

lemma byteOffset_zeros (strides : List Int) (k : Nat) : byteOffset strides (List.replicate k 0) = 0 := by
  induction k generalizing strides with
  | zero => exact byteOffset_nil_right strides
  | succ k ih =>
    cases strides with
    | nil => rfl
    | cons => rw [replicate_succ, byteOffset_cons, ih, Nat.cast_zero, mul_zero, add_zero]

variable {ss ts ns : List Int}

lemma byteOffset_of_agree {index : List Nat} (h : agree ss ts ns = true) (hidx : InShape ns index) :
    byteOffset ss index = byteOffset ts index := by
  fun_induction agree ss ts ns generalizing index with
  | case1 => rfl
  | case2 s ss t ts n ns ih =>
    rw [Bool.and_eq_true, Bool.or_eq_true, beq_iff_eq, beq_iff_eq] at h
    cases hidx with
    | @cons _ i _ index hi hidx =>
      rw [byteOffset_cons, byteOffset_cons, ih h.2 hidx]
      rcases h.1 with rfl | rfl
      · -- The only place along an axis of length one is the first one.
        obtain rfl : i = 0 := by omega
        simp
      · rfl
  | case3 => cases h

lemma length_of_agree (h : agree ss ts ns = true) : ss.length = ns.length := by
  fun_induction agree ss ts ns with
  | case1 => rfl
  | case2 s ss t ts n ns ih =>
    rw [Bool.and_eq_true] at h
    rw [length_cons, length_cons, ih h.2]
  | case3 => cases h

lemma agree_self (h : ss.length = ns.length) : agree ss ss ns = true := by
  induction ss generalizing ns with
  | nil =>
    obtain rfl := length_eq_zero_iff.1 h.symm
    rfl
  | cons s ss ih =>
    obtain ⟨n, ns, rfl⟩ := exists_cons_of_length_eq_add_one h.symm
    simp [agree, ih (Nat.succ.inj h)]

/-- Strides that give every element the same place differ only along axes of length one. -/
lemma agree_of_byteOffset (hns : ∀ n ∈ ns, 1 ≤ n) (hs : ss.length = ns.length) (ht : ts.length = ns.length)
    (h : ∀ index, InShape ns index → byteOffset ss index = byteOffset ts index) : agree ss ts ns = true := by
  induction ns generalizing ss ts with
  | nil =>
    obtain rfl := length_eq_zero_iff.1 hs
    obtain rfl := length_eq_zero_iff.1 ht
    rfl
  | cons n ns ih =>
    obtain ⟨s, ss, rfl⟩ := exists_cons_of_length_eq_add_one hs
    obtain ⟨t, ts, rfl⟩ := exists_cons_of_length_eq_add_one ht
    rw [forall_mem_cons] at hns
    rw [agree, Bool.and_eq_true, Bool.or_eq_true, beq_iff_eq, beq_iff_eq]
    refine ⟨or_iff_not_imp_left.2 fun hn => ?_, ih hns.2 (Nat.succ.inj hs) (Nat.succ.inj ht) fun index hidx => ?_⟩
    · -- the second place along this axis is in the shape
      have hsnd := h _ (.cons (a := n) (b := 1) (by omega) (inShape_zeros hns.2))
      simpa only [byteOffset_cons, byteOffset_zeros, Nat.cast_one, mul_one, add_zero] using hsnd
    · have hfst := h _ (.cons (a := n) (b := 0) (by omega) hidx)
      simpa only [byteOffset_cons, Nat.cast_zero, mul_zero, zero_add] using hfst

end Strides

/-! ## Axes in another order -/

namespace Axes

open Strides

lemma spread_comm (xs ys : List Int) : (spread xs ys).Perm (spread ys xs) := by
  have h := Multiset.bind_map_comm (xs : Multiset Int) (ys : Multiset Int) (f := fun x y => x + y)
  simpa [spread, add_comm] using h

lemma spread_perm {xs xs' ys ys' : List Int} (hx : xs.Perm xs') (hy : ys.Perm ys') :
    (spread xs ys).Perm (spread xs' ys') := (hx.flatMap_right _).trans (Perm.flatMap_left _ fun a _ => hy.map (a + ·))

lemma offsets_perm_row (order : Order) (axes : List (Int × Int)) : (offsets order axes).Perm (offsets .row axes) := by
  induction axes with
  | nil => rfl
  | cons a axes ih =>
    cases order with
    | row => rfl
    | column => exact (spread_comm _ _).trans (spread_perm (.refl _) ih)

lemma offsets_perm {axes axes' : List (Int × Int)} (h : axes.Perm axes') :
    (offsets .row axes).Perm (offsets .row axes') := by
  induction h with
  | nil => rfl
  | cons a _ ih => exact spread_perm (.refl _) ih
  | swap a b axes =>
    change (spread (along b.1 b.2) (spread (along a.1 a.2) (offsets .row axes))).Perm
      (spread (along a.1 a.2) (spread (along b.1 b.2) (offsets .row axes)))
    rw [← spread_assoc, ← spread_assoc]
    exact spread_perm (spread_comm _ _) (.refl _)
  | trans _ _ ih ih' => exact ih.trans ih'

lemma map_byteOffset_of_agree {order : Order} {size : Int} {shape strides : List Int}
    (h : agree strides (ofOrder size shape order) shape = true) (hsh : ∀ n ∈ shape, 1 ≤ n) :
    (positions order shape).map (byteOffset strides) = along (count shape) size := by
  rw [← offsets_ofOrder order size hsh, ← Reshape.axes_eq_zip (length_ofOrder size shape order),
    ← map_byteOffset_positions]
  exact map_congr_left fun index hidx => byteOffset_of_agree h (mem_positions.1 hidx)

end Axes

namespace Strides

/-- The element at each place of an order is as many elements from the first one. -/
def Linear (order : Order) (strides : List Int) (itemsize : Int) (shape : List Int) : Prop :=
  ∀ (k : Nat) index, (positions order shape)[k]? = some index → byteOffset strides index = itemsize * k

variable {order : Order} {strides : List Int} {itemsize : Int}

lemma linear_of_agree (hsh : ∀ n ∈ shape, 1 ≤ n)
    (h : agree strides (ofOrder itemsize shape order) shape = true) : Linear order strides itemsize shape := by
  intro k index hk
  have hplace := congrArg (·[k]?) (Axes.map_byteOffset_of_agree h hsh)
  simp only [Axes.along, getElem?_map, hk, Option.map_some] at hplace
  obtain ⟨i, hi, hoff⟩ := Option.map_eq_some_iff.1 hplace.symm
  obtain ⟨_, rfl⟩ := List.getElem?_eq_some_iff.1 hi
  rw [← hoff, getElem_range]

lemma agree_iff_linear (order : Order) (hsh : ∀ n ∈ shape, 1 ≤ n) (hlen : strides.length = shape.length) :
    agree strides (ofOrder itemsize shape order) shape = true ↔ Linear order strides itemsize shape := by
  refine ⟨linear_of_agree hsh, fun h => ?_⟩
  have hlen' := length_ofOrder itemsize shape order
  refine agree_of_byteOffset hsh hlen hlen' fun index hidx => ?_
  obtain ⟨k, hk⟩ := mem_iff_getElem?.1 ((@mem_positions order shape index).2 hidx)
  rw [h k index hk, linear_of_agree hsh (agree_self hlen') k index hk]

/-- **An array is contiguous in an order exactly if its elements lie in memory one after the other in that order.** -/
theorem contiguous_iff_linear (strides shape : List Int) (itemsize : Int) (hsh : ∀ n ∈ shape, 1 ≤ n)
    (hlen : strides.length = shape.length) :
    (isRowMajor strides itemsize shape = true ↔ Linear .row strides itemsize shape) ∧
      (isColumnMajor strides itemsize shape = true ↔ Linear .column strides itemsize shape) :=
  ⟨agree_iff_linear .row hsh hlen, agree_iff_linear .column hsh hlen⟩

theorem contiguous_iff_linear_unit_axis :
    Linear .row [12, 7, 4] 4 [2, 1, 3] ∧ ¬ Linear .column [12, 7, 4] 4 [2, 1, 3] := by
  obtain ⟨hrow, hcolumn⟩ := contiguous_iff_linear [12, 7, 4] [2, 1, 3] 4 (by decide) rfl
  exact ⟨hrow.1 (by decide), mt hcolumn.2 (by decide)⟩

end Strides

/-! ## Elements apart from each other -/

structure Spaced (size : Nat) (xs : List Int) : Prop where
  whole : ∀ x ∈ xs, ∃ k : Nat, x = size * k
  distinct : size ≠ 0 → xs.Nodup

def Gapless (size : Nat) (xs : List Int) : Prop := ∀ k < xs.length, (size * k : Int) ∈ xs

section Spaced

variable {size : Nat} {xs ys : List Int}

lemma spaced_nil (size : Nat) : Spaced size [] := ⟨nofun, fun _ => .nil⟩

lemma Spaced.perm (h : Spaced size xs) (hperm : xs.Perm ys) : Spaced size ys :=
  ⟨fun x hx => h.whole x (hperm.mem_iff.2 hx), fun hsize => hperm.nodup_iff.1 (h.distinct hsize)⟩

lemma spaced_along (n : Int) (size : Nat) : Spaced size (Axes.along n size) := by
  refine ⟨fun x hx => ?_, fun hsize => nodup_range.map fun i j hij => ?_⟩
  · obtain ⟨k, -, rfl⟩ := mem_map.1 hx
    exact ⟨k, rfl⟩
  · have hsize : (size : Int) ≠ 0 := by exact_mod_cast hsize
    exact_mod_cast mul_left_cancel₀ hsize hij

lemma gapless_along (n : Int) (size : Nat) : Gapless size (Axes.along n size) := by
  intro k hk
  exact mem_map.2 ⟨k, by simpa [Axes.along] using hk, rfl⟩

lemma perm_range_of_lt {ks : List Nat} {n : Nat} (hnodup : ks.Nodup) (hlt : ∀ k ∈ ks, k < n)
    (hlen : ks.length = n) : ks.Perm (List.range n) :=
  (subperm_of_subset hnodup fun k hk => mem_range.2 (hlt k hk)).perm_of_length_le (by simp [hlen])

/-- **Elements that are spaced lie below the end of as many elements exactly if there are no gaps.** -/
lemma Spaced.below_iff (h : Spaced size xs) (hsize : size ≠ 0) :
    (∀ x ∈ xs, x < size * xs.length) ↔ Gapless size xs := by
  obtain ⟨ks, rfl⟩ : xs ∈ Set.range (List.map fun k : Nat => (size * k : Int)) := by
    rw [Set.range_list_map]
    exact fun x hx => (h.whole x hx).imp fun _ hk => hk.symm
  have hpos : (0 : Int) < size := by exact_mod_cast Nat.pos_of_ne_zero hsize
  have hmem : ∀ k : Nat, (size * k : Int) ∈ ks.map (fun k : Nat => (size * k : Int)) ↔ k ∈ ks := by
    intro k
    simp [hsize]
  have hnodup : ks.Nodup := (h.distinct hsize).of_map _
  simp only [Gapless, hmem, length_map, forall_mem_map, mul_lt_mul_iff_right₀ hpos, Nat.cast_lt]
  constructor
  · intro hbelow k hk
    exact (perm_range_of_lt hnodup hbelow rfl).mem_iff.2 (mem_range.2 hk)
  · intro hall k hk
    have hsub : List.range ks.length ⊆ ks := fun j hj => hall j (mem_range.1 hj)
    have hperm := (subperm_of_subset nodup_range hsub).perm_of_length_le (by simp)
    exact mem_range.1 (hperm.mem_iff.2 hk)

end Spaced

/-! ## Indices that go forward -/

namespace IndexEntry

open Strides

def Forward : List Int → List IndexEntry → Prop
  | _, [] => True
  | shape, .newAxis :: entries => Forward shape entries
  | n :: shape, .position i :: entries => (-n ≤ i ∧ i < n) ∧ Forward shape entries
  | n :: shape, .slice start stop step :: entries =>
    (∃ r, IndexRange.ofSlice start stop step n = .ok r ∧ r.start < r.stop ∧ 0 < r.step) ∧ Forward shape entries
  | _, _ => False

variable {entries : List IndexEntry} {l v : Layout} {axes : List (Int × Option Int)}

lemma Forward.straight {shape : List Int} (h : Forward shape entries) : Straight shape entries := by
  fun_induction Forward shape entries with
  | case1 => trivial
  | case2 shape entries ih => exact ih h
  | case3 n shape i entries ih => exact ⟨h.1, ih h.2⟩
  | case4 n shape start stop step entries ih =>
    obtain ⟨⟨r, hr, hlt, hstep⟩, hrest⟩ := h
    exact ⟨⟨r, hr, mul_nonneg (by omega) hstep.le⟩, ih hrest⟩
  | case5 => exact h.elim

/-- The elements that an index selects lie from its first one as some elements of the array lie from the first one of
the array, each from another one. -/
lemma Selects.exists_shift {shape entries lengths origin} (h : Selects shape entries lengths origin)
    (hfwd : Forward shape entries) : ∃ shift : List Nat → List Nat,
      (∀ j, InShape lengths j → InShape shape (shift j)) ∧
      (∀ j k, InShape lengths j → InShape lengths k → shift j = shift k → j = k) ∧
      ∀ strides j, InShape lengths j → byteOffset strides (origin j) =
        byteOffset strides (origin (List.replicate lengths.length 0)) + byteOffset strides (shift j) := by
  induction h with
  | whole =>
    refine ⟨id, fun _ => id, fun _ _ _ _ => id, fun strides j _ => ?_⟩
    simp [byteOffset_zeros]
  | newAxis _ ih =>
    obtain ⟨shift, hin, hinj, hoff⟩ := ih hfwd
    refine ⟨fun j => shift j.tail, ?_, ?_, ?_⟩
    · rintro _ (_ | ⟨-, hj⟩)
      exact hin _ hj
    · rintro _ _ (_ | @⟨_, i, _, j, hi, hj⟩) (_ | @⟨_, i', _, k, hi', hk⟩) heq
      obtain rfl : i = i' := by omega
      rw [hinj j k hj hk heq]
    · rintro strides _ (_ | ⟨-, hj⟩)
      exact hoff strides _ hj
  | @position shape entries lengths origin n i p hlt _ _ ih =>
    obtain ⟨shift, hin, hinj, hoff⟩ := ih hfwd.2
    refine ⟨fun j => 0 :: shift j, fun j hj => .cons (by omega) (hin j hj), fun j k hj hk heq => ?_,
      fun strides j hj => ?_⟩
    · exact hinj j k hj hk (List.cons.inj heq).2
    · cases strides with
      | nil => simp [byteOffset]
      | cons s strides =>
        simp only [byteOffset_cons, hoff strides j hj]
        ring
  | @slice shape entries lengths origin n start stop step r hr _ ih =>
    obtain ⟨⟨r', hr', hlt, hstep⟩, hfwd⟩ := hfwd
    obtain rfl : r = r' := Except.ok.inj (hr.symm.trans hr')
    obtain ⟨shift, hin, hinj, hoff⟩ := ih hfwd
    have haxis := IndexRange.inAxis_of_ofSlice hr
    have hst := (haxis.forward hstep).1.1
    have hnth : ∀ k : Nat, r.nth k = r.start + (r.step.toNat * k : Nat) := by
      intro k
      rw [IndexRange.nth, Nat.cast_mul, Int.toNat_of_nonneg hstep.le]
    refine ⟨fun j => r.step.toNat * j.headD 0 :: shift j.tail, ?_, ?_, ?_⟩
    · rintro _ (_ | @⟨_, i, _, j, hi, hj⟩)
      have hmem := haxis.nth_mem (Int.ofNat_lt.1 hi)
      rw [hnth] at hmem
      exact .cons (by rw [headD_cons]; omega) (hin _ hj)
    · rintro _ _ (_ | @⟨_, i, _, j, hi, hj⟩) (_ | @⟨_, i', _, k, hi', hk⟩) heq
      obtain ⟨hhead, htail⟩ := List.cons.inj heq
      have hpos : 0 < r.step.toNat := by omega
      obtain rfl : i = i' := Nat.eq_of_mul_eq_mul_left hpos hhead
      rw [hinj j k hj hk htail]
    · rintro strides _ (_ | @⟨_, i, _, j, hi, hj⟩)
      have hplace : ((r.nth i).toNat : Int) = (r.nth 0).toNat + (r.step.toNat * i : Nat) := by
        rw [hnth, hnth]
        omega
      cases strides with
      | nil => simp [byteOffset]
      | cons s strides =>
        simp only [length_cons, replicate_succ, byteOffset_cons, headD_cons, tail_cons, hoff strides j hj]
        rw [hplace]
        ring

lemma Selects.lengths_nonneg {shape entries lengths origin} (h : Selects shape entries lengths origin)
    (hsh : ∀ n ∈ shape, 0 ≤ n) : ∀ n ∈ lengths, 0 ≤ n := by
  induction h with
  | whole => exact hsh
  | newAxis _ ih => exact forall_mem_cons.2 ⟨by decide, ih hsh⟩
  | position _ _ _ ih => exact ih (forall_mem_cons.1 hsh).2
  | slice _ _ ih => exact forall_mem_cons.2 ⟨Int.natCast_nonneg _, ih (forall_mem_cons.1 hsh).2⟩

lemma Selects.ellipsis_notMem {shape entries lengths origin} (h : Selects shape entries lengths origin) :
    .ellipsis ∉ entries := by
  induction h <;> simp [*]

lemma length_pushAll (h : l.pushAll axes = .ok v) (hl : l.strides.length = l.shape.length) :
    v.strides.length = v.shape.length := by
  fun_induction pushAll l axes with
  | case1 =>
    cases h
    exact hl
  | case2 l n stride rest ih =>
    obtain ⟨s, -, h⟩ := of_bind_ok h
    exact ih s h (by simp [push, hl])

lemma length_applyFrom {seen : Bool} {number : Nat} (h : applyFrom seen l axes number entries = .ok v)
    (hl : l.strides.length = l.shape.length) : v.strides.length = v.shape.length := by
  fun_induction applyFrom seen l axes number entries with
  | case1 => exact length_pushAll h hl
  | case2 seen l n stride axes number start stop step rest ih =>
    obtain ⟨r, -, h⟩ := of_bind_ok h
    obtain ⟨s, -, h⟩ := of_bind_ok h
    exact ih r s h (by simp [push, hl])
  | case4 seen l n stride axes number i rest place next hin ih =>
    obtain ⟨s, -, h⟩ := of_bind_ok h
    exact ih s h hl
  | case8 seen l axes number rest next hlen ih =>
    obtain ⟨v', hpush, h⟩ := of_bind_ok h
    split at h
    · cases h
    · exact ih v' h (length_pushAll hpush hl)
  | case9 seen l axes number rest ih => exact ih h (by simp [push, hl])
  | _ => cases h

end IndexEntry

/-! ## Axes that are picked -/

namespace Layout

def place (count : Nat) (i : Int) : Nat := (i % count).toNat

variable {xs : List Int}

lemma pickFrom_ok {i x : Int} (h : pickFrom xs i = .ok x) :
    place xs.length i < xs.length ∧ x = xs[place xs.length i]?.getD 0 := by
  unfold pickFrom at h
  extract_lets j at h
  split at h
  · rename_i y hy
    cases h
    split at hy
    · cases hy
    · rename_i hnn
      obtain ⟨hlt, -⟩ := List.getElem?_eq_some_iff.1 hy
      have hplace : i % xs.length = j := by
        by_cases hi : i < 0
        · have hj : j = i + xs.length := if_pos hi
          rw [← Int.add_emod_right, ← hj, Int.emod_eq_of_lt (by omega) (by omega)]
        · have hj : j = i := if_neg hi
          rw [← hj, Int.emod_eq_of_lt (by omega) (by omega)]
      rw [place, hplace, hy]
      exact ⟨hlt, rfl⟩
  · cases h

lemma mapM_pickFrom {axes ys : List Int} (h : axes.mapM (pickFrom xs) = .ok ys) :
    (∀ i ∈ axes, place xs.length i < xs.length) ∧ ys = axes.map fun i => xs[place xs.length i]?.getD 0 := by
  induction axes generalizing ys with
  | nil =>
    cases h
    simp
  | cons i axes ih =>
    rw [mapM_cons] at h
    obtain ⟨y, hy, h⟩ := of_bind_ok h
    obtain ⟨rest, hrest, h⟩ := of_bind_ok h
    cases h
    obtain ⟨hlt, rfl⟩ := pickFrom_ok hy
    obtain ⟨hall, rfl⟩ := ih hrest
    exact ⟨forall_mem_cons.2 ⟨hlt, hall⟩, rfl⟩

variable {l v : Layout} {axes : List Int}

lemma transpose_ok (h : l.transpose axes = .ok v) :
    axes.length = l.shape.length ∧ (∀ i ∈ axes, place l.shape.length i < l.shape.length) ∧
      v = ⟨axes.map fun i => l.shape[place l.shape.length i]?.getD 0,
        axes.map fun i => l.strides[place l.strides.length i]?.getD 0, l.offset⟩ := by
  unfold transpose at h
  split at h
  · cases h
  rename_i hlen
  obtain ⟨shape, hsh, h⟩ := of_bind_ok h
  obtain ⟨strides, hstr, h⟩ := of_bind_ok h
  cases h
  obtain ⟨hlt, rfl⟩ := mapM_pickFrom hsh
  obtain ⟨-, rfl⟩ := mapM_pickFrom hstr
  exact ⟨by simpa using hlen, hlt, rfl⟩

section Transpose

variable (h : l.transpose axes = .ok v) (hdist : (axes.map (place l.shape.length)).Nodup)

include h hdist

lemma places_perm : (axes.map (place l.shape.length)).Perm (List.range l.shape.length) := by
  obtain ⟨hlen, hlt, -⟩ := transpose_ok h
  exact perm_range_of_lt hdist (by simpa using hlt) (by simpa using hlen)

lemma transpose_shape_perm : v.shape.Perm l.shape := by
  have hpicked := (places_perm h hdist).map fun p => l.shape[p]?.getD 0
  have hold : (List.range l.shape.length).map (fun p => l.shape[p]?.getD 0) = l.shape := by
    apply ext_getElem <;> simp +contextual
  obtain ⟨-, -, rfl⟩ := transpose_ok h
  rwa [hold, map_map] at hpicked

lemma transpose_perm (hstr : l.strides.length = l.shape.length) :
    v.strides.length = v.shape.length ∧ (v.shape.zip v.strides).Perm (l.shape.zip l.strides) := by
  have hpicked := (places_perm h hdist).map fun p => (l.shape[p]?.getD 0, l.strides[p]?.getD 0)
  have hold : (List.range l.shape.length).map (fun p => (l.shape[p]?.getD 0, l.strides[p]?.getD 0)) =
      l.shape.zip l.strides := by
    apply ext_getElem <;> simp +contextual [hstr]
  obtain ⟨-, -, rfl⟩ := transpose_ok h
  rw [hold, map_map] at hpicked
  refine ⟨by simp, ?_⟩
  rw [hstr, zip_map']
  exact hpicked

end Transpose

end Layout

/-! ## New shapes -/

namespace Reshape

open Strides Axes

lemma apply_cases {order : Order} {itemsize : Int} {l v : Layout} {shape : List Int}
    (h : apply order itemsize l shape = .ok v) :
    v = l ∨ count v.shape = count l.shape ∧ Reshape.strides order itemsize l v.shape = .ok v.strides := by
  obtain ⟨filled, -, h⟩ := of_bind_ok h
  split at h
  · cases h
    exact .inl rfl
  split at h
  · cases h
  rename_i hcnt
  obtain ⟨new, hnew, h⟩ := of_bind_ok h
  cases h
  exact .inr ⟨by simpa [Layout.size] using hcnt, hnew⟩

end Reshape

/-! ## Views of contiguous arrays -/

namespace DeviceArray

open Strides Axes

def offsets (a : DeviceArray) : List Int := (positions .row a.shape).map (byteOffset a.strides)

inductive Reachable : DeviceArray → Prop
  | contiguous {a : DeviceArray} (hsh : ∀ n ∈ a.shape, 0 ≤ n) (h : a.contiguity.any = true) : Reachable a
  | index {a b : DeviceArray} {entries : List IndexEntry} (ha : Reachable a)
    (hents : IndexEntry.Forward a.shape entries) (h : a.index entries = .ok b) : Reachable b
  | transpose {a b : DeviceArray} {axes : List Int} (ha : Reachable a)
    (hdist : (axes.map (place a.shape.length)).Nodup) (h : a.transpose axes = .ok b) : Reachable b
  | transposed {a : DeviceArray} (ha : Reachable a) : Reachable a.transposed
  | reshape {a b : DeviceArray} {order : Order} {shape : List Int} (ha : Reachable a) (hsh : ∀ n ∈ b.shape, 0 ≤ n)
    (h : a.reshape order shape = .ok b) : Reachable b

structure Regular (a : DeviceArray) : Prop where
  lengths : ∀ n ∈ a.shape, 0 ≤ n
  strided : (∀ n ∈ a.shape, 1 ≤ n) → a.strides.length = a.shape.length
  spaced : Spaced a.type.size a.offsets

variable {a b : DeviceArray}

lemma length_offsets (h : ∀ n ∈ a.shape, 0 ≤ n) : (a.offsets.length : Int) = a.size := by
  rw [offsets, length_map, length_positions h, size]

lemma offsets_eq_nil (h : ¬ ∀ n ∈ a.shape, 1 ≤ n) : a.offsets = [] := by
  rw [offsets, map_eq_nil_iff, eq_nil_iff_forall_not_mem]
  exact fun index hidx => h (mem_positions.1 hidx).one_le

lemma offsets_eq_axes (h : a.strides.length = a.shape.length) :
    a.offsets = Axes.offsets .row (a.shape.zip a.strides) := by
  rw [offsets, map_byteOffset_positions, Reshape.axes_eq_zip h]

variable {order : Order}

lemma offsets_perm_along (h : agree a.strides (ofOrder a.type.size a.shape order) a.shape = true)
    (hsh : ∀ n ∈ a.shape, 1 ≤ n) : a.offsets.Perm (along a.size a.type.size) := by
  rw [size, ← map_byteOffset_of_agree h hsh, map_byteOffset_positions, offsets, map_byteOffset_positions]
  exact (offsets_perm_row order _).symm

lemma exists_order (h : a.contiguity.any = true) :
    ∃ order, agree a.strides (ofOrder a.type.size a.shape order) a.shape = true := by
  rcases Bool.or_eq_true _ _ ▸ h with h | h
  · exact ⟨.column, h⟩
  · exact ⟨.row, h⟩

lemma regular_contiguous (hsh : ∀ n ∈ a.shape, 0 ≤ n) (h : a.contiguity.any = true) : a.Regular := by
  obtain ⟨order, hord⟩ := exists_order h
  refine ⟨hsh, fun _ => length_of_agree hord, ?_⟩
  by_cases hfull : ∀ n ∈ a.shape, 1 ≤ n
  · exact (spaced_along _ _).perm (offsets_perm_along hord hfull).symm
  · rw [offsets_eq_nil hfull]
    exact spaced_nil _

lemma Regular.index {entries : List IndexEntry} (ha : a.Regular) (hents : IndexEntry.Forward a.shape entries)
    (h : a.index entries = .ok b) : b.Regular := by
  obtain ⟨lengths, origin, hsel⟩ := hents.straight.exists_selects
  have hs : a.shape.length ≤ a.strides.length := by
    by_contra hs
    obtain ⟨message, he⟩ := (index_refused_iff hsel.ellipsis_notMem).2 (hsel.refused (Nat.lt_of_not_le hs))
    rw [h] at he
    cases he
  obtain ⟨b', hb', hview, hlens, haddr⟩ := index_of_selects hsel hs
  obtain rfl : b = b' := Except.ok.inj (h.symm.trans hb')
  obtain rfl := hlens.2 hents.straight
  have hstrided : b.strides.length = b.shape.length := by
    obtain ⟨v, hv, h⟩ := of_bind_ok h
    cases h
    exact IndexEntry.length_applyFrom hv rfl
  obtain ⟨shift, hin, hinj, hshift⟩ := hsel.exists_shift hents
  -- An element lies from the first one as an element of the array does.
  have hoff : ∀ j ∈ positions .row b.shape, byteOffset b.strides j = byteOffset a.strides (shift j) := by
    intro j hj
    have hj := mem_positions.1 hj
    have hfst := (haddr _ (inShape_zeros hj.one_le)).2
    have hj' := (haddr j hj).2
    simp only [address, layout, byteOffset_zeros] at hfst hj'
    have hsum := hshift a.strides j hj
    omega
  have hoffs : b.offsets = (positions .row b.shape).map fun j => byteOffset a.strides (shift j) :=
    map_congr_left hoff
  have htype : b.type = a.type := by rw [hview]; rfl
  have hmem : ∀ j ∈ positions .row b.shape, shift j ∈ positions .row a.shape := fun j hj =>
    mem_positions.2 (hin j (mem_positions.1 hj))
  refine ⟨hsel.lengths_nonneg ha.lengths, fun _ => hstrided, ?_⟩
  rw [htype, hoffs]
  refine ⟨fun x hx => ?_, fun hsize => ?_⟩
  · obtain ⟨j, hj, rfl⟩ := mem_map.1 hx
    exact ha.spaced.whole _ (mem_map_of_mem (hmem j hj))
  · refine (nodup_positions _).map_on fun j hj k hk heq => hinj j k (mem_positions.1 hj) (mem_positions.1 hk) ?_
    exact inj_on_of_nodup_map (ha.spaced.distinct hsize) (hmem j hj) (hmem k hk) heq

lemma Regular.of_perm (ha : a.Regular) (htype : b.type = a.type) (hsh : b.shape.Perm a.shape)
    (haxes : a.strides.length = a.shape.length →
      b.strides.length = b.shape.length ∧ (b.shape.zip b.strides).Perm (a.shape.zip a.strides)) : b.Regular := by
  have hlens : ∀ n ∈ b.shape, 0 ≤ n := fun n hn => ha.lengths n (hsh.mem_iff.1 hn)
  by_cases hfull : ∀ n ∈ b.shape, 1 ≤ n
  · have hstrided := ha.strided fun n hn => hfull n (hsh.mem_iff.2 hn)
    obtain ⟨hlen, hperm⟩ := haxes hstrided
    refine ⟨hlens, fun _ => hlen, ?_⟩
    rw [htype, offsets_eq_axes hlen]
    exact (offsets_eq_axes hstrided ▸ ha.spaced).perm (offsets_perm hperm).symm
  · refine ⟨hlens, fun h => absurd h hfull, ?_⟩
    rw [offsets_eq_nil hfull]
    exact spaced_nil _

lemma Regular.transpose {axes : List Int} (ha : a.Regular)
    (hdist : (axes.map (place a.shape.length)).Nodup) (h : a.transpose axes = .ok b) : b.Regular := by
  obtain ⟨v, hv, h⟩ := of_bind_ok h
  cases h
  exact ha.of_perm rfl (transpose_shape_perm hv hdist) fun hs => transpose_perm hv hdist hs

lemma Regular.transposed (ha : a.Regular) : a.transposed.Regular := by
  refine ha.of_perm rfl (reverse_perm _) fun hs => ?_
  change a.strides.reverse.length = a.shape.reverse.length ∧ (a.shape.reverse.zip a.strides.reverse).Perm _
  refine ⟨by simpa using hs, ?_⟩
  rw [List.zip, ← reverse_zipWith hs.symm]
  exact reverse_perm _

lemma Regular.reshape {shape : List Int} (ha : a.Regular) (hsh : ∀ n ∈ b.shape, 0 ≤ n)
    (h : a.reshape order shape = .ok b) : b.Regular := by
  obtain ⟨v, hv, h⟩ := of_bind_ok h
  cases h
  rcases Reshape.apply_cases hv with rfl | ⟨hcnt, hstr⟩
  · exact ha
  by_cases hfull : ∀ n ∈ v.shape, 1 ≤ n
  · have hfull' : ∀ n ∈ a.shape, 1 ≤ n := by
      have hpos := one_le_count hfull
      exact one_le_of_count_ne ha.lengths (by change count a.layout.shape ≠ 0; omega)
    obtain ⟨hlen, hoffs⟩ := Reshape.strides_spec hstr hfull' hfull hcnt
    have hview : (a.view v).offsets = Axes.offsets .row (v.shape.zip v.strides) := offsets_eq_axes hlen
    have hperm := ((offsets_perm_row order _).symm.trans (.of_eq hoffs)).trans (offsets_perm_row order _)
    rw [← map_byteOffset_positions, ← hview] at hperm
    exact ⟨hsh, fun _ => hlen, ha.spaced.perm hperm.symm⟩
  · refine ⟨hsh, fun h => absurd h hfull, ?_⟩
    rw [offsets_eq_nil hfull]
    exact spaced_nil _

/-- **The elements of all these views are spaced.** -/
lemma Reachable.regular (h : a.Reachable) : a.Regular := by
  induction h with
  | contiguous hsh h => exact regular_contiguous hsh h
  | index _ hents h ih => exact ih.index hents h
  | transpose _ hdist h ih => exact ih.transpose hdist h
  | transposed _ ih => exact ih.transposed
  | reshape _ hsh h ih => exact ih.reshape hsh h

end DeviceArray

end ClHost
