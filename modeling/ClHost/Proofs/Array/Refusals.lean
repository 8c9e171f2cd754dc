import ClHost.Proofs.Array.Reshaping
import Mathlib.Algebra.BigOperators.Group.List.Basic
import Mathlib.Data.List.Chain

/-!
# When reshaping is refused

A reshape is refused where elements would have to move. It takes the axes of both shapes together in the smallest
groups that hold the same number of elements, and refuses if the old axes of a group do not make up one axis.
-/

namespace ClHost

open Nat Layout
open List hiding count

/-! ## Sequences of addresses -/

namespace Axes

open Strides

def size (axes : List (Int × Int)) : Nat := (axes.map fun a => a.1.toNat).prod

lemma size_nil : size [] = 1 := rfl

lemma size_cons (n s : Int) (axes : List (Int × Int)) : size ((n, s) :: axes) = n.toNat * size axes := by
  simp [size]

lemma size_append (xs ys : List (Int × Int)) : size (xs ++ ys) = size xs * size ys := by
  simp [size]

lemma size_reverse (axes : List (Int × Int)) : size axes.reverse = size axes := by
  rw [size, map_reverse, prod_reverse]
  rfl

variable {axes : List (Int × Int)}

lemma size_eq_count (h : ∀ a ∈ axes, 1 ≤ a.1) : (size axes : Int) = count (axes.map (·.1)) := by
  induction axes with
  | nil => rfl
  | cons a axes ih =>
    rw [forall_mem_cons] at h
    rw [size_cons, cast_mul, ih h.2, map_cons, count_cons, Int.toNat_of_nonneg (by omega)]

lemma size_pos (h : ∀ a ∈ axes, 1 ≤ a.1) : 0 < size axes := by
  have hcnt : 1 ≤ count (axes.map (·.1)) := one_le_count (by simpa using h)
  rw [← size_eq_count h] at hcnt
  omega

lemma length_spread (xs ys : List Int) : (spread xs ys).length = xs.length * ys.length := by
  simp [spread]

lemma length_offsets (order : Order) (axes : List (Int × Int)) : (offsets order axes).length = size axes := by
  induction axes with
  | nil => rfl
  | cons a axes ih =>
    obtain ⟨n, s⟩ := a
    cases order <;> simp [offsets, nest, length_spread, ih, along, size_cons, mul_comm]

lemma offsets_column (axes : List (Int × Int)) : offsets .column axes = offsets .row axes.reverse := by
  induction axes with
  | nil => rfl
  | cons a axes ih =>
    rw [reverse_cons, offsets_append, ← ih]
    simp [offsets, nest, spread_zero_right]

lemma spread_cons (x : Int) (xs ys : List Int) : spread (x :: xs) ys = ys.map (x + ·) ++ spread xs ys := rfl

lemma exists_offsets_eq (order : Order) (h : ∀ a ∈ axes, 1 ≤ a.1) : ∃ rest, offsets order axes = 0 :: rest := by
  induction axes with
  | nil => exact ⟨[], rfl⟩
  | cons a axes ih =>
    obtain ⟨n, s⟩ := a
    rw [forall_mem_cons] at h
    obtain ⟨rest, hrest⟩ := ih h.2
    obtain ⟨k, hk⟩ : ∃ k, n.toNat = k + 1 := ⟨n.toNat - 1, by have := h.1; simp only at this; omega⟩
    cases order <;>
      simp [offsets, nest, hrest, spread_cons, along, hk, range_succ_eq_map]

lemma getElem?_spread {xs ys : List Int} {q r : Nat} {x y : Int} (hx : xs[q]? = some x) (hy : ys[r]? = some y) :
    (spread xs ys)[q * ys.length + r]? = some (x + y) := by
  have hr : r < ys.length := (List.getElem?_eq_some_iff.1 hy).1
  induction xs generalizing q with
  | nil => simp at hx
  | cons z xs ih =>
    rw [spread_cons]
    cases q with
    | zero =>
      obtain rfl : z = x := by simpa using hx
      rw [zero_mul, zero_add, getElem?_append_left (by simpa using hr), getElem?_map, hy, Option.map_some]
    | succ q =>
      rw [getElem?_append_right (by rw [length_map]; nlinarith), length_map]
      have hidx : (q + 1) * ys.length + r - ys.length = q * ys.length + r := by
        rw [succ_mul]
        omega
      rw [hidx]
      exact ih (by simpa using hx)

lemma spread_inj {xs xs' ys ys' : List Int} (hlen : ys.length = ys'.length) (hxs : ∃ rest, xs = 0 :: rest)
    (hxs' : ∃ rest, xs' = 0 :: rest) (hys : ∃ rest, ys = 0 :: rest) (h : spread xs ys = spread xs' ys') :
    xs = xs' ∧ ys = ys' := by
  have hinn : ys = ys' := by
    obtain ⟨xs, rfl⟩ := hxs
    obtain ⟨xs', rfl⟩ := hxs'
    simp only [spread_cons, zero_add, map_id'] at h
    exact (append_inj h hlen).1
  subst hinn
  refine ⟨?_, rfl⟩
  obtain ⟨ys, rfl⟩ := hys
  clear hxs hxs' hlen
  induction xs generalizing xs' with
  | nil =>
    cases xs' with
    | nil => rfl
    | cons => simp [spread] at h
  | cons x xs ih =>
    cases xs' with
    | nil => simp [spread] at h
    | cons x' =>
      obtain ⟨hfst, hrest⟩ := append_inj h (by simp)
      have hx : x = x' := by simpa using (List.cons.inj hfst).1
      rw [hx, ih hrest]

variable {xs ys : List (Int × Int)} {i : Nat}

lemma offsets_append_inj {order : Order} {xs' ys' : List (Int × Int)} (hxs : ∀ a ∈ xs, 1 ≤ a.1)
    (hxs' : ∀ a ∈ xs', 1 ≤ a.1) (hys : ∀ a ∈ ys, 1 ≤ a.1) (hys' : ∀ a ∈ ys', 1 ≤ a.1) (hsize : size xs = size xs')
    (hsize' : size ys = size ys') (h : offsets order (xs ++ ys) = offsets order (xs' ++ ys')) :
    offsets order xs = offsets order xs' ∧ offsets order ys = offsets order ys' := by
  rw [offsets_append, offsets_append] at h
  have hlen : ∀ {us us' : List (Int × Int)}, size us = size us' →
      (offsets order us).length = (offsets order us').length := by
    intro us us' h
    rw [length_offsets, length_offsets, h]
  cases order with
  | row =>
    exact spread_inj (hlen hsize') (exists_offsets_eq _ hxs) (exists_offsets_eq _ hxs') (exists_offsets_eq _ hys) h
  | column =>
    exact (spread_inj (hlen hsize) (exists_offsets_eq _ hys) (exists_offsets_eq _ hys') (exists_offsets_eq _ hxs)
      h).symm

/-! ## Equal steps -/

/-- A sequence of addresses runs along axes, the last of which is the fastest: the elements that an axis goes over lie
as those behind it do, moved on by its stride. -/
structure Runs (f : Nat → Int) (axes : List (Int × Int)) : Prop where
  start : f 0 = 0
  step : ∀ outer n s inner, axes = outer ++ (n, s) :: inner → ∀ q r : Nat, (q : Int) < n → r < size inner →
    f (q * size inner + r) = s * q + f r

lemma runs_offsets (h : ∀ a ∈ axes, 1 ≤ a.1) : Runs (fun i => (offsets .row axes)[i]?.getD 0) axes := by
  constructor
  · obtain ⟨rest, hrest⟩ := exists_offsets_eq .row h
    simp [hrest]
  · rintro outer n s inner rfl
    obtain ⟨rest, hrest⟩ := @exists_offsets_eq outer .row fun a ha => h a (by simp [ha])
    have hidx : ∀ q r : Nat, (q : Int) < n → ∀ hr : r < (offsets .row inner).length,
        (offsets .row (outer ++ (n, s) :: inner))[q * size inner + r]? = some (s * q + (offsets .row inner)[r]) := by
      intro q r hq hr
      have halong : (along n s)[q]? = some (s * q) := by
        rw [along, getElem?_map, getElem?_range (by omega), Option.map_some]
      have hat := getElem?_spread halong (getElem?_eq_getElem hr)
      rw [length_offsets] at hat
      rw [offsets_append, hrest, offsets]
      simp only [nest]
      rw [spread_cons, getElem?_append_left]
      · simpa using hat
      · rw [length_map]
        exact (List.getElem?_eq_some_iff.1 hat).1
    intro q r hq hr
    rw [← length_offsets .row inner] at hr
    have hzero := hidx 0 r (by omega) hr
    rw [zero_mul, zero_add] at hzero
    simp [hidx q r hq hr, hzero]

lemma exists_axis (hi : 0 < i) (hlt : i < size axes) :
    ∃ outer n s inner, axes = outer ++ (n, s) :: inner ∧ size inner ≤ i ∧ i < n.toNat * size inner := by
  induction axes with
  | nil =>
    rw [size_nil] at hlt
    omega
  | cons a axes ih =>
    obtain ⟨n, s⟩ := a
    by_cases hsmall : i < size axes
    · obtain ⟨outer, m, t, inner, rfl, hle, hlt⟩ := ih hsmall
      exact ⟨(n, s) :: outer, m, t, inner, rfl, hle, hlt⟩
    · exact ⟨[], n, s, axes, rfl, Nat.le_of_not_lt hsmall, hlt⟩

namespace Runs

variable {f : Nat → Int} {outer inner : List (Int × Int)} {n s : Int}

lemma stride_eq (h : Runs f (outer ++ (n, s) :: inner)) (hn : 1 < n) (hinn : 0 < size inner) :
    s = f (size inner) := by
  have hstep := h.step outer n s inner rfl 1 0 (by simpa using hn) hinn
  rw [h.start] at hstep
  simpa using hstep.symm

lemma eq_mul_of_lt (h : Runs f (outer ++ (n, s) :: inner)) {i : Nat} (hi : ∀ j < i, f j = j * f 1)
    (hinn : size inner < i) (hlt : i < n.toNat * size inner) : f i = i * f 1 := by
  have hpos : 0 < size inner := by
    by_contra hzero
    rw [Nat.eq_zero_of_not_pos hzero] at hlt
    omega
  have hquotient : i / size inner < n.toNat := Nat.div_lt_of_lt_mul (by rwa [Nat.mul_comm])
  have hn : 1 < n := by
    by_contra hn
    have hle : n.toNat * size inner ≤ 1 * size inner := Nat.mul_le_mul_right _ (by omega)
    omega
  have hmod := mod_lt i hpos
  have hstep := h.step outer n s inner rfl (i / size inner) (i % size inner) (by omega) hmod
  rw [div_add_mod', h.stride_eq hn hpos, hi _ hinn, hi (i % size inner) (by omega)] at hstep
  have hspl : ((i / size inner : Nat) : Int) * (size inner : Nat) + (i % size inner : Nat) = (i : Nat) := by
    exact_mod_cast div_add_mod' i (size inner)
  rw [hstep, ← hspl]
  ring

end Runs

def Apart (xs ys : List (Int × Int)) : Prop :=
  ∀ us vs, us <:+ xs → vs <:+ ys → size us = size vs → size us = 1 ∨ size us = size xs

/-- **A sequence that runs along axes which lie apart has equal steps.** -/
lemma Runs.eq_mul {f : Nat → Int} (hxs : Runs f xs) (hys : Runs f ys) (hsize : size xs = size ys)
    (hapart : Apart xs ys) (hi : i < size xs) : f i = i * f 1 := by
  induction i using Nat.strong_induction_on with
  | _ i ih =>
    have hbef : ∀ j < i, f j = j * f 1 := fun j hj => ih j hj (hj.trans hi)
    rcases Nat.eq_zero_or_pos i with rfl | hpos
    · rw [hxs.start, cast_zero, zero_mul]
    obtain ⟨outer, n, s, inner, rfl, hle, hlt⟩ := exists_axis hpos hi
    obtain ⟨outer', n', s', inner', rfl, hle', hlt'⟩ := exists_axis hpos (hsize ▸ hi)
    rcases lt_or_eq_of_le hle with hinn | hinn
    · exact hxs.eq_mul_of_lt hbef hinn hlt
    rcases lt_or_eq_of_le hle' with hinn' | hinn'
    · exact hys.eq_mul_of_lt hbef hinn' hlt'
    -- An axis of each shape has its second place here, which can only be the second element.
    have hsuf : ∀ (us : List (Int × Int)) a vs, vs <:+ us ++ a :: vs := fun us a vs => ⟨us ++ [a], by simp⟩
    rcases hapart inner inner' (hsuf ..) (hsuf ..) (hinn.trans hinn'.symm) with hone | hall
    · obtain rfl : i = 1 := hinn.symm.trans hone
      rw [cast_one, one_mul]
    · omega

end Axes

/-! ## Groups of axes -/

namespace Reshape

open Strides Axes

lemma combines_iff (order : Order) (axes : List (Int × Int)) : combines order axes = true ↔ axes.IsChain fun a b =>
      match order with
      | .column => b.2 = a.1 * a.2
      | .row => a.2 = b.1 * b.2 := by
  induction axes with
  | nil => simp [combines]
  | cons a rest ih =>
    cases rest with
    | nil => simp [combines]
    | cons => cases order <;> simp [combines, ih, isChain_cons_cons]

lemma combines_column (axes : List (Int × Int)) : combines .column axes = combines .row axes.reverse := by
  rw [Bool.eq_iff_iff, combines_iff, combines_iff, isChain_reverse]

lemma combines_of_runs {f : Nat → Int} {axes : List (Int × Int)} (hruns : Runs f axes) (hlong : ∀ a ∈ axes, 1 < a.1)
    (hstps : ∀ i < size axes, f i = i * f 1) : combines .row axes = true := by
  have hstride : ∀ outer n s inner, axes = outer ++ (n, s) :: inner → s = size inner * f 1 := by
    rintro outer n s inner rfl
    have hn : 1 < n := hlong (n, s) (by simp)
    have hinn : 0 < size inner := size_pos fun a ha => (hlong a (by simp [ha])).le
    have houter : 0 < size outer := size_pos fun a ha => (hlong a (by simp [ha])).le
    refine (hruns.stride_eq hn hinn).trans (hstps _ ?_)
    rw [size_append]
    calc size inner < 2 * size inner := by omega
      _ ≤ n.toNat * size inner := mul_le_mul_right _ (by omega)
      _ ≤ size outer * (n.toNat * size inner) := Nat.le_mul_of_pos_left _ houter
  rw [combines_iff, isChain_iff_forall_rel_of_append_cons_cons]
  rintro ⟨n, s⟩ ⟨m, t⟩ outer inner rfl
  have hm : 1 < m := hlong (m, t) (by simp)
  have hs := hstride outer n s ((m, t) :: inner) rfl
  have ht := hstride (outer ++ [(n, s)]) m t inner (by simp)
  rw [size_cons, cast_mul, Int.toNat_of_nonneg (by omega), mul_assoc, ← ht] at hs
  exact hs

def MeetAtEnds (xs ys : List (Int × Int)) : Prop :=
  ∀ us vs, us <+: xs → vs <+: ys → size us = size vs → us = [] ∨ us = xs

section MeetAtEnds

variable {xs ys : List (Int × Int)} (hmeet : MeetAtEnds xs ys)
include hmeet

lemma MeetAtEnds.apart (hxs : ∀ a ∈ xs, 1 ≤ a.1) (hsize : size xs = size ys) : Apart xs ys := by
  rintro us vs ⟨front, rfl⟩ ⟨front', rfl⟩ h
  have hpos : 0 < size us := size_pos fun a ha => hxs a (by simp [ha])
  have hfr : size front = size front' := by
    rw [size_append, size_append, h] at hsize
    exact eq_of_mul_eq_mul_right (h ▸ hpos) hsize
  rcases hmeet front front' (prefix_append ..) (prefix_append ..) hfr with hnone | hall
  · exact .inr (by rw [hnone, nil_append])
  · exact .inl (by rw [self_eq_append_right.1 hall, size_nil])

lemma MeetAtEnds.apart_reverse : Apart xs.reverse ys.reverse := by
  intro us vs hus hvs h
  rw [← reverse_prefix, reverse_reverse] at hus hvs
  rcases hmeet us.reverse vs.reverse hus hvs (by rw [size_reverse, size_reverse, h]) with hnone | hall
  · exact .inl (by rw [reverse_eq_nil_iff.1 hnone, size_nil])
  · exact .inr (by rw [← hall, reverse_reverse])

lemma MeetAtEnds.combines {order : Order} (hxs : ∀ a ∈ xs, 1 < a.1) (hys : ∀ a ∈ ys, 1 ≤ a.1)
    (h : offsets order xs = offsets order ys) : combines order xs = true := by
  have hsize : size xs = size ys := by rw [← length_offsets order, h, length_offsets]
  have hrow : ∀ {us vs : List (Int × Int)}, (∀ a ∈ us, 1 < a.1) → (∀ a ∈ vs, 1 ≤ a.1) → size us = size vs →
      Apart us vs → offsets .row us = offsets .row vs → Reshape.combines .row us = true := by
    intro us vs hus hvs hsize hapart h
    have hruns := runs_offsets fun a ha => (hus a ha).le
    exact combines_of_runs hruns hus fun i hi => hruns.eq_mul (h ▸ runs_offsets hvs) hsize hapart hi
  cases order with
  | row => exact hrow hxs hys hsize (hmeet.apart (fun a ha => (hxs a ha).le) hsize) h
  | column =>
    rw [combines_column]
    refine hrow (by simpa using hxs) (by simpa using hys) (by rw [size_reverse, size_reverse, hsize])
      hmeet.apart_reverse ?_
    rw [← offsets_column, ← offsets_column, h]

end MeetAtEnds

variable {taken news news' strides : List Int} {from_ olds olds' : List (Int × Int)} {order : Order}

variable {n m s : Int}

/-- **The groups of a reshape meet at their ends only.** -/
lemma Group.meetAtEnds {more : List Int} {moreOld : List (Int × Int)} (h : Group n m more moreOld) (hm : 1 < m)
    (hlen : strides.length = (n :: more).length) : MeetAtEnds ((m, s) :: moreOld) ((n :: more).zip strides) := by
  intro us vs hus hvs hsize
  cases us with
  | nil => exact .inl rfl
  | cons a us =>
    right
    obtain ⟨rfl, hus'⟩ := cons_prefix_cons.1 hus
    have hposOld : ∀ a ∈ (m, s) :: us, 1 ≤ a.1 := fun a ha =>
      h.posOld a.1 (mem_map_of_mem (hus.subset ha))
    have hfr : vs.map (·.1) <+: n :: more := by
      have hmap := hvs.map (·.1)
      rwa [map_fst_zip hlen.ge] at hmap
    have hpos : ∀ a ∈ vs, 1 ≤ a.1 := fun a ha => h.pos a.1 (hfr.subset (mem_map_of_mem ha))
    have hcnt : count (((m, s) :: us).map (·.1)) = count (vs.map (·.1)) := by
      rw [← size_eq_count hposOld, ← size_eq_count hpos, hsize]
    generalize vs.map (·.1) = ns at hcnt hfr
    rw [map_cons, count_cons] at hcnt
    cases ns with
    | nil =>
      -- There is an old axis, which is longer than one.
      have hone : 1 ≤ count (us.map (·.1)) := one_le_count fun k hk => by
        obtain ⟨a, ha, rfl⟩ := mem_map.1 hk
        exact hposOld a (mem_cons_of_mem _ ha)
      rw [count_nil] at hcnt
      nlinarith
    | cons k ns =>
      obtain ⟨rfl, hns⟩ := cons_prefix_cons.1 hfr
      rw [count_cons] at hcnt
      rw [(h.first ns us hns hus' hcnt.symm).2]

lemma exists_strides_append {front back : List Int} {rest : List (Int × Int)}
    (hnews : ∀ n ∈ front ++ back, 1 ≤ n) (holds : ∀ a ∈ olds ++ rest, 1 ≤ a.1)
    (hcnt : count front = count (olds.map (·.1))) (hcnt' : count back = count (rest.map (·.1)))
    (hlen : strides.length = (front ++ back).length)
    (h : offsets order (olds ++ rest) = offsets order ((front ++ back).zip strides)) :
    (∃ s, s.length = front.length ∧ offsets order olds = offsets order (front.zip s)) ∧
      ∃ s, s.length = back.length ∧ offsets order rest = offsets order (back.zip s) := by
  rw [forall_mem_append] at hnews holds
  have htake : (strides.take front.length).length = front.length := by simp [hlen]
  have hdrop : (strides.drop front.length).length = back.length := by simp [hlen]
  rw [← take_append_drop front.length strides, zip_append htake.symm] at h
  have hzip : ∀ {ns ss : List Int}, (∀ n ∈ ns, 1 ≤ n) → ∀ a ∈ ns.zip ss, 1 ≤ a.1 :=
    fun hns a ha => hns a.1 (of_mem_zip ha).1
  have hsize : ∀ {us : List (Int × Int)} {ns ss : List Int}, (∀ a ∈ us, 1 ≤ a.1) → (∀ n ∈ ns, 1 ≤ n) →
      ss.length = ns.length → count ns = count (us.map (·.1)) → size us = size (ns.zip ss) := by
    intro us ns ss hus hns hss hcnt
    rw [← Int.natCast_inj, size_eq_count hus, size_eq_count (hzip hns), map_fst_zip hss.ge, hcnt]
  obtain ⟨hfr, hback⟩ := offsets_append_inj holds.1 (hzip hnews.1) holds.2 (hzip hnews.2)
    (hsize holds.1 hnews.1 htake hcnt) (hsize holds.2 hnews.2 hdrop hcnt') h
  exact ⟨⟨_, htake, hfr⟩, _, hdrop, hback⟩

lemma exists_group (h : matchAxes n m [n] [(m, s)] news olds = some ((taken, from_), (news', olds')))
    (hnews : ∀ k ∈ n :: news, 1 ≤ k) (holds : ∀ a ∈ (m, s) :: olds, 1 ≤ a.1)
    (hcnt : count (n :: news) = count (((m, s) :: olds).map (·.1))) :
    ∃ more moreOld, (n :: news = (n :: more) ++ news' ∧ (m, s) :: olds = ((m, s) :: moreOld) ++ olds') ∧
      from_ = (m, s) :: moreOld ∧ Group n m more moreOld ∧ count news' = count (olds'.map (·.1)) := by
  obtain ⟨more, moreOld, rfl, rfl, rfl, rfl, -⟩ := matchAxes_spec h
  have hgrp := group_of_matchAxes (fun k hk => hnews k (by simp at hk ⊢; tauto))
    (fun k hk => by simp at hk holds; aesop) h
  rw [map_cons, count_cons, count_cons] at hcnt
  exact ⟨more, moreOld, ⟨rfl, rfl⟩, rfl, hgrp, hgrp.count_rest hcnt⟩

/-- **A walk that refuses leaves no strides.** -/
lemma offsets_ne_of_walk {fuel : Nat}
    (h : walk order fuel news olds = .error needsCopy) (hnews : ∀ n ∈ news, 1 ≤ n) (holds : ∀ a ∈ olds, 1 < a.1)
    (hcnt : count news = count (olds.map (·.1))) (hlen : strides.length = news.length) :
    offsets order olds ≠ offsets order (news.zip strides) := by
  intro hoffs
  fun_induction walk order fuel news olds generalizing strides with
  | case1 | case2 | case3 | case4 => cases h
  | case5 fuel n news m s olds taken from_ news' olds' hmatch hcomb =>
    obtain ⟨more, moreOld, ⟨hspl, hsplitOld⟩, rfl, hgrp, hrest⟩ :=
      exists_group hmatch hnews (fun a ha => (holds a ha).le) hcnt
    have hm := (forall_mem_cons.1 holds).1
    rw [hspl] at hnews hlen hoffs
    rw [hsplitOld] at holds hoffs
    obtain ⟨⟨ss, hss, hfr⟩, -⟩ := exists_strides_append hnews (fun a ha => (holds a ha).le)
      (by rw [map_cons, count_cons, count_cons, hgrp.same]) hrest hlen hoffs
    rw [forall_mem_append] at hnews holds
    rw [(hgrp.meetAtEnds hm hss).combines holds.1 (fun a ha => hnews.1 a.1 (of_mem_zip ha).1) hfr] at hcomb
    cases hcomb
  | case6 fuel n news m s olds taken from_ news' olds' hmatch hcomb ih =>
    obtain ⟨more, moreOld, ⟨hspl, hsplitOld⟩, -, hgrp, hrest⟩ :=
      exists_group hmatch hnews (fun a ha => (holds a ha).le) hcnt
    rw [hspl] at hnews hlen hoffs
    rw [hsplitOld] at holds hoffs
    obtain ⟨-, ss, hss, hback⟩ := exists_strides_append hnews (fun a ha => (holds a ha).le)
      (by rw [map_cons, count_cons, count_cons, hgrp.same]) hrest hlen hoffs
    rcases error_of_bind h with h | ⟨_, -, h⟩
    · exact ih h (forall_mem_append.1 hnews).2 (forall_mem_append.1 holds).2 hrest hss hback
    · cases h

end Reshape

/-! ## Strides for a new shape -/

def Layout.Admits (l : Layout) (order : Strides.Order) (shape strides : List Int) : Prop :=
  strides.length = shape.length ∧
    (Strides.positions order shape).map (address ⟨shape, strides, l.offset⟩) =
      (Strides.positions order l.shape).map l.address

namespace Reshape

open Strides Axes

variable {order : Order} {itemsize : Int} {l : Layout} {shape : List Int}

variable {strides : List Int} {e : Fault}

lemma admits_iff : l.Admits order shape strides ↔ strides.length = shape.length ∧
      offsets order ((axes l.shape l.strides).map fun a => (a.1, a.2.getD 0)) = offsets order (shape.zip strides) := by
  refine and_congr_right fun hlen => ?_
  have haddr : ∀ v : Layout, (positions order v.shape).map v.address =
      (offsets order ((axes v.shape v.strides).map fun a => (a.1, a.2.getD 0))).map (v.offset + ·) := by
    intro v
    rw [← map_byteOffset_positions, map_map]
    rfl
  rw [haddr l, haddr ⟨shape, strides, l.offset⟩, List.map_inj_right fun _ _ => Int.add_left_cancel,
    axes_eq_zip hlen, eq_comm]

lemma longAxes_eq (h : strides.length = shape.length) :
    longAxes (axes shape strides) = .ok ((shape.zip strides).filter (·.1 ≠ 1)) := by
  induction shape generalizing strides with
  | nil => rfl
  | cons n ns ih =>
    obtain ⟨s, strides, rfl⟩ := exists_cons_of_length_eq_add_one h
    rw [axes_cons, longAxes, tail_cons, ih (succ.inj h), zip_cons_cons]
    split
    · rename_i hone
      rw [filter_cons_of_neg (by simpa using hone)]
    · rename_i hlong
      rw [filter_cons_of_pos (by simpa using hlong)]
      rfl

lemma longAxes_error {axes : List (Int × Option Int)} (h : longAxes axes = .error e) : e = .bare .index := by
  fun_induction longAxes axes with
  | case1 => cases h
  | case2 _ _ _ _ ih => exact ih h
  | case3 n stride axes _ ih =>
    cases stride with
    | none =>
      cases h
      rfl
    | some =>
      cases hrest : longAxes axes with
      | error =>
        rw [hrest] at h
        cases h
        exact ih hrest
      | ok =>
        rw [hrest] at h
        cases h

lemma strides_error (h : Reshape.strides order itemsize l shape = .error e) :
    longAxes (axes l.shape l.strides) = .error e ∨ ∃ old, longAxes (axes l.shape l.strides) = .ok old ∧
        (walk order shape.length shape old = .error e ∨
          ∃ done rest, walk order shape.length shape old = .ok (done, rest) ∧ (e = .bare .index ∧ order = .column) ∧
            (if done.isEmpty then shape.getLast? else shape[done.length - 1]?) = none) := by
  refine (error_of_bind h).imp_right fun ⟨old, hlong, h⟩ => ⟨old, hlong, ?_⟩
  refine (error_of_bind h).imp_right fun ⟨⟨done, rest⟩, hwalk, h⟩ => ⟨done, rest, hwalk, ?_⟩
  cases order with
  | row => cases h
  | column =>
    dsimp only at h
    split at h
    · cases h
    · rename_i hnone
      cases h
      exact ⟨⟨rfl, rfl⟩, hnone⟩

section SameCount

variable (hold : ∀ n ∈ l.shape, 1 ≤ n) (hsh : ∀ n ∈ shape, 1 ≤ n) (hcnt : count shape = count l.shape)
include hold hsh hcnt

lemma not_admits_of_strides_error (h : Reshape.strides order itemsize l shape = .error needsCopy)
    (strides : List Int) : ¬ l.Admits order shape strides := by
  rw [admits_iff]
  rintro ⟨hlen, hoffs⟩
  rcases strides_error h with hlong | ⟨old, hlong, hwalk | ⟨_, _, _, ⟨he, _⟩, _⟩⟩
  · cases longAxes_error hlong
  · obtain ⟨holdOffsets, holdCount, holdMem⟩ := longAxes_spec order hlong
    rw [map_fst_axes] at holdCount holdMem
    have hlonger : ∀ a ∈ old, 1 < a.1 := fun a ha =>
      lt_of_le_of_ne (hold a.1 (holdMem a ha).2) (holdMem a ha).1.symm
    exact offsets_ne_of_walk hwalk hsh hlonger (hcnt.trans holdCount.symm) hlen (holdOffsets.trans hoffs)
  · cases he

lemma admits_nil (hnil : shape = []) : l.Admits order shape [] := by
  subst hnil
  refine admits_iff.2 ⟨rfl, offsets_ones order ?_⟩
  have hones := eq_one_of_count hold (hcnt.symm.trans count_nil)
  intro a ha
  obtain ⟨b, hb, rfl⟩ := mem_map.1 ha
  exact hones b.1 (map_fst_axes l.shape l.strides ▸ mem_map_of_mem hb)

lemma strides_error_of_not_admits {e : Fault} (h : Reshape.strides order itemsize l shape = .error e)
    (hlen : l.strides.length = l.shape.length) (hnone : ∀ strides, ¬ l.Admits order shape strides) :
    e = needsCopy := by
  rcases strides_error h with hlong | ⟨old, hlong, hwalk | ⟨done, rest, hwalk, -, hlast⟩⟩
  · rw [longAxes_eq hlen] at hlong
    cases hlong
  · obtain ⟨-, holdCount, holdMem⟩ := longAxes_spec order hlong
    rw [map_fst_axes] at holdCount holdMem
    have hpos : ∀ a ∈ old, 1 ≤ a.1 := fun a ha => hold a.1 (holdMem a ha).2
    rcases @walk_meets shape old order _ (fun a ha => by have := hpos a ha; omega) le_rfl with
      h' | ⟨-, hnot⟩ | ⟨_, _, h', -⟩
    · exact Except.error.inj (hwalk.symm.trans h')
    · exact absurd (meet_of_count hsh hpos (hcnt.trans holdCount.symm)) hnot
    · rw [hwalk] at h'
      cases h'
  · cases hdone : done with
    | nil =>
      rw [hdone] at hlast
      exact absurd (admits_nil hold hsh hcnt (getLast?_eq_none_iff.1 hlast)) (hnone [])
    | cons =>
      -- The strides that were found belong to axes of the shape.
      obtain ⟨-, holdCount, holdMem⟩ := longAxes_spec order hlong
      obtain ⟨front, -, hfr, hdoneLength, -⟩ := walk_spec hwalk le_rfl hsh fun a ha =>
        hold a.1 (map_fst_axes l.shape l.strides ▸ (holdMem a ha).2)
      rw [hdone, if_neg (by simp), List.getElem?_eq_none_iff, hfr, length_append, ← hdoneLength, hdone] at hlast
      rw [length_cons] at hlast
      omega

lemma apply_refuses : (apply order itemsize l shape = .error needsCopy → ∀ strides, ¬ l.Admits order shape strides) ∧
      (l.strides.length = l.shape.length → (∀ strides, ¬ l.Admits order shape strides) →
        apply order itemsize l shape = .error needsCopy) := by
  have happ : apply order itemsize l shape =
      if shape == l.shape then .ok l else Reshape.strides order itemsize l shape >>= fun s => .ok ⟨shape, s, l.offset⟩ := by
    have hsize : (count shape != l.size) = false := by simpa [Layout.size] using hcnt
    rw [apply, fillIn_eq l.size hsh]
    change (if shape == l.shape then _ else if count shape != l.size then _ else _) = _
    rw [hsize]
    rfl
  rw [happ]
  split
  · rename_i hsame
    obtain rfl := eq_of_beq hsame
    exact ⟨(fun h => by cases h), fun hlen hnone => absurd ⟨hlen, rfl⟩ (hnone l.strides)⟩
  · constructor
    · intro h
      rcases error_of_bind h with h | ⟨_, -, h⟩
      · exact not_admits_of_strides_error hold hsh hcnt h
      · cases h
    · intro hlen hnone
      cases hstr : Reshape.strides order itemsize l shape with
      | error =>
        rw [strides_error_of_not_admits hold hsh hcnt hstr hlen hnone]
        rfl
      | ok s =>
        obtain ⟨hlen', hoffs⟩ := strides_spec hstr hold hsh hcnt
        exact absurd (admits_iff.2 ⟨hlen', hoffs.symm⟩) (hnone s)

end SameCount

end Reshape

namespace DeviceArray

open Strides Reshape

/-- **Reshaping is refused only where elements would have to move.** If it asks for a copy, there are no strides under
which each element of the new shape is the element of the array at the same place in the order; and where there are
none, it asks for a copy. -/
theorem reshape_refuses (a : DeviceArray) (order : Order) (shape : List Int) (hold : ∀ n ∈ a.shape, 1 ≤ n)
    (hsh : ∀ n ∈ shape, 1 ≤ n) (hcnt : count shape = count a.shape) :
    (a.reshape order shape = .error (.told .value "cannot reshape without copy") →
        ¬ ∃ strides, a.layout.Admits order shape strides) ∧
      (a.strides.length = a.shape.length → (¬ ∃ strides, a.layout.Admits order shape strides) →
        a.reshape order shape = .error (.told .value "cannot reshape without copy")) := by
  obtain ⟨honly, halways⟩ :=
    @apply_refuses order (a.type.size : Int) a.layout shape hold hsh hcnt
  constructor
  · rintro h ⟨strides, hstr⟩
    rcases error_of_bind h with h | ⟨_, -, h⟩
    · exact honly h strides hstr
    · cases h
  · intro hlen hnone
    rw [reshape, halways hlen fun strides hstr => hnone ⟨strides, hstr⟩]
    rfl

theorem reshape_refuses_padded :
    let a : DeviceArray := { (default : DeviceArray) with
      shape := [2, 3, 1, 4], strides := [60, 20, 7, 4], offset := 100 }
    a.reshape .row [2, 12] = .error (.told .value "cannot reshape without copy") ∧
      ¬ ∃ strides, a.layout.Admits .row [2, 12] strides := by
  intro a
  have h : a.reshape .row [2, 12] = .error (.told .value "cannot reshape without copy") := by cbv
  exact ⟨h, (reshape_refuses a .row [2, 12] (by decide) (by decide) (by decide)).1 h⟩

end DeviceArray

/-! ## How requests end -/

namespace Reshape

open Strides

variable {order : Order} {itemsize : Int} {l : Layout} {shape : List Int}

structure Fits (order : Order) (l : Layout) (shape : List Int) : Prop where
  nonneg : ∀ n ∈ shape, 0 ≤ n
  meet : l.size = 0 → Meet shape ((l.shape.zip l.strides).filter (·.1 ≠ 1))
  ne_nil : order = .column → shape ≠ []

lemma strides_fits (hold : ∀ n ∈ l.shape, 0 ≤ n) (hlen : l.strides.length = l.shape.length)
    (hcnt : count shape = l.size) : Reshape.strides order itemsize l shape = .error needsCopy ∨
      (Reshape.strides order itemsize l shape = .error (.bare .index) ∧ ¬ Fits order l shape) ∨
        ∃ new, Reshape.strides order itemsize l shape = .ok new ∧ ((∀ n ∈ shape, 0 ≤ n) → Fits order l shape) := by
  have hlong := longAxes_eq hlen
  obtain ⟨-, holdCount, holdMem⟩ := longAxes_spec order hlong
  rw [map_fst_axes] at holdCount holdMem
  have hmeets := @walk_meets shape _ order _ (fun a ha => hold a.1 (holdMem a ha).2) le_rfl
  cases h : Reshape.strides order itemsize l shape with
  | error =>
    rcases strides_error h with hlong' | ⟨old, hlong', hwalk | ⟨done, rest, hwalk, ⟨rfl, hcolumn⟩, hlast⟩⟩ <;>
      rw [hlong] at hlong' <;> cases hlong' <;>
      rcases hmeets with h' | ⟨h', hnot⟩ | ⟨done, rest, h', hdone, -⟩ <;> rw [hwalk] at h' <;> cases h'
    · exact .inl rfl
    · refine .inr (.inl ⟨rfl, fun hfits => hnot (hfits.meet ?_)⟩)
      by_contra hsize
      have hpos := one_le_of_count_ne hold hsize
      exact hnot (meet_of_count (one_le_of_count_ne hfits.nonneg (hcnt ▸ hsize))
        (fun a ha => hpos a.1 (holdMem a ha).2) (hcnt.trans holdCount.symm))
    · refine .inr (.inl ⟨rfl, fun hfits => hfits.ne_nil hcolumn ?_⟩)
      cases done with
      | nil => exact getLast?_eq_none_iff.1 hlast
      | cons =>
        simp at hlast hdone
        omega
  | ok new =>
    obtain ⟨old, done, rest, -, hlong', hwalk, -⟩ := strides_eq h
    rw [hlong] at hlong'
    cases hlong'
    rcases hmeets with h' | ⟨h', -⟩ | ⟨_, _, -, -, hmeet⟩
    · rw [hwalk] at h'
      cases h'
    · rw [hwalk] at h'
      cases h'
    · refine .inr (.inr ⟨new, rfl, fun hsh => ⟨hsh, fun _ => hmeet hsh, ?_⟩⟩)
      rintro rfl rfl
      rw [Reshape.strides, hlong] at h
      cases h

lemma fillIn_cases (size : Int) (request : List Int) :
    (fillIn size request = .error (.bare .zeroDivision) ∧ -1 ∈ request ∧ 0 ∈ request) ∨ ¬ (-1 ∈ request ∧ 0 ∈ request) ∧
        ((∃ message, fillIn size request = .error (.told .value message)) ∨ ∃ shape, fillIn size request = .ok shape) := by
  unfold fillIn
  cases hopen : request.idxOf? (-1) with
  | none =>
    rw [idxOf?_eq_none_iff] at hopen
    exact .inr ⟨fun h => hopen h.1, .inr ⟨_, rfl⟩⟩
  | some i =>
    have hmem : -1 ∈ request := by
      by_contra h
      rw [idxOf?_eq_none_iff.2 h] at hopen
      cases hopen
    dsimp only
    split
    · rename_i hzero
      exact .inl ⟨rfl, hmem, count_eq_zero_iff.1 (by simpa using hzero)⟩
    · rename_i hzero
      refine .inr ⟨fun h => hzero (by simpa using count_eq_zero_iff.2 h.2), ?_⟩
      split
      · exact .inl ⟨_, rfl⟩
      · exact .inr ⟨_, rfl⟩

end Reshape

namespace DeviceArray

open Strides Reshape

/-- A request for a shape ends well if it gives a shape without lengths below zero that keeps the number of elements,
or if it is refused as a wrong value. -/
def EndsWell (a : DeviceArray) : Except Fault DeviceArray → Prop
  | .ok b => (∀ n ∈ b.shape, 0 ≤ n) ∧ b.size = a.size
  | .error e => ∃ message, e = .told .value message

lemma reshape_eq (a : DeviceArray) (order : Order) (request : List Int) :
    a.reshape order request = fillIn a.size request >>= fun shape => if shape == a.shape then .ok (a.view a.layout)
      else if count shape != a.size then .error (.told .value "total size of new array must be unchanged")
      else Reshape.strides order a.type.size a.layout shape >>= fun s => .ok (a.view ⟨shape, s, a.offset⟩) := by
  change (fillIn a.size request >>= _) >>= _ = _
  rw [bind_assoc]
  refine bind_congr fun shape => ?_
  change (if shape == a.shape then _ else if count shape != a.size then _ else _) >>= _ = _
  split
  · rfl
  split
  · rfl
  · exact bind_assoc ..

/-- **A request for a shape ends well** just if it leaves no length open beside a zero, and if a shape that it fills up
to, other than that of the array and with as many elements, is refused or can be given. -/
theorem reshape_endsWell_iff (a : DeviceArray) (order : Order) (request : List Int) (hsh : ∀ n ∈ a.shape, 0 ≤ n)
    (hstr : a.strides.length = a.shape.length) :
    a.EndsWell (a.reshape order request) ↔ ¬ (-1 ∈ request ∧ 0 ∈ request) ∧
      ∀ shape, fillIn a.size request = .ok shape → shape ≠ a.shape → count shape = a.size →
        a.reshape order request = .error needsCopy ∨ Fits order a.layout shape := by
  have hresh := a.reshape_eq order request
  rcases fillIn_cases a.size request with ⟨hfill, hbad⟩ | ⟨hgood, ⟨message, hfill⟩ | ⟨shape, hfill⟩⟩ <;>
    rw [hfill] at hresh
  · rw [hresh]
    exact iff_of_false (fun ⟨_, h⟩ => nomatch h) fun h => h.1 hbad
  · rw [hresh]
    exact iff_of_true ⟨message, rfl⟩ ⟨hgood, fun shape h => by rw [hfill] at h; cases h⟩
  · have honly : ∀ {P : List Int → Prop}, (∀ s, fillIn a.size request = .ok s → P s) ↔ P shape := by simp [hfill]
    rw [honly, and_iff_right hgood]
    change a.reshape order request = if shape == a.shape then _ else if count shape != a.size then _ else _ at hresh
    split at hresh
    · rename_i hsame
      rw [hresh]
      exact iff_of_true ⟨hsh, rfl⟩ fun h => absurd (eq_of_beq hsame) h
    rename_i hoth
    split at hresh
    · rename_i hsize
      rw [hresh]
      exact iff_of_true ⟨_, rfl⟩ fun _ h => by simp [h] at hsize
    rename_i hsize
    have hoth : shape ≠ a.shape := by simpa using hoth
    have hsize : count shape = a.size := by simpa using hsize
    rw [imp_iff_right hoth, imp_iff_right hsize]
    rcases @strides_fits order a.type.size a.layout shape hsh hstr hsize with
      h | ⟨h, hfits⟩ | ⟨new, h, hfits⟩ <;> rw [h] at hresh <;> rw [hresh]
    · exact iff_of_true ⟨_, rfl⟩ (.inl rfl)
    · exact iff_of_false (fun ⟨_, h⟩ => nomatch h) (not_or.2 ⟨nofun, hfits⟩)
    · exact ⟨fun h => .inr (hfits h.1), fun h => ⟨(h.resolve_left nofun).nonneg, hsize⟩⟩

theorem reshape_negative :
    let a : DeviceArray := { (default : DeviceArray) with shape := [6], strides := [4] }
    a.reshape .row [-2, -3] = .ok { a with shape := [-2, -3], strides := [-12, 4] } ∧
      ¬ a.EndsWell (a.reshape .row [-2, -3]) := by
  intro a
  have h : a.reshape .row [-2, -3] = .ok { a with shape := [-2, -3], strides := [-12, 4] } := by with_unfolding_all rfl
  refine ⟨h, fun hends => ?_⟩
  have hfits := ((reshape_endsWell_iff a .row [-2, -3] (by decide) rfl).1 hends).2 [-2, -3] rfl (by decide) (by decide)
  rw [h] at hfits
  exact absurd ((hfits.resolve_left fun h => by cases h).nonneg (-2) (by decide)) (by decide)

end DeviceArray

end ClHost
