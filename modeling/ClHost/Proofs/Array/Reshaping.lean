import ClHost.Proofs.Array.BasicIndexing
import ClHost.Proofs.Host.Outcomes

/-!
# Reshaping

The elements of an array in an order are the sequence of their addresses.
-/

namespace ClHost

open Layout
open List hiding count

namespace Strides

def positions : Order → List Int → List (List Nat)
  | _, [] => [[]]
  | .row, n :: ns => (List.range n.toNat).flatMap fun i => (positions .row ns).map (i :: ·)
  | .column, n :: ns => (positions .column ns).flatMap fun is => (List.range n.toNat).map (· :: is)

lemma mem_positions {order : Order} {shape : List Int} {index : List Nat} :
    index ∈ positions order shape ↔ InShape shape index := by
  induction shape generalizing index with
  | nil => cases order <;> simp [positions, InShape]
  | cons n ns ih =>
    cases index with
    | nil => cases order <;> simp [positions, InShape]
    | cons => cases order <;> simp [positions, InShape, ih, and_comm]

lemma count_nil : count [] = 1 := rfl

lemma count_append (xs ys : List Int) : count (xs ++ ys) = count xs * count ys := by
  rw [count, count, count, ← prod_eq_foldl, ← prod_eq_foldl, ← prod_eq_foldl, prod_append]

variable (n : Int) (s : Int) {ns : List Int}

lemma count_singleton : count [n] = n := by
  simp [count]

lemma count_cons (ns : List Int) : count (n :: ns) = n * count ns := by
  rw [← singleton_append, count_append, count_singleton]

lemma count_reverse (ns : List Int) : count ns.reverse = count ns := by
  induction ns with
  | nil => rfl
  | cons n ns ih => rw [reverse_cons, count_append, count_singleton, ih, count_cons, mul_comm]

lemma one_le_count (h : ∀ n ∈ ns, 1 ≤ n) : 1 ≤ count ns := by
  induction ns with
  | nil => exact le_refl _
  | cons n ns ih =>
    rw [forall_mem_cons] at h
    rw [count_cons]
    exact one_le_mul_of_one_le_of_one_le h.1 (ih h.2)

lemma count_eq_zero_iff : count ns = 0 ↔ 0 ∈ ns := by
  induction ns with
  | nil => decide
  | cons n ns ih => rw [count_cons, Int.mul_eq_zero, ih, mem_cons, eq_comm]

lemma one_le_of_count_ne (h : ∀ n ∈ ns, 0 ≤ n) (hc : count ns ≠ 0) : ∀ n ∈ ns, 1 ≤ n :=
  fun n hn => lt_of_le_of_ne (h n hn) fun hzero => hc (count_eq_zero_iff.2 (hzero ▸ hn))

lemma eq_one_of_count (h : ∀ n ∈ ns, 1 ≤ n) (hc : count ns = 1) : ∀ n ∈ ns, n = 1 := by
  induction ns with
  | nil => simp
  | cons n ns ih =>
    rw [forall_mem_cons] at h ⊢
    rw [count_cons] at hc
    have hrest := one_le_count h.2
    have hn : n = 1 := by nlinarith [h.1]
    refine ⟨hn, ih h.2 ?_⟩
    rw [hn, one_mul] at hc
    exact hc

lemma growing_concat (ns : List Int) (n : Int) : growing s (ns ++ [n]) = growing s ns ++ [s * count ns] := by
  induction ns generalizing s with
  | nil => simp [growing, count]
  | cons m ns ih => simp only [cons_append, growing, ih, count_cons, mul_assoc]

lemma length_growing (ns : List Int) : (growing s ns).length = ns.length := by
  induction ns generalizing s with
  | nil => rfl
  | cons n ns ih => rw [growing, length_cons, length_cons, ih]

lemma length_ofOrder (ns : List Int) (order : Order) : (ofOrder s ns order).length = ns.length := by
  cases order <;> simp [ofOrder, rowMajor, columnMajor, length_growing]

lemma columnMajor_cons (s n : Int) (ns : List Int) : columnMajor s (n :: ns) = s :: columnMajor (s * n) ns := rfl

lemma rowMajor_cons (s n : Int) (ns : List Int) : rowMajor s (n :: ns) = s * count ns :: rowMajor s ns := by
  rw [rowMajor, reverse_cons, growing_concat, reverse_append, count_reverse]
  rfl

end Strides

/-! ## Offsets of axes -/

namespace Axes

open Strides

def spread (outer inner : List Int) : List Int := outer.flatMap fun a => inner.map (a + ·)

def along (n s : Int) : List Int := (List.range n.toNat).map fun (i : Nat) => s * i

def nest : Order → List Int → List Int → List Int
  | .row, front, back => spread front back
  | .column, front, back => spread back front

def offsets (order : Order) : List (Int × Int) → List Int
  | [] => [0]
  | (n, s) :: axes => nest order (along n s) (offsets order axes)

variable (order : Order) (s : Int) (xs : List Int)

lemma spread_zero_left : spread [0] xs = xs := by
  simp [spread]

lemma spread_zero_right : spread xs [0] = xs := by
  simp [spread, flatMap_singleton']

lemma spread_assoc (xs ys zs : List Int) : spread (spread xs ys) zs = spread xs (spread ys zs) := by
  simp only [spread, flatMap_assoc, map_flatMap, flatMap_map, map_map]
  refine flatMap_congr fun x _ => flatMap_congr fun y _ => map_congr_left fun z _ => ?_
  exact add_assoc x y z

lemma nest_zero_left : nest order [0] xs = xs := by
  cases order
  · exact spread_zero_left xs
  · exact spread_zero_right xs

lemma nest_assoc (xs ys zs : List Int) :
    nest order (nest order xs ys) zs = nest order xs (nest order ys zs) := by
  cases order
  · exact spread_assoc xs ys zs
  · exact (spread_assoc zs ys xs).symm

lemma along_one : along 1 s = [0] := by
  simp [along]

lemma spread_along {n m : Int} (hn : 0 ≤ n) (hm : 0 ≤ m) (s : Int) :
    spread (along n (s * m)) (along m s) = along (n * m) s := by
  obtain ⟨n, rfl⟩ := Int.eq_ofNat_of_zero_le hn
  obtain ⟨m, rfl⟩ := Int.eq_ofNat_of_zero_le hm
  rw [← Int.natCast_mul]
  simp only [spread, along, Int.toNat_natCast]
  induction n with
  | zero => simp
  | succ n ih =>
    have ih := ih (Int.natCast_nonneg n)
    rw [range_succ, map_append, flatMap_append, ih, Nat.succ_mul, range_add, map_append]
    simp only [map_cons, map_nil, flatMap_cons, flatMap_nil, append_nil, map_map]
    refine congrArg _ (map_congr_left fun i _ => ?_)
    simp only [Function.comp_apply]
    push_cast
    ring

lemma offsets_append (xs ys : List (Int × Int)) :
    offsets order (xs ++ ys) = nest order (offsets order xs) (offsets order ys) := by
  induction xs with
  | nil => exact (nest_zero_left order _).symm
  | cons a xs ih => rw [cons_append, offsets, ih, offsets, nest_assoc]

lemma offsets_ones {axes : List (Int × Int)} (h : ∀ a ∈ axes, a.1 = 1) : offsets order axes = [0] := by
  induction axes with
  | nil => rfl
  | cons a axes ih =>
    obtain ⟨n, s⟩ := a
    rw [forall_mem_cons] at h
    obtain rfl : n = 1 := h.1
    rw [offsets, along_one, ih h.2, nest_zero_left]

/-- **An axis cut to pieces.** The strides of an order make axes run through the offsets of one axis. -/
lemma offsets_ofOrder {lengths : List Int} (h : ∀ n ∈ lengths, 1 ≤ n) :
    offsets order (lengths.zip (ofOrder s lengths order)) = along (count lengths) s := by
  induction lengths generalizing s with
  | nil => cases order <;> simp [offsets, along, count]
  | cons n ns ih =>
    rw [forall_mem_cons] at h
    have hn : 0 ≤ n := by have := h.1; omega
    have hns : 0 ≤ count ns := by have := one_le_count h.2; omega
    cases order with
    | row =>
      have hcons : ofOrder s (n :: ns) .row = s * count ns :: ofOrder s ns .row := rowMajor_cons s n ns
      rw [hcons, zip_cons_cons, offsets, ih s h.2, nest, spread_along hn hns, count_cons]
    | column =>
      have hcons : ofOrder s (n :: ns) .column = s :: ofOrder (s * n) ns .column := columnMajor_cons s n ns
      rw [hcons, zip_cons_cons, offsets, ih (s * n) h.2, nest, spread_along hns hn, count_cons, mul_comm]

lemma map_byteOffset_positions (shape strides : List Int) :
    (positions order shape).map (byteOffset strides) =
      offsets order ((axes shape strides).map fun a => (a.1, a.2.getD 0)) := by
  induction shape generalizing strides with
  | nil => cases order <;> simp [positions, axes, offsets, byteOffset_nil_right]
  | cons n ns ih =>
    have hcons : ∀ (i : Nat) (is : List Nat),
        byteOffset strides (i :: is) = strides.head?.getD 0 * i + byteOffset strides.tail is := by
      intro i is
      cases strides with
      | nil => simp [byteOffset]
      | cons s strides => exact byteOffset_cons s strides i is
    rw [axes_cons, map_cons, offsets, ← ih strides.tail]
    cases order with
    | row => simp [positions, nest, spread, along, map_flatMap, flatMap_map, Function.comp_def, hcons]
    | column => simp [positions, nest, spread, along, map_flatMap, flatMap_map, Function.comp_def, hcons, add_comm]

end Axes

/-! ## The walk over both shapes -/

namespace Reshape

open Strides Axes

def baseStride (order : Order) (axes : List (Int × Int)) : Int :=
  match order with
  | .column => (axes.head?.map (·.2)).getD 0
  | .row => (axes.getLast?.map (·.2)).getD 0

lemma splitStrides_eq (order : Order) (axes : List (Int × Int)) (lengths : List Int) :
    splitStrides order axes lengths = ofOrder (baseStride order axes) lengths order := by
  cases order <;> rfl

lemma length_splitStrides (order : Order) (axes : List (Int × Int)) (lengths : List Int) :
    (splitStrides order axes lengths).length = lengths.length := by
  rw [splitStrides_eq, length_ofOrder]

variable {order : Order} {itemsize : Int}

lemma map_snd_of_combines {axes : List (Int × Int)} (hne : axes ≠ []) (h : combines order axes = true) :
    axes.map (·.2) = ofOrder (baseStride order axes) (axes.map (·.1)) order := by
  induction axes with
  | nil => exact absurd rfl hne
  | cons a rest ih =>
    obtain ⟨n, s⟩ := a
    cases rest with
    | nil => cases order <;> simp [baseStride, ofOrder, columnMajor, rowMajor, growing]
    | cons b rest =>
      obtain ⟨m, t⟩ := b
      simp only [combines, Bool.and_eq_true] at h
      have hrest := ih (cons_ne_nil _ _) h.2
      cases order with
      | row =>
        have hs : s = m * t := by simpa using h.1
        have hbase : baseStride .row ((n, s) :: (m, t) :: rest) = baseStride .row ((m, t) :: rest) := rfl
        rw [hbase]
        generalize baseStride .row ((m, t) :: rest) = base at hrest ⊢
        simp only [ofOrder, map_cons, rowMajor_cons, List.cons.injEq] at hrest ⊢
        refine ⟨?_, hrest⟩
        rw [hs, hrest.1, count_cons]
        ring
      | column =>
        have ht : t = s * n := by simpa [mul_comm] using h.1
        have hbase' : baseStride .column ((m, t) :: rest) = s * n := ht
        rw [hbase'] at hrest
        exact congrArg (s :: ·) hrest

lemma offsets_of_combines {axes : List (Int × Int)} {lengths : List Int} (hne : axes ≠ [])
    (h : combines order axes = true) (haxes : ∀ a ∈ axes, 1 ≤ a.1) (hlens : ∀ n ∈ lengths, 1 ≤ n)
    (hcnt : count lengths = count (axes.map (·.1))) :
    offsets order axes = offsets order (lengths.zip (splitStrides order axes lengths)) := by
  have hzip : axes = (axes.map (·.1)).zip (ofOrder (baseStride order axes) (axes.map (·.1)) order) := by
    rw [← map_snd_of_combines hne h, zip_map', map_id'']
    exact fun _ => rfl
  rw [splitStrides_eq, offsets_ofOrder order _ hlens, hcnt]
  conv_lhs => rw [hzip]
  refine offsets_ofOrder order _ ?_
  simpa using haxes

lemma matchAxes_spec {new old : Int} {taken news taken' news' : List Int} {from_ olds from' olds' : List (Int × Int)}
    (h : matchAxes new old taken from_ news olds = some ((taken', from'), (news', olds'))) :
    ∃ more moreOld, taken' = taken ++ more ∧ news = more ++ news' ∧ from' = from_ ++ moreOld ∧
      olds = moreOld ++ olds' ∧ new * count more = old * count (moreOld.map (·.1)) := by
  fun_induction matchAxes new old taken from_ news olds with
  | case1 new old taken from_ news olds heq =>
    obtain ⟨⟨rfl, rfl⟩, rfl, rfl⟩ := h
    exact ⟨[], [], by simp, rfl, by simp, rfl, by simpa [count] using heq⟩
  | case2 new old taken from_ olds _ _ n news ih =>
    obtain ⟨more, moreOld, rfl, rfl, rfl, rfl, hcnt⟩ := ih h
    refine ⟨n :: more, moreOld, by simp, rfl, rfl, rfl, ?_⟩
    rw [count_cons, ← mul_assoc, hcnt]
  | case3 => cases h
  | case4 new old taken from_ news _ _ n s olds ih =>
    obtain ⟨more, moreOld, rfl, rfl, rfl, rfl, hcnt⟩ := ih h
    refine ⟨more, (n, s) :: moreOld, rfl, rfl, by simp, rfl, ?_⟩
    rw [map_cons, count_cons, ← mul_assoc, ← hcnt]
  | case5 => cases h

/-- **The walk.** The strides it gives to the front of the new shape keep the offsets of the old axes it took, and
it goes on as long as both shapes have axes. -/
lemma walk_spec {fuel : Nat} {news strides rest : List Int} {olds : List (Int × Int)}
    (h : walk order fuel news olds = .ok (strides, rest)) (hfuel : news.length ≤ fuel) (hnews : ∀ n ∈ news, 1 ≤ n)
    (holds : ∀ a ∈ olds, 1 ≤ a.1) : ∃ done left, news = done ++ rest ∧ strides.length = done.length ∧
      offsets order olds = nest order (offsets order (done.zip strides)) (offsets order left) ∧
      count (olds.map (·.1)) = count done * count (left.map (·.1)) ∧ left <:+ olds ∧ (rest = [] ∨ left = []) := by
  fun_induction walk order fuel news olds generalizing strides rest with
  | case1 news olds =>
    cases h
    obtain rfl := eq_nil_of_length_eq_zero (Nat.le_zero.1 hfuel)
    exact ⟨[], olds, rfl, rfl, (nest_zero_left order _).symm, by simp [count_nil], suffix_refl _, .inl rfl⟩
  | case2 fuel olds =>
    cases h
    exact ⟨[], olds, rfl, rfl, (nest_zero_left order _).symm, by simp [count_nil], suffix_refl _, .inl rfl⟩
  | case3 =>
    cases h
    exact ⟨[], [], rfl, rfl, (nest_zero_left order _).symm, by simp [count_nil], suffix_refl _, .inr rfl⟩
  | case4 | case5 => cases h
  | case6 fuel n news m s olds taken from_ news' olds' hmatch hcomb ih =>
    obtain ⟨more, moreOld, rfl, rfl, rfl, rfl, hcnt⟩ := matchAxes_spec hmatch
    rw [Bool.not_eq_true, Bool.not_eq_false'] at hcomb
    have hall : ∀ k ∈ ([n] ++ more) ++ news', 1 ≤ k := hnews
    have hallOld : ∀ a ∈ ([(m, s)] ++ moreOld) ++ olds', 1 ≤ a.1 := holds
    rw [forall_mem_append] at hall hallOld
    cases hwalk : walk order fuel news' olds' with
    | error =>
      rw [hwalk] at h
      cases h
    | ok =>
      rw [hwalk] at h
      cases h
      have hfuel' : news'.length ≤ fuel := by
        simp only [length_cons, length_append] at hfuel
        omega
      obtain ⟨done, left, rfl, hlen, hoffs, hleft, hsuf, hend⟩ := ih hwalk hfuel' hall.2 hallOld.2
      have hgrp : count ([n] ++ more) = count (([(m, s)] ++ moreOld).map (·.1)) := by
        rw [map_append, count_append, count_append, count_singleton, map_singleton, count_singleton, hcnt]
      refine ⟨([n] ++ more) ++ done, left, by simp, ?_, ?_, ?_, ?_, hend⟩
      · simp only [length_append, length_splitStrides, hlen]
      · have hold : (m, s) :: (moreOld ++ olds') = ([(m, s)] ++ moreOld) ++ olds' := rfl
        rw [hold, offsets_append, offsets_of_combines (by simp) hcomb hallOld.1 hall.1 hgrp, hoffs,
          zip_append (length_splitStrides ..).symm, offsets_append, nest_assoc]
      · have hold : (m, s) :: (moreOld ++ olds') = ([(m, s)] ++ moreOld) ++ olds' := rfl
        rw [hold, map_append, count_append, ← hgrp, hleft, count_append _ done, mul_assoc]
      · exact hsuf.trans (suffix_append ([(m, s)] ++ moreOld) olds')

lemma longAxes_spec (order : Order) {axes : List (Int × Option Int)} {old : List (Int × Int)}
    (h : longAxes axes = .ok old) : offsets order old = offsets order (axes.map fun a => (a.1, a.2.getD 0)) ∧
      count (old.map (·.1)) = count (axes.map (·.1)) ∧ ∀ a ∈ old, a.1 ≠ 1 ∧ a.1 ∈ axes.map (·.1) := by
  induction axes generalizing old with
  | nil =>
    cases h
    exact ⟨rfl, rfl, by simp⟩
  | cons a axes ih =>
    obtain ⟨n, stride⟩ := a
    rw [longAxes] at h
    by_cases hn : n = 1
    · rw [if_pos (by simpa using hn)] at h
      obtain ⟨hoffs, hcnt, hmem⟩ := ih h
      refine ⟨?_, ?_, fun a ha => ⟨(hmem a ha).1, mem_cons_of_mem _ (hmem a ha).2⟩⟩
      · rw [hoffs, map_cons, offsets, hn, along_one, nest_zero_left]
      · rw [hcnt, map_cons, count_cons, hn, one_mul]
    · rw [if_neg (by simpa using hn)] at h
      cases stride with
      | none => cases h
      | some =>
        cases hrest : longAxes axes with
        | error =>
          rw [hrest] at h
          cases h
        | ok =>
          rw [hrest] at h
          cases h
          obtain ⟨hoffs, hcnt, hmem⟩ := ih hrest
          refine ⟨?_, ?_, ?_⟩
          · rw [offsets, hoffs]
            rfl
          · rw [map_cons, count_cons, hcnt, map_cons, count_cons]
          · rw [forall_mem_cons]
            exact ⟨⟨hn, mem_cons_self ..⟩, fun a ha => ⟨(hmem a ha).1, mem_cons_of_mem _ (hmem a ha).2⟩⟩

lemma map_fst_axes (shape strides : List Int) : (axes shape strides).map (·.1) = shape := by
  induction shape generalizing strides with
  | nil => rfl
  | cons n ns ih => rw [axes_cons, map_cons, ih]

variable {shape : List Int} {l : Layout}

lemma axes_eq_zip {strides : List Int} (h : strides.length = shape.length) :
    ((axes shape strides).map fun a => (a.1, a.2.getD 0)) = shape.zip strides := by
  induction shape generalizing strides with
  | nil => rfl
  | cons n ns ih =>
    obtain ⟨s, strides, rfl⟩ := exists_cons_of_length_eq_add_one h
    rw [axes_cons, map_cons, tail_cons, ih (Nat.succ.inj h)]
    rfl

lemma strides_eq {new : List Int} (h : Reshape.strides order itemsize l shape = .ok new) :
    ∃ old done rest last, longAxes (axes l.shape l.strides) = .ok old ∧
      walk order shape.length shape old = .ok (done, rest) ∧ new = done ++ rest.map fun _ => last := by
  obtain ⟨old, hlong, h⟩ := of_bind_ok h
  obtain ⟨⟨done, rest⟩, hwalk, h⟩ := of_bind_ok h
  refine ⟨old, done, rest, ?_⟩
  simp only [hlong, hwalk, true_and]
  cases order with
  | row =>
    cases h
    exact ⟨_, rfl⟩
  | column =>
    cases hlast : (if done.isEmpty then shape.getLast? else shape[done.length - 1]?) with
    | none =>
      simp only [hlast] at h
      cases h
    | some =>
      simp only [hlast] at h
      cases h
      exact ⟨_, rfl⟩

lemma strides_spec {new : List Int} (h : Reshape.strides order itemsize l shape = .ok new)
    (hold : ∀ n ∈ l.shape, 1 ≤ n) (hsh : ∀ n ∈ shape, 1 ≤ n) (hcnt : count shape = count l.shape) :
    new.length = shape.length ∧ offsets order (shape.zip new) =
      offsets order ((axes l.shape l.strides).map fun a => (a.1, a.2.getD 0)) := by
  obtain ⟨old, strides, rest, last, hlong, hwalk, rfl⟩ := strides_eq h
  obtain ⟨holdOffsets, holdCount, holdMem⟩ := longAxes_spec order hlong
  rw [map_fst_axes] at holdCount holdMem
  obtain ⟨done, left, rfl, hlen, hoffs, hleft, hsuf, hend⟩ :=
    walk_spec hwalk le_rfl hsh fun a ha => hold a.1 (holdMem a ha).2
  rw [forall_mem_append] at hsh
  -- both shapes hold the same number of elements, so what is left over on either side holds one
  have hrest : count rest = count (left.map (·.1)) := by
    rw [count_append, ← holdCount, hleft] at hcnt
    have := one_le_count hsh.1
    exact mul_left_cancel₀ (by omega) hcnt
  obtain rfl : left = [] := by
    rcases hend with rfl | hnil
    · by_contra hne
      obtain ⟨a, ha⟩ := exists_mem_of_ne_nil left hne
      have hmem : ∀ b ∈ left, b.1 ≠ 1 ∧ b.1 ∈ l.shape := fun b hb => holdMem b (hsuf.subset hb)
      have hge : ∀ n ∈ left.map (·.1), 1 ≤ n := by
        simp only [mem_map, forall_exists_index, and_imp, forall_apply_eq_imp_iff₂]
        exact fun b hb => hold b.1 (hmem b hb).2
      exact (hmem a ha).1 (eq_one_of_count hge hrest.symm a.1 (mem_map_of_mem ha))
    · exact hnil
  have hones := eq_one_of_count hsh.2 hrest
  refine ⟨by simp [hlen], ?_⟩
  rw [← holdOffsets, hoffs, zip_append hlen.symm, offsets_append]
  refine congrArg _ (offsets_ones order fun a ha => hones a.1 ?_)
  exact (of_mem_zip ha).1

lemma fillIn_eq (size : Int) (h : ∀ n ∈ shape, 1 ≤ n) : fillIn size shape = .ok shape := by
  have hnone : shape.idxOf? (-1) = none := by
    rw [idxOf?_eq_none_iff]
    exact fun hmem => absurd (h _ hmem) (by decide)
  rw [fillIn, hnone]

/-- **Reshaping keeps addresses**, in the order in which it takes the elements. -/
lemma apply_spec {v : Layout} (h : apply order itemsize l shape = .ok v)
    (hold : ∀ n ∈ l.shape, 1 ≤ n) (hsh : ∀ n ∈ shape, 1 ≤ n) :
    v.shape = shape ∧ (positions order v.shape).map v.address = (positions order l.shape).map l.address := by
  obtain ⟨shape', hsh', h⟩ := of_bind_ok h
  rw [fillIn_eq l.size hsh] at hsh'
  cases hsh'
  split at h
  · rename_i heq
    cases h
    exact ⟨(eq_of_beq heq).symm, rfl⟩
  split at h
  · cases h
  rename_i hne hcnt
  obtain ⟨new, hnew, h⟩ := of_bind_ok h
  cases h
  refine ⟨rfl, ?_⟩
  have hcnt : count shape = count l.shape := by simpa [size] using hcnt
  obtain ⟨hlen, hoffs⟩ := strides_spec hnew hold hsh hcnt
  have haddr : ∀ v : Layout, (positions order v.shape).map v.address =
      ((positions order v.shape).map (byteOffset v.strides)).map (v.offset + ·) := by
    intro v
    rw [map_map]
    rfl
  rw [haddr, haddr, map_byteOffset_positions, map_byteOffset_positions, axes_eq_zip hlen, hoffs]

end Reshape

namespace DeviceArray

open Strides

/-- **Reshaping keeps the data.** The view has the new shape, and its elements lie where those of the array lie,
one after the other in the order of the reshape. -/
theorem reshape_addresses (a b : DeviceArray) (order : Order) (shape : List Int) (hold : ∀ n ∈ a.shape, 1 ≤ n)
    (hsh : ∀ n ∈ shape, 1 ≤ n) (h : a.reshape order shape = .ok b) :
    b = a.view b.layout ∧ b.shape = shape ∧
      (positions order b.shape).map b.layout.address = (positions order a.shape).map a.layout.address := by
  obtain ⟨v, hv, h⟩ := of_bind_ok h
  cases h
  exact ⟨rfl, Reshape.apply_spec hv hold hsh⟩

theorem reshape_addresses_blocks :
    let a : DeviceArray := { (default : DeviceArray) with
      shape := [2, 3, 1, 4], strides := [-64, 16, 7, 4], offset := 100 }
    let b : DeviceArray := { a with shape := [2, 1, 6, 2], strides := [-64, 48, 8, 4] }
    a.reshape .row [2, 1, 6, 2] = .ok b ∧
      (positions .row b.shape).map b.layout.address = (positions .row a.shape).map a.layout.address := by
  intro a b
  have h : a.reshape .row [2, 1, 6, 2] = .ok b := by with_unfolding_all rfl
  exact ⟨h, (reshape_addresses a b .row [2, 1, 6, 2] (by decide) (by decide) h).2.2⟩

end DeviceArray

/-! ## Groups of lengths and axes -/

namespace Reshape

open Strides

structure Group (n m : Int) (more : List Int) (moreOld : List (Int × Int)) : Prop where
  pos : ∀ k ∈ n :: more, 1 ≤ k
  posOld : ∀ k ∈ m :: moreOld.map (·.1), 1 ≤ k
  same : n * count more = m * count (moreOld.map (·.1))
  first : ∀ us vs, us <+: more → vs <+: moreOld → n * count us = m * count (vs.map (·.1)) → us = more ∧ vs = moreOld

/-- Lengths and axes can be taken together group by group until there are no more of one kind, where an axis without
elements only goes with a length of zero. -/
inductive Meet : List Int → List (Int × Int) → Prop
  | usedNew (olds : List (Int × Int)) : Meet [] olds
  | usedOld (news : List Int) : Meet news []
  | empty {news : List Int} {olds : List (Int × Int)} (s : Int) (h : Meet news olds) : Meet (0 :: news) ((0, s) :: olds)
  | group {n m : Int} {more news : List Int} {moreOld olds : List (Int × Int)} (s : Int) (hgrp : Group n m more moreOld)
    (h : Meet news olds) : Meet (n :: (more ++ news)) ((m, s) :: (moreOld ++ olds))

variable {taken news more news' : List Int} {from_ olds moreOld olds' : List (Int × Int)} {order : Order}

namespace Group

variable {n m k s : Int}

lemma exists_new (h : Group n m more moreOld) (hlt : n < m) :
    ∃ k more', more = k :: more' ∧ Group (n * k) m more' moreOld := by
  have hpos := h.pos
  have hposOld := one_le_count fun k hk => h.posOld k (mem_cons_of_mem m hk)
  rw [forall_mem_cons] at hpos
  cases more with
  | nil =>
    have hsame := h.same
    rw [count_nil] at hsame
    nlinarith
  | cons k more =>
    rw [forall_mem_cons] at hpos
    refine ⟨k, more, rfl, forall_mem_cons.2 ⟨Int.mul_pos hpos.1 hpos.2.1, hpos.2.2⟩, h.posOld,
      by rw [mul_assoc, ← count_cons, h.same], fun us vs hus hvs heq => ?_⟩
    simpa using h.first (k :: us) vs (cons_prefix_cons.2 ⟨rfl, hus⟩) hvs (by rw [count_cons, ← mul_assoc, heq])

lemma exists_old (h : Group n m more moreOld) (hlt : m < n) :
    ∃ k s moreOld', moreOld = (k, s) :: moreOld' ∧ Group n (m * k) more moreOld' := by
  have hpos := one_le_count fun k hk => h.pos k (mem_cons_of_mem n hk)
  have hposOld := h.posOld
  rw [forall_mem_cons] at hposOld
  cases moreOld with
  | nil =>
    have hsame := h.same
    rw [map_nil, count_nil] at hsame
    nlinarith
  | cons a moreOld =>
    rw [map_cons, forall_mem_cons] at hposOld
    refine ⟨a.1, a.2, moreOld, rfl, h.pos, forall_mem_cons.2 ⟨Int.mul_pos hposOld.1 hposOld.2.1, hposOld.2.2⟩,
      by rw [h.same, map_cons, count_cons, mul_assoc], fun us vs hus hvs heq => ?_⟩
    simpa using h.first us (a :: vs) hus (cons_prefix_cons.2 ⟨rfl, hvs⟩) (by rw [map_cons, count_cons, ← mul_assoc, heq])

lemma matchAxes (h : Group n m more moreOld) : Reshape.matchAxes n m taken from_ (more ++ news) (moreOld ++ olds) =
      some ((taken ++ more, from_ ++ moreOld), (news, olds)) := by
  generalize hx : more ++ news = xs
  generalize hy : moreOld ++ olds = ys
  fun_induction Reshape.matchAxes n m taken from_ xs ys generalizing more moreOld with
  | case1 n m taken from_ xs ys heq =>
    obtain ⟨rfl, rfl⟩ := h.first [] [] nil_prefix nil_prefix (by simpa [count_nil] using heq)
    simp [← hx, ← hy]
  | case2 n m taken from_ ys _ hlt k xs ih =>
    obtain ⟨k, more, rfl, hnext⟩ := h.exists_new hlt
    obtain ⟨rfl, rfl⟩ := List.cons.inj hx
    simpa using ih hnext rfl hy
  | case3 n m taken from_ ys _ hlt =>
    obtain ⟨k, more, rfl, -⟩ := h.exists_new hlt
    cases hx
  | case4 n m taken from_ xs hne hlt k s ys ih =>
    obtain ⟨k, s, moreOld, rfl, hnext⟩ := h.exists_old (lt_of_le_of_ne (not_lt.1 hlt) fun h => hne (by simp [h]))
    obtain ⟨heq, rfl⟩ := List.cons.inj hy
    cases heq
    simpa using ih hnext hx rfl
  | case5 n m taken from_ xs hne hlt =>
    obtain ⟨k, s, moreOld, rfl, -⟩ := h.exists_old (lt_of_le_of_ne (not_lt.1 hlt) fun h => hne (by simp [h]))
    cases hy

lemma count_rest (h : Group n m more moreOld)
    (hcnt : n * count (more ++ news) = m * count ((moreOld ++ olds).map (·.1))) :
    count news = count (olds.map (·.1)) := by
  have hpos := one_le_count h.pos
  rw [count_cons] at hpos
  rw [map_append, count_append, count_append, ← mul_assoc, ← mul_assoc, ← h.same] at hcnt
  exact mul_left_cancel₀ (by omega) hcnt

end Group

lemma exists_smallest {n m : Int} (hpos : ∀ k ∈ n :: more, 1 ≤ k) (hposOld : ∀ k ∈ m :: moreOld.map (·.1), 1 ≤ k)
    (hsame : n * count more = m * count (moreOld.map (·.1))) :
    ∃ us rest vs restOld, more = us ++ rest ∧ moreOld = vs ++ restOld ∧ Group n m us vs := by
  generalize hlen : more.length + moreOld.length = length
  induction length using Nat.strong_induction_on generalizing more moreOld with
  | _ length ih =>
    by_cases hfst : ∀ us vs, us <+: more → vs <+: moreOld → n * count us = m * count (vs.map (·.1)) →
        us = more ∧ vs = moreOld
    · exact ⟨more, [], moreOld, [], by simp, by simp, hpos, hposOld, hsame, hfst⟩
    push Not at hfst
    obtain ⟨us, vs, ⟨rest, rfl⟩, ⟨restOld, rfl⟩, heq, hne⟩ := hfst
    have hshorter : us.length + vs.length < length := by
      by_contra hlong
      simp only [length_append] at hlen
      exact hne (by simp; exact length_eq_zero_iff.1 (by omega)) (by simp; exact length_eq_zero_iff.1 (by omega))
    obtain ⟨us', rest', vs', restOld', rfl, rfl, hgrp⟩ :=
      ih _ hshorter (fun k hk => hpos k (by simp at hk ⊢; tauto)) (fun k hk => hposOld k (by simp at hk ⊢; tauto)) heq rfl
    exact ⟨us', _, vs', _, append_assoc .., append_assoc .., hgrp⟩

lemma group_of_matchAxes {n m : Int} (hpos : ∀ k ∈ n :: more, 1 ≤ k) (hposOld : ∀ k ∈ m :: moreOld.map (·.1), 1 ≤ k)
    (h : matchAxes n m taken from_ news olds = some ((taken ++ more, from_ ++ moreOld), (news', olds'))) :
    Group n m more moreOld := by
  obtain ⟨more', moreOld', hmore, rfl, hmoreOld, rfl, hsame⟩ := matchAxes_spec h
  obtain rfl := append_cancel_left hmore
  obtain rfl := append_cancel_left hmoreOld
  obtain ⟨us, rest, vs, restOld, rfl, rfl, hgrp⟩ := exists_smallest hpos hposOld hsame
  rw [append_assoc, append_assoc, hgrp.matchAxes] at h
  obtain ⟨rfl, rfl⟩ : rest = [] ∧ restOld = [] := by simp_all
  simpa using hgrp

lemma matchAxes_pos {new old : Int} (hsome : 0 < new ∨ 0 < old)
    (h : matchAxes new old taken from_ news olds = some ((taken ++ more, from_ ++ moreOld), (news', olds'))) :
    0 < new * count more := by
  fun_induction matchAxes new old taken from_ news olds generalizing more moreOld with
  | case1 new old taken from_ news olds heq =>
    obtain ⟨⟨hmore, -⟩, -⟩ : (taken = taken ++ more ∧ from_ = from_ ++ moreOld) ∧ _ := by simpa using h
    have heq : new = old := by simpa using heq
    rw [self_eq_append_right.1 hmore, count_nil]
    omega
  | case2 new old taken from_ olds _ hlt n news ih =>
    obtain ⟨more', -, hmore, -⟩ := matchAxes_spec h
    obtain rfl : more = n :: more' := by simpa using hmore
    rw [count_cons, ← mul_assoc]
    exact ih (.inr (by omega)) (by simpa using h)
  | case3 => cases h
  | case4 new old taken from_ news heq hlt n s olds ih =>
    obtain ⟨-, moreOld', -, -, hmoreOld, -⟩ := matchAxes_spec h
    obtain rfl : moreOld = (n, s) :: moreOld' := by simpa using hmoreOld
    exact ih (.inl (by omega)) (by simpa using h)
  | case5 => cases h

lemma matchAxes_group {n m s : Int} (hnews : ∀ k ∈ n :: news, 0 ≤ k) (holds : ∀ k ∈ m :: olds.map (·.1), 0 ≤ k)
    (h : matchAxes n m [n] [(m, s)] news olds = some ((taken, from_), (news', olds'))) :
    (n = 0 ∧ m = 0 ∧ news' = news ∧ olds' = olds) ∨
      ∃ more moreOld, Group n m more moreOld ∧ news = more ++ news' ∧ olds = moreOld ++ olds' := by
  by_cases hsome : 0 < n ∨ 0 < m
  · obtain ⟨more, moreOld, rfl, rfl, rfl, rfl, hcnt⟩ := matchAxes_spec h
    have hpos := matchAxes_pos hsome h
    have htk : ∀ k ∈ n :: more, 1 ≤ k :=
      one_le_of_count_ne (fun k hk => hnews k (cons_subset_cons n (subset_append_left ..) hk))
        (by rw [Strides.count_cons]; exact hpos.ne')
    have hfrom : ∀ k ∈ m :: moreOld.map (·.1), 1 ≤ k :=
      one_le_of_count_ne (fun k hk => holds k (cons_subset_cons m (map_subset _ (subset_append_left ..)) hk))
        (by rw [Strides.count_cons, ← hcnt]; exact hpos.ne')
    exact .inr ⟨more, moreOld, group_of_matchAxes htk hfrom h, rfl, rfl⟩
  · rw [forall_mem_cons] at hnews holds
    obtain rfl : n = 0 := by omega
    obtain rfl : m = 0 := by omega
    rw [matchAxes.eq_def] at h
    simp at h
    exact .inl ⟨rfl, rfl, h.2.1.symm, h.2.2.symm⟩

lemma Meet.matchAxes {n m s : Int} (h : Meet (n :: news) ((m, s) :: olds)) :
    ∃ taken from_ news' olds', matchAxes n m [n] [(m, s)] news olds = some ((taken, from_), (news', olds')) ∧
      Meet news' olds' := by
  cases h with
  | empty s h =>
    refine ⟨[0], [(0, s)], news, olds, ?_, h⟩
    rw [Reshape.matchAxes.eq_def]
    simp
  | group s hgrp h => exact ⟨_, _, _, _, hgrp.matchAxes, h⟩

/-- **A walk over lengths and axes** refuses, or comes to its end just if they meet. -/
lemma walk_meets {fuel : Nat} (holds : ∀ a ∈ olds, 0 ≤ a.1) (hfuel : news.length ≤ fuel) :
    walk order fuel news olds = .error needsCopy ∨
      (walk order fuel news olds = .error (.bare .index) ∧ ¬ Meet news olds) ∨
        ∃ done rest, walk order fuel news olds = .ok (done, rest) ∧ done.length ≤ news.length ∧
          ((∀ k ∈ news, 0 ≤ k) → Meet news olds) := by
  fun_induction walk order fuel news olds with
  | case1 news =>
    obtain rfl : news = [] := length_eq_zero_iff.1 (Nat.le_zero.1 hfuel)
    exact .inr (.inr ⟨_, _, rfl, le_rfl, fun _ => .usedNew _⟩)
  | case2 => exact .inr (.inr ⟨_, _, rfl, le_rfl, fun _ => .usedNew _⟩)
  | case3 => exact .inr (.inr ⟨_, _, rfl, Nat.zero_le _, fun _ => .usedOld _⟩)
  | case4 fuel n news m s olds hmatch =>
    refine .inr (.inl ⟨rfl, fun h => ?_⟩)
    obtain ⟨_, _, _, _, hfnd, -⟩ := h.matchAxes
    rw [hmatch] at hfnd
    cases hfnd
  | case5 => exact .inl rfl
  | case6 fuel n news m s olds taken from_ news' olds' hmatch hcomb ih =>
    obtain ⟨more, moreOld, rfl, hnews, -, hleftOld, -⟩ := matchAxes_spec hmatch
    rcases ih (fun a ha => holds a (by simp [hleftOld, ha])) (by simp [hnews] at hfuel; omega) with
      h | ⟨h, hnot⟩ | ⟨done, rest, h, hlen, hmeet⟩ <;> rw [h]
    · exact .inl rfl
    · refine .inr (.inl ⟨rfl, fun h => ?_⟩)
      obtain ⟨_, _, _, _, hfnd, hleft⟩ := h.matchAxes
      rw [hmatch] at hfnd
      cases hfnd
      exact hnot hleft
    · refine .inr (.inr ⟨_, _, rfl, ?_, fun hnn => ?_⟩)
      · simp [length_splitStrides, hnews]
        omega
      · have hleft := hmeet fun k hk => hnn k (by simp [hnews, hk])
        rcases matchAxes_group hnn (by simpa using holds) hmatch with ⟨rfl, rfl, rfl, rfl⟩ | ⟨_, _, hgrp, rfl, rfl⟩
        · exact .empty s hleft
        · exact .group s hgrp hleft

lemma meet_of_count (hnews : ∀ k ∈ news, 1 ≤ k) (holds : ∀ a ∈ olds, 1 ≤ a.1)
    (hcnt : count news = count (olds.map (·.1))) : Meet news olds := by
  generalize hlen : news.length = length
  induction length using Nat.strong_induction_on generalizing news olds with
  | _ length ih =>
    cases news with
    | nil => exact .usedNew _
    | cons =>
      cases olds with
      | nil => exact .usedOld _
      | cons a =>
        rw [map_cons, count_cons, count_cons] at hcnt
        obtain ⟨us, rest, vs, restOld, rfl, rfl, hgrp⟩ := exists_smallest hnews (by simpa using holds) hcnt
        simp only [forall_mem_cons, forall_mem_append] at hnews holds
        exact .group a.2 hgrp (ih _ (by simp at hlen; omega) hnews.2.2 holds.2.2 (hgrp.count_rest hcnt) rfl)

end Reshape

end ClHost
