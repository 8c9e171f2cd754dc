import ClHost.Proofs.Radix.Passes

/-!
# Sorts that mix up their arrays

A sort whose names are in another order than its arguments takes arrays for one another after each pass, and so sorts
by keys of other arrays.
-/

namespace ClHost.Radix.Sorter

open List

variable {α V : Type} [Inhabited V] {s : Sorter} {key : List V → Nat} {keyBits n : Nat} {arrays : List (List V)}

variable {base bits : Nat}

lemma passAll_cons {next : List (List V)} (h : s.passOn key n arrays base = some next) (bases : List Nat) :
    s.passAll key n (base :: bases) arrays = s.passAll key n bases next := by
  rw [passAll, foldlM_cons, h]
  rfl

lemma passAll_keeps (P : List (List V) → Prop) {bases : List Nat}
    (hstep : ∀ arrays base, base ∈ bases → P arrays → ∃ next, s.passOn key n arrays base = some next ∧ P next)
    (h : P arrays) : ∃ out, s.passAll key n bases arrays = some out ∧ P out := by
  induction bases generalizing arrays with
  | nil => exact ⟨arrays, rfl, h⟩
  | cons base bases ih =>
    obtain ⟨next, hnext, hP⟩ := hstep arrays base mem_cons_self h
    obtain ⟨out, hout, hP⟩ := ih (fun arrays base hbase => hstep arrays base (mem_cons_of_mem _ hbase)) hP
    exact ⟨out, by rw [passAll_cons hnext, hout], hP⟩

lemma sortedOf_of_names (s : Sorter) (f : String → α) :
    s.sortedOf (s.arguments.map fun a => f a.name) = s.namesInOrder.map f := by
  rw [sortedOf, namesInOrder]
  induction s.arguments with
  | nil => rfl
  | cons a arguments ih =>
    rw [map_cons, zip_cons_cons, map_cons, filter_cons, filter_cons]
    split
    · exact congrArg _ ih
    · exact ih

lemma exists_passOn (hs : s.Proper) (harrs : arrays.length = s.arguments.length) (key : List V → Nat)
    (n base : Nat) : ∃ next, s.passOn key n arrays base = some next ∧ next.length = s.arguments.length ∧
      (∀ x ∈ s.sortedOf next, ∃ y ∈ s.sortedOf arrays, x = place (2 ^ s.bits) (s.binsOf key n arrays base) y) ∧
      ∀ name ∈ s.names, (s.sortedOf next)[s.namesInOrder.idxOf name]? =
        (s.sortedOf arrays)[s.names.idxOf name]?.map (place (2 ^ s.bits) (s.binsOf key n arrays base)) := by
  have hlen := length_sortedOf hs harrs
  have hidx : ∀ name ∈ s.names, s.names.idxOf name < (s.sortedOf arrays).length := by
    intro name hname
    rw [hlen]
    exact idxOf_lt_length_of_mem hname
  have hnext : s.passOn key n arrays base = some _ := substitute_eq arrays (by rw [length_map, hlen])
  have hplaced : s.sortedOf ((s.arguments.zip arrays).map fun p => if s.names.contains p.1.name then
      ((s.sortedOf arrays).map (place (2 ^ s.bits) (s.binsOf key n arrays base)))[s.names.idxOf p.1.name]?.getD p.2
      else p.2) = s.namesInOrder.map fun name =>
        place (2 ^ s.bits) (s.binsOf key n arrays base) ((s.sortedOf arrays)[s.names.idxOf name]?.getD default) := by
    rw [sortedOf, zip_map_zip, filter_map, map_map, ← map_name_filter harrs, map_map]
    refine map_congr_left fun p hp => ?_
    have hname : s.names.contains p.1.name = true := (mem_filter.1 hp).2
    dsimp only [Function.comp]
    rw [if_pos hname, getElem?_map, getElem?_eq_getElem (hidx _ (contains_iff_mem.1 hname))]
    rfl
  refine ⟨_, hnext, by simp [harrs], ?_, ?_⟩
  · intro x hx
    rw [hplaced] at hx
    obtain ⟨name, hname, rfl⟩ := mem_map.1 hx
    have hlt := hidx name ((namesInOrder_perm hs).mem_iff.1 hname)
    exact ⟨_, getElem_mem hlt, by rw [getElem?_eq_getElem hlt]; rfl⟩
  · intro name hname
    have hmem := (namesInOrder_perm hs).mem_iff.2 hname
    rw [hplaced, getElem?_map, getElem?_idxOf hmem, Option.map_some, getElem?_eq_getElem (hidx name hname)]
    rfl

/-! ## Two elements -/

section Pairs

variable {r : Nat} (x y : Nat)

lemma place_same (hr : 1 ≤ r) : place r [0, 0] [x, y] = [x, y] := by
  symm
  refine eq_place rfl ?_ rfl fun i hi => ?_
  · simp
    omega
  · match i, hi with
    | 0, _ => rfl
    | 1, _ => rfl

lemma place_swapped (hr : 2 ≤ r) : place r [1, 0] [x, y] = [y, x] := by
  symm
  refine eq_place rfl ?_ rfl fun i hi => ?_
  · simp
    omega
  · match i, hi with
    | 0, _ => rfl
    | 1, _ => rfl

lemma stableSort_same (k : Nat) : stableSort [k, k] [x, y] = [x, y] := by
  rw [stableSort, mergeSort_of_pairwise (by simp)]
  rfl

end Pairs

lemma binNumber_zero (bits base : Nat) : binNumber bits base 0 = 0 := by
  rw [binNumber_eq, Nat.zero_div, Nat.zero_mod]

lemma binNumber_pow (hbits : 1 ≤ bits) : binNumber bits bits (2 ^ bits) = 1 := by
  rw [binNumber_eq, Nat.div_self (Nat.two_pow_pos bits), Nat.mod_eq_of_lt]
  exact Nat.one_lt_two_pow (by omega)

lemma binNumber_of_lt {key : Nat} (h : key < 2 ^ base) : binNumber bits base key = 0 := by
  rw [binNumber_eq, Nat.div_eq_of_lt h, Nat.zero_mod]

/-! ## Names in another order -/

lemma passes_cases (hbits : 1 ≤ bits) (hkey : 1 ≤ keyBits) :
    passes bits keyBits = [0] ∨ bits < keyBits ∧ ∃ rest, passes bits keyBits = 0 :: bits :: rest ∧
      ∀ base ∈ rest, 2 * bits ≤ base := by
  have hone : 0 < passCount bits keyBits := (lt_passCount hbits keyBits 0).2 (by omega)
  rw [passes_eq hbits]
  match hcnt : passCount bits keyBits, hone with
  | 1, _ => left; simp
  | count + 2, _ =>
    right
    refine ⟨by simpa using (lt_passCount hbits keyBits 1).1 (by omega), (List.range count).map (fun j => (j + 2) * bits), ?_, ?_⟩
    · simp [range_succ_eq_map]
    · intro base hbase
      obtain ⟨j, -, rfl⟩ := mem_map.1 hbase
      rw [Nat.add_mul]
      omega

section Mixed

variable {arrays : List (List Nat)} {a : String}

def keyOf (s : Sorter) (a : String) (r : List Nat) : Nat := (s.sortedOf r)[s.namesInOrder.idxOf a]?.getD 0

lemma readsSorted_keyOf (s : Sorter) (a : String) : s.ReadsSorted (s.keyOf a) := by
  intro r r' _ _ h
  rw [keyOf, keyOf, h]

lemma keyOf_rowAt {x : List Nat} (hx : (s.sortedOf arrays)[s.namesInOrder.idxOf a]? = some x) (i : Nat) :
    s.keyOf a (rowAt arrays i) = x[i]?.getD 0 := by
  rw [keyOf, rowAt, sortedOf_map, getElem?_map, hx]
  rfl

lemma binsOf_keyOf {x y : Nat} (hx : (s.sortedOf arrays)[s.namesInOrder.idxOf a]? = some [x, y]) (base : Nat) :
    s.binsOf (s.keyOf a) 2 arrays base = [binNumber s.bits base x, binNumber s.bits base y] := by
  simp only [binsOf, keyOf_rowAt hx]
  rfl

/-- Each array that is sorted holds two zeros or `x`. -/
def Holds (s : Sorter) (arrays : List (List Nat)) (x : List Nat) : Prop := ∀ y ∈ s.sortedOf arrays, y = [0, 0] ∨ y = x

variable (hs : s.Proper) (hbits : 1 ≤ s.bits) (ha : a ∈ s.names) (harrs : arrays.length = s.arguments.length)

include hs hbits ha harrs

omit ha in
lemma second_pass (hpair : s.Holds arrays [2 ^ s.bits, 0])
    (hkey : (s.sortedOf arrays)[s.namesInOrder.idxOf a]? = some [2 ^ s.bits, 0]) :
    ∃ next, s.passOn (s.keyOf a) 2 arrays s.bits = some next ∧ next.length = s.arguments.length ∧
      s.Holds next [0, 2 ^ s.bits] := by
  obtain ⟨next, hnext, hlen, hmem, -⟩ := exists_passOn hs harrs (s.keyOf a) 2 s.bits
  rw [binsOf_keyOf hkey, binNumber_zero, binNumber_pow hbits] at hmem
  refine ⟨next, hnext, hlen, fun x hx => ?_⟩
  obtain ⟨y, hy, rfl⟩ := hmem x hx
  have htwo : 2 ≤ 2 ^ s.bits := Nat.pow_le_pow_right (n := 2) (by omega) hbits
  rcases hpair y hy with rfl | rfl <;> simp [place_swapped _ _ htwo]

lemma later_pass (hpair : s.Holds arrays [0, 2 ^ s.bits]) {base : Nat} (hbase : 2 * s.bits ≤ base) :
    ∃ next, s.passOn (s.keyOf a) 2 arrays base = some next ∧ next.length = s.arguments.length ∧
      s.Holds next [0, 2 ^ s.bits] := by
  obtain ⟨next, hnext, hlen, hmem, -⟩ := exists_passOn hs harrs (s.keyOf a) 2 base
  have hidx : s.namesInOrder.idxOf a < (s.sortedOf arrays).length := by
    rw [length_sortedOf hs harrs, ← (namesInOrder_perm hs).length_eq]
    exact idxOf_lt_length_of_mem ((namesInOrder_perm hs).mem_iff.2 ha)
  have hlow : binNumber s.bits base (2 ^ s.bits) = 0 := binNumber_of_lt (Nat.pow_lt_pow_right (by omega) (by omega))
  have hbins : s.binsOf (s.keyOf a) 2 arrays base = [0, 0] := by
    rcases hpair _ (getElem_mem hidx) with hx | hx
    · rw [binsOf_keyOf (List.getElem?_eq_some_iff.2 ⟨hidx, hx⟩), binNumber_zero]
    · rw [binsOf_keyOf (List.getElem?_eq_some_iff.2 ⟨hidx, hx⟩), binNumber_zero, hlow]
  rw [hbins] at hmem
  refine ⟨next, hnext, hlen, fun x hx => ?_⟩
  obtain ⟨y, hy, rfl⟩ := hmem x hx
  rcases hpair y hy with rfl | rfl <;> simp [place_same _ _ (Nat.two_pow_pos s.bits)]

variable (hkeyBits : 1 ≤ keyBits) (hpair : s.Holds arrays [2 ^ s.bits, 0])
  (hkey : (s.sortedOf arrays)[s.namesInOrder.idxOf a]? = some [0, 0])
  (hoth : (s.sortedOf arrays)[s.names.idxOf a]? = some [2 ^ s.bits, 0])

include hpair hkey hoth

omit hbits in
lemma first_pass : ∃ next, s.passOn (s.keyOf a) 2 arrays 0 = some next ∧ next.length = s.arguments.length ∧
      s.Holds next [2 ^ s.bits, 0] ∧ (s.sortedOf next)[s.namesInOrder.idxOf a]? = some [2 ^ s.bits, 0] := by
  obtain ⟨next, hnext, hlen, hmem, hat⟩ := exists_passOn hs harrs (s.keyOf a) 2 0
  rw [binsOf_keyOf hkey, binNumber_zero] at hmem hat
  have hsame : ∀ x y : Nat, place (2 ^ s.bits) [0, 0] [x, y] = [x, y] := fun x y =>
    place_same x y (Nat.two_pow_pos s.bits)
  refine ⟨next, hnext, hlen, fun x hx => ?_, ?_⟩
  · obtain ⟨y, hy, rfl⟩ := hmem x hx
    rcases hpair y hy with rfl | rfl <;> simp [hsame]
  · rw [hat a ha, hoth, Option.map_some, hsame]

include hkeyBits

lemma not_sorts_keyOf : ¬ s.Sorts (s.keyOf a) keyBits 2 arrays := by
  intro hsrt
  have hpow : 2 ^ s.bits ≠ 0 := (Nat.two_pow_pos s.bits).ne'
  -- As all keys are zero, the arrays should come back as they were.
  have hback : (s.passAll (s.keyOf a) 2 (passes s.bits keyBits) arrays).map s.sortedOf = some (s.sortedOf arrays) := by
    have hkeys : (List.range 2).map (fun i => s.keyOf a (rowAt arrays i)) = [0, 0] := by
      simp only [keyOf_rowAt hkey]
      rfl
    rw [hsrt, hkeys]
    refine congrArg some (Eq.trans (map_congr_left fun x hx => ?_) (map_id _))
    rcases hpair x hx with rfl | rfl <;> exact stableSort_same _ _ 0
  obtain ⟨next, hnext, hlen, hnextPair, hnextKey⟩ := first_pass hs ha harrs hpair hkey hoth
  rcases passes_cases hbits hkeyBits with hpasses | ⟨-, rest, hpasses, hrest⟩
  · rw [hpasses, passAll_cons hnext] at hback
    have hsame : s.sortedOf next = s.sortedOf arrays := Option.some.inj hback
    rw [hsame, hkey] at hnextKey
    simp [hpow.symm] at hnextKey
  · obtain ⟨second, hsnd, hsecondLength, hsecondPair⟩ := second_pass hs hbits hlen hnextPair hnextKey
    obtain ⟨out, hout, -, houtPair⟩ := passAll_keeps
      (fun arrays => arrays.length = s.arguments.length ∧ s.Holds arrays [0, 2 ^ s.bits])
      (fun arrays base hbase h => later_pass hs hbits ha h.1 h.2 (hrest base hbase)) ⟨hsecondLength, hsecondPair⟩
    rw [hpasses, passAll_cons hnext, passAll_cons hsnd, hout] at hback
    have hsame : s.sortedOf out = s.sortedOf arrays := Option.some.inj hback
    have hmem := mem_of_getElem? hoth
    rw [← hsame] at hmem
    rcases houtPair _ hmem with h | h <;> simp at h

end Mixed

/-- **With the names in another order there are arrays that do not come back in the order of their keys.** -/
lemma exists_not_sorts (hs : s.Proper) (hbits : 1 ≤ s.bits) (hkeyBits : 1 ≤ keyBits) (hord : ¬ s.InOrder) :
    ∃ (key : List Nat → Nat) (arrays : List (List Nat)), s.ReadsSorted key ∧ s.Data key keyBits 2 arrays ∧
      ¬ s.Sorts key keyBits 2 arrays := by
  obtain ⟨t, a, c, ha, hc, hac⟩ : ∃ (t : Nat) (a c : String), s.names[t]? = some a ∧ s.namesInOrder[t]? = some c ∧
      a ≠ c := by
    by_contra hall
    push Not at hall
    refine hord ((inOrder_iff hs).2 (ext_getElem (namesInOrder_perm hs).length_eq.symm fun t ht ht' => ?_))
    exact hall t _ _ (getElem?_eq_getElem ht) (getElem?_eq_getElem ht')
  have hmem := mem_of_getElem? ha
  have hidx : s.names.idxOf a = t := by
    obtain ⟨ht, rfl⟩ := List.getElem?_eq_some_iff.1 ha
    exact hs.names.idxOf_getElem t ht
  -- The array `c` is taken for the array `a` after the first pass.
  have hsort := sortedOf_of_names s fun name => if name = c then [2 ^ s.bits, 0] else [0, 0]
  generalize harrs : (s.arguments.map fun x => if x.name = c then [2 ^ s.bits, 0] else [0, 0]) = arrays at hsort
  have hkey : (s.sortedOf arrays)[s.namesInOrder.idxOf a]? = some [0, 0] := by
    rw [hsort, getElem?_map, getElem?_idxOf ((namesInOrder_perm hs).mem_iff.2 hmem), Option.map_some, if_neg hac]
  have hlen : arrays.length = s.arguments.length := by rw [← harrs, length_map]
  refine ⟨s.keyOf a, arrays, readsSorted_keyOf s a, ⟨hlen, ?_, ?_⟩, ?_⟩
  · rw [← harrs]
    intro x hx
    obtain ⟨b, -, rfl⟩ := mem_map.1 hx
    split <;> rfl
  · intro i hi
    rw [keyOf_rowAt hkey]
    have hzero : [0, 0][i]?.getD 0 = 0 := by
      match i, hi with
      | 0, _ => rfl
      | 1, _ => rfl
    rw [hzero]
    exact Nat.two_pow_pos keyBits
  · refine not_sorts_keyOf hs hbits hmem hlen hkeyBits ?_ hkey ?_
    · rw [Holds, hsort]
      intro x hx
      obtain ⟨name, -, rfl⟩ := mem_map.1 hx
      split
      · exact Or.inr rfl
      · exact Or.inl rfl
    · rw [hsort, hidx, getElem?_map, hc, Option.map_some, if_pos rfl]

/-! ## Keys of an array that is not sorted -/

lemma stableSort_swapped {k k' : Nat} (h : k' < k) (x y : Nat) : stableSort [k, k'] [x, y] = [y, x] := by
  have hsort : StablySorted (fun q : Nat × Nat => q.1) [(k, x), (k', y)] [(k', y), (k, x)] := by
    constructor
    · simp
      omega
    · intro l
      simp only [filter_cons, filter_nil, beq_iff_eq]
      split_ifs <;> first | rfl | omega
  exact congrArg (List.map (·.2)) ((stablySorted_mergeSort (fun q : Nat × Nat => q.1) _).eq hsort)

section Unsorted

variable {arrays : List (List Nat)} {a : KernelArgument} {j x y : Nat}

structure Stays (s : Sorter) (j x y : Nat) (arrays : List (List Nat)) : Prop where
  count : arrays.length = s.arguments.length
  key : arrays[j]? = some [2 ^ s.bits + 1, 0]
  sorted : ∀ z ∈ s.sortedOf arrays, z = [x, y]

lemma Stays.keyAt (h : s.Stays j x y arrays) (i : Nat) :
    (rowAt arrays i)[j]?.getD 0 = [2 ^ s.bits + 1, 0][i]?.getD 0 := by
  rw [rowAt, getElem?_map, h.key]
  rfl

lemma Stays.pass (hs : s.Proper) (hord : s.InOrder) (hj : s.arguments[j]? = some a) (ha : a.name ∉ s.names)
    (h : s.Stays j x y arrays) {base k : Nat} (hk : binNumber s.bits base (2 ^ s.bits + 1) = k) {x' y' : Nat}
    (hplace : place (2 ^ s.bits) [k, 0] [x, y] = [x', y']) :
    ∃ next, s.passOn (fun r => r[j]?.getD 0) 2 arrays base = some next ∧ s.Stays j x' y' next := by
  have hbins : s.binsOf (fun r => r[j]?.getD 0) 2 arrays base = [k, 0] := by
    rw [binsOf, map_congr_left fun i _ => by rw [h.keyAt i]]
    show [binNumber s.bits base (2 ^ s.bits + 1), binNumber s.bits base 0] = [k, 0]
    rw [hk, binNumber_zero]
  refine ⟨_, substitute_of_inOrder hs h.count hord _, ⟨length_mapSorted h.count _, ?_, ?_⟩⟩
  · have hzip : (s.arguments.zip arrays)[j]? = some (a, [2 ^ s.bits + 1, 0]) :=
      getElem?_zip_eq_some.2 ⟨hj, h.key⟩
    rw [mapSorted, getElem?_map, hzip, Option.map_some, if_neg (by simpa using ha)]
  · rw [sortedOf_mapSorted, hbins]
    intro z hz
    obtain ⟨z', hz', rfl⟩ := mem_map.1 hz
    rw [h.sorted z' hz', hplace]

lemma Stays.passAll (hs : s.Proper) (hbits : 1 ≤ s.bits) (hord : s.InOrder) (hj : s.arguments[j]? = some a)
    (ha : a.name ∉ s.names) (h : s.Stays j 0 1 arrays) {rest : List Nat} (hrest : ∀ base ∈ rest, 2 * s.bits ≤ base) :
    ∃ out, s.passAll (fun r => r[j]?.getD 0) 2 (0 :: s.bits :: rest) arrays = some out ∧ s.Stays j 0 1 out := by
  have htwo : 2 ≤ 2 ^ s.bits := Nat.pow_le_pow_right (n := 2) (by omega) hbits
  have hlow : binNumber s.bits 0 (2 ^ s.bits + 1) = 1 := by
    rw [binNumber_eq, Nat.pow_zero, Nat.div_one, Nat.add_mod_left, Nat.mod_eq_of_lt (by omega)]
  have hhigh : binNumber s.bits s.bits (2 ^ s.bits + 1) = 1 := by
    rw [binNumber_eq, Nat.add_div_left _ (by omega), Nat.div_eq_of_lt (by omega), Nat.mod_eq_of_lt (by omega)]
  have hnone : ∀ base ∈ rest, binNumber s.bits base (2 ^ s.bits + 1) = 0 := by
    intro base hbase
    refine binNumber_of_lt (Nat.lt_of_lt_of_le ?_ (Nat.pow_le_pow_right (by omega) (hrest base hbase)))
    rw [Nat.two_mul, Nat.pow_add]
    nlinarith
  obtain ⟨first, hfst, h⟩ := h.pass hs hord hj ha hlow (place_swapped 0 1 htwo)
  obtain ⟨second, hsnd, h⟩ := h.pass hs hord hj ha hhigh (place_swapped 1 0 htwo)
  obtain ⟨out, hout, h⟩ := passAll_keeps (s.Stays j 0 1)
    (fun arrays base hbase h => h.pass hs hord hj ha (hnone base hbase) (place_same 0 1 (by omega))) h
  exact ⟨out, by rw [passAll_cons hfst, passAll_cons hsnd, hout], h⟩

end Unsorted

/-- **If the key reads an array that is not sorted and there are two passes, there are arrays that do not come back in
the order of their keys.** -/
lemma exists_not_sorts_of_unsorted (hs : s.Proper) (hbits : 1 ≤ s.bits) (hord : s.InOrder)
    (hkeyBits : s.bits < keyBits) (hnms : s.names ≠ []) {a : KernelArgument} (hmem : a ∈ s.arguments)
    (ha : a.name ∉ s.names) : ∃ (key : List Nat → Nat) (arrays : List (List Nat)), s.Data key keyBits 2 arrays ∧
      ¬ s.Sorts key keyBits 2 arrays := by
  obtain ⟨j, hj⟩ := getElem?_of_mem hmem
  have hsort := sortedOf_of_names s fun name => if name = a.name then [2 ^ s.bits + 1, 0] else [0, 1]
  generalize harrs : (s.arguments.map fun b => if b.name = a.name then [2 ^ s.bits + 1, 0] else [0, 1]) = arrays
    at hsort
  have hst : s.Stays j 0 1 arrays := by
    refine ⟨by rw [← harrs, length_map], ?_, ?_⟩
    · rw [← harrs, getElem?_map, hj, Option.map_some, if_pos rfl]
    · rw [hsort]
      intro z hz
      obtain ⟨name, hname, rfl⟩ := mem_map.1 hz
      rw [if_neg]
      rintro rfl
      exact ha ((namesInOrder_perm hs).mem_iff.1 hname)
  have hkeys : (List.range 2).map (fun i => (rowAt arrays i)[j]?.getD 0) = [2 ^ s.bits + 1, 0] := by
    rw [map_congr_left fun i _ => hst.keyAt i]
    rfl
  refine ⟨fun r => r[j]?.getD 0, arrays, ⟨hst.count, ?_, ?_⟩, fun hsrt => ?_⟩
  · rw [← harrs]
    intro x hx
    obtain ⟨b, -, rfl⟩ := mem_map.1 hx
    split <;> rfl
  · intro i hi
    have htwo : 2 ≤ 2 ^ s.bits := Nat.pow_le_pow_right (n := 2) (by omega) hbits
    have hpow : 2 ^ (s.bits + 1) ≤ 2 ^ keyBits := Nat.pow_le_pow_right (by omega) hkeyBits
    rw [hst.keyAt]
    match i, hi with
    | 0, _ => show 2 ^ s.bits + 1 < 2 ^ keyBits; omega
    | 1, _ => exact Nat.two_pow_pos keyBits
  obtain ⟨rest, hpasses, hrest⟩ : ∃ rest, passes s.bits keyBits = 0 :: s.bits :: rest ∧
      ∀ base ∈ rest, 2 * s.bits ≤ base := by
    rcases passes_cases hbits (show 1 ≤ keyBits by omega) with hone | ⟨-, hmany⟩
    · have hmem := (mem_passes hbits keyBits s.bits).2 ⟨hkeyBits, Nat.dvd_refl _⟩
      rw [hone, mem_singleton] at hmem
      omega
    · exact hmany
  obtain ⟨out, hout, hstays⟩ := hst.passAll hs hbits hord hj ha hrest
  rw [Sorts, hpasses, hout, hkeys, Option.map_some, Option.some.injEq] at hsrt
  obtain ⟨z, hz⟩ : ∃ z, z ∈ s.sortedOf out := by
    refine exists_mem_of_length_pos ?_
    rw [length_sortedOf hs hstays.count]
    exact length_pos_of_ne_nil hnms
  have hback := hstays.sorted z hz
  rw [hsrt] at hz
  obtain ⟨z', hz', rfl⟩ := mem_map.1 hz
  rw [hst.sorted z' hz', stableSort_swapped (Nat.succ_pos _)] at hback
  simp at hback

end ClHost.Radix.Sorter
