import ClHost.Array.Basic
import ClHost.Proofs.Radix.Digits

/-!
# Passes of a radix sort

Each pass puts the arrays that are sorted to new places, and the next pass takes the new arrays for the old ones.
-/

namespace ClHost.Radix

open List Nat

/-! ## The bits of passes -/

def passCount (bits keyBits : Nat) : Nat := (keyBits + bits - 1) / bits

section Bits

variable {bits : Nat} (hbits : 1 ≤ bits) (keyBits : Nat)

include hbits

lemma passes_eq : passes bits keyBits = (range (passCount bits keyBits)).map (· * bits) := by
  rw [passes, if_neg (by simp; omega), passCount]

lemma lt_passCount (j : Nat) : j < passCount bits keyBits ↔ j * bits < keyBits := by
  rw [passCount, lt_div_iff_mul_lt (by omega)]
  omega

lemma mem_passes (base : Nat) : base ∈ passes bits keyBits ↔ base < keyBits ∧ bits ∣ base := by
  rw [passes_eq hbits, mem_map]
  simp only [mem_range, lt_passCount hbits]
  constructor
  · rintro ⟨j, hj, rfl⟩
    exact ⟨hj, dvd_mul_left bits j⟩
  · rintro ⟨hlt, j, rfl⟩
    exact ⟨j, by rwa [mul_comm], mul_comm j bits⟩

lemma pairwise_passes : (passes bits keyBits).Pairwise (· < ·) := by
  rw [passes_eq hbits, pairwise_map]
  refine pairwise_lt_range.imp fun {j k} h => ?_
  exact mul_lt_mul_of_pos_right h (by omega)

lemma le_passCount_mul : keyBits ≤ passCount bits keyBits * bits := by
  have hnot := mt (lt_passCount hbits keyBits _).2 (lt_irrefl (passCount bits keyBits))
  omega

end Bits

/-! ## Arrays in the order of keys -/

variable {V : Type}

def stableSort (keys : List Nat) (x : List V) : List V :=
  ((keys.zip x).mergeSort fun a b => decide (a.1 ≤ b.1)).map (·.2)

lemma StablySorted.map {α β : Type} {f : β → Nat} {g : α → β} {xs ys : List α}
    (h : StablySorted (fun x => f (g x)) xs ys) : StablySorted f (xs.map g) (ys.map g) := by
  constructor
  · rw [pairwise_map]
    exact h.ordered
  · intro k
    rw [filter_map, filter_map]
    exact congrArg (List.map g) (h.stable k)

variable [Inhabited V]

lemma map_order {n : Nat} {key : Nat → Nat} {order : List Nat} (h : StablySorted key (range n) order) {x : List V}
    (hx : x.length = n) : order.map (fun i => x[i]?.getD default) = stableSort ((range n).map key) x := by
  have hzip : ((range n).map key).zip x = (range n).map fun i => (key i, x[i]?.getD default) := by
    apply ext_getElem
    · simp [hx]
    · intro i hi hi'
      simp at hi
      simp [getElem?_eq_getElem hi.2]
  have hsort : StablySorted (fun q : Nat × V => q.1) (((range n).map key).zip x)
      (order.map fun i => (key i, x[i]?.getD default)) := by
    rw [hzip]
    exact StablySorted.map (f := fun q : Nat × V => q.1) h
  rw [stableSort, (stablySorted_mergeSort (fun q : Nat × V => q.1) _).eq hsort, map_map]
  rfl

namespace Sorter

variable {α β : Type} {s : Sorter}

/-! ## Arguments and names -/

/-- All arguments are arrays, the parameters of the scan have names of their own, and the arrays that are sorted are
named once. -/
structure Proper (s : Sorter) : Prop where
  vectors : ∀ a ∈ s.arguments, a.isVector = true
  distinct : ((scanArguments s.arguments s.names).map (·.name)).Nodup
  names : s.names.Nodup
  declared : ∀ name ∈ s.names, name ∈ s.arguments.map (·.name)

lemma Proper.arguments (hs : s.Proper) : (s.arguments.map (·.name)).Nodup := by
  refine hs.distinct.sublist (List.Sublist.map _ ?_)
  rw [scanArguments, append_assoc]
  exact sublist_append_left _ _

def InOrder (s : Sorter) : Prop := s.names.Sublist (s.arguments.map (·.name))

instance (s : Sorter) : Decidable s.InOrder := inferInstanceAs (Decidable (List.Sublist _ _))

def namesInOrder (s : Sorter) : List String := (s.arguments.map (·.name)).filter s.names.contains

lemma namesInOrder_perm (hs : s.Proper) : s.namesInOrder.Perm s.names := by
  unfold namesInOrder
  rw [perm_ext_iff_of_nodup (hs.arguments.filter _) hs.names]
  intro name
  rw [mem_filter, contains_iff_mem]
  exact ⟨fun h => h.2, fun h => ⟨hs.declared name h, h⟩⟩

lemma inOrder_iff (hs : s.Proper) : s.InOrder ↔ s.names = s.namesInOrder := by
  constructor
  · intro h
    have hsub := h.filter s.names.contains
    rw [filter_eq_self.2 fun name hname => contains_iff_mem.2 hname] at hsub
    exact hsub.eq_of_length (namesInOrder_perm hs).length_eq.symm
  · intro h
    rw [InOrder, h]
    exact filter_sublist

lemma sortedOf_map (s : Sorter) (f : α → β) (args : List α) : s.sortedOf (args.map f) = (s.sortedOf args).map f := by
  rw [sortedOf, sortedOf, zip_map_right, filter_map, map_map, map_map]
  rfl

variable {args : List α}

lemma sortedOf_all (hall : ∀ a ∈ s.arguments, a.name ∈ s.names) (hargs : args.length = s.arguments.length) :
    s.sortedOf args = args := by
  rw [sortedOf, filter_eq_self.2 fun p hp => contains_iff_mem.2 (hall p.1 (of_mem_zip hp).1)]
  exact map_snd_zip hargs.le

lemma zip_map_zip {κ : Type} (l : List κ) (l' : List α) (f : κ × α → β) :
    l.zip ((l.zip l').map f) = (l.zip l').map fun p => (p.1, f p) := by
  induction l generalizing l' with
  | nil => rfl
  | cons k l ih =>
    cases l' with
    | nil => rfl
    | cons v l' => exact congrArg _ (ih l')

def mapSorted (s : Sorter) (f : α → α) (args : List α) : List α :=
  (s.arguments.zip args).map fun p => if s.names.contains p.1.name then f p.2 else p.2

lemma sortedOf_mapSorted (s : Sorter) (f : α → α) (args : List α) :
    s.sortedOf (s.mapSorted f args) = (s.sortedOf args).map f := by
  rw [sortedOf, mapSorted, zip_map_zip, filter_map, map_map, sortedOf, map_map]
  refine map_congr_left fun p hp => ?_
  exact if_pos (mem_filter.1 hp).2

lemma mapSorted_mapSorted (s : Sorter) (f g : α → α) (args : List α) :
    s.mapSorted g (s.mapSorted f args) = s.mapSorted (fun v => g (f v)) args := by
  rw [mapSorted, mapSorted, zip_map_zip, map_map]
  refine map_congr_left fun p _ => ?_
  dsimp only [Function.comp]
  split <;> rfl

lemma substitute_eq (args : List α) {sorted : List α} (hsort : sorted.length = s.names.length) :
    s.substitute args sorted = some ((s.arguments.zip args).map fun p =>
      if s.names.contains p.1.name then sorted[s.names.idxOf p.1.name]?.getD p.2 else p.2) := by
  rw [substitute]
  induction s.arguments.zip args with
  | nil => rfl
  | cons p rest ih =>
    rw [mapM_cons, ih]
    by_cases hname : s.names.contains p.1.name = true
    · have hidx : s.names.idxOf p.1.name < sorted.length := by
        rw [hsort]
        exact idxOf_lt_length_of_mem (contains_iff_mem.1 hname)
      simp only [map_cons, hname, if_true, getElem?_eq_getElem hidx]
      rfl
    · simp only [map_cons, hname]
      rfl

lemma substitute_map (f : α → β) (args : List α) {sorted : List α} (hsort : sorted.length = s.names.length) :
    s.substitute (args.map f) (sorted.map f) = (s.substitute args sorted).map (map f) := by
  rw [substitute_eq _ (by rw [length_map, hsort]), substitute_eq _ hsort, Option.map_some, zip_map_right,
    map_map, map_map]
  refine congrArg some (map_congr_left fun p _ => ?_)
  dsimp only [Function.comp, Prod.map, id]
  rw [apply_ite f, getElem?_map, Option.getD_map]

section Count

variable (hs : s.Proper) (hargs : args.length = s.arguments.length)

include hargs

lemma map_name_filter :
    ((s.arguments.zip args).filter fun p => s.names.contains p.1.name).map (·.1.name) = s.namesInOrder := by
  have hfst : (s.arguments.zip args).map (·.1) = s.arguments := map_fst_zip hargs.ge
  rw [namesInOrder]
  conv_rhs => rw [← hfst, map_map, filter_map]
  rfl

lemma length_mapSorted (f : α → α) : (s.mapSorted f args).length = s.arguments.length := by
  rw [mapSorted, length_map, length_zip, hargs, min_self]

lemma mapSorted_of_id {f : α → α} (hf : ∀ v ∈ args, f v = v) : s.mapSorted f args = args := by
  have hsnd : (s.arguments.zip args).map (·.2) = args := map_snd_zip hargs.le
  conv_rhs => rw [← hsnd]
  refine map_congr_left fun p hp => ?_
  split
  · exact hf p.2 (of_mem_zip hp).2
  · rfl

include hs

lemma getElem?_sortedOf {a : KernelArgument} {v : α} (ha : (a, v) ∈ s.arguments.zip args) (hname : a.name ∈ s.names) :
    (s.sortedOf args)[s.namesInOrder.idxOf a.name]? = some v := by
  have hmem : (a, v) ∈ (s.arguments.zip args).filter fun p => s.names.contains p.1.name :=
    mem_filter.2 ⟨ha, contains_iff_mem.2 hname⟩
  obtain ⟨t, ht, heq⟩ := getElem_of_mem hmem
  have hidx : s.namesInOrder.idxOf a.name = t := by
    have hname : s.namesInOrder[t]? = some a.name := by
      rw [← map_name_filter hargs, getElem?_map, getElem?_eq_getElem ht, heq]
      rfl
    obtain ⟨ht', hget⟩ := List.getElem?_eq_some_iff.1 hname
    rw [← hget]
    exact (hs.arguments.filter _).idxOf_getElem t ht'
  rw [hidx, sortedOf, getElem?_map, getElem?_eq_getElem ht, heq]
  rfl

lemma length_sortedOf : (s.sortedOf args).length = s.names.length := by
  rw [sortedOf, length_map, ← (namesInOrder_perm hs).length_eq, ← map_name_filter hargs, length_map]

lemma substitute_of_inOrder (hord : s.InOrder) (f : α → α) :
    s.substitute args ((s.sortedOf args).map f) = some (s.mapSorted f args) := by
  rw [substitute_eq args (by rw [length_map, length_sortedOf hs hargs])]
  refine congrArg some (map_congr_left fun p hp => ?_)
  split
  · rename_i hname
    rw [(inOrder_iff hs).1 hord, getElem?_map, getElem?_sortedOf hs hargs hp (contains_iff_mem.1 hname)]
    rfl
  · rfl

end Count

/-! ## Contents -/

variable {V : Type} [Inhabited V] {key : List V → Nat} {keyBits n : Nat} {arrays : List (List V)}

def rowAt (arrays : List (List V)) (i : Nat) : List V := arrays.map fun x => x[i]?.getD default

def binsOf (s : Sorter) (key : List V → Nat) (n : Nat) (arrays : List (List V)) (base : Nat) : List Nat :=
  (List.range n).map fun i => binNumber s.bits base (key (rowAt arrays i))

def passOn (s : Sorter) (key : List V → Nat) (n : Nat) (arrays : List (List V)) (base : Nat) : Option (List (List V)) :=
  s.substitute arrays ((s.sortedOf arrays).map (place (2 ^ s.bits) (s.binsOf key n arrays base)))

def passAll (s : Sorter) (key : List V → Nat) (n : Nat) (bases : List Nat) (arrays : List (List V)) :
    Option (List (List V)) := bases.foldlM (s.passOn key n) arrays

def ReadsSorted (s : Sorter) (key : List V → Nat) : Prop :=
  ∀ r r' : List V, r.length = s.arguments.length → r'.length = s.arguments.length →
    s.sortedOf r = s.sortedOf r' → key r = key r'

structure Data (s : Sorter) (key : List V → Nat) (keyBits n : Nat) (arrays : List (List V)) : Prop where
  count : arrays.length = s.arguments.length
  lengths : ∀ x ∈ arrays, x.length = n
  keys : ∀ i < n, key (rowAt arrays i) < 2 ^ keyBits

def Sorts (s : Sorter) (key : List V → Nat) (keyBits n : Nat) (arrays : List (List V)) : Prop :=
  (s.passAll key n (passes s.bits keyBits) arrays).map s.sortedOf =
    some ((s.sortedOf arrays).map (stableSort ((List.range n).map fun i => key (rowAt arrays i))))

def reorder (order : List Nat) (x : List V) : List V := order.map fun i => x[i]?.getD default

lemma reorder_range {x : List V} (hx : x.length = n) : reorder (range n) x = x := by
  apply ext_getElem
  · simp [reorder, hx]
  · intro i hi hi'
    simp [reorder, getElem?_eq_getElem hi']

lemma sortedOf_rowAt_reorder (s : Sorter) (order : List Nat) {i o : Nat} (ho : order[i]? = some o) :
    s.sortedOf (rowAt (s.mapSorted (reorder order) arrays) i) = s.sortedOf (rowAt arrays o) := by
  rw [rowAt, sortedOf_map, sortedOf_mapSorted, rowAt, sortedOf_map, map_map]
  refine map_congr_left fun x _ => ?_
  simp [reorder, ho]

/-- **Passes by one digit after the other leave each array in the order of the keys' low bits.** -/
lemma passAll_of_inOrder (hs : s.Proper) (hord : s.InOrder) (hcnt : arrays.length = s.arguments.length)
    (hlens : ∀ x ∈ arrays, x.length = n) {count : Nat} (hrds : s.ReadsSorted key ∨ count ≤ 1) :
    ∃ order, StablySorted (fun i => key (rowAt arrays i) % 2 ^ (count * s.bits)) (List.range n) order ∧
      s.passAll key n ((List.range count).map (· * s.bits)) arrays = some (s.mapSorted (reorder order) arrays) := by
  -- No bits tell no keys apart.
  have hnone : StablySorted (fun i => key (rowAt arrays i) % 2 ^ (0 * s.bits)) (List.range n) (List.range n) := by
    refine .refl ?_
    simp only [zero_mul, pow_zero, mod_one]
    exact pairwise_of_forall fun _ _ => le_refl 0
  induction count with
  | zero =>
    refine ⟨List.range n, hnone, ?_⟩
    rw [mapSorted_of_id hcnt fun x hx => reorder_range (hlens x hx)]
    rfl
  | succ count ih =>
    obtain ⟨order, hsort, hpasses⟩ := ih (hrds.imp_right fun h => by omega)
    have hlen : order.length = n := by rw [hsort.perm.length_eq, length_range]
    -- Either the key can be read off the sorted arrays, or nothing has moved yet.
    have hkey : ∀ i o, order[i]? = some o →
        key (rowAt (s.mapSorted (reorder order) arrays) i) = key (rowAt arrays o) := by
      intro i o ho
      rcases hrds with hrds | hone
      · refine hrds _ _ ?_ ?_ (sortedOf_rowAt_reorder s order ho)
        · rw [rowAt, length_map, length_mapSorted hcnt _]
        · rw [rowAt, length_map, hcnt]
      · obtain rfl : count = 0 := by omega
        obtain rfl : order = List.range n := hsort.eq hnone
        obtain ⟨hi, rfl⟩ := List.getElem?_eq_some_iff.1 ho
        rw [mapSorted_of_id hcnt fun x hx => reorder_range (hlens x hx), getElem_range]
    have hbins : s.binsOf key n (s.mapSorted (reorder order) arrays) (count * s.bits) =
        order.map fun o => binNumber s.bits (count * s.bits) (key (rowAt arrays o)) := by
      apply ext_getElem
      · simp [binsOf, hlen]
      · intro i hi hi'
        rw [length_map] at hi'
        simp [binsOf, hkey i order[i] (getElem?_eq_getElem hi')]
    refine ⟨place (2 ^ s.bits) (order.map fun o => binNumber s.bits (count * s.bits) (key (rowAt arrays o))) order, ?_, ?_⟩
    · have hplaced := stablySorted_place order (r := 2 ^ s.bits)
        (g := fun o => binNumber s.bits (count * s.bits) (key (rowAt arrays o))) fun o _ => binNumber_lt _ _ _
      rw [add_mul, one_mul, pow_add]
      refine hsort.digit (Nat.two_pow_pos _) ?_
      simpa only [binNumber_eq] using hplaced
    · rw [range_succ, map_append, passAll, foldlM_append, ← passAll, hpasses]
      show s.passOn key n (s.mapSorted (reorder order) arrays) (count * s.bits) >>= pure = _
      rw [bind_pure, passOn, hbins, substitute_of_inOrder hs (length_mapSorted hcnt _) hord, mapSorted_mapSorted]
      congr 2
      funext x
      exact place_map _ _ _ _

/-- **With the names in order, each array comes back in the order of the bits of the keys that the passes look at**, if
the keys can be read off the sorted arrays or one pass is enough. -/
lemma sortedOf_passAll (hs : s.Proper) (hbits : 1 ≤ s.bits) (hord : s.InOrder)
    (hcnt : arrays.length = s.arguments.length) (hlens : ∀ x ∈ arrays, x.length = n)
    (hrds : s.ReadsSorted key ∨ keyBits ≤ s.bits) : (s.passAll key n (passes s.bits keyBits) arrays).map s.sortedOf =
      some ((s.sortedOf arrays).map (stableSort ((range n).map fun i =>
        key (rowAt arrays i) % 2 ^ (passCount s.bits keyBits * s.bits)))) := by
  have hpassCount : s.ReadsSorted key ∨ passCount s.bits keyBits ≤ 1 := by
    refine hrds.imp_right fun hle => ?_
    have hnot := mt (lt_passCount hbits keyBits 1).1 (by omega)
    omega
  obtain ⟨order, hsort, hpasses⟩ := passAll_of_inOrder hs hord hcnt hlens hpassCount
  rw [passes_eq hbits, hpasses, Option.map_some, sortedOf_mapSorted]
  refine congrArg some (map_congr_left fun x hx => ?_)
  refine map_order hsort (hlens x ?_)
  obtain ⟨p, hp, rfl⟩ := mem_map.1 hx
  exact (of_mem_zip (mem_filter.1 hp).1).2

/-- **With the names in order, each array comes back in the order of the keys**, if these can be read off the sorted
arrays or one pass is enough. -/
lemma sorts_of_inOrder (hs : s.Proper) (hbits : 1 ≤ s.bits) (hord : s.InOrder) (hdata : s.Data key keyBits n arrays)
    (hrds : s.ReadsSorted key ∨ keyBits ≤ s.bits) : s.Sorts key keyBits n arrays := by
  have hkeys : ((range n).map fun i => key (rowAt arrays i) % 2 ^ (passCount s.bits keyBits * s.bits)) =
      (range n).map fun i => key (rowAt arrays i) := by
    refine map_congr_left fun i hi => mod_eq_of_lt ?_
    have hlt := hdata.keys i (mem_range.1 hi)
    exact Nat.lt_of_lt_of_le hlt (Nat.pow_le_pow_right (by omega) (le_passCount_mul hbits keyBits))
  rw [Sorts, sortedOf_passAll hs hbits hord hdata.count hdata.lengths hrds, hkeys]

end Sorter

end ClHost.Radix

namespace ClHost.Radix.Sorter

open List

variable {α : Type} {s : Sorter}

/-! ## Parameters -/

def boundTo (s : Sorter) (values : List α) (name : String) : Option α :=
  values[((scanArguments s.arguments s.names).map (·.name)).idxOf name]?

lemma map_name_scanArguments (hs : s.Proper) : (scanArguments s.arguments s.names).map (·.name) =
      s.arguments.map (·.name) ++ s.namesInOrder.map ("sorted_" ++ ·) ++ ["base_bit"] := by
  rw [scanArguments, map_append, map_append, namesInOrder]
  congr 2
  have hvecs := hs.vectors
  revert hvecs
  induction s.arguments with
  | nil => exact fun _ => rfl
  | cons a rest ih =>
    intro hvecs
    have hrest := ih fun b hb => hvecs b (mem_cons_of_mem a hb)
    have ha := hvecs a mem_cons_self
    cases a with
    | vector t name withOffset =>
      have htype : (KernelArgument.vector t name withOffset).type? = some t := rfl
      have hhead : (KernelArgument.vector t name withOffset).name = name := rfl
      rw [filterMap_cons, map_cons, filter_cons, htype, hhead]
      by_cases hname : s.names.contains name = true
      · simp only [hname, if_true, map_cons, hrest]
        rfl
      · simp only [hname]
        exact hrest
    | scalar | other | foreign => cases ha

lemma boundTo_argument (hs : s.Proper) {args : List α} (hargs : args.length = s.arguments.length) (more : List α)
    {t : Nat} {a : KernelArgument} (ha : s.arguments[t]? = some a) : s.boundTo (args ++ more) a.name = args[t]? := by
  obtain ⟨ht, rfl⟩ := List.getElem?_eq_some_iff.1 ha
  have hname : ((scanArguments s.arguments s.names).map (·.name))[t]? = some s.arguments[t].name := by
    rw [map_name_scanArguments hs, append_assoc, getElem?_append_left (by simpa using ht), getElem?_map, ha]
    rfl
  obtain ⟨hlt, hget⟩ := List.getElem?_eq_some_iff.1 hname
  rw [boundTo, ← hget, hs.distinct.idxOf_getElem t hlt, getElem?_append_left (by omega)]

lemma boundTo_output (hs : s.Proper) {args : List α} (hargs : args.length = s.arguments.length) (sorted : List α)
    {name : String} (hmem : name ∈ s.names) :
    s.boundTo (args ++ sorted) ("sorted_" ++ name) = sorted[s.namesInOrder.idxOf name]? := by
  have hidx := idxOf_lt_length_of_mem ((namesInOrder_perm hs).mem_iff.2 hmem)
  have hname : ((scanArguments s.arguments s.names).map (·.name))[s.arguments.length + s.namesInOrder.idxOf name]? =
      some ("sorted_" ++ name) := by
    rw [map_name_scanArguments hs, append_assoc, getElem?_append_right (by simp), length_map,
      Nat.add_sub_cancel_left, getElem?_append_left (by simpa using hidx), getElem?_map,
      getElem?_eq_getElem hidx, getElem_idxOf hidx]
    rfl
  obtain ⟨hlt, hget⟩ := List.getElem?_eq_some_iff.1 hname
  rw [boundTo, ← hget, hs.distinct.idxOf_getElem _ hlt, getElem?_append_right (by omega), hargs,
    Nat.add_sub_cancel_left]

/-! ## Passes on the host -/

/-- A pass of a sort: its lowest bit, the arrays it is given, those made for what it sorts, and the arrays that are
given to the next pass. -/
structure Pass where
  base : Nat
  args : List DeviceArray
  sorted : List DeviceArray
  next : List DeviceArray

/-- There is an array for each argument and a new buffer for each array that is sorted, and the next pass takes the new
arrays. -/
structure Taken (s : Sorter) (p : Pass) : Prop where
  args : p.args.length = s.arguments.length
  sorted : p.sorted.length = s.names.length
  distinct : (p.sorted.map (·.buffer)).Nodup
  apart : ∀ a ∈ p.args, a.buffer ∉ p.sorted.map (·.buffer)
  next : s.substitute p.args p.sorted = some p.next

def OwnOutputs (s : Sorter) (p : Pass) : Prop :=
  ∀ (t : Nat) (a : KernelArgument), s.arguments[t]? = some a → a.name ∈ s.names →
    p.next[t]? = s.boundTo (p.args ++ p.sorted) ("sorted_" ++ a.name)

section Taken

variable {p : Pass}

lemma Taken.getElem?_next (h : s.Taken p) {t : Nat} {a : KernelArgument} (ha : s.arguments[t]? = some a)
    (hname : a.name ∈ s.names) : p.next[t]? = p.sorted[s.names.idxOf a.name]? := by
  have hnext := h.next
  rw [substitute_eq p.args h.sorted] at hnext
  have hidx : s.names.idxOf a.name < p.sorted.length := h.sorted ▸ idxOf_lt_length_of_mem hname
  obtain ⟨v, hv⟩ : ∃ v, p.args[t]? = some v := by
    refine ⟨_, getElem?_eq_getElem ?_⟩
    rw [h.args]
    exact (List.getElem?_eq_some_iff.1 ha).1
  have hzip : (s.arguments.zip p.args)[t]? = some (a, v) := getElem?_zip_eq_some.2 ⟨ha, hv⟩
  rw [← Option.some.inj hnext, getElem?_map, hzip]
  simp [hname, getElem?_eq_getElem hidx]

lemma Taken.mem_next (h : s.Taken p) {a : DeviceArray} (ha : a ∈ p.next) : a ∈ p.args ∨ a ∈ p.sorted := by
  have hnext := h.next
  rw [substitute_eq p.args h.sorted] at hnext
  rw [← Option.some.inj hnext] at ha
  obtain ⟨q, hq, rfl⟩ := mem_map.1 ha
  have hmem : q.2 ∈ p.args := (of_mem_zip hq).2
  split
  · cases hget : p.sorted[s.names.idxOf q.1.name]? with
    | none => exact .inl hmem
    | some => exact .inr (mem_of_getElem? hget)
  · exact .inl hmem

lemma Taken.length_next (h : s.Taken p) : p.next.length = s.arguments.length := by
  have hnext := h.next
  rw [substitute_eq p.args h.sorted] at hnext
  rw [← Option.some.inj hnext, length_map, length_zip, h.args, Nat.min_self]

lemma Taken.nodup (h : s.Taken p) : p.sorted.Nodup := .of_map _ h.distinct

/-- **Each argument keeps to its own arrays exactly if the sorted arrays are named in the order of the arguments.** -/
lemma Taken.ownOutputs_iff (hs : s.Proper) (h : s.Taken p) : s.OwnOutputs p ↔ s.InOrder := by
  rw [inOrder_iff hs]
  constructor
  · intro hown
    -- An array is found at one place only, so both lists have a name at the same place.
    have hplcs : ∀ name ∈ s.names, s.names.idxOf name = s.namesInOrder.idxOf name := by
      intro name hname
      obtain ⟨a, hmem, rfl⟩ := mem_map.1 (hs.declared name hname)
      obtain ⟨t, ht⟩ := mem_iff_getElem?.1 hmem
      have heq := hown t a ht hname
      rw [h.getElem?_next ht hname, boundTo_output hs h.args p.sorted hname] at heq
      exact (getElem?_inj (h.sorted ▸ idxOf_lt_length_of_mem hname) h.nodup).1 heq
    refine ext_getElem (namesInOrder_perm hs).length_eq.symm fun k hk hk' => ?_
    have hplace := hplcs s.names[k] (getElem_mem hk)
    rw [hs.names.idxOf_getElem k hk] at hplace
    have hlt := idxOf_lt_length_of_mem ((namesInOrder_perm hs).mem_iff.2 (getElem_mem hk))
    rw [← getElem_idxOf hlt]
    congr 1
    exact hplace.symm
  · intro hord t a ha hname
    rw [h.getElem?_next ha hname, boundTo_output hs h.args p.sorted hname, ← hord]

end Taken

def Linked (args : List DeviceArray) : List Pass → List DeviceArray → Prop
  | [], out => out = args
  | p :: rest, out => p.args = args ∧ Linked p.next rest out

/-! ## What arrays hold -/

variable {V : Type} [Inhabited V] {parts : Parts} {junk : Counts} {key : List V → Nat} {n : Nat} {p : Pass}
  {μ μ' : DeviceArray → List V}

/-- The output statement was carried out for all elements: the parameter for the sorted elements of an argument has
each of them at the place that is computed from the bins, and arrays with other buffers are left alone. -/
structure CarriedOut (s : Sorter) (parts : Parts) (junk : Counts) (key : List V → Nat) (n : Nat) (p : Pass)
    (μ μ' : DeviceArray → List V) : Prop where
  writes : ∀ name ∈ s.names, ∀ x y, s.boundTo (p.args ++ p.sorted) name = some x →
    s.boundTo (p.args ++ p.sorted) ("sorted_" ++ name) = some y →
    parts.Scatters junk (s.binsOf key n (p.args.map μ) p.base) (μ x) (μ' y)
  keeps : ∀ a, a.buffer ∉ p.sorted.map (·.buffer) → μ' a = μ a

def AllCarriedOut (s : Sorter) (parts : Parts) (junk : Counts) (key : List V → Nat) (n : Nat) :
    List Pass → (DeviceArray → List V) → (DeviceArray → List V) → Prop
  | [], μ, μ' => μ' = μ
  | p :: rest, μ, μ' => ∃ ν, s.CarriedOut parts junk key n p μ ν ∧ s.AllCarriedOut parts junk key n rest ν μ'

lemma length_binsOf (s : Sorter) (key : List V → Nat) (n : Nat) (arrays : List (List V)) (base : Nat) :
    (s.binsOf key n arrays base).length = n := by
  rw [binsOf, length_map, length_range]

lemma binsOf_lt (s : Sorter) (key : List V → Nat) (n : Nat) (arrays : List (List V)) (base : Nat) :
    ∀ b ∈ s.binsOf key n arrays base, b < 2 ^ s.bits := by
  intro b hb
  obtain ⟨i, -, rfl⟩ := mem_map.1 hb
  exact binNumber_lt _ _ _

lemma Taken.source (hs : s.Proper) (h : s.Taken p) {k : Nat} (hk : k < p.sorted.length) :
    ∃ name x, name ∈ s.names ∧ s.namesInOrder.idxOf name = k ∧ x ∈ p.args ∧
      s.boundTo (p.args ++ p.sorted) name = some x ∧ (s.sortedOf p.args)[k]? = some x := by
  have hk' : k < s.namesInOrder.length := by rwa [(namesInOrder_perm hs).length_eq, ← h.sorted]
  have hname : s.namesInOrder[k] ∈ s.names := (namesInOrder_perm hs).mem_iff.1 (getElem_mem hk')
  have hidx : s.namesInOrder.idxOf s.namesInOrder[k] = k := (hs.arguments.filter _).idxOf_getElem k hk'
  obtain ⟨a, hmem, haname⟩ := mem_map.1 (hs.declared _ hname)
  obtain ⟨t, ht⟩ := mem_iff_getElem?.1 hmem
  obtain ⟨x, hx⟩ : ∃ x, p.args[t]? = some x := by
    refine ⟨_, getElem?_eq_getElem ?_⟩
    rw [h.args]
    exact (List.getElem?_eq_some_iff.1 ht).1
  have hzip : (s.arguments.zip p.args)[t]? = some (a, x) := getElem?_zip_eq_some.2 ⟨ht, hx⟩
  refine ⟨s.namesInOrder[k], x, hname, hidx, mem_of_getElem? hx, ?_, ?_⟩
  · rw [← haname, boundTo_argument hs h.args p.sorted ht, hx]
  · have hsort := getElem?_sortedOf hs h.args (mem_of_getElem? hzip) (haname ▸ hname)
    rwa [haname, hidx] at hsort

section

variable (hs : s.Proper) (h : s.Taken p) (hpts : parts.bits = s.bits) (hlens : ∀ a ∈ p.args, (μ a).length = n)
  (hc : s.CarriedOut parts junk key n p μ μ')

include hs h hpts hlens hc

lemma CarriedOut.map_sorted : p.sorted.map μ' =
      (s.sortedOf (p.args.map μ)).map (place (2 ^ s.bits) (s.binsOf key n (p.args.map μ) p.base)) := by
  refine ext_getElem ?_ fun k hk hk' => ?_
  · rw [length_map, length_map, sortedOf_map, length_map, length_sortedOf hs h.args, h.sorted]
  rw [length_map] at hk
  obtain ⟨name, x, hname, hidx, hmem, hx, hsort⟩ := h.source hs hk
  have hy : s.boundTo (p.args ++ p.sorted) ("sorted_" ++ name) = some p.sorted[k] := by
    rw [boundTo_output hs h.args p.sorted hname, hidx, getElem?_eq_getElem hk]
  have hwrites := hc.writes name hname x p.sorted[k] hx hy
  rw [Parts.scatters_iff (by rw [length_binsOf, hlens x hmem]) (hpts ▸ binsOf_lt s key n _ _), hpts] at hwrites
  obtain ⟨hlt, hget⟩ := List.getElem?_eq_some_iff.1 hsort
  simp only [sortedOf_map, getElem_map, hget]
  exact hwrites

/-- **What the arrays of the next pass hold.** -/
lemma CarriedOut.passOn_eq : s.passOn key n (p.args.map μ) p.base = some (p.next.map μ') := by
  have hkept : p.args.map μ = p.args.map μ' := map_congr_left fun a ha => (hc.keeps a (h.apart a ha)).symm
  rw [passOn, ← hc.map_sorted hs h hpts hlens, hkept, substitute_map μ' p.args h.sorted, h.next, Option.map_some]

lemma CarriedOut.lengths : ∀ a ∈ p.next, (μ' a).length = n := by
  intro a ha
  rcases h.mem_next ha with hargs | hsort
  · rw [hc.keeps a (h.apart a hargs), hlens a hargs]
  · have hmem : μ' a ∈ p.sorted.map μ' := mem_map_of_mem hsort
    rw [hc.map_sorted hs h hpts hlens, sortedOf_map, map_map] at hmem
    obtain ⟨x, hx, heq⟩ := mem_map.1 hmem
    obtain ⟨q, hq, rfl⟩ := mem_map.1 hx
    have hlen := hlens q.2 (of_mem_zip (mem_filter.1 hq).1).2
    rw [← heq]
    exact (length_place (by rw [length_binsOf, hlen]) (binsOf_lt s key n _ _)).trans hlen

end

variable {args out : List DeviceArray} {trace : List Pass}

/-- **What the arrays hold after all passes.** -/
lemma passAll_eq (hs : s.Proper) (hpts : parts.bits = s.bits) (htk : ∀ p ∈ trace, s.Taken p)
    (hlinked : Linked args trace out) (hlens : ∀ a ∈ args, (μ a).length = n)
    (hcarried : s.AllCarriedOut parts junk key n trace μ μ') :
    s.passAll key n (trace.map (·.base)) (args.map μ) = some (out.map μ') := by
  induction trace generalizing args μ with
  | nil =>
    cases hlinked
    cases hcarried
    rfl
  | cons p rest ih =>
    obtain ⟨rfl, hrest⟩ := hlinked
    obtain ⟨ν, hp, hcarried⟩ := hcarried
    have htake := htk p mem_cons_self
    rw [map_cons, passAll, foldlM_cons, hp.passOn_eq hs htake hpts hlens]
    exact ih (fun q hq => htk q (mem_cons_of_mem p hq)) hrest (hp.lengths hs htake hpts hlens) hcarried

lemma Taken.exists_carriedOut (hs : s.Proper) (h : s.Taken p) (hpts : parts.bits = s.bits) (key : List V → Nat)
    (hlens : ∀ a ∈ p.args, (μ a).length = n) : ∃ μ', s.CarriedOut parts junk key n p μ μ' := by
  let bins := s.binsOf key n (p.args.map μ) p.base
  let held (a : DeviceArray) : List V :=
    (s.sortedOf p.args)[p.sorted.idxOf a]?.elim [] fun x => place (2 ^ s.bits) bins (μ x)
  refine ⟨fun a => if a.buffer ∈ p.sorted.map (·.buffer) then held a else μ a, ?_, fun a ha => if_neg ha⟩
  intro name hname x y hx hy
  rw [boundTo_output hs h.args p.sorted hname] at hy
  obtain ⟨hk, rfl⟩ := List.getElem?_eq_some_iff.1 hy
  obtain ⟨name', x', hname', hidx, hmem, hx', hsort⟩ := h.source hs hk
  obtain rfl : name' = name := (idxOf_inj ((namesInOrder_perm hs).mem_iff.2 hname')).1 hidx
  obtain rfl : x' = x := Option.some.inj (hx'.symm.trans hx)
  rw [Parts.scatters_iff (by rw [length_binsOf, hlens x' hmem]) (hpts ▸ binsOf_lt s key n _ _), hpts,
    if_pos (mem_map_of_mem (getElem_mem hk))]
  simp only [held, h.nodup.idxOf_getElem _ hk, hsort]
  rfl

lemma exists_allCarriedOut (hs : s.Proper) (hpts : parts.bits = s.bits) (key : List V → Nat)
    (htk : ∀ p ∈ trace, s.Taken p) (hlinked : Linked args trace out) (hlens : ∀ a ∈ args, (μ a).length = n) :
    ∃ μ', s.AllCarriedOut parts junk key n trace μ μ' := by
  induction trace generalizing args μ with
  | nil => exact ⟨μ, rfl⟩
  | cons p rest ih =>
    obtain ⟨rfl, hrest⟩ := hlinked
    have htake := htk p mem_cons_self
    obtain ⟨ν, hp⟩ := htake.exists_carriedOut hs hpts key hlens
    obtain ⟨μ', hcarried⟩ := ih (fun q hq => htk q (mem_cons_of_mem p hq)) hrest
      (hp.lengths hs htake hpts hlens)
    exact ⟨μ', ν, hp, hcarried⟩

end ClHost.Radix.Sorter
