import Mathlib.Data.Fintype.EquivFin
import Mathlib.Tactic.Linarith
import Mathlib.Tactic.Ring
import ClHost.Radix.Basic

/-!
# Sorting by digits

A list is sorted by its keys if they rise and elements with the same key stay in the order in which they came.
-/

namespace ClHost.Radix

open List Nat

variable {α β : Type} {f : α → Nat} {xs ys zs : List α}

structure StablySorted (f : α → Nat) (xs ys : List α) : Prop where
  ordered : ys.Pairwise fun x y => f x ≤ f y
  stable : ∀ k, ys.filter (f · == k) = xs.filter (f · == k)

lemma StablySorted.refl (h : xs.Pairwise fun x y => f x ≤ f y) : StablySorted f xs xs := ⟨h, fun _ => rfl⟩

lemma eq_of_ordered (hys : ys.Pairwise fun x y => f x ≤ f y) (hzs : zs.Pairwise fun x y => f x ≤ f y)
    (h : ∀ k, ys.filter (f · == k) = zs.filter (f · == k)) : ys = zs := by
  induction ys generalizing zs with
  | nil =>
    refine (eq_nil_iff_forall_not_mem.2 fun z hz => ?_).symm
    have hmem : z ∈ zs.filter (f · == f z) := by simp [hz]
    rw [← h] at hmem
    exact not_mem_nil hmem
  | cons y ys ih =>
    cases zs with
    | nil =>
      have hhead := h (f y)
      simp at hhead
    | cons z zs =>
      rw [pairwise_cons] at hys hzs
      have hmem : ∀ x, x ∈ y :: ys ↔ x ∈ z :: zs := by
        intro x
        have hx := congrArg (x ∈ ·) (h (f x))
        simpa using hx
      -- Each of the two heads has a key that is least.
      have hyz : f y = f z := by
        have hy := (hmem y).1 mem_cons_self
        have hz := (hmem z).2 mem_cons_self
        have hle : f z ≤ f y := by
          rcases mem_cons.1 hy with rfl | hy
          · exact le_refl _
          · exact hzs.1 y hy
        have hge : f y ≤ f z := by
          rcases mem_cons.1 hz with rfl | hz
          · exact le_refl _
          · exact hys.1 z hz
        omega
      have hhead := h (f y)
      rw [filter_cons_of_pos (by simp), filter_cons_of_pos (by simp [hyz])] at hhead
      obtain ⟨rfl, -⟩ := cons.inj hhead
      rw [ih hys.2 hzs.2 fun k => ?_]
      have hk := h k
      rw [filter_cons, filter_cons] at hk
      split at hk
      · exact (cons.inj hk).2
      · exact hk

lemma StablySorted.eq (hys : StablySorted f xs ys) (hzs : StablySorted f xs zs) : ys = zs :=
  eq_of_ordered hys.ordered hzs.ordered fun k => (hys.stable k).trans (hzs.stable k).symm

lemma stablySorted_mergeSort (f : α → Nat) (xs : List α) :
    StablySorted f xs (xs.mergeSort fun x y => decide (f x ≤ f y)) := by
  have htrans : ∀ x y z : α, decide (f x ≤ f y) = true → decide (f y ≤ f z) = true → decide (f x ≤ f z) = true := by
    simp only [decide_eq_true_eq]
    omega
  have htotal : ∀ x y : α, (decide (f x ≤ f y) || decide (f y ≤ f x)) = true := by
    simp only [Bool.or_eq_true, decide_eq_true_eq]
    omega
  constructor
  · exact (pairwise_mergeSort htrans htotal xs).imp of_decide_eq_true
  · intro k
    -- What has the same key is in order, and so is a part of the sorted list.
    have hequal : (xs.filter (f · == k)).Pairwise fun x y => decide (f x ≤ f y) = true := by
      refine pairwise_of_forall_mem_list fun x hx y hy => ?_
      simp only [mem_filter, beq_iff_eq] at hx hy
      simp [hx.2, hy.2]
    have hsub := (sublist_mergeSort htrans htotal hequal filter_sublist).filter (f · == k)
    rw [filter_filter] at hsub
    simp only [Bool.and_self] at hsub
    refine (hsub.eq_of_length ?_).symm
    rw [← countP_eq_length_filter, ← countP_eq_length_filter]
    exact ((mergeSort_perm xs _).countP_eq _).symm

lemma StablySorted.perm (h : StablySorted f xs ys) : ys.Perm xs := by
  rw [h.eq (stablySorted_mergeSort f xs)]
  exact mergeSort_perm _ _

lemma pairwise_lex {R : α → α → Prop} (h : xs.Pairwise fun x y => f x ≤ f y)
    (hR : ∀ k, (xs.filter (f · == k)).Pairwise R) : xs.Pairwise fun x y => f x < f y ∨ f x = f y ∧ R x y := by
  induction xs with
  | nil => exact .nil
  | cons x xs ih =>
    rw [pairwise_cons] at h
    have hx := hR (f x)
    rw [filter_cons_of_pos (by simp), pairwise_cons] at hx
    refine pairwise_cons.2 ⟨fun y hy => ?_, ih h.2 fun k => ?_⟩
    · rcases lt_or_eq_of_le (h.1 y hy) with hlt | heq
      · exact Or.inl hlt
      · exact Or.inr ⟨heq, hx.1 y (by simp [hy, heq])⟩
    · exact (hR k).sublist ((sublist_cons_self x xs).filter _)

lemma add_mul_beq {m l h k : Nat} (hl : l < m) : (l + m * h == k) = ((l == k % m) && (h == k / m)) := by
  have hm : 0 < m := by omega
  rw [Bool.eq_iff_iff]
  simp only [beq_iff_eq, Bool.and_eq_true]
  constructor
  · rintro rfl
    rw [add_mul_mod_self_left, mod_eq_of_lt hl, add_mul_div_left _ _ hm, div_eq_of_lt hl, zero_add]
    exact ⟨rfl, rfl⟩
  · rintro ⟨rfl, rfl⟩
    exact mod_add_div k m

/-- **Sorting by the low part of keys and then by the next digit sorts by both.** -/
lemma StablySorted.digit {m r : Nat} (hm : 0 < m) (hlow : StablySorted (fun x => f x % m) xs ys)
    (hhigh : StablySorted (fun x => f x / m % r) ys zs) : StablySorted (fun x => f x % (m * r)) xs zs := by
  constructor
  · have hboth : zs.Pairwise fun x y => f x / m % r < f y / m % r ∨ f x / m % r = f y / m % r ∧ f x % m ≤ f y % m := by
      refine pairwise_lex hhigh.ordered fun k => ?_
      rw [hhigh.stable]
      exact hlow.ordered.filter _
    refine hboth.imp fun {x y} h => ?_
    rw [mod_mul, mod_mul]
    rcases h with hlt | ⟨heq, hle⟩
    · have hx := mod_lt (f x) hm
      have hmul := mul_le_mul_left m (show f x / m % r + 1 ≤ f y / m % r from hlt)
      rw [mul_add] at hmul
      omega
    · rw [heq]
      omega
  · intro k
    have hspl : ∀ l : List α, l.filter (fun x => f x % (m * r) == k) =
        (l.filter fun x => f x / m % r == k / m).filter fun x => f x % m == k % m := by
      intro l
      rw [filter_filter]
      refine filter_congr fun x _ => ?_
      rw [mod_mul, add_mul_beq (mod_lt _ hm)]
    rw [hspl, hspl, hhigh.stable, filter_filter, filter_filter]
    simp only [Bool.and_comm (_ % m == _)]
    rw [← filter_filter, ← filter_filter, hlow.stable]

/-! ## Placing -/

def place (r : Nat) (bins : List Nat) (xs : List α) : List α :=
  (List.range r).flatMap fun b => ((bins.zip xs).filter (·.1 == b)).map (·.2)

lemma place_map (g : α → β) (r : Nat) (bins : List Nat) (xs : List α) :
    place r bins (xs.map g) = (place r bins xs).map g := by
  rw [place, place, map_flatMap]
  congr 1
  funext b
  rw [zip_map_right, filter_map, map_map, map_map]
  rfl

lemma place_of_map (r : Nat) (g : α → Nat) (xs : List α) :
    place r (xs.map g) xs = (range r).flatMap fun b => xs.filter (g · == b) := by
  rw [place]
  congr 1
  funext b
  induction xs with
  | nil => rfl
  | cons x xs ih =>
    rw [map_cons, zip_cons_cons, filter_cons, filter_cons, ← ih]
    split <;> rfl

lemma flatMap_range_ite (l : List α) (r k : Nat) :
    ((range r).flatMap fun b => if b = k then l else []) = if k < r then l else [] := by
  induction r with
  | zero => rfl
  | succ r ih =>
    rw [range_succ, flatMap_append, ih, flatMap_singleton]
    by_cases hk : k < r
    · rw [if_pos hk, if_neg (by omega), if_pos (by omega), append_nil]
    · by_cases heq : r = k
      · rw [if_neg hk, if_pos heq, if_pos (by omega), nil_append]
      · rw [if_neg hk, if_neg heq, if_neg (by omega), nil_append]

lemma stablySorted_place (xs : List α) {r : Nat} {g : α → Nat} (hg : ∀ x ∈ xs, g x < r) :
    StablySorted g xs (place r (xs.map g) xs) := by
  rw [place_of_map]
  constructor
  · rw [pairwise_flatMap]
    constructor
    · intro b _
      refine pairwise_of_forall_mem_list fun x hx y hy => ?_
      simp only [mem_filter, beq_iff_eq] at hx hy
      omega
    · refine pairwise_lt_range.imp fun {b c} hlt x hx y hy => ?_
      simp only [mem_filter, beq_iff_eq] at hx hy
      omega
  · intro k
    have hone : ∀ b, (xs.filter (g · == b)).filter (g · == k) = if b = k then xs.filter (g · == k) else [] := by
      intro b
      split
      · rename_i heq
        rw [heq, filter_filter]
        simp only [Bool.and_self]
      · rename_i hne
        rw [filter_filter, filter_eq_nil_iff]
        intro x _
        simp only [Bool.and_eq_true, beq_iff_eq, not_and]
        omega
    rw [filter_flatMap]
    simp only [hone]
    rw [flatMap_range_ite]
    split
    · rfl
    · rename_i hk
      rw [eq_comm, filter_eq_nil_iff]
      intro x hx
      have hx := hg x hx
      simp only [beq_iff_eq]
      omega

/-! ## Where elements are placed -/

variable {bins : List Nat} {r b i : Nat}

lemma getElem?_filter_countP {p : α → Bool} {x : α} (hx : xs[i]? = some x) (hp : p x = true) :
    (xs.filter p)[(xs.take i).countP p]? = some x := by
  obtain ⟨hi, rfl⟩ := List.getElem?_eq_some_iff.1 hx
  have hspl : xs.filter p = (xs.take i).filter p ++ xs[i] :: (xs.drop (i + 1)).filter p := by
    conv_lhs => rw [← take_append_drop i xs, drop_eq_getElem_cons hi]
    rw [filter_append, filter_cons_of_pos hp]
  rw [hspl, countP_eq_length_filter, getElem?_append_right (Nat.le_refl _), Nat.sub_self]
  rfl

lemma countP_lt_succ (b : Nat) (bins : List Nat) : bins.countP (· < b + 1) = bins.countP (· < b) + bins.count b := by
  induction bins with
  | nil => rfl
  | cons =>
    rw [countP_cons, countP_cons, count_cons]
    simp only [decide_eq_true_eq, beq_iff_eq]
    split_ifs <;> omega

lemma countP_zip (hlen : bins.length ≤ xs.length) (b : Nat) : (bins.zip xs).countP (·.1 == b) = bins.count b := by
  have hfst : (bins.zip xs).map (·.1) = bins := map_fst_zip hlen
  conv_rhs => rw [← hfst, List.count, countP_map]
  rfl

lemma length_flatMap_range (hlen : bins.length ≤ xs.length) (b : Nat) :
    ((range b).flatMap fun c => ((bins.zip xs).filter (·.1 == c)).map (·.2)).length = bins.countP (· < b) := by
  induction b with
  | zero => simp
  | succ b ih =>
    rw [range_succ, flatMap_append, length_append, ih, flatMap_singleton, length_map,
      ← countP_eq_length_filter, countP_zip hlen, countP_lt_succ]

lemma length_place (hlen : bins.length = xs.length) (hbins : ∀ b ∈ bins, b < r) :
    (place r bins xs).length = xs.length := by
  rw [place, length_flatMap_range hlen.le, ← hlen, countP_eq_length]
  exact fun b hb => decide_eq_true (hbins b hb)

def rank (bins : List Nat) (i : Nat) : Nat := bins.countP (· < bins[i]?.getD 0) + (bins.take i).count (bins[i]?.getD 0)

lemma getElem?_place (hlen : bins.length = xs.length) (hbins : ∀ b ∈ bins, b < r) (hlt : i < xs.length) :
    (place r bins xs)[rank bins i]? = xs[i]? := by
  obtain ⟨b, hi⟩ : ∃ b, bins[i]? = some b := ⟨_, getElem?_eq_getElem (hlen ▸ hlt)⟩
  have hb := hbins b (mem_of_getElem? hi)
  have hget : xs[i]? = some xs[i] := getElem?_eq_getElem hlt
  have hwithin : (((bins.zip xs).filter (·.1 == b)).map (·.2))[(bins.take i).count b]? = xs[i]? := by
    have hpair : (bins.zip xs)[i]? = some (b, xs[i]) := getElem?_zip_eq_some.2 ⟨hi, hget⟩
    have hplace := getElem?_filter_countP (p := fun q : Nat × α => q.1 == b) hpair (by simp)
    have htake : (bins.zip xs).take i = (bins.take i).zip (xs.take i) := take_zipWith
    rw [htake, countP_zip (by simp [hlen])] at hplace
    rw [getElem?_map, hplace, hget]
    rfl
  obtain ⟨hinside, -⟩ := List.getElem?_eq_some_iff.1 (hwithin.trans hget)
  obtain ⟨k, rfl⟩ := Nat.exists_eq_add_of_lt hb
  rw [rank, hi, Option.getD_some, place, Nat.add_assoc, range_add, range_succ_eq_map, map_cons, Nat.add_zero, flatMap_append,
    flatMap_cons, ← length_flatMap_range hlen.le, getElem?_append_right (Nat.le_add_right _ _),
    Nat.add_sub_cancel_left, getElem?_append_left hinside, hwithin]

lemma exists_rank (hbins : ∀ b ∈ bins, b < r) {j : Nat} (hj : j < bins.length) :
    ∃ i < bins.length, rank bins i = j := by
  have hback : ∀ i < bins.length, (place r bins (List.range bins.length))[rank bins i]? = some i := by
    intro i hi
    rw [getElem?_place (by simp) hbins (by simpa using hi), getElem?_range hi]
  have hrank : ∀ i : Fin bins.length, rank bins i < bins.length := by
    intro i
    obtain ⟨hlt, -⟩ := List.getElem?_eq_some_iff.1 (hback i i.isLt)
    rwa [length_place (by simp) hbins, length_range] at hlt
  have hinj : Function.Injective fun i : Fin bins.length => (⟨rank bins i, hrank i⟩ : Fin bins.length) := by
    intro i i' heq
    have hi := hback i i.isLt
    rw [show rank bins i = rank bins i' from congrArg Fin.val heq, hback i' i'.isLt] at hi
    exact Fin.ext (Option.some.inj hi).symm
  obtain ⟨i, hi⟩ := Finite.surjective_of_injective hinj ⟨j, hj⟩
  exact ⟨i, i.isLt, congrArg Fin.val hi⟩

lemma eq_place (hlen : bins.length = xs.length) (hbins : ∀ b ∈ bins, b < r) (hys : ys.length = xs.length)
    (h : ∀ i < xs.length, ys[rank bins i]? = xs[i]?) : ys = place r bins xs := by
  apply ext_getElem?
  intro j
  by_cases hj : j < xs.length
  · obtain ⟨i, hi, rfl⟩ := exists_rank hbins (hlen ▸ hj)
    rw [hlen] at hi
    rw [h i hi, getElem?_place hlen hbins hi]
  · rw [getElem?_eq_none (by omega), getElem?_eq_none (by rw [length_place hlen hbins]; omega)]

/-! ## What the statements of a pass do -/

lemma ofDigits_concat (l : List Bool) (d : Bool) : ofDigits (l ++ [d]) = 2 * ofDigits l + (if d then 1 else 0) := by
  rw [ofDigits, foldl_append]
  rfl

lemma ofDigits_append_zeros (l : List Bool) (k : Nat) : ofDigits (l ++ replicate k false) = ofDigits l * 2 ^ k := by
  induction k with
  | zero => simp
  | succ k ih =>
    rw [replicate_succ', ← append_assoc, ofDigits_concat, ih]
    simp only [Bool.false_eq_true, if_false]
    ring

lemma ofDigits_zeros_append (k : Nat) (l : List Bool) : ofDigits (replicate k false ++ l) = ofDigits l := by
  have hzeros : ofDigits (replicate k false) = 0 := by
    simpa [ofDigits] using ofDigits_append_zeros [] k
  rw [ofDigits, foldl_append]
  exact congrArg (fun n => foldl _ n l) hzeros

lemma ofDigits_binaryDigits (n : Nat) : ofDigits (binaryDigits n) = n := by
  induction n using binaryDigits.induct with
  | case1 => simp [binaryDigits, ofDigits]
  | case2 n hn =>
    rw [binaryDigits, dif_neg hn, ofDigits_concat]
    rcases mod_two_eq_zero_or_one n with h | h <;> simp only [h] <;> simp <;> omega

variable {n : Nat} {l l' : List Bool}

lemma length_binaryDigits {k : Nat} (h : n < 2 ^ k) : (binaryDigits n).length ≤ k := by
  induction n using binaryDigits.induct generalizing k with
  | case1 => simp [binaryDigits]
  | case2 n hn ih =>
    cases k with
    | zero => simp at h; omega
    | succ k =>
      rw [binaryDigits, dif_neg hn, length_append, length_singleton]
      have := ih (k := k) (by rw [pow_succ] at h; omega)
      omega

lemma eq_of_ofDigits (hlen : l.length = l'.length) (h : ofDigits l = ofDigits l') : l = l' := by
  induction l using reverseRecOn generalizing l' with
  | nil => exact (eq_nil_of_length_eq_zero hlen.symm).symm
  | append_singleton l d ih =>
    rcases eq_nil_or_concat' l' with rfl | ⟨l', d', rfl⟩
    · simp at hlen
    · rw [ofDigits_concat, ofDigits_concat] at h
      have hd : d = d' := by
        cases d <;> cases d' <;> simp at h ⊢ <;> omega
      subst hd
      rw [ih (by simpa using hlen) (by omega)]

lemma digitText_injective (h : digitText l = digitText l') : l = l' := by
  rw [digitText, digitText, String.ofList_inj] at h
  refine map_injective_iff.2 ?_ h
  intro d d' hd
  cases d <;> cases d' <;> simp_all

def paddedDigits (n width : Nat) : List Bool := List.replicate (width - (binaryDigits n).length) false ++ binaryDigits n

lemma padded_eq (n width : Nat) : padded n width = digitText (paddedDigits n width) := rfl

lemma ofDigits_paddedDigits (n width : Nat) : ofDigits (paddedDigits n width) = n := by
  rw [paddedDigits, ofDigits_zeros_append, ofDigits_binaryDigits]

lemma length_paddedDigits {width : Nat} (h : n < 2 ^ width) : (paddedDigits n width).length = width := by
  have hlen := length_binaryDigits h
  rw [paddedDigits, length_append, length_replicate]
  omega

lemma ofDigits_select (known : List Bool) (left n : Nat) (hlow : ofDigits known * 2 ^ left ≤ n)
    (hhigh : n < (ofDigits known + 1) * 2 ^ left) : ((Branch.choose known left).select n).length = known.length + left ∧
      ofDigits ((Branch.choose known left).select n) = n := by
  induction left generalizing known with
  | zero =>
    rw [Branch.choose, Branch.select]
    exact ⟨rfl, by omega⟩
  | succ left ih =>
    have hbd : ofDigits (known ++ true :: replicate left false) = (2 * ofDigits known + 1) * 2 ^ left := by
      rw [← singleton_append, ← append_assoc, ofDigits_append_zeros, ofDigits_concat, if_pos rfl]
    rw [pow_succ] at hlow hhigh
    rw [Branch.choose, Branch.select, hbd]
    split
    · rename_i hlt
      obtain ⟨hlen, heq⟩ := ih (known ++ [false]) (by rw [ofDigits_concat]; simp; linarith)
        (by rw [ofDigits_concat]; simpa using hlt)
      rw [length_append, length_singleton] at hlen
      exact ⟨by omega, heq⟩
    · rename_i hge
      obtain ⟨hlen, heq⟩ := ih (known ++ [true]) (by rw [ofDigits_concat]; simpa using hge)
        (by rw [ofDigits_concat]; simp; linarith)
      rw [length_append, length_singleton] at hlen
      exact ⟨by omega, heq⟩

lemma select_choose {bits : Nat} (h : n < 2 ^ bits) : (Branch.choose [] bits).select n = paddedDigits n bits := by
  obtain ⟨hlen, heq⟩ := ofDigits_select [] bits n (by simp [ofDigits]) (by simpa [ofDigits] using h)
  refine eq_of_ofDigits ?_ ?_
  · rw [hlen, length_paddedDigits h, length_nil, zero_add]
  · rw [heq, ofDigits_paddedDigits]

abbrev Counts := String → Nat

lemma foldl_update {l : List (Nat × String)} (hnodup : (l.map (·.2)).Nodup) (value : Nat × String → Nat → Nat)
    (s : Counts) {b : Nat × String} (hb : b ∈ l) :
    l.foldl (fun s b => Function.update s b.2 (value b (s b.2))) s b.2 = value b (s b.2) := by
  induction l generalizing s with
  | nil => cases hb
  | cons c l ih =>
    rw [map_cons, nodup_cons] at hnodup
    rw [foldl_cons]
    rcases mem_cons.1 hb with rfl | hb
    · -- The fields that come later are others.
      have hlater : ∀ (l : List (Nat × String)) (s : Counts) (name : String), name ∉ l.map (·.2) →
          l.foldl (fun s b => Function.update s b.2 (value b (s b.2))) s name = s name := by
        intro l
        induction l with
        | nil => exact fun _ _ _ => rfl
        | cons c l ih =>
          intro s name hname
          rw [map_cons, mem_cons, not_or] at hname
          rw [foldl_cons, ih _ _ hname.2, Function.update_of_ne hname.1]
      rw [hlater l _ _ hnodup.1, Function.update_self]
    · have hne : b.2 ≠ c.2 := fun heq => hnodup.1 (heq ▸ mem_map_of_mem hb)
      rw [ih hnodup.2 _ hb, Function.update_of_ne hne]

namespace Parts

variable (p : Parts)

def field (m : Nat) : String := "c" ++ padded m p.bits

lemma bins_eq : p.bins = (range (2 ^ p.bits)).map fun m => (m, p.field m) := rfl

lemma field_injective : Function.Injective p.field := by
  intro m m' h
  rw [field, field, String.append_right_inj, padded_eq, padded_eq] at h
  rw [← ofDigits_paddedDigits m p.bits, digitText_injective h, ofDigits_paddedDigits]

lemma nodup_fields : (p.bins.map (·.2)).Nodup := by
  rw [bins_eq, map_map]
  exact nodup_range.map p.field_injective

def assign (value : Nat × String → Nat → Nat) (s : Counts) : Counts :=
  p.bins.foldl (fun s b => Function.update s b.2 (value b (s b.2))) s

variable {m bin : Nat} {bins : List Nat}

lemma assign_field (value : Nat × String → Nat → Nat) (s : Counts) (hm : m < 2 ^ p.bits) :
    p.assign value s (p.field m) = value (m, p.field m) (s (p.field m)) := by
  refine foldl_update p.nodup_fields value s (b := (m, p.field m)) ?_
  exact mem_map.2 ⟨m, mem_range.2 hm, rfl⟩

variable (junk : Counts)

def neutral : Counts := p.assign (fun _ _ => 0) junk

def fromBin (bin : Nat) : Counts := p.assign (fun b _ => if bin == b.1 then 1 else 0) junk

def add (a b : Counts) : Counts := p.assign (fun f held => a f.2 + held) b

def item (bins : List Nat) (i : Nat) : Counts := ((bins.take (i + 1)).map (p.fromBin junk)).foldl p.add (p.neutral junk)

def countIn (s : Counts) (bin : Nat) : Nat := s ("c" ++ digitText ((Branch.choose [] p.bits).select bin))

def target (bins : List Nat) (i : Nat) : Nat :=
  let bin := bins[i]?.getD 0
  let last := p.item junk bins (bins.length - 1)
  p.bins.foldl (fun n b => n + if b.1 < bin then last b.2 else 0) 0 + p.countIn (p.item junk bins i) bin - 1

variable {p junk}

lemma item_field (hm : m < 2 ^ p.bits) (bins : List Nat) (i : Nat) :
    p.item junk bins i (p.field m) = (bins.take (i + 1)).count m := by
  have hsum : ∀ (l : List Nat) (s : Counts),
      (l.map (p.fromBin junk)).foldl p.add s (p.field m) = s (p.field m) + l.count m := by
    intro l
    induction l with
    | nil => exact fun _ => rfl
    | cons b l ih =>
      intro s
      rw [map_cons, foldl_cons, ih, add, assign_field p _ _ hm, fromBin, assign_field p _ _ hm, count_cons]
      dsimp only
      omega
  rw [item, hsum, neutral, assign_field p _ _ hm, zero_add]

lemma countIn_item (hbin : bin < 2 ^ p.bits) (bins : List Nat) (i : Nat) :
    p.countIn (p.item junk bins i) bin = (bins.take (i + 1)).count bin := by
  rw [countIn, select_choose hbin]
  exact item_field hbin bins i

lemma foldl_lower {last : Counts} (hlast : ∀ m < 2 ^ p.bits, last (p.field m) = bins.count m)
    (hbin : bin < 2 ^ p.bits) :
    p.bins.foldl (fun n b => n + if b.1 < bin then last b.2 else 0) 0 = bins.countP (· < bin) := by
  have hpart : ∀ k ≤ 2 ^ p.bits, ((range k).map fun m => (m, p.field m)).foldl
      (fun n b => n + if b.1 < bin then last b.2 else 0) 0 = bins.countP (· < min k bin) := by
    intro k
    induction k with
    | zero => simp
    | succ k ih =>
      intro hk
      rw [range_succ, map_append, foldl_append, ih (by omega), map_singleton, foldl_cons, foldl_nil]
      split
      · rename_i hlt
        rw [hlast k (by omega), min_eq_left (by omega), min_eq_left (by omega), countP_lt_succ]
      · rename_i hge
        rw [min_eq_right (by simpa using hge), min_eq_right (by simp at hge; omega), add_zero]
  rw [bins_eq, hpart _ (le_refl _), min_eq_right (le_of_lt hbin)]

/-- **An element is put behind those of lower bins and those of its own bin that come before it.** -/
lemma target_eq (hbins : ∀ b ∈ bins, b < 2 ^ p.bits) {i : Nat} (hi : i < bins.length) :
    p.target junk bins i = rank bins i := by
  obtain ⟨b, hb⟩ : ∃ b, bins[i]? = some b := ⟨_, getElem?_eq_getElem hi⟩
  have hlt := hbins b (mem_of_getElem? hb)
  have hlast : ∀ m < 2 ^ p.bits, p.item junk bins (bins.length - 1) (p.field m) = bins.count m := by
    intro m hm
    rw [item_field hm, take_of_length_le (by omega)]
  have hcnt : (bins.take (i + 1)).count b = (bins.take i).count b + 1 := by
    rw [take_add_one, hb, Option.toList_some, count_append, count_singleton_self]
  simp only [target, rank, hb, Option.getD_some]
  rw [foldl_lower hlast hlt, countIn_item hlt]
  omega

variable (p junk) in
def Scatters {V : Type} (bins : List Nat) (x y : List V) : Prop :=
  y.length = x.length ∧ ∀ i < x.length, y[p.target junk bins i]? = x[i]?

/-- **A pass places the elements of each array by their bins.** -/
lemma scatters_iff {x y : List V} (hlen : bins.length = x.length) (hbins : ∀ b ∈ bins, b < 2 ^ p.bits) :
    p.Scatters junk bins x y ↔ y = place (2 ^ p.bits) bins x := by
  constructor
  · rintro ⟨hy, h⟩
    refine eq_place hlen hbins hy fun i hi => ?_
    rw [← target_eq hbins (hlen ▸ hi), h i hi]
  · rintro rfl
    refine ⟨length_place hlen hbins, fun i hi => ?_⟩
    rw [target_eq hbins (hlen ▸ hi), getElem?_place hlen hbins hi]

end Parts

variable (bits base key : Nat)

def binNumber : Nat := (key >>> base) &&& (2 ^ bits - 1)

lemma binNumber_eq : binNumber bits base key = key / 2 ^ base % 2 ^ bits := by
  rw [binNumber, shiftRight_eq_div_pow, and_two_pow_sub_one_eq_mod]

lemma binNumber_lt : binNumber bits base key < 2 ^ bits := by
  rw [binNumber_eq]
  exact Nat.mod_lt _ (Nat.two_pow_pos bits)

end ClHost.Radix
