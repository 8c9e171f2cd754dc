import ClHost.Proofs.Array.Spacing

/-!
# Arrays seen as arrays of another type

Seen as elements of another size, an array is longer or shorter along its fastest axis, which is the one with the least
stride.
-/

namespace ClHost

open List hiding count

/-! ## The fastest axis -/

namespace Layout

variable {axis : Nat}

lemma fastestAxis?_spec {strides : List Int} (h : fastestAxis? strides = some axis) :
    ∃ s, strides[axis]? = some s ∧ ∀ t ∈ strides, s.natAbs ≤ t.natAbs := by
  obtain ⟨least, hleast, hfst⟩ := Option.bind_eq_some_iff.1 h
  obtain ⟨hlt, hs, -⟩ := findIdx?_eq_some_iff_getElem.1 hfst
  refine ⟨_, getElem?_eq_getElem hlt, fun t ht => ?_⟩
  rw [beq_iff_eq.1 hs]
  exact (min?_eq_some_iff.1 hleast).2 _ (mem_map_of_mem ht)

lemma reinterpret_ok {l v : Layout} {old new n s : Int} (h : l.reinterpret old new = .ok v)
    (haxis : fastestAxis? l.strides = some axis) (hn : l.shape[axis]? = some n) (hs : l.strides[axis]? = some s) :
    new ≠ 0 ∧ ∃ m, new * m = old * n ∧
      v = ⟨l.shape.set axis m, l.strides.set axis (Int.fdiv (s * new) old), l.offset⟩ := by
  simp only [reinterpret, haxis, hn, hs, Option.getD_some] at h
  split at h
  · cases h
  rename_i hnew
  split at h
  · cases h
  rename_i hdivides
  cases h
  refine ⟨by simpa using hnew, _, ?_, rfl⟩
  have hdvd : new ∣ n * old := Int.dvd_of_emod_eq_zero (by simpa using hdivides)
  rw [Int.mul_comm, Int.fdiv_mul_cancel hdvd, Int.mul_comm]

end Layout

/-! ## Axes in the order of their strides -/

namespace Axes

open Strides

def Grows : Int → List (Int × Int) → Prop
  | _, [] => True
  | size, (n, s) :: axes => (n = 1 ∨ s = size) ∧ Grows (size * n) axes

variable {size n s : Int} {axes front back : List (Int × Int)}

lemma grows_concat : Grows size (axes ++ [(n, s)]) ↔ Grows size axes ∧ (n = 1 ∨ s = size * count (axes.map (·.1))) := by
  induction axes generalizing size with
  | nil => simp [Grows, count_nil]
  | cons a axes ih => rw [cons_append, Grows, Grows, ih, map_cons, count_cons, mul_assoc, and_assoc]

variable {shape strides : List Int} {m t : Int}

lemma exists_grows {order : Order} (h : agree strides (ofOrder size shape order) shape = true) :
    ∃ axes, axes.Perm (shape.zip strides) ∧ Grows size axes := by
  cases order with
  | column =>
    refine ⟨_, .refl _, ?_⟩
    induction shape generalizing size strides with
    | nil => trivial
    | cons n shape ih =>
      obtain ⟨s, strides, rfl⟩ := exists_cons_of_length_eq_add_one (length_of_agree h)
      rw [ofOrder, columnMajor_cons, agree, Bool.and_eq_true, Bool.or_eq_true, beq_iff_eq, beq_iff_eq] at h
      exact ⟨h.1, ih h.2⟩
  | row =>
    refine ⟨_, reverse_perm _, ?_⟩
    induction shape generalizing strides with
    | nil => trivial
    | cons n shape ih =>
      obtain ⟨s, strides, rfl⟩ := exists_cons_of_length_eq_add_one (length_of_agree h)
      rw [ofOrder, rowMajor_cons, agree, Bool.and_eq_true, Bool.or_eq_true, beq_iff_eq, beq_iff_eq] at h
      rw [zip_cons_cons, reverse_cons, grows_concat, map_reverse, count_reverse, map_fst_zip (length_of_agree h.2).ge]
      exact ⟨ih h.2, h.1⟩

lemma Grows.perm_along (h : Grows size axes) (hpos : ∀ a ∈ axes, 1 ≤ a.1) :
    (offsets .row axes).Perm (along (count (axes.map (·.1))) size) := by
  refine (offsets_perm_row .column axes).symm.trans (Perm.of_eq ?_)
  induction axes generalizing size with
  | nil => simp [offsets, along, count_nil]
  | cons a axes ih =>
    obtain ⟨n, s⟩ := a
    rw [forall_mem_cons] at hpos
    have hcnt : 1 ≤ count (axes.map (·.1)) := one_le_count (by simpa using hpos.2)
    have halong : along n s = along n size := by
      rcases h.1 with rfl | rfl
      · rw [along_one, along_one]
      · rfl
    rw [offsets, ih h.2 hpos.2, nest, halong, spread_along (by omega) (by omega), map_cons, count_cons, mul_comm]

lemma Grows.fastest (h : Grows size (front ++ (n, s) :: back)) (hpos : ∀ a ∈ front, 1 ≤ a.1) (hsize : 0 < size)
    (hn : n ≠ 1) (hleast : ∀ a ∈ front, s.natAbs ≤ a.2.natAbs) :
    s = size ∧ (∀ a ∈ front, a.1 = 1) ∧ Grows (size * n) back := by
  induction front generalizing size with
  | nil => exact ⟨h.1.resolve_left hn, nofun, h.2⟩
  | cons a front ih =>
    obtain ⟨m, t⟩ := a
    rw [forall_mem_cons] at hpos hleast ⊢
    have hm : 1 ≤ m := hpos.1
    obtain ⟨rfl, hones, hback⟩ := ih h.2 hpos.2 (by positivity) hleast.2
    obtain rfl : m = 1 := by
      rcases h.1 with hone | rfl
      · exact hone
      · have hle : (t * m).natAbs ≤ t.natAbs := hleast.1
        rw [Int.natAbs_mul] at hle
        have ht : 0 < t.natAbs := by omega
        have hone : m.natAbs ≤ 1 := Nat.le_of_mul_le_mul_left (by omega) ht
        omega
    rw [mul_one] at hback ⊢
    exact ⟨rfl, ⟨rfl, hones⟩, hback⟩

lemma Grows.others (h : Grows size (front ++ (n, s) :: back)) (hpos : ∀ a ∈ front ++ (n, s) :: back, 1 ≤ a.1)
    (hsize : 0 < size) (hleast : ∀ a ∈ front, s.natAbs ≤ a.2.natAbs) :
    (n ≠ 1 → s = size) ∧ (offsets .row (front ++ back)).Perm (along (count ((front ++ back).map (·.1))) (size * n)) := by
  have hoths : ∀ a ∈ front ++ back, 1 ≤ a.1 := fun a ha =>
    hpos a (((sublist_cons_self (n, s) back).append_left front).subset ha)
  by_cases hn : n = 1
  · subst hn
    refine ⟨fun hne => absurd rfl hne, ?_⟩
    have hperm : (spread (along 1 s) (offsets .row (front ++ back))).Perm _ :=
      (offsets_perm perm_middle).symm.trans (h.perm_along hpos)
    rw [along_one, spread_zero_left] at hperm
    simpa [count_append, count_cons] using hperm
  · rw [forall_mem_append] at hpos hoths
    obtain ⟨hs, hones, hback⟩ := h.fastest hpos.1 hsize hn hleast
    refine ⟨fun _ => hs, ?_⟩
    have hcnt : count (front.map (·.1)) = 1 := by
      rw [count, ← prod_eq_foldl]
      exact prod_eq_one (by simpa using hones)
    rw [offsets_append, offsets_ones .row hones, nest_zero_left, map_append, count_append, hcnt, one_mul]
    exact hback.perm_along hoths.2

lemma mem_along {x : Int} : x ∈ along n s ↔ ∃ i : Nat, i < n.toNat ∧ s * i = x := by
  simp [along]

lemma spread_perm_along_iff (hn : 1 ≤ n) (hm : 1 ≤ m) (hsize : 0 < size) :
    (spread (along n (size * m)) (along m t)).Perm (along (n * m) size) ↔ m = 1 ∨ t = size := by
  constructor
  · intro h
    by_contra hneither
    rw [not_or] at hneither
    have htwo : 2 ≤ m := by omega
    have hmany : 2 ≤ n * m := by nlinarith
    -- The second element lies at a multiple of the size, and the size is a multiple of where it lies.
    have hsnd : t ∈ spread (along n (size * m)) (along m t) := by
      refine mem_flatMap.2 ⟨0, mem_along.2 ⟨0, by omega, by simp⟩, mem_map.2 ⟨t, mem_along.2 ⟨1, by omega, ?_⟩, ?_⟩⟩
      · simp
      · simp
    have hfst : size ∈ along (n * m) size := mem_along.2 ⟨1, by omega, by simp⟩
    obtain ⟨j, -, rfl⟩ := mem_along.1 (h.subset hsnd)
    obtain ⟨_, hx, hy⟩ := mem_flatMap.1 (h.symm.subset hfst)
    obtain ⟨i, -, rfl⟩ := mem_along.1 hx
    obtain ⟨_, hy, hsum⟩ := mem_map.1 hy
    obtain ⟨k, -, rfl⟩ := mem_along.1 hy
    have hone : m * i + j * k = 1 := by
      have hfactor : size * (m * i + j * k) = size * 1 := by linarith
      exact mul_left_cancel₀ hsize.ne' hfactor
    rcases Nat.eq_zero_or_pos i with rfl | hi
    · rw [Nat.cast_zero, mul_zero, zero_add] at hone
      have hprod : j * k = 1 := by exact_mod_cast hone
      rw [Nat.eq_one_of_mul_eq_one_right hprod] at hneither
      exact hneither.2 (by simp)
    · have hle : m * 1 ≤ m * i := mul_le_mul_of_nonneg_left (by exact_mod_cast hi) (by omega)
      have hnn : 0 ≤ (j : Int) * k := by positivity
      omega
  · rintro (rfl | rfl)
    · rw [along_one, spread_zero_right, mul_one, mul_one]
    · rw [spread_along (by omega) (by omega)]

lemma count_perm {xs ys : List Int} (h : xs.Perm ys) : count xs = count ys := by
  rw [count, count, ← prod_eq_foldl, ← prod_eq_foldl, h.prod_eq]

lemma zip_set_perm {axis : Nat} (hn : shape[axis]? = some n) (hs : strides[axis]? = some s)
    (h : (front ++ (n, s) :: back).Perm (shape.zip strides)) :
    ((shape.set axis m).zip (strides.set axis t)).Perm ((m, t) :: (front ++ back)) := by
  have hzip : (shape.set axis m).zip (strides.set axis t) = (shape.zip strides).set axis (m, t) := by
    apply ext_getElem?
    grind
  have hmid : (shape.zip strides)[axis]? = some (n, s) := getElem?_zip_eq_some.2 ⟨hn, hs⟩
  obtain ⟨hlt, hat⟩ := List.getElem?_eq_some_iff.1 hmid
  have hoths := (getElem_cons_eraseIdx_perm hlt).trans (h.symm.trans perm_middle)
  rw [hat] at hoths
  rw [hzip]
  exact (set_perm_cons_eraseIdx hlt _).trans (hoths.cons_inv.cons _)

end Axes

namespace DeviceArray

open Strides Axes

variable {a b : DeviceArray} {axis : Nat}

lemma exists_others (hsh : ∀ n ∈ a.shape, 1 ≤ n) (hcont : a.contiguity.any = true) (hsize : 0 < a.type.size)
    (haxis : Layout.fastestAxis? a.strides = some axis) :
    ∃ n s others, (a.shape[axis]? = some n ∧ a.strides[axis]? = some s) ∧ (n ≠ 1 → s = a.type.size) ∧
      (Axes.offsets .row others).Perm (along (count (others.map (·.1))) (a.type.size * n)) ∧
      1 ≤ count (others.map (·.1)) ∧
      ∀ m t, ((a.shape.set axis m).zip (a.strides.set axis t)).Perm ((m, t) :: others) := by
  obtain ⟨order, hord⟩ := exists_order hcont
  obtain ⟨axes, hperm, hgrows⟩ := exists_grows hord
  obtain ⟨s, hs, hleast⟩ := Layout.fastestAxis?_spec haxis
  obtain ⟨n, hn⟩ : ∃ n, a.shape[axis]? = some n :=
    ⟨_, getElem?_eq_getElem (length_of_agree hord ▸ (List.getElem?_eq_some_iff.1 hs).1)⟩
  have hmem : (n, s) ∈ axes := hperm.mem_iff.2 (mem_of_getElem? (getElem?_zip_eq_some.2 ⟨hn, hs⟩))
  obtain ⟨front, back, rfl⟩ := append_of_mem hmem
  have hpos : ∀ x ∈ front ++ (n, s) :: back, 1 ≤ x.1 := fun x hx => hsh x.1 (of_mem_zip (hperm.mem_iff.1 hx)).1
  obtain ⟨hstride, hoths⟩ := hgrows.others hpos (by omega) fun x hx =>
    hleast x.2 (of_mem_zip (hperm.mem_iff.1 (mem_append_left _ hx))).2
  refine ⟨n, s, front ++ back, ⟨hn, hs⟩, hstride, hoths, one_le_count ?_, fun m t => zip_set_perm hn hs hperm⟩
  intro k hk
  obtain ⟨x, hx, rfl⟩ := mem_map.1 hk
  exact hpos x (((sublist_cons_self _ back).append_left front).subset hx)

/-- **When a view of another type covers the array.** Its elements lie next to each other and fill the bytes of the
array just if the axis of the least stride is longer than one, stays one element long, or gets the stride of an
element. -/
theorem reinterpret_covers_iff {t : ElementType} (hsh : ∀ n ∈ a.shape, 1 ≤ n) (hcont : a.contiguity.any = true)
    (hsize : 0 < a.type.size) (h : a.reinterpret t = .ok b) (haxis : Layout.fastestAxis? a.strides = some axis) :
    b.offset = a.offset ∧ b.size * t.size = a.size * a.type.size ∧
      (b.offsets.Perm (along b.size t.size) ↔
        a.shape[axis]? ≠ some 1 ∨ b.shape[axis]? = some 1 ∨ b.strides[axis]? = some (t.size : Int)) := by
  obtain ⟨n, s, others, ⟨hn, hs⟩, hstride, hoths, hcnt, hset⟩ := exists_others hsh hcont hsize haxis
  obtain ⟨v, hv, hb⟩ := of_bind_ok h
  obtain ⟨hnew, m, hby, rfl⟩ := Layout.reinterpret_ok hv haxis hn hs
  generalize hstride' : Int.fdiv (s * t.size) a.type.size = stride at hb
  obtain ⟨hsh', hstr', hoff⟩ :
      b.shape = a.shape.set axis m ∧ b.strides = a.strides.set axis stride ∧ b.offset = a.offset := by
    cases hb
    exact ⟨rfl, rfl, rfl⟩
  obtain ⟨order, hord⟩ := exists_order hcont
  have hlen := length_of_agree hord
  have hcnts : ∀ k : Int, count (a.shape.set axis k) = count (others.map (·.1)) * k := by
    intro k
    have hfst := count_perm ((hset k 0).map (·.1))
    rwa [map_fst_zip (by simpa using hlen.ge), map_cons, count_cons, mul_comm] at hfst
  have hold : a.size = count (others.map (·.1)) * n := by
    obtain ⟨hlt, rfl⟩ := List.getElem?_eq_some_iff.1 hn
    rw [← hcnts, set_getElem_self, size]
  have hm : 1 ≤ m := by
    have hn1 : 1 ≤ n := hsh n (mem_of_getElem? hn)
    have hpos : 0 < (t.size : Int) * m := by
      rw [hby]
      positivity
    exact pos_of_mul_pos_right hpos (by omega)
  have hoffs : b.offsets.Perm (spread (along (count (others.map (·.1))) (t.size * m)) (along m stride)) := by
    rw [offsets_eq_axes (by rw [hsh', hstr', length_set, length_set, hlen]), hsh', hstr', hby]
    exact (offsets_perm (hset m stride)).trans ((spread_perm (.refl _) hoths).trans (spread_comm _ _))
  refine ⟨hoff, ?_, ?_⟩
  · rw [size, hsh', hcnts, hold, mul_assoc, mul_assoc, mul_comm m, hby, mul_comm n]
  · rw [hoffs.congr_left, size, hsh', hcnts, hstr', spread_perm_along_iff hcnt hm (by omega), hn,
      getElem?_set_self (List.getElem?_eq_some_iff.1 hn).1, getElem?_set_self (List.getElem?_eq_some_iff.1 hs).1,
      ne_eq, Option.some_inj, Option.some_inj, Option.some_inj]
    refine ⟨.inr, fun h => h.elim (fun hlong => .inr ?_) id⟩
    rw [← hstride', hstride hlong, Int.mul_fdiv_cancel_left _ (by omega)]

theorem reinterpret_covers_newAxis :
    let a : DeviceArray := { (default : DeviceArray) with type := .number .int32, shape := [1, 4], strides := [0, 4] }
    let b : DeviceArray := { a with type := .number .int8, shape := [4, 4], strides := [0, 4] }
    a.contiguity.any = true ∧ a.reinterpret (.number .int8) = .ok b ∧ ¬ b.offsets.Perm (along b.size 1) := by
  intro a b
  have hb : a.reinterpret (.number .int8) = .ok b := by cbv
  refine ⟨by decide, hb, fun hperm => ?_⟩
  have hcovers := (reinterpret_covers_iff (by decide) (by decide) (by decide) hb rfl).2.2.1 hperm
  exact absurd hcovers (by decide)

end DeviceArray

/-! ## Arrays without their short axes -/

open List hiding count

namespace Strides

def restore : List Int → List Nat → List Nat
  | [], _ => []
  | n :: ns, index => if n = 1 then 0 :: restore ns index else index.headD 0 :: restore ns index.tail

variable {shape strides : List Int} {index : List Nat}

lemma count_long (h : ∀ n ∈ shape, 1 ≤ n) : count (shape.filter (1 < ·)) = count shape := by
  induction shape with
  | nil => rfl
  | cons n ns ih =>
    rw [forall_mem_cons] at h
    rw [filter_cons, count_cons, ← ih h.2]
    split
    · rw [count_cons]
    · rename_i hshort
      obtain rfl : n = 1 := le_antisymm (by simpa using hshort) h.1
      rw [one_mul]

lemma restore_spec (hlen : strides.length = shape.length) (h : ∀ n ∈ shape, 1 ≤ n)
    (hidx : InShape (shape.filter (1 < ·)) index) : InShape shape (restore shape index) ∧
      byteOffset (((shape.zip strides).filter fun a => 1 < a.1).map (·.2)) index =
        byteOffset strides (restore shape index) := by
  induction shape generalizing strides index with
  | nil =>
    cases hidx
    exact ⟨.nil, by rw [byteOffset_nil_right, restore, byteOffset_nil_right]⟩
  | cons n ns ih =>
    obtain ⟨s, strides, rfl⟩ := exists_cons_of_length_eq_add_one hlen
    rw [forall_mem_cons] at h
    rw [restore, zip_cons_cons]
    rcases eq_or_lt_of_le h.1 with rfl | hlong
    · obtain ⟨hrest, hoff⟩ := ih (Nat.succ.inj hlen) h.2 (by simpa using hidx)
      rw [if_pos rfl, filter_cons_of_neg (by simp), hoff, byteOffset_cons]
      exact ⟨.cons (by decide) hrest, by simp⟩
    · rw [filter_cons_of_pos (by simpa using hlong)] at hidx ⊢
      cases hidx with
      | cons hi hidx =>
        obtain ⟨hrest, hoff⟩ := ih (Nat.succ.inj hlen) h.2 hidx
        rw [if_neg hlong.ne', map_cons, byteOffset_cons, byteOffset_cons, hoff]
        exact ⟨.cons hi hrest, rfl⟩

end Strides

namespace DeviceArray

open Strides

lemma squeeze_shape {a : DeviceArray} (hstr : a.strides.length = a.shape.length) :
    a.squeeze.shape = a.shape.filter (1 < ·) := by
  conv_rhs => rw [← map_fst_zip hstr.ge, filter_map]
  rfl

/-- **Squeezing keeps the elements** just if the array has no axis of length zero: the view has as many, and each lies
where the array has it, with zeros at the axes of length one. -/
theorem squeeze_keeps_iff (a : DeviceArray) (hsh : ∀ n ∈ a.shape, 0 ≤ n)
    (hstr : a.strides.length = a.shape.length) :
    (a.squeeze.buffer = a.buffer ∧ a.squeeze.size = a.size ∧ ∀ index, InShape a.squeeze.shape index →
      InShape a.shape (restore a.shape index) ∧
        a.squeeze.layout.address index = a.layout.address (restore a.shape index)) ↔ 0 ∉ a.shape := by
  have hsize : a.squeeze.size = count (a.shape.filter (1 < ·)) := congrArg count (squeeze_shape hstr)
  rw [hsize, squeeze_shape hstr]
  constructor
  · rintro ⟨-, hcnt, -⟩ hzero
    have hlong : 1 ≤ count (a.shape.filter (1 < ·)) := one_le_count fun n hn => by
      have : 1 < n := by simpa using (mem_filter.1 hn).2
      omega
    exact absurd (one_le_of_count_ne hsh (by rw [size] at hcnt; omega) 0 hzero) (by decide)
  · intro hzero
    have hpos : ∀ n ∈ a.shape, 1 ≤ n := fun n hn =>
      lt_of_le_of_ne (hsh n hn) fun h => hzero (h ▸ hn)
    refine ⟨rfl, count_long hpos, fun index hidx => ?_⟩
    obtain ⟨hin, hoff⟩ := restore_spec hstr hpos hidx
    exact ⟨hin, congrArg (a.offset + ·) hoff⟩

theorem squeeze_empty :
    let a : DeviceArray := { (default : DeviceArray) with shape := [0, 3], strides := [12, 4] }
    a.size = 0 ∧ a.squeeze.size = 3 ∧ ¬ (a.squeeze.buffer = a.buffer ∧ a.squeeze.size = a.size ∧
      ∀ index, InShape a.squeeze.shape index → InShape a.shape (restore a.shape index) ∧
        a.squeeze.layout.address index = a.layout.address (restore a.shape index)) := by
  intro a
  exact ⟨by decide, by decide, fun h => (squeeze_keeps_iff a (by decide) rfl).1 h (by decide)⟩

end DeviceArray

/-! ## An ellipsis in an index -/

open List Nat IndexRange

namespace IndexEntry

def full : IndexEntry := .slice none none none

def taken : IndexEntry → Nat
  | .slice _ _ _ => 1
  | .position _ => 1
  | _ => 0

structure Comes (l : Layout) (axes : List (Int × Option Int)) (front : List IndexEntry) (reached : Option Layout) :
    Prop where
  le : reached.isSome → (front.map taken).sum ≤ axes.length
  eq : ∀ seen number rest, (applyFrom seen l axes number (front ++ rest)).toOption = reached.bind fun next =>
    (applyFrom seen next (axes.drop (front.map taken).sum) (number + front.length) rest).toOption

variable {seen : Bool} {l : Layout} {axes : List (Int × Option Int)} {number : Nat} {e : IndexEntry}
  {front rest : List IndexEntry}

lemma comes_fails (h : ∀ seen number rest, (applyFrom seen l axes number (e :: (front ++ rest))).toOption = none) :
    Comes l axes (e :: front) none := ⟨nofun, h⟩

lemma Comes.cons {n s : Int} {next : Layout} {reached : Option Layout} (h : Comes next axes front reached)
    (he : e.taken = 1) (hnext : ∀ seen number rest, applyFrom seen l ((n, some s) :: axes) number (e :: (front ++ rest)) =
      applyFrom seen next axes (number + 1) (front ++ rest)) : Comes l ((n, some s) :: axes) (e :: front) reached := by
  have hsum : ((e :: front).map taken).sum = (front.map taken).sum + 1 := by
    rw [map_cons, sum_cons, he, add_comm]
  constructor
  · intro hsome
    rw [hsum]
    exact succ_le_succ (h.le hsome)
  · intro seen number rest
    rw [hsum, cons_append, hnext, length_cons, ← add_assoc, add_right_comm]
    exact h.eq seen (number + 1) rest

lemma exists_comes (h : .ellipsis ∉ front) (l : Layout) (axes : List (Int × Option Int)) :
    ∃ reached, Comes l axes front reached := by
  induction front generalizing l axes with
  | nil => exact ⟨some l, by simp, fun _ _ _ => rfl⟩
  | cons e front ih =>
    replace ih := ih fun hmem => h (mem_cons_of_mem _ hmem)
    cases e with
    | ellipsis => exact absurd mem_cons_self h
    | other => exact ⟨none, comes_fails fun _ _ _ => by cases axes <;> rfl⟩
    | newAxis =>
      obtain ⟨reached, hle, heq⟩ := ih (l.push 1 0) axes
      refine ⟨reached, by simpa [taken] using hle, fun seen number rest => ?_⟩
      have hrest := heq seen (number + 1) rest
      rw [add_assoc, add_comm 1] at hrest
      cases axes <;> simpa [taken, applyFrom] using hrest
    | slice start stop step =>
      cases axes with
      | nil => exact ⟨none, comes_fails fun _ _ _ => rfl⟩
      | cons a axes =>
        obtain ⟨n, stride⟩ := a
        cases hr : ofSlice start stop step n with
        | error => exact ⟨none, comes_fails fun _ _ _ => by simp only [applyFrom, hr]; rfl⟩
        | ok =>
          cases stride with
          | none => exact ⟨none, comes_fails fun _ _ _ => by rw [applyFrom_slice hr]; rfl⟩
          | some =>
            obtain ⟨reached, hrch⟩ := ih _ axes
            exact ⟨reached, hrch.cons rfl fun _ _ _ => applyFrom_slice hr⟩
    | position i =>
      cases axes with
      | nil => exact ⟨none, comes_fails fun _ _ _ => rfl⟩
      | cons a axes =>
        obtain ⟨n, stride⟩ := a
        by_cases hi : -n ≤ i ∧ i < n
        · obtain ⟨p, hlt, hp⟩ := exists_place hi
          cases stride with
          | none => exact ⟨none, comes_fails fun _ _ _ => by rw [applyFrom_position hlt hp]; rfl⟩
          | some =>
            obtain ⟨reached, hrch⟩ := ih _ axes
            exact ⟨reached, hrch.cons rfl fun _ _ _ => applyFrom_position hlt hp⟩
        · exact ⟨none, comes_fails fun _ _ _ => by rw [applyFrom_position_outside (by omega)]; rfl⟩

lemma toOption_applyFrom (h : .ellipsis ∉ front) (seen' : Bool) (number' : Nat) :
    (applyFrom seen l axes number front).toOption = (applyFrom seen' l axes number' front).toOption := by
  obtain ⟨reached, hrch⟩ := exists_comes h l axes
  have heq := hrch.eq seen number []
  have heq' := hrch.eq seen' number' []
  rw [append_nil] at heq heq'
  rw [heq, heq']
  simp only [applyFrom]

lemma applyFrom_ellipsis : applyFrom seen l axes number (.ellipsis :: rest) =
      if axes.length < rest.length then .error (refusal "invalid use of ellipsis in index")
      else l.pushAll (axes.take (axes.length - rest.length)) >>= fun next =>
        if seen then .error (refusal "more than one ellipsis not allowed in index")
        else applyFrom true next (axes.drop (axes.length - rest.length)) (number + 1) rest := by
  cases axes <;> cases seen <;> (simp only [applyFrom]; split <;> rfl)

lemma applyFrom_full (haxes : ∀ a ∈ axes, 0 ≤ a.1) {k : Nat} (hk : k ≤ axes.length) :
    applyFrom seen l axes number (List.replicate k full ++ rest) =
      l.pushAll (axes.take k) >>= fun next => applyFrom seen next (axes.drop k) (number + k) rest := by
  induction k generalizing l axes number with
  | zero => rfl
  | succ k ih =>
    obtain ⟨⟨n, stride⟩, axes, rfl⟩ := exists_cons_of_length_pos (lt_of_lt_of_le (succ_pos k) hk)
    rw [forall_mem_cons] at haxes
    have hr : ofSlice none none none n = .ok ⟨0, n, 1⟩ := by
      simp [ofSlice, Int.not_lt.2 haxes.1]
    have hstps : (⟨0, n, 1⟩ : IndexRange).steps = n := by
      simp [steps, Int.fdiv_one, abs_of_nonneg haxes.1]
    refine (applyFrom_slice hr).trans ?_
    rw [hstps]
    cases stride with
    | none => rfl
    | some s =>
      have hrest := @ih (l.push n s) axes (number + 1) haxes.2 (le_of_succ_le_succ hk)
      rw [add_assoc, add_comm 1] at hrest
      simp only [mul_zero, add_zero, one_mul]
      exact hrest

lemma toOption_ellipsis (hfr : .ellipsis ∉ front)
    (h : seen = true ∨ ∀ next axes number, (applyFrom true next axes number rest).toOption = none) :
    (applyFrom seen l axes number (front ++ .ellipsis :: rest)).toOption = none := by
  obtain ⟨reached, hrch⟩ := exists_comes hfr l axes
  rw [hrch.eq, Option.bind_eq_none_iff]
  intro next _
  rw [applyFrom_ellipsis]
  split
  · rfl
  · cases next.pushAll _ with
    | error => rfl
    | ok v =>
      cases seen with
      | true => rfl
      | false => exact h.resolve_left nofun v _ _

end IndexEntry

namespace Layout

open IndexEntry

variable {l : Layout} {before after : List IndexEntry}

lemma toOption_index_ellipsis (hsh : ∀ n ∈ l.shape, 0 ≤ n) (hbef : .ellipsis ∉ before) (haft : .ellipsis ∉ after) :
    (l.index (before ++ .ellipsis :: after)).toOption =
      if l.shape.length < (before.map taken).sum + after.length then none
      else (l.index (before ++ (List.replicate (l.shape.length - ((before.map taken).sum + after.length)) full ++
        after))).toOption := by
  obtain ⟨reached, hrch⟩ := exists_comes hbef ⟨[], [], l.offset⟩ (axes l.shape l.strides)
  have hlen : (axes l.shape l.strides).length = l.shape.length := by
    rw [← length_map, Reshape.map_fst_axes]
  have hnn : ∀ a ∈ (axes l.shape l.strides).drop (before.map taken).sum, 0 ≤ a.1 := fun a ha =>
    hsh a.1 (Reshape.map_fst_axes l.shape l.strides ▸ mem_map_of_mem (mem_of_mem_drop ha))
  rw [index, index, hrch.eq, hrch.eq]
  cases reached with
  | none => simp
  | some next =>
    have hle := hrch.le rfl
    simp only [Option.bind_some]
    rw [applyFrom_ellipsis, length_drop, hlen]
    by_cases hfew : l.shape.length < (before.map taken).sum + after.length
    · rw [if_pos (by omega), if_pos hfew]
      rfl
    · rw [if_neg (by omega), if_neg hfew, applyFrom_full hnn (by rw [length_drop, hlen]; omega), Nat.sub_sub]
      cases next.pushAll _ with
      | error => rfl
      | ok => exact toOption_applyFrom haft false _

end Layout

namespace DeviceArray

open IndexEntry

lemma toOption_index (a : DeviceArray) (entries : List IndexEntry) :
    (a.index entries).toOption = (a.layout.index entries).toOption.map a.view := by
  unfold index
  cases a.layout.index entries <;> rfl

/-- **An ellipsis stands for whole slices**: for as many as the array has axes more than are taken before it and there
are entries behind it. With fewer axes the index is refused, and so is one with a second ellipsis. -/
theorem index_ellipsis (a : DeviceArray) (before after : List IndexEntry) (hsh : ∀ n ∈ a.shape, 0 ≤ n)
    (hbef : .ellipsis ∉ before) :
    (.ellipsis ∈ after → (a.index (before ++ .ellipsis :: after)).toOption = none) ∧
    (.ellipsis ∉ after → (a.index (before ++ .ellipsis :: after)).toOption =
      if a.shape.length < (before.map taken).sum + after.length then none
      else (a.index (before ++ (List.replicate (a.shape.length - ((before.map taken).sum + after.length)) full ++
        after))).toOption) := by
  refine ⟨fun haft => ?_, fun haft => ?_⟩
  · obtain ⟨front, back, rfl, hfr⟩ := eq_append_cons_of_mem haft
    rw [toOption_index, Layout.index, toOption_ellipsis hbef (.inr fun _ _ _ => toOption_ellipsis hfr (.inl rfl))]
    rfl
  · rw [toOption_index, toOption_index, Layout.toOption_index_ellipsis hsh hbef haft]
    exact apply_ite (Option.map a.view) _ _ _

theorem index_ellipsis_newAxis :
    let a : DeviceArray := { (default : DeviceArray) with shape := [2, 3], strides := [12, 4] }
    (a.index [.ellipsis, .newAxis]).toOption = (a.index [full, .newAxis]).toOption ∧
      (a.index [.ellipsis, .newAxis]).toOption.map (·.shape) = some [2, 1, 3] ∧
      (a.index [full, full, .newAxis]).toOption.map (·.shape) = some [2, 3, 1] := by
  intro a
  exact ⟨(index_ellipsis a [] [.newAxis] (by decide) (by decide)).2 (by decide), by cbv, by cbv⟩

end DeviceArray

end ClHost
