import Mathlib.Tactic.Linarith
import Mathlib.Tactic.Ring
import ClHost.Scan.Source

/-!
# The intervals of a scan

A scan splits its elements into intervals of whole units. A group walks through its interval unit by unit, and keeps
the elements of a unit in cells of local memory; the last unit may be cut short.
-/

namespace ClHost

/-! ## Numbers of an index type -/

/-- What a variable of an integer type keeps of a number. -/
def Primitive.wrap (p : Primitive) (x : Int) : Int := (x - p.least) % (p.greatest - p.least + 1) + p.least

def Primitive.InRange (p : Primitive) (x : Int) : Prop := p.least ≤ x ∧ x ≤ p.greatest

instance (p : Primitive) (x : Int) : Decidable (p.InRange x) := inferInstanceAs (Decidable (_ ∧ _))

lemma Primitive.InRange.wrap_eq {p : Primitive} {x : Int} (h : p.InRange x) : p.wrap x = x := by
  obtain ⟨hleast, hgreatest⟩ := h
  rw [wrap, Int.emod_eq_of_lt (by omega) (by omega), Int.sub_add_cancel]

lemma Primitive.wrap_of_nonneg {p : Primitive} {x : Int} (hx : 0 ≤ x) (hgreatest : x ≤ p.greatest) : p.wrap x = x :=
  InRange.wrap_eq ⟨le_trans (by cases p <;> decide) hx, hgreatest⟩

/-- The rounds of a loop that goes on while a condition holds: from `i`, it comes to `j` in the round. -/
inductive LoopRuns (condition : Int → Prop) (next : Int → Int) : Int → Nat → Int → Prop
  | first {i : Int} : condition i → LoopRuns condition next i 0 i
  | next {i j : Int} {round : Nat} : condition i → LoopRuns condition next (next i) round j →
    LoopRuns condition next i (round + 1) j

/-- **A loop goes through a sequence** that it follows as long as its condition holds. -/
lemma loopRuns_iff {condition : Int → Prop} {next : Int → Int} (f : Nat → Int)
    (hnext : ∀ k, condition (f k) → next (f k) = f (k + 1)) (hback : ∀ k, condition (f (k + 1)) → condition (f k))
    (k : Nat) {round : Nat} {j : Int} : LoopRuns condition next (f k) round j ↔ j = f (k + round) ∧ condition j := by
  induction round generalizing k with
  | zero =>
    constructor
    · rintro ⟨hk⟩
      exact ⟨rfl, hk⟩
    · rintro ⟨rfl, hk⟩
      exact .first hk
  | succ round ih =>
    rw [← Nat.add_assoc, Nat.add_right_comm]
    constructor
    · rintro (_ | ⟨hk, h⟩)
      exact (ih (k + 1)).1 (hnext k hk ▸ h)
    · intro h
      have hk : condition (f k) := by
        have hall : ∀ m, condition (f (k + m)) → condition (f k) := fun m => by
          induction m with
          | zero => exact id
          | succ m ihm => exact fun hm => ihm (hback _ hm)
        rw [h.1, Nat.add_right_comm, Nat.add_assoc] at h
        exact hall _ h.2
      exact .next hk (hnext k hk ▸ (ih (k + 1)).2 h)

namespace Scan

open List Nat

/-! ## Splitting into intervals -/

/-- What is asked of intervals for `n` elements: they are made of whole units, hold all elements, and would not
do so if there was one less. -/
structure Splitting.Splits (s : Splitting) (n unit : Int) : Prop where
  whole : unit ∣ s.size
  room : n ≤ s.count * s.size
  needed : (s.count - 1) * s.size < n

section Split

variable {n size unit most : Int}

lemma le_partsOf_mul (hsize : 0 < size) (n : Int) : n ≤ partsOf n size * size := by
  rw [partsOf, Int.fdiv_eq_ediv_of_nonneg _ hsize.le]
  have hdiv := Int.mul_ediv_add_emod (-n) size
  have hmod := Int.emod_nonneg (-n) hsize.ne'
  linarith [mul_comm size (-n / size)]

lemma partsOf_mul_lt (hsize : 0 < size) (n : Int) : (partsOf n size - 1) * size < n := by
  rw [partsOf, Int.fdiv_eq_ediv_of_nonneg _ hsize.le]
  have hdiv := Int.mul_ediv_add_emod (-n) size
  have hmod := Int.emod_lt_of_pos (-n) hsize
  linarith [mul_comm size (-n / size)]

lemma partsOf_pos (hsize : 0 < size) (hn : 0 < n) : 0 < partsOf n size :=
  (mul_pos_iff_of_pos_right hsize).1 (hn.trans_le (le_partsOf_mul hsize n))

lemma splits_partsOf (hsize : 0 < size) (hunit : unit ∣ size) (n : Int) :
    Splitting.Splits ⟨size, partsOf n size⟩ n unit := ⟨hunit, le_partsOf_mul hsize n, partsOf_mul_lt hsize n⟩

/-- **Elements are split as asked.** -/
lemma splits_of_split {s : Splitting} (h : split n unit most = some s) (hn : 0 < n) (hunit : 0 < unit)
    (hmost : 0 ≤ most) : s.Splits n unit := by
  have huns := partsOf_pos hunit hn
  unfold split at h
  simp only [beq_iff_eq, hunit.ne', if_false] at h
  split at h
  · cases h
    exact splits_partsOf hunit (dvd_refl unit) n
  · -- Units are put together only if there are more of them than intervals may be.
    split at h
    · cases h
    · rename_i hzero
      cases h
      have hpts : 0 < partsOf (partsOf n unit) most := partsOf_pos (lt_of_le_of_ne hmost (Ne.symm hzero)) huns
      exact splits_partsOf (mul_pos hpts hunit) (Dvd.intro_left _ rfl) n

end Split

namespace Splitting

variable {s : Splitting} {n unit : Int}

lemma Splits.size_pos (h : s.Splits n unit) : 0 < s.size := by
  have hroom := h.room
  have hneeded := h.needed
  linarith [sub_mul s.count 1 s.size]

lemma Splits.count_pos (h : s.Splits n unit) (hn : 0 < n) : 0 < s.count :=
  (mul_pos_iff_of_pos_right h.size_pos).1 (hn.trans_le h.room)

/-- Where an interval begins. -/
def start (s : Splitting) (g : Int) : Int := s.size * g

variable (p : Primitive)

/-- The first element of a group and the one after its last, as the kernels reckon them in the index type. -/
def bounds (s : Splitting) (n g : Int) : Int × Int :=
  (p.wrap (s.start g), min (p.wrap (p.wrap (s.start g) + s.size)) n)

structure Partitions (s : Splitting) (n : Int) : Prop where
  nonempty : ∀ g, 0 ≤ g → g < s.count → (s.bounds p n g).1 < (s.bounds p n g).2
  unique : ∀ i, 0 ≤ i → i < n → ∃! g, (0 ≤ g ∧ g < s.count) ∧ (s.bounds p n g).1 ≤ i ∧ i < (s.bounds p n g).2
  inside : ∀ g i, 0 ≤ g → g < s.count → (s.bounds p n g).1 ≤ i → i < (s.bounds p n g).2 → 0 ≤ i ∧ i < n

variable {p}

lemma Splits.bounds_eq (h : s.Splits n unit) (hends : s.count * s.size ≤ p.greatest) {g : Int} (hg : 0 ≤ g)
    (hcnt : g < s.count) : s.bounds p n g = (s.start g, min (s.start g + s.size) n) := by
  have hsize := h.size_pos
  have hst : 0 ≤ s.start g := mul_nonneg hsize.le hg
  have hend : s.start g + s.size ≤ s.count * s.size := by
    calc s.start g + s.size = (g + 1) * s.size := by rw [start]; ring
      _ ≤ s.count * s.size := mul_le_mul_of_nonneg_right hcnt hsize.le
  rw [bounds, Primitive.wrap_of_nonneg hst (by omega), Primitive.wrap_of_nonneg (by omega) (by omega)]

/-- **The intervals of a splitting are a partition of the elements** if the index type has room for them. -/
lemma Splits.partitions (h : s.Splits n unit) (hends : s.count * s.size ≤ p.greatest) : s.Partitions p n where
  nonempty g hg hcnt := by
    have hlast : g * s.size ≤ (s.count - 1) * s.size :=
      Int.mul_le_mul_of_nonneg_right (by omega) h.size_pos.le
    have hneeded := h.needed
    rw [h.bounds_eq hends hg hcnt]
    refine lt_min ?_ ?_
    · linarith [h.size_pos]
    · rw [start]
      linarith [mul_comm s.size g]
  unique i hi hn := by
    have hsize := h.size_pos
    have hg : 0 ≤ i / s.size := Int.ediv_nonneg hi hsize.le
    have hcnt : i / s.size < s.count := Int.ediv_lt_of_lt_mul hsize (hn.trans_le h.room)
    refine ⟨i / s.size, ⟨⟨hg, hcnt⟩, ?_⟩, fun g ⟨⟨hg, hcnt⟩, hst, hstop⟩ => ?_⟩
    · rw [h.bounds_eq hends hg hcnt]
      exact ⟨Int.mul_ediv_self_le hsize.ne', lt_min (Int.lt_mul_ediv_self_add hsize) hn⟩
    · rw [h.bounds_eq hends hg hcnt] at hst hstop
      replace hstop : i < s.size * g + s.size := hstop.trans_le (min_le_left _ _)
      symm
      rw [Int.ediv_eq_iff_of_pos hsize]
      rw [start] at hst
      constructor <;> linarith [mul_comm s.size g, add_mul g 1 s.size]
  inside g i hg hcnt hst hstop := by
    rw [h.bounds_eq hends hg hcnt] at hst hstop
    exact ⟨(mul_nonneg h.size_pos.le hg).trans hst, hstop.trans_le (min_le_right _ _)⟩

end Splitting

def GroupShape.unit (g : GroupShape) : Nat := g.group * g.run

end Scan

/-! ## Bounds of the intervals of a scan -/

namespace Scan

variable {n unit most : Int} {s : Splitting}

namespace Splitting

lemma Splits.end_lt (h : s.Splits n unit) {g : Int} (hg : g + 1 < s.count) : s.start g + s.size < n := by
  have hmul : (g + 1) * s.size ≤ (s.count - 1) * s.size := mul_le_mul_of_nonneg_right (by omega) h.size_pos.le
  calc s.start g + s.size = (g + 1) * s.size := by rw [start]; ring
    _ ≤ (s.count - 1) * s.size := hmul
    _ < n := h.needed

/-- **All ends of intervals are at most some number just if the elements fill no interval beyond it.** -/
lemma Splits.ends_le_iff (h : s.Splits n unit) (hn : 0 < n) (bound : Int) :
    (∀ g, 0 ≤ g → g < s.count → s.start g + s.size ≤ bound) ↔ n ≤ bound / s.size * s.size := by
  have hsize := h.size_pos
  constructor
  · intro hends
    have hcnt : 0 < s.count := h.count_pos hn
    have hlast := hends (s.count - 1) (by omega) (by omega)
    have hpts : s.count ≤ bound / s.size := (Int.le_ediv_iff_mul_le hsize).2 (by rw [start] at hlast; linarith)
    exact h.room.trans (mul_le_mul_of_nonneg_right hpts hsize.le)
  · intro hroom g _ hg
    have hpts : s.count - 1 < bound / s.size := lt_of_mul_lt_mul_right (h.needed.trans_le hroom) hsize.le
    have hend : (g + 1) * s.size ≤ bound / s.size * s.size := mul_le_mul_of_nonneg_right (by omega) hsize.le
    calc s.start g + s.size = (g + 1) * s.size := by rw [start]; ring
      _ ≤ bound / s.size * s.size := hend
      _ ≤ bound := Int.ediv_mul_le bound hsize.ne'

/-- **The values of all intervals fit into one just if there are no more elements than the square of its size.** -/
lemma Splits.count_le_iff (h : s.Splits n unit) : s.count ≤ s.size ↔ n ≤ s.size * s.size := by
  have hsize := h.size_pos
  constructor
  · intro hcnt
    exact h.room.trans (mul_le_mul_of_nonneg_right hcnt hsize.le)
  · intro hn
    have hlast : s.count - 1 < s.size := lt_of_mul_lt_mul_right (h.needed.trans_le hn) hsize.le
    omega

end Splitting

lemma le_most_mul_of_split (h : split n unit most = some s) (hunit : 0 < unit) (hmost : 0 ≤ most) :
    n ≤ most * s.size := by
  have huns := le_partsOf_mul hunit n
  unfold split at h
  simp only [beq_iff_eq, hunit.ne', if_false] at h
  split at h
  · rename_i hle
    cases h
    exact huns.trans (mul_le_mul_of_nonneg_right hle hunit.le)
  · split at h
    · cases h
    · rename_i hzero
      cases h
      have hpts := le_partsOf_mul (lt_of_le_of_ne hmost (Ne.symm hzero)) (partsOf n unit)
      calc n ≤ partsOf n unit * unit := huns
        _ ≤ partsOf (partsOf n unit) most * most * unit := mul_le_mul_of_nonneg_right hpts hunit.le
        _ = most * (partsOf (partsOf n unit) most * unit) := by ring

lemma count_le_of_split (h : split n unit most = some s) (hn : 0 < n) (hunit : 0 < unit) (hmost : 0 ≤ most) :
    s.count ≤ most := by
  have hs := splits_of_split h hn hunit hmost
  have hlast : s.count - 1 < most :=
    lt_of_mul_lt_mul_right (hs.needed.trans_le (le_most_mul_of_split h hunit hmost)) hs.size_pos.le
  omega

/-- **The values of all intervals fit into one for all numbers of elements just if there are at most as many intervals
as a unit has elements.** -/
lemma forall_count_le_iff (hunit : 0 < unit) (hmost : 0 ≤ most) :
    (∀ m s, 0 < m → split m unit most = some s → s.count ≤ s.size) ↔ most ≤ unit := by
  constructor
  · intro hall
    by_contra hless
    -- One unit more than the square of a unit is still split into single units.
    have hpts : partsOf ((unit + 1) * unit) unit = unit + 1 := by
      rw [partsOf, ← neg_mul, Int.mul_fdiv_cancel _ hunit.ne', neg_neg]
    have hspl : split ((unit + 1) * unit) unit most = some ⟨unit, unit + 1⟩ := by
      simp only [split, beq_iff_eq, hunit.ne', if_false, hpts]
      rw [if_pos (by omega)]
    have hcnt := hall _ _ (mul_pos (by omega) hunit) hspl
    dsimp only at hcnt
    omega
  · intro hle m s hm h
    have hs := splits_of_split h hm hunit hmost
    calc s.count ≤ most := count_le_of_split h hm hunit hmost
      _ ≤ unit := hle
      _ ≤ s.size := Int.le_of_dvd hs.size_pos hs.whole

/-- **Ends of intervals in the index type.** All groups but the last one end their intervals before the last element. The
last end is a number of the index type, before it is cut to the number of elements, just if the elements are no more than
the whole intervals that the type has room for. -/
theorem split_ends_le_iff (h : s.Splits n unit) (hn : 0 < n) (index : Primitive) :
    (∀ g, g + 1 < s.count → s.start g + s.size < n) ∧
      ((∀ g, 0 ≤ g → g < s.count → s.start g + s.size ≤ index.greatest) ↔ n ≤ index.greatest / s.size * s.size) :=
  ⟨fun _ => h.end_lt, h.ends_le_iff hn _⟩

theorem split_end_exceeds :
    split 2147483647 4 3 = some ⟨715827884, 3⟩ ∧ Splitting.start ⟨715827884, 3⟩ 2 + 715827884 = 2147483652 ∧
      ¬ ∀ g, 0 ≤ g → g < 3 → Splitting.start ⟨715827884, 3⟩ g + 715827884 ≤ Primitive.int32.greatest := by
  have hspl : split 2147483647 4 3 = some ⟨715827884, 3⟩ := by decide
  refine ⟨hspl, by decide, ?_⟩
  have hsplits := splits_of_split hspl (by decide) (by decide) (by decide)
  rw [(split_ends_le_iff hsplits (by decide) .int32).2]
  decide

/-- **The second level of a scan.** The values of all intervals fit into one just if there are no more elements than the
square of the size of an interval. They do so for all numbers of elements just if there may be no more intervals than a
unit has elements. -/
theorem split_fitsOne_iff (hunit : 0 < unit) (hmost : 0 ≤ most) :
    (∀ n (s : Splitting), s.Splits n unit → (s.fitsOne = true ↔ n ≤ s.size * s.size)) ∧
      ((∀ n s, 0 < n → split n unit most = some s → s.fitsOne = true) ↔ most ≤ unit) := by
  simp only [Splitting.fitsOne, decide_eq_true_eq]
  exact ⟨fun n s h => h.count_le_iff, forall_count_le_iff hunit hmost⟩

theorem split_fitsOne_four :
    (split 20 4 6).map (·.fitsOne) = some false ∧ ∀ n s, 0 < n → split n 4 3 = some s → s.fitsOne = true :=
  ⟨by decide, (split_fitsOne_iff (by decide) (by decide)).2.2 (by decide)⟩

end Scan

end ClHost
