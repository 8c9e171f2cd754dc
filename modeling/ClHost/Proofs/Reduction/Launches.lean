import ClHost.Proofs.Array.BasicIndexing
import ClHost.Proofs.Device.Commands
import ClHost.Reduction.Kernel
import Mathlib.Data.List.Chain

/-!
# The passes of a reduction

A launch deals out the indices of a range to groups, whose work items walk through them in strides of the size of the
group.
-/

namespace ClHost

open IndexRange

def IndexRange.wholeSteps (r : IndexRange) : Int := Int.fdiv (r.stop - r.start).natAbs r.step

namespace Reduction

open List Nat

/-! ## How indices are dealt out -/

section Share

variable {groupSize : Nat} {n : Int}

lemma share_of_few (h : n ≤ groupSize * 4 * 1024) :
    share groupSize n = ⟨Int.fdiv (n + 4 * groupSize - 1) (4 * groupSize), 4⟩ := if_pos h

lemma share_of_many (h : groupSize * 4 * 1024 < n) :
    share groupSize n = ⟨1024, Int.fdiv (n + 1024 * groupSize - 1) (1024 * groupSize)⟩ := if_neg (not_le.2 h)

variable {d : Int}

lemma le_ceil_mul (hd : 0 < d) (n : Int) : n ≤ Int.fdiv (n + d - 1) d * d := by
  rw [Int.fdiv_eq_ediv_of_nonneg _ hd.le]
  have hdiv := Int.mul_ediv_add_emod (n + d - 1) d
  have hmod := Int.emod_lt_of_pos (n + d - 1) hd
  linarith [mul_comm d ((n + d - 1) / d)]

lemma ceil_pos (hd : 0 < d) (hn : 0 < n) : 0 < Int.fdiv (n + d - 1) d :=
  (mul_pos_iff_of_pos_right hd).1 (hn.trans_le (le_ceil_mul hd n))

lemma share_rounds_pos (hsize : 0 < groupSize) : 0 < (share groupSize n).rounds := by
  rcases le_or_gt n (groupSize * 4 * 1024) with h | h
  · rw [share_of_few h]
    exact show (0 : Int) < 4 by decide
  · rw [share_of_many h]
    exact ceil_pos (by omega) (by omega)

lemma share_pos (hsize : 0 < groupSize) (hn : 0 < n) :
    0 < (share groupSize n).groups ∧ 0 < (share groupSize n).rounds := by
  refine ⟨?_, share_rounds_pos hsize⟩
  rcases le_or_gt n (groupSize * 4 * 1024) with h | h
  · rw [share_of_few h]
    exact ceil_pos (by omega) hn
  · rw [share_of_many h]
    exact show (0 : Int) < 1024 by decide

lemma le_share_mul (hsize : 0 < groupSize) (n : Int) :
    n ≤ (share groupSize n).groups * (groupSize * (share groupSize n).rounds) := by
  rcases le_or_gt n (groupSize * 4 * 1024) with h | h
  · rw [share_of_few h, mul_comm (groupSize : Int) 4]
    exact le_ceil_mul (by omega) n
  · rw [share_of_many h, ← mul_assoc, mul_comm]
    exact le_ceil_mul (by omega) n

/-- **There are fewer groups than indices**, unless there is only one index. -/
lemma share_groups_lt (hsize : 0 < groupSize) (hn : 1 < n) : (share groupSize n).groups < n := by
  rcases le_or_gt n (groupSize * 4 * 1024) with h | h
  · rw [share_of_few h, Int.fdiv_eq_ediv_of_nonneg _ (by omega)]
    apply Int.ediv_lt_of_lt_mul (by omega)
    -- A group takes at least four indices, so one group less would still have room.
    nlinarith
  · rw [share_of_many h]
    change (1024 : Int) < n
    omega

end Share

/-! ## What a launch reads -/

structure Pass where
  groupSize : Nat
  range : IndexRange
deriving DecidableEq

structure Seat where
  group : Nat
  item : Nat
  round : Nat
deriving DecidableEq

namespace Pass

variable (p : Pass) (s : Seat)

def extent : Int := p.range.stop - p.range.start

def share : Share := Reduction.share p.groupSize p.extent

def index : Int :=
  p.range.start + (s.group * p.groupSize * p.share.rounds + s.item + s.round * p.groupSize) * p.range.step

/-- The loop of a work item: it reads an index and goes on by a stride, so many times, and ends early when it
comes to the stop. -/
def walk (stop stride : Int) : Nat → Int → List Int
  | 0, _ => []
  | rounds + 1, i => if stop ≤ i then [] else i :: walk stop stride rounds (i + stride)

def reads (group item : Nat) : List Int :=
  walk p.range.stop (p.groupSize * p.range.step) p.share.rounds.toNat (p.index ⟨group, item, 0⟩)

def Reads (i : Int) : Prop :=
  s.group < p.share.groups ∧ s.item < p.groupSize ∧ (p.reads s.group s.item)[s.round]? = some i

variable {rounds size : Nat} {i : Int}

lemma getElem?_walk {stop stride : Int} (hstr : 0 ≤ stride) {start : Int} {s : Nat} :
    (walk stop stride rounds start)[s]? = some i ↔ s < rounds ∧ i = start + s * stride ∧ i < stop := by
  induction rounds generalizing start s with
  | zero => simp [walk]
  | succ rounds ih =>
    rw [walk]
    split
    · -- Later indices lie beyond the stop as well.
      rename_i hstop
      have hfar : 0 ≤ (s : Int) * stride := mul_nonneg (Int.natCast_nonneg s) hstr
      simp only [getElem?_nil, reduceCtorEq, false_iff, not_and]
      omega
    · cases s with
      | zero =>
        simp only [getElem?_cons_zero, Option.some.injEq, zero_lt_succ, cast_zero, zero_mul, add_zero, true_and]
        omega
      | succ =>
        rw [getElem?_cons_succ, ih, add_lt_add_iff_right, cast_add, add_mul, cast_one, one_mul,
          add_assoc, add_comm stride]

variable {s : Seat} {k : Nat}

lemma seat_eq (hitem : s.item < size) (hrd : s.round < rounds)
    (hk : s.group * size * rounds + s.item + s.round * size = k) :
    s = ⟨k / (size * rounds), k % size, k % (size * rounds) / size⟩ := by
  have hinn : s.item + s.round * size < size * rounds := by
    calc s.item + s.round * size < size + s.round * size := by omega
      _ = (s.round + 1) * size := by ring
      _ ≤ rounds * size := mul_le_mul_right size hrd
      _ = size * rounds := mul_comm ..
  have hk' : k = s.item + s.round * size + size * rounds * s.group := by
    rw [← hk]
    ring
  have hmod : k % (size * rounds) = s.item + s.round * size := by
    rw [hk', add_mul_mod_self_left, mod_eq_of_lt hinn]
  have hitem' : k % size = s.item := by
    rw [← mod_mul_right_mod k size rounds, hmod, add_mul_mod_self_right, mod_eq_of_lt hitem]
  have hgrp : k / (size * rounds) = s.group := by
    rw [hk', add_mul_div_left _ _ (by omega), div_eq_of_lt hinn, zero_add]
  have hrd' : k % (size * rounds) / size = s.round := by
    rw [hmod, add_mul_div_right _ _ (by omega), div_eq_of_lt hitem, zero_add]
  rw [hgrp, hitem', hrd']

lemma seat_sum (rounds k : Nat) :
    k / (size * rounds) * size * rounds + k % size + k % (size * rounds) / size * size = k := by
  have hrd := mod_add_div (k % (size * rounds)) size
  rw [mod_mul_right_mod] at hrd
  have hgrp := mod_add_div k (size * rounds)
  calc k / (size * rounds) * size * rounds + k % size + k % (size * rounds) / size * size
      = (k % size + size * (k % (size * rounds) / size)) + size * rounds * (k / (size * rounds)) := by ring
    _ = k := by rw [hrd, hgrp]

lemma existsUnique_seat_iff {groups : Int} (hsize : 0 < size) (hrds : 0 < rounds) :
    (∃! s : Seat, (s.group < groups ∧ s.item < size ∧ s.round < rounds) ∧
        s.group * size * rounds + s.item + s.round * size = k) ↔ (k : Int) < groups * (size * rounds) := by
  have hpos : 0 < size * rounds := mul_pos hsize hrds
  have hroom : ((k / (size * rounds) : Nat) : Int) < groups ↔ (k : Int) < groups * (size * rounds) := by
    rw [← cast_mul, Int.natCast_div, Int.ediv_lt_iff_lt_mul (by exact_mod_cast hpos)]
  constructor
  · rintro ⟨s, ⟨⟨hgrp, hitem, hrd⟩, hk⟩, -⟩
    rw [← hroom]
    rwa [seat_eq hitem hrd hk] at hgrp
  · intro hk
    refine ⟨⟨k / (size * rounds), k % size, k % (size * rounds) / size⟩, ⟨⟨hroom.2 hk, mod_lt _ hsize, ?_⟩,
      seat_sum ..⟩, fun s hs => seat_eq hs.1.2.1 hs.1.2.2 hs.2⟩
    exact Nat.div_lt_of_lt_mul (Nat.mod_lt _ hpos)

def portions (p : Pass) : Share := Reduction.share p.groupSize p.range.wholeSteps

def place (p : Pass) (s : Seat) : Int :=
  p.range.start + (s.group * p.groupSize * p.portions.rounds + s.item + s.round * p.groupSize) * p.range.step

def visited (p : Pass) (group item : Nat) : List Int :=
  walk p.range.stop (p.groupSize * p.range.step) p.portions.rounds.toNat (p.place ⟨group, item, 0⟩)

def Visits (p : Pass) (s : Seat) (i : Int) : Prop :=
  s.group < p.portions.groups ∧ s.item < p.groupSize ∧ (p.visited s.group s.item)[s.round]? = some i

variable {p : Pass}

lemma visits_iff (hstep : 0 < p.range.step) : p.Visits s i ↔
      (s.group < p.portions.groups ∧ s.item < p.groupSize ∧ s.round < p.portions.rounds) ∧ p.place s = i ∧
        i < p.range.stop := by
  have hplace : p.place s = p.place ⟨s.group, s.item, 0⟩ + s.round * (p.groupSize * p.range.step) := by
    simp only [place]
    ring
  rw [Visits, visited, getElem?_walk (by positivity), hplace, Int.lt_toNat]
  tauto

lemma exists_nth_of_visits (hsize : 0 < p.groupSize) (hstep : 0 < p.range.step) (h : p.Visits s i) :
    ∃ k < p.range.count, i = p.range.nth k := by
  obtain ⟨-, rfl, hstop⟩ := (visits_iff hstep).1 h
  have hrds : 0 ≤ p.portions.rounds := (share_rounds_pos hsize).le
  obtain ⟨k, hk⟩ := Int.eq_ofNat_of_zero_le
    (show 0 ≤ s.group * p.groupSize * p.portions.rounds + s.item + s.round * (p.groupSize : Int) by positivity)
  have hnth : p.place s = p.range.nth k := by
    rw [place, hk, IndexRange.nth, mul_comm]
  exact ⟨k, (lt_count_iff _ k).2 (.inl ⟨hstep, hnth ▸ hstop⟩), hnth⟩

/-- **An index of a range is read, and once, exactly if the groups have room for its number.** -/
lemma existsUnique_visits_iff (hsize : 0 < p.groupSize) (hstep : 0 < p.range.step) (hk : k < p.range.count) :
    (∃! s, p.Visits s (p.range.nth k)) ↔ (k : Int) < p.portions.groups * (p.groupSize * p.portions.rounds) := by
  have hpos : 0 < p.portions.rounds := share_rounds_pos hsize
  obtain ⟨rounds, hrds⟩ := Int.eq_ofNat_of_zero_le hpos.le
  have hstop : p.range.nth k < p.range.stop := by
    rcases (lt_count_iff _ k).1 hk with ⟨-, h⟩ | ⟨h, -⟩
    · exact h
    · omega
  have hvis : ∀ s, p.Visits s (p.range.nth k) ↔
      (s.group < p.portions.groups ∧ s.item < p.groupSize ∧ s.round < rounds) ∧
        s.group * p.groupSize * rounds + s.item + s.round * p.groupSize = k := by
    intro s
    rw [visits_iff hstep, and_iff_left hstop, place, IndexRange.nth, add_right_inj, mul_comm,
      mul_right_inj' hstep.ne', hrds, ← Int.natCast_inj, Int.ofNat_lt]
    rfl
  simp only [hvis, hrds]
  exact existsUnique_seat_iff hsize (by exact_mod_cast hrds ▸ hpos)

/-- Every index of the range is read by one work item in one round, and no other index is read. -/
def Covers (p : Pass) : Prop :=
  (∀ i, p.range.start ≤ i → i < p.range.stop → ∃! s, p.Reads s i) ∧
    ∀ s i, p.Reads s i → p.index s = i ∧ p.range.start ≤ i ∧ i < p.range.stop

/-- **A pass over a range in steps of one covers it.** -/
lemma covers (hstep : p.range.step = 1) (hsize : 0 < p.groupSize) (hn : p.range.start < p.range.stop) : p.Covers := by
  have hstps : p.range.wholeSteps = p.extent := by
    rw [wholeSteps, hstep, Int.fdiv_one, Int.natAbs_of_nonneg (by omega)]
    rfl
  have hshr : p.portions = p.share := by rw [portions, share, hstps]
  have hplace : ∀ s, p.place s = p.index s := fun s => by rw [place, index, hshr]
  have hreads : ∀ s i, p.Reads s i ↔ p.Visits s i := fun s i => by
    rw [Reads, Visits, reads, visited, hplace, hshr]
  refine ⟨fun i hst hstop => ?_, fun s i h => ?_⟩
  · obtain ⟨k, hk⟩ := Int.eq_ofNat_of_zero_le (Int.sub_nonneg.2 hst)
    obtain rfl : i = p.range.nth k := by
      rw [IndexRange.nth, hstep]
      omega
    have hroom : p.extent ≤ p.share.groups * (p.groupSize * p.share.rounds) := le_share_mul hsize p.extent
    simp only [hreads]
    rw [existsUnique_visits_iff hsize (by omega) ((lt_count_iff _ k).2 (.inl ⟨by omega, hstop⟩)), hshr]
    unfold extent at hroom
    omega
  · rw [hreads] at h
    obtain ⟨-, hi, hstop⟩ := (visits_iff (by omega)).1 h
    obtain ⟨k, -, rfl⟩ := exists_nth_of_visits hsize (by omega) h
    refine ⟨(hplace s).symm.trans hi, ?_, hstop⟩
    rw [IndexRange.nth, hstep]
    omega

end Pass

/-! ## One pass after the other -/

def foldPasses (groupSize : Nat) (n : Int) : List Pass :=
  if _h : 0 < groupSize ∧ 1 < n then
    ⟨groupSize, ⟨0, n, 1⟩⟩ :: foldPasses groupSize (share groupSize n).groups
  else []
termination_by n.toNat
decreasing_by
  have := share_groups_lt _h.1 _h.2
  omega

def passes (first second : Nat) (range : IndexRange) : List Pass :=
  ⟨first, range⟩ :: foldPasses second (Pass.share ⟨first, range⟩).groups

def Pass.Follows (p q : Pass) : Prop := q.range = ⟨0, p.share.groups, 1⟩ ∧ q.share.groups < p.share.groups

variable {groupSize : Nat} {n : Int}

lemma Pass.share_foldPass (groupSize : Nat) (n : Int) :
    Pass.share ⟨groupSize, ⟨0, n, 1⟩⟩ = Reduction.share groupSize n := by
  rw [Pass.share, Pass.extent, Int.sub_zero]

lemma mem_foldPasses {p : Pass} (hp : p ∈ foldPasses groupSize n) :
    p.groupSize = groupSize ∧ p.range.step = 1 ∧ p.range.start < p.range.stop := by
  fun_induction foldPasses groupSize n with
  | case1 n h ih =>
    rcases mem_cons.1 hp with rfl | hp
    · exact ⟨rfl, rfl, show (0 : Int) < n by omega⟩
    · exact ih hp
  | case2 => cases hp

lemma isChain_cons_foldPasses (groupSize : Nat) (p : Pass) :
    (p :: foldPasses groupSize p.share.groups).IsChain Pass.Follows := by
  generalize hn : p.share.groups = n
  fun_induction foldPasses groupSize n generalizing p with
  | case1 n h ih =>
    have hshr := Pass.share_foldPass groupSize n
    refine isChain_cons_cons.2 ⟨⟨by rw [hn], ?_⟩, ih _ (by rw [hshr])⟩
    rw [hshr, hn]
    exact share_groups_lt h.1 h.2
  | case2 => exact isChain_singleton p

lemma getLast_cons_foldPasses (hsize : 0 < groupSize) (p : Pass) (hp : 0 < p.share.groups) :
    ((p :: foldPasses groupSize p.share.groups).getLast (by simp)).share.groups = 1 := by
  generalize hn : p.share.groups = n at hp
  fun_induction foldPasses groupSize n generalizing p with
  | case1 n h ih =>
    have hshr := Pass.share_foldPass groupSize n
    exact ih _ (by rw [hshr]) (share_pos h.1 hp).1
  | case2 =>
    rw [getLast_singleton]
    omega

section Passes

variable {first second : Nat} {range : IndexRange}

lemma mem_passes {p : Pass} (hp : p ∈ passes first second range) (hstep : range.step = 1)
    (hn : range.start < range.stop) :
    p.range.step = 1 ∧ p.range.start < p.range.stop ∧ (p.groupSize = first ∨ p.groupSize = second) := by
  rcases mem_cons.1 hp with rfl | hp
  · exact ⟨hstep, hn, .inl rfl⟩
  · obtain ⟨hsize, hstep, hn⟩ := mem_foldPasses hp
    exact ⟨hstep, hn, .inr hsize⟩

/-- **The groups get fewer from pass to pass.** -/
lemma isChain_passes : (passes first second range).IsChain Pass.Follows := isChain_cons_foldPasses second _

/-- **The last pass has one group.** -/
lemma getLast?_passes (hfst : 0 < first) (hsnd : 0 < second) (hn : range.start < range.stop) :
    ((passes first second range).getLast?.map fun p => p.share.groups) = some 1 := by
  exact congrArg some (getLast_cons_foldPasses hsnd _ (share_pos hfst (Int.sub_pos.2 hn)).1)

end Passes

end Reduction

/-! ## The launches of a reduction -/

open List World

namespace Reduction

def numberTypes : List Primitive := [.int64, .int64, .int64, .uint32, .int64]

def Pass.numbers (p : Pass) : List Int := [p.range.start, p.range.step, p.range.stop, p.share.rounds, p.extent]

def Declared (w : World) (s : ReductionStage) : Prop :=
  ∃ c, w.kernels[s.kernel]? = some c ∧ c.Fitted ∧
    ∃ bindings, c.bindings = bindings ++ numberTypes.map fun t => .packed t.packCode

def Told (groups : Int) (size : Nat) (numbers : List Int) (r : Record) : Prop :=
  ∃ name program queue leading wait event,
    r = .launch name program queue [groups * size] (some [(size : Int)]) none
      (leading ++ List.zipWith (fun t n => .data (t.store (.int n))) numberTypes numbers) wait event

def Pass.Starts (p : Pass) (r : Record) : Prop :=
  ∃ name program queue leading wait event,
    r = .launch name program queue [p.share.groups * p.groupSize] (some [(p.groupSize : Int)]) none
      (leading ++ List.zipWith (fun t n => .data (t.store (.int n))) numberTypes p.numbers) wait event

end Reduction

def ReductionKernel.TakesValues (k : ReductionKernel) : Prop :=
  ∃ type name withOffset more, k.second.arguments = .vector type name withOffset :: more

namespace Reduction

def Launched (ps : List Pass) (w w' : World) : Prop :=
  (∃ rs, w'.launches = w.launches ++ rs ∧ List.Forall₂ Pass.Starts ps rs) ∧ ∀ s, Declared w s → Declared w' s

variable {ps : List Pass} {rs : List Record}

lemma Launched.trans {qs : List Pass} {w w' w'' : World} (h : Launched ps w w') (h' : Launched qs w' w'') :
    Launched (ps ++ qs) w w'' := by
  obtain ⟨⟨rs, hrs, hps⟩, hkeep⟩ := h
  obtain ⟨⟨rs', hrs', hqs⟩, hkeep'⟩ := h'
  refine ⟨⟨rs ++ rs', ?_, rel_append hps hqs⟩, fun s hs => hkeep' s (hkeep s hs)⟩
  rw [hrs', hrs, append_assoc]

variable {w w' : World}

instance : Std.Refl (Launched []) := ⟨fun _ => ⟨⟨[], (append_nil _).symm, .nil⟩, fun _ h => h⟩⟩

lemma Declared.ran {s : ReductionStage} (h : Declared w s) (hran : Ran rs w w') : Declared w' s := by
  obtain ⟨c, hc, hfit, bindings, hbind⟩ := h
  obtain ⟨c', hc', hfit', hbind'⟩ := Ruled.ran ⟨c, hc, hfit, hbind⟩ hran
  exact ⟨c', hc', hfit', bindings, hbind'⟩

lemma launched_of_ran (h : Ran rs w w') (hrs : List.Forall₂ Pass.Starts ps rs) : Launched ps w w' :=
  ⟨⟨rs, h.launches, hrs⟩, fun _ hs => hs.ran h⟩

end Reduction

namespace Host

open Reduction

/-! ## Launches that are ready -/

variable {w : World}

lemma reaches_reductionResult {type : ElementType} {groups : Int} {target : Option DeviceArray} {queue : Option Queue}
    {allocator : Option Allocator} : Reaches Beside (reductionResult type groups target queue allocator)
      (fun a _ => groups ≠ 1 → a.shape = [groups]) w := by
  have hnew : ∀ shape, (groups ≠ 1 → shape = [groups]) →
      Reaches Beside (do newRows (← arrayQueue queue) type shape allocator)
        (fun a _ => groups ≠ 1 → a.shape = [groups]) w := fun shape hsh =>
    (quiet_arrayQueue queue).reaches_bind fun q w1 _ => reaches_newRows.mono fun a _ _ ha hg => ha.1.trans (hsh hg)
  unfold reductionResult
  by_cases hone : groups = 1
  · subst hone
    cases target with
    | none => exact hnew [] fun h => absurd rfl h
    | some => exact reaches_pure fun h => absurd rfl h
  · rw [beq_false_of_ne hone]
    exact hnew _ fun _ => rfl

/-- A launch of a reduction goes over a range and deals it out. -/
structure ReductionLaunch.Deals (l : ReductionLaunch) (stage : ReductionStage) (args : List Actual) (c : ReductionCall)
    (r : IndexRange) (n : Int) (s : Share) : Prop where
  range : reductionRange (firstArray stage.arguments args) c.selection = .ok r
  extent : r.extent = .ok n
  share : Reduction.deal stage.groupSize n = .ok s
  groups : l.groups = s.groups
  result : l.groups ≠ 1 → l.result.shape = [l.groups]
  fits : ∀ x ∈ stage.arguments.zip args, KernelArgument.Fits x
  args : l.args = [.buffer l.result.buffer, .literal (.int l.result.offset)] ++
    (stage.arguments.zip args).flatMap passedValues ++
    [r.start, r.step, r.stop, s.rounds, n].map fun n => .literal (.int n)

/-- **What a launch of a reduction is made ready with.** -/
lemma reaches_prepareReduction (type : ElementType) (stage : ReductionStage) (args : List Actual) (c : ReductionCall)
    : Reaches Beside (prepareReduction type stage args c) (fun l _ => ∃ r n s, l.Deals stage args c r n s) w := by
  refine Leads.bind leads_passArguments ?_ fun _ w' h => h ▸ refl (r := Beside) w'
  rintro passed _ ⟨rfl, hval, hfst, hfits⟩
  refine reaches_lift_bind fun r hr => reaches_lift_bind fun n hn => ?_
  refine (stays_lift _).reaches_bind fun queue w1 _ => reaches_lift_bind fun s hs => ?_
  refine reaches_bind reaches_reductionResult fun result w2 _ hres => ?_
  refine (quiet_needQueue queue).reaches_bind fun q w3 _ => reaches_pure ⟨r, n, s, ?_⟩
  exact ⟨hfst ▸ hr, hn, hs, rfl, hres, hfits, by rw [hval]⟩

end Host

/-! ## What a launch is told -/

namespace Reduction

lemma tells_numbers {ts : List Primitive} (hts : ∀ t ∈ ts, t.kind = .signed ∨ t.kind = .unsigned) (ns : List Int) :
    List.Forall₂ Binding.Tells ((ns.map fun n => Actual.literal (.int n)).zip (ts.map fun t => .packed t.packCode))
      (List.zipWith (fun t n => .data (t.store (.int n))) ts ns) := by
  induction ts generalizing ns with
  | nil => simp
  | cons t ts ih =>
    rw [forall_mem_cons] at hts
    cases ns with
    | nil => exact .nil
    | cons n ns => exact .cons (.integer hts.1 n) (ih hts.2 ns)

lemma leads_call_told {q : Queue} {s : ReductionStage} {groups : Int} {size : Nat} {numbers : List Int}
    {args : List Actual} {wait : List EventId} (hs : Declared w s) (hnums : numbers.length = numberTypes.length) :
    Leads (Host.call q s.kernel { globalSize := [groups * size], localSize := some [(size : Int)] }
        (args ++ numbers.map fun n => Actual.literal (.int n)) wait)
      (fun _ w' => ∃ r, Told groups size numbers r ∧ Ran [r] w w') (fun _ w' => Ran [] w w') w := by
  obtain ⟨c, hc, hfit, bindings, hbind⟩ := hs
  have hresolve : LaunchRange.resolve { globalSize := [groups * size], localSize := some [(size : Int)] } =
      .ok { globalSize := [groups * size], localSize := some [(size : Int)] } := rfl
  refine (Host.leads_call_ran ⟨c, hc, hfit, hbind⟩ hresolve).imp ?_
  rintro e w' ⟨hlen, c', slots, -, hfills, hran⟩
  have hlead : args.length = bindings.length := by simpa [hnums] using hlen
  rw [zip_append hlead] at hfills
  obtain ⟨leading, told, rfl, -, htold⟩ := hfills.of_append
  obtain rfl := htold.eq_of_tells (tells_numbers (by decide) numbers)
  exact ⟨_, ⟨_, _, _, leading, _, _, rfl⟩, hran⟩

end Reduction

namespace Host

open Reduction

variable {w : World}

variable {r : IndexRange}

lemma extent_of_step_one (hstep : r.step = 1) (hn : r.start < r.stop) : r.extent = .ok (r.stop - r.start) := by
  rw [IndexRange.extent, hstep, Int.fdiv_one, Int.natAbs_of_nonneg (by omega)]
  rfl

variable {type : ElementType} {stage : ReductionStage} {args : List Actual} {c : ReductionCall} {n : Int}
  {x : DeviceArray × EventId × Int}

/-- **A launch of a reduction is told the range of the call**, and how the number that goes with the range is dealt
out. Unless one group is left, its values are in an array with one element for each group. -/
lemma leads_launchReduction_told (hs : Declared w stage) (hsize : 0 < stage.groupSize)
    (hr : reductionRange (firstArray stage.arguments args) c.selection = .ok r) (hn : r.extent = .ok n) :
    Leads (launchReduction type stage args c) (fun x w' => (∃ r', Told (share stage.groupSize n).groups stage.groupSize
          [r.start, r.step, r.stop, (share stage.groupSize n).rounds, n] r' ∧ Ran [r'] w w') ∧
        x.2.2 = (share stage.groupSize n).groups ∧ (x.2.2 ≠ 1 → x.1.shape = [x.2.2])) (fun _ w' => Ran [] w w') w := by
  have hdeal : Reduction.deal stage.groupSize n = .ok (share stage.groupSize n) := if_neg (by simpa using hsize.ne')
  refine Leads.bind (reaches_prepareReduction type stage args c) ?_ fun _ _ h => h.ran
  rintro l w1 ⟨hw1, r', n', s, hl⟩
  obtain rfl := Except.ok.inj (hl.range.symm.trans hr)
  obtain rfl := Except.ok.inj (hl.extent.symm.trans hn)
  obtain rfl := Except.ok.inj (hl.share.symm.trans hdeal)
  rw [hl.args, hl.groups]
  refine (leads_call_told (hs.ran hw1.ran) rfl).bind ?_ fun _ _ h => hw1.ran.trans h
  rintro e w2 ⟨r', hr', hw2⟩
  refine leads_addEvent_beside.bind fun _ w3 hw3 => ?_
  exact ⟨⟨r', hr', (hw1.ran.trans hw2).trans hw3.ran⟩, rfl, hl.groups ▸ hl.result⟩

/-- **A launch of a reduction over a range in steps of one is one pass over it.** -/
lemma leads_launchReduction (hs : Declared w stage) (hsize : 0 < stage.groupSize)
    (hr : reductionRange (firstArray stage.arguments args) c.selection = .ok r) (hstep : r.step = 1)
    (hn : r.start < r.stop) : Leads (launchReduction type stage args c)
      (fun x w' => Launched [⟨stage.groupSize, r⟩] w w' ∧ x.2.2 = (Pass.share ⟨stage.groupSize, r⟩).groups ∧
        (x.2.2 ≠ 1 → x.1.shape = [x.2.2])) (fun _ w' => Launched [] w w') w := by
  refine (leads_launchReduction_told hs hsize hr (extent_of_step_one hstep hn)).mono ?_
    fun _ _ h => launched_of_ran h .nil
  rintro x w' ⟨⟨r', hr', hran⟩, hx⟩
  exact ⟨launched_of_ran hran (.cons hr' .nil), hx⟩

/-! ## One launch after the other -/

variable {k : ReductionKernel} {args : List Actual} {c : ReductionCall}

lemma run_reduction {i : Nat} (hk : w.reductions[i]? = some k) : (reduction i).run.run w = (.ok k, w) := by
  change (Except.ok (w.reductions[i]?.getD default), w) = _
  rw [hk]
  rfl

def foldCall (c : ReductionCall) (e : EventId) : ReductionCall := { c with wait := [e], selection := [] }

def launchPasses (k : ReductionKernel) (args : List Actual) (c : ReductionCall) :
    List Pass → DeviceArray × EventId × Int → Host (DeviceArray × EventId)
  | [], (result, e, _) => return (result, e)
  | _ :: rest, (result, e, _) => do
    launchPasses k args c rest (← launchReduction k.type k.second (.array result :: args) (foldCall c e))

def launchAll (k : ReductionKernel) (args : List Actual) (c : ReductionCall) (ps : List Pass) :
    Host (DeviceArray × EventId) := do
  launchPasses k args c ps.tail (← launchReduction k.type k.first args c)

lemma leads_fold {result : DeviceArray} {e : EventId} {groups : Int} (hval : k.TakesValues)
    (hs : Declared w k.second) (hsize : 0 < k.second.groupSize) (hgrps : 1 < groups)
    (hsh : result.shape = [groups]) : Leads (launchReduction k.type k.second (.array result :: args) (foldCall c e))
      (fun x w' => Launched [⟨k.second.groupSize, ⟨0, groups, 1⟩⟩] w w' ∧
        x.2.2 = (share k.second.groupSize groups).groups ∧ (x.2.2 ≠ 1 → x.1.shape = [x.2.2]))
      (fun _ w' => Launched [] w w') w := by
  obtain ⟨type, name, withOffset, more, hargs⟩ := hval
  have hcnt : result.size = groups := by
    rw [DeviceArray.size, hsh]
    simp [Strides.count]
  have hrg : reductionRange (firstArray k.second.arguments (.array result :: args)) [] = .ok ⟨0, groups, 1⟩ := by
    have hfst : firstArray k.second.arguments (.array result :: args) = some result := by
      rw [hargs]
      rfl
    rw [hfst]
    change IndexRange.ofSlice none none none result.size = _
    simp [IndexRange.ofSlice, hcnt]
    omega
  rw [← Pass.share_foldPass]
  exact leads_launchReduction hs hsize hrg rfl (by simp; omega)

lemma foldReduction_eq {fuel : Nat} (hval : k.TakesValues) (hs : Declared w k.second)
    (hsize : 0 < k.second.groupSize) (hgrps : 0 < x.2.2) (hsh : x.2.2 ≠ 1 → x.1.shape = [x.2.2])
    (hfuel : x.2.2 ≤ fuel) : (foldReduction k args c fuel x).run.run w =
      (launchPasses k args c (foldPasses k.second.groupSize x.2.2) x).run.run w := by
  induction fuel generalizing x w with
  | zero => omega
  | succ fuel ih =>
    obtain ⟨result, e, groups⟩ := x
    by_cases hone : groups = 1
    · subst hone
      rw [foldPasses, dif_neg fun h => Int.lt_irrefl 1 h.2]
      rfl
    · have hfuel : groups ≤ (fuel + 1 : Nat) := hfuel
      have hlt : 1 < groups := by
        have hpos : 0 < groups := hgrps
        omega
      rw [foldPasses, dif_pos ⟨hsize, hlt⟩, foldReduction, if_neg (by simpa using hone)]
      refine run_bind_congr ((leads_fold hval hs hsize hlt (hsh hone)).mono ?_)
      rintro y w' ⟨hw', hy, hyshape⟩
      have hpos := (share_pos hsize (by omega : 0 < groups)).1
      have hless := share_groups_lt hsize hlt
      rw [ih (hw'.2 k.second hs) (by omega) hyshape (by omega), hy]

lemma leads_launchPasses (hval : k.TakesValues) (hs : Declared w k.second) (hn : x.2.2 = n)
    (hsh : x.2.2 ≠ 1 → x.1.shape = [x.2.2]) : Leads (launchPasses k args c (foldPasses k.second.groupSize n) x)
      (fun _ w' => Launched (foldPasses k.second.groupSize n) w w')
      (fun _ w' => ∃ done next rest, foldPasses k.second.groupSize n = done ++ next :: rest ∧ Launched done w w') w := by
  fun_induction foldPasses k.second.groupSize n generalizing x w with
  | case1 n h ih =>
    obtain ⟨result, e, groups⟩ := x
    obtain rfl : groups = n := hn
    refine (leads_fold hval hs h.1 h.2 (hsh (by simp; omega))).bind ?_ ?_
    · rintro y w1 ⟨hw1, hy, hyshape⟩
      refine (ih (hw1.2 k.second hs) hy hyshape).mono ?_ ?_
      · intro _ w2 hw2
        exact hw1.trans hw2
      · rintro _ w2 ⟨done, next, rest, heq, hw2⟩
        exact ⟨_ :: done, next, rest, by rw [heq, cons_append], hw1.trans hw2⟩
    · intro _ w1 hw1
      exact ⟨[], _, _, rfl, hw1⟩
  | case2 => exact show Launched [] w w from refl w

/-- **A call of a reduction launches its passes one after the other.** The groups get fewer down to one, and each
pass reads each of its indices in one place: the first one the range of the call, and each later one the values
that the groups of the one before left. -/
theorem callReduction_passes {i : Nat} {r : IndexRange} {ps : List Pass} (hk : w.reductions[i]? = some k)
    (hfst : 0 < k.first.groupSize) (hsnd : 0 < k.second.groupSize) (hdecl : Declared w k.first)
    (hdecl' : Declared w k.second) (hval : k.TakesValues)
    (hr : reductionRange (firstArray k.first.arguments args) c.selection = .ok r) (hstep : r.step = 1)
    (hn : r.start < r.stop) (hps : passes k.first.groupSize k.second.groupSize r = ps) :
    (callReduction i args c).run.run w = (launchAll k args c ps).run.run w ∧
      Leads (callReduction i args c) (fun _ w' => Launched ps w w')
        (fun _ w' => ∃ done next rest, ps = done ++ next :: rest ∧ Launched done w w') w ∧
      ps.IsChain Pass.Follows ∧
      (ps.getLast?.map fun p => p.share.groups) = some 1 ∧
      ∀ p ∈ ps, p.Covers := by
  subst hps
  have hlau : Leads (launchReduction k.type k.first args c) _ _ w :=
    leads_launchReduction hdecl hfst hr hstep hn
  have hpos := (share_pos hfst (Int.sub_pos.2 hn)).1
  have hcall : (callReduction i args c).run.run w =
      (launchAll k args c (passes k.first.groupSize k.second.groupSize r)).run.run w := by
    rw [callReduction, run_bind, run_reduction hk]
    refine run_bind_congr (hlau.mono ?_ fun _ _ _ => trivial)
    rintro x w' ⟨hw', hgrps, hsh⟩
    have hxpos : 0 < x.2.2 := hgrps ▸ hpos
    rw [foldReduction_eq hval (hw'.2 k.second hdecl') hsnd hxpos hsh (by omega), hgrps]
    rfl
  refine ⟨hcall, (leads_congr hcall).2 (leads_bind.2 (hlau.mono ?_ ?_)), isChain_passes,
    getLast?_passes hfst hsnd hn, fun p hp => ?_⟩
  · rintro x w₁ ⟨hw₁, hgrps, hsh⟩
    refine (leads_launchPasses hval (hw₁.2 k.second hdecl') hgrps hsh).mono ?_ ?_
    · intro _ w₂ hw₂
      exact hw₁.trans hw₂
    · rintro _ w₂ ⟨done, next, rest, heq, hw₂⟩
      exact ⟨_ :: done, next, rest, congrArg (_ :: ·) heq, hw₁.trans hw₂⟩
  · intro _ w₁ hw₁
    exact ⟨[], _, _, rfl, hw₁⟩
  · obtain ⟨hpstep, hpn, hpsize⟩ := mem_passes hp hstep hn
    exact Pass.covers hpstep (by rcases hpsize with h | h <;> omega) hpn

end Host

namespace Reduction

def sampleSum : ReductionKernel :=
  { type := .number .float32
    first := ⟨2, 0, [.vector (.number .float32) "in" true], ""⟩
    second := ⟨1, 1, [.vector (.number .float32) inputName false, .vector (.number .float32) "in" false], ""⟩ }

def sampleKernel (arrays : List Binding) : Kernel :=
  let bindings := [.generic, .packed 'l'] ++ arrays ++ numberTypes.map fun t => .packed t.packCode
  { program := 0, name := "sum", numArgs := 9, source := none, bindings, bound := List.replicate 9 .unset }

def sampleArray : DeviceArray :=
  { context := default, queue := some default, type := .number .float32, shape := [40], strides := [4], buffer := 0,
    events := 0 }

def sampleWorld : World :=
  { memory := #[⟨.buffer, 1, ⟨160, []⟩⟩], eventLists := #[[]], reductions := #[sampleSum]
    kernels := #[sampleKernel [.generic, .packed 'l'], sampleKernel [.generic, .generic]] }

end Reduction

namespace Host

open Reduction

lemma declared_sampleWorld : Declared sampleWorld sampleSum.first ∧ Declared sampleWorld sampleSum.second :=
  ⟨⟨_, rfl, ⟨rfl, rfl⟩, [.generic, .packed 'l', .generic, .packed 'l'], rfl⟩,
    ⟨_, rfl, ⟨rfl, rfl⟩, [.generic, .packed 'l', .generic, .generic], rfl⟩⟩

theorem callReduction_passes_sum :
    let ps : List Pass := [⟨2, ⟨0, 40, 1⟩⟩, ⟨1, ⟨0, 5, 1⟩⟩, ⟨1, ⟨0, 2, 1⟩⟩]
    ((callReduction 0 [.array sampleArray] {}).run.run sampleWorld).1.toBool = true ∧
      (callReduction 0 [.array sampleArray] {}).run.run sampleWorld =
        (launchAll sampleSum [.array sampleArray] {} ps).run.run sampleWorld ∧
      Leads (callReduction 0 [.array sampleArray] {}) (fun _ w' => Launched ps sampleWorld w')
        (fun _ w' => ∃ done next rest, ps = done ++ next :: rest ∧ Launched done sampleWorld w') sampleWorld ∧
      ps.IsChain Pass.Follows ∧
      (ps.getLast?.map fun p => p.share.groups) = some 1 ∧
      ∀ p ∈ ps, p.Covers := by
  intro ps
  have hpasses : passes sampleSum.first.groupSize sampleSum.second.groupSize ⟨0, 40, 1⟩ = ps := by decide +kernel
  exact ⟨by decide +kernel, @callReduction_passes sampleWorld sampleSum [.array sampleArray] {} 0 ⟨0, 40, 1⟩ ps rfl
    (by decide) (by decide) declared_sampleWorld.1 declared_sampleWorld.2 ⟨_, _, _, _, rfl⟩ rfl rfl (by decide) hpasses⟩

end Host

end ClHost
