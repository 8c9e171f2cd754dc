import ClHost.Proofs.Kernel.Agreement

/-!
# Elementwise operations over ranges

A kernel over a range goes through it in steps of the whole launch. Its work items share out the indices of the range,
whatever size the launch has, as long as no number is too large for its type.
-/

namespace ClHost

open Reduction IndexRange Nat Host

/-! ## The loop of the kernel -/

/-- The source of a kernel over a range has loops with these bounds and this stride, one for each direction. -/
def World.LoopsOver (w : World) (k : KernelId) (operation : String) : Prop :=
  let loop (sign : String) : List String := ["          \x7b",
    "            for (i = start + (work_group_start + lid)*step;",
    "              i " ++ sign ++ " stop; i += gsize*step)",
    "            \x7b",
    "              " ++ operation ++ ";",
    "            \x7d",
    "          \x7d"]
  ∃ c before between after, w.kernels[k]? = some c ∧ c.source = some (String.intercalate "\n" (before ++
    ["          int lid = get_local_id(0);", "          int gsize = get_global_size(0);",
      "          int work_group_start = get_local_size(0)*get_group_id(0);", "          long i;"] ++ between ++
    ["          " ++ String.intercalate "\n" (["//CL//", "          if (step < 0)"] ++ loop ">" ++ ["          else"] ++
      loop "<" ++ ["          "])] ++ after))

lemma ElementwiseCode.Built.loopsOver {c : ElementwiseCode} {r : TypeRegistry} {w : World}
    {x : KernelId × List KernelArgument} (h : c.Built r true w x) : w.LoopsOver x.1 c.operation := by
  obtain ⟨_, texts, _, preamble, loopPrep, -, -, -, -, k, hk, -, hsrc, -⟩ := h
  exact ⟨k, [_, _, _, _, _, _, _], [_, _], [_, _, _], hk, hsrc⟩

namespace IndexRange

variable {r : IndexRange}

/-- The condition of the loops over a range: one for steps below zero, another one for the other steps. -/
def GoesOn (r : IndexRange) (i : Int) : Prop := if r.step < 0 then i > r.stop else i < r.stop

instance (r : IndexRange) (i : Int) : Decidable (r.GoesOn i) := by
  unfold GoesOn
  infer_instance

lemma goesOn_nth (hstep : r.step ≠ 0) (k : Nat) : r.GoesOn (r.nth k) ↔ k < r.count := by
  rw [lt_count_iff, GoesOn]
  split <;> omega

end IndexRange

namespace Splay

variable {s : Splay} {r : IndexRange}

/-- A work item of a launch comes to an index in a round of the loop over a range. Work items are counted in 32 bits, and
indices in 64. -/
def Visits (s : Splay) (r : IndexRange) (x : Seat) (i : Int) : Prop :=
  let int := Primitive.int32.wrap
  let long := Primitive.int64.wrap
  x.group < s.groups ∧ x.item < s.items ∧
    LoopRuns r.GoesOn (fun i => long (i + long (int (s.groups * s.items) * r.step)))
      (long (r.start + long (int (int (s.items * x.group) + x.item) * r.step))) x.round i

/-- No number in the loop over a range is too large for its type. -/
structure Fits (s : Splay) (r : IndexRange) : Prop where
  size : s.groups * s.items ≤ Primitive.int32.greatest
  strides : ∀ k : Nat, k ≤ s.groups * s.items → Primitive.int64.InRange (k * r.step)
  indices : ∀ k : Nat, k < r.count + s.groups * s.items → Primitive.int64.InRange (r.nth k)

lemma visits_iff {groups items : Nat} (hstep : r.step ≠ 0) (hfits : Fits ⟨groups, items⟩ r) {x : Seat} {i : Int} :
    Visits ⟨groups, items⟩ r x i ↔ (x.group < groups ∧ x.item < items) ∧
      i = r.nth (x.round * items * groups + x.item + x.group * items) ∧
        x.round * items * groups + x.item + x.group * items < r.count := by
  rw [Visits, cast_lt, cast_lt, ← and_assoc]
  refine and_congr_right fun ⟨hgrp, hitem⟩ => ?_
  obtain ⟨hsize, hstr, hidxs⟩ := hfits
  dsimp only at hsize hstr hidxs ⊢
  norm_cast at hsize hstr hidxs ⊢
  have hlast : items * x.group + items ≤ groups * items := by
    calc items * x.group + items = (x.group + 1) * items := by ring
      _ ≤ groups * items := Nat.mul_le_mul_right _ hgrp
  have hint : ∀ m : Nat, m ≤ groups * items → Primitive.int32.wrap m = m := fun m hm =>
    Primitive.wrap_of_nonneg (by positivity) (le_trans (by exact_mod_cast hm) hsize)
  have hnth : ∀ k m : Nat, r.nth k + m * r.step = r.nth (k + m) := fun k m => by
    rw [IndexRange.nth, IndexRange.nth, cast_add]
    ring
  have hfst : r.start + ((items * x.group + x.item : Nat) : Int) * r.step = r.nth (items * x.group + x.item) := by
    rw [IndexRange.nth, mul_comm]
  have hplace : x.round * items * groups + x.item + x.group * items =
      items * x.group + x.item + groups * items * x.round := by ring
  rw [hint _ le_rfl, hint (items * x.group) (by omega)]
  norm_cast
  rw [hint _ (by omega), (hstr _ le_rfl).wrap_eq, (hstr _ (by omega)).wrap_eq, hfst,
    (hidxs _ (by omega)).wrap_eq, hplace]
  refine (loopRuns_iff (fun k => r.nth (items * x.group + x.item + groups * items * k)) (fun k hk => ?_) (fun k hk => ?_)
    0).trans ?_
  · have hk := (goesOn_nth hstep _).1 hk
    rw [hnth, (hidxs _ (by omega)).wrap_eq, Nat.mul_succ, Nat.add_assoc]
  · rw [goesOn_nth hstep] at hk ⊢
    rw [Nat.mul_succ] at hk
    omega
  · rw [Nat.zero_add]
    exact and_congr_right fun hi => hi ▸ goesOn_nth hstep _

/-- Each index of a range is visited by one work item in one round, and no other index is. -/
def GoesThrough (s : Splay) (r : IndexRange) : Prop :=
  (∀ k < r.count, ∃! x, s.Visits r x (r.nth k)) ∧ ∀ x i, s.Visits r x i → ∃ k < r.count, i = r.nth k

lemma goesThrough (hgrps : 0 < s.groups) (hitems : 0 < s.items) (hstep : r.step ≠ 0) (hfits : s.Fits r) :
    s.GoesThrough r := by
  obtain ⟨groups, items⟩ := s
  obtain ⟨groups, rfl⟩ := Int.eq_ofNat_of_zero_le hgrps.le
  obtain ⟨items, rfl⟩ := Int.eq_ofNat_of_zero_le hitems.le
  have hgrps : 0 < groups := Int.natCast_pos.1 hgrps
  have hitems : 0 < items := Int.natCast_pos.1 hitems
  have hnth : ∀ k m, r.nth k = r.nth m ↔ k = m := by simp [IndexRange.nth, hstep]
  refine ⟨fun k hk => ?_, fun x i hx => ?_⟩
  · -- The rounds of the launch take the place of the groups of a reduction, and the groups that of the rounds.
    have hsum : k / (items * groups) * items * groups + k % items + k % (items * groups) / items * items = k :=
      Pass.seat_sum groups k
    refine ⟨⟨k % (items * groups) / items, k % items, k / (items * groups)⟩, (visits_iff hstep hfits).2 ?_,
      fun x hx => ?_⟩
    · rw [hsum]
      exact ⟨⟨Nat.div_lt_of_lt_mul (mod_lt _ (mul_pos hitems hgrps)), mod_lt _ hitems⟩, rfl, hk⟩
    · obtain ⟨⟨hgrp, hitem⟩, hk, -⟩ := (visits_iff hstep hfits).1 hx
      have hseat := Pass.seat_eq (s := ⟨x.round, x.item, x.group⟩) hitem hgrp ((hnth _ _).1 hk.symm)
      simp only [Seat.mk.injEq] at hseat
      rw [← hseat.1, ← hseat.2.1, ← hseat.2.2]
  · obtain ⟨-, rfl, hk⟩ := (visits_iff hstep hfits).1 hx
    exact ⟨_, hk, rfl⟩

end Splay

namespace Host

variable {i : Nat} {e : ElementwiseKernel} {args : List Actual} {queue : Option Queue} {start step : Option Int}
  {stop : Int} {wait : List EventId} {unknown : List String} {w : World} {r : IndexRange}

/-- **A call over a range carries the operation out once for each of its indices**, unless there are numbers that are too
large for their types. The kernel has the loops over the range, and is passed its start, stop and step. If the launch has
any work items, they go through the range. -/
theorem ranged_call_goes_through (hw : w.AllBuilt) (he : w.elementwise[i]? = some e)
    (hr : r = ⟨start.getD 0, stop, step.getD 1⟩) (hstep : r.step ≠ 0) :
    Leads (prepareElementwise i args queue [.range start (some stop) step] wait unknown)
      (fun l w' => w'.LoopsOver l.kernel e.code.operation ∧
        (∃ values, l.args = values ++ [r.start, r.stop, r.step].map fun n => .literal (.int n)) ∧
        (0 < l.splay.groups → 0 < l.splay.items → l.splay.Fits r → l.splay.GoesThrough r))
      Any w := by
  subst hr
  refine (leads_getElementwise_all hw he true).bind ?_ fun _ _ _ => trivial
  rintro ⟨k, params⟩ w₁ ⟨-, -, hblt⟩
  refine Leads.mono (reaches_prepareLaunch (R := World.Made) k params args queue _ wait unknown) ?_ fun _ _ _ => trivial
  rintro l w₂ ⟨hw₂, rfl, -, -, hl⟩
  exact ⟨(hblt.lasts hw₂.toLasts).loopsOver, ⟨_, hl⟩, fun hgrps hitems => Splay.goesThrough hgrps hitems hstep⟩

open Sample in
theorem ranged_call_goes_through_down :
    let r : IndexRange := ⟨10, 0, -3⟩
    r.count = 4 ∧ Leads
      (prepareElementwise 0 [.array array, .literal (.int 3)] none [.range (some 10) (some 0) (some (-3))] [] [])
      (fun l w' => l.splay = ⟨1, 32⟩ ∧ w'.LoopsOver l.kernel scaling.operation ∧
        (∃ values, l.args = values ++ [r.start, r.stop, r.step].map fun n => .literal (.int n)) ∧
        l.splay.GoesThrough r) Never world := by
  intro r
  have hcnt : r.count = 4 := by decide
  have hsplay : ((prepareElementwise 0 [.array array, .literal (.int 3)] none [.range (some 10) (some 0) (some (-3))] [] []).run.run
      world).1.toOption.map (·.splay) = some ⟨1, 32⟩ := by decide
  have hfits : Splay.Fits ⟨1, 32⟩ r := by
    have hrg : ∀ k : Nat, k ≤ 36 → Primitive.int64.InRange (k * r.step) ∧ Primitive.int64.InRange (r.nth k) := by decide
    refine ⟨by decide, fun k hk => (hrg k ?_).1, fun k hk => (hrg k ?_).2⟩
    · dsimp only at hk
      omega
    · rw [hcnt] at hk
      dsimp only at hk
      omega
  have he : world.elementwise[0]? = some ⟨default, scaling⟩ := rfl
  have hall := allBuilt_world
  generalize world = w at hsplay he hall ⊢
  refine ⟨hcnt, ((leads_of_map hsplay).and (ranged_call_goes_through hall he (r := r) rfl (by decide))).mono ?_ fun _ _ h => h.1⟩
  rintro l w' ⟨hl, hloops, hargs, hthrough⟩
  rw [hl] at hthrough ⊢
  exact ⟨rfl, hloops, hargs, hthrough (by decide) (by decide) hfits⟩

/-- With a step this large, the third work item comes to an index before the range. -/
theorem ranged_call_leaves_range :
    Splay.deal 1 256 (some 256) (100 / 4611686018427387904) = ⟨1, 32⟩ ∧
      Splay.Visits ⟨1, 32⟩ ⟨0, 100, 4611686018427387904⟩ ⟨0, 2, 0⟩ (-9223372036854775808) ∧
      ¬ Splay.GoesThrough ⟨1, 32⟩ ⟨0, 100, 4611686018427387904⟩ := by
  have hvis : Splay.Visits ⟨1, 32⟩ ⟨0, 100, 4611686018427387904⟩ ⟨0, 2, 0⟩ (-9223372036854775808) :=
    ⟨by decide, by decide, .first (by decide)⟩
  refine ⟨by decide, hvis, fun h => ?_⟩
  obtain ⟨k, -, hk⟩ := h.2 _ _ hvis
  simp only [IndexRange.nth] at hk
  omega

end Host

end ClHost
