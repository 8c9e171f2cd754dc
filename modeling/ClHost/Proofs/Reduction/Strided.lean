import ClHost.Proofs.Kernel.Remembered
import ClHost.Proofs.Reduction.Launches

/-!
# Reductions over ranges with steps

The first launch of a reduction deals out the whole steps from the start of its range to the stop.
-/

namespace ClHost

open Int IndexRange

namespace IndexRange

variable {r : IndexRange}

lemma extent_eq (hstep : r.step ≠ 0) : r.extent = .ok r.wholeSteps := if_neg (by simpa using hstep)

lemma start_lt_stop (hstep : 0 < r.step) (hcnt : 0 < r.count) : r.start < r.stop := by
  rcases (lt_count_iff r 0).1 hcnt with ⟨-, h⟩ | ⟨h, -⟩
  · simpa [nth] using h
  · omega

lemma wholeSteps_eq (hstep : 0 < r.step) (hle : r.start ≤ r.stop) : r.wholeSteps = (r.stop - r.start) / r.step := by
  rw [wholeSteps, natAbs_of_nonneg (by omega), fdiv_eq_ediv_of_nonneg _ hstep.le]

lemma count_eq_wholeSteps (hstep : 0 < r.step) (hle : r.start ≤ r.stop) :
    (r.count : Int) = r.wholeSteps + if r.step ∣ r.stop - r.start then 0 else 1 := by
  have hspl := mul_ediv_add_emod (r.stop - r.start) r.step
  have hlt := emod_lt_of_pos (r.stop - r.start) hstep
  have hstps : 0 ≤ (r.stop - r.start) / r.step := ediv_nonneg (by omega) hstep.le
  rw [wholeSteps_eq hstep hle, count_of_pos hstep]
  generalize hm : (r.stop - r.start) % r.step = m at *
  generalize (r.stop - r.start) / r.step = n at *
  split
  case isTrue h =>
    have hceil : (r.stop - r.start + r.step - 1) / r.step = n := by
      rw [show r.stop - r.start + r.step - 1 = r.step - 1 + r.step * n by omega, add_mul_ediv_left _ _ hstep.ne',
        ediv_eq_zero_of_lt (by omega) (by omega), zero_add]
    omega
  case isFalse h =>
    have hceil : (r.stop - r.start + r.step - 1) / r.step = n + 1 := by
      rw [show r.stop - r.start + r.step - 1 = m - 1 + r.step * (n + 1) by linarith,
        add_mul_ediv_left _ _ hstep.ne', ediv_eq_zero_of_lt (by omega) (by omega), zero_add]
    omega

end IndexRange

namespace Reduction

/-! ## When the groups have no room to spare -/

def Fills (groupSize : Nat) (n : Int) : Prop :=
  if n ≤ groupSize * 4 * 1024 then (4 * groupSize : Int) ∣ n else (1024 * groupSize : Int) ∣ n

instance {groupSize : Nat} {n : Int} : Decidable (Fills groupSize n) := by
  unfold Fills
  infer_instance

lemma ceil_mul_eq_iff {d n : Int} (hd : 0 < d) : fdiv (n + d - 1) d * d = n ↔ d ∣ n := by
  constructor
  · intro h
    exact Dvd.intro_left _ h
  · rintro ⟨m, rfl⟩
    rw [fdiv_eq_ediv_of_nonneg _ hd.le, show d * m + d - 1 = d - 1 + d * m by omega,
      add_mul_ediv_left _ _ hd.ne', ediv_eq_zero_of_lt (by omega) (by omega), zero_add, mul_comm]

lemma share_mul_eq_iff {groupSize : Nat} (hsize : 0 < groupSize) (n : Int) :
    (share groupSize n).groups * (groupSize * (share groupSize n).rounds) = n ↔ Fills groupSize n := by
  unfold Fills
  rcases le_or_gt n (groupSize * 4 * 1024) with h | h
  · rw [share_of_few h, if_pos h, mul_comm (groupSize : Int) 4]
    exact ceil_mul_eq_iff (by omega)
  · rw [share_of_many h, if_neg (by omega), ← mul_assoc, mul_comm]
    exact ceil_mul_eq_iff (by omega)

/-! ## What the first launch reads -/

namespace Pass

def Begins (p : Pass) (r : Record) : Prop :=
  Told p.portions.groups p.groupSize
    [p.range.start, p.range.step, p.range.stop, p.portions.rounds, p.range.wholeSteps] r

variable {p : Pass}

lemma existsUnique_visits_of_lt (hsize : 0 < p.groupSize) (hstep : 0 < p.range.step) {k : Nat}
    (hk : k + 1 < p.range.count) : ∃! s, p.Visits s (p.range.nth k) := by
  have hle := (start_lt_stop hstep (by omega)).le
  have hcnt := count_eq_wholeSteps hstep hle
  have hroom : p.range.wholeSteps ≤ p.portions.groups * (p.groupSize * p.portions.rounds) := le_share_mul hsize _
  rw [existsUnique_visits_iff hsize hstep (by omega)]
  split at hcnt <;> omega

lemma forall_existsUnique_visits_iff (hsize : 0 < p.groupSize) (hstep : 0 < p.range.step)
    (hcnt : 0 < p.range.count) : (∀ k < p.range.count, ∃! s, p.Visits s (p.range.nth k)) ↔
      p.range.step ∣ p.range.stop - p.range.start ∨ ¬ Fills p.groupSize p.range.wholeSteps := by
  have hroom : p.range.wholeSteps ≤ p.portions.groups * (p.groupSize * p.portions.rounds) := le_share_mul hsize _
  have hfull : p.portions.groups * (p.groupSize * p.portions.rounds) = p.range.wholeSteps ↔ _ :=
    share_mul_eq_iff hsize p.range.wholeSteps
  have hstps := count_eq_wholeSteps hstep (start_lt_stop hstep hcnt).le
  have hfits : (∀ k < p.range.count, ∃! s, p.Visits s (p.range.nth k)) ↔
      (p.range.count : Int) ≤ p.portions.groups * (p.groupSize * p.portions.rounds) := by
    constructor
    · intro h
      have hlast := (existsUnique_visits_iff hsize hstep (by omega)).1 (h (p.range.count - 1) (by omega))
      omega
    · intro h k hk
      exact (existsUnique_visits_iff hsize hstep hk).2 (by omega)
  rw [hfits, hstps, ← hfull]
  split <;> omega

end Pass

def FirstLaunch (P : Record → Prop) (w w' : World) : Prop := ∃ r rest, w'.launches = w.launches ++ r :: rest ∧ P r

lemma FirstLaunch.of_ran {P : Record → Prop} {r : Record} {w w1 w2 : World} {ps : List Pass} (hP : P r)
    (h : World.Ran [r] w w1) (h' : Launched ps w1 w2) : FirstLaunch P w w2 := by
  obtain ⟨⟨rest, hrest, -⟩, -⟩ := h'
  exact ⟨r, rest, by rw [hrest, h.launches, List.append_assoc, List.singleton_append], hP⟩

end Reduction

namespace Host

open Reduction

variable {w : World} {k : ReductionKernel} {args : List Actual} {c : ReductionCall}

lemma leads_foldReduction {x : DeviceArray × EventId × Int} (hval : k.TakesValues) (hs : Declared w k.second)
    (hsize : 0 < k.second.groupSize) (hsh : x.2.2 ≠ 1 → x.1.shape = [x.2.2]) :
    Leads (foldReduction k args c x.2.2.toNat x) (fun _ w' => ∃ ps, Launched ps w w') (fun _ w' => ∃ ps, Launched ps w w')
      w := by
  rcases le_or_gt x.2.2 0 with hnone | hpos
  · rw [toNat_of_nonpos hnone]
    exact ⟨[], refl w⟩
  · refine (leads_congr (foldReduction_eq hval hs hsize hpos hsh (by omega))).2 ?_
    refine (leads_launchPasses hval hs rfl hsh).mono (fun _ w' h => ⟨_, h⟩) ?_
    rintro _ w' ⟨done, next, rest, -, h⟩
    exact ⟨done, h⟩

/-- **A reduction over a range reads every index exactly once if and only if the range ends with a step or its whole
steps leave room in the groups.** Its first launch deals out the whole steps. It reads no index out of the range, and
each one but the last exactly once. -/
theorem callReduction_visits_iff {i : Nat} {r : IndexRange} {p : Pass} (hk : w.reductions[i]? = some k)
    (hfst : 0 < k.first.groupSize) (hsnd : 0 < k.second.groupSize) (hdecl : Declared w k.first)
    (hdecl' : Declared w k.second) (hval : k.TakesValues)
    (hr : reductionRange (firstArray k.first.arguments args) c.selection = .ok r) (hstep : 1 ≤ r.step)
    (hcnt : 0 < r.count) (hp : p = ⟨k.first.groupSize, r⟩) :
    Leads (callReduction i args c) (fun _ w' => FirstLaunch p.Begins w w')
        (fun _ w' => w'.launches = w.launches ∨ FirstLaunch p.Begins w w') w ∧
      (∀ s j, p.Visits s j → ∃ n < r.count, j = r.nth n) ∧
      (∀ n, n + 1 < r.count → ∃! s, p.Visits s (r.nth n)) ∧
      ((∀ n < r.count, ∃! s, p.Visits s (r.nth n)) ↔
        r.step ∣ r.stop - r.start ∨ ¬ Fills k.first.groupSize r.wholeSteps) := by
  subst hp
  have hpos : 0 < (Pass.range ⟨k.first.groupSize, r⟩).step := hstep
  refine ⟨?_, fun s j => Pass.exists_nth_of_visits hfst hpos, fun n => Pass.existsUnique_visits_of_lt hfst hpos,
    Pass.forall_existsUnique_visits_iff hfst hpos hcnt⟩
  rw [callReduction, leads_bind, Leads, run_reduction hk]
  refine leads_bind.2 ((leads_launchReduction_told hdecl hfst hr (IndexRange.extent_eq hpos.ne')).mono ?_ ?_)
  · rintro x w₁ ⟨⟨r', hr', hran⟩, -, hsh⟩
    refine (leads_foldReduction hval (hdecl'.ran hran) hsnd hsh).mono ?_ ?_
    · rintro _ w₂ ⟨ps, hps⟩
      exact .of_ran hr' hran hps
    · rintro _ w₂ ⟨ps, hps⟩
      exact .inr (.of_ran hr' hran hps)
  · exact fun _ w₁ hran => .inl (hran.launches.trans (List.append_nil _))

def sampleSteps : ReductionCall := { selection := [.slice none (some 17) (some 2)] }

theorem callReduction_visits_iff_full :
    let p : Pass := ⟨2, ⟨0, 17, 2⟩⟩
    ((callReduction 0 [.array sampleArray] sampleSteps).run.run sampleWorld).1.toBool = true ∧
      Leads (callReduction 0 [.array sampleArray] sampleSteps) (fun _ w' => FirstLaunch p.Begins sampleWorld w')
        (fun _ w' => w'.launches = sampleWorld.launches ∨ FirstLaunch p.Begins sampleWorld w') sampleWorld ∧
      (∀ s j, p.Visits s j → ∃ n < p.range.count, j = p.range.nth n) ∧
      (∀ n, n + 1 < p.range.count → ∃! s, p.Visits s (p.range.nth n)) ∧
      ((∀ n < p.range.count, ∃! s, p.Visits s (p.range.nth n)) ↔
        p.range.step ∣ p.range.stop - p.range.start ∨ ¬ Fills 2 p.range.wholeSteps) := by
  intro p
  exact ⟨by decide +kernel, callReduction_visits_iff (k := sampleSum) (r := p.range) rfl (by decide) (by decide)
    declared_sampleWorld.1 declared_sampleWorld.2 ⟨_, _, _, _, rfl⟩ rfl (by decide) (by decide) rfl⟩

theorem callReduction_leaves_out :
    let p : Pass := ⟨2, ⟨0, 17, 2⟩⟩
    ((callReduction 0 [.array sampleArray] sampleSteps).run.run sampleWorld).2.launches.length = 1 ∧
      p.range.count = 9 ∧ p.range.nth 8 = 16 ∧ p.portions = ⟨1, 4⟩ ∧ ∀ s, ¬ p.Visits s 16 := by
  intro p
  refine ⟨by decide +kernel, by decide, by decide, by decide, fun s hs => ?_⟩
  obtain ⟨⟨hgrp, hitem, hrd⟩, hplace, -⟩ := (Pass.visits_iff (by decide)).1 hs
  have hport : p.portions = ⟨1, 4⟩ := by decide
  rw [hport] at hgrp hrd
  rw [Pass.place, hport] at hplace
  simp [p] at hgrp hitem hrd hplace
  omega

end Host

/-! ## The sizes of groups of a reduction -/

lemma Reduction.eq_two_pow_of_halvings {n : Nat} (h : (halvings n).isSome) : n = 0 ∨ ∃ p, n = 2 ^ p := by
  fun_induction halvings n with
  | case1 n hle =>
    rcases Nat.le_one_iff_eq_zero_or_eq_one.1 hle with rfl | rfl
    · exact .inl rfl
    · exact .inr ⟨0, rfl⟩
  | case2 n hle heven ih =>
    rw [Option.isSome_map] at h
    rw [beq_iff_eq] at heven
    obtain ⟨p, hp⟩ := (ih h).resolve_left (by omega)
    exact .inr ⟨p + 1, by rw [Nat.pow_succ, ← hp]; omega⟩
  | case3 => cases h

namespace Host

variable {w : World}

/-- **The sizes of the groups of a reduction.** If it is built, both kernels have one size, which is a power of two and
within a limit that was reported for the first kernel. -/
theorem buildReduction_groupSizes (context : Context) (c : ReductionCode) :
    Leads (buildReduction context c)
      (fun i w' => ∃ k limit, w'.reductions[i]? = some k ∧ k.first.groupSize = c.groupSize w context limit ∧
        k.second.groupSize = k.first.groupSize ∧ (k.first.groupSize = 0 ∨ ∃ p, k.first.groupSize = 2 ^ p) ∧
        k.first.Allowed context w)
      (fun _ _ => True) w := by
  refine (leads_buildReduction_built context c).mono ?_ fun _ _ _ => trivial
  rintro _ _ ⟨first, second, w₁, limit, -, -, ⟨⟨hfst, hhalves⟩, ⟨hsnd, -⟩, hallowed⟩, rfl, rfl⟩
  refine ⟨_, limit, Array.getElem?_push_size, hfst, hsnd.trans hfst.symm, ?_, hallowed⟩
  exact Reduction.eq_two_pow_of_halvings (hfst ▸ hhalves)

def integerSum : ReductionCode :=
  { type := .number .int32, neutral := "0", reduce := "a+b", arguments := some (.text "__global int *in") }

def sampleContext : Context := ⟨0, [⟨0, 0⟩]⟩

def sampleDevice : World := { platforms := [{ devices := [{ maxWorkGroupSize := 256 }] }] }

/-- For a sum of integers there are groups of 64 items. -/
theorem integerSum_not_built :
    integerSum.groupSize sampleDevice sampleContext none = 64 ∧
      integerSum.groupSize sampleDevice sampleContext (some 48) = 48 ∧
      Leads (buildReductionStage sampleContext .mapping integerSum none (some 48)) (fun _ _ => False) (fun _ _ => True)
        sampleDevice := by
  have hsize : integerSum.groupSize sampleDevice sampleContext (some 48) = 48 := by decide +kernel
  refine ⟨by decide +kernel, hsize, ?_⟩
  generalize sampleDevice = w at hsize ⊢
  refine Leads.mono (reaches_buildReductionStage sampleContext .mapping integerSum none (some 48) w) ?_ fun _ _ _ => trivial
  rintro s w' ⟨-, -, -, hhalves⟩
  rw [hsize] at hhalves
  simp [Reduction.halvings] at hhalves

end Host

end ClHost
