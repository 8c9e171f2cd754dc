import ClHost.Proofs.Device.Commands
import ClHost.Proofs.Pool.BinSizes
import ClHost.Proofs.Scan.Intervals
import Mathlib.Algebra.BigOperators.Group.List.Lemmas
import Mathlib.Algebra.BigOperators.Ring.List

/-!
# The launches of a scan

A call of a scan launches its kernels one after the other. The first one takes one group for each interval, the second
one a single group for the values that the intervals left, and the last one the groups of the first one again.
-/

namespace ClHost

open List World Binding

namespace Host

open Scan

/-! ## One launch after the other -/

variable {w : World} {q : Queue}

variable {allocator : Option Allocator} {i : Nat} {args : List Actual} {c : ScanCall}
  {a : DeviceArray}

lemma reaches_optionalRows {condition : Bool} {type : ElementType} {shape : List Int} {α : Type}
    {f : List DeviceArray → Host α} {Q : α → World → Prop}
    (hf : ∀ arrays w', arrays.length = condition.toNat → Reaches Beside (f arrays) Q w') :
    Reaches Beside
      (if condition = true then do
        let a ← newRows q type shape allocator
        let arrays ← pure [a]
        f arrays
      else do
        let arrays ← pure []
        f arrays) Q w := by
  cases condition with
  | false => exact hf [] w rfl
  | true => exact reaches_bind reaches_newRows fun a w' _ _ => hf [a] w' rfl

/-- A scan in intervals passes its kernels what is passed for its arguments, numbers, and the buffers for what is known
of each interval. -/
structure ScanLaunches.Passes (l : ScanLaunches) (k : ScanKernel) (n : Int) (args : List Actual) (shape : GroupShape)
    (results values : BufferId) (starts flags : List DeviceArray) : Prop where
  split : ∃ most : Nat, Scan.split n (shape.group * shape.run : Nat) most = some l.intervals
  segmented : starts.length = k.code.segmentStart.isSome.toNat
  marked : flags.length = k.code.storesStarts.toNat
  first : l.first = args ++ ([.buffer values, .literal (.int n), .literal (.int l.intervals.size), .buffer results] ++
    (starts ++ flags).map fun a => .buffer a.buffer)
  second : l.second = args ++ (.buffer results :: starts.map fun a => .buffer a.buffer) ++
    [.buffer results, .literal (.int l.intervals.count), .literal (.int l.intervals.size)]
  update : l.update = args ++ ([.literal (.int n), .literal (.int l.intervals.size), .buffer results, .buffer values] ++
    (starts ++ flags).map fun a => .buffer a.buffer)

def mostIntervals (w : World) (devices : List DeviceRef) : Nat :=
  3 * (devices.map w.device).foldl (fun n i => max n i.maxComputeUnits) 0

/-- **What a scan in intervals is made ready with.** -/
lemma reaches_prepareIntervals (k : ScanKernel) (q : Queue) (allocator : Option Allocator) (n : Int)
    (args : List Actual) (shape : GroupShape) : Reaches Beside (prepareIntervals k q allocator n args shape)
      (fun l _ => Scan.split n shape.unit (mostIntervals w k.devices) = some l.intervals ∧
        ∃ results values starts flags, l.Passes k n args shape results values starts flags) w := by
  refine leads_bind.2 (leads_deviceInfos.2 ?_)
  extract_lets most buffers number
  split
  · rename_i s hs
    rw [pure_bind]
    refine reaches_bind reaches_newRows fun results w2 _ _ => reaches_bind reaches_newRows fun values w3 _ _ => ?_
    refine reaches_optionalRows fun flags w4 hfl => reaches_optionalRows fun starts w5 hsts => ?_
    exact reaches_pure ⟨hs, results.buffer, values.buffer, starts, flags, ⟨most, hs⟩, hsts, hfl,
      by simp [buffers, number], by simp [buffers, number], by simp [buffers, number]⟩
  · exact reaches_fail_bind _ _

end Host

namespace Scan

def sampleSums : ScanKernel :=
  { context := default, devices := [⟨0, 0⟩], firstArray := 0
    code := ⟨.number .float32, .text "float *ary, float *out", "ary[i]", "a+b", some "0", "out[i] = item", none, [],
      .number .int32, "scan", [], "", none⟩
    arguments := [.vector (.number .float32) "ary" false, .vector (.number .float32) "out" false]
    kernels := .levels 0 1 ⟨2, 2⟩ 2 8 }

def sampleRules (k : KernelId) : List Binding :=
  [.generic, .generic] ++ match k with
    | 0 => [.generic, .packed 'i', .packed 'i', .generic]
    | 1 => [.generic, .generic, .packed 'i', .packed 'i']
    | _ => [.packed 'i', .packed 'i', .generic, .generic]

def sampleKernel (k : KernelId) : Kernel :=
  { program := 0, name := "scan", numArgs := 6, source := none, bindings := sampleRules k
    bound := List.replicate 6 .unset }

def sampleWorld : World :=
  { memory := #[⟨.buffer, 1, ⟨156, []⟩⟩], eventLists := #[[]], scans := #[sampleSums]
    kernels := #[sampleKernel 0, sampleKernel 1, sampleKernel 2] }

end Scan

namespace Host

open Scan

/-- With this many elements, the last interval is empty: its end is beyond the numbers of the index type. -/
theorem callScan_last_interval_empty :
    Scan.split 2147483647 4 3 = some ⟨715827884, 3⟩ ∧ ¬ Splitting.Partitions .int32 ⟨715827884, 3⟩ 2147483647 := by
  refine ⟨by decide, fun h => ?_⟩
  exact absurd (h.nonempty 2 (by decide) (by decide)) (by decide)

end Host

/-! ## Local memory of scans -/

open Scan LocalArray IntervalParts

namespace Scan

/-- The bytes of the arrays that a kernel declares in local memory. -/
def IntervalParts.localBytes (p : IntervalParts) : Nat := (p.localArrays.map LocalArray.size).sum

def Setup.typed (s : Setup) (argument : String) : String × Nat :=
  ((s.types.reverse.find? (·.1 == argument)).map (·.2)).getD default

def isLocal (line : String) : Bool := "LOCAL_MEM ".toList.isPrefixOf line.toList

/-- The bytes that are needed for a value, for an index, and for the inputs of an element that are fetched for all items. -/
def Setup.demand (s : Setup) (spreadsBanks : Bool) : Demand where
  value := if spreadsBanks then s.code.type.size + 4 else s.code.type.size
  index := s.code.indexType.size
  fetched := ((sharedArguments s.code.fetches).map fun a => (s.typed a).2).foldl (· + ·) 0

/-- The parts of the first source of a scan, as far as they tell its arrays. -/
structure IntervalParts.Of (p : IntervalParts) (s : Setup) (spreadsBanks : Bool) : Prop where
  spreadsBanks : p.spreadsBanks = spreadsBanks
  segmented : p.common.isSegmented = s.code.segmentStart.isSome
  value : p.valueSize = s.code.type.size
  index : p.indexSize = s.code.indexType.size
  fetches : p.fetches = s.code.fetches.map fun f => (f, s.typed f.argument)

/-! ## Sizes -/

lemma floorPower_le {n : Nat} (hn : n < 2 ^ 64) : floorPower n ≤ n := by
  rw [floorPower, Log2.log64_eq n hn, Nat.pow_eq]
  rcases Nat.eq_zero_or_pos n with rfl | hpos
  · decide
  · have hpow := Nat.log2_self_le hpos.ne'
    rwa [if_neg (Nat.not_lt.2 hpow)]

lemma Demand.localUse_mono (d : Demand) {group group' : Nat} (h : group ≤ group') (run : Nat) :
    d.localUse ⟨group, run⟩ ≤ d.localUse ⟨group', run⟩ := by
  unfold Demand.localUse
  dsimp only
  gcongr

variable {shapes : List GroupShape} {s : GroupShape}

lemma SizeLimits.mem_of_best? (h : best? shapes = some s) : s ∈ shapes := by
  cases shapes with
  | nil => cases h
  | cons t shapes =>
    cases h
    induction shapes generalizing t with
    | nil => exact mem_singleton_self t
    | cons u shapes ih =>
      rw [foldl_cons]
      split
      · exact mem_cons_of_mem t (ih u)
      · exact mem_cons.2 ((mem_cons.1 (ih t)).imp id (mem_cons_of_mem u))

lemma SizeLimits.mem_of_aboveFloor {floors : List Nat} (h : s ∈ aboveFloor floors shapes) : s ∈ shapes := by
  induction floors with
  | nil => exact h
  | cons floor floors ih =>
    rw [aboveFloor] at h
    split at h
    · exact (mem_filter.1 h).1
    · exact ih h

/-- **What is chosen fits.** -/
lemma SizeLimits.localUse_of_choose {l : SizeLimits} {d : Demand} (h : l.choose d = some s) :
    (d.localUse s : Int) ≤ l.localMemory := by
  simpa using (mem_filter.1 (mem_of_aboveFloor (mem_of_best? h))).2

/-! ## Arrays -/

variable {s : Setup} {p : IntervalParts} {spreadsBanks : Bool}

lemma sum_fetchArrays (hp : p.Of s spreadsBanks) :
    (p.fetchArrays.map size).sum = p.shape.group * p.shape.run * (s.demand spreadsBanks).fetched := by
  have hshared : p.shared = sharedArguments s.code.fetches := by simp [shared, hp.fetches, Function.comp_def]
  have htyd : ∀ a ∈ sharedArguments s.code.fetches, (p.fetches.find? (·.1.argument == a)).map (·.2) = some (s.typed a) := by
    intro a ha
    obtain ⟨f, hf, rfl⟩ := mem_map.1 (mem_eraseDups.1 (mem_filter.1 ha).1)
    obtain ⟨g, hg⟩ : ∃ g, s.code.fetches.find? (·.argument == f.argument) = some g :=
      Option.isSome_iff_exists.1 (find?_isSome.2 ⟨f, hf, by simp⟩)
    have harg : g.argument = f.argument := by simpa using find?_some hg
    rw [hp.fetches, find?_map,
      show (fun x : Fetch × String × Nat => x.1.argument == f.argument) ∘ (fun f => (f, s.typed f.argument)) =
      (·.argument == f.argument) from rfl, hg]
    simp [harg]
  have hszs : p.fetchArrays.map size =
      (sharedArguments s.code.fetches).map fun a => p.shape.group * p.shape.run * (s.typed a).2 := by
    rw [fetchArrays, hshared, map_map]
    refine map_congr_left fun a ha => ?_
    simp [htyd a ha, size, mul_comm]
  rw [hszs, sum_map_mul_left, Setup.demand, sum_eq_foldl]

/-- **What the first kernel declares and what it is taken to use.** -/
lemma localBytes_add (hp : p.Of s spreadsBanks) : p.localBytes + s.code.indexType.size * p.shape.run +
        (if s.code.segmentStart.isSome then 0 else p.shape.group * p.shape.run) =
      (s.demand spreadsBanks).localUse p.shape +
        if s.code.segmentStart.isSome then s.code.indexType.size * p.shape.group else 0 := by
  have hval : p.valueArray.size = (s.demand spreadsBanks).value * (p.shape.group + 1) * (p.shape.run + 1) := by
    simp only [valueArray, size, foldl_cons, foldl_nil, Setup.demand, hp.value, hp.spreadsBanks]
    ring
  have hidx : (s.demand spreadsBanks).index = s.code.indexType.size := rfl
  rw [localBytes, localArrays, cons_append, map_cons, map_append, sum_cons, sum_append,
    sum_fetchArrays hp, hval, Demand.localUse, segmentArrays, hidx, hp.segmented, hp.index]
  cases s.code.segmentStart.isSome
  · simp only [Bool.false_eq_true, if_false, map_nil, sum_nil]
    ring
  · simp only [if_true, map_cons, map_nil, sum_cons, sum_nil, size, foldl_cons, foldl_nil]
    ring

lemma isLocal_declaration (a : LocalArray) : isLocal a.declaration = true := by
  simp only [isLocal, declaration, String.append_assoc, String.toList_append (s := "LOCAL_MEM ")]
  exact isPrefixOf_iff_prefix.2 ( prefix_append _ _)

lemma filter_declaration (as : List LocalArray) : (as.map declaration).filter isLocal = as.map declaration :=
  filter_eq_self.2 (forall_mem_map.2 fun a _ => isLocal_declaration a)

lemma IntervalParts.filter_isLocal (p : IntervalParts) :
    p.declarations.tail.filter isLocal = p.localArrays.map declaration := by
  have hv := isLocal_declaration p.valueArray
  simp only [declarations, CommonParts.segmented, localArrays, map_cons, map_append, cons_append, nil_append, tail_cons]
  cases p.spreadsBanks <;> cases p.common.isSegmented <;>
    simp +decide only [filter_cons, filter_append, filter_nil, filter_declaration, hv, if_true, if_false, cons_append,
      nil_append, append_nil, append_assoc]

end Scan

namespace Host

variable {s : Setup} {w : World}

variable {α : Type}

lemma leads_mapM_pure {β : Type} {f : α → Host β} {g : α → β}
    (h : ∀ x w, Leads (f x) (fun y w' => y = g x ∧ w' = w) Any w) (xs : List α) :
    Leads (xs.mapM f) (fun ys w' => ys = xs.map g ∧ w' = w) Any w := by
  refine (leads_mapM (I := (· = w)) (P := fun x y => y = g x) (fun x _ w1 hw1 => ?_) rfl).imp
    fun ys w' ⟨hys, hw'⟩ => ⟨?_, hw'⟩
  · rw [hw1]
    exact h x w
  · rw [← forall₂_eq_eq_eq, forall₂_map_right_iff]
    exact hys.flip

variable (s : Setup)

lemma leads_scanFetches :
    Leads (scanFetches s) (fun fetches w' => fetches = s.code.fetches.map (fun f => (f, s.typed f.argument)) ∧ w' = w)
      Any w := by
  refine leads_mapM_pure (fun f w => ?_) _
  split
  · rename_i t ht
    exact ⟨by rw [Setup.typed, ht]; rfl, rfl⟩
  · trivial

lemma foldl_min_le (f : α → Nat) (xs : List α) (n : Nat) :
    xs.foldl (fun n x => min n (f x)) n ≤ n ∧ ∀ x ∈ xs, xs.foldl (fun n x => min n (f x)) n ≤ f x := by
  induction xs generalizing n with
  | nil => exact ⟨Nat.le_refl n, nofun⟩
  | cons x xs ih =>
    obtain ⟨hleast, hall⟩ := ih (min n (f x))
    rw [forall_mem_cons, foldl_cons]
    exact ⟨hleast.trans (Nat.min_le_left _ _), hleast.trans (Nat.min_le_right _ _), hall⟩

lemma leads_scanLimits :
    Leads (scanLimits s) (fun l w' => (∀ d ∈ s.devices, l.localMemory ≤ (w.device d).localMemSize) ∧ w' = w) Any w := by
  refine leads_bind.2 (leads_deviceInfos.2 ?_)
  cases hdevs : s.devices with
  | nil => trivial
  | cons d rest =>
    obtain ⟨hfst, hrest⟩ := foldl_min_le (·.localMemSize) (rest.map w.device) (w.device d).localMemSize
    rw [forall_mem_map] at hrest
    refine ⟨fun d' hd' => ?_, rfl⟩
    have hleast := (forall_mem_cons (p := fun d' => _ ≤ (w.device d').localMemSize)).2 ⟨hfst, hrest⟩ d' hd'
    dsimp only
    split <;> omega

lemma leads_scanShape (spreadsBanks : Bool) : Leads (scanShape s spreadsBanks)
      (fun shape w' => (∀ d ∈ s.devices, (s.demand spreadsBanks).localUse shape ≤ (w.device d).localMemSize) ∧ w' = w)
      Any w := by
  refine (leads_scanLimits s).bind ?_
  rintro limits w ⟨hlims, rfl⟩
  extract_lets shared value chosen
  have hchosen : Leads (chosen ())
      (fun shape w' => (∀ d ∈ s.devices, (s.demand spreadsBanks).localUse shape ≤ (w.device d).localMemSize) ∧ w' = w)
      Any w := by
    refine (leads_mapM_pure (g := fun a => (s.typed a).2) (fun a w => ?_) shared).bind ?_
    · split
      · rename_i ht
        exact ⟨by rw [Setup.typed, ht]; rfl, rfl⟩
      · trivial
    · rintro _ _ ⟨rfl, rfl⟩
      split
      · rename_i shape hsh
        have hfits := SizeLimits.localUse_of_choose hsh
        exact ⟨fun d hd => Int.ofNat_le.1 (hfits.trans (hlims d hd)), rfl⟩
      · trivial
  split
  · trivial
  · exact hchosen

def IsFirst (spreadsBanks : Bool) (most run : Nat) (source : KernelSource) (shape : GroupShape) : Prop :=
  ∃ p : IntervalParts, p.Of s spreadsBanks ∧ source.text = p.text ∧ p.shape = shape ∧
    ∃ group ≤ most, shape = ⟨group, run⟩

lemma gives_intervalSource (input : String) (limit run : Nat) (spreadsBanks : Bool) :
    Gives (intervalSource s .first s.arguments input s.code.segmentStart limit run spreadsBanks)
      (fun x => IsFirst s spreadsBanks limit run x.1 x.2) := by
  unfold intervalSource
  refine gives_then fun types => ?_
  extract_lets shape storesStarts name more
  refine gives_then fun r => gives_then fun offsets => gives_then fun parameters => ?_
  refine gives_bind (fun w => (leads_scanFetches s).imp fun _ _ h => h.1) fun fetches hfetches => ?_
  have hcommon : Gives (scanCommon s input s.code.segmentStart) (fun c => c.isSegmented = s.code.segmentStart.isSome) :=
    gives_then fun _ => gives_pure rfl
  have hgrp : floorPower (min limit mostItems) ≤ limit :=
    (floorPower_le (Nat.lt_of_le_of_lt (Nat.min_le_right _ _) (by decide))).trans (Nat.min_le_left _ _)
  split
  · exact fun _ => trivial
  · refine gives_bind hcommon fun common hseg => ?_
    extract_lets parts
    refine gives_pure ⟨parts, ⟨rfl, hseg, rfl, rfl, hfetches⟩, ?_, rfl, _, hgrp, rfl⟩
    dsimp only

lemma gives_firstSource (run : Nat) (spreadsBanks : Bool) (tries limit : Nat) :
    Gives (firstSource s run spreadsBanks tries limit) (fun x => IsFirst s spreadsBanks limit run x.1 x.2.1) := by
  induction tries generalizing limit
  all_goals
    change Gives (lift (Source.macroBody s.code.input) >>= _) _
    generalize Source.macroBody s.code.input = body
    refine gives_then fun input => gives_bind (gives_intervalSource s input limit run spreadsBanks) ?_
    rintro ⟨source, shape⟩ hsrc
    refine gives_then fun k => gives_then fun limits => gives_ite (gives_pure hsrc) ?_
  case zero => exact fun _ => trivial
  case succ tries ih =>
    intro w
    refine (ih _ w).imp ?_
    rintro x _ ⟨p, hp, htext, hsh, group, hgrp, hx⟩
    exact ⟨p, hp, htext, hsh, group, hgrp.trans (Nat.min_le_right _ _), hx⟩

/-- **Local memory of the first kernel of a scan.** The sources that are generated take a shape of which all devices hold
what it is taken to use. What the first kernel declares is less than that without segments. With segments it has an index
for each item of a group in place of one for each element that an item scans on its own, so that it is more just if groups
have more items than that. -/
theorem scanSources_localMemory (s : Setup) (w : World) :
    Leads (scanSources s)
      (fun x _ => ∃ p : IntervalParts, x.first.text = p.text ∧ p.shape = x.shape ∧
        p.declarations.tail.filter isLocal = p.localArrays.map LocalArray.declaration ∧
        (∀ d ∈ s.devices, (s.demand p.spreadsBanks).localUse x.shape ≤ (w.device d).localMemSize) ∧
        p.localBytes + s.code.indexType.size * x.shape.run +
            (if s.code.segmentStart.isSome then 0 else x.shape.group * x.shape.run) =
          (s.demand p.spreadsBanks).localUse x.shape +
            (if s.code.segmentStart.isSome then s.code.indexType.size * x.shape.group else 0) ∧
        (s.code.segmentStart = none ∨ x.shape.group ≤ x.shape.run →
          ∀ d ∈ s.devices, p.localBytes ≤ (w.device d).localMemSize))
      (fun _ _ => True) w := by
  have hbanks : Leads (scanSpreadsBanks s) (fun _ w' => w' = w) (fun _ _ => True) w := by
    unfold scanSpreadsBanks
    split
    · trivial
    · rfl
  rw [scanSources, leads_bind]
  refine hbanks.mono ?_ fun _ _ => id
  intro spreadsBanks w₁ hw₁
  rw [hw₁, leads_bind]
  refine (leads_scanShape s spreadsBanks).mono ?_ fun _ _ => id
  intro chosen w₂ ⟨hholds, hw₂⟩
  rw [leads_bind]
  refine (gives_firstSource s _ spreadsBanks _ _ w₂).mono ?_ fun _ _ => id
  intro ⟨first, shape, limit⟩ w₃ ⟨p, hp, htext, hp', group, hgrp, hsh⟩
  subst hp'
  dsimp only at htext hsh ⊢
  have huse : ∀ d ∈ s.devices, (s.demand spreadsBanks).localUse p.shape ≤ (w.device d).localMemSize := by
    intro d hd
    rw [hsh]
    exact (Demand.localUse_mono _ hgrp _).trans (hholds d hd)
  have hdecl := localBytes_add hp
  have hfits (h : s.code.segmentStart = none ∨ p.shape.group ≤ p.shape.run) :
      p.localBytes ≤ (s.demand spreadsBanks).localUse p.shape := by
    rcases h with hnone | hle
    · simp only [hnone, Option.isSome_none, Bool.false_eq_true, if_false] at hdecl
      omega
    · have hidxs := Nat.mul_le_mul_left s.code.indexType.size hle
      split at hdecl <;> omega
  generalize intervalSource s .second _ _ _ _ _ _ = second
  refine (gives_then fun second => gives_then fun r => gives_then fun parameters => gives_then fun offsets =>
    gives_then fun input => gives_then fun common => gives_then fun passed => gives_pure ?_) _
  rw [← hp.spreadsBanks] at huse hdecl hfits
  exact ⟨p, htext, rfl, p.filter_isLocal, huse, hdecl, fun h d hd => (hfits h).trans (huse d hd)⟩

end Host

end ClHost
