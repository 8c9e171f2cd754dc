import ClHost.Proofs.Kernel.Calls
import ClHost.Proofs.Radix.Orders
import ClHost.Radix.Run

/-!
# Calls of a radix sort

A call makes the arrays for each pass, has the scan carry it out, and gives the new arrays to the next pass.
-/

namespace ClHost

open List Nat

/-! ## Steps that only add buffers -/

def World.Grew (w w' : World) : Prop := w.Fitted → w'.Fitted ∧ w.memory.size ≤ w'.memory.size

instance : Std.Refl World.Grew := ⟨fun _ hw => ⟨hw, le_refl _⟩⟩

instance : IsTrans World World.Grew := by
  refine ⟨fun w w' w'' h h' hw => ?_⟩
  obtain ⟨hw', hle⟩ := h hw
  obtain ⟨hw'', hle'⟩ := h' hw'
  exact ⟨hw'', le_trans hle hle'⟩

instance : CallSteps World.Grew where
  made h hw := ⟨h.toQuiet.fitted hw, le_of_eq h.memory.symm⟩
  beside h hw := by
    obtain ⟨_, _, _, _, rfl, hmemory, -⟩ := h
    exact ⟨hw, hmemory⟩
  call q k range values hval wait w hw := by
    obtain ⟨v, args, rfl⟩ := exists_cons_of_ne_nil hval
    refine Leads.state (P := fun w' : World => w'.Fitted ∧ w.memory.size ≤ w'.memory.size) ?_
    refine (Host.issues_call q k range v args wait w hw).mono ?_ fun _ w' h => ?_
    · rintro e w' ⟨c, -, -, hiss⟩
      exact ⟨hiss.fitted hw, le_of_eq hiss.memory.symm⟩
    · exact ⟨h.fitted hw, le_of_eq h.memory.symm⟩

/-! ## Passes -/

namespace Radix.Sorter

variable (s : Sorter) (q : Option Queue) (allocator : Option Allocator) (n : Int)

/-- A pass makes its new arrays and then calls the scan, which leaves an event. -/
def Called (wait : List EventId) (w : World) (p : Pass) (e : EventId) (w' : World) : Prop :=
  ∃ w₁, (Host.newSorted s q allocator n).run.run w = (.ok p.sorted, w₁) ∧
    (Host.callScan s.scan ((p.args ++ p.sorted).map .array ++ [.literal (.int p.base)])
      { queue := q, wait }).run.run w₁ = (.ok e, w')

/-- The passes lead from one world to another, and each waits for the one before it. -/
def CalledAll : List EventId → World → List Pass → World → Prop
  | _, w, [], w' => w' = w
  | wait, w, p :: rest, w' => ∃ e w₁, s.Called q allocator n wait w p e w₁ ∧ CalledAll [e] w₁ rest w'

structure Run (wait : List EventId) (w : World) (bases : List Nat) (args : List DeviceArray) (trace : List Pass)
    (out : List DeviceArray) (w' : World) : Prop where
  bases : trace.map (·.base) = bases
  called : s.CalledAll q allocator n wait w trace w'
  taken : ∀ p ∈ trace, s.Taken p
  linked : Linked args trace out

/-- The scan of a sort has the arguments, the sorted arrays and the lowest bit as its parameters, and the output
statement for the sort's names and bits. -/
def Served (w : World) : Prop :=
  ∃ (k : ScanKernel) (parts : Parts), w.scans[s.scan]? = some k ∧ k.arguments = scanArguments s.arguments s.names ∧
    k.code.output = parts.output ∧ parts.bits = s.bits ∧ parts.names = s.names

end Radix.Sorter

namespace Host

open Radix Sorter

variable {w : World} {s : Sorter} {q : Option Queue} {allocator : Option Allocator} {n : Int}

lemma leads_outputs (l : List KernelArgument) : Leads (l.mapM fun a => do
        match a.type? with
        | some t => newRows (← arrayQueue q) t [n] allocator
        | none => bare .attribute)
      (fun arrays w' => arrays.map (·.buffer) = List.range' w.memory.size l.length ∧
        w'.memory.size = w.memory.size + l.length ∧ (w.Fitted → w'.Fitted)) Any w := by
  induction l generalizing w with
  | nil => exact ⟨rfl, rfl, id⟩
  | cons a l ih =>
    rw [mapM_cons, leads_bind]
    cases a.type? with
    | none => trivial
    | some =>
      cases q with
      | none => trivial
      | some =>
        refine leads_newArray.mono ?_
        rintro b w1 ⟨rfl, m, size, flags, rfl⟩
        refine ih.andThen ?_
        rintro arrays w2 ⟨hbufs, hsize, hfit⟩
        refine ⟨?_, ?_, fun hw => hfit hw⟩
        · rw [map_cons, hbufs, length_cons, range'_succ, Array.size_push]
        · rw [hsize, Array.size_push, length_cons]
          omega

variable {args : List DeviceArray}

/-- **A pass makes new arrays, has the scan fill them, and hands them on.** -/
lemma leads_sortPass (hs : s.Proper) (hw : w.Fitted) (hargs : args.length = s.arguments.length)
    (hbufs : ∀ a ∈ args, a.buffer < w.memory.size) (wait : List EventId) (base : Nat) :
    Leads (sortPass s q allocator n (args.map .array) wait base)
      (fun r w' => ∃ p : Pass, p.base = base ∧ p.args = args ∧ s.Called q allocator n wait w p r.2 w' ∧ s.Taken p ∧
        r.1 = p.next.map .array ∧ w'.Fitted ∧ ∀ a ∈ p.next, a.buffer < w'.memory.size) Any w := by
  refine ((leads_run _ w).and (leads_outputs _)).bind ?_
  rintro sorted w1 ⟨hmade, hnew, hsize, hfit⟩
  have hcnt : sorted.length = s.names.length := by
    have hlen := congrArg List.length hnew
    rw [length_map, length_range'] at hlen
    rw [hlen, ← (namesInOrder_perm hs).length_eq, namesInOrder, filter_map, length_map]
    rfl
  have hrg : ∀ b ∈ sorted.map (·.buffer), w.memory.size ≤ b ∧ b < w1.memory.size := by
    intro b hb
    rw [hnew, mem_range'_1] at hb
    omega
  obtain ⟨next, hnext⟩ : ∃ next, s.substitute args sorted = some next := ⟨_, substitute_eq args hcnt⟩
  have htk : s.Taken ⟨base, args, sorted, next⟩ := by
    refine ⟨hargs, hcnt, hnew ▸ nodup_range', fun a ha hb => ?_, hnext⟩
    exact not_le.2 (hbufs a ha) (hrg _ hb).1
  refine ((leads_run _ w1).and ((steps_callScan (R := World.Grew) _ _ _).leads w1)).bind ?_
  rintro e w2 ⟨hrun, hgrew⟩
  obtain ⟨hw2, hle⟩ := hgrew (hfit hw)
  rw [substitute_map Actual.array args hcnt, hnext]
  refine ⟨⟨base, args, sorted, next⟩, rfl, rfl, ⟨w1, hmade, ?_⟩, htk, rfl, hw2, fun a ha => ?_⟩
  · rw [map_append]
    exact hrun
  · rcases htk.mem_next ha with hold | hnew
    · exact Nat.lt_of_lt_of_le (hbufs a hold) (by omega)
    · exact Nat.lt_of_lt_of_le (hrg _ (mem_map_of_mem hnew)).2 hle

/-- **The passes of a call.** -/
lemma leads_sortPasses (hs : s.Proper) (bases : List Nat) (hw : w.Fitted) (hargs : args.length = s.arguments.length)
    (hbufs : ∀ a ∈ args, a.buffer < w.memory.size) (wait : List EventId) (last : Option EventId) :
    Leads (sortPasses s q allocator n bases (args.map .array) wait last)
      (fun r w' => ∃ trace out, s.Run q allocator n wait w bases args trace out w' ∧ r.1 = out.map .array) Any w := by
  induction bases generalizing w args wait last with
  | nil => exact ⟨[], args, ⟨rfl, rfl, by simp, rfl⟩, rfl⟩
  | cons base bases ih =>
    refine (leads_sortPass hs hw hargs hbufs wait base).bind ?_
    rintro ⟨next, e⟩ w1 ⟨p, rfl, rfl, hcalled, htk, rfl, hw1, hbufs1⟩
    refine (ih hw1 htk.length_next hbufs1 [e] (some e)).imp ?_
    rintro r w2 ⟨trace, out, hrun, hr⟩
    refine ⟨p :: trace, out, ⟨?_, ?_, ?_, rfl, hrun.linked⟩, hr⟩
    · rw [map_cons, hrun.bases]
    · exact ⟨e, w1, hcalled, hrun.called⟩
    · exact forall_mem_cons.2 ⟨htk, hrun.taken⟩

def SortCall.Asks (c : SortCall) (s : Sorter) (keyBits : Nat) : Prop :=
  c.keyBits = some keyBits ∨ c.keyBits = none ∧ Radix.keyBits s.keyType = .ok keyBits

/-- The passes of a call, with the queue, the allocator and the length of the array that leads. -/
def SortCall.Runs (c : SortCall) (s : Sorter) (keyBits : Nat) (args : List DeviceArray) (w : World) (trace : List Pass)
    (out : List DeviceArray) (w' : World) : Prop :=
  ∃ lead n rest, args[s.leadArray]? = some lead ∧ lead.shape = n :: rest ∧
    s.Run (c.queue <|> lead.queue) (c.allocator <|> lead.allocator) n c.wait w (passes s.bits keyBits) args trace out w'

/-- **A call that ends has made its passes, and gives the arrays of the last one.** -/
lemma leads_callRadixSort {i keyBits : Nat} {c : SortCall} (hs : s.Proper) (hw : w.Fitted)
    (hsort : w.radixSorters[i]? = some s) (hasks : c.Asks s keyBits) (hargs : args.length = s.arguments.length)
    (hbufs : ∀ a ∈ args, a.buffer < w.memory.size) : Leads (callRadixSort i (args.map .array) c)
      (fun r w' => ∃ trace out, c.Runs s keyBits args w trace out w' ∧ r.1 = (s.sortedOf out).map .array) Any w := by
  unfold callRadixSort
  rw [leads_bind, leads_get, hsort, Option.getD_some]
  extract_lets s' ofBits
  have hbits : Leads (ofBits keyBits) (fun r w' => ∃ trace out, c.Runs s keyBits args w trace out w' ∧
      r.1 = (s.sortedOf out).map .array) Any w := by
    unfold ofBits
    extract_lets ofLead
    rw [getElem?_map]
    cases hlead : args[s.leadArray]? with
    | none => trivial
    | some lead =>
      cases hsh : lead.shape with
      | nil => simp [ofLead, hsh]
      | cons n rest =>
        simp only [Option.map_some, pure_bind, ofLead, hsh]
        refine (leads_sortPasses hs _ hw hargs hbufs c.wait none).andThen ?_
        rintro ⟨_, last⟩ w1 ⟨trace, out, hrun, rfl⟩
        cases last with
        | none => trivial
        | some => exact ⟨trace, out, ⟨lead, n, rest, hlead, hsh, hrun⟩, sortedOf_map s Actual.array out⟩
  rcases hasks with hasks | ⟨hasks, htype⟩
  · rw [hasks]
    exact hbits
  · rw [hasks, htype]
    exact hbits

/-! ## Sorts that are built -/

def SortBuilt (c : SortCode) (i : Nat) (w : World) : Prop :=
  ∃ s, w.radixSorters[i]? = some s ∧ s.names = c.names ∧ s.bits = c.bits ∧ s.Served w

/-- **A sort that is built has a scan that takes its passes.** -/
lemma leads_buildRadixSort (context : Context) (c : SortCode) :
    Leads (buildRadixSort context c) (SortBuilt c) Any w := by
  refine leads_any_bind fun r _ => leads_any_bind fun arguments _ => leads_any_bind fun d _ =>
    leads_any_bind fun counts _ => leads_any_bind fun _ _ => leads_any_bind fun keyName _ =>
    leads_any_bind fun indexName _ => leads_any_bind fun _ _ => ?_
  extract_lets parts code leadArray finish
  have hfin (scan : Nat) (w : World) (h : ∃ k, w.scans[scan]? = some k ∧ k.code = code ∧
      ∃ r, code.arguments.read r false = .ok k.arguments) :
      Leads (finish scan) (SortBuilt c) Any w := by
    obtain ⟨k, hk, hcode, r, hread⟩ := h
    rw [ArgumentSource.read_args] at hread
    refine ⟨_, Array.getElem?_push_size, rfl, rfl, k, parts, hk, (Except.ok.inj hread).symm, ?_, rfl, rfl⟩
    rw [hcode]
  split
  · exact (leads_buildSerialScan context code).bind hfin
  · exact (leads_buildScan context code).bind hfin

/-! ## What comes back -/

end Host

namespace Radix.Sorter

variable {s : Sorter}

/-- What the arrays of a call hold when its passes are carried out, whatever they held before: the passes can be carried
out, the last arrays hold what the passes make of the first ones, and with the names in order each array that is
returned is the one that was given, in the order of those bits of the keys that the passes look at. -/
structure Leaves (s : Sorter) (keyBits : Nat) (args : List DeviceArray) (trace : List Pass) (out : List DeviceArray) :
    Prop where
  possible : ∀ (V : Type) [Inhabited V] (parts : Parts) (junk : Counts) (key : List V → Nat) (n : Nat)
    (μ : DeviceArray → List V), parts.bits = s.bits → (∀ a ∈ args, (μ a).length = n) →
    ∃ μ', s.AllCarriedOut parts junk key n trace μ μ'
  contents : ∀ (V : Type) [Inhabited V] (parts : Parts) (junk : Counts) (key : List V → Nat) (n : Nat)
    (μ μ' : DeviceArray → List V), parts.bits = s.bits → (∀ a ∈ args, (μ a).length = n) →
    s.AllCarriedOut parts junk key n trace μ μ' →
    s.passAll key n (passes s.bits keyBits) (args.map μ) = some (out.map μ')
  sorted : s.InOrder → ∀ (V : Type) [Inhabited V] (parts : Parts) (junk : Counts) (key : List V → Nat) (n : Nat)
    (μ μ' : DeviceArray → List V), parts.bits = s.bits → (∀ a ∈ args, (μ a).length = n) →
    s.AllCarriedOut parts junk key n trace μ μ' → s.ReadsSorted key ∨ keyBits ≤ s.bits →
    (s.sortedOf out).map μ' = (s.sortedOf args).map fun a => stableSort ((List.range n).map fun i =>
      key (rowAt (args.map μ) i) % 2 ^ (passCount s.bits keyBits * s.bits)) (μ a)

variable {q : Option Queue} {allocator : Option Allocator} {n : Int} {wait : List EventId} {w w' : World} {keyBits : Nat}
  {args out : List DeviceArray} {trace : List Pass}

lemma Run.leaves (hs : s.Proper) (hbits : 1 ≤ s.bits) (hargs : args.length = s.arguments.length)
    (h : s.Run q allocator n wait w (passes s.bits keyBits) args trace out w') : s.Leaves keyBits args trace out := by
  refine ⟨fun V _ parts junk key n μ hpts hlens => ?_, ?_, ?_⟩
  · exact exists_allCarriedOut hs hpts key h.taken h.linked hlens
  · intro V _ parts junk key n μ μ' hpts hlens hcarried
    rw [← h.bases]
    exact passAll_eq hs hpts h.taken h.linked hlens hcarried
  · intro hord V _ parts junk key n μ μ' hpts hlens hcarried hrds
    have hcnt : (args.map μ).length = s.arguments.length := by rw [length_map, hargs]
    have hsorted := sortedOf_passAll hs hbits hord hcnt (forall_mem_map.2 hlens) hrds
    rw [← h.bases, passAll_eq hs hpts h.taken h.linked hlens hcarried, Option.map_some, sortedOf_map, sortedOf_map,
      map_map] at hsorted
    exact Option.some.inj hsorted

end Radix.Sorter

namespace Host

open Radix Sorter

/-- **A radix sort keeps its arrays apart exactly if the sorted arrays are named in the order of the arguments.** Its
passes start at the multiples of the number of bits below the number of key bits, one after the other. A call makes
these passes, and in each of them the sorted arguments are handed on as their own arrays if and only if the names are in
order. Then, and only then, all arrays come back in the order of their keys, for keys that are computed from the sorted
arrays. For keys that are computed from any arguments this takes a single pass, or that all arguments are sorted. -/
theorem callRadixSort_arrays {s : Sorter} {keyBits : Nat} (hs : s.Proper) (hbits : 1 ≤ s.bits) (hkeyBits : 1 ≤ keyBits) :
    ((∀ base, base ∈ passes s.bits keyBits ↔ base < keyBits ∧ s.bits ∣ base) ∧
      (passes s.bits keyBits).Pairwise (· < ·)) ∧
    (∀ (w : World) (i : Nat) (c : SortCall) (args : List DeviceArray), w.Fitted → w.radixSorters[i]? = some s →
      c.Asks s keyBits → args.length = s.arguments.length → (∀ a ∈ args, a.buffer < w.memory.size) →
      Leads (callRadixSort i (args.map .array) c)
        (fun r w' => ∃ trace out, c.Runs s keyBits args w trace out w' ∧ r.1 = (s.sortedOf out).map .array ∧ (∀ p ∈ trace, s.OwnOutputs p ↔ s.InOrder) ∧
          s.Leaves keyBits args trace out)
        (fun _ _ => True) w) ∧
    (s.InOrder ↔ ∀ (V : Type) [Inhabited V] (key : List V → Nat) (n : Nat) (arrays : List (List V)),
      s.ReadsSorted key → s.Data key keyBits n arrays → s.Sorts key keyBits n arrays) ∧
    (s.InOrder → s.names ≠ [] →
      ((∀ (V : Type) [Inhabited V] (key : List V → Nat) (n : Nat) (arrays : List (List V)),
        s.Data key keyBits n arrays → s.Sorts key keyBits n arrays) ↔
        keyBits ≤ s.bits ∨ ∀ a ∈ s.arguments, a.name ∈ s.names)) ∧
    ∀ (context : Context) (c : SortCode) (w : World), Leads (buildRadixSort context c)
      (fun i w' => ∃ s, w'.radixSorters[i]? = some s ∧ s.names = c.names ∧ s.bits = c.bits ∧ s.Served w')
      (fun _ _ => True) w := by
  refine ⟨⟨mem_passes hbits keyBits, pairwise_passes hbits keyBits⟩, ?_, ?_, ?_, ?_⟩
  · intro w i c args hw hsort hasks hargs hbufs
    refine (leads_callRadixSort hs hw hsort hasks hargs hbufs).imp ?_
    rintro r w' ⟨trace, out, hruns, hr⟩
    obtain ⟨_, _, _, -, -, hrun⟩ := id hruns
    exact ⟨trace, out, hruns, hr, fun p hp => (hrun.taken p hp).ownOutputs_iff hs, hrun.leaves hs hbits hargs⟩
  · constructor
    · intro hord V _ key n arrays hrds hdata
      exact sorts_of_inOrder hs hbits hord hdata (.inl hrds)
    · intro hall
      by_contra hord
      obtain ⟨key, arrays, hrds, hdata, hnot⟩ := exists_not_sorts hs hbits hkeyBits hord
      exact hnot (hall Nat key 2 arrays hrds hdata)
  · intro hord hnms
    constructor
    · intro hall
      by_contra hneither
      push Not at hneither
      obtain ⟨hlt, a, hmem, ha⟩ := hneither
      obtain ⟨key, arrays, hdata, hnot⟩ := exists_not_sorts_of_unsorted hs hbits hord hlt hnms hmem ha
      exact hnot (hall Nat key 2 arrays hdata)
    · intro heither V _ key n arrays hdata
      refine sorts_of_inOrder hs hbits hord hdata (heither.symm.imp_left fun hall => ?_)
      intro r r' hr hr' heq
      rw [sortedOf_all hall hr, sortedOf_all hall hr'] at heq
      rw [heq]
  · exact fun context c w => leads_buildRadixSort context c

end Host

namespace Radix

variable (names : List String)

def sampleSorter : Sorter :=
  { arguments := [.vector (.number .int32) "a" false, .vector (.number .int32) "b" false], names, bits := 2
    keyType := .number .uint32, scan := 0, leadArray := 1 }

lemma proper_sampleSorter {names : List String} (h : names = ["a", "b"] ∨ names = ["b", "a"]) :
    (sampleSorter names).Proper := by
  rcases h with rfl | rfl <;> exact ⟨by decide, by decide, by decide, by decide⟩

def sampleArrays : List DeviceArray :=
  [0, 1].map fun buffer => { context := default, queue := some default, type := .number .int32, shape := [2],
                             strides := [4], buffer, events := buffer }

def sampleCall : Host.SortCall := { keyBits := some 4 }

def returnedBuffer : Actual → Option BufferId
  | .array a => some a.buffer
  | _ => none

def sampleWorld : World :=
  let bindings := [.generic, .generic, .generic, .generic, .generic, .packed 'i', .packed 'i']
  { memory := #[⟨.buffer, 1, ⟨8, []⟩⟩, ⟨.buffer, 1, ⟨8, []⟩⟩], eventLists := #[[], []]
    radixSorters := #[sampleSorter names]
    scans := #[{ context := default, devices := [⟨0, 0⟩], firstArray := 0
                 code := ⟨.number .int32, .text "", "", "", none, "", none, [], .number .int32, "scan", [], "", none⟩
                 arguments := Sorter.scanArguments (sampleSorter names).arguments names, kernels := .serial 0 }]
    kernels := #[{ program := 0, name := "scan_debug_scan", numArgs := 7, source := none, bindings
                   bound := List.replicate 7 .unset }] }

lemma fitted_sampleWorld : (sampleWorld names).Fitted :=
  World.fitted_of_forall (forall_mem_singleton.2 ⟨rfl, rfl⟩)

end Radix

namespace Host

open Radix Sorter

theorem callRadixSort_arrays_pair :
    ((callRadixSort 0 (sampleArrays.map .array) sampleCall).run.run (Radix.sampleWorld ["a", "b"])).1.toBool = true ∧
    Leads (callRadixSort 0 (sampleArrays.map .array) sampleCall)
      (fun r w' => ∃ trace out,
        sampleCall.Runs (sampleSorter ["a", "b"]) 4 sampleArrays (Radix.sampleWorld ["a", "b"]) trace out w' ∧
        r.1 = ((sampleSorter ["a", "b"]).sortedOf out).map .array ∧
        (∀ p ∈ trace, (sampleSorter ["a", "b"]).OwnOutputs p) ∧
        (sampleSorter ["a", "b"]).Leaves 4 sampleArrays trace out)
      (fun _ _ => True) (Radix.sampleWorld ["a", "b"]) ∧
    ∀ (key : List Nat → Nat) (n : Nat) (arrays : List (List Nat)), (sampleSorter ["a", "b"]).Data key 4 n arrays →
      (sampleSorter ["a", "b"]).Sorts key 4 n arrays := by
  have hord : (sampleSorter ["a", "b"]).InOrder := Sublist.refl _
  obtain ⟨-, hcall, -, hsrt, -⟩ := callRadixSort_arrays (s := sampleSorter ["a", "b"])
    (proper_sampleSorter (.inl rfl)) (by decide) (show 1 ≤ 4 by decide)
  refine ⟨by decide +kernel, ?_, ?_⟩
  · have hfit := fitted_sampleWorld ["a", "b"]
    have hsort : (Radix.sampleWorld ["a", "b"]).radixSorters[0]? = some (sampleSorter ["a", "b"]) := rfl
    have hbufs : ∀ a ∈ sampleArrays, a.buffer < (Radix.sampleWorld ["a", "b"]).memory.size := by decide
    generalize Radix.sampleWorld ["a", "b"] = w at hfit hsort hbufs ⊢
    refine (hcall w 0 sampleCall _ hfit hsort (.inl rfl) rfl hbufs).imp ?_
    rintro r w' ⟨trace, out, hruns, hr, hown, hleaves⟩
    exact ⟨trace, out, hruns, hr, fun p hp => (hown p hp).2 hord, hleaves⟩
  · intro key n arrays hdata
    exact (hsrt hord (by decide)).2 (.inr (by decide)) Nat key n arrays hdata

/-- With the names in the other order, both arrays are handed on as the other one: after the first pass the sort goes on
by the wrong array, and neither array comes back sorted. -/
theorem callRadixSort_mixed :
    (sampleSorter ["b", "a"]).Proper ∧
    ((callRadixSort 0 (sampleArrays.map .array) sampleCall).run.run
      (Radix.sampleWorld ["b", "a"])).1.toOption.map (fun r => r.1.map returnedBuffer) = some [some 6, some 5] ∧
    Leads (callRadixSort 0 (sampleArrays.map .array) sampleCall)
      (fun _ w' => ∃ trace out,
        sampleCall.Runs (sampleSorter ["b", "a"]) 4 sampleArrays (Radix.sampleWorld ["b", "a"]) trace out w' ∧
        ∀ p ∈ trace, ¬ (sampleSorter ["b", "a"]).OwnOutputs p)
      (fun _ _ => True) (Radix.sampleWorld ["b", "a"]) ∧
    (sampleSorter ["b", "a"]).ReadsSorted (fun row : List Nat => row[0]?.getD 0) ∧
    (sampleSorter ["b", "a"]).Data (fun row => row[0]?.getD 0) 4 2 [[1, 0], [7, 8]] ∧
    (sampleSorter ["b", "a"]).passAll (fun row => row[0]?.getD 0) 2 [0, 2] [[1, 0], [7, 8]] =
      some [[1, 0], [7, 8]] ∧
    ¬ (sampleSorter ["b", "a"]).Sorts (fun row => row[0]?.getD 0) 4 2 [[1, 0], [7, 8]] := by
  have hs : (sampleSorter ["b", "a"]).Proper := proper_sampleSorter (.inr rfl)
  have hord : ¬ (sampleSorter ["b", "a"]).InOrder := by decide
  have hpasses : (sampleSorter ["b", "a"]).passAll (fun row => row[0]?.getD 0) 2 [0, 2] [[1, 0], [7, 8]] =
      some [[1, 0], [7, 8]] := by decide
  refine ⟨hs, by decide +kernel, ?_, ?_, ⟨rfl, by decide, by decide⟩, hpasses, ?_⟩
  · have hfit := fitted_sampleWorld ["b", "a"]
    have hsort : (Radix.sampleWorld ["b", "a"]).radixSorters[0]? = some (sampleSorter ["b", "a"]) := rfl
    have hbufs : ∀ a ∈ sampleArrays, a.buffer < (Radix.sampleWorld ["b", "a"]).memory.size := by decide
    generalize Radix.sampleWorld ["b", "a"] = w at hfit hsort hbufs ⊢
    refine (leads_callRadixSort hs hfit hsort (c := sampleCall) (.inl rfl) rfl hbufs).imp ?_
    rintro r w' ⟨trace, out, hruns, -⟩
    obtain ⟨_, _, _, -, -, hrun⟩ := id hruns
    exact ⟨trace, out, hruns, fun p hp hown => hord (((hrun.taken p hp).ownOutputs_iff hs).1 hown)⟩
  · intro r r' hr hr' heq
    rw [sortedOf_all (by decide) hr, sortedOf_all (by decide) hr'] at heq
    rw [heq]
  · intro hsrt
    rw [Sorts, show passes (sampleSorter ["b", "a"]).bits 4 = [0, 2] from rfl, hpasses] at hsrt
    have hfst := congrArg (fun l => (l.getD []).head?) hsrt
    change some [1, 0] = some (stableSort [1, 0] [1, 0]) at hfst
    rw [stableSort_swapped (by decide)] at hfst
    cases hfst

end Host

end ClHost
