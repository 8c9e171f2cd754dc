import ClHost.Proofs.Kernel.Calls

/-!
# Declared, typed and bound arguments agree

The signature of a generated kernel, the types that are declared for it and the values that it is launched with are put
together in three places.
-/

namespace ClHost

open KernelArgument Source Host List Scan ScanCode ElementwiseCode

variable {w : World}

def numbered (x : String × Int) : String × Actual := (x.1, .literal (.int x.2))

/-- The parameters of a kernel in its source, the types that were declared for them and the values of a launch are as
many, and agree one by one. -/
def World.Agrees (w : World) (k : KernelId) (values : List Actual) (named : List (String × Actual)) : Prop :=
  ∃ c source types declarations, w.kernels[k]? = some c ∧ c.source = some source ∧ c.passedTypes = some types ∧
    Signs source c.name declarations ∧
    List.Forall₂ (fun d t => Declares w.registry source d t.type?) declarations types ∧
    List.Forall₂ Receives declarations named ∧ values = named.map (·.2)

lemma World.Generated.agrees {k : KernelId} {s : KernelSource} {declarations : List String} {values : List Actual}
    {named : List (String × Actual)} (hk : w.Generated k s) (hs : s.Takes w.registry declarations)
    (hnmd : List.Forall₂ Receives declarations named) (hval : values = named.map (·.2)) :
    w.Agrees k values named := by
  obtain ⟨c, hc, hname, hsrc, htys⟩ := hk
  exact ⟨c, s.text, s.passed, declarations, hc, hsrc, htys, hname ▸ hs.1, hs.2, hnmd, hval⟩

variable {d n : String} {args : List Actual}

lemma receives_buffer (hd : declaredName d = n) (b : BufferId) : Receives d (n, .buffer b) := ⟨hd, fun _ => ⟨b, rfl⟩⟩

lemma receives_number (hd : declaredName d = n ∧ '*' ∉ d.toList) (x : Int) : Receives d (numbered (n, x)) :=
  ⟨hd.1, fun hstar => absurd hstar hd.2⟩

/-! ## Elementwise operations -/

lemma ElementwiseCode.Built.agrees {c : ElementwiseCode} {overRange : Bool} {x : KernelId × List KernelArgument}
    (h : c.Built w.registry overRange w x) (hr : w.registry.Speaks) (hc : c.arguments.Plain)
    {declared : List KernelArgument} (hread : c.arguments.read w.registry true = .ok declared)
    (hlen : args.length = declared.length) (hfits : ∀ y ∈ declared.zip args, Fits y) {numbers : List (String × Int)}
    (hidx : indexParameters overRange = numbers.map fun y => .scalar (.number .int64) y.1) :
    w.Agrees x.1 ((declared.zip args).flatMap passedValues ++ numbers.map fun y => .literal (.int y.2))
      ((declared.zip args).flatMap namedValues ++ numbers.map numbered) := by
  obtain ⟨declared', texts, types, preamble, loopPrep, hread', hpars, htxs, htys, hgen⟩ := h
  obtain rfl : declared' = declared := Except.ok.inj (hread'.symm.trans hread)
  have hnms : ∀ a ∈ indexParameters overRange, a.Named := by
    have hids : ∀ n ∈ (if overRange then ["start", "stop", "step"] else ["n"]), Text.IsIdentifier n := by
      cases overRange <;> decide
    exact forall_mem_map.2 hids
  have hargs : ∀ a ∈ x.2, a.Named := by
    rw [hpars]
    exact forall_mem_append.2 ⟨hc.named hread, hnms⟩
  have hne : x.2 ≠ [] := by
    rw [hpars]
    cases overRange <;> simp [indexParameters]
  obtain ⟨pss, hpss, htks⟩ := takes hr hargs hne htxs htys c overRange preamble loopPrep
  -- The numbers are values of further arguments.
  have hzip : x.2.zip (args ++ numbers.map fun y => .literal (.int y.2)) =
      declared'.zip args ++ numbers.map fun y => (.scalar (.number .int64) y.1, .literal (.int y.2)) := by
    rw [hpars, hidx, zip_append hlen.symm, zip_map']
  have hall : ∀ y ∈ x.2.zip (args ++ numbers.map fun y => .literal (.int y.2)), Fits y := by
    rw [hzip]
    exact forall_mem_append.2 ⟨hfits, forall_mem_map.2 fun _ _ => trivial⟩
  obtain ⟨hrecv, hval⟩ := mapM_parameters_receive hr hargs hpss (by simp [hpars, hidx, hlen]) hall
  simp only [hzip, flatMap_append, flatMap_map] at hrecv hval
  refine hgen.agrees htks ?_ ?_
  · simpa [namedValues, numbered, map_eq_flatMap] using hrecv
  · simpa [namedValues, passedValues, numbered, map_eq_flatMap] using hval.symm

/-! ## Reductions -/

def Host.ReductionLaunch.named (l : ReductionLaunch) (stage : ReductionStage) (args : List Actual) (r : IndexRange)
    (n : Int) (s : Reduction.Share) : List (String × Actual) :=
  [("pcl_out__base", .buffer l.result.buffer), numbered ("pcl_out__offset", l.result.offset)] ++
    (stage.arguments.zip args).flatMap namedValues ++
    [("pcl_start", r.start), ("pcl_step", r.step), ("pcl_stop", r.stop), ("pcl_seq_count", s.rounds), ("n", n)].map numbered

lemma ReductionCode.Built.length {c : ReductionCode} {first second : ReductionStage}
    (hfst : c.Built w.registry .mapping w first) (hsnd : c.Built w.registry .folding w second) :
    second.arguments.length = first.arguments.length + 1 := by
  obtain ⟨⟨source, hsrc, hread⟩, -⟩ := hfst
  obtain ⟨⟨source', hsrc', rest, hrest, hargs⟩, -⟩ := hsnd
  obtain rfl := Option.some.inj (hsrc.symm.trans hsrc')
  rw [hargs, length_cons, ArgumentSource.length_of_read hrest hread]

lemma ReductionCode.Built.agrees {c : ReductionCode} {phase : ReductionPhase} {stage : ReductionStage}
    (h : c.Built w.registry phase w stage) (hr : w.registry.Speaks)
    (hc : ∀ source, c.arguments = some source → source.Plain) (hlen : args.length = stage.arguments.length)
    {l : ReductionLaunch} {call : ReductionCall} {r : IndexRange} {n : Int} {s : Reduction.Share}
    (hl : l.Deals stage args call r n s) : w.Agrees stage.kernel l.args (l.named stage args r n s) := by
  obtain ⟨⟨source, hsrc, hread⟩, pss, types, parts, hpss, hpts, htys, hgen⟩ := h
  have hargs : ∀ a ∈ stage.arguments, a.Named := by
    cases phase with
    | mapping => exact (hc source hsrc).named hread
    | folding =>
      obtain ⟨rest, hrest, hargs⟩ := hread
      rw [hargs]
      exact forall_mem_cons.2 ⟨show Text.IsIdentifier _ by decide, (hc source hsrc).named hrest⟩
  have htks := Reduction.SourceParts.takes hr hargs hpss htys hpts
  obtain ⟨hrecv, hval⟩ := mapM_parameters_receive hr hargs hpss hlen hl.fits
  simp only [map_append] at htks
  refine hgen.agrees htks (rel_append (rel_append ?_ hrecv) ?_) ?_
  · exact .cons (receives_buffer (by decide) _) (.cons (receives_number (by decide) _) .nil)
  · exact .cons (receives_number (by decide) _) (.cons (receives_number (by decide) _) (.cons (receives_number (by decide) _)
      (.cons (receives_number (by decide) _) (.cons (receives_number (by decide) _) .nil))))
  · rw [hl.args, ReductionLaunch.named, map_append, map_append, hval]
    rfl

/-! ## Scans -/

def Scan.marks (starts flags : List DeviceArray) : List (String × Actual) :=
  starts.map (fun a => ("psc_g_first_segment_start_in_interval", .buffer a.buffer)) ++
    flags.map fun a => ("psc_g_segment_start_flags", .buffer a.buffer)

def Host.ScanLaunches.Agree (l : ScanLaunches) (w : World) (first second update : KernelId)
    (named : List (String × Actual)) (n : Int) (results values : BufferId) (starts flags : List DeviceArray) : Prop :=
  w.Agrees first l.first (named ++ ([("psc_partial_scan_buffer", .buffer values), numbered ("N", n),
    numbered ("psc_interval_size", l.intervals.size), ("psc_interval_results", .buffer results)] ++
    marks starts flags)) ∧
  w.Agrees second l.second (named ++ ((("interval_sums", .buffer results) ::
    starts.map fun a => ("g_first_segment_start_in_interval_input", .buffer a.buffer)) ++
    [("psc_partial_scan_buffer", .buffer results), numbered ("N", l.intervals.count),
      numbered ("psc_interval_size", l.intervals.size)])) ∧
  w.Agrees update l.update (named ++ ([numbered ("N", n), numbered ("psc_interval_size", l.intervals.size),
    ("psc_interval_results", .buffer results), ("psc_partial_scan_buffer", .buffer values)] ++
    marks starts flags))

lemma receives_optional (hd : declaredName d = n) {b : Bool} {arrays : List DeviceArray} (h : arrays.length = b.toNat) :
    List.Forall₂ Receives (if b then [d] else []) (arrays.map fun a => (n, .buffer a.buffer)) := by
  cases b with
  | false =>
    rw [length_eq_zero_iff.1 h]
    exact .nil
  | true =>
    obtain ⟨a, rfl⟩ := length_eq_one_iff.1 h
    exact .cons (receives_buffer hd _) .nil

lemma Scan.receives_sizes (index : ElementType) (n size : Int) :
    List.Forall₂ Receives ((sizeParameters index).map (·.declaration))
      [numbered ("N", n), numbered ("psc_interval_size", size)] := by
  have hcnt : declaredName "const psc_index_type N" = "N" ∧ '*' ∉ "const psc_index_type N".toList := by decide
  have hsize : declaredName "const psc_index_type psc_interval_size" = "psc_interval_size" ∧
      '*' ∉ "const psc_index_type psc_interval_size".toList := by decide
  exact .cons (receives_number hcnt n) (.cons (receives_number hsize size) .nil)

section Own

variable {c : ScanCode} {starts flags : List DeviceArray} (hsts : starts.length = c.segmentStart.isSome.toNat)
  (hfl : flags.length = c.storesStarts.toNat)

include hsts hfl

lemma ScanCode.receives_marks :
    List.Forall₂ Receives ((if c.segmentStart.isSome then [firstStarts.declaration] else []) ++
      if c.storesStarts then [allStarts.declaration] else []) (marks starts flags) :=
  rel_append (receives_optional (by decide) hsts) (receives_optional (by decide) hfl)

lemma ScanCode.receives_first (n size : Int) (results values : BufferId) :
    List.Forall₂ Receives (c.firstParameters.map (·.declaration))
      ([("psc_partial_scan_buffer", .buffer values), numbered ("N", n), numbered ("psc_interval_size", size),
        ("psc_interval_results", .buffer results)] ++ marks starts flags) := by
  have hmarks := receives_marks hsts hfl
  unfold firstParameters
  generalize c.segmentStart.isSome = b, c.storesStarts = b' at hmarks ⊢
  have hmore : (IntervalParts.moreParameters .first b b').map (·.declaration) = intervalResults.declaration ::
      ((if b then [firstStarts.declaration] else []) ++ if b' then [allStarts.declaration] else []) := by
    cases b <;> cases b' <;> rfl
  rw [map_append, hmore]
  exact .cons (receives_buffer (by decide) _) (rel_append (receives_sizes c.indexType n size)
    (.cons (receives_buffer (by decide) _) hmarks))

lemma ScanCode.receives_update (n size : Int) (results values : BufferId) :
    List.Forall₂ Receives (c.updateParameters.map (·.declaration))
      ([numbered ("N", n), numbered ("psc_interval_size", size), ("psc_interval_results", .buffer results),
        ("psc_partial_scan_buffer", .buffer values)] ++ marks starts flags) := by
  have hmore : (UpdateParts.moreParameters c.segmentStart.isSome c.looksBehind).map (·.declaration) =
      (if c.segmentStart.isSome then [firstStarts.declaration] else []) ++
        if c.storesStarts then [allStarts.declaration] else [] := by
    unfold storesStarts
    cases c.segmentStart.isSome <;> cases c.looksBehind <;> rfl
  rw [updateParameters, map_append, hmore]
  exact rel_append (receives_sizes c.indexType n size) (.cons (receives_buffer (by decide) _)
    (.cons (receives_buffer (by decide) _) (receives_marks hsts hfl)))

omit hfl in
lemma ScanCode.receives_second (typeName indexName : String) (count size : Int) (results : BufferId) :
    List.Forall₂ Receives (carriedDeclarations c.segmentStart.isSome typeName indexName ++
        c.secondParameters.map (·.declaration)) ((("interval_sums", .buffer results) ::
        starts.map fun a => ("g_first_segment_start_in_interval_input", .buffer a.buffer)) ++
        [("psc_partial_scan_buffer", .buffer results), numbered ("N", count), numbered ("psc_interval_size", size)]) := by
  have hmore : IntervalParts.moreParameters .second c.segmentStart.isSome false = [] := by
    simp [IntervalParts.moreParameters]
  rw [secondParameters, hmore]
  refine rel_append (.cons (receives_buffer (declaredName_pointer (by decide) _) _)
    (receives_optional (declaredName_pointer (by decide) _) hsts)) ?_
  exact .cons (receives_buffer (by decide) _) (receives_sizes c.indexType count size)

end Own

lemma ScanKernel.Built.agrees {k : ScanKernel} (hk : k.Built w) (hr : w.registry.Speaks)
    {first second update : KernelId} {shape : GroupShape} {group : Nat}
    (hkers : k.kernels = .levels first second shape update group) (hlen : args.length = k.arguments.length)
    (hfits : ∀ x ∈ k.arguments.zip args, Fits x) {l : ScanLaunches} {n : Int} {results values : BufferId}
    {starts flags : List DeviceArray}
    (hl : l.Passes k n ((k.arguments.zip args).flatMap passedValues) shape results values starts flags) :
    l.Agree w first second update ((k.arguments.zip args).flatMap namedValues) n results values starts flags := by
  obtain ⟨s, x, hs, hargs, hpl, hx, hfst, hsnd, hupd⟩ := hk _ _ _ _ _ hkers
  have hnmd := hpl.named hs.arguments
  obtain ⟨pss, hpss, hdecl⟩ := hs.spelled hr hnmd
  rw [← hargs] at hlen hfits hl ⊢
  obtain ⟨hrecv, hval⟩ := mapM_parameters_receive hr hnmd hpss hlen hfits
  rw [← hdecl] at hrecv
  obtain ⟨hfirstTakes, hsecondTakes, hupdateTakes⟩ := hx
  rw [hs.code] at hfirstTakes hsecondTakes hupdateTakes
  rw [append_assoc] at hsecondTakes
  refine ⟨hfst.agrees hfirstTakes (rel_append hrecv
      (receives_first hl.segmented hl.marked n l.intervals.size results values)) ?_,
    hsnd.agrees hsecondTakes (rel_append hrecv
      (receives_second hl.segmented _ _ l.intervals.count l.intervals.size results)) ?_,
    hupd.agrees hupdateTakes (rel_append hrecv
      (receives_update hl.segmented hl.marked n l.intervals.size results values)) ?_⟩
  · simp [hl.first, hval, marks, numbered, Function.comp_def]
  · simp [hl.second, hval, numbered, Function.comp_def]
  · simp [hl.update, hval, marks, numbered, Function.comp_def]

/-! ## Calls -/

namespace Sample

def types : TypeRegistry where
  names := [(.type (.number .float32), "float"), (.type (.number .int32), "int"), (.type (.number .int64), "long")]

def vector (name : String) (withOffset : Bool) : KernelArgument := .vector (.number .float32) name withOffset

variable (args : List KernelArgument)

def parameters : List (List Parameter) := (args.mapM (KernelArgument.parameters types)).toOption.getD []

def passed : List PassedType := (passedTypes args).toOption.getD []

def scaling : ElementwiseCode where
  arguments := .items [.inr (vector "x" true), .inr (.scalar (.number .float32) "a")]
  operation := "x[i] = a*x[i]"

def scalingArguments (overRange : Bool) : List KernelArgument :=
  [vector "x" true, .scalar (.number .float32) "a"] ++ indexParameters overRange

def sum : ReductionKernel where
  type := .number .float32
  first := ⟨2, 1, [vector "x" true], ""⟩
  second := ⟨2, 2, [vector Reduction.inputName false, vector "x" true], ""⟩

def sumParts : Reduction.SourceParts :=
  ⟨"float", 2, [], "0", "a+b", "x[i]", "sum", "", (parameters args).flatten, "", false⟩

def setup : Setup where
  context := default
  code := { type := .number .float32, arguments := .items [.inr (vector "x" false)], input := "x[i]", scan := "a+b"
            neutral := none, output := "x[i] = prev_item", segmentStart := some "i == 7" }
  devices := [⟨0, 0⟩]
  arguments := [vector "x" false]
  firstArray := 0
  types := []
  scanMacro := "a+b"
  neutralMacro := ""
  segmentMacro := some "i == 7"
  typeName := "float"
  indexName := "int"
  declarators := ["__global float *x"]
  hasDouble := false
  isGpu := false

def levelSource (level : Level) (input segmentStart : String) : KernelSource :=
  let p := setup.parts level (setup.common input (some segmentStart) 0) ⟨2, 2⟩ (parameters args).flatten "" [] false
  ⟨p.text, p.name, passed args ++ (IntervalParts.fixedParameters p.indexType ++
    IntervalParts.moreParameters level p.common.isSegmented p.storesStarts).filterMap (·.passed)⟩

def updateSource : KernelSource :=
  let p : UpdateParts := ⟨setup.common "x[i]" (some "i == 7") 0, "scan_final_update", 2,
    (parameters setup.arguments).flatten, "", "", setup.code.output, true, setup.code.indexType⟩
  ⟨p.text, p.name, passed setup.arguments ++ (UpdateParts.fixedParameters p.indexType ++
    UpdateParts.moreParameters p.common.isSegmented p.looksBehind).filterMap (·.passed)⟩

def sources : Sources where
  first := levelSource setup.arguments .first "x[i]" "i == 7"
  second := levelSource (secondArguments setup) .second "interval_sums[i]"
    "g_first_segment_start_in_interval_input[i] != NO_SEG_BOUNDARY"
  shape := ⟨2, 2⟩
  update := updateSource
  updateGroup := 2

def sums : ScanKernel := ⟨default, setup.code, [⟨0, 0⟩], setup.arguments, 0, .levels 3 4 sources.shape 5 2⟩

def kernelOf (s : KernelSource) : Kernel :=
  { program := 0, name := s.name, numArgs := s.passed.length, source := some s.text, passedTypes := some s.passed
    bindings := replicate s.passed.length .generic, bound := replicate s.passed.length .unset }

def kernels : List Kernel :=
  let scaled (overRange : Bool) (numbers : List String) : KernelSource := ⟨scaling.source overRange "" ""
    (["__global float *x__base, long x__offset", "float a"] ++ numbers), scaling.name, passed (scalingArguments overRange)⟩
  let stage (s : ReductionStage) : KernelSource := ⟨(sumParts s.arguments).text, "sum",
    Reduction.passedOf Reduction.leadingParameters ++ passed s.arguments ++
      Reduction.passedOf Reduction.rangeParameters ++ Reduction.passedOf Reduction.countParameters⟩
  [scaled false ["long n"], stage sum.first, stage sum.second, sources.first, sources.second, sources.update,
    scaled true ["long start", "long stop", "long step"]].map kernelOf

def world : World where
  platforms := [{ devices := [{ maxWorkGroupSize := 256 }] }]
  registries := #[types]
  memory := #[⟨.buffer, 1, ⟨160, []⟩⟩]
  eventLists := #[[]]
  kernels := kernels.toArray
  elementwise := #[⟨default, scaling⟩]
  elementwiseBuilds := [((0, false), (0, scalingArguments false)), ((0, true), (6, scalingArguments true))]
  reductions := #[sum]
  scans := #[sums]

lemma speaks_types : types.Speaks := by
  intro t name h
  obtain ⟨x, hx, rfl⟩ := TypeRegistry.exists_of_typeName h
  simp only [types, mem_cons, not_mem_nil, or_false] at hx
  rcases hx with rfl | rfl | rfl <;> decide

lemma named_x (withOffset : Bool) : ∀ a ∈ [vector "x" withOffset], a.Named :=
  forall_mem_singleton.2 (by decide : Text.IsIdentifier "x")

lemma plain_items {args : List KernelArgument} (h : ∀ a ∈ args, a.Named) : (ArgumentSource.items (args.map .inr)).Plain :=
  fun a ha => h a (by simpa using ha)

lemma built_sum : sum.Built world := by
  refine ⟨{ type := .number .float32, neutral := "0", reduce := "a+b"
            arguments := some (.items ([vector "x" true].map .inr)) }, ?_,
    ⟨⟨_, rfl, rfl⟩, _, _, sumParts _, rfl, rfl, rfl, _, rfl, rfl, rfl, rfl⟩,
    ⟨⟨_, rfl, _, rfl, rfl⟩, _, _, sumParts _, rfl, rfl, rfl, _, rfl, rfl, rfl, rfl⟩⟩
  rintro _ ⟨⟩
  exact plain_items (named_x true)

lemma built_sums : sums.Built world := by
  rintro _ _ _ _ _ ⟨⟩
  have hs : setup.Prepared types setup.code := ⟨rfl, rfl, rfl, rfl, rfl, rfl, rfl, rfl⟩
  have hsrcs : sources.Generated types setup "x[i]" :=
    ⟨rfl, ⟨_, _, _, _, _, _, _, rfl, rfl, rfl⟩, ⟨_, _, _, _, _, _, _, rfl, rfl, rfl⟩, ⟨_, _, _, _, _, rfl, rfl, rfl⟩⟩
  exact ⟨setup, sources, hs, rfl, plain_items (named_x false),
    take_of_generated hsrcs hs speaks_types (named_x false), ⟨_, rfl, rfl, rfl, rfl⟩, ⟨_, rfl, rfl, rfl, rfl⟩,
    ⟨_, rfl, rfl, rfl, rfl⟩⟩

lemma forall_empty {α : Type} (P : α → Prop) (i : Nat) (x : α) (hx : (#[] : Array α)[i]? = some x) : P x := by simp at hx

lemma allBuilt_world : world.AllBuilt where
  names := speaks_types
  fitted := by
    have hslots (n : Nat) : Binding.totalSlots (replicate n .generic) = n := by
      induction n with
      | zero => rfl
      | succ n ih =>
        rw [replicate_succ, Binding.totalSlots_cons, ih]
        exact Nat.add_comm 1 n
    refine World.fitted_of_forall fun c hc => ?_
    obtain ⟨s, -, rfl⟩ := mem_map.1 hc
    exact ⟨length_replicate, hslots _⟩
  sources := nofun
  plain := by
    have hnmd : ∀ a ∈ [vector "x" true, .scalar (.number .float32) "a"], a.Named :=
      forall_mem_cons.2 ⟨(by decide : Text.IsIdentifier "x"), forall_mem_singleton.2 (by decide : Text.IsIdentifier "a")⟩
    exact forall_getElem?_push (forall_empty _) (plain_items hnmd)
  elementwise i overRange x hx := by
    rcases mem_pair.1 hx with h | h
    all_goals
      cases h
      exact ⟨_, rfl, _, _, _, _, _, rfl, rfl, rfl, rfl, _, rfl, rfl, rfl, rfl⟩
  reductions := forall_getElem?_push (forall_empty _) built_sum
  scans := forall_getElem?_push (forall_empty _) built_sums

def array : DeviceArray :=
  { context := default, queue := some default, type := .number .float32, shape := [40], strides := [4], buffer := 0
    events := 0 }

end Sample

open Sample

end ClHost
