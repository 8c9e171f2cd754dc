import ClHost.Device.Command
import ClHost.Elementwise.Build

/-!
# Building and calling scans

The sources of a scan are generated once for the same fragments on the same devices, since finding the size of groups
takes trial builds.
-/

namespace ClHost

open Scan KernelArgument

def noNeutralWarning : String :=
  "not specifying 'neutral' is deprecated and will lead to wrong results if your scan is not in-place or your " ++
    "'output_statement' does something otherwise non-trivial"

namespace Scan

structure Setup where
  context : Context
  code : ScanCode
  devices : List DeviceRef
  arguments : List KernelArgument
  firstArray : Nat
  types : List (String × String × Nat)
  scanMacro : String
  neutralMacro : String
  segmentMacro : Option String
  typeName : String
  indexName : String
  declarators : List String
  hasDouble : Bool
  isGpu : Bool

def indexBounds : ElementType → Result (Int × Int)
  | .number p => if p.isInteger then .ok (p.least, p.greatest) else .error (.bare .value)
  | _ => .error (.bare .value)

end Scan

namespace Host

variable (k : ScanKernel) (context : Context) (c : ScanCode) (s : Setup)

def prepareScan : Host Setup := do
  if c.neutral.isNone then warn .user noNeutralWarning
  if c.type.size % 4 != 0 then refuse .type "scan value type must have size divisible by 4 bytes"
  let (least, _) ← lift (indexBounds c.indexType)
  if least ≥ 0 then refuse .type "index_dtype must be signed"
  let devices := c.devices.getD context.devices
  let arguments ← lift (c.arguments.read (← registry) false)
  let firstArray ← match arguments.findIdx? isVector with
    | some i => pure i
    | none => bare .index
  let segmentMacro ← c.segmentStart.mapM fun e => lift (Source.macroBody e)
  if c.fetches.any fun f => f.offset != 0 && f.offset != -1 then
    refuse .runtime "input_fetch_expr offsets must either be 0 or -1"
  let types ← arguments.mapM fun a => match a.type? with
    | some t => do pure (a.name, ← typeName t, t.size)
    | none => bare .attribute
  let scanMacro ← lift (Source.macroBody c.scan)
  let neutralMacro ← match c.neutral with
    | some n => lift (Source.macroBody n)
    | none => bare .attribute
  let isGpu ← match devices with
    | d :: _ => hasType d 4
    | [] => bare .index
  let doubles ← devices.mapM hasDouble
  let indexName ← typeName c.indexType
  let typeName ← typeName c.type
  let r ← registry
  let declarators ← lift (arguments.mapM (declarator r))
  return {
    context, code := c, devices, arguments, firstArray, types, scanMacro, neutralMacro, segmentMacro, typeName
    indexName, declarators, hasDouble := doubles.all id, isGpu }

def scanCommon (input : String) (segmentStart : Option String) : Host CommonParts := do
  let (_, largest) ← lift (indexBounds s.code.indexType)
  return {
    scan := s.scanMacro, input, segmentStart, preamble := s.code.preamble, typeName := s.typeName
    indexName := s.indexName, largestIndex := largest, hasDouble := s.hasDouble }

def scanFetches : Host (List (Fetch × String × Nat)) :=
  s.code.fetches.mapM fun f => match s.types.reverse.find? (·.1 == f.argument) with
    | some (_, t) => pure (f, t)
    | none => bare .key

def scanSpreadsBanks : Host Bool := do
  match s.devices with
  | [] => bare .index
  | d :: _ =>
    let p ← platformInfo d.platform
    return 4 < s.code.type.size && s.code.type.size % 8 == 0 && s.isGpu &&
      !Text.contains (Text.lower p.version) "beignet"

def scanLimits : Host SizeLimits := do
  let infos ← s.devices.mapM deviceInfo
  match s.devices, infos with
  | d :: _, i :: rest =>
    let p ← platformInfo d.platform
    let available := (rest.foldl (fun n j => min n j.localMemSize) i.localMemSize : Nat)
    -- Some platforms keep a part of local memory for themselves.
    let reserved := if Text.contains p.name "CUDA" then 0x400 else 0
    let isCpu ← hasType d 2
    return {
      localMemory := (available : Int) - reserved
      largestGroup := if isCpu then 16 else rest.foldl (fun n j => min n j.maxWorkGroupSize) i.maxWorkGroupSize
      groupStep := if isCpu then 4 else 64
      floors := if s.isGpu then [256, 192, 128] else [] }
  | _, _ => bare .value

def scanShape (spreadsBanks : Bool) : Host GroupShape := do
  let limits ← scanLimits s
  if limits.groups.isEmpty then bare .value
  let shared := sharedArguments s.code.fetches
  let bytes ← shared.mapM fun a => match s.types.reverse.find? (·.1 == a) with
    | some (_, _, n) => pure n
    | none => bare .key
  let value := if spreadsBanks then s.code.type.size + 4 else s.code.type.size
  match limits.choose { value, index := s.code.indexType.size, fetched := bytes.foldl (· + ·) 0 } with
  | some shape => return shape
  | none => bare .value

def intervalSource (level : Level) (arguments : List KernelArgument) (input : String)
    (segmentStart : Option String) (limit run : Nat) (spreadsBanks : Bool) : Host (KernelSource × GroupShape) := do
  let passed ← lift (passedTypes arguments)
  let shape : GroupShape := ⟨floorPower (min limit mostItems), run⟩
  let r ← registry
  let offsets ← lift (offsetCode r arguments)
  let parameters ← lift (arguments.mapM (parameters r))
  let storesStarts := level == .first && s.code.storesStarts
  let fetches ← if level == .first then scanFetches s else pure []
  if s.isGpu && shape.group == 0 then bare .value
  let name := s.code.name ++ level.ending
  let parts : IntervalParts := {
    common := ← scanCommon s input segmentStart, level, name, shape, arguments := parameters.flatten, offsets, fetches
    storesStarts, spreadsBanks, storesWords := s.isGpu, valueSize := s.code.type.size
    indexType := s.code.indexType, indexSize := s.code.indexType.size }
  let more := IntervalParts.moreParameters level segmentStart.isSome storesStarts
  return (⟨parts.text, name, passed ++ (IntervalParts.fixedParameters s.code.indexType ++ more).filterMap (·.passed)⟩,
    shape)

variable (q : Queue) (allocator : Option Allocator) (n : Int) (options : List String)

def buildKernelSource (k : KernelSource) : Host KernelId := do
  let p ← newProgram context k.text
  build p options none .standard
  let id ← programKernel p k.name
  declareTypes id k.passed
  return id

/-- The source of the first kernel at a size that it can be launched with, and the size that groups may have. -/
def firstSource (s : Setup) (run : Nat) (spreadsBanks : Bool) : Nat → Nat → Host (KernelSource × GroupShape × Nat)
  | tries, limit => do
    let input ← lift (Source.macroBody s.code.input)
    let (source, shape) ← intervalSource s .first s.arguments input s.code.segmentStart limit run spreadsBanks
    let k ← buildKernelSource s.context s.code.options source
    let limits ← s.devices.mapM (groupLimit k)
    let allowed := match limits with
      | l :: rest => rest.foldl min l
      | [] => 0
    if shape.group ≤ allowed then return (source, shape, limit)
    match tries with
    | 0 => bare .assertion
    | tries + 1 => firstSource s run spreadsBanks tries (min allowed limit)

def scanSizeAttempts : Nat := 20

def secondArguments : List KernelArgument :=
  s.arguments ++ [.vector s.code.type "interval_sums" false] ++
  if s.code.segmentStart.isSome then [.vector s.code.indexType "g_first_segment_start_in_interval_input" false] else []

def scanSources : Host Sources := do
  let spreadsBanks ← scanSpreadsBanks s
  let chosen ← scanShape s spreadsBanks
  let (first, shape, limit) ← firstSource s chosen.run spreadsBanks scanSizeAttempts chosen.group
  let crossing := s.code.segmentStart.map fun _ =>
    "g_first_segment_start_in_interval_input[i] != NO_SEG_BOUNDARY"
  let (second, _) ← intervalSource s .second (secondArguments s) "interval_sums[i]" crossing limit chosen.run
    spreadsBanks
  let r ← registry
  let updateGroup := min limit mostItems
  let parameters ← lift (s.arguments.mapM (parameters r))
  let offsets ← lift (offsetCode r s.arguments)
  let input ← lift (Source.macroBody s.code.input)
  let parts : UpdateParts := {
    common := ← scanCommon s input s.code.segmentStart, name := s.code.name ++ "_final_update", groupSize := updateGroup
    arguments := parameters.flatten, offsets, neutral := s.neutralMacro, output := s.code.output
    looksBehind := s.code.looksBehind, indexType := s.code.indexType }
  let passed ← lift (passedTypes s.arguments)
  let more := UpdateParts.fixedParameters s.code.indexType ++
    UpdateParts.moreParameters s.code.segmentStart.isSome s.code.looksBehind
  return { first, second, shape, update := ⟨parts.text, parts.name, passed ++ more.filterMap (·.passed)⟩, updateGroup }

def scanKey : Host Key := do
  let c := s.code
  return {
    type := c.type, declarators := s.declarators
    fragments := [some c.input, some c.scan, c.neutral, some c.output, s.segmentMacro, some c.name, some c.preamble]
    fetches := c.fetches, index := c.indexType, typeNames := (s.indexName, s.typeName)
    devices := ← s.devices.mapM deviceCacheId }

def knownSources : Host Sources := do
  let key ← scanKey s
  match (← get).scanSources.find? (·.1 == key) with
  | some (_, sources) => return sources
  | none =>
    let sources ← scanSources s
    modify fun w => { w with scanSources := w.scanSources ++ [(key, sources)] }
    return sources

def newScan : Host Nat := do
  let w ← get
  set { w with scans := w.scans.push k }
  return w.scans.size

def scanOf (kernels : Kernels) : ScanKernel := {
  context := s.context, code := s.code, devices := s.devices, arguments := s.arguments, firstArray := s.firstArray
  kernels }

def buildKernels (x : Sources) : Host Kernels := do
  let first ← buildKernelSource context options x.first
  let second ← buildKernelSource context options x.second
  let update ← buildKernelSource context options x.update
  return .levels first second x.shape update x.updateGroup

def buildScan : Host Nat := do
  let s ← prepareScan context c
  newScan (scanOf s (← buildKernels context c.options (← knownSources s)))

def buildSerialScan : Host Nat := do
  let s ← prepareScan context c
  let r ← registry
  let offsets ← lift (offsetCode r s.arguments)
  let parameters ← lift (s.arguments.mapM (parameters r))
  let input ← lift (Source.macroBody c.input)
  let parts : SerialParts := {
    common := ← scanCommon s input c.segmentStart, name := c.name ++ "_debug_scan", arguments := parameters.flatten
    offsets, neutral := s.neutralMacro, output := c.output, fetches := ← scanFetches s }
  let p ← newProgram context parts.text
  build p c.options none .standard
  let k ← programKernel p parts.name
  let passed ← lift (passedTypes s.arguments)
  declareTypes k (.buffer :: passed ++ [.value c.indexType])
  newScan (scanOf s (.serial k))

def scan (i : Nat) : Host ScanKernel := do
  return ((← get).scans)[i]?.getD default

structure ScanCall where
  queue : Option Queue := none
  allocator : Option Allocator := none
  size : Option Int := none
  wait : List EventId := []

def passScanArgument (p : PassedArguments) (param : KernelArgument) (v : Actual) : Host PassedArguments := do
  match param, v with
  | .vector _ _ withOffset, .array a =>
    return { p with
      values := p.values ++ [.buffer a.buffer] ++ (if withOffset then [.literal (.int a.offset)] else [])
      wait := p.wait ++ (← eventsOf a) }
  | .vector _ _ _, _ => bare .attribute
  | _, v => return { p with values := p.values ++ [v] }

structure ScanLaunches where
  intervals : Splitting
  first : List Actual
  second : List Actual
  update : List Actual

def prepareIntervals (args : List Actual)
    (shape : GroupShape) : Host ScanLaunches := do
  let units ← k.devices.mapM deviceInfo
  let most := 3 * (units.foldl (fun n i => max n i.maxComputeUnits) 0)
  let s ← match split n (shape.group * shape.run : Nat) most with
    | some s => pure s
    | none => bare .zeroDivision
  let results ← newRows q k.code.type [s.count] allocator
  let values ← newRows q k.code.type [n] allocator
  let flags ← if k.code.storesStarts then do pure [← newRows q (.number .bool) [n] allocator] else pure []
  let starts ←
    if k.code.segmentStart.isSome then do pure [← newRows q k.code.indexType [s.count] allocator] else pure []
  let buffers (arrays : List DeviceArray) : List Actual := arrays.map fun a => .buffer a.buffer
  let number (n : Int) : Actual := .literal (.int n)
  return {
    intervals := s
    first := args ++ (buffers [values] ++ [number n, number s.size] ++ buffers ([results] ++ starts ++ flags))
    second := args ++ (buffers ([results] ++ starts ++ [results]) ++ [number s.count, number s.size])
    update := args ++ ([number n, number s.size] ++ buffers ([results, values] ++ starts ++ flags)) }

def launchScan (args : PassedArguments)
    (first second : KernelId) (shape : GroupShape) (update : KernelId) (updateGroup : Nat) : Host EventId := do
  let l ← prepareIntervals k q allocator n args.values shape
  let run (k : KernelId) (groups : Int) (size : Nat) (values : List Actual) (wait : List EventId) : Host EventId :=
    call q k { globalSize := [groups], localSize := some [(size : Int)], countsGroups := true } values wait
  let e ← run first l.intervals.count shape.group l.first args.wait
  if !l.intervals.fitsOne then bare .assertion
  let e ← run second 1 shape.group l.second [e]
  run update l.intervals.count updateGroup l.update [e]

def callScan (i : Nat) (args : List Actual) (c : ScanCall) : Host EventId := do
  let k ← scan i
  if args.length != k.arguments.length then
    refuse .type ("expected " ++ toString k.arguments.length ++ " arguments, got " ++ toString args.length)
  let first ← match args[k.firstArray]? with
    | some (.array a) => pure a
    | _ => bare .attribute
  let allocator := c.allocator <|> first.allocator
  let queue? := c.queue <|> first.queue
  let n ← match c.size, first.shape with
    | some n, _ => pure n
    | none, [n] => pure n
    | none, _ => bare .value
  let isSerial := match k.kernels with
    | .serial _ => true
    | .levels _ _ _ _ _ => false
  if n == 0 && !isSerial then return ← enqueueMarker (← needQueue queue?) (some c.wait)
  match k.kernels with
  | .levels a b shape u group =>
    let passed ← (k.arguments.zip args).foldlM (fun p (param, v) => passScanArgument p param v)
      { wait := c.wait : PassedArguments }
    let q ← arrayQueue queue?
    launchScan k q allocator n passed a b shape u group
  | .serial kernel =>
    let q ← arrayQueue queue?
    let values ← newRows q k.code.type [n] allocator
    let passed ← (k.arguments.zip args).foldlM (fun p (param, v) => passScanArgument p param v)
      { values := [.buffer values.buffer], wait := c.wait : PassedArguments }
    call q kernel { globalSize := [1], localSize := some [1] } (passed.values ++ [.literal (.int n)]) passed.wait

end Host

/-! ## Scans of the library -/

inductive ScanEnd where
  | inclusive | exclusive
deriving DecidableEq

namespace ScanEnd

def output : ScanEnd → String
  | inclusive => "output_ary[i] = item;"
  | exclusive => "output_ary[i] = prev_item;"

def code (e : ScanEnd) (type : ElementType) (typeName scan : String) (neutral : Option String) : ScanCode := {
  type, scan, neutral, input := "input_ary[i]", output := e.output
  arguments := .text ("__global " ++ typeName ++ " *input_ary, __global " ++ typeName ++ " *output_ary") }

end ScanEnd

inductive ScanForm where
  | general
  | serial
  | into (e : ScanEnd)
deriving DecidableEq

structure ScanTemplate where
  arguments : Template.ArgumentList
  input : String
  scan : String
  neutral : String
  output : String
  segmentStart : Option String := none
  fetches : List Scan.Fetch := []
  name : String := "scan"
  preamble : String := ""
  processor : Option String := none

namespace Host

variable (context : Context) (input output : ElementType)

def runningSumCode : ScanCode := {
  type := output, input := "input[i]", scan := "a+b", neutral := some "0", output := "\noutput[i] = item;\n"
  arguments := .items [.inr (.vector input "input" false), .inr (.vector output "output" false)] }

def runningSum : Host Nat := do
  match (← get).runningSums.find? (fun e => e.1 == (context.id, input, output)) with
  | some (_, i) => return i
  | none =>
    let i ← buildScan context (runningSumCode input output)
    modify fun w => { w with runningSums := w.runningSums ++ [((context.id, input, output), i)] }
    return i

def runningSums (a : DeviceArray) (type : Option ElementType) (queue : Option Queue) (wait : List EventId) :
    Host (EventId × DeviceArray) := do
  let type := type.getD a.type
  let result ← newLike a type none
  let k ← runningSum a.context a.type type
  let e ← callScan k [.array a, .array result] { queue, wait := wait ++ (← eventsOf a) }
  addEvent result e
  return (e, result)

inductive ScanTarget where
  | inPlace
  | array (a : DeviceArray)
  | fresh

def scanInto (i : Nat) (input : DeviceArray) (target : ScanTarget) (allocator : Option Allocator)
    (queue : Option Queue) : Host DeviceArray := do
  let allocator := allocator <|> input.allocator
  let queue ← match queue <|> input.queue, target with
    | some q, _ => pure (some q)
    | none, .array a => pure a.queue
    | none, _ => bare .attribute
  let output ← match target with
    | .inPlace => pure input
    | .array a => pure a
    | .fresh => emptyLike { input with allocator }
  if input.shape != output.shape then refuse .value "input and output must have the same shape"
  if !input.contiguity.any then refuse .runtime "ScanKernel cannot deal with non-contiguous arrays"
  match input.shape with
  | [0] => return output
  | [_] =>
    let _ ← callScan i [.array input, .array output] { queue, allocator }
    return output
  | _ => bare .value

def scanTemplateCode (t : ScanTemplate) (f : Filling) (devices : Option (List DeviceRef)) :
    Host ScanCode := do
  let r ← lift (Template.Renderer.make t.processor f.aliases f.bindings)
  let args ← lift (r.arguments (← registry) false [t.arguments, f.moreArguments])
  let declarations ← r.preamble (← firstDevice context) f.declaredTypes args
  let type ← match f.aliases.find? (fun e => e.1 == "scan_t") with
    | some (_, t) => pure t
    | none => bare .key
  let render (s : String) : Host String := lift (r.render s)
  let input ← render t.input
  let scan ← render t.scan
  let neutral ← render t.neutral
  let output ← render t.output
  let segmentStart ← t.segmentStart.mapM render
  let name ← render t.name
  let preamble ← render (t.preamble ++ "\n" ++ f.morePreamble)
  return {
    type, arguments := .items (args.map .inr), input, scan, neutral := some neutral, output, segmentStart
    fetches := t.fetches, indexType := ((f.aliases.find? (fun e => e.1 == "index_t")).map (·.2)).getD (.number .int32)
    name, options := f.options, preamble := declarations ++ "\n" ++ preamble, devices }

end Host

/-! ## Carrying out selections -/

namespace Selection

def largestSigned : Int := 2147483647

def largestUnsigned : Int := 4294967295

def countType (s : Selection) (n : Int) : ElementType :=
  match s with
  | satisfying => .number (if largestSigned < n then .int64 else .int32)
  | parting | distinct => .number (if largestUnsigned < n then .uint64 else .uint32)

def conditionName : Selection → String
  | satisfying | parting => "predicate"
  | distinct => "macro_is_equal_expr"

def template : Selection → ScanTemplate
  | satisfying => {
      arguments := .text "item_t *ary, item_t *out, scan_t *count"
      input := "(%(predicate)s) ? 1 : 0", scan := "a+b", neutral := "0"
      output := "\nif (prev_item != item) out[item-1] = ary[i];\nif (i+1 == N) *count = item;\n"
      processor := some "printf" }
  | parting => {
      arguments := .text "item_t *ary, item_t *out_true, item_t *out_false, scan_t *count_true"
      input := "(%(predicate)s) ? 1 : 0", scan := "a+b", neutral := "0"
      output := "//CL//\nif (prev_item != item)\nout_true[item-1] = ary[i];\nelse\nout_false[i-item] = ary[i];\n" ++
        "if (i+1 == N) *count_true = item;\n"
      processor := some "printf" }
  | distinct => {
      arguments := .text "item_t *ary, item_t *out, scan_t *count_unique"
      fetches := [⟨"ary_im1", "ary", -1⟩, ⟨"ary_i", "ary", 0⟩]
      input := "(i == 0) || (IS_EQUAL_EXPR(ary_im1, ary_i) ? 0 : 1)", scan := "a+b", neutral := "0"
      output := "\nif (prev_item != item) out[item-1] = ary[i];\nif (i+1 == N) *count_unique = item;\n"
      preamble := "#define IS_EQUAL_EXPR(a, b) %(macro_is_equal_expr)s\n"
      processor := some "printf" }

end Selection

namespace Host

def selectionScan (context : Context) (key : SelectionKey) : Host Nat := do
  let known := (← get).selections.find? fun e => e.1 == (context.id, key)
  match known, key.extra with
  | some (_, i), [] => return i
  | _, _ =>
    let filling : Filling := {
      aliases := [("scan_t", key.count), ("item_t", key.item)]
      bindings := [(key.what.conditionName, .text key.condition)]
      morePreamble := key.preamble
      moreArguments := .entries (key.extra.map .argument) }
    let i ← buildScan context (← scanTemplateCode context key.what.template filling none)
    modify fun w => { w with selections := w.selections ++ [((context.id, key), i)] }
    return i

structure ExtraArgument where
  argument : KernelArgument
  value : Actual

/-- What a selection leaves: the selected elements, the others where they are kept, how many were selected,
and the event of the last launch. -/
structure Selected where
  chosen : DeviceArray
  others : Option DeviceArray
  count : DeviceArray
  event : EventId

def select (what : Selection) (a : DeviceArray) (condition : String) (extra : List ExtraArgument) (preamble : String)
    (queue : Option Queue) (wait : List EventId) : Host Selected := do
  let n ← match a.shape with
    | n :: _ => pure n
    | [] => bare .type
  let count := what.countType n
  let extraWaits ← extra.mapM fun e => match e.value with
    | .array a => eventsOf a
    | _ => pure []
  let k ← selectionScan a.context { what, count, item := a.type, condition, preamble, extra := extra.map (·.argument) }
  let chosen ← emptyLike a
  let others ← if what == .parting then do pure (some (← emptyLike a)) else pure none
  let counted ← newArray a.context a.queue count [] [] a.allocator
  let event ← callScan k
    ([.array a, .array chosen] ++ (others.toList.map .array) ++ [.array counted] ++ extra.map (·.value))
    { queue, wait := wait ++ extraWaits.flatten }
  return ⟨chosen, others, counted, event⟩

end Host

end ClHost
