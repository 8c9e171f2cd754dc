import ClHost.Session.ArrayMethods

/-!
# Reductions and scans in a session

Reductions and scans, their templates, the reductions of arrays and running sums, as operations on values.
-/

namespace ClHost.Session

open Host

variable (s : Value) (a : DeviceArray) (v : Value) (name : String) (context : Context) (arguments : Value)

def makeReduction (t : ElementType) (neutral reduce : String) (map : Option String)
    (arguments : Value) (name : String) (options : Value) (preamble : String) : Host Value := do
  let arguments ← given argumentSource arguments
  return .reduction (← buildReduction context {
    type := t, neutral, reduce, map, arguments, name, options := ← optionTexts options, preamble })

structure ReductionRef where
  index : Nat

instance : OfValue ReductionRef := ⟨fun v => match v with
  | .reduction i => pure ⟨i⟩
  | _ => bare .attribute⟩

instance : ToValue ReductionRef := ⟨fun r => .reduction r.index⟩

def callReduction (r : ReductionRef) (args : List Value) (named : Value) : Host Value := do
  let named ← pairsOf named
  let get := namedValue named
  let known := ["queue", "allocator", "wait_for", "return_event", "out", "range", "slice"]
  if named.any (fun e => !known.contains e.1) then refuse .type "invalid keyword argument to reduction kernel"
  let wait : Events ← ofValue (get "wait_for")
  let (result, e) ← Host.callReduction r.index (args.map actualOf) {
    queue := ← ofValue (get "queue"), allocator := ← allocatorOf (get "allocator"), wait := wait.items
    target := ← ofValue (get "out"), selection := ← selectionOf named }
  return if (get "return_event").truth then .tuple [.array result, .event e] else .array result

def reductionPart (r : ReductionRef) (name : String) : Host Value := do
  let k ← reduction r.index
  match name with
  | "stage_1_inf" => return .reductionStage k.first
  | "stage_2_inf" => return .reductionStage k.second
  | "dtype_out" => return .type k.type
  | _ => bare .attribute

def reductionStagePart : Host Value :=
  match v, name with
  | .reductionStage s, "group_size" => return .int s.groupSize
  | .reductionStage s, "kernel" => return .kernel s.kernel
  | .reductionStage s, "source" => return .text s.source
  | .reductionStage s, "arg_types" => return .list (s.arguments.map .argument)
  | _, _ => bare .attribute

def makeReductionTemplate (neutral reduce : String) (map : Option String) (_ _ : Value)
    (name preamble : String) (processor : Option String) : Host Value := do
  return .reductionTemplate (← newTemplate)
    { arguments := ← argumentList arguments, neutral, reduce, map, name, preamble, processor }

def buildReductionTemplate (t : Value) (context : Context) (aliases vars : Value) (morePreamble : String)
    (moreArguments types options devices : Value) : Host Value := do
  match t with
  | .reductionTemplate i t =>
    let key ← fillingKey [aliases, vars, .text morePreamble, moreArguments, types, options, devices]
    return .reduction (← builtOnce i context key do
      fillReduction context t (← fillingOf aliases vars morePreamble moreArguments (← ofValue types) options))
  | _ => bare .attribute

def productExpression (output a b : Option ElementType) (conjugates allowDouble : Bool) (index : String) :
    Host (String × ElementType × ElementType) := do
  let (output, a, b) ← lift (Reduction.productTypes output a b allowDouble)
  return (← lift (Reduction.product output a b conjugates index), output, b)

def standardReduction (op : StandardReduction) (context : Context) : Host ReductionRef := do
  return ⟨← Host.standardReduction context op⟩

variable (t : Option ElementType) (queue : Option Queue) (output : Option ElementType) (what : String)

def sumReduction (input : ElementType) : Host ReductionRef :=
  standardReduction (.sum output input) context

def dotReduction (output a b : Option ElementType) (conjugates : Bool) : Host ReductionRef :=
  standardReduction (.dot output a b conjugates) context

def subsetDotReduction (subset : ElementType) (a b : Option ElementType) (conjugates : Bool) : Host ReductionRef :=
  standardReduction (.subsetDot subset output a b conjugates) context

/-- An extreme by its name. -/
def extremeOf (t : ElementType) : Host Extreme := do
  match Extreme.ofName? what with
  | some w => return w
  | none =>
    let _ ← lift (Extreme.least.compare t)
    let _ ← lift (Extreme.neutral what t)
    return .least

def extremeReduction (t : PlainType) : Host ReductionRef := do
  standardReduction (.extreme (← extremeOf what t.type) t.type) context

def subsetExtremeReduction (t : PlainType) (subset : ElementType) :
    Host ReductionRef := do
  standardReduction (.subsetExtreme (← extremeOf what t.type) t.type subset) context

def reduceArrays (op : StandardReduction) (context : Context) (args : List DeviceArray) (queue : Option Queue)
    (slice : Value) (wait : List EventId) : Host DeviceArray := do
  let i ← Host.standardReduction context op
  let (result, e) ← Host.callReduction i (args.map .array) { queue, wait, selection := ← selectionBy .slice slice }
  Host.addEvent result e
  return result

def eventsOfAll (arrays : List DeviceArray) : Host (List EventId) := do
  return (← arrays.mapM eventsOf).flatten

def sumArray (slice : Value) : Host DeviceArray := do
  reduceArrays (.sum t a.type) a.context [a] queue slice (← eventsOf a)

def dotArrays (conjugates : Bool) (a b : DeviceArray) (t : Option ElementType) (queue : Option Queue)
    (slice : Value) : Host DeviceArray := do
  reduceArrays (.dot t (some a.type) (some b.type) conjugates) a.context [a, b] queue slice (← eventsOfAll [a, b])

def subsetDotArrays (subset a b : DeviceArray) (t : Option ElementType) (queue : Option Queue) (slice : Value) :
    Host DeviceArray := do
  reduceArrays (.subsetDot subset.type t (some a.type) (some b.type) false) a.context [subset, a, b] queue slice
    (← eventsOfAll [subset, a, b])

variable (k : Value) (args : List Value) (named : Value) (which : Extreme)

def extremeArray (a : DeviceArray) (queue : Option Queue) : Host DeviceArray := do
  reduceArrays (.extreme which a.type) a.context [a] queue .none (← eventsOf a)

def subsetExtremeArray (subset a : DeviceArray) (queue : Option Queue) (slice : Value) :
    Host DeviceArray := do
  reduceArrays (.subsetExtreme which a.type subset.type) a.context [subset, a] queue slice (← eventsOfAll [a, subset])

def truthArray (op : ElementType → StandardReduction) (a : DeviceArray) (queue : Option Queue) (wait : Events) :
    Host DeviceArray := do
  reduceArrays (op a.type) a.context [a] queue .none (wait.items ++ (← eventsOf a))

/-! ## Scans in a session -/

def fetchesOf : Host (List Scan.Fetch) := do
  let entries : List (List Value) ← ofValue v
  entries.mapM fun e => do
    match e with
    | [name, argument, offset] => return ⟨← ofValue name, ← ofValue argument, ← ofValue offset⟩
    | _ => bare .value

def makeScan (isSerial : Bool) (context : Context) (t : ElementType) (arguments : Value) (input scan : String)
    (neutral : Option String) (output : String) (segmentStart : Option String) (fetches : Value)
    (index : ElementType) (name : String) (options : Value) (preamble : String)
    (devices : Option (List DeviceRef)) : Host Value := do
  let code : ScanCode := {
    type := t, arguments := ← argumentSource arguments, input, scan, neutral, output, segmentStart
    fetches := ← fetchesOf fetches, indexType := index, name, options := ← optionTexts options, preamble, devices }
  if isSerial then return .scan .serial (← buildSerialScan context code)
  return .scan .general (← buildScan context code)

def makeScanInto (e : ScanEnd) (context : Context) (t : ElementType) (scan : String) (neutral : Option String)
    (_name : Value) (options : Value) (preamble : String) (devices : Option (List DeviceRef)) : Host Value := do
  let typeName ← typeName t
  return .scan (.into e) (← buildScan context
    { e.code t typeName scan neutral with options := ← optionTexts options, preamble, devices })

def callScan : Host Value := do
  let named ← pairsOf named
  let get := namedValue named
  let wait : Events ← ofValue (get "wait_for")
  match k with
  | .scan _ i => return .event (← Host.callScan i (args.map actualOf) {
      queue := ← ofValue (get "queue"), allocator := ← allocatorOf (get "allocator"), size := ← ofValue (get "size")
      wait := wait.items })
  | _ => Host.bare .attribute

def callScanInto (input : DeviceArray) (output allocator : Value) (queue : Option Queue) :
    Host DeviceArray := do
  let target ← match output with
    | .none => pure ScanTarget.inPlace
    | .text "new" => pure .fresh
    | .array a => pure (.array a)
    | _ => bare .attribute
  match k with
  | .scan _ i => scanInto i input target (← allocatorOf allocator) queue
  | _ => bare .attribute

def scanPart : Host Value := do
  match v with
  | .scan _ i =>
    let k ← scan i
    match k.kernels, name with
    | .levels first _ shape _ _, "first_level_scan_info" => return .scanStage shape.group (some shape.run) first
    | .levels _ second shape _ _, "second_level_scan_info" => return .scanStage shape.group (some shape.run) second
    | .levels _ _ _ update group, "final_update_info" => return .scanStage group none update
    | .serial kernel, "kernel" => return .kernel kernel
    | _, "dtype" => return .type k.code.type
    | _, "index_dtype" => return .type k.code.indexType
    | _, "is_segmented" => return .bool k.code.segmentStart.isSome
    | _, "use_lookbehind_update" => return .bool k.code.looksBehind
    | _, "store_segment_start_flags" => return .bool k.code.storesStarts
    | _, "first_array_idx" => return .int k.firstArray
    | _, "name_prefix" => return .text k.code.name
    | _, "parsed_args" => return .list (k.arguments.map .argument)
    | _, "input_expr" => return .text k.code.input
    | _, "output_statement" => return .text k.code.output
    | _, _ => bare .attribute
  | _ => bare .attribute

def scanStagePart : Host Value :=
  match v, name with
  | .scanStage group (some _) _, "wg_size" => return .int group
  | .scanStage _ (some run) _, "k_group_size" => return .int run
  | .scanStage group none _, "update_wg_size" => return .int group
  | .scanStage _ _ k, "kernel" => return .kernel k
  | _, _ => bare .attribute

def isSerialScan : Value → Bool
  | .function "scan.GenericDebugScanKernel" => true
  | _ => false

def makeScanTemplate (input scan neutral output : String) (segmentStart : Option String)
    (fetches : Value) (name preamble : String) (processor : Option String) : Host Value := do
  return .scanTemplate (← newTemplate) {
    arguments := ← argumentList arguments, input, scan, neutral, output, segmentStart, fetches := ← fetchesOf fetches
    name, preamble, processor }

def buildScanTemplate (t : Value) (context : Context) (aliases vars : Value) (morePreamble : String)
    (moreArguments types options devices form : Value) : Host Value := do
  match t with
  | .scanTemplate i t =>
    let isSerial := isSerialScan form
    let key ← fillingKey [aliases, vars, .text morePreamble, moreArguments, types, options, devices, .bool isSerial]
    return .scan (if isSerial then .serial else .general) (← builtOnce i context key do
      let f ← fillingOf aliases vars morePreamble moreArguments (← ofValue types) options
      let code ← scanTemplateCode context t f (← ofValue devices)
      if isSerial then buildSerialScan context code else buildScan context code)
  | _ => bare .attribute

def runningSums (wait : Events)
    (returnsEvent : Bool) : Host Value := do
  let (e, result) ← Host.runningSums a t queue wait.items
  return if returnsEvent then .tuple [.event e, .array result] else .array result

def floorPower : Host Nat := do
  return Scan.floorPower (← word 64 v)

/-! ## Algorithms in a session -/

def extraArguments : Host (List ExtraArgument) := do
  let entries : List (List Value) ← ofValue v
  entries.mapM fun e => do
    match e with
    | [name, .array a] => return ⟨.vector a.type (← ofValue name) false, .array a⟩
    | [name, .element x] => return ⟨.scalar x.type (← ofValue name), .element x⟩
    | [name, _] => match name with
      | .int n => refuse .runtime ("argument '" ++ toString n ++ "' not understood")
      | name => refuse .type ("%d format: a real number is required, not " ++ name.className)
    | _ => bare .value

def select (what : Selection) (a : DeviceArray) (condition : String) (extra : Value) (preamble : String)
    (queue : Option Queue) (wait : Events) : Host Value := do
  let s ← Host.select what a condition (← extraArguments extra) preamble queue wait.items
  return .tuple ([.array s.chosen] ++ s.others.toList.map .array ++ [.array s.count, .event s.event])

def selectOthers (condition : String) (extra : Value) (preamble : String)
    (queue : Option Queue) (wait : Events) : Host Value :=
  select .satisfying a ("!(" ++ condition ++ ")") extra preamble queue wait

def selectDistinct (equality : Option String) (extra : Value) (preamble : String)
    (queue : Option Queue) (wait : Events) : Host Value :=
  select .distinct a (equality.getD "a == b") extra preamble queue wait

def makeRadixSort (key : String) (names : List String) (bits : Int)
    (index keyType : ElementType) (scan options : Value) : Host Value := do
  let source ← argumentSource arguments
  if bits < 0 then bare .type
  return .radixSort (← buildRadixSort context {
    arguments := source, key, names, bits := bits.toNat, indexType := index, keyType, isSerial := isSerialScan scan
    options := ← optionTexts options })

def arrayValue : Actual → Value
  | .array a => .array a
  | _ => .none

def callRadixSort : Host Value := do
  let named ← pairsOf named
  let wait : Events ← ofValue (namedValue named "wait_for")
  match s with
  | .radixSort i =>
    let (sorted, e) ← Host.callRadixSort i (args.map actualOf) {
      keyBits := ← ofValue (namedValue named "key_bits"), queue := ← ofValue (namedValue named "queue")
      allocator := ← allocatorOf (namedValue named "allocator"), wait := wait.items }
    return .tuple [.list (sorted.map arrayValue), .event e]
  | _ => bare .attribute

def isNumberClass : Value → Bool
  | .numberClass _ => true
  | _ => false

def makeKeyedSorter : Host Value := do
  return .keyedSorter (← newKeyedSorter context)

def sortByKey (keys values : DeviceArray) (count : Int) (starts : Value)
    (allocator : Value) (wait : Events) : Host Value := do
  match s with
  | .keyedSorter i =>
    let (startsArray, sorted, e) ← Host.sortByKey i queue keys values count (← ofValue starts) (isNumberClass starts)
      (← allocatorOf allocator) wait.items
    return .tuple [.array startsArray, arrayValue sorted, .event e]
  | _ => Host.bare .attribute

def integerLiteral (n : Int) (type : Value) : Host String := do
  let t : ElementType ← ofValue type
  let (least, _) ← lift (Scan.indexBounds t)
  return Radix.literalText n (!isNumberClass type && t.size == 8) (least < 0)

def packedLists (lists : List (String × ElementType)) : Value → Host (List String)
  | .bool true => return lists.map (·.1)
  | .bool false => return []
  | v => ofValue v

def makeListBuilder (lists : Value) (generate : String) (arguments sharing : Value)
    (devices : Option (List DeviceRef)) (name : String) (options : Value) (preamble : String)
    (isSingle isComplex : Bool) (packed : Value) : Host Value := do
  let entries : List (List Value) ← ofValue lists
  let lists ← entries.mapM fun e => do
    match e with
    | [n, t] => return ((← ofValue n : String), (← ofValue t : ElementType))
    | _ => bare .value
  let source ← argumentSource arguments
  let sharing ← match sharing with
    | .none => pure []
    | v => do (← pairsOf v).mapM fun (k, v) => do return (k, (← ofValue v : String))
  let arguments ← lift (source.read (← registry) false)
  return .listBuilder (← newListBuilder {
    context, devices := devices.getD context.devices, lists, generate, arguments, sharing, name
    options := ← optionTexts options, preamble, isSingle, isComplex, packed := ← packedLists lists packed })

def builtListValue (l : Lists.BuiltList) : Value :=
  let kept := match l.kept with
    | some (objects, number) => [("nonempty_indices", Value.array objects), ("num_nonempty_lists", .element number)]
    | none => []
  .builtList ([("count", .int l.count), ("lists", .array l.entries)] ++ kept ++ [("starts", .array l.starts)])

def callListBuilder (b : Value) (queue : Queue) (objects : Int) (args : List Value) (named : Value) : Host Value := do
  let named ← pairsOf named
  let known := ["allocator", "omit_lists", "wait_for"]
  let unknown := (named.map (·.1)).filter fun n => !known.contains n
  if !unknown.isEmpty then
    refuse .type ("invalid keyword arguments: '" ++ String.intercalate ", " unknown ++ "'")
  let wait : Events ← ofValue (namedValue named "wait_for")
  let omitted : List String ← match namedValue named "omit_lists" with
    | .none => if named.any (·.1 == "omit_lists") then bare .type else pure []
    | v => ofValue v
  match b with
  | .listBuilder i =>
    let (lists, e) ← Host.callListBuilder i queue (args.map actualOf) {
      objects, allocator := ← allocatorOf (namedValue named "allocator"), omitted, wait := wait.items }
    return .tuple [.dict (lists.map fun (n, l) => (.text n, builtListValue l)), .event e]
  | _ => Host.bare .attribute

def makeBitonicSort : Host Value := do
  return .bitonicSort (← newBitonicSort context)

def callBitonicSort (index : Option DeviceArray) (queue : Option Queue) (wait : Events)
    (axis : Int) : Host Value := do
  match s with
  | .bitonicSort i => return .tuple [.array a, .event (← bitonicSort i a index queue wait.items axis)]
  | _ => bare .attribute

def makeGenerator (method : Random.Method) (context : Context) (key counter : List Int) (seed : Value) : Host Value := do
  if !seed.isNone then refuse .type "seed is unused and may not be specified if both counter and key are given"
  match counter with
  | [low, middle, high, last] =>
    return .generator method (← newGenerator { context, method, key, counter := ⟨low, middle, high, last⟩ })
  | _ => bare .type

def fillBy (d : Random.Distribution) (g : Value) (a : DeviceArray) (shift scale : Value) (queue : Option Queue) :
    Host Value := do
  match g with
  | .generator _ i => return .event (← fillRandom i ⟨d, a, actualOf scale, actualOf shift, queue⟩)
  | _ => bare .attribute

def fillUniform (g : Value) (a : DeviceArray) (least most : Value) (queue : Option Queue) : Host Value := do
  let width ← match least.quantity?, most.quantity? with
    | some (.int m), some (.int n) => pure (Value.int (n - m))
    | some x, some y => pure (.real (y.re - x.re))
    | _, _ => bare .type
  fillBy .uniform g a least width queue

def binaryText (n : Nat) : String := Radix.binary n

end ClHost.Session
