import ClHost.Array.Gather
import ClHost.Scan.Kernel

/-!
# Carrying out radix sorts

A sort runs its scan once for each group of bits. Each pass leaves new arrays, which the next pass takes in
the place of those it sorted.
-/

namespace ClHost

open Radix

namespace Radix

structure SortCode where
  arguments : ArgumentSource
  key : String
  names : List String
  bits : Nat := 2
  indexType : ElementType := .number .int32
  keyType : ElementType := .number .uint32
  isSerial : Bool := false
  options : List String := []

def className : ElementType → String
  | .number p => p.className
  | _ => "void"

def countsType (bits : Nat) (index : ElementType) : ElementType :=
  let fields := (List.range (Nat.pow 2 bits)).map fun n =>
    ({ name := "c" ++ padded n bits, type := index, offset := n * index.size } : Field)
  .record (.ofList fields) (Nat.pow 2 bits * index.size) false

def countsName (bits : Nat) (index : ElementType) : String :=
  "pyopencl_sort_scan_" ++ className index ++ "_" ++ toString bits ++ "bits_t"

def keyBits : ElementType → Result Nat
  | .number p => if p.isInteger then .ok (8 * p.size) else .error (.bare .value)
  | _ => .error (.bare .value)

end Radix

namespace Host

def registerType (name : String) (t : ElementType) : Host ElementType := do
  let (r, result) := (← registry).register [name] t
  setRegistry 0 r
  lift result

def countsStructure (d : DeviceRef) (bits : Nat) (index : ElementType) : Host (ElementType × String) := do
  let name := countsName bits index
  let (t, declaration) ← matchStructure d name (countsType bits index) none
  return (← registerType name t, declaration)

variable (i : Nat) (context : Context) (t : KeyedTypes)

def buildRadixSort (c : SortCode) : Host Nat := do
  let arguments ← lift (c.arguments.read (← registry) false)
  let (type, declaration) ← countsStructure (← firstDevice context) c.bits c.indexType
  let _ ← typesOf arguments
  let keyName ← typeName c.keyType
  let indexName ← typeName c.indexType
  let _ ← lift (Scan.indexBounds c.indexType)
  let parts : Parts := {
    bits := c.bits, keyName, indexName, scanName := countsName c.bits c.indexType, key := c.key, names := c.names }
  let code : ScanCode := {
    type, arguments := .items ((Sorter.scanArguments arguments c.names).map .inr)
    input := "scan_t_from_value(" ++ c.key ++ ", base_bit, i)", scan := "scan_t_add(a, b, across_seg_boundary)"
    neutral := some "scan_t_neutral()", output := parts.output, preamble := declaration ++ parts.preamble
    options := c.options }
  let scan ← if c.isSerial then buildSerialScan context code else buildScan context code
  let leadArray := arguments.length - 1 - (arguments.reverse.findIdx KernelArgument.isVector)
  let s : Sorter := { arguments, names := c.names, bits := c.bits, keyType := c.keyType, scan, leadArray }
  let w ← get
  set { w with radixSorters := w.radixSorters.push s }
  return w.radixSorters.size

structure SortCall where
  keyBits : Option Nat := none
  queue : Option Queue := none
  allocator : Option Allocator := none
  wait : List EventId := []

section

variable (s : Sorter) (q : Option Queue) (allocator : Option Allocator) (n : Int)

/-- New arrays for what a pass sorts. -/
def newSorted : Host (List DeviceArray) :=
  (s.arguments.filter fun a => s.names.contains a.name).mapM fun a => do
    match a.type? with
    | some t => newRows (← arrayQueue q) t [n] allocator
    | none => bare .attribute

def sortPass (args : List Actual) (wait : List EventId) (base : Nat) : Host (List Actual × EventId) := do
  let sorted := (← newSorted s q allocator n).map Actual.array
  let e ← callScan s.scan (args ++ sorted ++ [.literal (.int base)]) { queue := q, wait }
  match s.substitute args sorted with
  | some next => return (next, e)
  | none => bare .index

def sortPasses : List Nat → List Actual → List EventId → Option EventId → Host (List Actual × Option EventId)
  | [], args, _, last => return (args, last)
  | base :: rest, args, wait, _ => do
    let (next, e) ← sortPass s q allocator n args wait base
    sortPasses rest next [e] (some e)

end

def callRadixSort (args : List Actual) (c : SortCall) : Host (List Actual × EventId) := do
  let s := ((← get).radixSorters[i]?).getD default
  let keyBits ← match c.keyBits with
    | some n => pure n
    | none => lift (keyBits s.keyType)
  let lead ← match args[s.leadArray]? with
    | some (.array a) => pure a
    | some _ => bare .attribute
    | none => bare .index
  let n ← match lead.shape with
    | n :: _ => pure n
    | [] => bare .type
  let (args, last) ← sortPasses s (c.queue <|> lead.queue) (c.allocator <|> lead.allocator) n
    (passes s.bits keyBits) args c.wait none
  match last with
  | none => bare .unsetLocal
  | some e => return (s.sortedOf args, e)

def startFinder : ElementwiseTemplate := {
  arguments := .text "//CL//\nstarts_t *key_group_starts,\nkey_t *keys_sorted_by_key,\n"
  operation := "//CL//\nkey_t my_key = keys_sorted_by_key[i];\n" ++
    "if (i == 0 || my_key != keys_sorted_by_key[i-1])\nkey_group_starts[my_key] = i;\n"
  name := "find_starts" }

def farStart : Host String := do
  let (least, greatest) ← lift (Scan.indexBounds t.starts)
  return literalText greatest (!t.isClass && t.starts.size == 8) (least < 0)

def buildKeyedSort : Host KeyedKernels := do
  let sorter ← buildRadixSort context {
    arguments := .items [.inr (.vector t.value "values" false), .inr (.vector t.key "keys" false)]
    key := "keys[i]", names := ["values", "keys"] }
  let finder ← fillElementwise context startFinder { aliases := [("key_t", t.starts), ("starts_t", t.starts)] }
  let filler ← buildScan context {
    type := t.starts, arguments := .items [.inr (.vector t.starts "starts" false), .inr (.scalar t.key "nkeys")]
    input := "starts[nkeys-i]", scan := "min(a, b)", neutral := some (← farStart t)
    output := "starts[nkeys-i] = item;" }
  return ⟨sorter, finder, filler⟩

def newKeyedSorter : Host Nat := do
  let w ← get
  set { w with keyedSorters := w.keyedSorters.push { context } }
  return w.keyedSorters.size

def keyedKernels : Host KeyedKernels := do
  let s := ((← get).keyedSorters[i]?).getD default
  match s.kernels.find? (·.1 == t) with
  | some (_, k) => return k
  | none =>
    let k ← buildKeyedSort s.context t
    modify fun w => { w with
      keyedSorters := w.keyedSorters.modify i fun s => { s with kernels := s.kernels ++ [(t, k)] } }
    return k

def sortByKey (queue : Option Queue) (keys values : DeviceArray) (keyCount : Int) (starts : ElementType)
    (isClass : Bool) (allocator : Option Allocator) (wait : List EventId) : Host (DeviceArray × Actual × EventId) := do
  let allocator := allocator <|> values.allocator
  let k ← keyedKernels i ⟨keys.type, values.type, starts, isClass⟩
  let (sorted, e) ← callRadixSort k.sorter [.array values, .array keys] { queue, wait }
  match sorted with
  | [.array sortedValues, .array sortedKeys] =>
    let startsArray ← newRows (← arrayQueue queue) starts [keyCount + 1] allocator
    fillArray startsArray (.literal (.int (← firstExtent sortedValues))) none [e]
    let events ← eventsOf startsArray
    let launch ← prepareElementwise k.finder [.array startsArray, .array sortedKeys] none
      [.range none (some (← firstExtent sortedKeys)) none] events []
    let e ← callElementwise launch
    let e ← callScan k.filler [.array startsArray, .literal (.int keyCount)] { queue, wait := [e] }
    return (startsArray, .array sortedValues, e)
  | _ => bare .value

end Host

end ClHost
