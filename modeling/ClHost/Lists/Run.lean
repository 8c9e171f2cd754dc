import ClHost.Array.Gather
import ClHost.Scan.Kernel

/-!
# Carrying out list builders
-/

namespace ClHost

open ClHost.Lists KernelArgument

namespace Lists

/-- A list that was built: its number of entries, where the entries of each object start, the entries, and for
a list without empty objects which objects are left and how many. -/
structure BuiltList where
  count : Int
  starts : DeviceArray
  entries : DeviceArray
  kept : Option (DeviceArray × Element) := none

structure Packing where
  objects : DeviceArray
  number : DeviceArray
  places : DeviceArray
  event : EventId

structure Draft where
  name : String
  starts : DeviceArray
  packing : Option Packing := none
  kept : Option (DeviceArray × Element) := none
  count : Int := 0

variable (index : ElementType) (indexName : String) (devices : List DeviceRef)

def startsCode : ScanCode := {
  type := index, arguments := .text ("__global " ++ indexName ++ " *ary"), input := "ary[i]", scan := "a+b"
  neutral := some "0", output := "ary[i+1] = item;", devices := some devices }

def packingCode : ScanCode :=
  let names := ["count", "compressed_counts", "nonempty_indices", "compressed_indices", "num_non_empty_list"]
  let arguments := String.intercalate ",\n" (names.map fun n => "__global " ++ indexName ++ " *" ++ n)
  { type := index, arguments := .text ("\n" ++ arguments ++ "\n")
    input := "count[i] == 0 ? 0 : 1", scan := "a+b", neutral := some "0"
    output := "\nif (i + 1 < N) compressed_indices[i + 1] = item;\nif (prev_item != item) \x7b\n" ++
      "nonempty_indices[item - 1] = i;\ncompressed_counts[item - 1] = count[i];\n\x7d\n" ++
      "if (i + 1 == N) *num_non_empty_list = item;\n"
    devices := some devices }

def indexType (objects : Int) : Primitive := if Primitive.int32.greatest ≤ objects then .int64 else .int32

end Lists

namespace Host

variable (b : Builder) (drafts : List Draft) (q : Queue) (c : ListCall)

def isScalarBuilder : Host Bool := do
  if !b.isComplex then return false
  return (← b.context.devices.mapM fun d => hasType d 2).any id

variable (scan : Nat) (phase : Phase) (index : ElementType) (built : List (String × BuiltList))

/-- What the function of a builder is given for a list: the declaration of a parameter, its name, and the value
that the kernel passes. -/
def functionLists (indexName list : String) :
    Host (List (String × String × String)) := do
  let counter := match phase with
    | .counting => "plb_loc_" ++ list ++ "_count"
    | .writing => "plb_" ++ list ++ "_index"
  let counterEntry := if b.shares list then [] else [(indexName ++ " *" ++ counter, counter, "&" ++ counter)]
  match phase with
  | .counting => return counterEntry
  | .writing =>
    let a := b.slotArgument index (.entries list)
    return (← lift (a.declarator (← registry)), a.name, a.name) :: counterEntry

def buildListKernel : Host KernelId := do
  let indexName ← typeName index
  let lists := (b.slots phase).map (b.slotArgument index)
  let functionParts ← b.lists.mapM fun l => functionLists b phase index indexName l.1
  let functionParts := functionParts.flatten
  let doubles ← b.context.devices.mapM hasDouble
  let isScalar ← isScalarBuilder b
  let r ← registry
  let declare (args : List KernelArgument) : Host (List String) := lift (args.mapM (declarator r))
  let parts : SourceParts := {
    phase, builder := b, hasDouble := doubles.all id, isScalar, indexName
    kernelLists := ← declare lists, functionLists := functionParts.map (·.1), listNames := functionParts.map (·.2.1)
    listValues := functionParts.map (·.2.2), arguments := ← declare b.arguments
    plainArguments := ← declare b.plainArguments, offsets := ← lift (offsetCode r b.arguments) }
  let p ← newProgram b.context parts.text
  build p b.options none .standard
  let k ← programKernel p parts.kernelName
  declareTypes k ((← lift (passedTypes (lists ++ b.arguments))) ++ [.value index])
  return k

variable (i : Nat) (counted : EventId) (d : Draft)

def listStage (b : Builder) (index : Primitive) (stage : Stage) : Host Nat := do
  match (← get).listStages.find? (fun e => e.1 == (i, index, stage)) with
  | some (_, k) => return k
  | none =>
    let type := ElementType.number index
    let k ← match stage with
      | .count => buildListKernel b .counting type
      | .write => buildListKernel b .writing type
      | .starts => do buildScan b.context (startsCode type (← typeName type) b.devices)
      | .packing => do buildScan b.context (packingCode type (← typeName type) b.devices)
    modify fun w => { w with listStages := w.listStages ++ [((i, index, stage), k)] }
    return k

def newListBuilder : Host Nat := do
  match b.packed.find? fun n => !b.lists.any (·.1 == n) with
  | some n => refuse .value ("invalid list name '" ++ n ++ "' in eliminate_empty_output_lists")
  | none =>
    let w ← get
    set { w with listBuilders := w.listBuilders.push b }
    return w.listBuilders.size

def passListArgument (p : PassedArguments) (number : Nat) (param : KernelArgument) (v : Actual) :
    Host PassedArguments := do
  match param, v with
  | .vector _ _ withOffset, .buffer b =>
    if withOffset then
      refuse .value ("with_offset=True specified for argument " ++ toString number ++
        " but the argument is not an array")
    return { p with values := p.values ++ [.buffer b] }
  | .vector _ _ _, .array a =>
    if a.shape.length != 1 then
      refuse .value ("argument " ++ toString number ++ " is a multidimensional array")
    passScanArgument p param v
  | _, _ => passScanArgument p param v

def passListArguments (wait : List EventId) (params : List KernelArgument) (args : List Actual) : Host PassedArguments :=
  ((params.zip args).zip (List.range params.length)).foldlM
    (fun p ((param, v), number) => passListArgument p number param v) { wait }

structure ListCall where
  objects : Int
  allocator : Option Allocator := none
  omitted : List String := []
  wait : List EventId := []

def makeDraft (c : ListCall) (name : String) : Host Draft := do
  let counts ← newRows q index [c.objects + 1] c.allocator
  assignPart counts [.position (-1)] (.number (.literal (.int 0))) none []
  return { name, starts := counts }

def listRange (objects : Int) : Host LaunchRange := do
  if b.isSingle then return { globalSize := [1], localSize := some [1] }
  if ← isScalarBuilder b then
    return { globalSize := [4 * ((← deviceInfo q.device).maxComputeUnits : Int)], localSize := some [1] }
  return (← splay q objects none).range

def packList (c : ListCall) (scan : Nat) (counted : EventId) (d : Draft) :
    Host Draft := do
  let fresh (n : Int) : Host DeviceArray := newRows q index [n] c.allocator
  let counts ← fresh (c.objects + 1)
  let objects ← fresh (c.objects + 1)
  let number ← fresh 1
  let places ← fresh (c.objects + 1)
  assignPart places [.position 0] (.number (.literal (.int 0))) none []
  let event ← callScan scan ([d.starts, counts, objects, places, number].map .array)
    { wait := counted :: (← eventsOf places) }
  return { d with starts := counts, packing := some ⟨objects, number, places, event⟩ }

def integerOf (e : Element) : Int :=
  match e.quantity? with
  | some (.int n) => n
  | _ => 0

def firstElement (a : DeviceArray) : Host Element := do
  match ← (← getArray a none).elements with
  | e :: _ => return e
  | [] => bare .index

def scanStarts : Host (Draft × EventId) := do
  match d.packing with
  | none => return (d, ← callScan scan [.array d.starts] { wait := [counted], size := some c.objects })
  | some p =>
    waitFor [p.event]
    let number ← firstElement p.number
    let n := integerOf number
    let starts ← lift (d.starts.index [.slice none (some (n + 1)) none])
    let objects ← lift (p.objects.index [.slice none (some n) none])
    assignPart starts [.position (-1)] (.number (.literal (.int 0))) none []
    let e ← callScan scan [.array starts] { size := some n, wait := ← eventsOf starts }
    return ({ d with starts, kept := some (objects, number) }, e)

def scanList : Host (Draft × List EventId) := do
  let (d, e) ← scanStarts c scan counted d
  assignPart d.starts [.position 0] (.number (.literal (.int 0))) (some q) [e]
  let events ← eventsOf d.starts
  let last ← lift (d.starts.index [.position (-1)])
  return ({ d with count := integerOf (← firstElement last) }, events)

def draftOf (list : String) : Host Draft :=
  let name := ((b.sharing.find? (·.1 == list)).map (·.2)).getD list
  need .key (drafts.find? (·.name == name))

def makeEntries (drafts : List Draft) (list : String × ElementType) :
    Host (String × BuiltList) := do
  let d ← draftOf b drafts list.1
  let entries ← newRows q list.2 [d.count] c.allocator
  if b.shares list.1 && b.packs list.1 then bare .attribute
  return (list.1, { count := d.count, starts := d.starts, entries, kept := if b.shares list.1 then none else d.kept })

def slotArray? : Slot → Option DeviceArray
  | .counts l => (drafts.find? (·.name == l)).map (·.starts)
  | .entries l => (built.find? (·.1 == l)).map (·.2.entries)
  | .starts l => (built.find? (·.1 == l)).map (·.2.starts)
  | .places l => ((drafts.find? (·.name == l)).bind (·.packing)).map (·.places)

def slotValue (s : Slot) : Actual :=
  ((slotArray? drafts built s).map fun a => Actual.buffer a.buffer).getD .none

structure ListKernels where
  counter : KernelId
  writer : KernelId
  starts : Nat
  packing : Nat

def buildLists (k : ListKernels) (q : Queue) (args : List Actual) (c : ListCall) :
    Host (List (String × BuiltList) × EventId) := do
  let index := ElementType.number (indexType c.objects)
  let passed ← passListArguments c.wait b.arguments args
  let kept := fun (l : String × ElementType) => !c.omitted.contains l.1
  let drafts ← (b.counted.filter kept).mapM fun l => makeDraft q index c l.1
  let countWaits ← drafts.mapM fun d => eventsOf d.starts
  let range ← listRange b q c.objects
  let values (phase : Phase) (drafts : List Draft) (built : List (String × BuiltList)) : List Actual :=
    (b.passedSlots phase).map (slotValue drafts built) ++ passed.values ++ [.literal (.int c.objects)]
  let counted ← call q k.counter range (values .counting drafts []) (passed.wait ++ countWaits.flatten)
  let drafts ← drafts.mapM fun d => if b.packs d.name then packList q index c k.packing counted d else pure d
  let scanned ← drafts.mapM (scanList q c k.starts counted)
  let drafts := scanned.map (·.1)
  let built ← (b.lists.filter kept).mapM (makeEntries b q c drafts)
  let e ← call q k.writer range (values .writing drafts built) (scanned.map (·.2)).flatten
  -- Lists with counts of their own come first.
  let own := drafts.filterMap fun d => built.find? (·.1 == d.name)
  return (own ++ built.filter fun l => b.shares l.1, e)

def callListBuilder (q : Queue) (args : List Actual) (c : ListCall) :
    Host (List (String × BuiltList) × EventId) := do
  let b := ((← get).listBuilders[i]?).getD default
  if c.omitted.any fun n => !b.lists.any (·.1 == n) then
    refuse .value "invalid list name '%s' in omit_lists"
  let stage := listStage i b (indexType c.objects)
  let counter ← stage .count
  let writer ← stage .write
  let starts ← stage .starts
  let packing ← if b.packed.isEmpty then pure 0 else stage .packing
  buildLists b { counter, writer, starts, packing } q args c

end Host

end ClHost
