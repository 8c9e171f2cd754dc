import ClHost.Array.Arithmetic

/-!
# Taking, putting and assigning elements

Elements are taken from the places that an array of indices names, and put to such places. A part of an array is set from
an array of the same layout, from host memory, or to one number.
-/

namespace ClHost

namespace Gather

def mostArrays : Nat := 10

def chunks (n : Nat) : List (Nat × Nat) :=
  let size := min n mostArrays
  if size == 0 then []
  else (List.range ((n + size - 1) / size)).map fun i => (i * size, min size (n - i * size))

def part {α : Type} (c : Nat × Nat) (xs : List α) : List α := (xs.drop c.1).take c.2

end Gather

namespace Host

def typeOfAll : List DeviceArray → Host ElementType
  | [] => bare .value
  | a :: rest => if rest.all fun b => b.type.same a.type then pure a.type else bare .assertion

variable (p : TakePut) (type : ElementType) (a : DeviceArray)

def gatherTargets (allocator : Option Allocator) (count : Nat) (queue : Option Queue)
    (shape : Option (List Int)) (out : Option (List DeviceArray)) : Host (List DeviceArray) := do
  match out with
  | none =>
    (List.range count).mapM fun _ => do
      let q ← arrayQueue queue
      match shape with
      | some shape => newRows q type shape allocator
      | none => bare .type
  | some out =>
    if !(← typeOfAll out).same type then refuse .type "arrays and out must have the same dtype"
    if out.length != count then refuse .value "out and arrays must have the same length"
    return out

def passWithOffset : List Actual := [.buffer a.buffer, .literal (.int a.offset)]

def launchGather (context : Context) (op : StandardOperation) (indices : DeviceArray) (queue : Option Queue)
    (args : List Actual) (wait : List EventId) : Host EventId := do
  let k ← standardKernel context op
  let q ← needQueue queue
  let limit ← groupLimit k q.device
  let s ← splayArray indices q (some limit)
  call q k s.range args wait

/-- Launches an operation that writes some arrays, and gives them its event. -/
def launchOnto (targets : List DeviceArray) (context : Context) (op : StandardOperation) (indices : DeviceArray)
    (queue : Option Queue) (args : List Actual) (wait : List EventId) : Host Unit := do
  let e ← launchGather context op indices queue args wait
  for o in targets do addEvent o e

def takeElements (a indices : DeviceArray) (out : Option DeviceArray) (queue : Option Queue) (wait : List EventId) :
    Host DeviceArray := do
  let queue := queue <|> a.queue
  let out ← match out with
    | some out => pure out
    | none => do newRows (← arrayQueue queue) a.type indices.shape a.allocator
  require (indices.shape.length == 1)
  let e ← runElementwise (standardKernel out.context (.take out.type indices.type 1)) out
    [.array a, .array indices] queue wait
  addEvent out e
  return out

structure TakePut where
  arrays : List DeviceArray
  targetIndices : DeviceArray
  sourceIndices : DeviceArray
  targetShape : Option (List Int) := none
  out : Option (List DeviceArray) := none
  queue : Option Queue := none
  sourceOffsets : Option (List Actual) := none

def TakePut.operation (count : Nat) : StandardOperation :=
  .takePut type p.sourceIndices.type p.sourceOffsets.isSome count

def takePutChunk (out : List DeviceArray) (c : Nat × Nat) : Host Unit := do
  let context := p.sourceIndices.context
  let queue := p.queue <|> p.sourceIndices.queue
  let targets := Gather.part c out
  let sources := Gather.part c p.arrays
  let _ ← standardKernel context (p.operation type c.2)
  let _ ← needQueue queue
  let waits ← ([p.targetIndices, p.sourceIndices] ++ sources ++ targets).mapM eventsOf
  let targetData ← targets.mapM fun o => do return Actual.buffer (← lift o.data)
  let args := targetData ++ passWithOffset p.targetIndices ++ passWithOffset p.sourceIndices ++
    sources.flatMap passWithOffset ++ Gather.part c (p.sourceOffsets.getD []) ++ [.literal (.int p.sourceIndices.size)]
  launchOnto targets context (p.operation type c.2) p.sourceIndices queue args waits.flatten

def takePut : Host (List DeviceArray) := do
  if p.arrays.isEmpty then return []
  let type ← typeOfAll p.arrays
  let allocator := p.arrays.head?.bind (·.allocator)
  let n := p.arrays.length
  let out ← gatherTargets type allocator n (p.queue <|> p.sourceIndices.queue) p.targetShape p.out
  if !p.sourceIndices.type.same p.targetIndices.type then
    refuse .type "src_indices and dest_indices must have the same dtype"
  if p.sourceIndices.shape.length != 1 then refuse .value "src_indices must be 1D"
  if p.sourceIndices.shape != p.targetIndices.shape then
    refuse .value "src_indices and dest_indices must have the same shape"
  if p.sourceOffsets.isSome && (p.sourceOffsets.getD []).length != n then
    refuse .value "src_indices and src_offsets must have the same length"
  -- The first kernel is built before anything else is looked at.
  let _ ← standardKernel p.sourceIndices.context (p.operation type (min n Gather.mostArrays))
  for c in Gather.chunks n do takePutChunk p type out c
  return out

structure PutAll where
  arrays : List DeviceArray
  indices : DeviceArray
  shape : Option (List Int) := none
  out : Option (List DeviceArray) := none
  queue : Option Queue := none
  wait : List EventId := []

def overwrite {α : Type} (new old : List α) : List α := new ++ old.drop new.length

def firstExtent : Host Int :=
  match a.shape with
  | n :: _ => pure n
  | [] => bare .type

def PutAll.operation (p : PutAll) (type : ElementType) (count : Nat) : StandardOperation :=
  .put type p.indices.type count

/-- What is to be repeated and how long each array is, for the arrays of a chunk. -/
structure PutMarks where
  fills : List Bytes := []
  lengths : List Bytes := []

/-- The marks of a chunk, with arrays that hold them. -/
def markChunk (p : PutAll) (marks : PutMarks) (c : Nat × Nat) : Host (PutMarks × DeviceArray × DeviceArray) := do
  let sources := Gather.part c p.arrays
  let extents ← sources.mapM firstExtent
  -- The marks of the chunk before stay where a shorter chunk has none.
  let fills := overwrite (sources.map fun a => [if a.size == 1 then 1 else 0]) marks.fills
  let lengths := overwrite (extents.map fun n => littleEndian 8 n.toNat) marks.lengths
  let q ← arrayQueue (p.queue <|> p.indices.queue)
  let mark (t : ElementType) (data : List Bytes) : Host DeviceArray := do
    let h ← HostArray.ofElements t [((min p.arrays.length Gather.mostArrays : Nat) : Int)] .row data
    toDevice q h none true true
  let fillArray ← mark (.number .uint8) fills
  let lengthArray ← mark (.number .int64) lengths
  return (⟨fills, lengths⟩, fillArray, lengthArray)

def putChunk (p : PutAll) (type : ElementType) (out : List DeviceArray) (wait : List EventId) (marks : PutMarks)
    (c : Nat × Nat) : Host PutMarks := do
  let context := p.indices.context
  let sources := Gather.part c p.arrays
  let targets := Gather.part c out
  let (marks, fillArray, lengthArray) ← markChunk p marks c
  let _ ← standardKernel context (p.operation type c.2)
  let waits ← (sources ++ targets).mapM eventsOf
  let args := targets.flatMap passWithOffset ++ passWithOffset p.indices ++ sources.flatMap passWithOffset ++
    passWithOffset fillArray ++ passWithOffset lengthArray ++ [.literal (.int p.indices.size)]
  launchOnto targets context (p.operation type c.2) p.indices (p.queue <|> p.indices.queue) args (wait ++ waits.flatten)
  return marks

def putAll (p : PutAll) : Host (List DeviceArray) := do
  if p.arrays.isEmpty then return []
  let type ← typeOfAll p.arrays
  let allocator := p.arrays.head?.bind (·.allocator)
  let wait := p.wait ++ (← eventsOf p.indices)
  let n := p.arrays.length
  let out ← gatherTargets type allocator n (p.queue <|> p.indices.queue) p.shape p.out
  if p.indices.shape.length != 1 then refuse .value "dest_indices must be 1D"
  let _ ← standardKernel p.indices.context (p.operation type (min n Gather.mostArrays))
  let mut marks : PutMarks := {}
  for c in Gather.chunks n do marks ← putChunk p type out wait marks c
  return out

/-! ## Assigning to arrays and joining them -/

inductive Assigned where
  | array (a : DeviceArray)
  | host (h : HostArray)
  | number (v : Actual)

def assignmentQueue (queue : Option Queue) (a : DeviceArray) (v : Assigned) : Host (Option Queue) :=
  match queue <|> a.queue, v with
  | some q, _ => pure (some q)
  | none, .array b => pure b.queue
  | none, _ => bare .attribute

def assignArray (a part source : DeviceArray) (queue : Option Queue) (wait : List EventId) : Host Unit := do
  if part.shape.length != source.shape.length then
    refuse .notImplemented "broadcasting is not supported in __setitem__"
  if part.shape != source.shape then refuse .value "cannot assign between arrays of differing shapes"
  if part.strides != source.strides then refuse .value "cannot assign between arrays of differing strides"
  addEvent a (← runElementwise (standardKernel part.context (.copy part.type source.type)) part [.array source] queue wait)

def assignPart (entries : List IndexEntry) (v : Assigned) (queue : Option Queue)
    (wait : List EventId) : Host Unit := do
  let queue ← assignmentQueue queue a v
  let wait := wait ++ (← eventsOf a)
  let part ← lift (a.index entries)
  match v with
  | .number v => fillArray part v queue wait
  | .array source => assignArray a part source queue wait
  | .host h =>
    let q ← needQueue queue
    if part.shape == h.shape && part.strides == h.strides then
      addEvent a (← enqueueWrite q part.buffer (.array h) part.offset wait true)
    else assignArray a part (← toDevice q h a.allocator true true) queue wait

def checkIndices (a indices : DeviceArray) : Host Unit := do
  if indices.type.kind != .signed then refuse .type "fancy indexing is only allowed with integers"
  if indices.shape.length != 1 then refuse .notImplemented "multidimensional fancy indexing is not supported"
  if a.shape.length != 1 then refuse .notImplemented "fancy indexing into a multi-d array is not supported"

def assignAt (a indices : DeviceArray) (v : Assigned) (queue : Option Queue) (wait : List EventId) : Host Unit := do
  let queue ← assignmentQueue queue a v
  let wait := wait ++ (← eventsOf a)
  checkIndices a indices
  match v with
  | .array source => let _ ← putAll { arrays := [source], indices, out := some [a], queue, wait }
  | _ => bare .attribute

end Host

namespace Join

variable (xs : List Int) (i : Int)

def before : List Int := if i < 0 then xs.take (xs.length + i).toNat else xs.take i.toNat

def fromOn : List Int := if i < 0 then xs.drop (xs.length + i).toNat else xs.drop i.toNat

def place? : Option Nat :=
  let k := if i < 0 then xs.length + i else i
  if 0 ≤ k && k < xs.length then some k.toNat else none

def extend (axis : Int) (shape : List Int) (number : Nat) (next : List Int) : Result (List Int) :=
  if next.length ≠ shape.length then
    .error (.told .value (toString number ++ "'th array has different number of axes (shold have " ++
      toString next.length ++ ", has " ++ toString shape.length ++ ")"))
  else if before next axis ≠ before shape axis || fromOn next (axis + 1) ≠ fromOn shape (axis + 1) then
    .error (.told .value (toString number ++ "'th array has residual not matching other arrays"))
  else match place? shape axis with
    | some k => .ok (shape.modify k (· + next.getD k 0))
    | none => .error (.bare .index)

def shape (axis : Int) : List (List Int) → Result (List Int)
  | [] => .error (.bare .type)
  | first :: rest => (rest.zipIdx 1).foldlM (fun s (next, i) => extend axis s i next) first

end Join

namespace Host

def joinRows (arrays : List DeviceArray) (queue : Option Queue) : Host DeviceArray := do
  match arrays with
  | [] => newRows (← arrayQueue queue) (.number .float64) [] none
  | first :: rest =>
    let queue := queue <|> (arrays.filterMap (·.queue)).head?
    if rest.any fun a => a.shape.length != first.shape.length then
      refuse .value "arguments must all have the same number of axes"
    require (rest.all fun a => a.shape.dropLast == first.shape.dropLast)
    let widths ← arrays.mapM fun a => need .index a.shape.getLast?
    let width := widths.foldl (· + ·) 0
    let result ← newRows (← arrayQueue queue) first.type (first.shape.dropLast ++ [width]) none
    let _ ← (arrays.zip widths).foldlM (fun (start : Int) (a, n) => do
      assignPart result [.ellipsis, .slice (some start) (some (start + n)) none] (.array a) none []
      pure (start + n)) 0
    return result

end Host

end ClHost
