import ClHost.Device.Query

/-!
# Arrays

A view of memory of the host or of a buffer: an element type, a shape, byte strides and the place of the first element.
-/

namespace ClHost

namespace Strides

/-! ## Shapes and strides -/

def growing (step : Int) : List Int → List Int
  | [] => []
  | n :: ns => step :: growing (step * n) ns

variable (strides : List Int) (itemsize : Int) (shape : List Int)

def columnMajor : List Int := growing itemsize shape

def rowMajor : List Int := (growing itemsize shape.reverse).reverse

def agree : List Int → List Int → List Int → Bool
  | [], [], [] => true
  | s :: ss, t :: ts, n :: ns => (n == 1 || s == t) && agree ss ts ns
  | _, _, _ => false

def isColumnMajor : Bool :=
  agree strides (columnMajor itemsize shape) shape

def isRowMajor : Bool :=
  agree strides (rowMajor itemsize shape) shape

def count : Int := shape.foldl (· * ·) 1

structure Contiguity where
  rowMajor : Bool
  columnMajor : Bool
deriving DecidableEq

def Contiguity.any (c : Contiguity) : Bool := c.columnMajor || c.rowMajor

def contiguity : Contiguity :=
  ⟨isRowMajor strides itemsize shape, isColumnMajor strides itemsize shape⟩

def bounds (start : Int) (strides shape : List Int) : Int × Int :=
  (strides.zip shape).foldl (fun (low, high) (stride, n) =>
    if stride < 0 then (low + stride * (n - 1), high) else (low, high + stride * (n - 1))) (start, start)

def mayShareMemory (a b : Int × List Int × List Int) : Bool :=
  let (aLow, aHigh) := bounds a.1 a.2.1 a.2.2
  let (bLow, bHigh) := bounds b.1 b.2.1 b.2.2
  !(bLow ≥ aHigh || aLow ≥ bHigh)

inductive Order where
  | row | column
deriving DecidableEq

def ofOrder : Order → List Int
  | .row => rowMajor itemsize shape
  | .column => columnMajor itemsize shape

def indices : List Nat → List (List Nat)
  | [] => [[]]
  | n :: ns => (List.range n).flatMap fun i => (indices ns).map (i :: ·)

def byteOffset (index : List Nat) : Int :=
  ((strides.zip index).map fun (s, i) => s * (i : Int)).foldl (· + ·) 0

end Strides

/-! ## Arrays of the host -/

open Strides Host

structure HostArray where
  type : ElementType
  shape : List Int
  strides : List Int
  block : Nat
  offset : Int := 0
deriving DecidableEq

namespace HostArray

variable (type : ElementType) (shape : List Int) (order : Order) (a : HostArray)

def size : Int := count a.shape

def nbytes : Int := a.size * a.type.size

/-- Whether strides are those of a contiguous order, where arrays with at most one element are always
contiguous and axes of length one do not count. -/
def matchesOrder (strides expected shape : List Int) (size : Int) : Bool := size == 0 || agree strides expected shape

def isRowMajor : Bool := matchesOrder a.strides (rowMajor a.type.size a.shape) a.shape a.size

def isColumnMajor : Bool := matchesOrder a.strides (columnMajor a.type.size a.shape) a.shape a.size

def isContiguous : Bool := a.isRowMajor || a.isColumnMajor

def offsets : List Int :=
  (indices (a.shape.map Int.toNat)).map fun i => a.offset + byteOffset a.strides i

def elements : Host (List Element) := do
  let bytes := (← hostBytes a.block).toArray
  let n := a.type.size
  return a.offsets.map fun o => ⟨a.type, (bytes.extract o.toNat (o.toNat + n)).toList⟩

def memoryBytes : Host Bytes := do
  if !a.isContiguous then bare .hostMemory
  let bytes ← hostBytes a.block
  return (bytes.drop a.offset.toNat).take a.nbytes.toNat

def setMemoryBytes (data : Bytes) : Host Unit := do
  let bytes ← hostBytes a.block
  setHostBytes a.block (Memory.overlay bytes a.offset.toNat data)

def ofBytes (shape strides : List Int) (bytes : Bytes) : Host HostArray := do
  let block ← newHostBlock bytes
  return { type, shape, strides, block }

def freshStrides : List Int :=
  ofOrder type.size (shape.map fun n => if n == 0 then 1 else n) order

def ofElements (elements : List Bytes) : Host HostArray := do
  let strides := freshStrides type shape order
  match order with
  | .row => ofBytes type shape strides elements.flatten
  | .column =>
    -- element k in memory is the one whose index, read with the first axis fastest, is k
    let places := (indices (shape.map Int.toNat)).map fun i => byteOffset strides i
    let sorted := (places.zip elements).mergeSort (fun a b => decide (a.1 ≤ b.1))
    ofBytes type shape strides (sorted.map (·.2)).flatten

def zeros : Host HostArray :=
  ofBytes type shape (freshStrides type shape order) (List.replicate ((count shape).toNat * type.size) 0)

def withStrides (strides : List Int) : HostArray := { a with strides }

end HostArray

/-! ## Arrays on a device -/

structure Allocator where
  context : Context
  flags : Nat
deriving DecidableEq

structure DeviceArray where
  context : Context
  queue : Option Queue
  type : ElementType
  shape : List Int
  strides : List Int
  buffer : BufferId
  offset : Int := 0
  events : Nat
  allocator : Option Allocator := none
deriving DecidableEq, Inhabited

namespace DeviceArray

variable (a : DeviceArray)

def size : Int := Strides.count a.shape

def nbytes : Int := a.type.size * a.size

def contiguity : Strides.Contiguity := Strides.contiguity a.strides a.type.size a.shape

def data : Result BufferId :=
  if a.offset == 0 then .ok a.buffer
  else .error (.told .arrayOffset ("The operation you are attempting does not yet " ++
    "support arrays that start at an offset from the beginning of their buffer."))

end DeviceArray

/-! ## Buffers, new arrays and transfers -/

inductive HostData where
  | array (a : HostArray)
  | element (e : Element)
  | bytes (b : Bytes)

namespace HostData

def read : HostData → Host Bytes
  | array a => a.memoryBytes
  | element e => return e.bytes
  | bytes b => return b

def write (d : HostData) (data : Bytes) : Host Unit :=
  match d with
  | array a => a.setMemoryBytes data
  | _ => Host.bare .hostMemory

def size (d : HostData) : Host Nat := do
  return (← d.read).length

end HostData

namespace Host

def newMemory (m : MemoryObject) : Host BufferId := do
  let w ← get
  set { w with memory := w.memory.push m }
  return w.memory.size

variable (q : Queue) (b : BufferId)

def modifyMemory (f : Memory → Memory) : Host Unit :=
  modify fun w => { w with memory := w.memory.modify b fun m => { m with memory := f m.memory } }

def newBuffer (flags : Nat) (size : Int) (host : Option Bytes) : Host BufferId := do
  let size ← match host with
    | none => pure size
    | some h =>
      if (h.length : Int) < size then
        fail (.ofCode "Buffer" (-30) "specified size is greater than host buffer size")
      pure (if size == 0 then (h.length : Int) else size)
  if size ≤ 0 then fail (.ofCode "create_buffer" (-61))
  let blank : Memory := ⟨size.toNat, []⟩
  let memory := match host with
    | some h => blank.write 0 (h.take size.toNat)
    | none => blank
  let b ← newMemory ⟨.buffer, flags, memory⟩
  record (.alloc b size.toNat flags)
  return b

def fits (m : Memory) (offset size : Int) : Bool := 0 ≤ offset && 0 ≤ size && offset + size ≤ m.size

def enqueueRead (target : HostData) (offset : Int) (wait : List EventId)
    (blocking : Bool) : Host EventId := do
  let n ← target.size
  let m := (← memoryObject b).memory
  if !fits m offset n then fail (.ofCode "clEnqueueReadBuffer" (-30))
  target.write (m.read offset.toNat n)
  let e ← newEvent
  record (.read b offset n blocking wait q.id e)
  return e

def enqueueWrite (source : HostData) (offset : Int) (wait : List EventId)
    (blocking : Bool) : Host EventId := do
  let data ← source.read
  if !fits (← memoryObject b).memory offset data.length then fail (.ofCode "clEnqueueWriteBuffer" (-30))
  modifyMemory b fun m => m.write offset.toNat data
  let e ← newEvent
  record (.write b offset data blocking wait q.id e)
  return e

def enqueueCopy (source target : BufferId) (count sourceOffset targetOffset : Int)
    (wait : List EventId) : Host EventId := do
  let s := (← memoryObject source).memory
  let count := if count == -1 then (s.size : Int) else count
  if !(fits s sourceOffset count && fits (← memoryObject target).memory targetOffset count) then
    fail (.ofCode "clEnqueueCopyBuffer" (-30))
  modifyMemory target fun m => m.copyFrom s sourceOffset.toNat targetOffset.toNat count.toNat
  let e ← newEvent
  record (.copy source target count sourceOffset targetOffset wait q.id e)
  return e

def enqueueFill (pattern : Bytes) (offset size : Int) (wait : List EventId) :
    Host EventId := do
  if !fits (← memoryObject b).memory offset size then fail (.ofCode "clEnqueueFillBuffer" (-30))
  modifyMemory b fun m => m.fill offset.toNat size.toNat pattern
  let e ← newEvent
  record (.fill b pattern offset size wait q.id e)
  return e

def waitFor (events : List EventId) : Host Unit := record (.wait events)

end Host

/-! ## Mapped memory -/

structure Mapping where
  flags : Int
  offset : Int
  shape : List Int
  type : ElementType
  strides : Option (List Int)
  order : Strides.Order := .row

def Mapping.layout (m : Mapping) : List Int := m.strides.getD (Strides.ofOrder m.type.size m.shape m.order)

namespace Host

def mapBuffer (q : Queue) (b : BufferId) (m : Mapping) (wait : List EventId) (blocking : Bool) :
    Host (HostArray × EventId) := do
  let memory := (← memoryObject b).memory
  let bytes := Strides.count m.shape * m.type.size
  if !fits memory m.offset bytes then fail (.ofCode "clEnqueueMapBuffer" (-30))
  let e ← newEvent
  record (.map b m.flags m.offset (.list (m.shape.map .int)) m.strides wait blocking q.id (some e))
  let h ← HostArray.ofBytes m.type m.shape m.layout (memory.read m.offset.toNat bytes.toNat)
  return (h, e)

end Host

/-! ## New arrays, their events and their transfers -/

def allocationSize (nbytes : Int) : Result Int :=
  if nbytes == 0 then .ok 1
  else if nbytes < 0 then .error (.told .value "cannot allocate CL buffer with negative size")
  else .ok nbytes

def readWriteFlags : Nat := 1

namespace DeviceArray

def withLayout (a : DeviceArray) (shape strides : List Int) (offset : Int) : DeviceArray :=
  { a with shape, strides, offset }

def withQueue (a : DeviceArray) (queue : Option Queue) : DeviceArray :=
  { a with queue, context := (queue.map (·.context)).getD a.context }

end DeviceArray

namespace Host

def allocate (allocator : Option Allocator) (size : Int) : Host BufferId :=
  newBuffer ((allocator.map (·.flags)).getD readWriteFlags) size none

def newArray (context : Context) (queue : Option Queue) (type : ElementType) (shape strides : List Int)
    (allocator : Option Allocator) : Host DeviceArray := do
  let buffer ← allocate allocator (← lift (allocationSize (type.size * Strides.count shape)))
  let events ← newEventList []
  return { context := (queue.map (·.context)).getD context, queue, type, shape, strides, buffer, events, allocator }

def newRows (queue : Queue) (type : ElementType) (shape : List Int) (allocator : Option Allocator) : Host DeviceArray :=
  newArray queue.context (some queue) type shape (Strides.rowMajor type.size shape) allocator

/-- Makes an array of the shape of another one. -/
def newLike (a : DeviceArray) (type : ElementType) (queue : Option Queue) : Host DeviceArray :=
  let strides := if type.same a.type then a.strides else Strides.rowMajor type.size a.shape
  newArray a.context (queue <|> a.queue) type a.shape strides a.allocator

def emptyLike (a : DeviceArray) : Host DeviceArray := newArray a.context a.queue a.type a.shape a.strides a.allocator

end Host

namespace EventList

def batch : Nat := 4

def limit : Nat := 3 * batch

def add (events : List EventId) (e : EventId) : List EventId × List EventId :=
  let all := events ++ [e]
  if all.length > limit then (all.take batch, all.drop batch) else ([], all)

end EventList

namespace Host

variable (a : DeviceArray) (queue : Option Queue)

def eventsOf : Host (List EventId) := eventList a.events

def addEvent (e : EventId) : Host Unit := do
  let (waited, kept) := EventList.add (← eventsOf a) e
  if !waited.isEmpty then waitFor waited
  setEventList a.events kept

def finishArray : Host Unit := do
  let events ← eventsOf a
  if !events.isEmpty then
    waitFor events
    setEventList a.events []

def arrayQueue : Option Queue → Host Queue
  | some q => pure q
  | none => refuse .type "cq may be a queue or a context, not '<class 'NoneType'>'"

def needQueue : Option Queue → Host Queue
  | some q => pure q
  | none => bare .attribute

def setArray (source : HostArray) (queue : Option Queue) (blocking : Bool) : Host Unit := do
  require (source.size == a.size)
  require (source.type.same a.type)
  if !source.isContiguous then refuse .runtime "cannot set from non-contiguous array"
  if !Strides.agree source.strides a.strides a.shape then
    warn .user ("Setting array from one with different strides/storage order. This will cease to work " ++ "in 2013.x.")
  if a.size != 0 then
    let q ← needQueue (queue <|> a.queue)
    addEvent a (← enqueueWrite q a.buffer (.array source) a.offset [] blocking)

def readTarget (target : Option HostArray) : Host HostArray := do
  match target with
  | none =>
    let fresh ← HostArray.zeros a.type a.shape .row
    return fresh.withStrides a.strides
  | some h =>
    if h.size != a.size then refuse .type "'ary' has non-matching size"
    if !h.type.same a.type then refuse .type "'ary' has non-matching type"
    if a.shape != h.shape then
      warn .deprecation ("get() between arrays of different shape is deprecated " ++
        "and will be removed in PyCUDA 2017.x")
    return h

def readArray (target : Option HostArray) (blocking : Bool) :
    Host (HostArray × Option EventId) := do
  let h ← readTarget a target
  require a.contiguity.any
  match queue <|> a.queue with
  | none => refuse .value ("Cannot copy array to host. Array has no queue. Use " ++
      "'new_array = array.with_queue(queue)' to associate one.")
  | some q =>
    if a.size == 0 then return (h, none)
    let e ← enqueueRead q a.buffer (.array h) a.offset (← eventsOf a) blocking
    addEvent a e
    return (h, some e)

def getArray : Host HostArray := do
  return (← readArray a queue none true).1

def copyArray : Host DeviceArray := do
  let result := (← newLike a a.type queue).withQueue queue
  if a.nbytes != 0 then
    let q ← needQueue (queue <|> a.queue)
    addEvent result (← enqueueCopy q a.buffer result.buffer a.nbytes a.offset 0 (← eventsOf a))
  return result

/-- Makes an array with the elements and strides of a host array. -/
def toDevice (queue : Queue) (source : HostArray) (allocator : Option Allocator) (blocking : Bool)
    (keepsQueue : Bool) : Host DeviceArray := do
  let result ← newArray queue.context (if keepsQueue then some queue else none) source.type source.shape
    source.strides allocator
  setArray result source (some queue) blocking
  return result

end Host

/-! ## Views of arrays -/

structure Layout where
  shape : List Int
  strides : List Int
  offset : Int
deriving DecidableEq

namespace Layout

def address (l : Layout) (index : List Nat) : Int := l.offset + byteOffset l.strides index

def size (l : Layout) : Int := count l.shape

def push (l : Layout) (n stride : Int) : Layout := { l with shape := l.shape ++ [n], strides := l.strides ++ [stride] }

def axes : List Int → List Int → List (Int × Option Int)
  | [], _ => []
  | n :: ns, [] => (n, none) :: axes ns []
  | n :: ns, s :: ss => (n, some s) :: axes ns ss

def strideOf : Option Int → Result Int
  | some s => .ok s
  | none => .error (.bare .index)

def pushAll : Layout → List (Int × Option Int) → Result Layout
  | l, [] => .ok l
  | l, (n, stride) :: rest => do pushAll (l.push n (← strideOf stride)) rest

end Layout

inductive IndexEntry where
  | slice (start stop step : Option Int)
  | position (i : Int)
  | ellipsis
  | newAxis
  /-- What cannot stand in an index. -/
  | other
deriving DecidableEq

namespace IndexEntry

def refusal (message : String) : Fault := .told .index message

/-- The layout that an index gives: `axes` are the axes not yet indexed, with their lengths and strides, and
`number` counts the entries from the start. -/
def applyFrom (seenEllipsis : Bool) (l : Layout) : List (Int × Option Int) → Nat → List IndexEntry → Result Layout
  | axes, _, [] => l.pushAll axes
  | (n, stride) :: axes, number, .slice start stop step :: rest => do
    let r ← IndexRange.ofSlice start stop step n
    let stride ← Layout.strideOf stride
    let next := { l with offset := l.offset + stride * r.start }
    applyFrom seenEllipsis (next.push r.steps (r.step * stride)) axes (number + 1) rest
  | (n, stride) :: axes, number, .position i :: rest => do
    let i := if i < 0 then i + n else i
    if !(0 ≤ i && i < n) then throw (refusal ("subindex in axis " ++ toString number ++ " out of range"))
    let stride ← Layout.strideOf stride
    applyFrom seenEllipsis { l with offset := l.offset + stride * i } axes (number + 1) rest
  | [], _, .slice _ _ _ :: _ => .error (.bare .index)
  | [], _, .position _ :: _ => .error (.bare .index)
  | axes, number, .ellipsis :: rest => do
    if axes.length < rest.length then throw (refusal "invalid use of ellipsis in index")
    let count := axes.length - rest.length
    let next ← l.pushAll (axes.take count)
    if seenEllipsis then throw (refusal "more than one ellipsis not allowed in index")
    applyFrom true next (axes.drop count) (number + 1) rest
  | axes, number, .newAxis :: rest => applyFrom seenEllipsis (l.push 1 0) axes (number + 1) rest
  | _, number, .other :: _ => .error (refusal ("invalid subindex in axis " ++ toString number))

end IndexEntry

namespace Layout

def index (l : Layout) (entries : List IndexEntry) : Result Layout :=
  IndexEntry.applyFrom false ⟨[], [], l.offset⟩ (axes l.shape l.strides) 0 entries

end Layout

namespace Reshape

def needsCopy : Fault := .told .value "cannot reshape without copy"

def fillIn (size : Int) (shape : List Int) : Result (List Int) :=
  match shape.idxOf? (-1) with
  | none => .ok shape
  | some i =>
    let others := -(count shape)
    if others == 0 then .error (.bare .zeroDivision)
    else
      let shape := shape.set i (Int.fdiv size others)
      if shape.any (· < 0) then .error (.told .value "can only specify one unknown dimension")
      else .ok shape

/-- The shortest starts of two lists of axes that hold the same number of elements, and the rest of the lists. -/
def matchAxes (new old : Int) (taken : List Int) (from_ : List (Int × Int)) :
    List Int → List (Int × Int) → Option ((List Int × List (Int × Int)) × (List Int × List (Int × Int)))
  | news, olds =>
    if new == old then some ((taken, from_), (news, olds))
    else if new < old then
      match news with
      | n :: news => matchAxes (new * n) old (taken ++ [n]) from_ news olds
      | [] => none
    else
      match olds with
      | (n, s) :: olds => matchAxes new (old * n) taken (from_ ++ [(n, s)]) news olds
      | [] => none
termination_by news olds => news.length + olds.length

def combines (order : Order) : List (Int × Int) → Bool
  | (n, s) :: (m, t) :: rest =>
    (match order with
      | .column => t == n * s
      | .row => s == m * t) && combines order ((m, t) :: rest)
  | _ => true

def splitStrides (order : Order) (from_ : List (Int × Int)) (lengths : List Int) : List Int :=
  match order with
  | .column => columnMajor ((from_.head?.map (·.2)).getD 0) lengths
  | .row => rowMajor ((from_.getLast?.map (·.2)).getD 0) lengths

/-- The strides of the new axes as far as old axes of other lengths than one are left, and the new axes left over. -/
def walk (order : Order) : Nat → List Int → List (Int × Int) → Result (List Int × List Int)
  | 0, news, _ => .ok ([], news)
  | _, [], _ => .ok ([], [])
  | _, news, [] => .ok ([], news)
  | fuel + 1, n :: news, (m, s) :: olds =>
    match matchAxes n m [n] [(m, s)] news olds with
    | none => .error (.bare .index)
    | some ((taken, from_), (news, olds)) =>
      if !combines order from_ then .error needsCopy
      else do
        let (strides, rest) ← walk order fuel news olds
        return (splitStrides order from_ taken ++ strides, rest)

def longAxes : List (Int × Option Int) → Result (List (Int × Int))
  | [] => .ok []
  | (n, stride) :: axes =>
    if n == 1 then longAxes axes
    else do
      let s ← Layout.strideOf stride
      return (n, s) :: (← longAxes axes)

def strides (order : Order) (itemsize : Int) (l : Layout) (shape : List Int) : Result (List Int) := do
  let old ← longAxes (Layout.axes l.shape l.strides)
  let (done, rest) ← walk order shape.length shape old
  let last := (done.getLast?).getD itemsize
  let last ← match order with
    | .row => .ok last
    | .column =>
      -- the axis before the ones left over; with none before them, the last axis
      match if done.isEmpty then shape.getLast? else shape[done.length - 1]? with
      | some n => .ok (last * n)
      | none => .error (.bare .index)
  return done ++ rest.map fun _ => last

def apply (order : Order) (itemsize : Int) (l : Layout) (shape : List Int) : Result Layout := do
  let shape ← fillIn l.size shape
  if shape == l.shape then return l
  if count shape != l.size then throw (.told .value "total size of new array must be unchanged")
  return ⟨shape, ← strides order itemsize l shape, l.offset⟩

end Reshape

namespace Layout

def fastestAxis? (strides : List Int) : Option Nat :=
  (strides.map Int.natAbs).min?.bind fun least => strides.findIdx? (·.natAbs == least)

variable (l : Layout)

def reinterpret (oldSize newSize : Int) : Result Layout :=
  match fastestAxis? l.strides with
  | none => .error (.bare .value)
  | some axis =>
    let n := l.shape[axis]?.getD 0
    let s := l.strides[axis]?.getD 0
    if newSize == 0 then .error (.bare .zeroDivision)
    else if n * oldSize % newSize != 0 then .error (.told .value "new type not compatible with array")
    else .ok ⟨l.shape.set axis (Int.fdiv (n * oldSize) newSize), l.strides.set axis (Int.fdiv (s * newSize) oldSize),
      l.offset⟩

def squeeze : Layout :=
  let kept := (l.shape.zip l.strides).filter fun a => 1 < a.1
  ⟨kept.map (·.1), kept.map (·.2), l.offset⟩

def pickFrom (xs : List Int) (i : Int) : Result Int :=
  let i := if i < 0 then i + xs.length else i
  match if i < 0 then none else xs[i.toNat]? with
  | some x => .ok x
  | none => .error (.bare .index)

def transpose (axes : List Int) : Result Layout := do
  if axes.length != l.shape.length then throw (.told .value "axes don't match array")
  return ⟨← axes.mapM (pickFrom l.shape), ← axes.mapM (pickFrom l.strides), l.offset⟩

def reverseAxes : Layout := ⟨l.shape.reverse, l.strides.reverse, l.offset⟩

end Layout

namespace DeviceArray

variable (a : DeviceArray)

def layout : Layout := ⟨a.shape, a.strides, a.offset⟩

def view (l : Layout) : DeviceArray := a.withLayout l.shape l.strides l.offset

def index (entries : List IndexEntry) : Result DeviceArray := do
  return a.view (← a.layout.index entries)

def reshape (order : Order) (shape : List Int) : Result DeviceArray := do
  return a.view (← Reshape.apply order a.type.size a.layout shape)

def ravel : Result DeviceArray := a.reshape .row [a.size]

def reinterpret (t : ElementType) : Result DeviceArray := do
  return { a.view (← a.layout.reinterpret a.type.size t.size) with type := t }

def squeeze : DeviceArray := a.view a.layout.squeeze

def transpose (axes : List Int) : Result DeviceArray := do
  return a.view (← a.layout.transpose axes)

def transposed : DeviceArray := a.view a.layout.reverseAxes

end DeviceArray

/-! ## Texts of arrays -/

open Number

namespace Printed

def threshold : Nat := 1000

def edge : Nat := 3

def lineWidth : Nat := 75

def formatOf (p : Primitive) : BinaryFormat := p.binaryFormat?.getD .double

def numberWriter (p : Primitive) (alone : Bool) (data : List Bytes) : Bytes → String :=
  let values := data.map p.load
  match p.kind with
  | .bool => fun b => if (p.load b).isTrue then (if alone then "True" else " True") else "False"
  | .real =>
    let column := Column.ofValues (formatOf p) false (values.map Quantity.re)
    fun b => column.write (p.load b).re
  | .complex =>
    let re := Column.ofValues (formatOf p) false (values.map Quantity.re)
    let im := Column.ofValues (formatOf p) true (values.map Quantity.im)
    fun b =>
      let q := p.load b
      let s := im.write q.im
      let body := Text.stripRight s
      re.write q.re ++ body ++ "j" ++ String.ofList (List.replicate (s.length - body.length) ' ')
  | _ =>
    let text (q : Quantity) : String := match q with
      | .int n => toString n
      | q => doubleText q.re
    let width := greatestOf (values.map fun q => (text q).length)
    fun b => Text.padLeft width ' ' (text (p.load b))

def group (parts : List String) : String :=
  "(" ++ String.intercalate ", " parts ++ (if parts.length == 1 then ",)" else ")")

mutual

def writer : ElementType → Bool → List Bytes → Bytes → String
  | .number p, alone, data => numberWriter p alone data
  | .vector base lanes, alone, data =>
    let parts := (List.range (ElementType.paddedLanes lanes)).map fun i =>
      let part (b : Bytes) : Bytes := (b.drop (i * base.size)).take base.size
      let write := numberWriter base alone (data.map part)
      fun b => write (part b)
    fun b => group (parts.map (· b))
  | .record fields _ _, alone, data =>
    let parts := fieldWriters fields alone data
    fun b => group (parts.map (· b))
  | .byteString _, _, _ => fun b =>
    "b" ++ Text.quoted (String.ofList ((b.reverse.dropWhile (· == 0)).reverse.map fun x => Char.ofNat x.toNat))
  | .raw _, _, _ => fun b => "b'" ++ String.join (b.map fun x => "\\x" ++ Text.hexByte x) ++ "'"
  | t, _, _ => fun _ => t.name

def fieldWriters : FieldList → Bool → List Bytes → List (Bytes → String)
  | .nil, _, _ => []
  | .cons _ offset t rest, alone, data =>
    let part (b : Bytes) : Bytes := (b.drop offset).take t.size
    let write := writer t alone (data.map part)
    (fun b => write (part b)) :: fieldWriters rest alone data

end

def piecesOf {α : Type} (size : Nat) : Nat → List α → List (List α)
  | 0, _ => []
  | n + 1, xs => xs.take size :: piecesOf size n (xs.drop size)

def shown {α : Type} (summary : Bool) (pieces : List α) : List (Option α) :=
  if summary && 2 * edge < pieces.length then
    (pieces.take edge).map some ++ [none] ++ (pieces.drop (pieces.length - edge)).map some
  else pieces.map some

def shownElements (summary : Bool) : List Nat → List Bytes → List Bytes
  | [], data => data
  | n :: rest, data =>
    let size := rest.foldl (· * ·) 1
    (shown summary (piecesOf size n data)).flatMap fun p => match p with
      | some p => shownElements summary rest p
      | none => []

def extendLine (indent : String) (width : Nat) (done : String × String) (word : String) : String × String :=
  let (s, line) := done
  if width < line.length + word.length && indent.length < line.length then
    (s ++ Text.stripRight line ++ "\n", indent ++ word)
  else (s, line ++ word)

def fillLines (indent separator : String) (width : Nat) (words : List String) : String :=
  match words.reverse with
  | [] => indent
  | last :: before =>
    let done := before.reverse.foldl (fun done w =>
      let (s, line) := extendLine indent width done w
      (s, line ++ separator)) ("", indent)
    let (s, line) := extendLine indent width done last
    s ++ line

def axesText (write : Bytes → String) (summary : Bool) (separator : String) :
    List Nat → String → Nat → List Bytes → String
  | [], _, _, data => (data.map write).headD ""
  | [_], indent, width, data =>
    let words := (shown summary data).map fun p => (p.map write).getD "..."
    let room := width - max (Text.stripRight separator).length 1
    bracket indent (fillLines indent separator room words)
  | n :: rest, indent, width, data =>
    let size := rest.foldl (· * ·) 1
    let rows := (shown summary (piecesOf size n data)).map fun p => indent ++ match p with
      | some p => axesText write summary separator rest (indent ++ " ") (width - 1) p
      | none => "..."
    let between := Text.stripRight separator ++ String.ofList (List.replicate rest.length '\n')
    bracket indent (String.intercalate between rows)
where
  bracket (indent s : String) : String := "[" ++ String.ofList (s.toList.drop indent.length) ++ "]"

variable (t : ElementType) (shape : List Nat)

def elementsText (data : List Bytes) (separator lead : String) (width : Nat) : String :=
  if data.isEmpty then "[]"
  else
    let summary := decide (threshold < data.length)
    let write := writer t shape.isEmpty (shownElements summary shape data)
    axesText write summary separator shape (" " ++ String.ofList (List.replicate lead.length ' ')) width data

def isImplied : ElementType → Bool
  | .number .int64 | .number .float64 | .number .complex128 | .number .bool => true
  | _ => false

def shapeText : String := group (shape.map toString)

def typeText : String :=
  match t with
  | .raw _ | .byteString _ | .textString _ => "'" ++ t.text ++ "'"
  | .instant _ | .span _ => "'" ++ t.text ++ "'"
  | t => t.text

def arrayText (data : List Bytes) : String :=
  let lead := "array("
  let skips := isImplied t && !data.isEmpty
  let close := if skips then ")" else ","
  let body := if data.isEmpty && shape != [0] then "[], shape=" ++ shapeText shape
    else elementsText t shape data ", " lead (lineWidth - close.length)
  let text := lead ++ body ++ close
  if skips then text
  else
    let type := "dtype=" ++ typeText t ++ ")"
    let last := ((text.splitOn "\n").getLast?.getD "").length
    if lineWidth < last + type.length + 1 then text ++ "\n" ++ String.ofList (List.replicate lead.length ' ') ++ type
    else text ++ " " ++ type

def elementText (e : Element) : String :=
  match e.type, e.quantity? with
  | .number .bool, some q => if q.isTrue then "True" else "False"
  | .number _, some (.int n) => toString n
  | .number p, some (.real x) => realTextWith (formatOf p) ".0" x
  | .number p, some (.complex x y) => complexTextWith (formatOf p) x y
  | t, _ => writer t true [e.bytes] e.bytes

def elementScript (e : Element) : String :=
  match e.type, e.quantity? with
  | .number .bool, some _ => "np." ++ elementText e ++ "_"
  | .number p, some _ => "np." ++ p.className ++ "(" ++ elementText e ++ ")"
  | t, _ => "np.void(" ++ elementText e ++ ", dtype=" ++ t.text ++ ")"

end Printed

namespace HostArray

variable (a : HostArray)

def extents : List Nat := a.shape.map Int.toNat

def text : Host String := do
  match a.shape, ← a.elements with
  | [], [e] => return Printed.elementText e
  | _, es => return Printed.elementsText a.type a.extents (es.map (·.bytes)) " " "" Printed.lineWidth

def scriptText : Host String := do
  return Printed.arrayText a.type a.extents ((← a.elements).map (·.bytes))

end HostArray

end ClHost
