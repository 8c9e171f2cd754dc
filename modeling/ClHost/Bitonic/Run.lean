import ClHost.Device.Command
import ClHost.Elementwise.Build

/-!
# Carrying out bitonic sorts
-/

namespace ClHost

namespace Bitonic

def isPowerOrZero (n : Nat) : Bool := n == 0 || Nat.pow 2 (Log2.log64 n) == n

variable {α : Type} (xs : List α) (i : Int) (shape : List Int)

def entry? : Option α :=
  if 0 ≤ i then xs[i.toNat]? else if xs.length < (-i).toNat then none else xs[(xs.length + i).toNat]?

def entriesFrom : List α :=
  xs.drop (if 0 ≤ i then i.toNat else (xs.length + i).toNat)

def product : Nat := (shape.map Int.toNat).foldl (· * ·) 1

def innerSize (axis : Int) : Nat :=
  if axis < shape.length - 1 then product (entriesFrom shape (axis + 1)) else 1

end Bitonic

namespace Host

def newBitonicSort (context : Context) : Host Nat := do
  let w ← get
  set { w with bitonicSorters := w.bitonicSorters.push { context } }
  return w.bitonicSorters.size

def bitonicSorter (i : Nat) : Host Bitonic.Sorter := do
  return ((← get).bitonicSorters[i]?).getD default

def bitonicKernel (i : Nat) (rounds : Option Nat) (p : Bitonic.Parts) : Host KernelId := do
  let s ← bitonicSorter i
  match s.programs.find? (·.1 == (rounds, p)) with
  | some (_, program) => programKernel program "run"
  | none =>
    let program ← newProgram s.context (p.text rounds)
    build program [] none .standard
    modify fun w => { w with
      bitonicSorters := w.bitonicSorters.modify i fun s => { s with programs := s.programs ++ [((rounds, p), program)] } }
    programKernel program "run"

def planBitonic (i : Nat) (p : Bitonic.Problem) : Host (List Bitonic.Launch) := do
  let s ← bitonicSorter i
  match s.plans.find? (·.1 == p) with
  | some (_, launches) => return launches
  | none =>
    let keyName ← typeName p.keyType
    let indexName ← match p.indexType with
      | some t => typeName t
      | none => pure "uint"
    let extent := ((Bitonic.entry? p.shape p.axis).getD 0).toNat
    let d ← firstDevice s.context
    let info ← deviceInfo d
    let bytes := p.keyType.size + ((p.indexType.map (·.size)).getD 0)
    let group ← match Bitonic.fitGroup info.localMemSize bytes (min extent info.maxWorkGroupSize) with
      | some g => pure g
      | none => refuse .runtime ("too little local memory available on '" ++ (← deviceText d) ++ "'")
    let parts (distance direction : Nat) : Bitonic.Parts := {
      distance, direction, typeName := keyName, indexName, extent, inner := Bitonic.innerSize p.shape p.axis
      hasIndex := p.indexType.isSome }
    let launches ← (Bitonic.runQueue group extent (Bitonic.product p.shape)).mapM fun s => do
      let k ← bitonicKernel i s.rounds (parts s.distance s.direction)
      return { kernel := k, items := s.items, group := s.group : Bitonic.Launch }
    modify fun w => { w with
      bitonicSorters := w.bitonicSorters.modify i fun s => { s with plans := s.plans ++ [(p, launches)] } }
    return launches

/-- Sorts an array along an axis in place, and permutes an array of indices along with it: the event of the
last launch. -/
def bitonicSort (i : Nat) (a : DeviceArray) (index : Option DeviceArray) (queue : Option Queue) (wait : List EventId)
    (axis : Int) : Host EventId := do
  let q ← needQueue (queue <|> a.queue)
  let start ← enqueueMarker q (some (wait ++ (← eventsOf a)))
  let extent ← match Bitonic.entry? a.shape axis with
    | some n => pure n
    | none => bare .index
  if extent == 0 then return start
  if !Bitonic.isPowerOrZero extent.toNat then refuse .value "sorted array axis length must be a power of 2"
  let launches ← planBitonic i { keyType := a.type, indexType := index.map DeviceArray.type, shape := a.shape, axis }
  launches.foldlM (fun (e : EventId) (l : Bitonic.Launch) => do
    let data ← (a :: index.toList).mapM fun x => do return Actual.buffer (← lift x.data)
    let sizes := match l.group with
      | some g => Bitonic.localSizes g a.type.size (index.map fun (x : DeviceArray) => x.type.size)
      | none => []
    call q l.kernel { globalSize := [(l.items : Int)], localSize := l.group.map fun g => [(g : Int)] }
      (data ++ sizes.map .localMemory) [e]) start

end Host

end ClHost
