import ClHost.Bitonic.Basic
import ClHost.Source.Include
import ClHost.Lists.Basic
import ClHost.Radix.Basic
import ClHost.Random.Basic
import ClHost.Reduction.Basic
import ClHost.Scan.Source

/-!
# The host

The state of a session: what the devices say about themselves, what has been made so far, the records of what reached
the devices, and the tables of the library.
-/

namespace ClHost

structure Reply where
  arg : Nat
  offset : Nat
  data : Bytes

structure BuildFailure where
  text : String
  times : Int
  kind : ProgramKind
  code : Int
  detail : String

inductive BuildLog where
  | unavailable
  | text (s : String)
  | perDevice (texts : List String)

structure DeviceProgram where
  context : Context
  kind : ProgramKind
  source : String
  devices : List DeviceRef
  kernels : List (String × Nat)
  options : String := ""
  isLinked : Bool := false
deriving Inhabited

abbrev ProgramHandle := Nat

structure Program where
  context : Option Context
  source : Option String
  device : Option ProgramId
deriving Inhabited

inductive Binding where
  /-- A buffer, a sampler, local memory, nothing, or the bytes of a host value. -/
  | generic
  | packed (code : Char)
  | complexPair (code : Char)
  | complexSplit (code : Char)
deriving DecidableEq

/-- A kernel: its program, its parameters and what is bound to them. -/
structure Kernel where
  program : ProgramId
  name : String
  numArgs : Nat
  source : Option String
  bindings : List Binding
  passedTypes : Option (List PassedType) := none
  bound : List BoundArg
  buffers : List (Nat × BufferId) := []
  groupInfo : List ((Int × DeviceRef) × List Nat) := []
deriving Inhabited

structure HostBlock where
  bytes : Bytes
deriving Inhabited

inductive WarningKind where
  | user | deprecation | compiler | runtime
deriving DecidableEq

structure World where
  platforms : List PlatformInfo := []
  headerVersion : Nat × Nat := (2, 0)
  kernelLimits : List (String × List Nat) := []
  argCounts : List (String × Nat) := []
  replies : List (String × List (List Reply)) := []
  buildFailures : List BuildFailure := []
  buildLog : BuildLog := .text ""
  input : String := ""
  isTerminal : Bool := false
  environment : List (String × String) := []
  workingDirectory : String := ""
  shippedHeaders : String := ""
  files : FileTree := {}
  log : Array Record := #[]
  warnings : Array (WarningKind × String) := #[]
  output : String := ""
  contexts : Nat := 0
  queues : Nat := 0
  events : Nat := 0
  tags : Nat := 0
  memory : Array MemoryObject := #[]
  hostBlocks : Array HostBlock := #[]
  eventLists : Array (List EventId) := #[]
  devicePrograms : Array DeviceProgram := #[]
  programs : Array Program := #[]
  kernels : Array Kernel := #[]
  shownSources : List (String × ProgramId) := []
  structureTests : List (DeviceRef × Bool) := []
  layouts : List ((DeviceRef × String × ElementType × Option Context) × ElementType) := []
  warnedKernels : List (String × Nat × List (Option ElementType)) := []
  elementwise : Array ElementwiseKernel := #[]
  elementwiseBuilds : List ((Nat × Bool) × (KernelId × List KernelArgument)) := []
  standardKernels : List ((Nat × StandardOperation) × KernelId) := []
  reductions : Array ReductionKernel := #[]
  standardReductions : List ((Nat × StandardReduction) × Nat) := []
  scans : Array ScanKernel := #[]
  scanSources : List (Scan.Key × Scan.Sources) := []
  runningSums : List ((Nat × ElementType × ElementType) × Nat) := []
  selections : List ((Nat × SelectionKey) × Nat) := []
  radixSorters : Array Radix.Sorter := #[]
  keyedSorters : Array Radix.KeyedSorter := #[]
  listBuilders : Array Lists.Builder := #[]
  listStages : List ((Nat × Primitive × Lists.Stage) × Nat) := []
  bitonicSorters : Array Bitonic.Sorter := #[]
  generators : Array Random.Generator := #[]
  templates : Nat := 0
  templateBuilds : List ((Nat × Nat × String) × Nat) := []
  registries : Array TypeRegistry := #[TypeRegistry.standard]
  platformOptions : List (String × List String) := [("Oclgrind", ["-D", "PYOPENCL_USING_OCLGRIND"])]

abbrev Host := ExceptT Fault (StateM World)

namespace Host

variable (i : Nat) {α : Type} (c : Category) (body : Host α)

def fail (f : Fault) : Host α := throw f

def lift : Result α → Host α
  | .ok a => pure a
  | .error e => throw e

def refuse (message : String) : Host α := throw (.told c message)

def bare : Host α := throw (.bare c)

def need : Option α → Host α
  | some x => pure x
  | none => bare c

def attempt : Host (Result α) := ExceptT.mk do return .ok (← ExceptT.run body)

variable (bytes : Bytes) (name : String) (cleanup : Host Unit) (events : List EventId)

def ensure : Host α := do
  let result ← attempt body
  cleanup
  lift result

def onFailure : Host α := do
  match ← attempt body with
  | .ok a => return a
  | .error e =>
    cleanup
    fail e

def require (condition : Bool) : Host Unit := if condition then pure () else bare .assertion

def record (r : Record) : Host Unit := modify fun w => { w with log := w.log.push r }

def warn (kind : WarningKind) (message : String) : Host Unit :=
  modify fun w => { w with warnings := w.warnings.push (kind, message) }

def print (s : String) : Host Unit := modify fun w => { w with output := w.output ++ s }

def environment? : Host (Option String) := do
  return ((← get).environment.find? (fun e => e.1 == name)).map (·.2)

def setVariable (value : Option String) : Host Unit :=
  modify fun w =>
    let rest := w.environment.filter (fun e => e.1 != name)
    { w with environment := match value with | some v => rest ++ [(name, v)] | none => rest }

def registry : Host TypeRegistry := do
  return ((← get).registries)[0]?.getD {}

def setRegistry (r : TypeRegistry) : Host Unit :=
  modify fun w => { w with registries := w.registries.setIfInBounds i r }

def typeName (t : ElementType) : Host String := do
  lift ((← registry).typeName t)

def newEvent : Host EventId := do
  let w ← get
  set { w with events := w.events + 1 }
  return w.events

def newEventList : Host Nat := do
  let w ← get
  set { w with eventLists := w.eventLists.push events }
  return w.eventLists.size

def eventList : Host (List EventId) := do
  return ((← get).eventLists)[i]?.getD []

def setEventList : Host Unit :=
  modify fun w => { w with eventLists := w.eventLists.setIfInBounds i events }

def newHostBlock : Host Nat := do
  let w ← get
  set { w with hostBlocks := w.hostBlocks.push ⟨bytes⟩ }
  return w.hostBlocks.size

def hostBytes : Host Bytes := do
  return (((← get).hostBlocks)[i]?.getD default).bytes

def setHostBytes : Host Unit :=
  modify fun w => { w with hostBlocks := w.hostBlocks.setIfInBounds i ⟨bytes⟩ }

def platformInfo : Host PlatformInfo := do
  return ((← get).platforms)[i]?.getD {}

def deviceInfo (d : DeviceRef) : Host DeviceInfo := do
  return ((← platformInfo d.platform).devices)[d.index]?.getD {}

def newTag : Host String := do
  let w ← get
  set { w with tags := w.tags + 1 }
  return Text.padLeft 32 '0' (Text.digits 16 w.tags)

end Host

end ClHost
