
/-!
# Records

What reaches the device: one record for each call, in order. A later answer shows nothing else of the
device, so the records are the meaning of a run.
-/

namespace ClHost

/-! ## Device memory -/

abbrev Bytes := List UInt8

structure Patch where
  offset : Nat
  length : Nat
  unit : Bytes
  phase : Nat := 0
deriving DecidableEq

namespace Patch

def byteAt (p : Patch) (i : Nat) : UInt8 := p.unit.getD ((p.phase + i) % p.unit.length) 0

def bytes (p : Patch) (first count : Nat) : Bytes :=
  let whole := p.phase == 0 && p.unit.length == p.length
  if whole then (p.unit.drop first).take count
  else if p.unit.length == 1 then List.replicate count (p.unit.headD 0)
  else (List.range count).map fun i => p.byteAt (first + i)

def clip (p : Patch) (offset length : Nat) : Option Patch :=
  let first := max p.offset offset
  let last := min (p.offset + p.length) (offset + length)
  if first < last then some ⟨first, last - first, p.unit, p.phase + (first - p.offset)⟩ else none

end Patch

structure Memory where
  size : Nat
  patches : List Patch := []
deriving DecidableEq

namespace Memory

def overlay (base : Bytes) (at_ : Nat) (new : Bytes) : Bytes := base.take at_ ++ new ++ base.drop (at_ + new.length)

variable (m : Memory)

def read (offset length : Nat) : Bytes :=
  m.patches.foldr (fun p base =>
    match p.clip offset length with
    | some q => overlay base (q.offset - offset) (p.bytes (q.offset - p.offset) q.length)
    | none => base) (List.replicate length 0)

def apply (p : Patch) : Memory := if p.length == 0 then m else { m with patches := p :: m.patches }

def write (offset : Nat) (data : Bytes) : Memory := m.apply ⟨offset, data.length, data, 0⟩

def fill (offset length : Nat) (pattern : Bytes) : Memory :=
  if pattern.isEmpty then m else m.apply ⟨offset, length, pattern, 0⟩

def copyFrom (m source : Memory) (sourceOffset offset length : Nat) : Memory :=
  let blank : Memory := m.apply ⟨offset, length, [0], 0⟩
  source.patches.foldr (fun p acc =>
    match p.clip sourceOffset length with
    | some q => acc.apply { q with offset := q.offset - sourceOffset + offset }
    | none => acc) blank

end Memory

/-! ## Platforms, devices, contexts and queues -/

structure DeviceInfo where
  type : Nat := 2
  vendorId : Nat := 0
  maxComputeUnits : Nat := 1
  maxWorkGroupSize : Nat := 1
  localMemType : Nat := 1
  localMemSize : Nat := 0
  name : String := ""
  vendor : String := ""
  driverVersion : String := ""
  version : String := ""
  extensions : String := ""
  svmCapabilities : Nat := 0
  preferredMultiple : Nat := 1
  warpSize : Option Nat := none
  computeCapabilityMajor : Option Nat := none
  computeCapabilityMinor : Option Nat := none
deriving Inhabited

structure PlatformInfo where
  name : String := ""
  vendor : String := ""
  version : String := ""
  profile : String := ""
  extensions : String := ""
  devices : List DeviceInfo := []

structure DeviceRef where
  platform : Nat
  index : Nat
deriving DecidableEq, Inhabited

structure Context where
  id : Nat
  devices : List DeviceRef
deriving DecidableEq, Inhabited

structure Queue where
  id : Nat
  context : Context
  device : DeviceRef
  properties : Nat := 0
deriving DecidableEq, Inhabited

abbrev EventId := Nat

abbrev BufferId := Nat

abbrev ProgramId := Nat

abbrev KernelId := Nat

structure ImageFormat where
  order : Int
  type : Int
deriving DecidableEq

inductive MemoryKind where
  | buffer
  | image (type : Int) (format : ImageFormat) (shape : List Int)
deriving DecidableEq

structure MemoryObject where
  kind : MemoryKind
  flags : Nat
  memory : Memory
deriving DecidableEq

instance : Inhabited MemoryObject := ⟨⟨.buffer, 0, ⟨0, []⟩⟩⟩

inductive ProgramKind where
  | source | binary | intermediate
deriving DecidableEq, Inhabited

inductive BoundArg where
  | unset
  | null
  | buffer (id : BufferId)
  | localMemory (bytes : Nat)
  | data (bytes : Bytes)
  | shared (size : Nat)
  | sampler
  | queue (id : Nat)
deriving DecidableEq

inductive Datum where
  | null
  | bool (b : Bool)
  | int (n : Int)
  | text (s : String)
  | buffer (id : BufferId)
  | data (bytes : Bytes)
  | shared (size : Nat)
  | list (items : List Datum)

inductive Record where
  | alloc (buffer : BufferId) (size : Nat) (flags : Nat)
  | subBuffer (buffer parent : BufferId) (origin size : Int)
  | release (buffer : BufferId)
  | image (buffer : BufferId) (type : Int) (flags : Nat) (format : ImageFormat) (shape : List Int)
      (pitches : Option (List Int)) (host : Option Bytes) (source : Option BufferId)
  | legacyImage (buffer : BufferId) (type : Int) (flags : Nat) (format : ImageFormat) (shape : List Int)
      (pitches : Option (List Int)) (host : Option Bytes)
  | build (program : ProgramId) (kind : ProgramKind) (options : String) (devices : List Nat)
      (sameAs : Option ProgramId) (source : String)
  | compile (program : ProgramId) (kind : ProgramKind) (options : String) (devices : List Nat)
      (sameAs : Option ProgramId) (source : String) (headers : List (String × ProgramId))
  | link (program : ProgramId) (parts : List ProgramId) (options : String)
  | programFromBinary (program : ProgramId) (devices : List Nat)
  | programFromIntermediate (program : ProgramId) (size : Nat)
  | builtInKernels (program : ProgramId) (names : String)
  | launch (kernel : String) (program : ProgramId) (queue : Nat) (globalSize : List Int)
      (localSize : Option (List Int)) (offset : Option (List Int)) (args : List BoundArg)
      (wait : List EventId) (event : EventId)
  | read (buffer : BufferId) (offset size : Int) (blocking : Bool) (wait : List EventId) (queue : Nat)
      (event : EventId)
  | write (buffer : BufferId) (offset : Int) (data : Bytes) (blocking : Bool) (wait : List EventId)
      (queue : Nat) (event : EventId)
  | copy (source target : BufferId) (size sourceOffset targetOffset : Int) (wait : List EventId)
      (queue : Nat) (event : EventId)
  | fill (buffer : BufferId) (pattern : Bytes) (offset size : Int) (wait : List EventId) (queue : Nat)
      (event : EventId)
  | map (buffer : BufferId) (flags : Int) (offset : Int) (shape : Datum) (strides : Option (List Int))
      (wait : List EventId) (blocking : Bool) (queue : Nat) (event : Option EventId)
  | unmap (event : EventId)
  | wait (events : List EventId)
  | flush (queue : Nat)
  | finish (queue : Nat)
  | setStatus (event : EventId) (status : Int)
  | sharedAlloc (size alignment : Int) (flags : Int)
  | sharedRelease
  | command (name : String) (args : List (String × Datum)) (event : Option EventId)

end ClHost
