import ClHost.Array.Basic
import ClHost.Deflate.Stream
import ClHost.Program.Device

/-!
# Kernels

Each passed argument is bound by a rule that follows from the type its parameter was declared with. The rules of a
kernel are also written down as a script that sets its arguments and starts it.
-/

namespace ClHost

/-! ## What a caller passes to a kernel -/

inductive Actual where
  | none
  | literal (l : Literal)
  | element (e : Element)
  | host (a : HostArray)
  | bytes (b : Bytes)
  | buffer (b : BufferId)
  | array (a : DeviceArray)
  | localMemory (size : Nat)
  | sampler
  | queue (q : Queue)
  | shared (d : HostData)
  | text (s : String)
  /-- Anything else, with whether it counts as true. -/
  | other (truth : Bool)

namespace Actual

def operand? : Actual → Option Operand
  | literal l => some (.literal l)
  | element e => some (.element e)
  | _ => Option.none

def isTrue : Actual → Bool
  | none => false
  | literal l => l.quantity.isTrue
  | element e => match e.quantity? with
    | some q => q.isTrue
    | Option.none => true
  | bytes b => !b.isEmpty
  | text s => !s.isEmpty
  | other t => t
  | _ => true

def ownType : Actual → Result ElementType
  | literal l => l.ownType
  | element e => .ok e.type
  | host a => .ok a.type
  | text s => .ok (.textString s.length)
  | bytes b => .ok (.byteString b.length)
  | _ => .ok .object

def exactInteger? : Actual → Option Int
  | literal (.int n) => some n
  | literal (.bool b) => some (if b then 1 else 0)
  | element e =>
    match e.type, e.quantity? with
    | .number .bool, _ => Option.none
    | .number _, some (.int n) => some n
    | _, _ => Option.none
  | _ => Option.none

def isLiteralInteger : Actual → Bool
  | literal (.int _) | literal (.bool _) => true
  | _ => false

/-- The real number that a value stands for; a literal complex number does not stand for one. -/
def real? : Actual → Option Float
  | literal (.complex _ _) => Option.none
  | literal (.int n) => let x := Number.doubleOfInt n; if x.isInf then Option.none else some x
  | literal l => some l.quantity.re
  | element e => e.quantity?.map Quantity.re
  | _ => Option.none

def parts : Actual → Result (Actual × Actual)
  | literal (.complex x y) => .ok (literal (.real x), literal (.real y))
  | literal (.bool b) => .ok (literal (.int (if b then 1 else 0)), literal (.int 0))
  | literal (.real x) => .ok (literal (.real x), literal (.real 0.0))
  | literal l => .ok (literal l, literal (.int 0))
  | element e =>
    match e.type with
    | .number p =>
      let q := p.load e.bytes
      .ok (match q with
        | .complex x y => (element (.ofQuantity p.realPart (.real x)), element (.ofQuantity p.realPart (.real y)))
        | q => (element e, element (.ofQuantity p (match q with | .int _ => .int 0 | _ => .real 0.0))))
    | _ => .ok (element e, element e)
  | host a => .ok (host a, host a)
  | array a => .ok (array a, array a)
  | _ => .error (.bare .attribute)

end Actual

/-- Packs a value by the letter of a C type. -/
def pack (code : Char) (v : Actual) : Result Bytes :=
  match Primitive.all.find? (fun p => p.packCode == code) with
  | some .bool => .ok [if v.isTrue then 1 else 0]
  | some p =>
    match p.kind, p.binaryFormat? with
    | .signed, _ | .unsigned, _ =>
      match v.exactInteger? with
      | some n => if p.least ≤ n && n ≤ p.greatest then .ok (p.store (.int n)) else .error (.bare .packing)
      | none => .error (.bare .packing)
    | .real, some _ =>
      match v.real? with
      | some x =>
        let bytes := p.realBytes x
        if (p.readReal bytes).isInf && !x.isInf then
          .error (.bare (if v.isLiteralInteger then .packing else .overflow))
        else .ok bytes
      | none => .error (.bare .packing)
    | _, _ => .error (.bare .packing)
  | none => .error (.bare .packing)

/-! ## How arguments are bound -/

inductive WorkAround where
  | nothing
  /-- Complex numbers of double precision are passed as two arguments. -/
  | split
  /-- Complex numbers of double precision cannot be passed. -/
  | refuse
deriving DecidableEq

/-- What of an argument goes into one slot. -/
inductive Piece where
  | whole
  | packed (code : Char)
  | both (code : Char)
  | real (code : Char)
  | imaginary (code : Char)
deriving DecidableEq

namespace Binding

def pieces : Binding → List Piece
  | generic => [.whole]
  | packed c => [.packed c]
  | complexPair c => [.both c]
  | complexSplit c => [.real c, .imaginary c]

def slots (b : Binding) : Nat := b.pieces.length

def typeCode : ElementType → Char
  | .number p => p.packCode
  | .byteString _ => 'S'
  | .textString _ => 'U'
  | .instant _ => 'M'
  | .span _ => 'm'
  | .object => 'O'
  | .vector _ _ | .raw _ | .record _ _ _ => 'V'

def registerLimit : Nat := 8

def ofComplex (w : WorkAround) (reals : Nat) (p : Primitive) : Result Binding :=
  match p with
  | .complex64 => .ok (.complexPair 'f')
  | .complex128 =>
    if w == .split && reals + 2 ≤ registerLimit then .ok (.complexSplit 'd')
    else if w == .refuse && reals + 2 ≤ registerLimit then
      .error (.told .notImplemented ("No work-around to Apple's broken structs-as-kernel arg " ++
        "handling has been found. Cannot pass complex numbers to kernels."))
    else .ok (.complexPair 'd')
  | p => .error (.told .type ("unexpected complex type: " ++ p.name))

/-- The rule for a type; without one the argument may be anything that has bytes. -/
def ofType (w : WorkAround) (reals : Nat) : Option ElementType → Result Binding
  | none => .ok .generic
  | some (.number p) => if p.kind == .complex then ofComplex w reals p else .ok (.packed p.packCode)
  | some t => if t.kind == .void then .ok .generic else .ok (.packed (typeCode t))

def realsOf : Option ElementType → Nat
  | some t => if t.kind == .real then 1 else if t.kind == .complex then 2 else 0
  | none => 0

def plan (w : WorkAround) : Nat → List (Option ElementType) → List Binding × Option Fault
  | _, [] => ([], none)
  | reals, t :: ts =>
    match ofType w reals t with
    | .ok b => let (bs, e) := plan w (reals + realsOf t) ts; (b :: bs, e)
    | .error e => ([], some e)

def totalSlots (bs : List Binding) : Nat := bs.foldl (fun n b => n + slots b) 0

/-- The rules of a plan, if there are as many slots as the device counts. -/
def checked (slots : Int) : List Binding × Option Fault → Result (List Binding)
  | (_, some e) => .error e
  | (bindings, none) =>
    let n := totalSlots bindings
    if n = slots then .ok bindings
    else .error (.told .type ("length of argument list (" ++ toString n ++
      ") and CL-generated number of arguments (" ++ toString slots ++ ") do not agree"))

def isComplex : Option ElementType → Bool
  | some t => t.isComplex
  | none => false

end Binding

/-- A slot, and the piece of an argument that goes there. -/
structure Setting (α : Type) where
  value : α
  argument : Nat
  /-- Which of its argument's pieces it is. -/
  place : Nat
  piece : Piece
  slot : Nat

namespace Setting

def ofPieces {α : Type} (v : α) (argument slot : Nat) (ps : List Piece) : List (Setting α) :=
  ps.zipIdx.map fun p => ⟨v, argument, p.2, p.1, slot + p.2⟩

def ofBindings {α : Type} : Nat → Nat → List (α × Binding) → List (Setting α)
  | _, _, [] => []
  | argument, slot, (v, b) :: rest =>
    ofPieces v argument slot b.pieces ++ ofBindings (argument + 1) (slot + b.slots) rest

/-- The number that a failure is reported under. -/
def number {α : Type} (s : Setting α) : Nat := s.argument + s.place * 1000

end Setting

namespace Host

def miscountWarning (kernel : String) : String :=
  kernel ++ ": arguments include complex numbers, and some (but not all) of the target devices mishandle " ++
    "struct kernel arguments (hence the workaround is disabled"

def planBindings (kernel : String) (slots : Int) (types : List (Option ElementType)) (w : WorkAround)
    (warned : Bool) : Host (List Binding) := do
  let plan := Binding.plan w 0 types
  if warned then
    for t in types.take (plan.1.length + if plan.2.isSome then 1 else 0) do
      if Binding.isComplex t then warn .user (miscountWarning kernel)
  lift (Binding.checked slots plan)

end Host

/-! ## The text of a kernel's caller -/

namespace Script

open String

def indent (lines : List String) : List String := lines.map ("    " ++ ·)

def genericSlot (slot : Nat) (arg : String) : List String :=
  let i := toString slot
  ["if " ++ arg ++ " is None:", "    self._set_arg_null(" ++ i ++ ")",
    "elif isinstance(" ++ arg ++ ", _KERNEL_ARG_CLASSES):", "    self.set_arg(" ++ i ++ ", " ++ arg ++ ")",
    "else:", "    self._set_arg_buf(" ++ i ++ ", " ++ arg ++ ")"]

def packedSlot (slot : Nat) (codes : String) (values : String) : List String :=
  ["buf = pack('" ++ codes ++ "', " ++ values ++ ")", "self._set_arg_buf(" ++ toString slot ++ ", buf)"]

def pieceLines (slot : Nat) (arg : String) : Piece → List String
  | .whole => genericSlot slot arg
  | .packed c => packedSlot slot (singleton c) arg
  | .both c => packedSlot slot (ofList [c, c]) (arg ++ ".real, " ++ arg ++ ".imag")
  | .real c => packedSlot slot (singleton c) (arg ++ ".real")
  | .imaginary c => packedSlot slot (singleton c) (arg ++ ".imag")

def argumentNames (n : Nat) : List String := (List.range n).map fun i => "arg" ++ toString i

def settingLines (s : Setting String) : List String :=
  (if s.place = 0 then ["# process argument " ++ toString s.argument, "current_arg = " ++ toString s.argument]
    else ["current_arg = current_arg + 1000"]) ++ pieceLines s.slot s.value s.piece

def bodyLines (bindings : List Binding) : List String :=
  (Setting.ofBindings 0 0 ((argumentNames bindings.length).zip bindings)).flatMap settingLines

def handlerLines (names : List String) : List String :=
  ["if current_arg is not None:", "    args = [" ++ intercalate ", " names ++ "]",
    "    advice = \"\"", "    from pyopencl.array import Array",
    "    if isinstance(args[current_arg], Array):",
    "        advice = \" (perhaps you meant to pass 'array.data' \"                         " ++
      "\"instead of the array itself?)\"",
    "    raise _cl.LogicError(", "            \"when processing argument #%d (1-based): %s%s\"",
    "            % (current_arg+1, str(e), advice))", "else:", "    raise"]

def text (kernel : String) (passed : Nat) (bindings : List Binding) : String :=
  let names := argumentNames passed
  let body := if bindings.isEmpty then ["pass"] else bodyLines bindings
  let guarded := ["try:"] ++ indent body ++ ["except TypeError as e:"] ++ indent (handlerLines names) ++
    ["except _cl.LogicError as e:"] ++ indent (handlerLines names)
  let inside := ["import numpy as np", "import pyopencl._cl as _cl", "from pyopencl import _KERNEL_ARG_CLASSES"] ++
    guarded
  let enqueueParameters := ["self", "queue", "global_size", "local_size"] ++ names ++
    ["global_offset=None", "g_times_l=None", "wait_for=None"]
  intercalate "\n" (["from struct import pack", "from pyopencl import status_code",
      "def enqueue_knl_" ++ kernel ++ "(" ++ intercalate ", " enqueueParameters ++ "):"] ++
    indent inside ++
    indent ["return _cl.enqueue_nd_range_kernel(queue, self, global_size, local_size,",
      "        global_offset, wait_for, g_times_l=g_times_l)"] ++
    ["def set_args(" ++ intercalate ", " ("self" :: names) ++ "):"] ++ indent inside)

end Script

/-! ## Kernels and their launches -/

def Kernel.bind (c : Kernel) (slot : Nat) (v : BoundArg) : Kernel :=
  { c with
    bound := c.bound.set slot v
    buffers := match v with
      | .buffer b => c.buffers.filter (fun e => e.1 != slot) ++ [(slot, b)]
      | _ => c.buffers }

namespace Host

variable (k : KernelId)

def kernel : Host Kernel := do
  return ((← get).kernels)[k]?.getD default

def modifyKernel (f : Kernel → Kernel) : Host Unit :=
  modify fun w => { w with kernels := w.kernels.modify k f }

def newKernel (p : ProgramId) (name : String) (source : Option String) : Host KernelId := do
  match (← deviceProgram p).kernels.find? (fun e => e.1 == name) with
  | none => fail (.ofCode "clCreateKernel" (-46))
  | some (_, n) =>
    let w ← get
    set { w with kernels := w.kernels.push {
      program := p, name, numArgs := n, source, bindings := List.replicate n .generic
      bound := List.replicate n .unset } }
    return w.kernels.size

variable (param : Int) (h : ProgramHandle) (name : String) (d : DeviceRef)

def programKernel : Host KernelId := do
  let d ← deviceOf h
  match ← attempt (newKernel d name (← program h).source) with
  | .error (.device .logic _) => fail (unknownPart name)
  | r => lift r

def allKernels : Host (List KernelId) := do
  let d ← deviceOf h
  let source := (← program h).source
  (← deviceProgram d).kernels.mapM fun (n, _) => newKernel d n source

def kernelContext : Host Context := do
  return (← deviceProgram (← kernel k).program).context

def queryGroupLimit : Host Nat := do
  let w ← get
  let key := if w.kernelLimits.any (fun e => e.1 == name) then name else "*"
  match w.kernelLimits.find? (fun e => e.1 == key) with
  | some (_, [n]) => return n
  | some (_, n :: rest) =>
    set { w with kernelLimits := w.kernelLimits.map fun (e : String × List Nat) => if e.1 == key then (e.1, rest) else e }
    return n
  | _ => return (← deviceInfo d).maxWorkGroupSize

def queryGroupFact : Host (List Nat) := do
  match questionName Constants.kernelWorkGroupInfo param with
  | "WORK_GROUP_SIZE" => return [← queryGroupLimit (← kernel k).name d]
  | "COMPILE_WORK_GROUP_SIZE" => return [0, 0, 0]
  | "LOCAL_MEM_SIZE" | "PRIVATE_MEM_SIZE" => return [0]
  | "PREFERRED_WORK_GROUP_SIZE_MULTIPLE" => return [(← deviceInfo d).preferredMultiple]
  | _ => fail (.ofCode "clGetKernelWorkGroupInfo" (-30))

def groupFact : Host (List Nat) := do
  match (← kernel k).groupInfo.find? (fun e => e.1 == (param, d)) with
  | some (_, v) => return v
  | none =>
    let v ← queryGroupFact k param d
    modifyKernel k fun k => { k with groupInfo := k.groupInfo ++ [((param, d), v)] }
    return v

def groupLimit : Host Nat := do
  return (← groupFact k 4528 d).headD 0

variable (slot : Nat) (v : Actual) (args : List Actual)

def bindSlot (v : BoundArg) : Host Unit := do
  if (← kernel k).numArgs ≤ slot then fail (.ofCode "clSetKernelArg" (-49))
  modifyKernel k (·.bind slot v)

def bytesOf : Host Bytes :=
  let refused : Fault := .ofCode "Kernel.set_arg" (-30) "invalid kernel argument"
  match v with
  | .element e => return e.bytes
  | .bytes b => return b
  | .host a => if a.isContiguous then a.memoryBytes else fail refused
  | _ => fail refused

def dataOf (data : Result Bytes) : Host BoundArg := do
  return .data (← lift data)

/-- What is bound for a piece of an argument. -/
def pieceValue : Piece → Host BoundArg
  | .whole => do
    match v with
    | .none => return .null
    | .buffer b => return .buffer b
    | .localMemory n => return .localMemory n
    | .sampler => return .sampler
    | .queue q => return .queue q.id
    | .shared d => return .shared (← d.size)
    | v => return .data (← bytesOf v)
  | .packed c => dataOf (pack c v)
  | .both c => dataOf (do return (← pack c (← v.parts).1) ++ (← pack c (← v.parts).2))
  | .real c => dataOf (do pack c (← v.parts).1)
  | .imaginary c => dataOf (do pack c (← v.parts).2)

def bindPiece (p : Piece) : Host Unit := do
  bindSlot k slot (← pieceValue v p)

/-- Reports an argument that could not be bound by its number. -/
def explainArgument (number : Nat) (e : Fault) : Fault :=
  let shown (text : String) : Fault :=
    match args[number]? with
    | none => .bare .index
    | some v =>
      let advice := match v with
        | .array _ => " (perhaps you meant to pass 'array.data' instead of the array itself?)"
        | _ => ""
      .deviceText .logic ("when processing argument #" ++ toString (number + 1) ++ " (1-based): " ++ text ++ advice)
  match e with
  | .device .logic _ | .deviceText .logic _ | .failure .type _ => shown e.text
  | e => e

def runSettings (k : KernelId) (args : List Actual) : List (Setting Actual) → Host Unit
  | [] => pure ()
  | s :: rest => do
    match ← attempt (bindPiece k s.slot s.value s.piece) with
    | .ok () => runSettings k args rest
    | .error e => fail (explainArgument args s.number e)

def bindAll (bindings : List Binding) (k : KernelId) (args : List Actual) : Host Unit := do
  if args.length != bindings.length then bare .type
  runSettings k args (Setting.ofBindings 0 0 (args.zip bindings))

def setArguments : Host Unit := do
  bindAll (← kernel k).bindings k args

end Host

/-! ## Launches -/

structure LaunchRange where
  globalSize : List Int
  localSize : Option (List Int) := none
  offset : Option (List Int) := none
  countsGroups : Bool := false
deriving DecidableEq

namespace LaunchRange

def extend (n : Nat) (sizes : List Int) : List Int := sizes ++ List.replicate (n - sizes.length) 1

/-- The sizes that reach the device. -/
def resolve (r : LaunchRange) : Result LaunchRange := do
  let refused (text : String) : Fault := .ofCode "enqueue_nd_range_kernel" (-30) text
  let (globalSize, factors, localSize) ← match r.localSize with
    | none => pure (r.globalSize, none, none)
    | some l => do
      let dims := max r.globalSize.length l.length
      if !r.countsGroups && r.globalSize.length != l.length then
        throw (refused "global/local work sizes have differing dimensions")
      let l := extend dims l
      let g := extend dims r.globalSize
      if r.countsGroups then pure (List.zipWith (· * ·) g l, some l, some l) else pure (g, none, some l)
  let offset ← match r.offset with
    | none => pure none
    | some o =>
      if o.length != globalSize.length then
        throw (refused "global work size and offset have differing dimensions")
      pure (some (match factors with
        | some l => List.zipWith (· * ·) o l
        | none => o))
  return { globalSize, localSize, offset }

end LaunchRange

namespace Host

def takeReply (name : String) : Host (List Reply) := do
  let w ← get
  match w.replies.find? (fun e => e.1 == name) with
  | some (_, [r]) => return r
  | some (_, r :: rest) =>
    set { w with replies := w.replies.map fun (e : String × List (List Reply)) =>
      if e.1 == name then (e.1, rest) else e }
    return r
  | _ => return []

variable (q : Queue) (k : KernelId) (range : LaunchRange)

def launch (wait : List EventId) : Host EventId := do
  let r ← lift range.resolve
  let kernel ← kernel k
  for reply in ← takeReply kernel.name do
    match kernel.buffers.find? (fun e => e.1 == reply.arg) with
    | some (_, b) => modify fun w => { w with
        memory := w.memory.modify b fun m => { m with memory := m.memory.write reply.offset reply.data } }
    | none => pure ()
  let e ← newEvent
  record (.launch kernel.name kernel.program q.id r.globalSize r.localSize r.offset kernel.bound wait e)
  return e

def call (args : List Actual) (wait : List EventId) :
    Host EventId := do
  setArguments k args
  launch q k range wait

end Host

/-! ## Dealing out work -/

structure Splay where
  groups : Int
  items : Int
deriving DecidableEq

namespace Splay

def groupsPerUnit : Nat := 4 * 8

def mostItems : Nat := 128

def fewestItems : Nat := 32

def largest (deviceLimit : Nat) (kernelLimit : Option Nat) : Nat :=
  match kernelLimit with
  | some k => min (min mostItems deviceLimit) k
  | none => min mostItems deviceLimit

def deal (units deviceLimit : Nat) (kernelLimit : Option Nat) (n : Int) : Splay :=
  let most : Int := largest deviceLimit kernelLimit
  let fewest : Int := min (fewestItems : Int) most
  let maxGroups : Int := units * groupsPerUnit
  if n < fewest then ⟨1, fewest⟩
  else if n < maxGroups * fewest then ⟨(n + fewest - 1) / fewest, fewest⟩
  else if n < maxGroups * most then
    let units := (n + fewest - 1) / fewest
    ⟨maxGroups, (units + maxGroups - 1) / maxGroups * fewest⟩
  else ⟨maxGroups, most⟩

def range (s : Splay) : LaunchRange := { globalSize := [s.groups * s.items], localSize := some [s.items] }

end Splay

namespace Host

def splay (q : Queue) (n : Int) (kernelLimit : Option Nat) : Host Splay := do
  let d ← deviceInfo q.device
  return Splay.deal d.maxComputeUnits d.maxWorkGroupSize kernelLimit n

def splayArray (a : DeviceArray) (q : Queue) (kernelLimit : Option Nat) : Host Splay := do
  if !a.contiguity.any then refuse .notImplemented "cannot operate on non-contiguous array"
  splay q a.size kernelLimit

end Host

/-! ## Traits of devices -/

abbrev Release := Nat × Nat

namespace Host

variable (d : DeviceRef)

def hasExtension (name : String) : Host Bool := do
  return (Text.splitAt ' ' (← deviceInfo d).extensions).contains name

def hasDouble : Host Bool := hasExtension d "cl_khr_fp64"

def hasType (bit : Nat) : Host Bool := do
  return (← deviceInfo d).type &&& bit != 0

def releasedPlatform : String := "Portable Computing Language"

/-- Reads the release in the version of that platform: the version of the interface, the platform's mark,
and two numbers. -/
def releaseOf? (version : String) : Option Release :=
  let start := "OpenCL "
  if !Text.startsWith version start then none else
    let cs := version.toList.drop start.length
    let number := cs.takeWhile (fun c => c.isDigit || c == '.')
    let rest := cs.drop number.length
    let mark := " pocl ".toList
    if number.isEmpty || !Text.startsWithChars mark rest then none else
      let rest := rest.drop mark.length
      let major := rest.takeWhile Char.isDigit
      let after := rest.drop major.length
      let minor := (after.drop 1).takeWhile Char.isDigit
      if major.isEmpty || after.head? != some '.' || minor.isEmpty then none
      else some (Text.digitsValue major, Text.digitsValue minor)

/-- Whether the compiler of a device counts a structure of two words as two arguments, found out by
building a kernel. -/
def splitsStructures (context : Option Context) : Host Bool := do
  match (← get).structureTests.find? (fun e => e.1 == d) with
  | some (_, b) => return b
  | none =>
    let context ← match context with
      | some c => pure c
      | none => newContext (some [d]) false
    let p ← newProgram context ("\n            struct two_things\n            \x7b\n                long a;\n" ++
      "                long b;\n            \x7d;\n\n            __kernel void test_knl(struct two_things x)\n" ++
      "            \x7b\n            \x7d\n            ")
    build p [] none .standard
    let result := (← kernel (← programKernel p "test_knl")).numArgs == 2
    modify fun w => { w with structureTests := w.structureTests ++ [(d, result)] }
    return result

def structureTrait (context : Option Context) : Host WorkAround := do
  let p ← platformInfo d.platform
  if p.name == "Apple" && (← hasType d 2) then return .refuse
  if p.name == releasedPlatform then
    match releaseOf? p.version with
    | none =>
      warn .user ("pocl version number did not have expected format: '" ++ p.version ++ "'")
      bare .type
    | some r =>
      if Version.atLeast (0, 13) r then return .split
      if Version.atLeast (0, 14) r then
        if ← splitsStructures d context then return .split
  return .nothing

def declareTypes (k : KernelId) (types : List PassedType) : Host Unit := do
  modifyKernel k fun k => { k with passedTypes := some types }
  let context ← kernelContext k
  let traits ← context.devices.mapM fun d => structureTrait d (some context)
  let affected := traits.filter (· != .nothing)
  let (workAround, warned) ←
    if affected.isEmpty then pure (WorkAround.nothing, false)
    else if affected.length == traits.length then
      if affected.all (· == affected.headD .nothing) then pure (affected.headD .nothing, false)
      else bare .value
    else pure (WorkAround.nothing, true)
  let kernel ← kernel k
  let plain := types.map PassedType.type?
  let known := (kernel.name, kernel.numArgs, plain)
  let first := !(← get).warnedKernels.contains known
  let bindings ← planBindings kernel.name kernel.numArgs plain workAround (warned && first)
  if warned && first then modify fun w => { w with warnedKernels := w.warnedKernels ++ [known] }
  modifyKernel k fun k => { k with bindings }

end Host

namespace Base64

/-! ## Bytes as letters -/

def letters : Array Char := "ABCDEFGHIJKLMNOPQRSTUVWXYZabcdefghijklmnopqrstuvwxyz0123456789+/".toList.toArray

def letter (n : Nat) : Char := letters.getD (n % 64) 'A'

def encode : Bytes → List Char
  | [] => []
  | [a] => let n := a.toNat * 16; [letter (n / 64), letter n, '=', '=']
  | [a, b] => let n := (a.toNat * 256 + b.toNat) * 4; [letter (n / 4096), letter (n / 64), letter n, '=']
  | a :: b :: c :: rest =>
    let n := (a.toNat * 256 + b.toNat) * 256 + c.toNat
    letter (n / 262144) :: letter (n / 4096) :: letter (n / 64) :: letter n :: encode rest

end Base64

namespace Capture

inductive Operand where
  | buffer (data : Bytes)
  | data (data : Bytes)
  | number (text : String)
deriving DecidableEq

def Operand.data? : Operand → Option Bytes
  | buffer d | data d => some d
  | number _ => none

variable (s : Script) (i : Nat)

def argumentName : String := "arg" ++ toString i

def dataName : String := argumentName i ++ "_data"

def unpacked : String := "decompress(b64decode(" ++ dataName i ++ "))"

def Operand.passed : Operand → String
  | buffer _ => argumentName i
  | data _ => unpacked i
  | number t => t

def Operand.setup : Operand → List String
  | buffer _ => [
      argumentName i ++ " = cl.Buffer(ctx, mf.READ_WRITE | cl.mem_flags.COPY_HOST_PTR,",
      "    hostbuf=" ++ unpacked i ++ ")"]
  | _ => []

structure Script where
  source : String
  kernel : String
  types : Option (List PassedType)
  globalSize : String
  localSize : String
  offset : Option String
  operands : List Operand

def letters (data : Bytes) : List Char := "b'".toList ++ Base64.encode (Deflate.compress data) ++ ['\'']

def lineLength : Nat := 70

def pieces (size : Nat) (letters : List Char) : List (List Char) :=
  go letters.length letters
where
  /-- Cuts with as many steps as there are letters. -/
  go : Nat → List Char → List (List Char)
    | 0, _ => []
    | _, [] => []
    | n + 1, cs => cs.take size :: go n (cs.drop size)

def dataLines (name : String) (data : Bytes) : List String :=
  (name ++ " = (") :: (pieces lineLength (letters data)).map (fun p => "    " ++ Text.quoted (String.ofList p))
    ++ ["    )"]

def indented (s : String) : String := if s.isEmpty then "" else "    " ++ s

def typeText (t : PassedType) : String :=
  match t.type? with
  | none => "None"
  | some t => "np." ++ t.scriptText

def Script.body : List String :=
  let operands := s.operands.zipIdx
  let passed := operands.map (fun (o, i) => o.passed i) ++ (s.offset.map ("global_offset=" ++ ·)).toList
  ["ctx = cl.create_some_context()", "queue = cl.CommandQueue(ctx)", ""]
    ++ operands.flatMap (fun (o, i) => o.setup i)
    ++ ["", "prg = cl.Program(ctx, CODE).build()", "knl = prg." ++ s.kernel]
    ++ (match s.types with
      | none => []
      | some ts => ["knl.set_scalar_arg_dtypes((" ++ String.intercalate ", " (ts.map typeText) ++ ",))"])
    ++ ["knl(queue, " ++ s.globalSize ++ ", " ++ s.localSize ++ ",",
      "    " ++ String.intercalate ", " passed ++ ")", "", "queue.finish()"]

def Script.lines (write : String → Bytes → List String) : List String :=
  ["# generated by pyopencl.capture_call", "", "import numpy as np", "import pyopencl as cl",
      "from base64 import b64decode", "from zlib import decompress", "mf = cl.mem_flags", "",
      "CODE = r\"\"\"//CL//"]
    ++ (s.source.splitOn "\n").map (fun l => if (Text.strip l).isEmpty then "" else l)
    ++ ["\"\"\"", "", "", "def main():"] ++ s.body.map indented ++ [""]
    ++ s.operands.zipIdx.flatMap (fun (o, i) => match o.data? with
      | some d => write (dataName i) d
      | none => [])
    ++ ["", "if __name__ == \"__main__\":", "    main()", "", "# vim: filetype=pyopencl"]

def Script.text : String := String.intercalate "\n" (s.lines dataLines)

end Capture

namespace Host

def captureArgument (q : Queue) (i : Nat) (a : Actual) : Host Capture.Operand := do
  let unsupported : Host Capture.Operand :=
    refuse .runtime ("cannot capture: unsupported arg nr " ++ toString i ++ " (0-based)")
  match a with
  | .buffer b =>
    let m ← memoryObject b
    if m.kind != .buffer then return ← unsupported
    let size := m.memory.size
    let target ← HostArray.zeros (.number .uint8) [size] .row
    let _ ← enqueueRead q b (.array target) 0 [] true
    return .buffer (← target.memoryBytes)
  | .literal (.complex _ _) => unsupported
  | .literal l => return .number l.text
  | .element e =>
    match e.type, e.quantity? with
    | .number .bool, _ => return .data e.bytes
    | .number p, some n =>
      let text := match n with
        | .int n => toString n
        | .real x => Number.doubleText x
        | .complex x y => Number.complexText x y
      return .number ("np." ++ p.className ++ "(" ++ text ++ ")")
    | _, _ => return .data e.bytes
  | .host a =>
    match a.type with
    | .instant _ | .span _ => unsupported
    | _ => return .data (← a.memoryBytes)
  | .bytes b => return .data b
  | _ => unsupported

def captureArguments (q : Queue) (args : List Actual) : Host (List Capture.Operand) :=
  args.zipIdx.mapM fun (a, i) => captureArgument q i a

def capture (k : KernelId) (q : Queue) (args : List Actual) (sizes : Host (String × String))
    (offset : Option String) : Host Capture.Script := do
  let kernel ← kernel k
  match kernel.source with
  | none => refuse .runtime "cannot capture call, kernel source not available"
  | some source =>
    let operands ← captureArguments q args
    let (globalSize, localSize) ← sizes
    return { source, kernel := kernel.name, types := kernel.passedTypes, globalSize, localSize, offset, operands }

def saveCapture (file : String) (s : Capture.Script) : Host Unit := do
  let path ← locate file
  changeFiles fun t => t.write path ⟨.bytes (utf8 s.text), 0⟩

end Host

end ClHost
