import ClHost.Bitonic.Run
import ClHost.Lists.Run
import ClHost.Radix.Run
import ClHost.Random.Run
import ClHost.Reduction.Kernel

/-!
# Values of a session

A session runs steps that were written down as text, so the values that pass between its steps are of one type. They are
bound to the parameters of operations, and converted from and to the types of the library.
-/

namespace ClHost.Session

inductive Value where
  | none
  | bool (b : Bool)
  | int (n : Int)
  | real (x : Float)
  | complex (re im : Float)
  | text (s : String)
  | bytes (b : Bytes)
  | list (items : List Value)
  | tuple (items : List Value)
  | dict (entries : List (Value × Value))
  | slice (start stop step : Value)
  | range (start stop step : Int)
  | ellipsis
  | type (t : ElementType)
  | numberClass (p : Primitive)
  | element (e : Element)
  | host (a : HostArray)
  | array (a : DeviceArray)
  | contiguity (c : Strides.Contiguity)
  | argument (a : KernelArgument)
  | event (id : EventId)
  | buffer (id : BufferId)
  | image (id : BufferId)
  | imageInfo (id : BufferId)
  | profile (e : EventId)
  | format (f : ImageFormat)
  | localMemory (size : Nat)
  | sampler
  | shared (d : HostData)
  | allocator (className : String) (a : Allocator)
  | queue (q : Queue)
  | device (d : DeviceRef)
  | platform (i : Nat)
  | context (c : Context)
  | program (p : ProgramHandle)
  | kernel (k : KernelId)
  | registry (i : Nat)
  | renderer (r : Template.Renderer)
  | elementwise (i : Nat)
  | elementwiseTemplate (i : Nat) (t : ElementwiseTemplate)
  | reduction (i : Nat)
  | reductionStage (s : ReductionStage)
  | reductionTemplate (i : Nat) (t : ReductionTemplate)
  | scan (form : ScanForm) (i : Nat)
  | scanStage (group : Nat) (run : Option Nat) (kernel : KernelId)
  | scanTemplate (i : Nat) (t : ScanTemplate)
  | radixSort (i : Nat)
  | keyedSorter (i : Nat)
  | listBuilder (i : Nat)
  | bitonicSort (i : Nat)
  | generator (m : Random.Method) (i : Nat)
  | builtList (fields : List (String × Value))
  | function (name : String)
  /-- Sets the arguments of a kernel by rules of its own, and may start it. -/
  | caller (starts : Bool) (bindings : List Binding)
  | other (className : String)

namespace Value

def className : Value → String
  | none => "NoneType"
  | bool _ => "bool"
  | int _ => "int"
  | real _ => "float"
  | complex _ _ => "complex"
  | text _ => "str"
  | bytes _ => "bytes"
  | list _ => "list"
  | tuple _ => "tuple"
  | dict _ => "dict"
  | slice _ _ _ => "slice"
  | range _ _ _ => "range"
  | ellipsis => "ellipsis"
  | type _ => "dtype"
  | numberClass _ => "type"
  | element e => match e.type with
    | .number p => p.className
    | _ => "void"
  | host _ => "ndarray"
  | array _ => "Array"
  | contiguity _ => "ArrayFlags"
  | argument (.vector _ _ _) => "VectorArg"
  | argument (.scalar _ _) => "ScalarArg"
  | argument _ => "OtherArg"
  | event _ => "Event"
  | buffer _ => "Buffer"
  | image _ => "Image"
  | imageInfo _ => "_ImageInfoGetter"
  | profile _ => "ProfilingInfoGetter"
  | format _ => "ImageFormat"
  | localMemory _ => "LocalMemory"
  | sampler => "Sampler"
  | shared _ => "SVM"
  | allocator c _ => c
  | queue _ => "CommandQueue"
  | device _ => "Device"
  | platform _ => "Platform"
  | context _ => "Context"
  | program _ => "Program"
  | kernel _ => "Kernel"
  | registry _ => "DTypeRegistry"
  | renderer _ => "_TemplateRenderer"
  | elementwise _ => "ElementwiseKernel"
  | elementwiseTemplate _ _ => "ElementwiseTemplate"
  | reduction _ => "ReductionKernel"
  | reductionStage _ => "ReductionInfo"
  | reductionTemplate _ _ => "ReductionTemplate"
  | scan .general _ => "GenericScanKernel"
  | scan .serial _ => "GenericDebugScanKernel"
  | scan (.into .inclusive) _ => "InclusiveScanKernel"
  | scan (.into .exclusive) _ => "ExclusiveScanKernel"
  | scanStage _ (some _) _ => "_BuiltScanKernelInfo"
  | scanStage _ .none _ => "_BuiltFinalUpdateKernelInfo"
  | scanTemplate _ _ => "ScanTemplate"
  | radixSort _ => "RadixSort"
  | keyedSorter _ => "KeyValueSorter"
  | listBuilder _ => "ListOfListsBuilder"
  | bitonicSort _ => "BitonicSort"
  | generator m _ => m.className
  | builtList _ => "BuiltList"
  | function _ | caller _ _ => "function"
  | other c => c

def isNone : Value → Bool
  | none => true
  | _ => false

def items? : Value → Option (List Value)
  | list xs | tuple xs => some xs
  | range start stop step =>
    some ((List.range (IndexRange.mk start stop step).count).map fun (i : Nat) => int (start + step * i))
  | _ => Option.none

def int? : Value → Option Int
  | int n => some n
  | bool b => some (if b then 1 else 0)
  | element e =>
    match e.type, e.quantity? with
    | .number p, some (.int n) => if p == .bool then Option.none else some n
    | _, _ => Option.none
  | _ => Option.none

def literal? : Value → Option Literal
  | bool b => some (.bool b)
  | int n => some (.int n)
  | real x => some (.real x)
  | complex x y => some (.complex x y)
  | _ => Option.none

def operand? : Value → Option Operand
  | element e => some (.element e)
  | v => v.literal?.map .literal

def isKey : Value → Bool
  | list _ | dict _ | slice _ _ _ | host _ => false
  | tuple xs => xs.attach.all fun ⟨x, _⟩ => x.isKey
  | _ => true

def quantity? (v : Value) : Option Quantity := v.operand?.bind Operand.quantity?

mutual

def equals : Value → Value → Bool
  | text s, text t => s == t
  | bytes s, bytes t => s == t
  | none, none => true
  | list xs, list ys => equalItems xs ys
  | tuple xs, tuple ys => equalItems xs ys
  | type s, type t => s.same t
  | device d, device e => d == e
  | platform i, platform j => i == j
  | context c, context d => c.id == d.id
  | queue q, queue r => q.id == r.id
  | event i, event j => i == j
  | buffer i, buffer j => i == j
  | image i, image j => i == j
  | format f, format g => f == g
  | function f, function g => f == g
  | numberClass p, numberClass q => p == q
  | a, b =>
    match a.quantity?, b.quantity? with
    | some x, some y => x.equals y
    | _, _ => false

def equalItems : List Value → List Value → Bool
  | [], [] => true
  | x :: xs, y :: ys => x.equals y && equalItems xs ys
  | _, _ => false

end

def truth : Value → Bool
  | none => false
  | bool b => b
  | int n => n != 0
  | real x => x != 0.0
  | text s => !s.isEmpty
  | list xs | tuple xs => !xs.isEmpty
  | dict es => !es.isEmpty
  | bytes b => !b.isEmpty
  | element e => match e.quantity? with
    | some q => q.isTrue
    | Option.none => true
  | _ => true

end Value

/-! ## Calls by name -/

open Host String

structure Arguments where
  positional : List Value := []
  named : List (String × Value) := []

inductive Parameter where
  | required (name : String)
  | optional (name : String) (default : Value)
  /-- Takes the positional arguments that are left. -/
  | remaining
  /-- Takes the named arguments that are left. -/
  | extra

namespace Parameter

def name? : Parameter → Option String
  | required n | optional n _ => some n
  | _ => none

def defaultOf (s : String) : Value :=
  match s with
  | "None" => .none
  | "True" => .bool true
  | "False" => .bool false
  | "()" => .tuple []
  | "[]" => .list []
  | s =>
    match Text.readInteger? s with
    | some n => .int n
    | none => .text s

/-- Reads a parameter: a name, a name with a default after an equals sign, one star for the rest of the
positional arguments, two for the rest of the named ones. -/
def read (s : String) : Parameter :=
  if s == "*" then .remaining
  else if s == "**" then .extra
  else
    match Text.splitAt '=' s with
    | [n] => .required n
    | n :: rest => .optional n (defaultOf (intercalate "=" rest))
    | [] => .remaining

end Parameter

variable (s : String) {α : Type} (v : Value) (r : RegistryRef)

def parameters : List Parameter := (Text.words s).map Parameter.read

/-- Binds arguments to parameters from left to right. -/
def bindFrom (named : List (String × Value)) (known : List String) : List Parameter → List Value → Host (List Value)
  | [], [] => pure []
  | [], _ :: _ => bare .type
  | .remaining :: ps, vs => do return .tuple vs :: (← bindFrom named known ps [])
  | .extra :: ps, vs => do
    let others := named.filter (fun e => !known.contains e.1)
    return .dict (others.map fun (n, v) => (.text n, v)) :: (← bindFrom named known ps vs)
  | .required n :: ps, v :: vs | .optional n _ :: ps, v :: vs => do
    if named.any (fun e => e.1 == n) then bare .type
    return v :: (← bindFrom named known ps vs)
  | .required n :: ps, [] => do
    match (named.find? (fun e => e.1 == n)).map (·.2) with
    | some v => return v :: (← bindFrom named known ps [])
    | none => bare .type
  | .optional n d :: ps, [] => do
    let v := ((named.find? (fun e => e.1 == n)).map (·.2)).getD d
    return v :: (← bindFrom named known ps [])

def Arguments.bind (a : Arguments) (ps : List Parameter) : Host (List Value) := do
  let known := ps.filterMap Parameter.name?
  let takesAll := ps.any fun p => match p with
    | .extra => true
    | _ => false
  if !takesAll && a.named.any (fun e => !known.contains e.1) then bare .type
  bindFrom a.named known ps a.positional

export Host (need)

def given (read : Value → Host α) : Value → Host (Option α)
  | .none => return none
  | v => some <$> read v

/-- Types that values of a session can be converted to. -/
class OfValue (α : Type) where
  ofValue : Value → Host α

/-- Types that can be handed to a session. -/
class ToValue (α : Type) where
  toValue : α → Value

export OfValue (ofValue)
export ToValue (toValue)

instance : OfValue Value := ⟨pure⟩
instance : ToValue Value := ⟨id⟩
instance : ToValue Unit := ⟨fun _ => .none⟩
instance : ToValue Bool := ⟨.bool⟩
instance : ToValue Int := ⟨.int⟩
instance : ToValue Nat := ⟨fun n => .int n⟩
instance : ToValue String := ⟨.text⟩
instance : ToValue ElementType := ⟨.type⟩
instance : ToValue KernelArgument := ⟨.argument⟩
instance : ToValue HostArray := ⟨.host⟩

instance {α : Type} [ToValue α] : ToValue (Option α) := ⟨fun x => match x with | some a => toValue a | none => .none⟩

instance {α : Type} [ToValue α] : ToValue (List α) := ⟨fun xs => .list (xs.map toValue)⟩

instance {α β : Type} [ToValue α] [ToValue β] : ToValue (α × β) :=
  ⟨fun (a, b) => match toValue b with
    | .tuple bs => .tuple (toValue a :: bs)
    | b => .tuple [toValue a, b]⟩

structure Tuple (α : Type) where
  items : List α

instance {α : Type} [ToValue α] : ToValue (Tuple α) := ⟨fun t => .tuple (t.items.map toValue)⟩

instance : OfValue Int := ⟨fun v => need .type v.int?⟩
instance : OfValue Nat := ⟨fun v => Int.toNat <$> need .type v.int?⟩
instance : OfValue Bool := ⟨fun v => pure v.truth⟩
instance : OfValue String := ⟨fun v => match v with | .text s => pure s | _ => bare .type⟩

instance {α : Type} [OfValue α] : OfValue (Option α) := ⟨given ofValue⟩

instance {α : Type} [OfValue α] : OfValue (List α) := ⟨fun v => do (← need .type v.items?).mapM ofValue⟩

def typeOfName? : Option ElementType :=
  let cs := match s.toList with
    | '<' :: cs | '=' :: cs | '|' :: cs => cs
    | cs => cs
  let sized (make : Nat → ElementType) (ds : List Char) : Option ElementType :=
    if ds.all Char.isDigit then some (make (Text.digitsValue ds)) else none
  match Primitive.ofName? (ofList cs) with
  | some p => some (.number p)
  | none =>
    match cs with
    | ['?'] => some (.number .bool)
    | ['O'] => some .object
    | 'S' :: ds | 'a' :: ds => sized .byteString ds
    | 'V' :: ds => sized .raw ds
    | 'U' :: ds => sized .textString ds
    | 'M' :: '8' :: unit => some (.instant (ofList unit))
    | 'm' :: '8' :: unit => some (.span (ofList unit))
    | cs =>
      if ofList cs == "object" then some .object
      else if Text.startsWith s "datetime64" then some (.instant (ofList (s.toList.drop 10)))
      else if Text.startsWith s "timedelta64" then some (.span (ofList (s.toList.drop 11)))
      else none

instance : OfValue ElementType := ⟨fun v => match v with
  | .type t => pure t
  | .numberClass p => pure (.number p)
  | .none => pure (.number .float64)
  | .text s => need .type (typeOfName? s)
  | _ => bare .type⟩

instance : OfValue KernelArgument := ⟨fun v => match v with
  | .argument a => pure a
  | v => pure (.foreign ("<class '" ++ v.className ++ "'>"))⟩

instance : OfValue HostArray := ⟨fun v => match v with
  | .host a => pure a
  | _ => bare .type⟩

instance : OfValue Queue := ⟨fun v => match v with
  | .queue q => pure q
  | _ => bare .type⟩

instance : OfValue Context := ⟨fun v => match v with
  | .context c => pure c
  | _ => bare .type⟩

instance : OfValue DeviceRef := ⟨fun v => match v with
  | .device d => pure d
  | _ => bare .type⟩

/-- What can be called with a list of values. -/
class Operation (α : Type) where
  apply : α → List Value → Host Value

instance {α : Type} [ToValue α] : Operation (Host α) := ⟨fun m _ => do return toValue (← m)⟩

instance {α : Type} [ToValue α] : Operation (Result α) := ⟨fun m _ => do return toValue (← lift m)⟩

instance (priority := low) {α : Type} [ToValue α] : Operation α := ⟨fun a _ => pure (toValue a)⟩

instance {α β : Type} [OfValue α] [Operation β] : Operation (α → β) :=
  ⟨fun f vs => match vs with
    | v :: rest => do Operation.apply (f (← ofValue v)) rest
    | [] => bare .type⟩

structure Command where
  name : String
  parameters : List Parameter
  run : List Value → Host Value

def command [Operation α] (name params : String) (f : α) : Command :=
  ⟨name, parameters params, Operation.apply f⟩

def Command.call (c : Command) (a : Arguments) : Host Value := do
  c.run (← a.bind c.parameters)

/-! ## Types and declarations in a session -/

structure Names where
  items : List String

instance : OfValue Names := ⟨fun v => match v with
  | .text s => pure ⟨[s]⟩
  | v => do return ⟨← ofValue v⟩⟩

structure RegistryRef where
  index : Nat

instance : OfValue RegistryRef := ⟨fun v => match v with
  | .registry i => pure ⟨i⟩
  | _ => bare .attribute⟩

instance : ToValue PassedType := ⟨fun t => match t with
  | .buffer => .none
  | .offset => .numberClass .int64
  | .value t => .type t⟩

def RegistryRef.get : Host TypeRegistry := do
  return ((← MonadState.get).registries)[r.index]?.getD {}

def standardRegistry : RegistryRef := ⟨0⟩

def newRegistry : Host Value := do
  let w ← get
  set { w with registries := w.registries.push {} }
  return .registry w.registries.size

def registerType (names : Names) (t : Option ElementType) : Host ElementType := do
  match t with
  | none => lift ((← r.get).lookup names.items)
  | some t =>
    let (registry, result) := (← r.get).register names.items t
    setRegistry r.index registry
    lift result

def registerNewType (t : ElementType) (names : Names) (aliasOk : Bool) : Host Unit := do
  warn .deprecation "register_dtype is deprecated. Use get_or_register_dtype instead."
  match (← registry).name? t with
  | some known =>
    if !aliasOk then
      refuse .runtime ("dtype '" ++ t.text ++ "' already registered (as '" ++ known ++
        "', new names '" ++ String.intercalate ", " names.items ++ "')")
  | none => pure ()
  let _ ← registerType standardRegistry names (some t)

def typeNameIn (t : Option ElementType) : Host String := do
  match t with
  | none => refuse .value "dtype may not be None"
  | some t => lift ((← r.get).typeName t)

def RegistryRef.change (f : TypeRegistry → TypeRegistry × Result α) : Host α := do
  let (registry, result) := f (← r.get)
  setRegistry r.index registry
  lift result

def fillKernelTypes : Host Unit := r.change (·.fill TypeRegistry.kernelTypes)

def fillHostTypes (_words : Value) (includeBool : Bool) : Host Unit :=
  r.change (·.fill (TypeRegistry.hostTypes includeBool))

def registeredTypes : Host Value := do
  return .dict ((← r.get).types.map fun (n, t) => (.text n, .type t))

def registeredNames : Host Value := do
  return .dict ((← r.get).names.map fun (k, n) =>
    (match k with
      | .type t => Value.type t
      | .text s => .text s, .text n))

variable (a b : Value) (itemsize : Int) (shape : List Int) (withOffset : Bool)

def readArgument : Host KernelArgument := do
  lift (KernelArgument.read (← registry) withOffset s)

def readArguments : Host (List Value) := do
  match v with
  | .text s => return (← lift (KernelArgument.readList (← registry) withOffset s)).map .argument
  | .bytes b => return b.map fun x => .int x.toNat
  | v =>
    (← need .type v.items?).mapM fun x => match x with
      | .text s => do return .argument (← readArgument s withOffset)
      | x => pure x

def offsetCode (args : List KernelArgument) : Host String := do
  lift (KernelArgument.offsetCode (← registry) args)

def word (bits : Nat) (v : Value) : Host Nat :=
  match v, v.int? with
  | .real _, _ => bare .type
  | _, some n => if 0 ≤ n && n < (Nat.pow 2 bits : Nat) then pure n.toNat else bare .type
  | _, none => bare .type

def log64 : Host Nat := do return Log2.log64 (← word 64 v)

def log32 : Host Nat := do return Log2.log32 (← word 32 v)

def log16 : Host Nat := do return Log2.log16 (← word 16 v)

def isIntermediate : Bool :=
  match v with
  | .bytes b => b.take 4 == [7, 0x23, 2, 3] || b.take 4 == [3, 2, 0x23, 7]
  | _ => false

def rowMajorStrides : Tuple Int := ⟨Strides.rowMajor itemsize shape⟩

def columnMajorStrides : Tuple Int := ⟨Strides.columnMajor itemsize shape⟩

def commonTypeOf (allowDouble : Bool) : Host ElementType := do
  let t ← match a with
    | .host h => pure h.type
    | .element e => pure e.type
    | _ => bare .attribute
  let result ← match b, b.operand? with
    | .host h, _ => lift (t.promote h.type)
    | _, some o => lift (t.promoteOperand o)
    | _, none => bare .type
  return commonType allowDouble result

def extentOf : Host (Int × List Int × List Int) :=
  match v.items? with
  | some [start, strides, shape] => do return (← ofValue start, ← ofValue strides, ← ofValue shape)
  | _ => bare .type

def mayShareMemory : Host Bool := do
  return Strides.mayShareMemory (← extentOf a) (← extentOf b)

def vectorTypeList : Value :=
  let rows := ElementType.vectorTypes.filterMap fun (n, t) => match t with
    | .vector p lanes =>
      some (n, Value.list [.text n, .text ("<class 'numpy." ++ p.name ++ "'>"), .int lanes, .int t.size])
    | _ => none
  .list ((rows.mergeSort (fun a b => decide (a.1 ≤ b.1))).map (·.2))

def describeError (routine : String) (code : Int) (detail : String) : Value :=
  let name := match DeviceClass.ofCode code with
    | .error => "Error"
    | .logic => "LogicError"
    | .runtime => "RuntimeError"
    | .memory => "MemoryError"
  .list [.text name, .text (ErrorRecord.mk routine code detail).text, .int code, .text routine]

end ClHost.Session
