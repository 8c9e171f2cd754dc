import ClHost.Session.Value

/-!
# Devices and programs in a session

Platforms, devices, contexts, queues, memory and the commands on them, as operations on values.
-/

namespace ClHost

structure Memo (κ α : Type) where
  entries : List (κ × α) := []

namespace Memo

variable {κ α : Type}

def get? (m : Memo κ α) (same : κ → κ → Bool) (key : κ) : Option α :=
  (m.entries.find? (fun e => same e.1 key)).map (·.2)

def insert (m : Memo κ α) (key : κ) (result : α) : Memo κ α := ⟨m.entries ++ [(key, result)]⟩

def number (same : κ → κ → Bool) : Memo κ Nat → Nat → List κ → List Nat
  | _, _, [] => []
  | m, next, k :: ks =>
    match m.get? same k with
    | some n => n :: number same m next ks
    | none => next :: number same (m.insert k next) (next + 1) ks

end Memo

namespace Session

open Host Text

structure Events where
  items : List EventId := []

def eventOf : Value → Host EventId
  | .event e => pure e
  | _ => bare .type

instance : OfValue Events := ⟨fun v => match v with
  | .none => pure {}
  | v => do return ⟨← (← need .type v.items?).mapM eventOf⟩⟩

structure MemoryRef where
  id : BufferId

instance : OfValue MemoryRef := ⟨fun v => match v with
  | .buffer b | .image b => pure ⟨b⟩
  | _ => bare .type⟩

def hostData? : Value → Option HostData
  | .host a => some (.array a)
  | .element e => some (.element e)
  | .bytes b => some (.bytes b)
  | _ => none

instance : OfValue HostData := ⟨fun v => need .type (hostData? v)⟩

instance : OfValue ImageFormat := ⟨fun v => match v with
  | .format f => pure f
  | _ => bare .type⟩

structure EventRef where
  id : EventId

instance : OfValue EventRef := ⟨fun v => do return ⟨← eventOf v⟩⟩

instance : ToValue EventRef := ⟨fun e => .event e.id⟩
instance : ToValue Queue := ⟨.queue⟩
instance : ToValue Context := ⟨.context⟩
instance : ToValue DeviceRef := ⟨.device⟩

structure PlatformRef where
  index : Nat

instance : OfValue PlatformRef := ⟨fun v => match v with
  | .platform i => pure ⟨i⟩
  | _ => bare .type⟩

instance : ToValue PlatformRef := ⟨fun p => .platform p.index⟩

def datumOf : Nat → Value → Host Datum
  | 0, _ => bare .type
  | depth + 1, v =>
    match v with
    | .none => return .null
    | .bool b => return .bool b
    | .int n => return .int n
    | .text s => return .text s
    | .event e => return .int e
    | .queue q => return .int q.id
    | .buffer b | .image b => return .buffer b
    | .shared d => do return .shared (← d.size)
    | .list xs | .tuple xs => do return .list (← xs.mapM (datumOf depth))
    | v =>
      match v.int?, hostData? v with
      | some n, _ => return .int n
      | none, some d => do return .data (← d.read)
      | none, none => bare .type

def factValue : Fact → Value
  | .text s => .text s
  | .int n => .int n
  | .ints xs => .list (xs.map .int)
  | .platform i => .platform i
  | .device d => .device d
  | .devices ds => .list (ds.map .device)
  | .context c => .context c
  | .program p => .int p
  | .format f => .format f
  | .data bs => .list (bs.map .bytes)

instance : ToValue Fact := ⟨factValue⟩

variable (f : ConstantFamily) (calls : List (List Value)) (v : Value) (q : Queue) (m : MemoryRef) (name : String)

def question? : Option Int :=
  if lower name == name then f.value? (upper name) else none

def told (ask : Int → Host Fact) (name : String) : Host Fact :=
  need .attribute (question? f name) >>= ask

def platforms : Host (List PlatformRef) := do
  return (List.range (← get).platforms.length).map PlatformRef.mk

def devicesOf (p : PlatformRef) (type : Int) : Host (List DeviceRef) := platformDevices p.index type

def makeContext (devices : Option (List DeviceRef)) (_properties : Value) (type : Value) : Host Context :=
  newContext devices (!type.isNone)

variable (d : DeviceRef) (wait : Option Events) (c : Context) (flags : Int)

def makeQueue (d : Option DeviceRef) (properties : Option Int) : Host Queue :=
  newQueue c d (properties.getD 0).toNat

def makeBuffer (_ : Context) (flags : Int) (size : Int) (host : Option HostData) : Host Value := do
  let data ← host.mapM HostData.read
  return .buffer (← newBuffer flags.toNat size data)

def makeImage (format : ImageFormat) (shape : Option (List Int))
    (pitches : Option (List Int)) (host : Option HostArray) (isArray : Bool) (buffer : Option MemoryRef) :
    Host Value := do
  let r : ImageRequest := ⟨flags.toNat, format, shape, pitches, host, isArray, buffer.map (·.id)⟩
  return .image (← r.make c)

def makeImageFromArray (a : HostArray) (channels : Option Int) (mode : String)
    (normalised : Bool) : Host Value := do
  return .image (← imageFromArray c a channels mode normalised)

def imageShape : Host (Tuple Int) := do
  match (← memoryObject m.id).kind with
  | .image t _ shape =>
    if t == 4337 then return ⟨[shape.getD 0 0, shape.getD 1 0]⟩
    else if t == 4338 then return ⟨[shape.getD 0 0, shape.getD 1 0, shape.getD 2 0]⟩
    else fail (.deviceText .logic "only images have shapes")
  | .buffer => bare .attribute

def imagePart : Host Fact :=
  match question? Constants.imageInfo name with
  | some q => imageFact m.id q
  | none => told Constants.memInfo (memoryFact m.id) name

def imageInfoPart : Host Fact :=
  match v with
  | .imageInfo b =>
    match question? Constants.imageInfo (lower name) with
    | some q => imageFact b q
    | none => refuse .attribute
        ("<class 'pyopencl._add_functionality.<locals>._ImageInfoGetter'> has no attribute '" ++ name ++ "'")
  | _ => bare .attribute

def imageInfoOf : Host Value := do
  warn .user "Image.image.attr is deprecated. Use Image.attr directly, instead."
  return .imageInfo m.id

def profilePart : Host Int :=
  match v, Constants.profilingInfo.value? (upper name) with
  | .profile _, some n => pure n
  | _, _ => refuse .attribute
      ("<class 'pyopencl._add_functionality.<locals>.ProfilingInfoGetter'> has no attribute '" ++ name ++ "'")

def copyEnd : Host CopyEnd :=
  match v with
  | .buffer b | .image b => pure (.memory b)
  | .shared d => pure (.shared d)
  | v => .host <$> ofValue v

def copyOptions : Value → Host CopyOptions
  | .dict es => es.mapM fun (k, v) => do
    match k with
    | .text n => return (n, ← datumOf 8 v)
    | _ => bare .type
  | _ => bare .type

def copyBetween (target source : Value) (options : Value) : Host EventRef := do
  return ⟨← copy q (← copyEnd target) (← copyEnd source) (← copyOptions options)⟩

def mark : Host EventRef := do
  return ⟨← enqueueMarker q (wait.map (·.items))⟩

def block : Host EventRef := do
  return ⟨← enqueueBarrier q (wait.map (·.items))⟩

def fillMemory (pattern : HostData) (offset size : Int) (wait : Events) :
    Host EventRef := do
  return ⟨← fillBuffer q m.id (← pattern.read) offset size wait.items⟩

def sendCommand (f : CommandForm) (positional : List Value) (named : Value) : Host Value := do
  let names := f.required ++ f.optional
  if names.length < positional.length then bare .type
  let data ← positional.mapM (datumOf 8)
  return ((← f.send (names.zip data ++ (← copyOptions named))).map Value.event).getD .none

def shapeOfValue : Host (List Int) :=
  match v.items?, v with
  | some xs, _ => xs.mapM ofValue
  | none, .bool b => pure [if b then 1 else 0]
  | none, v => match v.int? with
    | some n => pure [n]
    | none => refuse .type "shape must either be iterable or castable to an integer"

def sharedArray (_ : Context) (shape : Value) (t : ElementType) (order : String)
    (alignment : Option Int) : Host HostArray := do
  let axes ← shapeOfValue shape
  let a ← sharedEmpty flags axes t order alignment
  match shape with
  | .list _ => bare .type
  | _ => return a

def sharedArrayLike (_ : Context) (a : HostArray) (alignment : Option Int) : Host HostArray :=
  sharedLike flags a alignment

def wrapShared (d : HostData) : Value := .shared d

def sharedObject (d : HostData) : Value :=
  match d with
  | .array a => .host a
  | .element e => .element e
  | .bytes b => .bytes b

def mapShared (how : String) : Host Value := do
  match v with
  | .shared d =>
    let flags ← match how with
      | "map_ro" => pure 1
      | "map_rw" => pure 3
      | _ => bare .type
    let queue := ("queue", Datum.int q.id)
    let memory := ("svm", Datum.shared (← d.size))
    let _ ← CommandForm.sharedMap.enqueue [queue, ("is_blocking", .bool true), ("flags", .int flags), memory]
    let _ ← CommandForm.sharedUnmap.enqueue [queue, memory]
    return sharedObject d
  | _ => bare .attribute

def fillShared (target pattern : Value) (_count _wait : Value) : Host EventRef := do
  let target ← match target with
    | .shared d => pure d
    | v => ofValue v
  return ⟨← CommandForm.sharedFill.enqueue
    [("queue", .int q.id), ("dst", .shared (← target.size)), ("pattern", ← datumOf 8 pattern)]⟩

def migrateShared (memory : List Value) (flags : Int) (wait : Option Events) : Host EventRef := do
  let objects ← memory.mapM fun v => datumOf 8 (match v with
    | .shared d => sharedObject d
    | v => v)
  let waits := match wait with
    | some w => [("wait_for", Datum.ofEvents w.items)]
    | none => []
  return ⟨← CommandForm.sharedMigrate.enqueue
    ([("queue", .int q.id), ("svms", .list objects), ("flags", .int flags)] ++ waits)⟩

def answersOf : Host (Option (List Answer)) :=
  match v with
  | .none => return none
  | .list xs => return some (xs.map fun x => match x with
    | .text s => ⟨s, true⟩
    | .bool b => ⟨if b then "True" else "False", false⟩
    | .none => ⟨"None", false⟩
    | x => match x.int?, x with
      | some n, _ => ⟨toString n, false⟩
      | none, .real y => ⟨Number.doubleText y, false⟩
      | none, x => ⟨x.className, false⟩)
  | .tuple _ => bare .attribute
  | _ => bare .type

def chooseContext (interactive answers : Value) : Host Context := do
  Host.chooseContext (if interactive.isNone then none else some interactive.truth) (← answersOf answers)

def selectDevices (selection : Option String) : Host (List (PlatformRef × List DeviceRef)) := do
  return (← Host.selectDevices selection).map fun (p, ds) => (⟨p⟩, ds)

def testParameters (wanted : List String) : Host Value := do
  let selected ← Host.selectDevices none
  let names := ["platform", "device", "ctx_factory", "ctx_getter"].filter fun n => wanted.contains n
  if names.contains "ctx_getter" then
    warn .deprecation "The 'ctx_getter' arg is deprecated in favor of 'ctx_factory'."
  if names.isEmpty then return .none
  let rows ← selected.mapM fun (p, ds) => do
    if names == ["platform"] then return [[Value.platform p]]
    ds.mapM fun d => names.mapM fun n => do
      match n with
      | "platform" => return .platform p
      | "device" => return .device d
      | _ =>
        let name := strip (← Host.deviceInfo d).name
        let platform := strip (← Host.platformInfo p).name
        return .text ("<context factory for <pyopencl.Device '" ++ name ++ "' on '" ++ platform ++ "'>")
  return .list [.list (names.map .text), .list (rows.flatten.map .list)]

def numberCalls (start : Nat) : Host (List Nat) := do
  if calls.any (fun c => c.any (fun v => !v.isKey)) then bare .type
  return Memo.number Value.equalItems {} start calls

def rememberedCalls : Host (List Nat) := numberCalls calls 1

def rememberedRounds : Host (List Nat × List Nat) := do
  let first ← numberCalls calls 1
  return (first, ← numberCalls calls (first.foldl max 0 + 1))

def constantText (value : Int) (format : Option String) : Host String :=
  lift (f.toText value (format.map fun s v => Template.renderOne (.number (.literal (.int v))) s))

def deviceModel : Host Value := do
  let (vendor, id, name, version) ← Host.deviceModel d
  return .tuple [.text "v1", .text vendor, .int id, .text name, .text version]

def deviceModelOld : Host Value := do
  warn .deprecation ("Device.persistent_unique_id is deprecated. " ++
    "Use Device.hashable_model_and_version_identifier instead.")
  deviceModel d

def useQueue : Host Bool := do
  record (.finish q.id)
  return true

end Session

end ClHost

namespace ClHost.Session

/-! ## Templates in a session -/

open Template Host

mutual

def templateDatum : Value → Template.Datum
  | .none => .none
  | .text s => .text s
  | .list xs => .list (templateData xs)
  | .tuple xs => .tuple (templateData xs)
  | .type t => .type t
  | v => match v.operand? with
    | some o => .number o
    | none => .other v.className v.className

def templateData : List Value → List Template.Datum
  | [] => []
  | v :: vs => templateDatum v :: templateData vs

end

variable (r : Renderer) (v : Value) (k : KernelRef) (p : ProgramRef) (d : DeviceRef) (name : String)

def pairsOf : Host (List (String × Value)) := do
  let pairs ← match v with
    | .dict es => es.mapM fun (k, x) => match k with
      | .text s => pure (s, x)
      | _ => bare .type
    | v => do (← need .type v.items?).mapM fun x => do
      match ← need .type x.items? with
      | [.text s, x] => pure (s, x)
      | [_, _] => bare .attribute
      | _ => bare .value
  return pairs.foldl (fun acc (n, x) =>
    if acc.any (fun (e : String × Value) => e.1 == n) then
      acc.map fun (e : String × Value) => if e.1 == n then (n, x) else e
    else acc ++ [(n, x)]) []

def namedValue (named : List (String × Value)) (name : String) : Value :=
  ((named.find? (·.1 == name)).map (·.2)).getD .none

def bindingsOf : Host Template.Bindings := do
  return (← pairsOf v).map fun (n, x) => (n, templateDatum x)

def aliasesOf : Host (List (String × ElementType)) := do
  (← pairsOf v).mapM fun (n, x) => do return (n, ← ofValue x)

variable (processor : Option String) (passed slots : Int) (types workAround warned : Value) (param : Int)

def renderText (text : String) (vars : Value) : Host String := do
  lift (render processor (← bindingsOf vars) text)

def makeRenderer (aliases vars : Value) : Host Value := do
  return .renderer (← lift (Renderer.make processor (← aliasesOf aliases) (← bindingsOf vars)))

instance : OfValue Renderer := ⟨fun v => match v with
  | .renderer r => pure r
  | _ => bare .attribute⟩

def namedType : Value → Host (String ⊕ ElementType)
  | .text s => return .inl s
  | v => do return .inr (← ofValue v)

def argumentEntry : Value → Host ArgumentEntry
  | .text s => return .declared s
  | .argument a => return .argument a
  | .tuple (t :: .text n :: _) => do return .typed (← namedType t) n
  | .tuple _ => bare .index
  | _ => return .unknown

def argumentList : Value → Host ArgumentList
  | .text s => return .text s
  | v => do return .entries (← (← need .type v.items?).mapM argumentEntry)

def renderWith (text : Option String) : Host (Option String) := do
  text.mapM fun s => lift (r.render s)

def renderArguments (lists : List Value) (named : Value) : Host (List KernelArgument) := do
  let named ← pairsOf named
  let withOffset := (namedValue named "with_offset").truth
  let others := (named.filter (fun e => e.1 != "with_offset")).map (·.1)
  if !others.isEmpty then refuse .type ("unrecognized kwargs: " ++ String.intercalate ", " others)
  lift (r.arguments (← registry) withOffset (← lists.mapM argumentList))

def parseType (r : Renderer) (v : Value) : Host ElementType := do
  match ← namedType v with
  | .inl n => lift (r.parseType (← registry) n)
  | .inr t => return t

def typePreamble (types : List Value) (args : Option (List KernelArgument)) :
    Host String := do
  r.preamble d (← types.mapM namedType) (args.getD [])

def matchStructure (t : ElementType) (c : Option Context) :
    Host (ElementType × String) := Host.matchStructure d name t c

structure ProgramRef where
  handle : ProgramHandle

instance : OfValue ProgramRef := ⟨fun v => match v with
  | .program p => pure ⟨p⟩
  | _ => bare .attribute⟩

instance : ToValue ProgramRef := ⟨fun p => .program p.handle⟩

structure KernelRef where
  id : KernelId

instance : OfValue KernelRef := ⟨fun v => match v with
  | .kernel k => pure ⟨k⟩
  | _ => bare .attribute⟩

instance : ToValue KernelRef := ⟨fun k => .kernel k.id⟩

def actualOf : Value → Actual
  | .none => .none
  | .element e => .element e
  | .host a => .host a
  | .array a => .array a
  | .bytes b => .bytes b
  | .buffer b | .image b => .buffer b
  | .localMemory n => .localMemory n
  | .sampler => .sampler
  | .queue q => .queue q
  | .shared d => .shared d
  | .text s => .text s
  | v => match v.literal? with
    | some l => .literal l
    | none => .other v.truth

instance : OfValue Actual := ⟨fun v => pure (actualOf v)⟩

def splitOptions : Host Value :=
  match v with
  | .text s => do return .list ((← lift (Options.split s)).map .text)
  | v => pure v

def optionTexts : Host (List String) := do
  match ← splitOptions v with
  | .list xs => xs.mapM ofValue
  | _ => bare .type

def rawBytes : Value → Host Bytes
  | .text s => pure (utf8 s)
  | .bytes b => pure b
  | _ => bare .type

def joinOptions (options : List Value) : Host Value := do
  return .bytes (List.intercalate [32] (← options.mapM rawBytes))

def includePathOf (options : List Value) : Host (List String) := do
  return Options.includePath (← options.mapM fun v => match v with
    | .text s => pure s
    | .bytes _ => bare .type
    | _ => bare .attribute)

variable (q : Queue) (c : Context) (options : Value) (devices : Option (List DeviceRef))

def processOptions (_ : Value) : Host Value := do
  let all ← buildOptions c (← optionTexts options)
  return .tuple [.bytes (utf8 (Options.join all)), .list ((Options.includePath all).map .text)]

def enableDebugging : Host Unit :=
  match v with
  | .platform p => Host.enableDebugging p
  | .context c => match c.devices with
    | d :: _ => Host.enableDebugging d.platform
    | [] => Host.bare .index
  | _ => Host.bare .attribute

def makeProgram (first second third : Value) : Host ProgramRef := do
  match first, second, third with
  | .context c, .text s, .none => return ⟨← newProgram c s⟩
  | .context c, .bytes b, .none =>
    if isIntermediate second then return ⟨← wrapProgram (← programFromIntermediate c b)⟩
    else bare .type
  | .context c, devices, binaries =>
    let binaries : List Value ← ofValue binaries
    let data ← binaries.mapM fun v => match v with
      | .bytes b => pure b
      | _ => bare .type
    return ⟨← wrapProgram (← programFromBinaries c (← ofValue devices) data)⟩
  | _, _, _ => bare .attribute

def cacheChoice : Value → Host CacheChoice
  | .none => return .standard
  | .bool false => return .disabled
  | .text s => return .directory s
  | _ => bare .type

def buildProgram (cache : Value) :
    Host ProgramRef := do
  build p.handle (← optionTexts options) devices (← cacheChoice cache)
  return p

def compileProgram
    (headers : List Value) : Host ProgramRef := do
  let options ← optionTexts options
  let headers ← headers.mapM fun v => match v.items? with
    | some [.text n, .program h] => pure (n, h)
    | _ => bare .type
  compile p.handle options devices headers
  return p

def linkPrograms (parts : List ProgramRef) (options : Value)
    (devices : Option (List DeviceRef)) : Host ProgramRef := do
  let options := (← given optionTexts options).getD []
  return ⟨← link c (parts.map (·.handle)) options devices⟩

def builtInProgram (devices : List DeviceRef) (names : Value) : Host ProgramRef := do
  let names ← match names with
    | .text s => pure s
    | v => do pure (String.intercalate ":" (← ofValue v))
  return ⟨← wrapProgram (← programOfBuiltIns c devices names)⟩

def programPart : Host Value := do
  match question? Constants.programInfo name, name with
  | some q, _ => return factValue (← programFact (← deviceOf p.handle) q)
  | none, "int_ptr" => return .int (0x6000 + (← deviceOf p.handle))
  | none, "_source" =>
    match (← program p.handle).source with
    | some s => return .text s
    | none => return .kernel (← programKernel p.handle name)
  | none, name => return .kernel (← programKernel p.handle name)

def programInfo : Host Fact := do
  programFact (← deviceOf p.handle) param

def buildInfo : Host Fact := do
  buildFact (← deviceOf p.handle) d param

def kernelsOf : Host (List KernelRef) := do
  return (← allKernels p.handle).map KernelRef.mk

def makeKernel : Host KernelRef := do
  return ⟨← newKernel (← deviceOf p.handle) name none⟩

def samePrograms (p q : ProgramRef) : Host Bool := do
  return (← deviceOf p.handle) == (← deviceOf q.handle)

def kernelInfo : Host Value := do
  let kernel ← kernel k.id
  match questionName Constants.kernelInfo param with
  | "FUNCTION_NAME" => return .text kernel.name
  | "NUM_ARGS" => return .int kernel.numArgs
  | "CONTEXT" => return .context (← kernelContext k.id)
  | "PROGRAM" => return .program (← wrapProgram kernel.program)
  | _ => fail (.ofCode "clGetKernelInfo" (-30))

def kernelPart : Host Value := do
  let kernel ← kernel k.id
  match question? Constants.kernelInfo name, name with
  | some q, _ => kernelInfo k q
  | none, "_source" => return (kernel.source.map Value.text).getD .none
  | none, "_scalar_arg_dtypes" => return .tuple ((← need .attribute kernel.passedTypes).map toValue)
  | none, _ => bare .attribute

def kernelGroupInfo (d : DeviceRef) : Host Value := do
  match ← groupFact k.id param d with
  | [n] => return .int n
  | ns => return .list (ns.map fun (n : Nat) => .int n)

def passedTypeOf : Value → Host PassedType
  | .none => return .buffer
  | v => do return .value (← ofValue v)

def declareTypes (types : Value) : Host Unit := do
  Host.declareTypes k.id (← (← need .type types.items?).mapM passedTypeOf)

def setArguments (args : List Actual) : Host Unit := Host.setArguments k.id args

def setArgument (slot : Nat) (v : Actual) : Host Unit := Host.bindPiece k.id slot v .whole

def callKernel (globalSize : List Int) (localSize : Option (List Int))
    (args : List Actual) (offset : Option (List Int)) (countsGroups : Bool) (wait : Events) : Host EventRef := do
  return ⟨← call q k.id ⟨globalSize, localSize, offset, countsGroups⟩ args wait.items⟩

def startKernel (k : KernelRef) (globalSize : List Int) (localSize offset : Option (List Int))
    (wait : Events) (countsGroups : Bool) : Host EventRef := do
  return ⟨← launch q k.id ⟨globalSize, localSize, offset, countsGroups⟩ wait.items⟩

def planCaller : Host (List Binding) := do
  match types with
  | .none => return List.replicate passed.toNat .generic
  | ts => do
    require (!workAround.isNone && !warned.isNone)
    let ts : List Value ← ofValue ts
    let ts ← ts.mapM passedTypeOf
    let w := match workAround with
      | .text "pocl" => WorkAround.split
      | .text "apple" => .refuse
      | _ => .nothing
    planBindings name slots (ts.map PassedType.type?) w warned.truth

def callerScript : Host (String × String) := do
  let bindings ← planCaller name passed slots types workAround warned
  return ("enqueue_knl_" ++ name, Script.text name passed.toNat bindings)

def makeCallers : Host (Tuple Value) := do
  let bindings ← planCaller name passed slots types workAround warned
  return ⟨[.caller true bindings, .caller false bindings]⟩

def runCaller (f : Value) (args : List Value) (offset : Option (List Int)) (countsGroups : Bool) (wait : Events) :
    Host (Option EventRef) := do
  match f, args with
  | .caller false bindings, k :: args => do
    bindAll bindings (← (ofValue k : Host KernelRef)).id (args.map actualOf)
    return none
  | .caller true bindings, k :: q :: globalSize :: localSize :: args => do
    let k : KernelRef ← ofValue k
    bindAll bindings k.id (args.map actualOf)
    startKernel (← ofValue q) k (← ofValue globalSize) (← ofValue localSize) offset wait countsGroups
  | _, _ => bare .type

def dependencyValue (d : Dependency) : Value := .tuple [.text d.file, .real (Number.doubleOfInt d.time), .text d.digest]

def dependenciesOf (source : String) (path : List String) : Host Value := do
  let w ← get
  return .list ((← lift (Source.dependencies w.files w.workingDirectory source path)).map dependencyValue)

def dependencyOf : Host Dependency :=
  match v.items? with
  | some [.text file, time, .text digest] =>
    let time := match time with
      | .real x => if Number.isWhole x then (Number.truncate? x).getD (-1) else -1
      | t => t.int?.getD (-1)
    pure ⟨file, time, digest⟩
  | _ => bare .value

def areCurrent (deps : List Value) : Host Bool := do
  let w ← get
  lift (Source.areCurrent w.files w.workingDirectory (← deps.mapM dependencyOf))

def fileDigest (file : String) : Host String := do
  let w ← get
  lift (Source.fileDigest w.files w.workingDirectory file)

def deviceCacheId : Host Value := do
  return .tuple (.tuple (cacheVersion.map fun (n : Nat) => .int n) :: (← Host.deviceCacheId d).map .text)

def cacheKey (options source : Value) : Host String := do
  Host.cacheKey d (← rawBytes options) (← rawBytes source)

def retrieveBuild (directory key : String) : Host Value := do
  match ← Host.retrieve directory key with
  | some (b, log) => return .tuple [.bytes b, .text log]
  | none => return .none

/-! ## Settings that refer to each other -/

inductive Piece where
  | char (c : Char)
  | reference (name : String)

def reference? : List Char → Option (List Char)
  | '$' :: '\x7b' :: cs =>
    let name := cs.takeWhile Text.isWordChar
    if name.isEmpty || (cs.drop name.length).head? != some '\x7d' then none else some name
  | _ => none

/-- The pieces of a text, less the characters at its front that belong to a reference before it. -/
def piecesFrom : Nat → List Char → List Piece
  | _, [] => []
  | n + 1, _ :: cs => piecesFrom n cs
  | 0, c :: cs => match reference? (c :: cs) with
    | some name => .reference (String.ofList name) :: piecesFrom (name.length + 2) cs
    | none => .char c :: piecesFrom 0 cs

def pieces (s : String) : List Piece := piecesFrom 0 s.toList

structure Settings where
  options : List (String × Value)
  environment : List (String × String)

namespace Settings

/-- An option comes before a variable of its name. -/
def value? (σ : Settings) (name : String) : Option Value :=
  (σ.options.lookup name).or ((σ.environment.lookup name).map .text)

def expandPiece (σ : Settings) (expand : String → Result String) : Piece → Result String
  | .char c => .ok (String.singleton c)
  | .reference name => match σ.value? name with
    | some (.text v) => expand v
    | some _ => .error (.bare .type)
    | none => .error (.bare .key)

/-- Expands a text, with no more than `limit` expansions one inside the other. -/
def expandText (σ : Settings) : Nat → String → Result String
  | 0, _ => .error (.bare .recursion)
  | limit + 1, s => do return String.join (← (pieces s).mapM (σ.expandPiece (σ.expandText limit)))

mutual

def expand (σ : Settings) (limit : Nat) : Value → Result Value
  | .text s => .text <$> σ.expandText limit s
  | .list items => .ok (.list (σ.expandItems limit items))
  | v => .ok v

/-- Leaves out what cannot be expanded. -/
def expandItems (σ : Settings) (limit : Nat) : List Value → List Value
  | [] => []
  | v :: vs => match σ.expand limit v with
    | .ok x => x :: σ.expandItems limit vs
    | .error _ => σ.expandItems limit vs

end

end Settings

/-- As many expansions as the calls of the host can be nested. -/
def expansionLimit : Nat := 250

def expandValue (v options : Value) : Host Value := do
  Host.lift (Settings.expand ⟨← pairsOf options, (← get).environment⟩ expansionLimit v)

def expandOptions (options : Value) : Host Value := do
  return .dict (← (← pairsOf options).mapM fun (n, v) => do return (.text n, ← expandValue v options))

end ClHost.Session
