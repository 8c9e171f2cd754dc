import ClHost.Host

/-!
# What objects of the device interface say about themselves

Questions are named by the constants of a family; the answer is a fact.
-/

namespace ClHost

/-! ## Texts and versions of devices -/

abbrev Version := Nat × Nat

def Version.atLeast (v w : Version) : Bool := decide (w.1 < v.1) || (v.1 == w.1 && decide (w.2 ≤ v.2))

def Version.ofText? (s : String) : Option Version :=
  let mark := "OpenCL "
  if Text.startsWith s mark then
    let cs := s.toList.drop mark.length
    let major := cs.takeWhile Char.isDigit
    let minor := (cs.drop (major.length + 1)).takeWhile Char.isDigit
    let rest := cs.drop (major.length + 1 + minor.length)
    let tail := rest.drop 1
    let oneLine := !tail.contains '\n' || (tail.getLast? == some '\n' && !tail.dropLast.contains '\n')
    if !major.isEmpty && !minor.isEmpty && cs[major.length]? == some '.' && rest.head? == some ' ' && oneLine then
      some (Text.digitsValue major, Text.digitsValue minor)
    else none
  else none

def hexText (n : Nat) : String := "0x" ++ Text.digits 16 n

def platformHandle (i : Nat) : Nat := 0x1000 + i

def DeviceRef.handle (d : DeviceRef) : Nat := 0x2000 + 0x10 * d.platform + d.index

def Context.handle (c : Context) : Nat := 0x3000 + c.id

def Queue.handle (q : Queue) : Nat := 0x4000 + q.id

namespace Host

variable (i : Nat) (c : Context) (d : DeviceRef)

def platformText : Host String := do
  return "<pyopencl.Platform '" ++ (← platformInfo i).name ++ "' at " ++ hexText (platformHandle i) ++ ">"

def deviceText : Host String := do
  let name := Text.strip (← deviceInfo d).name
  let platform := Text.strip (← platformInfo d.platform).name
  return "<pyopencl.Device '" ++ name ++ "' on '" ++ platform ++ "' at " ++ hexText d.handle ++ ">"

def contextText : Host String := do
  let devices ← c.devices.mapM deviceText
  return "<pyopencl.Context at " ++ hexText c.handle ++ " on " ++ String.intercalate ", " devices ++ ">"

def versionOf (kind shown text : String) : Host Version :=
  match Version.ofText? text with
  | some v => pure v
  | none => fail (.deviceText .runtime
      (kind ++ " " ++ shown ++ " returned non-conformant platform version string '" ++ text ++ "'"))

def platformVersion : Host Version := do
  versionOf "Platform" (← platformText i) (← platformInfo i).version

def deviceVersion : Host Version := do
  versionOf "Device" (← deviceText d) (← deviceInfo d).version

def contextVersion : Host Version :=
  match c.devices with
  | d :: _ => platformVersion d.platform
  | [] => bare .index

def supports (v : Version) : Host Bool := do
  if Version.atLeast (← contextVersion c) v then return Version.atLeast (← get).headerVersion v
  else return false

def deviceModel : Host (String × Nat × String × String) := do
  let i ← deviceInfo d
  return (i.vendor, i.vendorId, i.name, i.version)

def newContext (devices : Option (List DeviceRef)) (hasType : Bool) : Host Context := do
  if devices.isSome && hasType then
    fail (.ofCode "Context" (-30) "one of 'devices' or 'dev_type' must be None")
  let w ← get
  let devices := devices.getD [⟨0, 0⟩]
  set { w with contexts := w.contexts + 1 }
  return ⟨w.contexts, devices⟩

def newQueue (context : Context) (device : Option DeviceRef) (properties : Nat) : Host Queue := do
  match device.or context.devices.head? with
  | none => bare .index
  | some device =>
    let w ← get
    set { w with queues := w.queues + 1 }
    return ⟨w.queues, context, device, properties⟩

def platformDevices (type : Int) : Host (List DeviceRef) := do
  let info ← platformInfo i
  return (info.devices.zipIdx.filter (fun (d, _) => ConstantFamily.sharesBit d.type type)).map fun (_, k) => ⟨i, k⟩

end Host

inductive Fact where
  | text (s : String)
  | int (n : Int)
  | ints (xs : List Int)
  | platform (i : Nat)
  | device (d : DeviceRef)
  | devices (ds : List DeviceRef)
  | context (c : Context)
  | program (p : ProgramId)
  | format (f : ImageFormat)
  | data (bs : List Bytes)

namespace Host

def questionName (f : ConstantFamily) (param : Int) : String :=
  ((f.entries.find? (fun e => e.2 == param)).map (·.1)).getD ""

def platformFact (i : Nat) (param : Int) : Host Fact := do
  let p ← platformInfo i
  match questionName Constants.platformInfo param with
  | "PROFILE" => return .text p.profile
  | "VERSION" => return .text p.version
  | "NAME" => return .text p.name
  | "VENDOR" => return .text p.vendor
  | "EXTENSIONS" => return .text p.extensions
  | _ => fail (.ofCode "clGetPlatformInfo" (-30))

def deviceFact (d : DeviceRef) (param : Int) : Host Fact := do
  let i ← deviceInfo d
  let refused : Fault := .ofCode "clGetDeviceInfo" (-30)
  let optional (x : Option Nat) : Host Fact := match x with
    | some n => return .int n
    | none => fail refused
  match questionName Constants.deviceInfo param with
  | "TYPE" => return .int i.type
  | "VENDOR_ID" => return .int i.vendorId
  | "MAX_COMPUTE_UNITS" => return .int i.maxComputeUnits
  | "MAX_WORK_GROUP_SIZE" => return .int i.maxWorkGroupSize
  | "LOCAL_MEM_TYPE" => return .int i.localMemType
  | "LOCAL_MEM_SIZE" => return .int i.localMemSize
  | "NAME" => return .text i.name
  | "VENDOR" => return .text i.vendor
  | "DRIVER_VERSION" => return .text i.driverVersion
  | "VERSION" => return .text i.version
  | "EXTENSIONS" => return .text i.extensions
  | "PLATFORM" => return .platform d.platform
  | "SVM_CAPABILITIES" => return .int i.svmCapabilities
  | "COMPUTE_CAPABILITY_MAJOR_NV" => optional i.computeCapabilityMajor
  | "COMPUTE_CAPABILITY_MINOR_NV" => optional i.computeCapabilityMinor
  | "WARP_SIZE_NV" => optional i.warpSize
  | _ => fail refused

def contextFact (c : Context) (param : Int) : Host Fact :=
  match questionName Constants.contextInfo param with
  | "DEVICES" => return .devices c.devices
  | "NUM_DEVICES" => return .int c.devices.length
  | "PROPERTIES" => return .ints []
  | "REFERENCE_COUNT" => return .int 1
  | _ => fail (.ofCode "clGetContextInfo" (-30))

def queueFact (q : Queue) (param : Int) : Host Fact :=
  match questionName Constants.commandQueueInfo param with
  | "CONTEXT" => return .context q.context
  | "DEVICE" => return .device q.device
  | "REFERENCE_COUNT" => return .int 1
  | "PROPERTIES" => return .int q.properties
  | _ => fail (.ofCode "clGetCommandQueueInfo" (-30))

variable (b : BufferId)

def memoryObject : Host MemoryObject := do
  return ((← get).memory)[b]?.getD default

def memoryType : Host Int := do
  match (← memoryObject b).kind with
  | .buffer => return 4336
  | .image t _ _ => return t

def memoryFact (param : Int) : Host Fact := do
  let m ← memoryObject b
  match questionName Constants.memInfo param with
  | "TYPE" => return .int (← memoryType b)
  | "FLAGS" => return .int m.flags
  | "SIZE" => return .int m.memory.size
  | _ => fail (.ofCode "clGetMemObjectInfo" (-30))

def imageFact (param : Int) : Host Fact := do
  match (← memoryObject b).kind with
  | .buffer => fail (.ofCode "clGetImageInfo" (-30))
  | .image _ format shape =>
    match questionName Constants.imageInfo param with
    | "FORMAT" => return .format format
    | "WIDTH" => return .int (shape.getD 0 0)
    | "HEIGHT" => return .int (shape.getD 1 0)
    | "DEPTH" => return .int (shape.getD 2 0)
    | _ => fail (.ofCode "clGetImageInfo" (-30))

end Host

/-! ## Choosing a context -/

open Text

structure Answer where
  text : String
  isText : Bool := true
deriving DecidableEq

def Answer.join (as : List Answer) : Result String :=
  if as.all (·.isText) then .ok (String.intercalate ":" (as.map (·.text))) else .error (.bare .type)

structure Dialogue where
  interactive : Bool
  answers : List Answer
  typed : List Answer := []

namespace Host

def readLine : Host String := do
  let w ← get
  if w.input.isEmpty then bare .endOfInput
  let cs := w.input.toList
  let line := cs.takeWhile (· != '\n')
  set { w with input := String.ofList (cs.drop (line.length + 1)) }
  return String.ofList line

def ask (d : Dialogue) (title : String) (choices : List String) (prompt : String) : Host (String × Dialogue) := do
  match d.answers with
  | a :: rest => return (a.text, { d with answers := rest })
  | [] =>
    if !d.interactive then return ("", d)
    let shown := choices.zipIdx.map fun (c, i) => "[" ++ toString i ++ "] " ++ c ++ "\n"
    print (title ++ "\n" ++ String.join shown ++ prompt)
    let line ← readLine
    return (line, { d with typed := d.typed ++ [⟨line, true⟩] })

variable {α : Type} (devices : List (DeviceRef × String)) (answer : String) (items : List (α × String))

def numbered? : Option α := do
  let n ← readInteger? answer
  if 0 ≤ n then items[n.toNat]?.map (·.1) else none

def named? (part : String) (items : List (α × String)) : Option α :=
  (items.find? fun i => contains (lower i.2) (lower part)).map (·.1)

def choosePlatform (platforms : List PlatformInfo) : Result Nat :=
  let items := platforms.zipIdx.map fun (p, i) => (i, p.name)
  if answer.isEmpty then .ok 0
  else
    match numbered? answer items <|> named? answer items.reverse with
    | some i => .ok i
    | none => .error (.deviceText .runtime "input did not match any platform")

def chooseDevice : Result DeviceRef :=
  match numbered? answer devices <|> named? answer devices with
  | some d => .ok d
  | none => .error (.deviceText .runtime "input did not match any device")

def pickDevices : Result (List DeviceRef) :=
  if answer.isEmpty then .ok ((devices.take 1).map (·.1)) else (splitAt ',' answer).mapM (chooseDevice devices)

def anyType : Int := 4294967295

def findNamed (identifier : String) : Result α :=
  match readInteger? identifier with
  | some n =>
    let i := if n < 0 then n + items.length else n
    match (if i < 0 then none else items[i.toNat]?) with
    | some (a, _) => .ok a
    | none => .error (.bare .index)
  | none =>
    match named? identifier items with
    | some a => .ok a
    | none => .error (.told .runtime ("object '" ++ identifier ++ "' not found"))

def allDevices : Host (List (Nat × List DeviceRef)) := do
  (List.range (← get).platforms.length).mapM fun i => do return (i, ← platformDevices i anyType)

/-- The platforms and devices that a text selects: entries between semicolons, each a platform and, after a
colon, devices between commas. -/
def selectDevices (selection : Option String) : Host (List (Nat × List DeviceRef)) := do
  let selection ← match selection with
    | some s => pure (some s)
    | none => environment? "PYOPENCL_TEST"
  match selection with
  | none => allDevices
  | some "" => allDevices
  | some s =>
    (splitAt ';' s).mapM fun entry => do
      let platforms := (← get).platforms.zipIdx.map fun (p, i) => (i, p.name ++ " " ++ p.vendor)
      match splitAt ':' entry with
      | [p] =>
        let p ← lift (findNamed platforms p)
        return (p, ← platformDevices p anyType)
      | [p, ds] =>
        let p ← lift (findNamed platforms p)
        let named ← (← platformDevices p anyType).mapM fun d => do
          let i ← deviceInfo d
          return (d, i.name ++ " " ++ i.vendor)
        return (p, ← lift ((splitAt ',' ds).mapM (findNamed named)))
      | _ => refuse .runtime "invalid syntax of PYOPENCL_TEST"

def chooseDevices (devices : List DeviceRef) (d : Dialogue) : Host (List DeviceRef × Dialogue) := do
  match devices with
  | [] => fail (.deviceText .error "no devices found")
  | [_] => return (devices, d)
  | _ =>
    let (answer, d) ← ask d "Choose device(s):" (← devices.mapM deviceText) "Choice, comma-separated [0]:"
    let named ← devices.mapM fun x => do return (x, (← deviceInfo x).name)
    return (← lift (pickDevices named answer), d)

def suggestion (choices : String) : String :=
  "Set the environment variable PYOPENCL_CTX='" ++ choices ++ "' to avoid being asked again."

def finishDialogue (provided : List Answer) (d : Dialogue) : Host Unit := do
  if !d.typed.isEmpty then
    print (suggestion (← lift (Answer.join (provided ++ d.typed))) ++ "\n")
  if !d.answers.isEmpty then
    fail (.deviceText .runtime ("not all provided choices were used by create_some_context. (left over: '" ++
      (← lift (Answer.join d.answers)) ++ "')"))

def chooseFrom (interactive : Bool) (provided : List Answer) : Host Context := do
  let platforms := (← get).platforms
  if platforms.isEmpty then fail (.deviceText .error "no platforms found")
  let d : Dialogue := { interactive, answers := provided }
  let shown ← (List.range platforms.length).mapM platformText
  let (answer, d) ← ask d "Choose platform:" shown "Choice [0]:"
  let (devices, d) ← chooseDevices (← platformDevices (← lift (choosePlatform answer platforms)) anyType) d
  finishDialogue provided d
  newContext (some devices) false

/-- Chooses a context. -/
def chooseContext (interactive : Option Bool) (answers : Option (List Answer)) : Host Context := do
  let interactive := interactive.getD (← get).isTerminal
  match answers with
  | some as => chooseFrom interactive as
  | none =>
    let tested ← match ← environment? "PYOPENCL_TEST" with
      | some _ => do pure ((← selectDevices none).flatMap (·.2))
      | none => pure []
    match tested with
    | d :: _ => newContext (some [d]) false
    | [] =>
      let provided := (← environment? "PYOPENCL_CTX").map fun s => (splitAt ':' s).map fun a => ⟨a, true⟩
      chooseFrom interactive (provided.getD [])

end Host

end ClHost
