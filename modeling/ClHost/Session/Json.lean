import ClHost.Session.ArrayMethods

/-!
# Results in JSON

How the values of a session and its failures are written. Plain values stand for themselves; an object with a tag stands
for another kind of value.
-/

namespace ClHost

inductive Json where
  | null
  | bool (b : Bool)
  | int (n : Int)
  | text (s : String)
  | real (x : Float)
  | array (items : List Json)
  | object (entries : List (String × Json))
deriving Inhabited

namespace Json

def entries : Json → List (String × Json)
  | object es => es
  | _ => []

variable (j : Json) (name : String)

def get? : Option Json := j.entries.lookup name

def get (j : Json) (name : String) : Json := (j.get? name).getD null

def items : Json → List Json
  | array xs => xs
  | _ => []

def text? : Json → Option String
  | text s => some s
  | _ => none

def int? : Json → Option Int
  | int n => some n
  | bool b => some (if b then 1 else 0)
  | _ => none

def str : String := (j.get name).text?.getD ""

def flag : Bool := (j.get name).int?.getD 0 != 0

def nat? : Option Nat := (j.get name).int?.map Int.toNat

def nat (j : Json) (name : String) (default : Nat) : Nat := (j.nat? name).getD default

def unit (n : Nat) : String := "\\u" ++ Text.padLeft 4 '0' (Text.digits 16 n)

def escape (c : Char) : String :=
  let n := c.toNat
  if c == '"' || c == '\\' then "\\" ++ c.toString
  else if 32 ≤ n && n < 127 then c.toString
  else if n < 0x10000 then unit n
  else unit (0xD800 + (n - 0x10000) / 1024) ++ unit (0xDC00 + n % 1024)

def quote (s : String) : String := s.foldl (fun acc c => acc ++ escape c) "\"" ++ "\""

mutual

def write : Json → String
  | null => "null"
  | bool b => toString b
  | int n => toString n
  | real x => toString x
  | text s => quote s
  | array items => "[" ++ String.intercalate "," (writeItems items) ++ "]"
  | object entries => "\x7b" ++ String.intercalate "," (writeEntries entries) ++ "\x7d"

def writeItems : List Json → List String
  | [] => []
  | j :: rest => j.write :: writeItems rest

def writeEntries : List (String × Json) → List String
  | [] => []
  | (k, j) :: rest => (quote k ++ ":" ++ j.write) :: writeEntries rest

end

end Json

class ToJson (α : Type) where
  json : α → Json

export ToJson (json)

instance : ToJson Json := ⟨id⟩
instance : ToJson Bool := ⟨.bool⟩
instance : ToJson Int := ⟨.int⟩
instance : ToJson Nat := ⟨fun n => .int n⟩
instance : ToJson String := ⟨.text⟩
instance : ToJson Bytes := ⟨fun b => .text (Text.hex b)⟩
instance {α : Type} [ToJson α] : ToJson (List α) := ⟨fun xs => .array (xs.map json)⟩
instance {α : Type} [ToJson α] : ToJson (Option α) := ⟨fun x => (x.map json).getD .null⟩
instance {α β : Type} [ToJson α] [ToJson β] : ToJson (α × β) := ⟨fun (a, b) => .array [json a, json b]⟩

def Json.tagged {α : Type} [ToJson α] (name : String) (v : α) : Json := .object [(name, json v)]

namespace Session

open Host Json

def bitsText (x : Float) : String := Text.padLeft 16 '0' (Text.digits 16 x.toBits.toNat)

mutual

def writeType : ElementType → Json
  | .vector p n => .text ("vec:" ++ ElementType.vectorBaseName p ++ toString n)
  | .record fields size _ =>
    let fs := fields.toList
    .object [("names", json (fs.map (·.name))), ("formats", .array (writeTypes fields)),
      ("offsets", json (fs.map (·.offset))), ("itemsize", json size)]
  | t => .text t.name

def writeTypes : FieldList → List Json
  | .nil => []
  | .cons _ _ t rest => writeType t :: writeTypes rest

end

instance : ToJson ElementType := ⟨writeType⟩

def writeNumber (p : Primitive) (bytes : Bytes) : Json :=
  match p.load bytes with
  | .int n => if p == .bool then .bool (n != 0) else .int n
  | .real x => .text (bitsText x)
  | .complex x y => json [bitsText x, bitsText y]

mutual

def writeElement (t : ElementType) (bytes : Bytes) : Json :=
  match t with
  | .number p => writeNumber p bytes
  | .vector p lanes =>
    json ((List.range (ElementType.paddedLanes lanes)).map fun i => writeNumber p ((bytes.drop (i * p.size)).take p.size))
  | .record fields _ _ => .array (writeFields fields bytes)
  | .byteString _ => .text (bytesText (bytes.reverse.dropWhile (· == 0)).reverse)
  | _ => json bytes

def writeFields (fields : FieldList) (bytes : Bytes) : List Json :=
  match fields with
  | .nil => []
  | .cons _ offset t rest => writeElement t ((bytes.drop offset).take t.size) :: writeFields rest bytes

end

def writeError (kind : String) (message : Option String) : Json :=
  .object (("error", .text kind) :: message.toList.map fun m => ("message", .text m))

structure FaultNames where
  category : Category → String
  device : DeviceClass → String

variable (names : FaultNames)

def FaultNames.write : Fault → Json
  | .device c r => writeError (names.device c) (some r.text)
  | .deviceText c t => writeError (names.device c) (some t)
  | .failure c m => writeError (names.category c) m

def writeArgument (a : KernelArgument) : Host Json := do
  let declaration := match a.declarator (← registry) with
    | .ok s => json s
    | .error e => names.write e
  let typed := match a.type? with
    | some t => [("dtype", json t), ("repr", json a.text)]
    | none => []
  return tagged "Argument" (object ([("class", json (Value.argument a).className), ("name", json a.name)] ++ typed ++
    [("declarator", declaration)]))

def writeValue (names : FaultNames) : Nat → Value → Host Json
  | 0, _ => return .text "..."
  | depth + 1, v => do
    let sub := writeValue names depth
    let real (x : Float) : Json := tagged "f" (bitsText x)
    match v with
    | .none => return .null
    | .bool b => return json b
    | .int n => return json n
    | .real x => return real x
    | .complex x y => return tagged "c" [real x, real y]
    | .text s => return json s
    | .bytes b => return tagged "hex" b
    | .list xs => return json (← xs.mapM sub)
    | .tuple xs => return tagged "t" (← xs.mapM sub)
    | .dict es => return tagged "dict" (← es.mapM fun (k, v) => do return (← sub k, ← sub v))
    | .builtList fields => return tagged v.className (← fields.mapM fun (k, v) => do return (k, ← sub v))
    | .slice a b c => return tagged "sl" [← sub a, ← sub b, ← sub c]
    | .range a b c => return tagged "range" [a, b, c]
    | .type t => return tagged "dt" t
    | .numberClass p => return tagged "type" p.className
    | .element e => return .object [("np", json e.type), ("v", writeElement e.type e.bytes)]
    | .host a =>
      return .object [("ary", json a.type), ("shape", json a.shape), ("strides", json a.strides),
        ("v", json ((← a.elements).map fun e => writeElement e.type e.bytes))]
    | .argument a => writeArgument names a
    | .event i => return tagged "event" i
    | .buffer i | .image i => return tagged "buf" i
    | .array a =>
      let c := a.contiguity
      return tagged "Array" (object [("shape", json a.shape), ("dtype", json a.type), ("strides", json a.strides),
        ("offset", json a.offset), ("size", json a.size), ("nbytes", json a.nbytes), ("buf", json a.buffer),
        ("events", json (← eventList a.events)), ("queue", json (a.queue.map (·.id))),
        ("flags", json [c.rowMajor, c.columnMajor, c.any])])
    | .queue q => return tagged "queue" q.id
    | .device d => return tagged "device" [d.platform, d.index]
    | .platform i => return tagged "platform" i
    | .context c => return tagged "context" (c.devices.map (·.index))
    | .kernel k =>
      let kernel := ((← MonadState.get).kernels)[k]?.getD default
      return .object [("kernel", json kernel.name), ("num_args", json kernel.numArgs)]
    | v => return tagged "obj" v.className

/-- Stores a value as an element of a type, with values inside each other to some depth. -/
def storeValue : Nat → ElementType → Value → Host Bytes
  | 0, _, _ => bare .type
  | depth + 1, t, v =>
    let fit (bytes : Bytes) : Bytes := (bytes ++ List.replicate t.size 0).take t.size
    match t, v with
    | .vector base _, v => do
      return fit (← (← need .type v.items?).mapM (storeValue depth (.number base))).flatten
    | .record fields _ _, v => do
      (fields.toList.zip (← need .type v.items?)).foldlM (fun bytes (f, x) => do
        return Memory.overlay bytes f.offset (← storeValue depth f.type x)) (fit [])
    | .number p, v => do return (← lift (p.ofOperand (← need .type v.operand?))).bytes
    | .byteString _, .bytes b | .raw _, .bytes b => return fit b
    | .byteString _, .text s | .raw _, .text s => return fit (utf8 s)
    | _, _ => return fit []

/-- The variables that a session starts with: its platforms, their devices, a context over the devices of
the first platform, and a queue on the first of them. -/
def startVariables : Host (List (String × Value)) := do
  let platforms := (← MonadState.get).platforms
  if platforms.isEmpty then return []
  let named := platforms.zipIdx.flatMap fun (p, i) =>
    ("plat" ++ toString i, Value.platform i) :: (List.range p.devices.length).map fun k =>
      ((if i == 0 then "dev" else "dev" ++ toString i ++ "_") ++ toString k, Value.device ⟨i, k⟩)
  let devices := (List.range (platforms.headD {}).devices.length).map (DeviceRef.mk 0)
  let context ← newContext (some devices) false
  let first := named ++ [("ctx", Value.context context)]
  if devices.isEmpty then return first
  return first ++ [("queue", .queue (← newQueue context devices.head? 0))]

/-! ## Steps on a memory pool -/

abbrev PoolRun := Pool.Run Pool.Numbered

def poolOperation (step : Json) (kind : String) : Pool.PoolM Pool.Numbered (Option Json) := do
  let number (name : String) : Nat := step.nat name 0
  let change (f : Pool.Numbered → Pool.Numbered) : Pool.PoolM Pool.Numbered Unit :=
    modify fun r => { r with allocator := f r.allocator }
  let functions := Pool.Numbered.functions
  match kind with
  | "allocate" => return some (json (← Pool.allocate functions (number "size")))
  | "free" => Pool.free functions (number "i")
  | "drop" => change fun a => { a with garbage := a.garbage ++ [number "i"] }
  | "fail" => change fun a => { a with failure := some ((step.get "code").int?.getD 0) }
  | "bin_number" =>
    return some (json (← Pool.arithmetic (Pool.binNumber (← MonadState.get).pool.leadingBits (number "v"))))
  | "alloc_size" =>
    return some (json (← Pool.arithmetic (Pool.allocSize (← MonadState.get).pool.leadingBits (number "v"))))
  | "set_trace" => Pool.setTrace (step.flag "v")
  | "free_held" => Pool.freeHeld functions
  | "stop_holding" => Pool.stopHolding functions
  | _ => pure ()
  return none

def writeAllocatorCall : Pool.AllocatorCall → Json
  | .alloc b n => .array [.text "alloc", .int b, .int n]
  | .free b n => .array [.text "free", .int b, .int n]
  | .collect => .array [.text "gc", .int 0, .int 0]
  | .refused n => .array [.text "oom", .int 0, .int n]

def poolStep (step : Json) (kind : String) (run : PoolRun) : Json × PoolRun :=
  let (result, run) := StateT.run (ExceptT.run (poolOperation step kind)) run
  let r := match result with
    | .ok r => r
    | .error (.device e) => some (writeError "PoolError" (e.routine ++ " " ++ toString e.code ++ " " ++ e.detail))
    | .error (.arithmetic _) => some (names.write (.bare .runtime))
    | .error .neverMade => some (names.write (.bare .attribute))
    | .error .unknownAllocation => some (names.write (.bare .index))
  let trace := if run.pool.printed.isEmpty then [] else [("trace", json run.pool.printed)]
  (.object (r.toList.map (fun r => ("r", r)) ++ [("held", json run.pool.held), ("active", json run.pool.active),
    ("used", json run.allocator.used), ("log", json (run.allocator.calls.map writeAllocatorCall))] ++ trace),
    { run with pool := { run.pool with printed := "" }, allocator := { run.allocator with calls := [] } })

end Session

end ClHost
