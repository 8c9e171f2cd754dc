import ClHost.Session.Programs

/-!
# Arrays and elementwise operations in a session

Making arrays, moving their elements, reading and setting parts of them, and elementwise kernels, as operations on values.
-/

namespace ClHost.Session

open Host

instance : OfValue DeviceArray := ⟨fun v => match v with
  | .array a => pure a
  | _ => bare .attribute⟩

instance : ToValue DeviceArray := ⟨.array⟩

def allocatorOf : Value → Host (Option Allocator)
  | .none => return none
  | .allocator _ a => return some a
  | _ => bare .type

def arrayOrder (s : String) : Host Strides.Order :=
  if ["", "f", "F", "fF"].contains s then pure .column
  else if ["c", "C", "cC"].contains s then pure .row
  else refuse .value ("invalid order: " ++ s)

def arrayHome : Value → Host (Context × Option Queue)
  | .queue q => return (q.context, some q)
  | .context c => return (c, none)
  | v => refuse .type ("cq may be a queue or a context, not '<class '" ++ v.className ++ "'>'")

variable (home shape : Value) (t : ElementType) (order : String)

def makeArray (allocator data : Value) (offset : Int)
    (strides events : Value) : Host DeviceArray := do
  let (context, queue) ← arrayHome home
  let axes ← shapeOfValue shape
  let strides ← match strides with
    | .none => do pure (Strides.ofOrder t.size axes (← arrayOrder order))
    | v => do pure (← ofValue v)
  if t == .object then refuse .type "object arrays on the compute device are not allowed"
  match shape with
  | .list _ => bare .assertion
  | _ => pure ()
  let allocator ← allocatorOf allocator
  let events : Events ← ofValue events
  match data with
  | .none =>
    let a ← newArray context queue t axes strides allocator
    setEventList a.events events.items
    return { a with offset }
  | .buffer b => return {
      context, queue, type := t, shape := axes, strides, buffer := b, offset
      events := ← newEventList events.items, allocator }
  | _ => bare .type

def makeZeros (allocator : Value) : Host DeviceArray := do
  let a ← makeArray home shape t order allocator .none 0 .none .none
  zeroFill a none []
  return a

def indexEntry : Value → IndexEntry
  | .slice a b c => .slice a.int? b.int? c.int?
  | .ellipsis => .ellipsis
  | .none => .newAxis
  | v => match v.int? with
    | some i => .position i
    | none => .other

def indexEntries : Value → List IndexEntry
  | .tuple xs => xs.map indexEntry
  | v => [indexEntry v]

def elementsAt (a indices : DeviceArray) : Host DeviceArray := do
  checkIndices a indices
  takeElements a indices none none []

def itemAt (xs : List Value) (index : Value) : Host Value := do
  let i ← need .type index.int?
  let i := if i < 0 then i + xs.length else i
  need .index (if i < 0 then none else xs[i.toNat]?)

/-- One entry of an index of a host array, as a list of axes with their lengths and strides, from the
number of axes it uses. -/
structure Picked where
  shape : List Int := []
  strides : List Int := []
  offset : Int
  axes : List (Int × Int)

def Picked.step (p : Picked) (full : Nat) : Value → Host Picked
  | .none => return { p with shape := p.shape ++ [1], strides := p.strides ++ [0] }
  | .ellipsis =>
    let kept := p.axes.take full
    return { p with
      shape := p.shape ++ kept.map (·.1), strides := p.strides ++ kept.map (·.2), axes := p.axes.drop full }
  | .slice start stop step =>
    match p.axes with
    | (n, s) :: rest => do
      let r ← lift (IndexRange.ofSlice start.int? stop.int? step.int? n)
      return {
        shape := p.shape ++ [(r.count : Int)], strides := p.strides ++ [s * r.step]
        offset := if r.count == 0 then p.offset else p.offset + s * r.start, axes := rest }
    | [] => bare .index
  | v =>
    match v.int?, p.axes with
    | some i, (n, s) :: rest =>
      let i := if i < 0 then i + n else i
      if 0 ≤ i && i < n then return { p with offset := p.offset + s * i, axes := rest }
      else bare .index
    | _, _ => bare .index

def pick (a : HostArray) (index : Value) : Host HostArray := do
  let entries := match index with
    | .tuple xs => xs
    | v => [v]
  let used := (entries.filter fun e => match e with
    | .none | .ellipsis => false
    | _ => true).length
  let whole : Picked := { offset := a.offset, axes := a.shape.zip a.strides }
  let p ← entries.foldlM (fun (p : Picked) e => p.step (a.shape.length - used) e) whole
  return { a with
    shape := p.shape ++ p.axes.map (·.1), strides := p.strides ++ p.axes.map (·.2), offset := p.offset }

def getItem (target index : Value) : Host Value := do
  match target, index with
  | .array a, .array indices => return .array (← elementsAt a indices)
  | .array a, index => return .array (← lift (a.index (indexEntries index)))
  | .host h, index =>
    let part ← pick h index
    match part.shape, ← part.elements with
    | [], [e] => return .element e
    | _, _ => return .host part
  | .tuple xs, index | .list xs, index => itemAt xs index
  | .dict es, index => return (← need .key (es.find? fun e => e.1.equals index)).2
  | _, _ => bare .type

def assignedOf : Value → Assigned
  | .array a => .array a
  | .host h => .host h
  | v => .number (actualOf v)

variable (context : Context) (arrays : List DeviceArray) (a : DeviceArray) (v : Value) (queue : Option Queue)
  (target : Value)

def assignItem (index value : Value) (queue : Option Queue) (wait : Events) : Host Unit :=
  match index with
  | .array indices => assignAt a indices (assignedOf value) queue wait.items
  | index => assignPart a (indexEntries index) (assignedOf value) queue wait.items

def setItem (target index value : Value) : Host Unit :=
  match target with
  | .array a => assignItem a index value none {}
  | _ => bare .type

/-! ## Texts of values -/

def sequenceText (isTuple : Bool) (items : List String) : String :=
  let inner := String.intercalate ", " items
  if isTuple then "(" ++ inner ++ (if items.length == 1 then ",)" else ")") else "[" ++ inner ++ "]"

def bytesText (b : Bytes) : String := "b" ++ Text.quoted (String.ofList (b.map fun x => Char.ofNat x.toNat))

def describeWithin : Nat → Value → Host String
  | 0, _ => bare .recursion
  | depth + 1, v =>
    match v with
    | .platform i => platformText i
    | .device d => deviceText d
    | .context c => contextText c
    | .format f => pure f.text
    | .argument a => pure a.text
    | .type t => pure t.scriptText
    | .text s => pure (Text.quoted s)
    | .int n => pure (toString n)
    | .bool b => pure (if b then "True" else "False")
    | .none => pure "None"
    | .ellipsis => pure "Ellipsis"
    | .real x => pure (Number.doubleText x)
    | .complex x y => pure (Number.complexText x y)
    | .bytes b => pure (bytesText b)
    | .element e => pure (Printed.elementScript e)
    | .numberClass p => pure ("<class 'numpy." ++ p.className ++ "'>")
    | .array a => do (← getArray a none).scriptText
    | .host h => h.scriptText
    | .range start stop step => pure ("range(" ++ toString start ++ ", " ++ toString stop ++
        (if step == 1 then ")" else ", " ++ toString step ++ ")"))
    | .slice a b c => do
      return "slice(" ++ String.intercalate ", " (← [a, b, c].mapM (describeWithin depth)) ++ ")"
    | .list items => do return sequenceText false (← items.mapM (describeWithin depth))
    | .tuple items => do return sequenceText true (← items.mapM (describeWithin depth))
    | .dict entries => do
      let parts ← entries.mapM fun (k, v) => do
        return (← describeWithin depth k) ++ ": " ++ (← describeWithin depth v)
      return "\x7b" ++ String.intercalate ", " parts ++ "\x7d"
    | _ => bare .type

def describe : Host String := describeWithin 60 v

def display : Host String :=
  match v with
  | .text s => pure s
  | .type t => pure t.text
  | .element e => pure (Printed.elementText e)
  | .array a => do (← getArray a none).text
  | .host h => h.text
  | v => describe v

def argumentSource : Value → Host ArgumentSource
  | .text s => return .text s
  | v => do return .items ((← need .type v.items?).map fun x => match x with
    | .text s => .inl s
    | .argument a => .inr a
    | x => .inr (.foreign ("<class '" ++ x.className ++ "'>")))

def textSetting (settings : List (String × Value)) (name default : String) : Host String :=
  match settings.find? (fun e => e.1 == name) with
  | some (_, v) => ofValue v
  | none => pure default

def makeElementwise (arguments : Value) (operation name : String) (options settings : Value) :
    Host Value := do
  let settings ← pairsOf settings
  let known := ["preamble", "loop_prep", "after_loop", "auto_preamble"]
  let code : ElementwiseCode := {
    arguments := ← argumentSource arguments, operation, name, options := ← optionTexts options
    preamble := ← textSetting settings "preamble" ""
    loopPrep := ← textSetting settings "loop_prep" ""
    afterLoop := ← textSetting settings "after_loop" ""
    autoPreamble := ((settings.find? (fun e => e.1 == "auto_preamble")).map (·.2.truth)).getD true
    hasUnknownSetting := settings.any (fun e => !known.contains e.1) }
  return .elementwise (← newElementwise { context, code })

structure ElementwiseRef where
  index : Nat

instance : OfValue ElementwiseRef := ⟨fun v => match v with
  | .elementwise i => pure ⟨i⟩
  | _ => bare .attribute⟩

def sliceParts : Value → Host (Option Int × Option Int × Option Int)
  | .slice a b c => do return (← ofValue a, ← ofValue b, ← ofValue c)
  | .range a b c => return (some a, some b, some c)
  | _ => bare .attribute

def selectionBy (make : Option Int → Option Int → Option Int → ElementSelection) : Value → Host (List ElementSelection)
  | .none => return []
  | v => do
    let (a, b, c) ← sliceParts v
    return [make a b c]

def selectionOf (named : List (String × Value)) : Host (List ElementSelection) := do
  return (← selectionBy .range (namedValue named "range")) ++ (← selectionBy .slice (namedValue named "slice"))

variable (k : KernelRef) (file : String) (q : Queue) (globalSize localSize : Value)

def captureElementwise (l : ElementwiseLaunch) : Host Unit := do
  Host.setArguments l.kernel l.args
  let sizes (xs : List Int) : String := sequenceText true (xs.map toString)
  let range := l.splay.range
  let script ← Host.capture l.kernel l.queue l.args
    (pure (sizes range.globalSize, (range.localSize.map sizes).getD "None")) none
  saveCapture file script

variable (async : Value) (e : ElementwiseRef) (args : List Value) (named : Value)

def callElementwise : Host EventRef := do
  let named ← pairsOf named
  let get := namedValue named
  let unknown := (named.map (·.1)).filter fun n => !(["range", "slice", "capture_as", "queue", "wait_for"].contains n)
  let wait : Events ← ofValue (get "wait_for")
  let launch ← prepareElementwise e.index (args.map actualOf) (← ofValue (get "queue")) (← selectionOf named)
    wait.items unknown
  let file : Option String ← ofValue (get "capture_as")
  file.forM fun f => captureElementwise f launch
  return ⟨← Host.callElementwise launch⟩

def elementwiseParts (overRange : Bool) : Host (KernelRef × List KernelArgument) := do
  let (k, params) ← Host.getElementwise e.index overRange
  return (⟨k⟩, params)

def makeElementwiseTemplate (arguments : Value) (operation name preamble : String) (processor : Option String) :
    Host Value := do
  return .elementwiseTemplate (← newTemplate)
    { arguments := ← argumentList arguments, operation, name, preamble, processor }

def fillingOf (aliases vars : Value) (morePreamble : String) (moreArguments : Value) (types : List Value)
    (options : Value) : Host Filling := do
  return {
    aliases := ← aliasesOf aliases, bindings := ← bindingsOf vars, morePreamble
    moreArguments := ← argumentList moreArguments, declaredTypes := ← types.mapM namedType
    options := ← optionTexts (match options with
      | .tuple xs => .list xs
      | v => v) }

def fillingKey (values : List Value) : Host String := do
  if values.any (fun v => !v.isKey) then bare .type
  describe (.tuple values)

def buildElementwiseTemplate (t : Value) (context : Context) (aliases vars : Value) (morePreamble : String)
    (moreArguments types options : Value) : Host Value := do
  match t with
  | .elementwiseTemplate i t =>
    let key ← fillingKey [aliases, vars, .text morePreamble, moreArguments, types, options]
    return .elementwise (← builtOnce i context key do
      fillElementwise context t (← fillingOf aliases vars morePreamble moreArguments (← ofValue types) options))
  | _ => bare .attribute

structure PlainType where
  type : ElementType

instance : OfValue PlainType := ⟨fun v => match v with
  | .type t => pure ⟨t⟩
  | _ => bare .attribute⟩

def standard (op : StandardOperation) (context : Context) : Host KernelRef := do
  return ⟨← standardKernel context op⟩

def standardOne (op : ElementType → StandardOperation) (context : Context) (t : PlainType) : Host KernelRef :=
  standard (op t.type) context

def standardTwo (op : ElementType → ElementType → StandardOperation) (context : Context) (a b : PlainType) :
    Host KernelRef := standard (op a.type b.type) context

def standardThree (op : ElementType → ElementType → ElementType → StandardOperation) (context : Context)
    (a b c : PlainType) : Host KernelRef := standard (op a.type b.type c.type) context

def scaleKernel (a x b z : PlainType) : Host KernelRef :=
  standard (.scale a.type x.type b.type z.type) context

def powerKernel (x y z : PlainType) (baseIsArray exponentIsArray : Bool) : Host KernelRef :=
  standard (.power x.type y.type z.type baseIsArray exponentIsArray) context

def unaryKernel (f : String) (input : ElementType) (output : Option ElementType) : Host KernelRef :=
  standard (.unaryFunction f input (output.getD input)) context

def complexTypeName (t : ElementType) : Host String := lift (complexName t)

def realTypeOf (t : PlainType) : ElementType := t.type.realPart

def besselKernel (kind : String) (output order : ElementType) (x : PlainType) : Host KernelRef :=
  standard (.bessel kind output order x.type) context

/-! ## Captured calls in a session -/

/-- The sizes of a captured call. -/
def captureSizes (countsGroups : Bool) : Host (String × String) := do
  if countsGroups then
    match globalSize, localSize with
    | .tuple gs, .tuple ls =>
      let dims := max gs.length ls.length
      let fill (xs : List Value) : List Value := xs ++ List.replicate (dims - xs.length) (.int 1)
      let products ← ((fill gs).zip (fill ls)).mapM fun (g, l) => do
        let g : Int ← ofValue g
        let l : Int ← ofValue l
        pure (Value.int (g * l))
      return (← describe (.tuple products), ← describe (.tuple (fill ls)))
    | _, _ => Host.bare .type
  else return (← describe globalSize, ← describe localSize)

def captureOf :
    Host Capture.Script := do
  let named ← pairsOf named
  let get := namedValue named
  Host.capture k.id q (args.map actualOf) (captureSizes globalSize localSize (get "g_times_l").truth)
    (← given describe (get "global_offset"))

def captureCall : Host Unit := do
  Host.saveCapture file (← captureOf k q globalSize localSize args named)

def showCapture :
    Host String := do
  let s ← captureOf k q globalSize localSize args named
  Host.saveCapture "captured.py" s
  let lines := s.lines fun name data => [name ++ " = " ++ Text.hex data]
  return String.intercalate "\n" ((lines.map Text.stripRight).filter fun l => !l.isEmpty)

/-! ## Operations of arrays in a session -/

def queueOr (given : Value) (own : Option Queue) : Host (Option Queue) :=
  match given with
  | .text "same" => pure own
  | v => ofValue v

def asynchronous (given : Value) (named : Value) : Host Bool := do
  let named ← pairsOf named
  let old := namedValue named "async"
  if !old.isNone && !given.isNone then refuse .type "may not specify both 'async' and 'async_'"
  let others := (named.map (·.1)).filter (· != "async")
  if !others.isEmpty then
    refuse .type ("extra keyword arguments specified: " ++ String.intercalate ", " others)
  return (if old.isNone then given else old).truth

def transferArray : Value → Host HostArray
  | .host h => pure h
  | .element e => HostArray.ofBytes e.type [] [] e.bytes
  | _ => bare .attribute

def setArray (source : Value) (queue : Option Queue) (async : Value) (named : Value) : Host Unit := do
  let later ← asynchronous async named
  Host.setArray a (← transferArray source) queue (!later)

def readArray :
    Host (HostArray × Option EventId) := do
  let later ← asynchronous async named
  Host.readArray a queue (← given transferArray target) (!later)

def getArray :
    Host HostArray := do
  if async.truth then
    warn .deprecation ("calling pyopencl.Array.get with `async_=True` is deprecated. Please use " ++
      "pyopencl.Array.get_async for asynchronous device-to-host transfers")
  return (← readArray a queue target async named).1

def getArrayLater : Host Value := do
  let (h, e) ← readArray a queue target (.bool true) named
  return .tuple [.host h, (e.map Value.event).getD .none]

def copyOf (queue : Value) : Host DeviceArray := do
  copyArray a (← queueOr queue a.queue)

def onQueue : Host DeviceArray := do
  require ((queue.map fun q => decide (q.context.id = a.context.id)).getD true)
  return a.withQueue queue

def launchSizes (limit : Option Nat) : Host Value := do
  return sizesValue (← splayArray a q limit)
where
  sizesValue (s : Splay) : Value :=
    .tuple [.tuple (s.range.globalSize.map .int), .tuple ((s.range.localSize.getD []).map .int)]

def splaySizes (n : Int) (limit : Option Nat) : Host Value := do
  return launchSizes.sizesValue (← splay q n limit)

def fillWith (wait : Events) : Host DeviceArray := do
  let v ← match v with
    | .array _ => bare .type
    | v => pure (actualOf v)
  fillArray a v queue wait.items
  return a

def zeroFillWith (wait : Events) : Host Unit := zeroFill a queue wait.items

def mulAddArrays (f other g : Value) (queue : Option Queue) : Host DeviceArray :=
  mulAdd a (actualOf f) (actualOf other) (actualOf g) queue

def reverseArray (_queue : Value) : Host DeviceArray := reverse a

def reshapeOrder : Value → Host Strides.Order
  | .text s =>
    if Text.contains "CF" s then pure (if s == "F" then .column else .row)
    else refuse .value "order must be either 'C' or 'F'"
  | _ => bare .type

def reshapeArray (shape : List Value) (named : Value) : Host DeviceArray := do
  let named ← pairsOf named
  let order := ((named.find? (fun e => e.1 == "order")).map (·.2)).getD (.text "C")
  let others := (named.map (·.1)).filter (· != "order")
  if !others.isEmpty then
    refuse .type ("unexpected keyword arguments: [" ++ String.intercalate ", " (others.map Text.quoted) ++ "]")
  let order ← reshapeOrder order
  let shape ← match shape with
    | [] => bare .index
    | .tuple xs :: _ | .list xs :: _ => pure xs
    | xs => pure xs
  lift (a.reshape order (← shape.mapM ofValue))

variable (indices : DeviceArray) (shape : Value) (out : Option (List DeviceArray)) (t : Option ElementType)

def reshapeTo : Host DeviceArray := reshapeArray a [shape] (.dict [])

def viewAs : Host DeviceArray := lift (a.reinterpret (t.getD a.type))

def transposeArray (axes : Option (List Int)) : Host DeviceArray :=
  match axes with
  | none => return a.transposed
  | some axes => lift (a.transpose axes)

def mapArray (flags : Option Int) (blocking : Bool) (wait : Events) :
    Host Value := do
  let q ← needQueue (queue <|> a.queue)
  let (h, e) ← mapBuffer q a.buffer
    { flags := flags.getD 3, offset := a.offset, shape := a.shape, type := a.type, strides := some a.strides }
    (wait.items ++ (← eventsOf a)) blocking
  return if blocking then .host h else .tuple [.host h, .event e]

def mapMemory (m : MemoryRef) (flags offset : Int) (shape : Value) (t : ElementType) (order : String)
    (strides : Option (List Int)) (wait : Events) (blocking : Bool) : Host Value := do
  let order ← arrayOrder order
  let (h, e) ← mapBuffer q m.id
    { flags, offset, shape := ← shapeOfValue shape, type := t, strides, order } wait.items blocking
  return .tuple [.host h, .event e]

def addEventTo (e : EventRef) : Host Unit := addEvent a e.id

def arrayPart (name : String) : Host Value := do
  let ints (xs : List Int) : Value := .tuple (xs.map .int)
  match name with
  | "shape" => return ints a.shape
  | "strides" => return ints a.strides
  | "dtype" => return .type a.type
  | "offset" => return .int a.offset
  | "size" => return .int a.size
  | "nbytes" => return .int a.nbytes
  | "ndim" => return .int a.shape.length
  | "data" => return .buffer (← lift a.data)
  | "base_data" => return .buffer a.buffer
  | "queue" => return (a.queue.map Value.queue).getD .none
  | "context" => return .context a.context
  | "events" => return .list ((← eventsOf a).map .event)
  | "flags" => return .contiguity a.contiguity
  | "allocator" => return (a.allocator.map (Value.allocator "DeferredAllocator")).getD .none
  | "T" => return .array a.transposed
  | "real" => return .array (← realPart a)
  | "imag" => return .array (← imaginaryPart a)
  | _ => bare .attribute

def contiguityPart (name : String) : Host Bool :=
  match v, name with
  | .contiguity c, "c_contiguous" => return c.rowMajor
  | .contiguity c, "f_contiguous" => return c.columnMajor
  | .contiguity c, "forc" => return c.any
  | _, _ => bare .attribute

def contiguityOf : List Bool := [a.contiguity.rowMajor, a.contiguity.columnMajor, a.contiguity.any]

def toDevice (q : Value) (source : Value) (allocator async arrayQueue named : Value) : Host DeviceArray := do
  let later ← asynchronous async named
  let h ← transferArray source
  if h.type == .object then refuse .runtime "to_device does not work on object arrays."
  match q, arrayQueue with
  | .queue q, .text "same" => Host.toDevice q h (← allocatorOf allocator) (!later) true
  | .queue q, _ => Host.toDevice q h (← allocatorOf allocator) (!later) false
  | v, .text "same" => do
    let (context, _) ← arrayHome v
    let result ← Host.newArray context none h.type h.shape h.strides (← allocatorOf allocator)
    Host.setArray result h none (!later)
    return result
  | _, _ => Host.bare .attribute

def emptyLike (queue allocator : Value) : Host DeviceArray := do
  let allocator ← allocatorOf allocator
  newArray a.context (← queueOr queue a.queue) a.type a.shape a.strides (allocator <|> a.allocator)

def newLike (queue : Option Queue) : Host DeviceArray :=
  Host.newLike a (t.getD a.type) queue

def restride (shape strides : Option (List Int)) : Host DeviceArray := do
  let _ ← arrayQueue a.queue
  let events ← newEventList []
  let buffer ← lift a.data
  return { a with shape := shape.getD a.shape, strides := strides.getD a.strides, buffer, offset := 0, events }

structure SpacedRequest where
  start : Value := .none
  stop : Value := .none
  step : Value := .none
  type : Value := .none
  allocator : Value := .none
  isTyped : Bool := false

def SpacedRequest.ofPositions (args : List Value) : Host SpacedRequest := do
  let (args, type) ← match args.getLast? with
    | none => bare .index
    | some (.type t) => pure (args.dropLast, Value.type t)
    | some _ => pure (args, .none)
  let isTyped := !type.isNone
  match args with
  | [] => refuse .value "stop argument required"
  | [stop] => return { stop, type, isTyped }
  | [start, stop] => return { start, stop, type, isTyped }
  | [start, stop, step] => return { start, stop, step, type, isTyped }
  | _ => refuse .value "too many arguments"

def SpacedRequest.set (r : SpacedRequest) (name : String) (v : Value) : Host SpacedRequest := do
  let once (old : Value) (new : SpacedRequest) : Host SpacedRequest :=
    if old.isNone then pure new
    else refuse .value ("may not specify '" ++ name ++ "' by position and keyword")
  match name with
  | "start" => once r.start { r with start := v }
  | "stop" => once r.stop { r with stop := v }
  | "step" => once r.step { r with step := v }
  | "dtype" => once r.type { r with type := v, isTyped := true }
  | "allocator" => once r.allocator { r with allocator := v }
  | _ => refuse .value ("unexpected keyword argument '" ++ name ++ "'")

def numberOf (p : Primitive) (v : Value) : Host Element := do
  lift (p.ofOperand (← need .type v.operand?))

def spacedNumbers (queue : Value) (args : List Value) (named : Value) : Host DeviceArray := do
  let r ← (← pairsOf named).foldlM (fun r (n, v) => r.set n v) (← SpacedRequest.ofPositions args)
  if !r.isTyped then refuse .type "arange requires a dtype argument"
  let t : ElementType ← ofValue r.type
  match t with
  | .number p =>
    let start ← numberOf p (if r.start.isNone then .int 0 else r.start)
    let step ← numberOf p (if r.step.isNone then .int 1 else r.step)
    let stop ← numberOf p r.stop
    let count ← lift (p.stepCount start stop step)
    match queue with
    | .queue q => spaced q t count (.element start) (.element step) (← allocatorOf r.allocator)
    | v => do
      let _ ← arrayHome v
      bare .attribute
  | _ => bare .type

def takeArray (a indices : DeviceArray) (out : Option DeviceArray) (queue : Option Queue) (wait : Events) :
    Host DeviceArray := takeElements a indices out queue wait.items

def takeFromAll
    (_queue : Value) : Host (List DeviceArray) := do
  if arrays.isEmpty then return []
  require (indices.shape.length == 1)
  let t ← typeOfAll arrays
  match out with
  | none => bare .type
  | some out =>
    if out.length != arrays.length then refuse .value "out and arrays must have the same length"
    let _ ← standardKernel indices.context (.take t indices.type (min arrays.length Gather.mostArrays))
    bare .attribute

def takePutAll (targetIndices sourceIndices : DeviceArray) (shape : Value)
    (out : Option (List DeviceArray)) (queue : Option Queue) (offsets : Option (List Value)) :
    Host (List DeviceArray) := do
  Host.takePut { arrays, targetIndices, sourceIndices, targetShape := ← given shapeOfValue shape, out, queue
                 sourceOffsets := offsets.map (·.map actualOf) }

def putAllAt
    (queue : Option Queue) (wait : Events) : Host (List DeviceArray) := do
  putAll { arrays, indices, shape := ← given shapeOfValue shape, out, queue, wait := wait.items }

def joinArrays (axis : Int) (_queue _allocator : Value) : Host Value := do
  let _ ← lift (Join.shape axis (arrays.map (·.shape)))
  bare .attribute

def differences (allocator : Value) : Host DeviceArray := do
  neighbourDifferences a queue (← allocatorOf allocator)

def extremesOf (choose : DeviceArray → DeviceArray → Option DeviceArray → Option Queue → Host DeviceArray)
    (a : DeviceArray) (b : Value) (out : Option DeviceArray) (queue : Option Queue) : Host DeviceArray := do
  match b with
  | .array b => choose a b out queue
  | v => difference a (actualOf v) queue

/-! ## Operators in a session -/

def arrayOperator (forward backward : DeviceArray → Actual → Host DeviceArray) (a b : Value) : Host DeviceArray :=
  match a, b with
  | .array x, b => forward x (actualOf b)
  | a, .array y => backward y (actualOf a)
  | _, _ => bare .type

def ownOperator (f : DeviceArray → Host DeviceArray) (a : Value) : Host DeviceArray :=
  match a with
  | .array x => f x
  | _ => bare .type

def arrayMethod (f : DeviceArray → Actual → Host DeviceArray) (a b : Value) : Host DeviceArray :=
  match a with
  | .array x => f x (actualOf b)
  | _ => bare .attribute

def compareValues (c : Comparison) (a b : Value) : Host Value :=
  match a, b with
  | .array x, b => do return .array (← compare c x (actualOf b))
  | a, .array y => do return .array (← compare c.swapped y (actualOf a))
  | .program p, .program q =>
    match c with
    -- Two programs differ if they are the same.
    | .equal | .different => do return .bool (← samePrograms ⟨p⟩ ⟨q⟩)
    | _ => bare .type
  | a, b =>
    match c with
    | .equal => return .bool (a.equals b)
    | .different => return .bool (!a.equals b)
    | _ =>
      match a.quantity?, b.quantity? with
      | some (.int m), some (.int n) => return .bool (match c with
        | .less => decide (m < n)
        | .atMost => decide (m ≤ n)
        | .greater => decide (n < m)
        | _ => decide (n ≤ m))
      | _, _ => bare .type

def lengthOf : Host Int :=
  match v with
  | .array a => firstExtent a
  | .text s => return s.length
  | .bytes b => return b.length
  | .dict es => return es.length
  | .host h => match h.shape with
    | n :: _ => return n
    | [] => bare .type
  | v => do return (← need .type v.items?).length

def elementTruth (h : HostArray) : Host Bool := do
  match ← h.elements with
  | [e] => return (e.quantity?.map (·.isTrue)).getD (e.bytes.any (· != 0))
  | _ => bare .value

def truthOf : Host Bool :=
  match v with
  | .array a =>
    if a.shape.isEmpty then do
      elementTruth (← Host.getArray a none)
    else Host.refuse .value ("The truth value of an array with more than one element is ambiguous. " ++
      "Use a.any() or a.all()")
  | .host h => elementTruth h
  | v => return v.truth

def listOf : Host (List Value) :=
  match v with
  | .array a =>
    match a.shape with
    | [] => return []
    | n :: _ => (List.range n.toNat).mapM fun (i : Nat) => do
      return .array (← lift (a.index [.position i]))
  | .text s => return s.toList.map fun c => .text (String.singleton c)
  | .bytes b => return b.map fun (x : UInt8) => .int x.toNat
  | .dict es => return es.map (·.1)
  | v => need .type v.items?

def hashOf : Host Int :=
  match v with
  | .array _ => refuse .type "pyopencl arrays are not hashable."
  | v => do
    let n ← need .type v.int?
    let h : Int := n.natAbs % (Int.pow 2 61 - 1)
    let h := if n < 0 then -h else h
    return if h == -1 then -2 else h

end ClHost.Session
