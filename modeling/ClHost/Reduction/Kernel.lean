import ClHost.Elementwise.Build

/-!
# Reductions

Building and calling reductions, and those of the library: sums, products of two arrays, least and greatest elements, and
whether any or all elements are true.
-/

namespace ClHost

namespace Host

open Reduction KernelArgument

def reductionGroupSize (typeSize : Nat) (d : DeviceRef) : Host Nat := do
  let i ← deviceInfo d
  let limit := if Text.contains i.name "RV770" then 64 else i.maxWorkGroupSize
  if typeSize == 0 then bare .zeroDivision
  return deviceGroupSize limit typeSize

variable (context : Context) (phase : ReductionPhase) (c : ReductionCode)

/-- The arguments of a kernel of a reduction. -/
def reductionArguments : Host (Option (List KernelArgument)) := do
  match phase, c.arguments with
  | _, none => return none
  | .mapping, some a => return some (← lift (a.read (← registry) true))
  | .folding, some a => return some (.vector c.type inputName false :: (← lift (a.read (← registry) false)))

def buildReductionStage (map : Option String)
    (limit : Option Nat) : Host ReductionStage := do
  let args? ← reductionArguments phase c
  let offsets ← match phase, args? with
    | .mapping, some args => do lift (offsetCode (← registry) args)
    | _, _ => pure ""
  let typeName ← typeName c.type
  let sizes ← context.devices.mapM (reductionGroupSize c.type.size)
  let size ← match sizes with
    | [] => bare .value
    | s :: rest => pure (rest.foldl min s)
  let size := match limit with
    | some l => min l size
    | none => size
  let args ← match args? with
    | some args => pure args
    | none => bare .type
  let r ← registry
  let parameters ← lift (args.mapM (parameters r))
  let reduceMacro ← lift (Source.macroBody c.reduce)
  let mapMacro ← lift (Source.macroBody (map.getD (defaultMap phase)))
  let doubles ← context.devices.mapM hasDouble
  let rounds ← match halvings size with
    | some rounds => pure rounds
    | none => bare .assertion
  let name := c.name ++ (match phase with | .mapping => "_stage1" | .folding => "_stage2")
  let source := SourceParts.text {
    typeName, groupSize := size, rounds, neutral := c.neutral, reduceMacro, mapMacro, name
    preamble := c.preamble, parameters := parameters.flatten, offsets, hasDouble := doubles.all id }
  let p ← newProgram context source
  build p c.options none .standard
  let k ← programKernel p name
  declareTypes k (passedOf leadingParameters ++ (← lift (passedTypes args)) ++
    passedOf rangeParameters ++ passedOf countParameters)
  return ⟨size, k, args, source⟩

/-- Builds the first kernel of a reduction at a size that it can be launched with. -/
def buildFirstStage (context : Context) (c : ReductionCode) : Nat → Option Nat → Host (ReductionStage × Option Nat)
  | tries, limit => do
    let stage ← buildReductionStage context .mapping c c.map limit
    let allowed ← match context.devices with
      | d :: _ => groupLimit stage.kernel d
      | [] => bare .index
    if stage.groupSize ≤ allowed then return (stage, limit)
    match tries with
    | 0 => bare .assertion
    | tries + 1 => buildFirstStage context c tries (some allowed)

def sizeAttempts : Nat := 2

def newReduction (k : ReductionKernel) : Host Nat := do
  let w ← get
  set { w with reductions := w.reductions.push k }
  return w.reductions.size

def buildReduction : Host Nat := do
  let (first, limit) ← buildFirstStage context c sizeAttempts none
  let second ← buildReductionStage context .folding c none limit
  newReduction { type := c.type, first, second }

def reduction (i : Nat) : Host ReductionKernel := do
  return ((← get).reductions)[i]?.getD default

structure ReductionCall where
  queue : Option Queue := none
  allocator : Option Allocator := none
  wait : List EventId := []
  target : Option DeviceArray := none
  selection : List ElementSelection := []

def reductionRange (first : Option DeviceArray) (selection : List ElementSelection) : Result IndexRange :=
  let ofSlice (start stop step : Option Int) : Result IndexRange :=
    match first with
    | none => .error (.told .type "must have vector argument when range is not specified")
    | some a => IndexRange.ofSlice start stop step a.size
  match selection with
  | [] | [.all] => ofSlice none none none
  | [.slice start stop step] => ofSlice start stop step
  | [.range start stop step] =>
    match stop with
    | some stop => .ok ⟨start.getD 0, stop, step.getD 1⟩
    | none => .error (.bare .type)
  | _ => .error (.told .type "may not specify both range and slice keyword arguments")

def reductionQueue (given : Option Queue) (first : Option DeviceArray) : Result (Option Queue) :=
  match given, first with
  | some q, _ => .ok (some q)
  | none, some a => .ok a.queue
  | none, none => .error (.told .type "must specify queue argument when no vector argument present")

variable (type : ElementType)

def reductionResult (groups : Int) (target : Option DeviceArray) (queue : Option Queue)
    (allocator : Option Allocator) : Host DeviceArray :=
  match groups == 1, target with
  | true, some out => pure out
  | isLast, _ => do newRows (← arrayQueue queue) type (if isLast then [] else [groups]) allocator

structure ReductionLaunch where
  queue : Queue
  result : DeviceArray
  groups : Int
  args : List Actual
  wait : List EventId

variable (stage : ReductionStage) (args : List Actual)

def prepareReduction (c : ReductionCall) :
    Host ReductionLaunch := do
  let passed ← passArguments "ReductionKernel cannot deal with non-contiguous arrays" c.wait stage.arguments args
  let range ← lift (reductionRange passed.first c.selection)
  let n ← lift range.extent
  let queue? ← lift (reductionQueue c.queue passed.first)
  let share ← lift (deal stage.groupSize n)
  let result ← reductionResult type share.groups c.target queue? (c.allocator <|> (passed.first.bind (·.allocator)))
  let q ← needQueue queue?
  let sizes := [range.start, range.step, range.stop, share.rounds, n].map fun n => Actual.literal (.int n)
  let args := [.buffer result.buffer, .literal (.int result.offset)] ++ passed.values ++ sizes
  return { queue := q, result, groups := share.groups, args, wait := passed.wait }

def launchReduction (c : ReductionCall) :
    Host (DeviceArray × EventId × Int) := do
  let l ← prepareReduction type stage args c
  let e ← call l.queue stage.kernel
    { globalSize := [l.groups * stage.groupSize], localSize := some [(stage.groupSize : Int)] } l.args l.wait
  addEvent l.result e
  return (l.result, e, l.groups)

def foldReduction (k : ReductionKernel) (args : List Actual) (c : ReductionCall) :
    Nat → DeviceArray × EventId × Int → Host (DeviceArray × EventId)
  | 0, (result, e, _) => return (result, e)
  | fuel + 1, (result, e, groups) => do
    if groups == 1 then return (result, e)
    foldReduction k args c fuel
      (← launchReduction k.type k.second (.array result :: args)
        { c with allocator := c.allocator, wait := [e], selection := [] })

def callReduction (i : Nat) (args : List Actual) (c : ReductionCall) : Host (DeviceArray × EventId) := do
  let k ← reduction i
  let start ← launchReduction k.type k.first args c
  foldReduction k args c start.2.2.toNat start

end Host

/-! ## The reductions of the library -/

open Reduction

namespace Extreme

def name : Extreme → String
  | least => "min"
  | greatest => "max"

def ofName? : String → Option Extreme
  | "min" => some least
  | "max" => some greatest
  | _ => none

/-- The value that no element of a type is beyond. -/
def neutral (what : String) (t : ElementType) : Result String :=
  let unknown : Fault := .told .value "what is not min or max."
  if t.kind == .real || t.isComplex then
    match ofName? what with
    | some .least => .ok "MY_INFINITY"
    | some .greatest => .ok "-MY_INFINITY"
    | none => .error unknown
  else
    match ofName? what, t with
    | none, _ => .error unknown
    | some w, .number p =>
      if p == .bool then .error (.bare .value)
      else .ok (toString (match w with
        | .least => p.greatest
        | .greatest => p.least))
    | some _, _ => .error (.bare .value)

def compare (w : Extreme) (t : ElementType) : Result String :=
  match t.kind with
  | .real => .ok ("f" ++ w.name ++ "(a,b)")
  | .signed | .unsigned => .ok (w.name ++ "(a,b)")
  | _ => .error (.told .type "unsupported dtype specified")

end Extreme

namespace Reduction

def infinityLine : String := "#define MY_INFINITY (1./0)"

def sumParts (t : ElementType) : Result (String × String) := do
  if t.isComplex then
    let root ← complexName t
    return (root ++ "_add(a, b)", root ++ "_new(0, 0)")
  return ("a+b", "0")

def product (output a b : ElementType) (conjugates : Bool) (index : String) : Result String := do
  let ai := "a[" ++ index ++ "]"
  let bi := "b[" ++ index ++ "]"
  let ai ← StandardOperation.castIf (a.isComplex && !a.same output) output ai
  let bi ← StandardOperation.castIf (b.isComplex && !b.same output) output bi
  let ai ← if a.isComplex && conjugates then StandardOperation.complexCall output "conj" [ai] else .ok ai
  match a.isComplex, b.isComplex with
  | true, false => StandardOperation.complexCall output "mulr" [ai, bi]
  | false, true => StandardOperation.complexCall output "rmul" [ai, bi]
  | true, true => StandardOperation.complexCall output "mul" [ai, bi]
  | false, false => .ok (ai ++ "*" ++ bi)

/-- The types of a sum of products and of its two factors: the second factor is like the first one unless it
is given, and the sum has their common type. -/
def productTypes (output a b : Option ElementType) (allowDouble : Bool) :
    Result (ElementType × ElementType × ElementType) :=
  match a with
  | none => .error (.bare .attribute)
  | some a => do
    let b := b.getD a
    let output ← match output with
      | some t => .ok t
      | none => do pure (commonType allowDouble (← a.promote b))
    return (output, a, b)

def readPointer (typeName name : String) : String := "const " ++ typeName ++ " *" ++ name

end Reduction

namespace StandardReduction

def code (r : TypeRegistry) (allowDouble : Bool) : StandardReduction → Result ReductionCode
  | any t => .ok {
      type := .number .int8, neutral := "false", reduce := "a || b", map := some "(bool) (in[i])"
      arguments := some (.items [.inr (.vector t "in" false)]) }
  | all t => .ok {
      type := .number .int8, neutral := "true", reduce := "a && b", map := some "(bool) (in[i])"
      arguments := some (.items [.inr (.vector t "in" false)]) }
  | sum output input => do
    let output := output.getD input
    let (reduce, neutral) ← sumParts output
    return { type := output, neutral, reduce, arguments := some (.text (readPointer (← r.typeName input) "in")) }
  | dot output a b conjugates => do
    let (output, a, b) ← productTypes output a b allowDouble
    let map ← product output a b conjugates "i"
    let (reduce, neutral) ← sumParts output
    let ta ← r.typeName a
    let tb ← r.typeName b
    return { type := output, neutral, reduce, map := some map,
             arguments := some (.text (readPointer ta "a" ++ ", " ++ readPointer tb "b")) }
  | subsetDot subset output a b conjugates => do
    let (output, a, b) ← productTypes output a b allowDouble
    let map ← product output a b conjugates "lookup_tbl[i]"
    let ts ← r.typeName subset
    let ta ← r.typeName a
    let tb ← r.typeName b
    return { type := output, neutral := "0", reduce := "a+b", map := some map,
             arguments := some (.text (readPointer ts "lookup_tbl" ++ ", " ++
               readPointer ta "a" ++ ", " ++ readPointer tb "b")) }
  | extreme which t => do
    let reduce ← which.compare t
    let neutral ← Extreme.neutral which.name t
    return { type := t, neutral, reduce, preamble := infinityLine,
             arguments := some (.text (readPointer (← r.typeName t) "in")) }
  | subsetExtreme which t subset => do
    let reduce ← which.compare t
    let neutral ← Extreme.neutral which.name t
    let tt ← r.typeName t
    let ts ← r.typeName subset
    return { type := t, neutral, reduce, map := some "in[lookup_tbl[i]]", preamble := infinityLine,
             arguments := some (.text (readPointer ts "lookup_tbl" ++ ", " ++ readPointer tt "in")) }

end StandardReduction

structure ReductionTemplate where
  arguments : Template.ArgumentList
  neutral : String
  reduce : String
  map : Option String := none
  name : String := "reduce"
  preamble : String := ""
  processor : Option String := none

namespace Host

def standardReduction (context : Context) (op : StandardReduction) : Host Nat := do
  match (← get).standardReductions.find? (fun e => e.1 == (context.id, op)) with
  | some (_, i) => return i
  | none =>
    let allowDouble ← hasDouble (← firstDevice context)
    let i ← buildReduction context (← lift (op.code (← registry) allowDouble))
    modify fun w => { w with standardReductions := w.standardReductions ++ [((context.id, op), i)] }
    return i

def fillReduction (context : Context) (t : ReductionTemplate) (f : Filling) : Host Nat := do
  let r ← lift (Template.Renderer.make t.processor f.aliases f.bindings)
  let args ← lift (r.arguments (← registry) false [t.arguments, f.moreArguments])
  let declarations ← r.preamble (← firstDevice context) f.declaredTypes args
  let type ← match f.aliases.find? (fun e => e.1 == "reduction_t") with
    | some (_, t) => pure t
    | none => bare .key
  let neutral ← lift (r.render t.neutral)
  let reduce ← lift (r.render t.reduce)
  let map ← t.map.mapM fun m => lift (r.render m)
  let name ← lift (r.render t.name)
  let preamble ← lift (r.render (t.preamble ++ "\n" ++ f.morePreamble))
  buildReduction context {
    type, neutral, reduce, map, arguments := some (.items (args.map .inr)), name, options := f.options
    preamble := declarations ++ "\n" ++ preamble }

end Host

end ClHost
