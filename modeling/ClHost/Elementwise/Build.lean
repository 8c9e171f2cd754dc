import ClHost.Template.Renderer

/-!
# Building and calling elementwise kernels

An elementwise operation is built when it is first called, once for all elements of arrays and once for ranges.
-/

namespace ClHost

open KernelArgument

def earlyReturnWarning : String :=
  "Using a 'return' statement in an element-wise operation will likely lead to incorrect results. Use " ++
    "PYOPENCL_ELWISE_CONTINUE instead."

namespace Host

def typesOf (args : List KernelArgument) : Host (List ElementType) :=
  args.mapM fun a => match a.type? with
    | some t => pure t
    | none => bare .attribute

variable (i : Nat) (refusal : String) (context : Context) (c : ElementwiseCode)

def buildElementwise (overRange : Bool) :
    Host (KernelId × List KernelArgument) := do
  let args ← lift (c.arguments.read (← registry) true)
  let enabled ← if c.autoPreamble then do pure (ElementwiseCode.extensions (← typesOf args)) else pure ""
  let params := args ++ ElementwiseCode.indexParameters overRange
  let offsets ← lift (offsetCode (← registry) params)
  if c.hasUnknownSetting then bare .type
  if c.returnsEarly then warn .user earlyReturnWarning
  let r ← registry
  let texts ← lift (params.mapM (declarator r))
  let p ← newProgram context (c.source overRange (enabled ++ c.preamble) (offsets ++ c.loopPrep) texts)
  build p c.options none .standard
  let k ← programKernel p c.name
  declareTypes k (← lift (passedTypes params))
  return (k, params)

def elementwiseKernel : Host KernelId := do
  return (← buildElementwise context c false).1

def newElementwise (k : ElementwiseKernel) : Host Nat := do
  let w ← get
  set { w with elementwise := w.elementwise.push k }
  return w.elementwise.size

def noOffsetWarning (name : String) : String :=
  "ElementwiseKernel '" ++ name ++ "' used with VectorArgs that do not have offset support enabled. " ++
    "This usage is deprecated. Just pass with_offset=True to VectorArg, everything should " ++
    "sort itself out automatically."

def getElementwise (overRange : Bool) : Host (KernelId × List KernelArgument) := do
  let w ← get
  if let some (_, built) := w.elementwiseBuilds.find? (fun e => e.1 == (i, overRange)) then return built
  let e := (w.elementwise[i]?).getD default
  let (k, params) ← buildElementwise e.context e.code overRange
  for p in params do
    if p.isVector && !p.hasOffset then warn .deprecation (noOffsetWarning e.code.name)
  if !params.any isVector then
    refuse .runtime ("ElementwiseKernel can only be used with functions that have at least one " ++ "vector argument")
  modify fun w => { w with elementwiseBuilds := w.elementwiseBuilds ++ [((i, overRange), (k, params))] }
  return (k, params)

structure PassedArguments where
  values : List Actual := []
  first : Option DeviceArray := none
  wait : List EventId := []

def passArgument (p : PassedArguments) (param : KernelArgument) (v : Actual) :
    Host PassedArguments := do
  match param, v with
  | .vector _ _ withOffset, .array a =>
    if !a.contiguity.any then refuse .runtime refusal
    return {
      values := p.values ++ [.buffer a.buffer] ++ (if withOffset then [.literal (.int a.offset)] else [])
      first := p.first <|> some a
      wait := p.wait ++ (← eventsOf a) }
  | .vector _ _ _, .host h => if h.isContiguous then bare .attribute else refuse .runtime refusal
  | .vector _ _ _, _ => bare .attribute
  | _, v => return { p with values := p.values ++ [v] }

def passArguments (wait : List EventId) (params : List KernelArgument) (args : List Actual) :
    Host PassedArguments := (params.zip args).foldlM (fun p (param, v) => passArgument refusal p param v) { wait }

inductive ElementSelection where
  | all
  | range (start stop step : Option Int)
  | slice (start stop step : Option Int)
deriving DecidableEq

structure ElementwiseLaunch where
  kernel : KernelId
  queue : Queue
  splay : Splay
  args : List Actual
  wait : List EventId

def elementwiseQueue (queue : Option Queue) (first : Option DeviceArray) : Host (Option Queue) :=
  match queue, first with
  | some q, _ => pure (some q)
  | none, some a => pure a.queue
  | none, none => bare .attribute

def chosenElements (selection : List ElementSelection) (first : Option DeviceArray) :
    Host (Option (Int × Option Int × Int)) :=
  match selection, first with
  | [], _ => pure none
  | [.slice _ _ _], none => bare .attribute
  | [.slice start stop step], some a => do
    let r ← lift (IndexRange.ofSlice start stop step a.size)
    pure (some (r.start, some r.stop, r.step))
  | [.range start stop step], _ => pure (some (start.getD 0, stop, step.getD 1))
  | _, _ => refuse .type "may not specify both range and slice keyword arguments"

def prepareLaunch (k : KernelId) (params : List KernelArgument) (args : List Actual) (queue : Option Queue)
    (selection : List ElementSelection) (wait : List EventId) (unknown : List String) : Host ElementwiseLaunch := do
  let passed ← passArguments "ElementwiseKernel cannot deal with non-contiguous arrays" wait params args
  if !unknown.isEmpty then refuse .type ("unknown keyword arguments: '" ++ String.intercalate ", " unknown ++ "'")
  let queue? ← elementwiseQueue queue passed.first
  let chosen ← chosenElements selection passed.first
  let q ← needQueue queue?
  let limit ← groupLimit k q.device
  match chosen, passed.first with
  | some (start, some stop, step), _ =>
    let extent ← lift (IndexRange.extent ⟨start, stop, step⟩)
    let args := passed.values ++ [start, stop, step].map fun n => .literal (.int n)
    return { kernel := k, queue := q, splay := ← splay q extent (some limit), args, wait := passed.wait }
  | some (_, none, _), _ => bare .type
  | none, some a =>
    let args := passed.values ++ [.literal (.int a.size)]
    return { kernel := k, queue := q, splay := ← splayArray a q (some limit), args, wait := passed.wait }
  | none, none => bare .attribute

def prepareElementwise (args : List Actual) (queue : Option Queue) (selection : List ElementSelection)
    (wait : List EventId) (unknown : List String) : Host ElementwiseLaunch := do
  let (k, params) ← getElementwise i !selection.isEmpty
  prepareLaunch k params args queue selection wait unknown

def callElementwise (l : ElementwiseLaunch) : Host EventId := do
  setArguments l.kernel l.args
  launch l.queue l.kernel l.splay.range l.wait

inductive ArrayOperand where
  | array (a : DeviceArray)
  | value (v : Actual)

def operandValues : ArrayOperand → List Actual
  | .array a => [.buffer a.buffer, .literal (.int a.offset)]
  | .value v => [v]

def runElementwise (kernel : Host KernelId) (target : DeviceArray) (operands : List ArrayOperand)
    (queue : Option Queue) (wait : List EventId) : Host EventId := do
  let queue := queue <|> target.queue
  let k ← kernel
  let q ← needQueue queue
  let limit ← groupLimit k q.device
  let s ← splayArray target q (some limit)
  let all := .array target :: operands
  let waits ← all.mapM fun o => match o with
    | .array a => do
      if !a.contiguity.any then
        refuse .runtime "only contiguous arrays may be used as arguments to this operation"
      eventsOf a
    | .value _ => pure []
  let args := all.flatMap operandValues ++ [.literal (.int target.size)]
  call q k s.range args (wait ++ waits.flatten)

end Host

/-! ## Templates of elementwise operations -/

open Template

structure Filling where
  aliases : List (String × ElementType) := []
  bindings : Bindings := []
  morePreamble : String := ""
  moreArguments : ArgumentList := .entries []
  declaredTypes : List (String ⊕ ElementType) := []
  options : List String := []

structure ElementwiseTemplate where
  arguments : ArgumentList
  operation : String
  name : String := "elwise"
  preamble : String := ""
  processor : Option String := none

namespace Host

def newTemplate : Host Nat := do
  let w ← get
  set { w with templates := w.templates + 1 }
  return w.templates

def builtOnce (template : Nat) (context : Context) (filling : String) (body : Host Nat) : Host Nat := do
  match (← get).templateBuilds.find? (fun e => e.1 == (template, context.id, filling)) with
  | some (_, i) => return i
  | none =>
    let i ← body
    modify fun w => { w with templateBuilds := w.templateBuilds ++ [((template, context.id, filling), i)] }
    return i

def firstDevice (c : Context) : Host DeviceRef :=
  match c.devices with
  | d :: _ => pure d
  | [] => bare .index

def fillElementwise (context : Context) (t : ElementwiseTemplate) (f : Filling) : Host Nat := do
  let r ← lift (Renderer.make t.processor f.aliases f.bindings)
  let args ← lift (r.arguments (← registry) true [t.arguments, f.moreArguments])
  let declarations ← r.preamble (← firstDevice context) f.declaredTypes args
  let operation ← lift (r.render t.operation)
  let name ← lift (r.render t.name)
  let preamble ← lift (r.render (t.preamble ++ "\n" ++ f.morePreamble))
  newElementwise {
    context
    code := {
      arguments := .items (args.map .inr), operation, name, options := f.options
      preamble := declarations ++ "\n" ++ preamble
      autoPreamble := false } }

end Host

/-! ## The elementwise kernels of the library -/

open String

def complexName (t : ElementType) : Result String :=
  if t == .number .complex128 then .ok "cdouble"
  else if t == .number .complex64 then .ok "cfloat"
  else .error (.told .runtime "invalid complex type")

def doublePreamble (margin : Nat) (more : List String) : String :=
  let indent := ofList (List.replicate margin ' ')
  Declarations.doubleLines indent ++ join (more.map fun l => "\n" ++ indent ++ l) ++ "\n" ++ indent

namespace StandardOperation

def complexCall (root : ElementType) (function : String) (operands : List String) : Result String := do
  return (← complexName root) ++ "_" ++ function ++ "(" ++ intercalate ", " operands ++ ")"

def cast (root : ElementType) (operand : String) : Result String := complexCall root "cast" [operand]

def castIf (condition : Bool) (root : ElementType) (operand : String) : Result String :=
  if condition then cast root operand else .ok operand

def pointer (t : ElementType) (name : String) : String ⊕ KernelArgument := .inr (.vector t name true)

def scalar (t : ElementType) (name : String) : String ⊕ KernelArgument := .inr (.scalar t name)

def withItems (items : List (String ⊕ KernelArgument)) (operation name : String) : ElementwiseCode :=
  { arguments := .items items, operation, name }

def withText (arguments operation name : String) : ElementwiseCode := { arguments := .text arguments, operation, name }

variable (r : TypeRegistry) (t index : ElementType) (x y z : ElementType)

def copyCode (target source : ElementType) : Result ElementwiseCode := do
  let src ← if target.isComplex && !source.isComplex then complexCall target "fromreal" ["src[i]"]
    else .ok "src[i]"
  let src ← castIf (target.isComplex && !source.same target) target src
  if !target.same source && (target.kind == .void || source.kind == .void) then
    .error (.told .type "copying between non-identical struct types")
  let t ← r.typeName target
  let s ← r.typeName source
  return withText (t ++ " *dest, " ++ s ++ " *src") ("dest[i] = " ++ src) "copy"

def combineCode : Result ElementwiseCode := do
  let ax ← if x.isComplex then complexCall x "mul" ["a", "x[i]"] else .ok "a*x[i]"
  let by_ ← if y.isComplex then complexCall y "mul" ["b", "y[i]"] else .ok "b*y[i]"
  let by_ ← if x.isComplex && !y.isComplex then complexCall x "fromreal" [by_] else .ok by_
  let ax ← if !x.isComplex && y.isComplex then complexCall y "fromreal" [ax] else .ok ax
  let result ← if x.isComplex || y.isComplex then do
      complexCall z "add" [← cast z ax, ← cast z by_]
    else .ok (ax ++ " + " ++ by_)
  let tx ← r.typeName x
  let ty ← r.typeName y
  let tz ← r.typeName z
  return withText (tz ++ " *z, " ++ tx ++ " a, " ++ tx ++ " *x, " ++ ty ++ " b, " ++ ty ++ " *y")
    ("z[i] = " ++ result) "axpbyz"

def scaleCode (a x b z : ElementType) : Result ElementwiseCode := do
  let product ←
    if x.isComplex then do
      let xi ← castIf (!x.same z) z "x[i]"
      if a.isComplex then complexCall z "mul" [← castIf (!a.same z) z "a", xi]
      else complexCall z "rmul" ["a", xi]
    else if a.isComplex then do complexCall z "mulr" [← castIf (!a.same z) z "a", "x[i]"]
    else .ok "a*x[i]"
  let term ← if z.isComplex && !b.isComplex then complexCall z "fromreal" ["b"] else .ok "b"
  let product ←
    if z.isComplex && !(a.isComplex || x.isComplex) then complexCall z "fromreal" [product] else .ok product
  let product ← castIf z.isComplex z product
  let term ← castIf z.isComplex z term
  let result ←
    if a.isComplex || x.isComplex || b.isComplex then complexCall z "add" [product, term]
    else .ok (product ++ " + " ++ term)
  let ta ← r.typeName a
  let tx ← r.typeName x
  let tb ← r.typeName b
  let tz ← r.typeName z
  return withText (tz ++ " *z, " ++ ta ++ " a, " ++ tx ++ " *x," ++ tb ++ " b") ("z[i] = " ++ result) "axpb"

def binaryArguments (xName yName : String) : Result String := do
  let tx ← r.typeName x
  let ty ← r.typeName y
  let tz ← r.typeName z
  return tz ++ " *z, " ++ tx ++ " " ++ xName ++ ", " ++ ty ++ " " ++ yName

/-- A function that has forms for complex numbers on both sides, on the left and on the right. -/
def mixedCall (z : ElementType) (both left right : String) (x y : ElementType) (xi yi plain : String) : Result String :=
  match x.isComplex, y.isComplex with
  | true, true => complexCall z both [xi, yi]
  | true, false => complexCall z left [xi, yi]
  | false, true => complexCall z right [xi, yi]
  | false, false => .ok plain

def multiplyCode : Result ElementwiseCode := do
  let xi ← castIf (x.isComplex && !x.same z) z "x[i]"
  let yi ← castIf (y.isComplex && !y.same z) z "y[i]"
  let result ← mixedCall z "mul" "mulr" "rmul" x y xi yi (xi ++ " * " ++ yi)
  return withText (← binaryArguments r x y z "*x" "*y") ("z[i] = " ++ result) "multiply"

def castOperands (xi yi : String) : Result (String × String) :=
  if z.isComplex && !x.same y then do
    return (← castIf (x.isComplex && !x.same z) z xi, ← castIf (y.isComplex && !y.same z) z yi)
  else .ok (xi, yi)

def divideCall (z x y : ElementType) (xi yi : String) : Result String :=
  mixedCall z "divide" "divider" "rdivide" x y xi yi (xi ++ " / " ++ yi)

def divideCode : Result ElementwiseCode := do
  let (xi, yi) ← castOperands x y z "x[i]" "y[i]"
  let result ← divideCall z x y xi yi
  let result ← castIf z.isComplex z result
  return withText (← binaryArguments r x y z "*x" "*y") ("z[i] = " ++ result) "divide"

def divideIntoCode : Result ElementwiseCode := do
  let (xi, yi) ← castOperands x y z "x[i]" "y"
  let result ← divideCall z y x yi xi
  return withText (← binaryArguments r x y z "*x" "y") ("z[i] = " ++ result) "divide_r"

def powerCode (baseIsArray exponentIsArray : Bool) :
    Result ElementwiseCode := do
  let xi := if baseIsArray then "x[i]" else "x"
  let yi := if exponentIsArray then "y[i]" else "y"
  let plainCast (t : ElementType) (s : String) : Result String :=
    if t.same z then .ok s else do return "(" ++ (← r.typeName z) ++ ") (" ++ s ++ ")"
  let (xi, yi) ←
    if z.isComplex && !x.same y then castOperands x y z xi yi
    else if !x.same y then do pure (← plainCast x xi, ← plainCast y yi)
    else pure (xi, yi)
  let result ← mixedCall z "pow" "powr" "rpow" x y xi yi ("pow(" ++ xi ++ ", " ++ yi ++ ")")
  let arguments ← binaryArguments r x y z (if baseIsArray then "*x" else "x") (if exponentIsArray then "*y" else "y")
  return withText arguments ("z[i] = " ++ result) "pow_method"

def arangeCode (t : ElementType) : Result ElementwiseCode := do
  let result ←
    if t.isComplex then do complexCall t "add" ["start", ← complexCall t "rmul" ["i", "step"]]
    else do pure ("start + ((" ++ (← r.typeName t) ++ ") i)*step")
  return withItems [pointer t "z", scalar t "start", scalar t "step"] ("z[i] = " ++ result) "arange"

def takeCode (count : Nat) : Result ElementwiseCode := do
  let indexName ← r.typeName index
  let _ ← r.typeName t
  let numbers := List.range count
  let args := numbers.map (fun i => pointer t ("dest" ++ toString i)) ++
    numbers.map (fun i => pointer t ("src" ++ toString i)) ++ [pointer index "idx"]
  let moves := numbers.map fun i => "dest" ++ toString i ++ "[i] = src" ++ toString i ++ "[src_idx];"
  return withItems args (indexName ++ " src_idx = idx[i];\n" ++ intercalate "\n" moves) "take"

def takePutCode (withOffsets : Bool) (count : Nat) :
    Result ElementwiseCode := do
  let indexName ← r.typeName index
  let _ ← r.typeName t
  let numbers := List.range count
  let args := numbers.map (fun i => Sum.inr (KernelArgument.vector t ("dest" ++ toString i) false)) ++
    [pointer index "gmem_dest_idx", pointer index "gmem_src_idx"] ++
    numbers.map (fun i => pointer t ("src" ++ toString i)) ++
    (if withOffsets then numbers.map (fun i => scalar index ("offset" ++ toString i)) else [])
  let moves := numbers.map fun i =>
    "dest" ++ toString i ++ "[dest_idx] = src" ++ toString i ++ "[src_idx" ++
      (if withOffsets then "+offset" ++ toString i else "") ++ "];"
  return withItems args (indexName ++ " src_idx = gmem_src_idx[i];\n" ++ indexName ++
    " dest_idx = gmem_dest_idx[i];\n" ++ intercalate "\n" moves) "take_put"

def putCode (count : Nat) : Result ElementwiseCode := do
  let indexName ← r.typeName index
  let _ ← r.typeName t
  let numbers := List.range count
  let args := numbers.map (fun i => pointer t ("dest" ++ toString i)) ++ [pointer index "gmem_dest_idx"] ++
    numbers.map (fun i => pointer t ("src" ++ toString i)) ++
    [pointer (.number .uint8) "use_fill", pointer (.number .int64) "val_ary_lengths"]
  let moves := numbers.map fun i =>
    let n := toString i
    "dest" ++ n ++ "[dest_idx] = (use_fill[" ++ n ++ "] ? src" ++ n ++ "[0] : src" ++ n ++
      "[i % val_ary_lengths[" ++ n ++ "]]);"
  return withItems args (indexName ++ " dest_idx = gmem_dest_idx[i];\n" ++ intercalate "\n" moves) "put"

def functionKernel (function : String) (name : Option String) : String := name.getD (function ++ "_kernel")

def realFunctionCode (function : String) (x y output : ElementType) (preamble : String) (name : Option String) :
    Result ElementwiseCode := do
  let wide := 4 < (← x.promote y).size
  let preamble := if wide then doublePreamble 8 [] ++ preamble else preamble
  let t := if wide then "double" else "float"
  let code := withItems [pointer output "z", pointer x "x", pointer y "y"]
    ("z[i] = " ++ function ++ "((" ++ t ++ ")x[i], (" ++ t ++ ")y[i])") (functionKernel function name)
  return { code with preamble }

def requireDoubles (x output : ElementType) : Result Unit := do
  if x != .number .complex128 then .error (.told .notImplemented "non-complex double dtype")
  if !x.same output then .error (.told .notImplemented "different input/output types")

def besselCode (kind : String) (output order x : ElementType) : Result ElementwiseCode := do
  let args := [pointer output "z", scalar order "ord_n", pointer x "x"]
  if !x.isComplex then
    let code := withItems args ("z[i] = bessel_" ++ kind ++ "n(ord_n, x[i])") ("bessel_" ++ kind ++ "n_kernel")
    return { code with preamble := doublePreamble 12 ["#include <pyopencl-bessel-" ++ kind ++ ".cl>"] }
  if kind != "j" then .error (.told .notImplemented "complex arguments for Bessel Y")
  requireDoubles x output
  let code := withItems args (intercalate "\n            " ["",
    "cdouble_t jv_loc;", "cdouble_t jvp1_loc;", "bessel_j_complex(ord_n, x[i], &jv_loc, &jvp1_loc);",
    "z[i] = jv_loc;", ""]) "bessel_j_complex_kernel"
  let headers := ["#include <pyopencl-complex.h>", "#include <pyopencl-bessel-j-complex.cl>"]
  return { code with preamble := doublePreamble 12 headers }

def hankelCode (output x : ElementType) : Result ElementwiseCode := do
  requireDoubles x output
  let code := withItems [pointer output "h0", pointer output "h1", pointer x "x"]
    (intercalate "\n        " ["", "cdouble_t h0_loc;", "cdouble_t h1_loc;",
      "hankel_01_complex(x[i], &h0_loc, &h1_loc, 1);", "h0[i] = h0_loc;", "h1[i] = h1_loc;", ""])
    "hankel_complex_kernel"
  let headers := ["#include <pyopencl-complex.h>", "#include <pyopencl-hankel-complex.cl>"]
  return { code with preamble := doublePreamble 8 headers }

def code (r : TypeRegistry) : StandardOperation → Result ElementwiseCode
  | take t index n => takeCode r t index n
  | takePut t index withOffsets n => takePutCode r t index withOffsets n
  | put t index n => putCode r t index n
  | copy target source => copyCode r target source
  | combine x y z => combineCode r x y z
  | scale a x b z => scaleCode r a x b z
  | multiply x y z => multiplyCode r x y z
  | divide x y z => divideCode r x y z
  | divideInto x y z => divideIntoCode r x y z
  | fill t => do
    let n ← r.typeName t
    return withText (n ++ " *z, " ++ n ++ " a") "z[i] = a" "fill"
  | reverse t => do
    let n ← r.typeName t
    return withText (n ++ " *z, " ++ n ++ " *y") "z[i] = y[n-1-i]" "reverse"
  | arange t => arangeCode r t
  | power x y z baseIsArray exponentIsArray => powerCode r x y z baseIsArray exponentIsArray
  | unaryOperator sign result input =>
    .ok (withItems [pointer result "z", pointer input "y"] ("z[i] = " ++ sign ++ " y[i]") "unary_op_kernel")
  | scalarOperator sign result a b =>
    .ok (withItems [pointer result "out", pointer a "a", scalar b "b"] ("out[i] = a[i] " ++ sign ++ " b")
      "scalar_binop_kernel")
  | arrayOperator sign result a b =>
    .ok (withItems [pointer result "out", pointer a "a", pointer b "b"] ("out[i] = a[i] " ++ sign ++ " b[i]")
      "binop_kernel")
  | scalarComparison sign a =>
    .ok (withItems [pointer (.number .int8) "out", pointer a "a", scalar a "b"]
      ("out[i] = a[i] " ++ sign ++ " b") "scalar_comparison_kernel")
  | arrayComparison sign a b =>
    .ok (withItems [pointer (.number .int8) "out", pointer a "a", pointer b "b"]
      ("out[i] = a[i] " ++ sign ++ " b[i]") "comparison_kernel")
  | unaryFunction f input output =>
    .ok (withItems [pointer output "z", pointer input "y"] ("z[i] = " ++ f ++ "(y[i])") (f ++ "_kernel"))
  | binaryFunction f x y output preamble name =>
    let code := withItems [pointer output "z", pointer x "x", pointer y "y"] ("z[i] = " ++ f ++ "(x[i], y[i])")
      (functionKernel f name)
    .ok { code with preamble }
  | realFunction f x y output preamble name => realFunctionCode f x y output preamble name
  | splitFraction whole fraction x =>
    .ok (withItems [pointer whole "intpart", pointer fraction "fracpart", pointer x "x"]
      "\n        fracpart[i] = modf(x[i], &intpart[i])\n        " "modf_kernel")
  | splitExponent significand exponent x =>
    .ok (withItems [pointer significand "significand", pointer exponent "exponent", pointer x "x"]
      (intercalate "\n        " ["", "int expt = 0;", "significand[i] = frexp(x[i], &expt);",
        "exponent[i] = expt;", ""]) "frexp_kernel")
  | bessel kind output order x => besselCode kind output order x
  | hankel output x => hankelCode output x
  | difference t => .ok (withItems [pointer t "result", pointer t "array"] "result[i] = array[i+1] - array[i]" "diff")
  | ifPositive criterion t =>
    .ok (withItems [pointer t "result", pointer criterion "crit", pointer t "then_", pointer t "else_"]
      "result[i] = crit[i] > 0 ? then_[i] : else_[i]" "if_positive")

def declaredType? : StandardOperation → Option ElementType
  | take t _ _ | takePut t _ _ _ | put t _ _ | copy t _ | fill t => some t
  | _ => none

def remainder (output x modulus : ElementType) : StandardOperation := realFunction "fmod" x modulus output "" none

def scaleByPower (output significand exponent : ElementType) : StandardOperation :=
  binaryFunction "_PYOCL_LDEXP" significand exponent output "#define _PYOCL_LDEXP(x, y) ldexp(x, (int)(y))"
    (some "ldexp_kernel")

end StandardOperation

namespace Host

def standardKernel (context : Context) (op : StandardOperation) : Host KernelId := do
  match (← get).standardKernels.find? (fun e => e.1 == (context.id, op)) with
  | some (_, k) => return k
  | none =>
    let code ← lift (op.code (← registry))
    let preamble ← match op.declaredType?, context.devices with
      | some t, d :: _ => structureDeclaration d t
      | some _, [] => bare .index
      | none, _ => pure code.preamble
    let k ← elementwiseKernel context { code with preamble }
    modify fun w => { w with standardKernels := w.standardKernels ++ [((context.id, op), k)] }
    return k

end Host

end ClHost
