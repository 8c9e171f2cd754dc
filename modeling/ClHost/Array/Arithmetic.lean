import ClHost.Device.Command
import ClHost.Elementwise.Build

/-!
# Arithmetic on arrays

Sums, products, quotients, powers and bitwise operations of an array with an array or a number.
-/

namespace ClHost

namespace Host

variable (a : DeviceArray)

def fillArray (v : Actual) (queue : Option Queue) (wait : List EventId) : Host Unit := do
  addEvent a (← runElementwise (standardKernel a.context (.fill a.type)) a [.value v] queue wait)

def zeroFill (queue : Option Queue) (wait : List EventId) : Host Unit := do
  let q ← needQueue (queue <|> a.queue)
  if ← supports q.context (1, 2) then addEvent a (← fillBuffer q a.buffer [0] a.offset a.nbytes wait)
  else fillArray a (.element (Element.zero a.type)) (some q) []

def zerosLike : Host DeviceArray := do
  let result ← emptyLike a
  zeroFill result none []
  return result

end Host

inductive BitOperator where
  | and | or | xor
deriving DecidableEq

def BitOperator.sign : BitOperator → String
  | and => "&"
  | or => "|"
  | xor => "^"

namespace Host

variable (a : DeviceArray) (v : Actual) (other : Actual)

/-- The type of the result of an operation on an array and another operand. -/
def resultType (queue : Option Queue) : Host ElementType := do
  let q ← needQueue queue
  let double ← hasDouble q.device
  let t ← match other, other.operand? with
    | .array b, _ => lift (a.type.promote b.type)
    | .host h, _ => lift (a.type.promote h.type)
    | .text _, _ => bare .arithmeticType
    | _, some o => lift (a.type.promoteOperand o)
    | _, none => bare .type
  return commonType double t

variable (t : ElementType) (op : BitOperator) (out : DeviceArray) (f : Actual)

def convertedTo (v : Actual) : Host Actual :=
  match t, v, v.operand? with
  | .number p, _, some o => return .element (← lift (p.ofOperand o))
  | .number _, .host h, _ => return .host h
  | .vector _ _, .literal (.int n), _ | .record _ _ _, .literal (.int n), _ | .raw _, .literal (.int n), _ =>
    if n < 0 then bare .overflow else return .element ⟨.raw n.toNat, List.replicate n.toNat 0⟩
  | _, _, _ => bare .type

def constantOf (n : Int) : Host Actual := convertedTo t (.literal (.int n))

def equalsInteger (n : Int) : Host Bool :=
  match v, v.operand? with
  | .host h, _ => do
    match ← h.elements with
    | [e] => return (e.quantity?.map (·.equals (.int n))).getD false
    | _ => bare .value
  | _, some o => return (o.quantity?.map (·.equals (.int n))).getD false
  | _, none => return false

def opposite : Host Actual :=
  match v, v.operand? with
  | .host h, _ => return .host h
  | _, some o => do
    match ← lift o.opposite with
    | .literal l => return .literal l
    | .element e => return .element e
  | _, none => bare .type

def inverse : Host Actual :=
  match v, v.operand? with
  | .host h, _ => return .host h
  | _, some o => do
    match ← lift o.inverse with
    | .literal l => return .literal l
    | .element e => return .element e
  | _, none => bare .type

def combineInto (a : DeviceArray) (g : Actual) (b : DeviceArray) : Host EventId :=
  let kernel : Host KernelId := do
    require (out.shape == a.shape)
    require (out.shape == b.shape)
    standardKernel out.context (.combine a.type b.type out.type)
  runElementwise kernel out [.value f, .array a, .value g, .array b] none []

def scaleInto (x : DeviceArray) (b : Actual) : Host EventId :=
  let kernel : Host KernelId := do
    let ft ← lift f.ownType
    let bt ← lift b.ownType
    require (out.shape == x.shape)
    standardKernel out.context (.scale ft x.type bt out.type)
  runElementwise kernel out [.value f, .array x, .value b] none []

def multiplyInto (out a b : DeviceArray) : Host EventId :=
  let kernel : Host KernelId := do
    require (out.shape == a.shape)
    require (out.shape == b.shape)
    standardKernel a.context (.multiply a.type b.type out.type)
  runElementwise kernel out [.array a, .array b] none []

def divideInto (out a b : DeviceArray) : Host EventId :=
  let kernel : Host KernelId := do
    require (a.shape == b.shape)
    standardKernel a.context (.divide a.type b.type out.type)
  runElementwise kernel out [.array a, .array b] none []

def newResult (type : ElementType) (write : DeviceArray → Host EventId) : Host DeviceArray := do
  let result ← newLike a type none
  addEvent result (← write result)
  return result

def mulAdd (other g : Actual) (queue : Option Queue) : Host DeviceArray := do
  let t ← resultType a other (queue <|> a.queue)
  newResult a t fun result => match other with
    | .array b => combineInto result f a g b
    | _ => bare .attribute

def addArrays (a b : DeviceArray) (sign : Int) : Host DeviceArray := do
  newResult a (← resultType a (.array b) a.queue) fun result => do
    combineInto result (← constantOf a.type 1) a (← constantOf b.type sign) b

def add : Host DeviceArray := do
  match other with
  | .array b => addArrays a b 1
  | v =>
    if ← equalsInteger v 0 then copyArray a a.queue
    else
      let t ← resultType a v a.queue
      newResult a t fun result => do scaleInto result (← constantOf a.type 1) a (← convertedTo t v)

def subtract : Host DeviceArray := do
  match other with
  | .array b => addArrays a b (-1)
  | v =>
    if ← equalsInteger v 0 then copyArray a a.queue
    else
      let t ← resultType a v a.queue
      newResult a t fun result => do scaleInto result (← constantOf a.type 1) a (← opposite v)

def subtractFrom : Host DeviceArray := do
  let t ← resultType a v a.queue
  newResult a t fun result => do scaleInto result (← constantOf a.type (-1)) a (← convertedTo t v)

def multiplyBy : Host DeviceArray := do
  let t ← resultType a v a.queue
  newResult a t fun result => do scaleInto result (← convertedTo t v) a (← constantOf a.type 0)

def multiply : Host DeviceArray := do
  match other with
  | .array b => newResult a (← resultType a other a.queue) fun result => multiplyInto result a b
  | v => multiplyBy a v

/-- The quotient of an array and an operand; dividing by one copies, dividing by a number multiplies by one over
it. -/
def divide : Host DeviceArray := do
  match other with
  | .array b => newResult a (← resultType a other a.queue) fun result => divideInto result a b
  | v =>
    if ← equalsInteger v 1 then copyArray a a.queue
    else
      let t ← resultType a v a.queue
      newResult a t fun result => do
        scaleInto result (← convertedTo t (← inverse v)) a (← constantOf a.type 0)

def divideFrom : Host DeviceArray := do
  let t ← resultType a other a.queue
  newResult a t fun result => do
    match other with
    | .array _ => bare .type
    | v =>
      let v ← convertedTo t v
      let kernel : Host KernelId := do
        let own ← lift v.ownType
        require (result.shape == a.shape)
        standardKernel result.context (.divideInto a.type own result.type)
      runElementwise kernel result [.array a, .value v] none []

def negate : Host DeviceArray :=
  newResult a a.type fun result => scaleInto result (.literal (.int (-1))) a (.literal (.int 0))

def addInPlace : Host DeviceArray := do
  match other with
  | .array b => addEvent a (← combineInto a (← constantOf a.type 1) a (← constantOf b.type 1) b)
  | v => addEvent a (← scaleInto a (← constantOf a.type 1) a v)
  return a

def subtractInPlace : Host DeviceArray := do
  match other with
  | .array b => addEvent a (← combineInto a (← constantOf a.type 1) a (← constantOf b.type (-1)) b)
  | v => let _ ← scaleInto a (← constantOf a.type 1) a (← opposite v)
  return a

def multiplyInPlace : Host DeviceArray := do
  match other with
  | .array b => addEvent a (← multiplyInto a a b)
  | v => addEvent a (← scaleInto a v a (← constantOf a.type 0))
  return a

def bitwiseInto (out a : DeviceArray) (other : Actual) (op : BitOperator) : Host EventId :=
  match other with
  | .array b =>
    let kernel : Host KernelId := do
      if a.shape != b.shape then refuse .value "shapes of binop arguments do not match"
      standardKernel out.context (.arrayOperator op.sign out.type a.type b.type)
    runElementwise kernel out [.array a, .array b] none []
  | v =>
    let kernel : Host KernelId := do
      standardKernel out.context (.scalarOperator op.sign out.type a.type (← lift v.ownType))
    runElementwise kernel out [.array a, .value v] none []

def bitwiseType : Host ElementType := do
  let t ← resultType a other a.queue
  if !t.isInteger then refuse .type "Integral types only"
  return t

def bitwise (a : DeviceArray) (other : Actual) : Host DeviceArray := do
  newResult a (← bitwiseType a other) fun result => bitwiseInto result a other op

def bitwiseInPlace (a : DeviceArray) (other : Actual) : Host DeviceArray := do
  let _ ← bitwiseType a other
  addEvent a (← bitwiseInto a a other op)
  return a

def invert : Host DeviceArray := do
  if !a.type.isInteger then refuse .type "Integral types only"
  newResult a a.type fun result =>
    runElementwise (standardKernel result.context (.unaryOperator "~" a.type result.type)) result [.array a] none []

def power : Host DeviceArray := do
  match other with
  | .array b =>
    require (a.shape == b.shape)
    newResult a (← resultType a other a.queue) fun result =>
      runElementwise (standardKernel result.context (.power a.type b.type result.type true true)) result
        [.array a, .array b] none []
  | v =>
    newResult a (← resultType a v a.queue) fun result =>
      let kernel : Host KernelId := do
        standardKernel result.context (.power a.type (← lift v.ownType) result.type true false)
      runElementwise kernel result [.array a, .value v] none []

def powerOf : Host DeviceArray := do
  let t ← resultType a v a.queue
  newResult a t fun result => do
    let base ← convertedTo t v
    let kernel : Host KernelId := do
      standardKernel result.context (.power (← lift base.ownType) a.type result.type false true)
    runElementwise kernel result [.value base, .array a] none []

end Host

/-! ## Comparisons and choices -/

inductive Comparison where
  | equal | different | less | atMost | greater | atLeast
deriving DecidableEq

namespace Comparison

def sign : Comparison → String
  | equal => "=="
  | different => "!="
  | less => "<"
  | atMost => "<="
  | greater => ">"
  | atLeast => ">="

def swapped : Comparison → Comparison
  | less => greater
  | atMost => atLeast
  | greater => less
  | atLeast => atMost
  | c => c

def keepsEvent : Comparison → Bool
  | atMost => false
  | _ => true

end Comparison

namespace Host

def compare (c : Comparison) (a : DeviceArray) (other : Actual) : Host DeviceArray := do
  let result ← newLike a (.number .int8) none
  match other with
  | .array b =>
    let kernel : Host KernelId := do
      if a.shape != b.shape then refuse .value "shapes of comparison arguments do not match"
      standardKernel result.context (.arrayComparison c.sign a.type b.type)
    addEvent result (← runElementwise kernel result [.array a, .array b] none [])
  | v =>
    let e ← runElementwise (standardKernel result.context (.scalarComparison c.sign a.type)) result
      [.array a, .value v] none []
    if c.keepsEvent then addEvent result e
  return result

def ifPositive (criterion yes no : DeviceArray) (out : Option DeviceArray) (queue : Option Queue) :
    Host DeviceArray := do
  if !(criterion.shape == yes.shape && yes.shape == no.shape) then refuse .value "shapes do not match"
  if !yes.type.same no.type then refuse .value "dtypes do not match"
  let result ← match out with
    | some out => pure out
    | none => emptyLike yes
  addEvent result (← runElementwise (standardKernel result.context (.ifPositive criterion.type yes.type)) result
    [.array criterion, .array yes, .array no] queue [])
  return result

def difference (a : DeviceArray) (b : Actual) (queue : Option Queue) : Host DeviceArray :=
  mulAdd a (.literal (.int 1)) b (.literal (.int (-1))) queue

variable (a b : DeviceArray) (out : Option DeviceArray) (queue : Option Queue)

def largerOf : Host DeviceArray := do
  ifPositive (← difference a (.array b) queue) a b out queue

def smallerOf : Host DeviceArray := do
  ifPositive (← difference a (.array b) queue) b a out queue

end Host

/-! ## Functions of arrays -/

namespace Host

def mapInto (out a : DeviceArray) (function : Host String) : Host EventId :=
  let kernel : Host KernelId := do
    standardKernel a.context (.unaryFunction (← function) a.type out.type)
  runElementwise kernel out [.array a] none []

def complexFunction (t : ElementType) (name : String) : Host String := do
  return (← lift (complexName t)) ++ "_" ++ name

def realTypeOf : ElementType → ElementType
  | .number p => .number p.realPart
  | _ => .raw 0

variable (a : DeviceArray) (queue : Option Queue)

def absolute : Host DeviceArray :=
  newResult a (realTypeOf a.type) fun result => mapInto result a <|
    match a.type.kind with
    | .complex => complexFunction a.type "abs"
    | .real => pure "fabs"
    | .signed | .unsigned => pure "abs"
    | _ => refuse .type "unsupported dtype in _abs()"

def realPart : Host DeviceArray :=
  if a.type.isComplex then
    newResult a (realTypeOf a.type) fun result => mapInto result a (complexFunction a.type "real")
  else return a

def imaginaryPart : Host DeviceArray :=
  if a.type.isComplex then
    newResult a (realTypeOf a.type) fun result => mapInto result a (complexFunction a.type "imag")
  else zerosLike a

def conjugate : Host DeviceArray :=
  if a.type.isComplex then
    newResult a a.type fun result => mapInto result a (complexFunction a.type "conj")
  else return a

def reverse : Host DeviceArray :=
  newResult a a.type fun result =>
    runElementwise (standardKernel result.context (.reverse a.type)) result [.array a] none []

def convert (t : ElementType) (queue : Option Queue) : Host DeviceArray := do
  if t.same a.type then copyArray a a.queue
  else newResult a t fun result =>
    runElementwise (standardKernel result.context (.copy result.type a.type)) result [.array a] queue []

def neighbourDifferences (allocator : Option Allocator) :
    Host DeviceArray := do
  match a.shape with
  | [n] =>
    let queue := queue <|> a.queue
    let q ← arrayQueue queue
    let result ← newRows q a.type [n - 1] (allocator <|> a.allocator)
    addEvent result (← runElementwise (standardKernel a.context (.difference a.type)) result [.array a] queue [])
    return result
  | _ => refuse .value "multi-D arrays are not supported"

def spaced (q : Queue) (t : ElementType) (count : Int) (start step : Actual) (allocator : Option Allocator) :
    Host DeviceArray := do
  let result ← newRows q t [count] allocator
  addEvent result (← runElementwise (standardKernel result.context (.arange t)) result [.value start, .value step]
    (some q) [])
  return result

def applyFunction (name : String) (a : DeviceArray) (queue : Option Queue) : Host DeviceArray := do
  let result ← newLike a a.type queue
  let kernel : Host KernelId := do
    let function ← if a.type.isComplex then complexFunction a.type name else pure name
    standardKernel result.context (.unaryFunction function a.type a.type)
  addEvent result (← runElementwise kernel result [.array a] queue [])
  return result

def operandType : Actual → Host ElementType
  | .array a => pure a.type
  | .host h => pure h.type
  | .element e => pure e.type
  | _ => bare .attribute

def operandOf : Actual → ArrayOperand
  | .array a => .array a
  | v => .value v

def applyRealFunction (name : String) (a : DeviceArray) (other : Actual) (queue : Option Queue) : Host DeviceArray := do
  let result ← newLike a (← resultType a other queue) none
  let kernel : Host KernelId := do
    standardKernel result.context (.realFunction name a.type (← operandType other) result.type "" none)
  addEvent result (← runElementwise kernel result [.array a, operandOf other] queue [])
  return result

def remainder (other : Actual) (queue : Option Queue) : Host DeviceArray := do
  let queue ← match queue <|> a.queue, other with
    | some q, _ => pure (some q)
    | none, .array b => pure b.queue
    | none, _ => bare .attribute
  applyRealFunction "fmod" a other queue

def pairOf (first second : DeviceArray) (launch : Host EventId) : Host (DeviceArray × DeviceArray) := do
  let e ← launch
  addEvent first e
  addEvent second e
  return (first, second)

def splitExponents : Host (DeviceArray × DeviceArray) := do
  let significand ← newLike a a.type queue
  let exponent ← newLike a (.number .int32) queue
  let kernel := standardKernel significand.context (.splitExponent significand.type exponent.type a.type)
  pairOf significand exponent (runElementwise kernel significand [.array exponent, .array a] queue [])

def joinExponents (exponent : Actual) (queue : Option Queue) : Host DeviceArray := do
  let result ← newLike a a.type queue
  let kernel : Host KernelId := do
    standardKernel result.context (.scaleByPower result.type a.type (← operandType exponent))
  addEvent result (← runElementwise kernel result [.array a, operandOf exponent] none [])
  return result

def splitFractions : Host (DeviceArray × DeviceArray) := do
  let whole ← newLike a a.type queue
  let fraction ← newLike a a.type queue
  let kernel := standardKernel whole.context (.splitFraction whole.type fraction.type a.type)
  pairOf fraction whole (runElementwise kernel whole [.array fraction, .array a] queue [])

def bessel (kind : String) (order : Actual) (a : DeviceArray) (queue : Option Queue) : Host DeviceArray := do
  let result ← newLike a a.type queue
  let kernel : Host KernelId := do
    standardKernel result.context (.bessel kind result.type (← lift order.ownType) a.type)
  addEvent result (← runElementwise kernel result [.value order, .array a] queue [])
  return result

def hankel : Host (DeviceArray × DeviceArray) := do
  let zeroth ← newLike a a.type queue
  let first ← newLike a a.type queue
  let kernel := standardKernel zeroth.context (.hankel zeroth.type a.type)
  pairOf zeroth first (runElementwise kernel zeroth [.array first, .array a] queue [])

end Host

end ClHost
