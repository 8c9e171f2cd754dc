import ClHost.CType.Declarator

/-!
# Elementwise operations

A statement of kernel source that is carried out for each element of arrays.
-/

namespace ClHost

inductive StandardOperation where
  | take (type index : ElementType) (count : Nat)
  | takePut (type index : ElementType) (withOffsets : Bool) (count : Nat)
  | put (type index : ElementType) (count : Nat)
  | copy (target source : ElementType)
  /-- A sum of multiples of two arrays. -/
  | combine (x y z : ElementType)
  /-- A multiple of an array and a number. -/
  | scale (a x b z : ElementType)
  | multiply (x y z : ElementType)
  | divide (x y z : ElementType)
  | divideInto (x y z : ElementType)
  | fill (type : ElementType)
  | reverse (type : ElementType)
  | arange (type : ElementType)
  | power (x y z : ElementType) (baseIsArray exponentIsArray : Bool)
  | unaryOperator (sign : String) (result input : ElementType)
  | scalarOperator (sign : String) (result a b : ElementType)
  | arrayOperator (sign : String) (result a b : ElementType)
  | scalarComparison (sign : String) (a : ElementType)
  | arrayComparison (sign : String) (a b : ElementType)
  | unaryFunction (function : String) (input output : ElementType)
  | binaryFunction (function : String) (x y output : ElementType) (preamble : String) (name : Option String)
  | realFunction (function : String) (x y output : ElementType) (preamble : String) (name : Option String)
  | splitFraction (whole fraction x : ElementType)
  | splitExponent (significand exponent x : ElementType)
  | bessel (kind : String) (output order x : ElementType)
  | hankel (output x : ElementType)
  | difference (type : ElementType)
  | ifPositive (criterion type : ElementType)
deriving DecidableEq

open String

inductive ArgumentSource where
  | text (s : String)
  | items (items : List (String ⊕ KernelArgument))
deriving Inhabited

def ArgumentSource.read (s : ArgumentSource) (r : TypeRegistry) (withOffset : Bool) : Result (List KernelArgument) :=
  match s with
  | text s => KernelArgument.readList r withOffset s
  | items xs => xs.mapM fun x => match x with
    | .inl s => KernelArgument.read r withOffset s
    | .inr a => .ok a

structure ElementwiseCode where
  arguments : ArgumentSource
  operation : String
  name : String := "elwise_kernel"
  options : List String := []
  preamble : String := ""
  loopPrep : String := ""
  afterLoop : String := ""
  /-- Whether extensions are enabled for the types of the arguments. -/
  autoPreamble : Bool := true
  hasUnknownSetting : Bool := false
deriving Inhabited

structure ElementwiseKernel where
  context : Context
  code : ElementwiseCode
deriving Inhabited

namespace ElementwiseCode

variable (c : ElementwiseCode) (overRange : Bool)

def indexParameters : List KernelArgument :=
  (if overRange then ["start", "stop", "step"] else ["n"]).map (KernelArgument.scalar (.number .int64))

def extensions (types : List ElementType) : String :=
  let margin := ofList (List.replicate 24 ' ')
  let pragmas :=
    if types.any (fun t => t == .number .float64 || t == .number .complex128) then
      [Declarations.doubleLines margin ++ "\n" ++ margin]
    else []
  let includes := if types.any ElementType.isComplex then [Declarations.complexHeader] else []
  match pragmas ++ includes with
  | [] => ""
  | lines => intercalate "\n" lines ++ "\n"

def loop (operation : String) : String :=
  let ranged (sign : String) : List String := ["          \x7b",
    "            for (i = start + (work_group_start + lid)*step;",
    "              i " ++ sign ++ " stop; i += gsize*step)",
    "            \x7b",
    "              " ++ operation ++ ";",
    "            \x7d",
    "          \x7d"]
  intercalate "\n" (
    if overRange then
      ["//CL//", "          if (step < 0)"] ++ ranged ">" ++ ["          else"] ++ ranged "<" ++ ["          "]
    else ["//CL//", "          for (i = work_group_start + lid; i < n; i += gsize)", "          \x7b",
      "            " ++ operation ++ ";",
      "          \x7d",
      "          "])

def source (preamble loopPrep : String) (parameters : List String) : String :=
  intercalate "\n" ["//CL//", "        " ++ preamble, "", "        #define PYOPENCL_ELWISE_CONTINUE continue", "",
    "        __kernel void " ++ c.name ++ "(" ++ intercalate ", " parameters ++ ")",
    "        \x7b",
    "          int lid = get_local_id(0);",
    "          int gsize = get_global_size(0);",
    "          int work_group_start = get_local_size(0)*get_group_id(0);",
    "          long i;",
    "",
    "          " ++ loopPrep ++ ";",
    "          " ++ loop overRange c.operation,
    "          " ++ c.afterLoop ++ ";",
    "        \x7d",
    "        "]

def hasWord (word : List Char) : Bool → List Char → Bool
  | _, [] => false
  | inWord, c :: cs =>
    (!inWord && word.isPrefixOf (c :: cs) && !((((c :: cs).drop word.length).head?.map Text.isWordChar).getD false)) ||
    hasWord word (Text.isWordChar c) cs

/-- Whether the operation leaves the kernel, so that later elements of the work item would be skipped. -/
def returnsEarly : Bool := hasWord "return".toList false c.operation.toList

end ElementwiseCode

structure IndexRange where
  start : Int
  stop : Int
  step : Int
deriving DecidableEq

namespace IndexRange

variable (r : IndexRange)

def extent : Result Int :=
  if r.step == 0 then .error (.bare .zeroDivision)
  else .ok (Int.fdiv (r.stop - r.start).natAbs r.step)

/-- The range of a slice of so many elements: missing ends stand for the ends in the direction of the step,
those below zero count from the end, and all are brought into bounds. -/
def ofSlice (start stop step : Option Int) (n : Int) : Result IndexRange :=
  let step := step.getD 1
  if n < 0 || step == 0 then .error (.bare .value)
  else
    let lower : Int := if step < 0 then -1 else 0
    let upper : Int := if step < 0 then n - 1 else n
    let settle (x : Int) : Int :=
      if x < 0 then max (x + n) lower else min x upper
    let start := match start with
      | some x => settle x
      | none => if step < 0 then upper else lower
    let stop := match stop with
      | some x => settle x
      | none => if step < 0 then lower else upper
    .ok ⟨start, stop, step⟩

def count : Nat :=
  if 0 < r.step then ((r.stop - r.start + r.step - 1) / r.step).toNat
  else if r.step < 0 then ((r.start - r.stop - r.step - 1) / (-r.step)).toNat
  else 0

def steps : Int := Int.fdiv (((r.stop - r.start).natAbs : Int) - 1) r.step.natAbs + 1

end IndexRange

end ClHost
