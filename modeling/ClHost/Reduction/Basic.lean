import ClHost.Elementwise.Basic
import ClHost.Pool.Basic

/-!
# Reductions

Elements are mapped and then folded by an associative operation. A first kernel folds the elements that each group
takes to one value, and a second kernel folds these values, again and again, until one is left.
-/

namespace ClHost

namespace Source

def lineMark : String := "//CL//"

/-- A snippet as the body of a macro, on one logical line. -/
def macroBody (code : String) : Result String :=
  let code := Text.replaceAll code lineMark "\n"
  if Text.contains code "//" then
    .error (.told .runtime "end-of-line comments ('//') may not be used in code snippets")
  else .ok (Text.replaceAll code "\n" " \\\n")

end Source

structure ReductionCode where
  type : ElementType
  neutral : String
  reduce : String
  map : Option String := none
  arguments : Option ArgumentSource := none
  name : String := "reduce_kernel"
  options : List String := []
  preamble : String := ""

structure ReductionStage where
  groupSize : Nat
  kernel : KernelId
  arguments : List KernelArgument
  source : String
deriving Inhabited

structure ReductionKernel where
  type : ElementType
  first : ReductionStage
  second : ReductionStage
deriving Inhabited

inductive ReductionPhase where
  | mapping | folding
deriving DecidableEq

inductive Extreme where
  | least | greatest
deriving DecidableEq

inductive StandardReduction where
  | any (type : ElementType)
  | all (type : ElementType)
  | sum (output : Option ElementType) (input : ElementType)
  /-- A sum of products; types that are left out follow from the others. -/
  | dot (output a b : Option ElementType) (conjugates : Bool)
  | subsetDot (subset : ElementType) (output a b : Option ElementType) (conjugates : Bool)
  | extreme (which : Extreme) (type : ElementType)
  | subsetExtreme (which : Extreme) (type subset : ElementType)
deriving DecidableEq

namespace Reduction

def ceilDiv (n d : Nat) : Nat := (n + d - 1) / d

def deviceGroupSize (limit typeSize : Nat) : Nat := Nat.pow 2 (Log2.log64 (min limit (ceilDiv limit typeSize)))

/-- The sizes to which a group shrinks from round to round, by halves; nothing if a half is not whole. -/
def halvings (n : Nat) : Option (List Nat) :=
  if h : n ≤ 1 then some []
  else if n % 2 == 0 then (halvings (n / 2)).map (n / 2 :: ·) else none
termination_by n
decreasing_by omega

def inputName : String := "pyopencl_reduction_inp"

def defaultMap : ReductionPhase → String
  | .mapping => "in[i]"
  | .folding => inputName ++ "[i]"

def leadingParameters : List Parameter := [
  ⟨"__global pcl_out_type *pcl_out__base", some .buffer⟩, ⟨"long pcl_out__offset", some (.value (.number .int64))⟩]

def rangeParameters : List Parameter :=
  ["pcl_start", "pcl_step", "pcl_stop"].map fun n => ⟨"long " ++ n, some (.value (.number .int64))⟩

def countParameters : List Parameter := [
  ⟨"unsigned int pcl_seq_count", some (.value (.number .uint32))⟩, ⟨"long n", some (.value (.number .int64))⟩]

variable (groupSize : Nat) (n : Int) (ps : List Parameter)

def passedOf : List PassedType := ps.filterMap (·.passed)

structure SourceParts where
  typeName : String
  groupSize : Nat
  rounds : List Nat
  neutral : String
  reduceMacro : String
  mapMacro : String
  name : String
  preamble : String
  parameters : List Parameter
  offsets : String
  hasDouble : Bool

def parameterLine : List String :=
  if ps.isEmpty then [] else [String.intercalate ", " (ps.map (·.declaration)) ++ ","]

def roundLines (size : Nat) : List String := ["barrier(CLK_LOCAL_MEM_FENCE);", "if (pcl_lid < " ++ toString size ++ ")",
  "\x7b",
  "pcl_ldata[pcl_lid] = PCL_REDUCE(",
  "pcl_ldata[pcl_lid],",
  "pcl_ldata[pcl_lid + " ++ toString size ++ "]);",
  "\x7d"]

def SourceParts.text (p : SourceParts) : String :=
  String.intercalate "\n" (
    ["//CL//", "#define PCL_GROUP_SIZE " ++ toString p.groupSize, "#define PCL_READ_AND_MAP(i) (" ++ p.mapMacro ++ ")",
      "#define PCL_REDUCE(a, b) (" ++ p.reduceMacro ++ ")"] ++
    (if p.hasDouble then [Declarations.doubleLines ""] else []) ++
    ["#include <pyopencl-complex.h>", p.preamble, "typedef " ++ p.typeName ++ " pcl_out_type;",
      "__kernel void " ++ p.name ++ "("] ++
    parameterLine leadingParameters ++ parameterLine p.parameters ++ parameterLine rangeParameters ++
    [String.intercalate ", " (countParameters.map (·.declaration)) ++ ")", "\x7b",
      "__global pcl_out_type *pcl_out = (__global pcl_out_type *) (",
      "(__global char *) pcl_out__base + pcl_out__offset);",
      p.offsets,
      "__local pcl_out_type pcl_ldata[PCL_GROUP_SIZE];",
      "unsigned int pcl_lid = get_local_id(0);",
      "const long pcl_base_idx =",
      "get_group_id(0)*PCL_GROUP_SIZE*pcl_seq_count + pcl_lid;",
      "long i = pcl_start + pcl_base_idx * pcl_step;",
      "pcl_out_type pcl_acc = " ++ p.neutral ++ ";",
      "for (unsigned pcl_s = 0; pcl_s < pcl_seq_count; ++pcl_s)",
      "\x7b",
      "if (i >= pcl_stop)",
      "break;",
      "pcl_acc = PCL_REDUCE(pcl_acc, PCL_READ_AND_MAP(i));",
      "i += PCL_GROUP_SIZE*pcl_step;",
      "\x7d",
      "pcl_ldata[pcl_lid] = pcl_acc;"] ++
    p.rounds.flatMap roundLines ++
    ["if (pcl_lid == 0) pcl_out[get_group_id(0)] = pcl_ldata[0];", "\x7d"])

def mostGroups : Nat := 1024

def fewRounds : Nat := 4

structure Share where
  groups : Int
  rounds : Int
deriving DecidableEq

def share : Share :=
  if n ≤ groupSize * fewRounds * mostGroups then
    let total : Int := fewRounds * groupSize
    ⟨Int.fdiv (n + total - 1) total, fewRounds⟩
  else
    let total : Int := mostGroups * groupSize
    ⟨mostGroups, Int.fdiv (n + total - 1) total⟩

def deal : Result Share :=
  if groupSize == 0 then .error (.bare .zeroDivision) else .ok (share groupSize n)

end Reduction

end ClHost
