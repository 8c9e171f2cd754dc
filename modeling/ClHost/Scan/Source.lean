import ClHost.Elementwise.Basic
import ClHost.Pool.Basic

/-!
# Sources of scan kernels

A scan over many elements takes three kernels. The first one scans each interval on its own and keeps the value at its
end; the second one is the same kernel, run on these values; the last one adds to every element what comes before its
interval and carries out the statement that writes results.
-/

namespace ClHost

namespace Scan

/-! ## Sizes in a scan -/

structure Splitting where
  size : Int
  count : Int
deriving DecidableEq

def partsOf (n size : Int) : Int := -(Int.fdiv (-n) size)

/-- Splits `n` elements into at most so many intervals of whole units: one unit each as long as that is enough. -/
def split (n unit most : Int) : Option Splitting :=
  if unit == 0 then none
  else
    let units := partsOf n unit
    if units ≤ most then some ⟨unit, units⟩
    else if most == 0 then none
    else
      let size := partsOf units most * unit
      some ⟨size, partsOf n size⟩

namespace Splitting

variable (s : Splitting)

def fitsOne : Bool := s.count ≤ s.size

end Splitting

structure Demand where
  value : Nat
  index : Nat
  fetched : Nat
deriving DecidableEq

structure GroupShape where
  group : Nat
  run : Nat
deriving DecidableEq, Inhabited

structure SizeLimits where
  localMemory : Int
  largestGroup : Nat
  groupStep : Nat
  /-- Sizes that a group should reach if it can, the best one first. -/
  floors : List Nat

/-- The local memory that a group is taken to use: the values with a spare row and column, the marks of
segments, the first segments and the fetched inputs. -/
def Demand.localUse (d : Demand) (s : GroupShape) : Nat :=
  d.value * (s.group + 1) * (s.run + 1) + s.group * s.run + d.index * s.run + s.group * s.run * d.fetched

def runs : List Nat := (List.range 9).map (Nat.pow 2 ·)

namespace SizeLimits

variable (l : SizeLimits)

def groups : List Nat := (List.range (l.largestGroup / l.groupStep)).map fun i => (i + 1) * l.groupStep

def fitting (d : Demand) : List GroupShape :=
  (runs.flatMap fun run => l.groups.map fun group => ⟨group, run⟩).filter fun s => d.localUse s ≤ l.localMemory

def aboveFloor : List Nat → List GroupShape → List GroupShape
  | [], shapes => shapes
  | floor :: floors, shapes =>
    if shapes.any (floor ≤ ·.group) then shapes.filter (floor ≤ ·.group) else aboveFloor floors shapes

def isBetter (s t : GroupShape) : Bool :=
  t.group * t.run < s.group * s.run || (s.group * s.run == t.group * t.run && t.run < s.run)

def best? : List GroupShape → Option GroupShape
  | [] => none
  | s :: shapes => some (shapes.foldl (fun best s => if isBetter s best then s else best) s)

def choose (d : Demand) : Option GroupShape := best? (aboveFloor l.floors (l.fitting d))

end SizeLimits

def floorPower (n : Nat) : Nat :=
  let p := Nat.pow 2 (Log2.log64 n)
  if n < p then p / 2 else p

def mostItems : Nat := 256

structure Fetch where
  name : String
  argument : String
  /-- The position of the input relative to the element: at it or just before it. -/
  offset : Int
deriving DecidableEq

/-- The arguments whose elements are kept in local memory, since more than one element needs them. -/
def sharedArguments (fetches : List Fetch) : List String :=
  (fetches.map (·.argument)).eraseDups.filter fun a =>
    let offsets := ((fetches.filter (·.argument == a)).map (·.offset)).eraseDups
    offsets.contains (-1) || 1 < offsets.length

/-- An array in local memory: its element type, the bytes of an element, its name, and its extents with
their texts. -/
structure LocalArray where
  type : String
  bytes : Nat
  name : String
  extents : List (String × Nat)
deriving DecidableEq

namespace LocalArray

def declaration (a : LocalArray) : String :=
  "LOCAL_MEM " ++ a.type ++ " " ++ a.name ++ String.join (a.extents.map fun e => "[" ++ e.1 ++ "]") ++ ";"

def size (a : LocalArray) : Nat := a.extents.foldl (fun n e => n * e.2) a.bytes

end LocalArray

def platformLines : List String := ["#define local_barrier() barrier(CLK_LOCAL_MEM_FENCE);",
  "#define WITHIN_KERNEL /* empty */",
  "#define KERNEL __kernel",
  "#define GLOBAL_MEM __global",
  "#define LOCAL_MEM __local",
  "#define LOCAL_MEM_ARG __local",
  "#define REQD_WG_SIZE(X,Y,psc_Z) __attribute__((reqd_work_group_size(X, Y, psc_Z)))"] ++
  [("LID", "local_id"), ("GID", "group_id"), ("LDIM", "local_size"), ("GDIM", "num_groups")].flatMap fun (short, long) =>
    ["0", "1", "2"].map fun axis => "#define psc_" ++ short ++ "_" ++ axis ++ " get_" ++ long ++ "(" ++ axis ++ ")"

def doubleLines : List String := ["#if __OPENCL_C_VERSION__ < 120", "#pragma OPENCL EXTENSION cl_khr_fp64: enable",
  "#endif"]

structure CommonParts where
  /-- The bodies of the macros that combine two values and that give the value of an element. -/
  scan : String
  input : String
  segmentStart : Option String
  preamble : String
  typeName : String
  indexName : String
  largestIndex : Int
  hasDouble : Bool
deriving Inhabited

namespace CommonParts

variable (p : CommonParts)

def isSegmented : Bool := p.segmentStart.isSome

def lines (groupSize : Nat) : List String :=
  platformLines ++ (if p.hasDouble then doubleLines else []) ++
  ["//CL//", "#define psc_WG_SIZE " ++ toString groupSize,
    "#define psc_SCAN_EXPR(a, b, across_seg_boundary) " ++ p.scan,
    "#define psc_INPUT_EXPR(i) (" ++ p.input ++ ")"] ++
  (match p.segmentStart with
    | some e => ["#define psc_IS_SEG_START(i, a) (" ++ e ++ ")"]
    | none => []) ++
  [p.preamble, "typedef " ++ p.typeName ++ " psc_scan_type;", "typedef " ++ p.indexName ++ " psc_index_type;",
    "// NO_SEG_BOUNDARY is the largest representable integer in psc_index_type.",
    "// This assumption is used in code below.",
    "#define NO_SEG_BOUNDARY " ++ toString p.largestIndex,
    "//CL//"]

def segmented (lines : List String) : List String := if p.isSegmented then lines else []

/-- The last argument of the combination of two values: whether a segment starts between them. -/
def crossing (lines : List String) : List String :=
  (if p.isSegmented then lines else ["false"]) ++ [");"]

end CommonParts

def block (lines : List String) : List String := "\x7b" :: lines ++ ["\x7d"]

def fixedLines : List Parameter → List String
  | [] => []
  | [p] => [p.declaration]
  | p :: ps => (p.declaration ++ ",") :: fixedLines ps

def argumentLine (ps : List Parameter) : String := String.intercalate ", " (ps.map (·.declaration)) ++ ","

/-- The lines of parameters: those of the arguments, fixed ones, and ones that only some kernels have, which
may have notes. -/
def signature (arguments fixed more : List Parameter) (notes : Parameter → List String) : List String :=
  argumentLine arguments :: fixedLines fixed ++ more.flatMap (fun p => notes p ++ [", " ++ p.declaration]) ++ [")"]

def firstStarts : Parameter :=
  ⟨"GLOBAL_MEM psc_index_type *restrict psc_g_first_segment_start_in_interval", some .buffer⟩

def allStarts : Parameter := ⟨"GLOBAL_MEM char *restrict psc_g_segment_start_flags", some .buffer⟩

def intervalResults : Parameter := ⟨"GLOBAL_MEM psc_scan_type *restrict psc_interval_results", some .buffer⟩

def partialValues : Parameter := ⟨"GLOBAL_MEM psc_scan_type *restrict psc_partial_scan_buffer", some .buffer⟩

def sizeParameters (index : ElementType) : List Parameter := [⟨"const psc_index_type N", some (.value index)⟩,
  ⟨"const psc_index_type psc_interval_size", some (.value index)⟩]

inductive Level where
  | first | second
deriving DecidableEq, Inhabited

def Level.ending : Level → String
  | first => "_lev1"
  | second => "_lev2"

structure IntervalParts where
  common : CommonParts
  level : Level
  name : String
  shape : GroupShape
  arguments : List Parameter
  offsets : String
  /-- The inputs to fetch, with the names of their types and the bytes of their elements. -/
  fetches : List (Fetch × String × Nat)
  storesStarts : Bool
  /-- Whether a word is put between values, so that items use different banks of local memory. -/
  spreadsBanks : Bool
  storesWords : Bool
  valueSize : Nat
  indexType : ElementType
  indexSize : Nat
deriving Inhabited

namespace IntervalParts

def fixedParameters (index : ElementType) : List Parameter := partialValues :: sizeParameters index

def moreParameters (level : Level) (isSegmented storesStarts : Bool) : List Parameter :=
  (if level == .first then [intervalResults] else []) ++
  (if isSegmented && level == .first then [firstStarts] else []) ++
  (if storesStarts then [allStarts] else [])

variable (p : IntervalParts) (isTail : Bool)

def shared : List String := sharedArguments (p.fetches.map (·.1))

def valueArray : LocalArray := {
  type := "struct psc_wrapped_scan_type"
  bytes := if p.spreadsBanks then p.valueSize + 4 else p.valueSize
  name := "psc_ldata"
  extents := [("psc_K + 1", p.shape.run + 1), ("psc_WG_SIZE + 1", p.shape.group + 1)] }

def segmentArrays : List LocalArray :=
  if p.common.isSegmented then [
    ⟨"char", 1, "psc_l_segment_start_flags", [("psc_K", p.shape.run), ("psc_WG_SIZE", p.shape.group)]⟩,
    ⟨"psc_index_type", p.indexSize, "psc_l_first_segment_start_in_subtree", [("psc_WG_SIZE", p.shape.group)]⟩]
  else []

def fetchArrays : List LocalArray :=
  p.shared.map fun a =>
    let (type, bytes) := ((p.fetches.find? (·.1.argument == a)).map (·.2)).getD default
    ⟨type, bytes, "psc_l_" ++ a, [("psc_WG_SIZE*psc_K", p.shape.group * p.shape.run)]⟩

def localArrays : List LocalArray := p.valueArray :: p.segmentArrays ++ p.fetchArrays

def declarations : List String :=
  [p.offsets, "// index psc_K in first dimension used for psc_carry storage"] ++
  (if p.spreadsBanks then ["// Avoid bank conflicts by adding a single 32-bit psc_value to the size of",
      "// the scan type.",
      "struct __attribute__ ((__packed__)) psc_wrapped_scan_type",
      "\x7b",
      "psc_scan_type psc_value;",
      "int psc_dummy;",
      "\x7d;"]
    else ["struct psc_wrapped_scan_type", "\x7b", "psc_scan_type psc_value;", "\x7d;"]) ++
  ["// padded in psc_WG_SIZE to avoid bank conflicts", p.valueArray.declaration] ++
  p.segmentArrays.map LocalArray.declaration ++
  p.common.segmented ["// only relevant/populated for local id 0",
    "psc_index_type psc_first_segment_start_in_interval = NO_SEG_BOUNDARY;",
    "psc_index_type psc_first_segment_start_in_k_group, psc_first_segment_start_in_subtree;"] ++
  ["// \x7b\x7b\x7b declare local data for input_fetch_exprs if any of them are stenciled"] ++
  p.fetchArrays.map LocalArray.declaration ++
  ["// \x7d\x7d\x7d", "const psc_index_type psc_interval_begin = psc_interval_size * psc_GID_0;",
    "const psc_index_type psc_interval_end   = min(psc_interval_begin + psc_interval_size, N);",
    "const psc_index_type psc_unit_size  = psc_K * psc_WG_SIZE;",
    "psc_index_type psc_unit_base = psc_interval_begin;"]

/-- Lines for the unit at the end of an interval only, which may be cut short. -/
def tail (lines : List String) : List String := if isTail then lines else []

def readLoop : List String := ["for(psc_index_type psc_k = 0; psc_k < psc_K; psc_k++)"]

def readPosition : List String := ["const psc_index_type psc_offset = psc_k*psc_WG_SIZE + psc_LID_0;",
  "const psc_index_type psc_read_i = psc_unit_base + psc_offset;"]

def fetchLines : List String :=
  ["// \x7b\x7b\x7b psc_carry out input_fetch_exprs", "// (if there are ones that need to be fetched into local)"] ++
  (if p.shared.isEmpty then [] else
    readLoop ++ block (readPosition ++ p.shared.flatMap fun a =>
      tail isTail ["if (psc_read_i < psc_interval_end)"] ++
      block ["psc_l_" ++ a ++ "[psc_offset] = " ++ a ++ "[psc_read_i];"]) ++
    ["local_barrier();"]) ++
  ["pycl_printf((\"after input_fetch_exprs\\n\"));", "// \x7d\x7d\x7d"]

def fetchedVariable : Fetch × String × Nat → List String
  | (f, type, _) =>
    let entry (base : String) := "[" ++ base ++ " + " ++ toString f.offset ++ "]"
    [type ++ " " ++ f.name ++ ";"] ++
    if p.shared.contains f.argument then ["if (psc_offset + " ++ toString f.offset ++ " >= 0)",
      f.name ++ " = psc_l_" ++ f.argument ++ entry "psc_offset" ++ ";",
      "else if (psc_read_i + " ++ toString f.offset ++ " >= 0)",
      f.name ++ " = " ++ f.argument ++ entry "psc_read_i" ++ ";",
      "/*",
      "else",
      "if out of bounds, name is left undefined */"]
    else ["// " ++ f.argument ++ " gets fetched directly from psc_global",
      f.name ++ " = " ++ f.argument ++ "[psc_read_i];"]

def readLines : List String :=
  ["// \x7b\x7b\x7b read a unit's worth of data from psc_global"] ++
  readLoop ++ block (readPosition ++ tail isTail ["if (psc_read_i < psc_interval_end)"] ++
    block (p.fetches.flatMap p.fetchedVariable ++
      ["psc_scan_type psc_scan_value = psc_INPUT_EXPR(psc_read_i);",
        "const psc_index_type psc_o_mod_k = psc_offset % psc_K;",
        "const psc_index_type psc_o_div_k = psc_offset / psc_K;",
        "psc_ldata[psc_o_mod_k][psc_o_div_k].psc_value = psc_scan_value;"] ++
      p.common.segmented ["bool psc_is_seg_start = psc_IS_SEG_START(psc_read_i, psc_scan_value);",
        "psc_l_segment_start_flags[psc_o_mod_k][psc_o_div_k] = psc_is_seg_start;"] ++
      (if p.storesStarts then ["psc_g_segment_start_flags[psc_read_i] = psc_is_seg_start;"] else []))) ++
  ["pycl_printf((\"after read from psc_global\\n\"));", "// \x7d\x7d\x7d"]

def carryLines : List String :=
  ["// \x7b\x7b\x7b psc_carry in from previous unit, if applicable"] ++
  p.common.segmented ["local_barrier();", "psc_first_segment_start_in_k_group = NO_SEG_BOUNDARY;",
    "if (psc_l_segment_start_flags[0][psc_LID_0])",
    "psc_first_segment_start_in_k_group = psc_unit_base + psc_K*psc_LID_0;"] ++
  ["if (psc_LID_0 == 0 && psc_unit_base != psc_interval_begin)"] ++
  block (
    ["psc_scan_type psc_tmp = psc_ldata[psc_K][psc_WG_SIZE - 1].psc_value;",
      "psc_scan_type psc_tmp_aux = psc_ldata[0][0].psc_value;",
      "psc_ldata[0][0].psc_value = psc_SCAN_EXPR(",
      "psc_tmp, psc_tmp_aux,"] ++
    p.common.crossing ["(psc_l_segment_start_flags[0][0])"]) ++
  ["pycl_printf((\"after psc_carry-in\\n\"));", "// \x7d\x7d\x7d", "local_barrier();"]

def runLines : List String :=
  ["// \x7b\x7b\x7b scan along psc_k (sequentially in each work item)",
    "psc_scan_type psc_sum = psc_ldata[0][psc_LID_0].psc_value;"] ++
  tail isTail ["const psc_index_type psc_offset_end = psc_interval_end - psc_unit_base;"] ++
  ["for (psc_index_type psc_k = 1; psc_k < psc_K; psc_k++)"] ++
  block (tail isTail ["if ((psc_index_type) (psc_K * psc_LID_0 + psc_k) < psc_offset_end)"] ++
    block (["psc_scan_type psc_tmp = psc_ldata[psc_k][psc_LID_0].psc_value;"] ++
      p.common.segmented (
        ["psc_index_type psc_seq_i = psc_unit_base + psc_K*psc_LID_0 + psc_k;",
          "if (psc_l_segment_start_flags[psc_k][psc_LID_0])"] ++
        block ["psc_first_segment_start_in_k_group = min(", "psc_first_segment_start_in_k_group,", "psc_seq_i);"]) ++
      ["psc_sum = psc_SCAN_EXPR(psc_sum, psc_tmp,"] ++
      p.common.crossing ["(psc_l_segment_start_flags[psc_k][psc_LID_0])"] ++
      ["psc_ldata[psc_k][psc_LID_0].psc_value = psc_sum;"])) ++
  ["pycl_printf((\"after scan along psc_k\\n\"));", "// \x7d\x7d\x7d",
    "// store psc_carry in out-of-bounds (padding) array entry (index psc_K) in",
    "// the psc_K direction",
    "psc_ldata[psc_K][psc_LID_0].psc_value = psc_sum;"] ++
  p.common.segmented ["psc_l_first_segment_start_in_subtree[psc_LID_0] =", "psc_first_segment_start_in_k_group;"] ++
  ["local_barrier();"]

def distances (size : Nat) : List Nat := ((List.range (size + 1)).map (Nat.pow 2 ·)).takeWhile (· ≤ size)

def treeRound (distance : Nat) : List String :=
  let before := "psc_LID_0 - " ++ toString distance
  ["// \x7b\x7b\x7b reads from local allowed, writes to local not allowed",
    "if (psc_LID_0 >= " ++ toString distance ++ ")"] ++
  block (["psc_scan_type psc_tmp = psc_ldata[psc_K][" ++ before ++ "].psc_value;"] ++
    tail isTail ["if (psc_K*psc_LID_0 < psc_offset_end)"] ++
    block (["psc_val = psc_SCAN_EXPR(psc_tmp, psc_val,"] ++
      p.common.crossing ["(psc_l_first_segment_start_in_subtree[psc_LID_0]", "!= NO_SEG_BOUNDARY)"]) ++
    p.common.segmented ["// Prepare for psc_l_first_segment_start_in_subtree, below.",
      "// Note that this update must take place *even* if we're",
      "// out of bounds.",
      "psc_first_segment_start_in_subtree = min(",
      "psc_l_first_segment_start_in_subtree[psc_LID_0],",
      "psc_l_first_segment_start_in_subtree",
      "[" ++ before ++ "]);"]) ++
  p.common.segmented (["else"] ++ block ["psc_first_segment_start_in_subtree =",
    "psc_l_first_segment_start_in_subtree[psc_LID_0];"]) ++
  ["// \x7d\x7d\x7d", "local_barrier();", "// \x7b\x7b\x7b writes to local allowed, reads from local not allowed",
    "psc_ldata[psc_K][psc_LID_0].psc_value = psc_val;"] ++
  p.common.segmented ["psc_l_first_segment_start_in_subtree[psc_LID_0] =", "psc_first_segment_start_in_subtree;"] ++
  ["// \x7d\x7d\x7d", "local_barrier();"]

def treeLines : List String :=
  ["// \x7b\x7b\x7b tree-based local parallel scan", "// This tree-based scan works as follows:",
    "// - Each work item adds the previous item to its current state",
    "// - barrier",
    "// - Each work item adds in the item from two positions to the left",
    "// - barrier",
    "// - Each work item adds in the item from four positions to the left",
    "// ...",
    "// At the end, each item has summed all prior items.",
    "// across psc_k groups, along local id",
    "// (uses out-of-bounds psc_k=psc_K array entry for storage)",
    "psc_scan_type psc_val = psc_ldata[psc_K][psc_LID_0].psc_value;"] ++
  (distances p.shape.group).flatMap (p.treeRound isTail) ++
  ["pycl_printf((\"after tree scan\\n\"));", "// \x7d\x7d\x7d"]

def updateLines : List String :=
  ["// \x7b\x7b\x7b update local values", "if (psc_LID_0 > 0)"] ++
  block (["psc_sum = psc_ldata[psc_K][psc_LID_0 - 1].psc_value;"] ++ readLoop ++
    block (tail isTail ["if (psc_K * psc_LID_0 + psc_k < psc_offset_end)"] ++
      block (
        ["psc_scan_type psc_tmp = psc_ldata[psc_k][psc_LID_0].psc_value;",
          "psc_ldata[psc_k][psc_LID_0].psc_value = psc_SCAN_EXPR(psc_sum, psc_tmp,"] ++
        p.common.crossing ["(psc_unit_base + psc_K * psc_LID_0 + psc_k", ">= psc_first_segment_start_in_k_group)"]))) ++
  p.common.segmented (["if (psc_LID_0 == 0)"] ++ block ["// update interval-wide first-seg variable from current unit",
    "psc_first_segment_start_in_interval = min(",
    "psc_first_segment_start_in_interval,",
    "psc_l_first_segment_start_in_subtree[psc_WG_SIZE-1]);"]) ++
  ["pycl_printf((\"after local update\\n\"));", "// \x7d\x7d\x7d", "local_barrier();"]

def wordLines (start : Nat) : List String :=
  tail isTail ["if (" ++ toString start ++ " + psc_LID_0 <",
    "psc_scan_types_per_int*(psc_interval_end - psc_unit_base))"] ++
  block ["psc_index_type psc_linear_index = " ++ toString start ++ " + psc_LID_0;",
    "psc_index_type psc_linear_scan_data_idx =",
    "psc_linear_index / psc_scan_types_per_int;",
    "psc_index_type remainder =",
    "psc_linear_index - psc_linear_scan_data_idx * psc_scan_types_per_int;",
    "__local int *psc_src = (__local int *) &(",
    "psc_ldata",
    "[psc_linear_scan_data_idx % psc_K]",
    "[psc_linear_scan_data_idx / psc_K].psc_value);",
    "psc_dest[psc_linear_index] = psc_src[remainder];"]

def wordStarts : List Nat := (List.range (p.valueSize * p.shape.run / 4)).map (· * p.shape.group)

def writeLines : List String :=
  ["// \x7b\x7b\x7b write data"] ++
  (if p.storesWords then
    block (
      ["// work hard with index math to achieve contiguous 32-bit stores", "__global int *psc_dest =",
        "(__global int *) (psc_partial_scan_buffer + psc_unit_base);",
        "const psc_index_type psc_scan_types_per_int = " ++ toString (p.valueSize / 4) ++ ";"] ++
      p.wordStarts.flatMap (wordLines isTail))
  else
    ["for (psc_index_type psc_k = 0; psc_k < psc_K; psc_k++)"] ++
    block (["const psc_index_type psc_offset = psc_k*psc_WG_SIZE + psc_LID_0;"] ++
      tail isTail ["if (psc_unit_base + psc_offset < psc_interval_end)"] ++
      block ["pycl_printf((\"write: %d\\n\", psc_unit_base + psc_offset));",
        "psc_partial_scan_buffer[psc_unit_base + psc_offset] =",
        "psc_ldata[psc_offset % psc_K][psc_offset / psc_K].psc_value;"])) ++
  ["pycl_printf((\"after write\\n\"));", "// \x7d\x7d\x7d", "local_barrier();"]

def unitLines : List String :=
  [if isTail then "if (psc_unit_base < psc_interval_end)"
    else "for(; psc_unit_base + psc_unit_size <= psc_interval_end; psc_unit_base += psc_unit_size)"] ++
  block (p.fetchLines isTail ++ p.readLines isTail ++ p.carryLines ++ p.runLines isTail ++ p.treeLines isTail ++
    p.updateLines isTail ++ p.writeLines isTail)

def endLines : List String :=
  ["// write interval psc_sum"] ++
  if p.level == .first then
    ["if (psc_LID_0 == 0)"] ++
    block (["psc_interval_results[psc_GID_0] = psc_partial_scan_buffer[psc_interval_end - 1];"] ++
      p.common.segmented ["psc_g_first_segment_start_in_interval[psc_GID_0] =", "psc_first_segment_start_in_interval;"])
  else []

def signatureLines : List String :=
  signature p.arguments (fixedParameters p.indexType) (moreParameters p.level p.common.isSegmented p.storesStarts)
    fun q => if q == firstStarts then ["// NO_SEG_BOUNDARY if no segment boundary in interval."] else []

def text : String :=
  String.intercalate "\n" (p.common.lines p.shape.group ++
    ["#define psc_K " ++ toString p.shape.run, "// #define psc_DEBUG", "#ifdef psc_DEBUG",
      "#define pycl_printf(psc_ARGS) printf psc_ARGS",
      "#else",
      "#define pycl_printf(psc_ARGS) /* */",
      "#endif",
      "KERNEL",
      "REQD_WG_SIZE(psc_WG_SIZE, 1, 1)",
      "void " ++ p.name ++ "("] ++
    p.signatureLines ++
    block (p.declarations ++ p.unitLines false ++ p.unitLines true ++ p.endLines))

end IntervalParts

structure UpdateParts where
  common : CommonParts
  name : String
  groupSize : Nat
  arguments : List Parameter
  offsets : String
  neutral : String
  output : String
  /-- Whether the statement asks for the value before an element. -/
  looksBehind : Bool
  indexType : ElementType

namespace UpdateParts

def fixedParameters (index : ElementType) : List Parameter := sizeParameters index ++ [intervalResults, partialValues]

def moreParameters (isSegmented looksBehind : Bool) : List Parameter :=
  (if isSegmented then [firstStarts] else []) ++ (if isSegmented && looksBehind then [allStarts] else [])

variable (p : UpdateParts)

def outputLine : String := "\x7b " ++ p.output ++ "; \x7d"

def plainLoop : List String :=
  ["// \x7b\x7b\x7b no look-behind ('prev_item' not in output_statement -> simpler)",
    "psc_index_type psc_update_i = psc_interval_begin+psc_LID_0;"] ++
  p.common.segmented ["psc_index_type psc_seg_end = min(psc_first_seg_start_in_interval, psc_interval_end);"] ++
  ["for(; psc_update_i < psc_interval_end; psc_update_i += psc_WG_SIZE)"] ++
  block (
    ["psc_scan_type psc_partial_val = psc_partial_scan_buffer[psc_update_i];",
      "psc_scan_type item = psc_SCAN_EXPR(psc_carry, psc_partial_val,"] ++
    p.common.crossing ["(psc_update_i >= psc_seg_end)"] ++
    ["psc_index_type i = psc_update_i;", p.outputLine]) ++
  ["// \x7d\x7d\x7d"]

def behindLoop : List String :=
  ["// \x7b\x7b\x7b allow look-behind ('prev_item' in output_statement -> complicated)",
    "// We are not allowed to branch across barriers at a granularity smaller",
    "// than the whole workgroup. Therefore, the for loop is group-psc_global,",
    "// and there are lots of local ifs.",
    "psc_index_type psc_group_base = psc_interval_begin;",
    "psc_scan_type prev_item = psc_carry; // (A)",
    "for(; psc_group_base < psc_interval_end; psc_group_base += psc_WG_SIZE)"] ++
  block (
    ["psc_index_type psc_update_i = psc_group_base+psc_LID_0;", "// load a work group's worth of data",
      "if (psc_update_i < psc_interval_end)"] ++
    block (
      ["psc_scan_type psc_tmp = psc_partial_scan_buffer[psc_update_i];",
        "psc_tmp = psc_SCAN_EXPR(psc_carry, psc_tmp,"] ++
      p.common.crossing ["(psc_update_i >= psc_first_seg_start_in_interval)"] ++
      ["psc_ldata[psc_LID_0] = psc_tmp;"] ++
      p.common.segmented ["psc_l_segment_start_flags[psc_LID_0] = psc_g_segment_start_flags[psc_update_i];"]) ++
    ["local_barrier();", "// find prev_item", "if (psc_LID_0 != 0)", "prev_item = psc_ldata[psc_LID_0 - 1];", "/*",
      "else",
      "prev_item = psc_carry (see (A)) OR last tail (see (B));",
      "*/",
      "if (psc_update_i < psc_interval_end)"] ++
    block (p.common.segmented ["if (psc_l_segment_start_flags[psc_LID_0])", "prev_item = " ++ p.neutral ++ ";"] ++
      ["psc_scan_type item = psc_ldata[psc_LID_0];", "psc_index_type i = psc_update_i;", p.outputLine]) ++
    ["if (psc_LID_0 == 0)", "prev_item = psc_ldata[psc_WG_SIZE - 1]; // (B)", "local_barrier();"]) ++
  ["// \x7d\x7d\x7d"]

def bodyLines : List String :=
  [p.offsets] ++
  (if p.looksBehind then ["LOCAL_MEM psc_scan_type psc_ldata[psc_WG_SIZE];"] else []) ++
  (if p.looksBehind then p.common.segmented ["LOCAL_MEM char psc_l_segment_start_flags[psc_WG_SIZE];"] else []) ++
  ["const psc_index_type psc_interval_begin = psc_interval_size * psc_GID_0;",
    "const psc_index_type psc_interval_end = min(psc_interval_begin + psc_interval_size, N);",
    "// psc_carry from last interval",
    "psc_scan_type psc_carry = " ++ p.neutral ++ ";",
    "if (psc_GID_0 != 0)",
    "psc_carry = psc_interval_results[psc_GID_0 - 1];"] ++
  p.common.segmented ["const psc_index_type psc_first_seg_start_in_interval =",
    "psc_g_first_segment_start_in_interval[psc_GID_0];"] ++
  (if !p.common.isSegmented && Text.contains p.output "last_item" then
    ["psc_scan_type last_item = psc_interval_results[psc_GDIM_0-1];"] else []) ++
  (if p.looksBehind then p.behindLoop else p.plainLoop)

def text : String :=
  String.intercalate "\n" (p.common.lines p.groupSize ++
    ["KERNEL", "REQD_WG_SIZE(psc_WG_SIZE, 1, 1)", "void " ++ p.name ++ "("] ++
    signature p.arguments (fixedParameters p.indexType) (moreParameters p.common.isSegmented p.looksBehind)
      (fun _ => []) ++
    block p.bodyLines)

end UpdateParts

structure SerialParts where
  common : CommonParts
  name : String
  arguments : List Parameter
  offsets : String
  neutral : String
  output : String
  fetches : List (Fetch × String × Nat)

namespace SerialParts

def fetchedVariable : Fetch × String × Nat → List String
  | (f, type, _) =>
    [type ++ " " ++ f.name ++ ";"] ++
    if f.offset < 0 then ["if (i+" ++ toString f.offset ++ " >= 0)",
      f.name ++ " = " ++ f.argument ++ "[i+" ++ toString f.offset ++ "];"]
    else [f.name ++ " = " ++ f.argument ++ "[i];"]

def bodyLines (p : SerialParts) : List String :=
  ["psc_scan_type current = " ++ p.neutral ++ ";", "psc_scan_type psc_prev;", p.offsets,
    "for (psc_index_type i = 0; i < N; ++i)"] ++
  block (p.fetches.flatMap fetchedVariable ++
    ["psc_scan_type psc_my_val = psc_INPUT_EXPR(i);", "psc_prev = current;"] ++
    p.common.segmented ["bool psc_is_seg_start = psc_IS_SEG_START(i, psc_my_val);"] ++
    ["current = psc_SCAN_EXPR(psc_prev, psc_my_val,"] ++
    p.common.crossing ["psc_is_seg_start"] ++
    ["psc_scan_tmp[i] = current;"]) ++
  ["psc_scan_type last_item = psc_scan_tmp[N-1];", "for (psc_index_type i = 0; i < N; ++i)"] ++
  block (
    ["psc_scan_type item = psc_scan_tmp[i];", "psc_scan_type prev_item;", "if (i)", "prev_item = psc_scan_tmp[i-1];",
      "else",
      "prev_item = " ++ p.neutral ++ ";"] ++
    block [p.output ++ ";"])

def text (p : SerialParts) : String :=
  String.intercalate "\n" (p.common.lines 1 ++
    ["KERNEL", "REQD_WG_SIZE(1, 1, 1)", "void " ++ p.name ++ "(", "__global psc_scan_type *psc_scan_tmp,",
      argumentLine p.arguments,
      "const psc_index_type N)"] ++
    block p.bodyLines)

end SerialParts

end Scan

/-! ## Scans -/

structure ScanCode where
  type : ElementType
  arguments : ArgumentSource
  input : String
  scan : String
  neutral : Option String
  output : String
  segmentStart : Option String := none
  fetches : List Scan.Fetch := []
  indexType : ElementType := .number .int32
  name : String := "scan"
  options : List String := []
  preamble : String := ""
  devices : Option (List DeviceRef) := none
deriving Inhabited

namespace ScanCode

def looksBehind (c : ScanCode) : Bool := Text.contains c.output "prev_item"

def storesStarts (c : ScanCode) : Bool := c.segmentStart.isSome && c.looksBehind

end ScanCode

structure KernelSource where
  text : String
  name : String
  passed : List PassedType

namespace Scan

structure Sources where
  first : KernelSource
  second : KernelSource
  shape : GroupShape
  update : KernelSource
  updateGroup : Nat

structure Key where
  type : ElementType
  declarators : List String
  fragments : List (Option String)
  fetches : List Fetch
  index : ElementType
  typeNames : String × String
  devices : List (List String)
deriving DecidableEq

inductive Kernels where
  | levels (first second : KernelId) (shape : GroupShape) (update : KernelId) (updateGroup : Nat)
  | serial (kernel : KernelId)
deriving Inhabited

end Scan

structure ScanKernel where
  context : Context
  code : ScanCode
  devices : List DeviceRef
  arguments : List KernelArgument
  firstArray : Nat
  kernels : Scan.Kernels
deriving Inhabited

inductive Selection where
  | satisfying
  /-- The elements that satisfy a condition, and the others. -/
  | parting
  /-- The elements that differ from the one before. -/
  | distinct
deriving DecidableEq

structure SelectionKey where
  what : Selection
  count : ElementType
  item : ElementType
  condition : String
  preamble : String
  extra : List KernelArgument
deriving DecidableEq

end ClHost
