import ClHost.Element.Basic

/-!
# Bitonic sorts

A bitonic sort compares and exchanges elements at distances that do not depend on what they hold. Each of its kernels
is made for a distance, a direction and the extents of the array.
-/

namespace ClHost.Bitonic

/-! ## The schedule of a bitonic sort -/

/-- A launch that compares and exchanges: so many rounds, the first one at a distance and each further one at half of
it. -/
structure Exchange where
  rounds : Nat
  distance : Nat
  direction : Nat
deriving DecidableEq

def roundsFrom (distance : Nat) : Nat :=
  if 8 ≤ distance then 4 else if 4 ≤ distance then 3 else if 2 ≤ distance then 2 else 1

theorem roundsFrom_pos (d : Nat) : 0 < roundsFrom d := by
  unfold roundsFrom
  repeat' split
  all_goals omega

theorem shift_roundsFrom_lt {d : Nat} (h : d ≠ 0) : d >>> roundsFrom d < d := by
  rw [Nat.shiftRight_eq_div_pow]
  exact Nat.div_lt_self (by omega) (Nat.one_lt_two_pow (Nat.pos_iff_ne_zero.mp (roundsFrom_pos d)))

def merge (direction distance : Nat) : List Exchange :=
  if h : distance = 0 then []
  else
    have := shift_roundsFrom_lt h
    ⟨roundsFrom distance, distance, direction⟩ :: merge direction (distance >>> roundsFrom distance)
termination_by distance

def merges (extent length : Nat) : List Exchange :=
  if _h : length = 0 ∨ extent ≤ length then []
  else merge (2 * length) length ++ merges extent (2 * length)
termination_by extent - length
decreasing_by omega

def schedule (group extent : Nat) : List Exchange := merges extent (group / 2)

structure Step where
  rounds : Option Nat
  distance : Nat
  direction : Nat
  items : Nat
  group : Option Nat
deriving DecidableEq

def runQueue (group extent elements : Nat) : List Step :=
  ⟨none, 1, 1, elements, some group⟩ ::
    (schedule group extent).map fun x => ⟨some x.rounds, x.distance, x.direction, elements >>> x.rounds, none⟩

def reservedBytes : Nat := 512

def fitGroup (available elementBytes group : Nat) : Option Nat :=
  if _h : group = 0 then none
  else if group * elementBytes + reservedBytes ≤ available then some group
  else fitGroup available elementBytes (group / 2)
termination_by group
decreasing_by omega

/-! ## Sources of bitonic sort kernels -/

structure Parts where
  distance : Nat
  direction : Nat
  typeName : String
  indexName : String
  /-- The length of the axis that is sorted. -/
  extent : Nat
  /-- The number of elements below one position of that axis. -/
  inner : Nat
  hasIndex : Bool
deriving DecidableEq

namespace Parts

variable (p : Parts) (rounds : Nat)

def indexed (lines : List String) : List String := if p.hasIndex then lines else []

/-- Lines for kernels with an array of indices, and for those without one. -/
def either (withIndex without : List String) : List String := if p.hasIndex then withIndex else without

def groupMacros : List String :=
  let args := if p.hasIndex then "x,y" else "x"
  let pad (s : String) : String := if p.hasIndex then s else ""
  let wide (n half : Nat) (blank : String) : String :=
    let v := "i" ++ toString n
    let h := toString half
    "#define B" ++ toString n ++ "V(" ++ args ++ ",a)" ++ blank ++ " \x7b for (int " ++ v ++ "=0;" ++ v ++ "<" ++ h ++ ";" ++ v ++
      "++) \x7b ORDERV(" ++ args ++ ",a+" ++ v ++ ",a+" ++ v ++ "+" ++ h ++ ") \x7d B" ++ h ++ "V(" ++ args ++ ",a) B" ++ h ++ "V(" ++
      args ++ ",a+" ++ h ++ ") \x7d"
  ["#define B2V(" ++ args ++ ",a)" ++ pad " " ++ " \x7b ORDERV(" ++ args ++ ",a,a+1) \x7d",
    wide 4 2 (pad " "), wide 8 4 (pad " "), wide 16 8 ""]

def orderMacros : List String :=
  p.either ["#define ORDER(a,b,ay,by) \x7b bool swap = reverse ^ (getKey(a)<getKey(b));\\",
    "data_t auxa = a; data_t auxb = b;\\",
    "idx_t auya = ay; idx_t auyb = by;\\",
    "a = (swap)?auxb:auxa; b = (swap)?auxa:auxb;\\",
    "ay = (swap)?auyb:auya; by = (swap)?auya:auyb;\x7d",
    "#define ORDERV(x,y,a,b) \x7b bool swap = reverse ^ (getKey(x[a])<getKey(x[b]));\\",
    "data_t auxa = x[a]; data_t auxb = x[b];\\",
    "idx_t auya = y[a]; idx_t auyb = y[b];\\",
    "x[a] = (swap)?auxb:auxa; x[b] = (swap)?auxa:auxb;\\",
    "y[a] = (swap)?auyb:auya; y[b] = (swap)?auya:auyb;\x7d"]
  [
    "#define ORDER(a,b) \x7b bool swap = reverse ^ (getKey(a)<getKey(b)); data_t auxa = a; data_t auxb = b; " ++
      "a = (swap)?auxb:auxa; b = (swap)?auxa:auxb; \x7d",
    "#define ORDERV(x,a,b) \x7b bool swap = reverse ^ (getKey(x[a])<getKey(x[b]));\\",
    "data_t auxa = x[a]; data_t auxb = x[b];\\",
    "x[a] = (swap)?auxb:auxa; x[b] = (swap)?auxa:auxb; \x7d"]

def definitions : List String :=
  ["//CL//  # noqa"] ++
  (if p.typeName == "double" then ["#if __OPENCL_C_VERSION__ < 120", "#pragma OPENCL EXTENSION cl_khr_fp64: enable",
    "#endif"] else []) ++
  ["typedef " ++ p.typeName ++ " data_t;", "typedef " ++ p.indexName ++ " idx_t;", "#if CONFIG_USE_VALUE",
    "#define getKey(a) ((a).x)",
    "#define getValue(a) ((a).y)",
    "#define makeData(k,v) ((" ++ p.typeName ++ "2)((k),(v)))",
    "#else",
    "#define getKey(a) (a)",
    "#define getValue(a) (0)",
    "#define makeData(k,v) (k)",
    "#endif",
    "#ifndef BLOCK_FACTOR",
    "#define BLOCK_FACTOR 1",
    "#endif",
    "#define inc  " ++ toString p.distance,
    "#define hinc " ++ toString (p.distance / 2) ++ " //Half inc",
    "#define qinc " ++ toString (p.distance / 4) ++ " //Quarter inc",
    "#define einc " ++ toString (p.distance / 8) ++ " //Eighth of inc",
    "#define dir  " ++ toString p.direction] ++
  p.orderMacros ++ p.groupMacros ++
  ["#define nsize " ++ toString p.inner ++ "   //Total next dimensions sizes sum. (Block size)",
    "#define dsize " ++ toString p.extent ++ "   //Dimension size"]

def exchangeHead : List String :=
  let count := toString (Nat.pow 2 rounds)
  let step := ["", "inc", "hinc", "qinc", "einc"].getD rounds ""
  let zeros := String.ofList (List.replicate rounds '0')
  let shift := "(dsize>>" ++ toString rounds ++ ")"
  ["//CL//", "// N/" ++ count ++ " threads", "//ParallelBitonic_B" ++ count,
    "__kernel void run(__global data_t * data" ++ (if p.hasIndex then ", __global idx_t * index)" else ")"),
    "\x7b",
    "int t  = get_global_id(0) % " ++ shift ++ "; // thread index",
    "int gt = get_global_id(0) / " ++ shift ++ ";",
    "int low = t & (" ++ step ++ " - 1); // low order bits (below INC)"] ++
  (if rounds == 1 then ["int i = (t<<1) - low; // insert 0 at position INC", "int gi = i/dsize; // block index",
      "bool reverse = ((dir & i) == 0);// ^ (gi%2); // asc/desc order"]
    else ["int i = ((t - low) << " ++ toString rounds ++ ") + low; // insert " ++ zeros ++ " at position INC",
      "bool reverse = ((dir & i) == 0); // asc/desc order"]) ++
  ["int offset = (gt/nsize)*nsize*dsize+(gt%nsize);", "data  += i*nsize + offset; // translate to first value"] ++
  p.indexed ["index += i*nsize + offset; // translate to first value"]

/-- The positions of the elements of an item that handles a few in variables: as they are read, and as they
are written where that is spelled differently. -/
def places : Nat → List (String × String)
  | 1 => [("  0", "0  "), ("inc*nsize", "inc*nsize")]
  | _ => [("     0", "     0"), ("  hinc*nsize", "  hinc*nsize"), ("2*hinc*nsize", "2*hinc*nsize"),
      ("3*hinc*nsize", "3*hinc*nsize")]

def pairs : Nat → List (Nat × Nat)
  | 1 => [(0, 1)]
  | _ => [(0, 2), (1, 3), (0, 1), (2, 3)]

def variableBody : List String :=
  let numbered := (places rounds).zip ((List.range (Nat.pow 2 rounds)).map toString)
  let load (type name array : String) := numbered.map fun ((read, _), n) =>
    type ++ " " ++ name ++ n ++ " = " ++ array ++ "[" ++ read ++ "];"
  let order := (pairs rounds).map fun (a, b) =>
    let (a, b) := (toString a, toString b)
    "ORDER(x" ++ a ++ ",x" ++ b ++ (if p.hasIndex then ",i" ++ a ++ ",i" ++ b else "") ++ ")"
  ["// Load data"] ++ load "data_t" "x" "data" ++
  p.indexed (["// Load index"] ++ load "idx_t" "i" "index") ++
  ["// Sort"] ++ order ++
  ["// Store data"] ++ numbered.map (fun ((_, write), n) => "data[" ++ write ++ "] = x" ++ n ++ ";") ++
  p.indexed (["// Store index"] ++ numbered.map fun ((read, _), n) => "index[" ++ read ++ "] = i" ++ n ++ ";")

def arrayBody : List String :=
  let count := toString (Nat.pow 2 rounds)
  let step := if rounds == 3 then "qinc" else "einc"
  let loop := "for (int k=0;k<" ++ count ++ ";k++) "
  let place := "[k*" ++ step ++ "*nsize]"
  ["// Load", "data_t x[" ++ count ++ "];"] ++
  p.indexed ["idx_t y[" ++ count ++ "];"] ++
  [loop ++ "x[k] = data" ++ place ++ ";"] ++
  p.indexed [loop ++ "y[k] = index" ++ place ++ ";"] ++
  ["// Sort", "B" ++ count ++ "V(" ++ (if p.hasIndex then "x,y,0)" else "x,0)"), "// Store",
    loop ++ "data" ++ place ++ " = x[k];"] ++
  p.indexed [loop ++ "index" ++ place ++ " = y[k];"]

def exchangeLines : List String :=
  p.exchangeHead rounds ++ (if rounds ≤ 2 then p.variableBody rounds else p.arrayBody rounds) ++ ["\x7d"]

def blockLines : List String :=
  ["//CL//  # noqa",
    "__kernel void run" ++ (if p.hasIndex
      then "(__global data_t * data, __global idx_t * index, __local data_t * aux, __local idx_t * auy)"
      else "(__global data_t * data, __local data_t * aux)"),
    "\x7b",
    "int t  = get_global_id(0) % dsize; // thread index",
    "int gt = get_global_id(0) / dsize;",
    "int offset = (gt/nsize)*nsize*dsize+(gt%nsize);",
    "int i = get_local_id(0); // index in workgroup",
    "int wg = get_local_size(0); // workgroup size = block size, power of 2",
    "// Move IN, OUT to block start",
    "//int offset = get_group_id(0) * wg;",
    "data += offset;",
    "// Load block in AUX[WG]",
    "data_t iData = data[t*nsize];",
    "aux[i] = iData;"] ++
  p.indexed ["index += offset;", "// Load block in AUY[WG]", "idx_t iidx = index[t*nsize];", "auy[i] = iidx;"] ++
  ["barrier(CLK_LOCAL_MEM_FENCE); // make sure AUX is entirely up to date", "// Loop on sorted sequence length",
    "for (int pwg=1;pwg<=wg;pwg<<=1)\x7b",
    "int loffset = pwg*(i/pwg);",
    "int ii = i%pwg;",
    "for (int length=1;length<pwg;length<<=1)\x7b",
    "bool direction = ii & (length<<1); // direction of sort: 0=asc, 1=desc",
    "// Loop on comparison distance (between keys)",
    "for (int pinc=length;pinc>0;pinc>>=1)\x7b",
    "int j = ii ^ pinc; // sibling to compare",
    "data_t jData = aux[loffset+j];"] ++
  p.indexed ["idx_t jidx = auy[loffset+j];"] ++
  ["data_t iKey = getKey(iData);", "data_t jKey = getKey(jData);",
    "bool smaller = (jKey < iKey) || ( jKey == iKey && j < ii );",
    "bool swap = smaller ^ (ii>j) ^ direction;",
    "iData = (swap)?jData:iData; // update iData"] ++
  p.indexed ["iidx = (swap)?jidx:iidx; // update iidx"] ++
  ["barrier(CLK_LOCAL_MEM_FENCE);", "aux[loffset+ii] = iData;"] ++
  p.indexed ["auy[loffset+ii] = iidx;"] ++
  ["barrier(CLK_LOCAL_MEM_FENCE);", "\x7d", "\x7d", "\x7d", "// Write output", "data[t*nsize] = iData;"] ++
  p.indexed ["index[t*nsize] = iidx;"] ++
  ["\x7d"]

def text (rounds : Option Nat) : String :=
  String.intercalate "\n" (p.definitions ++ match rounds with
    | some r => p.exchangeLines r
    | none => p.blockLines)

end Parts

/-! ## Bitonic sorts -/

structure Problem where
  keyType : ElementType
  indexType : Option ElementType
  shape : List Int
  axis : Int
deriving DecidableEq

structure Launch where
  kernel : KernelId
  items : Nat
  group : Option Nat

def localSizes (group keySize : Nat) (indexSize : Option Nat) : List Nat :=
  match indexSize with
  | some n => [group * keySize, group * n]
  | none => [group * 4 * keySize]

structure Sorter where
  context : Context
  programs : List ((Option Nat × Parts) × Nat) := []
  plans : List (Problem × List Launch) := []
deriving Inhabited

end ClHost.Bitonic
