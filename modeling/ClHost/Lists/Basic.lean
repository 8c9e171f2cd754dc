import ClHost.CType.Declarator

/-!
# Building lists of lists

Each of a number of objects adds entries to some lists. A first kernel counts the entries, a scan turns the counts into
the places where the entries of each object start, and a second kernel writes the entries.
-/

namespace ClHost.Lists

inductive Stage where
  | count | write | starts | packing
deriving DecidableEq

inductive Phase where
  | counting | writing
deriving DecidableEq

structure Builder where
  context : Context
  devices : List DeviceRef
  lists : List (String × ElementType)
  /-- The function that adds the entries of an object. -/
  generate : String
  arguments : List KernelArgument
  sharing : List (String × String) := []
  name : String := "plb_build_list"
  options : List String := []
  preamble : String := ""
  isSingle : Bool := false
  isComplex : Bool := false
  packed : List String := []
deriving Inhabited

inductive Slot where
  | counts (list : String)
  | entries (list : String)
  | starts (list : String)
  | places (list : String)
deriving DecidableEq

namespace Builder

variable (b : Builder) (list : String)

def shares : Bool := b.sharing.any (·.1 == list)

def packs : Bool := b.packed.contains list

def counted : List (String × ElementType) := b.lists.filter fun l => !b.shares l.1

def writeSlotsOf : List Slot :=
  if b.shares list then [.entries list]
  else [.entries list, .starts list] ++ if b.packs list then [.places list] else []

/-- The slots that a kernel declares. -/
def slots : Phase → List Slot
  | .counting => b.counted.map fun l => .counts l.1
  | .writing => b.lists.flatMap fun l => b.writeSlotsOf l.1

def passedOf : List Slot :=
  [.entries list] ++ (if b.shares list then [] else [.starts list]) ++ if b.packs list then [.places list] else []

/-- The slots that a kernel is passed values for. -/
def passedSlots : Phase → List Slot
  | .counting => b.slots .counting
  | .writing => b.lists.flatMap fun l => b.passedOf l.1

def slotArgument (index : ElementType) : Slot → KernelArgument
  | .counts l => .vector index ("plb_" ++ l ++ "_count") false
  | .entries l => .vector (((b.lists.find? (·.1 == l)).map (·.2)).getD default) ("plb_" ++ l ++ "_list") false
  | .starts l => .vector index ("plb_" ++ l ++ "_start_index") false
  | .places l => .vector index (l ++ "_compressed_indices") false

def plainArguments : List KernelArgument :=
  b.arguments.map fun a => match a with
    | .vector t n true => .vector t n false
    | a => a

end Builder

structure SourceParts where
  phase : Phase
  builder : Builder
  hasDouble : Bool
  /-- Whether items must not be vectorized. -/
  isScalar : Bool
  indexName : String
  kernelLists : List String
  functionLists : List String
  listNames : List String
  listValues : List String
  arguments : List String
  plainArguments : List String
  offsets : String

namespace SourceParts

def listed (items : List String) : String := String.join (items.map (· ++ ", "))

variable (p : SourceParts) (list : String)

def kernelName : String :=
  p.builder.name ++ match p.phase with
    | .counting => "_count"
    | .writing => "_write"

def appendLine : String :=
  let start := "#define APPEND_" ++ list ++ "(value) "
  let mother := ((p.builder.sharing.find? (·.1 == list)).map (·.2))
  match p.phase, mother with
  | .counting, some _ => start ++ "\x7b /* nothing */ \x7d"
  | .counting, none => start ++ "\x7b ++(*plb_loc_" ++ list ++ "_count); \x7d"
  | .writing, some mother =>
    start ++ "                \x7b plb_" ++ list ++ "_list[(*plb_" ++ mother ++ "_index) - 1]" ++
      "                     = value; \x7d"
  | .writing, none =>
    start ++ "                \x7b plb_" ++ list ++ "_list[(*plb_" ++ list ++ "_index)++] = value; \x7d"

def macroLines : List String :=
  ["// \x7b\x7b\x7b declare helper macros for user interface", "typedef " ++ p.indexName ++ " index_type;",
    match p.phase with
      | .counting => "#define PLB_COUNT_STAGE"
      | .writing => "#define PLB_WRITE_STAGE"] ++
  p.builder.lists.map (fun l => p.appendLine l.1) ++
  ["#define LIST_ARG_DECL " ++ listed p.functionLists, "#define LIST_ARGS " ++ listed p.listNames,
    "#define USER_ARG_DECL " ++ listed p.plainArguments,
    "#define USER_ARGS " ++ listed (p.builder.plainArguments.map KernelArgument.name),
    "// \x7d\x7d\x7d"]

def loopLines : List String :=
  if p.isScalar then ["const int chunk_size = 128;", "index_type chunk_base = get_global_id(0)*chunk_size;",
    "index_type gsize = get_global_size(0);",
    "for (; chunk_base < n; chunk_base += gsize*chunk_size)",
    "for (index_type i = chunk_base; i < min(n, chunk_base+chunk_size); ++i)"]
  else ["int lid = get_local_id(0);", "index_type gsize = get_global_size(0);",
    "index_type work_group_start = get_local_size(0)*get_group_id(0);",
    "for (index_type i = work_group_start + lid; i < n; i += gsize)"]

def variableLines : List String :=
  match p.phase with
  | .counting => ["index_type plb_loc_" ++ list ++ "_count = 0;"]
  | .writing =>
    ["index_type plb_" ++ list ++ "_index;", "if (plb_" ++ list ++ "_start_index)"] ++
    (if p.builder.packs list then ["plb_" ++ list ++ "_index =", "plb_" ++ list ++ "_start_index[",
        list ++ "_compressed_indices[i]",
        "];"]
      else ["plb_" ++ list ++ "_index = plb_" ++ list ++ "_start_index[i];"]) ++
    ["else", "plb_" ++ list ++ "_index = 0;"]

def countLines : List String :=
  ["if (plb_" ++ list ++ "_count)", "plb_" ++ list ++ "_count[i] = plb_loc_" ++ list ++ "_count;"]

def text : String :=
  String.intercalate "\n" (["//CL//"] ++
    (if p.hasDouble then ["#if __OPENCL_C_VERSION__ < 120", "#pragma OPENCL EXTENSION cl_khr_fp64: enable", "#endif",
      "#define PYOPENCL_DEFINE_CDOUBLE"] else []) ++
    ["#include <pyopencl-complex.h>", p.builder.preamble] ++
    p.macroLines ++
    [p.builder.generate, "// \x7b\x7b\x7b kernel entry point", "__kernel"] ++
    (if p.isScalar then ["__attribute__((reqd_work_group_size(1, 1, 1)))"] else []) ++
    ["void " ++ p.kernelName ++ "(", listed p.kernelLists ++ " " ++ listed p.arguments ++ " index_type n)", "\x7b"] ++
    p.loopLines ++
    ["\x7b"] ++
    p.builder.counted.flatMap (fun l => p.variableLines l.1) ++
    [p.offsets, "generate(" ++ listed p.listValues ++ " USER_ARGS i);"] ++
    (if p.phase == .counting then p.builder.counted.flatMap (fun l => countLines l.1) else []) ++
    ["\x7d", "\x7d", "// \x7d\x7d\x7d", ""])

end SourceParts

end ClHost.Lists
