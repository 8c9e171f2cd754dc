import ClHost.CType.Declarator

/-!
# Radix sorting

Keys are sorted by some of their bits at a time, from the lowest to the highest.
-/

namespace ClHost.Radix

def binaryDigits (n : Nat) : List Bool :=
  if _h : n = 0 then [] else binaryDigits (n / 2) ++ [n % 2 == 1]
termination_by n
decreasing_by omega

def digitText (digits : List Bool) : String := String.ofList (digits.map fun d => if d then '1' else '0')

def binary (n : Nat) : String := digitText (binaryDigits n)

def padded (n width : Nat) : String :=
  let digits := binaryDigits n
  digitText (List.replicate (width - digits.length) false ++ digits)

def ofDigits (digits : List Bool) : Nat := digits.foldl (fun n d => 2 * n + (if d then 1 else 0)) 0

/-- The choice of a field by a number: a field, or a bound below which the choice goes on in the first part
and else in the second. -/
inductive Branch where
  | field (digits : List Bool)
  | split (bound : Nat) (low high : Branch)

namespace Branch

def choose (known : List Bool) : Nat → Branch
  | 0 => .field known
  | left + 1 =>
    .split (ofDigits (known ++ true :: List.replicate left false)) (choose (known ++ [false]) left)
      (choose (known ++ [true]) left)

def text : Branch → String
  | field digits => "s.c" ++ digitText digits
  | split bound low high => "((mnr < " ++ toString bound ++ ") ? " ++ low.text ++ " : " ++ high.text ++ ")"

def select (n : Nat) : Branch → List Bool
  | field digits => digits
  | split bound low high => if n < bound then low.select n else high.select n

end Branch

structure Parts where
  bits : Nat
  keyName : String
  indexName : String
  scanName : String
  key : String
  names : List String

namespace Parts

variable (p : Parts)

def bins : List (Nat × String) := (List.range (Nat.pow 2 p.bits)).map fun n => (n, "c" ++ padded n p.bits)

def typeLines : List String := ["//CL//", "typedef " ++ p.scanName ++ " scan_t;", "typedef " ++ p.keyName ++ " key_t;",
  "typedef " ++ p.indexName ++ " index_t;",
  "// #define DEBUG",
  "#ifdef DEBUG",
  "#define dbg_printf(ARGS) printf ARGS",
  "#else",
  "#define dbg_printf(ARGS) /* */",
  "#endif",
  "index_t get_count(scan_t s, int mnr)",
  "\x7b",
  "return " ++ (Branch.choose [] p.bits).text ++ ";",
  "\x7d",
  "#define BIN_NR(key_arg) ((key_arg >> base_bit) & " ++ toString (Nat.pow 2 p.bits - 1) ++ ")",
  ""]

def scanLines : List String :=
  ["//CL//", "scan_t scan_t_neutral()", "\x7b", "scan_t result;"] ++
  p.bins.map (fun b => "result." ++ b.2 ++ " = 0;") ++
  ["return result;", "\x7d", "// considers bits (base_bit+bits-1, ..., base_bit)", "scan_t scan_t_from_value(",
    "key_t key,",
    "int base_bit,",
    "int i",
    ")",
    "\x7b",
    "// extract relevant bit range",
    "key_t bin_nr = BIN_NR(key);",
    "dbg_printf((\"i: %d key:%d bin_nr:%d\\n\", i, key, bin_nr));",
    "scan_t result;"] ++
  p.bins.map (fun b => "result." ++ b.2 ++ " = (bin_nr == " ++ toString b.1 ++ ");") ++
  ["return result;", "\x7d", "scan_t scan_t_add(scan_t a, scan_t b, bool across_seg_boundary)", "\x7b"] ++
  p.bins.map (fun b => "b." ++ b.2 ++ " = a." ++ b.2 ++ " + b." ++ b.2 ++ ";") ++
  ["return b;", "\x7d", ""]

/-- The statement that puts an element to its place: after all elements of lower bins, and after those of its
own bin that come before it. -/
def output : String :=
  String.intercalate "\n" (
    ["//CL//", "\x7b", "key_t key = " ++ p.key ++ ";", "key_t my_bin_nr = BIN_NR(key);",
      "index_t previous_bins_size = 0;"] ++
    p.bins.flatMap (fun b => ["previous_bins_size +=", "(my_bin_nr > " ++ toString b.1 ++ ")", "? last_item." ++ b.2,
      ": 0;"]) ++
    ["index_t tgt_idx =", "previous_bins_size", "+ get_count(item, my_bin_nr) - 1;"] ++
    p.names.map (fun n => "sorted_" ++ n ++ "[tgt_idx] = " ++ n ++ "[i];") ++
    ["\x7d", ""])

def preamble : String := String.intercalate "\n" p.typeLines ++ String.intercalate "\n" p.scanLines

end Parts

structure Sorter where
  arguments : List KernelArgument
  names : List String
  bits : Nat
  keyType : ElementType
  scan : Nat
  leadArray : Nat
deriving Inhabited

def passes (bits keyBits : Nat) : List Nat :=
  if bits == 0 then [] else (List.range ((keyBits + bits - 1) / bits)).map (· * bits)

namespace Sorter

def scanArguments (arguments : List KernelArgument) (names : List String) : List KernelArgument :=
  arguments ++
  arguments.filterMap (fun a => match a.type? with
    | some t => if names.contains a.name then some (.vector t ("sorted_" ++ a.name) false) else none
    | none => none) ++
  [.scalar (.number .int32) "base_bit"]

def sortedOf {α : Type} (s : Sorter) (args : List α) : List α :=
  ((s.arguments.zip args).filter fun p => s.names.contains p.1.name).map (·.2)

/-- The values of the next pass: each sorted argument takes the array at the position of its name among the
names of sorted arrays. -/
def substitute {α : Type} (s : Sorter) (args sorted : List α) : Option (List α) :=
  (s.arguments.zip args).mapM fun (a, v) =>
    if s.names.contains a.name then sorted[s.names.idxOf a.name]? else some v

end Sorter

/-- What sorts values by keys and finds where each key starts: a sort, an elementwise operation that marks the
first element of each key, and a scan that fills in keys without elements. -/
structure KeyedKernels where
  sorter : Nat
  finder : Nat
  filler : Nat

structure KeyedTypes where
  key : ElementType
  value : ElementType
  starts : ElementType
  isClass : Bool
deriving DecidableEq

structure KeyedSorter where
  context : Context
  kernels : List (KeyedTypes × KeyedKernels) := []
deriving Inhabited

def literalText (n : Int) (isWide isSigned : Bool) : String :=
  toString n ++ (if isWide then "l" else "") ++ (if isSigned then "u" else "")

end ClHost.Radix
