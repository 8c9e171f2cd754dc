import ClHost.Element.Basic

/-!
# Random numbers from counters

A generator turns a key and a counter into random bits. The work items of a fill have different keys, and each of them
counts on from the counter of the generator.
-/

namespace ClHost.Random

inductive Method where
  | philox
  | threefry
deriving DecidableEq, Inhabited

namespace Method

def name : Method → String
  | philox => "philox"
  | threefry => "threefry"

def className : Method → String
  | philox => "PhiloxGenerator"
  | threefry => "ThreefryGenerator"

/-- The number of words of a key, of which the first one is the number of the work item. -/
def keyLength : Method → Nat
  | philox => 2
  | threefry => 4

end Method

inductive Distribution where
  | uniform
  | normal
deriving DecidableEq

namespace Distribution

def name : Distribution → String
  | uniform => "uniform"
  | normal => "normal"

def transform : Distribution → String
  | uniform => ""
  | normal => "box_muller"

end Distribution

/-- How numbers of a type are made of random bits. -/
structure Recipe where
  typeName : String
  expression : String
  /-- How often the expression counts on. -/
  draws : Nat
  passed : Primitive
  lanes : Nat := 1
deriving DecidableEq

variable (m : Method) (d : Distribution)

def recipe (t : ElementType) : Result Recipe :=
  let scaled (s : String) := "shift + scale * " ++ d.transform ++ "(" ++ s ++ ")"
  let single (lanes : Nat) : Recipe :=
    ⟨"float", scaled "((float) 2.3283064365386963e-10) * convert_float4(gen)", 1, .float32, lanes⟩
  match d, t with
  | _, .number .float64 => .ok ⟨"double", scaled (" ((double) 2.3283064365386963e-10) * convert_double4(gen)" ++
      "+ ((double) 5.421010862427522e-20) * convert_double4(gen)"), 2, .float64, 1⟩
  | _, .number .float32 => .ok (single 1)
  | _, .vector .float32 2 => .ok (single 2)
  | _, .vector .float32 3 => .ok (single 3)
  | _, .vector .float32 4 => .ok (single 4)
  | .uniform, .number .int32 =>
    .ok ⟨"int", "shift + convert_int4((convert_long4(gen) * scale) / 4294967296l)", 1, .int32, 1⟩
  | .uniform, .number .int64 => .ok ⟨"long", "shift+ convert_long4(gen) * (scale/4294967296l) " ++
      "+ ((convert_long4(gen) * scale) / 4294967296l)", 2, .int64, 1⟩
  | _, _ => .error (.told .type ("unsupported RNG distribution/data type combination '" ++ d.name ++ "/" ++ t.text ++ "'"))

def kernelName : String := "rng_gen_" ++ m.name ++ "4x32_" ++ d.name

def text (r : Recipe) : String :=
  let length := toString m.keyLength
  let pad := String.ofList (List.replicate 21 ' ')
  String.intercalate "\n" ["//CL//", "#include <pyopencl-random123/" ++ m.name ++ ".cl>",
    "#ifndef M_PI", "#ifdef M_PI_F", "#define M_PI M_PI_F", "#else", "#define M_PI 3.14159265359f", "#endif", "#endif",
    "typedef " ++ r.typeName ++ " output_t;",
    "typedef " ++ r.typeName ++ "4 output_vec_t;",
    "typedef " ++ m.name ++ "4x32_ctr_t ctr_t;",
    "typedef " ++ m.name ++ "4x32_key_t key_t;",
    "uint4 gen_bits(key_t *key, ctr_t *ctr)", "\x7b",
    "union \x7b", "ctr_t ctr_el;", "uint4 vec_el;", "\x7d u;",
    "u.ctr_el = " ++ m.name ++ "4x32(*ctr, *key);",
    "if (++ctr->v[0] == 0)", "if (++ctr->v[1] == 0)", "++ctr->v[2];",
    "return u.vec_el;", "\x7d",
    "#if " ++ (if d == .normal then "1" else "0"),
    "output_vec_t box_muller(output_vec_t x)", "\x7b",
    "#define BOX_MULLER(I, COMPA, COMPB)" ++ pad ++ "output_t r##I = sqrt(-2*log(x.COMPA));" ++ pad ++ "output_t c##I;" ++ pad ++
      "output_t s##I = sincos((output_t) (2*M_PI) * x.COMPB, &c##I);",
    "BOX_MULLER(0, x, y);", "BOX_MULLER(1, z, w);",
    "return (output_vec_t) (r0*c0, r0*s0, r1*c1, r1*s1);", "\x7d", "#endif",
    "#define GET_RANDOM_NUM(gen) " ++ r.expression,
    "kernel void " ++ kernelName m d ++ "(",
    "int k1,", "#if " ++ length ++ " > 2", "int k2, int k3,", "#endif",
    "int c0, int c1, int c2, int c3,", "global output_t *output,", "long out_size,",
    "output_t scale,", "output_t shift)", "\x7b",
    "#if " ++ length ++ " == 2", "key_t k = \x7b\x7bget_global_id(0), k1\x7d\x7d;",
    "#else", "key_t k = \x7b\x7bget_global_id(0), k1, k2, k3\x7d\x7d;", "#endif",
    "ctr_t c = \x7b\x7bc0, c1, c2, c3\x7d\x7d;",
    "// output bulk", "unsigned long idx = get_global_id(0)*4;", "while (idx + 4 < out_size)", "\x7b",
    "output_vec_t ran = GET_RANDOM_NUM(gen_bits(&k, &c));", "vstore4(ran, 0, &output[idx]);",
    "idx += 4*get_global_size(0);", "\x7d",
    "// output tail", "output_vec_t tail_ran = GET_RANDOM_NUM(gen_bits(&k, &c));",
    "if (idx < out_size)", "output[idx] = tail_ran.x;",
    "if (idx+1 < out_size)", "output[idx+1] = tail_ran.y;",
    "if (idx+2 < out_size)", "output[idx+2] = tail_ran.z;",
    "if (idx+3 < out_size)", "output[idx+3] = tail_ran.w;", "\x7d"]

/-! ## Generators -/

structure Counter where
  low : Int
  middle : Int
  high : Int
  last : Int
deriving DecidableEq, Inhabited

/-- The host carries at the largest number of a word with a sign, the work items at the number of all words. -/
def modulus : Int := 2147483647

def Counter.advance (c : Counter) (n : Int) : Counter :=
  let low := c.low + n
  let carry := low / modulus
  if carry == 0 then { c with low := low % modulus }
  else
    let middle := c.middle + carry
    { c with low := low % modulus, middle := middle % modulus, high := c.high + middle / modulus }

structure Generator where
  context : Context
  method : Method
  key : List Int
  counter : Counter
  kernels : List ((Distribution × ElementType) × KernelId) := []
deriving Inhabited

end ClHost.Random
