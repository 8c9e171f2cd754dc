import ClHost.Element.Basic

/-!
# Element types and arguments in kernel source

A registry binds names of the kernel language to element types, and each type to the first name under which it became
known. An argument is declared as in C: a type, a name, and a star or brackets for a pointer.
-/

namespace ClHost

mutual

def ElementType.plain : ElementType → ElementType
  | .record fields size _ => .record (FieldList.plain fields) size false
  | t => t

def FieldList.plain : FieldList → FieldList
  | .nil => .nil
  | .cons name offset type rest => .cons name offset type.plain rest.plain

end

def ElementType.same (a b : ElementType) : Bool := decide (a.plain = b.plain)

inductive TypeKey where
  | type (t : ElementType)
  | text (s : String)
deriving DecidableEq

structure TypeRegistry where
  types : List (String × ElementType) := []
  names : List (TypeKey × String) := []

namespace TypeRegistry

variable (r : TypeRegistry) (t : ElementType)

def type? (name : String) : Option ElementType := (r.types.find? (fun e => e.1 == name)).map (·.2)

def name? : Option String :=
  (r.names.find? (fun e => match e.1 with | .type u => u.same t | .text _ => false)).map (·.2)

def agree (r : TypeRegistry) (t : ElementType) : List String → Result Unit
  | [] => .ok ()
  | n :: ns =>
    match r.type? n with
    | none => .error (.bare .key)
    | some u => if u.same t then r.agree t ns else .error (.bare .assertion)

def lookup : List String → Result ElementType
  | [] => .error (.bare .value)
  | n :: ns =>
    match r.type? n with
    | none => .error (.bare .key)
    | some t => do
      r.agree t ns
      return t

def bind (name : String) (t : ElementType) : Result TypeRegistry :=
  match r.type? name with
  | none => .ok { r with types := r.types ++ [(name, t)] }
  | some u =>
    if u.same t then .ok r
    else .error (.told .runtime ("name '" ++ name ++ "' already registered to different dtype"))

def bindAll (r : TypeRegistry) (t : ElementType) : List String → TypeRegistry × Result Unit
  | [] => (r, .ok ())
  | n :: ns =>
    match r.bind n t with
    | .ok r' => r'.bindAll t ns
    | .error e => (r, .error e)

def settled : Result (Option ElementType) :=
  match r.name? t with
  | none => .ok none
  | some n =>
    match r.type? n with
    | none => .error (.bare .key)
    | some u => if u.same t then .ok (some u) else .error (.bare .assertion)

def file (isKnown : Bool) (t : ElementType) (name : String) : TypeRegistry :=
  let r := if isKnown then r else { r with names := r.names ++ [(.type t, name)] }
  if r.names.any (fun e => e.1 == .text t.text) then r else { r with names := r.names ++ [(.text t.text, name)] }

/-- Registers a type under names, the first of which becomes its name if it is new. -/
def register (names : List String) (t : ElementType) : TypeRegistry × Result ElementType :=
  match r.settled t with
  | .error e => (r, .error e)
  | .ok known =>
    let t := known.getD t
    match r.bindAll t names with
    | (r, .error e) => (r, .error e)
    | (r, .ok ()) =>
      match names with
      | [] =>
        -- without a name only a type that is known with its text needs none
        let hasText := r.names.any (fun e => e.1 == .text t.text)
        if known.isSome && hasText then (r, .ok t) else (r, .error (.bare .index))
      | first :: _ => (r.file known.isSome t first, .ok t)

def typeName : Result String :=
  match r.name? t with
  | some s => .ok s
  | none => .error (.told .value ("unable to map dtype '" ++ t.text ++ "'"))

def fill (r : TypeRegistry) (entries : List (List String × ElementType)) : TypeRegistry × Result Unit :=
  match entries with
  | [] => (r, .ok ())
  | (names, t) :: rest =>
    match r.register names t with
    | (r, .ok _) => r.fill rest
    | (r, .error e) => (r, .error e)

def kernelTypes : List (List String × ElementType) :=
  [(["char", "signed char"], .number .int8), (["uchar", "unsigned char"], .number .uint8),
    (["short", "signed short", "signed short int", "short signed int"], .number .int16),
    (["ushort", "unsigned short", "unsigned short int", "short unsigned int"], .number .uint16),
    (["int", "signed int"], .number .int32),
    (["uint", "unsigned", "unsigned int"], .number .uint32),
    (["long", "long int", "signed long int", "long signed int"], .number .int64),
    (["ulong", "unsigned long", "unsigned long int", "long unsigned int"], .number .uint64),
    (["intptr_t"], .number .int64),
    (["uintptr_t"], .number .uint64),
    (["float"], .number .float32),
    (["double"], .number .float64)]

def hostTypes (includeBool : Bool) : List (List String × ElementType) :=
  (if includeBool then [(["bool"], ElementType.number .bool)] else []) ++
  [(["signed char", "char"], .number .int8), (["unsigned char"], .number .uint8),
    (["short", "signed short", "signed short int", "short signed int"], .number .int16),
    (["unsigned short", "unsigned short int", "short unsigned int"], .number .uint16),
    (["int", "signed int"], .number .int32),
    (["unsigned", "unsigned int"], .number .uint32),
    (["long", "long int", "signed long int", "long signed int"], .number .int64),
    (["unsigned long", "unsigned long int", "long unsigned int"], .number .uint64),
    (["unsigned long"], .number .uint64),
    (["float"], .number .float32),
    (["double"], .number .float64)]

/-- The registry a session starts with: the types of the kernel language, the complex types of the
shipped header, and the vector types. -/
def standard : TypeRegistry :=
  (({} : TypeRegistry).fill (kernelTypes ++
    [(["cfloat_t"], .number .complex64), (["cdouble_t"], .number .complex128)] ++
    ElementType.vectorTypes.map (fun (n, t) => ([n], t)))).1

end TypeRegistry

/-! ## Declarations of structures -/

open String

structure Declarations where
  types : List ElementType := []
  usesDouble : Bool := false
  usesComplex : Bool := false

namespace Declarations

variable (d : Declarations) (t : ElementType)

def has : Bool := d.types.any t.same

def push : Declarations := { d with types := d.types ++ [t] }

def note : Declarations :=
  { d with
    usesDouble := d.usesDouble || t == .number .float64
    usesComplex := d.usesComplex || t.isComplex }

mutual

/-- Adds a type: a structure is collected after its fields, which are taken in the order of their names. -/
def add : ElementType → Declarations → Declarations
  | .record fields size aligned, d =>
    let t := ElementType.record fields size aligned
    if d.has t then d
    else
      let inOrder := (addFields fields).mergeSort fun a b => decide (a.1 ≤ b.1)
      (inOrder.foldl (fun d step => step.2 d) d).push t
  | .raw n, d => if d.has (.raw n) then d else d.push (.raw n)
  | t, d => d.note t

def addFields : FieldList → List (String × (Declarations → Declarations))
  | .nil => []
  | .cons name _ type rest => (name, add type) :: addFields rest

end

def addAll (d : Declarations) (types : List ElementType) : Declarations := types.foldl (fun d t => add t d) d

def complexHeader : String := "#include <pyopencl-complex.h>\n"

def doubleLines (indent : String) : String :=
  join (["#if __OPENCL_C_VERSION__ < 120", "#pragma OPENCL EXTENSION cl_khr_fp64: enable", "#endif",
    "#define PYOPENCL_DEFINE_CDOUBLE"].map fun line => "\n" ++ indent ++ line)

def text (d : Declarations) (declared : List String) : String :=
  let body := intercalate "\n\n" declared
  let body := if d.usesComplex then complexHeader ++ "\n" ++ body else body
  if d.usesDouble then doubleLines (ofList (List.replicate 20 ' ')) ++ "\n" ++ ofList (List.replicate 20 ' ') ++ body
  else body

end Declarations

def structureText (name : String) (fields : List (String × String)) : String :=
  "typedef struct \x7b\n" ++ intercalate "\n" (fields.map fun (type, field) => "  " ++ type ++ " " ++ field ++ ";") ++
    "\n\x7d " ++ name ++ ";\n\n"

open Text

structure Declarator where
  typeName : String
  name : String
  isPointer : Bool
deriving DecidableEq

namespace Declarator

def qualifiers : List String := ["const", "volatile", "__restrict__"]

def withoutQualifiers (s : String) : String := qualifiers.foldl (fun s q => replaceAll s q "") s

/-- Drops brackets with blanks and digits between them from the end of a declaration, which is given backwards; blanks
before a bracket go with it. -/
def dropBrackets : Nat → List Char → Option (Nat × List Char)
  | 0, cs => some (0, cs)
  | fuel + 1, cs =>
    match cs.dropWhile isBlank with
    | ']' :: rest =>
      match rest.dropWhile (fun c => c == ' ' || c.isDigit) with
      | '[' :: rest => (dropBrackets fuel rest).map fun (n, cs) => (n + 1, cs)
      | _ => none
    | cs => some (0, cs)

def ofPlain? (s : String) : Option Declarator :=
  match dropBrackets s.length s.toList.reverse with
  | none => none
  | some (pairs, cs) =>
    let nameChars := cs.takeWhile isWordChar
    if nameChars.isEmpty then none
    else
      let rest := (cs.dropWhile isWordChar).dropWhile isBlank
      let stars := rest.takeWhile (· == '*')
      let typeChars := (rest.dropWhile (· == '*')).reverse
      some {
        typeName := intercalate " " (words (ofList typeChars))
        name := ofList nameChars.reverse
        isPointer := !stars.isEmpty || pairs != 0 }

def read (s : String) : Result Declarator :=
  let plain := withoutQualifiers s
  match ofPlain? plain with
  | some d => .ok d
  | none => .error (.told .value ("couldn't parse C declarator '" ++ plain ++ "'"))

end Declarator

inductive KernelArgument where
  | vector (type : ElementType) (name : String) (withOffset : Bool)
  /-- A number, or another value passed as it is. -/
  | scalar (type : ElementType) (name : String)
  | other (declaration name : String)
  /-- Something that describes no argument; its class is kept for messages. -/
  | foreign (className : String)
deriving DecidableEq

inductive PassedType where
  | buffer
  | offset
  | value (t : ElementType)
deriving DecidableEq

def PassedType.type? : PassedType → Option ElementType
  | buffer => none
  | offset => some (.number .int64)
  | value t => some t

/-- A parameter of a kernel: its declaration, and how its value is passed where that is known. -/
structure Parameter where
  declaration : String
  passed : Option PassedType
deriving DecidableEq

namespace KernelArgument

def name : KernelArgument → String
  | vector _ n _ | scalar _ n | other _ n => n
  | foreign _ => ""

def type? : KernelArgument → Option ElementType
  | vector t _ _ | scalar t _ => some t
  | _ => none

def isVector : KernelArgument → Bool
  | vector _ _ _ => true
  | _ => false

def hasOffset : KernelArgument → Bool
  | vector _ _ o => o
  | _ => false

def className : KernelArgument → String
  | vector _ _ _ => "<class 'pyopencl.tools.VectorArg'>"
  | scalar _ _ => "<class 'pyopencl.tools.ScalarArg'>"
  | other _ _ => "<class 'pyopencl.tools.OtherArg'>"
  | foreign c => c

variable (r : TypeRegistry)

def parameters : KernelArgument → Result (List Parameter)
  | vector t n withOffset => do
    let c ← r.typeName t
    if withOffset then
      return [⟨"__global " ++ c ++ " *" ++ n ++ "__base", some .buffer⟩, ⟨"long " ++ n ++ "__offset", some .offset⟩]
    else return [⟨"__global " ++ c ++ " *" ++ n, some .buffer⟩]
  | scalar t n => do return [⟨(← r.typeName t) ++ " " ++ n, some (.value t)⟩]
  | other d _ => .ok [⟨d, none⟩]
  | foreign _ => .error (.bare .attribute)

def declarator (a : KernelArgument) : Result String := do
  return intercalate ", " ((← a.parameters r).map (·.declaration))

def text : KernelArgument → String
  | vector t n _ => "VectorArg(" ++ quoted n ++ ", " ++ t.text ++ ")"
  | scalar t n => "ScalarArg(" ++ quoted n ++ ", " ++ t.text ++ ")"
  | _ => ""

def refusedSpaces : List String := ["__local", "__constant"]

def readWith (resolve : String → Result ElementType) (withOffset : Bool) (s : String) :
    Result KernelArgument := do
  if refusedSpaces.any (contains s) then
    .error (.told .runtime "cannot deal with local or constant OpenCL address spaces in C argument lists ")
  let d ← Declarator.read (replaceAll s "__global" "")
  let t ← resolve d.typeName
  return if d.isPointer then .vector t d.name withOffset else .scalar t d.name

def read (withOffset : Bool) (s : String) : Result KernelArgument :=
  readWith (fun name => match r.type? name with
    | some t => .ok t
    | none => .error (.told .value ("unknown type '" ++ name ++ "'"))) withOffset s

def passedTypes : List KernelArgument → Result (List PassedType)
  | [] => .ok []
  | scalar t _ :: rest => do return .value t :: (← passedTypes rest)
  | vector _ _ withOffset :: rest => do
    let tail ← passedTypes rest
    return .buffer :: (if withOffset then .offset :: tail else tail)
  | a :: _ => .error (.told .runtime ("arg type not understood: " ++ a.className))

def offsetStatements (r : TypeRegistry) : List KernelArgument → Result (List String)
  | [] => .ok []
  | vector t n true :: rest => do
    let c ← r.typeName t
    let tail ← offsetStatements r rest
    return ("__global " ++ c ++ " *" ++ n ++ " = (__global " ++ c ++ " *) ((__global char *) " ++ n ++
      "__base + " ++ n ++ "__offset);") :: tail
  | _ :: rest => offsetStatements r rest

def offsetCode (args : List KernelArgument) : Result String := do
  return intercalate "\n" (← offsetStatements r args)

def readList (withOffset : Bool) (s : String) : Result (List KernelArgument) :=
  (splitAt ',' s).mapM (read r withOffset)

end KernelArgument

end ClHost
