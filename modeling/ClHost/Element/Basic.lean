import ClHost.Device.Record
import ClHost.Fault
import ClHost.Number.Binary

/-!
# Element types

The types of the elements of arrays, buffers and kernel arguments: numbers of fixed width, short vectors of them,
records with named fields at byte offsets, and a few types that no kernel takes.
-/

namespace ClHost

inductive Primitive where
  | bool
  | int8 | int16 | int32 | int64
  | uint8 | uint16 | uint32 | uint64
  | float16 | float32 | float64 | extended
  | complex64 | complex128 | complexExtended
deriving DecidableEq, Inhabited

inductive Kind where
  | bool | signed | unsigned | real | complex | void | bytes | text | instant | span | object
deriving DecidableEq

namespace Primitive

def size : Primitive → Nat
  | bool | int8 | uint8 => 1
  | int16 | uint16 | float16 => 2
  | int32 | uint32 | float32 => 4
  | int64 | uint64 | float64 | complex64 => 8
  | extended | complex128 => 16
  | complexExtended => 32

def alignment : Primitive → Nat
  | complex64 => 4
  | complex128 => 8
  | complexExtended => 16
  | p => p.size

def kind : Primitive → Kind
  | bool => .bool
  | int8 | int16 | int32 | int64 => .signed
  | uint8 | uint16 | uint32 | uint64 => .unsigned
  | float16 | float32 | float64 | extended => .real
  | complex64 | complex128 | complexExtended => .complex

def isInteger (p : Primitive) : Bool := p.kind == .signed || p.kind == .unsigned

def name : Primitive → String
  | bool => "bool"
  | int8 => "int8" | int16 => "int16" | int32 => "int32" | int64 => "int64"
  | uint8 => "uint8" | uint16 => "uint16" | uint32 => "uint32" | uint64 => "uint64"
  | float16 => "float16" | float32 => "float32" | float64 => "float64" | extended => "float128"
  | complex64 => "complex64" | complex128 => "complex128" | complexExtended => "complex256"

def className : Primitive → String
  | extended => "longdouble"
  | complexExtended => "clongdouble"
  | p => p.name

def all : List Primitive :=
  [bool, int8, int16, int32, int64, uint8, uint16, uint32, uint64,
    float16, float32, float64, extended, complex64, complex128, complexExtended]

def aliases : List (String × Primitive) :=
  [("intp", int64), ("uintp", uint64), ("longlong", int64), ("ulonglong", uint64), ("long", int64),
    ("ulong", uint64), ("int", int64), ("uint", uint64), ("intc", int32), ("uintc", uint32),
    ("short", int16), ("ushort", uint16), ("byte", int8), ("ubyte", uint8), ("half", float16),
    ("single", float32), ("double", float64), ("float", float64), ("complex", complex128),
    ("csingle", complex64), ("cdouble", complex128), ("longdouble", extended), ("bool_", bool),
    ("clongdouble", complexExtended), ("int_", int64), ("float_", float64), ("complex_", complex128),
    ("b1", bool), ("i1", int8), ("i2", int16), ("i4", int32), ("i8", int64), ("u1", uint8), ("u2", uint16),
    ("u4", uint32), ("u8", uint64), ("f2", float16), ("f4", float32), ("f8", float64), ("f16", extended),
    ("c8", complex64), ("c16", complex128), ("c32", complexExtended)]

def ofName? (s : String) : Option Primitive :=
  match all.find? (fun p => p.name == s) with
  | some p => some p
  | none => (aliases.find? (fun a => a.1 == s)).map (fun a => a.2)

def packCode : Primitive → Char
  | bool => '?'
  | int8 => 'b' | int16 => 'h' | int32 => 'i' | int64 => 'l'
  | uint8 => 'B' | uint16 => 'H' | uint32 => 'I' | uint64 => 'L'
  | float16 => 'e' | float32 => 'f' | float64 => 'd' | extended => 'g'
  | complex64 => 'F' | complex128 => 'D' | complexExtended => 'G'

def realPart : Primitive → Primitive
  | complex64 => float32
  | complex128 => float64
  | complexExtended => extended
  | p => p

end Primitive

mutual

inductive ElementType where
  | number (p : Primitive)
  | vector (base : Primitive) (lanes : Nat)
  /-- Bytes without a meaning. -/
  | raw (size : Nat)
  | byteString (size : Nat)
  | textString (length : Nat)
  | instant (unit : String)
  | span (unit : String)
  /-- A reference to a value of the host. -/
  | object
  | record (fields : FieldList) (size : Nat) (aligned : Bool)

/-- The fields of a record, in the order of their names. -/
inductive FieldList where
  | nil
  | cons (name : String) (offset : Nat) (type : ElementType) (rest : FieldList)

end

deriving instance DecidableEq for ElementType, FieldList
instance : Inhabited ElementType := ⟨.number .bool⟩
instance : Inhabited FieldList := ⟨.nil⟩

structure Field where
  name : String
  offset : Nat
  type : ElementType
deriving DecidableEq

namespace FieldList

def toList : FieldList → List Field
  | nil => []
  | cons name offset type rest => ⟨name, offset, type⟩ :: rest.toList

def ofList : List Field → FieldList
  | [] => nil
  | f :: fs => cons f.name f.offset f.type (ofList fs)

end FieldList

namespace ElementType

instance : Coe Primitive ElementType := ⟨.number⟩

def paddedLanes (lanes : Nat) : Nat := if lanes == 3 then 4 else lanes

def size : ElementType → Nat
  | number p => p.size
  | vector base lanes => base.size * paddedLanes lanes
  | raw n => n
  | byteString n => n
  | textString n => 4 * n
  | instant _ | span _ | object => 8
  | record _ n _ => n

mutual

def alignment : ElementType → Nat
  | number p => p.alignment
  | vector _ _ => 1
  | raw _ => 1
  | byteString _ => 1
  | textString _ => 4
  | instant _ | span _ | object => 8
  | record fields _ aligned => if aligned then fieldAlignment fields else 1

def fieldAlignment : FieldList → Nat
  | .nil => 1
  | .cons _ _ t rest => max t.alignment (fieldAlignment rest)

end

def kind : ElementType → Kind
  | number p => p.kind
  | vector _ _ | raw _ | record _ _ _ => .void
  | byteString _ => .bytes
  | textString _ => .text
  | instant _ => .instant
  | span _ => .span
  | object => .object

def primitive? : ElementType → Option Primitive
  | number p => some p
  | _ => none

variable (lanes : Nat) (aligned : Bool) (parts : List (String × ElementType)) (t : ElementType)

def isInteger : Bool := t.kind == .signed || t.kind == .unsigned

def isComplex : Bool := t.kind == .complex

def laneNames : List String :=
  (List.range (paddedLanes lanes)).map fun i =>
    if i < lanes then "s" ++ toString i else "padding" ++ toString (i - lanes)

def laneTitles : List (Option String) :=
  (List.range (paddedLanes lanes)).map fun i =>
    if i < lanes then (["x", "y", "z", "w"][i]?) else none

def fields? : ElementType → Option (List Field)
  | record fields _ _ => some fields.toList
  | vector base lanes => some ((laneNames lanes).zipIdx.map fun (name, i) => ⟨name, i * base.size, .number base⟩)
  | _ => none

def roundUp (n a : Nat) : Nat := if a == 0 then n else (n + a - 1) / a * a

/-- Offsets and total size of fields laid out in order; with `aligned` each at a multiple of its
alignment and the whole padded to the largest. -/
def layout : List Field × Nat :=
  let (fields, finish, largest) := parts.foldl (fun (acc : List Field × Nat × Nat) part =>
    let (fields, at_, largest) := acc
    let (name, type) := part
    let a := if aligned then type.alignment else 1
    let offset := roundUp at_ a
    (fields ++ [⟨name, offset, type⟩], offset + type.size, max largest a)) ([], 0, 1)
  (fields, if aligned then roundUp finish largest else finish)

def recordOf : ElementType :=
  let (fields, size) := layout aligned parts
  record (.ofList fields) size aligned

def realPart : ElementType → ElementType
  | number p => number p.realPart
  | t => t

end ElementType

/-! ## Texts of element types -/

open String

def Primitive.shortCode (p : Primitive) : String :=
  let letter := match p.kind with
    | .bool => "b" | .signed => "i" | .unsigned => "u" | .real => "f" | _ => "c"
  (if p.size == 1 then "" else "<") ++ letter ++ toString p.size

namespace ElementType

def scalarCode : ElementType → String
  | number .bool => "'?'"
  | number p => "'" ++ p.shortCode ++ "'"
  | raw n => "'V" ++ toString n ++ "'"
  | byteString n => if n == 0 then "'S'" else "'S" ++ toString n ++ "'"
  | textString n => if n == 0 then "'<U'" else "'<U" ++ toString n ++ "'"
  | instant unit => "'<M8" ++ unit ++ "'"
  | span unit => "'<m8" ++ unit ++ "'"
  | object => "'O'"
  | vector _ _ | record _ _ _ => ""

def partText (title : Option String) (name code : String) : String :=
  match title with
  | some t => "((" ++ Text.quoted t ++ ", " ++ Text.quoted name ++ "), " ++ code ++ ")"
  | none => "(" ++ Text.quoted name ++ ", " ++ code ++ ")"

def vectorCode (base : Primitive) (lanes : Nat) : String :=
  "[" ++ intercalate ", " ((laneTitles lanes).zip (laneNames lanes) |>.map
    (fun (title, name) => partText title name (number base).scalarCode)) ++ "]"

/-- Whether the fields follow each other in order without gaps up to the end; in an aligned record each
starts at the next multiple of its alignment. -/
def isPacked (fields : List Field) (size : Nat) (aligned : Bool) : Bool :=
  let parts := fields.map fun f => (f.name, f.type)
  let (placed, total) := layout aligned parts
  placed.map (·.offset) == fields.map (·.offset) && total == size

def dictionaryText (fields : List Field) (codes : List String) (size : Nat) (showAligned : Bool) : String :=
  "\x7b'names': [" ++ intercalate ", " (fields.map fun f => Text.quoted f.name) ++
    "], 'formats': [" ++ intercalate ", " codes ++
    "], 'offsets': [" ++ intercalate ", " (fields.map fun f => toString f.offset) ++
    "], 'itemsize': " ++ toString size ++ (if showAligned then ", 'aligned': True\x7d" else "\x7d")

mutual

/-- The description of a type from which it can be made again; `showAligned` asks for the mark of
aligned records at the outermost level. -/
def code (showAligned : Bool) : ElementType → String
  | record fields size aligned =>
    let fs := fields.toList
    let cs := codes fields
    if !(showAligned && aligned) && isPacked fs size aligned then
      "[" ++ intercalate ", " ((fs.zip cs).map fun (f, c) => partText none f.name c) ++ "]"
    else dictionaryText fs cs size (showAligned && aligned)
  | vector base lanes => vectorCode base lanes
  | t => t.scalarCode

def codes : FieldList → List String
  | .nil => []
  | .cons _ _ t rest => t.code false :: codes rest

end

def name : ElementType → String
  | number p => p.name
  | vector _ _ | record _ _ _ => "void"
  | raw n => "void" ++ toString (8 * n)
  | byteString n => if n == 0 then "bytes" else "bytes" ++ toString (8 * n)
  | textString n => if n == 0 then "str" else "str" ++ toString (32 * n)
  | instant unit => "datetime64" ++ unit
  | span unit => "timedelta64" ++ unit
  | object => "object"

def text : ElementType → String
  | vector base lanes => vectorCode base lanes
  | record fields size aligned => (record fields size aligned).code true
  | raw n => "|V" ++ toString n
  | byteString n => "|S" ++ toString n
  | textString n => "<U" ++ toString n
  | t => t.name

def scriptText : ElementType → String
  | number p => "dtype('" ++ p.name ++ "')"
  | record fields size aligned =>
    "dtype(" ++ (record fields size aligned).code false ++ (if aligned then ", align=True)" else ")")
  | t => "dtype(" ++ t.code false ++ ")"

def vectorBases : List (String × Primitive) :=
  [("char", .int8), ("uchar", .uint8), ("short", .int16), ("ushort", .uint16), ("int", .int32),
    ("uint", .uint32), ("long", .int64), ("ulong", .uint64), ("float", .float32), ("double", .float64)]

def laneCounts : List Nat := [2, 3, 4, 8, 16]

def vectorBaseName (p : Primitive) : String :=
  match vectorBases.find? (fun b => b.2 == p) with
  | some b => b.1
  | none => p.name

def vectorTypes : List (String × ElementType) :=
  vectorBases.flatMap fun (base, p) => laneCounts.map fun n => (base ++ toString n, vector p n)

def vectorOfName? (s : String) : Option ElementType := (vectorTypes.find? (fun v => v.1 == s)).map (·.2)

end ElementType

/-! ## Values of elements -/

open Number

def littleEndian : Nat → Nat → Bytes
  | 0, _ => []
  | size + 1, n => (n % 256).toUInt8 :: littleEndian size (n / 256)

def ofLittleEndian : Bytes → Nat
  | [] => 0
  | b :: bs => b.toNat + 256 * ofLittleEndian bs

def twosComplement (size : Nat) (n : Int) : Nat := (n % (Nat.pow 256 size : Nat)).toNat

def signedReading (size n : Nat) : Int :=
  if 2 * n < Nat.pow 256 size then (n : Int) else (n : Int) - (Nat.pow 256 size : Nat)

inductive Quantity where
  | int (n : Int)
  | real (x : Float)
  | complex (re im : Float)

namespace Quantity

def re : Quantity → Float
  | int n => doubleOfInt n
  | real x => x
  | complex x _ => x

def im : Quantity → Float
  | complex _ y => y
  | _ => 0.0

def isTrue : Quantity → Bool
  | int n => n != 0
  | real x => x != 0.0
  | complex x y => x != 0.0 || y != 0.0

def equals : Quantity → Quantity → Bool
  | int a, int b => a == b
  | a, b => a.re == b.re && a.im == b.im

end Quantity

namespace Primitive

def binaryFormat? : Primitive → Option BinaryFormat
  | float16 => some .half
  | float32 | complex64 => some .single
  | float64 | complex128 => some .double
  | _ => none

variable (p : Primitive) (x : Float) (bs : Bytes)

def least : Int := if p.kind == .signed then -(Nat.pow 2 (8 * p.size - 1) : Nat) else 0

def greatest : Int :=
  match p.kind with
  | .bool => 1
  | .signed => (Nat.pow 2 (8 * p.size - 1) : Nat) - 1
  | _ => (Nat.pow 2 (8 * p.size) : Nat) - 1

def extendedBytes : Bytes :=
  let negative := isNegative x
  let (field, significand) : Nat × Nat := match readDouble x with
    | .nan => (32767, Nat.pow 2 63 + Nat.pow 2 62)
    | .infinite _ => (32767, Nat.pow 2 63)
    | .finite _ 0 _ => (0, 0)
    | .finite _ m scale =>
      let lead := Nat.log2 m
      ((scale + lead + 16383).toNat, m * Nat.pow 2 (63 - lead))
  littleEndian 8 significand ++ littleEndian 2 (field + if negative then 32768 else 0) ++ List.replicate 6 0

def ofExtendedBytes : Float :=
  let significand := ofLittleEndian (bs.take 8)
  let top := ofLittleEndian ((bs.drop 8).take 2)
  let negative := 32768 ≤ top
  let field := top % 32768
  if field == 32767 then
    if significand % Nat.pow 2 63 == 0 then doubleOfBits (BinaryFormat.double.infinity negative)
    else doubleOfBits 0x7FF8000000000000
  else doubleOfBits (BinaryFormat.double.ofScaled negative significand ((field : Int) - 16383 - 63))

def realBytes : Bytes :=
  match p.binaryFormat? with
  | some f => littleEndian ((1 + f.fractionBits + f.exponentBits) / 8) (BinaryFormat.double.convert f x.toBits.toNat)
  | none => extendedBytes x

def wordOfReal : Int :=
  let wide := p.size == 8 || p == .uint32
  let limit : Int := if wide then Int.pow 2 63 else Int.pow 2 31
  match truncate? x with
  | some n => if -limit ≤ n && n < limit then n else if p == .uint64 && 0 ≤ n && n < 2 * limit then n else -limit
  | none => -limit

/-- Stores a value: integers modulo the width, reals rounded to the nearest, the imaginary part of a
complex value dropped where there is no room for it. -/
def store (q : Quantity) : Bytes :=
  match p.kind with
  | .bool => [if q.isTrue then 1 else 0]
  | .signed | .unsigned =>
    match q with
    | .int n => littleEndian p.size (twosComplement p.size n)
    | q => littleEndian p.size (twosComplement p.size (p.wordOfReal q.re))
  | .real => p.realBytes q.re
  | _ => p.realBytes q.re ++ p.realBytes q.im

def readReal : Float :=
  match p.binaryFormat? with
  | some f => doubleOfBits (f.convert .double (ofLittleEndian bs))
  | none => ofExtendedBytes bs

def load : Quantity :=
  match p.kind with
  | .bool => .int (if ofLittleEndian bs == 0 then 0 else 1)
  | .signed => .int (signedReading p.size (ofLittleEndian bs))
  | .unsigned => .int (ofLittleEndian bs)
  | .real => .real (p.readReal bs)
  | _ =>
    let half := p.size / 2
    .complex (p.readReal (bs.take half)) (p.readReal (bs.drop half))

end Primitive

inductive Literal where
  | bool (b : Bool)
  | int (n : Int)
  | real (x : Float)
  | complex (re im : Float)

namespace Literal

def quantity : Literal → Quantity
  | bool b => .int (if b then 1 else 0)
  | int n => .int n
  | real x => .real x
  | complex x y => .complex x y

def ownType : Literal → Result ElementType
  | bool _ => .ok (.number .bool)
  | int n =>
    if Primitive.int64.least ≤ n && n ≤ Primitive.int64.greatest then .ok (.number .int64)
    else if 0 ≤ n && n ≤ Primitive.uint64.greatest then .ok (.number .uint64)
    else .ok .object
  | real _ => .ok (.number .float64)
  | complex _ _ => .ok (.number .complex128)

def text : Literal → String
  | bool b => if b then "True" else "False"
  | int n => toString n
  | real x => doubleText x
  | complex x y => complexText x y

end Literal

structure Element where
  type : ElementType
  bytes : Bytes
deriving DecidableEq

instance : Inhabited Element := ⟨⟨.number .bool, [0]⟩⟩

namespace Element

def ofQuantity (p : Primitive) (q : Quantity) : Element := ⟨.number p, p.store q⟩

def quantity? (e : Element) : Option Quantity := e.type.primitive?.map fun p => p.load e.bytes

def zero (t : ElementType) : Element := ⟨t, List.replicate t.size 0⟩

end Element

inductive Operand where
  | literal (l : Literal)
  | element (e : Element)

namespace Operand

def quantity? : Operand → Option Quantity
  | literal l => some l.quantity
  | element e => e.quantity?

end Operand

def Primitive.ofLiteral (p : Primitive) (l : Literal) : Result Element :=
  match p.kind, l with
  | .bool, l => .ok (.ofQuantity p l.quantity)
  | .signed, .int n | .unsigned, .int n =>
    if p.least ≤ n && n ≤ p.greatest then .ok (.ofQuantity p (.int n)) else .error (.bare .overflow)
  | .signed, .real x | .unsigned, .real x =>
    match readDouble x, truncate? x with
    | .nan, _ => .error (.bare .value)
    | _, some n =>
      let fits :=
        if p == .uint64 then n ≤ Primitive.uint64.greatest && Primitive.int64.least ≤ n
        else Primitive.int64.least ≤ n && n ≤ Primitive.int64.greatest
      if fits then .ok (.ofQuantity p (.int n)) else .error (.bare .overflow)
    | _, none => .error (.bare .overflow)
  | .signed, .complex _ _ | .unsigned, .complex _ _ | .real, .complex _ _ => .error (.bare .type)
  | .real, .int n | .complex, .int n =>
    -- an integer beyond the range of doubles has no real value
    if (doubleOfInt n).isInf then .error (.bare .overflow) else .ok (.ofQuantity p (.int n))
  | _, l => .ok (.ofQuantity p l.quantity)

def Primitive.ofOperand (p : Primitive) : Operand → Result Element
  | .literal l => p.ofLiteral l
  | .element e =>
    match e.quantity? with
    | some q => .ok (.ofQuantity p q)
    | none => .error (.bare .type)

/-! ## Promotion -/

namespace Primitive

def signedOfSize (n : Nat) : Option Primitive :=
  if n ≤ 1 then some int8 else if n ≤ 2 then some int16 else if n ≤ 4 then some int32
  else if n ≤ 8 then some int64 else none

def realOfIntegerSize (n : Nat) : Primitive := if n ≤ 1 then float16 else if n ≤ 2 then float32 else float64

variable (a b : Primitive)

def widerReal : Primitive := if a.size < b.size then b else a

def complexOf : Primitive → Primitive
  | float64 => complex128
  | extended => complexExtended
  | _ => complex64

def promoteIntegers : Primitive :=
  if a.kind == b.kind then (if a.size < b.size then b else a)
  else
    let (s, u) := if a.kind == .signed then (a, b) else (b, a)
    if u.size < s.size then s else (signedOfSize (2 * u.size)).getD float64

def asReal (p : Primitive) : Primitive :=
  match p.kind with
  | .bool => float16
  | .signed | .unsigned => realOfIntegerSize p.size
  | .real => p
  | _ => p.realPart

def promote : Primitive :=
  if a == b then a
  else if a == .bool then b
  else if b == .bool then a
  else if a.isInteger && b.isInteger then promoteIntegers a b
  else
    let real := widerReal a.asReal b.asReal
    if a.kind == .complex || b.kind == .complex then
      complexOf (if real.size < 4 then float32 else real)
    else real

def promoteLiteral (a : Primitive) : Literal → Result Primitive
  | .bool _ => .ok a
  | .int n =>
    match a.kind with
    | .bool => if int64.least ≤ n && n ≤ int64.greatest then .ok int64 else .error (.bare .overflow)
    | .signed | .unsigned => if a.least ≤ n && n ≤ a.greatest then .ok a else .error (.bare .overflow)
    | _ => if (Number.doubleOfInt n).isInf then .error (.bare .overflow) else .ok a
  | .real _ => .ok (if a.kind == .bool || a.isInteger then float64 else a)
  | .complex _ _ =>
    match a.kind with
    | .bool | .signed | .unsigned => .ok complex128
    | .real => .ok (complexOf a)
    | _ => .ok a

end Primitive

def ElementType.promote (a b : ElementType) : Result ElementType :=
  match a, b with
  | .number p, .number q => .ok (.number (p.promote q))
  | .object, _ | _, .object => .ok .object
  | _, _ => .error (.bare .arithmeticType)

def ElementType.promoteOperand (a : ElementType) : Operand → Result ElementType
  | .element e => a.promote e.type
  | .literal l =>
    match a with
    | .number p => do return .number (← p.promoteLiteral l)
    | .object => .ok .object
    | _ => .error (.bare .arithmeticType)

def ElementType.withoutDouble : ElementType → ElementType
  | .number .float64 => .number .float32
  | .number .complex128 => .number .complex64
  | t => t

def commonType (allowDouble : Bool) (result : ElementType) : ElementType :=
  if allowDouble then result else result.withoutDouble

namespace Primitive

def rounded (p : Primitive) (x : Float) : Float := p.readReal (p.realBytes x)

end Primitive

def complexInverse? (x y : Float) : Option (Float × Float) :=
  if y.abs ≤ x.abs then
    if x == 0.0 then none
    else
      let ratio := y / x
      let d := x + y * ratio
      some ((1.0 + 0.0 * ratio) / d, (0.0 - 1.0 * ratio) / d)
  else if x.abs ≤ y.abs then
    let ratio := x / y
    let d := x * ratio + y
    some ((1.0 * ratio + 0.0) / d, (0.0 * ratio - 1.0) / d)
  else some (0.0 / 0.0, 0.0 / 0.0)

def complexInverse (round : Float → Float) (x y : Float) : Float × Float :=
  if y.abs ≤ x.abs then
    if x.abs == 0.0 && y.abs == 0.0 then (round (1.0 / x.abs), round (0.0 / x.abs))
    else
      let ratio := round (y / x)
      let scale := round (1.0 / round (x + round (y * ratio)))
      (round (round (1.0 + round (0.0 * ratio)) * scale), round (round (0.0 - ratio) * scale))
  else
    let ratio := round (x / y)
    let scale := round (1.0 / round (y + round (x * ratio)))
    (round (round (ratio + 0.0) * scale), round (round (round (0.0 * ratio) - 1.0) * scale))

namespace Literal

def opposite : Literal → Literal
  | bool b => .int (if b then -1 else 0)
  | int n => .int (-n)
  | real x => .real (-x)
  | complex x y => .complex (-x) (-y)

def inverse : Literal → Result Literal
  | bool b => if b then .ok (.real 1.0) else .error (.bare .zeroDivision)
  | int n => if n == 0 then .error (.bare .zeroDivision) else .ok (.real (1.0 / doubleOfInt n))
  | real x => if x == 0.0 then .error (.bare .zeroDivision) else .ok (.real (1.0 / x))
  | complex x y => match complexInverse? x y with
    | some (u, v) => .ok (.complex u v)
    | none => .error (.bare .zeroDivision)

end Literal

namespace Operand

def opposite : Operand → Result Operand
  | literal l => .ok (.literal l.opposite)
  | element e =>
    match e.type, e.quantity? with
    | .number .bool, _ => .error (.bare .type)
    | .number p, some (.int n) => .ok (.element (.ofQuantity p (.int (-n))))
    | .number p, some (.real x) => .ok (.element (.ofQuantity p (.real (-x))))
    | .number p, some (.complex x y) => .ok (.element (.ofQuantity p (.complex (-x) (-y))))
    | _, _ => .error (.bare .arithmeticType)

def inverse : Operand → Result Operand
  | literal l => do return .literal (← l.inverse)
  | element e =>
    match e.type, e.quantity? with
    | .number _, some (.int n) => .ok (.element (.ofQuantity .float64 (.real (1.0 / doubleOfInt n))))
    | .number p, some (.real x) => .ok (.element (.ofQuantity p (.real (1.0 / x))))
    | .number p, some (.complex x y) =>
      let (u, v) := complexInverse p.rounded x y
      .ok (.element (.ofQuantity p (.complex u v)))
    | _, _ => .error (.bare .arithmeticType)

end Operand

def ceiling (x : Float) : Result Int :=
  match ceiling? x with
  | some n => .ok n
  | none => .error (.bare (if x.isNaN then .value else .overflow))

/-- How many steps lead from a start to a stop, for numbers of a type: the difference and the quotient are taken
in that type, but a quotient of integers is a real number. -/
def Primitive.stepCount (p : Primitive) (start stop step : Element) : Result Int :=
  match p.kind, start.quantity?, stop.quantity?, step.quantity? with
  | .signed, some (.int a), some (.int b), some (.int s)
  | .unsigned, some (.int a), some (.int b), some (.int s) =>
    match (Element.ofQuantity p (.int (b - a))).quantity? with
    | some (.int d) => ceiling (doubleOfInt d / doubleOfInt s)
    | _ => .error (.bare .type)
  | .real, some (.real a), some (.real b), some (.real s) => ceiling (p.rounded (p.rounded (b - a) / s))
  | _, _, _, _ => .error (.bare .type)

end ClHost
