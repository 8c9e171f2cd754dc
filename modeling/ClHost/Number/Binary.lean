import ClHost.Text.Basic

/-!
# Binary floating point

The interchange formats with a sign, an exponent and a fraction: reading a bit pattern as an exact value, rounding an
exact quotient to the nearest value (ties to even), and converting between formats.
-/

namespace ClHost.Number

structure BinaryFormat where
  fractionBits : Nat
  exponentBits : Nat
deriving DecidableEq

namespace BinaryFormat

def half : BinaryFormat := ⟨10, 5⟩

def single : BinaryFormat := ⟨23, 8⟩

def double : BinaryFormat := ⟨52, 11⟩

variable (f : BinaryFormat)

def topExponent : Nat := Nat.pow 2 f.exponentBits - 1

def bias : Nat := Nat.pow 2 (f.exponentBits - 1) - 1

def leastScale : Int := 1 - (f.bias : Int) - (f.fractionBits : Int)

def infinity (negative : Bool) : Nat :=
  (if negative then Nat.pow 2 (f.fractionBits + f.exponentBits) else 0) + f.topExponent * Nat.pow 2 f.fractionBits

end BinaryFormat

inductive Reading where
  | nan
  | infinite (negative : Bool)
  | finite (negative : Bool) (significand : Nat) (scale : Int)
deriving DecidableEq

variable (d : Decimal) (f : BinaryFormat) (m : Nat) (negative : Bool) (num den : Nat) (x : Float)

variable (base : Nat) (k : Int) (bits : Nat) (scale : Int)

def BinaryFormat.read : Reading :=
  let fraction := bits % Nat.pow 2 f.fractionBits
  let field := bits / Nat.pow 2 f.fractionBits % Nat.pow 2 f.exponentBits
  let negative := bits / Nat.pow 2 (f.fractionBits + f.exponentBits) % 2 == 1
  if field == f.topExponent then
    if fraction == 0 then .infinite negative else .nan
  else if field == 0 then .finite negative fraction f.leastScale
  else .finite negative (fraction + Nat.pow 2 f.fractionBits) (f.leastScale + (field - 1 : Nat))

def roundQuotient : Nat :=
  let q := num / den
  let r := num % den
  if 2 * r < den then q
  else if den < 2 * r then q + 1
  else q + q % 2

/-- A quotient times a power. -/
def timesPower (num den : Nat) : Nat × Nat :=
  if 0 ≤ k then (num * Nat.pow base k.toNat, den) else (num, den * Nat.pow base (-k).toNat)

def scaled : Nat × Nat := timesPower 2 scale m 1

def roundedDown (num den : Nat) : Nat :=
  let (n, d) := timesPower base (-k) num den
  roundQuotient n d

def BinaryFormat.magnitudeBits : Nat :=
  if num == 0 then 0
  else
    -- the power of two of the leading bit, or one below it
    let lead : Int := (Nat.log2 num : Int) - (Nat.log2 den : Int)
    let (n, d) := timesPower 2 (-lead) num den
    let lead := if n < d then lead - 1 else lead
    let scale := max (lead - f.fractionBits) f.leastScale
    let significand := roundedDown 2 scale num den
    let steps := (scale - f.leastScale).toNat
    -- a full significand carries the hidden bit into the exponent field
    let bits := steps * Nat.pow 2 f.fractionBits + significand
    if f.topExponent * Nat.pow 2 f.fractionBits ≤ bits then f.topExponent * Nat.pow 2 f.fractionBits else bits

def BinaryFormat.ofQuotient : Nat :=
  (if negative then Nat.pow 2 (f.fractionBits + f.exponentBits) else 0) + f.magnitudeBits num den

def BinaryFormat.ofScaled (significand : Nat) (scale : Int) : Nat :=
  let (num, den) := scaled significand scale
  f.ofQuotient negative num den

def BinaryFormat.convert (source target : BinaryFormat) (bits : Nat) : Nat :=
  match source.read bits with
  | .nan =>
    let fraction := bits % Nat.pow 2 source.fractionBits
    let sign := bits / Nat.pow 2 (source.fractionBits + source.exponentBits) % 2
    let moved :=
      if source.fractionBits ≤ target.fractionBits then
        fraction * Nat.pow 2 (target.fractionBits - source.fractionBits)
      else fraction / Nat.pow 2 (source.fractionBits - target.fractionBits)
    let quiet := Nat.pow 2 (target.fractionBits - 1)
    let kept := if moved / quiet % 2 == 1 then moved else moved + quiet
    sign * Nat.pow 2 (target.fractionBits + target.exponentBits) + target.topExponent * Nat.pow 2 target.fractionBits
      + kept
  | .infinite negative => target.infinity negative
  | .finite negative significand scale => target.ofScaled negative significand scale

def readDouble : Reading := BinaryFormat.double.read x.toBits.toNat

def doubleOfBits : Float := Float.ofBits bits.toUInt64

def doubleOfInt (n : Int) : Float := doubleOfBits (BinaryFormat.double.ofQuotient (n < 0) n.natAbs 1)

def doubleOfQuotient : Float :=
  doubleOfBits (BinaryFormat.double.ofQuotient negative num den)

def roundTo : Float :=
  doubleOfBits (f.convert .double (BinaryFormat.double.convert f x.toBits.toNat))

def truncate? : Option Int :=
  match readDouble x with
  | .finite negative m scale =>
    let (n, d) := scaled m scale
    some (if negative then -((n / d : Nat) : Int) else (n / d : Nat))
  | _ => none

def ceiling? : Option Int :=
  match readDouble x with
  | .finite negative m scale =>
    let (n, d) := scaled m scale
    some (if negative then -((n / d : Nat) : Int) else ((n + d - 1) / d : Nat))
  | _ => none

def isWhole : Bool :=
  match readDouble x with
  | .finite _ m scale =>
    let (n, d) := scaled m scale
    n % d == 0
  | _ => false

/-! ## Shortest decimals -/

open String

structure Decimal where
  digits : Nat
  count : Nat
  point : Int
deriving DecidableEq

/-- The number of decimal digits before the point: least `k` with `num / den < 10 ^ k`. -/
def pointOf : Int :=
  let estimate : Int := ((Nat.log2 num : Int) - (Nat.log2 den : Int) - 1) * 30103 / 100000 - 1
  let tooSmall (k : Int) : Bool :=
    let (n, d) := timesPower 10 (-k) num den
    d ≤ n
  let rec climb : Nat → Int → Int
    | 0, k => k
    | n + 1, k => if tooSmall k then climb n (k + 1) else k
  climb 8 estimate

def between (digits : Nat) (place : Int) (lower upper den : Nat) (inclusive : Bool) : Bool :=
  let (n, d) := timesPower 10 place digits 1
  let l := lower * d
  let x := n * den
  let u := upper * d
  if inclusive then l ≤ x && x ≤ u else l < x && x < u

def shortest : Decimal :=
  -- the interval of what rounds to the value, over four times the denominator
  let (num, den) := scaled m scale
  let (unit, _) := scaled 1 scale
  let narrow := m == Nat.pow 2 f.fractionBits && f.leastScale < scale
  let upper := 4 * num + 2 * unit
  let lower := if narrow then 4 * num - unit else 4 * num - 2 * unit
  let inclusive := m % 2 == 0
  let point := pointOf num den
  let rec search : Nat → Nat → Decimal
    | 0, count => ⟨num * Nat.pow 10 40, count, point⟩
    | fuel + 1, count =>
      let place := point - count
      let (n, d) := timesPower 10 (-place) num den
      let below := n / d
      let okBelow := below != 0 && between below place lower upper (4 * den) inclusive
      let okAbove := between (below + 1) place lower upper (4 * den) inclusive
      let above : Decimal :=
        if below + 1 == Nat.pow 10 count then ⟨Nat.pow 10 (count - 1), count, point + 1⟩ else ⟨below + 1, count, point⟩
      if okBelow && okAbove then
        let r := n % d
        if 2 * r < d || (2 * r == d && below % 2 == 0) then ⟨below, count, point⟩ else above
      else if okBelow then ⟨below, count, point⟩
      else if okAbove then above
      else search fuel (count + 1)
  search 20 1

def Decimal.trim : Decimal :=
  let rec drop : Nat → Nat → Nat → Nat × Nat
    | 0, n, c => (n, c)
    | fuel + 1, n, c => if 1 < c && n % 10 == 0 then drop fuel (n / 10) (c - 1) else (n, c)
  let (n, c) := drop d.count d.digits d.count
  ⟨n, c, d.point⟩

def Decimal.text : String := Text.padLeft d.count '0' (toString d.digits)

variable (plus : Bool) (places : Nat) (re im : Float) (fraction : String)

def Decimal.positional : String :=
  let ds := d.text
  if d.point ≤ 0 then
    "0." ++ ofList (List.replicate (-d.point).toNat '0') ++ ds
  else if (d.count : Int) ≤ d.point then
    ds ++ ofList (List.replicate (d.point - d.count).toNat '0') ++ fraction
  else
    let cs := ds.toList
    ofList (cs.take d.point.toNat) ++ "." ++ ofList (cs.drop d.point.toNat)

def exponentText (e : Int) : String := (if e < 0 then "e-" else "e+") ++ Text.padLeft 2 '0' (toString e.natAbs)

def Decimal.scientific : String :=
  match d.text.toList with
  | [] => ""
  | c :: [] => singleton c ++ exponentText (d.point - 1)
  | c :: cs => singleton c ++ "." ++ ofList cs ++ exponentText (d.point - 1)

def reading : Reading := f.read (BinaryFormat.double.convert f x.toBits.toNat)

/-- How a number is written in a format: positional from 10⁻⁴ up to below 10¹⁶, scientific elsewhere; `fraction`
ends a whole number. -/
def realTextWith (x : Float) : String :=
  match reading f x with
  | .nan => "nan"
  | .infinite negative => if negative then "-inf" else "inf"
  | .finite negative m scale =>
    let sign := if negative then "-" else ""
    if m == 0 then sign ++ "0" ++ fraction
    else
      let d := (shortest f m scale).trim
      if -4 < d.point && d.point ≤ 16 then sign ++ d.positional fraction else sign ++ d.scientific

def doubleText : String := realTextWith .double ".0" x

def isNegative : Bool := x.toBits.toNat / Nat.pow 2 63 == 1

def complexTextWith : String :=
  let part := realTextWith f ""
  if re == 0.0 && !isNegative re then part im ++ "j"
  else
    let s := part im
    "(" ++ part re ++ (if Text.startsWith s "-" then s else "+" ++ s) ++ "j)"

def complexText : String := complexTextWith .double re im

/-! ## Columns of real numbers -/

/-- The digits of `m * 2 ^ scale` as a multiple of a power of ten: the shortest that read back or, where those go
beyond a place, the nearest at that place. -/
def digitsDownTo (scale place : Int) : Nat × Int :=
  let d := (shortest f m scale).trim
  let last := d.point - d.count
  if place ≤ last then (d.digits, last)
  else
    let (num, den) := scaled m scale
    (roundedDown 10 place num den, place)

def withoutTrailingZeros (s : String) : String := String.ofList ((s.toList.reverse.dropWhile (· == '0')).reverse)

def signText (plus negative : Bool) : String := if negative then "-" else if plus then "+" else ""

def positionalParts (negative : Bool) (m : Nat) (scale : Int) : String × String :=
  let sign := signText plus negative
  if m == 0 then (sign ++ "0", "")
  else
    let (digits, place) := digitsDownTo f m scale (-places)
    if 0 ≤ place then (sign ++ toString (digits * Nat.pow 10 place.toNat), "")
    else
      let unit := Nat.pow 10 (-place).toNat
      (sign ++ toString (digits / unit),
        withoutTrailingZeros (Text.padLeft (-place).toNat '0' (toString (digits % unit))))

def scientificParts (negative : Bool) (m : Nat) (scale : Int) : String × String × Int :=
  let sign := signText plus negative
  if m == 0 then (sign ++ "0", "", 0)
  else
    let (num, den) := scaled m scale
    let (digits, place) := digitsDownTo f m scale (pointOf num den - 1 - places)
    match (toString digits).toList with
    | [] => (sign ++ "0", "", 0)
    | c :: cs => (sign ++ String.singleton c, withoutTrailingZeros (String.ofList cs), place + cs.length)

def exponentDigits (width : Nat) (e : Int) : String := Text.padLeft width '0' (toString e.natAbs)

structure Column where
  format : BinaryFormat
  plus : Bool
  scientific : Bool := false
  /-- How many digits may stand after the point. -/
  places : Nat
  /-- The room before the point. -/
  left : Nat := 0
  /-- The room after the point. -/
  right : Nat := 0
  exponentWidth : Nat := 0

def mostPlaces : Nat := 8

def greatestOf (xs : List Nat) : Nat := xs.foldl max 0

namespace Column

variable (f : BinaryFormat)

def finite (xs : List Float) : List (Bool × Nat × Int) :=
  xs.filterMap fun x => match reading f x with
    | .finite negative m scale => some (negative, m, scale)
    | _ => none

/-- Whether numbers need an exponent: one is very large or very small, or they differ too much. -/
def needsExponent (xs : List Float) : Bool :=
  match (xs.filter fun x => x.isFinite && x != 0.0).map Float.abs with
  | [] => false
  | a :: rest =>
    let most := rest.foldl (fun m x => if m < x then x else m) a
    let least := rest.foldl (fun m x => if x < m then x else m) a
    decide (roundTo f 1.0e8 ≤ most) || decide (least < roundTo f 0.0001) || decide (1000.0 < roundTo f (most / least))

def ofValues (plus : Bool) (xs : List Float) : Column :=
  let values := finite f xs
  let base : Column :=
    if values.isEmpty then { format := f, plus, places := mostPlaces }
    else if needsExponent f xs then
      let parts := values.map fun (n, m, s) => scientificParts f plus mostPlaces n m s
      let places := greatestOf (parts.map fun p => p.2.1.length)
      let width := greatestOf (parts.map fun p => (exponentDigits 2 p.2.2).length)
      { format := f, plus, scientific := true, places, left := greatestOf (parts.map fun p => p.1.length)
        right := width + 2 + places, exponentWidth := width }
    else
      let parts := values.map fun (n, m, s) => positionalParts f plus mostPlaces n m s
      { format := f, plus, places := mostPlaces, left := greatestOf (parts.map fun p => p.1.length)
        right := greatestOf (parts.map fun p => p.2.length) }
  if values.length == xs.length then base
  else
    let signed := plus || xs.any fun x => x.isInf && decide (x < 0.0)
    let offset := base.right + 1
    { base with left := max base.left (max (3 - offset) (3 + (if signed then 1 else 0) - offset)) }

def write (c : Column) (x : Float) : String :=
  match reading c.format x with
  | .nan => special ((if c.plus then "+" else "") ++ "nan")
  | .infinite negative => special (signText c.plus negative ++ "inf")
  | .finite negative m scale =>
    if c.scientific then
      let (whole, fraction, e) := scientificParts c.format c.plus c.places negative m scale
      Text.padLeft c.left ' ' whole ++ "." ++ fraction ++
        String.ofList (List.replicate (c.places - fraction.length) '0') ++
        (if e < 0 then "e-" else "e+") ++ exponentDigits c.exponentWidth e
    else
      let (whole, fraction) := positionalParts c.format c.plus c.places negative m scale
      Text.padLeft c.left ' ' whole ++ "." ++ Text.padRight c.right ' ' fraction
where
  /-- What is not finite fills the whole width. -/
  special (s : String) : String := Text.padLeft (c.left + c.right + 1) ' ' s

end Column

end ClHost.Number
