import ClHost.Array.Basic
import ClHost.CType.Declarator

/-!
# Expressions in templates

A small language of expressions. Its texts may have conversions: a percent sign, an optional name in parentheses, flags,
a width, a precision and a letter.
-/

namespace ClHost.Template

open Text

def wanted {α : Type} (c : Category) : Option α → Result α
  | some x => .ok x
  | none => .error (.bare c)

def taken {α : Type} : Option α → Result α := wanted .type

section

open String

inductive Datum where
  | none
  | text (s : String)
  | number (o : Operand)
  | list (items : List Datum)
  | tuple (items : List Datum)
  | type (t : ElementType)
  | other (className shown : String)

abbrev Bindings := List (String × Datum)

def Bindings.find? (b : Bindings) (name : String) : Option Datum := (List.find? (fun e => e.1 == name) b).map (·.2)

mutual

def Datum.quotedText : Datum → String
  | .none => "None"
  | .text s => quoted s
  | .number (.literal l) => l.text
  | .number (.element e) => Printed.elementScript e
  | .list items => "[" ++ intercalate ", " (Datum.quotedTexts items) ++ "]"
  | .tuple [x] => "(" ++ x.quotedText ++ ",)"
  | .tuple items => "(" ++ intercalate ", " (Datum.quotedTexts items) ++ ")"
  | .type t => t.scriptText
  | .other _ s => s

def Datum.quotedTexts : List Datum → List String
  | [] => []
  | d :: ds => d.quotedText :: Datum.quotedTexts ds

end

def Datum.shownText : Datum → String
  | .text s => s
  | .number (.element e) => Printed.elementText e
  | .type t => t.text
  | d => d.quotedText

structure Conversion where
  name : Option String
  leftAligned : Bool
  zeroPadded : Bool
  signed : Bool
  spaced : Bool
  alternate : Bool
  width : Nat
  precision : Option Nat
  letter : Char

def takeName : Nat → List Char → List Char → Option (String × List Char)
  | _, _, [] => none
  | depth, acc, '(' :: cs => takeName (depth + 1) ('(' :: acc) cs
  | 0, acc, ')' :: cs => some (ofList acc.reverse, cs)
  | depth + 1, acc, ')' :: cs => takeName depth (')' :: acc) cs
  | depth, acc, c :: cs => takeName depth (c :: acc) cs

def readConversion (cs : List Char) : Result (Conversion × List Char) := do
  let (name, cs) ← match cs with
    | '(' :: rest => do
      let (n, cs) ← wanted .value (takeName 0 [] rest)
      pure (some n, cs)
    | cs => .ok (none, cs)
  let isFlag (c : Char) : Bool := c == '-' || c == '+' || c == ' ' || c == '#' || c == '0'
  let flags := cs.takeWhile isFlag
  let cs := cs.dropWhile isFlag
  let width := cs.takeWhile Char.isDigit
  let cs := cs.dropWhile Char.isDigit
  let (precision, cs) : Option Nat × List Char := match cs with
    | '.' :: rest => (some (digitsValue (rest.takeWhile Char.isDigit)), rest.dropWhile Char.isDigit)
    | cs => (none, cs)
  let cs := match cs with
    | 'l' :: rest | 'h' :: rest | 'L' :: rest => rest
    | cs => cs
  match cs with
  | [] => .error (.bare .value)
  | letter :: rest =>
    return ({
      name, letter, precision
      leftAligned := flags.contains '-'
      zeroPadded := flags.contains '0'
      signed := flags.contains '+'
      spaced := flags.contains ' '
      alternate := flags.contains '#'
      width := digitsValue width }, rest)

variable (c : Conversion) (d : Datum)

def padNumber (negative : Bool) (mark body : String) : String :=
  let sign := if negative then "-" else if c.signed then "+" else if c.spaced then " " else ""
  let lead := sign ++ mark
  if c.leftAligned then padRight c.width ' ' (lead ++ body)
  else if c.zeroPadded then lead ++ padLeft (c.width - lead.length) '0' body
  else padLeft c.width ' ' (lead ++ body)

def padText (s : String) : String :=
  let s := match c.precision with
    | some n => ofList (s.toList.take n)
    | none => s
  if c.leftAligned then padRight c.width ' ' s else padLeft c.width ' ' s

def integerBody (base n : Nat) : String := padLeft (c.precision.getD 0) '0' (digits base n)

/-- The digits of a number, with a point before the last `places` of them. -/
def pointed (places n : Nat) : String :=
  let ds := (padLeft (places + 1) '0' (toString n)).toList
  let whole := ofList (ds.take (ds.length - places))
  if places == 0 then whole else whole ++ "." ++ ofList (ds.drop (ds.length - places))

/-- The first digits of a quotient that is not zero, and where its point stands. -/
def firstDigits (count num den : Nat) : Nat × Int :=
  let point := Number.pointOf num den
  let n := Number.roundedDown 10 (point - count) num den
  if n == Nat.pow 10 count then (n / 10, point + 1) else (n, point)

def realBody (letter : Char) (precision : Nat) (x : Float) : String :=
  match Number.readDouble x with
  | .nan => "nan"
  | .infinite _ => "inf"
  | .finite _ m scale =>
    let (num, den) := Number.scaled m scale
    match letter, m with
    | 'f', _ => pointed precision (Number.roundQuotient (num * Nat.pow 10 precision) den)
    | 'e', 0 => pointed precision 0 ++ "e+00"
    | 'e', _ =>
      let (n, point) := firstDigits (precision + 1) num den
      pointed precision n ++ Number.exponentText (point - 1)
    | _, 0 => "0"
    | _, _ =>
      let p := max precision 1
      let (n, point) := firstDigits p num den
      let d := (Number.Decimal.mk n p point).trim
      if -4 ≤ point - 1 && point - 1 < p then d.positional "" else d.scientific

def Datum.quantity? : Datum → Option Quantity
  | .number o => o.quantity?
  | _ => Option.none

def Datum.integer? : Option Int :=
  match d.quantity? with
  | some (.int n) => some n
  | some (.real x) => Number.truncate? x
  | _ => Option.none

def Datum.exactInteger? : Option Int :=
  match d.quantity? with
  | some (.int n) => some n
  | _ => Option.none

def Datum.real? : Option Float :=
  match d.quantity? with
  | some (.complex _ _) | Option.none => Option.none
  | some q => some q.re

def Conversion.apply : Result String := do
  match c.letter, d with
  | 's', d => return padText c d.shownText
  | 'r', d | 'a', d => return padText c d.quotedText
  | 'c', .text s => if s.length == 1 then return padText c s else .error (.bare .type)
  | 'c', d =>
    let n ← taken d.exactInteger?
    if 0 ≤ n && n < 0x110000 then return padText c (singleton (Char.ofNat n.toNat)) else .error (.bare .overflow)
  | 'd', d | 'i', d | 'u', d =>
    let n ← taken d.integer?
    return padNumber c (n < 0) "" (integerBody c 10 n.natAbs)
  | 'x', d | 'X', d | 'o', d =>
    let n ← taken d.exactInteger?
    let (base, mark) := if c.letter == 'o' then (8, "0o") else (16, "0x")
    let s := padNumber c (n < 0) (if c.alternate then mark else "") (integerBody c base n.natAbs)
    return if c.letter == 'X' then upper s else s
  | letter, d =>
    if !"feg".toList.contains letter.toLower then .error (.bare .value)
    let x ← taken d.real?
    let s := padNumber c (Number.isNegative x) "" (realBody letter.toLower (c.precision.getD 6) x)
    return if letter.isUpper then upper s else s

def Bindings.text (b : Bindings) : String :=
  "\x7b" ++ intercalate ", " (b.map fun (n, d) => quoted n ++ ": " ++ d.quotedText) ++ "\x7d"

/-- Shows a format piece by piece, so that the first mistake counts. Its conversions are for values with names, or for one
value that may be used once, and has to be if there are no names. -/
def renderPieces (named : Option Bindings) (whole : Datum) : Nat → Bool → List Char → Result (List String)
  | 0, _, _ => .ok []
  | _, used, [] => if used || named.isSome then .ok [] else .error (.bare .type)
  | fuel + 1, used, '%' :: cs => do
    let (c, rest) ← readConversion cs
    if c.letter == '%' then return "%" :: (← renderPieces named whole fuel used rest)
    let d ← match c.name, named with
      | some n, some b => wanted .key (b.find? n)
      | some _, none => .error (.bare .type)
      | none, _ => if used then .error (.bare .type) else .ok whole
    return (← c.apply d) :: (← renderPieces named whole fuel (used || c.name.isNone) rest)
  | fuel + 1, used, c :: cs => do return singleton c :: (← renderPieces named whole fuel used cs)

def renderNamed (b : Bindings) (text : String) : Result String := do
  return join (← renderPieces (some b) (.other "dict" b.text) (text.length + 1) false text.toList)

def renderOne (text : String) : Result String := do
  return join (← renderPieces none d (text.length + 1) false text.toList)

end

/-! ## Expressions -/

inductive Token where
  | int (n : Int)
  | real (x : Float)
  | text (s : String)
  | name (s : String)
  | sign (s : String)
deriving BEq

def longSigns : List String := ["**", "//", "==", "!=", "<=", ">="]

def shortSigns : List Char := "+-*/%<>()[],.:=".toList

def takeQuoted (quote : Char) : List Char → List Char → Option (String × List Char)
  | _, [] => none
  | acc, '\\' :: 'n' :: cs => takeQuoted quote ('\n' :: acc) cs
  | acc, '\\' :: c :: cs => takeQuoted quote (c :: acc) cs
  | acc, c :: cs =>
    if c == quote then some (String.ofList acc.reverse, cs)
    else if c == '\n' then none
    else takeQuoted quote (c :: acc) cs

def takeNumber (cs : List Char) : Token × List Char :=
  let whole := cs.takeWhile Char.isDigit
  match cs.dropWhile Char.isDigit with
  | '.' :: rest =>
    let fraction := rest.takeWhile Char.isDigit
    let n := digitsValue (whole ++ fraction)
    (.real (Number.doubleOfQuotient false n (Nat.pow 10 fraction.length)), rest.dropWhile Char.isDigit)
  | rest => (.int (digitsValue whole), rest)

def tokens : Nat → List Char → Option (List Token)
  | 0, _ => some []
  | _, [] => some []
  | fuel + 1, c :: cs =>
    if isBlank c then tokens fuel cs
    else if c.isDigit then
      let (t, rest) := takeNumber (c :: cs)
      (tokens fuel rest).map (t :: ·)
    else if c == '"' || c == '\'' then do
      let (s, rest) ← takeQuoted c [] cs
      return .text s :: (← tokens fuel rest)
    else if isWordChar c then
      let word := (c :: cs).takeWhile isWordChar
      (tokens fuel ((c :: cs).dropWhile isWordChar)).map (.name (String.ofList word) :: ·)
    else
      let two := String.ofList ((c :: cs).take 2)
      if longSigns.contains two then (tokens fuel (cs.drop 1)).map (.sign two :: ·)
      else if shortSigns.contains c then (tokens fuel cs).map (.sign (String.singleton c) :: ·)
      else none

inductive Expression where
  | value (d : Datum)
  | name (s : String)
  | negate (e : Expression)
  | not (e : Expression)
  | binary (sign : String) (a b : Expression)
  | both (a b : Expression)
  | either (a b : Expression)
  | choice (condition yes no : Expression)
  | call (function : String) (args : List Expression)
  | method (target : Expression) (name : String) (args : List Expression)
  | index (target at_ : Expression)
  | list (items : List Expression)
  | tuple (items : List Expression)

abbrev Reading := Option (Expression × List Token)

def reservedWords : List String := ["and", "or", "not", "if", "else", "in", "for", "is", "lambda"]

def leftFold (join : Token → Option (Expression → Expression → Expression)) (operand : List Token → Reading) :
    Nat → Expression → List Token → Reading
  | fuel + 1, a, t :: ts =>
    match join t with
    | some f => do
      let (b, rest) ← operand ts
      leftFold join operand fuel (f a b) rest
    | none => some (a, t :: ts)
  | _, a, ts => some (a, ts)

def readJoined (join : Token → Option (Expression → Expression → Expression)) (operand : List Token → Reading)
    (ts : List Token) : Reading := do
  let (a, rest) ← operand ts
  leftFold join operand rest.length a rest

def signOf (signs : List String) : Token → Option (Expression → Expression → Expression)
  | .sign s => if signs.contains s then some (.binary s) else none
  | _ => none

def comparisonSigns : List String := ["==", "!=", "<", "<=", ">", ">="]

mutual

def readExpression : Nat → List Token → Reading
  | 0, _ => none
  | fuel + 1, ts => do
    let (yes, rest) ← readDisjunction fuel ts
    match rest with
    | .name "if" :: rest =>
      let (condition, rest) ← readDisjunction fuel rest
      match rest with
      | .name "else" :: rest =>
        let (no, rest) ← readExpression fuel rest
        return (.choice condition yes no, rest)
      | _ => none
    | rest => return (yes, rest)

def readDisjunction : Nat → List Token → Reading
  | 0, _ => none
  | fuel + 1, ts => readJoined (fun t => if t == .name "or" then some .either else none) (readConjunction fuel) ts

def readConjunction : Nat → List Token → Reading
  | 0, _ => none
  | fuel + 1, ts => readJoined (fun t => if t == .name "and" then some .both else none) (readNegation fuel) ts

def readNegation : Nat → List Token → Reading
  | 0, _ => none
  | fuel + 1, .name "not" :: ts => do
    let (a, rest) ← readNegation fuel ts
    return (.not a, rest)
  | fuel + 1, ts => do
    let (a, rest) ← readSum fuel ts
    match rest with
    | .sign s :: after =>
      if comparisonSigns.contains s then
        let (b, rest) ← readSum fuel after
        return (.binary s a b, rest)
      else return (a, rest)
    | .name "in" :: after =>
      let (b, rest) ← readSum fuel after
      return (.binary "in" a b, rest)
    | .name "not" :: .name "in" :: after =>
      let (b, rest) ← readSum fuel after
      return (.not (.binary "in" a b), rest)
    | rest => return (a, rest)

def readSum : Nat → List Token → Reading
  | 0, _ => none
  | fuel + 1, ts => readJoined (signOf ["+", "-"]) (readProduct fuel) ts

def readProduct : Nat → List Token → Reading
  | 0, _ => none
  | fuel + 1, ts => readJoined (signOf ["*", "/", "//", "%"]) (readFactor fuel) ts

def readFactor : Nat → List Token → Reading
  | 0, _ => none
  | fuel + 1, .sign "-" :: ts => do
    let (a, rest) ← readFactor fuel ts
    return (.negate a, rest)
  | fuel + 1, .sign "+" :: ts => readFactor fuel ts
  | fuel + 1, ts => do
    let (a, rest) ← readAtom fuel ts
    let (a, rest) ← readParts fuel a rest
    match rest with
    | .sign "**" :: rest =>
      let (b, rest) ← readFactor fuel rest
      return (.binary "**" a b, rest)
    | rest => return (a, rest)

def readParts : Nat → Expression → List Token → Reading
  | 0, _, _ => none
  | fuel + 1, a, .sign "[" :: ts => do
    let (i, rest) ← readExpression fuel ts
    match rest with
    | .sign "]" :: rest => readParts fuel (.index a i) rest
    | _ => none
  | fuel + 1, a, .sign "." :: .name m :: .sign "(" :: ts => do
    let (args, _, rest) ← readItems fuel ")" ts
    readParts fuel (.method a m args) rest
  | _ + 1, a, ts => some (a, ts)

def readAtom : Nat → List Token → Reading
  | 0, _ => none
  | _ + 1, .int n :: ts => some (.value (.number (.literal (.int n))), ts)
  | _ + 1, .real x :: ts => some (.value (.number (.literal (.real x))), ts)
  | _ + 1, .text s :: ts => some (.value (.text s), ts)
  | _ + 1, .name "True" :: ts => some (.value (.number (.literal (.bool true))), ts)
  | _ + 1, .name "False" :: ts => some (.value (.number (.literal (.bool false))), ts)
  | _ + 1, .name "None" :: ts => some (.value .none, ts)
  | fuel + 1, .name f :: .sign "(" :: ts => do
    if reservedWords.contains f then none
    let (args, _, rest) ← readItems fuel ")" ts
    return (.call f args, rest)
  | _ + 1, .name s :: ts => if reservedWords.contains s then none else some (.name s, ts)
  | fuel + 1, .sign "[" :: ts => do
    let (items, _, rest) ← readItems fuel "]" ts
    return (.list items, rest)
  | fuel + 1, .sign "(" :: ts => do
    let (items, single, rest) ← readItems fuel ")" ts
    match items, single with
    | [e], true => return (e, rest)
    | es, _ => return (.tuple es, rest)
  | _ + 1, _ => none

def readItems : Nat → String → List Token → Option (List Expression × Bool × List Token)
  | 0, _, _ => none
  | fuel + 1, close, ts =>
    if ts.head? == some (.sign close) then some ([], false, ts.drop 1)
    else do
      let (e, rest) ← readExpression fuel ts
      match rest with
      | .sign "," :: rest =>
        let (es, _, rest) ← readItems fuel close rest
        return (e :: es, false, rest)
      | .sign s :: rest => if s == close then return ([e], true, rest) else none
      | _ => none

end

def nestingBound (ts : List Token) : Nat := 12 * (ts.length + 2)

def Expression.read (s : String) : Option Expression := do
  let ts ← tokens s.length s.toList
  let (items, single, rest) ← readItems (nestingBound ts) ")" (ts ++ [.sign ")"])
  if !rest.isEmpty then none
  match items, single with
  | [], _ => none
  | [e], true => return e
  | es, _ => return .tuple es

mutual

def Expression.names : Expression → List String
  | .value _ => []
  | .name s => [s]
  | .negate e | .not e => e.names
  | .binary _ a b | .both a b | .either a b | .index a b => a.names ++ b.names
  | .choice c a b => c.names ++ a.names ++ b.names
  | .call f args => f :: Expression.allNames args
  | .method e _ args => e.names ++ Expression.allNames args
  | .list items | .tuple items => Expression.allNames items

def Expression.allNames : List Expression → List String
  | [] => []
  | e :: es => e.names ++ Expression.allNames es

end

def Datum.ofInt (n : Int) : Datum := .number (.literal (.int n))

def Datum.ofBool (b : Bool) : Datum := .number (.literal (.bool b))

def Datum.truth : Datum → Bool
  | .none => false
  | .text s => !s.isEmpty
  | .number o => match o.quantity? with
    | some q => q.isTrue
    | Option.none => true
  | .list xs | .tuple xs => !xs.isEmpty
  | _ => true

def Datum.items? : Datum → Option (List Datum)
  | .list xs | .tuple xs => some xs
  | .text s => some (s.toList.map fun c => .text (String.singleton c))
  | _ => Option.none

def Datum.ofReal (x : Float) : Datum := .number (.literal (.real x))

variable (sign : String)

def isDivision : Bool := ["/", "//", "%"].contains sign

def integerArithmetic (a b : Int) : Result Datum :=
  if isDivision sign && b == 0 then .error (.bare .zeroDivision) else
  match sign with
  | "+" => .ok (.ofInt (a + b))
  | "-" => .ok (.ofInt (a - b))
  | "*" => .ok (.ofInt (a * b))
  | "//" => .ok (.ofInt (a.fdiv b))
  | "%" => .ok (.ofInt (a.fmod b))
  | "/" => .ok (.ofReal (Number.doubleOfQuotient (decide (a < 0) != decide (b < 0)) a.natAbs b.natAbs))
  | "**" => .ok (if 0 ≤ b then .ofInt (Int.pow a b.toNat) else .ofReal (Number.doubleOfInt a ^ Number.doubleOfInt b))
  | _ => .error (.bare .type)

def realArithmetic (a b : Float) : Result Datum :=
  if isDivision sign && b == 0.0 then .error (.bare .zeroDivision) else
  match sign with
  | "+" => .ok (.ofReal (a + b))
  | "-" => .ok (.ofReal (a - b))
  | "*" => .ok (.ofReal (a * b))
  | "/" => .ok (.ofReal (a / b))
  | "//" => .ok (.ofReal (a / b).floor)
  | "%" => .ok (.ofReal (a - b * (a / b).floor))
  | "**" => .ok (.ofReal (a ^ b))
  | _ => .error (.bare .type)

mutual

def Datum.equals : Datum → Datum → Bool
  | .none, .none => true
  | .text s, .text t => s == t
  | .number a, .number b => match a.quantity?, b.quantity? with
    | some x, some y => x.equals y
    | _, _ => false
  | .list xs, .list ys | .tuple xs, .tuple ys => Datum.equalItems xs ys
  | .type s, .type t => s.same t
  | _, _ => false

def Datum.equalItems : List Datum → List Datum → Bool
  | [], [] => true
  | x :: xs, y :: ys => x.equals y && Datum.equalItems xs ys
  | _, _ => false

end

def Datum.less (a b : Datum) : Result Bool :=
  match a, b with
  | .text s, .text t => .ok (decide (s < t))
  | a, b =>
    match a.exactInteger?, b.exactInteger?, a.real?, b.real? with
    | some m, some n, _, _ => .ok (decide (m < n))
    | _, _, some x, some y => .ok (decide (x < y))
    | _, _, _, _ => .error (.bare .type)

def applyOperator (a b : Datum) : Result Datum := do
  match sign with
  | "==" => return .ofBool (a.equals b)
  | "!=" => return .ofBool (!a.equals b)
  | "<" => return .ofBool (← a.less b)
  | ">" => return .ofBool (← b.less a)
  | "<=" => return .ofBool ((← a.less b) || a.equals b)
  | ">=" => return .ofBool ((← b.less a) || a.equals b)
  | "in" =>
    match a, b with
    | .text s, .text t => return .ofBool (contains t s)
    | a, b => return .ofBool ((← taken b.items?).any a.equals)
  | sign =>
    match sign, a, b with
    | "+", .text s, .text t => return .text (s ++ t)
    | "+", .list xs, .list ys => return .list (xs ++ ys)
    | "+", .tuple xs, .tuple ys => return .tuple (xs ++ ys)
    | "%", .text s, d => return .text (← renderOne d s)
    | sign, a, b =>
      match a.exactInteger?, b.exactInteger?, a.real?, b.real? with
      | some m, some n, _, _ => integerArithmetic sign m n
      | _, _, some x, some y => realArithmetic sign x y
      | _, some n, _, _ =>
        match sign, a with
        | "*", .text s => return .text (String.join (List.replicate n.toNat s))
        | "*", .list xs => return .list (List.replicate n.toNat xs).flatten
        | _, _ => .error (.bare .type)
      | _, _, _, _ => .error (.bare .type)

def functionNames : List String :=
  ["range", "len", "str", "int", "float", "abs", "min", "max", "sum", "enumerate", "zip", "list", "tuple", "reversed",
    "bool", "repr"]

def pick (better : Datum → Datum → Result Bool) : List Datum → Result Datum
  | [] => .error (.bare .value)
  | d :: ds => ds.foldlM (fun best e => do return if ← better e best then e else best) d

def applyFunction (f : String) (args : List Datum) : Result Datum := do
  match f, args with
  | "range", args =>
    let (start, stop, step) ← match ← args.mapM fun a => taken a.exactInteger? with
      | [stop] => pure (0, stop, 1)
      | [start, stop] => pure (start, stop, 1)
      | [start, stop, step] => pure (start, stop, step)
      | _ => .error (.bare .type)
    if step == 0 then .error (.bare .value)
    let n := if 0 < step then (stop - start + step - 1) / step else (start - stop - step - 1) / (-step)
    return .list ((List.range n.toNat).map fun (i : Nat) => .ofInt (start + step * i))
  | "len", [d] => return .ofInt (← taken d.items?).length
  | "str", [d] => return .text d.shownText
  | "repr", [d] => return .text d.quotedText
  | "bool", [d] => return .ofBool d.truth
  | "int", [.text s] => return .ofInt (← wanted .value (readInteger? s))
  | "int", [d] => return .ofInt (← taken d.integer?)
  | "float", [d] => return .ofReal (← taken d.real?)
  | "abs", [d] => match d.exactInteger? with
    | some n => return .ofInt n.natAbs
    | none => return .ofReal (← taken d.real?).abs
  | "min", [d] => pick Datum.less (← taken d.items?)
  | "min", ds => pick Datum.less ds
  | "max", [d] => pick (fun a b => b.less a) (← taken d.items?)
  | "max", ds => pick (fun a b => b.less a) ds
  | "sum", [d] => (← taken d.items?).foldlM (applyOperator "+") (.ofInt 0)
  | "enumerate", [d] => return .list ((← taken d.items?).zipIdx.map fun (x, i) => .tuple [.ofInt i, x])
  | "zip", [a, b] => return .list (((← taken a.items?).zip (← taken b.items?)).map fun (x, y) => .tuple [x, y])
  | "list", [d] => return .list (← taken d.items?)
  | "tuple", [d] => return .tuple (← taken d.items?)
  | "reversed", [d] => return .list (← taken d.items?).reverse
  | _, _ => .error (.bare .type)

def applyMethod (d : Datum) (m : String) (args : List Datum) : Result Datum :=
  match d, m, args with
  | .text s, "upper", [] => .ok (.text (upper s))
  | .text s, "lower", [] => .ok (.text (lower s))
  | .text s, "strip", [] => .ok (.text (strip s))
  | .text s, "replace", [.text a, .text b] => .ok (.text (replaceAll s a b))
  | .text s, "startswith", [.text a] => .ok (.ofBool (startsWith s a))
  | .text s, "endswith", [.text a] => .ok (.ofBool (endsWith s a))
  | .text s, "join", [xs] => do
    let texts ← (← taken xs.items?).mapM fun i => match i with
      | .text t => Except.ok t
      | _ => .error (Fault.bare .type)
    return .text (String.intercalate s texts)
  | _, _, _ => .error (.bare .attribute)

def applyIndex (d i : Datum) : Result Datum := do
  let xs ← taken d.items?
  let n ← taken i.exactInteger?
  let n := if n < 0 then n + xs.length else n
  wanted .index (if n < 0 then none else xs[n.toNat]?)

mutual

def Expression.evaluate (b : Bindings) : Expression → Result Datum
  | .value d => .ok d
  | .name s => wanted .unknownName (b.find? s)
  | .negate e => do applyOperator "-" (.ofInt 0) (← e.evaluate b)
  | .not e => do return .ofBool !(← e.evaluate b).truth
  | .binary sign x y => do applyOperator sign (← x.evaluate b) (← y.evaluate b)
  | .both x y => do
    let d ← x.evaluate b
    if d.truth then y.evaluate b else return d
  | .either x y => do
    let d ← x.evaluate b
    if d.truth then return d else y.evaluate b
  | .choice c x y => do if (← c.evaluate b).truth then x.evaluate b else y.evaluate b
  | .call f args => do applyFunction f (← Expression.evaluateAll b args)
  | .method e m args => do applyMethod (← e.evaluate b) m (← Expression.evaluateAll b args)
  | .index e i => do applyIndex (← e.evaluate b) (← i.evaluate b)
  | .list items => do return .list (← Expression.evaluateAll b items)
  | .tuple items => do return .tuple (← Expression.evaluateAll b items)

def Expression.evaluateAll (b : Bindings) : List Expression → Result (List Datum)
  | [] => .ok []
  | e :: es => do return (← e.evaluate b) :: (← Expression.evaluateAll b es)

end

end ClHost.Template
