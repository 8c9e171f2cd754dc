
/-!
# Plain text

Character classes and cutting of text: blanks, stripping, words, lines and substrings.
-/

namespace ClHost.Text

open String

variable (c : Char) (s : String)

def isBlank : Bool :=
  let n := c.toNat
  (9 ≤ n && n ≤ 13) || (28 ≤ n && n ≤ 32) || n == 0x85 || n == 0xA0 || n == 0x1680 ||
    (0x2000 ≤ n && n ≤ 0x200A) || n == 0x2028 || n == 0x2029 || n == 0x202F || n == 0x205F ||
    n == 0x3000

def isWordChar : Bool := c.isAlphanum || c == '_'

def stripLeft : String := ofList (s.toList.dropWhile isBlank)

def stripRight : String := ofList (s.toList.reverse.dropWhile isBlank).reverse

def strip : String := stripRight (stripLeft s)

def wordsAux : List Char → List Char → List String
  | [], [] => []
  | [], current => [ofList current.reverse]
  | c :: rest, current =>
    if isBlank c then
      match current with
      | [] => wordsAux rest []
      | _ => ofList current.reverse :: wordsAux rest []
    else wordsAux rest (c :: current)

def words : List String := wordsAux s.toList []

def startsWithChars : List Char → List Char → Bool
  | [], _ => true
  | _ :: _, [] => false
  | p :: ps, c :: cs => p == c && startsWithChars ps cs

def containsChars (part : List Char) : List Char → Bool
  | [] => part.isEmpty
  | c :: cs => startsWithChars part (c :: cs) || containsChars part cs

def contains (s part : String) : Bool := containsChars part.toList s.toList

def startsWith (s part : String) : Bool := startsWithChars part.toList s.toList

def endsWith (s part : String) : Bool := startsWithChars part.toList.reverse s.toList.reverse

/-- Replaces the occurrences of `part`, which is not empty, from left to right. -/
def replaceChars (part by_ : List Char) : Nat → List Char → List Char
  | _, [] => []
  | 0, c :: cs =>
    if startsWithChars part (c :: cs) then by_ ++ replaceChars part by_ (part.length - 1) cs
    else c :: replaceChars part by_ 0 cs
  | n + 1, _ :: cs => replaceChars part by_ n cs

def replaceAll (s part by_ : String) : String := ofList (replaceChars part.toList by_.toList 0 s.toList)

def splitChars (sep : Char) : List Char → List Char → List String
  | [], current => [ofList current.reverse]
  | c :: rest, current =>
    if c == sep then ofList current.reverse :: splitChars sep rest []
    else splitChars sep rest (c :: current)

def splitAt (sep : Char) (s : String) : List String := splitChars sep s.toList []

def lines : List String := splitAt '\n' s

/-- The lines of a text with blanks at both ends removed, empty ones left out: how a kernel source is
shown in a record. -/
def normalLines : String := intercalate "\n" (((lines s).map strip).filter (fun l => !l.isEmpty))

def lowerChar : Char :=
  let n := c.toNat
  if 65 ≤ n && n ≤ 90 then Char.ofNat (n + 32)
  else if 0xC0 ≤ n && n ≤ 0xDE && n != 0xD7 then Char.ofNat (n + 32)
  else if 0x391 ≤ n && n ≤ 0x3A9 && n != 0x3A2 then Char.ofNat (n + 32)
  else if 0x410 ≤ n && n ≤ 0x42F then Char.ofNat (n + 32)
  else if 0x400 ≤ n && n ≤ 0x40F then Char.ofNat (n + 80)
  else c

def lower : String := ofList (s.toList.map lowerChar)

def upper : String := ofList (s.toList.map Char.toUpper)

variable (width : Nat) (fill : Char) (cs : List Char)

def padLeft (s : String) : String := ofList (List.replicate (width - s.length) fill) ++ s

def padRight (s : String) : String := s ++ ofList (List.replicate (width - s.length) fill)

def digits (base n : Nat) : String := ofList (Nat.toDigits base n)

def hexByte (b : UInt8) : String := padLeft 2 '0' (digits 16 b.toNat)

def hex (bytes : List UInt8) : String := join (bytes.map hexByte)

def digitsValue : Nat := cs.foldl (fun n c => n * 10 + (c.toNat - '0'.toNat)) 0

def integerDigits : Bool → List Char → Option (List Char)
  | seen, [] => if seen then some [] else none
  | seen, c :: cs =>
    if c.isDigit then (integerDigits true cs).map (c :: ·)
    else if c == '_' && seen then integerDigits false cs
    else none

def readInteger? : Option Int :=
  match (strip s).toList with
  | '-' :: cs => (integerDigits false cs).map (fun ds => -(digitsValue ds : Int))
  | '+' :: cs => (integerDigits false cs).map (fun ds => (digitsValue ds : Int))
  | cs => (integerDigits false cs).map (fun ds => (digitsValue ds : Int))

/-! ## Quoted text -/

def isShown : Bool :=
  let n := c.toNat
  (32 ≤ n && n < 127) || (0xA1 ≤ n && n != 0xAD && !isBlank c && !(0xD800 ≤ n && n ≤ 0xF8FF))

def quoteChar (quote : Char) (c : Char) : String :=
  if c == '\\' then "\\\\"
  else if c == quote then ofList ['\\', c]
  else if c == '\n' then "\\n"
  else if c == '\r' then "\\r"
  else if c == '\t' then "\\t"
  else if isShown c then singleton c
  else if c.toNat < 256 then "\\x" ++ padLeft 2 '0' (digits 16 c.toNat)
  else if c.toNat < 65536 then "\\u" ++ padLeft 4 '0' (digits 16 c.toNat)
  else "\\U" ++ padLeft 8 '0' (digits 16 c.toNat)

def quoted : String :=
  let cs := s.toList
  let quote := if cs.contains '\'' && !cs.contains '"' then '"' else '\''
  singleton quote ++ join (cs.map (quoteChar quote)) ++ singleton quote

/-! ## Lists of texts -/

def escape : List Char := cs.flatMap fun c => if c = ',' then ['\\', ','] else [c]

/-- The elements with commas between them; a comma of an element has a backslash before it. -/
def joinList (elements : List String) : String := intercalate "," (elements.map fun e => ofList (escape e.toList))

def listFrom (part : List Char) : List Char → List String
  | [] => [ofList part.reverse]
  | '\\' :: ',' :: cs => listFrom (',' :: part) cs
  | ',' :: cs => ofList part.reverse :: listFrom [] cs
  | c :: cs => listFrom (c :: part) cs

/-- The texts between the commas that have no backslash before them. -/
def splitList : List String := if s.isEmpty then [] else listFrom [] s.toList

end ClHost.Text
