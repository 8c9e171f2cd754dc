import ClHost.Device.Record
import ClHost.Fault

/-!
# Files and what they include

A small file system: directories, and files with their contents and times of change.
-/

namespace ClHost

open Text

structure Dependency where
  file : String
  time : Int
  digest : String
deriving DecidableEq

structure BuildNote where
  dependencies : List Dependency
  log : String
deriving DecidableEq

inductive FileContent where
  | bytes (b : Bytes)
  | note (n : BuildNote)
deriving DecidableEq

structure File where
  content : FileContent
  time : Nat
deriving DecidableEq

abbrev Path := List String

namespace Path

def step (up : Path) (name : String) : Path :=
  if name == "" || name == "." then up
  else if name == ".." then
    match up with
    | [] => [".."]
    | top :: rest => if top == ".." then ".." :: up else rest
  else name :: up

def ofText (s : String) : Path := ((splitAt '/' s).foldl step []).reverse

def locate (workingDirectory s : String) : Path :=
  if startsWith (s ++ "/") (workingDirectory ++ "/") then
    ofText (String.ofList (s.toList.drop (workingDirectory.length + 1)))
  else if startsWith s "/" then ".." :: ofText s
  else ofText s

def text (p : Path) : String := String.intercalate "/" p

def join (a b : String) : String :=
  if startsWith b "/" then b
  else if a.isEmpty || endsWith a "/" then a ++ b
  else a ++ "/" ++ b

end Path

structure FileTree where
  directories : List Path := []
  files : List (Path × File) := []

namespace FileTree

variable (t : FileTree) (p : Path)

def file? : Option File := (t.files.find? (fun e => e.1 == p)).map (·.2)

def isDirectory : Bool := p.isEmpty || t.directories.contains p

def inits : List Path := (List.range p.length).map fun i => p.take (i + 1)

def makeDirectories : FileTree :=
  { t with directories := (inits p).foldl (fun ds d => if ds.contains d then ds else ds ++ [d]) t.directories }

def makeDirectory : Result FileTree :=
  if t.isDirectory p || (t.file? p).isSome then .error (.bare .existingFile)
  else if !t.isDirectory p.dropLast then .error (.bare .missingFile)
  else .ok { t with directories := t.directories ++ [p] }

def write (f : File) : Result FileTree :=
  if t.isDirectory p then .error (.bare .isDirectory)
  else if !t.isDirectory p.dropLast then .error (.bare .missingFile)
  else .ok { t with files := t.files.filter (fun e => e.1 != p) ++ [(p, f)] }

def remove : Result FileTree :=
  if (t.file? p).isSome then .ok { t with files := t.files.filter (fun e => e.1 != p) }
  else if t.isDirectory p then .error (.bare .isDirectory)
  else .error (.bare .missingFile)

def eraseDirectory : Result FileTree :=
  if !t.isDirectory p then .error (.bare .missingFile)
  else if t.directories.any (fun d => d.dropLast == p && !d.isEmpty && d != p) then
    .error (.bare .isDirectory)
  else .ok {
    directories := t.directories.filter (· != p)
    files := t.files.filter (fun e => e.1.dropLast != p) }

def read : Result Bytes :=
  match t.file? p with
  | some ⟨.bytes b, _⟩ => .ok b
  | some ⟨.note _, _⟩ => .error (.bare .decoding)
  | none => if t.isDirectory p then .error (.bare .isDirectory) else .error (.bare .missingFile)

def readText : Result String := do
  let b ← t.read p
  match String.fromUTF8? ⟨b.toArray⟩ with
  | some s => return replaceAll (replaceAll s "\r\n" "\n") "\r" "\n"
  | none => .error (.bare .decoding)

def listing : List String := (t.files.map (fun e => Path.text e.1)).mergeSort (fun a b => decide (a ≤ b))

end FileTree

def utf8 (s : String) : Bytes := s.toUTF8.toList

/-! ## Message digests -/

namespace Digest

structure State where
  a : UInt32
  b : UInt32
  c : UInt32
  d : UInt32
deriving DecidableEq

def State.start : State := ⟨0x67452301, 0xefcdab89, 0x98badcfe, 0x10325476⟩

def sines : Array UInt32 := #[
  0xd76aa478, 0xe8c7b756, 0x242070db, 0xc1bdceee, 0xf57c0faf, 0x4787c62a, 0xa8304613, 0xfd469501,
  0x698098d8, 0x8b44f7af, 0xffff5bb1, 0x895cd7be, 0x6b901122, 0xfd987193, 0xa679438e, 0x49b40821,
  0xf61e2562, 0xc040b340, 0x265e5a51, 0xe9b6c7aa, 0xd62f105d, 0x02441453, 0xd8a1e681, 0xe7d3fbc8,
  0x21e1cde6, 0xc33707d6, 0xf4d50d87, 0x455a14ed, 0xa9e3e905, 0xfcefa3f8, 0x676f02d9, 0x8d2a4c8a,
  0xfffa3942, 0x8771f681, 0x6d9d6122, 0xfde5380c, 0xa4beea44, 0x4bdecfa9, 0xf6bb4b60, 0xbebfbc70,
  0x289b7ec6, 0xeaa127fa, 0xd4ef3085, 0x04881d05, 0xd9d4d039, 0xe6db99e5, 0x1fa27cf8, 0xc4ac5665,
  0xf4292244, 0x432aff97, 0xab9423a7, 0xfc93a039, 0x655b59c3, 0x8f0ccc92, 0xffeff47d, 0x85845dd1,
  0x6fa87e4f, 0xfe2ce6e0, 0xa3014314, 0x4e0811a1, 0xf7537e82, 0xbd3af235, 0x2ad7d2bb, 0xeb86d391]

def turn (round : Nat) : UInt32 :=
  let row : List UInt32 := match round / 16 with
    | 0 => [7, 12, 17, 22]
    | 1 => [5, 9, 14, 20]
    | 2 => [4, 11, 16, 23]
    | _ => [6, 10, 15, 21]
  row.getD (round % 4) 0

def rotate (x n : UInt32) : UInt32 := (x <<< n) ||| (x >>> (32 - n))

def round (block : Array UInt32) (s : State) (i : Nat) : State :=
  let (f, k) := match i / 16 with
    | 0 => ((s.b &&& s.c) ||| (~~~s.b &&& s.d), i)
    | 1 => ((s.d &&& s.b) ||| (~~~s.d &&& s.c), (5 * i + 1) % 16)
    | 2 => (s.b ^^^ s.c ^^^ s.d, (3 * i + 5) % 16)
    | _ => (s.c ^^^ (s.b ||| ~~~s.d), (7 * i) % 16)
  let sum := s.a + f + sines[i]?.getD 0 + block[k]?.getD 0
  ⟨s.d, s.b + rotate sum (turn i), s.b, s.c⟩

def mix (s : State) (block : Array UInt32) : State :=
  let t := (List.range 64).foldl (round block) s
  ⟨s.a + t.a, s.b + t.b, s.c + t.c, s.d + t.d⟩

def bytesOf : Nat → Nat → List UInt8
  | 0, _ => []
  | size + 1, n => (n % 256).toUInt8 :: bytesOf size (n / 256)

def words : List UInt8 → List UInt32
  | a :: b :: c :: d :: rest =>
    (a.toUInt32 ||| (b.toUInt32 <<< 8) ||| (c.toUInt32 <<< 16) ||| (d.toUInt32 <<< 24)) :: words rest
  | _ => []

def pad (message : List UInt8) : List UInt8 :=
  let n := message.length
  message ++ [0x80] ++ List.replicate ((119 - n % 64) % 64) 0 ++ bytesOf 8 (8 * n)

def mixAll : Nat → State → List UInt32 → State
  | 0, s, _ => s
  | n + 1, s, ws => mixAll n (mix s (ws.take 16).toArray) (ws.drop 16)

def md5 (message : List UInt8) : String :=
  let ws := words (pad message)
  let s := mixAll (ws.length / 16) State.start ws
  Text.hex ([s.a, s.b, s.c, s.d].flatMap fun w => bytesOf 4 w.toNat)

end Digest

/-! ## Included files -/

namespace Source

def lineStarts : List Char → List (List Char)
  | [] => []
  | c :: cs => if c == '\n' then cs :: lineStarts cs else lineStarts cs

/-- The name on the include line at the start of characters. -/
def includeName? (cs : List Char) : Option String :=
  match cs.dropWhile (fun c => isBlank c && c != '\n') with
  | '#' :: rest =>
    let word := rest.dropWhile isBlank
    let after := word.drop 7
    if startsWithChars "include".toList word && after.head?.any isBlank then
      match (after.dropWhile isBlank).takeWhile (· != '\n') with
      | opening :: inner =>
        match inner.reverse.dropWhile isBlank with
        | closing :: c :: name =>
          if (opening == '<' || opening == '"') && (closing == '>' || closing == '"') then
            some (String.ofList (c :: name).reverse)
          else none
        | _ => none
      | [] => none
    else none
  | _ => none

def includes (source : String) : List String := (lineStarts ('\n' :: source.toList)).filterMap includeName?

def digest (text : String) : String := Digest.md5 (utf8 text)

/-- Follows one included name along an include path: the first file there that can be read and was not
reached before, which `follow` then looks into. -/
def resolve (tree : FileTree) (root name : String) (follow : String → List Dependency → Result (List Dependency)) :
    List String → List Dependency → Result (List Dependency)
  | [], found => .ok found
  | directory :: rest, found =>
    let path := Path.locate root (Path.join directory name)
    let file := root ++ "/" ++ Path.text path
    if found.any (fun d => d.file == file) then resolve tree root name follow rest found
    else
      match tree.file? path, tree.readText path with
      | some f, .ok text => follow text (found ++ [⟨file, f.time, digest text⟩])
      | some _, .error e => .error e
      | none, _ => resolve tree root name follow rest found

def dependenciesFrom (tree : FileTree) (root : String) (path : List String) :
    Nat → String → List Dependency → Result (List Dependency)
  | 0, _, found => .ok found
  | depth + 1, source, found =>
    (includes source).foldlM (fun found name =>
      resolve tree root name (dependenciesFrom tree root path depth) path found) found

variable (tree : FileTree)

def dependencies (root : String) (source : String) (path : List String) :
    Result (List Dependency) := do
  let found ← dependenciesFrom tree root path (tree.files.length + 1) source []
  return found.mergeSort (fun a b => decide (a.file ≤ b.file))

def fileDigest (root file : String) : Result String := do
  return digest (← tree.readText (Path.locate root file))

def isCurrent (root : String) (d : Dependency) : Result Bool :=
  let path := Path.locate root d.file
  match tree.file? path with
  | some f =>
    if (f.time : Int) == d.time then .ok true
    else do return (← fileDigest tree root d.file) == d.digest
  | none => if tree.isDirectory path then .error (.bare .isDirectory) else .ok false

def areCurrent (tree : FileTree) (root : String) : List Dependency → Result Bool
  | [] => .ok true
  | d :: ds => do if ← isCurrent tree root d then areCurrent tree root ds else return false

end Source

end ClHost
