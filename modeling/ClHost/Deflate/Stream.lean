import Std.Data.HashMap
import ClHost.Device.Record

/-!
# Compressed streams

A block of tokens is written in the shortest of three ways: its bytes as they are, with the fixed codes, or with codes
made for the block, which stand in front of it and are run-length coded themselves.
-/

namespace ClHost.Deflate

/-! ## Literals and copies -/

inductive Token
  | literal (byte : UInt8)
  | copy (length distance : Nat)
deriving DecidableEq

structure Effort where
  /-- With a match this long in hand, only a quarter of the chain is followed. -/
  good : Nat
  /-- With a match this long in hand, no other is looked for. -/
  lazy : Nat
  /-- A match this long ends the search. -/
  nice : Nat
  chain : Nat
deriving DecidableEq

def Effort.usual : Effort := ⟨8, 16, 128, 128⟩

def shortest : Nat := 3

def longest : Nat := 258

def reach : Nat := 32506

def shortReach : Nat := 4096

/-- A place where the data at hand was seen before, and how much of it; below the least length there is none. -/
structure Match where
  length : Nat
  start : Nat
deriving DecidableEq

def Match.none : Match := ⟨2, 0⟩

def commonRun (data : Array UInt8) (i j : Nat) : Nat → Nat
  | 0 => 0
  | limit + 1 => if data.getD i 0 == data.getD j 0 then commonRun data (i + 1) (j + 1) limit + 1 else 0

def longestOf (data : Array UInt8) (at_ limit nice : Nat) : Match → List Nat → Match
  | best, [] => best
  | best, p :: rest =>
    let n := commonRun data p at_ limit
    if best.length < n then
      if nice ≤ n then ⟨n, p⟩ else longestOf data at_ limit nice ⟨n, p⟩ rest
    else longestOf data at_ limit nice best rest

variable (c : Chains) (m : Matcher) (effort : Effort) (data : Array UInt8)

def hashAt (i : Nat) : Nat :=
  let byte (k : Nat) : Nat := (data.getD k 0).toNat
  ((byte i <<< 10) ^^^ (byte (i + 1) <<< 5) ^^^ byte (i + 2)) % 32768

abbrev Chains := Std.HashMap Nat (List Nat)

def Chains.places (i : Nat) : List Nat :=
  match c.getD (hashAt data i) [] with
  | [] => []
  | p :: rest => if p = 0 || reach < i - p then [] else p :: rest.takeWhile fun q => i - reach < q

def Chains.enter (i : Nat) : Chains :=
  if i + shortest ≤ data.size then c.insert (hashAt data i) (i :: c.getD (hashAt data i) []) else c

structure Matcher where
  chains : Chains := {}
  tokens : Array Token := #[]
  /-- Whether the byte before the position is not yet in the tokens. -/
  pending : Bool := false
  kept : Match := .none

def Matcher.search (i : Nat) : Match :=
  if i + shortest ≤ data.size && decide (m.kept.length < effort.lazy) then
    let depth := if effort.good ≤ m.kept.length then effort.chain / 4 else effort.chain
    let left := data.size - i
    let found := longestOf data i (min longest left) (min effort.nice left) ⟨m.kept.length, 0⟩
      ((m.chains.places data i).take depth)
    if found.length ≤ m.kept.length then .none
    else if found.length = shortest && decide (shortReach < i - found.start) then .none
    else found
  else .none

/-- One position: a kept match that is no worse than the one found here is written, else the byte kept back is. -/
def Matcher.step (i : Nat) : Matcher × Nat :=
  let found := m.search effort data i
  let chains := m.chains.enter data i
  if shortest ≤ m.kept.length && decide (found.length ≤ m.kept.length) then
    let after := i - 1 + m.kept.length
    let covered := (List.range (after - (i + 1))).map (· + (i + 1))
    ({ chains := covered.foldl (fun c p => c.enter data p) chains
       tokens := m.tokens.push (.copy m.kept.length (i - 1 - m.kept.start)) }, after)
  else
    let tokens := if m.pending then m.tokens.push (.literal (data.getD (i - 1) 0)) else m.tokens
    ({ chains, tokens, pending := true, kept := found }, i + 1)

def Matcher.run (effort : Effort) (data : Array UInt8) : Nat → Matcher → Nat → Matcher
  | 0, m, _ => m
  | fuel + 1, m, i =>
    if i < data.size then
      let (next, j) := m.step effort data i
      Matcher.run effort data fuel next j
    else m

def tokens (data : Bytes) : List Token × List Token :=
  let bytes := data.toArray
  let m := Matcher.run effort bytes bytes.size {} 0
  (m.tokens.toList, if m.pending then [.literal (bytes.getD (bytes.size - 1) 0)] else [])

/-! ## Prefix codes -/

structure Forest where
  weights : Array Nat
  depths : Array Nat
  parents : Array Nat
  /-- The nodes that wait, from place 1 on. -/
  heap : Array Nat
  size : Nat
  joined : List Nat := []

namespace Forest

variable (f : Forest)

def lighter (n m : Nat) : Bool :=
  let w := f.weights.getD n 0
  let v := f.weights.getD m 0
  decide (w < v) || (w == v && decide (f.depths.getD n 0 ≤ f.depths.getD m 0))

def sinkNode (f : Forest) (node : Nat) : Nat → Array Nat → Nat → Array Nat
  | 0, heap, place => heap.setIfInBounds place node
  | fuel + 1, heap, place =>
    let j := 2 * place
    if f.size < j then heap.setIfInBounds place node
    else
      let child := if j < f.size && f.lighter (heap.getD (j + 1) 0) (heap.getD j 0) then j + 1 else j
      if f.lighter node (heap.getD child 0) then heap.setIfInBounds place node
      else sinkNode f node fuel (heap.setIfInBounds place (heap.getD child 0)) child

def sink (place : Nat) : Forest := { f with heap := f.sinkNode (f.heap.getD place 0) f.size f.heap place }

/-- The forest of single leaves, one for each symbol that occurs; two symbols at least. -/
def ofWeights (weights : List Nat) : Forest × Nat :=
  let used := (weights.zipIdx.filter (fun p => p.1 != 0)).map (·.2)
  let last := used.getLast?
  let (leaves, top) := match used, last with
    | [], _ => ([0, 1], 1)
    | [n], _ => if n < 2 then ([n, n + 1], n + 1) else ([n, 0], n)
    | ns, l => (ns, l.getD 0)
  let count := weights.length
  let weighed := leaves.foldl (fun (ws : Array Nat) n => if ws.getD n 0 = 0 then ws.setIfInBounds n 1 else ws)
    (weights.toArray ++ Array.replicate (count + 1) 0)
  let start : Forest :=
    { weights := weighed, depths := Array.replicate (2 * count + 1) 0
      parents := Array.replicate (2 * count + 1) 0
      heap := (0 :: leaves).toArray, size := leaves.length }
  ((List.range (leaves.length / 2)).reverse.foldl (fun f n => f.sink (n + 1)) start, top)

def join (node : Nat) : Forest :=
  let n := f.heap.getD 1 0
  let f := { f with heap := f.heap.setIfInBounds 1 (f.heap.getD f.size 0), size := f.size - 1 }.sink 1
  let m := f.heap.getD 1 0
  let weight := f.weights.getD n 0 + f.weights.getD m 0
  let depth := max (f.depths.getD n 0) (f.depths.getD m 0) + 1
  { f with
    weights := f.weights.setIfInBounds node weight
    depths := f.depths.setIfInBounds node depth
    parents := (f.parents.setIfInBounds n node).setIfInBounds m node
    heap := f.heap.setIfInBounds 1 node
    joined := m :: n :: f.joined }.sink 1

def joinAll (count : Nat) : Forest := (List.range (f.size - 1)).foldl (fun f k => f.join (count + k)) f

end Forest

variable (limit : Nat) (lengths : List Nat)

def lengthCounts : Array Nat :=
  lengths.foldl (fun cs l => cs.modify l (· + 1)) (Array.replicate (limit + 1) 0)

def makeRoom (counts : Array Nat) : Array Nat :=
  match (List.range (limit - 1)).reverse.find? (fun b => counts.getD (b + 1) 0 != 0) with
  | none => counts
  | some b => ((counts.modify (b + 1) (· - 1)).modify (b + 2) (· + 2)).modify limit (· - 1)

def codeLengths (weights : List Nat) : List Nat × Nat :=
  let count := weights.length
  let (start, top) := Forest.ofWeights weights
  let f := start.joinAll count
  let (lengths, cut) := f.joined.foldl (fun (acc : Array Nat × Nat) n =>
      let bits := acc.1.getD (f.parents.getD n 0) 0 + 1
      if limit < bits then (acc.1.setIfInBounds n limit, acc.2 + 1) else (acc.1.setIfInBounds n bits, acc.2))
    (Array.replicate (2 * count + 1) 0, 0)
  if cut = 0 then ((lengths.toList).take count, top)
  else
    let leaves := f.joined.filter (· < count)
    let counts := (List.range ((cut + 1) / 2)).foldl (fun cs _ => makeRoom limit cs)
      (lengthCounts limit (leaves.map fun n => lengths.getD n 0))
    let dealt := ((List.range limit).reverse.map fun b => List.replicate (counts.getD (b + 1) 0) (b + 1)).flatten
    let settled := (leaves.reverse.zip dealt).foldl (fun (ls : Array Nat) p => ls.setIfInBounds p.1 p.2) lengths
    (settled.toList.take count, top)

def firstCode (lengths : List Nat) : Nat → Nat
  | 0 => 0
  | n + 1 => (firstCode lengths n + if n = 0 then 0 else lengths.count n) * 2

def field (width value : Nat) : List Bool := (List.range width).map value.testBit

def codes : Array (List Bool) :=
  let firsts := ((List.range 16).map (firstCode lengths)).toArray
  (lengths.foldl (fun (acc : Array (List Bool) × Array Nat) l =>
      if l = 0 then (acc.1.push [], acc.2)
      else (acc.1.push (field l (acc.2.getD l 0)).reverse, acc.2.modify l (· + 1)))
    (#[], firsts)).1

/-! ## Compressed streams -/

structure Coded where
  symbol : Nat
  width : Nat := 0
  extra : Nat := 0
deriving DecidableEq

def lengthWidths : List Nat := [0, 0, 0, 0, 0, 0, 0, 0, 1, 1, 1, 1, 2, 2, 2, 2, 3, 3, 3, 3, 4, 4, 4, 4, 5, 5, 5, 5, 0]

def distanceWidths : List Nat :=
  [0, 0, 0, 0, 1, 1, 2, 2, 3, 3, 4, 4, 5, 5, 6, 6, 7, 7, 8, 8, 9, 9, 10, 10, 11, 11, 12, 12, 13, 13]

def codedOf (value : Nat) : Nat → Nat → List Nat → Coded
  | symbol, _, [] => ⟨symbol, 0, 0⟩
  | symbol, base, w :: rest =>
    if value < base + Nat.pow 2 w then ⟨symbol, w, value - base⟩ else codedOf value (symbol + 1) (base + Nat.pow 2 w) rest

def codedLength (n : Nat) : Coded := if n = longest then ⟨285, 0, 0⟩ else codedOf (n - shortest) 257 0 lengthWidths

def codedDistance (d : Nat) : Coded := codedOf (d - 1) 0 0 distanceWidths

def endOfBlock : Nat := 256

def Token.coded : Token → Coded × Option Coded
  | .literal b => (⟨b.toNat, 0, 0⟩, none)
  | .copy n d => (codedLength n, some (codedDistance d))

def weights (count : Nat) (symbols : List Coded) : List Nat :=
  (symbols.foldl (fun (ws : Array Nat) c => ws.modify c.symbol (· + 1)) (Array.replicate count 0)).toList

def bitCount (symbols : List Coded) : Nat :=
  let ls := lengths.toArray
  symbols.foldl (fun n c => n + ls.getD c.symbol 0 + c.width) 0

def Coded.bits (codes : Array (List Bool)) (c : Coded) : List Bool := codes.getD c.symbol [] ++ field c.width c.extra

def fixedLengths : List Nat := List.replicate 144 8 ++ List.replicate 112 9 ++ List.replicate 24 7 ++ List.replicate 8 8

def fixedDistances : List Nat := List.replicate 30 5

def runSymbols (before : Option Nat) (length count : Nat) : List Coded :=
  let least := if length = 0 || before == some length then 3 else 4
  if count < least then List.replicate count ⟨length, 0, 0⟩
  else if length ≠ 0 then
    if before == some length then [⟨16, 2, count - 3⟩] else [⟨length, 0, 0⟩, ⟨16, 2, count - 4⟩]
  else if count ≤ 10 then [⟨17, 3, count - 3⟩]
  else [⟨18, 7, count - 11⟩]

def lengthSymbols : Option Nat → Nat → List Nat → List Coded
  | _, _, [] => []
  | before, count, l :: rest =>
    let most := if l = 0 then 138 else if before == some l then 6 else 7
    if count + 1 < most && rest.head? == some l then lengthSymbols before (count + 1) rest
    else runSymbols before l (count + 1) ++ lengthSymbols (some l) 0 rest

def lengthOrder : List Nat := [16, 17, 18, 0, 8, 7, 9, 6, 10, 5, 11, 4, 12, 3, 13, 2, 14, 1, 15]

structure OwnCodes where
  literals : List Nat
  distances : List Nat
  symbols : List Coded
  /-- The code for those symbols. -/
  lengths : List Nat

def OwnCodes.make (main distances : List Coded) : OwnCodes :=
  let (ls, lastL) := codeLengths 15 (weights 286 main)
  let (ds, lastD) := codeLengths 15 (weights 30 distances)
  let ls := ls.take (lastL + 1)
  let ds := ds.take (lastD + 1)
  let symbols := lengthSymbols none 0 ls ++ lengthSymbols none 0 ds
  { literals := ls, distances := ds, symbols, lengths := (codeLengths 7 (weights 19 symbols)).1 }

def OwnCodes.written (o : OwnCodes) : Nat :=
  let ordered := lengthOrder.map fun n => o.lengths.getD n 0
  max 4 (ordered.reverse.dropWhile (· == 0)).length

def OwnCodes.bits (o : OwnCodes) : List Bool :=
  let third := codes o.lengths
  field 5 (o.literals.length - 257) ++ field 5 (o.distances.length - 1) ++ field 4 (o.written - 4)
    ++ (lengthOrder.take o.written).flatMap (fun n => field 3 (o.lengths.getD n 0))
    ++ o.symbols.flatMap (Coded.bits third)

def bodyBits (literals distances : List Nat) (tokens : List Token) : List Bool :=
  let ls := codes literals
  let ds := codes distances
  tokens.flatMap (fun t =>
    let (c, d) := t.coded
    c.bits ls ++ (d.map (Coded.bits ds)).getD []) ++ ls.getD endOfBlock []

structure Block where
  tokens : List Token
  bytes : Bytes

def Block.bits (b : Block) (isLast : Bool) (before : Nat) : List Bool :=
  let coded := b.tokens.map Token.coded
  let main := coded.map (·.1) ++ [⟨endOfBlock, 0, 0⟩]
  let distances := coded.filterMap (·.2)
  let own := OwnCodes.make main distances
  let ownBytes := (bitCount own.literals main + bitCount own.distances distances
    + bitCount own.lengths own.symbols + 3 * own.written + 14 + 10) / 8
  let fixedBytes := (bitCount fixedLengths main + bitCount fixedDistances distances + 10) / 8
  let best := min ownBytes fixedBytes
  let head (kind : Nat) : List Bool := field 3 (2 * kind + if isLast then 1 else 0)
  if b.bytes.length + 4 ≤ best then
    let padding := (8 - (before + 3) % 8) % 8
    head 0 ++ List.replicate padding false ++ field 16 b.bytes.length ++ field 16 (65535 - b.bytes.length)
      ++ b.bytes.flatMap (fun x => field 8 x.toNat)
  else if fixedBytes = best then head 1 ++ bodyBits fixedLengths fixedDistances b.tokens
  else head 2 ++ own.bits ++ bodyBits own.literals own.distances b.tokens

def blockTokens : Nat := 16383

def Token.size : Token → Nat
  | .literal _ => 1
  | .copy n _ => n

def blocks (kept : List Token) : Nat → List Token → Bytes → List Block
  | 0, ts, data => [⟨ts ++ kept, data⟩]
  | fuel + 1, ts, data =>
    if ts.length < blockTokens then [⟨ts ++ kept, data⟩]
    else
      let block := ts.take blockTokens
      let size := (block.map Token.size).foldl (· + ·) 0
      ⟨block, data.take size⟩ :: blocks kept fuel (ts.drop blockTokens) (data.drop size)

def blockBits : Nat → List Block → List Bool
  | _, [] => []
  | before, b :: rest =>
    let bits := b.bits rest.isEmpty before
    bits ++ blockBits (before + bits.length) rest

def packBits : List Bool → Bytes
  | [] => []
  | b0 :: b1 :: b2 :: b3 :: b4 :: b5 :: b6 :: b7 :: rest => byte [b0, b1, b2, b3, b4, b5, b6, b7] :: packBits rest
  | last => [byte last]
where
  byte (bits : List Bool) : UInt8 :=
    UInt8.ofNat (bits.zipIdx.foldl (fun n p => if p.1 then n + Nat.pow 2 p.2 else n) 0)

def checksum (data : Bytes) : Nat :=
  let (a, b) := data.foldl (fun (s : Nat × Nat) x =>
    let a := (s.1 + x.toNat) % 65521
    (a, (s.2 + a) % 65521)) (1, 0)
  b * 65536 + a

def highFirst (n : Nat) : Bytes := [24, 16, 8, 0].map fun k => UInt8.ofNat (n >>> k % 256)

def compress (data : Bytes) : Bytes :=
  let (ts, kept) := tokens .usual data
  [0x78, 0x9c] ++ packBits (blockBits 0 (blocks kept (ts.length / blockTokens) ts data)) ++ highFirst (checksum data)

end ClHost.Deflate
