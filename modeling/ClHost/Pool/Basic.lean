import ClHost.Fault

/-!
# Memory pools

Blocks are kept in bins by the position of the leading bit of their size and the bits that follow it.
-/

namespace ClHost

namespace Log2

/-! ## Binary logarithms by table -/

def table : Array Nat := #[0,0,1,1,2,2,2,2,3,3,3,3,3,3,3,3,4,4,4,4,4,4,4,4,4,4,4,4,4,4,4,4,
  5,5,5,5,5,5,5,5,5,5,5,5,5,5,5,5,5,5,5,5,5,5,5,5,5,5,5,5,5,5,5,5,
  6,6,6,6,6,6,6,6,6,6,6,6,6,6,6,6,6,6,6,6,6,6,6,6,6,6,6,6,6,6,6,6,
  6,6,6,6,6,6,6,6,6,6,6,6,6,6,6,6,6,6,6,6,6,6,6,6,6,6,6,6,6,6,6,6,
  7,7,7,7,7,7,7,7,7,7,7,7,7,7,7,7,7,7,7,7,7,7,7,7,7,7,7,7,7,7,7,7,
  7,7,7,7,7,7,7,7,7,7,7,7,7,7,7,7,7,7,7,7,7,7,7,7,7,7,7,7,7,7,7,7,
  7,7,7,7,7,7,7,7,7,7,7,7,7,7,7,7,7,7,7,7,7,7,7,7,7,7,7,7,7,7,7,7,
  7,7,7,7,7,7,7,7,7,7,7,7,7,7,7,7,7,7,7,7,7,7,7,7,7,7,7,7,7,7,7,7]

def log8 (v : Nat) : Nat := table.getD v 0

def log16 (v : Nat) : Nat :=
  let t := v / Nat.pow 2 8
  if t != 0 then 8 + log8 t else log8 v

def log32 (v : Nat) : Nat :=
  let t := v / Nat.pow 2 16
  if t != 0 then 16 + log16 t else log16 v

def log64 (v : Nat) : Nat :=
  let t := v / Nat.pow 2 32
  if t != 0 then 32 + log32 t else log32 v

end Log2

namespace Pool

def word32 : Nat := Nat.pow 2 32

def word64 : Nat := Nat.pow 2 64

inductive BinFault where
  | leadingBit
  | collidingBits
deriving DecidableEq

def binNumber (bits size : Nat) : Except BinFault Nat :=
  let l := Log2.log64 size
  let shifted := if bits ≤ l then size / Nat.pow 2 (l - bits) else size * Nat.pow 2 (bits - l) % word64
  if size != 0 && shifted / Nat.pow 2 bits % 2 == 0 then .error .leadingBit
  else
    let chopped := shifted % Nat.pow 2 bits
    .ok ((l * Nat.pow 2 bits ||| chopped) % word32)

def shift32 (x : Nat) (count : Int) : Nat :=
  if count < 0 then x / Nat.pow 2 ((-count).toNat % 32)
  else x * Nat.pow 2 (count.toNat % 32) % word32

def widenSigned (x : Nat) : Nat := if x < Nat.pow 2 31 then x else word64 - word32 + x

def allocSize (bits bin : Nat) : Except BinFault Nat :=
  let exponent := bin / Nat.pow 2 bits
  let mantissa := bin % Nat.pow 2 bits
  let count : Int := (exponent : Int) - bits
  let one := widenSigned (shift32 1 count)
  let ones := if one == 0 then 0 else one - 1
  let head := shift32 ((Nat.pow 2 bits % word32) ||| mantissa) count
  if ones &&& head != 0 then .error .collidingBits else .ok (head ||| ones)

end Pool

end ClHost

/-! ## The memory pool -/

namespace ClHost.Pool

abbrev Block := Nat

inductive PoolError where
  | device (e : ErrorRecord)
  | arithmetic (f : BinFault)
  | neverMade
  | unknownAllocation
deriving DecidableEq

def PoolError.isOutOfMemory : PoolError → Bool
  | device e => e.code == -4 || e.code == -5 || e.code == -6
  | _ => false

structure Allocator (σ : Type) where
  allocate : σ → Nat → Except ErrorRecord Block × σ
  free : σ → Block → Except ErrorRecord Unit × σ
  collect : σ → List Nat × σ

structure State where
  leadingBits : Nat
  bins : List (Nat × List Block) := []
  held : Nat := 0
  active : Nat := 0
  stopped : Bool := false
  trace : Int := 0
  printed : String := ""

structure Allocation where
  block : Block
  size : Nat
  valid : Bool
deriving DecidableEq

structure Run (σ : Type) where
  pool : State
  allocator : σ
  allocations : List (Option Allocation) := []

abbrev PoolM (σ : Type) := ExceptT PoolError (StateM (Run σ))

section

variable {σ : Type}

def State.bin (p : State) (n : Nat) : List Block := ((p.bins.find? (fun b => b.1 == n)).map (·.2)).getD []

def putBin (n : Nat) (blocks : List Block) : List (Nat × List Block) → List (Nat × List Block)
  | [] => [(n, blocks)]
  | (m, bs) :: rest =>
    if n == m then (n, blocks) :: rest
    else if n < m then (n, blocks) :: (m, bs) :: rest
    else (m, bs) :: putBin n blocks rest

def modifyPool (f : State → State) : PoolM σ Unit := modify fun r => { r with pool := f r.pool }

def say (line : String) : PoolM σ Unit :=
  modifyPool fun p => if p.trace == 0 then p else { p with printed := p.printed ++ "[pool] " ++ line ++ "\n" }

def arithmetic {α : Type} : Except BinFault α → PoolM σ α
  | .ok a => pure a
  | .error e => throw (.arithmetic e)

variable (n : Nat) (a : Allocator σ) (b : Block) (size : Nat)

def decrement : Nat := if n == 0 then word32 - 1 else n - 1

def increment : Nat := (n + 1) % word32

def getFromAllocator : PoolM σ Block := do
  let r ← get
  let (result, s) := a.allocate r.allocator size
  set { r with allocator := s }
  match result with
  | .error e => throw (.device e)
  | .ok b =>
    modifyPool fun p => { p with active := increment p.active }
    return b

def giveBack : PoolM σ Unit := do
  let r ← get
  let (result, s) := a.free r.allocator b
  set { r with allocator := s }
  match result with
  | .error e => throw (.device e)
  | .ok () => pure ()

def takeBlock (rest : List Block) : PoolM σ Block := do
  modifyPool fun p => { p with
    bins := putBin n rest p.bins, held := decrement p.held, active := increment p.active }
  return b

def release : PoolM σ Unit := do
  modifyPool fun p => { p with active := decrement p.active }
  let p := (← get).pool
  let n ← arithmetic (binNumber p.leadingBits size)
  if p.stopped then giveBack a b
  else
    let blocks := b :: p.bin n
    modifyPool fun p => { p with bins := putBin n blocks p.bins, held := increment p.held }
    say ("block of size " ++ toString size ++ " returned to bin " ++ toString n ++
      " which now contains " ++ toString blocks.length ++ " entries")

def free (a : Allocator σ) (i : Nat) : PoolM σ Unit := do
  match (← get).allocations[i]? with
  | none => throw .unknownAllocation
  | some none => throw .neverMade
  | some (some alloc) =>
    if alloc.valid then
      release a alloc.block alloc.size
      modify fun r => { r with allocations := r.allocations.set i (some { alloc with valid := false }) }
    else throw (.device ⟨"pooled_device_allocation::free", -30, ""⟩)

def releaseGarbage (a : Allocator σ) : List Nat → PoolM σ Unit
  | [] => pure ()
  | i :: is => do
    match (← get).allocations[i]? with
    | some (some alloc) => if alloc.valid then free a i
    | _ => pure ()
    releaseGarbage a is

def largestBin : List (Nat × List Block) → Option (Nat × List Block)
  | [] => none
  | (n, bs) :: rest =>
    match largestBin rest with
    | some found => some found
    | none => if bs.isEmpty then none else some (n, bs)

def tryToFreeMemory : PoolM σ Bool := do
  match largestBin (← get).pool.bins with
  | some (n, b :: rest) =>
    giveBack a b
    modifyPool fun p => { p with bins := putBin n rest p.bins, held := decrement p.held }
    return true
  | _ => return false

def exhausted : ErrorRecord := ⟨"memory_pool::allocate", -4, "failed to free memory for allocation"⟩

def retry (a : Allocator σ) (size : Nat) : Nat → PoolM σ Block
  | 0 => throw (.device exhausted)
  | fuel + 1 => do
    if ← tryToFreeMemory a then
      try getFromAllocator a size
      catch e => if e.isOutOfMemory then retry a size fuel else throw e
    else throw (.device exhausted)

def State.heldBlocks (p : State) : Nat := (p.bins.map fun b => b.2.length).foldl (· + ·) 0

def allocateBlock : PoolM σ Block := do
  let p := (← get).pool
  let n ← arithmetic (binNumber p.leadingBits size)
  match p.bin n with
  | b :: rest =>
    say ("allocation of size " ++ toString size ++ " served from bin " ++ toString n ++
      " which contained " ++ toString (rest.length + 1) ++ " entries")
    takeBlock n b rest
  | [] =>
    modifyPool fun p => { p with bins := putBin n [] p.bins }
    let size' ← arithmetic (allocSize p.leadingBits n)
    say ("allocation of size " ++ toString size ++ " required new memory")
    try getFromAllocator a size'
    catch e =>
      if !e.isOutOfMemory then throw e
      else do
        say "allocation triggered OOM, running GC"
        let r ← get
        let (garbage, s) := a.collect r.allocator
        set { r with allocator := s }
        releaseGarbage a garbage
        let p := (← get).pool
        match p.bin n with
        | b :: rest => takeBlock n b rest
        | [] =>
          say "allocation still OOM after GC"
          retry a size' (p.heldBlocks + 1)

def allocate : PoolM σ (Block × Nat) := do
  try
    let b ← allocateBlock a size
    modify fun r => { r with allocations := r.allocations ++ [some ⟨b, size, true⟩] }
    return (b, size)
  catch e =>
    modify fun r => { r with allocations := r.allocations ++ [none] }
    throw e

def emptyBin (a : Allocator σ) (n : Nat) : List Block → PoolM σ Unit
  | [] => pure ()
  | b :: rest => do
    giveBack a b
    modifyPool fun p => { p with bins := putBin n rest p.bins, held := decrement p.held }
    emptyBin a n rest

def emptyBins (a : Allocator σ) : List (Nat × List Block) → PoolM σ Unit
  | [] => pure ()
  | (n, bs) :: rest => do
    emptyBin a n bs
    emptyBins a rest

def freeHeld : PoolM σ Unit := do
  emptyBins a (← get).pool.bins

def stopHolding : PoolM σ Unit := do
  modifyPool fun p => { p with stopped := true }
  freeHeld a

def setTrace (on : Bool) : PoolM σ Unit :=
  modifyPool fun p => { p with trace := if on then p.trace + 1 else p.trace - 1 }

end

/-! ## An allocator of numbered blocks -/

inductive AllocatorCall where
  | alloc (block size : Nat)
  | free (block size : Nat)
  | collect
  | refused (size : Nat)
deriving DecidableEq

structure Numbered where
  capacity : Nat
  next : Nat := 0
  live : List (Block × Nat) := []
  garbage : List Nat := []
  failure : Option Int := none
  calls : List AllocatorCall := []

namespace Numbered

def used (s : Numbered) : Nat := (s.live.map (·.2)).foldl (· + ·) 0

def functions : Allocator Numbered where
  allocate s size :=
    match s.failure with
    | some code => (.error ⟨"create_buffer", code, ""⟩, { s with failure := none })
    | none =>
      if s.capacity < s.used + size then
        (.error ⟨"create_buffer", -4, ""⟩, { s with calls := s.calls ++ [.refused size] })
      else (.ok s.next, { s with
        next := s.next + 1, live := s.live ++ [(s.next, size)], calls := s.calls ++ [.alloc s.next size] })
  free s b :=
    let size := ((s.live.find? (fun l => l.1 == b)).map (·.2)).getD 0
    (.ok (), { s with live := s.live.filter (fun l => l.1 != b), calls := s.calls ++ [.free b size] })
  collect s := (s.garbage, { s with garbage := [], calls := s.calls ++ [.collect] })

end Numbered

end ClHost.Pool
