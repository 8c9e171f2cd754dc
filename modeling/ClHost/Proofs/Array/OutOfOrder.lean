import ClHost.Proofs.Array.Operations

/-!
# Programs on queues that are out of order

A program holds arrays and works on them by operations: it makes arrays and views, computes with them, and moves their
elements.
-/

namespace ClHost

open List Host

/-! ## Programs -/

structure Held where
  arrays : List DeviceArray := []
  /-- Buffers that a command wrote to whose event no array has. -/
  lost : List BufferId := []

namespace Held

/-- Adds an array. -/
def push (s : Held) (a : DeviceArray) : Held := { s with arrays := s.arrays ++ [a] }

def lose (s : Held) (b : BufferId) : Held := { s with lost := b :: s.lost }

def tracked (s : Held) : List DeviceArray := s.arrays.filter fun a => !s.lost.contains a.buffer

def get (s : Held) (i : Nat) : Host DeviceArray :=
  match s.arrays[i]? with
  | some a => pure a
  | none => bare .index

end Held

inductive OtherOperand where
  | array (i : Nat)
  | number (o : Operand)
  | host (h : HostArray)

namespace OtherOperand

def actual (s : Held) : OtherOperand → Host Actual
  | array i => do return .array (← s.get i)
  | number (.literal l) => return .literal l
  | number (.element e) => return .element e
  | host h => return .host h

def assigned (s : Held) : OtherOperand → Host Assigned
  | array i => do return .array (← s.get i)
  | number (.literal l) => return .number (.literal l)
  | number (.element e) => return .number (.element e)
  | host h => return .host h

def isArray : OtherOperand → Bool
  | array _ => true
  | _ => false

end OtherOperand

inductive ViewOperation where
  | index (entries : List IndexEntry)
  | reshape (order : Strides.Order) (shape : List Int)
  | reinterpret (type : ElementType)
  | squeeze
  | transpose (axes : List Int)
  | transposed
  | withQueue (queue : Option Queue)

def ViewOperation.apply (a : DeviceArray) : ViewOperation → Except Fault DeviceArray
  | index entries => a.index entries
  | reshape order shape => a.reshape order shape
  | reinterpret t => a.reinterpret t
  | squeeze => .ok a.squeeze
  | transpose axes => a.transpose axes
  | transposed => .ok a.transposed
  | withQueue queue => .ok (a.withQueue queue)

inductive UnaryOperation where
  | negate | invert | absolute | realPart | imaginaryPart | conjugate | zerosLike
  | copy (queue : Option Queue)
  | convert (type : ElementType) (queue : Option Queue)

def UnaryOperation.run (a : DeviceArray) : UnaryOperation → Host DeviceArray
  | negate => Host.negate a
  | invert => Host.invert a
  | absolute => Host.absolute a
  | realPart => Host.realPart a
  | imaginaryPart => Host.imaginaryPart a
  | conjugate => Host.conjugate a
  | zerosLike => Host.zerosLike a
  | copy queue => Host.copyArray a queue
  | convert t queue => Host.convert a t queue

inductive BinaryOperation where
  | add | subtract | subtractFrom | multiply | divide | divideFrom | power | powerOf
  | bitwise (op : BitOperator)
  | compare (c : Comparison)

namespace BinaryOperation

def run (a : DeviceArray) (other : Actual) : BinaryOperation → Host DeviceArray
  | add => Host.add a other
  | subtract => Host.subtract a other
  | subtractFrom => Host.subtractFrom a other
  | multiply => Host.multiply a other
  | divide => Host.divide a other
  | divideFrom => Host.divideFrom a other
  | power => Host.power a other
  | powerOf => Host.powerOf a other
  | bitwise op => Host.bitwise op a other
  | compare c => Host.compare c a other

def keepsEvent (other : OtherOperand) : BinaryOperation → Bool
  | compare c => other.isArray || c.keepsEvent
  | _ => true

end BinaryOperation

inductive InPlaceOperation where
  | add | subtract | multiply
  | bitwise (op : BitOperator)

namespace InPlaceOperation

def run (a : DeviceArray) (other : Actual) : InPlaceOperation → Host DeviceArray
  | add => addInPlace a other
  | subtract => subtractInPlace a other
  | multiply => multiplyInPlace a other
  | bitwise op => bitwiseInPlace op a other

def keepsEvent (other : OtherOperand) : InPlaceOperation → Bool
  | subtract => other.isArray
  | _ => true

end InPlaceOperation

inductive ArrayOperation where
  | empty (queue : Queue) (type : ElementType) (shape : List Int) (allocator : Option Allocator)
  | transfer (queue : Queue) (source : HostArray) (allocator : Option Allocator) (blocking keepsQueue : Bool)
  | view (op : ViewOperation) (i : Nat)
  | unary (op : UnaryOperation) (i : Nat)
  | binary (op : BinaryOperation) (i : Nat) (other : OtherOperand)
  | inPlace (op : InPlaceOperation) (i : Nat) (other : OtherOperand)
  | fill (i : Nat) (value : Operand) (queue : Option Queue) (wait : List EventId)
  | zeroFill (i : Nat) (queue : Option Queue) (wait : List EventId)
  | set (i : Nat) (source : HostArray) (queue : Option Queue) (blocking : Bool)
  | get (i : Nat) (queue : Option Queue) (target : Option HostArray) (blocking : Bool)
  | assign (i : Nat) (entries : List IndexEntry) (value : OtherOperand) (queue : Option Queue) (wait : List EventId)
  | assignAt (i indices : Nat) (value : OtherOperand) (queue : Option Queue) (wait : List EventId)
  | finish (i : Nat)

def ArrayOperation.keepsTrack : ArrayOperation → Bool
  | binary op _ other => op.keepsEvent other
  | inPlace op _ other => op.keepsEvent other
  | zeroFill _ _ _ => false
  | set _ _ _ _ => false
  | _ => true

namespace Host

def perform (s : Held) : ArrayOperation → Host Held
  | .empty queue type shape allocator => do return s.push (← newRows queue type shape allocator)
  | .transfer queue source allocator blocking keepsQueue => do
    return s.push (← toDevice queue source allocator blocking keepsQueue)
  | .view op i => do return s.push (← lift (op.apply (← s.get i)))
  | .unary op i => do return s.push (← op.run (← s.get i))
  | .binary op i other => do
    let r ← op.run (← s.get i) (← other.actual s)
    return if op.keepsEvent other then s.push r else (s.push r).lose r.buffer
  | .inPlace op i other => do
    let a ← s.get i
    let _ ← op.run a (← other.actual s)
    return if op.keepsEvent other then s else s.lose a.buffer
  | .fill i value queue wait => do
    fillArray (← s.get i) (← (OtherOperand.number value).actual s) queue wait
    return s
  | .zeroFill i queue wait => do
    zeroFill (← s.get i) queue wait
    return s
  | .set i source queue blocking => do
    setArray (← s.get i) source queue blocking
    return s
  | .get i queue target blocking => do
    let _ ← readArray (← s.get i) queue target blocking
    return s
  | .assign i entries value queue wait => do
    assignPart (← s.get i) entries (← value.assigned s) queue wait
    return s
  | .assignAt i indices value queue wait => do
    assignAt (← s.get i) (← s.get indices) (← value.assigned s) queue wait
    return s
  | .finish i => do
    finishArray (← s.get i)
    return s

def performAll : List ArrayOperation → Held → Host Held
  | [], s => return s
  | op :: ops, s => do
    match ← attempt (perform s op) with
    | .ok s' => performAll ops s'
    | .error _ => performAll ops s

end Host

/-! ## Careful programs -/

def Held.Usable (s : Held) (i : Nat) : Prop := ∀ a, s.arrays[i]? = some a → a.buffer ∉ s.lost

def OtherOperand.Usable (s : Held) : OtherOperand → Prop
  | array i => s.Usable i
  | _ => True

/-- An operation uses only arrays that have kept track, writes from the host only where the host knows everything to be
over, and fills with zeros only after given events that cover what wrote before. -/
def Careful (w : World) (s : Held) : ArrayOperation → Prop
  | .empty _ _ _ _ | .transfer _ _ _ _ _ | .view _ _ => True
  | .unary _ i | .fill i _ _ _ | .get i _ _ _ | .finish i => s.Usable i
  | .binary _ i other | .inPlace _ i other => s.Usable i ∧ other.Usable s
  | .zeroFill i queue wait => s.Usable i ∧ ∀ a, s.arrays[i]? = some a → FillsAfter w a queue wait
  | .set i _ _ _ => s.Usable i ∧ ∀ a, s.arrays[i]? = some a → Settled w.log.toList a.buffer []
  | .assign i _ value _ _ => s.Usable i ∧ value.Usable s
  | .assignAt i indices value _ _ => s.Usable i ∧ s.Usable indices ∧ value.Usable s

def CarefulRun : List ArrayOperation → Held → World → Prop
  | [], _, _ => True
  | op :: ops, s, w => Careful w s op ∧ Leads (perform s op) (CarefulRun ops) (fun _ => CarefulRun ops s) w

section Held

variable {s : Held} {a : DeviceArray} {b : BufferId} {i : Nat}

lemma Held.mem_tracked : a ∈ s.tracked ↔ a ∈ s.arrays ∧ a.buffer ∉ s.lost := by simp [Held.tracked]

lemma Held.Usable.mem_tracked (h : s.Usable i) (ha : s.arrays[i]? = some a) : a ∈ s.tracked :=
  Held.mem_tracked.2 ⟨mem_of_getElem? ha, h a ha⟩

lemma Held.tracked_push : (s.push a).tracked ⊆ a :: s.tracked := by
  intro x hx
  obtain ⟨hx, hlost⟩ := Held.mem_tracked.1 hx
  rcases mem_append.1 hx with hx | hx
  · exact mem_cons_of_mem _ (Held.mem_tracked.2 ⟨hx, hlost⟩)
  · obtain rfl := mem_singleton.1 hx
    exact mem_cons_self

lemma Held.tracked_lose : (s.lose b).tracked ⊆ s.tracked.filter fun a => a.buffer != b := by
  intro x hx
  obtain ⟨hx, hlost⟩ := Held.mem_tracked.1 hx
  obtain ⟨hne, hlost⟩ := not_or.1 (mt mem_cons.2 hlost)
  exact mem_filter.2 ⟨Held.mem_tracked.2 ⟨hx, hlost⟩, bne_iff_ne.2 hne⟩

variable {b : DeviceArray}

lemma ViewOperation.shares {op : ViewOperation} (h : op.apply a = .ok b) : b.Shares a := by
  cases op with
  | index | reshape | transpose => exact DeviceArray.shares_view h
  | reinterpret t =>
    change (do return { a.view (← a.layout.reinterpret a.type.size t.size) with type := t }) = Except.ok b at h
    cases hlay : a.layout.reinterpret a.type.size t.size with
    | error =>
      rw [hlay] at h
      cases h
    | ok =>
      rw [hlay] at h
      cases h
      exact ⟨rfl, rfl⟩
  | squeeze | transposed | withQueue queue =>
    cases h
    exact ⟨rfl, rfl⟩

lemma Tracks.push_view {w : World} (h : Tracks w s.tracked) (ha : a ∈ s.arrays) (hb : b.Shares a) :
    Tracks w (s.push b).tracked := by
  by_cases hlost : a.buffer ∈ s.lost
  · refine h.subset fun x hx => ?_
    obtain ⟨hx, hkept⟩ := Held.mem_tracked.1 hx
    rcases mem_append.1 hx with hx | hx
    · exact Held.mem_tracked.2 ⟨hx, hkept⟩
    · obtain rfl := mem_singleton.1 hx
      exact absurd (hb.1 ▸ hlost) hkept
  · exact (h.view (Held.mem_tracked.2 ⟨ha, hlost⟩) hb.1 hb.2).subset Held.tracked_push

end Held

namespace Host

variable {s : Held}

lemma yields_get (s : Held) (i : Nat) : Yields (s.get i) fun a => s.arrays[i]? = some a := by
  unfold Held.get
  split
  · exact yields_pure ‹_›
  · exact yields_fail _

lemma leads_get_bind {i : Nat} {w : World} {f : DeviceArray → Host Held} {Q : Held → World → Prop}
    {E : Fault → World → Prop} (hsome : ∀ a, s.arrays[i]? = some a → Leads (f a) Q E w) (hnone : ∀ e, E e w) :
    Leads (s.get i >>= f) Q E w := by
  unfold Held.get
  split
  · exact hsome _ ‹_›
  · exact hnone _

variable {other : OtherOperand}

lemma yields_actual (h : other.Usable s) :
    Yields (other.actual s) fun v => v.Within s.tracked ∧ v.isArray = other.isArray := by
  rcases other with i | (l | e) | host
  · intro w
    exact (yields_get s i w).bind (fun a _ ha => ⟨⟨h.mem_tracked ha.1, rfl⟩, ha.2⟩)
  all_goals exact yields_pure ⟨trivial, rfl⟩

lemma yields_assigned (h : other.Usable s) : Yields (other.assigned s) fun v => v.Within s.tracked := by
  rcases other with i | (l | e) | host
  · intro w
    exact (yields_get s i w).bind (fun a _ ha => ⟨h.mem_tracked ha.1, ha.2⟩)
  · exact yields_pure fun _ => nofun
  · exact yields_pure fun _ => nofun
  · exact yields_pure trivial

/-! ## One operation -/

section Operations

variable {arrays : List DeviceArray} {a : DeviceArray} {w : World}

lemma makes_unary (op : UnaryOperation) (ha : a ∈ arrays) : Makes (op.run a) arrays := by
  cases op with
  | negate =>
    exact makes_newResult _ _ fun _ =>
      writes_scaleInto mem_cons_self (fun _ => nofun) (mem_cons_of_mem _ ha) fun _ => nofun
  | invert => exact makes_invert ha
  | absolute =>
    refine makes_mapped ha _ ?_
    split
    · exact quiet_complexFunction _ _
    · exact stays_pure _
    · exact stays_pure _
    · exact stays_pure _
    · exact stays_fail _
  | realPart | conjugate => exact tracked_ite (makes_mapped ha _ (quiet_complexFunction _ _)) fun _ h => h.view ha rfl rfl
  | imaginaryPart => exact tracked_ite (makes_mapped ha _ (quiet_complexFunction _ _)) (makes_zerosLike a)
  | zerosLike => exact makes_zerosLike a
  | copy queue => exact makes_copyArray ha queue
  | convert t queue =>
    exact tracked_ite (makes_copyArray ha _) <| makes_newResult _ _ fun _ =>
      writes_runElementwise (keeps_standardKernel _ _) mem_cons_self (by simp [ha]) queue []

variable {v : Actual} {other : OtherOperand}

lemma tracked_binary (op : BinaryOperation) (ha : a ∈ arrays) (hv : v.Within arrays)
    (hoth : v.isArray = other.isArray) : Tracked (op.run a v) arrays fun r w' =>
      if op.keepsEvent other then Tracks w' (r :: arrays)
      else Tracks w' ((r :: arrays).filter fun b => b.buffer != r.buffer) := by
  cases op with
  | add => exact makes_add ha hv
  | subtract => exact makes_subtract ha hv
  | subtractFrom => exact makes_subtractFrom ha v
  | multiply => exact makes_multiply ha hv
  | divide => exact makes_divide ha hv
  | divideFrom => exact makes_divideFrom ha v
  | power => exact makes_power ha hv
  | powerOf => exact makes_powerOf ha v
  | bitwise op => exact makes_bitwise ha hv op
  | compare c =>
    have hcompare := tracked_compare ha hv c
    rwa [hoth] at hcompare

lemma tracked_inPlace (op : InPlaceOperation) (ha : a ∈ arrays) (hv : v.Within arrays)
    (hoth : v.isArray = other.isArray) : Tracked (op.run a v) arrays fun _ w' =>
      if op.keepsEvent other then Tracks w' arrays else Tracks w' (arrays.filter fun b => b.buffer != a.buffer) := by
  cases op with
  | add => exact tracked_addInPlace ha hv
  | subtract =>
    have hsubtract := tracked_subtractInPlace ha hv
    rwa [hoth] at hsubtract
  | multiply => exact tracked_multiplyInPlace ha hv
  | bitwise op => exact tracked_bitwiseInPlace ha hv op

lemma leads_finishArray_tracks (h : Tracks w arrays) (ha : a ∈ arrays) :
    Leads (finishArray a) (fun _ w' => Tracks w' arrays) (fun _ w' => Tracks w' arrays) w := by
  rw [finishArray, leads_bind, eventsOf, leads_eventList]
  split
  · exact h.waited (h.present a ha).2 (append_nil _).symm
  · exact h

/-- **A careful operation keeps track.** -/
lemma leads_perform (h : Tracks w s.tracked) {op : ArrayOperation} (hop : Careful w s op) :
    Leads (perform s op) (fun s' w' => Tracks w' s'.tracked) (fun _ w' => Tracks w' s.tracked) w := by
  cases op with
  | empty =>
    exact (leads_newArray_tracks h).bind (fun _ _ hw => hw.1.subset Held.tracked_push) fun _ _ hw => hw ▸ h
  | transfer =>
    exact (leads_toDevice_tracks h _ _ _ _ _).bind (fun _ _ hw => hw.1.subset Held.tracked_push) fun _ _ hw => hw.1
  | view op =>
    refine leads_get_bind (fun a ha => ?_) fun _ => h
    cases hview : op.apply a with
    | error => exact h
    | ok => exact h.push_view (mem_of_getElem? ha) (ViewOperation.shares hview)
  | unary op i =>
    refine tracked_yields (yields_get s i) (fun a ha w h => ?_) w h
    exact (makes_unary op (Held.Usable.mem_tracked hop ha) w h).bind (fun _ _ hw => hw.subset Held.tracked_push)
  | binary op i other =>
    refine tracked_yields (yields_get s i) (fun a ha => tracked_yields (yields_actual hop.2) fun v hv w h => ?_) w h
    refine (tracked_binary op (hop.1.mem_tracked ha) hv.1 hv.2 w h).bind fun r w' hw => ?_
    by_cases hkeeps : op.keepsEvent other = true
    · rw [if_pos hkeeps] at hw ⊢
      exact hw.subset Held.tracked_push
    · rw [if_neg hkeeps] at hw ⊢
      exact hw.subset (Subset.trans Held.tracked_lose (filter_subset _ Held.tracked_push))
  | inPlace op i other =>
    refine tracked_yields (yields_get s i) (fun a ha => tracked_yields (yields_actual hop.2) fun v hv w h => ?_) w h
    refine (tracked_inPlace op (hop.1.mem_tracked ha) hv.1 hv.2 w h).bind fun r w' hw => ?_
    by_cases hkeeps : op.keepsEvent other = true
    · rwa [if_pos hkeeps] at hw ⊢
    · rw [if_neg hkeeps] at hw ⊢
      exact hw.subset Held.tracked_lose
  | fill i value queue wait =>
    have hvalue : (OtherOperand.number value).Usable s := trivial
    refine tracked_yields (yields_get s i) (fun a ha => tracked_yields (yields_actual hvalue) fun v hv => ?_) w h
    exact tracked_seq (tracked_fillArray (Held.Usable.mem_tracked hop ha) hv.1.isPlain queue wait) fun _ _ h => h
  | zeroFill =>
    refine leads_get_bind (fun a ha => ?_) fun _ => h
    rw [leads_bind]
    exact leads_zeroFill_tracks h (hop.1.mem_tracked ha) (hop.2 a ha)
  | set i source queue blocking =>
    refine leads_get_bind (fun a ha => ?_) fun _ => h
    refine (sends_setArray source queue blocking w h.fitted).bind ?_ fun _ _ => h.quiet
    rintro _ w' (hw | hw)
    · exact h.quiet hw
    · refine h.enqueued hw (hop.1.mem_tracked ha) fun c hc => ?_
      rw [hc]
      exact ⟨forall_mem_singleton.2 (hop.2 a ha), by simp⟩
  | get i =>
    refine tracked_yields (yields_get s i) (fun a ha => ?_) w h
    exact tracked_seq (fun _ h => leads_readArray_tracks h (Held.Usable.mem_tracked hop ha) _ _ _) fun _ _ h => h
  | assign i entries value queue wait =>
    refine tracked_yields (yields_get s i) (fun a ha => tracked_yields (yields_assigned hop.2) fun v hv => ?_) w h
    exact tracked_seq (tracked_assignPart (hop.1.mem_tracked ha) entries hv queue wait) fun _ _ h => h
  | assignAt i indices value queue wait =>
    refine tracked_yields (yields_get s i) (fun a ha => tracked_yields (yields_get s indices) fun x hx =>
      tracked_yields (yields_assigned hop.2.2) fun v hv => ?_) w h
    exact tracked_seq (tracked_assignAt (hop.1.mem_tracked ha) (hop.2.1.mem_tracked hx) hv queue wait) fun _ _ h => h
  | finish i =>
    refine tracked_yields (yields_get s i) (fun a ha => ?_) w h
    exact tracked_seq (fun _ h => leads_finishArray_tracks h (Held.Usable.mem_tracked hop ha)) fun _ _ h => h

end Operations

/-! ## Whole programs -/

section Programs

variable {w : World} {ops : List ArrayOperation} {op : ArrayOperation}

/-- **A careful program keeps track.** -/
lemma leads_performAll (h : Tracks w s.tracked) (hops : CarefulRun ops s w) :
    Leads (performAll ops s) (fun s' w' => Tracks w' s'.tracked) Never w := by
  induction ops generalizing s w with
  | nil => exact h
  | cons op ops ih =>
    rw [performAll, leads_bind, leads_attempt]
    exact ((leads_perform h hops.1).and hops.2).mono (fun _ _ hw => ih hw.1 hw.2) fun _ _ hw => ih hw.1 hw.2

lemma gives_perform_lost (hop : op.keepsTrack = true) : Gives (perform s op) fun s' => s'.lost = s.lost := by
  cases op with
  | binary op i other =>
    refine gives_then fun _ => gives_then fun _ => gives_then fun r => gives_pure ?_
    rw [if_pos (show op.keepsEvent other = true from hop)]
    rfl
  | inPlace op i other =>
    refine gives_then fun _ => gives_then fun _ => gives_then fun _ => gives_pure ?_
    rw [if_pos (show op.keepsEvent other = true from hop)]
  | zeroFill | set => cases hop
  | _ =>
    repeat refine gives_then fun _ => ?_
    exact gives_pure rfl

lemma careful_of_keepsTrack (hop : op.keepsTrack = true) (hlost : s.lost = []) (w : World) : Careful w s op := by
  have huse : ∀ i, s.Usable i := fun i a _ => hlost ▸ not_mem_nil
  have hoth : ∀ other : OtherOperand, other.Usable s := fun other => by
    cases other with
    | array i => exact huse i
    | _ => trivial
  cases op with
  | empty | transfer | view => trivial
  | unary | fill | get | finish => exact huse _
  | binary | inPlace | assign => exact ⟨huse _, hoth _⟩
  | assignAt => exact ⟨huse _, huse _, hoth _⟩
  | zeroFill | set => cases hop

lemma carefulRun_of_keepsTrack (hops : ∀ op ∈ ops, op.keepsTrack = true) (hlost : s.lost = []) (w : World) :
    CarefulRun ops s w := by
  induction ops generalizing s w with
  | nil => trivial
  | cons op ops ih =>
    obtain ⟨hop, hops⟩ := forall_mem_cons.1 hops
    exact ⟨careful_of_keepsTrack hop hlost w,
      (gives_perform_lost hop w).mono (fun _ w' hs => ih hops (hs.trans hlost) w') fun _ w' _ => ih hops hlost w'⟩

end Programs

end Host

/-! ## A session -/

def sampleQueue : Queue := ⟨0, ⟨0, [⟨0, 0⟩]⟩, ⟨0, 0⟩, 1⟩

def sampleHost : HostArray := { type := .number .int32, shape := [2], strides := [4], block := 0 }

def scaleKernel : Kernel where
  program := 0
  name := "axpbyz"
  numArgs := 7
  source := none
  bindings := [.generic, .packed 'l', .packed 'i', .generic, .packed 'l', .packed 'l', .packed 'l']
  bound := List.replicate 7 .unset

def comparisonKernel : Kernel where
  program := 0
  name := "scalar_comparison_kernel"
  numArgs := 6
  source := none
  bindings := [.generic, .packed 'l', .generic, .packed 'l', .packed 'i', .packed 'l']
  bound := List.replicate 6 .unset

def sampleSession : World where
  platforms := [{ version := "OpenCL 1.2 ", devices := [{}] }]
  hostBlocks := #[⟨[1, 0, 0, 0, 2, 0, 0, 0]⟩]
  kernels := #[scaleKernel, comparisonKernel]
  standardKernels :=
    [((0, .scale (.number .int32) (.number .int32) (.number .int64) (.number .int32)), 0),
      ((0, .scalarComparison "<=" (.number .int32)), 1)]

lemma fitted_sampleSession : sampleSession.Fitted :=
  World.fitted_of_forall (forall_mem_cons.2 ⟨⟨rfl, rfl⟩, forall_mem_singleton.2 ⟨rfl, rfl⟩⟩)

def sampleTransfer (blocking : Bool) : ArrayOperation := .transfer sampleQueue sampleHost none blocking true

namespace Host

def sampleLog (ops : List ArrayOperation) : List Record := ((performAll ops {}).run.run sampleSession).2.log.toList

/-- **No dependency is lost by operations that keep track, nor by careful programs.** -/
theorem performAll_ordered {w : World} (hfit : w.Fitted) (hnone : commands w.log.toList = [])
    (ops : List ArrayOperation) :
    ((∀ op ∈ ops, op.keepsTrack = true) → CarefulRun ops {} w) ∧
      (CarefulRun ops {} w → Leads (performAll ops {})
        (fun _ w' => Ordered w'.log.toList ∧ ((commands w'.log.toList).map (·.event)).Nodup) (fun _ _ => False) w) := by
  refine ⟨fun hops => carefulRun_of_keepsTrack hops rfl w, fun hops => ?_⟩
  have hqu : ∀ r ∈ w.log.toList, r.command? = none := filterMap_eq_nil_iff.1 hnone
  have hord : Ordered ([] ++ w.log.toList) := Ordered.append_quiet (by rintro before r after h; simp at h) hqu
  have hst : Tracks w (Held.tracked {}) :=
    ⟨hord, by simp [hnone], by simp [hnone], hfit, nofun, nofun, nofun⟩
  exact (leads_performAll hst hops).mono (fun _ _ hw => ⟨hw.ordered, hw.distinct⟩) fun _ _ => id

/-- Two integers are counted up until the host has to wait for the oldest events, one of them once more in a view, and
a copy of them is read. -/
@[irreducible]
def sampleProgram : List ArrayOperation :=
  let two := .number (.literal (.int 2))
  sampleTransfer false :: List.replicate 13 (.inPlace .add 0 two) ++
    [.view (.index [.slice (some 1) none none]) 0, .inPlace .add 1 two, .unary (.copy (some sampleQueue)) 0,
      .get 2 none none true]

@[irreducible]
def sampleWriting : List ArrayOperation := [.empty sampleQueue (.number .int32) [2] none, .set 0 sampleHost none false]

lemma carefulRun_sampleWriting {w : World} (hnone : commands w.log.toList = []) : CarefulRun sampleWriting {} w := by
  have hend {op : ArrayOperation} {s : Held} {w : World} :
      Leads (perform s op) (CarefulRun []) (fun _ => CarefulRun [] s) w := by
    unfold Leads
    split <;> trivial
  rw [sampleWriting]
  refine ⟨trivial, ?_⟩
  refine leads_newArray.bind ?_ ?_
  · rintro a w' ⟨-, m, size, flags, rfl, -⟩
    refine ⟨⟨fun _ _ => not_mem_nil, fun b _ c hc => ?_⟩, hend⟩
    rw [Array.toList_push, commands_append, hnone] at hc
    exact (not_mem_nil hc).elim
  · rintro e w' ⟨-, rfl⟩
    exact ⟨⟨fun _ _ => not_mem_nil, fun b hb => by cases hb⟩, hend⟩

theorem performAll_ordered_sample :
    sampleSession.Fitted ∧ commands sampleSession.log.toList = [] ∧
      (∀ op ∈ sampleProgram, op.keepsTrack = true) ∧ (commands (sampleLog sampleProgram)).length = 17 ∧
      Leads (performAll sampleProgram {})
        (fun _ w' => Ordered w'.log.toList ∧ ((commands w'.log.toList).map (·.event)).Nodup) (fun _ _ => False)
        sampleSession ∧
      CarefulRun sampleWriting {} sampleSession ∧ (commands (sampleLog sampleWriting)).length = 1 ∧
      Leads (performAll sampleWriting {})
        (fun _ w' => Ordered w'.log.toList ∧ ((commands w'.log.toList).map (·.event)).Nodup) (fun _ _ => False)
        sampleSession := by
  have hkeeps : ∀ op ∈ sampleProgram, op.keepsTrack = true := by decide +kernel
  have hord := performAll_ordered fitted_sampleSession rfl sampleProgram
  have hcareful : CarefulRun sampleWriting {} sampleSession := carefulRun_sampleWriting rfl
  exact ⟨fitted_sampleSession, rfl, hkeeps, by decide +kernel, hord.2 (hord.1 hkeeps), hcareful,
    by decide +kernel, (performAll_ordered fitted_sampleSession rfl sampleWriting).2 hcareful⟩

/-- An array is read after a number was taken away from it in place; the result of a comparison is read; an array is
written twice; and an array is filled with zeros after it was written. -/
theorem performAll_not_ordered :
    ¬ Ordered (sampleLog [sampleTransfer true, .inPlace .subtract 0 (.number (.literal (.int 2))),
      .unary (.copy (some sampleQueue)) 0]) ∧
    ¬ Ordered (sampleLog [sampleTransfer true, .binary (.compare .atMost) 0 (.number (.literal (.int 2))),
      .unary (.copy (some sampleQueue)) 1]) ∧
    ¬ Ordered (sampleLog [sampleTransfer false, .set 0 sampleHost none false]) ∧
    ¬ Ordered (sampleLog [sampleTransfer false, .zeroFill 0 none []]) := by
  refine ⟨?_, ?_, ?_, ?_⟩
  · exact @not_ordered _ [⟨0, [], [0], [0], 0, true⟩, ⟨1, [0, 0], [0, 0], [0], 0, false⟩] []
      ⟨2, [0], [0, 1], [1], 0, false⟩ ⟨1, [0, 0], [0, 0], [0], 0, false⟩ 0 (by decide +kernel) (by decide +kernel)
      (by decide) (by decide) (by decide) (by decide +kernel) (by decide +kernel)
  · exact @not_ordered _ [⟨0, [], [0], [0], 0, true⟩, ⟨1, [0], [1, 0], [1], 0, false⟩] []
      ⟨2, [], [1, 2], [2], 0, false⟩ ⟨1, [0], [1, 0], [1], 0, false⟩ 1 (by decide +kernel) (by decide +kernel)
      (by decide) (by decide) (by decide) (by decide +kernel) (by decide +kernel)
  all_goals
    exact @not_ordered _ [⟨0, [], [0], [0], 0, false⟩] [] ⟨1, [], [0], [0], 0, false⟩ ⟨0, [], [0], [0], 0, false⟩ 0
      (by decide +kernel) (by decide +kernel) (by decide) (by decide) (by decide) (by decide +kernel)
      (by decide +kernel)

end Host

end ClHost
