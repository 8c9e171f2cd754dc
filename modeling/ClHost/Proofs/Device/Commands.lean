import ClHost.Proofs.Kernel.Arguments
import Mathlib.Algebra.Order.Ring.Int
import Mathlib.Data.List.Induction
import Mathlib.Tactic.Linarith

/-!
# Commands and their dependencies

A queue that is out of order may start a command as soon as the events of its wait list are over. A quiet step of the
host issues no command and leaves the lists of events alone, and a transfer, a fill or a call of a kernel issues one.
-/

namespace ClHost

/-! ## Dependencies of commands -/

open List

structure Command where
  event : EventId
  wait : List EventId
  /-- The buffers that it reads or writes. -/
  touched : List BufferId
  written : List BufferId
  queue : Nat
  /-- Whether the host goes on only when it is over. -/
  blocking : Bool
deriving DecidableEq

/-- The buffer in a slot of a kernel. -/
def BoundArg.buffer? : BoundArg → Option BufferId
  | buffer b => some b
  | _ => none

def Record.command? : Record → Option Command
  | launch _ _ queue _ _ _ args waits event =>
    some ⟨event, waits, args.filterMap BoundArg.buffer?, (args.head?.bind BoundArg.buffer?).toList, queue, false⟩
  | read buffer _ _ blocking waits queue event => some ⟨event, waits, [buffer], [], queue, blocking⟩
  | write buffer _ _ blocking waits queue event => some ⟨event, waits, [buffer], [buffer], queue, blocking⟩
  | copy source target _ _ _ waits queue event => some ⟨event, waits, [source, target], [target], queue, false⟩
  | fill buffer _ _ _ waits queue event => some ⟨event, waits, [buffer], [buffer], queue, false⟩
  | _ => none

variable (log : List Record)

def commands : List Command := log.filterMap Record.command?

inductive Follows (log : List Record) : EventId → EventId → Prop
  | refl (e : EventId) : Follows log e e
  | step {c : Command} {e d : EventId} : c ∈ commands log → e ∈ c.wait → Follows log e d → Follows log c.event d

inductive Awaited (log : List Record) : EventId → Prop
  | wait {events : List EventId} {e : EventId} : .wait events ∈ log → e ∈ events → Awaited log e
  | blocking {c : Command} : c ∈ commands log → c.blocking = true → Awaited log c.event
  | finish {before after : List Record} {queue : Nat} {c : Command} :
      log = before ++ .finish queue :: after → c ∈ commands before → c.queue = queue → Awaited log c.event
  /-- A command is over only when what it waited for is. -/
  | earlier {c : Command} {e : EventId} : c ∈ commands log → e ∈ c.wait → Awaited log c.event → Awaited log e

/-- An event comes before a list of events, or the host knows that it is over. -/
def Covered (events : List EventId) (d : EventId) : Prop :=
  (∃ e ∈ events, Follows log e d) ∨ Awaited log d

def Settled (b : BufferId) (events : List EventId) : Prop :=
  ∀ c ∈ commands log, b ∈ c.written → Covered log events c.event

def Ordered : Prop :=
  ∀ before r after, log = before ++ r :: after → ∀ c, r.command? = some c → ∀ b ∈ c.touched, Settled before b c.wait

/-! ## Logs that grow -/

section Growth

variable {log more : List Record} {r : Record} {c : Command} {d e : EventId} {events : List EventId}

lemma commands_append : commands (log ++ more) = commands log ++ commands more := filterMap_append

lemma mem_commands_append (h : c ∈ commands log) : c ∈ commands (log ++ more) := by
  rw [commands_append]
  exact mem_append_left _ h

lemma commands_of_none (h : ∀ r ∈ more, r.command? = none) : commands more = [] := filterMap_eq_nil_iff.2 h

lemma Follows.mono (h : Follows log e d) : Follows (log ++ more) e d := by
  induction h with
  | refl e => exact .refl e
  | step hc he _ ih => exact .step (mem_commands_append hc) he ih

lemma Awaited.mono (h : Awaited log d) : Awaited (log ++ more) d := by
  induction h with
  | wait hr he => exact .wait (mem_append_left _ hr) he
  | blocking hc hb => exact .blocking (mem_commands_append hc) hb
  | @finish before after queue c hlog hc hq =>
    have hlog' : log ++ more = before ++ .finish queue :: (after ++ more) := by
      rw [hlog, append_assoc, cons_append]
    exact .finish hlog' hc hq
  | earlier hc he _ ih => exact .earlier (mem_commands_append hc) he ih

lemma Awaited.of_follows (h : Awaited log e) (hd : Follows log e d) : Awaited log d := by
  induction hd with
  | refl => exact h
  | step hc he _ ih => exact ih (.earlier hc he h)

lemma Covered.forget (h : Covered log events d) {kept : List EventId}
    (hkept : ∀ e ∈ events, e ∈ kept ∨ Awaited (log ++ more) e) : Covered (log ++ more) kept d := by
  rcases h with ⟨e, he, hfollows⟩ | hawaited
  · rcases hkept e he with he | hover
    · exact .inl ⟨e, he, hfollows.mono⟩
    · exact .inr (hover.of_follows hfollows.mono)
  · exact .inr hawaited.mono

lemma ordered_concat :
    Ordered (log ++ [r]) ↔ Ordered log ∧ ∀ c, r.command? = some c → ∀ b ∈ c.touched, Settled log b c.wait := by
  constructor
  · intro h
    refine ⟨fun before r' after hlog => h before r' (after ++ [r]) ?_, h log r [] rfl⟩
    rw [hlog, append_assoc, cons_append]
  · rintro ⟨h, hr⟩ before r' after hlog
    rcases eq_nil_or_concat after with rfl | ⟨after', r'', rfl⟩
    · obtain ⟨rfl, hlast⟩ := append_inj' hlog rfl
      cases hlast
      exact hr
    · rw [concat_eq_append, ← cons_append, ← append_assoc] at hlog
      exact h before r' after' (append_inj' hlog rfl).1

lemma Ordered.append_quiet (h : Ordered log) (hmore : ∀ r ∈ more, r.command? = none) : Ordered (log ++ more) := by
  induction more using List.reverseRecOn with
  | nil => rwa [append_nil]
  | append_singleton more r ih =>
    rw [← append_assoc, ordered_concat]
    refine ⟨ih fun r hr => hmore r (mem_append_left _ hr), fun c hc => ?_⟩
    rw [hmore r (by simp)] at hc
    cases hc

lemma Settled.append_quiet {b : BufferId} (h : Settled log b events) (hmore : ∀ r ∈ more, r.command? = none) :
    Settled (log ++ more) b events := by
  intro c hc hb
  rw [commands_append, commands_of_none hmore, append_nil] at hc
  exact (h c hc hb).forget fun e he => .inl he

end Growth

/-! ## Events that nothing waits for -/

def Record.isWait : Record → Bool
  | wait _ | finish _ => true
  | _ => false

section Unawaited

variable {log : List Record} {d e : EventId}

lemma Follows.eq_of_unawaited (h : Follows log e d) (hwait : ∀ c ∈ commands log, d ∉ c.wait) : e = d := by
  induction h with
  | refl => rfl
  | step hc he _ ih =>
    obtain rfl := ih hwait
    exact absurd he (hwait _ hc)

lemma not_awaited (hlog : log.all fun r => !r.isWait) (hwait : ∀ c ∈ commands log, d ∉ c.wait)
    (hblk : ∀ c ∈ commands log, c.event = d → c.blocking = false) : ¬ Awaited log d := by
  have hnone : ∀ r ∈ log, r.isWait = false := by simpa using hlog
  rintro (⟨hr, -⟩ | ⟨hc, hb⟩ | ⟨rfl, -, -⟩ | ⟨hc, he, -⟩)
  · cases hnone _ hr
  · rw [hblk _ hc rfl] at hb
    cases hb
  · cases hnone _ (mem_append_right _ mem_cons_self)
  · exact hwait _ hc he

lemma not_ordered {before after : List Command} {c c' : Command} {b : BufferId}
    (hlog : log.all fun r => !r.isWait) (hcmds : commands log = before ++ c :: after) (hc' : c' ∈ before)
    (hwr : b ∈ c'.written) (htch : b ∈ c.touched) (hwait : ∀ x ∈ commands log, c'.event ∉ x.wait)
    (hblk : ∀ x ∈ commands log, x.event = c'.event → x.blocking = false) : ¬ Ordered log := by
  intro hord
  obtain ⟨first, rest, rfl, rfl, hrest⟩ := filterMap_eq_append_iff.1 hcmds
  obtain ⟨quiet, r, last, rfl, -, hr, -⟩ := filterMap_eq_cons_iff.1 hrest
  have hearlier : ∀ x ∈ commands (first ++ quiet), x ∈ commands (first ++ (quiet ++ r :: last)) := fun x hx => by
    rw [← append_assoc]
    exact mem_commands_append hx
  have hc : c ∈ commands (first ++ (quiet ++ r :: last)) := hcmds ▸ by simp
  have hsettled := hord (first ++ quiet) r last (append_assoc _ _ _).symm c hr b htch
  rcases hsettled c' (mem_commands_append hc') hwr with ⟨e, he, hfollows⟩ | hawaited
  · obtain rfl := hfollows.eq_of_unawaited fun x hx => hwait x (hearlier x hx)
    exact hwait c hc he
  · refine not_awaited ?_ (fun x hx => hwait x (hearlier x hx)) (fun x hx => hblk x (hearlier x hx)) hawaited
    rw [← append_assoc, all_append, Bool.and_eq_true] at hlog
    exact hlog.1

end Unawaited

open World

def World.Fitted (w : World) : Prop := ∀ (k : KernelId) (c : Kernel), w.kernels[k]? = some c → c.Fitted

lemma World.fitted_of_forall {w : World} (h : ∀ c ∈ w.kernels.toList, c.Fitted) : w.Fitted :=
  fun _ _ hc => h _ (mem_of_getElem? (Array.getElem?_toList ▸ hc))

structure World.Quiet (w w' : World) : Prop where
  log : ∃ more, w'.log.toList = w.log.toList ++ more ∧ ∀ r ∈ more, r.command? = none
  events : w'.events = w.events
  memory : w'.memory.size = w.memory.size
  lists : w'.eventLists = w.eventLists
  fitted : w.Fitted → w'.Fitted

structure World.Issued (w : World) (c : Command) (w' : World) : Prop where
  log : ∃ more r, w'.log.toList = w.log.toList ++ more ++ [r] ∧ (∀ r ∈ more, r.command? = none) ∧ r.command? = some c
  event : c.event = w.events
  events : w'.events = w.events + 1
  memory : w'.memory.size = w.memory.size
  lists : w'.eventLists = w.eventLists
  fitted : w.Fitted → w'.Fitted

section Quiet

variable {w w' w'' : World}

lemma World.Quiet.refl (w : World) : w.Quiet w := ⟨⟨[], by simp⟩, rfl, rfl, rfl, id⟩

lemma World.Quiet.trans (h : w.Quiet w') (h' : w'.Quiet w'') : w.Quiet w'' := by
  obtain ⟨more, hlog, hmore⟩ := h.log
  obtain ⟨more', hlog', hmore'⟩ := h'.log
  refine ⟨⟨more ++ more', ?_, ?_⟩, h'.events.trans h.events, h'.memory.trans h.memory, h'.lists.trans h.lists,
    fun hw => h'.fitted (h.fitted hw)⟩
  · rw [hlog', hlog, append_assoc]
  · exact fun r hr => (mem_append.1 hr).elim (hmore r) (hmore' r)

instance : Std.Refl Quiet := ⟨Quiet.refl⟩

instance : IsTrans World Quiet := ⟨fun _ _ _ => Quiet.trans⟩

variable {c : Command}

lemma World.Quiet.issued (h : w.Quiet w') (h' : w'.Issued c w'') : w.Issued c w'' := by
  obtain ⟨more, hlog, hmore⟩ := h.log
  obtain ⟨more', r, hlog', hmore', hr⟩ := h'.log
  refine ⟨⟨more ++ more', r, ?_, ?_, hr⟩, h'.event.trans h.events, h'.events.trans (h.events ▸ rfl),
    h'.memory.trans h.memory, h'.lists.trans h.lists, fun hw => h'.fitted (h.fitted hw)⟩
  · rw [hlog', hlog, append_assoc w.log.toList]
  · exact fun r hr => (mem_append.1 hr).elim (hmore r) (hmore' r)

lemma World.Issued.commands (h : w.Issued c w') : commands w'.log.toList = commands w.log.toList ++ [c] := by
  obtain ⟨more, r, hlog, hmore, hr⟩ := h.log
  rw [hlog, commands_append, commands_append, commands_of_none hmore, append_nil]
  exact congrArg _ (filterMap_cons_some hr)

end Quiet

variable {w w' : World} {c : Kernel} {k : KernelId} {xs : List BoundArg} {x : BufferId}

lemma World.Quiet.of_eq (hlog : w'.log = w.log) (hevs : w'.events = w.events)
    (hmemory : w'.memory.size = w.memory.size) (hlists : w'.eventLists = w.eventLists)
    (hkers : w'.kernels = w.kernels) : w.Quiet w' :=
  ⟨⟨[], by simp [hlog]⟩, hevs, hmemory, hlists, fun h k c hc => h k c (hkers ▸ hc)⟩

def World.tables (w : World) := (w.registries, w.elementwise, w.elementwiseBuilds, w.reductions, w.scans, w.scanSources)

def World.kept (w : World) := (w.events, w.memory.size, w.eventLists, w.kernels, w.tables, w.platforms, w.generators)

structure World.Aside (w w' : World) : Prop where
  log : ∃ more, w'.log.toList = w.log.toList ++ more ∧ ∀ r ∈ more, r.command? = none
  kept : w'.kept = w.kept
  sources : ∀ (h : ProgramHandle) (p : Program), w.programs[h]? = some p →
    ∃ p', w'.programs[h]? = some p' ∧ p'.source = p.source

lemma World.Aside.of_eq (hlog : w'.log = w.log) (hkept : w'.kept = w.kept) (hprog : w'.programs = w.programs) :
    w.Aside w' := ⟨⟨[], by simp [hlog]⟩, hkept, fun h p hp => ⟨p, by rw [hprog, hp], rfl⟩⟩

structure Kernel.Revised (c c' : Kernel) : Prop where
  name : c'.name = c.name
  source : c'.source = c.source
  types : c.passedTypes.isSome → c'.passedTypes = c.passedTypes
  fitted : c.Fitted → c'.Fitted

/-- A relation that allows all steps by which programs and kernels are made and prepared. -/
class QuietSteps (R : World → World → Prop) : Prop extends Std.Refl R, IsTrans World R where
  aside {w w' : World} (h : w.Aside w') : R w w'
  push {w : World} {c : Kernel} (hfit : c.Fitted) (htys : c.passedTypes = none) :
    R w { w with kernels := w.kernels.push c }
  modify {w : World} {k : KernelId} {f : Kernel → Kernel} (hf : ∀ c, w.kernels[k]? = some c → c.Revised (f c)) :
    R w { w with kernels := w.kernels.modify k f }

lemma QuietSteps.of_eq {R : World → World → Prop} [QuietSteps R] (hlog : w'.log = w.log) (hkept : w'.kept = w.kept)
    (hprog : w'.programs = w.programs) : R w w' := QuietSteps.aside (.of_eq hlog hkept hprog)

lemma getElem?_push_of_some {α : Type} {xs : Array α} {i : Nat} {a : α} (h : xs[i]? = some a) (x : α) :
    (xs.push x)[i]? = some a := by
  rw [Array.getElem?_push_lt (Array.getElem?_eq_some_iff.1 h).1, ← Array.getElem?_eq_getElem, h]

lemma World.fitted_push (hw : w.Fitted) (hc : c.Fitted) : Fitted { w with kernels := w.kernels.push c } := by
  intro k d hd
  rw [Array.getElem?_push] at hd
  split at hd
  · exact Option.some.inj hd ▸ hc
  · exact hw k d hd

lemma World.fitted_modify {f : Kernel → Kernel} (hw : w.Fitted)
    (hf : ∀ c, w.kernels[k]? = some c → c.Fitted → (f c).Fitted) :
    Fitted { w with kernels := w.kernels.modify k f } := by
  intro k' c hc
  rw [Array.getElem?_modify] at hc
  split at hc
  · rename_i heq
    subst heq
    obtain ⟨c', hc', rfl⟩ := Option.map_eq_some_iff.1 hc
    exact hf c' hc' (hw k c' hc')
  · exact hw k' c hc

instance : QuietSteps Quiet where
  aside {w w'} h := by
    obtain ⟨hlog, hkept, -⟩ := h
    simp only [kept, Prod.mk.injEq] at hkept
    obtain ⟨hevs, hmemory, hlists, hkers, -⟩ := hkept
    exact ⟨hlog, hevs, hmemory, hlists, fun hw k c hc => hw k c (hkers ▸ hc)⟩
  push hfit _ := ⟨⟨[], by simp⟩, rfl, rfl, rfl, fun hw => fitted_push hw hfit⟩
  modify hf := ⟨⟨[], by simp⟩, rfl, rfl, rfl, fun hw => fitted_modify hw fun c hc => (hf c hc).fitted⟩

namespace Host

variable {α β : Type}

section QuietSteps

variable {R : World → World → Prop} [QuietSteps R]

lemma quiet_record {r : Record} (hr : r.command? = none) : Stays R (record r) :=
  stays_modify fun _ => QuietSteps.aside ⟨⟨[r], by simp, by simp [hr]⟩, rfl, fun _ p hp => ⟨p, hp, rfl⟩⟩

lemma quiet_warn (kind : WarningKind) (message : String) : Stays R (warn kind message) :=
  stays_modify fun _ => QuietSteps.of_eq rfl rfl rfl

end QuietSteps

lemma leads_quiet_bind {m : Host β} {f : β → Host α} {Q : α → World → Prop} {E : Fault → World → Prop}
    (hm : Stays Quiet m) (hf : ∀ x w', w.Quiet w' → Leads (f x) Q E w') (hE : ∀ e w', w.Quiet w' → E e w') :
    Leads (m >>= f) Q E w := by
  exact (hm.leads w).bind hf hE

lemma quiet_require (condition : Bool) : Stays Quiet (require condition) := (stays_pure _).ite (stays_fail _)

/-! ## Transfers -/

lemma quiet_hostBytes (i : Nat) : Stays Quiet (hostBytes i) := stays_get.map

lemma quiet_hostRead (d : HostData) : Stays Quiet d.read := by
  cases d with
  | array a => exact (stays_memoryBytes a).mono fun w _ h => h ▸ Quiet.refl w
  | _ => exact stays_pure _

lemma quiet_hostWrite (d : HostData) (data : Bytes) : Stays Quiet (d.write data) := by
  cases d with
  | array => exact (quiet_hostBytes _).bind fun _ => stays_modify fun _ => .of_eq rfl rfl rfl rfl rfl
  | _ => exact stays_fail _

lemma quiet_memoryObject (b : BufferId) : Stays Quiet (memoryObject b) := stays_get.map

lemma quiet_modifyMemory (b : BufferId) (f : Memory → Memory) : Stays Quiet (modifyMemory b f) :=
  stays_modify fun _ => .of_eq rfl rfl (by simp) rfl rfl

def Issues (m : Host EventId) (P : Command → Prop) : Prop :=
  ∀ w : World, w.Fitted → Leads m (fun e w' => ∃ c, c.event = e ∧ P c ∧ w.Issued c w') (fun _ w' => w.Quiet w') w

variable {m : Host EventId}

lemma Issues.mono {P P' : Command → Prop} (hm : Issues m P) (hP : ∀ c, P c → P' c) : Issues m P' :=
  fun w hw => (hm w hw).mono (fun _ _ ⟨c, hc, hPc, hw'⟩ => ⟨c, hc, hP c hPc, hw'⟩)

variable {P : Command → Prop}

lemma issues_bind {m : Host β} {f : β → Host EventId} (hm : Stays Quiet m) (hf : ∀ x, Issues (f x) P) :
    Issues (m >>= f) P := by
  intro w hw
  refine leads_quiet_bind hm (fun x w1 hw1 => (hf x w1 (hw1.fitted hw)).mono ?_ fun _ _ => hw1.trans) fun _ _ hw1 => hw1
  rintro e w2 ⟨c, hc, hP, hw2⟩
  exact ⟨c, hc, hP, hw1.issued hw2⟩

lemma issues_ite {condition : Prop} [Decidable condition] {m' : Host EventId} (hm : Issues m P) (hm' : Issues m' P) :
    Issues (if condition then m else m') P := by
  split
  · exact hm
  · exact hm'

lemma issues_guarded {c : Prop} [Decidable c] {e : Fault} {f : PUnit → Host EventId} (h : Issues (f ()) P) :
    Issues (if c then fail e >>= f else f ()) P := issues_ite (issues_bind (stays_fail e) fun _ => h) h

lemma issues_record {r : EventId → Record} (hr : ∀ e, ∃ c, (r e).command? = some c ∧ c.event = e ∧ P c) : Issues (do
      let e ← newEvent
      record (r e)
      return e) P := by
  intro w _
  obtain ⟨c, hc, he, hP⟩ := hr w.events
  exact ⟨c, he, hP, ⟨[], r w.events, by simp, by simp, hc⟩, he, rfl, rfl, rfl, id⟩

variable (q : Queue) (b : BufferId)

lemma issues_enqueueRead (target : HostData) (offset : Int) (wait : List EventId) (blocking : Bool) :
    Issues (enqueueRead q b target offset wait blocking) fun c => c = ⟨c.event, wait, [b], [], q.id, blocking⟩ := by
  refine issues_bind ((quiet_hostRead target).map) fun n => ?_
  refine issues_bind (quiet_memoryObject b) fun m => ?_
  exact issues_guarded <| issues_bind (quiet_hostWrite _ _) fun _ => issues_record fun e => ⟨_, rfl, rfl, rfl⟩

lemma issues_enqueueWrite (source : HostData) (offset : Int) (wait : List EventId) (blocking : Bool) :
    Issues (enqueueWrite q b source offset wait blocking) fun c => c = ⟨c.event, wait, [b], [b], q.id, blocking⟩ := by
  refine issues_bind (quiet_hostRead source) fun data => issues_bind (quiet_memoryObject b) fun m => ?_
  exact issues_guarded <| issues_bind (quiet_modifyMemory _ _) fun _ => issues_record fun e => ⟨_, rfl, rfl, rfl⟩

lemma issues_enqueueCopy (source target : BufferId) (count sourceOffset targetOffset : Int)
    (wait : List EventId) : Issues (enqueueCopy q source target count sourceOffset targetOffset wait)
      fun c => c = ⟨c.event, wait, [source, target], [target], q.id, false⟩ := by
  refine issues_bind (quiet_memoryObject source) fun s => issues_bind (quiet_memoryObject target) fun t => ?_
  exact issues_guarded <| issues_bind (quiet_modifyMemory _ _) fun _ => issues_record fun e => ⟨_, rfl, rfl, rfl⟩

lemma issues_enqueueFill (pattern : Bytes) (offset size : Int) (wait : List EventId) :
    Issues (enqueueFill q b pattern offset size wait) fun c => c = ⟨c.event, wait, [b], [b], q.id, false⟩ := by
  refine issues_bind (quiet_memoryObject b) fun m => ?_
  exact issues_guarded <| issues_bind (quiet_modifyMemory _ _) fun _ => issues_record fun e => ⟨_, rfl, rfl, rfl⟩

end Host

/-! ## Calls of kernels -/

variable {v : Actual} {b : Binding}

lemma Piece.Fills.eq_buffer {p : Piece} (h : p.Fills v (.buffer x)) : v = .buffer x := by
  cases p with
  | whole => exact (h x).1 rfl
  | _ => simp [Fills] at h

lemma Binding.Fills.buffer_mem (h : b.Fills v xs) (hx : x ∈ xs.filterMap BoundArg.buffer?) : v = .buffer x := by
  obtain ⟨y, hy, hyx⟩ := mem_filterMap.1 hx
  obtain rfl : y = .buffer x := by
    cases y <;> simp_all [BoundArg.buffer?]
  obtain ⟨⟨i, hi⟩, hy⟩ := mem_iff_get.1 hy
  exact Piece.Fills.eq_buffer (hy ▸ (forall₂_iff_get.1 h).2 i (by rwa [Forall₂.length_eq h]) hi)

lemma Binding.FillsAll.buffer_mem {vs : List (Actual × Binding)} (h : Binding.FillsAll vs xs)
    (hx : x ∈ xs.filterMap BoundArg.buffer?) : Actual.buffer x ∈ vs.map (·.1) := by
  induction h with
  | nil => simp at hx
  | @cons v b rest ys zs hfill _ ih =>
    rw [filterMap_append, mem_append] at hx
    rcases hx with hx | hx
    · rw [hfill.buffer_mem hx]
      exact mem_cons_self
    · exact mem_cons_of_mem _ (ih hx)

lemma Binding.FillsAll.head_buffer {rest : List (Actual × Binding)} (h : Binding.FillsAll ((v, b) :: rest) xs)
    (hx : xs.head?.bind BoundArg.buffer? = some x) : v = .buffer x := by
  cases h with
  | @cons _ _ _ ys zs hfill =>
    refine hfill.buffer_mem ?_
    cases ys with
    | nil =>
      have hlen := hfill.length
      cases b <;> cases hlen
    | cons y => exact mem_filterMap.2 ⟨y, mem_cons_self, hx⟩

lemma Kernel.Rebound.fitted {c' : Kernel} (h : c.Rebound c') (hc : c.Fitted) : c'.Fitted := by
  obtain ⟨bound, buffers, rfl, hlen⟩ := h
  exact ⟨hlen.trans hc.1, hc.2⟩

lemma World.Fitted.withKernel (h : w.Fitted) (hc : c.Fitted) : (w.withKernel k c).Fitted := by
  intro k' c' hc'
  rw [World.withKernel, Array.getElem?_setIfInBounds] at hc'
  split at hc'
  · split at hc'
    · obtain rfl := Option.some.inj hc'
      exact hc
    · cases hc'
  · exact h k' c' hc'

lemma World.Quiet.of_answered (hc : c.Fitted) (h : (w.withKernel k c).Answered w') : w.Quiet w' := by
  obtain ⟨replies, memory, hsize, rfl⟩ := h
  exact ⟨⟨[], by simp [withKernel]⟩, rfl, hsize, rfl, fun hw => hw.withKernel hc⟩

namespace Host

lemma issues_call (q : Queue) (k : KernelId) (range : LaunchRange) (v : Actual) (args : List Actual)
    (wait : List EventId) : Issues (call q k range (v :: args) wait) fun c => c.wait = wait ∧ c.queue = q.id ∧
      (∀ b ∈ c.touched, Actual.buffer b ∈ v :: args) ∧ ∀ b ∈ c.written, v = .buffer b := by
  intro w hw
  cases hk : w.kernels[k]? with
  | none =>
    -- A kernel that is not there takes no arguments.
    have hker : Leads (kernel k) (fun c w' => c.bindings = [] ∧ w' = w) Never w := by
      simp [kernel, hk, default, instInhabitedKernel.default]
    rw [call, leads_bind]
    refine hker.bind ?_
    rintro c _ ⟨hbind, rfl⟩
    simp only [hbind]
    exact Quiet.refl _
  | some c =>
    have hc := hw k c hk
    refine (leads_call hk hc).mono ?_ ?_
    · rintro e _ ⟨r, c', w1, -, hc', hlen, hfills, hw1, rfl, rfl⟩
      have hqu := Quiet.of_answered (hc'.fitted hc) hw1
      cases hbind : c.bindings with
      | nil =>
        rw [hbind] at hlen
        cases hlen
      | cons =>
        rw [hbind, zip_cons_cons] at hfills
        let launched : Record :=
          .launch c.name c.program q.id r.globalSize r.localSize r.offset c'.bound wait w.events
        refine ⟨_, rfl, ⟨rfl, rfl, fun x hx => ?_, fun x hx => ?_⟩,
          ⟨[], launched, by simp [launched], by simp, show launched.command? = some _ from rfl⟩, rfl, rfl,
          hqu.memory, hqu.lists, hqu.fitted⟩
        · have hmem := hfills.buffer_mem hx
          rw [map_cons, mem_cons] at hmem
          refine mem_cons.2 (hmem.imp id fun h => ?_)
          obtain ⟨p, hp, heq⟩ := mem_map.1 h
          exact heq ▸ (of_mem_zip hp).1
        · exact hfills.head_buffer (by simpa using hx)
    · rintro _ w' ⟨c', hc', hw'⟩
      exact .of_answered (hc'.fitted hc) hw'

end Host

/-! ## New arrays and their events -/

def Record.isLaunch : Record → Bool
  | .launch .. => true
  | _ => false

def World.launches (w : World) : List Record := w.log.toList.filter (·.isLaunch)

lemma World.launches_push {w : World} {r : Record} (hr : r.isLaunch = false) :
    ({ w with log := w.log.push r } : World).launches = w.launches := by
  simp [launches, hr]

def World.Beside (w w' : World) : Prop :=
  ∃ memory log eventLists events, w' = { w with memory, log, eventLists, events } ∧ w.memory.size ≤ memory.size ∧
    w'.launches = w.launches

instance : Std.Refl Beside := ⟨fun _ => ⟨_, _, _, _, rfl, Nat.le_refl _, rfl⟩⟩

instance : IsTrans World Beside := by
  constructor
  rintro w _ _ ⟨_, _, _, _, rfl, hmemory, hlaun⟩ ⟨memory, log, eventLists, events, rfl, hmemory', hlaun'⟩
  exact ⟨memory, log, eventLists, events, rfl, Nat.le_trans hmemory hmemory', hlaun'.trans hlaun⟩

namespace Host

section Queues

variable {R : World → World → Prop} [Std.Refl R]

lemma quiet_needQueue (queue : Option Queue) : Stays R (needQueue queue) := by
  cases queue
  · exact stays_fail _
  · exact stays_pure _

lemma quiet_arrayQueue (queue : Option Queue) : Stays R (arrayQueue queue) := by
  cases queue
  · exact stays_fail _
  · exact stays_pure _

end Queues

variable {w : World} {E : Fault → World → Prop}

variable {type : ElementType} {shape : List Int} {allocator : Option Allocator} {a : DeviceArray} {e : EventId}

lemma leads_newArray {context : Context} {queue : Option Queue} {strides : List Int} :
    Leads (newArray context queue type shape strides allocator) (fun a w' =>
        a = ⟨(queue.map (·.context)).getD context, queue, type, shape, strides, w.memory.size, 0,
          w.eventLists.size, allocator⟩ ∧ ∃ m size flags, w' = { w with
          memory := w.memory.push m
          log := w.log.push (.alloc w.memory.size size flags)
          eventLists := w.eventLists.push [] })
      (fun _ w' => w' = w) w := by
  unfold newArray allocate newBuffer newMemory
  cases allocationSize (type.size * Strides.count shape) with
  | error => simp
  | ok =>
    simp only [leads_bind, leads_lift_ok, leads_pure]
    split
    · exact rfl
    · exact ⟨rfl, _, _, _, rfl⟩

lemma leads_addEvent {Q : Unit → World → Prop} : Leads (addEvent a e) Q E w ↔
      let (waited, kept) := EventList.add (w.eventLists[a.events]?.getD []) e
      Q () { w with
        log := if waited.isEmpty then w.log else w.log.push (.wait waited)
        eventLists := w.eventLists.setIfInBounds a.events kept } := by
  unfold addEvent eventsOf waitFor
  simp only [leads_bind, leads_eventList]
  rcases EventList.add (w.eventLists[a.events]?.getD []) e with ⟨waited, kept⟩
  cases waited <;> rfl

lemma leads_addEvent_beside : Leads (addEvent a e) (fun _ w' => w.Beside w') E w := by
  refine leads_addEvent.2 ⟨_, _, _, _, rfl, Nat.le_refl _, ?_⟩
  split
  · rfl
  · exact launches_push rfl

lemma reaches_newRows {q : Queue} :
    Reaches Beside (newRows q type shape allocator) (fun a _ => a.shape = shape ∧ a.offset = 0) w := by
  refine leads_newArray.mono ?_ ?_
  · rintro _ _ ⟨rfl, m, size, flags, rfl⟩
    exact ⟨⟨_, _, _, _, rfl, by simp, launches_push rfl⟩, rfl, rfl⟩
  · rintro _ _ rfl
    exact refl _

end Host

/-! ## Launches one after the other -/

structure World.Ran (rs : List Record) (w w' : World) : Prop where
  launches : w'.launches = w.launches ++ rs
  kernels : ∀ (k : KernelId) (c : Kernel), w.kernels[k]? = some c → ∃ c', w'.kernels[k]? = some c' ∧ c.Rebound c'

def World.Ruled (w : World) (k : KernelId) (bindings : List Binding) : Prop :=
  ∃ c, w.kernels[k]? = some c ∧ c.Fitted ∧ c.bindings = bindings

section Ran

variable {w w' w'' : World} {rs rs' : List Record}

lemma World.Ran.refl (w : World) : Ran [] w w := ⟨(List.append_nil _).symm, fun _ c hc => ⟨c, hc, .refl c⟩⟩

lemma World.Ran.trans (h : Ran rs w w') (h' : Ran rs' w' w'') : Ran (rs ++ rs') w w'' := by
  refine ⟨by rw [h'.launches, h.launches, List.append_assoc], fun k c hc => ?_⟩
  obtain ⟨c', hc', hbd⟩ := h.kernels k c hc
  obtain ⟨c'', hc'', hbd'⟩ := h'.kernels k c' hc'
  exact ⟨c'', hc'', hbd.trans hbd'⟩

lemma World.Beside.ran (h : w.Beside w') : Ran [] w w' := by
  obtain ⟨_, _, _, _, rfl, -, hlaun⟩ := h
  exact ⟨by rw [hlaun, List.append_nil], fun _ c hc => ⟨c, hc, .refl c⟩⟩

lemma World.Ruled.ran {k : KernelId} {bindings : List Binding} (hk : w.Ruled k bindings) (h : Ran rs w w') :
    w'.Ruled k bindings := by
  obtain ⟨c, hc, hfit, hbind⟩ := hk
  obtain ⟨c', hc', hbd⟩ := h.kernels k c hc
  refine ⟨c', hc', hbd.fitted hfit, ?_⟩
  obtain ⟨_, _, rfl, _⟩ := hbd
  exact hbind

end Ran

/-! ## Slots in a row -/

lemma find?_packCode (t : Primitive) : Primitive.all.find? (fun p => p.packCode == t.packCode) = some t := by
  cases t <;> decide

lemma pack_integer {t : Primitive} (ht : t.kind = .signed ∨ t.kind = .unsigned) {n : Int} {data : Bytes}
    (h : pack t.packCode (.literal (.int n)) = .ok data) : data = t.store (.int n) := by
  -- Truth values are packed by a branch of their own.
  have hbool : t ≠ .bool := by
    rintro rfl
    simp [Primitive.kind] at ht
  unfold pack at h
  rw [find?_packCode] at h
  rcases ht with ht | ht
  all_goals
    simp only [ht, Actual.exactInteger?] at h
    split at h
    · cases h
      rfl
    · cases h

namespace Binding

lemma FillsAll.of_append {vs ws : List (Actual × Binding)} {xs : List BoundArg} (h : FillsAll (vs ++ ws) xs) :
    ∃ ys zs, xs = ys ++ zs ∧ FillsAll vs ys ∧ FillsAll ws zs := by
  induction vs generalizing xs with
  | nil => exact ⟨[], xs, rfl, .nil, h⟩
  | cons v vs ih =>
    cases h with
    | cons hx h =>
      obtain ⟨ys, zs, rfl, hys, hzs⟩ := ih h
      exact ⟨_ ++ ys, zs, (List.append_assoc ..).symm, .cons hx hys, hzs⟩

/-- What the slot of a value is known to hold: buffers are bound as they are, and integers as the bytes of their
types. -/
inductive Tells : Actual × Binding → BoundArg → Prop
  | buffer (b : BufferId) : Tells (.buffer b, .generic) (.buffer b)
  | integer {t : Primitive} (ht : t.kind = .signed ∨ t.kind = .unsigned) (n : Int) :
      Tells (.literal (.int n), .packed t.packCode) (.data (t.store (.int n)))

lemma Tells.eq {p : Actual × Binding} {x : BoundArg} {xs : List BoundArg} (h : Tells p x) (hxs : p.2.Fills p.1 xs) :
    xs = [x] := by
  cases h with
  | buffer b =>
    obtain ⟨y, _, hbuf, ⟨⟩, rfl⟩ := List.forall₂_cons_left_iff.1 hxs
    rw [(hbuf b).2 rfl]
  | integer ht =>
    obtain ⟨_, _, ⟨data, hdata, rfl⟩, ⟨⟩, rfl⟩ := List.forall₂_cons_left_iff.1 hxs
    rw [pack_integer ht hdata]

lemma FillsAll.eq_of_tells {ps : List (Actual × Binding)} {slots xs : List BoundArg}
    (h : List.Forall₂ Tells ps slots) (hxs : FillsAll ps xs) : xs = slots := by
  induction h generalizing xs with
  | nil =>
    cases hxs
    rfl
  | cons hp _ ih =>
    cases hxs with
    | cons hx hys => rw [hp.eq hx, ih hys, List.singleton_append]

end Binding

namespace Host

variable {w : World} {q : Queue} {k : KernelId} {range : LaunchRange} {wait : List EventId}

/-- **A call is one launch**, with the slots that the rules of the kernel make of its values. -/
lemma leads_call_ran {values : List Actual} {bindings : List Binding} {r : LaunchRange} (hk : w.Ruled k bindings)
    (hr : range.resolve = .ok r) : Leads (call q k range values wait)
      (fun e w' => values.length = bindings.length ∧ ∃ c slots,
        w.kernels[k]? = some c ∧ Binding.FillsAll (values.zip bindings) slots ∧
          Ran [.launch c.name c.program q.id r.globalSize r.localSize r.offset slots wait e] w w')
      (fun _ w' => Ran [] w w') w := by
  obtain ⟨c, hc, hfit, rfl⟩ := hk
  -- Only the slots of the called kernel change.
  have hkers : ∀ {c' : Kernel} {w1 : World}, c.Rebound c' → (w.withKernel k c').Answered w1 →
      ∀ (j : KernelId) (d : Kernel), w.kernels[j]? = some d → ∃ d', w1.kernels[j]? = some d' ∧ d.Rebound d' := by
    rintro c' _ hc' ⟨replies, memory, -, rfl⟩ j d hd
    by_cases hj : k = j
    · subst hj
      obtain rfl : c = d := Option.some.inj (hc.symm.trans hd)
      exact ⟨c', getElem?_withKernel hc, hc'⟩
    · refine ⟨d, ?_, .refl d⟩
      rw [withKernel, Array.getElem?_setIfInBounds_ne hj, hd]
  refine (leads_call hc hfit).mono ?_ ?_
  · rintro e _ ⟨r', c', w1, hr', hc', hlen, hfills, hw1, rfl, rfl⟩
    obtain rfl : r' = r := Except.ok.inj (hr'.symm.trans hr)
    have hkeep := hkers hc' hw1
    refine ⟨hlen, c, c'.bound, hc, hfills, ?_, hkeep⟩
    simp [launches, Record.isLaunch]
  · rintro _ _ ⟨c', hc', hw'⟩
    refine ⟨?_, hkers hc' hw'⟩
    obtain ⟨replies, memory, -, rfl⟩ := hw'
    simp [launches, withKernel]

end Host

/-! ## When dealt out work can be run -/

/-- A range that a device can run for so many elements: whole groups within the limits, which hold all elements as
long as the largest groups would. -/
def LaunchRange.Legal (r : LaunchRange) (d : DeviceInfo) (kernelLimit : Option Nat) (n : Int) : Prop :=
  ∃ groups items : Int, r.globalSize = [groups * items] ∧ r.localSize = some [items] ∧ 1 ≤ groups ∧ 1 ≤ items ∧
    groups ≤ 32 * d.maxComputeUnits ∧ items ≤ d.maxWorkGroupSize ∧ (∀ k ∈ kernelLimit, items ≤ k) ∧
    (n < 32 * d.maxComputeUnits * Splay.largest d.maxWorkGroupSize kernelLimit → n ≤ groups * items)

namespace Splay

def wholeRows (most : Nat) : Int := most / min 32 (most : Int) * min 32 (most : Int)

lemma ceil_le_iff {n d k : Int} (hd : 0 < d) : (n + d - 1) / d ≤ k ↔ n ≤ k * d := by
  rw [← Int.lt_add_one_iff, Int.ediv_lt_iff_lt_mul hd, Int.add_mul]
  omega

variable {units deviceLimit : Nat} {kernelLimit : Option Nat} {n : Int}

lemma deal_spec (huns : 1 ≤ units) (hmost : 1 ≤ largest deviceLimit kernelLimit) :
    let s := deal units deviceLimit kernelLimit n
    let most : Int := largest deviceLimit kernelLimit
    (1 ≤ s.groups ∧ 1 ≤ s.items ∧ s.groups ≤ 32 * units ∧ (n < 32 * units * most → n ≤ s.groups * s.items)) ∧
      (s.items ≤ most ↔ n ≤ 32 * units * wholeRows (largest deviceLimit kernelLimit) ∨ 32 * units * most ≤ n) := by
  have hgrps : (units : Int) * groupsPerUnit = 32 * units := by rw [groupsPerUnit]; omega
  simp only [deal, wholeRows, hgrps]
  generalize (largest deviceLimit kernelLimit : Nat) = most at hmost
  have hrow : 1 ≤ min (fewestItems : Int) most ∧ min (fewestItems : Int) most ≤ most := by
    rw [fewestItems]; omega
  have hbd : (1 : Int) ≤ 32 * units := by omega
  change _ ∧ (_ ↔ n ≤ _ * (most / min (fewestItems : Int) most * min (fewestItems : Int) most) ∨ _)
  generalize min (fewestItems : Int) most = row at hrow
  generalize (32 * units : Int) = bound at hbd
  obtain ⟨hrow, hle⟩ := hrow
  have hwhole : row ≤ most / row * row := by
    have : 1 ≤ (most : Int) / row := (Int.le_ediv_iff_mul_le (by omega)).2 (by omega)
    nlinarith
  split_ifs with hsmall hfew hmany
  · refine ⟨⟨le_rfl, hrow, hbd, fun _ => ?_⟩, iff_of_true hle (.inl ?_)⟩
    · rw [one_mul]
      exact hsmall.le
    · nlinarith
  · have hheld : n ≤ (n + row - 1) / row * row := (ceil_le_iff (by omega)).1 le_rfl
    refine ⟨⟨?_, hrow, (ceil_le_iff (by omega)).2 hfew.le, fun _ => hheld⟩, iff_of_true hle (.inl ?_)⟩
    · by_contra hnone
      nlinarith
    · nlinarith
  · -- The rows are dealt out to all groups.
    have hitems : (((n + row - 1) / row + bound - 1) / bound * row ≤ (most : Int) ↔ n ≤ bound * (most / row * row)) := by
      rw [← Int.le_ediv_iff_mul_le (by omega), ceil_le_iff (by omega), ceil_le_iff (by omega)]
      rw [Int.mul_comm (_ / row) bound, Int.mul_assoc]
    have hheld : n ≤ bound * (((n + row - 1) / row + bound - 1) / bound * row) := by
      have hrows : (n + row - 1) / row ≤ ((n + row - 1) / row + bound - 1) / bound * bound :=
        (ceil_le_iff (by omega)).1 le_rfl
      rw [ceil_le_iff (by omega)] at hrows
      nlinarith
    refine ⟨⟨hbd, ?_, le_rfl, fun _ => hheld⟩, hitems.trans (or_iff_left (by omega)).symm⟩
    by_contra hnone
    nlinarith
  · exact ⟨⟨hbd, hrow.trans hle, le_rfl, fun h => absurd h hmany⟩, iff_of_true le_rfl (.inr (not_lt.1 hmany))⟩

lemma legal_range_iff {s : Splay} {d : DeviceInfo} (hitems : 1 ≤ s.items) :
    s.range.Legal d kernelLimit n ↔ 1 ≤ s.groups ∧ 1 ≤ s.items ∧ s.groups ≤ 32 * d.maxComputeUnits ∧
      s.items ≤ d.maxWorkGroupSize ∧ (∀ k ∈ kernelLimit, s.items ≤ k) ∧
      (n < 32 * d.maxComputeUnits * largest d.maxWorkGroupSize kernelLimit → n ≤ s.groups * s.items) := by
  constructor
  · rintro ⟨groups, items, hglobal, hlocal, h⟩
    obtain rfl : s.items = items := by simpa [range] using hlocal
    obtain rfl : s.groups = groups := by
      have hprod : s.groups * s.items = groups * s.items := by simpa [range] using hglobal
      exact Int.eq_of_mul_eq_mul_right (by omega) hprod
    exact h
  · exact fun h => ⟨s.groups, s.items, rfl, rfl, h⟩

lemma within_limits_iff {items : Int} (h : items ≤ largest deviceLimit kernelLimit ↔
      n ≤ 32 * units * wholeRows (largest deviceLimit kernelLimit) ∨
        32 * units * (largest deviceLimit kernelLimit : Int) ≤ n) :
    (items ≤ deviceLimit ∧ ∀ k ∈ kernelLimit, items ≤ k) ↔ items ≤ largest deviceLimit kernelLimit := by
  rcases eq_or_ne (largest deviceLimit kernelLimit) mostItems with hfix | hlimited
  · have hrows : wholeRows (largest deviceLimit kernelLimit) = (largest deviceLimit kernelLimit : Nat) := by
      rw [hfix]
      decide
    rw [hrows] at h
    have hitems := h.2 (Int.le_total ..)
    refine iff_of_true ?_ hitems
    cases kernelLimit <;> simp [largest] at hitems ⊢ <;> omega
  · cases kernelLimit <;> simp [largest] at hlimited ⊢ <;> omega

end Splay

namespace Host

/-- **Dealing out gives a launch that can be run**, except for the numbers of elements between what the largest groups
of whole rows hold and what the largest groups hold. -/
theorem splay_legal_iff (q : Queue) (n : Int) (kernelLimit : Option Nat) (w : World)
    (huns : 1 ≤ (w.device q.device).maxComputeUnits) (hdev : 1 ≤ (w.device q.device).maxWorkGroupSize)
    (hker : ∀ k ∈ kernelLimit, 1 ≤ k) :
    let d := w.device q.device
    let most := Splay.largest d.maxWorkGroupSize kernelLimit
    ∃ s, (splay q n kernelLimit).run.run w = (.ok s, w) ∧ (s.range.Legal d kernelLimit n ↔
      n ≤ 32 * d.maxComputeUnits * Splay.wholeRows most ∨ 32 * d.maxComputeUnits * (most : Int) ≤ n) := by
  intro d most
  have hmost : 1 ≤ most := by
    simp only [most, Splay.largest, Splay.mostItems]
    cases kernelLimit with
    | none => simpa using hdev
    | some k => simpa using ⟨hdev, hker k rfl⟩
  refine ⟨Splay.deal d.maxComputeUnits d.maxWorkGroupSize kernelLimit n, rfl, ?_⟩
  obtain ⟨⟨hgrps, hitems, hbd, hheld⟩, hrows⟩ := Splay.deal_spec huns hmost
  rw [Splay.legal_range_iff hitems, ← hrows, ← Splay.within_limits_iff hrows]
  exact ⟨fun h => ⟨h.2.2.2.1, h.2.2.2.2.1⟩, fun h => ⟨hgrps, hitems, hbd, h.1, h.2, hheld⟩⟩

theorem splay_exceeds :
    let w : World := { platforms := [{ devices := [{ maxComputeUnits := 1, maxWorkGroupSize := 100 }] }] }
    let q : Queue := default
    1 ≤ (w.device q.device).maxComputeUnits ∧ 1 ≤ (w.device q.device).maxWorkGroupSize ∧
      ∃ s, (splay q 3100 none).run.run w = (.ok s, w) ∧ ¬ s.range.Legal (w.device q.device) none 3100 := by
  intro w q
  obtain ⟨s, hs, hlegal⟩ := splay_legal_iff q 3100 none w (by decide) (by decide) nofun
  exact ⟨by decide, by decide, s, hs, fun h => absurd (hlegal.1 h) (by decide)⟩

end Host

end ClHost
