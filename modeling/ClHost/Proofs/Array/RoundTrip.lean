import ClHost.Proofs.Array.Operations
import ClHost.Proofs.Array.Spacing
import ClHost.Proofs.CType.Structures
import ClHost.Session.ArrayMethods

/-!
# Arrays of the host on a device

An array of the host that is laid out like the part it is assigned to is sent to the device as it is, whatever its
type.
-/

namespace ClHost

open Strides Nat HostArray
open List hiding count

def ElementType.converted (source target : ElementType) (bytes : Bytes) : Option Bytes :=
  if source = target then some bytes
  else source.primitive?.bind fun p => target.primitive?.map fun q => q.store (p.load bytes)

namespace HostArray

def held (h : HostArray) (w : World) : Bytes :=
  ((w.hostBlocks[h.block]?.getD default).bytes.drop h.offset.toNat).take h.nbytes.toNat

def element (h : HostArray) (bytes : Bytes) (index : List Nat) : Bytes :=
  (bytes.drop (byteOffset h.strides index).toNat).take h.type.size

end HostArray

/-- Bytes sent to the first element of a part give it the values of an array of the host: every element gets all its
bytes, those of the converted value, and nothing beside the elements is touched. -/
structure DeviceArray.Stored (part : DeviceArray) (h : HostArray) (bytes sent : Bytes) : Prop where
  values : ∀ index, InShape part.shape index →
    (byteOffset part.strides index).toNat + part.type.size ≤ sent.length ∧
      h.type.converted part.type (h.element bytes index) =
        some ((sent.drop (byteOffset part.strides index).toNat).take part.type.size)
  confined : ∀ k < sent.length, ∃ index, InShape part.shape index ∧
    byteOffset part.strides index ≤ k ∧ k < byteOffset part.strides index + part.type.size

def World.Sent (w : World) (b : BufferId) (offset : Int) (sent : Bytes) (w' : World) : Prop :=
  w'.memory = w.memory.modify b (fun m => { m with memory := m.memory.write offset.toNat sent }) ∧
    ∃ wait q e more, w'.log.toList = w.log.toList ++ .write b offset sent true wait q e :: more ∧
      ∀ r ∈ more, r.command? = none

section Stored

variable {part : DeviceArray} {h : HostArray} {bytes : Bytes}

lemma HostArray.places (hcont : h.isContiguous = true) (hfull : ∀ n ∈ h.shape, 1 ≤ n) :
    (∀ index, InShape h.shape index → ∃ k < h.size.toNat, byteOffset h.strides index = h.type.size * (k : Nat)) ∧
      ∀ k < h.size.toNat, ∃ index, InShape h.shape index ∧ byteOffset h.strides index = h.type.size * (k : Nat) := by
  obtain ⟨order, hord⟩ : ∃ order, agree h.strides (ofOrder h.type.size h.shape order) h.shape = true := by
    have hsize : (h.size == 0) = false := by
      have := one_le_count hfull
      simp only [size, beq_eq_false_iff_ne]
      omega
    simp only [isContiguous, isRowMajor, isColumnMajor, matchesOrder, hsize, Bool.false_or] at hcont
    rcases Bool.or_eq_true _ _ ▸ hcont with hrow | hcolumn
    · exact ⟨.row, hrow⟩
    · exact ⟨.column, hcolumn⟩
  have hplcs := Axes.map_byteOffset_of_agree hord hfull
  constructor
  · intro index hidx
    have hmem : byteOffset h.strides index ∈ (positions order h.shape).map (byteOffset h.strides) :=
      mem_map_of_mem (mem_positions.2 hidx)
    rw [hplcs] at hmem
    obtain ⟨k, hk, heq⟩ := mem_map.1 hmem
    exact ⟨k, mem_range.1 hk, heq.symm⟩
  · intro k hk
    have hmem : (h.type.size * (k : Nat) : Int) ∈ Axes.along h.size h.type.size :=
      mem_map.2 ⟨k, mem_range.2 hk, rfl⟩
    rw [size, ← hplcs] at hmem
    obtain ⟨index, hidx, heq⟩ := mem_map.1 hmem
    exact ⟨index, mem_positions.1 hidx, heq⟩

variable (hsh : part.shape = h.shape) (hstr : part.strides = h.strides) (hnn : ∀ n ∈ h.shape, 0 ≤ n)
  (hcont : h.isContiguous = true) (htype : 0 < h.type.size) (hby : (bytes.length : Int) = h.nbytes)
include hsh hstr hnn hcont htype hby

lemma DeviceArray.stored_iff : part.Stored h bytes bytes ↔ ∀ index, InShape part.shape index →
      part.type.size = h.type.size ∧ h.type.converted part.type (h.element bytes index) = some (h.element bytes index) := by
  have hlen : bytes.length = h.size.toNat * h.type.size := by
    have hsize : 0 ≤ h.size := (Int.natCast_nonneg _).trans_eq (length_positions hnn)
    zify
    rwa [Int.toNat_of_nonneg hsize]
  rw [hsh]
  constructor
  · intro hstored index hidx
    obtain ⟨hplace, hrch⟩ := places hcont hidx.one_le
    obtain ⟨n, hn⟩ : ∃ n, h.size.toNat = n + 1 := by
      obtain ⟨k, hk, -⟩ := hplace index hidx
      exact ⟨h.size.toNat - 1, by omega⟩
    rw [hn, add_mul] at hlen
    have hle : part.type.size ≤ h.type.size := by
      obtain ⟨last, hlast, hoff⟩ := hrch n (by omega)
      have hroom := (hstored.values last (hsh ▸ hlast)).1
      rw [hstr, hoff, mul_comm] at hroom
      omega
    have hge : h.type.size ≤ part.type.size := by
      obtain ⟨index, hidx, -, hlt⟩ := hstored.confined (bytes.length - 1) (by omega)
      obtain ⟨k, hk, hoff⟩ := hplace index (hsh ▸ hidx)
      have hk : h.type.size * k ≤ n * h.type.size := by
        rw [mul_comm]
        exact mul_le_mul_right _ (by omega)
      rw [hstr] at hlt
      omega
    have hv := (hstored.values index (hsh ▸ hidx)).2
    rw [hstr, hle.antisymm hge] at hv
    exact ⟨hle.antisymm hge, hv⟩
  · intro hkept
    refine ⟨fun index hidx => ?_, fun k hk => ?_⟩
    · rw [hsh] at hidx
      obtain ⟨hsize, hv⟩ := hkept index hidx
      obtain ⟨k, hk, hoff⟩ := (places hcont hidx.one_le).1 index hidx
      refine ⟨?_, by rw [hv, hstr, hsize]; rfl⟩
      rw [hstr, hoff, ← cast_mul, Int.toNat_natCast, hlen, hsize, ← mul_succ, mul_comm]
      exact mul_le_mul_right _ hk
    · have hfull : ∀ n ∈ h.shape, 1 ≤ n := one_le_of_count_ne hnn fun hzero => by
        rw [show h.size = 0 from hzero, Int.toNat_zero] at hlen
        omega
      have hk' : k / h.type.size < h.size.toNat := Nat.div_lt_of_lt_mul (by rwa [Nat.mul_comm, ← hlen])
      obtain ⟨index, hidx, hoff⟩ := (places hcont hfull).2 _ hk'
      refine ⟨index, hsh ▸ hidx, ?_⟩
      rw [hstr, (hkept index hidx).1]
      have hdiv := div_add_mod k h.type.size
      have hmod := mod_lt k htype
      omega

end Stored

namespace Host

lemma leads_enqueueWrite_sent {h : HostArray} {w : World} (a : DeviceArray) (q : Queue) (b : BufferId) (offset : Int)
    (wait : List EventId) (hcont : h.isContiguous = true) :
    Leads (do addEvent a (← enqueueWrite q b (.array h) offset wait true))
      (fun _ w' => w.Sent b offset (h.held w) w') (fun _ w' => w' = w) w := by
  simp only [enqueueWrite, HostData.read, memoryBytes, hcont, Bool.not_true, Bool.false_eq_true, if_false,
    hostBytes, memoryObject, modifyMemory, leads_bind, leads_get, leads_pure]
  split
  · rfl
  · simp only [leads_bind, leads_modify, leads_newEvent, leads_record, leads_pure, leads_addEvent_iff, World.Sent,
      World.added]
    refine ⟨rfl, wait, q.id, w.events, ?_⟩
    split
    · exact ⟨[], by simp [held], by simp⟩
    · exact ⟨[_], by simp [held]; rfl, by simp [Record.command?]⟩

/-- **Assigning an array of the host stores its values** just if its elements are as long as those of the part and
converting them changes no byte. Otherwise its bytes are sent all the same; what fails does so before that. -/
theorem assignPart_stores_iff (a : DeviceArray) (entries : List IndexEntry) (h : HostArray) (queue : Option Queue)
    (wait : List EventId) (w : World)
    (hlay : ∀ part, a.index entries = .ok part → part.shape = h.shape ∧ part.strides = h.strides)
    (hsh : ∀ n ∈ h.shape, 0 ≤ n) (hcont : h.isContiguous = true) (htype : 0 < h.type.size)
    (hheld : ((h.held w).length : Int) = h.nbytes) :
    Leads (assignPart a entries (.host h) queue wait)
      (fun _ w' => ∃ part sent, a.index entries = .ok part ∧ w.Sent part.buffer part.offset sent w' ∧
        (part.Stored h (h.held w) sent ↔ ∀ index, InShape part.shape index → part.type.size = h.type.size ∧
          h.type.converted part.type (h.element (h.held w) index) = some (h.element (h.held w) index)))
      (fun _ w' => w' = w) w := by
  cases hidx : a.index entries with
  | error e =>
    cases hq : queue <|> a.queue <;>
      simp [assignPart, assignmentQueue, hq, hidx, eventsOf]
  | ok part =>
    obtain ⟨hs, hd⟩ := hlay part hidx
    cases hq : queue <|> a.queue with
    | none => simp [assignPart, assignmentQueue, hq]
    | some q =>
      have hsame : (part.shape == h.shape && part.strides == h.strides) = true := by simp [hs, hd]
      simp only [assignPart, assignmentQueue, hq, hidx, eventsOf, needQueue, hsame, leads_bind, leads_pure,
        leads_eventList, leads_lift_ok]
      refine (leads_enqueueWrite_sent a q part.buffer part.offset _ hcont).mono (fun _ w' hsent => ?_) fun _ _ => id
      exact ⟨part, h.held w, rfl, hsent, DeviceArray.stored_iff hs hd hsh hcont htype hheld⟩

theorem assignPart_overwrites :
    let a : DeviceArray := { (default : DeviceArray) with type := .number .int16, shape := [4], strides := [2] }
    let h : HostArray := { type := .number .int32, shape := [2], strides := [4], block := 0 }
    let w : World := { memory := #[⟨.buffer, 1, ⟨8, []⟩⟩], hostBlocks := #[⟨[1, 0, 0, 0, 2, 0, 0, 0]⟩] }
    let m := assignPart a [.slice none none (some 2)] (.host h) (some default) []
    (m.run.run w).1 = .ok () ∧ Leads m (fun _ w' => ∃ part sent, a.index [.slice none none (some 2)] = .ok part ∧
      w.Sent part.buffer part.offset sent w' ∧ ¬ part.Stored h (h.held w) sent) (fun _ w' => w' = w) w := by
  intro a h w m
  have hlay : ∀ part, a.index [.slice none none (some 2)] = .ok part →
      part.shape = h.shape ∧ part.strides = h.strides ∧ part.type.size = 2 := by
    intro part hpart
    cases hpart
    decide
  refine ⟨rfl, (assignPart_stores_iff a _ h _ [] w (fun part hpart => ⟨(hlay part hpart).1, (hlay part hpart).2.1⟩)
    (by decide) (by decide) (by decide) (by decide)).mono ?_ fun _ _ => id⟩
  rintro _ w' ⟨part, sent, hpart, hsent, hstored⟩
  refine ⟨part, sent, hpart, hsent, fun hright => ?_⟩
  have hsize := (hstored.1 hright [0] ((hlay part hpart).1 ▸ .cons (by decide) .nil)).1
  rw [(hlay part hpart).2.2] at hsize
  cases hsize

end Host

/-! ## Arrays sent to a device and back -/

open Host

lemma Strides.inShape_of_mem_indices {shape : List Int} {index : List Nat}
    (h : index ∈ indices (shape.map Int.toNat)) : InShape shape index := by
  induction shape generalizing index with
  | nil =>
    obtain rfl : index = [] := by simpa [indices] using h
    exact .nil
  | cons n ns ih =>
    obtain ⟨i, hi, rest, hrest, rfl⟩ : ∃ i < n.toNat, ∃ rest ∈ indices (ns.map Int.toNat), i :: rest = index := by
      simpa [indices] using h
    exact .cons (by omega) (ih hrest)

lemma Memory.size_write (m : Memory) (offset : Nat) (data : Bytes) : (m.write offset data).size = m.size := by
  rw [write, apply]
  split <;> rfl

lemma Memory.read_write_blank (size : Nat) (data : Bytes) :
    ((⟨size, []⟩ : Memory).write 0 data).read 0 data.length = data := by
  cases data with
  | nil => rfl
  | cons => simp [write, apply, read, Patch.clip, Patch.bytes, overlay]

namespace HostArray

variable {a : HostArray} {w : World}

lemma contiguity_iff (hfull : ∀ n ∈ a.shape, 1 ≤ n) :
    (contiguity a.strides a.type.size a.shape).any = a.isContiguous := by
  have hsize : (a.size == 0) = false := by
    have := one_le_count hfull
    simp only [size, beq_eq_false_iff_ne]
    omega
  simp only [Contiguity.any, contiguity, isContiguous, isRowMajor, isColumnMajor, matchesOrder, hsize,
    Bool.false_or, isRowMajor, isColumnMajor]
  exact Bool.or_comm _ _

lemma run_elements (hfull : ∀ n ∈ a.shape, 1 ≤ n) (hcont : a.isContiguous = true) (hoff : 0 ≤ a.offset) :
    a.elements.run.run w =
      (.ok ((indices (a.shape.map Int.toNat)).map fun index => ⟨a.type, a.element (a.held w) index⟩), w) := by
  have hitem : ∀ index ∈ indices (a.shape.map Int.toNat),
      ((w.hostBlocks[a.block]?.getD default).bytes.drop (a.offset + byteOffset a.strides index).toNat).take a.type.size =
        a.element (a.held w) index := by
    intro index hidx
    obtain ⟨k, hk, hplace⟩ := (places hcont hfull).1 index (inShape_of_mem_indices hidx)
    have hend : a.type.size * k + a.type.size ≤ a.nbytes.toNat := by
      have hsize : 0 ≤ a.size := (one_le_count hfull).trans' (by decide)
      rw [nbytes, Int.toNat_mul hsize (Int.natCast_nonneg _), Int.toNat_natCast, mul_comm a.size.toNat, ← Nat.mul_succ]
      exact Nat.mul_le_mul_left _ hk
    have hplace' : (byteOffset a.strides index).toNat = a.type.size * k := by
      rw [hplace, ← Nat.cast_mul, Int.toNat_natCast]
    rw [element, held, hplace', Int.toNat_add hoff (by rw [hplace]; positivity), hplace', ← drop_drop, drop_take,
      take_take, Nat.min_eq_left (by omega)]
  change (Except.ok _, w) = _
  rw [offsets, map_map, map_congr_left fun index hidx => ?_]
  simp [← hitem index hidx]

end HostArray

namespace Host

variable {w : World}

lemma leads_newArray_blank {context : Context} {queue : Option Queue} {type : ElementType} {shape strides : List Int}
    {allocator : Option Allocator} {size : Int} (hsize : allocationSize (type.size * count shape) = .ok size)
    (hpos : 0 < size) : Leads (newArray context queue type shape strides allocator)
      (fun d w' => d = ⟨(queue.map (·.context)).getD context, queue, type, shape, strides, w.memory.size, 0,
          w.eventLists.size, allocator⟩ ∧ ∃ flags log, w' = { w with
          memory := w.memory.push ⟨.buffer, flags, ⟨size.toNat, []⟩⟩
          log
          eventLists := w.eventLists.push [] })
      Never w := by
  unfold newArray allocate newBuffer newMemory
  simp only [hsize, leads_bind, leads_lift_ok, leads_pure, if_neg (Int.not_le.2 hpos)]
  exact ⟨rfl, _, _, rfl⟩

lemma leads_enqueueRead_array {h : HostArray} {b : BufferId} {m : MemoryObject} {n : Nat} {q : Queue}
    {wait : List EventId} {blocking : Bool} (hcont : h.isContiguous = true) (hm : w.memory[b]? = some m)
    (hroom : n ≤ m.memory.size) (hheld : (h.held w).length = n) : Leads (enqueueRead q b (.array h) 0 wait blocking)
      (fun _ w' => w'.hostBlocks = w.hostBlocks.setIfInBounds h.block
        ⟨Memory.overlay (w.hostBlocks[h.block]?.getD default).bytes h.offset.toNat (m.memory.read 0 n)⟩) Never w := by
  have hfits : fits m.memory 0 n = true := by
    simp only [fits, Bool.and_eq_true, decide_eq_true_eq]
    omega
  have hsize : Leads (HostData.size (.array h)) (fun k w' => k = n ∧ w' = w) Never w := by
    simp only [HostData.size, HostData.read, memoryBytes, hcont, hostBytes, Bool.not_true,
      Bool.false_eq_true, if_false]
    exact ⟨hheld, rfl⟩
  rw [enqueueRead]
  refine hsize.bind ?_
  rintro _ _ ⟨rfl, rfl⟩
  simp only [memoryObject, HostData.write, setMemoryBytes, hostBytes, setHostBytes, leads_bind, leads_get,
    leads_pure, hm, Option.getD_some, hfits, Bool.not_true, Bool.false_eq_true, if_false, leads_modify, leads_newEvent,
    leads_record, Int.toNat_zero]

lemma exists_allocationSize {a : HostArray} (hfull : ∀ n ∈ a.shape, 1 ≤ n) :
    ∃ size, allocationSize (a.type.size * count a.shape) = .ok size ∧ 0 < size ∧ a.nbytes ≤ size := by
  have hnbytes : a.nbytes = a.type.size * count a.shape := mul_comm _ _
  have hnn : 0 ≤ a.nbytes := Int.mul_nonneg ((one_le_count hfull).trans' (by decide)) (Int.natCast_nonneg _)
  rw [← hnbytes, allocationSize]
  rcases hnn.eq_or_lt with hzero | hpos
  · exact ⟨1, by rw [← hzero]; rfl, by decide, by omega⟩
  · exact ⟨a.nbytes, by rw [if_neg (by simpa using hpos.ne'), if_neg (by omega)], hpos, le_rfl⟩

section Contiguous

variable {a : HostArray} (hfull : ∀ n ∈ a.shape, 1 ≤ n) (hcont : a.isContiguous = true)
include hfull hcont

/-- An array has the elements, shape and strides of an array of the host, and starts where its buffer does. -/
structure Mirrors (d : DeviceArray) (a : HostArray) : Prop where
  type : d.type = a.type
  shape : d.shape = a.shape
  strides : d.strides = a.strides
  offset : d.offset = 0

variable {d : DeviceArray} {m : MemoryObject} {q : Queue} {blocking : Bool}

lemma leads_setArray_mirror (hd : Mirrors d a) (hm : w.memory[d.buffer]? = some m)
    (hroom : (a.held w).length ≤ m.memory.size) : Leads (setArray d a (some q) blocking)
      (fun _ w' => w'.memory[d.buffer]? = some { m with memory := m.memory.write 0 (a.held w) }) Never w := by
  have hagree : agree a.strides a.strides a.shape = true := by
    rw [← contiguity_iff hfull, Contiguity.any, contiguity, Bool.or_eq_true] at hcont
    exact agree_self (hcont.elim length_of_agree length_of_agree)
  have hfits : fits m.memory 0 (a.held w).length = true := by
    simp only [fits, Bool.and_eq_true, decide_eq_true_eq]
    omega
  have hcnt : (count a.shape != 0) = true := by
    have := one_le_count hfull
    rw [bne_iff_ne]
    omega
  have hread : Leads (HostData.read (.array a)) (fun data w' => data = a.held w ∧ w' = w) Never w := by
    simp only [HostData.read, memoryBytes, hcont, hostBytes, Bool.not_true, Bool.false_eq_true, if_false]
    exact ⟨rfl, rfl⟩
  simp only [setArray, require, HostArray.size, DeviceArray.size, hd.type, hd.shape, hd.strides, hd.offset,
    beq_self_eq_true, ElementType.same_iff.2, hcont, hagree, hcnt, Bool.not_true, Bool.false_eq_true, if_false,
    if_true]
  change Leads (do addEvent d (← enqueueWrite q d.buffer (.array a) 0 [] blocking)) _ _ w
  rw [leads_bind, enqueueWrite]
  refine hread.bind ?_
  rintro _ _ ⟨rfl, rfl⟩
  simp only [memoryObject, modifyMemory, leads_bind, leads_get, leads_pure, hm, Option.getD_some, hfits, Bool.not_true,
    Bool.false_eq_true, if_false, leads_modify, leads_newEvent, leads_record, leads_addEvent_iff, World.added,
    Int.toNat_zero, Array.getElem?_modify, if_true, Option.map_some]

lemma leads_readArray_mirror {data : Bytes} (hd : Mirrors d a) (hq : d.queue = some q)
    (hm : w.memory[d.buffer]? = some m) (hread : m.memory.read 0 data.length = data)
    (hdata : (data.length : Int) = a.nbytes) (hroom : data.length ≤ m.memory.size) :
    Leads (readArray d none none blocking)
      (fun x w' => ∃ block, x.1 = ⟨a.type, a.shape, a.strides, block, 0⟩ ∧ x.1.held w' = data) Never w := by
  have hcnt : (count a.shape == 0) = false := by
    have := one_le_count hfull
    rw [beq_eq_false_iff_ne]
    omega
  have hlen : (count a.shape).toNat * a.type.size = data.length := by
    have := one_le_count hfull
    zify
    rw [Int.toNat_of_nonneg (by omega), hdata]
    rfl
  have hcontiguity : d.contiguity.any = true := by
    rw [DeviceArray.contiguity, hd.strides, hd.type, hd.shape, contiguity_iff hfull, hcont]
  -- the array for the result has a block of its own
  let fresh : HostArray := ⟨a.type, a.shape, a.strides, w.hostBlocks.size, 0⟩
  have hfreshBytes : fresh.nbytes.toNat = data.length := by
    rw [← Int.toNat_natCast data.length, hdata]
    rfl
  have htar : Leads (readTarget d none)
      (fun h w' => h = fresh ∧ w'.memory = w.memory ∧ w'.hostBlocks = w.hostBlocks.push ⟨replicate data.length 0⟩)
      Never w := by
    rw [← hlen, readTarget, hd.type, hd.shape, hd.strides]
    exact ⟨rfl, rfl, rfl⟩
  rw [readArray]
  refine htar.bind ?_
  rintro _ w1 ⟨rfl, hmemory, hbls⟩
  have hfresh : fresh.isContiguous = true := hcont
  have hzeros : (fresh.held w1).length = data.length := by
    rw [held, hfreshBytes, hbls]
    simp [fresh]
  have hsize : (d.size == 0) = false := by rwa [DeviceArray.size, hd.shape]
  have hchosen : (none <|> d.queue) = some q := hq
  simp only [require, hcontiguity, hchosen, hsize, hd.offset, Bool.false_eq_true, if_true, if_false, leads_bind, leads_pure,
    eventsOf, leads_eventList]
  refine (leads_enqueueRead_array hfresh (hmemory ▸ hm) hroom hzeros).mono ?_
  intro e w' hbls'
  rw [leads_bind, leads_addEvent_iff]
  refine ⟨_, rfl, ?_⟩
  have hadded : (w'.added d e).hostBlocks = w'.hostBlocks := rfl
  rw [held, hfreshBytes, hadded, hbls', hbls, hread]
  simp [fresh, Memory.overlay]

end Contiguous

end Host

namespace Session

/-- **Arrays come back from a device as they were sent.** A contiguous array with elements is sent to a device and read
back: neither fails, and the result has the same type, shape and strides, and the same element at each index. -/
theorem getArray_toDevice (q : Queue) (a : HostArray) (w : World) (hfull : ∀ n ∈ a.shape, 1 ≤ n)
    (hcont : a.isContiguous = true) (htype : a.type ≠ .object) (hoff : 0 ≤ a.offset)
    (hheld : ((a.held w).length : Int) = a.nbytes) :
    Leads (do getArray (← toDevice (.queue q) (.host a) .none .none (.text "same") (.dict [])) none .none .none (.dict []))
      (fun h w' => h.type = a.type ∧ h.shape = a.shape ∧ h.strides = a.strides ∧
        ∃ items, a.elements.run.run w = (.ok items, w) ∧ h.elements.run.run w' = (.ok items, w'))
      (fun _ _ => False) w := by
  obtain ⟨size, hsize, hpos, hroom⟩ := exists_allocationSize hfull
  have hblk : asynchronous .none (.dict []) = pure false := rfl
  have hfits : (a.held w).length ≤ size.toNat := by omega
  have hfits' : (a.held w).length ≤ ((⟨size.toNat, []⟩ : Memory).write 0 (a.held w)).size := by rwa [Memory.size_write]
  have hsent : toDevice (.queue q) (.host a) .none .none (.text "same") (.dict []) = Host.toDevice q a none true true := by
    simp [toDevice, hblk, transferArray, htype, allocatorOf]
  have hgot (d : DeviceArray) : getArray d none .none .none (.dict []) = Prod.fst <$> Host.readArray d none none true := by
    simp [getArray, readArray, Value.truth, hblk, given]
  simp only [hsent, hgot, Host.toDevice, leads_bind]
  refine (leads_newArray_blank hsize hpos).mono ?_ fun _ _ => id
  rintro d w₁ ⟨hd, flags, log, hw₁⟩
  have hmirrors : Mirrors d a := by
    rw [hd]
    exact ⟨rfl, rfl, rfl, rfl⟩
  have hheld₁ : a.held w₁ = a.held w := by
    rw [hw₁]
    rfl
  have hmemory : w₁.memory[d.buffer]? = some ⟨.buffer, flags, ⟨size.toNat, []⟩⟩ := by simp [hd, hw₁]
  refine (leads_setArray_mirror hfull hcont hmirrors hmemory (hheld₁ ▸ hfits)).bind ?_ fun _ _ => id
  intro _ w₂ hwr
  rw [hheld₁] at hwr
  rw [leads_pure, leads_map]
  refine (leads_readArray_mirror hfull hcont hmirrors (by rw [hd]; rfl) hwr (Memory.read_write_blank _ _) hheld
    hfits').mono ?_ fun _ _ => id
  rintro ⟨h, e⟩ w' ⟨block, hh, hread⟩
  obtain rfl : h = ⟨a.type, a.shape, a.strides, block, 0⟩ := hh
  refine ⟨rfl, rfl, rfl, _, HostArray.run_elements hfull hcont hoff, ?_⟩
  rw [← hread]
  exact HostArray.run_elements (a := ⟨a.type, a.shape, a.strides, block, 0⟩) hfull hcont le_rfl

theorem getArray_toDevice_columns :
    let a : HostArray := ⟨.number .int16, [2, 1, 3], [2, -6, 4], 0, 2⟩
    let w : World := { hostBlocks := #[⟨[9, 9, 1, 0, 2, 0, 3, 0, 4, 0, 5, 0, 6, 0]⟩] }
    a.isContiguous = true ∧ a.isRowMajor = false ∧
      Leads (do
        getArray (← toDevice (.queue default) (.host a) .none .none (.text "same") (.dict [])) none .none .none (.dict []))
        (fun h w' => h.type = a.type ∧ h.shape = a.shape ∧ h.strides = a.strides ∧
          ∃ items, a.elements.run.run w = (.ok items, w) ∧ h.elements.run.run w' = (.ok items, w'))
        (fun _ _ => False) w := by
  intro a w
  have hcont : a.isContiguous = true := by decide
  have hheld : ((a.held w).length : Int) = a.nbytes := rfl
  -- the state is not to be unfolded from here on
  clear_value w
  exact ⟨hcont, by decide, getArray_toDevice default a w (by decide) hcont nofun (by decide) hheld⟩

end Session

end ClHost
