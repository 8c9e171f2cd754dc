import ClHost.Array.Basic

/-!
# Commands that are recorded and not carried out

Each command has a fixed list of named arguments, of which some have to be given.
-/

namespace ClHost

open Host

structure CommandForm where
  name : String
  required : List String
  optional : List String
  makesEvent : Bool := true

namespace CommandForm

def readRect : CommandForm := ⟨"enqueue_read_buffer_rect",
  ["queue", "mem", "hostbuf", "buffer_origin", "host_origin", "region"],
  ["buffer_pitches", "host_pitches", "wait_for", "is_blocking"], true⟩
def writeRect : CommandForm := { readRect with name := "enqueue_write_buffer_rect" }
def copyRect : CommandForm := ⟨"enqueue_copy_buffer_rect",
  ["queue", "src", "dst", "src_origin", "dst_origin", "region"], ["src_pitches", "dst_pitches", "wait_for"], true⟩
def readImage : CommandForm := ⟨"enqueue_read_image", ["queue", "mem", "origin", "region", "hostbuf"],
  ["row_pitch", "slice_pitch", "wait_for", "is_blocking"], true⟩
def writeImage : CommandForm := { readImage with name := "enqueue_write_image" }
def copyImage : CommandForm := ⟨"enqueue_copy_image",
  ["queue", "src", "dest", "src_origin", "dest_origin", "region"], ["wait_for"], true⟩
def copyImageToBuffer : CommandForm := ⟨"enqueue_copy_image_to_buffer",
  ["queue", "src", "dest", "origin", "region", "offset"], ["wait_for"], true⟩
def copyBufferToImage : CommandForm := ⟨"enqueue_copy_buffer_to_image",
  ["queue", "src", "dest", "offset", "origin", "region"], ["wait_for"], true⟩
def marker : CommandForm := ⟨"enqueue_marker", ["queue"], [], true⟩
def barrier : CommandForm := ⟨"enqueue_barrier", ["queue"], [], true⟩
def markerAfter : CommandForm := ⟨"enqueue_marker_with_wait_list", ["queue"], ["wait_for"], true⟩
def barrierAfter : CommandForm := ⟨"enqueue_barrier_with_wait_list", ["queue"], ["wait_for"], true⟩
def waitForEvents : CommandForm := ⟨"enqueue_wait_for_events", ["queue", "wait_for"], [], false⟩
def sharedCopy : CommandForm := ⟨"enqueue_svm_memcpy", ["queue", "is_blocking", "dst", "src"], ["wait_for"], true⟩
def sharedFill : CommandForm := ⟨"enqueue_svm_memfill", ["queue", "dst", "pattern"], ["byte_count", "wait_for"], true⟩
def sharedMap : CommandForm := ⟨"enqueue_svm_map", ["queue", "is_blocking", "flags", "svm"], ["wait_for"], true⟩
def sharedUnmap : CommandForm := ⟨"enqueue_svm_unmap", ["queue", "svm"], ["wait_for"], true⟩
def sharedMigrate : CommandForm := ⟨"enqueue_svm_migratemem", ["queue", "svms"], ["flags", "wait_for"], true⟩
def migrate : CommandForm := ⟨"enqueue_migrate_mem_objects", ["queue", "mem_objects"], ["flags", "wait_for"], true⟩
def fillImage : CommandForm := ⟨"enqueue_fill_image", ["queue", "mem", "color", "origin", "region"], ["wait_for"], true⟩

variable (f : CommandForm) (args : List (String × Datum))

def send : Host (Option EventId) := do
  let names := f.required ++ f.optional
  let given (n : String) : Nat := (args.filter (fun a => a.1 == n)).length
  if args.any (fun a => !names.contains a.1 || given a.1 != 1) || f.required.any (fun n => given n == 0) then
    bare .type
  let all := names.map fun n => (n, ((args.find? (fun a => a.1 == n)).map (·.2)).getD .null)
  if f.makesEvent then
    let e ← newEvent
    record (.command f.name all (some e))
    return some e
  else
    record (.command f.name all none)
    return none

def enqueue : Host EventId := do
  return (← f.send args).getD 0

end CommandForm

def Datum.ofEvents (events : List EventId) : Datum := .list (events.map fun (e : Nat) => .int e)

def Datum.events : Datum → List EventId
  | .list xs => xs.filterMap fun x => match x with
    | .int n => some n.toNat
    | _ => none
  | _ => []

namespace Host

variable (q : Queue) (wait : Option (List EventId))

def enqueueMarker : Host EventId := do
  let queue := ("queue", Datum.int q.id)
  if ← supports q.context (1, 2) then
    CommandForm.markerAfter.enqueue ([queue] ++ (wait.map fun w => ("wait_for", .ofEvents w)).toList)
  else
    let events := wait.getD []
    if !events.isEmpty then
      let _ ← CommandForm.waitForEvents.send [queue, ("wait_for", .ofEvents events)]
    CommandForm.marker.enqueue [queue]

def enqueueBarrier : Host EventId := do
  let queue := ("queue", Datum.int q.id)
  if ← supports q.context (1, 2) then
    CommandForm.barrierAfter.enqueue ([queue] ++ (wait.map fun w => ("wait_for", .ofEvents w)).toList)
  else
    let _ ← CommandForm.barrier.enqueue [queue]
    let events := wait.getD []
    if !events.isEmpty then
      let _ ← CommandForm.waitForEvents.send [queue, ("wait_for", .ofEvents events)]
    CommandForm.marker.enqueue [queue]

def fillBuffer (b : BufferId) (pattern : Bytes) (offset size : Int) (wait : List EventId) :
    Host EventId := do
  if !(← supports q.context (1, 2)) then
    warn .user ("The context for this queue does not declare OpenCL 1.2 support, so " ++
      "the next thing you might see is a crash")
  enqueueFill q b pattern offset size wait

end Host

inductive CopyEnd where
  | memory (b : BufferId)
  | shared (d : HostData)
  | host (d : HostData)

abbrev CopyOptions := List (String × Datum)

namespace CopyOptions

variable (o : CopyOptions) (name : String)

def get (default : Datum) : Datum :=
  ((List.find? (fun e => e.1 == name) o).map (·.2)).getD default

def has : Bool := List.any o (fun e => e.1 == name)

def without : CopyOptions := List.filter (fun e => e.1 != name) o

def int (default : Int) : Host Int :=
  match o.get name (.int default) with
  | .int n => pure n
  | .bool b => pure (if b then 1 else 0)
  | _ => bare .type

def bool : Bool :=
  match o.get name (.bool true) with
  | .bool b => b
  | .int n => n != 0
  | .null => false
  | _ => true

def only (names : List String) : Host Unit :=
  if List.any o (fun e => !names.contains e.1) then bare .type else pure ()

def withPitches : Host CopyOptions := do
  let rest := o.without "pitches"
  match o.get "pitches" (.list [.int 0, .int 0]) with
  | .list [row] => return rest ++ [("row_pitch", row)]
  | .list [row, slice] => return rest ++ [("row_pitch", row), ("slice_pitch", slice)]
  | .list _ => bare .value
  | _ => bare .type

end CopyOptions

namespace Host

def copyImageHost (form : CommandForm) (q : Queue) (image : BufferId) (d : HostData) (o : CopyOptions) :
    Host EventId := do
  if !(o.has "origin" && o.has "region") then bare .key
  let rest ← ((o.without "origin").without "region").withPitches
  form.enqueue ([("queue", .int q.id), ("mem", .buffer image), ("origin", o.get "origin" .null),
    ("region", o.get "region" .null), ("hostbuf", .data (← d.read))] ++ rest)

def isPlainImage (type : Int) : Bool := type == 4337 || type == 4338

def copy (q : Queue) (target source : CopyEnd) (o : CopyOptions) : Host EventId := do
  let queue := ("queue", Datum.int q.id)
  let wait := (o.get "wait_for" .null).events
  match target, source with
  | .memory t, .memory s =>
    let tType ← memoryType t
    let sType ← memoryType s
    if tType == 4336 then
      if sType == 4336 then
        if o.has "src_origin" then
          CommandForm.copyRect.enqueue ([queue, ("src", .buffer s), ("dst", .buffer t)] ++ o)
        else
          o.only ["byte_count", "src_offset", "dst_offset", "dest_offset", "wait_for"]
          enqueueCopy q s t (← o.int "byte_count" (-1)) (← o.int "src_offset" 0) (← o.int "dest_offset" 0) wait
      else if isPlainImage sType then
        CommandForm.copyImageToBuffer.enqueue ([queue, ("src", .buffer s), ("dest", .buffer t)] ++ o)
      else refuse .value "invalid src mem object type"
    else if isPlainImage tType then
      if sType == 4336 then
        CommandForm.copyBufferToImage.enqueue ([queue, ("src", .buffer s), ("dest", .buffer t)] ++ o)
      else if isPlainImage sType then
        CommandForm.copyImage.enqueue ([queue, ("src", .buffer s), ("dest", .buffer t)] ++ o)
      else refuse .value "invalid src mem object type"
    else refuse .value "invalid dest mem object type"
  | .memory t, .host d | .memory t, .shared d =>
    let tType ← memoryType t
    if tType == 4336 then
      if o.has "buffer_origin" then
        CommandForm.writeRect.enqueue ([queue, ("mem", .buffer t), ("hostbuf", .data (← d.read))] ++ o)
      else
        o.only ["device_offset", "wait_for", "is_blocking"]
        enqueueWrite q t d (← o.int "device_offset" 0) wait (o.bool "is_blocking")
    else if isPlainImage tType then copyImageHost CommandForm.writeImage q t d o
    else refuse .value "invalid dest mem object type"
  | .shared t, .host s | .shared t, .shared s | .host t, .shared s =>
    let blocking := o.get "is_blocking" (.bool true)
    CommandForm.sharedCopy.enqueue ([queue, ("is_blocking", blocking), ("dst", .shared (← t.size)),
      ("src", .shared (← s.size))] ++ o.without "is_blocking")
  | .shared _, .memory _ => bare .type
  | .host d, .memory s =>
    let sType ← memoryType s
    if sType == 4336 then
      if o.has "buffer_origin" then
        CommandForm.readRect.enqueue ([queue, ("mem", .buffer s), ("hostbuf", .data (← d.read))] ++ o)
      else
        o.only ["device_offset", "wait_for", "is_blocking"]
        enqueueRead q s d (← o.int "device_offset" 0) wait (o.bool "is_blocking")
    else if isPlainImage sType then copyImageHost CommandForm.readImage q s d o
    else refuse .value "invalid src mem object type"
  | .host _, .host _ => refuse .type "enqueue_copy cannot perform host-to-host transfers"

end Host

/-! ## Shared memory -/

def fieldsWithGaps (start size : Nat) : List Field → List (String × ElementType)
  | [] => if start < size then [("", .raw (size - start))] else []
  | f :: fs =>
    (if start < f.offset then [("", .raw (f.offset - start))] else []) ++
      (f.name, f.type) :: fieldsWithGaps (f.offset + f.type.size) size fs

/-- The type that an array over shared memory has: gaps of records become fields of their own, named by
their number, and a record of one field is that field. -/
def sharedType : ElementType → Result ElementType
  | .record fields size _ =>
    match fieldsWithGaps 0 size fields.toList with
    | [(_, t)] =>
      match t with
      | .record _ _ _ | .vector _ _ => .error (.bare .type)
      | t => .ok t
    | parts => .ok (ElementType.recordOf false (parts.zipIdx.map fun ((name, t), i) =>
        (if name.isEmpty then "f" ++ toString i else name, t)))
  | t => .ok t

namespace Host

def sharedOrder (order : String) : Result Strides.Order :=
  if Text.contains "fF" order then .ok .column
  else if Text.contains "cC" order then .ok .row
  else .error (.told .value ("order not recognized: " ++ order))

def sharedEmpty (flags : Int) (shape : List Int) (type : ElementType) (order : String)
    (alignment : Option Int) : Host HostArray := do
  let order ← lift (sharedOrder order)
  let bytes := Strides.count shape * type.size
  record (.sharedAlloc bytes (alignment.getD type.size) flags)
  let result ← lift (sharedType type)
  HostArray.ofBytes result shape (Strides.ofOrder type.size shape order) (List.replicate bytes.toNat 0)

def sharedLike (flags : Int) (a : HostArray) (alignment : Option Int) : Host HostArray := do
  if a.isRowMajor then sharedEmpty flags a.shape a.type "C" alignment
  else if a.isColumnMajor then sharedEmpty flags a.shape a.type "F" alignment
  else refuse .value "array is neither C- nor Fortran-contiguous"

def coarseFlags : Int := 1

def fineFlags : Int := 1025

end Host

/-! ## Images -/

def ImageFormat.text (f : ImageFormat) : String :=
  let shown (family : ConstantFamily) (value : Int) (what : String) : String :=
    (family.names? value).getD ("<unknown " ++ what ++ " 0x" ++ Text.digits 16 value.toNat ++ ">")
  "ImageFormat(" ++ shown Constants.channelOrder f.order "channel order" ++ ", " ++
    shown Constants.channelType f.type "channel data type" ++ ")"

structure ImageRequest where
  flags : Nat
  format : ImageFormat
  shape : Option (List Int)
  pitches : Option (List Int)
  host : Option HostArray
  isArray : Bool
  buffer : Option BufferId

namespace ImageRequest

def kind (axes : Nat) (isArray hasBuffer : Bool) : Result Int :=
  if hasBuffer && isArray then .error (.told .value "'buffer' and 'is_array' are mutually exclusive")
  else
    match axes with
    | 3 =>
      if hasBuffer then .error (.told .type "'buffer' argument is not supported for 3D arrays")
      else .ok (if isArray then 4339 else 4338)
    | 2 =>
      if hasBuffer then .error (.told .type "'buffer' argument is not supported for 2D arrays")
      else .ok (if isArray then 4341 else 4337)
    | 1 =>
      if hasBuffer then .ok 4342
      else if isArray then .error (.told .type "array of zero-dimensional images not supported")
      else .ok 4340
    | _ => .error (.told .value "images cannot have more than three dimensions")

def make (r : ImageRequest) (context : Context) : Host BufferId := do
  let shape ← match r.shape, r.host with
    | some s, _ => pure s
    | none, some h => pure h.shape
    | none, none => fail (.deviceText .error "'shape' must be passed if 'hostbuf' is not given")
  if r.host.isSome && r.flags &&& (8 ||| 32) == 0 then
    warn .user "'hostbuf' was passed, but no memory flags to make use of it."
  if r.host.isNone && r.pitches.isSome then
    fail (.deviceText .error "'pitches' may only be given if 'hostbuf' is given")
  let hostBytes : Host (Option Bytes) := r.host.mapM HostArray.memoryBytes
  if ← supports context (1, 2) then
    let type ← lift (kind shape.length r.isArray r.buffer.isSome)
    let host ← hostBytes
    let b ← newMemory ⟨.image type r.format shape, r.flags, ⟨0, []⟩⟩
    record (.image b type r.flags r.format shape (some (r.pitches.getD [0, 0])) host r.buffer)
    return b
  else
    if r.isArray then refuse .type "'is_array=True' is not supported for CL < 1.2"
    if r.buffer.isSome then refuse .type "'buffer' argument is not supported for CL < 1.2"
    let host ← hostBytes
    let type ← match shape.length with
      | 2 => pure 4337
      | 3 => pure 4338
      | _ => fail (.ofCode "Image" (-30) "invalid dimension")
    let b ← newMemory ⟨.image type r.format shape, r.flags, ⟨0, []⟩⟩
    record (.legacyImage b type r.flags r.format shape r.pitches host)
    return b

end ImageRequest

def channelType? (normalised : Bool) : ElementType → Option Int
  | .number .int8 => some (if normalised then 4304 else 4311)
  | .number .int16 => some (if normalised then 4305 else 4312)
  | .number .uint8 => some (if normalised then 4306 else 4314)
  | .number .uint16 => some (if normalised then 4307 else 4315)
  | .number .int32 => if normalised then none else some 4313
  | .number .uint32 => if normalised then none else some 4316
  | .number .float16 => if normalised then none else some 4317
  | .number .float32 => if normalised then none else some 4318
  | _ => none

def channelOrder? : Int → Option Int
  | 1 => some 4272
  | 2 => some 4274
  | 3 => some 4276
  | 4 => some 4277
  | _ => none

/-- Makes an image of a host array. -/
def imageFromArray (context : Context) (a : HostArray) (channels : Option Int) (mode : String)
    (normalised : Bool) : Host BufferId := do
  if !a.isRowMajor then refuse .value "array must be C-contiguous"
  let (type, count, shape, strides) ← match channels with
    | none =>
      match a.type with
      | .vector base lanes => pure (ElementType.number base, (lanes : Int), a.shape, a.strides)
      | t => pure (t, 1, a.shape, a.strides)
    | some 1 => pure (a.type, 1, a.shape, a.strides)
    | some n =>
      if (← need .index a.shape.getLast?) != n then
        fail (.deviceText .runtime "last dimension must be equal to number of channels")
      pure (a.type, n, a.shape.dropLast, a.strides.dropLast)
  let flags ← match mode with
    | "r" => pure 4
    | "w" => pure 2
    | m => refuse .value ("invalid value '" ++ m ++ "' for 'mode'")
  let order ← need .key (channelOrder? count)
  require ((← need .index a.strides.getLast?) == a.type.size)
  let channel ← need .key (channelType? normalised type)
  ImageRequest.make {
    flags := flags ||| 32, format := ⟨order, channel⟩, shape := some shape.reverse
    pitches := some (strides.reverse.drop 1), host := some a, isArray := false, buffer := none } context

end ClHost
