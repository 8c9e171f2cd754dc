import ClHost.Text.Basic

/-!
# Failures

Every operation that can fail does so with a `Fault`: either an error of the device interface, which has
a class, a routine, a code and a text, or a failure of a category, with a message where the library words
one.
-/

namespace ClHost

/-! ## Named constants -/

structure ConstantFamily where
  name : String
  isBitField : Bool
  entries : List (String × Int)

namespace Constants

variable (first : Int) (names : List String)

def numbered : List (String × Int) := names.zipIdx.map fun (n, i) => (n, first + i)

def downFrom : List (String × Int) := names.zipIdx.map fun (n, i) => (n, first - i)

def bits : List (String × Int) := names.zipIdx.map fun (n, i) => (n, Nat.pow 2 i)

def statusCode : ConstantFamily := ⟨"status_code", false,
  downFrom 0 ["SUCCESS", "DEVICE_NOT_FOUND", "DEVICE_NOT_AVAILABLE", "COMPILER_NOT_AVAILABLE",
    "MEM_OBJECT_ALLOCATION_FAILURE", "OUT_OF_RESOURCES", "OUT_OF_HOST_MEMORY", "PROFILING_INFO_NOT_AVAILABLE",
    "MEM_COPY_OVERLAP", "IMAGE_FORMAT_MISMATCH", "IMAGE_FORMAT_NOT_SUPPORTED", "BUILD_PROGRAM_FAILURE", "MAP_FAILURE",
    "MISALIGNED_SUB_BUFFER_OFFSET", "EXEC_STATUS_ERROR_FOR_EVENTS_IN_WAIT_LIST", "COMPILE_PROGRAM_FAILURE",
    "LINKER_NOT_AVAILABLE", "LINK_PROGRAM_FAILURE", "DEVICE_PARTITION_FAILED", "KERNEL_ARG_INFO_NOT_AVAILABLE"] ++
    downFrom (-30) ["INVALID_VALUE", "INVALID_DEVICE_TYPE", "INVALID_PLATFORM", "INVALID_DEVICE", "INVALID_CONTEXT",
    "INVALID_QUEUE_PROPERTIES", "INVALID_COMMAND_QUEUE", "INVALID_HOST_PTR", "INVALID_MEM_OBJECT",
    "INVALID_IMAGE_FORMAT_DESCRIPTOR", "INVALID_IMAGE_SIZE", "INVALID_SAMPLER", "INVALID_BINARY",
    "INVALID_BUILD_OPTIONS", "INVALID_PROGRAM", "INVALID_PROGRAM_EXECUTABLE", "INVALID_KERNEL_NAME",
    "INVALID_KERNEL_DEFINITION", "INVALID_KERNEL", "INVALID_ARG_INDEX", "INVALID_ARG_VALUE", "INVALID_ARG_SIZE",
    "INVALID_KERNEL_ARGS", "INVALID_WORK_DIMENSION", "INVALID_WORK_GROUP_SIZE", "INVALID_WORK_ITEM_SIZE",
    "INVALID_GLOBAL_OFFSET", "INVALID_EVENT_WAIT_LIST", "INVALID_EVENT", "INVALID_OPERATION", "INVALID_GL_OBJECT",
    "INVALID_BUFFER_SIZE", "INVALID_MIP_LEVEL", "INVALID_GLOBAL_WORK_SIZE"]⟩

def platformInfo : ConstantFamily := ⟨"platform_info", false,
  numbered 2304 ["PROFILE", "VERSION", "NAME", "VENDOR", "EXTENSIONS"]⟩

def deviceInfo : ConstantFamily := ⟨"device_info", false,
  numbered 4096 ["TYPE", "VENDOR_ID", "MAX_COMPUTE_UNITS"] ++ [("MAX_WORK_GROUP_SIZE", 4100), ("LOCAL_MEM_TYPE",
    4130), ("LOCAL_MEM_SIZE", 4131)] ++ numbered 4139 ["NAME", "VENDOR", "DRIVER_VERSION"] ++ numbered 4143
    ["VERSION", "EXTENSIONS", "PLATFORM"] ++ [("SVM_CAPABILITIES", 4179), ("COMPUTE_CAPABILITY_MAJOR_NV", 16384),
    ("COMPUTE_CAPABILITY_MINOR_NV", 16385), ("WARP_SIZE_NV", 16387)]⟩

def contextInfo : ConstantFamily := ⟨"context_info", false,
  numbered 4224 ["REFERENCE_COUNT", "DEVICES", "PROPERTIES", "NUM_DEVICES"]⟩

def commandQueueInfo : ConstantFamily := ⟨"command_queue_info", false,
  numbered 4240 ["CONTEXT", "DEVICE", "REFERENCE_COUNT", "PROPERTIES"]⟩

def channelOrder : ConstantFamily := ⟨"channel_order", false,
  numbered 4272 ["R", "A", "RG", "RA", "RGB", "RGBA", "BGRA"] ++ [("INTENSITY", 4280), ("LUMINANCE", 4281)]⟩

def channelType : ConstantFamily := ⟨"channel_type", false,
  numbered 4304 ["SNORM_INT8", "SNORM_INT16", "UNORM_INT8", "UNORM_INT16", "UNORM_SHORT_565", "UNORM_SHORT_555",
    "UNORM_INT_101010", "SIGNED_INT8", "SIGNED_INT16", "SIGNED_INT32", "UNSIGNED_INT8", "UNSIGNED_INT16",
    "UNSIGNED_INT32", "HALF_FLOAT", "FLOAT"]⟩

def memInfo : ConstantFamily := ⟨"mem_info", false, numbered 4352 ["TYPE", "FLAGS", "SIZE"]⟩

def imageInfo : ConstantFamily := ⟨"image_info", false,
  [("FORMAT", 4368)] ++ numbered 4372 ["WIDTH", "HEIGHT", "DEPTH"]⟩

def programInfo : ConstantFamily := ⟨"program_info", false,
  numbered 4449 ["CONTEXT", "NUM_DEVICES", "DEVICES", "SOURCE"] ++ [("BINARIES", 4454), ("KERNEL_NAMES", 4456)]⟩

def programBuildInfo : ConstantFamily := ⟨"program_build_info", false, numbered 4481 ["STATUS", "OPTIONS", "LOG"]⟩

def kernelInfo : ConstantFamily := ⟨"kernel_info", false,
  [("FUNCTION_NAME", 4496), ("NUM_ARGS", 4497), ("CONTEXT", 4499), ("PROGRAM", 4500)]⟩

def kernelWorkGroupInfo : ConstantFamily := ⟨"kernel_work_group_info", false,
  numbered 4528 ["WORK_GROUP_SIZE", "COMPILE_WORK_GROUP_SIZE", "LOCAL_MEM_SIZE",
    "PREFERRED_WORK_GROUP_SIZE_MULTIPLE", "PRIVATE_MEM_SIZE"]⟩

def eventInfo : ConstantFamily := ⟨"event_info", false,
  numbered 4560 ["COMMAND_QUEUE", "COMMAND_TYPE", "REFERENCE_COUNT", "COMMAND_EXECUTION_STATUS", "CONTEXT"]⟩

def profilingInfo : ConstantFamily := ⟨"profiling_info", false,
  numbered 4736 ["QUEUED", "SUBMIT", "START", "END", "COMPLETE"]⟩

def families : List ConstantFamily := [⟨"program_kind", false, numbered 0 ["UNKNOWN", "SOURCE", "BINARY", "IL"]⟩,
  statusCode, platformInfo,
  ⟨"device_type", true, bits ["DEFAULT", "CPU", "GPU", "ACCELERATOR", "CUSTOM"] ++ [("ALL", 4294967295)]⟩,
  deviceInfo,
  ⟨"device_fp_config", true, bits ["DENORM", "INF_NAN", "ROUND_TO_NEAREST", "ROUND_TO_ZERO", "ROUND_TO_INF", "FMA",
    "SOFT_FLOAT", "CORRECTLY_ROUNDED_DIVIDE_SQRT"]⟩,
  ⟨"device_mem_cache_type", false, numbered 0 ["NONE", "READ_ONLY_CACHE", "READ_WRITE_CACHE"]⟩,
  ⟨"device_local_mem_type", false, [("LOCAL", 1), ("GLOBAL", 2)]⟩,
  ⟨"device_exec_capabilities", true, [("KERNEL", 1), ("NATIVE_KERNEL", 2)]⟩,
  ⟨"device_svm_capabilities", true, bits ["COARSE_GRAIN_BUFFER", "FINE_GRAIN_BUFFER", "FINE_GRAIN_SYSTEM", "ATOMICS"]⟩,
  ⟨"command_queue_properties", true, bits ["OUT_OF_ORDER_EXEC_MODE_ENABLE", "PROFILING_ENABLE", "ON_DEVICE",
    "ON_DEVICE_DEFAULT"]⟩,
  contextInfo,
  ⟨"gl_context_info", false, [("CURRENT_DEVICE_FOR_GL_CONTEXT_KHR", 8198), ("DEVICES_FOR_GL_CONTEXT_KHR", 8199)]⟩,
  ⟨"context_properties", false, [("PLATFORM", 4228)] ++ numbered 8200 ["GL_CONTEXT_KHR", "EGL_DISPLAY_KHR",
    "GLX_DISPLAY_KHR", "WGL_HDC_KHR", "CGL_SHAREGROUP_KHR"]⟩,
  commandQueueInfo,
  ⟨"queue_properties", true, [("PROPERTIES", 4243), ("SIZE", 4244)]⟩,
  ⟨"mem_flags", true, bits ["READ_WRITE", "WRITE_ONLY", "READ_ONLY", "USE_HOST_PTR", "ALLOC_HOST_PTR",
    "COPY_HOST_PTR"] ++ [("HOST_WRITE_ONLY", 128), ("HOST_READ_ONLY", 256), ("HOST_NO_ACCESS", 512),
    ("KERNEL_READ_AND_WRITE", 4096)]⟩,
  ⟨"svm_mem_flags", true, bits ["READ_WRITE", "WRITE_ONLY", "READ_ONLY"] ++ [("SVM_FINE_GRAIN_BUFFER", 1024),
    ("SVM_ATOMICS", 2048)]⟩,
  channelOrder, channelType,
  ⟨"mem_object_type", false, numbered 4336 ["BUFFER", "IMAGE2D", "IMAGE3D", "IMAGE2D_ARRAY", "IMAGE1D",
    "IMAGE1D_ARRAY", "IMAGE1D_BUFFER", "PIPE"]⟩,
  memInfo, imageInfo,
  ⟨"addressing_mode", false, numbered 4400 ["NONE", "CLAMP_TO_EDGE", "CLAMP", "REPEAT", "MIRRORED_REPEAT"]⟩,
  ⟨"filter_mode", false, [("NEAREST", 4416), ("LINEAR", 4417)]⟩,
  ⟨"sampler_info", false, numbered 4432 ["REFERENCE_COUNT", "CONTEXT", "NORMALIZED_COORDS", "ADDRESSING_MODE",
    "FILTER_MODE"]⟩,
  ⟨"map_flags", true, bits ["READ", "WRITE", "WRITE_INVALIDATE_REGION"]⟩,
  programInfo, programBuildInfo,
  ⟨"program_binary_type", false, numbered 0 ["NONE", "COMPILED_OBJECT", "LIBRARY"] ++ [("EXECUTABLE", 4)]⟩,
  kernelInfo,
  ⟨"kernel_arg_info", false, numbered 4502 ["ADDRESS_QUALIFIER", "ACCESS_QUALIFIER", "TYPE_NAME", "TYPE_QUALIFIER",
    "NAME"]⟩,
  ⟨"kernel_arg_address_qualifier", false, numbered 4507 ["GLOBAL", "LOCAL", "CONSTANT", "PRIVATE"]⟩,
  ⟨"kernel_arg_access_qualifier", false, numbered 4512 ["READ_ONLY", "WRITE_ONLY", "READ_WRITE", "NONE"]⟩,
  ⟨"kernel_arg_type_qualifier", true, [("NONE", 0)] ++ bits ["CONST", "RESTRICT", "VOLATILE", "PIPE"]⟩,
  kernelWorkGroupInfo, eventInfo,
  ⟨"command_type", false, [("NDRANGE_KERNEL", 4592), ("TASK", 4593)] ++ numbered 4595 ["READ_BUFFER",
    "WRITE_BUFFER", "COPY_BUFFER"] ++ [("MARKER", 4606), ("BARRIER", 4613), ("FILL_BUFFER", 4615)]⟩,
  ⟨"command_execution_status", false, numbered 0 ["COMPLETE", "RUNNING", "SUBMITTED", "QUEUED"]⟩,
  profilingInfo,
  ⟨"mem_migration_flags", true, [("HOST", 1), ("CONTENT_UNDEFINED", 2)]⟩,
  ⟨"device_partition_property", false, [("EQUALLY", 4230), ("BY_COUNTS", 4231), ("BY_COUNTS_LIST_END", 0),
    ("BY_AFFINITY_DOMAIN", 4232)]⟩,
  ⟨"device_affinity_domain", true, bits ["NUMA", "L4_CACHE", "L3_CACHE", "L2_CACHE", "L1_CACHE", "NEXT_PARTITIONABLE"]⟩]

end Constants

namespace ConstantFamily

variable (f : ConstantFamily)

def value? (name : String) : Option Int := (f.entries.find? (fun e => e.1 == name)).map (·.2)

def bitFieldMark : String × Int := ("_is_bitfield", 1)

def sorted : List (String × Int) :=
  f.entries.mergeSort (fun a b => decide (a.1 ≤ b.1)) ++ if f.isBitField then [bitFieldMark] else []

def sharesBit (a b : Int) : Bool :=
  match a, b with
  | .ofNat a, .ofNat b => a &&& b != 0
  | .ofNat a, .negSucc b => a &&& b != a
  | .negSucc a, .ofNat b => a &&& b != b
  | .negSucc _, .negSucc _ => true

/-- The names of a value: all that share a bit or are equal for a bit field, the first equal one
otherwise; `none` if there is none. -/
def names? (value : Int) : Option String :=
  if f.isBitField then
    match f.sorted.filter (fun e => e.2 == value || sharesBit e.2 value) with
    | [] => none
    | es => some (String.intercalate " | " (es.map (·.1)))
  else (f.sorted.find? (fun e => e.2 == value)).map (·.1)

end ConstantFamily

namespace Constants

def family? (name : String) : Option ConstantFamily := families.find? (fun f => f.name == name)

end Constants

/-! ## Failures -/

inductive Category where
  | type
  | value
  | key
  /-- A position outside of a sequence. -/
  | index
  /-- A part that an object does not have. -/
  | attribute
  | unknownName
  | unsetLocal
  /-- A condition of the library that does not hold. -/
  | assertion
  /-- A number too large for its type. -/
  | overflow
  | zeroDivision
  | arithmeticType
  /-- A state in which an operation is not possible. -/
  | runtime
  /-- A case that is not supported. -/
  | notImplemented
  | endOfInput
  | templateSyntax
  | expressionSyntax
  | packing
  | hostMemory
  | arrayOffset
  | missingFile
  | isDirectory
  | notDirectory
  | existingFile
  | fileSystem
  /-- Bytes that are not text. -/
  | decoding
  /-- Text that cannot be written as bytes. -/
  | encoding
  | storedRecord
  | recursion
  /-- An operation that needs a part that is not installed. -/
  | missingModule
  /-- The end of the program. -/
  | exit
deriving DecidableEq, Inhabited

inductive DeviceClass where
  | error | logic | runtime | memory
deriving DecidableEq, Inhabited

def DeviceClass.ofCode (code : Int) : DeviceClass :=
  if code == -4 then .memory
  else if code ≤ -30 then .logic
  else if code < 0 then .runtime
  else .error

structure ErrorRecord where
  routine : String
  code : Int
  detail : String := ""
deriving DecidableEq, Inhabited

def ErrorRecord.text (e : ErrorRecord) : String :=
  let status :=
    if e.code == 0 then ""
    else (Constants.statusCode.names? e.code).getD ("<unknown error " ++ toString e.code ++ ">")
  let result := if e.routine.isEmpty then status else e.routine ++ " failed: " ++ status
  if e.detail.isEmpty then result
  else if result.isEmpty then e.detail
  else result ++ " - " ++ e.detail

inductive Fault where
  | device (cls : DeviceClass) (record : ErrorRecord)
  | deviceText (cls : DeviceClass) (text : String)
  | failure (category : Category) (message : Option String)
deriving DecidableEq, Inhabited

abbrev Result := Except Fault

namespace Fault

def ofCode (routine : String) (code : Int) (detail : String := "") : Fault :=
  device (DeviceClass.ofCode code) ⟨routine, code, detail⟩

def bare (c : Category) : Fault := failure c none

def told (c : Category) (message : String) : Fault := failure c (some message)

def text : Fault → String
  | device _ r => r.text
  | deviceText _ t => t
  | failure _ m => m.getD ""

end Fault

/-- Names of a value of a family, or a text made by `default`; without one, a value that has no name is
refused. -/
def ConstantFamily.toText (f : ConstantFamily) (value : Int) (default : Option (Int → Result String)) : Result String :=
  match f.names? value, default with
  | some s, _ => .ok s
  | none, some d => d value
  | none, none => .error (.told .value ("a name for value " ++ toString value ++ " was not found in " ++ f.name))

end ClHost
