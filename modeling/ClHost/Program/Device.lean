import ClHost.Device.Query

/-!
# Programs of the device interface

A program comes from source, from binaries, from an intermediate language, from other programs or from the device
itself.
-/

namespace ClHost

/-! ## Kernel signatures -/

namespace Source

open Text

inductive CommentState where
  | code | line | block
deriving DecidableEq

def withoutComments : CommentState → List Char → List Char
  | _, [] => []
  | .line, c :: cs => if c == '\n' then c :: withoutComments .code cs else withoutComments .line cs
  | .block, '*' :: '/' :: cs => withoutComments .code cs
  | .block, _ :: cs => withoutComments .block cs
  | .code, '/' :: '/' :: cs => withoutComments .line cs
  | .code, '/' :: '*' :: cs => withoutComments .block cs
  | .code, c :: cs => c :: withoutComments .code cs

def withoutDefinitions : Bool → List String → List String
  | _, [] => []
  | inside, line :: rest =>
    let bare := (strip line).toList.filter (fun c => !isBlank c)
    let here := inside || startsWithChars "#define".toList bare
    if here then withoutDefinitions (line.toList.getLast? == some '\\') rest
    else line :: withoutDefinitions false rest

def tokens : List Char → List Char → List String
  | word, [] => flush word
  | word, c :: cs =>
    if isWordChar c then tokens (c :: word) cs
    else if c == '\n' || !isBlank c then flush word ++ String.singleton c :: tokens [] cs
    else flush word ++ tokens [] cs
where
  flush (word : List Char) : List String :=
    if word.isEmpty then [] else [String.ofList word.reverse]

def closing : Nat → List String → List String × List String
  | _, [] => ([], [])
  | depth, t :: ts =>
    if t == ")" then
      match depth with
      | 0 => ([], ts)
      | d + 1 => let (a, b) := closing d ts; (t :: a, b)
    else
      let (a, b) := closing (if t == "(" then depth + 1 else depth) ts
      (t :: a, b)

def tokenLines : List String → List String → List (List String)
  | line, [] => [line.reverse]
  | line, t :: ts => if t == "\n" then line.reverse :: tokenLines [] ts else tokenLines (t :: line) ts

def decideLine? : List String → Option Bool
  | ["#", "if", a, ">", b] => do return (← readInteger? a) > (← readInteger? b)
  | ["#", "if", a, "=", "=", b] => do return (← readInteger? a) == (← readInteger? b)
  | _ => none

def keptTokens : Bool → List (List String) → List String
  | _, [] => []
  | kept, line :: rest =>
    match decideLine? line, line with
    | some b, _ => keptTokens b rest
    | none, ["#", "endif"] => keptTokens true rest
    | none, _ => (if kept then line else []) ++ keptTokens kept rest

def parameterCount (list : List String) : Nat :=
  let kept := keptTokens true (tokenLines [] list)
  if kept.isEmpty then 0 else kept.count "," + 1

def kernelMarks : List String := ["__kernel", "kernel", "KERNEL"]

def signaturesOf : Nat → List String → List (String × Nat)
  | 0, _ => []
  | _, [] => []
  | fuel + 1, t :: ts =>
    if kernelMarks.contains t then
      let ts := skip ts
      let ts := match ts with
        | "REQD_WG_SIZE" :: "(" :: rest => skip (closing 0 rest).2
        | ts => ts
      match ts with
      | "void" :: more =>
        match skip more with
        | name :: more =>
          match skip more with
          | "(" :: rest =>
            let (list, after) := closing 0 rest
            (name, parameterCount list) :: signaturesOf fuel after
          | _ => signaturesOf fuel ts
        | [] => []
      | ts => signaturesOf fuel ts
    else signaturesOf fuel ts
where
  skip (ts : List String) : List String := ts.dropWhile (· == "\n")

def withoutAttributes : Nat → List String → List String
  | 0, ts => ts
  | _, [] => []
  | fuel + 1, t :: ts =>
    match t, ts with
    | "__attribute__", "(" :: rest => withoutAttributes fuel (closing 0 rest).2
    | t, ts => t :: withoutAttributes fuel ts

def signatures (source : String) : List (String × Nat) :=
  let plain := withoutComments .code source.toList
  let lines := withoutDefinitions false (lines (String.ofList plain))
  let ts := tokens [] (String.intercalate "\n" lines).toList
  let ts := withoutAttributes ts.length ts
  signaturesOf ts.length ts

end Source

/-! ## Build options -/

namespace Options

inductive QuoteState where
  | between
  | word
  | single
  | double
deriving DecidableEq

def isSeparator (c : Char) : Bool := c == ' ' || c == '\t' || c == '\r' || c == '\n'

def splitFrom : QuoteState → List Char → List Char → Result (List String)
  | .between, _, [] => .ok []
  | .word, w, [] => .ok [String.ofList w.reverse]
  | .single, _, [] | .double, _, [] => .error (.bare .value)
  | .single, w, c :: cs => if c == '\'' then splitFrom .word w cs else splitFrom .single (c :: w) cs
  | .double, w, '\\' :: c :: cs =>
    if c == '"' || c == '\\' then splitFrom .double (c :: w) cs else splitFrom .double (c :: '\\' :: w) cs
  | .double, w, c :: cs =>
    if c == '"' then splitFrom .word w cs
    else if c == '\\' then .error (.bare .value)
    else splitFrom .double (c :: w) cs
  | state, w, '\\' :: c :: cs => splitFrom .word (c :: if state == .word then w else []) cs
  | state, w, c :: cs =>
    let w := if state == .word then w else []
    if c == '\'' then splitFrom .single w cs
    else if c == '"' then splitFrom .double w cs
    else if c == '\\' then .error (.bare .value)
    else if isSeparator c then
      if state == .word then do return String.ofList w.reverse :: (← splitFrom .between [] cs)
      else splitFrom .between [] cs
    else splitFrom .word (c :: w) cs

def split (s : String) : Result (List String) := splitFrom .between [] s.toList

def unquote (s : String) : String :=
  let cs := s.toList
  if cs.head? == some '"' && cs.getLast? == some '"' then String.ofList (cs.drop 1).dropLast else s

def includeDirectories : List String → List String
  | [] => []
  | option :: rest =>
    let s := Text.strip option
    if Text.startsWith s "-I" || Text.startsWith s "/I" then
      let path := s.toList.drop 2
      if path.isEmpty then
        match rest with
        | next :: rest => unquote next :: includeDirectories rest
        | [] => []
      else unquote (Text.stripLeft (String.ofList path)) :: includeDirectories rest
    else includeDirectories rest

def includePath (options : List String) : List String := "." :: includeDirectories options

def join (options : List String) : String := String.intercalate " " options

end Options

namespace Host

def standingOptions (context : Context) : Host (List String) := do
  match context.devices with
  | [] => bare .index
  | d :: _ =>
    let w ← get
    let name := (← platformInfo d.platform).name
    let platform := ((w.platformOptions.find? (fun e => e.1 == name)).map (·.2)).getD []
    let forced := ((← environment? "PYOPENCL_BUILD_OPTIONS").map Text.words).getD []
    return ["-I", w.shippedHeaders] ++ platform ++ forced

def buildOptions (context : Context) (options : List String) : Host (List String) := do
  return options ++ (← standingOptions context)

def enableDebugging (platform : Nat) : Host Unit := do
  let name := (← platformInfo platform).name
  if Text.contains name "AMD Accelerated" then
    let flags := ["-g", "-O0"]
    modify fun w =>
      if w.platformOptions.any (fun e => e.1 == name) then
        { w with platformOptions :=
            w.platformOptions.map fun e => if e.1 == name then (e.1, e.2 ++ flags) else e }
      else { w with platformOptions := w.platformOptions ++ [(name, flags)] }
    setVariable "CPU_MAX_COMPUTE_UNITS" (some "1")
  else
    warn .user ("do not know how to enable debugging on '" ++ name ++ "'")

end Host

open String

def latinBytes (s : String) : Bytes := s.toList.map fun c => if c.toNat < 256 then c.toNat.toUInt8 else 63

def latinText (b : Bytes) : String := ofList (b.map fun x => Char.ofNat x.toNat)

def deviceIndices (ds : List DeviceRef) : List Nat := ds.map (·.index)

def binaryOf (source : String) (d : DeviceRef) : Bytes := utf8 ("BIN" ++ toString d.index) ++ [0] ++ latinBytes source

def sourceOfBinary (b : Bytes) : String := latinText ((b.dropWhile (· != 0)).drop 1)

namespace Host

variable (context : Context) (p : ProgramId) (source : String) (options : String) (devices : Option (List DeviceRef))

def deviceProgram : Host DeviceProgram := do
  return ((← get).devicePrograms)[p]?.getD default

def addDeviceProgram (d : DeviceProgram) : Host ProgramId := do
  let w ← get
  set { w with devicePrograms := w.devicePrograms.push d }
  return w.devicePrograms.size

def kernelsOf : Host (List (String × Nat)) := do
  let counts := (← get).argCounts
  return (Source.signatures source).map fun (n, k) =>
    (n, ((counts.find? (fun e => e.1 == n)).map (·.2)).getD k)

def programFromSource : Host ProgramId := do
  addDeviceProgram ⟨context, .source, source, context.devices, ← kernelsOf source, "", false⟩

def programFromBinaries (devices : List DeviceRef) (binaries : List Bytes) : Host ProgramId := do
  let source := sourceOfBinary (binaries.headD [])
  let p ← addDeviceProgram ⟨context, .binary, source, devices, ← kernelsOf source, "", false⟩
  record (.programFromBinary p (deviceIndices devices))
  return p

def programFromIntermediate (code : Bytes) : Host ProgramId := do
  let p ← addDeviceProgram ⟨context, .intermediate, "", context.devices, [], "", false⟩
  record (.programFromIntermediate p code.length)
  return p

def programOfBuiltIns (devices : List DeviceRef) (names : String) : Host ProgramId := do
  let kernels := (Text.splitAt ':' names).map fun n => (n, 0)
  let p ← addDeviceProgram ⟨context, .source, "", devices, kernels, "", false⟩
  record (.builtInKernels p names)
  return p

def shownBefore : Host (Option ProgramId) := do
  let w ← get
  match w.shownSources.find? (fun e => e.1 == source) with
  | some e => return some e.2
  | none =>
    set { w with shownSources := w.shownSources ++ [(source, p)] }
    return none

def modifyDeviceProgram (f : DeviceProgram → DeviceProgram) : Host Unit :=
  modify fun w => { w with devicePrograms := w.devicePrograms.modify p f }

def takeFailure (d : DeviceProgram) : Host (Option BuildFailure) := do
  let w ← get
  let applies (f : BuildFailure) : Bool := f.kind == d.kind && 0 < f.times && Text.contains d.source f.text
  match w.buildFailures.findIdx? applies with
  | none => return none
  | some i =>
    set { w with buildFailures := w.buildFailures.modify i fun f => { f with times := f.times - 1 } }
    return w.buildFailures[i]?

def buildDevice : Host Unit := do
  let d ← deviceProgram p
  let same ← shownBefore p d.source
  record (.build p d.kind options (deviceIndices (devices.getD d.devices)) same d.source)
  modifyDeviceProgram p fun d => { d with options }
  match ← takeFailure d with
  | some f => fail (.ofCode "clBuildProgram" f.code f.detail)
  | none => pure ()

def deviceLog (d : DeviceRef) : Host (Option String) := do
  match (← get).buildLog with
  | .unavailable => return none
  | .text s => return some s
  | .perDevice ts => return ts[d.index]?

def buildLogs : Host (List (DeviceRef × String)) := do
  (← deviceProgram p).devices.mapM fun d => do
    return (d, (← deviceLog d).getD "<error retrieving log>")

def logRule : String := ofList (List.replicate 75 '=') ++ "\n"

@[irreducible] def outputLevel? (setting : Option String) : Option Int := Text.readInteger? (setting.getD "0")

def compilerOutput (text : String) : Host Unit := do
  match outputLevel? (← environment? "PYOPENCL_COMPILER_OUTPUT") with
  | none => bare .value
  | some 0 => warn .compiler ("Non-empty compiler output encountered. Set the " ++
      "environment variable PYOPENCL_COMPILER_OUTPUT=1 to see more.")
  | some _ => warn .compiler text

def buildWithLogs : Host Unit := do
  match ← attempt (buildDevice p options devices) with
  | .ok () => pure ()
  | .error (.device _ r) =>
    let logs ← (← buildLogs p).mapM fun (d, log) => do
      return "Build on " ++ (← deviceText d) ++ ":\n\n" ++ log
    let detail := r.text ++ "\n\n" ++ intercalate logRule logs
    fail (.device .runtime ⟨r.routine, r.code, detail⟩)
  | .error e => fail e
  let said := (← buildLogs p).filter fun (_, log) => !(Text.strip log).isEmpty
  let texts ← said.mapM fun (d, log) => do
    return "Build on " ++ (← deviceText d) ++ " succeeded, but said:\n\n" ++ log
  if !texts.isEmpty then
    let kind := match (← deviceProgram p).kind with
      | .source => "From-source build"
      | .binary => "From-binary build"
      | .intermediate => "From-IL build"
    compilerOutput (kind ++ " succeeded, but resulted in non-empty logs:\n" ++ intercalate logRule texts)

def compileDevice
    (headers : List (String × ProgramId)) : Host Unit := do
  let d ← deviceProgram p
  let same ← shownBefore p d.source
  record (.compile p d.kind options (deviceIndices (devices.getD d.devices)) same d.source headers)

def linkDevice (parts : List ProgramId) (options : String)
    (devices : Option (List DeviceRef)) : Host ProgramId := do
  let sources ← parts.mapM fun p => do return (← deviceProgram p).source
  let source := intercalate "\n" sources
  let p ← addDeviceProgram ⟨context, .source, source, devices.getD context.devices, ← kernelsOf source, options, true⟩
  record (.link p parts options)
  return p

def programFact (param : Int) : Host Fact := do
  let d ← deviceProgram p
  match questionName Constants.programInfo param with
  | "SOURCE" => return .text d.source
  | "DEVICES" => return .devices d.devices
  | "NUM_DEVICES" => return .int d.devices.length
  | "CONTEXT" => return .context d.context
  | "KERNEL_NAMES" => return .text (intercalate ";" (d.kernels.map (·.1)))
  | "BINARIES" => return .data (d.devices.map (binaryOf d.source))
  | _ => fail (.ofCode "clGetProgramInfo" (-30))

def buildFact (device : DeviceRef) (param : Int) : Host Fact := do
  match questionName Constants.programBuildInfo param with
  | "STATUS" => return .int 0
  | "OPTIONS" => return .text (← deviceProgram p).options
  | "LOG" =>
    match ← deviceLog device with
    | some s => return .text s
    | none => fail (.ofCode "clGetProgramBuildInfo" (-30))
  | _ => fail (.ofCode "clGetProgramBuildInfo" (-30))

end Host

/-! ## Programs of the host and the cache of builds -/

inductive CacheChoice where
  /-- In the directory of the user, which a session does not have. -/
  | standard
  | disabled
  | directory (path : String)
deriving DecidableEq

def cacheVersion : List Nat := [2019, 1, 2]

@[irreducible] def lockAttempts : Nat := 181

namespace Host

def changeFiles (f : FileTree → Result FileTree) : Host Unit := do
  let w ← get
  let files ← lift (f w.files)
  set { w with files }

def locate (s : String) : Host Path := do
  return Path.locate (← get).workingDirectory s

def deviceCacheId (d : DeviceRef) : Host (List String) := do
  let p ← platformInfo d.platform
  let i ← deviceInfo d
  return [p.vendor, p.name, p.version, i.vendor, i.name, i.version, i.driverVersion]

def cacheKey (d : DeviceRef) (options source : Bytes) : Host String := do
  let version := "(" ++ String.intercalate ", " (cacheVersion.map toString) ++ ")"
  let id := "(" ++ String.intercalate ", " (version :: (← deviceCacheId d).map Text.quoted) ++ ")"
  return Digest.md5 (source ++ options ++ utf8 id)

def awaitLock (lock : String) : Host Unit := do
  for _ in List.range (lockAttempts - 10) do
    warn .user ("could not obtain cache lock--delete '" ++ lock ++ "' if necessary")
  refuse .runtime ("waited more than three minutes on the lock file '" ++ lock ++ "'--something is wrong")

variable {α : Type} (h : ProgramHandle) (context : Context) (source options : String) (devices : Option
  (List DeviceRef)) (directory : String)

def takeLock : Host Unit := do
  let lock := Path.join directory "lock"
  let path ← locate lock
  let tree := (← get).files
  if (tree.file? path).isSome || tree.isDirectory path || !tree.isDirectory path.dropLast then awaitLock lock
  changeFiles fun t => t.write path ⟨.bytes [], 0⟩

variable (entry : String) (body : Host α)

def withLock : Host α := do
  takeLock directory
  ensure body (do
    let path ← locate (Path.join directory "lock")
    changeFiles fun t => t.remove path)

/-- Runs an operation on an entry directory, which is made if it is new and erased again if the operation
fails then. -/
def withEntry : Host α := do
  let path ← locate entry
  match (← get).files.makeDirectory path with
  | .ok tree =>
    modify fun w => { w with files := tree }
    onFailure body (changeFiles fun t => t.eraseDirectory path)
  | .error _ => body

def resetEntry : Host Unit := do
  let path ← locate entry
  changeFiles fun t => do (← t.eraseDirectory path).makeDirectory path

def entryNote? : Host (Option BuildNote) := do
  match (← get).files.file? (← locate (Path.join entry "info")) with
  | some ⟨.note n, _⟩ => return some n
  | some ⟨.bytes [], _⟩ => return none
  | some ⟨.bytes _, _⟩ => bare .storedRecord
  | none => return none

/-- The binary and the log of an entry, if it is there and the files it depends on are as they were. -/
def retrieve (directory key : String) : Host (Option (Bytes × String)) := do
  let entry := Path.join directory key
  if !(← get).files.isDirectory (← locate entry) then return none
  withLock directory do
    match ← entryNote? entry with
    | none =>
      resetEntry entry
      warn .user ("PyOpenCL encountered an invalid info file for cache key " ++ key)
      return none
    | some note =>
      let w ← get
      let binary ← lift (w.files.read (← locate (Path.join entry "binary")))
      if ← lift (Source.areCurrent w.files w.workingDirectory note.dependencies) then
        return some (binary, note.log)
      else
        resetEntry entry
        return none

def writeEntryFile (entry name : String) (content : FileContent) : Host Unit := do
  let path ← locate (Path.join entry name)
  changeFiles fun t => t.write path ⟨content, 0⟩

structure CacheEntry where
  key : String
  binary : Bytes
  log : String
deriving DecidableEq

def fillEntry (entry source : String) (includePath : List String) (e : CacheEntry) : Host Unit := do
  writeEntryFile entry "source.cl" (.bytes (utf8 source))
  writeEntryFile entry "binary" (.bytes e.binary)
  writeEntryFile entry "info" (.bytes [])
  let w ← get
  let dependencies ← lift (Source.dependencies w.files w.workingDirectory source includePath)
  writeEntryFile entry "info" (.note ⟨dependencies, e.log⟩)

def storeEntries (directory source : String) (includePath : List String) : List CacheEntry → Host Unit
  | [] => pure ()
  | e :: rest => do
    let entry := Path.join directory e.key
    withEntry entry do
      fillEntry entry source includePath e
      storeEntries directory source includePath rest

def makeCacheDirectory : Host Unit := do
  let path ← locate directory
  changeFiles fun t => if (t.file? path).isSome then .ok t else .ok (t.makeDirectories path)

structure CachedBuild where
  device : DeviceRef
  key : String
  found : Option (Bytes × String)
deriving DecidableEq

def lookUpBuild (source options directory : String) (d : DeviceRef) : Host CachedBuild := do
  let key ← cacheKey d (utf8 options) (utf8 source)
  return ⟨d, key, ← retrieve directory key⟩

def lookUpBuilds : Host (List CachedBuild) := do
  makeCacheDirectory directory
  (devices.getD context.devices).mapM (lookUpBuild source options directory)

def CachedBuild.said? (b : CachedBuild) : Option (DeviceRef × String) :=
  match b.found with
  | some (_, log) => if (Text.strip log).isEmpty then none else some (b.device, log)
  | none => none

def reportFound (builds : List CachedBuild) : Host Unit := do
  let said := builds.filterMap (·.said?)
  if !said.isEmpty then
    let texts ← said.mapM fun (d, log) => do
      return "Build on " ++ (← deviceText d) ++ " succeeded, but said:\n\n" ++ log
    compilerOutput ("Built kernel retrieved from cache. Original from-source build had warnings:\n" ++
      String.intercalate logRule texts)

def markSource (source : String) : Host String := do
  return source ++ "\n\n__constant int pyopencl_defeat_cache_" ++ (← newTag) ++ " = 0;"

def freshEntry (source : String) (logs : List (DeviceRef × String)) (b : CachedBuild) : Result CacheEntry :=
  match logs.find? (fun e => e.1 == b.device) with
  | some e => .ok ⟨b.key, binaryOf source b.device, e.2⟩
  | none => .error (.bare .value)

def compileBuilds (missing : List CachedBuild) :
    Host (ProgramId × List CacheEntry) := do
  let built ← programFromSource context source
  buildWithLogs built options (some (missing.map (·.device)))
  return (built, ← lift (missing.mapM (freshEntry source (← buildLogs built))))

structure CachedProgram where
  program : ProgramId
  isBuilt : Bool
  wasCached : Bool
deriving DecidableEq

/-- The program of builds that were looked up. -/
def programOfBuilds (source options directory : String) (includePath : List String)
    (builds : List CachedBuild) : Host CachedProgram := do
  reportFound builds
  let missing := builds.filter (·.found.isNone)
  if missing.isEmpty then
    let p ← programFromBinaries context (builds.map (·.device)) (builds.filterMap fun b => b.found.map (·.1))
    return ⟨p, false, true⟩
  let marked ← markSource source
  let (built, entries) ← compileBuilds context marked options missing
  let whole := missing.length == builds.length
  let program ← if whole then pure built else
    programFromBinaries context (builds.map (·.device)) (builds.map fun b =>
      (b.found.map (·.1)).getD (binaryOf marked b.device))
  withLock directory (storeEntries directory marked includePath entries)
  return ⟨program, whole, false⟩

def cachedProgram (includePath : List String) : Host CachedProgram := do
  programOfBuilds context source options directory includePath (← lookUpBuilds context source options devices directory)

def isBuildFailure : Fault → Bool
  | .device _ r => r.code == -11
  | _ => false

/-- A built program, from the cache where it can be had. -/
def builtProgram
    (choice : CacheChoice) (includePath : List String) : Host ProgramId := do
  let retry (wasCached : Bool) (e : Fault) : Host (ProgramId × Bool) := do
    if isBuildFailure e && !wasCached then fail e
    if !isBuildFailure e then
      warn .user ("PyOpenCL compiler caching failed with an exception:\n[begin exception]\n" ++ e.text ++
        "[end exception]")
    return (← programFromSource context source, false)
  let (program, isBuilt) ← match choice with
    | .disabled => do pure (← programFromSource context source, false)
    | .directory d => do
      match ← attempt (cachedProgram context source options devices d includePath) with
      | .error e => retry false e
      | .ok c =>
        if c.wasCached then
          match ← attempt (buildWithLogs c.program options devices) with
          | .ok () => pure (c.program, true)
          | .error e => retry true e
        else pure (c.program, c.isBuilt)
    | .standard => retry false (.bare .missingModule)
  if !isBuilt then buildWithLogs program options devices
  return program

/-! ## Programs of the host -/

def program : Host Program := do
  return ((← get).programs)[h]?.getD default

def addProgram (p : Program) : Host ProgramHandle := do
  let w ← get
  set { w with programs := w.programs.push p }
  return w.programs.size

def modifyProgram (f : Program → Program) : Host Unit :=
  modify fun w => { w with programs := w.programs.modify h f }

def newProgram (source : String) : Host ProgramHandle :=
  addProgram { context := some context, source := some source, device := none }

def wrapProgram (p : ProgramId) : Host ProgramHandle := do
  addProgram { context := some (← deviceProgram p).context, source := none, device := some p }

def deviceOf : Host ProgramId := do
  let p ← program h
  match p.device, p.context, p.source with
  | some d, _, _ => return d
  | none, some c, some s =>
    warn .user "Pre-build attribute access defeats compiler caching."
    let d ← programFromSource c s
    modifyProgram h fun p => { p with device := some d }
    return d
  | _, _, _ => bare .attribute

def unknownPart (name : String) : Fault :=
  .told .attribute ("'" ++ name ++ "' was not found as a program info attribute or as a kernel name")

def explainBuildFailure (options : String) (source : Option String) (body : Host α) : Host α := do
  match ← attempt body with
  | .error (.device .runtime r) =>
    let detail := r.text ++ if options.isEmpty then "" else "\n(options: " ++ options ++ ")"
    let place ← match source with
      | none => pure ""
      | some s => do
        let name := "tmp" ++ (← newTag) ++ ".cl"
        changeFiles fun t => t.write [name] ⟨.bytes (utf8 s), 0⟩
        pure ("\n(source saved as " ++ Path.join (← get).workingDirectory name ++ ")")
    fail (.device .runtime { r with detail := detail ++ place })
  | r => lift r

def build (options : List String) (devices : Option (List DeviceRef))
    (choice : CacheChoice) : Host Unit := do
  let p ← program h
  match p.context with
  | none =>
    let _ ← deviceOf h
    fail (unknownPart "_context")
  | some context =>
    let all ← buildOptions context options
    let text := Options.join all
    let uncached := match ← environment? "PYOPENCL_NO_CACHE" with
      | some v => !v.isEmpty
      | none => false
    match p.device, p.source with
    | none, some source =>
      if uncached then
        let d ← programFromSource context source
        modifyProgram h fun p => { p with device := some d }
        explainBuildFailure text none (buildWithLogs d text devices)
      else
        let d ← explainBuildFailure text (some source)
          (builtProgram context source text devices choice (Options.includePath all))
        modifyProgram h fun p => { p with device := some d, context := none }
    | some d, _ => explainBuildFailure text none (buildWithLogs d text devices)
    | none, none => bare .attribute

def compile (options : List String) (devices : Option (List DeviceRef))
    (headers : List (String × ProgramHandle)) : Host Unit := do
  match (← program h).context with
  | none =>
    let _ ← deviceOf h
    fail (unknownPart "_context")
  | some context =>
    let text := Options.join (← buildOptions context options)
    let d ← deviceOf h
    let headers ← headers.mapM fun (n, p) => do return (n, ← deviceOf p)
    compileDevice d text devices headers

def link (parts : List ProgramHandle) (options : List String)
    (devices : Option (List DeviceRef)) : Host ProgramHandle := do
  let parts ← parts.mapM deviceOf
  wrapProgram (← linkDevice context parts (Options.join options) devices)

end Host

end ClHost
