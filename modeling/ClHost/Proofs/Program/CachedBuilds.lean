import ClHost.Proofs.Program.Building
import ClHost.Proofs.Program.CacheEntries

/-!
# Builds that come out of the cache

A build looks up what the cache has for its devices, compiles for the others, and stores what it compiled.
-/

namespace ClHost

open List FileTree World

/-! ## What a build depends on -/

variable (w : World) (d : DeviceRef)

def World.cacheKey (options source : String) : String :=
  let p := w.platforms[d.platform]?.getD {}
  let i := p.devices[d.index]?.getD {}
  let version := "(" ++ String.intercalate ", " (cacheVersion.map toString) ++ ")"
  let id := [p.vendor, p.name, p.version, i.vendor, i.name, i.version, i.driverVersion]
  Digest.md5 (utf8 source ++ utf8 options ++
    utf8 ("(" ++ String.intercalate ", " (version :: id.map Text.quoted) ++ ")"))

def World.markedSource (source : String) : String :=
  source ++ "\n\n__constant int pyopencl_defeat_cache_" ++ Text.padLeft 32 '0' (Text.digits 16 w.tags) ++ " = 0;"

def World.logOf : String :=
  (match w.buildLog with
    | .unavailable => none
    | .text s => some s
    | .perDevice ts => ts[d.index]?).getD "<error retrieving log>"

def World.Readable : Prop :=
  (Host.outputLevel? ((w.environment.find? (fun e => e.1 == "PYOPENCL_COMPILER_OUTPUT")).map (·.2))).isSome

namespace World

variable {w w' : World}

lemma SameMachine.readable (h : w.SameMachine w') : w'.Readable ↔ w.Readable := by
  rw [Readable, Readable, h.environment]

lemma SameMachine.cacheKey (h : w.SameMachine w') (d : DeviceRef) (options source : String) :
    w'.cacheKey d options source = w.cacheKey d options source := by
  rw [World.cacheKey, World.cacheKey, h.platforms]

lemma isKey_cacheKey (w : World) (d : DeviceRef) (options source : String) : IsKey (w.cacheKey d options source) :=
  isKey_md5 _

end World

namespace Host

variable {w : World} {α : Type}

variable {source : String} {Q : String → World → Prop} {E : Fault → World → Prop} {b : CachedBuild} {keys : List String}
  {entries : List CacheEntry}

@[simp] lemma leads_cacheKey {d : DeviceRef} {options : String} :
    Leads (cacheKey d (utf8 options) (utf8 source)) Q E w ↔ Q (w.cacheKey d options source) w := Iff.rfl

@[simp] lemma leads_markSource :
    Leads (markSource source) Q E w ↔ Q (w.markedSource source) { w with tags := w.tags + 1 } := Iff.rfl

/-! ## Reports -/

lemma leads_compilerOutput (text : String) :
    Leads (compilerOutput text) (fun _ w' => w.Warned w' ∧ w.Readable) (fun _ _ => ¬ w.Readable) w := by
  unfold compilerOutput Readable
  simp only [environment?, leads_bind, leads_get, leads_pure]
  split
  · rename_i hnone
    simp [hnone]
  · rename_i hzero
    exact ⟨⟨_, rfl⟩, by rw [hzero]; rfl⟩
  · rename_i n _ hn
    exact ⟨⟨_, rfl⟩, by rw [hn]; rfl⟩

lemma leads_reports (logs : List (DeviceRef × String)) (f : String → String → String) :
    Leads (logs.mapM fun (d, log) => do return f (← deviceText d) log)
      (fun texts w' => w' = w ∧ texts.length = logs.length) Never w := by
  refine (leads_mapM (I := (· = w)) (P := fun _ _ => True) ?_ rfl).imp fun _ _ h => ⟨h.2, h.1.length_eq.symm⟩
  rintro l - _ rfl
  exact ⟨trivial, rfl⟩

def Says (log : String) : Prop := (Text.strip log).isEmpty = false

variable (p : ProgramId) (builds : List CachedBuild)

def Talks : Prop := ∃ b ∈ builds, ∃ found, b.found = some found ∧ Says found.2

lemma said?_eq_none : b.said? = none ↔ ∀ found, b.found = some found → ¬ Says found.2 := by
  obtain ⟨device, key, found⟩ := b
  cases found with
  | none => simp [CachedBuild.said?]
  | some => simp [CachedBuild.said?, Says]

lemma leads_reportFound : Leads (reportFound builds) (fun _ w' => w.Warned w' ∧ (Talks builds → w.Readable))
      (fun _ _ => Talks builds ∧ ¬ w.Readable) w := by
  unfold reportFound
  extract_lets said
  have hsaid : said ≠ [] ↔ Talks builds := by
    rw [Ne, filterMap_eq_nil_iff, Talks]
    simp only [said?_eq_none]
    grind
  clear_value said
  split
  · rename_i hne
    refine (leads_reports said fun text log => "Build on " ++ text ++ " succeeded, but said:\n\n" ++ log).bind ?_
    intro texts w' h
    obtain rfl := h.1
    refine (leads_compilerOutput _).mono ?_ ?_
    · exact fun _ w' h => ⟨h.1, fun _ => h.2⟩
    · exact fun _ w' h => ⟨hsaid.1 (by simpa using hne), h⟩
  · rename_i hnil
    refine ⟨refl w, fun htalks => (hsaid.2 htalks (by simpa using hnil)).elim⟩

/-! ## Compiling -/

structure Calm (w w' : World) : Prop extends w.Undisturbed w' where
  buildLog : w'.buildLog = w.buildLog
  devices : ∀ p : ProgramId, (w'.devicePrograms[p]?.getD default).devices = (w.devicePrograms[p]?.getD default).devices

instance : Std.Refl Calm := ⟨fun w => ⟨refl w, rfl, fun _ => rfl⟩⟩

instance : IsTrans World Calm :=
  ⟨fun _ _ _ h h' => ⟨IsTrans.trans _ _ _ h.toUndisturbed h'.toUndisturbed, h'.buildLog.trans h.buildLog,
    fun p => (h'.devices p).trans (h.devices p)⟩⟩

lemma Calm.logOf {w' : World} (h : Calm w w') (d : DeviceRef) : w'.logOf d = w.logOf d := by
  rw [World.logOf, World.logOf, h.buildLog]

variable (options : String) (devices : Option (List DeviceRef))

lemma calm_buildDevice : Stays Calm (buildDevice p options devices) := by
  refine stays_get.map.bind fun d => ?_
  refine Stays.bind ?_ fun same => ?_
  · refine stays_get_bind fun w => ?_
    split
    · exact refl w
    · exact ⟨⟨⟨rfl, rfl, rfl⟩, rfl⟩, rfl, fun _ => rfl⟩
  refine Stays.bind (stays_modify fun _ => ⟨⟨⟨rfl, rfl, rfl⟩, rfl⟩, rfl, fun _ => rfl⟩) fun _ => ?_
  refine Stays.bind (stays_modify fun w => ⟨⟨⟨rfl, rfl, rfl⟩, rfl⟩, rfl, fun q => ?_⟩) fun _ => ?_
  · rw [Array.getElem?_modify]
    split
    · cases w.devicePrograms[q]? <;> rfl
    · rfl
  refine Stays.bind ?_ fun f => ?_
  · refine stays_get_bind fun w => ?_
    dsimp only
    split
    · exact refl w
    · exact ⟨⟨⟨rfl, rfl, rfl⟩, rfl⟩, rfl, fun _ => rfl⟩
  · split
    · exact stays_fail _
    · exact stays_pure _

lemma leads_buildLogs : Leads (buildLogs p) (fun logs w' => w' = w ∧
    logs = (w.devicePrograms[p]?.getD default).devices.map fun d => (d, w.logOf d)) Never w := by
  rw [buildLogs, leads_bind, deviceProgram, leads_bind, leads_get, leads_pure]
  refine (leads_mapM (I := (· = w)) (P := fun d l => id l = (d, w.logOf d)) ?_ rfl).imp fun logs _ h => ⟨h.2, ?_⟩
  · rintro d - w rfl
    simp only [deviceLog, leads_bind, leads_get, logOf]
    cases w.buildLog <;> exact ⟨rfl, rfl⟩
  · rw [← map_eq_of_forall₂ h.1, map_id]

lemma leads_buildWithLogs : Leads (buildWithLogs p options devices) (fun _ w' => Calm w w' ∧
      ((∃ d ∈ (w.devicePrograms[p]?.getD default).devices, Says (w.logOf d)) → w.Readable)) Any w := by
  unfold buildWithLogs
  rw [leads_bind, leads_attempt]
  refine ((calm_buildDevice p options devices).leads w).mono ?_ ?_
  · intro _ w' hcalm
    simp only [leads_bind]
    refine (leads_buildLogs p).mono ?_
    rintro logs _ ⟨rfl, rfl⟩
    refine (leads_reports _ fun text log => "Build on " ++ text ++ " succeeded, but said:\n\n" ++ log).bind ?_
    rintro texts _ ⟨rfl, hlen⟩
    split
    · refine (leads_compilerOutput _).mono ?_
      rintro _ _ ⟨⟨warnings, rfl⟩, hread⟩
      exact ⟨IsTrans.trans _ _ _ hcalm ⟨⟨⟨rfl, rfl, rfl⟩, rfl⟩, rfl, fun _ => rfl⟩, fun _ => hcalm.readable.1 hread⟩
    · rename_i hnone
      refine ⟨hcalm, ?_⟩
      rintro ⟨d, hd, hspoken⟩
      rw [← hcalm.devices] at hd
      rw [← hcalm.logOf, Says] at hspoken
      have hnil : texts = [] := by simpa using hnone
      rw [hnil, length_nil, eq_comm, length_eq_zero_iff, filter_eq_nil_iff] at hlen
      exact (hlen _ (mem_map.2 ⟨d, hd, rfl⟩) (by simp [hspoken])).elim
  · intro e w' _
    cases e with
    | device =>
      refine leads_any_bind fun _ _ => leads_any_bind fun _ _ => ?_
      exact leads_bind.2 trivial
    | _ => exact leads_bind.2 trivial

/-! ## Looking up -/

def missedKeys : List String := (builds.filter (·.found.isNone)).map (·.key)

lemma missedKeys_cons (b : CachedBuild) (builds : List CachedBuild) :
    missedKeys (b :: builds) = if b.found.isNone then b.key :: missedKeys builds else missedKeys builds := by
  rw [missedKeys, filter_cons]
  split <;> rfl

variable {directory : String} {base : Path} (hdir : Path.Within w.workingDirectory directory)
  (hbase : Path.locate w.workingDirectory directory = base)

def DirectoryMade (t : FileTree) (base : Path) : Prop :=
  (t.file? base).isSome = true ∨ ∀ d ∈ FileTree.inits base, t.isDirectory d = true

lemma DirectoryMade.congr {t t' : FileTree} (h : DirectoryMade t base)
    (hsame : FileTree.SameOutside (entryPaths base keys) t t') : DirectoryMade t' base := by
  rcases h with h | h
  · left
    rwa [hsame.file _ (outside_base base keys)]
  · right
    intro d hd
    have hout : Path.Outside (entryPaths base keys) d := fun e he hsts =>
      outside_base base keys e he (hsts.trans (mem_inits hd).2)
    rw [hsame.isDirectory d hout]
    exact h d hd

include hbase in
lemma leads_makeCacheDirectory : Leads (makeCacheDirectory directory) (fun _ w' => ∃ files, w' = { w with files } ∧
    DirectoryMade files base) Never w := by
  subst hbase
  rw [makeCacheDirectory, leads_bind, leads_locate, changeFiles, leads_bind, leads_get]
  by_cases hfile : (w.files.file? (Path.locate w.workingDirectory directory)).isSome = true
  · rw [if_pos hfile]
    exact ⟨w.files, rfl, Or.inl hfile⟩
  · rw [if_neg hfile]
    refine ⟨_, rfl, Or.inr fun d hd => ?_⟩
    rw [FileTree.isDirectory_makeDirectories]
    simp [hd]

include hbase in
lemma makeCacheDirectory_of_made (h : DirectoryMade w.files base) :
    Leads (makeCacheDirectory directory) (fun _ w' => w' = w) Never w := by
  subst hbase
  rw [makeCacheDirectory, leads_bind, leads_locate, changeFiles, leads_bind, leads_get]
  split
  · rfl
  · rename_i hfile
    rcases h with h | h
    · exact (hfile h).elim
    · rw [makeDirectories_of_isDirectory h]
      rfl

/-- Each entry that was found is as it was then, but for the entries that were not. -/
def Found (w : World) (base : Path) (builds : List CachedBuild) (files : FileTree) : Prop :=
  ∀ b ∈ builds, ∀ found, b.found = some found → ∃ t, Usable t w.workingDirectory base b.key found ∧
    SameOutside (entryPaths base (missedKeys builds)) t files

variable {source options : String}

include hdir hbase in
lemma leads_lookUps (devices : List DeviceRef) :
    Leads (devices.mapM (lookUpBuild source options directory)) (fun builds w' =>
      (∃ files warnings, w' = { w with files, warnings }) ∧
      SameOutside (entryPaths base (missedKeys builds)) w.files w'.files ∧
      builds.map (fun b => (b.device, b.key)) = devices.map (fun d => (d, w.cacheKey d options source)) ∧
      Found w base builds w'.files) Any w := by
  induction devices generalizing w with
  | nil => refine ⟨⟨w.files, w.warnings, rfl⟩, SameOutside.refl _ _, rfl, fun b hb => by cases hb⟩
  | cons d devices ih =>
    rw [mapM_cons, leads_bind, lookUpBuild, leads_bind, leads_cacheKey]
    refine (leads_retrieve hdir hbase (w.isKey_cacheKey d options source)).andThen ?_
    rintro r _ ⟨⟨files, warnings, rfl⟩, hsame, hfnd⟩
    refine (ih (w := { w with files, warnings }) hdir hbase).andThen ?_
    rintro builds _ ⟨⟨files', warnings', rfl⟩, hsame', hkeys, hrest⟩
    rw [leads_pure, missedKeys_cons]
    refine ⟨⟨files', warnings', rfl⟩, ?_, by rw [map_cons, hkeys]; rfl, ?_⟩
    · cases r with
      | none =>
        exact (hsame.mono (entryPaths_mono (by simp))).trans (hsame'.mono (entryPaths_mono (subset_cons_self _ _)))
      | some found =>
        obtain rfl : files = w.files := congrArg World.files (hfnd found rfl).1
        exact hsame'
    · intro b hb found hb'
      cases r with
      | none =>
        obtain rfl | hb := mem_cons.1 hb
        · cases hb'
        · obtain ⟨t, huse, hsince⟩ := hrest b hb found hb'
          exact ⟨t, huse, hsince.mono (entryPaths_mono (subset_cons_self _ _))⟩
      | some found' =>
        obtain rfl | hb := mem_cons.1 hb
        · obtain rfl : found' = found := Option.some.inj hb'
          obtain rfl : files = w.files := congrArg World.files (hfnd found' rfl).1
          exact ⟨w.files, (hfnd found' rfl).2, hsame'⟩
        · exact hrest b hb found hb'

include hdir hbase in
lemma leads_lookUpBuilds (context : Context) (devices : Option (List DeviceRef)) :
    Leads (lookUpBuilds context source options devices directory) (fun builds w' =>
      (∃ files warnings, w' = { w with files, warnings }) ∧ DirectoryMade w'.files base ∧
      builds.map (fun b => (b.device, b.key)) =
        (devices.getD context.devices).map (fun d => (d, w.cacheKey d options source)) ∧
      Found w base builds w'.files) Any w := by
  refine (leads_makeCacheDirectory hbase).bind ?_
  rintro _ _ ⟨files, rfl, hmade⟩
  refine (leads_lookUps (w := { w with files }) hdir hbase _).imp ?_
  rintro builds _ ⟨⟨files', warnings', rfl⟩, hsame, hkeys, hfnd⟩
  exact ⟨⟨files', warnings', rfl⟩, hmade.congr hsame, hkeys, hfnd⟩

/-! ## Storing -/

/-- An entry holds a binary and a log. -/
def Kept (t : FileTree) (root : String) (base : Path) (keys : List String) (key : String) (found : Bytes × String) :
    Prop :=
  LockFree t base ∧ ∃ note, EntryHolds t base key note found.1 ∧ note.log = found.2 ∧
    ∀ locked, Locks base t locked → ∃ before, SameOutside (entryPaths base keys) before locked ∧
      Source.areCurrent before root note.dependencies = .ok true

section Kept

variable {t t' locked locked' : FileTree} {root key : String} {keys : List String} {found : Bytes × String}

lemma kept_of_usable (h : Usable t root base key found) (hkey : key ∉ keys) (hlock : "lock" ∉ keys)
    (hsame : SameOutside (entryPaths base keys) t t') : Kept t' root base keys key found := by
  obtain ⟨hfree, note, locked, hholds, hlog, hlocked, hcur⟩ := h
  refine ⟨hfree.congr hlock hsame, note, hholds.congr hkey hsame, hlog, fun locked' hlocked' => ?_⟩
  exact ⟨locked, hlocked.congr hlocked' hsame, hcur⟩

lemma kept_of_written {e : CacheEntry} (hfree : LockFree t base) (hlocked : Locks base t locked)
    (hlock : "lock" ∉ keys) (hsame : SameOutside (entryPaths base keys) locked locked')
    (hremove : locked'.remove (base ++ ["lock"]) = .ok t') (h : Written locked' root base (entryPaths base keys) e) :
    Kept t' root base keys e.key (e.binary, e.log) := by
  obtain ⟨note, before, hholds, hlog, hbef, hcur⟩ := h
  refine ⟨hfree.congr hlock (hlocked.sameOutside hfree hsame hremove), note, entryHolds_remove hremove hholds, hlog,
    fun again hagain => ?_⟩
  exact ⟨before, hbef.trans (hlocked.again hlock hsame hremove hagain), hcur⟩

lemma usable_of_kept (h : Kept t root base keys key found)
    (hout : ∀ note time, t.file? (base ++ [key, "info"]) = some ⟨.note note, time⟩ →
      ∀ d ∈ note.dependencies, (Path.locate root d.file).Outside (entryPaths base keys)) :
    Usable t root base key found := by
  obtain ⟨hfree, note, hholds, hlog, hcur⟩ := h
  obtain ⟨locked, hlocked⟩ := hfree.exists_locks
  obtain ⟨before, hbef, hcur⟩ := hcur locked hlocked
  obtain ⟨time, hnote⟩ := hholds.note
  exact ⟨hfree, note, locked, hholds, hlog, hlocked, Source.areCurrent_congr hbef (hout note time hnote) hcur⟩

end Kept

def entryOf (w : World) (source : String) (b : CachedBuild) : CacheEntry :=
  ⟨b.key, binaryOf source b.device, w.logOf b.device⟩

variable {devices : List DeviceRef} {builds : List CachedBuild}

lemma freshEntry_eq {e : CacheEntry} (h : freshEntry source (devices.map fun d => (d, w.logOf d)) b = .ok e) :
    e = entryOf w source b ∧ b.device ∈ devices := by
  unfold freshEntry at h
  split at h
  · rename_i l hl
    obtain ⟨d, hd, rfl⟩ := mem_map.1 (mem_of_find?_eq_some hl)
    obtain rfl : d = b.device := by simpa using find?_some hl
    exact ⟨(Except.ok.inj h).symm, hd⟩
  · cases h

lemma mapM_freshEntry (h : builds.mapM (freshEntry source (devices.map fun d => (d, w.logOf d))) = .ok entries) :
    entries = builds.map (entryOf w source) ∧ ∀ b ∈ builds, b.device ∈ devices := by
  induction builds generalizing entries with
  | nil =>
    cases h
    exact ⟨rfl, fun b hb => by cases hb⟩
  | cons b builds ih =>
    rw [mapM_cons] at h
    obtain ⟨e, he, h⟩ := of_bind_ok h
    obtain ⟨rest, hrest, h⟩ := of_bind_ok h
    obtain ⟨rfl, hd⟩ := freshEntry_eq he
    obtain ⟨rfl, hds⟩ := ih hrest
    cases h
    exact ⟨rfl, forall_mem_cons.2 ⟨hd, hds⟩⟩

def lastStored (w : World) (source : String) (builds : List CachedBuild) (b : CachedBuild) : Option (Bytes × String) :=
  match (builds.filter (·.found.isNone)).reverse.find? (·.key == b.key) with
  | some last => some (binaryOf (w.markedSource source) last.device, w.logOf last.device)
  | none => b.found

lemma leads_programFromSource (context : Context) (source : String) :
    Leads (programFromSource context source) (fun _ w' => w'.files = w.files ∧ w.SameMachine w' ∧
      w'.buildLog = w.buildLog) Never w := ⟨rfl, ⟨rfl, rfl, rfl⟩, rfl⟩

lemma leads_programFromBinaries (context : Context) (devices : List DeviceRef) (binaries : List Bytes) :
    Leads (programFromBinaries context devices binaries) (fun p w' => w'.files = w.files ∧ w.SameMachine w' ∧
      (w'.devicePrograms[p]?.getD default).kind = .binary ∧
      w'.log = w.log.push (.programFromBinary p (deviceIndices devices))) Never w := by
  refine ⟨rfl, ⟨rfl, rfl, rfl⟩, ?_, rfl⟩
  rw [Array.getElem?_push_size]
  rfl

lemma leads_compileBuilds (context : Context) (missing : List CachedBuild) :
    Leads (compileBuilds context source options missing) (fun r w' => w.Undisturbed w' ∧
      r.2 = missing.map (entryOf w source) ∧ ∀ b ∈ missing, Says (w.logOf b.device) → w.Readable) Any w := by
  refine (leads_programFromSource context source).bind ?_
  rintro p w1 ⟨hfls, hmach, hbuildLog⟩
  have hlog1 : ∀ d, w1.logOf d = w.logOf d := fun d => by rw [logOf, logOf, hbuildLog]
  refine (leads_buildWithLogs p options _).andThen ?_
  rintro _ w2 ⟨hcalm, hread⟩
  refine (leads_buildLogs p).bind ?_
  rintro _ _ ⟨rfl, rfl⟩
  cases hents : missing.mapM (freshEntry source _) with
  | error => trivial
  | ok =>
    obtain ⟨rfl, hdevs⟩ := mapM_freshEntry hents
    refine ⟨⟨hmach.trans hcalm.toSameMachine, hcalm.files.trans hfls⟩, ?_, ?_⟩
    · refine map_congr_left fun b _ => ?_
      rw [entryOf, entryOf, hcalm.logOf, hlog1]
    · intro b hb hspoken
      refine hmach.readable.1 (hread ⟨b.device, ?_, ?_⟩)
      · rw [← hcalm.devices]
        exact hdevs b hb
      · rwa [hlog1]

include hdir hbase in
lemma leads_storeUnderLock (hkeys : ∀ key ∈ keys, IsKey key) (hsub : entries.map (·.key) = keys)
    (includePath : List String) :
    Leads (withLock directory (storeEntries directory source includePath entries)) (fun _ w' =>
      w.SameMachine w' ∧ SameOutside (entryPaths base keys) w.files w'.files ∧
      ∀ key e, entries.reverse.find? (·.key == key) = some e →
        Kept w'.files w.workingDirectory base keys e.key (e.binary, e.log)) Any w := by
  subst hsub
  have hlock : "lock" ∉ entries.map (·.key) := fun hmem => (hkeys _ hmem).ne_lock rfl
  refine leads_withLock hdir hbase fun hfree locked hlocked => ?_
  refine (leads_storeEntries (w := { w with files := locked }) hdir hbase
    (fun e he => (hkeys e.key (mem_map_of_mem he)).toIsName) (Subset.refl _) source includePath).imp ?_
  rintro _ _ ⟨locked', rfl, hsame, hwr⟩
  refine ⟨rfl, fun files hremove => ⟨⟨rfl, rfl, rfl⟩, hlocked.sameOutside hfree hsame hremove, fun key e he => ?_⟩⟩
  exact kept_of_written hfree hlocked hlock hsame hremove (hwr key e he)

section lastStored

variable {builds : List CachedBuild} {b : CachedBuild}

lemma lastStored_of_found (h : b.key ∉ missedKeys builds) : lastStored w source builds b = b.found := by
  have hnone : (builds.filter (·.found.isNone)).reverse.find? (·.key == b.key) = none := by
    rw [find?_eq_none]
    intro b' hb' heq
    exact h (mem_map.2 ⟨b', mem_reverse.1 hb', by simpa using heq⟩)
  rw [lastStored, hnone]

lemma exists_lastStored (w : World) (source : String) (h : b.key ∈ missedKeys builds) : ∃ last ∈ builds.filter (·.found.isNone),
    ((builds.filter (·.found.isNone)).map (entryOf w (w.markedSource source))).reverse.find? (·.key == b.key) =
      some (entryOf w (w.markedSource source) last) ∧ last.key = b.key ∧
    lastStored w source builds b = some (binaryOf (w.markedSource source) last.device, w.logOf last.device) := by
  obtain ⟨b', hb', hkey⟩ := mem_map.1 h
  cases hlast : (builds.filter (·.found.isNone)).reverse.find? (·.key == b.key) with
  | none =>
    rw [find?_eq_none] at hlast
    exact (hlast b' (mem_reverse.2 hb') (by simpa using hkey)).elim
  | some last =>
    refine ⟨last, mem_reverse.1 (mem_of_find?_eq_some hlast), ?_, by simpa using find?_some hlast, ?_⟩
    · rw [← map_reverse, find?_map]
      exact congrArg (Option.map _) hlast
    · rw [lastStored, hlast]

end lastStored

structure Settled (w w' : World) (source : String) (base : Path) (builds : List CachedBuild) : Prop where
  machine : w.SameMachine w'
  made : DirectoryMade w'.files base
  kept : ∀ b ∈ builds, ∃ found, lastStored w source builds b = some found ∧
    Kept w'.files w.workingDirectory base (missedKeys builds) b.key found ∧ (Says found.2 → w.Readable)

include hdir hbase in
lemma leads_programOfBuilds (hkeys : ∀ b ∈ builds, IsKey b.key) (hmade : DirectoryMade w.files base)
    (hfnd : Found w base builds w.files) (context : Context) (includePath : List String) : Leads (programOfBuilds context source options directory includePath builds)
      (fun _ w' => Settled w w' source base builds) Any w := by
  have hmissed : ∀ key ∈ missedKeys builds, IsKey key := by
    intro key hkey
    obtain ⟨b, hb, rfl⟩ := mem_map.1 hkey
    exact hkeys b (mem_filter.1 hb).1
  refine (leads_reportFound builds).bind ?_
  rintro _ _ ⟨⟨warnings, rfl⟩, htalks⟩
  -- An entry that was found stays whatever is done to the others.
  have hstays : ∀ files, SameOutside (entryPaths base (missedKeys builds)) w.files files → ∀ b ∈ builds,
      b.key ∉ missedKeys builds → ∃ found, lastStored w source builds b = some found ∧
        Kept files w.workingDirectory base (missedKeys builds) b.key found ∧ (Says found.2 → w.Readable) := by
    intro files hfls b hb hkey
    cases hb' : b.found with
    | none => exact (hkey (mem_map.2 ⟨b, mem_filter.2 ⟨hb, by rw [hb']; rfl⟩, rfl⟩)).elim
    | some found =>
      obtain ⟨t, huse, hsame⟩ := hfnd b hb found hb'
      refine ⟨found, by rw [lastStored_of_found hkey, hb'], ?_, fun hspoken => htalks ⟨b, hb, found, hb', hspoken⟩⟩
      exact kept_of_usable huse hkey (fun hmem => (hmissed _ hmem).ne_lock rfl) (hsame.trans hfls)
  extract_lets missing whole
  split
  · rename_i hemp
    have hnone : missedKeys builds = [] := congrArg (List.map _) (List.isEmpty_iff.1 hemp)
    refine (leads_programFromBinaries context _ _).bind ?_
    rintro p w' ⟨hfls, hmach, -⟩
    refine ⟨SameMachine.trans (by constructor <;> rfl) hmach, hfls ▸ hmade, fun b hb => ?_⟩
    rw [hfls]
    exact hstays w.files (SameOutside.refl _ _) b hb (by simp [hnone])
  · rw [leads_bind]
    refine (leads_compileBuilds context missing).andThen ?_
    rintro ⟨built, entries⟩ w1 ⟨hcalm, hents, hread⟩
    subst hents
    have hmach1 : w.SameMachine w1 := SameMachine.trans (by constructor <;> rfl) hcalm.toSameMachine
    have hstore : ∀ program w2, w2.files = w.files → w.SameMachine w2 → Leads (do
          withLock directory (storeEntries directory (w.markedSource source) includePath
            (missing.map (entryOf w (w.markedSource source))))
          pure ⟨program, whole, false⟩ : Host CachedProgram) (fun _ w' => Settled w w' source base builds)
          Any w2 := by
      intro program w2 hfls hmach
      rw [← hfls] at hmade hstays
      rw [← hmach.workingDirectory] at hdir hbase
      refine (leads_storeUnderLock hdir hbase hmissed (by rw [map_map]; rfl) includePath).andThen ?_
      rintro _ w3 ⟨hmach3, hsame, hstored⟩
      refine ⟨hmach.trans hmach3, hmade.congr hsame, fun b hb => ?_⟩
      by_cases hkey : b.key ∈ missedKeys builds
      · obtain ⟨last, hmem, hlast, hlastKey, heq⟩ := exists_lastStored w source hkey
        refine ⟨_, heq, ?_, hread last hmem⟩
        rw [← hlastKey, ← hmach.workingDirectory]
        exact hstored b.key _ hlast
      · exact hstays w3.files hsame b hb hkey
    dsimp only
    split
    · exact hstore built w1 hcalm.files hmach1
    · refine (leads_programFromBinaries context _ _).bind ?_
      rintro p w2 ⟨hfls, hmach, -⟩
      exact hstore p w2 (hfls.trans hcalm.files) (hmach1.trans hmach)

/-! ## Building again -/

include hdir hbase in
lemma lookUps_of_usable {P : Bytes × String → Prop}
    (h : ∀ d ∈ devices, ∃ found, Usable w.files w.workingDirectory base (w.cacheKey d options source) found ∧ P found) :
    Leads (devices.mapM (lookUpBuild source options directory)) (fun builds w' => w' = w ∧
      builds.map (·.device) = devices ∧ ∀ b ∈ builds, ∃ found, b.found = some found ∧ P found) Never w := by
  refine (leads_mapM (I := (· = w)) (P := fun d b => b.device = id d ∧ ∃ found, b.found = some found ∧ P found) ?_
    rfl).imp ?_
  · rintro d hd w rfl
    obtain ⟨found, huse, hP⟩ := h d hd
    rw [lookUpBuild, leads_bind, leads_cacheKey]
    refine (retrieve_of_usable hdir hbase (w.isKey_cacheKey d options source) huse).andThen ?_
    rintro _ _ ⟨rfl, rfl⟩
    exact ⟨⟨rfl, found, rfl, hP⟩, rfl⟩
  · rintro builds _ ⟨hbs, rfl⟩
    refine ⟨rfl, (map_eq_of_forall₂ (hbs.imp fun _ _ h => h.1)).trans (map_id _), fun b hb => ?_⟩
    obtain ⟨_, -, -, hfnd⟩ := exists_of_forall₂_of_mem hbs hb
    exact hfnd

lemma programOfBuilds_of_found (h : ∀ b ∈ builds, ∃ found, b.found = some found ∧ (Says found.2 → w.Readable))
    (context : Context) (includePath : List String) :
    Leads (programOfBuilds context source options directory includePath builds) (fun c w' => c.wasCached = true ∧
      c.isBuilt = false ∧ (w'.devicePrograms[c.program]?.getD default).kind = .binary ∧ w'.files = w.files ∧
      w'.log = w.log.push (.programFromBinary c.program (deviceIndices (builds.map (·.device))))) Never w := by
  have htalks : Talks builds → w.Readable := by
    rintro ⟨b, hb, found, hfnd, hspoken⟩
    obtain ⟨found', hfnd', hread⟩ := h b hb
    rw [hfnd] at hfnd'
    cases hfnd'
    exact hread hspoken
  have hmissing : (builds.filter (·.found.isNone)).isEmpty = true := by
    rw [List.isEmpty_iff, filter_eq_nil_iff]
    intro b hb
    obtain ⟨found, hfnd, -⟩ := h b hb
    simp [hfnd]
  refine (leads_reportFound builds).bind ?_ fun _ _ h => h.2 (htalks h.1)
  rintro _ _ ⟨⟨warnings, rfl⟩, -⟩
  rw [if_pos hmissing]
  refine (leads_programFromBinaries context _ _).andThen ?_
  rintro p w' ⟨hfls, -, hkind, hlog⟩
  exact ⟨rfl, rfl, hkind, hfls, hlog⟩

def talkative : World where
  platforms := [{ devices := [{}] }]
  workingDirectory := "/work"
  files := { files := [(["a.h"], ⟨.bytes (utf8 "int a;"), 1⟩)] }
  buildLog := .text "unused a"

def headedLookUp : Host (List CachedBuild) := lookUpBuilds ⟨0, [⟨0, 0⟩]⟩ "#include \"a.h\"\n" "-w" none "cache"

def headedProgram : Host CachedProgram := cachedProgram ⟨0, [⟨0, 0⟩]⟩ "#include \"a.h\"\n" "-w" none "cache" ["."]

def notedFiles (f : File) : List String :=
  match f.content with
  | .note note => note.dependencies.map (·.file)
  | .bytes _ => []

lemma run_eq_of_toOption {m : Host α} {x : α} (h : (m.run.run w).1.toOption = some x) :
    m.run.run w = (.ok x, (m.run.run w).2) := by
  generalize m.run.run w = r at h ⊢
  obtain ⟨r, w'⟩ := r
  cases r with
  | error => cases h
  | ok =>
    cases h
    rfl

def headedBuild : CachedBuild := ⟨⟨0, 0⟩, talkative.cacheKey ⟨0, 0⟩ "-w" "#include \"a.h\"\n", none⟩

lemma run_headedLookUp : (headedLookUp.run.run talkative).1.toOption = some [headedBuild] := by decide +kernel

lemma run_headedProgram : (headedProgram.run.run talkative).1.toOption = some ⟨0, true, false⟩ ∧
    ((headedProgram.run.run talkative).2.files.file? ["cache", headedBuild.key, "info"]).map notedFiles =
      some ["/work/a.h"] := by
  decide +kernel

end Host

end ClHost
