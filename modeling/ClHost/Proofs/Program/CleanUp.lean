import ClHost.Proofs.Program.CachedBuilds

/-!
# What an interrupted build leaves in the cache

The operations on an entry that run while the lock is held may be cut short anywhere.
-/

namespace ClHost

open List FileTree ClHost.Path World IsTrans

namespace FileTree

variable {t t' : FileTree} {p : Path}

structure Rooted (t : FileTree) : Prop where
  directory : ∀ q, t.isDirectory q = true → t.isDirectory q.dropLast = true
  file : ∀ q f, t.file? q = some f → t.isDirectory q.dropLast = true

lemma Rooted.write (ht : t.Rooted) {f : File} (h : t.write p f = .ok t') : t'.Rooted := by
  have hpar := (write_cases h).2.1
  have hd := isDirectory_write h
  have hf := file?_write h
  obtain ⟨hdirectory, hfile⟩ := ht
  constructor <;> grind

lemma Rooted.remove (ht : t.Rooted) (h : t.remove p = .ok t') : t'.Rooted := by
  have hd := isDirectory_remove h
  have hf := file?_remove h
  obtain ⟨hdirectory, hfile⟩ := ht
  constructor <;> grind

lemma makeDirectory_new (h : t.makeDirectory p = .ok t') :
    t.isDirectory p = false ∧ t.isDirectory p.dropLast = true := by
  unfold makeDirectory at h
  split at h
  · cases h
  · split at h
    · cases h
    · rename_i hnew hpar
      simp only [Bool.or_eq_true, not_or, Bool.not_eq_true, Bool.not_eq_false'] at hnew hpar
      exact ⟨hnew.1, hpar⟩

lemma Rooted.makeDirectory (ht : t.Rooted) (h : t.makeDirectory p = .ok t') : t'.Rooted := by
  have hpar := (makeDirectory_new h).2
  have hd := isDirectory_makeDirectory h
  have hf := file?_makeDirectory h
  obtain ⟨hdirectory, hfile⟩ := ht
  constructor <;> grind

lemma eq_nil_of_dropLast {q : Path} (h : q.dropLast = q) : q = [] := by
  have hlen := congrArg List.length h
  rw [length_dropLast] at hlen
  exact eq_nil_of_length_eq_zero (by omega)

lemma exists_eraseDirectory (hp : t.isDirectory p = true)
    (hflat : ∀ q, t.isDirectory q = true → q.dropLast = p → q = []) : ∃ t', t.eraseDirectory p = .ok t' := by
  unfold eraseDirectory
  rw [if_neg (by simp [hp]), if_neg ?_]
  · exact ⟨_, rfl⟩
  · rw [any_eq_true]
    rintro ⟨q, hq, hbelow⟩
    simp only [Bool.and_eq_true, beq_iff_eq, Bool.not_eq_true', isEmpty_eq_false_iff] at hbelow
    exact hbelow.1.2 (hflat q (by simp [isDirectory, hq]) hbelow.1.1)

lemma flat_of_eraseDirectory (h : t.eraseDirectory p = .ok t') {q : Path} (hq : t.isDirectory q = true)
    (hbelow : q.dropLast = p) : q = [] := by
  unfold eraseDirectory at h
  split at h
  · cases h
  · split at h
    · cases h
    · rename_i hflat
      by_contra hne
      have hoth : q ≠ p := fun hq => hne (eq_nil_of_dropLast (hbelow.trans hq.symm))
      refine hflat (any_eq_true.2 ⟨q, ?_, ?_⟩) <;> simp_all [isDirectory]

lemma isDirectory_erased (h : t.eraseDirectory p = .ok t') (hp : p ≠ []) : t'.isDirectory p = false := by
  obtain ⟨-, rfl⟩ := eraseDirectory_cases h
  simp [isDirectory, hp]

lemma Rooted.eraseDirectory (ht : t.Rooted) (h : t.eraseDirectory p = .ok t') : t'.Rooted := by
  have hd := fun q => isDirectory_eraseDirectory (q := q) h
  constructor
  · intro q hq
    by_cases hbelow : q.dropLast = p
    · have hnil : q = [] := by
        by_cases hqp : q = p
        · exact eq_nil_of_dropLast (hbelow.trans hqp.symm)
        · exact flat_of_eraseDirectory h (hd q hqp ▸ hq) hbelow
      rw [hnil]
      rfl
    · rw [hd _ hbelow]
      by_cases hqp : q = p
      · exact ht.directory q (hqp ▸ (eraseDirectory_cases h).1)
      · exact ht.directory q (hd q hqp ▸ hq)
  · intro q f hf
    rw [file?_eraseDirectory h] at hf
    split at hf
    · cases hf
    · rename_i hbelow
      exact (hd _ hbelow).trans (ht.file q f hf)

lemma Rooted.makeDirectories (ht : t.Rooted) (p : Path) : (t.makeDirectories p).Rooted := by
  have hup : ∀ q ∈ inits p, q.dropLast = [] ∨ q.dropLast ∈ inits p := by
    intro q hq
    obtain ⟨i, hi, rfl⟩ := mem_map.1 hq
    rw [mem_range] at hi
    have hdrop : (p.take (i + 1)).dropLast = p.take i := by
      rw [dropLast_eq_take, length_take, take_take]
      congr 1
      omega
    rw [hdrop]
    cases i with
    | zero => simp
    | succ i => exact Or.inr (mem_map.2 ⟨i, by rw [mem_range]; omega, rfl⟩)
  constructor
  · intro q hq
    rw [isDirectory_makeDirectories, Bool.or_eq_true, decide_eq_true_eq] at hq ⊢
    rcases hq with hq | hq
    · exact Or.inl (ht.directory q hq)
    · exact (hup q hq).imp (fun h => by rw [h]; rfl) id
  · intro q f hf
    rw [isDirectory_makeDirectories, ht.file q f hf, Bool.true_or]

end FileTree

namespace Host

/-! ## Steps that may be cut short -/

structure ChangedIn (p : Path) (kept : Prop) (w w' : World) : Prop where
  workingDirectory : w'.workingDirectory = w.workingDirectory
  rooted : w.files.Rooted → w'.files.Rooted
  file : ∀ q : Path, q.dropLast ≠ p → w'.files.file? q = w.files.file? q
  directory : ∀ q, (q = p → kept) → w'.files.isDirectory q = w.files.isDirectory q

def InEntry (entry : String) (kept : Prop) (w w' : World) : Prop :=
  Path.Within w.workingDirectory entry → ChangedIn (Path.locate w.workingDirectory entry) kept w w'

variable {entry : String} {kept : Prop}

instance : Std.Refl (InEntry entry kept) := ⟨fun _ _ => ⟨rfl, id, fun _ _ => rfl, fun _ _ => rfl⟩⟩

instance : IsTrans World (InEntry entry kept) := by
  refine ⟨fun w w' w'' h h' hin => ?_⟩
  obtain ⟨hroot, hrooted, hfile, hdirectory⟩ := h hin
  obtain ⟨hroot', hrooted', hfile', hdirectory'⟩ := h' (hroot ▸ hin)
  rw [hroot] at hfile' hdirectory'
  exact ⟨hroot'.trans hroot, hrooted' ∘ hrooted, fun q hq => (hfile' q hq).trans (hfile q hq),
    fun q hq => (hdirectory' q hq).trans (hdirectory q hq)⟩

structure EntrySteps where
  look : String → String → Host (Option (Bytes × String))
  make : Path → Host Bool
  fill : String → String → List String → CacheEntry → Host Unit

namespace EntrySteps

def standard : EntrySteps where
  look entry key := do
    match ← entryNote? entry with
    | none =>
      resetEntry entry
      warn .user ("PyOpenCL encountered an invalid info file for cache key " ++ key)
      return none
    | some note =>
      let w ← get
      let binary ← lift (w.files.read (← locate (join entry "binary")))
      if ← lift (Source.areCurrent w.files w.workingDirectory note.dependencies) then
        return some (binary, note.log)
      else
        resetEntry entry
        return none
  make path := do
    match (← get).files.makeDirectory path with
    | .ok tree =>
      modify fun w => { w with files := tree }
      return true
    | .error _ => return false
  fill := fillEntry

variable (s : EntrySteps)

def retrieve (directory key : String) : Host (Option (Bytes × String)) := do
  let entry := join directory key
  if !(← get).files.isDirectory (← locate entry) then return none
  withLock directory (s.look entry key)

def withEntry (entry : String) (body : Host Unit) : Host Unit := do
  let path ← locate entry
  if ← s.make path then onFailure body (changeFiles fun t => t.eraseDirectory path) else body

def store (directory source : String) (includePath : List String) : List CacheEntry → Host Unit
  | [] => pure ()
  | e :: rest => do
    let entry := join directory e.key
    s.withEntry entry do
      s.fill entry source includePath e
      store directory source includePath rest

def lookUp (source options directory : String) (d : DeviceRef) : Host CachedBuild := do
  let key ← cacheKey d (utf8 options) (utf8 source)
  return ⟨d, key, ← s.retrieve directory key⟩

def programOfBuilds (context : Context) (source options directory : String) (includePath : List String)
    (builds : List CachedBuild) : Host CachedProgram := do
  reportFound builds
  let missing := builds.filter (·.found.isNone)
  if missing.isEmpty then
    let p ← programFromBinaries context (builds.map (·.device)) (builds.filterMap fun b => b.found.map (·.1))
    return ⟨p, false, true⟩
  let marked ← markSource source
  let (built, entries) ← compileBuilds context marked options missing
  let whole := missing.length == builds.length
  let program ← if whole then pure built else
    programFromBinaries context (builds.map (·.device)) (builds.map fun b =>
      (b.found.map (·.1)).getD (binaryOf marked b.device))
  withLock directory (s.store directory marked includePath entries)
  return ⟨program, whole, false⟩

variable (context : Context) (source options : String) (devices : Option (List DeviceRef)) (directory : String)
  (includePath : List String)

def cachedProgram : Host CachedProgram := do
  makeCacheDirectory directory
  let builds ← (devices.getD context.devices).mapM (s.lookUp source options directory)
  s.programOfBuilds context source options directory includePath builds

lemma withEntry_standard (entry : String) (body : Host Unit) :
    standard.withEntry entry body = Host.withEntry entry body := by
  simp only [withEntry, Host.withEntry, standard, bind_assoc]
  refine bind_congr fun path => bind_congr fun w => ?_
  cases w.files.makeDirectory path <;> simp

lemma store_standard (directory source : String) (includePath : List String) (entries : List CacheEntry) :
    standard.store directory source includePath entries = storeEntries directory source includePath entries := by
  induction entries with
  | nil => rfl
  | cons e rest ih =>
    rw [store, ih]
    exact withEntry_standard _ _

lemma cachedProgram_standard : standard.cachedProgram context source options devices directory includePath =
      Host.cachedProgram context source options devices directory includePath := by
  simp only [cachedProgram, Host.cachedProgram, lookUpBuilds, programOfBuilds, Host.programOfBuilds, store_standard,
    bind_assoc]
  rfl

/-- Looking and filling change nothing outside the entry, and filling keeps its directory. -/
structure Confined : Prop where
  look (entry key : String) : Stays (InEntry entry False) (s.look entry key)
  make (p : Path) (w : World) : Leads (s.make p)
    (fun made w' => w'.workingDirectory = w.workingDirectory ∧
      if made then w.files.makeDirectory p = .ok w'.files else w'.files = w.files)
    (fun _ w' => w'.workingDirectory = w.workingDirectory ∧ w'.files = w.files) w
  fill (entry source : String) (includePath : List String) (e : CacheEntry) :
    Stays (InEntry entry True) (s.fill entry source includePath e)

end EntrySteps

lemma stays_locate_changeFiles {R : World → World → Prop} [Std.Refl R] {text : String}
    {f : Path → FileTree → Result FileTree}
    (h : ∀ w files, f (Path.locate w.workingDirectory text) w.files = .ok files → R w { w with files }) :
    Stays R (locate text >>= fun path => changeFiles (f path)) := by
  refine stays_of_leads fun w => ?_
  rw [leads_bind, leads_locate, changeFiles, leads_bind, leads_get]
  cases hf : f (Path.locate w.workingDirectory text) w.files with
  | error => exact refl w
  | ok files => exact h w files hf

lemma stays_writeEntryFile {name : String} (hname : Path.IsName name) (content : FileContent) :
    Stays (InEntry entry True) (writeEntryFile entry name content) := by
  refine stays_locate_changeFiles fun w files hfls hin => ?_
  rw [locate_join hin hname] at hfls
  refine ⟨rfl, fun hw => hw.write hfls, fun q hq => ?_, fun q _ => isDirectory_write hfls q⟩
  rw [file?_write hfls, if_neg]
  rintro rfl
  exact hq dropLast_concat

lemma stays_resetEntry : Stays (InEntry entry False) (resetEntry entry) := by
  refine stays_locate_changeFiles fun w files hfls _ => ?_
  obtain ⟨erased, herase, hmake⟩ := of_bind_ok hfls
  refine ⟨rfl, fun hw => (hw.eraseDirectory herase).makeDirectory hmake, fun q hq => ?_, fun q hq => ?_⟩
  · rw [file?_makeDirectory hmake, file?_eraseDirectory herase, if_neg hq]
  · rw [isDirectory_makeDirectory hmake, isDirectory_eraseDirectory herase hq, decide_eq_false hq, Bool.or_false]

lemma confined_standard : EntrySteps.standard.Confined where
  look entry key := by
    have hnote : Stays (InEntry entry False) (entryNote? entry) := by
      refine stays_get.bind fun w => stays_get.map.bind fun path => ?_
      split
      · exact stays_pure _
      · exact stays_pure _
      · exact stays_fail _
      · exact stays_pure _
    refine hnote.bind fun n => ?_
    split
    · exact stays_resetEntry.bind fun _ => Stays.bind
        (stays_modify fun w _ => ⟨rfl, id, fun _ _ => rfl, fun _ _ => rfl⟩) fun _ => stays_pure _
    · refine stays_get.bind fun w => stays_get.map.bind fun path => ?_
      refine (stays_lift _).bind fun binary => (stays_lift _).bind fun current => Stays.ite (stays_pure _) ?_
      exact stays_resetEntry.map
  make p w := by
    simp only [EntrySteps.standard, leads_bind, leads_get]
    cases hmake : w.files.makeDirectory p <;> exact ⟨rfl, rfl⟩
  fill entry source includePath e :=
    (stays_writeEntryFile isName_source _).bind fun _ => (stays_writeEntryFile isName_binary _).bind fun _ =>
      (stays_writeEntryFile isName_info _).bind fun _ => stays_get.bind fun _ => (stays_lift _).bind fun _ =>
      stays_writeEntryFile isName_info _

/-! ## Storing -/

structure Left (base : Path) (D : (Path → Bool) → (Path → Bool) → Prop) (w w' : World) : Prop where
  workingDirectory : w'.workingDirectory = w.workingDirectory
  rooted : w.files.Rooted → w'.files.Rooted
  lock : w'.files.file? (base ++ ["lock"]) = w.files.file? (base ++ ["lock"])
  directories : D w.files.isDirectory w'.files.isDirectory

def NoneNew (base : Path) (before after : Path → Bool) : Prop :=
  ∀ name, after (base ++ [name]) = true → before (base ++ [name]) = true

def Anything (_ _ : Path → Bool) : Prop := True

variable {base : Path} {D E F : (Path → Bool) → (Path → Bool) → Prop} {w w' w'' : World}

instance : Trans (NoneNew base) (NoneNew base) (NoneNew base) := ⟨fun h h' name hname => h name (h' name hname)⟩

instance : Trans D Anything Anything := ⟨fun _ _ => trivial⟩

lemma Left.mono (h : Left base D w w') (hD : ∀ d d', D d d' → E d d') : Left base E w w' :=
  { h with directories := hD _ _ h.directories }

lemma Left.trans [Trans D E F] (h : Left base D w w') (h' : Left base E w' w'') : Left base F w w'' where
  workingDirectory := h'.workingDirectory.trans h.workingDirectory
  rooted := h'.rooted ∘ h.rooted
  lock := h'.lock.trans h.lock
  directories := Trans.trans h.directories h'.directories

lemma Left.of_eq (hroot : w'.workingDirectory = w.workingDirectory) (hfls : w'.files = w.files) :
    Left base Eq w w' := by
  constructor <;> simp_all

variable {key : String}

lemma lock_outside : (base ++ ["lock"]).dropLast ≠ base ++ [key] := by
  simp

lemma exists_erase_made (hroot : w'.workingDirectory = w.workingDirectory)
    (hmake : w.files.makeDirectory (base ++ [key]) = .ok w'.files) (hw : w.files.Rooted) (h : Left base Eq w' w'') :
    ∃ files, w''.files.eraseDirectory (base ++ [key]) = .ok files ∧ Left base Eq w { w'' with files } := by
  have hnew := (makeDirectory_new hmake).1
  have hmade : ∀ q, w''.files.isDirectory q = (w.files.isDirectory q || decide (q = base ++ [key])) := by
    rw [← h.directories]
    exact isDirectory_makeDirectory hmake
  have hthere : w''.files.isDirectory (base ++ [key]) = true := by
    rw [hmade]
    simp
  obtain ⟨files, hfls⟩ := exists_eraseDirectory hthere fun q hq hbelow => by
    rw [hmade, Bool.or_eq_true, decide_eq_true_eq] at hq
    rcases hq with hq | rfl
    · rw [← hbelow, hw.directory q hq] at hnew
      cases hnew
    · exact eq_nil_of_dropLast hbelow
  refine ⟨files, hfls, h.workingDirectory.trans hroot, fun _ => ?_, ?_, funext fun q => ?_⟩
  · exact (h.rooted (hw.makeDirectory hmake)).eraseDirectory hfls
  · rw [file?_eraseDirectory hfls, if_neg lock_outside, h.lock, file?_makeDirectory hmake]
  · by_cases hq : q = base ++ [key]
    · rw [hq, hnew, isDirectory_erased hfls (by simp)]
    · rw [isDirectory_eraseDirectory hfls hq, hmade, decide_eq_false hq, Bool.or_false]

variable {s : EntrySteps} (hs : s.Confined) {directory : String} {α : Type} {body : Host α}

lemma leads_onFailure_erase {Q : α → World → Prop} {E : Fault → World → Prop} {p : Path}
    (h : Leads body Q (fun e w' => ∃ files, w'.files.eraseDirectory p = .ok files ∧ E e { w' with files }) w) :
    Leads (onFailure body (changeFiles fun t => t.eraseDirectory p)) Q E w := by
  rw [onFailure, leads_bind, leads_attempt]
  refine h.mono (fun _ _ hx => hx) ?_
  rintro e w' ⟨files, hfls, he⟩
  rw [leads_bind, changeFiles, leads_bind, leads_get, hfls]
  exact he

variable (hdir : Path.Within w.workingDirectory directory) (hbase : Path.locate w.workingDirectory directory = base)

include hs hdir hbase in
/-- **Builds that are stored together leave no new entry if one of them fails.** -/
lemma leads_store (hw : w.files.Rooted) {entries : List CacheEntry} (hkeys : ∀ e ∈ entries, IsName e.key)
    (source : String) (includePath : List String) :
    Leads (s.store directory source includePath entries) (fun _ w' => Left base Anything w w')
      (fun _ w' => Left base Eq w w') w := by
  induction entries generalizing w with
  | nil => exact (Left.of_eq rfl rfl).mono fun _ _ _ => trivial
  | cons e rest ih =>
    rw [forall_mem_cons] at hkeys
    -- The first entry is filled and the others are stored, from any state that the first step leads to.
    have hbody : ∀ w1 : World, w1.workingDirectory = w.workingDirectory → w1.files.Rooted →
        Leads (do s.fill (join directory e.key) source includePath e; s.store directory source includePath rest)
          (fun _ w' => Left base Anything w1 w') (fun _ w' => Left base Eq w1 w') w1 := by
      intro w1 hroot hw1
      have hfill : ∀ w2, InEntry (join directory e.key) True w1 w2 → Left base Eq w1 w2 := by
        intro w2 h
        have hchanged := h (hroot ▸ hdir.join hkeys.1)
        rw [hroot, locate_entry hdir hbase hkeys.1] at hchanged
        exact ⟨hchanged.workingDirectory, hchanged.rooted, hchanged.file _ lock_outside,
          funext fun q => (hchanged.directory q fun _ => trivial).symm⟩
      refine ((hs.fill (join directory e.key) source includePath e).leads w1).bind ?_ fun _ w2 => hfill w2
      intro _ w2 h
      have h2 := hfill w2 h
      have hroot2 := h2.workingDirectory.trans hroot
      exact (ih (hroot2 ▸ hdir) (hroot2 ▸ hbase) (h2.rooted hw1) hkeys.2).mono (fun _ _ => h2.trans) fun _ _ => h2.trans
    rw [EntrySteps.store, EntrySteps.withEntry, leads_bind, leads_locate, locate_entry hdir hbase hkeys.1]
    refine (hs.make (base ++ [e.key]) w).bind ?_ fun _ w1 h => .of_eq h.1 h.2
    rintro made w1 ⟨hroot, hmake⟩
    cases made with
    | true =>
      have h1 : Left base Anything w w1 :=
        ⟨hroot, fun hw => hw.makeDirectory hmake, file?_makeDirectory hmake _, trivial⟩
      exact leads_onFailure_erase ((hbody w1 hroot (h1.rooted hw)).mono (fun _ _ => h1.trans)
        fun _ _ => exists_erase_made hroot hmake hw)
    | false =>
      have h1 : Left base Eq w w1 := .of_eq hroot hmake
      exact (hbody w1 hroot (h1.rooted hw)).mono (fun _ _ => h1.trans) fun _ _ => h1.trans

/-! ## Under the lock -/

lemma left_of_undisturbed (h : w.Undisturbed w') : Left base Eq w w' := .of_eq h.workingDirectory h.files

include hdir hbase in
/-- **Whatever happens under the lock, the lock file goes away again.** -/
lemma leads_withLock_left (hE : ∀ d, E d d)
    (hbody : ∀ w1 : World, w1.workingDirectory = w.workingDirectory → (w.files.Rooted → w1.files.Rooted) →
      w1.files.isDirectory = w.files.isDirectory →
      Leads body (fun _ w' => Left base D w1 w') (fun _ w' => Left base E w1 w') w1) :
    Leads (withLock directory body) (fun _ w' => Left base D w w') (fun _ w' => Left base E w w') w := by
  refine (leads_takeLock hdir hbase).bind ?_ fun _ w' h => (left_of_undisturbed h.2).mono fun d _ h => h ▸ hE d
  rintro _ _ ⟨hfree, locked, hlocked, rfl⟩
  have hsame : locked.isDirectory = w.files.isDirectory := funext (isDirectory_write hlocked)
  -- The lock file is still there when the operation has ended, so that it can be removed.
  have hrelease : ∀ D w2, Left base D { w with files := locked } w2 →
      ∃ files, w2.files.remove (base ++ ["lock"]) = .ok files ∧ Left base D w { w2 with files } := by
    intro D w2 h
    have hlock : w2.files.file? (base ++ ["lock"]) = some lockFile := by
      rw [h.lock]
      exact (file?_write hlocked _).trans (if_pos rfl)
    have hremove : w2.files.remove (base ++ ["lock"]) =
        .ok { w2.files with files := w2.files.files.filter fun e => e.1 != base ++ ["lock"] } := by
      rw [remove, hlock]
      rfl
    refine ⟨_, hremove, h.workingDirectory, fun hw => (h.rooted (hw.write hlocked)).remove hremove, ?_, ?_⟩
    · rw [hfree.file]
      exact (file?_remove hremove _).trans (if_pos rfl)
    · rw [← hsame]
      exact h.directories
  rw [ensure, leads_bind, leads_attempt]
  refine (hbody { w with files := locked } rfl (fun hw => hw.write hlocked) hsame).mono ?_ ?_
  all_goals
    intro _ w2 h
    obtain ⟨files, hremove, hleft⟩ := hrelease _ w2 h
    have hpath : Path.locate w2.workingDirectory (Path.join directory "lock") = base ++ ["lock"] := by
      rw [h.workingDirectory, locate_entry hdir hbase isName_lock]
    simp only [leads_bind, leads_locate, hpath, changeFiles, leads_get, hremove, leads_lift_ok, leads_lift_error,
      leads_set]
    exact hleft

lemma Left.noneNew (h : Left base Eq w w') : Left base (NoneNew base) w w' := h.mono fun _ _ h _ hname => h ▸ hname

include hs hdir hbase in
lemma leads_retrieve_left (hkey : IsName key) :
    Leads (s.retrieve directory key) (fun _ w' => Left base (NoneNew base) w w')
      (fun _ w' => Left base (NoneNew base) w w') w := by
  unfold EntrySteps.retrieve
  simp only [leads_bind, leads_get, leads_locate, locate_entry hdir hbase hkey]
  split
  · exact (Left.of_eq rfl rfl).noneNew
  · rename_i hthere
    refine leads_withLock_left hdir hbase (fun _ _ h => h) fun w1 hroot _ hsame => ?_
    have hlook : ∀ w2, InEntry (join directory key) False w1 w2 → Left base (NoneNew base) w1 w2 := by
      intro w2 h
      have hchanged := h (hroot ▸ hdir.join hkey)
      rw [hroot, locate_entry hdir hbase hkey] at hchanged
      refine ⟨hchanged.workingDirectory, hchanged.rooted, hchanged.file _ lock_outside, fun name hname => ?_⟩
      by_cases hoth : base ++ [name] = base ++ [key]
      · rw [hoth, hsame]
        simpa using hthere
      · rwa [hchanged.directory _ hoth] at hname
    exact ((hs.look _ key).leads w1).mono (fun _ => hlook) fun _ => hlook

/-! ## A whole build -/

include hbase in
lemma leads_makeCacheDirectory_left :
    Leads (makeCacheDirectory directory) (fun _ w' => Left base (NoneNew base) w w') Never w := by
  rw [makeCacheDirectory, leads_bind, leads_locate, hbase, changeFiles, leads_bind, leads_get]
  split
  · exact (Left.of_eq rfl rfl).noneNew
  · refine ⟨rfl, fun hw => hw.makeDirectories base, rfl, fun name hname => ?_⟩
    have hshort : base ++ [name] ∉ FileTree.inits base := by
      intro hmem
      have hlen := (FileTree.mem_inits hmem).2.length_le
      rw [length_append, length_singleton] at hlen
      omega
    rwa [isDirectory_makeDirectories, decide_eq_false hshort, Bool.or_false] at hname

include hs hdir hbase in
lemma leads_lookUps_left (source options : String) (devices : List DeviceRef) :
    Leads (devices.mapM (s.lookUp source options directory))
      (fun builds w' => (∀ b ∈ builds, IsKey b.key) ∧ Left base (NoneNew base) w w')
      (fun _ w' => Left base (NoneNew base) w w') w := by
  refine (leads_mapM (I := Left base (NoneNew base) w) (P := fun _ b => IsKey b.key) ?_
    (Left.of_eq rfl rfl).noneNew).imp ?_
  · intro d _ w1 h
    have hkey := isKey_cacheKey w1 d options source
    rw [EntrySteps.lookUp, leads_bind, leads_cacheKey]
    exact (leads_retrieve_left hs (h.workingDirectory ▸ hdir) (h.workingDirectory ▸ hbase) hkey.toIsName).bind
      (fun _ _ h' => ⟨hkey, h.trans h'⟩) fun _ _ => h.trans
  · rintro builds w' ⟨hbs, h⟩
    exact ⟨fun b hb => (exists_of_forall₂_of_mem hbs hb).elim fun _ h => h.2, h⟩

lemma stays_reportFound (builds : List CachedBuild) : Stays Undisturbed (reportFound builds) :=
  Stays.ite ((quiet_reports _ _).bind fun _ => stays_compilerOutput stays_warn _) (stays_pure _)

lemma leads_compileBuilds_all (context : Context) (source options : String) (missing : List CachedBuild) :
    Leads (compileBuilds context source options missing)
      (fun r w' => w.Undisturbed w' ∧ r.2 = missing.map (entryOf w source)) (fun _ w' => w.Undisturbed w') w := by
  have hsrc : Stays Undisturbed (programFromSource context source) :=
    fun _ => ⟨⟨rfl, rfl, rfl⟩, rfl⟩
  have hbuild : ∀ p, Stays Undisturbed (buildWithLogs p options (some (missing.map (·.device)))) := fun p =>
    stays_buildWithLogs stays_warn ((calm_buildDevice p options _).mono fun _ _ h => h.toUndisturbed)
  have hstays : Stays Undisturbed (compileBuilds context source options missing) :=
    hsrc.bind fun p => (hbuild p).bind fun _ => (quiet_buildLogs p).bind fun _ => (stays_lift _).bind fun _ =>
      stays_pure _
  exact ((leads_compileBuilds context missing).and (hstays.leads w)).mono (fun _ _ h => ⟨h.2, h.1.2.1⟩) fun _ _ h => h.2

lemma stays_programFromBinaries (context : Context) (devices : List DeviceRef) (binaries : List Bytes) :
    Stays Undisturbed (programFromBinaries context devices binaries) := fun _ => ⟨⟨rfl, rfl, rfl⟩, rfl⟩

include hs hdir hbase in
lemma leads_programOfBuilds_left (hw : w.files.Rooted) {builds : List CachedBuild}
    (hkeys : ∀ b ∈ builds, IsKey b.key) (context : Context) (source options : String) (includePath : List String) :
    Leads (s.programOfBuilds context source options directory includePath builds)
      (fun _ w' => Left base Anything w w') (fun _ w' => Left base Eq w w') w := by
  refine ((stays_reportFound builds).leads w).bind ?_ fun _ _ => left_of_undisturbed
  intro _ w1 h1
  extract_lets missing whole
  split
  · refine ((stays_programFromBinaries context _ _).leads w1).bind ?_ ?_
    · exact fun _ w2 h => (left_of_undisturbed (trans _ _ _ h1 h)).mono fun _ _ _ => trivial
    · exact fun _ w2 h => left_of_undisturbed (trans _ _ _ h1 h)
  · rw [leads_bind, leads_markSource]
    have h2 : w.Undisturbed { w1 with tags := w1.tags + 1 } := trans _ _ _ h1 ⟨⟨rfl, rfl, rfl⟩, rfl⟩
    refine (leads_compileBuilds_all context _ options missing).bind ?_
      fun _ _ h => left_of_undisturbed (trans _ _ _ h2 h)
    rintro ⟨built, entries⟩ w3 ⟨h, hents⟩
    have h3 : w.Undisturbed w3 := trans _ _ _ h2 h
    have hnms : ∀ e ∈ entries, IsName e.key := by
      intro e he
      rw [show entries = _ from hents] at he
      obtain ⟨b, hb, rfl⟩ := mem_map.1 he
      exact (hkeys b (mem_of_mem_filter hb)).toIsName
    have hsave : ∀ program w4, w.Undisturbed w4 → Leads (do
        withLock directory (s.store directory (w1.markedSource source) includePath entries)
        return (⟨program, whole, false⟩ : CachedProgram)) (fun _ w' => Left base Anything w w')
        (fun _ w' => Left base Eq w w') w4 := by
      intro program w4 h4
      have hroot := h4.workingDirectory
      refine (leads_withLock_left (D := Anything) (hroot ▸ hdir) (hroot ▸ hbase) (fun _ => rfl)
        fun w5 hroot5 hw5 _ => ?_).bind (fun _ _ => (left_of_undisturbed h4).trans)
        fun _ _ => (left_of_undisturbed h4).trans
      rw [hroot] at hroot5
      exact leads_store hs (hroot5 ▸ hdir) (hroot5 ▸ hbase) (hw5 (h4.files ▸ hw)) hnms _ includePath
    dsimp only
    split
    · exact hsave built w3 h3
    · refine ((stays_programFromBinaries context _ _).leads w3).bind ?_ ?_
      · exact fun program w4 h => hsave program w4 (trans _ _ _ h3 h)
      · exact fun _ w4 h => left_of_undisturbed (trans _ _ _ h3 h)

def brokenOff : EntrySteps :=
  { EntrySteps.standard with
    fill := fun entry source _ _ => do
      writeEntryFile entry "source.cl" (.bytes (utf8 source))
      if (← get).files.directories.length == 3 then bare .value }

lemma confined_brokenOff : brokenOff.Confined :=
  { confined_standard with
    fill := fun _ _ _ _ => (stays_writeEntryFile isName_source _).bind fun _ => stays_get.bind fun _ =>
      Stays.ite (stays_fail _) (stays_pure _) }

def twoDevices : World := { platforms := [{ devices := [{}, { name := "b" }] }], workingDirectory := "/work" }

lemma rooted_twoDevices : twoDevices.files.Rooted where
  directory q hq := by
    have hnil : q = [] := by simpa [isDirectory, twoDevices] using hq
    rw [hnil]
    rfl
  file _ _ hf := by cases hf

def brokenProgram : Host CachedProgram := brokenOff.cachedProgram ⟨0, [⟨0, 0⟩, ⟨0, 1⟩]⟩ "" "" none "cache" []

end Host

end ClHost
