import ClHost.Program.Device
import ClHost.Proofs.Source.Includes

/-!
# Entries of the cache

The cache has files of its own: a lock file while it is in use, and one directory for each entry.
-/

namespace ClHost

open List FileTree ClHost.Path Text Source

/-! ## Names of entries -/

namespace Digest

def isHexDigit (c : Char) : Bool := c.isDigit || ('a' ≤ c && c ≤ 'f')

lemma toDigits_hex : ∀ n : Fin 256, (Nat.toDigits 16 n.val).all isHexDigit = true := by decide +kernel

lemma hexByte_digits (b : UInt8) : ∀ c ∈ (hexByte b).toList, isHexDigit c = true := by
  intro c hc
  rw [hexByte, padLeft, digits, String.toList_append, String.toList_ofList, String.toList_ofList, mem_append] at hc
  rcases hc with hc | hc
  · rw [eq_of_mem_replicate hc]
    decide
  · exact all_eq_true.1 (toDigits_hex b.toFin) c hc

variable (message : List UInt8)

lemma md5_digits : ∀ c ∈ (md5 message).toList, isHexDigit c = true := by
  intro c hc
  rw [md5, hex, String.toList_join, mem_flatMap] at hc
  obtain ⟨s, hs, hc⟩ := hc
  obtain ⟨b, -, rfl⟩ := mem_map.1 hs
  exact hexByte_digits b c hc

lemma md5_ne_empty : md5 message ≠ "" := by
  intro h
  rw [md5, hex] at h
  simp [bytesOf, hexByte, padLeft, digits] at h

lemma ne_md5 {s : String} {c : Char} (hc : c ∈ s.toList) (hdigit : isHexDigit c = false) (message : List UInt8) :
    md5 message ≠ s := by
  rintro rfl
  rw [md5_digits message c hc] at hdigit
  cases hdigit

lemma isName_md5 : IsName (md5 message) where
  ne_empty := md5_ne_empty message
  ne_dot := ne_md5 (c := '.') (by decide) (by decide) message
  ne_up := ne_md5 (c := '.') (by decide) (by decide) message
  no_slash := fun h => by
    have hdigit := md5_digits message '/' h
    revert hdigit
    decide

end Digest

/-! ## The files of the cache -/

structure IsKey (key : String) : Prop extends IsName key where
  ne_lock : key ≠ "lock"

lemma isKey_md5 (message : List UInt8) : IsKey (Digest.md5 message) :=
  ⟨Digest.isName_md5 message, Digest.ne_md5 (c := 'l') (by decide) (by decide) message⟩

def entryPaths (base : Path) (keys : List String) : List Path := keys.map fun key => base ++ [key]

variable {base : Path} {keys : List String} {t t' : FileTree}

lemma entryPaths_mono {more : List String} (h : keys ⊆ more) : entryPaths base keys ⊆ entryPaths base more :=
  map_subset _ h

lemma outside_base (base : Path) (keys : List String) : base.Outside (entryPaths base keys) := by
  intro d hd hsts
  have hlen := hsts.length_le
  obtain ⟨key, -, rfl⟩ := mem_map.1 hd
  rw [length_append, length_singleton] at hlen
  omega

lemma outside_entry {name : String} (hname : name ∉ keys) (rest : Path) :
    (base ++ name :: rest).Outside (entryPaths base keys) := by
  intro d hd hsts
  obtain ⟨key, hkey, rfl⟩ := mem_map.1 hd
  rw [prefix_append_right_inj, cons_prefix_cons] at hsts
  exact hname (hsts.1 ▸ hkey)

structure LockFree (t : FileTree) (base : Path) : Prop where
  isDirectory : t.isDirectory base = true
  file : t.file? (base ++ ["lock"]) = none
  directory : t.isDirectory (base ++ ["lock"]) = false

structure EntryHolds (t : FileTree) (base : Path) (key : String) (note : BuildNote) (binary : Bytes) : Prop where
  directory : t.isDirectory (base ++ [key]) = true
  note : ∃ time, t.file? (base ++ [key, "info"]) = some ⟨.note note, time⟩
  binary : ∃ time, t.file? (base ++ [key, "binary"]) = some ⟨.bytes binary, time⟩

section EntryHolds

variable {key : String} {note : BuildNote} {binary : Bytes}

lemma EntryHolds.of_eq (h : EntryHolds t base key note binary)
    (hdirectory : t'.isDirectory (base ++ [key]) = t.isDirectory (base ++ [key]))
    (hfile : ∀ name, t'.file? (base ++ [key, name]) = t.file? (base ++ [key, name])) :
    EntryHolds t' base key note binary := by
  obtain ⟨hdir, hnote, hbin⟩ := h
  rw [← hdirectory] at hdir
  rw [← hfile] at hnote hbin
  exact ⟨hdir, hnote, hbin⟩

lemma EntryHolds.congr (h : EntryHolds t base key note binary) (hkey : key ∉ keys)
    (hsame : SameOutside (entryPaths base keys) t t') : EntryHolds t' base key note binary :=
  h.of_eq (hsame.isDirectory _ (outside_entry hkey [])) fun name => hsame.file _ (outside_entry hkey [name])

end EntryHolds

lemma LockFree.congr (h : LockFree t base) (hkeys : "lock" ∉ keys) (hsame : SameOutside (entryPaths base keys) t t') :
    LockFree t' base := by
  have hout := @outside_entry base keys "lock" hkeys []
  constructor
  · rw [hsame.isDirectory _ (outside_base base keys)]
    exact h.isDirectory
  · rw [hsame.file _ hout]
    exact h.file
  · rw [hsame.isDirectory _ hout]
    exact h.directory

def lockFile : File := ⟨.bytes [], 0⟩

def Locks (base : Path) (t locked : FileTree) : Prop := t.write (base ++ ["lock"]) lockFile = .ok locked

section Locks

variable {base : Path} {keys : List String} {t t' locked locked' : FileTree}

lemma LockFree.exists_locks (h : LockFree t base) : ∃ locked, Locks base t locked :=
  exists_write h.directory (by rw [dropLast_concat]; exact h.isDirectory) lockFile

variable {key : String} {note : BuildNote} {binary : Bytes}

lemma Locks.entryHolds (h : Locks base t locked) :
    EntryHolds locked base key note binary ↔ EntryHolds t base key note binary := by
  have hfile : ∀ name, locked.file? (base ++ [key, name]) = t.file? (base ++ [key, name]) := fun name => by
    rw [file?_write h, if_neg (by simp)]
  have hdirectory := isDirectory_write h (base ++ [key])
  exact ⟨fun hholds => hholds.of_eq hdirectory.symm fun name => (hfile name).symm,
    fun hholds => hholds.of_eq hdirectory hfile⟩

lemma entryHolds_remove (h : locked.remove (base ++ ["lock"]) = .ok t)
    (hholds : EntryHolds locked base key note binary) : EntryHolds t base key note binary :=
  hholds.of_eq (isDirectory_remove h _) fun name => by rw [file?_remove h, if_neg (by simp)]

lemma Locks.sameOutside (h : Locks base t locked) (hfree : LockFree t base)
    (hsame : SameOutside (entryPaths base keys) locked locked')
    (hremove : locked'.remove (base ++ ["lock"]) = .ok t') : SameOutside (entryPaths base keys) t t' := by
  constructor
  · intro p hp
    rw [file?_remove hremove]
    split
    · rename_i heq
      rw [heq, hfree.file]
    · rename_i hne
      rw [hsame.file p hp, file?_write h, if_neg hne]
  · intro p hp
    rw [isDirectory_remove hremove, hsame.isDirectory p hp, isDirectory_write h]

lemma Locks.again {again : FileTree} (h : Locks base t locked) (hkeys : "lock" ∉ keys)
    (hsame : SameOutside (entryPaths base keys) locked locked')
    (hremove : locked'.remove (base ++ ["lock"]) = .ok t') (hagain : Locks base t' again) :
    SameOutside (entryPaths base keys) locked' again := by
  constructor
  · intro p hp
    rw [file?_write hagain, file?_remove hremove]
    split
    · rename_i heq
      rw [heq, hsame.file _ (outside_entry hkeys []), file?_write h, if_pos rfl]
    · rfl
  · intro p _
    rw [isDirectory_write hagain, isDirectory_remove hremove]

lemma Locks.congr (h : Locks base t locked) (h' : Locks base t' locked') {directories : List Path}
    (hsame : SameOutside directories t t') : SameOutside directories locked locked' := by
  constructor
  · intro p hp
    rw [file?_write h, file?_write h', hsame.file p hp]
  · intro p hp
    rw [isDirectory_write h, isDirectory_write h', hsame.isDirectory p hp]

end Locks

structure World.SameMachine (w w' : World) : Prop where
  workingDirectory : w'.workingDirectory = w.workingDirectory
  platforms : w'.platforms = w.platforms
  environment : w'.environment = w.environment

structure World.Undisturbed (w w' : World) : Prop extends w.SameMachine w' where
  files : w'.files = w.files

namespace World

lemma SameMachine.trans {w w' w'' : World} (h : w.SameMachine w') (h' : w'.SameMachine w'') : w.SameMachine w'' :=
  ⟨h'.workingDirectory.trans h.workingDirectory, h'.platforms.trans h.platforms, h'.environment.trans h.environment⟩

instance : Std.Refl Undisturbed := ⟨fun _ => ⟨⟨rfl, rfl, rfl⟩, rfl⟩⟩

instance : IsTrans World Undisturbed :=
  ⟨fun _ _ _ h h' => ⟨h.toSameMachine.trans h'.toSameMachine, h'.files.trans h.files⟩⟩

end World

namespace Host

variable {α : Type} {w : World}

/-! ## The lock -/

@[simp] lemma leads_locate {s : String} {Q : Path → World → Prop} {E : Fault → World → Prop} :
    Leads (locate s) Q E w ↔ Q (Path.locate w.workingDirectory s) w := Iff.rfl

variable {Q : Unit → World → Prop} {body : Host α}

lemma leads_changeFiles {f : FileTree → Result FileTree}
    (h : ∀ files, f w.files = .ok files → Q () { w with files }) : Leads (changeFiles f) Q Any w := by
  rw [changeFiles, leads_bind, leads_get]
  cases hf : f w.files with
  | error => trivial
  | ok files => exact h files hf

variable {Q : α → World → Prop} {locked t : FileTree} {name : String} {keys : List String} {e : CacheEntry}

lemma leads_onFailure {cleanup : Host Unit} (h : Leads body Q Any w) : Leads (onFailure body cleanup) Q Any w := by
  rw [onFailure, leads_bind, leads_attempt]
  refine h.mono (fun x w' hx => hx) fun e w' _ => ?_
  exact leads_any_bind fun _ _ => trivial

lemma isName_lock : IsName "lock" := by constructor <;> decide

lemma isName_info : IsName "info" := by constructor <;> decide

lemma isName_binary : IsName "binary" := by constructor <;> decide

lemma isName_source : IsName "source.cl" := by constructor <;> decide

lemma stays_warn (kind : WarningKind) (message : String) : Stays World.Undisturbed (warn kind message) :=
  stays_modify fun _ => ⟨⟨rfl, rfl, rfl⟩, rfl⟩

lemma leads_awaitLock {lock : String} : Leads (awaitLock lock) (fun _ _ => False) (fun _ w' => w.Undisturbed w') w :=
  ((stays_forIn (fun _ _ _ => (stays_warn _ _).map) ()).leads w).andThen fun _ _ h => h

variable {key directory : String} (hdir : Within w.workingDirectory directory)
  (hbase : Path.locate w.workingDirectory directory = base)

section Lock

include hdir hbase

lemma locate_entry (hname : IsName name) :
    Path.locate w.workingDirectory (Path.join directory name) = base ++ [name] := by
  rw [Path.locate_join hdir hname, hbase]

lemma locate_entryFile (hkey : IsName key) (hname : IsName name) :
    Path.locate w.workingDirectory (Path.join (Path.join directory key) name) = base ++ [key, name] := by
  rw [Path.locate_join (hdir.join hkey) hname, locate_entry hdir hbase hkey, append_assoc]
  rfl

lemma leads_takeLock : Leads (takeLock directory)
      (fun _ w' => LockFree w.files base ∧ ∃ files, Locks base w.files files ∧ w' = { w with files })
      (fun _ w' => ¬ LockFree w.files base ∧ w.Undisturbed w') w := by
  unfold takeLock
  simp only [leads_bind, leads_locate, leads_get, locate_entry hdir hbase isName_lock]
  split
  · rename_i htk
    refine leads_bind.2 (leads_awaitLock.mono (fun _ _ h => h.elim) fun _ _ h => ⟨fun hfree => ?_, h⟩)
    simp [hfree.file, hfree.directory, hfree.isDirectory] at htk
  · rename_i hfree
    rw [dropLast_concat] at hfree
    simp only [Bool.or_eq_true, not_or, Bool.not_eq_true, Option.isSome_eq_false_iff, Option.isNone_iff_eq_none,
      Bool.not_eq_false'] at hfree
    have hfree : LockFree w.files base := ⟨hfree.2, hfree.1.1, hfree.1.2⟩
    obtain ⟨files, hfls⟩ := hfree.exists_locks
    rw [changeFiles, leads_bind, leads_get, show w.files.write (base ++ ["lock"]) ⟨.bytes [], 0⟩ = _ from hfls]
    exact ⟨hfree, files, hfls, rfl⟩

lemma leads_withLock (h : LockFree w.files base → ∀ files, Locks base w.files files → Leads body (fun x w' =>
      w'.workingDirectory = w.workingDirectory ∧ ∀ files', w'.files.remove (base ++ ["lock"]) = .ok files' →
        Q x { w' with files := files' }) Any { w with files }) :
    Leads (withLock directory body) Q Any w := by
  refine (leads_takeLock hdir hbase).bind ?_
  rintro _ _ ⟨hfree, files, hfls, rfl⟩
  rw [ensure, leads_bind, leads_attempt]
  refine (h hfree files hfls).mono ?_ fun e w' _ => leads_any_bind fun _ _ => trivial
  rintro x w' ⟨hroot, hx⟩
  simp only [leads_bind, leads_locate, hroot, locate_entry hdir hbase isName_lock]
  exact leads_changeFiles hx

lemma withLock_of_free {x : α} (hfree : LockFree w.files base) (hlock : Locks base w.files locked)
    (hbody : Leads body (fun y w' => y = x ∧ w' = { w with files := locked }) Never
      { w with files := locked }) :
    Leads (withLock directory body) (fun y w' => y = x ∧ w' = w) Never w := by
  refine (leads_takeLock hdir hbase).bind ?_ fun _ _ h => h.1 hfree
  rintro _ _ ⟨-, files, hfls, rfl⟩
  obtain rfl : locked = files := Except.ok.inj (hlock.symm.trans hfls)
  rw [ensure, leads_bind, leads_attempt]
  refine hbody.mono ?_
  rintro _ _ ⟨rfl, rfl⟩
  have hremove := remove_write hfree.file hlock
  simp only [leads_bind, leads_locate, locate_entry hdir hbase isName_lock, changeFiles, leads_get, hremove,
    leads_lift_ok, leads_set, and_self]

end Lock

/-! ## Finding an entry -/

lemma leads_resetEntry (entry : String) : Leads (resetEntry entry) (fun _ w' => ∃ files, w' = { w with files } ∧
    SameOutside [Path.locate w.workingDirectory entry] w.files files) Any w := by
  rw [resetEntry, leads_bind]
  refine leads_changeFiles fun files hfls => ⟨files, rfl, ?_⟩
  obtain ⟨erased, herase, hmake⟩ := of_bind_ok hfls
  exact (sameOutside_eraseDirectory herase).trans (sameOutside_makeDirectory hmake)

lemma leads_entryNote? (entry : String) : Leads (entryNote? entry) (fun n w' => w' = w ∧ ∀ note, n = some note →
    ∃ time, w.files.file? (Path.locate w.workingDirectory (Path.join entry "info")) = some ⟨.note note, time⟩)
    Any w := by
  unfold entryNote?
  simp only [leads_bind, leads_get, leads_locate]
  split
  · rename_i n time hfile
    refine ⟨rfl, fun note hnote => ?_⟩
    cases hnote
    exact ⟨time, hfile⟩
  · exact ⟨rfl, fun note hnote => by cases hnote⟩
  · trivial
  · exact ⟨rfl, fun note hnote => by cases hnote⟩

def Usable (t : FileTree) (root : String) (base : Path) (key : String) (found : Bytes × String) : Prop :=
  LockFree t base ∧ ∃ note locked, EntryHolds t base key note found.1 ∧ note.log = found.2 ∧ Locks base t locked ∧
    areCurrent locked root note.dependencies = .ok true

lemma exists_of_read {p : Path} {b : Bytes} (h : t.read p = .ok b) : ∃ time, t.file? p = some ⟨.bytes b, time⟩ := by
  unfold FileTree.read at h
  split at h
  · rename_i time hfile
    cases h
    exact ⟨time, hfile⟩
  · cases h
  · split at h <;> cases h

include hdir hbase in
lemma leads_retrieve (hkey : IsKey key) : Leads (retrieve directory key) (fun r w' =>
      (∃ files warnings, w' = { w with files, warnings }) ∧ SameOutside (entryPaths base [key]) w.files w'.files ∧
      ∀ found, r = some found → w' = w ∧ Usable w.files w.workingDirectory base key found) Any w := by
  unfold retrieve
  simp only [leads_bind, leads_get, leads_locate]
  split
  · refine ⟨⟨w.files, w.warnings, rfl⟩, SameOutside.refl _ _, fun found hfnd => by cases hfnd⟩
  · rename_i hentry
    refine leads_withLock hdir hbase fun hfree locked hlock => ?_
    refine (leads_entryNote? _).andThen ?_
    rintro n _ ⟨rfl, hn⟩
    have hreset : Leads (resetEntry (join directory key)) (fun _ w' => ∃ files, w' = { w with files } ∧
        SameOutside (entryPaths base [key]) locked files)
        Any { w with files := locked } := by
      refine (leads_resetEntry _).imp ?_
      rintro _ _ ⟨files, rfl, hsame⟩
      rw [locate_entry hdir hbase hkey.toIsName] at hsame
      exact ⟨files, rfl, hsame⟩
    cases n with
    | none =>
      refine leads_bind.2 (hreset.imp ?_)
      rintro _ _ ⟨files, rfl, hsame⟩
      simp only [warn, leads_bind, leads_modify, leads_pure]
      refine ⟨trivial, fun files' hfls' => ⟨⟨files', _, rfl⟩, ?_, fun found hfnd => by cases hfnd⟩⟩
      exact hlock.sameOutside hfree hsame hfls'
    | some note =>
      obtain ⟨time, hnote⟩ := hn note rfl
      simp only [leads_bind, leads_get, leads_locate]
      rw [locate_entryFile hdir hbase hkey.toIsName isName_info] at hnote
      rw [locate_entryFile hdir hbase hkey.toIsName isName_binary]
      cases hread : locked.read (base ++ [key, "binary"]) with
      | error => trivial
      | ok binary =>
        cases hcur : areCurrent locked w.workingDirectory note.dependencies with
        | error => trivial
        | ok current =>
          cases current with
          | false =>
            show Leads (resetEntry (Path.join directory key) >>= fun _ => pure none) _ _ _
            refine leads_bind.2 (hreset.imp ?_)
            rintro _ _ ⟨files, rfl, hsame⟩
            refine ⟨rfl, fun files' hfls' => ⟨⟨files', _, rfl⟩, ?_, fun found hfnd => by cases hfnd⟩⟩
            exact hlock.sameOutside hfree hsame hfls'
          | true =>
            refine ⟨rfl, fun files' hfls' => ?_⟩
            obtain rfl : w.files = files' := by
              rw [remove_write hfree.file hlock] at hfls'
              exact Except.ok.inj hfls'
            refine ⟨⟨w.files, w.warnings, rfl⟩, SameOutside.refl _ _, fun found hfnd => ⟨rfl, hfree, ?_⟩⟩
            cases hfnd
            have hholds : EntryHolds locked base key note binary := by
              refine ⟨?_, ⟨time, hnote⟩, exists_of_read hread⟩
              rw [isDirectory_write hlock, ← locate_entry hdir hbase hkey.toIsName]
              simpa using hentry
            exact ⟨note, locked, hlock.entryHolds.1 hholds, rfl, hlock, hcur⟩

include hdir hbase in
lemma retrieve_of_usable (hkey : IsKey key) {found : Bytes × String}
    (h : Usable w.files w.workingDirectory base key found) :
    Leads (retrieve directory key) (fun r w' => r = some found ∧ w' = w) Never w := by
  obtain ⟨hfree, note, locked, hholds, hlog, hlock, hcur⟩ := h
  obtain ⟨binary, log⟩ := found
  obtain rfl : note.log = log := hlog
  unfold retrieve
  simp only [leads_bind, leads_get, leads_locate]
  rw [locate_entry hdir hbase hkey.toIsName, hholds.directory]
  refine withLock_of_free hdir hbase hfree hlock ?_
  obtain ⟨-, ⟨time, hnote⟩, ⟨time', hbin⟩⟩ := hlock.entryHolds.2 hholds
  simp only [entryNote?, leads_bind, leads_get, leads_locate, locate_entryFile hdir hbase hkey.toIsName isName_info, hnote,
    leads_pure, locate_entryFile hdir hbase hkey.toIsName isName_binary, FileTree.read, hbin, leads_lift_ok, hcur]
  exact ⟨rfl, rfl⟩

/-! ## Storing entries -/

/-- An entry holds a binary and a log, with dependencies that were current where only some directories have changed
since. -/
def Written (t : FileTree) (root : String) (base : Path) (directories : List Path) (e : CacheEntry) : Prop :=
  ∃ note before, EntryHolds t base e.key note e.binary ∧ note.log = e.log ∧
    SameOutside directories before t ∧ areCurrent before root note.dependencies = .ok true

lemma Written.congr {t' : FileTree} {root : String} {more : List String}
    (h : Written t root base (entryPaths base more) e) (he : e.key ∉ keys) (hsub : keys ⊆ more)
    (hsame : SameOutside (entryPaths base keys) t t') : Written t' root base (entryPaths base more) e := by
  obtain ⟨note, before, hholds, hlog, hbef, hcur⟩ := h
  exact ⟨note, before, hholds.congr he hsame, hlog, hbef.trans (hsame.mono (entryPaths_mono hsub)), hcur⟩

lemma leads_withEntry {entry : String}
    (h : ∀ files, SameOutside [Path.locate w.workingDirectory entry] w.files files → Leads body Q Any { w with files })
    : Leads (withEntry entry body) Q Any w := by
  unfold withEntry
  simp only [leads_bind, leads_locate, leads_get]
  split
  · rename_i tree htree
    exact leads_onFailure (h tree (sameOutside_makeDirectory htree))
  · exact h w.files (SameOutside.refl _ _)

include hdir hbase in
lemma leads_writeEntryFile (hkey : IsName key) (hname : IsName name) (content : FileContent) :
    Leads (writeEntryFile (join directory key) name content) (fun _ w' => ∃ files, w' = { w with files } ∧
      w.files.write (base ++ [key, name]) ⟨content, 0⟩ = .ok files) Any w := by
  rw [writeEntryFile, leads_bind, leads_locate, locate_entryFile hdir hbase hkey hname]
  exact leads_changeFiles fun files hfls => ⟨files, rfl, hfls⟩

include hdir hbase in
lemma leads_fillEntry (hkey : IsName e.key) (source : String) (includePath : List String) :
    Leads (fillEntry (join directory e.key) source includePath e) (fun _ w' => ∃ files, w' = { w with files } ∧
      SameOutside (entryPaths base [e.key]) w.files files ∧ Written files w.workingDirectory base
        (entryPaths base [e.key]) e) Any w := by
  have hin : ∀ name, base ++ [e.key] <+: base ++ [e.key, name] := fun name => ⟨[name], by simp⟩
  refine (leads_writeEntryFile hdir hbase hkey isName_source _).andThen ?_
  rintro _ _ ⟨files1, rfl, h1⟩
  refine (leads_writeEntryFile (w := { w with files := files1 }) hdir hbase hkey isName_binary _).andThen ?_
  rintro _ _ ⟨files2, rfl, h2⟩
  refine (leads_writeEntryFile (w := { w with files := files2 }) hdir hbase hkey isName_info _).andThen ?_
  rintro _ _ ⟨files3, rfl, h3⟩
  simp only [leads_bind, leads_get]
  cases hdeps : dependencies files3 w.workingDirectory source includePath with
  | error => trivial
  | ok dependencies =>
    refine (leads_writeEntryFile (w := { w with files := files3 }) hdir hbase hkey isName_info _).imp ?_
    rintro _ _ ⟨files4, rfl, h4⟩
    have hsame4 := sameOutside_write (hin "info") h4
    refine ⟨files4, rfl, ?_, ⟨dependencies, e.log⟩, files3, ⟨?_, ⟨0, ?_⟩, ⟨0, ?_⟩⟩, rfl, hsame4,
      areCurrent_dependencies hdeps⟩
    · exact (sameOutside_write (hin "source.cl") h1).trans <| (sameOutside_write (hin "binary") h2).trans <|
        (sameOutside_write (hin "info") h3).trans hsame4
    · rw [isDirectory_write h4]
      have hpar := (write_cases h4).2.1
      rwa [dropLast_append_cons] at hpar
    · rw [file?_write h4, if_pos rfl]
    · rw [file?_write h4, if_neg (by simp), file?_write h3, if_neg (by simp), file?_write h2, if_pos rfl]

include hdir hbase in
lemma leads_storeEntries {entries : List CacheEntry} (hkeys : ∀ e ∈ entries, IsName e.key)
    (hsub : entries.map (·.key) ⊆ keys) (source : String) (includePath : List String) :
    Leads (storeEntries directory source includePath entries) (fun _ w' => ∃ files, w' = { w with files } ∧
      SameOutside (entryPaths base (entries.map (·.key))) w.files files ∧
      ∀ key e, entries.reverse.find? (·.key == key) = some e → Written files w.workingDirectory
        base (entryPaths base keys) e) Any w := by
  induction entries generalizing w with
  | nil => exact ⟨w.files, rfl, SameOutside.refl _ _, fun key e he => by simp at he⟩
  | cons e rest ih =>
    rw [forall_mem_cons] at hkeys
    rw [map_cons, cons_subset] at hsub
    refine leads_withEntry fun files0 hsame0 => ?_
    rw [locate_entry hdir hbase hkeys.1] at hsame0
    refine (leads_fillEntry (w := { w with files := files0 }) hdir hbase hkeys.1 source includePath).andThen ?_
    rintro _ _ ⟨files1, rfl, hsame1, hwr⟩
    refine (ih (w := { w with files := files1 }) hdir hbase hkeys.2 hsub.2).imp ?_
    rintro _ _ ⟨files2, rfl, hsame2, hrest⟩
    have hfst : [e.key] ⊆ e.key :: rest.map (·.key) := by simp
    refine ⟨files2, rfl, ?_, ?_⟩
    · exact (hsame0.trans hsame1 |>.mono (entryPaths_mono hfst)).trans
        (hsame2.mono (entryPaths_mono (subset_cons_self _ _)))
    · intro key e' he'
      rw [reverse_cons, find?_append] at he'
      rcases Option.or_eq_some_iff.1 he' with he' | ⟨hnone, he'⟩
      · exact hrest key e' he'
      · -- The first entry is the last one of its name, so that no later one has changed it.
        obtain ⟨heq, rfl⟩ : e.key = key ∧ e = e' := by simpa using he'
        have hlast : e.key ∉ rest.map (·.key) := by
          intro hmem
          obtain ⟨e', he', hkey⟩ := mem_map.1 hmem
          rw [find?_eq_none] at hnone
          exact hnone e' (mem_reverse.2 he') (by simpa [heq] using hkey)
        obtain ⟨note, before, hholds, hlog, hbef, hcur⟩ := hwr
        have hmore : Written files1 w.workingDirectory base (entryPaths base keys) e :=
          ⟨note, before, hholds, hlog, hbef.mono (entryPaths_mono (by simpa using hsub.1)), hcur⟩
        exact hmore.congr hlast hsub.2 hsame2

end Host

end ClHost
