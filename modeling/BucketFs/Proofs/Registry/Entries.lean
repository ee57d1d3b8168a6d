import BucketFs.Registry.Basic
import Mathlib.Data.List.Nodup

/-!
# The entries of a registry

* `Registry.Sound` — the entries are the open filesystems, one for each key.
* `Registry.openWith_opening` — all that an opening can come to.
* `Registry.Sound.enter`, `Registry.Sound.close` — what changes a registry keeps it sound.
* `Registry.Sound.find_found`, `Registry.Sound.find_missing_iff` — what a search by host comes to.
* `Registry.pathWith_search` — all that a search for a path can come to.
-/

namespace BucketFs

/-! ## Errors of the parts -/

theorem Uri.parse_error {uri : String} {e : FsError} (h : Uri.parse uri = .error e) :
    ∃ fault, e = .invalidArgument fault := by
  unfold Uri.parse at h
  simp only [bind, Except.bind] at h
  split at h
  · split at h
    · cases h
      exact ⟨_, rfl⟩
    · split at h
      · cases h
        exact ⟨_, rfl⟩
      · split at h
        · cases h
          exact ⟨_, rfl⟩
        · cases h
  · cases h
    exact ⟨_, rfl⟩

theorem Settings.check_error {c : Settings} {e : FsError} (h : c.check = .error e) :
    ∃ fault, e = .invalidArgument fault := by
  unfold check at h
  split at h
  · cases h
    exact ⟨_, rfl⟩
  · split at h
    · cases h
      exact ⟨_, rfl⟩
    · cases h

namespace Registry

/-- How a factory acts on a registry while a filesystem is opened. -/
abbrev Create := String → Settings → Registry → Result StoreId × Registry

/-! ## Open filesystems -/

/-- Whether a filesystem of a key is open. -/
def HasOpen (reg : Registry) (key : FsKey) : Prop :=
  ∃ id fs, reg.fileSystem? id = some fs ∧ fs.isOpen = true ∧ fs.key = key

/-- Whether a filesystem of a host is open. -/
def HasOpenHost (reg : Registry) (host : String) : Prop :=
  ∃ key, reg.HasOpen key ∧ key.host = host

/-- A registry whose entries are the open filesystems, one for each key. -/
structure Sound (reg : Registry) : Prop where
  entry_open : ∀ key id, (key, id) ∈ reg.entries →
    ∃ fs, reg.fileSystem? id = some fs ∧ fs.isOpen = true ∧ fs.key = key
  open_entered : ∀ id fs, reg.fileSystem? id = some fs → fs.isOpen = true →
    (fs.key, id) ∈ reg.entries
  keys_nodup : (reg.entries.map (·.1)).Nodup

theorem sound_new (base : Settings) : (new base).Sound :=
  ⟨fun _ _ h => (List.not_mem_nil h).elim, fun _ _ h => (Option.some_ne_none _ h.symm).elim,
    List.nodup_nil⟩

section Sound

variable {reg : Registry} {key : FsKey} {id : FsId}

theorem mem_of_get? (h : reg.get? key = some id) : (key, id) ∈ reg.entries := by
  obtain ⟨before, after, heq, -⟩ := List.lookup_eq_some_iff.1 h
  rw [heq]
  exact List.mem_append_right _ List.mem_cons_self

theorem get?_eq_none_iff : reg.get? key = none ↔ ∀ id, (key, id) ∉ reg.entries := by
  rw [get?, List.lookup_eq_none_iff]
  constructor
  · intro h id hmem
    simpa using h (key, id) hmem
  · intro h p hp
    have hne : key ≠ p.1 := by
      rintro rfl
      exact h p.2 hp
    simpa using hne

/-- Only the filesystems and the entries matter. -/
theorem Sound.congr {reg' : Registry} (h : reg.Sound) (hfs : reg'.fileSystems = reg.fileSystems)
    (hentries : reg'.entries = reg.entries) : reg'.Sound := by
  obtain ⟨hopen, hentered, hnodup⟩ := h
  unfold fileSystem? at hopen hentered
  refine ⟨?_, ?_, ?_⟩
  · unfold fileSystem?
    rwa [hfs, hentries]
  · unfold fileSystem?
    rwa [hfs, hentries]
  · rwa [hentries]

variable (h : reg.Sound)
include h

/-- **One entry for each key.** -/
theorem Sound.entry_unique {id' : FsId} (hid : (key, id) ∈ reg.entries)
    (hid' : (key, id') ∈ reg.entries) : id = id' :=
  congrArg Prod.snd (List.inj_on_of_nodup_map h.keys_nodup hid hid' rfl)

theorem Sound.get?_eq_some_iff : reg.get? key = some id ↔ (key, id) ∈ reg.entries := by
  refine ⟨mem_of_get?, fun hmem => ?_⟩
  cases hget : reg.get? key with
  | none => exact absurd hmem (get?_eq_none_iff.1 hget id)
  | some id' => rw [h.entry_unique (mem_of_get? hget) hmem]

/-- A filesystem of a key is open if the key has an entry. -/
theorem Sound.hasOpen_iff : reg.HasOpen key ↔ ∃ id, reg.get? key = some id := by
  constructor
  · rintro ⟨id, fs, hfs, hopen, rfl⟩
    exact ⟨id, h.get?_eq_some_iff.2 (h.open_entered id fs hfs hopen)⟩
  · rintro ⟨id, hget⟩
    exact ⟨id, h.entry_open key id (mem_of_get? hget)⟩

theorem Sound.not_hasOpen_iff : ¬ reg.HasOpen key ↔ reg.get? key = none := by
  rw [h.hasOpen_iff, Option.eq_none_iff_forall_ne_some, not_exists]

end Sound

/-! ## Opening -/

/-- The registry when a factory is asked for a store. -/
def asking (reg : Registry) (host : String) (settings : Settings) : Registry :=
  { reg with requests := reg.requests ++ [(host, settings)] }

/-- The registry with a new filesystem, which is open, and its entry. -/
def enter (reg : Registry) (key : FsKey) (settings : Settings) (store : StoreId) : Registry :=
  { (reg.addFileSystem key settings store).2 with
    entries := reg.entries ++ [(key, reg.fileSystems.length)] }

/-- Whether a URI and a map of settings are valid, with the host and the settings that they make. -/
structure Accepts (reg : Registry) (uri : String) (env : Environment) (host : String)
    (settings : Settings) : Prop where
  parsed : ∃ path, Uri.parse uri = .ok ⟨host, path⟩
  settings_eq : settings = reg.base.overlay env
  checked : settings.check = .ok ()

theorem Accepts.unique {reg : Registry} {uri : String} {env : Environment} {host host' : String}
    {settings settings' : Settings} (h : reg.Accepts uri env host settings)
    (h' : reg.Accepts uri env host' settings') : host = host' ∧ settings = settings' := by
  obtain ⟨path, hpath⟩ := h.parsed
  obtain ⟨path', hpath'⟩ := h'.parsed
  rw [hpath] at hpath'
  cases hpath'
  exact ⟨rfl, h.settings_eq.trans h'.settings_eq.symm⟩

/-- All that an opening can come to. -/
inductive Opening (reg : Registry) (uri : String) (env : Environment) (create : Create) :
    Result FsId × Registry → Prop
  /-- The URI or the settings are not valid. -/
  | invalid {fault : ArgumentFault}
      (refused : ∀ host settings, ¬ reg.Accepts uri env host settings) :
      Opening reg uri env create (.error (.invalidArgument fault), reg)
  /-- The key has an entry. -/
  | taken {host : String} {settings : Settings} {id : FsId}
      (accepts : reg.Accepts uri env host settings)
      (entered : reg.get? (.ofSettings host settings) = some id) :
      Opening reg uri env create
        (.error (.alreadyExists (FsKey.ofSettings host settings).uri), reg)
  /-- The factory fails. -/
  | failed {host : String} {settings : Settings} {e : FsError} {reg' : Registry}
      (accepts : reg.Accepts uri env host settings)
      (free : reg.get? (.ofSettings host settings) = none)
      (asked : create host settings (reg.asking host settings) = (.error e, reg')) :
      Opening reg uri env create (.error e, reg')
  /-- The key has an entry once the factory has answered. -/
  | overtaken {host : String} {settings : Settings} {store : StoreId} {reg' : Registry} {id : FsId}
      (accepts : reg.Accepts uri env host settings)
      (free : reg.get? (.ofSettings host settings) = none)
      (asked : create host settings (reg.asking host settings) = (.ok store, reg'))
      (entered : reg'.get? (.ofSettings host settings) = some id) :
      Opening reg uri env create
        (.error (.alreadyExists (FsKey.ofSettings host settings).uri), reg')
  /-- A new filesystem is entered. -/
  | opened {host : String} {settings : Settings} {store : StoreId} {reg' : Registry}
      (accepts : reg.Accepts uri env host settings)
      (free : reg.get? (.ofSettings host settings) = none)
      (asked : create host settings (reg.asking host settings) = (.ok store, reg'))
      (still : reg'.get? (.ofSettings host settings) = none) :
      Opening reg uri env create
        (.ok reg'.fileSystems.length, reg'.enter (.ofSettings host settings) settings store)

theorem openWith_opening (reg : Registry) (uri : String) (env : Environment) (create : Create) :
    Opening reg uri env create (reg.openWith uri env create) := by
  unfold openWith
  cases hparse : Uri.parse uri with
  | error e =>
    obtain ⟨fault, rfl⟩ := Uri.parse_error hparse
    refine .invalid fun host settings haccepts => ?_
    obtain ⟨path, hpath⟩ := haccepts.parsed
    rw [hparse] at hpath
    cases hpath
  | ok parsed =>
    dsimp only
    cases hcheck : (reg.base.overlay env).check with
    | error e =>
      obtain ⟨fault, rfl⟩ := Settings.check_error hcheck
      refine .invalid fun host settings haccepts => ?_
      have hchecked := haccepts.checked
      rw [haccepts.settings_eq, hcheck] at hchecked
      cases hchecked
    | ok _ =>
      have haccepts : reg.Accepts uri env parsed.host (reg.base.overlay env) :=
        ⟨⟨parsed.path, hparse⟩, rfl, hcheck⟩
      dsimp only
      cases hget : reg.get? (.ofSettings parsed.host (reg.base.overlay env)) with
      | some id => exact .taken haccepts hget
      | none =>
        dsimp only
        cases hasked : create parsed.host (reg.base.overlay env)
            (reg.asking parsed.host (reg.base.overlay env)) with
        | mk answer reg' =>
          rw [asking] at hasked
          rw [hasked]
          cases answer with
          | error e => exact .failed haccepts hget hasked
          | ok store =>
            dsimp only
            cases hstill : reg'.get? (.ofSettings parsed.host (reg.base.overlay env)) with
            | some id => exact .overtaken haccepts hget hasked hstill
            | none => exact .opened haccepts hget hasked hstill

section Change

variable {reg : Registry} {key : FsKey} {settings : Settings} {store : StoreId} {id : FsId}

theorem enter_fileSystem? (reg : Registry) (key : FsKey) (settings : Settings) (store : StoreId)
    (id : FsId) :
    (reg.enter key settings store).fileSystem? id =
      if id = reg.fileSystems.length then
        some ⟨reg.fileSystems.length, key, settings, ⟨reg.fileSystems.length, store⟩, true⟩
      else reg.fileSystem? id := by
  simp only [fileSystem?, enter, addFileSystem]
  by_cases hid : id = reg.fileSystems.length
  · rw [if_pos hid, hid, List.getElem?_concat_length]
  · rw [if_neg hid, List.getElem?_append]
    split
    · rfl
    · rename_i hge
      have hlt : reg.fileSystems.length < id := Nat.lt_of_le_of_ne (Nat.not_lt.1 hge) (Ne.symm hid)
      rw [List.getElem?_eq_none (Nat.sub_pos_of_lt hlt), List.getElem?_eq_none (Nat.le_of_lt hlt)]

/-- The filesystem that is next to be made is not there yet. -/
theorem fileSystem?_length (reg : Registry) : reg.fileSystem? reg.fileSystems.length = none :=
  List.getElem?_eq_none (Nat.le_refl _)

/-- **A new filesystem under a free key** leaves the registry sound. -/
theorem Sound.enter (h : reg.Sound) (hfree : reg.get? key = none) (settings : Settings)
    (store : StoreId) : (reg.enter key settings store).Sound := by
  have hentries : (reg.enter key settings store).entries =
      reg.entries ++ [(key, reg.fileSystems.length)] := rfl
  refine ⟨fun key' id hmem => ?_, fun id fs hfs hopen => ?_, ?_⟩
  · rw [hentries, List.mem_append, List.mem_singleton] at hmem
    rw [enter_fileSystem?]
    rcases hmem with hmem | heq
    · obtain ⟨fs, hfs, hopen, hkey⟩ := h.entry_open key' id hmem
      have hid : id ≠ reg.fileSystems.length := by
        rintro rfl
        rw [fileSystem?_length] at hfs
        cases hfs
      exact ⟨fs, by rw [if_neg hid, hfs], hopen, hkey⟩
    · cases heq
      exact ⟨_, if_pos rfl, rfl, rfl⟩
  · rw [enter_fileSystem?] at hfs
    rw [hentries, List.mem_append, List.mem_singleton]
    split at hfs
    · rename_i hid
      cases hfs
      rw [hid]
      exact .inr rfl
    · exact .inl (h.open_entered id fs hfs hopen)
  · rw [hentries, List.map_append, List.map_singleton, List.nodup_append]
    refine ⟨h.keys_nodup, List.nodup_singleton _, fun key₁ hkey₁ key₂ hkey₂ heq => ?_⟩
    obtain ⟨e, hmem, rfl⟩ := List.mem_map.1 hkey₁
    obtain rfl : e.1 = key := heq.trans (List.mem_singleton.1 hkey₂)
    exact get?_eq_none_iff.1 hfree e.2 hmem

/-- **What an opening leaves is sound**, if the factory leaves the registry sound. -/
theorem Sound.opening {uri : String} {env : Environment} {create : Create}
    {out : Result FsId × Registry} (h : reg.Sound)
    (hasked : ∀ host settings, (create host settings (reg.asking host settings)).2.Sound)
    (hopening : Opening reg uri env create out) : out.2.Sound := by
  cases hopening with
  | invalid refused => exact h
  | taken accepts entered => exact h
  | @failed host settings _ _ accepts free asked =>
    have hsound := hasked host settings
    rwa [asked] at hsound
  | @overtaken host settings _ _ _ accepts free asked entered =>
    have hsound := hasked host settings
    rwa [asked] at hsound
  | @opened host settings store _ accepts free asked still =>
    have hsound := hasked host settings
    rw [asked] at hsound
    exact hsound.enter still settings store

/-! ## Closing -/

theorem close_fileSystem? (reg : Registry) (id id' : FsId) :
    (reg.close id).fileSystem? id' =
      if id' = id then (reg.fileSystem? id).map fun fs => { fs with isOpen := false }
      else reg.fileSystem? id' := by
  unfold close
  cases hfs : reg.fileSystem? id with
  | none =>
    dsimp only
    split
    · rename_i hid
      rw [hid, hfs]
      rfl
    · rfl
  | some fs =>
    dsimp only
    cases hopen : fs.isOpen with
    | false =>
      rw [if_neg Bool.false_ne_true]
      split
      · rename_i hid
        rw [hid, hfs, Option.map_some, ← hopen]
      · rfl
    | true =>
      rw [if_pos rfl]
      have hlt : id < reg.fileSystems.length := (List.getElem?_eq_some_iff.1 hfs).1
      simp only [fileSystem?]
      by_cases hid : id' = id
      · rw [if_pos hid, hid, List.getElem?_set_self hlt]
        rfl
      · rw [if_neg hid, List.getElem?_set_ne (Ne.symm hid)]

/-- **Closing takes away the entry of the filesystem** and no other one, not even of its key. -/
theorem Sound.mem_close_entries (h : reg.Sound) {id id' : FsId} :
    (key, id') ∈ (reg.close id).entries ↔ (key, id') ∈ reg.entries ∧ id' ≠ id := by
  unfold close
  cases hfs : reg.fileSystem? id with
  | none =>
    dsimp only
    refine ⟨fun hmem => ⟨hmem, ?_⟩, And.left⟩
    rintro rfl
    obtain ⟨fs, hfs', -⟩ := h.entry_open key id' hmem
    rw [hfs] at hfs'
    cases hfs'
  | some fs =>
    dsimp only
    cases hopen : fs.isOpen with
    | false =>
      rw [if_neg Bool.false_ne_true]
      refine ⟨fun hmem => ⟨hmem, ?_⟩, And.left⟩
      rintro rfl
      obtain ⟨fs', hfs', hopen', -⟩ := h.entry_open key id' hmem
      rw [hfs] at hfs'
      cases hfs'
      rw [hopen] at hopen'
      cases hopen'
    | true =>
      rw [if_pos rfl]
      simp only [List.mem_filter, decide_eq_true_eq]
      refine and_congr_right fun hmem => not_congr ⟨fun heq => congrArg Prod.snd heq, ?_⟩
      rintro rfl
      obtain ⟨fs', hfs', -, rfl⟩ := h.entry_open key id' hmem
      rw [hfs] at hfs'
      cases hfs'
      rfl

theorem close_entries_sublist (reg : Registry) (id : FsId) :
    (reg.close id).entries.Sublist reg.entries := by
  unfold close
  split
  · exact .refl _
  · split
    · exact List.filter_sublist
    · exact .refl _

/-- **Closing leaves the registry sound.** -/
theorem Sound.close (h : reg.Sound) (id : FsId) : (reg.close id).Sound := by
  refine ⟨fun key id' hmem => ?_, fun id' fs hfs hopen => ?_, ?_⟩
  · obtain ⟨hmem, hne⟩ := h.mem_close_entries.1 hmem
    rw [close_fileSystem?, if_neg hne]
    exact h.entry_open key id' hmem
  · rw [close_fileSystem?] at hfs
    split at hfs
    · obtain ⟨fs', -, rfl⟩ := Option.map_eq_some_iff.1 hfs
      cases hopen
    · rename_i hne
      exact h.mem_close_entries.2 ⟨h.open_entered id' fs hfs hopen, hne⟩
  · exact h.keys_nodup.sublist ((close_entries_sublist reg id).map _)

/-- **Closing again does nothing.** -/
theorem close_close (reg : Registry) (id : FsId) : (reg.close id).close id = reg.close id := by
  have hfs := close_fileSystem? reg id id
  rw [if_pos rfl] at hfs
  generalize reg.close id = after at hfs
  unfold close
  cases hold : reg.fileSystem? id with
  | none =>
    rw [hold, Option.map_none] at hfs
    rw [hfs]
  | some fs =>
    rw [hold, Option.map_some] at hfs
    rw [hfs]
    rfl

end Change

/-! ## Searching by host -/

section Find

variable {reg : Registry} {uri : String} (h : reg.Sound)
include h

/-- **What a search finds is open**, and serves the host. -/
theorem Sound.find_found {id : FsId} (hfind : reg.find uri = .ok id) :
    ∃ parsed fs, Uri.parse uri = .ok parsed ∧ reg.fileSystem? id = some fs ∧ fs.isOpen = true ∧
      fs.key.host = parsed.host := by
  unfold find at hfind
  cases hparse : Uri.parse uri with
  | error e =>
    rw [hparse] at hfind
    cases hfind
  | ok parsed =>
    rw [hparse] at hfind
    simp only [bind, Except.bind] at hfind
    split at hfind
    · rename_i hget
      cases hfind
      obtain ⟨fs, hfs, hopen, hkey⟩ := h.entry_open _ id (mem_of_get? hget)
      exact ⟨parsed, fs, rfl, hfs, hopen, by rw [hkey]; rfl⟩
    · split at hfind
      · rename_i entry hentry
        cases hfind
        have hhost := List.find?_some hentry
        obtain ⟨fs, hfs, hopen, hkey⟩ :=
          h.entry_open entry.1 entry.2 (List.mem_of_find?_eq_some hentry)
        exact ⟨parsed, fs, rfl, hfs, hopen, by rw [hkey]; simpa using hhost⟩
      · cases hfind

/-- **A search comes back empty** if no filesystem of the host is open. -/
theorem Sound.find_missing_iff {target : String} :
    reg.find uri = .error (.fileSystemNotFound target) ↔
      target = uri ∧ ∃ parsed, Uri.parse uri = .ok parsed ∧ ¬ reg.HasOpenHost parsed.host := by
  cases hparse : Uri.parse uri with
  | error e =>
    obtain ⟨fault, rfl⟩ := Uri.parse_error hparse
    simp [find, hparse, bind, Except.bind]
  | ok parsed =>
    have hnone : (∀ e ∈ reg.entries, (e.1.host == parsed.host) = false) ↔
        ¬ reg.HasOpenHost parsed.host := by
      constructor
      · rintro hall ⟨key, ⟨id, fs, hfs, hopen, rfl⟩, hhost⟩
        have hne := hall _ (h.open_entered id fs hfs hopen)
        simp [hhost] at hne
      · intro hno e he
        rw [beq_eq_false_iff_ne]
        exact fun hhost => hno ⟨e.1, ⟨e.2, h.entry_open e.1 e.2 he⟩, hhost⟩
    simp only [find, hparse, bind, Except.bind]
    constructor
    · intro hfind
      split at hfind
      · cases hfind
      · split at hfind
        · cases hfind
        · rename_i hentry
          cases hfind
          refine ⟨rfl, parsed, rfl, hnone.1 fun e he => ?_⟩
          simpa using List.find?_eq_none.1 hentry e he
    · rintro ⟨rfl, _, hok, hno⟩
      cases hok
      rw [← hnone] at hno
      have hget : reg.get? (.ofSettings parsed.host reg.base) = none := by
        rw [get?_eq_none_iff]
        intro id hmem
        simpa [FsKey.ofSettings] using hno _ hmem
      have hentry : (reg.entries.find? fun e => e.1.host == parsed.host) = none :=
        List.find?_eq_none.2 fun e he => by simpa using hno e he
      rw [hget, hentry]

end Find

/-! ## Searching for a path -/

theorem find_error {reg : Registry} {uri : String} {e : FsError} (h : reg.find uri = .error e) :
    ((∃ fault, e = .invalidArgument fault) ∧ ∀ parsed, Uri.parse uri ≠ .ok parsed) ∨
      (e = .fileSystemNotFound uri ∧ ∃ parsed, Uri.parse uri = .ok parsed) := by
  unfold find at h
  cases hparse : Uri.parse uri with
  | error e' =>
    rw [hparse] at h
    cases h
    exact .inl ⟨Uri.parse_error hparse, fun _ hok => by cases hok⟩
  | ok parsed =>
    rw [hparse] at h
    simp only [bind, Except.bind] at h
    split at h
    · cases h
    · split at h
      · cases h
      · cases h
        exact .inr ⟨rfl, parsed, rfl⟩

/-- All that a search for a path can come to. -/
inductive PathSearch (reg : Registry) (uri : String) (create : Create) :
    Result Path × Registry → Prop
  | invalid {fault : ArgumentFault} (refused : ∀ parsed, Uri.parse uri ≠ .ok parsed)
      (invalid : reg.find uri = .error (.invalidArgument fault)) :
      PathSearch reg uri create (.error (.invalidArgument fault), reg)
  /-- A filesystem of the host is open. -/
  | found {parsed : Uri} {id : FsId} (valid : Uri.parse uri = .ok parsed)
      (found : reg.find uri = .ok id) :
      PathSearch reg uri create (.ok (.parse id parsed.path []), reg)
  /-- A new filesystem is opened. -/
  | opened {parsed : Uri} {id : FsId} {reg' : Registry} (valid : Uri.parse uri = .ok parsed)
      (missing : reg.find uri = .error (.fileSystemNotFound uri))
      (opened : reg.openWith uri [] create = (.ok id, reg')) :
      PathSearch reg uri create (.ok (.parse id parsed.path []), reg')
  /-- The opening finds its key taken, so the host is searched for again. -/
  | again {parsed : Uri} {target : String} {reg' : Registry} (valid : Uri.parse uri = .ok parsed)
      (missing : reg.find uri = .error (.fileSystemNotFound uri))
      (refused : reg.openWith uri [] create = (.error (.alreadyExists target), reg')) :
      PathSearch reg uri create ((reg'.find uri).map fun id => .parse id parsed.path [], reg')
  | failed {e : FsError} {reg' : Registry}
      (missing : reg.find uri = .error (.fileSystemNotFound uri))
      (refused : reg.openWith uri [] create = (.error e, reg')) :
      PathSearch reg uri create (.error e, reg')

theorem pathWith_search (reg : Registry) (uri : String) (create : Create) :
    PathSearch reg uri create (reg.pathWith uri create) := by
  unfold pathWith
  cases hparse : Uri.parse uri with
  | error e =>
    obtain ⟨fault, rfl⟩ := Uri.parse_error hparse
    have hfind : reg.find uri = .error (.invalidArgument fault) := by
      rw [find, hparse]
      rfl
    exact .invalid (fun parsed hok => by rw [hparse] at hok; cases hok) hfind
  | ok parsed =>
    dsimp only
    cases hfind : reg.find uri with
    | ok id => exact .found hparse hfind
    | error e =>
      obtain ⟨-, hinvalid⟩ | ⟨rfl, -⟩ := find_error hfind
      · exact absurd hparse (hinvalid parsed)
      · dsimp only
        cases hopen : reg.openWith uri [] create with
        | mk answer reg' =>
          cases answer with
          | ok id => exact .opened hparse hfind hopen
          | error e =>
            cases e with
            | alreadyExists target => exact .again hparse hfind hopen
            | _ => exact .failed hfind hopen

/-- **A search for a path** changes a registry only if it finds nothing, by its opening. -/
theorem pathWith_snd (reg : Registry) (uri : String) (create : Create) :
    (reg.pathWith uri create).2 =
      match reg.find uri with
      | .error (.fileSystemNotFound _) => (reg.openWith uri [] create).2
      | _ => reg := by
  have hsearch := pathWith_search reg uri create
  generalize reg.pathWith uri create = out at hsearch
  cases hsearch with
  | invalid _ hinvalid => rw [hinvalid]
  | found _ hfound => rw [hfound]
  | opened _ hmissing hopened => rw [hmissing, hopened]
  | again _ hmissing hrefused => rw [hmissing, hrefused]
  | failed hmissing hrefused => rw [hmissing, hrefused]

end Registry

end BucketFs
