import BucketFs.Proofs.Registry.Course

/-!
# What the operations of a registry promise

* `Registry.OpeningContract`, `Registry.FindContract`, `Registry.PathContract` and
  `Registry.CloseContract` — the promises of the four operations, each with one theorem that a sound
  registry keeps them.
* `FactoryRun.Passes.registry_exact` — at every point of a run, those inside its factories included,
  the registry is exactly the set of open filesystems, and all four promises are kept there.
-/

namespace BucketFs

namespace Registry

/-- What a factory answers to an opening that asks it, and the registry that it leaves. -/
def asked (reg : Registry) (factory : Factory) (host : String) (settings : Settings) :
    Result StoreId × Registry :=
  (factory host settings).run (reg.asking host settings)

/-- Whether a registry is what an opening leaves if it enters nothing: the one before, or the one
that the factory left. -/
def Untouched (reg : Registry) (factory : Factory) (uri : String) (env : Environment)
    (after : Registry) : Prop :=
  after = reg ∨ ∃ host settings, reg.Accepts uri env host settings ∧
    ¬ reg.HasOpen (.ofSettings host settings) ∧ after = (reg.asked factory host settings).2

/-! ## Opening a filesystem -/

/-- What opening a filesystem promises, of its answer and of the registry that it leaves. -/
structure OpeningContract (reg : Registry) (factory : Factory) (uri : String) (env : Environment)
    (out : Result FsId × Registry) : Prop where
  /-- The key is refused exactly when it is taken before the factory is asked, or after the factory
  has handed out a store; the factory may also fail with that error itself. -/
  alreadyExists_iff : ∀ target, out.1 = .error (.alreadyExists target) ↔
    ∃ host settings, reg.Accepts uri env host settings ∧
      ((target = (FsKey.ofSettings host settings).uri ∧
          (reg.HasOpen (.ofSettings host settings) ∨
            ((∃ store, (reg.asked factory host settings).1 = .ok store) ∧
              (reg.asked factory host settings).2.HasOpen (.ofSettings host settings)))) ∨
        (¬ reg.HasOpen (.ofSettings host settings) ∧
          (reg.asked factory host settings).1 = .error (.alreadyExists target)))
  failing : ∀ e, out.1 = .error e → reg.Untouched factory uri env out.2
  /-- A key that stays free is opened. -/
  opens : ∀ host settings store, reg.Accepts uri env host settings →
    ¬ reg.HasOpen (.ofSettings host settings) →
    (reg.asked factory host settings).1 = .ok store →
    ¬ (reg.asked factory host settings).2.HasOpen (.ofSettings host settings) →
    ∃ id, out.1 = .ok id
  /-- What is opened is new, has its key and its settings, and is the only change. -/
  opened : ∀ id, out.1 = .ok id → ∃ host settings store, reg.Accepts uri env host settings ∧
    (reg.asked factory host settings).1 = .ok store ∧
    (reg.asked factory host settings).2.fileSystem? id = none ∧
    (∀ id', out.2.fileSystem? id' =
      if id' = id then some ⟨id, .ofSettings host settings, settings, ⟨id, store⟩, true⟩
      else (reg.asked factory host settings).2.fileSystem? id') ∧
    out.2.entries =
      (reg.asked factory host settings).2.entries ++ [(.ofSettings host settings, id)]

section Opening

variable {reg : Registry} {factory : Factory} {uri : String} {env : Environment}

/-- All that opening a filesystem can come to, with what its factory did. -/
theorem openFileSystem_opening (reg : Registry) (factory : Factory) (uri : String)
    (env : Environment) :
    Opening reg uri env (fun host settings reg => (factory host settings).run reg)
      (reg.openFileSystem factory uri env) :=
  openWith_opening reg uri env _

variable (h : reg.Sound) (hasked : ∀ host settings, (reg.asked factory host settings).2.Sound)
include h hasked

/-- **When a key is refused.** -/
theorem Sound.opening_alreadyExists_iff {out : Result FsId × Registry}
    (hopening : Opening reg uri env (fun host settings reg => (factory host settings).run reg) out)
    (target : String) :
    out.1 = .error (.alreadyExists target) ↔
      ∃ host settings, reg.Accepts uri env host settings ∧
        ((target = (FsKey.ofSettings host settings).uri ∧
            (reg.HasOpen (.ofSettings host settings) ∨
              ((∃ store, (reg.asked factory host settings).1 = .ok store) ∧
                (reg.asked factory host settings).2.HasOpen (.ofSettings host settings)))) ∨
          (¬ reg.HasOpen (.ofSettings host settings) ∧
            (reg.asked factory host settings).1 = .error (.alreadyExists target))) := by
  -- the host and the settings are those of the accepted URI
  have hreduce : ∀ {host settings} {P : String → Settings → Prop},
      reg.Accepts uri env host settings →
      ((∃ host settings, reg.Accepts uri env host settings ∧ P host settings) ↔
        P host settings) := by
    intro host settings P haccepts
    refine ⟨?_, fun hP => ⟨host, settings, haccepts, hP⟩⟩
    rintro ⟨host', settings', haccepts', hP⟩
    obtain ⟨rfl, rfl⟩ := haccepts.unique haccepts'
    exact hP
  cases hopening with
  | invalid refused =>
    refine iff_of_false (fun heq => by cases heq) ?_
    rintro ⟨host, settings, haccepts, -⟩
    exact refused host settings haccepts
  | @taken host settings id accepts entered =>
    have hopen := h.hasOpen_iff.2 ⟨id, entered⟩
    rw [hreduce accepts]
    simp [hopen, eq_comm]
  | @failed host settings e reg' accepts free asked =>
    have hfree := h.not_hasOpen_iff.2 free
    have heq : reg.asked factory host settings = (.error e, reg') := asked
    rw [hreduce accepts]
    simp [hfree, heq]
  | @overtaken host settings store reg' id accepts free asked entered =>
    have hfree := h.not_hasOpen_iff.2 free
    have heq : reg.asked factory host settings = (.ok store, reg') := asked
    have hsound := hasked host settings
    rw [heq] at hsound
    have hopen := hsound.hasOpen_iff.2 ⟨id, entered⟩
    rw [hreduce accepts]
    simp [hfree, heq, hopen, eq_comm]
  | @opened host settings store reg' accepts free asked still =>
    have hfree := h.not_hasOpen_iff.2 free
    have heq : reg.asked factory host settings = (.ok store, reg') := asked
    have hsound := hasked host settings
    rw [heq] at hsound
    have hstill := hsound.not_hasOpen_iff.2 still
    rw [hreduce accepts]
    simp [hfree, heq, hstill]

/-- **A sound registry keeps what opening promises**, if the factory leaves it sound. -/
theorem Sound.openingContract (uri : String) (env : Environment) :
    reg.OpeningContract factory uri env (reg.openFileSystem factory uri env) := by
  have hopening := openFileSystem_opening reg factory uri env
  refine ⟨h.opening_alreadyExists_iff hasked hopening, fun e he => ?_,
    fun host settings store haccepts hfree hstore hstill => ?_, fun id hid => ?_⟩
  · generalize reg.openFileSystem factory uri env = out at hopening he
    cases hopening with
    | invalid refused => exact .inl rfl
    | taken accepts entered => exact .inl rfl
    | failed accepts free asked =>
      exact .inr ⟨_, _, accepts, h.not_hasOpen_iff.2 free, (congrArg Prod.snd asked).symm⟩
    | overtaken accepts free asked entered =>
      exact .inr ⟨_, _, accepts, h.not_hasOpen_iff.2 free, (congrArg Prod.snd asked).symm⟩
    | opened accepts free asked still => cases he
  · generalize reg.openFileSystem factory uri env = out at hopening
    cases hopening with
    | invalid refused => exact absurd haccepts (refused host settings)
    | taken accepts entered =>
      obtain ⟨rfl, rfl⟩ := haccepts.unique accepts
      exact absurd (h.hasOpen_iff.2 ⟨_, entered⟩) hfree
    | failed accepts free asked =>
      obtain ⟨rfl, rfl⟩ := haccepts.unique accepts
      rw [Registry.asked, asked] at hstore
      cases hstore
    | overtaken accepts free asked entered =>
      obtain ⟨rfl, rfl⟩ := haccepts.unique accepts
      have hsound := hasked host settings
      rw [Registry.asked, asked] at hsound hstill
      exact absurd (hsound.hasOpen_iff.2 ⟨_, entered⟩) hstill
    | opened accepts free asked still => exact ⟨_, rfl⟩
  · generalize reg.openFileSystem factory uri env = out at hopening hid
    cases hopening with
    | @opened host settings store reg' accepts free asked still =>
      have heq : reg.asked factory host settings = (.ok store, reg') := asked
      cases hid
      refine ⟨host, settings, store, accepts, ?_⟩
      rw [heq]
      exact ⟨rfl, fileSystem?_length reg', enter_fileSystem? reg' _ settings store, rfl⟩
    | _ => cases hid

end Opening

/-! ## Searching -/

/-- What looking up a filesystem promises. -/
structure FindContract (reg : Registry) (uri : String) : Prop where
  found : ∀ id, reg.find uri = .ok id → ∃ parsed fs, Uri.parse uri = .ok parsed ∧
    reg.fileSystem? id = some fs ∧ fs.isOpen = true ∧ fs.key.host = parsed.host
  missing_iff : ∀ target, reg.find uri = .error (.fileSystemNotFound target) ↔
    target = uri ∧ ∃ parsed, Uri.parse uri = .ok parsed ∧ ¬ reg.HasOpenHost parsed.host

theorem Sound.findContract {reg : Registry} (h : reg.Sound) (uri : String) :
    reg.FindContract uri :=
  ⟨fun _ hfind => h.find_found hfind, fun _ => h.find_missing_iff⟩

/-- What looking up a path promises, of its answer and of the registry that it leaves. -/
structure PathContract (reg : Registry) (factory : Factory) (uri : String)
    (out : Result Path × Registry) : Prop where
  /-- The path is one on an open filesystem of the host. -/
  found : ∀ path, out.1 = .ok path → ∃ parsed fs, Uri.parse uri = .ok parsed ∧
    out.2.fileSystem? path.fs = some fs ∧ fs.isOpen = true ∧ fs.key.host = parsed.host
  /-- No filesystem is opened if one of the host is open. -/
  reuses : ∀ parsed, Uri.parse uri = .ok parsed → reg.HasOpenHost parsed.host →
    (∃ path, out.1 = .ok path) ∧ out.2 = reg
  failing : ∀ e, out.1 = .error e → reg.Untouched factory uri [] out.2

/-- **A sound registry keeps what looking up a path promises**, if the factory leaves it sound. -/
theorem Sound.pathContract {reg : Registry} {factory : Factory} (h : reg.Sound)
    (hasked : ∀ host settings, (reg.asked factory host settings).2.Sound) (uri : String) :
    reg.PathContract factory uri (reg.openPath factory uri) := by
  have hcontract := h.openingContract hasked uri []
  have hafter := h.opening hasked (openFileSystem_opening reg factory uri [])
  have hsearch : PathSearch reg uri _ (reg.openPath factory uri) := pathWith_search reg uri _
  have hmissing : reg.find uri = .error (.fileSystemNotFound uri) →
      ∀ parsed, Uri.parse uri = .ok parsed → ¬ reg.HasOpenHost parsed.host := by
    intro hfind parsed hparsed
    obtain ⟨-, parsed', hparsed', hnone⟩ := h.find_missing_iff.1 hfind
    rw [hparsed] at hparsed'
    cases hparsed'
    exact hnone
  generalize reg.openPath factory uri = out at hsearch
  cases hsearch with
  | invalid refused invalid =>
    exact ⟨nofun, fun parsed hparsed => absurd hparsed (refused parsed), fun _ _ => .inl rfl⟩
  | @found parsed id valid found =>
    refine ⟨fun path hpath => ?_, fun _ _ _ => ⟨⟨_, rfl⟩, rfl⟩, nofun⟩
    cases hpath
    exact h.find_found found
  | @opened parsed id reg' valid missing opened =>
    refine ⟨fun path hpath => ?_, fun _ hparsed hhost => absurd hhost (hmissing missing _ hparsed),
      nofun⟩
    cases hpath
    have hnew := hcontract.opened id (congrArg Prod.fst opened)
    rw [openFileSystem, opened] at hnew
    obtain ⟨host, settings, store, ⟨⟨rest, hparsed⟩, -, -⟩, -, -, hfs, -⟩ := hnew
    exact ⟨_, _, hparsed, (hfs id).trans (if_pos rfl), rfl, rfl⟩
  | @again parsed target reg' valid missing refused =>
    refine ⟨fun path hpath => ?_, fun _ hparsed hhost => absurd hhost (hmissing missing _ hparsed),
      fun _ _ => ?_⟩
    · rw [openFileSystem, refused] at hafter
      cases hfind : reg'.find uri with
      | ok id =>
        rw [hfind] at hpath
        cases hpath
        exact hafter.find_found hfind
      | error e =>
        rw [hfind] at hpath
        cases hpath
    · have hfail := hcontract.failing _ (congrArg Prod.fst refused)
      rwa [openFileSystem, refused] at hfail
  | @failed e reg' missing refused =>
    refine ⟨nofun, fun _ hparsed hhost => absurd hhost (hmissing missing _ hparsed), fun _ _ => ?_⟩
    have hfail := hcontract.failing _ (congrArg Prod.fst refused)
    rwa [openFileSystem, refused] at hfail

/-! ## Closing -/

/-- What closing a filesystem promises. -/
structure CloseContract (reg : Registry) (id : FsId) : Prop where
  closed : ∀ fs, (reg.close id).fileSystem? id = some fs → fs.isOpen = false
  /-- No other filesystem is closed, and no other one loses its entry, not even one of the same
  key. -/
  others : ∀ id', id' ≠ id → (reg.close id).fileSystem? id' = reg.fileSystem? id' ∧
    ∀ key, (key, id') ∈ (reg.close id).entries ↔ (key, id') ∈ reg.entries
  again : (reg.close id).close id = reg.close id

theorem Sound.closeContract {reg : Registry} (h : reg.Sound) (id : FsId) :
    reg.CloseContract id := by
  refine ⟨fun fs hfs => ?_, fun id' hne => ⟨?_, fun key => ?_⟩, close_close reg id⟩
  · rw [close_fileSystem?, if_pos rfl] at hfs
    obtain ⟨fs', -, rfl⟩ := Option.map_eq_some_iff.1 hfs
    rfl
  · rw [close_fileSystem?, if_neg hne]
  · rw [h.mem_close_entries]
    exact and_iff_left hne

end Registry

/-! ## Every point of a run -/

section Passes

variable {run : FactoryRun} {base : Settings} {log : List Deed} {reg : Registry}

/-- A factory leaves a registry sound. -/
theorem Registry.Keeps.asked_sound (h : reg.Keeps log) (factory : Factory) (host : String)
    (settings : Settings) : (reg.asked factory host settings).2.Sound :=
  ((factory host settings).course_leads keeps_kept (h.asking host settings)).keeps.sound

/-- **At every point of a run of openings, searches and closings**, those inside the factories that
it asks included, the registry is exactly the set of the filesystems that were opened and not closed
since, one for each key, and every operation keeps its promises there. -/
theorem FactoryRun.Passes.registry_exact (h : run.Passes (.new base) log reg) :
    (∀ key id, (key, id) ∈ reg.entries ↔
      ∃ fs, reg.fileSystem? id = some fs ∧ fs.isOpen = true ∧ fs.key = key) ∧
    (∀ id, Standing log id ↔ ∃ key, (key, id) ∈ reg.entries) ∧
    (reg.entries.map (·.1)).Nodup ∧
    (∀ factory uri env, reg.OpeningContract factory uri env (reg.openFileSystem factory uri env)) ∧
    (∀ uri, reg.FindContract uri) ∧
    (∀ factory uri, reg.PathContract factory uri (reg.openPath factory uri)) ∧
    (∀ id, reg.CloseContract id) := by
  have hkeeps := h.keeps
  have hsound := hkeeps.sound
  have hentry : ∀ key id, (key, id) ∈ reg.entries ↔
      ∃ fs, reg.fileSystem? id = some fs ∧ fs.isOpen = true ∧ fs.key = key := by
    refine fun key id => ⟨hsound.entry_open key id, ?_⟩
    rintro ⟨fs, hfs, hopen, rfl⟩
    exact hsound.open_entered id fs hfs hopen
  refine ⟨hentry, fun id => ?_, hsound.keys_nodup,
    fun factory uri env => hsound.openingContract (hkeeps.asked_sound factory) uri env,
    hsound.findContract, fun factory uri => hsound.pathContract (hkeeps.asked_sound factory) uri,
    hsound.closeContract⟩
  rw [hkeeps.standing_iff]
  constructor
  · rintro ⟨fs, hfs, hopen⟩
    exact ⟨fs.key, hsound.open_entered id fs hfs hopen⟩
  · rintro ⟨key, hmem⟩
    obtain ⟨fs, hfs, hopen, -⟩ := hsound.entry_open key id hmem
    exact ⟨fs, hfs, hopen⟩

end Passes

/-- An opening whose factory opens the same key and closes what it got; then the path of the host is
looked up, and the filesystem of the factory is closed again. -/
def FactoryRun.reopening : FactoryRun :=
  .openFileSystem "s3://h/" []
    (fun _ _ => .openFileSystem "s3://h/" [] (Factory.constant 1) fun
      | .ok id => .find "s3://h/" fun _ => .close id (.result (.ok 2))
      | .error e => .result (.error e))
    fun _ => .openPath "s3://h/b/k" (Factory.constant 3) fun _ => .close 0 (.result (.ok 4))

/-- The filesystem of the factory and the one of the opening have the same key, and the second
closing of the former leaves the latter alone. -/
theorem FactoryRun.registry_exact_reopening :
    ∃ reg, FactoryRun.reopening.Passes (.new {})
        [.asked, .asked, .opened 0, .closed 0, .opened 1, .closed 0] reg ∧
      reg.entries = [(⟨"h", ""⟩, 1)] ∧
      (∀ id, Standing [.asked, .asked, .opened 0, .closed 0, .opened 1, .closed 0] id ↔
        ∃ key, (key, id) ∈ reg.entries) := by
  have hpasses : FactoryRun.reopening.Passes (.new {})
      [.asked, .asked, .opened 0, .closed 0, .opened 1, .closed 0]
      (Registry.latest (.new {}) (FactoryRun.reopening.course (.new {}))) :=
    ⟨_, List.prefix_refl _, by decide +kernel, rfl⟩
  exact ⟨_, hpasses, by decide +kernel, (FactoryRun.Passes.registry_exact hpasses).2.1⟩

end BucketFs
