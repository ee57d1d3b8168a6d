import BucketFs.Proofs.Registry.Entries

/-!
# The course of a run on a registry

A run opens, looks up and closes filesystems one after the other, and so may every factory that an
opening of the run asks.  A `FactoryRun` is therefore a run as well, whoever reads its answer.

* `FactoryRun.course` — the moments of a run at which something happened to a filesystem, those
  inside its factories included, each with the registry as it stood then.
* `Registry.Keeps` — a registry whose entries are the filesystems that were opened and not closed.
* `Registry.Kept` — what no single event of a course breaks.
* `FactoryRun.course_leads` — the course of a run leads to the registry that the run leaves, and
  every moment keeps what no event breaks.
* `FactoryRun.Passes` — the points of a run; at each of them the registry `Keeps` its entries.
-/

namespace BucketFs

/-- What happens to filesystems in the course of a run. -/
inductive Deed where
  /-- A factory is asked for the store of a new one. -/
  | asked
  /-- A call is answered by one that it opened. -/
  | opened (id : FsId)
  | closed (id : FsId)
  deriving DecidableEq, Repr

/-- A deed, and the registry after it. -/
abbrev Moment := Deed × Registry

/-- Whether a filesystem was opened and has not been closed since. -/
def Standing (log : List Deed) (id : FsId) : Prop :=
  ∃ before after, log = before ++ .opened id :: after ∧ .closed id ∉ after

section Standing

variable {log : List Deed} {id : FsId}

theorem not_standing_nil (id : FsId) : ¬ Standing [] id := by
  rintro ⟨before, after, heq, -⟩
  simp at heq

/-- What the latest deed does to the filesystems that stand. -/
theorem standing_concat (log : List Deed) (deed : Deed) (id : FsId) :
    Standing (log ++ [deed]) id ↔
      deed = .opened id ∨ (Standing log id ∧ deed ≠ .closed id) := by
  constructor
  · rintro ⟨before, after, heq, hnot⟩
    rcases List.eq_nil_or_concat after with rfl | ⟨front, last, rfl⟩
    · exact .inl (List.append_inj_right' heq rfl |> List.singleton_inj.1)
    · rw [List.concat_eq_append, ← List.cons_append, ← List.append_assoc] at heq
      obtain ⟨rfl, hlast⟩ := List.append_inj' heq rfl
      obtain rfl := List.singleton_inj.1 hlast
      rw [List.concat_eq_append, List.mem_append, List.mem_singleton, not_or] at hnot
      exact .inr ⟨⟨before, front, rfl, hnot.1⟩, fun h => hnot.2 h.symm⟩
  · rintro (rfl | ⟨⟨before, after, rfl, hnot⟩, hne⟩)
    · exact ⟨log, [], rfl, List.not_mem_nil⟩
    · refine ⟨before, after ++ [deed], by simp, fun hmem => ?_⟩
      rcases List.mem_append.1 hmem with hmem | hmem
      · exact hnot hmem
      · exact hne (List.mem_singleton.1 hmem).symm

end Standing

namespace Registry

/-- The host and the settings that an opening asks its factory for, if it comes to that. -/
def asks? (reg : Registry) (uri : String) (env : Environment) : Option (String × Settings) :=
  match Uri.parse uri, (reg.base.overlay env).check with
  | .ok parsed, .ok _ =>
    if (reg.get? (.ofSettings parsed.host (reg.base.overlay env))).isNone then
      some (parsed.host, reg.base.overlay env)
    else none
  | _, _ => none

/-- The moment of an answer by a new filesystem. -/
def answered : Result FsId × Registry → List Moment
  | (.ok id, reg) => [(.opened id, reg)]
  | (.error _, _) => []

/-- The course of an opening, given how the factory acts and what its course is. -/
def openCourse (reg : Registry) (uri : String) (env : Environment) (create : Create)
    (inner : String → Settings → Registry → List Moment) : List Moment :=
  (match reg.asks? uri env with
    | some (host, settings) =>
      (.asked, reg.asking host settings) :: inner host settings (reg.asking host settings)
    | none => []) ++ answered (reg.openWith uri env create)

/-- The course of a search for a path, which opens a filesystem only if it finds none. -/
def pathCourse (reg : Registry) (uri : String) (create : Create)
    (inner : String → Settings → Registry → List Moment) : List Moment :=
  match reg.find uri with
  | .error (.fileSystemNotFound _) => reg.openCourse uri [] create inner
  | _ => []

/-- The registry at the last of some moments, or at the start. -/
def latest (start : Registry) (moments : List Moment) : Registry :=
  (moments.getLast?.map (·.2)).getD start

end Registry

/-- The moments of a run and of its factories, in order. -/
def FactoryRun.course : FactoryRun → Registry → List Moment
  | .result _, _ => []
  | .openFileSystem uri env inner next, reg =>
    let create := fun host settings reg => (inner host settings).run reg
    let out := reg.openWith uri env create
    reg.openCourse uri env create (fun host settings reg => (inner host settings).course reg)
      ++ (next out.1).course out.2
  | .find uri next, reg => (next (reg.find uri)).course reg
  | .openPath uri inner next, reg =>
    let create := fun host settings reg => (inner host settings).run reg
    let out := reg.pathWith uri create
    reg.pathCourse uri create (fun host settings reg => (inner host settings).course reg)
      ++ (next out.1).course out.2
  | .close id next, reg => (.closed id, reg.close id) :: next.course (reg.close id)

namespace Registry

/-! ## What every moment keeps -/

/-- What nothing that happens to a registry breaks, given the deeds so far.  A new filesystem is
entered under a free key, whose host is that of some URI. -/
structure Kept (P : List Deed → Registry → Prop) : Prop where
  asking : ∀ {log reg} (host : String) (settings : Settings), P log reg →
    P (log ++ [.asked]) (reg.asking host settings)
  enter : ∀ {log reg key} (settings : Settings) (store : StoreId), P log reg →
    reg.get? key = none → (∃ uri path, Uri.parse uri = .ok ⟨key.host, path⟩) →
    P (log ++ [.opened reg.fileSystems.length]) (reg.enter key settings store)
  close : ∀ {log reg} (id : FsId), P log reg → P (log ++ [.closed id]) (reg.close id)

/-- A registry whose entries are the filesystems that were opened and not closed since. -/
structure Keeps (log : List Deed) (reg : Registry) : Prop where
  sound : reg.Sound
  standing_iff : ∀ id, Standing log id ↔ ∃ fs, reg.fileSystem? id = some fs ∧ fs.isOpen = true

section Keeps

variable {log : List Deed} {reg : Registry}

theorem keeps_new (base : Settings) : (new base).Keeps [] := by
  refine ⟨sound_new base, fun id => ?_⟩
  refine iff_of_false (not_standing_nil id) ?_
  rintro ⟨fs, hfs, -⟩
  exact Option.some_ne_none _ hfs.symm

variable (h : reg.Keeps log)
include h

theorem Keeps.asking (host : String) (settings : Settings) :
    (reg.asking host settings).Keeps (log ++ [.asked]) := by
  refine ⟨h.sound.congr rfl rfl, fun id => ?_⟩
  rw [standing_concat, show (reg.asking host settings).fileSystem? id = reg.fileSystem? id from rfl,
    ← h.standing_iff]
  simp

theorem Keeps.enter {key : FsKey} (hfree : reg.get? key = none) (settings : Settings)
    (store : StoreId) :
    (reg.enter key settings store).Keeps (log ++ [.opened reg.fileSystems.length]) := by
  refine ⟨h.sound.enter hfree settings store, fun id => ?_⟩
  rw [standing_concat, enter_fileSystem?, h.standing_iff, Deed.opened.injEq]
  by_cases hid : id = reg.fileSystems.length
  · simp [hid]
  · simp [hid, Ne.symm hid]

theorem Keeps.close (id : FsId) : (reg.close id).Keeps (log ++ [.closed id]) := by
  refine ⟨h.sound.close id, fun id' => ?_⟩
  rw [standing_concat, close_fileSystem?, h.standing_iff]
  by_cases hid : id' = id
  · simp [hid]
  · simp [hid, Ne.symm hid]

end Keeps

theorem keeps_kept : Kept fun log reg => reg.Keeps log :=
  ⟨fun host settings h => h.asking host settings,
    fun settings store h hfree _ => h.enter hfree settings store, fun id h => h.close id⟩

/-- Whether all moments that follow a log keep what they should. -/
def Throughout (P : List Deed → Registry → Prop) : List Deed → List Moment → Prop
  | _, [] => True
  | log, m :: rest => P (log ++ [m.1]) m.2 ∧ Throughout P (log ++ [m.1]) rest

section Throughout

variable {P : List Deed → Registry → Prop}

theorem throughout_append (log : List Deed) (xs ys : List Moment) :
    Throughout P log (xs ++ ys) ↔
      Throughout P log xs ∧ Throughout P (log ++ xs.map (·.1)) ys := by
  induction xs generalizing log with
  | nil => simp [Throughout]
  | cons x rest ih => simp [Throughout, ih, and_assoc]

theorem latest_append (start : Registry) (xs ys : List Moment) :
    latest start (xs ++ ys) = latest (latest start xs) ys := by
  unfold latest
  rw [List.getLast?_append]
  cases ys.getLast? <;> simp

theorem latest_cons (start : Registry) (m : Moment) (rest : List Moment) :
    latest start (m :: rest) = latest m.2 rest := by
  rw [← List.singleton_append, latest_append]
  rfl

/-- Every moment up to some prefix of them keeps what it should. -/
theorem Throughout.latest {log : List Deed} {start : Registry} (hstart : P log start)
    {ms rest : List Moment} (h : Throughout P log (ms ++ rest)) :
    P (log ++ ms.map (·.1)) (Registry.latest start ms) := by
  induction ms generalizing log start with
  | nil => rwa [List.map_nil, List.append_nil]
  | cons m ms ih =>
    rw [latest_cons, List.map_cons, ← List.singleton_append, ← List.append_assoc]
    exact ih h.1 h.2

end Throughout

/-- Moments that lead from one registry to another one, and keep what they should. -/
structure Leads (P : List Deed → Registry → Prop) (log : List Deed) (start : Registry)
    (moments : List Moment) (final : Registry) : Prop where
  throughout : Throughout P log moments
  keeps : P (log ++ moments.map (·.1)) final
  latest_eq : latest start moments = final

theorem asks?_eq_some_iff {reg : Registry} {uri : String} {env : Environment} {host : String}
    {settings : Settings} :
    reg.asks? uri env = some (host, settings) ↔
      reg.Accepts uri env host settings ∧ reg.get? (.ofSettings host settings) = none := by
  unfold asks?
  constructor
  · intro h
    split at h
    · rename_i parsed _ hparse hcheck
      split at h
      · rename_i hfree
        cases h
        exact ⟨⟨⟨parsed.path, hparse⟩, rfl, hcheck⟩, Option.isNone_iff_eq_none.1 hfree⟩
      · cases h
    · cases h
  · rintro ⟨⟨⟨path, hparse⟩, rfl, hcheck⟩, hfree⟩
    rw [hparse, hcheck]
    dsimp only
    rw [if_pos (Option.isNone_iff_eq_none.2 hfree)]

section Leads

variable {P : List Deed → Registry → Prop} {log : List Deed} {reg reg' reg'' : Registry}
  {xs ys : List Moment}

theorem leads_nil (h : P log reg) : Leads P log reg [] reg :=
  ⟨trivial, by rwa [List.map_nil, List.append_nil], rfl⟩

theorem Leads.append (hx : Leads P log reg xs reg')
    (hy : Leads P (log ++ xs.map (·.1)) reg' ys reg'') : Leads P log reg (xs ++ ys) reg'' := by
  refine ⟨(throughout_append log xs ys).2 ⟨hx.throughout, hy.throughout⟩, ?_, ?_⟩
  · rw [List.map_append, ← List.append_assoc]
    exact hy.keeps
  · rw [latest_append, hx.latest_eq, hy.latest_eq]

theorem leads_single {deed : Deed} (h : P (log ++ [deed]) reg') :
    Leads P log reg [(deed, reg')] reg' :=
  ⟨⟨h, trivial⟩, h, rfl⟩

variable (hkept : Kept P)
include hkept

/-- **The course of an opening** leads to what it leaves, if that of its factory does. -/
theorem openCourse_leads (h : P log reg) (uri : String) (env : Environment) {create : Create}
    {inner : String → Settings → Registry → List Moment}
    (hinner : ∀ host settings log reg, P log reg →
      Leads P log reg (inner host settings reg) (create host settings reg).2) :
    Leads P log reg (reg.openCourse uri env create inner) (reg.openWith uri env create).2 := by
  have hrefused : (∀ host settings, ¬ (reg.Accepts uri env host settings ∧
      reg.get? (.ofSettings host settings) = none)) → reg.asks? uri env = none := by
    intro hnot
    rw [Option.eq_none_iff_forall_ne_some]
    rintro ⟨host, settings⟩ hasks
    exact hnot host settings (asks?_eq_some_iff.1 hasks)
  -- the course up to the answer of the factory
  have hasked : ∀ host settings, reg.Accepts uri env host settings →
      reg.get? (.ofSettings host settings) = none → ∀ {answer reg'},
      create host settings (reg.asking host settings) = (answer, reg') →
      reg.asks? uri env = some (host, settings) ∧
        Leads P log reg ((.asked, reg.asking host settings) ::
          inner host settings (reg.asking host settings)) reg' := by
    intro host settings haccepts hfree answer reg' hcreate
    have hasking := hkept.asking host settings h
    have hleads := hinner host settings _ _ hasking
    rw [hcreate] at hleads
    exact ⟨asks?_eq_some_iff.2 ⟨haccepts, hfree⟩, (leads_single hasking).append hleads⟩
  have hopening := openWith_opening reg uri env create
  unfold openCourse
  generalize reg.openWith uri env create = out at hopening
  cases hopening with
  | invalid refused =>
    rw [hrefused fun host settings hboth => refused host settings hboth.1]
    exact leads_nil h
  | taken accepts entered =>
    rename_i host settings id
    rw [hrefused]
    · exact leads_nil h
    · rintro host' settings' ⟨haccepts, hfree⟩
      obtain ⟨rfl, rfl⟩ := accepts.unique haccepts
      rw [entered] at hfree
      cases hfree
  | failed accepts free asked =>
    obtain ⟨hasks, hleads⟩ := hasked _ _ accepts free asked
    rw [hasks]
    exact hleads.append (leads_nil hleads.keeps)
  | overtaken accepts free asked entered =>
    obtain ⟨hasks, hleads⟩ := hasked _ _ accepts free asked
    rw [hasks]
    exact hleads.append (leads_nil hleads.keeps)
  | @opened host settings store _ accepts free asked still =>
    obtain ⟨hasks, hleads⟩ := hasked _ _ accepts free asked
    rw [hasks]
    have hentered := hkept.enter settings store hleads.keeps still ⟨uri, accepts.parsed⟩
    exact hleads.append (leads_single hentered)

/-- **The course of a search for a path** leads to what it leaves, if that of its factory does. -/
theorem pathCourse_leads (h : P log reg) (uri : String) {create : Create}
    {inner : String → Settings → Registry → List Moment}
    (hinner : ∀ host settings log reg, P log reg →
      Leads P log reg (inner host settings reg) (create host settings reg).2) :
    Leads P log reg (reg.pathCourse uri create inner) (reg.pathWith uri create).2 := by
  have hpath := pathWith_snd reg uri create
  unfold pathCourse
  cases hfind : reg.find uri with
  | ok id =>
    rw [hfind] at hpath
    rw [hpath]
    exact leads_nil h
  | error e =>
    rw [hfind] at hpath
    rw [hpath]
    cases e with
    | fileSystemNotFound target => exact openCourse_leads hkept h uri [] hinner
    | _ => exact leads_nil h

end Leads

end Registry

section Run

open Registry

variable {P : List Deed → Registry → Prop}

/-- **The course of a run** leads to the registry that the run leaves. -/
theorem FactoryRun.course_leads (hkept : Kept P) (run : FactoryRun) {log : List Deed}
    {reg : Registry} (h : P log reg) : Leads P log reg (run.course reg) (run.run reg).2 := by
  induction run generalizing log reg with
  | result r => exact leads_nil h
  | openFileSystem uri env inner next ihinner ihnext =>
    have hopen := openCourse_leads hkept h uri env fun host settings log reg hreg =>
      ihinner host settings hreg
    exact hopen.append (ihnext _ hopen.keeps)
  | find uri next ihnext => exact ihnext _ h
  | openPath uri inner next ihinner ihnext =>
    have hpath := pathCourse_leads hkept h uri fun host settings log reg hreg =>
      ihinner host settings hreg
    exact hpath.append (ihnext _ hpath.keeps)
  | close id next ihnext =>
    have hclose := hkept.close id h
    exact (leads_single hclose).append (ihnext hclose)

/-- Whether a run from a registry passes a point, with the deeds up to it and the registry there. -/
def FactoryRun.Passes (run : FactoryRun) (start : Registry) (log : List Deed) (reg : Registry) :
    Prop :=
  ∃ moments, moments <+: run.course start ∧ log = moments.map (·.1) ∧
    reg = Registry.latest start moments

/-- **A run passes the point at which it ends.** -/
theorem FactoryRun.passes_end (run : FactoryRun) (start : Registry) :
    run.Passes start ((run.course start).map (·.1)) (run.run start).2 := by
  have hkept : Kept fun _ _ => True :=
    ⟨fun _ _ _ => trivial, fun _ _ _ _ _ => trivial, fun _ _ => trivial⟩
  have hleads : Leads (fun _ _ => True) [] start (run.course start) (run.run start).2 :=
    run.course_leads hkept trivial
  exact ⟨_, List.prefix_refl _, rfl, hleads.latest_eq.symm⟩

/-- **Every point of a run keeps** what nothing that happens to a registry breaks. -/
theorem FactoryRun.Passes.kept {run : FactoryRun} {start reg : Registry} {log : List Deed}
    (h : run.Passes start log reg) (hkept : Kept P) (hstart : P [] start) : P log reg := by
  obtain ⟨moments, ⟨rest, hcourse⟩, rfl, rfl⟩ := h
  have hleads := run.course_leads hkept hstart
  rw [← hcourse] at hleads
  exact hleads.throughout.latest hstart

/-- **At every point of a run** the entries are the filesystems that were opened and not closed. -/
theorem FactoryRun.Passes.keeps {run : FactoryRun} {base : Settings} {reg : Registry}
    {log : List Deed} (h : run.Passes (.new base) log reg) : reg.Keeps log :=
  h.kept keeps_kept (keeps_new base)

end Run

end BucketFs
