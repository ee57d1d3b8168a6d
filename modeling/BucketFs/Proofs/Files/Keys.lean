import BucketFs.Proofs.Files.Written

/-!
# The keys of stores under runs of operations

* `Files.OntoBucket.spoils` — an operation that puts a marker onto a bucket leaves a key there that
  is not canonical.
* `FileStep` — one operation of a run, with the filesystems and the local file as they are then.
* `FileStep.passed` — the stores that a run of operations passes through, call by call.
* `FileStep.keys_canonical` — if all keys are canonical at the start, they are so throughout, unless
  a directory is copied or moved onto a bucket and its marker is put there
  (`FileStep.copy_onto_bucket`).
* `FileStep.permitted_of_wellKeyed` — and no run in which that happens keeps them so.
-/

namespace BucketFs

open BucketFs.Text

/-- **An operation that puts a marker onto a bucket** passes through a store that is not
well-keyed. -/
theorem Files.OntoBucket.spoils {σ : Type} {h : Handler σ} {view : StoreId → σ → Store}
    (hserves : ∀ i, h.Serves (fun through => through.store = i) (view i)) (hquiet : h.Quiet)
    {f : Files} {op : FileOperation} {s : σ} (honto : f.OntoBucket h s op) :
    ∃ t ∈ (f.perform op).run.states h s, ∃ i, ¬ (view i t).WellKeyed := by
  cases op with
  | copy source target options =>
    exact ⟨_, Program.run_mem_states _ _ _, MarksBucket.spoils hserves honto⟩
  | move source target options =>
    obtain ⟨hempty, hmarks⟩ := honto
    refine ⟨_, ?_, hmarks.spoils hserves⟩
    obtain ⟨hother, found, t, -, -, -, -, hstatus, hdirectory, -⟩ := hmarks
    -- the copy starts from the state of the move, since only questions come before it
    have ht := hquiet.status_run f source s
    rw [hstatus] at ht
    obtain rfl : t = s := ht
    have hlooked : (f.ensureEmpty source).run.run h t = (.ok (), t) :=
      Prod.ext hempty (hquiet.ensureEmpty_run f source t)
    change _ ∈ (f.move source target options).run.states h t
    rw [move, if_neg hother]
    refine Action.mem_states_behind hstatus ?_
    dsimp only
    rw [if_pos hdirectory]
    refine Action.mem_states_behind hlooked ?_
    rw [Action.run_bind]
    exact Program.mem_states_bind (Program.run_mem_states _ _ _)
  | _ => exact honto.elim

/-- One operation of a run. -/
structure FileStep where
  /-- The filesystems as they stand. -/
  files : Files
  /-- What stands at the name of the local file that is uploaded. -/
  file : LocalFile
  op : FileOperation

namespace FileStep

/-- The stores after an operation. -/
def after (faults : StoreId → StoreCall → Option FsError) (stores : StoreId → Store)
    (step : FileStep) : StoreId → Store :=
  ((step.files.perform step.op).run.run (Store.several faults) (stores, step.file)).2.1

/-- The stores that a run of operations passes through, call by call. -/
def passed (faults : StoreId → StoreCall → Option FsError) :
    (StoreId → Store) → List FileStep → List (StoreId → Store)
  | stores, [] => [stores]
  | stores, step :: rest =>
    ((step.files.perform step.op).run.states (Store.several faults) (stores, step.file)).map (·.1)
      ++ passed faults (step.after faults stores) rest

/-- Whether all paths of a run are made of names, and it never puts the marker of a directory onto a
bucket. -/
def Permitted (faults : StoreId → StoreCall → Option FsError) :
    (StoreId → Store) → List FileStep → Prop
  | _, [] => True
  | stores, step :: rest =>
    (∀ p ∈ step.op.paths, p.Named) ∧
    ¬ step.files.OntoBucket (Store.several faults) (stores, step.file) step.op ∧
    Permitted faults (step.after faults stores) rest

variable {faults : StoreId → StoreCall → Option FsError} {stores : StoreId → Store}

/-- One operation keeps the keys canonical, call by call. -/
theorem states_wellKeyed (hstores : ∀ i, (stores i).WellKeyed) {step : FileStep}
    (hnamed : ∀ p ∈ step.op.paths, p.Named)
    (hroot : ¬ step.files.OntoBucket (Store.several faults) (stores, step.file) step.op)
    (i : StoreId) :
    (∀ t ∈ (step.files.perform step.op).run.states (Store.several faults) (stores, step.file),
      (t.1 i).WellKeyed) ∧ (step.after faults stores i).WellKeyed := by
  have hserves := Store.several_serves faults i
  have hwrites := Files.perform_writes hserves (Store.several_quiet faults) hnamed hroot
  exact ⟨hwrites.states _ hserves.wellKeyed_call (hstores i),
    hwrites.keeps _ hserves.wellKeyed_call (hstores i)⟩

/-- **Operations write canonical keys only.**  If all keys of some stores are canonical, they stay
so throughout a run of operations on paths of names, whichever calls fail, unless the marker of a
directory that is copied or moved is put onto a bucket. -/
theorem keys_canonical (hstores : ∀ i, (stores i).WellKeyed) {steps : List FileStep}
    (hsteps : Permitted faults stores steps) :
    ∀ reached ∈ passed faults stores steps, ∀ i, (reached i).WellKeyed := by
  induction steps generalizing stores with
  | nil =>
    intro reached hreached
    rw [List.mem_singleton.1 hreached]
    exact hstores
  | cons step rest ih =>
    obtain ⟨hnamed, hroot, hrest⟩ := hsteps
    have hstep := states_wellKeyed hstores hnamed hroot
    intro reached hreached
    rcases List.mem_append.1 hreached with hreached | hreached
    · obtain ⟨t, ht, rfl⟩ := List.mem_map.1 hreached
      exact fun i => (hstep i).1 t ht
    · exact ih (fun i => (hstep i).2) hrest reached hreached

/-- **No other run keeps the keys canonical**: one on paths of names that passes through well-keyed
stores only never puts a marker onto a bucket. -/
theorem permitted_of_wellKeyed {steps : List FileStep}
    (hnamed : ∀ step ∈ steps, ∀ p ∈ step.op.paths, p.Named)
    (hkeys : ∀ reached ∈ passed faults stores steps, ∀ i, (reached i).WellKeyed) :
    Permitted faults stores steps := by
  induction steps generalizing stores with
  | nil => trivial
  | cons step rest ih =>
    obtain ⟨hstep, hrest⟩ := List.forall_mem_cons.1 hnamed
    refine ⟨hstep, fun honto => ?_, ih hrest fun reached hreached =>
      hkeys reached (List.mem_append_right _ hreached)⟩
    obtain ⟨t, ht, i, hspoiled⟩ :=
      honto.spoils (Store.several_serves faults) (Store.several_quiet faults)
    exact hspoiled (hkeys t.1 (List.mem_append_left _ (List.mem_map_of_mem ht)) i)

/-- The filesystem of the examples. -/
def oneFileSystem : Files :=
  { fileSystems := [⟨0, ⟨"", ""⟩, {}, ⟨0, 0⟩, true⟩], rounds := 10 }

/-- Empty buckets `b` and `c`. -/
def emptyBuckets : Store := ((Store.new 1000 .epoch).makeBucket "b").makeBucket "c"

theorem wellKeyed_emptyBuckets : emptyBuckets.WellKeyed :=
  ((Store.wellKeyed_new 1000 .epoch).makeBucket "b").makeBucket "c"

/-- A directory is made and copied with a file to another bucket. -/
theorem keys_canonical_tree :
    let steps : List FileStep :=
      [⟨oneFileSystem, .absent, .makeDirectory (.parse 0 "/b/d" [])⟩,
        ⟨oneFileSystem, .absent, .write (.parse 0 "/b/d/k" []) [1]⟩,
        ⟨oneFileSystem, .absent, .copyAll (.parse 0 "/b" []) (.parse 0 "/c" []) {}⟩]
    (∀ reached ∈ passed (fun _ _ => none) (fun _ => emptyBuckets) steps,
        ∀ i, (reached i).WellKeyed) ∧
      (passed (fun _ _ => none) (fun _ => emptyBuckets) steps).getLast?.map
        (fun reached => ((reached 0).bucket? "c").map (·.keys)) = some (some ["d/", "d/k"]) := by
  intro steps
  have hpermitted : Permitted (fun _ _ => none) (fun _ => emptyBuckets) steps :=
    ⟨by decide +kernel, nofun, by decide +kernel, nofun, by decide +kernel, nofun, trivial⟩
  exact ⟨keys_canonical (fun _ => wellKeyed_emptyBuckets) hpermitted, by decide +kernel⟩

/-- **A directory copied onto a bucket** is written under the empty key, which no path names. -/
theorem copy_onto_bucket :
    let stores : StoreId → Store := fun _ => emptyBuckets
    let made := after (fun _ _ => none) stores
      ⟨oneFileSystem, .absent, .makeDirectory (.parse 0 "/b/d" [])⟩
    let copied := after (fun _ _ => none) made
      ⟨oneFileSystem, .absent, .copy (.parse 0 "/b/d" []) (.parse 0 "/c" [])
        { replaceExisting := true }⟩
    (∀ i, (stores i).WellKeyed) ∧ ((copied 0).bucket? "c").map (·.keys) = some [""] ∧
      ¬ (copied 0).WellKeyed := by
  intro stores made copied
  have hkeys : ((copied 0).bucket? "c").map (·.keys) = some [""] := by decide +kernel
  refine ⟨fun _ => wellKeyed_emptyBuckets, hkeys, fun hwell => ?_⟩
  obtain ⟨b, hb, hempty⟩ := Option.map_eq_some_iff.1 hkeys
  have hmem : "" ∈ b.keys := by
    rw [hempty]
    exact List.mem_singleton.2 rfl
  exact not_canonicalKey_empty (hwell.canonical hb hmem)

end FileStep

end BucketFs
