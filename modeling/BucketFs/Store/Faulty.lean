import BucketFs.Store.Answer

/-!
# Stores that fail as told

A faulty store keeps a log of the calls made to it, then fails or alters the calls that its fault
plan names, and passes all others on to the store behind it.  It serves to exercise what the
library does when a store fails.
-/

namespace BucketFs

/-- Which calls fail, and which answers are altered. -/
structure FaultPlan where
  head : List String := []
  get : List String := []
  put : List String := []
  delete : List String := []
  /-- Target keys of copies. -/
  copy : List String := []
  /-- Prefixes of listings. -/
  list : List String := []
  buckets : Bool := false
  initiate : Bool := false
  complete : Bool := false
  abort : Bool := false
  /-- Numbers of parts. -/
  part : List Nat := []
  /-- The tag that a part which was stored is answered by. -/
  partEtags : List (Nat × String) := []
  /-- The sizes that probes of keys report. -/
  sizes : List (String × Nat) := []
  /-- The times that probes of keys report. -/
  times : List (String × Timestamp) := []
  /-- The pages by which listings of a prefix are answered, one after the other. -/
  pages : List (String × List ListPage) := []
  /-- The length of the local file, or its absence, from the sending of a part on. -/
  fileAtPart : List (Nat × Option Nat) := []
  deriving DecidableEq, Repr

/-- A store behind a fault plan, with the log of calls. -/
structure FaultyStore where
  inner : Store
  faults : FaultPlan := {}
  log : List StoreCall := []

namespace FaultyStore

/-- The failure of a call of the given kind. -/
def failure (kind : String) : FsError := .internal (.worded ("injected " ++ kind ++ " failure"))

/-- The failure that the plan has for a call; listings that are scripted fail past the last page. -/
def faultOf? (f : FaultPlan) : StoreCall → Option FsError
  | .head _ key => if key ∈ f.head then some (failure "head") else none
  | .list r =>
    if r.listed ∈ f.list then some (failure "list")
    else if f.pages.lookup r.listed = some [] then some (failure "script")
    else none
  | .get _ key _ => if key ∈ f.get then some (failure "get") else none
  | .put _ key _ _ => if key ∈ f.put then some (failure "put") else none
  | .delete _ key => if key ∈ f.delete then some (failure "delete") else none
  | .copy _ _ _ key _ => if key ∈ f.copy then some (failure "copy") else none
  | .buckets => if f.buckets then some (failure "buckets") else none
  | .initiate _ _ _ => if f.initiate then some (failure "initiate") else none
  | .uploadPart _ number _ _ => if number ∈ f.part then some (failure "part") else none
  | .copyPart _ number _ _ _ => if number ∈ f.part then some (failure "part") else none
  | .complete _ _ => if f.complete then some (failure "complete") else none
  | .abort _ => if f.abort then some (failure "abort") else none

/-- The page that the plan answers a listing by. -/
def scriptedPage? (f : FaultPlan) (r : ListQuery) : Option ListPage :=
  match f.pages.lookup r.listed with
  | some (page :: _) => some { page with listed := r.listed, delimiter := r.delimiter }
  | _ => none

/-- The plan after a scripted page of a prefix was used. -/
def spendPage (f : FaultPlan) (listed : String) : FaultPlan :=
  { f with pages := f.pages.map fun e => if e.1 = listed then (e.1, e.2.tail) else e }

/-- An answer as the plan alters it. -/
def alter (f : FaultPlan) : (c : StoreCall) → c.Value → c.Value
  | .head _ key, info =>
    { info with
      size := (f.sizes.lookup key).getD info.size
      lastModified := (f.times.lookup key).getD info.lastModified }
  | .uploadPart _ number _ _, etag => (f.partEtags.lookup number).getD etag
  | .copyPart _ number _ _ _, etag => (f.partEtags.lookup number).getD etag
  | _, value => value

/-- The local file after a call was made: sending a part may cut it off or remove it. -/
def fileAfter (f : FaultPlan) (c : StoreCall) (file : LocalFile) : LocalFile :=
  match c with
  | .uploadPart _ number _ _ =>
    match f.fileAtPart.lookup number with
    | none => file
    | some none => .absent
    | some (some length) => file.resize length
  | _ => file

/-- Lets the store behind answer a call and alters the answer. -/
def pass (s : FaultyStore) (c : StoreCall) : Result c.Value × FaultyStore :=
  let (reply, inner) := s.inner.answer c
  (reply.map (alter s.faults c), { s with inner })

/-- Answers a call: it is logged, then it fails, or is answered by a scripted page, or is passed
on. -/
def answer (s : FaultyStore) (c : StoreCall) : Result c.Value × FaultyStore :=
  let s := { s with log := s.log ++ [c] }
  match faultOf? s.faults c with
  | some e => (.error e, s)
  | none =>
    match c with
    | .list r =>
      match scriptedPage? s.faults r with
      | some page => (.ok page, { s with faults := spendPage s.faults r.listed })
      | none => s.pass (.list r)
    | c => s.pass c

end FaultyStore

/-- Several stores by number, and the local file of the upload at hand. -/
structure Stores where
  all : List FaultyStore := []
  file : LocalFile := .absent

namespace Stores

/-- The answer of a store that does not exist. -/
def noStore : FsError := .internal (.worded "no such store")

/-- Answers each call by the store or the file it is meant for. -/
def handler : Handler Stores
  | .store through c, s =>
    match s.all[through.store]? with
    | none => (.error noStore, s)
    | some store =>
      let (reply, store') := store.answer c
      (reply, ⟨s.all.set through.store store', FaultyStore.fileAfter store.faults c s.file⟩)
  | .file c, s => (s.file.answer c, s)

end Stores

end BucketFs
