import EraInfra.Core.Run
import EraInfra.Cache.Index

/-!
# Retention

`retention.go`: what a sweep sees of the bucket, what it decides and what it writes, and the policy
that `server.go` configures it with.  A sweep is not one step.  It lists the entries, the markers,
the blobs and the tombstones, one after the other; then, for one repository at a time, it reads the
clock, reads the documents of the listed entries and writes what it has decided.  Everything else
that writes to the bucket runs between any two of these.

**The store** stamps each object with its own clock.  Times are in nanoseconds.

**Workers** — a sweep under way, or the eviction of one entry that `Remove` or `claimName` has begun.
A worker that has crashed, or given up because the store did not answer, has nothing left to do.

**History** — the world also remembers which uploads were completed, which entries were committed
and what others have removed.  No worker reads that.

**Left out** — the report of a sweep and its log lines, the text of an adoption marker, which nobody
reads, and the granularity of access markers: a marker may be written at any time.  The memo of a
process answers with a document that stood at the object, however long ago (`IsDocument`).
-/

namespace EraInfra.CacheIndex

open DocStore Encoding ObjectStore Sorting

/-! ## The policy -/

/-- A minute, in nanoseconds. -/
def minute : ℤ := 60 * 10 ^ 9

/-- `Retention`, without the granularity of access markers. -/
structure Retention where
  idleTTL : ℤ
  repoQuotaBytes : ℤ
  blobGrace : ℤ
  orphanGrace : ℤ
  markerGrace : ℤ

/-- A setting that is not positive is the default. -/
def positiveOr (setting default : ℤ) : ℤ := if setting ≤ 0 then default else setting

def Retention.withDefaults (r : Retention) : Retention where
  idleTTL := positiveOr r.idleTTL (7 * 24 * 60 * minute)
  repoQuotaBytes := positiveOr r.repoQuotaBytes (10 * 2 ^ 30)
  blobGrace := positiveOr r.blobGrace (45 * minute)
  orphanGrace := positiveOr r.orphanGrace (3 * 60 * minute)
  markerGrace := positiveOr r.markerGrace (60 * minute)

/-- `config.Config`, the part that retention depends on. -/
structure Config where
  idleTTL : ℤ
  repoQuotaBytes : ℤ
  downloadTTL : ℤ
  uploadTTL : ℤ
  transferTimeout : ℤ

/-- The retention that `New` configures. -/
def Config.retention (cfg : Config) : Retention where
  idleTTL := cfg.idleTTL
  repoQuotaBytes := cfg.repoQuotaBytes
  blobGrace := cfg.downloadTTL + cfg.transferTimeout + 5 * minute
  orphanGrace := cfg.uploadTTL + cfg.transferTimeout + 15 * minute
  markerGrace := 0

/-- How long after its blob an entry may be committed. -/
def Config.commitWindow (cfg : Config) : ℤ := cfg.uploadTTL + cfg.transferTimeout

/-! ## Objects -/

def entriesRoot : Bytes := ascii "entries/"
def blobsRoot : Bytes := ascii "blobs/"
def accessRoot : Bytes := ascii "access/"
def tombstoneRoot : Bytes := ascii "tombstones/"
def adoptedSuffix : Bytes := ascii "~adopted"

structure Object where
  body : Bytes
  lastModified : ℤ
deriving DecidableEq

/-- The bucket, with the times of its objects. -/
abbrev TimedStore := Bucket Bytes Object

/-- What a listing tells: names and times, of all objects with a prefix. -/
def listAll (b : TimedStore) (start : Bytes) : List (Bytes × ℤ) :=
  (b.list fun key => start.isPrefixOf key).map fun object => (object.1, object.2.lastModified)

/-- Reads `owner/name` out of an object name below a root. -/
def repositoryOf (object root : Bytes) : Option Bytes :=
  if root.isPrefixOf object then
    let rest := object.drop root.length
    match rest.dropWhile (· ≠ slash) with
    | [] => none
    | _ :: rest₁ =>
      match rest₁.dropWhile (· ≠ slash) with
      | [] => none
      | _ :: _ => some (rest.takeWhile (· ≠ slash) ++ slash :: rest₁.takeWhile (· ≠ slash))
  else none

/-- The text before a suffix. -/
def cutSuffix (s ending : Bytes) : Option Bytes :=
  if ending.isSuffixOf s then some (s.take (s.length - ending.length)) else none

variable (go : Library)

/-! ## Scanning -/

/-- What `scan` has listed so far, of one repository or of all. -/
structure Listing where
  /-- The store's time at the listing of the entries; the sweep does not know it. -/
  listedAt : ℤ
  /-- What the names begin with after their root. -/
  segment : Bytes
  entries : List (Bytes × ℤ)
  markers : List (Bytes × ℤ)
  blobs : List (Bytes × ℤ)
  tombstones : List (Bytes × ℤ)

/-- One repository's objects, as listed. -/
structure Snapshot where
  repository : Bytes
  entries : List Bytes
  markers : Bucket Bytes ℤ
  adopted : Bucket Bytes ℤ
  blobs : Bucket Bytes ℤ
  tombstones : Bucket Bytes ℤ

/-- The map that a loop over a listing fills, from the keys it takes out of the names. -/
def collect (keyOf : Bytes → Option Bytes) (listing : List (Bytes × ℤ)) : Bucket Bytes ℤ :=
  listing.foldl (fun found object =>
    match keyOf object.1 with
    | some key => found.put key object.2
    | none => found) Bucket.empty

/-- The rest of a name below a root, if it is of this repository. -/
def keyBelow (start root repository object : Bytes) : Option Bytes :=
  if repositoryOf object (start ++ root) = some repository then some (object.drop start.length)
  else none

def Listing.snapshot (l : Listing) (repository : Bytes) : Snapshot where
  repository := repository
  entries := l.entries.filterMap fun object => keyBelow [] entriesRoot repository object.1
  markers := collect (fun object => do
    let entry ← keyBelow accessRoot entriesRoot repository object
    if (cutSuffix entry adoptedSuffix).isSome then none else some entry) l.markers
  adopted := collect (fun object => do
    let entry ← keyBelow accessRoot entriesRoot repository object
    cutSuffix entry adoptedSuffix) l.markers
  blobs := collect (keyBelow [] blobsRoot repository) l.blobs
  tombstones := collect (keyBelow tombstoneRoot blobsRoot repository) l.tombstones

/-- The repositories with an object in the listing, in order. -/
def Listing.repositories (l : Listing) : List Bytes :=
  sortBy id ((l.entries.filterMap fun object => repositoryOf object.1 entriesRoot) ++
    (l.markers.filterMap fun object => repositoryOf object.1 (accessRoot ++ entriesRoot)) ++
    (l.blobs.filterMap fun object => repositoryOf object.1 blobsRoot) ++
    l.tombstones.filterMap fun object =>
      repositoryOf object.1 (tombstoneRoot ++ blobsRoot)).eraseDups

/-- The part of `scan`'s prefixes that names a repository, or nothing for all. -/
def scanSegment (repository : Bytes) : Bytes :=
  if repository = [] then [] else repositorySegment go repository ++ [slash]

/-! ## Records -/

/-- An entry with what its markers tell. -/
structure Record where
  entry : Entry
  lastAccess : ℤ
  idleSince : ℤ
  marked : Bool

/-- One entry document, through the memo. -/
def entryAt (memo : Option Entry) (b : TimedStore) (object : Bytes) :
    Except StoreError (Option Entry) :=
  match memo with
  | some entry => pure (some entry)
  | none =>
    match b.get object with
    | none => pure none
    | some found =>
      if found.body.length > maxEntryMetadataBytes then
        throw (.tooLarge object maxEntryMetadataBytes)
      else
        match go.unmarshalEntry found.body with
        | none => pure none
        | some entry => pure (some { entry with object })

/-- The later of a time and a marker's. -/
def laterOf (time : ℤ) (marker : Option ℤ) : ℤ :=
  match marker with
  | some lastModified => if lastModified > time then lastModified else time
  | none => time

/-- An entry with the times that decide about it. -/
def recordOf (snap : Snapshot) (object : Bytes) (entry : Entry) : Record :=
  let marker := snap.markers.get object
  let adoption := snap.adopted.get object
  let lastAccess := laterOf (entry.createdAt * 10 ^ 6) marker
  { entry, lastAccess, idleSince := laterOf lastAccess adoption,
    marked := marker.isSome || adoption.isSome }

/-! ## Deciding -/

/-- A write of the index to its bucket. -/
inductive StoreOp
  | put (key body : Bytes)
  | delete (key : Bytes)

/-- The writes that evict one entry, in order. -/
def evict (record : Record) : List StoreOp :=
  let ownBlobs := blobsRoot ++ repositorySegment go record.entry.repository ++ [slash]
  let object := record.entry.object
  (if ownBlobs.isPrefixOf record.entry.blob then
    [.put (tombstoneRoot ++ record.entry.blob) object] else []) ++
    [.delete object, .delete (accessRoot ++ object), .delete (accessRoot ++ object ++ adoptedSuffix)]

/-- Least recently used first, then the older entry, then by name. -/
def lruOrder (records : List Record) : List Record :=
  sortBy (fun r => toLex (r.lastAccess, toLex (r.entry.createdAt, r.entry.object))) records

/-- The loop that evicts from the front until the total fits. -/
def overQuota (quota : ℤ) : List Record → ℤ → List Record × List Record
  | [], _ => ([], [])
  | record :: rest, total =>
    if total > quota then
      let (evicted, keep) := overQuota quota rest (total - record.entry.size)
      (record :: evicted, keep)
    else ([], record :: rest)

/-- What a sweep does with the entries of a repository. -/
structure Verdict where
  evicted : List Record
  keep : List Record

variable (policy : Retention) (now : ℤ)

/-- The entry has lost its bytes, or nobody has used it for too long. -/
def isStale (snap : Snapshot) (record : Record) : Bool := (snap.blobs.get record.entry.blob).isNone ||
    (record.marked && record.idleSince < now - policy.idleTTL)

/-- Stale entries go, then the least recently used until the rest fits the quota. -/
def judge (snap : Snapshot) (records : List Record) : Verdict :=
  let records := lruOrder records
  let rest := records.filter fun record => !isStale policy now snap record
  let (excess, keep) := overQuota policy.repoQuotaBytes rest (rest.map fun r => r.entry.size).sum
  ⟨(records.filter (isStale policy now snap)) ++ excess, keep⟩

/-- The tombstones of a sweep, with those it has just written. -/
def tombstonesAfter (snap : Snapshot) (verdict : Verdict) : Bucket Bytes ℤ :=
  verdict.evicted.foldl (fun found record => found.put record.entry.blob now) snap.tombstones

/-- Each blob is referenced, tombstoned, or neither. -/
def sweepBlob (verdict : Verdict) (tombstones : Bucket Bytes ℤ) (key : Bytes)
    (lastModified : ℤ) : List StoreOp :=
  if verdict.keep.any fun record => record.entry.blob = key then
    match tombstones.get key with
    | some written =>
      if now - written ≥ policy.blobGrace then [.delete (tombstoneRoot ++ key)] else []
    | none => []
  else
    match tombstones.get key with
    | some written =>
      if now - written < policy.blobGrace then []
      else [.delete key, .delete (tombstoneRoot ++ key)]
    | none => if now - lastModified < policy.orphanGrace then [] else [.delete key]

/-- A marker of an entry that is neither live nor evicted just now. -/
def sweepMarker (verdict : Verdict) (ending object : Bytes) (lastModified : ℤ) :
    List StoreOp :=
  if verdict.keep.any fun record => record.entry.object = object then []
  else if verdict.evicted.any fun record => record.entry.object = object then []
  else if now - lastModified < policy.markerGrace then []
  else [.delete (accessRoot ++ object ++ ending)]

/-- The orders in which the loops over maps go through their keys. -/
structure Ranges where
  blobs : List Bytes
  tombstones : List Bytes
  markers : List Bytes
  adopted : List Bytes

/-- A loop over a map. -/
def rangeOver (keys : List Bytes) (found : Bucket Bytes ℤ) (body : Bytes → ℤ → List StoreOp) :
    List StoreOp :=
  keys.flatMap fun key =>
    match found.get key with
    | some lastModified => body key lastModified
    | none => []

/-- The writes of a sweep of one repository, in order. -/
def sweepSnapshot (ranges : Ranges) (snap : Snapshot) (records : List Record) : List StoreOp :=
  let verdict := judge policy now snap records
  let tombstones := tombstonesAfter now snap verdict
  verdict.evicted.flatMap (evict go) ++
    (verdict.keep.filter fun record => !record.marked).map (fun record =>
      .put (accessRoot ++ record.entry.object ++ adoptedSuffix) []) ++
    rangeOver ranges.blobs snap.blobs (sweepBlob policy now verdict tombstones) ++
    rangeOver ranges.tombstones tombstones (fun key _ =>
      if (snap.blobs.get key).isSome then [] else [.delete (tombstoneRoot ++ key)]) ++
    rangeOver ranges.markers snap.markers (sweepMarker policy now verdict []) ++
    rangeOver ranges.adopted snap.adopted (sweepMarker policy now verdict adoptedSuffix)

/-- The orders are those of the maps as they are when the loops come to them. -/
def Ranges.Of (ranges : Ranges) (snap : Snapshot) (records : List Record) : Prop :=
  let names := fun found : Bucket Bytes ℤ => found.objects.map Prod.fst
  ranges.blobs.Perm (names snap.blobs) ∧ ranges.tombstones.Perm
      (names (tombstonesAfter now snap (judge policy now snap records))) ∧
    ranges.markers.Perm (names snap.markers) ∧ ranges.adopted.Perm (names snap.adopted)

instance (ranges : Ranges) (snap : Snapshot) (records : List Record) :
    Decidable (ranges.Of policy now snap records) := by
  unfold Ranges.Of
  infer_instance

/-! ## The world -/

/-- Bytes that have been written in full. -/
structure Upload where
  repository : Bytes
  name : Bytes
  time : ℤ

def Upload.blob (u : Upload) : Bytes := blobObject go u.repository u.name

/-- An entry that has been written, as it was. -/
structure Save where
  entry : Entry
  time : ℤ

/-- The bucket and its clock, with what has been written and what others have deleted. -/
structure World where
  bucket : TimedStore
  clock : ℤ
  completed : List Upload
  committed : List Save
  /-- What others than the service have deleted. -/
  removed : List Bytes

def World.perform (w : World) : StoreOp → World
  | .put key body => { w with bucket := w.bucket.put key ⟨body, w.clock⟩ }
  | .delete key => { w with bucket := w.bucket.delete key }

/-- A document that has stood at an object. -/
def IsDocument (w : World) (object : Bytes) (entry : Entry) : Prop :=
  ∃ save ∈ w.committed, entryObject go save.entry = object ∧
    (go.unmarshalEntry (go.marshalEntry save.entry)).map ({ · with object }) = some entry

instance (w : World) (object : Bytes) (entry : Entry) : Decidable (IsDocument go w object entry) :=
  List.decidableBEx _ _

/-- What a worker has done so far. -/
inductive Worker
  | entriesListed (l : Listing)
  | markersListed (l : Listing)
  | blobsListed (l : Listing)
  /-- All is listed; some repositories are left, and the writes for the last one. -/
  | sweeping (l : Listing) (repositories : List Bytes) (ops : List StoreOp)
  /-- The documents of one repository are being read, in any order. -/
  | reading (l : Listing) (repositories : List Bytes) (snap : Snapshot) (now : ℤ)
      (unread : List Bytes) (records : List Record)
  /-- The writes of an eviction. -/
  | evicting (ops : List StoreOp)

/-- What a worker does next. -/
inductive Action
  | list
  | now (time : ℤ)
  | read (object : Bytes) (memo : Option Entry)
  | decided (ranges : Ranges)
  | write
  | crash

/-- One document of a repository that is being read. -/
def readEntry (snap : Snapshot) (memo : Option Entry) (b : TimedStore) (object : Bytes) :
    Except StoreError (Option Record) := do
  match ← entryAt go memo b object with
  | none => pure none
  | some entry =>
    if !go.equalFold entry.repository snap.repository then pure none
    else pure (some (recordOf snap object entry))

/-- One step of a worker; an action that is not due does nothing. -/
def Worker.next (w : World) : Worker → Action → World × Worker
  | .entriesListed l, .list =>
    (w, .markersListed { l with markers := listAll w.bucket (accessRoot ++ entriesRoot ++ l.segment) })
  | .markersListed l, .list =>
    (w, .blobsListed { l with blobs := listAll w.bucket (blobsRoot ++ l.segment) })
  | .blobsListed l, .list =>
    let l := { l with tombstones := listAll w.bucket (tombstoneRoot ++ blobsRoot ++ l.segment) }
    (w, .sweeping l l.repositories [])
  | .sweeping l (repository :: repositories) [], .now time =>
    let snap := l.snapshot repository
    (w, .reading l repositories snap time snap.entries [])
  | .reading l repositories snap time unread records, .read object memo =>
    if object ∈ unread then
      match readEntry go snap memo w.bucket object with
      | .error _ => (w, .evicting [])
      | .ok found =>
        (w, .reading l repositories snap time (unread.erase object) (records ++ found.toList))
    else (w, .reading l repositories snap time unread records)
  | .reading l repositories snap time [] records, .decided ranges =>
    (w, .sweeping l repositories (sweepSnapshot go policy time ranges snap records))
  | .sweeping l repositories (op :: ops), .write => (w.perform op, .sweeping l repositories ops)
  | .evicting (op :: ops), .write => (w.perform op, .evicting ops)
  | _, .crash => (w, .evicting [])
  | worker, _ => (w, worker)

/-! ## The system -/

structure System where
  world : World
  workers : List Worker

/-- What happens to the bucket. -/
inductive Event
  /-- The store's clock moves. -/
  | tick (time : ℤ)
  /-- The bytes of a blob have been written. -/
  | complete (repository name body : Bytes)
  /-- `Commit`, at a time of the service's clock. -/
  | commit (now : ℤ) (entry : Entry)
  /-- An access marker or a name record is written. -/
  | mark (key body : Bytes)
  /-- Somebody else deletes an object. -/
  | remove (key : Bytes)
  /-- `Remove` or `claimName` begins to evict an entry. -/
  | evict (record : Record)
  /-- A sweep of a repository, or of all, lists its entries. -/
  | sweep (repository : Bytes)
  /-- A worker goes on. -/
  | work (worker : ℕ) (action : Action)

/-- The write of `Commit`. -/
def World.commit (w : World) (time : ℤ) (entry : Entry) : World :=
  match commitObject go time entry with
  | .ok (object, body) =>
    { w with
      bucket := w.bucket.put object ⟨body, w.clock⟩
      committed := ⟨{ entry with createdAt := time / 10 ^ 6 }, w.clock⟩ :: w.committed }
  | .error _ => w

def World.complete (w : World) (repository name body : Bytes) : World := { w with
    bucket := w.bucket.put (blobObject go repository name) ⟨body, w.clock⟩
    completed := ⟨repository, name, w.clock⟩ :: w.completed }

/-- The first listing of a sweep. -/
def World.listEntries (w : World) (repository : Bytes) : Listing where
  listedAt := w.clock
  segment := scanSegment go repository
  entries := listAll w.bucket (entriesRoot ++ scanSegment go repository)
  markers := []
  blobs := []
  tombstones := []

/-- One event of the system. -/
def stepRetention (s : System) : Event → System
  | .tick time => { s with world := { s.world with clock := time } }
  | .complete repository name body =>
    { s with world := s.world.complete go repository name body }
  | .commit time entry => { s with world := s.world.commit go time entry }
  | .mark key body => { s with world := s.world.perform (.put key body) }
  | .remove key =>
    { s with world := { s.world.perform (.delete key) with
        removed := key :: s.world.removed } }
  | .evict record => { s with workers := s.workers ++ [.evicting (evict go record)] }
  | .sweep repository =>
    { s with workers := s.workers ++ [.entriesListed (s.world.listEntries go repository)] }
  | .work i action =>
    match s.workers[i]? with
    | none => s
    | some worker =>
      let (world, worker) := worker.next go policy s.world action
      ⟨world, s.workers.set i worker⟩

/-- Nothing has been saved. -/
def emptySystem (clock : ℤ) : System := ⟨⟨Bucket.empty, clock, [], [], []⟩, []⟩

/-! ## Saves -/

/-- The write of an entry belongs to a save: its blob has been completed for its repository, not
longer ago than the window, and is no other entry's; and the document's repository and blob are read
back as they were written. -/
def CommitsSave (window : ℤ) (w : World) (time : ℤ) (entry : Entry) : Prop :=
  let stamped := { entry with createdAt := time / 10 ^ 6 }
  (∃ upload ∈ w.completed, upload.blob go = entry.blob ∧ upload.repository = entry.repository ∧
      w.clock - upload.time ≤ window) ∧
    (∀ save ∈ w.committed, save.entry.blob ≠ entry.blob) ∧
    (go.unmarshalEntry (go.marshalEntry stamped)).map (fun e => (e.repository, e.blob))
      = some (entry.repository, entry.blob)

instance (window : ℤ) (w : World) (time : ℤ) (entry : Entry) :
    Decidable (CommitsSave go window w time entry) := by
  unfold CommitsSave
  infer_instance

/-- No other entry has been written at the object of the entry.  Saves of one key, version and ref of
a repository share their object when they are committed in one millisecond. -/
def OwnObject (w : World) (time : ℤ) (entry : Entry) : Prop :=
  ∀ save ∈ w.committed,
    entryObject go save.entry ≠ entryObject go { entry with createdAt := time / 10 ^ 6 }

instance (w : World) (time : ℤ) (entry : Entry) : Decidable (OwnObject go w time entry) :=
  List.decidableBAll _ _

/-- A worker reads its memo and its maps as they are. -/
def Worker.Does (w : World) : Worker → Action → Prop
  | _, .read object (some entry) => IsDocument go w object entry
  | .reading _ _ snap time [] records, .decided ranges => ranges.Of policy time snap records
  | _, _ => True

instance (w : World) (worker : Worker) (action : Action) :
    Decidable (worker.Does go policy w action) := by
  unfold Worker.Does
  split <;> infer_instance

/-- What can happen: time does not go back, a blob's name is new, entries are committed by saves, and
nothing but saves and sweeps writes below `entries/`, `blobs/` and `tombstones/`. -/
def Happens (window : ℤ) (s : System) : Event → Prop
  | .tick time => s.world.clock ≤ time
  | .complete repository name _ =>
    ∀ upload ∈ s.world.completed, upload.blob go ≠ blobObject go repository name
  | .commit time entry =>
    (commitObject go time entry).isOk = true → CommitsSave go window s.world time entry
  | .mark key _ =>
    ¬ entriesRoot <+: key ∧ ¬ blobsRoot <+: key ∧ ¬ tombstoneRoot <+: key
  | .remove _ => True
  | .evict record => IsDocument go s.world record.entry.object record.entry
  | .sweep _ => True
  | .work i action => ∀ worker ∈ s.workers[i]?, worker.Does go policy s.world action

instance (window : ℤ) (s : System) (event : Event) : Decidable (Happens go policy window s event) := by
  unfold Happens
  split <;> infer_instance

end EraInfra.CacheIndex
