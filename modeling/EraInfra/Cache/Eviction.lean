import EraInfra.Cache.BlobLife

/-!
# Eviction and live bytes

Whether a sweep, or any number of them, can delete the bytes of an entry that is there.

**The invariant** — every pending delete of a blob is of a doomed one, and what a sweep has listed and
read is still true of the entries that are there: such an entry was listed and, once its turn has
come, read, or it was committed after the listing.

**Slow sweeps** — a sweep reads its clock after the last listing, and for each repository again, while
the entries it goes by are those of the first listing.  The graces are counted from that clock.  An
entry committed after the listing is out of danger only as long as the clock is read soon enough
(`Worker.Prompt`): `live_entries_keep_blobs`.  A sweep that is late deletes live bytes
(`slow_sweep_takes_live_bytes`).

**Shared objects** — an entry replaces another that was saved under its key in the same millisecond.
What was read of the one before is then no longer true of what is there, so such saves are set apart
(`SavesApart`).
-/

namespace EraInfra.CacheIndex

open DocStore Encoding ObjectStore Sorting List Option

/-! ## What a worker knows -/

section Workers

variable (go : Library) (policy : Retention) (window : ℤ)

/-- What a listing still tells. -/
structure Listing.Sound (w : World) (l : Listing) : Prop where
  listedAt : l.listedAt ≤ w.clock
  segment : l.segment = [] ∨ ∃ s, l.segment = s ++ [slash]
  listed : ∀ object time, (object, time) ∈ l.entries →
    ∃ save ∈ w.committed, entryObject go save.entry = object
  missed : ∀ save ∈ w.committed, entriesRoot ++ l.segment <+: entryObject go save.entry →
    (∃ time, (entryObject go save.entry, time) ∈ l.entries) ∨
      w.bucket.get (entryObject go save.entry) = none ∨ l.listedAt ≤ save.time
  blobs : ∀ key time, (key, time) ∈ l.blobs → blobsRoot ++ l.segment <+: key ∧
    ∃ upload ∈ w.completed, upload.blob go = key ∧ upload.time = time
  tombstones : ∀ blob time, (tombstoneRoot ++ blob, time) ∈ l.tombstones →
    ∃ save ∈ w.committed, save.entry.blob = blob ∧ save.time ≤ time

/-- What has been read of a repository: every listed entry that is still there, up to some. -/
structure ReadSoFar (w : World) (snap : Snapshot) (unread : List Bytes) (records : List Record) :
    Prop where
  listed : ∀ object ∈ unread, object ∈ snap.entries
  documents : ∀ record ∈ records, IsDocument go w record.entry.object record.entry
  present : ∀ save ∈ w.committed, entryObject go save.entry ∈ snap.entries →
    entryObject go save.entry ∈ unread ∨ w.bucket.get (entryObject go save.entry) = none ∨
      ∃ record ∈ records, record.entry.blob = save.entry.blob

/-- A write that does no harm: no document, no blob, a tombstone only where an entry was, and a
deleted blob is doomed. -/
def SafeOp (w : World) : StoreOp → Prop
  | .put key _ => ¬ entriesRoot <+: key ∧ ¬ blobsRoot <+: key ∧
      ∀ blob, key = tombstoneRoot ++ blob → Named w blob
  | .delete key => blobsRoot <+: key → Doomed go window w key

/-- The sweep's clock is not far from the listing of its entries. -/
def Listing.ReadSoon (l : Listing) (now : ℤ) : Prop :=
  now < l.listedAt + 15 * minute ∧ now < l.listedAt + policy.blobGrace

instance (l : Listing) (now : ℤ) : Decidable (l.ReadSoon policy now) :=
  inferInstanceAs (Decidable (_ ∧ _))

def Worker.Sound (w : World) : Worker → Prop
  | .entriesListed l => l.Sound go w
  | .markersListed l => l.Sound go w
  | .blobsListed l => l.Sound go w
  | .sweeping l _ ops => l.Sound go w ∧ ∀ op ∈ ops, SafeOp go window w op
  | .reading l _ snap now unread records => l.Sound go w ∧ l.ReadSoon policy now ∧
      (∃ repository, snap = l.snapshot repository) ∧ ReadSoFar go w snap unread records
  | .evicting ops => ∀ op ∈ ops, SafeOp go window w op

/-- A sweep that goes on to a repository reads its clock soon after it has listed the entries. -/
def Worker.Prompt : Worker → Action → Prop
  | .sweeping l (_ :: _) [], .now time => l.ReadSoon policy time
  | _, _ => True

instance (worker : Worker) (action : Action) : Decidable (worker.Prompt policy action) := by
  unfold Worker.Prompt
  split <;> infer_instance

end Workers

section Knowledge

variable {go : Library} {policy : Retention} {window : ℤ} {w w' : World} {l : Listing}
  {snap : Snapshot} {unread : List Bytes} {records : List Record} {record : Record}
  {object key repository : Bytes} {entry : Entry} {op : StoreOp} {now : ℤ} {ranges : Ranges}

/-! ## Knowledge lasts -/

lemma Later.refl : Later go window w w :=
  ⟨le_rfl, fun _ => id, fun _ => id, fun _ => .inl, fun _ _ => id⟩

lemma IsDocument.later (h : IsDocument go w object entry) (hl : Later go window w w') :
    IsDocument go w' object entry :=
  let ⟨save, hsave, hrest⟩ := h
  ⟨save, hl.committed save hsave, hrest⟩

lemma Listing.Sound.later (h : l.Sound go w) (hl : Later go window w w') : l.Sound go w' := by
  refine ⟨h.listedAt.trans hl.clock, h.segment, ?_, ?_, ?_, ?_⟩
  · intro object time hmem
    obtain ⟨save, hsave, hobject⟩ := h.listed object time hmem
    exact ⟨save, hl.committed save hsave, hobject⟩
  · intro save hsave hbelow
    rcases hl.new save hsave with hold | hnew
    · exact (h.missed save hold hbelow).imp id (Or.imp (hl.absent save hold) id)
    · exact Or.inr (Or.inr (hnew.time ▸ h.listedAt))
  · intro key time hmem
    obtain ⟨hbelow, upload, hupload, hrest⟩ := h.blobs key time hmem
    exact ⟨hbelow, upload, hl.completed upload hupload, hrest⟩
  · intro blob time hmem
    obtain ⟨save, hsave, hrest⟩ := h.tombstones blob time hmem
    exact ⟨save, hl.committed save hsave, hrest⟩

/-- The listed entries of a repository have all been committed. -/
lemma Listing.Sound.committed (h : l.Sound go w) (hmem : object ∈ (l.snapshot repository).entries) :
    ∃ save ∈ w.committed, entryObject go save.entry = object :=
  let ⟨⟨time, hlisted⟩, _⟩ := mem_snapshot_entries.mp hmem
  h.listed object time hlisted

lemma ReadSoFar.later (h : ReadSoFar go w (l.snapshot repository) unread records)
    (hlisting : l.Sound go w) (hl : Later go window w w') :
    ReadSoFar go w' (l.snapshot repository) unread records := by
  refine ⟨h.listed, fun record hmem => (h.documents record hmem).later hl, fun save hsave hmem => ?_⟩
  rcases hl.new save hsave with hold | hnew
  · exact (h.present save hold hmem).imp id (Or.imp (hl.absent save hold) id)
  · obtain ⟨other, hother, hobject⟩ := hlisting.committed hmem
    exact absurd hobject (hnew.others other hother).2

/-- A repository is folded to the segment of its objects. -/
lemma equalFold_segment (h : isOwnerName repository = true) :
    go.equalFold repository (repositorySegment go repository) = true := by
  obtain ⟨hascii, -⟩ := ownerName_split h
  have hlower : ∀ n : Fin 256, lowerByte (lowerByte (UInt8.ofFin n)) = lowerByte (UInt8.ofFin n) ∧
      (UInt8.ofFin n < 128 → lowerByte (UInt8.ofFin n) < 128) := by decide +kernel
  have hascii' : IsAsciiBytes (repository.map lowerByte) := by
    intro c hc
    obtain ⟨b, hb, rfl⟩ := mem_map.mp hc
    exact (hlower b.toFin).2 (hascii b hb)
  rw [repositorySegment, go.toLower_ascii _ hascii, go.equalFold_ascii _ _ hascii hascii', List.map_map]
  exact map_congr_left fun b _ => ((hlower b.toFin).1).symm

variable (hw : w.Sound go window)

include hw

lemma SafeOp.later (hl : Later go window w w')
    (h : SafeOp go window w op) : SafeOp go window w' op := by
  cases op with
  | put key body => exact ⟨h.1, h.2.1, fun blob heq => (h.2.2 blob heq).later hl⟩
  | delete key => exact fun hkey => (h hkey).later hw hl

lemma Worker.Sound.later {worker : Worker} (hl : Later go window w w')
    (h : worker.Sound go policy window w) : worker.Sound go policy window w' := by
  cases worker with
  | entriesListed l | markersListed l | blobsListed l => exact Listing.Sound.later h hl
  | sweeping l repositories ops => exact ⟨h.1.later hl, fun op hop => (h.2 op hop).later hw hl⟩
  | reading l repositories snap now unread records =>
    obtain ⟨hlisting, hsoon, ⟨repository, rfl⟩, hread⟩ := h
    exact ⟨hlisting.later hl, hsoon, ⟨repository, rfl⟩, hread.later hlisting hl⟩
  | evicting ops => exact fun op hop => (h op hop).later hw hl

/-! ## Listing -/

lemma listEntries_sound : (w.listEntries go repository).Sound go w := by
  refine ⟨le_rfl, ?_, ?_, ?_, nofun, nofun⟩
  · simp only [World.listEntries, scanSegment]
    split
    · exact .inl rfl
    · exact .inr ⟨_, rfl⟩
  · intro object time hmem
    obtain ⟨found, hget, -, hbelow⟩ := mem_listAll.mp hmem
    obtain ⟨save, hsave, hobject, -⟩ := hw.entries object found hget ((prefix_append _ _).trans hbelow)
    exact ⟨save, hsave, hobject⟩
  · intro save hsave hbelow
    cases hget : w.bucket.get (entryObject go save.entry) with
    | none => exact .inr (.inl rfl)
    | some found => exact .inl ⟨_, mem_listAll.mpr ⟨found, hget, rfl, hbelow⟩⟩

lemma Listing.Sound.listBlobs (h : l.Sound go w) :
    Listing.Sound go w { l with blobs := listAll w.bucket (blobsRoot ++ l.segment) } := by
  refine ⟨h.listedAt, h.segment, h.listed, h.missed, ?_, h.tombstones⟩
  intro key time hmem
  obtain ⟨found, hget, rfl, hbelow⟩ := mem_listAll.mp hmem
  exact ⟨hbelow, hw.blobs key found hget ((prefix_append _ _).trans hbelow)⟩

lemma Listing.Sound.listTombstones (h : l.Sound go w) : Listing.Sound go w
      { l with tombstones := listAll w.bucket (tombstoneRoot ++ blobsRoot ++ l.segment) } := by
  refine ⟨h.listedAt, h.segment, h.listed, h.missed, h.blobs, ?_⟩
  intro blob time hmem
  obtain ⟨found, hget, rfl, -⟩ := mem_listAll.mp hmem
  exact hw.tombstones blob found hget

/-! ## Reading -/

/-- A document that has stood at an object is that of the one save that wrote there. -/
lemma IsDocument.save (h : IsDocument go w object entry) :
    entry.object = object ∧ ∃ save ∈ w.committed, entryObject go save.entry = object ∧
      entry.blob = save.entry.blob ∧ entry.repository = save.entry.repository := by
  obtain ⟨save, hsave, hobject, hentry⟩ := h
  obtain ⟨stored, hstored, rfl⟩ := map_eq_some_iff.mp hentry
  have hread := (hw.saves save hsave).readBack
  rw [hstored] at hread
  obtain ⟨hrepository, hblob⟩ := Prod.mk.inj (some.inj hread)
  exact ⟨rfl, save, hsave, hobject, hblob, hrepository⟩

variable {memo : Option Entry} {save : Save}

section

variable (hbelow : entriesRoot <+: object) (hmemo : ∀ entry ∈ memo, IsDocument go w object entry)

include hbelow hmemo

/-- A document that is read at an object has stood there, and none is read only if none is there. -/
lemma entryAt_cases {found : Option Entry} (h : entryAt go memo w.bucket object = .ok found) :
    w.bucket.get object = none ∧ found = none ∨
      ∃ entry, found = some entry ∧ IsDocument go w object entry := by
  unfold entryAt at h
  split at h
  · cases h
    exact .inr ⟨_, rfl, hmemo _ rfl⟩
  split at h
  · rename_i hnone
    cases h
    exact .inl ⟨hnone, rfl⟩
  rename_i stored hget
  obtain ⟨save, hsave, hobject, hbody⟩ := hw.entries object stored hget hbelow
  split at h
  · cases h
  split at h
  · rename_i hnone
    have hread := (hw.saves save hsave).readBack
    rw [← hbody, hnone] at hread
    cases hread
  rename_i entry hentry
  cases h
  exact .inr ⟨_, rfl, save, hsave, hobject, by rw [← hbody, hentry]; rfl⟩

/-- A record is made of a document that has stood at its object. -/
lemma readEntry_document (h : readEntry go snap memo w.bucket object = .ok (some record)) :
    IsDocument go w object record.entry := by
  obtain ⟨document, hdocument, h⟩ := bind_ok.mp h
  rcases entryAt_cases hw hbelow hmemo hdocument with ⟨-, rfl⟩ | ⟨entry, rfl, hstood⟩
  · cases h
  dsimp only at h
  split at h
  · cases h
  · cases h
    exact hstood

end

variable {found : Option Record}

/-- An entry that is there has a record. -/
lemma readEntry_present (hsave : save ∈ w.committed)
    (hlisted : entryObject go save.entry ∈ (l.snapshot repository).entries)
    (hpresent : w.bucket.get (entryObject go save.entry) ≠ none)
    (hmemo : ∀ entry ∈ memo, IsDocument go w (entryObject go save.entry) entry)
    (h : readEntry go (l.snapshot repository) memo w.bucket (entryObject go save.entry) = .ok found) :
    ∃ record, found = some record ∧ record.entry.blob = save.entry.blob := by
  obtain ⟨document, hdocument, h⟩ := bind_ok.mp h
  rcases entryAt_cases hw (entryObject_below _) hmemo hdocument with ⟨hgone, -⟩ | ⟨entry, rfl, hstood⟩
  · exact absurd hgone hpresent
  obtain ⟨-, writer, hwriter, hobject, hblob, hwritten⟩ := hstood.save hw
  obtain rfl := hw.savedOnce writer hwriter save hsave (.inr hobject)
  -- the document names the repository in whose tree it stands
  have hvalid := (hw.saves writer hwriter).valid
  obtain ⟨-, hrepository⟩ := mem_snapshot_entries.mp hlisted
  rw [repositoryOf_entryObject hvalid] at hrepository
  have hfold : go.equalFold entry.repository (l.snapshot repository).repository = true := by
    rw [hwritten, ← some.inj hrepository]
    exact equalFold_segment hvalid
  dsimp only at h
  rw [hfold] at h
  exact ⟨_, (pure_ok.mp h).symm, hblob⟩

/-- **Reading one document.**  What has been read grows by the document, unless it has gone. -/
lemma ReadSoFar.read
    (hlisting : l.Sound go w) (h : ReadSoFar go w (l.snapshot repository) unread records)
    (hunread : object ∈ unread) (hmemo : ∀ entry ∈ memo, IsDocument go w object entry)
    (hread : readEntry go (l.snapshot repository) memo w.bucket object = .ok found) :
    ReadSoFar go w (l.snapshot repository) (unread.erase object) (records ++ found.toList) := by
  obtain ⟨save, hsave, rfl⟩ := hlisting.committed (h.listed object hunread)
  refine ⟨fun object hmem => h.listed object (mem_of_mem_erase hmem), ?_, ?_⟩
  · intro record hmem
    rcases mem_append.mp hmem with hmem | hmem
    · exact h.documents record hmem
    · obtain rfl : found = some record := mem_toList.mp hmem
      have hdocument := readEntry_document hw (entryObject_below _) hmemo hread
      rwa [(hdocument.save hw).1]
  · intro other hother hlisted
    by_cases hsame : entryObject go other.entry = entryObject go save.entry
    · obtain rfl := hw.savedOnce other hother save hsave (.inr hsame)
      by_cases hgone : w.bucket.get (entryObject go other.entry) = none
      · exact .inr (.inl hgone)
      · obtain ⟨record, rfl, hblob⟩ := readEntry_present hw hother hlisted hgone hmemo hread
        exact .inr (.inr ⟨record, mem_append_right _ (by simp), hblob⟩)
    · rcases h.present other hother hlisted with hunread | hrest
      · exact .inl ((mem_erase_of_ne hsame).mpr hunread)
      · refine .inr (hrest.imp id ?_)
        rintro ⟨record, hmem, hblob⟩
        exact ⟨record, mem_append_left _ hmem, hblob⟩

/-! ## Deciding -/

/-- The tombstone of an entry that was read. -/
lemma tombstone_safe {body : Bytes} (hrecord : IsDocument go w record.entry.object record.entry) :
    SafeOp go window w (.put (tombstoneRoot ++ record.entry.blob) body) := by
  obtain ⟨-, save, hsave, -, hblob, -⟩ := hrecord.save hw
  have hbelow : tombstoneRoot <+: tombstoneRoot ++ record.entry.blob := prefix_append _ _
  refine ⟨not_below hbelow (by decide), not_below hbelow (by decide), fun blob heq => ?_⟩
  obtain rfl := append_cancel_left heq
  exact ⟨save, hsave, hblob.symm⟩

/-- The writes of an eviction do no harm. -/
lemma evict_safe
    (hrecord : IsDocument go w record.entry.object record.entry) (h : op ∈ evict go record) :
    SafeOp go window w op := by
  rcases mem_evict h with rfl | rfl | ⟨rest, rfl⟩
  · exact tombstone_safe hw hrecord
  · intro hbelow
    obtain ⟨-, save, -, hobject, -⟩ := hrecord.save hw
    rw [← hobject] at hbelow
    exact absurd hbelow (not_below (entryObject_below _) (by decide))
  · intro hbelow
    exact absurd hbelow (not_below (prefix_append accessRoot rest) (by decide))

/-- When a sweep that is on time finds a blob old enough, the entry of the blob was committed before
the listing or is not committed any more. -/
lemma old_blob_settled (hlisting : l.Sound go w)
    (hsoon : l.ReadSoon policy now) (horphan : window + 15 * minute ≤ policy.orphanGrace)
    {upload : Upload} (hupload : upload ∈ w.completed)
    (hold : (∃ written, (l.snapshot repository).tombstones.get (upload.blob go) = some written ∧
        policy.blobGrace ≤ now - written) ∨ policy.orphanGrace ≤ now - upload.time) :
    (Named w (upload.blob go) ∨ upload.time + window < w.clock) ∧
      ∀ save ∈ w.committed, save.entry.blob = upload.blob go → save.time < l.listedAt := by
  obtain ⟨hsoonCommit, hsoonGrace⟩ := hsoon
  rcases hold with ⟨written, hwritten, hold⟩ | hold
  · obtain ⟨save, hsave, hnames, htime⟩ := hlisting.tombstones _ written (snapshot_tombstone hwritten)
    refine ⟨.inl ⟨save, hsave, hnames⟩, fun other hother hnamed => ?_⟩
    obtain rfl := hw.savedOnce other hother save hsave (.inl (hnamed.trans hnames.symm))
    omega
  · have hlisted := hlisting.listedAt
    refine ⟨.inr (by omega), fun save hsave hnames => ?_⟩
    obtain ⟨upload', hupload', hblob, -, hwindow⟩ := (hw.saves save hsave).upload
    obtain rfl := hw.uploadedOnce upload' hupload' upload hupload (hblob.trans hnames)
    omega

/-- An entry committed before the listing has gone, if nothing that was read names its blob and the
blob was listed. -/
lemma unread_entry_gone (hlisting : l.Sound go w)
    (hread : ReadSoFar go w (l.snapshot repository) [] records)
    (hsave : save ∈ w.committed) (htime : save.time < l.listedAt)
    (hbelow : blobsRoot ++ l.segment <+: save.entry.blob)
    (hrepository : repositoryOf save.entry.blob blobsRoot = some repository)
    (hunnamed : ∀ record ∈ records, record.entry.blob ≠ save.entry.blob) :
    w.bucket.get (entryObject go save.entry) = none := by
  have hvalid := (hw.saves save hsave).valid
  obtain ⟨upload, -, hblob, hsame, -⟩ := (hw.saves save hsave).upload
  rw [← hblob, Upload.blob, hsame] at hbelow hrepository
  rw [repositoryOf_blobObject hvalid] at hrepository
  rcases hlisting.missed save hsave (entry_listed_with_blob hlisting.segment hbelow) with
    ⟨time, hentry⟩ | hgone | hlate
  · have hmem : entryObject go save.entry ∈ (l.snapshot repository).entries :=
      mem_snapshot_entries.mpr ⟨⟨time, hentry⟩, (repositoryOf_entryObject hvalid).trans hrepository⟩
    rcases hread.present save hsave hmem with hunread | hgone | ⟨record, hrecord, hnamed⟩
    · cases hunread
    · exact hgone
    · exact absurd hnamed (hunnamed record hrecord)
  · exact hgone
  · omega

section

variable (hlisting : l.Sound go w) (hsoon : l.ReadSoon policy now) (hgrace : 0 < policy.blobGrace)
  (horphan : window + 15 * minute ≤ policy.orphanGrace)
  (hread : ReadSoFar go w (l.snapshot repository) [] records)

include hlisting hsoon hgrace horphan hread

/-- **A sweep that is on time deletes doomed blobs only.** -/
lemma deleted_doomed
    (h : .delete key ∈ sweepSnapshot go policy now ranges (l.snapshot repository) records)
    (hkey : blobsRoot <+: key) : Doomed go window w key := by
  have hobjects : ∀ record ∈ records, ¬ blobsRoot <+: record.entry.object := by
    intro record hmem
    obtain ⟨-, save, -, hobject, -⟩ := (hread.documents record hmem).save hw
    rw [← hobject]
    exact not_below (entryObject_below _) (by decide)
  obtain ⟨hunnamed, time, hblob, hold⟩ := sweepSnapshot_delete_blob hgrace hobjects h hkey
  obtain ⟨hlisted, hrepository⟩ := snapshot_blob hblob
  obtain ⟨hbelow, upload, hupload, rfl, rfl⟩ := hlisting.blobs key time hlisted
  obtain ⟨hsettled, hbefore⟩ := old_blob_settled hw hlisting hsoon horphan hupload hold
  refine ⟨⟨upload, hupload, rfl, hsettled⟩, fun save hsave hnames => ?_⟩
  rw [← hnames] at hbelow hrepository hunnamed
  exact unread_entry_gone hw hlisting hread hsave (hbefore save hsave hnames) hbelow hrepository
    hunnamed

lemma sweepSnapshot_safe (h : op ∈ sweepSnapshot go policy now ranges (l.snapshot repository) records) :
    SafeOp go window w op := by
  cases op with
  | delete key => exact deleted_doomed hw hlisting hsoon hgrace horphan hread h
  | put key body =>
    rcases sweepSnapshot_put h with ⟨record, hmem, rfl⟩ | haccess
    · exact tombstone_safe hw (hread.documents record hmem)
    · exact ⟨not_below haccess (by decide), not_below haccess (by decide), fun blob heq =>
        absurd ⟨blob, heq.symm⟩ (not_below haccess (by decide))⟩

end

end Knowledge

/-! ## Runs -/

section Runs

variable (go : Library) (policy : Retention) (window : ℤ)

/-- The world and its workers are sound. -/
structure System.Sound (s : System) : Prop where
  world : s.world.Sound go window
  workers : ∀ worker ∈ s.workers, worker.Sound go policy window s.world

/-- What a worker's step leaves. -/
structure Kept (w : World) (next : World × Worker) : Prop where
  world : next.1.Sound go window
  later : Later go window w next.1
  worker : next.2.Sound go policy window next.1

/-- Every sweep that goes on is prompt. -/
def PromptSweeps (s : System) : Event → Prop
  | .work i action => ∀ worker ∈ s.workers[i]?, worker.Prompt policy action
  | _ => True

instance (s : System) : (event : Event) → Decidable (PromptSweeps policy s event)
  | .work i action => inferInstanceAs (Decidable (∀ worker ∈ s.workers[i]?, worker.Prompt policy action))
  | .tick _ | .complete .. | .commit .. | .mark .. | .remove _ | .evict _ | .sweep _ => .isTrue trivial

/-- Every save that is committed has an object of its own. -/
def SavesApart (s : System) : Event → Prop
  | .commit time entry => (commitObject go time entry).isOk = true → OwnObject go s.world time entry
  | _ => True

instance (s : System) : (event : Event) → Decidable (SavesApart go s event)
  | .commit time entry => inferInstanceAs
      (Decidable ((commitObject go time entry).isOk = true → OwnObject go s.world time entry))
  | .tick _ | .complete .. | .work .. | .mark .. | .remove _ | .evict _ | .sweep _ => .isTrue trivial

variable {go policy window} {w w' : World} {s : System} {op : StoreOp}

lemma World.Sound.perform (hw : w.Sound go window) (h : SafeOp go window w op) :
    World.Sound go window (w.perform op) ∧ Later go window w (w.perform op) := by
  cases op with
  | put key body => exact hw.put h.1 h.2.1 h.2.2
  | delete key => exact hw.delete (fun _ => id) fun hkey => .inl (h hkey)

variable {worker : Worker}

/-- A worker that only looks leaves the world as it is. -/
lemma Kept.look (hw : w.Sound go window)
    (h : worker.Sound go policy window w) : Kept go policy window w (w, worker) :=
  ⟨hw, Later.refl, h⟩

/-- The world may go on with the workers it has. -/
lemma System.Sound.goesOn (h : s.Sound go policy window)
    (hw : World.Sound go window w' ∧ Later go window s.world w') :
    System.Sound go policy window { s with world := w' } :=
  ⟨hw.1, fun worker hmem => (h.workers worker hmem).later h.world hw.2⟩

lemma System.Sound.start (h : s.Sound go policy window)
    (hworker : worker.Sound go policy window s.world) :
    System.Sound go policy window { s with workers := s.workers ++ [worker] } :=
  ⟨h.world, forall_mem_append.mpr ⟨h.workers, forall_mem_singleton.mpr hworker⟩⟩

section Grace

variable (hgrace : 0 < policy.blobGrace) (horphan : window + 15 * minute ≤ policy.orphanGrace)

include hgrace horphan

/-- **A worker's step.** -/
lemma next_kept {worker : Worker} {action : Action} (hw : w.Sound go window)
    (h : worker.Sound go policy window w) (hdoes : worker.Does go policy w action)
    (hprompt : worker.Prompt policy action) :
    Kept go policy window w (worker.next go policy w action) := by
  unfold Worker.next
  split
  · exact Kept.look hw ⟨h.listedAt, h.segment, h.listed, h.missed, h.blobs, h.tombstones⟩
  · exact Kept.look hw (Listing.Sound.listBlobs hw h)
  · exact Kept.look hw ⟨Listing.Sound.listTombstones hw h, nofun⟩
  · exact Kept.look hw ⟨h.1, hprompt, ⟨_, rfl⟩, fun _ => id, nofun, fun _ _ hmem => .inl hmem⟩
  · rename_i l repositories snap time unread records object memo
    split
    · rename_i hunread
      obtain ⟨hlisting, hsoon, ⟨repository, rfl⟩, hread⟩ := h
      split
      · exact Kept.look hw nofun
      rename_i found hfound
      have hmemo : ∀ entry ∈ memo, IsDocument go w object entry := by
        intro entry hentry
        obtain rfl := hentry
        exact hdoes
      exact Kept.look hw ⟨hlisting, hsoon, ⟨repository, rfl⟩,
        hread.read hw hlisting hunread hmemo hfound⟩
    · exact Kept.look hw h
  · obtain ⟨hlisting, hsoon, ⟨repository, rfl⟩, hread⟩ := h
    exact Kept.look hw ⟨hlisting, fun op hop =>
      sweepSnapshot_safe hw hlisting hsoon hgrace horphan hread hop⟩
  · obtain ⟨hworld, hlater⟩ := hw.perform (h.2 _ mem_cons_self)
    exact ⟨hworld, hlater, h.1.later hlater, fun op hop =>
      (h.2 op (mem_cons_of_mem _ hop)).later hw hlater⟩
  · obtain ⟨hworld, hlater⟩ := hw.perform (h _ mem_cons_self)
    exact ⟨hworld, hlater, fun op hop => (h op (mem_cons_of_mem _ hop)).later hw hlater⟩
  · exact Kept.look hw nofun
  · exact Kept.look hw h

/-- **One event keeps the invariant.** -/
lemma stepRetention_sound {event : Event} (h : s.Sound go policy window)
    (hhappens : Happens go policy window s event) (hapart : SavesApart go s event)
    (hprompt : PromptSweeps policy s event) :
    (stepRetention go policy s event).Sound go policy window := by
  cases event with
  | tick time => exact h.goesOn (h.world.tick hhappens)
  | complete repository name body => exact h.goesOn (h.world.complete hhappens)
  | commit time entry => exact h.goesOn (h.world.commit hhappens hapart)
  | mark key body =>
    obtain ⟨hentries, hblobs, htombstones⟩ := hhappens
    exact h.goesOn (h.world.put hentries hblobs fun blob heq =>
      absurd ⟨blob, heq.symm⟩ htombstones)
  | remove key =>
    exact h.goesOn (h.world.delete (fun _ => mem_cons_of_mem _) fun _ => .inr mem_cons_self)
  | evict record => exact h.start fun op hop => evict_safe h.world hhappens hop
  | sweep repository => exact h.start (listEntries_sound h.world)
  | work i action =>
    unfold stepRetention
    dsimp only
    split
    · exact h
    rename_i worker hworker
    have hkept := next_kept hgrace horphan h.world
      (h.workers worker (mem_of_getElem? hworker)) (hhappens worker hworker)
      (hprompt worker hworker)
    refine ⟨hkept.world, fun other hmem => ?_⟩
    rcases mem_or_eq_of_mem_set hmem with hmem | rfl
    · exact (h.workers other hmem).later h.world hkept.later
    · exact hkept.worker

end Grace

lemma emptySystem_sound (clock : ℤ) : (emptySystem clock).Sound go policy window := by
  have hempty : ∀ key object, (Bucket.empty : TimedStore).get key ≠ some object := nofun
  exact ⟨⟨nofun, nofun, nofun,
    fun key object h => absurd h (hempty key object), fun key object h => absurd h (hempty key object),
    nofun, fun _ object h => absurd h (hempty _ object)⟩, nofun⟩

end Runs

/-! ## Live bytes -/

/-- The policy of a configured service. -/
def Config.policy (cfg : Config) : Retention := cfg.retention.withDefaults

variable {setting default : ℤ}

lemma positiveOr_pos (h : 0 < default) : 0 < positiveOr setting default := by
  unfold positiveOr
  split <;> omega

lemma le_positiveOr (h : 0 < default) : setting ≤ positiveOr setting default := by
  unfold positiveOr
  split <;> omega

/-- **Eviction does not take live bytes, as long as sweeps are prompt** and no two saves share an
object.  In any interleaving of saves, sweeps and evictions, with workers that stop anywhere, an entry
document that is there has its blob, unless somebody else has removed it. -/
theorem live_entries_keep_blobs (go : Library) (cfg : Config) (clock : ℤ) (events : List Event)
    (hhappens : Meets (stepRetention go cfg.policy) (emptySystem clock)
      (Happens go cfg.policy cfg.commitWindow) events)
    (hapart : Meets (stepRetention go cfg.policy) (emptySystem clock) (SavesApart go) events)
    (hprompt : Meets (stepRetention go cfg.policy) (emptySystem clock)
      (PromptSweeps cfg.policy) events) :
    let w := (run (stepRetention go cfg.policy) (emptySystem clock) events).world
    ∀ key object entry, w.bucket.get key = some object → entriesRoot <+: key →
      go.unmarshalEntry object.body = some entry → entry.blob ∉ w.removed →
      ∃ bytes, w.bucket.get entry.blob = some bytes := by
  intro w key object entry hget hbelow hentry hkept
  have hsound : System.Sound go cfg.policy cfg.commitWindow
      (run (stepRetention go cfg.policy) (emptySystem clock) events) :=
    run_invariant_of_meets (P := fun s event => Happens go cfg.policy cfg.commitWindow s event ∧
        SavesApart go s event ∧ PromptSweeps cfg.policy s event)
      (fun _ s => s.Sound go cfg.policy cfg.commitWindow) (emptySystem_sound clock)
      (fun _ _ h hevent => stepRetention_sound (positiveOr_pos (by decide)) (le_positiveOr (by decide)) h
        hevent.1 hevent.2.1 hevent.2.2) events
      fun before event after h => ⟨hhappens before event after h, hapart before event after h,
        hprompt before event after h⟩
  have hw : w.Sound go cfg.commitWindow := hsound.world
  obtain ⟨save, hsave, hobject, hbody⟩ := hw.entries key object hget hbelow
  have hsaved := hw.saves save hsave
  obtain hblob : entry.blob = save.entry.blob := by
    have hread := hsaved.readBack
    rw [← hbody, hentry] at hread
    exact (Prod.mk.inj (some.inj hread)).2
  obtain ⟨upload, hupload, hnames, -⟩ := hsaved.upload
  rw [hblob, ← hnames] at hkept ⊢
  refine ne_none_iff_exists'.mp fun hgone => ?_
  -- the blob would be doomed, and so its document gone
  have hdocument := (hw.lost upload hupload hkept hgone).gone save hsave hnames.symm
  rw [hobject, hget] at hdocument
  cases hdocument

section Examples

/-- The service's default configuration. -/
def defaultConfig : Config := ⟨7 * 24 * 60 * minute, 10 * 2 ^ 30, 5 * minute, 60 * minute, 30 * minute⟩

/-- A blob is completed, its entry is committed at the end of its window, and in the minute before
that a sweep has listed the entries.  The sweep reads its clock at a given time. -/
def saveDuringSweep (now : ℤ) : List Event :=
  [.complete (ascii "o/r") [0] [], .tick (-minute), .sweep [], .tick 0, .commit 0 dependencies,
    .work 0 .list, .work 0 .list, .work 0 .list, .tick now, .work 0 (.now now),
    .work 0 (.decided ⟨[ascii "blobs/o/r/00"], [], [], []⟩), .work 0 .write]

/-- The system after the save and the sweep. -/
def afterSaveDuringSweep (now : ℤ) : System :=
  run (stepRetention dependencyLibrary defaultConfig.policy) (emptySystem (-90 * minute))
    (saveDuringSweep now)

/-- A sweep that reads its clock within fourteen minutes leaves the bytes of the new entry. -/
theorem live_entries_keep_blobs_prompt :
    Meets (stepRetention dependencyLibrary defaultConfig.policy) (emptySystem (-90 * minute))
        (Happens dependencyLibrary defaultConfig.policy defaultConfig.commitWindow)
        (saveDuringSweep (13 * minute)) ∧
      ∃ bytes, (afterSaveDuringSweep (13 * minute)).world.bucket.get (ascii "blobs/o/r/00")
        = some bytes := by
  have hhappens : Meets (stepRetention dependencyLibrary defaultConfig.policy)
      (emptySystem (-90 * minute))
      (Happens dependencyLibrary defaultConfig.policy defaultConfig.commitWindow)
      (saveDuringSweep (13 * minute)) := by decide
  exact ⟨hhappens, live_entries_keep_blobs dependencyLibrary defaultConfig (-90 * minute)
    (saveDuringSweep (13 * minute)) hhappens (by decide) (by decide)
    (entryObject dependencyLibrary dependencies) ⟨[1], 0⟩ dependencies (by decide +kernel)
    (by decide) (by decide) (by decide)⟩

/-- **A slow sweep takes live bytes.**  The sweep reads its clock a quarter of an hour after the
commit.  By then the blob is old enough to be an orphan, and the sweep goes by a listing in which
its entry was not there yet. -/
theorem slow_sweep_takes_live_bytes :
    Meets (stepRetention dependencyLibrary defaultConfig.policy) (emptySystem (-90 * minute))
        (Happens dependencyLibrary defaultConfig.policy defaultConfig.commitWindow)
        (saveDuringSweep (15 * minute)) ∧
      Meets (stepRetention dependencyLibrary defaultConfig.policy) (emptySystem (-90 * minute))
        (SavesApart dependencyLibrary) (saveDuringSweep (15 * minute)) ∧
      let w := (afterSaveDuringSweep (15 * minute)).world
      w.removed = [] ∧
        (w.bucket.get (entryObject dependencyLibrary dependencies)).map Object.body = some [1] ∧
        dependencyLibrary.unmarshalEntry [1] = some dependencies ∧
        w.bucket.get dependencies.blob = none := by
  decide +kernel

end Examples

end EraInfra.CacheIndex
