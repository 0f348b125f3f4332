import EraInfra.Cache.SweepDecisions

/-!
# The life of a blob

A blob may go once it is *doomed*: it has been completed, no document names it, and none will,
because its one entry has come and gone or because the time to commit it is over.  A doomed blob stays
doomed (`Doomed.later`), so it does not matter how much later somebody gets to a delete that has been
decided.

`World.Sound` says how the bucket and its history hang together, with every completed blob in its
place, removed by others or doomed.  Each kind of write keeps it, a delete only of a doomed blob.
-/

namespace EraInfra.CacheIndex

open DocStore Encoding ObjectStore Sorting List Option Bucket World

/-! ## How the world goes on -/

section Worlds

variable (go : Library) (window : ℤ)

/-- An entry has been committed that names the blob. -/
def Named (w : World) (blob : Bytes) : Prop := ∃ save ∈ w.committed, save.entry.blob = blob

/-- No document names the blob, and none will. -/
structure Doomed (w : World) (blob : Bytes) : Prop where
  settled : ∃ upload ∈ w.completed, upload.blob go = blob ∧
    (Named w blob ∨ upload.time + window < w.clock)
  gone : ∀ save ∈ w.committed, save.entry.blob = blob → w.bucket.get (entryObject go save.entry) = none

/-- A save that is committed now. -/
structure IsNew (w : World) (save : Save) : Prop where
  time : save.time = w.clock
  upload : ∃ upload ∈ w.completed, upload.blob go = save.entry.blob ∧ w.clock - upload.time ≤ window
  others : ∀ other ∈ w.committed, other.entry.blob ≠ save.entry.blob ∧
    entryObject go other.entry ≠ entryObject go save.entry

/-- One step of the world: history grows, and a document that has gone does not come back. -/
structure Later (w w' : World) : Prop where
  clock : w.clock ≤ w'.clock
  completed : ∀ upload ∈ w.completed, upload ∈ w'.completed
  committed : ∀ save ∈ w.committed, save ∈ w'.committed
  new : ∀ save ∈ w'.committed, save ∈ w.committed ∨ IsNew go window w save
  absent : ∀ save ∈ w.committed, w.bucket.get (entryObject go save.entry) = none →
    w'.bucket.get (entryObject go save.entry) = none

/-- What is true of every save. -/
structure Save.Sound (w : World) (save : Save) : Prop where
  valid : isOwnerName save.entry.repository = true
  time : save.time ≤ w.clock
  upload : ∃ upload ∈ w.completed, upload.blob go = save.entry.blob ∧
    upload.repository = save.entry.repository ∧ save.time - upload.time ≤ window
  readBack : (go.unmarshalEntry (go.marshalEntry save.entry)).map (fun e => (e.repository, e.blob))
    = some (save.entry.repository, save.entry.blob)

/-- The bucket and its history agree, and the blobs that have gone were doomed. -/
structure World.Sound (w : World) : Prop where
  uploadedOnce : ∀ upload ∈ w.completed, ∀ other ∈ w.completed,
    upload.blob go = other.blob go → upload = other
  saves : ∀ save ∈ w.committed, save.Sound go window w
  savedOnce : ∀ save ∈ w.committed, ∀ other ∈ w.committed,
    save.entry.blob = other.entry.blob ∨ entryObject go save.entry = entryObject go other.entry →
    save = other
  entries : ∀ key object, w.bucket.get key = some object → entriesRoot <+: key →
    ∃ save ∈ w.committed, entryObject go save.entry = key ∧ object.body = go.marshalEntry save.entry
  blobs : ∀ key object, w.bucket.get key = some object → blobsRoot <+: key →
    ∃ upload ∈ w.completed, upload.blob go = key ∧ upload.time = object.lastModified
  lost : ∀ upload ∈ w.completed, upload.blob go ∉ w.removed →
    w.bucket.get (upload.blob go) = none → Doomed go window w (upload.blob go)
  tombstones : ∀ blob object, w.bucket.get (tombstoneRoot ++ blob) = some object →
    ∃ save ∈ w.committed, save.entry.blob = blob ∧ save.time ≤ object.lastModified

end Worlds

section Steps

variable {go : Library} {window : ℤ} {w w' : World} {key body blob : Bytes}

lemma Named.later (h : Named w blob) (hl : Later go window w w') : Named w' blob :=
  let ⟨save, hsave, hblob⟩ := h
  ⟨save, hl.committed save hsave, hblob⟩

/-- **A doomed blob stays doomed.** -/
lemma Doomed.later (hw : w.Sound go window) (hl : Later go window w w')
    (h : Doomed go window w blob) : Doomed go window w' blob := by
  obtain ⟨upload, hupload, hblob, hsettled⟩ := h.settled
  constructor
  · exact ⟨upload, hl.completed upload hupload, hblob,
      hsettled.imp (Named.later · hl) (lt_of_lt_of_le · hl.clock)⟩
  intro save hsave hnames
  rcases hl.new save hsave with hold | hnew
  · exact hl.absent save hold (h.gone save hold hnames)
  -- a new save has a blob of its own, completed within the window
  exfalso
  rcases hsettled with ⟨other, hother, hnamed⟩ | hlate
  · exact (hnew.others other hother).1 (hnamed.trans hnames.symm)
  · obtain ⟨upload', hupload', hblob', hwindow⟩ := hnew.upload
    obtain rfl : upload = upload' := hw.uploadedOnce upload hupload upload' hupload'
      (hblob.trans (hnames.symm.trans hblob'.symm))
    omega

lemma Save.Sound.later {save : Save} (h : save.Sound go window w) (hl : Later go window w w') :
    save.Sound go window w' :=
  let ⟨upload, hupload, hrest⟩ := h.upload
  ⟨h.valid, h.time.trans hl.clock, ⟨upload, hl.completed upload hupload, hrest⟩, h.readBack⟩

/-- Entries stand where no blob, marker or tombstone does. -/
lemma entryObject_ne {entry : Entry} (h : ¬ entriesRoot <+: key) : entryObject go entry ≠ key :=
  fun heq => h (heq ▸ entryObject_below entry)

lemma Upload.blob_ne {upload : Upload} (h : ¬ blobsRoot <+: key) : upload.blob go ≠ key :=
  fun heq => h (heq ▸ blobObject_below _ _)

section

variable (hw : w.Sound go window)

include hw

/-- The clock moves. -/
lemma World.Sound.tick {time : ℤ} (h : w.clock ≤ time) :
    World.Sound go window { w with clock := time } ∧ Later go window w { w with clock := time } := by
  have hl : Later go window w { w with clock := time } :=
    ⟨h, fun _ => id, fun _ => id, fun _ => .inl, fun _ _ => id⟩
  exact ⟨⟨hw.uploadedOnce, fun save hsave => (hw.saves save hsave).later hl, hw.savedOnce, hw.entries,
    hw.blobs, fun upload hupload hkept hgone => (hw.lost upload hupload hkept hgone).later hw hl,
    hw.tombstones⟩, hl⟩

/-- A marker, a name record or the tombstone of a blob that had an entry is written. -/
lemma World.Sound.put (hentries : ¬ entriesRoot <+: key)
    (hblobs : ¬ blobsRoot <+: key) (hnamed : ∀ blob, key = tombstoneRoot ++ blob → Named w blob) :
    World.Sound go window (w.perform (.put key body)) ∧
      Later go window w (w.perform (.put key body)) := by
  have hget : ∀ key', key' ≠ key → (w.perform (.put key body)).bucket.get key'
      = w.bucket.get key' := fun key' hne => by
    rw [perform, get_put, if_neg hne]
  have hl : Later go window w (w.perform (.put key body)) :=
    ⟨le_rfl, fun _ => id, fun _ => id, fun _ => .inl,
      fun save _ hnone => (hget _ (entryObject_ne hentries)).trans hnone⟩
  refine ⟨⟨hw.uploadedOnce, fun save hsave => (hw.saves save hsave).later hl, hw.savedOnce,
    ?_, ?_, ?_, ?_⟩, hl⟩
  · intro key' object hobject hbelow
    rw [hget key' fun heq => hentries (heq ▸ hbelow)] at hobject
    exact hw.entries key' object hobject hbelow
  · intro key' object hobject hbelow
    rw [hget key' fun heq => hblobs (heq ▸ hbelow)] at hobject
    exact hw.blobs key' object hobject hbelow
  · intro upload hupload hkept hgone
    rw [hget _ (Upload.blob_ne hblobs)] at hgone
    exact (hw.lost upload hupload hkept hgone).later hw hl
  intro blob object hobject
  by_cases heq : tombstoneRoot ++ blob = key
  · obtain ⟨save, hsave, hblob⟩ := hnamed blob heq.symm
    rw [perform, get_put, if_pos heq] at hobject
    cases hobject
    exact ⟨save, hsave, hblob, (hw.saves save hsave).time⟩
  · rw [hget _ heq] at hobject
    exact hw.tombstones blob object hobject

/-- An object is deleted: by the service, if it is a blob then a doomed one, or by others. -/
lemma World.Sound.delete {removed : List Bytes} (hremoved : ∀ key ∈ w.removed, key ∈ removed)
    (hdoomed : blobsRoot <+: key → Doomed go window w key ∨ key ∈ removed) :
    World.Sound go window { w.perform (.delete key) with removed := removed } ∧
      Later go window w { w.perform (.delete key) with removed := removed } := by
  have hget : ∀ key' object, (w.bucket.delete key).get key' = some object →
      w.bucket.get key' = some object := fun key' object h => by
    rw [get_delete] at h
    split at h
    · cases h
    · exact h
  have hl : Later go window w { w.perform (.delete key) with removed := removed } := by
    refine ⟨le_rfl, fun _ => id, fun _ => id, fun _ => .inl, fun save _ hnone => ?_⟩
    change (w.bucket.delete key).get _ = none
    rw [get_delete, hnone, ite_self]
  refine ⟨⟨hw.uploadedOnce, fun save hsave => (hw.saves save hsave).later hl, hw.savedOnce,
    fun key' object hobject => hw.entries key' object (hget key' object hobject),
    fun key' object hobject => hw.blobs key' object (hget key' object hobject), ?_,
    fun blob object hobject => hw.tombstones blob object (hget _ object hobject)⟩, hl⟩
  intro upload hupload hkept hgone
  refine Doomed.later hw hl ?_
  change (w.bucket.delete key).get _ = none at hgone
  by_cases heq : upload.blob go = key
  · rw [heq] at hkept ⊢
    exact (hdoomed (heq ▸ blobObject_below _ _)).resolve_right hkept
  · rw [get_delete, if_neg heq] at hgone
    exact hw.lost upload hupload (fun hmem => hkept (hremoved _ hmem)) hgone

/-- A blob of a new name is completed. -/
lemma World.Sound.complete {repository name : Bytes}
    (hnew : ∀ upload ∈ w.completed, upload.blob go ≠ blobObject go repository name) :
    World.Sound go window (w.complete go repository name body) ∧
      Later go window w (w.complete go repository name body) := by
  have hbelow : blobsRoot <+: blobObject go repository name := blobObject_below _ _
  have hentries : ¬ entriesRoot <+: blobObject go repository name := not_below hbelow (by decide)
  have hget : ∀ key, key ≠ blobObject go repository name →
      (w.complete go repository name body).bucket.get key = w.bucket.get key := fun key hne => by
    rw [World.complete, Bucket.get_put, if_neg hne]
  have hl : Later go window w (w.complete go repository name body) :=
    ⟨le_rfl, fun _ => mem_cons_of_mem _, fun _ => id, fun _ => .inl,
      fun save _ hnone => (hget _ (entryObject_ne hentries)).trans hnone⟩
  refine ⟨⟨?_, fun save hsave => (hw.saves save hsave).later hl, hw.savedOnce, ?_, ?_, ?_, ?_⟩, hl⟩
  · intro upload hupload other hother hblob
    rcases mem_cons.mp hupload with rfl | hupload <;>
      rcases mem_cons.mp hother with rfl | hother
    · rfl
    · exact absurd hblob.symm (hnew other hother)
    · exact absurd hblob (hnew upload hupload)
    · exact hw.uploadedOnce upload hupload other hother hblob
  · intro key object hobject hkey
    rw [hget key fun heq => hentries (heq ▸ hkey)] at hobject
    exact hw.entries key object hobject hkey
  · intro key object hobject hkey
    by_cases heq : key = blobObject go repository name
    · rw [World.complete, Bucket.get_put, if_pos heq] at hobject
      cases hobject
      exact ⟨⟨repository, name, w.clock⟩, mem_cons_self, heq.symm, rfl⟩
    · rw [hget key heq] at hobject
      obtain ⟨upload, hupload, hrest⟩ := hw.blobs key object hobject hkey
      exact ⟨upload, mem_cons_of_mem _ hupload, hrest⟩
  · intro upload hupload hkept hgone
    rcases mem_cons.mp hupload with rfl | hupload
    · rw [World.complete, Bucket.get_put, Upload.blob, if_pos rfl] at hgone
      cases hgone
    · rw [hget _ (hnew upload hupload)] at hgone
      exact (hw.lost upload hupload hkept hgone).later hw hl
  · intro blob object hobject
    rw [hget _ fun heq => not_below hbelow (by decide) (heq ▸ prefix_append tombstoneRoot blob)]
      at hobject
    exact hw.tombstones blob object hobject

/-- A save commits its entry. -/
lemma World.Sound.commit {time : ℤ} {entry : Entry}
    (hsave : (commitObject go time entry).isOk = true → CommitsSave go window w time entry)
    (hown : (commitObject go time entry).isOk = true → OwnObject go w time entry) :
    World.Sound go window (w.commit go time entry) ∧ Later go window w (w.commit go time entry) := by
  unfold World.commit
  split
  case h_2 => exact ⟨hw, le_rfl, fun _ => id, fun _ => id, fun _ => .inl, fun _ _ => id⟩
  rename_i object body hcommit
  obtain ⟨hvalid, rfl, rfl⟩ := commitObject_ok hcommit
  have hok : (commitObject go time entry).isOk = true := by rw [hcommit]; rfl
  obtain ⟨⟨upload, hupload, hblob, hrepository, hwindow⟩, hblobs, hread⟩ := hsave hok
  set entry' : Entry := { entry with createdAt := time / 10 ^ 6 } with hentry'
  set next : World := { w with
    bucket := w.bucket.put (entryObject go entry') ⟨go.marshalEntry entry', w.clock⟩
    committed := ⟨entry', w.clock⟩ :: w.committed } with hnext
  have hothers : ∀ save ∈ w.committed, save.entry.blob ≠ entry.blob ∧
      entryObject go save.entry ≠ entryObject go entry' :=
    fun save hmem => ⟨hblobs save hmem, hown hok save hmem⟩
  have hbelow : entriesRoot <+: entryObject go entry' := entryObject_below _
  have hget : ∀ key, key ≠ entryObject go entry' → next.bucket.get key = w.bucket.get key :=
    fun key hne => by rw [get_put, if_neg hne]
  have hl : Later go window w next := by
    refine ⟨le_rfl, fun _ => id, fun _ => mem_cons_of_mem _, fun save hmem => ?_,
      fun save hmem hnone => (hget _ (hothers save hmem).2).trans hnone⟩
    rcases mem_cons.mp hmem with rfl | hmem
    · exact .inr ⟨rfl, ⟨upload, hupload, hblob, hwindow⟩, hothers⟩
    · exact .inl hmem
  refine ⟨⟨hw.uploadedOnce, ?_, ?_, ?_, ?_, ?_, ?_⟩, hl⟩
  · intro save hmem
    rcases mem_cons.mp hmem with rfl | hmem
    · exact ⟨hvalid, le_rfl, ⟨upload, hupload, hblob, hrepository, hwindow⟩, hread⟩
    · exact (hw.saves save hmem).later hl
  · intro save hmem other hother heq
    rcases mem_cons.mp hmem with rfl | hmem <;> rcases mem_cons.mp hother with rfl | hother
    · rfl
    · exact absurd heq (not_or.mpr ⟨(hothers other hother).1.symm, (hothers other hother).2.symm⟩)
    · exact absurd heq (not_or.mpr (hothers save hmem))
    · exact hw.savedOnce save hmem other hother heq
  · intro key object hobject hkey
    by_cases heq : key = entryObject go entry'
    · rw [get_put, if_pos heq] at hobject
      cases hobject
      exact ⟨⟨entry', w.clock⟩, mem_cons_self, heq.symm, rfl⟩
    · rw [hget key heq] at hobject
      obtain ⟨save, hmem, hrest⟩ := hw.entries key object hobject hkey
      exact ⟨save, mem_cons_of_mem _ hmem, hrest⟩
  · intro key object hobject hkey
    rw [hget key fun heq => not_below hbelow (by decide) (heq ▸ hkey)] at hobject
    exact hw.blobs key object hobject hkey
  · intro upload' hupload' hkept hgone
    rw [hget _ (Upload.blob_ne (not_below hbelow (by decide)))] at hgone
    exact (hw.lost upload' hupload' hkept hgone).later hw hl
  · intro blob object hobject
    rw [hget _ fun heq => not_below hbelow (by decide) (heq ▸ prefix_append tombstoneRoot blob)]
      at hobject
    obtain ⟨save, hmem, hrest⟩ := hw.tombstones blob object hobject
    exact ⟨save, mem_cons_of_mem _ hmem, hrest⟩

end

end Steps

end EraInfra.CacheIndex
