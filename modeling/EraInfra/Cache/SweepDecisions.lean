import EraInfra.Cache.Isolation
import EraInfra.Cache.Retention

/-!
# What a sweep decides

**Names** — the objects of entries, blobs, markers and tombstones are in trees of their own, and an
entry and its blob have the same repository in their names.  So a sweep that sees the blob has asked
for the entry too (`entry_listed_with_blob`).

**Decisions** — a sweep writes tombstones for the blobs of the entries it has read, and deletes a
blob only when no entry it has read names it and the tombstone, or the blob itself, is old enough
(`sweepSnapshot_delete_blob`).
-/

namespace EraInfra.CacheIndex

open DocStore Encoding ObjectStore Sorting List Bucket
open StoreOp (delete put)

variable {go : Library}

/-! ## Trees -/

section Trees

variable {root root' key : Bytes}

/-- Roots of which neither begins the other have no name in common. -/
lemma not_below (h : root <+: key) (hapart : ¬ (root <+: root' ∨ root' <+: root)) :
    ¬ root' <+: key := fun h' => hapart ( prefix_or_prefix_of_prefix h h')

lemma entryObject_eq (go : Library) (entry : Entry) : ∃ rest, entryObject go entry
    = entriesRoot ++ (repositorySegment go entry.repository ++ slash :: rest) := by
  simp [entryObject, scopePrefix, entriesRoot]

lemma blobObject_eq (repository name : Bytes) : blobObject go repository name
    = blobsRoot ++ (repositorySegment go repository ++ slash :: hex name) := by
  simp [blobObject, blobsRoot]

lemma entryObject_below (entry : Entry) : entriesRoot <+: entryObject go entry := by
  obtain ⟨rest, hrest⟩ := entryObject_eq go entry
  exact ⟨_, hrest.symm⟩

lemma blobObject_below (repository name : Bytes) : blobsRoot <+: blobObject go repository name :=
  ⟨_, (blobObject_eq repository name).symm⟩

variable {name : Bytes} {entry : Entry}

/-- The repository can be read off from a name. -/
lemma repositoryOf_append {owner rest : Bytes} (howner : slash ∉ owner) (hname : slash ∉ name) :
    repositoryOf (root ++ (owner ++ slash :: name ++ slash :: rest)) root
      = some (owner ++ slash :: name) := by
  have hword : ∀ word : Bytes, slash ∉ word → ∀ c ∈ word, decide (c ≠ slash) = true :=
    fun word hword c hc => decide_eq_true fun heq => hword (heq ▸ hc)
  rw [repositoryOf, if_pos ( isPrefixOf_iff_prefix.mpr (prefix_append _ _)),
    drop_left, append_assoc, cons_append]
  dsimp only
  rw [dropWhile_append_of_pos (hword _ howner), takeWhile_append_of_pos (hword _ howner),
    dropWhile_cons_of_neg (by simp), takeWhile_cons_of_neg (by simp)]
  dsimp only
  rw [dropWhile_append_of_pos (hword _ hname), takeWhile_append_of_pos (hword _ hname),
    dropWhile_cons_of_neg (by simp), takeWhile_cons_of_neg (by simp)]
  simp

lemma repositorySegment_split (go : Library) {repository : Bytes} (h : isOwnerName repository = true) :
    ∃ owner name, repositorySegment go repository = owner ++ slash :: name ∧
      slash ∉ owner ∧ slash ∉ name := by
  obtain ⟨hascii, owner, name, hlower, howner, hname⟩ := ownerName_split h
  exact ⟨owner, name, by rw [repositorySegment, go.toLower_ascii _ hascii, hlower], howner, hname⟩

lemma repositoryOf_entryObject (h : isOwnerName entry.repository = true) :
    repositoryOf (entryObject go entry) entriesRoot = some (repositorySegment go entry.repository) := by
  obtain ⟨rest, hrest⟩ := entryObject_eq go entry
  obtain ⟨owner, name, hsegment, howner, hname⟩ := repositorySegment_split go h
  rw [hrest, hsegment, repositoryOf_append howner hname]

lemma repositoryOf_blobObject {repository : Bytes} (h : isOwnerName repository = true) :
    repositoryOf (blobObject go repository name) blobsRoot
      = some (repositorySegment go repository) := by
  obtain ⟨owner, rest, hsegment, howner, hrest⟩ := repositorySegment_split go h
  rw [blobObject_eq, hsegment, repositoryOf_append howner hrest]

/-- **Whoever lists a blob lists its entry.**  A blob's name has one segment after its
repository, so a prefix that ends with a segment ends within the repository. -/
lemma entry_listed_with_blob {segment : Bytes} (hsegment : segment = [] ∨ ∃ s, segment = s ++ [slash])
    (h : blobsRoot ++ segment <+: blobObject go entry.repository name) :
    entriesRoot ++ segment <+: entryObject go entry := by
  obtain ⟨rest, hrest⟩ := entryObject_eq go entry
  rw [hrest, prefix_append_right_inj]
  rw [blobObject_eq, prefix_append_right_inj] at h
  rcases hsegment with rfl | ⟨s, rfl⟩
  · exact nil_prefix
  set repository := repositorySegment go entry.repository
  have hcut : repository ++ [slash] <+: repository ++ slash :: hex name := by simp
  rcases prefix_or_prefix_of_prefix h hcut with hshort | ⟨t, ht⟩
  · exact hshort.trans (by simp)
  rcases eq_nil_or_concat' t with rfl | ⟨t, c, rfl⟩
  · rw [← ht]
    simp
  obtain ⟨-, hc⟩ := append_inj' ((append_assoc _ t [c]).trans ht) rfl
  obtain ⟨u, hu⟩ := h
  rw [← ht] at hu
  have hmem : slash ∈ hex name := by
    have : t ++ [c] ++ u = hex name := by simpa using hu
    rw [← this, ← (cons.inj hc).1]
    simp
  exact absurd hmem slash_not_mem_hex

end Trees

/-! ## Snapshots -/

section Snapshots

variable {l : Listing} {repository key : Bytes} {time : ℤ}

lemma get_collect {keyOf : Bytes → Option Bytes} {listing : List (Bytes × ℤ)}
    (h : (collect keyOf listing).get key = some time) :
    ∃ object, (object, time) ∈ listing ∧ keyOf object = some key := by
  induction listing using reverseRecOn with
  | nil => cases h
  | append_singleton listing object ih =>
    have hrest : (collect keyOf listing).get key = some time →
        ∃ object', (object', time) ∈ listing ++ [object] ∧ keyOf object' = some key := fun h =>
      let ⟨object', hmem, hkey⟩ := ih h
      ⟨object', mem_append_left _ hmem, hkey⟩
    rw [collect, foldl_append, foldl_cons, foldl_nil] at h
    split at h
    · rename_i hkey
      rw [get_put] at h
      split at h
      · rename_i heq
        cases h
        exact ⟨object.1, by simp, heq ▸ hkey⟩
      · exact hrest h
    · exact hrest h

variable {start : Bytes}

lemma keyBelow_eq_some {root object : Bytes} (h : keyBelow start root repository object = some key) :
    repositoryOf object (start ++ root) = some repository ∧ object = start ++ key := by
  unfold keyBelow at h
  split at h
  · rename_i hrepository
    refine ⟨hrepository, ?_⟩
    cases h
    have hprefix : start ++ root <+: object := by
      unfold repositoryOf at hrepository
      split at hrepository
      · rename_i hprefix
        exact isPrefixOf_iff_prefix.mp hprefix
      · cases hrepository
    obtain ⟨t, rfl⟩ := hprefix
    simp
  · cases h

lemma snapshot_blob (h : (l.snapshot repository).blobs.get key = some time) :
    (key, time) ∈ l.blobs ∧ repositoryOf key blobsRoot = some repository := by
  obtain ⟨object, hmem, hkey⟩ := get_collect h
  obtain ⟨hrepository, rfl⟩ := keyBelow_eq_some hkey
  exact ⟨hmem, hrepository⟩

lemma snapshot_tombstone (h : (l.snapshot repository).tombstones.get key = some time) :
    (tombstoneRoot ++ key, time) ∈ l.tombstones := by
  obtain ⟨object, hmem, hkey⟩ := get_collect h
  obtain ⟨-, rfl⟩ := keyBelow_eq_some hkey
  exact hmem

lemma mem_snapshot_entries : key ∈ (l.snapshot repository).entries ↔
    (∃ time, (key, time) ∈ l.entries) ∧ repositoryOf key entriesRoot = some repository := by
  simp only [Listing.snapshot, mem_filterMap, keyBelow,
    Option.ite_none_right_eq_some, Option.some.injEq, Prod.exists]
  constructor
  · rintro ⟨object, time, hmem, hrepository, rfl⟩
    exact ⟨⟨time, hmem⟩, hrepository⟩
  · rintro ⟨⟨time, hmem⟩, hrepository⟩
    exact ⟨key, time, hmem, hrepository, rfl⟩

lemma mem_listAll {b : TimedStore} : (key, time) ∈ listAll b start ↔
    ∃ object, b.get key = some object ∧ object.lastModified = time ∧ start <+: key := by
  simp only [listAll, mem_map, Prod.mk.injEq, Prod.exists, mem_list, isPrefixOf_iff_prefix]
  constructor
  · rintro ⟨_, object, ⟨hget, hprefix⟩, rfl, htime⟩
    exact ⟨object, hget, htime, hprefix⟩
  · rintro ⟨object, hget, htime, hprefix⟩
    exact ⟨key, object, ⟨hget, hprefix⟩, rfl, htime⟩

end Snapshots

/-! ## Verdicts -/

section Verdicts

variable {policy : Retention} {now : ℤ} {snap : Snapshot} {records : List Record} {record : Record}
  {verdict : Verdict} {key : Bytes}

lemma overQuota_append (quota : ℤ) (records : List Record) (total : ℤ) :
    (overQuota quota records total).1 ++ (overQuota quota records total).2 = records := by
  induction records generalizing total with
  | nil => rfl
  | cons record rest ih =>
    unfold overQuota
    split
    · exact congrArg (record :: ·) (ih _)
    · rfl

/-- Every entry that was read is evicted or kept. -/
lemma mem_judge : record ∈ (judge policy now snap records).evicted ∨
    record ∈ (judge policy now snap records).keep ↔ record ∈ records := by
  have hsplit := overQuota_append policy.repoQuotaBytes
    ((lruOrder records).filter fun r => !isStale policy now snap r)
  have hrest : (record ∈ (lruOrder records).filter fun r => !isStale policy now snap r) ↔
      record ∈ records ∧ isStale policy now snap record = false := by
    rw [mem_filter, lruOrder, mem_sortBy, Bool.not_eq_true']
  rw [← hsplit, mem_append] at hrest
  rw [judge]
  rw [mem_append, or_assoc, hrest, mem_filter, lruOrder, mem_sortBy, ← and_or_left]
  simp

/-- The tombstones a sweep has just written are as old as the sweep's clock. -/
lemma get_tombstonesAfter : (tombstonesAfter now snap verdict).get key
    = if ∃ record ∈ verdict.evicted, record.entry.blob = key then some now
      else snap.tombstones.get key := by
  unfold tombstonesAfter
  induction verdict.evicted using reverseRecOn with
  | nil => simp
  | append_singleton evicted record ih =>
    rw [foldl_append, foldl_cons, foldl_nil, get_put, ih]
    by_cases hkey : key = record.entry.blob
    · rw [if_pos hkey, if_pos ⟨record, by simp, hkey.symm⟩]
    rw [if_neg hkey]
    refine if_congr ?_ rfl rfl
    constructor
    · rintro ⟨other, hmem, hblob⟩
      exact ⟨other, mem_append_left _ hmem, hblob⟩
    rintro ⟨other, hmem, hblob⟩
    rcases mem_append.mp hmem with hmem | hmem
    · exact ⟨other, hmem, hblob⟩
    · rw [mem_singleton.mp hmem] at hblob
      exact absurd hblob.symm hkey

variable {target : Bytes} {lastModified : ℤ} {tombstones : Bucket Bytes ℤ}

/-- A blob is deleted only if no kept entry names it, and it or its tombstone is old enough. -/
lemma sweepBlob_delete (h : .delete target ∈ sweepBlob policy now verdict tombstones key lastModified) :
    target = tombstoneRoot ++ key ∨ (target = key ∧ (∀ record ∈ verdict.keep, record.entry.blob ≠ key) ∧
        ((∃ written, tombstones.get key = some written ∧ policy.blobGrace ≤ now - written) ∨
          (tombstones.get key = none ∧ policy.orphanGrace ≤ now - lastModified))) := by
  unfold sweepBlob at h
  split at h
  · split at h
    · split at h
      · simp only [mem_singleton, delete.injEq] at h
        exact .inl h
      · cases h
    · cases h
  rename_i hkeep
  have hunnamed : ∀ record ∈ verdict.keep, record.entry.blob ≠ key := by simpa using hkeep
  split at h
  · rename_i written hwritten
    split at h
    · cases h
    rename_i hold
    simp only [mem_cons, delete.injEq, not_mem_nil, or_false] at h
    rcases h with rfl | rfl
    · exact .inr ⟨rfl, hunnamed, .inl ⟨written, hwritten, not_lt.mp hold⟩⟩
    · exact .inl rfl
  · rename_i hnone
    split at h
    · cases h
    rename_i hold
    simp only [mem_singleton, delete.injEq] at h
    exact .inr ⟨h, hunnamed, .inr ⟨hnone, not_lt.mp hold⟩⟩

lemma sweepBlob_put {body : Bytes} :
    .put target body ∉ sweepBlob policy now verdict tombstones key lastModified := by
  unfold sweepBlob
  split <;> split <;> (try split) <;> simp

lemma sweepMarker_mem {ending object : Bytes} {op : StoreOp}
    (h : op ∈ sweepMarker policy now verdict ending object lastModified) :
    ∃ rest, op = .delete (accessRoot ++ rest) := by
  unfold sweepMarker at h
  split at h
  · cases h
  split at h
  · cases h
  split at h
  · cases h
  · rw [mem_singleton] at h
    exact ⟨_, h⟩

lemma mem_rangeOver {keys : List Bytes} {found : Bucket Bytes ℤ} {body : Bytes → ℤ → List StoreOp}
    {op : StoreOp} (h : op ∈ rangeOver keys found body) :
    ∃ key time, found.get key = some time ∧ op ∈ body key time := by
  obtain ⟨key, -, hop⟩ := mem_flatMap.mp h
  split at hop
  · rename_i time hget
    exact ⟨key, time, hget, hop⟩
  · cases hop

end Verdicts

/-! ## Writes -/

section Writes

variable {policy : Retention} {now : ℤ} {snap : Snapshot} {records : List Record} {ranges : Ranges}
  {key body : Bytes} {op : StoreOp}

lemma mem_evict {record : Record} (h : op ∈ evict go record) :
    op = .put (tombstoneRoot ++ record.entry.blob) record.entry.object ∨
      op = .delete record.entry.object ∨ ∃ rest, op = .delete (accessRoot ++ rest) := by
  rcases mem_append.mp h with h | h
  · split at h
    · exact .inl (mem_singleton.mp h)
    · cases h
  simp only [mem_cons, not_mem_nil, or_false] at h
  rcases h with rfl | rfl | rfl
  · exact .inr (.inl rfl)
  · exact .inr (.inr ⟨_, rfl⟩)
  · exact .inr (.inr ⟨_, rfl⟩)

/-- **What a sweep writes.** -/
lemma mem_sweepSnapshot (h : op ∈ sweepSnapshot go policy now ranges snap records) :
    (∃ record ∈ (judge policy now snap records).evicted, op ∈ evict go record) ∨
      (∃ rest, op = .put (accessRoot ++ rest) []) ∨
      (∃ key time, snap.blobs.get key = some time ∧
        op ∈ sweepBlob policy now (judge policy now snap records)
          (tombstonesAfter now snap (judge policy now snap records)) key time) ∨
      (∃ rest, op = .delete (tombstoneRoot ++ rest)) ∨ ∃ rest, op = .delete (accessRoot ++ rest) := by
  simp only [sweepSnapshot, mem_append] at h
  rcases h with ((((h | h) | h) | h) | h) | h
  · exact .inl (mem_flatMap.mp h)
  · obtain ⟨record, -, rfl⟩ := mem_map.mp h
    exact .inr (.inl ⟨_, by rw [append_assoc]⟩)
  · exact .inr (.inr (.inl (mem_rangeOver h)))
  · obtain ⟨key, time, -, h⟩ := mem_rangeOver h
    split at h
    · cases h
    · exact .inr (.inr (.inr (.inl ⟨key, mem_singleton.mp h⟩)))
  all_goals
    obtain ⟨key, time, -, h⟩ := mem_rangeOver h
    exact .inr (.inr (.inr (.inr (sweepMarker_mem h))))

/-- A sweep puts tombstones for what it has read, and markers. -/
lemma sweepSnapshot_put (h : .put key body ∈ sweepSnapshot go policy now ranges snap records) :
    (∃ record ∈ records, key = tombstoneRoot ++ record.entry.blob) ∨ accessRoot <+: key := by
  rcases mem_sweepSnapshot h with ⟨record, hmem, h⟩ | ⟨rest, h⟩ | ⟨_, _, -, h⟩ | ⟨_, h⟩ | ⟨_, h⟩
  · rcases mem_evict h with h | h | ⟨_, h⟩
    · exact .inl ⟨record, mem_judge.mp (.inl hmem), (put.inj h).1⟩
    · cases h
    · cases h
  · exact .inr ⟨rest, (put.inj h).1.symm⟩
  · exact absurd h sweepBlob_put
  · cases h
  · cases h

/-- **When a sweep deletes a blob.**  Nothing it has read names the blob, and it is old enough or its
tombstone is. -/
lemma sweepSnapshot_delete_blob (hgrace : 0 < policy.blobGrace)
    (hobjects : ∀ record ∈ records, ¬ blobsRoot <+: record.entry.object)
    (h : .delete key ∈ sweepSnapshot go policy now ranges snap records)
    (hkey : blobsRoot <+: key) :
    (∀ record ∈ records, record.entry.blob ≠ key) ∧ ∃ time, snap.blobs.get key = some time ∧
        ((∃ written, snap.tombstones.get key = some written ∧ policy.blobGrace ≤ now - written) ∨
          policy.orphanGrace ≤ now - time) := by
  have haccess : ∀ rest, key ≠ accessRoot ++ rest := fun rest heq =>
    not_below hkey (by decide) ⟨rest, heq.symm⟩
  have htombstone : ∀ rest, key ≠ tombstoneRoot ++ rest := fun rest heq =>
    not_below hkey (by decide) ⟨rest, heq.symm⟩
  rcases mem_sweepSnapshot h with ⟨record, hmem, h⟩ | ⟨rest, h⟩ | ⟨key', time, htime, h⟩ | ⟨_, h⟩ | ⟨_, h⟩
  · rcases mem_evict h with h | h | ⟨rest, h⟩
    · cases h
    · exact absurd (delete.inj h ▸ hkey) (hobjects record (mem_judge.mp (.inl hmem)))
    · exact absurd (delete.inj h) (haccess rest)
  · cases h
  · rcases sweepBlob_delete h with h | ⟨rfl, hkeep, hold⟩
    · exact absurd h (htombstone _)
    rw [get_tombstonesAfter] at hold
    -- an entry evicted by this sweep has left a tombstone that is too young
    have hevicted : ¬ ∃ record ∈ (judge policy now snap records).evicted, record.entry.blob = key := by
      intro hevicted
      rw [if_pos hevicted] at hold
      rcases hold with ⟨written, hwritten, hold⟩ | ⟨hnone, -⟩
      · cases hwritten
        omega
      · cases hnone
    rw [if_neg hevicted] at hold
    refine ⟨fun record hmem hblob => ?_, time, htime, hold.imp id And.right⟩
    rcases mem_judge.mpr hmem with hmem | hmem
    · exact hevicted ⟨record, hmem, hblob⟩
    · exact hkeep record hmem hblob
  · exact absurd (delete.inj h) (htombstone _)
  · exact absurd (delete.inj h) (haccess _)

end Writes

end EraInfra.CacheIndex
