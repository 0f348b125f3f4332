import EraInfra.Core.Run
import EraInfra.Cache.Index

/-!
# Cache isolation

A lookup reads the bucket only below the scopes of its token.  Two buckets that agree there give the
same answer (`lookup_congr`), and an entry saved under another repository, ref or version has its
object elsewhere (`under_scope_iff`): the segments of an object's name are each read back from it.

**What an answer is** — the entry's repository, ref and version are checked against the request when
its document is read.  Its key is not: that it begins with the key asked for is known only from the
name of the object, and so only of documents that stand where `Commit` puts them (`Written`).  The
service writes no others (`service_written`).
-/

namespace EraInfra.CacheIndex

open DocStore Encoding ObjectStore List Option Bucket
open UInt8 (ofFin)

variable {go : Library}

/-! ## The segments of a name -/

section Segments

lemma nameByte_ascii {c : UInt8} (h : isNameByte c = true) : c < 128 ∧ c ≠ slash := by
  revert h
  have : ∀ n : Fin 256, isNameByte (ofFin n) = true →
      ofFin n < 128 ∧ ofFin n ≠ slash := by decide +kernel
  exact this c.toFin

lemma nameByte_of_segment {segment : Bytes} (h : matchesRepositorySegment segment = true) :
    ∀ c ∈ segment, isNameByte c = true := by
  cases segment with
  | nil => cases h
  | cons first rest =>
    obtain ⟨hfirst, hrest⟩ := Bool.and_eq_true_iff.mp h
    refine forall_mem_cons.mpr ⟨?_, all_eq_true.mp hrest⟩
    simp [isNameByte, hfirst]

lemma lowerByte_slash {c : UInt8} (h : lowerByte c = slash) : c = slash := by
  revert h
  have : ∀ n : Fin 256, lowerByte (ofFin n) = slash → ofFin n = slash := by
    decide +kernel
  exact this c.toFin

/-- A repository is an owner and a name, in ASCII. -/
lemma ownerName_split {repository : Bytes} (h : isOwnerName repository = true) :
    IsAsciiBytes repository ∧ ∃ owner name, repository.map lowerByte = owner ++ slash :: name ∧
      slash ∉ owner ∧ slash ∉ name := by
  simp only [isOwnerName, Bool.and_eq_true] at h
  obtain ⟨⟨hslash, howner⟩, hname⟩ := h
  have hsplit := cut_append (contains_iff_mem.mp hslash)
  set owner := repository.takeWhile (· ≠ slash)
  set name := (repository.dropWhile (· ≠ slash)).tail
  have hascii : ∀ segment, matchesRepositorySegment segment = true →
      IsAsciiBytes segment ∧ slash ∉ segment.map lowerByte := by
    intro segment hsegment
    have hbytes := nameByte_of_segment hsegment
    refine ⟨fun c hc => (nameByte_ascii (hbytes c hc)).1, fun hmem => ?_⟩
    obtain ⟨c, hc, hslash⟩ := mem_map.mp hmem
    exact (nameByte_ascii (hbytes c hc)).2 (lowerByte_slash hslash)
  obtain ⟨hownerAscii, hownerSlash⟩ := hascii owner howner
  obtain ⟨hnameAscii, hnameSlash⟩ := hascii name hname
  refine ⟨?_, owner.map lowerByte, name.map lowerByte, ?_, hownerSlash, hnameSlash⟩
  · rw [← hsplit]
    intro c hc
    rcases mem_append.mp hc with hc | hc
    · exact hownerAscii c hc
    rcases mem_cons.mp hc with rfl | hc
    · decide
    · exact hnameAscii c hc
  · rw [← hsplit, map_append]
    rfl

/-- A byte of a ref can be read off from the front. -/
lemma prefixFree_refByte : PrefixFree refByte where
  ne_nil c := by
    unfold refByte
    split <;> exact cons_ne_nil _ _
  eq_of_prefix a b h := by
    unfold refByte at h
    split at h <;> rename_i ha <;> split at h
    · exact (cons_prefix_cons.mp h).1
    · rw [(cons_prefix_cons.mp h).1] at ha
      exact absurd ha (by decide)
    · exact absurd h.length_le (by simp [hexByte])
    have heq := (cons_prefix_cons.mp h).2.eq_of_length (by simp [hexByte])
    have hupper : ∀ m < 16, ∀ n < 16, upperByte (hexDigit m) = upperByte (hexDigit n) → m = n := by
      decide
    have hda := a.toNat_lt
    have hdb := b.toNat_lt
    obtain ⟨hhigh, hlow⟩ : upperByte (hexDigit (a.toNat / 16)) = upperByte (hexDigit (b.toNat / 16)) ∧
        upperByte (hexDigit (a.toNat % 16)) = upperByte (hexDigit (b.toNat % 16)) := by
      simpa [hexByte] using heq
    have hhigh := hupper _ (by omega) _ (by omega) hhigh
    have hlow := hupper _ (by omega) _ (by omega) hlow
    exact UInt8.toNat_inj.mp (by omega)

lemma slash_not_mem_refSegment {ref : Bytes} : slash ∉ refSegment ref := by
  intro h
  obtain ⟨c, -, hc⟩ := mem_flatMap.mp h
  revert hc
  have : ∀ n : Fin 256, slash ∉ refByte (ofFin n) := by decide +kernel
  exact this c.toFin

variable {bytes : Bytes}

lemma slash_not_mem_hex : slash ∉ hex bytes := fun h =>
  absurd (mem_hex h) (by decide)

lemma dot_not_mem_hex : dot ∉ hex bytes := fun h =>
  absurd (mem_hex h) (by decide)

/-- **A name lies in a scope exactly when it was built for that scope.** -/
lemma scopePrefix_prefix {r r' f f' v v' rest : Bytes} (hr : isOwnerName r = true)
    (hr' : isOwnerName r' = true) :
    scopePrefix go r f (hex v) <+: scopePrefix go r' f' (hex v') ++ rest ↔
      r.map lowerByte = r'.map lowerByte ∧ f = f' ∧ hex v = hex v' := by
  obtain ⟨hascii, owner, name, hlower, howner, hname⟩ := ownerName_split hr
  obtain ⟨hascii', owner', name', hlower', howner', hname'⟩ := ownerName_split hr'
  simp only [scopePrefix, repositorySegment, go.toLower_ascii _ hascii, go.toLower_ascii _ hascii',
    hlower, hlower', append_assoc, cons_append,
    prefix_append_right_inj]
  rw [prefix_separated howner howner', prefix_separated hname hname',
    prefix_separated slash_not_mem_refSegment slash_not_mem_refSegment,
    prefix_separated slash_not_mem_hex slash_not_mem_hex]
  constructor
  · rintro ⟨rfl, rfl, href, hv, -⟩
    exact ⟨rfl, prefixFree_refByte.flatMap_injective href, hv⟩
  · rintro ⟨heq, rfl, hv⟩
    obtain ⟨rfl, -, rfl⟩ := (append_cons_inj_of_notMem howner' hname').mp heq.symm
    exact ⟨rfl, rfl, rfl, hv, nil_prefix⟩

end Segments

/-! ## What a lookup answers -/

section Answers

variable {b : Store} {claims : Claims} {ref version object start encoded : Bytes} {entry : Entry}
  {p p' : Process} {maxCandidates : ℤ}

lemma candidate_some {repository : Bytes}
    (h : candidate go b object repository ref version = .ok (some entry)) :
    ∃ body stored, b.get object = some body ∧ go.unmarshalEntry body = some stored ∧
      entry = { stored with object } ∧ go.equalFold stored.repository repository = true ∧
      stored.ref = ref ∧ stored.version = version := by
  unfold candidate at h
  split at h
  · cases h
  · cases h
  rename_i body hbody
  split at h
  · cases h
  rename_i stored hstored
  split at h
  · cases h
  rename_i hchecked
  have hget : b.get object = some body := by
    unfold getBytes at hbody
    split at hbody
    · cases hbody
    · rename_i found hfound
      split at hbody
      · cases hbody
      · rw [hfound, pure_ok.mp hbody]
  simp only [Bool.or_eq_true, Bool.not_eq_true', decide_eq_true_eq, not_or, Bool.not_eq_false,
    not_not] at hchecked
  exact ⟨body, stored, hget, hstored, (some.inj (pure_ok.mp h)).symm, hchecked.1.1,
    hchecked.1.2, hchecked.2⟩

/-- The loop over the candidates answers one of them. -/
lemma readCandidates_some {passed : ℕ} {objects : List Bytes}
    (h : readCandidates go b claims ref version passed objects p = .ok (some entry, p')) :
    ∃ object ∈ objects, candidate go b object claims.repository ref version = .ok (some entry) := by
  induction objects generalizing passed p with
  | nil => cases h
  | cons object rest ih =>
    obtain ⟨found, hfound, h⟩ := bind_ok.mp h
    have hrest : ∀ q, (if passed + 1 ≥ maxPassedCandidates then pure (none, q)
        else readCandidates go b claims ref version (passed + 1) rest q) = .ok (some entry, p') →
        ∃ object' ∈ object :: rest,
          candidate go b object' claims.repository ref version = .ok (some entry) := by
      intro q h
      split at h
      · cases h
      · obtain ⟨object', hmem, hcandidate⟩ := ih h
        exact ⟨object', mem_cons_of_mem _ hmem, hcandidate⟩
    rcases found with _ | read
    · exact hrest _ h
    obtain ⟨⟨owned, q⟩, -, h⟩ := bind_ok.mp h
    dsimp only at h
    split at h
    · obtain ⟨hservable, -⟩ := Prod.mk.inj (pure_ok.mp h)
      unfold servable at hservable
      split at hservable
      · cases hservable
      rw [← some.inj hservable]
      exact ⟨object, mem_cons_self, hfound⟩
    · exact hrest _ h

lemma mem_listPrefix {max : ℕ} (h : object ∈ (listPrefix b start max).1) : start <+: object := by
  obtain ⟨⟨key, body⟩, hlisted, rfl⟩ := mem_map.mp (mem_of_mem_take h)
  exact isPrefixOf_iff_prefix.mp (mem_list.mp hlisted).2

lemma firstHit_some {search : Bytes → Process → Except StoreError (Option Entry × Process)}
    {scopes : List Bytes} (h : firstHit search scopes p = .ok (some entry, p')) :
    ∃ ref ∈ scopes, ∃ q q', search ref q = .ok (some entry, q') := by
  induction scopes generalizing p with
  | nil => cases h
  | cons ref scopes ih =>
    obtain ⟨⟨found, q⟩, hfound, h⟩ := bind_ok.mp h
    cases found with
    | some read =>
      cases h
      exact ⟨ref, mem_cons_self, p, _, hfound⟩
    | none =>
      obtain ⟨ref', hmem, hsearch⟩ := ih h
      exact ⟨ref', mem_cons_of_mem _ hmem, hsearch⟩

/-- The entry is read from an object below one of the token's scopes, under an encoded key. -/
def FoundAt (go : Library) (b : Store) (claims : Claims) (version encoded : Bytes) (entry : Entry) :
    Prop :=
  ∃ ref ∈ claims.readScopes, ∃ object,
    scopePrefix go claims.repository ref (versionSegment go version) ++ encoded <+: object ∧
      candidate go b object claims.repository ref version = .ok (some entry)

lemma foundAt_of_firstHit (h : firstHit (fun ref => newest go maxCandidates b claims ref
      (versionSegment go version) encoded version) claims.readScopes p = .ok (some entry, p')) :
    FoundAt go b claims version encoded entry := by
  obtain ⟨ref, href, q, q', hsearch⟩ := firstHit_some h
  obtain ⟨object, hmem, hcandidate⟩ := readCandidates_some hsearch
  have hlisted := (mem_filter.mp ((go.perm_sortSlice _ _).mem_iff.mp hmem)).1
  exact ⟨ref, href, object, mem_listPrefix hlisted, hcandidate⟩

variable {keys : List Bytes}

lemma lookupKeys_some (h : lookupKeys go maxCandidates b claims claims.readScopes version keys p
      = .ok (some entry, p')) :
    ∃ key ∈ keys, trimSpace key ≠ [] ∧
      FoundAt go b claims version (hex (trimSpace key)) entry := by
  induction keys generalizing p with
  | nil => cases h
  | cons key keys ih =>
    have hrest : ∀ q, lookupKeys go maxCandidates b claims claims.readScopes version keys q
        = .ok (some entry, p') →
        ∃ key' ∈ key :: keys, trimSpace key' ≠ [] ∧
          FoundAt go b claims version (hex (trimSpace key')) entry := by
      intro q h
      obtain ⟨key', hmem, hfound⟩ := ih h
      exact ⟨key', mem_cons_of_mem key hmem, hfound⟩
    unfold lookupKeys at h
    dsimp only at h
    split at h
    · exact hrest _ h
    rename_i hne
    obtain ⟨⟨found, q⟩, hfound, h⟩ := bind_ok.mp h
    cases found with
    | some read =>
      -- an exact match is a match of the prefix
      cases h
      obtain ⟨ref, href, object, hprefix, hcandidate⟩ := foundAt_of_firstHit hfound
      rw [← append_assoc] at hprefix
      exact ⟨key, mem_cons_self, hne, ref, href, object, (prefix_append _ _).trans hprefix, hcandidate⟩
    | none =>
      obtain ⟨⟨found, q'⟩, hfound', h⟩ := bind_ok.mp h
      cases found with
      | some read =>
        cases h
        exact ⟨key, mem_cons_self, hne, foundAt_of_firstHit hfound'⟩
      | none => exact hrest _ h

lemma lookup_some (h : lookup go maxCandidates b claims keys version p = .ok (some entry, p')) :
    ∃ key ∈ keys, trimSpace key ≠ [] ∧
      FoundAt go b claims version (hex (trimSpace key)) entry := by
  unfold lookup at h
  dsimp only at h
  split at h
  · cases h
  · exact lookupKeys_some h

lemma lookupExact_some {key : Bytes}
    (h : lookupExact go maxCandidates b claims key version p = .ok (some entry, p')) :
    FoundAt go b claims version (hex (trimSpace key) ++ [dot]) entry := by
  unfold lookupExact at h
  dsimp only at h
  split at h
  · cases h
  · exact foundAt_of_firstHit h

end Answers

/-! ## Documents where they belong -/

section WrittenDocuments

/-- Every entry document stands where `Commit` puts it, and names bytes of its own repository. -/
def Written (go : Library) (b : Store) : Prop :=
  ∀ object body entry, b.get object = some body → ascii "entries/" <+: object →
    go.unmarshalEntry body = some entry →
    isOwnerName entry.repository = true ∧ object = entryObject go entry ∧
      ∃ name, entry.blob = blobObject go entry.repository name

/-- A write of the service to its bucket. -/
inductive BucketOp
  /-- `Commit`. -/
  | commit (now : ℤ) (entry : Entry)
  /-- A name record, an access marker, a tombstone or a blob. -/
  | put (key body : Bytes)
  | delete (key : Bytes)

def stepBucket (go : Library) (b : Store) : BucketOp → Store
  | .commit now entry =>
    match commitObject go now entry with
    | .ok (object, body) => b.put object body
    | .error _ => b
  | .put key body => b.put key body
  | .delete key => b.delete key

/-- What the service's writes are like: an entry's texts survive JSON, its blob is one that
`NewBlob` named for its repository, and no other write is below `entries/`. -/
def Serviced (go : Library) : BucketOp → Prop
  | .commit now entry =>
    go.unmarshalEntry (go.marshalEntry { entry with createdAt := now / 10 ^ 6 })
      = some { entry with createdAt := now / 10 ^ 6 } ∧
    ∃ name, entry.blob = blobObject go entry.repository name
  | .put key _ => ¬ ascii "entries/" <+: key
  | .delete _ => True

lemma commitObject_ok {now : ℤ} {entry : Entry} {object body : Bytes}
    (h : commitObject go now entry = .ok (object, body)) :
    isOwnerName entry.repository = true ∧
      object = entryObject go { entry with createdAt := now / 10 ^ 6 } ∧
      body = go.marshalEntry { entry with createdAt := now / 10 ^ 6 } := by
  obtain ⟨_, hvalid, h⟩ := bind_ok.mp h
  obtain ⟨-, h⟩ := refuseIf_bind_ok.mp h
  obtain ⟨-, h⟩ := refuseIf_bind_ok.mp h
  cases h
  unfold validateRepository at hvalid
  split at hvalid
  · cases hvalid
  · split at hvalid
    · cases hvalid
    · rename_i hname
      simpa using hname

lemma stepBucket_written {b : Store} {op : BucketOp} (h : Written go b) (hop : Serviced go op) :
    Written go (stepBucket go b op) := by
  cases op with
  | commit now entry =>
    unfold stepBucket
    dsimp only
    split
    · rename_i object body hcommit
      obtain ⟨hvalid, rfl, rfl⟩ := commitObject_ok hcommit
      obtain ⟨hjson, hblob⟩ := hop
      intro object body stored hget hroot hstored
      rw [get_put] at hget
      split at hget
      · rename_i hobject
        cases hget
        cases hjson.symm.trans hstored
        exact ⟨hvalid, hobject, hblob⟩
      · exact h object body stored hget hroot hstored
    · exact h
  | put key body =>
    intro object body' stored hget hroot hstored
    rw [stepBucket, get_put] at hget
    split at hget
    · rename_i hobject
      exact absurd (hobject ▸ hroot) hop
    · exact h object body' stored hget hroot hstored
  | delete key =>
    intro object body stored hget hroot hstored
    rw [stepBucket, get_delete] at hget
    split at hget
    · cases hget
    · exact h object body stored hget hroot hstored

/-- **The documents of a bucket that only the service writes stand where they belong.** -/
theorem service_written (go : Library) (ops : List BucketOp) (h : ∀ op ∈ ops, Serviced go op) :
    Written go (run (stepBucket go) Bucket.empty ops) := by
  refine run_invariant_of_meets (P := fun _ op => Serviced go op) (fun _ b => Written go b)
    (fun _ _ _ hget => by cases hget)
    (fun _ op hb hop => stepBucket_written hb hop) ops ?_
  rintro before op after rfl
  exact h op (by simp)

variable {b : Store} {claims : Claims} {ref version object encoded : Bytes} {entry : Entry}

/-- A document read below a scope of the token is the token's, and stands where it belongs. -/
lemma candidate_written (hvalid : isOwnerName claims.repository = true) (hb : Written go b)
    (hscope : scopePrefix go claims.repository ref (versionSegment go version) <+: object)
    (h : candidate go b object claims.repository ref version = .ok (some entry)) :
    entry.repository.map lowerByte = claims.repository.map lowerByte ∧ entry.ref = ref ∧
      entry.version = version ∧
      object = scopePrefix go claims.repository ref (versionSegment go version) ++ hex entry.key ++
        dot :: recencySuffix entry.createdAt ∧
      ∃ name, entry.blob = blobObject go claims.repository name := by
  obtain ⟨body, stored, hget, hstored, rfl, hfold, rfl, rfl⟩ := candidate_some h
  obtain ⟨hrepository, hobject, name, hblob⟩ :=
    hb object body stored hget ((prefix_append _ _).trans hscope) hstored
  have hascii := (ownerName_split hvalid).1
  have hascii' := (ownerName_split hrepository).1
  have hlower := (go.equalFold_ascii _ _ hascii' hascii).mp hfold
  have hsegment : repositorySegment go stored.repository = repositorySegment go claims.repository := by
    rw [repositorySegment, repositorySegment, go.toLower_ascii _ hascii, go.toLower_ascii _ hascii',
      hlower]
  refine ⟨hlower, rfl, rfl, ?_, name, ?_⟩
  · rw [hobject, entryObject, scopePrefix, scopePrefix, hsegment]
  · rw [hblob, blobObject, blobObject, hsegment]

/-- What was found under a key: an entry of the token's scopes with a key that matches. -/
lemma foundAt_written (hvalid : isOwnerName claims.repository = true) (hb : Written go b)
    (h : FoundAt go b claims version encoded entry) :
    entry.repository.map lowerByte = claims.repository.map lowerByte ∧
      entry.ref ∈ claims.readScopes ∧ entry.version = version ∧
      encoded <+: hex entry.key ++ dot :: recencySuffix entry.createdAt := by
  obtain ⟨ref, href, object, hprefix, hcandidate⟩ := h
  obtain ⟨hlower, rfl, hversion, hobject, -⟩ :=
    candidate_written hvalid hb ((prefix_append _ _).trans hprefix) hcandidate
  rw [hobject, append_assoc, prefix_append_right_inj] at hprefix
  exact ⟨hlower, href, hversion, hprefix⟩

end WrittenDocuments

/-! ## Noninterference -/

section Noninterference

variable {b₁ b₂ : Store} {claims : Claims} {ref version object encoded : Bytes} {entry : Entry}
  {maxCandidates : ℤ}

/-- The buckets agree on what a token may read for a version: the entries below its scopes, who
holds its repository's name, and which bytes of its repository there are. -/
structure AgreeFor (go : Library) (claims : Claims) (version : Bytes) (b₁ b₂ : Store) : Prop where
  entries : ∀ ref ∈ claims.readScopes, ∀ key,
    scopePrefix go claims.repository ref (versionSegment go version) <+: key → b₁.get key = b₂.get key
  name : b₁.get (nameRecordObject go claims.repository) = b₂.get (nameRecordObject go claims.repository)
  blobs : ∀ key, ascii "blobs/" ++ repositorySegment go claims.repository ++ [slash] <+: key →
    (b₁.get key).isSome = (b₂.get key).isSome

lemma getBytes_congr {key : Bytes} {limit : ℕ} (h : b₁.get key = b₂.get key) :
    getBytes b₁ key limit = getBytes b₂ key limit := by
  rw [getBytes, getBytes, h]

lemma firstHit_congr {s₁ s₂ : Bytes → Process → Except StoreError (Option Entry × Process)}
    {scopes : List Bytes} (h : ∀ ref ∈ scopes, ∀ p, s₁ ref p = s₂ ref p) (p : Process) :
    firstHit s₁ scopes p = firstHit s₂ scopes p := by
  induction scopes generalizing p with
  | nil => rfl
  | cons ref scopes ih =>
    obtain ⟨href, hscopes⟩ := forall_mem_cons.mp h
    rw [firstHit, firstHit, href p]
    simp only [ih hscopes]

section Agree

variable (h : AgreeFor go claims version b₁ b₂)

include h

lemma ownedBy_congr (p : Process) : ownedBy go b₁ claims entry p = ownedBy go b₂ claims entry p := by
  have hholder : ∀ q, nameHolder go b₁ claims.repository q = nameHolder go b₂ claims.repository q :=
    fun q => by rw [nameHolder, nameHolder, getBytes_congr h.name]
  rw [ownedBy, ownedBy, hholder]

lemma servable_congr (hblob : ∃ name, entry.blob = blobObject go claims.repository name) :
    servable b₁ entry = servable b₂ entry := by
  obtain ⟨name, hblob⟩ := hblob
  have hunder : ascii "blobs/" ++ repositorySegment go claims.repository ++ [slash] <+: entry.blob := by
    rw [hblob, blobObject, prefix_append_right_inj]
    exact cons_prefix_cons.mpr ⟨rfl, nil_prefix⟩
  have hsome := h.blobs _ hunder
  unfold servable
  cases h₁ : b₁.get entry.blob <;> cases h₂ : b₂.get entry.blob <;> simp_all

variable (hvalid : isOwnerName claims.repository = true) (hb : Written go b₁)

include hvalid hb

/-- The loop over the candidates reads only objects below the scope. -/
lemma readCandidates_congr (href : ref ∈ claims.readScopes) {objects : List Bytes}
    (hobjects : ∀ object ∈ objects,
      scopePrefix go claims.repository ref (versionSegment go version) <+: object)
    (passed : ℕ) (p : Process) :
    readCandidates go b₁ claims ref version passed objects p
      = readCandidates go b₂ claims ref version passed objects p := by
  induction objects generalizing passed p with
  | nil => rfl
  | cons object rest ih =>
    obtain ⟨hobject, hrest⟩ := forall_mem_cons.mp hobjects
    have hcongr : candidate go b₁ object claims.repository ref version
        = candidate go b₂ object claims.repository ref version := by
      rw [candidate, candidate, getBytes_congr (h.entries ref href object hobject)]
    unfold readCandidates
    rw [← hcongr]
    rcases hfound : candidate go b₁ object claims.repository ref version with err | found
    · rfl
    cases found with
    | none =>
      simp only [ok_bind]
      rw [ih hrest]
    | some entry =>
      obtain ⟨-, -, -, -, hblob⟩ := candidate_written hvalid hb hobject hfound
      simp only [ok_bind, ownedBy_congr h, servable_congr h hblob, ih hrest]

/-- A search in one scope. -/
lemma newest_congr (href : ref ∈ claims.readScopes) (p : Process) :
    newest go maxCandidates b₁ claims ref (versionSegment go version) encoded version p
      = newest go maxCandidates b₂ claims ref (versionSegment go version) encoded version p := by
  have hlist : ∀ max, listPrefix b₁ (scopePrefix go claims.repository ref
        (versionSegment go version) ++ encoded) max
      = listPrefix b₂ (scopePrefix go claims.repository ref
        (versionSegment go version) ++ encoded) max := by
    intro max
    rw [listPrefix, listPrefix, list_congr fun key hkey => ?_]
    exact h.entries ref href key ((prefix_append _ _).trans ( isPrefixOf_iff_prefix.mp hkey))
  rw [newest, newest]
  rw [← hlist]
  refine readCandidates_congr h hvalid hb href (fun object hmem => ?_) 0 p
  have hlisted := (mem_filter.mp ((go.perm_sortSlice _ _).mem_iff.mp hmem)).1
  exact (prefix_append _ _).trans (mem_listPrefix hlisted)

/-- A search over the token's scopes. -/
lemma search_congr (maxCandidates : ℤ) (encoded : Bytes) (p : Process) :
    firstHit (fun ref => newest go maxCandidates b₁ claims ref
        (versionSegment go version) encoded version) claims.readScopes p
      = firstHit (fun ref => newest go maxCandidates b₂ claims ref
        (versionSegment go version) encoded version) claims.readScopes p :=
  firstHit_congr (fun _ href => newest_congr h hvalid hb href) p

/-- **A lookup sees no more of the bucket than its token's scopes.** -/
lemma lookup_congr (keys : List Bytes) (p : Process) : lookup go maxCandidates b₁ claims keys version p
      = lookup go maxCandidates b₂ claims keys version p := by
  have hsearch := search_congr h hvalid hb maxCandidates
  have hkeys : ∀ q, lookupKeys go maxCandidates b₁ claims claims.readScopes version keys q
      = lookupKeys go maxCandidates b₂ claims claims.readScopes version keys q := by
    induction keys with
    | nil => exact fun _ => rfl
    | cons key keys ih =>
      intro q
      rw [lookupKeys, lookupKeys]
      simp only [hsearch, ih]
  rw [lookup, lookup, hkeys]

lemma lookupExact_congr (key : Bytes) (p : Process) :
    lookupExact go maxCandidates b₁ claims key version p
      = lookupExact go maxCandidates b₂ claims key version p := by
  have hsearch := search_congr h hvalid hb maxCandidates
  rw [lookupExact, lookupExact, hsearch]

end Agree

/-- The object of an entry lies below a scope of the token exactly when the entry is the token's. -/
lemma under_scope_iff (hvalid : isOwnerName claims.repository = true)
    (hentry : isOwnerName entry.repository = true) :
    (∃ ref ∈ claims.readScopes,
        scopePrefix go claims.repository ref (versionSegment go version) <+: entryObject go entry) ↔
      entry.repository.map lowerByte = claims.repository.map lowerByte ∧ entry.ref ∈ claims.readScopes ∧
        versionSegment go entry.version = versionSegment go version := by
  simp only [entryObject, versionSegment, append_assoc, scopePrefix_prefix hvalid hentry]
  constructor
  · rintro ⟨ref, href, hlower, rfl, hversion⟩
    exact ⟨hlower.symm, href, hversion.symm⟩
  · rintro ⟨hlower, href, hversion⟩
    exact ⟨entry.ref, href, hlower.symm, rfl, hversion.symm⟩

end Noninterference

/-! ## Isolation -/

/-- **A cache is isolated.**  Over any two buckets that agree on what a token may read, a lookup and
an exact lookup answer the same.  What they answer is of the token's repository, of a ref it may
read, of the version asked for and under a key asked for, as long as every document stands where
`Commit` puts it.  Entries of another repository, ref or version have their objects elsewhere. -/
theorem lookups_isolated (go : Library) (maxCandidates : ℤ) (claims : Claims) (version : Bytes)
    (b₁ b₂ : Store) (hvalid : isOwnerName claims.repository = true) (hwritten : Written go b₁)
    (hagree : AgreeFor go claims version b₁ b₂) (p : Process) :
    (∀ keys, lookup go maxCandidates b₁ claims keys version p
        = lookup go maxCandidates b₂ claims keys version p) ∧
      (∀ key, lookupExact go maxCandidates b₁ claims key version p
        = lookupExact go maxCandidates b₂ claims key version p) ∧
      (∀ keys entry p', lookup go maxCandidates b₁ claims keys version p = .ok (some entry, p') →
        entry.repository.map lowerByte = claims.repository.map lowerByte ∧
          entry.ref ∈ claims.readScopes ∧ entry.version = version ∧
          ∃ key ∈ keys, trimSpace key ≠ [] ∧ trimSpace key <+: entry.key) ∧
      (∀ key entry p', lookupExact go maxCandidates b₁ claims key version p
          = .ok (some entry, p') →
        entry.repository.map lowerByte = claims.repository.map lowerByte ∧
          entry.ref ∈ claims.readScopes ∧ entry.version = version ∧
          entry.key = trimSpace key) ∧
      ∀ other : Entry, isOwnerName other.repository = true →
        ((∃ ref ∈ claims.readScopes, scopePrefix go claims.repository ref
            (versionSegment go version) <+: entryObject go other) ↔
          other.repository.map lowerByte = claims.repository.map lowerByte ∧
            other.ref ∈ claims.readScopes ∧
            versionSegment go other.version = versionSegment go version) := by
  refine ⟨fun keys => lookup_congr hagree hvalid hwritten keys p,
    fun key => lookupExact_congr hagree hvalid hwritten key p, ?_, ?_,
    fun other hother => under_scope_iff hvalid hother⟩
  · intro keys entry p' h
    obtain ⟨key, hkey, hne, hfound⟩ := lookup_some h
    obtain ⟨hrepository, href, hversion, hprefix⟩ := foundAt_written hvalid hwritten hfound
    exact ⟨hrepository, href, hversion, key, hkey, hne,
      prefixFree_hexByte.flatMap_prefix.mp ((prefix_before dot_not_mem_hex).mp hprefix)⟩
  · intro key entry p' h
    obtain ⟨hrepository, href, hversion, hprefix⟩ :=
      foundAt_written hvalid hwritten (lookupExact_some h)
    have hkey := ((prefix_separated dot_not_mem_hex dot_not_mem_hex).mp hprefix).1
    exact ⟨hrepository, href, hversion, (hex_injective hkey).symm⟩

section Examples

/-- A library that reads the documents of a table. -/
def tableLibrary (documents : List (Bytes × Entry)) : Library where
  quote := text
  toLower s := s.map lowerByte
  equalFold s t := s.map lowerByte = t.map lowerByte
  sha256 s := s
  marshalEntry entry := ((documents.find? fun document => document.2 = entry).map Prod.fst).getD []
  unmarshalEntry body := (documents.find? fun document => document.1 = body).map Prod.snd
  unmarshalName _ := none
  sortSlice := Sorting.sortBy
  toLower_ascii _ _ := rfl
  equalFold_ascii _ _ _ _ := by simp
  perm_sortSlice _ _ := List.perm_insertionSort _ _
  sorted_sortSlice _ _ := Sorting.sorted_sortBy

/-- A job of `o/r` on `main`. -/
def mainClaims : Claims := ⟨ascii "o/r", 0, ascii "main", [], ascii "main"⟩

def dependencies : Entry where
  key := ascii "deps-1"
  version := ascii "v"
  repository := ascii "o/r"
  repositoryId := 0
  ref := ascii "main"
  blob := ascii "blobs/o/r/00"
  size := 1
  createdAt := 0
  attributes := []
  object := []

/-- A sibling branch saves under the same key. -/
def siblingDependencies : Entry := { dependencies with ref := ascii "side" }

def dependencyLibrary : Library := tableLibrary [([1], dependencies), ([2], siblingDependencies)]

def dependencyOps : List BucketOp := [.put (ascii "blobs/o/r/00") [0], .commit 0 dependencies]

def ownBucket : Store := run (stepBucket dependencyLibrary) Bucket.empty dependencyOps

def sharedBucket : Store := ownBucket.put (entryObject dependencyLibrary siblingDependencies) [2]

def freshProcess : Process := ⟨fun _ => none, fun _ => 0⟩

/-- What a lookup hands to its caller. -/
def answer (result : Except StoreError (Option Entry × Process)) : Option Entry :=
  result.toOption.bind Prod.fst

lemma answer_eq_some {result : Except StoreError (Option Entry × Process)} {entry : Entry}
    (h : answer result = some entry) : ∃ p', result = .ok (some entry, p') := by
  obtain err | ⟨found, p'⟩ := result
  · cases h
  · exact ⟨p', by rw [← h]; rfl⟩

/-- The sibling's entry does not show. -/
theorem lookups_isolated_sibling :
    lookup dependencyLibrary 0 ownBucket mainClaims [ascii "deps-"] (ascii "v") freshProcess
        = lookup dependencyLibrary 0 sharedBucket mainClaims [ascii "deps-"] (ascii "v")
          freshProcess ∧
      (answer (lookup dependencyLibrary 0 ownBucket mainClaims [ascii "deps-"] (ascii "v")
        freshProcess)).map Entry.key = some (ascii "deps-1") := by
  refine ⟨(lookups_isolated dependencyLibrary 0 mainClaims (ascii "v") ownBucket sharedBucket
    (by decide) (service_written _ _ ?_) ?_ freshProcess).1 _, by decide +kernel⟩
  · rintro op (_ | ⟨_, _ | ⟨_, ⟨⟩⟩⟩)
    · have houtside : ¬ ascii "entries/" <+: ascii "blobs/o/r/00" := by decide
      exact houtside
    · exact ⟨by decide, [0], by decide⟩
  · have hget : ∀ key, key ≠ entryObject dependencyLibrary siblingDependencies →
        ownBucket.get key = sharedBucket.get key := fun key hne => by
      rw [sharedBucket, get_put, if_neg hne]
    have hscopes : mainClaims.readScopes = [ascii "main"] := by decide
    refine ⟨?_, hget _ (by decide), ?_⟩
    · intro ref href key hkey
      rw [hscopes, mem_singleton] at href
      subst href
      refine hget key ?_
      rintro rfl
      revert hkey
      decide
    · intro key hkey
      rw [hget key]
      rintro rfl
      revert hkey
      decide

/-- Where an entry of another key belongs. -/
def toolsObject : Bytes := entryObject dependencyLibrary { dependencies with key := ascii "tools" }

/-- The document of one key, at the object of another. -/
def misfiledBucket : Store := (Bucket.empty.put (ascii "blobs/o/r/00") [0]).put toolsObject [1]

/-- **A document that is not where it belongs is answered under the wrong key.**  Reading it checks
its repository, ref and version against the request, and not its key. -/
theorem lookup_answers_misfiled :
    isOwnerName mainClaims.repository = true ∧ ∃ entry p',
      lookup dependencyLibrary 0 misfiledBucket mainClaims [ascii "tools"] (ascii "v") freshProcess
        = .ok (some entry, p') ∧
      ¬ ∃ key ∈ [ascii "tools"], trimSpace key <+: entry.key := by
  have hanswer : answer (lookup dependencyLibrary 0 misfiledBucket mainClaims [ascii "tools"]
      (ascii "v") freshProcess) = some { dependencies with object := toolsObject } := by
    decide +kernel
  obtain ⟨p', hlookup⟩ := answer_eq_some hanswer
  exact ⟨by decide, _, p', hlookup, by decide⟩

end Examples

end EraInfra.CacheIndex
