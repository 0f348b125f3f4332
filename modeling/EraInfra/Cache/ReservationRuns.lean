import EraInfra.Cache.Reservations

/-!
# What a v1 upload publishes

Along a run of chunks the spool holds what they wrote, one over the other, and the size a commit is
checked against is the end of the furthest chunk that was acknowledged (`Spooled`).  That size says
nothing of what lies before it: a chunk that never came leaves a hole, which is published as zeros
(`v1_publishes_hole`).  And a chunk that breaks off is not taken back: it has overwritten what was
acknowledged before.

What is published is what was acknowledged when the acknowledged chunks join up and every chunk that
broke off was sent again.
-/

namespace EraInfra.CacheServer

open DocStore Encoding SparseFile List Option Write

variable {quote : String → String}

/-! ## Parts -/

section Parts

variable {answers : StoreAnswers} {spool : Bytes} {size part : ℕ}

variable {object : Bytes}

/-- The object after the first parts is the beginning of the spool. -/
lemma addParts_prefix {k : ℕ}
    (h : (range k).foldlM (addPart answers spool size part) [] = some object) :
    object = spool.take (min (k * part) size) ∧ object.length = min (k * part) size := by
  induction k generalizing object with
  | zero =>
    cases h
    simp
  | succ k ih =>
    rw [range_succ, foldlM_append] at h
    obtain ⟨before, hbefore, h⟩ := bind_eq_some_iff.mp h
    obtain ⟨htake, hlength⟩ := ih hbefore
    obtain ⟨object', hpart, h⟩ := bind_eq_some_iff.mp h
    cases h
    unfold addPart at hpart
    dsimp only at hpart
    split at hpart
    · rename_i hpiece
      cases hpart
      have hnext : min ((k + 1) * part) size = min (k * part) size + min part (size - k * part) := by
        rw [add_mul]
        omega
      constructor
      · by_cases hin : k * part ≤ size
        · rw [hnext, take_add, htake, min_eq_left hin]
        · have hzero : size - k * part = 0 := by omega
          rw [hnext, hzero, htake]
          simp
      · rw [length_append, hlength, hpiece.1, hnext]
    · cases hpart

lemma addParts_some (hpart : 0 < part) (h : addParts answers spool size part = some object) :
    object = spool.take size ∧ object.length = size := by
  obtain ⟨htake, hlength⟩ := addParts_prefix h
  have hall : min ((size + part - 1) / part * part) size = size := by
    have hdiv := Nat.div_add_mod (size + part - 1) part
    have hmod := Nat.mod_lt (size + part - 1) hpart
    rw [mul_comm] at hdiv
    omega
  rw [hall] at htake hlength
  exact ⟨htake, hlength⟩

lemma partBytes_pos (configured : ℤ) : 0 < partBytes configured := by
  unfold partBytes
  split <;> omega

end Parts

/-! ## One chunk -/

section Chunks

/-- What a held reservation has of the writes so far. -/
structure Spooled (ws : List (Write UInt8)) (r : Reservation) : Prop where
  limit_lt : r.limit < 2 ^ 63 - 1
  file : r.file = some (ws.foldl write [])
  written_le : ∀ w ∈ ws.filter Write.kept, (w.stop : ℤ) ≤ r.written
  written_eq : r.written = 0 ∨ ∃ w ∈ ws.filter Write.kept, (w.stop : ℤ) = r.written

/-- What a chunk at an offset writes. -/
def chunkWrite (r : Reservation) (patch : Patch) (offset : ℤ) (kept : Bool) : Write UInt8 :=
  ⟨offset.toNat, patch.body.take (r.room offset), kept⟩

variable {r r' : Reservation} {patch : Patch}

/-- A chunk is refused, breaks off in the spool, or lands and raises the high-water mark. -/
lemma writeAt_cases {file : Bytes} (hlimit : r.limit < 2 ^ 63 - 1) (hfile : r.file = some file)
    (patch : Patch) (offset : ℤ) :
    (∃ n r', r.writeAt patch offset = ((n, some .tooLarge), r')) ∨
      (∃ n r', r.writeAt patch offset = ((n, some .broken), r') ∧ r'.limit = r.limit ∧
        r'.file = some (write file (chunkWrite r patch offset false)) ∧ r'.written = r.written) ∨
      ∃ n r', r.writeAt patch offset = ((n, none), r') ∧ r'.limit = r.limit ∧
        r'.file = some (write file (chunkWrite r patch offset true)) ∧
        r'.written = max r.written (chunkWrite r patch offset true).stop := by
  unfold Reservation.writeAt
  simp only [hfile]
  split
  · exact .inl ⟨_, _, rfl⟩
  rename_i hoffset
  split
  · exact .inr (.inl ⟨_, _, rfl, rfl, rfl, rfl⟩)
  split
  · exact .inl ⟨_, _, rfl⟩
  · refine .inr (.inr ⟨_, _, rfl, rfl, rfl, ?_⟩)
    -- no sum wraps: the reader stops one byte past the limit
    have hroom : r.room offset = (r.limit - offset + 1).toNat := by
      rw [Reservation.room, int64_of_lt (by omega) (by omega)]
    have hlength := length_take_le (r.room offset) patch.body
    rw [int64_of_lt (by omega) (by omega)]
    simp only [chunkWrite, stop]
    split <;> omega

/-- A chunk drops the reservation, leaves it as it was, or lands in its spool. -/
lemma v1Upload_cases {file : Bytes} (hlimit : r.limit < 2 ^ 63 - 1) (hfile : r.file = some file)
    (h : (v1Upload quote patch (some r)).2 = some r') :
    (r' = r ∧ landed quote (some r) patch = []) ∨
      ∃ w : Write UInt8, landed quote (some r) patch = [w] ∧ r'.limit = r.limit ∧
        r'.file = some (write file w) ∧ r'.written = if w.kept then max r.written w.stop else r.written := by
  unfold landed
  rcases hrange : parseContentRange quote patch.contentRange with message | range
  · simp only [v1Upload, hrange] at h
    exact .inl ⟨(some.inj h).symm, rfl⟩
  obtain ⟨start, stop⟩ := range
  rcases writeAt_cases hlimit hfile patch start with ⟨n, r₁, hwrite⟩ |
    ⟨n, r₁, hwrite, hsameLimit, hlanded, hsame⟩ | ⟨n, r₁, hwrite, hsameLimit, hlanded, hmax⟩
  · simp only [v1Upload, hrange, hwrite] at h
    cases h
  · simp only [v1Upload, hrange, hwrite] at h ⊢
    cases h
    exact .inr ⟨chunkWrite r patch start false, rfl, hsameLimit, hlanded, hsame⟩
  simp only [v1Upload, hrange, hwrite] at h ⊢
  split at h
  · cases h
  · rename_i hpromised
    rw [if_neg hpromised]
    cases h
    exact .inr ⟨chunkWrite r patch start true, rfl, hsameLimit, hlanded, hmax⟩

lemma Spooled.step {ws : List (Write UInt8)}
    (hr : Spooled ws r) (h : (v1Upload quote patch (some r)).2 = some r') :
    Spooled (ws ++ landed quote (some r) patch) r' := by
  rcases v1Upload_cases hr.limit_lt hr.file h with ⟨rfl, hnone⟩ | ⟨w, hw, hlimit, hfile, hwritten⟩
  · rwa [hnone, append_nil]
  rw [hw]
  refine ⟨hlimit ▸ hr.limit_lt, by rw [hfile, foldl_append]; rfl, ?_, ?_⟩
  · intro v hv
    rw [filter_append, mem_append] at hv
    cases hkept : w.kept with
    | false =>
      rw [hwritten, hkept]
      rw [filter_cons_of_neg (by simp [hkept])] at hv
      exact hr.written_le v (hv.resolve_right (by simp))
    | true =>
      rw [hwritten, hkept]
      rw [filter_cons_of_pos hkept, filter_nil, mem_singleton] at hv
      rcases hv with hv | rfl
      · exact (hr.written_le v hv).trans (le_max_left _ _)
      · exact le_max_right _ _
  · have hold : r.written = 0 ∨ ∃ v ∈ (ws ++ [w]).filter kept, v.stop = r.written :=
      hr.written_eq.imp_right fun ⟨v, hv, hstop⟩ =>
        ⟨v, by rw [filter_append]; exact mem_append_left _ hv, hstop⟩
    cases hkept : w.kept with
    | false =>
      rw [hwritten, hkept]
      exact hold
    | true =>
      rw [hwritten, hkept]
      rcases max_cases r.written w.stop with ⟨hmax, -⟩ | ⟨hmax, -⟩
      · rwa [hmax]
      · exact .inr ⟨w, by simp [hkept], hmax.symm⟩

end Chunks

/-! ## Runs -/

section Runs

variable (quote)

/-- What the chunks of a run wrote to the spool of a reservation. -/
def uploadWrites (r : Reservation) (patches : List Patch) : List (Write UInt8) :=
  trace (stepUpload quote) (landed quote) (some r) patches

def afterPatches (r : Reservation) (patches : List Patch) : Held :=
  run (stepUpload quote) (some r) patches

variable {quote}

lemma spooled_run {r₀ : Reservation} (hlimit : r₀.limit < 2 ^ 63 - 1) (hfile : r₀.file = some [])
    (hwritten : r₀.written = 0) (patches : List Patch) :
    ∀ r, afterPatches quote r₀ patches = some r → Spooled (uploadWrites quote r₀ patches) r := by
  refine @run_invariant _ _ (stepUpload quote) (some r₀)
    (fun patches held => ∀ r, held = some r → Spooled (uploadWrites quote r₀ patches) r) ?_ ?_ patches
  · rintro r hr
    cases hr
    exact ⟨hlimit, hfile, by simp [uploadWrites, trace], .inl hwritten⟩
  intro patches patch ih r hr
  rw [uploadWrites, trace_snoc]
  cases hheld : run (stepUpload quote) (some r₀) patches with
  | none =>
    rw [hheld] at hr
    cases hr
  | some r₁ =>
    rw [hheld] at hr
    exact (ih r₁ hheld).step hr

/-- What a commit publishes is the spool, up to the high-water mark. -/
lemma v1Commit_published {part : ℤ} {answers : StoreAnswers} {request : Option ℤ} {held : Held}
    {published : Published} (h : (v1Commit part answers request held).2.1 = some published) :
    ∃ r spool, held = some r ∧ r.file = some spool ∧ published.entry.size = r.written ∧
      published.bytes = spool.take r.written.toNat ∧
      published.bytes.length = r.written.toNat := by
  unfold v1Commit at h
  split at h
  · cases h
  rename_i r
  split at h
  · cases h
  split at h
  · cases h
  split at h
  · cases h
  · cases h
  rename_i spool blob hfile hblob
  split at h
  · cases h
  rename_i bytes hbytes
  split at h
  · cases h
  split at h
  · cases h
  · cases h
  · cases h
    obtain ⟨htake, hlength⟩ := addParts_some (partBytes_pos part) hbytes
    exact ⟨r, spool, rfl, hfile, rfl, htake, hlength⟩

end Runs

/-- **A v1 upload whose chunks join up and whose broken chunks were sent again publishes what was
acknowledged**, as long as the offsets of its parts fit in 64 bits.  The published bytes are as many as
the entry's size, and each of them is that of the last acknowledged chunk over its offset. -/
theorem v1_publishes_acknowledged (quote : String → String) (repository : Bytes) (repositoryId : ℤ)
    (ref key version : Bytes) (limit : ℤ) (patches : List Patch) (part : ℤ) (answers : StoreAnswers)
    (request : Option ℤ) (published : Published) (hlimit : limit + partBytes part < 2 ^ 63)
    (hjoined : JoinedUp ((uploadWrites quote
      (newReservation repository repositoryId ref key version limit) patches).filter Write.kept))
    (hredone : Redone (uploadWrites quote
      (newReservation repository repositoryId ref key version limit) patches))
    (hpublished : (v1Commit part answers request (afterPatches quote
      (newReservation repository repositoryId ref key version limit) patches)).2.1
        = some published) :
    (published.bytes.length : ℤ) = published.entry.size ∧
      ∀ i < published.bytes.length, ∃ byte,
        lastByte ((uploadWrites quote (newReservation repository repositoryId ref key version limit)
          patches).filter Write.kept) i = some byte ∧ published.bytes[i]? = some byte := by
  set r₀ := newReservation repository repositoryId ref key version limit with hr₀
  set ws := uploadWrites quote r₀ patches with hws
  obtain ⟨r, spool, hheld, hfile, hsize, hbytes, hlength⟩ := v1Commit_published hpublished
  have hspooled : Spooled ws r := by
    have hpart := partBytes_pos part
    have hlt : r₀.limit < 2 ^ 63 - 1 := by
      change limit < 2 ^ 63 - 1
      omega
    exact spooled_run hlt rfl rfl patches r hheld
  have hwhole : ∀ i < r.written.toNat, ∃ byte, lastByte (ws.filter kept) i = some byte := by
    intro i hi
    rcases hspooled.written_eq with hzero | ⟨w, hw, hstop⟩
    · omega
    · exact isSome_iff_exists.mp
        (lastByte_isSome.mpr (covered_of_joined hjoined hw (by omega)))
  have hnonneg : 0 ≤ r.written := by
    rcases hspooled.written_eq with hzero | ⟨w, -, hstop⟩ <;> omega
  refine ⟨by rw [hsize]; omega, fun i hi => ?_⟩
  rw [hlength] at hi
  obtain ⟨byte, hbyte⟩ := hwhole i hi
  have hspool : spool[i]? = some byte := by
    cases hfile.symm.trans hspooled.file
    exact getElem?_writes (lastByte_filter hredone ▸ hbyte)
  exact ⟨byte, hbyte, by rw [hbytes, getElem?_take_of_lt hi, hspool]⟩

section Examples

/-- A store that takes everything. -/
def willingStore : StoreAnswers := ⟨some [], fun _ => true, true, .published⟩

/-- A reservation for up to eight bytes. -/
def smallReservation : Reservation := newReservation [] 0 [] [] [] 8

/-- The second half comes first; the first half breaks off and is sent again. -/
def resentPatches : List Patch :=
  [⟨"bytes 2-3/*", [3, 4], false⟩, ⟨"bytes 0-1/*", [9], true⟩, ⟨"bytes 0-1/*", [1, 2], false⟩]

theorem v1_publishes_acknowledged_resent : ∃ published,
    (v1Commit 0 willingStore (some 4) (afterPatches id smallReservation resentPatches)).2.1
        = some published ∧
      published.bytes = [1, 2, 3, 4] ∧ (published.bytes.length : ℤ) = published.entry.size := by
  obtain ⟨published, hpublished, hbytes⟩ : ∃ published,
      (v1Commit 0 willingStore (some 4) (afterPatches id smallReservation resentPatches)).2.1
        = some published ∧ published.bytes = [1, 2, 3, 4] :=
    ⟨⟨⟨[], [], [], 0, [], [], 4, 0, [], []⟩, [1, 2, 3, 4]⟩, by decide, rfl⟩
  refine ⟨published, hpublished, hbytes, (v1_publishes_acknowledged id [] 0 [] [] [] 8 resentPatches 0
    willingStore (some 4) published (by decide) ?_ ?_ hpublished).1⟩
  · unfold JoinedUp
    decide
  · refine ⟨(nomatch ·), fun _ i hi => ⟨⟨0, [1, 2], true⟩, by decide, ?_⟩, (nomatch ·), trivial⟩
    rw [byteAt_isSome] at hi ⊢
    exact ⟨hi.1, lt_trans hi.2 (by decide)⟩

/-- **A chunk that never came is published as zeros.**  The one chunk of the upload is acknowledged;
the commit claims the size up to its end and is accepted, and no acknowledged chunk covers the
first byte. -/
theorem v1_publishes_hole : ∃ published,
    (v1Upload id ⟨"bytes 1-1/*", [120], false⟩ (some smallReservation)).1 = ⟨204, none⟩ ∧
      (v1Commit 0 willingStore (some 2)
        (afterPatches id smallReservation [⟨"bytes 1-1/*", [120], false⟩])).2.1 = some published ∧
      published.entry.size = 2 ∧ published.bytes = [0, 120] ∧
      lastByte ((uploadWrites id smallReservation [⟨"bytes 1-1/*", [120], false⟩]).filter
        Write.kept) 0 = none :=
  ⟨⟨⟨[], [], [], 0, [], [], 2, 0, [], []⟩, [0, 120]⟩, by decide⟩

end Examples

end EraInfra.CacheServer
