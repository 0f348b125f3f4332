import EraInfra.Cache.SpoolBudget

/-!
# What a v2 block upload stores

A block's file is named by its id alone.  Staging an id again therefore writes the new bytes to the
file of the old ones, and then removes "the previous file", which is the new one: the commit finds a
block whose bytes are gone (`restaged_block_is_lost`).  A second attempt that fails leaves the old
block recorded and its file overwritten.

As long as no block that the list names is sent again after it was staged, each of them keeps its
file (`Filed`), and the commit stores them in the order of the list.  That a body is written whole
rests on its claim: the reader's limit is one more, and this does not wrap while claims stay within a
limit below the largest `int64` (`InBudget`).
-/

namespace EraInfra.CacheServer

open DocStore Encoding ObjectStore List Option Bucket
open Spooling (stage)

/-! ## Staging -/

section Staging

variable {dir id : Bytes} {request : StageRequest} {st : Spooling} {staged : List (Bytes × Bytes)}
  {named : List Bytes}

lemma blockPath_injective {a b : Bytes} (h : blockPath dir a = blockPath dir b) : a = b := by
  exact hex_injective (append_cancel_left h)

lemma latestStaged_snoc {block : Bytes × Bytes} : latestStaged (staged ++ [block]) id
      = if block.1 = id then some block.2 else latestStaged staged id := by
  unfold latestStaged
  by_cases h : block.1 = id <;> simp [h]

variable {path : Bytes} {spool : Bucket Bytes Bytes} {claimed actual : ℤ} {session : Session}

variable {spool' : Bucket Bytes Bytes} {other : Bytes}

/-- A file that was written whole. -/
lemma writeSpoolFile_some {limit size : ℤ} (hpos : 0 ≤ limit) (hlt : limit < 2 ^ 63 - 1)
    (h : writeSpoolFile path request limit spool = (some size, spool')) :
    size = request.body.length ∧ size ≤ limit ∧ spool' = spool.put path request.body := by
  unfold writeSpoolFile at h
  split at h
  · cases h
  dsimp only at h
  split at h
  · cases h
  split at h
  · cases h
  rename_i hlimit
  split at h
  · cases h
  obtain ⟨hsize, rfl⟩ := Prod.mk.inj h
  cases hsize
  -- the reader stopped at the end of the body, before its limit
  have hall : request.body.take (int64 (limit + 1)).toNat = request.body := by
    rw [int64_of_lt (by omega) (by omega), length_take] at hlimit
    rw [int64_of_lt (by omega) (by omega)]
    exact take_of_length_le (by omega)
  rw [hall] at hlimit ⊢
  exact ⟨rfl, not_lt.mp hlimit, rfl⟩

/-- A file that was not written whole touches no other file. -/
lemma writeSpoolFile_none {limit : ℤ} (h : writeSpoolFile path request limit spool = (none, spool'))
    (hother : other ≠ path) : spool'.get other = spool.get other := by
  have hput : ∀ bytes, (spool.put path bytes).get other = spool.get other := fun bytes => by
    rw [get_put, if_neg hother]
  unfold writeSpoolFile at h
  split at h
  · cases h
    rfl
  dsimp only at h
  split at h
  · cases h
    exact hput _
  split at h
  · cases h
    exact hput _
  split at h
  · cases h
    exact hput _
  · cases (Prod.mk.inj h).1

lemma reserveBlock_some {s s' : Session} {want : ℤ}
    (h : s.reserveBlock want = some (claimed, s')) : s'.dir = s.dir ∧ s'.blocks = s.blocks := by
  unfold Session.reserveBlock at h
  dsimp only at h
  split at h
  · cases h
  · cases some.inj h
    exact ⟨rfl, rfl⟩

/-- A block that the list names is not sent again once it is staged; a request refused for lack of
budget does not count. -/
def SentOnce (named : List Bytes) (st : Spooling) (request : StageRequest) : Prop :=
  request.blockId ∈ named → (st.session.blocks.get request.blockId).isSome = true →
    (st.session.reserveBlock request.contentLength).isNone = true

instance : Decidable (SentOnce named st request) := by
  unfold SentOnce
  infer_instance

/-- Between two requests nothing is claimed, and a claim and one byte more fit in 64 bits. -/
structure InBudget (st : Spooling) : Prop where
  limit_lt : st.session.limit < 2 ^ 63 - 1
  sized : Sized ⟨st, []⟩
  balanced : Balanced ⟨st, []⟩

/-- What a request claims is within the limit, and within the balance. -/
lemma InBudget.reserve (h : InBudget st)
    (hreserve : st.session.reserveBlock request.contentLength = some (claimed, session)) :
    0 ≤ claimed ∧ claimed < 2 ^ 63 - 1 ∧ session.limit = st.session.limit ∧
      ∀ spool, Sized ⟨⟨session, spool⟩, [claimed]⟩ ∧ Balanced ⟨⟨session, spool⟩, [claimed]⟩ := by
  have hlimit : session.limit = st.session.limit := by
    unfold Session.reserveBlock at hreserve
    dsimp only at hreserve
    split at hreserve
    · cases hreserve
    · cases hreserve
      rfl
  obtain ⟨hsized, hbalanced⟩ := balanced_step h.sized (.reserve request.contentLength)
  have hbalanced := hbalanced h.balanced nofun
  simp only [stepSpool, hreserve] at hsized hbalanced
  have hrecorded : 0 ≤ session.recorded := hsized.recorded_nonneg
  have hpos := hsized.claims_pos claimed mem_cons_self
  have hle := hbalanced.bytes_le
  have hlt := h.limit_lt
  simp only [sum_cons, sum_nil, hlimit] at hle
  refine ⟨hpos.le, by omega, hlimit, fun spool => ⟨⟨hsized.claims_pos, hsized.sizes_nonneg⟩, ?_⟩⟩
  exact ⟨hbalanced.staged_eq, hbalanced.nonneg, hbalanced.le_limit, hbalanced.bytes_le⟩

/-- Each block that the list names is recorded as it was last staged, and has its bytes in its
file. -/
structure Filed (dir : Bytes) (named : List Bytes) (staged : List (Bytes × Bytes)) (st : Spooling) :
    Prop where
  inBudget : InBudget st
  sessionDir : st.session.dir = dir
  paths : ∀ id block, st.session.blocks.get id = some block → block.path = blockPath dir id
  filed : ∀ id ∈ named, ∀ bytes, latestStaged staged id = some bytes →
    st.session.blocks.get id = some ⟨blockPath dir id, bytes.length⟩ ∧
      st.spool.get (blockPath dir id) = some bytes
  unstaged : ∀ id ∈ named, latestStaged staged id = none → st.session.blocks.get id = none

section

variable (h : Filed dir named staged st) (honce : SentOnce named st request)
  (hreserve : st.session.reserveBlock request.contentLength = some (claimed, session))

include h honce hreserve

/-- A named block that is sent has not been staged before. -/
lemma Filed.fresh (hnamed : request.blockId ∈ named) :
    st.session.blocks.get request.blockId = none ∧ latestStaged staged request.blockId = none := by
  have hnone : st.session.blocks.get request.blockId = none := by
    cases hblock : st.session.blocks.get request.blockId with
    | none => rfl
    | some block =>
      have := honce hnamed (by rw [hblock]; rfl)
      rw [hreserve] at this
      cases this
  refine ⟨hnone, ?_⟩
  cases hlatest : latestStaged staged request.blockId with
  | none => rfl
  | some bytes =>
    rw [(h.filed _ hnamed bytes hlatest).1] at hnone
    cases hnone

/-- A request that fails after it got budget. -/
lemma Filed.failed
    (hwrite : writeSpoolFile (blockPath st.session.dir request.blockId) request claimed st.spool
      = (none, spool)) :
    Filed dir named staged ⟨session.releaseBlock claimed, spool⟩ := by
  obtain ⟨hdir, hblocks⟩ := reserveBlock_some hreserve
  have hget : (session.releaseBlock claimed).blocks = st.session.blocks := hblocks
  refine ⟨?_, hdir.trans h.sessionDir, ?_, ?_, ?_⟩
  · obtain ⟨-, -, hlimit, hclaimed⟩ := h.inBudget.reserve hreserve
    obtain ⟨hsized, hbalanced⟩ := balanced_step (hclaimed spool).1 (.release claimed)
    have hbalanced := hbalanced (hclaimed spool).2 nofun
    simp only [stepSpool, mem_singleton, if_true, erase_cons_head] at hsized hbalanced
    exact ⟨(congrArg (· < 2 ^ 63 - 1) hlimit).mpr h.inBudget.limit_lt, hsized, hbalanced⟩
  · intro id block hblock
    exact h.paths id block (hget ▸ hblock)
  · intro id hid bytes hlatest
    obtain ⟨hblock, hfile⟩ := h.filed id hid bytes hlatest
    have hne : id ≠ request.blockId := by
      rintro rfl
      rw [(h.fresh honce hreserve hid).2] at hlatest
      cases hlatest
    refine ⟨hget ▸ hblock, ?_⟩
    rw [writeSpoolFile_none hwrite, hfile]
    rw [h.sessionDir]
    exact fun heq => hne (blockPath_injective heq)
  · intro id hid hlatest
    exact hget ▸ h.unstaged id hid hlatest

end

/-! A block that lands: what becomes of the files. -/

/-- The only file that is removed is that of the block before. -/
lemma stage_spool_other
    (h : ∀ previous, st.session.blocks.get id = some previous → other ≠ previous.path) :
    (st.stage id path claimed actual).spool.get other = st.spool.get other := by
  rw [stage]
  split
  · rename_i previous hprevious
    rw [get_delete, if_neg (h previous hprevious)]
  · rfl

/-- A block that lands. -/
lemma Filed.landed (h : Filed dir named staged st) (honce : SentOnce named st request) {size : ℤ}
    (hreserve : st.session.reserveBlock request.contentLength = some (claimed, session))
    (hwrite : writeSpoolFile (blockPath st.session.dir request.blockId) request claimed st.spool
      = (some size, spool)) :
    Filed dir named (staged ++ [(request.blockId, request.body)])
      (stage ⟨session, spool⟩ request.blockId (blockPath st.session.dir request.blockId)
        claimed size) := by
  obtain ⟨hdir, hblocks⟩ := reserveBlock_some hreserve
  obtain ⟨hpos, hlt, hlimit, hclaimed⟩ := h.inBudget.reserve hreserve
  obtain ⟨rfl, hsize, rfl⟩ := writeSpoolFile_some hpos hlt hwrite
  rw [h.sessionDir]
  -- the file of another id is neither written nor removed
  have hother : ∀ id, id ≠ request.blockId → blockPath dir id ≠ blockPath dir request.blockId :=
    fun id hne heq => hne (blockPath_injective heq)
  refine ⟨?_, stage_dir.trans (hdir.trans h.sessionDir), ?_, ?_, ?_⟩
  · obtain ⟨hsized, hbalanced⟩ := balanced_step (hclaimed (st.spool.put _ request.body)).1
      (.stage request.blockId (blockPath dir request.blockId) claimed request.body.length)
    have hbalanced := hbalanced (hclaimed _).2 nofun
    simp only [stepSpool, mem_singleton, hsize, Int.natCast_nonneg, and_self, if_true,
      erase_cons_head] at hsized hbalanced
    refine ⟨?_, hsized, hbalanced⟩
    rw [stage_limit]
    exact (congrArg (· < 2 ^ 63 - 1) hlimit).mpr h.inBudget.limit_lt
  · intro id block hblock
    rw [stage_blocks, get_put] at hblock
    split at hblock
    · rename_i hid
      cases hblock
      rw [hid]
    · exact h.paths id block (hblocks ▸ hblock)
  · intro id hid bytes hlatest
    rw [latestStaged_snoc] at hlatest
    rw [stage_blocks, get_put]
    by_cases heq : id = request.blockId
    · subst heq
      rw [if_pos rfl] at hlatest ⊢
      cases hlatest
      refine ⟨rfl, ?_⟩
      have hnone : session.blocks.get request.blockId = none := hblocks ▸ (h.fresh honce hreserve hid).1
      simp only [stage, hnone]
      rw [get_put, if_pos rfl]
    · rw [if_neg (Ne.symm heq)] at hlatest
      rw [if_neg heq, hblocks, stage_spool_other, get_put, if_neg (hother id heq)]
      · exact h.filed id hid bytes hlatest
      · intro previous hprevious
        rw [h.paths _ previous (hblocks ▸ hprevious)]
        exact hother id heq
  · intro id hid hlatest
    rw [latestStaged_snoc] at hlatest
    split at hlatest
    · cases hlatest
    · rename_i hne
      rw [stage_blocks, get_put, if_neg (Ne.symm hne), hblocks]
      exact h.unstaged id hid hlatest

/-- One request. -/
lemma Filed.step (h : Filed dir named staged st) (honce : SentOnce named st request) :
    Filed dir named (staged ++ stagedBy st request) (stepStage st request) := by
  by_cases hblank : trimSpace request.blockId = []
  · simpa [stepStage, stagedBy, stageBlock, hblank] using h
  rcases hreserve : st.session.reserveBlock request.contentLength with _ | claim
  · simpa [stepStage, stagedBy, stageBlock, hblank, hreserve, blobTooLarge] using h
  obtain ⟨claimed, session⟩ := claim
  cases hwrite : writeSpoolFile (blockPath st.session.dir request.blockId) request claimed st.spool with
  | mk size spool =>
    cases size with
    | none =>
      simpa [stepStage, stagedBy, stageBlock, hblank, hreserve, hwrite, blobWriteFailed]
        using h.failed honce hreserve hwrite
    | some size =>
      simpa [stepStage, stagedBy, stageBlock, hblank, hreserve, hwrite]
        using h.landed honce hreserve hwrite

end Staging

/-! ## Committing -/

section Committing

variable {spool : Bucket Bytes Bytes} {answers : UploadAnswers}

variable {block : BlockRef → StagedBlock} {refs : List BlockRef}

lemma resolveBlocks_ok {session : Session} (hkinds : ∀ ref ∈ refs, ref.name ∈ blockKinds)
    (hblocks : ∀ ref ∈ refs, session.blocks.get (trimSpace ref.id) = some (block ref)) :
    resolveBlocks session refs = .ok (refs.map block) := by
  unfold resolveBlocks
  induction refs with
  | nil => rfl
  | cons ref refs ih =>
    obtain ⟨hkind, hkinds⟩ := forall_mem_cons.mp hkinds
    obtain ⟨hblock, hblocks⟩ := forall_mem_cons.mp hblocks
    rw [mapM_cons, ih hkinds hblocks]
    simp only [hkind, hblock]
    rfl

lemma readBlock_filed {path bytes : Bytes} (h : spool.get path = some bytes) :
    readBlock spool ⟨path, bytes.length⟩ = some bytes := by
  unfold readBlock
  split
  · rename_i hsize
    have : bytes.length = 0 := by
      dsimp only at hsize
      omega
    rw [length_eq_zero_iff.mp this]
  · simp [h]

/-- A store that takes every part gets the blocks in their order. -/
lemma uploadBlocks_eq (hparts : ∀ i, answers.addPart i = true) {contents : BlockRef → Bytes}
    (hread : ∀ ref ∈ refs, readBlock spool (block ref) = some (contents ref)) :
    uploadBlocks answers spool (refs.map block) = some (refs.flatMap contents) := by
  have hloop : ∀ n object,
      ((refs.map block).zipIdx n).foldlM (fun object p => if answers.addPart p.2 then
          (readBlock spool p.1).map fun bytes => object ++ bytes else none) object
        = some (object ++ refs.flatMap contents) := by
    simp only [hparts, if_true]
    induction refs with
    | nil =>
      intro n object
      rw [flatMap_nil, append_nil]
      rfl
    | cons ref refs ih =>
      intro n object
      obtain ⟨href, hrefs⟩ := forall_mem_cons.mp hread
      rw [map_cons, zipIdx_cons, foldlM_cons]
      simp only [href, map_some, bind_eq_bind, bind_some]
      rw [ih hrefs (n + 1) (object ++ contents ref), flatMap_cons, append_assoc]
  exact hloop 0 []

end Committing

/-! ## Runs -/

section Runs

/-- The blocks that a run of requests staged successfully, in order. -/
def stagedInRun (dir : Bytes) (limit : ℤ) (requests : List StageRequest) : List (Bytes × Bytes) :=
  trace stepStage stagedBy (newSession dir limit) requests

def afterStaging (dir : Bytes) (limit : ℤ) (requests : List StageRequest) : Spooling :=
  run stepStage (newSession dir limit) requests

lemma filed_run {dir : Bytes} {limit : ℤ} {named : List Bytes} (hlimit : 0 ≤ limit)
    (hlt : limit < 2 ^ 63 - 1) (requests : List StageRequest)
    (h : Meets stepStage (newSession dir limit) (SentOnce named) requests) :
    Filed dir named (stagedInRun dir limit requests)
      (afterStaging dir limit requests) := by
  refine run_invariant_of_meets
    (fun requests st => Filed dir named (stagedInRun dir limit requests) st) ?_ ?_ requests h
  · have hsized : Sized ⟨newSession dir limit, []⟩ := sized_run dir limit []
    exact ⟨⟨hlt, hsized, rfl, le_rfl, hlimit, hlimit⟩, rfl, nofun, nofun, fun _ _ _ => rfl⟩
  · intro requests request hfiled honce
    rw [stagedInRun, trace_snoc]
    exact hfiled.step honce

end Runs

/-- **A block list stores what was staged.**  In every run of requests, under a limit that is below the
largest `int64`, in which no block that the list names is sent again after it was staged, a list of known elements that names staged blocks
only is committed, and the object is the concatenation, in the order of the list, of the bytes
most recently staged under each id. -/
theorem block_list_stores_staged (dir : Bytes) (limit : ℤ)
    (requests : List StageRequest) (refs : List BlockRef) (answers : UploadAnswers) (blob : Bytes)
    (hlimit : 0 ≤ limit) (hlt : limit < 2 ^ 63 - 1) (hrefs : refs ≠ []) (hkinds : ∀ ref ∈ refs, ref.name ∈ blockKinds)
    (hstaged : ∀ ref ∈ refs,
      latestStaged (stagedInRun dir limit requests) (trimSpace ref.id) ≠ none)
    (hstore : answers.newBlob = some blob ∧ (∀ i, answers.addPart i = true) ∧
      answers.complete = true)
    (honce : Meets stepStage (newSession dir limit)
      (SentOnce (refs.map fun ref => trimSpace ref.id)) requests) :
    (commitBlockList answers (some refs) (afterStaging dir limit requests)).1
        = ⟨201, none⟩ ∧
      (commitBlockList answers (some refs)
          (afterStaging dir limit requests)).2.1
        = some (refs.flatMap fun ref => (latestStaged (stagedInRun dir limit requests)
            (trimSpace ref.id)).getD []) := by
  have hfiled := filed_run hlimit hlt requests honce
  set staged := stagedInRun dir limit requests with hstagedDef
  set st := afterStaging dir limit requests with hst
  obtain ⟨hblob, hparts, hcomplete⟩ := hstore
  have hfile : ∀ ref ∈ refs, st.session.blocks.get (trimSpace ref.id)
        = some ⟨blockPath dir (trimSpace ref.id),
          ((latestStaged staged (trimSpace ref.id)).getD []).length⟩ ∧
      st.spool.get (blockPath dir (trimSpace ref.id))
        = some ((latestStaged staged (trimSpace ref.id)).getD []) := by
    intro ref href
    obtain ⟨bytes, hbytes⟩ := ne_none_iff_exists'.mp (hstaged ref href)
    have hnamed : trimSpace ref.id ∈ refs.map fun ref => trimSpace ref.id :=
      mem_map.mpr ⟨ref, href, rfl⟩
    rw [hbytes]
    exact hfiled.filed _ hnamed bytes hbytes
  have hresolve := resolveBlocks_ok hkinds fun ref href => (hfile ref href).1
  have hupload := uploadBlocks_eq hparts fun ref href => readBlock_filed (hfile ref href).2
  have hlength : (refs.map fun ref => (⟨blockPath dir (trimSpace ref.id),
      ((latestStaged staged (trimSpace ref.id)).getD []).length⟩ : StagedBlock)).length ≠ 0 := by
    rw [length_map]
    exact fun hzero => hrefs (length_eq_zero_iff.mp hzero)
  unfold commitBlockList
  simp only [hresolve, if_neg hlength, hblob, hupload, hcomplete]
  exact ⟨rfl, rfl⟩

section Examples

/-- A store that takes every block. -/
def willingUpload : UploadAnswers := ⟨some [], fun _ => true, true⟩

def latestRef (id : String) : BlockRef := ⟨ascii "Latest", ascii id⟩

/-- The second block comes first; the first breaks off before it is staged. -/
def outOfOrder : List StageRequest :=
  [⟨ascii "b", 2, [3, 4], none⟩, ⟨ascii "a", 2, [9], some .writing⟩, ⟨ascii "a", 2, [1, 2], none⟩]

theorem block_list_stores_staged_out_of_order :
    (commitBlockList willingUpload (some [latestRef "a", latestRef "b"])
      (afterStaging [] 8 outOfOrder)).2.1 = some [1, 2, 3, 4] := by
  have hstored := (block_list_stores_staged [] 8 outOfOrder [latestRef "a", latestRef "b"]
    willingUpload [] (by decide) (by decide) (by decide) (by decide) (by decide) ⟨rfl, fun _ => rfl, rfl⟩
    (by decide)).2
  exact hstored.trans (by decide)

/-- **A block that is staged again is lost.**  Both requests succeed; the commit of the block then
fails, because staging it again removed the file of its new bytes. -/
theorem restaged_block_is_lost :
    stagedInRun [] 8 [⟨ascii "a", 1, [1], none⟩, ⟨ascii "a", 1, [2], none⟩]
        = [(ascii "a", [1]), (ascii "a", [2])] ∧
      (commitBlockList willingUpload (some [latestRef "a"]) (afterStaging [] 8
        [⟨ascii "a", 1, [1], none⟩, ⟨ascii "a", 1, [2], none⟩])).1 = blobWriteFailed ∧
      (commitBlockList willingUpload (some [latestRef "a"]) (afterStaging [] 8
        [⟨ascii "a", 1, [1], none⟩, ⟨ascii "a", 1, [2], none⟩])).2.1 = none := by
  decide

end Examples

end EraInfra.CacheServer
