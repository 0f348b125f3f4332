import EraInfra.Core.Run
import EraInfra.Cache.Index

/-!
# v2 block uploads

A v2 upload is a session (`spool.go`, `blob.go`): blocks are staged in any order, each in a file of
its own that is named by its block id, and a block list then names the order in which they make up
the object.

The spool directory is a map from paths to contents.  A request here has passed the check of its
upload URL.  What the disk, the network and the store do is part of a request: how much of a body
arrived, whether opening, writing or syncing the file failed, and which calls of the store failed.
-/

namespace EraInfra.CacheServer

open DocStore Encoding ObjectStore

/-! ## Sessions -/

structure StagedBlock where
  path : Bytes
  size : ℤ

/-- A v2 upload, without the fields that only its finalization reads. -/
structure Session where
  dir : Bytes
  limit : ℤ
  blocks : Bucket Bytes StagedBlock
  staged : ℤ
  /-- The blob and the size of a commit. -/
  committed : Option (Bytes × ℤ)

/-- The session and the files of its spool. -/
structure Spooling where
  session : Session
  spool : Bucket Bytes Bytes

/-! The counter stays between zero and the limit as long as no commit clears the blocks under a claim
(`Balanced`), so that no sum below wraps. -/

/-- Budget for a block, before its bytes land; a length of zero or less was not declared. -/
def Session.reserveBlock (s : Session) (want : ℤ) : Option (ℤ × Session) :=
  let remaining := s.limit - s.staged
  if remaining ≤ 0 then none
  else
    let want := if want ≤ 0 ∨ want > remaining then remaining else want
    some (want, { s with staged := s.staged + want })

/-- Give a claim back. -/
def Session.releaseBlock (s : Session) (claimed : ℤ) : Session :=
  { s with staged := s.staged - claimed }

/-- A block that has landed: the unused part of its claim is given back, and the file of an earlier
block of this id is removed. -/
def Spooling.stage (st : Spooling) (id path : Bytes) (claimed actual : ℤ) : Spooling :=
  let s := st.session
  let staged := s.staged - (claimed - actual)
  let blocks := s.blocks.put id ⟨path, actual⟩
  match s.blocks.get id with
  | some previous =>
    { session := { s with staged := staged - previous.size, blocks }
      spool := st.spool.delete previous.path }
  | none => { st with session := { s with staged, blocks } }

/-- The staged files are dropped once their bytes are in the store. -/
def Spooling.clearBlocks (st : Spooling) : Spooling where
  session := { st.session with blocks := Bucket.empty, staged := 0 }
  spool := st.session.blocks.objects.foldl (fun spool block => spool.delete block.2.path) st.spool

/-! ## Staging -/

inductive SpoolFault
  | opening
  | writing
  | syncing
deriving DecidableEq, Repr

/-- A PUT of a block: its id, its declared length (−1 when it has none), the bytes of its body that
were read and written, and what failed after them. -/
structure StageRequest where
  blockId : Bytes
  contentLength : ℤ
  body : Bytes
  fault : Option SpoolFault

/-- The status and, on an error, the code and message of the XML body. -/
structure BlobResponse where
  status : ℕ
  error : Option (String × String)
deriving DecidableEq, Repr

def blobWriteFailed : BlobResponse := ⟨503, some ("ServerBusy", "cache store unavailable")⟩

def blobTooLarge : BlobResponse :=
  ⟨413, some ("RequestBodyTooLarge", "cache entry exceeds ERAINFRA_CACHE_MAX_ENTRY_BYTES")⟩

/-- The file is emptied and written; how many bytes it has, unless something went wrong. -/
def writeSpoolFile (path : Bytes) (request : StageRequest) (limit : ℤ) (spool : Bucket Bytes Bytes) :
    Option ℤ × Bucket Bytes Bytes :=
  if request.fault = some .opening then (none, spool)
  else
    -- the limited reader: one byte past the limit, or nothing where the sum wraps
    let room := (int64 (limit + 1)).toNat
    let bytes := request.body.take room
    let spool := spool.put path bytes
    if request.fault = some .writing ∧ request.body.length < room then (none, spool)
    else if (bytes.length : ℤ) > limit then (none, spool)
    else if request.fault = some .syncing then (none, spool)
    else (some bytes.length, spool)

/-- `filepath.Join(dir, "blk-"+hex)`. -/
def blockPath (dir blockId : Bytes) : Bytes := dir ++ slash :: ascii "blk-" ++ hex blockId

/-- The PUT of a block: budget, file, record. -/
def stageBlock (request : StageRequest) (st : Spooling) : BlobResponse × Spooling :=
  if trimSpace request.blockId = [] then
    (⟨400, some ("InvalidQueryParameterValue", "comp=block needs a blockid")⟩, st)
  else
    let path := blockPath st.session.dir request.blockId
    match st.session.reserveBlock request.contentLength with
    | none => (blobTooLarge, st)
    | some (claimed, session) =>
      match writeSpoolFile path request claimed st.spool with
      | (none, spool) => (blobWriteFailed, ⟨session.releaseBlock claimed, spool⟩)
      | (some size, spool) =>
        (⟨201, none⟩, Spooling.stage ⟨session, spool⟩ request.blockId path claimed size)

/-! ## Block lists -/

/-- One element of a block list: its name and its text. -/
structure BlockRef where
  name : Bytes
  id : Bytes

def blockKinds : List Bytes := [ascii "Latest", ascii "Uncommitted", ascii "Committed"]

/-- How the store answers the calls of one commit. -/
structure UploadAnswers where
  /-- The object of the new blob, or a failure. -/
  newBlob : Option Bytes
  /-- Whether the part of each block is taken. -/
  addPart : ℕ → Bool
  complete : Bool

/-- The blocks a list names, in its order. -/
def resolveBlocks (session : Session) (refs : List BlockRef) : Except BlobResponse (List StagedBlock) :=
  refs.mapM fun ref =>
    if ref.name ∉ blockKinds then
      throw ⟨400, some ("InvalidXmlDocument",
        "unexpected element " ++ text ref.name ++ " in the block list")⟩
    else
      match session.blocks.get (trimSpace ref.id) with
      | none => throw ⟨400, some ("InvalidBlockList",
          "the block list names a block that was never staged")⟩
      | some block => pure block

/-- What a block reader yields: exactly the block's size, or an error.  The file of an empty block is
not opened. -/
def readBlock (spool : Bucket Bytes Bytes) (block : StagedBlock) : Option Bytes :=
  if block.size ≤ 0 then some []
  else
    match spool.get block.path with
    | none => none
    | some contents =>
      if (contents.length : ℤ) < block.size then none
      else some (contents.take block.size.toNat)

/-- The parts of the upload, one block each. -/
def uploadBlocks (answers : UploadAnswers) (spool : Bucket Bytes Bytes) (blocks : List StagedBlock) :
    Option Bytes :=
  (blocks.zipIdx.foldlM fun object (block, i) =>
    if answers.addPart i then (readBlock spool block).map fun bytes => object ++ bytes else none) []

/-- A commit of a block list, and the object it stored; `none` is a list that does not parse. -/
def commitBlockList (answers : UploadAnswers)
    (list : Option (List BlockRef)) (st : Spooling) : BlobResponse × Option Bytes × Spooling :=
  match list with
  | none => (⟨400, some ("InvalidXmlDocument", "malformed block list")⟩, none, st)
  | some refs =>
    match resolveBlocks st.session refs with
    | .error response => (response, none, st)
    | .ok blocks =>
      if blocks.length = 0 then
        (⟨400, some ("InvalidBlockList", "the block list is empty")⟩, none, st)
      else
        match answers.newBlob with
        | none => (blobWriteFailed, none, st)
        | some blob =>
          match uploadBlocks answers st.spool blocks with
          | none => (blobWriteFailed, none, st)
          | some object =>
            if !answers.complete then (blobWriteFailed, none, st)
            else
              let total := int64 (blocks.map StagedBlock.size).sum
              let session := { st.session with committed := some (blob, total) }
              (⟨201, none⟩, some object, Spooling.clearBlocks { st with session })

/-! ## Runs -/

/-- A new session, with an empty directory. -/
def newSession (dir : Bytes) (limit : ℤ) : Spooling :=
  ⟨⟨dir, limit, Bucket.empty, 0, none⟩, Bucket.empty⟩

def stepStage (st : Spooling) (request : StageRequest) : Spooling := (stageBlock request st).2

/-- The block a request staged successfully, and its bytes. -/
def stagedBy (st : Spooling) (request : StageRequest) : List (Bytes × Bytes) :=
  if (stageBlock request st).1.status = 201 then [(request.blockId, request.body)] else []

/-- The bytes most recently staged under an id. -/
def latestStaged (staged : List (Bytes × Bytes)) (id : Bytes) : Option Bytes :=
  (staged.reverse.find? fun block => block.1 = id).map Prod.snd

end EraInfra.CacheServer
