import Mathlib.Data.UInt
import EraInfra.Core.Run
import EraInfra.Core.SparseFile
import EraInfra.Cache.Index

/-!
# v1 uploads

A v1 upload is a reservation between its POST and its commit (`spool.go`, `v1.go`).  Its chunks
arrive out of order, each with a Content-Range of its own, and are spooled to a file; the commit
sends the file to the store and publishes the entry.

A request here has passed the checks of its token and names this reservation.  What the network and
the store do is part of a request: how much of a body arrived and whether it then broke off, and
which calls of the store failed.  Requests are handled one after the other.
-/

namespace EraInfra.CacheServer

open DocStore Encoding SparseFile

/-! ## Requests and responses -/

/-- The status and, but for an empty response, the message of its JSON body. -/
structure Response where
  status : ℕ
  message : Option String
deriving DecidableEq, Repr

/-- A PATCH: its Content-Range (empty when absent), the bytes of its body that were read and written,
and whether reading or writing failed after them. -/
structure Patch where
  contentRange : String
  body : Bytes
  broken : Bool

/-! ## Content-Range -/

/-- `strings.Cut`: what stands before the first separator, and what stands after it if there is
one. -/
def cut (separator : Char) (s : List Char) : List Char × Option (List Char) :=
  (s.takeWhile (· ≠ separator),
    if s.contains separator then some (s.dropWhile (· ≠ separator)).tail else none)

def trimChars (s : List Char) : List Char := (trimSpaceText (String.ofList s)).toList

/-- The start and the end of a chunk; an absent header means all of it, from zero.  `quote` is the
verb `%q`. -/
def parseContentRange (quote : String → String) (value : String) : Except String (ℤ × ℤ) :=
  let value := trimSpaceText value
  if value = "" then pure (0, -1)
  else if !"bytes ".toList.isPrefixOf value.toList then
    throw ("Content-Range must be in bytes, got " ++ quote value)
  else
    let spec := value.toList.drop 6
    let (rangeSpec, _) := cut '/' spec
    match cut '-' rangeSpec with
    | (_, none) => throw ("Content-Range " ++ quote value ++ " has no range")
    | (rawStart, some rawEnd) =>
      match (parseInt (trimChars rawStart)).filter fun start => 0 ≤ start with
      | none => throw ("Content-Range " ++ quote value ++ " has no start offset")
      | some start =>
        match (parseInt (trimChars rawEnd)).filter fun stop => start ≤ stop with
        | none => throw ("Content-Range " ++ quote value ++ " has no end offset")
        | some stop => pure (start, stop)

/-! ## Reservations -/

/-- A v1 upload; the file is closed when the reservation is discarded. -/
structure Reservation where
  repository : Bytes
  repositoryId : ℤ
  ref : Bytes
  key : Bytes
  version : Bytes
  limit : ℤ
  file : Option Bytes
  written : ℤ

inductive WriteError
  | closed
  | tooLarge
  | broken

/-- What the limited reader lets through at an offset: one byte past the ceiling.  The sum wraps, and
a reader with a negative limit reads nothing. -/
def Reservation.room (r : Reservation) (offset : ℤ) : ℕ := (int64 (r.limit - offset + 1)).toNat

/-- One chunk: how many bytes landed, and what went wrong. -/
def Reservation.writeAt (r : Reservation) (patch : Patch) (offset : ℤ) :
    (ℤ × Option WriteError) × Reservation :=
  match r.file with
  | none => ((0, some .closed), r)
  | some file =>
    if offset < 0 ∨ offset > r.limit then ((0, some .tooLarge), r)
    else
      let landed := patch.body.take (r.room offset)
      let r := { r with file := some (write file ⟨offset.toNat, landed, false⟩) }
      let count : ℤ := landed.length
      if patch.broken ∧ patch.body.length < r.room offset then ((count, some .broken), r)
      else if int64 (offset + count) > r.limit then ((count, some .tooLarge), r)
      else
        let stop := int64 (offset + count)
        ((count, none), { r with written := if stop > r.written then stop else r.written })

/-- What the server holds of the reservation: nothing, once it is dropped. -/
abbrev Held := Option Reservation

def errEntryTooLarge : String := "cache entry exceeds ERAINFRA_CACHE_MAX_ENTRY_BYTES"

def noSuchReservation : Response := ⟨404, some "no such cache reservation"⟩

def storeUnavailable : Response := ⟨503, some "cache store unavailable"⟩

/-- The PATCH of a chunk.  A chunk past the ceiling, or one that is not what its header promised, ends
the reservation. -/
def v1Upload (quote : String → String) (patch : Patch) (held : Held) : Response × Held :=
  match held with
  | none => (noSuchReservation, none)
  | some r =>
    match parseContentRange quote patch.contentRange with
    | .error message => (⟨400, some message⟩, some r)
    | .ok (start, stop) =>
      match r.writeAt patch start with
      | ((_, some .tooLarge), _) => (⟨413, some errEntryTooLarge⟩, none)
      | ((_, some _), r) => (storeUnavailable, some r)
      | ((written, none), r) =>
        let promised := int64 (stop - start + 1)
        if stop ≥ 0 ∧ written ≠ promised then
          (⟨400, some s!"Content-Range promised {promised} bytes and {written} arrived"⟩, none)
        else (⟨204, none⟩, some r)

/-! ## Commits -/

/-- How `index.Commit` ends: it drops the save of a repository that gave its name up. -/
inductive PublishAnswer
  | published
  | dropped
  | failed

/-- How the store answers the calls of one commit. -/
structure StoreAnswers where
  /-- The object of the new blob, or a failure. -/
  newBlob : Option Bytes
  /-- Whether each part is taken. -/
  addPart : ℕ → Bool
  complete : Bool
  publish : PublishAnswer

/-- An entry and the bytes of its blob. -/
structure Published where
  entry : CacheIndex.Entry
  bytes : Bytes
deriving DecidableEq

/-- `Store.PartBytes`, or 32 MiB. -/
def partBytes (configured : ℤ) : ℕ :=
  if configured ≤ 0 then 32 * 2 ^ 20 else configured.toNat

/-- One part of the spool, appended to the upload. -/
def addPart (answers : StoreAnswers) (spool : Bytes) (size part : ℕ) (object : Bytes) (i : ℕ) :
    Option Bytes :=
  let offset := i * part
  let length := min part (size - offset)
  let piece := (spool.drop offset).take length
  if piece.length = length ∧ answers.addPart i then some (object ++ piece) else none

/-- The loop over the offsets `0, part, 2·part, …` below the size.  They fit in 64 bits as long as the
size and a part do together. -/
def addParts (answers : StoreAnswers) (spool : Bytes) (size part : ℕ) : Option Bytes :=
  (List.range ((size + part - 1) / part)).foldlM (addPart answers spool size part) []

/-- A commit with the size its client sent; `none` is a request that does not parse. -/
def v1Commit (configuredPart : ℤ) (answers : StoreAnswers) (request : Option ℤ) (held : Held) :
    Response × Option Published × Held :=
  match held with
  | none => (noSuchReservation, none, none)
  | some r =>
    match request with
    | none => (⟨400, some "malformed commit request"⟩, none, some r)
    | some claimed =>
      if claimed ≠ r.written then
        (⟨400, some s!"commit claims {claimed} bytes and {r.written} arrived"⟩, none, none)
      else
        match r.file, answers.newBlob with
        | none, _ => (storeUnavailable, none, none)
        | some _, none => (storeUnavailable, none, none)
        | some spool, some blob =>
          match addParts answers spool r.written.toNat (partBytes configuredPart) with
          | none => (storeUnavailable, none, none)
          | some bytes =>
            if !answers.complete then (storeUnavailable, none, none)
            else
              match answers.publish with
              | .failed => (storeUnavailable, none, none)
              | .dropped => (⟨204, none⟩, none, none)
              | .published =>
                let entry : CacheIndex.Entry :=
                  { key := r.key, version := r.version, repository := r.repository
                    repositoryId := r.repositoryId, ref := r.ref, blob
                    size := r.written, createdAt := 0, attributes := [], object := [] }
                (⟨204, none⟩, some ⟨entry, bytes⟩, none)

/-! ## Runs -/

/-- A new reservation, with nothing in its file. -/
def newReservation (repository : Bytes) (repositoryId : ℤ) (ref key version : Bytes) (limit : ℤ) :
    Reservation where
  repository := repository
  repositoryId := repositoryId
  ref := ref
  key := key
  version := version
  limit := limit
  file := some []
  written := 0

def stepUpload (quote : String → String) (held : Held) (patch : Patch) : Held :=
  (v1Upload quote patch held).2

/-- What a chunk wrote to the spool: kept if it was acknowledged, discarded if it broke off. -/
def landed (quote : String → String) (held : Held) (patch : Patch) : List (Write UInt8) :=
  match held, parseContentRange quote patch.contentRange with
  | some r, .ok (start, _) =>
    let bytes := patch.body.take (r.room start)
    match (v1Upload quote patch held).1.status with
    | 204 => [⟨start.toNat, bytes, true⟩]
    | 503 => [⟨start.toNat, bytes, false⟩]
    | _ => []
  | _, _ => []

end EraInfra.CacheServer
