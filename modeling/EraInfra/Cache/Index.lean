import EraInfra.Core.ObjectStore
import EraInfra.Core.Transaction
import EraInfra.Core.WhiteSpace

/-!
# The cache index

`cacheindex.go`, `ownership.go` and the claims of `token.go`: where an entry lives in the bucket,
which entries a token may see, and in what order a restore matches them.

Texts are Go strings, that is bytes.  The bucket lists exactly the names with a given prefix, in byte
order.  What Go's standard library does is a parameter (`Library`), with what is assumed of it.

**Left out** — the access log and the set of repositories to sweep, which a lookup writes and never
reads, and log lines.  A store that does not answer is an error of the whole lookup and is not
modelled; an object over the limit of a read is.
-/

namespace EraInfra

open DocStore Encoding ObjectStore

/-! ## Tokens -/

/-- `Claims`, without the fields that no lookup reads. -/
structure Claims where
  repository : Bytes
  repositoryId : ℤ
  ref : Bytes
  baseRef : Bytes
  defaultBranch : Bytes

/-- The refs a restore may match in, in order, without repetitions and blanks. -/
def Claims.readScopes (c : Claims) : List Bytes :=
  [c.ref, c.baseRef, c.defaultBranch].foldl (fun scopes ref =>
    if ref = [] then scopes else if scopes.contains ref then scopes else scopes ++ [ref]) []

/-- `[A-Za-z0-9]`. -/
def isAlphanumeric (c : UInt8) : Bool := (65 ≤ c && c ≤ 90) || (97 ≤ c && c ≤ 122) || (48 ≤ c && c ≤ 57)

/-- `[A-Za-z0-9._-]`. -/
def isNameByte (c : UInt8) : Bool := isAlphanumeric c || c = 46 || c = 95 || c = 45

/-- `^[A-Za-z0-9][A-Za-z0-9._-]*$`. -/
def matchesRepositorySegment (segment : Bytes) : Bool :=
  match segment with
  | [] => false
  | first :: rest => isAlphanumeric first && rest.all isNameByte

/-- The byte `/`. -/
def slash : UInt8 := 47

/-- The byte `.`. -/
def dot : UInt8 := 46

/-- Whether a repository is `owner/name`. -/
def isOwnerName (repository : Bytes) : Bool := repository.contains slash &&
    matchesRepositorySegment (repository.takeWhile (· ≠ slash)) &&
    matchesRepositorySegment (repository.dropWhile (· ≠ slash)).tail

/-- Refuses anything that is not `owner/name`; `quote` is the verb `%q`. -/
def validateRepository (quote : Bytes → String) (repository : Bytes) : Except String Unit :=
  if repository = [] then throw "cache token carries no repository claim"
  else if !isOwnerName repository then
    throw ("cache token carries no repository claim: " ++ quote repository ++ " is not owner/name")
  else pure ()

namespace CacheIndex

/-! ## Entries and names -/

/-- A cached archive: its key and version, the scope it was saved in, and its blob. -/
structure Entry where
  key : Bytes
  version : Bytes
  repository : Bytes
  repositoryId : ℤ
  ref : Bytes
  blob : Bytes
  size : ℤ
  createdAt : ℤ
  attributes : List (Bytes × Bytes)
  /-- Where the entry was found; not stored. -/
  object : Bytes
deriving DecidableEq

/-- Which repository ID holds a name, and since when. -/
structure NameRecord where
  repository : Bytes
  repositoryId : ℤ
  since : ℤ

/-- The zero value. -/
def NameRecord.zero : NameRecord := ⟨[], 0, 0⟩

/-- `A`–`Z` to `a`–`z`. -/
def lowerByte (c : UInt8) : UInt8 := if 65 ≤ c && c ≤ 90 then c + 32 else c

def IsAsciiBytes (s : Bytes) : Prop := ∀ c ∈ s, c < 128

instance (s : Bytes) : Decidable (IsAsciiBytes s) := List.decidableBAll _ _

/-- What the index uses of Go's library. -/
structure Library where
  /-- The verb `%q`. -/
  quote : Bytes → String
  /-- `strings.ToLower`. -/
  toLower : Bytes → Bytes
  /-- `strings.EqualFold`. -/
  equalFold : Bytes → Bytes → Bool
  /-- `sha256.Sum256`. -/
  sha256 : Bytes → Bytes
  /-- `json.Marshal` and `json.Unmarshal` of an entry. -/
  marshalEntry : Entry → Bytes
  unmarshalEntry : Bytes → Option Entry
  /-- `json.Unmarshal` of a name record. -/
  unmarshalName : Bytes → Option NameRecord
  /-- `sort.Slice` by the order of a text of each element; it need not be stable. -/
  sortSlice : (Bytes → Bytes) → List Bytes → List Bytes
  toLower_ascii : ∀ s, IsAsciiBytes s → toLower s = s.map lowerByte
  equalFold_ascii : ∀ s t, IsAsciiBytes s → IsAsciiBytes t →
    (equalFold s t = true ↔ s.map lowerByte = t.map lowerByte)
  perm_sortSlice : ∀ key l, (sortSlice key l).Perm l
  sorted_sortSlice : ∀ key l, (sortSlice key l).Pairwise fun a b => key a ≤ key b

variable (go : Library)

/-! ## Names of objects -/

/-- A repository in an object's name. -/
def repositorySegment (repository : Bytes) : Bytes := go.toLower repository

/-- The bytes `refSegment` writes as they are. -/
def isUnreserved (c : UInt8) : Bool := isNameByte c

/-- `strings.ToUpper` of a hexadecimal digit. -/
def upperByte (c : UInt8) : UInt8 := if 97 ≤ c && c ≤ 122 then c - 32 else c

/-- One byte of a ref: itself, or `~XX`. -/
def refByte (c : UInt8) : Bytes :=
  if isUnreserved c then [c] else 126 :: (hexByte c).map upperByte

/-- A ref in an object's name. -/
def refSegment (ref : Bytes) : Bytes := ref.flatMap refByte

def versionSegment (version : Bytes) : Bytes := hex (go.sha256 version)

/-- What the names of a scope's entries begin with. -/
def scopePrefix (repository ref versionSegment : Bytes) : Bytes :=
  ascii "entries/" ++ repositorySegment go repository ++ slash :: refSegment ref ++
    slash :: versionSegment ++ [slash]

/-- `fmt.Sprintf("%016x", uint64(math.MaxInt64-createdAtMillis))`. -/
def recencySuffix (createdAtMillis : ℤ) : Bytes :=
  let value := ((2 ^ 63 - 1 - createdAtMillis) % 2 ^ 64).toNat
  (List.range 16).reverse.map fun place => hexDigit (value / 16 ^ place % 16)

/-- What follows the last dot, or nothing. -/
def recencyStamp (object : Bytes) : Bytes :=
  if object.contains dot then (object.reverse.takeWhile (· ≠ dot)).reverse else []

def nameRecordObject (repository : Bytes) : Bytes := ascii "names/" ++ repositorySegment go repository

/-- The object `Commit` puts an entry at. -/
def entryObject (entry : Entry) : Bytes :=
  scopePrefix go entry.repository entry.ref (versionSegment go entry.version) ++ hex entry.key ++
    dot :: recencySuffix entry.createdAt

/-- The object `NewBlob` takes for a repository's bytes. -/
def blobObject (repository name : Bytes) : Bytes :=
  ascii "blobs/" ++ repositorySegment go repository ++ slash :: hex name

/-! ## The store -/

abbrev Store := Bucket Bytes Bytes

inductive StoreError
  | notFound
  | tooLarge (key : Bytes) (limit : ℕ)

/-- An object's contents, up to a limit. -/
def getBytes (b : Store) (key : Bytes) (limit : ℕ) : Except StoreError Bytes :=
  match b.get key with
  | none => throw .notFound
  | some body => if body.length > limit then throw (.tooLarge key limit) else pure body

/-- Up to `max` names with a prefix, and whether there are more. -/
def listPrefix (b : Store) (start : Bytes) (max : ℕ) : List Bytes × Bool :=
  let names := (b.list fun key => start.isPrefixOf key).map Prod.fst
  (names.take max, names.length > max)

/-! ## Who holds a name -/

def maxEntryMetadataBytes : ℕ := 64 * 1024
def maxNameRecordBytes : ℕ := 4 * 1024
def maxPassedCandidates : ℕ := 8
def defaultMaxCandidates : ℕ := 256

/-- A minute, in nanoseconds. -/
def nameMemoTTL : ℤ := 60 * 10 ^ 9

structure NameMemoEntry where
  holder : NameRecord
  read : ℤ

/-- What a process keeps between lookups, and the readings of its clock to come. -/
structure Process where
  names : Bytes → Option NameMemoEntry
  clock : ℕ → ℤ

def Process.now (p : Process) : ℤ × Process := (p.clock 0, { p with clock := fun n => p.clock (n + 1) })

/-- A remembered name record, while it is fresh. -/
def Process.getName (p : Process) (segment : Bytes) (now : ℤ) : Option NameRecord :=
  match p.names segment with
  | none => none
  | some entry =>
    if now - entry.read ≥ nameMemoTTL ∨ now < entry.read then none else some entry.holder

def Process.putName (p : Process) (segment : Bytes) (holder : NameRecord) (now : ℤ) : Process :=
  { p with names := fun s => if s = segment then some ⟨holder, now⟩ else p.names s }

/-- The record of the repository ID that holds a name; one that is not there or cannot be read is
the zero record. -/
def nameHolder (b : Store) (repository : Bytes) (p : Process) :
    Except StoreError (NameRecord × Process) :=
  let segment := repositorySegment go repository
  let (asked, p) := p.now
  match p.getName segment asked with
  | some holder => pure (holder, p)
  | none =>
    match getBytes b (nameRecordObject go repository) maxNameRecordBytes with
    | .error .notFound =>
      let (read, p) := p.now
      pure (.zero, p.putName segment .zero read)
    | .error err => throw err
    | .ok body =>
      let (read, p) := p.now
      match go.unmarshalName body with
      | some record =>
        if record.repositoryId < 0 then pure (.zero, p.putName segment .zero read)
        else pure (record, p.putName segment record read)
      | none => pure (.zero, p.putName segment .zero read)

/-- Whether an entry was saved by the repository a token is for. -/
def ownedBy (b : Store) (claims : Claims) (entry : Entry) (p : Process) :
    Except StoreError (Bool × Process) :=
  if claims.repositoryId = 0 then pure (true, p)
  else if entry.repositoryId = 0 then do
    let (holder, p) ← nameHolder go b claims.repository p
    pure (holder.repositoryId = 0 ∨ holder.repositoryId = claims.repositoryId, p)
  else pure (entry.repositoryId = claims.repositoryId, p)

/-! ## Restores -/

/-- One listed entry document; one that has gone or cannot be trusted is `none`. -/
def candidate (b : Store) (object repository ref version : Bytes) : Except StoreError (Option Entry) :=
  match getBytes b object maxEntryMetadataBytes with
  | .error .notFound => pure none
  | .error err => throw err
  | .ok body =>
    match go.unmarshalEntry body with
    | none => pure none
    | some entry =>
      if !go.equalFold entry.repository repository || entry.ref ≠ ref ||
          entry.version ≠ version then pure none
      else pure (some { entry with object })

/-- An entry is a hit only if its bytes are there. -/
def servable (b : Store) (entry : Entry) : Option Entry :=
  match b.get entry.blob with
  | none => none
  | some _ => some entry

/-- The loop of `newest` over the candidates. -/
def readCandidates (b : Store) (claims : Claims) (ref version : Bytes) :
    ℕ → List Bytes → Process → Except StoreError (Option Entry × Process)
  | _, [], p => pure (none, p)
  | passed, object :: rest, p => do
      match ← candidate go b object claims.repository ref version with
      | some entry =>
        let (owned, p) ← ownedBy go b claims entry p
        if owned then pure (servable b entry, p)
        else if passed + 1 ≥ maxPassedCandidates then pure (none, p)
        else readCandidates b claims ref version (passed + 1) rest p
      | none =>
        if passed + 1 ≥ maxPassedCandidates then pure (none, p)
        else readCandidates b claims ref version (passed + 1) rest p

/-- `maxCandidates` of an index configured with this bound. -/
def candidateLimit (maxCandidates : ℤ) : ℕ :=
  if maxCandidates > 0 then maxCandidates.toNat else defaultMaxCandidates

variable (maxCandidates : ℤ)

/-- The most recently created match in one scope that the token's repository saved. -/
def newest (b : Store) (claims : Claims) (ref versionSegment encodedKey version : Bytes)
    (p : Process) : Except StoreError (Option Entry × Process) :=
  let start := scopePrefix go claims.repository ref versionSegment ++ encodedKey
  let (objects, _) := listPrefix b start (candidateLimit maxCandidates)
  let candidates := objects.filter fun object => recencyStamp object ≠ []
  readCandidates go b claims ref version 0 (go.sortSlice recencyStamp candidates) p

/-- A loop over the scopes that ends at the first hit. -/
def firstHit (search : Bytes → Process → Except StoreError (Option Entry × Process)) :
    List Bytes → Process → Except StoreError (Option Entry × Process)
  | [], p => pure (none, p)
  | ref :: scopes, p => do
      match ← search ref p with
      | (some entry, p) => pure (some entry, p)
      | (none, p) => firstHit search scopes p

/-- The loop of `Lookup` over the keys: exact before prefix, within a key. -/
def lookupKeys (b : Store) (claims : Claims) (scopes : List Bytes) (version : Bytes) :
    List Bytes → Process → Except StoreError (Option Entry × Process)
  | [], p => pure (none, p)
  | key :: keys, p => do
      let key := trimSpace key
      if key = [] then lookupKeys b claims scopes version keys p
      else
        let encoded := hex key
        match ← firstHit (fun ref => newest go maxCandidates b claims ref
            (versionSegment go version) (encoded ++ [dot]) version) scopes p with
        | (some entry, p) => pure (some entry, p)
        | (none, p) =>
          match ← firstHit (fun ref => newest go maxCandidates b claims ref
              (versionSegment go version) encoded version) scopes p with
          | (some entry, p) => pure (some entry, p)
          | (none, p) => lookupKeys b claims scopes version keys p

/-- The entry for the first key that has one: under that key, or else under one it begins. -/
def lookup (b : Store) (claims : Claims) (keys : List Bytes) (version : Bytes) (p : Process) :
    Except StoreError (Option Entry × Process) :=
  let scopes := claims.readScopes
  if scopes.length = 0 then pure (none, p)
  else lookupKeys go maxCandidates b claims scopes version keys p

/-- The newest entry with exactly that key, in the first scope that has one. -/
def lookupExact (b : Store) (claims : Claims) (key version : Bytes) (p : Process) :
    Except StoreError (Option Entry × Process) :=
  let key := trimSpace key
  if key = [] then pure (none, p)
  else firstHit (fun ref => newest go maxCandidates b claims ref (versionSegment go version)
    (hex key ++ [dot]) version) claims.readScopes p

/-! ## Saves -/

/-- The write of `Commit`, after the name has been claimed: the object and its contents. -/
def commitObject (now : ℤ) (entry : Entry) : Except String (Bytes × Bytes) := do
  validateRepository go.quote entry.repository
  refuseIf (entry.ref = []) "a cache entry needs a ref to be scoped by"
  refuseIf (entry.repositoryId < 0) "a repository ID is positive, or zero when unknown"
  let entry := { entry with createdAt := now / 10 ^ 6 }
  pure (entryObject go entry, go.marshalEntry entry)

end CacheIndex

end EraInfra
