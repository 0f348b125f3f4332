import EraInfra.Core.Encoding
import EraInfra.Core.Transaction
import EraInfra.Backend.Policy

/-!
# Dashboard accounts

Who may do what (`infra/policy.ts`), and the writers of the users table: sign-up behind a grant
(`bootstrap.ts`, `auth.ts`), the dashboard's account functions (`infra/access.ts`) and the Hub
importer's users batch (`infra/hubImport.ts`).

Two helpers read the caller's identity and do not agree on what an identity without a users row
means.  `requirePermission` refuses it; `requireDashboardAuth` lets it through, and a missing
role is read as `owner`.

The accounts have a database of their own here: none of these functions reads a table of the job
or the Attempt protocol, and none of those reads a table of this one.
-/

namespace EraInfra

open DocStore

/-! ## Roles -/

inductive PermissionRole
  | owner
  | admin
  | operator
  | viewer
deriving DecidableEq, Repr

inductive Permission
  | appRead
  | appDeploy
  | nodeRun
  | nodeAdmin
  | auditRead
  | accountAdmin
  | chatRead
  | chatWrite
deriving DecidableEq, Repr

def PermissionRole.text : PermissionRole → String
  | .owner => "owner"
  | .admin => "admin"
  | .operator => "operator"
  | .viewer => "viewer"

def Permission.text : Permission → String
  | .appRead => "app.read"
  | .appDeploy => "app.deploy"
  | .nodeRun => "node.run"
  | .nodeAdmin => "node.admin"
  | .auditRead => "audit.read"
  | .accountAdmin => "account.admin"
  | .chatRead => "chat.read"
  | .chatWrite => "chat.write"

/-- The members of `PERMISSION_ROLES`, by name. -/
def permissionRoles : List PermissionRole := [.owner, .admin, .operator, .viewer]

def readOnly : List Permission := [.appRead, .auditRead]

/-- What each role may do. -/
def rolePermissions : PermissionRole → List Permission
  | .owner =>
    [.appRead, .appDeploy, .nodeRun, .nodeAdmin, .auditRead, .accountAdmin, .chatRead, .chatWrite]
  | .admin =>
    readOnly ++ [.appDeploy, .nodeRun, .nodeAdmin, .accountAdmin, .chatRead, .chatWrite]
  | .operator => readOnly ++ [.appDeploy]
  | .viewer => readOnly

/-- `can` of a signed-in user.  The other principals, tokens and Nodes, call none of the functions
here. -/
def can (role : PermissionRole) (permission : Permission) : Bool :=
  (rolePermissions role).contains permission

/-- A row without a role is from before roles existed, and reads as an owner. -/
def effectiveRole (role : Option PermissionRole) : PermissionRole := role.getD .owner

def PermissionRole.rank : PermissionRole → ℕ
  | .viewer => 0
  | .operator => 1
  | .admin => 2
  | .owner => 3

/-- Nobody grants or takes away a role above their own. -/
def mayAssignRole (actor source target : PermissionRole) : Bool :=
  source.rank ≤ actor.rank && target.rank ≤ actor.rank

/-- The highest role of a Hub user's list; texts that name no role are passed over. -/
def roleFromHubRoles (roles : List String) : PermissionRole := roles.foldl (fun best text =>
    match permissionRoles.find? fun role => role.text = text with
    | some candidate => if best.rank < candidate.rank then candidate else best
    | none => best) .viewer

/-- Whether a role may administer accounts on the dashboard. -/
def isDashboardAdmin (role : PermissionRole) : Bool := PermissionRole.admin.rank ≤ role.rank

/-! ## Tables -/

structure User where
  name : Option String
  email : Option String
  role : Option PermissionRole
  createdAt : Option ℤ
  legacyHubId : Option String
deriving DecidableEq, Repr

inductive GrantKind
  | bootstrap
  | invite
deriving DecidableEq, Repr

/-- Permission to create one account.  Only the token's hash is stored. -/
structure SignupGrant where
  kind : GrantKind
  tokenHash : String
  createdAt : ℤ
  expiresAt : ℤ
  usedAt : Option ℤ
  invitedBy : Option (DocId User)
  role : Option PermissionRole

structure BootstrapThrottle where
  failures : ℕ
  lockedUntil : ℤ
  updatedAt : ℤ

inductive TombstoneKind
  | app
  | link
  | secret
  | gitBinding
  | user
deriving DecidableEq, Repr

/-- A Hub row that was deleted here and must not be imported again. -/
structure HubImportTombstone where
  kind : TombstoneKind
  key : String
  deletedAt : ℤ

structure AuthAccount where
  userId : DocId User
  provider : String
  providerAccountId : String
  secret : String

structure AuthSession where
  userId : DocId User

structure AuthRefreshToken where
  sessionId : DocId AuthSession

structure InfraCounter where
  name : String
  value : ℤ

inductive AuditOutcome
  | allow
  | deny
  | success
  | failure
  | attempt

structure AuditEvent where
  seq : ℤ
  recordedAt : ℤ
  actor : String
  action : String
  outcome : AuditOutcome
  target : Option String
  metaJson : Option String

structure AccountDb where
  users : Table User
  signupGrants : Table SignupGrant
  bootstrapThrottle : Table BootstrapThrottle
  hubImportTombstones : Table HubImportTombstone
  authAccounts : Table AuthAccount
  authSessions : Table AuthSession
  authRefreshTokens : Table AuthRefreshToken
  infraCounters : Table InfraCounter
  auditEvents : Table AuditEvent

def AccountDb.empty : AccountDb where
  users := .empty
  signupGrants := .empty
  bootstrapThrottle := .empty
  hubImportTombstones := .empty
  authAccounts := .empty
  authSessions := .empty
  authRefreshTokens := .empty
  infraCounters := .empty
  auditEvents := .empty

/-- What the account functions use of the platform. -/
structure AccountEnv extends Engine where
  /-- SHA-256 of a text's UTF-8. -/
  sha256Bytes : String → List UInt8
  /-- A users id as text. -/
  idText : DocId User → String

variable (env : AccountEnv) (now : ℤ)

def sha256Hex (input : String) : String := Encoding.text (Encoding.hex (env.sha256Bytes input))

/-! ## Callers -/

/-- What a call's identity token says: nothing, or a subject, read as a users id where it is one.
An id that was handed out stays a users id after its row is gone. -/
inductive Caller
  | anonymous
  | identity (subject : Option (DocId User))
deriving DecidableEq, Repr

variable (caller : Caller) (userId : DocId User)

/-- The row of the signed-in user. -/
def currentUser (db : AccountDb) : Option (DocId User × User) :=
  match caller with
  | .anonymous => none
  | .identity none => none
  | .identity (some userId) => (db.users.get userId).map fun user => (userId, user)

/-- The check of the dashboard's older functions: an identity without a row passes. -/
def requireDashboardAuth (db : AccountDb) : Result Unit := do
  match caller with
  | .anonymous => throw (.convex "Authentication required")
  | .identity _ =>
    match currentUser caller db with
    | some (_, user) =>
      if !isDashboardAdmin (effectiveRole user.role) then
        throw (.convex s!"The {(effectiveRole user.role).text} role cannot use this")
      pure ()
    | none => pure ()

structure SignedIn where
  userId : DocId User
  user : User
  role : PermissionRole
  actor : String

/-- The check of the infrastructure functions: the caller must have a row that grants the
permission. -/
def requirePermission (permission : Permission) (db : AccountDb) : Result SignedIn := do
  match currentUser caller db with
  | none => throw (.convex "Authentication required")
  | some (userId, user) =>
    let role := effectiveRole user.role
    if !can role permission then
      throw (.convex s!"The {role.text} role does not allow {permission.text}")
    pure ⟨userId, user, role, env.idText userId⟩

/-! ## The audit log -/

def maxActionLength : ℕ := 128
def maxTargetLength : ℕ := 1024

/-- Why an audit row is refused. -/
def auditRefusal (action actor : String) : Option String :=
  let action := trim action
  if jsLength action = 0 ∨ jsLength action > maxActionLength then
    some s!"An audit action must be 1 to {maxActionLength} characters"
  else if jsLength actor = 0 then some "An audit row needs an actor"
  else none

/-- A counter that was never written reads zero. -/
def readCounter (db : AccountDb) (name : String) : Result ℤ := do
  let row ← db.infraCounters.unique (.notUnique "infraCounters") fun row => row.name = name
  pure ((row.map fun r => r.2.value).getD 0)

def writeCounter (name : String) (value : ℤ) (db : AccountDb) : Result AccountDb := do
  match ← db.infraCounters.unique (.notUnique "infraCounters") fun row => row.name = name with
  | none => pure { db with infraCounters := db.infraCounters.insert ⟨name, value⟩ }
  | some (counterId, row) =>
    if row.value ≠ value then
      return { db with
        infraCounters := db.infraCounters.patch counterId fun row => { row with value } }
    pure db

/-- Add to a counter; the answer is its new value. -/
def bumpCounter (name : String) (delta : ℤ) (db : AccountDb) : Result (ℤ × AccountDb) := do
  let next := (← readCounter db name) + delta
  let db ← writeCounter name next db
  pure (next, db)

/-- Append one audit row; it commits or rolls back with the change it describes. -/
def appendAudit (actor action : String) (target : Option String)
    (outcome : AuditOutcome) (metaJson : Option String) (db : AccountDb) : Result AccountDb := do
  match auditRefusal action actor with
  | some refusal => throw (.convex refusal)
  | none =>
    let (seq, db) ← bumpCounter "auditSeq" 1 db
    pure { db with
      auditEvents := db.auditEvents.insert {
        seq, recordedAt := now, actor, action := trim action, outcome
        target := target.map fun target => sliceTo target maxTargetLength
        metaJson } }

/-! ## Tombstones -/

/-- Whether something of that kind was deleted under the key. -/
def hasTombstone (kind : TombstoneKind) (key : String) (db : AccountDb) : Bool :=
  !(db.hubImportTombstones.collect fun row => row.kind = kind ∧ row.key = key).isEmpty

/-- Record that the row the importer knows by this key was deleted here. -/
def recordTombstone (kind : TombstoneKind) (key : String) (db : AccountDb) : AccountDb :=
  match (db.hubImportTombstones.collect fun row => row.kind = kind ∧ row.key = key).head? with
  | none => { db with hubImportTombstones := db.hubImportTombstones.insert ⟨kind, key, now⟩ }
  | some (rowId, _) =>
    { db with
      hubImportTombstones := db.hubImportTombstones.patch rowId fun row =>
        { row with deletedAt := now } }

/-! ## Creating an account -/

/-- The form in which addresses are stored and compared. -/
def normalizeEmail (email : String) : String := env.toLowerCase (trim email)

/-- `[^\s@]+`. -/
def isEmailPart (part : List Char) : Bool := !part.isEmpty && part.all fun c => !isJsSpace c && c ≠ '@'

/-- Why `insertUser` would refuse a normalized email: it is not a text, an `@`, and a text with a
dot that is neither its first nor its last character. -/
def emailRefusal (email : String) : Option String :=
  match email.toList.splitOn '@' with
  | [name, host] =>
    if isEmailPart name && isEmailPart host && (host.drop 1).dropLast.contains '.' then none
    else some "Not a valid email address"
  | _ => some "Not a valid email address"

structure NewUser where
  email : String
  role : PermissionRole
  name : Option String
  createdAt : Option ℤ
  legacyHubId : Option String

/-- The only way a users row is created: one account an email, and the first one is the owner. -/
def insertUser (input : NewUser) (db : AccountDb) : Result (DocId User × AccountDb) := do
  let email := normalizeEmail env input.email
  match emailRefusal email with
  | some refusal => throw (.convex refusal)
  | none =>
    if !(db.users.collect fun user => user.email = some email).isEmpty then
      throw (.convex "An account with this email already exists")
    let first := db.users.rows.isEmpty
    pure (db.users.next, { db with
      users := db.users.insert {
        name := input.name
        email := some email
        role := some (if first then .owner else input.role)
        createdAt := input.createdAt
        legacyHubId := input.legacyHubId } })

/-! ## Grants -/

def minBootstrapSecretLength : ℕ := 32
def grantTtlMs : ℤ := 10 * 60 * 1000
def failureAllowance : ℕ := 5
def baseLockoutMs : ℤ := 30 * 1000
def maxLockoutMs : ℤ := 15 * 60 * 1000

/-- The deployment's bootstrap secret, or why there is none. -/
def readBootstrapSecret (raw : Option String) : Except String String :=
  match raw with
  | none =>
    .error "BOOTSTRAP_SECRET is not set on this deployment, so no account can be created."
  | some raw =>
    if jsLength (trim raw) = 0 then
      .error "BOOTSTRAP_SECRET is not set on this deployment, so no account can be created."
    else if jsLength (trim raw) < minBootstrapSecretLength then
      .error s!"BOOTSTRAP_SECRET must be at least {minBootstrapSecretLength} characters."
    else .ok (trim raw)

/-- How long the bootstrap is locked for, if it is. -/
def throttleState (row : Option BootstrapThrottle) (now : ℤ) : Option ℤ :=
  match row with
  | none => none
  | some row => if row.lockedUntil ≤ now then none else some (row.lockedUntil - now)

/-- A lockout that doubles once the allowance is spent, up to a limit. -/
def nextThrottleAfterFailure (row : Option BootstrapThrottle) (now : ℤ) : BootstrapThrottle :=
  let failures := ((row.map BootstrapThrottle.failures).getD 0) + 1
  if failures ≤ failureAllowance then ⟨failures, 0, now⟩
  else
    let lockout := min (baseLockoutMs * 2 ^ (failures - failureAllowance - 1)) maxLockoutMs
    ⟨failures, now + lockout, now⟩

/-- Equality whose running time does not depend on where the first difference is. -/
def constantTimeEqual (a b : List UInt8) : Bool :=
  if a.length ≠ b.length then false
  else ((a.zip b).foldl (fun difference pair => difference ||| (pair.1 ^^^ pair.2)) 0) = 0

inductive GrantValidity
  | valid
  | expired
  | used
deriving DecidableEq, Repr

/-- A grant is good once, until it expires. -/
def grantValidity (grant : SignupGrant) (now : ℤ) : GrantValidity :=
  if grant.usedAt ≠ none then .used
  else if grant.expiresAt ≤ now then .expired
  else .valid

structure IssuedGrant where
  grantToken : String
  expiresAt : ℤ

/-- Store a grant for a fresh random token, which is returned once. -/
def issueGrant (kind : GrantKind) (invitedBy : Option (DocId User))
    (role : Option PermissionRole) (token : String) (db : AccountDb) : IssuedGrant × AccountDb :=
  (⟨token, now + grantTtlMs⟩, { db with
    signupGrants := db.signupGrants.insert {
      kind, tokenHash := sha256Hex env token, createdAt := now
      expiresAt := now + grantTtlMs, usedAt := none, invitedBy, role } })

inductive ClaimResult
  | granted (issued : IssuedGrant)
  | rejected
  | locked (retryAfterMs : ℤ)
  | unavailable (detail : String)
  | alreadyBootstrapped

/-- Exchange the bootstrap secret for a grant.  Failures are returned, not thrown, so that a wrong
secret costs its throttle increment.  `token` is what `newGrantToken` draws. -/
def claim (configured : Option String) (token secret : String)
    (db : AccountDb) : ClaimResult × AccountDb :=
  let throttle := db.bootstrapThrottle.rows.head?
  match throttleState (throttle.map Prod.snd) now with
  | some retryAfterMs => (.locked retryAfterMs, db)
  | none =>
    match readBootstrapSecret configured with
    | .error reason => (.unavailable reason, db)
    | .ok expected =>
      if !constantTimeEqual (env.sha256Bytes secret) (env.sha256Bytes expected) then
        let next := nextThrottleAfterFailure (throttle.map Prod.snd) now
        (.rejected, match throttle with
          | none => { db with bootstrapThrottle := db.bootstrapThrottle.insert next }
          | some (rowId, _) =>
            { db with bootstrapThrottle := db.bootstrapThrottle.patch rowId fun _ => next })
      else
        let db := match throttle with
          | none => db
          | some (rowId, _) =>
            { db with
              bootstrapThrottle := db.bootstrapThrottle.patch rowId fun _ => ⟨0, 0, now⟩ }
        if !db.users.rows.isEmpty then (.alreadyBootstrapped, db)
        else
          let (issued, db) := issueGrant env now .bootstrap none none token db
          (.granted issued, db)

/-- `getAuthUserId`: the users id an identity names, whether or not it has a row. -/
def getAuthUserId : Caller → Option (DocId User)
  | .anonymous => none
  | .identity subject => subject

/-- Open sign-up for one account.  The inviter's role is that of the row, if there is one. -/
def invite (env : AccountEnv) (now : ℤ) (caller : Caller) (role : Option PermissionRole)
    (token : String) (db : AccountDb) : Result (IssuedGrant × AccountDb) := do
  requireDashboardAuth caller db
  let role := role.getD .admin
  let inviter := currentUser caller db
  let inviterRole := effectiveRole (inviter.bind fun row => row.2.role)
  if !mayAssignRole inviterRole role role then
    throw (.convex s!"The {inviterRole.text} role cannot invite an {role.text}")
  pure (issueGrant env now .invite (getAuthUserId caller) (some role) token db)

def signupRefused : Err := .internal "Sign-up requires a valid invitation."

/-- Redeem a grant.  A bootstrap grant is inert once any account exists. -/
def consumeSignupGrant (presentedToken : Option String)
    (db : AccountDb) : Result ((DocId SignupGrant × SignupGrant) × AccountDb) := do
  match presentedToken with
  | none => throw signupRefused
  | some presentedToken =>
    if jsLength presentedToken = 0 then throw signupRefused
    let tokenHash := sha256Hex env presentedToken
    match ← db.signupGrants.unique (.notUnique "signupGrants") fun grant =>
        grant.tokenHash = tokenHash with
    | none => throw signupRefused
    | some (grantId, grant) =>
      if grantValidity grant now ≠ .valid then throw signupRefused
      if grant.kind = .bootstrap ∧ !db.users.rows.isEmpty then throw signupRefused
      pure ((grantId, grant), { db with
        signupGrants := db.signupGrants.patch grantId fun grant =>
          { grant with usedAt := some now } })

/-- The sign-up callback of the auth provider: the account is created in the transaction that
redeems the grant. -/
def createOrUpdateUser (existingUserId : Option (DocId User))
    (email signupGrant : Option String) (db : AccountDb) : Result (DocId User × AccountDb) := do
  match existingUserId with
  | some userId => pure (userId, db)
  | none =>
    let ((_, grant), db) ← consumeSignupGrant env now signupGrant db
    match email with
    | none => throw signupRefused
    | some email =>
      if jsLength email = 0 then throw signupRefused
      insertUser env {
        email
        role := grant.role.getD (if grant.kind = .bootstrap then .owner else .admin)
        name := none
        createdAt := none
        legacyHubId := none } db

/-! ## Roles and removal -/

/-- Whether an owner other than the target exists, by two index reads of at most two rows. -/
def anotherOwnerExists (target : DocId User) (db : AccountDb) : Bool :=
  [some PermissionRole.owner, none].any fun role =>
    ((db.users.collect fun user => user.role = role).take 2).any fun row => row.1 ≠ target

/-- Refuse a change that would leave the instance without an owner. -/
def assertNotLastOwner (targetId : DocId User) (target : User) (verb : String) (db : AccountDb) :
    Result Unit := do
  if effectiveRole target.role = .owner ∧ !anotherOwnerExists targetId db then
    throw (.convex s!"Cannot {verb} the last owner account")
  pure ()

/-- `JSON.stringify({ from, to })` of two roles. -/
def roleChangeJson (source target : PermissionRole) : String :=
  "\x7b\"from\":\"" ++ source.text ++ "\",\"to\":\"" ++ target.text ++ "\"\x7d"

/-- Change a user's role; the last owner cannot be demoted. -/
def setUserRole (role : PermissionRole) (db : AccountDb) : Result AccountDb := do
  let signedIn ← requirePermission env caller .accountAdmin db
  match db.users.get userId with
  | none => throw (.convex "No such user")
  | some target =>
    let source := effectiveRole target.role
    if !mayAssignRole signedIn.role source role then
      throw (.convex s!"The {signedIn.role.text} role cannot change {source.text} to {role.text}")
    if source = .owner ∧ role ≠ .owner then
      assertNotLastOwner userId target "demote" db
    let db := { db with users := db.users.patch userId fun user => { user with role := some role } }
    appendAudit now signedIn.actor "account.users.setRole" (some (env.idText userId)) .success
      (some (roleChangeJson source role)) db

/-- Delete what lets an account sign in: its auth accounts, sessions and their refresh tokens. -/
def deleteUserCredentials (db : AccountDb) : AccountDb :=
  let accounts := db.authAccounts.collect fun account => account.userId = userId
  let db := accounts.foldl (fun db account =>
    { db with authAccounts := db.authAccounts.delete account.1 }) db
  let sessions := db.authSessions.collect fun session => session.userId = userId
  sessions.foldl (fun db session =>
    let refreshTokens := db.authRefreshTokens.collect fun token => token.sessionId = session.1
    let db := refreshTokens.foldl (fun db token =>
      { db with authRefreshTokens := db.authRefreshTokens.delete token.1 }) db
    { db with authSessions := db.authSessions.delete session.1 }) db

/-- Remove a user with all that lets them sign in; the last owner stays. -/
def removeUser (db : AccountDb) : Result AccountDb := do
  let signedIn ← requirePermission env caller .accountAdmin db
  if userId = signedIn.userId then throw (.convex "Cannot remove yourself")
  match db.users.get userId with
  | none => throw (.convex "No such user")
  | some target =>
    let role := effectiveRole target.role
    if !mayAssignRole signedIn.role role role then
      throw (.convex s!"The {signedIn.role.text} role cannot remove an {role.text}")
    assertNotLastOwner userId target "remove" db
    let db := deleteUserCredentials userId db
    let db := { db with users := db.users.delete userId }
    let db := match target.legacyHubId with
      | some legacyHubId => recordTombstone now .user legacyHubId db
      | none => db
    appendAudit now signedIn.actor "account.users.remove" (some (env.idText userId)) .success none db

/-! ## The Hub import of users -/

structure HubUser where
  legacyId : String
  email : String
  name : String
  roles : List String
  passwordHash : String
  createdAt : ℤ

inductive ImportOutcome
  | created
  | updated
  | unchanged
  | skipped
  | refused

/-- What one row does, and the write that does it. -/
structure ImportDecision where
  key : String
  outcome : ImportOutcome
  reason : Option String
  write : Option (AccountDb → Result AccountDb)

structure ImportItem where
  key : String
  outcome : ImportOutcome
  reason : Option String

/-- The reason of a row that was skipped because it was written here. -/
def owned (why : String) : String := s!"owned by Convex: {why}"

/-- The write that links a Hub user to the account with their email: the higher of the two roles. -/
def linkHubUser (legacyId : String) (role : PermissionRole) (userId : DocId User) (stored : User)
    (db : AccountDb) : AccountDb :=
  let current := effectiveRole stored.role
  { db with
    users := db.users.patch userId fun user =>
      { user with
        legacyHubId := some legacyId
        role := some (if current.rank < role.rank then role else current) } }

/-- The write that copies a Hub user and, where the email has none, its password account. -/
def createHubUser (row : HubUser) (email : String) (role : PermissionRole)
    (db : AccountDb) : Result AccountDb := do
  let (userId, db) ← insertUser env {
    email, role, name := some row.name, createdAt := some row.createdAt
    legacyHubId := some row.legacyId } db
  match ← db.authAccounts.unique (.notUnique "authAccounts") fun account =>
      account.provider = "password" ∧ account.providerAccountId = email with
  | some _ => pure db
  | none =>
    pure { db with
      authAccounts := db.authAccounts.insert ⟨userId, "password", email, row.passwordHash⟩ }

/-- What the importer does with one Hub user.  An account is copied once; from then on its role and
its password are this deployment's. -/
def decideUser (row : HubUser) (db : AccountDb) : Result ImportDecision := do
  let key := row.email
  if hasTombstone .user row.legacyId db then
    return ⟨key, .skipped, some (owned "the account was removed in Convex"), none⟩
  let role := roleFromHubRoles row.roles
  let email := normalizeEmail env row.email
  match ← db.users.unique (.notUnique "users") fun user =>
      user.legacyHubId = some row.legacyId with
  | some (_, imported) =>
    let current := effectiveRole imported.role
    if current = role then return ⟨key, .unchanged, none, none⟩
    return ⟨key, .skipped,
      some (owned s!"Convex keeps role {current.text}; the Hub has {role.text}"), none⟩
  | none =>
    match (db.users.collect fun user => user.email = some email).head? with
    | some (userId, sameEmail) =>
      return ⟨key, .updated, none,
        some fun db => pure (linkHubUser row.legacyId role userId sameEmail db)⟩
    | none =>
      match emailRefusal email with
      | some refusal => return ⟨key, .refused, some refusal, none⟩
      | none => return ⟨key, .created, none, some (createHubUser env row email role)⟩

/-- Owners first, then by creation, so that the first account created is a Hub owner. -/
def orderedUsers (rows : List HubUser) : List HubUser :=
  let group (row : HubUser) : ℕ := if roleFromHubRoles row.roles = .owner then 0 else 1
  rows.mergeSort fun a b => group a < group b || (group a = group b && a.createdAt ≤ b.createdAt)

/-- `settle(await decideUser(ctx, row))` for one row of a batch. -/
def settleUser (state : List ImportItem × AccountDb) (row : HubUser) :
    Result (List ImportItem × AccountDb) := do
  let (items, db) := state
  let decision ← decideUser env row db
  let db ← match decision.write with
    | some write => write db
    | none => pure db
  pure (items ++ [⟨decision.key, decision.outcome, decision.reason⟩], db)

/-- `processBatch` of a users batch: each row is decided on what the rows before it wrote, and a
write that throws rolls the whole batch back. -/
def importUsers (rows : List HubUser) (db : AccountDb) : Result (List ImportItem × AccountDb) :=
  (orderedUsers rows).foldlM (settleUser env) ([], db)

end EraInfra
