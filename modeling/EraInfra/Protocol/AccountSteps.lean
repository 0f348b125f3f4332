import EraInfra.Backend.Accounts
import EraInfra.Core.Run

/-!
# What each account function does

One lemma for each function that writes: what a committed call found, and what it did to the users
and the grants.  The results about accounts are case analyses over these and do not look at the
functions again.
-/

namespace EraInfra

open DocStore List Option Table Bool
open AccountDb (signupGrants users)

variable {env : AccountEnv} {now : ℤ} {db db' : AccountDb} {caller : Caller}

/-! ## Callers -/

variable {id target userId : DocId User} {g : DocId SignupGrant}

lemma currentUser_eq_some {user : User} : currentUser caller db = some (id, user) ↔
      caller = .identity (some id) ∧ db.users.get id = some user := by
  unfold currentUser
  split
  · simp
  · simp
  simp only [map_eq_some_iff, Prod.mk.injEq, Caller.identity.injEq, some.injEq]
  constructor
  · rintro ⟨a, ha, rfl, rfl⟩
    exact ⟨rfl, ha⟩
  · rintro ⟨rfl, ha⟩
    exact ⟨user, ha, rfl, rfl⟩

/-- A permission is held by a row. -/
lemma requirePermission_ok {permission : Permission} {signedIn : SignedIn}
    (h : requirePermission env caller permission db = .ok signedIn) :
    caller = .identity (some signedIn.userId) ∧ db.users.get signedIn.userId = some signedIn.user ∧
      signedIn.role = effectiveRole signedIn.user.role := by
  unfold requirePermission at h
  split at h
  · cases h
  rename_i userId user hrow
  dsimp only at h
  split at h
  · cases h
  cases h
  obtain ⟨hcaller, hget⟩ := currentUser_eq_some.mp hrow
  exact ⟨hcaller, hget, rfl⟩

/-! ## The log and the tombstones -/

lemma appendAudit_frame {actor action : String} {target metaJson : Option String}
    {outcome : AuditOutcome} (h : appendAudit now actor action target outcome metaJson db = .ok db') :
    db'.users = db.users ∧ db'.signupGrants = db.signupGrants := by
  unfold appendAudit at h
  split at h
  · cases h
  obtain ⟨⟨seq, db₁⟩, hbump, h⟩ := bind_ok.mp h
  cases h
  obtain ⟨value, -, hbump⟩ := bind_ok.mp hbump
  obtain ⟨db₂, hwrite, hbump⟩ := bind_ok.mp hbump
  cases hbump
  obtain ⟨row, -, hwrite⟩ := bind_ok.mp hwrite
  split at hwrite
  · cases hwrite
    exact ⟨rfl, rfl⟩
  · split at hwrite
    all_goals
      cases hwrite
      exact ⟨rfl, rfl⟩

lemma recordTombstone_frame (kind : TombstoneKind) (key : String) :
    (recordTombstone now kind key db).users = db.users ∧
      (recordTombstone now kind key db).signupGrants = db.signupGrants := by
  unfold recordTombstone
  split
  · exact ⟨rfl, rfl⟩
  · exact ⟨rfl, rfl⟩

lemma deleteUserCredentials_frame (db : AccountDb) (userId : DocId User) :
    (deleteUserCredentials userId db).users = db.users ∧
      (deleteUserCredentials userId db).signupGrants = db.signupGrants := by
  unfold deleteUserCredentials
  constructor
  · rw [foldl_frame users, foldl_frame users]
    · exact fun _ _ => rfl
    · intro db session
      rw [foldl_frame users]
      exact fun _ _ => rfl
  · rw [foldl_frame signupGrants, foldl_frame signupGrants]
    · exact fun _ _ => rfl
    · intro db session
      rw [foldl_frame signupGrants]
      exact fun _ _ => rfl

/-! ## Grants -/

lemma claim_change (env : AccountEnv) (now : ℤ) (db : AccountDb) (configured : Option String)
    (token secret : String) :
    (claim env now configured token secret db).2.users = db.users ∧
      ((claim env now configured token secret db).2.signupGrants = db.signupGrants ∨
        ∃ grant, grant.kind = .bootstrap ∧ (claim env now configured token secret db).2.signupGrants
            = db.signupGrants.insert grant) := by
  unfold claim
  dsimp only
  split
  · exact ⟨rfl, .inl rfl⟩
  split
  · exact ⟨rfl, .inl rfl⟩
  split
  · split
    · exact ⟨rfl, .inl rfl⟩
    · exact ⟨rfl, .inl rfl⟩
  cases db.bootstrapThrottle.rows.head? with
  | none | some row =>
    dsimp only
    split
    · exact ⟨rfl, .inl rfl⟩
    · exact ⟨rfl, .inr ⟨_, rfl, rfl⟩⟩

/-- What an invitation finds: a caller with an identity, and if the identity has a row, the row of
an admin who may hand out the role. -/
structure Invited (db : AccountDb) (caller : Caller) (role : PermissionRole) (grant : SignupGrant) :
    Prop where
  kind : grant.kind = .invite
  carries : grant.role = some role
  authority : ∀ id user, currentUser caller db = some (id, user) →
    role.rank ≤ (effectiveRole user.role).rank ∧
      PermissionRole.admin.rank ≤ (effectiveRole user.role).rank

lemma invite_change {role : Option PermissionRole} {token : String} {issued : IssuedGrant}
    (h : invite env now caller role token db = .ok (issued, db')) :
    db'.users = db.users ∧ caller ≠ .anonymous ∧ ∃ grant, Invited db caller (role.getD .admin) grant ∧
      db'.signupGrants = db.signupGrants.insert grant := by
  obtain ⟨_, hauth, h⟩ := bind_ok.mp h
  dsimp only at h
  split at h
  · cases h
  rename_i hmay
  cases h
  refine ⟨rfl, ?_, _, ⟨rfl, rfl, ?_⟩, rfl⟩
  · rintro rfl
    cases hauth
  intro id user hrow
  have hadmin : isDashboardAdmin (effectiveRole user.role) = true := by
    obtain ⟨rfl, -⟩ := currentUser_eq_some.mp hrow
    unfold requireDashboardAuth at hauth
    simp only [hrow] at hauth
    split at hauth
    · cases hauth
    · rename_i hadmin
      simpa using hadmin
  simp only [hrow, mayAssignRole, Bool.and_self, not_eq_true',
    decide_eq_false_iff_not, not_le, not_lt] at hmay
  exact ⟨hmay, by simpa [isDashboardAdmin] using hadmin⟩

lemma consumeSignupGrant_change {presented : Option String}
    {grant : SignupGrant} (h : consumeSignupGrant env now presented db = .ok ((g, grant), db')) :
    db.signupGrants.get g = some grant ∧ grant.usedAt = none ∧
      (grant.kind = .bootstrap → db.users.rows = []) ∧
      db' = { db with signupGrants := db.signupGrants.patch g fun grant =>
        { grant with usedAt := some now } } := by
  unfold consumeSignupGrant at h
  split at h
  · cases h
  split at h
  · cases h
  obtain ⟨row, hrow, h⟩ := bind_ok.mp h
  split at h
  · cases h
  dsimp only at h
  split at h
  · cases h
  rename_i hvalid
  split at h
  · cases h
  rename_i hboot
  obtain ⟨hpair, rfl⟩ := Prod.mk.inj (pure_ok.mp h)
  cases hpair
  obtain ⟨hget, -⟩ := unique_some hrow
  refine ⟨hget, ?_, ?_, rfl⟩
  · by_contra hused
    simp [grantValidity, hused] at hvalid
  · intro hkind
    simpa [hkind] using hboot

/-! ## Accounts -/

/-- The row `insertUser` adds. -/
structure Inserted (env : AccountEnv) (db : AccountDb) (input : NewUser) (user : User) : Prop where
  email : user.email = some (normalizeEmail env input.email)
  free : ∀ i other, db.users.get i = some other → other.email ≠ user.email
  role : user.role = some (if db.users.rows.isEmpty then .owner else input.role)
  legacyHubId : user.legacyHubId = input.legacyHubId

lemma insertUser_change {input : NewUser} (h : insertUser env input db = .ok (id, db')) :
    ∃ user, Inserted env db input user ∧ db' = { db with users := db.users.insert user } := by
  unfold insertUser at h
  dsimp only at h
  split at h
  · cases h
  split at h
  · cases h
  rename_i hfree
  cases h
  refine ⟨_, ⟨rfl, ?_, rfl, rfl⟩, rfl⟩
  intro i other hi hemail
  have hmem : (i, other) ∈ db.users.collect fun user =>
      user.email = some (normalizeEmail env input.email) :=
    mem_collect.mpr ⟨hi, by simpa using hemail⟩
  simp only [not_eq_true', not_eq_false, List.isEmpty_iff] at hfree
  rw [hfree] at hmem
  exact absurd hmem not_mem_nil

/-- What a sign-up that creates an account does. -/
structure SignedUp (env : AccountEnv) (now : ℤ) (db : AccountDb) (g : DocId SignupGrant)
    (db' : AccountDb) : Prop where
  unused : ∃ grant, db.signupGrants.get g = some grant ∧ grant.usedAt = none ∧
    (grant.kind = .bootstrap → db.users.rows = []) ∧
    ∃ input user, Inserted env db input user ∧ input.legacyHubId = none ∧
      input.role = grant.role.getD (if grant.kind = .bootstrap then .owner else .admin) ∧
      db'.users = db.users.insert user
  grants : db'.signupGrants = db.signupGrants.patch g fun grant =>
    { grant with usedAt := some now }

lemma createOrUpdateUser_change {existing : Option (DocId User)} {email token : Option String} (h : createOrUpdateUser env now existing email token db = .ok (id, db')) :
    existing = some id ∧ db' = db ∨
      existing = none ∧ ∃ g grant db₁, consumeSignupGrant env now token db = .ok ((g, grant), db₁) ∧
        SignedUp env now db g db' := by
  unfold createOrUpdateUser at h
  split at h
  · cases h
    exact .inl ⟨rfl, rfl⟩
  obtain ⟨⟨⟨g, grant⟩, db₁⟩, hconsume, h⟩ := bind_ok.mp h
  dsimp only at h
  split at h
  · cases h
  split at h
  · cases h
  obtain ⟨hget, hunused, hboot, hdb₁⟩ := consumeSignupGrant_change hconsume
  obtain ⟨user, hinserted, rfl⟩ := insertUser_change h
  subst hdb₁
  exact .inr ⟨rfl, g, grant, _, hconsume,
    ⟨grant, hget, hunused, hboot, _, user, ⟨hinserted.email, hinserted.free, hinserted.role,
      hinserted.legacyHubId⟩, rfl, rfl, rfl⟩, rfl⟩

/-- An existing account with the power of an owner. -/
def IsOwner (db : AccountDb) (id : DocId User) : Prop :=
  ∃ user, db.users.get id = some user ∧ effectiveRole user.role = .owner

lemma assertNotLastOwner_ok {user : User} {verb : String} {u : Unit}
    (h : assertNotLastOwner target user verb db = .ok u) (howner : effectiveRole user.role = .owner) :
    ∃ i ≠ target, IsOwner db i := by
  unfold assertNotLastOwner at h
  split at h
  · cases h
  · rename_i hanother
    have hexists : anotherOwnerExists target db = true := by simpa [howner] using hanother
    obtain ⟨role, hrole, hexists⟩ := any_eq_true.mp hexists
    obtain ⟨⟨i, user⟩, hmem, hne⟩ := any_eq_true.mp hexists
    obtain ⟨hget, huser⟩ := mem_collect.mp (mem_of_mem_take hmem)
    refine ⟨i, by simpa using hne, user, hget, ?_⟩
    have huser : user.role = role := by simpa using huser
    rw [huser]
    rcases mem_pair.mp hrole with rfl | rfl
    · rfl
    · rfl

/-- What a change of role finds: a signed-in actor, and a target both of whose roles the actor's
rank covers; an owner is demoted only beside another. -/
structure RoleSet (db : AccountDb) (caller : Caller) (userId : DocId User) (role : PermissionRole) :
    Prop where
  actor : ∃ id user, caller = .identity (some id) ∧ db.users.get id = some user ∧
    ∃ target, db.users.get userId = some target ∧
      (effectiveRole target.role).rank ≤ (effectiveRole user.role).rank ∧
      role.rank ≤ (effectiveRole user.role).rank
  owner : IsOwner db userId → role ≠ .owner → ∃ i ≠ userId, IsOwner db i

lemma setUserRole_change {role : PermissionRole}
    (h : setUserRole env now caller userId role db = .ok db') :
    RoleSet db caller userId role ∧ db'.signupGrants = db.signupGrants ∧
      db'.users = db.users.patch userId fun user => { user with role := some role } := by
  obtain ⟨signedIn, hpermission, h⟩ := bind_ok.mp h
  obtain ⟨hcaller, hactor, hrole⟩ := requirePermission_ok hpermission
  split at h
  · cases h
  rename_i target htarget
  dsimp only at h
  split at h
  · cases h
  rename_i hmay
  simp only [mayAssignRole, hrole, not_eq_true', not_eq_false, and_eq_true,
    decide_eq_true_eq] at hmay
  have hactor' : ∃ id user, caller = .identity (some id) ∧ db.users.get id = some user ∧
      ∃ target, db.users.get userId = some target ∧
        (effectiveRole target.role).rank ≤ (effectiveRole user.role).rank ∧
        role.rank ≤ (effectiveRole user.role).rank :=
    ⟨_, _, hcaller, hactor, target, htarget, hmay⟩
  split at h
  · obtain ⟨_, hlast, h⟩ := bind_ok.mp h
    obtain ⟨husers, hgrants⟩ := appendAudit_frame h
    refine ⟨⟨hactor', fun ⟨other, hother, howner⟩ _ => ?_⟩, hgrants, husers⟩
    cases htarget.symm.trans hother
    exact assertNotLastOwner_ok hlast howner
  · rename_i hkeep
    obtain ⟨husers, hgrants⟩ := appendAudit_frame h
    refine ⟨⟨hactor', fun ⟨other, hother, howner⟩ hne => ?_⟩, hgrants, husers⟩
    cases htarget.symm.trans hother
    exact absurd ⟨howner, hne⟩ hkeep

/-- What a removal finds: an actor who stays, and if the target is an owner, another one. -/
structure Removed (db : AccountDb) (caller : Caller) (userId : DocId User) : Prop where
  actor : ∃ id user, id ≠ userId ∧ caller = .identity (some id) ∧ db.users.get id = some user
  owner : IsOwner db userId → ∃ i ≠ userId, IsOwner db i

lemma removeUser_change (h : removeUser env now caller userId db = .ok db') :
    Removed db caller userId ∧ db'.signupGrants = db.signupGrants ∧
      db'.users = db.users.delete userId := by
  obtain ⟨signedIn, hpermission, h⟩ := bind_ok.mp h
  obtain ⟨hcaller, hactor, -⟩ := requirePermission_ok hpermission
  dsimp only at h
  split at h
  · cases h
  rename_i hself
  split at h
  · cases h
  rename_i target htarget
  split at h
  · cases h
  obtain ⟨_, hlast, h⟩ := bind_ok.mp h
  have hremoved : Removed db caller userId := by
    refine ⟨⟨_, _, Ne.symm hself, hcaller, hactor⟩, fun ⟨other, hother, howner⟩ => ?_⟩
    cases htarget.symm.trans hother
    exact assertNotLastOwner_ok hlast howner
  obtain ⟨husers, hgrants⟩ := appendAudit_frame h
  obtain ⟨hcredUsers, hcredGrants⟩ := deleteUserCredentials_frame db userId
  refine ⟨hremoved, ?_, ?_⟩
  · rw [hgrants, ← hcredGrants]
    split
    · exact (recordTombstone_frame _ _).2
    · rfl
  · rw [husers, ← hcredUsers]
    split
    · exact (recordTombstone_frame _ _).1
    · rfl

/-! ## The dashboard's calls -/

/-- Every call a person can make that writes accounts or grants.  The random token a grant is issued
for and the deployment's bootstrap secret are arguments, so a run may choose them. -/
inductive DashboardOp
  | claim (configured : Option String) (token secret : String)
  | invite (caller : Caller) (role : Option PermissionRole) (token : String)
  | signUp (existing : Option (DocId User)) (email signupGrant : Option String)
  | setUserRole (caller : Caller) (userId : DocId User) (role : PermissionRole)
  | removeUser (caller : Caller) (userId : DocId User)

def performDashboard (env : AccountEnv) (now : ℤ) (db : AccountDb) : DashboardOp → Result AccountDb
  | .claim configured token secret => .ok (claim env now configured token secret db).2
  | .invite caller role token => (invite env now caller role token db).map Prod.snd
  | .signUp existing email signupGrant =>
    (createOrUpdateUser env now existing email signupGrant db).map Prod.snd
  | .setUserRole caller userId role => setUserRole env now caller userId role db
  | .removeUser caller userId => removeUser env now caller userId db

/-- The grant a sign-up redeems, if it creates an account. -/
def redeemed (env : AccountEnv) (db : AccountDb) (call : ℤ × DashboardOp) : List (DocId SignupGrant) :=
  match call.2 with
  | .signUp none email signupGrant =>
    match createOrUpdateUser env call.1 none email signupGrant db,
      consumeSignupGrant env call.1 signupGrant db with
    | .ok _, .ok ((g, _), _) => [g]
    | _, _ => []
  | _ => []

/-- What a committed call does to the users and the grants. -/
inductive AccountChange (env : AccountEnv) (now : ℤ) (db : AccountDb) : DashboardOp → AccountDb → Prop
  | unchanged {op : DashboardOp} {db' : AccountDb} (users : db'.users = db.users)
      (grants : db'.signupGrants = db.signupGrants) : AccountChange env now db op db'
  | claimed {op : DashboardOp} {db' : AccountDb} (grant : SignupGrant)
      (kind : grant.kind = .bootstrap) (users : db'.users = db.users)
      (grants : db'.signupGrants = db.signupGrants.insert grant) : AccountChange env now db op db'
  | invited {caller : Caller} {role : Option PermissionRole} {token : String} {db' : AccountDb}
      (grant : SignupGrant) (identity : caller ≠ .anonymous)
      (invited : Invited db caller (role.getD .admin) grant) (users : db'.users = db.users)
      (grants : db'.signupGrants = db.signupGrants.insert grant) :
      AccountChange env now db (.invite caller role token) db'
  | signedUp {email token : Option String} {db' : AccountDb} (g : DocId SignupGrant)
      (redeems : redeemed env db (now, .signUp none email token) = [g])
      (signedUp : SignedUp env now db g db') : AccountChange env now db (.signUp none email token) db'
  | roleSet {caller : Caller} {userId : DocId User} {role : PermissionRole} {db' : AccountDb}
      (roleSet : RoleSet db caller userId role) (grants : db'.signupGrants = db.signupGrants)
      (users : db'.users = db.users.patch userId fun user => { user with role := some role }) :
      AccountChange env now db (.setUserRole caller userId role) db'
  | removed {caller : Caller} {userId : DocId User} {db' : AccountDb}
      (removed : Removed db caller userId) (grants : db'.signupGrants = db.signupGrants)
      (users : db'.users = db.users.delete userId) :
      AccountChange env now db (.removeUser caller userId) db'

lemma performDashboard_change {op : DashboardOp} (h : performDashboard env now db op = .ok db') :
    AccountChange env now db op db' := by
  cases op with
  | claim configured token secret =>
    cases h
    obtain ⟨husers, hgrants | ⟨grant, hkind, hgrants⟩⟩ :=
      claim_change env now db configured token secret
    · exact .unchanged husers hgrants
    · exact .claimed grant hkind husers hgrants
  | invite caller role token =>
    obtain ⟨issued, hok⟩ := map_snd_ok.mp h
    obtain ⟨husers, hidentity, grant, hinvited, hgrants⟩ := invite_change hok
    exact .invited grant hidentity hinvited husers hgrants
  | signUp existing email token =>
    obtain ⟨id, hok⟩ := map_snd_ok.mp h
    rcases createOrUpdateUser_change hok with ⟨-, rfl⟩ | ⟨rfl, g, grant, db₂, hconsume, hsigned⟩
    · exact .unchanged rfl rfl
    · exact .signedUp g (by simp only [redeemed, hok, hconsume]) hsigned
  | setUserRole caller userId role =>
    obtain ⟨hset, hgrants, husers⟩ := setUserRole_change h
    exact .roleSet hset hgrants husers
  | removeUser caller userId =>
    obtain ⟨hremoved, hgrants, husers⟩ := removeUser_change h
    exact .removed hremoved hgrants husers

/-- One call; one that throws leaves the database as it was. -/
def stepDashboard (env : AccountEnv) (db : AccountDb) (call : ℤ × DashboardOp) : AccountDb :=
  commit db (performDashboard env call.1 db call.2)

lemma stepDashboard_change (env : AccountEnv) (db : AccountDb) (call : ℤ × DashboardOp) :
    AccountChange env call.1 db call.2 (stepDashboard env db call) := by
  unfold stepDashboard
  cases h : performDashboard env call.1 db call.2 with
  | error e => exact .unchanged rfl rfl
  | ok db' => exact performDashboard_change h

/-- A call that redeems a grant commits, and creates an account with it. -/
lemma signedUp_of_redeemed {call : ℤ × DashboardOp}
    (h : g ∈ redeemed env db call) : SignedUp env call.1 db g (stepDashboard env db call) := by
  unfold redeemed at h
  split at h
  · rename_i email token hop
    split at h
    · rename_i id g' grant db₁ hcreate hconsume
      obtain rfl := mem_singleton.mp h
      rcases createOrUpdateUser_change hcreate with ⟨hnone, -⟩ | ⟨-, g', grant', db₂, hconsume', hs⟩
      · cases hnone
      rw [hconsume] at hconsume'
      obtain ⟨hpair, -⟩ := Prod.mk.inj (Except.ok.inj hconsume')
      cases hpair
      have hstep : stepDashboard env db call = id.2 := by
        rw [stepDashboard, hop, performDashboard, hcreate]
        rfl
      rw [hstep]
      exact hs
    · exact absurd h not_mem_nil
  · exact absurd h not_mem_nil

/-- A platform whose digest is the text itself. -/
def plainEnv : AccountEnv where
  toLowerCase s := String.ofList (s.toList.map Char.toLower)
  localeCompare := compare
  sha256Bytes s := s.toList.map fun c => UInt8.ofNat c.toNat
  idText id := toString id

end EraInfra
