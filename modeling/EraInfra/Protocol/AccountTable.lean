import EraInfra.Protocol.AccountSteps

/-!
# The users table

Three writers create or change accounts under different rules: sign-up, the dashboard, and the Hub
importer, which links a Hub user to the account with their email and finds it by its Hub id from
then on.  `AccountsSound` is what all of them keep: an owner, one account an email, one account a
Hub user.
-/

namespace EraInfra

open DocStore List Option Table

variable (env : AccountEnv)

/-- There is an owner, and one account an email and a Hub user. -/
structure AccountsSound (db : AccountDb) : Prop where
  owner : db.users.rows ≠ [] → ∃ id, IsOwner db id
  emails : ∀ i j a b, db.users.get i = some a → db.users.get j = some b → a.email = b.email → i = j
  normalized : ∀ i a, db.users.get i = some a → ∃ entered, a.email = some (normalizeEmail env entered)
  hubIds : ∀ i j a b l, db.users.get i = some a → db.users.get j = some b →
    a.legacyHubId = some l → b.legacyHubId = some l → i = j

/-- No account has lost rank. -/
def NotLowered (db db' : AccountDb) : Prop :=
  ∀ i a, db.users.get i = some a → ∃ b, db'.users.get i = some b ∧
    (effectiveRole a.role).rank ≤ (effectiveRole b.role).rank

variable {env} {now : ℤ} {db db' : AccountDb}

lemma NotLowered.refl (db : AccountDb) : NotLowered db db := fun _ a ha => ⟨a, ha, le_rfl⟩

lemma NotLowered.trans {db₁ db₂ db₃ : AccountDb} (h : NotLowered db₁ db₂)
    (h' : NotLowered db₂ db₃) : NotLowered db₁ db₃ := by
  intro i a ha
  obtain ⟨b, hb, hab⟩ := h i a ha
  obtain ⟨c, hc, hbc⟩ := h' i b hb
  exact ⟨c, hc, hab.trans hbc⟩

lemma NotLowered.owner (h : NotLowered db db') {i : DocId User} (ho : IsOwner db i) :
    IsOwner db' i := by
  obtain ⟨a, ha, hrole⟩ := ho
  obtain ⟨b, hb, hrank⟩ := h i a ha
  rw [hrole] at hrank
  refine ⟨b, hb, ?_⟩
  cases hr : effectiveRole b.role with
  | owner => rfl
  | admin | operator | viewer =>
    rw [hr] at hrank
    exact absurd hrank (by decide)

/-! ## The writes -/

lemma AccountsSound.of_users (h : AccountsSound env db) (husers : db'.users = db.users) :
    AccountsSound env db' where
  owner hrows := by
    obtain ⟨i, a, ha, hrole⟩ := h.owner (husers ▸ hrows)
    exact ⟨i, a, husers ▸ ha, hrole⟩
  emails i j a b := husers ▸ h.emails i j a b
  normalized i a := husers ▸ h.normalized i a
  hubIds i j a b l := husers ▸ h.hubIds i j a b l

lemma notLowered_insert {user : User} (husers : db'.users = db.users.insert user) :
    NotLowered db db' := fun _ a ha =>
  ⟨a, by rw [husers]; exact get_insert_eq_some.mpr (.inr ha), le_rfl⟩

lemma AccountsSound.insert {input : NewUser} {user : User} (h : AccountsSound env db)
    (hinserted : Inserted env db input user)
    (hhub : ∀ l i a, user.legacyHubId = some l → db.users.get i = some a → a.legacyHubId ≠ some l)
    (husers : db'.users = db.users.insert user) : AccountsSound env db' where
  owner _ := by
    by_cases hempty : db.users.rows = []
    · refine ⟨db.users.next, user, ?_, ?_⟩
      · rw [husers]
        exact get_insert_eq_some.mpr (.inl ⟨rfl, rfl⟩)
      · rw [hinserted.role, hempty]
        rfl
    · obtain ⟨i, ho⟩ := h.owner hempty
      exact ⟨i, (notLowered_insert husers).owner ho⟩
  emails i j a b ha hb hemail := by
    rw [husers] at ha hb
    rcases get_insert_eq_some.mp ha with ⟨rfl, rfl⟩ | ha' <;>
      rcases get_insert_eq_some.mp hb with ⟨rfl, rfl⟩ | hb'
    · rfl
    · exact absurd hemail.symm (hinserted.free j b hb')
    · exact absurd hemail (hinserted.free i a ha')
    · exact h.emails i j a b ha' hb' hemail
  normalized i a ha := by
    rw [husers] at ha
    rcases get_insert_eq_some.mp ha with ⟨-, rfl⟩ | ha
    · exact ⟨input.email, hinserted.email⟩
    · exact h.normalized i a ha
  hubIds i j a b l ha hb hal hbl := by
    rw [husers] at ha hb
    rcases get_insert_eq_some.mp ha with ⟨rfl, rfl⟩ | ha' <;>
      rcases get_insert_eq_some.mp hb with ⟨rfl, rfl⟩ | hb'
    · rfl
    · exact absurd hbl (hhub l j b hal hb')
    · exact absurd hal (hhub l i a hbl ha')
    · exact h.hubIds i j a b l ha' hb' hal hbl

variable {id : DocId User} {row : HubUser}

/-- Rewriting one row keeps the table sound if it leaves the email, takes a Hub id nobody else has,
and leaves an owner. -/
lemma AccountsSound.patch {f : User → User} (h : AccountsSound env db)
    (husers : db'.users = db.users.patch id f) (hemail : ∀ user, (f user).email = user.email)
    (hhub : ∀ a l, db.users.get id = some a → (f a).legacyHubId = some l →
      a.legacyHubId = some l ∨ ∀ i b, db.users.get i = some b → b.legacyHubId ≠ some l)
    (howner : db.users.rows ≠ [] → ∃ i, IsOwner db' i) : AccountsSound env db' := by
  -- Each row after the patch stands for one before it, with its email, under the same id.
  have hrow : ∀ i a, db'.users.get i = some a → ∃ old, db.users.get i = some old ∧
      a.email = old.email ∧ ∀ l, a.legacyHubId = some l → old.legacyHubId = some l ∨
        i = id ∧ ∀ j b, db.users.get j = some b → b.legacyHubId ≠ some l := by
    intro i a ha
    rw [husers] at ha
    rcases Table.get_patch_eq_some.mp ha with ⟨old, rfl, hold, rfl⟩ | ⟨-, ha⟩
    · exact ⟨old, hold, hemail old, fun l hl => (hhub old l hold hl).imp_right fun hfree =>
        ⟨rfl, hfree⟩⟩
    · exact ⟨a, ha, rfl, fun l hl => .inl hl⟩
  refine ⟨fun hrows => howner ?_, ?_, ?_, ?_⟩
  · intro hempty
    rw [husers] at hrows
    simp [Table.patch, hempty] at hrows
  · intro i j a b ha hb hab
    obtain ⟨olda, holda, ha', -⟩ := hrow i a ha
    obtain ⟨oldb, holdb, hb', -⟩ := hrow j b hb
    exact h.emails i j olda oldb holda holdb (by rw [← ha', ← hb', hab])
  · intro i a ha
    obtain ⟨old, hold, ha', -⟩ := hrow i a ha
    obtain ⟨entered, he⟩ := h.normalized i old hold
    exact ⟨entered, ha'.trans he⟩
  · intro i j a b l ha hb hal hbl
    obtain ⟨olda, holda, -, hla⟩ := hrow i a ha
    obtain ⟨oldb, holdb, -, hlb⟩ := hrow j b hb
    rcases hla l hal with ha' | ⟨hi, hfree⟩ <;> rcases hlb l hbl with hb' | ⟨hj, hfree'⟩
    · exact h.hubIds i j olda oldb l holda holdb ha' hb'
    · exact absurd ha' (hfree' i olda holda)
    · exact absurd hb' (hfree j oldb holdb)
    · exact hi.trans hj.symm

lemma AccountsSound.delete (h : AccountsSound env db)
    (howner : ∃ i ≠ id, IsOwner db i) (husers : db'.users = db.users.delete id) :
    AccountsSound env db' := by
  have hrow : ∀ i a, db'.users.get i = some a → db.users.get i = some a := by
    intro i a ha
    rw [husers] at ha
    exact (get_delete_eq_some.mp ha).2
  refine ⟨fun _ => ?_, fun i j a b ha hb => h.emails i j a b (hrow i a ha) (hrow j b hb),
    fun i a ha => h.normalized i a (hrow i a ha),
    fun i j a b l ha hb => h.hubIds i j a b l (hrow i a ha) (hrow j b hb)⟩
  obtain ⟨i, hne, a, ha, hrole⟩ := howner
  exact ⟨i, a, husers ▸ get_delete_eq_some.mpr ⟨hne, ha⟩, hrole⟩

/-! ## The dashboard -/

variable {role : PermissionRole} {items : List ImportItem}

/-- A change of role leaves an owner: the one there was, unless it is the target, and then either
its new role is owner or another owner was found. -/
lemma exists_owner_of_roleSet {caller : Caller} {userId : DocId User}
    (h : AccountsSound env db) (hset : RoleSet db caller userId role)
    (husers : db'.users = db.users.patch userId fun user => { user with role := some role })
    (hrows : db.users.rows ≠ []) : ∃ i, IsOwner db' i := by
  have hother : ∀ i, i ≠ userId → IsOwner db i → IsOwner db' i := by
    rintro i hne ⟨a, ha, hrole⟩
    exact ⟨a, husers ▸ get_patch_eq_some.mpr (.inr ⟨hne, ha⟩), hrole⟩
  obtain ⟨i, ho⟩ := h.owner hrows
  by_cases hi : i = userId
  · subst hi
    by_cases hrole : role = .owner
    · obtain ⟨a, ha, -⟩ := ho
      refine ⟨i, { a with role := some role }, ?_, ?_⟩
      · rw [husers]
        exact get_patch_eq_some.mpr (.inl ⟨a, rfl, ha, rfl⟩)
      · rw [hrole]
        rfl
    · obtain ⟨j, hne, hj⟩ := hset.owner ho hrole
      exact ⟨j, hother j hne hj⟩
  · exact ⟨i, hother i hi ho⟩

lemma AccountChange.sound {op : DashboardOp} (h : AccountsSound env db)
    (hchange : AccountChange env now db op db') : AccountsSound env db' := by
  cases hchange with
  | unchanged users _ | claimed _ _ users _ | invited _ _ _ users _ => exact h.of_users users
  | signedUp g _ signedUp =>
    obtain ⟨_, _, _, _, input, user, hinserted, hnone, _, husers⟩ := signedUp.unused
    refine h.insert hinserted (fun l i a hl => ?_) husers
    rw [hinserted.legacyHubId, hnone] at hl
    cases hl
  | roleSet roleSet _ users =>
    exact h.patch users (fun _ => rfl) (fun _ _ _ hl => .inl hl)
      (exists_owner_of_roleSet h roleSet users)
  | @removed _ userId _ removed _ users =>
    refine h.delete ?_ users
    obtain ⟨id, user, hne, -, hid⟩ := removed.actor
    obtain ⟨i, ho⟩ := h.owner (ne_nil_of_mem (get_eq_some_iff.mp hid))
    by_cases hi : i = userId
    · exact removed.owner (hi ▸ ho)
    · exact ⟨i, hi, ho⟩

/-! ## The import -/

/-- A row of a batch: it writes nothing, links the account with its email, or creates one, and in
the last two cases no account has its Hub id yet. -/
lemma decideUser_change {decision : ImportDecision} (h : decideUser env row db = .ok decision) :
    decision.write = none ∨ (∀ i a, db.users.get i = some a → a.legacyHubId ≠ some row.legacyId) ∧
      ((∃ id stored, db.users.get id = some stored ∧ decision.write = some fun db =>
          pure (linkHubUser row.legacyId (roleFromHubRoles row.roles) id stored db)) ∨
        decision.write = some (createHubUser env row (normalizeEmail env row.email)
          (roleFromHubRoles row.roles))) := by
  unfold decideUser at h
  dsimp only at h
  split at h
  · cases h
    exact .inl rfl
  obtain ⟨imported, himported, h⟩ := bind_ok.mp h
  split at h
  · split at h
    all_goals
      cases h
      exact .inl rfl
  have hfree : ∀ i a, db.users.get i = some a → a.legacyHubId ≠ some row.legacyId :=
    fun i a ha => by simpa using not_of_unique_none himported ha
  split at h
  · rename_i id stored hhead
    cases h
    obtain ⟨hget, -⟩ := mem_collect.mp (mem_of_head? hhead)
    exact .inr ⟨hfree, .inl ⟨id, stored, hget, rfl⟩⟩
  · split at h
    · cases h
      exact .inl rfl
    · cases h
      exact .inr ⟨hfree, .inr rfl⟩

lemma createHubUser_change {email : String} (h : createHubUser env row email role db = .ok db') :
    ∃ input user, Inserted env db input user ∧ user.legacyHubId = some row.legacyId ∧
      db'.users = db.users.insert user := by
  obtain ⟨⟨id, db₁⟩, hinsert, h⟩ := bind_ok.mp h
  obtain ⟨user, hinserted, rfl⟩ := insertUser_change hinsert
  obtain ⟨account, -, h⟩ := bind_ok.mp h
  split at h
  all_goals
    cases h
    exact ⟨_, user, hinserted, hinserted.legacyHubId, rfl⟩

lemma linkHubUser_users (legacyId : String) (role : PermissionRole) (id : DocId User) (stored : User) :
    (linkHubUser legacyId role id stored db).users = db.users.patch id fun user =>
      { user with
        legacyHubId := some legacyId
        role := some (if (effectiveRole stored.role).rank < role.rank then role
          else effectiveRole stored.role) } := rfl

lemma notLowered_link {stored : User} (hget : db.users.get id = some stored)
    (legacyId : String) (role : PermissionRole) :
    NotLowered db (linkHubUser legacyId role id stored db) := by
  intro i a ha
  by_cases hi : i = id
  · subst hi
    cases hget.symm.trans ha
    refine ⟨_, get_patch_eq_some.mpr (.inl ⟨stored, rfl, hget, rfl⟩), ?_⟩
    split
    · exact le_of_lt (by assumption)
    · exact le_rfl
  · exact ⟨a, get_patch_eq_some.mpr (.inr ⟨hi, ha⟩), le_rfl⟩

/-- One row of a batch keeps the table sound and lowers nobody. -/
lemma settleUser_sound {items' : List ImportItem}
    (h : settleUser env (items, db) row = .ok (items', db')) (hsound : AccountsSound env db) :
    AccountsSound env db' ∧ NotLowered db db' := by
  obtain ⟨decision, hdecision, h⟩ := bind_ok.mp h
  rcases decideUser_change hdecision with hwrite | ⟨hfree, ⟨id, stored, hget, hwrite⟩ | hwrite⟩
  · rw [hwrite] at h
    cases h
    exact ⟨hsound, .refl db⟩
  · rw [hwrite] at h
    cases h
    have hnot := notLowered_link hget row.legacyId (roleFromHubRoles row.roles)
    refine ⟨hsound.patch (linkHubUser_users _ _ _ _) (fun _ => rfl) (fun a l ha hl => .inr ?_) ?_, hnot⟩
    · obtain rfl : row.legacyId = l := some.inj hl
      exact hfree
    · intro hrows
      obtain ⟨i, ho⟩ := hsound.owner hrows
      exact ⟨i, hnot.owner ho⟩
  · rw [hwrite] at h
    obtain ⟨db₁, hcreate, h⟩ := bind_ok.mp h
    cases h
    obtain ⟨input, user, hinserted, hlegacy, husers⟩ := createHubUser_change hcreate
    refine ⟨hsound.insert hinserted (fun l i a hl ha => ?_) husers, notLowered_insert husers⟩
    obtain rfl : row.legacyId = l := some.inj (hlegacy.symm.trans hl)
    exact hfree i a ha

lemma importUsers_sound {rows : List HubUser}
    (h : importUsers env rows db = .ok (items, db')) (hsound : AccountsSound env db) :
    AccountsSound env db' ∧ NotLowered db db' := by
  refine foldlM_keeps (P := fun s => AccountsSound env s.2 ∧ NotLowered db s.2) ?_ ⟨hsound, .refl db⟩ h
  rintro row - ⟨items₁, db₁⟩ ⟨items₂, db₂⟩ ⟨hsound₁, hnot₁⟩ hsettle
  obtain ⟨hsound₂, hnot₂⟩ := settleUser_sound hsettle hsound₁
  exact ⟨hsound₂, hnot₁.trans hnot₂⟩

/-! ## Runs -/

/-- Every call that writes the users table or what its writers read: the dashboard's, a users batch
of the importer, and whatever the auth framework does to its own tables. -/
inductive AccountOp
  | dashboard (op : DashboardOp)
  | importUsers (rows : List HubUser)
  | authTables (accounts : Table AuthAccount) (sessions : Table AuthSession)
      (refreshTokens : Table AuthRefreshToken)

def performAccount (env : AccountEnv) (now : ℤ) (db : AccountDb) : AccountOp → Result AccountDb
  | .dashboard op => performDashboard env now db op
  | .importUsers rows => (importUsers env rows db).map Prod.snd
  | .authTables accounts sessions refreshTokens =>
    .ok { db with
      authAccounts := accounts, authSessions := sessions, authRefreshTokens := refreshTokens }

def stepAccount (env : AccountEnv) (db : AccountDb) (call : ℤ × AccountOp) : AccountDb :=
  commit db (performAccount env call.1 db call.2)

def afterAccounts (env : AccountEnv) (start : AccountDb) (calls : List (ℤ × AccountOp)) : AccountDb :=
  run (stepAccount env) start calls

lemma stepAccount_sound {call : ℤ × AccountOp} (h : AccountsSound env db) :
    AccountsSound env (stepAccount env db call) := by
  refine commit_rule h fun db' hok => ?_
  obtain ⟨now, op⟩ := call
  cases op with
  | dashboard op => exact (performDashboard_change hok).sound h
  | importUsers rows =>
    obtain ⟨items, himport⟩ := map_snd_ok.mp hok
    exact (importUsers_sound himport h).1
  | authTables accounts sessions refreshTokens =>
    cases hok
    exact h.of_users rfl

lemma afterAccounts_sound (env : AccountEnv) {start : AccountDb} (hempty : start.users.rows = [])
    (calls : List (ℤ × AccountOp)) : AccountsSound env (afterAccounts env start calls) := by
  have hnone : ∀ i, start.users.get i = none := by
    intro i
    rw [Table.get, hempty]
    rfl
  refine run_invariant (fun _ db => AccountsSound env db) ?_ (fun _ _ h => stepAccount_sound h) calls
  refine ⟨fun h => absurd hempty h, fun i _ _ _ ha => ?_, fun i _ ha => ?_, fun i _ _ _ _ ha => ?_⟩
  all_goals
    rw [hnone i] at ha
    cases ha

/-- **There is always an owner, and one account an email.**  From an empty users table, whatever
else the deployment holds, every run of sign-ups, role changes, removals and import batches
leaves the table empty or with an owner; no two rows have the same email, every email is
stored normalized, and no two rows carry the same Hub id.  No import lowers a role. -/
theorem accounts_stay_sound (env : AccountEnv) (start : AccountDb)
    (hempty : start.users.rows = []) (calls : List (ℤ × AccountOp)) :
    AccountsSound env (afterAccounts env start calls) ∧
    ((∀ s, normalizeEmail env (normalizeEmail env s) = normalizeEmail env s) →
      ∀ i j a b x y, (afterAccounts env start calls).users.get i = some a →
        (afterAccounts env start calls).users.get j = some b → a.email = some x →
        b.email = some y → normalizeEmail env x = normalizeEmail env y → i = j) ∧
    ∀ before now rows rest, calls = before ++ (now, .importUsers rows) :: rest →
      NotLowered (afterAccounts env start before)
        (afterAccounts env start (before ++ [(now, .importUsers rows)])) := by
  have hsound := afterAccounts_sound env hempty
  refine ⟨hsound calls, ?_, ?_⟩
  · intro hidem i j a b x y ha hb hx hy hxy
    have hnormal : ∀ i a x, (afterAccounts env start calls).users.get i = some a →
        a.email = some x → normalizeEmail env x = x := by
      intro i a x ha hx
      obtain ⟨entered, he⟩ := (hsound calls).normalized i a ha
      cases hx.symm.trans he
      exact hidem entered
    refine (hsound calls).emails i j a b ha hb ?_
    rw [hx, hy, ← hnormal i a x ha hx, hxy, hnormal j b y hb hy]
  · rintro before now rows rest -
    rw [afterAccounts, afterAccounts, run_snoc]
    refine commit_rule (P := NotLowered _) (.refl _) fun db' hok => ?_
    obtain ⟨items, himport⟩ := map_snd_ok.mp hok
    exact (importUsers_sound himport (hsound before)).2

/-- A batch with one Hub user, a viewer, on an empty deployment: the account is the owner's. -/
theorem accounts_stay_sound_first_import :
    let calls := [(0, AccountOp.importUsers [⟨"u1", " A@example.org", "A", ["viewer"], "h", 0⟩])]
    (afterAccounts plainEnv .empty calls).users.count (fun user => user.email = some "a@example.org" ∧
        user.role = some .owner) = 1 ∧
      AccountsSound plainEnv (afterAccounts plainEnv .empty calls) :=
  ⟨by decide +kernel, (accounts_stay_sound plainEnv .empty rfl _).1⟩

end EraInfra
