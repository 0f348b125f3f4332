import EraInfra.Protocol.AccountSteps

/-!
# Where an account's power comes from

An account's role is decided when its invite is *issued*, in another transaction than the sign-up
that redeems it, so the chain from an account to the authority behind it runs through the grants
table.  `GrantsIssued` carries it: along a run every invite grant in the table was issued by a
caller who then had a row of sufficient rank.

That holds as long as whoever invites has a users row (`InvitersHaveRows`).  Without the condition
it does not: `requireDashboardAuth` lets through an identity whose row is gone, and `invite` then
reads the missing role as `owner` (`removed_account_invites_owner`).
-/

namespace EraInfra

open DocStore List Option Table

variable (env : AccountEnv)

section

variable (calls : List (ℤ × DashboardOp))

/-- The database after a run of the dashboard's calls on a new deployment. -/
def afterDashboard : AccountDb := run (stepDashboard env) .empty calls

/-- The grants redeemed along a run, in order. -/
def redemptions : List (DocId SignupGrant) := trace (stepDashboard env) (redeemed env) .empty calls

/-- A call that issues grant `g`, made by a caller who has a users row of at least the rank of
`role` and at least an admin's. -/
def IssuesAsPeer (g : DocId SignupGrant) (role : PermissionRole) (db : AccountDb)
    (call : ℤ × DashboardOp) : Prop :=
  match call.2 with
  | .invite (.identity (some id)) _ _ =>
    ∃ inviter ∈ db.users.get id, (performDashboard env call.1 db call.2).isOk = true ∧
      db.signupGrants.next = g ∧ role.rank ≤ (effectiveRole inviter.role).rank ∧
      PermissionRole.admin.rank ≤ (effectiveRole inviter.role).rank
  | _ => False

/-- Grant `g` was issued along the run by a caller with the power to hand out `role`. -/
def IssuedByPeer (g : DocId SignupGrant) (role : PermissionRole) : Prop :=
  Occurs (stepDashboard env) .empty (IssuesAsPeer env g role) calls

/-- An account gets no more power than someone held who gave it.  "After the first account" is that
an id has been handed out. -/
structure PowerFromPower : Prop where
  /-- Every account after the first redeemed an invite of a peer. -/
  created : ∀ before call rest id account, calls = before ++ call :: rest →
    (afterDashboard env before).users.next ≠ 0 →
    (afterDashboard env before).users.get id = none →
    (afterDashboard env (before ++ [call])).users.get id = some account →
    ∃ g ∈ redeemed env (afterDashboard env before) call,
      IssuedByPeer env before g (effectiveRole account.role)
  /-- Every change of role was made by a peer of both roles. -/
  assigned : ∀ before call rest caller userId role db', calls = before ++ call :: rest →
    call.2 = .setUserRole caller userId role →
    performDashboard env call.1 (afterDashboard env before) call.2 = .ok db' →
    ∃ id actor target, caller = .identity (some id) ∧
      (afterDashboard env before).users.get id = some actor ∧
      (afterDashboard env before).users.get userId = some target ∧
      role.rank ≤ (effectiveRole actor.role).rank ∧
      (effectiveRole target.role).rank ≤ (effectiveRole actor.role).rank
  /-- Every owner after the first account was made one by an owner with a row. -/
  owners : ∀ before call rest id, calls = before ++ call :: rest →
    (afterDashboard env before).users.next ≠ 0 →
    ¬ IsOwner (afterDashboard env before) id →
    IsOwner (afterDashboard env (before ++ [call])) id →
    (∃ actor, call.2 = .setUserRole (.identity (some actor)) id .owner ∧
      IsOwner (afterDashboard env before) actor) ∨
    ∃ g ∈ redeemed env (afterDashboard env before) call,
      Occurs (stepDashboard env) .empty (fun db issue => ∃ inviter asked token,
        issue.2 = .invite (.identity (some inviter)) asked token ∧ IsOwner db inviter ∧
        db.signupGrants.next = g) before
  /-- No grant creates two accounts. -/
  once : (redemptions env calls).Nodup

/-- Whoever invites has a users row. -/
def InvitersHaveRows (db : AccountDb) (call : ℤ × DashboardOp) : Prop :=
  match call.2 with
  | .invite (.identity subject) _ _ => ∃ id ∈ subject, (db.users.get id).isSome = true
  | _ => True

/-- The chain from the grants of a run to the authority behind them. -/
structure GrantsIssued (db : AccountDb) : Prop where
  invites : ∀ g grant, db.signupGrants.get g = some grant → grant.kind = .invite →
    ∃ role, grant.role = some role ∧ IssuedByPeer env calls g role
  used : ∀ g ∈ redemptions env calls, ∃ grant, db.signupGrants.get g = some grant ∧ grant.usedAt ≠ none
  once : (redemptions env calls).Nodup
  nonempty : db.users.next ≠ 0 → ∃ id user, db.users.get id = some user

end

variable {env} {db db' : AccountDb} {calls : List (ℤ × DashboardOp)} {call : ℤ × DashboardOp}

/-! ## One call -/

variable {g : DocId SignupGrant} {now : ℤ} {op : DashboardOp} {id : DocId User}

variable {role : PermissionRole} {account : User}

lemma IssuedByPeer.snoc
    (h : IssuedByPeer env calls g role) : IssuedByPeer env (calls ++ [call]) g role :=
  occurs_snoc.mpr (.inl h)

section

variable (h : AccountChange env now db op db')

include h

/-- A grant that is there after a call was there before it, apart from `usedAt`, or is new. -/
lemma AccountChange.grant {grant : SignupGrant} (hg : db'.signupGrants.get g = some grant) :
    (∃ old, db.signupGrants.get g = some old ∧ grant.kind = old.kind ∧ grant.role = old.role) ∨
      g = db.signupGrants.next ∧ (grant.kind = .bootstrap ∨ ∃ caller role token,
        op = .invite caller role token ∧ caller ≠ .anonymous ∧
        Invited db caller (role.getD .admin) grant) := by
  have hinsert : ∀ new : SignupGrant, db'.signupGrants = db.signupGrants.insert new →
      db.signupGrants.get g = some grant ∨ g = db.signupGrants.next ∧ grant = new := by
    intro new hnew
    rw [hnew, get_insert] at hg
    split at hg
    · exact .inr ⟨by assumption, (some.inj hg).symm⟩
    · exact .inl hg
  cases h with
  | unchanged _ grants | roleSet _ grants _ | removed _ grants _ =>
    exact .inl ⟨grant, grants ▸ hg, rfl, rfl⟩
  | claimed new kind _ grants =>
    rcases hinsert new grants with hold | ⟨hnext, rfl⟩
    · exact .inl ⟨grant, hold, rfl, rfl⟩
    · exact .inr ⟨hnext, .inl kind⟩
  | invited new identity invited _ grants =>
    rcases hinsert new grants with hold | ⟨hnext, rfl⟩
    · exact .inl ⟨grant, hold, rfl, rfl⟩
    · exact .inr ⟨hnext, .inr ⟨_, _, _, rfl, identity, invited⟩⟩
  | signedUp g' _ signedUp =>
    rw [signedUp.grants, get_patch] at hg
    split at hg
    · obtain ⟨old, hold, rfl⟩ := map_eq_some_iff.mp hg
      exact .inl ⟨old, hold, rfl, rfl⟩
    · exact .inl ⟨grant, hg, rfl, rfl⟩

/-- A used grant stays used. -/
lemma AccountChange.used {grant : SignupGrant} (hg : db.signupGrants.get g = some grant)
    (hused : grant.usedAt ≠ none) :
    ∃ grant', db'.signupGrants.get g = some grant' ∧ grant'.usedAt ≠ none := by
  have hinsert : ∀ new : SignupGrant, db'.signupGrants = db.signupGrants.insert new →
      db'.signupGrants.get g = some grant := by
    intro new hnew
    rw [hnew, get_insert, if_neg (get_lt hg).ne, hg]
  cases h with
  | unchanged _ grants | roleSet _ grants _ | removed _ grants _ => exact ⟨grant, grants ▸ hg, hused⟩
  | claimed new _ _ grants | invited new _ _ _ grants => exact ⟨grant, hinsert new grants, hused⟩
  | signedUp g' _ signedUp =>
    rw [signedUp.grants, get_patch, hg]
    split
    · exact ⟨_, rfl, by simp⟩
    · exact ⟨grant, rfl, hused⟩

/-- No call empties the users table once an id has been handed out. -/
lemma AccountChange.nonempty (hold : db.users.next ≠ 0 → ∃ id user, db.users.get id = some user)
    (hnext : db'.users.next ≠ 0) : ∃ id user, db'.users.get id = some user := by
  cases h with
  | unchanged users _ | claimed _ _ users _ | invited _ _ _ users _ =>
    exact users ▸ hold (users ▸ hnext)
  | signedUp _ _ signedUp =>
    obtain ⟨_, _, _, _, _, user, _, _, _, husers⟩ := signedUp.unused
    exact ⟨db.users.next, user, by rw [husers, get_insert, if_pos rfl]⟩
  | @roleSet _ userId _ _ _ _ users =>
    rw [users] at hnext
    obtain ⟨id, user, hid⟩ := hold hnext
    rw [users]
    by_cases hsame : id = userId
    · exact ⟨id, _, by rw [get_patch, if_pos hsame, hid, map_some]⟩
    · exact ⟨id, user, by rw [get_patch_ne hsame, hid]⟩
  | removed removed _ users =>
    obtain ⟨id, user, hne, -, hid⟩ := removed.actor
    exact ⟨id, user, by rw [users, get_delete_ne hne, hid]⟩

end

lemma redemptions_snoc : redemptions env (calls ++ [call])
      = redemptions env calls ++ redeemed env (afterDashboard env calls) call :=
  trace_snoc

/-- A grant that is redeemed has not been redeemed before. -/
lemma redeemed_nodup (hused : ∀ g ∈ redemptions env calls,
      ∃ grant, db.signupGrants.get g = some grant ∧ grant.usedAt ≠ none)
    (honce : (redemptions env calls).Nodup) :
    (redemptions env calls ++ redeemed env db call).Nodup := by
  have hsmall : (redeemed env db call).Nodup := by
    unfold redeemed
    split
    · split
      · exact nodup_singleton _
      · exact nodup_nil
    · exact nodup_nil
  refine honce.append hsmall fun g hg hg' => ?_
  obtain ⟨grant, hget, hnone⟩ := hused g hg
  obtain ⟨grant', hget', hunused, -⟩ := (signedUp_of_redeemed hg').unused
  cases hget.symm.trans hget'
  exact hnone hunused

lemma grantsIssued_step (h : GrantsIssued env calls (afterDashboard env calls))
    (hrows : InvitersHaveRows (afterDashboard env calls) call) :
    GrantsIssued env (calls ++ [call]) (stepDashboard env (afterDashboard env calls) call) := by
  have hchange := stepDashboard_change env (afterDashboard env calls) call
  refine ⟨?_, ?_, ?_, hchange.nonempty h.nonempty⟩
  · intro g grant hg hkind
    rcases hchange.grant hg with ⟨old, hold, hk, hr⟩ | ⟨hnext, hboot | ⟨caller, role, token, hop,
      hidentity, hinvited⟩⟩
    · obtain ⟨role, hrole, hissued⟩ := h.invites g old hold (hk ▸ hkind)
      exact ⟨role, hr.trans hrole, hissued.snoc⟩
    · rw [hboot] at hkind
      cases hkind
    cases caller with
    | anonymous => exact absurd rfl hidentity
    | identity subject =>
      simp only [InvitersHaveRows, hop] at hrows
      obtain ⟨id, rfl, hrow⟩ := hrows
      obtain ⟨inviter, hid⟩ := isSome_iff_exists.mp hrow
      have hcurrent : currentUser (.identity (some id)) (afterDashboard env calls)
          = some (id, inviter) := currentUser_eq_some.mpr ⟨rfl, hid⟩
      obtain ⟨hrank, hadmin⟩ := hinvited.authority id inviter hcurrent
      have hcommits : (performDashboard env call.1 (afterDashboard env calls) call.2).isOk = true := by
        cases hperform : performDashboard env call.1 (afterDashboard env calls) call.2 with
        | ok db' => rfl
        | error e =>
          rw [stepDashboard, hperform, commit, hnext, get_next] at hg
          cases hg
      refine ⟨_, hinvited.carries, occurs_snoc.mpr (.inr ?_)⟩
      rw [IssuesAsPeer, hop]
      exact ⟨inviter, hid, hop ▸ hcommits, hnext.symm, hrank, hadmin⟩
  · intro g hg
    rw [redemptions_snoc] at hg
    rcases mem_append.mp hg with hg | hg
    · obtain ⟨grant, hget, hused⟩ := h.used g hg
      exact hchange.used hget hused
    · have hsigned := signedUp_of_redeemed hg
      obtain ⟨grant, hget, -⟩ := hsigned.unused
      rw [hsigned.grants, get_patch_self, hget]
      exact ⟨_, rfl, by simp⟩
  · rw [redemptions_snoc]
    exact redeemed_nodup h.used h.once

/-! ## Runs -/

lemma grantsIssued_empty : GrantsIssued env [] .empty := by
  refine ⟨fun g grant hg => ?_, fun _ hg => absurd hg not_mem_nil, nodup_nil, fun h => absurd rfl h⟩
  simp [AccountDb.empty] at hg

lemma grantsIssued_run (h : Meets (stepDashboard env) .empty InvitersHaveRows calls) :
    GrantsIssued env calls (afterDashboard env calls) :=
  run_invariant_of_meets (fun calls db => GrantsIssued env calls db) grantsIssued_empty
    (fun _ _ hinv hc => grantsIssued_step hinv hc) calls h

/-- A row a call adds is the account of a sign-up. -/
lemma AccountChange.created (h : AccountChange env call.1 db call.2 db')
    (hnone : db.users.get id = none) (hsome : db'.users.get id = some account) :
    ∃ g ∈ redeemed env db call, ∃ grant, db.signupGrants.get g = some grant ∧
      (grant.kind = .bootstrap → db.users.rows = []) ∧
      account.role = some (if db.users.rows.isEmpty then .owner else
        grant.role.getD (if grant.kind = .bootstrap then .owner else .admin)) := by
  obtain ⟨now, op⟩ := call
  have hsame : db'.users = db.users → False := by
    intro husers
    rw [husers, hnone] at hsome
    cases hsome
  cases h with
  | unchanged users _ | claimed _ _ users _ | invited _ _ _ users _ => exact (hsame users).elim
  | signedUp g redeems signedUp =>
    obtain ⟨grant, hget, -, hboot, input, user, hinserted, -, hrole, husers⟩ := signedUp.unused
    rw [husers, get_insert] at hsome
    split at hsome
    · cases hsome
      refine ⟨g, by rw [redeems]; exact mem_singleton_self g, grant, hget, hboot, ?_⟩
      rw [hinserted.role, hrole]
    · rw [hnone] at hsome
      cases hsome
  | roleSet _ _ users =>
    rw [users, get_patch, hnone] at hsome
    split at hsome
    · cases hsome
    · cases hsome
  | removed _ _ users =>
    rw [users, get_delete, hnone] at hsome
    split at hsome
    · cases hsome
    · cases hsome

/-- The account of a sign-up after the first redeemed an invite of a peer. -/
lemma created_by_peer (h : GrantsIssued env calls (afterDashboard env calls))
    (hnext : (afterDashboard env calls).users.next ≠ 0)
    (hnone : (afterDashboard env calls).users.get id = none)
    (hsome : (afterDashboard env (calls ++ [call])).users.get id = some account) :
    ∃ g ∈ redeemed env (afterDashboard env calls) call,
      IssuedByPeer env calls g (effectiveRole account.role) := by
  rw [afterDashboard, run_snoc] at hsome
  obtain ⟨g, hg, grant, hget, hboot, hrole⟩ :=
    (stepDashboard_change env (afterDashboard env calls) call).created hnone hsome
  obtain ⟨i, user, hi⟩ := h.nonempty hnext
  have hrows : (afterDashboard env calls).users.rows ≠ [] := ne_nil_of_mem (get_eq_some_iff.mp hi)
  have hkind : grant.kind = .invite := by
    cases hk : grant.kind with
    | bootstrap => exact absurd (hboot hk) hrows
    | invite => rfl
  obtain ⟨role, hcarries, hissued⟩ := h.invites g grant hget hkind
  refine ⟨g, hg, ?_⟩
  have hempty : (afterDashboard env calls).users.rows.isEmpty = false := by simpa using hrows
  rw [hrole, hempty, hcarries]
  exact hissued

lemma rank_owner (h : PermissionRole.owner.rank ≤ role.rank) : role = .owner := by
  cases role with
  | owner => rfl
  | admin | operator | viewer => exact absurd h (by decide)

/-- A row a call makes an owner was there, and its role was set; or it is new. -/
lemma AccountChange.owner (h : AccountChange env call.1 db call.2 db') (hnot : ¬ IsOwner db id)
    (howner : IsOwner db' id) :
    db.users.get id = none ∨ ∃ actor, call.2 = .setUserRole (.identity (some actor)) id .owner ∧
      IsOwner db actor := by
  obtain ⟨now, op⟩ := call
  obtain ⟨user, hid, hrole⟩ := howner
  have hsame : db'.users = db.users → False := fun husers => hnot ⟨user, husers ▸ hid, hrole⟩
  cases h with
  | unchanged users _ => exact (hsame users).elim
  | claimed _ _ users _ => exact (hsame users).elim
  | invited _ _ _ users _ => exact (hsame users).elim
  | signedUp g _ signedUp =>
    obtain ⟨_, _, _, _, _, new, _, _, _, husers⟩ := signedUp.unused
    rw [husers, get_insert] at hid
    split at hid
    · rename_i hnew
      exact .inl (hnew ▸ get_next)
    · exact (hnot ⟨user, hid, hrole⟩).elim
  | @roleSet caller userId role _ roleSet _ users =>
    rw [users, get_patch] at hid
    split at hid
    · rename_i hsameId
      obtain ⟨old, -, rfl⟩ := map_eq_some_iff.mp hid
      obtain rfl : role = .owner := hrole
      obtain ⟨actor, actorRow, rfl, hactor, _, _, _, hrank⟩ := roleSet.actor
      exact .inr ⟨actor, by rw [hsameId], actorRow, hactor, rank_owner hrank⟩
    · exact (hnot ⟨user, hid, hrole⟩).elim
  | removed _ _ users =>
    rw [users, get_delete] at hid
    split at hid
    · cases hid
    · exact (hnot ⟨user, hid, hrole⟩).elim

/-- **Power comes from power.**  In every run in which whoever invites has a users row — whatever
else the callers present, in any order — each account after the first redeemed an invite of a
peer, each change of role was a peer's, each further owner was made by an owner with a row,
and no grant created two accounts. -/
theorem power_comes_from_power (env : AccountEnv) (calls : List (ℤ × DashboardOp))
    (h : Meets (stepDashboard env) .empty InvitersHaveRows calls) : PowerFromPower env calls where
  created before call rest id account hsplit hnext hnone hsome :=
    created_by_peer (grantsIssued_run (hsplit ▸ h).left) hnext hnone hsome
  assigned before call rest caller userId role db' hsplit hop hok := by
    rw [hop] at hok
    obtain ⟨hset, -⟩ := setUserRole_change hok
    obtain ⟨id, actor, hcaller, hactor, target, htarget, hold, hnew⟩ := hset.actor
    exact ⟨id, actor, target, hcaller, hactor, htarget, hnew, hold⟩
  owners before call rest id hsplit hnext hnot howner := by
    have hinv := grantsIssued_run (hsplit ▸ h).left
    have hchange := stepDashboard_change env (afterDashboard env before) call
    have hrun : afterDashboard env (before ++ [call])
        = stepDashboard env (afterDashboard env before) call := run_snoc
    rcases hchange.owner hnot (hrun ▸ howner) with hnone | hset
    · obtain ⟨account, hid, hrole⟩ := howner
      obtain ⟨g, hg, hissued⟩ := created_by_peer hinv hnext hnone hid
      refine .inr ⟨g, hg, hissued.imp fun db issue hissue => ?_⟩
      unfold IssuesAsPeer at hissue
      split at hissue
      · rename_i inviter asked token hop
        obtain ⟨row, hrow, -, hg', hrank, -⟩ := hissue
        rw [hrole] at hrank
        exact ⟨inviter, asked, token, hop, ⟨row, hrow, rank_owner hrank⟩, hg'⟩
      · exact hissue.elim
    · exact .inl hset
  once := (grantsIssued_run h).once

/-! ## A removed account -/

section Examples

instance (env : AccountEnv) (g : DocId SignupGrant) (role : PermissionRole) (db : AccountDb)
    (call : ℤ × DashboardOp) : Decidable (IssuesAsPeer env g role db call) := by
  unfold IssuesAsPeer
  split <;> infer_instance

instance (db : AccountDb) (call : ℤ × DashboardOp) : Decidable (InvitersHaveRows db call) := by
  unfold InvitersHaveRows
  split <;> infer_instance

def bootstrapSecret : String := "0123456789abcdef0123456789abcdef"

/-- The operator claims the instance and signs up, and invites a viewer, who signs up too. -/
def ownerInvitesViewer : List (ℤ × DashboardOp) :=
  [(0, .claim (some bootstrapSecret) "t0" bootstrapSecret),
    (1, .signUp none (some "a@example.org") (some "t0")),
    (2, .invite (.identity (some 0)) (some .viewer) "t1"),
    (3, .signUp none (some "b@example.org") (some "t1"))]

/-- The viewer's account came from the owner's. -/
theorem power_comes_from_power_viewer :
    (afterDashboard plainEnv ownerInvitesViewer).users.count
        (fun user => user.role = some .viewer) = 1 ∧
      PowerFromPower plainEnv ownerInvitesViewer :=
  ⟨by decide, power_comes_from_power plainEnv _ (by decide)⟩

/-- The owner then removes the viewer, whose identity token is still good, and who invites an
owner. -/
def removedInvitesOwner : List (ℤ × DashboardOp) :=
  ownerInvitesViewer ++ [(4, .removeUser (.identity (some 0)) 1),
    (5, .invite (.identity (some 1)) (some .owner) "t2")]

/-- The sign-up that redeems the removed account's invite. -/
def ownerSignsUp : ℤ × DashboardOp := (6, .signUp none (some "c@example.org") (some "t2"))

/-- The identity a call presents, for the calls that read one. -/
def DashboardOp.caller : DashboardOp → Option Caller
  | .claim _ _ _ => none
  | .invite caller _ _ => some caller
  | .signUp _ _ _ => none
  | .setUserRole caller _ _ => some caller
  | .removeUser caller _ => some caller

/-- An identity names a users row that exists or one that was removed. -/
def CallersKnown (db : AccountDb) (call : ℤ × DashboardOp) : Prop :=
  ∀ caller ∈ call.2.caller, ∃ id < db.users.next, caller = .identity (some id)

instance (db : AccountDb) (call : ℤ × DashboardOp) : Decidable (CallersKnown db call) := by
  unfold CallersKnown
  infer_instance

/-- An identity that was issued for an account and outlives it can still invite an owner: no grant
the new owner's account redeemed was issued by anyone with a row. -/
theorem removed_account_invites_owner :
    Meets (stepDashboard plainEnv) .empty CallersKnown (removedInvitesOwner ++ [ownerSignsUp]) ∧
      ¬ PowerFromPower plainEnv (removedInvitesOwner ++ [ownerSignsUp]) := by
  refine ⟨by decide, fun h => ?_⟩
  obtain ⟨g, hg, hissued⟩ := h.created removedInvitesOwner ownerSignsUp [] 2
    ⟨none, some "c@example.org", some .owner, none, none⟩ rfl (by decide)
    (by decide) (by decide)
  have hredeemed : redeemed plainEnv (afterDashboard plainEnv removedInvitesOwner) ownerSignsUp
      = [2] := by decide
  rw [hredeemed, mem_singleton] at hg
  subst hg
  have hnobody : ¬ Occurs (stepDashboard plainEnv) .empty (IssuesAsPeer plainEnv 2 .owner)
      removedInvitesOwner := by decide
  exact hnobody hissued

end Examples

end EraInfra
