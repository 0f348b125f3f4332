import EraInfra.Infra.Plane

/-!
# What commands and leases do to the plane

One lemma per function of `leases.ts`, `nodeCommands.ts` and `logs.ts`: what it has read when it
commits, and which moves it makes.  Those of the pipeline are in `Infra/RunMoves.lean`.
-/

namespace EraInfra.Infra

open DocStore List Option Table Function

variable {db db' : Db} {env : Environment} {now : ℤ} {p p' : Plane}

/-! ## Steps -/

lemma Steps.refl (p : Plane) : Steps now p p := Relation.ReflTransGen.refl

lemma Steps.one (h : Step now p p') : Steps now p p' := Relation.ReflTransGen.single h

lemma Steps.trans {p'' : Plane} (h : Steps now p p') (h' : Steps now p' p'') : Steps now p p'' :=
  Relation.ReflTransGen.trans h h'

lemma Steps.of_eq (h : p' = p) : Steps now p p' := by
  rw [h]
  exact Steps.refl p

/-- A call that writes nothing makes no step. -/
lemma Steps.of_pure (h : (pure db : Except String Db) = .ok db') : Steps now db.plane db'.plane := by
  rw [pure_ok] at h
  exact Steps.of_eq (by rw [h])

lemma Steps.of_answer {σ : Type} {a b : σ × Db} (h : (pure a : Except String (σ × Db)) = .ok b) :
    Steps now a.2.plane b.2.plane := by
  rw [pure_ok] at h
  exact Steps.of_eq (by rw [h])

/-! ## Tables and maps -/

variable {α : Type} {t : Table α} {id j commandId : DocId CommandRow} {row : CommandRow}
  {app credential : String} {epoch : ℤ} {nodeId : DocId Node} {input : CommandInput} {args : ReportArgs}
  {caller : ApiCaller}

lemma get_patch_update {i : DocId α} {a : α} (f : α → α)
    (h : t.get i = some a) : (t.patch i f).get = update t.get i (some (f a)) := by
  funext j
  by_cases hj : j = i
  · subst hj
    simp [h]
  · simp [get_patch_ne hj, update_of_ne hj]

lemma get_insert_update (a : α) : (t.insert a).get = update t.get t.next (some a) := by
  funext j
  rw [get_insert]
  by_cases hj : j = t.next
  · subst hj
    simp
  · simp [hj]

lemma get_delete_update {i : DocId α} : (t.delete i).get = update t.get i none := by
  funext j
  rw [get_delete]
  by_cases hj : j = i
  · subst hj
    simp
  · simp [hj]

lemma plane_patchDeployment {id : DocId AppDeployment} {run : AppDeployment}
    (f : AppDeployment → AppDeployment) (h : db.appDeployments.get id = some run) :
    (db.patchDeployment id f).plane = db.plane.setRun id (some (f run)) := by
  simp only [Db.plane, Db.patchDeployment, get_patch_update f h]
  rfl

lemma plane_patchCommand (f : CommandRow → CommandRow) (h : db.nodeCommands.get id = some row) :
    (db.patchCommand id f).plane
      = { db.plane with command := update db.plane.command id (some (f row)) } := by
  simp only [Db.plane, Db.patchCommand, get_patch_update f h]
  rfl

/-! ## Leases -/

lemma lease_of_leaseRow {row : Option (DocId AppLease × AppLease)}
    (h : leaseRow db app = .ok row) : db.lease app = leaseOf row := by
  cases row with
  | none => simp [Db.lease, unique_none h, leaseOf]
  | some entry =>
    rcases unique_some h with ⟨hget, happ, honly⟩
    simp [Db.lease, collect_eq_singleton hget happ honly, leaseOf]

/-- The leases after the row of one App has been rewritten. -/
lemma lease_patchLease {id : DocId AppLease} {row : AppLease}
    (f : AppLease → AppLease) (h : leaseRow db app = .ok (some (id, row))) (happ : (f row).app = app) :
    (db.patchLease id f).lease = update db.lease app (some (f row)) := by
  rcases unique_some h with ⟨hget, hrow, honly⟩
  simp only [decide_eq_true_eq] at hrow
  funext a
  have hcollect : (db.appLeases.patch id f).collect (fun row => row.app = a)
      = (db.appLeases.collect fun row => row.app = a).map
          fun r => (r.1, if r.1 = id then f r.2 else r.2) := by
    refine collect_patch fun b hb => ?_
    rw [some.inj (hb.symm.trans hget), happ, hrow]
  simp only [Db.lease, Db.patchLease, hcollect]
  by_cases ha : a = app
  · subst ha
    rw [collect_eq_singleton hget (by simpa using hrow) (by simpa using honly)]
    simp
  rw [update_of_ne ha]
  have hmap : (db.appLeases.collect fun row => row.app = a).map
      (fun r => (r.1, if r.1 = id then f r.2 else r.2))
      = db.appLeases.collect fun row => row.app = a := by
    refine (map_congr_left ?_).trans (map_id _)
    rintro ⟨j, b⟩ hb
    rcases mem_collect.mp hb with ⟨hj, happ⟩
    have hne : j ≠ id := by
      rintro rfl
      rw [some.inj (hj.symm.trans hget)] at happ
      exact ha ((of_decide_eq_true happ).symm.trans hrow)
    simp [hne]
  rw [hmap]
  rfl

lemma lease_insert (row : AppLease) (h : leaseRow db row.app = .ok none) :
    ({ db with appLeases := db.appLeases.insert row } : Db).lease
      = update db.lease row.app (some row) := by
  funext a
  simp only [Db.lease, collect_insert]
  by_cases ha : a = row.app
  · subst ha
    simp [unique_none h]
  · simp [update_of_ne ha, Ne.symm ha, Db.lease]

lemma leaseAdmits_iff {lease : Option AppLease} : leaseAdmits lease epoch now = true ↔
      ∃ row, lease = some row ∧ row.holder ≠ none ∧ row.epoch = epoch ∧ now < row.expiresAt := by
  cases lease with
  | none => simp [leaseAdmits]
  | some row => simp [leaseAdmits, and_assoc]

lemma assertAppLease_ok {id : DocId AppLease} {row : AppLease}
    (h : assertAppLease now app epoch db = .ok (id, row)) :
    leaseRow db app = .ok (some (id, row)) ∧ leaseAdmits (db.lease app) epoch now = true := by
  rcases bind_ok.mp h with ⟨found, hfound, h⟩
  cases found with
  | none => cases h
  | some entry =>
    simp only at h
    split_ifs at h with hadmits
    cases h
    exact ⟨hfound, by rw [lease_of_leaseRow hfound]; exact hadmits⟩

/-- What acquiring a lease does: nothing, or the App's lease is the holder's. -/
lemma acquireAppLease_ok {input : AcquireInput} {decision : LeaseDecision}
    (h : acquireAppLease now input db = .ok (decision, db')) :
    ((∃ heldBy expiresAt, decision = .refuse heldBy expiresAt) ∧ db' = db) ∨
      ∃ lease renewed leases, decision = .grant lease.epoch renewed ∧
        decideLease (db.lease input.app) input.holder now = .grant lease.epoch renewed ∧
        lease.app = input.app ∧ lease.holder = some input.holder ∧
        lease.expiresAt = now + appLeaseTtlMs ∧ db' = { db with appLeases := leases } ∧
        db'.lease = update db.lease input.app (some lease) := by
  rcases bind_ok.mp h with ⟨row, hrow, h⟩
  have hlease := lease_of_leaseRow hrow
  rw [← hlease] at h
  cases hdecision : decideLease (db.lease input.app) input.holder now with
  | refuse heldBy expiresAt =>
    simp only [hdecision, pure_ok, Prod.mk.injEq] at h
    exact .inl ⟨⟨heldBy, expiresAt, h.1.symm⟩, h.2.symm⟩
  | grant epoch renewed =>
    right
    cases row with
    | none =>
      simp only [hdecision] at h
      rcases h with ⟨rfl, rfl⟩
      exact ⟨⟨input.app, some input.holder, some input.operation, epoch, now + appLeaseTtlMs, now⟩,
        renewed, _, rfl, rfl, rfl, rfl, rfl, rfl, lease_insert _ hrow⟩
    | some entry =>
      simp only [hdecision] at h
      rcases h with ⟨rfl, rfl⟩
      have happ := (unique_some hrow).2.1
      exact ⟨{ entry.2 with
          holder := some input.holder, operation := some input.operation, epoch := epoch
          expiresAt := now + appLeaseTtlMs
          acquiredAt := if renewed then entry.2.acquiredAt else now },
        renewed, _, rfl, rfl, of_decide_eq_true happ, rfl, rfl, rfl,
        lease_patchLease _ hrow (of_decide_eq_true happ)⟩

lemma renewAppLease_ok (h : renewAppLease now app epoch db = .ok db') :
    ∃ lease leases, db.lease app = some lease ∧ db' = { db with appLeases := leases } ∧
      db'.lease = update db.lease app (some { lease with expiresAt := now + appLeaseTtlMs }) := by
  rcases bind_ok.mp h with ⟨⟨id, row⟩, hassert, h⟩
  rcases assertAppLease_ok hassert with ⟨hrow, -⟩
  cases h
  have happ := (unique_some hrow).2.1
  exact ⟨row, _, lease_of_leaseRow hrow, rfl, lease_patchLease _ hrow (of_decide_eq_true happ)⟩

/-- Giving up a lease that is held. -/
lemma releaseAppLease_ok {lease : AppLease}
    (hlease : db.lease app = some lease) (hepoch : lease.epoch = epoch) (hholder : lease.holder ≠ none)
    (h : releaseAppLease app epoch db = .ok db') :
    ∃ leases, db' = { db with appLeases := leases } ∧ db'.lease
        = update db.lease app (some { lease with holder := none, operation := none }) := by
  rcases bind_ok.mp h with ⟨row, hrow, h⟩
  rw [lease_of_leaseRow hrow] at hlease
  rcases row with _ | entry
  · simp [leaseOf] at hlease
  simp only [leaseOf, map_some, some.injEq] at hlease
  subst hlease
  simp only [hepoch, true_and, if_pos hholder] at h
  cases h
  have happ := (unique_some hrow).2.1
  exact ⟨_, rfl, lease_patchLease _ hrow (of_decide_eq_true happ)⟩

/-! ## Queueing and cancelling -/

/-- A queued command is one that was there under its key, or a new one. -/
lemma insertNodeCommand_ok (h : insertNodeCommand now input db = .ok (id, db')) :
    (db' = db ∧ ∃ prior, db.nodeCommands.get id = some prior ∧ prior.nodeId = input.nodeId ∧
        prior.idempotencyKey = input.idempotencyKey ∧
        prior.command.canonical = input.command.canonical) ∨ (id = db.nodeCommands.next ∧
        db' = { db with nodeCommands := db.nodeCommands.insert (queuedRow now input) } ∧
        ∀ j row, db.nodeCommands.get j = some row → row.nodeId = input.nodeId →
          row.idempotencyKey ≠ input.idempotencyKey) := by
  simp only [insertNodeCommand, keyOK] at h
  rw [refuseIf_bind_ok, bind_ok] at h
  rcases h with ⟨-, prior, hprior, h⟩
  cases prior with
  | some entry =>
    rw [refuseIf_bind_ok] at h
    rcases h with ⟨hsame, h⟩
    cases h
    rcases unique_some hprior with ⟨hget, hkey, -⟩
    simp only [decide_eq_true_eq] at hkey
    exact .inl ⟨rfl, entry.2, hget, hkey.1, hkey.2, not_ne_iff.mp hsame⟩
  | none =>
    rw [refuseIf_bind_ok] at h
    cases h.2
    refine .inr ⟨rfl, rfl, fun j row hrow hnode hkey => ?_⟩
    have hnot := not_of_unique_none hprior hrow
    simp [hnode, hkey] at hnot

/-- Steps that write the commands only. -/
structure CommandSteps (now : ℤ) (db db' : Db) : Prop where
  steps : Steps now db.plane db'.plane
  frame : ∃ commands, db' = { db with nodeCommands := commands }

lemma CommandSteps.refl (db : Db) : CommandSteps now db db := ⟨Steps.refl _, db.nodeCommands, rfl⟩

lemma CommandSteps.trans {db'' : Db} (h : CommandSteps now db db') (h' : CommandSteps now db' db'') :
    CommandSteps now db db'' := by
  rcases h.frame with ⟨_, rfl⟩
  rcases h'.frame with ⟨commands, rfl⟩
  exact ⟨h.steps.trans h'.steps, commands, rfl⟩

lemma CommandSteps.foldl {α : Type} {f : Db → α → Db} (h : ∀ db a, CommandSteps now db (f db a))
    (l : List α) (db : Db) : CommandSteps now db (l.foldl f db) := by
  induction l generalizing db with
  | nil => exact CommandSteps.refl db
  | cons a l ih => exact (h db a).trans (ih (f db a))

lemma insertNodeCommand_steps
    (horigin : Origin now db.plane input) (h : insertNodeCommand now input db = .ok (id, db')) :
    CommandSteps now db db' := by
  rcases insertNodeCommand_ok h with ⟨rfl, -⟩ | ⟨-, rfl, hkey⟩
  · exact CommandSteps.refl db'
  refine ⟨Steps.one ?_, _, rfl⟩
  have hplane : { db with nodeCommands := db.nodeCommands.insert (queuedRow now input) }.plane
      = { db.plane with
          command := update db.plane.command db.nodeCommands.next (some (queuedRow now input)) } := by
    simp only [Db.plane, get_insert_update]
    rfl
  rw [hplane]
  exact Step.command _ (CommandMove.queue _ input get_next hkey horigin)

variable {entry : DocId CommandRow × CommandRow} {user : Option User} {owner : String}
  {deploymentId : DocId AppDeployment} {answer : Except String (DocId LogTail)} {lines : Option ℤ}
  {query : LogQuery}

lemma cancelOpen_steps (h : db.nodeCommands.get entry.1 = some entry.2) :
    CommandSteps now db (cancelOpen now db entry) := by
  simp only [cancelOpen]
  split_ifs with hopen
  · refine ⟨?_, _, rfl⟩
    rw [plane_patchCommand (cancelledRow now) h]
    exact Steps.one (Step.command _ (CommandMove.cancel _ _ h hopen))
  · exact CommandSteps.refl db

/-- A loop of cancellations, over rows as they were read. -/
lemma cancels_steps {entries : List (DocId CommandRow × CommandRow)}
    (hdistinct : entries.Pairwise fun r s => r.1 ≠ s.1)
    (hstored : ∀ entry ∈ entries, db.nodeCommands.get entry.1 = some entry.2) :
    CommandSteps now db (entries.foldl (cancelOpen now) db) := by
  refine foldlM_rows (fun s i => s.nodeCommands.get i) (CommandSteps now db)
    (foldlM_ok (cancelOpen now) db) hdistinct hstored (CommandSteps.refl db) ?_
  rintro entry - s _ hsteps hfound ⟨⟩
  refine ⟨hsteps.trans (cancelOpen_steps hfound), fun i hi => ?_⟩
  simp only [cancelOpen]
  split_ifs
  · exact get_patch_ne hi
  · rfl

lemma cancel_steps (h : cancel now user commandId db = .ok db') : Steps now db.plane db'.plane := by
  simp only [cancel] at h
  cases hrow : db.nodeCommands.get commandId with
  | none =>
    rw [hrow] at h
    cases h
  | some row =>
    simp only [hrow] at h
    rcases bind_ok.mp h with ⟨_, -, h⟩
    cases h
    exact (cancelOpen_steps hrow).steps

/-! ## Claims -/

lemma ownCommand_ok (h : ownCommand env credential commandId db = .ok row) :
    db.nodeCommands.get commandId = some row ∧ requireNode env credential db = .ok row.nodeId := by
  rcases bind_ok.mp h with ⟨nodeId, hnode, h⟩
  cases hrow : db.nodeCommands.get commandId with
  | none =>
    rw [hrow] at h
    cases h
  | some stored =>
    simp only [hrow] at h
    rcases refuseIf_bind_ok.mp h with ⟨hsame, ⟨⟩⟩
    exact ⟨rfl, by rw [hnode, not_ne_iff.mp hsame]⟩

lemma inFence_of_appFence (h : appFence now row db = .ok ()) : InFence db.lease now row := by
  intro app epoch happ hepoch
  simp only [appFence, happ, hepoch] at h
  rcases bind_ok.mp h with ⟨⟨id, lease⟩, hassert, -⟩
  exact (assertAppLease_ok hassert).2

/-- A live claim: whose it is, and that its App is not another run's. -/
lemma claimed_ok {args : ClaimArgs} (h : claimed env now args db = .ok row) :
    db.nodeCommands.get args.commandId = some row ∧
      requireNode env args.credential db = .ok row.nodeId ∧ row.isLeased now = true ∧
      row.owner = some args.owner ∧ row.epoch = args.epoch ∧ appFence now row db = .ok () := by
  rcases bind_ok.mp h with ⟨stored, hown, h⟩
  rw [refuseIf_bind_ok, bind_ok] at h
  rcases h with ⟨hclaim, ⟨⟩, hfence, h⟩
  cases h
  simp only [not_or, not_ne_iff, Bool.not_eq_false] at hclaim
  exact ⟨(ownCommand_ok hown).1, (ownCommand_ok hown).2, hclaim.1, hclaim.2.1, hclaim.2.2, hfence⟩

/-- The scan for another active command reads every one there is, or refuses. -/
lemma alone_of_hasOtherActive (h : hasOtherActive now commandId nodeId db = false) {other : CommandRow}
    (hother : db.nodeCommands.get j = some other) (hne : j ≠ commandId) (hnode : other.nodeId = nodeId) :
    other.isLeased now = false := by
  simp only [hasOtherActive, Bool.or_eq_false_iff, decide_eq_false_iff_not] at h
  rcases h with ⟨hfew, hnone⟩
  by_contra hleased
  simp only [CommandRow.isLeased, Bool.not_eq_false, Bool.and_eq_true] at hleased
  -- the list that was read is not cut off, since it has at 200
  have hall : (commandsWith db nodeId .running).take 201 = commandsWith db nodeId .running := by
    rw [length_take] at hfew
    exact take_of_length_le (by omega)
  rw [hall, List.any_eq_false] at hnone
  have hmem : (j, other) ∈ commandsWith db nodeId .running := by
    simp [commandsWith, mem_collect, hother, hnode, hleased.1]
  have hfree := hnone (j, other) hmem
  simp [hne, hleased.2] at hfree

lemma claim_ok {answer : Claim} (h : claim env now credential commandId owner db = .ok (answer, db')) :
    ∃ row, db.nodeCommands.get commandId = some row ∧ row.isOpen = true ∧ appFence now row db = .ok () ∧
      ((row.isLeased now = true ∧ row.owner = some owner ∧ db' = db ∧ answer.epoch = row.epoch) ∨
        (row.isLeased now = false ∧ hasOtherActive now commandId row.nodeId db = false ∧
          db' = db.patchCommand commandId (claimedRow now owner) ∧ answer.epoch = row.epoch + 1)) := by
  simp only [claim, keyOK] at h
  rw [refuseIf_bind_ok, bind_ok] at h
  rcases h with ⟨-, row, hown, h⟩
  rcases bind_ok.mp h with ⟨⟨⟩, hfence, h⟩
  rcases refuseIf_bind_ok.mp h with ⟨hopen, h⟩
  refine ⟨row, (ownCommand_ok hown).1, by simpa using hopen, hfence, ?_⟩
  split_ifs at h with hleased
  · rw [refuseIf_bind_ok] at h
    rcases h with ⟨howner, h⟩
    cases h
    exact .inl ⟨hleased, not_ne_iff.mp howner, rfl, rfl⟩
  · rw [refuseIf_bind_ok] at h
    rcases h with ⟨hother, h⟩
    cases h
    exact .inr ⟨by simpa using hleased, by simpa using hother, rfl, rfl⟩

lemma claim_steps {answer : Claim}
    (h : claim env now credential commandId owner db = .ok (answer, db')) :
    Steps now db.plane db'.plane := by
  rcases claim_ok h with ⟨row, hrow, hopen, hfence, ⟨-, -, rfl, -⟩ | ⟨hfree, hother, rfl, -⟩⟩
  · exact Steps.refl _
  · rw [plane_patchCommand _ hrow]
    exact Steps.one (Step.command _ (CommandMove.claim _ _ owner hrow hopen hfree
      (fun j other hget hne hnode => alone_of_hasOtherActive hother hget hne hnode)
      (inFence_of_appFence hfence)))

lemma renew_steps {args : ClaimArgs} {leaseUntil : ℤ}
    (h : renew env now args db = .ok (leaseUntil, db')) : Steps now db.plane db'.plane := by
  rcases bind_ok.mp h with ⟨row, hclaimed, h⟩
  cases h
  rcases claimed_ok hclaimed with ⟨hrow, -, hleased, -, -, hfence⟩
  rw [plane_patchCommand _ hrow]
  exact Steps.one (Step.command _ (CommandMove.renew _ _ hrow hleased (inFence_of_appFence hfence)))

/-- Only a tail of the command that is still pending is written, and only with what was uploaded. -/
lemma recordLogOutput_ok (h : recordLogOutput env commandId args db = .ok db') :
    db' = db ∨ ∃ id row, db.logTails.get id = some row ∧ row.commandId = some commandId ∧
      (db' = db.patchTail id (fun row => { row with state := .failed }) ∨
        args.outcome = .success ∧ ∃ bytes, decodeBase64 env (args.output.getD "") = some bytes ∧
          db' = db.patchTail id (readyTail env bytes args.truncated)) := by
  simp only [recordLogOutput] at h
  rcases bind_ok.mp h with ⟨found, hfound, h⟩
  rcases found with _ | entry
  · cases h
    exact .inl rfl
  rcases unique_some hfound with ⟨hrow, hcommand, -⟩
  simp only at h
  split_ifs at h with hstate houtcome
  · cases h
    exact .inl rfl
  · rw [pure_ok] at h
    exact .inr ⟨entry.1, entry.2, hrow, of_decide_eq_true hcommand, .inl h.symm⟩
  split at h
  · cases h
  · rename_i bytes hbytes
    rw [refuseIf_bind_ok, pure_ok] at h
    exact .inr ⟨entry.1, entry.2, hrow, of_decide_eq_true hcommand,
      .inr ⟨not_ne_iff.mp houtcome, bytes, hbytes, h.2.symm⟩⟩

/-- Storing the output of a log tail writes the tails only. -/
lemma recordLogOutput_frame (h : recordLogOutput env commandId args db = .ok db') :
    ∃ tails, db' = { db with logTails := tails } := by
  rcases recordLogOutput_ok h with rfl | ⟨_, _, -, -, rfl | ⟨-, _, -, rfl⟩⟩
  all_goals exact ⟨_, rfl⟩

/-- A report repeats one that was made, or is made under the live claim of its owner and epoch. -/
lemma report_ok (h : report env now args db = .ok db') :
    (db' = db ∧ ∃ row, db.nodeCommands.get args.commandId = some row ∧
        row.status = args.outcome.status) ∨
      ∃ row stored, claimed env now args.toClaimArgs db = .ok row ∧
      ((row.command.kind = .logs ∧ recordLogOutput env args.commandId args db = .ok stored) ∨
        (row.command.kind ≠ .logs ∧ stored = db)) ∧
      db' = stored.patchCommand args.commandId (reportedRow now args.outcome args.spec) := by
  rcases bind_ok.mp h with ⟨row, hown, h⟩
  split_ifs at h with hagain hlogs
  · cases h
    exact .inl ⟨rfl, row, (ownCommand_ok hown).1, hagain.1⟩
  all_goals
    rcases bind_ok.mp h with ⟨row', hclaimed, h⟩
    have hsame : row' = row := some.inj ((claimed_ok hclaimed).1.symm.trans (ownCommand_ok hown).1)
    subst hsame
    rw [refuseIf_bind_ok, refuseIf_bind_ok, refuseIf_bind_ok, bind_ok] at h
    rcases h with ⟨-, -, -, stored, hstored, h⟩
    rw [pure_ok] at h
  · exact .inr ⟨row', stored, hclaimed, .inl ⟨hlogs, hstored⟩, h.symm⟩
  · rw [pure_ok] at hstored
    exact .inr ⟨row', stored, hclaimed, .inr ⟨hlogs, hstored.symm⟩, h.symm⟩

/-- What a report stores besides the row leaves the commands alone. -/
lemma nodeCommands_of_stored {stored : Db}
    (h : (row.command.kind = .logs ∧ recordLogOutput env args.commandId args db = .ok stored) ∨
      (row.command.kind ≠ .logs ∧ stored = db)) : stored.nodeCommands = db.nodeCommands := by
  rcases h with ⟨-, hrecord⟩ | ⟨-, rfl⟩
  · rcases recordLogOutput_frame hrecord with ⟨tails, rfl⟩
    rfl
  · rfl

lemma report_steps (h : report env now args db = .ok db') : Steps now db.plane db'.plane := by
  rcases report_ok h with ⟨rfl, -⟩ | ⟨row, stored, hclaimed, hstored, rfl⟩
  · exact Steps.refl _
  rcases claimed_ok hclaimed with ⟨hrow, -, hleased, -, -, hfence⟩
  have hframe : ∃ tails, stored = { db with logTails := tails } := by
    rcases hstored with ⟨-, hrecord⟩ | ⟨-, rfl⟩
    · exact recordLogOutput_frame hrecord
    · exact ⟨stored.logTails, rfl⟩
  rcases hframe with ⟨tails, rfl⟩
  have hrow' : { db with logTails := tails }.nodeCommands.get args.commandId = some row := hrow
  rw [plane_patchCommand _ hrow']
  exact Steps.one (Step.command _ (CommandMove.report _ _ args.outcome args.spec hrow hleased
    (inFence_of_appFence hfence)))

/-! ## What people and tokens call -/

lemma activeDeployment_ok {operation : LeaseOperation} {role : DeployRole} {dep : AppDeployment}
    (h : activeDeployment now deploymentId nodeId operation role db = .ok dep) :
    db.appDeployments.get deploymentId = some dep ∧ role.admits dep nodeId = true ∧
      isTerminalStage dep.stage = false ∧ ∃ epoch id lease, dep.leaseEpoch = some epoch ∧
        assertAppLease now dep.app epoch db = .ok (id, lease) ∧ lease.operation = some operation := by
  simp only [activeDeployment] at h
  rcases hdep : db.appDeployments.get deploymentId with _ | stored
  · rw [hdep] at h
    cases h
  simp only [hdep] at h
  rcases hepoch : stored.leaseEpoch with _ | epoch
  · rw [hepoch] at h
    cases h
  simp only [hepoch] at h
  rw [refuseIf_bind_ok, bind_ok] at h
  rcases h with ⟨hactive, ⟨id, lease⟩, hassert, h⟩
  rcases refuseIf_bind_ok.mp h with ⟨hoperation, ⟨⟩⟩
  simp only [not_or, Bool.not_eq_false, Bool.not_eq_true] at hactive
  exact ⟨rfl, hactive.1, hactive.2, epoch, id, lease, hepoch, hassert, not_ne_iff.mp hoperation⟩

lemma deploymentSpec_ok {operation : Option LeaseOperation} {spec : DeploymentSpec}
    (h : deploymentSpec env now deploymentId nodeId operation db = .ok spec) :
    activeDeployment now deploymentId nodeId (operation.getD .deploy) .deploy db = .ok spec.dep ∧
      spec.app = spec.dep.app ∧ ∃ stored placement, appByName db spec.dep.app = .ok stored ∧
        placementOf spec.dep stored = some placement ∧ spec.services = servicesOn nodeId placement ∧
        spec.services ≠ [] := by
  rcases bind_ok.mp h with ⟨dep, hactive, h⟩
  rcases bind_ok.mp h with ⟨stored, hstored, h⟩
  cases hplacement : placementOf dep stored with
  | none =>
    rw [hplacement] at h
    cases h
  | some placement =>
    simp only [hplacement] at h
    rw [refuseIf_bind_ok, refuseIf_bind_ok, forM_bind_ok, refuseIf_bind_ok, pure_ok] at h
    rcases h with ⟨hcount, -, -, -, rfl⟩
    exact ⟨hactive, rfl, stored, placement, hstored, hplacement, rfl, fun hnil => hcount (.inl hnil)⟩

lemma enqueue_steps {key : String} {command : NodeCommand}
    (h : enqueue env now user nodeId key command db = .ok (id, db')) :
    Steps now db.plane db'.plane := by
  simp only [enqueue, keyOK] at h
  rw [refuseIf_bind_ok, refuseIf_bind_ok, bind_ok] at h
  rcases h with ⟨-, -, -, -, h⟩
  rw [refuseIf_bind_ok, refuseIf_bind_ok, bind_ok] at h
  rcases h with ⟨-, -, prior, -, h⟩
  cases prior with
  | some entry =>
    rw [refuseIf_bind_ok] at h
    exact Steps.of_answer h.2
  | none =>
    cases command with
    | operate operation =>
      rcases bind_ok.mp h with ⟨-, -, h⟩
      exact (insertNodeCommand_steps (Origin.plain rfl rfl rfl) h).steps
    | deploy deploymentId operation =>
      rcases bind_ok.mp h with ⟨spec, hspec, h⟩
      rcases activeDeployment_ok (deploymentSpec_ok hspec).1 with
        ⟨hdep, -, hopen, epoch, leaseId, lease, hepoch, hassert, -⟩
      exact (insertNodeCommand_steps (Origin.ofRun deploymentId spec.dep epoch rfl (.inl rfl) hdep
        hopen rfl hepoch (assertAppLease_ok hassert).2 hepoch) h).steps
    | spec deploymentId => cases h
    | build deploymentId service => cases h
    | logs operation => cases h

/-- A request that is answered has left the database as it was, or queued its command and bound a
new tail to it. -/
lemma request_ok (h : request now caller query lines db = .ok (answer, db')) : db' = db ∨
      ∃ nodeId target count commandId queued, answer = .ok db.logTails.next ∧
        insertNodeCommand now ⟨nodeId, "logs:" ++ idText db.logTails.next,
            .logs (operationFor target count), none, none, none⟩
          { db with logTails := db.logTails.insert (requestedTail now caller nodeId target count) }
            = .ok (commandId, queued) ∧
        db' = queued.patchTail db.logTails.next fun row => { row with commandId := some commandId } := by
  rcases bind_ok.mp h with ⟨_, -, h⟩
  cases hresolve : resolveRequest now query lines db with
  | error message =>
    simp only [hresolve] at h
    rcases refuseIf_bind_ok.mp h with ⟨-, ⟨⟩⟩
    exact .inl rfl
  | ok resolved =>
    rcases resolved with ⟨nodeId, target, count⟩
    simp only [hresolve] at h
    rcases bind_ok.mp h with ⟨⟨commandId, queued⟩, hinsert, h⟩
    cases h
    exact .inr ⟨nodeId, target, count, commandId, queued, rfl, hinsert, rfl⟩

lemma request_steps
    (h : request now caller query lines db = .ok (answer, db')) : Steps now db.plane db'.plane := by
  rcases request_ok h with rfl | ⟨nodeId, target, count, commandId, queued, -, hinsert, rfl⟩
  · exact Steps.refl _
  have hplain : Origin now
      ({ db with logTails := db.logTails.insert (requestedTail now caller nodeId target count) } :
        Db).plane
      ⟨nodeId, "logs:" ++ idText db.logTails.next, .logs (operationFor target count), none, none,
        none⟩ := Origin.plain rfl rfl rfl
  have hsteps := (insertNodeCommand_steps hplain hinsert).steps
  exact hsteps

lemma discard_steps (id : DocId LogTail) (row : LogTail) :
    Steps now db.plane (discard now id row db).plane := by
  simp only [discard]
  rcases row.commandId with _ | commandId
  · exact Steps.refl _
  simp only
  cases hcommand : db.nodeCommands.get commandId with
  | none => exact Steps.refl _
  | some command =>
    have hstored : { db with logTails := db.logTails.delete id }.nodeCommands.get
        (commandId, command).1 = some (commandId, command).2 := hcommand
    exact (cancelOpen_steps hstored).steps

/-- A read leaves everything as it was, finds the tail expired, or takes it. -/
lemma consume_ok {id : DocId LogTail} {caller : ApiCaller} {answer : TailAnswer}
    (h : consume now caller (some id) db = .ok (answer, db')) :
    (db' = db ∧ ∀ text truncated lines target, answer ≠ .ready text truncated lines target) ∨
      ∃ row, db.logTails.get id = some row ∧ row.requesterTokenId = caller.tokenId ∧
        ((answer = .gone ∧ db' = discard now id row db) ∨
          (now < row.expiresAt ∧ row.state ≠ .pending ∧
            db' = { db with logTails := db.logTails.delete id } ∧
            ∀ text truncated lines target, answer = .ready text truncated lines target →
              row.state = .ready ∧ text = row.text.getD "")) := by
  simp only [consume] at h
  rcases bind_ok.mp h with ⟨_, -, h⟩
  rcases hrow : db.logTails.get id with _ | row
  · simp only [hrow] at h
    cases h
    exact .inl ⟨rfl, by simp⟩
  simp only [hrow] at h
  split_ifs at h with htoken hexpired
  · cases h
    exact .inl ⟨rfl, by simp⟩
  · cases h
    exact .inr ⟨row, rfl, not_ne_iff.mp htoken, .inl ⟨rfl, rfl⟩⟩
  split at h
  · cases h
    exact .inl ⟨rfl, by simp⟩
  · rename_i hstate
    cases h
    exact .inr ⟨row, rfl, not_ne_iff.mp htoken,
      .inr ⟨not_le.mp hexpired, by simp [hstate], rfl, by simp⟩⟩
  · rename_i hstate
    cases h
    refine .inr ⟨row, rfl, not_ne_iff.mp htoken, .inr ⟨not_le.mp hexpired, by simp [hstate], rfl, ?_⟩⟩
    intro text truncated lines target hready
    rcases TailAnswer.ready.inj hready with ⟨htext, -⟩
    exact ⟨hstate, htext.symm⟩

lemma consume_steps {id : Option (DocId LogTail)} {answer : TailAnswer}
    (h : consume now caller id db = .ok (answer, db')) : Steps now db.plane db'.plane := by
  rcases id with _ | id
  · simp only [consume] at h
    rcases bind_ok.mp h with ⟨_, -, h⟩
    exact Steps.of_answer h
  rcases consume_ok h with ⟨rfl, -⟩ | ⟨row, -, -, ⟨-, rfl⟩ | ⟨-, -, rfl, -⟩⟩
  · exact Steps.refl _
  · exact discard_steps id row
  · exact Steps.refl _

lemma expire_steps (id : DocId LogTail) : Steps now db.plane (expire now id db).plane := by
  simp only [expire]
  cases db.logTails.get id with
  | none => exact Steps.refl _
  | some row => exact discard_steps id row

end EraInfra.Infra
