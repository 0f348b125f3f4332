import EraInfra.Infra.LogSecrecy

/-!
# The audit of log requests

`request` (`infra/logs.ts`) with the audit row that it appends.  What the checks before the first write
refuse is answered, and the row of the refusal commits with the answer.  What `insertNodeCommand`
refuses comes after them and is thrown, so that the row is rolled back with everything else.
-/

namespace EraInfra.Infra

open DocStore Table

inductive AuditOutcome
  | deny
  | attempt

/-- What `appendAudit` is given.  The rest of the metadata of an attempt repeats its tail. -/
structure AuditInput where
  actor : String
  action : String
  target : Option String
  outcome : AuditOutcome
  error : Option String
  logTailId : Option (DocId LogTail)

/-- How the audit names what was asked for. -/
def LogQuery.describe (query : LogQuery) : Option String :=
  query.app.orElse fun _ => query.node.map fun node => node ++ "/" ++ query.unit.getD "undefined"

def auditInput (caller : ApiCaller) (query : LogQuery) : Except String (DocId LogTail) → AuditInput
  | .error message =>
    ⟨"token:" ++ caller.name, "logs.request", query.describe, .deny, some message, none⟩
  | .ok id => ⟨"token:" ++ caller.name, "logs.request", query.describe, .attempt, none, some id⟩

/-- The number of lines, unless it is not an integer. -/
def integerLines : Option ℚ → Option (Option ℤ)
  | none => some none
  | some lines => if lines.isInt then some (some lines.num) else none

/-- `request`, on the database and the audit log. -/
def auditedRequest (now : ℤ) (caller : ApiCaller) (query : LogQuery) (lines : Option ℚ) (db : Db)
    (audit : List AuditInput) : Result (Except String (DocId LogTail) × Db × List AuditInput) := do
  let (answer, db) ←
    match integerLines lines with
    | some lines => request now caller query lines db
    | none => do
      requireTokenPermission caller .nodeRun
      pure (.error ("lines must be an integer from 1 to " ++ toString maxLogLines), db)
  pure (answer, db, audit ++ [auditInput caller query answer])

/-- A Node has room for a command, under a key of its own. -/
structure HasRoom (nodeId : DocId Node) (key : String) (db : Db) : Prop where
  valid : isKey key = true
  fresh : ∀ i row, db.nodeCommands.get i = some row → row.nodeId = nodeId → row.idempotencyKey ≠ key
  queue : (commandsWith db nodeId .pending).length < 200

section

variable {now : ℤ} {input : CommandInput} {db queued : Db} {id : DocId CommandRow}

lemma length_take_pending : 200 ≤ ((commandsWith db input.nodeId .pending).take 201).length ↔
    200 ≤ (commandsWith db input.nodeId .pending).length := by
  rw [List.length_take]
  omega

/-- A command is queued as a new one where there is room. -/
lemma insertNodeCommand_of_room (now : ℤ) (hroom : HasRoom input.nodeId input.idempotencyKey db) :
    insertNodeCommand now input db = .ok (db.nodeCommands.next,
      { db with nodeCommands := db.nodeCommands.insert (queuedRow now input) }) := by
  have hnone : commandByKey db input.nodeId input.idempotencyKey = .ok none := by
    refine unique_eq_none fun i row hrow => ?_
    simpa using hroom.fresh i row hrow
  have hqueue : ¬ 200 ≤ ((commandsWith db input.nodeId .pending).take 201).length := by
    rw [length_take_pending, not_le]
    exact hroom.queue
  simp only [insertNodeCommand, keyOK, hroom.valid, hnone, refuseIf_ok.mpr hqueue]
  rfl

/-- And only there. -/
lemma hasRoom_of_inserted (h : insertNodeCommand now input db = .ok (id, queued))
    (hnew : queued.nodeCommands ≠ db.nodeCommands) :
    HasRoom input.nodeId input.idempotencyKey db := by
  simp only [insertNodeCommand, keyOK] at h
  rw [refuseIf_bind_ok, bind_ok] at h
  rcases h with ⟨hkey, found, hfound, h⟩
  rcases found with _ | ⟨prior, row⟩
  · rw [refuseIf_bind_ok, length_take_pending, not_le] at h
    refine ⟨by simpa using hkey, fun i row hrow hnode hsame => ?_, h.1⟩
    have hother := not_of_unique_none hfound hrow
    simp [hnode, hsame] at hother
  · -- a command that was there already is not queued again
    rw [refuseIf_bind_ok] at h
    cases h.2
    exact absurd rfl hnew

end

/-- The outcome of a log request that is audited: the call commits with one audit row more.  It
answers a refusal that the row denies and changes nothing else, or it has created one pending tail
and one pending command, bound to each other on the Node that the target resolves to, and the row is
an attempt. -/
def Audited (now : ℤ) (caller : ApiCaller) (query : LogQuery) (lines : Option ℚ) (db : Db)
    (audit : List AuditInput) : Prop :=
  (∃ message, auditedRequest now caller query lines db audit
    = .ok (.error message, db, audit ++ [auditInput caller query (.error message)])) ∨
  ∃ count nodeId target n, integerLines lines = some count ∧
    resolveRequest now query count db = .ok (nodeId, target, n) ∧
    auditedRequest now caller query lines db audit = .ok (.ok db.logTails.next,
      { db with
        logTails := db.logTails.insert { requestedTail now caller nodeId target n with
          commandId := some db.nodeCommands.next }
        nodeCommands := db.nodeCommands.insert (queuedRow now ⟨nodeId,
          "logs:" ++ idText db.logTails.next, .logs (operationFor target n), none, none, none⟩) },
      audit ++ [auditInput caller query (.ok db.logTails.next)])

section

variable {now : ℤ} {caller : ApiCaller} {query : LogQuery} {lines : Option ℚ} {db : Db}
  {audit : List AuditInput} {count : Option ℤ} (hcount : integerLines lines = some count)
  (hpermission : requireTokenPermission caller .nodeRun = .ok ())

include hcount hpermission

/-- A request that the checks refuse. -/
lemma audited_iff_of_refused {message : String}
    (hresolve : resolveRequest now query count db = .error message) :
    Audited now caller query lines db audit ↔ message ≠ notUnique := by
  have hcall : auditedRequest now caller query lines db audit = (do
      refuseIf (message = notUnique) notUnique
      pure (.error message, db, audit ++ [auditInput caller query (.error message)])) := by
    simp only [auditedRequest, hcount, request, hpermission, ok_bind, hresolve, bind_assoc, pure_bind]
  constructor
  · rintro (⟨answer, h⟩ | ⟨other, nodeId, target, n, hother, hok, -⟩)
    · rw [hcall, refuseIf_bind_ok] at h
      exact h.1
    · rw [hcount, Option.some.injEq] at hother
      rw [← hother, hresolve] at hok
      cases hok
  · intro hplain
    exact .inl ⟨message, by rw [hcall, refuseIf_ok.mpr hplain]; rfl⟩

/-- A request that passes them. -/
lemma audited_iff_of_resolved {nodeId : DocId Node} {target : LogTarget} {n : ℤ}
    (hresolve : resolveRequest now query count db = .ok (nodeId, target, n)) :
    Audited now caller query lines db audit ↔ HasRoom nodeId ("logs:" ++ idText db.logTails.next) db := by
  have hcall : auditedRequest now caller query lines db audit = (do
      let inserted ← insertNodeCommand now ⟨nodeId, "logs:" ++ idText db.logTails.next,
        .logs (operationFor target n), none, none, none⟩ db
      pure (.ok db.logTails.next, inserted.2.withTails (db.logTails.insert
          { requestedTail now caller nodeId target n with commandId := some inserted.1 }),
        audit ++ [auditInput caller query (.ok db.logTails.next)])) := by
    simp only [auditedRequest, hcount, request_eq, hpermission, ok_bind, hresolve, bind_assoc, pure_bind]
  constructor
  · rintro (⟨message, h⟩ | ⟨other, nodeId', target', n', hother, hok, h⟩)
    · rw [hcall] at h
      rcases bind_ok.mp h with ⟨queued, -, h⟩
      cases h
    · rw [hcount, Option.some.injEq] at hother
      rw [← hother, hresolve] at hok
      cases hok
      rw [hcall] at h
      rcases bind_ok.mp h with ⟨⟨c, queued⟩, hinsert, h⟩
      refine hasRoom_of_inserted hinsert fun hsame => ?_
      have hnext := congrArg (fun r => r.2.1.nodeCommands.next) (pure_ok.mp h)
      simp [Db.withTails, hsame] at hnext
  · intro hroom
    refine .inr ⟨count, nodeId, target, n, hcount, hresolve, ?_⟩
    rw [hcall, insertNodeCommand_of_room now hroom]
    rfl

end

/-- **When a log request is audited.**  A call by a caller with `node.run` is audited exactly if the Node
that its target resolves to has room for the command, and no lookup finds two rows where the table
should have one. -/
theorem log_requests_audited_iff (now : ℤ) (caller : ApiCaller) (query : LogQuery) (lines : Option ℚ)
    (db : Db) (audit : List AuditInput)
    (hpermission : requireTokenPermission caller .nodeRun = .ok ()) :
    Audited now caller query lines db audit ↔ ∀ count, integerLines lines = some count →
      resolveRequest now query count db ≠ .error notUnique ∧
      ∀ nodeId target n, resolveRequest now query count db = .ok (nodeId, target, n) →
        HasRoom nodeId ("logs:" ++ idText db.logTails.next) db := by
  cases hcount : integerLines lines with
  | none =>
    refine iff_of_true (.inl ⟨"lines must be an integer from 1 to " ++ toString maxLogLines, ?_⟩) nofun
    simp only [auditedRequest, hcount, hpermission]
    rfl
  | some count =>
    simp only [Option.some.injEq, forall_eq']
    cases hresolve : resolveRequest now query count db with
    | error message =>
      rw [audited_iff_of_refused hcount hpermission hresolve]
      simp
    | ok resolved =>
      rcases resolved with ⟨nodeId, target, n⟩
      rw [audited_iff_of_resolved hcount hpermission hresolve]
      simp

/-- The agent's own unit, on the Node. -/
def unitQuery : LogQuery := ⟨none, none, some "node", some "erainfra-agent"⟩

theorem log_requests_audited_unit :
    ∃ db, auditedRequest 1 (reader 7) unitQuery none liveNode.db []
      = .ok (.ok 0, db, [auditInput (reader 7) unitQuery (.ok 0)]) := by
  have haudited := (log_requests_audited_iff 1 (reader 7) unitQuery none liveNode.db []
    (by decide)).mpr (by
      rintro count hcount
      cases hcount
      refine ⟨by decide, fun nodeId target n _ => ⟨by decide, by simp [liveNode, emptyDb], ?_⟩⟩
      exact (by decide : 0 < 200))
  rcases haudited with ⟨message, h⟩ | ⟨_, _, _, _, -, -, h⟩
  · have hok : (auditedRequest 1 (reader 7) unitQuery none liveNode.db []).map (fun r => r.1.isOk)
        = .ok true := by decide
    rw [h] at hok
    cases hok
  · exact ⟨_, h⟩

/-- A Node that is online and has 200 commands to collect. -/
def crowded : Db := { liveNode.db with
    nodeCommands := ⟨200, (List.range 200).map fun i => (i, queuedRow 0 ⟨0, "step:" ++ idText i,
        .operate ⟨"disk.usage", []⟩, none, none, none⟩),
      List.pairwise_map.mpr List.pairwise_lt_range, by simp⟩ }

/-- The checks pass, the queue is full, and the request is thrown without an audit row. -/
theorem full_queue_loses_audit : requireTokenPermission (reader 7) .nodeRun = .ok () ∧
    (resolveRequest 1 unitQuery none crowded).isOk = true ∧
    (auditedRequest 1 (reader 7) unitQuery none crowded []).map (fun _ => ())
      = .error "Node command queue is full" := by
  refine ⟨by decide, by decide, ?_⟩
  decide +kernel

end EraInfra.Infra
