import EraInfra.Core.Naming
import EraInfra.Infra.CommandClaims

/-!
# Histories of log tails

Where the output of a `logs` command goes (`logs.ts`, `logOutput.ts`).  A tail is bound to one command,
and the command's key names the tail, so that no second tail and no later command has to do with
it.  `TailsOK` says this of a database, together with where its rows come from: each was asked for
by the token it is for, and what it holds was uploaded by its Node, in a report of its command.

Histories are of requests, reads and expiries of tails and of everything that is done to commands,
with anything happening to the other tables in between.
-/

namespace EraInfra.Infra

open DocStore List Option Table
open Prod (map mk snd)

variable {db db' : Db} {env : Environment} {now : ℤ}

/-! ## What the functions do -/

variable {args : ReportArgs} {caller : ApiCaller}

/-- A request binds a new tail to a command of its Node that names it. -/
lemma request_tails {query : LogQuery} {lines : Option ℤ} {answer : Except String (DocId LogTail)}
    (h : request now caller query lines db = .ok (answer, db')) :
    db' = db ∨ ∃ row c command, answer = .ok db.logTails.next ∧
      row.requesterTokenId = caller.tokenId ∧ row.expiresAt = now + logTtlMs ∧ row.state = .pending ∧
      row.commandId = some c ∧ db'.nodeCommands.get c = some command ∧ command.nodeId = row.nodeId ∧
      command.idempotencyKey = "logs:" ++ idText db.logTails.next ∧
      db'.logTails = db.logTails.insert row := by
  rcases request_ok h with rfl | ⟨nodeId, target, count, c, queued, hanswer, hinsert, rfl⟩
  · exact .inl rfl
  have hbound : ∃ command, queued.nodeCommands.get c = some command ∧ command.nodeId = nodeId ∧
      command.idempotencyKey = "logs:" ++ idText db.logTails.next ∧
      queued.logTails = db.logTails.insert (requestedTail now caller nodeId target count) := by
    rcases insertNodeCommand_ok hinsert with ⟨rfl, command, hcommand, hnode, hkey, -⟩ | ⟨rfl, rfl, -⟩
    · exact ⟨command, hcommand, hnode, hkey, rfl⟩
    · exact ⟨_, by rw [get_insert, if_pos rfl], rfl, rfl, rfl⟩
  rcases hbound with ⟨command, hcommand, hnode, hkey, htails⟩
  refine .inr ⟨{ requestedTail now caller nodeId target count with commandId := some c }, c, command,
    hanswer, rfl, rfl, rfl, rfl, hcommand, hnode, hkey, ?_⟩
  rw [Db.patchTail, htails, patch_insert_next]

/-- A report leaves the tails as they are, or writes the one of its command, which has then ended. -/
lemma report_tails (h : report env now args db = .ok db') :
    db'.logTails = db.logTails ∨ ∃ command id row row',
      claimed env now args.toClaimArgs db = .ok command ∧
      (∀ command, db'.nodeCommands.get args.commandId = some command → command.isOpen = false) ∧
      db.logTails.get id = some row ∧ row.commandId = some args.commandId ∧
      db'.logTails = db.logTails.patch id (fun _ => row') ∧
      (row' = { row with state := .failed } ∨ args.outcome = .success ∧
        ∃ bytes, decodeBase64 env (args.output.getD "") = some bytes ∧
          row' = readyTail env bytes args.truncated row) := by
  rcases report_ok h with ⟨rfl, -⟩ | ⟨command, stored, hclaimed, hstored, rfl⟩
  · exact .inl rfl
  have hended : ∀ command', (stored.patchCommand args.commandId
      (reportedRow now args.outcome args.spec)).nodeCommands.get args.commandId = some command' →
        command'.isOpen = false := by
    intro command' hget
    rw [Db.patchCommand, get_patch_self, map_eq_some_iff] at hget
    rcases hget with ⟨old, -, rfl⟩
    cases args.outcome <;> rfl
  rcases hstored with ⟨-, hrecord⟩ | ⟨-, rfl⟩
  · rcases recordLogOutput_ok hrecord with rfl | ⟨id, row, hid, hbound, hwritten⟩
    · exact .inl rfl
    right
    have hconst : ∀ f : LogTail → LogTail,
        db.logTails.patch id f = db.logTails.patch id (fun _ => f row) := by
      intro f
      refine patch_congr fun a ha => ?_
      rw [hid, some.injEq] at ha
      rw [ha]
    rcases hwritten with rfl | ⟨hsuccess, bytes, hbytes, rfl⟩
    · exact ⟨command, id, row, { row with state := .failed }, hclaimed, hended, hid, hbound,
        hconst fun row => { row with state := .failed }, .inl rfl⟩
    · exact ⟨command, id, row, readyTail env bytes args.truncated row, hclaimed, hended, hid, hbound,
        hconst (readyTail env bytes args.truncated), .inr ⟨hsuccess, bytes, hbytes, rfl⟩⟩
  · exact .inl rfl

/-! ## What leaves the tails alone -/

/-- The database with other tails. -/
def Db.withTails (db : Db) (tails : Table LogTail) : Db := { db with logTails := tails }

section Natural

variable (tails : Table LogTail)

lemma insertNodeCommand_withTails (input : CommandInput) :
    insertNodeCommand now input (db.withTails tails)
      = (insertNodeCommand now input db).map (map id (·.withTails tails)) := by
  simp only [insertNodeCommand, map_of_bind]
  refine bind_congr fun _ => bind_congr fun prior => ?_
  cases prior with
  | none | some entry =>
    simp only [map_of_bind]
    rfl

lemma claim_withTails (credential : String) (commandId : DocId CommandRow) (owner : String) :
    claim env now credential commandId owner (db.withTails tails)
      = (claim env now credential commandId owner db).map (map id (·.withTails tails)) := by
  simp only [claim, map_of_bind]
  refine bind_congr fun _ => bind_congr fun row => bind_congr fun _ => bind_congr fun _ => ?_
  split_ifs
  · simp only [map_of_bind]
    rfl
  · simp only [map_of_bind]
    rfl

lemma renew_withTails (args : ClaimArgs) : renew env now args (db.withTails tails)
      = (renew env now args db).map (map id (·.withTails tails)) := by
  simp only [renew, map_of_bind]
  rfl

lemma cancelOpen_withTails (entry : DocId CommandRow × CommandRow) :
    cancelOpen now (db.withTails tails) entry = (cancelOpen now db entry).withTails tails := by
  simp only [cancelOpen]
  split_ifs <;> rfl

lemma cancel_withTails (user : Option User) (commandId : DocId CommandRow) :
    cancel now user commandId (db.withTails tails)
      = (cancel now user commandId db).map (·.withTails tails) := by
  have hget : (db.withTails tails).nodeCommands.get commandId = db.nodeCommands.get commandId := rfl
  simp only [cancel, hget]
  cases db.nodeCommands.get commandId with
  | none => rfl
  | some row =>
    simp only [map_of_bind, cancelOpen_withTails]
    rfl

lemma enqueue_withTails (user : Option User) (nodeId : DocId Node) (key : String)
    (command : NodeCommand) :
    enqueue env now user nodeId key command (db.withTails tails)
      = (enqueue env now user nodeId key command db).map (map id (·.withTails tails)) := by
  simp only [enqueue, map_of_bind]
  refine bind_congr fun _ => bind_congr fun _ => bind_congr fun _ => bind_congr fun _ =>
    bind_congr fun _ => bind_congr fun prior => ?_
  cases prior with
  | some entry =>
    simp only [map_of_bind]
    rfl
  | none =>
    cases command <;> simp only [map_of_bind, insertNodeCommand_withTails] <;> rfl

variable {tails}

lemma map_snd_withTails {α : Type} {x : Db → Result (α × Db)}
    (h : x (db.withTails tails) = (x db).map (map id (·.withTails tails))) :
    (x (db.withTails tails)).map snd = ((x db).map snd).map (·.withTails tails) := by
  rw [h]
  cases x db <;> rfl

end Natural

/-! ## Histories -/

section

variable (s : System)

/-- The calls that have to do with tails, or with single commands. -/
def Call.isOfTails : Call → Bool
  | .request .. => true
  | .consume .. => true
  | .expire .. => true
  | .enqueue .. => true
  | .cancel .. => true
  | .claim .. => true
  | .renew .. => true
  | .report .. => true
  | _ => false

/-- What may happen to tails and commands.  What other calls do to the commands, they do by queueing
and by cancelling them one by one. -/
inductive TailCall
  | call (call : Call) (ofTails : call.isOfTails = true)
  | insert (input : CommandInput)
  /-- The other tables change, in any way. -/
  | elsewhere (other : Db)

structure TailEvent where
  now : ℤ
  env : Environment
  call : TailCall

variable (e : TailEvent) (id : DocId LogTail)

def performTail (env : Environment) (now : ℤ) (call : TailCall) (db : Db) : Result Db :=
  match call with
  | .call call _ => perform env now call db
  | .insert input => (insertNodeCommand now input db).map Prod.snd
  | .elsewhere other => pure { other with nodeCommands := db.nodeCommands, logTails := db.logTails }

def tailStep : System := ⟨DocStore.commit s.db (performTail e.env e.now e.call s.db), e.now⟩

/-- A token asks for a tail, and is answered its identifier. -/
def Asks (caller : ApiCaller) : Prop :=
  ∃ query lines ofTails db', e.call = .call (.request caller query lines) ofTails ∧
    request e.now caller query lines s.db = .ok (.ok id, db')

/-- A token reads a tail, and is answered its text. -/
def Reads (caller : ApiCaller) (text : String) :
    Prop :=
  ∃ truncated lines target ofTails db', e.call = .call (.consume caller (some id)) ofTails ∧
    consume e.now caller (some id) s.db = .ok (.ready text truncated lines target, db')

/-- The expiry of a tail runs. -/
def Expires : Prop := ∃ ofTails, e.call = .call (.expire id) ofTails

/-- A Node uploads a text in a successful report of a command, under its live claim. -/
def Uploads (c : DocId CommandRow) (nodeId : DocId Node) (text : String) :
    Prop :=
  ∃ args ofTails command bytes db', e.call = .call (.report args) ofTails ∧ args.commandId = c ∧
    args.outcome = .success ∧ report e.env e.now args s.db = .ok db' ∧
    claimed e.env e.now args.toClaimArgs s.db = .ok command ∧ command.nodeId = nodeId ∧
    decodeBase64 e.env (args.output.getD "") = some bytes ∧ text = e.env.decodeUtf8 bytes

/-- What one call may do to the tails. -/
inductive TailChange (s : System) (e : TailEvent) (db' : Db) : Prop
  | same (tails : db'.logTails = s.db.logTails)
  | asked (caller : ApiCaller) (row : LogTail) (c : DocId CommandRow) (command : CommandRow)
      (asks : Asks s e s.db.logTails.next caller) (token : row.requesterTokenId = caller.tokenId)
      (expires : row.expiresAt = e.now + logTtlMs) (pending : row.state = .pending)
      (bound : row.commandId = some c) (stored : db'.nodeCommands.get c = some command)
      (node : command.nodeId = row.nodeId)
      (key : command.idempotencyKey = "logs:" ++ idText s.db.logTails.next)
      (tails : db'.logTails = s.db.logTails.insert row)
  | written (c : DocId CommandRow) (id : DocId LogTail) (row row' : LogTail)
      (stored : s.db.logTails.get id = some row) (bound : row.commandId = some c)
      (ended : ∀ command, db'.nodeCommands.get c = some command → command.isOpen = false)
      (tails : db'.logTails = s.db.logTails.patch id fun _ => row')
      (result : row' = { row with state := .failed } ∨
        ∃ command text truncated, s.db.nodeCommands.get c = some command ∧
          Uploads s e c command.nodeId text ∧
          row' = { row with state := .ready, text := some text, truncated := truncated })
  | removed (id : DocId LogTail) (row : LogTail) (stored : s.db.logTails.get id = some row)
      (tails : db'.logTails = s.db.logTails.delete id)
      (ended : row.state ≠ .pending ∨ ∀ c command, row.commandId = some c →
        db'.nodeCommands.get c = some command → command.isOpen = false)

end

section Changes

variable {s : System} {e : TailEvent}

lemma withTails_of_natural {x : Db → Result Db}
    (hnatural : ∀ db tails, x (db.withTails tails) = (x db).map (·.withTails tails))
    (h : x db = .ok db') : db' = db'.withTails db.logTails := by
  have hframe : x db = (x db).map (·.withTails db.logTails) := hnatural db db.logTails
  rw [h] at hframe
  exact Except.ok.inj hframe

lemma same_of_natural {x : Db → Result Db}
    (hnatural : ∀ db tails, x (db.withTails tails) = (x db).map (·.withTails tails))
    (h : x s.db = .ok db') : TailChange s e db' := by
  refine .same ?_
  rw [withTails_of_natural hnatural h]
  rfl

lemma discard_withTails (tails : Table LogTail) (at' : DocId LogTail) (row : LogTail) :
    discard now at' row (db.withTails tails) = (discard now at' row db).withTails (tails.delete at') := by
  simp only [discard]
  rcases row.commandId with _ | c
  · rfl
  have hget : (db.withTails tails).nodeCommands.get c = db.nodeCommands.get c := rfl
  simp only [hget]
  cases db.nodeCommands.get c with
  | none => rfl
  | some command =>
    simp only [cancelOpen]
    split_ifs <;> rfl

/-- A tail that is discarded is gone, and its command has ended. -/
lemma discard_eq {id : DocId LogTail} (row : LogTail) :
    (discard now id row db).logTails = db.logTails.delete id ∧
      ∀ c command, row.commandId = some c → (discard now id row db).nodeCommands.get c = some command →
        command.isOpen = false := by
  refine ⟨congrArg Db.logTails (discard_withTails db.logTails id row), fun c command hbound hget => ?_⟩
  simp only [discard, hbound] at hget
  rcases hcommand : db.nodeCommands.get c with _ | stored
  · simp [hcommand] at hget
  simp only [hcommand, cancelOpen] at hget
  split_ifs at hget with hopen
  · rw [Db.patchCommand, get_patch_self, hcommand] at hget
    cases hget
    rfl
  · cases hcommand.symm.trans hget
    simpa using hopen

lemma discard_change {id : DocId LogTail} {row : LogTail} (hrow : s.db.logTails.get id = some row) :
    TailChange s e (discard e.now id row s.db) :=
  .removed id row hrow (discard_eq row).1 (.inr (discard_eq row).2)

lemma perform_change {call : Call} {ofTails : call.isOfTails = true}
    (hcall : e.call = .call call ofTails) (h : perform e.env e.now call s.db = .ok db') :
    TailChange s e db' := by
  cases call with
  | request caller query lines =>
    rcases map_ok.mp h with ⟨⟨answer, asked⟩, hrequest, rfl⟩
    rcases request_tails hrequest with rfl |
      ⟨row, c, command, rfl, htoken, hexpires, hpending, hbound, hstored, hnode, hkey, htails⟩
    · exact .same rfl
    · exact .asked caller row c command ⟨query, lines, ofTails, asked, hcall, hrequest⟩ htoken hexpires
        hpending hbound hstored hnode hkey htails
  | consume caller id =>
    rcases map_snd_ok.mp h with ⟨answer, hconsume⟩
    cases id with
    | none =>
      rcases bind_ok.mp hconsume with ⟨_, -, hconsume⟩
      rw [pure_ok] at hconsume
      exact .same (congrArg Db.logTails (mk.inj hconsume).2.symm)
    | some id =>
      rcases consume_ok hconsume with ⟨rfl, -⟩ | ⟨row, hrow, -, ⟨-, rfl⟩ | ⟨-, hstate, rfl, -⟩⟩
      · exact .same rfl
      · exact discard_change hrow
      · exact .removed id row hrow rfl (.inl hstate)
  | expire id =>
    cases h
    simp only [expire]
    cases hrow : s.db.logTails.get id with
    | none => exact .same rfl
    | some row => exact discard_change hrow
  | report args =>
    rcases report_tails h with hsame | ⟨command, id, row, row', hclaimed, hended, hrow, hbound, htails, hresult⟩
    · exact .same hsame
    · refine .written args.commandId id row row' hrow hbound hended htails (hresult.imp_right ?_)
      rintro ⟨hsuccess, bytes, hbytes, rfl⟩
      exact ⟨command, _, _, (claimed_ok hclaimed).1,
        ⟨args, ofTails, command, bytes, db', hcall, rfl, hsuccess, h, hclaimed, rfl, hbytes, rfl⟩, rfl⟩
  | enqueue user nodeId key command =>
    exact same_of_natural (fun _ tails =>
      map_snd_withTails (enqueue_withTails tails user nodeId key command)) h
  | claim credential commandId owner =>
    exact same_of_natural (fun _ tails =>
      map_snd_withTails (claim_withTails tails credential commandId owner)) h
  | renew args =>
    exact same_of_natural (fun _ tails => map_snd_withTails (renew_withTails tails args)) h
  | cancel user commandId =>
    exact same_of_natural (fun _ tails => cancel_withTails tails user commandId) h
  | _ => simp [Call.isOfTails] at ofTails

lemma tailStep_change (s : System) (e : TailEvent) : TailChange s e (tailStep s e).db := by
  refine commit_rule (.same rfl) fun db' h => ?_
  rcases hcall : e.call with ⟨call, ofTails⟩ | input | other
  · rw [hcall] at h
    exact perform_change hcall h
  · rw [hcall] at h
    exact same_of_natural (fun _ tails =>
      map_snd_withTails (insertNodeCommand_withTails tails input)) h
  · rw [hcall] at h
    cases h
    exact .same rfl

/-- Commands stay, as later rows. -/
lemma tailStep_later {c : DocId CommandRow} {command : CommandRow}
    (hc : s.db.nodeCommands.get c = some command) :
    ∃ command', (tailStep s e).db.nodeCommands.get c = some command' ∧ command.Later command' := by
  refine commit_rule (P := fun db : Db => ∃ command', db.nodeCommands.get c = some command' ∧
    command.Later command') ⟨command, hc, CommandRow.Later.refl command⟩ fun db' h => ?_
  rcases hcall : e.call with ⟨call, ofTails⟩ | input | other
  · rw [hcall] at h
    exact (perform_moves h).commands.later hc
  · rw [hcall] at h
    have hinsert : performCommand e.env e.now (.insert input) s.db = .ok db' := h
    exact (performCommand_moves hinsert).later hc
  · rw [hcall] at h
    cases h
    exact ⟨command, hc, CommandRow.Later.refl command⟩

end Changes

/-! ## The invariant -/

/-- What a database holds of tails, after a history. -/
structure TailsOK (start : System) (calls : List TailEvent) (db : Db) : Prop where
  /-- A tail is bound to a command of its Node that names it; one that is not pending any more, to one
      that has ended. -/
  bound : ∀ id row, db.logTails.get id = some row → ∃ c command, row.commandId = some c ∧
    db.nodeCommands.get c = some command ∧ command.idempotencyKey = "logs:" ++ idText id ∧
    command.nodeId = row.nodeId ∧ (row.state = .pending ∨ command.isOpen = false)
  asked : ∀ id row, db.logTails.get id = some row → Occurs tailStep start
    (fun s e => ∃ asker, Asks s e id asker ∧ asker.tokenId = row.requesterTokenId ∧
      row.expiresAt = e.now + logTtlMs) calls
  uploaded : ∀ id row c, db.logTails.get id = some row → row.commandId = some c → row.state = .ready →
    Occurs tailStep start (fun s e => Uploads s e c row.nodeId (row.text.getD "")) calls

lemma logsKey_inj {i j : ℕ} (h : "logs:" ++ idText i = "logs:" ++ idText j) : i = j := by
  have hlists : "logs:".toList ++ (toString i).toList = "logs:".toList ++ (toString j).toList := by
    simpa [idText] using congrArg String.toList h
  exact toString_inj (append_cancel_left hlists)

section Invariant

variable {start : System} {calls : List TailEvent} {e : TailEvent}

/-- What the invariant says of one tail. -/
def TailOK (start : System) (calls : List TailEvent) (db : Db) (id : DocId LogTail) (row : LogTail) : Prop :=
  (∃ c command, row.commandId = some c ∧ db.nodeCommands.get c = some command ∧
    command.idempotencyKey = "logs:" ++ idText id ∧ command.nodeId = row.nodeId ∧
    (row.state = .pending ∨ command.isOpen = false)) ∧
  Occurs tailStep start (fun s d => ∃ asker, Asks s d id asker ∧
    asker.tokenId = row.requesterTokenId ∧ row.expiresAt = d.now + logTtlMs) calls ∧
  ∀ c, row.commandId = some c → row.state = .ready → Occurs tailStep start
    (fun s d => Uploads s d c row.nodeId (row.text.getD "")) calls

lemma tailsOK_iff {db : Db} : TailsOK start calls db ↔
    ∀ id row, db.logTails.get id = some row → TailOK start calls db id row := by
  constructor
  · intro h id row hrow
    exact ⟨h.bound id row hrow, h.asked id row hrow, fun c => h.uploaded id row c hrow⟩
  · intro h
    exact ⟨fun id row hrow => (h id row hrow).1, fun id row hrow => (h id row hrow).2.1,
      fun id row c hrow => (h id row hrow).2.2 c⟩

/-- The invariant is kept of a tail while the tail is. -/
lemma TailsOK.kept {id : DocId LogTail} {row : LogTail}
    (h : TailsOK start calls (run tailStep start calls).db)
    (hrow : (run tailStep start calls).db.logTails.get id = some row) :
    TailOK start (calls ++ [e]) (tailStep (run tailStep start calls) e).db id row := by
  refine ⟨?_, occurs_snoc.mpr (.inl (h.asked id row hrow)), fun c hc hready =>
    occurs_snoc.mpr (.inl (h.uploaded id row c hrow hc hready))⟩
  rcases h.bound id row hrow with ⟨c, command, hc, hcommand, hkey, hnode, hstate⟩
  rcases tailStep_later (e := e) hcommand with ⟨command', hcommand', hlater⟩
  exact ⟨c, command', hc, hcommand', hlater.key.trans hkey, hlater.nodeId.trans hnode,
    hstate.imp_right hlater.isOpen_eq_false⟩

lemma TailsOK.step (h : TailsOK start calls (run tailStep start calls).db) :
    TailsOK start (calls ++ [e]) (tailStep (run tailStep start calls) e).db := by
  refine tailsOK_iff.mpr fun id row hrow => ?_
  cases tailStep_change (run tailStep start calls) e with
  | same htails =>
    rw [htails] at hrow
    exact h.kept hrow
  | removed gone _ _ htails =>
    rw [htails] at hrow
    exact h.kept (get_delete_eq_some.mp hrow).2
  | asked caller new c command asks token expires pending bound stored node key htails =>
    rw [htails] at hrow
    rcases get_insert_eq_some.mp hrow with ⟨rfl, rfl⟩ | hold
    · refine ⟨⟨c, command, bound, stored, key, node, .inl pending⟩,
        occurs_snoc.mpr (.inr ⟨caller, asks, token.symm, expires⟩), fun _ _ hready => ?_⟩
      rw [pending] at hready
      simp at hready
    · exact h.kept hold
  | written c at_ old new hold bound ended htails hresult =>
    rw [htails] at hrow
    rcases get_patch_eq_some.mp hrow with ⟨_, rfl, -, rfl⟩ | ⟨-, hsame⟩
    · rcases h.kept (e := e) hold with ⟨⟨c', command, hc', hcommand, hkey, hnode, -⟩, hasked, -⟩
      have hcc : c' = c := some.inj (hc'.symm.trans bound)
      subst hcc
      rcases hresult with rfl | ⟨stored, text, truncated, hstored, huploads, rfl⟩
      · exact ⟨⟨c', command, hc', hcommand, hkey, hnode, .inr (ended command hcommand)⟩, hasked, nofun⟩
      refine ⟨⟨c', command, hc', hcommand, hkey, hnode, .inr (ended command hcommand)⟩, hasked,
        fun c hc _ => ?_⟩
      cases hc.symm.trans hc'
      have hown : stored.nodeId = old.nodeId := by
        rcases tailStep_later (e := e) hstored with ⟨later, hlater, hle⟩
        rw [hcommand, some.injEq] at hlater
        rw [← hle.nodeId, ← hlater, hnode]
      rw [hown] at huploads
      exact occurs_snoc.mpr (.inr huploads)
    · exact h.kept hsame

lemma tailsOK_run (hstart : start.db.logTails.rows = []) (calls : List TailEvent) :
    TailsOK start calls (run tailStep start calls).db := by
  refine run_invariant (fun calls (s : System) => TailsOK start calls s.db) ?_ (fun _ _ h => h.step) calls
  refine tailsOK_iff.mpr fun id row hrow => ?_
  simp [Table.get, hstart] at hrow

end Invariant

/-! ## After a tail is gone -/

/-- A tail is gone, no other one has its command, and the command has ended. -/
structure Gone (db : Db) (id : DocId LogTail) (c : DocId CommandRow) : Prop where
  given : id < db.logTails.next
  gone : db.logTails.get id = none
  alone : ∀ j row, db.logTails.get j = some row → row.commandId ≠ some c
  ended : ∃ command, db.nodeCommands.get c = some command ∧
    command.idempotencyKey = "logs:" ++ idText id ∧ command.isOpen = false

section Gone

variable {s : System} {e : TailEvent} {id : DocId LogTail} {c : DocId CommandRow}

lemma Gone.step (h : Gone s.db id c) : Gone (tailStep s e).db id c := by
  rcases h.ended with ⟨command, hcommand, hkey, hclosed⟩
  rcases tailStep_later (e := e) hcommand with ⟨command', hcommand', hlater⟩
  have hended : ∃ command, (tailStep s e).db.nodeCommands.get c = some command ∧
      command.idempotencyKey = "logs:" ++ idText id ∧ command.isOpen = false :=
    ⟨command', hcommand', hlater.key.trans hkey, hlater.isOpen_eq_false hclosed⟩
  cases tailStep_change s e with
  | same htails => exact ⟨htails ▸ h.given, htails ▸ h.gone, htails ▸ h.alone, hended⟩
  | removed _ _ _ htails =>
    refine ⟨htails ▸ h.given, ?_, fun j row hj => ?_, hended⟩
    · rw [htails, get_delete, h.gone, ite_self]
    · rw [htails] at hj
      exact h.alone j row (get_delete_eq_some.mp hj).2
  | asked caller new c' other _ _ _ _ hbound hstored _ hother htails =>
    refine ⟨?_, ?_, fun j row hj => ?_, hended⟩
    · rw [htails]
      exact Nat.lt_succ_of_lt h.given
    · rw [htails, get_insert, if_neg (Nat.ne_of_lt h.given), h.gone]
    rw [htails] at hj
    rcases get_insert_eq_some.mp hj with ⟨-, rfl⟩ | hold
    · rw [hbound]
      intro hc
      cases hc
      cases hcommand'.symm.trans hstored
      have hnext := logsKey_inj (hother.symm.trans (hlater.key.trans hkey))
      exact absurd h.given (by rw [hnext]; exact Nat.lt_irrefl id)
    · exact h.alone j row hold
  | written c' id' old new hold hbound _ htails hresult =>
    refine ⟨htails ▸ h.given, ?_, fun j row hj => ?_, hended⟩
    · rw [htails, get_patch, h.gone]
      simp
    rw [htails] at hj
    rcases get_patch_eq_some.mp hj with ⟨_, rfl, -, rfl⟩ | ⟨-, hsame⟩
    · have hsame : new.commandId = old.commandId := by
        rcases hresult with rfl | ⟨_, _, _, -, -, rfl⟩ <;> rfl
      rw [hsame]
      exact h.alone j old hold
    · exact h.alone j row hsame

lemma Gone.run (h : Gone s.db id c) (calls : List TailEvent) : Gone (run tailStep s calls).db id c :=
  run_invariant (fun _ (s : System) => Gone s.db id c) h (fun _ _ hgone => hgone.step) calls

/-- A command that has ended is not claimed any more, and gives no payload. -/
lemma refused_of_ended {command : CommandRow} (hcommand : db.nodeCommands.get c = some command)
    (hended : command.isOpen = false) :
    (∀ credential owner answer, claim env now credential c owner db ≠ .ok answer) ∧
      ∀ args command', args.commandId = c → claimed env now args db ≠ .ok command' := by
  constructor
  · rintro credential owner ⟨answer, db'⟩ hclaim
    rcases claim_ok hclaim with ⟨row, hrow, hopen, -⟩
    rw [hcommand, some.injEq] at hrow
    rw [← hrow, hended] at hopen
    simp at hopen
  · rintro args command' rfl hclaimed
    rcases claimed_ok hclaimed with ⟨hrow, -, hleased, -⟩
    rw [hcommand, some.injEq] at hrow
    rw [← hrow] at hleased
    rw [CommandRow.isOpen_of_isLeased hleased] at hended
    simp at hended

end Gone

end EraInfra.Infra
