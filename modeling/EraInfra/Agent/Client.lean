import EraInfra.Agent.Journal
import EraInfra.Infra.CommandClaims

/-!
# The Infra Agent

The process on a Node that polls for commands and runs them, one after the other
(`convexnode/client.go`), with the control plane it talks to and the disk that outlives it.

A command goes through the phases of `execute`.  Between any two of them anything may happen to the
control plane, and the process may crash; then only the disk is left, with every record whose append
has returned and some of the bytes of one that was on its way.  A request may be lost, and so may its
answer after it has been carried out.

**Left open** — when the agent beats, polls and sweeps between two pages, and what the executor
answers.  **Left out** — renewals, which are calls of the control plane like any other, the mesh, and
logging.
-/

namespace EraInfra.Infra.Agent

open DocStore Encoding

/-! ## The state of the process -/

/-- The kind of command a payload is for. -/
def kindOf : Payload → CommandKind
  | .operate _ => .operate
  | .logs _ => .logs
  | .spec _ => .spec
  | .build .. => .build
  | .deploy .. => .deploy

/-- Where the process is with a command; `epoch` is that of its claim. -/
inductive Phase
  | idle
  /-- A status sweep, with the batches still to be asked about; it was started for a command when
      the journal had no room for it. -/
  | sweeping (batches : List (List Record)) (command : Option ListedCommand)
  | ready (cmd : ListedCommand)
  /-- The journal has room for the command. -/
  | admitted (cmd : ListedCommand)
  | claimed (cmd : ListedCommand) (epoch : ℤ)
  /-- A `spec` or `logs` command, which has no effect on the Node. -/
  | reading (cmd : ListedCommand) (epoch : ℤ) (payload : Payload)
  | fetched (cmd : ListedCommand) (epoch : ℤ) (payload : Payload)
  | accepted (cmd : ListedCommand) (epoch : ℤ) (payload : Payload)
  | executing (cmd : ListedCommand) (epoch : ℤ) (payload : Payload)
  | ended (cmd : ListedCommand) (epoch : ℤ) (outcome : CommandOutcome)
  | reporting (cmd : ListedCommand) (epoch : ℤ) (outcome : CommandOutcome)
  | reported (cmd : ListedCommand) (epoch : ℤ) (outcome : CommandOutcome)

/-- The process: its credential, its journal, the page it works on and where it is with it. -/
structure Client where
  credential : String
  owner : String
  journal : Journal
  /-- Empty until the first heartbeat. -/
  nodeID : String
  cursor : Option (DocId CommandRow)
  /-- The commands of the last page that have not been tried yet. -/
  page : List ListedCommand
  lastSweep : Option ℤ
  lastForcedSweep : Option ℤ
  phase : Phase

/-- A Node with its agent, if that is running, its disk, and the control plane. -/
structure Host where
  system : System
  disk : Bytes
  agent : Option Client

/-- The journal's key for a command. -/
def Client.key (c : Client) (cmd : ListedCommand) : String := c.nodeID ++ ":" ++ cmd.idempotencyKey

/-- An outcome as the journal notes it. -/
def Outcome.ofCommand : CommandOutcome → Outcome
  | .success => .success
  | .failure => .failure
  | .unknown => .unknown

/-- What is reported of a command the journal knows. -/
def Outcome.reported : Outcome → CommandOutcome
  | .success => .success
  | .failure => .failure
  | _ => .unknown

/-- An error ends the command: a refusal with status 409, or a full journal, is skipped; anything else
ends the page. -/
def Client.fail (c : Client) (skip : Bool) : Client :=
  { c with phase := .idle, page := if skip then c.page else [] }

/-! ## Requests -/

/-- What becomes of a request. -/
inductive Delivery
  | answered
  | lost
  /-- It is carried out, and the answer is lost. -/
  | unanswered

/-- A request to the control plane: the answer, if there is one, and the database after it. -/
def send {α : Type} (delivery : Delivery) (x : Db → Result (α × Db)) (db : Db) :
    Option (Result α) × Db :=
  match delivery with
  | .answered => (some ((x db).map Prod.fst), DocStore.commit db ((x db).map Prod.snd))
  | .lost => (none, db)
  | .unanswered => (none, DocStore.commit db ((x db).map Prod.snd))

/-- A request that changes nothing. -/
def ask {α : Type} (delivery : Delivery) (x : Result α) : Option (Result α) :=
  match delivery with
  | .answered => some x
  | _ => none

/-- `conflict` says whether a refusal is answered with status 409. -/
structure Exchange where
  env : Environment
  now : ℤ
  delivery : Delivery
  conflict : Bool

/-- How the disk takes part in an append. -/
structure FileIo where
  write : WriteIo
  rewrite : RewriteIo

/-! ## What the process does -/

variable (codec : Codec) (url : String)

variable (x : Exchange) (io : FileIo) (c : Client) (cmd : ListedCommand) (epoch : ℤ) (h : Host)

def Host.run (c : Client) : Host := { h with agent := some c }

def Host.store (c : Client) : Store := ⟨c.journal, h.disk⟩

/-- The agent and its disk after the journal was written. -/
def Host.keep (c : Client) (s : Store) : Host :=
  { h with disk := s.disk, agent := some { c with journal := s.journal } }

def Host.after (x : Exchange) (db : Db) : Host := { h with system := ⟨db, x.now⟩ }

/-- The record that ties the journal to its Node. -/
def bindingRecord (nodeId : DocId Node) : Record := ⟨bindingKey, url ++ "|" ++ idText nodeId, .success⟩

/-- Report to the control plane; the first answer ties the journal to its Node. -/
def Host.heartbeat (version : String) (blocked : Option String) (c : Client) (h : Host) : Host :=
  let beat : HeartbeatArgs := ⟨c.credential, version, blocked, some c.journal.keys, some maxJournalKeys⟩
  let (answer, db) := send x.delivery (fun db => do
    let nodeId ← requireNode x.env c.credential db
    let db ← Infra.heartbeat x.env x.now beat db
    pure (nodeId, db)) h.system.db
  let h := h.after x db
  match answer with
  | some (.ok nodeId) =>
    match c.journal.lookup bindingKey (bindingRecord url nodeId).id with
    | .error _ => h
    | .ok (some _) => h.run { c with nodeID := idText nodeId }
    | .ok none =>
      match append codec io.write io.rewrite (bindingRecord url nodeId) (h.store c) with
      | (none, s) => h.keep { c with nodeID := idText nodeId } s
      | (some _, s) => h.keep c s
  | _ => h

def sweepBatch : ℕ := 200
def sweepThreshold : ℕ := 500
def sweepInterval : ℤ := 10 * 60000
def forcedSweepInterval : ℤ := 30000

/-- Whether a sweep is due. -/
def Client.sweepDue (forced : Bool) (now : ℤ) : Bool :=
  let candidates := sweepCandidates c.journal
  !candidates.isEmpty &&
    if forced then c.lastForcedSweep.all fun last => forcedSweepInterval ≤ now - last
    else sweepThreshold ≤ candidates.length && c.lastSweep.all fun last => sweepInterval ≤ now - last

/-- Pieces of at most `n` elements. -/
def pieces {α : Type} (n : ℕ) : ℕ → List α → List (List α)
  | 0, _ => []
  | fuel + 1, l => if l = [] then [] else l.take n :: pieces n fuel (l.drop n)

/-- Begin to ask what became of the commands the journal knows. -/
def Client.startSweep (forced : Bool) (now : ℤ) (command : Option ListedCommand) : Client :=
  let candidates := sweepCandidates c.journal
  { c with
    phase := .sweeping (pieces sweepBatch candidates.length candidates) command
    lastSweep := some now
    lastForcedSweep := if forced then some now else c.lastForcedSweep }

/-- Where a sweep leads back to. -/
def Client.resume (command : Option ListedCommand) : Client :=
  match command with
  | none => { c with phase := .idle }
  | some cmd => if c.journal.full then c.fail true else { c with phase := .admitted cmd }

/-- The command an identifier stands for. -/
def normalizeId (db : Db) (text : String) : Option (DocId CommandRow) :=
  (db.nodeCommands.rows.find? fun row => idText row.1 = text).map Prod.fst

def isTerminalStatus (status : CommandStatus) : Bool := status ≠ .pending ∧ status ≠ .running

/-- The next batch of a sweep: forget the keys whose commands have ended, and set aside those whose
commands are missing. -/
def Host.sweep (io : RewriteIo) (c : Client) (batches : List (List Record))
    (command : Option ListedCommand) (h : Host) : Host :=
  match batches with
  | [] => h.run (c.resume command)
  | batch :: rest =>
    match ask x.delivery (statuses x.env c.credential
        (batch.map fun r => normalizeId h.system.db r.id) h.system.db) with
    | some (.ok answers) =>
      let done := ((batch.zip answers).filter fun entry => entry.2.any isTerminalStatus).map
        fun entry => entry.1.key
      let missing := ((batch.zip answers).filter fun entry => entry.2 = none).map
        fun entry => entry.1.key
      let j := { c.journal with review := c.journal.review ++ missing }
      match settleMany codec io done ⟨j, h.disk⟩ with
      | (none, s) => h.keep { c with phase := .sweeping rest command } s
      | (some _, s) => h.keep ({ c with journal := s.journal }.resume command) s
    | _ => h.run (c.resume command)

/-- Ask for a page. -/
def Host.poll : Host :=
  match ask x.delivery (pending x.env x.now c.credential c.cursor h.system.db) with
  | some (.ok (commands, cursor)) => h.run { c with page := commands, cursor := cursor }
  | _ => h

/-- The kinds of command that have an effect on the Node. -/
def journaled (kind : CommandKind) : Bool := kind ≠ .spec ∧ kind ≠ .logs

/-- Make sure that the journal has room for the command, before it is claimed. -/
def Host.makeRoom (now : ℤ) (c : Client) (cmd : ListedCommand) (h : Host) : Host :=
  if journaled cmd.kind = false ∨ c.journal.full = false ∨
      ∃ found ∈ (c.journal.lookup (c.key cmd) (idText cmd.id)).toOption, found.isSome = true then
    h.run { c with phase := .admitted cmd }
  else if c.sweepDue true now then h.run (c.startSweep true now (some cmd))
  else h.run (c.fail true)

/-- Claim the command. -/
def Host.claim : Host :=
  let (answer, db) := send x.delivery (Infra.claim x.env x.now c.credential cmd.id c.owner) h.system.db
  let h := h.after x db
  match answer with
  | some (.ok lease) => h.run { c with phase := .claimed cmd lease.epoch }
  | some (.error _) => h.run (c.fail x.conflict)
  | none => h.run (c.fail false)

def Client.claimArgs : ClaimArgs := ⟨c.credential, cmd.id, c.owner, epoch⟩

/-- Ask for the payload. -/
def Host.ask (next : Payload → Phase) (h : Host) : Host :=
  match Agent.ask x.delivery (payload x.env x.now (c.claimArgs cmd epoch) h.system.db) with
  | some (.ok payload) =>
    if kindOf payload ≠ cmd.kind then h.run (c.fail false) else h.run { c with phase := next payload }
  | some (.error _) => h.run (c.fail x.conflict)
  | none => h.run (c.fail false)

/-- Look the command up in the journal, and ask for its payload if it has not run. -/
def Host.fetch : Host :=
  if journaled cmd.kind = false then h.ask x c cmd epoch (.reading cmd epoch)
  else
    match c.journal.lookup (c.key cmd) (idText cmd.id) with
    | .error _ => h.run (c.fail false)
    | .ok (some outcome) => h.run { c with phase := .reporting cmd epoch outcome.reported }
    | .ok none => h.ask x c cmd epoch (.fetched cmd epoch)

/-- Whether an error of the journal is that it is full. -/
def JournalError.isFull : JournalError → Bool
  | .full .. => true
  | _ => false

/-- Write a record and go on, or give the command up. -/
def Host.note (r : Record) (next : Phase) (h : Host) : Host :=
  match append codec io.write io.rewrite r (h.store c) with
  | (none, s) => h.keep { c with phase := next } s
  | (some error, s) => h.keep (c.fail error.isFull) s

/-- What a command has come to, as it is reported. -/
structure Reading where
  outcome : CommandOutcome
  spec : Option String
  output : Option String
  truncated : Option Bool

/-- Report what came of the command. -/
def Host.report (result : Reading) (next : Phase) (h : Host) : Host :=
  let args : ReportArgs :=
    ⟨c.claimArgs cmd epoch, result.outcome, result.spec, result.output, result.truncated⟩
  let (answer, db) := send x.delivery (fun db => (Infra.report x.env x.now args db).map fun db => ((), db))
    h.system.db
  let h := h.after x db
  match answer with
  | some (.ok _) => h.run { c with phase := next }
  | some (.error _) => h.run (c.fail x.conflict)
  | none => h.run (c.fail false)

/-- Forget the command. -/
def Host.settle : Host :=
  match Agent.settle codec io.write io.rewrite (c.key cmd) (idText cmd.id) (h.store c) with
  | (none, s) => h.keep { c with phase := .idle } s
  | (some error, s) => h.keep (c.fail error.isFull) s

/-- What the process may do next. -/
inductive Act
  | heartbeat (x : Exchange) (io : FileIo) (version : String) (blocked : Option String)
  | startSweep (now : ℤ)
  | sweep (x : Exchange) (io : RewriteIo)
  | poll (x : Exchange)
  | next
  | makeRoom (now : ℤ)
  | claim (x : Exchange)
  | fetch (x : Exchange)
  | read (x : Exchange) (result : Reading)
  | accept (io : FileIo)
  | invoke
  | finish (outcome : CommandOutcome)
  | record (io : FileIo)
  | report (x : Exchange)
  | settle (io : FileIo)

/-- One action of the process; one that does not fit its phase does nothing. -/
def Host.act (a : Act) : Host :=
  match c.phase, a with
  | .idle, .heartbeat x io version blocked =>
    if c.page = [] then h.heartbeat codec url x io version blocked c else h
  | .idle, .startSweep now =>
    if c.page = [] ∧ c.nodeID ≠ "" ∧ c.sweepDue c.journal.full now then
      h.run (c.startSweep c.journal.full now none)
    else h
  | .idle, .poll x => if c.page = [] ∧ c.nodeID ≠ "" then h.poll x c else h
  | .idle, .next =>
    match c.page with
    | [] => h
    | cmd :: page => h.run { c with page := page, phase := .ready cmd }
  | .sweeping batches command, .sweep x io => h.sweep codec x io c batches command
  | .ready cmd, .makeRoom now => h.makeRoom now c cmd
  | .admitted cmd, .claim x => h.claim x c cmd
  | .claimed cmd epoch, .fetch x => h.fetch x c cmd epoch
  | .reading cmd epoch _, .read x result => h.report x c cmd epoch result .idle
  | .fetched cmd epoch payload, .accept io =>
    h.note codec io c ⟨c.key cmd, idText cmd.id, .accepted⟩ (.accepted cmd epoch payload)
  | .accepted cmd epoch payload, .invoke => h.run { c with phase := .executing cmd epoch payload }
  | .executing cmd epoch _, .finish outcome => h.run { c with phase := .ended cmd epoch outcome }
  | .ended cmd epoch outcome, .record io =>
    h.note codec io c ⟨c.key cmd, idText cmd.id, Outcome.ofCommand outcome⟩ (.reporting cmd epoch outcome)
  | .reporting cmd epoch outcome, .report x =>
    h.report x c cmd epoch ⟨outcome, none, none, none⟩ (.reported cmd epoch outcome)
  | .reported cmd _ _, .settle io => h.settle codec io c cmd
  | _, _ => h

/-! ## The process and what is around it -/

/-- The record that the process is about to write, if there is one. -/
def Client.nextRecord (env : Environment) (db : Db) (c : Client) : Option Record :=
  match c.phase with
  | .idle =>
    match requireNode env c.credential db, c.journal.records.lookup bindingKey with
    | .ok nodeId, none => some (bindingRecord url nodeId)
    | _, _ => none
  | .fetched cmd _ _ => some ⟨c.key cmd, idText cmd.id, .accepted⟩
  | .ended cmd _ outcome => some ⟨c.key cmd, idText cmd.id, Outcome.ofCommand outcome⟩
  | .reported cmd _ _ =>
    if (c.journal.records.lookup (c.key cmd)).any fun e =>
        e.id = idText cmd.id && settleable (c.key cmd) e then
      some ⟨c.key cmd, idText cmd.id, .settled⟩
    else none
  | _ => none

/-- What may happen to a Node: something at the control plane, a start, a stop or a crash of the agent,
or an action of it.  A crash leaves some of the bytes of a record on the disk. -/
inductive NodeEvent
  | backend (e : CommandEvent)
  | start (credential owner : String) (io : RewriteIo)
  | stop (io : RewriteIo)
  | crash (env : Environment) (written : ℕ)
  | act (a : Act)

/-- A process begins with the journal that is on the disk. -/
def Host.start (credential owner : String) (io : RewriteIo) (h : Host) : Host :=
  match openJournal codec io h.disk with
  | (.error _, disk) => { h with disk }
  | (.ok journal, disk) =>
    { h with disk, agent := some ⟨credential, owner, journal, "", none, [], none, none, .idle⟩ }

/-- The process is gone; of a record that it was writing some bytes are on the disk, perhaps all. -/
def Host.crash (env : Environment) (written : ℕ) (c : Client) (h : Host) : Host :=
  match (c.nextRecord url env h.system.db).filter fun r => (refusal codec c.journal r).isNone with
  | none => { h with agent := none }
  | some r => { h with agent := none, disk := h.disk ++ (codec.line r).take written }

/-- One event; one that does not fit the state does nothing. -/
def nodeStep (e : NodeEvent) : Host :=
  match e, h.agent with
  | .backend e, _ => { h with system := commandStep h.system e }
  | .start credential owner io, none => h.start codec credential owner io
  | .stop io, some c =>
    match c.phase with
    | .idle => { h with agent := none, disk := closeJournal codec io (h.store c) }
    | _ => h
  | .crash env written, some c => h.crash codec url env written c
  | .act a, some c => h.act codec url c a
  | _, _ => h

end EraInfra.Infra.Agent
