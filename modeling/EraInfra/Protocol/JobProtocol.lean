import EraInfra.Protocol.AttemptProtocol
import EraInfra.Protocol.JobBoard

/-!
# The job protocol

The deployment of `AttemptProtocol` together with the legacy path: `workflow_job` events, the job
scheduler, the actions that ask GitHub for JIT configs, the Agent's handling of commands and the
operator's repairs.  Everything may be called at any time and with any arguments.  In particular a
`failAttempt` may name any command and any job: the action that calls it captured both before it
asked GitHub, and nothing is assumed about how long that took.

`Db.board` is what of the database the `JobBoard` is about.  The rest of the module says which calls
observe which discipline; that their effects are moves of the board is `JobMoves` and
`JobSweepMoves`.
-/

namespace EraInfra

open DocStore Table Board

inductive JobOp
  | attempt (op : Op)
  | workflowJob (event : WorkflowJobEvent)
  | assignJobs
  | storeJitConfig (commandId : DocId Command) (jitConfig : String) (runnerId : Option ℕ)
  | failAttempt (commandId : Option (DocId Command)) (jobId : DocId Job) (error : String)
  | claim (token : String) (commandId : DocId Command)
  | report (token : String) (commandId : DocId Command) (exitCode : ℚ)
  | dropJob (jobId : DocId Job)
  | requeueJob (jobId : DocId Job)

structure JobCall where
  now : ℤ
  op : JobOp

/-- The database a call commits. -/
def performJob (js : Engine) (c : JobCall) (db : Db) : Result Db :=
  match c.op with
  | .attempt op => perform js ⟨c.now, op⟩ db
  | .workflowJob event => applyWorkflowJob c.now event db
  | .assignJobs => pure (Scheduler.tryAssign c.now db).2
  | .storeJitConfig commandId jitConfig runnerId =>
    pure (storeJitConfig commandId jitConfig runnerId db).2
  | .failAttempt commandId jobId error => pure (failAttempt c.now commandId jobId error db)
  | .claim token commandId => (AgentApi.claim c.now token commandId db).map Prod.snd
  | .report token commandId exitCode =>
    (AgentApi.report c.now token commandId exitCode db).map Prod.snd
  | .dropJob jobId => pure (dropJob c.now jobId db)
  | .requeueJob jobId => pure (requeueJob c.now jobId db)

def stepJob (js : Engine) (db : Db) (c : JobCall) : Db := commit db (performJob js c db)

/-- The database after a run from an empty deployment. -/
def afterJobs (js : Engine) (calls : List JobCall) : Db := run (stepJob js) .empty calls

lemma afterJobs_snoc (js : Engine) (calls : List JobCall) (c : JobCall) :
    afterJobs js (calls ++ [c]) = stepJob js (afterJobs js calls) c :=
  run_snoc

/-! ## What a call has to find -/

/-- The failure is reported while its command is there, or for a job that has no assignment. -/
def ReportsLive (commandId : Option (DocId Command)) (jobId : DocId Job) (db : Db) : Prop :=
  (commandId.bind db.commands.get).isSome = true ∨
    ∀ job, db.jobs.get jobId = some job → job.status ≠ .assigned

/-- A pass of the reconciler that now begins deletes the finished commands of assigned jobs. -/
def ClearsFinished (db : Db) : Prop :=
  ∀ k c, db.commands.get k = some c → c.status = .finished → (k, c) ∉ finishedCommands db →
    ∀ job, db.jobs.get c.jobId = some job → job.status ≠ .assigned

/-- The commands minted for a job are all its own. -/
def OwnsMinted (jobId : DocId Job) (db : Db) : Prop := ∀ job, db.jobs.get jobId = some job →
    ∀ k c, db.commands.get k = some c → MintedFor job.ghJobId c → c.jobId = jobId

/-- A finished job that is past its retention. -/
def Job.isStale (now : ℤ) (job : Job) : Prop := job.status.isTerminal = true ∧
    finishedJobRetentionMs ≤ now - job.finishedAt.getD job.creationTime

/-- No command minted for a job that is past its retention is left. -/
def OutlivesMinted (now : ℤ) (db : Db) : Prop := ∀ j job, db.jobs.get j = some job → job.isStale now →
    ∀ k c, db.commands.get k = some c → ¬ MintedFor job.ghJobId c

/-- What a call has to find for `Tidy`. -/
def JobCall.Isolated (db : Db) (c : JobCall) : Prop :=
  match c.op with
  | .failAttempt commandId jobId _ => ReportsLive commandId jobId db
  | .attempt .reconcile => ClearsFinished db
  | _ => True

/-- What a call has to find for `Numbered`. -/
def JobCall.Remembers (db : Db) (c : JobCall) : Prop :=
  match c.op with
  | .dropJob jobId | .requeueJob jobId => OwnsMinted jobId db
  | .attempt .reconcile => OutlivesMinted c.now db
  | _ => True

/-- The calls that neither reset nor delete jobs. -/
def JobOp.lasts : JobOp → Prop
  | .attempt .reconcile | .dropJob _ | .requeueJob _ => False
  | _ => True

structure Observes (d : Discipline) (db : Db) (c : JobCall) : Prop where
  isolated : d.tidy → c.Isolated db
  remembers : d.numbered → c.Remembers db
  lasts : d.lasting → c.op.lasts

/-! ## The board of a database -/

def Db.board (db : Db) : Board where
  job := db.jobs.get
  nextJob := db.jobs.next
  command := db.commands.get
  nextCommand := db.commands.next

variable {db db' : Db} {j : DocId Job} {k : DocId Command} {job : Job} {c : Command}

@[simp] lemma job_board : db.board.job j = db.jobs.get j := rfl
@[simp] lemma command_board : db.board.command k = db.commands.get k := rfl

lemma board_congr (hjobs : db'.jobs = db.jobs) (hcommands : db'.commands = db.commands) :
    db'.board = db.board := by
  simp only [Db.board, hjobs, hcommands]

lemma board_patchJob (f : Job → Job) (hj : db.jobs.get j = some job) :
    (db.patchJob j f).board = db.board.setJob j (some (f job)) := by
  ext1
  · funext i
    rw [job_setJob]
    show (db.jobs.patch j f).get i = _
    rw [get_patch]
    split
    · rename_i hi
      rw [hi, hj, Option.map_some]
    · rfl
  · rfl
  · rfl
  · rfl

lemma board_patchCommand (f : Command → Command) (hk : db.commands.get k = some c) :
    (db.patchCommand k f).board = db.board.setCommand k (some (f c)) := by
  ext1
  · rfl
  · rfl
  · funext i
    rw [command_setCommand]
    show (db.commands.patch k f).get i = _
    rw [get_patch]
    split
    · rename_i hi
      rw [hi, hk, Option.map_some]
    · rfl
  · rfl

lemma board_deleteCommand (k : DocId Command) (db : Db) :
    Db.board { db with commands := db.commands.delete k } = db.board.setCommand k none := by
  ext1
  · rfl
  · rfl
  · funext i
    rw [command_setCommand]
    exact get_delete
  · rfl

lemma board_insertCommand (c : Command) (db : Db) :
    Db.board { db with commands := db.commands.insert c } = db.board.addCommand c := by
  ext1
  · rfl
  · rfl
  · funext i
    rw [command_addCommand]
    exact get_insert
  · rfl

lemma board_deleteJob (j : DocId Job) (db : Db) :
    Db.board { db with jobs := db.jobs.delete j } = db.board.setJob j none := by
  ext1
  · funext i
    rw [job_setJob]
    exact get_delete
  · rfl
  · rfl
  · rfl

lemma board_insertJob (job : Job) (db : Db) :
    Db.board { db with jobs := db.jobs.insert job } = db.board.addJob job := by
  ext1
  · funext i
    rw [job_addJob]
    exact get_insert
  · rfl
  · rfl
  · rfl

end EraInfra
