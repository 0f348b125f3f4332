import EraInfra.Infra.System

/-!
# The control plane

What leases, runs and commands are for, apart from how they are stored: a `Plane` is the App leases,
the runs, the Node commands, the App rows and the route rows as partial maps.

`CommandMove` lists what can happen to the commands, one row at a time, and `Move` what can happen to
the whole plane, with the conditions under which the code does it: a `Step`, or a queued run that
`Begins`.  A call makes some of these moves one after the other (`Infra/Moves.lean`,
`Infra/RunMoves.lean`), so that what every move keeps, every run of calls keeps.
-/

namespace EraInfra.Infra

open DocStore
open Relation.ReflTransGen (refl tail trans)

/-! ## The plane -/

@[ext] structure Plane where
  lease : String → Option AppLease
  run : DocId AppDeployment → Option AppDeployment
  nextRun : DocId AppDeployment
  command : DocId CommandRow → Option CommandRow
  app : DocId App → Option App
  route : DocId AppRoute → Option AppRoute

/-- The lease of an App. -/
def Db.lease (db : Db) (app : String) : Option AppLease :=
  (db.appLeases.collect fun row => row.app = app).head?.map Prod.snd

def Db.plane (db : Db) : Plane where
  lease := db.lease
  run := db.appDeployments.get
  nextRun := db.appDeployments.next
  command := db.nodeCommands.get
  app := db.apps.get
  route := db.appRoutes.get

namespace Plane

variable (p : Plane)

def setLease (app : String) (lease : AppLease) : Plane :=
  { p with lease := Function.update p.lease app (some lease) }

def setRun (id : DocId AppDeployment) (run : Option AppDeployment) : Plane :=
  { p with run := Function.update p.run id run }

def addRun (run : AppDeployment) : Plane :=
  { p with run := Function.update p.run p.nextRun (some run), nextRun := p.nextRun + 1 }

end Plane

/-! ## Commands -/

/-- A command's App epoch, if it has one, is its App's live lease. -/
def InFence (lease : String → Option AppLease) (now : ℤ) (row : CommandRow) : Prop :=
  ∀ app epoch, row.app = some app → row.appEpoch = some epoch → leaseAdmits (lease app) epoch now = true

/-- Commands as a partial map. -/
abbrev Commands := DocId CommandRow → Option CommandRow

/-- One change to one command.  `origin` says what may be queued. -/
inductive CommandMove (now : ℤ) (lease : String → Option AppLease) (origin : CommandInput → Prop)
    (c : Commands) : Commands → Prop
  | queue (id : DocId CommandRow) (input : CommandInput) (fresh : c id = none)
      (key : ∀ j row, c j = some row → row.nodeId = input.nodeId →
        row.idempotencyKey ≠ input.idempotencyKey) (horigin : origin input) :
      CommandMove now lease origin c (Function.update c id (some (queuedRow now input)))
  | cancel (id : DocId CommandRow) (row : CommandRow) (stored : c id = some row)
      (isOpen : row.isOpen = true) :
      CommandMove now lease origin c (Function.update c id (some (cancelledRow now row)))
  | claim (id : DocId CommandRow) (row : CommandRow) (owner : String) (stored : c id = some row)
      (isOpen : row.isOpen = true) (free : row.isLeased now = false)
      (alone : ∀ j other, c j = some other → j ≠ id → other.nodeId = row.nodeId →
        other.isLeased now = false) (fenced : InFence lease now row) :
      CommandMove now lease origin c (Function.update c id (some (claimedRow now owner row)))
  | renew (id : DocId CommandRow) (row : CommandRow) (stored : c id = some row)
      (leased : row.isLeased now = true) (fenced : InFence lease now row) :
      CommandMove now lease origin c (Function.update c id (some (renewedRow now row)))
  | report (id : DocId CommandRow) (row : CommandRow) (outcome : CommandOutcome)
      (spec : Option String) (stored : c id = some row) (leased : row.isLeased now = true)
      (fenced : InFence lease now row) :
      CommandMove now lease origin c (Function.update c id (some (reportedRow now outcome spec row)))

/-! ## Runs -/

/-- A run is under way: its row is in an active stage and its epoch is its App's live lease. -/
structure Holds (now : ℤ) (p : Plane) (id : DocId AppDeployment) (run : AppDeployment) : Prop where
  stored : p.run id = some run
  active : run.stage ∈ activeStages
  operation : run.operation ≠ none
  live : ∃ epoch, run.leaseEpoch = some epoch ∧ leaseAdmits (p.lease run.app) epoch now = true

/-- Two rows of one run that differ in nothing that leases and stages depend on. -/
structure SameRun (run run' : AppDeployment) : Prop where
  app : run'.app = run.app
  startedAt : run'.startedAt = run.startedAt
  operation : run'.operation = run.operation

/-- The run a command names, if any. -/
def NodeCommand.deployment : NodeCommand → Option (DocId AppDeployment)
  | .deploy id _ => some id
  | .spec id => some id
  | .build id _ => some id
  | .operate _ => none
  | .logs _ => none

/-- What may be queued: a command of no run, or one of a run that is under way or has been begun by
hand, under that run's epoch. -/
inductive Origin (now : ℤ) (p : Plane) (input : CommandInput) : Prop
  | plain (names : input.command.deployment = none) (deploymentId : input.deploymentId = none)
      (epoch : input.appEpoch = none)
  | ofRun (id : DocId AppDeployment) (run : AppDeployment) (epoch : ℤ)
      (names : input.command.deployment = some id)
      (deploymentId : input.deploymentId = none ∨ input.deploymentId = some id)
      (stored : p.run id = some run) (isOpen : isTerminalStage run.stage = false)
      (app : input.app = some run.app) (held : run.leaseEpoch = some epoch)
      (live : leaseAdmits (p.lease run.app) epoch now = true) (appEpoch : input.appEpoch = some epoch)

/-- One change to the plane by which no run takes a lease. -/
inductive Step (now : ℤ) (p : Plane) : Plane → Prop
  | command (c : Commands) (move : CommandMove now p.lease (Origin now p) p.command c) :
      Step now p { p with command := c }
  /-- A run is created. -/
  | create (run : AppDeployment) (queued : run.stage = .queued) (epoch : run.leaseEpoch = none)
      (operation : run.operation ≠ none) : Step now p (p.addRun run)
  /-- A run falls out of the history. -/
  | trim (id : DocId AppDeployment) : Step now p (p.setRun id none)
  /-- Something else of a run is recorded. -/
  | touch (id : DocId AppDeployment) (run run' : AppDeployment) (stored : p.run id = some run)
      (same : SameRun run run') (stage : run'.stage = run.stage)
      (epoch : run'.leaseEpoch = run.leaseEpoch) : Step now p (p.setRun id (some run'))
  /-- A run that does not hold its App's lease fails. -/
  | lose (id : DocId AppDeployment) (run run' : AppDeployment) (stored : p.run id = some run)
      (isOpen : isTerminalStage run.stage = false) (same : SameRun run run')
      (lost : ∀ epoch, run.leaseEpoch = some epoch → leaseAdmits (p.lease run.app) epoch now = false)
      (stage : run'.stage = .failed) (epoch : run'.leaseEpoch = run.leaseEpoch) :
      Step now p (p.setRun id (some run'))
  /-- A run goes on to another stage. -/
  | advance (id : DocId AppDeployment) (run run' : AppDeployment) (held : Holds now p id run)
      (same : SameRun run run') (active : run'.stage ∈ activeStages)
      (epoch : run'.leaseEpoch = run.leaseEpoch) : Step now p (p.setRun id (some run'))
  /-- A run extends its App's lease. -/
  | extend (id : DocId AppDeployment) (run : AppDeployment) (lease : AppLease)
      (held : Holds now p id run) (stored : p.lease run.app = some lease) :
      Step now p (p.setLease run.app { lease with expiresAt := now + appLeaseTtlMs })
  /-- A run ends and gives its App's lease up. -/
  | finish (id : DocId AppDeployment) (run run' : AppDeployment) (lease : AppLease)
      (held : Holds now p id run) (stored : p.lease run.app = some lease) (same : SameRun run run')
      (ended : isTerminalStage run'.stage = true) (epoch : run'.leaseEpoch = run.leaseEpoch) :
      Step now p ((p.setLease run.app { lease with holder := none, operation := none }).setRun id
        (some run'))
  /-- A run that is linking writes its App row and its routes. -/
  | write (id : DocId AppDeployment) (run : AppDeployment) (apps : DocId App → Option App)
      (routes : DocId AppRoute → Option AppRoute) (held : Holds now p id run)
      (linking : run.stage = .linking)
      (app : ∀ i, apps i ≠ p.app i → ∃ row, apps i = some row ∧ row.name = run.app)
      (route : ∀ i, routes i ≠ p.route i → ∃ row, routes i = some row ∧ row.app = some run.app) :
      Step now p { p with app := apps, route := routes }
  /-- App rows and routes are deleted. -/
  | remove (apps : DocId App → Option App) (routes : DocId AppRoute → Option AppRoute)
      (app : ∀ i, apps i ≠ p.app i → apps i = none)
      (route : ∀ i, routes i ≠ p.route i → routes i = none) :
      Step now p { p with app := apps, route := routes }

/-- A queued run takes its App's lease. -/
inductive Begins (now : ℤ) (p : Plane) (id : DocId AppDeployment) : Plane → Prop
  /-- It leaves `queued` for an active stage. -/
  | start (run run' : AppDeployment) (lease : AppLease) (renewed : Bool) (stored : p.run id = some run)
      (queued : run.stage = .queued) (operation : run.operation ≠ none)
      (granted : decideLease (p.lease run.app) (holderOf id) now = .grant lease.epoch renewed)
      (app : lease.app = run.app) (holder : lease.holder = some (holderOf id))
      (expiry : now < lease.expiresAt) (same : SameRun run run') (active : run'.stage ∈ activeStages)
      (epoch : run'.leaseEpoch = some lease.epoch) :
      Begins now p id ((p.setLease run.app lease).setRun id (some run'))
  /-- It cannot start, and gives the lease up at once. -/
  | refuse (run run' : AppDeployment) (lease : AppLease) (renewed : Bool)
      (stored : p.run id = some run) (queued : run.stage = .queued) (operation : run.operation ≠ none)
      (granted : decideLease (p.lease run.app) (holderOf id) now = .grant lease.epoch renewed)
      (app : lease.app = run.app) (holder : lease.holder = none) (same : SameRun run run')
      (failed : run'.stage = .failed) (epoch : run'.leaseEpoch = some lease.epoch) :
      Begins now p id ((p.setLease run.app lease).setRun id (some run'))

/-- One change to the plane. -/
inductive Move (now : ℤ) (p p' : Plane) : Prop
  | step (h : Step now p p')
  | begins (id : DocId AppDeployment) (h : Begins now p id p')

/-- No run of the same App that was created before is queued. -/
def First (p : Plane) (run : AppDeployment) : Prop :=
  ∀ j other, p.run j = some other → other.stage = .queued → other.app = run.app →
    other.operation ≠ none → run.startedAt ≤ other.startedAt

/-- Some steps, one after the other. -/
def Steps (now : ℤ) : Plane → Plane → Prop := Relation.ReflTransGen (Step now)

/-- Some moves, one after the other. -/
def Moves (now : ℤ) : Plane → Plane → Prop := Relation.ReflTransGen (Move now)

/-- A run that is the first of its App begins, and there are some steps before and after. -/
structure Starts (now : ℤ) (p p' : Plane) (id : DocId AppDeployment) (run : AppDeployment) : Prop where
  stored : p.run id = some run
  first : First p run
  begins : ∃ q q', Steps now p q ∧ Begins now q id q' ∧ Steps now q' p'

variable {now : ℤ} {p p' : Plane}

lemma Steps.moves (h : Steps now p p') : Moves now p p' := by
  induction h with
  | refl => exact refl
  | tail _ hstep ih => exact tail ih (Move.step hstep)

lemma Starts.moves {id : DocId AppDeployment} {run : AppDeployment}
    (h : Starts now p p' id run) : Moves now p p' := by
  rcases h.begins with ⟨q, q', hbefore, hbegins, hafter⟩
  exact trans (tail hbefore.moves (Move.begins id hbegins)) hafter.moves

end EraInfra.Infra
