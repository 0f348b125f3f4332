import EraInfra.Backend.Policy
import EraInfra.Core.OrderedMap
import EraInfra.Core.Transaction

/-!
# Placing Attempts and Experiments on Workers

`attemptScheduler.ts`.  A Worker's `usedSlots` is a denormalised count of the work placed on it:
`releaseMachineSlot` takes one off, and `tryAssign` adds one for each placement it makes.

`tryAssign` reads everything once into a `SchedulerSnapshot`, places the queue against it in
order — each placement consumes the snapshot's reservations, so the next item sees it — and then
writes the placements and the changed slot counts back.  The parts of the snapshot that placement
consumes are a `Ledger`.
-/

namespace EraInfra

open DocStore

/-! ## Slots -/

variable (js : Engine)

/-- Give one slot of a Worker back. -/
def releaseMachineSlot (machineId : Option (DocId Machine)) (db : Db) : Db :=
  match machineId with
  | none => db
  | some machineId =>
    match db.machines.get machineId with
    | none => db
    | some machine =>
      { db with
        machines := db.machines.patch machineId fun stored =>
          { stored with usedSlots := max 0 (machine.usedSlots - 1) }
        slotReleases := db.slotReleases ++ [⟨machineId, machine.usedSlots⟩] }

/-- Give back the slot of an Attempt's Worker. -/
def releaseAttemptSlot (attempt : Attempt) (db : Db) : Db := releaseMachineSlot attempt.machineId db

/-! ## Readiness -/

def readinessStaleAfterMs : ℤ := 12 * 60 * 60000

/-- The fields placement reads from an Attempt or an Experiment. -/
structure WorkContract where
  profile : String
  executor : Executor
  imageRelease : String
  vcpus : ℕ
  memoryMiB : ℕ
  createdAt : ℤ

/-- Whether a Worker's readiness row lets it take work for this exact contract now. -/
def isSchedulableReadiness (readiness : WorkerReadiness)
    (evidence : Option ReadinessEvidence) (machine : Option Machine) (work : WorkContract)
    (workerLabels : Option (List String)) (profileEgress : ProfileEgress) (now : ℤ) : Bool :=
  match machine with
  | none => false
  | some machine =>
    readiness.state = .ready && carriesHostLabels js workerLabels machine.labels &&
      readiness.executor = work.executor && readiness.imageRelease = work.imageRelease &&
      now - readiness.checkedAt < readinessStaleAfterMs &&
      readinessAdmissionError readiness evidence profileEgress = none &&
      now - machine.lastSeen < workerOfflineAfterMs

/-! ## The snapshot -/

/-- What active work takes of a Worker. -/
structure Reservation where
  vcpus : ℕ
  memoryMiB : ℕ
  count : ℕ

def Reservation.zero : Reservation := ⟨0, 0, 0⟩

/-- The part of the snapshot that placement consumes. -/
structure Ledger where
  reservedByMachine : OrderedMap (DocId Machine) Reservation
  idleWarmByMachineProfile : OrderedMap (DocId Machine × String) ℤ
  usedSlotsByMachine : OrderedMap (DocId Machine) ℤ

/-- Everything placement reads, loaded once. -/
structure SchedulerSnapshot where
  now : ℤ
  pendingAttempts : List (DocId Attempt × Attempt)
  queuedExperiments : List (DocId Experiment × Experiment)
  activeProfileByName : OrderedMap String Profile
  machineById : OrderedMap (DocId Machine) Machine
  readyByProfile : OrderedMap String (List WorkerReadiness)
  evidenceByMachineProfile : OrderedMap (DocId Machine × String) ReadinessEvidence
  ledger : Ledger

variable (snapshot : SchedulerSnapshot) (ledger : Ledger)

def Attempt.contract (attempt : Attempt) : WorkContract where
  profile := attempt.profile
  executor := attempt.executor
  imageRelease := attempt.imageRelease
  vcpus := attempt.vcpus
  memoryMiB := attempt.memoryMiB
  createdAt := attempt.createdAt

def Experiment.contract (experiment : Experiment) : WorkContract where
  profile := experiment.profile
  executor := .firecracker
  imageRelease := experiment.imageRelease
  vcpus := experiment.vcpus
  memoryMiB := experiment.memoryMiB
  createdAt := experiment.createdAt

def reservedAttemptStates : List AttemptState := [.preparing, .ready, .running]
def reservedExperimentStates : List ExperimentState := [.preparing, .running]
def readinessStates : List ReadinessState := [.preparing, .ready, .degraded, .failed]

/-- Reserve one guest's resources on the Worker that carries it. -/
def reserveGuest (reserved : OrderedMap (DocId Machine) Reservation)
    (active : OrderedMap (DocId Machine × String) ℕ) (machineId : Option (DocId Machine))
    (work : WorkContract) :
    OrderedMap (DocId Machine) Reservation × OrderedMap (DocId Machine × String) ℕ :=
  match machineId with
  | none => (reserved, active)
  | some machineId =>
    let r := (reserved.find machineId).getD .zero
    (reserved.set machineId ⟨r.vcpus + work.vcpus, r.memoryMiB + work.memoryMiB, r.count + 1⟩,
      active.set (machineId, work.profile) ((active.find (machineId, work.profile)).getD 0 + 1))

/-- Reserve the warm guests a Worker keeps for a Profile beyond those its work already uses. -/
def reserveWarm (profiles : OrderedMap String Profile)
    (machineById : OrderedMap (DocId Machine) Machine)
    (active : OrderedMap (DocId Machine × String) ℕ)
    (state : OrderedMap (DocId Machine) Reservation × OrderedMap (DocId Machine × String) ℤ)
    (readiness : WorkerReadiness) :
    OrderedMap (DocId Machine) Reservation × OrderedMap (DocId Machine × String) ℤ :=
  match readiness.warmPool, machineById.find readiness.machineId, profiles.find readiness.profile with
  | some warmPool, some _, some profile =>
    if profile.executor ≠ readiness.executor ∨ profile.imageRelease ≠ readiness.imageRelease ∨
        (readiness.vcpus ≠ none ∧ readiness.vcpus ≠ some profile.vcpus) ∨
        (readiness.memoryMiB ≠ none ∧ readiness.memoryMiB ≠ some profile.memoryMiB) ∨
        warmPool.target ≠ profile.warmPool.getD 0 then
      state
    else
      let key := (readiness.machineId, readiness.profile)
      -- truncated subtraction is `Math.max(0, target - active)`
      let idle := warmPool.parked + warmPool.claimed - (active.find key).getD 0
      if idle = 0 then state
      else
        let r := (state.1.find readiness.machineId).getD .zero
        (state.1.set readiness.machineId
            ⟨r.vcpus + idle * profile.vcpus, r.memoryMiB + idle * profile.memoryMiB, r.count + idle⟩,
          state.2.set key (idle : ℤ))
  | _, _, _ => state

/-- The evidence rows of the ready readiness rows, each looked up with `.unique()`. -/
def loadEvidence (db : Db) : List WorkerReadiness → Result (List ReadinessEvidence)
  | [] => pure []
  | readiness :: rest => do
      let evidence ← db.readinessEvidence.unique (.notUnique "readinessEvidence") fun row =>
        row.machineId = readiness.machineId && row.profile = readiness.profile
      let others ← loadEvidence db rest
      pure ((evidence.map Prod.snd).toList ++ others)

/-- Read everything that placing the given work may depend on. -/
def loadSchedulerSnapshot (now : ℤ) (pendingAttempts : List (DocId Attempt × Attempt))
    (queuedExperiments : List (DocId Experiment × Experiment)) (db : Db) :
    Result SchedulerSnapshot := do
  let reservedAttempts := reservedAttemptStates.flatMap fun state =>
    db.attempts.collect fun attempt => attempt.state = state
  let reservedExperiments := reservedExperimentStates.flatMap fun state =>
    db.experiments.collect fun experiment => experiment.state = state
  let machines := db.machines.collect fun machine => machine.lastSeen > now - workerOfflineAfterMs
  let profiles := (db.profiles.collect fun profile => profile.state = .active).map Prod.snd
  let allReadiness := profiles.flatMap fun profile => readinessStates.flatMap fun state =>
    (db.workerReadiness.collect fun readiness =>
      readiness.profile = profile.name && readiness.state = state).map Prod.snd
  let ready := allReadiness.filter fun readiness => readiness.state = .ready
  let evidence ← loadEvidence db ready
  let activeProfileByName := OrderedMap.ofList (profiles.map fun p => (p.name, p))
  let machineById := OrderedMap.ofList machines
  let readyByProfile := ready.foldl (fun (rows : OrderedMap String (List WorkerReadiness)) readiness =>
      rows.set readiness.profile ((rows.find readiness.profile).getD [] ++ [readiness])) []
  let work := (pendingAttempts ++ reservedAttempts).map (fun r => (r.2.machineId, r.2.contract)) ++
    (queuedExperiments ++ reservedExperiments).map (fun r => (r.2.machineId, r.2.contract))
  let (reserved, active) := work.foldl (fun s r => reserveGuest s.1 s.2 r.1 r.2) ([], [])
  let (reserved, idleWarm) :=
    allReadiness.foldl (reserveWarm activeProfileByName machineById active) (reserved, [])
  pure
    { now := now
      pendingAttempts := pendingAttempts
      queuedExperiments := queuedExperiments
      activeProfileByName := activeProfileByName
      machineById := machineById
      readyByProfile := readyByProfile
      evidenceByMachineProfile :=
        OrderedMap.ofList (evidence.map fun e => ((e.machineId, e.profile), e))
      ledger :=
        { reservedByMachine := reserved
          idleWarmByMachineProfile := idleWarm
          usedSlotsByMachine := OrderedMap.ofList (machines.map fun r => (r.1, r.2.usedSlots)) } }

/-- Whether a Profile still describes exactly this work's contract. -/
def matchesActiveProfile (work : WorkContract) : Bool :=
  match snapshot.activeProfileByName.find work.profile with
  | none => false
  | some profile =>
    profile.executor = work.executor && profile.imageRelease = work.imageRelease &&
      profile.vcpus = work.vcpus && profile.memoryMiB = work.memoryMiB

/-! ## Placement -/

/-- A Worker that could take a piece of work, with what it is ranked by. -/
structure Candidate where
  machineId : DocId Machine
  machine : Machine
  usesWarm : Bool
  resourcePressure : ℚ
  benchmark : BenchmarkScore

/-- What of a host's capacity placement may use: all of it when one job fills the host, nine
tenths otherwise, and any amount when the host has not reported it (`none`). -/
def usable (capacity : Option ℕ) (demand : ℕ) : Option ℕ :=
  capacity.map fun capacity => if capacity ≤ demand then capacity else 9 * capacity / 10

/-- No amount exceeds a limit that is not known. -/
def exceeds (amount : ℕ) (limit : Option ℕ) : Bool :=
  match limit with
  | none => false
  | some limit => amount > limit

/-- The share of a limit that an amount takes. -/
def pressureOf (amount : ℕ) (limit : Option ℕ) : ℚ :=
  match limit with
  | none => 0
  | some limit => (amount : ℚ) / limit

/-- A ready Worker as a candidate for this work, if it has room for it. -/
def candidateOf (fitPolicy : FitPolicy)
    (work : WorkContract) (readiness : WorkerReadiness) (machine : Machine) : Option Candidate :=
  let machineId := readiness.machineId
  let reserved := (ledger.reservedByMachine.find machineId).getD .zero
  let usableVCPUs := usable machine.cpus work.vcpus
  let usableMemoryMiB := usable machine.memoryMiB work.memoryMiB
  let usesWarm := (ledger.idleWarmByMachineProfile.find (machineId, work.profile)).getD 0 > 0
  let additionalVCPUs := if usesWarm then 0 else work.vcpus
  let additionalMemoryMiB := if usesWarm then 0 else work.memoryMiB
  let additionalGuests : ℤ := if usesWarm then 0 else 1
  let usedSlots := (ledger.usedSlotsByMachine.find machineId).getD machine.usedSlots
  let occupiedGuests := max (reserved.count : ℤ) usedSlots
  if occupiedGuests + additionalGuests > machine.maxSlots ∨
      exceeds (reserved.vcpus + additionalVCPUs) usableVCPUs = true ∨
      exceeds (reserved.memoryMiB + additionalMemoryMiB) usableMemoryMiB = true ∨
      hasSnapshotHeadroomForGuests readiness.facts.storage
        (occupiedGuests + additionalGuests) = false then
    none
  else
    some
      { machineId := machineId
        machine := machine
        usesWarm := usesWarm
        resourcePressure := max (max (pressureOf reserved.vcpus usableVCPUs)
          (pressureOf reserved.memoryMiB usableMemoryMiB))
          ((occupiedGuests : ℚ) / machine.maxSlots)
        benchmark := benchmarkScore machine.benchmark fitPolicy snapshot.now }

/-- Least pressure first; the benchmark ranks candidates at equal pressure, and the name is the
final tie-break. -/
def Candidate.before (a b : Candidate) : Bool := a.resourcePressure < b.resourcePressure ||
    (a.resourcePressure = b.resourcePressure && (a.benchmark.score > b.benchmark.score ||
        (a.benchmark.score = b.benchmark.score &&
          js.localeCompare a.machine.name b.machine.name ≠ .gt)))

/-- The ranked candidates for a piece of work. -/
def candidatesFor (work : WorkContract) : List Candidate :=
  let profile := snapshot.activeProfileByName.find work.profile
  let fitPolicy := (profile.bind Profile.fitPolicy).getD .balanced
  let workerLabels := profile.bind Profile.workerLabels
  let egress := profileEgressOf (profile.bind Profile.egress)
  let candidates := ((snapshot.readyByProfile.find work.profile).getD []).filterMap fun readiness =>
      let machine := snapshot.machineById.find readiness.machineId
      let evidence := snapshot.evidenceByMachineProfile.find (readiness.machineId, readiness.profile)
      if isSchedulableReadiness js readiness evidence machine work workerLabels egress snapshot.now then
        machine.bind (candidateOf snapshot ledger fitPolicy work readiness)
      else none
  candidates.insertionSort fun a b => a.before js b = true

def FitPolicy.text : FitPolicy → String
  | .balanced => "balanced"
  | .cpu => "cpu"
  | .network => "network"
  | .io => "io"

def BenchmarkSource.text : BenchmarkSource → String
  | .missing => "missing"
  | .stale => "stale"
  | .fresh => "fresh"

/-- `q.toFixed(3)` of a number that is not negative. -/
def toFixed3 (q : ℚ) : String :=
  let thousandths := (q * 1000 + 1 / 2).floor.toNat
  let digits := toString (1000 + thousandths % 1000)
  s!"{thousandths / 1000}." ++ String.ofList (digits.toList.drop 1)

/-- The note that an assignment keeps. -/
def selectionReasonOf (candidate : Candidate) (fitPolicy : FitPolicy) (eligible : ℕ) : String :=
  let pressure := toFixed3 candidate.resourcePressure
  let benchmark := candidate.benchmark
  s!"hard compatibility passed; pressure={pressure}; " ++
    s!"{fitPolicy.text} benchmark={benchmark.score}/100 ({benchmark.source.text}); " ++
    s!"eligible={eligible}"

structure Assignment where
  machineId : DocId Machine
  selectionReason : String

/-- The ledger after a piece of work went to a candidate. -/
def Ledger.consume (work : WorkContract) (candidate : Candidate) : Ledger :=
  let machineId := candidate.machineId
  let warmKey := (machineId, work.profile)
  let reserved := (ledger.reservedByMachine.find machineId).getD .zero
  { reservedByMachine := ledger.reservedByMachine.set machineId (if candidate.usesWarm then reserved
      else ⟨reserved.vcpus + work.vcpus, reserved.memoryMiB + work.memoryMiB, reserved.count + 1⟩)
    idleWarmByMachineProfile :=
      if candidate.usesWarm then
        ledger.idleWarmByMachineProfile.set warmKey
          ((ledger.idleWarmByMachineProfile.find warmKey).getD 1 - 1)
      else ledger.idleWarmByMachineProfile
    usedSlotsByMachine := ledger.usedSlotsByMachine.set machineId
      ((ledger.usedSlotsByMachine.find machineId).getD 0 + 1) }

/-- Place one piece of work on its best candidate. -/
def placeOne (work : WorkContract) : Option Assignment × Ledger :=
  let profile := snapshot.activeProfileByName.find work.profile
  let fitPolicy := (profile.bind Profile.fitPolicy).getD .balanced
  match candidatesFor js snapshot ledger work with
  | [] => (none, ledger)
  | candidate :: rest =>
    (some ⟨candidate.machineId, selectionReasonOf candidate fitPolicy (rest.length + 1)⟩,
      ledger.consume work candidate)

/-- An item of the queue, by its identifier. -/
inductive WorkItem
  | attempt (attemptId : DocId Attempt) (work : WorkContract)
  | experiment (experimentId : DocId Experiment) (work : WorkContract)

def WorkItem.work : WorkItem → WorkContract
  | .attempt _ work => work
  | .experiment _ work => work

/-- Place items in order, first fit; a later item sees the earlier ones' placements. -/
def placeInOrder (js : Engine) (snapshot : SchedulerSnapshot) :
    Ledger → List WorkItem → List (WorkItem × Option Assignment) × Ledger
  | ledger, [] => ([], ledger)
  | ledger, item :: items =>
    let (placed, ledger) := placeOne js snapshot ledger item.work
    let (placements, ledger) := placeInOrder js snapshot ledger items
    ((item, placed) :: placements, ledger)

/-- Unassigned work the scheduler would consider, oldest first. -/
def unassignedQueue : List WorkItem :=
  let attempts := (snapshot.pendingAttempts.filter fun r => r.2.machineId = none).map
    fun r => WorkItem.attempt r.1 r.2.contract
  let experiments := (snapshot.queuedExperiments.filter fun r => r.2.machineId = none).map
    fun r => WorkItem.experiment r.1 r.2.contract
  ((attempts ++ experiments).filter fun item =>
    matchesActiveProfile snapshot item.work).insertionSort
      fun a b => a.work.createdAt ≤ b.work.createdAt

/-! ## Assignment -/

/-- The row of an Attempt placed on a Worker. -/
def assignedAttempt (assignment : Assignment) (stored : Attempt) : Attempt := { stored with
    machineId := some assignment.machineId
    selectionReason := some assignment.selectionReason }

/-- The row of an Experiment placed on a Worker. -/
def assignedExperiment (assignment : Assignment) (stored : Experiment) : Experiment := { stored with
    machineId := some assignment.machineId
    selectionReason := some assignment.selectionReason }

/-- Write one placement. -/
def applyPlacement (db : Db) (placement : WorkItem × Option Assignment) : Db :=
  match placement with
  | (_, none) => db
  | (.attempt attemptId _, some assignment) =>
    db.patchAttempt attemptId (assignedAttempt assignment)
  | (.experiment experimentId _, some assignment) =>
    db.patchExperiment experimentId (assignedExperiment assignment)

/-- Write back the slot count of one Worker, if placement changed it. -/
def applyUsedSlots (machineById : OrderedMap (DocId Machine) Machine) (db : Db)
    (entry : DocId Machine × ℤ) : Db :=
  match machineById.find entry.1 with
  | none => db
  | some machine =>
    if machine.usedSlots ≠ entry.2 then
      db.patchMachine entry.1 fun stored => { stored with usedSlots := entry.2 }
    else db

/-- Assign queued work to Workers; returns how many items it placed. -/
def AttemptScheduler.tryAssign (now : ℤ) (db : Db) : Result (ℕ × Db) := do
  let pendingAttempts := db.attempts.collect fun attempt => attempt.state = .pending
  let queuedExperiments := db.experiments.collect fun experiment => experiment.state = .queued
  if pendingAttempts.all (fun r => r.2.machineId ≠ none) &&
      queuedExperiments.all (fun r => r.2.machineId ≠ none) then
    return (0, db)
  let snapshot ← loadSchedulerSnapshot now pendingAttempts queuedExperiments db
  let (placements, ledger) := placeInOrder js snapshot snapshot.ledger (unassignedQueue snapshot)
  let placed := placements.foldl applyPlacement db
  let counted := ledger.usedSlotsByMachine.foldl (applyUsedSlots snapshot.machineById) placed
  pure ((placements.filter fun placement => placement.2.isSome).length, counted)

end EraInfra
