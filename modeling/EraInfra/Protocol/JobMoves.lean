import EraInfra.Protocol.CallEffects
import EraInfra.Protocol.JobProtocol

/-!
# The calls as moves of the board

Each call, as the moves of the `JobBoard` it amounts to.  A pass of the reconciler is in
`JobSweepMoves`; every other call is here.

The calls of the Attempt protocol leave the board as it is (`perform_board`).  The events are where
the moves that touch two jobs come from: `board_displace` says what becomes of a runner's command
when GitHub started it on another job.
-/

namespace EraInfra

open DocStore List Option Table Board JobStatus
open Prod (fst)

variable {js : Engine} {now : ℤ} {d : Discipline} {w : Board} {db db' : Db} {j : DocId Job}
  {k : DocId Command} {job job' : Job} {c : Command}

/-! ## The Attempt protocol -/

lemma Untouched.board (h : Untouched db db') : db'.board = db.board := board_congr h.jobs h.commands

variable {released : Bool} {exitCode : ℚ} {runnerName : Option String}
  {existing : Option (DocId Job × Job)} {event : WorkflowJobEvent}

lemma Edits.board {i : DocId Attempt} {a : Attempt} {f : Attempt → Attempt} {dropped : Bool}
    (h : Edits i a f released dropped db db') : db'.board = db.board :=
  board_congr h.jobs h.commands

lemma EditsOne.board {c : Call} (h : EditsOne c db db') : db'.board = db.board := by
  rcases h with h | ⟨i, a, f, released, dropped, he, -⟩
  · exact h.board
  · exact he.board

lemma EditsExperiment.board {i : DocId Experiment} {e : Experiment} {f : Experiment → Experiment} (h : EditsExperiment i e f released db db') : db'.board = db.board := by
  rw [h.eq]
  cases released with
  | false => rfl
  | true =>
    rw [releaseMachineSlot_eq]
    rfl

lemma board_applyPlacement (db : Db) (p : WorkItem × Option Assignment) :
    (applyPlacement db p).board = db.board := by
  rcases p with ⟨_ | _, _ | _⟩ <;> rfl

/-- Only a pass of the reconciler touches legacy jobs. -/
lemma perform_board {c : Call} (h : perform js c db = .ok db') (hop : c.op ≠ .reconcile) :
    db'.board = db.board := by
  cases perform_effect h with
  | one _ _ hone => exact hone.board
  | passed _ _ hinv _ =>
    exact hinv (fun db₁ => db₁.board = db.board)
      ⟨fun _ _ _ _ _ _ _ he _ h => he.board.trans h, fun _ _ _ _ h => h, fun _ h => h⟩ rfl
  | created args _ hcreated =>
    rcases createAttempt_cases hcreated with rfl | ⟨-, rfl⟩
    · rfl
    · rfl
  | joined tokens machine _ _ => rfl
  | placed n _ hplaced =>
    rcases tryAssign_cases hplaced with rfl | ⟨placements, machineById, slots, rfl, -⟩
    · rfl
    · rw [foldl_frame Db.board (view_applyUsedSlots Db.board (fun _ _ => rfl) machineById),
        foldl_frame Db.board board_applyPlacement]
  | requested e _ _ => rfl
  | experiment _ he => exact he.board
  | reconciled r hop' _ => exact absurd hop' hop

/-! ## Commands -/

lemma moves_of_eq (h : db'.board = db.board) : Moves d db.board db'.board := by
  rw [h]

/-- A change to a command that leaves its job, its Worker and its name. -/
lemma moves_patchCommand (db : Db) (k : DocId Command) {f : Command → Command}
    (hf : ∀ c, (f c).jobId = c.jobId ∧ (f c).runnerName = c.runnerName ∧
      (f c).machineId = c.machineId) : Moves d db.board (db.patchCommand k f).board := by
  cases hk : db.commands.get k with
  | none =>
    refine moves_of_eq ?_
    ext1
    · rfl
    · rfl
    · funext i
      show (db.commands.patch k f).get i = db.commands.get i
      rw [get_patch]
      split
      · rename_i hi
        rw [hi, hk]
        rfl
      · rfl
    · rfl
  | some c =>
    rw [board_patchCommand f hk]
    exact .single (.noted k c (f c) hk (hf c).1 (hf c).2.1 (hf c).2.2)

lemma board_enqueueRunnerDeletion (now : ℤ) (command : Command) (job : Option Job) (db : Db) :
    (enqueueRunnerDeletion now command job db).board = db.board :=
  view_enqueueRunnerDeletion Db.board fun _ _ => rfl

lemma board_discardCommand (now : ℤ) (k : DocId Command) (command : Command) (job : Option Job)
    (db : Db) : (discardCommand now k command job db).board = db.board.setCommand k none := by
  rw [← board_enqueueRunnerDeletion now command job db]
  exact board_deleteCommand k _

lemma board_discardCommands (now : ℤ) (commands : List (DocId Command × Command)) (job : Option Job)
    (db : Db) :
    (discardCommands now commands job db).board = db.board.discards (commands.map fst) := by
  induction commands generalizing db with
  | nil => rfl
  | cons r commands ih =>
    show (discardCommands now commands job (discardCommand now r.1 r.2 job db)).board = _
    rw [ih, board_discardCommand]
    rfl

lemma board_releaseJobSlot (machineId : Option (DocId Machine)) (db : Db) :
    (releaseJobSlot machineId db).board = db.board := by
  unfold releaseJobSlot
  split
  · rfl
  · split
    · rfl
    · rfl

lemma mem_commandsForJob :
    k ∈ (commandsForJob j db).map fst ↔ ∃ c, db.commands.get k = some c ∧ c.jobId = j := by
  constructor
  · intro h
    obtain ⟨⟨k', c⟩, hr, rfl⟩ := mem_map.mp h
    obtain ⟨hget, hjob⟩ := mem_collect.mp hr
    exact ⟨c, hget, by simpa using hjob⟩
  · rintro ⟨c, hget, hjob⟩
    exact mem_map.mpr ⟨(k, c), mem_collect.mpr ⟨hget, by simpa using hjob⟩, rfl⟩

/-- What is left when a job's commands are discarded is of other jobs. -/
lemma of_command_discards_commandsForJob
    (h : (db.board.discards ((commandsForJob j db).map fst)).command k = some c) :
    db.commands.get k = some c ∧ c.jobId ≠ j := by
  rw [command_discards] at h
  split at h
  · simp at h
  · rename_i hk
    exact ⟨h, fun hjob => hk (mem_commandsForJob.mpr ⟨c, h, hjob⟩)⟩

/-- The Agent and the JIT action only write a command's progress. -/
lemma storeJitConfig_moves (jitConfig : String) (runnerId : Option ℕ) :
    Moves d db.board (storeJitConfig k jitConfig runnerId db).2.board := by
  unfold storeJitConfig
  split
  · exact .refl
  · split
    · exact .refl
    · exact moves_patchCommand db k fun _ => ⟨rfl, rfl, rfl⟩

variable {token : String} {p adopted : Job} {ghJobId : ℕ}

lemma claim_moves {r : Option ClaimedCommand}
    (h : AgentApi.claim now token k db = .ok (r, db')) : Moves d db.board db'.board := by
  obtain ⟨⟨machineId, machine⟩, -, h⟩ := bind_ok.mp h
  dsimp only at h
  split at h
  · cases h
    exact .refl
  split at h
  · cases h
    exact .refl
  split at h
  · cases h
    exact .refl
  · cases h
    exact moves_patchCommand db k fun _ => ⟨rfl, rfl, rfl⟩

/-! ## Failed provisioning -/

lemma board_settleFailedJob (now : ℤ) (row : Job) (error : String)
    (failedOn : Option (DocId Machine)) (hj : db.jobs.get j = some job) :
    ∃ job', (settleFailedJob now j row error failedOn db).board = db.board.setJob j (some job') ∧
      GivenUp job job' ∧ (job'.status = .failed → job'.finishedAt = some now) := by
  unfold settleFailedJob
  split
  · exact ⟨_, board_patchJob _ hj, ⟨rfl, rfl, .inr rfl⟩, fun _ => rfl⟩
  · exact ⟨_, board_patchJob _ hj, ⟨rfl, rfl, .inl rfl⟩, by simp⟩

/-- **What a reported failure does.**  Without its command it acts on the job the caller named; with
it, on the command and its owner. -/
theorem failAttempt_cases (now : ℤ) (commandId : Option (DocId Command)) (jobId : DocId Job)
    (error : String) (db : Db) :
    (commandId.bind db.commands.get = none ∧
      ((∀ job, db.jobs.get jobId = some job → job.status ≠ .assigned) ∧
          failAttempt now commandId jobId error db = db ∨
        ∃ job, db.jobs.get jobId = some job ∧ job.status = .assigned ∧
          failAttempt now commandId jobId error db = settleFailedJob now jobId job error
            job.machineId (releaseJobSlot job.machineId db))) ∨
    ∃ k c, commandId = some k ∧ db.commands.get k = some c ∧
      ((∀ job, db.jobs.get c.jobId = some job → job.status ≠ .assigned) ∧
          failAttempt now commandId jobId error db = discardCommand now k c (db.jobs.get c.jobId) db ∨
        ∃ job machineId, db.jobs.get c.jobId = some job ∧ job.status = .assigned ∧
          machineId = (job.machineId.orElse fun _ => some c.machineId) ∧
          failAttempt now commandId jobId error db = settleFailedJob now c.jobId job error machineId
            (releaseJobSlot machineId (discardCommand now k c (some job) db))) := by
  unfold failAttempt
  cases hcommand : commandId.bind db.commands.get with
  | none =>
    refine .inl ⟨rfl, ?_⟩
    dsimp only [map_none, getD_none]
    rcases hjob : db.jobs.get jobId with _ | job
    · exact .inl ⟨by simp, by cases commandId <;> rfl⟩
    by_cases hassigned : job.status = .assigned
    · refine .inr ⟨job, rfl, hassigned, ?_⟩
      dsimp only
      rw [if_neg (not_not.mpr hassigned)]
      cases commandId <;> cases job.machineId <;> rfl
    · refine .inl ⟨by simpa using hassigned, ?_⟩
      dsimp only
      rw [if_pos hassigned]
      cases commandId <;> rfl
  | some c =>
    obtain ⟨k, rfl, hk⟩ := bind_eq_some_iff.mp hcommand
    refine .inr ⟨k, c, rfl, hk, ?_⟩
    dsimp only [map_some, getD_some]
    rcases hjob : db.jobs.get c.jobId with _ | job
    · exact .inl ⟨by simp, rfl⟩
    by_cases hassigned : job.status = .assigned
    · refine .inr ⟨job, _, rfl, hassigned, rfl, ?_⟩
      dsimp only
      rw [if_neg (not_not.mpr hassigned)]
    · refine .inl ⟨by simpa using hassigned, ?_⟩
      dsimp only
      rw [if_pos hassigned]

/-- The command that failed goes, and its job is given up. -/
lemma board_failed (now : ℤ) (k : DocId Command) (error : String)
    (machineId : Option (DocId Machine)) (hj : db.jobs.get c.jobId = some job) :
    ∃ job', (settleFailedJob now c.jobId job error machineId
        (releaseJobSlot machineId (discardCommand now k c (some job) db))).board
      = (db.board.setCommand k none).setJob c.jobId (some job') ∧ GivenUp job job' := by
  have hreleased := (board_releaseJobSlot machineId (discardCommand now k c (some job) db)).trans
    (board_discardCommand now k c (some job) db)
  have hrow := (congrArg (fun w => w.job c.jobId) hreleased).trans hj
  obtain ⟨job', hboard, hup, -⟩ := board_settleFailedJob now job error machineId hrow
  exact ⟨job', by rw [hboard, hreleased], hup⟩

/-- A reported failure is a move when it finds its command, or a job without an assignment. -/
lemma failAttempt_moves {commandId : Option (DocId Command)} {jobId : DocId Job} (error : String)
    (hlive : d.tidy → ReportsLive commandId jobId db) :
    Moves d db.board (failAttempt now commandId jobId error db).board := by
  rcases failAttempt_cases now commandId jobId error db with
    ⟨hgone, ⟨-, heq⟩ | ⟨job, hj, hassigned, heq⟩⟩ | ⟨k, c, rfl, hk, hcases⟩
  · exact moves_of_eq (by rw [heq])
  · have hreleased := board_releaseJobSlot job.machineId db
    have hrow : (releaseJobSlot job.machineId db).jobs.get jobId = some job :=
      (congrArg (fun w => w.job jobId) hreleased).trans hj
    obtain ⟨job', hboard, hup, -⟩ := board_settleFailedJob now job error job.machineId hrow
    rw [heq, hboard, hreleased]
    refine .single (.unassigned jobId job job' hj hassigned hup fun htidy => ?_)
    rcases hlive htidy with hsome | hnot
    · simp [hgone] at hsome
    · exact absurd hassigned (hnot job hj)
  · rcases hcases with ⟨-, heq⟩ | ⟨job, machineId, hj, hassigned, -, heq⟩
    · rw [heq, board_discardCommand]
      exact .single (.discarded k)
    · obtain ⟨job', hboard, hup⟩ := board_failed now k error machineId hj
      rw [heq, hboard]
      exact .single (.failed k c job job' hk hj hassigned hup)

/-- A report acts on a command that is there: it fails the attempt, or notes how it ended. -/
lemma report_cases {r : Bool} (h : AgentApi.report now token k exitCode db = .ok (r, db')) :
    db' = db ∨ (∃ c error, db.commands.get k = some c ∧
        db' = failAttempt now (some k) c.jobId error db) ∨
      db' = db.patchCommand k fun stored =>
        { stored with status := .finished, exitCode := some exitCode } := by
  unfold AgentApi.report at h
  by_cases hint : (!isInteger exitCode) = true
  · rw [if_pos hint] at h
    obtain ⟨_, hthrow, _⟩ := bind_ok.mp h
    cases hthrow
  rw [if_neg hint] at h
  obtain ⟨⟨machineId, machine⟩, -, h⟩ := bind_ok.mp h
  dsimp only at h
  split at h
  · cases h
    exact .inl rfl
  rename_i c hk
  split at h
  · cases h
    exact .inl rfl
  split at h
  · cases h
    exact .inr (.inl ⟨c, _, hk, rfl⟩)
  · cases h
    exact .inr (.inr rfl)

lemma report_moves {r : Bool}
    (h : AgentApi.report now token k exitCode db = .ok (r, db')) : Moves d db.board db'.board := by
  rcases report_cases h with rfl | ⟨c, error, hk, rfl⟩ | rfl
  · exact .refl
  · exact failAttempt_moves error fun _ => .inl (by simp [hk])
  · exact moves_patchCommand db k fun _ => ⟨rfl, rfl, rfl⟩

/-! ## Assignment -/

lemma board_assign {m : DocId Machine} (f : Machine → Machine) (g : Job → Job) (c : Command)
    (hj : db.jobs.get j = some job) :
    Db.board { (db.patchMachine m f).patchJob j g with
      commands := ((db.patchMachine m f).patchJob j g).commands.insert c }
      = (db.board.setJob j (some (g job))).addCommand c := by
  have hrow : (db.patchMachine m f).jobs.get j = some job := hj
  rw [board_insertCommand, board_patchJob g hrow]
  rfl

/-- One iteration of the scheduler changes nothing, or mints a command for a queued job. -/
lemma assignJob_cases (s : AssignState) (r : DocId Job × Job) (hr : s.db.jobs.get r.1 = some r.2) :
    (assignJob now s r).db.board = s.db.board ∨ ∃ (machine : Machine) (job' : Job) (c : Command),
        (assignJob now s r).db.board = (s.db.board.setJob r.1 (some job')).addCommand c ∧
        job'.ghJobId = r.2.ghJobId ∧ job'.attempts = some (r.2.attempts.getD 0 + 1) ∧
        job'.status = .assigned ∧ c.jobId = r.1 ∧ isAssignmentOf job' c = true ∧
        c.runnerName = runnerNameFor machine r.2.ghJobId (r.2.attempts.getD 0 + 1) := by
  unfold assignJob
  split
  · exact .inl rfl
  · rename_i seat entry hseat
    exact .inr ⟨seat.machine, _, _, board_assign _ _ _ hr, rfl, rfl, rfl, rfl,
      by simp [isAssignmentOf], rfl⟩

/-- **The scheduler's pass** is a series of assignments. -/
theorem assignJobs_moves (now : ℤ) (db : Db) :
    Moves d db.board (Scheduler.tryAssign now db).2.board := by
  have hrow : ∀ r ∈ ((db.jobs.collect fun job => job.status = .queued).filter fun r =>
      r.2.nextAttemptAt.getD 0 ≤ now).insertionSort fun a b => a.2.queuedAt ≤ b.2.queuedAt,
      db.jobs.get r.1 = some r.2 ∧ r.2.status = .queued := by
    intro r hr
    have hmem := mem_of_mem_filter ((mem_insertionSort _).mp hr)
    exact (mem_collect.mp hmem).imp id fun h => by simpa using h
  have hdistinct : (((db.jobs.collect fun job => job.status = .queued).filter fun r =>
      r.2.nextAttemptAt.getD 0 ≤ now).insertionSort fun a b => a.2.queuedAt ≤ b.2.queuedAt).Pairwise
      fun r s => r.1 ≠ s.1 :=
    (List.Perm.pairwise_iff Ne.symm (perm_insertionSort _ _)).mpr (collect_nodup.filter _)
  refine foldlM_rows (fun s i => s.db.jobs.get i) (fun s => Moves d db.board s.db.board)
    (foldlM_ok (assignJob now) ⟨db, _, []⟩) hdistinct (fun r hr => (hrow r hr).1) .refl ?_
  rintro r hr s _ hmoves hfound ⟨⟩
  rcases assignJob_cases s r hfound with heq | ⟨machine, job', c, heq, hg, hattempts, hassigned, hc,
    hcurrent, hname⟩
  · exact ⟨heq ▸ hmoves, fun i _ => congrArg (fun w => w.job i) heq⟩
  refine ⟨?_, fun i hi => ?_⟩
  · rw [heq]
    exact hmoves.tail (.assigned r.1 r.2 job' machine c hfound (hrow r hr).2 hg hattempts hassigned
      hc hcurrent hname)
  · have hi' := congrArg (fun w => w.job i) heq
    simpa [hi] using hi'

/-! ## Events -/

/-- A job goes back to the queue. -/
lemma board_requeued (hboard : db.board = w) (hp : w.job j = some p) :
    ∃ p', GivenUp p p' ∧ (db.patchJob j fun stored => { stored with
        status := .queued, machineId := none, runnerName := none, nextAttemptAt := none }).board
      = w.setJob j (some p') := by
  have hrow : db.jobs.get j = some p := by
    rw [← job_board, hboard]
    exact hp
  refine ⟨_, ?_, (board_patchJob _ hrow).trans (by rw [hboard])⟩
  exact ⟨rfl, rfl, .inl rfl⟩

/-- Two jobs exchange their commands. -/
lemma board_exchanged {k₂ : DocId Command} {c₂ : Command} (f : Job → Job)
    (hk : db.commands.get k = some c) (hk₂ : db.commands.get k₂ = some c₂) (hne : k₂ ≠ k)
    (hp : db.jobs.get c.jobId = some p) :
    (((db.patchCommand k fun stored => { stored with jobId := j }).patchCommand k₂
        fun stored => { stored with jobId := c.jobId }).patchJob c.jobId f).board
      = ((db.board.setCommand k (some { c with jobId := j })).setJob c.jobId
          (some (f p))).setCommand k₂ (some { c₂ with jobId := c.jobId }) := by
  have hmoved : (db.patchCommand k fun stored => { stored with jobId := j }).board
      = db.board.setCommand k (some { c with jobId := j }) := board_patchCommand _ hk
  have hk₂' : (db.patchCommand k fun stored => { stored with jobId := j }).commands.get k₂
      = some c₂ := by
    rw [← command_board, hmoved]
    simpa [hne] using hk₂
  have hswapped := (board_patchCommand (fun stored => { stored with jobId := c.jobId }) hk₂').trans
    (by rw [hmoved])
  have hrow : ((db.patchCommand k fun stored => { stored with jobId := j }).patchCommand k₂
      fun stored => { stored with jobId := c.jobId }).jobs.get c.jobId = some p := hp
  exact (board_patchJob _ hrow).trans (by rw [hswapped]; rfl)

section

variable (now : ℤ) (actual : Job) (hk : db.commands.get k = some c) (hne : c.jobId ≠ j)
  (hp : db.jobs.get c.jobId = some p)

include hk hne hp

/-- **What becomes of a runner that GitHub started on another job.**  Its command goes to that job;
the job it was minted for takes over that job's live command, or goes back to the queue and the
commands of the other job are gone. -/
theorem board_displace : (∃ (k₂ : DocId Command) (c₂ : Command) (p' : Job), actual.status = .assigned ∧
      db.commands.get k₂ = some c₂ ∧ c₂.jobId = j ∧ p'.ghJobId = p.ghJobId ∧
      p'.attempts = p.attempts ∧ p'.status = p.status ∧ isAssignmentOf p' c₂ = true ∧
      (displace now k c.jobId j actual db).board
        = ((db.board.setCommand k (some { c with jobId := j })).setJob c.jobId (some p')).setCommand
          k₂ (some { c₂ with jobId := c.jobId })) ∨
    ∃ (ks : List (DocId Command)) (p' : Job), k ∉ ks ∧ GivenUp p p' ∧
      (displace now k c.jobId j actual db).board
        = (((db.board.discards ks).setCommand k (some { c with jobId := j })).setJob c.jobId
          (some p')) := by
  -- the commands the other job had are not this one
  have hother : ∀ k₂ c₂, db.commands.get k₂ = some c₂ → c₂.jobId = j → k₂ ≠ k := by
    rintro k₂ c₂ hk₂ hc₂ rfl
    cases hk.symm.trans hk₂
    exact hne hc₂
  have hkept : k ∉ (commandsForJob j db).map fst := fun hmem =>
    let ⟨c', hk', hc'⟩ := mem_commandsForJob.mp hmem
    hother k c' hk' hc' rfl
  have hdiscarded := (board_discardCommands now (commandsForJob j db) (some actual)
    (db.patchCommand k fun stored => { stored with jobId := j })).trans
    (by rw [board_patchCommand _ hk, setCommand_discards hkept])
  have hrequeued : ∀ db₁ : Db, db₁.board
      = (db.board.discards ((commandsForJob j db).map fst)).setCommand k
        (some { c with jobId := j }) → _ := fun db₁ hboard =>
    board_requeued (p := p) (j := c.jobId) hboard (by simpa using hp)
  unfold displace
  dsimp only
  split
  · rename_i k₂ c₂ hfind
    split
    · rename_i hassigned
      obtain ⟨hk₂, hc₂⟩ := mem_collect.mp (mem_of_find?_eq_some hfind)
      have hc₂ : c₂.jobId = j := by simpa using hc₂
      refine .inl ⟨k₂, c₂, _, hassigned, hk₂, hc₂, ?_, ?_, ?_, ?_,
        board_exchanged _ hk hk₂ (hother k₂ c₂ hk₂ hc₂) hp⟩
      · rfl
      · rfl
      · rfl
      · simp [isAssignmentOf]
    · obtain ⟨p', hup, hboard⟩ := hrequeued _ hdiscarded
      exact .inr ⟨_, p', hkept, hup, hboard⟩
  · obtain ⟨p', hup, hboard⟩ := hrequeued (if actual.status = .assigned then
        releaseJobSlot actual.machineId (discardCommands now (commandsForJob j db) (some actual)
          (db.patchCommand k fun stored => { stored with jobId := j }))
      else discardCommands now (commandsForJob j db) (some actual)
        (db.patchCommand k fun stored => { stored with jobId := j })) (by
      split
      · exact (board_releaseJobSlot _ _).trans hdiscarded
      · exact hdiscarded)
    exact .inr ⟨_, p', hkept, hup, hboard⟩

/-- The row of the job GitHub started is not touched by that. -/
lemma job_displace : (displace now k c.jobId j actual db).jobs.get j = db.jobs.get j := by
  rw [← job_board]
  rcases board_displace now actual hk hne hp with
    ⟨k₂, c₂, p', -, -, -, -, -, -, -, hboard⟩ | ⟨ks, p', -, -, hboard⟩
  · rw [hboard]
    simp [Ne.symm hne]
  · rw [hboard]
    simp [Ne.symm hne]

end

/-- The job GitHub started either stays as it is, or adopts the command of an assigned job: its own
or another. -/
lemma adoptRunnerAssignment_cases {actual : Job}
    (h : adoptRunnerAssignment now j actual runnerName db = .ok (adopted, db')) :
    adopted = actual ∧ db' = db ∨ ∃ (k : DocId Command) (c : Command) (p : Job) (attempts : Option ℕ),
        actual.status.isTerminal = false ∧ db.commands.get k = some c ∧
        db.jobs.get c.jobId = some p ∧ p.status = .assigned ∧
        adopted = adoptedJob now c.machineId c.runnerName attempts actual ∧
        (c.jobId = j ∧ attempts = actual.attempts ∧
            db' = db.patchJob j (adoptedJob now c.machineId c.runnerName attempts) ∨
          c.jobId ≠ j ∧ attempts = some (actual.attempts.getD 0 + 1) ∧
            db' = (displace now k c.jobId j actual db).patchJob j
              (adoptedJob now c.machineId c.runnerName attempts)) := by
  unfold adoptRunnerAssignment at h
  split at h
  · cases h
    exact .inl ⟨rfl, rfl⟩
  split at h
  · cases h
    exact .inl ⟨rfl, rfl⟩
  rename_i runnerName hactive
  obtain ⟨row, hrow, h⟩ := bind_ok.mp h
  split at h
  · cases h
    exact .inl ⟨rfl, rfl⟩
  rename_i k c
  obtain ⟨hk, hname, -⟩ := unique_some hrow
  obtain rfl : c.runnerName = runnerName := by simpa using hname
  split at h
  · cases h
    exact .inl ⟨rfl, rfl⟩
  split at h
  · cases h
    exact .inl ⟨rfl, rfl⟩
  rename_i p hp
  split at h
  · cases h
    exact .inl ⟨rfl, rfl⟩
  rename_i hprovisioned
  split at h
  · cases h
    exact .inl ⟨rfl, rfl⟩
  cases h
  refine .inr ⟨k, c, p, _, by simpa using hactive, hk, hp, ?_, rfl, ?_⟩
  · by_contra hne
    exact hprovisioned (.inr hne)
  · by_cases hown : c.jobId = j
    · exact .inl ⟨hown, by simp [hown], by simp [hown]⟩
    · exact .inr ⟨hown, by simp [hown], by simp [hown]⟩

lemma adoptedJob_advances {machineId : DocId Machine} {runnerName : String} {attempts : Option ℕ}
    (hactive : job.status.isTerminal = false)
    (hattempts : job.attempts.getD 0 ≤ attempts.getD 0) :
    Advances job (adoptedJob now machineId runnerName attempts job) :=
  ⟨hactive, rfl, hattempts, .inl rfl⟩

lemma adoptRunnerAssignment_moves {actual : Job} (hj : db.jobs.get j = some actual)
    (h : adoptRunnerAssignment now j actual runnerName db = .ok (adopted, db')) :
    Moves d db.board db'.board ∧ db'.jobs.get j = some adopted := by
  rcases adoptRunnerAssignment_cases h with ⟨rfl, rfl⟩ |
    ⟨k, c, p, attempts, hactive, hk, hp, hassigned, rfl, ⟨hown, rfl, rfl⟩ | ⟨hother, rfl, rfl⟩⟩
  · exact ⟨.refl, hj⟩
  · rw [← job_board, board_patchJob _ hj]
    exact ⟨.single (.advanced j actual _ hj (adoptedJob_advances hactive le_rfl)), by simp⟩
  have hadvances : Advances actual (adoptedJob now c.machineId c.runnerName
      (some (actual.attempts.getD 0 + 1)) actual) := adoptedJob_advances hactive (Nat.le_succ _)
  have hrow := (job_displace now actual hk hother hp).trans hj
  rcases board_displace now actual hk hother hp with
    ⟨k₂, c₂, p', hassigned₂, hk₂, hc₂, hg, hattempts, hstatus, hcurrent, hboard⟩ |
    ⟨ks, p', hks, hup, hboard⟩
  · rw [← job_board, board_patchJob _ hrow, hboard]
    refine ⟨.single ?_, by simp⟩
    have hmove := Move.swapped (d := d) (w := db.board) k c p p' j actual _ k₂ c₂ hk hother hp
      hassigned hj hassigned₂ hadvances rfl hk₂ hc₂ hg hattempts (hstatus.trans hassigned) hcurrent
    exact setJob_comm (w := (db.board.setCommand k _).setCommand k₂ _) hother ▸ hmove
  · rw [← job_board, board_patchJob _ hrow, hboard]
    refine ⟨(moves_discards _ ks).tail ?_, by simp⟩
    have hk' : (db.board.discards ks).command k = some c := by
      rw [command_discards, if_neg hks]
      exact hk
    have hmove := Move.displaced (d := d) (w := db.board.discards ks) k c p p' j actual _ hk' hother
      (by simpa using hp) hassigned hup (by simpa using hj) hadvances rfl
    exact setJob_comm (w := (db.board.discards ks).setCommand k _) hother ▸ hmove

lemma cancelCommands_moves (now : ℤ) (neverStarted : Bool) (job : Job)
    (commands : List (DocId Command × Command)) (db : Db) :
    Moves d db.board (cancelCommands now neverStarted job commands db).board ∧
      (cancelCommands now neverStarted job commands db).jobs = db.jobs := by
  refine foldlRecOn (motive := fun (s : Db) => Moves d db.board s.board ∧ s.jobs = db.jobs)
    commands _ ⟨.refl, rfl⟩ fun s hs r _ => ?_
  have hcancelled : Moves d db.board (s.patchCommand r.1 fun stored =>
      { stored with status := .cancelled, cancelledAt := some now }).board :=
    hs.1.trans (moves_patchCommand s r.1 fun _ => ⟨rfl, rfl, rfl⟩)
  split
  · exact hs
  split
  · rw [board_enqueueRunnerDeletion, view_enqueueRunnerDeletion Db.jobs fun _ _ => rfl]
    exact ⟨hcancelled, hs.2⟩
  · exact ⟨hcancelled, hs.2⟩

lemma terminal_of_conclusion (conclusion : String) :
    (if conclusion = "success" then JobStatus.done else .failed).isTerminal = true := by
  split <;> rfl

/-- A job that finished is settled for good. -/
lemma settleCompleted_moves (now : ℤ) (conclusion : String) (hj : db.jobs.get j = some job)
    (hactive : job.status.isTerminal = false) :
    Moves d db.board (settleCompleted now conclusion j job db).board ∧
      ∃ job', (settleCompleted now conclusion j job db).jobs.get j = some job' ∧
        job'.ghJobId = job.ghJobId ∧ job'.status.isTerminal = true := by
  have hend := terminal_of_conclusion conclusion
  unfold settleCompleted
  dsimp only
  generalize hpatch : (fun stored : Job => { stored with
    status := if conclusion = "success" then done else .failed
    conclusion := some conclusion
    finishedAt := some now
    nextAttemptAt := none }) = f
  have hf : (f job).ghJobId = job.ghJobId ∧ (f job).status.isTerminal = true ∧
      (f job).attempts = job.attempts := by
    rw [← hpatch]
    exact ⟨rfl, hend, rfl⟩
  have hboard := (board_releaseJobSlot job.machineId (db.patchJob j f)).trans (board_patchJob f hj)
  obtain ⟨hmoves, hjobs⟩ := cancelCommands_moves (d := d) now (job.status ≠ .running) job
    (commandsForJob j (releaseJobSlot job.machineId (db.patchJob j f)))
    (releaseJobSlot job.machineId (db.patchJob j f))
  rw [hboard] at hmoves
  refine ⟨.head (.advanced j job (f job) hj ?_) hmoves, f job, ?_, hf.1, hf.2.1⟩
  · exact ⟨hactive, hf.1, by rw [hf.2.2], .inr hf.2.1⟩
  · rw [hjobs, ← job_board, hboard]
    simp

lemma jobByGhJobId_some (h : jobByGhJobId ghJobId db = some (j, job)) :
    db.jobs.get j = some job ∧ job.ghJobId = ghJobId := by
  obtain ⟨hget, hg⟩ := mem_collect.mp (mem_of_mem_head? h)
  exact ⟨hget, by simpa using hg⟩

lemma jobByGhJobId_none (h : jobByGhJobId ghJobId db = none) (j : DocId Job)
    (b : Job) (hb : db.jobs.get j = some b) : b.ghJobId ≠ ghJobId := by
  intro hg
  have hmem : (j, b) ∈ db.jobs.collect fun job => job.ghJobId = ghJobId :=
    mem_collect.mpr ⟨hb, by simpa using hg⟩
  rw [head?_eq_none_iff.mp h] at hmem
  simp at hmem

lemma receive_moves (hnone : jobByGhJobId ghJobId db = none) (hg : job.ghJobId = ghJobId) :
    Moves d db.board (Db.board { db with jobs := db.jobs.insert job }) := by
  rw [board_insertJob]
  exact .single (.received job get_next fun j b hb =>
    hg ▸ jobByGhJobId_none hnone j b hb)

lemma adoptKnown_moves (hexisting : jobByGhJobId event.ghJobId db = existing)
    (h : adoptRunnerAssignment now (knownJob now event existing db).1.1
      (knownJob now event existing db).1.2 event.runnerName (knownJob now event existing db).2
        = .ok (adopted, db')) :
    Moves d db.board db'.board ∧ db'.jobs.get (knownJob now event existing db).1.1 = some adopted ∧
      adopted.ghJobId = event.ghJobId := by
  -- the row an event is about is the one that was there, or a new one
  obtain ⟨hmoves, hj, hg⟩ : Moves d db.board (knownJob now event existing db).2.board ∧
      (knownJob now event existing db).2.jobs.get (knownJob now event existing db).1.1
        = some (knownJob now event existing db).1.2 ∧
      (knownJob now event existing db).1.2.ghJobId = event.ghJobId := by
    cases existing with
    | some row => exact ⟨.refl, jobByGhJobId_some hexisting⟩
    | none => exact ⟨receive_moves hexisting rfl, get_insert.trans (if_pos rfl), rfl⟩
  obtain ⟨hmoves', hj'⟩ := adoptRunnerAssignment_moves (d := d) hj h
  have hg' : adopted.ghJobId = (knownJob now event existing db).1.2.ghJobId := by
    rcases adoptRunnerAssignment_cases h with ⟨rfl, -⟩ | ⟨k, c, p, attempts, -, -, -, -, rfl, -⟩
    · rfl
    · rfl
  exact ⟨hmoves.trans hmoves', hj', hg'.trans hg⟩

/-- **An event is a series of moves**, and a job whose completion was applied is finished. -/
theorem applyWorkflowJob_moves (h : applyWorkflowJob now event db = .ok db') :
    Moves d db.board db'.board ∧ (event.action = .completed →
        jobByGhJobId event.ghJobId db ≠ none ∨ event.labels.contains "self-hosted" = true →
        ∃ j job, db'.jobs.get j = some job ∧ job.ghJobId = event.ghJobId ∧
          job.status.isTerminal = true) := by
  unfold applyWorkflowJob at h
  generalize hexisting : jobByGhJobId event.ghJobId db = existing at h
  dsimp only at h
  split at h
  · rename_i hignored
    cases h
    refine ⟨.refl, fun _ hknown => ?_⟩
    simp only [Bool.and_eq_true, isNone_iff_eq_none, Bool.not_eq_true'] at hignored
    rcases hknown with hknown | hlabel
    · exact absurd hignored.1 hknown
    · rw [hignored.2] at hlabel
      simp at hlabel
  cases haction : event.action with
  | queued =>
    rw [haction] at h
    refine ⟨?_, by simp⟩
    rcases existing with _ | ⟨j, job⟩
    · cases h
      exact receive_moves hexisting rfl
    dsimp only at h
    split at h
    · cases h
      have hj := (jobByGhJobId_some hexisting).1
      rw [board_patchJob _ hj]
      exact .single (.annotated j job _ hj ⟨rfl, rfl, rfl, rfl, rfl, rfl⟩)
    · cases h
      exact .refl
  | inProgress =>
    rw [haction] at h
    refine ⟨?_, by simp⟩
    obtain ⟨⟨adopted, db₁⟩, hadopt, h⟩ := bind_ok.mp h
    obtain ⟨hmoves, hj, -⟩ := adoptKnown_moves (d := d) hexisting hadopt
    dsimp only at h
    split at h
    · rename_i hwaiting
      cases h
      rw [board_patchJob _ hj]
      refine hmoves.tail (.advanced _ adopted _ hj ⟨?_, rfl, le_rfl, .inl rfl⟩)
      rcases hwaiting with hwaiting | hwaiting <;> simp [hwaiting, isTerminal]
    · cases h
      exact hmoves
  | completed =>
    rw [haction] at h
    dsimp only at h
    split at h
    · rename_i hnew
      cases h
      simp only [Bool.and_eq_true, isNone_iff_eq_none] at hnew
      refine ⟨receive_moves (hexisting.trans hnew.1) rfl, fun _ _ =>
        ⟨db.jobs.next, _, (get_insert).trans (if_pos rfl), rfl, ?_⟩⟩
      exact terminal_of_conclusion _
    obtain ⟨⟨adopted, db₁⟩, hadopt, h⟩ := bind_ok.mp h
    obtain ⟨hmoves, hj, hg⟩ := adoptKnown_moves (d := d) hexisting hadopt
    split at h
    · rename_i hend
      cases h
      exact ⟨hmoves, fun _ _ => ⟨_, adopted, hj, hg, hend⟩⟩
    rename_i hactive
    cases h
    obtain ⟨hsettled, settled, hrow, hg', hend⟩ := settleCompleted_moves now
      (event.conclusion.getD "unknown") hj (by simpa using hactive)
    exact ⟨hmoves.trans hsettled, fun _ _ => ⟨_, settled, hrow, hg'.trans hg, hend⟩⟩

/-! ## The operator -/

/-- The commands left when a job's own are gone were not minted for it, if those minted for it were
its own. -/
lemma not_minted_of_discards (hown : OwnsMinted j db) (hj : db.jobs.get j = some job)
    (hk : (db.board.discards ((commandsForJob j db).map fst)).command k = some c) :
    ¬ MintedFor job.ghJobId c := by
  obtain ⟨hget, hother⟩ := of_command_discards_commandsForJob hk
  exact fun hminted => hother (hown job hj k c hget hminted)

lemma dropJob_moves (hlasting : ¬ d.lasting) (hown : d.numbered → OwnsMinted j db) :
    Moves d db.board (dropJob now j db).board := by
  unfold dropJob
  cases hj : db.jobs.get j with
  | none => exact .refl
  | some job =>
    rw [board_deleteJob, show ∀ p : Prop, ∀ [Decidable p] a b, (if p then a else b).board
      = if p then a.board else b.board from fun p _ a b => apply_ite Db.board p a b,
      board_releaseJobSlot, ite_self, board_discardCommands]
    refine (moves_discards _ _).tail (.forgotten j job (by simpa using hj) hlasting ?_)
    exact fun hd k c hk => not_minted_of_discards (hown hd) hj hk

lemma requeueJob_moves (hlasting : ¬ d.lasting) (hown : d.numbered → OwnsMinted j db) :
    Moves d db.board (requeueJob now j db).board := by
  unfold requeueJob
  rcases hj : db.jobs.get j with _ | job
  · exact .refl
  dsimp only
  split
  · exact .refl
  have hboard := (board_releaseJobSlot job.machineId _).trans
    (board_discardCommands now (commandsForJob j db) (some job) db)
  have hrow : (releaseJobSlot job.machineId
      (discardCommands now (commandsForJob j db) (some job) db)).jobs.get j = some job := by
    rw [← job_board, hboard]
    simpa using hj
  rw [board_patchJob _ hrow, hboard]
  refine (moves_discards _ _).tail (.reset j job _ (by simpa using hj) rfl rfl ?_ hlasting ?_)
  · exact fun k c hk => (of_command_discards_commandsForJob hk).2
  · exact fun hd k c hk => not_minted_of_discards (hown hd) hj hk

end EraInfra
