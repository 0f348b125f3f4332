import EraInfra.Protocol.AttemptSweep
import EraInfra.Protocol.JobMoves

/-!
# A pass of the reconciler as moves of the board

The pass reads the active commands once, before its loops, and takes an assignment off a job with
the commands it then read.  That these are all the commands the job has is what makes it a move: a
finished command of an assigned job has to be among those the pass deletes first (`ClearsFinished`).

`SweptTo` is what holds of the board while the loops run: it was reached by moves, its commands are
commands from before, and a job past its retention is one from before — the loops stamp the jobs
they end with the time of the pass — so that what `OutlivesMinted` says of the start still holds when
the retention deletes begin.
-/

namespace EraInfra

open DocStore List Option Table Board JobStatus

variable {now : ℤ} {d : Discipline} {w : Board} {db db' : Db} {j : DocId Job} {k : DocId Command}
  {job job' : Job} {c c' : Command}

/-! ## While the loops run -/

structure SweptTo (d : Discipline) (now : ℤ) (db : Db) (w : Board) : Prop where
  moves : Moves d db.board w
  commands : ∀ k c, w.command k = some c → ∃ c₀, db.commands.get k = some c₀ ∧
    (k, c₀) ∉ finishedCommands db ∧ c.jobId = c₀.jobId ∧ c.runnerName = c₀.runnerName
  stale : ∀ j job, w.job j = some job → job.isStale now → db.jobs.get j = some job

lemma SweptTo.discards (h : SweptTo d now db w) (ks : List (DocId Command)) :
    SweptTo d now db (w.discards ks) := by
  refine ⟨h.moves.trans (moves_discards w ks), fun k c hk => ?_, fun j job hj => ?_⟩
  · rw [command_discards] at hk
    split at hk
    · simp at hk
    · exact h.commands k c hk
  · rw [job_discards] at hj
    exact h.stale j job hj

/-- A job is rewritten, and is not past its retention. -/
lemma SweptTo.setJob (h : SweptTo d now db w) (hmove : Move d w (w.setJob j (some job')))
    (hfresh : ¬ job'.isStale now) : SweptTo d now db (w.setJob j (some job')) := by
  refine ⟨h.moves.tail hmove, h.commands, fun i b hb hstale => ?_⟩
  rcases of_job_setJob hb with ⟨-, rfl⟩ | ⟨-, hb⟩
  · exact absurd hstale hfresh
  · exact h.stale i b hb hstale

variable {db₁ : Db} {ids : List (DocId Job)}

/-- The progress of a command is written. -/
lemma SweptTo.note {f : Command → Command} (h : SweptTo d now db db₁.board)
    (hf : ∀ c, (f c).jobId = c.jobId ∧ (f c).runnerName = c.runnerName ∧
      (f c).machineId = c.machineId) : SweptTo d now db (db₁.patchCommand k f).board := by
  refine ⟨h.moves.trans (moves_patchCommand db₁ k hf), fun i c hi => ?_, h.stale⟩
  have hpatched : (db₁.commands.patch k f).get i = some c := hi
  rw [get_patch] at hpatched
  split at hpatched
  · obtain ⟨c₁, hc₁, rfl⟩ := map_eq_some_iff.mp hpatched
    obtain ⟨c₀, hc₀, hkept, hjob, hname⟩ := h.commands i c₁ hc₁
    exact ⟨c₀, hc₀, hkept, (hf c₁).1.trans hjob, (hf c₁).2.1.trans hname⟩
  · exact h.commands i c hpatched

/-- A job that ended in this pass is not past its retention. -/
lemma not_stale_of_finished (h : job.finishedAt = some now) : ¬ job.isStale now := by
  rintro ⟨-, hold⟩
  rw [h, getD_some, sub_self] at hold
  exact absurd hold (by decide)

/-- What is asked of the retention deletes still holds when they begin. -/
lemma SweptTo.outlives (h : SweptTo d now db db₁.board) (hdb : OutlivesMinted now db) :
    OutlivesMinted now db₁ := by
  intro j job hj hstale k c hk hminted
  obtain ⟨c₀, hc₀, -, -, hname⟩ := h.commands k c hk
  obtain ⟨machine, n, hmint⟩ := hminted
  exact hdb j job (h.stale j job hj hstale) hstale k c₀ hc₀ ⟨machine, n, hname ▸ hmint⟩

/-! ### The job loops -/

/-- Every command an assigned job still has is one the pass read. -/
lemma SweptTo.commandsOf (h : SweptTo d now db w) (hclears : ClearsFinished db)
    (hj : db.jobs.get j = some job) (hassigned : job.status = .assigned)
    (hk : w.command k = some c) (hc : c.jobId = j) :
    k ∈ ((sweepContext now db).commandsOf j).map Prod.fst := by
  obtain ⟨c₀, hc₀, hkept, hjob, -⟩ := h.commands k c hk
  have hown : c₀.jobId = j := hjob ▸ hc
  have hactive : c₀.status ∈ activeCommandStates := by
    have hne : c₀.status ≠ .finished := fun hfinished =>
      hclears k c₀ hc₀ hfinished hkept job (hown ▸ hj) hassigned
    cases hs : c₀.status <;> simp [activeCommandStates, hs] at hne ⊢
  refine mem_map.mpr ⟨(k, c₀), mem_filter.mpr ⟨?_, by simpa using hown⟩, rfl⟩
  exact mem_collectBy.mpr ⟨hc₀, hactive⟩

/-- What one iteration of a job loop does: the board stays swept, and no other job is written. -/
def SweepsOne (d : Discipline) (now : ℤ) (db : Db) (j : DocId Job) (db₁ db₂ : Db) : Prop :=
  SweptTo d now db db₂.board ∧ ∀ i, i ≠ j → db₂.jobs.get i = db₁.jobs.get i

variable {s : Sweep} {r : DocId Job × Job}

lemma sweepAssignedJob_moves (hclears : d.tidy → ClearsFinished db)
    (hj : db.jobs.get r.1 = some r.2) (hassigned : r.2.status = .assigned)
    (hfound : s.db.jobs.get r.1 = some r.2) (h : SweptTo d now db s.db.board) :
    SweepsOne d now db r.1 s.db (sweepAssignedJob (sweepContext now db) s r).db := by
  let ks := ((sweepContext now db).commandsOf r.1).map Prod.fst
  have hsettled : ∀ reason, SweepsOne d now db r.1 s.db
      (settleFailedJob now r.1 r.2 reason r.2.machineId (Sweep.releaseSlot { s with
        db := discardCommands now ((sweepContext now db).commandsOf r.1) (some r.2) s.db }
        r.2.machineId ((sweepContext now db).machineOf r.2.machineId)).db) := by
    intro reason
    have hreleased := (view_releaseSlot Db.board (fun _ _ => rfl) { s with
      db := discardCommands now ((sweepContext now db).commandsOf r.1) (some r.2) s.db }
      r.2.machineId ((sweepContext now db).machineOf r.2.machineId)).trans
      (board_discardCommands now ((sweepContext now db).commandsOf r.1) (some r.2) s.db)
    have hrow : (Sweep.releaseSlot { s with
        db := discardCommands now ((sweepContext now db).commandsOf r.1) (some r.2) s.db }
        r.2.machineId ((sweepContext now db).machineOf r.2.machineId)).db.jobs.get r.1
        = some r.2 := by
      rw [← job_board, hreleased]
      simpa using hfound
    obtain ⟨job', hboard, hup, hfinished⟩ := board_settleFailedJob now r.2 reason r.2.machineId hrow
    rw [hreleased] at hboard
    refine ⟨?_, fun i hi => ?_⟩
    · rw [hboard]
      refine (h.discards ks).setJob (.unassigned r.1 r.2 job' (by simpa using hfound) hassigned hup
        fun htidy k c hk hc => ?_) ?_
      · rw [command_discards] at hk
        split at hk
        · simp at hk
        · rename_i hks
          exact hks (h.commandsOf (hclears htidy) hj hassigned hk hc)
      · rcases hup.status with hqueued | hfailed
        · rintro ⟨hend, -⟩
          simp [hqueued, isTerminal] at hend
        · exact not_stale_of_finished (hfinished hfailed)
    · rw [← job_board, hboard]
      simp [hi]
  unfold sweepAssignedJob
  dsimp only
  split
  · exact ⟨h, fun _ _ => rfl⟩
  split
  · exact hsettled _
  · exact hsettled _

/-- The commands of an abandoned job are written as finished, and stay. -/
lemma abandonCommands_moves (job : Job) (commands : List (DocId Command × Command))
    (h : SweptTo d now db db₁.board) :
    SweptTo d now db (abandonCommands now job commands db₁).board ∧
      (abandonCommands now job commands db₁).jobs = db₁.jobs := by
  refine foldlRecOn commands _ (motive := fun db₂ : Db =>
    SweptTo d now db db₂.board ∧ db₂.jobs = db₁.jobs) ⟨h, rfl⟩ fun db₂ hdb₂ r _ => ?_
  rw [board_enqueueRunnerDeletion, view_enqueueRunnerDeletion Db.jobs fun _ _ => rfl]
  split
  · exact ⟨hdb₂.1.note fun _ => ⟨rfl, rfl, rfl⟩, hdb₂.2⟩
  · exact hdb₂

lemma sweepRunningJob_moves (hrunning : r.2.status = .running)
    (hfound : s.db.jobs.get r.1 = some r.2) (h : SweptTo d now db s.db.board) :
    SweepsOne d now db r.1 s.db (sweepRunningJob (sweepContext now db) s r).db := by
  unfold sweepRunningJob
  dsimp only
  split
  · exact ⟨h, fun _ _ => rfl⟩
  have hfailed : SweptTo d now db (s.db.patchJob r.1 fun stored =>
      { stored with
        status := .failed
        conclusion := some "abandoned"
        finishedAt := some now }).board := by
    rw [board_patchJob _ hfound]
    refine h.setJob (.advanced r.1 r.2 _ hfound ?_) (not_stale_of_finished rfl)
    exact ⟨by simp [hrunning, isTerminal], rfl, le_rfl, .inr rfl⟩
  obtain ⟨hswept, hjobs⟩ := abandonCommands_moves r.2 ((sweepContext now db).commandsOf r.1) hfailed
  refine ⟨?_, fun i hi => ?_⟩
  · rw [view_releaseSlot Db.board fun _ _ => rfl]
    exact hswept
  · rw [← job_board, view_releaseSlot Db.board fun _ _ => rfl]
    exact (congrArg (fun jobs : Table Job => jobs.get i) hjobs).trans (get_patch_ne hi)

/-- The jobs of some statuses are as they were when the pass began. -/
def Unswept (db : Db) (statuses : List JobStatus) (s : Sweep) : Prop :=
  ∀ i job, db.jobs.get i = some job → job.status ∈ statuses → s.db.jobs.get i = some job

/-- A loop over the jobs of one status. -/
lemma sweep_loop (status : JobStatus) (rest : List JobStatus) {f : Sweep → DocId Job × Job → Sweep}
    (hstep : ∀ s r, db.jobs.get r.1 = some r.2 → r.2.status = status →
      s.db.jobs.get r.1 = some r.2 → SweptTo d now db s.db.board →
      SweepsOne d now db r.1 s.db (f s r).db) (hrest : status ∉ rest)
    (h : SweptTo d now db s.db.board) (hu : Unswept db (status :: rest) s) :
    SweptTo d now db ((jobsWith status db).foldl f s).db.board ∧
      Unswept db rest ((jobsWith status db).foldl f s) := by
  have hmem : ∀ r ∈ jobsWith status db, db.jobs.get r.1 = some r.2 ∧ r.2.status = status :=
    fun r hr => (mem_collect.mp hr).imp id fun hs => by simpa using hs
  refine foldlM_rows (fun s i => s.db.jobs.get i)
    (fun s => SweptTo d now db s.db.board ∧ Unswept db rest s) (foldlM_ok f s) collect_nodup
    (fun r hr => hu r.1 r.2 (hmem r hr).1 (by simp [(hmem r hr).2]))
    ⟨h, fun i job hi hstatus => hu i job hi (mem_cons_of_mem _ hstatus)⟩ ?_
  rintro r hr s _ hs hfound ⟨⟩
  obtain ⟨hget, hstatus⟩ := hmem r hr
  obtain ⟨hswept, hothers⟩ := hstep s r hget hstatus hfound hs.1
  refine ⟨⟨hswept, fun i job hi hin => ?_⟩, hothers⟩
  have hne : i ≠ r.1 := by
    rintro rfl
    cases hi.symm.trans hget
    exact hrest (hstatus ▸ hin)
  rw [hothers i hne]
  exact hs.2 i job hi hin

lemma board_deleteCommands (ids : List (DocId Command)) (db : Db) :
    Db.board { db with commands := ids.foldl delete db.commands } = db.board.discards ids := by
  induction ids generalizing db with
  | nil => rfl
  | cons k ids ih =>
    have h := ih { db with commands := db.commands.delete k }
    rw [board_deleteCommand] at h
    exact h

lemma sweptTo_initial (d : Discipline) (now : ℤ) (db : Db) :
    SweptTo d now db (initialSweep db).db.board := by
  have hboard := board_deleteCommands ((finishedCommands db).map Prod.fst) db
  refine ⟨?_, fun k c hk => ?_, fun j job hj _ => hj⟩
  · rw [show (initialSweep db).db.board = _ from hboard]
    exact moves_discards _ _
  rw [show (initialSweep db).db.board = _ from hboard, command_discards] at hk
  split at hk
  · simp at hk
  · rename_i hnot
    exact ⟨c, hk, fun hmem => hnot (mem_map.mpr ⟨(k, c), hmem, rfl⟩), rfl, rfl⟩

/-- **The job loops**, from the deletion of finished commands on. -/
theorem sweepJobs_moves (hclears : d.tidy → ClearsFinished db) :
    SweptTo d now db (sweepJobs (sweepContext now db) db (initialSweep db)).db.board := by
  obtain ⟨h₁, hu₁⟩ := sweep_loop (s := initialSweep db) .assigned [.running, .queued]
    (fun s r hget hassigned hfound h => sweepAssignedJob_moves hclears hget hassigned hfound h)
    (by decide) (sweptTo_initial d now db) fun i job hi _ => hi
  obtain ⟨h₂, hu₂⟩ := sweep_loop .running [.queued]
    (fun s r _ hrunning hfound h => sweepRunningJob_moves hrunning hfound h) (by decide) h₁ hu₁
  refine (sweep_loop .queued [] (fun s r _ hqueued hfound h => ?_) (by decide) h₂ hu₂).1
  unfold sweepQueuedJob
  split
  · exact ⟨h, fun _ _ => rfl⟩
  · refine ⟨?_, fun i hi => get_patch_ne hi⟩
    rw [board_patchJob _ hfound]
    refine h.setJob (.advanced r.1 r.2 _ hfound ?_) (not_stale_of_finished rfl)
    exact ⟨by simp [hqueued, isTerminal], rfl, le_rfl, .inr rfl⟩

/-! ## Retention -/

/-- Some jobs are deleted. -/
def Board.forgets (w : Board) (ids : List (DocId Job)) : Board :=
  ids.foldl (fun w j => w.setJob j none) w

lemma Board.of_job_forgets (h : (w.forgets ids).job j = some job) : w.job j = some job := by
  induction ids generalizing w with
  | nil => exact h
  | cons i ids ih => exact of_job_forgotten (ih h)

lemma board_deleteJobs (ids : List (DocId Job)) (db : Db) :
    Db.board { db with jobs := ids.foldl delete db.jobs } = db.board.forgets ids := by
  induction ids generalizing db with
  | nil => rfl
  | cons j ids ih =>
    have h := ih { db with jobs := db.jobs.delete j }
    rw [board_deleteJob] at h
    exact h

lemma moves_forgets (hlasting : ¬ d.lasting) (h : d.numbered → ∀ j ∈ ids, ∀ job, w.job j = some job →
      ∀ k c, w.command k = some c → ¬ MintedFor job.ghJobId c) : Moves d w (w.forgets ids) := by
  induction ids generalizing w with
  | nil => exact .refl
  | cons j ids ih =>
    have hrest : Moves d (w.setJob j none) ((w.setJob j none).forgets ids) :=
      ih fun hd i hi b hb => h hd i (mem_cons_of_mem _ hi) b (of_job_forgotten hb)
    cases hj : w.job j with
    | none =>
      have hsame : w.setJob j none = w := by
        ext1
        · funext i
          rw [job_setJob]
          split
          · rename_i hi
            rw [hi, hj]
          · rfl
        · rfl
        · rfl
        · rfl
      rw [hsame] at hrest
      show Moves d w ((w.setJob j none).forgets ids)
      rwa [hsame]
    | some job =>
      exact .head (.forgotten j job hj hlasting fun hd => h hd j mem_cons_self job hj) hrest

/-- The retention deletes of one status. -/
lemma purgeStatus_moves (status : JobStatus) (hstatus : status.isTerminal = true)
    (hlasting : ¬ d.lasting) (h : d.numbered → OutlivesMinted now db)
    (hdb' : db' = { db with
      jobs := ((staleJobs now status db.jobs).map Prod.fst).foldl delete db.jobs }) :
    Moves d db.board db'.board ∧ (d.numbered → OutlivesMinted now db') := by
  have hkept : ∀ i job, db'.jobs.get i = some job → db.jobs.get i = some job := by
    intro i job hi
    rw [← job_board, hdb', board_deleteJobs] at hi
    exact of_job_forgets hi
  refine ⟨?_, fun hd i job hi hstale k c hk => ?_⟩
  · rw [hdb', board_deleteJobs]
    refine moves_forgets hlasting fun hd i hi job hrow => h hd i job hrow ?_
    obtain ⟨⟨i, b⟩, hmem, rfl⟩ := mem_map.mp hi
    obtain ⟨htaken, hold⟩ := mem_filter.mp hmem
    obtain ⟨hget, hp⟩ := mem_collect.mp (mem_takeEarliest htaken)
    cases hget.symm.trans hrow
    simp only [Bool.and_eq_true, decide_eq_true_eq] at hp
    exact ⟨hp.1 ▸ hstatus, by simpa using hold⟩
  · rw [hdb'] at hk
    exact h hd i job (hkept i job hi) hstale k c hk

/-! ## The whole pass -/

lemma board_purgeAttempts (h : purgeAttempts now db = .ok db') : db'.board = db.board := by
  refine foldlM_keeps (P := fun db₁ : Db => db₁.board = db.board) (fun state _ db₁ db₂ hP hinner => ?_)
    rfl h
  refine foldlM_keeps (P := fun db₁ : Db => db₁.board = db.board) (fun i _ db₁ db₂ hP hpurge => ?_)
    hP hinner
  obtain ⟨secrets, records, rfl, -⟩ := purgeAttempt_spec hpurge
  exact hP

lemma OutlivesMinted.congr (h : OutlivesMinted now db) (hboard : db'.board = db.board) :
    OutlivesMinted now db' := by
  intro j job hj hstale k c hk
  rw [← job_board, hboard] at hj
  rw [← command_board, hboard] at hk
  exact h j job hj hstale k c hk

/-- Only the deletes of jobs matter to the board. -/
lemma purge_moves (hlasting : ¬ d.lasting) (houtlives : d.numbered → OutlivesMinted now db)
    (h : purge now db = .ok db') : Moves d db.board db'.board := by
  obtain ⟨db₁, hattempts, rfl⟩ := purge_stages h
  have hothers : (purgeRecovery now (purgeDeliveries now (purgeRegistrationTokens now db))).board
      = db.board := by
    simp only [Db.board, purgeRecovery, purgeDeliveries, purgeRegistrationTokens]
  have hlast : (purgeExperiments now db₁).board = db₁.board := by
    simp only [Db.board, purgeExperiments]
  rw [hlast, board_purgeAttempts hattempts]
  obtain ⟨hdone, hfailed⟩ := purgeStatus_moves .done rfl hlasting
    (fun hd => (houtlives hd).congr hothers) rfl
  exact hdone.trans (purgeStatus_moves .failed rfl hlasting hfailed rfl).1

/-- **A pass of the reconciler is a series of moves.** -/
theorem reconcile_moves {r : ReconcileResult} (hlasting : ¬ d.lasting)
    (hclears : d.tidy → ClearsFinished db) (houtlives : d.numbered → OutlivesMinted now db)
    (h : Reconcile.run now db = .ok (r, db')) : Moves d db.board db'.board := by
  obtain ⟨swept, experiments, purged, machines, deliveries, hswept, hpurged, rfl⟩ := reconcile_frame h
  have hside : (sweepJobs (sweepContext now db) db (initialSweep db)).db.attemptSide
      = db.attemptSide := attemptSide_sweepJobs ..
  obtain ⟨hboard, -⟩ := sweepAttempts_each (fun s => s.db.board
    = (sweepJobs (sweepContext now db) db (initialSweep db)).db.board) hside
    (fun i a s s' hfound hget hactive hbeats hs hI => by
      rcases sweepAttempt_cases hfound hactive hbeats
        (fun m hm => loadMachines_of_attempt hget hactive hm) hs with
        ⟨hsame, -⟩ | ⟨f, released, dropped, hedits, -⟩
      · rw [hsame]
        exact hI
      · exact hedits.board.trans hI) rfl hswept
  have h : SweptTo d now db swept.db.board := hboard ▸ sweepJobs_moves hclears
  have houtlives' : d.numbered → OutlivesMinted now { swept.db with experiments := experiments } :=
    fun hd => SweptTo.outlives h (houtlives hd)
  have hpurge := purge_moves hlasting houtlives' hpurged
  exact h.moves.trans hpurge

end EraInfra
