import EraInfra.Backend.Jobs
import EraInfra.Core.Naming

/-!
# The job board

What the legacy path is for, apart from how it is stored: jobs that come in, are assigned, run and
end, and commands, each of which is the assignment of one job.  A `Board` is the two as partial
maps, and `Move` lists every change the operations make to it, one at a time or — when GitHub hands a
runner to another job than it was minted for — two jobs and their commands at once.

Some moves are only sound when something else has been cleared away before.  Which of these
conditions a run observes is its `Discipline`, and each invariant of the board needs one of them.

* **`Tidy`** — an assigned job has at most one command, the assignment it records, and a queued one
  has none.  It needs `tidy`: an assignment is taken off a job only with its command.
* **`Numbered`** — no two commands have one runner name.  It needs `numbered`: a job's attempt counter
  is forgotten only when no command minted for the job is left.
* **`Stays`** — a finished job stays as it is.  It needs `lasting`: no job is reset or deleted.
-/

namespace EraInfra

open DocStore List Option

/-! ## The board -/

@[ext] structure Board where
  job : DocId Job → Option Job
  nextJob : DocId Job
  command : DocId Command → Option Command
  nextCommand : DocId Command

namespace Board

variable (w : Board)

def setJob (j : DocId Job) (job : Option Job) : Board := { w with job := Function.update w.job j job }

def setCommand (k : DocId Command) (command : Option Command) : Board :=
  { w with command := Function.update w.command k command }

def addJob (job : Job) : Board :=
  { w with job := Function.update w.job w.nextJob (some job), nextJob := w.nextJob + 1 }

def addCommand (command : Command) : Board := { w with
    command := Function.update w.command w.nextCommand (some command)
    nextCommand := w.nextCommand + 1 }

/-- Command `k` goes to job `j`, which is started with it. -/
def handOver (k : DocId Command) (command : Command) (j : DocId Job) (job : Job) : Board :=
  (w.setJob j (some job)).setCommand k (some { command with jobId := j })

/-- Some commands are deleted. -/
def discards (ks : List (DocId Command)) : Board := ks.foldl (fun w k => w.setCommand k none) w

variable {w} {j j' : DocId Job} {k k' : DocId Command} {job : Option Job} {command : Option Command}

@[simp] lemma job_setJob : (w.setJob j job).job j' = if j' = j then job else w.job j' :=
  Function.update_apply _ _ _ _

@[simp] lemma command_setJob : (w.setJob j job).command = w.command := rfl

@[simp] lemma command_setCommand :
    (w.setCommand k command).command k' = if k' = k then command else w.command k' :=
  Function.update_apply _ _ _ _

@[simp] lemma job_setCommand : (w.setCommand k command).job = w.job := rfl

@[simp] lemma job_addJob (job : Job) :
    (w.addJob job).job j' = if j' = w.nextJob then some job else w.job j' :=
  Function.update_apply _ _ _ _

@[simp] lemma command_addCommand (command : Command) :
    (w.addCommand command).command k' = if k' = w.nextCommand then some command
      else w.command k' :=
  Function.update_apply _ _ _ _

/-- A row after a write is the one written or one from before. -/
lemma of_job_setJob {b job : Job} (h : (w.setJob j (some job)).job j' = some b) :
    j' = j ∧ job = b ∨ j' ≠ j ∧ w.job j' = some b :=
  (update_eq_some.mp h).imp_left (And.imp_right some.inj)

lemma of_command_setCommand {b command : Command}
    (h : (w.setCommand k (some command)).command k' = some b) :
    k' = k ∧ command = b ∨ k' ≠ k ∧ w.command k' = some b :=
  (update_eq_some.mp h).imp_left (And.imp_right some.inj)

/-- What is there after a delete was there before. -/
lemma of_command_discarded {b : Command} (h : (w.setCommand k none).command k' = some b) :
    k' ≠ k ∧ w.command k' = some b := by
  rcases update_eq_some.mp h with ⟨-, ⟨⟩⟩ | h
  exact h

lemma of_job_forgotten {b : Job} (h : (w.setJob j none).job j' = some b) : w.job j' = some b := by
  rcases update_eq_some.mp h with ⟨-, ⟨⟩⟩ | ⟨-, h⟩
  exact h

@[simp] lemma job_handOver (command : Command) (job : Job) :
    (w.handOver k command j job).job j' = if j' = j then some job else w.job j' :=
  job_setJob

@[simp] lemma command_handOver (command : Command) (job : Job) : (w.handOver k command j job).command k'
      = if k' = k then some { command with jobId := j } else w.command k' :=
  command_setCommand

@[simp] lemma job_addCommand (command : Command) : (w.addCommand command).job = w.job := rfl

@[simp] lemma job_discards (ks : List (DocId Command)) : (w.discards ks).job = w.job := by
  induction ks generalizing w with
  | nil => rfl
  | cons k ks ih => exact ih (w := w.setCommand k none)

lemma command_discards (ks : List (DocId Command)) :
    (w.discards ks).command k = if k ∈ ks then none else w.command k := by
  induction ks generalizing w with
  | nil => simp [discards]
  | cons k' ks ih =>
    have hhead : w.discards (k' :: ks) = (w.setCommand k' none).discards ks := rfl
    rw [hhead, ih]
    by_cases hk : k ∈ ks
    · simp [hk]
    · by_cases hk' : k = k' <;> simp [hk]

lemma setCommand_discards {ks : List (DocId Command)} (hk : k ∉ ks) :
    (w.setCommand k command).discards ks = (w.discards ks).setCommand k command := by
  induction ks generalizing w with
  | nil => rfl
  | cons k' ks ih =>
    simp only [mem_cons, not_or] at hk
    have hswap : (w.setCommand k command).setCommand k' none
        = (w.setCommand k' none).setCommand k command :=
      congrArg (fun f => { w with command := f }) (Function.update_comm hk.1 _ _ _)
    show ((w.setCommand k command).setCommand k' none).discards ks = _
    rw [hswap, ih hk.2]
    rfl

lemma setJob_comm {job' : Option Job} (h : j ≠ j') :
    (w.setJob j job).setJob j' job' = (w.setJob j' job').setJob j job :=
  congrArg (fun f => { w with job := f }) (Function.update_comm h _ _ _)

end Board

open Board

/-! ## Names -/

/-- The command's runner was named for this GitHub job. -/
def MintedFor (ghJobId : ℕ) (command : Command) : Prop :=
  ∃ machine n, command.runnerName = runnerNameFor machine ghJobId n

/-- A runner name determines the GitHub job and the attempt it was minted for, whatever the Worker
is called. -/
lemma runnerNameFor_inj {machine machine' : Machine} {g g' n n' : ℕ}
    (h : runnerNameFor machine g n = runnerNameFor machine' g' n') : g = g' ∧ n = n' := by
  obtain ⟨hstem, hn⟩ := numbered_inj h
  exact ⟨(numbered_inj hstem).2, hn⟩

/-! ## Moves -/

/-- What the calls of a run observe. -/
structure Discipline where
  /-- A job loses its assignment only with its commands. -/
  tidy : Prop
  /-- A job's attempt counter is forgotten only when no command minted for the job is left. -/
  numbered : Prop
  /-- No job is reset or deleted. -/
  lasting : Prop

/-- The job goes back to the queue or is given up, with its attempts still counted. -/
structure GivenUp (job job' : Job) : Prop where
  ghJobId : job'.ghJobId = job.ghJobId
  attempts : job'.attempts = job.attempts
  status : job'.status = .queued ∨ job'.status = .failed

/-- The job starts to run or ends. -/
structure Advances (job job' : Job) : Prop where
  active : job.status.isTerminal = false
  ghJobId : job'.ghJobId = job.ghJobId
  attempts : job.attempts.getD 0 ≤ job'.attempts.getD 0
  status : job'.status = .running ∨ job'.status.isTerminal = true

/-- Nothing about the job changes that the board is about. -/
structure Resembles (job job' : Job) : Prop where
  ghJobId : job'.ghJobId = job.ghJobId
  attempts : job'.attempts = job.attempts
  status : job'.status = job.status
  conclusion : job'.conclusion = job.conclusion
  machineId : job'.machineId = job.machineId
  runnerName : job'.runnerName = job.runnerName

/-- **Every change the operations make to the board.** -/
inductive Move (d : Discipline) (w : Board) : Board → Prop
  | noted (k : DocId Command) (c c' : Command) : w.command k = some c → c'.jobId = c.jobId →
      c'.runnerName = c.runnerName → c'.machineId = c.machineId →
      Move d w (w.setCommand k (some c'))
  | discarded (k : DocId Command) : Move d w (w.setCommand k none)
  | received (job : Job) : w.job w.nextJob = none →
      (∀ j b, w.job j = some b → b.ghJobId ≠ job.ghJobId) → Move d w (w.addJob job)
  | annotated (j : DocId Job) (job job' : Job) : w.job j = some job → Resembles job job' →
      Move d w (w.setJob j (some job'))
  | assigned (j : DocId Job) (job job' : Job) (machine : Machine) (c : Command) :
      w.job j = some job → job.status = .queued → job'.ghJobId = job.ghJobId →
      job'.attempts = some (job.attempts.getD 0 + 1) → job'.status = .assigned → c.jobId = j →
      isAssignmentOf job' c = true →
      c.runnerName = runnerNameFor machine job.ghJobId (job.attempts.getD 0 + 1) →
      Move d w ((w.setJob j (some job')).addCommand c)
  /-- The command that failed goes, and its job loses the assignment with it. -/
  | failed (k : DocId Command) (c : Command) (job job' : Job) : w.command k = some c →
      w.job c.jobId = some job → job.status = .assigned → GivenUp job job' →
      Move d w ((w.setCommand k none).setJob c.jobId (some job'))
  | unassigned (j : DocId Job) (job job' : Job) : w.job j = some job → job.status = .assigned →
      GivenUp job job' → (d.tidy → ∀ k c, w.command k = some c → c.jobId ≠ j) →
      Move d w (w.setJob j (some job'))
  | advanced (j : DocId Job) (job job' : Job) : w.job j = some job → Advances job job' →
      Move d w (w.setJob j (some job'))
  /-- The runner of one job was started on another, which had none of its own. -/
  | displaced (k : DocId Command) (c : Command) (p p' : Job) (j : DocId Job) (a a' : Job) :
      w.command k = some c → c.jobId ≠ j → w.job c.jobId = some p → p.status = .assigned →
      GivenUp p p' → w.job j = some a → Advances a a' → a'.status = .running →
      Move d w ((w.handOver k c j a').setJob c.jobId (some p'))
  /-- The runners of two assigned jobs crossed: the one that was not started yet takes the other's
      command. -/
  | swapped (k : DocId Command) (c : Command) (p p' : Job) (j : DocId Job) (a a' : Job)
      (k₂ : DocId Command) (c₂ : Command) :
      w.command k = some c → c.jobId ≠ j → w.job c.jobId = some p → p.status = .assigned →
      w.job j = some a → a.status = .assigned → Advances a a' → a'.status = .running →
      w.command k₂ = some c₂ → c₂.jobId = j → p'.ghJobId = p.ghJobId →
      p'.attempts = p.attempts → p'.status = .assigned → isAssignmentOf p' c₂ = true →
      Move d w (((w.handOver k c j a').setJob c.jobId (some p')).setCommand k₂
        (some { c₂ with jobId := c.jobId }))
  | reset (j : DocId Job) (job job' : Job) : w.job j = some job → job'.ghJobId = job.ghJobId →
      job'.status = .queued → (∀ k c, w.command k = some c → c.jobId ≠ j) → ¬ d.lasting →
      (d.numbered → ∀ k c, w.command k = some c → ¬ MintedFor job.ghJobId c) →
      Move d w (w.setJob j (some job'))
  | forgotten (j : DocId Job) (job : Job) : w.job j = some job → ¬ d.lasting →
      (d.numbered → ∀ k c, w.command k = some c → ¬ MintedFor job.ghJobId c) →
      Move d w (w.setJob j none)

/-- Any number of moves. -/
abbrev Moves (d : Discipline) : Board → Board → Prop := Relation.ReflTransGen (Move d)

variable {d : Discipline} {w w' : Board} {j : DocId Job} {k : DocId Command} {job job' : Job}
  {c : Command}

lemma moves_discards (w : Board) (ks : List (DocId Command)) : Moves d w (w.discards ks) := by
  induction ks generalizing w with
  | nil => exact .refl
  | cons k ks ih => exact .head (.discarded k) (ih (w.setCommand k none))

/-! ## Assignments and commands -/

structure Tidy (w : Board) : Prop where
  queued : ∀ k c job, w.command k = some c → w.job c.jobId = some job → job.status ≠ .queued
  assigned : ∀ k c job, w.command k = some c → w.job c.jobId = some job → job.status = .assigned →
    isAssignmentOf job c = true
  single : ∀ k k' c c' job, w.command k = some c → w.command k' = some c' →
    c'.jobId = c.jobId → w.job c.jobId = some job → job.status = .assigned → k' = k
  /-- No command, and no row, has an identifier that a job to come will get. -/
  known : ∀ k c, w.command k = some c → c.jobId < w.nextJob
  rows : ∀ j job, w.job j = some job → j < w.nextJob

/-- The row of a job is rewritten: what has to hold for it is what is asked of its commands. -/
lemma Tidy.setJob (h : Tidy w) (hj : w.job j = some job)
    (hcommands : ∀ k c, w.command k = some c → c.jobId = j → job'.status ≠ .queued ∧
      (job'.status = .assigned → isAssignmentOf job' c = true ∧
        ∀ k' c', w.command k' = some c' → c'.jobId = j → k' = k)) :
    Tidy (w.setJob j (some job')) := by
  refine ⟨fun k c b hk hb => ?_, fun k c b hk hb hassigned => ?_,
    fun k k' c c' b hk hk' hc hb hassigned => ?_, h.known, fun i b hb => ?_⟩
  · rcases of_job_setJob hb with ⟨hc, rfl⟩ | ⟨-, hb⟩
    · exact (hcommands k c hk hc).1
    · exact h.queued k c b hk hb
  · rcases of_job_setJob hb with ⟨hc, rfl⟩ | ⟨-, hb⟩
    · exact ((hcommands k c hk hc).2 hassigned).1
    · exact h.assigned k c b hk hb hassigned
  · rcases of_job_setJob hb with ⟨hj', rfl⟩ | ⟨-, hb⟩
    · exact ((hcommands k c hk hj').2 hassigned).2 k' c' hk' (hc.trans hj')
    · exact h.single k k' c c' b hk hk' hc hb hassigned
  · rcases of_job_setJob hb with ⟨rfl, -⟩ | ⟨-, hb⟩
    · exact h.rows i job hj
    · exact h.rows i b hb

lemma Tidy.setJob_bare (h : Tidy w) (hj : w.job j = some job)
    (hbare : ∀ k c, w.command k = some c → c.jobId ≠ j) : Tidy (w.setJob j (some job')) :=
  h.setJob hj fun k c hk hc => absurd hc (hbare k c hk)

lemma Advances.free (h : Advances job job') : job'.status ≠ .queued ∧ job'.status ≠ .assigned := by
  rcases h.status with h | h
  · simp [h]
  · constructor <;> intro h' <;> simp [h', JobStatus.isTerminal] at h

section

variable (h : Tidy w)

include h

lemma Tidy.advance (hj : w.job j = some job) (ha : Advances job job') : Tidy (w.setJob j (some job')) :=
  h.setJob hj fun _ _ _ _ => ⟨ha.free.1, fun hassigned => absurd hassigned ha.free.2⟩

lemma Tidy.annotate (hj : w.job j = some job) (hr : Resembles job job') :
    Tidy (w.setJob j (some job')) := by
  refine h.setJob hj fun k c hk hc => ?_
  subst hc
  refine ⟨hr.status ▸ h.queued k c job hk hj, fun hassigned => ?_⟩
  rw [hr.status] at hassigned
  refine ⟨?_, fun k' c' hk' hc' => h.single k k' c c' job hk hk' hc' hj hassigned⟩
  rw [isAssignmentOf, hr.runnerName, hr.machineId]
  exact h.assigned k c job hk hj hassigned

/-- Fewer commands, none of which has got a job. -/
lemma Tidy.mono (hcommand : ∀ {k c}, w'.command k = some c → w.command k = some c)
    (hjob : ∀ {k c b}, w.command k = some c → w'.job c.jobId = some b → w.job c.jobId = some b)
    (hnext : w.nextJob ≤ w'.nextJob) (hrows : ∀ j b, w'.job j = some b → j < w'.nextJob) :
    Tidy w' := by
  refine ⟨fun k c b hk hb => ?_, fun k c b hk hb => ?_, fun k k' c c' b hk hk' hc hb => ?_,
    fun k c hk => (h.known k c (hcommand hk)).trans_le hnext, hrows⟩
  · exact h.queued k c b (hcommand hk) (hjob (hcommand hk) hb)
  · exact h.assigned k c b (hcommand hk) (hjob (hcommand hk) hb)
  · exact h.single k k' c c' b (hcommand hk) (hcommand hk') hc (hjob (hcommand hk) hb)

lemma Tidy.discard (k : DocId Command) : Tidy (w.setCommand k none) :=
  h.mono (fun hk' => (of_command_discarded hk').2) (fun _ hb => hb) le_rfl h.rows

/-- A command may be written when its job is not queued and, if it is assigned, has no other. -/
lemma Tidy.write (hknown : c.jobId < w.nextJob)
    (hjob : ∀ job, w.job c.jobId = some job → job.status ≠ .queued ∧ (job.status = .assigned →
      isAssignmentOf job c = true ∧ ∀ k' c', w.command k' = some c' → c'.jobId = c.jobId → k' = k)) :
    Tidy (w.setCommand k (some c)) := by
  refine ⟨fun k₁ c₁ b h₁ hb => ?_, fun k₁ c₁ b h₁ hb hassigned => ?_,
    fun k₁ k₂ c₁ c₂ b h₁ h₂ hc hb hassigned => ?_, fun k₁ c₁ h₁ => ?_, h.rows⟩
  · rcases of_command_setCommand h₁ with ⟨-, rfl⟩ | ⟨-, h₁⟩
    · exact (hjob b hb).1
    · exact h.queued k₁ c₁ b h₁ hb
  · rcases of_command_setCommand h₁ with ⟨-, rfl⟩ | ⟨-, h₁⟩
    · exact ((hjob b hb).2 hassigned).1
    · exact h.assigned k₁ c₁ b h₁ hb hassigned
  · rcases of_command_setCommand h₁ with ⟨hk₁, rfl⟩ | ⟨-, h₁⟩ <;>
      rcases of_command_setCommand h₂ with ⟨hk₂, rfl⟩ | ⟨-, h₂⟩
    · rw [hk₁, hk₂]
    · rw [hk₁]
      exact ((hjob b hb).2 hassigned).2 k₂ c₂ h₂ hc
    · rw [← hc] at hb
      rw [hk₂]
      exact (((hjob b hb).2 hassigned).2 k₁ c₁ h₁ hc.symm).symm
    · exact h.single k₁ k₂ c₁ c₂ b h₁ h₂ hc hb hassigned
  · rcases of_command_setCommand h₁ with ⟨-, rfl⟩ | ⟨-, h₁⟩
    · exact hknown
    · exact h.known k₁ c₁ h₁

lemma Tidy.receive (job : Job) : Tidy (w.addJob job) := by
  refine h.mono (fun hk => hk) (fun {k c b} hk hb => ?_) (Nat.le_succ _) ?_
  · -- the new row has no commands yet
    rwa [job_addJob, if_neg (h.known k c hk).ne] at hb
  intro i b hb
  rw [job_addJob] at hb
  split at hb
  · rename_i hi
    exact hi ▸ Nat.lt_succ_self _
  · exact (h.rows i b hb).trans (Nat.lt_succ_self _)

lemma Tidy.forget (j : DocId Job) : Tidy (w.setJob j none) :=
  h.mono (fun hk => hk) (fun _ hb => of_job_forgotten hb) le_rfl
    fun i b hb => h.rows i b (of_job_forgotten hb)

/-- A job without commands is assigned, with its command. -/
lemma Tidy.assign (hj : w.job c.jobId = some job)
    (hbare : ∀ k c', w.command k = some c' → c'.jobId ≠ c.jobId) (hassigned : job'.status = .assigned)
    (hcurrent : isAssignmentOf job' c = true) (k : DocId Command) :
    Tidy ((w.setJob c.jobId (some job')).setCommand k (some c)) := by
  refine (h.setJob_bare hj hbare).write (h.rows _ _ hj) fun b hb => ?_
  simp only [job_setJob, if_true, some.injEq] at hb
  subst hb
  exact ⟨by simp [hassigned], fun _ => ⟨hcurrent, fun k' c' hk' hc' =>
    absurd hc' (hbare k' c' hk')⟩⟩

/-- The only command of an assigned job is started on another: what that leaves is tidy, and the
first job has no command any more. -/
lemma Tidy.handOver {p a a' : Job} (hk : w.command k = some c) (hne : c.jobId ≠ j)
    (hp : w.job c.jobId = some p) (hassigned : p.status = .assigned) (hj : w.job j = some a)
    (ha : Advances a a') :
    Tidy (w.handOver k c j a') ∧ (w.handOver k c j a').job c.jobId = some p ∧
      ∀ k' c', (w.handOver k c j a').command k' = some c' → c'.jobId ≠ c.jobId := by
  refine ⟨(h.advance hj ha).write (h.rows j a hj) fun b hb => ?_, ?_, fun k' c' hk' => ?_⟩
  · simp only [job_setJob, if_true, some.injEq] at hb
    subst hb
    exact ⟨ha.free.1, fun hassigned => absurd hassigned ha.free.2⟩
  · simp [hne, hp]
  · rcases of_command_setCommand hk' with ⟨-, rfl⟩ | ⟨hkk, hk'⟩
    · exact hne.symm
    · exact fun hc => hkk (h.single k k' c c' p hk hk' hc hp hassigned)

end

/-- **Tidiness is kept** by every move of a run that takes assignments off jobs only with their
commands. -/
theorem Move.tidy (hd : d.tidy) (hm : Move d w w') (h : Tidy w) : Tidy w' := by
  cases hm with
  | noted k c c' hk hjobId hname hmachine =>
    refine h.write (hjobId ▸ h.known k c hk) fun b hb => ?_
    rw [hjobId] at hb ⊢
    refine ⟨h.queued k c b hk hb, fun hassigned => ⟨?_, fun k' d hk' hd =>
      h.single k k' c d b hk hk' hd hb hassigned⟩⟩
    rw [isAssignmentOf, hname, hmachine]
    exact h.assigned k c b hk hb hassigned
  | discarded k => exact h.discard k
  | received job _ _ => exact h.receive job
  | annotated j job job' hj hr => exact h.annotate hj hr
  | assigned j job job' machine c hj hqueued hg hattempts hassigned hc hcurrent hname =>
    subst hc
    have hbare : ∀ k c', w.command k = some c' → c'.jobId ≠ c.jobId := fun k c' hk hc =>
      h.queued k c' job hk (hc ▸ hj) hqueued
    have hwritten := h.assign hj hbare hassigned hcurrent w.nextCommand
    exact ⟨hwritten.queued, hwritten.assigned, hwritten.single, hwritten.known, hwritten.rows⟩
  | failed k c job job' hk hj hassigned hup =>
    refine (h.discard k).setJob_bare hj fun k' c' hk' hc' => ?_
    rcases of_command_discarded hk' with ⟨hne, hk'⟩
    exact hne (h.single k k' c c' job hk hk' hc' hj hassigned)
  | unassigned j job job' hj hassigned hup hbare => exact h.setJob_bare hj (hbare hd)
  | advanced j job job' hj ha => exact h.advance hj ha
  | displaced k c p p' j a a' hk hne hp hassigned hup hj ha hrunning =>
    obtain ⟨hmoved, hrow, hbare⟩ := h.handOver hk hne hp hassigned hj ha
    exact hmoved.setJob_bare hrow hbare
  | swapped k c p p' j a a' k₂ c₂ hk hne hp hassigned hj hassigned₂ ha hrunning hk₂ hc₂ hg hattempts
      hstill hcurrent =>
      obtain ⟨hmoved, hrow, hbare⟩ := h.handOver hk hne hp hassigned hj ha
      exact hmoved.assign (c := { c₂ with jobId := c.jobId }) hrow hbare hstill hcurrent k₂
  | reset j job job' hj hg hqueued hbare hlasting hclear => exact h.setJob_bare hj hbare
  | forgotten j job hj hlasting hclear => exact h.forget j

/-! ## Names are unique -/

structure Numbered (w : Board) : Prop where
  /-- There is one row for a GitHub job. -/
  unique : ∀ i j a b, w.job i = some a → w.job j = some b → a.ghJobId = b.ghJobId → i = j
  /-- A command was minted for a job that is still there, on an attempt that is still counted. -/
  minted : ∀ k c, w.command k = some c → ∃ machine j job n, w.job j = some job ∧
    c.runnerName = runnerNameFor machine job.ghJobId n ∧ n ≤ job.attempts.getD 0
  names : ∀ k k' c c', w.command k = some c → w.command k' = some c' →
    c.runnerName = c'.runnerName → k = k'

section

variable (h : Numbered w)

include h

/-- The row of a job is rewritten, and the counter does not fall below what it was. -/
lemma Numbered.setJob (hj : w.job j = some job) (hg : job'.ghJobId = job.ghJobId)
    (hkeep : job.attempts.getD 0 ≤ job'.attempts.getD 0 ∨
      ∀ k c, w.command k = some c → ¬ MintedFor job.ghJobId c) :
    Numbered (w.setJob j (some job')) := by
  refine ⟨?_, ?_, h.names⟩
  · have hback : ∀ i a, (w.setJob j (some job')).job i = some a →
        ∃ b, w.job i = some b ∧ b.ghJobId = a.ghJobId := by
      intro i a ha
      rcases of_job_setJob ha with ⟨rfl, rfl⟩ | ⟨-, ha⟩
      · exact ⟨job, hj, hg.symm⟩
      · exact ⟨a, ha, rfl⟩
    intro i i' a a' ha ha' hgg
    obtain ⟨b, hb, hbg⟩ := hback i a ha
    obtain ⟨b', hb', hbg'⟩ := hback i' a' ha'
    exact h.unique i i' b b' hb hb' (by rw [hbg, hbg', hgg])
  · intro k c hk
    obtain ⟨machine, i, b, n, hb, hname, hn⟩ := h.minted k c hk
    by_cases hi : i = j
    · subst hi
      cases hb.symm.trans hj
      rcases hkeep with hle | hclear
      · exact ⟨machine, i, job', n, by simp, by rw [hg, hname], hn.trans hle⟩
      · exact absurd ⟨machine, n, hname⟩ (hclear k c hk)
    · exact ⟨machine, i, b, n, by simp [hi, hb], hname, hn⟩

lemma Numbered.discard (k : DocId Command) : Numbered (w.setCommand k none) :=
  ⟨h.unique, fun k' c hk' => h.minted k' c (of_command_discarded hk').2,
    fun k₁ k₂ c₁ c₂ h₁ h₂ => h.names k₁ k₂ c₁ c₂ (of_command_discarded h₁).2
      (of_command_discarded h₂).2⟩

/-- A command is rewritten under its name. -/
lemma Numbered.rewrite {c' : Command} (hk : w.command k = some c)
    (hname : c'.runnerName = c.runnerName) : Numbered (w.setCommand k (some c')) := by
  have hback : ∀ {k' b}, (w.setCommand k (some c')).command k' = some b →
      ∃ a, w.command k' = some a ∧ a.runnerName = b.runnerName := by
    intro k' b hk'
    rcases of_command_setCommand hk' with ⟨rfl, rfl⟩ | ⟨-, hb⟩
    · exact ⟨c, hk, hname.symm⟩
    · exact ⟨b, hb, rfl⟩
  refine ⟨h.unique, fun k' b hk' => ?_, fun k₁ k₂ b₁ b₂ h₁ h₂ hb => ?_⟩
  · obtain ⟨a, ha, hab⟩ := hback hk'
    rw [← hab]
    exact h.minted k' a ha
  · obtain ⟨a₁, ha₁, hab₁⟩ := hback h₁
    obtain ⟨a₂, ha₂, hab₂⟩ := hback h₂
    exact h.names k₁ k₂ a₁ a₂ ha₁ ha₂ (by rw [hab₁, hab₂, hb])

lemma Numbered.receive (hfree : w.job w.nextJob = none)
    (hnew : ∀ j b, w.job j = some b → b.ghJobId ≠ job.ghJobId) : Numbered (w.addJob job) := by
  refine ⟨fun i i' a a' ha ha' hgg => ?_, fun k c hk => ?_, h.names⟩
  · have := h.unique i i' a a'
    grind [job_addJob]
  obtain ⟨machine, i, b, n, hb, hname, hn⟩ := h.minted k c hk
  have hi : i ≠ w.nextJob := by
    rintro rfl
    simp [hfree] at hb
  exact ⟨machine, i, b, n, by simp [hi, hb], hname, hn⟩

lemma Numbered.forget (hj : w.job j = some job)
    (hclear : ∀ k c, w.command k = some c → ¬ MintedFor job.ghJobId c) :
    Numbered (w.setJob j none) := by
  refine ⟨fun i i' a a' ha ha' => h.unique i i' a a' (of_job_forgotten ha)
    (of_job_forgotten ha'), fun k c hk => ?_, h.names⟩
  obtain ⟨machine, i, b, n, hb, hname, hn⟩ := h.minted k c hk
  refine ⟨machine, i, b, n, ?_, hname, hn⟩
  rw [job_setJob, if_neg]
  · exact hb
  · rintro rfl
    cases hb.symm.trans hj
    exact hclear k c hk ⟨machine, n, hname⟩

lemma Numbered.handOver {p a a' : Job} (hk : w.command k = some c)
    (hne : c.jobId ≠ j) (hp : w.job c.jobId = some p) (hj : w.job j = some a) (ha : Advances a a') :
    Numbered (w.handOver k c j a') ∧ (w.handOver k c j a').job c.jobId = some p :=
  ⟨(h.setJob hj ha.ghJobId (.inl ha.attempts)).rewrite hk rfl, by simp [hne, hp]⟩

/-- A new attempt gets a name no command has: any command minted for the job was minted for an
earlier one. -/
lemma Numbered.mint {machine : Machine} (hj : w.job j = some job)
    (hg : job'.ghJobId = job.ghJobId) (hattempts : job'.attempts = some (job.attempts.getD 0 + 1))
    (hname : c.runnerName = runnerNameFor machine job.ghJobId (job.attempts.getD 0 + 1)) :
    Numbered ((w.setJob j (some job')).addCommand c) := by
  have hset : Numbered (w.setJob j (some job')) :=
    h.setJob hj hg (.inl (by rw [hattempts]; exact Nat.le_succ _))
  have hfresh : ∀ k c', w.command k = some c' → c'.runnerName ≠ c.runnerName := by
    intro k c' hk heq
    obtain ⟨machine', i, b, n, hb, hname', hn⟩ := h.minted k c' hk
    rw [hname, hname'] at heq
    obtain ⟨hgg, hnn⟩ := runnerNameFor_inj heq
    obtain rfl := h.unique i j b job hb hj hgg
    cases hb.symm.trans hj
    omega
  refine ⟨hset.unique, fun k c' hk => ?_, fun k k' c₁ c₂ h₁ h₂ heq => ?_⟩
  · rcases of_command_setCommand hk with ⟨-, rfl⟩ | ⟨-, hk⟩
    · exact ⟨machine, j, job', job.attempts.getD 0 + 1, by simp, by rw [hg, hname],
        by rw [hattempts, getD_some]⟩
    · exact hset.minted k c' hk
  · rcases of_command_setCommand h₁ with ⟨rfl, hc₁⟩ | ⟨-, h₁⟩ <;>
      rcases of_command_setCommand h₂ with ⟨rfl, hc₂⟩ | ⟨-, h₂⟩
    · rfl
    · exact absurd (hc₁ ▸ heq.symm) (hfresh k' c₂ h₂)
    · exact absurd (hc₂ ▸ heq) (hfresh k c₁ h₁)
    · exact h.names k k' c₁ c₂ h₁ h₂ heq

end

/-- **Names stay unique** along every move of a run that forgets a job's attempts only when no
command minted for the job is left. -/
theorem Move.numbered (hd : d.numbered) (hm : Move d w w') (h : Numbered w) : Numbered w' := by
  cases hm with
  | noted k c c' hk hjobId hname hmachine => exact h.rewrite hk hname
  | discarded k => exact h.discard k
  | received job hfree hnew => exact h.receive hfree hnew
  | annotated j job job' hj hr => exact h.setJob hj hr.ghJobId (.inl (by rw [hr.attempts]))
  | assigned j job job' machine c hj hqueued hg hattempts hassigned hc hcurrent hname =>
    exact h.mint hj hg hattempts hname
  | failed k c job job' hk hj hassigned hup =>
    exact (h.discard k).setJob hj hup.ghJobId (.inl (by rw [hup.attempts]))
  | unassigned j job job' hj hassigned hup hbare =>
    exact h.setJob hj hup.ghJobId (.inl (by rw [hup.attempts]))
  | advanced j job job' hj ha => exact h.setJob hj ha.ghJobId (.inl ha.attempts)
  | displaced k c p p' j a a' hk hne hp hassigned hup hj ha hrunning =>
    obtain ⟨hmoved, hrow⟩ := h.handOver hk hne hp hj ha
    exact hmoved.setJob hrow hup.ghJobId (.inl (by rw [hup.attempts]))
  | swapped k c p p' j a a' k₂ c₂ hk hne hp hassigned hj hassigned₂ ha hrunning hk₂ hc₂ hg hattempts
      hstill hcurrent =>
      obtain ⟨hmoved, hrow⟩ := h.handOver hk hne hp hj ha
      refine (hmoved.setJob hrow hg (.inl (by rw [hattempts]))).rewrite (c := c₂) ?_ rfl
      have hkk : k₂ ≠ k := by
        rintro rfl
        cases hk.symm.trans hk₂
        exact hne hc₂
      simp [hkk, hk₂]
  | reset j job job' hj hg hqueued hbare hlasting hclear => exact h.setJob hj hg (.inr (hclear hd))
  | forgotten j job hj hlasting hclear => exact h.forget hj (hclear hd)

/-! ## What is finished stays -/

/-- Every finished job of the first board is in the second, as it was. -/
def Stays (w w' : Board) : Prop := ∀ j job, w.job j = some job → job.status.isTerminal = true →
    ∃ job', w'.job j = some job' ∧ job'.ghJobId = job.ghJobId ∧ job'.status = job.status ∧
      job'.conclusion = job.conclusion

lemma Stays.refl (w : Board) : Stays w w := fun _ job hj _ => ⟨job, hj, rfl, rfl, rfl⟩

lemma Stays.trans {w₁ w₂ w₃ : Board} (h : Stays w₁ w₂) (h' : Stays w₂ w₃) : Stays w₁ w₃ := by
  intro j job hj hend
  obtain ⟨job₂, hj₂, hg₂, hstatus₂, hconclusion₂⟩ := h j job hj hend
  obtain ⟨job₃, hj₃, hg₃, hstatus₃, hconclusion₃⟩ := h' j job₂ hj₂ (hstatus₂ ▸ hend)
  exact ⟨job₃, hj₃, hg₃.trans hg₂, hstatus₃.trans hstatus₂, hconclusion₃.trans hconclusion₂⟩

/-- Rewriting a job that is not finished. -/
lemma Stays.setJob (h : Stays w w') (hj : w'.job j = some job)
    (hactive : job.status.isTerminal = false) {row : Option Job} : Stays w (w'.setJob j row) := by
  refine h.trans fun i b hb hend => ?_
  have hne : i ≠ j := by
    rintro rfl
    cases hb.symm.trans hj
    simp [hactive] at hend
  exact ⟨b, by simp [hne, hb], rfl, rfl, rfl⟩

lemma Stays.congr {w₁ : Board} (h : Stays w w') (hjob : w₁.job = w'.job) : Stays w w₁ :=
  fun j job hj hend => hjob ▸ h j job hj hend

lemma stays_handOver {a a' : Job} (hj : w.job j = some a) (ha : Advances a a') :
    Stays w (w.handOver k c j a') :=
  ((Stays.refl w).setJob hj ha.active).congr rfl

lemma isTerminal_of_assigned (h : job.status = .assigned) : job.status.isTerminal = false := by
  rw [h]
  rfl

/-- **Finished jobs stay as they are**, unless jobs are reset or deleted. -/
theorem Move.stays (hd : d.lasting) (hm : Move d w w') : Stays w w' := by
  cases hm with
  | noted k c c' hk hjobId hname hmachine | discarded k => exact (Stays.refl w).congr rfl
  | received job hfree hnew =>
    intro i b hb hend
    have hi : i ≠ w.nextJob := by
      rintro rfl
      simp [hfree] at hb
    exact ⟨b, by simp [hi, hb], rfl, rfl, rfl⟩
  | annotated j job job' hj hr =>
    intro i b hb hend
    by_cases hi : i = j
    · subst hi
      cases hb.symm.trans hj
      exact ⟨job', by simp, hr.ghJobId, hr.status, hr.conclusion⟩
    · exact ⟨b, by simp [hi, hb], rfl, rfl, rfl⟩
  | assigned j job job' machine c hj hqueued hg hattempts hassigned hc hcurrent hname =>
    exact ((Stays.refl w).setJob hj (by simp [hqueued, JobStatus.isTerminal])).congr rfl
  | failed k c job job' hk hj hassigned hup =>
    have hdiscarded : Stays w (w.setCommand k none) := (Stays.refl w).congr rfl
    exact hdiscarded.setJob hj (isTerminal_of_assigned hassigned)
  | unassigned j job job' hj hassigned hup hbare =>
    exact (Stays.refl w).setJob hj (isTerminal_of_assigned hassigned)
  | advanced j job job' hj ha => exact (Stays.refl w).setJob hj ha.active
  | displaced k c p p' j a a' hk hne hp hassigned hup hj ha hrunning =>
    exact (stays_handOver hj ha).setJob (by simp [hne, hp]) (isTerminal_of_assigned hassigned)
  | swapped k c p p' j a a' k₂ c₂ hk hne hp hassigned hj hassigned₂ ha hrunning hk₂ hc₂ hg hattempts
      hstill hcurrent =>
      exact ((stays_handOver hj ha).setJob (by simp [hne, hp])
        (isTerminal_of_assigned hassigned)).congr rfl
  | reset j job job' hj hg hqueued hbare hlasting hclear | forgotten j job hj hlasting hclear =>
    exact absurd hd hlasting

end EraInfra
