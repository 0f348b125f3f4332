import EraInfra.Protocol.JobRuns

/-!
# Runner names

A runner's name is its Worker's, its GitHub job's identifier and the attempt it was minted for, and a
webhook finds a command by the name of its runner, with a lookup that throws when there are two.

As long as attempts are only counted up, no two commands have one name (`runner_names_unique`).  Two
operator calls and the retention of finished jobs forget the count; that is harmless when no command
minted for the job is left, and a command can be left, because GitHub may have handed the job's
runner to another job.  `runner_name_reused` is a run in which it did.
-/

namespace EraInfra

open DocStore

variable {now : ℤ} {db : Db} {j : DocId Job} {actual : Job} {event : WorkflowJobEvent}

/-- No two commands have one runner name. -/
def NamesUnique (db : Db) : Prop :=
  ∀ k k' c c', db.commands.get k = some c → db.commands.get k' = some c' →
    c.runnerName = c'.runnerName → k = k'

lemma adoptRunnerAssignment_isOk (now : ℤ) (h : NamesUnique db) (runnerName : Option String) :
    ∃ r, adoptRunnerAssignment now j actual runnerName db = .ok r := by
  unfold adoptRunnerAssignment
  split
  · exact ⟨_, rfl⟩
  split
  · exact ⟨_, rfl⟩
  rename_i runnerName _
  obtain ⟨row, hrow⟩ : ∃ row, db.commands.unique (Err.notUnique "commands")
      (fun command => command.runnerName = runnerName) = .ok row :=
    Table.unique_isOk fun k k' c c' hk hk' hc hc' =>
      h k k' c c' hk hk' (by simp at hc hc'; rw [hc, hc'])
  rw [hrow, ok_bind]
  rcases row with _ | ⟨k, c⟩
  · exact ⟨_, rfl⟩
  dsimp only
  split
  · exact ⟨_, rfl⟩
  split
  · exact ⟨_, rfl⟩
  split
  · exact ⟨_, rfl⟩
  split
  · exact ⟨_, rfl⟩
  · exact ⟨_, rfl⟩

/-- An event is always applied when names are unique. -/
lemma applyWorkflowJob_isOk (h : NamesUnique db) (now : ℤ) (event : WorkflowJobEvent) :
    ∃ db', applyWorkflowJob now event db = .ok db' := by
  -- a row that is inserted changes no command
  have hknown : ∀ existing, NamesUnique (knownJob now event existing db).2 := by
    intro existing
    cases existing <;> exact h
  unfold applyWorkflowJob
  dsimp only
  split
  · exact ⟨_, rfl⟩
  split
  · split
    · split
      · exact ⟨_, rfl⟩
      · exact ⟨_, rfl⟩
    · exact ⟨_, rfl⟩
  · obtain ⟨r, hr⟩ := adoptRunnerAssignment_isOk now
      (hknown (jobByGhJobId event.ghJobId db)) event.runnerName
    rw [hr, ok_bind]
    split
    · exact ⟨_, rfl⟩
    · exact ⟨_, rfl⟩
  · split
    · exact ⟨_, rfl⟩
    obtain ⟨r, hr⟩ := adoptRunnerAssignment_isOk now
      (hknown (jobByGhJobId event.ghJobId db)) event.runnerName
    rw [hr, ok_bind]
    split
    · exact ⟨_, rfl⟩
    · exact ⟨_, rfl⟩

/-- **Names are unique.**  In every run in which a job is requeued or dropped by the operator only
when the commands minted for it are its own, and a pass of the reconciler finds no command minted
for a job that is past its retention: no two commands have one runner name, and so no event
fails to be applied. -/
theorem runner_names_unique (js : Engine) (calls : List JobCall)
    (hcalls : Meets (stepJob js) .empty (fun db c => c.Remembers db) calls) :
    (∀ k k' c c', (afterJobs js calls).commands.get k = some c →
      (afterJobs js calls).commands.get k' = some c' → c.runnerName = c'.runnerName → k = k') ∧
    ∀ now event, ∃ db', applyWorkflowJob now event (afterJobs js calls) = .ok db' :=
  ⟨(numbered_after hcalls).names, applyWorkflowJob_isOk (numbered_after hcalls).names⟩

/-- A job is assigned, and the operator puts it back in the queue; it is assigned again under the same
name, whose first command is gone. -/
def requeuedCalls : List JobCall := assignedCalls ++ [⟨0, .requeueJob 0⟩] ++ [⟨0, .assignJobs⟩]

theorem runner_names_unique_requeued :
    (∀ k k' c c', (afterJobs asciiEngine requeuedCalls).commands.get k = some c →
      (afterJobs asciiEngine requeuedCalls).commands.get k' = some c' →
      c.runnerName = c'.runnerName → k = k') ∧
    ∀ now event, ∃ db',
      applyWorkflowJob now event (afterJobs asciiEngine requeuedCalls) = .ok db' := by
  refine runner_names_unique asciiEngine requeuedCalls ?_
  refine meets_snoc.mpr ⟨meets_snoc.mpr ⟨?_, ?_⟩, trivial⟩
  · simp only [assignedCalls, joinedCalls, List.cons_append, List.nil_append, meets_cons]
    exact ⟨trivial, trivial, trivial, trivial, meets_nil⟩
  · have hone : ∀ r ∈ (afterJobs asciiEngine assignedCalls).commands.rows, r.2.jobId = 0 := by
      decide
    exact fun job _ k c hk _ => hone (k, c) (Table.get_eq_some_iff.mp hk)

/-- The runner of the first job is started on the second one; the first is assigned again, put back
in the queue by the operator, and assigned once more. -/
def reusedCalls : List JobCall := assignedCalls ++
    [⟨0, .workflowJob (ciEvent .queued 2 none)⟩,
      ⟨0, .workflowJob (ciEvent .inProgress 2 (some "rc-worker-1-1"))⟩,
      ⟨0, .assignJobs⟩,
      ⟨0, .requeueJob 0⟩,
      ⟨0, .assignJobs⟩]

/-- Its counter starts over, and so its runner gets the name of the one that is running the second
job.  The completion of the second job can no longer be applied. -/
theorem runner_name_reused :
    ((afterJobs asciiEngine reusedCalls).commands.get 0).map
        (fun c => (c.jobId, c.runnerName)) = some (1, "rc-worker-1-1") ∧
      ((afterJobs asciiEngine reusedCalls).commands.get 2).map
        (fun c => (c.jobId, c.runnerName)) = some (0, "rc-worker-1-1") ∧
      (applyWorkflowJob 0 (ciEvent .completed 2 (some "rc-worker-1-1"))
        (afterJobs asciiEngine reusedCalls)).toOption.isNone = true := by
  decide

end EraInfra
