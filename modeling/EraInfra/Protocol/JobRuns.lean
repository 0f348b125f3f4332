import EraInfra.Protocol.JobSweepMoves

/-!
# Runs of the job protocol

Every call that observes a discipline is a series of moves under it (`performJob_moves`).  So what
the moves of a discipline keep holds of the board in every state a run under that discipline reaches
(`board_invariant`), and the three invariants of the board become three facts about runs.
-/

namespace EraInfra

open DocStore

variable {js : Engine} {d : Discipline} {w w' : Board} {db db' : Db} {c : JobCall}
  {calls : List JobCall}

/-- **The calls refine the board.** -/
theorem performJob_moves (hobs : Observes d db c) (h : performJob js c db = .ok db') :
    Moves d db.board db'.board := by
  obtain ⟨now, op⟩ := c
  cases op with
  | attempt op =>
    by_cases hop : op = .reconcile
    · subst hop
      obtain ⟨r, hr⟩ := map_snd_ok.mp h
      exact reconcile_moves hobs.lasts hobs.isolated hobs.remembers hr
    · exact moves_of_eq (perform_board h hop)
  | workflowJob event => exact (applyWorkflowJob_moves h).1
  | assignJobs =>
    cases h
    exact assignJobs_moves now db
  | storeJitConfig commandId jitConfig runnerId =>
    cases h
    exact storeJitConfig_moves jitConfig runnerId
  | failAttempt commandId jobId error =>
    cases h
    exact failAttempt_moves error hobs.isolated
  | claim token commandId =>
    obtain ⟨r, hr⟩ := map_snd_ok.mp h
    exact claim_moves hr
  | report token commandId exitCode =>
    obtain ⟨r, hr⟩ := map_snd_ok.mp h
    exact report_moves hr
  | dropJob jobId =>
    cases h
    exact dropJob_moves hobs.lasts hobs.remembers
  | requeueJob jobId =>
    cases h
    exact requeueJob_moves hobs.lasts hobs.remembers

lemma stepJob_moves (js : Engine) (hobs : Observes d db c) : Moves d db.board (stepJob js db c).board :=
  commit_rule (P := fun db' => Moves d db.board db'.board) .refl fun _ h => performJob_moves hobs h

/-! ## Invariants of the board -/

lemma Moves.invariant {P : Board → Prop} (hmove : ∀ w w', Move d w w' → P w → P w')
    (h : Moves d w w') (h0 : P w) : P w' := by
  induction h with
  | refl => exact h0
  | tail _ hm ih => exact hmove _ _ hm ih

/-- **The invariant rule for boards.** -/
theorem board_invariant {P : Board → Prop} (hmove : ∀ w w', Move d w w' → P w → P w')
    (h0 : P Db.empty.board) (hcalls : Meets (stepJob js) .empty (Observes d) calls) :
    P (afterJobs js calls).board :=
  run_invariant_of_meets (fun _ db => P db.board) h0
    (fun _ _ hP hobs => (stepJob_moves js hobs).invariant hmove hP) calls hcalls

/-- In runs whose calls are isolated, assignments and commands match. -/
lemma tidy_after (hcalls : Meets (stepJob js) .empty (fun db c => c.Isolated db) calls) :
    Tidy (afterJobs js calls).board := by
  refine board_invariant (d := ⟨True, False, False⟩) (fun _ _ hm => hm.tidy trivial) ?_
    fun before c after h => ⟨fun _ => hcalls before c after h, False.elim, False.elim⟩
  refine ⟨?_, ?_, ?_, ?_, ?_⟩ <;> intros <;> contradiction

/-- In runs that remember their attempts, names are unique. -/
lemma numbered_after (hcalls : Meets (stepJob js) .empty (fun db c => c.Remembers db) calls) :
    Numbered (afterJobs js calls).board := by
  refine board_invariant (d := ⟨False, True, False⟩) (fun _ _ hm => hm.numbered trivial) ?_
    fun before c after h => ⟨False.elim, fun _ => hcalls before c after h, False.elim⟩
  refine ⟨?_, ?_, ?_⟩ <;> intros <;> contradiction

/-! ## A small deployment -/

/-- The only Worker joins. -/
def joinedCalls : List JobCall := [⟨0, .attempt (.issueRegistrationToken "join")⟩,
    ⟨0, .attempt (.registerAgent ⟨"join", "worker", .linux, 8, some 32768, none, some 4, "secret"⟩)⟩]

/-- An event of a job that any Linux Worker may run. -/
def ciEvent (action : WorkflowJobAction) (ghJobId : ℕ) (runnerName : Option String) :
    WorkflowJobEvent where
  action := action
  ghJobId := ghJobId
  githubInstallationId := none
  repo := "era/infra"
  repoIsPublic := false
  workflowName := "CI"
  labels := ["self-hosted"]
  runnerName := runnerName
  conclusion := none

/-- The Worker joins, and a job is assigned to it. -/
def assignedCalls : List JobCall :=
  joinedCalls ++ [⟨0, .workflowJob (ciEvent .queued 1 none)⟩, ⟨0, .assignJobs⟩]

end EraInfra
