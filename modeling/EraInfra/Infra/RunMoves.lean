import EraInfra.Infra.Moves

/-!
# What runs do to the plane

The pipeline's functions as moves.  They are called with a run as it was read, so each lemma asks that
the run is still `Under` way: its stored row is in an active stage, holds the App's lease, and agrees
with the row that was read in what matters.

`perform_cases` puts the calls together: a call that commits has made some steps, or a run has begun in
it.
-/

namespace EraInfra.Infra

open DocStore List Option Table Plane SameRun Step Steps

variable {db db' : Db} {env : Environment} {now : ℤ} {id : DocId AppDeployment} {run : AppDeployment}

lemma SameRun.refl (run : AppDeployment) : SameRun run run := ⟨rfl, rfl, rfl⟩

variable {run' row : AppDeployment} {lease : AppLease} {start : PlanStart}
  {started : List (DocId AppDeployment)} {survivors : List (DocId Node)}

lemma SameRun.trans {run'' : AppDeployment} (h : SameRun run run') (h' : SameRun run' run'') :
    SameRun run run'' :=
  ⟨h'.app.trans h.app, h'.startedAt.trans h.startedAt, h'.operation.trans h.operation⟩

/-- A run, as it was read, is under way. -/
structure Under (now : ℤ) (db : Db) (id : DocId AppDeployment) (run stored : AppDeployment) : Prop where
  holds : Holds now db.plane id stored
  same : SameRun stored run
  stage : run.stage = stored.stage
  epoch : run.leaseEpoch = stored.leaseEpoch

/-- A run holds the lease whatever is changed in its row, but its App, its operation and its epoch. -/
lemma Holds.rewritten {p p' : Plane} (h : Holds now p id run)
    (hrun : p'.run id = some run') (hlease : p'.lease = p.lease) (hsame : SameRun run run')
    (hactive : run'.stage ∈ activeStages) (hepoch : run'.leaseEpoch = run.leaseEpoch) :
    Holds now p' id run' := by
  rcases h.live with ⟨epoch, hheld, hadmits⟩
  refine ⟨hrun, hactive, ?_, epoch, hepoch.trans hheld, ?_⟩
  · rw [hsame.operation]
    exact h.operation
  · rw [hlease, hsame.app]
    exact hadmits

lemma Under.stored (h : Under now db id run row) : db.appDeployments.get id = some row := h.holds.stored

variable {α : Type} {stored : AppDeployment} {stage : Stage} {plan : DeployPlan} {app name : String}
  {t : Table α} {i : DocId α}

lemma get_patchDeployment (f : AppDeployment → AppDeployment)
    (h : db.appDeployments.get id = some run) :
    (db.patchDeployment id f).appDeployments.get id = some (f run) := by
  simp [Db.patchDeployment, h]

lemma not_terminal_of_active {stage : DeployStage} (h : stage ∈ activeStages) :
    isTerminalStage stage = false := by
  revert h
  cases stage <;> decide

/-! ## Ending a run -/

lemma cleanUp_steps (hstored : db.appDeployments.get id ≠ none) (run : AppDeployment) :
    Steps now db.plane (cleanUp now id run db).plane := by
  simp only [cleanUp]
  have hsub : ((db.nodeCommands.collect fun row => row.deploymentId = some id).take 100).Sublist
      (db.nodeCommands.collect fun row => row.deploymentId = some id) := take_sublist _ _
  rcases cancels_steps (collect_nodup.sublist hsub) fun entry hentry =>
    (mem_collect.mp (hsub.subset hentry)).1 with ⟨hsteps, commands, hframe⟩
  rw [hframe] at hsteps ⊢
  rcases ne_none_iff_exists'.mp hstored with ⟨stored, hstored⟩
  split
  · split_ifs
    · exact hsteps
    refine hsteps.trans (Steps.one ?_)
    rename_i storageId _ _
    have hstored' : { db with
        nodeCommands := commands, storage := db.storage.delete storageId }.appDeployments.get id
          = some stored := hstored
    have hplane := plane_patchDeployment (fun run => { run with sourceDeleted := some true }) hstored'
    rw [hplane]
    exact Step.touch id stored _ hstored ⟨rfl, rfl, rfl⟩ rfl rfl
  · exact hsteps

lemma cleanUpStored_steps : Steps now db.plane (cleanUpStored now id db).plane := by
  simp only [cleanUpStored]
  cases h : db.appDeployments.get id with
  | none => exact Steps.refl _
  | some run => exact cleanUp_steps (by simp [h]) run

/-- What ending a run that holds its App's lease does, before its steps are cancelled. -/
lemma finish_ok {result : RunResult}
    (hstored : db.appDeployments.get id = some stored) (hlease : db.lease run.app = some lease)
    (hholder : lease.holder ≠ none) (hepoch : run.leaseEpoch = some lease.epoch)
    (h : finish now id run result db = .ok db') :
    ∃ ended : Db, db' = cleanUpStored now id ended ∧
      ended.plane = (db.plane.setLease run.app { lease with holder := none, operation := none }).setRun
        id (some (finishedRun now result stored)) := by
  simp only [finish, releaseRunLease, hepoch] at h
  rcases bind_ok.mp h with ⟨ended, hrelease, hclean⟩
  rw [pure_ok] at hclean
  have hlease' : (db.patchDeployment id (finishedRun now result)).lease run.app = some lease := hlease
  rcases releaseAppLease_ok hlease' rfl hholder hrelease with ⟨leases, rfl, hleases⟩
  have hrun := congrArg Plane.run (plane_patchDeployment (finishedRun now result) hstored)
  exact ⟨_, hclean.symm, Plane.ext hleases hrun rfl rfl rfl rfl⟩

/-- What a stage comes to: the moves it has made, and that a run which goes on is under way. -/
def StageSteps (now : ℤ) (id : DocId AppDeployment) (db : Db) (stage : Stage) : Prop :=
  Steps now db.plane stage.2.plane ∧ ∀ run, stage.1 = some run → Under now stage.2 id run run

lemma StageSteps.waits (h : Steps now db.plane db'.plane) : StageSteps now id db (none, db') :=
  ⟨h, fun _ hrun => by simp at hrun⟩

lemma StageSteps.after {db₁ : Db} (h : Steps now db.plane db₁.plane)
    (h' : StageSteps now id db₁ stage) : StageSteps now id db stage := ⟨h.trans h'.1, h'.2⟩

/-! ## What stages read and write -/

/-- What planning may start from: the database as it is, or with another target of a failover. -/
def PlanStart.Fair (id : DocId AppDeployment) (db : Db) : PlanStart → Prop
  | .ended result => isTerminalStage result.stage = true
  | .plan _ planned => planned = db ∨
      ∃ move, planned = db.patchDeployment id fun run => { run with failover := some move }

lemma failoverBase_fair {move : FailoverMove}
    (h : failoverBase env now id run move db = .ok start) : start.Fair id db := by
  rcases bind_ok.mp h with ⟨found, -, h⟩
  rcases found with _ | entry
  · cases h
    rfl
  rcases entry with ⟨appId, before⟩
  rcases hspec : before.spec with _ | spec
  · simp only [hspec] at h
    cases h
    rfl
  simp only [hspec] at h
  split_ifs at h
  · cases h
    rfl
  all_goals split at h
  all_goals try split_ifs at h
  all_goals rw [pure_ok] at h
  all_goals rw [← h]
  all_goals first
    | rfl
    | exact .inl rfl
    | exact .inr ⟨_, rfl⟩

lemma planBase_fair (h : planBase env now id run db = .ok start) : start.Fair id db := by
  simp only [planBase] at h
  split at h
  · exact failoverBase_fair h
  · cases h
  simp only [deployBase] at h
  split at h
  · split_ifs at h
    · rcases bind_ok.mp h with ⟨current, -, h⟩
      cases h
      exact .inl rfl
    · cases h
      exact .inl rfl
  · cases h

lemma cancelRetirements_steps (now : ℤ) (db : Db) (nodeId : DocId Node) (containers : List String) :
    CommandSteps now db (cancelRetirements now nodeId containers db) := by
  have hsub : ∀ q, (((commandsWith db nodeId .pending).take 200).filter q).Sublist
      (commandsWith db nodeId .pending) :=
    fun q => filter_sublist.trans (take_sublist 200 _)
  exact cancels_steps (collect_nodup.sublist (hsub _))
    fun entry hentry => (mem_collect.mp ((hsub _).subset hentry)).1

/-- App rows and routes are written for one App only, and nothing else is. -/
structure Writes (app : String) (db db' : Db) : Prop where
  frame : ∃ apps routes, db' = { db with apps := apps, appRoutes := routes }
  apps : ∀ i, db'.apps.get i ≠ db.apps.get i → ∃ row, db'.apps.get i = some row ∧ row.name = app
  routes : ∀ i, db'.appRoutes.get i ≠ db.appRoutes.get i →
    ∃ row, db'.appRoutes.get i = some row ∧ row.app = some app

lemma Writes.trans {db'' : Db} (h : Writes app db db') (h' : Writes app db' db'') :
    Writes app db db'' := by
  rcases h.frame with ⟨apps, routes, rfl⟩
  rcases h'.frame with ⟨apps', routes', rfl⟩
  refine ⟨⟨apps', routes', rfl⟩, fun i hi => ?_, fun i hi => ?_⟩
  · by_cases hsame : apps'.get i = apps.get i
    · rcases h.apps i (fun heq => hi (hsame.trans heq)) with ⟨row, hrow, hname⟩
      exact ⟨row, hsame.trans hrow, hname⟩
    · exact h'.apps i hsame
  · by_cases hsame : routes'.get i = routes.get i
    · rcases h.routes i (fun heq => hi (hsame.trans heq)) with ⟨row, hrow, hname⟩
      exact ⟨row, hsame.trans hrow, hname⟩
    · exact h'.routes i hsame

/-- A row that a write has changed is the row that was written. -/
lemma get_of_insert_ne {a : α} (h : (t.insert a).get i ≠ t.get i) : (t.insert a).get i = some a := by
  rw [get_insert] at h ⊢
  split_ifs at h ⊢
  · rfl
  · exact absurd rfl h

lemma get_of_patch_ne {a : α} {j : DocId α}
    (h : (t.patch j fun _ => a).get i ≠ t.get i) : (t.patch j fun _ => a).get i = some a := by
  rw [get_patch] at h ⊢
  split_ifs at h ⊢
  · cases hi : t.get i with
    | none => simp [hi] at h
    | some b => rfl
  · exact absurd rfl h

lemma upsertApp_writes {input : App} (h : upsertApp now input db = .ok db') :
    Writes input.name db db' := by
  rcases bind_ok.mp h with ⟨found, -, h⟩
  cases found with
  | none =>
    cases h
    exact ⟨⟨_, db.appRoutes, rfl⟩, fun i hi => ⟨_, get_of_insert_ne hi, rfl⟩, fun i hi => absurd rfl hi⟩
  | some entry =>
    cases h
    exact ⟨⟨_, db.appRoutes, rfl⟩, fun i hi => ⟨_, get_of_patch_ne hi, rfl⟩, fun i hi => absurd rfl hi⟩

lemma upsertRoute_writes {input : AppRoute} (h : upsertRoute now app input db = .ok db') :
    Writes app db db' := by
  rcases bind_ok.mp h with ⟨refusal, -, h⟩
  rw [refuseSome_bind_ok, bind_ok] at h
  rcases h with ⟨-, found, -, h⟩
  cases found with
  | none =>
    cases h
    exact ⟨⟨db.apps, _, rfl⟩, fun i hi => absurd rfl hi, fun i hi => ⟨_, get_of_insert_ne hi, rfl⟩⟩
  | some entry =>
    cases h
    exact ⟨⟨db.apps, _, rfl⟩, fun i hi => absurd rfl hi, fun i hi => ⟨_, get_of_patch_ne hi, rfl⟩⟩

lemma writeApp_writes {before : Option App}
    (h : writeApp now run plan before db = .ok db') : Writes run.app db db' := by
  rcases bind_ok.mp h with ⟨written, happ, hroutes⟩
  have hfirst := upsertApp_writes happ
  exact foldlM_keeps (P := Writes run.app db)
    (fun route _ db₁ db₂ hdb hroute => hdb.trans (upsertRoute_writes hroute)) hfirst hroutes

lemma retire_steps (now : ℤ) (id : DocId AppDeployment) (db : Db) (app : String) (lost : DocId Node) (service : String) :
    CommandSteps now db (retire now id app lost db service) := by
  refine commit_rule (P := CommandSteps now db) (CommandSteps.refl db) fun db' hdb' => ?_
  rw [map_ok] at hdb'
  rcases hdb' with ⟨⟨commandId, queued⟩, hinsert, rfl⟩
  exact insertNodeCommand_steps (Origin.plain rfl rfl rfl) hinsert

lemma retireLost_steps (id : DocId AppDeployment) (run : AppDeployment) (plan : DeployPlan)
    (before : Option App) :
    CommandSteps now db (retireLost now id run plan before db) := by
  simp only [retireLost]
  split
  · exact CommandSteps.foldl (fun db service => retire_steps _ _ _ _ _ _) _ _
  · exact CommandSteps.refl db

/-! ## Stages -/

section Stages

variable (h : Under now db id run stored)

include h

/-- A run stays under way while only commands change. -/
lemma Under.commands (hsteps : CommandSteps now db db') : Under now db' id run stored := by
  rcases hsteps.frame with ⟨commands, rfl⟩
  exact ⟨h.holds.rewritten h.stored rfl (refl _) h.holds.active rfl, h.same, h.stage, h.epoch⟩

/-- Ending a run that is under way. -/
lemma finish_steps {result : RunResult}
    (hended : isTerminalStage result.stage = true) (hfinish : finish now id run result db = .ok db') :
    Steps now db.plane db'.plane := by
  rcases h.holds.live with ⟨epoch, hepoch, hadmits⟩
  rcases leaseAdmits_iff.mp hadmits with ⟨lease, hlease, hholder, rfl, -⟩
  rw [← h.epoch] at hepoch
  rw [← h.same.app] at hlease
  rcases finish_ok h.stored hlease hholder hepoch hfinish with ⟨ended, rfl, hplane⟩
  rw [h.same.app] at hlease hplane
  refine Steps.trans (Steps.one ?_) cleanUpStored_steps
  rw [hplane]
  exact Step.finish id stored _ lease h.holds hlease ⟨rfl, rfl, rfl⟩ hended rfl

variable {error : String}

lemma StageSteps.failed (hfail : stageFail now id run error db = .ok stage) :
    StageSteps now id db stage := by
  simp only [stageFail] at hfail
  rcases bind_ok.mp hfail with ⟨ended, hfinish, hfail⟩
  cases hfail
  exact StageSteps.waits (finish_steps h rfl hfinish)

/-- Going on to another active stage. -/
lemma moveTo_steps (stage : DeployStage)
    (detail : String) (extra : AppDeployment → AppDeployment) (hactive : stage ∈ activeStages)
    (hextra : ∀ run, SameRun run (extra run) ∧ (extra run).stage = run.stage ∧
      (extra run).leaseEpoch = run.leaseEpoch) :
    StageSteps now id db (moveTo now id stage detail extra db) := by
  have hmoved := hextra { stored with stage := stage, detail := detail, stageStartedAt := some now }
  have hsame : SameRun stored (movedRun now stage detail extra stored) :=
    ⟨hmoved.1.app, hmoved.1.startedAt, hmoved.1.operation⟩
  have hstage : (movedRun now stage detail extra stored).stage ∈ activeStages := by
    simp only [movedRun, hmoved.2.1, hactive]
  have hepoch : (movedRun now stage detail extra stored).leaseEpoch = stored.leaseEpoch := hmoved.2.2
  have hplane := plane_patchDeployment (movedRun now stage detail extra) h.stored
  refine ⟨?_, ?_⟩
  · simp only [moveTo, hplane]
    exact Steps.one (Step.advance id stored _ h.holds hsame hstage hepoch)
  intro run' hrun'
  simp only [moveTo] at hrun'
  have hget := get_patchDeployment (movedRun now stage detail extra) h.stored
  cases hget.symm.trans hrun'
  exact ⟨h.holds.rewritten hget rfl hsame hstage hepoch, SameRun.refl _, rfl, rfl⟩

/-- A change to a run's row that leaves its stage and its epoch. -/
lemma Under.touch (f : AppDeployment → AppDeployment) (hsame : SameRun stored (f stored))
    (hstage : (f stored).stage = stored.stage) (hepoch : (f stored).leaseEpoch = stored.leaseEpoch) :
    Steps now db.plane (db.patchDeployment id f).plane ∧
      Under now (db.patchDeployment id f) id run (f stored) := by
  have hactive : (f stored).stage ∈ activeStages := by
    rw [hstage]
    exact h.holds.active
  refine ⟨?_, h.holds.rewritten (get_patchDeployment f h.stored) rfl hsame hactive hepoch, ?_,
    h.stage.trans hstage.symm, h.epoch.trans hepoch.symm⟩
  · rw [plane_patchDeployment f h.stored]
    exact Steps.one (Step.touch id stored _ h.stored hsame hstage hepoch)
  · exact ⟨h.same.app.trans hsame.app.symm, h.same.startedAt.trans hsame.startedAt.symm,
      h.same.operation.trans hsame.operation.symm⟩

lemma runStep_steps {nodeId : DocId Node} {step : String} {command : NodeCommand} {state : StepState}
    (hnames : command.deployment = some id)
    (hstep : runStep now id run nodeId step command db = .ok (state, db')) :
    Steps now db.plane db'.plane ∧ Under now db' id run stored := by
  rcases bind_ok.mp hstep with ⟨⟨commandId, queued⟩, hinsert, hstep⟩
  have hqueued : queued = db' := by
    cases hrow : queued.nodeCommands.get commandId with
    | none =>
      simp only [hrow] at hstep
      cases hstep
    | some row =>
      simp only [hrow, pure_ok] at hstep
      exact (Prod.mk.inj hstep).2
  subst hqueued
  rcases h.holds.live with ⟨epoch, hepoch, hadmits⟩
  have horigin : Origin now db.plane
      ⟨nodeId, stepKey id step nodeId, command, some run.app, run.leaseEpoch, some id⟩ :=
    Origin.ofRun id stored epoch hnames (.inr rfl) h.stored
      (not_terminal_of_active h.holds.active) (by rw [h.same.app]) hepoch hadmits
      (h.epoch.trans hepoch)
  have hsteps := insertNodeCommand_steps horigin hinsert
  exact ⟨hsteps.steps, h.commands hsteps⟩

lemma readingSpecStage_steps
    (hstage : readingSpecStage env now id run db = .ok stage) : StageSteps now id db stage := by
  simp only [readingSpecStage] at hstage
  rcases hnode : run.buildNodeId with _ | nodeId
  · rw [hnode] at hstage
    cases hstage
  simp only [hnode] at hstage
  rcases bind_ok.mp hstage with ⟨⟨state, queued⟩, hstep, hstage⟩
  rcases runStep_steps h rfl hstep with ⟨hsteps, hunder⟩
  refine StageSteps.after hsteps ?_
  cases state with
  | wait =>
    cases hstage
    exact StageSteps.waits (Steps.refl _)
  | failed error => exact StageSteps.failed hunder hstage
  | done command =>
    simp only at hstage
    split at hstage
    · exact StageSteps.failed hunder hstage
    · cases hstage
      exact moveTo_steps hunder _ _ _ (by decide) fun run => ⟨⟨rfl, rfl, rfl⟩, rfl, rfl⟩

lemma buildSteps_steps {builds : List (ℕ × PlannedBuild)}
    (hstage : buildSteps now id run plan builds db = .ok stage) : StageSteps now id db stage := by
  induction builds generalizing db with
  | nil =>
    cases hstage
    exact moveTo_steps h _ _ _ (by decide) fun run => ⟨SameRun.refl _, rfl, rfl⟩
  | cons build builds ih =>
    simp only [buildSteps] at hstage
    rcases hnode : run.buildNodeId with _ | nodeId
    · rw [hnode] at hstage
      cases hstage
    simp only [hnode] at hstage
    rcases bind_ok.mp hstage with ⟨⟨state, queued⟩, hstep, hstage⟩
    rcases runStep_steps h rfl hstep with ⟨hsteps, hunder⟩
    refine StageSteps.after hsteps ?_
    cases state with
    | failed error => exact StageSteps.failed hunder hstage
    | done command => exact ih hunder hstage
    | wait =>
      cases hstage
      refine StageSteps.waits ?_
      split_ifs
      · rw [plane_patchDeployment _ hunder.stored]
        exact Steps.one (Step.touch id stored _ hunder.stored ⟨rfl, rfl, rfl⟩ rfl rfl)
      · exact Steps.refl _

lemma deploySteps_steps {nodeIds : List (DocId Node)} {waiting : Bool}
    (hstage : deploySteps now id run plan nodeIds waiting db = .ok stage) :
    StageSteps now id db stage := by
  induction nodeIds generalizing db waiting with
  | nil =>
    simp only [deploySteps] at hstage
    split_ifs at hstage
    · cases hstage
      exact StageSteps.waits (Steps.refl _)
    · cases hstage
      exact moveTo_steps h _ _ _ (by decide) fun run => ⟨SameRun.refl _, rfl, rfl⟩
  | cons nodeId nodeIds ih =>
    rcases bind_ok.mp hstage with ⟨⟨state, queued⟩, hstep, hstage⟩
    rcases runStep_steps h rfl hstep with ⟨hsteps, hunder⟩
    refine StageSteps.after hsteps ?_
    cases state with
    | failed error => exact StageSteps.failed hunder hstage
    | wait | done command => exact ih hunder hstage

lemma storePlan_steps (plan : DeployPlan) : StageSteps now id db (storePlan now id run plan db) := by
  simp only [storePlan]
  have hcancel := CommandSteps.foldl (fun db nodeId =>
    cancelRetirements_steps now db nodeId (containersOn run.app plan nodeId)) plan.deployNodeIds db
  have hunder := h.commands hcancel
  refine StageSteps.after hcancel.steps ?_
  split_ifs
  · exact moveTo_steps hunder _ _ _ (by decide) fun run => ⟨⟨rfl, rfl, rfl⟩, rfl, rfl⟩
  · exact moveTo_steps hunder _ _ _ (by decide) fun run => ⟨⟨rfl, rfl, rfl⟩, rfl, rfl⟩

lemma planStage_steps
    (hstage : planStage env now id run db = .ok stage) : StageSteps now id db stage := by
  rcases bind_ok.mp hstage with ⟨start, hstart, hstage⟩
  have hfair := planBase_fair hstart
  cases start with
  | ended result =>
    rcases bind_ok.mp hstage with ⟨ended, hfinish, hstage⟩
    cases hstage
    exact StageSteps.waits (finish_steps h hfair hfinish)
  | plan base planned =>
    have hplanned : ∃ stored', Steps now db.plane planned.plane ∧ Under now planned id run stored' := by
      rcases hfair with rfl | ⟨move, rfl⟩
      · exact ⟨stored, Steps.refl _, h⟩
      · exact ⟨_, h.touch _ ⟨rfl, rfl, rfl⟩ rfl rfl⟩
    rcases hplanned with ⟨stored', hsteps, hunder⟩
    refine StageSteps.after hsteps ?_
    rcases bind_ok.mp hstage with ⟨decision, -, hstage⟩
    rcases decision with error | plan
    · exact StageSteps.failed hunder hstage
    simp only at hstage
    split at hstage
    · exact StageSteps.failed hunder hstage
    split at hstage
    · exact StageSteps.failed hunder hstage
    · cases hstage
      exact storePlan_steps hunder _

lemma commit_steps (hlinking : run.stage = .linking) (hcommit : commit env now id run db = .ok db') :
    Steps now db.plane db'.plane := by
  simp only [commit] at hcommit
  split at hcommit
  · rename_i plan epoch hplan hepoch
    rcases bind_ok.mp hcommit with ⟨_, -, hcommit⟩
    split at hcommit
    · exact finish_steps h rfl hcommit
    rcases bind_ok.mp hcommit with ⟨before, -, hcommit⟩
    rcases bind_ok.mp hcommit with ⟨written, hwrite, hfinish⟩
    have hwrites := writeApp_writes hwrite
    have hmove : Steps now db.plane written.plane := by
      rcases hwrites.frame with ⟨apps, routes, rfl⟩
      refine Steps.one (Step.write id stored _ _ h.holds (h.stage.symm.trans hlinking) ?_ ?_)
      · rw [← h.same.app]
        exact hwrites.apps
      · rw [← h.same.app]
        exact hwrites.routes
    have hunder : Under now written id run stored := by
      rcases hwrites.frame with ⟨apps, routes, rfl⟩
      exact ⟨h.holds.rewritten h.stored rfl (refl _) h.holds.active rfl, h.same, h.stage, h.epoch⟩
    have hretire : CommandSteps now written _ := retireLost_steps id run plan (before.map Prod.snd)
    exact hmove.trans (hretire.steps.trans (finish_steps (hunder.commands hretire) rfl hfinish))
  · cases hcommit

lemma runStage_steps
    (hstage : runStage env now id run db = .ok stage) : StageSteps now id db stage := by
  simp only [runStage] at hstage
  split at hstage
  · exact readingSpecStage_steps h hstage
  · exact planStage_steps h hstage
  · split at hstage
    · cases hstage
    · exact buildSteps_steps h hstage
  · split at hstage
    · cases hstage
    · exact deploySteps_steps h hstage
  · rename_i hlinking
    rcases bind_ok.mp hstage with ⟨ended, hcommit, hstage⟩
    cases hstage
    exact StageSteps.waits (commit_steps h hlinking hcommit)
  · cases hstage
    exact StageSteps.waits (Steps.refl _)

lemma advance_steps {guard : ℕ}
    (hadvance : advance env now id guard run db = .ok db') : Steps now db.plane db'.plane := by
  induction guard generalizing db run stored with
  | zero =>
    exact Steps.of_pure hadvance
  | succ guard ih =>
    simp only [advance] at hadvance
    split_ifs at hadvance
    · exact Steps.of_pure hadvance
    rcases bind_ok.mp hadvance with ⟨⟨next, staged⟩, hstage, hadvance⟩
    rcases runStage_steps h hstage with ⟨hsteps, hnext⟩
    cases next with
    | none =>
      cases hadvance
      exact hsteps
    | some run' => exact hsteps.trans (ih (hnext run' rfl) hadvance)

end Stages

/-! ## Starting -/

/-- However a run starts, it is in an active stage then. -/
lemma decideStart_goes {start : AppDeployment → AppDeployment}
    (h : decideStart env now run db = .ok (.goes start)) (row : AppDeployment) :
    SameRun row (start row) ∧ (start row).stage ∈ activeStages ∧
      (start row).leaseEpoch = row.leaseEpoch := by
  have hstarts : start = startedFailover ∨
      ∃ buildNodeId defaultNodeId keeps, start = startedDeploy buildNodeId defaultNodeId keeps := by
    simp only [decideStart] at h
    split at h
    · rw [pure_ok] at h
      exact Or.inl (Start.goes.inj h).symm
    split at h
    · rw [pure_ok] at h
      exact Or.inr ⟨_, _, _, (Start.goes.inj h).symm⟩
    rcases bind_ok.mp h with ⟨current, -, h⟩
    cases current with
    | some current =>
      simp only at h
      split_ifs at h
      · rw [pure_ok] at h
        exact Or.inr ⟨_, _, _, (Start.goes.inj h).symm⟩
      · cases h
    | none =>
      simp only at h
      split at h
      · rw [pure_ok] at h
        exact Or.inr ⟨_, _, _, (Start.goes.inj h).symm⟩
      · cases h
  rcases hstarts with rfl | ⟨buildNodeId, defaultNodeId, keeps, rfl⟩
  · exact ⟨⟨rfl, rfl, rfl⟩, by simp [startedFailover, activeStages], rfl⟩
  · exact ⟨⟨rfl, rfl, rfl⟩, by simp [startedDeploy, activeStages], rfl⟩

lemma first_of_earlierQueued (h : earlierQueued run db = false) : First db.plane run := by
  intro j other hother hqueued happ hoperation
  by_contra hlt
  rw [earlierQueued, List.any_eq_false] at h
  refine h (j, other) (mem_collect.mpr ⟨hother, by simp [hqueued]⟩) ?_
  simp [happ, isSome_iff_ne_none.mpr hoperation, lt_of_not_ge hlt]

/-- The plane after the lease has been granted and the run rewritten. -/
lemma plane_leased {leases : Table AppLease} (f : AppDeployment → AppDeployment)
    (hstored : db.appDeployments.get id = some run)
    (hleases : ({ db with appLeases := leases } : Db).lease
      = Function.update db.lease run.app (some lease)) :
    (({ db with appLeases := leases } : Db).patchDeployment id f).plane
      = (db.plane.setLease run.app lease).setRun id (some (f run)) := by
  have hrun := congrArg Plane.run (plane_patchDeployment f hstored)
  exact Plane.ext hleases hrun rfl rfl rfl rfl

/-- A run that is begun waits, or is the first of its App and takes the lease: then it is refused, or
it goes on. -/
lemma begin_cases (hstored : db.appDeployments.get id = some run) (hqueued : run.stage = .queued)
    (hoperation : run.operation ≠ none) (h : begin env now id run db = .ok db') :
    Steps now db.plane db'.plane ∨ Starts now db.plane db'.plane id run := by
  simp only [begin] at h
  split_ifs at h with hearlier
  · exact .inl (Steps.of_pure h)
  rw [bind_ok] at h
  rcases h with ⟨⟨decision, leased⟩, hacquire, h⟩
  rcases acquireAppLease_ok hacquire with ⟨⟨heldBy, expiresAt, rfl⟩, rfl⟩ |
    ⟨lease, renewed, leases, rfl, hgrant, happ, hholder, hexpires, rfl, hleases⟩
  · exact .inl (of_pure h)
  rcases bind_ok.mp h with ⟨start, hstart, h⟩
  refine .inr ⟨hstored, first_of_earlierQueued (by simpa using hearlier), db.plane, ?_⟩
  have hget : ∀ f, ({ db with appLeases := leases }.patchDeployment id f).appDeployments.get id
      = some (f run) := fun f => get_patchDeployment f hstored
  have hlive : now < lease.expiresAt := by
    rw [hexpires]
    exact lt_add_of_pos_right now (by decide)
  cases start with
  | refused error =>
    have hlease : ({ db with appLeases := leases }.patchDeployment id
        (leasedRun now lease.epoch)).lease (leasedRun now lease.epoch run).app = some lease := by
      have hat := congrFun hleases run.app
      rw [Function.update_self] at hat
      exact hat
    rcases finish_ok (hget _) hlease (by simp [hholder]) rfl h with ⟨ended, rfl, hended⟩
    refine ⟨ended.plane, refl _, ?_, cleanUpStored_steps⟩
    have hsettled : ended.plane
        = (db.plane.setLease run.app { lease with holder := none, operation := none }).setRun id
            (some (finishedRun now ⟨.failed, DeployStage.readingSpec.text, some error, none⟩
              (leasedRun now lease.epoch run))) := by
      rw [hended, plane_leased _ hstored hleases]
      simp [setLease, setRun, leasedRun]
    rw [hsettled]
    exact Begins.refuse run _ { lease with holder := none, operation := none } renewed hstored
      hqueued hoperation hgrant happ rfl ⟨rfl, rfl, rfl⟩ rfl rfl
  | goes start =>
    simp only [hget] at h
    have hgoes := decideStart_goes hstart (leasedRun now lease.epoch run)
    have hsame : SameRun run (start (leasedRun now lease.epoch run)) :=
      ⟨hgoes.1.app, hgoes.1.startedAt, hgoes.1.operation⟩
    have hepoch : (start (leasedRun now lease.epoch run)).leaseEpoch = some lease.epoch := hgoes.2.2
    have hplane := plane_leased (fun run => start (leasedRun now lease.epoch run)) hstored hleases
    have hunder : Under now ({ db with appLeases := leases }.patchDeployment id fun run =>
        start (leasedRun now lease.epoch run)) id (start (leasedRun now lease.epoch run))
        (start (leasedRun now lease.epoch run)) := by
      refine ⟨⟨hget _, hgoes.2.1, ?_, lease.epoch, hepoch, ?_⟩, refl _, rfl, rfl⟩
      · rw [hsame.operation]
        exact hoperation
      · rw [hplane, hsame.app, leaseAdmits_iff]
        exact ⟨lease, by simp [setLease, setRun], by simp [hholder], rfl, hlive⟩
    refine ⟨_, refl _, ?_, advance_steps hunder h⟩
    rw [hplane]
    exact Begins.start run _ lease renewed hstored hqueued hoperation hgrant happ hholder hlive
      hsame hgoes.2.1 hepoch

lemma kickApp_cases (h : kickApp env now app db = .ok db') :
    Steps now db.plane db'.plane ∨ ∃ id run, Starts now db.plane db'.plane id run := by
  simp only [kickApp] at h
  split at h
  · exact .inl (of_pure h)
  rename_i id run hfind
  rcases mem_collect.mp (mem_of_find?_eq_some hfind) with ⟨hstored, hqueued⟩
  have hfound := find?_some hfind
  simp only [Bool.and_eq_true, decide_eq_true_eq] at hfound hqueued
  exact (begin_cases hstored hqueued (isSome_iff_ne_none.mp hfound.2) h).imp_right
    fun hstarts => ⟨id, run, hstarts⟩

/-! ## Entry points -/

lemma tick_cases (h : tick env now id db = .ok db') :
    Steps now db.plane db'.plane ∨ ∃ run, Starts now db.plane db'.plane id run := by
  simp only [tick] at h
  rcases hstored : db.appDeployments.get id with _ | run
  · simp only [hstored] at h
    exact .inl (Steps.of_pure h)
  simp only [hstored] at h
  split_ifs at h with hended hqueued
  · exact .inl (Steps.of_pure h)
  · exact (begin_cases hstored hqueued (fun hnone => hended (.inl hnone)) h).imp_right
      fun hstarts => ⟨run, hstarts⟩
  left
  rcases bind_ok.mp h with ⟨lease, hlease, h⟩
  rw [← lease_of_leaseRow hlease] at h
  have hopen : isTerminalStage run.stage = false := by
    cases hterminal : isTerminalStage run.stage with
    | false => rfl
    | true => exact absurd (.inr hterminal) hended
  split at h
  · rename_i hnone
    cases h
    refine Steps.trans (Steps.one ?_) cleanUpStored_steps
    rw [plane_patchDeployment _ hstored]
    refine Step.lose id run _ hstored hopen ⟨rfl, rfl, rfl⟩ ?_ rfl rfl
    intro epoch hepoch
    rw [hepoch, filter_eq_none_iff] at hnone
    have hlost := hnone epoch rfl
    rw [Bool.not_eq_true] at hlost
    exact hlost
  · rename_i epoch hepoch
    rcases filter_eq_some_iff.mp hepoch with ⟨hheld, hadmits⟩
    rcases bind_ok.mp h with ⟨renewed, hrenew, h⟩
    rcases renewAppLease_ok hrenew with ⟨row, leases, hrow, rfl, hleases⟩
    have hactive : run.stage ∈ activeStages := by
      revert hopen hqueued
      cases run.stage <;> decide
    have hholds : Holds now db.plane id run :=
      ⟨hstored, hactive, fun hnone => hended (.inl hnone), epoch, hheld, hadmits⟩
    have hplane : { db with appLeases := leases }.plane
        = db.plane.setLease run.app { row with expiresAt := now + appLeaseTtlMs } :=
      Plane.ext hleases rfl rfl rfl rfl rfl
    have hunder : Under now { db with appLeases := leases } id run run := by
      refine ⟨⟨hstored, hactive, fun hnone => hended (.inl hnone), epoch, hheld, ?_⟩,
        SameRun.refl _, rfl, rfl⟩
      rw [hrow, leaseAdmits_iff] at hadmits
      rcases hadmits with ⟨row', hrow', hholder, hepoch', -⟩
      rw [some.injEq] at hrow'
      subst hrow'
      rw [hplane, leaseAdmits_iff]
      exact ⟨{ row with expiresAt := now + appLeaseTtlMs }, by simp [Plane.setLease], hholder,
        hepoch', lt_add_of_pos_right now (by decide)⟩
    refine Steps.trans (Steps.one ?_) (advance_steps hunder h)
    rw [hplane]
    exact Step.extend id run row hholds hrow

/-- Cleaning up leaves every run in its place. -/
lemma get_cleanUp (now : ℤ) (id : DocId AppDeployment) (run : AppDeployment) (db : Db)
    (j : DocId AppDeployment) :
    (cleanUp now id run db).appDeployments.get j = db.appDeployments.get j ∨
      ∃ row, db.appDeployments.get j = some row ∧
        (cleanUp now id run db).appDeployments.get j = some { row with sourceDeleted := some true } := by
  have hframe : ∀ entries : List (DocId CommandRow × CommandRow),
      (entries.foldl (cancelOpen now) db).appDeployments = db.appDeployments :=
    fun entries => foldl_frame Db.appDeployments (fun db entry => by
      simp only [cancelOpen]
      split_ifs <;> rfl) entries db
  simp only [cleanUp]
  split
  · split_ifs
    · exact .inl (by rw [hframe])
    simp only [Db.patchDeployment, hframe]
    by_cases hj : j = id
    · subst hj
      rw [get_patch_self]
      cases db.appDeployments.get j with
      | none => exact .inl rfl
      | some row => exact .inr ⟨row, rfl, rfl⟩
    · exact .inl (get_patch_ne hj)
  · exact .inl (by rw [hframe])

lemma first_of_cleanUp {j : DocId AppDeployment}
    (hrow : (cleanUp now id run db).appDeployments.get j = some row)
    (hfirst : First (cleanUp now id run db).plane row) :
    ∃ stored, db.appDeployments.get j = some stored ∧ First db.plane stored := by
  have hback : ∀ i other, db.appDeployments.get i = some other →
      ∃ other', (cleanUp now id run db).appDeployments.get i = some other' ∧ other'.app = other.app ∧
        other'.startedAt = other.startedAt ∧ other'.stage = other.stage ∧
        other'.operation = other.operation := by
    intro i other hother
    rcases get_cleanUp now id run db i with hsame | ⟨r, hr, hget⟩
    · exact ⟨other, hsame.trans hother, rfl, rfl, rfl, rfl⟩
    · cases hother.symm.trans hr
      exact ⟨_, hget, rfl, rfl, rfl, rfl⟩
  have hstored : ∃ stored, db.appDeployments.get j = some stored := by
    rcases get_cleanUp now id run db j with hsame | ⟨r, hr, -⟩
    · exact ⟨row, hsame.symm.trans hrow⟩
    · exact ⟨r, hr⟩
  rcases hstored with ⟨stored, hstored⟩
  rcases hback j stored hstored with ⟨row', hrow', happ, hstarted, -, -⟩
  rw [hrow, some.injEq] at hrow'
  subst hrow'
  refine ⟨stored, hstored, fun i other hother hqueued hsame hoperation => ?_⟩
  rcases hback i other hother with ⟨other', hother', happ', hstarted', hstage', hoperation'⟩
  have hle := hfirst i other' hother' (hstage'.trans hqueued) (happ'.trans (hsame.trans happ.symm))
    (by rw [hoperation']; exact hoperation)
  rwa [hstarted, hstarted'] at hle

lemma afterSweep_cases (h : afterSweep env now id db = .ok db') :
    Steps now db.plane db'.plane ∨ ∃ j run, Starts now db.plane db'.plane j run := by
  simp only [afterSweep] at h
  rcases hstored : db.appDeployments.get id with _ | run
  · simp only [hstored] at h
    exact .inl (of_pure h)
  simp only [hstored] at h
  split_ifs at h
  · have hclean : Steps now db.plane (cleanUp now id run db).plane :=
      cleanUp_steps (by simp [hstored]) run
    rcases kickApp_cases h with hsteps | ⟨j, row, hstarts⟩
    · exact .inl (hclean.trans hsteps)
    · rcases first_of_cleanUp hstarts.stored hstarts.first with ⟨stored, hj, hfirst⟩
      rcases hstarts.begins with ⟨q, q', hbefore, hbegins, hafter⟩
      exact .inr ⟨j, stored, hj, hfirst, q, q', hclean.trans hbefore, hbegins, hafter⟩
  · exact .inl (of_pure h)

lemma sweepRow_ok {entry : DocId AppDeployment × AppDeployment} (h : sweepRow now db entry = .ok db') :
    db' = db ∨ ∃ reason, staleReason now entry.2 db = .ok (some reason) ∧
      db' = db.patchDeployment entry.1 fun run =>
        { run with stage := .failed, error := some reason, finishedAt := some now } := by
  rcases bind_ok.mp h with ⟨reason, hreason, h⟩
  cases reason with
  | none =>
    cases h
    exact .inl rfl
  | some reason =>
    cases h
    exact .inr ⟨reason, hreason, rfl⟩

lemma sweepRows_steps {entries : List (DocId AppDeployment × AppDeployment)}
    (hdistinct : entries.Pairwise fun r s => r.1 ≠ s.1)
    (hstored : ∀ entry ∈ entries, db.appDeployments.get entry.1 = some entry.2 ∧
      isTerminalStage entry.2.stage = false)
    (h : entries.foldlM (sweepRow now) db = .ok db') : Steps now db.plane db'.plane := by
  refine foldlM_rows (fun (s : Db) i => s.appDeployments.get i) (fun s => Steps now db.plane s.plane) h
    hdistinct (fun entry hentry => (hstored entry hentry).1) (refl _) ?_
  intro entry hentry s s' hsteps hget hrow
  rcases sweepRow_ok hrow with rfl | ⟨reason, hreason, rfl⟩
  · exact ⟨hsteps, fun _ _ => rfl⟩
  refine ⟨hsteps.trans (one ?_), fun i hi => get_patch_ne hi⟩
  rw [plane_patchDeployment _ hget]
  refine lose entry.1 entry.2 _ hget (hstored entry hentry).2 ⟨rfl, rfl, rfl⟩
    (fun epoch hepoch => ?_) rfl rfl
  simp only [staleReason, hepoch] at hreason
  split_ifs at hreason
  · cases hreason
  rcases bind_ok.mp hreason with ⟨lease, hlease, hstale⟩
  rw [← lease_of_leaseRow hlease, pure_ok] at hstale
  cases hadmits : leaseAdmits (s.lease entry.2.app) epoch now with
  | false => exact hadmits
  | true => simp [hadmits] at hstale

lemma sweepStale_steps (h : sweepStale now db = .ok db') : Steps now db.plane db'.plane := by
  refine foldlM_keeps (P := fun db' => Steps now db.plane db'.plane) ?_ (Steps.refl _) h
  intro stage hstage db₁ db₂ hsteps hrows
  have hsub : ((db₁.appDeployments.collect fun row => row.stage = stage).take 200).Sublist
      (db₁.appDeployments.collect fun row => row.stage = stage) := take_sublist _ _
  refine hsteps.trans (sweepRows_steps (collect_nodup.sublist hsub) (fun entry hentry => ?_) hrows)
  rcases mem_collect.mp (hsub.subset hentry) with ⟨hget, hat⟩
  refine ⟨hget, ?_⟩
  rw [of_decide_eq_true hat]
  revert hstage
  cases stage <;> decide

/-- A loop makes the steps of its rounds. -/
lemma Steps.foldlM {σ β : Type} (view : σ → Db) {f : σ → β → Except String σ} {l : List β} {s s' : σ}
    (hround : ∀ s b s', f s b = .ok s' → Steps now (view s).plane (view s').plane)
    (h : l.foldlM f s = .ok s') : Steps now (view s).plane (view s').plane :=
  foldlM_keeps (P := fun t => Steps now (view s).plane (view t).plane)
    (fun b _ t t' hsteps ht => hsteps.trans (hround t b t' ht)) (Steps.refl _) h

/-! ## Creating runs -/

lemma deletes_steps (ids : List (DocId AppDeployment)) (count : ℤ) (db : Db) : Steps now db.plane
      ({ db with
        appDeployments := ids.foldl delete db.appDeployments, deployments := count } : Db).plane := by
  refine foldlRecOn (motive := fun runs => Steps now db.plane
    ({ db with appDeployments := runs, deployments := count } : Db).plane) ids _ (refl _) ?_
  intro runs hsteps first _
  have hplane : { db with appDeployments := runs.delete first, deployments := count }.plane
      = { db with appDeployments := runs, deployments := count }.plane.setRun first none := by
    simp only [Db.plane, get_delete_update]
    rfl
  rw [hplane]
  exact hsteps.trans (one (Step.trim first))

lemma createDeployment_steps (hqueued : row.stage = .queued)
    (hepoch : row.leaseEpoch = none) (hoperation : row.operation ≠ none) :
    Steps now db.plane (createDeployment row db).2.plane := by
  have hinsert : Steps now db.plane { db with
      appDeployments := db.appDeployments.insert row, deployments := db.deployments + 1 }.plane := by
    have hplane : { db with
        appDeployments := db.appDeployments.insert row
        deployments := db.deployments + 1 }.plane = db.plane.addRun row := by
      simp only [Db.plane, get_insert_update]
      rfl
    rw [hplane]
    exact one (create row hqueued hepoch hoperation)
  simp only [createDeployment]
  split_ifs
  · exact hinsert.trans (deletes_steps _ _ _)
  · exact hinsert

lemma createRun_steps {input : RunInput} {created : DocId AppDeployment}
    (h : createRun now input db = .ok (created, db')) : Steps now db.plane db'.plane := by
  rcases refuseIf_bind_ok.mp h with ⟨-, h⟩
  rw [refuseIf_bind_ok, pure_ok] at h
  rw [← (Prod.mk.inj h.2).2]
  exact createDeployment_steps rfl rfl (by simp [queuedRun])

lemma failOver_steps {lost : DocId Node} (h : failOver now lost survivors db = .ok (started, db')) :
    Steps now db.plane db'.plane := by
  refine Steps.foldlM Prod.snd ?_ h
  rintro ⟨runs, db₁⟩ ⟨i, app⟩ ⟨runs', db₂⟩ hrun
  rcases bind_ok.mp hrun with ⟨⟨created, db₃⟩, hcreate, hrun⟩
  cases hrun
  exact createRun_steps hcreate

lemma checkNode_steps {state state' : List (DocId AppDeployment) × Db}
    {entry : DocId Node × Node} (h : checkNode now survivors state entry = .ok state') :
    Steps now state.2.plane state'.2.plane := by
  simp only [checkNode] at h
  split_ifs at h
  · cases h
    exact refl _
  · exact of_answer h
  · exact of_answer h
  split at h
  · cases h
    exact refl _
  split_ifs at h
  · exact of_answer h
  rcases bind_ok.mp h with ⟨⟨runs, failed⟩, hfail, h⟩
  cases h
  have hsteps := failOver_steps hfail
  exact hsteps

lemma check_steps (h : check env now db = .ok (started, db')) : Steps now db.plane db'.plane := by
  simp only [check] at h
  split_ifs at h
  · exact of_answer h
  · exact Steps.foldlM Prod.snd (fun _ _ _ => checkNode_steps) h

/-! ## Removing an App -/

lemma queueRemoval_steps {key operation : String} {nodeId : DocId Node}
    (h : queueRemoval now key nodeId operation db name = .ok db') : Steps now db.plane db'.plane := by
  rcases bind_ok.mp h with ⟨⟨commandId, queued⟩, hinsert, h⟩
  cases h
  exact (insertNodeCommand_steps (Origin.plain rfl rfl rfl) hinsert).steps

lemma queueRemovals_steps {hasRow : Bool} {group : DocId Node × List String}
    (h : queueRemovals now name hasRow db group = .ok db') : Steps now db.plane db'.plane := by
  simp only [queueRemovals] at h
  split_ifs at h
  · exact of_pure h
  all_goals
    rcases bind_ok.mp h with ⟨queued, hqueued, h⟩
    have hsteps : Steps now db.plane queued.plane :=
      Steps.foldlM id (fun _ _ _ => queueRemoval_steps) hqueued
  · exact hsteps.trans (queueRemoval_steps h)
  · cases h
    exact hsteps

lemma eq_none_of_delete_ne {j : DocId α}
    (h : (t.delete j).get i ≠ t.get i) : (t.delete j).get i = none := by
  rw [get_delete] at h ⊢
  split_ifs at h ⊢
  · rfl
  · exact absurd rfl h

lemma removeLabel_steps {label : String} (h : removeLabel name db label = .ok db') :
    Steps now db.plane db'.plane := by
  rcases bind_ok.mp h with ⟨found, -, h⟩
  rcases found with _ | entry
  · exact of_pure h
  simp only at h
  split at h
  · cases h
    split_ifs
    · exact one (remove _ _ (fun i hi => absurd rfl hi) fun i hi => eq_none_of_delete_ne hi)
    · exact refl _
  · exact of_pure h

lemma removeApp_steps (h : removeApp now name db = .ok db') : Steps now db.plane db'.plane := by
  simp only [removeApp] at h
  rw [refuseIf_bind_ok, bind_ok] at h
  rcases h with ⟨-, ⟨app, containers⟩, -, h⟩
  rcases bind_ok.mp h with ⟨lease, -, h⟩
  rw [refuseIf_bind_ok, forM_bind_ok, bind_ok] at h
  rcases h with ⟨-, -, queued, hqueued, h⟩
  rcases bind_ok.mp h with ⟨labelled, -, h⟩
  rcases bind_ok.mp h with ⟨unlabelled, hlabels, h⟩
  have hsteps : Steps now db.plane unlabelled.plane := by
    refine Relation.ReflTransGen.trans (b := queued.plane) ?_ ?_
    · exact Steps.foldlM id (fun _ _ _ => queueRemovals_steps) hqueued
    · exact Steps.foldlM id (fun _ _ _ => removeLabel_steps) hlabels
  cases app with
  | none =>
    cases h
    exact hsteps
  | some entry =>
    cases h
    exact hsteps.trans (one (remove _ _ (fun i hi => eq_none_of_delete_ne hi)
      fun i hi => absurd rfl hi))

/-! ## Calls -/

/-- **What a call does.**  A call that commits has made some steps, or a run has begun in it. -/
theorem perform_cases {call : Call} (h : perform env now call db = .ok db') :
    Steps now db.plane db'.plane ∨ ∃ id run, Starts now db.plane db'.plane id run := by
  cases call with
  | heartbeat args =>
    simp only [perform] at h
    rcases bind_ok.mp h with ⟨nodeId, -, h⟩
    rw [refuseIf_bind_ok, refuseIf_bind_ok, refuseIf_bind_ok, pure_ok] at h
    rw [← h.2.2.2]
    exact .inl (refl _)
  | check =>
    rcases map_snd_ok.mp h with ⟨started, hcheck⟩
    exact .inl (check_steps hcheck)
  | enqueue user nodeId key command =>
    rcases map_snd_ok.mp h with ⟨commandId, henqueue⟩
    exact .inl (enqueue_steps henqueue)
  | cancel user commandId => exact .inl (cancel_steps h)
  | claim credential commandId owner =>
    rcases map_snd_ok.mp h with ⟨answer, hclaim⟩
    exact .inl (claim_steps hclaim)
  | renew args =>
    rcases map_snd_ok.mp h with ⟨leaseUntil, hrenew⟩
    exact .inl (renew_steps hrenew)
  | report args => exact .inl (report_steps h)
  | request caller query lines =>
    rcases map_snd_ok.mp h with ⟨answer, hrequest⟩
    exact .inl (request_steps hrequest)
  | consume caller id =>
    rcases map_snd_ok.mp h with ⟨answer, hconsume⟩
    exact .inl (consume_steps hconsume)
  | expire id =>
    rw [← pure_ok.mp h]
    exact .inl (expire_steps id)
  | createRun input =>
    rcases map_snd_ok.mp h with ⟨created, hcreate⟩
    exact .inl (createRun_steps hcreate)
  | tick id => exact (tick_cases h).imp_right fun hstarts => ⟨id, hstarts⟩
  | kick app => exact kickApp_cases h
  | pulse | outside nodeCredentials appDataKeys appSecrets storage =>
    rw [← pure_ok.mp h]
    exact .inl (refl _)
  | sweepStale => exact .inl (sweepStale_steps h)
  | afterSweep id => exact afterSweep_cases h
  | removeApp name => exact .inl (removeApp_steps h)
  | enroll name =>
    simp only [perform] at h
    rcases bind_ok.mp h with ⟨found, -, h⟩
    cases found with
    | none =>
      cases h
      exact .inl (refl _)
    | some entry =>
      exact .inl (of_pure h)

lemma perform_moves {call : Call} (h : perform env now call db = .ok db') :
    Moves now db.plane db'.plane := by
  rcases perform_cases h with hsteps | ⟨id, run, hstarts⟩
  · exact hsteps.moves
  · exact hstarts.moves

end EraInfra.Infra
