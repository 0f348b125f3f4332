import EraInfra.Infra.CommandClaims

/-!
# Planning makes way for a deploy

A failover leaves `container.remove` commands behind for the Node it moved an App away from.  When a
later run is planned onto that Node, `planStage` cancels those that are still pending, of the
containers the plan starts there (`cancelRetirements`, for each Node of the plan).

`Plans` is the event in which that happens, `GivesWay` says which removals are out of the way after
it, and `Plans.ended` that they are.
-/

namespace EraInfra.Infra

open DocStore List Option Table

variable {now : ℤ} {db db' : Db} {r : DocId CommandRow} {row : CommandRow}
  {entry : DocId CommandRow × CommandRow} {entries : List (DocId CommandRow × CommandRow)}

/-- The command is there and has ended. -/
def Ended (db : Db) (r : DocId CommandRow) : Prop :=
  ∃ row, db.nodeCommands.get r = some row ∧ row.isOpen = false

/-- A command that has ended stays so, whatever happens to the commands. -/
lemma Ended.moves (hr : Ended db r)
    (hmoves : CommandMoves now db.nodeCommands.get db'.nodeCommands.get) : Ended db' r := by
  rcases hr with ⟨row, hrow, hclosed⟩
  rcases hmoves.later hrow with ⟨row', hrow', hlater⟩
  exact ⟨row', hrow', hlater.isOpen_eq_false hclosed⟩

/-! ## Cancelling -/

lemma get_cancelOpen (now : ℤ) (db : Db) (entry : DocId CommandRow × CommandRow) (i : DocId CommandRow) :
    (cancelOpen now db entry).nodeCommands.get i = db.nodeCommands.get i ∨
      (i = entry.1 ∧ (cancelOpen now db entry).nodeCommands.get i
        = (db.nodeCommands.get i).map (cancelledRow now)) := by
  rw [cancelOpen]
  split_ifs
  · by_cases hi : i = entry.1
    · subst hi
      exact .inr ⟨rfl, get_patch_self⟩
    · exact .inl (get_patch_ne hi)
  · exact .inl rfl

lemma Ended.cancelOpen (hr : Ended db r) : Ended (cancelOpen now db entry) r := by
  rcases hr with ⟨row, hrow, hclosed⟩
  rcases get_cancelOpen now db entry r with hsame | ⟨-, hcancelled⟩
  · exact ⟨row, hsame.trans hrow, hclosed⟩
  · exact ⟨cancelledRow now row, by rw [hcancelled, hrow, map_some], rfl⟩

/-- Every command of a list that is cancelled has ended afterwards. -/
lemma cancels_ended (hmem : (r, row) ∈ entries) (hopen : row.isOpen = true)
    (hstored : (db.nodeCommands.get r).isSome = true) : Ended (entries.foldl (cancelOpen now) db) r := by
  rcases append_of_mem hmem with ⟨before, after, rfl⟩
  have hreached : ((before.foldl (Infra.cancelOpen now) db).nodeCommands.get r).isSome = true := by
    refine foldlRecOn before (Infra.cancelOpen now)
      (motive := fun db : Db => (db.nodeCommands.get r).isSome = true) hstored fun db' hdb' entry _ => ?_
    rcases get_cancelOpen now db' entry r with hsame | ⟨-, hcancelled⟩
    · rw [hsame]
      exact hdb'
    · rw [hcancelled, isSome_map]
      exact hdb'
  rcases isSome_iff_exists.mp hreached with ⟨row', hrow'⟩
  rw [foldl_append, foldl_cons]
  refine foldlRecOn after (Infra.cancelOpen now) (motive := fun db => Ended db r) ?_
    fun _ hended _ _ => hended.cancelOpen
  refine ⟨cancelledRow now row', ?_, rfl⟩
  rw [Infra.cancelOpen, if_pos hopen, Db.patchCommand, get_patch_self, hrow', map_some]

/-! ## One Node after the other -/

variable {nodeId other : DocId Node} {status : CommandStatus} {containers : List String}

/-- Cancelling a command of one Node leaves those of another as they are. -/
lemma commandsWith_cancelOpen
    (hother : ∀ row, db.nodeCommands.get entry.1 = some row → row.nodeId ≠ nodeId) :
    commandsWith (cancelOpen now db entry) nodeId status = commandsWith db nodeId status := by
  rw [cancelOpen]
  split_ifs
  · simp only [commandsWith, Db.patchCommand]
    rw [collect_patch fun row hrow => by simp [cancelledRow, hother row hrow]]
    refine (map_congr_left fun listed hlisted => ?_).trans (map_id _)
    rcases mem_collect.mp hlisted with ⟨hstored, hnode⟩
    have hne : listed.1 ≠ entry.1 := by
      intro heq
      rw [heq] at hstored
      exact hother _ hstored (of_decide_eq_true hnode).1
    rw [if_neg hne, id_eq]
  · rfl

/-- Cancelling commands of one Node, one after the other; their rows stay rows of that Node. -/
lemma commandsWith_cancels {retired : List (DocId CommandRow × CommandRow)} (hne : other ≠ nodeId)
    (hretired : ∀ listed ∈ retired, listed ∈ commandsWith db other .pending) :
    commandsWith (retired.foldl (cancelOpen now) db) nodeId status = commandsWith db nodeId status := by
  have hfold := foldlRecOn retired (cancelOpen now) (motive := fun db' : Db =>
    commandsWith db' nodeId status = commandsWith db nodeId status ∧
      ∀ i row, db'.nodeCommands.get i = some row →
        ∃ row', db.nodeCommands.get i = some row' ∧ row.nodeId = row'.nodeId)
    ⟨rfl, fun i row hrow => ⟨row, hrow, rfl⟩⟩
  refine (hfold ?_).1
  rintro db' ⟨hsame, hrows⟩ listed hlisted
  refine ⟨(commandsWith_cancelOpen fun row hrow => ?_).trans hsame, fun i row hrow => ?_⟩
  · rcases mem_collect.mp (hretired listed hlisted) with ⟨hstored, hnode⟩
    rcases hrows _ _ hrow with ⟨row', hrow', hnode'⟩
    rw [hstored, some.injEq] at hrow'
    rw [hnode', ← hrow', (of_decide_eq_true hnode).1]
    exact hne
  · rcases get_cancelOpen now db' listed i with hkept | ⟨-, hcancelled⟩
    · exact hrows i row (hkept.symm.trans hrow)
    · rcases map_eq_some_iff.mp (hcancelled.symm.trans hrow) with ⟨row', hrow', rfl⟩
      exact hrows i row' hrow'

lemma commandsWith_cancelRetirements (hne : other ≠ nodeId) :
    commandsWith (cancelRetirements now other containers db) nodeId status
      = commandsWith db nodeId status :=
  commandsWith_cancels hne fun _ hlisted => mem_of_mem_take (mem_of_mem_filter hlisted)

/-- A pending retirement of one of the containers, among those that are looked at. -/
def Retires (db : Db) (nodeId : DocId Node) (containers : List String) (r : DocId CommandRow) : Prop :=
  ∃ row operation name, (r, row) ∈ (commandsWith db nodeId .pending).take 200 ∧
    row.command = .operate operation ∧ operation.name = "container.remove" ∧
    operation.args.lookup "name" = some name ∧ name ∈ containers ∧
    includes row.idempotencyKey ":retire-" = true

lemma cancelRetirements_ended (hr : Retires db nodeId containers r) :
    Ended (cancelRetirements now nodeId containers db) r := by
  rcases hr with ⟨row, operation, name, hlisted, hcommand, hremove, hname, hcontainer, hkey⟩
  rcases mem_collect.mp (mem_of_mem_take hlisted) with ⟨hstored, hpending⟩
  refine cancels_ended (mem_filter.mpr ⟨hlisted, ?_⟩) ?_ (by rw [hstored]; rfl)
  · simp [hcommand, hremove, hname, hcontainer, hkey]
  · simp [CommandRow.isOpen, (of_decide_eq_true hpending).2]

/-! ## The planning stage -/

/-- The command has ended, or it is a retirement of a container that the plan starts on its Node. -/
def GivesWay (db : Db) (app : String) (plan : DeployPlan) (r : DocId CommandRow) : Prop :=
  Ended db r ∨ ∃ nodeId ∈ plan.deployNodeIds, Retires db nodeId (containersOn app plan nodeId) r

variable {env : Environment} {id : DocId AppDeployment} {run run' : AppDeployment} {plan : DeployPlan}
  {app : String}

/-- What stands in the way has ended when the retirements of every Node of a plan are cancelled. -/
lemma GivesWay.cancelled (hr : GivesWay db app plan r) :
    Ended (plan.deployNodeIds.foldl (fun db nodeId =>
      cancelRetirements now nodeId (containersOn app plan nodeId) db) db) r := by
  have hkeeps : ∀ (nodes : List (DocId Node)) (db : Db), Ended db r → Ended (nodes.foldl (fun db nodeId =>
      cancelRetirements now nodeId (containersOn app plan nodeId) db) db) r := by
    intro nodes db hended
    refine foldlRecOn nodes _ (motive := fun db => Ended db r) hended fun db' hdb' nodeId _ => ?_
    exact hdb'.moves (cancelRetirements_steps now db' nodeId _).steps.moves.commands
  rcases hr with hended | ⟨nodeId, hnode, hretires⟩
  · exact hkeeps _ db hended
  -- up to its Node's turn nothing is cancelled among the Node's commands
  rcases eq_append_cons_of_mem hnode with ⟨before, after, hsplit, hbefore⟩
  rw [hsplit, foldl_append, foldl_cons]
  refine hkeeps after _ (cancelRetirements_ended ?_)
  have hsame : commandsWith (before.foldl (fun db nodeId =>
      cancelRetirements now nodeId (containersOn app plan nodeId) db) db) nodeId .pending
      = commandsWith db nodeId .pending := by
    refine foldlRecOn before _ (motive := fun db' =>
      commandsWith db' nodeId .pending = commandsWith db nodeId .pending) rfl ?_
    intro db' hdb' other hother
    have hne : other ≠ nodeId := fun heq => hbefore (heq ▸ hother)
    exact (commandsWith_cancelRetirements hne).trans hdb'
  rw [Retires, hsame]
  exact hretires

lemma storePlan_stored (h : storePlan now id run plan db = (some run', db')) :
    run'.plan = some plan ∧ db'.nodeCommands = (plan.deployNodeIds.foldl (fun db nodeId =>
      cancelRetirements now nodeId (containersOn run.app plan nodeId) db) db).nodeCommands := by
  simp only [storePlan, moveTo] at h
  split_ifs at h
  all_goals
    rcases Prod.mk.inj h with ⟨hrun, rfl⟩
    rw [Db.patchDeployment, get_patch_self] at hrun
    rcases map_eq_some_iff.mp hrun with ⟨stored, -, rfl⟩
    exact ⟨rfl, rfl⟩

/-- A planning stage that the run gets past has stored a plan, with the commands as they were. -/
lemma planStage_stored (h : planStage env now id run db = .ok (some run', db')) :
    ∃ plan planned, planned.nodeCommands = db.nodeCommands ∧
      storePlan now id run plan planned = (some run', db') := by
  have hfails : ∀ {error : String} {db'' : Db},
      stageFail now id run error db'' ≠ .ok (some run', db') := by
    intro error db'' hfail
    rcases bind_ok.mp hfail with ⟨_, -, hnone⟩
    cases hnone
  rcases bind_ok.mp h with ⟨start, hstart, h⟩
  have hfair := planBase_fair hstart
  cases start with
  | ended result =>
    rcases bind_ok.mp h with ⟨_, -, hnone⟩
    cases hnone
  | plan base planned =>
    have hcommands : planned.nodeCommands = db.nodeCommands := by
      rcases hfair with rfl | ⟨move, rfl⟩ <;> rfl
    rcases bind_ok.mp h with ⟨decision, -, h⟩
    rcases decision with error | plan
    · exact absurd h hfails
    simp only at h
    split at h
    · exact absurd h hfails
    split at h
    · exact absurd h hfails
    · exact ⟨_, planned, hcommands, (pure_ok.mp h)⟩

/-- The event ends by moving a run on from its planning stage, which gives the run its plan.  The run
holds its App's lease, and `planned` is the database with which the stage begins. -/
structure Plans (s : System) (e : CommandEvent) (id : DocId AppDeployment) (run : AppDeployment)
    (planned : Db) (plan : DeployPlan) : Prop where
  under : Under e.now planned id run run
  planning : run.stage = .planning
  stored : ∃ run' db', planStage e.env e.now id run planned = .ok (some run', db') ∧ run'.plan = some plan
  ends : ∃ guard, advance e.env e.now id (guard + 1) run planned = .ok (commandStep s e).db

/-- A removal that gives way to a plan has ended when the run has been planned. -/
lemma Plans.ended {s : System} {e : CommandEvent} {planned : Db} (h : Plans s e id run planned plan)
    (hr : GivesWay planned run.app plan r) : Ended (commandStep s e).db r := by
  rcases h.stored with ⟨run', db', hstage, hplan⟩
  rcases h.ends with ⟨guard, hadvance⟩
  have hcancelled : Ended db' r := by
    rcases planStage_stored hstage with ⟨plan', db'', hcommands, hstored⟩
    rcases storePlan_stored hstored with ⟨hplan', hcommands'⟩
    cases some.inj (hplan.symm.trans hplan')
    have hway : GivesWay db'' run.app plan r := by
      simpa only [GivesWay, Ended, Retires, commandsWith, hcommands] using hr
    rw [Ended, hcommands']
    exact hway.cancelled
  -- the stages after it only move commands on
  rw [advance, if_neg (by rw [h.planning]; decide), runStage, h.planning, hstage] at hadvance
  have hunder := (planStage_steps h.under hstage).2 run' rfl
  exact hcancelled.moves (advance_steps hunder hadvance).moves.commands

end EraInfra.Infra
