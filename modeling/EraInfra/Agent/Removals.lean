import EraInfra.Agent.PageOrder

/-!
# Removals and deploys

A `container.remove` that was queued for a Node before a deploy should not run there after it: it would
take down what the deploy has started.  Two things put it out of the way.  Planning cancels the pending
retirements of a run's containers (`Plans`), and a page lists commands in the order they were queued,
with one of them claimed at a time (`Lists`).  Either way the removal has ended when the deploy runs,
and never runs again.

A removal that has been claimed is neither cancelled nor, while its claim is live, listed.  When the
claim lapses between a page that lists the deploy and the claim of the deploy, the deploy runs first
(`removal_runs_after_deploy`).
-/

namespace EraInfra.Infra.Agent

open DocStore Encoding Option Host

variable {codec : Codec} {url : String} {r d : DocId CommandRow} {h : Host}

/-! ## Removals -/

/-- The containers that a deploy starts. -/
def containersOf (app : String) (services : List PayloadService) : List String :=
  services.map fun s => containerName app s.name

/-- A `container.remove` of one of the containers, queued before the deploy and on the same Node. -/
def Removes (db : Db) (r d : DocId CommandRow) (containers : List String) : Prop :=
  r < d ∧ ∃ row row' operation, db.nodeCommands.get r = some row ∧ db.nodeCommands.get d = some row' ∧
    row.nodeId = row'.nodeId ∧ row.command = .operate operation ∧ operation.name = "container.remove" ∧
    ∃ name ∈ containers, operation.args.lookup "name" = some name

/-- How a removal comes before a deploy, from an event and those between it and the deploy: in the
event a run is planned to which the removal gives way, or the event is a page that lists the removal and
the process keeps to it. -/
inductive ComesFirst (codec : Codec) (url : String) (r : DocId CommandRow) (h : Host) :
    NodeEvent → List NodeEvent → Prop
  | planned {e : CommandEvent} {id : DocId AppDeployment} {run : AppDeployment} {planned : Db}
      {plan : DeployPlan} {events : List NodeEvent} (plans : Plans h.system e id run planned plan)
      (givesWay : GivesWay planned run.app plan r) : ComesFirst codec url r h (.backend e) events
  | listed {e : NodeEvent} {events : List NodeEvent} (lists : Lists codec url r h e)
      (keeps : Meets (nodeStep codec url) (nodeStep codec url h e) (KeepsTo codec url r) events) :
      ComesFirst codec url r h e events

/-- A removal that comes first has ended when the deploy runs. -/
lemma ComesFirst.ended {e₀ e : NodeEvent} {events : List NodeEvent} {payload : Payload}
    (hfirst : ComesFirst codec url r h e₀ events) (hlt : r < d)
    (hinvokes : Invokes (run (nodeStep codec url) h (e₀ :: events)) e d payload) :
    Ended (run (nodeStep codec url) h (e₀ :: events)).system.db r := by
  cases hfirst with
  | planned plans givesWay => exact ended_run (plans.ended givesWay) events
  | listed lists keeps => exact (lists.waits.run hlt keeps).ended hlt hinvokes

/-- **A removal that comes before a deploy is not run after it.**  When a deploy runs, a removal of one
of its containers that was queued before it on its Node, and that gave way to a plan or was listed
first, is not run later, however calls, claims, lapses, crashes and restarts interleave. -/
theorem removal_not_after_deploy (codec : Codec) (url : String) (start : Host)
    (before between after : List NodeEvent) (e₀ e e' : NodeEvent) (d r : DocId CommandRow) (app : String)
    (services : List PayloadService) (payload : Payload)
    (hfirst : ComesFirst codec url r (run (nodeStep codec url) start before) e₀ between)
    (hdeploy : Invokes (run (nodeStep codec url) start (before ++ e₀ :: between)) e d
      (.deploy app services))
    (hremoves : Removes (run (nodeStep codec url) start (before ++ e₀ :: between)).system.db r d
      (containersOf app services)) :
    ¬ Invokes (run (nodeStep codec url) start (before ++ e₀ :: between ++ e :: after)) e' r payload := by
  have hended : Ended (run (nodeStep codec url) start (before ++ e₀ :: between)).system.db r := by
    rw [run_append] at hdeploy ⊢
    exact hfirst.ended hremoves.1 hdeploy
  rcases hdeploy with ⟨rfl, c, cmd, epoch, hc, hphase, rfl⟩
  have hsettled : Settled r (run (nodeStep codec url) start (before ++ e₀ :: between)) := by
    refine ⟨hended, fun c' hc' hengaged => ?_⟩
    cases some.inj (hc.symm.trans hc')
    rw [hphase] at hengaged
    exact absurd (some.inj hengaged) (Nat.ne_of_gt hremoves.1)
  rw [run_append]
  exact (hsettled.run (.act .invoke :: after)).not_invokes e' payload

/-! ## A removal that runs late -/

/-- Every App is one service, `web`. -/
def webEnvironment : Environment := { plainEnvironment with
    parseSpec := fun _ app => .ok ⟨app, [⟨"web", none, some "image", some 80, none, [], [], none, []⟩]⟩ }

/-- A Node with a credential, and the App `shop` on it. -/
def shopHost : Host where
  system :=
    { clock := 0
      db := { emptyDb with
        nodes := .insert .empty ⟨"node", some 0, none, none⟩
        nodeCredentials := .insert .empty ⟨0, "credential", none⟩
        apps := .insert .empty
          ⟨"shop", 0, [⟨"web", "image", [], some 80, none, none, none⟩], [], none, 0⟩ } }
  disk := []
  agent := none

def exchanged (now : ℤ) : Exchange := ⟨webEnvironment, now, .answered, true⟩

def atBackend (now : ℤ) (call : Call) : NodeEvent := .backend ⟨now, webEnvironment, .call call⟩

/-- The agent starts under a name, beats and asks for a page. -/
def comesUp (owner : String) (now : ℤ) : List NodeEvent :=
  [.start "credential" owner .done, .act (.heartbeat (exchanged now) ⟨.done, .done⟩ "1" none),
    .act (.poll (exchanged now))]

/-- The agent claims the next command of its page. -/
def claimsNext (now : ℤ) : List NodeEvent :=
  [.act .next, .act (.makeRoom now), .act (.claim (exchanged now))]

/-- The agent gets as far as running the command it has claimed. -/
def acceptsClaimed (now : ℤ) : List NodeEvent :=
  [.act (.fetch (exchanged now)), .act (.accept ⟨.done, .done⟩)]

/-- What the agent does after it has run a command. -/
def endsRun (now : ℤ) : List NodeEvent :=
  [.act (.finish .success), .act (.record ⟨.done, .done⟩), .act (.report (exchanged now)),
    .act (.settle ⟨.done, .done⟩)]

/-- The agent runs the next command of its page. -/
def runsNext (now : ℤ) : List NodeEvent :=
  claimsNext now ++ acceptsClaimed now ++ .act .invoke :: endsRun now

/-- The agent reads the spec file that its next command asks for. -/
def readsSpec (now : ℤ) : List NodeEvent := claimsNext now ++ [.act (.fetch (exchanged now)),
    .act (.read (exchanged now) ⟨.success, some "spec", none, none⟩)]

def createsRun (now : ℤ) : NodeEvent := atBackend now (.createRun
    ⟨"shop", .deploy, .manual, some (.git "repo" "main" none), none, some 0, none, none⟩)

/-- `shop` is removed and deployed again.  The agent crashes with the removal claimed, and the next
process asks for a page while that claim is live.  It claims what the page lists when the claim has
lapsed, the command that reads the spec last, and the deploy is queued. -/
def queuesDeploy : List NodeEvent :=
  atBackend 1000 (.removeApp "shop") :: comesUp "agent" 2000 ++ claimsNext 2000 ++
    .crash webEnvironment 0 :: createsRun 3000 :: atBackend 3000 (.tick 0) :: comesUp "agent-2" 7000 ++
    atBackend 50000 (.tick 0) :: runsNext 62500 ++ readsSpec 62800 ++ [atBackend 63000 (.tick 0)]

/-- The agent runs the removal, and gets as far as running the deploy. -/
def runsBoth : List NodeEvent := runsNext 64000 ++ claimsNext 65000 ++ acceptsClaimed 65000

lemma removes_of_rows {db : Db} {d : DocId CommandRow} {containers : List String} {n : DocId Node}
    {s : String} (hbefore : r < d)
    (hr : (db.nodeCommands.get r).map (fun row => (row.nodeId, row.command))
      = some (n, .operate ⟨"container.remove", [("name", s)]⟩))
    (hd : (db.nodeCommands.get d).map CommandRow.nodeId = some n) (hname : s ∈ containers) :
    Removes db r d containers := by
  rcases map_eq_some_iff.mp hr with ⟨row, hrow, hpair⟩
  rcases map_eq_some_iff.mp hd with ⟨row', hrow', hnode'⟩
  rcases Prod.mk.inj hpair with ⟨hnode, hcommand⟩
  exact ⟨hbefore, row, row', _, hrow, hrow', hnode.trans hnode'.symm, hcommand, rfl, s, hname, by simp⟩

theorem removal_not_after_deploy_of_runsBoth :
    Invokes (run (nodeStep plainCodec "url") shopHost
      (queuesDeploy ++ .act (.poll (exchanged 64000)) :: runsBoth)) (.act .invoke) 3
      (.deploy "shop" [⟨"web", "image", [], 80, "", []⟩]) ∧
    ∀ after e' payload, ¬ Invokes (run (nodeStep plainCodec "url") shopHost
      (queuesDeploy ++ .act (.poll (exchanged 64000)) :: runsBoth ++ .act .invoke :: after)) e' 0
        payload := by
  have hfirst : ComesFirst plainCodec "url" 0 (run (nodeStep plainCodec "url") shopHost queuesDeploy)
      (.act (.poll (exchanged 64000))) runsBoth :=
    .listed (by decide +kernel) (by decide +kernel)
  have hinvokes : Invokes (run (nodeStep plainCodec "url") shopHost
      (queuesDeploy ++ .act (.poll (exchanged 64000)) :: runsBoth)) (.act .invoke) 3
      (.deploy "shop" [⟨"web", "image", [], 80, "", []⟩]) :=
    invokes_of_accepting (by decide +kernel)
  have hremoves : Removes (run (nodeStep plainCodec "url") shopHost
      (queuesDeploy ++ .act (.poll (exchanged 64000)) :: runsBoth)).system.db 0 3
      (containersOf "shop" [⟨"web", "image", [], 80, "", []⟩]) :=
    removes_of_rows (n := 0) (s := "shop-web") (by decide) (by decide +kernel) (by decide +kernel)
      (by decide)
  exact ⟨hinvokes, fun after e' payload => removal_not_after_deploy plainCodec "url" shopHost
    queuesDeploy runsBoth after _ (.act .invoke) e' 3 0 "shop" _ payload hfirst hinvokes hremoves⟩

/-- The process that claims the removal once more crashes too.  The next one asks for a page while that
claim is live, and claims the deploy when it has lapsed. -/
def deploysFirst : List NodeEvent :=
  queuesDeploy ++ .act (.poll (exchanged 64000)) :: claimsNext 64000 ++ .crash webEnvironment 0 ::
    comesUp "agent-3" 65000 ++ atBackend 100000 (.tick 0) :: claimsNext 124500 ++ acceptsClaimed 124600

/-- With the deploy reported, the removal is next. -/
def thenRemoves : List NodeEvent :=
  endsRun 125000 ++ .act (.poll (exchanged 126000)) :: claimsNext 126000 ++ acceptsClaimed 126000

/-- **A removal runs after the deploy it was queued before.** -/
theorem removal_runs_after_deploy :
    Invokes (run (nodeStep plainCodec "url") shopHost deploysFirst) (.act .invoke) 3
        (.deploy "shop" [⟨"web", "image", [], 80, "", []⟩]) ∧
      Removes (run (nodeStep plainCodec "url") shopHost deploysFirst).system.db 0 3
        (containersOf "shop" [⟨"web", "image", [], 80, "", []⟩]) ∧
      Invokes (run (nodeStep plainCodec "url") shopHost (deploysFirst ++ .act .invoke :: thenRemoves))
        (.act .invoke) 0 (.operate ⟨"container.remove", [("name", "shop-web")]⟩) := by
  refine ⟨invokes_of_accepting (by decide +kernel), ?_, invokes_of_accepting (by decide +kernel)⟩
  exact removes_of_rows (n := 0) (s := "shop-web") (by decide) (by decide +kernel) (by decide +kernel)
    (by decide)

end EraInfra.Infra.Agent
