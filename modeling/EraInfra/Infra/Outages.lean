import EraInfra.Infra.System

/-!
# Outages

When a Node's Apps are failed over (`failover.ts`).  A check suspects a Node that has been silent,
and a later check fails it over.  The suspicion is a time stored on the Node's row; a heartbeat does
not clear it, only a check that finds the Node live does.

Histories are of heartbeats and checks, with Nodes being enrolled in between and with anything
happening to the other tables: nothing else writes the rows of Nodes.
-/

namespace EraInfra.Infra

open DocStore List Option Table Bool Function
open Prod (fst mk)

variable {db db' : Db} {env : Environment} {now : ℤ}

/-! ## What a check makes of a Node -/

/-- Whether a check fails a Node over, from its row. -/
def failsOver (now : ℤ) (node : Node) : Bool :=
  isNodeSilent node.lastSeenAt now && node.failoverHandledSeenAt ≠ node.lastSeenAt &&
    node.failoverSuspectAt.any fun suspectAt => failoverGraceMs ≤ now - suspectAt

/-- The row of a Node after a check. -/
def checkedNode (now : ℤ) (node : Node) : Node :=
  if isNodeSilent node.lastSeenAt now = false then { node with failoverSuspectAt := none }
  else if node.failoverHandledSeenAt = node.lastSeenAt then node
  else if node.failoverSuspectAt = none then { node with failoverSuspectAt := some now }
  else if failsOver now node then
    { node with failoverSuspectAt := none, failoverHandledSeenAt := node.lastSeenAt }
  else node

@[simp] lemma lastSeenAt_checkedNode (node : Node) :
    (checkedNode now node).lastSeenAt = node.lastSeenAt := by
  simp only [checkedNode]
  split_ifs <;> rfl

variable {node : Node} {id : DocId Node} {s start : System}

lemma checkedNode_of_failsOver (h : failsOver now node = true) : checkedNode now node
      = { node with failoverSuspectAt := none, failoverHandledSeenAt := node.lastSeenAt } := by
  have hparts := h
  simp only [failsOver, and_eq_true, decide_eq_true_eq] at hparts
  rcases hparts with ⟨⟨hsilent, hfresh⟩, hgrace⟩
  have hsuspect : node.failoverSuspectAt ≠ none := by
    intro hnone
    simp [hnone] at hgrace
  simp [checkedNode, hsilent, hfresh, hsuspect, h]

/-- A suspicion after a check is the one there was, of a Node that is silent, or is made now. -/
lemma suspectAt_checkedNode {since : ℤ} (h : (checkedNode now node).failoverSuspectAt = some since) :
    isNodeSilent node.lastSeenAt now = true ∧ (since = now ∨ node.failoverSuspectAt = some since) := by
  cases hsilent : isNodeSilent node.lastSeenAt now with
  | false => simp [checkedNode, hsilent] at h
  | true =>
    refine ⟨rfl, ?_⟩
    simp only [checkedNode] at h
    split_ifs at h
    · exact .inr h
    · exact .inl (some.inj h).symm
    · exact .inr h

/-! ## The loop of a check -/

lemma createRun_nodes {input : RunInput} {id : DocId AppDeployment}
    (h : createRun now input db = .ok (id, db')) :
    db'.nodes = db.nodes ∧ ∀ run row, db'.appDeployments.get run = some row →
      db.appDeployments.get run = some row ∨ row.failover = input.failover := by
  rcases refuseIf_bind_ok.mp h with ⟨-, h⟩
  rw [refuseIf_bind_ok, pure_ok] at h
  rw [← (mk.inj h.2).2]
  have hinsert : ∀ run row, (db.appDeployments.insert (queuedRun now input)).get run = some row →
      db.appDeployments.get run = some row ∨ row.failover = input.failover := by
    intro run row hrow
    rcases get_insert_eq_some.mp hrow with ⟨-, rfl⟩ | hold
    · exact .inr rfl
    · exact .inl hold
  simp only [createDeployment]
  split_ifs
  · refine ⟨rfl, fun run row hrow => hinsert run row ?_⟩
    -- what is left of the history was in it
    exact foldlRecOn (motive := fun t => t.get run = some row →
      (db.appDeployments.insert (queuedRun now input)).get run = some row) _ delete (fun h => h)
      (fun t hleft first _ h => hleft (get_delete_eq_some.mp h).2) hrow
  · exact ⟨rfl, hinsert⟩

variable {started : List (DocId AppDeployment)} {survivors : List (DocId Node)}
  {calls events : List WatchEvent} {seen : Option ℤ}

lemma failOver_nodes {lost : DocId Node} (h : failOver now lost survivors db = .ok (started, db')) :
    db'.nodes = db.nodes ∧ ∀ run row, db'.appDeployments.get run = some row →
      db.appDeployments.get run = some row ∨ ∃ target, row.failover = some ⟨lost, target⟩ := by
  refine foldlM_keeps (P := fun state => state.2.nodes = db.nodes ∧
    ∀ run row, state.2.appDeployments.get run = some row →
      db.appDeployments.get run = some row ∨ ∃ target, row.failover = some ⟨lost, target⟩)
    ?_ ⟨rfl, fun run row hrow => .inl hrow⟩ h
  rintro ⟨i, app⟩ - ⟨runs, db₁⟩ ⟨runs', db₂⟩ ⟨hnodes, hruns⟩ hone
  rcases bind_ok.mp hone with ⟨⟨created, db₃⟩, hcreate, hone⟩
  cases hone
  rcases createRun_nodes hcreate with ⟨hnodes', hruns'⟩
  refine ⟨hnodes'.trans hnodes, fun run row hrow => ?_⟩
  rcases hruns' run row hrow with hold | hnew
  · exact hruns run row hold
  · exact .inr ⟨_, hnew⟩

/-- What a check does about one Node: its row, and runs for it if it is failed over. -/
lemma checkNode_ok {state state' : List (DocId AppDeployment) × Db}
    {entry : DocId Node × Node} (hstored : state.2.nodes.get entry.1 = some entry.2)
    (h : checkNode now survivors state entry = .ok state') :
    state'.2.nodes.get = update state.2.nodes.get entry.1 (some (checkedNode now entry.2)) ∧
      state'.2.nodes.rows.map fst = state.2.nodes.rows.map fst ∧
      ∀ run row, state'.2.appDeployments.get run = some row →
        state.2.appDeployments.get run = some row ∨
          failsOver now entry.2 = true ∧ ∃ target, row.failover = some ⟨entry.1, target⟩ := by
  rcases state with ⟨started, db⟩
  rcases entry with ⟨id, node⟩
  have hkeep : ∀ f : Node → Node, f node = checkedNode now node → (db.patchNode id f).nodes.get
          = update db.nodes.get id (some (checkedNode now node)) ∧
        (db.patchNode id f).nodes.rows.map fst = db.nodes.rows.map fst := by
    intro f hf
    refine ⟨?_, by simp [Db.patchNode, patch]⟩
    funext j
    by_cases hj : j = id
    · subst hj
      have hrow : db.nodes.get j = some node := hstored
      simp [Db.patchNode, hrow, hf]
    · simp [Db.patchNode, get_patch_ne hj, update_of_ne hj]
  have hsame : node = checkedNode now node →
      db.nodes.get = update db.nodes.get id (some (checkedNode now node)) := by
    intro hnode
    rw [← hnode]
    have hrow : db.nodes.get id = some node := hstored
    rw [← hrow, update_eq_self]
  simp only [checkNode] at h
  split_ifs at h with hlive hsuspect hhandled
  · cases h
    rcases hkeep (fun node => { node with failoverSuspectAt := none })
      (by simp [checkedNode, hlive]) with ⟨hget, hids⟩
    exact ⟨hget, hids, fun run row hrow => .inl hrow⟩
  · cases h
    cases node
    simp_all [checkedNode]
  · cases h
    exact ⟨hsame (by simp [checkedNode, hlive, hhandled]), rfl, fun run row hrow => .inl hrow⟩
  · cases hsince : node.failoverSuspectAt with
    | none =>
      simp only [hsince] at h
      cases h
      rcases hkeep (fun node => { node with failoverSuspectAt := some now })
        (by simp [checkedNode, hlive, hhandled, hsince]) with ⟨hget, hids⟩
      exact ⟨hget, hids, fun run row hrow => .inl hrow⟩
    | some since =>
      simp only [hsince] at h
      split_ifs at h with hgrace
      · cases h
        refine ⟨hsame ?_, rfl, fun run row hrow => .inl hrow⟩
        have hnot : failsOver now node = false := by
          simp [failsOver, hsince, hgrace]
        simp [checkedNode, hlive, hsince, hnot]
      · have hdecided : failsOver now node = true := by
          simp [failsOver, hlive, hhandled, hsince, not_lt.mp hgrace]
        rcases bind_ok.mp h with ⟨⟨runs, failed⟩, hfail, h⟩
        cases h
        rcases failOver_nodes hfail with ⟨hnodes, hruns⟩
        rcases hkeep (fun node => { node with
            failoverSuspectAt := none, failoverHandledSeenAt := node.lastSeenAt })
          (checkedNode_of_failsOver hdecided).symm with ⟨hget, hids⟩
        refine ⟨by rw [hnodes]; exact hget, by rw [hnodes]; exact hids, fun run row hrow => ?_⟩
        exact (hruns run row hrow).imp_right fun hlost => ⟨hdecided, hlost⟩

/-- The Nodes a check looks at. -/
def listed (db : Db) : List (DocId Node) := (db.nodes.rows.take 500).map Prod.fst

lemma collect_all {α : Type} {t : Table α} : t.collect (fun _ => true) = t.rows := by
  simp [collect]

lemma mem_checkedNodes :
    (id, node) ∈ checkedNodes db ↔ id ∈ listed db ∧ db.nodes.get id = some node := by
  simp only [checkedNodes, collect_all, listed, List.mem_map]
  constructor
  · intro hmem
    exact ⟨⟨_, hmem, rfl⟩, get_eq_some_iff.mpr (mem_of_mem_take hmem)⟩
  · rintro ⟨⟨⟨id', node'⟩, hmem, rfl⟩, hget⟩
    have hget' := get_eq_some_iff.mpr (mem_of_mem_take hmem)
    rwa [Option.some.inj (hget.symm.trans hget')]

/-- What a check that is enabled does to the rows of Nodes, and which runs it creates. -/
lemma check_ok (henabled : env.failoverEnabled = true) (h : check env now db = .ok (started, db')) :
    (∀ id, db'.nodes.get id
      = if id ∈ listed db then (db.nodes.get id).map (checkedNode now) else db.nodes.get id) ∧
    db'.nodes.rows.map fst = db.nodes.rows.map fst ∧
    ∀ run row, db'.appDeployments.get run = some row → db.appDeployments.get run = some row ∨
      ∃ id node, (id, node) ∈ checkedNodes db ∧ failsOver now node = true ∧
        ∃ target, row.failover = some ⟨id, target⟩ := by
  simp only [check, henabled] at h
  have hloop := foldlM_owned (fun id state => state.2.nodes.get id) (fun entry id => entry.1 = id)
    (fun state => state.2.nodes.rows.map fst = db.nodes.rows.map fst ∧
      ∀ run row, state.2.appDeployments.get run = some row → db.appDeployments.get run = some row ∨
        ∃ id node, (id, node) ∈ checkedNodes db ∧ failsOver now node = true ∧
          ∃ target, row.failover = some ⟨id, target⟩)
    (fun entry _ _ node' => node' = some (checkedNode now entry.2))
    ((collect_nodup.sublist (take_sublist _ _)).imp fun hne k hk hk' => hne (hk.trans hk'.symm)) ?_
    ⟨rfl, fun run row hrow => .inl hrow⟩ h
  · rcases hloop with ⟨⟨hids, hruns⟩, hin, hout⟩
    refine ⟨fun id => ?_, hids, hruns⟩
    split_ifs with hlisted
    · rcases List.mem_map.mp hlisted with ⟨entry, hentry, rfl⟩
      rw [← collect_all] at hentry
      rw [hin entry hentry entry.1 rfl, (mem_checkedNodes.mp hentry).2]
      rfl
    · exact hout id fun entry hentry hid => hlisted (hid ▸ (mem_checkedNodes.mp hentry).1)
  · rintro entry hmem state state' ⟨hids, hruns⟩ hown hone
    have hstored := (hown entry.1 rfl).trans (mem_checkedNodes.mp hmem).2
    rcases checkNode_ok hstored hone with ⟨hget', hids', hruns'⟩
    refine ⟨⟨hids'.trans hids, fun run row hrow => ?_⟩, fun id hid => ?_, fun id hid => ?_⟩
    · rcases hruns' run row hrow with hold | ⟨hdecided, hlost⟩
      · exact hruns run row hold
      · exact .inr ⟨entry.1, entry.2, hmem, hdecided, hlost⟩
    · rw [hget', ← hid, update_self]
    · rw [hget', update_of_ne (Ne.symm hid)]

/-! ## Histories -/

inductive WatchCall
  | heartbeat (args : HeartbeatArgs)
  | check
  /-- A Node is enrolled. -/
  | enroll (name : String)
  /-- The other tables change, in any way. -/
  | elsewhere (other : Db)

structure WatchEvent where
  now : ℤ
  env : Environment
  call : WatchCall

def performWatch (env : Environment) (now : ℤ) (call : WatchCall) (db : Db) : Result Db :=
  match call with
  | .heartbeat args => heartbeat env now args db
  | .check => (check env now db).map Prod.snd
  | .enroll name => ensureNode name db
  | .elsewhere other => pure { other with nodes := db.nodes }

def watchStep (s : System) (e : WatchEvent) : System :=
  ⟨DocStore.commit s.db (performWatch e.env e.now e.call s.db), e.now⟩

/-- The clock does not go back. -/
def WatchForward (s : System) (e : WatchEvent) : Prop := s.clock ≤ e.now

instance (s : System) (e : WatchEvent) : Decidable (WatchForward s e) := by
  unfold WatchForward
  infer_instance

section

variable (s : System) (e : WatchEvent) (id : DocId Node)

/-- A heartbeat of a Node arrives. -/
def beats : Bool :=
  match e.call with
  | .heartbeat args =>
    (requireNode e.env args.credential s.db).toOption = some id &&
      (heartbeat e.env e.now args s.db).isOk
  | _ => false

/-- A check runs: it is switched on, and it does not fail. -/
def checks : Bool :=
  match e.call with
  | .check => e.env.failoverEnabled && (check e.env e.now s.db).isOk
  | _ => false

/-- A check finds a Node silent. -/
def findsSilent : Bool := checks s e && (checkedNodes s.db).any fun entry =>
    entry.1 = id && isNodeSilent entry.2.lastSeenAt e.now

/-- A check fails a Node over. -/
structure FailsOver (node : Node) : Prop where
  checks : checks s e = true
  listed : (id, node) ∈ checkedNodes s.db
  decided : failsOver e.now node = true

end

variable {e : WatchEvent}

/-- A check that runs. -/
lemma watchStep_of_checks (h : checks s e = true) : e.env.failoverEnabled = true ∧
      ∃ started db', check e.env e.now s.db = .ok (started, db') ∧ (watchStep s e).db = db' := by
  cases hcall : e.call with
  | check =>
    simp only [checks, hcall, and_eq_true] at h
    cases hcheck : check e.env e.now s.db with
    | error error => simp [hcheck, Except.toBool] at h
    | ok answer =>
      refine ⟨h.1, answer.1, answer.2, rfl, ?_⟩
      simp [watchStep, hcall, performWatch, hcheck, Except.map, DocStore.commit]
  | heartbeat args | enroll name | elsewhere other => simp [checks, hcall] at h

/-- A check that is switched off or fails changes nothing. -/
lemma watchStep_of_not_checks (hcall : e.call = .check) (h : checks s e = false) :
    (watchStep s e).db = s.db := by
  simp only [watchStep, hcall, performWatch]
  cases hcheck : check e.env e.now s.db with
  | error message => rfl
  | ok answer =>
    simp only [checks, hcall, hcheck, Except.toBool, Bool.and_true] at h
    simp only [check, h] at hcheck
    cases hcheck
    rfl

lemma heartbeat_ok {args : HeartbeatArgs} (h : heartbeat env now args db = .ok db') :
    ∃ nodeId, requireNode env args.credential db = .ok nodeId ∧
      db' = db.patchNode nodeId fun node => { node with lastSeenAt := some now } := by
  rcases bind_ok.mp h with ⟨nodeId, hnode, h⟩
  rw [refuseIf_bind_ok, refuseIf_bind_ok, refuseIf_bind_ok, pure_ok] at h
  exact ⟨nodeId, hnode, h.2.2.2.symm⟩

section

variable (s : System) (e : WatchEvent)

/-- What one event does to the row of a Node: it is a heartbeat of the Node, a check of it, or neither;
or the Node is new. -/
lemma watchStep_node {node' : Node} (h : (watchStep s e).db.nodes.get id = some node') :
    (∃ node, s.db.nodes.get id = some node ∧ beats s e id = true ∧
      node' = { node with lastSeenAt := some e.now }) ∨
    (∃ node, s.db.nodes.get id = some node ∧ beats s e id = false ∧ checks s e = true ∧
      id ∈ listed s.db ∧ node' = checkedNode e.now node) ∨
    (s.db.nodes.get id = some node' ∧ beats s e id = false ∧ (checks s e = true → id ∉ listed s.db)) ∨
    s.db.nodes.get id = none ∧ node'.failoverSuspectAt = none := by
  cases hcall : e.call with
  | heartbeat args =>
    have hnot : checks s e = false := by simp [checks, hcall]
    rcases hbeat : heartbeat e.env e.now args s.db with message | db'
    · simp only [watchStep, hcall, performWatch, hbeat] at h
      refine .inr (.inr (.inl ⟨h, ?_, by simp [hnot]⟩))
      simp [beats, hcall, hbeat, Except.toBool]
    simp only [watchStep, hcall, performWatch, hbeat] at h
    rcases heartbeat_ok hbeat with ⟨nodeId, hrequire, rfl⟩
    rcases get_patch_eq_some.mp h with ⟨node, rfl, hnode, rfl⟩ | ⟨hne, hnode⟩
    · refine .inl ⟨node, hnode, ?_, rfl⟩
      simp [beats, hcall, hbeat, hrequire, Except.toBool, Except.toOption]
    · refine .inr (.inr (.inl ⟨hnode, ?_, by simp [hnot]⟩))
      simp [beats, hcall, hrequire, Except.toOption, Ne.symm hne]
  | check =>
    have hnot : beats s e id = false := by simp [beats, hcall]
    cases hchecks : checks s e with
    | true =>
      rcases watchStep_of_checks hchecks with ⟨henabled, started, db', hcheck, hdb'⟩
      rw [hdb', (check_ok henabled hcheck).1 id] at h
      split_ifs at h with hlisted
      · rcases map_eq_some_iff.mp h with ⟨node, hnode, rfl⟩
        exact .inr (.inl ⟨node, hnode, hnot, rfl, hlisted, rfl⟩)
      · exact .inr (.inr (.inl ⟨h, hnot, fun _ => hlisted⟩))
    | false =>
      rw [watchStep_of_not_checks hcall hchecks] at h
      exact .inr (.inr (.inl ⟨h, hnot, by simp⟩))
  | enroll name =>
    have hnot : beats s e id = false := by simp [beats, hcall]
    have hchecks : checks s e = false := by simp [checks, hcall]
    simp only [watchStep, hcall, performWatch, ensureNode] at h
    rcases hfound : nodeByName s.db name with message | found
    · simp only [hfound] at h
      exact .inr (.inr (.inl ⟨h, hnot, by simp [hchecks]⟩))
    simp only [hfound] at h
    cases found with
    | some entry => exact .inr (.inr (.inl ⟨h, hnot, by simp [hchecks]⟩))
    | none =>
      rcases get_insert_eq_some.mp h with ⟨rfl, rfl⟩ | hold
      · exact .inr (.inr (.inr ⟨get_next, rfl⟩))
      · exact .inr (.inr (.inl ⟨hold, hnot, by simp [hchecks]⟩))
  | elsewhere other =>
    simp only [watchStep, hcall] at h
    exact .inr (.inr (.inl ⟨h, by simp [beats, hcall], by simp [checks, hcall]⟩))

/-- Nodes are only ever added, after those there are. -/
lemma watchStep_ids :
    ∃ added, (watchStep s e).db.nodes.rows.map fst = s.db.nodes.rows.map fst ++ added := by
  refine commit_rule (P := fun db : Db => ∃ added,
    db.nodes.rows.map fst = s.db.nodes.rows.map fst ++ added) ⟨[], by simp⟩ fun db' h => ?_
  cases hcall : e.call with
  | heartbeat args =>
    simp only [hcall] at h
    rcases heartbeat_ok h with ⟨nodeId, -, rfl⟩
    exact ⟨[], by simp [Db.patchNode, patch]⟩
  | check =>
    simp only [hcall] at h
    rcases map_snd_ok.mp h with ⟨started, hcheck⟩
    cases henabled : e.env.failoverEnabled with
    | false =>
      simp only [check, henabled, if_true, pure_ok] at hcheck
      exact ⟨[], by simp [← (mk.inj hcheck).2]⟩
    | true => exact ⟨[], by simp [(check_ok henabled hcheck).2.1]⟩
  | enroll name =>
    simp only [hcall] at h
    rcases bind_ok.mp h with ⟨found, -, h⟩
    cases found with
    | some entry =>
      simp only [pure_ok] at h
      exact ⟨[], by simp [h]⟩
    | none =>
      simp only [pure_ok] at h
      exact ⟨[s.db.nodes.next], by simp [← h, Table.insert]⟩
  | elsewhere other =>
    simp only [hcall, performWatch, pure_ok] at h
    exact ⟨[], by simp [← h]⟩

lemma listed_watchStep (h : id ∈ listed s.db) : id ∈ listed (watchStep s e).db := by
  rcases watchStep_ids s e with ⟨added, hadded⟩
  simp only [listed, map_take] at h ⊢
  rw [hadded, take_append]
  exact mem_append_left _ h

end

/-! ## Suspicions -/

/-- Since some check found a Node silent, at a time, it has sent no heartbeat. -/
def SilentSince (start : System) (id : DocId Node) (time : ℤ → Prop) (calls : List WatchEvent) : Prop :=
  Since watchStep start (fun s c => findsSilent s c id = true ∧ time c.now)
    (fun s c => beats s c id = false) calls

/-- The check at `now` is the first one since a heartbeat that is too old for it. -/
def SeenLate (start : System) (id : DocId Node) (now : ℤ) (calls : List WatchEvent) : Prop :=
  Since watchStep start (fun s c => beats s c id = true ∧ nodeSilenceMs < now - c.now)
    (fun s c => checks s c = false) calls

/-- Whenever a Node has sent a heartbeat, the next check that runs comes in time to see it. -/
def Watched (start : System) (id : DocId Node) (events : List WatchEvent) : Prop :=
  ∀ before e after, events = before ++ e :: after →
    checks (run watchStep start before) e = true → ¬ SeenLate start id e.now before

instance (start : System) (id : DocId Node) (now : ℤ) (calls : List WatchEvent) :
    Decidable (SeenLate start id now calls) := by
  unfold SeenLate
  infer_instance

instance (start : System) (id : DocId Node) (events : List WatchEvent) :
    Decidable (Watched start id events) := by
  unfold Watched
  infer_instance

/-- A suspicion is of the outage that a check has found, or the Node has been seen since and no check
has run yet. -/
def Suspicion (start : System) (id : DocId Node) (calls : List WatchEvent) (s : System) : Prop :=
  ∀ node since, s.db.nodes.get id = some node → node.failoverSuspectAt = some since →
    id ∈ listed s.db ∧ (SilentSince start id (· = since) calls ∨
      Since watchStep start (fun s c => beats s c id = true ∧ node.lastSeenAt = some c.now)
        (fun s c => checks s c = false) calls)

/-- A Node that a check finds silent has not been seen since the last check, when it is watched. -/
lemma not_seen_of_silent
    (hwatched : ¬ SeenLate start id now calls) (hsilent : isNodeSilent node.lastSeenAt now = true) :
    ¬ Since watchStep start (fun s c => beats s c id = true ∧ node.lastSeenAt = some c.now)
      (fun s c => checks s c = false) calls := by
  intro hseen
  refine hwatched (hseen.imp (fun s c hc => ⟨hc.1, ?_⟩) fun _ _ h => h)
  rw [hc.2] at hsilent
  simpa [isNodeSilent] using hsilent

lemma suspicion_step (h : Suspicion start id calls (run watchStep start calls))
    (hwatched : checks (run watchStep start calls) e = true → ¬ SeenLate start id e.now calls) :
    Suspicion start id (calls ++ [e]) (watchStep (run watchStep start calls) e) := by
  intro node' since hnode' hsince
  rcases watchStep_node _ e hnode' with ⟨node, hnode, hbeats, rfl⟩ |
    ⟨node, hnode, hquiet, hchecks, hlisted, rfl⟩ | ⟨hnode, hquiet, hother⟩ | ⟨-, hnone⟩
  · exact ⟨listed_watchStep _ e (h node since hnode hsince).1,
      Or.inr (since_snoc.mpr (Or.inl ⟨hbeats, rfl⟩))⟩
  · rcases suspectAt_checkedNode hsince with ⟨hsilent, rfl | hold⟩
    · refine ⟨listed_watchStep _ e hlisted, Or.inl (since_snoc.mpr (Or.inl ⟨?_, rfl⟩))⟩
      simp only [findsSilent, hchecks, Bool.true_and, List.any_eq_true]
      exact ⟨(id, node), mem_checkedNodes.mpr ⟨hlisted, hnode⟩, by simp [hsilent]⟩
    · rcases h node since hnode hold with ⟨-, hsince | hseen⟩
      · exact ⟨listed_watchStep _ e hlisted, Or.inl (since_snoc.mpr (Or.inr ⟨hsince, hquiet⟩))⟩
      · exact absurd hseen (not_seen_of_silent (hwatched hchecks) hsilent)
  · rcases h node' since hnode hsince with ⟨hlisted, hcases⟩
    have hchecks : checks (run watchStep start calls) e = false := by
      by_contra htrue
      exact hother (by simpa using htrue) hlisted
    exact ⟨listed_watchStep _ e hlisted, hcases.imp
      (fun hsince => since_snoc.mpr (Or.inr ⟨hsince, hquiet⟩))
      fun hseen => since_snoc.mpr (Or.inr ⟨hseen, hchecks⟩)⟩
  · rw [hnone] at hsince
    simp at hsince

lemma suspicion_run (hstart : ∀ node, start.db.nodes.get id = some node → node.failoverSuspectAt = none)
    (hwatched : Watched start id events) : Suspicion start id events (run watchStep start events) := by
  induction events using reverseRecOn with
  | nil =>
    intro node since hnode hsince
    rw [hstart node hnode] at hsince
    simp at hsince
  | append_singleton calls e ih =>
    rw [run_snoc]
    exact suspicion_step
      (ih fun before c after hsplit => hwatched before c (after ++ [e]) (by simp [hsplit]))
      (hwatched calls e [] rfl)

/-! ## Outages that are handled -/

/-- A Node that was failed over in an outage is marked with it, or has been seen since. -/
def Handled (id : DocId Node) (seen : Option ℤ) (t : ℤ) (s : System) : Prop :=
  t ≤ s.clock ∧ id ∈ s.db.nodes.rows.map Prod.fst ∧ ∀ node, s.db.nodes.get id = some node →
    node.lastSeenAt = seen ∧ node.failoverHandledSeenAt = seen ∨
      ∃ seenAt, node.lastSeenAt = some seenAt ∧ t ≤ seenAt

lemma mem_ids_iff : id ∈ db.nodes.rows.map fst ↔ ∃ node, db.nodes.get id = some node := by
  simp [get_eq_some_iff]

lemma Handled.step {t : ℤ}
    (h : Handled id seen t s) (hnow : s.clock ≤ e.now) : Handled id seen t (watchStep s e) := by
  rcases h with ⟨hclock, hid, hnode⟩
  rcases watchStep_ids s e with ⟨added, hadded⟩
  refine ⟨hclock.trans hnow, by rw [hadded]; exact mem_append_left _ hid, fun node' hnode' => ?_⟩
  rcases watchStep_node s e hnode' with ⟨node, hget, -, rfl⟩ | ⟨node, hget, -, -, -, rfl⟩ |
    ⟨hget, -, -⟩ | ⟨hget, -⟩
  · exact .inr ⟨e.now, rfl, hclock.trans hnow⟩
  · rcases hnode node hget with ⟨hseen, hhandled⟩ | ⟨seenAt, hat, hle⟩
    · refine .inl ⟨by rw [lastSeenAt_checkedNode, hseen], ?_⟩
      simp only [checkedNode]
      split_ifs
      all_goals first
        | exact hhandled
        | exact hseen
    · exact .inr ⟨seenAt, by rw [lastSeenAt_checkedNode, hat], hle⟩
  · exact hnode node' hget
  · rcases mem_ids_iff.mp hid with ⟨node, hsome⟩
    rw [hget] at hsome
    simp at hsome

lemma Handled.run {t : ℤ} (h : Handled id seen t s) (hforward : Meets watchStep s WatchForward events) :
    Handled id seen t (run watchStep s events) :=
  run_invariant_of_meets (fun _ s => Handled id seen t s) h (fun _ _ hs hnow => hs.step hnow) events
    hforward

lemma FailsOver.handled
    (h : FailsOver s e id node) : Handled id node.lastSeenAt e.now (watchStep s e) := by
  rcases watchStep_of_checks h.checks with ⟨henabled, started, db', hcheck, hdb'⟩
  rcases mem_checkedNodes.mp h.listed with ⟨hlisted, hnode⟩
  have hget : (watchStep s e).db.nodes.get id = some (checkedNode e.now node) := by
    rw [hdb', (check_ok henabled hcheck).1 id, if_pos hlisted, hnode]
    rfl
  refine ⟨le_rfl, mem_ids_iff.mpr ⟨_, hget⟩, fun node' hnode' => .inl ?_⟩
  rw [hget, some.injEq] at hnode'
  rw [← hnode', checkedNode_of_failsOver h.decided]
  exact ⟨rfl, rfl⟩

/-! ## Two observations -/

/-- **A Node is failed over once in an outage, and only after two observations of it.**  In every
history from Nodes that are not suspect:

* a failover run that a check creates is for a Node that the check fails over;
* if a Node is watched, a check that fails it over comes at least the grace after a check that
      found it silent, and the Node has sent no heartbeat since that one;
* no two checks fail a Node over for the same `lastSeenAt`. -/
theorem failover_after_two_observations (start : System) (events : List WatchEvent)
    (hstart : ∀ id node, start.db.nodes.get id = some node → node.failoverSuspectAt = none)
    (hforward : Meets watchStep start WatchForward events) :
    (∀ before e after r row lost target, events = before ++ e :: after → e.call = .check →
      (run watchStep start before).db.appDeployments.get r = none →
      (run watchStep start (before ++ [e])).db.appDeployments.get r = some row →
      row.failover = some ⟨lost, target⟩ → ∃ node, FailsOver (run watchStep start before) e lost node) ∧
    (∀ id, Watched start id events → ∀ before e after node, events = before ++ e :: after →
      FailsOver (run watchStep start before) e id node →
      Since watchStep start
        (fun s c => findsSilent s c id = true ∧ c.now ≤ e.now - failoverGraceMs)
        (fun s c => beats s c id = false) before) ∧
    ∀ before e between e' after id node node',
      events = before ++ e :: (between ++ e' :: after) →
      FailsOver (run watchStep start before) e id node →
      FailsOver (run watchStep start (before ++ e :: between)) e' id node' →
      node'.lastSeenAt ≠ node.lastSeenAt := by
  refine ⟨?_, ?_, ?_⟩
  · rintro before e after r row lost target - hcall hnone hrow hlost
    rw [run_snoc] at hrow
    cases hchecks : checks (run watchStep start before) e with
    | true =>
      rcases watchStep_of_checks hchecks with ⟨henabled, started, db', hcheck, hdb'⟩
      rw [hdb'] at hrow
      rcases (check_ok henabled hcheck).2.2 r row hrow with
        hold | ⟨id, node, hlisted, hdecided, target', hfailover⟩
      · rw [hnone] at hold
        simp at hold
      · rw [hlost, some.injEq, FailoverMove.mk.injEq] at hfailover
        exact ⟨node, hchecks, hfailover.1 ▸ hlisted, hdecided⟩
    | false =>
      rw [watchStep_of_not_checks hcall hchecks, hnone] at hrow
      simp at hrow
  · rintro id hwatched before e after node rfl hfails
    rcases mem_checkedNodes.mp hfails.listed with ⟨-, hnode⟩
    have hdecided := hfails.decided
    simp only [failsOver, and_eq_true] at hdecided
    rcases hdecided with ⟨⟨hsilent, -⟩, hgrace⟩
    have hsuspect : node.failoverSuspectAt ≠ none := by
      intro hnone
      simp [hnone] at hgrace
    rcases ne_none_iff_exists'.mp hsuspect with ⟨since, hsince⟩
    simp only [hsince, any_some, decide_eq_true_eq] at hgrace
    have hsuspicion : Suspicion start id before (run watchStep start before) :=
      suspicion_run (hstart id) fun l c l' hsplit =>
        hwatched l c (l' ++ e :: after) (by simp [hsplit])
    rcases hsuspicion node since hnode hsince with ⟨-, hfound | hseen⟩
    · refine hfound.imp (fun s c hc => ⟨hc.1, ?_⟩) fun _ _ h => h
      omega
    · exact absurd hseen (not_seen_of_silent (hwatched before e after rfl hfails.checks) hsilent)
  · rintro before e between e' after id node node' rfl hfirst hsecond hsame
    have hbetween : Meets watchStep (run watchStep start (before ++ [e])) WatchForward between := by
      refine (Meets.right ?_).left (r := e' :: after)
      simpa using hforward
    have hhandled : Handled id node.lastSeenAt e.now (run watchStep start (before ++ [e])) := by
      rw [run_snoc]
      exact hfirst.handled
    have hlater := hhandled.run hbetween
    rw [← run_append] at hlater
    have hlist : before ++ [e] ++ between = before ++ e :: between := by simp
    rw [hlist] at hlater
    rcases hlater.2.2 node' (mem_checkedNodes.mp hsecond.listed).2 with
      ⟨hseen, hmarked⟩ | ⟨seenAt, hat, hle⟩
    · have hdecided := hsecond.decided
      simp [failsOver, hseen, hmarked] at hdecided
    have hdecided := hfirst.decided
    rw [hsame] at hat
    simp only [failsOver, hat, isNodeSilent, and_eq_true, decide_eq_true_eq] at hdecided
    have hsilence : (0 : ℤ) < nodeSilenceMs := by decide
    omega

/-! ## Two installations -/

/-- One Node, last seen at time zero, with one App. -/
def oneNode : System where
  clock := 0
  db := { emptyDb with
    nodes := .insert .empty ⟨"node", some 0, none, none⟩
    nodeCredentials := .insert .empty ⟨0, "credential", none⟩
    apps := .insert .empty ⟨"web", 0, [⟨"site", "image", [], none, none, none, none⟩], [], none, 0⟩ }

def checkAt (now : ℤ) : WatchEvent := ⟨now, plainEnvironment, .check⟩

def beatAt (now : ℤ) : WatchEvent :=
  ⟨now, plainEnvironment, .heartbeat ⟨"credential", "1.0", none, none, none⟩⟩

/-- Two checks of one outage. -/
theorem failover_after_two_observations_of_outage :
    Since watchStep oneNode
      (fun s c => findsSilent s c 0 = true ∧ c.now ≤ 151000 - failoverGraceMs)
      (fun s c => beats s c 0 = false) [beatAt 1000, checkAt 100000, checkAt 130000] := by
  have htwo := failover_after_two_observations oneNode
    [beatAt 1000, checkAt 100000, checkAt 130000, checkAt 151000]
    (fun id node h => by
      rcases get_eq_some_iff.mp h with h | h
      · rfl
      · contradiction)
    (by decide)
  exact htwo.2.1 0 (by decide) [beatAt 1000, checkAt 100000, checkAt 130000] (checkAt 151000) []
    ⟨"node", some 1000, some 130000, none⟩ rfl
    ⟨by decide, by decide, by decide⟩

/-- A check suspects the Node at 130 s, its heartbeat comes at 131 s, and no check runs until 300 s.
That check is the first to find the second outage, and fails the Node over. -/
theorem stale_suspicion_fails_over :
    Meets watchStep oneNode WatchForward [checkAt 130000, beatAt 131000, checkAt 300000] ∧
      FailsOver (run watchStep oneNode [checkAt 130000, beatAt 131000]) (checkAt 300000) 0
        ⟨"node", some 131000, some 130000, none⟩ ∧
      (run watchStep oneNode [checkAt 130000, beatAt 131000, checkAt 300000]).db.appDeployments.rows.map
        (fun row => (row.2.app, row.2.failover)) = [("web", some ⟨0, 0⟩)] ∧
      ¬ Since watchStep oneNode
        (fun s c => findsSilent s c 0 = true ∧ c.now ≤ 300000 - failoverGraceMs)
        (fun s c => beats s c 0 = false) [checkAt 130000, beatAt 131000] :=
  ⟨by decide +kernel, ⟨by decide +kernel, by decide +kernel, by decide +kernel⟩, by decide +kernel,
    by decide⟩

end EraInfra.Infra
