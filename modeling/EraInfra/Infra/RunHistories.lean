import EraInfra.Infra.DeployRuns

/-!
# Histories of deploy runs

What the fence of `Infra/DeployRuns.lean` gives over a whole history of calls: runs of one App are
serialized, only a run that has never lost its lease writes its App, a run that has ended stays
ended and its steps stay shut, and runs of an App begin in the order they were created.
-/

namespace EraInfra.Infra

open DocStore List Option

variable {now : ℤ} {p p' : Plane} {id : DocId AppDeployment}

/-! ## Keeping along a history -/

lemma step_moves (s : System) (e : Event) : Moves e.now s.db.plane (step s e).db.plane := by
  refine commit_rule (P := fun db => Moves e.now s.db.plane db.plane) ?_ fun _ h => perform_moves h
  exact Relation.ReflTransGen.refl

section Keep

variable {K : ℤ → Plane → Prop}

/-- What every move keeps, together with the fence, moves keep. -/
lemma keep_moves (hmove : ∀ now p p', Fenced now p → K now p → Move now p p' → K now p')
    (hp : Fenced now p) (hK : K now p) (hmoves : Moves now p p') : Fenced now p' ∧ K now p' := by
  induction hmoves with
  | refl => exact ⟨hp, hK⟩
  | tail _ hlast ih => exact ⟨ih.1.move hlast, hmove _ _ _ ih.1 ih.2 hlast⟩

/-- And so does every history. -/
lemma keep_run (hmono : ∀ now now' p, now ≤ now' → K now p → K now' p)
    (hmove : ∀ now p p', Fenced now p → K now p → Move now p p' → K now p') {s : System}
    {events : List Event} (hs : Fenced s.clock s.db.plane) (hK : K s.clock s.db.plane)
    (hforward : Meets step s Forward events) :
    Fenced (run step s events).clock (run step s events).db.plane ∧
      K (run step s events).clock (run step s events).db.plane := by
  induction events generalizing s with
  | nil => exact ⟨hs, hK⟩
  | cons e events ih =>
    rcases meets_cons.mp hforward with ⟨hnow, hrest⟩
    rcases keep_moves hmove (hs.mono hnow) (hmono _ _ _ hnow hK) (step_moves s e) with ⟨hs', hK'⟩
    exact ih hs' hK' hrest

end Keep

variable {s : System} {row : AppDeployment} {db : Db} {env : Environment}

lemma fenced_run {events : List Event} (hs : Fenced s.clock s.db.plane)
    (hforward : Meets step s Forward events) :
    Fenced (run step s events).clock (run step s events).db.plane :=
  (keep_run (K := fun _ _ => True) (fun _ _ _ _ h => h) (fun _ _ _ _ h _ => h) hs trivial hforward).1

/-- With no runs, no leases and no commands there is nothing to fence. -/
lemma fenced_of_empty (hruns : s.db.appDeployments.rows = [])
    (hleases : s.db.appLeases.rows = []) (hcommands : s.db.nodeCommands.rows = []) :
    Fenced s.clock s.db.plane := by
  have hrun : ∀ i, s.db.plane.run i = none := by
    simp [Db.plane, Table.get, hruns]
  have hlease : ∀ app, s.db.plane.lease app = none := by
    simp [Db.plane, Db.lease, Table.collect, hleases]
  have hcommand : ∀ c, s.db.plane.command c = none := by
    simp [Db.plane, Table.get, hcommands]
  constructor
  all_goals simp [hrun, hlease, hcommand]

/-! ## What stays -/

/-- A run that is gone, or in a stage that is final. -/
def EndedIn (stage : DeployStage) (id : DocId AppDeployment) (_ : ℤ) (p : Plane) : Prop :=
  id < p.nextRun ∧ ∀ row, p.run id = some row → row.stage = stage

lemma EndedIn.move {stage : DeployStage} (hended : isTerminalStage stage = true) (hp : Fenced now p)
    (h : EndedIn stage id now p) (hmove : Move now p p') : EndedIn stage id now p' := by
  have hlater := hmove.runsLater hp
  refine ⟨lt_of_lt_of_le h.1 hlater.next, fun row hrow => ?_⟩
  rcases hlater.run id row h.1 hrow with ⟨old, hold, hrow⟩
  rw [hrow.final (by rw [h.2 old hold]; exact hended), h.2 old hold]

/-- A run that is gone, or whose epoch is dead. -/
def Lost (id : DocId AppDeployment) (now : ℤ) (p : Plane) : Prop :=
  id < p.nextRun ∧ ∀ row, p.run id = some row →
    ∃ epoch, row.leaseEpoch = some epoch ∧ Dead (p.lease row.app) epoch now

lemma Lost.mono {now' : ℤ} (hle : now ≤ now') (h : Lost id now p) : Lost id now' p := by
  refine ⟨h.1, fun row hrow => ?_⟩
  rcases h.2 row hrow with ⟨epoch, hepoch, hdead⟩
  exact ⟨epoch, hepoch, hdead.mono hle⟩

lemma Lost.move (hp : Fenced now p) (h : Lost id now p) (hmove : Move now p p') : Lost id now p' := by
  have hlater := hmove.runsLater hp
  refine ⟨lt_of_lt_of_le h.1 hlater.next, fun row hrow => ?_⟩
  rcases hlater.run id row h.1 hrow with ⟨old, hold, hrow⟩
  rcases h.2 old hold with ⟨epoch, hepoch, hdead⟩
  refine ⟨epoch, hrow.epoch epoch hepoch, ?_⟩
  rw [hrow.same.app]
  exact (hmove.leasesLater hp).dead hdead

lemma Holds.not_lost (h : Holds now p id row) : ¬ Lost id now p := by
  rintro ⟨-, hlost⟩
  rcases hlost row h.stored with ⟨epoch, hepoch, hdead⟩
  rcases h.live with ⟨epoch', hepoch', hadmits⟩
  cases hepoch.symm.trans hepoch'
  rw [hdead.not_admits] at hadmits
  simp at hadmits

/-- A run that has ended, and all of whose steps are fenced off. -/
def Spent (id : DocId AppDeployment) (now : ℤ) (p : Plane) : Prop :=
  id < p.nextRun ∧ (∀ row, p.run id = some row → isTerminalStage row.stage = true) ∧
    ∀ c row, p.command c = some row → Names row id →
      ∃ app epoch, row.app = some app ∧ row.appEpoch = some epoch ∧ Dead (p.lease app) epoch now

lemma Spent.mono {now' : ℤ} (hle : now ≤ now') (h : Spent id now p) : Spent id now' p := by
  refine ⟨h.1, h.2.1, fun c row hc hnames => ?_⟩
  rcases h.2.2 c row hc hnames with ⟨app, epoch, happ, hepoch, hdead⟩
  exact ⟨app, epoch, happ, hepoch, hdead.mono hle⟩

lemma Spent.move (hp : Fenced now p) (h : Spent id now p) (hmove : Move now p p') :
    Spent id now p' := by
  have hlater := hmove.runsLater hp
  refine ⟨lt_of_lt_of_le h.1 hlater.next, fun row hrow => ?_, fun c row hc hnames => ?_⟩
  · rcases hlater.run id row h.1 hrow with ⟨old, hold, hrow⟩
    rw [hrow.final (h.2.1 old hold)]
    exact h.2.1 old hold
  have hback : ∃ old, p.command c = some old ∧ old.Later row := by
    rcases hmove.command_cases with hsame | hchange
    · exact ⟨row, by rw [← hsame, hc], CommandRow.Later.refl row⟩
    rcases hchange.back hc with hold | ⟨input, -, horigin, rfl⟩
    · exact hold
    · rcases horigin.names hnames with ⟨run, epoch, hstored, hopen, -⟩
      rw [h.2.1 run hstored] at hopen
      simp at hopen
  rcases hback with ⟨old, hold, hrow⟩
  rcases h.2.2 c old hold (hnames.of_later hrow) with ⟨app, epoch, happ, hepoch, hdead⟩
  exact ⟨app, epoch, hrow.app.trans happ, hrow.appEpoch.trans hepoch, (hmove.leasesLater hp).dead hdead⟩

lemma Fenced.spent (h : Fenced now p) (hstored : p.run id = some row)
    (hended : isTerminalStage row.stage = true) : Spent id now p := by
  refine ⟨h.fresh id row hstored, fun other hother => ?_, fun c command hc hnames => ?_⟩
  · rw [hstored, some.injEq] at hother
    exact hother ▸ hended
  · rcases h.steps c command id hc hnames with ⟨-, app, epoch, happ, hepoch, hrun⟩
    rcases hrun row hstored with ⟨rfl, hheld⟩
    exact ⟨row.app, epoch, happ, hepoch, h.ended id row epoch hstored hended hheld⟩

/-! ## Writing an App -/

/-- Somewhere among the moves from `p` to `p'` a run is linking under its App's live lease. -/
def LinksBetween (now : ℤ) (p p' : Plane) (app : String) (id : DocId AppDeployment) : Prop :=
  ∃ q row, Moves now p q ∧ Moves now q p' ∧ Holds now q id row ∧ row.stage = .linking ∧ row.app = app

/-- A move that writes App rows or routes, and does not only delete some, is made by such a run. -/
lemma Move.writes (h : Move now p p') :
    ((∀ i, p'.app i = p.app i ∨ p'.app i = none) ∧ ∀ i, p'.route i = p.route i ∨ p'.route i = none) ∨
      ∃ id run, Holds now p id run ∧ run.stage = .linking ∧
        (∀ i, p'.app i ≠ p.app i → ∃ row, p'.app i = some row ∧ row.name = run.app) ∧
        ∀ i, p'.route i ≠ p.route i → ∃ row, p'.route i = some row ∧ row.app = some run.app := by
  rcases h with hstep | ⟨id, hbegins⟩
  · cases hstep with
    | write id run apps routes held linking app route =>
      exact .inr ⟨id, run, held, linking, app, route⟩
    | remove apps routes app route =>
      exact .inl ⟨fun i => or_iff_not_imp_left.mpr (app i), fun i => or_iff_not_imp_left.mpr (route i)⟩
    | _ => exact .inl ⟨fun _ => .inl rfl, fun _ => .inl rfl⟩
  · cases hbegins with
    | start | refuse => exact .inl ⟨fun _ => .inl rfl, fun _ => .inl rfl⟩

/-- What is there now and was not before was written by one of the moves. -/
lemma exists_move_of_new {α : Type} (f : Plane → Option α) {row : α} (hmoves : Moves now p p')
    (hrow : f p' = some row) (hnew : f p ≠ some row) :
    ∃ q q', Moves now p q ∧ Move now q q' ∧ Moves now q' p' ∧ f q ≠ some row ∧ f q' = some row := by
  induction hmoves with
  | refl => exact absurd hrow hnew
  | @tail q q' hbefore hlast ih =>
    by_cases hsame : f q = some row
    · rcases ih hsame with ⟨r, r', hr, hmove, hafter, hrest⟩
      exact ⟨r, r', hr, hmove, hafter.tail hlast, hrest⟩
    · exact ⟨q, q', hbefore, hlast, Relation.ReflTransGen.refl, hsame, hrow⟩

/-- An App row that has been written was written by such a run. -/
lemma links_of_app (hmoves : Moves now p p') {i : DocId App} {row : App} (hi : p'.app i = some row)
    (hnew : p.app i ≠ some row) : ∃ id, LinksBetween now p p' row.name id := by
  rcases exists_move_of_new (·.app i) hmoves hi hnew with ⟨q, q', hbefore, hmove, hafter, hold, hi'⟩
  rcases hmove.writes with ⟨hkept, -⟩ | ⟨id, run, held, linking, happ, -⟩
  · rcases hkept i with heq | hnone
    · exact absurd (heq.symm.trans hi') hold
    · exact absurd (hnone.symm.trans hi') (by simp)
  · rcases happ i (fun heq => hold (heq.symm.trans hi')) with ⟨row', hrow', hname⟩
    rw [hi', some.injEq] at hrow'
    exact ⟨id, q, run, hbefore, hafter.head hmove, held, linking, by rw [hrow', hname]⟩

lemma links_of_route (hmoves : Moves now p p') {i : DocId AppRoute} {row : AppRoute}
    (hi : p'.route i = some row) (hnew : p.route i ≠ some row) :
    ∃ app id, row.app = some app ∧ LinksBetween now p p' app id := by
  rcases exists_move_of_new (·.route i) hmoves hi hnew with ⟨q, q', hbefore, hmove, hafter, hold, hi'⟩
  rcases hmove.writes with ⟨-, hkept⟩ | ⟨id, run, held, linking, -, hroute⟩
  · rcases hkept i with heq | hnone
    · exact absurd (heq.symm.trans hi') hold
    · exact absurd (hnone.symm.trans hi') (by simp)
  · rcases hroute i (fun heq => hold (heq.symm.trans hi')) with ⟨row', hrow', hname⟩
    rw [hi', some.injEq] at hrow'
    exact ⟨run.app, id, by rw [hrow', hname], q, run, hbefore, hafter.head hmove, held, linking, rfl⟩

/-- A run's epoch is its App's live lease. -/
def Admitted (db : Db) (t : ℤ) (row : AppDeployment) : Prop :=
  ∃ epoch, row.leaseEpoch = some epoch ∧ leaseAdmits (db.lease row.app) epoch t = true

/-- A call writes an App for a run: in the call the run is linking under the live lease, and at every
call up to this one at which it had an epoch, that epoch was the live lease. -/
structure CommittedBy (start : System) (before : List Event) (e : Event) (app : String)
    (id : DocId AppDeployment) : Prop where
  links : LinksBetween e.now (run step start before).db.plane
    (run step start (before ++ [e])).db.plane app id
  kept : ∀ l d l' row, before ++ [e] = l ++ d :: l' →
    (run step start l).db.appDeployments.get id = some row → row.leaseEpoch ≠ none →
      Admitted (run step start l).db d.now row

/-- A run whose epoch is not the live lease has lost it. -/
lemma Fenced.lost {epoch : ℤ} (h : Fenced now p) (hstored : p.run id = some row)
    (hepoch : row.leaseEpoch = some epoch)
    (hlost : leaseAdmits (p.lease row.app) epoch now = false) : Lost id now p := by
  refine ⟨h.fresh id row hstored, fun other hother => ?_⟩
  cases hstored.symm.trans hother
  rcases h.granted id row epoch hstored hepoch with ⟨lease, hlease, hle⟩
  rw [hlease] at hlost ⊢
  exact ⟨epoch, hepoch, dead_of_not_admits hle hlost⟩

/-- Whoever writes an App has never lost its lease. -/
lemma committedBy_of_links {start : System} {before : List Event} {e : Event} {app : String}
    (hstart : Fenced start.clock start.db.plane)
    (hforward : Meets step start Forward (before ++ [e]))
    (hlinks : LinksBetween e.now (run step start before).db.plane
      (run step start (before ++ [e])).db.plane app id) : CommittedBy start before e app id := by
  refine ⟨hlinks, fun l d l' row hsplit hstored hhas => ?_⟩
  rcases ne_none_iff_exists'.mp hhas with ⟨epoch, hepoch⟩
  refine ⟨epoch, hepoch, ?_⟩
  by_contra hnot
  rw [Bool.not_eq_true] at hnot
  rcases hlinks with ⟨q, row', hbefore, -, hholds, -⟩
  refine hholds.not_lost ?_
  rw [hsplit] at hforward
  have hat : Fenced d.now (run step start l).db.plane :=
    (fenced_run hstart hforward.left).mono (hforward l d l' rfl)
  have hlost : Lost id d.now (run step start l).db.plane := hat.lost hstored hepoch hnot
  rcases snoc_split hsplit with ⟨l'', rfl⟩ | ⟨rfl, rfl⟩
  · have hlater := keep_moves (K := Lost id) (fun _ _ _ => Lost.move) hat hlost (step_moves _ d)
    have hsuffix : l' = l'' ++ [e] := by
      have hsplit' : (l ++ [d]) ++ (l'' ++ [e]) = (l ++ [d]) ++ l' := by
        simpa using hsplit
      exact (append_cancel_left hsplit').symm
    subst hsuffix
    have hrest : Meets step (run step start (l ++ [d])) Forward (l'' ++ [e]) := by
      refine Meets.right ?_
      simpa using hforward
    have hsnoc : step (run step start l) d = run step start (l ++ [d]) := run_snoc.symm
    have hclock : d.now = (run step start (l ++ [d])).clock := by rw [← hsnoc]; rfl
    rw [hsnoc, hclock] at hlater
    have hend := keep_run (K := Lost id) (fun _ _ _ => Lost.mono) (fun _ _ _ => Lost.move) hlater.1
      hlater.2 hrest.left
    rw [← run_append] at hend
    have hnow : (run step start (l ++ [d] ++ l'')).clock ≤ e.now := by
      rw [run_append]
      exact hrest l'' e [] rfl
    have hlist : l ++ [d] ++ l'' = l ++ d :: l'' := by simp
    rw [hlist] at hend hnow
    exact (keep_moves (K := Lost id) (fun _ _ _ => Lost.move) (hend.1.mono hnow)
      (hend.2.mono hnow) hbefore).2
  · exact (keep_moves (K := Lost id) (fun _ _ _ => Lost.move) hat hlost hbefore).2

/-! ## Beginning in order -/

/-- In a call, only the first queued run of an App comes to an epoch. -/
lemma first_of_epoch {db' : Db} {call : Call} {row' : AppDeployment}
    (hdb : Fenced now db.plane) (h : perform env now call db = .ok db')
    (hstored : db.appDeployments.get id = some row) (hqueued : row.stage = .queued)
    (hstored' : db'.appDeployments.get id = some row') (hepoch : row'.leaseEpoch ≠ none) :
    First db.plane row := by
  have hnone : row.leaseEpoch = none := hdb.queued id row hstored hqueued
  have hlt : id < db.plane.nextRun := hdb.fresh id row hstored
  rcases perform_cases h with hsteps | ⟨j, stored, hstarts⟩
  · rcases hsteps.epochsKept.run id row' hlt hstored' with ⟨old, hold, -, hkept⟩
    have heq : row = old := some.inj (hstored.symm.trans hold)
    rw [hkept, ← heq] at hepoch
    exact absurd hnone hepoch
  · by_cases hj : id = j
    · subst hj
      have heq : row = stored := some.inj (hstored.symm.trans hstarts.stored)
      rw [heq]
      exact hstarts.first
    · rcases hstarts.begins with ⟨q, q', hbefore, hbegins, hafter⟩
      have hothers : q'.run id = q.run id ∧ q'.nextRun = q.nextRun := by
        cases hbegins with
        | start | refuse =>
          exact ⟨by simp [Plane.setRun, Plane.setLease, Function.update_of_ne hj], rfl⟩
      have hltq : id < q'.nextRun := by
        rw [hothers.2]
        exact lt_of_lt_of_le hlt hbefore.epochsKept.next
      rcases hafter.epochsKept.run id row' hltq hstored' with ⟨mid, hmid, -, hkept'⟩
      rw [hothers.1] at hmid
      rcases hbefore.epochsKept.run id mid hlt hmid with ⟨old, hold, -, hkept⟩
      have heq : row = old := some.inj (hstored.symm.trans hold)
      rw [hkept', hkept, ← heq] at hepoch
      exact absurd hnone hepoch

/-! ## Steps of a run that has ended -/

lemma shut_of_spent {c : DocId CommandRow} {command : CommandRow}
    (h : Spent id now db.plane) (hc : db.nodeCommands.get c = some command) (hnames : Names command id) :
    (∀ credential owner answer, claim env now credential c owner db ≠ .ok answer) ∧
      ∀ args answer, args.commandId = c → payload env now args db ≠ .ok answer := by
  rcases h.2.2 c command hc hnames with ⟨app, epoch, happ, hepoch, hdead⟩
  have hclosed : ¬ InFence db.lease now command := by
    intro hfence
    have hadmits : leaseAdmits (db.plane.lease app) epoch now = true := hfence app epoch happ hepoch
    rw [hdead.not_admits] at hadmits
    simp at hadmits
  refine ⟨fun credential owner answer hclaim => ?_, fun args answer hargs hpayload => ?_⟩
  · rcases claim_ok hclaim with ⟨row, hrow, -, hfence, -⟩
    rw [hc, some.injEq] at hrow
    exact hclosed (hrow ▸ inFence_of_appFence hfence)
  rcases bind_ok.mp hpayload with ⟨row, hclaimed, -⟩
  rcases claimed_ok hclaimed with ⟨hrow, -, -, -, -, hfence⟩
  rw [hargs, hc, some.injEq] at hrow
  exact hclosed (hrow ▸ inFence_of_appFence hfence)

/-- A commit asserts the lease before it does anything. -/
lemma commit_admitted {db' : Db} (h : commit env now id row db = .ok db') : Admitted db now row := by
  simp only [commit] at h
  split at h
  · rename_i plan epoch hplan hepoch
    rcases bind_ok.mp h with ⟨⟨leaseId, lease⟩, hassert, -⟩
    exact ⟨epoch, hepoch, (assertAppLease_ok hassert).2⟩
  · cases h

/-! ## Histories -/

/-- **Deploy runs of one App are serialized and fenced.**  In every history of calls from a database
without runs, leases and commands:

* at any time at most one run of an App is in an active stage with its epoch admitted;
* a commit goes ahead only while its run's epoch is the live lease, and an App row or a route
      row that a call has written was written for a run that never lost its lease;
* a stage that is final stays, as long as the run is in the history;
* once a run has been terminal, no command that is a step of it, or names it, can be claimed or
      have its payload read;
* a run that leaves `queued` under a lease has no queued run of its App before it. -/
theorem runs_serialized_and_fenced (start : System) (events : List Event)
    (hruns : start.db.appDeployments.rows = []) (hleases : start.db.appLeases.rows = [])
    (hcommands : start.db.nodeCommands.rows = []) (hforward : Meets step start Forward events) :
    (∀ t i j row row', (run step start events).clock ≤ t →
      (run step start events).db.appDeployments.get i = some row →
      (run step start events).db.appDeployments.get j = some row' → row.app = row'.app →
      row.stage ∈ activeStages → row'.stage ∈ activeStages →
      Admitted (run step start events).db t row → Admitted (run step start events).db t row' → i = j) ∧
    ((∀ env now id row db db', commit env now id row db = .ok db' → Admitted db now row) ∧
      ∀ before e after, events = before ++ e :: after →
        (∀ i row, (run step start (before ++ [e])).db.apps.get i = some row →
          (run step start before).db.apps.get i ≠ some row →
          ∃ id, CommittedBy start before e row.name id) ∧
        ∀ i row, (run step start (before ++ [e])).db.appRoutes.get i = some row →
          (run step start before).db.appRoutes.get i ≠ some row →
          ∃ app id, row.app = some app ∧ CommittedBy start before e app id) ∧
    (∀ before after id row row', events = before ++ after →
      (run step start before).db.appDeployments.get id = some row → isTerminalStage row.stage = true →
      (run step start events).db.appDeployments.get id = some row' → row'.stage = row.stage) ∧
    (∀ before after id row, events = before ++ after →
      (run step start before).db.appDeployments.get id = some row → isTerminalStage row.stage = true →
      ∀ c command env now, (run step start events).db.nodeCommands.get c = some command →
        Names command id → (run step start events).clock ≤ now →
        (∀ credential owner answer,
          claim env now credential c owner (run step start events).db ≠ .ok answer) ∧
        ∀ args answer, args.commandId = c →
          payload env now args (run step start events).db ≠ .ok answer) ∧
    ∀ before e after id row row', events = before ++ e :: after →
      (run step start before).db.appDeployments.get id = some row → row.stage = .queued →
      (run step start (before ++ [e])).db.appDeployments.get id = some row' →
      row'.stage ∈ activeStages ∨ row'.leaseEpoch ≠ none →
      ∀ j other, (run step start before).db.appDeployments.get j = some other →
        other.stage = .queued → other.app = row.app → row.startedAt ≤ other.startedAt := by
  have hstart := fenced_of_empty hruns hleases hcommands
  have hend := fenced_run hstart hforward
  refine ⟨?_, ⟨fun env now id row db db' => commit_admitted, ?_⟩, ?_, ?_, ?_⟩
  · rintro t i j row row' ht hi hj happ - - ⟨epoch, hepoch, hadmits⟩ ⟨epoch', hepoch', hadmits'⟩
    rcases leaseAdmits_iff.mp hadmits with ⟨lease, hlease, -, hat, -⟩
    rcases leaseAdmits_iff.mp hadmits' with ⟨lease', hlease', -, hat', -⟩
    rw [← happ, hlease, some.injEq] at hlease'
    subst hlease'
    rw [← hat'] at hepoch'
    rw [← hat] at hepoch
    exact hend.distinct i j row row' lease.epoch hi hj happ hepoch hepoch'
  · rintro before e after rfl
    have hsofar : Meets step start Forward (before ++ [e]) := by
      have hsplit : before ++ e :: after = (before ++ [e]) ++ after := by simp
      rw [hsplit] at hforward
      exact hforward.left
    have hmoves : Moves e.now (run step start before).db.plane
        (run step start (before ++ [e])).db.plane := by
      rw [run_snoc]
      exact step_moves _ e
    refine ⟨fun i row hi hnew => ?_, fun i row hi hnew => ?_⟩
    · rcases links_of_app hmoves hi hnew with ⟨id, hlinks⟩
      exact ⟨id, committedBy_of_links hstart hsofar hlinks⟩
    · rcases links_of_route hmoves hi hnew with ⟨app, id, happ, hlinks⟩
      exact ⟨app, id, happ, committedBy_of_links hstart hsofar hlinks⟩
  · rintro before after id row row' rfl hstored hended hstored'
    have hbefore := fenced_run hstart hforward.left
    have hin : EndedIn row.stage id (run step start before).clock (run step start before).db.plane := by
      refine ⟨hbefore.fresh id row hstored, fun other hother => ?_⟩
      rw [← some.inj (hstored.symm.trans hother)]
    have hkept := keep_run (K := EndedIn row.stage id) (fun _ _ _ _ h => h)
      (fun _ _ _ => EndedIn.move hended) hbefore hin hforward.right
    rw [← run_append] at hkept
    exact hkept.2.2 row' hstored'
  · rintro before after id row rfl hstored hended c command env now hc hnames hnow
    have hbefore := fenced_run hstart hforward.left
    have hkept := keep_run (K := Spent id) (fun _ _ _ => Spent.mono) (fun _ _ _ => Spent.move) hbefore
      (hbefore.spent hstored hended) hforward.right
    rw [← run_append] at hkept
    exact shut_of_spent (hkept.2.mono hnow) hc hnames
  · rintro before e after id row row' rfl hstored hqueued hstored' hleaves j other hother hqueued' happ
    have hbefore : Fenced e.now (run step start before).db.plane :=
      (fenced_run hstart hforward.left).mono (hforward before e after rfl)
    rw [run_snoc] at hstored'
    simp only [step] at hstored'
    cases hperform : perform e.env e.now e.call (run step start before).db with
    | error message =>
      rw [hperform] at hstored'
      have heq : row = row' := some.inj (hstored.symm.trans hstored')
      subst heq
      rcases hleaves with hactive | hepoch
      · rw [hqueued] at hactive
        simp [activeStages] at hactive
      · exact absurd (hbefore.queued id row hstored hqueued) hepoch
    | ok db' =>
      rw [hperform] at hstored'
      have hafter : Fenced e.now db'.plane :=
        (keep_moves (K := fun _ _ => True) (fun _ _ _ _ h _ => h) hbefore trivial
          (perform_moves hperform)).1
      have hepoch : row'.leaseEpoch ≠ none := by
        rcases hleaves with hactive | hepoch
        · exact hafter.active id row' hstored' hactive
        · exact hepoch
      exact first_of_epoch hbefore hperform hstored hqueued hstored' hepoch j other hother hqueued'
        happ (hbefore.operation j other hother)

/-- A Node is enrolled and an App is to be deployed: the run reads its spec on the Node. -/
def beforeCommit : List Event :=
  let event := fun now call => (⟨now, plainEnvironment, call⟩ : Event)
  [event 0 (.enroll "node"),
    event 0 (.outside (.insert .empty ⟨0, "credential", none⟩) .empty .empty .empty),
    event 1 (.heartbeat ⟨"credential", "1.0", none, none, none⟩),
    event 2 (.createRun
      ⟨"web", .deploy, .manual, some (.git "repo" "main" none), none, none, none, none⟩),
    event 3 (.tick 0),
    event 4 (.claim "credential" 0 "agent"),
    event 5 (.report ⟨⟨"credential", 0, "agent", 1⟩, .success, some "app", none, none⟩)]

/-- The tick that commits it. -/
def committingTick : Event := ⟨6, plainEnvironment, .tick 0⟩

theorem runs_serialized_and_fenced_of_commit :
    (run step ⟨emptyDb, 0⟩ (beforeCommit ++ [committingTick])).db.apps.get 0
        = some ⟨"web", 0, [], [], some ⟨"web", []⟩, 6⟩ ∧
      ∃ id, CommittedBy ⟨emptyDb, 0⟩ beforeCommit committingTick "web" id := by
  have hwritten : (run step ⟨emptyDb, 0⟩ (beforeCommit ++ [committingTick])).db.apps.get 0
      = some ⟨"web", 0, [], [], some ⟨"web", []⟩, 6⟩ := by decide +kernel
  have hfence := runs_serialized_and_fenced ⟨emptyDb, 0⟩ (beforeCommit ++ [committingTick]) rfl rfl rfl
    (by decide)
  exact ⟨hwritten, (hfence.2.1.2 beforeCommit committingTick [] rfl).1 0 _ hwritten (by decide +kernel)⟩

end EraInfra.Infra
