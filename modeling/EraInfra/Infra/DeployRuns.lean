import EraInfra.Core.Naming
import EraInfra.Infra.CommandClaims

/-!
# Deploy runs

The fence between the runs of an App, over every interleaving of calls.

An epoch is `Dead` once it is not, and can never again be, its App's live lease.  `Fenced` is the
invariant: epochs of runs are below their App's lease and no two runs of an App share one, the
holder of a lease is the run with its epoch, the epoch of a run that has ended is dead, and the
steps of a run carry its App and its epoch.  Every move keeps it (`Fenced.move`).  What a run that
has ended, or has lost its lease, can no longer do follows from what is dead staying dead.
-/

namespace EraInfra.Infra

open DocStore List Option

variable {now : ℤ} {p p' : Plane} {id : DocId AppDeployment} {run run' : AppDeployment}

variable {i : DocId AppDeployment} {lease new old : AppLease} {renewed : Bool}

lemma holderOf_inj {j : DocId AppDeployment} (h : holderOf i = holderOf j) : i = j := by
  have hlists : "deployment:".toList ++ (toString i).toList
      = "deployment:".toList ++ (toString j).toList := by
    simpa [holderOf, idText] using congrArg String.toList h
  exact toString_inj (append_cancel_left hlists)

/-! ## Dead epochs -/

/-- An epoch that is not the live lease, and whose lease can only be granted in a higher one. -/
def Dead (lease : Option AppLease) (epoch now : ℤ) : Prop := ∃ row, lease = some row ∧
    (epoch < row.epoch ∨ row.epoch = epoch ∧ (row.holder = none ∨ row.expiresAt ≤ now))

variable {epoch : ℤ} {app : String}

lemma Dead.mono {lease : Option AppLease} {now' : ℤ} (h : Dead lease epoch now)
    (hle : now ≤ now') : Dead lease epoch now' := by
  rcases h with ⟨row, hrow, hlow | ⟨hepoch, hnone | hlapsed⟩⟩
  · exact ⟨row, hrow, .inl hlow⟩
  · exact ⟨row, hrow, .inr ⟨hepoch, .inl hnone⟩⟩
  · exact ⟨row, hrow, .inr ⟨hepoch, .inr (hlapsed.trans hle)⟩⟩

lemma Dead.not_admits {lease : Option AppLease} (h : Dead lease epoch now) :
    leaseAdmits lease epoch now = false := by
  by_contra hadmits
  rw [Bool.not_eq_false, leaseAdmits_iff] at hadmits
  rcases hadmits with ⟨row, hrow, hholder, hepoch, hlive⟩
  rcases h with ⟨row', hrow', hdead⟩
  cases hrow.symm.trans hrow'
  rcases hdead with hlow | ⟨-, hnone | hlapsed⟩
  · omega
  · exact hholder hnone
  · omega

/-- An epoch that was granted and is not the live lease is dead. -/
lemma dead_of_not_admits (hle : epoch ≤ lease.epoch)
    (h : leaseAdmits (some lease) epoch now = false) : Dead (some lease) epoch now := by
  refine ⟨lease, rfl, ?_⟩
  rcases lt_or_eq_of_le hle with hlow | heq
  · exact .inl hlow
  · refine .inr ⟨heq.symm, ?_⟩
    simp only [leaseAdmits, heq, Bool.and_eq_false_iff, decide_eq_false_iff_not, not_ne_iff,
      not_true_eq_false, or_false, not_lt] at h
    exact h

/-! ## The invariant -/

/-- A command is a step of a run, or names it. -/
def Names (row : CommandRow) (id : DocId AppDeployment) : Prop :=
  row.deploymentId = some id ∨ row.command.deployment = some id

structure Fenced (now : ℤ) (p : Plane) : Prop where
  fresh : ∀ i run, p.run i = some run → i < p.nextRun
  queued : ∀ i run, p.run i = some run → run.stage = .queued → run.leaseEpoch = none
  active : ∀ i run, p.run i = some run → run.stage ∈ activeStages → run.leaseEpoch ≠ none
  operation : ∀ i run, p.run i = some run → run.operation ≠ none
  granted : ∀ i run epoch, p.run i = some run → run.leaseEpoch = some epoch →
    ∃ lease, p.lease run.app = some lease ∧ epoch ≤ lease.epoch
  distinct : ∀ i j run run' epoch, p.run i = some run → p.run j = some run' → run.app = run'.app →
    run.leaseEpoch = some epoch → run'.leaseEpoch = some epoch → i = j
  holder : ∀ app lease h, p.lease app = some lease → lease.holder = some h →
    ∃ id, h = holderOf id ∧ id < p.nextRun ∧
      ∀ run, p.run id = some run → run.app = app ∧ run.leaseEpoch = some lease.epoch
  ended : ∀ i run epoch, p.run i = some run → isTerminalStage run.stage = true →
    run.leaseEpoch = some epoch → Dead (p.lease run.app) epoch now
  steps : ∀ c row id, p.command c = some row → Names row id → id < p.nextRun ∧
    ∃ app epoch, row.app = some app ∧ row.appEpoch = some epoch ∧
      ∀ run, p.run id = some run → run.app = app ∧ run.leaseEpoch = some epoch

lemma Fenced.mono {now' : ℤ} (h : Fenced now p) (hle : now ≤ now') : Fenced now' p :=
  { h with ended := fun i run epoch hi hended hepoch => (h.ended i run epoch hi hended hepoch).mono hle }

/-- So is the lease of its App. -/
lemma Holds.lease_live (h : Holds now p id run)
    (hlease : p.lease run.app = some lease) : ¬ (lease.holder = none ∨ lease.expiresAt ≤ now) := by
  rcases h.live with ⟨epoch, -, hadmits⟩
  rcases leaseAdmits_iff.mp hadmits with ⟨row, hrow, hholder, -, hlive⟩
  cases hlease.symm.trans hrow
  rintro (hnone | hlapsed)
  · exact absurd hnone hholder
  · omega

/-! ## Leases -/

/-- What is dead stays dead. -/
def LeasesLater (now : ℤ) (p p' : Plane) : Prop :=
  ∀ app row, p.lease app = some row → ∃ row', p'.lease app = some row' ∧ (row.epoch < row'.epoch ∨
    row'.epoch = row.epoch ∧
      (row.holder = none ∨ row.expiresAt ≤ now → row'.holder = none ∨ row'.expiresAt ≤ now))

lemma LeasesLater.of_eq (h : p'.lease = p.lease) : LeasesLater now p p' := by
  intro app row hrow
  exact ⟨row, by rw [h, hrow], .inr ⟨rfl, fun hdead => hdead⟩⟩

lemma LeasesLater.dead (h : LeasesLater now p p')
    (hdead : Dead (p.lease app) epoch now) : Dead (p'.lease app) epoch now := by
  rcases hdead with ⟨row, hrow, hdead⟩
  rcases h app row hrow with ⟨row', hrow', hlater⟩
  refine ⟨row', hrow', ?_⟩
  rcases hlater with hlow | ⟨hsame, hkeep⟩
  · rcases hdead with hlow' | ⟨heq, -⟩
    · exact .inl (hlow'.trans hlow)
    · exact .inl (heq ▸ hlow)
  · rcases hdead with hlow' | ⟨heq, hends⟩
    · exact .inl (hsame ▸ hlow')
    · exact .inr ⟨hsame.trans heq, hkeep hends⟩

lemma LeasesLater.granted (h : LeasesLater now p p')
    (hgranted : ∃ lease, p.lease app = some lease ∧ epoch ≤ lease.epoch) :
    ∃ lease, p'.lease app = some lease ∧ epoch ≤ lease.epoch := by
  rcases hgranted with ⟨lease, hlease, hle⟩
  rcases h app lease hlease with ⟨lease', hlease', hlow | ⟨heq, -⟩⟩
  · exact ⟨lease', hlease', hle.trans hlow.le⟩
  · exact ⟨lease', hlease', hle.trans heq.ge⟩

/-- One App's lease is written. -/
lemma leasesLater_setLease
    (h : ∀ old, p.lease app = some old → old.epoch < new.epoch ∨ new.epoch = old.epoch ∧
      (old.holder = none ∨ old.expiresAt ≤ now → new.holder = none ∨ new.expiresAt ≤ now)) :
    LeasesLater now p (p.setLease app new) := by
  intro a row hrow
  by_cases ha : a = app
  · subst ha
    exact ⟨new, by simp [Plane.setLease], h row hrow⟩
  · exact ⟨row, by simp [Plane.setLease, Function.update_of_ne ha, hrow], .inr ⟨rfl, fun hdead => hdead⟩⟩

/-- A lease row rewritten under its epoch. -/
lemma leasesLater_keepEpoch (hold : p.lease app = some old) (hepoch : new.epoch = old.epoch)
    (hdead : old.holder = none ∨ old.expiresAt ≤ now → new.holder = none ∨ new.expiresAt ≤ now) :
    LeasesLater now p (p.setLease app new) := by
  refine leasesLater_setLease fun row hrow => .inr ?_
  cases hold.symm.trans hrow
  exact ⟨hepoch, hdead⟩

/-- A queued run is granted a new epoch, never the one its App's lease is in. -/
lemma Fenced.new_epoch (h : Fenced now p) (hstored : p.run id = some run)
    (hqueued : run.stage = .queued)
    (hgrant : decideLease (p.lease run.app) (holderOf id) now = .grant epoch renewed) :
    ∀ old, p.lease run.app = some old → old.epoch < epoch := by
  intro old hold
  simp only [hold, decideLease] at hgrant
  split at hgrant
  · rename_i held hheld
    split_ifs at hgrant with hlive hsame
    · rcases h.holder run.app old held hold hheld with ⟨j, hj, -, hrun⟩
      rw [hsame] at hj
      have hepoch := (hrun run (holderOf_inj hj ▸ hstored)).2
      rw [h.queued id run hstored hqueued] at hepoch
      simp at hepoch
    · cases hgrant
      omega
  · cases hgrant
    omega

/-! ## What a run may become -/

structure RunLater (run run' : AppDeployment) : Prop where
  same : SameRun run run'
  epoch : ∀ epoch, run.leaseEpoch = some epoch → run'.leaseEpoch = some epoch
  final : isTerminalStage run.stage = true → run'.stage = run.stage

lemma RunLater.refl (run : AppDeployment) : RunLater run run :=
  ⟨SameRun.refl run, fun _ h => h, fun _ => rfl⟩

/-- Of the runs there were, those that are left are the same runs. -/
structure RunsLater (p p' : Plane) : Prop where
  next : p.nextRun ≤ p'.nextRun
  run : ∀ i run', i < p.nextRun → p'.run i = some run' → ∃ run, p.run i = some run ∧ RunLater run run'

/-- They are, and none has another epoch. -/
structure EpochsKept (p p' : Plane) : Prop where
  next : p.nextRun ≤ p'.nextRun
  run : ∀ i run', i < p.nextRun → p'.run i = some run' →
    ∃ run, p.run i = some run ∧ RunLater run run' ∧ run'.leaseEpoch = run.leaseEpoch

lemma EpochsKept.later (h : EpochsKept p p') : RunsLater p p' := by
  refine ⟨h.next, fun i run' hi hrun' => ?_⟩
  rcases h.run i run' hi hrun' with ⟨run, hrun, hlater, -⟩
  exact ⟨run, hrun, hlater⟩

lemma EpochsKept.of_eq (hrun : p'.run = p.run) (hnext : p'.nextRun = p.nextRun) : EpochsKept p p' :=
  ⟨hnext.ge, fun i run' _ hi => ⟨run', by rw [← hrun, hi], RunLater.refl run', rfl⟩⟩

lemma EpochsKept.trans {p'' : Plane} (h : EpochsKept p p') (h' : EpochsKept p' p'') :
    EpochsKept p p'' := by
  refine ⟨h.next.trans h'.next, fun i run'' hi hrun'' => ?_⟩
  rcases h'.run i run'' (lt_of_lt_of_le hi h.next) hrun'' with ⟨run', hrun', hlater', hepoch'⟩
  rcases h.run i run' hi hrun' with ⟨run, hrun, hlater, hepoch⟩
  refine ⟨run, hrun, ⟨hlater.same.trans hlater'.same, fun e he => hlater'.epoch e (hlater.epoch e he), ?_⟩,
    hepoch'.trans hepoch⟩
  intro hended
  have hstage := hlater.final hended
  rw [hlater'.final (by rw [hstage]; exact hended), hstage]

lemma run_of_addRun (hi : i < p.nextRun)
    (hrow : (p.addRun run).run i = some run') : p.run i = some run' := by
  rcases update_eq_some.mp hrow with ⟨rfl, -⟩ | ⟨-, hrow⟩
  · exact absurd hi (lt_irrefl _)
  · exact hrow

lemma run_of_trim (hrow : (p.setRun id none).run i = some run) : p.run i = some run := by
  rcases update_eq_some.mp hrow with ⟨-, ⟨⟩⟩ | ⟨-, hrow⟩
  exact hrow

lemma epochsKept_setRun (hstored : p.run id = some run) (hsame : SameRun run run')
    (hepoch : run'.leaseEpoch = run.leaseEpoch)
    (hfinal : isTerminalStage run.stage = true → run'.stage = run.stage) :
    EpochsKept p (p.setRun id (some run')) := by
  refine ⟨le_rfl, fun i row hi hrow => ?_⟩
  rcases update_eq_some.mp hrow with ⟨rfl, ⟨⟩⟩ | ⟨-, hrow⟩
  · exact ⟨run, hstored, ⟨hsame, fun epoch h => hepoch.trans h, hfinal⟩, hepoch⟩
  · exact ⟨row, hrow, RunLater.refl row, rfl⟩

lemma Holds.not_terminal (h : Holds now p id run) : isTerminalStage run.stage = false :=
  not_terminal_of_active h.active

lemma Step.epochsKept (h : Step now p p') : EpochsKept p p' := by
  cases h with
  | command | extend | write | remove => exact EpochsKept.of_eq rfl rfl
  | create row =>
    exact ⟨Nat.le_succ _, fun i run' hi hrun' => ⟨run', run_of_addRun hi hrun', RunLater.refl run', rfl⟩⟩
  | trim id =>
    exact ⟨le_rfl, fun i run' _ hrun' => ⟨run', run_of_trim hrun', RunLater.refl run', rfl⟩⟩
  | touch id run run' stored same stage epoch =>
    exact epochsKept_setRun stored same epoch fun _ => stage
  | lose id run run' stored isOpen same lost stage epoch =>
    exact epochsKept_setRun stored same epoch fun hended => by simp [isOpen] at hended
  | advance id run run' held same active epoch =>
    exact epochsKept_setRun held.stored same epoch fun hended => by
      simp [held.not_terminal] at hended
  | finish id run run' lease held stored same ended epoch =>
    have hkept := epochsKept_setRun held.stored same epoch fun hended => by
      simp [held.not_terminal] at hended
    exact ⟨hkept.next, hkept.run⟩

lemma Steps.epochsKept (h : Steps now p p') : EpochsKept p p' := by
  induction h with
  | refl => exact EpochsKept.of_eq rfl rfl
  | tail _ hstep ih => exact ih.trans hstep.epochsKept

lemma Begins.runsLater (hp : Fenced now p) (h : Begins now p id p') : RunsLater p p' := by
  have hset : ∀ run run' lease, p.run id = some run → run.stage = .queued → SameRun run run' →
      RunsLater p ((p.setLease run.app lease).setRun id (some run')) := by
    intro run run' lease hstored hqueued hsame
    refine ⟨le_rfl, fun i row hi hrow => ?_⟩
    rcases update_eq_some.mp hrow with ⟨rfl, ⟨⟩⟩ | ⟨-, hrow⟩
    · refine ⟨run, hstored, hsame, fun epoch hepoch => ?_, fun hended => ?_⟩
      · rw [hp.queued i run hstored hqueued] at hepoch
        simp at hepoch
      · rw [hqueued] at hended
        simp [isTerminalStage] at hended
    · exact ⟨row, hrow, RunLater.refl row⟩
  cases h with
  | start run run' lease renewed stored queued operation granted app holder expiry same
  | refuse run run' lease renewed stored queued operation granted app holder same =>
    exact hset run run' lease stored queued same

lemma Move.runsLater (hp : Fenced now p) (h : Move now p p') : RunsLater p p' := by
  rcases h with hstep | ⟨id, hbegins⟩
  · exact hstep.epochsKept.later
  · exact hbegins.runsLater hp

/-! ## Moves keep leases and the invariant -/

lemma Move.leasesLater (hp : Fenced now p) (h : Move now p p') : LeasesLater now p p' := by
  rcases h with hstep | ⟨id, hbegins⟩
  · cases hstep with
    | extend id run lease held stored =>
      exact leasesLater_keepEpoch stored rfl fun hdead => absurd hdead (held.lease_live stored)
    | finish id run run' lease held stored =>
      have hlater : LeasesLater now p
          (p.setLease run.app { lease with holder := none, operation := none }) :=
        leasesLater_keepEpoch stored rfl fun _ => .inl rfl
      exact hlater
    | _ => exact LeasesLater.of_eq rfl
  · cases hbegins with
    | start run run' lease renewed stored queued operation granted
    | refuse run run' lease renewed stored queued operation granted =>
      have hlater : LeasesLater now p (p.setLease run.app lease) :=
        leasesLater_setLease fun old hold => .inl (hp.new_epoch stored queued granted old hold)
      exact hlater

section

variable (h : Fenced now p)

include h

/-- Rows of runs are rewritten or deleted, and keep their App and their epoch. -/
lemma Fenced.rewrite (hnext : p'.nextRun = p.nextRun)
    (hcommand : p'.command = p.command) (hlease : p'.lease = p.lease)
    (hrun : ∀ i row, p'.run i = some row → ∃ old, p.run i = some old ∧ SameRun old row ∧
      row.leaseEpoch = old.leaseEpoch ∧ (row.stage = .queued → old.stage = .queued) ∧
      (row.stage ∈ activeStages → old.leaseEpoch ≠ none) ∧
      (isTerminalStage row.stage = true → ∀ epoch, old.leaseEpoch = some epoch →
        Dead (p.lease old.app) epoch now)) : Fenced now p' := by
  refine ⟨?_, ?_, ?_, ?_, ?_, ?_, ?_, ?_, ?_⟩
  · intro i row hi
    rcases hrun i row hi with ⟨old, hold, -⟩
    rw [hnext]
    exact h.fresh i old hold
  · intro i row hi hqueued
    rcases hrun i row hi with ⟨old, hold, -, hepoch, hback, -⟩
    rw [hepoch]
    exact h.queued i old hold (hback hqueued)
  · intro i row hi hactive
    rcases hrun i row hi with ⟨old, hold, -, hepoch, -, hback, -⟩
    rw [hepoch]
    exact hback hactive
  · intro i row hi
    rcases hrun i row hi with ⟨old, hold, hsame, -⟩
    rw [hsame.operation]
    exact h.operation i old hold
  · intro i row epoch hi hheld
    rcases hrun i row hi with ⟨old, hold, hsame, hepoch, -⟩
    rw [hlease, hsame.app]
    exact h.granted i old epoch hold (hepoch.symm.trans hheld)
  · intro i j row row' epoch hi hj happ hheld hheld'
    rcases hrun i row hi with ⟨old, hold, hsame, hepoch, -⟩
    rcases hrun j row' hj with ⟨old', hold', hsame', hepoch', -⟩
    exact h.distinct i j old old' epoch hold hold' (hsame.app.symm.trans (happ.trans hsame'.app))
      (hepoch.symm.trans hheld) (hepoch'.symm.trans hheld')
  · intro app lease holder hholds hholder
    rw [hlease] at hholds
    rcases h.holder app lease holder hholds hholder with ⟨j, hj, hlt, hrow⟩
    refine ⟨j, hj, by rw [hnext]; exact hlt, fun row hi => ?_⟩
    rcases hrun j row hi with ⟨old, hold, hsame, hepoch, -⟩
    rw [hsame.app, hepoch]
    exact hrow old hold
  · intro i row epoch hi hended hheld
    rcases hrun i row hi with ⟨old, hold, hsame, hepoch, -, -, hdead⟩
    rw [hlease, hsame.app]
    exact hdead hended epoch (hepoch.symm.trans hheld)
  · intro c row j hc hnames
    rw [hcommand] at hc
    rcases h.steps c row j hc hnames with ⟨hlt, app, epoch, happ, hepoch, hrow⟩
    refine ⟨by rw [hnext]; exact hlt, app, epoch, happ, hepoch, fun row hi => ?_⟩
    rcases hrun j row hi with ⟨old, hold, hsame, hkept, -⟩
    rw [hsame.app, hkept]
    exact hrow old hold

lemma Fenced.setRun (hstored : p.run id = some run) (hsame : SameRun run run')
    (hepoch : run'.leaseEpoch = run.leaseEpoch) (hqueued : run'.stage = .queued → run.stage = .queued)
    (hactive : run'.stage ∈ activeStages → run.leaseEpoch ≠ none)
    (hended : isTerminalStage run'.stage = true → ∀ epoch, run.leaseEpoch = some epoch →
      Dead (p.lease run.app) epoch now) : Fenced now (p.setRun id (some run')) := by
  refine h.rewrite rfl rfl rfl fun i row hi => ?_
  rcases update_eq_some.mp hi with ⟨rfl, ⟨⟩⟩ | ⟨-, hi⟩
  · exact ⟨run, hstored, hsame, hepoch, hqueued, hactive, hended⟩
  · exact ⟨row, hi, SameRun.refl row, rfl, fun hq => hq, h.active i row hi,
      fun hend epoch => h.ended i row epoch hi hend⟩

lemma Fenced.trim (id : DocId AppDeployment) : Fenced now (p.setRun id none) := by
  refine h.rewrite rfl rfl rfl fun i row hi => ?_
  have hi' := run_of_trim hi
  exact ⟨row, hi', SameRun.refl row, rfl, fun hq => hq, h.active i row hi',
    fun hend epoch => h.ended i row epoch hi' hend⟩

/-- The lease of an App is written, in its epoch, for the same holder or for none. -/
lemma Fenced.setLease (hold : p.lease app = some old) (hepoch : new.epoch = old.epoch)
    (hholder : new.holder = none ∨ new.holder = old.holder)
    (hdead : old.holder = none ∨ old.expiresAt ≤ now → new.holder = none ∨ new.expiresAt ≤ now) :
    Fenced now (p.setLease app new) := by
  have hlater : LeasesLater now p (p.setLease app new) := leasesLater_keepEpoch hold hepoch hdead
  refine ⟨h.fresh, h.queued, h.active, h.operation, ?_, h.distinct, ?_, ?_, h.steps⟩
  · intro i run epoch hi hheld
    exact hlater.granted (h.granted i run epoch hi hheld)
  · intro a lease holder hlease hholds
    rcases update_eq_some.mp hlease with ⟨rfl, ⟨⟩⟩ | ⟨-, hlease⟩
    · rcases hholder with hnone | hsame
      · rw [hnone] at hholds
        simp at hholds
      · rw [hepoch]
        exact h.holder a old holder hold (hsame.symm.trans hholds)
    · exact h.holder a lease holder hlease hholds
  · intro i run epoch hi hended hheld
    exact hlater.dead (h.ended i run epoch hi hended hheld)

lemma Fenced.create (hqueued : run.stage = .queued) (hepoch : run.leaseEpoch = none)
    (hoperation : run.operation ≠ none) : Fenced now (p.addRun run) := by
  have hold : ∀ i row, (p.addRun run).run i = some row → row ≠ run → p.run i = some row := by
    intro i row hi hne
    rcases update_eq_some.mp hi with ⟨-, ⟨⟩⟩ | ⟨-, hi⟩
    · exact absurd rfl hne
    · exact hi
  have hnone : ∀ row epoch, row.leaseEpoch = some epoch → row ≠ run := by
    rintro row epoch hheld rfl
    rw [hepoch] at hheld
    simp at hheld
  refine ⟨?_, ?_, ?_, ?_, ?_, ?_, ?_, ?_, ?_⟩
  · intro i row hi
    rcases update_eq_some.mp hi with ⟨rfl, -⟩ | ⟨-, hi⟩
    · exact Nat.lt_succ_self _
    · exact Nat.lt_succ_of_lt (h.fresh i row hi)
  · intro i row hi hstage
    by_cases hrow : row = run
    · rw [hrow, hepoch]
    · exact h.queued i row (hold i row hi hrow) hstage
  · intro i row hi hactive
    refine h.active i row (hold i row hi ?_) hactive
    rintro rfl
    rw [hqueued] at hactive
    simp [activeStages] at hactive
  · intro i row hi
    by_cases hrow : row = run
    · rw [hrow]
      exact hoperation
    · exact h.operation i row (hold i row hi hrow)
  · intro i row epoch hi hheld
    exact h.granted i row epoch (hold i row hi (hnone row epoch hheld)) hheld
  · intro i j row row' epoch hi hj happ hheld hheld'
    exact h.distinct i j row row' epoch (hold i row hi (hnone row epoch hheld))
      (hold j row' hj (hnone row' epoch hheld')) happ hheld hheld'
  · intro app lease holder hlease hholder
    rcases h.holder app lease holder hlease hholder with ⟨j, hj, hlt, hrow⟩
    exact ⟨j, hj, Nat.lt_succ_of_lt hlt, fun row hi => hrow row (run_of_addRun hlt hi)⟩
  · intro i row epoch hi hended hheld
    exact h.ended i row epoch (hold i row hi (hnone row epoch hheld)) hended hheld
  · intro c row j hc hnames
    rcases h.steps c row j hc hnames with ⟨hlt, app, epoch, happ, hheld, hrow⟩
    exact ⟨Nat.lt_succ_of_lt hlt, app, epoch, happ, hheld,
      fun row hi => hrow row (run_of_addRun hlt hi)⟩

end

lemma Names.of_later {row row' : CommandRow} (hlater : row.Later row')
    (h : Names row' id) : Names row id := by
  rcases h with hstep | hnames
  · exact .inl (hlater.deploymentId.symm.trans hstep)
  · exact .inr (hlater.command ▸ hnames)

/-- Only a run that has not ended is named by a command that is queued. -/
lemma Origin.names {input : CommandInput} (h : Origin now p input)
    (hnames : Names (queuedRow now input) id) :
    ∃ run epoch, p.run id = some run ∧ isTerminalStage run.stage = false ∧ run.leaseEpoch = some epoch ∧
      input.app = some run.app ∧ input.appEpoch = some epoch := by
  cases h with
  | plain names deploymentId =>
    rcases hnames with hstep | hcommand
    · simp [queuedRow, deploymentId] at hstep
    · simp [queuedRow, names] at hcommand
  | ofRun j run epoch names deploymentId stored isOpen app held live appEpoch =>
    have hid : j = id := by
      rcases hnames with hstep | hcommand
      · rcases deploymentId with hnone | hsome
        · simp [queuedRow, hnone] at hstep
        · simpa [queuedRow, hsome] using hstep
      · simpa [queuedRow, names] using hcommand
    subst hid
    exact ⟨run, epoch, stored, isOpen, held, app, appEpoch⟩

lemma Fenced.command {c : Commands} (h : Fenced now p)
    (hmove : CommandMove now p.lease (Origin now p) p.command c) : Fenced now { p with command := c } := by
  refine ⟨h.fresh, h.queued, h.active, h.operation, h.granted, h.distinct, h.holder, h.ended, ?_⟩
  intro i row id hi hnames
  rcases hmove.back hi with ⟨old, hold, hlater⟩ | ⟨input, -, horigin, rfl⟩
  · rw [hlater.app, hlater.appEpoch]
    exact h.steps i old id hold (hnames.of_later hlater)
  rcases horigin.names hnames with ⟨run, epoch, hstored, -, hheld, happ, hepoch⟩
  refine ⟨h.fresh id run hstored, run.app, epoch, happ, hepoch, fun run' hrun' => ?_⟩
  have hrun : p.run id = some run' := hrun'
  cases hstored.symm.trans hrun
  exact ⟨rfl, hheld⟩

/-- A queued run takes the lease in a new epoch, and goes on or gives it up. -/
lemma Fenced.begins (h : Fenced now p) (hstored : p.run id = some run) (hqueued : run.stage = .queued)
    (hgrant : decideLease (p.lease run.app) (holderOf id) now = .grant lease.epoch renewed)
    (hsame : SameRun run run') (hepoch : run'.leaseEpoch = some lease.epoch)
    (hstage : lease.holder = none ∧ run'.stage = .failed ∨
      lease.holder = some (holderOf id) ∧ run'.stage ∈ activeStages) :
    Fenced now ((p.setLease run.app lease).setRun id (some run')) := by
  have hnew := h.new_epoch hstored hqueued hgrant
  have hlater : LeasesLater now p (p.setLease run.app lease) :=
    leasesLater_setLease fun old hold => .inl (hnew old hold)
  have hself : (p.setLease run.app lease).lease run.app = some lease := by
    simp [Plane.setLease]
  have hcases : ∀ i row, ((p.setLease run.app lease).setRun id (some run')).run i = some row →
      i = id ∧ row = run' ∨ i ≠ id ∧ p.run i = some row := by
    intro i row hi
    exact (update_eq_some.mp hi).imp_left (And.imp_right fun hrow => (some.inj hrow).symm)
  -- a run of the App that had an epoch had a lower one
  have hlower : ∀ i row epoch, p.run i = some row → row.app = run.app → row.leaseEpoch = some epoch →
      epoch < lease.epoch := by
    intro i row epoch hi happ hheld
    rcases h.granted i row epoch hi hheld with ⟨old, hold, hle⟩
    exact lt_of_le_of_lt hle (hnew old (happ ▸ hold))
  refine ⟨?_, ?_, ?_, ?_, ?_, ?_, ?_, ?_, ?_⟩
  · intro i row hi
    rcases hcases i row hi with ⟨rfl, rfl⟩ | ⟨-, hi⟩
    · exact h.fresh i run hstored
    · exact h.fresh i row hi
  · intro i row hi hat
    rcases hcases i row hi with ⟨rfl, rfl⟩ | ⟨-, hi⟩
    · rcases hstage with ⟨-, hfailed⟩ | ⟨-, hactive⟩
      · rw [hfailed] at hat
        simp at hat
      · rw [hat] at hactive
        simp [activeStages] at hactive
    · exact h.queued i row hi hat
  · intro i row hi hactive
    rcases hcases i row hi with ⟨rfl, rfl⟩ | ⟨-, hi⟩
    · simp [hepoch]
    · exact h.active i row hi hactive
  · intro i row hi
    rcases hcases i row hi with ⟨rfl, rfl⟩ | ⟨-, hi⟩
    · rw [hsame.operation]
      exact h.operation i run hstored
    · exact h.operation i row hi
  · intro i row epoch hi hheld
    rcases hcases i row hi with ⟨rfl, rfl⟩ | ⟨-, hi⟩
    · cases hepoch.symm.trans hheld
      exact ⟨lease, by rw [hsame.app]; exact hself, le_rfl⟩
    · exact hlater.granted (h.granted i row epoch hi hheld)
  · intro i j row row' epoch hi hj happ hheld hheld'
    rcases hcases i row hi with ⟨hid, rfl⟩ | ⟨-, hold⟩ <;>
      rcases hcases j row' hj with ⟨hjd, rfl⟩ | ⟨-, hold'⟩
    · exact hid.trans hjd.symm
    · have hlt := hlower j row' epoch hold' (happ.symm.trans hsame.app) hheld'
      rw [hepoch, some.injEq] at hheld
      omega
    · have hlt := hlower i row epoch hold (happ.trans hsame.app) hheld
      rw [hepoch, some.injEq] at hheld'
      omega
    · exact h.distinct i j row row' epoch hold hold' happ hheld hheld'
  · intro app row holder hrow hholder
    rcases update_eq_some.mp hrow with ⟨rfl, ⟨⟩⟩ | ⟨happ, hrow'⟩
    · rcases hstage with ⟨hnone, -⟩ | ⟨hself', -⟩
      · rw [hnone] at hholder
        simp at hholder
      rw [hself', some.injEq] at hholder
      refine ⟨id, hholder.symm, h.fresh id run hstored, fun row hi => ?_⟩
      rcases hcases id row hi with ⟨-, rfl⟩ | ⟨hne, -⟩
      · exact ⟨hsame.app, hepoch⟩
      · exact absurd rfl hne
    · rcases h.holder app row holder hrow' hholder with ⟨j, hj, hlt, hrun⟩
      refine ⟨j, hj, hlt, fun row' hi => ?_⟩
      rcases hcases j row' hi with ⟨rfl, rfl⟩ | ⟨-, hi⟩
      · exact absurd (hrun run hstored).1.symm happ
      · exact hrun row' hi
  · intro i row epoch hi hended hheld
    rcases hcases i row hi with ⟨rfl, rfl⟩ | ⟨-, hi⟩
    · rcases hstage with ⟨hnone, -⟩ | ⟨-, hactive⟩
      · rw [hepoch, some.injEq] at hheld
        exact ⟨lease, by rw [hsame.app]; exact hself, .inr ⟨hheld, .inl hnone⟩⟩
      · simp [not_terminal_of_active hactive] at hended
    · exact hlater.dead (h.ended i row epoch hi hended hheld)
  · intro c row j hc hnames
    rcases h.steps c row j hc hnames with ⟨hlt, app, epoch, happ, hheld, hrun⟩
    refine ⟨hlt, app, epoch, happ, hheld, fun row' hi => ?_⟩
    rcases hcases j row' hi with ⟨rfl, rfl⟩ | ⟨-, hi⟩
    · have hnone := (hrun run hstored).2
      rw [h.queued j run hstored hqueued] at hnone
      simp at hnone
    · exact hrun row' hi

lemma Fenced.step (h : Fenced now p) (hstep : Step now p p') : Fenced now p' := by
  cases hstep with
  | command c move => exact h.command move
  | create run queued epoch operation => exact h.create queued epoch operation
  | trim id => exact h.trim id
  | touch id run run' stored same stage epoch =>
    exact h.setRun stored same epoch (fun hq => stage.symm.trans hq)
      (fun hactive => h.active id run stored (stage ▸ hactive))
      fun hended epoch => h.ended id run epoch stored (stage ▸ hended)
  | lose id run run' stored isOpen same lost stage epoch =>
    refine h.setRun stored same epoch (fun hq => ?_) (fun hactive => ?_) fun _ epoch hheld => ?_
    · rw [stage] at hq
      simp at hq
    · rw [stage] at hactive
      simp [activeStages] at hactive
    · rcases h.granted id run epoch stored hheld with ⟨lease, hlease, hle⟩
      have hlost := lost epoch hheld
      rw [hlease] at hlost ⊢
      exact dead_of_not_admits hle hlost
  | advance id run run' held same active epoch =>
    refine h.setRun held.stored same epoch (fun hq => ?_)
      (fun _ => h.active id run held.stored held.active) fun hended => ?_
    · rw [hq] at active
      simp [activeStages] at active
    · simp [not_terminal_of_active active] at hended
  | extend id run lease held stored =>
    exact h.setLease stored rfl (.inr rfl) fun hdead => absurd hdead (held.lease_live stored)
  | finish id run run' lease held stored same ended epoch =>
    have hgiven : Fenced now (p.setLease run.app { lease with holder := none, operation := none }) :=
      h.setLease stored rfl (.inl rfl) fun _ => .inl rfl
    refine hgiven.setRun held.stored same epoch (fun hq => ?_) (fun hactive => ?_)
      fun _ epoch' hheld => ?_
    · rw [hq] at ended
      simp [isTerminalStage] at ended
    · simp [not_terminal_of_active hactive] at ended
    rcases held.live with ⟨epoch'', hheld', hadmits⟩
    rcases leaseAdmits_iff.mp hadmits with ⟨row, hrow, -, hat, -⟩
    cases stored.symm.trans hrow
    rw [hheld, some.injEq] at hheld'
    exact ⟨{ lease with holder := none, operation := none }, by simp [Plane.setLease],
      .inr ⟨hat.trans hheld'.symm, .inl rfl⟩⟩
  | write | remove =>
    exact ⟨h.fresh, h.queued, h.active, h.operation, h.granted, h.distinct, h.holder, h.ended, h.steps⟩

lemma Fenced.move (h : Fenced now p) (hmove : Move now p p') : Fenced now p' := by
  rcases hmove with hstep | ⟨id, hbegins⟩
  · exact h.step hstep
  cases hbegins with
  | start run run' lease renewed stored queued operation granted app holder expiry same active epoch =>
    exact h.begins stored queued granted same epoch (.inr ⟨holder, active⟩)
  | refuse run run' lease renewed stored queued operation granted app holder same failed epoch =>
    exact h.begins stored queued granted same epoch (.inl ⟨holder, failed⟩)

end EraInfra.Infra
