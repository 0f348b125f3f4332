import EraInfra.Infra.RunMoves

/-!
# Claims of Node commands

What moves do to commands, whatever else happens: a Node has one live claim at a time (`Exclusive`),
and a row only ever becomes a `Later` one.  Both are shown for one change of one row, and carried
along by `CommandMoves`.

The result is about every interleaving of the calls of the system with queueing as any caller may
do it, and with the clean-up of any run at any time.
-/

namespace EraInfra.Infra

open DocStore Option Table CommandRow Function

variable {db db' : Db} {env : Environment} {now : ℤ} {c c' : Commands}

/-! ## One change -/

/-- At a time, at most one command of a Node is running with its lease in the future. -/
def Exclusive (c : Commands) (t : ℤ) : Prop :=
  ∀ i j row row', c i = some row → c j = some row' → row.nodeId = row'.nodeId →
    row.isLeased t = true → row'.isLeased t = true → i = j

/-- What a command's row may be at a later time. -/
structure CommandRow.Later (row row' : CommandRow) : Prop where
  nodeId : row'.nodeId = row.nodeId
  key : row'.idempotencyKey = row.idempotencyKey
  command : row'.command = row.command
  app : row'.app = row.app
  appEpoch : row'.appEpoch = row.appEpoch
  deploymentId : row'.deploymentId = row.deploymentId
  epoch : row.epoch ≤ row'.epoch
  owner : row'.epoch = row.epoch → row'.owner = row.owner
  final : row.isOpen = false → row'.status = row.status

lemma CommandRow.Later.refl (row : CommandRow) : row.Later row :=
  ⟨rfl, rfl, rfl, rfl, rfl, rfl, le_rfl, fun _ => rfl, fun _ => rfl⟩

variable {row row' : CommandRow} {t : ℤ} {lease : String → Option AppLease}
  {origin : CommandInput → Prop} {i : DocId CommandRow}

lemma CommandRow.isOpen_congr (h : row'.status = row.status) : row'.isOpen = row.isOpen := by
  simp only [isOpen, h]

lemma CommandRow.Later.isOpen_eq_false (h : row.Later row')
    (hended : row.isOpen = false) : row'.isOpen = false := by
  rw [isOpen_congr (h.final hended), hended]

lemma CommandRow.Later.trans {row'' : CommandRow} (h : row.Later row')
    (h' : row'.Later row'') : row.Later row'' := by
  refine ⟨h'.nodeId.trans h.nodeId, h'.key.trans h.key, h'.command.trans h.command,
    h'.app.trans h.app, h'.appEpoch.trans h.appEpoch, h'.deploymentId.trans h.deploymentId,
    h.epoch.trans h'.epoch, ?_, ?_⟩
  · intro hepoch
    have hle := h'.epoch
    have hle' := h.epoch
    rw [h'.owner (by omega), h.owner (by omega)]
  · intro hended
    have hfinal := h.final hended
    rw [h'.final ((isOpen_congr hfinal).trans hended), hfinal]

lemma CommandRow.isOpen_of_isLeased (h : row.isLeased t = true) : row.isOpen = true := by
  simp only [isLeased, Bool.and_eq_true] at h
  simp [isOpen, h.1]

lemma later_cancelledRow (hopen : row.isOpen = true) : row.Later (cancelledRow now row) :=
  ⟨rfl, rfl, rfl, rfl, rfl, rfl, le_rfl, fun _ => rfl, fun hended => by simp [hopen] at hended⟩

lemma later_claimedRow (owner : String) (hopen : row.isOpen = true) :
    row.Later (claimedRow now owner row) :=
  ⟨rfl, rfl, rfl, rfl, rfl, rfl, by simp [claimedRow], by simp [claimedRow],
    fun hended => by simp [hopen] at hended⟩

lemma later_renewedRow (row : CommandRow) : row.Later (renewedRow now row) :=
  ⟨rfl, rfl, rfl, rfl, rfl, rfl, le_rfl, fun _ => rfl, fun _ => rfl⟩

lemma later_reportedRow (outcome : CommandOutcome) (spec : Option String)
    (hopen : row.isOpen = true) : row.Later (reportedRow now outcome spec row) :=
  ⟨rfl, rfl, rfl, rfl, rfl, rfl, le_rfl, fun _ => rfl, fun hended => by simp [hopen] at hended⟩

/-- A lease that is in the future later on is in the future now. -/
lemma CommandRow.isLeased_anti {t' : ℤ} (hle : t ≤ t')
    (h : row.isLeased t' = true) : row.isLeased t = true := by
  simp only [isLeased, Bool.and_eq_true, decide_eq_true_eq] at h ⊢
  exact ⟨h.1, lt_of_le_of_lt hle h.2⟩

lemma Exclusive.mono {t' : ℤ} (h : Exclusive c t) (hle : t ≤ t') : Exclusive c t' :=
  fun i j row row' hi hj hnode hrow hrow' => h i j row row' hi hj hnode
    (isLeased_anti hle hrow) (isLeased_anti hle hrow')

/-- Writing a row that is not leased, or whose predecessor was, brings no second claim. -/
lemma Exclusive.update {id : DocId CommandRow} {new : CommandRow} (h : Exclusive c t)
    (hnew : new.isLeased t = true → ∀ j row, c j = some row → j ≠ id → row.nodeId = new.nodeId →
      row.isLeased t = false) : Exclusive (update c id (some new)) t := by
  intro i j row row' hi hj hnode hrow hrow'
  rcases update_eq_some.mp hi with ⟨rfl, ⟨⟩⟩ | ⟨hne, hold⟩ <;>
    rcases update_eq_some.mp hj with ⟨rfl, ⟨⟩⟩ | ⟨hne', hold'⟩
  · rfl
  · simp [hnew hrow j row' hold' hne' hnode.symm] at hrow'
  · simp [hnew hrow' i row hold hne hnode] at hrow
  · exact h i j row row' hold hold' hnode hrow hrow'

section

variable (hmove : CommandMove now lease origin c c')

include hmove

lemma CommandMove.exclusive (h : Exclusive c now) : Exclusive c' now := by
  cases hmove with
  | queue id input => exact h.update fun hleased => by simp [isLeased, queuedRow] at hleased
  | cancel id row =>
    exact h.update fun hleased => by simp [isLeased, cancelledRow] at hleased
  | claim id row owner stored isOpen free alone => exact h.update fun _ => alone
  | renew id row stored leased =>
    -- whoever else is leased would have been a second claim before
    refine h.update fun _ j other hother hne hnode => ?_
    by_contra hleased
    exact hne (h j id other row hother stored hnode (by simpa using hleased) leased)
  | report id row outcome spec =>
    refine h.update fun hleased => ?_
    cases outcome <;> simp [isLeased, reportedRow, CommandOutcome.status] at hleased

/-- A row of a changed table was there before, or has just been queued. -/
lemma CommandMove.later (hi : c i = some row) : ∃ row', c' i = some row' ∧ row.Later row' := by
  have hupdate : ∀ id old new, c id = some old → old.Later new →
      ∃ row', update c id (some new) i = some row' ∧ row.Later row' := by
    intro id old new hid hlater
    by_cases hne : i = id
    · subst hne
      cases hi.symm.trans hid
      exact ⟨new, update_self .., hlater⟩
    · exact ⟨row, by rw [update_of_ne hne, hi], CommandRow.Later.refl row⟩
  cases hmove with
  | queue id input fresh =>
    have hne : i ≠ id := by
      rintro rfl
      rw [hi] at fresh
      simp at fresh
    exact ⟨row, by rw [update_of_ne hne, hi], CommandRow.Later.refl row⟩
  | cancel id old stored isOpen => exact hupdate id old _ stored (later_cancelledRow isOpen)
  | claim id old owner stored isOpen => exact hupdate id old _ stored (later_claimedRow owner isOpen)
  | renew id old stored => exact hupdate id old _ stored (later_renewedRow old)
  | report id old outcome spec stored leased =>
    exact hupdate id old _ stored (later_reportedRow outcome spec (isOpen_of_isLeased leased))

/-- A row after a change was there before, or is the one that was queued. -/
lemma CommandMove.back (hi : c' i = some row') : (∃ row, c i = some row ∧ row.Later row') ∨
      ∃ input, c i = none ∧ origin input ∧ row' = queuedRow now input := by
  cases hold : c i with
  | some row =>
    rcases hmove.later hold with ⟨row'', hrow'', hlater⟩
    rw [hi, some.injEq] at hrow''
    exact .inl ⟨row, rfl, hrow'' ▸ hlater⟩
  | none =>
    have hnone : ∀ id old new, c id = some old → update c id (some new) i ≠ some row' := by
      intro id old new hid hnew
      rcases update_eq_some.mp hnew with ⟨rfl, -⟩ | ⟨-, hnew⟩
      · cases hold.symm.trans hid
      · cases hold.symm.trans hnew
    cases hmove with
    | queue id input fresh key horigin =>
      rcases update_eq_some.mp hi with ⟨-, ⟨⟩⟩ | ⟨-, hi⟩
      · exact .inr ⟨input, rfl, horigin, rfl⟩
      · cases hold.symm.trans hi
    | cancel id old stored | claim id old owner stored | renew id old stored
    | report id old outcome spec stored => exact absurd hi (hnone id old _ stored)

end

/-! ## Some changes -/

/-- Some changes of commands, under any leases and of any origin. -/
def CommandMoves (now : ℤ) : Commands → Commands → Prop :=
  Relation.ReflTransGen fun c c' => ∃ lease, CommandMove now lease (fun _ => True) c c'

lemma CommandMoves.exclusive (hmoves : CommandMoves now c c') (h : Exclusive c now) :
    Exclusive c' now := by
  induction hmoves with
  | refl => exact h
  | tail _ hmove ih =>
    rcases hmove with ⟨lease, hmove⟩
    exact hmove.exclusive ih

lemma CommandMoves.later (hmoves : CommandMoves now c c')
    (hi : c i = some row) : ∃ row', c' i = some row' ∧ row.Later row' := by
  induction hmoves with
  | refl => exact ⟨row, hi, CommandRow.Later.refl row⟩
  | tail _ hmove ih =>
    rcases hmove with ⟨lease, hmove⟩
    rcases ih with ⟨row', hrow', hlater⟩
    rcases hmove.later hrow' with ⟨row'', hrow'', hlater'⟩
    exact ⟨row'', hrow'', hlater.trans hlater'⟩

lemma CommandMove.mono {origin' : CommandInput → Prop}
    (hle : ∀ input, origin input → origin' input) (hmove : CommandMove now lease origin c c') :
    CommandMove now lease origin' c c' := by
  cases hmove with
  | queue id input fresh key horigin => exact .queue id input fresh key (hle input horigin)
  | cancel id row stored isOpen => exact .cancel id row stored isOpen
  | claim id row owner stored isOpen free alone fenced =>
    exact .claim id row owner stored isOpen free alone fenced
  | renew id row stored leased fenced => exact .renew id row stored leased fenced
  | report id row outcome spec stored leased fenced =>
    exact .report id row outcome spec stored leased fenced

/-- What a move does to the commands: nothing, or one change. -/
lemma Move.command_cases {p p' : Plane} (hmove : Move now p p') :
    p'.command = p.command ∨ CommandMove now p.lease (Origin now p) p.command p'.command := by
  rcases hmove with hstep | ⟨id, hbegins⟩
  · cases hstep with
    | command c move => exact .inr move
    | _ => exact .inl rfl
  · cases hbegins with
    | start | refuse => exact .inl rfl

lemma Moves.commands {p p' : Plane} (hmoves : Moves now p p') :
    CommandMoves now p.command p'.command := by
  induction hmoves with
  | refl => exact Relation.ReflTransGen.refl
  | tail _ hmove ih =>
    rcases hmove.command_cases with hsame | hmove
    · rw [hsame]
      exact ih
    · exact Relation.ReflTransGen.tail ih ⟨_, hmove.mono fun _ _ => trivial⟩

/-! ## Interleavings -/

/-- What may happen to the commands: a call of the system, a command that any caller queues, or the
clean-up of a run. -/
inductive CommandCall
  | call (call : Call)
  | insert (input : CommandInput)
  | cleanUp (id : DocId AppDeployment)

def performCommand (env : Environment) (now : ℤ) (call : CommandCall) (db : Db) : Result Db :=
  match call with
  | .call call => perform env now call db
  | .insert input => (insertNodeCommand now input db).map Prod.snd
  | .cleanUp id => pure (cleanUpStored now id db)

structure CommandEvent where
  now : ℤ
  env : Environment
  call : CommandCall

/-- A refused call changes nothing. -/
def commandStep (s : System) (e : CommandEvent) : System :=
  ⟨DocStore.commit s.db (performCommand e.env e.now e.call s.db), e.now⟩

/-- The clock does not go back. -/
def CommandForward (s : System) (e : CommandEvent) : Prop := s.clock ≤ e.now

instance (s : System) (e : CommandEvent) : Decidable (CommandForward s e) := by
  unfold CommandForward
  infer_instance

lemma performCommand_moves {call : CommandCall} (h : performCommand env now call db = .ok db') :
    CommandMoves now db.nodeCommands.get db'.nodeCommands.get := by
  cases call with
  | call call => exact (perform_moves h).commands
  | insert input =>
    rcases map_snd_ok.mp h with ⟨id, hinsert⟩
    rcases insertNodeCommand_ok hinsert with ⟨rfl, -⟩ | ⟨-, rfl, hkey⟩
    · exact Relation.ReflTransGen.refl
    · refine Relation.ReflTransGen.single ⟨db.lease, ?_⟩
      rw [get_insert_update]
      exact CommandMove.queue _ input get_next hkey trivial
  | cleanUp id =>
    cases h
    exact cleanUpStored_steps.moves.commands

lemma commandStep_moves (s : System) (e : CommandEvent) :
    CommandMoves e.now s.db.nodeCommands.get (commandStep s e).db.nodeCommands.get := by
  refine commit_rule (P := fun db => CommandMoves e.now s.db.nodeCommands.get db.nodeCommands.get)
    ?_ fun _ h => performCommand_moves h
  exact Relation.ReflTransGen.refl

lemma exclusive_run {start : System} {events : List CommandEvent}
    (hstart : Exclusive start.db.nodeCommands.get start.clock)
    (hforward : Meets commandStep start CommandForward events) :
    Exclusive (run commandStep start events).db.nodeCommands.get (run commandStep start events).clock :=
  run_invariant_of_meets (fun _ s => Exclusive s.db.nodeCommands.get s.clock) hstart
    (fun _ e h hnow => (commandStep_moves _ e).exclusive (h.mono hnow)) events hforward

lemma later_run (s : System) (events : List CommandEvent) (hi : s.db.nodeCommands.get i = some row) :
    ∃ row', (run commandStep s events).db.nodeCommands.get i = some row' ∧ row.Later row' := by
  induction events generalizing s row with
  | nil => exact ⟨row, hi, CommandRow.Later.refl row⟩
  | cons e events ih =>
    rcases (commandStep_moves s e).later hi with ⟨row', hrow', hlater⟩
    rcases ih (commandStep s e) hrow' with ⟨row'', hrow'', hlater'⟩
    exact ⟨row'', hrow'', hlater.trans hlater'⟩

/-- A report that changes a row is made under that row's live claim. -/
lemma report_changes {args : ReportArgs} (h : report env now args db = .ok db')
    (hi : db'.nodeCommands.get i ≠ db.nodeCommands.get i) :
    ∃ row, i = args.commandId ∧ db.nodeCommands.get i = some row ∧
      requireNode env args.credential db = .ok row.nodeId ∧ row.isLeased now = true ∧
      row.owner = some args.owner ∧ row.epoch = args.epoch ∧ InFence db.lease now row := by
  rcases report_ok h with ⟨rfl, -⟩ | ⟨row, stored, hclaimed, hstored, rfl⟩
  · exact absurd rfl hi
  rcases claimed_ok hclaimed with ⟨hrow, hnode, hleased, howner, hepoch, hfence⟩
  have hsame : i = args.commandId := by
    by_contra hne
    rw [Db.patchCommand, get_patch_ne hne, nodeCommands_of_stored hstored] at hi
    exact hi rfl
  subst hsame
  exact ⟨row, rfl, hrow, hnode, hleased, howner, hepoch, inFence_of_appFence hfence⟩

/-- A command whose report was accepted has ended. -/
lemma report_ended {args : ReportArgs} (h : report env now args db = .ok db') :
    ∃ row, db'.nodeCommands.get args.commandId = some row ∧ row.isOpen = false := by
  have hended : ∀ row : CommandRow, row.status = args.outcome.status → row.isOpen = false := by
    intro row hrow
    cases houtcome : args.outcome <;> simp [isOpen, hrow, houtcome, CommandOutcome.status]
  rcases report_ok h with ⟨rfl, row, hrow, hstatus⟩ | ⟨row, stored, hclaimed, hstored, rfl⟩
  · exact ⟨row, hrow, hended row hstatus⟩
  · refine ⟨reportedRow now args.outcome args.spec row, ?_, hended _ rfl⟩
    rw [Db.patchCommand, nodeCommands_of_stored hstored, get_patch_self,
      (claimed_ok hclaimed).1, map_some]

/-- **Claims are exclusive and final.**  However calls interleave, starting from commands of which each
Node has at most one live claim: at any time from the last call on each Node has at most one
command that is running with its lease in the future; a command's epoch only grows, an epoch has
one owner, and a row that has ended keeps its status; and a report that changes a row is made
for its Node, by the owner and in the epoch of its live claim, while the row's App epoch, if it
has one, is its App's live lease. -/
theorem claims_exclusive_and_final (start : System) (events : List CommandEvent)
    (hstart : Exclusive start.db.nodeCommands.get start.clock)
    (hforward : Meets commandStep start CommandForward events) :
    (∀ t, (run commandStep start events).clock ≤ t →
      Exclusive (run commandStep start events).db.nodeCommands.get t) ∧
    (∀ before after i row, events = before ++ after →
      (run commandStep start before).db.nodeCommands.get i = some row →
      ∃ row', (run commandStep start events).db.nodeCommands.get i = some row' ∧
        row.epoch ≤ row'.epoch ∧ (row'.epoch = row.epoch → row'.owner = row.owner) ∧
        (row.status ≠ .pending ∧ row.status ≠ .running → row'.status = row.status)) ∧
    ∀ before now env args after i,
      events = before ++ ⟨now, env, .call (.report args)⟩ :: after →
      (run commandStep start (before ++ [⟨now, env, .call (.report args)⟩])).db.nodeCommands.get i
        ≠ (run commandStep start before).db.nodeCommands.get i →
      ∃ row, i = args.commandId ∧
        (run commandStep start before).db.nodeCommands.get i = some row ∧
        requireNode env args.credential (run commandStep start before).db = .ok row.nodeId ∧
        row.isLeased now = true ∧ row.owner = some args.owner ∧ row.epoch = args.epoch ∧
        ∀ app epoch, row.app = some app → row.appEpoch = some epoch →
          leaseAdmits ((run commandStep start before).db.lease app) epoch now = true := by
  refine ⟨fun t ht => (exclusive_run hstart hforward).mono ht, ?_, ?_⟩
  · rintro before after i row rfl hi
    rw [run_append]
    rcases later_run _ after hi with ⟨row', hrow', hlater⟩
    refine ⟨row', hrow', hlater.epoch, hlater.owner, ?_⟩
    rintro ⟨hpending, hrunning⟩
    exact hlater.final (by simp [isOpen, hpending, hrunning])
  · rintro before now env args after i rfl hi
    rw [run_snoc] at hi
    simp only [commandStep, performCommand, perform] at hi
    cases hreport : report env now args (run commandStep start before).db with
    | error message =>
      rw [hreport] at hi
      exact absurd rfl hi
    | ok reported =>
      rw [hreport] at hi
      exact report_changes hreport hi

/-- A Node with two commands: it claims the first, is refused the second, and reports. -/
def twoCommands : List CommandEvent :=
  let args := fun key => (⟨0, key, .operate ⟨"disk.usage", []⟩, none, none, none⟩ : CommandInput)
  [⟨0, plainEnvironment, .insert (args "first")⟩,
    ⟨0, plainEnvironment, .insert (args "second")⟩,
    ⟨0, plainEnvironment, .call (.outside (.insert .empty ⟨0, "credential", none⟩) .empty .empty
      .empty)⟩,
    ⟨1, plainEnvironment, .call (.claim "credential" 0 "agent")⟩,
    ⟨2, plainEnvironment, .call (.claim "credential" 1 "agent")⟩,
    ⟨3, plainEnvironment, .call (.report ⟨⟨"credential", 0, "agent", 1⟩, .success, none, none, none⟩)⟩]

theorem claims_exclusive_and_final_of_twoCommands :
    (run commandStep ⟨emptyDb, 0⟩ twoCommands).db.nodeCommands.rows.map
        (fun row => (row.2.status, row.2.epoch)) = [(.success, 1), (.pending, 0)] ∧
      Exclusive (run commandStep ⟨emptyDb, 0⟩ twoCommands).db.nodeCommands.get 3 := by
  refine ⟨by decide, ?_⟩
  have hclaims := claims_exclusive_and_final ⟨emptyDb, 0⟩ twoCommands
    (fun i j row row' hi => by simp [emptyDb] at hi) (by decide)
  exact hclaims.1 3 (by decide)

end EraInfra.Infra
