import EraInfra.Backend.Webhooks
import EraInfra.Core.Run

/-!
# Webhook deliveries over whole runs

A delivery is scheduled for processing when it arrives and again by every retry, and a run of the
processor may roll back after it has done most of its work.  That its event is nevertheless applied
at most once rests on one field: `processDelivery` acts on a `pending` row only, and the
transaction that applies the event is the one that settles the row.

The same row carries the retry budget.  `attempts` is the number of retries for as long as the row
is pending (`DeliveryLedger.spent`), so the `k`-th retry is scheduled by a pass that read `k - 1`,
and the due time such a pass compares its clock with is `receivedAt + k * deliveryRetryAfterMs`.

A run here is any list of intakes, processor runs and retry passes with any clock readings, and of
other transactions that write any other table in between (`IntakeOp.elsewhere`).
-/

namespace EraInfra

open DocStore List Option Table

section

variable (js : Engine) (env : IntakeEnv)

inductive IntakeOp
  | recordDelivery (args : RecordDeliveryArgs)
  /-- A run of the processor; `fails` when something other than the code itself rolls it back. -/
  | processDelivery (deliveryId : DocId WebhookDelivery) (fails : Bool)
  | retryStalledDeliveries
  /-- Any other transaction: deliveries are written by the three above only. -/
  | elsewhere (write : Db → Db)

structure IntakeCall where
  now : ℤ
  op : IntakeOp

variable (calls : List IntakeCall)

/-- The database a call commits. -/
def performIntake (c : IntakeCall) (db : Db) : Result Db :=
  match c.op with
  | .recordDelivery args => (recordDelivery c.now args db).map Prod.snd
  | .processDelivery deliveryId false =>
    (processDelivery js env c.now deliveryId db).map Prod.snd
  | .processDelivery _ true => throw (.internal "interrupted")
  | .retryStalledDeliveries => pure (retryStalledDeliveries c.now db).db
  | .elsewhere write => pure { write db with webhookDeliveries := db.webhookDeliveries }

def stepIntake (db : Db) (c : IntakeCall) : Db := commit db (performIntake js env c db)

/-- The database after a run from an empty deployment. -/
def afterIntake : Db := run (stepIntake js env) .empty calls

/-! ## What an observer notes -/

/-- The delivery id whose event a call applied, when it did. -/
def appliedBy (db : Db) (c : IntakeCall) : List String :=
  match c.op with
  | .processDelivery deliveryId false =>
    match processDelivery js env c.now deliveryId db, db.webhookDeliveries.get deliveryId with
    | .ok (some _, _), some delivery => [delivery.deliveryId]
    | _, _ => []
  | _ => []

/-- The deliveries a call scheduled to be processed again, and when. -/
def retriedBy (db : Db) (c : IntakeCall) : List (DocId WebhookDelivery × ℤ) :=
  match c.op with
  | .retryStalledDeliveries => (retryStalledDeliveries c.now db).retried.map fun i => (i, c.now)
  | _ => []

/-- The delivery ids whose events a run applied, one entry per application. -/
def applications : List String := trace (stepIntake js env) (appliedBy js env) .empty calls

/-- When a run scheduled retries of a delivery, in the order it did. -/
def retryTimes (i : DocId WebhookDelivery) : List ℤ :=
  ((trace (stepIntake js env) retriedBy .empty calls).filter fun r => r.1 = i).map Prod.snd

end

variable {js : Engine} {env : IntakeEnv} {calls : List IntakeCall} {c : IntakeCall}
  {db db' : Db} {now : ℤ} {i j : DocId WebhookDelivery} {a b : WebhookDelivery}

lemma applications_snoc : applications js env (calls ++ [c])
      = applications js env calls ++ appliedBy js env (afterIntake js env calls) c :=
  trace_snoc

lemma retryTimes_snoc : retryTimes js env (calls ++ [c]) i = retryTimes js env calls i ++
      ((retriedBy (afterIntake js env calls) c).filter fun r => r.1 = i).map Prod.snd := by
  rw [retryTimes, trace_snoc, filter_append, map_append]
  rfl

/-! ## What one call does to one row -/

/-- A pass of the retries that has reached a delivery's due time, with budget left. -/
structure Retries (now : ℤ) (a b : WebhookDelivery) : Prop where
  pending : a.status = .pending
  due : deliveryRetryDueAt a ≤ now
  left : a.attempts + 1 < maxDeliveryAttempts
  row : b = { a with attempts := a.attempts + 1 }

/-- A pending delivery is settled: its row keeps what identifies it and is pending no more. -/
structure Settles (a b : WebhookDelivery) : Prop where
  pending : a.status = .pending
  settled : b.status ≠ .pending
  deliveryId : b.deliveryId = a.deliveryId
  receivedAt : b.receivedAt = a.receivedAt

/-- What a retry pass sees and notes of one delivery. -/
def retryView (i : DocId WebhookDelivery) (s : RetryTally) : Option WebhookDelivery × ℕ :=
  (s.db.webhookDeliveries.get i, s.retried.count i)

/-- How a retry pass moves that view. -/
def RetryChange (now : ℤ) (v w : Option WebhookDelivery × ℕ) : Prop :=
  ∃ a b, v.1 = some a ∧ w.1 = some b ∧ (Retries now a b ∧ w.2 = v.2 + 1 ∨ Settles a b ∧ w.2 = v.2)

lemma retryDelivery_view {s : RetryTally} (hpending : a.status = .pending)
    (hfound : s.db.webhookDeliveries.get i = some a) (j : DocId WebhookDelivery) :
    retryView j (retryDelivery now s (i, a)) = retryView j s ∨
      j = i ∧ RetryChange now (retryView j s) (retryView j (retryDelivery now s (i, a))) := by
  unfold retryDelivery
  dsimp only
  split
  · exact .inl rfl
  rename_i hdue
  by_cases hj : j = i
  · subst hj
    refine .inr ⟨rfl, a, ?_⟩
    split
    · refine ⟨{ a with
          status := .failed
          attempts := a.attempts + 1
          lastError := some s!"Gave up after {a.attempts + 1} attempts"
          settledAt := some now }, hfound, by simp [retryView, hfound],
        .inr ⟨⟨hpending, by simp, rfl, rfl⟩, rfl⟩⟩
    · rename_i hleft
      exact ⟨{ a with attempts := a.attempts + 1 }, hfound, by simp [retryView, hfound],
        .inl ⟨⟨hpending, not_lt.mp hdue, not_le.mp hleft, rfl⟩, by simp [retryView]⟩⟩
  · split
    · simp [retryView, get_patch_ne hj]
    · simp [retryView, get_patch_ne hj, Ne.symm hj]

/-- **A retry pass, row by row.**  A delivery is left alone, scheduled once, or given up. -/
theorem retryStalledDeliveries_view (now : ℤ) (db : Db) (j : DocId WebhookDelivery) :
    retryView j (retryStalledDeliveries now db) = (db.webhookDeliveries.get j, 0) ∨
      RetryChange now (db.webhookDeliveries.get j, 0)
        (retryView j (retryStalledDeliveries now db)) := by
  have key := foldlM_each retryView (fun r j => j = r.1) (fun _ => True)
    (fun _ v w => RetryChange now v w)
    (l := (db.webhookDeliveries.collect fun row => row.status = .pending).take 50)
    ((collect_nodup.sublist (take_sublist _ _)).imp fun hne k hk hk' => hne (hk.symm.trans hk')) ?_
    trivial (foldlM_ok (retryDelivery now) ⟨db, [], 0⟩)
  · rcases key.2 j with hj | ⟨-, hj⟩
    · exact .inl hj
    · exact .inr hj
  rintro ⟨i, a⟩ hmem s _ - hown ⟨⟩
  obtain ⟨hget, hpending⟩ := mem_collect.mp (mem_of_mem_take hmem)
  have hfound : s.db.webhookDeliveries.get i = some a := (congrArg Prod.fst (hown i rfl)).trans hget
  exact ⟨trivial, retryDelivery_view (by simpa using hpending) hfound⟩

variable {applied : Option WorkflowJobEvent} {times : List ℤ}

/-- A run of the processor does nothing, or settles the row it was scheduled for. -/
lemma processDelivery_cases (h : processDelivery js env now i db = .ok (applied, db')) :
    (applied = none ∧ db' = db) ∨ ∃ a b, db.webhookDeliveries.get i = some a ∧ Settles a b ∧
        ∀ j, db'.webhookDeliveries.get j =
          if j = i then some b else db.webhookDeliveries.get j := by
  unfold processDelivery at h
  split at h
  · cases h
    exact .inl ⟨rfl, rfl⟩
  rename_i a hget
  have hpatched : ∀ (db₁ : Db) f, db₁.webhookDeliveries = db.webhookDeliveries → ∀ j,
      (db₁.patchDelivery i f).webhookDeliveries.get j =
        if j = i then some (f a) else db.webhookDeliveries.get j := by
    intro db₁ f hsame j
    show (db₁.webhookDeliveries.patch i f).get j = _
    rw [hsame, get_patch]
    split
    · rename_i hj
      rw [hj, hget, map_some]
    · rfl
  split at h
  · cases h
    exact .inl ⟨rfl, rfl⟩
  rename_i hpending
  have hpending : a.status = .pending := not_not.mp hpending
  right
  have hrejected : ∀ reason, Settles a (rejectedDelivery now reason a) :=
    fun _ => ⟨hpending, by simp [rejectedDelivery], rfl, rfl⟩
  split at h
  · cases h
    exact ⟨a, _, hget, hrejected _, hpatched db _ rfl⟩
  split at h
  · cases h
    exact ⟨a, _, hget, hrejected _, hpatched db _ rfl⟩
  obtain ⟨db₁, happlied, h⟩ := bind_ok.mp h
  cases h
  exact ⟨a, processedDelivery now a.attempts a, hget, ⟨hpending, by simp [processedDelivery], rfl, rfl⟩,
    hpatched db₁ _ (webhookDeliveries_applyWorkflowJob happlied)⟩

/-- No two rows carry one delivery id. -/
def UniqueDeliveries (db : Db) : Prop :=
  ∀ i j a b, db.webhookDeliveries.get i = some a → db.webhookDeliveries.get j = some b →
    a.deliveryId = b.deliveryId → i = j

/-- What one call does to one row of the deliveries, and what an observer notes of it. -/
inductive RowStep (js : Engine) (env : IntakeEnv) (db : Db) (c : IntakeCall) (db' : Db)
    (i : DocId WebhookDelivery) : Prop
  /-- The row, if there is one, is as it was; it was neither applied nor retried. -/
  | same (row : db'.webhookDeliveries.get i = db.webhookDeliveries.get i)
      (applied : ∀ a, db.webhookDeliveries.get i = some a → a.deliveryId ∉ appliedBy js env db c)
      (retried : (retriedBy db c).filter (fun r => r.1 = i) = [])
  /-- The delivery arrived just now. -/
  | arrived (args : RecordDeliveryArgs) (op : c.op = .recordDelivery args)
      (fresh : i = db.webhookDeliveries.next)
      (unseen : ∀ j b, db.webhookDeliveries.get j = some b → b.deliveryId ≠ args.deliveryId)
      (row : db'.webhookDeliveries.get i = some (recordedDelivery c.now args))
  | retried (a b : WebhookDelivery) (before : db.webhookDeliveries.get i = some a)
      (row : db'.webhookDeliveries.get i = some b) (retries : Retries c.now a b)
      (applied : appliedBy js env db c = [])
      (times : (retriedBy db c).filter (fun r => r.1 = i) = [(i, c.now)])
  | settled (a b : WebhookDelivery) (before : db.webhookDeliveries.get i = some a)
      (row : db'.webhookDeliveries.get i = some b) (settles : Settles a b)
      (applied : appliedBy js env db c = [] ∨ appliedBy js env db c = [a.deliveryId])
      (retried : (retriedBy db c).filter (fun r => r.1 = i) = [])

lemma recordDelivery_row {args : RecordDeliveryArgs} {duplicate : Bool}
    (hop : c.op = .recordDelivery args)
    (h : recordDelivery c.now args db = .ok (duplicate, db')) : RowStep js env db c db' i := by
  have happlied : appliedBy js env db c = [] := by simp [appliedBy, hop]
  have hretried : retriedBy db c = [] := by simp [retriedBy, hop]
  obtain ⟨found, hfound, h⟩ := bind_ok.mp h
  split at h
  · cases h
    exact .same rfl (by simp [happlied]) (by simp [hretried])
  cases h
  by_cases hi : i = db.webhookDeliveries.next
  · refine .arrived args hop hi (fun j b hj heq => ?_) (by simp [hi, get_insert])
    simpa [heq] using not_of_unique_none hfound hj
  · exact .same (by simp [get_insert, hi]) (by simp [happlied]) (by simp [hretried])

lemma processDelivery_row {target : DocId WebhookDelivery} (hunique : UniqueDeliveries db)
    (hop : c.op = .processDelivery target false)
    (h : processDelivery js env c.now target db = .ok (applied, db')) :
    RowStep js env db c db' i := by
  have hretried : retriedBy db c = [] := by simp [retriedBy, hop]
  rcases processDelivery_cases h with ⟨rfl, rfl⟩ | ⟨a, b, hget, hsettles, hrows⟩
  · have happlied : appliedBy js env db' c = [] := by simp [appliedBy, hop, h]
    exact .same rfl (by simp [happlied]) (by simp [hretried])
  have happlied : appliedBy js env db c = [] ∨ appliedBy js env db c = [a.deliveryId] := by
    cases applied <;> simp [appliedBy, hop, h, hget]
  by_cases hi : i = target
  · subst hi
    exact .settled a b hget (by rw [hrows, if_pos rfl]) hsettles happlied (by simp [hretried])
  refine .same (by rw [hrows, if_neg hi]) (fun a' ha' hmem => hi ?_) (by simp [hretried])
  rcases happlied with happlied | happlied
  · simp [happlied] at hmem
  · rw [happlied, mem_singleton] at hmem
    exact hunique i target a' a ha' hget hmem

lemma retryStalledDeliveries_row (hop : c.op = .retryStalledDeliveries) :
    RowStep js env db c (retryStalledDeliveries c.now db).db i := by
  have happlied : appliedBy js env db c = [] := by simp [appliedBy, hop]
  -- the observer's notes on this row are as many copies of the clock as the pass scheduled
  have htimes : (retriedBy db c).filter (fun r => r.1 = i) =
      replicate ((retryStalledDeliveries c.now db).retried.count i) (i, c.now) := by
    simp only [retriedBy, hop, List.filter_map, Function.comp_def]
    rw [filter_eq, map_replicate]
  rcases retryStalledDeliveries_view c.now db i with hview | ⟨a, b, hbefore, hrow, hview⟩
  · obtain ⟨hrow, hcount⟩ := Prod.mk.inj hview
    exact .same hrow (by simp [happlied]) (by simp [htimes, hcount])
  rcases hview with ⟨hretries, hcount⟩ | ⟨hsettles, hcount⟩
  · refine .retried a b hbefore hrow hretries happlied ?_
    rw [htimes, show (retryStalledDeliveries c.now db).retried.count i = 1 from hcount]
    rfl
  · refine .settled a b hbefore hrow hsettles (.inl happlied) ?_
    rw [htimes, show (retryStalledDeliveries c.now db).retried.count i = 0 from hcount]
    rfl

/-- A call that was rolled back applied nothing and retried nothing. -/
lemma rolledBack_row {e : Err} (h : performIntake js env c db = .error e) :
    RowStep js env db c db i := by
  unfold performIntake at h
  cases hop : c.op with
  | recordDelivery args | elsewhere write =>
    exact .same rfl (by simp [appliedBy, hop]) (by simp [retriedBy, hop])
  | processDelivery target fails =>
    refine .same rfl ?_ (by simp [retriedBy, hop])
    cases fails with
    | true => simp [appliedBy, hop]
    | false =>
      rw [hop] at h
      dsimp only at h
      cases hprocess : processDelivery js env c.now target db with
      | error e => simp [appliedBy, hop, hprocess]
      | ok r =>
        rw [hprocess] at h
        cases h
  | retryStalledDeliveries =>
    rw [hop] at h
    cases h

lemma committed_row (hunique : UniqueDeliveries db) (h : performIntake js env c db = .ok db') :
    RowStep js env db c db' i := by
  unfold performIntake at h
  cases hop : c.op with
  | recordDelivery args =>
    rw [hop] at h
    obtain ⟨duplicate, hrecord⟩ := map_snd_ok.mp h
    exact recordDelivery_row hop hrecord
  | processDelivery target fails =>
    rw [hop] at h
    cases fails with
    | true => cases h
    | false =>
      obtain ⟨applied, hprocess⟩ := map_snd_ok.mp h
      exact processDelivery_row hunique hop hprocess
  | retryStalledDeliveries =>
    rw [hop] at h
    cases h
    exact retryStalledDeliveries_row hop
  | elsewhere write =>
    rw [hop] at h
    cases h
    exact .same rfl (by simp [appliedBy, hop]) (by simp [retriedBy, hop])

/-- **One call, one row.** -/
theorem stepIntake_row (hunique : UniqueDeliveries db) (c : IntakeCall)
    (i : DocId WebhookDelivery) : RowStep js env db c (stepIntake js env db c) i := by
  unfold stepIntake
  cases h : performIntake js env c db with
  | error e => exact rolledBack_row h
  | ok db' => exact committed_row hunique h

/-! ## The ledger of a delivery -/

/-- What a run has noted of a delivery, against its row: `applied` applications, and the times at
which it scheduled retries. -/
structure DeliveryLedger (a : WebhookDelivery) (applied : ℕ) (times : List ℤ) : Prop where
  once : applied ≤ 1
  unapplied : a.status = .pending → applied = 0
  spent : a.status = .pending → times.length = a.attempts
  budget : times.length < maxDeliveryAttempts
  paced : ∀ (k : ℕ) (t : ℤ), times[k]? = some t → a.receivedAt + (k + 1) * deliveryRetryAfterMs ≤ t

lemma DeliveryLedger.arrived (now : ℤ) (args : RecordDeliveryArgs) :
    DeliveryLedger (recordedDelivery now args) 0 [] where
  once := Nat.zero_le 1
  unapplied _ := rfl
  spent _ := rfl
  budget := by decide
  paced k t h := by simp at h

lemma DeliveryLedger.retried {applied : ℕ} (h : DeliveryLedger a applied times)
    (hretries : Retries now a b) : DeliveryLedger b applied (times ++ [now]) := by
  obtain ⟨hpending, hdue, hleft, rfl⟩ := hretries
  have hspent := h.spent hpending
  refine ⟨h.once, fun _ => h.unapplied hpending, fun _ => by simp [hspent], ?_, ?_⟩
  · simpa [hspent] using hleft
  intro k t hk
  rcases Nat.lt_trichotomy k times.length with hlt | heq | hgt
  · exact h.paced k t (by rwa [getElem?_append_left hlt] at hk)
  · subst heq
    rw [getElem?_concat_length, some.injEq] at hk
    rw [← hk, hspent]
    exact hdue
  · rw [getElem?_eq_none (by simp; omega)] at hk
    simp at hk

lemma DeliveryLedger.settled {applied : ℕ} (h : DeliveryLedger a applied times)
    (hsettles : Settles a b) (applied' : ℕ) (hone : applied' ≤ applied + 1) :
    DeliveryLedger b applied' times where
  once := by
    have := h.unapplied hsettles.pending
    omega
  unapplied hpending := absurd hpending hsettles.settled
  spent hpending := absurd hpending hsettles.settled
  budget := h.budget
  paced := by
    rw [hsettles.receivedAt]
    exact h.paced

/-- A run's notes agree with the rows it leads to. -/
structure DeliveriesAccounted (js : Engine) (env : IntakeEnv) (calls : List IntakeCall) (db : Db) :
    Prop where
  unique : UniqueDeliveries db
  row : ∀ i a, db.webhookDeliveries.get i = some a →
    DeliveryLedger a ((applications js env calls).count a.deliveryId) (retryTimes js env calls i)
  /-- A delivery id without a row has not been applied. -/
  unseen : ∀ d, (∀ i a, db.webhookDeliveries.get i = some a → a.deliveryId ≠ d) →
    d ∉ applications js env calls
  /-- An identifier not handed out yet has not been retried. -/
  future : ∀ i, db.webhookDeliveries.get i = none → retryTimes js env calls i = []

lemma deliveriesAccounted_nil : DeliveriesAccounted js env [] .empty where
  unique i j a b h := by simp [Db.empty] at h
  row i a h := by simp [Db.empty] at h
  unseen d _ := by simp [applications, trace]
  future i _ := by simp [retryTimes, trace]

/-- Every row of the next state has its delivery id from a row of this one, or has just arrived. -/
lemma RowStep.origin (h : RowStep js env db c db' i) (hrow : db'.webhookDeliveries.get i = some b) :
    (∃ a, db.webhookDeliveries.get i = some a ∧ a.deliveryId = b.deliveryId) ∨
      i = db.webhookDeliveries.next ∧
        ∀ j a, db.webhookDeliveries.get j = some a → a.deliveryId ≠ b.deliveryId := by
  cases h with
  | same row => exact .inl ⟨b, row ▸ hrow, rfl⟩
  | arrived args op fresh unseen row =>
    cases hrow.symm.trans row
    exact .inr ⟨fresh, unseen⟩
  | retried a b' before row retries =>
    cases hrow.symm.trans row
    exact .inl ⟨a, before, by rw [retries.row]⟩
  | settled a b' before row settles =>
    cases hrow.symm.trans row
    exact .inl ⟨a, before, settles.deliveryId.symm⟩

/-- Rows are never deleted, and a row keeps its delivery id. -/
lemma RowStep.persists (h : RowStep js env db c db' i) (hrow : db.webhookDeliveries.get i = some a) :
    ∃ b, db'.webhookDeliveries.get i = some b ∧ b.deliveryId = a.deliveryId ∧
      (a.status ≠ .pending → b = a) := by
  cases h with
  | same row => exact ⟨a, row ▸ hrow, rfl, fun _ => rfl⟩
  | arrived args op fresh =>
    rw [fresh, get_next] at hrow
    simp at hrow
  | retried a' b before row retries =>
    cases hrow.symm.trans before
    exact ⟨b, row, by rw [retries.row], fun hsettled => absurd retries.pending hsettled⟩
  | settled a' b before row settles =>
    cases hrow.symm.trans before
    exact ⟨b, row, settles.deliveryId, fun hsettled => absurd settles.pending hsettled⟩

lemma mem_appliedBy {d : String} (h : d ∈ appliedBy js env db c) :
    ∃ i a, db.webhookDeliveries.get i = some a ∧ a.deliveryId = d := by
  unfold appliedBy at h
  split at h
  · split at h
    · rename_i a _ hget
      exact ⟨_, a, hget, (mem_singleton.mp h).symm⟩
    · simp at h
  · simp at h

/-- Delivery ids stay apart: a row that arrives has an id that no row had. -/
lemma UniqueDeliveries.step (h : UniqueDeliveries db) (hstep : ∀ i, RowStep js env db c db' i) :
    UniqueDeliveries db' := by
  intro i j a b hi hj heq
  rcases (hstep i).origin hi with ⟨a', ha', haeq⟩ | ⟨hi', hnone⟩ <;>
    rcases (hstep j).origin hj with ⟨b', hb', hbeq⟩ | ⟨hj', hnone'⟩
  · exact h i j a' b' ha' hb' (by rw [haeq, hbeq, heq])
  · exact absurd (haeq.trans heq) (hnone' i a' ha')
  · exact absurd (hbeq.trans heq.symm) (hnone j b' hb')
  · rw [hi', hj']

/-- One call's notes on a row, added to the ledger. -/
lemma DeliveriesAccounted.ledger (h : DeliveriesAccounted js env calls db)
    (hstep : RowStep js env db c db' i) (hrow : db'.webhookDeliveries.get i = some b) :
    DeliveryLedger b ((applications js env calls ++ appliedBy js env db c).count b.deliveryId)
      (retryTimes js env calls i ++ ((retriedBy db c).filter fun r => r.1 = i).map Prod.snd) := by
  rw [count_append]
  cases hstep with
  | same row applied retried =>
    have hbefore := row ▸ hrow
    rw [retried, count_eq_zero_of_not_mem (applied b hbefore)]
    simpa using h.row i b hbefore
  | arrived args op fresh unseen row =>
    cases hrow.symm.trans row
    have hcount := h.unseen args.deliveryId unseen
    have htimes := h.future i (fresh ▸ get_next)
    have hid : (recordedDelivery c.now args).deliveryId = args.deliveryId := rfl
    rw [hid, count_eq_zero_of_not_mem hcount, htimes]
    simpa [appliedBy, retriedBy, op] using DeliveryLedger.arrived c.now args
  | retried a b' before row retries applied times =>
    cases hrow.symm.trans row
    rw [applied, times, show b.deliveryId = a.deliveryId by rw [retries.row]]
    exact (h.row i a before).retried retries
  | settled a b' before row settles applied retried =>
    cases hrow.symm.trans row
    rw [retried, settles.deliveryId, map_nil, append_nil]
    refine (h.row i a before).settled settles _ (Nat.add_le_add_left ?_ _)
    rcases applied with applied | applied <;> simp [applied]

lemma DeliveriesAccounted.step (h : DeliveriesAccounted js env calls (afterIntake js env calls))
    (c : IntakeCall) : DeliveriesAccounted js env (calls ++ [c])
      (stepIntake js env (afterIntake js env calls) c) := by
  set db := afterIntake js env calls with hdb
  have hstep : ∀ i, RowStep js env db c (stepIntake js env db c) i := stepIntake_row h.unique c
  refine ⟨h.unique.step hstep, ?_, ?_, ?_⟩
  · intro i b hrow
    rw [applications_snoc, retryTimes_snoc]
    exact h.ledger (hstep i) hrow
  · intro d hnone
    -- a row with this id, in the last state or applied just now, would still be there
    have hbefore : ∀ i a, db.webhookDeliveries.get i = some a → a.deliveryId ≠ d := by
      intro i a hi heq
      obtain ⟨b, hb, hbeq, -⟩ := (hstep i).persists hi
      exact hnone i b hb (hbeq.trans heq)
    rw [applications_snoc, mem_append, not_or]
    refine ⟨h.unseen d hbefore, fun happlied => ?_⟩
    obtain ⟨i, a, hi, heq⟩ := mem_appliedBy happlied
    exact hbefore i a hi heq
  · intro i hnone
    have hbefore : db.webhookDeliveries.get i = none := by
      cases hi : db.webhookDeliveries.get i with
      | none => rfl
      | some a =>
        obtain ⟨b, hb, -⟩ := (hstep i).persists hi
        rw [hnone] at hb
        simp at hb
    rw [retryTimes_snoc, h.future i hbefore, ← hdb]
    cases hstep i with
    | same row applied retried => simp [retried]
    | arrived args op fresh unseen row => simp [hnone] at row
    | retried a b before | settled a b before => simp [hbefore] at before

lemma deliveriesAccounted (js : Engine) (env : IntakeEnv) (calls : List IntakeCall) :
    DeliveriesAccounted js env calls (afterIntake js env calls) :=
  run_invariant (DeliveriesAccounted js env) deliveriesAccounted_nil (fun _ c h => h.step c) calls

/-- A row that is pending no more is the same row after every further run. -/
lemma settled_for_good (before rest : List IntakeCall)
    (hrow : (afterIntake js env before).webhookDeliveries.get i = some a)
    (hsettled : a.status ≠ .pending) :
    (afterIntake js env (before ++ rest)).webhookDeliveries.get i = some a := by
  induction rest using reverseRecOn with
  | nil => simpa using hrow
  | append_singleton rest c ih =>
    rw [← append_assoc, afterIntake, run_snoc]
    obtain ⟨b, hb, -, hsame⟩ :=
      (stepIntake_row (deliveriesAccounted js env (before ++ rest)).unique c i).persists ih
    rw [← hsame hsettled]
    exact hb

/-! ## Exactly once -/

/-- **A delivery's event is applied at most once.**  Over any run: no delivery id is applied twice;
a row that left `pending` is never written again; no two rows carry one delivery id; and fewer
than `maxDeliveryAttempts` retries are ever scheduled for a row, the one at place `k` (counted
from zero) not before `receivedAt + (k + 1) * deliveryRetryAfterMs`. -/
theorem deliveries_applied_once (js : Engine) (env : IntakeEnv) (calls : List IntakeCall) :
    (∀ deliveryId, (applications js env calls).count deliveryId ≤ 1) ∧
      (∀ before rest i a, calls = before ++ rest →
        (afterIntake js env before).webhookDeliveries.get i = some a → a.status ≠ .pending →
        (afterIntake js env calls).webhookDeliveries.get i = some a) ∧
      UniqueDeliveries (afterIntake js env calls) ∧
      ∀ i a, (afterIntake js env calls).webhookDeliveries.get i = some a →
        (retryTimes js env calls i).length ≤ maxDeliveryAttempts - 1 ∧
          ∀ (k : ℕ) (t : ℤ), (retryTimes js env calls i)[k]? = some t →
            a.receivedAt + (k + 1) * deliveryRetryAfterMs ≤ t := by
  have h := deliveriesAccounted js env calls
  refine ⟨fun d => ?_, ?_, h.unique, fun i a hi => ?_⟩
  · by_cases hd : ∃ i a, (afterIntake js env calls).webhookDeliveries.get i = some a ∧
        a.deliveryId = d
    · obtain ⟨i, a, hi, rfl⟩ := hd
      exact (h.row i a hi).once
    · have hnone := h.unseen d fun i a hi heq => hd ⟨i, a, hi, heq⟩
      rw [count_eq_zero_of_not_mem hnone]
      exact Nat.zero_le 1
  · rintro before rest i a rfl hrow hsettled
    exact settled_for_good before rest hrow hsettled
  · have hledger := h.row i a hi
    exact ⟨Nat.le_sub_one_of_lt hledger.budget, hledger.paced⟩

end EraInfra
