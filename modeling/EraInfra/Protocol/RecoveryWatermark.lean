import EraInfra.Protocol.RecoveryPasses

/-!
# The recovery watermark

A pass that scanned its whole window moves the watermark to ten minutes before the newest delivery
GitHub listed, and no later pass looks at what lies behind it.  So everything a pass steps over has
to be settled by then.

What the pass guarantees is less: of the failed deliveries it steps over, those at their last attempt
are done with (`passed_covered`).  For the others it is a race.  A refused request leaves one attempt
spent and a backoff of a minute, and the watermark moves on at once
(`watermark_steps_over_refused`).  Where every delivery that a pass finds with more than one attempt
left lies within the overlap of what is listed (`CaughtUp`), nothing unfinished is stepped over.
-/

namespace EraInfra

open DocStore List Option

variable {js : Engine} {db : RecoveryDb}

/-! ## Runs -/

/-- A pass, with what GitHub has on record when it lists, or a delivery that arrives between
passes. -/
inductive RecoveryCall
  | pass (record : List DeliveryItem) (pass : RecoveryPass)
  | arrival (now : ℤ) (args : RecordDeliveryArgs)

def stepRecovery (js : Engine) (db : RecoveryDb) : RecoveryCall → RecoveryDb
  | .pass _ pass => runRecovery js pass db
  | .arrival now args => db.arrive (now, args)

def afterRecovery (js : Engine) (start : RecoveryDb) (calls : List RecoveryCall) : RecoveryDb :=
  run (stepRecovery js) start calls

/-- GitHub lists what it keeps. -/
def ListsConsistently (_ : RecoveryDb) : RecoveryCall → Prop
  | .pass record pass => Consistent record pass
  | .arrival _ _ => True

/-- Whatever a pass has to look at and finds with more than one attempt left lies within the overlap
of every delivery of the listing that it covers. -/
def CaughtUp (js : Engine) (db : RecoveryDb) : RecoveryCall → Prop
  | .pass record pass =>
    ∀ item t, Lost record pass.now item t → watermark pass.now db < t →
      ¬ Arrived db item.guid → ¬ LastAttempt pass.now db item.guid →
      ∀ items, Covers js pass db items →
      ∀ other ∈ items, ∀ s, other.deliveredAt = some s → s - watermarkOverlapMs < t
  | .arrival _ _ => True

variable {record : List DeliveryItem} {pass : RecoveryPass}

/-- **What a pass steps over.**  A lost delivery that the watermark passes lies more than the overlap
behind a delivery of the listing that the pass covers; and if the pass found it at its last attempt,
it has arrived or is done with. -/
lemma passed_covered (hc : Consistent record pass) {item : DeliveryItem} {t w : ℤ}
    (hlost : Lost record pass.now item t) (hbehind : watermark pass.now db < t)
    (hstored : stored (runRecovery js pass db) = some w) (hpassed : t ≤ w) :
    (∃ items, Covers js pass db items ∧
      ∃ other ∈ items, ∃ s, other.deliveredAt = some s ∧ t ≤ s - watermarkOverlapMs) ∧
    (Arrived db item.guid ∨ LastAttempt pass.now db item.guid →
      Arrived (runRecovery js pass db) item.guid ∨ DoneWith (runRecovery js pass db) item.guid) := by
  have hyoung := hlost.young
  rw [maxRecoverableAgeMs] at hyoung
  rcases runRecovery_spec js hc db with hsame | ⟨w', hw', hmoved⟩
  · rw [hsame] at hstored
    rw [watermark, hstored, getD_some] at hbehind
    omega
  cases hw'.symm.trans hstored
  rcases hmoved with rfl | rfl | ⟨newest, items, rfl, hcovers, ⟨other, hother, htime⟩, hrows⟩
  · omega
  · simp only [clampWatermark, recoveryWindowMs] at hpassed
    omega
  simp only [advanceWatermark, clampWatermark, recoveryWindowMs, watermarkOverlapMs] at hpassed
  refine ⟨⟨items, hcovers, other, hother, newest, htime, ?_⟩, hrows item t hlost ?_⟩
  · rw [watermarkOverlapMs]
    omega
  · simp only [clampWatermark, recoveryWindowMs]
    omega

/-- A pass does not move a watermark back that its clock has reached. -/
lemma watermark_not_back
    (hc : Consistent record pass) {w : ℤ} (hstored : stored db = some w) (hnow : w ≤ pass.now) :
    ∃ w', stored (runRecovery js pass db) = some w' ∧ w ≤ w' := by
  have hwatermark : watermark pass.now db = w := by
    rw [watermark, hstored, getD_some]
  rcases runRecovery_spec js hc db with hsame | ⟨w', hw', hmoved⟩
  · exact ⟨w, hsame.trans hstored, le_rfl⟩
  refine ⟨w', hw', ?_⟩
  rw [hwatermark] at hmoved
  rcases hmoved with rfl | rfl | ⟨newest, items, rfl, -⟩
  · exact le_rfl
  · exact le_min (le_max_left _ _) hnow
  · exact le_min (le_max_of_le_left (le_max_left _ _)) hnow

/-- **The watermark waits for what is within the overlap.**  Along every run, a pass never moves the
watermark back while it does not exceed the clock.  And in a run in which whatever a pass finds with
more than one attempt left lies within the overlap of the listing, a lost delivery that the watermark
passes and that has not arrived has been given up or has spent its attempts. -/
theorem watermark_waits (js : Engine) (start : RecoveryDb) (calls : List RecoveryCall)
    (hlists : Meets (stepRecovery js) start ListsConsistently calls) :
    (∀ before record pass rest w, calls = before ++ .pass record pass :: rest →
      stored (afterRecovery js start before) = some w → w ≤ pass.now →
      ∃ w', stored (afterRecovery js start (before ++ [.pass record pass])) = some w' ∧ w ≤ w') ∧
    (Meets (stepRecovery js) start (CaughtUp js) calls →
      ∀ before record pass rest item t w, calls = before ++ .pass record pass :: rest →
        Lost record pass.now item t → watermark pass.now (afterRecovery js start before) < t →
        stored (afterRecovery js start (before ++ [.pass record pass])) = some w → t ≤ w →
        ¬ Arrived (afterRecovery js start (before ++ [.pass record pass])) item.guid →
        DoneWith (afterRecovery js start (before ++ [.pass record pass])) item.guid) := by
  have hrun : ∀ before record pass, afterRecovery js start (before ++ [.pass record pass])
      = runRecovery js pass (afterRecovery js start before) := fun _ _ _ => run_snoc
  refine ⟨?_, ?_⟩
  · intro before record pass rest w hsplit hstored hnow
    rw [hrun]
    exact watermark_not_back (hlists before _ rest hsplit) hstored hnow
  intro hcaught before record pass rest item t w hsplit hlost hbehind hstored hpassed hmissing
  rw [hrun] at hstored hmissing ⊢
  obtain ⟨⟨items, hcovers, other, hother, s, hs, hfar⟩, hdone⟩ :=
    passed_covered (hlists before _ rest hsplit) hlost hbehind hstored hpassed
  refine (hdone ?_).resolve_left hmissing
  by_contra hopen
  obtain ⟨harrived, hlast⟩ := not_or.mp hopen
  have hnear := hcaught before _ rest hsplit item t hlost hbehind harrived hlast items hcovers other
    hother s hs
  omega

/-! ## A refused request -/

section Examples

/-- A pass over one page, on which nothing arrives. -/
def passOver (now : ℤ) (items : List DeliveryItem) (refusal : Option Thrown) : RecoveryPass where
  now := now
  opening := .app
  pages := if items.isEmpty then [] else [items]
  listFails _ := none
  redeliverFails _ := refusal
  arrivedBeforeScan := []
  arrivedBeforeClaim := []
  arrivedBeforeFinish := []

/-- A delivery GitHub could not make, at the end of the first hour, and one that got through
`later` milliseconds after it. -/
def lostThenDelivered (later : ℤ) : List DeliveryItem :=
  [⟨2, "b", some (3600000 + later), 200, "workflow_job"⟩,
    ⟨1, "a", some 3600000, 502, "workflow_job"⟩]

lemma lost_first (later now : ℤ) (h : now ≤ 3600000 + maxRecoverableAgeMs) :
    Lost (lostThenDelivered later) now ⟨1, "a", some 3600000, 502, "workflow_job"⟩ 3600000 := by
  refine ⟨by simp [lostThenDelivered], rfl, rfl, ?_, by omega⟩
  intro other hother hguid
  simp only [lostThenDelivered, mem_cons, not_mem_nil, or_false] at hother
  rcases hother with rfl | rfl
  · simp at hguid
  · rfl

lemma consistent_passOver (now later : ℤ) (h : 0 ≤ later) (refusal : Option Thrown) :
    Consistent (lostThenDelivered later) (passOver now (lostThenDelivered later) refusal) := by
  refine ⟨fun item hitem _ _ _ => by simpa [passOver, lostThenDelivered] using hitem,
    fun item hitem => by simpa [passOver, lostThenDelivered] using hitem, ?_, ?_, ?_⟩
  · simp [passOver, lostThenDelivered]
  · simp [passOver]
  · simpa [passOver, lostThenDelivered] using h

/-- A first pass finds nothing.  At 1 h 31 min a second one asks for a redelivery of the delivery
that failed half an hour before, and GitHub refuses. -/
def refusedCalls : List RecoveryCall := [.pass [] (passOver 3600000 [] none),
    .pass (lostThenDelivered 1740000) (passOver 5460000 (lostThenDelivered 1740000) (some ⟨500, none⟩))]

/-- **An unfinished delivery is stepped over.**  The redelivery was refused once and two attempts are
left, but the watermark is past the delivery already, so no later pass looks at it again. -/
theorem watermark_steps_over_refused :
    Meets (stepRecovery asciiEngine) .empty ListsConsistently refusedCalls ∧
      ∃ before record pass item t w, refusedCalls = before ++ [.pass record pass] ∧
        Lost record pass.now item t ∧
        watermark pass.now (afterRecovery asciiEngine .empty before) < t ∧
        stored (afterRecovery asciiEngine .empty refusedCalls) = some w ∧ t ≤ w ∧
        ¬ Arrived (afterRecovery asciiEngine .empty refusedCalls) item.guid ∧
        ¬ DoneWith (afterRecovery asciiEngine .empty refusedCalls) item.guid := by
  constructor
  · refine meets_cons.mpr ⟨?_, meets_cons.mpr ⟨?_, meets_nil⟩⟩
    · exact ⟨by simp, by simp [passOver], by simp [passOver], by simp [passOver],
        by simp [passOver]⟩
    · exact consistent_passOver _ _ (by decide) _
  · refine ⟨[.pass [] (passOver 3600000 [] none)], _, _, _, 3600000, 4740000, rfl,
      lost_first 1740000 5460000 (by decide), by decide +kernel, by decide +kernel, by decide,
      ?_, ?_⟩
    · rintro ⟨i, row, hi, -⟩
      have hnone : (afterRecovery asciiEngine .empty refusedCalls).webhookDeliveries = .empty := by
        decide +kernel
      rw [hnone] at hi
      cases hi
    · rintro ⟨i, row, hi, -, hspent⟩
      have hall : ∀ r ∈ (afterRecovery asciiEngine .empty refusedCalls).webhookRecovery.rows,
          r.2.state ≠ .abandoned ∧ r.2.attempts < maxRecoveryAttempts := by decide +kernel
      obtain ⟨hstate, hattempts⟩ := hall (i, row) (Table.get_eq_some_iff.mp hi)
      rcases hspent with h | h
      · exact hstate h
      · exact absurd h (not_le.mpr hattempts)

/-- The same deliveries a minute apart: the second pass leaves the watermark before them. -/
def caughtUpCalls : List RecoveryCall := [.pass [] (passOver 3600000 [] none),
    .pass (lostThenDelivered 60000) (passOver 3720000 (lostThenDelivered 60000) (some ⟨500, none⟩))]

theorem watermark_waits_within_overlap :
    (∃ w, stored (afterRecovery asciiEngine .empty caughtUpCalls) = some w ∧ 0 ≤ w) ∧
      ∀ w, stored (afterRecovery asciiEngine .empty caughtUpCalls) = some w → 3600000 ≤ w →
        ¬ Arrived (afterRecovery asciiEngine .empty caughtUpCalls) "a" →
        DoneWith (afterRecovery asciiEngine .empty caughtUpCalls) "a" := by
  have hwaits := watermark_waits asciiEngine .empty caughtUpCalls
    (meets_cons.mpr ⟨⟨by simp, by simp [passOver], by simp [passOver], by simp [passOver],
      by simp [passOver]⟩, meets_cons.mpr ⟨consistent_passOver _ _ (by decide) _, meets_nil⟩⟩)
  refine ⟨hwaits.1 [.pass [] (passOver 3600000 [] none)] _ _ [] 0 rfl (by decide +kernel)
    (by decide), fun w hw hpassed harrived => ?_⟩
  refine hwaits.2 (meets_cons.mpr ⟨?_, meets_cons.mpr ⟨?_, meets_nil⟩⟩)
    [.pass [] (passOver 3600000 [] none)] _ _ [] _ 3600000 w rfl
    (lost_first 60000 3720000 (by decide)) (by decide +kernel) hw hpassed harrived
  · intro item t hlost
    exact absurd hlost.recorded not_mem_nil
  rintro item t hlost - - - items ⟨through, hopens, -, hscan, -⟩ other hother s hs
  have hlisted : scanPages (fun _ => none) through maxPages 0 [lostThenDelivered 60000]
      = .ok (lostThenDelivered 60000, false) := rfl
  cases hlisted.symm.trans hscan
  have hitem := hlost.recorded
  have htime := hlost.time
  simp only [lostThenDelivered, mem_cons, not_mem_nil, or_false] at hitem hother
  rcases hitem with rfl | rfl
  · exact absurd (hlost.failed _ hlost.recorded rfl) (by decide)
  cases htime
  rcases hother with rfl | rfl
  · cases hs
    decide
  · cases hs
    decide

end Examples

end EraInfra
