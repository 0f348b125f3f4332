import EraInfra.Backend.Recovery
import EraInfra.Core.Run

/-!
# What a recovery pass does

One lemma for each transaction of a pass, all in terms of `Keeps`: deliveries that arrived stay, and
what is given up, or has at most one attempt left, stays so unless it arrives.

The listing is where a pass can lose something.  A scan that was not cut short has read everything
newer than the watermark (`scanPages_complete`), a selection below the cap has a candidate for
every delivery worth recovering (`mem_selectRecoverable`), and claiming a candidate spends the last
attempt at it (`claimCandidate_keeps`); `runRecovery_spec` puts them together.
-/

namespace EraInfra

open DocStore List Option Table OrderedMap
open RecoveryDb (arrive)

/-! ## What is recorded -/

/-- The delivery left a row here. -/
def Arrived (db : RecoveryDb) (guid : String) : Prop :=
  ∃ i row, db.webhookDeliveries.get i = some row ∧ row.deliveryId = guid

/-- A recovery row that is done with: given up, or every attempt spent. -/
def WebhookRecovery.Done (row : WebhookRecovery) : Prop :=
  row.state = .abandoned ∨ maxRecoveryAttempts ≤ row.attempts

/-- A recovery row that a pass at `now` is done with: the attempt that is due is the last. -/
def WebhookRecovery.Last (now : ℤ) (row : WebhookRecovery) : Prop :=
  row.Done ∨ row.state = .requested ∧ maxRecoveryAttempts ≤ row.attempts + 1 ∧ row.nextAttemptAt ≤ now

/-- Done with: given up, or every attempt spent. -/
def DoneWith (db : RecoveryDb) (guid : String) : Prop :=
  ∃ i row, db.webhookRecovery.get i = some row ∧ row.guid = guid ∧ row.Done

/-- A pass at `now` makes the last attempt at the delivery, if it was not done with before. -/
def LastAttempt (now : ℤ) (db : RecoveryDb) (guid : String) : Prop :=
  ∃ i row, db.webhookRecovery.get i = some row ∧ row.guid = guid ∧ row.Last now

/-- The stored watermark. -/
def stored (db : RecoveryDb) : Option ℤ :=
  db.webhookRecoveryState.rows.head?.map fun row => row.2.scannedThrough

/-- The watermark a pass at `now` starts from; the first pass seeds it. -/
def watermark (now : ℤ) (db : RecoveryDb) : ℤ := (stored db).getD (now - recoverySeedMs)

/-- What a transaction of a pass at `now` other than `begin` and `finish` keeps. -/
structure Keeps (now : ℤ) (db db' : RecoveryDb) : Prop where
  arrived : ∀ guid, Arrived db guid → Arrived db' guid
  last : ∀ guid, LastAttempt now db guid → Arrived db' guid ∨ LastAttempt now db' guid
  done : ∀ guid, DoneWith db guid → Arrived db' guid ∨ DoneWith db' guid
  state : db'.webhookRecoveryState = db.webhookRecoveryState

variable {js : Engine} {db db' : RecoveryDb} {now : ℤ} {guid : String}

lemma Keeps.settled (h : Keeps now db db') (hdone : Arrived db guid ∨ DoneWith db guid) :
    Arrived db' guid ∨ DoneWith db' guid :=
  hdone.elim (fun harrived => .inl (h.arrived guid harrived)) (h.done guid)

lemma Keeps.settling (h : Keeps now db db') (hlast : Arrived db guid ∨ LastAttempt now db guid) :
    Arrived db' guid ∨ LastAttempt now db' guid :=
  hlast.elim (fun harrived => .inl (h.arrived guid harrived)) (h.last guid)

lemma Keeps.refl (now : ℤ) (db : RecoveryDb) : Keeps now db db :=
  ⟨fun _ h => h, fun _ => .inr, fun _ => .inr, rfl⟩

lemma Keeps.trans {db₁ db₂ db₃ : RecoveryDb} (h : Keeps now db₁ db₂) (h' : Keeps now db₂ db₃) :
    Keeps now db₁ db₃ :=
  ⟨fun g hg => h'.arrived g (h.arrived g hg), fun g hg => h'.settling (h.last g hg),
    fun g hg => h'.settled (h.done g hg), h'.state.trans h.state⟩

/-! ## The transactions of a pass -/

lemma arrive_cases (db : RecoveryDb) (arrival : ℤ × RecordDeliveryArgs) :
    db.arrive arrival = db ∨ db.arrive arrival = { db with
      webhookDeliveries := db.webhookDeliveries.insert (recordedDelivery arrival.1 arrival.2) } := by
  unfold arrive recordDelivery
  cases db.webhookDeliveries.unique (Err.notUnique "webhookDeliveries")
      fun delivery => delivery.deliveryId = arrival.2.deliveryId with
  | error e => exact .inl rfl
  | ok found =>
    cases found with
    | some row => exact .inl rfl
    | none => exact .inr rfl

lemma arrive_keeps (now : ℤ) (db : RecoveryDb) (arrival : ℤ × RecordDeliveryArgs) :
    Keeps now db (db.arrive arrival) := by
  rcases arrive_cases db arrival with h | h
  · rw [h]
    exact .refl now db
  rw [h]
  refine ⟨?_, fun _ => .inr, fun _ => .inr, rfl⟩
  rintro guid ⟨i, row, hi, hguid⟩
  exact ⟨i, row, get_insert_eq_some.mpr (.inr hi), hguid⟩

lemma arrivals_keep (now : ℤ) (arrivals : List (ℤ × RecordDeliveryArgs)) (db : RecoveryDb) :
    Keeps now db (arrivals.foldl arrive db) := by
  induction arrivals generalizing db with
  | nil => exact .refl now db
  | cons arrival arrivals ih => exact (arrive_keeps now db arrival).trans (ih _)

/-- Rewriting a recovery row keeps what matters if the row stays done with, and at its last attempt,
unless its delivery arrived. -/
lemma patchRecovery_keeps {i : DocId WebhookRecovery} {f : WebhookRecovery → WebhookRecovery}
    (hguid : ∀ row, (f row).guid = row.guid)
    (hrow : ∀ row, db.webhookRecovery.get i = some row → Arrived db row.guid ∨
      (row.Last now → (f row).Last now) ∧ (row.Done → (f row).Done)) :
    Keeps now db (db.patchRecovery i f) := by
  have hpatched : ∀ P : WebhookRecovery → Prop, (∀ row, db.webhookRecovery.get i = some row →
      Arrived db row.guid ∨ (P row → P (f row))) → ∀ guid,
      (∃ j row, db.webhookRecovery.get j = some row ∧ row.guid = guid ∧ P row) →
      Arrived (db.patchRecovery i f) guid ∨ ∃ j row,
        (db.patchRecovery i f).webhookRecovery.get j = some row ∧ row.guid = guid ∧ P row := by
    rintro P hP guid ⟨j, row, hj, rfl, hholds⟩
    by_cases hji : j = i
    · subst hji
      refine (hP row hj).imp_right fun hP => ?_
      exact ⟨j, f row, get_patch_eq_some.mpr (.inl ⟨row, rfl, hj, rfl⟩), hguid row, hP hholds⟩
    · exact .inr ⟨j, row, get_patch_eq_some.mpr (.inr ⟨hji, hj⟩), rfl, hholds⟩
  exact ⟨fun _ h => h, hpatched _ fun row hi => (hrow row hi).imp_right And.left,
    hpatched _ fun row hi => (hrow row hi).imp_right And.right, rfl⟩

/-- Giving a row up. -/
lemma abandon_keeps {i : DocId WebhookRecovery} {error : WebhookRecovery → Option String} :
    Keeps now db (db.patchRecovery i fun row =>
      { row with state := .abandoned, lastError := error row }) :=
  patchRecovery_keeps (fun _ => rfl) fun _ _ => .inr ⟨fun _ => .inl (.inl rfl), fun _ => .inl rfl⟩

lemma reconcileRecovered_keeps {tally : ℕ × ℕ} (h : reconcileRecovered now db = .ok (tally, db')) :
    Keeps now db db' := by
  have hguids : ∀ row ∈ (db.webhookRecovery.collect fun row => row.state = .requested).take
      recoveryScanLimit, db.webhookRecovery.get row.1 = some row.2 := fun row hmem =>
    (mem_collect.mp (mem_of_mem_take hmem)).1
  have key := foldlM_keeps (P := fun s : (ℕ × ℕ) × RecoveryDb => Keeps now db s.2 ∧
    ∀ i row, db.webhookRecovery.get i = some row →
      ∃ row', s.2.webhookRecovery.get i = some row' ∧ row'.guid = row.guid) ?_
    ⟨.refl now db, fun _ row hi => ⟨row, hi, rfl⟩⟩ h
  · exact key.1
  rintro row hmem ⟨⟨recovered, abandoned⟩, db₁⟩ ⟨tally₂, db₂⟩ ⟨hkeeps, hrows⟩ hrow
  have hpatch : ∀ {i : DocId WebhookRecovery} {f : WebhookRecovery → WebhookRecovery},
      (∀ row, (f row).guid = row.guid) → ∀ j row, db.webhookRecovery.get j = some row →
      ∃ row', (db₁.patchRecovery i f).webhookRecovery.get j = some row' ∧ row'.guid = row.guid := by
    intro i f hguid j row hj
    obtain ⟨row', hj', hrow'⟩ := hrows j row hj
    by_cases hji : j = i
    · subst hji
      exact ⟨f row', get_patch_eq_some.mpr (.inl ⟨row', rfl, hj', rfl⟩), (hguid row').trans hrow'⟩
    · exact ⟨row', get_patch_eq_some.mpr (.inr ⟨hji, hj'⟩), hrow'⟩
  -- the row's guid is read from the listing made before the loop; guids do not change
  obtain ⟨current, hcurrent, hguid⟩ := hrows row.1 row.2 (hguids row hmem)
  obtain ⟨arrival, harrival, hrow⟩ := bind_ok.mp hrow
  split at hrow
  · rename_i found
    cases hrow
    refine ⟨hkeeps.trans (patchRecovery_keeps (fun _ => rfl) fun stored hstored => .inl ?_),
      hpatch fun _ => rfl⟩
    cases hcurrent.symm.trans hstored
    obtain ⟨harrived, hid, -⟩ := unique_some (i := found.1) (a := found.2) harrival
    exact ⟨found.1, found.2, harrived, (by simpa using hid : found.2.deliveryId = row.2.guid).trans
      hguid.symm⟩
  · split at hrow
    · cases hrow
      exact ⟨hkeeps.trans abandon_keeps, hpatch fun _ => rfl⟩
    · cases hrow
      exact ⟨hkeeps, hrows⟩

/-- A candidate that is claimed at its last attempt is done with. -/
lemma claimCandidate_keeps {s s' : List (String × ℕ) × RecoveryDb} {candidate : RecoveryCandidate}
    (h : claimCandidate now s candidate = .ok s') :
    Keeps now s.2 s'.2 ∧
      (LastAttempt now s.2 candidate.guid → Arrived s'.2 candidate.guid ∨ DoneWith s'.2 candidate.guid) := by
  obtain ⟨claimed, db⟩ := s
  obtain ⟨existing, hexisting, h⟩ := bind_ok.mp h
  cases existing with
  | none =>
    cases h
    refine ⟨⟨fun _ harrived => harrived, ?_, ?_, rfl⟩, ?_⟩
    · rintro guid ⟨i, row, hi, hrow⟩
      exact .inr ⟨i, row, get_insert_eq_some.mpr (.inr hi), hrow⟩
    · rintro guid ⟨i, row, hi, hrow⟩
      exact .inr ⟨i, row, get_insert_eq_some.mpr (.inr hi), hrow⟩
    · rintro ⟨i, row, hi, hguid, -⟩
      simpa [hguid] using not_of_unique_none hexisting hi
  | some found =>
    obtain ⟨hget, hguid, hunique⟩ := unique_some (i := found.1) (a := found.2) hexisting
    have hguid : found.2.guid = candidate.guid := by simpa using hguid
    -- the row that was found is the only one of its guid
    have hlast : LastAttempt now db candidate.guid → found.2.Last now := by
      rintro ⟨i, row, hi, hrow, hlast⟩
      obtain rfl := hunique i row hi (by simpa using hrow)
      cases hget.symm.trans hi
      exact hlast
    have hpatched : ∀ {f : WebhookRecovery → WebhookRecovery}, (f found.2).guid = found.2.guid →
        (f found.2).Done → DoneWith (db.patchRecovery found.1 f) candidate.guid := fun hguid' hdone =>
      ⟨found.1, _, get_patch_eq_some.mpr (.inl ⟨found.2, rfl, hget, rfl⟩), hguid'.trans hguid, hdone⟩
    cases hdecision : decideRecovery (some found.2) now with
    | skip =>
      simp only [map_some, hdecision] at h
      cases h
      refine ⟨.refl now db, fun hcandidate => .inr ⟨found.1, found.2, hget, hguid, ?_⟩⟩
      rcases hlast hcandidate with hdone | ⟨hstate, -, hdue⟩
      · exact hdone
      · simp only [decideRecovery, hstate] at hdecision
        split_ifs at hdecision <;> first | omega | exact absurd rfl ‹_›
    | abandon attempts error =>
      simp only [map_some, hdecision] at h
      cases h
      exact ⟨abandon_keeps, fun _ => .inr (hpatched rfl (.inl rfl))⟩
    | request attempts next =>
      simp only [map_some, hdecision] at h
      cases h
      have hrequest : found.2.state = .requested ∧ attempts = found.2.attempts + 1 := by
        simp only [decideRecovery] at hdecision
        split_ifs at hdecision with hstate
        cases hdecision
        exact ⟨not_not.mp hstate, rfl⟩
      -- one more attempt is made, so what was at its last is done with
      have hdone : found.2.Last now → maxRecoveryAttempts ≤ attempts := by
        rintro ((hstate | hspent) | ⟨-, hone, -⟩)
        · rw [hrequest.1] at hstate
          cases hstate
        · omega
        · omega
      refine ⟨patchRecovery_keeps (fun _ => rfl) fun row hi => .inr ?_,
        fun hcandidate => .inr (hpatched rfl (.inr (hdone (hlast hcandidate))))⟩
      cases hget.symm.trans hi
      exact ⟨fun hrow => .inl (.inr (hdone hrow)), fun hrow => .inr (hdone (.inl hrow))⟩

lemma claimRecovery_keeps {candidates : List RecoveryCandidate} {claimed : List (String × ℕ)}
    (h : claimRecovery now candidates db = .ok (claimed, db')) :
    Keeps now db db' ∧ ∀ candidate ∈ candidates, Arrived db candidate.guid ∨
      LastAttempt now db candidate.guid → Arrived db' candidate.guid ∨ DoneWith db' candidate.guid := by
  have key := foldlM_rule (f := claimCandidate now)
    (fun rest s => Keeps now db s.2 ∧ ∀ c ∈ candidates, Arrived db c.guid ∨ LastAttempt now db c.guid →
      c ∈ rest ∨ Arrived s.2 c.guid ∨ DoneWith s.2 c.guid) ?_
    ⟨.refl now db, fun _ hc _ => .inl hc⟩ h
  · exact ⟨key.1, fun c hc hlast => (key.2 c hc hlast).resolve_left not_mem_nil⟩
  rintro candidate rest s s' ⟨hkeeps, hrows⟩ hclaim
  obtain ⟨hkeeps', hclaimed⟩ := claimCandidate_keeps hclaim
  refine ⟨hkeeps.trans hkeeps', fun c hc hlast => ?_⟩
  rcases hrows c hc hlast with hc | hc
  · rcases mem_cons.mp hc with rfl | hc
    · refine .inr ?_
      rcases hkeeps.settling hlast with harrived | hlast
      · exact .inl (hkeeps'.arrived _ harrived)
      · exact hclaimed hlast
    · exact .inl hc
  · exact .inr (hkeeps'.settled hc)

lemma settleRecovery_keeps {error : Option String}
    (h : settleRecovery guid error db = .ok db') : Keeps now db db' := by
  obtain ⟨row, -, h⟩ := bind_ok.mp h
  split at h
  · cases h
    exact .refl now _
  · cases h
    exact patchRecovery_keeps (fun _ => rfl) fun _ _ => .inr ⟨fun h => h, fun h => h⟩

lemma requestRedeliveries_keeps (now : ℤ) (redeliverFails : ℕ → Option Thrown)
    (claimed : List (String × ℕ)) (requested : ℕ) (db : RecoveryDb) :
    Keeps now db (requestRedeliveries redeliverFails claimed requested db).2 := by
  induction claimed generalizing requested db with
  | nil => exact .refl now db
  | cons head rest ih =>
    obtain ⟨guid, githubDeliveryId⟩ := head
    simp only [requestRedeliveries]
    split
    · split
      · rename_i db₁ hsettle
        exact (settleRecovery_keeps hsettle).trans (ih requested db₁)
      · exact .refl now db
    · split
      · rename_i db₁ hsettle
        exact (settleRecovery_keeps hsettle).trans (ih (requested + 1) db₁)
      · split
        · rename_i db₁ hsettle
          exact (settleRecovery_keeps hsettle).trans (ih requested db₁)
        · exact .refl now db

lemma mem_missingGuids {guids missing : List String} (h : missingGuids guids db = .ok missing) :
    guid ∈ missing ↔ guid ∈ guids ∧ ¬ Arrived db guid := by
  have key := foldlM_rule (fun rest missing => guid ∈ missing ∨ guid ∈ rest ∧ ¬ Arrived db guid ↔
      guid ∈ guids ∧ ¬ Arrived db guid) ?_ (by simp) h
  · simpa using key
  intro g rest acc acc' hacc hstep
  rw [← hacc]
  obtain ⟨found, hfound, hstep⟩ := bind_ok.mp hstep
  cases found with
  | none =>
    cases hstep
    have hnone : ¬ Arrived db g := by
      rintro ⟨i, row, hi, hid⟩
      simpa [hid] using not_of_unique_none hfound hi
    by_cases hg : guid = g
    · simp [hg, hnone]
    · simp [hg]
  | some found =>
    cases hstep
    obtain ⟨hget, hid, -⟩ := unique_some (i := found.1) (a := found.2) hfound
    have harrived : Arrived db g := ⟨found.1, found.2, hget, by simpa using hid⟩
    by_cases hg : guid = g
    · simp [hg, harrived]
    · simp [hg]

/-! ## The listing -/

/-- A listing as GitHub makes it from its record: every delivery of the last three days, newest
first, on pages that are not empty. -/
structure Consistent (record : List DeliveryItem) (pass : RecoveryPass) : Prop where
  kept : ∀ item ∈ record, ∀ t, item.deliveredAt = some t → pass.now - recoveryWindowMs ≤ t →
    item ∈ pass.pages.flatten
  real : ∀ item ∈ pass.pages.flatten, item ∈ record
  parses : ∀ item ∈ pass.pages.flatten, ∃ t, item.deliveredAt = some t
  pages : ∀ page ∈ pass.pages, page ≠ []
  newestFirst : pass.pages.flatten.Pairwise fun a b =>
    ∀ s t, a.deliveredAt = some s → b.deliveredAt = some t → t ≤ s

variable {scannedThrough : ℤ} {items record : List DeliveryItem} {pass : RecoveryPass}

/-- What is listed after an exhausted page is behind the watermark. -/
lemma exhausted_page_last {page : List DeliveryItem} {s : ℤ} {item : DeliveryItem}
    (hexhausted : pageIsExhausted page scannedThrough = true) (hpage : page ≠ [])
    (hparses : ∀ item ∈ page, ∃ t, item.deliveredAt = some t)
    (hafter : ∀ first ∈ page, ∀ r t, first.deliveredAt = some r → item.deliveredAt = some t → t ≤ r)
    (hs : item.deliveredAt = some s) : s ≤ scannedThrough := by
  obtain ⟨first, hfirst⟩ := exists_mem_of_ne_nil page hpage
  obtain ⟨r, hr⟩ := hparses first hfirst
  have hold : r ≤ scannedThrough := by
    have hall := all_eq_true.mp hexhausted first hfirst
    rw [hr] at hall
    exact of_decide_eq_true hall
  exact (hafter first hfirst r s hr hs).trans hold

/-- A scan that was not cut short has read everything newer than the watermark. -/
lemma scanPages_complete {listFails : ℕ → Option Thrown} {budget request : ℕ}
    {pages : List (List DeliveryItem)} {truncated : Bool}
    (h : scanPages listFails scannedThrough budget request pages = .ok (items, truncated))
    (hparses : ∀ item ∈ pages.flatten, ∃ t, item.deliveredAt = some t)
    (hpages : ∀ page ∈ pages, page ≠ [])
    (hsorted : pages.flatten.Pairwise fun a b =>
      ∀ s t, a.deliveredAt = some s → b.deliveredAt = some t → t ≤ s) :
    (∀ item ∈ items, item ∈ pages.flatten) ∧ (truncated = false → ∀ item ∈ pages.flatten, ∀ t,
      item.deliveredAt = some t → scannedThrough < t → item ∈ items) := by
  induction budget generalizing request pages items truncated with
  | zero =>
    cases h
    exact ⟨fun _ h => absurd h not_mem_nil, nofun⟩
  | succ budget ih =>
    unfold scanPages at h
    split at h
    · exact absurd h throw_ne_ok
    rcases pages with _ | ⟨page, rest⟩
    · cases h
      exact ⟨fun _ h => absurd h not_mem_nil, fun _ _ h => absurd h not_mem_nil⟩
    obtain ⟨-, hrestSorted, hacross⟩ := pairwise_append.mp hsorted
    dsimp only at h
    split at h
    · rename_i hstop
      obtain ⟨rfl, rfl⟩ := Prod.mk.inj (pure_ok.mp h)
      refine ⟨fun _ h => mem_append_left _ h, fun _ item hitem t ht hnew => ?_⟩
      rcases mem_append.mp hitem with hitem | hitem
      · exact hitem
      rcases Bool.or_eq_true _ _ |>.mp hstop with hlast | hexhausted
      · rw [isEmpty_iff.mp hlast] at hitem
        exact absurd hitem not_mem_nil
      · have hold := exhausted_page_last hexhausted (hpages page mem_cons_self)
          (fun first hfirst => hparses first (mem_append_left _ hfirst))
          (fun first hfirst => hacross first hfirst item hitem) ht
        omega
    · obtain ⟨⟨more, cut⟩, hmore, h⟩ := bind_ok.mp h
      cases h
      obtain ⟨hsub, hcomplete⟩ := ih hmore (fun item hitem => hparses item (mem_append_right _ hitem))
        (fun p hp => hpages p (mem_cons_of_mem _ hp)) hrestSorted
      refine ⟨fun item hitem => ?_, fun hcut item hitem t ht hnew => ?_⟩
      · rcases mem_append.mp hitem with hitem | hitem
        · exact mem_append_left _ hitem
        · exact mem_append_right _ (hsub item hitem)
      · rcases mem_append.mp hitem with hitem | hitem
        · exact mem_append_left _ hitem
        · exact mem_append_right _ (hcomplete hcut item hitem t ht hnew)

/-- The newest time is one of the items'. -/
lemma newestDeliveryTime_mem {newest : ℤ} (h : newestDeliveryTime items = some newest) :
    ∃ item ∈ items, item.deliveredAt = some newest := by
  refine foldlRecOn (motive := fun time => time = some newest →
    ∃ item ∈ items, item.deliveredAt = some newest) items laterTime (by simp) ?_ h
  intro init ih item hitem hinit
  unfold laterTime at hinit
  split at hinit
  · exact ih hinit
  · rename_i htime
    exact ⟨item, hitem, htime.trans hinit⟩
  · rename_i htime
    split at hinit
    · exact ⟨item, hitem, htime.trans hinit⟩
    · exact ih hinit

/-! ## The candidates -/

section Candidates

variable {delivered : List String} {scannedThrough : ℤ}
  {newest : OrderedMap String RecoveryCandidate} {item : DeliveryItem}

/-- A failed attempt that may be recovered: young enough, and newer than the watermark. -/
structure Recoverable (delivered : List String) (now scannedThrough : ℤ) (item : DeliveryItem) :
    Prop where
  guid : item.guid ∉ delivered
  failed : isFailedDelivery item = true
  event : item.event = "workflow_job"
  time : ∃ t, item.deliveredAt = some t ∧ scannedThrough < t ∧ now - t ≤ maxRecoverableAgeMs

/-- The deliveries an attempt at which succeeded. -/
def succeeded (items : List DeliveryItem) : List String :=
  (items.filter fun item => !isFailedDelivery item).map DeliveryItem.guid

/-- The last time of an attempt at a delivery, of those that may be recovered. -/
structure LastFailure (delivered : List String) (now scannedThrough : ℤ) (items : List DeliveryItem)
    (guid : String) (t : ℤ) : Prop where
  attempt : ∃ item ∈ items, Recoverable delivered now scannedThrough item ∧ item.guid = guid ∧
    item.deliveredAt = some t
  last : ∀ item ∈ items, Recoverable delivered now scannedThrough item → item.guid = guid →
    ∀ u, item.deliveredAt = some u → u ≤ t

variable {items : List DeliveryItem} {t u : ℤ}

lemma LastFailure.snoc (h : LastFailure delivered now scannedThrough items guid t)
    (hitem : Recoverable delivered now scannedThrough item → item.guid = guid →
      ∀ u, item.deliveredAt = some u → u ≤ t) :
    LastFailure delivered now scannedThrough (items ++ [item]) guid t := by
  refine ⟨?_, fun other hother => ?_⟩
  · obtain ⟨attempt, hattempt, hfacts⟩ := h.attempt
    exact ⟨attempt, mem_append_left _ hattempt, hfacts⟩
  · rcases mem_append.mp hother with hother | hother
    · exact h.last other hother
    · rw [mem_singleton.mp hother]
      exact hitem

lemma LastFailure.unique (h : LastFailure delivered now scannedThrough items guid t)
    (h' : LastFailure delivered now scannedThrough items guid u) : t = u := by
  obtain ⟨item, hitem, hrecoverable, hguid, htime⟩ := h.attempt
  obtain ⟨item', hitem', hrecoverable', hguid', htime'⟩ := h'.attempt
  exact le_antisymm (h'.last item hitem hrecoverable hguid t htime)
    (h.last item' hitem' hrecoverable' hguid' u htime')

/-- An attempt is noted if it may be recovered and is newer than the one noted for its guid. -/
lemma noteFailed_cases (delivered : List String) (now scannedThrough : ℤ)
    (newest : OrderedMap String RecoveryCandidate) (item : DeliveryItem) :
    noteFailed delivered now scannedThrough newest item = newest ∧
        ¬ Recoverable delivered now scannedThrough item ∨
      ∃ t, item.deliveredAt = some t ∧ Recoverable delivered now scannedThrough item ∧
        ((∃ previous, newest.find item.guid = some previous ∧ t ≤ previous.deliveredAt) ∧
            noteFailed delivered now scannedThrough newest item = newest ∨
          (∀ previous, newest.find item.guid = some previous → previous.deliveredAt < t) ∧
            noteFailed delivered now scannedThrough newest item = newest.set item.guid
              ⟨item.guid, item.id, item.event, t, item.statusCode⟩) := by
  unfold noteFailed
  split_ifs with hguid hevent
  · refine .inl ⟨rfl, fun h => ?_⟩
    simp [h.guid, h.failed] at hguid
  · exact .inl ⟨rfl, fun h => hevent h.event⟩
  simp only [Bool.or_eq_true, not_or, contains_iff_mem, Bool.not_eq_eq_eq_not, Bool.not_true,
    Bool.not_eq_false] at hguid
  split
  · rename_i hnone
    refine .inl ⟨rfl, fun h => ?_⟩
    obtain ⟨t, ht, -⟩ := h.time
    cases hnone.symm.trans ht
  rename_i t ht
  split_ifs with hold hage
  · refine .inl ⟨rfl, fun h => ?_⟩
    obtain ⟨u, hu, hnew, -⟩ := h.time
    cases ht.symm.trans hu
    omega
  · refine .inl ⟨rfl, fun h => ?_⟩
    obtain ⟨u, hu, -, hyoung⟩ := h.time
    cases ht.symm.trans hu
    omega
  refine .inr ⟨t, ht, ⟨hguid.1, hguid.2, not_not.mp hevent, t, ht, by omega, by omega⟩, ?_⟩
  split
  · rename_i previous hprevious
    split_ifs with hlater
    · exact .inl ⟨⟨previous, hprevious, hlater⟩, rfl⟩
    · refine .inr ⟨fun other hother => ?_, rfl⟩
      cases hprevious.symm.trans hother
      omega
  · rename_i hnone
    refine .inr ⟨fun other hother => ?_, rfl⟩
    cases hnone.symm.trans hother

/-- What the loop has noted of the items it has seen. -/
structure Noted (delivered : List String) (now scannedThrough : ℤ) (items : List DeliveryItem)
    (newest : OrderedMap String RecoveryCandidate) : Prop where
  distinct : newest.Distinct
  found : ∀ guid candidate, newest.find guid = some candidate → candidate.guid = guid ∧
    LastFailure delivered now scannedThrough items guid candidate.deliveredAt
  every : ∀ item ∈ items, Recoverable delivered now scannedThrough item →
    ∃ candidate, newest.find item.guid = some candidate

lemma noted (delivered : List String) (now scannedThrough : ℤ) (items : List DeliveryItem) :
    Noted delivered now scannedThrough items
      (items.foldl (noteFailed delivered now scannedThrough) []) := by
  induction items using reverseRecOn with
  | nil => exact ⟨nodup_nil, nofun, nofun⟩
  | append_singleton items item ih =>
    rw [foldl_append, foldl_cons, foldl_nil]
    set newest := items.foldl (noteFailed delivered now scannedThrough) []
    rcases noteFailed_cases delivered now scannedThrough newest item with ⟨hsame, hnot⟩ |
      ⟨t, ht, hrecoverable, ⟨⟨previous, hprevious, hle⟩, hsame⟩ | ⟨hless, hset⟩⟩
    · rw [hsame]
      refine ⟨ih.distinct, fun guid candidate hfind => ?_, fun other hother hother' => ?_⟩
      · obtain ⟨hguid, hlast⟩ := ih.found guid candidate hfind
        exact ⟨hguid, hlast.snoc fun h => absurd h hnot⟩
      · rcases mem_append.mp hother with hother | hother
        · exact ih.every other hother hother'
        · rw [mem_singleton.mp hother] at hother'
          exact absurd hother' hnot
    · rw [hsame]
      refine ⟨ih.distinct, fun guid candidate hfind => ?_, fun other hother hother' => ?_⟩
      · obtain ⟨hguid, hlast⟩ := ih.found guid candidate hfind
        refine ⟨hguid, hlast.snoc fun _ hitem u hu => ?_⟩
        cases ht.symm.trans hu
        rw [← hitem] at hfind
        cases hprevious.symm.trans hfind
        exact hle
      · rcases mem_append.mp hother with hother | hother
        · exact ih.every other hother hother'
        · rw [mem_singleton.mp hother]
          exact ⟨previous, hprevious⟩
    · rw [hset]
      refine ⟨distinct_set ih.distinct, fun guid candidate hfind => ?_, fun other hother hother' => ?_⟩
      · rw [find_set] at hfind
        split_ifs at hfind with hguid
        · cases hfind
          refine ⟨hguid.symm, ⟨item, by simp, hrecoverable, hguid.symm, ht⟩, fun other hother => ?_⟩
          rcases mem_append.mp hother with hother | hother
          · intro hother' hguid' u hu
            obtain ⟨previous, hprevious⟩ := ih.every other hother hother'
            have hlast := (ih.found _ previous hprevious).2.last other hother hother' rfl u hu
            rw [hguid', hguid] at hprevious
            exact hlast.trans (hless previous hprevious).le
          · rw [mem_singleton.mp hother]
            rintro - - u hu
            cases ht.symm.trans hu
            exact le_rfl
        · obtain ⟨hcandidate, hlast⟩ := ih.found guid candidate hfind
          exact ⟨hcandidate, hlast.snoc fun _ hitem => absurd hitem.symm hguid⟩
      · rw [find_set]
        split_ifs with hguid
        · exact ⟨_, rfl⟩
        · rcases mem_append.mp hother with hother | hother
          · exact ih.every other hother hother'
          · rw [mem_singleton.mp hother] at hguid
            exact absurd rfl hguid

/-- A selection below the cap has a candidate for every delivery that may be recovered. -/
lemma mem_selectRecoverable
    (hcap : (selectRecoverable js items now scannedThrough).length ≠ maxRedeliveriesPerRun)
    (hitem : item ∈ items) (h : Recoverable (succeeded items) now scannedThrough item) :
    ∃ candidate ∈ selectRecoverable js items now scannedThrough, candidate.guid = item.guid := by
  have hnoted := noted (succeeded items) now scannedThrough items
  obtain ⟨candidate, hfind⟩ := hnoted.every item hitem h
  refine ⟨candidate, ?_, (hnoted.found _ candidate hfind).1⟩
  unfold selectRecoverable at hcap ⊢
  rw [length_take] at hcap
  rw [take_of_length_le (by omega)]
  exact mem_mergeSort.mpr (mem_map.mpr ⟨_, mem_of_find hfind, rfl⟩)

end Candidates

/-! ## The run record -/

/-- The watermark `finish` writes. -/
def FinishRecoveryRun.moves (result : FinishRecoveryRun) (w now : ℤ) : ℤ :=
  match result with
  | .ok (some newest) _ _ _ => advanceWatermark w newest now
  | _ => clampWatermark w now

lemma scannedThrough_finishedState (result : FinishRecoveryRun) (state : WebhookRecoveryState) :
    (finishedState now result state).scannedThrough = result.moves state.scannedThrough now := by
  cases result with
  | error message => rfl
  | skippedNoApp => rfl
  | ok newest listed missing requested =>
    cases newest with
    | none => rfl
    | some newest => rfl

lemma head_patch {α : Type} {t : Table α} {i : DocId α} {a : α} (f : α → α)
    (h : t.rows.head? = some (i, a)) : (t.patch i f).rows.head? = some (i, f a) := by
  simp [patch, h]

/-- Opening a pass stores its watermark, and scans from there as far as GitHub can look back. -/
lemma beginRecoveryRun_spec {gate : Option ℤ} (h : beginRecoveryRun now db = (gate, db')) :
    db'.toDb = db.toDb ∧ stored db' = some (watermark now db) ∧
      ∀ w, gate = some w → w = clampWatermark (watermark now db) now := by
  unfold beginRecoveryRun at h
  split at h
  · rename_i hempty
    cases h
    have hrows : db.webhookRecoveryState.rows = [] := head?_eq_none_iff.mp hempty
    have hseed : watermark now db = now - recoverySeedMs := by simp [watermark, stored, hrows]
    refine ⟨rfl, by simp [stored, Table.insert, hrows, hseed], ?_⟩
    rintro w hw
    cases hw
    rw [hseed, clampWatermark, recoverySeedMs, recoveryWindowMs]
    omega
  · rename_i stateId state hhead
    have hstored : stored db = some state.scannedThrough := by simp [stored, hhead]
    have hwatermark : watermark now db = state.scannedThrough := by simp [watermark, hstored]
    split at h
    · cases h
      simp [stored, head_patch _ hhead, hwatermark]
    · cases h
      refine ⟨rfl, ?_, fun w hw => ?_⟩
      · simp [stored, head_patch _ hhead, hwatermark]
      · rw [← some.inj hw, hwatermark]

lemma finishRecoveryRun_spec (db : RecoveryDb) (now : ℤ) (result : FinishRecoveryRun) :
    (finishRecoveryRun now result db).toDb = db.toDb ∧
      stored (finishRecoveryRun now result db) = (stored db).map fun w => result.moves w now := by
  unfold finishRecoveryRun
  split
  · rename_i hempty
    exact ⟨rfl, by simp [stored, hempty]⟩
  · rename_i stateId state hhead
    simp [stored, head_patch _ hhead, hhead, scannedThrough_finishedState]

/-! ## One pass -/

/-- A failed delivery worth recovering: GitHub has it on record, no attempt at it succeeded, and it
is young enough. -/
structure Lost (record : List DeliveryItem) (now : ℤ) (item : DeliveryItem) (t : ℤ) : Prop where
  recorded : item ∈ record
  time : item.deliveredAt = some t
  event : item.event = "workflow_job"
  failed : ∀ other ∈ record, other.guid = item.guid → isFailedDelivery other = true
  young : now - t ≤ maxRecoverableAgeMs

/-- A lost delivery newer than the watermark is in a scan that was not cut short, and may be
recovered. -/
lemma Lost.recoverable {t : ℤ} {item : DeliveryItem} (h : Lost record pass.now item t)
    (hc : Consistent record pass) (hnew : scannedThrough < t)
    (hscan : scanPages pass.listFails scannedThrough maxPages 0 pass.pages = .ok (items, false)) :
    item ∈ items ∧ Recoverable (succeeded items) pass.now scannedThrough item := by
  obtain ⟨hsub, hcomplete⟩ := scanPages_complete hscan hc.parses hc.pages hc.newestFirst
  have hlisted : item ∈ pass.pages.flatten := by
    refine hc.kept item h.recorded t h.time ?_
    have := h.young
    rw [maxRecoverableAgeMs] at this
    rw [recoveryWindowMs]
    omega
  refine ⟨hcomplete rfl item hlisted t h.time hnew, ?_, h.failed item h.recorded rfl, h.event, t,
    h.time, hnew, h.young⟩
  intro hmem
  obtain ⟨other, hother, hguid⟩ := mem_map.mp hmem
  obtain ⟨hin, hsucceeded⟩ := mem_filter.mp hother
  have := h.failed other (hc.real other (hsub other hin)) hguid
  simp [this] at hsucceeded

/-- How the guarded part of a pass ends.  When it reports a newest delivery, that is one of a listing
that was read to the watermark and stayed below the cap, and every lost delivery newer than the
watermark that was at its last attempt is done with. -/
lemma scanAndRequest_spec (js : Engine) (scannedThrough : ℤ)
    (hc : Consistent record pass) (db : RecoveryDb) :
    Keeps pass.now db (scanAndRequest js pass scannedThrough db).2 ∧ ∀ newest listed missing requested,
        (scanAndRequest js pass scannedThrough db).1 = .ok (some newest) listed missing requested →
        ∃ items, scanPages pass.listFails scannedThrough maxPages 0 pass.pages = .ok (items, false) ∧
          (selectRecoverable js items pass.now scannedThrough).length ≠ maxRedeliveriesPerRun ∧
          (∃ item ∈ items, item.deliveredAt = some newest) ∧
          ∀ item t, Lost record pass.now item t → scannedThrough < t →
            Arrived db item.guid ∨ LastAttempt pass.now db item.guid →
            Arrived (scanAndRequest js pass scannedThrough db).2 item.guid ∨
              DoneWith (scanAndRequest js pass scannedThrough db).2 item.guid := by
  unfold scanAndRequest
  dsimp only
  split
  · exact ⟨.refl _ db, nofun⟩
  rename_i items pagesTruncated hscan
  have hkeeps₁ := arrivals_keep pass.now pass.arrivedBeforeScan db
  set db₁ := pass.arrivedBeforeScan.foldl arrive db
  split
  · exact ⟨hkeeps₁, nofun⟩
  rename_i missing hmissing
  have hkeeps₂ := arrivals_keep pass.now pass.arrivedBeforeClaim db₁
  split
  · exact ⟨hkeeps₁.trans hkeeps₂, nofun⟩
  rename_i claimed db₃ hclaim
  obtain ⟨hkeeps₃, hrows⟩ := claimRecovery_keeps hclaim
  have hkeeps₄ := requestRedeliveries_keeps pass.now pass.redeliverFails claimed 0 db₃
  split
  · rename_i failure db₄ hrequest
    rw [hrequest] at hkeeps₄
    exact ⟨hkeeps₁.trans (hkeeps₂.trans (hkeeps₃.trans hkeeps₄)), nofun⟩
  rename_i requested db₄ hrequest
  rw [hrequest] at hkeeps₄
  refine ⟨hkeeps₁.trans (hkeeps₂.trans (hkeeps₃.trans hkeeps₄)), ?_⟩
  intro newest listed missing' requested' hok
  obtain ⟨hnewest, -⟩ := FinishRecoveryRun.ok.inj hok
  split at hnewest
  · cases hnewest
  rename_i htruncated
  simp only [Bool.or_eq_true, decide_eq_true_eq, not_or, Bool.not_eq_true] at htruncated
  obtain ⟨rfl, hcap⟩ := htruncated
  refine ⟨items, hscan, hcap, newestDeliveryTime_mem hnewest, fun item t hlost hnew hlast => ?_⟩
  by_cases harrived : Arrived db₁ item.guid
  · exact .inl ((hkeeps₂.trans (hkeeps₃.trans hkeeps₄)).arrived _ harrived)
  -- a candidate that is missing here is claimed
  obtain ⟨hitem, hrecoverable⟩ := hlost.recoverable hc hnew hscan
  obtain ⟨candidate, hcandidate, hguid⟩ := mem_selectRecoverable hcap hitem hrecoverable
  have hmem : item.guid ∈ missing :=
    (mem_missingGuids hmissing).mpr ⟨mem_map.mpr ⟨candidate, hcandidate, hguid⟩, harrived⟩
  refine hkeeps₄.settled (hguid ▸ hrows candidate (mem_filter.mpr ⟨hcandidate, ?_⟩) ?_)
  · rw [hguid]
    simpa using hmem
  · rw [hguid]
    exact (hkeeps₁.trans hkeeps₂).settling hlast

/-- The listing that a pass covers: it opens, reads GitHub's pages to its watermark, and stays below
the cap.  Only such a pass moves the watermark past a delivery. -/
def Covers (js : Engine) (pass : RecoveryPass) (db : RecoveryDb) (items : List DeliveryItem) : Prop :=
  ∃ scannedThrough, (beginRecoveryRun pass.now db).1 = some scannedThrough ∧ pass.opening = .app ∧
    scanPages pass.listFails scannedThrough maxPages 0 pass.pages = .ok (items, false) ∧
    (selectRecoverable js items pass.now scannedThrough).length ≠ maxRedeliveriesPerRun

lemma gate_congr (h : db'.webhookRecoveryState = db.webhookRecoveryState) :
    (beginRecoveryRun now db').1 = (beginRecoveryRun now db).1 := by
  unfold beginRecoveryRun
  rw [h]
  split
  · rfl
  · split_ifs <;> rfl

/-- `begin` and `finish` write only the run record. -/
lemma settled_of_toDb (hdb : db'.toDb = db.toDb) (h : Arrived db guid ∨ DoneWith db guid) :
    Arrived db' guid ∨ DoneWith db' guid :=
  h.imp (fun ⟨i, row, hi, hid⟩ => ⟨i, row, hdb ▸ hi, hid⟩) fun ⟨i, row, hi, hrow⟩ =>
    ⟨i, row, hdb ▸ hi, hrow⟩

lemma settling_of_toDb (hdb : db'.toDb = db.toDb) (h : Arrived db guid ∨ LastAttempt now db guid) :
    Arrived db' guid ∨ LastAttempt now db' guid :=
  h.imp (fun ⟨i, row, hi, hid⟩ => ⟨i, row, hdb ▸ hi, hid⟩) fun ⟨i, row, hi, hrow⟩ =>
    ⟨i, row, hdb ▸ hi, hrow⟩

/-- What a pass does to the recovery rows and the watermark.  It leaves the watermark, clamps it, or
moves it up to the overlap behind a delivery of the listing it covers, and in the last case every lost
delivery newer than the watermark that was at its last attempt is done with. -/
lemma runRecovery_spec (js : Engine) (hc : Consistent record pass) (db : RecoveryDb) :
    stored (runRecovery js pass db) = stored db ∨ ∃ w, stored (runRecovery js pass db) = some w ∧
        (w = watermark pass.now db ∨ w = clampWatermark (watermark pass.now db) pass.now ∨
          ∃ newest items, w = advanceWatermark (watermark pass.now db) newest pass.now ∧
            Covers js pass db items ∧ (∃ item ∈ items, item.deliveredAt = some newest) ∧
            ∀ item t, Lost record pass.now item t →
              clampWatermark (watermark pass.now db) pass.now < t →
              Arrived db item.guid ∨ LastAttempt pass.now db item.guid →
              Arrived (runRecovery js pass db) item.guid ∨
                DoneWith (runRecovery js pass db) item.guid) := by
  unfold runRecovery
  split
  · exact .inl rfl
  rename_i tally db₁ hreconcile
  have hkeeps₁ := reconcileRecovered_keeps hreconcile
  have hwatermark : watermark pass.now db₁ = watermark pass.now db := by
    rw [watermark, watermark, stored, stored, hkeeps₁.state]
  split
  · rename_i db₂ hbegin
    obtain ⟨-, hstored, -⟩ := beginRecoveryRun_spec hbegin
    exact .inr ⟨_, hstored, .inl hwatermark⟩
  rename_i gate db₂ hbegin
  obtain ⟨hdb, hstored, hgate⟩ := beginRecoveryRun_spec hbegin
  rw [hwatermark] at hstored hgate
  split
  · exact .inr ⟨_, hstored, .inl rfl⟩
  · obtain ⟨-, hstored'⟩ := finishRecoveryRun_spec db₂ pass.now .skippedNoApp
    rw [hstored] at hstored'
    exact .inr ⟨_, hstored', .inr (.inl rfl)⟩
  rename_i hopening
  obtain ⟨hkeeps₃, hok⟩ := scanAndRequest_spec js gate hc db₂
  set ended := scanAndRequest js pass gate db₂
  have hkeeps₄ := arrivals_keep pass.now pass.arrivedBeforeFinish ended.2
  set db₄ := pass.arrivedBeforeFinish.foldl arrive ended.2
  obtain ⟨hdb', hstored'⟩ := finishRecoveryRun_spec db₄ pass.now ended.1
  have hstate : stored db₄ = stored db₂ := by
    rw [stored, stored, hkeeps₄.state, hkeeps₃.state]
  rw [hstate, hstored] at hstored'
  refine .inr ⟨_, hstored', ?_⟩
  cases hresult : ended.1 with
  | error message | skippedNoApp => exact .inr (.inl rfl)
  | ok newest listed missing requested =>
    cases newest with
    | none => exact .inr (.inl rfl)
    | some newest =>
      obtain ⟨items, hscan, hcap, hlisted, hrows⟩ := hok newest listed missing requested hresult
      have hopens : (beginRecoveryRun pass.now db).1 = some gate := by
        rw [← gate_congr hkeeps₁.state, hbegin]
      refine .inr (.inr ⟨newest, items, rfl, ⟨gate, hopens, hopening, hscan, hcap⟩, hlisted,
        fun item t hlost hnew hlast => ?_⟩)
      rw [← hgate gate rfl] at hnew
      exact settled_of_toDb hdb' (hkeeps₄.settled
        (hrows item t hlost hnew (settling_of_toDb hdb (hkeeps₁.settling hlast))))

end EraInfra
