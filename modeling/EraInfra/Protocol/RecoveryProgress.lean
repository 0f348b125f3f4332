import EraInfra.Core.Sorting
import EraInfra.Protocol.RecoveryWatermark

/-!
# What a pass claims

A pass looks at the twenty oldest deliveries that failed, before it asks which of them are missing
here and which are due (`recovery.selectRecoverable`, `webhooks.claimRecovery`).  Which twenty that are
is said in terms of the listing (`mem_selectRecoverable_iff`).  The pass makes progress when one of
them is missing and due; a delivery behind twenty others that were given up waits for them to age.
-/

namespace EraInfra

open DocStore List Option Table
open RecoveryDb (arrive patchRecovery)

variable {now : ℤ} {db db' : RecoveryDb} {guid : String} {candidate : RecoveryCandidate}

/-- `decideRecovery` asks for a redelivery. -/
def Requests (now : ℤ) (existing : Option WebhookRecovery) : Prop :=
  ∃ attempts nextAttemptAt, decideRecovery existing now = .request attempts nextAttemptAt

/-- A redelivery is asked for, whether or not one was before. -/
def Due (now : ℤ) (db : RecoveryDb) (guid : String) : Prop :=
  ∀ i row, db.webhookRecovery.get i = some row → row.guid = guid → Requests now (some row)

/-- What a pass claims of the deliveries it listed. -/
def passClaims (js : Engine) (pass : RecoveryPass) (items : List DeliveryItem) (scannedThrough : ℤ)
    (db : RecoveryDb) : Result (List (String × ℕ) × RecoveryDb) := do
  let candidates := selectRecoverable js items pass.now scannedThrough
  let db := pass.arrivedBeforeScan.foldl RecoveryDb.arrive db
  let missing ← missingGuids (candidates.map RecoveryCandidate.guid) db
  claimRecovery pass.now (candidates.filter fun candidate => missing.contains candidate.guid)
    (pass.arrivedBeforeClaim.foldl RecoveryDb.arrive db)

/-- Arrivals do not change what is due. -/
lemma due_arrivals (arrivals : List (ℤ × RecordDeliveryArgs)) (db : RecoveryDb) :
    Due now (arrivals.foldl arrive db) guid ↔ Due now db guid := by
  have hsame : (arrivals.foldl arrive db).webhookRecovery = db.webhookRecovery := by
    refine foldl_frame (fun db : RecoveryDb => db.webhookRecovery) (fun db arrival => ?_) arrivals db
    rcases arrive_cases db arrival with h | h <;> rw [h]
  simp only [Due, hsame]

/-- A delivery that is given up was not due, and does not get due. -/
lemma due_patchRecovery {i : DocId WebhookRecovery} {row : WebhookRecovery}
    {f : WebhookRecovery → WebhookRecovery} (hi : db.webhookRecovery.get i = some row)
    (hguid : (f row).guid = row.guid) (hbefore : ¬ Requests now (some row))
    (hafter : ¬ Requests now (some (f row))) : Due now (db.patchRecovery i f) guid ↔ Due now db guid := by
  have hself : (db.patchRecovery i f).webhookRecovery.get i = some (f row) := by
    simp [patchRecovery, hi]
  by_cases hg : row.guid = guid
  · exact iff_of_false (fun h => hafter (h i _ hself (hguid.trans hg))) fun h => hbefore (h i _ hi hg)
  have hne : ∀ k r, r.guid = guid → ((db.patchRecovery i f).webhookRecovery.get k = some r ↔
      db.webhookRecovery.get k = some r) := by
    intro k r hr
    by_cases hk : k = i
    · subst hk
      rw [hself, hi]
      refine iff_of_false ?_ ?_
      · rintro ⟨⟩
        exact hg (hguid.symm.trans hr)
      · rintro ⟨⟩
        exact hg hr
    · rw [patchRecovery, get_patch_ne hk]
  exact forall_congr' fun k => forall_congr' fun r =>
    ⟨fun h hr hg => h ((hne k r hg).mpr hr) hg, fun h hr hg => h ((hne k r hg).mp hr) hg⟩

/-- A candidate is claimed, and was due; or it was not, and the same deliveries stay due. -/
lemma claimCandidate_cases {claimed : List (String × ℕ)} {s : List (String × ℕ) × RecoveryDb}
    (h : claimCandidate now (claimed, db) candidate = .ok s) :
    s.1 ≠ [] ∧ Due now db candidate.guid ∨
      s.1 = claimed ∧ ¬ Due now db candidate.guid ∧ ∀ guid, Due now s.2 guid ↔ Due now db guid := by
  rcases bind_ok.mp h with ⟨existing, hexisting, h⟩
  rcases existing with _ | found
  · cases h
    refine .inl ⟨by simp, fun i row hi hguid => ?_⟩
    simpa [hguid] using not_of_unique_none hexisting hi
  rcases found with ⟨i, row⟩
  rcases unique_some hexisting with ⟨hi, hguid, hunique⟩
  have hguid : row.guid = candidate.guid := by simpa using hguid
  have hdue : Due now db candidate.guid ↔ Requests now (some row) := by
    refine ⟨fun hdue => hdue i row hi hguid, fun hrow k r hk hr => ?_⟩
    obtain rfl := hunique k r hk (by simpa using hr)
    rw [hi] at hk
    cases hk
    exact hrow
  simp only [hdue, Requests]
  cases hdecision : decideRecovery (some row) now with
  | skip =>
    simp only [map_some, hdecision] at h
    cases h
    exact .inr ⟨rfl, by simp, fun _ => Iff.rfl⟩
  | abandon attempts error =>
    simp only [map_some, hdecision] at h
    cases h
    exact .inr ⟨rfl, by simp, fun _ => due_patchRecovery hi rfl (by simp [Requests, hdecision])
      (by simp [Requests, decideRecovery])⟩
  | request attempts next =>
    simp only [map_some, hdecision] at h
    cases h
    exact .inl ⟨by simp, attempts, next, rfl⟩

lemma claimRecovery_claims {candidates : List RecoveryCandidate} {claimed claimed' : List (String × ℕ)}
    (h : candidates.foldlM (claimCandidate now) (claimed, db) = .ok (claimed', db')) :
    claimed' ≠ [] ↔ claimed ≠ [] ∨ ∃ candidate ∈ candidates, Due now db candidate.guid := by
  induction candidates generalizing claimed db with
  | nil =>
    cases h
    simp
  | cons candidate candidates ih =>
    rw [foldlM_cons, bind_ok] at h
    rcases h with ⟨⟨noted, db₁⟩, hcandidate, h⟩
    rw [ih h]
    rcases claimCandidate_cases hcandidate with ⟨hnoted, hdue⟩ | ⟨hsame, hnot, hkeeps⟩
    · simp [hnoted, hdue]
    · simp only at hsame
      simp [hsame, hnot, hkeeps]

/-! ## The deliveries a pass looks at -/

/-- The deliveries of the listing that a pass looks at before one that failed last at `t`: older ones
first, and those of one time in the order of `localeCompare`. -/
def lookedAtBefore (js : Engine) (items : List DeliveryItem) (now scannedThrough : ℤ) (guid : String)
    (t : ℤ) : Set String :=
  { other | ∃ u, LastFailure (succeeded items) now scannedThrough items other u ∧
    (u < t ∨ u = t ∧ js.localeCompare other guid = .lt) }

/-- `localeCompare` orders the deliveries of a listing: it compares keys that tell them apart. -/
structure Collates {κ : Type} [LinearOrder κ] (js : Engine) (key : String → κ)
    (items : List DeliveryItem) : Prop where
  compares : ∀ a ∈ items, ∀ b ∈ items,
    js.localeCompare a.guid b.guid = compare (key a.guid) (key b.guid)
  distinct : ∀ a ∈ items, ∀ b ∈ items, key a.guid = key b.guid → a.guid = b.guid

section Selection

variable {κ : Type} [LinearOrder κ] {js : Engine} {key : String → κ} {items : List DeliveryItem}
  {scannedThrough t : ℤ} {a b c : RecoveryCandidate}

/-- The candidates of a listing, one for each delivery, before they are ordered. -/
def noteAll (items : List DeliveryItem) (now scannedThrough : ℤ) : List RecoveryCandidate :=
  (items.foldl (noteFailed (succeeded items) now scannedThrough) []).map Prod.snd

lemma mem_noteAll : c ∈ noteAll items now scannedThrough ↔
    (items.foldl (noteFailed (succeeded items) now scannedThrough) [] : OrderedMap _ _).find c.guid
      = some c := by
  have hnoted := noted (succeeded items) now scannedThrough items
  refine ⟨fun hc => ?_, fun hc => List.mem_map.mpr ⟨_, OrderedMap.mem_of_find hc, rfl⟩⟩
  obtain ⟨entry, hentry, rfl⟩ := List.mem_map.mp hc
  have hfind := OrderedMap.find_of_mem hnoted.distinct hentry
  rwa [(hnoted.found _ _ hfind).1]

lemma lastFailure_of_mem (hc : c ∈ noteAll items now scannedThrough) :
    LastFailure (succeeded items) now scannedThrough items c.guid c.deliveredAt :=
  ((noted _ now scannedThrough items).found _ c (mem_noteAll.mp hc)).2

lemma exists_noteAll (h : LastFailure (succeeded items) now scannedThrough items guid t) :
    ∃ c ∈ noteAll items now scannedThrough, c.guid = guid ∧ c.deliveredAt = t := by
  have hnoted := noted (succeeded items) now scannedThrough items
  obtain ⟨item, hitem, hrecoverable, rfl, -⟩ := h.attempt
  obtain ⟨c, hc⟩ := hnoted.every item hitem hrecoverable
  obtain ⟨hguid, htime⟩ := hnoted.found _ c hc
  exact ⟨c, mem_noteAll.mpr (hguid ▸ hc), hguid, htime.unique h⟩

lemma nodup_noteAll : ((noteAll items now scannedThrough).map RecoveryCandidate.guid).Nodup := by
  have hnoted := noted (succeeded items) now scannedThrough items
  have hguids : (noteAll items now scannedThrough).map RecoveryCandidate.guid
      = (items.foldl (noteFailed (succeeded items) now scannedThrough) []).map Prod.fst := by
    rw [noteAll, List.map_map]
    refine map_congr_left fun entry hentry => ?_
    exact (hnoted.found _ _ (OrderedMap.find_of_mem hnoted.distinct hentry)).1
  rw [hguids]
  exact hnoted.distinct

/-- Candidates are ordered by their times, and then by the keys of their guids. -/
def rank (key : String → κ) (c : RecoveryCandidate) : ℤ ×ₗ κ := toLex (c.deliveredAt, key c.guid)

variable (hkey : Collates js key items) (ha : a ∈ noteAll items now scannedThrough)
  (hb : b ∈ noteAll items now scannedThrough)

include hkey ha hb

lemma Collates.candidates : js.localeCompare a.guid b.guid = compare (key a.guid) (key b.guid) ∧
    (key a.guid = key b.guid → a.guid = b.guid) := by
  obtain ⟨x, hx, -, hxguid, -⟩ := (lastFailure_of_mem ha).attempt
  obtain ⟨y, hy, -, hyguid, -⟩ := (lastFailure_of_mem hb).attempt
  rw [← hxguid, ← hyguid]
  exact ⟨hkey.compares x hx y hy, hkey.distinct x hx y hy⟩

lemma compare_eq_rank : (a.deliveredAt < b.deliveredAt ||
    (a.deliveredAt = b.deliveredAt && (js.localeCompare a.guid b.guid).isLE))
      = decide (rank key a ≤ rank key b) := by
  rw [(hkey.candidates ha hb).1, Bool.eq_iff_iff]
  simp only [rank, Prod.Lex.toLex_le_toLex, Bool.or_eq_true, Bool.and_eq_true, decide_eq_true_eq,
    Std.LawfulBCmp.isLE_iff_le]

lemma eq_of_rank_eq (hrank : rank key a = rank key b) : a = b := by
  have hkeys : key a.guid = key b.guid := congrArg (fun r => (ofLex r).2) hrank
  exact inj_on_of_nodup_map nodup_noteAll ha hb ((hkey.candidates ha hb).2 hkeys)

omit ha hb

/-- What is looked at before a candidate are the candidates below it. -/
lemma ncard_lookedAtBefore (hc : c ∈ noteAll items now scannedThrough) :
    (lookedAtBefore js items now scannedThrough c.guid c.deliveredAt).ncard
      = (noteAll items now scannedThrough).countP fun a => rank key a < rank key c := by
  have hset : lookedAtBefore js items now scannedThrough c.guid c.deliveredAt
      = ↑(((noteAll items now scannedThrough).filter fun a => rank key a < rank key c).map
        RecoveryCandidate.guid).toFinset := by
    ext other
    simp only [lookedAtBefore, Set.mem_ofPred_eq, coe_toFinset, List.mem_map, mem_filter,
      decide_eq_true_eq, rank, Prod.Lex.toLex_lt_toLex]
    constructor
    · rintro ⟨u, hother, hearlier⟩
      obtain ⟨a, ha, rfl, rfl⟩ := exists_noteAll hother
      rw [(hkey.candidates ha hc).1, compare_lt_iff_lt] at hearlier
      exact ⟨a, ⟨ha, hearlier⟩, rfl⟩
    · rintro ⟨a, ⟨ha, hearlier⟩, rfl⟩
      rw [← compare_lt_iff_lt (a := key a.guid), ← (hkey.candidates ha hc).1] at hearlier
      exact ⟨a.deliveredAt, lastFailure_of_mem ha, hearlier⟩
  rw [hset, Set.ncard_coe_finset, toFinset_card_of_nodup (nodup_noteAll.sublist (filter_sublist.map _)),
    length_map, countP_eq_length_filter]

/-- A pass selects a delivery exactly if it may be recovered and fewer than twenty come before it. -/
lemma mem_selectRecoverable_iff :
    (∃ candidate ∈ selectRecoverable js items now scannedThrough, candidate.guid = guid) ↔
      ∃ t, LastFailure (succeeded items) now scannedThrough items guid t ∧
        (lookedAtBefore js items now scannedThrough guid t).ncard < maxRedeliveriesPerRun := by
  obtain ⟨sorted, hselect, hperm, hsorted⟩ : ∃ sorted : List RecoveryCandidate,
      selectRecoverable js items now scannedThrough = sorted.take maxRedeliveriesPerRun ∧
        sorted.Perm (noteAll items now scannedThrough) ∧
        sorted.Pairwise fun a b => rank key a ≤ rank key b :=
    ⟨_, rfl, mergeSort_perm _ _, Sorting.sorted_mergeSort fun a ha b hb => compare_eq_rank hkey ha hb⟩
  rw [hselect]
  have hstrict : sorted.Pairwise fun a b => rank key a < rank key b :=
    Sorting.strict_of_nodup (fun a ha b hb => eq_of_rank_eq hkey (hperm.mem_iff.mp ha) (hperm.mem_iff.mp hb))
      (hperm.nodup_iff.mpr nodup_noteAll.of_map) hsorted
  constructor
  · rintro ⟨c, hc, rfl⟩
    obtain ⟨hmem, hcount⟩ := (Sorting.mem_take_iff hstrict).mp hc
    rw [hperm.mem_iff] at hmem
    rw [hperm.countP_eq, ← ncard_lookedAtBefore hkey hmem] at hcount
    exact ⟨c.deliveredAt, lastFailure_of_mem hmem, hcount⟩
  · rintro ⟨t, hfailure, hcount⟩
    obtain ⟨c, hc, rfl, rfl⟩ := exists_noteAll hfailure
    rw [ncard_lookedAtBefore hkey hc, ← hperm.countP_eq] at hcount
    exact ⟨c, (Sorting.mem_take_iff hstrict).mpr ⟨hperm.mem_iff.mpr hc, hcount⟩, rfl⟩

end Selection

/-- **When a pass claims a delivery.**  A pass whose queries do not throw claims one exactly when a
delivery that failed in its listing, with fewer than twenty such deliveries to look at before it, is
missing and due. -/
theorem recovery_makes_progress_iff {κ : Type} [LinearOrder κ] (js : Engine) (key : String → κ)
    (pass : RecoveryPass) (scannedThrough : ℤ) (db db' : RecoveryDb) (items : List DeliveryItem)
    (truncated : Bool) (claimed : List (String × ℕ)) (hkey : Collates js key items)
    (hscan : scanPages pass.listFails scannedThrough maxPages 0 pass.pages = .ok (items, truncated))
    (hclaims : passClaims js pass items scannedThrough db = .ok (claimed, db')) :
    (scanAndRequest js pass scannedThrough db).2
        = (requestRedeliveries pass.redeliverFails claimed 0 db').2 ∧
      (claimed ≠ [] ↔ ∃ guid t,
        LastFailure (succeeded items) pass.now scannedThrough items guid t ∧
        (lookedAtBefore js items pass.now scannedThrough guid t).ncard < maxRedeliveriesPerRun ∧
        ¬ Arrived (pass.arrivedBeforeScan.foldl RecoveryDb.arrive db) guid ∧
        Due pass.now db guid) := by
  rcases bind_ok.mp hclaims with ⟨missing, hmissing, hclaims⟩
  refine ⟨?_, ?_⟩
  · simp only [scanAndRequest, hscan, hmissing, hclaims]
    split <;> simp_all
  rw [claimRecovery_claims hclaims]
  simp only [ne_eq, not_true_eq_false, false_or, mem_filter, contains_iff_mem,
    mem_missingGuids hmissing, due_arrivals]
  constructor
  · rintro ⟨candidate, ⟨hmem, -, harrived⟩, hdue⟩
    obtain ⟨t, hfailure, hcount⟩ := (mem_selectRecoverable_iff hkey).mp ⟨candidate, hmem, rfl⟩
    exact ⟨candidate.guid, t, hfailure, hcount, harrived, hdue⟩
  · rintro ⟨guid, t, hfailure, hcount, harrived, hdue⟩
    obtain ⟨candidate, hmem, rfl⟩ := (mem_selectRecoverable_iff hkey).mpr ⟨t, hfailure, hcount⟩
    exact ⟨candidate, ⟨hmem, mem_map_of_mem hmem, harrived⟩, hdue⟩

theorem recovery_makes_progress_after_loss : ∃ claimed db',
    passClaims asciiEngine (passOver 3720000 (lostThenDelivered 60000) none)
      (lostThenDelivered 60000) 0 .empty = .ok (claimed, db') ∧ claimed ≠ [] := by
  have hok : (passClaims asciiEngine (passOver 3720000 (lostThenDelivered 60000) none)
      (lostThenDelivered 60000) 0 .empty).isOk = true := by decide +kernel
  cases hclaims : passClaims asciiEngine (passOver 3720000 (lostThenDelivered 60000) none)
      (lostThenDelivered 60000) 0 .empty with
  | error e => simp [hclaims, Except.toBool] at hok
  | ok p =>
    have hprogress := (recovery_makes_progress_iff asciiEngine (fun guid => if guid = "a" then 0 else 1)
      (passOver 3720000 (lostThenDelivered 60000) none) 0 .empty p.2 _ false p.1
      ⟨by decide +kernel, by decide⟩ rfl hclaims).2
    have hitem : (⟨1, "a", some 3600000, 502, "workflow_job"⟩ : DeliveryItem) ∈ lostThenDelivered 60000 := by
      decide
    have honly : ∀ item ∈ lostThenDelivered 60000,
        Recoverable (succeeded (lostThenDelivered 60000)) 3720000 0 item →
        item = ⟨1, "a", some 3600000, 502, "workflow_job"⟩ := by
      intro item hitem hrecoverable
      simp only [lostThenDelivered, mem_cons, not_mem_nil, or_false] at hitem
      rcases hitem with rfl | rfl
      · exact absurd hrecoverable.failed (by decide)
      · rfl
    refine ⟨p.1, p.2, rfl, hprogress.mpr ⟨"a", 3600000, ⟨⟨_, hitem, ⟨by decide, rfl, rfl, 3600000, rfl,
      by decide, by decide⟩, rfl, rfl⟩, ?_⟩, ?_, ?_, ?_⟩⟩
    · intro item hitem hrecoverable _ u hu
      rw [honly item hitem hrecoverable] at hu
      cases hu
      exact le_rfl
    · have hnone : lookedAtBefore asciiEngine (lostThenDelivered 60000) 3720000 0 "a" 3600000 = ∅ := by
        rw [Set.eq_empty_iff_forall_notMem]
        rintro other ⟨u, hother, hearlier⟩
        obtain ⟨item, hitem, hrecoverable, rfl, hu⟩ := hother.attempt
        rw [honly item hitem hrecoverable] at hu hearlier
        cases hu
        simp [asciiEngine] at hearlier
      show (lookedAtBefore asciiEngine (lostThenDelivered 60000) 3720000 0 "a" 3600000).ncard < _
      rw [hnone, Set.ncard_empty]
      decide
    · rintro ⟨i, row, hi, -⟩
      cases hi
    · intro i row hi
      cases hi

/-- Twenty deliveries that were given up, and one more. -/
def crowded : List DeliveryItem := (range 21).map fun k => ⟨k, toString k, some k, 502, "workflow_job"⟩

def crowdedDb : RecoveryDb := { RecoveryDb.empty with
    webhookRecovery := (range 20).foldl (fun rows k => rows.insert
      { requestedRecovery 0 ⟨toString k, k, "workflow_job", k, 502⟩ 3 0 with state := .abandoned }) .empty }

/-- The newest delivery is missing and due, and the pass claims nothing. -/
theorem recovery_stalls_behind_abandoned :
    (passClaims asciiEngine (passOver 100 crowded none) crowded (-1) crowdedDb).map Prod.fst = .ok [] ∧
      ∃ item ∈ crowded, Recoverable (succeeded crowded) 100 (-1) item ∧
        ¬ Arrived crowdedDb item.guid ∧ Due 100 crowdedDb item.guid := by
  have hselected : selectRecoverable asciiEngine crowded 100 (-1)
      = (range 20).map fun k => ⟨toString k, k, "workflow_job", k, 502⟩ := by
    rw [selectRecoverable, mergeSort_of_pairwise (by decide +kernel)]
    decide +kernel
  refine ⟨?_, ⟨20, "20", some 20, 502, "workflow_job"⟩, by decide,
    ⟨by decide, rfl, rfl, 20, rfl, by decide, by decide⟩, ?_, fun i row hi hguid => ?_⟩
  · rw [passClaims, show (passOver 100 crowded none).now = 100 from rfl, hselected]
    decide +kernel
  · rintro ⟨i, row, hi, -⟩
    cases hi
  · have hothers : ∀ r ∈ crowdedDb.webhookRecovery.rows, r.2.guid ≠ "20" := by decide
    exact absurd hguid (hothers (i, row) (get_eq_some_iff.mp hi))

end EraInfra
