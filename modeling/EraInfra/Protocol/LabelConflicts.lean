import EraInfra.Protocol.WorkSteps

/-!
# Label conflicts between Profiles

GitHub sends a job to any scale set whose labels include every label the job asks for, so a scale
set that *answers to* another Profile's name can take that Profile's jobs.  `scaleSetConflict` is
this relation made symmetric (`scaleSetConflict_isSome`), which is why it is enough that a
registration looks at the conflicts from its own side.

Old conflicts are kept by the other Profile's name, so the pairs that never grow are pairs of
*names* (`conflictPairs`).  In a table in which names are unique, as `registerProfile` keeps them,
that is the same as pairs of rows.
-/

namespace EraInfra

open DocStore List Option Table
open Prod (fst snd)

/-! ## The relation -/

section Relation

variable (js : Engine)

/-- The scale set of `profile` carries the name of `other` as a label. -/
def Answers (profile other : Profile) : Prop :=
  js.toLowerCase other.scaleSetName ∈ scaleSetLabels js profile ∨
    js.toLowerCase other.name ∈ scaleSetLabels js profile

/-- GitHub's rule: the scale set of `profile` may be given a job that asks for `asked`. -/
def MatchesJob (profile : Profile) (asked : List String) : Prop :=
  ∀ label ∈ asked, js.toLowerCase label ∈ scaleSetLabels js profile

/-- A job that asks for a Profile by its name or its scale set's, in any letter case. -/
def AsksFor (asked : List String) (profile : Profile) : Prop :=
  ∃ label ∈ asked, js.toLowerCase label = js.toLowerCase profile.name ∨
    js.toLowerCase label = js.toLowerCase profile.scaleSetName

variable {js} {p q : Profile}

lemma scaleSetConflict_isSome : (scaleSetConflict js p q).isSome = true ↔
      p.name ≠ q.name ∧ (Answers js p q ∨ Answers js q p) := by
  unfold scaleSetConflict
  by_cases hname : q.name = p.name
  · simp [hname]
  rw [if_neg hname]
  have hname : p.name ≠ q.name := Ne.symm hname
  cases htaken : (scaleSetLabels js p).find? fun label =>
      label = js.toLowerCase q.scaleSetName || label = js.toLowerCase q.name with
  | some taken =>
    have hmem := mem_of_find?_eq_some htaken
    have hown := find?_some htaken
    have hanswers : Answers js p q := by
      rcases (by simpa using hown : taken = js.toLowerCase q.scaleSetName ∨
        taken = js.toLowerCase q.name) with rfl | rfl
      · exact .inl hmem
      · exact .inr hmem
    simp [hname, hanswers]
  | none =>
    have hnone := find?_eq_none.mp htaken
    have hanswers : ¬ Answers js p q := by
      rintro (h | h)
      · exact hnone _ h (by simp)
      · exact hnone _ h (by simp)
    simp only [hname, hanswers, ne_eq]
    simp [Answers]

lemma scaleSetConflict_symm : (scaleSetConflict js p q).isSome = (scaleSetConflict js q p).isSome := by
  rw [Bool.eq_iff_iff, scaleSetConflict_isSome, scaleSetConflict_isSome, ne_comm, or_comm]

/-- A job that asks for a Profile is matched by another scale set only if that one answers to it. -/
lemma answers_of_matchesJob {asked : List String} (hasks : AsksFor js asked q)
    (hmatches : MatchesJob js p asked) : Answers js p q := by
  obtain ⟨label, hmem, hname | hname⟩ := hasks
  · exact .inr (hname ▸ hmatches label hmem)
  · exact .inl (hname ▸ hmatches label hmem)

lemma mem_conflictsOf {others : List Profile} {name : String} :
    (∃ conflict ∈ conflictsOf js p others, conflict.other = name) ↔
      ∃ q ∈ others, q.name = name ∧ (scaleSetConflict js p q).isSome = true := by
  simp only [conflictsOf, mem_filterMap, map_eq_some_iff, isSome_iff_exists]
  constructor
  · rintro ⟨conflict, ⟨q, hq, reason, hreason, rfl⟩, rfl⟩
    exact ⟨q, hq, rfl, reason, hreason⟩
  · rintro ⟨q, hq, rfl, reason, hreason⟩
    exact ⟨_, ⟨q, hq, reason, hreason, rfl⟩, rfl⟩

end Relation

/-! ## The conflicts of a table -/

/-- Two rows, both active, whose Profiles conflict. -/
structure ConflictAt (js : Engine) (db : Db) (i j : DocId Profile) (p q : Profile) : Prop where
  left : db.profiles.get i = some p
  right : db.profiles.get j = some q
  leftActive : p.state = .active
  rightActive : q.state = .active
  conflict : (scaleSetConflict js p q).isSome = true

/-- The unordered pairs of active Profiles that conflict, by name. -/
def conflictPairs (js : Engine) (db : Db) : Set (Sym2 String) :=
  { pair | ∃ i j p q, ConflictAt js db i j p q ∧ pair = s(p.name, q.name) }

def UniqueNames (db : Db) : Prop :=
  ∀ i j p q, db.profiles.get i = some p → db.profiles.get j = some q → p.name = q.name → i = j

variable {js : Engine} {db db' : Db} {now : ℤ} {i j : DocId Profile} {p q : Profile}

lemma ConflictAt.symm (h : ConflictAt js db i j p q) : ConflictAt js db j i q p :=
  ⟨h.right, h.left, h.rightActive, h.leftActive, scaleSetConflict_symm ▸ h.conflict⟩

variable {value : Profile} {r : RegisterResult} {args : RegisterProfileArgs}

/-- What a registration that adds no conflict knows: whatever its row conflicts with, the stored row
was active and conflicted with a Profile of that name. -/
lemma old_of_introduced_nil {existing : Option Profile}
    (hnone : introducedLabelConflicts js existing value db = [])
    (hj : db.profiles.get j = some q) (hactive : q.state = .active)
    (hc : (scaleSetConflict js value q).isSome = true) :
    ∃ p j' q', existing = some p ∧ p.state = .active ∧ db.profiles.get j' = some q' ∧
      q'.state = .active ∧ q'.name = q.name ∧ (scaleSetConflict js p q').isSome = true := by
  have hname := (scaleSetConflict_isSome.mp hc).1
  set others := ((db.profiles.collect fun profile => profile.state = .active).map snd).filter
    fun other => other.name ≠ value.name with hothers
  have hmem : q ∈ others := by
    refine List.mem_filter.mpr ⟨List.mem_map.mpr ⟨(j, q), mem_collect.mpr ⟨hj, ?_⟩, rfl⟩, ?_⟩
    · simpa using hactive
    · simpa using Ne.symm hname
  obtain ⟨conflict, hconflict, hother⟩ := mem_conflictsOf.mpr ⟨q, hmem, rfl, hc⟩
  have hold := List.filter_eq_nil_iff.mp hnone conflict hconflict
  rcases existing with _ | p
  · simp at hold
  by_cases hp : p.state = .active
  · simp only [hp, ne_eq, not_true_eq_false, if_false, Bool.not_eq_true', Bool.not_eq_false,
      contains_eq_mem, decide_eq_true_eq, List.mem_map] at hold
    obtain ⟨q', hq', hname', hc'⟩ := mem_conflictsOf.mp hold
    obtain ⟨⟨j', q''⟩, hcollected, rfl⟩ := List.mem_map.mp (List.mem_filter.mp hq').1
    obtain ⟨hget, hactive'⟩ := mem_collect.mp hcollected
    exact ⟨p, j', q'', rfl, hp, hget, by simpa using hactive', hname'.trans hother, hc'⟩
  · simp [hp] at hold

/-! ## One call -/

/-- What a registration does to the table of Profiles. -/
lemma registerProfile_profiles (h : registerProfile js now args db = .ok (r, db')) :
    db'.profiles = db.profiles ∨
      ∃ existing : Option (DocId Profile × Profile), profileFor db args.name = .ok existing ∧
        introducedLabelConflicts js (existing.map snd)
          (registeredProfile now args (existing.map snd)) db = [] ∧
        db'.profiles = (storeProfile existing
          (registeredProfile now args (existing.map snd)) db).profiles := by
  obtain ⟨-, -, h⟩ := bind_ok.mp h
  obtain ⟨-, -, h⟩ := bind_ok.mp h
  obtain ⟨existing, hexisting, h⟩ := bind_ok.mp h
  dsimp only at h
  split at h
  · cases h
    exact .inl rfl
  rename_i hnone
  refine .inr ⟨existing, hexisting, hnone, ?_⟩
  split at h
  · obtain ⟨⟨tally, db₁⟩, hretired, h⟩ := bind_ok.mp h
    cases h
    have hprofiles : ∀ profiles i a f released dropped d d', Edits i a f released dropped d d' →
        Rule ⟨now, .registerProfile args⟩ db i a f released dropped →
        d.profiles = profiles → d'.profiles = profiles :=
      fun _ _ _ _ _ _ _ _ hedits _ hsame => hedits.profiles.trans hsame
    exact (retireOffPinForProfile_change (hprofiles _) trivial rfl hretired).1
  · cases h
    rfl

/-- A row of the table after `storeProfile` is the stored value's, or was there before. -/
lemma get_storeProfile {existing : Option (DocId Profile × Profile)}
    (hstored : ∀ i p, existing = some (i, p) → db.profiles.get i = some p)
    (h : (storeProfile existing value db).profiles.get i = some p) :
    (p = value ∧ i = (existing.elim db.profiles.next fst)) ∨
      (i ≠ existing.elim db.profiles.next fst ∧ db.profiles.get i = some p) := by
  cases existing with
  | none =>
    simp only [storeProfile, get_insert] at h
    split at h
    · exact .inl ⟨(some.inj h).symm, by assumption⟩
    · exact .inr ⟨by assumption, h⟩
  | some row =>
    obtain ⟨k, old⟩ := row
    simp only [storeProfile, get_patch] at h
    split at h
    · rename_i hik
      rw [hik, hstored k old rfl, map_some, some.injEq] at h
      exact .inl ⟨h.symm, hik⟩
    · exact .inr ⟨by assumption, h⟩

/-- What a call leaves of the conflicts: each is one the table had, by name, and the rows that have
a name kept it or, when new, took one that was free. -/
structure NoNewConflicts (js : Engine) (db db' : Db) : Prop where
  old : ∀ i j p q, ConflictAt js db' i j p q →
    ∃ i' j' p' q', ConflictAt js db i' j' p' q' ∧ p'.name = p.name ∧ q'.name = q.name
  names : ∀ i p, db'.profiles.get i = some p → (∃ p', db.profiles.get i = some p' ∧ p'.name = p.name) ∨
      (i = db.profiles.next ∧ ∀ j q, db.profiles.get j = some q → q.name ≠ p.name)

lemma NoNewConflicts.of_profiles (h : db'.profiles = db.profiles) : NoNewConflicts js db db' where
  old _ _ _ _ hc := ⟨_, _, _, _,
    ⟨h ▸ hc.left, h ▸ hc.right, hc.leftActive, hc.rightActive, hc.conflict⟩, rfl, rfl⟩
  names _ p hi := .inl ⟨p, h ▸ hi, rfl⟩

lemma registerProfile_noNewConflicts
    (h : registerProfile js now args db = .ok (r, db')) : NoNewConflicts js db db' := by
  rcases registerProfile_profiles h with hsame | ⟨existing, hexisting, hnone, hprofiles⟩
  · exact .of_profiles hsame
  set value := registeredProfile now args (existing.map snd) with hvalue
  have hvalueName : value.name = args.name := rfl
  have hstored : ∀ i p, existing = some (i, p) → db.profiles.get i = some p ∧ p.name = args.name := by
    rintro i p rfl
    obtain ⟨hget, hname, -⟩ := unique_some hexisting
    exact ⟨hget, by simpa using hname⟩
  have hrow : ∀ i p, db'.profiles.get i = some p →
      (p = value ∧ i = existing.elim db.profiles.next fst) ∨ db.profiles.get i = some p := by
    intro i p hi
    rw [hprofiles] at hi
    exact (get_storeProfile (fun i p hp => (hstored i p hp).1) hi).imp_right And.right
  -- The side that is not the registered row is compared with it through `introduced`.
  have hside : ∀ j q, db.profiles.get j = some q → q.state = .active →
      (scaleSetConflict js value q).isSome = true →
      ∃ i' j' p' q', ConflictAt js db i' j' p' q' ∧ p'.name = value.name ∧ q'.name = q.name := by
    intro j q hj hactive hc
    obtain ⟨old, j', q', hold, holdActive, hj', hq'Active, hq'Name, hc'⟩ :=
      old_of_introduced_nil hnone hj hactive hc
    obtain ⟨⟨k, old'⟩, hrow', rfl⟩ := map_eq_some_iff.mp hold
    obtain ⟨hget, hname⟩ := hstored k old' hrow'
    exact ⟨k, j', old', q', ⟨hget, hj', holdActive, hq'Active, hc'⟩, hname, hq'Name⟩
  refine ⟨?_, ?_⟩
  · intro i j p q hc
    rcases hrow i p hc.left with ⟨rfl, -⟩ | hi <;> rcases hrow j q hc.right with ⟨rfl, -⟩ | hj
    · exact absurd rfl (scaleSetConflict_isSome.mp hc.conflict).1
    · exact hside j q hj hc.rightActive hc.conflict
    · obtain ⟨j', i', q', p', hold, hq', hp'⟩ := hside i p hi hc.leftActive hc.symm.conflict
      exact ⟨i', j', p', q', hold.symm, hp', hq'⟩
    · exact ⟨i, j, p, q, ⟨hi, hj, hc.leftActive, hc.rightActive, hc.conflict⟩, rfl, rfl⟩
  · intro i p hi
    rcases hrow i p hi with ⟨rfl, hid⟩ | hi
    · cases hex : existing with
      | none =>
        rw [hex] at hid hexisting
        refine .inr ⟨hid, fun j q hj hname => ?_⟩
        have hfree := not_of_unique_none hexisting hj
        rw [hvalueName] at hname
        simp [hname] at hfree
      | some row =>
        rw [hex] at hid
        obtain ⟨hget, hname⟩ := hstored row.1 row.2 hex
        exact .inl ⟨row.2, hid ▸ hget, hname⟩
    · exact .inl ⟨p, hi, rfl⟩

lemma pauseProfile_noNewConflicts {name : String} {caller : Option ControllerCaller} {r : Bool}
    (h : pauseProfile now name caller db = .ok (r, db')) : NoNewConflicts js db db' := by
  obtain ⟨-, -, h⟩ := bind_ok.mp h
  obtain ⟨-, -, h⟩ := bind_ok.mp h
  obtain ⟨row, -, h⟩ := bind_ok.mp h
  split at h
  · cases h
    exact .of_profiles rfl
  rename_i k stored
  split at h
  · cases h
    set paused := fun stored : Profile => { stored with state := .paused, updatedAt := now }
    -- A paused row is not active, so a conflict left is one between rows the pause did not touch.
    have hactive : ∀ i p, (db.profiles.patch k paused).get i = some p → p.state = .active →
        db.profiles.get i = some p := by
      intro i p hi hp
      rw [get_patch] at hi
      split at hi
      · obtain ⟨_, -, rfl⟩ := map_eq_some_iff.mp hi
        cases hp
      · exact hi
    refine ⟨fun i j p q hc => ⟨i, j, p, q, ⟨hactive i p hc.left hc.leftActive,
      hactive j q hc.right hc.rightActive, hc.leftActive, hc.rightActive, hc.conflict⟩,
      rfl, rfl⟩, fun i p hi => .inl ?_⟩
    rw [get_patch] at hi
    split at hi
    · obtain ⟨old, hold, rfl⟩ := map_eq_some_iff.mp hi
      exact ⟨old, hold, rfl⟩
    · exact ⟨p, hi, rfl⟩
  · cases h
    exact .of_profiles rfl

/-! ## Runs -/

/-- The calls that change Profiles. -/
inductive ProfileOp
  | registerProfile (args : RegisterProfileArgs)
  | pauseProfile (name : String) (caller : Option ControllerCaller)

def performProfile (js : Engine) (now : ℤ) (db : Db) : ProfileOp → Result Db
  | .registerProfile args => Prod.snd <$> registerProfile js now args db
  | .pauseProfile name caller => Prod.snd <$> pauseProfile now name caller db

/-- One call at its time; one that throws leaves the database as it was. -/
def stepProfile (js : Engine) (db : Db) (call : ℤ × ProfileOp) : Db :=
  commit db (performProfile js call.1 db call.2)

def afterProfiles (js : Engine) (start : Db) (calls : List (ℤ × ProfileOp)) : Db :=
  run (stepProfile js) start calls

lemma stepProfile_noNewConflicts (js : Engine) (db : Db) (call : ℤ × ProfileOp) :
    NoNewConflicts js db (stepProfile js db call) := by
  obtain ⟨now, op⟩ := call
  unfold stepProfile
  rcases hresult : performProfile js now db op with err | db'
  · exact .of_profiles rfl
  cases op with
  | registerProfile args =>
    obtain ⟨r, hok⟩ := map_snd_ok.mp hresult
    exact registerProfile_noNewConflicts hok
  | pauseProfile name caller =>
    obtain ⟨r, hok⟩ := map_snd_ok.mp hresult
    exact pauseProfile_noNewConflicts hok

lemma NoNewConflicts.subset (h : NoNewConflicts js db db') :
    conflictPairs js db' ⊆ conflictPairs js db := by
  rintro _ ⟨i, j, p, q, hc, rfl⟩
  obtain ⟨i', j', p', q', hold, hp, hq⟩ := h.old i j p q hc
  exact ⟨i', j', p', q', hold, by rw [hp, hq]⟩

/-- In a table with unique names a pair of rows that conflicts after a call did so before it. -/
lemma NoNewConflicts.rows (h : NoNewConflicts js db db') (hunique : UniqueNames db)
    (hc : ConflictAt js db' i j p q) : ∃ p' q', ConflictAt js db i j p' q' := by
  obtain ⟨i', j', p', q', hold, hp, hq⟩ := h.old i j p q hc
  have hkeep : ∀ i i' p p', db'.profiles.get i = some p → db.profiles.get i' = some p' →
      p'.name = p.name → i' = i := by
    intro i i' p p' hi hi' hname
    rcases h.names i p hi with ⟨old, hget, holdName⟩ | ⟨-, hfree⟩
    · exact hunique i' i p' old hi' hget (hname.trans holdName.symm)
    · exact absurd hname (hfree i' p' hi')
  obtain rfl := hkeep i i' p p' hc.left hold.left hp
  obtain rfl := hkeep j j' q q' hc.right hold.right hq
  exact ⟨p', q', hold⟩

lemma afterProfiles_subset (start : Db) (calls : List (ℤ × ProfileOp)) :
    conflictPairs js (afterProfiles js start calls) ⊆ conflictPairs js start :=
  run_invariant (fun _ db => conflictPairs js db ⊆ conflictPairs js start) subset_rfl
    (fun _ c hsub => (stepProfile_noNewConflicts js _ c).subset.trans hsub) calls

lemma afterProfiles_uniqueNames {start : Db} (hunique : UniqueNames start)
    (calls : List (ℤ × ProfileOp)) : UniqueNames (afterProfiles js start calls) := by
  refine run_invariant (fun _ db => UniqueNames db) hunique (fun calls c hunique => ?_) calls
  intro i j p q hi hj hname
  have h := stepProfile_noNewConflicts js (afterProfiles js start calls) c
  rcases h.names i p hi with ⟨p', hp, hpName⟩ | ⟨hi', hfree⟩ <;>
    rcases h.names j q hj with ⟨q', hq, hqName⟩ | ⟨hj', hfree'⟩
  · exact hunique i j p' q' hp hq (by rw [hpName, hqName, hname])
  · exact absurd (hpName.trans hname) (hfree' i p' hp)
  · exact absurd (hqName.trans hname.symm) (hfree j q' hq)
  · exact hi'.trans hj'.symm

/-- **Label conflicts never grow.**  `scaleSetConflict` does not depend on whose side is asked.
Along every run of registrations and pauses, from any table, no call adds a pair of active
Profiles that conflict — by name in any table, and by row where names are unique, which they
then stay.  So from a table without conflicts no job that asks for one active Profile can ever
be matched by the scale set of another. -/
theorem label_conflicts_never_grow (js : Engine) (start : Db) (calls : List (ℤ × ProfileOp)) :
    (∀ p q, (scaleSetConflict js p q).isSome = (scaleSetConflict js q p).isSome) ∧
    (∀ before call rest, calls = before ++ call :: rest →
      conflictPairs js (afterProfiles js start (before ++ [call]))
        ⊆ conflictPairs js (afterProfiles js start before) ∧
      (UniqueNames start → ∀ i j p q,
        ConflictAt js (afterProfiles js start (before ++ [call])) i j p q →
          ∃ p' q', ConflictAt js (afterProfiles js start before) i j p' q')) ∧
    (UniqueNames start → UniqueNames (afterProfiles js start calls)) ∧
    (conflictPairs js start = ∅ → ∀ i j p q,
      (afterProfiles js start calls).profiles.get i = some p →
      (afterProfiles js start calls).profiles.get j = some q →
      p.state = .active → q.state = .active → p.name ≠ q.name →
        ∀ asked, AsksFor js asked q → ¬ MatchesJob js p asked) := by
  refine ⟨fun _ _ => scaleSetConflict_symm, ?_, fun h => afterProfiles_uniqueNames h calls, ?_⟩
  · rintro before call rest -
    have hstep := stepProfile_noNewConflicts js (afterProfiles js start before) call
    rw [show afterProfiles js start (before ++ [call])
      = stepProfile js (afterProfiles js start before) call from run_snoc]
    exact ⟨hstep.subset, fun hunique i j p q hc =>
      hstep.rows (afterProfiles_uniqueNames hunique before) hc⟩
  · intro hfree i j p q hi hj hp hq hname asked hasks hmatches
    have hconflict : (scaleSetConflict js p q).isSome = true :=
      scaleSetConflict_isSome.mpr ⟨hname, .inl (answers_of_matchesJob hasks hmatches)⟩
    have hpair : s(p.name, q.name) ∈ conflictPairs js start :=
      afterProfiles_subset start calls ⟨i, j, p, q, ⟨hi, hj, hp, hq, hconflict⟩, rfl⟩
    rw [hfree] at hpair
    exact hpair

end EraInfra
