import EraInfra.Backend.Policy
import EraInfra.Core.Sorting
import EraInfra.Core.Transaction

/-!
# Releases of the runner, and GitHub's cutoff

`runnerReleaseModel.ts`.  GitHub serves a runner for thirty days after a newer version is released.
The standing of a version is counted from the publication of its successor, the lowest of the listed
versions above it (`head?_newer`).  `cutoff_never_late_iff`: that is early enough exactly when no newer
release was published before the successor; a patch release of an older line, published late, moves the
cutoff back.
-/

namespace EraInfra.RunnerReleases

open DocStore

def dayMs : ℤ := 24 * 60 * 60000
def runnerReleaseGraceMs : ℤ := 30 * dayMs
def runnerReleaseWarnAfterMs : ℤ := 25 * dayMs

/-- `\d{1,6}`. -/
def isVersionNumber (part : String) : Bool :=
  part ≠ "" && part.toList.all Char.isDigit && part.length ≤ 6

/-- What `VERSION_PATTERN` captures. -/
def versionMatch (text : String) : Option (List ℕ) :=
  let parts := splitText '.' text
  if parts.length = 3 && parts.all isVersionNumber then
    some (parts.map fun part => Nat.ofDigitChars 10 part.toList 0)
  else none

structure RunnerRelease where
  version : String
  publishedAt : ℤ
deriving DecidableEq

def runnerVersionOf (value : String) : Option String :=
  if (versionMatch (trim value)).isSome then some (trim value) else none

/-- The loop over the captured numbers. -/
def firstDifference : List ℕ → List ℕ → ℤ
  | a :: as, b :: bs => if (a : ℤ) - b ≠ 0 then a - b else firstDifference as bs
  | _, _ => 0

def compareRunnerVersions (left right : String) : Except String ℤ :=
  match versionMatch left, versionMatch right with
  | some a, some b => pure (firstDifference a b)
  | none, _ => throw ("Not a runner version: " ++ left)
  | some _, none => throw ("Not a runner version: " ++ right)

def isNewer (version : String) (release : RunnerRelease) : Bool :=
  (compareRunnerVersions release.version version).toOption.any (0 < ·)

inductive CutoffState
  | current
  | supported
  | expiring
  | expired
deriving DecidableEq

def CutoffState.rank : CutoffState → ℕ
  | .current => 0
  | .supported => 1
  | .expiring => 2
  | .expired => 3

structure Behind where
  successor : RunnerRelease
  newest : RunnerRelease
  deadline : ℤ
  successorBeforeList : Bool
deriving DecidableEq

/-- What a version that is not `current` is behind, and the state of either. -/
structure RunnerReleaseStanding where
  state : CutoffState
  version : String
  behind : Option Behind
deriving DecidableEq

/-- The state of a version whose successor was published at a time. -/
def stateAt (publishedAt now : ℤ) : CutoffState :=
  if publishedAt + runnerReleaseGraceMs ≤ now then .expired
  else if publishedAt + runnerReleaseWarnAfterMs ≤ now then .expiring
  else .supported

def runnerReleaseStanding (version : String) (releases : List RunnerRelease) (now : ℤ) :
    Except String (Option RunnerReleaseStanding) := do
  if runnerVersionOf version = none then return none
  -- the filter compares every release, and throws at one that is not a version
  releases.forM fun release => (compareRunnerVersions release.version version).map fun _ => ()
  let newer := (releases.filter (isNewer version)).mergeSort fun left right =>
    (compareRunnerVersions left.version right.version).toOption.any (· ≤ 0)
  match newer.head?, newer.getLast? with
  | some successor, some newest =>
    let successorBeforeList := releases.all (isNewer version)
    let state := if successorBeforeList then .expired else stateAt successor.publishedAt now
    return some ⟨state, version, some ⟨successor, newest,
      successor.publishedAt + runnerReleaseGraceMs, successorBeforeList⟩⟩
  | _, _ => return some ⟨.current, version, none⟩

/-! ## The successor -/

/-- The lowest of the listed versions above a version; of two listings of it, the first. -/
def successorOf (version : String) (releases : List RunnerRelease) : Option RunnerRelease :=
  releases.find? fun s => isNewer version s &&
    releases.all fun r => !isNewer version r || !isNewer r.version s

section Standing

variable {version : String} {releases : List RunnerRelease}

/-- Versions are ordered by their numbers, lexicographically. -/
def versionKey (version : String) : ℕ ×ₗ ℕ ×ₗ ℕ :=
  let parts := (versionMatch version).getD []
  toLex (parts.getD 0 0, toLex (parts.getD 1 0, parts.getD 2 0))

lemma versionMatch_eq (h : runnerVersionOf version = some version) :
    ∃ a b c, versionMatch version = some [a, b, c] := by
  simp only [runnerVersionOf, Option.ite_none_right_eq_some, Option.some.injEq] at h
  rw [h.2] at h
  obtain ⟨parts, hparts⟩ := Option.isSome_iff_exists.mp h.1
  have hlength : parts.length = 3 := by
    simp only [versionMatch, Option.ite_none_right_eq_some, Option.some.injEq, Bool.and_eq_true,
      decide_eq_true_eq] at hparts
    rw [← hparts.2, List.length_map, hparts.1.1]
  obtain ⟨a, b, c, rfl⟩ := List.length_eq_three.mp hlength
  exact ⟨a, b, c, hparts⟩

lemma compareRunnerVersions_ok {left right : String} (hleft : runnerVersionOf left = some left)
    (hright : runnerVersionOf right = some right) :
    ∃ order, compareRunnerVersions left right = .ok order ∧
      (order ≤ 0 ↔ versionKey left ≤ versionKey right) := by
  obtain ⟨a, b, c, hl⟩ := versionMatch_eq hleft
  obtain ⟨a', b', c', hr⟩ := versionMatch_eq hright
  refine ⟨firstDifference [a, b, c] [a', b', c'], by rw [compareRunnerVersions, hl, hr]; rfl, ?_⟩
  simp only [versionKey, hl, hr, Option.getD_some, List.getD_cons_zero, List.getD_cons_succ,
    Prod.Lex.toLex_le_toLex, firstDifference]
  split_ifs <;> omega

lemma compare_eq_decide {a b : RunnerRelease} (ha : runnerVersionOf a.version = some a.version)
    (hb : runnerVersionOf b.version = some b.version) :
    (compareRunnerVersions a.version b.version).toOption.any (· ≤ 0)
        = decide (versionKey a.version ≤ versionKey b.version) ∧
      isNewer b.version a = !decide (versionKey a.version ≤ versionKey b.version) := by
  obtain ⟨order, horder, hkey⟩ := compareRunnerVersions_ok ha hb
  rw [isNewer, horder, ← decide_not]
  exact ⟨decide_eq_decide.mpr hkey, decide_eq_decide.mpr (not_le.symm.trans (not_congr hkey))⟩

/-- Sorting puts the successor in front. -/
lemma head?_newer (version : String)
    (hreleases : ∀ r ∈ releases, runnerVersionOf r.version = some r.version) :
    ((releases.filter (isNewer version)).mergeSort fun left right =>
      (compareRunnerVersions left.version right.version).toOption.any (· ≤ 0)).head?
      = successorOf version releases := by
  have hmem : ∀ r ∈ releases.filter (isNewer version), runnerVersionOf r.version = some r.version :=
    fun r hr => hreleases r (List.mem_filter.mp hr).1
  have hkey : ∀ a ∈ releases.filter (isNewer version), ∀ b ∈ releases.filter (isNewer version), _ :=
    fun a ha b hb => (compare_eq_decide (hmem a ha) (hmem b hb)).1
  rw [Sorting.head?_mergeSort hkey, List.find?_filter, successorOf]
  refine List.find?_congr fun a ha => ?_
  have hlowest : ((releases.filter (isNewer version)).all fun right =>
        (compareRunnerVersions a.version right.version).toOption.any (· ≤ 0))
      = releases.all fun r => !isNewer version r || !isNewer r.version a := by
    rw [List.all_filter, Bool.eq_iff_iff, List.all_eq_true, List.all_eq_true]
    refine forall₂_congr fun b hb => ?_
    obtain ⟨hle, hnewer⟩ := compare_eq_decide (hreleases a ha) (hreleases b hb)
    rw [hle, hnewer, Bool.not_not]
  rw [hlowest, Bool.decide_and, Bool.decide_coe, Bool.decide_coe]

/-- At every time a version is current, or its state is counted from its successor. -/
lemma standing_cases (hversion : runnerVersionOf version = some version)
    (hreleases : ∀ r ∈ releases, runnerVersionOf r.version = some r.version)
    (hreach : ∃ r ∈ releases, isNewer version r = false) :
    ((∀ r ∈ releases, isNewer version r = false) ∧ successorOf version releases = none ∧ ∀ now,
      runnerReleaseStanding version releases now = .ok (some ⟨.current, version, none⟩)) ∨
    ∃ behind, successorOf version releases = some behind.successor ∧
      ∀ now, runnerReleaseStanding version releases now
        = .ok (some ⟨stateAt behind.successor.publishedAt now, version, some behind⟩) := by
  have hcompared : ∀ r ∈ releases,
      ((compareRunnerVersions r.version version).map fun _ => ()) = .ok () := by
    intro r hr
    obtain ⟨order, horder, -⟩ := compareRunnerVersions_ok (hreleases r hr) hversion
    rw [horder]
    rfl
  have hlisted : releases.all (isNewer version) = false := by
    simpa using hreach
  simp only [runnerReleaseStanding, hversion, reduceCtorEq, if_false, forM_bind_ok, hlisted,
    Bool.false_eq_true]
  have hhead := head?_newer version hreleases
  generalize hsorted : (releases.filter (isNewer version)).mergeSort _ = newer at hhead ⊢
  cases newer with
  | nil =>
    refine .inl ⟨fun r hr => ?_, hhead.symm, fun now => ⟨hcompared, rfl⟩⟩
    have hnone : releases.filter (isNewer version) = [] := by
      rw [← List.length_eq_zero_iff, ← List.length_mergeSort, hsorted, List.length_nil]
    simpa using List.filter_eq_nil_iff.mp hnone r hr
  | cons successor newer =>
    rw [List.getLast?_cons]
    exact .inr ⟨⟨successor, _, _, _⟩, hhead.symm, fun now => ⟨hcompared, rfl⟩⟩

end Standing

/-- A state only gets worse as time passes. -/
lemma stateAt_mono (publishedAt : ℤ) {t u : ℤ} (h : t ≤ u) :
    (stateAt publishedAt t).rank ≤ (stateAt publishedAt u).rank := by
  simp only [stateAt]
  split_ifs <;> first | omega | simp [CutoffState.rank]

/-- **When a cutoff is reported in time.**  For a version on or within the list, the answers only
move towards `expired` as time passes; and every newer release brings `expiring` after 25 days and
`expired` after 30, whatever its date, exactly when the lowest of them was published first. -/
theorem cutoff_never_late_iff (version : String) (releases : List RunnerRelease)
    (hversion : runnerVersionOf version = some version)
    (hreleases : ∀ r ∈ releases, runnerVersionOf r.version = some r.version)
    (hreach : ∃ r ∈ releases, isNewer version r = false) :
    ∃ answer : ℤ → RunnerReleaseStanding,
      (∀ now, runnerReleaseStanding version releases now = .ok (some (answer now))) ∧
      (∀ t u, t ≤ u → (answer t).state.rank ≤ (answer u).state.rank) ∧
      ((∀ now, ∀ r ∈ releases, isNewer version r = true →
          (r.publishedAt + runnerReleaseGraceMs ≤ now → (answer now).state = .expired) ∧
          (r.publishedAt + runnerReleaseWarnAfterMs ≤ now →
            (answer now).state = .expiring ∨ (answer now).state = .expired)) ↔
        ∀ s ∈ successorOf version releases, ∀ r ∈ releases, isNewer version r = true →
          s.publishedAt ≤ r.publishedAt) := by
  rcases standing_cases hversion hreleases hreach with ⟨hnone, -, hanswer⟩ | ⟨behind, hsuccessor, hanswer⟩
  · refine ⟨_, hanswer, fun _ _ _ => le_rfl, ?_⟩
    simp +contextual [hnone]
  · rw [hsuccessor]
    refine ⟨_, hanswer, fun t u => stateAt_mono _, fun h s hs r hr hnewer => ?_,
      fun h now r hr hnewer => ?_⟩
    · cases hs
      by_contra hlate
      have hexpired := (h _ r hr hnewer).1 le_rfl
      simp only [stateAt] at hexpired
      split_ifs at hexpired
      omega
    · have hfirst := h _ rfl r hr hnewer
      simp only [stateAt]
      constructor
      · intro hgrace
        rw [if_pos (by omega)]
      · intro hwarn
        split_ifs
        · exact .inr rfl
        · exact .inl rfl
        · omega

theorem cutoff_in_time_for_one_line :
    let releases := [⟨"2.336.0", 0⟩, ⟨"2.337.0", dayMs⟩]
    ∃ answer : ℤ → RunnerReleaseStanding,
      (∀ now, runnerReleaseStanding "2.336.0" releases now = .ok (some (answer now))) ∧
      ∀ t u, t ≤ u → (answer t).state.rank ≤ (answer u).state.rank := by
  intro releases
  obtain ⟨answer, h, hmono, -⟩ := cutoff_never_late_iff "2.336.0" releases
    (by decide) (by decide) (by decide)
  exact ⟨answer, h, hmono⟩

/-- From 2.336.0, with a 2.338.0 on day 0 and a 2.337.1 on day 20, the cutoff is put on day 50. -/
theorem cutoff_late_after_patch_release :
    isNewer "2.336.0" ⟨"2.338.0", 0⟩ = true ∧
    runnerReleaseStanding "2.336.0"
        [⟨"2.336.0", 0⟩, ⟨"2.337.1", 20 * dayMs⟩, ⟨"2.338.0", 0⟩] runnerReleaseGraceMs
      = .ok (some ⟨.supported, "2.336.0", some
          ⟨⟨"2.337.1", 20 * dayMs⟩, ⟨"2.338.0", 0⟩, 50 * dayMs, false⟩⟩) := by
  refine ⟨by decide, ?_⟩
  rw [runnerReleaseStanding, List.mergeSort_of_pairwise (by decide)]
  decide

end EraInfra.RunnerReleases
