import EraInfra.Cache.Isolation
import EraInfra.Cache.JobFacts

/-!
# Who may write where

The controller and the cache service together: which claims come out of GitHub's answers about a run.

**Each side** — `scope_ok` and `scope_canWrite_iff` say what claims facts give, `cacheFactsFromRun_ok`
what facts a run gives, `matchPullRequest_eq_some` what it means to be the pull request of a run.

**Together** — a job that may write runs code of its own repository, in the scope GitHub gives to its
event, unless the two sides read the name of the head repository differently (`Misread`): the
controller takes it as it is, and the service trims it and takes no name for the job's own, but on a
pull request (`write_needs_own_head_iff`).  So a `push` run without a head repository writes
(`unnamed_head_writes`).
-/

namespace EraInfra.CacheScope

open DocStore Encoding CacheIndex List Option

variable {go : Library}

/-! ## The service -/

/-- Whether facts are of a job that runs foreign code, or may. -/
def isUntrusted (go : Library) (facts : JobFacts) : Bool := (trimSpace facts.headRepository ≠ [] &&
      !go.equalFold (trimSpace facts.headRepository) (trimSpace facts.repository)) ||
    (pullRequestEvents.contains (go.toLower (trimSpace facts.event)) &&
      trimSpace facts.headRepository = [])

variable {repository : Bytes} {facts : JobFacts} {head : Repository}

variable {claims : ScopedClaims} {run : WorkflowRun} {ref : Bytes} {runs : WorkflowRuns}
  {job : JobStarted}

lemma scope_ok (h : scope go facts = .ok claims) : isOwnerName (trimSpace facts.repository) = true ∧
      (isUntrusted go facts = true → claims.permission = .read ∧ claims.baseRef = [] ∧
        claims.defaultBranch = trimSpace facts.defaultBranch ∧
        claims.ref = if trimSpace facts.baseRef = [] then trimSpace facts.defaultBranch
          else trimSpace facts.baseRef) ∧
      (isUntrusted go facts = false → claims.ref = trimSpace facts.ref ∧
        (claims.canWrite = true → trimSpace facts.event ≠ [])) := by
  simp only [scope] at h
  rcases bind_ok.mp h with ⟨_, hvalid, h⟩
  rw [refuseIf_bind_ok] at h
  replace h := h.2
  refine ⟨?_, ?_, ?_⟩
  · simp only [validateRepository] at hvalid
    split_ifs at hvalid with hnil hname
    simpa using hname
  · intro huntrusted
    rw [isUntrusted] at huntrusted
    rw [if_pos huntrusted, pure_ok] at h
    rw [← h]
    simp
  · intro htrusted
    rw [isUntrusted] at htrusted
    rw [htrusted, if_neg (by simp)] at h
    split_ifs at h with hevent <;> cases h
    · refine ⟨rfl, fun _ hnil => hevent ?_⟩
      rw [hnil, go.toLower_ascii [] (by decide), map_nil]
    · exact ⟨rfl, nofun⟩

lemma trusted_of_canWrite (h : scope go facts = .ok claims) (hwrite : claims.canWrite = true) :
    isUntrusted go facts = false := by
  by_contra htrusted
  have hread := ((scope_ok h).2.1 (by simpa using htrusted)).1
  simp [ScopedClaims.canWrite, hread] at hwrite

/-- The facts that let a job write. -/
lemma scope_canWrite_iff : (∃ claims, scope go facts = .ok claims ∧ claims.canWrite = true) ↔
    validateRepository go.quote (trimSpace facts.repository) = .ok () ∧ trimSpace facts.ref ≠ [] ∧
      isUntrusted go facts = false ∧ go.toLower (trimSpace facts.event) ≠ [] := by
  constructor
  · rintro ⟨claims, h, hwrite⟩
    have htrusted := trusted_of_canWrite h hwrite
    simp only [scope] at h
    rcases bind_ok.mp h with ⟨_, hvalid, h⟩
    rcases refuseIf_bind_ok.mp h with ⟨href, h⟩
    refine ⟨hvalid, href, htrusted, fun hevent => ?_⟩
    rw [isUntrusted] at htrusted
    rw [htrusted, if_neg (by simp), if_neg (not_not.mpr hevent)] at h
    cases h
    cases hwrite
  · rintro ⟨hvalid, href, htrusted, hevent⟩
    rw [isUntrusted] at htrusted
    simp only [scope, hvalid, refuseIf_ok.mpr href, htrusted, if_pos hevent]
    exact ⟨_, rfl, rfl⟩

lemma readScopes_spec (c : Claims) : c.readScopes.Nodup ∧ [] ∉ c.readScopes ∧
    ∀ ref ∈ c.readScopes, ref ∈ [c.ref, c.baseRef, c.defaultBranch] := by
  refine foldlRecOn (motive := fun scopes : List Bytes => scopes.Nodup ∧ [] ∉ scopes ∧
    ∀ ref ∈ scopes, ref ∈ [c.ref, c.baseRef, c.defaultBranch]) _ _ (by simp) ?_
  rintro scopes ⟨hnodup, hblank, hmem⟩ ref href
  split_ifs with hnil hlisted
  · exact ⟨hnodup, hblank, hmem⟩
  · exact ⟨hnodup, hblank, hmem⟩
  refine ⟨?_, ?_, ?_⟩
  · exact hnodup.append (nodup_singleton ref) (by simpa using hlisted)
  · simpa [hblank] using Ne.symm hnil
  · intro other hother
    rcases mem_append.mp hother with hother | hother
    · exact hmem other hother
    · rw [mem_singleton.mp hother]
      exact href

/-- **Untrusted code never gets to write, nor a scope of its own.**  Facts with a valid repository and a
ref give claims.  They let a job write only when its event is known and its head repository is its
own, or unnamed and the event is not one of a pull request.  With a foreign or an unknown head they
let it read its base ref and the default branch at most. -/
theorem untrusted_code_never_writes (go : Library) (facts : JobFacts) :
    (validateRepository go.quote (trimSpace facts.repository) = .ok () → trimSpace facts.ref ≠ [] →
      ∃ claims, scope go facts = .ok claims) ∧
    ∀ claims, scope go facts = .ok claims →
      (claims.canWrite = true → trimSpace facts.event ≠ [] ∧
        (trimSpace facts.headRepository = [] ∨
          go.equalFold (trimSpace facts.headRepository) (trimSpace facts.repository) = true) ∧
        (pullRequestEvents.contains (go.toLower (trimSpace facts.event)) = true →
          trimSpace facts.headRepository ≠ [])) ∧
      (isUntrusted go facts = true → claims.permission = .read ∧
        claims.writeScope = (if trimSpace facts.baseRef = [] then trimSpace facts.defaultBranch
          else trimSpace facts.baseRef) ∧
        ∀ ref ∈ claims.readScopes,
          ref = trimSpace facts.baseRef ∨ ref = trimSpace facts.defaultBranch) ∧
      claims.readScopes.Nodup ∧ [] ∉ claims.readScopes := by
  constructor
  · intro hvalid href
    simp only [scope, hvalid, refuseIf_ok.mpr href]
    split_ifs <;> exact ⟨_, rfl⟩
  intro claims h
  rcases scope_ok h with ⟨-, huntrusted, htrusted⟩
  rcases readScopes_spec claims.toClaims with ⟨hnodup, hblank, hmem⟩
  refine ⟨fun hwrite => ?_, fun hforeign => ?_, hnodup, hblank⟩
  · have htrust := trusted_of_canWrite h hwrite
    refine ⟨(htrusted htrust).2 hwrite, ?_⟩
    simp only [isUntrusted] at htrust
    constructor
    · by_contra hhead
      simp_all
    · simp_all
  · rcases huntrusted hforeign with ⟨hread, hbase, hdefault, href⟩
    refine ⟨hread, href, fun ref hscope => ?_⟩
    have hlisted := hmem ref hscope
    rw [href, hbase] at hlisted
    split_ifs at hlisted with hnone <;> simp at hlisted <;> grind

/-! ## The pull request of a run -/

/-- The pull request is listed and can be the run's, and so can no other. -/
def IsOnlyMatch (run : WorkflowRun) (head : Repository) (pr : PullRequest) : Prop :=
  pr ∈ run.pullRequests ∧ isCandidate run head.id pr = true ∧
    ∀ other ∈ run.pullRequests, isCandidate run head.id other = true → other.number = pr.number

/-- The loop has met no candidate, candidates of one number only, or at least two. -/
lemma countMatch_loop (run : WorkflowRun) (headId : ℤ) (l : List PullRequest) :
    ((∀ pr ∈ l, isCandidate run headId pr = false) ∧
        l.foldl (countMatch run headId) (none, 0) = (none, 0)) ∨
      (∃ pr ∈ l, isCandidate run headId pr = true ∧
        (∀ other ∈ l, isCandidate run headId other = true → other.number = pr.number) ∧
        l.foldl (countMatch run headId) (none, 0) = (some pr, 1)) ∨
      2 ≤ (l.foldl (countMatch run headId) (none, 0)).2 := by
  induction l using reverseRecOn with
  | nil => exact .inl ⟨by simp, rfl⟩
  | append_singleton l pr ih =>
    rw [foldl_append]
    by_cases hpr : isCandidate run headId pr = true
    · rcases ih with ⟨hnone, hfold⟩ | ⟨first, hmem, hfirst, honly, hfold⟩ | htwo
      · refine .inr (.inl ⟨pr, by simp, hpr, ?_, by simp [hfold, countMatch, hpr]⟩)
        intro other hother hcandidate
        rcases mem_append.mp hother with hother | hother
        · simp [hnone other hother] at hcandidate
        · rw [mem_singleton.mp hother]
      · by_cases hnumber : pr.number = first.number
        · refine .inr (.inl ⟨first, by simp [hmem], hfirst, ?_, ?_⟩)
          · intro other hother hcandidate
            rcases mem_append.mp hother with hother | hother
            · exact honly other hother hcandidate
            · rw [mem_singleton.mp hother, hnumber]
          · simp [hfold, countMatch, hnumber]
        · exact .inr (.inr (by simp [hfold, countMatch, hpr, Ne.symm hnumber]))
      · refine .inr (.inr ?_)
        simp only [foldl_cons, foldl_nil, countMatch]
        split_ifs
        · omega
        · exact htwo
    · have hskip : ∀ found, countMatch run headId found pr = found := by
        simp [countMatch, hpr]
      simp only [foldl_cons, hskip]
      rcases ih with ⟨hnone, hfold⟩ | ⟨first, hmem, hfirst, honly, hfold⟩ | htwo
      · refine .inl ⟨?_, hfold⟩
        intro other hother
        rcases mem_append.mp hother with hother | hother
        · exact hnone other hother
        · rw [mem_singleton.mp hother]
          simpa using hpr
      · refine .inr (.inl ⟨first, by simp [hmem], hfirst, ?_, hfold⟩)
        intro other hother hcandidate
        rcases mem_append.mp hother with hother | hother
        · exact honly other hother hcandidate
        · rw [mem_singleton.mp hother] at hcandidate
          exact absurd hcandidate hpr
      · exact .inr (.inr htwo)

lemma matchPullRequest_eq_some {pr : PullRequest}
    (hhead : run.headRepository = some head) (h : matchPullRequest run = some pr) :
    IsOnlyMatch run head pr := by
  simp only [matchPullRequest, hhead] at h
  split_ifs at h with hid
  rcases countMatch_loop run head.id run.pullRequests with
    ⟨-, hfold⟩ | ⟨only, hmem, hcandidate, honly, hfold⟩ | htwo
  · simp [hfold] at h
  · simp only [hfold, some.injEq] at h
    exact h ▸ ⟨hmem, hcandidate, honly⟩
  · omega

/-! ## The controller -/

/-- A slug has no white space around it. -/
lemma trimSpace_slug (owner repository : Bytes) :
    trimSpace (repositorySlug owner repository) = repositorySlug owner repository := by
  simp only [repositorySlug]
  split_ifs
  · rfl
  · exact trimSpace_of_free ((frontFree_trimSpace owner).append_sep _)
      ((backFree_trimSpace repository).sep_append _)

lemma trimSpace_mergeRef (number : ℤ) : trimSpace (mergeRef number) = mergeRef number := by
  have hfront : mergeRef number
      = ascii "refs" ++ 47 :: (ascii "pull/" ++ ascii (toString number) ++ ascii "/merge") := by
    simp [mergeRef, ascii]
  refine trimSpace_of_free ?_ ?_
  · rw [hfront]
    exact FrontFree.append_sep (by decide) _
  · exact BackFree.sep_append (by decide) _

/-- A ref of a branch or tag whose name is trimmed. -/
lemma trimSpace_namedRef {start name : Bytes} (hstart : start = headsRoot ∨ start = tagsRoot)
    (hname : trimSpace name = name) : trimSpace (start ++ name) = start ++ name := by
  have hsplit : start ++ name = start.dropLast ++ 47 :: name ∧ FrontFree start.dropLast := by
    rcases hstart with rfl | rfl
    · exact ⟨rfl, by decide⟩
    · exact ⟨rfl, by decide⟩
  rw [hsplit.1]
  exact trimSpace_of_free (hsplit.2.append_sep _) ((backFree_of_trimSpace_eq hname).sep_append _)

lemma shortRefName_eq {name : Bytes} (hname : name ≠ []) (h : shortRefName ref = name) :
    ref = headsRoot ++ name ∨ ref = tagsRoot ++ name := by
  simp only [shortRefName] at h
  split_ifs at h with hheads htags
  · rcases isPrefixOf_iff_prefix.mp hheads with ⟨rest, rfl⟩
    left
    simpa using h
  · rcases isPrefixOf_iff_prefix.mp htags with ⟨rest, rfl⟩
    right
    simpa using h
  · exact absurd h.symm hname

lemma branchOrTagRef_ok (h : branchOrTagRef go runs job run repository = .ok ref) :
    ref = headsRoot ++ trimSpace run.headBranch ∨ ref = tagsRoot ++ trimSpace run.headBranch := by
  simp only [branchOrTagRef] at h
  split_ifs at h with hname
  split at h
  · rename_i found hfound
    rw [pure_ok] at h
    have hshort := (filter_eq_some_iff.mp hfound).2
    exact h ▸ shortRefName_eq hname (by simpa using hshort)
  · rcases bind_ok.mp h with ⟨isTag, -, h⟩
    split_ifs at h
    · exact .inl (pure_ok.mp h).symm
    · rcases bind_ok.mp h with ⟨isBranch, -, h⟩
      exact .inr (pure_ok.mp (refuseIf_bind_ok.mp h).2).symm

/-- The facts of a run: the name of the head repository is passed on, whatever it is. -/
lemma cacheFactsFromRun_ok {facts : Facts} : cacheFactsFromRun go runs job run = .ok facts ↔
    run.eventName go ≠ [] ∧ ∃ ref, factsRef go runs job run (eventPullRequest go run)
        (baseRefOf (eventPullRequest go run)) (defaultRef runs job.repository) = .ok ref ∧ ref ≠ [] ∧
      facts = ⟨⟨job.repository, run.repository.id, run.headName, run.eventName go, ref,
        baseRefOf (eventPullRequest go run), defaultRef runs job.repository, []⟩, job.runnerName⟩ := by
  simp only [cacheFactsFromRun]
  rw [refuseIf_bind_ok, bind_ok]
  refine and_congr_right' (exists_congr fun ref => and_congr_right' ?_)
  rw [refuseIf_bind_ok, pure_ok, eq_comm (a := facts)]

/-! ## Together -/

/-- The scope GitHub gives to a run of the repository's own code. -/
def WriteScopeOf (go : Library) (run : WorkflowRun) (head : Repository) (ref : Bytes) : Prop :=
  if pullRequestRefEvents.contains (run.eventName go) then
    ∃ pr, matchPullRequest run = some pr ∧ IsOnlyMatch run head pr ∧ ref = mergeRef pr.number
  else if run.eventName go = pullRequestTarget then
    ∃ pr, matchPullRequest run = some pr ∧ IsOnlyMatch run head pr ∧
      ref = trimSpace (headsRoot ++ pr.baseRef)
  else ref = headsRoot ++ trimSpace run.headBranch ∨ ref = tagsRoot ++ trimSpace run.headBranch

/-- The head repository of the run is there, and is the repository of the job. -/
def OwnHead (go : Library) (job : JobStarted) (run : WorkflowRun) : Prop :=
  ∃ head, run.headRepository = some head ∧ go.equalFold head.fullName job.repository = true

/-- The service takes the head repository for the job's own: it trims the name, and a name that is
then empty is a foreign one on the events of pull requests only. -/
def TakenForOwn (go : Library) (job : JobStarted) (run : WorkflowRun) : Prop :=
  if trimSpace run.headName = [] then
    pullRequestEvents.contains (go.toLower (trimSpace (run.eventName go))) = false
  else go.equalFold (trimSpace run.headName) job.repository = true

/-- The controller finds a ref for a run whose head repository is not the job's own: without a name, the
branch or tag of the run, and with another name the base of its pull request or the default branch. -/
def RefFound (go : Library) (runs : WorkflowRuns) (job : JobStarted) (run : WorkflowRun) : Prop :=
  if run.headName = [] then ∃ ref, branchOrTagRef go runs job run job.repository = .ok ref
  else (eventPullRequest go run).isSome = true ∨
    ∃ branch, runs.defaultBranch job.repository = .ok branch

/-- **The two sides read the head repository differently.**  It is not the job's own, the service takes
it for that, and nothing else stops the job: its repository is valid, the event of its run has a
name, and the controller finds a ref. -/
structure Misread (go : Library) (runs : WorkflowRuns) (job : JobStarted) (run : WorkflowRun) :
    Prop where
  foreign : ¬ OwnHead go job run
  takenForOwn : TakenForOwn go job run
  event : go.toLower (trimSpace (run.eventName go)) ≠ []
  ref : RefFound go runs job run
  repository : validateRepository go.quote job.repository = .ok ()

/-- The names of the events of pull requests are not changed by reading them again. -/
lemma eventName_of_contains (h : pullRequestEvents.contains (run.eventName go) = true) :
    go.toLower (trimSpace (run.eventName go)) = run.eventName go := by
  have hliteral : ∀ e ∈ pullRequestEvents,
      trimSpace e = e ∧ IsAsciiBytes e ∧ e.map lowerByte = e := by decide
  rcases hliteral _ (by simpa using h) with ⟨hsame, hascii, hlower⟩
  rw [hsame, go.toLower_ascii _ hascii, hlower]

lemma isUntrusted_run {facts : Facts} (hrepository : facts.repository = job.repository)
    (hevent : facts.event = run.eventName go) (hhead : facts.headRepository = run.headName) :
    isUntrusted go facts.toJobFacts = false ↔ TakenForOwn go job run := by
  have hslug : trimSpace job.repository = job.repository := trimSpace_slug _ _
  simp only [isUntrusted, TakenForOwn, hrepository, hevent, hhead, hslug]
  split_ifs with hname <;> simp [hname]

/-- Without a name, a run that the service trusts is not one of a pull request. -/
lemma factsRef_unnamed {pr : Option PullRequest} {baseRef defaultBranch : Bytes}
    (hname : run.headName = []) (htaken : TakenForOwn go job run) :
    factsRef go runs job run pr baseRef defaultBranch
      = branchOrTagRef go runs job run job.repository := by
  rw [TakenForOwn, hname, if_pos (show trimSpace [] = [] from rfl)] at htaken
  have hmem : run.eventName go ∉ pullRequestEvents := by
    intro hmem
    have hcontains := contains_iff_mem.mpr hmem
    rw [eventName_of_contains hcontains, hcontains] at htaken
    cases htaken
  have hsub : ∀ e ∈ pullRequestRefEvents, e ∈ pullRequestEvents := by decide
  have href : run.eventName go ∉ pullRequestRefEvents := fun h => hmem (hsub _ h)
  have htarget : run.eventName go ≠ pullRequestTarget := by
    intro h
    rw [h] at hmem
    exact hmem (by decide)
  simp [factsRef, hname, href, htarget]

/-- A name that is not the job's own is a foreign one for the controller. -/
lemma factsRef_foreign {pr : Option PullRequest} {baseRef defaultBranch : Bytes}
    (hname : run.headName ≠ []) (hforeign : ¬ OwnHead go job run) :
    factsRef go runs job run pr baseRef defaultBranch
      = .ok (if baseRef = [] then defaultBranch else baseRef) := by
  have hfold : go.equalFold run.headName job.repository = false := by
    by_contra hown
    cases hrun : run.headRepository with
    | none => exact hname (by simp [WorkflowRun.headName, hrun])
    | some head => exact hforeign ⟨head, hrun, by simpa [WorkflowRun.headName, hrun] using hown⟩
  simp [factsRef, hname, hfold, pure_ok]

/-- The ref of a run of foreign code that the service trusts, where there is one. -/
lemma factsRef_foreign_iff (hforeign : ¬ OwnHead go job run) (htaken : TakenForOwn go job run) :
    (∃ ref, factsRef go runs job run (eventPullRequest go run)
      (baseRefOf (eventPullRequest go run)) (defaultRef runs job.repository) = .ok ref ∧ ref ≠ []) ↔
      RefFound go runs job run := by
  rw [RefFound]
  split_ifs with hname
  · simp only [factsRef_unnamed hname htaken]
    refine exists_congr fun ref => and_iff_left_of_imp fun href => ?_
    rcases branchOrTagRef_ok href with rfl | rfl <;> simp [headsRoot, tagsRoot, ascii]
  · simp only [factsRef_foreign hname hforeign, Except.ok.injEq, exists_eq_left']
    cases eventPullRequest go run with
    | some pr => simp [baseRefOf, headsRoot, ascii]
    | none =>
      simp only [baseRefOf, if_true, defaultRef]
      cases runs.defaultBranch job.repository with
      | error e => simp
      | ok branch => simp [headsRoot, ascii]

/-- A ref is not blank. -/
lemma slash_mem_factsRef (h : factsRef go runs job run (eventPullRequest go run)
      (baseRefOf (eventPullRequest go run)) (defaultRef runs job.repository) = .ok ref)
    (hne : ref ≠ []) : 47 ∈ ref := by
  have hheads : ∀ name, 47 ∈ headsRoot ++ name := fun name => mem_append_left _ (by decide)
  have hbase : baseRefOf (eventPullRequest go run) ≠ [] → 47 ∈ baseRefOf (eventPullRequest go run) := by
    cases eventPullRequest go run with
    | none => exact fun h => absurd rfl h
    | some pr => exact fun _ => hheads _
  have hdefault : defaultRef runs job.repository ≠ [] → 47 ∈ defaultRef runs job.repository := by
    unfold defaultRef
    split
    · exact fun _ => hheads _
    · exact fun h => absurd rfl h
  simp only [factsRef] at h
  split_ifs at h with hforeign hempty hevent htarget
  · cases h
    exact hdefault hne
  · cases h
    exact hbase hne
  · split at h <;> cases h
    · exact mem_append_left _ (mem_append_left _ (by decide))
    · exact absurd rfl hne
  · cases h
    exact hbase hne
  · rcases branchOrTagRef_ok h with rfl | rfl
    · exact hheads _
    · exact mem_append_left _ (by decide)

/-- **A run of foreign code writes exactly if it is misread.** -/
lemma canWrite_iff_misread (hforeign : ¬ OwnHead go job run) :
    (∃ facts claims, cacheFactsFromRun go runs job run = .ok facts ∧
      scope go facts.toJobFacts = .ok claims ∧ claims.canWrite = true) ↔ Misread go runs job run := by
  have hslug : trimSpace job.repository = job.repository := trimSpace_slug _ _
  constructor
  · rintro ⟨facts, claims, hfacts, hclaims⟩
    rcases cacheFactsFromRun_ok.mp hfacts with ⟨-, ref, href, hne, rfl⟩
    rcases scope_canWrite_iff.mp ⟨claims, hclaims⟩ with ⟨hvalid, -, htrusted, hevent⟩
    have htaken := (isUntrusted_run rfl rfl rfl).mp htrusted
    exact ⟨hforeign, htaken, hevent, (factsRef_foreign_iff hforeign htaken).mp ⟨ref, href, hne⟩,
      hslug ▸ hvalid⟩
  · rintro ⟨-, htaken, hevent, hfound, hvalid⟩
    rcases (factsRef_foreign_iff hforeign htaken).mpr hfound with ⟨ref, href, hne⟩
    have hname : run.eventName go ≠ [] := by
      intro hnil
      rw [hnil, go.toLower_ascii (trimSpace []) (by decide)] at hevent
      exact hevent rfl
    obtain ⟨facts, hfacts, hrepository, hevent', hhead, href'⟩ : ∃ facts : Facts,
        cacheFactsFromRun go runs job run = .ok facts ∧ facts.repository = job.repository ∧
          facts.event = run.eventName go ∧ facts.headRepository = run.headName ∧ facts.ref = ref :=
      ⟨_, cacheFactsFromRun_ok.mpr ⟨hname, ref, href, hne, rfl⟩, rfl, rfl, rfl, rfl⟩
    have hblank : trimSpace ref ≠ [] :=
      ne_nil_of_mem (slash_mem_trimSpace (slash_mem_factsRef href hne))
    have hclaims : ∃ claims, scope go facts.toJobFacts = .ok claims ∧ claims.canWrite = true :=
      scope_canWrite_iff.mpr ⟨by rwa [hrepository, hslug], by rwa [href'],
        (isUntrusted_run hrepository hevent' hhead).mpr htaken, by rwa [hevent']⟩
    rcases hclaims with ⟨claims, hclaims⟩
    exact ⟨facts, claims, hfacts, hclaims⟩

/-- The ref of the facts of a run of the repository's own code. -/
lemma factsRef_scope {defaultBranch : Bytes} (hhead : run.headRepository = some head)
    (hown : go.equalFold head.fullName job.repository = true)
    (h : factsRef go runs job run (eventPullRequest go run) (baseRefOf (eventPullRequest go run))
      defaultBranch = .ok ref) (hne : ref ≠ []) :
    WriteScopeOf go run head (trimSpace ref) := by
  have hname : run.headName = head.fullName := by simp [WorkflowRun.headName, hhead]
  simp only [factsRef, hname, hown, Bool.not_true, Bool.and_false, Bool.false_eq_true, if_false] at h
  simp only [WriteScopeOf]
  split_ifs at h ⊢ with hevent htarget
  · have hpr : eventPullRequest go run = matchPullRequest run := by
      rw [eventPullRequest, hevent, Bool.true_or, if_pos rfl]
    rw [hpr] at h
    cases hmatch : matchPullRequest run with
    | none =>
      simp only [hmatch, pure_ok] at h
      exact absurd h.symm hne
    | some pr =>
      simp only [hmatch, pure_ok] at h
      refine ⟨pr, rfl, matchPullRequest_eq_some hhead hmatch, ?_⟩
      rw [← h, trimSpace_mergeRef]
  · have hpr : eventPullRequest go run = matchPullRequest run := by
      rw [eventPullRequest, htarget, if_pos (by decide)]
    rw [hpr] at h
    cases hmatch : matchPullRequest run with
    | none =>
      simp only [hmatch, pure_ok] at h
      exact absurd h.symm hne
    | some pr =>
      simp only [hmatch, baseRefOf, pure_ok] at h
      exact ⟨pr, rfl, matchPullRequest_eq_some hhead hmatch, by rw [h]⟩
  · rcases branchOrTagRef_ok h with rfl | rfl
    · exact .inl (trimSpace_namedRef (.inl rfl) (trimSpace_trimSpace _))
    · exact .inr (trimSpace_namedRef (.inr rfl) (trimSpace_trimSpace _))

/-- Cold facts give nothing to read and nothing to write. -/
lemma scope_cold (h : scope go (coldCacheFacts go job).toJobFacts = .ok claims) :
    claims.canWrite = false ∧ claims.readScopes = [] := by
  have hvalid := (scope_ok h).1
  have huntrusted : isUntrusted go (coldCacheFacts go job).toJobFacts = true := by
    have htrim : trimSpace unverifiedHeadRepository = unverifiedHeadRepository := by decide
    have hslug : trimSpace (coldCacheFacts go job).repository = job.repository := trimSpace_slug _ _
    rw [hslug] at hvalid
    -- the head repository of cold facts has no slash, and a repository has one
    have hother : go.equalFold unverifiedHeadRepository job.repository = false := by
      by_contra hfold
      have hascii := (ownerName_split hvalid).1
      have hmap := (go.equalFold_ascii unverifiedHeadRepository _ (by decide) hascii).mp
        (by simpa using hfold)
      have hslash : slash ∈ unverifiedHeadRepository.map lowerByte := by
        rw [hmap]
        have hmem : slash ∈ job.repository := by
          simp only [isOwnerName, Bool.and_eq_true, contains_iff_mem] at hvalid
          exact hvalid.1.1
        exact mem_map.mpr ⟨slash, hmem, by decide⟩
      revert hslash
      decide
    have hne : unverifiedHeadRepository ≠ [] := by decide
    simp only [isUntrusted, hslug]
    simp [coldCacheFacts, htrim, hother, hne]
  rcases (scope_ok h).2.1 huntrusted with ⟨hread, hbase, hdefault, href⟩
  have hnil : trimSpace [] = [] := rfl
  simp only [coldCacheFacts, hnil] at hdefault href
  exact ⟨by simp [ScopedClaims.canWrite, hread], by simp [Claims.readScopes, hbase, hdefault, href]⟩

/-- A job that may write has facts of its run. -/
lemma published_of_canWrite {runs : Option WorkflowRuns}
    (h : scope go (publishedFacts go runs job).toJobFacts = .ok claims)
    (hwrite : claims.canWrite = true) :
    ∃ api run facts, runs = some api ∧ workflowRunOf go runs job = .ok run ∧
      cacheFactsFromRun go api job run = .ok facts ∧ publishedFacts go runs job = facts := by
  have hcold : publishedFacts go runs job ≠ coldCacheFacts go job := by
    intro hcold
    rw [hcold] at h
    simp [(scope_cold h).1] at hwrite
  unfold publishedFacts at hcold ⊢
  split at hcold
  · rename_i api run hrun
    cases hfacts : cacheFactsFromRun go api job run with
    | error e => simp [hfacts] at hcold
    | ok facts => exact ⟨api, run, facts, rfl, hrun, hfacts, rfl⟩
  · exact absurd rfl hcold

lemma publishedFacts_eq {facts : Facts} (hrun : workflowRunOf go (some runs) job = .ok run)
    (hfacts : cacheFactsFromRun go runs job run = .ok facts) :
    publishedFacts go (some runs) job = facts := by
  simp [publishedFacts, hrun, hfacts]

/-- The job's own workflow ref decides at most between a branch and a tag of one name. -/
lemma factsRef_workflowRef {workflowRef ref' : Bytes} {pr : Option PullRequest}
    {baseRef defaultBranch : Bytes} (h : factsRef go runs job run pr baseRef defaultBranch = .ok ref)
    (h' : factsRef go runs { job with jobWorkflowRef := workflowRef } run pr baseRef defaultBranch
      = .ok ref') :
    ref' = ref ∨ ∀ r ∈ [ref, ref'],
      r = headsRoot ++ trimSpace run.headBranch ∨ r = tagsRoot ++ trimSpace run.headBranch := by
  have hrepository : JobStarted.repository { job with jobWorkflowRef := workflowRef } = job.repository :=
    rfl
  simp only [factsRef, hrepository] at h h'
  split_ifs at h h' with hforeign hempty hevent htarget
  · exact .inl (Except.ok.inj (h'.symm.trans h))
  · exact .inl (Except.ok.inj (h'.symm.trans h))
  · exact .inl (Except.ok.inj (h'.symm.trans h))
  · exact .inl (Except.ok.inj (h'.symm.trans h))
  refine .inr fun r hr => ?_
  rcases mem_pair.mp hr with rfl | rfl
  · exact branchOrTagRef_ok h
  · exact branchOrTagRef_ok h'

/-- **Unknown does not widen a scope, unless the head repository is misread.**  A job may write only
when the run's head repository is its own repository, and then to the scope of the run's event,
exactly if its run is not misread.  In any case its own workflow ref decides at most between a branch
and a tag of one name, and cold facts have nothing to read. -/
theorem write_needs_own_head_iff (go : Library) (runs : Option WorkflowRuns) (job : JobStarted) :
    ((∀ claims, scope go (publishedFacts go runs job).toJobFacts = .ok claims →
        claims.canWrite = true →
        ∃ run head, workflowRunOf go runs job = .ok run ∧ run.headRepository = some head ∧
          go.equalFold head.fullName job.repository = true ∧
          WriteScopeOf go run head claims.writeScope) ↔
      ∀ api run, runs = some api → workflowRunOf go runs job = .ok run → ¬ Misread go api job run) ∧
    (∀ workflowRef claims claims',
      scope go (publishedFacts go runs job).toJobFacts = .ok claims → claims.canWrite = true →
      scope go (publishedFacts go runs { job with jobWorkflowRef := workflowRef }).toJobFacts
        = .ok claims' → claims'.canWrite = true →
      claims'.writeScope = claims.writeScope ∨
        ∃ name, ∀ ref ∈ [claims.writeScope, claims'.writeScope],
          ref = headsRoot ++ name ∨ ref = tagsRoot ++ name) ∧
    (∀ claims, scope go (coldCacheFacts go job).toJobFacts = .ok claims →
      claims.canWrite = false ∧ claims.readScopes = []) := by
  have hscope : ∀ {facts claims}, scope go facts = .ok claims → claims.canWrite = true →
      claims.writeScope = trimSpace facts.ref := fun h hwrite =>
    ((scope_ok h).2.2 (trusted_of_canWrite h hwrite)).1
  refine ⟨⟨?_, ?_⟩, ?_, fun claims h => scope_cold h⟩
  · rintro h api run rfl hrun hmisread
    rcases (canWrite_iff_misread hmisread.foreign).mpr hmisread with
      ⟨facts, claims, hfacts, hclaims, hwrite⟩
    rw [← publishedFacts_eq hrun hfacts] at hclaims
    rcases h claims hclaims hwrite with ⟨run', head, hrun', hhead, hown, -⟩
    obtain rfl : run' = run := Except.ok.inj (hrun'.symm.trans hrun)
    exact hmisread.foreign ⟨head, hhead, hown⟩
  · intro h claims hclaims hwrite
    rcases published_of_canWrite hclaims hwrite with ⟨api, run, facts, hruns, hrun, hfacts, hpublished⟩
    rw [hpublished] at hclaims
    by_cases hown : OwnHead go job run
    · rcases hown with ⟨head, hhead, hown⟩
      refine ⟨run, head, hrun, hhead, hown, ?_⟩
      rcases cacheFactsFromRun_ok.mp hfacts with ⟨-, ref, href, hne, rfl⟩
      rw [hscope hclaims hwrite]
      exact factsRef_scope hhead hown href hne
    · exact absurd ((canWrite_iff_misread hown).mp ⟨facts, claims, hfacts, hclaims, hwrite⟩)
        (h api run hruns hrun)
  · intro workflowRef claims claims' hclaims hwrite hclaims' hwrite'
    rcases published_of_canWrite hclaims hwrite with ⟨api, run, facts, hruns, hrun, hfacts, hpublished⟩
    rcases published_of_canWrite hclaims' hwrite' with
      ⟨api', run', facts', hruns', hrun', hfacts', hpublished'⟩
    -- the run does not depend on the job's workflow ref
    obtain rfl : api' = api := some.inj (hruns'.symm.trans hruns)
    obtain rfl : run' = run := Except.ok.inj (hrun'.symm.trans hrun)
    rw [hpublished] at hclaims
    rw [hpublished'] at hclaims'
    rcases cacheFactsFromRun_ok.mp hfacts with ⟨-, ref, href, -, rfl⟩
    rcases cacheFactsFromRun_ok.mp hfacts' with ⟨-, ref', href', -, rfl⟩
    rw [hscope hclaims hwrite, hscope hclaims' hwrite']
    rcases factsRef_workflowRef href href' with rfl | hnamed
    · exact .inl rfl
    · refine .inr ⟨trimSpace run'.headBranch, ?_⟩
      have htrim : ∀ r ∈ [ref, ref'], trimSpace r = r := fun r hr => by
        rcases hnamed r hr with rfl | rfl
        · exact trimSpace_namedRef (.inl rfl) (trimSpace_trimSpace _)
        · exact trimSpace_namedRef (.inr rfl) (trimSpace_trimSpace _)
      rwa [htrim ref mem_cons_self, htrim ref' (mem_cons_of_mem _ mem_cons_self)]

/-! ## A push to `main` -/

/-- A job of a push to `main` of `o/r`. -/
def pushJob : JobStarted where
  runnerName := ascii "runner"
  ownerName := ascii "o"
  repositoryName := ascii "r"
  workflowRunId := 1
  eventName := ascii "push"
  jobWorkflowRef := []

/-- GitHub names no head repository for it. -/
def pushRun : WorkflowRun where
  event := ascii "push"
  headBranch := ascii "main"
  headSHA := []
  path := []
  repository := ⟨7, ascii "o/r"⟩
  headRepository := none
  pullRequests := []

/-- GitHub knows the run, the default branch `main`, and no tag. -/
def pushAnswers : WorkflowRuns where
  workflowRun _ _ := .ok pushRun
  defaultBranch _ := .ok (ascii "main")
  refExists _ _ := .ok false

def pushClaims : ScopedClaims where
  repository := ascii "o/r"
  repositoryId := 7
  ref := ascii "refs/heads/main"
  baseRef := []
  defaultBranch := ascii "refs/heads/main"
  permission := .readWrite
  attempt := []

/-- A push whose head repository GitHub does not name writes just the same. -/
theorem unnamed_head_writes :
    workflowRunOf dependencyLibrary (some pushAnswers) pushJob = .ok pushRun ∧
      pushRun.headRepository = none ∧
      scope dependencyLibrary (publishedFacts dependencyLibrary (some pushAnswers) pushJob).toJobFacts
        = .ok pushClaims ∧
      pushClaims.canWrite = true := by
  refine ⟨?_, rfl, rfl, rfl⟩
  decide

end EraInfra.CacheScope
