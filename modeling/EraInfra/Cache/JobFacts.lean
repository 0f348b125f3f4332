import EraInfra.Cache.Index

/-!
# Job facts

What a job may do with the cache is decided in two programs.  The controller (`cachescope.go`) reads
the job's workflow run from GitHub and derives *facts* from it; the cache service (`token.go`) turns
the facts into claims.  Facts that cannot be established are replaced by cold ones.

GitHub's answers are a parameter (`WorkflowRuns`): any of them can fail, and any field can be empty.
Texts are bytes, and a Go pointer that is nil is `none`.  The push between the two programs carries
every field as it is.

**Left out** — log lines, the retries of a push, and the times of a token.
-/

namespace EraInfra.CacheScope

open DocStore Encoding CacheIndex

/-! ## Claims -/

inductive Permission
  | read
  | readWrite
deriving DecidableEq

/-- `Claims` with the permission; `Attempt` is for logs. -/
structure ScopedClaims extends Claims where
  permission : Permission
  attempt : Bytes

/-- Whether a job may save. -/
def ScopedClaims.canWrite (c : ScopedClaims) : Bool := c.permission = .readWrite

/-- The single ref a save lands in. -/
def ScopedClaims.writeScope (c : ScopedClaims) : Bytes := c.ref

/-- What the controller knows of a job. -/
structure JobFacts where
  repository : Bytes
  repositoryId : ℤ
  headRepository : Bytes
  event : Bytes
  ref : Bytes
  baseRef : Bytes
  defaultBranch : Bytes
  attempt : Bytes

/-- The events on which an unknown head repository is a foreign one. -/
def pullRequestEvents : List Bytes :=
  [ascii "pull_request", ascii "pull_request_target", ascii "pull_request_review",
    ascii "pull_request_review_comment"]

variable (go : Library)

/-- The claims that facts authorise. -/
def scope (facts : JobFacts) : Except String ScopedClaims := do
  let repository := trimSpace facts.repository
  validateRepository go.quote repository
  let ref := trimSpace facts.ref
  refuseIf (ref = []) "cache token needs a ref"
  let claims : ScopedClaims :=
    { repository, ref
      repositoryId := max facts.repositoryId 0
      baseRef := trimSpace facts.baseRef
      defaultBranch := trimSpace facts.defaultBranch
      permission := .read
      attempt := trimSpace facts.attempt }
  let event := go.toLower (trimSpace facts.event)
  let head := trimSpace facts.headRepository
  let untrusted := (head ≠ [] && !go.equalFold head repository) ||
    (pullRequestEvents.contains event && head = [])
  if untrusted then
    -- such a job reads the base branch and has no scope of its own
    let base := if claims.baseRef = [] then claims.defaultBranch else claims.baseRef
    pure { claims with ref := base, baseRef := [] }
  else if event ≠ [] then pure { claims with permission := .readWrite }
  else pure claims

/-! ## GitHub -/

structure Repository where
  id : ℤ
  fullName : Bytes
deriving DecidableEq

structure PullRequest where
  number : ℤ
  headRef : Bytes
  headSHA : Bytes
  headRepoId : ℤ
  baseRef : Bytes
  baseRepoId : ℤ
deriving DecidableEq

structure WorkflowRun where
  event : Bytes
  headBranch : Bytes
  headSHA : Bytes
  /-- The top-level workflow file. -/
  path : Bytes
  repository : Repository
  headRepository : Option Repository
  pullRequests : List PullRequest
deriving DecidableEq

/-- What GitHub answers about a repository. -/
structure WorkflowRuns where
  workflowRun : Bytes → ℤ → Except String WorkflowRun
  defaultBranch : Bytes → Except String Bytes
  refExists : Bytes → Bytes → Except String Bool

variable (runs : WorkflowRuns)

/-- The message that a job has started. -/
structure JobStarted where
  runnerName : Bytes
  ownerName : Bytes
  repositoryName : Bytes
  workflowRunId : ℤ
  eventName : Bytes
  jobWorkflowRef : Bytes

variable (job : JobStarted) (run : WorkflowRun)

/-- `cachefacts.Facts`. -/
structure Facts extends JobFacts where
  runner : Bytes

/-! ## From the run to the facts -/

def headsRoot : Bytes := ascii "refs/heads/"
def tagsRoot : Bytes := ascii "refs/tags/"

def unverifiedHeadRepository : Bytes := ascii "(unverified)"
def unresolvedRef : Bytes := ascii "(unresolved)"

/-- The events that run on `refs/pull/<n>/merge`. -/
def pullRequestRefEvents : List Bytes :=
  [ascii "pull_request", ascii "pull_request_review", ascii "pull_request_review_comment"]

def pullRequestTarget : Bytes := ascii "pull_request_target"

/-- `owner/repository`, or nothing if either is missing. -/
def repositorySlug (owner repository : Bytes) : Bytes :=
  let owner := trimSpace owner
  let repository := trimSpace repository
  if owner = [] ∨ repository = [] then [] else owner ++ slash :: repository

/-- The repository of a job. -/
def JobStarted.repository : Bytes := repositorySlug job.ownerName job.repositoryName

/-- The run GitHub has for a job, if it is of the job's repository. -/
def workflowRunOf (runs : Option WorkflowRuns) (job : JobStarted) : Except String WorkflowRun :=
  let repository := job.repository
  if repository = [] then throw "job names no repository"
  else
    match runs with
    | none => throw "no GitHub API is configured"
    | some runs =>
      if job.workflowRunId ≤ 0 then throw "job names no workflow run"
      else do
        let run ← runs.workflowRun repository job.workflowRunId
        refuseIf (go.equalFold run.repository.fullName repository = false ∨ run.repository.id = 0)
          ("workflow run belongs to " ++ go.quote run.repository.fullName ++ ", not " ++
            go.quote repository)
        pure run

/-- Whether a listed pull request can be the one the run is for. -/
def isCandidate (headId : ℤ) (pr : PullRequest) : Bool :=
  !(pr.number ≤ 0 || pr.baseRef = [] || pr.baseRepoId ≠ run.repository.id || pr.headRepoId ≠ headId) &&
  !(pr.headSHA ≠ run.headSHA && pr.headRef ≠ run.headBranch)

/-- One pass of the loop of `matchPullRequest`: the one found, and how many. -/
def countMatch (headId : ℤ) (found : Option PullRequest × ℕ)
    (pr : PullRequest) : Option PullRequest × ℕ :=
  if isCandidate run headId pr then
    if found.2 = 0 ∨ found.1.map PullRequest.number ≠ some pr.number then (some pr, found.2 + 1)
    else found
  else found

/-- The one pull request the run is for; two candidates are ambiguous. -/
def matchPullRequest : Option PullRequest :=
  match run.headRepository with
  | none => none
  | some head =>
    if head.id = 0 then none
    else
      let (found, hits) := run.pullRequests.foldl (countMatch run head.id) (none, 0)
      if hits = 1 then found else none

/-- The byte `@`. -/
def atSign : UInt8 := 64

/-- The ref in `{owner}/{repo}/{path}@{ref}`, if that is the run's own top-level workflow. -/
def topLevelWorkflowRef (workflowRef : Bytes) (run : WorkflowRun) : Option Bytes :=
  let workflowRef := trimSpace workflowRef
  if !workflowRef.contains atSign || run.path = [] || run.repository.fullName = [] then none
  else
    let ref := (workflowRef.reverse.takeWhile (· ≠ atSign)).reverse
    let file := workflowRef.take (workflowRef.length - ref.length - 1)
    let start := run.repository.fullName ++ [slash]
    if file.length ≤ start.length || !go.equalFold (file.take start.length) start then none
    else if file.drop start.length ≠ run.path then none
    else if ref = [] then none
    else some ref

/-- The branch or tag a full ref names. -/
def shortRefName (ref : Bytes) : Bytes :=
  if headsRoot.isPrefixOf ref then ref.drop headsRoot.length
  else if tagsRoot.isPrefixOf ref then ref.drop tagsRoot.length
  else []

/-- The full ref of a run that is not for a pull request. -/
def branchOrTagRef (repository : Bytes) : Except String Bytes :=
  let name := trimSpace run.headBranch
  if name = [] then throw "workflow run names no head branch"
  else
    match (topLevelWorkflowRef go job.jobWorkflowRef run).filter fun ref => shortRefName ref = name with
    | some ref => pure ref
    | none => do
        let isTag ← runs.refExists repository (ascii "tags/" ++ name)
        if !isTag then pure (headsRoot ++ name)
        else
          let isBranch ← runs.refExists repository (ascii "heads/" ++ name)
          refuseIf (isBranch = true) (go.quote name ++ " names both a branch and a tag")
          pure (tagsRoot ++ name)

/-- `refs/pull/<n>/merge`. -/
def mergeRef (number : ℤ) : Bytes := ascii "refs/pull/" ++ ascii (toString number) ++ ascii "/merge"

/-- The event of a run, as the controller reads it. -/
def WorkflowRun.eventName : Bytes := go.toLower (trimSpace run.event)

/-- The name GitHub gives for the head repository, if any. -/
def WorkflowRun.headName : Bytes :=
  match run.headRepository with
  | none => []
  | some head => head.fullName

/-- The ref a pull request is to be merged into. -/
def baseRefOf (pr : Option PullRequest) : Bytes :=
  match pr with
  | some pr => headsRoot ++ pr.baseRef
  | none => []

/-- The pull request of a run whose event is one of a pull request. -/
def eventPullRequest : Option PullRequest :=
  if pullRequestRefEvents.contains (run.eventName go) || run.eventName go = pullRequestTarget then
    matchPullRequest run
  else none

/-- The ref of the default branch, empty when GitHub does not tell it. -/
def defaultRef (repository : Bytes) : Bytes :=
  match runs.defaultBranch repository with
  | .ok branch => headsRoot ++ branch
  | .error _ => []

/-- The ref of the facts; an empty one is not established. -/
def factsRef (pr : Option PullRequest) (baseRef defaultBranch : Bytes) : Except String Bytes :=
  let repository := job.repository
  let event := run.eventName go
  let foreign := run.headName ≠ [] && !go.equalFold run.headName repository
  if foreign then pure (if baseRef = [] then defaultBranch else baseRef)
  else if pullRequestRefEvents.contains event then
    match pr with
    | some pr => pure (mergeRef pr.number)
    | none => pure []
  else if event = pullRequestTarget then pure baseRef
  else branchOrTagRef go runs job run repository

/-- The facts of a run, unless its event or its ref is not established. -/
def cacheFactsFromRun : Except String Facts := do
  let repository := job.repository
  let event := run.eventName go
  refuseIf (event = []) "workflow run names no event"
  let defaultBranch := defaultRef runs repository
  let pr := eventPullRequest go run
  let baseRef := baseRefOf pr
  let ref ← factsRef go runs job run pr baseRef defaultBranch
  refuseIf (ref = []) ("could not establish the ref of a " ++ text event ++ " run")
  pure
    { runner := job.runnerName
      repository, event, ref, baseRef, defaultBranch
      repositoryId := run.repository.id
      headRepository := run.headName
      attempt := [] }

/-- What is published of a job whose run is not known. -/
def coldCacheFacts : Facts where
  runner := job.runnerName
  repository := job.repository
  repositoryId := 0
  headRepository := unverifiedHeadRepository
  event := go.toLower (trimSpace job.eventName)
  ref := unresolvedRef
  baseRef := []
  defaultBranch := []
  attempt := []

/-- The facts that `learnFromWorkflowRun` publishes. -/
def publishedFacts (runs : Option WorkflowRuns) (job : JobStarted) : Facts :=
  match runs, workflowRunOf go runs job with
  | some runs, .ok run =>
    match cacheFactsFromRun go runs job run with
    | .ok facts => facts
    | .error _ => coldCacheFacts go job
  | _, _ => coldCacheFacts go job

end EraInfra.CacheScope
