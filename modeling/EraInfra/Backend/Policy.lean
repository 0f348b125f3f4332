import EraInfra.Backend.Schema

/-!
# The pure policies

What the mutations decide with, and no database in it: when a Worker or a controller counts as
gone (`workerPolicy.ts`, `controllerLiveness.ts`), what a benchmark is worth (`benchmark.ts`),
which host labels a Worker lacks (`hostLabels.ts`), and whether a Worker's evidence admits it for
a Profile (`egress.ts`, `isolation.ts`).

Two functions of the JavaScript engine depend on Unicode tables and on a collation, so they are
not defined here but assumed: an `Engine` supplies them, and every result of this development
holds for any engine.
-/

namespace EraInfra

open DocStore

/-- What the JavaScript engine supplies. -/
structure Engine where
  /-- `String.prototype.toLowerCase`. -/
  toLowerCase : String → String
  /-- `String.prototype.localeCompare`. -/
  localeCompare : String → String → Ordering

/-- An engine for ASCII texts. -/
def asciiEngine : Engine where
  toLowerCase s := String.ofList (s.toList.map Char.toLower)
  localeCompare a b := compare a b

/-- White space and line terminators, as `String.prototype.trim` removes them. -/
def isJsSpace (c : Char) : Bool :=
  (9 ≤ c.toNat && c.toNat ≤ 13) || (0x2000 ≤ c.toNat && c.toNat ≤ 0x200a) ||
    [0x20, 0xa0, 0x1680, 0x2028, 0x2029, 0x202f, 0x205f, 0x3000, 0xfeff].contains c.toNat

/-- `String.prototype.trim`. -/
def trim (s : String) : String :=
  String.ofList ((((s.toList.dropWhile isJsSpace).reverse).dropWhile isJsSpace).reverse)

/-- The UTF-16 code units of a text, which is what JavaScript counts and compares. -/
def codeUnits (s : String) : List ℕ := s.toList.flatMap fun c =>
    if c.toNat < 0x10000 then [c.toNat]
    else [0xd800 + (c.toNat - 0x10000) / 0x400, 0xdc00 + (c.toNat - 0x10000) % 0x400]

/-- `text.length`. -/
def jsLength (s : String) : ℕ := (codeUnits s).length

lemma codeUnits_of_ascii {s : String} (h : ∀ c ∈ s.toList, c.toNat < 128) :
    codeUnits s = s.toList.map Char.toNat := by
  rw [List.map_eq_flatMap]
  refine List.flatMap_congr fun c hc => ?_
  have hlt := h c hc
  rw [if_pos (by omega)]

/-- `Number.isSafeInteger`. -/
def isSafeInteger (q : ℚ) : Bool := q.den = 1 && -(2 ^ 53 - 1) ≤ q && q ≤ 2 ^ 53 - 1

/-- The characters of a text's first `n` code units.  The half of a pair that a cut leaves is no
character; it is the replacement character, which UTF-8 has for it. -/
def takeUnits : ℕ → List Char → List Char
  | _, [] => []
  | n, c :: cs =>
    let units := if c.toNat < 0x10000 then 1 else 2
    if n = 0 then []
    else if n < units then [Char.ofNat 0xfffd]
    else c :: takeUnits (n - units) cs

/-- `text.slice(0, n)`. -/
def sliceTo (s : String) (n : ℕ) : String := String.ofList (takeUnits n s.toList)

/-- `text.split(separator)` for a separator of one character. -/
def splitText (separator : Char) (s : String) : List String :=
  (s.toList.splitOn separator).map String.ofList

/-- `names.join(", ")`. -/
def commaList (names : List String) : String := String.intercalate ", " names

/-! ## Liveness -/

/-- A Worker that has not been seen for this long does not report. -/
def workerOfflineAfterMs : ℤ := 2 * 60000

/-- A controller that has not reported for this long is not live. -/
def controllerOfflineAfterMs : ℤ := 90000

/-- A controller that is not stopping and reported lately. -/
def isLive (row : ControllerHeartbeat) (now : ℤ) : Bool :=
  row.report.sessionState ≠ .stopped && now - row.receivedAt < controllerOfflineAfterMs

/-- `controllerLiveness(rows, now).live`: the controllers that reported lately and are not
stopping. -/
def liveControllers (rows : List ControllerHeartbeat) (now : ℤ) : ℕ :=
  (rows.filter fun row => isLive row now).length

/-! ## Benchmarks -/

def benchmarkStaleAfterMs : ℤ := 7 * 24 * 60 * 60000

def neutralBenchmarkScore : ℕ := 50

inductive BenchmarkSource
  | missing
  | stale
  | fresh
deriving DecidableEq, Repr

structure BenchmarkScore where
  score : ℕ
  source : BenchmarkSource

/-- What a Worker's benchmark is worth under a fit policy; missing and stale ones are neutral. -/
def benchmarkScore (benchmark : Option BenchmarkSummary) (policy : FitPolicy) (now : ℤ) :
    BenchmarkScore :=
  match benchmark with
  | none => ⟨neutralBenchmarkScore, .missing⟩
  | some benchmark =>
    if now - benchmark.measuredAt ≥ benchmarkStaleAfterMs then
      ⟨neutralBenchmarkScore, .stale⟩
    else
      let score :=
        match policy with
        | .cpu => benchmark.scores.cpu
        | .network => benchmark.scores.network
        | .io => benchmark.scores.disk
        | .balanced => benchmark.scores.balanced
      ⟨score, .fresh⟩

/-! ## Host labels -/

section HostLabels

variable (js : Engine)

/-- The labels a Profile requires that a Worker does not carry. -/
def missingHostLabels (required : Option (List String)) (carried : List String) : List String :=
  match required with
  | none => []
  | some required =>
    let carries := carried.map fun label => js.toLowerCase (trim label)
    required.filter fun label => !carries.contains (js.toLowerCase label)

/-- Whether a Worker carries every label a Profile requires. -/
def carriesHostLabels (required : Option (List String)) (carried : List String) : Bool :=
  (missingHostLabels js required carried).isEmpty

/-- The detail a Worker that lost a label shows for a Profile it can no longer serve. -/
def missingHostLabelsDetail (missing : List String) : String :=
  let noun := if missing.length = 1 then "host label" else "host labels"
  s!"this Worker lacks the {noun} {commaList missing} the Profile is pinned to"

end HostLabels

/-! ## Egress -/

def EgressMode.text : EgressMode → String
  | .publicInternet => "public"
  | .audit => "audit"
  | .allowlist => "allowlist"

def EgressMode.rank : EgressMode → ℤ
  | .publicInternet => 0
  | .audit => 1
  | .allowlist => 2

def publicEgress : ProfileEgress := ⟨.publicInternet, [], [], []⟩

/-- The stored policy of a Profile, with the absent field read as public. -/
def profileEgressOf (egress : Option ProfileEgress) : ProfileEgress := egress.getD publicEgress

/-- `egressRank`: how strict a reported mode is, `-1` for a text that is no mode. -/
def egressRank (mode : Option String) : ℤ :=
  match mode with
  | none => -1
  | some mode =>
    if mode = "audit" then EgressMode.rank .audit
    else if mode = "allowlist" then EgressMode.rank .allowlist
    else if mode = "public" then EgressMode.rank .publicInternet
    else -1

/-- Why a Worker's evidence does not prove it enforces the Profile's egress now.  The first test
is `sameEgress` of the policy the evidence names and the Profile's. -/
def egressEvidenceError (profile : ProfileEgress) (evidence : Option EgressEvidence)
    (checks : Option (List ReadinessCheck)) : Option String :=
  match evidence with
  | none =>
    if profile.mode = .publicInternet then none
    else some s!"network.egress is required for a {profile.mode.text} Profile"
  | some evidence =>
    let sameEgress := evidence.profileMode = profile.mode.text ∧
      evidence.presets.getD [] = profile.presets ∧ evidence.domains.getD [] = profile.domains ∧
      evidence.cidrs.getD [] = profile.cidrs
    let check := (checks.getD []).find? fun entry => entry.name = "egress-policy"
    if ¬ sameEgress then
      some "network.egress does not match the Profile's current egress policy"
    else if egressRank (some evidence.mode) < profile.mode.rank then
      some (s!"network.egress.mode {evidence.mode} is weaker than " ++
        s!"the Profile's {profile.mode.text}")
    else if profile.mode ≠ .publicInternet ∧ check.map ReadinessCheck.passed ≠ some true then
      some "the egress-policy check must pass"
    else none

def maxRecordNames : ℕ := 256
def maxRecordFlows : ℕ := 512

/-- A reported egress record, clamped to its bounds. -/
def boundedEgressRecord (record : EgressRecord) : EgressRecord where
  mode := record.mode
  names := some (((record.names.getD []).take maxRecordNames).map fun entry =>
    { name := sliceTo entry.name 253, verdict := entry.verdict, queries := max 0 entry.queries })
  flows := some (((record.flows.getD []).take maxRecordFlows).map fun entry =>
    { destination := sliceTo entry.destination 64
      protocol := entry.protocol
      port := min 65535 (max 0 entry.port)
      name := entry.name.map fun name => sliceTo name 253
      verdict := entry.verdict })
  omittedNames := some (max 0 (record.omittedNames.getD 0) +
    (((record.names.getD []).length - maxRecordNames : ℕ) : ℤ))
  omittedFlows := some (max 0 (record.omittedFlows.getD 0) +
    (((record.flows.getD []).length - maxRecordFlows : ℕ) : ℤ))
  error := record.error.map fun error => sliceTo error 1000

/-! ## Readiness evidence -/

def firecrackerRequiredChecks : List String :=
  ["firecracker-binary", "guest-kernel-image", "guest-kernel-arguments", "kvm-device",
    "cni-plugins", "cni-network-configuration", "job-network-policy", "containerd-snapshotter",
    "cni-address-reservations", "snapshot-storage-headroom", "cache-isolation", "image-release",
    "warm-pool"]

def isLowerHex (c : Char) : Bool := c.isDigit || ('a' ≤ c && c ≤ 'f')

/-- `POLICY_HASH`: `sha256:` and exactly 64 lower-case hexadecimal digits. -/
def isPolicyHash (s : String) : Bool :=
  s.toList.take 7 = "sha256:".toList && (s.toList.drop 7).length = 64 &&
    (s.toList.drop 7).all isLowerHex

def isBlank (text : Option String) : Bool :=
  match text with
  | none => true
  | some text => trim text = ""

/-- The names that occur again after an earlier occurrence, each once, in the order the second
occurrences are met. -/
def duplicateNames : List String → List String → List String → List String
  | _, dups, [] => dups
  | seen, dups, name :: names =>
    if seen.contains name then
      duplicateNames seen (if dups.contains name then dups else dups ++ [name]) names
    else duplicateNames (seen ++ [name]) dups names

/-- One complaint of `firecrackerReadinessError`. -/
def problemWhen (bad : Bool) (text : String) : List String :=
  if bad then [text] else []

/-- Every missing or contradictory fact in a Firecracker ready report. -/
def firecrackerReadinessError (facts : ReadinessFacts) (profileEgress : ProfileEgress) :
    Option String :=
  let checks := facts.checks.getD []
  let names := checks.map ReadinessCheck.name
  let poolTotalMiB := facts.storage.bind StorageFacts.poolTotalMiB
  let poolFreeMiB := facts.storage.bind StorageFacts.poolFreeMiB
  let failedChecks := (checks.filter fun check => !check.passed).map ReadinessCheck.name
  let duplicateChecks := duplicateNames [] [] names
  let missingChecks := firecrackerRequiredChecks.filter fun name => !names.contains name
  let problems := (egressEvidenceError profileEgress (facts.network.bind NetworkFacts.egress)
      facts.checks).toList ++
    problemWhen (facts.isolation ≠ some "firecracker-microvm")
      "isolation must be firecracker-microvm" ++
    problemWhen (facts.boundary ≠ some .guestKernel) "boundary must be guest-kernel" ++
    problemWhen (facts.kvm ≠ some true) "hardware.kvm must be true" ++
    problemWhen (facts.storage.bind StorageFacts.snapshotter ≠ some "devmapper")
      "storage.snapshotter must be devmapper" ++
    problemWhen (isBlank (facts.storage.bind StorageFacts.poolName)) "storage.poolName is required" ++
    problemWhen (!((poolTotalMiB.map isSafeInteger).getD false) || poolTotalMiB.getD 0 ≤ 0)
      "storage.poolTotalMiB must be a positive integer" ++
    problemWhen (!((poolFreeMiB.map isSafeInteger).getD false) || poolFreeMiB.getD 0 ≤ 0 ||
        (poolTotalMiB.map fun total => decide (poolFreeMiB.getD 0 > total)).getD false)
      "storage.poolFreeMiB must be positive headroom within the pool" ++
    problemWhen (isBlank (facts.network.bind NetworkFacts.policyName))
      "network.policyName is required" ++
    problemWhen (!isPolicyHash ((facts.network.bind NetworkFacts.policyHash).getD ""))
      "network.policyHash must be an exact sha256 identity" ++
    problemWhen (isBlank (facts.network.bind NetworkFacts.subnet)) "network.subnet is required" ++
    problemWhen (egressRank (facts.network.bind NetworkFacts.egressMode) < 0)
      "network.egressMode must be public, audit or allowlist" ++
    problemWhen (facts.cacheScope ≠ some "immutable-image") "cacheScope must be immutable-image" ++
    problemWhen (facts.cacheSharedWritable ≠ some false) "cacheSharedWritable must be false" ++
    problemWhen (!failedChecks.isEmpty) s!"checks must pass: {commaList failedChecks}" ++
    problemWhen (!duplicateChecks.isEmpty) s!"checks must be unique: {commaList duplicateChecks}" ++
    problemWhen (!missingChecks.isEmpty) s!"required checks are missing: {commaList missingChecks}"
  if problems.isEmpty then none else some (String.intercalate "; " problems)

/-- Why a nominally-ready row is ineligible, including stale split evidence and evidence that does
not prove the Profile's current egress policy. -/
def readinessAdmissionError (readiness : WorkerReadiness) (evidence : Option ReadinessEvidence)
    (profileEgress : ProfileEgress) : Option String :=
  let judge (facts : ReadinessFacts) :=
    (firecrackerReadinessError facts profileEgress).map fun problem =>
      s!"Firecracker readiness evidence is incomplete: {problem}"
  if readiness.executor ≠ .firecracker then none
  else
    match evidence with
    | none => judge readiness.facts
    | some evidence =>
      if evidence.machineId = readiness.machineId ∧ evidence.profile = readiness.profile ∧
          evidence.executor = readiness.executor ∧
          evidence.imageRelease = readiness.imageRelease ∧
          evidence.vcpus = readiness.vcpus ∧ evidence.memoryMiB = readiness.memoryMiB ∧
          evidence.checkedAt = readiness.checkedAt then
        judge evidence.facts
      else
        some ("current readinessEvidence does not match this Worker, " ++
          "Profile contract, and checkedAt")

/-- Copy-on-write room one running guest may consume. -/
def snapshotReserveMiB : ℚ := 8 * 1024

def hasSnapshotHeadroomForGuests (storage : Option StorageFacts) (guests : ℤ) : Bool :=
  match storage.bind StorageFacts.poolFreeMiB with
  | none => true
  | some free => snapshotReserveMiB * guests ≤ free

end EraInfra
