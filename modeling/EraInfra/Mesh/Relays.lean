import Mathlib.Data.Finmap
import EraInfra.Core.Run
import EraInfra.Core.Transaction

/-!
# The relays of the mesh daemon

`set_relays` of `apps/mesh/src/daemon.rs`.  A change of relays closes the endpoint and binds another
with the new ones.  What the daemon records, and so what `status` reports and the next request is
compared with, changes only when the bind succeeds, but the endpoint is closed either way.  After a
failed bind a request for the relays the daemon last had is answered without binding an endpoint, and
the daemon stays without one.

`Bound` is the daemon as its client can know it, from the requests and the outcomes of their binds: the
configuration that was bound last, and whether a bind has failed since.  `setRelaysStep_daemon` says
that the code goes with it, step by step.
-/

namespace EraInfra.Mesh

open DocStore

/-- What is iroh's: relay URLs and configurations; and the texts of Rust's `{:?}`. -/
structure Iroh (Url Config : Type) where
  parse : String → Except String Url
  scheme : Url → String
  fromUrl : Url → Config
  withAuthToken : Config → String → Config
  url : Config → Url
  defaultRelays : List Config
  debug : String → String

/-- The relays a request asks for. -/
structure RelaysSpec where
  relays : List String
  authToken : Option String
  n0Fallback : Bool
deriving DecidableEq

structure ApiError where
  code : String
  message : String

def badRequest (message : String) : ApiError := ⟨"bad_request", message⟩

abbrev Relays (Url Config : Type) := Finmap fun _ : Url => Config

/-- How an endpoint is bound. -/
inductive RelayMode (Url Config : Type)
  | disabled
  | custom (relays : Relays Url Config)

structure Endpoint (Url Config : Type) where
  isOpen : Bool
  mode : RelayMode Url Config

/-- What `set_relays` reads and writes. -/
structure Daemon (Url Config : Type) where
  endpoint : Endpoint Url Config
  desired : RelaysSpec
  appliedRelays : Relays Url Config

/-- The daemon as `start` leaves it when nothing was saved. -/
def start {Url Config : Type} : Daemon Url Config := ⟨⟨true, .disabled⟩, ⟨[], none, false⟩, ∅⟩

/-- A request, with the error of the bind it may come to. -/
structure SetRelays where
  spec : RelaysSpec
  bindError : Option String

structure Answer where
  changed : Bool
  mode : String

variable {Url Config : Type} [DecidableEq Url] [DecidableEq Config] (iroh : Iroh Url Config)

/-- One relay of a request. -/
def addRelay (authToken : Option String) (want : Relays Url Config) (raw : String) :
    Except ApiError (Relays Url Config) := do
  let url ← (iroh.parse raw).mapError fun e =>
    badRequest ("relay URL " ++ iroh.debug raw ++ ": " ++ e)
  let scheme := iroh.scheme url
  refuseIf (scheme = "http" ∧ authToken ≠ none)
    (badRequest ("relay " ++ raw ++ " is plain http; refusing to send the relay auth token over it"))
  refuseIf (scheme ≠ "https" ∧ scheme ≠ "http")
    (badRequest ("relay " ++ raw ++ " has scheme " ++ iroh.debug scheme ++ "; use https"))
  let config := iroh.fromUrl url
  return want.insert url (authToken.elim config (iroh.withAuthToken config))

/-- The relay map a request asks for. -/
def relayConfigs (spec : RelaysSpec) : Except ApiError (Relays Url Config) := do
  refuseIf (spec.authToken = some "") (badRequest "auth_token must not be empty; omit it instead")
  let want ← spec.relays.foldlM (addRelay iroh spec.authToken) ∅
  let fallback := if spec.n0Fallback then iroh.defaultRelays else []
  return fallback.foldl (fun want config =>
    if iroh.url config ∈ want then want else want.insert (iroh.url config) config) want

/-- Without relays the endpoint is bound for direct connections. -/
def relayMode (want : Relays Url Config) : RelayMode Url Config :=
  if want = ∅ then .disabled else .custom want

def relayModeName (relays : Relays Url Config) : String :=
  if relays = ∅ then "direct_only" else "relays"

/-- `set_relays`: nothing changes when the same is asked for again; otherwise the endpoint is bound
anew. -/
def setRelays (c : SetRelays) (d : Daemon Url Config) : Except ApiError Answer × Daemon Url Config :=
  match relayConfigs iroh c.spec with
  | .error e => (.error e, d)
  | .ok want =>
    if c.spec = d.desired ∧ want = d.appliedRelays then (.ok ⟨false, relayModeName want⟩, d)
    else
      -- the old endpoint is closed before the new one is bound
      match c.bindError with
      | some e => (.error ⟨"endpoint_failed", "cannot rebind endpoint: " ++ e⟩,
          { d with endpoint.isOpen := false })
      | none => (.ok ⟨true, relayModeName want⟩, ⟨⟨true, relayMode want⟩, c.spec, want⟩)

/-- What `status` reports of the relays: the mode, the list, whether there is a token, the
fallback. -/
def relayStatus (d : Daemon Url Config) : String × List String × Bool × Bool :=
  (relayModeName d.appliedRelays, d.desired.relays, d.desired.authToken.isSome, d.desired.n0Fallback)

def setRelaysStep (d : Daemon Url Config) (c : SetRelays) : Daemon Url Config := (setRelays iroh c d).2

/-! ## What was bound last -/

/-- The configuration that was bound last, and whether a bind has failed since. -/
structure Bound (Url Config : Type) where
  spec : RelaysSpec
  relays : Relays Url Config
  failed : Bool

/-- A well-formed request for another configuration comes to a bind. -/
def Bound.next (b : Bound Url Config) (c : SetRelays) : Bound Url Config :=
  match relayConfigs iroh c.spec with
  | .error _ => b
  | .ok want =>
    if c.spec = b.spec ∧ want = b.relays then b
    else
      match c.bindError with
      | some _ => { b with failed := true }
      | none => ⟨c.spec, want, false⟩

/-- What a run of requests has bound; a daemon starts with an endpoint without relays. -/
def lastBound (calls : List SetRelays) : Bound Url Config :=
  run (Bound.next iroh) ⟨⟨[], none, false⟩, ∅, false⟩ calls

/-- The daemon that has bound a configuration: its endpoint is open unless a bind has failed since. -/
def Bound.daemon (b : Bound Url Config) : Daemon Url Config :=
  ⟨⟨!b.failed, relayMode b.relays⟩, b.spec, b.relays⟩

variable {c : SetRelays} {want : Relays Url Config}

/-- The code binds when a bind is due, and records what was bound. -/
lemma setRelaysStep_daemon (b : Bound Url Config) (c : SetRelays) :
    setRelaysStep iroh b.daemon c = (b.next iroh c).daemon := by
  simp only [setRelaysStep, setRelays, Bound.next]
  rcases relayConfigs iroh c.spec with e | want
  · rfl
  -- what the daemon has recorded is what was bound last
  have hrecorded : (c.spec = b.daemon.desired ∧ want = b.daemon.appliedRelays)
      = (c.spec = b.spec ∧ want = b.relays) := rfl
  by_cases hsame : c.spec = b.spec ∧ want = b.relays
  · simp only [hrecorded, if_pos hsame]
  simp only [hrecorded, if_neg hsame]
  rcases c.bindError with _ | e <;> rfl

lemma run_setRelaysStep (calls : List SetRelays) :
    run (setRelaysStep iroh) start calls = (lastBound iroh calls).daemon := by
  refine run_invariant (fun calls d => d = (lastBound iroh calls).daemon) ?_ ?_ calls
  · simp [start, lastBound, Bound.daemon, relayMode]
  · intro calls c ih
    rw [ih, setRelaysStep_daemon, lastBound, lastBound, run_snoc]

/-- A request that is answered is for what was bound last, or binds another configuration. -/
lemma setRelays_ok {b : Bound Url Config} {answer : Answer}
    (h : (setRelays iroh c b.daemon).1 = .ok answer) :
    ∃ want, relayConfigs iroh c.spec = .ok want ∧
      ((c.spec = b.spec ∧ want = b.relays) ∧ b.next iroh c = b ∨
        ¬ (c.spec = b.spec ∧ want = b.relays) ∧ b.next iroh c = ⟨c.spec, want, false⟩) := by
  cases hwant : relayConfigs iroh c.spec with
  | error e => simp [setRelays, hwant] at h
  | ok want =>
    refine ⟨want, rfl, ?_⟩
    by_cases hsame : c.spec = b.spec ∧ want = b.relays
    · rw [Bound.next, hwant]
      exact .inl ⟨hsame, if_pos hsame⟩
    refine .inr ⟨hsame, ?_⟩
    cases hbind : c.bindError with
    | none => simp [Bound.next, hwant, hsame, hbind]
    | some e => simp [setRelays, hwant, hbind, Bound.daemon, hsame] at h

/-- A bind that fails was for another configuration than the one bound last, which stays the last. -/
lemma setRelays_endpoint_failed {b : Bound Url Config} {message : String}
    (h : (setRelays iroh c b.daemon).1 = .error ⟨"endpoint_failed", message⟩)
    (hwant : relayConfigs iroh c.spec = .ok want) :
    ¬ (c.spec = b.spec ∧ want = b.relays) ∧ b.next iroh c = { b with failed := true } := by
  by_cases hsame : c.spec = b.spec ∧ want = b.relays
  · rw [setRelays, hwant] at h
    simp [Bound.daemon, hsame] at h
  refine ⟨hsame, ?_⟩
  cases hbind : c.bindError with
  | none => simp [setRelays, hwant, hbind, Bound.daemon, hsame] at h
  | some e => simp [Bound.next, hwant, hsame, hbind]

/-- **When an answer of `set_relays` is true.**  After any requests, one that is answered without an
error leaves the daemon reporting what it asks for; the endpoint is open and bound with that exactly
when the request is not for the configuration that was bound last, or no bind has failed since.  In
particular a request that failed to bind, made again, restores service as soon as the bind succeeds. -/
theorem set_relays_in_force_iff (calls : List SetRelays) :
    (∀ c answer, (setRelays iroh c (run (setRelaysStep iroh) start calls)).1 = .ok answer →
      ∃ want, relayConfigs iroh c.spec = .ok want ∧
        relayStatus (run (setRelaysStep iroh) start (calls ++ [c])) = (relayModeName want,
          c.spec.relays, c.spec.authToken.isSome, c.spec.n0Fallback) ∧
        ((run (setRelaysStep iroh) start (calls ++ [c])).endpoint = ⟨true, relayMode want⟩ ↔
          ¬ (c.spec = (lastBound iroh calls).spec ∧ want = (lastBound iroh calls).relays) ∨
            (lastBound iroh calls).failed = false)) ∧
    ∀ c want message, relayConfigs iroh c.spec = .ok want →
      (setRelays iroh c (run (setRelaysStep iroh) start calls)).1
        = .error ⟨"endpoint_failed", message⟩ →
      (run (setRelaysStep iroh) start (calls ++ [c] ++ [{ c with bindError := none }])).endpoint
        = ⟨true, relayMode want⟩ := by
  simp only [run_snoc, run_setRelaysStep, setRelaysStep_daemon]
  generalize lastBound iroh calls = b
  constructor
  · intro c answer h
    obtain ⟨want, hwant, ⟨hsame, hnext⟩ | ⟨hother, hnext⟩⟩ := setRelays_ok iroh h
    · refine ⟨want, hwant, ?_⟩
      rw [hnext, hsame.1, hsame.2]
      refine ⟨rfl, ?_⟩
      cases hfailed : b.failed <;> simp [Bound.daemon, hfailed]
    · refine ⟨want, hwant, ?_⟩
      rw [hnext]
      exact ⟨rfl, iff_of_true rfl (.inl hother)⟩
  · intro c want message hwant h
    obtain ⟨hother, hnext⟩ := setRelays_endpoint_failed iroh h hwant
    rw [hnext]
    simp only [Bound.next, hwant, if_neg hother]
    rfl

/-- One relay, and no answer of iroh that matters. -/
def plainIroh : Iroh Unit Unit where
  parse _ := .ok ()
  scheme _ := "https"
  fromUrl := id
  withAuthToken config _ := config
  url := id
  defaultRelays := []
  debug := id

def oneRelay : RelaysSpec := ⟨["https://relay.example"], none, false⟩

/-- After a failed bind, the request made again restores service. -/
theorem set_relays_in_force_when_repeated :
    ∃ want, relayConfigs plainIroh oneRelay = .ok want ∧
      (run (setRelaysStep plainIroh) start [⟨oneRelay, some "no buffer space"⟩, ⟨oneRelay, none⟩]).endpoint
        = ⟨true, relayMode want⟩ :=
  ⟨_, rfl, (set_relays_in_force_iff plainIroh []).2 ⟨oneRelay, some "no buffer space"⟩ _ _ rfl rfl⟩

/-- After a failed bind, the request for what the daemon had before is answered, and it has no
endpoint. -/
theorem set_relays_answered_without_endpoint :
    (setRelays plainIroh ⟨⟨[], none, false⟩, none⟩
        (run (setRelaysStep plainIroh) start [⟨oneRelay, some "no buffer space"⟩])).1
      = .ok ⟨false, "direct_only"⟩ ∧
    (run (setRelaysStep plainIroh) start [⟨oneRelay, some "no buffer space"⟩,
      ⟨⟨[], none, false⟩, none⟩]).endpoint.isOpen = false :=
  ⟨rfl, rfl⟩

end EraInfra.Mesh
