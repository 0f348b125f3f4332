import EraInfra.Core.Run
import EraInfra.Fleet.Schema

/-!
# The mesh identity of a Node

A Node proves that it holds an endpoint's key by signing a challenge (`infra/nodeState.ts`), under a
credential that an operator enrolled it with (`infra/nodes.ts`).  Revoking the last live credential, or a
reset, forgets the endpoint and the challenges of the Node.

The reads that forget challenges are bounded; they forget all of them because a Node never has more than
one (`IdentitySound`).
-/

namespace EraInfra.Fleet

open DocStore List Option Table

/-! ## Enrollment -/

/-- What the runtime makes of the texts of a call. -/
structure IdentityEnv where
  /-- `hashApiToken`, on a well-formed Node credential. -/
  hashCredential : String → Option String
  /-- `new URL(relay)` is read, and is an https URL without user, query or fragment. -/
  isRelayUrl : String → Bool
  /-- The `JSON.stringify` of a challenge with that nonce. -/
  stringify : NodeId → DocId NodeCredential → String → MeshAddress → String
  /-- `ed25519.verify`, of a key, a message and a signature. -/
  verify : String → String → String → Bool

section

variable (env : IdentityEnv) (now : ℤ) (nodeId : NodeId)

/-- `/^[a-z0-9][a-z0-9._-]{0,62}$/i`. -/
def isValidName (name : String) : Bool :=
  Infra.isWord Char.isAlphanum (fun c => c.isAlphanum || ['.', '_', '-'].contains c) 62 name.toList

/-- Another credential, for a Node that is made when it is not there yet. -/
def enrollNode (name tokenHash : String) (db : Db) : Except String Db := do
  refuseIf (isValidName (trim name) = false)
    "Name the Node with letters, digits, dots, dashes or underscores"
  match ← nodeByName db (trim name) with
  | some (nodeId, _) =>
    pure { db with nodeCredentials := db.nodeCredentials.insert ⟨nodeId, tokenHash, none⟩ }
  | none =>
    pure { db with
      nodes := db.nodes.insert ⟨trim name, none, none, none, none, []⟩
      nodeCredentials := db.nodeCredentials.insert ⟨db.nodes.next, tokenHash, none⟩ }

/-- Delete challenges of a Node, as many as one read takes. -/
def forgetChallenges (limit : ℕ) (nodeId : NodeId) (challenges : Table EndpointChallenge) :
    Table EndpointChallenge :=
  (((challenges.collect fun row => row.nodeId = nodeId).take limit).map Prod.fst).foldl Table.delete challenges

/-- Withdraw a Node's endpoint, with the challenges made for it. -/
def clearEndpoint (db : Db) : Db := { db with
    nodes := db.nodes.patch nodeId fun node =>
      { node with endpointId := none, meshAddress := none, endpointProvenAt := none }
    nodeEndpointChallenges := forgetChallenges 16 nodeId db.nodeEndpointChallenges }

/-- Mark a credential as revoked. -/
def revokeCredential (id : DocId NodeCredential) (db : Db) : Db :=
  { db with nodeCredentials := db.nodeCredentials.patch id fun row => { row with revokedAt := some now } }

/-- The last live credential takes the endpoint with it. -/
def revokeNodeCredential (id : DocId NodeCredential) (db : Db) : Except String Db :=
  match db.nodeCredentials.get id with
  | none => throw "No such credential"
  | some credential =>
    if credential.revokedAt ≠ none then pure db
    else if db.nodes.get credential.nodeId ≠ none ∧
        hasLiveCredential (revokeCredential now id db) credential.nodeId = false then
      pure (clearEndpoint credential.nodeId (revokeCredential now id db))
    else pure (revokeCredential now id db)

/-- An operator's reset, after which a Node may prove another key. -/
def resetNodeEndpoint (db : Db) : Except String Db := do
  refuseIf (db.nodes.get nodeId = none) "No such Node"
  pure (clearEndpoint nodeId db)

/-! ## Proof of possession -/

/-- The Node a credential belongs to, if the credential is known and not revoked. -/
def requireNode (credential : String) (db : Db) : Except String (NodeId × DocId NodeCredential) :=
  match env.hashCredential credential with
  | none => throw "Unauthorized Node credential"
  | some hash => do
    match ← db.nodeCredentials.unique notUnique fun row => row.tokenHash = hash with
    | none => throw "Unauthorized Node credential"
    | some (id, row) =>
      if row.revokedAt = none then pure (row.nodeId, id) else throw "Unauthorized Node credential"

/-- A Node keeps its key until a reset, and no two Nodes have one. -/
def assertEndpointAvailable (endpointId : String) (db : Db) : Except String Unit := do
  match db.nodes.get nodeId with
  | none => throw "No such Node"
  | some node =>
    refuseIf (node.endpointId ≠ none ∧ node.endpointId ≠ some endpointId)
      "endpoint_key_changed: Operator must reset the endpoint before changing its key"
    refuseIf (((db.nodes.collect fun other => other.endpointId = some endpointId).head?.any
      fun other => other.1 ≠ nodeId) = true)
      "endpoint_in_use: Endpoint already registered to another Node"

def isLowerHex (c : Char) : Bool := c.isDigit || ('a' ≤ c && c ≤ 'f')

/-- Begin a proof of possession: a message that only the key of the address can sign. -/
def challenge (credential nonce : String) (address : MeshAddress) (db : Db) :
    Except String Db := do
  let (nodeId, credentialId) ← requireNode env credential db
  refuseIf ((address.id.toList.all isLowerHex && address.id.length = 64) = false ∨
    8 < address.relayUrls.length ∨ 16 < address.directAddrs.length ∨
    (address.directAddrs.any fun text => 128 < jsLength text) = true) "Invalid endpoint address"
  refuseIf ((address.relayUrls.all fun relay => jsLength relay ≤ 512 && env.isRelayUrl relay) = false)
    "Invalid relay URL"
  assertEndpointAvailable nodeId address.id db
  let message := "erainfra/node-endpoint/v1\n" ++ env.stringify nodeId credentialId nonce address
  refuseIf (4096 < message.utf8ByteSize) "Endpoint challenge exceeds sidecar limit"
  pure { db with
    nodeEndpointChallenges := (forgetChallenges 2 nodeId db.nodeEndpointChallenges).insert
      ⟨nodeId, credentialId, address, message, now + 60000⟩ }

/-- A Node whose endpoint is proven. -/
def register (address : MeshAddress) (node : Node) : Node := { node with
    endpointId := some address.id, meshAddress := some address, endpointProvenAt := some now }

/-- Complete it: with the signature of an unexpired challenge the address is registered. -/
def publish (credential : String) (challengeId : DocId EndpointChallenge)
    (signature : String) (db : Db) : Except String Db := do
  let (nodeId, credentialId) ← requireNode env credential db
  match db.nodeEndpointChallenges.get challengeId with
  | none => throw "Invalid endpoint challenge"
  | some proof =>
    refuseIf (proof.nodeId ≠ nodeId ∨ proof.credentialId ≠ credentialId ∨ proof.expiresAt ≤ now)
      "Invalid endpoint challenge"
    refuseIf (env.verify proof.address.id proof.message signature = false) "Invalid endpoint signature"
    assertEndpointAvailable nodeId proof.address.id db
    pure { db with
      nodes := db.nodes.patch nodeId (register now proof.address)
      nodeEndpointChallenges := db.nodeEndpointChallenges.delete challengeId }

/-- The calls that concern a Node's identity. -/
inductive IdentityOp
  | enroll (name tokenHash : String)
  | revoke (id : DocId NodeCredential)
  | reset (nodeId : NodeId)
  | challenge (credential nonce : String) (address : MeshAddress)
  | publish (credential : String) (challengeId : DocId EndpointChallenge) (signature : String)

structure IdentityCall where
  now : ℤ
  op : IdentityOp

/-- What a call does, or why it is refused. -/
def performIdentity (call : IdentityCall) (db : Db) : Except String Db :=
  match call.op with
  | .enroll name tokenHash => enrollNode name tokenHash db
  | .revoke id => revokeNodeCredential call.now id db
  | .reset nodeId => resetNodeEndpoint nodeId db
  | .challenge credential nonce address => challenge env call.now credential nonce address db
  | .publish credential challengeId signature => publish env call.now credential challengeId signature db

/-- A refused call changes nothing. -/
def identityStep (db : Db) (call : IdentityCall) : Db := commit db (performIdentity env call db)

/-! ## What a call does -/

end

variable {env : IdentityEnv} {db db' : Db} {call : IdentityCall} {n : NodeId} {e : String}
  {c : DocId EndpointChallenge} {row : EndpointChallenge}

/-- The call forgets the Node's endpoint. -/
def Clears (n : NodeId) (db : Db) (call : IdentityCall) : Prop := db.nodes.get n ≠ none ∧
    match call.op with
    | .reset nodeId => nodeId = n
    | .revoke id => ∃ row, db.nodeCredentials.get id = some row ∧ row.nodeId = n ∧ row.revokedAt = none ∧
        hasLiveCredential (revokeCredential call.now id db) n = false
    | _ => False

/-- The call publishes with the challenge. -/
def Uses (env : IdentityEnv) (c : DocId EndpointChallenge) (db : Db) (call : IdentityCall) : Prop :=
  ∃ credential signature db', call.op = .publish credential c signature ∧
    performIdentity env call db = .ok db'

/-- The call asks for the challenge, under a credential of the Node. -/
def Asks (env : IdentityEnv) (row : EndpointChallenge) (db : Db) (call : IdentityCall) : Prop :=
  ∃ credential nonce, call.op = .challenge credential nonce row.address ∧
    requireNode env credential db = .ok (row.nodeId, row.credentialId) ∧
    row.message = "erainfra/node-endpoint/v1\n"
      ++ env.stringify row.nodeId row.credentialId nonce row.address ∧
    row.expiresAt = call.now + 60000

/-- The call issues the challenge. -/
def Issues (env : IdentityEnv) (c : DocId EndpointChallenge) (row : EndpointChallenge) (db : Db)
    (call : IdentityCall) : Prop :=
  Asks env row db call ∧ db.nodeEndpointChallenges.get c = none ∧
    (identityStep env db call).nodeEndpointChallenges.get c = some row

variable {credential : String} {id : DocId NodeCredential}

lemma requireNode_ok {k : DocId NodeCredential} (h : requireNode env credential db = .ok (n, k)) :
    ∃ row, db.nodeCredentials.get k = some row ∧ row.nodeId = n ∧ row.revokedAt = none := by
  simp only [requireNode] at h
  split at h
  · cases h
  rcases bind_ok.mp h with ⟨_ | ⟨id, row⟩, hfound, h⟩
  · cases h
  · simp only at h
    split_ifs at h with hlive
    cases h
    exact ⟨row, (unique_some hfound).1, rfl, hlive⟩

lemma hasLiveCredential_iff : hasLiveCredential db n = true ↔
    ∃ k row, db.nodeCredentials.get k = some row ∧ row.nodeId = n ∧ row.revokedAt = none := by
  simp only [hasLiveCredential, List.any_eq_true, mem_rowsOf, Bool.and_eq_true, decide_eq_true_eq]
  constructor
  · rintro ⟨row, ⟨k, hk⟩, hrow⟩
    exact ⟨k, row, hk, hrow⟩
  · rintro ⟨k, row, hk, hrow⟩
    exact ⟨row, ⟨k, hk⟩, hrow⟩

/-- Another credential takes none away. -/
lemma hasLiveCredential_insert {credential : NodeCredential} {nodes : Table Node}
    (h : hasLiveCredential db n = true) :
    hasLiveCredential { db with
      nodes := nodes, nodeCredentials := db.nodeCredentials.insert credential } n = true := by
  rcases hasLiveCredential_iff.mp h with ⟨k, row, hk, hrow⟩
  refine hasLiveCredential_iff.mpr ⟨k, row, ?_, hrow⟩
  rw [get_insert, if_neg (get_lt hk).ne, hk]

/-- Revoking a credential takes none of another Node. -/
lemma hasLiveCredential_revoke {now : ℤ} {credential : NodeCredential}
    (hid : db.nodeCredentials.get id = some credential) (hn : n ≠ credential.nodeId)
    (h : hasLiveCredential db n = true) : hasLiveCredential (revokeCredential now id db) n = true := by
  rcases hasLiveCredential_iff.mp h with ⟨k, row, hk, hrow, hlive⟩
  refine hasLiveCredential_iff.mpr ⟨k, row, ?_, hrow, hlive⟩
  rw [revokeCredential, get_patch_ne, hk]
  rintro rfl
  rw [hid, some.injEq] at hk
  exact hn (hk ▸ hrow.symm)

/-- An endpoint that is available is the Node's own or nobody's. -/
structure Available (n : NodeId) (e : String) (db : Db) : Prop where
  node : ∃ node, db.nodes.get n = some node ∧ (node.endpointId = none ∨ node.endpointId = some e)
  other : ∀ first ∈ (db.nodes.collect fun node => node.endpointId = some e).head?, first.1 = n

lemma assertEndpointAvailable_ok {u : Unit} (h : assertEndpointAvailable n e db = .ok u) :
    Available n e db := by
  simp only [assertEndpointAvailable] at h
  split at h
  · cases h
  rename_i node hnode
  rw [refuseIf_bind_ok, refuseIf_ok] at h
  refine ⟨⟨node, hnode, ?_⟩, fun first hfirst => ?_⟩
  · tauto
  · by_contra hother
    refine h.2 ?_
    rw [mem_def.mp hfirst]
    simpa using hother

/-- What a publish has found: the challenge is the caller's, is fresh and is signed. -/
structure Proves (env : IdentityEnv) (now : ℤ) (credential : String) (c : DocId EndpointChallenge)
    (signature : String) (db : Db) (row : EndpointChallenge) : Prop where
  caller : requireNode env credential db = .ok (row.nodeId, row.credentialId)
  found : db.nodeEndpointChallenges.get c = some row
  fresh : now < row.expiresAt
  signed : env.verify row.address.id row.message signature = true
  available : Available row.nodeId row.address.id db

/-- The endpoint of a challenge is the Node's, and the challenge is used up. -/
def Db.published (db : Db) (now : ℤ) (c : DocId EndpointChallenge) (row : EndpointChallenge) : Db :=
  { db with
    nodes := db.nodes.patch row.nodeId (register now row.address)
    nodeEndpointChallenges := db.nodeEndpointChallenges.delete c }

/-- The ways a call changes what is known of endpoints. -/
inductive IdentityChange (env : IdentityEnv) (call : IdentityCall) (db : Db) : Db → Prop
  | kept {db' : Db} (nodes : ∀ i, db'.nodes.get i = db.nodes.get i ∨
        db.nodes.get i = none ∧ ∃ name, db'.nodes.get i = some ⟨name, none, none, none, none, []⟩)
      (challenges : db'.nodeEndpointChallenges = db.nodeEndpointChallenges)
      (live : ∀ i, db.nodes.get i ≠ none → hasLiveCredential db i = true →
        hasLiveCredential db' i = true) : IdentityChange env call db db'
  | cleared {db₁ : Db} (n : NodeId) (clears : Clears n db call) (nodes : db₁.nodes = db.nodes)
      (challenges : db₁.nodeEndpointChallenges = db.nodeEndpointChallenges)
      (live : ∀ i ≠ n, hasLiveCredential db i = true → hasLiveCredential db₁ i = true) :
      IdentityChange env call db (clearEndpoint n db₁)
  | challenged (row : EndpointChallenge) (asks : Asks env row db call) :
      IdentityChange env call db { db with
        nodeEndpointChallenges := (forgetChallenges 2 row.nodeId db.nodeEndpointChallenges).insert row }
  | published {credential signature : String} {c : DocId EndpointChallenge} (row : EndpointChallenge)
      (proves : Proves env call.now credential c signature db row) :
      IdentityChange env call db (db.published call.now c row)

lemma IdentityChange.refl (env : IdentityEnv) (call : IdentityCall) (db : Db) :
    IdentityChange env call db db := .kept (fun _ => .inl rfl) rfl fun _ _ h => h

lemma enrollNode_change {name tokenHash : String} (h : enrollNode name tokenHash db = .ok db') :
    IdentityChange env call db db' := by
  simp only [enrollNode] at h
  rw [refuseIf_bind_ok] at h
  rcases bind_ok.mp h.2 with ⟨_ | ⟨nodeId, node⟩, -, h⟩
  · cases h
    refine .kept (fun i => ?_) rfl fun i _ hlive => hasLiveCredential_insert hlive
    by_cases hi : i = db.nodes.next
    · refine .inr ⟨hi ▸ get_next, trim name, ?_⟩
      simp only [get_insert, if_pos hi]
    · exact .inl (by simp only [get_insert, if_neg hi])
  · cases h
    exact .kept (fun _ => .inl rfl) rfl fun i _ hlive => hasLiveCredential_insert hlive

lemma revokeNodeCredential_change (hop : call.op = .revoke id)
    (h : revokeNodeCredential call.now id db = .ok db') : IdentityChange env call db db' := by
  simp only [revokeNodeCredential] at h
  rcases hid : db.nodeCredentials.get id with _ | credential
  · simp only [hid] at h
    cases h
  simp only [hid] at h
  split_ifs at h with hdead hlast
  · exact pure_ok.mp h ▸ .refl env call db
  · cases h
    refine .cleared credential.nodeId ⟨hlast.1, ?_⟩ rfl rfl fun i hi => hasLiveCredential_revoke hid hi
    rw [hop]
    exact ⟨credential, hid, rfl, not_not.mp hdead, hlast.2⟩
  · cases h
    refine .kept (fun _ => .inl rfl) rfl fun i hi hlive => ?_
    by_cases hown : i = credential.nodeId
    · rw [not_and, Bool.not_eq_false] at hlast
      exact hown ▸ hlast (hown ▸ hi)
    · exact hasLiveCredential_revoke hid hown hlive

lemma publish_ok {now : ℤ} {signature : String}
    (h : publish env now credential c signature db = .ok db') :
    ∃ row, Proves env now credential c signature db row ∧ db' = db.published now c row := by
  rcases bind_ok.mp h with ⟨⟨nodeId, credentialId⟩, hcaller, h⟩
  cases hfound : db.nodeEndpointChallenges.get c with
  | none =>
    simp only [hfound] at h
    cases h
  | some proof =>
    simp only [hfound, refuseIf_bind_ok, not_or, not_not, not_le, Bool.not_eq_false] at h
    rcases h with ⟨⟨rfl, rfl, hfresh⟩, hsigned, h⟩
    rcases bind_ok.mp h with ⟨_, havailable, h⟩
    exact ⟨proof, ⟨hcaller, hfound, hfresh, hsigned, assertEndpointAvailable_ok havailable⟩,
      (pure_ok.mp h).symm⟩

/-- What a call does to endpoints. -/
lemma identityStep_change (env : IdentityEnv) (db : Db) (call : IdentityCall) :
    IdentityChange env call db (identityStep env db call) := by
  refine commit_rule (.refl env call db) fun db' h => ?_
  simp only [performIdentity] at h
  split at h
  · exact enrollNode_change h
  · exact revokeNodeCredential_change ‹_› h
  · rename_i nodeId hop
    simp only [resetNodeEndpoint] at h
    rw [refuseIf_bind_ok] at h
    rw [← pure_ok.mp h.2]
    exact .cleared nodeId ⟨h.1, by rw [hop]⟩ rfl rfl fun _ _ hlive => hlive
  · rename_i credential nonce address hop
    rcases bind_ok.mp h with ⟨⟨nodeId, credentialId⟩, hcaller, h⟩
    simp only [refuseIf_bind_ok] at h
    rcases bind_ok.mp h.2.2 with ⟨-, -, h⟩
    rw [refuseIf_bind_ok] at h
    rw [← pure_ok.mp h.2]
    exact .challenged ⟨nodeId, credentialId, address, _, _⟩ ⟨credential, nonce, hop, hcaller, rfl, rfl⟩
  · rcases publish_ok h with ⟨row, hproves, rfl⟩
    exact .published row hproves

/-! ## What always holds -/

/-- No two Nodes hold one endpoint, a Node has one challenge at most, and one whose endpoint is proven has
a live credential. -/
structure IdentitySound (db : Db) : Prop where
  endpoints : ∀ i j a b e, db.nodes.get i = some a → db.nodes.get j = some b → a.endpointId = some e →
    b.endpointId = some e → i = j
  single : ∀ c c' row row', db.nodeEndpointChallenges.get c = some row →
    db.nodeEndpointChallenges.get c' = some row' → row.nodeId = row'.nodeId → c = c'
  proven : ∀ i node, db.nodes.get i = some node → node.endpointProvenAt ≠ none →
    hasLiveCredential db i = true

lemma identitySound_empty : IdentitySound emptyDb :=
  ⟨fun _ _ _ _ _ h => by simp [emptyDb] at h, fun _ _ _ _ h => by simp [emptyDb] at h,
    fun _ _ h => by simp [emptyDb] at h⟩

section Sound

variable (h : IdentitySound db)
include h

/-- A bounded read finds the one challenge of a Node, if there is one. -/
lemma IdentitySound.forgetChallenges_cases (n : NodeId) (limit : ℕ) :
    forgetChallenges (limit + 1) n db.nodeEndpointChallenges = db.nodeEndpointChallenges ∧
        (∀ c row, db.nodeEndpointChallenges.get c = some row → row.nodeId ≠ n) ∨
      ∃ c row, db.nodeEndpointChallenges.get c = some row ∧ row.nodeId = n ∧
        forgetChallenges (limit + 1) n db.nodeEndpointChallenges
          = db.nodeEndpointChallenges.delete c := by
  by_cases hex : ∃ c row, db.nodeEndpointChallenges.get c = some row ∧ row.nodeId = n
  · rcases hex with ⟨c, row, hc, hn⟩
    have hone := collect_eq_singleton (p := fun row => row.nodeId = n) hc (by simpa using hn)
      fun k b hk hb => h.single k c b row hk hc ((of_decide_eq_true hb).trans hn.symm)
    refine .inr ⟨c, row, hc, hn, ?_⟩
    rw [forgetChallenges, hone, take_succ_cons, take_nil]
    rfl
  · simp only [not_exists, not_and] at hex
    have hnone := collect_eq_nil (p := fun row => row.nodeId = n)
      fun c row hc => decide_eq_false (hex c row hc)
    refine .inl ⟨?_, hex⟩
    rw [forgetChallenges, hnone]
    rfl

/-- All the challenges of the Node are forgotten, and no other. -/
lemma IdentitySound.get_forgetChallenges {limit : ℕ} :
    (forgetChallenges (limit + 1) n db.nodeEndpointChallenges).get c = some row ↔
      db.nodeEndpointChallenges.get c = some row ∧ row.nodeId ≠ n := by
  rcases h.forgetChallenges_cases n limit with ⟨heq, hnone⟩ | ⟨c', row', hc', hn, heq⟩
  · rw [heq]
    exact ⟨fun hget => ⟨hget, hnone c row hget⟩, fun hget => hget.1⟩
  rw [heq, get_delete_eq_some]
  constructor
  · rintro ⟨hne, hget⟩
    exact ⟨hget, fun hown => hne (h.single c c' row row' hget hc' (hown.trans hn.symm))⟩
  rintro ⟨hget, hother⟩
  refine ⟨?_, hget⟩
  rintro rfl
  rw [hc'] at hget
  cases hget
  exact hother hn

/-- Only the Node itself may hold an endpoint that is available to it. -/
lemma IdentitySound.eq_of_available (havailable : Available n e db) {j : NodeId}
    {b : Node} (hj : db.nodes.get j = some b) (hb : b.endpointId = some e) : j = n := by
  have hmem : (j, b) ∈ db.nodes.collect fun other => other.endpointId = some e :=
    mem_collect.mpr ⟨hj, by simpa using hb⟩
  cases hrows : db.nodes.collect fun other => other.endpointId = some e with
  | nil =>
    rw [hrows] at hmem
    cases hmem
  | cons first rest =>
    have hfirst : first ∈ db.nodes.collect fun other => other.endpointId = some e := by simp [hrows]
    have hholds := mem_collect.mp hfirst
    rw [← havailable.other first (by simp [hrows])]
    exact h.endpoints j first.1 b first.2 e hj hholds.1 hb (by simpa using hholds.2)

/-- A change that adds no endpoint keeps what is known of Nodes. -/
lemma IdentitySound.of_held
    (hheld : ∀ i a, db'.nodes.get i = some a → a.endpointId ≠ none ∨ a.endpointProvenAt ≠ none →
      db.nodes.get i = some a ∧ (hasLiveCredential db i = true → hasLiveCredential db' i = true))
    (hsingle : ∀ c c' row row', db'.nodeEndpointChallenges.get c = some row →
      db'.nodeEndpointChallenges.get c' = some row' → row.nodeId = row'.nodeId → c = c') :
    IdentitySound db' := by
  refine ⟨fun i j a b e hi hj ha hb => ?_, hsingle, fun i node hi hproven => ?_⟩
  · exact h.endpoints i j a b e (hheld i a hi (by simp [ha])).1 (hheld j b hj (by simp [hb])).1 ha hb
  · rcases hheld i node hi (.inr hproven) with ⟨hnode, hlive⟩
    exact hlive (h.proven i node hnode hproven)

/-- A call keeps what holds of every state. -/
lemma IdentitySound.change (hchange : IdentityChange env call db db') : IdentitySound db' := by
  cases hchange with
  | kept nodes challenges live =>
    refine h.of_held (fun i a ha hset => ?_) (challenges ▸ h.single)
    rcases nodes i with hsame | ⟨-, name, hnew⟩
    · rw [hsame] at ha
      exact ⟨ha, live i (by simp [ha])⟩
    · rw [hnew, some.injEq] at ha
      simp [← ha] at hset
  | @cleared db₁ n clears nodes challenges live =>
    refine h.of_held (fun i a ha hset => ?_) fun c c' row row' hc hc' hnode => ?_
    · simp only [clearEndpoint, nodes] at ha
      rcases get_patch_eq_some.mp ha with ⟨b, rfl, -, rfl⟩ | ⟨hi, ha⟩
      · simp at hset
      · exact ⟨ha, live i hi⟩
    · simp only [clearEndpoint, challenges] at hc hc'
      rw [h.get_forgetChallenges] at hc hc'
      exact h.single c c' row row' hc.1 hc'.1 hnode
  | challenged row asks =>
    refine h.of_held (fun i a ha _ => ⟨ha, fun hlive => hlive⟩) fun c c' row₁ row₂ hc hc' hnode => ?_
    rw [get_insert_eq_some, h.get_forgetChallenges] at hc hc'
    rcases hc with ⟨rfl, rfl⟩ | ⟨hc, hne⟩ <;> rcases hc' with ⟨rfl, rfl⟩ | ⟨hc', hne'⟩
    · rfl
    · exact absurd hnode.symm hne'
    · exact absurd hnode hne
    · exact h.single c c' row₁ row₂ hc hc' hnode
  | @published credential signature c row proves =>
    have hlive : hasLiveCredential db row.nodeId = true := by
      rcases requireNode_ok proves.caller with ⟨k, hk, hrow⟩
      exact hasLiveCredential_iff.mpr ⟨_, k, hk, hrow⟩
    refine ⟨fun i j a b e hi hj ha hb => ?_, fun c₁ c₂ row₁ row₂ h₁ h₂ => ?_, fun i node hi hproven => ?_⟩
    · rcases get_patch_eq_some.mp hi with ⟨a', rfl, -, rfl⟩ | ⟨-, hi⟩ <;>
        rcases get_patch_eq_some.mp hj with ⟨b', hj', -, rfl⟩ | ⟨-, hj⟩
      · exact hj'.symm
      · cases ha
        exact (h.eq_of_available proves.available hj hb).symm
      · cases hb
        exact (h.eq_of_available proves.available hi ha).trans hj'.symm
      · exact h.endpoints i j a b e hi hj ha hb
    · exact h.single c₁ c₂ row₁ row₂ (get_delete_eq_some.mp h₁).2 (get_delete_eq_some.mp h₂).2
    · rcases get_patch_eq_some.mp hi with ⟨node', rfl, -, -⟩ | ⟨-, hi⟩
      · exact hlive
      · exact h.proven i node hi hproven

end Sound

/-! ## Endpoints and challenges over a run -/

/-- An endpoint stays until it is cleared. -/
lemma IdentityChange.endpoint (hchange : IdentityChange env call db db') (hn : ¬ Clears n db call)
    (h : ∃ node, db.nodes.get n = some node ∧ node.endpointId = some e) :
    ∃ node, db'.nodes.get n = some node ∧ node.endpointId = some e := by
  rcases h with ⟨node, hnode, he⟩
  cases hchange with
  | kept nodes challenges live =>
    rcases nodes n with hsame | ⟨hnone, -⟩
    · exact ⟨node, hsame.trans hnode, he⟩
    · rw [hnode] at hnone
      cases hnone
  | cleared m clears nodes challenges live =>
    have hm : n ≠ m := fun heq => hn (heq ▸ clears)
    simp only [clearEndpoint, nodes]
    exact ⟨node, (get_patch_ne (t := db.nodes) hm).trans hnode, he⟩
  | challenged row asks => exact ⟨node, hnode, he⟩
  | published row proves =>
    by_cases hown : n = row.nodeId
    · rcases proves.available.node with ⟨node', hnode', hfree⟩
      rw [← hown, hnode, some.injEq] at hnode'
      rw [← hnode', he] at hfree
      refine ⟨register call.now row.address node, ?_, ?_⟩
      · simp [Db.published, ← hown, hnode]
      · simpa [register, eq_comm] using hfree
    · exact ⟨node, (get_patch_ne (t := db.nodes) hown).trans hnode, he⟩

/-- A call that clears a Node's endpoint is seen to do so. -/
lemma Clears.step_eq (h : Clears n db call) (env : IdentityEnv) :
    ∃ db₁ : Db, identityStep env db call = clearEndpoint n db₁ ∧
      db₁.nodeEndpointChallenges = db.nodeEndpointChallenges := by
  rcases call with ⟨now, op⟩
  rcases h with ⟨hn, h⟩
  cases op with
  | reset nodeId =>
    rw [← show nodeId = n from h] at hn ⊢
    refine ⟨db, ?_, rfl⟩
    simp only [identityStep, performIdentity, resetNodeEndpoint, refuseIf, if_neg hn]
    rfl
  | revoke id =>
    rcases h with ⟨row, hrow, rfl, hlive, hlast⟩
    refine ⟨revokeCredential now id db, ?_, rfl⟩
    simp only [identityStep, performIdentity, revokeNodeCredential, hrow]
    rw [if_neg (not_not.mpr hlive), if_pos ⟨hn, hlast⟩]
    rfl
  | _ => cases h

/-- A challenge was issued by the call, or was there and has been neither forgotten nor used. -/
lemma IdentitySound.challenge_cases (h : IdentitySound db)
    (hget : (identityStep env db call).nodeEndpointChallenges.get c = some row) :
    Issues env c row db call ∨ db.nodeEndpointChallenges.get c = some row ∧
      ¬ Clears row.nodeId db call ∧ ¬ Uses env c db call := by
  have hclears : ¬ Clears row.nodeId db call := by
    intro hclears
    rcases hclears.step_eq env with ⟨db₁, heq, hsame⟩
    simp only [heq, clearEndpoint, hsame] at hget
    exact (h.get_forgetChallenges.mp hget).2 rfl
  have huses : ¬ Uses env c db call := by
    rintro ⟨credential, signature, db', hop, hok⟩
    have hstep : identityStep env db call = db' := by simp only [identityStep, hok, commit]
    simp only [performIdentity, hop] at hok
    rcases publish_ok hok with ⟨_, -, hdb'⟩
    simp [hstep, hdb', Db.published] at hget
  have hget' := hget
  have hchange := identityStep_change env db call
  generalize identityStep env db call = db' at hget' hchange
  cases hchange with
  | kept nodes challenges live => exact .inr ⟨challenges ▸ hget', hclears, huses⟩
  | cleared n clears nodes challenges live =>
    simp only [clearEndpoint, challenges] at hget'
    exact .inr ⟨(h.get_forgetChallenges.mp hget').1, hclears, huses⟩
  | challenged row asks =>
    rcases get_insert_eq_some.mp hget' with ⟨rfl, rfl⟩ | hold
    · refine .inl ⟨asks, ?_, hget⟩
      rcases h.forgetChallenges_cases row.nodeId 1 with ⟨heq, -⟩ | ⟨c', row', -, -, heq⟩
      · rw [heq]
        exact get_next
      · rw [heq]
        exact get_next
    · exact .inr ⟨(h.get_forgetChallenges.mp hold).1, hclears, huses⟩
  | published row proves => exact .inr ⟨(get_delete_eq_some.mp hget').2, hclears, huses⟩

/-- What the calls of a run leave. -/
def identities (env : IdentityEnv) (calls : List IdentityCall) : Db := run (identityStep env) emptyDb calls

/-- The challenge was issued, and since then the Node's endpoint was not cleared and the challenge not
used. -/
def Open (env : IdentityEnv) (c : DocId EndpointChallenge) (row : EndpointChallenge)
    (calls : List IdentityCall) : Prop :=
  Since (identityStep env) emptyDb (Issues env c row)
    (fun db call => ¬ Clears row.nodeId db call ∧ ¬ Uses env c db call) calls

lemma identities_sound (env : IdentityEnv) (calls : List IdentityCall) :
    IdentitySound (identities env calls) ∧ ∀ c row,
      (identities env calls).nodeEndpointChallenges.get c = some row → Open env c row calls := by
  refine run_invariant (fun calls db => IdentitySound db ∧ ∀ c row,
    db.nodeEndpointChallenges.get c = some row → Open env c row calls) ?_ ?_ calls
  · exact ⟨identitySound_empty, fun c row h => by simp [emptyDb] at h⟩
  · rintro calls call ⟨hsound, hopen⟩
    refine ⟨hsound.change (identityStep_change env _ call), fun c row hget => ?_⟩
    rw [Open, since_snoc]
    exact (hsound.challenge_cases hget).imp_right fun hold => ⟨hopen c row hold.1, hold.2⟩

/-- **Mesh identities are proven and are not taken over.**  After any calls, no two Nodes hold one
endpoint and a Node whose endpoint is proven has a live credential; a Node's endpoint stays the same until
it is cleared; and a publish that succeeds answers a challenge that was issued to the same Node and the same
credential, still live, since the endpoint was last cleared, has not been used, has not expired and is
signed with the key that it registers. -/
theorem mesh_identity_proven (env : IdentityEnv) (calls : List IdentityCall) :
    (∀ i j a b e, (identities env calls).nodes.get i = some a → (identities env calls).nodes.get j = some b →
        a.endpointId = some e → b.endpointId = some e → i = j)
      ∧ (∀ i node, (identities env calls).nodes.get i = some node → node.endpointProvenAt ≠ none →
        hasLiveCredential (identities env calls) i = true)
      ∧ (∀ n more a b e e',
        Meets (identityStep env) (identities env calls) (fun db call => ¬ Clears n db call) more →
        (identities env calls).nodes.get n = some a → a.endpointId = some e →
        (identities env (calls ++ more)).nodes.get n = some b → b.endpointId = some e' → e = e')
      ∧ ∀ now credential c signature db',
        publish env now credential c signature (identities env calls) = .ok db' →
        ∃ row live, requireNode env credential (identities env calls) = .ok (row.nodeId, row.credentialId)
          ∧ (identities env calls).nodeCredentials.get row.credentialId = some live
          ∧ live.nodeId = row.nodeId ∧ live.revokedAt = none ∧ Open env c row calls
          ∧ now < row.expiresAt ∧ env.verify row.address.id row.message signature = true
          ∧ ∃ node, db'.nodes.get row.nodeId = some node ∧ node.endpointId = some row.address.id := by
  rcases identities_sound env calls with ⟨hsound, hopen⟩
  refine ⟨hsound.endpoints, hsound.proven, fun n more a b e e' hmore ha he hb he' => ?_, ?_⟩
  · have hkept := run_invariant_of_meets
      (fun _ db => ∃ node, db.nodes.get n = some node ∧ node.endpointId = some e) ⟨a, ha, he⟩
      (fun _ call hheld hclears => (identityStep_change env _ call).endpoint hclears hheld) more hmore
    rw [identities, ← run_append] at hkept
    rcases hkept with ⟨node, hnode, hid⟩
    cases hb.symm.trans hnode
    exact some.inj (hid.symm.trans he')
  · intro now credential c signature db' h
    rcases publish_ok h with ⟨row, hproves, rfl⟩
    rcases requireNode_ok hproves.caller with ⟨live, hlive, hnode, hrevoked⟩
    rcases hproves.available.node with ⟨node, hget, -⟩
    refine ⟨row, live, hproves.caller, hlive, hnode, hrevoked, hopen c row hproves.found, hproves.fresh,
      hproves.signed, register now row.address node, ?_, rfl⟩
    rw [Db.published, get_patch_self, hget]
    rfl

end EraInfra.Fleet
