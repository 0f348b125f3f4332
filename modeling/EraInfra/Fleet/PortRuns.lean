import EraInfra.Core.Run
import EraInfra.Fleet.Ports

/-!
# Runs of the port allocator

Any calls of `allocatePort`, `claimPort` and `releaseAppPorts`, one after the other.  Two rows of a
Node never agree in their key or in their port (`Apart`), and the answers of the allocator are read
off a table of which that holds (`allocatePort_answers`).

The empty key stands out: `claimPort` records it and `allocatePort` refuses it.
-/

namespace EraInfra.Fleet

open DocStore Table List

variable {ports ports' : Table PortAllocation} {nodeId : NodeId} {key : String} {port time : ℤ}
  {provenance : Provenance}

/-! ## The lowest free port -/

/-- The scan of an ascending list ends at the lowest number that is not listed. -/
lemma scan_spec {used : List ℤ} (hsorted : used.Pairwise (· ≤ ·)) (candidate : ℤ) :
    candidate ≤ firstFreePort.scan candidate used ∧ firstFreePort.scan candidate used ∉ used ∧
    ∀ p, candidate ≤ p → p ∉ used → firstFreePort.scan candidate used ≤ p := by
  induction used generalizing candidate with
  | nil => simp [firstFreePort.scan]
  | cons port rest ih =>
    rw [pairwise_cons] at hsorted
    grind [firstFreePort.scan]

/-- No row of the Node has this port. -/
def IsFree (ports : Table PortAllocation) (nodeId : NodeId) (port : ℤ) : Prop :=
  ∀ row ∈ rowsOf ports, row.nodeId = nodeId → row.port.val ≠ port

/-- The free ports of the allocator's range. -/
def freePorts (ports : Table PortAllocation) (nodeId : NodeId) : Set ℤ :=
  {p | p ∈ Set.Icc portRangeStart portRangeEnd ∧ IsFree ports nodeId p}

lemma mem_usedPorts {p : ℤ} : p ∈ usedPorts ports nodeId ↔
    p ∈ Set.Icc portRangeStart portRangeEnd ∧ ¬IsFree ports nodeId p := by
  simp only [IsFree, usedPorts, mem_mergeSort]
  grind

/-- The scan finds the lowest free port of the range, or there is none. -/
lemma firstFreePort_usedPorts (ports : Table PortAllocation) (nodeId : NodeId) :
    match firstFreePort (usedPorts ports nodeId) with
    | some p => IsLeast (freePorts ports nodeId) p
    | none => freePorts ports nodeId = ∅ := by
  have hsorted : (usedPorts ports nodeId).Pairwise (· ≤ ·) := pairwise_mergeSort' (· ≤ ·) _
  rcases scan_spec hsorted portRangeStart with ⟨hstart, hunused, hleast⟩
  have hbound : ∀ p ∈ freePorts ports nodeId, firstFreePort.scan portRangeStart _ ≤ p :=
    fun p hp => hleast p hp.1.1 fun hused => (mem_usedPorts.mp hused).2 hp.2
  simp only [firstFreePort]
  split_ifs with hin
  · refine ⟨⟨⟨hstart, hin⟩, ?_⟩, hbound⟩
    by_contra hheld
    exact hunused (mem_usedPorts.mpr ⟨⟨hstart, hin⟩, hheld⟩)
  · exact Set.eq_empty_of_forall_notMem fun p hp => hin ((hbound p hp).trans hp.1.2)

/-! ## Rows apart -/

/-- No two rows of a Node have the same key or the same port. -/
def Apart (ports : Table PortAllocation) : Prop :=
  ∀ i j a b, ports.get i = some a → ports.get j = some b → a.nodeId = b.nodeId →
    a.key = b.key ∨ a.port = b.port → i = j

/-- The Node's row of a key has this port. -/
def HoldsKey (ports : Table PortAllocation) (nodeId : NodeId) (key : String) (port : HostPort) :
    Prop :=
  ∃ row ∈ rowsOf ports, row.nodeId = nodeId ∧ row.key = key ∧ row.port = port

lemma insertAllocation_ok : insertAllocation nodeId key port time provenance ports = .ok ports' ↔
    ∃ hvalid, IsFree ports nodeId port ∧ ports.insert
      ⟨nodeId, key, ⟨port, hvalid⟩, appOfPortKey key, time, some provenance⟩ = ports' := by
  unfold insertAllocation
  split_ifs with hvalid
  · have hrange : ¬(port < 1 ∨ 65535 < port) := by omega
    rw [refuseSome_bind_ok, pure_ok]
    simp [portRefusal, hrange, portHolder, IsFree, hvalid]
  · simp [hvalid]

lemma Apart.insert (h : Apart ports) (hkey : byNodeKey ports nodeId key = .ok none)
    (hinsert : insertAllocation nodeId key port time provenance ports = .ok ports') :
    Apart ports' := by
  rcases insertAllocation_ok.mp hinsert with ⟨hvalid, hfree, rfl⟩
  have hnew : ∀ i a, ports.get i = some a → a.nodeId = nodeId → a.key ≠ key ∧ a.port.val ≠ port := by
    intro i a hget hnode
    refine ⟨fun hsame => ?_, hfree a (mem_rowsOf.mpr ⟨i, hget⟩) hnode⟩
    simpa [hnode, hsame] using not_of_unique_none hkey hget
  intro i j a b ha hb hnode hsame
  rcases get_insert_eq_some.mp ha with ⟨rfl, rfl⟩ | ha <;>
    rcases get_insert_eq_some.mp hb with ⟨rfl, rfl⟩ | hb
  · rfl
  · grind
  · grind
  · exact h i j a b ha hb hnode hsame

lemma Apart.delete (h : Apart ports) (id : DocId PortAllocation) : Apart (ports.delete id) := by
  intro i j a b ha hb
  exact h i j a b (get_delete_eq_some.mp ha).2 (get_delete_eq_some.mp hb).2

/-! ## Runs -/

/-- The calls that write port allocations. -/
inductive PortCall
  | allocate (now : ℤ) (nodeId : NodeId) (key : String)
  | claim (nodeId : NodeId) (key : String) (port allocatedAt : ℤ) (hub : HubOrigin)
  | release (app : String)

/-- What a call leaves of the table. -/
def PortCall.perform (ports : Table PortAllocation) : PortCall → Except String (Table PortAllocation)
  | allocate now nodeId key => (allocatePort now nodeId key ports).map Prod.snd
  | claim nodeId key port allocatedAt hub => claimPort nodeId key port allocatedAt hub ports
  | release app => pure (releaseAppPorts app ports)

/-- The table after some calls, of which the refused ones change nothing. -/
def portsAfter (calls : List PortCall) : Table PortAllocation :=
  run (fun ports call => commit ports (call.perform ports)) .empty calls

lemma Apart.allocate {now : ℤ} {answer : HostPort} (h : Apart ports)
    (hok : allocatePort now nodeId key ports = .ok (answer, ports')) : Apart ports' := by
  rcases refuseIf_bind_ok.mp hok with ⟨-, hok⟩
  rcases bind_ok.mp hok with ⟨_ | ⟨id, existing⟩, hkey, hok⟩
  · dsimp only at hok
    split at hok
    · cases hok
    split_ifs at hok
    rcases bind_ok.mp hok with ⟨_, hinsert, hok⟩
    cases hok
    exact h.insert hkey hinsert
  · cases hok
    exact h

lemma Apart.claim {hub : HubOrigin} (h : Apart ports)
    (hok : claimPort nodeId key port time hub ports = .ok ports') : Apart ports' := by
  rcases bind_ok.mp hok with ⟨refusal, -, hok⟩
  rcases refuseSome_bind_ok.mp hok with ⟨-, hok⟩
  rcases bind_ok.mp hok with ⟨_ | existing, hkey, hok⟩
  · exact h.insert hkey hok
  · cases hok
    exact h

lemma apart_portsAfter (calls : List PortCall) : Apart (portsAfter calls) := by
  refine run_invariant (fun _ => Apart) (by simp [Apart]) ?_ calls
  intro calls call h
  refine commit_rule h fun ports' hok => ?_
  cases call with
  | allocate now nodeId key =>
    rcases map_ok.mp hok with ⟨answer, hanswer, rfl⟩
    exact h.allocate hanswer
  | claim nodeId key port allocatedAt hub => exact h.claim hok
  | release app =>
    cases hok
    exact foldlRecOn _ _ h fun ports h row _ => h.delete row.1

/-- What the allocator owes a Node and a key. -/
def Allocates (ports : Table PortAllocation) (nodeId : NodeId) (key : String) :
    Except String (HostPort × Table PortAllocation) → Prop
  | .ok (port, ports') => key ≠ "" ∧ (HoldsKey ports nodeId key port ∧ ports' = ports ∨
      (∀ held, ¬HoldsKey ports nodeId key held) ∧ IsLeast (freePorts ports nodeId) port.val ∧
        HoldsKey ports' nodeId key port)
  | .error _ => key = "" ∨ (∀ held, ¬HoldsKey ports nodeId key held) ∧ freePorts ports nodeId = ∅

lemma allocatePort_allocates (now : ℤ) (h : Apart ports) :
    Allocates ports nodeId key (allocatePort now nodeId key ports) := by
  unfold allocatePort
  by_cases hkey : key = ""
  · simp only [hkey]
    exact .inl rfl
  rw [refuseIf_ok.mpr hkey]
  have hunique : ∃ found, byNodeKey ports nodeId key = .ok found := by
    refine unique_isOk fun i j a b ha hb hp hq => ?_
    simp only [decide_eq_true_eq] at hp hq
    exact h i j a b ha hb (hp.1.trans hq.1.symm) (.inl (hp.2.trans hq.2.symm))
  rcases hunique with ⟨_ | ⟨id, existing⟩, hfound⟩
  · have hnone : ∀ held, ¬HoldsKey ports nodeId key held := by
      rintro _ ⟨row, hrow, hnode, hsame, rfl⟩
      rcases mem_rowsOf.mp hrow with ⟨i, hget⟩
      simpa [hnode, hsame] using not_of_unique_none hfound hget
    have hfirst := firstFreePort_usedPorts ports nodeId
    simp only [hfound]
    rcases hscan : firstFreePort (usedPorts ports nodeId) with _ | p
    · rw [hscan] at hfirst
      exact .inr ⟨hnone, hfirst⟩
    rw [hscan] at hfirst
    have hvalid : 1 ≤ p ∧ p ≤ 65535 := by
      have hrange := hfirst.1.1
      simp only [portRangeStart, portRangeEnd, Set.mem_Icc] at hrange
      omega
    simp only [hvalid]
    rw [insertAllocation_ok.mpr ⟨hvalid, hfirst.1.2, rfl⟩]
    refine ⟨hkey, .inr ⟨hnone, hfirst,
      ⟨nodeId, key, ⟨p, hvalid⟩, appOfPortKey key, now, some (convexWrite now)⟩, ?_, rfl, rfl, rfl⟩⟩
    exact mem_rowsOf.mpr ⟨ports.next, get_insert_eq_some.mpr (.inl ⟨rfl, rfl⟩)⟩
  · rcases unique_some hfound with ⟨hget, hrow, -⟩
    simp only [decide_eq_true_eq] at hrow
    simp only [hfound]
    exact ⟨hkey, .inl ⟨⟨existing, mem_rowsOf.mpr ⟨id, hget⟩, hrow.1, hrow.2, rfl⟩, rfl⟩⟩

/-- **Port allocation is stable and complete.**  After any calls the rows are apart, and `allocatePort`
answers the port that its key holds; to a key that holds none, the lowest port of the range that
no key of the Node holds, which it holds from then on; and fails only when there is none, or when the
key is empty. -/
theorem port_allocation_stable_and_complete (calls : List PortCall) (now : ℤ) (nodeId : NodeId)
    (key : String) :
    Apart (portsAfter calls) ∧ Allocates (portsAfter calls) nodeId key
      (allocatePort now nodeId key (portsAfter calls)) :=
  ⟨apart_portsAfter calls, allocatePort_allocates now (apart_portsAfter calls)⟩

/-- A key that the importer recorded without a text has a port, and is refused. -/
theorem allocatePort_refuses_recorded_key :
    HoldsKey (portsAfter [.claim 0 "" 62000 0 ⟨none⟩]) 0 "" ⟨62000, by decide⟩ ∧
    (62001 ∈ freePorts (portsAfter [.claim 0 "" 62000 0 ⟨none⟩]) 0) ∧
    ∃ e, allocatePort 0 0 "" (portsAfter [.claim 0 "" 62000 0 ⟨none⟩]) = .error e := by
  refine ⟨?_, ?_, _, rfl⟩
  · exact ⟨_, mem_rowsOf.mpr ⟨0, rfl⟩, rfl, rfl, rfl⟩
  · refine ⟨by decide, ?_⟩
    unfold IsFree
    decide

end EraInfra.Fleet
