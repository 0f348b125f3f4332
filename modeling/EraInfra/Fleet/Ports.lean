import EraInfra.Core.Transaction
import EraInfra.Fleet.Schema

/-!
# Host ports

`infra/ports.ts`: one row for a Node and a key, and one for a Node and a port.  An allocation is only
ever inserted or deleted.

A recorded port is a port number by its type.  `allocatePort_allocates` says what a call of the allocator
does.
-/

namespace EraInfra.Fleet

open DocStore

variable (ports : Table PortAllocation) (nodeId : NodeId) (key : String)

def portRangeStart : ℤ := 62000
def portRangeEnd : ℤ := 63999

/-- The lowest free port, given the ports in use in ascending order. -/
def firstFreePort (usedAscending : List ℤ) : Option ℤ :=
  let candidate := scan portRangeStart usedAscending
  if candidate ≤ portRangeEnd then some candidate else none
where
  /-- The loop over the ports in use. -/
  scan (candidate : ℤ) : List ℤ → ℤ
    | [] => candidate
    | port :: rest =>
      if port < candidate then scan candidate rest
      else if candidate < port then candidate
      else scan (candidate + 1) rest

/-- The App a port key names, `<app>/<purpose>`. -/
def appOfPortKey : Option String :=
  let app := key.toList.takeWhile (· ≠ '/')
  if '/' ∈ key.toList ∧ app ≠ [] then some (String.ofList app) else none

/-- The allocation of a Node under a key. -/
def byNodeKey : Except String (Option (DocId PortAllocation × PortAllocation)) :=
  ports.unique notUnique fun row => row.nodeId = nodeId ∧ row.key = key

/-- The allocation that holds a port of a Node. -/
def portHolder (port : ℤ) : Option PortAllocation :=
  (rowsOf ports).find? fun row => row.nodeId = nodeId && row.port.val = port

/-- Why a port cannot be recorded on a Node. -/
def portRefusal (nodeId : Option NodeId) (port : ℤ) (nodeName : String) :
    Option String :=
  if port < 1 ∨ 65535 < port then some ("Not a port: " ++ toString port)
  else
    match nodeId with
    | none => none
    | some nodeId => (portHolder ports nodeId port).map fun holder =>
      "Port " ++ toString port ++ " on " ++ nodeName ++ " is already held by " ++ holder.key

/-- Insert an allocation, unless its port is out of range or taken on the Node. -/
def insertAllocation (port allocatedAt : ℤ) (provenance : Provenance)
    (ports : Table PortAllocation) : Except String (Table PortAllocation) := do
  if hvalid : 1 ≤ port ∧ port ≤ 65535 then
    refuseSome (portRefusal ports (some nodeId) port "this Node") id
    pure (ports.insert ⟨nodeId, key, ⟨port, hvalid⟩, appOfPortKey key, allocatedAt, some provenance⟩)
  else throw ("Not a port: " ++ toString port)

/-- The ports of a Node in the allocator's range, ascending. -/
def usedPorts : List ℤ := (((rowsOf ports).filter fun row =>
    row.nodeId = nodeId && portRangeStart ≤ row.port.val && row.port.val ≤ portRangeEnd).map fun row =>
      row.port.val).mergeSort

/-- Stable for a Node and a key: a repeated call answers the port the first one got. -/
def allocatePort (now : ℤ) (nodeId : NodeId) (key : String) (ports : Table PortAllocation) :
    Except String (HostPort × Table PortAllocation) := do
  refuseIf (key = "") "A port key must not be empty"
  match ← byNodeKey ports nodeId key with
  | some (_, existing) => pure (existing.port, ports)
  | none =>
    match firstFreePort (usedPorts ports nodeId) with
    | none => throw ("No free ports on this Node (" ++ toString portRangeStart ++ "-" ++
        toString portRangeEnd ++ " all allocated)")
    | some port =>
      if hvalid : 1 ≤ port ∧ port ≤ 65535 then do
        let ports ← insertAllocation nodeId key port now (convexWrite now) ports
        pure (⟨port, hvalid⟩, ports)
      else throw ("Not a port: " ++ toString port)

/-- Why `claimPort` would refuse.  A Node that does not exist yet holds no ports. -/
def claimPortRefusal (nodeId : Option NodeId) (key : String) (port : ℤ)
    (nodeName : String) : Except String (Option String) := do
  match nodeId with
  | none => pure (portRefusal ports none port nodeName)
  | some id =>
    match ← byNodeKey ports id key with
    | some (_, existing) =>
      if existing.port.val = port then pure none
      else pure (some ("Port key " ++ key ++ " already holds " ++ toString existing.port.val ++ ", not " ++
        toString port))
    | none => pure (portRefusal ports nodeId port nodeName)

/-- Record a specific port, as the importer does to keep the Hub's numbers. -/
def claimPort (port allocatedAt : ℤ) (hub : HubOrigin)
    (ports : Table PortAllocation) : Except String (Table PortAllocation) := do
  let refusal ← claimPortRefusal ports (some nodeId) key port "this Node"
  refuseSome refusal id
  match ← byNodeKey ports nodeId key with
  | some _ => pure ports
  | none => insertAllocation nodeId key port allocatedAt (provenanceFor allocatedAt (some hub)) ports

/-- Free every port an App holds, on every Node. -/
def releaseAppPorts (app : String) (ports : Table PortAllocation) : Table PortAllocation :=
  (ports.collect fun row => row.app = some app).foldl (fun ports row => ports.delete row.1) ports

end EraInfra.Fleet
