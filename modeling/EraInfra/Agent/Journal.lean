import EraInfra.Core.Encoding
import EraInfra.Core.LineLog
import EraInfra.Core.Sorting
import EraInfra.Core.Transaction
import Mathlib.Data.List.AList
import Mathlib.Data.String.Basic

/-!
# The execution journal

The file in which the Infra Agent notes what it has started and what came of it
(`convexnode/journal.go`).  One record a line, appended before and after every effect on the Node;
rewritten with the live records only when enough of it is superseded.

The file system takes part in every operation: a write may fail after some of its bytes, and a
rewrite before or after the new file is in place (`WriteIo`, `RewriteIo`).  What JSON makes of a record
is a `Codec`.

**Left out** — the locks on the file, its permissions, the texts that are logged, `ListJournal` and
`ReleaseJournalKeys`, which an operator calls.
-/

namespace EraInfra.Infra.Agent

open DocStore Encoding List

/-! ## Records -/

/-- What a record says of a key.  `accepted` is a command that has been started, and nothing more is
known of. -/
inductive Outcome
  | accepted
  | success
  | failure
  | unknown
  | settled
deriving DecidableEq, Repr

structure Record where
  key : String
  id : String
  outcome : Outcome

def newline : UInt8 := 10

/-- `encoding/json` on records. -/
structure Codec where
  marshal : Record → Bytes
  unmarshal : Bytes → Option Record
  /-- The key and the command id that `recordStart` reads from a damaged line. -/
  recordStart : Bytes → Option (String × String)
  newline_notMem_marshal : ∀ r, newline ∉ marshal r
  unmarshal_marshal : ∀ r, unmarshal (marshal r ++ [newline]) = some r
  /-- `unknown` is a shorter word than `accepted`. -/
  length_unknown : ∀ key id,
    (marshal ⟨key, id, .unknown⟩).length ≤ (marshal ⟨key, id, .accepted⟩).length

variable (codec : Codec)

/-- A record as it stands in the file. -/
def Codec.line (r : Record) : Bytes := codec.marshal r ++ [newline]

def maxJournalBytes : ℕ := 16 * 1024 * 1024
def maxRecordBytes : ℕ := 1024
def maxJournalKeys : ℕ := 10000
def maxJournalGarbage : ℕ := 1024

def bindingKey : String := "binding"

/-- What the journal holds of a key. -/
structure Entry where
  id : String
  outcome : Outcome

abbrev Records := AList fun _ : String => Entry

variable (records : Records)

inductive JournalError
  | sizeLimit
  | collision
  | damaged (line : ℕ)
  | lastDamaged (line : ℕ)
  | full (keys unknown : ℕ)
  | broken
  | closed
  | noSuchKey
  | differentId
  | file

/-! ## Reading the file -/

/-- A line that is a record, with a key and an id. -/
def parseRecord (line : Bytes) : Option Record :=
  if maxRecordBytes < line.length then none
  else (codec.unmarshal line).filter fun r => r.key ≠ "" ∧ r.id ≠ ""

/-- A command that was accepted by a process that is gone may or may not have run. -/
def Outcome.afterRestart : Outcome → Outcome
  | .accepted => .unknown
  | outcome => outcome

/-- What a record does to those before it. -/
def apply (r : Record) : Except JournalError Records := do
  refuseIf (∃ old ∈ records.lookup r.key, old.id ≠ r.id) JournalError.collision
  pure (if r.outcome = .settled then records.erase r.key
    else records.insert r.key ⟨r.id, r.outcome.afterRestart⟩)

structure Scan where
  records : Records
  lines : ℕ
  /-- Whether the last record was torn or damaged. -/
  recovered : Bool

/-- A damaged last line that has its end: its command may have started. -/
def recoverLast (line : Bytes) (scan : Scan) : Except JournalError Scan :=
  match codec.recordStart line with
  | none => throw (.lastDamaged (scan.lines + 1))
  | some (key, id) =>
    match scan.records.lookup key with
    | some old => do
        refuseIf (old.id ≠ id) JournalError.collision
        pure { scan with recovered := true }
    | none =>
      if key = bindingKey then pure { scan with recovered := true }
      else pure { scan with records := scan.records.insert key ⟨id, .unknown⟩, recovered := true }

/-- The lines of the file, and what stands after the last end of a line. -/
def scanLines (codec : Codec) : List Bytes → Bytes → Scan → Except JournalError Scan
  | [], rest, scan =>
    -- a line without its end was never acted on
    pure { scan with recovered := rest ≠ [] }
  | line :: lines, rest, scan =>
    match parseRecord codec line with
    | some r => do
        let records ← apply scan.records r
        scanLines codec lines rest { scan with records, lines := scan.lines + 1 }
    | none =>
      if lines ≠ [] ∨ rest ≠ [] then throw (.damaged (scan.lines + 1))
      else recoverLast codec line scan

/-- The records of a file, or why it is not trusted. -/
def scanJournal (data : Bytes) : Except JournalError Scan := do
  refuseIf (maxJournalBytes < data.length) JournalError.sizeLimit
  let (lines, rest) := LineLog.split newline data
  scanLines codec lines rest ⟨∅, 0, false⟩

/-! ## The open journal -/

structure Journal where
  records : Records
  /-- Keys whose commands a sweep found missing. -/
  review : List String
  bytes : ℕ
  lines : ℕ
  /-- A write failed and could not be undone. -/
  broken : Bool
  /-- The file could not be opened again. -/
  closed : Bool

/-- A journal with the file it is kept in. -/
structure Store where
  journal : Journal
  disk : Bytes

/-- How a rewrite goes: the new file is in place; or it fails, before or after the new file was put in
place, and the file is opened again or not. -/
inductive RewriteIo
  | done
  | failed (replaced reopened : Bool)

variable (io : RewriteIo) (j : Journal)

/-- How a write goes: all of it is on the disk; or it fails with some of its bytes written. -/
inductive WriteIo
  | done
  | failed (written : ℕ)

/-- The live records, by key. -/
def liveRecords : List Record :=
  Sorting.sortBy Record.key (records.entries.map fun entry => ⟨entry.1, entry.2.id, entry.2.outcome⟩)

/-- The file with nothing but live records. -/
def liveFile : Bytes := ((liveRecords records).map codec.line).flatten

def Journal.full : Bool := maxJournalKeys ≤ j.records.keys.length

/-- The number of command keys held. -/
def Journal.keys (j : Journal) : ℕ := (j.records.erase bindingKey).keys.length

def Journal.unknownCount : ℕ :=
  j.records.entries.countP fun entry => entry.2.outcome = .unknown || entry.2.outcome = .accepted

/-- The outcome noted under a key, which must be of the same command. -/
def Journal.lookup (j : Journal) (key id : String) : Except JournalError (Option Outcome) :=
  match j.records.lookup key with
  | none => pure none
  | some e => do
      refuseIf (e.id ≠ id) JournalError.differentId
      pure (some e.outcome)

/-- Replace the file with one that holds the live records. -/
def rewrite (s : Store) : Option JournalError × Store :=
  let live := liveFile codec s.journal.records
  match io with
  | .done =>
    (none, ⟨{ s.journal with
      bytes := live.length, lines := s.journal.records.keys.length, closed := false }, live⟩)
  | .failed replaced reopened =>
    (some .file, ⟨{ s.journal with closed := !reopened }, if replaced then live else s.disk⟩)

/-- Why a record is not written at all. -/
def refusal (r : Record) : Option JournalError :=
  let held := (j.records.lookup r.key).isSome
  if !held && r.outcome = .settled then some .noSuchKey
  else if !held && j.full then some (.full j.keys j.unknownCount)
  else if j.broken then some .broken
  else if j.closed then some .closed
  else if maxRecordBytes < (codec.line r).length ∨
      maxJournalBytes < j.bytes + (codec.line r).length then some .sizeLimit
  else none

/-- The journal with one more record. -/
def Journal.noted (r : Record) : Journal := { j with
    bytes := j.bytes + (codec.line r).length
    lines := j.lines + 1
    records :=
      if r.outcome = .settled then j.records.erase r.key
      else j.records.insert r.key ⟨r.id, r.outcome⟩
    review := if r.outcome = .settled then j.review.filter (· ≠ r.key) else j.review }

/-- Append a record, and act on it only when it is on the disk. -/
def append (write : WriteIo) (io : RewriteIo) (r : Record) (s : Store) : Option JournalError × Store :=
  match refusal codec s.journal r with
  | some error => (some error, s)
  | none =>
    match write with
    | .failed written =>
      -- the file is rewritten from memory, which holds what was acted on
      let (error, s') := rewrite codec io ⟨s.journal, s.disk ++ (codec.line r).take written⟩
      (some .file, ⟨{ s'.journal with broken := error.isSome }, s'.disk⟩)
    | .done =>
      let j := s.journal.noted codec r
      if maxJournalGarbage ≤ j.lines - j.records.keys.length then
        rewrite codec io ⟨j, s.disk ++ codec.line r⟩
      else (none, ⟨j, s.disk ++ codec.line r⟩)

/-- Whether a key may be forgotten once its command has ended. -/
def settleable (key : String) (e : Entry) : Bool := key ≠ bindingKey && e.outcome ≠ .accepted

/-- Forget a key whose outcome has been reported. -/
def settle (write : WriteIo) (io : RewriteIo) (key id : String) (s : Store) :
    Option JournalError × Store :=
  match s.journal.records.lookup key with
  | none => (none, s)
  | some e =>
    if e.id ≠ id ∨ settleable key e = false then (none, s)
    else append codec write io ⟨key, id, .settled⟩ s

/-- Whether `settleMany` forgets a key. -/
def Journal.mayForget (key : String) : Bool := (j.records.lookup key).any (settleable key)

/-- Forget several keys with one rewrite. -/
def settleMany (keys : List String) (s : Store) : Option JournalError × Store :=
  let done := keys.filter s.journal.mayForget
  if done = [] then (none, s)
  else
    rewrite codec io ⟨{ s.journal with
        records := done.foldl (fun records key => records.erase key) s.journal.records
        review := s.journal.review.filter fun key => !done.contains key }, s.disk⟩

/-- The keys a status sweep asks about. -/
def sweepCandidates : List Record := (liveRecords j.records).filter fun r =>
    settleable r.key ⟨r.id, r.outcome⟩ && !j.review.contains r.key

/-- Open the journal; a torn or superseded record is taken off the disk first. -/
def openJournal (disk : Bytes) : Except JournalError Journal × Bytes :=
  match scanJournal codec disk with
  | .error error => (.error error, disk)
  | .ok scan =>
    let j : Journal := ⟨scan.records, [], disk.length, scan.lines, false, false⟩
    if maxJournalKeys < j.records.keys.length then (.error (.full j.keys j.unknownCount), disk)
    else if scan.recovered ∨ 0 < j.lines - j.records.keys.length then
      match rewrite codec io ⟨j, disk⟩ with
      | (some error, s) => (.error error, s.disk)
      | (none, s) => (.ok s.journal, s.disk)
    else (.ok j, disk)

/-- Close the journal, leaving a file of live records. -/
def closeJournal (s : Store) : Bytes :=
  if s.journal.records.keys.length < s.journal.lines ∧ s.journal.closed = false then
    (rewrite codec io s).2.disk
  else s.disk

/-! ## A codec -/

/-- One of three digits to the base 128, as a byte that is no separator. -/
def digit (n : ℕ) : UInt8 := UInt8.ofNat (128 + n % 128)

lemma toNat_digit (n : ℕ) : (digit n).toNat = 128 + n % 128 := by
  simp only [digit, UInt8.toNat_ofNat']
  omega

def charBytes (c : Char) : Bytes := [digit (c.toNat / 16384), digit (c.toNat / 128), digit c.toNat]

def textBytes (s : String) : Bytes := s.toList.flatMap charBytes

def readChars : Bytes → List Char
  | a :: b :: c :: rest =>
    Char.ofNat ((a.toNat - 128) * 16384 + (b.toNat - 128) * 128 + (c.toNat - 128)) :: readChars rest
  | _ => []

lemma readChars_charBytes (cs : List Char) : readChars (cs.flatMap charBytes) = cs := by
  induction cs with
  | nil => rfl
  | cons c cs ih =>
    have hbound : c.toNat < 1114112 := by
      have hvalid := c.valid
      change c.val.toNat < _
      omega
    have hvalue : c.toNat / 16384 % 128 * 16384 + c.toNat / 128 % 128 * 128 + c.toNat % 128 = c.toNat := by
      omega
    rw [flatMap_cons, charBytes]
    simp only [cons_append, nil_append, readChars, toNat_digit, Nat.add_sub_cancel_left, hvalue, ih,
      Char.ofNat_toNat]

lemma le_of_mem_textBytes {s : String} {b : UInt8} (h : b ∈ textBytes s) : 128 ≤ b.toNat := by
  simp only [textBytes, mem_flatMap, charBytes] at h
  rcases h with ⟨c, -, hb⟩
  simp only [mem_cons, not_mem_nil, or_false] at hb
  rcases hb with rfl | rfl | rfl <;> rw [toNat_digit] <;> omega

def outcomeByte : Outcome → UInt8
  | .accepted => 1
  | .success => 2
  | .failure => 3
  | .unknown => 4
  | .settled => 5

def readOutcome (b : UInt8) : Outcome :=
  if b = 1 then .accepted else if b = 2 then .success else if b = 3 then .failure
  else if b = 4 then .unknown else .settled

def readText (bs : Bytes) : String := String.ofList (readChars (bs.takeWhile fun b => 128 ≤ b.toNat))

/-- Outcome, key and id, with a zero byte between the two. -/
def readRecord : Bytes → Option Record
  | [] => none
  | b :: rest => some ⟨readText rest, readText ((rest.dropWhile fun b => 128 ≤ b.toNat).drop 1), readOutcome b⟩

lemma readText_textBytes (s : String) (b : UInt8) (hb : b.toNat < 128) (rest : Bytes) :
    readText (textBytes s ++ b :: rest) = s ∧
      (textBytes s ++ b :: rest).dropWhile (fun b => 128 ≤ b.toNat) = b :: rest := by
  have hall : ∀ x ∈ textBytes s, decide (128 ≤ x.toNat) = true := fun x hx => by
    simpa using le_of_mem_textBytes hx
  constructor
  · rw [readText, takeWhile_append_of_pos hall, takeWhile_cons_of_neg (by simpa using hb),
      append_nil, textBytes, readChars_charBytes, String.ofList_toList]
  · rw [dropWhile_append_of_pos hall, dropWhile_cons_of_neg (by simpa using hb)]

/-- A codec, so that runs can be evaluated. -/
def plainCodec : Codec where
  marshal r := outcomeByte r.outcome :: (textBytes r.key ++ 0 :: textBytes r.id)
  unmarshal := readRecord
  recordStart _ := none
  newline_notMem_marshal r := by
    simp only [List.mem_cons, List.mem_append, not_or]
    refine ⟨?_, fun h => ?_, by decide, fun h => ?_⟩
    · cases r.outcome <;> decide
    · exact absurd (le_of_mem_textBytes h) (by decide)
    · exact absurd (le_of_mem_textBytes h) (by decide)
  unmarshal_marshal r := by
    rcases r with ⟨key, id, outcome⟩
    simp only [List.cons_append, List.append_assoc, readRecord]
    rw [(readText_textBytes key 0 (by decide) _).1, (readText_textBytes key 0 (by decide) _).2,
      List.drop_succ_cons, List.drop_zero, (readText_textBytes id newline (by decide) []).1]
    cases outcome <;> rfl
  length_unknown key id := le_rfl

end EraInfra.Infra.Agent
