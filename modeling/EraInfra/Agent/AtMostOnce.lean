import EraInfra.Agent.Client
import EraInfra.Agent.Replay
import EraInfra.Core.Naming

/-!
# Effects happen at most once

However the control plane, the agent and the file system interleave, and wherever the agent crashes:
the executor is invoked at most once for a command.

What makes it so is said of a moment of a run by `HostOK`.  A command for which the executor has been
invoked has ended, and then it is never claimed again; or the journal knows it, in memory and in
whatever a crash leaves of the file (`mustKeep`).  The journal can only know it by the key it will be
looked up by when it is tied to one Node, so that the binding must be kept too.
-/

namespace EraInfra.Infra.Agent

open DocStore Encoding List Option Host Journal

variable {codec : Codec} {url : String}

/-! ## Names -/

lemma idText_ne_empty (i : ℕ) : idText i ≠ "" := by
  intro h
  have hlist := congrArg String.toList h
  simp [idText] at hlist

lemma idText_inj {i j : ℕ} (h : idText i = idText j) : i = j := toString_inj (congrArg String.toList h)

lemma bindingRecord_inj {n m : DocId Node} (h : (bindingRecord url n).id = (bindingRecord url m).id) :
    n = m := by
  have hlist := congrArg String.toList h
  simp only [bindingRecord, String.toList_append, append_cancel_left_eq] at hlist
  exact toString_inj hlist

lemma bindingRecord_id_ne_empty (n : DocId Node) : (bindingRecord url n).id ≠ "" := by
  intro h
  have hlist := congrArg String.toList h
  simp [bindingRecord] at hlist

lemma key_ne_bindingKey (c : Client) (cmd : ListedCommand) : c.key cmd ≠ bindingKey := by
  intro h
  have hmem : ':' ∈ (c.key cmd).toList := by simp [Client.key]
  rw [h] at hmem
  exact absurd hmem (by decide)

lemma key_ne_empty (c : Client) (cmd : ListedCommand) : c.key cmd ≠ "" := by
  intro h
  have hmem : ':' ∈ (c.key cmd).toList := by simp [Client.key]
  rw [h] at hmem
  simp at hmem

/-! ## The control plane in the meantime -/

/-- Every command is still there, as a later row. -/
def RowsLater (db db' : Db) : Prop := ∀ i row, db.nodeCommands.get i = some row →
    ∃ row', db'.nodeCommands.get i = some row' ∧ row.Later row'

lemma RowsLater.refl (db : Db) : RowsLater db db := fun _ row h => ⟨row, h, CommandRow.Later.refl row⟩

lemma rowsLater_commandStep (s : System) (e : CommandEvent) : RowsLater s.db (commandStep s e).db :=
  fun _ _ h => (commandStep_moves s e).later h

variable {db : Db}

section

variable (codec : Codec) (url : String) (binding : Option String) (invoked : DocId CommandRow → Prop)

lemma rowsLater_send {α : Type} {x : Db → Result (α × Db)} (env : Environment) (now : ℤ)
    (call : Call) (h : (x db).map Prod.snd = perform env now call db) (delivery : Delivery) :
    RowsLater db (send delivery x db).2 := by
  have hstep : RowsLater db (DocStore.commit db ((x db).map Prod.snd)) := by
    rw [h]
    exact rowsLater_commandStep ⟨db, now⟩ ⟨now, env, .call call⟩
  cases delivery with
  | answered => exact hstep
  | lost => exact RowsLater.refl db
  | unanswered => exact hstep

/-- A command as the control plane lists it. -/
def Listed (db : Db) (cmd : ListedCommand) : Prop :=
  ∃ row, db.nodeCommands.get cmd.id = some row ∧ row.idempotencyKey = cmd.idempotencyKey ∧
    row.command.kind = cmd.kind

lemma Listed.later {db' : Db} {cmd : ListedCommand} (h : Listed db cmd) (hlater : RowsLater db db') :
    Listed db' cmd := by
  rcases h with ⟨row, hrow, hkey, hkind⟩
  rcases hlater _ row hrow with ⟨row', hrow', hle⟩
  exact ⟨row', hrow', hle.key.trans hkey, by rw [hle.command, hkind]⟩

/-! ## The invariant -/

/-- The identifier of an open command for which the executor has been invoked. -/
def OpenRun (db : Db) (i : DocId CommandRow) (row : CommandRow) :
    Prop :=
  invoked i ∧ db.nodeCommands.get i = some row ∧ row.isOpen = true

/-- What the journal must not forget: the binding it has, and the open commands that have run. -/
def mustKeep (db : Db) :
    Needed := fun key id =>
  key = bindingKey ∧ binding = some id ∨
    ∃ i row n, OpenRun invoked db i row ∧ binding = some (bindingRecord url n).id ∧
      key = idText n ++ ":" ++ row.idempotencyKey ∧ id = idText i

/-- What holds of the process in a phase. -/
def PhaseOK (db : Db) (disk : Bytes) (c : Client) : Phase → Prop
  | .idle => True
  | .sweeping batches command => (∀ batch ∈ batches, ∀ r ∈ batch, r.key ≠ bindingKey ∧
      ∀ e, c.journal.records.lookup r.key = some e → e.id = r.id) ∧ ∀ cmd ∈ command, Listed db cmd
  | .ready cmd => Listed db cmd
  | .admitted cmd => Listed db cmd
  | .claimed cmd _ => Listed db cmd ∧
      (invoked cmd.id → Has c.journal.records (c.key cmd) (idText cmd.id))
  | .reading cmd _ _ => Listed db cmd
  | .fetched cmd _ _ => Listed db cmd ∧ ¬ invoked cmd.id ∧ c.journal.records.lookup (c.key cmd) = none
  | .accepted cmd _ _ => Listed db cmd ∧ ¬ invoked cmd.id ∧
      Has c.journal.records (c.key cmd) (idText cmd.id) ∧
      Keeps codec (mustKeep url binding (fun i => invoked i ∨ i = cmd.id) db) ⟨c.journal, disk⟩
  | .executing cmd _ _ => Listed db cmd ∧ Has c.journal.records (c.key cmd) (idText cmd.id)
  | .ended cmd _ _ => Listed db cmd ∧ Has c.journal.records (c.key cmd) (idText cmd.id)
  | .reporting cmd _ _ => Listed db cmd
  | .reported cmd _ _ => ∃ row, db.nodeCommands.get cmd.id = some row ∧ row.isOpen = false

structure ClientOK (db : Db) (disk : Bytes) (c : Client) : Prop where
  keeps : Keeps codec (mustKeep url binding invoked db) ⟨c.journal, disk⟩
  tied : (c.journal.records.lookup bindingKey).map Entry.id = binding
  node : c.nodeID ≠ "" → ∃ n, c.nodeID = idText n ∧ binding = some (bindingRecord url n).id
  /-- A command is only taken up after a heartbeat. -/
  beat : c.nodeID ≠ "" ∨ c.page = [] ∧ c.phase = .idle
  page : ∀ cmd ∈ c.page, Listed db cmd
  phase : PhaseOK codec url binding invoked db disk c c.phase

structure HostOK (h : Host) : Prop where
  rows : ∀ i, invoked i → ∃ row, h.system.db.nodeCommands.get i = some row
  /-- Commands have run under a binding. -/
  bound : ∀ i row, OpenRun invoked h.system.db i row → ∃ n, binding = some (bindingRecord url n).id
  disk : DiskKeeps codec (mustKeep url binding invoked h.system.db) h.disk False
  agent : ∀ c, h.agent = some c → ClientOK codec url binding invoked h.system.db h.disk c

end

section Invariant

variable {binding binding' : Option String} {invoked : DocId CommandRow → Prop} {db db' : Db}
  {disk : Bytes} {c c' : Client} {h : Host} {cmd : ListedCommand} {epoch : ℤ}

variable {i : DocId CommandRow} {α : Type} {key id : String} {phase : Phase} {s : Store}
  {row : CommandRow} {delivery : Delivery} {command : Option ListedCommand} {env : Environment}

section Later

variable (hlater : RowsLater db db') (hrows : ∀ i, invoked i → ∃ row, db.nodeCommands.get i = some row)

include hlater hrows

lemma OpenRun.before {row' : CommandRow} (hopen : OpenRun invoked db' i row') :
    ∃ row, OpenRun invoked db i row ∧ row.idempotencyKey = row'.idempotencyKey := by
  rcases hopen with ⟨hinvoked, hrow', hopen⟩
  rcases hrows i hinvoked with ⟨row, hrow⟩
  rcases hlater i row hrow with ⟨later, hlaterRow, hle⟩
  cases hrow'.symm.trans hlaterRow
  refine ⟨row, ⟨hinvoked, hrow, ?_⟩, hle.key.symm⟩
  by_contra hclosed
  rw [hle.isOpen_eq_false (by simpa using hclosed)] at hopen
  simp at hopen

/-- The control plane only ever lets go of commands. -/
lemma mustKeep_later (hkey : mustKeep url binding invoked db' key id) :
    mustKeep url binding invoked db key id := by
  rcases hkey with hbinding | ⟨i, row', n, hopen, hbinding, hkey, hid⟩
  · exact .inl hbinding
  · rcases hopen.before hlater hrows with ⟨row, hopen, hsame⟩
    exact .inr ⟨i, row, n, hopen, hbinding, by rw [hsame, hkey], hid⟩

lemma PhaseOK.later (hphase : PhaseOK codec url binding invoked db disk c phase) :
    PhaseOK codec url binding invoked db' disk c phase := by
  cases phase with
  | idle => trivial
  | sweeping batches command => exact ⟨hphase.1, fun cmd hcmd => (hphase.2 cmd hcmd).later hlater⟩
  | ready cmd | admitted cmd | reading cmd epoch payload | reporting cmd epoch outcome =>
    exact Listed.later hphase hlater
  | claimed cmd epoch | fetched cmd epoch payload | executing cmd epoch payload
  | ended cmd epoch outcome => exact ⟨hphase.1.later hlater, hphase.2⟩
  | accepted cmd epoch payload =>
    refine ⟨hphase.1.later hlater, hphase.2.1, hphase.2.2.1, hphase.2.2.2.mono fun key id hkey => ?_⟩
    refine mustKeep_later hlater ?_ hkey
    rintro i (hinvoked | rfl)
    · exact hrows i hinvoked
    · rcases hphase.1 with ⟨row, hrow, -⟩
      exact ⟨row, hrow⟩
  | reported cmd epoch outcome =>
    rcases hphase with ⟨row, hrow, hclosed⟩
    rcases hlater _ row hrow with ⟨row', hrow', hle⟩
    exact ⟨row', hrow', hle.isOpen_eq_false hclosed⟩

lemma ClientOK.later (hok : ClientOK codec url binding invoked db disk c) :
    ClientOK codec url binding invoked db' disk c :=
  ⟨hok.keeps.mono fun _ _ => mustKeep_later hlater hrows, hok.tied, hok.node, hok.beat,
    fun cmd hcmd => (hok.page cmd hcmd).later hlater, hok.phase.later hlater hrows⟩

end Later

/-! ## What the process knows -/

lemma mem_of_mem_pieces {n fuel : ℕ} {l piece : List α} (h : piece ∈ pieces n fuel l) :
    ∀ a ∈ piece, a ∈ l := by
  induction fuel generalizing l with
  | zero => simp [pieces] at h
  | succ fuel ih =>
    intro a ha
    simp only [pieces] at h
    split_ifs at h
    · simp at h
    · rcases mem_cons.mp h with rfl | h
      · exact mem_of_mem_take ha
      · exact mem_of_mem_drop (ih h a ha)

/-- A command of which a sweep has learnt that it ended has ended. -/
lemma ended_of_answer {text : String} {nodeId : DocId Node} {status : CommandStatus}
    (h : (((normalizeId db text).bind db.nodeCommands.get).filter fun row =>
      row.nodeId = nodeId).map CommandRow.status = some status)
    (hterminal : isTerminalStatus status = true)
    (hi : idText i = text) (hrow : db.nodeCommands.get i = some row) : row.isOpen = false := by
  rcases map_eq_some_iff.mp h with ⟨found, hfound, rfl⟩
  rcases bind_eq_some_iff.mp (filter_eq_some_iff.mp hfound).1 with ⟨j, hj, hget⟩
  rcases map_eq_some_iff.mp hj with ⟨entry, hentry, rfl⟩
  have htext : idText entry.1 = text := by simpa using find?_some hentry
  rw [← idText_inj (hi.trans htext.symm), hrow, some.injEq] at hget
  subst hget
  simp only [isTerminalStatus, decide_eq_true_eq] at hterminal
  simp [CommandRow.isOpen, hterminal.1, hterminal.2]

variable {j : Journal} {answer : Result α} {x : Db → Result (α × Db)}

lemma Journal.lookup_eq_none (hlookup : j.lookup key id = .ok none) : j.records.lookup key = none := by
  simp only [lookup] at hlookup
  cases hentry : j.records.lookup key with
  | none => rfl
  | some e =>
    rw [hentry] at hlookup
    simp only [refuseIf_bind_ok, pure_ok] at hlookup
    simp at hlookup

lemma Journal.lookup_eq_some {outcome : Outcome}
    (hlookup : j.lookup key id = .ok (some outcome)) : j.records.lookup key = some ⟨id, outcome⟩ := by
  simp only [lookup] at hlookup
  cases hentry : j.records.lookup key with
  | none =>
    rw [hentry, pure_ok] at hlookup
    simp at hlookup
  | some e =>
    rw [hentry] at hlookup
    simp only [refuseIf_bind_ok, pure_ok, not_not, some.injEq] at hlookup
    rw [← hlookup.1, ← hlookup.2]

section Client

variable (hok : ClientOK codec url binding invoked db disk c)

include hok

/-- The same process in another phase. -/
lemma ClientOK.moved
    (hbeat : c.nodeID ≠ "") (hphase : PhaseOK codec url binding invoked db disk c phase) :
    ClientOK codec url binding invoked db disk { c with phase := phase } :=
  ⟨hok.keeps, hok.tied, hok.node, .inl hbeat, hok.page, hphase⟩

lemma ClientOK.fail (skip : Bool) : ClientOK codec url binding invoked db disk (c.fail skip) := by
  refine ⟨hok.keeps, hok.tied, hok.node, ?_, fun cmd hcmd => ?_, trivial⟩
  · rcases hok.beat with hbeat | ⟨hpage, -⟩
    · exact .inl hbeat
    · refine .inr ⟨?_, rfl⟩
      simp [Client.fail, hpage]
  · refine hok.page cmd ?_
    simp only [Client.fail] at hcmd
    split_ifs at hcmd
    · exact hcmd
    · simp at hcmd

lemma ClientOK.beaten (hphase : c.phase ≠ .idle) : c.nodeID ≠ "" := by
  rcases hok.beat with hbeat | ⟨-, hidle⟩
  · exact hbeat
  · exact absurd hidle hphase

/-- The same process with another journal, which keeps what is needed. -/
lemma ClientOK.rejournal
    (hbeat : c.nodeID ≠ "") (hkeeps : Keeps codec (mustKeep url binding invoked db) s)
    (hbinding : s.journal.records.lookup bindingKey = c.journal.records.lookup bindingKey)
    (hphase : PhaseOK codec url binding invoked db s.disk { c with journal := s.journal } phase) :
    ClientOK codec url binding invoked db s.disk { c with journal := s.journal, phase := phase } :=
  ⟨hkeeps, by rw [hbinding]; exact hok.tied, hok.node, .inl hbeat, hok.page, hphase⟩

/-- The key of an open command that has run is the one it will be looked up by. -/
lemma ClientOK.key_of_openRun (hbeat : c.nodeID ≠ "") (hlisted : Listed db cmd) {n : DocId Node}
    (hrow : db.nodeCommands.get cmd.id = some row) (hbinding : binding = some (bindingRecord url n).id) :
    idText n ++ ":" ++ row.idempotencyKey = c.key cmd := by
  rcases hok.node hbeat with ⟨m, hnode, hm⟩
  rcases hlisted with ⟨row', hrow', hkey, -⟩
  rw [hrow, some.injEq] at hrow'
  rw [hbinding, some.injEq] at hm
  rw [Client.key, hnode, ← bindingRecord_inj hm, hrow', hkey]

/-- A command that has ended may be forgotten. -/
lemma ClientOK.not_mustKeep {e : Entry}
    (hkey : key ≠ bindingKey) (hlookup : c.journal.records.lookup key = some e)
    (hended : ∀ i row, idText i = e.id → db.nodeCommands.get i = some row → row.isOpen = false)
    (id : String) : ¬ mustKeep url binding invoked db key id := by
  intro hneeded
  rcases hok.keeps.memory key id hneeded with ⟨outcome, hhas⟩
  rcases hneeded with ⟨hbinding, -⟩ | ⟨i, row, n, hopen, -, -, hid⟩
  · exact hkey hbinding
  · rw [hlookup, some.injEq] at hhas
    have hfalse := hended i row (by rw [hhas, hid]) hopen.2.1
    rw [hopen.2.2] at hfalse
    simp at hfalse

/-- A journal that has lost nothing that is needed has kept its binding. -/
lemma ClientOK.lookup_binding (hkeeps : Keeps codec (mustKeep url binding invoked db) s)
    (hlookup : s.journal.records.lookup bindingKey = none ∨
      s.journal.records.lookup bindingKey = c.journal.records.lookup bindingKey) :
    s.journal.records.lookup bindingKey = c.journal.records.lookup bindingKey := by
  rcases hlookup with hnone | hsame
  · cases hold : c.journal.records.lookup bindingKey with
    | none => exact hnone
    | some e =>
      have htied := hok.tied
      rw [hold] at htied
      rcases hkeeps.memory bindingKey e.id (.inl ⟨rfl, htied.symm⟩) with ⟨outcome, hhas⟩
      rw [hnone] at hhas
      simp at hhas
  · exact hsame

variable {r : Record}

/-- The process after an append, with its command given up. -/
lemma ClientOK.append (hbeat : c.nodeID ≠ "")
    (io : FileIo) (hkey : r.key ≠ "") (hid : r.id ≠ "") (hne : r.key ≠ bindingKey)
    (hsame : ∀ e, c.journal.records.lookup r.key = some e → e.id = r.id)
    (hsettled : r.outcome = .settled → ∀ id, ¬ mustKeep url binding invoked db r.key id)
    {error : Option JournalError}
    (hs : append codec io.write io.rewrite r ⟨c.journal, disk⟩ = (error, s)) :
    ClientOK codec url binding invoked db s.disk { c with journal := s.journal, phase := .idle } ∧
      s.journal.records.lookup bindingKey = c.journal.records.lookup bindingKey ∧
      (error = none → Keeps codec (fun key id => mustKeep url binding invoked db key id ∨
        r.outcome ≠ .settled ∧ key = r.key ∧ id = r.id) s) := by
  have happend := append_keeps io.write io.rewrite hok.keeps hkey hid hsame hsettled
  rw [hs] at happend
  rcases happend with ⟨herror, hrecords, hkeeps⟩ | ⟨hrecords, hkeeps⟩
  · have hbinding : s.journal.records.lookup bindingKey = c.journal.records.lookup bindingKey := by
      rw [hrecords]
    exact ⟨hok.rejournal hbeat hkeeps hbinding trivial, hbinding, fun hnone => absurd hnone herror⟩
  · have hbinding : s.journal.records.lookup bindingKey = c.journal.records.lookup bindingKey := by
      rw [hrecords, lookup_noted, if_neg hne.symm]
    exact ⟨hok.rejournal hbeat (hkeeps.mono fun _ _ => .inl) hbinding trivial, hbinding, fun _ => hkeeps⟩

lemma ClientOK.startSweep (hbeat : c.nodeID ≠ "")
    (hcommand : ∀ cmd ∈ command, Listed db cmd) (forced : Bool)
    (now : ℤ) : ClientOK codec url binding invoked db disk (c.startSweep forced now command) := by
  refine ⟨hok.keeps, hok.tied, hok.node, Or.inl hbeat, hok.page, ?_, hcommand⟩
  intro batch hbatch r hr
  have hcandidate := mem_of_mem_pieces hbatch r hr
  rw [sweepCandidates, mem_filter, mem_liveRecords] at hcandidate
  simp only [settleable, Bool.and_eq_true, decide_eq_true_eq] at hcandidate
  refine ⟨hcandidate.2.1.1, fun e he => ?_⟩
  have hsame : some e = some ⟨r.id, r.outcome⟩ := he.symm.trans hcandidate.1
  rw [Option.some.inj hsame]

lemma ClientOK.resume (hbeat : c.nodeID ≠ "") (hcommand : ∀ cmd ∈ command, Listed db cmd) :
    ClientOK codec url binding invoked db disk (c.resume command) := by
  cases command with
  | none => exact hok.moved hbeat trivial
  | some cmd =>
    simp only [Client.resume]
    split_ifs
    · exact hok.fail true
    · exact hok.moved hbeat (hcommand cmd rfl)

/-- What a sweep forgets is not needed. -/
lemma ClientOK.done_of_answers {batch : List Record} (hbatch : ∀ r ∈ batch, r.key ≠ bindingKey ∧
      ∀ e, c.journal.records.lookup r.key = some e → e.id = r.id)
    {credential : String} {answers : List (Option CommandStatus)}
    (hanswers : statuses env credential (batch.map fun r => normalizeId db r.id) db = .ok answers) :
    ∀ key ∈ ((batch.zip answers).filter fun entry => entry.2.any isTerminalStatus).map
      (fun entry => entry.1.key), ∀ id, ¬ mustKeep url binding invoked db key id := by
  intro key hkey id hneeded
  rcases bind_ok.mp hanswers with ⟨nodeId, -, hlisted⟩
  rcases refuseIf_bind_ok.mp hlisted with ⟨-, ⟨⟩⟩
  rcases mem_map.mp hkey with ⟨⟨r, answer⟩, hmem, rfl⟩
  rw [mem_filter, List.map_map, ← map_prod_left_eq_zip, List.mem_map] at hmem
  rcases hmem with ⟨⟨r', hr, hpair⟩, hany⟩
  rcases Prod.mk.inj hpair with ⟨rfl, hanswer⟩
  cases answer with
  | none => simp at hany
  | some status =>
    rcases hok.keeps.memory _ id hneeded with ⟨outcome, hlookup⟩
    refine hok.not_mustKeep (hbatch r' hr).1 hlookup (fun i row hi hrow => ?_) id hneeded
    rw [(hbatch r' hr).2 _ hlookup] at hi
    exact ended_of_answer hanswer hany hi hrow

/-- What is being written when the process crashes does no harm. -/
lemma ClientOK.nextRecord (hr : c.nextRecord url env db = some r) : r.key ≠ "" ∧ r.id ≠ "" ∧
      (r.outcome = .settled → ∀ id, ¬ mustKeep url binding invoked db r.key id) := by
  have hfacts := hok.phase
  simp only [Client.nextRecord] at hr
  split at hr <;> rename_i hphase
  · split at hr
    · rw [← some.inj hr]
      exact ⟨by simp [bindingRecord, bindingKey], bindingRecord_id_ne_empty _,
        fun hend => by simp [bindingRecord] at hend⟩
    · simp at hr
  · rw [← some.inj hr]
    exact ⟨key_ne_empty c _, idText_ne_empty _, nofun⟩
  · rename_i cmd epoch outcome
    rw [← some.inj hr]
    refine ⟨key_ne_empty c cmd, idText_ne_empty cmd.id, fun hend => ?_⟩
    cases outcome <;> simp [Outcome.ofCommand] at hend
  · rename_i cmd epoch outcome
    split_ifs at hr with hheld
    rw [← some.inj hr]
    refine ⟨key_ne_empty c cmd, idText_ne_empty cmd.id, fun _ => ?_⟩
    rw [hphase] at hfacts
    rcases hfacts with ⟨row, hrow, hclosed⟩
    cases hlookup : c.journal.records.lookup (c.key cmd) with
    | none => simp [hlookup] at hheld
    | some e =>
      rw [hlookup, any_some, Bool.and_eq_true, decide_eq_true_eq] at hheld
      refine hok.not_mustKeep (key_ne_bindingKey c cmd) hlookup fun i row' hi hrow' => ?_
      rw [idText_inj (hi.trans hheld.1), hrow, some.injEq] at hrow'
      rw [← hrow', hclosed]
  · simp at hr

end Client

/-! ## Requests -/

lemma resume_journal (c : Client) (j : Journal) (phase : Phase) (command : Option ListedCommand) :
    { ({ c with journal := j } : Client).resume command with journal := j }
      = ({ c with journal := j, phase := phase } : Client).resume command := by
  cases command with
  | none => rfl
  | some cmd =>
    simp only [Client.resume]
    split_ifs <;> rfl

lemma ask_eq_some {x : Result α} (h : Agent.ask delivery x = some answer) : x = answer := by
  cases delivery <;> simp_all [Agent.ask]

/-- The answer to a request that was carried out. -/
lemma send_ok {a : α} (hsend : send delivery x db = (some (.ok a), db')) : x db = .ok (a, db') := by
  cases delivery with
  | answered =>
    rcases Prod.mk.inj hsend with ⟨hanswer, rfl⟩
    rcases map_ok.mp (some.inj hanswer) with ⟨⟨a', after⟩, hx, rfl⟩
    rw [hx]
    rfl
  | lost | unanswered => simp [send] at hsend

lemma rowsLater_claim (x : Exchange) (credential : String) (id : DocId CommandRow) (owner : String)
    (db : Db) : RowsLater db (send x.delivery (Infra.claim x.env x.now credential id owner) db).2 :=
  rowsLater_send x.env x.now (.claim credential id owner) rfl x.delivery

lemma rowsLater_report (x : Exchange) (args : ReportArgs) (db : Db) :
    RowsLater db (send x.delivery (fun db => (Infra.report x.env x.now args db).map fun db => ((), db))
      db).2 := by
  refine rowsLater_send x.env x.now (.report args) ?_ x.delivery
  rw [perform]
  cases Infra.report x.env x.now args db <;> rfl

lemma rowsLater_heartbeat (x : Exchange) (beat : HeartbeatArgs) (db : Db) :
    RowsLater db (send x.delivery (fun db => do
      let nodeId ← requireNode x.env beat.credential db
      let db ← Infra.heartbeat x.env x.now beat db
      pure (nodeId, db)) db).2 := by
  refine rowsLater_send x.env x.now (.heartbeat beat) ?_ x.delivery
  cases hnode : requireNode x.env beat.credential db with
  | error error =>
    simp only [perform, Infra.heartbeat, hnode]
    rfl
  | ok nodeId =>
    rw [perform]
    cases Infra.heartbeat x.env x.now beat db <;> rfl

/-- The process calls the executor for a command. -/
def Invokes (h : Host) (e : NodeEvent) (i : DocId CommandRow) (payload : Payload) : Prop :=
  e = .act .invoke ∧ ∃ c cmd epoch, h.agent = some c ∧ c.phase = .accepted cmd epoch payload ∧ cmd.id = i

section Process

variable (hok : HostOK codec url binding invoked h)

include hok

/-- Whatever happens at the control plane keeps the invariant. -/
lemma HostOK.later {s : System}
    (hlater : RowsLater h.system.db s.db) : HostOK codec url binding invoked { h with system := s } := by
  refine ⟨fun i hi => ?_, fun i row hopen => ?_, hok.disk.mono fun _ _ => mustKeep_later hlater hok.rows,
    fun c hc => (hok.agent c hc).later hlater hok.rows⟩
  · rcases hok.rows i hi with ⟨row, hrow⟩
    rcases hlater i row hrow with ⟨row', hrow', -⟩
    exact ⟨row', hrow'⟩
  · rcases hopen.before hlater hok.rows with ⟨row, hopen, -⟩
    exact hok.bound i row hopen

/-- A step of the process that writes nothing. -/
lemma HostOK.run (hc : ClientOK codec url binding invoked h.system.db h.disk c') :
    HostOK codec url binding invoked (h.run c') :=
  ⟨hok.rows, hok.bound, hok.disk, fun _ hsome => some.inj hsome ▸ hc⟩

/-- A step of the process that writes to the journal. -/
lemma HostOK.keep
    (hbound : ∀ i row, OpenRun invoked h.system.db i row → ∃ n, binding' = some (bindingRecord url n).id)
    (hc : ClientOK codec url binding' invoked h.system.db s.disk { c' with journal := s.journal }) :
    HostOK codec url binding' invoked (h.keep c' s) :=
  ⟨hok.rows, hbound, hc.keeps.disk.imp False.elim, fun _ hsome => some.inj hsome ▸ hc⟩

/-- The process is gone. -/
lemma HostOK.gone (hdisk : DiskKeeps codec (mustKeep url binding invoked h.system.db) disk False) :
    HostOK codec url binding invoked { h with agent := none, disk := disk } :=
  ⟨hok.rows, hok.bound, hdisk, fun _ hnone => by simp at hnone⟩

/-- A process that starts has the binding that it reads. -/
lemma HostOK.start (hc : h.agent = none) (credential owner : String) (io : RewriteIo) :
    ∃ binding', HostOK codec url binding' invoked (h.start codec credential owner io) := by
  rcases openJournal_keeps io hok.disk with ⟨hdisk, hread⟩
  simp only [Host.start]
  generalize openJournal codec io h.disk = result at hdisk hread
  rcases result with ⟨opened, disk⟩
  rcases opened with error | journal
  · refine ⟨binding, hok.rows, hok.bound, hdisk, fun c hsome => ?_⟩
    simp only [hc] at hsome
    simp at hsome
  rcases hread journal rfl with ⟨hmemory, hkeeps⟩
  have hsame : ∀ id, binding = some id →
      (journal.records.lookup bindingKey).map Entry.id = some id := by
    intro id hid
    rcases hmemory bindingKey id (.inl ⟨rfl, hid⟩) with ⟨outcome, hhas⟩
    rw [hhas, map_some]
  have hbound : ∀ i row, OpenRun invoked h.system.db i row → ∃ n,
      binding = some (bindingRecord url n).id ∧
        (journal.records.lookup bindingKey).map Entry.id = some (bindingRecord url n).id := by
    intro i row hopen
    rcases hok.bound i row hopen with ⟨n, hn⟩
    exact ⟨n, hn, hsame _ hn⟩
  have hkept : Keeps codec (mustKeep url ((journal.records.lookup bindingKey).map Entry.id) invoked
      h.system.db) ⟨journal, disk⟩ := by
    refine hkeeps.mono fun key id hkey => ?_
    rcases hkey with ⟨rfl, hid⟩ | ⟨i, row, n, hopen, hn, rfl, rfl⟩
    · rcases map_eq_some_iff.mp hid with ⟨e, he, rfl⟩
      exact ⟨e.outcome, he⟩
    · rcases hbound i row hopen with ⟨m, hm, hm'⟩
      rw [hm', some.injEq] at hn
      rw [← bindingRecord_inj hn]
      exact hmemory _ _ (.inr ⟨i, row, m, hopen, hm, rfl, rfl⟩)
  refine ⟨(journal.records.lookup bindingKey).map Entry.id, hok.rows, ?_, hkept.disk.imp False.elim, ?_⟩
  · intro i row hopen
    rcases hbound i row hopen with ⟨n, -, hn⟩
    exact ⟨n, hn⟩
  · intro c hsome
    rw [← some.inj hsome]
    exact ⟨hkept, rfl, fun hbeat => absurd rfl hbeat, .inr ⟨rfl, rfl⟩, by simp, trivial⟩

variable (hc : h.agent = some c)

include hc

/-! ## One event -/

/-- What holds of a process that has taken up a command. -/
lemma HostOK.busy (hphase : c.phase = phase) (hne : phase ≠ .idle) :
    ClientOK codec url binding invoked h.system.db h.disk c ∧ c.nodeID ≠ "" ∧
      PhaseOK codec url binding invoked h.system.db h.disk c phase := by
  subst hphase
  have hclient := hok.agent c hc
  exact ⟨hclient, hclient.beaten hne, hclient.phase⟩

lemma HostOK.note (hbeat : c.nodeID ≠ "") (io : FileIo) {outcome : Outcome} {next : Phase}
    (hlive : outcome ≠ .settled)
    (hsame : ∀ e, c.journal.records.lookup (c.key cmd) = some e → e.id = idText cmd.id)
    (hnext : ∀ s : Store, Keeps codec (fun key id => mustKeep url binding invoked h.system.db key id ∨
        key = c.key cmd ∧ id = idText cmd.id) s →
      PhaseOK codec url binding invoked h.system.db s.disk { c with journal := s.journal } next) :
    HostOK codec url binding invoked (h.note codec io c ⟨c.key cmd, idText cmd.id, outcome⟩ next) := by
  have hclient := hok.agent c hc
  simp only [Host.note, Host.store]
  rcases hs : Agent.append codec io.write io.rewrite ⟨c.key cmd, idText cmd.id, outcome⟩ ⟨c.journal, h.disk⟩
    with ⟨error, s⟩
  rcases hclient.append hbeat io (key_ne_empty c cmd) (idText_ne_empty cmd.id) (key_ne_bindingKey c cmd)
    hsame (fun hend => absurd hend hlive) hs with ⟨hfailed, hbinding, hnoted⟩
  cases error with
  | some error => exact hok.keep hok.bound (hfailed.fail error.isFull)
  | none =>
    have hkeeps : Keeps codec (fun key id => mustKeep url binding invoked h.system.db key id ∨
        key = c.key cmd ∧ id = idText cmd.id) s :=
      (hnoted rfl).mono fun key id hkey => hkey.imp_right fun hnew => ⟨hlive, hnew⟩
    exact hok.keep hok.bound
      (hclient.rejournal hbeat (hkeeps.mono fun _ _ => .inl) hbinding (hnext s hkeeps))

lemma HostOK.settle (hbeat : c.nodeID ≠ "") (io : FileIo)
    (hended : ∃ row, h.system.db.nodeCommands.get cmd.id = some row ∧ row.isOpen = false) :
    HostOK codec url binding invoked (h.settle codec io c cmd) := by
  have hclient := hok.agent c hc
  have hidle : HostOK codec url binding invoked (h.keep { c with phase := .idle } (h.store c)) :=
    hok.keep hok.bound (hclient.moved hbeat trivial)
  simp only [Host.settle, Agent.settle, Host.store]
  rcases hlookup : c.journal.records.lookup (c.key cmd) with _ | e
  · exact hidle
  simp only
  split_ifs with hskip
  · exact hidle
  simp only [not_or, not_not] at hskip
  have hforget : ∀ id, ¬ mustKeep url binding invoked h.system.db (c.key cmd) id := by
    refine hclient.not_mustKeep (key_ne_bindingKey c cmd) hlookup fun i row hi hrow => ?_
    rcases hended with ⟨row', hrow', hclosed⟩
    rw [idText_inj (hi.trans hskip.1), hrow', some.injEq] at hrow
    rw [← hrow, hclosed]
  rcases hs : Agent.append codec io.write io.rewrite ⟨c.key cmd, idText cmd.id, .settled⟩
    ⟨c.journal, h.disk⟩ with ⟨error, s⟩
  rcases hclient.append hbeat io (key_ne_empty c cmd) (idText_ne_empty cmd.id)
    (key_ne_bindingKey c cmd) (fun e' he' => by
      rw [hlookup, some.injEq] at he'
      rw [← he', hskip.1]) (fun _ => hforget) hs with ⟨hfailed, -, -⟩
  cases error with
  | some error => exact hok.keep hok.bound (hfailed.fail error.isFull)
  | none => exact hok.keep hok.bound hfailed

lemma HostOK.sweep {batches : List (List Record)}
    (hphase : c.phase = .sweeping batches command) (x : Exchange) (io : RewriteIo) :
    HostOK codec url binding invoked (h.sweep codec x io c batches command) := by
  rcases hok.busy hc hphase (by simp) with ⟨hclient, hbeat, hfacts⟩
  have hresume : HostOK codec url binding invoked (h.run (c.resume command)) :=
    hok.run (hclient.resume hbeat hfacts.2)
  simp only [Host.sweep]
  rcases batches with _ | ⟨batch, rest⟩
  · exact hresume
  simp only
  generalize hask : Agent.ask x.delivery (statuses x.env c.credential
    (batch.map fun r => normalizeId h.system.db r.id) h.system.db) = asked
  rcases asked with _ | error | answers
  · exact hresume
  · exact hresume
  have hdone := hclient.done_of_answers (hfacts.1 batch (by simp)) (ask_eq_some hask)
  have hkeeps : Keeps codec (mustKeep url binding invoked h.system.db)
      ⟨{ c.journal with review := c.journal.review ++ ((batch.zip answers).filter fun entry =>
        entry.2 = none).map fun entry => entry.1.key }, h.disk⟩ :=
    ⟨hclient.keeps.clean, hclient.keeps.memory, hclient.keeps.disk⟩
  have hswept := settleMany_keeps io hkeeps hdone
  simp only
  generalize settleMany codec io _ _ = result at hswept
  rcases result with ⟨error, s⟩
  rcases hswept with ⟨hkept, hlookup⟩
  have hbinding := hclient.lookup_binding hkept (hlookup bindingKey)
  cases error with
  | none =>
    have hrest : PhaseOK codec url binding invoked h.system.db s.disk
        { c with journal := s.journal } (.sweeping rest command) := by
      refine ⟨fun batch' hbatch' r hr => ?_, hfacts.2⟩
      have hr' := hfacts.1 batch' (mem_cons_of_mem batch hbatch') r hr
      refine ⟨hr'.1, fun e he => ?_⟩
      rcases hlookup r.key with hnone | hsame
      · exact absurd (hnone.symm.trans he) (by simp)
      · exact hr'.2 e (hsame.symm.trans he)
    exact hok.keep hok.bound (hclient.rejournal hbeat hkept hbinding hrest)
  | some error =>
    have hidle : ClientOK codec url binding invoked h.system.db s.disk
        { c with journal := s.journal, phase := .idle } :=
      hclient.rejournal hbeat hkept hbinding trivial
    refine hok.keep hok.bound ?_
    rw [resume_journal c s.journal .idle]
    exact hidle.resume hbeat hfacts.2

lemma HostOK.makeRoom (hphase : c.phase = .ready cmd) (now : ℤ) :
    HostOK codec url binding invoked (h.makeRoom now c cmd) := by
  rcases hok.busy hc hphase (by simp) with ⟨hclient, hbeat, hlisted⟩
  simp only [Host.makeRoom]
  split_ifs
  · exact hok.run (hclient.moved hbeat hlisted)
  · exact hok.run (hclient.startSweep hbeat (fun cmd' hcmd' => some.inj hcmd' ▸ hlisted) true now)
  · exact hok.run (hclient.fail true)

lemma HostOK.poll (hphase : c.phase = .idle) (hbeat : c.nodeID ≠ "") (x : Exchange) :
    HostOK codec url binding invoked (h.poll x c) := by
  have hclient := hok.agent c hc
  simp only [Host.poll]
  rcases hask : Agent.ask x.delivery (pending x.env x.now c.credential c.cursor h.system.db) with
    _ | error | answer
  · exact hok
  · exact hok
  have hpage := ask_eq_some hask
  rcases bind_ok.mp hpage with ⟨nodeId, -, hlisted⟩
  rw [pure_ok] at hlisted
  refine hok.run ⟨hclient.keeps, hclient.tied, hclient.node, .inl hbeat, fun cmd hcmd => ?_, ?_⟩
  · rw [← (Prod.mk.inj hlisted).1] at hcmd
    rcases mem_map.mp hcmd with ⟨⟨i, row⟩, hentry, rfl⟩
    have hrow := mem_of_mem_filter (mem_of_mem_take (mem_of_mem_filter hentry))
    exact ⟨row, (Table.mem_collect.mp hrow).1, rfl, rfl⟩
  · simp only [hphase]
    trivial

lemma HostOK.claim (hphase : c.phase = .admitted cmd) (x : Exchange) :
    HostOK codec url binding invoked (h.claim x c cmd) := by
  rcases hok.busy hc hphase (by simp) with ⟨-, hbeat, hlisted⟩
  have hlater := rowsLater_claim x c.credential cmd.id c.owner h.system.db
  simp only [Host.claim]
  rcases hsend : send x.delivery (Infra.claim x.env x.now c.credential cmd.id c.owner) h.system.db
    with ⟨answer, db'⟩
  rw [hsend] at hlater
  have hok' : HostOK codec url binding invoked (h.after x db') := hok.later hlater
  have hclient' := hok'.agent c hc
  rcases answer with _ | error | lease
  · exact hok'.run (hclient'.fail false)
  · exact hok'.run (hclient'.fail x.conflict)
  refine hok'.run (hclient'.moved hbeat ⟨Listed.later hlisted hlater, fun hinvoked => ?_⟩)
  -- only an open command can be claimed
  rcases claim_ok (send_ok hsend) with ⟨row, hrow, hopen, -⟩
  rcases hok.bound cmd.id row ⟨hinvoked, hrow, hopen⟩ with ⟨n, hn⟩
  have hclient := hok.agent c hc
  refine hclient.keeps.memory _ _ (.inr ⟨cmd.id, row, n, ⟨hinvoked, hrow, hopen⟩, hn, ?_, rfl⟩)
  exact (hclient.key_of_openRun hbeat hlisted hrow hn).symm

lemma HostOK.ask (hbeat : c.nodeID ≠ "") {next : Payload → Phase}
    (hnext : ∀ payload, PhaseOK codec url binding invoked h.system.db h.disk c (next payload))
    (x : Exchange) : HostOK codec url binding invoked (h.ask x c cmd epoch next) := by
  have hclient := hok.agent c hc
  simp only [Host.ask]
  rcases Agent.ask x.delivery (payload x.env x.now (c.claimArgs cmd epoch) h.system.db) with
    _ | error | payload
  · exact hok.run (hclient.fail false)
  · exact hok.run (hclient.fail x.conflict)
  simp only
  split_ifs
  · exact hok.run (hclient.fail false)
  · exact hok.run (hclient.moved hbeat (hnext payload))

lemma HostOK.fetch (hphase : c.phase = .claimed cmd epoch) (x : Exchange) :
    HostOK codec url binding invoked (h.fetch x c cmd epoch) := by
  rcases hok.busy hc hphase (by simp) with ⟨hclient, hbeat, hlisted, hknown⟩
  simp only [Host.fetch]
  split_ifs
  · have hreading : ∀ payload, PhaseOK codec url binding invoked h.system.db h.disk c
        (.reading cmd epoch payload) := fun _ => hlisted
    exact hok.ask hc hbeat hreading x
  rcases hlookup : c.journal.lookup (c.key cmd) (idText cmd.id) with error | _ | outcome
  · exact hok.run (hclient.fail false)
  swap
  · exact hok.run (hclient.moved hbeat hlisted)
  have hnone := lookup_eq_none hlookup
  have hfetched : ∀ payload, PhaseOK codec url binding invoked h.system.db h.disk c
      (.fetched cmd epoch payload) := by
    refine fun _ => ⟨hlisted, fun hinvoked => ?_, hnone⟩
    rcases hknown hinvoked with ⟨outcome, hhas⟩
    rw [hnone] at hhas
    simp at hhas
  exact hok.ask hc hbeat hfetched x

lemma HostOK.report (hbeat : c.nodeID ≠ "") {result : Reading} {next : Phase}
    (hnext : ∀ db', (∃ row, db'.nodeCommands.get cmd.id = some row ∧ row.isOpen = false) →
      PhaseOK codec url binding invoked db' h.disk c next) (x : Exchange) :
    HostOK codec url binding invoked (h.report x c cmd epoch result next) := by
  have hlater := rowsLater_report x
    ⟨c.claimArgs cmd epoch, result.outcome, result.spec, result.output, result.truncated⟩ h.system.db
  simp only [Host.report]
  rcases hsend : send x.delivery (fun db => (Infra.report x.env x.now
      ⟨c.claimArgs cmd epoch, result.outcome, result.spec, result.output, result.truncated⟩ db).map
        fun db => ((), db)) h.system.db with ⟨answer, db'⟩
  rw [hsend] at hlater
  have hok' : HostOK codec url binding invoked (h.after x db') := hok.later hlater
  have hclient' := hok'.agent c hc
  rcases answer with _ | error | answer
  · exact hok'.run (hclient'.fail false)
  · exact hok'.run (hclient'.fail x.conflict)
  rcases map_ok.mp (send_ok hsend) with ⟨after, hreport, hafter⟩
  rw [(Prod.mk.inj hafter).2] at hreport
  exact hok'.run (hclient'.moved hbeat (hnext db' (report_ended hreport)))

/-- The journal is tied to the Node of a heartbeat, or known to be. -/
lemma HostOK.tie (hphase : c.phase = .idle) (hpage : c.page = []) (io : FileIo) (nodeId : DocId Node) :
    ∃ binding', HostOK codec url binding' invoked
      (match c.journal.lookup bindingKey (bindingRecord url nodeId).id with
      | .error _ => h
      | .ok (some _) => h.run { c with nodeID := idText nodeId }
      | .ok none =>
        match append codec io.write io.rewrite (bindingRecord url nodeId) (h.store c) with
        | (none, s) => h.keep { c with nodeID := idText nodeId } s
        | (some _, s) => h.keep c s) := by
  have hclient := hok.agent c hc
  have hidle : ∀ b db disk c', PhaseOK codec url b invoked db disk c' c.phase := by
    intro b db disk c'
    rw [hphase]
    trivial
  rcases hlookup : c.journal.lookup bindingKey (bindingRecord url nodeId).id with error | _ | outcome
  · exact ⟨binding, hok⟩
  swap
  · have htied := hclient.tied
    rw [lookup_eq_some hlookup] at htied
    exact ⟨binding, hok.run ⟨hclient.keeps, hclient.tied, fun _ => ⟨nodeId, rfl, htied.symm⟩,
      .inl (idText_ne_empty nodeId), hclient.page, hidle _ _ _ _⟩⟩
  have hnone := lookup_eq_none hlookup
  have hunbound : binding = none := by
    rw [← hclient.tied, hnone, map_none]
  have hnorun : ∀ i row, ¬ OpenRun invoked h.system.db i row := by
    intro i row hopen
    rcases hok.bound i row hopen with ⟨n, hn⟩
    rw [hunbound] at hn
    simp at hn
  have happend := append_keeps io.write io.rewrite hclient.keeps
    (r := bindingRecord url nodeId) (by simp [bindingRecord, bindingKey])
    (bindingRecord_id_ne_empty nodeId)
    (fun e he => absurd (hnone.symm.trans he) (by simp)) (fun hend => by simp [bindingRecord] at hend)
  simp only [store]
  generalize Agent.append codec io.write io.rewrite _ _ = result at happend
  rcases result with ⟨error, s⟩
  rcases happend with ⟨herror, hrecords, hkeeps⟩ | ⟨hrecords, hkeeps⟩
  · cases error with
    | none => exact absurd rfl herror
    | some error =>
      simp only at hrecords
      exact ⟨binding, hok.keep hok.bound ⟨hkeeps, by simp only [hrecords]; exact hclient.tied,
        hclient.node, .inr ⟨hpage, hphase⟩, hclient.page, hidle _ _ _ _⟩⟩
  · have htied : (s.journal.records.lookup bindingKey).map Entry.id
        = some (bindingRecord url nodeId).id := by
      rw [hrecords, lookup_noted]
      simp [bindingRecord]
    have hkept : Keeps codec (mustKeep url (some (bindingRecord url nodeId).id) invoked
        h.system.db) s := by
      refine hkeeps.mono fun key id hkey => ?_
      rcases hkey with ⟨rfl, hid⟩ | ⟨i, row, -, hopen, -⟩
      · exact .inr ⟨by simp [bindingRecord], rfl, (some.inj hid).symm⟩
      · exact absurd hopen (hnorun i row)
    refine ⟨some (bindingRecord url nodeId).id, ?_⟩
    rcases error with _ | error
    · exact hok.keep (fun i row hopen => absurd hopen (hnorun i row)) ⟨hkept, htied,
        fun _ => ⟨nodeId, rfl, rfl⟩, .inl (idText_ne_empty nodeId), hclient.page,
        hidle _ _ _ _⟩
    refine hok.keep (fun i row hopen => absurd hopen (hnorun i row)) ⟨hkept, htied,
      fun hbeat => ?_, .inr ⟨hpage, hphase⟩, hclient.page, hidle _ _ _ _⟩
    -- a process that has beaten has a binding
    rcases hclient.node hbeat with ⟨n, -, hn⟩
    rw [hunbound] at hn
    simp at hn

lemma HostOK.heartbeat
    (hphase : c.phase = .idle) (hpage : c.page = []) (x : Exchange) (io : FileIo) (version : String)
    (blocked : Option String) : ∃ binding',
      HostOK codec url binding' invoked (h.heartbeat codec url x io version blocked c) := by
  have hlater := rowsLater_heartbeat x
    ⟨c.credential, version, blocked, some c.journal.keys, some maxJournalKeys⟩ h.system.db
  simp only [Host.heartbeat]
  generalize send x.delivery _ h.system.db = result at hlater
  rcases result with ⟨answer, db'⟩
  have hok' : HostOK codec url binding invoked (h.after x db') := hok.later hlater
  rcases answer with _ | error | nodeId
  · exact ⟨binding, hok'⟩
  · exact ⟨binding, hok'⟩
  · exact hok'.tie hc hphase hpage io nodeId

variable {payload : Payload}

lemma HostOK.invoke (hphase : c.phase = .accepted cmd epoch payload) :
    HostOK codec url binding (fun i => invoked i ∨ i = cmd.id)
      (h.run { c with phase := .executing cmd epoch payload }) := by
  rcases hok.busy hc hphase (by simp) with ⟨hclient, hbeat, hlisted, -, hhas, hkeeps⟩
  refine ⟨?_, ?_, hkeeps.disk.imp False.elim, ?_⟩
  · rintro i (hinvoked | rfl)
    · exact hok.rows i hinvoked
    · rcases hlisted with ⟨row, hrow, -⟩
      exact ⟨row, hrow⟩
  · intro i row _
    rcases hclient.node hbeat with ⟨n, -, hn⟩
    exact ⟨n, hn⟩
  · intro c' hc'
    rw [← some.inj hc']
    exact ⟨hkeeps, hclient.tied, hclient.node, .inl hbeat, hclient.page, hlisted, hhas⟩

lemma HostOK.accept (hphase : c.phase = .fetched cmd epoch payload) (io : FileIo) :
    HostOK codec url binding invoked (h.note codec io c ⟨c.key cmd, idText cmd.id, .accepted⟩
      (.accepted cmd epoch payload)) := by
  rcases hok.busy hc hphase (by simp) with ⟨hclient, hbeat, hlisted, hnew, hnone⟩
  refine hok.note hc hbeat io (by simp) (fun e he => absurd (hnone.symm.trans he) (by simp)) ?_
  intro s hkeeps
  refine ⟨hlisted, hnew, hkeeps.memory _ _ (.inr ⟨rfl, rfl⟩), hkeeps.mono fun key id hkey => ?_⟩
  rcases hkey with hbinding | ⟨i, row, n, ⟨hinvoked | rfl, hrow, hopen⟩, hn, rfl, rfl⟩
  · exact .inl (.inl hbinding)
  · exact .inl (.inr ⟨i, row, n, ⟨hinvoked, hrow, hopen⟩, hn, rfl, rfl⟩)
  · exact .inr ⟨hclient.key_of_openRun hbeat hlisted hrow hn, rfl⟩

lemma HostOK.next {page : List ListedCommand} (hpage : c.page = cmd :: page) :
    HostOK codec url binding invoked (h.run { c with page := page, phase := .ready cmd }) := by
  have hclient := hok.agent c hc
  have hbeat : c.nodeID ≠ "" := by
    rcases hclient.beat with hbeat | ⟨hnil, -⟩
    · exact hbeat
    · rw [hpage] at hnil
      simp at hnil
  have hlisted := hclient.page
  rw [hpage, forall_mem_cons] at hlisted
  exact hok.run ⟨hclient.keeps, hclient.tied, hclient.node, .inl hbeat, hlisted.2, hlisted.1⟩

lemma HostOK.record
    {outcome : CommandOutcome} (hphase : c.phase = .ended cmd epoch outcome) (io : FileIo) :
    HostOK codec url binding invoked (h.note codec io c
      ⟨c.key cmd, idText cmd.id, Outcome.ofCommand outcome⟩ (.reporting cmd epoch outcome)) := by
  rcases hok.busy hc hphase (by simp) with ⟨-, hbeat, hlisted, noted, hhas⟩
  refine hok.note hc hbeat io ?_ ?_ fun _ _ => hlisted
  · cases outcome <;> simp [Outcome.ofCommand]
  · intro e he
    rw [hhas, some.injEq] at he
    rw [← he]

/-- What the process does keeps the invariant. -/
lemma HostOK.act (a : Act)
    (ha : a ≠ .invoke) : ∃ binding', HostOK codec url binding' invoked (h.act codec url c a) := by
  have hclient := hok.agent c hc
  have hfacts := hclient.phase
  simp only [Host.act]
  split <;> rename_i hphase
  · split_ifs with hpage
    · exact hok.heartbeat hc hphase hpage _ _ _ _
    · exact ⟨binding, hok⟩
  · split_ifs with hdue
    · exact ⟨binding, hok.run (hclient.startSweep hdue.2.1 (by simp) _ _)⟩
    · exact ⟨binding, hok⟩
  · split_ifs with hdue
    · exact ⟨binding, hok.poll hc hphase hdue.2 _⟩
    · exact ⟨binding, hok⟩
  · cases hpage : c.page with
    | nil => exact ⟨binding, hok⟩
    | cons cmd page => exact ⟨binding, hok.next hc hpage⟩
  · exact ⟨binding, hok.sweep hc hphase _ _⟩
  · exact ⟨binding, hok.makeRoom hc hphase _⟩
  · exact ⟨binding, hok.claim hc hphase _⟩
  · exact ⟨binding, hok.fetch hc hphase _⟩
  · have hidle : ∀ db', PhaseOK codec url binding invoked db' h.disk c .idle := fun _ => trivial
    exact ⟨binding, hok.report hc (hclient.beaten (by simp [hphase])) (fun db' _ => hidle db') _⟩
  · exact ⟨binding, hok.accept hc hphase _⟩
  · exact absurd rfl ha
  · rw [hphase] at hfacts
    exact ⟨binding, hok.run (hclient.moved (hclient.beaten (by simp [hphase])) hfacts)⟩
  · exact ⟨binding, hok.record hc hphase _⟩
  · rename_i cmd epoch outcome x
    have hreported : ∀ db', (∃ row, db'.nodeCommands.get cmd.id = some row ∧ row.isOpen = false) →
        PhaseOK codec url binding invoked db' h.disk c (.reported cmd epoch outcome) :=
      fun _ hended => hended
    exact ⟨binding, hok.report hc (hclient.beaten (by simp [hphase])) hreported _⟩
  · rw [hphase] at hfacts
    exact ⟨binding, hok.settle hc (hclient.beaten (by simp [hphase])) _ hfacts⟩
  · exact ⟨binding, hok⟩

lemma HostOK.crash (env : Environment) (written : ℕ) :
    HostOK codec url binding invoked (h.crash codec url env written c) := by
  have hclient := hok.agent c hc
  simp only [Host.crash]
  cases hnext : (c.nextRecord url env h.system.db).filter fun r => (refusal codec c.journal r).isNone with
  | none => exact hok.gone hok.disk
  | some r =>
    rcases filter_eq_some_iff.mp hnext with ⟨hr, hrefusal⟩
    rcases hclient.nextRecord hr with ⟨hkey, hid, hsettled⟩
    rcases fits_of_refusal (s := ⟨c.journal, h.disk⟩) hkey hid (by simpa using hrefusal) with
      ⟨hfits, hbroken⟩
    have hwhole : DiskKeeps codec (mustKeep url binding invoked h.system.db) h.disk True :=
      hclient.keeps.disk.imp fun _ => hbroken
    exact hok.gone (hwhole.take hfits hsettled written)

end Process

/-- **One event** keeps the invariant, with the command for which the executor was invoked noted. -/
lemma nodeStep_ok (hok : HostOK codec url binding invoked h) (e : NodeEvent) :
    ∃ binding', HostOK codec url binding' (fun i => invoked i ∨ ∃ payload, Invokes h e i payload)
      (nodeStep codec url h e) := by
  by_cases hinvokes : ∃ i payload, Invokes h e i payload
  · rcases hinvokes with ⟨i, payload, rfl, c, cmd, epoch, hc, hphase, rfl⟩
    have hsame : (fun i => invoked i ∨ ∃ payload, Invokes h (.act .invoke) i payload)
        = fun i => invoked i ∨ i = cmd.id := by
      funext i
      refine propext (or_congr_right ⟨?_, ?_⟩)
      · rintro ⟨payload', -, c', cmd', epoch', hc', hphase', rfl⟩
        rw [hc, some.injEq] at hc'
        rw [← hc', hphase, Phase.accepted.injEq] at hphase'
        rw [hphase'.1]
      · rintro rfl
        exact ⟨payload, rfl, c, cmd, epoch, hc, hphase, rfl⟩
    rw [hsame]
    refine ⟨binding, ?_⟩
    simp only [nodeStep, hc, act, hphase]
    exact hok.invoke hc hphase
  · have hsame : (fun i => invoked i ∨ ∃ payload, Invokes h e i payload) = invoked := by
      funext i
      refine propext (or_iff_left fun hi => hinvokes ⟨i, hi⟩)
    rw [hsame]
    simp only [nodeStep]
    split
    · exact ⟨binding, hok.later (rowsLater_commandStep _ _)⟩
    · rename_i hc
      exact hok.start hc _ _ _
    · rename_i hc
      split
      · exact ⟨binding, hok.gone (closeJournal_keeps _ (hok.agent _ hc).keeps)⟩
      · exact ⟨binding, hok⟩
    · rename_i hc
      exact ⟨binding, hok.crash hc _ _⟩
    · rename_i a c hc
      by_cases ha : a = .invoke
      · subst ha
        simp only [act]
        split <;> rename_i heq
        -- only an accepted command is invoked
        case h_11 => exact absurd ⟨_, _, rfl, c, _, _, hc, ‹c.phase = _›, rfl⟩ hinvokes
        case h_16 => exact ⟨binding, hok⟩
        all_goals cases heq
      · exact hok.act hc a ha
    · exact ⟨binding, hok⟩

end Invariant

/-! ## Runs -/

/-- The executor has been invoked for the command in a run. -/
def Invoked (codec : Codec) (url : String) (start : Host) (events : List NodeEvent)
    (i : DocId CommandRow) : Prop :=
  Occurs (nodeStep codec url) start (fun h e => ∃ payload, Invokes h e i payload) events

/-- After any run from a Node that has run nothing, the invariant holds of what has been invoked. -/
lemma hostOK_run {start : Host} (hagent : start.agent = none) (hdisk : start.disk = [])
    (events : List NodeEvent) : ∃ binding,
      HostOK codec url binding (Invoked codec url start events) (run (nodeStep codec url) start events) := by
  refine run_invariant (fun events h => ∃ binding,
    HostOK codec url binding (Invoked codec url start events) h) ?_ ?_ events
  · have hnever : ∀ i, ¬ Invoked codec url start [] i := fun _ => occurs_nil
    refine ⟨none, fun i hi => absurd hi (hnever i), fun i row hopen => absurd hopen.1 (hnever i), ?_, ?_⟩
    · rw [hdisk]
      refine ⟨[], [], ⟨rfl, by simp, by simp⟩, fun _ => rfl, fun _ _ key id hkey => ?_⟩
      rcases hkey with ⟨-, hid⟩ | ⟨i, row, n, hopen, -⟩
      · simp at hid
      · exact absurd hopen.1 (hnever i)
    · intro c hc
      rw [hagent] at hc
      simp at hc
  · rintro events e ⟨binding, hok⟩
    have hsnoc : Invoked codec url start (events ++ [e]) = fun i => Invoked codec url start events i ∨
        ∃ payload, Invokes (run (nodeStep codec url) start events) e i payload := by
      funext i
      exact propext occurs_snoc
    rw [hsnoc]
    exact nodeStep_ok hok e

/-- **Effects happen at most once.**  On a Node whose agent starts with an empty journal, however calls
of the control plane, lost and delivered requests, appends, rewrites, sweeps, crashes and restarts
interleave: once the executor has been invoked for a command it is never invoked for it again. -/
theorem effects_at_most_once (codec : Codec) (url : String) (start : Host)
    (hstart : start.agent = none ∧ start.disk = []) (before middle : List NodeEvent)
    (e e' : NodeEvent) (i : DocId CommandRow) (payload payload' : Payload)
    (h : Invokes (run (nodeStep codec url) start before) e i payload) :
    ¬ Invokes (run (nodeStep codec url) start (before ++ e :: middle)) e' i payload' := by
  rintro ⟨-, c, cmd, epoch, hc, hphase, rfl⟩
  rcases hostOK_run hstart.1 hstart.2 (before ++ e :: middle) with ⟨binding, hok⟩
  have hfacts := (hok.agent c hc).phase
  rw [hphase] at hfacts
  exact hfacts.2.1 ⟨before, e, middle, rfl, payload, h⟩

/-- The command that the process is about to run, with its payload. -/
def Host.accepting (h : Host) : Option (DocId CommandRow × Payload) := h.agent.bind fun c =>
    match c.phase with
    | .accepted cmd _ payload => some (cmd.id, payload)
    | _ => none

/-- The command that the process is about to report, with its outcome. -/
def Host.reporting (h : Host) : Option (DocId CommandRow × CommandOutcome) := h.agent.bind fun c =>
    match c.phase with
    | .reporting cmd _ outcome => some (cmd.id, outcome)
    | _ => none

lemma Host.invokes_of_accepting {h : Host} {i : DocId CommandRow} {payload : Payload}
    (hi : h.accepting = some (i, payload)) : Invokes h (.act .invoke) i payload := by
  rcases bind_eq_some_iff.mp hi with ⟨c, hc, hphase⟩
  split at hphase
  · rename_i cmd epoch payload' heq
    cases some.inj hphase
    exact ⟨rfl, c, cmd, epoch, hc, heq, rfl⟩
  · simp at hphase

/-- A Node with a credential, on which no agent has run yet. -/
def freshHost : Host where
  system :=
    { clock := 0
      db := { emptyDb with
        nodes := .insert .empty ⟨"node", some 0, none, none⟩
        nodeCredentials := .insert .empty ⟨0, "credential", none⟩ } }
  disk := []
  agent := none

def delivered (now : ℤ) : Exchange := ⟨plainEnvironment, now, .answered, true⟩

/-- The agent starts and takes up the first command it is given. -/
def takesUp (now : ℤ) : List NodeEvent := [.start "credential" "agent" .done,
    .act (.heartbeat (delivered now) ⟨.done, .done⟩ "1" none),
    .act (.poll (delivered now)), .act .next, .act (.makeRoom now), .act (.claim (delivered now)),
    .act (.fetch (delivered now))]

/-- A restart is queued, taken up and accepted. -/
def accepts : List NodeEvent :=
  .backend ⟨1, plainEnvironment, .insert ⟨0, "restart:1", .operate ⟨"container.restart", []⟩, none, none, none⟩⟩
    :: takesUp 2 ++ [.act (.accept ⟨.done, .done⟩)]

/-- The agent crashes while the command runs, and takes it up again when its claim has lapsed. -/
theorem effects_at_most_once_of_crash :
    Invokes (run (nodeStep plainCodec "url") freshHost accepts) (.act .invoke) 0
      (.operate ⟨"container.restart", []⟩) ∧
    (run (nodeStep plainCodec "url") freshHost
      (accepts ++ .act .invoke :: .crash plainEnvironment 0 :: takesUp 9999999)).reporting
        = some (0, .unknown) ∧
    ∀ e' payload', ¬ Invokes (run (nodeStep plainCodec "url") freshHost
      (accepts ++ .act .invoke :: .crash plainEnvironment 0 :: takesUp 9999999)) e' 0 payload' := by
  have hinvokes : Invokes (run (nodeStep plainCodec "url") freshHost accepts) (.act .invoke) 0
      (.operate ⟨"container.restart", []⟩) := invokes_of_accepting (by decide)
  refine ⟨hinvokes, by decide, fun e' payload' => ?_⟩
  exact effects_at_most_once plainCodec "url" freshHost ⟨rfl, rfl⟩ accepts
    (.crash plainEnvironment 0 :: takesUp 9999999) (.act .invoke) e' 0 _ payload' hinvokes

end EraInfra.Infra.Agent
