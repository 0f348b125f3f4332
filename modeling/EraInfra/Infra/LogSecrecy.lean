import EraInfra.Infra.LogTails

/-!
# Secrecy of log output

Two histories that differ in what one report uploaded differ in the text of one tail only
(`hide`), so once that tail is gone they have come to the same database: nothing of the text is
left.  `performTail_hide` shows this for one call: a call does with a database whose tail is
hidden what it does with the database itself, up to the text of that tail.
-/

namespace EraInfra.Infra

open DocStore Option Table Except LogTail

variable {db db' : Db} {env : Environment} {now : ℤ} {id : DocId LogTail}

/-- A tail without the text that was uploaded. -/
def LogTail.blank (row : LogTail) : LogTail := { row with text := none, truncated := none }

/-- The database without the text of a tail. -/
def hide (id : DocId LogTail) (db : Db) : Db := db.patchTail id LogTail.blank

/-- A tail that is not there has no text. -/
lemma hide_eq_self (h : db.logTails.get id = none) : hide id db = db := by
  simp only [hide, Db.patchTail, patch_of_get_eq_none h]

/-- Databases that agree up to the text of a tail that is not there agree. -/
lemma eq_of_hide (h : hide id db = hide id db') (hnone : db.logTails.get id = none) : db = db' := by
  have hnone' : db'.logTails.get id = none := by
    have hget := congrArg (fun stored => stored.logTails.get id) h
    simp only [hide, Db.patchTail, get_patch_self, hnone] at hget
    exact map_eq_none_iff.mp hget.symm
  rwa [hide_eq_self hnone, hide_eq_self hnone'] at h

variable {tails : Table LogTail} {caller : ApiCaller} {j : DocId LogTail} {c : DocId CommandRow}

lemma hide_withTails {tails' : Table LogTail}
    (h : tails.patch id LogTail.blank = tails'.patch id LogTail.blank) :
    hide id (db.withTails tails) = hide id (db.withTails tails') := by
  simp only [hide, Db.patchTail, Db.withTails, h]

lemma patch_blank_patch_blank :
    (tails.patch id LogTail.blank).patch id LogTail.blank = tails.patch id LogTail.blank := by
  refine eq_of_get rfl fun j => ?_
  simp only [get_patch]
  split_ifs
  · cases tails.get j <;> rfl
  · rfl

lemma hide_hide : hide id (hide id db) = hide id db := hide_withTails patch_blank_patch_blank

/-! ## One call -/

/-- What does not have to do with tails does the same with a hidden one. -/
lemma hide_natural {x : Db → Result Db}
    (hnatural : ∀ db tails, x (db.withTails tails) = (x db).map (·.withTails tails)) :
    (x (hide id db)).map (hide id) = (x db).map (hide id) := by
  have hhidden : x (hide id db) = (x db).map (·.withTails (db.logTails.patch id LogTail.blank)) :=
    hnatural db _
  rw [hhidden]
  cases hx : x db with
  | error message => rfl
  | ok stored =>
    rw [withTails_of_natural hnatural hx]
    exact congrArg ok (hide_withTails patch_blank_patch_blank)

variable {lines : Option ℤ} {query : LogQuery} {row : LogTail} {result args : ReportArgs}

/-- A request with the new row written once, when its command is known. -/
lemma request_eq : request now caller query lines db = (do
      requireTokenPermission caller .nodeRun
      match resolveRequest now query lines db with
      | .error message => do
          refuseIf (message = notUnique) notUnique
          pure (.error message, db)
      | .ok (nodeId, target, count) => do
          let (c, queued) ← insertNodeCommand now ⟨nodeId, "logs:" ++ idText db.logTails.next,
            .logs (operationFor target count), none, none, none⟩ db
          pure (.ok db.logTails.next, queued.withTails (db.logTails.insert
            { requestedTail now caller nodeId target count with commandId := some c }))) := by
  refine bind_congr fun _ => ?_
  rcases resolveRequest now query lines db with message | resolved
  · rfl
  rcases resolved with ⟨nodeId, target, count⟩
  have hinsert : ∀ input, insertNodeCommand now input
      { db with logTails := db.logTails.insert (requestedTail now caller nodeId target count) }
        = (insertNodeCommand now input db).map (Prod.map (fun c => c) (·.withTails
          (db.logTails.insert (requestedTail now caller nodeId target count)))) :=
    insertNodeCommand_withTails _
  simp only [hinsert]
  cases insertNodeCommand now ⟨nodeId, "logs:" ++ idText db.logTails.next,
    .logs (operationFor target count), none, none, none⟩ db with
  | error message => rfl
  | ok queued =>
    simp only [Except.map, ok_bind, Prod.map, Db.patchTail, patch_insert_next, Db.withTails]

lemma patch_blank_insert : ((tails.patch id LogTail.blank).insert row).patch id LogTail.blank
      = (tails.insert row).patch id LogTail.blank := by
  refine eq_of_get rfl fun j => ?_
  simp only [get_patch, get_insert, next_patch]
  split_ifs
  · rfl
  · cases tails.get j <;> rfl
  · rfl
  · rfl

lemma request_hide : ((request now caller query lines (hide id db)).map Prod.snd).map (hide id)
      = ((request now caller query lines db).map Prod.snd).map (hide id) := by
  have hresolve : resolveRequest now query lines (hide id db) = resolveRequest now query lines db := rfl
  have hnext : (hide id db).logTails.next = db.logTails.next := rfl
  have hinsert : ∀ input, insertNodeCommand now input (hide id db) = (insertNodeCommand now input db).map
      (Prod.map (fun c => c) (·.withTails (db.logTails.patch id blank))) :=
    insertNodeCommand_withTails _
  rw [request_eq, request_eq]
  simp only [hresolve, hnext, hinsert, map_of_bind]
  refine bind_congr fun _ => ?_
  rcases resolveRequest now query lines db with message | resolved
  · by_cases hthrown : message = notUnique
    · simp only [refuseIf, if_pos hthrown]
      rfl
    · simp only [refuseIf, if_neg hthrown]
      exact congrArg ok hide_hide
  rcases resolved with ⟨nodeId, target, count⟩
  simp only
  cases insertNodeCommand now ⟨nodeId, "logs:" ++ idText db.logTails.next,
    .logs (operationFor target count), none, none, none⟩ db with
  | error message => rfl
  | ok queued => exact congrArg ok (hide_withTails patch_blank_insert)

lemma patch_blank_delete : ((tails.patch id LogTail.blank).delete j).patch id LogTail.blank
      = (tails.delete j).patch id LogTail.blank := by
  refine eq_of_get rfl fun k => ?_
  simp only [get_patch, get_delete]
  split_ifs
  · rfl
  · cases tails.get k <;> rfl
  · rfl
  · rfl

/-- Whatever is decided by a row of the tails is decided the same by the hidden row. -/
lemma get_hide (j : DocId LogTail) :
    (hide id db).logTails.get j = (db.logTails.get j).map (if j = id then LogTail.blank else fun r => r) := by
  simp only [hide, Db.patchTail, get_patch]
  split_ifs
  · rfl
  · simp

lemma hide_discard {row' : LogTail} (hrow : row'.commandId = row.commandId) :
    hide id (discard now j row' (hide id db)) = hide id (discard now j row db) := by
  have hcommand : ∀ db, discard now j row' db = discard now j row db := by
    intro db
    simp only [discard, hrow]
  have hself : discard now j row db = (discard now j row db).withTails (db.logTails.delete j) :=
    discard_withTails db.logTails j row
  have hhidden : discard now j row (hide id db)
      = (discard now j row db).withTails ((db.logTails.patch id blank).delete j) :=
    discard_withTails _ j row
  rw [hcommand, hhidden, hself]
  exact hide_withTails patch_blank_delete

lemma expire_hide (j : DocId LogTail) :
    hide id (expire now j (hide id db)) = hide id (expire now j db) := by
  simp only [expire, get_hide]
  cases db.logTails.get j with
  | none => exact hide_hide
  | some row =>
    refine hide_discard ?_
    split_ifs <;> rfl

lemma consume_hide {j : Option (DocId LogTail)} :
    ((consume now caller j (hide id db)).map Prod.snd).map (hide id)
      = ((consume now caller j db).map Prod.snd).map (hide id) := by
  simp only [consume, map_of_bind]
  refine bind_congr fun _ => ?_
  rcases j with _ | j
  · exact congrArg ok hide_hide
  simp only [get_hide]
  rcases db.logTails.get j with _ | row
  · exact congrArg ok hide_hide
  have hblank : ∃ row', Option.map (if j = id then blank else fun r => r) (some row)
      = some row' ∧ row'.requesterTokenId = row.requesterTokenId ∧
        row'.expiresAt = row.expiresAt ∧ row'.state = row.state ∧
        row'.commandId = row.commandId := by
    split_ifs
    · exact ⟨row.blank, rfl, rfl, rfl, rfl, rfl⟩
    · exact ⟨row, rfl, rfl, rfl, rfl, rfl⟩
  rcases hblank with ⟨row', hrow', htoken, hexpires, hstate, hcommand⟩
  simp only [hrow', htoken, hexpires, hstate]
  split_ifs
  · exact congrArg ok hide_hide
  · exact congrArg ok (hide_discard hcommand)
  · cases row.state with
    | pending => exact congrArg ok hide_hide
    | failed | ready => exact congrArg ok (hide_withTails patch_blank_delete)

/-! ## Reports -/

/-- Writes to one row, of which one is hidden. -/
lemma patch_blank_patch {f g : LogTail → LogTail}
    (hself : ∀ row, (f row.blank).blank = (g row).blank) (hother : ∀ row, f row = g row ∨ j = id) :
    ((tails.patch id LogTail.blank).patch j f).patch id LogTail.blank
      = (tails.patch j g).patch id LogTail.blank := by
  refine eq_of_get rfl fun k => ?_
  simp only [get_patch]
  rcases tails.get k with _ | row
  · split_ifs <;> rfl
  by_cases hk : k = id <;> by_cases hj : k = j
  · simp [hk, hj.symm.trans hk, hself]
  · simp only [if_pos hk, if_neg hj]
    rfl
  · have hne : j ≠ id := fun hid => hk (hj.trans hid)
    simp [hj, hne, (hother row).resolve_right hne]
  · simp only [if_neg hk, if_neg hj]

lemma unique_hide (c : DocId CommandRow) :
    (hide id db).logTails.unique notUnique (fun row => row.commandId = some c)
      = (db.logTails.unique notUnique fun row => row.commandId = some c).map
        (Option.map fun r => (r.1, if r.1 = id then r.2.blank else r.2)) := by
  have hcollect : (hide id db).logTails.collect (fun row => row.commandId = some c)
      = (db.logTails.collect fun row => row.commandId = some c).map
        fun r => (r.1, if r.1 = id then r.2.blank else r.2) :=
    collect_patch fun row _ => rfl
  simp only [unique, hcollect]
  rcases db.logTails.collect fun row => row.commandId = some c with _ | ⟨r, _ | ⟨r', l⟩⟩ <;> rfl

lemma recordLogOutput_hide : (recordLogOutput env c result (hide id db)).map (hide id)
      = (recordLogOutput env c result db).map (hide id) := by
  simp only [recordLogOutput, unique_hide]
  rcases db.logTails.unique notUnique fun row => row.commandId = some c with message | found
  · rfl
  rcases found with _ | entry
  · exact congrArg ok hide_hide
  have hstate : (if entry.1 = id then entry.2.blank else entry.2).state = entry.2.state := by
    split_ifs <;> rfl
  simp only [Except.map, ok_bind, map_some, hstate]
  split_ifs
  · exact congrArg ok hide_hide
  · refine congrArg ok (hide_withTails (patch_blank_patch (fun _ => rfl) ?_))
    exact fun _ => .inl rfl
  cases decodeBase64 env (result.output.getD "") with
  | none => rfl
  | some bytes =>
    simp only [refuseIf]
    split_ifs
    · rfl
    · refine congrArg ok (hide_withTails (patch_blank_patch (fun _ => rfl) ?_))
      exact fun _ => .inl rfl

lemma bind_patchCommand_hide {x y : Result Db} {f : CommandRow → CommandRow}
    (h : x.map (hide id) = y.map (hide id)) :
    (x >>= fun stored => (pure (stored.patchCommand c f) : Result Db).map (hide id))
      = y >>= fun stored => (pure (stored.patchCommand c f) : Result Db).map (hide id) := by
  cases x <;> cases y <;> simp only [Except.map, reduceCtorEq, Except.ok.injEq] at h
  · exact h
  · have hpatch : ∀ stored : Db, hide id (stored.patchCommand c f) = (hide id stored).patchCommand c f :=
      fun _ => rfl
    simp only [ok_bind, Except.map, Pure.pure, Except.pure, hpatch, h]

lemma report_hide :
    (report env now args (hide id db)).map (hide id) = (report env now args db).map (hide id) := by
  have hown : ownCommand env args.credential args.commandId (hide id db)
      = ownCommand env args.credential args.commandId db := rfl
  have hclaimed : claimed env now args.toClaimArgs (hide id db) = claimed env now args.toClaimArgs db :=
    rfl
  simp only [report, map_of_bind]
  refine bind_congr fun row => ?_
  split_ifs
  · exact congrArg ok hide_hide
  · simp only [map_of_bind]
    refine bind_congr fun _ => bind_congr fun _ => bind_congr fun _ => bind_congr fun _ => ?_
    exact bind_patchCommand_hide recordLogOutput_hide
  · simp only [map_of_bind]
    refine bind_congr fun _ => bind_congr fun _ => bind_congr fun _ => bind_congr fun _ => ?_
    exact bind_patchCommand_hide (congrArg ok hide_hide)

/-- **One call.**  Up to the text of a tail, what a call does does not depend on that text. -/
lemma performTail_hide {call : TailCall} : (performTail env now call (hide id db)).map (hide id)
      = (performTail env now call db).map (hide id) := by
  cases call with
  | call call ofTails =>
    cases call with
    | request caller query lines => exact request_hide
    | consume caller j => exact consume_hide
    | expire j => exact congrArg ok (expire_hide j)
    | report args => exact report_hide
    | enqueue user nodeId key command =>
      exact hide_natural fun _ tails => map_snd_withTails (enqueue_withTails tails user nodeId key command)
    | claim credential commandId owner =>
      exact hide_natural fun _ tails =>
        map_snd_withTails (claim_withTails tails credential commandId owner)
    | renew args => exact hide_natural fun _ tails => map_snd_withTails (renew_withTails tails args)
    | cancel user commandId => exact hide_natural fun _ tails => cancel_withTails tails user commandId
    | _ => simp [Call.isOfTails] at ofTails
  | insert input =>
    exact hide_natural fun _ tails => map_snd_withTails (insertNodeCommand_withTails tails input)
  | elsewhere other =>
    exact hide_natural (x := performTail env now (.elsewhere other)) fun _ _ => rfl

/-! ## Two histories -/

/-- Two systems that agree up to the text of a tail still do after a call. -/
lemma tailStep_hide {s s' : System} {e : TailEvent} (h : hide id s.db = hide id s'.db) :
    hide id (tailStep s e).db = hide id (tailStep s' e).db := by
  have hperform : (performTail e.env e.now e.call s.db).map (hide id)
      = (performTail e.env e.now e.call s'.db).map (hide id) := by
    rw [← performTail_hide, h, performTail_hide]
  simp only [tailStep]
  cases hs : performTail e.env e.now e.call s.db <;> cases hs' : performTail e.env e.now e.call s'.db <;>
    simp only [hs, hs', Except.map, reduceCtorEq, Except.ok.injEq] at hperform
  · exact h
  · exact hperform

lemma run_hide {s s' : System} (h : hide id s.db = hide id s'.db) (calls : List TailEvent) :
    hide id (run tailStep s calls).db = hide id (run tailStep s' calls).db := by
  induction calls generalizing s s' with
  | nil => exact h
  | cons e calls ih => exact ih (tailStep_hide h)

/-- Two uploads under one claim come to the same, up to the text of the tail of its command. -/
lemma recordLogOutput_output {result' : ReportArgs} {stored stored' : Db}
    (houtcome : result'.outcome = result.outcome)
    (h : recordLogOutput env c result db = .ok stored)
    (h' : recordLogOutput env c result' db = .ok stored') :
    stored = stored' ∨ ∃ id row, db.logTails.get id = some row ∧ row.commandId = some c ∧
      hide id stored = hide id stored' := by
  simp only [recordLogOutput, houtcome] at h h'
  rcases hfound : db.logTails.unique notUnique fun row => row.commandId = some c with message | found
  · rw [hfound] at h
    cases h
  rw [hfound, ok_bind] at h h'
  rcases found with _ | entry
  · exact .inl (ok.inj (h.symm.trans h'))
  rcases unique_some hfound with ⟨hrow, hcommand, -⟩
  simp only at h h'
  split_ifs at h h'
  · exact .inl (ok.inj (h.symm.trans h'))
  · exact .inl (ok.inj (h.symm.trans h'))
  refine .inr ⟨entry.1, entry.2, hrow, of_decide_eq_true hcommand, ?_⟩
  have hready : ∀ bytes truncated,
      hide entry.1 (db.patchTail entry.1 (readyTail env bytes truncated)) = hide entry.1
        (db.patchTail entry.1 fun row => { row with state := .ready }) := by
    intro bytes truncated
    refine hide_withTails (eq_of_get rfl fun k => ?_)
    simp only [get_patch]
    split_ifs
    · cases db.logTails.get k <;> rfl
    · rfl
  split at h
  · cases h
  split at h'
  · cases h'
  rw [refuseIf_bind_ok, pure_ok] at h h'
  rw [← h.2, ← h'.2, hready, hready]

/-- Two reports that differ in what they upload come to the same, up to the text of that tail. -/
lemma report_output {output : Option String} {truncated : Option Bool}
    {stored stored' : Db} (h : report env now args db = .ok stored)
    (h' : report env now { args with output := output, truncated := truncated } db = .ok stored') :
    stored = stored' ∨ ∃ id row, db.logTails.get id = some row ∧ row.commandId = some args.commandId ∧
      hide id stored = hide id stored' := by
  simp only [report] at h h'
  rw [bind_ok] at h h'
  rcases h with ⟨row, hown, h⟩
  rcases h' with ⟨row', hown', h'⟩
  cases hown'.symm.trans hown
  split_ifs at h h' with hlogs
  · exact .inl (ok.inj (h.symm.trans h'))
  all_goals
    rw [bind_ok] at h h'
    rcases h with ⟨_, -, h⟩
    rcases h' with ⟨_, -, h'⟩
    rw [refuseIf_bind_ok, refuseIf_bind_ok, refuseIf_bind_ok, bind_ok] at h h'
    rcases h with ⟨-, -, -, written, hwritten, h⟩
    rcases h' with ⟨-, -, -, written', hwritten', h'⟩
    rw [pure_ok] at h h'
    subst h
    subst h'
  · have houtcome : { args with output := output, truncated := truncated }.outcome = args.outcome := rfl
    rcases recordLogOutput_output houtcome hwritten hwritten' with rfl | ⟨id, tail, htail, hbound, hhide⟩
    · exact .inl rfl
    · exact .inr ⟨id, tail, htail, hbound,
        congrArg (·.patchCommand args.commandId (reportedRow now args.outcome args.spec)) hhide⟩
  · rw [pure_ok] at hwritten hwritten'
    exact .inl (by rw [← hwritten, ← hwritten'])

section Histories

variable {start : System} {before : List TailEvent} {e : TailEvent}

/-- What is known of a tail that is read. -/
lemma reads_eq {s : System} {text : String} (h : Reads s e id caller text) :
    ∃ row, s.db.logTails.get id = some row ∧ row.requesterTokenId = caller.tokenId ∧
      e.now < row.expiresAt ∧ row.state = .ready ∧ text = row.text.getD "" ∧
      (tailStep s e).db.logTails = s.db.logTails.delete id := by
  rcases h with ⟨truncated, lines, target, ofTails, read, hcall, hconsume⟩
  have hstep : (tailStep s e).db = read := by
    simp only [tailStep, performTail, hcall, perform, hconsume]
    rfl
  rw [hstep]
  rcases consume_ok hconsume with ⟨-, hready⟩ |
    ⟨row, hrow, htoken, ⟨hgone, -⟩ | ⟨hexpires, -, rfl, hready⟩⟩
  · exact absurd rfl (hready text truncated lines target)
  · simp at hgone
  · rcases hready text truncated lines target rfl with ⟨hstate, htext⟩
    exact ⟨row, hrow, htoken, hexpires, hstate, htext, rfl⟩

/-- A tail that has been read, or whose expiry has run, is gone. -/
lemma gone_of_ends (hstart : start.db.logTails.rows = []) {row : LogTail}
    (hrow : (run tailStep start before).db.logTails.get id = some row) (hc : row.commandId = some c)
    (hends : (∃ caller text, Reads (run tailStep start before) e id caller text) ∨ Expires e id) :
    Gone (tailStep (run tailStep start before) e).db id c := by
  have hok := tailsOK_run hstart before
  rcases hok.bound id row hrow with ⟨c', command, hc', hcommand, hkey, -, hstate⟩
  have hcc : c' = c := some.inj (hc'.symm.trans hc)
  subst hcc
  rcases tailStep_later (e := e) hcommand with ⟨command', hcommand', hlater⟩
  have hdeleted : (tailStep (run tailStep start before) e).db.logTails
      = (run tailStep start before).db.logTails.delete id ∧ command'.isOpen = false := by
    rcases hends with ⟨caller, text, hreads⟩ | ⟨ofTails, hcall⟩
    · rcases reads_eq hreads with ⟨row', hrow', -, -, hready, -, htails⟩
      cases hrow.symm.trans hrow'
      refine ⟨htails, hlater.isOpen_eq_false (hstate.resolve_left ?_)⟩
      rw [hready]
      simp
    · have hstep : (tailStep (run tailStep start before) e).db
          = discard e.now id row (run tailStep start before).db := by
        simp only [tailStep, performTail, hcall, perform, expire, hrow]
        rfl
      rw [hstep] at hcommand' ⊢
      exact ⟨(discard_eq row).1, (discard_eq row).2 c' command' hc hcommand'⟩
  refine ⟨?_, ?_, fun j other hj hother => ?_, command', hcommand', hlater.key.trans hkey, hdeleted.2⟩
  · rw [hdeleted.1, next_delete]
    exact get_lt hrow
  · rw [hdeleted.1, get_delete_self]
  rw [hdeleted.1] at hj
  rcases get_delete_eq_some.mp hj with ⟨hne, hold⟩
  rcases hok.bound j other hold with ⟨c'', stored, hc'', hstored, hkey', -⟩
  cases hc''.symm.trans hother
  rw [hcommand, some.injEq] at hstored
  subst hstored
  exact hne (logsKey_inj (hkey'.symm.trans hkey))

end Histories

/-- **Log output is read once, by the token that asked for it.**  However requests, reads and expiries
of log tails and calls about commands interleave, starting with no tails:

* two reads are of two tails, with two commands;
* a tail is read by the token that asked for it and before it expires, and the text is what the
      tail's Node uploaded in a successful report of the tail's command under a live claim;
* once a tail has been read, or its expiry has run, it is gone and stays so, no other one has
      its command, and the command has ended: it can neither be claimed nor run, and a report of
      it changes nothing;
* two histories that differ in what one report uploaded have come to the same database once
      the tail of its command is gone;
* a token that has not asked for a tail is answered `gone`. -/
theorem log_output_read_once (start : System) (events : List TailEvent)
    (hstart : start.db.logTails.rows = []) :
    (∀ before e middle e' after id id' caller caller' text text',
      events = before ++ e :: (middle ++ e' :: after) →
      Reads (run tailStep start before) e id caller text →
      Reads (run tailStep start (before ++ e :: middle)) e' id' caller' text' →
      id ≠ id' ∧ ∀ row row', (run tailStep start before).db.logTails.get id = some row →
        (run tailStep start (before ++ e :: middle)).db.logTails.get id' = some row' →
        row.commandId ≠ row'.commandId) ∧
    (∀ before e after id caller text, events = before ++ e :: after →
      Reads (run tailStep start before) e id caller text →
      ∃ row c, (run tailStep start before).db.logTails.get id = some row ∧ row.commandId = some c ∧
        row.requesterTokenId = caller.tokenId ∧ e.now < row.expiresAt ∧
        Occurs tailStep start (fun s d => ∃ asker, Asks s d id asker ∧ asker.tokenId = caller.tokenId ∧
          row.expiresAt = d.now + logTtlMs) before ∧
        Occurs tailStep start (fun s d => Uploads s d c row.nodeId text) before) ∧
    (∀ before e after id row c, events = before ++ e :: after →
      (run tailStep start before).db.logTails.get id = some row → row.commandId = some c →
      (∃ caller text, Reads (run tailStep start before) e id caller text) ∨ Expires e id →
      (run tailStep start events).db.logTails.get id = none ∧
      (∀ j other, (run tailStep start events).db.logTails.get j = some other →
        other.commandId ≠ some c) ∧
      (∃ command, (run tailStep start events).db.nodeCommands.get c = some command ∧
        command.isOpen = false) ∧
      (∀ env now credential owner answer,
        claim env now credential c owner (run tailStep start events).db ≠ .ok answer) ∧
      (∀ env now args answer, args.commandId = c →
        payload env now args (run tailStep start events).db ≠ .ok answer) ∧
      ∀ env now args db', args.commandId = c →
        report env now args (run tailStep start events).db = .ok db' →
        db' = (run tailStep start events).db) ∧
    (∀ before now env args ofTails after output truncated stored stored',
      events = before ++ ⟨now, env, .call (.report args) ofTails⟩ :: after →
      report env now args (run tailStep start before).db = .ok stored →
      report env now { args with output := output, truncated := truncated }
        (run tailStep start before).db = .ok stored' →
      (∀ id row, (run tailStep start before).db.logTails.get id = some row →
        row.commandId = some args.commandId → (run tailStep start events).db.logTails.get id = none) →
      (run tailStep start (before ++ ⟨now, env, .call
        (.report { args with output := output, truncated := truncated }) rfl⟩ :: after)).db
          = (run tailStep start events).db) ∧
    ∀ before e after id caller ofTails answer db', events = before ++ e :: after →
      e.call = .call (.consume caller (some id)) ofTails →
      consume e.now caller (some id) (run tailStep start before).db = .ok (answer, db') →
      (¬ Occurs tailStep start (fun s d => ∃ asker, Asks s d id asker ∧
        asker.tokenId = caller.tokenId) before) →
      answer = .gone ∧ db' = (run tailStep start before).db := by
  refine ⟨?_, ?_, ?_, ?_, ?_⟩
  · rintro before e middle e' after id id' caller caller' text text' - hreads hreads'
    rcases reads_eq hreads with ⟨row, hrow, -⟩
    rcases reads_eq hreads' with ⟨row', hrow', -⟩
    rcases (tailsOK_run hstart before).bound id row hrow with ⟨c, -, hc, -⟩
    have hgone : Gone (run tailStep start (before ++ e :: middle)).db id c := by
      rw [run_append]
      exact (gone_of_ends hstart hrow hc (.inl ⟨caller, text, hreads⟩)).run middle
    refine ⟨?_, fun other other' hother hother' => ?_⟩
    · rintro rfl
      rw [hgone.gone] at hrow'
      simp at hrow'
    · rw [hrow, some.injEq] at hother
      rw [← hother, hc]
      exact (hgone.alone id' other' hother').symm
  · rintro before e after id caller text - hreads
    have hok := tailsOK_run hstart before
    rcases reads_eq hreads with ⟨row, hrow, htoken, hexpires, hready, rfl, -⟩
    rcases hok.bound id row hrow with ⟨c, -, hc, -⟩
    refine ⟨row, c, hrow, hc, htoken, hexpires, ?_, hok.uploaded id row c hrow hc hready⟩
    rw [← htoken]
    exact hok.asked id row hrow
  · rintro before e after id row c rfl hrow hc hends
    have hgone : Gone (run tailStep start (before ++ e :: after)).db id c := by
      rw [run_append]
      exact (gone_of_ends hstart hrow hc hends).run after
    rcases hgone.ended with ⟨command, hcommand, -, hclosed⟩
    refine ⟨hgone.gone, hgone.alone, ⟨command, hcommand, hclosed⟩,
      fun env now => (refused_of_ended hcommand hclosed).1, ?_, ?_⟩
    · intro env now args answer hargs hpayload
      simp only [payload] at hpayload
      rcases bind_ok.mp hpayload with ⟨claimant, hclaimed, -⟩
      exact (refused_of_ended hcommand hclosed).2 args claimant hargs hclaimed
    · intro env now args db' hargs hreport
      rcases report_ok hreport with ⟨rfl, -⟩ | ⟨claimant, -, hclaimed, -⟩
      · rfl
      · exact absurd hclaimed ((refused_of_ended hcommand hclosed).2 args.toClaimArgs claimant hargs)
  · rintro before now env args ofTails after output truncated stored stored' rfl hreport hreport' hgone
    have hstep : tailStep (run tailStep start before) ⟨now, env, .call (.report args) ofTails⟩
        = ⟨stored, now⟩ := by
      simp only [tailStep, performTail, perform, hreport]
      rfl
    have hstep' : tailStep (run tailStep start before) ⟨now, env, .call
        (.report { args with output := output, truncated := truncated }) rfl⟩ = ⟨stored', now⟩ := by
      simp only [tailStep, performTail, perform, hreport']
      rfl
    have hruns : ∀ d, run tailStep start (before ++ d :: after)
        = run tailStep (tailStep (run tailStep start before) d) after := fun d => run_append _ _
    rw [hruns, hstep] at hgone
    rw [hruns, hruns, hstep, hstep']
    rcases report_output hreport hreport' with rfl | ⟨id, row, hrow, hbound, hhide⟩
    · rfl
    · exact (eq_of_hide (run_hide hhide after) (hgone id row hrow hbound)).symm
  · rintro before e after id caller ofTails answer db' - hcall hconsume hnever
    have hother : ∀ row, (run tailStep start before).db.logTails.get id = some row →
        row.requesterTokenId ≠ caller.tokenId := by
      intro row hrow htoken
      refine hnever (((tailsOK_run hstart before).asked id row hrow).imp ?_)
      rintro s d ⟨asker, hasks, hasker, -⟩
      exact ⟨asker, hasks, hasker.trans htoken⟩
    simp only [consume] at hconsume
    rcases bind_ok.mp hconsume with ⟨_, -, hconsume⟩
    cases hrow : (run tailStep start before).db.logTails.get id with
    | none =>
      simp only [hrow] at hconsume
      cases hconsume
      exact ⟨rfl, rfl⟩
    | some row =>
      simp only [hrow, if_pos (hother row hrow)] at hconsume
      cases hconsume
      exact ⟨rfl, rfl⟩

/-- A Node that is online. -/
def liveNode : System where
  clock := 0
  db := { emptyDb with
    nodes := .insert .empty ⟨"node", some 0, none, none⟩
    nodeCredentials := .insert .empty ⟨0, "credential", none⟩ }

/-- An administrator's token. -/
def reader (tokenId : DocId ApiToken) : ApiCaller := ⟨tokenId, "reader", .admin⟩

/-- A tail is asked for, collected from its Node and read. -/
def askedAndRead : List TailEvent := [⟨1, plainEnvironment, .call
      (.request (reader 7) ⟨none, none, some "node", some "erainfra-agent"⟩ none) rfl⟩,
    ⟨2, plainEnvironment, .call (.claim "credential" 0 "agent") rfl⟩,
    ⟨3, plainEnvironment, .call
      (.report ⟨⟨"credential", 0, "agent", 1⟩, .success, none, some "text", none⟩) rfl⟩,
    ⟨4, plainEnvironment, .call (.consume (reader 7) (some 0)) rfl⟩]

theorem log_output_read_once_of_askedAndRead :
    Reads (run tailStep liveNode (askedAndRead.take 3))
      ⟨4, plainEnvironment, .call (.consume (reader 7) (some 0)) rfl⟩ 0 (reader 7) "text" ∧
    Occurs tailStep liveNode (fun s d => Uploads s d 0 0 "text") (askedAndRead.take 3) ∧
    (run tailStep liveNode askedAndRead).db.logTails.get 0 = none := by
  have hanswer : ((consume 4 (reader 7) (some 0)
      (run tailStep liveNode (askedAndRead.take 3)).db).map Prod.fst).toOption
        = some (.ready "text" false 100 (.unit "erainfra-agent")) := by
    decide
  have hread : Reads (run tailStep liveNode (askedAndRead.take 3))
      ⟨4, plainEnvironment, .call (.consume (reader 7) (some 0)) rfl⟩ 0 (reader 7) "text" := by
    cases hconsume : consume 4 (reader 7) (some 0) (run tailStep liveNode (askedAndRead.take 3)).db with
    | error message =>
      rw [hconsume] at hanswer
      simp [Except.map, Except.toOption] at hanswer
    | ok read =>
      rw [hconsume, Except.map, Except.toOption, some.injEq] at hanswer
      refine ⟨false, 100, .unit "erainfra-agent", rfl, read.2, rfl, ?_⟩
      rw [← hanswer]
      exact hconsume
  have hall := log_output_read_once liveNode askedAndRead rfl
  have hrow : ((run tailStep liveNode (askedAndRead.take 3)).db.logTails.get 0).map
      (fun row => (row.commandId, row.nodeId)) = some (some 0, 0) := by
    decide
  rcases map_eq_some_iff.mp hrow with ⟨row, hget, hrow⟩
  rcases Prod.mk.inj hrow with ⟨hcommand, hnode⟩
  rcases hall.2.1 (askedAndRead.take 3) _ [] 0 (reader 7) "text" rfl hread with
    ⟨row', c, hget', hc, -, -, -, huploads⟩
  cases hget.symm.trans hget'
  rw [hcommand, some.injEq] at hc
  subst hc
  rw [hnode] at huploads
  exact ⟨hread, huploads, (hall.2.2.1 (askedAndRead.take 3) _ [] 0 row 0 rfl hget hcommand
    (.inl ⟨reader 7, "text", hread⟩)).1⟩

end EraInfra.Infra
