import EraInfra.Protocol.AttemptRules

/-!
# What the scheduler places

`AttemptScheduler.tryAssign` works on a snapshot and writes back at the end.  `tryAssign_cases`
says what that comes to: a list of placements of waiting work, each row at most once, and for each
online Worker a slot count that has grown by the number of placements on it.  What it decides — who
is placed where — plays no part.
-/

namespace EraInfra

open DocStore List Option Table OrderedMap

variable {js : Engine} {now : ℤ} {db db' : Db}

/-! ## Items and placements -/

/-- The row an item of the queue stands for. -/
def WorkItem.key : WorkItem → DocId Attempt ⊕ DocId Experiment
  | .attempt i _ => .inl i
  | .experiment i _ => .inr i

/-- The row is there and has no Worker. -/
def WorkItem.Waits (db : Db) : WorkItem → Prop
  | .attempt i _ => ∃ a, db.attempts.get i = some a ∧ a.state = .pending ∧ a.machineId = none
  | .experiment i _ => ∃ e, db.experiments.get i = some e ∧ e.state = .queued ∧ e.machineId = none

/-- Whether a placement put its item on this Worker. -/
def placedOn (m : DocId Machine) (placement : WorkItem × Option Assignment) : Bool :=
  placement.2.map Assignment.machineId = some m

variable {snapshot : SchedulerSnapshot}

section

variable (hattempts : snapshot.pendingAttempts = db.attempts.collect fun a => a.state = .pending)
  (hexperiments : snapshot.queuedExperiments = db.experiments.collect fun e => e.state = .queued)

include hattempts hexperiments

lemma unassignedQueue_waits
    {item : WorkItem} (h : item ∈ unassignedQueue snapshot) : item.Waits db := by
  have hmem := mem_of_mem_filter ((mem_insertionSort _).mp h)
  rcases List.mem_append.mp hmem with hmem | hmem
  · obtain ⟨⟨i, a⟩, hr, rfl⟩ := List.mem_map.mp hmem
    obtain ⟨hr, hnone⟩ := List.mem_filter.mp hr
    rw [hattempts] at hr
    obtain ⟨hget, hstate⟩ := mem_collect.mp hr
    exact ⟨a, hget, by simpa using hstate, by simpa using hnone⟩
  · obtain ⟨⟨i, e⟩, hr, rfl⟩ := List.mem_map.mp hmem
    obtain ⟨hr, hnone⟩ := List.mem_filter.mp hr
    rw [hexperiments] at hr
    obtain ⟨hget, hstate⟩ := mem_collect.mp hr
    exact ⟨e, hget, by simpa using hstate, by simpa using hnone⟩

/-- No row is in the queue twice. -/
lemma unassignedQueue_nodup : ((unassignedQueue snapshot).map WorkItem.key).Nodup := by
  have hperm : ((unassignedQueue snapshot).map WorkItem.key).Perm _ :=
    (perm_insertionSort _ _).map WorkItem.key
  rw [hperm.nodup_iff]
  refine List.Nodup.sublist (filter_sublist.map _) ?_
  rw [map_append, List.map_map, List.map_map, hattempts, hexperiments]
  refine nodup_append.mpr ⟨?_, ?_, ?_⟩
  · rw [nodup_iff_pairwise_ne, pairwise_map]
    exact (collect_nodup.sublist filter_sublist).imp fun hne h => hne (Sum.inl.inj h)
  · rw [nodup_iff_pairwise_ne, pairwise_map]
    exact (collect_nodup.sublist filter_sublist).imp fun hne h => hne (Sum.inr.inj h)
  · intro x hx y hy hxy
    obtain ⟨r, -, rfl⟩ := mem_map.mp hx
    obtain ⟨s, -, rfl⟩ := mem_map.mp hy
    simp [WorkItem.key] at hxy

end

/-! ## The ledger -/

variable {work : WorkContract} {ledger : Ledger}

/-- Placing one item leaves the ledger alone, or counts one more slot on a Worker of the
snapshot. -/
lemma placeOne_cases {ledger' : Ledger}
    {placed : Option Assignment} (h : placeOne js snapshot ledger work = (placed, ledger')) :
    (placed = none ∧ ledger' = ledger) ∨ ∃ assignment machine, placed = some assignment ∧
        snapshot.machineById.find assignment.machineId = some machine ∧
        ledger'.usedSlotsByMachine = ledger.usedSlotsByMachine.set assignment.machineId
          ((ledger.usedSlotsByMachine.find assignment.machineId).getD 0 + 1) := by
  unfold placeOne at h
  split at h
  · cases h
    exact .inl ⟨rfl, rfl⟩
  rename_i candidate rest hcandidates
  cases h
  have hmem : candidate ∈ candidatesFor js snapshot ledger work := by simp [hcandidates]
  -- a Worker is a candidate only if it is in the snapshot
  obtain ⟨readiness, -, hsome⟩ := mem_filterMap.mp ((mem_insertionSort _).mp hmem)
  dsimp only at hsome
  split at hsome
  · obtain ⟨machine, hmachine, hcandidate⟩ := bind_eq_some_iff.mp hsome
    obtain ⟨-, hcandidate⟩ := ite_none_left_eq_some.mp hcandidate
    rw [← some.inj hcandidate]
    exact .inr ⟨_, machine, rfl, hmachine, rfl⟩
  · simp at hsome

/-- **Placing the queue.**  One placement per item, in order; a Worker of the snapshot is counted
one slot more per placement on it, and no other Worker gets any. -/
lemma placeInOrder_spec {items : List WorkItem} :
    ∀ {ledger ledger' : Ledger} {placements : List (WorkItem × Option Assignment)},
      placeInOrder js snapshot ledger items = (placements, ledger') →
      OrderedMap.Distinct ledger.usedSlotsByMachine →
      placements.map Prod.fst = items ∧
      OrderedMap.Distinct ledger'.usedSlotsByMachine ∧
      (∀ m, (∃ machine, snapshot.machineById.find m = some machine) →
        ∀ n, ledger.usedSlotsByMachine.find m = some n →
          ledger'.usedSlotsByMachine.find m = some (n + placements.countP (placedOn m))) ∧
      ∀ placement ∈ placements, ∀ assignment, placement.2 = some assignment →
        ∃ machine, snapshot.machineById.find assignment.machineId = some machine := by
  induction items with
  | nil =>
    intro ledger ledger' placements h hdistinct
    cases h
    exact ⟨rfl, hdistinct, fun m _ n hn => by simpa using hn, by simp⟩
  | cons item items ih =>
    intro ledger ledger' placements h hdistinct
    cases hone : placeOne js snapshot ledger item.work with
    | mk placed ledger₁ =>
      cases hrest : placeInOrder js snapshot ledger₁ items with
      | mk placements₁ ledger₂ =>
        rw [placeInOrder, hone] at h
        dsimp only at h
        rw [hrest] at h
        cases h
        rcases placeOne_cases hone with
          ⟨rfl, rfl⟩ | ⟨assignment, machine, rfl, hmachine, hused⟩
        · obtain ⟨hfst, hdis, hcount, honline⟩ := ih hrest hdistinct
          refine ⟨by rw [map_cons, hfst], hdis, fun m hm n hn => ?_, ?_⟩
          · exact hcount m hm n hn
          · intro placement hmem assignment hsome
            rcases mem_cons.mp hmem with rfl | hmem
            · simp at hsome
            · exact honline placement hmem assignment hsome
        · have hdis₁ : OrderedMap.Distinct ledger₁.usedSlotsByMachine := by
            rw [hused]
            exact distinct_set hdistinct
          obtain ⟨hfst, hdis, hcount, honline⟩ := ih hrest hdis₁
          refine ⟨by rw [map_cons, hfst], hdis, fun m hm n hn => ?_, ?_⟩
          · by_cases hmine : assignment.machineId = m
            · subst hmine
              rw [countP_cons_of_pos (by simp [placedOn])]
              rw [hcount _ hm (n + 1) (by rw [hused, find_set, if_pos rfl, hn]; rfl)]
              push_cast
              rw [add_assoc, add_comm 1]
            · rw [countP_cons_of_neg (by simpa [placedOn] using hmine)]
              refine hcount m hm n ?_
              rw [hused, find_set, if_neg (Ne.symm hmine), hn]
          · intro placement hmem assignment' hsome
            rcases mem_cons.mp hmem with rfl | hmem
            · cases hsome
              exact ⟨machine, hmachine⟩
            · exact honline placement hmem assignment' hsome

/-- **What `tryAssign` does.**  It changes nothing, or it writes placements of waiting work, each row
at most once and only on Workers it loaded, and then each of those Workers' slot counts, grown
by the placements on it. -/
theorem tryAssign_cases {n : ℕ} (h : AttemptScheduler.tryAssign js now db = .ok (n, db')) :
    db' = db ∨ ∃ (placements : List (WorkItem × Option Assignment))
        (machineById : OrderedMap (DocId Machine) Machine) (slots : OrderedMap (DocId Machine) ℤ),
        db' = slots.foldl (applyUsedSlots machineById) (placements.foldl applyPlacement db) ∧
        (placements.map fun p => p.1.key).Nodup ∧
        (∀ p ∈ placements, p.1.Waits db) ∧
        (∀ p ∈ placements, ∀ assignment, p.2 = some assignment →
          ∃ machine, machineById.find assignment.machineId = some machine) ∧
        OrderedMap.Distinct slots ∧
        ∀ m machine, machineById.find m = some machine → db.machines.get m = some machine ∧
          slots.find m = some (machine.usedSlots + placements.countP (placedOn m)) := by
  unfold AttemptScheduler.tryAssign at h
  dsimp only at h
  split at h
  · cases h
    exact .inl rfl
  obtain ⟨snapshot, hsnapshot, h⟩ := bind_ok.mp h
  obtain ⟨evidence, -, hsnapshot⟩ := bind_ok.mp hsnapshot
  have hsnapshot := pure_ok.mp hsnapshot
  cases hplaced : placeInOrder js snapshot snapshot.ledger (unassignedQueue snapshot) with
  | mk placements ledger =>
    rw [hplaced] at h
    cases h
    have hattempts : snapshot.pendingAttempts
        = db.attempts.collect fun a => a.state = .pending := by rw [← hsnapshot]
    have hexperiments : snapshot.queuedExperiments
        = db.experiments.collect fun e => e.state = .queued := by rw [← hsnapshot]
    let online := db.machines.collect fun machine => machine.lastSeen > now - workerOfflineAfterMs
    have hmachines : snapshot.machineById = ofList online := by rw [← hsnapshot]
    have hslots : snapshot.ledger.usedSlotsByMachine
        = ofList (online.map fun r => (r.1, r.2.usedSlots)) := by rw [← hsnapshot]
    obtain ⟨hfst, hdis, hcount, honline⟩ := placeInOrder_spec hplaced
      (by rw [hslots]; exact distinct_ofList _)
    refine .inr ⟨placements, snapshot.machineById, ledger.usedSlotsByMachine, rfl, ?_, ?_,
      honline, hdis, ?_⟩
    · have := unassignedQueue_nodup hattempts hexperiments
      rwa [← hfst, List.map_map] at this
    · intro p hp
      refine unassignedQueue_waits hattempts hexperiments ?_
      rw [← hfst]
      exact mem_map_of_mem hp
    · intro m machine hm
      have hmem : (m, machine) ∈ online := find_ofList (hmachines ▸ hm)
      refine ⟨(mem_collect.mp hmem).1, hcount m ⟨machine, hm⟩ _ ?_⟩
      have hentry : (m, machine.usedSlots) ∈ online.map fun r => (r.1, r.2.usedSlots) :=
        mem_map.mpr ⟨(m, machine), hmem, rfl⟩
      obtain ⟨used, hused⟩ := find_ofList_isSome hentry
      -- a Worker is loaded once, so its entry is the one found
      obtain ⟨⟨m', machine'⟩, hmem', heq⟩ := mem_map.mp (find_ofList hused)
      cases heq
      have : machine' = machine := some.inj
        ((mem_collect.mp hmem').1.symm.trans (mem_collect.mp hmem).1)
      rw [hslots, hused, this]

/-! ## What becomes of an Attempt -/

lemma view_applyUsedSlots {α : Type} (view : Db → α)
    (h : ∀ db machines, view { db with machines := machines } = view db)
    (machineById : OrderedMap (DocId Machine) Machine) (db : Db) (entry : DocId Machine × ℤ) :
    view (applyUsedSlots machineById db entry) = view db := by
  unfold applyUsedSlots
  split
  · rfl
  · split
    · exact h _ _
    · rfl

/-- `tryAssign` only places pending Attempts that have no Worker. -/
lemma tryAssign_change {n : ℕ} (h : AttemptScheduler.tryAssign js now db = .ok (n, db'))
    (j : DocId Attempt) :
    Change ⟨now, .tryAssign⟩ db j (db.viewAttempt j) (db'.viewAttempt j) := by
  rcases tryAssign_cases h with rfl | ⟨placements, machineById, slots, rfl, hnodup, hwaits, -⟩
  · exact .same _
  rw [foldl_frame (fun db : Db => db.viewAttempt j)
    (view_applyUsedSlots (·.viewAttempt j) (fun _ _ => rfl) machineById)]
  have key := foldlM_each (fun j db => db.viewAttempt j) (fun p j => p.1.key = .inl j)
    (fun _ => True) (Change ⟨now, .tryAssign⟩ db)
    (pairwise_map.mp hnodup |>.imp fun hne k hk hk' => hne (hk.trans hk'.symm)) ?_ trivial
    (foldlM_ok applyPlacement db)
  · rcases key.2 j with hj | ⟨-, hj⟩
    · exact .of_view_eq hj
    · exact hj
  rintro ⟨item, placed⟩ hp db₁ _ - hown ⟨⟩
  refine ⟨trivial, fun k => ?_⟩
  rcases placed with _ | assignment
  · exact .inl rfl
  rcases item with ⟨i, work⟩ | ⟨i, work⟩
  · obtain ⟨a, hget, hpending, hnone⟩ := hwaits _ hp
    have hfound : db₁.attempts.get i = some a := (congrArg AttemptView.row (hown i rfl)).trans hget
    have hedits : Edits i a (assignedAttempt assignment) false false db₁
        (applyPlacement db₁ (.attempt i work, some assignment)) := edits_patch hfound
    by_cases hk : k = i
    · subst hk
      exact .inr ⟨rfl, hedits.change (.assigned assignment rfl hpending hnone) k⟩
    · exact .inl (hedits.view_ne hk)
  · exact .inl rfl

end EraInfra
