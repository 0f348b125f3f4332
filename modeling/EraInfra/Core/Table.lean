import Mathlib.Tactic

/-!
# Document tables

A table of a document database: rows are kept in creation order under identifiers that are
handed out once and never again, so a deleted row's identifier stays dead.  Both facts are
fields of `Table` (`sorted`, `fresh`), and every operation re-establishes them, which is why no
later proof has to carry "identifiers are distinct" around as a hypothesis.

Everything a transaction does to a table is one of `insert`, `patch` and `delete`; everything it
reads is `get` (a point read) or `collect` (an index range, in creation order), or one of the
readers built on `collect`.  The lemmas come in two families:

* **point reads** — `get_insert`, `get_patch`, `get_delete` say what each write does to each
  row, and `mem_collect` reduces a range read to point reads;
* **counting** — `count_insert`, `count_patch`, `count_delete` say how the number of rows with a
  property moves, which is what a denormalised counter has to follow.
-/

namespace DocStore

open List Option

/-- A row identifier of a table of `α`. -/
abbrev DocId (_α : Type) := ℕ

/-- A table: rows in creation order, and the next identifier to hand out. -/
structure Table (α : Type) where
  next : ℕ
  rows : List (DocId α × α)
  /-- Creation order is identifier order; in particular no identifier occurs twice. -/
  sorted : rows.Pairwise fun r s => r.1 < s.1
  /-- No row carries an identifier that has not been handed out. -/
  fresh : ∀ r ∈ rows, r.1 < next
deriving DecidableEq

namespace Table

variable {α ε : Type} {t : Table α} {i j : DocId α} {a b : α} {f : α → α} {p : α → Bool}

/-! ## Operations -/

/-- The table with no rows. -/
def empty : Table α where
  next := 0
  rows := []
  sorted := List.Pairwise.nil
  fresh := by simp

instance : Inhabited (Table α) := ⟨empty⟩

/-- A point read. -/
def get (t : Table α) (i : DocId α) : Option α := (t.rows.find? fun r => r.1 = i).map Prod.snd

/-- Append a row; its identifier is `t.next`. -/
def insert (t : Table α) (a : α) : Table α where
  next := t.next + 1
  rows := t.rows ++ [(t.next, a)]
  sorted := by
    refine List.pairwise_append.mpr ⟨t.sorted, List.pairwise_singleton _ _, ?_⟩
    intro r hr s hs
    rw [List.mem_singleton.mp hs]
    exact t.fresh r hr
  fresh := by
    intro r hr
    rcases List.mem_append.mp hr with hr | hr
    · exact Nat.lt_succ_of_lt (t.fresh r hr)
    · rw [List.mem_singleton.mp hr]
      exact Nat.lt_succ_self _

/-- Rewrite one row in place; a missing row is left missing. -/
def patch (t : Table α) (i : DocId α) (f : α → α) : Table α where
  next := t.next
  rows := t.rows.map fun r => (r.1, if r.1 = i then f r.2 else r.2)
  sorted := by
    rw [List.pairwise_map]
    exact t.sorted
  fresh := by
    intro r hr
    obtain ⟨s, hs, rfl⟩ := List.mem_map.mp hr
    exact t.fresh s hs

/-- Remove one row. -/
def delete (t : Table α) (i : DocId α) : Table α where
  next := t.next
  rows := t.rows.filter fun r => r.1 ≠ i
  sorted := t.sorted.sublist List.filter_sublist
  fresh := fun r hr => t.fresh r (List.mem_of_mem_filter hr)

/-- The rows with a property, in creation order. -/
def collect (t : Table α) (p : α → Bool) : List (DocId α × α) := t.rows.filter fun r => p r.2

/-- The one row with a property; an error when there are several. -/
def unique (t : Table α) (err : ε) (p : α → Bool) : Except ε (Option (DocId α × α)) :=
  match t.collect p with
  | [] => .ok none
  | [r] => .ok (some r)
  | _ => .error err

/-- How many rows have a property. -/
def count (t : Table α) (p : α → Bool) : ℕ := t.rows.countP fun r => p r.2

/-! ## Point reads -/

lemma nodup_ids (t : Table α) : (t.rows.map Prod.fst).Nodup :=
  pairwise_map.mpr (t.sorted.imp fun h => Nat.ne_of_lt h)

lemma get_eq_some_iff : t.get i = some a ↔ (i, a) ∈ t.rows := by
  constructor
  · intro h
    obtain ⟨r, hr, hra⟩ := map_eq_some_iff.mp h
    have hi : r.1 = i := by simpa using find?_some hr
    have hmem := mem_of_find?_eq_some hr
    rwa [← hi, ← hra]
  · intro h
    cases hf : t.rows.find? (fun r => r.1 = i) with
    | none =>
      have := find?_eq_none.mp hf (i, a) h
      simp at this
    | some r =>
      have hi : r.1 = i := by simpa using find?_some hf
      have hra : r = (i, a) := inj_on_of_nodup_map t.nodup_ids (mem_of_find?_eq_some hf) h hi
      simp [get, hf, hra]

lemma get_lt (h : t.get i = some a) : i < t.next := t.fresh (i, a) (get_eq_some_iff.mp h)

lemma get_next : t.get t.next = none := by
  cases h : t.get t.next with
  | none => rfl
  | some a => exact absurd (get_lt h) (Nat.lt_irrefl _)

@[simp] lemma get_empty : (empty : Table α).get i = none := rfl

@[simp] lemma next_insert : (t.insert a).next = t.next + 1 := rfl
@[simp] lemma next_patch : (t.patch i f).next = t.next := rfl
@[simp] lemma next_delete : (t.delete i).next = t.next := rfl

lemma get_insert : (t.insert a).get j = if j = t.next then some a else t.get j := by
  ext b
  rw [get_eq_some_iff]
  simp only [insert, mem_append, mem_singleton, Prod.mk.injEq]
  split_ifs with h
  · subst h
    constructor
    · rintro (h | ⟨-, rfl⟩)
      · exact absurd (t.fresh _ h) (Nat.lt_irrefl _)
      · rfl
    · intro h
      exact .inr ⟨rfl, (some.inj h).symm⟩
  · simp [h, get_eq_some_iff]

lemma get_patch : (t.patch i f).get j = if j = i then (t.get j).map f else t.get j := by
  ext b
  rw [get_eq_some_iff]
  simp only [patch, List.mem_map, Prod.mk.injEq, Prod.exists]
  constructor
  · rintro ⟨k, c, hk, rfl, rfl⟩
    rw [get_eq_some_iff.mpr hk]
    split_ifs <;> rfl
  intro h
  split_ifs at h with hj
  · obtain ⟨c, hc, rfl⟩ := Option.map_eq_some_iff.mp h
    exact ⟨j, c, get_eq_some_iff.mp hc, rfl, by simp [hj]⟩
  · exact ⟨j, b, get_eq_some_iff.mp h, rfl, by simp [hj]⟩

lemma get_delete : (t.delete i).get j = if j = i then none else t.get j := by
  ext b
  rw [get_eq_some_iff]
  simp only [delete]
  split_ifs with h
  · simp [h]
  · simp [h, get_eq_some_iff]

/-- The rows after an insert. -/
lemma get_insert_eq_some : (t.insert a).get j = some b ↔ j = t.next ∧ b = a ∨ t.get j = some b := by
  rw [get_insert]
  by_cases h : j = t.next
  · subst h
    simp [get_next, eq_comm]
  · simp [h]

/-- The rows after a patch. -/
lemma get_patch_eq_some : (t.patch i f).get j = some b ↔
      (∃ a, j = i ∧ t.get i = some a ∧ f a = b) ∨ j ≠ i ∧ t.get j = some b := by
  rw [get_patch]
  by_cases h : j = i
  · subst h
    simp
  · simp [h]

lemma get_delete_eq_some : (t.delete i).get j = some b ↔ j ≠ i ∧ t.get j = some b := by
  rw [get_delete]
  by_cases h : j = i
  · simp
  · simp

@[simp] lemma get_patch_self : (t.patch i f).get i = (t.get i).map f := by
  rw [get_patch, if_pos rfl]

lemma get_patch_ne (h : j ≠ i) : (t.patch i f).get j = t.get j := by
  rw [get_patch, if_neg h]

@[simp] lemma get_delete_self : (t.delete i).get i = none := by
  rw [get_delete, if_pos rfl]

lemma get_delete_ne (h : j ≠ i) : (t.delete i).get j = t.get j := by
  rw [get_delete, if_neg h]

/-- A table is what it hands out next, and its point reads. -/
lemma eq_of_get {t' : Table α} (hnext : t.next = t'.next) (hget : ∀ i, t.get i = t'.get i) :
    t = t' := by
  have hrows : t.rows = t'.rows := by
    have hperm : t.rows.Perm t'.rows :=
      (perm_ext_iff_of_nodup t.nodup_ids.of_map t'.nodup_ids.of_map).mpr fun r => by
        rw [← get_eq_some_iff, ← get_eq_some_iff, hget]
    exact hperm.eq_of_pairwise (fun r s _ _ hrs hsr => absurd hsr (Nat.lt_asymm hrs)) t.sorted t'.sorted
  cases t'
  subst hnext
  subst hrows
  rfl

lemma patch_of_get_eq_none (h : t.get i = none) : t.patch i f = t := by
  refine eq_of_get rfl fun j => ?_
  rw [get_patch]
  split_ifs with hj
  · rw [hj, h]
    rfl
  · rfl

/-- A patch only matters at the row it finds. -/
lemma patch_congr {g : α → α} (h : ∀ a, t.get i = some a → f a = g a) : t.patch i f = t.patch i g := by
  refine eq_of_get rfl fun j => ?_
  rw [get_patch, get_patch]
  split_ifs with hj
  · subst hj
    exact map_congr h
  · rfl

lemma patch_insert_next : (t.insert a).patch t.next f = t.insert (f a) := by
  refine eq_of_get rfl fun j => ?_
  rw [get_patch, get_insert, get_insert]
  split_ifs <;> rfl

/-! ## Range reads -/

lemma mem_collect : (i, a) ∈ t.collect p ↔ t.get i = some a ∧ p a = true := by
  rw [collect, mem_filter, get_eq_some_iff]

lemma collect_nodup : (t.collect p).Pairwise fun r s => r.1 ≠ s.1 :=
  (t.sorted.sublist filter_sublist).imp fun h => Nat.ne_of_lt h

lemma collect_insert : (t.insert a).collect p = t.collect p ++ if p a then [(t.next, a)] else [] := by
  simp only [collect, insert]
  by_cases h : p a = true <;> simp [h]

/-- A patch that keeps a row in its range rewrites it where it stands. -/
lemma collect_patch (h : ∀ a, t.get i = some a → p (f a) = p a) : (t.patch i f).collect p
      = (t.collect p).map fun r => (r.1, if r.1 = i then f r.2 else r.2) := by
  simp only [collect, patch, List.filter_map]
  refine congrArg _ (filter_congr fun r hr => ?_)
  by_cases hi : r.1 = i
  · simpa [hi] using h r.2 (get_eq_some_iff.mpr (hi ▸ hr))
  · simp [hi]

lemma collect_delete : (t.delete i).collect p = (t.collect p).filter fun r => r.1 ≠ i := by
  simp only [collect, delete, List.filter_filter]
  refine filter_congr fun r _ => ?_
  rw [Bool.and_comm]

/-- Deleting a row outside a range leaves the range as it was. -/
lemma collect_delete_of_not (h : ∀ a, t.get i = some a → p a = false) :
    (t.delete i).collect p = t.collect p := by
  rw [collect_delete, filter_eq_self]
  rintro ⟨k, b⟩ hk
  obtain ⟨hget, hp⟩ := mem_collect.mp hk
  have : k ≠ i := by
    rintro rfl
    rw [h b hget] at hp
    exact absurd hp (by simp)
  simpa using this

variable {err : ε}

lemma unique_some (h : t.unique err p = .ok (some (i, a))) :
    t.get i = some a ∧ p a = true ∧ ∀ k b, t.get k = some b → p b = true → k = i := by
  have hc : t.collect p = [(i, a)] := by
    unfold unique at h
    split at h <;> simp_all
  refine ⟨(mem_collect.mp (hc ▸ mem_singleton.mpr rfl)).1,
    (mem_collect.mp (hc ▸ mem_singleton.mpr rfl)).2, ?_⟩
  intro k b hk hb
  have := mem_collect.mpr ⟨hk, hb⟩
  rw [hc, mem_singleton] at this
  exact congrArg Prod.fst this

lemma unique_none (h : t.unique err p = .ok none) : t.collect p = [] := by
  unfold unique at h
  split at h <;> simp_all

lemma not_of_unique_none (h : t.unique err p = .ok none) (hi : t.get i = some a) : p a = false := by
  have hc := unique_none h
  by_contra hp
  have := mem_collect.mpr ⟨hi, by simpa using hp⟩
  rw [hc] at this
  exact absurd this (by simp)

lemma collect_eq_nil (h : ∀ i a, t.get i = some a → p a = false) : t.collect p = [] := by
  refine filter_eq_nil_iff.mpr fun r hr => ?_
  simp [h r.1 r.2 (get_eq_some_iff.mpr hr)]

lemma collect_eq_singleton (h : t.get i = some a) (hp : p a = true)
    (hu : ∀ k b, t.get k = some b → p b = true → k = i) : t.collect p = [(i, a)] := by
  have hmem : (i, a) ∈ t.collect p := mem_collect.mpr ⟨h, hp⟩
  have hall : ∀ r ∈ t.collect p, r.1 = i := by
    rintro ⟨k, b⟩ hr
    exact hu k b (mem_collect.mp hr).1 (mem_collect.mp hr).2
  have hnodup := collect_nodup (t := t) (p := p)
  match hl : t.collect p with
  | [] => simp [hl] at hmem
  | [r] => simpa [hl, eq_comm] using hmem
  | r :: s :: rest =>
    rw [hl] at hnodup hall
    have hne : r.1 ≠ s.1 := (pairwise_cons.mp hnodup).1 s (by simp)
    exact absurd ((hall r (by simp)).trans (hall s (by simp)).symm) hne

lemma unique_eq_none (h : ∀ i a, t.get i = some a → p a = false) : t.unique err p = .ok none := by
  rw [unique, collect_eq_nil h]

lemma unique_eq_some (h : t.get i = some a) (hp : p a = true)
    (hu : ∀ k b, t.get k = some b → p b = true → k = i) :
    t.unique err p = .ok (some (i, a)) := by
  rw [unique, collect_eq_singleton h hp hu]

/-- `unique` succeeds when at most one row has the property. -/
lemma unique_isOk (h : ∀ i j a b, t.get i = some a → t.get j = some b →
    p a = true → p b = true → i = j) : ∃ r, t.unique err p = .ok r := by
  by_cases hex : ∃ i a, t.get i = some a ∧ p a = true
  · obtain ⟨i, a, hi, ha⟩ := hex
    exact ⟨_, unique_eq_some hi ha fun k b hk hb => h k i b a hk hi hb ha⟩
  · refine ⟨_, unique_eq_none fun i a hi => ?_⟩
    by_contra hp
    exact hex ⟨i, a, hi, by simpa using hp⟩

/-! ## Counting -/

lemma count_eq_length_collect : t.count p = (t.collect p).length := countP_eq_length_filter

@[simp] lemma count_empty : (empty : Table α).count p = 0 := rfl

lemma count_insert : (t.insert a).count p = t.count p + if p a then 1 else 0 := by
  simp [count, insert]

/-- A patch moves the count by what it does to the one row it rewrites. -/
lemma count_patch (h : t.get i = some a) :
    (t.patch i f).count p + (if p a then 1 else 0) = t.count p + if p (f a) then 1 else 0 := by
  have key : ∀ rows : List (DocId α × α), (rows.Pairwise fun r s => r.1 < s.1) → (i, a) ∈ rows →
      (rows.map fun r => (r.1, if r.1 = i then f r.2 else r.2)).countP (fun r => p r.2)
          + (if p a then 1 else 0)
        = rows.countP (fun r => p r.2) + if p (f a) then 1 else 0 := by
    intro rows hrows
    induction rows with
    | nil => intro hmem; simp at hmem
    | cons x xs ih =>
      intro hmem
      obtain ⟨hx, hxs⟩ := pairwise_cons.mp hrows
      rw [map_cons, countP_cons, countP_cons]
      rcases mem_cons.mp hmem with hxa | hmem
      · subst hxa
        have hrest : (xs.map fun r => (r.1, if r.1 = i then f r.2 else r.2)) = xs := by
          conv_rhs => rw [← map_id xs]
          refine map_congr_left fun r hr => ?_
          have : r.1 ≠ i := Nat.ne_of_gt (hx r hr)
          simp [this]
        rw [hrest]
        simp only [if_true]
        omega
      · have hxi : x.1 ≠ i := Nat.ne_of_lt (hx (i, a) hmem)
        have := ih hxs hmem
        simp only [if_neg hxi]
        omega
  exact key t.rows t.sorted (get_eq_some_iff.mp h)

/-- Rows with a property exist when the count is positive. -/
lemma count_pos (h : t.get i = some a) (hp : p a = true) : 0 < t.count p := by
  rw [count_eq_length_collect]
  exact length_pos_of_mem (mem_collect.mpr ⟨h, hp⟩)

lemma count_eq_zero (h : ∀ i a, t.get i = some a → p a = false) : t.count p = 0 := by
  rw [count_eq_length_collect, collect_eq_nil h, length_nil]

lemma count_eq_zero_iff : t.count p = 0 ↔ ∀ i a, t.get i = some a → p a = false := by
  refine ⟨fun h i a hi => ?_, count_eq_zero⟩
  by_contra hp
  exact absurd (count_pos hi (by simpa using hp)) (by omega)

/-! ## Tables that only lose rows with a property -/

/-- Every row of `t'` with a property was one of `t`. -/
def Shrinks (p : α → Bool) (t t' : Table α) : Prop :=
  ∀ i b, t'.get i = some b → p b = true → ∃ a, t.get i = some a ∧ p a = true

lemma Shrinks.refl (t : Table α) : Shrinks p t t := fun _ b hb hp => ⟨b, hb, hp⟩

lemma Shrinks.trans {t₁ t₂ t₃ : Table α} (h : Shrinks p t₁ t₂) (h' : Shrinks p t₂ t₃) :
    Shrinks p t₁ t₃ := by
  intro i c hc hp
  obtain ⟨b, hb, hp⟩ := h' i c hc hp
  exact h i b hb hp

lemma shrinks_patch (h : ∀ a, p (f a) = true → p a = true) : Shrinks p t (t.patch i f) := by
  intro j b hb hp
  rw [get_patch] at hb
  split at hb
  · obtain ⟨a, ha, rfl⟩ := map_eq_some_iff.mp hb
    exact ⟨a, ha, h a hp⟩
  · exact ⟨b, hb, hp⟩

lemma shrinks_delete : Shrinks p t (t.delete i) := by
  intro j b hb hp
  rw [get_delete] at hb
  split at hb
  · simp at hb
  · exact ⟨b, hb, hp⟩

/-- The loop rule for `Shrinks`. -/
lemma shrinks_foldl {σ β : Type} (g : σ → Table α) (step : σ → β → σ)
    (h : ∀ s b, Shrinks p (g s) (g (step s b))) (l : List β) (s : σ) :
    Shrinks p (g s) (g (l.foldl step s)) := by
  induction l generalizing s with
  | nil => exact .refl _
  | cons b l ih => exact (h s b).trans (ih (step s b))

lemma shrinks_deletes (ids : List (DocId α)) (t : Table α) : Shrinks p t (ids.foldl delete t) :=
  shrinks_foldl id delete (fun _ _ => shrinks_delete) ids t

lemma Shrinks.count_eq_zero {t' : Table α} (h : Shrinks p t t')
    (hnone : ∀ i a, t.get i = some a → p a = false) : t'.count p = 0 := by
  refine Table.count_eq_zero fun i b hb => ?_
  by_contra hp
  obtain ⟨a, ha, hpa⟩ := h i b hb (by simpa using hp)
  simp [hnone i a ha] at hpa

/-! ## Several index ranges, one after another -/

section CollectBy

variable {κ : Type} [DecidableEq κ] {key : α → κ} {keys : List κ}

/-- The rows under each of several keys of an index, key after key. -/
def collectBy (t : Table α) (key : α → κ) (keys : List κ) : List (DocId α × α) :=
  keys.flatMap fun k => t.collect fun a => key a = k

lemma mem_collectBy {r : DocId α × α} :
    r ∈ t.collectBy key keys ↔ t.get r.1 = some r.2 ∧ key r.2 ∈ keys := by
  obtain ⟨i, a⟩ := r
  simp only [collectBy, mem_flatMap, mem_collect, decide_eq_true_eq]
  constructor
  · rintro ⟨k, hk, hget, rfl⟩
    exact ⟨hget, hk⟩
  · rintro ⟨hget, hk⟩
    exact ⟨key a, hk, hget, rfl⟩

/-- A row has one key, so distinct keys give distinct rows. -/
lemma collectBy_nodup (hkeys : keys.Nodup) : (t.collectBy key keys).Pairwise fun r s => r.1 ≠ s.1 := by
  refine pairwise_flatMap.mpr ⟨fun k _ => collect_nodup, ?_⟩
  refine hkeys.imp fun {k k'} hne r hr s hs heq => hne ?_
  obtain ⟨hr, hrk⟩ := mem_collect.mp hr
  obtain ⟨hs, hsk⟩ := mem_collect.mp hs
  rw [heq] at hr
  have hrs : r.2 = s.2 := some.inj (hr.symm.trans hs)
  simp only [decide_eq_true_eq] at hrk hsk
  rw [← hrk, ← hsk, hrs]

lemma countP_collectBy (hkeys : keys.Nodup) (q : α → Bool) :
    (t.collectBy key keys).countP (fun r => q r.2) = t.count fun a => key a ∈ keys && q a := by
  induction keys with
  | nil => simp [collectBy, count]
  | cons k keys ih =>
    obtain ⟨hk, hkeys⟩ := nodup_cons.mp hkeys
    have hih := ih hkeys
    rw [collectBy, flatMap_cons, countP_append]
    rw [collectBy] at hih
    rw [hih, collect, countP_filter, count]
    -- a row is counted under `k` or under a later key, never under both
    have hsplit : ∀ rows : List (DocId α × α), rows.countP (fun r => q r.2 && decide (key r.2 = k))
          + rows.countP (fun r => decide (key r.2 ∈ keys) && q r.2)
        = rows.countP fun r => decide (key r.2 ∈ k :: keys) && q r.2 := by
      intro rows
      induction rows with
      | nil => rfl
      | cons r rows ih =>
        simp only [countP_cons]
        by_cases hq : q r.2 = true
        · by_cases hrk : key r.2 = k
          · simp [hrk, hk] at ih ⊢
            omega
          · simp [hrk] at ih ⊢
            omega
        · simp [hq] at ih ⊢
          omega
    exact hsplit t.rows

end CollectBy

end Table

/-- A row of a partial map after a write is the one written or one from before. -/
lemma update_eq_some {α β : Type} [DecidableEq α] {f : α → Option β} {i j : α} {v : Option β} {b : β} :
    Function.update f i v j = some b ↔ j = i ∧ v = some b ∨ j ≠ i ∧ f j = some b := by
  rw [Function.update_apply]
  split_ifs with h <;> simp [h]

end DocStore
