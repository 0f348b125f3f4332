import Mathlib.Tactic

/-!
# Insertion-ordered maps

A map as a list of entries in the order their keys were first set; setting a key again keeps its
place.  `find_set` is the only fact about writing that proofs need, and `mem_ofList` /
`find_ofList` say what a map built from a list of entries holds.  A map made by `set` has every
key once (`Distinct`), so that its entries are what `find` finds.
-/

namespace DocStore

open List Option

/-- An insertion-ordered map from `κ` to `ν`. -/
abbrev OrderedMap (κ ν : Type) := List (κ × ν)

namespace OrderedMap

variable {κ ν : Type} [DecidableEq κ] {m : OrderedMap κ ν} {k k' : κ} {v : ν}

/-- The value of a key. -/
def find : OrderedMap κ ν → κ → Option ν
  | [], _ => none
  | (k', v) :: m, k => if k' = k then some v else find m k

/-- Set a key, in place when it is there already. -/
def set : OrderedMap κ ν → κ → ν → OrderedMap κ ν
  | [], k, v => [(k, v)]
  | (k', v') :: m, k, v => if k' = k then (k', v) :: m else (k', v') :: set m k v

/-- The map with the given entries, later ones overwriting earlier ones. -/
def ofList (l : List (κ × ν)) : OrderedMap κ ν := l.foldl (fun m r => set m r.1 r.2) []

@[simp] lemma find_nil : find ([] : OrderedMap κ ν) k = none := rfl

lemma find_set : find (set m k v) k' = if k' = k then some v else find m k' := by
  induction m with
  | nil =>
      simp only [set, find]
      split_ifs with h h' h'
      · rfl
      · exact absurd h.symm h'
      · exact absurd h'.symm h
      · rfl
  | cons r m ih =>
      obtain ⟨k₀, v₀⟩ := r
      simp only [set]
      by_cases hk : k₀ = k
      · subst hk
        simp only [if_true, find]
        by_cases h : k₀ = k'
        · simp [h]
        · simp [h, Ne.symm h]
      · simp only [if_neg hk, find, ih]
        by_cases h : k₀ = k'
        · subst h
          simp [hk]
        · simp [h]

variable {r : κ × ν} {l : List (κ × ν)}

lemma mem_of_mem_set (h : r ∈ set m k v) : r = (k, v) ∨ r ∈ m := by
  induction m with
  | nil =>
      simp only [set, mem_singleton] at h
      exact .inl h
  | cons s m ih =>
      simp only [set] at h
      split_ifs at h with hk
      · rcases mem_cons.mp h with h | h
        · exact .inl (by rw [h, hk])
        · exact .inr (mem_cons_of_mem _ h)
      rcases mem_cons.mp h with h | h
      · exact .inr (by rw [h]; exact mem_cons_self)
      · rcases ih h with h | h
        · exact .inl h
        · exact .inr (mem_cons_of_mem _ h)

lemma mem_of_find (h : find m k = some v) : (k, v) ∈ m := by
  induction m with
  | nil => simp at h
  | cons r m ih =>
      obtain ⟨k₀, v₀⟩ := r
      simp only [find] at h
      split_ifs at h with hk
      · rw [hk, some.inj h]
        exact mem_cons_self
      · exact mem_cons_of_mem _ (ih h)

lemma find_map {ν' : Type} (g : ν → ν') : find (m.map fun r => (r.1, g r.2)) k = (find m k).map g := by
  induction m with
  | nil => rfl
  | cons r m ih =>
      simp only [map_cons, find]
      split_ifs with hk
      · rfl
      · exact ih

lemma find_isSome_of_mem (h : r ∈ m) : ∃ v, find m r.1 = some v := by
  induction m with
  | nil => simp at h
  | cons s m ih =>
      obtain ⟨k₀, v₀⟩ := s
      simp only [find]
      split_ifs with hk
      · exact ⟨v₀, rfl⟩
      · rcases mem_cons.mp h with h | h
        · exact absurd (congrArg Prod.fst h).symm hk
        · exact ih h

/-- Entries of a map built from a list are entries of the list. -/
lemma mem_ofList (h : r ∈ ofList l) : r ∈ l := by
  revert h
  refine foldlRecOn (motive := fun m => r ∈ m → r ∈ l) l _ (by simp) fun m ih s hs h => ?_
  rcases mem_of_mem_set h with rfl | h
  · exact hs
  · exact ih h

/-- Every key of the list is a key of the map built from it. -/
lemma find_ofList_isSome (h : r ∈ l) : ∃ v, find (ofList l) r.1 = some v := by
  induction l using reverseRecOn with
  | nil => simp at h
  | append_singleton l s ih =>
      rw [ofList, foldl_append, foldl_cons, foldl_nil, find_set]
      split_ifs with hs
      · exact ⟨s.2, rfl⟩
      · rcases mem_append.mp h with h | h
        · exact ih h
        · exact absurd (congrArg Prod.fst (mem_singleton.mp h)) hs

/-- What a map built from a list holds is an entry of the list. -/
lemma find_ofList (h : find (ofList l) k = some v) : (k, v) ∈ l := mem_ofList (mem_of_find h)

/-! ## Maps with every key once -/

/-- No key occurs twice. -/
def Distinct (m : OrderedMap κ ν) : Prop := (m.map Prod.fst).Nodup

lemma distinct_set (h : Distinct m) : Distinct (set m k v) := by
  induction m with
  | nil => simp [set, Distinct]
  | cons r m ih =>
      obtain ⟨hnot, hrest⟩ := nodup_cons.mp h
      simp only [set]
      split
      · exact h
      rename_i hk
      refine nodup_cons.mpr ⟨fun hmem => ?_, ih hrest⟩
      obtain ⟨r, hr, hrk⟩ := mem_map.mp hmem
      rcases mem_of_mem_set hr with rfl | hr
      · exact hk hrk.symm
      · exact hnot (mem_map.mpr ⟨r, hr, hrk⟩)

/-- Such a map holds its entries. -/
lemma find_of_mem (h : Distinct m) (hr : r ∈ m) : find m r.1 = some r.2 := by
  induction m with
  | nil => simp at hr
  | cons s m ih =>
      obtain ⟨hnot, hrest⟩ := nodup_cons.mp h
      simp only [find]
      rcases mem_cons.mp hr with rfl | hr
      · rw [if_pos rfl]
      · rw [if_neg fun hk => hnot (mem_map.mpr ⟨r, hr, hk.symm⟩), ih hrest hr]

lemma distinct_ofList (l : List (κ × ν)) : Distinct (ofList l) :=
  foldlRecOn (motive := Distinct) l _ nodup_nil fun _ h _ _ => distinct_set h

end OrderedMap

end DocStore
