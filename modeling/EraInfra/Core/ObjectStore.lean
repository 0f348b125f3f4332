import EraInfra.Core.Sorting

/-!
# Object stores

A bucket is a finite map from names to contents, kept in the order of the names.  A listing is the
part of it that a predicate on names selects, in that order; two buckets that agree on the selected
names have the same listing (`list_congr`).
-/

namespace ObjectStore

open Sorting List Option

variable {κ ν : Type} [LinearOrder κ]

/-- The objects, each name once, in the order of their names. -/
structure Bucket (κ ν : Type) [LinearOrder κ] where
  objects : List (κ × ν)
  sorted : objects.Pairwise fun a b => a.1 < b.1

namespace Bucket

variable {b b₁ b₂ : Bucket κ ν} {k : κ} {v : ν}

def empty : Bucket κ ν := ⟨[], .nil⟩

def get (b : Bucket κ ν) (k : κ) : Option ν := (b.objects.find? fun object => object.1 = k).map Prod.snd

/-- Write an object, in the place of any object of this name. -/
def put (b : Bucket κ ν) (k : κ) (v : ν) : Bucket κ ν where
  objects := (b.objects.filter fun object => object.1 < k) ++
    (k, v) :: b.objects.filter fun object => k < object.1
  sorted := by
    refine List.pairwise_append.mpr ⟨b.sorted.filter _, List.pairwise_cons.mpr ⟨?_, b.sorted.filter _⟩,
      ?_⟩
    · intro object h
      simpa using (List.mem_filter.mp h).2
    intro object h other h'
    have hlow : object.1 < k := by simpa using (List.mem_filter.mp h).2
    rcases List.mem_cons.mp h' with rfl | h'
    · exact hlow
    · have hhigh : k < other.1 := by simpa using (List.mem_filter.mp h').2
      exact hlow.trans hhigh

def delete (b : Bucket κ ν) (k : κ) : Bucket κ ν :=
  ⟨b.objects.filter fun object => object.1 ≠ k, b.sorted.filter _⟩

/-- The objects whose names a predicate selects. -/
def list (b : Bucket κ ν) (p : κ → Bool) : List (κ × ν) := b.objects.filter fun object => p object.1

/-- A name stands for one object. -/
lemma get_eq_some : b.get k = some v ↔ (k, v) ∈ b.objects := by
  unfold get
  constructor
  · intro h
    obtain ⟨⟨k', v'⟩, hfind, rfl⟩ := map_eq_some_iff.mp h
    obtain rfl : k' = k := by simpa using find?_some hfind
    exact mem_of_find?_eq_some hfind
  · intro hmem
    cases hfind : b.objects.find? fun object => object.1 = k with
    | none => exact absurd (decide_eq_true rfl) (find?_eq_none.mp hfind _ hmem)
    | some object =>
      have hname : object.1 = k := by simpa using find?_some hfind
      rw [inj_on_of_nodup_map (pairwise_map.mpr (b.sorted.imp ne_of_lt)) (mem_of_find?_eq_some hfind) hmem hname]
      rfl

lemma get_put {k' : κ} : (b.put k v).get k' = if k' = k then some v else b.get k' := by
  refine ext fun w => ?_
  rw [get_eq_some, put, mem_append, mem_cons, mem_filter, mem_filter]
  split
  · rename_i h
    subst h
    simp [eq_comm]
  rename_i h
  rw [get_eq_some]
  rcases lt_or_gt_of_ne h with hlt | hgt
  · simp [hlt, h, hlt.le]
  · simp [hgt, h, hgt.le]

lemma get_delete {k' : κ} : (b.delete k).get k' = if k' = k then none else b.get k' := by
  refine ext fun w => ?_
  rw [get_eq_some, delete]
  split
  · rename_i h
    simp [h]
  · rename_i h
    simp [get_eq_some, h]

lemma mem_list {p : κ → Bool} : (k, v) ∈ b.list p ↔ b.get k = some v ∧ p k = true := by
  rw [list, mem_filter, get_eq_some]

/-- A write changes a total by the new object and the one whose place it takes. -/
lemma sum_put {size : ν → ℤ} : ((b.put k v).objects.map fun object => size object.2).sum
      = (b.objects.map fun object => size object.2).sum + size v - ((b.get k).map size).getD 0 := by
  rcases b with ⟨objects, hsorted⟩
  simp only [put, get]
  induction objects with
  | nil => simp
  | cons object objects ih =>
    rcases pairwise_cons.mp hsorted with ⟨hlater, hsorted⟩
    have ih := ih hsorted
    rcases lt_trichotomy object.1 k with h | h | h
    · simp [h, h.ne, h.le] at ih ⊢
      omega
    · have hnone : objects.find? (fun other => other.1 = k) = none :=
        find?_eq_none.mpr fun other hother => by simp [← h, (hlater other hother).ne']
      simp [h, hnone] at ih ⊢
      omega
    · simp [h, h.ne', h.le] at ih ⊢
      omega

/-- **Buckets that agree on the selected names have one listing.** -/
theorem list_congr {p : κ → Bool} (h : ∀ k, p k = true → b₁.get k = b₂.get k) :
    b₁.list p = b₂.list p := by
  refine eq_of_strictly_sorted (b₁.sorted.filter _) (b₂.sorted.filter _) ?_
  rintro ⟨k, v⟩
  have hk : b₁.get k = some v ∧ p k = true ↔ b₂.get k = some v ∧ p k = true :=
    and_congr_left fun hk => by rw [h k hk]
  exact mem_list.trans (hk.trans mem_list.symm)

end Bucket

end ObjectStore
