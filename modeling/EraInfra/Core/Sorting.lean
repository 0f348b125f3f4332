import Mathlib.Tactic

/-!
# Sorted lists without repetitions

Two ways to put a list into canonical form: drop the repetitions and sort, or sort and drop
neighbours that are equal.  Both give a list that is strictly increasing in the sort key and has the
same members, and such a list is unique (`eq_of_strictly_sorted`).
-/

namespace Sorting

open List

variable {α κ : Type} [LinearOrder κ]

/-! ## Sorting by a key -/

section SortBy

variable {key : α → κ} {l l₁ l₂ : List α}

/-- Sort by a key. -/
def sortBy (key : α → κ) (l : List α) : List α := l.insertionSort fun a b => key a ≤ key b

lemma mem_sortBy {x : α} : x ∈ sortBy key l ↔ x ∈ l := mem_insertionSort _

lemma sorted_sortBy : (sortBy key l).Pairwise fun a b => key a ≤ key b := by
  exact pairwise_insertionSort _ l

/-- A sorted list without repetitions is strictly increasing. -/
lemma strict_of_nodup (hinj : ∀ a ∈ l, ∀ b ∈ l, key a = key b → a = b) (hnodup : l.Nodup)
    (hsorted : l.Pairwise fun a b => key a ≤ key b) : l.Pairwise fun a b => key a < key b := by
  refine (hnodup.and hsorted).imp_of_mem ?_
  rintro a b ha hb ⟨hne, hle⟩
  exact lt_of_le_of_ne hle fun h => hne (hinj a ha b hb h)

/-- A strictly increasing list is determined by its members. -/
lemma eq_of_strictly_sorted (h₁ : l₁.Pairwise fun a b => key a < key b)
    (h₂ : l₂.Pairwise fun a b => key a < key b) (hmem : ∀ a, a ∈ l₁ ↔ a ∈ l₂) : l₁ = l₂ := by
  exact h₁.eq_of_mem_iff h₂ hmem

end SortBy

/-! ## Sorting by a comparison

A comparison that goes by a key on the list, and may do anything elsewhere. -/

section Compare

variable {le : α → α → Bool} {key : α → κ} {l : List α}

/-- Such a list is sorted as by the key. -/
lemma mergeSort_eq (h : ∀ a ∈ l, ∀ b ∈ l, le a b = decide (key a ≤ key b)) :
    l.mergeSort le = l.mergeSort fun a b => key a ≤ key b := by
  have hsort := map_mergeSort (f := id) (s := fun a b => decide (key a ≤ key b)) h
  rwa [map_id, map_id] at hsort

lemma key_trans (key : α → κ) : ∀ a b c : α, decide (key a ≤ key b) → decide (key b ≤ key c) →
    decide (key a ≤ key c) := by
  simpa using fun a b c => le_trans

lemma key_total (key : α → κ) : ∀ a b : α, decide (key a ≤ key b) || decide (key b ≤ key a) := by
  simpa using fun a b => le_total _ _

lemma sorted_mergeSort (h : ∀ a ∈ l, ∀ b ∈ l, le a b = decide (key a ≤ key b)) :
    (l.mergeSort le).Pairwise fun a b => key a ≤ key b := by
  rw [mergeSort_eq h]
  simpa using pairwise_mergeSort (key_trans key) (key_total key) l

/-- A stable sort puts the first of the least elements in front. -/
lemma head?_mergeSort (h : ∀ a ∈ l, ∀ b ∈ l, le a b = decide (key a ≤ key b)) :
    (l.mergeSort le).head? = l.find? fun a => l.all (le a) := by
  have hleast : (l.mergeSort fun a b => key a ≤ key b).head?
      = l.find? fun a => l.all fun b => key a ≤ key b := by
    clear h
    induction l with
    | nil => simp
    | cons a l ih =>
      obtain ⟨l₁, l₂, hsorted, hrest, hbefore⟩ := mergeSort_cons (key_trans key) (key_total key) a l
      rw [hsorted]
      cases l₁ with
      | nil =>
        have hpairwise := pairwise_mergeSort (key_trans key) (key_total key) (a :: l)
        rw [hsorted, nil_append, pairwise_cons] at hpairwise
        have hall : ((a :: l).all fun b => key a ≤ key b) = true := by
          rw [all_cons, Bool.and_eq_true, List.all_eq_true]
          refine ⟨by simp, fun b hb => hpairwise.1 b ?_⟩
          rwa [← nil_append l₂, ← hrest, mem_mergeSort]
        rw [nil_append, head?_cons,
          find?_cons_of_pos (p := fun c => (a :: l).all fun b => key c ≤ key b) hall]
      | cons b l₁ =>
        rw [hrest] at ih
        have hab : ¬ key a ≤ key b := by simpa using hbefore b mem_cons_self
        have hb : b ∈ l := by
          have hmem : b ∈ l.mergeSort fun a b => key a ≤ key b := by simp [hrest]
          exact mem_mergeSort.mp hmem
        rw [find?_cons_of_neg (by simpa using ⟨b, hb, not_le.mp hab⟩), cons_append, head?_cons]
        refine ih.trans (find?_congr fun x _ => ?_)
        -- what is below everything in `l` is below `b`, which is below `a`
        rw [all_cons, Bool.eq_iff_iff, Bool.and_eq_true, iff_and_self, List.all_eq_true]
        intro hx
        have hxb : key x ≤ key b := by simpa using hx b hb
        exact decide_eq_true (hxb.trans (not_le.mp hab).le)
  rw [mergeSort_eq h, hleast]
  refine find?_congr fun a ha => ?_
  rw [Bool.eq_iff_iff, List.all_eq_true, List.all_eq_true]
  refine forall₂_congr fun b hb => ?_
  rw [h a ha b hb]

/-- Of a strictly increasing list, the first `n` are those with fewer than `n` below them. -/
lemma mem_take_iff {n : ℕ} {x : α} (h : l.Pairwise fun a b => key a < key b) :
    x ∈ l.take n ↔ x ∈ l ∧ l.countP (fun a => key a < key x) < n := by
  induction l generalizing n with
  | nil => simp
  | cons a l ih =>
    obtain ⟨hhead, htail⟩ := pairwise_cons.mp h
    cases n with
    | zero => simp
    | succ n =>
      rw [take_succ_cons, mem_cons, mem_cons, ih htail, countP_cons]
      constructor
      · rintro (rfl | ⟨hx, hcount⟩)
        · have hnone : l.countP (fun b => key b < key x) = 0 := by
            rw [countP_eq_zero]
            intro b hb
            simpa using (hhead b hb).le
          simp [hnone]
        · simpa [hx, hhead x hx] using hcount
      · rintro ⟨rfl | hx, hcount⟩
        · exact .inl rfl
        · rw [if_pos (by simpa using hhead x hx)] at hcount
          exact .inr ⟨hx, by omega⟩

end Compare

/-! ## Repetitions -/

variable [DecidableEq α] {key : α → κ} {l : List α}

/-- Drop every element that equals the one after it. -/
def compact : List α → List α
  | [] => []
  | [a] => [a]
  | a :: b :: l => if a = b then compact (b :: l) else a :: compact (b :: l)

lemma nodup_eraseDups (l : List α) : l.eraseDups.Nodup := by
  induction h : l.length using Nat.strong_induction_on generalizing l with
  | _ n ih =>
    cases l with
    | nil => simp
    | cons a l =>
      rw [eraseDups_cons]
      refine nodup_cons.mpr ⟨by simp, ?_⟩
      refine ih _ ?_ _ rfl
      rw [← h]
      exact Nat.lt_succ_of_le (length_filter_le _ l)

/-- Sorting after dropping repetitions. -/
lemma strict_sortBy_eraseDups (hinj : ∀ a ∈ l, ∀ b ∈ l, key a = key b → a = b) :
    (sortBy key l.eraseDups).Pairwise fun a b => key a < key b := by
  refine strict_of_nodup ?_ ?_ sorted_sortBy
  · intro a ha b hb
    exact hinj a (mem_eraseDups.mp (mem_sortBy.mp ha)) b (mem_eraseDups.mp (mem_sortBy.mp hb))
  · exact (perm_insertionSort _ _).nodup_iff.mpr (nodup_eraseDups l)

lemma mem_compact {x : α} : x ∈ compact l ↔ x ∈ l := by
  induction l using compact.induct with
  | case1 => rfl
  | case2 a => rfl
  | case3 a l ih =>
    rw [compact, if_pos rfl, ih]
    simp
  | case4 a b l hne ih =>
    rw [compact, if_neg hne, mem_cons, ih]
    simp

lemma compact_sublist (l : List α) : (compact l).Sublist l := by
  induction l using compact.induct with
  | case1 | case2 a => exact List.Sublist.refl _
  | case3 a l ih =>
    rw [compact, if_pos rfl]
    exact ih.cons a
  | case4 a b l hne ih =>
    rw [compact, if_neg hne]
    exact ih.cons_cons a

lemma nodup_compact (hinj : ∀ a ∈ l, ∀ b ∈ l, key a = key b → a = b)
    (hsorted : l.Pairwise fun a b => key a ≤ key b) : (compact l).Nodup := by
  induction l using compact.induct with
  | case1 => exact nodup_nil
  | case2 a => exact nodup_singleton a
  | case3 a l ih =>
    rw [compact, if_pos rfl]
    exact ih (fun x hx y hy => hinj x (mem_cons_of_mem _ hx) y (mem_cons_of_mem _ hy))
      (pairwise_cons.mp hsorted).2
  | case4 a b l hne ih =>
    obtain ⟨hhead, htail⟩ := pairwise_cons.mp hsorted
    rw [compact, if_neg hne]
    refine nodup_cons.mpr ⟨fun hmem => hne ?_,
      ih (fun x hx y hy => hinj x (mem_cons_of_mem _ hx) y (mem_cons_of_mem _ hy)) htail⟩
    -- `a` again further on would lie between `b` and itself
    have hb : key b ≤ key a := by
      rcases mem_cons.mp (mem_compact.mp hmem) with hab | hmem
      · rw [hab]
      · exact (pairwise_cons.mp htail).1 a hmem
    exact hinj a mem_cons_self b (mem_cons_of_mem _ mem_cons_self)
      (le_antisymm (hhead b mem_cons_self) hb)

/-- Dropping equal neighbours after sorting. -/
lemma strict_compact_sortBy (hinj : ∀ a ∈ l, ∀ b ∈ l, key a = key b → a = b) :
    (compact (sortBy key l)).Pairwise fun a b => key a < key b := by
  have hinj' : ∀ a ∈ sortBy key l, ∀ b ∈ sortBy key l, key a = key b → a = b := fun a ha b hb =>
    hinj a (mem_sortBy.mp ha) b (mem_sortBy.mp hb)
  refine strict_of_nodup ?_ (nodup_compact hinj' sorted_sortBy)
    (sorted_sortBy.sublist (compact_sublist _))
  exact fun a ha b hb => hinj' a (mem_compact.mp ha) b (mem_compact.mp hb)

end Sorting
