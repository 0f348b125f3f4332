import EraInfra.Core.Sorting

/-!
# Merged intervals

Closed intervals of numbers, merged in one pass over a list that is sorted by the first number.  The
merged list is sorted with a gap after each interval, and such a list is determined by the numbers it
covers (`eq_of_covers`): each of its intervals is a longest run of covered numbers.
-/

namespace Intervals

open List

variable {l l₁ l₂ rest : List (ℕ × ℕ)} {i j last : ℕ × ℕ} {n : ℕ}

/-- A number lies in one of the intervals. -/
def Covers (l : List (ℕ × ℕ)) (n : ℕ) : Prop := ∃ i ∈ l, i.1 ≤ n ∧ n ≤ i.2

/-- Sorted, disjoint and not adjacent. -/
structure Canonical (l : List (ℕ × ℕ)) : Prop where
  nonempty : ∀ i ∈ l, i.1 ≤ i.2
  apart : l.Pairwise fun i j => i.2 + 1 < j.1

lemma Canonical.gap (h : Canonical l) (hi : i ∈ l) (hj : j ∈ l) :
    i = j ∨ i.2 + 1 < j.1 ∨ j.2 + 1 < i.1 := by
  have hsymm : Std.Symm fun i j : ℕ × ℕ => i.2 + 1 < j.1 ∨ j.2 + 1 < i.1 := ⟨fun _ _ => Or.symm⟩
  have happart : l.Pairwise fun i j => i.2 + 1 < j.1 ∨ j.2 + 1 < i.1 := h.apart.imp .inl
  exact or_iff_not_imp_left.mpr fun hne => happart.forall hi hj hne

/-- The intervals are the longest runs of covered numbers. -/
lemma Canonical.mem_iff (h : Canonical l) : i ∈ l ↔ i.1 ≤ i.2 ∧
    (∀ n, i.1 ≤ n → n ≤ i.2 → Covers l n) ∧ ∀ n, Covers l n → n + 1 ≠ i.1 ∧ n ≠ i.2 + 1 := by
  constructor
  · intro hi
    refine ⟨h.nonempty i hi, fun n hfirst hlast => ⟨i, hi, hfirst, hlast⟩, ?_⟩
    rintro n ⟨j, hj, hfirst, hlast⟩
    have hne := h.nonempty i hi
    rcases h.gap hi hj with rfl | hgap | hgap <;> omega
  · rintro ⟨hne, hrun, hends⟩
    rcases hrun i.1 le_rfl hne with ⟨j, hj, hfirst, hlast⟩
    have hcovers : ∀ n, j.1 ≤ n → n ≤ j.2 → n + 1 ≠ i.1 ∧ n ≠ i.2 + 1 := fun n h₁ h₂ =>
      hends n ⟨j, hj, h₁, h₂⟩
    have hstart : j.1 = i.1 := by
      by_contra hlt
      exact (hcovers (i.1 - 1) (by omega) (by omega)).1 (by omega)
    have hle : j.2 ≤ i.2 := by
      by_contra hlt
      exact (hcovers (i.2 + 1) (by omega) (by omega)).2 rfl
    have hge : i.2 ≤ j.2 := by
      by_contra hlt
      rcases hrun (j.2 + 1) (by omega) (by omega) with ⟨k, hk, hfirst', hlast'⟩
      rcases h.gap hj hk with rfl | hgap | hgap <;> omega
    rwa [Prod.ext hstart (le_antisymm hle hge)] at hj

/-- Canonical lists that cover the same numbers are equal. -/
lemma eq_of_covers (h₁ : Canonical l₁) (h₂ : Canonical l₂) (h : ∀ n, Covers l₁ n ↔ Covers l₂ n) :
    l₁ = l₂ := by
  have hsorted : ∀ {l}, Canonical l → l.Pairwise fun i j => i.1 < j.1 := fun h =>
    h.apart.imp_of_mem fun hi _ hgap => by
      have hne := h.nonempty _ hi
      omega
  refine Sorting.eq_of_strictly_sorted (hsorted h₁) (hsorted h₂) fun i => ?_
  simp only [h₁.mem_iff, h₂.mem_iff, h]

/-- The pass: the last interval so far takes in the next one, or is left behind. -/
def mergeFrom (last : ℕ × ℕ) : List (ℕ × ℕ) → List (ℕ × ℕ)
  | [] => [last]
  | i :: rest =>
    if i.1 ≤ last.2 + 1 then mergeFrom (last.1, max last.2 i.2) rest else last :: mergeFrom i rest

def merge : List (ℕ × ℕ) → List (ℕ × ℕ)
  | [] => []
  | i :: rest => mergeFrom i rest

lemma mergeFrom_spec (hne : ∀ i ∈ last :: rest, i.1 ≤ i.2)
    (hsorted : (last :: rest).Pairwise fun i j => i.1 ≤ j.1) :
    Canonical (mergeFrom last rest) ∧ (∀ i ∈ mergeFrom last rest, last.1 ≤ i.1) ∧
      ∀ n, Covers (mergeFrom last rest) n ↔ Covers (last :: rest) n := by
  induction rest generalizing last with
  | nil => exact ⟨⟨hne, pairwise_singleton _ _⟩, by simp [mergeFrom], fun n => Iff.rfl⟩
  | cons i rest ih =>
    simp only [forall_mem_cons, pairwise_cons] at hne hsorted ih
    rw [mergeFrom]
    split_ifs with hmerges
    · rcases @ih (last.1, max last.2 i.2) ⟨le_max_of_le_left hne.1, hne.2.2⟩
        ⟨hsorted.1.2, hsorted.2.2⟩ with ⟨hcanonical, hfirst, hcovers⟩
      refine ⟨hcanonical, hfirst, fun n => ?_⟩
      have hstart := hsorted.1.1
      rw [hcovers]
      simp only [Covers, exists_mem_cons_iff]
      rw [← or_assoc]
      refine or_congr_left ?_
      omega
    · rcases ih hne.2 hsorted.2 with ⟨hcanonical, hfirst, hcovers⟩
      refine ⟨⟨forall_mem_cons.mpr ⟨hne.1, hcanonical.nonempty⟩, pairwise_cons.mpr
        ⟨fun j hj => ?_, hcanonical.apart⟩⟩, forall_mem_cons.mpr ⟨le_rfl, fun j hj => ?_⟩, fun n => ?_⟩
      · have hj := hfirst j hj
        omega
      · exact hsorted.1.1.trans (hfirst j hj)
      · simp only [Covers, exists_mem_cons_iff] at hcovers ⊢
        rw [hcovers]

/-- **Merging** gives a canonical list that covers the same numbers. -/
lemma merge_spec (hne : ∀ i ∈ l, i.1 ≤ i.2) (hsorted : l.Pairwise fun i j => i.1 ≤ j.1) :
    Canonical (merge l) ∧ ∀ n, Covers (merge l) n ↔ Covers l n := by
  cases l with
  | nil => exact ⟨⟨by simp [merge], Pairwise.nil⟩, fun n => Iff.rfl⟩
  | cons i rest => exact ⟨(mergeFrom_spec hne hsorted).1, (mergeFrom_spec hne hsorted).2.2⟩

end Intervals
