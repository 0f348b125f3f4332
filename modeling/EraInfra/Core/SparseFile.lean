import Mathlib.Tactic

/-!
# Sparse files

A file that is written piece by piece, each piece at its own offset.  A write past the end leaves a
hole, which reads as zeros.  After any sequence of writes, an offset that was written holds what the
last write over it put there (`getElem?_writes`).

Two conditions say when such a sequence leaves a file whole.  **Joined up**: every write that does not
start at the beginning starts within, or right after, one that starts earlier; then there is no hole
before the end of any write (`covered_of_joined`).  **Redone**: whatever a discarded write wrote, a
kept one wrote again later; then the kept writes alone determine the contents (`lastByte_filter`).
-/

namespace SparseFile

open List Option

variable {β : Type}

/-- A write of some bytes at an offset, which its writer may have discarded. -/
structure Write (β : Type) where
  offset : ℕ
  bytes : List β
  kept : Bool
deriving DecidableEq

namespace Write

/-- One past the last offset written. -/
def stop (w : Write β) : ℕ := w.offset + w.bytes.length

/-- What the write put at an offset, if anything. -/
def byteAt (w : Write β) (i : ℕ) : Option β :=
  if i < w.offset then none else w.bytes[i - w.offset]?

lemma byteAt_isSome {w : Write β} {i : ℕ} : (w.byteAt i).isSome = true ↔ w.offset ≤ i ∧ i < w.stop := by
  unfold byteAt stop
  split
  · simp
    omega
  · simp
    omega

end Write

/-- The contents after a write; an empty one does not touch the file. -/
def write [Zero β] (contents : List β) (w : Write β) : List β :=
  if w.bytes = [] then contents
  else contents.take w.offset ++ List.replicate (w.offset - contents.length) 0 ++ w.bytes ++
    contents.drop w.stop

/-- What the last of some writes over an offset put there, if any was over it. -/
def lastByte : List (Write β) → ℕ → Option β
  | [], _ => none
  | w :: ws, i => (lastByte ws i).or (w.byteAt i)

variable {w : Write β} {ws : List (Write β)} {i : ℕ} {b : β}

lemma lastByte_snoc : lastByte (ws ++ [w]) i = (w.byteAt i).or (lastByte ws i) := by
  induction ws with
  | nil => simp [lastByte]
  | cons v ws ih => rw [cons_append, lastByte, lastByte, ih, Option.or_assoc]

lemma lastByte_isSome : (lastByte ws i).isSome = true ↔ ∃ w ∈ ws, (w.byteAt i).isSome = true := by
  induction ws with
  | nil => simp [lastByte]
  | cons w ws ih =>
    rw [lastByte, isSome_or, Bool.or_eq_true, ih, exists_mem_cons_iff, or_comm]

/-! ## Contents -/

section Contents

variable [Zero β] {contents : List β}

/-- The part of the file before a write. -/
private lemma length_before :
    (contents.take w.offset ++ replicate (w.offset - contents.length) 0).length = w.offset := by
  simp
  omega

lemma getElem?_write_written (h : w.byteAt i = some b) : (write contents w)[i]? = some b := by
  obtain ⟨hlow, hhigh⟩ : w.offset ≤ i ∧ i < w.stop := Write.byteAt_isSome.mp (by rw [h]; rfl)
  unfold Write.byteAt at h
  rw [if_neg (by omega)] at h
  unfold Write.stop at hhigh
  have hne : w.bytes ≠ [] := fun hnil => by simp [hnil] at h
  rw [write, if_neg hne, append_assoc, getElem?_append_right (by rw [length_before]; exact hlow),
    length_before, getElem?_append_left (by omega), h]

lemma getElem?_write_other (h : w.byteAt i = none) (hi : contents[i]? = some b) :
    (write contents w)[i]? = some b := by
  have hlength : i < contents.length := (List.getElem?_eq_some_iff.mp hi).1
  have houtside : ¬(w.offset ≤ i ∧ i < w.stop) := fun hinside => by
    rw [← Write.byteAt_isSome, h] at hinside
    cases hinside
  unfold write
  split
  · exact hi
  by_cases hlow : i < w.offset
  · rw [append_assoc, append_assoc, getElem?_append_left (by simp; omega), getElem?_take_of_lt hlow, hi]
  · have hhigh : w.stop ≤ i := by omega
    unfold Write.stop at hhigh
    rw [getElem?_append_right (by rw [length_append, length_before]; exact hhigh),
      length_append, length_before, getElem?_drop, Write.stop, Nat.add_sub_cancel' hhigh, hi]

/-- **The last writer determines a byte.** -/
theorem getElem?_writes (h : lastByte ws i = some b) : (ws.foldl write contents)[i]? = some b := by
  induction ws using reverseRecOn with
  | nil => cases h
  | append_singleton ws w ih =>
    rw [foldl_append, foldl_cons]
    rw [lastByte_snoc] at h
    cases hw : w.byteAt i with
    | some b' =>
      rw [hw] at h
      exact getElem?_write_written (hw.trans h)
    | none =>
      rw [hw] at h
      exact getElem?_write_other hw (ih h)

end Contents

/-! ## Whole files -/

/-- Every write that does not start at the beginning starts within, or right after, an earlier one. -/
def JoinedUp (ws : List (Write β)) : Prop :=
  ∀ w ∈ ws, 0 < w.offset → ∃ v ∈ ws, v.offset < w.offset ∧ w.offset ≤ v.stop

/-- **Writes that are joined leave no hole.** -/
theorem covered_of_joined (h : JoinedUp ws) (hw : w ∈ ws) (hi : i < w.stop) :
    ∃ v ∈ ws, (v.byteAt i).isSome = true := by
  -- go down the chain of writes until one starts at or before the offset
  induction hn : w.offset using Nat.strong_induction_on generalizing w with
  | _ n ih =>
    by_cases hlow : w.offset ≤ i
    · exact ⟨w, hw, Write.byteAt_isSome.mpr ⟨hlow, hi⟩⟩
    · obtain ⟨v, hv, hlt, hstop⟩ := h w hw (by omega)
      exact ih v.offset (by omega) hv (by omega) rfl

/-- Whatever a discarded write wrote, a kept one wrote again later. -/
def Redone : List (Write β) → Prop
  | [] => True
  | w :: ws => (w.kept = false → ∀ i, (w.byteAt i).isSome = true →
      ∃ v ∈ ws.filter Write.kept, (v.byteAt i).isSome = true) ∧ Redone ws

/-- **Discarded writes that were redone do not show.** -/
theorem lastByte_filter (h : Redone ws) : lastByte (ws.filter Write.kept) i = lastByte ws i := by
  induction ws with
  | nil => rfl
  | cons w ws ih =>
    obtain ⟨hw, hws⟩ := h
    have ih := ih hws
    cases hkept : w.kept with
    | true => rw [filter_cons_of_pos hkept, lastByte, lastByte, ih]
    | false =>
      rw [filter_cons_of_neg (by simp [hkept]), lastByte, ih]
      cases hbyte : w.byteAt i with
      | none => rw [or_none]
      | some b =>
        have hsome := lastByte_isSome.mpr (hw hkept i (by rw [hbyte]; rfl))
        rw [ih] at hsome
        rw [or_of_isSome hsome]

end SparseFile
