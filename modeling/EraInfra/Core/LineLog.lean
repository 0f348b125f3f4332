import Mathlib.Tactic

/-!
# Files of lines

A file that is only ever appended to, one line at a time, and what an interrupted append leaves in
it: whole lines, and a piece of one more that has no end (`split_lines`).  A piece of a line is the
whole line or has no end (`take_line`), so whatever was on its way, the lines that were there
before are read back as they were.
-/

namespace LineLog

open List

variable {α : Type} {stop : α} {l t : List α}

section Split

variable [DecidableEq α]

/-- The lines of a file, each with its end, and what stands after the last end. -/
def split (stop : α) : List α → List (List α) × List α
  | [] => ([], [])
  | a :: data =>
    let (lines, rest) := split stop data
    if a = stop then ([a] :: lines, rest)
    else
      match lines with
      | [] => ([], a :: rest)
      | line :: lines => ((a :: line) :: lines, rest)

lemma split_of_not_mem (h : stop ∉ t) : split stop t = ([], t) := by
  induction t with
  | nil => rfl
  | cons a t ih =>
    rw [mem_cons, not_or] at h
    simp only [split, ih h.2, if_neg (Ne.symm h.1)]

lemma split_line (h : stop ∉ l) (data : List α) :
    split stop (l ++ stop :: data) = ((l ++ [stop]) :: (split stop data).1, (split stop data).2) := by
  induction l with
  | nil => simp [split]
  | cons a l ih =>
    rw [mem_cons, not_or] at h
    simp only [cons_append, split, ih h.2, if_neg (Ne.symm h.1)]

/-- What is read back from whole lines and an unfinished one. -/
lemma split_lines (ht : stop ∉ t) {lines : List (List α)} (hlines : ∀ l ∈ lines, stop ∉ l) :
    split stop ((lines.map (· ++ [stop])).flatten ++ t) = (lines.map (· ++ [stop]), t) := by
  induction lines with
  | nil => simpa using split_of_not_mem ht
  | cons l lines ih =>
    rw [forall_mem_cons] at hlines
    have hsplit := split_line hlines.1 ((lines.map (· ++ [stop])).flatten ++ t)
    rw [ih hlines.2] at hsplit
    simpa using hsplit

end Split

/-- A piece of a line, from its beginning. -/
lemma take_line (h : stop ∉ l) (n : ℕ) :
    (l ++ [stop]).take n = l ++ [stop] ∨ stop ∉ (l ++ [stop]).take n := by
  by_cases hn : n ≤ l.length
  · rw [take_append_of_le_length hn]
    exact .inr fun hmem => h (mem_of_mem_take hmem)
  · refine .inl (take_of_length_le ?_)
    rw [length_append, length_singleton]
    omega

end LineLog
