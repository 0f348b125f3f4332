import EraInfra.Core.Encoding

/-!
# Names that end in a number

A name made of a stem, a dash and a decimal number can be taken apart again, whatever the stem: the
number is what follows the last dash.
-/

namespace DocStore

open List

lemma toList_toString (n : ℕ) : (toString n).toList = Nat.toDigits 10 n := by
  rw [show toString n = String.ofList (Nat.toDigits 10 n) from Nat.repr_eq_ofList_toDigits,
    String.toList_ofList]

/-- A decimal number has no dash in it. -/
lemma dash_notMem_toString (n : ℕ) : '-' ∉ (toString n).toList := by
  intro h
  rw [toList_toString] at h
  exact absurd (Nat.isDigit_of_mem_toDigits (by decide) (by decide) h) (by decide)

/-- A decimal number can be read back. -/
lemma toString_inj {n m : ℕ} (h : (toString n).toList = (toString m).toList) : n = m := by
  rw [toList_toString, toList_toString] at h
  have hread := congrArg (fun digits => Nat.ofDigitChars 10 digits 0) h
  simpa using hread

/-- A list is taken apart at the last place of a separator. -/
lemma append_sep_inj {α : Type} {sep : α} {l l' r r' : List α} (hr : sep ∉ r)
    (hr' : sep ∉ r') (h : l ++ sep :: r = l' ++ sep :: r') : l = l' ∧ r = r' := by
  have hrev : r.reverse ++ sep :: l.reverse = r'.reverse ++ sep :: l'.reverse := by
    simpa using congrArg reverse h
  have hprefix : r.reverse ++ sep :: l.reverse <+: r'.reverse ++ sep :: l'.reverse := by rw [hrev]
  have hrr := ((Encoding.prefix_separated (by simpa using hr) (by simpa using hr')).mp hprefix).1
  rw [hrr] at hrev
  have hll := append_cancel_left hrev
  exact ⟨reverse_injective (cons.inj hll).2, reverse_injective hrr⟩

/-- **A name determines its stem and its number.** -/
theorem numbered_inj {a b : String} {n m : ℕ} (h : a ++ "-" ++ toString n = b ++ "-" ++ toString m) :
    a = b ∧ n = m := by
  have hlists : a.toList ++ '-' :: (toString n).toList = b.toList ++ '-' :: (toString m).toList := by
    simpa using congrArg String.toList h
  obtain ⟨hab, hnm⟩ := append_sep_inj (dash_notMem_toString n) (dash_notMem_toString m) hlists
  exact ⟨String.toList_injective hab, toString_inj hnm⟩

end DocStore
