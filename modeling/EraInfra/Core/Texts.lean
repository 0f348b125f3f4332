import Mathlib

/-!
# Texts in two encodings

What programs that hold their texts as UTF-8 bytes, and programs that hold them as UTF-16 units, can
agree on.  An ASCII character is one byte in the one and one unit in the other, and no other character
has a byte or a unit below 128, so a search for ASCII characters finds the same in both
(`any_utf8_iff`, `any_utf16_iff`).

Lower case is what Unicode makes of each character (`Lowers`): the libraries of two languages may differ
in it, but not on the ASCII letters that a text comes to have.
-/

namespace Texts

open List

/-! ## Bytes and units -/

/-- The bytes of a text. -/
def utf8 (s : List Char) : List UInt8 := s.flatMap String.utf8EncodeChar

/-- The units of a character. -/
def units (c : Char) : List ℕ :=
  if c.toNat < 0x10000 then [c.toNat]
  else [0xd800 + (c.toNat - 0x10000) / 0x400, 0xdc00 + (c.toNat - 0x10000) % 0x400]

def utf16 (s : List Char) : List ℕ := s.flatMap units

variable {s t : List Char} {c : Char} {p : ℕ → Prop}

lemma utf8EncodeChar_ascii (h : c.toNat < 128) : String.utf8EncodeChar c = [UInt8.ofNat c.toNat] := by
  have hle : c.val.toNat ≤ 127 := Nat.lt_succ_iff.mp h
  simp only [String.utf8EncodeChar, if_pos hle]
  rfl

lemma le_of_mem_utf8EncodeChar (h : 128 ≤ c.toNat) {b : UInt8} (hb : b ∈ String.utf8EncodeChar c) :
    128 ≤ b.toNat := by
  have hgt : ¬ c.val.toNat ≤ 127 := Nat.not_le.mpr h
  simp only [String.utf8EncodeChar] at hb
  split_ifs at hb <;> simp only [mem_cons, not_mem_nil, or_false] at hb
  · rcases hb with rfl | rfl <;> rw [UInt8.toNat_ofNat'] <;> omega
  · rcases hb with rfl | rfl | rfl <;> rw [UInt8.toNat_ofNat'] <;> omega
  · rcases hb with rfl | rfl | rfl | rfl <;> rw [UInt8.toNat_ofNat'] <;> omega

/-- Looking for ASCII among the bytes. -/
lemma exists_utf8_iff (hp : ∀ n, p n → n < 128) : (∃ b ∈ utf8 s, p b.toNat) ↔ ∃ c ∈ s, p c.toNat := by
  simp only [utf8, mem_flatMap]
  constructor
  · rintro ⟨b, ⟨c, hc, hb⟩, hpb⟩
    by_cases hascii : c.toNat < 128
    · rw [utf8EncodeChar_ascii hascii, mem_singleton] at hb
      rw [hb, UInt8.toNat_ofNat', Nat.mod_eq_of_lt (by omega)] at hpb
      exact ⟨c, hc, hpb⟩
    · exact absurd (hp _ hpb) (Nat.not_lt.mpr (le_of_mem_utf8EncodeChar (Nat.not_lt.mp hascii) hb))
  · rintro ⟨c, hc, hpc⟩
    have hascii := hp _ hpc
    refine ⟨UInt8.ofNat c.toNat, ⟨c, hc, ?_⟩, ?_⟩
    · rw [utf8EncodeChar_ascii hascii, mem_singleton]
    · rw [UInt8.toNat_ofNat', Nat.mod_eq_of_lt (by omega)]
      exact hpc

/-- Looking for ASCII among the units. -/
lemma exists_utf16_iff (hp : ∀ n, p n → n < 128) : (∃ u ∈ utf16 s, p u) ↔ ∃ c ∈ s, p c.toNat := by
  simp only [utf16, mem_flatMap, units]
  constructor
  · rintro ⟨u, ⟨c, hc, hu⟩, hpu⟩
    have hsmall := hp _ hpu
    split_ifs at hu
    · rw [mem_singleton] at hu
      exact ⟨c, hc, hu ▸ hpu⟩
    · simp only [mem_cons, not_mem_nil, or_false] at hu
      omega
  · rintro ⟨c, hc, hpc⟩
    have hascii := hp _ hpc
    exact ⟨c.toNat, ⟨c, hc, by rw [if_pos (by omega), mem_singleton]⟩, hpc⟩

/-- What is checked character by character. -/
lemma forall_mem_of_all {P : Char → Prop} [DecidablePred P] {text : List Char}
    (h : (text.all fun c => P c) = true) : ∀ c ∈ text, P c :=
  fun c hc => of_decide_eq_true (all_eq_true.mp h c hc)

/-! ## Lower case -/

/-- The Kelvin sign, whose lower case is an ASCII letter. -/
def kelvin : Char := Char.ofNat 0x212a

/-- What a character may become in lower case.  Apart from the Kelvin sign, the only character outside
ASCII that has an ASCII character in its lower case is a capital I with a dot. -/
def LowerOf (c : Char) (piece : List Char) : Prop :=
  if c.toNat < 128 then piece = [c.toLower]
  else if c = kelvin then piece = ['k']
  else piece ≠ [] ∧ ∀ d ∈ piece, d.toNat < 128 → d = 'i'

/-- A text and its lower case, character by character. -/
inductive Lowers : List Char → List Char → Prop
  | nil : Lowers [] []
  | cons {c : Char} {piece s t : List Char} : LowerOf c piece → Lowers s t → Lowers (c :: s) (piece ++ t)

/-- A library's lower case. -/
structure CaseMap where
  lower : List Char → List Char
  lowers : ∀ s, Lowers s (lower s)

/-- The lower case of ASCII letters, and of what has one. -/
def foldCase (c : Char) : Char :=
  if c.toNat < 128 then c.toLower else if c = kelvin then 'k' else c

lemma lowerOf_foldCase (c : Char) : LowerOf c [foldCase c] := by
  simp only [LowerOf, foldCase]
  split_ifs with hascii hkelvin
  · rfl
  · rfl
  · refine ⟨by simp, fun d hd hsmall => ?_⟩
    rw [mem_singleton] at hd
    exact absurd (hd ▸ hsmall) hascii

/-- The simplest lower case. -/
def foldMap : CaseMap where
  lower s := s.map foldCase
  lowers s := by
    induction s with
    | nil => exact Lowers.nil
    | cons c s ih => exact Lowers.cons (lowerOf_foldCase c) ih

section Search

variable {pattern piece : List Char}

/-- Characters that a pattern does not have are passed over. -/
lemma infix_append_iff (hne : pattern ≠ []) (hpiece : ∀ d ∈ piece, d ∉ pattern) :
    pattern <:+: piece ++ t ↔ pattern <:+: t := by
  induction piece with
  | nil => rfl
  | cons d piece ih =>
    rw [forall_mem_cons] at hpiece
    rw [cons_append, infix_cons_iff, ih hpiece.2]
    refine ⟨fun h => h.resolve_left fun hstart => ?_, .inr⟩
    cases pattern with
    | nil => exact hne rfl
    | cons q pattern =>
      rw [cons_prefix_cons] at hstart
      exact hpiece.1 (by simp [hstart.1])

lemma prefix_iff_of_lowers (hpattern : ∀ q ∈ pattern, q.toNat < 128 ∧ q ≠ 'i') (h : Lowers s t) :
    pattern <+: t ↔ pattern <+: s.map foldCase := by
  induction h generalizing pattern with
  | nil => rfl
  | @cons c piece s t hlower _ ih =>
    rcases pattern with _ | ⟨q, pattern⟩
    · simp
    rw [forall_mem_cons] at hpattern
    simp only [LowerOf] at hlower
    rw [map_cons, cons_prefix_cons, foldCase]
    split_ifs at hlower ⊢ with hascii hkelvin
    · rw [hlower, singleton_append, cons_prefix_cons, ih hpattern.2]
    · rw [hlower, singleton_append, cons_prefix_cons, ih hpattern.2]
    rcases hlower with ⟨hne, hother⟩
    cases piece with
    | nil => exact absurd rfl hne
    | cons d piece =>
      rw [cons_append, cons_prefix_cons]
      refine iff_of_false (fun h => ?_) (fun h => ?_)
      · exact hpattern.1.2 (h.1.trans (hother d (by simp) (h.1 ▸ hpattern.1.1)))
      · exact hascii (h.1 ▸ hpattern.1.1)

/-- **Searching lower case** for an ASCII pattern finds the same in every library. -/
theorem infix_iff_of_lowers (hne : pattern ≠ []) (hpattern : ∀ q ∈ pattern, q.toNat < 128 ∧ q ≠ 'i')
    (h : Lowers s t) : pattern <:+: t ↔ pattern <:+: s.map foldCase := by
  induction h with
  | nil => rfl
  | @cons c piece s t hlower hrest ih =>
    have hstart := prefix_iff_of_lowers hpattern (Lowers.cons hlower hrest)
    rw [map_cons] at hstart ⊢
    simp only [LowerOf] at hlower
    split_ifs at hlower with hascii hkelvin
    · rw [hlower, singleton_append] at hstart ⊢
      rw [infix_cons_iff, infix_cons_iff, hstart, ih]
    · rw [hlower, singleton_append] at hstart ⊢
      rw [infix_cons_iff, infix_cons_iff, hstart, ih]
    have hpassed : ∀ d ∈ piece, d ∉ pattern := fun d hd hmem =>
      (hpattern d hmem).2 (hlower.2 d hd (hpattern d hmem).1)
    have hother : ∀ d ∈ [foldCase c], d ∉ pattern := by
      intro d hd hmem
      rw [mem_singleton, foldCase, if_neg hascii, if_neg hkelvin] at hd
      exact hascii (hd ▸ (hpattern d hmem).1)
    rw [infix_append_iff hne hpassed, ih, ← singleton_append (x := foldCase c),
      infix_append_iff hne hother]

end Search

/-! ## Tables of keys -/

/-- The order of a table does not matter to a search that at most one entry answers. -/
lemma find?_eq_of_perm {α : Type} {l l' : List α} {q : α → Bool} (h : l.Perm l')
    (hone : ∀ a ∈ l, ∀ b ∈ l, q a = true → q b = true → a = b) : l.find? q = l'.find? q := by
  cases hfind : l.find? q with
  | none =>
    rw [find?_eq_none] at hfind
    symm
    rw [find?_eq_none]
    exact fun a ha => hfind a (h.mem_iff.mpr ha)
  | some a =>
    have ha := mem_of_find?_eq_some hfind
    have hqa := find?_some hfind
    cases hfind' : l'.find? q with
    | none =>
      rw [find?_eq_none] at hfind'
      exact absurd hqa (by simpa using hfind' a (h.mem_iff.mp ha))
    | some b =>
      have hb := h.mem_iff.mpr (mem_of_find?_eq_some hfind')
      rw [hone a ha b hb hqa (find?_some hfind')]

end Texts
