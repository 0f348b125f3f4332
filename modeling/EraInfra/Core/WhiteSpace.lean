import EraInfra.Core.Encoding

/-!
# White space around a text

A text is trimmed by taking code words of white space off its front, and then off its back.  The text
is one of bytes, where the code words are those of UTF-8 (`trimSpace`), or one of characters, each a
code word of its own (`trimSpaceText`).

A code word never reaches across a byte that no code word has, so what stands before the first slash
of a text decides whether its front is free of white space, and what stands after the last one decides
about its back (`FrontFree.append_sep`, `BackFree.sep_append`).
-/

namespace Encoding

open List

/-! ## Code words at the front -/

section Codes

variable {α : Type} {codes : List (List α)} {s t : List α} {sep : α}

/-- No code word begins the text. -/
def Free (codes : List (List α)) (s : List α) : Prop := ∀ code ∈ codes, ¬ code <+: s

/-- A letter that no code word has ends the part of a text that matters. -/
lemma Free.append_sep (hsep : ∀ code ∈ codes, sep ∉ code) (h : Free codes s) (t : List α) :
    Free codes (s ++ sep :: t) :=
  fun code hcode hstart => h code hcode ((prefix_before (hsep code hcode)).mp hstart)

variable [DecidableEq α]

instance (codes : List (List α)) (s : List α) : Decidable (Free codes s) := List.decidableBAll _ _

/-- Take code words off the front, at most so many. -/
def trimFront (codes : List (List α)) : ℕ → List α → List α
  | 0, s => s
  | n + 1, s =>
    match codes.find? fun code => code.isPrefixOf s with
    | none => s
    | some code => trimFront codes n (s.drop code.length)

lemma trimFront_of_free (h : Free codes s) (n : ℕ) : trimFront codes n s = s := by
  cases n with
  | zero => rfl
  | succ n =>
    have hnone : codes.find? (fun code => code.isPrefixOf s) = none := by
      simpa [Free] using h
    simp [trimFront, hnone]

/-- A code word at the front makes the text shorter. -/
lemma free_trimFront (hnil : [] ∉ codes) : ∀ n s, s.length ≤ n → Free codes (trimFront codes n s) := by
  intro n
  induction n with
  | zero =>
    intro s hs code hcode hstart
    have hs : s = [] := length_eq_zero_iff.mp (by omega)
    simp only [trimFront, hs, prefix_nil] at hstart
    exact hnil (hstart ▸ hcode)
  | succ n ih =>
    intro s hs
    simp only [trimFront]
    cases hfind : codes.find? fun code => code.isPrefixOf s with
    | none => simpa [Free] using hfind
    | some code =>
      have hmem := mem_of_find?_eq_some hfind
      have hlen : code.length ≠ 0 := by
        intro h0
        exact hnil (length_eq_zero_iff.mp h0 ▸ hmem)
      refine ih _ ?_
      simp only [length_drop]
      omega

lemma trimFront_suffix (codes : List (List α)) (n : ℕ) (s : List α) : trimFront codes n s <:+ s := by
  induction n generalizing s with
  | zero => exact suffix_rfl
  | succ n ih =>
    simp only [trimFront]
    split
    · exact suffix_rfl
    · exact (ih _).trans (drop_suffix _ _)

/-- A letter that no code word has is not taken off. -/
lemma mem_trimFront (hsep : ∀ code ∈ codes, sep ∉ code) (h : sep ∈ s) (n : ℕ) :
    sep ∈ trimFront codes n s := by
  induction n generalizing s with
  | zero => exact h
  | succ n ih =>
    simp only [trimFront]
    split
    · exact h
    rename_i code hfind
    have hstart : code.isPrefixOf s = true :=
      find?_some (p := fun code : List α => code.isPrefixOf s) hfind
    obtain ⟨rest, rfl⟩ := isPrefixOf_iff_prefix.mp hstart
    rw [drop_left]
    exact ih ((mem_append.mp h).resolve_left (hsep code (mem_of_find?_eq_some hfind)))

/-- Take code words off both ends. -/
def trimCodes (codes : List (List α)) (s : List α) : List α :=
  let s := trimFront codes s.length s
  (trimFront (codes.map List.reverse) s.length s.reverse).reverse

/-- Code words of one letter each are taken off letter by letter. -/
lemma trimFront_letters (letters : List α) {n : ℕ} (h : s.length ≤ n) :
    trimFront (letters.map fun a => [a]) n s = s.dropWhile (letters.contains ·) := by
  induction n generalizing s with
  | zero =>
    rw [length_eq_zero_iff.mp (Nat.le_zero.mp h)]
    rfl
  | succ n ih =>
    cases s with
    | nil => exact trimFront_of_free (by simp [Free]) _
    | cons a s =>
      simp only [trimFront]
      cases hfind : (letters.map fun a => [a]).find? fun code => code.isPrefixOf (a :: s) with
      | none =>
        have ha : a ∉ letters := by
          rintro ha
          simpa using find?_eq_none.mp hfind _ (mem_map_of_mem ha)
        simp [ha]
      | some code =>
        rcases mem_map.mp (mem_of_find?_eq_some hfind) with ⟨b, hb, rfl⟩
        have hba : b = a := by simpa using find?_some hfind
        rw [← hba]
        simp [hb, ih (Nat.le_of_succ_le_succ h)]

lemma trimCodes_letters (letters : List α) (s : List α) : trimCodes (letters.map fun a => [a]) s
      = ((s.dropWhile (letters.contains ·)).reverse.dropWhile (letters.contains ·)).reverse := by
  have hback : (letters.map fun a => [a]).map List.reverse = letters.map fun a => [a] := by simp
  rw [trimCodes, hback, trimFront_letters letters le_rfl, trimFront_letters letters (by simp)]

end Codes

/-! ## White space -/

/-- The characters with the property White_Space. -/
def whiteSpace : List Char :=
  ([9, 10, 11, 12, 13, 0x20, 0x85, 0xa0, 0x1680, 0x2000, 0x2001, 0x2002, 0x2003, 0x2004, 0x2005,
    0x2006, 0x2007, 0x2008, 0x2009, 0x200a, 0x2028, 0x2029, 0x202f, 0x205f, 0x3000]).map Char.ofNat

/-- Their code words in UTF-8. -/
def spaceCodes : List Bytes :=
  [[9], [10], [11], [12], [13], [32], [0xC2, 0x85], [0xC2, 0xA0], [0xE1, 0x9A, 0x80],
    [0xE2, 0x80, 0x80], [0xE2, 0x80, 0x81], [0xE2, 0x80, 0x82], [0xE2, 0x80, 0x83],
    [0xE2, 0x80, 0x84], [0xE2, 0x80, 0x85], [0xE2, 0x80, 0x86], [0xE2, 0x80, 0x87],
    [0xE2, 0x80, 0x88], [0xE2, 0x80, 0x89], [0xE2, 0x80, 0x8A], [0xE2, 0x80, 0xA8],
    [0xE2, 0x80, 0xA9], [0xE2, 0x80, 0xAF], [0xE2, 0x81, 0x9F], [0xE3, 0x80, 0x80]]

example : spaceCodes = whiteSpace.map String.utf8EncodeChar := by decide

/-- The same, read from the back. -/
def spaceCodesBack : List Bytes := spaceCodes.map List.reverse

/-- `strings.TrimSpace` of bytes. -/
def trimSpace (s : Bytes) : Bytes := trimCodes spaceCodes s

/-- `strings.TrimSpace` of a text that is valid UTF-8, by its characters. -/
def trimSpaceText (s : String) : String :=
  String.ofList (trimCodes (whiteSpace.map fun c => [c]) s.toList)

/-- The text does not begin with white space. -/
def FrontFree (s : Bytes) : Prop := Free spaceCodes s

/-- The text does not end with white space. -/
def BackFree (s : Bytes) : Prop := Free spaceCodesBack s.reverse

instance (s : Bytes) : Decidable (FrontFree s) := inferInstanceAs (Decidable (Free _ _))
instance (s : Bytes) : Decidable (BackFree s) := inferInstanceAs (Decidable (Free _ _))

variable {s : Bytes}

lemma trimSpace_of_free (hfront : FrontFree s) (hback : BackFree s) : trimSpace s = s := by
  have hback' : Free (spaceCodes.map List.reverse) s.reverse := hback
  simp [trimSpace, trimCodes, trimFront_of_free hfront, trimFront_of_free hback']

lemma backFree_trimSpace (s : Bytes) : BackFree (trimSpace s) := by
  simp only [BackFree, trimSpace, trimCodes, reverse_reverse]
  exact free_trimFront (by decide) _ _ (by simp)

lemma frontFree_trimSpace (s : Bytes) : FrontFree (trimSpace s) := by
  have hfront : Free spaceCodes (trimFront spaceCodes s.length s) :=
    free_trimFront (by decide) _ _ le_rfl
  refine fun code hcode hstart => hfront code hcode (hstart.trans ?_)
  -- what is taken off the back leaves a beginning
  simpa [trimSpace, trimCodes] using reverse_prefix.mpr
    (trimFront_suffix (spaceCodes.map List.reverse) (trimFront spaceCodes s.length s).length
      (trimFront spaceCodes s.length s).reverse)

@[simp] lemma trimSpace_trimSpace (s : Bytes) : trimSpace (trimSpace s) = trimSpace s :=
  trimSpace_of_free (frontFree_trimSpace s) (backFree_trimSpace s)

lemma backFree_of_trimSpace_eq (h : trimSpace s = s) : BackFree s := by
  rw [← h]
  exact backFree_trimSpace s

lemma slash_mem_trimSpace (h : 47 ∈ s) : 47 ∈ trimSpace s := by
  refine mem_reverse.mpr (mem_trimFront (by decide) (mem_reverse.mpr ?_) _)
  exact mem_trimFront (by decide) h _

/-- A slash is no part of white space. -/
lemma FrontFree.append_sep (h : FrontFree s) (t : Bytes) : FrontFree (s ++ 47 :: t) :=
  Free.append_sep (by decide) h t

lemma BackFree.sep_append (h : BackFree s) (t : Bytes) : BackFree (t ++ 47 :: s) := by
  have hback : Free spaceCodesBack (s.reverse ++ 47 :: t.reverse) :=
    Free.append_sep (by decide) h t.reverse
  simpa [BackFree] using hback

end Encoding
