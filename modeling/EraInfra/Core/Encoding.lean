import Mathlib.Tactic

/-!
# Bytes and numbers as text

**Prefix codes** — a code in which no word begins another can be read off from the front, so the
encoding of a list begins another encoding exactly when the list begins the other list
(`PrefixFree.flatMap_prefix`).

**Separators** — what stands before the first separator is determined by the whole.

**Hexadecimal** — two lowercase digits a byte, as `padStart(2, "0")` in JavaScript and
`hex.EncodeToString` in Go write them: a prefix code.

**Numbers of 64 bits** — `int64` of Go, which wraps.

**Decimal** — the digits of a number without leading zeros.  The text determines the number and the
number the text (`toDigits_ofDigitChars` is the direction the standard library does not have), and
so do the four fields of a dotted address.
-/

namespace Encoding

open List Nat

/-! ## Bytes -/

/-- A string of Go, and the name of an object. -/
abbrev Bytes := List UInt8

/-- The order of bytes. -/
instance linearOrder : LinearOrder UInt8 where
  le_refl := UInt8.le_refl
  le_trans := fun _ _ _ => UInt8.le_trans
  le_antisymm := fun _ _ => UInt8.le_antisymm
  le_total := UInt8.le_total
  lt_iff_le_not_ge a b := by
    rw [UInt8.lt_iff_toNat_lt, UInt8.le_iff_toNat_le, UInt8.le_iff_toNat_le]
    omega
  toDecidableLE := inferInstance

instance lawfulBEq : LawfulBEq Bytes := inferInstance

/-- The bytes of an ASCII text. -/
def ascii (s : String) : Bytes := s.toList.map fun c => UInt8.ofNat c.toNat

/-- The text of ASCII bytes. -/
def text (bytes : Bytes) : String := String.ofList (bytes.map fun b => Char.ofNat b.toNat)

/-! ## Prefix codes -/

section PrefixCode

variable {α β : Type} {code : α → List β} {l m : List α}

/-- No word of the code begins another, and none is empty. -/
structure PrefixFree (code : α → List β) : Prop where
  ne_nil : ∀ a, code a ≠ []
  eq_of_prefix : ∀ a b, code a <+: code b → a = b

lemma PrefixFree.flatMap_prefix (h : PrefixFree code) :
    l.flatMap code <+: m.flatMap code ↔ l <+: m := by
  induction l generalizing m with
  | nil => simp
  | cons a l ih =>
    rcases m with _ | ⟨b, m⟩
    · simp [h.ne_nil a]
    rw [flatMap_cons, cons_prefix_cons]
    constructor
    · intro hprefix
      -- the two first words begin the same text, so one begins the other
      have ha := (prefix_append _ (l.flatMap code)).trans hprefix
      have hb := prefix_append (code b) (m.flatMap code)
      obtain rfl : a = b := by
        rcases prefix_or_prefix_of_prefix ha hb with hab | hba
        · exact h.eq_of_prefix a b hab
        · exact (h.eq_of_prefix b a hba).symm
      exact ⟨rfl, ih.mp ((prefix_append_right_inj _).mp hprefix)⟩
    · rintro ⟨rfl, hprefix⟩
      exact (prefix_append_right_inj _).mpr (ih.mpr hprefix)

lemma PrefixFree.flatMap_injective (h : PrefixFree code)
    (heq : l.flatMap code = m.flatMap code) : l = m := by
  have hlm : l <+: m := h.flatMap_prefix.mp (by rw [heq])
  have hml : m <+: l := h.flatMap_prefix.mp (by rw [heq])
  exact hlm.eq_of_length (le_antisymm hlm.length_le hml.length_le)

end PrefixCode

/-! ## Separators -/

section Separators

variable {α : Type} {sep : α} {a b x y : List α}

/-- What stands before the first separator. -/
lemma prefix_separated (ha : sep ∉ a) (hb : sep ∉ b) :
    a ++ sep :: x <+: b ++ sep :: y ↔ a = b ∧ x <+: y := by
  constructor
  · rintro ⟨t, ht⟩
    induction a generalizing b with
    | nil =>
      cases b with
      | nil => exact ⟨rfl, t, (cons.inj ht).2⟩
      | cons c b => exact absurd ((cons.inj ht).1 ▸ mem_cons_self) hb
    | cons c a ih =>
      cases b with
      | nil => exact absurd ((cons.inj ht).1 ▸ mem_cons_self) ha
      | cons d b =>
        obtain ⟨hcd, htail⟩ := cons.inj ht
        obtain ⟨hab, hxy⟩ := ih (fun h => ha (mem_cons_of_mem _ h))
          (fun h => hb (mem_cons_of_mem _ h)) htail
        exact ⟨by rw [hcd, hab], hxy⟩
  · rintro ⟨rfl, hxy⟩
    exact (prefix_append_right_inj _).mpr (cons_prefix_cons.mpr ⟨rfl, hxy⟩)

/-- What a joined text holds separates its parts, or is in one of them. -/
lemma mem_intercalate {parts : List (List α)} {c : α} (h : c ∈ [sep].intercalate parts) :
    c = sep ∨ ∃ part ∈ parts, c ∈ part := by
  induction parts with
  | nil => simp at h
  | cons part parts ih =>
    cases parts with
    | nil => exact .inr ⟨part, by simp, by simpa using h⟩
    | cons next rest =>
      simp only [intercalate, intersperse, flatten_cons, mem_append, mem_singleton] at h
      rcases h with h | h | h
      · exact .inr ⟨part, by simp, h⟩
      · exact .inl h
      · exact (ih h).imp_right fun ⟨other, hother, hc⟩ => ⟨other, mem_cons_of_mem _ hother, hc⟩

lemma mem_of_splitOn {text : List Char} {c : Char} (sep : Char) (h : c ∈ text) :
    c = sep ∨ ∃ part ∈ text.splitOn sep, c ∈ part := by
  have hjoin : [sep].intercalate (text.splitOn sep) = text := intercalate_splitOn sep
  rw [← hjoin] at h
  exact mem_intercalate h

/-- A text is what stands before its first separator, the separator and the rest. -/
lemma cut_append [DecidableEq α] (h : sep ∈ a) :
    a.takeWhile (· ≠ sep) ++ sep :: (a.dropWhile (· ≠ sep)).tail = a := by
  induction a with
  | nil => cases h
  | cons c a ih =>
    by_cases hc : c = sep
    · simp [hc]
    · have hmem := (mem_cons.mp h).resolve_left (Ne.symm hc)
      simpa [hc] using ih hmem

/-- A text without the separator that begins another ends before its separator. -/
lemma prefix_before (ha : sep ∉ a) : a <+: b ++ sep :: y ↔ a <+: b := by
  constructor
  · intro h
    rcases prefix_or_prefix_of_prefix h (prefix_append b (sep :: y)) with hab | hba
    · exact hab
    obtain ⟨t, rfl⟩ := hba
    cases t with
    | nil => rw [append_nil]
    | cons c t =>
      obtain ⟨rfl, -⟩ := cons_prefix_cons.mp ((prefix_append_right_inj b).mp h)
      exact absurd (mem_append_right b mem_cons_self) ha
  · exact fun h => h.trans (prefix_append _ _)

end Separators

/-! ## Hexadecimal -/

/-- One digit, `0`–`9` and `a`–`f`. -/
def hexDigit (n : ℕ) : UInt8 := UInt8.ofNat (if n < 10 then 48 + n else 87 + n)

/-- The two digits of a byte. -/
def hexByte (b : UInt8) : Bytes := [hexDigit (b.toNat / 16), hexDigit (b.toNat % 16)]

def hex (bytes : Bytes) : Bytes := bytes.flatMap hexByte

lemma hex_ne_nil {bytes : Bytes} (h : bytes ≠ []) : hex bytes ≠ [] := by
  cases bytes <;> simp_all [hex, hexByte]

lemma hexDigit_injective : ∀ m < 16, ∀ n < 16, hexDigit m = hexDigit n → m = n := by
  decide

lemma prefixFree_hexByte : PrefixFree hexByte where
  ne_nil _ := cons_ne_nil _ _
  eq_of_prefix a b h := by
    have heq := h.eq_of_length rfl
    have ha := a.toNat_lt
    have hb := b.toNat_lt
    obtain ⟨hhigh, hlow⟩ : hexDigit (a.toNat / 16) = hexDigit (b.toNat / 16) ∧
        hexDigit (a.toNat % 16) = hexDigit (b.toNat % 16) := by simpa [hexByte] using heq
    have hhigh := hexDigit_injective _ (by omega) _ (by omega) hhigh
    have hlow := hexDigit_injective _ (by omega) _ (by omega) hlow
    exact UInt8.toNat_inj.mp (by omega)

lemma hex_injective {a b : Bytes} (h : hex a = hex b) : a = b := prefixFree_hexByte.flatMap_injective h

/-- The digits are not punctuation. -/
lemma le_hexDigit : ∀ n < 16, 48 ≤ hexDigit n := by
  decide

lemma mem_hex {bytes : Bytes} {c : UInt8} (h : c ∈ hex bytes) : 48 ≤ c := by
  obtain ⟨b, -, hc⟩ := mem_flatMap.mp h
  have hb := b.toNat_lt
  rcases mem_pair.mp hc with rfl | rfl
  · exact le_hexDigit _ (by omega)
  · exact le_hexDigit _ (by omega)

/-! ## Numbers of 64 bits -/

/-- What is left of a number in an `int64`. -/
def int64 (n : ℤ) : ℤ := (n + 2 ^ 63) % 2 ^ 64 - 2 ^ 63

lemma int64_of_lt {n : ℤ} (h : 0 ≤ n) (h' : n < 2 ^ 63) : int64 n = n := by
  unfold int64
  omega

/-! ## Decimal -/

/-- `strconv.ParseInt(s, 10, 64)` of Go: a sign, then digits, of a number that 64 bits hold. -/
def parseInt (s : List Char) : Option ℤ :=
  let (negative, digits) := match s with
    | '-' :: digits => (true, digits)
    | '+' :: digits => (false, digits)
    | digits => (false, digits)
  if digits = [] ∨ !digits.all Char.isDigit then none
  else
    let magnitude := Nat.ofDigitChars 10 digits 0
    if negative then (if magnitude > 2 ^ 63 then none else some (-magnitude))
    else if magnitude ≥ 2 ^ 63 then none
    else some magnitude

variable {c : Char}

lemma isDigit_iff : c.isDigit = true ↔ 48 ≤ c.toNat ∧ c.toNat ≤ 57 := by
  simp [Char.isDigit, UInt32.le_iff_toNat_le]

/-- A digit is the digit of its value. -/
lemma digitChar_toNat (h : c.isDigit = true) : (c.toNat - '0'.toNat).digitChar = c := by
  obtain ⟨hlow, hhigh⟩ := isDigit_iff.mp h
  rw [← Char.ofNat_toNat c]
  generalize c.toNat = n at hlow hhigh
  interval_cases n <;> rfl

/-- **Reading a number and writing it gives the text back**, if the text has no leading zero. -/
theorem toDigits_ofDigitChars {l : List Char} (hne : l ≠ []) (hdigits : ∀ c ∈ l, c.isDigit = true)
    (hlead : l.head? = some '0' → l = ['0']) : toDigits 10 (ofDigitChars 10 l 0) = l := by
  induction l using reverseRecOn with
  | nil => exact absurd rfl hne
  | append_singleton l c ih =>
    have hc : c.isDigit = true := hdigits c (by simp)
    have hsmall : c.toNat - '0'.toNat < 10 := by
      have h57 := (isDigit_iff.mp hc).2
      have h48 : '0'.toNat = 48 := rfl
      omega
    rw [ofDigitChars_append, ofDigitChars_cons, ofDigitChars_nil]
    by_cases hl : l = []
    · subst hl
      rw [ofDigitChars_nil, mul_zero, zero_add, toDigits_of_lt_base hsmall,
        digitChar_toNat hc, nil_append]
    -- The digits before the last are a number of their own, and not zero.
    have hhead : l.head? ≠ some '0' := by
      intro h
      have := hlead (by rw [head?_append, h]; rfl)
      have hlen := congrArg length this
      exact hl (length_eq_zero_iff.mp (by simpa using hlen))
    have hrest := ih hl (fun d hd => hdigits d (mem_append_left _ hd)) fun h => absurd h hhead
    have hpos : ofDigitChars 10 l 0 ≠ 0 := by
      intro h
      rw [h] at hrest
      exact hhead (by rw [← hrest]; rfl)
    generalize ofDigitChars 10 l 0 = v at hrest hpos
    rw [toDigits_of_base_le (by norm_num) (by omega)]
    have hdiv : (10 * v + (c.toNat - '0'.toNat)) / 10 = v := by omega
    have hmod : (10 * v + (c.toNat - '0'.toNat)) % 10 = c.toNat - '0'.toNat := by omega
    rw [hdiv, hmod, hrest, digitChar_toNat hc]

/-- The number written in decimal, without leading zeros. -/
def decimal (n : ℕ) : List Char := Nat.toDigits 10 n

lemma isDigit_of_mem_decimal {n : ℕ} (h : c ∈ decimal n) : c.isDigit = true :=
  isDigit_of_mem_toDigits (by norm_num) le_rfl h

/-! ## Dotted addresses -/

/-- The four bytes of an address, highest first, in decimal. -/
def octets (value : ℕ) : List (List Char) :=
  [value / 2 ^ 24 % 256, value / 2 ^ 16 % 256, value / 2 ^ 8 % 256, value % 256].map decimal

/-- `a.b.c.d`. -/
def dotted (value : ℕ) : List Char := List.intercalate ['.'] (octets value)

lemma splitOn_dotted (value : ℕ) : (dotted value).splitOn '.' = octets value := by
  refine splitOn_intercalate '.' ?_ (by simp [octets])
  intro l hl
  obtain ⟨n, -, rfl⟩ := mem_map.mp hl
  exact fun hmem => absurd (isDigit_of_mem_decimal hmem) (by decide)

/-- A dotted address has digits and dots. -/
lemma mem_dotted {value : ℕ} (h : c ∈ dotted value) : c.isDigit = true ∨ c = '.' := by
  simp only [dotted, octets, map_cons, map_nil, intercalate, intersperse,
    flatten_cons, flatten_nil, mem_append, mem_singleton, not_mem_nil,
    or_false] at h
  rcases h with h | h | h | h | h | h | h
  all_goals first
    | exact .inl (isDigit_of_mem_decimal h)
    | exact .inr h

end Encoding
