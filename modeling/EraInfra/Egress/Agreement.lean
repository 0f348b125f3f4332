import Mathlib.Data.List.DropRight
import EraInfra.Egress.Policies

/-!
# The two implementations agree

On ASCII policies.  The proof goes through what each function means and not through how it computes
it: a text is an IPv4 destination for both sides exactly when it is the canonical text of an
address or a prefix (`parseIPv4_iff`), a canonical list is determined by its members
(`eq_of_strictly_sorted`), and a policy is accepted by both sides under the same conditions on the
normalized lists (`Acceptable`).
-/

namespace EraInfra

open DocStore Encoding Sorting List Option
open ControlPlane (domainProblem egressMode entries normalizeIPv4Destination parseProfileEgress
  storedCidr)
open Netpolicy (byteLength codePoints normalized normalizedCIDR validate validateCIDR)

/-! ## ASCII text -/

section Ascii

variable {s : String}

instance : Decidable (IsAscii s) := List.decidableBAll _ _

variable {l : List Char} {c : Char} {p : Char → Bool}

lemma isAscii_ofList (h : ∀ c ∈ l, c.toNat < 128) : IsAscii (String.ofList l) := by
  rwa [IsAscii, String.toList_ofList]

lemma codeUnits_ascii (h : IsAscii s) : codeUnits s = codePoints s := codeUnits_of_ascii h

lemma utf8Size_ascii (h : c.toNat < 128) : c.utf8Size = 1 := by
  have : c.val ≤ 0x7f := by
    rw [UInt32.le_iff_toNat_le]
    simpa using Nat.le_of_lt_succ h
  simp [Char.utf8Size, this]

lemma jsLength_ascii (h : IsAscii s) : jsLength s = byteLength s := by
  rw [jsLength, codeUnits_ascii h, codePoints, byteLength,
    map_congr_left fun c hc => utf8Size_ascii (h c hc)]
  simp

lemma isSpace_ascii (h : c.toNat < 128) : isJsSpace c = whiteSpace.contains c := by
  rw [← Char.ofNat_toNat c]
  generalize c.toNat = n at h
  interval_cases n <;> rfl

lemma dropWhile_congr {q : Char → Bool} (h : ∀ c ∈ l, p c = q c) : l.dropWhile p = l.dropWhile q := by
  induction l with
  | nil => rfl
  | cons c l ih =>
    rw [dropWhile_cons, dropWhile_cons, h c mem_cons_self, ih fun d hd => h d (mem_cons_of_mem _ hd)]

lemma mem_of_mem_dropWhile (h : c ∈ l.dropWhile p) : c ∈ l := (dropWhile_sublist p).subset h

lemma trim_ascii (h : IsAscii s) : trim s = trimSpaceText s := by
  have hfront : s.toList.dropWhile isJsSpace = s.toList.dropWhile (whiteSpace.contains ·) :=
    dropWhile_congr fun c hc => isSpace_ascii (h c hc)
  rw [trimSpaceText, trimCodes_letters]
  unfold trim
  rw [hfront, dropWhile_congr fun c hc => isSpace_ascii (h c (mem_of_mem_dropWhile
    (mem_reverse.mp hc)))]

lemma mem_trim (h : c ∈ (trim s).toList) : c ∈ s.toList := by
  rw [trim, String.toList_ofList, mem_reverse] at h
  exact mem_of_mem_dropWhile (mem_reverse.mp (mem_of_mem_dropWhile h))

lemma isAscii_trim (h : IsAscii s) : IsAscii (trim s) := fun c hc => h c (mem_trim hc)

lemma toLower_ascii (h : c.toNat < 128) : c.toLower.toNat < 128 := by
  rw [← Char.ofNat_toNat c]
  generalize c.toNat = n at h
  interval_cases n <;> decide

lemma isAscii_asciiLower (h : IsAscii s) : IsAscii (asciiLower s) := by
  refine isAscii_ofList fun c hc => ?_
  obtain ⟨d, hd, rfl⟩ := mem_map.mp hc
  exact toLower_ascii (h d hd)

lemma asciiLower_eq_empty : asciiLower s = "" ↔ s = "" := by
  constructor
  · intro h
    have := congrArg String.toList h
    rw [asciiLower] at this
    exact String.ext (by simpa using this)
  · rintro rfl
    rfl

lemma isAscii_dropTrailingDot (h : IsAscii s) : IsAscii (dropTrailingDot s) := by
  unfold dropTrailingDot
  split
  · exact isAscii_ofList fun c hc => h c (mem_of_mem_dropLast hc)
  · exact h

/-- Nothing is dropped from the front of an initial part of a list from whose front nothing is. -/
lemma dropWhile_of_isPrefix {a b : List Char} (h : b <+: a)
    (ha : a.dropWhile p = a) : b.dropWhile p = b := by
  rcases b with _ | ⟨x, b⟩
  · rfl
  obtain ⟨t, rfl⟩ := h
  rw [cons_append, dropWhile_cons] at ha
  rw [dropWhile_cons]
  split at ha
  · have hlen := congrArg length ha
    have := (dropWhile_sublist (l := b ++ t) p).length_le
    rw [length_cons] at hlen
    omega
  · rename_i hx
    rw [if_neg hx]

lemma trim_trim : trim (trim s) = trim s := by
  unfold trim
  rw [String.toList_ofList]
  set a := s.toList.dropWhile isJsSpace
  have ha : a.dropWhile isJsSpace = a := dropWhile_idempotent _ _
  have hfront : (a.reverse.dropWhile isJsSpace).reverse.dropWhile isJsSpace
      = (a.reverse.dropWhile isJsSpace).reverse := by
    refine dropWhile_of_isPrefix ?_ ha
    have := (dropWhile_suffix isJsSpace (l := a.reverse)).reverse
    rwa [reverse_reverse] at this
  rw [hfront, reverse_reverse, dropWhile_idempotent]

end Ascii

/-! ## IPv4 text -/

section IPv4

open ControlPlane

variable {text : String} {v : ℕ} {c : Char}

/-- A text that matches the pattern of a number is that number in decimal. -/
lemma toList_of_matchesNumber {more : ℕ} (h : matchesNumber more text = true) :
    text.toList = decimal (number text) := by
  rcases Bool.or_eq_true _ _ |>.mp h with h | h
  · obtain rfl : text = "0" := by simpa using h
    decide
  split at h
  · cases h
  rename_i first rest htext
  simp only [Bool.and_eq_true, List.all_eq_true] at h
  obtain ⟨⟨⟨hfirst, hzero⟩, -⟩, hrest⟩ := h
  refine (toDigits_ofDigitChars (l := text.toList) ?_ ?_ ?_).symm
  · rw [htext]
    simp
  · rw [htext]
    exact List.forall_mem_cons.mpr ⟨hfirst, hrest⟩
  · rw [htext]
    intro hhead
    exact absurd (some.inj hhead) (by simpa using hzero)

lemma matchesNumber_octet : ∀ n : Fin 256, isOctetText (String.ofList (decimal n)) = true := by
  decide +kernel

lemma matchesNumber_length : ∀ n : Fin 33, isLengthText (String.ofList (decimal n)) = true := by
  decide

lemma number_decimal (n : ℕ) : number (String.ofList (decimal n)) = n := by
  rw [number, String.toList_ofList, decimal, Nat.ofDigitChars_ten_toDigits]

lemma addOctet_eq_some {value : ℕ} {part : String} : addOctet value part = some v ↔
      ∃ n ≤ 255, part.toList = decimal n ∧ v = value * 256 + n := by
  unfold addOctet
  constructor
  · intro h
    split at h
    · cases h
    rename_i hpart
    dsimp only at h
    split at h
    · cases h
    · exact ⟨number part, by omega, toList_of_matchesNumber (by simpa [isOctetText] using hpart),
        (some.inj h).symm⟩
  · rintro ⟨n, hn, hpart, rfl⟩
    obtain rfl : part = String.ofList (decimal n) := String.ext (by rw [hpart, String.toList_ofList])
    have hmatch := matchesNumber_octet ⟨n, by omega⟩
    simp only [hmatch, Bool.not_true, Bool.false_eq_true, if_false, number_decimal]
    rw [if_neg (by omega)]

lemma toList_formatIPv4 (v : ℕ) : (formatIPv4 v).toList = dotted v := by
  simp [formatIPv4, dotted, octets, decimal]

/-- **A text is an address exactly when it is the dotted decimal of one.** -/
lemma parseIPv4_iff : parseIPv4 text = some v ↔ v < 2 ^ 32 ∧ text.toList = dotted v := by
  unfold parseIPv4 splitText
  dsimp only
  constructor
  · intro h
    split at h
    · cases h
    rename_i hlen
    have htext : ['.'].intercalate (text.toList.splitOn '.') = text.toList := intercalate_splitOn '.'
    rw [length_map, not_ne_iff] at hlen
    obtain ⟨a, b, c, d, hparts⟩ := length_eq_four.mp hlen
    rw [hparts] at h htext
    simp only [map_cons, foldlM_cons,
      bind_eq_bind, bind_eq_some_iff, addOctet_eq_some, String.toList_ofList] at h
    obtain ⟨_, ⟨n₁, h₁, rfl, rfl⟩, _, ⟨n₂, h₂, rfl, rfl⟩, _, ⟨n₃, h₃, rfl, rfl⟩, _,
      ⟨n₄, h₄, rfl, rfl⟩, hv⟩ := h
    cases hv
    refine ⟨by omega, ?_⟩
    rw [← htext, dotted, octets]
    have e₁ : ((((0 * 256 + n₁) * 256 + n₂) * 256 + n₃) * 256 + n₄) / 2 ^ 24 % 256 = n₁ := by omega
    have e₂ : ((((0 * 256 + n₁) * 256 + n₂) * 256 + n₃) * 256 + n₄) / 2 ^ 16 % 256 = n₂ := by omega
    have e₃ : ((((0 * 256 + n₁) * 256 + n₂) * 256 + n₃) * 256 + n₄) / 2 ^ 8 % 256 = n₃ := by omega
    have e₄ : ((((0 * 256 + n₁) * 256 + n₂) * 256 + n₃) * 256 + n₄) % 256 = n₄ := by omega
    rw [e₁, e₂, e₃, e₄]
    rfl
  · rintro ⟨hv, htext⟩
    rw [htext, splitOn_dotted]
    simp only [octets, map_cons]
    have hoctet : ∀ value n, n ≤ 255 →
        addOctet value (String.ofList (decimal n)) = some (value * 256 + n) := fun value n hn =>
      addOctet_eq_some.mpr ⟨n, hn, String.toList_ofList, rfl⟩
    simp only [foldlM_cons, hoctet _ _ (show v / 2 ^ 24 % 256 ≤ 255 by omega),
      hoctet _ _ (show v / 2 ^ 16 % 256 ≤ 255 by omega),
      hoctet _ _ (show v / 2 ^ 8 % 256 ≤ 255 by omega), hoctet _ _ (show v % 256 ≤ 255 by omega)]
    exact congrArg some (by omega)

/-! ### Destinations -/

lemma splitText_of_not_mem (h : c ∉ text.toList) : splitText c text = [text] := by
  have hsplit : ([c].intercalate [text.toList]).splitOn c = [text.toList] :=
    splitOn_intercalate c (by simpa using h) (by simp)
  rw [intercalate_singleton] at hsplit
  rw [splitText, hsplit, map_singleton, String.ofList_toList]

lemma splitText_pair {a b : List Char} (ha : c ∉ a) (hb : c ∉ b)
    (h : text.toList = a ++ c :: b) : splitText c text = [String.ofList a, String.ofList b] := by
  have hsplit : ([c].intercalate [a, b]).splitOn c = [a, b] :=
    splitOn_intercalate c (by simp [ha, hb]) (by simp)
  have htext : [c].intercalate [a, b] = text.toList := by simp [h]
  rw [splitText, ← htext, hsplit]
  rfl

/-- The parts of a text, joined again. -/
lemma intercalate_splitText {parts : List String}
    (h : splitText c text = parts) : [c].intercalate (parts.map String.toList) = text.toList := by
  rw [← h, splitText, List.map_map]
  have hid : String.toList ∘ String.ofList = id := by
    funext l
    exact String.toList_ofList
  rw [hid, List.map_id, intercalate_splitOn]

lemma not_slash_of_mem_dotted : '/' ∉ dotted v := fun h =>
  (mem_dotted h).elim (by decide) (by decide)

lemma not_slash_of_mem_decimal {n : ℕ} : '/' ∉ decimal n := fun h =>
  absurd (isDigit_of_mem_decimal h) (by decide)

/-- The text of a prefix. -/
lemma prefixText (v bits : ℕ) :
    formatIPv4 v ++ "/" ++ Nat.repr bits = String.ofList (dotted v ++ '/' :: decimal bits) := by
  refine String.ext ?_
  simp only [String.toList_append, toList_formatIPv4, Nat.repr_eq_ofList_toDigits,
    String.toList_ofList, append_assoc]
  rfl

lemma prefixText_host (v : ℕ) :
    formatIPv4 v ++ "/32" = String.ofList (dotted v ++ '/' :: decimal 32) := by
  rw [← prefixText, String.append_assoc]
  rfl

/-- The texts of an IPv4 destination with this address and this many bits. -/
def IsDestination (text : List Char) (addr bits : ℕ) : Prop :=
  text = dotted addr ++ '/' :: decimal bits ∨ bits = 32 ∧ text = dotted addr

/-- What the control plane stores for a destination. -/
lemma normalizeIPv4Destination_iff {out : String} : normalizeIPv4Destination text = some out ↔
      ∃ addr < 2 ^ 32, ∃ bits ≤ 32, IsDestination text.toList addr bits ∧ out = String.ofList
          (dotted (addr / 2 ^ (32 - bits) * 2 ^ (32 - bits)) ++ '/' :: decimal bits) := by
  unfold normalizeIPv4Destination
  constructor
  · intro h
    split at h
    · rename_i address hsplit
      have htext := intercalate_splitText hsplit
      rw [map_singleton, intercalate_singleton] at htext
      split at h
      · cases h
      · rename_i addr haddr
        obtain ⟨hlt, hdotted⟩ := parseIPv4_iff.mp haddr
        refine ⟨addr, hlt, 32, le_rfl, .inr ⟨rfl, by rw [← htext, hdotted]⟩, ?_⟩
        rw [← some.inj h, prefixText_host, pow_zero, Nat.div_one, mul_one]
    · rename_i address length hsplit
      have htext := intercalate_splitText hsplit
      split at h
      · cases h
      rename_i addr haddr
      obtain ⟨hlt, hdotted⟩ := parseIPv4_iff.mp haddr
      split at h
      · cases h
      rename_i hlength
      dsimp only at h
      split at h
      · cases h
      have hmatch : matchesNumber 1 length = true := by simpa [isLengthText] using hlength
      have hdecimal := toList_of_matchesNumber hmatch
      refine ⟨addr, hlt, number length, by omega, .inl ?_, ?_⟩
      · rw [← htext]
        simp [hdotted, ← hdecimal]
      · rw [← some.inj h, prefixText]
    · cases h
  · rintro ⟨addr, hlt, bits, hbits, htext | ⟨rfl, htext⟩, rfl⟩
    · rw [splitText_pair not_slash_of_mem_dotted not_slash_of_mem_decimal htext]
      have haddr : parseIPv4 (String.ofList (dotted addr)) = some addr :=
        parseIPv4_iff.mpr ⟨hlt, String.toList_ofList⟩
      have hmatch := matchesNumber_length ⟨bits, by omega⟩
      simp only [haddr, hmatch, Bool.not_true, Bool.false_eq_true, if_false, number_decimal, prefixText]
      rw [if_neg (by omega)]
    · rw [splitText_of_not_mem (by rw [htext]; exact not_slash_of_mem_dotted)]
      simp [parseIPv4_iff.mpr ⟨hlt, htext⟩, prefixText_host]

end IPv4

section Destinations

open Netpolicy

variable {go : GoRuntime}

lemma string_masked (a : BitVec 32) {bits : ℕ} : (IPv4Prefix.masked ⟨a, bits⟩).string = String.ofList
      (dotted (a.toNat / 2 ^ (32 - bits) * 2 ^ (32 - bits)) ++ '/' :: decimal bits) := by
  rw [IPv4Prefix.string, toNat_masked]
  rfl

variable {text out : String}

/-- What the Worker reads a destination as. -/
lemma parseIPv4Destination_iff {p : IPv4Prefix} : parseIPv4Destination go text = .ok p ↔
      ∃ a : BitVec 32, ∃ bits ≤ 32, IsDestination text.toList a.toNat bits ∧
        p = IPv4Prefix.masked ⟨a, bits⟩ := by
  have hhost : ∀ a : BitVec 32, IPv4Prefix.masked ⟨a, 32⟩ = ⟨a, 32⟩ := fun a => by
    simp [IPv4Prefix.masked]
  unfold parseIPv4Destination
  constructor
  · intro h
    split at h
    · obtain ⟨address, haddr, h⟩ := bind_ok.mp h
      cases address with
      | v4 a =>
        have htext := (go.parseAddr_v4 text a).mp haddr
        exact ⟨a, 32, le_rfl, .inr ⟨rfl, htext⟩, by rw [hhost, pure_ok.mp h]⟩
      | v6 a zone => cases h
    · obtain ⟨⟨address, bits⟩, hprefix, h⟩ := bind_ok.mp h
      cases address with
      | v4 a =>
        obtain ⟨hbits, htext⟩ := (go.parsePrefix_v4 text a bits).mp hprefix
        exact ⟨a, bits, hbits, .inl htext, (pure_ok.mp h).symm⟩
      | v6 a zone => cases h
  · rintro ⟨a, bits, hbits, htext | ⟨rfl, htext⟩, rfl⟩
    · have hslash : text.toList.contains '/' = true := by simp [htext]
      simp only [hslash, (go.parsePrefix_v4 text a bits).mpr ⟨hbits, htext⟩]
      rfl
    · have hslash : text.toList.contains '/' = false := by
        rw [htext]
        simpa using not_slash_of_mem_dotted
      simp only [hslash, (go.parseAddr_v4 text a).mpr htext, hhost]
      rfl

/-- **Both sides read the same destinations, as the same prefix.** -/
lemma normalizeIPv4Destination_eq_some (go : GoRuntime) : normalizeIPv4Destination text = some out ↔
      ∃ p, parseIPv4Destination go text = .ok p ∧ p.string = out := by
  rw [normalizeIPv4Destination_iff]
  simp only [parseIPv4Destination_iff]
  constructor
  · rintro ⟨addr, hlt, bits, hbits, htext, rfl⟩
    have hnat : (BitVec.ofNat 32 addr).toNat = addr := by
      rw [BitVec.toNat_ofNat, Nat.mod_eq_of_lt hlt]
    refine ⟨_, ⟨BitVec.ofNat 32 addr, bits, hbits, by rwa [hnat], rfl⟩, ?_⟩
    rw [string_masked, hnat]
  · rintro ⟨_, ⟨a, bits, hbits, htext, rfl⟩, rfl⟩
    exact ⟨a.toNat, a.isLt, bits, hbits, htext, string_masked a⟩

lemma isAscii_normalized (h : normalizeIPv4Destination text = some out) : IsAscii out := by
  have hdigit : ∀ c : Char, c.isDigit = true → c.toNat < 128 := fun c hc => by
    have := (isDigit_iff.mp hc).2
    omega
  obtain ⟨addr, -, bits, -, -, rfl⟩ := normalizeIPv4Destination_iff.mp h
  refine isAscii_ofList fun c hc => ?_
  rcases mem_append.mp hc with hc | hc
  · rcases mem_dotted hc with hc | rfl
    · exact hdigit c hc
    · decide
  · rcases mem_cons.mp hc with rfl | hc
    · decide
    · exact hdigit c (isDigit_of_mem_decimal hc)

/-- A destination the control plane reads is stored as the Worker normalizes it. -/
lemma normalizedCIDR_of_some (h : normalizeIPv4Destination text = some out) :
    normalizedCIDR go text = out := by
  obtain ⟨p, hp, rfl⟩ := (normalizeIPv4Destination_eq_some go).mp h
  simp only [normalizedCIDR, hp]

end Destinations

/-! ## Lists -/

section Lists

lemma codePoints_injective {a b : String} (h : codePoints a = codePoints b) : a = b := by
  refine String.ext (map_injective_iff.mpr ?_ h)
  intro c d hcd
  rw [← Char.ofNat_toNat c, hcd, Char.ofNat_toNat]

/-- **Both sides put a list in the same order, with the same entries.** -/
lemma sortedUnique_ascii {l : List String} (h : ∀ s ∈ l, IsAscii s) :
    ControlPlane.sortedUnique l = Netpolicy.sortedUnique l := by
  have hgo : Netpolicy.sortedUnique l = compact (sortBy codePoints l) := by
    cases l with
    | nil => simp [Netpolicy.sortedUnique, sortBy, compact]
    | cons s l => rfl
  rw [hgo]
  have hmem : ∀ s, s ∈ ControlPlane.sortedUnique l ↔ s ∈ l := fun s => by
    rw [ControlPlane.sortedUnique, mem_sortBy, mem_eraseDups]
  refine eq_of_strictly_sorted ?_ (strict_compact_sortBy fun a _ b _ => codePoints_injective) ?_
  · refine (strict_sortBy_eraseDups fun a ha b hb hab => ?_).imp_of_mem ?_
    · rw [codeUnits_ascii (h a ha), codeUnits_ascii (h b hb)] at hab
      exact codePoints_injective hab
    · intro a b ha hb hlt
      rwa [codeUnits_ascii (h a ((hmem a).mp ha)), codeUnits_ascii (h b ((hmem b).mp hb))] at hlt
  · intro s
    rw [hmem, mem_compact, mem_sortBy]

end Lists

/-! ## Domains -/

section Domains

open Netpolicy

variable {go : GoRuntime}

variable {domain : String}

lemma isAscii_afterWildcard (h : IsAscii domain) : IsAscii (afterWildcard domain) := by
  unfold afterWildcard
  split
  · rename_i name htext
    refine isAscii_ofList fun c hc => h c ?_
    rw [htext]
    exact mem_cons_of_mem _ (mem_cons_of_mem _ hc)
  · exact h

/-- A label has no colon. -/
lemma not_colon_of_matchesDomainLabel {label : List Char}
    (h : matchesDomainLabel label = true) : ':' ∉ label := by
  unfold matchesDomainLabel at h
  split at h
  · exact not_mem_nil
  simp only [Bool.and_eq_true, Bool.or_eq_true, List.isEmpty_iff, List.all_eq_true] at h
  obtain ⟨hfirst, hrest⟩ := h
  intro hmem
  rcases List.mem_cons.mp hmem with rfl | hmem
  · exact absurd hfirst (by decide)
  rcases hrest with rfl | ⟨⟨-, hmiddle⟩, hlast⟩
  · cases hmem
  -- the last character, or one before it
  obtain ⟨last, hlast, hlabel⟩ := (any_eq_true _ _).mp hlast
  rw [← dropLast_append_getLast? last hlast] at hmem
  rcases List.mem_append.mp hmem with hmem | hmem
  · exact absurd (hmiddle _ hmem) (by decide)
  · rw [← List.mem_singleton.mp hmem] at hlabel
    exact absurd hlabel (by decide)

/-- A name of valid labels is an address for `net/netip` exactly when it is dotted decimal. -/
lemma parseAddr_isOk {name : String}
    (hlabels : ∀ label ∈ name.toList.splitOn '.', matchesDomainLabel label = true) :
    (go.parseAddr name).isOk = true ↔ ControlPlane.parseIPv4 name ≠ none := by
  constructor
  · intro h
    rcases haddr : go.parseAddr name with e | address
    · rw [haddr] at h; cases h
    cases address with
    | v4 a =>
      rw [parseIPv4_iff.mpr ⟨a.isLt, (go.parseAddr_v4 name a).mp haddr⟩]
      exact some_ne_none _
    | v6 a zone =>
      have hcolon := go.parseAddr_v6 name a zone haddr
      rcases mem_of_splitOn '.' hcolon with hdot | ⟨label, hlabel, hmem⟩
      · exact absurd hdot (by decide)
      · exact absurd hmem (not_colon_of_matchesDomainLabel (hlabels label hlabel))
  · intro h
    obtain ⟨v, hv⟩ := ne_none_iff_exists'.mp h
    obtain ⟨hlt, htext⟩ := parseIPv4_iff.mp hv
    have hnat : (BitVec.ofNat 32 v).toNat = v := by
      rw [BitVec.toNat_ofNat, Nat.mod_eq_of_lt hlt]
    rw [(go.parseAddr_v4 name (BitVec.ofNat 32 v)).mpr (by rw [hnat, htext])]
    rfl

/-- What both sides ask of a domain, apart from its not being an address. -/
def IsDomainText (name : String) : Prop :=
  ¬name.toList.contains '*' = true ∧ ¬jsLength name > 253 ∧ ¬(name.toList.splitOn '.').length < 2 ∧
    ∀ label ∈ name.toList.splitOn '.', matchesDomainLabel label = true

/-- **Both sides accept the same domains.** -/
lemma domainProblem_eq_none (h : IsAscii domain) :
    domainProblem domain = none ↔ validateDomainPattern go domain = .ok () := by
  have hlength := jsLength_ascii (isAscii_afterWildcard h)
  have hgo : validateDomainPattern go domain = .ok () ↔
      IsDomainText (afterWildcard domain) ∧ ¬(go.parseAddr (afterWildcard domain)).isOk = true := by
    rw [IsDomainText, hlength]
    simp only [validateDomainPattern, refuseIf_bind_ok, refuseSome_bind_ok, refuseIf_ok,
      find?_eq_none, Bool.not_eq_true', Bool.not_eq_false, and_assoc]
  have hcontrol : domainProblem domain = none ↔
      IsDomainText (afterWildcard domain) ∧ ControlPlane.parseIPv4 (afterWildcard domain) = none := by
    unfold domainProblem IsDomainText
    dsimp only
    split_ifs <;> simp_all
  rw [hgo, hcontrol]
  refine and_congr_right fun htext => ?_
  rw [parseAddr_isOk htext.2.2.2, not_not]

end Domains

/-! ## Policies -/

section Acceptance

/-- What both sides ask of a normalized policy. -/
structure Acceptable (domainOk : String → Prop) (mode : EgressMode)
    (presets domains cidrs : List String) : Prop where
  unlisted : ¬(mode = .publicInternet ∧ presets.length + domains.length + cidrs.length > 0)
  knownPresets : ∀ preset ∈ presets, preset = "github"
  domainCount : ¬domains.length > 256
  cidrCount : ¬cidrs.length > 256
  validDomains : ∀ domain ∈ domains, domainOk domain
  listed : ¬(mode = .allowlist ∧ presets.length + domains.length + cidrs.length = 0)

variable {cidrs : List String} {mode : EgressMode}

/-- Only the verdict on the domains of the policy counts. -/
lemma acceptable_congr {domainOk domainOk' : String → Prop}
    {presets domains : List String} (h : ∀ domain ∈ domains, domainOk domain ↔ domainOk' domain) :
    Acceptable domainOk mode presets domains cidrs ↔
      Acceptable domainOk' mode presets domains cidrs :=
  ⟨fun ok => ⟨ok.unlisted, ok.knownPresets, ok.domainCount, ok.cidrCount,
      fun domain hmem => (h domain hmem).mp (ok.validDomains domain hmem), ok.listed⟩,
    fun ok => ⟨ok.unlisted, ok.knownPresets, ok.domainCount, ok.cidrCount,
      fun domain hmem => (h domain hmem).mpr (ok.validDomains domain hmem), ok.listed⟩⟩

lemma parseProfileEgress_ok {js : Engine} {payload : ControlPlane.EgressPayload}
    {egress : ProfileEgress} :
    parseProfileEgress js (some payload) = .ok egress ↔
      egressMode (payload.mode.getD "public") = some egress.mode ∧
      egress.presets = ControlPlane.sortedUnique ((entries payload.presets).map js.toLowerCase) ∧
      egress.domains = ControlPlane.sortedUnique (((entries payload.domains).map
        (ControlPlane.normalizeDomain js)).filter fun domain => domain ≠ "") ∧
      (∃ cidrs, (entries payload.cidrs).mapM storedCidr = .ok cidrs ∧
        egress.cidrs = ControlPlane.sortedUnique cidrs) ∧
      Acceptable (fun domain => domainProblem domain = none)
        egress.mode egress.presets egress.domains egress.cidrs := by
  unfold parseProfileEgress
  dsimp only
  constructor
  · intro h
    split at h
    · cases h
    rename_i mode hmode
    simp only [bind_ok (x := mapM _ _), refuseIf_bind_ok, refuseSome_bind_ok, pure_ok] at h
    obtain ⟨cidrs, hcidrs, hunlisted, hpresets, hdomainCount, hcidrCount, hdomains, hlisted, rfl⟩ := h
    refine ⟨hmode, rfl, rfl, ⟨cidrs, hcidrs, rfl⟩, hunlisted, ?_, hdomainCount, hcidrCount, ?_, hlisted⟩
    · simpa using hpresets
    · simpa using hdomains
  · rintro ⟨hmode, hp, hd, ⟨cidrs, hcidrs, hc⟩, hok⟩
    obtain ⟨mode, presets, domains, uniqueCidrs⟩ := egress
    subst hp hd hc
    simp only [hmode, bind_ok (x := mapM _ _), refuseIf_bind_ok, refuseSome_bind_ok]
    refine ⟨cidrs, hcidrs, hok.unlisted, ?_, hok.domainCount, hok.cidrCount, ?_, hok.listed, rfl⟩
    · simpa using hok.knownPresets
    · simpa using hok.validDomains

lemma validate_ok {go : GoRuntime} {e : Netpolicy.ProfileEgress}
    (hmode : (normalized go e).mode = mode.text) :
    validate go e = .ok () ↔
      Acceptable (fun domain => Netpolicy.validateDomainPattern go domain = .ok ()) mode
        (normalized go e).presets (normalized go e).domains
        (normalized go e).cidrs ∧
      ∀ cidr ∈ (normalized go e).cidrs, validateCIDR go cidr = .ok () := by
  have hpublic : mode.text = "public" ↔ mode = .publicInternet := by cases mode <;> decide
  have hallow : mode.text = "allowlist" ↔ mode = .allowlist := by cases mode <;> decide
  have hknown : ¬(mode.text ≠ "public" ∧ mode.text ≠ "audit" ∧ mode.text ≠ "allowlist") := by
    cases mode <;> decide
  unfold validate
  simp only [hmode, refuseIf_bind_ok, refuseSome_bind_ok, forM_bind_ok,
    refuseIf_ok, hpublic, hallow, hknown, not_false_eq_true, true_and]
  constructor
  · rintro ⟨hunlisted, hpresets, hdomainCount, hcidrCount, hdomains, hcidrs, hlisted⟩
    exact ⟨⟨hunlisted, by simpa using hpresets, hdomainCount, hcidrCount, hdomains, hlisted⟩, hcidrs⟩
  · rintro ⟨hok, hcidrs⟩
    exact ⟨hok.unlisted, by simpa using hok.knownPresets, hok.domainCount, hok.cidrCount, hok.validDomains,
      hcidrs, hok.listed⟩

/-- The policy as the Worker decodes it: what is absent is the zero value. -/
def asWorker (policy : Option ControlPlane.EgressPayload) : Netpolicy.ProfileEgress where
  mode := (policy.bind (·.mode)).getD ""
  presets := (policy.bind (·.presets)).getD []
  domains := (policy.bind (·.domains)).getD []
  cidrs := (policy.bind (·.cidrs)).getD []

/-- Every text of the lists is ASCII. -/
def AsciiLists (e : Netpolicy.ProfileEgress) : Prop :=
  ∀ s ∈ e.presets ++ e.domains ++ e.cidrs, IsAscii s

instance (e : Netpolicy.ProfileEgress) : Decidable (AsciiLists e) := List.decidableBAll _ _

variable {js : Engine} {go : GoRuntime}

variable {value : Option (List String)} {s : String} {l : List String}
  {policy : ControlPlane.EgressPayload}

lemma isAscii_entries (h : ∀ s ∈ value.getD [], IsAscii s) : ∀ s ∈ entries value, IsAscii s := by
  intro s hs
  obtain ⟨t, ht, rfl⟩ := mem_map.mp (mem_of_mem_filter hs)
  exact isAscii_trim (h t ht)

lemma isAscii_normalizeDomain (h : IsAscii s) : IsAscii (Netpolicy.normalizeDomain go s) := by
  rw [Netpolicy.normalizeDomain, ← trim_ascii h, go.toLower_ascii _ (isAscii_trim h)]
  exact isAscii_dropTrailingDot (isAscii_asciiLower (isAscii_trim h))

lemma storedCidr_ok {out : String} :
    storedCidr s = .ok out ↔ normalizeIPv4Destination s = some out := by
  unfold storedCidr
  split
  · rename_i normalized h
    rw [h, pure_ok, some_inj]
  · rename_i h
    simp [h]

/-- The control plane reads a list of destinations when it reads each, and then has what the Worker
makes of them. -/
lemma mapM_storedCidr (go : GoRuntime) : l.mapM storedCidr = .ok cidrs ↔
      (∀ s ∈ l, normalizeIPv4Destination s ≠ none) ∧ cidrs = l.map (normalizedCIDR go) := by
  induction l generalizing cidrs with
  | nil =>
    rw [mapM_nil, pure_ok, eq_comm]
    simp
  | cons s l ih =>
    simp only [mapM_cons, bind_ok, storedCidr_ok, ih, pure_ok, forall_mem_cons, map_cons]
    constructor
    · rintro ⟨out, hout, _, ⟨hl, rfl⟩, rfl⟩
      exact ⟨⟨by rw [hout]; exact some_ne_none _, hl⟩, by rw [normalizedCIDR_of_some hout]⟩
    · rintro ⟨⟨hs, hl⟩, rfl⟩
      obtain ⟨out, hout⟩ := ne_none_iff_exists'.mp hs
      exact ⟨out, hout, _, ⟨hl, rfl⟩, by rw [normalizedCIDR_of_some hout]⟩

/-- What the Worker makes of destinations the control plane reads, in order. -/
lemma cidrs_agree (h : ∀ s ∈ l, normalizeIPv4Destination s ≠ none) :
    ControlPlane.sortedUnique (l.map (normalizedCIDR go))
      = Netpolicy.sortedUnique (l.map (normalizedCIDR go)) := by
  refine sortedUnique_ascii fun s hs => ?_
  obtain ⟨t, ht, rfl⟩ := mem_map.mp hs
  obtain ⟨out, hout⟩ := ne_none_iff_exists'.mp (h t ht)
  rw [normalizedCIDR_of_some hout]
  exact isAscii_normalized hout

lemma mem_sortedUnique : s ∈ Netpolicy.sortedUnique l ↔ s ∈ l := by
  unfold Netpolicy.sortedUnique
  split
  · rename_i hempty
    rw [length_eq_zero_iff.mp hempty]
  · rw [mem_compact, mem_sortBy]

lemma validateCIDR_ok :
    validateCIDR go s = .ok () ↔ ∃ p, Netpolicy.parseIPv4Destination go s = .ok p := by
  unfold validateCIDR
  split
  · rename_i p h
    simp [h, pure_ok]
  · rename_i e h
    simp [h]

/-- The Worker accepts the destinations exactly when the control plane reads each. -/
lemma validCIDRs_iff : (∀ s ∈ Netpolicy.sortedUnique (l.map (normalizedCIDR go)),
        validateCIDR go s = .ok ()) ↔
      ∀ s ∈ l, normalizeIPv4Destination s ≠ none := by
  simp only [mem_sortedUnique, List.forall_mem_map, validateCIDR_ok]
  refine forall₂_congr fun s _ => ?_
  cases hs : normalizeIPv4Destination s with
  | some out =>
    rw [normalizedCIDR_of_some hs]
    refine iff_of_true ?_ (some_ne_none _)
    obtain ⟨addr, hlt, bits, hbits, -, rfl⟩ := normalizeIPv4Destination_iff.mp hs
    refine ⟨_, parseIPv4Destination_iff.mpr ⟨BitVec.ofNat 32 (addr / 2 ^ (32 - bits) *
      2 ^ (32 - bits)), bits, hbits, .inl ?_, rfl⟩⟩
    rw [String.toList_ofList, BitVec.toNat_ofNat,
      Nat.mod_eq_of_lt ((Nat.div_mul_le_self _ _).trans_lt hlt)]
  | none =>
    -- the Worker keeps it as it is, and it does not parse
    have hrefused : ∀ p, Netpolicy.parseIPv4Destination go s ≠ .ok p := fun p hp => by
      rw [(normalizeIPv4Destination_eq_some go).mpr ⟨p, hp, rfl⟩] at hs
      cases hs
    rw [normalizedCIDR]
    split
    · rename_i p hp
      exact absurd hp (hrefused p)
    · exact iff_of_false (fun ⟨p, hp⟩ => hrefused p hp) (fun h => h rfl)

/-- An absent policy is the one with nothing in it. -/
lemma parseProfileEgress_none : parseProfileEgress js none
      = parseProfileEgress js (some ⟨none, none, none, none⟩) := by
  refine (parseProfileEgress_ok.mpr ?_).symm
  have hempty : ControlPlane.sortedUnique [] = [] := by
    simp [ControlPlane.sortedUnique, sortBy]
  refine ⟨rfl, hempty.symm, hempty.symm, ⟨[], rfl, hempty.symm⟩, ?_⟩
  constructor <;> simp [publicEgress]

/-- The mode of a policy, read by both sides. -/
lemma mode_agree (go : GoRuntime)
    (h : ∀ m, policy.mode = some m → m = "public" ∨ m = "audit" ∨ m = "allowlist") :
    ∃ mode, egressMode (policy.mode.getD "public") = some mode ∧
      (normalized go (asWorker (some policy))).mode = mode.text := by
  obtain ⟨_ | m, presets, domains, cidrs⟩ := policy
  · exact ⟨.publicInternet, rfl, rfl⟩
  · rcases h m rfl with rfl | rfl | rfl
    · exact ⟨.publicInternet, rfl, rfl⟩
    · exact ⟨.audit, rfl, rfl⟩
    · exact ⟨.allowlist, rfl, rfl⟩

lemma EgressMode.text_injective {m m' : EgressMode} (h : m.text = m'.text) : m = m' := by
  revert h
  cases m <;> cases m' <;> decide

section Engine

variable (hjs : ∀ s, IsAscii s → js.toLowerCase s = asciiLower s)

include hjs

lemma presets_agree (h : ∀ s ∈ value.getD [], IsAscii s) :
    ControlPlane.sortedUnique ((entries value).map js.toLowerCase)
      = Netpolicy.sortedUnique (((value.getD []).map fun preset =>
          go.toLower (trimSpaceText preset)).filter fun preset => preset ≠ "") := by
  have hentries := isAscii_entries h
  have hjs' : (entries value).map js.toLowerCase = (entries value).map asciiLower :=
    map_congr_left fun s hs => hjs s (hentries s hs)
  have hgo : ((value.getD []).map fun preset => go.toLower (trimSpaceText preset))
      = ((value.getD []).map trim).map asciiLower := by
    rw [List.map_map]
    refine map_congr_left fun s hs => ?_
    rw [Function.comp_apply, ← trim_ascii (h s hs), go.toLower_ascii _ (isAscii_trim (h s hs))]
  rw [hjs', hgo, List.filter_map, sortedUnique_ascii]
  · have hempty : ((fun preset => decide (preset ≠ "")) ∘ asciiLower)
        = fun entry => decide (entry ≠ "") := by
      funext s
      simp [asciiLower_eq_empty]
    rw [hempty]
    rfl
  · intro s hs
    obtain ⟨t, ht, rfl⟩ := mem_map.mp hs
    exact isAscii_asciiLower (hentries t ht)

/-- A domain as both sides normalize it. -/
lemma normalizeDomain_ascii (h : IsAscii s) :
    ControlPlane.normalizeDomain js (trim s) = Netpolicy.normalizeDomain go s := by
  rw [ControlPlane.normalizeDomain, Netpolicy.normalizeDomain, trim_trim, ← trim_ascii h,
    hjs _ (isAscii_trim h), go.toLower_ascii _ (isAscii_trim h)]

/-- The control plane drops the blank domains before it normalizes, the Worker only after. -/
lemma normalizedDomains_agree (h : ∀ s ∈ l, IsAscii s) :
    (((l.map trim).filter fun entry => entry ≠ "").map (ControlPlane.normalizeDomain js)).filter
        (fun domain => domain ≠ "")
      = (l.map (Netpolicy.normalizeDomain go)).filter fun domain => domain ≠ "" := by
  induction l with
  | nil => rfl
  | cons s l ih =>
    obtain ⟨hs, hl⟩ := forall_mem_cons.mp h
    rw [map_cons, map_cons]
    by_cases hblank : trim s = ""
    · have hnone : Netpolicy.normalizeDomain go s = "" := by
        rw [Netpolicy.normalizeDomain, ← trim_ascii hs, hblank, go.toLower_ascii _ (by decide)]
        rfl
      rw [filter_cons_of_neg (by simpa using hblank), ih hl, filter_cons_of_neg (by simpa using hnone)]
    · rw [filter_cons_of_pos (by simpa using hblank), map_cons,
        normalizeDomain_ascii hjs hs, filter_cons, filter_cons, ih hl]

lemma domains_agree (h : ∀ s ∈ value.getD [], IsAscii s) :
    ControlPlane.sortedUnique (((entries value).map
        (ControlPlane.normalizeDomain js)).filter fun domain => domain ≠ "")
      = Netpolicy.sortedUnique (((value.getD []).map (Netpolicy.normalizeDomain go)).filter
          fun domain => domain ≠ "") := by
  rw [entries, normalizedDomains_agree hjs h, sortedUnique_ascii]
  intro s hs
  obtain ⟨t, ht, rfl⟩ := mem_map.mp (mem_of_mem_filter hs)
  exact isAscii_normalizeDomain (h t ht)

section

variable (hascii : AsciiLists (asWorker (some policy)))
  (hmode : ∀ m, policy.mode = some m → m = "public" ∨ m = "audit" ∨ m = "allowlist")

include hascii hmode

/-- The stored policy is the Worker's canonical form, and what it has to meet is the same. -/
lemma accepted_iff {egress : ProfileEgress} : parseProfileEgress js (some policy) = .ok egress ↔
      validate go (asWorker (some policy)) = .ok () ∧ normalized go (asWorker (some policy))
          = ⟨egress.mode.text, egress.presets, egress.domains, egress.cidrs⟩ := by
  obtain ⟨mode, hmode, htext⟩ := mode_agree go hmode
  have hpresetsAscii : ∀ s ∈ policy.presets.getD [], IsAscii s := fun s hs =>
    hascii s (mem_append_left _ (mem_append_left _ hs))
  have hdomainsAscii : ∀ s ∈ policy.domains.getD [], IsAscii s := fun s hs =>
    hascii s (mem_append_left _ (mem_append_right _ hs))
  have hcidrsAscii : ∀ s ∈ policy.cidrs.getD [], IsAscii s := fun s hs =>
    hascii s (mem_append_right _ hs)
  set worker := normalized go (asWorker (some policy)) with hworker
  have hpresets : ControlPlane.sortedUnique ((entries policy.presets).map
      js.toLowerCase) = worker.presets := presets_agree hjs hpresetsAscii
  have hdomains : ControlPlane.sortedUnique (((entries policy.domains).map
      (ControlPlane.normalizeDomain js)).filter fun domain => domain ≠ "") = worker.domains :=
    domains_agree hjs hdomainsAscii
  have hcidrs : worker.cidrs = Netpolicy.sortedUnique
      ((entries policy.cidrs).map (normalizedCIDR go)) := by
    rw [entries, map_congr_left fun s hs => trim_ascii (hcidrsAscii s hs)]
    rfl
  have hdomainAscii : ∀ s ∈ worker.domains, IsAscii s := by
    intro s hs
    obtain ⟨t, ht, rfl⟩ := mem_map.mp (mem_of_mem_filter (mem_sortedUnique.mp hs))
    exact isAscii_normalizeDomain (hdomainsAscii t ht)
  have hok : ∀ m, Acceptable (fun domain => domainProblem domain = none) m
        worker.presets worker.domains worker.cidrs ↔
      Acceptable (fun domain => Netpolicy.validateDomainPattern go domain = .ok ()) m
        worker.presets worker.domains worker.cidrs := fun m =>
    acceptable_congr fun domain hmem => domainProblem_eq_none (hdomainAscii domain hmem)
  rw [parseProfileEgress_ok, validate_ok htext, hmode, hpresets, hdomains, ← hworker, hcidrs,
    validCIDRs_iff, ← hcidrs]
  simp only [mapM_storedCidr go]
  constructor
  · rintro ⟨hm, hp, hd, ⟨_, ⟨hread, rfl⟩, hc⟩, haccept⟩
    cases hm
    rw [cidrs_agree hread, ← hcidrs] at hc
    rw [hp, hd, hc] at haccept ⊢
    exact ⟨⟨(hok _).mp haccept, hread⟩, by rw [← htext]⟩
  · rintro ⟨⟨haccept, hread⟩, heq⟩
    have hm : mode = egress.mode := EgressMode.text_injective (by rw [← htext, heq])
    rw [heq] at haccept hcidrs ⊢
    refine ⟨congrArg some hm, rfl, rfl, ⟨_, ⟨hread, rfl⟩, ?_⟩, ?_⟩
    · rw [cidrs_agree hread, ← hcidrs]
    · have := (hok mode).mpr
      rw [heq] at this
      rw [← hm]
      exact this haccept

/-- Agreement on a policy that is there. -/
lemma agree_some : ((∃ egress, parseProfileEgress js (some policy) = .ok egress) ↔
        validate go (asWorker (some policy)) = .ok ()) ∧
      ∀ egress, parseProfileEgress js (some policy) = .ok egress →
        normalized go (asWorker (some policy))
          = ⟨egress.mode.text, egress.presets, egress.domains, egress.cidrs⟩ := by
  refine ⟨⟨fun ⟨egress, h⟩ => ((accepted_iff hjs hascii hmode).mp h).1, fun h => ?_⟩,
    fun egress h => ((accepted_iff hjs hascii hmode).mp h).2⟩
  obtain ⟨mode, -, htext⟩ := mode_agree go hmode
  let worker := normalized go (asWorker (some policy))
  refine ⟨⟨mode, worker.presets, worker.domains, worker.cidrs⟩,
    (accepted_iff hjs hascii hmode).mpr ⟨h, ?_⟩⟩
  rw [← htext]

end

end Engine

end Acceptance

/-! ## Agreement -/

/-- **The control plane and the Worker agree on egress policies.**  Over every policy of ASCII texts
with a known or absent mode, the control plane stores it exactly when the Worker can enforce it,
and what it stores is the Worker's canonical form of it. -/
theorem egress_policies_agree (js : Engine)
    (hjs : ∀ s, IsAscii s → js.toLowerCase s = asciiLower s) (go : GoRuntime)
    (policy : Option ControlPlane.EgressPayload) (hascii : AsciiLists (asWorker policy))
    (hmode : ∀ m, policy.bind (·.mode) = some m → m = "public" ∨ m = "audit" ∨ m = "allowlist") :
    ((∃ egress, ControlPlane.parseProfileEgress js policy = .ok egress) ↔
        Netpolicy.validate go (asWorker policy) = .ok ()) ∧
      ∀ egress, ControlPlane.parseProfileEgress js policy = .ok egress →
        Netpolicy.normalized go (asWorker policy)
          = ⟨egress.mode.text, egress.presets, egress.domains, egress.cidrs⟩ := by
  cases policy with
  | none =>
    rw [parseProfileEgress_none]
    exact agree_some hjs hascii (nofun)
  | some policy => exact agree_some hjs hascii hmode

section Example

/-- `net/netip` on IPv4 only. -/
def plainNetip : Netip where
  parseAddr s :=
    match ControlPlane.parseIPv4 s with
    | some v => .ok (.v4 (BitVec.ofNat 32 v))
    | none => .error "unable to parse IP"
  parsePrefix s :=
    match splitText '/' s with
    | [address, length] =>
      match ControlPlane.parseIPv4 address with
      | some v =>
        if ControlPlane.isLengthText length ∧ ControlPlane.number length ≤ 32 then
          .ok (.v4 (BitVec.ofNat 32 v), ControlPlane.number length)
        else .error "bad bits after slash"
      | none => .error "unable to parse IP"
    | _ => .error "no slash"
  parseAddr_v4 s a := by
    split
    · rename_i v hv
      obtain ⟨hlt, htext⟩ := parseIPv4_iff.mp hv
      rw [Except.ok.injEq, NetAddr.v4.injEq]
      constructor
      · rintro rfl
        rw [htext, BitVec.toNat_ofNat, Nat.mod_eq_of_lt hlt]
      · intro h
        have := parseIPv4_iff.mpr ⟨a.isLt, h⟩
        rw [hv] at this
        rw [Option.some.inj this, BitVec.ofNat_toNat, BitVec.setWidth_eq]
    · rename_i hnone
      refine iff_of_false (by simp) fun h => ?_
      rw [parseIPv4_iff.mpr ⟨a.isLt, h⟩] at hnone
      cases hnone
  parseAddr_v6 s a zone h := by
    split at h <;> cases h
  parsePrefix_v4 s a bits := by
    constructor
    · intro h
      split at h
      · rename_i address length hsplit
        split at h
        · rename_i v hv
          split at h
          · rename_i hlength
            obtain ⟨hlt, htext⟩ := parseIPv4_iff.mp hv
            cases h
            have hs := intercalate_splitText hsplit
            refine ⟨hlength.2, ?_⟩
            rw [← hs, BitVec.toNat_ofNat, Nat.mod_eq_of_lt hlt,
              ← toList_of_matchesNumber hlength.1, ← htext]
            simp [List.intercalate]
          · cases h
        · cases h
      · cases h
    · rintro ⟨hbits, htext⟩
      have haddr : ControlPlane.parseIPv4 (String.ofList (dotted a.toNat)) = some a.toNat :=
        parseIPv4_iff.mpr ⟨a.isLt, String.toList_ofList⟩
      simp only [splitText_pair not_slash_of_mem_dotted not_slash_of_mem_decimal htext, haddr,
        number_decimal]
      rw [if_pos ⟨matchesNumber_length ⟨bits, by omega⟩, hbits⟩, BitVec.ofNat_toNat, BitVec.setWidth_eq]

def plainGo : GoRuntime where
  toNetip := plainNetip
  toLower := asciiLower
  toLower_ascii _ _ := rfl
  quote s := "\"" ++ s ++ "\""

/-- An allowlist as an operator may write it. -/
def looseAllowlist : ControlPlane.EgressPayload where
  mode := some "allowlist"
  presets := some [" GitHub "]
  domains := some ["Example.com.", "*.example.com", "example.com"]
  cidrs := some ["10.1.2.3/8", "192.0.2.1"]

/-- The allowlist is accepted by both, as one policy. -/
theorem egress_policies_agree_allowlist :
    (∃ egress, ControlPlane.parseProfileEgress asciiEngine (some looseAllowlist) = .ok egress) ∧
      Netpolicy.validate plainGo (asWorker (some looseAllowlist)) = .ok () := by
  have hagree := egress_policies_agree asciiEngine (fun _ _ => rfl) plainGo (some looseAllowlist)
    (by decide) (fun m h => .inr (.inr (some.inj h).symm))
  have hvalid : validate plainGo (asWorker (some looseAllowlist)) = .ok () := by
    decide
  exact ⟨hagree.1.mpr hvalid, hvalid⟩

end Example

end EraInfra
