import EraInfra.Core.Intervals
import EraInfra.Egress.Agreement

/-!
# Canonical forms of sets of prefixes

Two lists of prefixes mean the same when they cover the same addresses.  `prefixIntervals`
(`semantics.go`) compares them by their merged intervals; `CollapsePrefixes` (`elements.go`) drops
what another prefix covers, so that an interval set takes the rest.  `slices.SortFunc` is any sort: it
does not say which of two elements with one key comes first.
-/

namespace EraInfra.Netpolicy

open Encoding Intervals List

/-- `slices.SortFunc` with a comparison of keys. -/
structure SortFunc {α κ : Type} [LinearOrder κ] (key : α → κ) where
  sort : List α → List α
  perm : ∀ l, (sort l).Perm l
  sorted : ∀ l, (sort l).Pairwise fun a b => key a ≤ key b

/-- Merge sort is such a sort, and keeps the order of elements with one key. -/
def SortFunc.mergeSort {α κ : Type} [LinearOrder κ] (key : α → κ) : SortFunc key where
  sort l := l.mergeSort fun a b => key a ≤ key b
  perm l := mergeSort_perm l _
  sorted l := by
    have hsorted : (l.mergeSort fun a b => key a ≤ key b).Pairwise
        fun a b => decide (key a ≤ key b) = true := by
      refine pairwise_mergeSort (fun a b c hab hbc => ?_) (fun a b => ?_) l
      · exact decide_eq_true ((of_decide_eq_true hab).trans (of_decide_eq_true hbc))
      · simpa using le_total (key a) (key b)
    exact hsorted.imp of_decide_eq_true

/-- A member of a set in nft's listing: `{"prefix": {"addr": addr, "len": len}}`, or another. -/
inductive Member
  | range (addr : String) (len : ℚ)
  | other

/-- The first and the last address of a member. -/
def memberInterval (go : GoRuntime) : Member → Option (ℕ × ℕ)
  | .other => none
  | .range addr len =>
    if len < 0 ∨ 32 < len ∨ len.den ≠ 1 then none
    else
      match go.parsePrefix (addr ++ "/" ++ String.ofList (decimal len.num.toNat)) with
      | .ok (.v4 address, bits) =>
        let first := (IPv4Prefix.masked ⟨address, bits⟩).addr.toNat
        some (first, first + 2 ^ (32 - len.num.toNat) - 1)
      | _ => none

/-- The canonical form of a listed set: its intervals, sorted and merged. -/
def prefixIntervals (go : GoRuntime) (byFirst : SortFunc (Prod.fst : ℕ × ℕ → ℕ))
    (members : List Member) : Option (List (ℕ × ℕ)) :=
  (members.mapM (memberInterval go)).map fun intervals => merge (byFirst.sort intervals)

/-- `prefix.Contains(address)`. -/
def IPv4Prefix.contains (p : IPv4Prefix) (address : BitVec 32) : Bool :=
  (address ^^^ p.addr) >>> (32 - p.bits) = 0#32

/-- The loop of `CollapsePrefixes`. -/
def collapseStep (collapsed : List IPv4Prefix) (p : IPv4Prefix) : List IPv4Prefix :=
  if collapsed.any fun kept => kept.contains p.addr && kept.bits ≤ p.bits then collapsed
  else collapsed ++ [p]

/-- The prefixes that no shorter one of the list covers. -/
def collapsePrefixes (byLength : SortFunc fun p : IPv4Prefix => toLex (p.bits, p.addr.toNat))
    (byAddress : SortFunc fun p : IPv4Prefix => p.addr.toNat) (prefixes : List IPv4Prefix) :
    List IPv4Prefix :=
  byAddress.sort ((byLength.sort (prefixes.map IPv4Prefix.masked)).foldl collapseStep [])

/-! ## Blocks of addresses -/

variable {p q : IPv4Prefix} {a : BitVec 32} {l : List IPv4Prefix}

/-- An address lies in one of the prefixes. -/
def Covered (l : List IPv4Prefix) (a : BitVec 32) : Prop := ∃ p ∈ l, p.contains a = true

/-- Prefixes without a common address. -/
def Apart (p q : IPv4Prefix) : Prop := ∀ a, ¬ (p.contains a = true ∧ q.contains a = true)

lemma contains_iff : p.contains a = true ↔
    a.toNat / 2 ^ (32 - p.bits) = p.addr.toNat / 2 ^ (32 - p.bits) := by
  rw [IPv4Prefix.contains, decide_eq_true_eq, BitVec.ushiftRight_xor_distrib, BitVec.xor_eq_zero_iff,
    ← BitVec.toNat_inj]
  simp [BitVec.toNat_ushiftRight, Nat.shiftRight_eq_div_pow]

lemma contains_masked : p.masked.contains a = p.contains a := by
  rw [Bool.eq_iff_iff, contains_iff, contains_iff, toNat_masked]
  simp [IPv4Prefix.masked]

/-- A prefix that is no longer holds all of another or none of it. -/
lemma contains_congr (hbits : q.bits ≤ p.bits) (h : p.contains a = true) :
    q.contains a = q.contains p.addr := by
  have hsplit : 2 ^ (32 - q.bits) = 2 ^ (32 - p.bits) * 2 ^ (32 - q.bits - (32 - p.bits)) := by
    rw [← Nat.pow_add]
    congr 1
    omega
  have hsame : a.toNat / 2 ^ (32 - q.bits) = p.addr.toNat / 2 ^ (32 - q.bits) := by
    rw [hsplit, ← Nat.div_div_eq_div_mul, ← Nat.div_div_eq_div_mul, contains_iff.mp h]
  rw [Bool.eq_iff_iff, contains_iff, contains_iff, hsame]

/-! ## Intervals -/

/-- The first and the last address of a prefix. -/
def IPv4Prefix.interval (p : IPv4Prefix) : ℕ × ℕ :=
  (p.masked.addr.toNat, p.masked.addr.toNat + 2 ^ (32 - p.bits) - 1)

lemma interval_nonempty (p : IPv4Prefix) : p.interval.1 ≤ p.interval.2 :=
  Nat.le_sub_one_of_lt (Nat.lt_add_of_pos_right (Nat.two_pow_pos _))

lemma mem_interval {n : ℕ} : p.interval.1 ≤ n ∧ n ≤ p.interval.2 ↔
    ∃ a : BitVec 32, a.toNat = n ∧ p.contains a = true := by
  have hblock : p.interval.1 ≤ n ∧ n ≤ p.interval.2 ↔
      n / 2 ^ (32 - p.bits) = p.addr.toNat / 2 ^ (32 - p.bits) := by
    rw [Nat.div_eq_iff (Nat.two_pow_pos _), IPv4Prefix.interval, toNat_masked]
  rw [hblock]
  constructor
  · intro h
    have hlt : n < 2 ^ 32 := by
      by_contra hge
      have hle := Nat.div_le_div_right (c := 2 ^ (32 - p.bits)) (not_lt.mp hge)
      have hlt := Nat.div_lt_div_of_lt_of_dvd (Nat.pow_dvd_pow 2 (Nat.sub_le 32 p.bits)) p.addr.isLt
      omega
    have hn : (BitVec.ofNat 32 n).toNat = n := Nat.mod_eq_of_lt hlt
    exact ⟨_, hn, contains_iff.mpr (by rw [hn, h])⟩
  · rintro ⟨a, rfl, ha⟩
    exact contains_iff.mp ha

/-- The prefixes there are. -/
abbrev ValidPrefix := { p : IPv4Prefix // p.bits ≤ 32 }

/-- A prefix as nft lists it. -/
def listed (p : ValidPrefix) : Member := .range (String.ofList (dotted p.1.addr.toNat)) p.1.bits

lemma memberInterval_listed (go : GoRuntime) (p : ValidPrefix) :
    memberInterval go (listed p) = some p.1.interval := by
  have hparse := (go.parsePrefix_v4 (String.ofList (dotted p.1.addr.toNat) ++ "/" ++
    String.ofList (decimal p.1.bits)) p.1.addr p.1.bits).mpr ⟨p.2, by simp⟩
  have hbits : (p.1.bits : ℚ) ≤ 32 := by exact_mod_cast p.2
  simp [memberInterval, listed, hparse, hbits.not_gt, IPv4Prefix.interval]

/-- The merged intervals are canonical and hold what the prefixes cover. -/
lemma prefixIntervals_listed (go : GoRuntime) (byFirst : SortFunc (Prod.fst : ℕ × ℕ → ℕ))
    (ps : List ValidPrefix) :
    ∃ is, prefixIntervals go byFirst (ps.map listed) = some is ∧ Canonical is ∧
      ∀ n, Covers is n ↔ ∃ a : BitVec 32, a.toNat = n ∧ Covered (ps.map (·.1)) a := by
  have hread : (ps.map listed).mapM (memberInterval go) = some (ps.map (·.1.interval)) := by
    induction ps with
    | nil => rfl
    | cons p ps ih => simp [memberInterval_listed, ih]
  have hmem : ∀ i, i ∈ byFirst.sort (ps.map (·.1.interval)) ↔ ∃ p ∈ ps, p.1.interval = i := by
    intro i
    rw [(byFirst.perm _).mem_iff, mem_map]
  have hne : ∀ i ∈ byFirst.sort (ps.map (·.1.interval)), i.1 ≤ i.2 := by
    intro i hi
    rcases (hmem i).mp hi with ⟨p, -, rfl⟩
    exact interval_nonempty p.1
  rcases merge_spec hne (byFirst.sorted _) with ⟨hcanonical, hcovers⟩
  refine ⟨_, by rw [prefixIntervals, hread]; rfl, hcanonical, fun n => ?_⟩
  rw [hcovers]
  constructor
  · rintro ⟨i, hi, hn⟩
    rcases (hmem i).mp hi with ⟨p, hp, rfl⟩
    rcases mem_interval.mp hn with ⟨a, ha, hcontains⟩
    exact ⟨a, ha, p.1, mem_map_of_mem hp, hcontains⟩
  · rintro ⟨a, ha, q, hq, hcontains⟩
    rcases mem_map.mp hq with ⟨p, hp, rfl⟩
    exact ⟨_, (hmem _).mpr ⟨p, hp, rfl⟩, mem_interval.mpr ⟨a, ha, hcontains⟩⟩

/-! ## Collapsing -/

lemma covered_append {l' : List IPv4Prefix} : Covered (l ++ l') a ↔ Covered l a ∨ Covered l' a := by
  simp [Covered, or_and_right, exists_or]

/-- What is kept of prefixes that get longer covers them all, without a common address. -/
lemma collapse_spec (hsorted : l.Pairwise fun p q => p.bits ≤ q.bits) :
    l.foldl collapseStep [] ⊆ l ∧ (l.foldl collapseStep []).Pairwise Apart ∧
      ∀ a, Covered (l.foldl collapseStep []) a ↔ Covered l a := by
  induction l using reverseRecOn with
  | nil => exact ⟨nil_subset _, Pairwise.nil, fun a => Iff.rfl⟩
  | append_singleton l p ih =>
    rw [pairwise_append] at hsorted
    rcases ih hsorted.1 with ⟨hsub, hapart, hcovers⟩
    rw [foldl_append, foldl_cons, foldl_nil, collapseStep]
    split_ifs with hcovered
    · refine ⟨subset_append_of_subset_left _ hsub, hapart, fun a => ?_⟩
      rw [covered_append, hcovers, or_iff_left_of_imp]
      rintro ⟨q, hq, ha⟩
      cases mem_singleton.mp hq
      simp only [any_eq_true, Bool.and_eq_true, decide_eq_true_eq] at hcovered
      rcases hcovered with ⟨kept, hkept, hholds, hbits⟩
      exact ⟨kept, hsub hkept, (contains_congr hbits ha).trans hholds⟩
    · refine ⟨append_subset.mpr ⟨subset_append_of_subset_left _ hsub, subset_append_right _ _⟩,
        pairwise_append.mpr ⟨hapart, pairwise_singleton _ _, ?_⟩, fun a => ?_⟩
      · rintro kept hkept q hq a ⟨hholds, ha⟩
        cases mem_singleton.mp hq
        have hbits := hsorted.2.2 kept (hsub hkept) p hq
        rw [contains_congr hbits ha] at hholds
        exact hcovered (any_eq_true.mpr ⟨kept, hkept, by simp [hholds, hbits]⟩)
      · rw [covered_append, covered_append, hcovers]

/-- **Canonical forms are exact.**  The intervals of two lists of prefixes are equal if and only if
the lists cover the same addresses, and they are sorted, disjoint and not adjacent.  Collapsing leaves
prefixes without a common address, sorted by address, each of them one of the given ones masked,
that cover the same addresses. -/
theorem prefix_forms_exact (go : GoRuntime) (byFirst : SortFunc (Prod.fst : ℕ × ℕ → ℕ))
    (byLength : SortFunc fun p : IPv4Prefix => toLex (p.bits, p.addr.toNat))
    (byAddress : SortFunc fun p : IPv4Prefix => p.addr.toNat) :
    (∀ ps qs : List ValidPrefix, ∃ is js,
      prefixIntervals go byFirst (ps.map listed) = some is ∧ Canonical is ∧
      prefixIntervals go byFirst (qs.map listed) = some js ∧ Canonical js ∧
      (is = js ↔ ∀ a, Covered (ps.map (·.1)) a ↔ Covered (qs.map (·.1)) a)) ∧
    ∀ ps : List IPv4Prefix, let kept := collapsePrefixes byLength byAddress ps
      kept.Pairwise Apart ∧ kept.Pairwise (fun p q => p.addr.toNat ≤ q.addr.toNat) ∧
      (∀ p ∈ kept, ∃ q ∈ ps, q.masked = p) ∧ ∀ a, Covered kept a ↔ Covered ps a := by
  refine ⟨fun ps qs => ?_, ?_⟩
  · rcases prefixIntervals_listed go byFirst ps with ⟨is, his, hcanonical, hcovers⟩
    rcases prefixIntervals_listed go byFirst qs with ⟨js, hjs, hcanonical', hcovers'⟩
    refine ⟨is, js, his, hcanonical, hjs, hcanonical', ?_, fun h => ?_⟩
    · rintro rfl a
      have hsame := (hcovers a.toNat).symm.trans (hcovers' a.toNat)
      simpa [BitVec.toNat_inj] using hsame
    · refine eq_of_covers hcanonical hcanonical' fun n => ?_
      simp only [hcovers, hcovers', h]
  · intro ps
    have hbits : (byLength.sort (ps.map IPv4Prefix.masked)).Pairwise fun p q => p.bits ≤ q.bits :=
      (byLength.sorted _).imp fun h => by
        rcases Prod.Lex.le_iff.mp h with h | h
        · exact h.le
        · exact h.1.le
    rcases collapse_spec hbits with ⟨hsub, hapart, hcovers⟩
    have hperm := byAddress.perm ((byLength.sort (ps.map IPv4Prefix.masked)).foldl collapseStep [])
    refine ⟨(hperm.pairwise_iff fun h a ha => h a ha.symm).mpr hapart, byAddress.sorted _,
      fun p hp => ?_, fun a => ?_⟩
    · exact mem_map.mp ((byLength.perm _).mem_iff.mp (hsub (hperm.mem_iff.mp hp)))
    · have hpermuted := hcovers a
      simp only [Covered, collapsePrefixes, hperm.mem_iff, (byLength.perm _).mem_iff] at hpermuted ⊢
      rw [hpermuted]
      simp [contains_masked]

/-- A block of addresses and its halves. -/
theorem prefix_forms_exact_of_halves :
    let whole : ValidPrefix := ⟨⟨0x0a000000#32, 8⟩, by decide⟩
    let halves : List ValidPrefix := [⟨⟨0x0a800000#32, 9⟩, by decide⟩, ⟨⟨0x0a000000#32, 9⟩, by decide⟩]
    ∃ is js, prefixIntervals plainGo (.mergeSort _) ([whole].map listed) = some is ∧
      prefixIntervals plainGo (.mergeSort _) (halves.map listed) = some js ∧
      (is = js ↔ ∀ a, Covered ([whole].map (·.1)) a ↔ Covered (halves.map (·.1)) a) := by
  intro whole halves
  have hforms := prefix_forms_exact plainGo (.mergeSort _) (.mergeSort _) (.mergeSort _)
  rcases hforms.1 [whole] halves with ⟨is, js, his, -, hjs, -, hsame⟩
  exact ⟨is, js, his, hjs, hsame⟩

end EraInfra.Netpolicy
