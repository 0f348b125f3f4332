import EraInfra.Agent.Journal

/-!
# What a restart reads back

The file always holds whole lines of records that fit, and perhaps a piece of one more (`Holds`), so
reading it back is replaying those records (`scanJournal_ok`).  Each operation of the journal is
described once by what it does to the memory and to the records of the file: `rewrite_eq`,
`append_eq`.
-/

namespace EraInfra.Infra.Agent

open DocStore Encoding List Option

variable {codec : Codec} {records records' : Records} {r : Record} {rs : List Record}
  {disk torn : Bytes}

/-! ## Replaying -/

/-- The records that a list of lines leaves. -/
def replay (rs : List Record) : Except JournalError Records := rs.foldlM apply ∅

/-- A record written down: a settled one is forgotten, any other stored. -/
lemma lookup_put (records : Records) (r : Record) (e : Entry) (key : String) :
    (if r.outcome = .settled then records.erase r.key else records.insert r.key e).lookup key =
      if key = r.key then if r.outcome = .settled then none else some e
      else records.lookup key := by
  by_cases hsettled : r.outcome = .settled
  · split_ifs with hkey
    · rw [hkey, AList.lookup_erase]
    · rw [AList.lookup_erase_ne hkey]
  · split_ifs with hkey
    · rw [hkey, AList.lookup_insert]
    · rw [AList.lookup_insert_ne hkey]

lemma apply_ok (h : apply records r = .ok records') :
    (∀ old, records.lookup r.key = some old → old.id = r.id) ∧ ∀ key, records'.lookup key =
        if key = r.key then
          if r.outcome = .settled then none else some ⟨r.id, r.outcome.afterRestart⟩
        else records.lookup key := by
  simp only [apply] at h
  rcases refuseIf_bind_ok.mp h with ⟨hsame, ⟨⟩⟩
  refine ⟨fun old hold => ?_, lookup_put records r _⟩
  by_contra hne
  exact hsame ⟨old, hold, hne⟩

/-- Records of different keys are all there in the end. -/
lemma lookup_foldlM (hkeys : rs.Pairwise fun r r' => r.key ≠ r'.key)
    (hlive : ∀ r ∈ rs, r.outcome ≠ .settled) (h : rs.foldlM apply records = .ok records') :
    ∀ r ∈ rs, records'.lookup r.key = some ⟨r.id, r.outcome.afterRestart⟩ := by
  have hloop := foldlM_owned (fun key records => records.lookup key)
    (fun r key => r.key = key) (fun _ => True)
    (fun r _ _ found => found = some ⟨r.id, r.outcome.afterRestart⟩)
    (hkeys.imp fun hne k hk hk' => hne (hk.trans hk'.symm)) ?_ trivial h
  · exact fun r hr => hloop.2.1 r hr r.key rfl
  intro r hr before next _ _ happly
  have hnext := (apply_ok happly).2
  refine ⟨trivial, fun key hkey => ?_, fun key hkey => ?_⟩
  · rw [hnext, if_pos hkey.symm, if_neg (hlive r hr)]
  · rw [hnext, if_neg (Ne.symm hkey)]

/-! ## The file -/

/-- A record whose line is read back. -/
structure Fits (codec : Codec) (r : Record) : Prop where
  key : r.key ≠ ""
  id : r.id ≠ ""
  short : (codec.line r).length ≤ maxRecordBytes

/-- A file of whole lines, and a piece of one more. -/
structure Holds (codec : Codec) (disk : Bytes) (rs : List Record) (torn : Bytes) : Prop where
  lines : disk = (rs.map codec.line).flatten ++ torn
  noEnd : newline ∉ torn
  fits : ∀ r ∈ rs, Fits codec r

lemma parseRecord_line (h : Fits codec r) : parseRecord codec (codec.line r) = some r := by
  rw [parseRecord, if_neg (not_lt.mpr h.short), Codec.line, codec.unmarshal_marshal]
  simp [h.key, h.id]

lemma scanLines_lines {scan : Scan} (hfits : ∀ r ∈ rs, Fits codec r) :
    scanLines codec (rs.map codec.line) torn scan = (rs.foldlM apply scan.records).map
      fun records => ⟨records, scan.lines + rs.length, torn ≠ []⟩ := by
  induction rs generalizing scan with
  | nil => rfl
  | cons r rs ih =>
    rw [forall_mem_cons] at hfits
    simp only [map_cons, scanLines, parseRecord_line hfits.1, foldlM_cons, map_of_bind]
    refine bind_congr fun records => ?_
    rw [ih hfits.2]
    simp [Nat.add_assoc, Nat.add_comm 1]

/-- Reading a file back is replaying its whole lines. -/
lemma scanJournal_ok {scan : Scan} (hholds : Holds codec disk rs torn)
    (h : scanJournal codec disk = .ok scan) :
    replay rs = .ok scan.records ∧ (scan.recovered = true ↔ torn ≠ []) := by
  simp only [scanJournal] at h
  rw [refuseIf_bind_ok] at h
  have hlines : rs.map codec.line = (rs.map codec.marshal).map (· ++ [newline]) := by
    rw [List.map_map]
    rfl
  have hsplit : LineLog.split newline disk = (rs.map codec.line, torn) := by
    rw [hholds.lines, hlines]
    refine LineLog.split_lines hholds.noEnd fun l hl => ?_
    rcases mem_map.mp hl with ⟨r, -, rfl⟩
    exact codec.newline_notMem_marshal r
  rw [hsplit, scanLines_lines hholds.fits, map_ok] at h
  rcases h with ⟨-, records, hreplay, rfl⟩
  exact ⟨hreplay, by simp⟩

lemma Holds.append (hholds : Holds codec disk rs []) (hfits : Fits codec r) :
    Holds codec (disk ++ codec.line r) (rs ++ [r]) [] := by
  refine ⟨?_, by simp, ?_⟩
  · rw [hholds.lines]
    simp
  intro r' hr'
  rcases List.mem_append.mp hr' with hr' | hr'
  · exact hholds.fits r' hr'
  · rw [List.mem_singleton.mp hr']
    exact hfits

/-! ## Memory -/

/-- A key with its command, as the records have it. -/
def Has (records : Records) (key id : String) : Prop :=
  ∃ outcome, records.lookup key = some ⟨id, outcome⟩

/-- Records as a running process has them: they could be written, and none is settled. -/
structure Clean (codec : Codec) (records : Records) : Prop where
  fits : ∀ key e, records.lookup key = some e → Fits codec ⟨key, e.id, e.outcome⟩
  live : ∀ key e, records.lookup key = some e → e.outcome ≠ .settled

lemma mem_liveRecords : r ∈ liveRecords records ↔ records.lookup r.key = some ⟨r.id, r.outcome⟩ := by
  rw [liveRecords, Sorting.mem_sortBy, List.mem_map]
  constructor
  · rintro ⟨⟨key, e⟩, hmem, rfl⟩
    exact AList.mem_lookup_iff.mpr hmem
  · intro hlookup
    exact ⟨⟨r.key, r.id, r.outcome⟩, AList.mem_lookup_iff.mp hlookup, rfl⟩

lemma pairwise_liveRecords (records : Records) :
    (liveRecords records).Pairwise fun r r' => r.key ≠ r'.key := by
  have hnodup : (records.entries.map fun entry => (⟨entry.1, entry.2.id, entry.2.outcome⟩ : Record)).Pairwise
      fun r r' => r.key ≠ r'.key := by
    rw [pairwise_map]
    have hkeys := records.nodupKeys
    rw [List.NodupKeys, keys, List.Nodup, pairwise_map] at hkeys
    exact hkeys
  exact ((perm_insertionSort _ _).pairwise_iff fun hne => hne.symm).mpr hnodup

lemma holds_liveFile (h : Clean codec records) :
    Holds codec (liveFile codec records) (liveRecords records) [] := by
  refine ⟨by simp [liveFile], by simp, fun r hr => ?_⟩
  exact h.fits r.key _ (mem_liveRecords.mp hr)

/-! ## What has to be kept -/

/-- A set of keys with their commands. -/
abbrev Needed := String → String → Prop

/-- A file from which what is needed is read back, if it is read back at all. -/
def DiskKeeps (codec : Codec) (needed : Needed) (disk : Bytes) (whole : Prop) : Prop :=
  ∃ rs torn, Holds codec disk rs torn ∧ (whole → torn = []) ∧
    ∀ records, replay rs = .ok records → ∀ key id, needed key id → Has records key id

/-- A journal that has what is needed in memory and on its disk. -/
structure Keeps (codec : Codec) (needed : Needed) (s : Store) : Prop where
  clean : Clean codec s.journal.records
  memory : ∀ key id, needed key id → Has s.journal.records key id
  disk : DiskKeeps codec needed s.disk (s.journal.broken = false)

section Operations

variable {needed needed' : Needed} {s : Store} {whole whole' : Prop}

lemma DiskKeeps.mono (h : DiskKeeps codec needed disk whole)
    (hle : ∀ key id, needed' key id → needed key id) : DiskKeeps codec needed' disk whole := by
  rcases h with ⟨rs, torn, hholds, hwhole, hkeeps⟩
  exact ⟨rs, torn, hholds, hwhole, fun records hreplay key id hkey =>
    hkeeps records hreplay key id (hle key id hkey)⟩

lemma DiskKeeps.imp (h : DiskKeeps codec needed disk whole) (hwhole : whole' → whole) :
    DiskKeeps codec needed disk whole' := by
  rcases h with ⟨rs, torn, hholds, hnil, hkeeps⟩
  exact ⟨rs, torn, hholds, fun hw => hnil (hwhole hw), hkeeps⟩

lemma Keeps.mono (h : Keeps codec needed s) (hle : ∀ key id, needed' key id → needed key id) :
    Keeps codec needed' s :=
  ⟨h.clean, fun key id hkey => h.memory key id (hle key id hkey), h.disk.mono hle⟩

/-- One more record keeps what is needed, if it settles nothing of it, and is kept itself. -/
lemma has_of_put {e : Entry} (he : e.id = r.id)
    (hsame : ∀ old, records.lookup r.key = some old → old.id = r.id)
    (hlookup : ∀ key, records'.lookup key =
      if key = r.key then if r.outcome = .settled then none else some e else records.lookup key)
    (hsettled : r.outcome = .settled → ∀ id, ¬ needed r.key id)
    (hneeded : ∀ key id, needed key id → Has records key id) :
    (∀ key id, needed key id → Has records' key id) ∧
      (r.outcome ≠ .settled → Has records' r.key r.id) := by
  have hnew : r.outcome ≠ .settled → Has records' r.key r.id := fun hlive =>
    ⟨e.outcome, by rw [hlookup, if_pos rfl, if_neg hlive, ← he]⟩
  refine ⟨fun key id hkey => ?_, hnew⟩
  rcases hneeded key id hkey with ⟨outcome, hold⟩
  by_cases hr : key = r.key
  · subst hr
    by_cases hend : r.outcome = .settled
    · exact absurd hkey (hsettled hend id)
    · have hid : id = r.id := hsame _ hold
      exact hid ▸ hnew hend
  · exact ⟨outcome, by rw [hlookup, if_neg hr, hold]⟩

section

variable (h : DiskKeeps codec needed disk True) (hfits : Fits codec r)
  (hsettled : r.outcome = .settled → ∀ id, ¬ needed r.key id)

include h hfits hsettled

lemma DiskKeeps.append :
    DiskKeeps codec (fun key id => needed key id ∨ r.outcome ≠ .settled ∧ key = r.key ∧ id = r.id)
      (disk ++ codec.line r) True := by
  rcases h with ⟨rs, torn, hholds, hwhole, hkeeps⟩
  rw [hwhole trivial] at hholds
  refine ⟨rs ++ [r], [], hholds.append hfits, fun _ => rfl, fun records hreplay => ?_⟩
  simp only [replay, foldlM_append, foldlM_cons, foldlM_nil, bind_pure] at hreplay
  rw [bind_ok] at hreplay
  rcases hreplay with ⟨before, hbefore, happly⟩
  rcases apply_ok happly with ⟨hsame, hlookup⟩
  rcases has_of_put rfl hsame hlookup hsettled (hkeeps before hbefore) with ⟨hold, hnew⟩
  rintro key id (hkey | ⟨hlive, rfl, rfl⟩)
  · exact hold key id hkey
  · exact hnew hlive

/-- Some bytes of a record do no harm. -/
lemma DiskKeeps.take (n : ℕ) : DiskKeeps codec needed (disk ++ (codec.line r).take n) False := by
  have happend := h.append hfits hsettled
  rcases h with ⟨rs, torn, hholds, hwhole, hkeeps⟩
  rw [hwhole trivial] at hholds
  rcases LineLog.take_line (codec.newline_notMem_marshal r) n with hall | htorn
  · have hline : (codec.line r).take n = codec.line r := hall
    rw [hline]
    exact (happend.imp False.elim).mono fun _ _ => .inl
  · refine ⟨rs, (codec.line r).take n, ⟨?_, htorn, hholds.fits⟩, False.elim, hkeeps⟩
    rw [hholds.lines, append_nil]

end

lemma diskKeeps_liveFile (hclean : Clean codec records)
    (hmemory : ∀ key id, needed key id → Has records key id) :
    DiskKeeps codec needed (liveFile codec records) whole := by
  refine ⟨_, [], holds_liveFile hclean, fun _ => rfl, fun _ hreplay key id hkey => ?_⟩
  rcases hmemory key id hkey with ⟨outcome, hlookup⟩
  have hlive : ∀ r ∈ liveRecords records, r.outcome ≠ .settled :=
    fun r hr => hclean.live r.key _ (mem_liveRecords.mp hr)
  exact ⟨_, lookup_foldlM (pairwise_liveRecords records) hlive hreplay ⟨key, id, outcome⟩
    (mem_liveRecords.mpr hlookup)⟩

/-- A rewrite loses nothing, whether it fails or not. -/
lemma rewrite_keeps (io : RewriteIo) (hclean : Clean codec s.journal.records)
    (hmemory : ∀ key id, needed key id → Has s.journal.records key id)
    (hdisk : DiskKeeps codec needed s.disk whole) :
    (rewrite codec io s).2.journal.records = s.journal.records ∧
      (rewrite codec io s).2.journal.broken = s.journal.broken ∧
      DiskKeeps codec needed (rewrite codec io s).2.disk whole ∧
      ((rewrite codec io s).1 = none → DiskKeeps codec needed (rewrite codec io s).2.disk True) := by
  cases io with
  | done => exact ⟨rfl, rfl, diskKeeps_liveFile hclean hmemory, fun _ => diskKeeps_liveFile hclean hmemory⟩
  | failed replaced reopened =>
    refine ⟨rfl, rfl, ?_, fun herror => by simp [rewrite] at herror⟩
    cases replaced with
    | true => exact diskKeeps_liveFile hclean hmemory
    | false => exact hdisk

lemma fits_of_refusal (hkey : r.key ≠ "") (hid : r.id ≠ "") (h : refusal codec s.journal r = none) :
    Fits codec r ∧ s.journal.broken = false := by
  simp only [refusal] at h
  split_ifs at h with _ _ hbroken _ hsize
  simp only [not_or, not_lt] at hsize
  exact ⟨⟨hkey, hid, hsize.1⟩, by simpa using hbroken⟩

/-- The records after one more. -/
lemma lookup_noted (j : Journal) (key : String) : (j.noted codec r).records.lookup key =
      if key = r.key then if r.outcome = .settled then none else some ⟨r.id, r.outcome⟩
      else j.records.lookup key :=
  lookup_put j.records r _ key

/-- A journal with one more record, in memory and on the disk. -/
lemma noted_keeps (h : Keeps codec needed s) (hdisk : DiskKeeps codec needed s.disk True)
    (hfits : Fits codec r) (hsame : ∀ e, s.journal.records.lookup r.key = some e → e.id = r.id)
    (hsettled : r.outcome = .settled → ∀ id, ¬ needed r.key id) :
    Keeps codec (fun key id => needed key id ∨ r.outcome ≠ .settled ∧ key = r.key ∧ id = r.id)
      ⟨s.journal.noted codec r, s.disk ++ codec.line r⟩ := by
  have hentry : ∀ key e, (s.journal.noted codec r).records.lookup key = some e →
      (key = r.key ∧ r.outcome ≠ .settled ∧ e = ⟨r.id, r.outcome⟩) ∨
        s.journal.records.lookup key = some e := by
    intro key e hlookup
    rw [lookup_noted] at hlookup
    split_ifs at hlookup with hkey hend
    · exact .inl ⟨hkey, hend, (some.inj hlookup).symm⟩
    · exact .inr hlookup
  refine ⟨⟨fun key e hlookup => ?_, fun key e hlookup => ?_⟩, ?_, ?_⟩
  · rcases hentry key e hlookup with ⟨rfl, -, rfl⟩ | hold
    · exact hfits
    · exact h.clean.fits key e hold
  · rcases hentry key e hlookup with ⟨-, hlive, rfl⟩ | hold
    · exact hlive
    · exact h.clean.live key e hold
  · rcases has_of_put rfl hsame (lookup_noted s.journal) hsettled h.memory with ⟨hold, hnew⟩
    rintro key id (hkey | ⟨hlive, rfl, rfl⟩)
    · exact hold key id hkey
    · exact hnew hlive
  · exact (hdisk.append hfits hsettled).imp fun _ => trivial

/-- A rewritten journal keeps what it kept. -/
lemma Keeps.rewrite (io : RewriteIo) (h : Keeps codec needed s) :
    Keeps codec needed (rewrite codec io s).2 ∧
      (rewrite codec io s).2.journal.records = s.journal.records := by
  rcases rewrite_keeps io h.clean h.memory h.disk with ⟨hrecords, hbroken, hdisk, -⟩
  refine ⟨⟨?_, ?_, ?_⟩, hrecords⟩
  · rw [hrecords]
    exact h.clean
  · rw [hrecords]
    exact h.memory
  · rw [hbroken]
    exact hdisk

/-- **An append** fails and leaves the memory as it was, or notes the record; whatever becomes of it
the journal keeps what is needed, and with the record noted that too. -/
lemma append_keeps (write : WriteIo) (io : RewriteIo) (h : Keeps codec needed s) (hkey : r.key ≠ "")
    (hid : r.id ≠ "") (hsame : ∀ e, s.journal.records.lookup r.key = some e → e.id = r.id)
    (hsettled : r.outcome = .settled → ∀ id, ¬ needed r.key id) :
    ((append codec write io r s).1 ≠ none ∧
        (append codec write io r s).2.journal.records = s.journal.records ∧
        Keeps codec needed (append codec write io r s).2) ∨
      (append codec write io r s).2.journal.records = (s.journal.noted codec r).records ∧
        Keeps codec (fun key id => needed key id ∨ r.outcome ≠ .settled ∧ key = r.key ∧ id = r.id)
          (append codec write io r s).2 := by
  simp only [append]
  cases hrefusal : refusal codec s.journal r with
  | some error => exact .inl ⟨by simp, rfl, h⟩
  | none =>
    rcases fits_of_refusal hkey hid hrefusal with ⟨hfits, hbroken⟩
    have hdisk : DiskKeeps codec needed s.disk True := h.disk.imp fun _ => hbroken
    cases write with
    | failed written =>
      left
      rcases rewrite_keeps (s := ⟨s.journal, s.disk ++ (codec.line r).take written⟩) io h.clean h.memory
        (hdisk.take hfits hsettled written) with ⟨hrecords, -, hpart, hwhole⟩
      refine ⟨by simp, hrecords, ?_, ?_, ?_⟩
      · simp only [hrecords]
        exact h.clean
      · simp only [hrecords]
        exact h.memory
      cases herror : (rewrite codec io ⟨s.journal, s.disk ++ (codec.line r).take written⟩).1 with
      | none => exact (hwhole herror).imp fun _ => trivial
      | some error => exact hpart.imp fun hfalse => by simp [herror] at hfalse
    | done =>
      right
      have hnoted := noted_keeps h hdisk hfits hsame hsettled
      split_ifs
      · exact ⟨(hnoted.rewrite io).2, (hnoted.rewrite io).1⟩
      · exact ⟨rfl, hnoted⟩

/-- Records without some of their keys. -/
lemma lookup_foldl_erase (keys : List String) (records : Records) (key : String) :
    (keys.foldl (fun records key => records.erase key) records).lookup key =
      if key ∈ keys then none else records.lookup key := by
  induction keys generalizing records with
  | nil => simp
  | cons k keys ih =>
    rw [foldl_cons, ih]
    by_cases hk : key = k
    · subst hk
      simp
    · simp [hk]

/-- Forgetting several keys keeps what is needed, if none of them is. -/
lemma settleMany_keeps (io : RewriteIo) {keys : List String} (h : Keeps codec needed s)
    (hkeys : ∀ key ∈ keys, ∀ id, ¬ needed key id) :
    Keeps codec needed (settleMany codec io keys s).2 ∧
      ∀ key, (settleMany codec io keys s).2.journal.records.lookup key = none ∨
        (settleMany codec io keys s).2.journal.records.lookup key = s.journal.records.lookup key := by
  simp only [settleMany]
  split_ifs with hdone
  · exact ⟨h, fun _ => .inr rfl⟩
  have hlookup : ∀ key, ((keys.filter s.journal.mayForget).foldl (fun records key => records.erase key)
      s.journal.records).lookup key = none ∨
        ((keys.filter s.journal.mayForget).foldl (fun records key => records.erase key)
          s.journal.records).lookup key = s.journal.records.lookup key := by
    intro key
    rw [lookup_foldl_erase]
    split_ifs
    · exact .inl rfl
    · exact .inr rfl
  have hclean : Clean codec ((keys.filter s.journal.mayForget).foldl
      (fun records key => records.erase key) s.journal.records) := by
    constructor
    · intro key e he
      rcases hlookup key with hnone | hsame
      · rw [hnone] at he
        simp at he
      · exact h.clean.fits key e (hsame.symm.trans he)
    · intro key e he
      rcases hlookup key with hnone | hsame
      · rw [hnone] at he
        simp at he
      · exact h.clean.live key e (hsame.symm.trans he)
  have hmemory : ∀ key id, needed key id → Has ((keys.filter s.journal.mayForget).foldl
      (fun records key => records.erase key) s.journal.records) key id := by
    intro key id hkey
    rcases h.memory key id hkey with ⟨outcome, hold⟩
    refine ⟨outcome, ?_⟩
    rw [lookup_foldl_erase, if_neg, hold]
    intro hmem
    exact hkeys key (mem_of_mem_filter hmem) id hkey
  have hforgot : Keeps codec needed ⟨{ s.journal with
      records := (keys.filter s.journal.mayForget).foldl (fun records key => records.erase key)
        s.journal.records
      review := s.journal.review.filter fun key => !(keys.filter s.journal.mayForget).contains key },
      s.disk⟩ := ⟨hclean, hmemory, h.disk⟩
  refine ⟨(hforgot.rewrite io).1, fun key => ?_⟩
  rw [(hforgot.rewrite io).2]
  exact hlookup key

/-! ## Opening -/

lemma clean_of_replay (hfits : ∀ r ∈ rs, Fits codec r) (h : replay rs = .ok records) :
    Clean codec records := by
  refine foldlM_keeps (P := fun records => Clean codec records) ?_ ?_ h
  · intro r hr before after hbefore happly
    have hlookup := (apply_ok happly).2
    have hentry : ∀ key e, after.lookup key = some e →
        (key = r.key ∧ r.outcome ≠ .settled ∧ e = ⟨r.id, r.outcome.afterRestart⟩) ∨
          before.lookup key = some e := by
      intro key e he
      rw [hlookup] at he
      split_ifs at he with hkey hend
      · exact .inl ⟨hkey, hend, (some.inj he).symm⟩
      · exact .inr he
    constructor
    · intro key e he
      rcases hentry key e he with ⟨rfl, -, rfl⟩ | hold
      · rcases r with ⟨key, id, outcome⟩
        have hr' := hfits _ hr
        refine ⟨hr'.key, hr'.id, ?_⟩
        cases outcome with
        | accepted =>
          have hlength := codec.length_unknown key id
          have hshort := hr'.short
          simp only [Codec.line, length_append] at hshort ⊢
          exact (Nat.add_le_add_right hlength _).trans hshort
        | _ => exact hr'.short
      · exact hbefore.fits key e hold
    · intro key e he
      rcases hentry key e he with ⟨-, hlive, rfl⟩ | hold
      · cases houtcome : r.outcome <;> simp [houtcome, Outcome.afterRestart] at hlive ⊢
      · exact hbefore.live key e hold
  · constructor <;> intro key e he <;> simp at he

/-- **Opening** the journal reads back what is needed, or fails and leaves it on the disk.  What has been
read back is all still on the disk. -/
lemma openJournal_keeps (io : RewriteIo) (h : DiskKeeps codec needed disk False) :
    DiskKeeps codec needed (openJournal codec io disk).2 False ∧
      ∀ j, (openJournal codec io disk).1 = .ok j → (∀ key id, needed key id → Has j.records key id) ∧
        Keeps codec (Has j.records) ⟨j, (openJournal codec io disk).2⟩ := by
  have hdisk := h
  rcases h with ⟨rs, torn, hholds, -, hkeeps⟩
  simp only [openJournal]
  rcases hscan : scanJournal codec disk with error | scan
  · exact ⟨hdisk, nofun⟩
  rcases scanJournal_ok hholds hscan with ⟨hreplay, hrecovered⟩
  have hclean := clean_of_replay hholds.fits hreplay
  have hmemory := hkeeps _ hreplay
  have hall : ∀ records, replay rs = .ok records → ∀ key id, Has scan.records key id →
      Has records key id := by
    intro records hreplay' key id hhas
    rw [hreplay, Except.ok.injEq] at hreplay'
    exact hreplay' ▸ hhas
  simp only
  split_ifs with hfull hrewrite
  · exact ⟨hdisk, nofun⟩
  · rcases rewrite_keeps (s := ⟨⟨scan.records, [], disk.length, scan.lines, false, false⟩, disk⟩) io
      hclean hmemory hdisk with ⟨-, -, hpart, -⟩
    rcases rewrite_keeps (s := ⟨⟨scan.records, [], disk.length, scan.lines, false, false⟩, disk⟩) io
      hclean (fun _ _ hhas => hhas) ⟨rs, torn, hholds, False.elim, hall⟩ with
      ⟨hrecords, -, -, hwhole⟩
    cases herror : rewrite codec io ⟨⟨scan.records, [], disk.length, scan.lines, false, false⟩, disk⟩ with
    | mk error s =>
      rw [herror] at hrecords hpart hwhole
      cases error with
      | some error => exact ⟨hpart, nofun⟩
      | none =>
        refine ⟨hpart, fun j hj => ?_⟩
        rw [← Except.ok.inj hj]
        rw [hrecords]
        refine ⟨hmemory, ?_, ?_, ?_⟩
        · rw [hrecords]
          exact hclean
        · rw [hrecords]
          exact fun _ _ hhas => hhas
        · exact (hwhole rfl).imp fun _ => trivial
  · refine ⟨hdisk, fun j hj => ?_⟩
    rw [← Except.ok.inj hj]
    refine ⟨hmemory, hclean, fun _ _ hhas => hhas, rs, torn, hholds, fun _ => ?_, hall⟩
    by_contra htorn
    exact hrewrite (.inl (hrecovered.mpr htorn))

lemma closeJournal_keeps (io : RewriteIo) (h : Keeps codec needed s) :
    DiskKeeps codec needed (closeJournal codec io s) False := by
  rw [closeJournal]
  split_ifs
  · exact (h.rewrite io).1.disk.imp False.elim
  · exact h.disk.imp False.elim

end Operations

end EraInfra.Infra.Agent
