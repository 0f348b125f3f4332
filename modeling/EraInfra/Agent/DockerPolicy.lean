import EraInfra.Agent.DockerArgs

/-!
# One policy for Docker arguments

The control plane and the Infra Agent check Docker arguments with code of their own.  They accept the
same lists: both read the same turns out of the tokens (`readDockerArgs_toOption`) and refuse the same
values (`validateDockerValue_eq_none`).

The volumes of an accepted list are read a third and a fourth time, by parsers that only look for
volume flags.  They find what the check consumed, because no value of another flag that is accepted
begins with a dash (`ne_dash_of_accepted`).
-/

namespace EraInfra.Infra.Agent

open DocStore Texts List
open Option (or_eq_none_iff some)
open Except (toOption)

variable {js : CaseMap} {go : Runtime} {value : List Char} {args : List String}

/-! ## Reading -/

lemma isControlByte_iff {b : UInt8} : isControlByte b = true ↔ isControlUnit b.toNat = true := by
  have htab : (9 : UInt8).toNat = 9 := rfl
  have hspace : (0x20 : UInt8).toNat = 32 := rfl
  have hdelete : (0x7f : UInt8).toNat = 127 := rfl
  simp only [isControlByte, isControlUnit, Bool.or_eq_true, Bool.and_eq_true, decide_eq_true_eq, ne_eq,
    UInt8.lt_iff_toNat_lt, ← UInt8.toNat_inj]
  omega

lemma lt_of_isControlUnit (n : ℕ) (h : isControlUnit n = true) : n < 128 := by
  simp only [isControlUnit, Bool.or_eq_true, Bool.and_eq_true, decide_eq_true_eq] at h
  omega

/-- A byte scan and a unit scan find the same control characters. -/
lemma containsDockerControlChar_eq (s : List Char) : containsDockerControlChar s = hasControl s := by
  rw [Bool.eq_iff_iff, containsDockerControlChar, hasControl, any_eq_true, any_eq_true,
    exists_utf16_iff lt_of_isControlUnit, ← exists_utf8_iff lt_of_isControlUnit]
  simp only [isControlByte_iff]

/-- At most one entry of the table begins a flag. -/
lemma combined_unique (flag : List Char) : ∀ a ∈ combined, ∀ b ∈ combined,
    a.1.isPrefixOf flag = true → b.1.isPrefixOf flag = true → a = b := by
  have htable : ∀ a ∈ combined, ∀ b ∈ combined, a.1 <+: b.1 → a = b := by decide
  intro a ha b hb hfa hfb
  rw [ isPrefixOf_iff_prefix] at hfa hfb
  rcases Nat.le_total a.1.length b.1.length with hle | hle
  · exact htable a ha b hb (prefix_of_prefix_length_le hfa hfb hle)
  · exact (htable b hb a ha (prefix_of_prefix_length_le hfb hfa hle)).symm

lemma find?_flags (flag : List Char) : (go.flags.find? fun entry => entry.1.isPrefixOf flag)
    = combined.find? fun entry => entry.1.isPrefixOf flag := by
  refine find?_eq_of_perm go.flags_perm fun a ha b hb => ?_
  exact combined_unique flag a (go.flags_perm.mem_iff.mp ha) b (go.flags_perm.mem_iff.mp hb)

section

variable (go : Runtime)

/-- Both loops take the same turns. -/
lemma readDockerArgs_toOption (args : List String) :
    (readDockerArgs go args).map toOption = (readArgs args).map toOption := by
  fun_induction readArgs args with
  | case1 => rfl
  | case2 flag rest hbad =>
    rw [readDockerArgs, containsDockerControlChar_eq, if_pos hbad]
  | case3 flag hok kind hkind =>
    have hswitch : switchKind flag = some kind := hkind
    rw [readDockerArgs, containsDockerControlChar_eq, if_neg hok]
    simp only [hswitch]
  | case4 flag hok kind hkind value rest ih =>
    have hswitch : switchKind flag = some kind := hkind
    rw [readDockerArgs, containsDockerControlChar_eq, if_neg hok]
    simp [hswitch, ih]
  | case5 flag rest hok hkind hfind =>
    have hswitch : switchKind flag = none := hkind
    rw [readDockerArgs, containsDockerControlChar_eq, if_neg hok]
    simp only [hswitch, find?_flags, hfind]
    rfl
  | case6 flag rest hok hkind start kind hfind ih =>
    have hswitch : switchKind flag = none := hkind
    rw [readDockerArgs, containsDockerControlChar_eq, if_neg hok]
    simp only [hswitch, find?_flags, hfind, map_cons, ih]

/-! ## Checking -/

lemma validateDockerDigits_eq_none (raw digits : List Char) :
    validateDockerDigits go raw digits = none ↔ validatePortDigits raw digits = none := by
  simp only [validateDockerDigits, validatePortDigits, atoi]
  by_cases hdigits : isPortDigits digits = false
  · simp [if_pos hdigits]
  simp only [if_neg hdigits]
  by_cases hmax : maxInt < Nat.ofDigitChars 10 digits 0
  · have hlarge : 65535 < Nat.ofDigitChars 10 digits 0 := lt_trans (by decide) hmax
    simp only [if_pos hmax, if_pos (.inr hlarge : _ ∨ _), reduceCtorEq]
  · simp only [if_neg hmax]
    split_ifs <;> simp

lemma validateDockerPort_eq_none (raw : List Char) (allowProto : Bool) :
    validateDockerPort go raw allowProto = none ↔ validatePort raw allowProto = none := by
  simp only [validateDockerPort, validatePort]
  cases cutLastSlash raw with
  | none => exact validateDockerDigits_eq_none go raw raw
  | some cut =>
    simp only
    split_ifs
    · simp
    · simp
    · exact validateDockerDigits_eq_none go raw cut.1

lemma validateDockerPorts_eq_none (host container : List Char) :
    (validateDockerPort go host false).or (validateDockerPort go container true) = none ↔
      (validatePort host false).or (validatePort container true) = none := by
  rw [or_eq_none_iff, or_eq_none_iff, validateDockerPort_eq_none, validateDockerPort_eq_none]

lemma validateDockerPublish_eq_none (value : List Char) :
    validateDockerPublish go value = none ↔ validatePublish value = none := by
  simp only [validateDockerPublish, validatePublish]
  generalize "127.0.0.1".toList = loopback
  -- two or three parts
  rcases value.splitOn ':' with _ | ⟨a, _ | ⟨b, _ | ⟨c, _ | ⟨d, rest⟩⟩⟩⟩
  · simp
  · simp
  · exact validateDockerPorts_eq_none go a b
  · rw [if_neg (by simp)]
    by_cases haddress : a = loopback
    · rw [if_neg (by simp [haddress])]
      simp only [haddress, ne_eq]
      exact validateDockerPorts_eq_none go b c
    · rw [if_pos ⟨rfl, haddress⟩]
      simp [haddress]
  · rw [if_pos (by simp)]

end

lemma targetLoop_eq_none {segments : List (List Char)} {named : Bool} :
    targetLoop segments named = none ↔ "..".toList ∉ segments ∧
      (named = true ∨ ∃ segment ∈ segments, segment ≠ [] ∧ segment ≠ ".".toList) := by
  induction segments generalizing named with
  | nil => cases named <;> simp [targetLoop]
  | cons segment rest ih =>
    rw [targetLoop]
    split_ifs with hdots
    · simp [hdots]
    · rw [ih, mem_cons, not_or, exists_mem_cons_iff]
      simp only [Bool.or_eq_true, Bool.and_eq_true, decide_eq_true_eq, or_assoc]
      exact ⟨fun h => ⟨⟨fun heq => hdots heq.symm, h.1⟩, h.2⟩, fun h => ⟨h.1.2, h.2⟩⟩

lemma validateDockerVolumeTarget_eq_none (target : List Char) :
    validateDockerVolumeTarget target = none ↔ validateVolumeTarget target = none := by
  simp only [validateDockerVolumeTarget, validateVolumeTarget]
  split_ifs with hslash hdots hroot
  · rfl
  · rw [targetLoop_eq_none]
    simp only [hdots, not_true_eq_false, false_and]
  · rw [targetLoop_eq_none]
    simp only [all_eq_true, Bool.or_eq_true, decide_eq_true_eq] at hroot
    refine iff_of_false ?_ (by simp)
    rintro ⟨-, hfalse | ⟨segment, hsegment, hempty, hdot⟩⟩
    · simp at hfalse
    · exact (hroot segment hsegment).elim hempty hdot
  · rw [targetLoop_eq_none]
    simp only [all_eq_true, Bool.or_eq_true, decide_eq_true_eq, not_forall, not_or] at hroot
    rcases hroot with ⟨segment, hsegment, hname⟩
    exact iff_of_true ⟨hdots, .inr ⟨segment, hsegment, hname⟩⟩ rfl

/-- Both engines find a runtime socket in the same values. -/
lemma dockerSock_iff (a b : CaseMap) (value : List Char) :
    dockerSock <:+: a.lower value ↔ dockerSock <:+: b.lower value := by
  have hne : dockerSock ≠ [] := by decide
  rw [infix_iff_of_lowers hne dockerSock_ascii (a.lowers value),
    infix_iff_of_lowers hne dockerSock_ascii (b.lowers value)]

lemma validateDockerVolume_eq_none (js : CaseMap) (go : Runtime) (value : List Char) :
    validateDockerVolume go value = none ↔ validateVolume js value = none := by
  simp only [validateDockerVolume, validateVolume]
  by_cases hsock : dockerSock <:+: js.lower value
  · rw [if_pos hsock, if_pos ((dockerSock_iff go.toLower js value).mpr hsock)]
  rw [if_neg hsock, if_neg (fun h => hsock ((dockerSock_iff go.toLower js value).mp h))]
  rcases value.splitOn ':' with _ | ⟨name, _ | ⟨target, _ | ⟨option, _ | ⟨d, rest⟩⟩⟩⟩
  · simp
  · simp
  · by_cases hname : isVolumeName name = false
    · simp [hname]
    · rw [if_neg (by simpa using hname), if_neg (by simp), Option.or_none]
      simp only [if_neg hname]
      exact validateDockerVolumeTarget_eq_none target
  · by_cases hname : isVolumeName name = false
    · simp [hname]
    rw [if_neg (by simpa using hname)]
    simp only [if_neg hname]
    rw [or_eq_none_iff, or_eq_none_iff]
    refine and_congr (validateDockerVolumeTarget_eq_none target) ?_
    split_ifs <;> simp_all
  · rw [if_pos (by simp)]

lemma validateDockerEnv_eq_none (value : List Char) :
    validateDockerEnv value = none ↔ validateEnv value = none := by
  have hempty : ∀ key : List Char, key.length < 1 → isEnvName (String.ofList key) = false := by
    intro key hkey
    rw [length_eq_zero_iff.mp (Nat.lt_one_iff.mp hkey)]
    decide
  simp only [validateDockerEnv, validateEnv]
  split_ifs with hgo hjs hjs
  · simp
  · exact absurd (hgo.imp_right .inr) hjs
  · rcases hjs with hcut | hkey | hname
    · exact absurd (.inl hcut) hgo
    · exact absurd (.inr (hempty _ hkey)) hgo
    · exact absurd (.inr hname) hgo
  · simp

section

variable (js : CaseMap) (go : Runtime)

/-- Both checks refuse the same values. -/
lemma validateDockerValue_eq_none (kind : ArgKind) (value : List Char) :
    validateDockerValue go kind value = none ↔ validateValue js kind value = none := by
  cases kind with
  | publish => exact validateDockerPublish_eq_none go value
  | volume => exact validateDockerVolume_eq_none js go value
  | env => exact validateDockerEnv_eq_none value
  | addHost =>
    simp only [validateDockerValue, validateValue]
    split_ifs <;> simp_all

lemma checkDockerArg_eq_none {turn turn' : Except String DockerArg}
    (h : turn'.toOption = turn.toOption) : checkDockerArg go turn' = none ↔ checkArg js turn = none := by
  rcases turn with error | arg
  · cases turn' with
    | error error' => simp [checkDockerArg, checkArg]
    | ok arg => simp [toOption] at h
  rcases turn' with error | arg'
  · simp [toOption] at h
  simp only [toOption, some.injEq] at h
  subst h
  simp only [checkDockerArg, checkArg, containsDockerControlChar_eq]
  split_ifs
  · simp
  · simp only [Option.map_eq_none_iff]
    exact validateDockerValue_eq_none js go arg'.kind arg'.value

/-- Lists with the same turns are refused or accepted alike. -/
lemma forall_check_iff {turns turns' : List (Except String DockerArg)}
    (h : turns'.map toOption = turns.map toOption) :
    (∀ turn ∈ turns', checkDockerArg go turn = none) ↔ ∀ turn ∈ turns, checkArg js turn = none := by
  induction turns generalizing turns' with
  | nil =>
    rw [map_nil, map_eq_nil_iff] at h
    simp [h]
  | cons turn turns ih =>
    cases turns' with
    | nil => simp at h
    | cons turn' turns' =>
      rw [map_cons, map_cons, cons.injEq] at h
      rw [forall_mem_cons, forall_mem_cons, checkDockerArg_eq_none js go h.1, ih h.2]

end

/-! ## Volumes -/

/-- What the check consumed of an accepted list. -/
def consumed (args : List String) : List DockerArg := (readArgs args).filterMap Except.toOption

/-- The source names of the volume values it consumed. -/
def volumeSources (args : List String) : List (List Char) :=
  ((consumed args).filter fun arg => arg.kind = .volume).map fun arg => sourceName arg.value

/-- The part before the first separator. -/
lemma headD_splitOn (sep : Char) (s : List Char) : (s.splitOn sep).headD [] = s.takeWhile (· ≠ sep) := by
  induction s with
  | nil => simp
  | cons c s ih =>
    rw [splitOn, splitOnP_cons_eq_if_modifyHead]
    by_cases hc : c = sep
    · rw [if_pos (by simpa using hc), takeWhile_cons_of_neg (by simpa using hc), headD_cons]
    · rw [if_neg (by simpa using hc), takeWhile_cons_of_pos (by simpa using hc), ← ih, splitOn]
      cases hparts : s.splitOnP (· == sep) with
      | nil => exact absurd hparts (splitOnP_ne_nil _ _)
      | cons part parts => rfl

variable {kind : ArgKind} {flag : String}

/-- An accepted value of another flag does not begin with a dash. -/
lemma ne_dash_of_accepted (hkind : kind ≠ .volume) {rest : List Char}
    (h : validateValue js kind ('-' :: rest) = none) : False := by
  cases kind with
  | volume => exact hkind rfl
  | addHost =>
    simp only [validateValue] at h
    split_ifs at h with hgateway
    have hhead := congrArg head? hgateway
    rw [head?_cons] at hhead
    exact absurd hhead (by decide)
  | env =>
    simp only [validateValue, validateEnv] at h
    split_ifs at h with hrefused
    simp only [not_or] at hrefused
    have hname := hrefused.2.2
    simp [isEnvName, isWord] at hname
  | publish =>
    simp only [validateValue, validatePublish] at h
    have hhead := headD_splitOn ':' ('-' :: rest)
    rw [takeWhile_cons_of_pos (by decide)] at hhead
    have hport : ∀ tail, validatePort ('-' :: tail) false ≠ none := by
      intro tail hport
      simp only [validatePort] at hport
      cases hcut : cutLastSlash ('-' :: tail) with
      | some cut =>
        rw [hcut] at hport
        simp at hport
      | none =>
        rw [hcut] at hport
        simp [validatePortDigits, isPortDigits] at hport
    generalize ('-' :: rest).splitOn ':' = parts at h hhead
    rcases parts with _ | ⟨a, _ | ⟨b, _ | ⟨c, _ | ⟨d, more⟩⟩⟩⟩
    · simp at h
    · simp at h
    · rw [headD_cons] at hhead
      rw [or_eq_none_iff, hhead] at h
      exact hport _ h.1
    · rw [headD_cons] at hhead
      simp only [hhead] at h
      split_ifs at h with haddress
      have hdash := congrArg head? (not_not.mp haddress)
      rw [head?_cons] at hdash
      exact absurd hdash (by decide)
    · simp at h

/-- The two scans for volumes read the same names. -/
lemma mountedVolumes_eq (args : List String) : mountedVolumes args = volumeNames args := by
  have hname : ∀ value, sourceName value = value.takeWhile (· ≠ ':') := headD_splitOn ':'
  fun_induction volumeNames args with
  | case1 => rfl
  | case2 arg hflag => rw [mountedVolumes, if_pos hflag]
  | case3 arg hflag value rest ih =>
    rw [mountedVolumes, if_pos hflag]
    simp only [ih, hname]
  | case4 arg rest hflag hshort ih =>
    rw [mountedVolumes.eq_def]
    simp only [if_neg hflag, if_pos hshort, ih, hname]
  | case5 arg rest hflag hshort hlong ih =>
    rw [mountedVolumes.eq_def]
    simp only [if_neg hflag, if_neg hshort, if_pos hlong, ih, hname]
  | case6 arg rest hflag hshort hlong ih =>
    rw [mountedVolumes.eq_def]
    simp only [if_neg hflag, if_neg hshort, if_neg hlong, ih]

variable {rest : List String}

/-- A token that begins no volume is passed over. -/
lemma volumeNames_cons_of_not_volume {arg : String}
    (hflag : ¬ (arg = "-v" ∨ arg = "--volume"))
    (hstart : ∀ entry ∈ combined, entry.2 = .volume → entry.1.isPrefixOf arg.toList = false) :
    volumeNames (arg :: rest) = volumeNames rest := by
  have hshort := hstart ("-v=".toList, .volume) (by simp [combined]) rfl
  have hlong := hstart ("--volume=".toList, .volume) (by simp [combined]) rfl
  rw [volumeNames.eq_def]
  simp only [if_neg hflag]
  rw [if_neg (by rw [hshort]; simp), if_neg (by rw [hlong]; simp)]

/-- So is one that does not begin with a dash, whatever it holds. -/
lemma volumeNames_cons_of_not_dash {arg : String}
    (harg : ∀ tail, arg.toList ≠ '-' :: tail) : volumeNames (arg :: rest) = volumeNames rest := by
  refine volumeNames_cons_of_not_volume ?_ ?_
  · rintro (rfl | rfl)
    · exact harg ['v'] (by decide)
    · exact harg "-volume".toList (by decide)
  have hdash : ∀ entry ∈ combined, entry.1.head? = some '-' := by decide
  intro entry hentry _
  have hhead := hdash entry hentry
  rw [Bool.eq_false_iff]
  intro hstart
  rw [ isPrefixOf_iff_prefix] at hstart
  rcases hstart with ⟨tail, htail⟩
  cases hlist : entry.1 with
  | nil => simp [hlist] at hhead
  | cons c cs =>
    rw [hlist, head?_cons, some.injEq] at hhead
    rw [hlist, hhead] at htail
    exact harg _ htail.symm

/-- A flag that takes the next token, and no volume, begins no volume. -/
lemma volumeNames_cons_of_splitKind (hsplit : splitKind flag = some kind) (hkind : kind ≠ .volume) :
    volumeNames (flag :: rest) = volumeNames rest := by
  have hflags : ∀ flag ∈ ["-p", "--publish", "-e", "--env", "--add-host"],
      ¬ (flag = "-v" ∨ flag = "--volume")
        ∧ ∀ entry ∈ combined, entry.2 = .volume → entry.1.isPrefixOf flag.toList = false := by
    decide
  have hmem : flag ∈ ["-p", "--publish", "-e", "--env", "--add-host"] := by
    simp only [splitKind] at hsplit
    split_ifs at hsplit with h₁ h₂ h₃ h₄
    · rcases h₁ with rfl | rfl <;> simp
    · simp only [some.injEq] at hsplit
      exact absurd hsplit.symm hkind
    · rcases h₃ with rfl | rfl <;> simp
    · simp [h₄]
  exact volumeNames_cons_of_not_volume (hflags flag hmem).1 (hflags flag hmem).2

/-- A volume in one token is read where the check read it. -/
lemma volumeNames_cons_of_combined {start : List Char}
    (hsplit : splitKind flag = none) (hentry : (start, ArgKind.volume) ∈ combined)
    (hstart : start.isPrefixOf flag.toList = true) :
    volumeNames (flag :: rest) = sourceName (flag.toList.drop start.length) :: volumeNames rest := by
  have hflag : ¬ (flag = "-v" ∨ flag = "--volume") := by
    rintro (rfl | rfl) <;> exact absurd hsplit (by decide)
  have hstarts : ∀ entry ∈ combined, entry.2 = .volume →
      entry.1 = "-v=".toList ∧ entry.1.length = 3 ∨ entry.1 = "--volume=".toList ∧ entry.1.length = 9 := by
    decide
  rw [volumeNames.eq_def]
  simp only [if_neg hflag]
  rcases hstarts _ hentry rfl with ⟨heq, hlen⟩ | ⟨heq, hlen⟩
  · rw [← heq, if_pos hstart, hlen]
  have hshort : "-v=".toList.isPrefixOf flag.toList = false := by
    rw [Bool.eq_false_iff]
    intro hother
    have hsame := combined_unique flag.toList ("-v=".toList, .volume) (by simp [combined]) _ hentry
      hother hstart
    have hlen' := congrArg (fun entry => entry.1.length) hsame
    simp only [hlen] at hlen'
    exact absurd hlen' (by decide)
  rw [if_neg (by rw [hshort]; simp), ← heq, if_pos hstart, hlen]

/-- Of an accepted list the scan reads the volumes the check consumed. -/
lemma volumeNames_eq_volumeSources (haccepted : ∀ turn ∈ readArgs args, checkArg js turn = none) :
    volumeNames args = volumeSources args := by
  simp only [volumeSources, consumed]
  fun_induction readArgs args with
  | case1 => rfl
  | case2 flag rest hinvalid => exact absurd (haccepted _ (mem_singleton.mpr rfl)) (by simp [checkArg])
  | case3 flag hvalid kind hsplit | case5 flag rest hvalid hsplit hfind =>
    exact absurd (haccepted _ (mem_singleton.mpr rfl)) (by simp [checkArg])
  | case4 flag hvalid kind hsplit value rest ih =>
    have hrest := ih fun turn hturn => haccepted turn (mem_cons_of_mem _ hturn)
    have hvalue := haccepted _ mem_cons_self
    by_cases hkind : kind = .volume
    · have hflag : flag = "-v" ∨ flag = "--volume" := by
        by_contra hother
        simp only [splitKind, hkind] at hsplit
        split_ifs at hsplit <;> cases hsplit
      rw [volumeNames.eq_def]
      simp only [if_pos hflag, hrest, hkind]
      rfl
    · simp only [checkArg] at hvalue
      split_ifs at hvalue with hcontrol
      rw [Option.map_eq_none_iff] at hvalue
      have hdash : ∀ tail, value.toList ≠ '-' :: tail := by
        intro tail htail
        rw [htail] at hvalue
        exact ne_dash_of_accepted hkind hvalue
      rw [volumeNames_cons_of_splitKind hsplit hkind, volumeNames_cons_of_not_dash hdash, hrest]
      simp [toOption, hkind]
  | case6 flag rest hvalid hsplit start kind hfind ih =>
    have hrest := ih fun turn hturn => haccepted turn (mem_cons_of_mem _ hturn)
    have hentry := mem_of_find?_eq_some hfind
    have hstart := find?_some hfind
    by_cases hkind : kind = .volume
    · subst hkind
      rw [volumeNames_cons_of_combined hsplit hentry hstart, hrest]
      rfl
    have hflag : ¬ (flag = "-v" ∨ flag = "--volume") := by
      rintro (rfl | rfl) <;> exact absurd hsplit (by decide)
    have hother : ∀ entry ∈ combined, entry.2 = .volume → entry.1.isPrefixOf flag.toList = false := by
      intro entry hmem hvolume
      rw [Bool.eq_false_iff]
      intro hbegins
      have hsame := combined_unique flag.toList entry hmem _ hentry hbegins hstart
      exact hkind (by rw [← hvolume, hsame])
    rw [volumeNames_cons_of_not_volume hflag hother, hrest]
    simp [toOption, hkind]

/-- The control plane accepts an argument list exactly when the agent does, and the named volumes either
of them reads out of an accepted list are the source names of the volume values the check consumed. -/
theorem docker_policies_agree (js : CaseMap) (go : Runtime) (args : List String) :
    (Infra.validateDockerArgs js args = none ↔ validateDockerArgs go args = none)
      ∧ (Infra.validateDockerArgs js args = none →
          volumeNames args = volumeSources args ∧ mountedVolumes args = volumeSources args) := by
  refine ⟨?_, ?_⟩
  · simp only [Infra.validateDockerArgs, validateDockerArgs]
    split_ifs
    · simp
    · rw [findSome?_eq_none_iff, findSome?_eq_none_iff]
      exact (forall_check_iff js go (readDockerArgs_toOption go args)).symm
  · intro haccepted
    simp only [Infra.validateDockerArgs] at haccepted
    split_ifs at haccepted
    rw [findSome?_eq_none_iff] at haccepted
    have hnames := volumeNames_eq_volumeSources haccepted
    exact ⟨hnames, (mountedVolumes_eq args).trans hnames⟩

/-- A Go runtime that goes through the flags in the order they are written in. -/
def plainRuntime : Runtime where
  toLower := foldMap
  quote text := "\"" ++ text ++ "\""
  flags := combined
  flags_perm := List.Perm.refl _

/-- One flag of each kind, joined with its value or not. -/
def plainArgs : List String :=
  ["-p", "127.0.0.1:8080:80/tcp", "-v", "data:/var/lib/data:ro", "--volume=logs:/logs", "--env=MODE=-v"]

/-- The list is accepted on both sides, and its two volumes are seen. -/
theorem docker_policies_agree_of_plainArgs :
    validateDockerArgs plainRuntime plainArgs = none
      ∧ volumeNames plainArgs = ["data".toList, "logs".toList] := by
  have haccepted : Infra.validateDockerArgs foldMap plainArgs = none := by decide
  have hagree := docker_policies_agree foldMap plainRuntime plainArgs
  exact ⟨hagree.1.mp haccepted, (hagree.2 haccepted).1.trans (by decide)⟩

end EraInfra.Infra.Agent
