import EraInfra.Core.Run

/-!
# The host resolver

The DNS queries of a guest are answered on the host (`egress/resolver.go`).  The addresses of an answer to a
restricted guest are first put into the kernel's set `rc_allow_dns` (`netpolicy/elements.go`), with one
timeout for the whole answer.

Every answer that names an address replaces its timeout, so the last one that named it settles when the
guest can no longer reach it.
-/

namespace EraInfra.Resolver

open DocStore List Option Function

/-- An IPv4 address. -/
abbrev Addr := BitVec 32

/-! ## The kernel's set -/

/-- The elements of `rc_allow_dns`, a guest with an address, and when each times out. -/
abbrev AllowDns := Addr × Addr → Option ℤ

/-- An element is there until it times out. -/
def AllowDns.has (set : AllowDns) (element : Addr × Addr) (now : ℤ) : Bool :=
  (set element).any fun t => now < t

/-- What an nft line does with its elements. -/
inductive Verb
  | add (timeout : ℤ)
  | delete

/-- `add element` leaves an element alone that is there. -/
def Verb.apply (now : ℤ) (verb : Verb) (set : AllowDns) (element : Addr × Addr) : AllowDns :=
  match verb with
  | .add timeout =>
    if set.has element now then set else Function.update set element (some (now + timeout))
  | .delete => Function.update set element none

structure Line where
  verb : Verb
  elements : List (Addr × Addr)

/-- The elements of a line, one after the other. -/
def Line.apply (now : ℤ) (set : AllowDns) (line : Line) : AllowDns :=
  line.elements.foldl (line.verb.apply now) set

/-- A nanosecond is the unit of a `time.Duration`. -/
def second : ℕ := 1000000000

/-- The batch that admits addresses: adding them, deleting them and adding them again renews
the timeout of those that were there. -/
def resolvedBatch (guest : Addr) (addresses : List Addr) (ttl : ℕ) : List Line :=
  if addresses = [] then []
  else
    let seconds := if ttl / second < 1 then 1 else ttl / second
    let elements := addresses.map fun address => (guest, address)
    [⟨.add seconds, elements⟩, ⟨.delete, elements⟩, ⟨.add seconds, elements⟩]

/-! ## Answers -/

/-- A record of an answer: of type A, with an address unless it is malformed, or of another type. -/
inductive RData
  | a (address : Option Addr)
  | other
deriving DecidableEq, Repr

structure Record where
  ttl : ℕ
  data : RData
deriving DecidableEq, Repr

/-- The address a record admits, if it has one. -/
def Record.address (record : Record) : Option Addr :=
  match record.data with
  | .a address => address
  | .other => none

/-- The time to live that is sent to the guest, and how long an address stays admitted. -/
def admitTimeout (ttl : ℕ) : ℕ × ℕ :=
  let answerTTL := if 3600 < ttl then 3600 else ttl
  let admitted := if answerTTL < 60 then 60 else answerTTL
  (answerTTL, admitted * second + 30 * second)

inductive Rcode
  | success
  | formatError
  | serverFailure
  | nameError
  | refused

/-- A response, without its authority and additional sections.  They are passed on to the guest
unread: an address that only they have is never admitted. -/
structure Response where
  rcode : Rcode
  answer : List Record

/-- An answer without records. -/
def failure (rcode : Rcode) : Response := ⟨rcode, []⟩

inductive EgressVerdict
  | allowed
  | blocked
  | unlisted
deriving DecidableEq, Repr

/-- A registered guest. -/
structure Guest where
  observed : Bool
  restricted : Bool
  domains : List String
  cidrs : List String
  /-- The matcher of its allowed names. -/
  allows : String → Bool
  closed : Bool

/-- A restricted guest resolves only the names it is allowed; another one, every name. -/
def Guest.verdict (guest : Guest) (name : String) : EgressVerdict :=
  if guest.restricted then if guest.allows name then .allowed else .blocked
  else if guest.domains.length = 0 ∧ guest.cidrs.length = 0 then .allowed
  else if guest.allows name then .allowed
  else .unlisted

/-- The registered guests and the set of admitted addresses. -/
structure State where
  guests : Addr → Option Guest
  allowDns : AllowDns

/-- What becomes of a batch: it commits, it commits and the resolver is not told, or it does not. -/
inductive Commit
  | acknowledged
  | unheard
  | refused
deriving DecidableEq

/-- A query, with what the upstreams answer and what becomes of the batch that it writes. -/
structure Query where
  now : ℤ
  source : Addr
  questions : List String
  upstream : Option Response
  commit : Commit

/-- The upstream's answer, unless the query is refused. -/
def accept (normalizeDomain : String → String) (guest : Guest) (q : Query) : Except Rcode Response :=
  if guest.observed = false then throw .refused
  else match q.questions with
  | [question] =>
    if guest.verdict (normalizeDomain question) = .blocked then throw .nameError
    else match q.upstream with
    | none => throw .serverFailure
    | some upstream =>
      if guest.closed then throw .serverFailure else pure upstream
  | _ => throw .formatError

/-- The records as they are sent. -/
def Response.records (upstream : Response) : List Record :=
  upstream.answer.map fun record => { record with ttl := (admitTimeout record.ttl).1 }

/-- The longest time to live that is sent. -/
def Response.longest (upstream : Response) : ℕ := (upstream.records.map Record.ttl).max?.getD 0

/-- The addresses of an answer. -/
def Response.admitted (upstream : Response) : List Addr := upstream.records.filterMap Record.address

/-- The batch that an answer writes for a guest. -/
def Response.batch (upstream : Response) (guest : Addr) : List Line :=
  resolvedBatch guest upstream.admitted (admitTimeout upstream.longest).2

section Answer

variable (normalizeDomain : String → String) (s : State) (q : Query)

/-- The locked part of an answer: the addresses are admitted before they are sent. -/
def respond (guest : Guest) (upstream : Response) : Response × State :=
  if guest.restricted = true ∧ upstream.admitted ≠ [] then
    let written := { s with
      allowDns := (upstream.batch q.source).foldl (Line.apply q.now) s.allowDns }
    match q.commit with
    | .acknowledged => (⟨upstream.rcode, upstream.records⟩, written)
    | .unheard => (failure .serverFailure, written)
    | .refused => (failure .serverFailure, s)
  else (⟨upstream.rcode, upstream.records⟩, s)

/-- The answer to a query, and the set after it. -/
def answer : Response × State :=
  match s.guests q.source with
  | none => (failure .refused, s)
  | some guest =>
    match accept normalizeDomain guest q with
    | .error rcode => (failure rcode, s)
    | .ok upstream => respond s q guest upstream

def answerStep : State := (answer normalizeDomain s q).2

/-- The time until which an answer admits an address for a guest, if it does. -/
def admits (element : Addr × Addr) : Option ℤ := do
  let guest ← s.guests q.source
  let upstream ← (accept normalizeDomain guest q).toOption
  if guest.restricted = true ∧ q.commit ≠ .refused ∧ element.1 = q.source ∧
      element.2 ∈ upstream.admitted then
    some (q.now + (admitTimeout upstream.longest).2 / second)
  else none

/-- A restricted guest is sent an address with a time to live. -/
def Sends (address : Addr) (ttl : ℕ) : Prop :=
  (∃ guest, s.guests q.source = some guest ∧ guest.restricted = true) ∧
    ∃ record ∈ (answer normalizeDomain s q).1.answer, record.address = some address ∧ record.ttl = ttl

end Answer

/-! ## What a batch does -/

variable {normalizeDomain : String → String} {s : State} {q : Query} {now timeout : ℤ} {set : AllowDns}
  {element : Addr × Addr} {elements : List (Addr × Addr)} {verb : Verb} {t : ℤ}

lemma apply_ne {other : Addr × Addr} (h : element ≠ other) :
    verb.apply now set other element = set element := by
  cases verb with
  | add timeout =>
    simp only [Verb.apply]
    split_ifs
    · rfl
    · rw [update_of_ne h]
  | delete => rw [Verb.apply, update_of_ne h]

lemma line_notMem (h : element ∉ elements) : Line.apply now set ⟨verb, elements⟩ element = set element := by
  induction elements generalizing set with
  | nil => rfl
  | cons other elements ih =>
    rw [mem_cons, not_or] at h
    exact (ih h.2).trans (apply_ne h.1)

lemma line_delete (h : element ∈ elements ∨ set element = none) :
    Line.apply now set ⟨.delete, elements⟩ element = none := by
  induction elements generalizing set with
  | nil => simpa [Line.apply] using h
  | cons other elements ih =>
    refine ih ?_
    by_cases hother : element = other
    · subst hother
      exact .inr (update_self ..)
    · rw [apply_ne hother]
      simpa [hother] using h

/-- An element that is not there gets the new timeout, and keeps it if it is named again. -/
lemma line_add (h : element ∈ elements ∧ set element = none ∨ set element = some (now + timeout)) :
    Line.apply now set ⟨.add timeout, elements⟩ element = some (now + timeout) := by
  induction elements generalizing set with
  | nil => simpa [Line.apply] using h
  | cons other elements ih =>
    refine ih ?_
    by_cases hother : element = other
    · subst hother
      refine .inr ?_
      simp only [Verb.apply]
      split_ifs with hhas
      · rcases h with ⟨-, hnone⟩ | hsome
        · simp [AllowDns.has, hnone] at hhas
        · exact hsome
      · rw [update_self]
    · rw [apply_ne hother]
      simpa [hother] using h

/-- The batch of an answer gives each of its addresses the timeout of the answer. -/
lemma foldl_batch (upstream : Response) : (upstream.batch q.source).foldl (Line.apply q.now) set element
      = if element.1 = q.source ∧ element.2 ∈ upstream.admitted then
          some (q.now + (admitTimeout upstream.longest).2 / second)
        else set element := by
  have hseconds : ¬ (admitTimeout upstream.longest).2 / second < 1 := by
    simp only [admitTimeout, second]
    split_ifs <;> omega
  simp only [Response.batch, resolvedBatch]
  split_ifs with hnone hmem hmem
  · simp [hnone] at hmem
  · rfl
  · refine line_add (.inl ⟨?_, line_delete (.inl ?_)⟩) <;>
      exact mem_map.mpr ⟨element.2, hmem.2, Prod.ext hmem.1.symm rfl⟩
  have hout : element ∉ upstream.admitted.map fun address => (q.source, address) := by
    intro hin
    rcases mem_map.mp hin with ⟨address, haddress, rfl⟩
    exact hmem ⟨rfl, haddress⟩
  simp [line_notMem hout]

/-- What an answer does to the set. -/
lemma allowDns_answerStep : (answerStep normalizeDomain s q).allowDns element
      = (admits normalizeDomain s q element).or (s.allowDns element) := by
  simp only [answerStep, answer, admits]
  rcases hguest : s.guests q.source with _ | guest
  · rfl
  rcases haccept : accept normalizeDomain guest q with rcode | upstream
  · simp [haccept, Except.toOption]
  simp only [haccept, Except.toOption, bind_eq_bind, bind_some, respond]
  by_cases hrestricted : guest.restricted = true ∧ upstream.admitted ≠ []
  · rw [if_pos hrestricted]
    cases q.commit <;> simp only [foldl_batch, hrestricted.1, ne_eq, reduceCtorEq,
      not_false_eq_true, true_and, not_true_eq_false, false_and, if_false, none_or]
    all_goals split_ifs <;> rfl
  · rw [if_neg hrestricted, if_neg]
    · rfl
    · rintro ⟨hguest, -, -, hmem⟩
      exact hrestricted ⟨hguest, ne_nil_of_mem hmem⟩

/-! ## Runs -/

/-- The last answer that named the address admitted it until `t`. -/
def AdmittedUntil (normalizeDomain : String → String) (s : State) (element : Addr × Addr) (t : ℤ)
    (queries : List Query) : Prop :=
  Since (answerStep normalizeDomain) s (fun s q => admits normalizeDomain s q element = some t)
    (fun s q => admits normalizeDomain s q element = none) queries

lemma AdmittedUntil.allowDns {queries : List Query}
    (h : AdmittedUntil normalizeDomain s element t queries) :
    (run (answerStep normalizeDomain) s queries).allowDns element = some t := by
  induction queries using reverseRecOn with
  | nil =>
    rcases h with ⟨before, q, after, hsplit, -⟩
    simp at hsplit
  | append_singleton queries q ih =>
    rw [run_snoc, allowDns_answerStep]
    rcases since_snoc.mp h with hlast | ⟨hearlier, hnone⟩
    · rw [hlast, some_or]
    · rw [hnone, none_or, ih hearlier]

lemma allowDns_run (queries : List Query) :
    (run (answerStep normalizeDomain) s queries).allowDns element = s.allowDns element ∨
      ∃ t, AdmittedUntil normalizeDomain s element t queries := by
  induction queries using reverseRecOn with
  | nil => exact .inl rfl
  | append_singleton queries q ih =>
    rw [run_snoc, allowDns_answerStep]
    cases hadmits : admits normalizeDomain (run (answerStep normalizeDomain) s queries) q element with
    | some t => exact .inr ⟨t, since_snoc.mpr (.inl hadmits)⟩
    | none =>
      exact ih.imp_right fun ⟨t, h⟩ => ⟨t, since_snoc.mpr (.inr ⟨h, hadmits⟩)⟩

/-- An address that is sent is admitted for longer than its time to live. -/
lemma Sends.admits {address : Addr} {ttl : ℕ} (h : Sends normalizeDomain s q address ttl) :
    ∃ t, admits normalizeDomain s q (q.source, address) = some t ∧ q.now + ttl < t := by
  rcases h with ⟨⟨guest, hguest, hrestricted⟩, record, hrecord, haddress, rfl⟩
  simp only [answer, hguest] at hrecord
  simp only [Resolver.admits, hguest, bind_eq_bind, bind_some]
  rcases haccept : accept normalizeDomain guest q with rcode | upstream
  · simp [haccept, failure] at hrecord
  simp only [haccept, respond, hrestricted, true_and] at hrecord
  have hsent : record ∈ upstream.records ∧ q.commit ≠ .refused := by
    split_ifs at hrecord with hadmitted
    · cases hcommit : q.commit <;> simp_all [failure]
    · rw [not_not, Response.admitted, filterMap_eq_nil_iff] at hadmitted
      rw [hadmitted record hrecord] at haddress
      cases haddress
  have hmem : address ∈ upstream.admitted := mem_filterMap.mpr ⟨record, hsent.1, haddress⟩
  refine ⟨_, if_pos ⟨hrestricted, hsent.2, trivial, hmem⟩, ?_⟩
  have hlongest : record.ttl ≤ upstream.longest := le_max?_getD_of_mem (mem_map_of_mem hsent.1)
  have hcap : record.ttl ≤ 3600 := by
    rcases mem_map.mp hsent.1 with ⟨original, -, rfl⟩
    simp only [admitTimeout]
    split_ifs <;> omega
  simp only [admitTimeout, second]
  split_ifs <;> omega

/-- **How long an address stays reachable** is settled by the last answer that named it.  Whatever a
restricted guest was sent with a time to live is admitted until that has passed, unless a later answer
names the address as well: then it is admitted until the timeout of the last such answer, which replaces
what was left of the earlier one. -/
theorem resolved_address_admitted (normalizeDomain : String → String) (start : State)
    (before after : List Query) (q : Query) (address : Addr) (ttl : ℕ) (now : ℤ)
    (hsent : Sends normalizeDomain (run (answerStep normalizeDomain) start before) q address ttl)
    (hnow : now ≤ q.now + ttl) :
    (run (answerStep normalizeDomain) start (before ++ q :: after)).allowDns.has (q.source, address) now
        = true ↔
      ∀ t, AdmittedUntil normalizeDomain (run (answerStep normalizeDomain) start (before ++ [q]))
        (q.source, address) t after → now < t := by
  rcases hsent.admits with ⟨t₀, hadmits, hlong⟩
  have hfirst : (run (answerStep normalizeDomain) start (before ++ [q])).allowDns (q.source, address)
      = some t₀ := by
    rw [run_snoc, allowDns_answerStep, hadmits, some_or]
  have hsplit : before ++ q :: after = before ++ [q] ++ after := by simp
  rw [hsplit, run_append, AllowDns.has]
  constructor
  · intro hhas t huntil
    rw [huntil.allowDns] at hhas
    simpa using hhas
  intro hlater
  rcases allowDns_run after with hsame | ⟨t, huntil⟩
  · rw [hsame, hfirst]
    simpa using hnow.trans_lt hlong
  · rw [huntil.allowDns]
    simpa using hlater t huntil

/-! ## Two names with one address -/

/-- A restricted guest that may resolve every name. -/
def anyName : Guest := ⟨true, true, [], [], fun _ => true, false⟩

def oneGuest : State := ⟨fun address => if address = 1 then some anyName else none, fun _ => none⟩

/-- An answer with the address 7. -/
def answers (now : ℤ) (name : String) (ttl : ℕ) : Query :=
  ⟨now, 1, [name], some ⟨.success, [⟨ttl, .a (some 7)⟩]⟩, .acknowledged⟩

theorem resolved_address_admitted_of_two_names :
    Sends id oneGuest (answers 0 "a" 3600) 7 3600 ∧
      (run (answerStep id) oneGuest [answers 0 "a" 3600, answers 10 "b" 0]).allowDns.has (1, 7) 99 = true := by
  have hsent : Sends id oneGuest (answers 0 "a" 3600) 7 3600 :=
    ⟨⟨anyName, rfl, rfl⟩, ⟨3600, .a (some 7)⟩, by decide, rfl, rfl⟩
  refine ⟨hsent, (resolved_address_admitted id oneGuest [] [answers 10 "b" 0] (answers 0 "a" 3600) 7 3600 99
    hsent (by decide)).mpr fun t huntil => ?_⟩
  cases (show some 100 = some t from huntil.allowDns)
  decide

/-- The guest was sent the address for an hour, and ten seconds later under another name for no time at
all.  After a minute and a half it can no longer reach it. -/
theorem shared_address_expires :
    Sends id oneGuest (answers 0 "a" 3600) 7 3600 ∧
      (run (answerStep id) oneGuest [answers 0 "a" 3600, answers 10 "b" 0]).allowDns.has (1, 7) 100 = false :=
  ⟨⟨⟨anyName, rfl, rfl⟩, ⟨3600, .a (some 7)⟩, by decide, rfl, rfl⟩, by decide⟩

end EraInfra.Resolver
