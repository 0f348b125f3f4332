import EraInfra.Core.Encoding
import EraInfra.Core.Run
import EraInfra.Core.Transaction

/-!
# Replayed admin requests

`internal/adminapi/adminapi.go` of the cache service: what an admin request is signed over, and the
memory of nonces that `Verify` keeps.

A request may be presented as long as its timestamp is within `maxSkew` of the wall clock, on either
side, so for `2 * maxSkew` in all, and a nonce is forgotten only after more than that.  But the two are
not measured alike: `now.Sub(at)` of two readings of `time.Now` is the difference of their monotonic
readings.  Where the monotonic clock runs ahead of the wall clock, as it does while the wall clock is
slowed or set back, a nonce is forgotten before the request that carried it has lapsed.

Nothing below rests on the MAC: a request is refused the second time because its nonce is known,
whatever else could have been signed with it.
-/

namespace EraInfra.AdminApi

open DocStore Encoding List

def maxSkew : ℤ := 5 * 60 * 10 ^ 9
def maxRemembered : ℕ := 100000

def errUnsigned : String := "the request is not signed"
def errStale : String := "the request timestamp is outside the replay window"
def errForged : String := "the request signature does not match"
def errReplayed : String := "the request nonce has already been used"
def errMalformed : String := "the request signature headers are malformed"

/-- What a request is signed over. -/
structure SignedParts where
  method : Bytes
  path : Bytes
  query : List (Bytes × List Bytes)
  timestamp : Bytes
  nonce : Bytes
  body : Bytes

structure Request extends SignedParts where
  signature : Bytes

/-- The functions of Go that sign: `sha256.Sum256`, `strings.ToUpper`, `Values.Encode` and the MAC under
a key, which has 32 bytes. -/
structure Signing where
  sha256 : Bytes → Bytes
  toUpper : Bytes → Bytes
  encodeQuery : List (Bytes × List Bytes) → Bytes
  hmac : Bytes → Bytes → Bytes
  length_hmac : ∀ key message, (hmac key message).length = 32

variable (go : Signing)

/-- The bytes a request is signed over. -/
def canonical (r : SignedParts) : Bytes :=
  [10].intercalate [ascii "erainfra-cache-admin-v1", go.toUpper r.method, r.path,
    go.encodeQuery r.query, r.timestamp, r.nonce, hex (go.sha256 r.body)]

def signature (key message : Bytes) : Bytes := hex (go.hmac key message)

/-- `Sign`, with the timestamp and the nonce it takes. -/
def sign (key : Bytes) (r : SignedParts) : Request := ⟨r, signature go key (canonical go r)⟩

/-- A `time.Time`: nanoseconds of the wall clock from the year 1 and, where `time.Now` read it, of the
monotonic clock. -/
structure Reading where
  wall : ℤ
  monotonic : Option ℤ
deriving DecidableEq

/-- `t.Sub(u)`: by the monotonic clock if both have read it.  A duration has 64 bits and is cut off. -/
def Reading.sub (t u : Reading) : ℤ :=
  max (-2 ^ 63) (min (2 ^ 63 - 1) (match t.monotonic, u.monotonic with
    | some t, some u => t - u
    | _, _ => t.wall - u.wall))

/-- `time.Unix(seconds, 0)`, in nanoseconds from the year 1: the seconds from there wrap. -/
def unix (seconds : ℤ) : ℤ := int64 (seconds + 62135596800) * 10 ^ 9

/-- Outside the window of `Verify`.  `time.Unix` reads no monotonic clock, so this is wall time. -/
def isOutside (signedAt : ℤ) (now : Reading) : Bool :=
  signedAt < now.wall - maxSkew || signedAt > now.wall + maxSkew

/-- A verifier, with the nonces it remembers and when it saw each. -/
structure Verifier where
  key : Bytes
  seen : List (Bytes × Reading)

/-- The part of `Verify` under the lock.  What is forgotten is forgotten even if the answer is no. -/
def Verifier.remember (v : Verifier) (now : Reading) (nonce : Bytes) : Except String Unit × Verifier :=
  let kept := v.seen.filter fun entry => !decide (now.sub entry.2 > 2 * maxSkew)
  if kept.any fun entry => entry.1 = nonce then (.error errReplayed, { v with seen := kept })
  else if kept.length ≥ maxRemembered then (.error errReplayed, { v with seen := kept })
  else (.ok (), { v with seen := (nonce, now) :: kept })

/-- What `Verify` checks before it takes the lock. -/
def check (v : Verifier) (now : Reading) (r : Request) : Except String Unit := do
  refuseIf (r.timestamp = [] ∧ r.nonce = [] ∧ r.signature = []) errUnsigned
  refuseIf (r.timestamp = [] ∨ r.signature = [] ∨ r.nonce.length < 16 ∨ r.nonce.length > 128)
    errMalformed
  match parseInt (text r.timestamp).toList with
  | none => .error errMalformed
  | some seconds =>
      refuseIf (isOutside (unix seconds) now) errStale
      refuseIf (r.signature ≠ signature go v.key (canonical go r.toSignedParts)) errForged

/-- One call of `Verify`: its answer, and the verifier after it. -/
def verify (v : Verifier) (now : Reading) (r : Request) : Except String Unit × Verifier :=
  match check go v now r with
  | .error error => (.error error, v)
  | .ok () => v.remember now r.nonce

/-- A request, with the clock reading its `Verify` makes. -/
structure Call where
  now : Reading
  request : Request

/-- The readings of the calls of one verifier, by a wall clock that does not go back. -/
structure Clock where
  readings : List Reading
  ordered : readings.Pairwise fun t u => t.wall ≤ u.wall

def stepVerify (v : Verifier) (c : Call) : Verifier := (verify go v c.now c.request).2

/-- The calls of a run that are accepted. -/
def accepted (v : Verifier) (calls : List Call) : List Call :=
  trace (stepVerify go) (fun v c => if (verify go v c.now c.request).1.isOk then [c] else []) v calls

/-- A request with the timestamp may be presented at the reading. -/
def IsTimely (timestamp : Bytes) (now : Reading) : Prop :=
  ∃ seconds, parseInt (text timestamp).toList = some seconds ∧ isOutside (unix seconds) now = false

/-- The second call does not repeat the first: it carries another nonce while any one signed request
may be presented, and another request at all times. -/
def Fresh (c d : Call) : Prop :=
  (c.request.nonce = d.request.nonce → ∀ timestamp,
    ¬ (IsTimely timestamp c.now ∧ IsTimely timestamp d.now)) ∧
  c.request.toSignedParts ≠ d.request.toSignedParts

/-- As long as a request of the first reading may be presented, its nonce is not forgotten. -/
def Lasts (t u : Reading) : Prop :=
  ∀ timestamp, IsTimely timestamp t → IsTimely timestamp u → u.sub t ≤ 2 * maxSkew

variable {go} {v : Verifier} {c d : Call} {calls chosen : List Call} {t u w : Reading}
  {timestamp : Bytes}

/-! ## What is accepted -/

/-- **What a call does.**  An accepted one is timely, has a nonce that is not remembered, and leaves
it remembered.  No call forgets a nonce that was seen up to `2 * maxSkew` ago. -/
lemma stepVerify_spec (go : Signing) (v : Verifier) (c : Call) :
    ((verify go v c.now c.request).1.isOk = true → IsTimely c.request.timestamp c.now ∧
      (c.request.nonce, c.now) ∈ (stepVerify go v c).seen ∧
      ∀ t, (c.request.nonce, t) ∈ v.seen → 2 * maxSkew < c.now.sub t) ∧
    ∀ entry ∈ v.seen, c.now.sub entry.2 ≤ 2 * maxSkew → entry ∈ (stepVerify go v c).seen := by
  have hkept : ∀ entry ∈ v.seen, c.now.sub entry.2 ≤ 2 * maxSkew →
      entry ∈ v.seen.filter fun entry => !decide (c.now.sub entry.2 > 2 * maxSkew) :=
    fun entry hentry hle => mem_filter.mpr ⟨hentry, by simpa using hle⟩
  simp only [stepVerify, verify]
  rcases hcheck : check go v c.now c.request with error | _
  · exact ⟨nofun, fun _ hentry _ => hentry⟩
  simp only [Verifier.remember]
  split_ifs with hused
  · exact ⟨nofun, hkept⟩
  · exact ⟨nofun, hkept⟩
  refine ⟨fun _ => ⟨?_, mem_cons_self, fun t ht => ?_⟩,
    fun entry hentry hle => mem_cons_of_mem _ (hkept entry hentry hle)⟩
  · simp only [check, refuseIf_bind_ok] at hcheck
    rcases hcheck with ⟨-, -, hcheck⟩
    split at hcheck
    · cases hcheck
    · rename_i seconds hseconds
      rw [refuseIf_bind_ok] at hcheck
      exact ⟨seconds, hseconds, by simpa using hcheck.1⟩
  · by_contra hle
    exact hused (any_eq_true.mpr ⟨_, hkept _ ht (by simpa using hle), by simp⟩)

lemma accepted_cons (v : Verifier) (c : Call) (calls : List Call) : accepted go v (c :: calls)
      = (if (verify go v c.now c.request).1.isOk then [c] else []) ++
        accepted go (stepVerify go v c) calls := rfl

/-- A call that is accepted is timely, and if its nonce was remembered at the start then a call up to
it came late enough to forget it. -/
lemma mem_accepted (hordered : calls.Pairwise fun c d => c.now.wall ≤ d.now.wall)
    (h : d ∈ accepted go v calls) : d ∈ calls ∧ IsTimely d.request.timestamp d.now ∧
      ∀ t, (d.request.nonce, t) ∈ v.seen →
        ∃ e ∈ calls, e.now.wall ≤ d.now.wall ∧ 2 * maxSkew < e.now.sub t := by
  induction calls generalizing v with
  | nil => cases h
  | cons c calls ih =>
    rcases pairwise_cons.mp hordered with ⟨hfirst, hrest⟩
    rcases stepVerify_spec go v c with ⟨hok, hkeeps⟩
    rw [accepted_cons, mem_append] at h
    rcases h with h | h
    · split_ifs at h with haccepted
      · rw [mem_singleton.mp h]
        exact ⟨mem_cons_self, (hok haccepted).1,
          fun t ht => ⟨c, mem_cons_self, le_rfl, (hok haccepted).2.2 t ht⟩⟩
      · cases h
    rcases ih hrest h with ⟨hmem, htimely, hlater⟩
    refine ⟨mem_cons_of_mem c hmem, htimely, fun t ht => ?_⟩
    by_cases hold : c.now.sub t ≤ 2 * maxSkew
    · rcases hlater t (hkeeps _ ht hold) with ⟨e, he, hle, hsub⟩
      exact ⟨e, mem_cons_of_mem c he, hle, hsub⟩
    · exact ⟨c, mem_cons_self, hfirst d hmem, by omega⟩

/-- What may be presented at two readings may be presented at every one between them. -/
lemma IsTimely.between (ht : IsTimely timestamp t) (hw : IsTimely timestamp w)
    (htu : t.wall ≤ u.wall) (huw : u.wall ≤ w.wall) : IsTimely timestamp u := by
  rcases ht with ⟨seconds, hseconds, ht⟩
  rcases hw with ⟨seconds', hseconds', hw⟩
  cases hseconds.symm.trans hseconds'
  refine ⟨seconds, hseconds, ?_⟩
  simp only [isOutside, Bool.or_eq_false_iff, decide_eq_false_iff_not] at ht hw ⊢
  omega

lemma accepted_fresh (hordered : calls.Pairwise fun c d => c.now.wall ≤ d.now.wall)
    (hlasts : calls.Pairwise fun c d => Lasts c.now d.now) :
    (accepted go v calls).Pairwise fun c d => c.request.nonce = d.request.nonce → ∀ timestamp,
      ¬ (IsTimely timestamp c.now ∧ IsTimely timestamp d.now) := by
  induction calls generalizing v with
  | nil => exact Pairwise.nil
  | cons c calls ih =>
    rcases pairwise_cons.mp hordered with ⟨hfirst, hrest⟩
    rcases pairwise_cons.mp hlasts with ⟨hlast, hlasts⟩
    rw [accepted_cons]
    split_ifs with hok
    · refine pairwise_cons.mpr ⟨?_, ih hrest hlasts⟩
      rintro d hd hnonce timestamp ⟨hc, hd'⟩
      -- the call that forgot the nonce lies between the two, where the request is timely too
      rcases (mem_accepted hrest hd).2.2 c.now (hnonce ▸ ((stepVerify_spec go v c).1 hok).2.1)
        with ⟨e, he, hle, hsub⟩
      have hsub' := hlast e he timestamp hc (hc.between hd' (hfirst e he) hle)
      omega
    · exact ih hrest hlasts

/-! ## What is accepted twice -/

/-- A signed request is refused only for its time. -/
lemma check_sign (key : Bytes) (seen : List (Bytes × Reading)) {r : SignedParts}
    (hnonce : r.nonce.length = 16) (h : IsTimely r.timestamp t) :
    check go ⟨key, seen⟩ t (sign go key r) = .ok () := by
  rcases h with ⟨seconds, hseconds, htimely⟩
  have htimestamp : r.timestamp ≠ [] := by
    rintro hempty
    rw [hempty] at hseconds
    cases hseconds
  have hsignature : signature go key (canonical go r) ≠ [] := by
    refine hex_ne_nil (ne_nil_of_length_pos ?_)
    rw [go.length_hmac]
    norm_num
  simp [check, sign, refuseIf_bind_ok, refuseIf_ok, htimestamp, hsignature, hnonce, hseconds, htimely]

/-- Calls that are refused can stand at the readings between those of the others. -/
lemma exists_calls (go : Signing) (chosen : List Call) {readings : List Reading}
    (h : chosen.map Call.now <+ readings) :
    ∃ calls, calls.map Call.now = readings ∧ ∀ v, accepted go v calls = accepted go v chosen := by
  generalize hchosen : chosen.map Call.now = l at h
  induction h generalizing chosen with
  | slnil => exact ⟨chosen, hchosen, fun v => rfl⟩
  | cons now _ ih =>
    rcases ih chosen hchosen with ⟨calls, hnow, hcalls⟩
    exact ⟨⟨now, ⟨⟨[], [], [], [], [], []⟩, []⟩⟩ :: calls, congrArg (now :: ·) hnow,
      fun v => hcalls v⟩
  | cons_cons now _ ih =>
    rcases map_eq_cons_iff.mp hchosen with ⟨c, rest, rfl, rfl, hrest⟩
    rcases ih rest hrest with ⟨calls, hnow, hcalls⟩
    refine ⟨c :: calls, congrArg (c.now :: ·) hnow, fun v => ?_⟩
    rw [accepted_cons, accepted_cons, hcalls]

/-- A request is accepted again once its nonce is forgotten. -/
lemma accepted_twice (go : Signing) (key : Bytes) (r : SignedParts) (hnonce : r.nonce.length = 16)
    (ht : IsTimely r.timestamp t) (hu : IsTimely r.timestamp u) (hlate : 2 * maxSkew < u.sub t) :
    accepted go ⟨key, []⟩ [⟨t, sign go key r⟩, ⟨u, sign go key r⟩]
      = [⟨t, sign go key r⟩, ⟨u, sign go key r⟩] := by
  have hfirst : verify go ⟨key, []⟩ t (sign go key r) = (.ok (), ⟨key, [(r.nonce, t)]⟩) := by
    rw [verify, check_sign key [] hnonce ht]
    simp [Verifier.remember, maxRemembered, sign]
  have hsecond : verify go ⟨key, [(r.nonce, t)]⟩ u (sign go key r) = (.ok (), ⟨key, [(r.nonce, u)]⟩) := by
    rw [verify, check_sign key _ hnonce hu]
    simp [Verifier.remember, maxRemembered, sign, hlate]
  simp [accepted, trace, stepVerify, hfirst, hsecond, Except.isOk, Except.toBool]

/-- **An admin request is accepted at most once**, at the readings of a clock, exactly if no nonce is
forgotten while the request that carried it may still be presented: this is over every memory at the
start and every request.  It is so where the monotonic clock does not run ahead of the wall clock. -/
theorem admin_requests_accepted_once_iff (go : Signing) (clock : Clock) :
    ((∀ v calls, calls.map Call.now = clock.readings → (accepted go v calls).Pairwise Fresh) ↔
      clock.readings.Pairwise Lasts) ∧
    (clock.readings.Pairwise (fun t u => u.sub t ≤ u.wall - t.wall) →
      clock.readings.Pairwise Lasts) := by
  refine ⟨⟨fun h => ?_, fun hlasts v calls hcalls => ?_⟩, fun h => h.imp fun {t u} hsub => ?_⟩
  · rw [pairwise_iff_forall_sublist]
    intro t u hpair timestamp ht hu
    by_contra hlate
    -- the request of the timestamp, signed under some key, is presented at both readings
    let r : SignedParts := ⟨[], [], [], timestamp, replicate 16 0, []⟩
    have htwice := accepted_twice go [] r length_replicate ht hu (not_le.mp hlate)
    rcases exists_calls go [⟨t, sign go [] r⟩, ⟨u, sign go [] r⟩] hpair with ⟨calls, hnow, hcalls⟩
    have hfresh := h ⟨[], []⟩ calls hnow
    rw [hcalls, htwice] at hfresh
    exact (rel_of_pairwise_cons hfresh mem_cons_self).2 rfl
  · have hordered := clock.ordered
    rw [← hcalls, pairwise_map] at hordered hlasts
    refine (accepted_fresh hordered hlasts).imp_of_mem fun {c d} hc hd hfresh => ⟨hfresh, ?_⟩
    intro hsame
    have htimely := (mem_accepted hordered hd).2.1
    rw [← congrArg SignedParts.timestamp hsame] at htimely
    exact hfresh (congrArg SignedParts.nonce hsame) _ ⟨(mem_accepted hordered hc).2.1, htimely⟩
  · rintro timestamp ⟨seconds, hseconds, ht⟩ ⟨seconds', hseconds', hu⟩
    cases hseconds.symm.trans hseconds'
    simp only [isOutside, Bool.or_eq_false_iff, decide_eq_false_iff_not] at ht hu
    omega

/-- Signatures of zeros, and a digest that is the text itself. -/
def zeroSigning : Signing where
  sha256 s := s
  toUpper s := s
  encodeQuery _ := []
  hmac _ _ := replicate 32 0
  length_hmac _ _ := length_replicate

def deletion : SignedParts :=
  ⟨ascii "DELETE", ascii "/_erainfra-cache-admin/entries", [], ascii "300", ascii "0123456789abcdef", []⟩

/-- A request signed for minute five is accepted at minute zero, and once more half a second before
minute ten: by then the wall clock has been slowed by a second, and the monotonic clock has passed
minute ten. -/
theorem admin_request_replayed :
    accepted zeroSigning ⟨replicate 32 7, []⟩
        [⟨⟨unix 0, some 0⟩, sign zeroSigning (replicate 32 7) deletion⟩,
          ⟨⟨unix 0 + 599500000000, some 600500000000⟩, sign zeroSigning (replicate 32 7) deletion⟩]
      = [⟨⟨unix 0, some 0⟩, sign zeroSigning (replicate 32 7) deletion⟩,
          ⟨⟨unix 0 + 599500000000, some 600500000000⟩,
            sign zeroSigning (replicate 32 7) deletion⟩] :=
  accepted_twice _ _ _ (by decide) ⟨300, by decide +kernel, by decide⟩
    ⟨300, by decide +kernel, by decide⟩ (by decide)

end EraInfra.AdminApi
