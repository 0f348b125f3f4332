import EraInfra.Protocol.AttemptLifecycle

/-!
# A JIT config is used once

The JIT config is the credential a Runner registers with, so it must reach one executor only.
`claimAttempt` hands it out, and `handedOut` is what an observer of the calls sees it return.

`jit_config_single_use` rests on two facts about one step.  An Attempt that has left `pending` never
comes back to it, not even as another row under the same identifier (`Spent`), and a claim leaves
its Attempt there.  And a secret is stored for an active Attempt only (`SecretsOk`): each rule that
ends an Attempt drops it.
-/

namespace EraInfra

open DocStore List Option AttemptState

variable {js : Engine} {c : Call} {db : Db} {i : DocId Attempt} {a : Attempt}
  {f : Attempt → Attempt} {released dropped : Bool} {calls : List Call} {v v' : AttemptView}

/-! ## What is handed out -/

/-- A JIT config that left the database: for which Attempt, to which Worker. -/
structure Handout where
  attemptId : DocId Attempt
  machineId : DocId Machine
  jitConfig : String

/-- What a call hands out: the JIT config a successful `claimAttempt` returns, to the Worker that
called it. -/
def handedOut (db : Db) (c : Call) : List Handout :=
  match c.op with
  | .claimAttempt token attemptId =>
    match machineForToken token db, claimAttempt c.now token attemptId db with
    | .ok (machineId, _), .ok (some claimed, _) => [⟨attemptId, machineId, claimed.jitConfig⟩]
    | _, _ => []
  | _ => []

/-- The handouts of a run, in order. -/
def handouts (js : Engine) (calls : List Call) : List Handout := trace (step js) handedOut .empty calls

/-- **One handout.**  It is the only one of its call; its Attempt is pending on the Worker that gets
it, and is being prepared afterwards. -/
lemma mem_handedOut (js : Engine) {x : Handout} (h : x ∈ handedOut db c) : handedOut db c = [x] ∧
      ∃ a, db.attempts.get x.attemptId = some a ∧ a.state = .pending ∧ a.machineId = some x.machineId ∧
        (x.jitConfig ∈ secretsOf x.attemptId db.attemptSecrets ∨ a.jitConfig = some x.jitConfig) ∧
        (step js db c).attempts.get x.attemptId = some (claimedAttempt c.now a) := by
  obtain ⟨now, op⟩ := c
  unfold handedOut at h ⊢
  cases op with
  | claimAttempt token attemptId =>
    dsimp only at h ⊢
    split at h
    · rename_i machineId machine claimed db' hmachine hclaim
      obtain rfl := mem_singleton.mp h
      rcases claimAttempt_cases hclaim with ⟨hnone, -⟩ |
        ⟨a, claimed', hsome, ⟨m, machine', hm, hplaced⟩, hpending, hjit, hedits⟩
      · simp at hnone
      cases hsome
      cases hmachine.symm.trans hm
      have hstep : step js db ⟨now, .claimAttempt token attemptId⟩ = db' := by
        show commit db ((claimAttempt now token attemptId db).map Prod.snd) = _
        rw [hclaim]
        rfl
      refine ⟨rfl, a, hedits.found, hpending, hplaced, hjit, ?_⟩
      rw [hstep, hedits.attempts]
      simp [hedits.found]
    · simp at h
  | _ => simp at h

/-! ## Leaving `pending` -/

/-- The Attempt exists or has existed, and is not pending. -/
def Spent (v : AttemptView) : Prop := v.born = true ∧ ∀ a, v.row = some a → a.state ≠ .pending

/-- No rule leads back to `pending`. -/
lemma Rule.not_pending (h : Rule c db i a f released dropped) (ha : a.state ≠ .pending) :
    (f a).state ≠ .pending := by
  intro hpending
  have hrank := h.later.1
  rw [hpending] at hrank
  cases hstate : a.state <;> simp [hstate, AttemptState.rank] at hrank ha

lemma Change.spent (h : Change c db i v v') (hspent : Spent v) : Spent v' :=
  h.keeps Rule.not_pending hspent

lemma not_spent_of_pending (ha : db.attempts.get i = some a) (hpending : a.state = .pending) :
    ¬ Spent (db.viewAttempt i) := fun h => h.2 a ha hpending

lemma spent_of_not_pending (ha : db.attempts.get i = some a) (h : a.state ≠ .pending) :
    Spent (db.viewAttempt i) := by
  refine ⟨by simpa [Db.viewAttempt] using Table.get_lt ha, fun b hb => ?_⟩
  cases ha.symm.trans hb
  exact h

/-! ## Dropping the secret -/

/-- Secrets are stored for an active Attempt only. -/
def SecretsOk (v : AttemptView) : Prop :=
  v.secrets ≠ [] → ∃ a, v.row = some a ∧ a.state.isTerminal = false

/-- Every rule that ends an Attempt drops its secrets. -/
lemma Rule.drops (h : Rule c db i a f released dropped) (ha : a.state.isTerminal = false)
    (hends : (f a).state.isTerminal = true) : dropped = true := by
  cases h with
  | assigned _ _ hpending _ | requeued _ hpending _ | unplaced _ hpending _ =>
    simp [assignedAttempt, requeuedAttempt, unplacedAttempt, ha] at hends
  | readied => simp [readyAttempt, isTerminal] at hends
  | started args =>
    rw [(startedAttempt_cases c.now args a).1] at hends
    simp [isTerminal] at hends
  | branched _ _ hterminal => simp [ha] at hterminal
  | kept | acknowledged => simp [keptAttempt, acknowledgedAttempt, ha] at hends
  | _ => rfl

lemma Change.secretsOk (h : Change c db i v v') (hok : SecretsOk v) : SecretsOk v' := by
  cases h with
  | same => exact hok
  | created args secrets => exact fun _ => ⟨_, rfl, rfl⟩
  | @edited a f released dropped secrets hrule =>
    intro hne
    have hdropped : dropped = false := by
      by_contra hdropped
      simp [hdropped] at hne
    subst hdropped
    obtain ⟨b, hb, hactive⟩ := hok (by simpa using hne)
    cases hb
    by_contra hends
    exact absurd (hrule.drops hactive (by simpa using hends)) (by simp)
  | deleted => exact fun hne => absurd rfl hne

lemma secretsOk_after (js : Engine) (calls : List Call) (i : DocId Attempt) :
    SecretsOk ((after js calls).viewAttempt i) :=
  run_invariant (fun _ (db : Db) => SecretsOk (db.viewAttempt i)) (fun hne => absurd rfl hne)
    (fun _ c h => (step_change js _ c i).secretsOk h) calls

/-! ## Every run -/

/-- How often an Attempt's JIT config has been handed out. -/
def handoutCount (js : Engine) (i : DocId Attempt) (calls : List Call) : ℕ :=
  (handouts js calls).countP fun x => x.attemptId = i

/-- The JIT config has not been handed out, or once and the Attempt is spent. -/
def HandedOutOnce (js : Engine) (i : DocId Attempt) (calls : List Call) (db : Db) : Prop :=
  handoutCount js i calls = 0 ∨ handoutCount js i calls = 1 ∧ Spent (db.viewAttempt i)

lemma HandedOutOnce.step (h : HandedOutOnce js i calls (after js calls)) (c : Call) :
    HandedOutOnce js i (calls ++ [c]) (step js (after js calls) c) := by
  have hsnoc : handoutCount js i (calls ++ [c]) = handoutCount js i calls +
      (handedOut (after js calls) c).countP fun x => x.attemptId = i := by
    rw [handoutCount, handouts, trace_snoc, countP_append]
    rfl
  unfold HandedOutOnce
  rw [hsnoc]
  by_cases hnone : ∀ x ∈ handedOut (after js calls) c, x.attemptId ≠ i
  · have hzero : (handedOut (after js calls) c).countP (fun x => x.attemptId = i) = 0 := by
      simpa [countP_eq_zero] using hnone
    rw [hzero, add_zero]
    exact h.imp_right fun ⟨hone, hspent⟩ => ⟨hone, (step_change js _ c i).spent hspent⟩
  · push Not at hnone
    obtain ⟨x, hx, rfl⟩ := hnone
    obtain ⟨hsingle, a, ha, hpending, -, -, hclaimed⟩ := mem_handedOut js hx
    -- the Attempt was pending, so nothing had been handed out for it
    have hbefore := h.resolve_right fun hspent => not_spent_of_pending ha hpending hspent.2
    refine .inr ⟨?_, spent_of_not_pending hclaimed (by simp [claimedAttempt])⟩
    rw [hbefore, hsingle]
    simp

/-- Before an Attempt's JIT config is handed out the Attempt has only ever been pending. -/
lemma pending_before {earlier later : List Call} {b : Attempt}
    (ha : (after js (earlier ++ later)).attempts.get i = some a) (hpending : a.state = .pending)
    (hb : (after js earlier).attempts.get i = some b) : b.state = .pending := by
  by_contra hb'
  have hspent := run_invariant (fun _ (db : Db) => Spent (db.viewAttempt i))
    (spent_of_not_pending hb hb') (fun _ c h => (step_change js _ c i).spent h) later
  rw [after, ← run_append] at hspent
  exact not_spent_of_pending ha hpending hspent

/-- **A JIT config is used once.**  In every run, for every Attempt: its JIT config is handed out at
most once; it is the secret stored for that Attempt, handed to the Worker the Attempt is then
placed on; and up to that moment the Attempt has been pending and not retiring in every state in
which it existed.  No secret is stored for an Attempt that has ended. -/
theorem jit_config_single_use (js : Engine) (calls : List Call) :
    (∀ i, handoutCount js i calls ≤ 1) ∧
    (∀ before c rest, calls = before ++ c :: rest → ∀ x ∈ handedOut (after js before) c,
      (∃ a, (after js before).attempts.get x.attemptId = some a ∧ a.machineId = some x.machineId) ∧
      x.jitConfig ∈ secretsOf x.attemptId (after js before).attemptSecrets ∧
      ∀ earlier later, before = earlier ++ later →
        ∀ b, (after js earlier).attempts.get x.attemptId = some b →
          b.state = .pending ∧ b.retirement = none) ∧
    ∀ k secret, (after js calls).attemptSecrets.get k = some secret →
      ∃ a, (after js calls).attempts.get secret.attemptId = some a ∧
        a.state.isTerminal = false := by
  refine ⟨fun i => ?_, ?_, fun k secret hsecret => ?_⟩
  · rcases run_invariant (HandedOutOnce js i) (.inl rfl) (fun _ c h => h.step c) calls with
      h | ⟨h, -⟩ <;> omega
  · rintro before c rest - x hx
    obtain ⟨-, a, ha, hpending, hplaced, hjit, -⟩ := mem_handedOut js hx
    refine ⟨⟨a, ha, hplaced⟩, hjit.resolve_right ?_, ?_⟩
    · rw [((attemptsOk_after js before).row _ a ha).jitConfig]
      simp
    · rintro earlier later rfl b hb
      have hbpending := pending_before ha hpending hb
      exact ⟨hbpending,
        ((attemptsOk_after js earlier).row _ b hb).retirement_none_of_pending hbpending⟩
  · refine secretsOk_after js calls secret.attemptId fun hnil => ?_
    have hmem : secret.jitConfig ∈ secretsOf secret.attemptId (after js calls).attemptSecrets :=
      mem_map.mpr ⟨(k, secret), Table.mem_collect.mpr ⟨hsecret, by simp⟩, rfl⟩
    rw [show secretsOf _ _ = [] from hnil] at hmem
    simp at hmem

end EraInfra
