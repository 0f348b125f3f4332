import EraInfra.Cache.Sessions

/-!
# The budget of a session

Requests stage blocks of one session at the same time (`blob.go`): each takes a claim on the budget
(`spool.go`), writes its bytes, and then records a block or gives the claim back.  A commit drops
the recorded blocks and counts from zero again, whatever the other requests hold.
-/

namespace EraInfra.CacheServer

open DocStore Encoding ObjectStore List Bucket

/-- What requests do under the lock of the session. -/
inductive SpoolStep
  | reserve (want : ℤ)
  | stage (id path : Bytes) (claimed actual : ℤ)
  | release (claimed : ℤ)
  | clear
deriving DecidableEq

/-- A session, and the claims that requests hold on its budget. -/
structure Claimed extends Spooling where
  claims : List ℤ

/-- A request gives up a claim that it holds, after it wrote at most as much. -/
def stepSpool (st : Claimed) : SpoolStep → Claimed
  | .reserve want =>
    match st.session.reserveBlock want with
    | none => st
    | some (claimed, session) => ⟨{ st with session }, claimed :: st.claims⟩
  | .stage id path claimed actual =>
    if claimed ∈ st.claims ∧ 0 ≤ actual ∧ actual ≤ claimed then
      ⟨st.toSpooling.stage id path claimed actual, st.claims.erase claimed⟩
    else st
  | .release claimed =>
    if claimed ∈ st.claims then
      ⟨{ st with session := st.session.releaseBlock claimed }, st.claims.erase claimed⟩
    else st
  | .clear => ⟨st.toSpooling.clearBlocks, st.claims⟩

/-- The bytes of the recorded blocks. -/
def Session.recorded (s : Session) : ℤ := (s.blocks.objects.map fun block => block.2.size).sum

/-- The counter is what is recorded and what may still be written, within the limit. -/
structure Balanced (st : Claimed) : Prop where
  staged_eq : st.session.staged = st.session.recorded + st.claims.sum
  nonneg : 0 ≤ st.session.staged
  le_limit : st.session.staged ≤ st.session.limit
  bytes_le : st.session.recorded + st.claims.sum ≤ st.session.limit

/-- No claim is empty, and no block has a negative size. -/
structure Sized (st : Claimed) : Prop where
  claims_pos : ∀ c ∈ st.claims, 0 < c
  sizes_nonneg : ∀ id block, st.session.blocks.get id = some block → 0 ≤ block.size

variable {st : Claimed}

lemma Sized.recorded_nonneg (h : Sized st) : 0 ≤ st.session.recorded := by
  refine sum_nonneg fun size hsize => ?_
  rcases mem_map.mp hsize with ⟨⟨id, block⟩, hmem, rfl⟩
  exact h.sizes_nonneg id block (get_eq_some.mpr hmem)

/-- A counter that adds up is not negative. -/
lemma and_balanced {p q : Prop} (h : Sized st)
    (hbalance : p → q → st.session.staged = st.session.recorded + st.claims.sum ∧
      st.session.staged ≤ st.session.limit) : Sized st ∧ (p → q → Balanced st) := by
  refine ⟨h, fun hp hq => ?_⟩
  rcases hbalance hp hq with ⟨heq, hle⟩
  have hrecorded := h.recorded_nonneg
  have hclaims : 0 ≤ st.claims.sum := sum_nonneg fun c hc => (h.claims_pos c hc).le
  exact ⟨heq, by omega, hle, by omega⟩

section Stage

variable {st : Spooling} {id path : Bytes} {claimed actual : ℤ}

lemma stage_dir : (st.stage id path claimed actual).session.dir = st.session.dir := by
  rw [Spooling.stage]
  split <;> rfl

lemma stage_blocks :
    (st.stage id path claimed actual).session.blocks = st.session.blocks.put id ⟨path, actual⟩ := by
  rw [Spooling.stage]
  split <;> rfl

/-- A block takes over its part of the claim, and the place of an earlier block of its id. -/
lemma staged_stage :
    (st.stage id path claimed actual).session.staged = st.session.staged - claimed + actual
        - ((st.session.blocks.get id).map StagedBlock.size).getD 0 := by
  rw [Spooling.stage]
  split
  · rename_i previous hget
    simp only [hget, Option.map_some, Option.getD_some]
    omega
  · rename_i hget
    simp only [hget, Option.map_none, Option.getD_none]
    omega

lemma stage_limit : (st.stage id path claimed actual).session.limit = st.session.limit := by
  rw [Spooling.stage]
  split <;> rfl

end Stage

/-- **A step keeps the balance, unless it clears the blocks under a claim.** -/
theorem balanced_step (h : Sized st) (e : SpoolStep) : Sized (stepSpool st e) ∧
    (Balanced st → (e = .clear → st.claims = []) → Balanced (stepSpool st e)) := by
  have hrest : ∀ {claimed}, ∀ c ∈ st.claims.erase claimed, 0 < c :=
    fun c hc => h.claims_pos c (mem_of_mem_erase hc)
  cases e with
  | reserve want =>
    simp only [stepSpool, Session.reserveBlock]
    split
    · exact ⟨h, fun hb _ => hb⟩
    rename_i hreserve
    split at hreserve
    · cases hreserve
    cases hreserve
    refine and_balanced ⟨fun c hc => ?_, h.sizes_nonneg⟩ fun hb _ => ?_
    · rcases mem_cons.mp hc with rfl | hc
      · split <;> omega
      · exact h.claims_pos c hc
    · rcases hb with ⟨heq, -, hle, -⟩
      simp only [Session.recorded, sum_cons] at heq ⊢
      split <;> omega
  | stage id path claimed actual =>
    simp only [stepSpool]
    split
    · rename_i hstage
      rcases hstage with ⟨hmem, hnonneg, hactual⟩
      refine and_balanced ⟨hrest, fun id' block hget => ?_⟩ fun hb _ => ?_
      · rw [stage_blocks, get_put] at hget
        split at hget
        · cases hget
          exact hnonneg
        · exact h.sizes_nonneg id' block hget
      · rcases hb with ⟨heq, -, hle, -⟩
        have hsum := sum_erase hmem
        have hrecorded : (st.stage id path claimed actual).session.recorded = _ :=
          (congrArg (fun b => (b.objects.map fun block => block.2.size).sum) stage_blocks).trans sum_put
        have hprevious : 0 ≤ ((st.session.blocks.get id).map StagedBlock.size).getD 0 := by
          cases hget : st.session.blocks.get id with
          | none => exact le_rfl
          | some previous => exact h.sizes_nonneg id previous hget
        rw [hrecorded, staged_stage, stage_limit]
        simp only [Session.recorded] at heq ⊢
        omega
    · exact ⟨h, fun hb _ => hb⟩
  | release claimed =>
    simp only [stepSpool]
    split
    · rename_i hmem
      refine and_balanced ⟨hrest, h.sizes_nonneg⟩ fun hb _ => ?_
      rcases hb with ⟨heq, -, hle, -⟩
      have hsum := sum_erase hmem
      have hpos := h.claims_pos claimed hmem
      simp only [Session.releaseBlock, Session.recorded] at heq ⊢
      omega
    · exact ⟨h, fun hb _ => hb⟩
  | clear =>
    refine and_balanced ⟨h.claims_pos, nofun⟩ fun hb hclear => ?_
    have hlimit := hb.nonneg.trans hb.le_limit
    simp only [stepSpool, hclear rfl]
    exact ⟨rfl, hlimit⟩

/-! ## Every interleaving -/

/-- A session without claims. -/
def opened (dir : Bytes) (limit : ℤ) : Claimed := ⟨newSession dir limit, []⟩

lemma sized_run (dir : Bytes) (limit : ℤ) (steps : List SpoolStep) :
    Sized (run stepSpool (opened dir limit) steps) := by
  refine run_invariant (fun _ => Sized) ⟨?_, ?_⟩ (fun _ e h => (balanced_step h e).1) steps
  · intro c hc
    cases hc
  · intro id block hget
    cases hget

/-- **The budget of a session is never exceeded, if no commit clears the blocks while a request
holds a claim.**  Then, and only then, the counter is at every moment the bytes of the recorded
blocks and the claims, within the limit. -/
theorem spool_budget_balanced (dir : Bytes) (limit : ℤ) (steps : List SpoolStep) :
    (∀ before after, steps = before ++ after →
        Balanced (run stepSpool (opened dir limit) before)) ↔
      0 ≤ limit ∧ Meets stepSpool (opened dir limit) (fun st e => e = .clear → st.claims = [])
        steps := by
  constructor
  · intro h
    have hstart := h [] steps rfl
    refine ⟨hstart.nonneg.trans hstart.le_limit, ?_⟩
    rintro before e after rfl rfl
    -- after the step the counter is zero, so that nothing is claimed
    have hafter := (h (before ++ [.clear]) after (by simp)).staged_eq
    have hsum : (run stepSpool (opened dir limit) before).claims.sum = 0 := by
      simpa [stepSpool, Spooling.clearBlocks, Session.recorded, empty] using hafter.symm
    rcases hclaims : (run stepSpool (opened dir limit) before).claims with _ | ⟨c, claims⟩
    · rfl
    have hpos := (sized_run dir limit before).claims_pos
    rw [hclaims] at hpos hsum
    have hc := hpos c (mem_cons_self ..)
    have hrest : 0 ≤ claims.sum := sum_nonneg fun d hd => (hpos d (mem_cons_of_mem _ hd)).le
    rw [sum_cons] at hsum
    omega
  · rintro ⟨hlimit, hsteps⟩ before after rfl
    have hstart : Balanced (opened dir limit) := ⟨rfl, le_rfl, hlimit, hlimit⟩
    exact run_invariant_of_meets (fun _ => Balanced) hstart
      (fun calls e hb he => (balanced_step (sized_run dir limit calls) e).2 hb he) before hsteps.left

theorem spool_budget_balanced_after_restage :
    Balanced (run stepSpool (opened [] 10)
      [.reserve 4, .reserve 0, .stage [1] [1] 4 3, .stage [1] [1] 6 6, .clear]) :=
  (spool_budget_balanced [] 10 _).mpr (by decide) _ [] (append_nil _).symm

/-- A commit clears the blocks while a request holds the whole budget.  A second request gets the
budget again: with the first one's block, twice the limit. -/
theorem cleared_budget_is_claimed_twice :
    let st := run stepSpool (opened [] 10) [.reserve 10, .clear, .reserve 10, .stage [1] [1] 10 10]
    st.session.staged = 10 ∧ st.session.recorded = 10 ∧ st.claims = [10] := by
  decide

end EraInfra.CacheServer
