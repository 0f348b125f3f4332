import EraInfra.Agent.AtMostOnce
import EraInfra.Infra.Retirements

/-!
# One command after the other

The process works on one command at a time.  It is engaged in a command only after a claim, and only
an open command is claimed, so that a command which has ended, and in which it is not engaged, never
runs again: `Settled`.

A page lists commands in the order in which they were queued, and the process takes them from it in
that order.  Of two commands on a page the second is taken up when the first is reported, and has
ended, or when the process has given the first up: `Waits`.

Both rest on what one event does to the process, `nodeStep_client`.
-/

namespace EraInfra.Infra.Agent

open DocStore Encoding Option Host

/-! ## What an action does -/

/-- The command that a process is at. -/
def Phase.command : Phase → Option (DocId CommandRow)
  | .idle => none
  | .sweeping _ command => command.map ListedCommand.id
  | .ready cmd | .admitted cmd | .claimed cmd _ | .reading cmd _ _ | .fetched cmd _ _ => some cmd.id
  | .accepted cmd _ _ | .executing cmd _ _ | .ended cmd _ _ | .reporting cmd _ _ => some cmd.id
  | .reported cmd _ _ => some cmd.id

/-- The command that a process is at, as long as its report has not been accepted. -/
def Phase.unreported : Phase → Option (DocId CommandRow)
  | .reported .. => none
  | phase => phase.command

/-- The command that a process has claimed and not yet run. -/
def Phase.engaged : Phase → Option (DocId CommandRow)
  | .claimed cmd _ => some cmd.id
  | .fetched cmd _ _ => some cmd.id
  | .accepted cmd _ _ => some cmd.id
  | _ => none

/-- What an action does with the page and the command: the process keeps its page or drops it, and
goes on with its command or leaves it; a command that it has just reported has ended, and one that it
is newly engaged in was open. -/
structure Onward (db db' : Db) (c c' : Client) : Prop where
  page : c'.page = c.page ∨ c'.page = []
  command : c'.phase.command = none ∨ c'.phase.command = c.phase.command
  reported : ∀ r, c'.phase.command = some r →
    c'.phase.unreported = some r ∨ c'.phase = c.phase ∨ Ended db' r
  engaged : ∀ r, c'.phase.engaged = some r → c.phase.engaged = some r ∨
    ∃ row, db.nodeCommands.get r = some row ∧ row.isOpen = true

/-- Commands only get on, and the process that there is after the action has gone on from `c`. -/
structure Goes (h : Host) (c : Client) (h' : Host) : Prop where
  later : RowsLater h.system.db h'.system.db
  onward : ∀ c', h'.agent = some c' → Onward h.system.db h'.system.db c c'

section Acts

variable {codec : Codec} {url : String} {h h' : Host} {c c' : Client} {cmd : ListedCommand} {epoch : ℤ}
  {db db' : Db} {r : DocId CommandRow}

lemma Phase.command_of_engaged {phase : Phase} (hr : phase.engaged = some r) : phase.command = some r := by
  cases phase <;> first
    | exact hr
    | cases hr

lemma onward_same (hpage : c'.page = c.page) (hphase : c'.phase = c.phase) : Onward db db' c c' :=
  ⟨.inl hpage, .inr (by rw [hphase]), fun _ _ => .inr (.inl hphase), fun _ hr => .inl (hphase ▸ hr)⟩

lemma onward_leaves (hpage : c'.page = c.page ∨ c'.page = []) (hphase : c'.phase.command = none) :
    Onward db db' c c' := by
  refine ⟨hpage, .inl hphase, fun r hr => ?_, fun r hr => ?_⟩
  · simp [hphase] at hr
  · simp [Phase.command_of_engaged hr] at hphase

lemma onward_goes (hpage : c'.page = c.page) (hcommand : c'.phase.command = c.phase.command)
    (hunreported : c'.phase.unreported = c'.phase.command)
    (hengaged : c'.phase.engaged = none ∨ c'.phase.engaged = c.phase.engaged) : Onward db db' c c' := by
  refine ⟨.inl hpage, .inr hcommand, fun _ hr => .inl (hunreported.trans hr), fun r hr => .inl ?_⟩
  rcases hengaged with hnone | hsame
  · simp [hnone] at hr
  · exact hsame ▸ hr

lemma goes_of (hlater : RowsLater h.system.db h'.system.db) (hc' : h'.agent = some c')
    (honward : Onward h.system.db h'.system.db c c') : Goes h c h' := by
  refine ⟨hlater, fun c'' hc'' => ?_⟩
  cases some.inj (hc'.symm.trans hc'')
  exact honward

/-- An action of the process alone leaves the control plane as it is. -/
lemma goes_run (hsystem : h'.system = h.system) (hc' : h'.agent = some c')
    (honward : Onward h.system.db h.system.db c c') : Goes h c h' := by
  rw [← hsystem] at honward
  exact goes_of (hsystem ▸ RowsLater.refl _) hc' (hsystem ▸ honward)

lemma onward_fail (skip : Bool) {j : Journal} :
    Onward db db' c { c.fail skip with journal := j } := by
  refine onward_leaves ?_ rfl
  cases skip
  · exact .inr rfl
  · exact .inl rfl

lemma onward_resume (c₁ : Client) {command : Option ListedCommand}
    (hphase : c.phase.command = command.map ListedCommand.id) (hpage₁ : c₁.page = c.page)
    (hpage : c'.page = (c₁.resume command).page) (hphase' : c'.phase = (c₁.resume command).phase) :
    Onward db db' c c' := by
  cases command with
  | none => exact onward_leaves (.inl (hpage.trans hpage₁)) (by rw [hphase']; rfl)
  | some cmd =>
    simp only [Client.resume] at hpage hphase'
    split_ifs at hpage hphase'
    · exact onward_leaves (.inl (hpage.trans hpage₁)) (by rw [hphase']; rfl)
    · exact onward_goes (hpage.trans hpage₁) (by rw [hphase', hphase]; rfl) (by rw [hphase']; rfl)
        (.inl (by rw [hphase']; rfl))

lemma goes_heartbeat (hc : h.agent = some c) (x : Exchange) (io : FileIo) (version : String)
    (blocked : Option String) : Goes h c (h.heartbeat codec url x io version blocked c) := by
  have hlater := rowsLater_heartbeat x
    ⟨c.credential, version, blocked, some c.journal.keys, some maxJournalKeys⟩ h.system.db
  simp only [Host.heartbeat]
  generalize send x.delivery _ h.system.db = result at hlater
  rcases result with ⟨answer, db'⟩
  have hsame : ∀ {h' : Host} {c' : Client}, h'.system = ⟨db', x.now⟩ → h'.agent = some c' →
      c'.page = c.page → c'.phase = c.phase → Goes h c h' := by
    intro h' c' hsystem hc' hpage hphase
    exact goes_of (by rw [hsystem]; exact hlater) hc' (onward_same hpage hphase)
  split
  · split
    · exact hsame rfl hc rfl rfl
    · exact hsame rfl rfl rfl rfl
    · split <;> exact hsame rfl rfl rfl rfl
  · exact hsame rfl hc rfl rfl

lemma goes_sweep {batches : List (List Record)} {command : Option ListedCommand}
    (hphase : c.phase = .sweeping batches command) (x : Exchange) (io : RewriteIo) :
    Goes h c (h.sweep codec x io c batches command) := by
  have hcommand : c.phase.command = command.map ListedCommand.id := by rw [hphase]; rfl
  simp only [sweep]
  split
  · exact goes_run rfl rfl (onward_resume c hcommand rfl rfl rfl)
  split
  · split
    · exact goes_run rfl rfl (onward_goes rfl hcommand.symm rfl (.inl rfl))
    · rename_i s _
      exact goes_run rfl rfl (onward_resume { c with journal := s.journal } hcommand rfl rfl rfl)
  · exact goes_run rfl rfl (onward_resume c hcommand rfl rfl rfl)

lemma goes_makeRoom (hphase : c.phase = .ready cmd) (now : ℤ) : Goes h c (h.makeRoom now c cmd) := by
  simp only [makeRoom]
  split_ifs
  · exact goes_run rfl rfl (onward_goes rfl (by rw [hphase]; rfl) rfl (.inl rfl))
  · exact goes_run rfl rfl (onward_goes rfl (by rw [hphase]; rfl) rfl (.inl rfl))
  · exact goes_run rfl rfl (onward_fail true)

/-- Only an open command is claimed. -/
lemma goes_claim (hphase : c.phase = .admitted cmd) (x : Exchange) : Goes h c (h.claim x c cmd) := by
  have hlater := rowsLater_claim x c.credential cmd.id c.owner h.system.db
  simp only [Host.claim]
  rcases hsend : send x.delivery (Infra.claim x.env x.now c.credential cmd.id c.owner) h.system.db
    with ⟨answer, db'⟩
  rw [hsend] at hlater
  rcases answer with _ | result
  · exact goes_of hlater rfl (onward_fail false)
  cases result with
  | error error => exact goes_of hlater rfl (onward_fail x.conflict)
  | ok lease =>
    refine goes_of hlater rfl ⟨.inl rfl, .inr (by rw [hphase]; rfl), fun _ hr => .inl hr, fun r hr => ?_⟩
    rcases claim_ok (send_ok hsend) with ⟨row, hrow, hopen, -⟩
    exact .inr ⟨row, some.inj hr ▸ hrow, hopen⟩

lemma goes_ask {next : Payload → Phase}
    (hnext : ∀ payload, (next payload).command = c.phase.command ∧
      (next payload).unreported = (next payload).command ∧
      ((next payload).engaged = none ∨ (next payload).engaged = c.phase.engaged)) (x : Exchange) :
    Goes h c (h.ask x c cmd epoch next) := by
  simp only [Host.ask]
  split
  · rename_i payload _
    rcases hnext payload with ⟨hcommand, hunreported, hengaged⟩
    split_ifs
    · exact goes_run rfl rfl (onward_fail false)
    · exact goes_run rfl rfl (onward_goes rfl hcommand hunreported hengaged)
  · exact goes_run rfl rfl (onward_fail x.conflict)
  · exact goes_run rfl rfl (onward_fail false)

lemma goes_fetch (hphase : c.phase = .claimed cmd epoch) (x : Exchange) :
    Goes h c (h.fetch x c cmd epoch) := by
  simp only [fetch]
  split_ifs
  · exact goes_ask (fun _ => ⟨by rw [hphase]; rfl, rfl, .inl rfl⟩) x
  · split
    · exact goes_run rfl rfl (onward_fail false)
    · exact goes_run rfl rfl (onward_goes rfl (by rw [hphase]; rfl) rfl (.inl rfl))
    · exact goes_ask (fun _ => ⟨by rw [hphase]; rfl, rfl, .inr (by rw [hphase]; rfl)⟩) x

lemma goes_note (io : FileIo) (r : Record) {next : Phase} (hcommand : next.command = c.phase.command)
    (hunreported : next.unreported = next.command) (hengaged : next.engaged = c.phase.engaged) :
    Goes h c (h.note codec io c r next) := by
  simp only [note]
  split
  · exact goes_run rfl rfl (onward_goes rfl hcommand hunreported (.inr hengaged))
  · exact goes_run rfl rfl (onward_fail _)

/-- A command whose report is accepted has ended. -/
lemma goes_report (hcommand : c.phase.command = some cmd.id) (x : Exchange) (result : Reading)
    {next : Phase} (hnext : next.command = none ∨ next.command = some cmd.id)
    (hengaged : next.engaged = none) : Goes h c (h.report x c cmd epoch result next) := by
  have hlater := rowsLater_report x
    ⟨c.claimArgs cmd epoch, result.outcome, result.spec, result.output, result.truncated⟩ h.system.db
  simp only [Host.report]
  rcases hsend : send x.delivery (fun db => (Infra.report x.env x.now ⟨c.claimArgs cmd epoch,
    result.outcome, result.spec, result.output, result.truncated⟩ db).map fun db => ((), db))
    h.system.db with ⟨answer, db'⟩
  rw [hsend] at hlater
  rcases answer with _ | answer
  · exact goes_of hlater rfl (onward_fail false)
  cases answer with
  | error error => exact goes_of hlater rfl (onward_fail x.conflict)
  | ok accepted =>
    rcases map_ok.mp (send_ok hsend) with ⟨after, hreport, hafter⟩
    rw [(Prod.mk.inj hafter).2] at hreport
    refine goes_of hlater rfl ⟨.inl rfl, hnext.imp_right fun h => h.trans hcommand.symm,
      fun r hr => .inr (.inr ?_), fun r hr => by simp [hengaged] at hr⟩
    rcases hnext with hnone | hsome
    · simp [hnone] at hr
    · rw [← some.inj (hsome.symm.trans hr)]
      exact report_ended hreport

lemma goes_settle (io : FileIo) : Goes h c (h.settle codec io c cmd) := by
  simp only [Host.settle]
  split
  · exact goes_run rfl rfl (onward_leaves (.inl rfl) rfl)
  · exact goes_run rfl rfl (onward_fail _)

/-- Whatever the process does but for asking for a page and taking a command from it. -/
lemma goes_act (hc : h.agent = some c) {a : Act} (hpoll : ∀ x, a ≠ .poll x) (hnext : a ≠ .next) :
    Goes h c (h.act codec url c a) := by
  have hself : Goes h c h := goes_run rfl hc (onward_same rfl rfl)
  simp only [act]
  split <;> rename_i hphase
  · split_ifs
    · exact goes_heartbeat hc _ _ _ _
    · exact hself
  · split_ifs
    · exact goes_run rfl rfl (onward_leaves (.inl rfl) rfl)
    · exact hself
  · exact absurd rfl (hpoll _)
  · exact absurd rfl hnext
  · exact goes_sweep hphase _ _
  · exact goes_makeRoom hphase _
  · exact goes_claim hphase _
  · exact goes_fetch hphase _
  · exact goes_report (by rw [hphase]; rfl) _ _ (.inl rfl) rfl
  · exact goes_note _ _ (by rw [hphase]; rfl) rfl (by rw [hphase]; rfl)
  · exact goes_run rfl rfl (onward_goes rfl (by rw [hphase]; rfl) rfl (.inl rfl))
  · exact goes_run rfl rfl (onward_goes rfl (by rw [hphase]; rfl) rfl (.inl rfl))
  · exact goes_note _ _ (by rw [hphase]; rfl) rfl (by rw [hphase]; rfl)
  · exact goes_report (by rw [hphase]; rfl) _ _ (.inr rfl) rfl
  · exact goes_settle _
  · exact hself

/-! ## What an event does -/

/-- How a process comes to be what it is after an event: it has just started, it has gone on, it has
taken the next command of its page, or it has got a page. -/
inductive Becomes (h h' : Host) (e : NodeEvent) (c' : Client) : Prop
  | starts (page : c'.page = []) (phase : c'.phase = .idle)
  | goes (c : Client) (agent : h.agent = some c) (onward : Onward h.system.db h'.system.db c c')
  | takes (c : Client) (agent : h.agent = some c) (idle : c.phase = .idle) (cmd : ListedCommand)
      (page : c.page = cmd :: c'.page) (phase : c'.phase = .ready cmd)
  | lists (polls : ∃ x, e = .act (.poll x)) (idle : c'.phase = .idle)
      (sorted : c'.page.Pairwise fun a b => a.id < b.id)

/-- A page lists commands in the order in which they were queued. -/
lemma pending_sorted {env : Environment} {now : ℤ} {credential : String}
    {cursor cursor' : Option (DocId CommandRow)} {commands : List ListedCommand}
    (hpage : pending env now credential cursor db = .ok (commands, cursor')) :
    commands.Pairwise fun a b => a.id < b.id := by
  rcases bind_ok.mp hpage with ⟨nodeId, -, hlisted⟩
  rw [pure_ok] at hlisted
  rw [← (Prod.mk.inj hlisted).1, List.pairwise_map]
  exact (((db.nodeCommands.sorted.filter _).filter _).take.filter _)

/-- Commands only get on, and the process becomes what it is. -/
structure HostMoves (h h' : Host) (e : NodeEvent) : Prop where
  later : RowsLater h.system.db h'.system.db
  becomes : ∀ c', h'.agent = some c' → Becomes h h' e c'

variable {e : NodeEvent}

lemma hostMoves_refl (h : Host) : HostMoves h h e :=
  ⟨RowsLater.refl _, fun c hc => .goes c hc (onward_same rfl rfl)⟩

lemma hostMoves_gone (hsystem : h'.system = h.system) (hagent : h'.agent = none) : HostMoves h h' e :=
  ⟨hsystem ▸ RowsLater.refl _, fun c' hc' => by simp [hagent] at hc'⟩

lemma hostMoves_poll (c : Client) (x : Exchange) :
    HostMoves h (h.act codec url c (.poll x)) (.act (.poll x)) := by
  cases hphase : c.phase with
  | idle =>
    simp only [act, hphase, Host.poll]
    split_ifs
    · split
      · rename_i commands cursor hanswer
        refine ⟨RowsLater.refl _, fun c' hc' => ?_⟩
        cases hc'
        exact .lists ⟨x, rfl⟩ rfl (pending_sorted (ask_eq_some hanswer))
      · exact hostMoves_refl h
    · exact hostMoves_refl h
  | _ =>
    simp only [act, hphase]
    exact hostMoves_refl h

lemma hostMoves_next (hc : h.agent = some c) : HostMoves h (h.act codec url c .next) (.act .next) := by
  cases hphase : c.phase with
  | idle =>
    simp only [act, hphase]
    split
    · exact hostMoves_refl h
    · rename_i cmd page hpage
      refine ⟨RowsLater.refl _, fun c' hc' => ?_⟩
      cases hc'
      exact .takes c hc hphase cmd hpage rfl
  | _ =>
    simp only [act, hphase]
    exact hostMoves_refl h

/-- **What one event does** to the commands and to the process. -/
lemma nodeStep_moves (e : NodeEvent) : HostMoves h (nodeStep codec url h e) e := by
  simp only [nodeStep]
  split
  · rename_i e
    exact ⟨rowsLater_commandStep h.system e, fun c hc => .goes c hc (onward_same rfl rfl)⟩
  · rename_i hc
    simp only [start]
    split
    · exact hostMoves_gone rfl hc
    · refine ⟨RowsLater.refl _, fun c' hc' => ?_⟩
      cases hc'
      exact .starts rfl rfl
  · split
    · exact hostMoves_gone rfl rfl
    · exact hostMoves_refl h
  · simp only [crash]
    split <;> exact hostMoves_gone rfl rfl
  · rename_i a c hc
    by_cases hpoll : ∃ x, a = .poll x
    · rcases hpoll with ⟨x, rfl⟩
      exact hostMoves_poll c x
    by_cases hnext : a = .next
    · subst hnext
      exact hostMoves_next hc
    have hgoes : Goes h c (h.act codec url c a) := goes_act hc (fun x heq => hpoll ⟨x, heq⟩) hnext
    exact ⟨hgoes.later, fun c' hc' => .goes c hc (hgoes.onward c' hc')⟩
  · exact hostMoves_refl h

end Acts

/-! ## Commands that never run again -/

variable {codec : Codec} {url : String} {r d : DocId CommandRow} {h : Host}

lemma ended_later {db db' : Db} (hr : Ended db r) (hlater : RowsLater db db') : Ended db' r := by
  rcases hr with ⟨row, hrow, hclosed⟩
  rcases hlater r row hrow with ⟨row', hrow', hlater⟩
  exact ⟨row', hrow', hlater.isOpen_eq_false hclosed⟩

lemma ended_run (hr : Ended h.system.db r) (events : List NodeEvent) :
    Ended (run (nodeStep codec url) h events).system.db r :=
  run_invariant (fun _ (h : Host) => Ended h.system.db r) hr
    (fun _ e hbefore => ended_later hbefore (nodeStep_moves e).later) events

/-- The command has ended, and the process is not about to run it. -/
structure Settled (r : DocId CommandRow) (h : Host) : Prop where
  ended : Ended h.system.db r
  free : ∀ c, h.agent = some c → c.phase.engaged ≠ some r

lemma Settled.step (hr : Settled r h) (e : NodeEvent) : Settled r (nodeStep codec url h e) := by
  have hmoves : HostMoves h (nodeStep codec url h e) e := nodeStep_moves e
  refine ⟨ended_later hr.ended hmoves.later, fun c' hc' hengaged => ?_⟩
  cases hmoves.becomes c' hc' with
  | starts _ hphase | takes _ _ _ _ _ hphase | lists _ hphase =>
    rw [hphase] at hengaged
    cases hengaged
  | goes c hc honward =>
    rcases honward.engaged r hengaged with hbefore | ⟨row, hrow, hopen⟩
    · exact hr.free c hc hbefore
    · rcases hr.ended with ⟨row', hrow', hclosed⟩
      cases some.inj (hrow.symm.trans hrow')
      simp [hopen] at hclosed

lemma Settled.run (hr : Settled r h) (events : List NodeEvent) :
    Settled r (run (nodeStep codec url) h events) :=
  run_invariant (fun _ (h : Host) => Settled r h) hr (fun _ e hbefore => hbefore.step e) events

lemma Settled.not_invokes (hr : Settled r h) (e : NodeEvent) (payload : Payload) :
    ¬ Invokes h e r payload := by
  rintro ⟨-, c, cmd, epoch, hc, hphase, rfl⟩
  exact hr.free c hc (by rw [hphase]; rfl)

/-! ## The first of two commands on a page -/

/-- The command that the process of a Node is at. -/
def Host.command (h : Host) : Option (DocId CommandRow) := h.agent.bind fun c => c.phase.command

/-- The same, as long as its report has not been accepted. -/
def Host.unreported (h : Host) : Option (DocId CommandRow) := h.agent.bind fun c => c.phase.unreported

/-- The commands of the last page that the process has not taken up yet. -/
def Host.listed (h : Host) : List (DocId CommandRow) :=
  (h.agent.map fun c => c.page.map ListedCommand.id).getD []

/-- Whether the process asks for a page. -/
def NodeEvent.polls : NodeEvent → Bool
  | .act (.poll _) => true
  | _ => false

/-- The process gets a new page, with `r` on it. -/
def Lists (codec : Codec) (url : String) (r : DocId CommandRow) (h : Host) (e : NodeEvent) : Prop :=
  h.listed = [] ∧ r ∈ (nodeStep codec url h e).listed

/-- The process asks for no other page, and once it is at `r` it stays with it until it has reported
it, unless it stops or crashes. -/
def KeepsTo (codec : Codec) (url : String) (r : DocId CommandRow) (h : Host) (e : NodeEvent) : Prop :=
  e.polls = false ∧ (h.unreported = some r →
    (nodeStep codec url h e).agent.isNone = true ∨ (nodeStep codec url h e).command = some r)

instance (h : Host) (e : NodeEvent) : Decidable (Lists codec url r h e) := by
  unfold Lists
  infer_instance

instance (h : Host) (e : NodeEvent) : Decidable (KeepsTo codec url r h e) := by
  unfold KeepsTo
  infer_instance

/-- The process is at `r`, or it is not at `d` and `r` is on the page if `d` is. -/
def Client.Before (r d : DocId CommandRow) (c : Client) : Prop :=
  c.phase.unreported = some r ∨ c.phase.command ≠ some d ∧
    c.page.Pairwise (fun a b => a.id < b.id) ∧
    (d ∈ c.page.map ListedCommand.id → r ∈ c.page.map ListedCommand.id)

/-- `d` waits for `r`: it has ended, or the process takes it up first. -/
def Waits (r d : DocId CommandRow) (h : Host) : Prop :=
  Ended h.system.db r ∨ ∀ c, h.agent = some c → c.Before r d

lemma Onward.before {db db' : Db} {c c' : Client} (honward : Onward db db' c c') (hbefore : c.Before r d)
    (hkeeps : c.phase.unreported = some r → c'.phase.command = some r) :
    Ended db' r ∨ c'.Before r d := by
  rcases hbefore with hr | ⟨hd, hsorted, hlists⟩
  · rcases honward.reported r (hkeeps hr) with hstill | hsame | hended
    · exact .inr (.inl hstill)
    · exact .inr (.inl (hsame ▸ hr))
    · exact .inl hended
  refine .inr (.inr ⟨?_, ?_⟩)
  · rcases honward.command with hnone | hsame
    · simp [hnone]
    · rwa [hsame]
  · rcases honward.page with hsame | hnil
    · rw [hsame]
      exact ⟨hsorted, hlists⟩
    · simp [hnil]

/-- The next command of a sorted page is not `d` while `r` is on it. -/
lemma before_takes {c c' : Client} {cmd : ListedCommand} (hlt : r < d) (hidle : c.phase = .idle)
    (hpage : c.page = cmd :: c'.page) (hphase : c'.phase = .ready cmd) (hbefore : c.Before r d) :
    c'.Before r d := by
  rcases hbefore with hr | ⟨-, hsorted, hlists⟩
  · rw [hidle] at hr
    cases hr
  rw [hpage] at hsorted hlists
  rcases List.pairwise_cons.mp hsorted with ⟨hfirst, hsorted⟩
  rw [List.map_cons, List.mem_cons, List.mem_cons] at hlists
  by_cases hr : r = cmd.id
  · exact .inl (by rw [hphase, hr]; rfl)
  refine .inr ⟨fun hd => ?_, hsorted, fun hd => (hlists (.inr hd)).resolve_left hr⟩
  rw [hphase] at hd
  have hd : cmd.id = d := some.inj hd
  rcases List.mem_map.mp ((hlists (.inl hd.symm)).resolve_left hr) with ⟨other, hother, hid⟩
  have hafter := hfirst other hother
  rw [hid, hd] at hafter
  exact absurd hlt (Nat.lt_asymm hafter)

lemma Waits.step (hlt : r < d) (hwaits : Waits r d h) {e : NodeEvent} (hkeeps : KeepsTo codec url r h e) :
    Waits r d (nodeStep codec url h e) := by
  have hmoves : HostMoves h (nodeStep codec url h e) e := nodeStep_moves e
  rcases hkeeps with ⟨hpolls, hkeeps⟩
  rcases hwaits with hended | hbefore
  · exact .inl (ended_later hended hmoves.later)
  refine or_iff_not_imp_left.mpr fun hopen c' hc' => ?_
  cases hmoves.becomes c' hc' with
  | starts hpage hphase => exact .inr (by simp [hpage, hphase, Phase.command])
  | goes c hc honward =>
    refine (honward.before (hbefore c hc) fun hr => ?_).resolve_left hopen
    have hkept := hkeeps (by rw [Host.unreported, hc]; exact hr)
    rw [Host.command, hc'] at hkept
    exact hkept.resolve_left (by simp)
  | takes c hc hidle cmd hpage hphase => exact before_takes hlt hidle hpage hphase (hbefore c hc)
  | lists hpoll =>
    rcases hpoll with ⟨x, rfl⟩
    cases hpolls

/-- `d` waits for `r` all along. -/
lemma Waits.run (hlt : r < d) (hwaits : Waits r d h) {events : List NodeEvent}
    (hkeeps : Meets (nodeStep codec url) h (KeepsTo codec url r) events) :
    Waits r d (run (nodeStep codec url) h events) :=
  run_invariant_of_meets (fun _ h => Waits r d h) hwaits
    (fun _ _ hbefore hkeeps => hbefore.step hlt hkeeps) events hkeeps

/-- With a page that lists `r` every other command waits for it. -/
lemma Lists.waits {e : NodeEvent} (hlists : Lists codec url r h e) :
    Waits r d (nodeStep codec url h e) := by
  rcases hlists with ⟨hempty, hr⟩
  refine .inr fun c' hc' => ?_
  have hr : r ∈ c'.page.map ListedCommand.id := by simpa [Host.listed, hc'] using hr
  cases (nodeStep_moves e).becomes c' hc' with
  | lists _ hidle hsorted => exact .inr ⟨by simp [hidle, Phase.command], hsorted, fun _ => hr⟩
  | starts hpage => simp [hpage] at hr
  | goes c hc honward =>
    have hpage : c.page = [] := by simpa [Host.listed, hc] using hempty
    rcases honward.page with hsame | hnil
    · simp [hsame, hpage] at hr
    · simp [hnil] at hr
  | takes c hc _ _ hpage =>
    have hnil : c.page = [] := by simpa [Host.listed, hc] using hempty
    simp [hnil] at hpage

/-- When `d` is run, the command it waits for has ended. -/
lemma Waits.ended (hlt : r < d) (hwaits : Waits r d h) {e : NodeEvent} {payload : Payload}
    (hinvokes : Invokes h e d payload) : Ended h.system.db r := by
  rcases hinvokes with ⟨-, c, cmd, epoch, hc, hphase, rfl⟩
  refine hwaits.resolve_right fun hbefore => ?_
  rcases hbefore c hc with hr | ⟨hd, -⟩
  · rw [hphase] at hr
    exact absurd (some.inj hr) (Nat.ne_of_gt hlt)
  · rw [hphase] at hd
    exact hd rfl

end EraInfra.Infra.Agent
