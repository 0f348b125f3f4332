import Mathlib.Tactic

/-!
# Fenced leases

A lease that is handed from holder to holder under an *epoch*, and what a guarded resource may
conclude from a request's epoch.  Holders are of any type, and time is whatever clock readings
the calls bring: nothing here assumes that they increase.

`Step` is the design of such a lease: a free or expired lease is granted under the next epoch, the
holder keeps its epoch when it asks again, and giving the lease up burns its epoch.  `Event`s are
what an observer of the calls sees of it.  **`Fenced.step`** is the result: after any history the
epoch names at most one holder, the holder on record is the one the most recent grant was made
to, and an epoch that was taken over or given up is below the current one for good.
-/

namespace Fencing

open List Option

variable {H : Type}

/-- The state of a lease someone has asked for. -/
structure Lease (H : Type) where
  epoch : ℤ
  holder : Option H
  expiresAt : ℤ

/-- What is seen of a lease: grants and renewals with the time they were made, and the calls to
give it up, whether or not the caller still held it. -/
inductive Event (H : Type)
  | granted (h : H) (epoch time : ℤ)
  | renewed (time : ℤ)
  | released (h : H) (epoch : ℤ)

/-- One call: the lease before, what is seen, the lease after. -/
inductive Step (ttl : ℤ) : Option (Lease H) → List (Event H) → Option (Lease H) → Prop
  | keep (s) : Step ttl s [] s
  /-- A row for a lease no one has held. -/
  | opened (time : ℤ) : Step ttl none [] (some ⟨0, none, time⟩)
  | first (h time) : Step ttl none [.granted h 1 time] (some ⟨1, some h, time + ttl⟩)
  | takeover (l : Lease H) (h time) (free : l.holder = none ∨ l.expiresAt ≤ time) :
      Step ttl (some l) [.granted h (l.epoch + 1) time] (some ⟨l.epoch + 1, some h, time + ttl⟩)
  | again (l : Lease H) (h time) (own : l.holder = some h) :
      Step ttl (some l) [.granted h l.epoch time] (some ⟨l.epoch, some h, time + ttl⟩)
  | renewed (l : Lease H) (h time) (own : l.holder = some h) :
      Step ttl (some l) [.renewed time] (some ⟨l.epoch, some h, time + ttl⟩)
  | released (l : Lease H) (h time) (own : l.holder = some h) :
      Step ttl (some l) [.released h l.epoch] (some ⟨l.epoch + 1, none, time⟩)
  /-- A release by someone who does not hold the lease under that epoch. -/
  | missed (s : Option (Lease H)) (h e) (other : ∀ l, s = some l → l.holder = some h → l.epoch ≠ e) :
      Step ttl s [.released h e] s

/-- When a grant made at `time` was last extended, given what was seen after it. -/
def lastExtension (time : ℤ) (after : List (Event H)) : ℤ :=
  after.foldl (fun time e => match e with | .renewed time' => time' | _ => time) time

/-- Nothing in `after` ends the grant of epoch `e` to `h`: no other grant, no release of it. -/
def Undisturbed (h : H) (e : ℤ) (after : List (Event H)) : Prop :=
  (∀ h' e' time, Event.granted h' e' time ∉ after) ∧ Event.released h e ∉ after

/-- `h` was granted epoch `e` and has lost the lease since: someone else was granted it, or `h`
gave it up. -/
def Lost (h : H) (e : ℤ) (history : List (Event H)) : Prop :=
  ∃ before time after, history = before ++ Event.granted h e time :: after ∧
    (Event.released h e ∈ after ∨ ∃ h' e' time', Event.granted h' e' time' ∈ after ∧ h' ≠ h)

/-- What a history of events says about the lease it led to. -/
structure Fenced (ttl : ℤ) (history : List (Event H)) (s : Option (Lease H)) : Prop where
  /-- No grant is ahead of the lease, and one of the current epoch is the holder's. -/
  below : ∀ h e time, Event.granted h e time ∈ history →
    ∃ l, s = some l ∧ e ≤ l.epoch ∧ (e = l.epoch → l.holder = some h)
  /-- An epoch has one holder. -/
  agree : ∀ h h' e time time', Event.granted h e time ∈ history →
    Event.granted h' e time' ∈ history → h = h'
  /-- The holder on record has the most recent grant. -/
  held : ∀ l h, s = some l → l.holder = some h → ∃ before time after,
    history = before ++ Event.granted h l.epoch time :: after ∧ Undisturbed h l.epoch after ∧
      l.expiresAt = lastExtension time after + ttl
  /-- A lost epoch is behind the lease. -/
  lost : ∀ h e, Lost h e history → ∃ l, s = some l ∧ e < l.epoch

variable {ttl : ℤ} {history seen : List (Event H)} {s s' : Option (Lease H)}

lemma Fenced.init : Fenced ttl ([] : List (Event H)) none := by
  refine ⟨?_, ?_, ?_, ?_⟩
  · intro h e time hmem
    simp at hmem
  · intro h h' e time time' hmem
    simp at hmem
  · intro l h hl
    simp at hl
  · rintro h e ⟨before, time, after, heq, -⟩
    simp at heq

variable {l : Lease H} {h : H} {e : ℤ}

/-- A lease never disappears and its epoch never goes down. -/
lemma Step.epoch_mono (hstep : Step ttl s seen s') (hl : s = some l) :
    ∃ l', s' = some l' ∧ l.epoch ≤ l'.epoch := by
  cases hstep with
  | keep | missed _ h e other => exact ⟨l, hl, le_rfl⟩
  | opened time | first h time => simp at hl
  | takeover l₀ h time free | released l₀ h time own =>
    cases hl
    exact ⟨_, rfl, by simp⟩
  | again l₀ h time own | renewed l₀ h time own =>
    cases hl
    exact ⟨_, rfl, le_rfl⟩

lemma Lost.append (hlost : Lost h e history) (later : List (Event H)) :
    Lost h e (history ++ later) := by
  obtain ⟨before, time, after, rfl, hafter⟩ := hlost
  refine ⟨before, time, after ++ later, by simp, ?_⟩
  rcases hafter with hr | ⟨h', e', time', hg, hne⟩
  · exact .inl (mem_append_left _ hr)
  · exact .inr ⟨h', e', time', mem_append_left _ hg, hne⟩

/-- A loss in a longer history is an old one, or the last event is what lost the lease. -/
lemma lost_append (h : H) (e : ℤ) (hlost : Lost h e (history ++ seen)) (hseen : seen.length ≤ 1) :
    Lost h e history ∨ ((∃ time, Event.granted h e time ∈ history) ∧
        (Event.released h e ∈ seen ∨ ∃ h' e' time', Event.granted h' e' time' ∈ seen ∧ h' ≠ h)) := by
  obtain ⟨before, time, after, heq, hafter⟩ := hlost
  have hne : after ≠ [] := by
    rintro rfl
    simp at hafter
  have hpos := length_pos_iff.mpr hne
  rcases append_eq_append_iff.mp heq with ⟨extra, hbefore, hrest⟩ | ⟨extra, hhist, hrest⟩
  · have hlength := congrArg length hrest
    simp only [length_append, length_cons] at hlength
    omega
  rcases extra with _ | ⟨x, extra⟩
  · have hlength := congrArg length hrest
    simp only [nil_append, length_cons] at hlength
    omega
  rw [cons_append] at hrest
  obtain ⟨rfl, rfl⟩ := cons.inj hrest
  have hmem : Event.granted h e time ∈ history := by simp [hhist]
  simp only [mem_append] at hafter
  rcases hafter with (hr | hr) | ⟨h', e', time', hg | hg, hne⟩
  · exact .inl ⟨before, time, extra, hhist, .inl hr⟩
  · exact .inr ⟨⟨time, hmem⟩, .inl hr⟩
  · exact .inl ⟨before, time, extra, hhist, .inr ⟨h', e', time', hg, hne⟩⟩
  · exact .inr ⟨⟨time, hmem⟩, .inr ⟨h', e', time', hg, hne⟩⟩

/-- A grant that is seen is the lease's new state. -/
lemma Step.granted_mem (hstep : Step ttl s seen s') {time : ℤ} (hmem : Event.granted h e time ∈ seen) :
    ∃ l, s' = some l ∧ l.epoch = e ∧ l.holder = some h := by
  cases hstep with
  | keep | opened | renewed | released | missed => simp at hmem
  | first | takeover | again =>
    simp only [mem_singleton] at hmem
    obtain ⟨rfl, rfl, rfl⟩ := hmem
    exact ⟨_, rfl, rfl, rfl⟩

/-- As long as the epoch stays, so does the holder. -/
lemma Step.holder_of_epoch (hstep : Step ttl s seen s') {l' : Lease H} (hl : s = some l)
    (hl' : s' = some l') (he : l'.epoch = l.epoch) : l'.holder = l.holder := by
  cases hstep with
  | keep | missed => rw [some.inj (hl'.symm.trans hl)]
  | opened | first => simp at hl
  | takeover l₀ h time free | released l₀ h time own =>
    cases hl
    cases hl'
    simp at he
  | again l₀ h time own | renewed l₀ h time own =>
    cases hl
    cases hl'
    exact own.symm

lemma Step.length_le (hstep : Step ttl s seen s') : seen.length ≤ 1 := by
  cases hstep <;> simp

lemma Undisturbed.append {after : List (Event H)} (ha : Undisturbed h e after)
    (hs : Undisturbed h e seen) : Undisturbed h e (after ++ seen) := by
  refine ⟨?_, ?_⟩
  · intro h' e' time hmem
    rcases mem_append.mp hmem with hmem | hmem
    · exact ha.1 h' e' time hmem
    · exact hs.1 h' e' time hmem
  · intro hmem
    rcases mem_append.mp hmem with hmem | hmem
    · exact ha.2 hmem
    · exact hs.2 hmem

section Fenced

variable (hf : Fenced ttl history s)

include hf

/-- A grant that nothing disturbs stays the most recent one, extended by what renews it. -/
lemma Fenced.held_append (seen : List (Event H)) (hl : s = some l)
    (hh : l.holder = some h) (hs : Undisturbed h l.epoch seen) :
    ∃ before time after, history ++ seen = before ++ Event.granted h l.epoch time :: after ∧
      Undisturbed h l.epoch after ∧
      lastExtension (l.expiresAt - ttl) seen = lastExtension time after := by
  obtain ⟨before, time, after, heq, hund, hexp⟩ := hf.held l h hl hh
  refine ⟨before, time, after ++ seen, by simp [heq], hund.append hs, ?_⟩
  simp only [lastExtension, foldl_append] at hexp ⊢
  rw [hexp, add_sub_cancel_right]

variable (hstep : Step ttl s seen s')

include hstep

lemma Fenced.below_step (h : H) (e time : ℤ) (hmem : Event.granted h e time ∈ history ++ seen) :
    ∃ l, s' = some l ∧ e ≤ l.epoch ∧ (e = l.epoch → l.holder = some h) := by
  rcases mem_append.mp hmem with hold | hnew
  · obtain ⟨l, hl, hle, hholder⟩ := hf.below h e time hold
    obtain ⟨l', hl', hmono⟩ := hstep.epoch_mono hl
    refine ⟨l', hl', le_trans hle hmono, ?_⟩
    intro he
    have heq : l'.epoch = l.epoch := le_antisymm (he ▸ hle) hmono
    rw [hstep.holder_of_epoch hl hl' heq]
    exact hholder (he.trans heq)
  · obtain ⟨l', hl', he, hholder⟩ := hstep.granted_mem hnew
    exact ⟨l', hl', he.ge, fun _ => hholder⟩

lemma Fenced.agree_step (h h' : H) (e time time' : ℤ) (hmem : Event.granted h e time ∈ history ++ seen)
    (hmem' : Event.granted h' e time' ∈ history ++ seen) : h = h' := by
  -- a new grant is of the current epoch, whose grants are all the holder's
  have current : ∀ {h₁ h₂ : H} {t₁ t₂ : ℤ}, Event.granted h₁ e t₁ ∈ seen →
      Event.granted h₂ e t₂ ∈ history ++ seen → h₁ = h₂ := by
    intro h₁ h₂ t₁ t₂ hnew hany
    obtain ⟨l', hl', he, hholder⟩ := hstep.granted_mem hnew
    obtain ⟨l, hl, -, hcur⟩ := hf.below_step hstep h₂ e t₂ hany
    cases hl'.symm.trans hl
    exact some.inj (hholder.symm.trans (hcur he.symm))
  rcases mem_append.mp hmem with hold | hnew
  · rcases mem_append.mp hmem' with hold' | hnew'
    · exact hf.agree h h' e time time' hold hold'
    · exact (current hnew' hmem).symm
  · exact current hnew hmem'

lemma Fenced.held_step (l' : Lease H) (h : H) (hl' : s' = some l') (hh : l'.holder = some h) :
    ∃ before time after, history ++ seen = before ++ Event.granted h l'.epoch time :: after ∧
      Undisturbed h l'.epoch after ∧ l'.expiresAt = lastExtension time after + ttl := by
  have fresh : ∀ time, Undisturbed h l'.epoch [] ∧
      time + ttl = lastExtension time ([] : List (Event H)) + ttl :=
    fun time => ⟨by simp [Undisturbed], rfl⟩
  cases hstep with
  | keep =>
    rw [append_nil]
    exact hf.held l' h hl' hh
  | opened time | released l₀ h₀ time own =>
    cases hl'
    simp at hh
  | first h₀ time | takeover l₀ h₀ time free | again l₀ h₀ time own =>
    cases hl'
    cases hh
    exact ⟨history, time, [], rfl, fresh time⟩
  | renewed l₀ h₀ time own =>
    cases hl'
    cases hh
    obtain ⟨before, time', after, heq, hund, hexp⟩ :=
      hf.held_append [.renewed time] rfl own (by simp [Undisturbed])
    exact ⟨before, time', after, heq, hund, by rw [← hexp]; rfl⟩
  | missed _ h₀ e other =>
    obtain ⟨before, time', after, heq, hund, hexp⟩ := hf.held_append [.released h₀ e] hl' hh (by
        refine ⟨by simp, ?_⟩
        intro hmem
        obtain ⟨rfl, rfl⟩ := Event.released.inj (mem_singleton.mp hmem)
        exact other l' hl' hh rfl)
    exact ⟨before, time', after, heq, hund, by rw [← hexp]; simp [lastExtension]⟩

lemma Fenced.lost_step (h : H) (e : ℤ)
    (hlost : Lost h e (history ++ seen)) : ∃ l, s' = some l ∧ e < l.epoch := by
  rcases lost_append h e hlost hstep.length_le with hold | ⟨⟨time, hgrant⟩, hnew⟩
  · obtain ⟨l, hl, hlt⟩ := hf.lost h e hold
    obtain ⟨l', hl', hmono⟩ := hstep.epoch_mono hl
    exact ⟨l', hl', lt_of_lt_of_le hlt hmono⟩
  obtain ⟨l, hl, hle, hcur⟩ := hf.below h e time hgrant
  cases hstep with
  | keep | renewed => simp at hnew
  | opened => simp at hl
  | first => simp at hl
  | takeover l₀ h₀ time₀ free | released l₀ h₀ time₀ own =>
    cases hl
    exact ⟨_, rfl, by simpa using Int.lt_add_one_of_le hle⟩
  | again l₀ h₀ time₀ own =>
    cases hl
    refine ⟨_, rfl, lt_of_le_of_ne hle ?_⟩
    intro he
    -- the holder asked again, and the epoch being current it is `h`
    simp only [mem_singleton, reduceCtorEq, false_or] at hnew
    obtain ⟨h', e', time', ⟨rfl, -, -⟩, hne⟩ := hnew
    exact hne (some.inj (own.symm.trans (hcur he)))
  | missed _ h₀ e₀ other =>
    refine ⟨l, hl, lt_of_le_of_ne hle ?_⟩
    intro he
    simp only [mem_singleton, reduceCtorEq, Event.released.injEq, false_and, exists_false,
      or_false] at hnew
    exact other l hl (hnew.1 ▸ hcur he) (hnew.2 ▸ he.symm)

/-- **Fencing.**  Every step of the design keeps the history's account of the lease. -/
theorem Fenced.step : Fenced ttl (history ++ seen) s' where
  below := hf.below_step hstep
  agree := hf.agree_step hstep
  held := hf.held_step hstep
  lost := hf.lost_step hstep

end Fenced

end Fencing
