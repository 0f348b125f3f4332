import Mathlib.Tactic

/-!
# Runs

A run of a system is the list of calls made to it, in any order and with any arguments; the
state is what folding the calls over the initial state gives.  What has *happened* in a run is
a statement about a call and the state it found (`Occurs`, and `Since` for what has held from then
on), so a history needs no ghost fields in the state: it is read off the run itself.

`run_invariant` is the induction every safety result goes through: what holds at the start and
is kept by one more call holds after every run.  Its invariant may mention the run so far, and
`run_invariant_of_meets` is the form for runs whose calls are all made under a condition.
-/

namespace DocStore

open List

variable {σ ι : Type} (step : σ → ι → σ) (init : σ)

/-- The state after a run. -/
def run (calls : List ι) : σ := calls.foldl step init

/-- Some call of the run found a state in which `P` held of it. -/
def Occurs (P : σ → ι → Prop) (calls : List ι) : Prop :=
  ∃ before c after, calls = before ++ c :: after ∧ P (run step init before) c

/-- What an observer who notes some of the calls, with the state each one found, has noted. -/
def trace {ε : Type} (observe : σ → ι → List ε) : σ → List ι → List ε
  | _, [] => []
  | s, c :: calls => observe s c ++ trace observe (step s c) calls

/-- Every call of the run found a state in which `P` held of it. -/
def Meets (P : σ → ι → Prop) (calls : List ι) : Prop :=
  ∀ before c after, calls = before ++ c :: after → P (run step init before) c

/-- `P` held of some call, and `Q` of every call since. -/
def Since (P Q : σ → ι → Prop) (calls : List ι) : Prop :=
  ∃ before c after, calls = before ++ c :: after ∧ P (run step init before) c ∧
    Meets step (step (run step init before) c) Q after

variable {step init} {P Q : σ → ι → Prop} {calls : List ι} {c : ι}

@[simp] lemma run_nil : run step init [] = init := rfl

@[simp] lemma run_snoc : run step init (calls ++ [c]) = step (run step init calls) c := by
  simp [run]

lemma run_append (l l' : List ι) : run step init (l ++ l') = run step (run step init l) l' := by
  simp [run]

lemma trace_snoc {ε : Type} {observe : σ → ι → List ε} : trace step observe init (calls ++ [c])
      = trace step observe init calls ++ observe (run step init calls) c := by
  induction calls generalizing init with
  | nil => simp [trace]
  | cons d calls ih =>
    rw [cons_append, trace, trace, ih, append_assoc]
    rfl

/-- A call of a run with one more call is a call of the run, or the new one. -/
lemma snoc_split {before after : List ι} {d : ι} (h : calls ++ [c] = before ++ d :: after) :
    (∃ after', calls = before ++ d :: after') ∨ (before = calls ∧ d = c) := by
  induction after using reverseRecOn with
  | nil =>
    obtain ⟨hb, hd⟩ := append_inj' h rfl
    exact .inr ⟨hb.symm, by simpa using hd.symm⟩
  | append_singleton after' e _ =>
    rw [← cons_append, ← append_assoc] at h
    exact .inl ⟨after', (append_inj' h rfl).1⟩

lemma Occurs.imp (h : ∀ s c, P s c → Q s c) : Occurs step init P calls → Occurs step init Q calls :=
  fun ⟨before, c, after, hc, hP⟩ => ⟨before, c, after, hc, h _ _ hP⟩

lemma meets_nil : Meets step init P [] := by
  intro before c after h
  simp at h

lemma meets_snoc :
    Meets step init P (calls ++ [c]) ↔ Meets step init P calls ∧ P (run step init calls) c := by
  constructor
  · intro h
    exact ⟨fun before d after hd => h before d (after ++ [c]) (by simp [hd]), h calls c [] rfl⟩
  · rintro ⟨h, hc⟩ before d after hd
    rcases snoc_split hd with ⟨after', h'⟩ | ⟨rfl, rfl⟩
    · exact h before d after' h'
    · exact hc

lemma forall_split_cons {R : List ι → ι → Prop} :
    (∀ before d after, c :: calls = before ++ d :: after → R before d) ↔
      R [] c ∧ ∀ before d after, calls = before ++ d :: after → R (c :: before) d := by
  constructor
  · intro h
    exact ⟨h [] c calls rfl, fun before d after hd => h (c :: before) d after (by simp [hd])⟩
  rintro ⟨hc, h⟩ before d after hd
  cases before with
  | nil =>
    obtain ⟨rfl, -⟩ := cons.inj hd
    exact hc
  | cons e before =>
    obtain ⟨rfl, hrest⟩ := cons.inj hd
    exact h before d after hrest

lemma meets_cons {calls : List ι} :
    Meets step init P (c :: calls) ↔ P init c ∧ Meets step (step init c) P calls :=
  forall_split_cons

/-- Something occurs in a run unless every call avoids it. -/
lemma occurs_iff : Occurs step init P calls ↔ ¬ Meets step init (fun s c => ¬ P s c) calls := by
  simp [Occurs, Meets]

lemma occurs_snoc :
    Occurs step init P (calls ++ [c]) ↔ Occurs step init P calls ∨ P (run step init calls) c := by
  rw [occurs_iff, meets_snoc, not_and_or, not_not, ← occurs_iff]

lemma occurs_nil : ¬ Occurs step init P [] := fun h => occurs_iff.mp h meets_nil

/-- On a given run a decidable condition can be checked call by call. -/
instance decidableMeets [∀ s c, Decidable (P s c)] :
    ∀ (init : σ) (calls : List ι), Decidable (Meets step init P calls)
  | _, [] => isTrue meets_nil
  | init, c :: calls =>
    have := decidableMeets (step init c) calls
    decidable_of_iff _ meets_cons.symm

instance decidableOccurs [∀ s c, Decidable (P s c)] : Decidable (Occurs step init P calls) :=
  decidable_of_iff _ occurs_iff.symm

/-- What has held since a call holds since it or begins with the last call. -/
lemma since_snoc : Since step init P Q (calls ++ [c]) ↔
      P (run step init calls) c ∨ Since step init P Q calls ∧ Q (run step init calls) c := by
  constructor
  · rintro ⟨before, d, after, h, hP, hQ⟩
    induction after using reverseRecOn with
    | nil =>
      obtain ⟨hb, hd⟩ := append_inj' h rfl
      obtain rfl : c = d := by simpa using hd
      exact .inl (hb ▸ hP)
    | append_singleton after e _ =>
      rw [← cons_append, ← append_assoc] at h
      obtain ⟨rfl, he⟩ := append_inj' h rfl
      obtain rfl : c = e := by simpa using he
      obtain ⟨hQ, hlast⟩ := meets_snoc.mp hQ
      refine .inr ⟨⟨before, d, after, rfl, hP, hQ⟩, ?_⟩
      rwa [run_append]
  · rintro (hP | ⟨⟨before, d, after, rfl, hP, hQ⟩, hlast⟩)
    · exact ⟨calls, c, [], rfl, hP, meets_nil⟩
    · refine ⟨before, d, after ++ [c], by simp, hP, meets_snoc.mpr ⟨hQ, ?_⟩⟩
      rwa [run_append] at hlast

lemma Since.imp {P' Q' : σ → ι → Prop} (hP : ∀ s c, P s c → P' s c) (hQ : ∀ s c, Q s c → Q' s c) :
    Since step init P Q calls → Since step init P' Q' calls :=
  fun ⟨before, c, after, hc, hc', hafter⟩ =>
    ⟨before, c, after, hc, hP _ _ hc', fun l d l' hd => hQ _ _ (hafter l d l' hd)⟩

lemma since_cons : Since step init P Q (c :: calls) ↔
      P init c ∧ Meets step (step init c) Q calls ∨ Since step (step init c) P Q calls := by
  constructor
  · rintro ⟨before, d, after, h, hP, hQ⟩
    cases before with
    | nil =>
      obtain ⟨rfl, rfl⟩ := cons.inj h
      exact .inl ⟨hP, hQ⟩
    | cons e before =>
      obtain ⟨rfl, hrest⟩ := cons.inj h
      exact .inr ⟨before, d, after, hrest, hP, hQ⟩
  · rintro (⟨hP, hQ⟩ | ⟨before, d, after, h, hP, hQ⟩)
    · exact ⟨[], c, calls, rfl, hP, hQ⟩
    · exact ⟨c :: before, d, after, by simp [h], hP, hQ⟩

instance decidableSince [∀ s c, Decidable (P s c)] [∀ s c, Decidable (Q s c)] :
    ∀ (init : σ) (calls : List ι), Decidable (Since step init P Q calls)
  | _, [] => isFalse fun ⟨before, c, after, h, _⟩ => by simp at h
  | init, c :: calls =>
    have := decidableSince (step init c) calls
    decidable_of_iff _ since_cons.symm

/-- A condition on every call of a run, given the calls before it. -/
instance decidableSplits : ∀ (R : List ι → ι → Prop) [∀ l c, Decidable (R l c)] (calls : List ι),
      Decidable (∀ before c after, calls = before ++ c :: after → R before c)
  | _, _, [] => isTrue fun before c after h => by simp at h
  | R, _, c :: calls =>
    have := decidableSplits (fun before => R (c :: before)) calls
    decidable_of_iff _ forall_split_cons.symm

lemma Meets.left {l r : List ι} (h : Meets step init P (l ++ r)) : Meets step init P l :=
  fun before d after hd => h before d (after ++ r) (by simp [hd])

lemma Meets.right {l r : List ι} (h : Meets step init P (l ++ r)) :
    Meets step (run step init l) P r := by
  intro before d after hd
  have hat := h (l ++ before) d after (by rw [hd, append_assoc])
  rwa [run_append] at hat

/-- The invariant rule for runs all of whose calls are made under a condition. -/
lemma run_invariant_of_meets (Inv : List ι → σ → Prop) (h0 : Inv [] init)
    (hstep : ∀ calls c, Inv calls (run step init calls) → P (run step init calls) c →
      Inv (calls ++ [c]) (step (run step init calls) c)) (calls : List ι)
    (hcalls : Meets step init P calls) : Inv calls (run step init calls) := by
  induction calls using reverseRecOn with
  | nil => exact h0
  | append_singleton calls c ih =>
    obtain ⟨hcalls, hc⟩ := meets_snoc.mp hcalls
    rw [run_snoc]
    exact hstep calls c (ih hcalls) hc

/-- **The invariant rule.**  The invariant may mention the run that led to the state. -/
theorem run_invariant (Inv : List ι → σ → Prop) (h0 : Inv [] init)
    (hstep : ∀ calls c, Inv calls (run step init calls) →
      Inv (calls ++ [c]) (step (run step init calls) c)) (calls : List ι) :
    Inv calls (run step init calls) :=
  run_invariant_of_meets (P := fun _ _ => True) Inv h0 (fun calls c h _ => hstep calls c h) calls
    fun _ _ _ _ => trivial

end DocStore
