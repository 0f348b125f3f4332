import Mathlib.Tactic

/-!
# Transactions

A mutation is a function into `Except ε`: it either commits a new state or throws, and a thrown
mutation changes nothing (`commit`).  Two rules carry every proof about such functions.

* **Sequencing** — `bind_ok` takes a committed `do` block apart one
  statement at a time, so that no proof unfolds the monad.
* **Loops** — `foldlM_rule` is the invariant rule for a loop that may throw.  The invariant sees
  the rows still to come, because what a loop needs is usually "the rows not yet visited are as
  they were when the loop started".
-/

namespace DocStore

open List

variable {α β ε σ : Type}

variable {x : Except ε α} {f : α → Except ε β} {b : β} {l : List α} {l' : List β}

/-- A committed bind is two committed halves. -/
lemma bind_ok : (x >>= f) = .ok b ↔ ∃ a, x = .ok a ∧ f a = .ok b := by
  cases x with
  | error e | ok a => simp [Bind.bind, Except.bind]

variable {a : α} {condition : Prop} {error : α → ε} {found : Option α} {P : σ → Prop}

@[simp] lemma ok_bind {f : α → Except ε β} : (Except.ok a >>= f) = f a := rfl

lemma pure_ok {b : α} : (pure a : Except ε α) = .ok b ↔ a = b := by
  simp [Pure.pure, Except.pure]

lemma map_ok {f : α → β} : x.map f = .ok b ↔ ∃ a, x = .ok a ∧ f a = b := by
  cases x with
  | error e | ok a => simp [Except.map]

lemma map_snd_ok {x : Except ε (α × β)} : x.map Prod.snd = .ok b ↔ ∃ a, x = .ok (a, b) := by
  simp [map_ok]

lemma map_of_bind {γ : Type} {g : β → γ} : (x >>= f).map g = x >>= fun a => (f a).map g := by
  cases x <;> rfl

lemma throw_ne_ok {e : ε} {b : α} : (throw e : Except ε α) ≠ .ok b := by
  simp

/-- A check that ends the function with an error. -/
def refuseIf (condition : Prop) [Decidable condition] (error : ε) : Except ε Unit :=
  if condition then throw error else pure ()

/-- A check that ends the function with an error about what it found. -/
def refuseSome (found : Option α) (error : α → ε) : Except ε Unit :=
  match found with
  | none => pure ()
  | some a => throw (error a)

lemma refuseIf_ok [Decidable condition] {error : ε} :
    refuseIf condition error = .ok () ↔ ¬condition := by
  unfold refuseIf
  split <;> simp_all [pure_ok]

lemma refuseSome_ok : refuseSome found error = .ok () ↔ found = none := by
  cases found <;> simp [refuseSome, pure_ok]

lemma refuseIf_bind_ok [Decidable condition] {error : ε} {f : Unit → Except ε β} :
    (refuseIf condition error >>= f) = .ok b ↔ ¬condition ∧ f () = .ok b := by
  rw [bind_ok, Unique.exists_iff]
  exact and_congr_left' refuseIf_ok

lemma refuseSome_bind_ok {f : Unit → Except ε β} :
    (refuseSome found error >>= f) = .ok b ↔ found = none ∧ f () = .ok b := by
  rw [bind_ok, Unique.exists_iff]
  exact and_congr_left' refuseSome_ok

lemma forM_bind_ok {f : α → Except ε Unit} {g : Unit → Except ε β} :
    (l.forM f >>= g) = .ok b ↔ (∀ a ∈ l, f a = .ok ()) ∧ g () = .ok b := by
  rw [bind_ok, Unique.exists_iff]
  refine and_congr_left' ?_
  induction l with
  | nil => simp [pure_ok]
  | cons a l ih => rw [List.forM, bind_ok, Unique.exists_iff, forall_mem_cons, ih]

/-- A loop that answers a row for every row answers each of them. -/
lemma mapM_ok : l.mapM f = .ok l' ↔ List.Forall₂ (fun a b => f a = .ok b) l l' := by
  induction l generalizing l' with
  | nil =>
    rw [mapM_nil, pure_ok, forall₂_nil_left_iff]
    exact eq_comm
  | cons a l ih =>
    rw [mapM_cons, bind_ok, forall₂_cons_left_iff]
    constructor
    · rintro ⟨b, hb, h⟩
      rcases bind_ok.mp h with ⟨l', hl', h⟩
      exact ⟨b, l', hb, ih.mp hl', (pure_ok.mp h).symm⟩
    · rintro ⟨b, l', hb, hl', rfl⟩
      exact ⟨b, hb, bind_ok.mpr ⟨l', ih.mpr hl', rfl⟩⟩

lemma mapM_congr {g : α → Except ε β} (h : ∀ a ∈ l, f a = g a) : l.mapM f = l.mapM g := by
  induction l with
  | nil => rfl
  | cons a l ih =>
    rw [forall_mem_cons] at h
    rw [mapM_cons, mapM_cons, h.1, ih h.2]

/-- What the database holds after a mutation: the new state, or the old one when it threw. -/
def commit (s : σ) (m : Except ε σ) : σ :=
  match m with
  | .ok s' => s'
  | .error _ => s

/-- Whatever holds before and after every committed mutation holds after any mutation. -/
lemma commit_rule {s : σ} {m : Except ε σ} (h0 : P s)
    (h : ∀ s', m = .ok s' → P s') : P (commit s m) := by
  cases m with
  | error e => exact h0
  | ok s' => exact h s' rfl

/-- The loop rule: `P rest s` is the invariant with the rows `rest` still to be visited. -/
lemma foldlM_rule {f : σ → α → Except ε σ} (P : List α → σ → Prop)
    (hstep : ∀ a rest s s', P (a :: rest) s → f s a = .ok s' → P rest s') :
    ∀ {l : List α} {s s' : σ}, P l s → l.foldlM f s = .ok s' → P [] s'
  | [], s, s', h0, h => by
    rw [foldlM_nil, pure_ok] at h
    exact h ▸ h0
  | a :: l, s, s', h0, h => by
    rw [foldlM_cons] at h
    obtain ⟨s₁, h₁, h₂⟩ := bind_ok.mp h
    exact foldlM_rule P hstep (hstep a l s s₁ h0 h₁) h₂

/-- The loop rule for an invariant that does not look at the rows to come. -/
lemma foldlM_keeps {f : σ → α → Except ε σ} {s s' : σ}
    (hstep : ∀ a ∈ l, ∀ s s', P s → f s a = .ok s' → P s') (h0 : P s)
    (h : l.foldlM f s = .ok s') : P s' := by
  have key := foldlM_rule (f := f) (fun rest s => (∀ a ∈ rest, a ∈ l) ∧ P s) (fun a rest s s' hP hf =>
      ⟨fun b hb => hP.1 b (mem_cons_of_mem _ hb), hstep a (hP.1 a mem_cons_self) s s' hP.2 hf⟩)
    ⟨fun _ hb => hb, h0⟩ h
  exact key.2

/-- A loop that cannot throw, for the rules of those that can. -/
lemma foldlM_ok (f : σ → α → σ) (s : σ) :
    l.foldlM (fun s a => (Except.ok (f s a) : Except Unit σ)) s = .ok (l.foldl f s) :=
  foldlM_pure

section Each

variable {κ ν : Type} {l : List α} {s₀ s' : σ}
  (view : κ → σ → ν) (owns : α → κ → Prop) (Inv : σ → Prop) (R : κ → ν → ν → Prop)

/-- The loop rule for a loop over rows that each own a part of the state: an iteration acts on the
keys its row owns, by `R`, and finds them as they were before the loop.  So a key is as the one
row that owns it has left it, or as it was. -/
lemma foldlM_owned {f : σ → α → Except ε σ} (R : α → κ → ν → ν → Prop)
    (hdisjoint : l.Pairwise fun a b => ∀ k, owns a k → ¬ owns b k)
    (hstep : ∀ a ∈ l, ∀ s s', Inv s → (∀ k, owns a k → view k s = view k s₀) → f s a = .ok s' →
      Inv s' ∧ (∀ k, owns a k → R a k (view k s) (view k s')) ∧ ∀ k, ¬ owns a k → view k s' = view k s)
    (h0 : Inv s₀) (h : l.foldlM f s₀ = .ok s') :
    Inv s' ∧ (∀ a ∈ l, ∀ k, owns a k → R a k (view k s₀) (view k s')) ∧
      ∀ k, (∀ a ∈ l, ¬ owns a k) → view k s' = view k s₀ := by
  induction l generalizing s₀ with
  | nil =>
    cases h
    exact ⟨h0, nofun, fun _ _ => rfl⟩
  | cons a l ih =>
    rw [foldlM_cons, bind_ok] at h
    obtain ⟨s₁, h₁, h⟩ := h
    obtain ⟨hhead, hrest⟩ := pairwise_cons.mp hdisjoint
    obtain ⟨hinv, hmine, hothers⟩ := hstep a mem_cons_self s₀ s₁ h0 (fun _ _ => rfl) h₁
    -- the rows to come find what they own as it was before this one
    have hkeep : ∀ b ∈ l, ∀ k, owns b k → view k s₁ = view k s₀ :=
      fun b hb k hk => hothers k fun hak => hhead b hb k hak hk
    obtain ⟨hinv', hin, hout⟩ := ih hrest (fun b hb s s' hs hown =>
      hstep b (mem_cons_of_mem _ hb) s s' hs fun k hk => (hown k hk).trans (hkeep b hb k hk)) hinv h
    refine ⟨hinv', fun b hb k hk => ?_, fun k hk => ?_⟩
    · rcases mem_cons.mp hb with rfl | hb
      · rw [hout k fun c hc hck => hhead c hc k hk hck]
        exact hmine k hk
      · rw [← hkeep b hb k hk]
        exact hin b hb k hk
    · rw [hout k fun b hb => hk b (mem_cons_of_mem _ hb)]
      exact hothers k (hk a mem_cons_self)

/-- The rule for rows that may leave what they own: every key has changed at most once, by `R`. -/
lemma foldlM_each {f : σ → α → Except ε σ}
    (hdisjoint : l.Pairwise fun a b => ∀ k, owns a k → ¬ owns b k)
    (hstep : ∀ a ∈ l, ∀ s s', Inv s → (∀ k, owns a k → view k s = view k s₀) → f s a = .ok s' →
      Inv s' ∧ ∀ k, view k s' = view k s ∨ owns a k ∧ R k (view k s) (view k s'))
    (h0 : Inv s₀) (h : l.foldlM f s₀ = .ok s') :
    Inv s' ∧ ∀ k, view k s' = view k s₀ ∨ (∃ a ∈ l, owns a k) ∧ R k (view k s₀) (view k s') := by
  have hone : ∀ a ∈ l, ∀ s s', Inv s → (∀ k, owns a k → view k s = view k s₀) → f s a = .ok s' →
      Inv s' ∧ (∀ k, owns a k → view k s' = view k s ∨ R k (view k s) (view k s')) ∧
        ∀ k, ¬ owns a k → view k s' = view k s := by
    intro a ha s s' hs hown hf
    obtain ⟨hinv, hview⟩ := hstep a ha s s' hs hown hf
    exact ⟨hinv, fun k _ => (hview k).imp_right And.right,
      fun k hk => (hview k).resolve_right fun hR => hk hR.1⟩
  obtain ⟨hinv, hin, hout⟩ := foldlM_owned view owns Inv (fun _ k v v' => v' = v ∨ R k v v') hdisjoint
    hone h0 h
  refine ⟨hinv, fun k => ?_⟩
  by_cases hk : ∃ a ∈ l, owns a k
  · obtain ⟨a, ha, hak⟩ := hk
    exact (hin a ha k hak).imp_right fun hR => ⟨⟨a, ha, hak⟩, hR⟩
  · exact .inl (hout k fun a ha hak => hk ⟨a, ha, hak⟩)

end Each

/-- The loop rule for a loop over the rows of a table: an iteration writes no row but its own, so
each finds its row as it was listed. -/
lemma foldlM_rows {κ β : Type} (get : σ → κ → Option β) (Inv : σ → Prop)
    {f : σ → κ × β → Except ε σ} {l : List (κ × β)} {s₀ s' : σ} (h : l.foldlM f s₀ = .ok s')
    (hdistinct : l.Pairwise fun r s => r.1 ≠ s.1) (hrows : ∀ r ∈ l, get s₀ r.1 = some r.2)
    (h0 : Inv s₀) (hstep : ∀ r ∈ l, ∀ s s', Inv s → get s r.1 = some r.2 → f s r = .ok s' →
      Inv s' ∧ ∀ i, i ≠ r.1 → get s' i = get s i) : Inv s' := by
  refine (foldlM_owned (fun i s => get s i) (fun r i => r.1 = i) Inv (fun _ _ _ _ => True)
    (hdistinct.imp fun hne k hk hk' => hne (hk.trans hk'.symm)) ?_ h0 h).1
  intro r hr s s' hinv hown hf
  obtain ⟨hinv', hothers⟩ := hstep r hr s s' hinv ((hown r.1 rfl).trans (hrows r hr)) hf
  exact ⟨hinv', fun _ _ => trivial, fun i hi => hothers i (Ne.symm hi)⟩

/-- What no iteration changes, the loop does not change. -/
lemma foldl_frame {f : σ → α → σ} (g : σ → β) (h : ∀ s a, g (f s a) = g s) (l : List α) (s : σ) :
    g (l.foldl f s) = g s := by
  induction l generalizing s with
  | nil => rfl
  | cons a l ih => rw [foldl_cons, ih, h]

end DocStore
