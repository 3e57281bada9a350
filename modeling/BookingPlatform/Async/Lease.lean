import BookingPlatform.Async.Rely

/-! Requests whose contracts lean on each other, and locks that can be lost. A request that finds its token still in
the lock has been alone with what the lock guards ever since it took it. -/
namespace Async
variable {ι γ σ ε ν α κ τ : Type}

/-! ### Contracts that lean on each other -/

/-- A step within one contract, where the run has granted what it grants at a commit, is one that the others rely on. -/
structure Compatible (C : ι → Contract γ σ ν) (granted : List ν → σ → Prop) (K : ι → σ → σ → Prop) : Prop where
  refl : ∀ i s, K i s s
  auto : ∀ {i ns s s'}, (C i).auto ns s s' → K i s s'
  commit : ∀ {i ns s s'}, granted ns s → (C i).commit ns s s' → K i s s'
  rely : ∀ {i j s s'}, i ≠ j → K i s s' → (C j).rely s s'

section parallel
variable [DecidableEq ι] {allowed : Config ι γ σ ε ν α → ι → γ → Prop} {p : ι → Prog γ σ ε ν α} {s₀ : σ}
  {C : ι → Contract γ σ ν} {Q : ι → Post σ ε ν α} {K : ι → σ → σ → Prop} {granted : List ν → σ → Prop}
  {c : Config ι γ σ ε ν α} {past : List (ι × σ)}

/-- Requests whose contracts are compatible keep them against each other. -/
theorem Run.parallel (hK : Compatible C granted K) (howes : ∀ i, wp (C i) (Q i) (p i) none [] s₀ s₀)
    (henv : ∀ {c i g}, allowed c i g → (C i).env g c.store)
    (hgrant : ∀ {c i g}, allowed c i g → (c.thread i).Committing → granted (c.thread i).notes c.store)
    (hc : Run allowed (.start p s₀) c past) : (∀ x ∈ steps past c.store, K x.1 x.2.1 x.2.2) ∧
      ∀ i, ∃ s s', (c.thread i).Obeys (C i) (Q i) s s' ∧ (C i).rely s' c.store := by
  induction hc with
  | refl => exact ⟨by simp [steps], fun i => ⟨s₀, s₀, (Thread.settle_obeys (howes i)).2, (C i).rely_refl _⟩⟩
  | @step c past j g _ ha ih =>
    obtain ⟨hsteps, hthreads⟩ := ih
    obtain ⟨s, s', hj, hs'⟩ := hthreads j
    obtain ⟨-, hgo, hdone⟩ := hj.step (henv ha) hs'
    have hstep : K j c.store (c.step j g).store := by
      rw [Config.step_store]
      rcases hj.step_store (henv ha) hs' with ⟨hcommitting, hcommit | hsame⟩ | hauto
      · exact hK.commit (hgrant ha hcommitting) hcommit
      · rw [hsame]
        exact hK.refl j c.store
      · exact hK.auto hauto
    refine ⟨fun x hx => ?_, fun i => ?_⟩
    · rcases List.mem_cons.mp hx with rfl | hx
      · exact hstep
      · exact hsteps x hx
    by_cases hi : i = j
    · subst i
      rw [Config.step_thread_self]
      cases hres : (c.thread j).result with
      | none => exact ⟨_, _, hgo hres, (C j).rely_refl _⟩
      | some r =>
        rw [Config.step_store, hdone (by simp [hres])]
        exact ⟨s, s', hj, hs'⟩
    · rw [Config.step_thread_other hi]
      obtain ⟨s, s', hobeys, hs'⟩ := hthreads i
      exact ⟨s, s', hobeys, (C i).rely_trans hs' (hK.rely (Ne.symm hi) hstep)⟩

/-- What every step keeps holds at the end if it held at the start. -/
theorem Run.steps_keep {P : σ → Prop} (hc : Run allowed (.start p s₀) c past)
    (hkeep : ∀ x ∈ steps past c.store, P x.2.1 → P x.2.2) (h₀ : P s₀) : P c.store := by
  induction hc with
  | refl => exact h₀
  | @step c past i g _ _ ih =>
    exact hkeep (i, c.store, _) List.mem_cons_self (ih fun x hx => hkeep x (List.mem_cons_of_mem _ hx))

end parallel

/-! ### Leases -/

/-- Locks that are held with a token, and what is left alone under each of them. -/
structure Leases (σ κ τ : Type) where
  held : κ → τ → σ → Prop
  stays : κ → σ → σ → Prop
  unique : ∀ {k t t' s}, held k t s → held k t' s → t = t'
  stays_refl : ∀ k s, stays k s s
  stays_trans : ∀ {k s s' s''}, stays k s s' → stays k s' s'' → stays k s s''

namespace Leases
variable {L : Leases σ κ τ} {mine mine' : τ → Prop} {s s' s'' : σ} {k : κ} {t : τ}

/-- What a request does to the locks: it changes what is guarded only under a lock of its own, it takes no token of
others, and it takes no lock of others away but to hold it itself. -/
structure Spares (L : Leases σ κ τ) (mine : τ → Prop) (s s' : σ) : Prop where
  stays : ∀ k, L.stays k s s' ∨ ∃ t, mine t ∧ L.held k t s
  old : ∀ k t, ¬ mine t → L.held k t s' → L.held k t s
  lost : ∀ k t, ¬ mine t → L.held k t s → L.held k t s' ∨ ∃ t', mine t' ∧ L.held k t' s'

/-- What a request relies on for its own locks. -/
def Trusts (L : Leases σ κ τ) (mine : τ → Prop) (s s' : σ) : Prop :=
  ∀ k t, mine t → L.held k t s' → L.held k t s ∧ L.stays k s s'

theorem Trusts.refl (s : σ) : L.Trusts mine s s := fun k _ _ hheld => ⟨hheld, L.stays_refl k s⟩

theorem Trusts.trans (h : L.Trusts mine s s') (h' : L.Trusts mine s' s'') : L.Trusts mine s s'' := by
  intro k t ht hheld
  obtain ⟨hheld', hstays'⟩ := h' k t ht hheld
  obtain ⟨hheld, hstays⟩ := h k t ht hheld'
  exact ⟨hheld, L.stays_trans hstays hstays'⟩

/-- What is under a lock of mine is not under one of theirs. -/
theorem Spares.trusts (h : L.Spares mine s s') (hother : ∀ t, mine' t → ¬ mine t) : L.Trusts mine' s s' := by
  intro k t ht hheld
  have hheld := h.old k t (hother t ht) hheld
  refine ⟨hheld, ?_⟩
  rcases h.stays k with hstays | ⟨t', ht', hheld'⟩
  · exact hstays
  · exact absurd (L.unique hheld' hheld ▸ ht') (hother t ht)

theorem Spares.refl (s : σ) : L.Spares mine s s := ⟨fun k => .inl (L.stays_refl k s), fun _ _ _ h => h, fun _ _ _ => .inl⟩

/-- A step that leaves the locks as they are. -/
theorem Spares.of_same (hsame : ∀ k t, L.held k t s' ↔ L.held k t s)
    (hstays : ∀ k, L.stays k s s' ∨ ∃ t, mine t ∧ L.held k t s) : L.Spares mine s s' :=
  ⟨hstays, fun k t _ => (hsame k t).mp, fun k t _ hheld => .inl ((hsame k t).mpr hheld)⟩

/-- What was found under a lock is still so as long as the lock is there. -/
theorem Trusts.under {P : σ → Prop} (h : L.Trusts mine s s') (ht : mine t) (hP : ∀ s s', L.stays k s s' → P s → P s')
    (hs : L.held k t s → P s) (hheld : L.held k t s') : P s' := by
  obtain ⟨hheld, hstays⟩ := h k t ht hheld
  exact hP s s' hstays (hs hheld)

/-- The contract of a request that draws its tokens from these; `G` is what everybody keeps to. -/
def contract (L : Leases σ κ τ) (mine : τ → Prop) (draw : γ → τ) (granted : List ν → σ → Prop)
    (G : σ → σ → Prop) (hrefl : ∀ s, G s s) (htrans : ∀ s s' s'', G s s' → G s' s'' → G s s'') : Contract γ σ ν where
  env g _ := mine (draw g)
  rely s s' := L.Trusts mine s s' ∧ G s s'
  rely_refl s := ⟨.refl s, hrefl s⟩
  rely_trans h h' := ⟨h.1.trans h'.1, htrans _ _ _ h.2 h'.2⟩
  note _ _ _ _ := True
  auto _ s s' := L.Spares mine s s' ∧ G s s'
  commit ns s s' := granted ns s → L.Spares mine s s' ∧ G s s'
  read _ s := ⟨.refl s, hrefl s⟩

variable {own : ι → τ → Prop} {draw : γ → τ} {granted : List ν → σ → Prop} {G : σ → σ → Prop}
  {hrefl : ∀ s, G s s} {htrans : ∀ s s' s'', G s s' → G s' s'' → G s s''}

theorem compatible (hown : ∀ i j t, own i t → own j t → i = j) :
    Compatible (fun i => L.contract (own i) draw granted G hrefl htrans) granted
      fun i s s' => L.Spares (own i) s s' ∧ G s s' where
  refl _ s := ⟨.refl s, hrefl s⟩
  auto h := h
  commit hgranted h := h hgranted
  rely hij h := ⟨h.1.trusts fun t hj hi => hij (hown _ _ t hi hj), h.2⟩

/-- Requests that draw different tokens spare each other's locks, if each commits only where the run grants it. -/
theorem spared [DecidableEq ι] {p : ι → Prog γ σ ε ν α} {s₀ : σ} {c : Config ι γ σ ε ν α} {past : List (ι × σ)}
    (hown : ∀ i j t, own i t → own j t → i = j)
    (howes : ∀ i, wp (L.contract (own i) draw granted G hrefl htrans) anyway (p i) none [] s₀ s₀)
    (hc : Run (fun c i g => own i (draw g) ∧ ((c.thread i).Committing → granted (c.thread i).notes c.store))
      (.start p s₀) c past) : ∀ x ∈ steps past c.store, L.Spares (own x.1) x.2.1 x.2.2 ∧ G x.2.1 x.2.2 :=
  (Run.parallel (compatible hown) howes (fun ha => ha.1) (fun ha => ha.2) hc).1

end Leases
end Async
