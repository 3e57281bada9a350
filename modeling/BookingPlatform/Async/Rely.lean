import BookingPlatform.Async.Frame
import BookingPlatform.Async.Runs

/-! Requests that run against each other and rely on each other: every step of each of them is
one that the others allow for. -/
namespace Async
variable {ι γ σ ε ν α : Type}

/-- Every change of the store is within a preorder, on which everybody relies. -/
def Contract.keeping (G : σ → σ → Prop) (hrefl : ∀ s, G s s)
    (htrans : ∀ s s' s'', G s s' → G s' s'' → G s s'') : Contract γ σ ν where
  env _ _ := True
  rely := G
  rely_refl := hrefl
  rely_trans {s s' s''} := htrans s s' s''
  note _ _ _ _ := True
  auto _ := G
  commit _ := G
  read _ := hrefl

/-- Every change of the store is within `G`, whatever the others do. -/
def Contract.doing (G : σ → σ → Prop) (hrefl : ∀ s, G s s) : Contract γ σ ν where
  env _ _ := True
  rely _ _ := True
  rely_refl _ := trivial
  rely_trans _ _ := trivial
  note _ _ _ _ := True
  auto _ := G
  commit _ := G
  read _ := hrefl

theorem Within.doing {N : ν → Prop} {G : σ → σ → Prop} {hrefl : ∀ s, G s s}
    (htrans : ∀ s s' s'', G s s' → G s' s'' → G s s'') {p : Prog γ σ ε ν α} {s : σ} (h : Within G N true p) :
    Async.wp (.doing G hrefl) anyway p none [] s s :=
  h.wp hrefl htrans (fun _ _ _ h => h) (fun _ _ _ h => h) fun _ _ _ _ _ => trivial

/-- What two contracts ask for, under what both assume. -/
def Contract.both (C D : Contract γ σ ν) : Contract γ σ ν where
  env g s := C.env g s ∧ D.env g s
  rely s s' := C.rely s s' ∧ D.rely s s'
  rely_refl s := ⟨C.rely_refl s, D.rely_refl s⟩
  rely_trans h h' := ⟨C.rely_trans h.1 h'.1, D.rely_trans h.2 h'.2⟩
  note ns x s s' := C.note ns x s s' ∧ D.note ns x s s'
  auto ns s s' := C.auto ns s s' ∧ D.auto ns s s'
  commit ns s s' := C.commit ns s s' ∧ D.commit ns s s'
  read ns s := ⟨C.read ns s, D.read ns s⟩

section both
variable {C D : Contract γ σ ν} {Q R : Post σ ε ν α} {p : Prog γ σ ε ν α} {w : Option (σ → Except ε σ)}
  {ns : List ν} {s₀ s : σ}

/-- A program that keeps two contracts keeps both at once. -/
theorem wp_both (h : wp C Q p w ns s₀ s) (h' : wp D R p w ns s₀ s) :
    wp (C.both D) (fun r w ns s₀ s => Q r w ns s₀ s ∧ R r w ns s₀ s) p w ns s₀ s := by
  induction p generalizing w ns s₀ s with
  | done r => exact ⟨h, h'⟩
  | note x p ih => exact ⟨⟨h.1, h'.1⟩, ih h.2 h'.2⟩
  | call f p hf ihp ihh =>
    cases w with
    | none =>
      intro g s₁ hg hr
      obtain ⟨hok, herr⟩ := h g s₁ hg.1 hr.1
      obtain ⟨hok', herr'⟩ := h' g s₁ hg.2 hr.2
      refine ⟨fun s₂ hs => ?_, fun e he => ihh _ (herr e he) (herr' e he)⟩
      exact ⟨⟨(hok s₂ hs).1, (hok' s₂ hs).1⟩, ihp _ _ (hok s₂ hs).2 (hok' s₂ hs).2⟩
    | some w =>
      intro g s₁ hg hr
      obtain ⟨hok, herr⟩ := h g s₁ hg.1 hr.1
      obtain ⟨hok', herr'⟩ := h' g s₁ hg.2 hr.2
      exact ⟨fun v v' hv hv' => ihp _ _ (hok v v' hv hv') (hok' v v' hv hv'),
        fun e he => ihh _ (herr e he) (herr' e he)⟩
  | begin p ih => exact fun s₁ hr => ih (h s₁ hr.1) (h' s₁ hr.2)
  | commit f p hf ihp ihh =>
    intro g s₁ hg hr
    obtain ⟨hok, herr⟩ := h g s₁ hg.1 hr.1
    obtain ⟨hok', herr'⟩ := h' g s₁ hg.2 hr.2
    refine ⟨fun v s₂ hv hs => ?_, fun e he => ihh _ (herr e he) (herr' e he)⟩
    exact ⟨⟨(hok v s₂ hv hs).1, (hok' v s₂ hv hs).1⟩, ihp _ _ (hok v s₂ hv hs).2 (hok' v s₂ hv hs).2⟩
  | rollback p ih => exact fun s₁ hr => ih (h s₁ hr.1) (h' s₁ hr.2)

/-- At a commit the notes held are of the kind that the program takes. -/
theorem wp_given {N : ν → Prop} (hN : ∀ {held x s s'}, C.note held x s s' → N x) (hns : ∀ x ∈ ns, N x)
    (h : wp C Q p w ns s₀ s) : wp (C.given fun ns _ => ∀ x ∈ ns, N x) Q p w ns s₀ s := by
  induction p generalizing w ns s₀ s with
  | done r => exact h
  | note x p ih => exact ⟨h.1, ih (List.forall_mem_cons.mpr ⟨hN h.1, hns⟩) h.2⟩
  | call f p hf ihp ihh =>
    cases w with
    | none =>
      intro g s₁ hg hr
      obtain ⟨hok, herr⟩ := h g s₁ hg hr
      exact ⟨fun s₂ hs => ⟨(hok s₂ hs).1, ihp _ _ hns (hok s₂ hs).2⟩, fun e he => ihh _ hns (herr e he)⟩
    | some w =>
      intro g s₁ hg hr
      obtain ⟨hok, herr⟩ := h g s₁ hg hr
      exact ⟨fun v v' hv hv' => ihp _ _ hns (hok v v' hv hv'), fun e he => ihh _ hns (herr e he)⟩
  | begin p ih => exact fun s₁ hr => ih hns (h s₁ hr)
  | commit f p hf ihp ihh =>
    intro g s₁ hg hr
    obtain ⟨hok, herr⟩ := h g s₁ hg hr
    refine ⟨fun v s₂ hv hs => ?_, fun e he => ihh _ (by simp) (herr e he)⟩
    exact ⟨⟨hns, (hok v s₂ hv hs).1⟩, ihp _ _ (by simp) (hok v s₂ hv hs).2⟩
  | rollback p ih => exact fun s₁ hr => ih (by simp) (h s₁ hr)

end both

variable {G : σ → σ → Prop} {hrefl : ∀ s, G s s} {htrans : ∀ s s' s'', G s s' → G s' s'' → G s s''}

/-- A request that never leaves the preorder needs to rely on nobody. -/
theorem Within.keeping {N : ν → Prop} {p : Prog γ σ ε ν α} {s : σ} (h : Within G N true p) :
    Async.wp (.keeping G hrefl htrans) anyway p none [] s s :=
  h.wp hrefl htrans (fun _ _ _ h => h) (fun _ _ _ h => h) fun _ _ _ _ _ => trivial

/-- What is left of every request keeps to the preorder and ends as `Q` says. -/
def Config.Keeping (G : σ → σ → Prop) (hrefl : ∀ s, G s s)
    (htrans : ∀ s s' s'', G s s' → G s' s'' → G s s'') (Q : ι → Post σ ε ν α)
    (c : Config ι γ σ ε ν α) : Prop :=
  ∀ i, ∃ s s', (c.thread i).Obeys (.keeping G hrefl htrans) (Q i) s s' ∧ G s' c.store

theorem Config.start_keeping {p : ι → Prog γ σ ε ν α} {s₀ : σ} {Q : ι → Post σ ε ν α}
    (howes : ∀ i, wp (.keeping G hrefl htrans) (Q i) (p i) none [] s₀ s₀) :
    (Config.start p s₀).Keeping G hrefl htrans Q :=
  fun i => ⟨s₀, s₀, (Thread.settle_obeys (howes i)).2, hrefl s₀⟩

variable [DecidableEq ι] {allowed allowed' : Config ι γ σ ε ν α → ι → γ → Prop} {p : ι → Prog γ σ ε ν α}
  {s₀ : σ} {c₀ c c' : Config ι γ σ ε ν α} {past past' : List (ι × σ)} {Q : ι → Post σ ε ν α}

theorem Run.keeping (h₀ : c₀.Keeping G hrefl htrans Q) (hc : Run allowed c₀ c past) :
    G c₀.store c.store ∧ c.Keeping G hrefl htrans Q := by
  induction hc with
  | refl => exact ⟨hrefl _, h₀⟩
  | @step c past j g _ ha ih =>
    obtain ⟨hs₀, hthreads⟩ := ih
    obtain ⟨s, s', hj, hs'⟩ := hthreads j
    obtain ⟨hstepped, hgo, hdone⟩ := hj.step (g := g) trivial hs'
    have hstep : G c.store (c.step j g).store := by
      rw [Config.step_store]
      cases hstepped with
      | keep hauto _ => exact hauto
      | clear hcommit _ =>
        rcases hcommit with hcommit | hsame
        · exact hcommit
        · rw [hsame]
          exact hrefl c.store
    refine ⟨htrans _ _ _ hs₀ hstep, fun i => ?_⟩
    by_cases hi : i = j
    · subst i
      rw [Config.step_thread_self]
      cases hres : (c.thread j).result with
      | none => exact ⟨_, _, hgo hres, hrefl _⟩
      | some r =>
        rw [Config.step_store, hdone (by simp [hres])]
        exact ⟨s, s', hj, hs'⟩
    · rw [Config.step_thread_other hi]
      obtain ⟨s, s', hobeys, hs'⟩ := hthreads i
      exact ⟨s, s', hobeys, htrans _ _ _ hs' hstep⟩

/-- Whatever the preorder keeps holds in every run. -/
theorem Run.kept {I : σ → Prop} (howes : ∀ i, wp (.keeping G hrefl htrans) anyway (p i) none [] s₀ s₀)
    (hI : ∀ s s', G s s' → I s → I s') (h₀ : I s₀) (hc : Run allowed (.start p s₀) c past) : I c.store :=
  hI s₀ c.store (Run.keeping (Config.start_keeping howes) hc).1 h₀

omit [DecidableEq ι] in
theorem Config.Keeping.ended (h : c.Keeping G hrefl htrans Q) {i : ι} {r : Except ε α}
    (hr : (c.thread i).result = some r) : ∃ w ns s s', Q i r w ns s s' ∧ G s' c.store := by
  obtain ⟨s, s', hobeys, hs'⟩ := h i
  exact ⟨_, _, s, s', hobeys.ended hr, hs'⟩

/-- A request that has not begun may rely on all that was done before it. -/
theorem Run.keeping_late {i : ι} {R : Post σ ε ν α} {r : Except ε α}
    (howes : ∀ i, wp (.keeping G hrefl htrans) anyway (p i) none [] s₀ s₀)
    (hc : Run allowed (.start p s₀) c past) (hi : c.thread i = .start (p i))
    (hlate : wp (.keeping G hrefl htrans) R (p i) none [] c.store c.store)
    (hc' : Run allowed' c c' past') (hr : (c'.thread i).result = some r) : ∃ w ns s s', R r w ns s s' := by
  have hnow : c.Keeping G hrefl htrans fun j r w ns s s' => j = i → R r w ns s s' := by
    intro j
    by_cases hj : j = i
    · subst j
      rw [hi]
      have howed : wp (.keeping G hrefl htrans) (fun r w ns s s' => i = i → R r w ns s s') (p i) none []
          c.store c.store := wp_mono (fun _ _ _ _ _ h _ => h) hlate
      exact ⟨c.store, c.store, (Thread.settle_obeys howed).2, hrefl _⟩
    · obtain ⟨s, s', hobeys, hs'⟩ := (Run.keeping (Config.start_keeping howes) hc).2 j
      exact ⟨s, s', ⟨hobeys.settled, wp_mono (fun _ _ _ _ _ _ h => absurd h hj) hobeys.owes⟩, hs'⟩
  obtain ⟨w, ns, s, s', hR, -⟩ := (Run.keeping hnow hc').2.ended hr
  exact ⟨w, ns, s, s', hR rfl⟩

/-- As `keeping`, when every store that is met is known to be one of `H`. -/
def Contract.among (G : σ → σ → Prop) (hrefl : ∀ s, G s s)
    (htrans : ∀ s s' s'', G s s' → G s' s'' → G s s'') (H : σ → Prop) : Contract γ σ ν where
  env _ _ := True
  rely s s' := G s s' ∧ (H s → H s')
  rely_refl s := ⟨hrefl s, id⟩
  rely_trans {s s' s''} h h' := ⟨htrans s s' s'' h.1 h'.1, fun hH => h'.2 (h.2 hH)⟩
  note _ _ _ _ := True
  auto _ := G
  commit _ := G
  read _ := hrefl

/-- Everything a run has met is before what it has come to. -/
theorem Run.among {H : σ → Prop} (howes : ∀ i, wp (.among G hrefl htrans H) anyway (p i) none [] s₀ s₀)
    (hc : Run allowed (.start p s₀) c past) (hH : ∀ s ∈ c.store :: past.map Prod.snd, H s) :
    (∀ s ∈ c.store :: past.map Prod.snd, G s c.store) ∧
      ∀ i, ∃ s s', (c.thread i).Obeys (.among G hrefl htrans H) anyway s s' ∧ G s' c.store := by
  induction hc with
  | refl =>
    refine ⟨fun s hs => ?_, fun i => ⟨s₀, s₀, (Thread.settle_obeys (howes i)).2, hrefl s₀⟩⟩
    rw [List.mem_singleton.mp hs]
    exact hrefl s₀
  | @step c past j g _ ha ih =>
    obtain ⟨hpast, hthreads⟩ := ih fun s hs => hH s (List.mem_cons_of_mem _ hs)
    obtain ⟨s, s', hj, hs'⟩ := hthreads j
    have hnow : H c.store := hH _ (List.mem_cons_of_mem _ List.mem_cons_self)
    obtain ⟨hstepped, hgo, hdone⟩ := hj.step (g := g) trivial ⟨hs', fun _ => hnow⟩
    have hstep : G c.store (c.step j g).store := by
      rw [Config.step_store]
      cases hstepped with
      | keep hauto _ => exact hauto
      | clear hcommit _ =>
        rcases hcommit with hcommit | hsame
        · exact hcommit
        · rw [hsame]
          exact hrefl c.store
    refine ⟨fun s hs => ?_, fun i => ?_⟩
    · rcases List.mem_cons.mp hs with rfl | hs
      · exact hrefl _
      · exact htrans _ _ _ (hpast s hs) hstep
    by_cases hi : i = j
    · subst i
      rw [Config.step_thread_self]
      cases hres : (c.thread j).result with
      | none => exact ⟨_, _, hgo hres, hrefl _⟩
      | some r =>
        rw [Config.step_store, hdone (by simp [hres])]
        exact ⟨s, s', hj, hs'⟩
    · rw [Config.step_thread_other hi]
      obtain ⟨s, s', hobeys, hs'⟩ := hthreads i
      exact ⟨s, s', hobeys, htrans _ _ _ hs' hstep⟩

/-- The store that a run began with is one of those it has met. -/
theorem Run.start_mem (hc : Run allowed (.start p s₀) c past) : s₀ ∈ c.store :: past.map Prod.snd := by
  induction hc with
  | refl => exact List.mem_cons_self
  | step _ _ ih => exact List.mem_cons_of_mem _ ih

/-- One request of a run, whose steps are all ones that its contract lets it rely on. -/
theorem Run.relied {C : Contract γ σ ν} {R : Post σ ε ν α} {i : ι} (henv : ∀ g s, C.env g s)
    (howes : wp C R (p i) none [] s₀ s₀) (hc : Run allowed (.start p s₀) c past)
    (hrely : ∀ x ∈ steps past c.store, C.rely x.2.1 x.2.2) :
    ∃ s s', (c.thread i).Obeys C R s s' ∧ C.rely s' c.store := by
  induction hc with
  | refl => exact ⟨s₀, s₀, (Thread.settle_obeys howes).2, C.rely_refl _⟩
  | @step c past j g hc _ ih =>
    obtain ⟨s, s', hi, hs'⟩ := ih fun x hx => hrely x (List.mem_cons_of_mem _ hx)
    by_cases hij : i = j
    · subst i
      obtain ⟨-, hgo, hdone⟩ := hi.step (henv g c.store) hs'
      rw [Config.step_thread_self]
      cases hres : (c.thread j).result with
      | none => exact ⟨_, _, hgo hres, C.rely_refl _⟩
      | some r =>
        rw [Config.step_store, hdone (by simp [hres])]
        exact ⟨s, s', hi, hs'⟩
    · rw [Config.step_thread_other hij]
      exact ⟨s, s', hi, C.rely_trans hs' (hrely (j, c.store, _) List.mem_cons_self)⟩

end Async
