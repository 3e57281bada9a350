import BookingPlatform.Async.Logic
import Mathlib.Data.Fintype.Defs
import Mathlib.Data.List.Chain

/-! From the contracts of single requests to every run of the machine. -/
namespace Async
variable {ι ρ γ σ ε ν α : Type}

section interleaved
variable [DecidableEq ι] {allowed : Config ι γ σ ε ν α → ι → γ → Prop}
  {c : Config ι γ σ ε ν α} {past : List (ι × σ)} {i j : ι} {g : γ}

@[simp] theorem Config.step_thread_self :
    (c.step i g).thread i = ((c.thread i).step g c.store).1 := by
  simp [Config.step]

theorem Config.step_thread_other (h : j ≠ i) : (c.step i g).thread j = c.thread j := by
  simp [Config.step, h]

@[simp] theorem Config.step_store : (c.step i g).store = ((c.thread i).step g c.store).2 := rfl

variable {C : ι → Contract γ σ ν} {p : ι → Prog γ σ ε ν α} {s₀ : σ}

/-- What is needed of requests that run against each other: nothing is assumed between
their calls. -/
structure Concurrent (C : ι → Contract γ σ ν) (p : ι → Prog γ σ ε ν α)
    (allowed : Config ι γ σ ε ν α → ι → γ → Prop) : Prop where
  rely : ∀ i s s', (C i).rely s s'
  env : ∀ {c i g}, allowed c i g → (C i).env g c.store
  owes : ∀ i s, wp (C i) anyway (p i) none [] s s

theorem Run.obeys (h : Concurrent C p allowed) (hc : Run allowed (.start p s₀) c past) (i : ι) :
    ∃ s s', (c.thread i).Obeys (C i) anyway s s' := by
  induction hc generalizing i with
  | refl => exact ⟨s₀, s₀, (Thread.settle_obeys (h.owes i s₀)).2⟩
  | @step c past j g _ ha ih =>
    by_cases hj : i = j
    · subst i
      obtain ⟨s, s', hi⟩ := ih j
      obtain ⟨-, hgo, hdone⟩ := hi.step (h.env ha) (h.rely j s' c.store)
      rw [Config.step_thread_self]
      cases hres : (c.thread j).result with
      | none => exact ⟨_, _, hgo hres⟩
      | some r =>
        rw [hdone (by simp [hres])]
        exact ⟨s, s', hi⟩
    · rw [Config.step_thread_other hj]
      exact ih i

/-- A step of the machine is a step of the contract of the thread that takes it. -/
theorem Run.stepped (h : Concurrent C p allowed) (hc : Run allowed (.start p s₀) c past)
    (ha : allowed c i g) : Stepped (C i) (c.thread i).notes ((c.step i g).thread i).notes
      c.store (c.step i g).store := by
  obtain ⟨s, s', hi⟩ := Run.obeys h hc i
  rw [Config.step_thread_self]
  exact (hi.step (h.env ha) (h.rely i s' c.store)).1

omit [DecidableEq ι] in
theorem Config.start_taken (h : Concurrent C p allowed) (i : ι) :
    Taken (C i) s₀ s₀ [] ((Config.start p s₀).thread i).notes :=
  (Thread.settle_obeys (h.owes i s₀)).1

/-- The notes of a request are ones that its contract lets it take. -/
theorem Run.noted {N : ι → ν → Prop} (h : Concurrent C p allowed)
    (hN : ∀ {i held x s s'}, (C i).note held x s s' → N i x)
    (hc : Run allowed (.start p s₀) c past) (i : ι) : ∀ x ∈ (c.thread i).notes, N i x := by
  induction hc generalizing i with
  | refl => exact (Config.start_taken h i).forall (by simp) fun _ _ _ hx => hN hx
  | @step c past j g hc ha ih =>
    by_cases hj : i = j
    · subst i
      cases Run.stepped h hc ha with
      | keep _ ht => exact ht.forall (ih j) fun _ _ _ hx => hN hx
      | clear _ ht => exact ht.forall (by simp) fun _ _ _ hx => hN hx
    · rw [Config.step_thread_other hj]
      exact ih i

/-- A step changes the store as a commit or as a call of its own. -/
theorem Run.step_store (h : Concurrent C p allowed) (hc : Run allowed (.start p s₀) c past)
    (ha : allowed c i g) :
    (c.thread i).result = none ∧ (C i).commit (c.thread i).notes c.store (c.step i g).store ∨
      (C i).auto (c.thread i).notes c.store (c.step i g).store := by
  obtain ⟨s, s', hi⟩ := Run.obeys h hc i
  rcases hi.step_store (h.env ha) (h.rely i s' c.store) with ⟨⟨f, q, hf, hprog⟩, hstore⟩ | hauto
  · rcases hstore with hcommit | hsame
    · exact .inl ⟨by simp [Thread.result, hprog], hcommit⟩
    · rw [Config.step_store, hsame]
      exact .inr ((C i).read _ _)
  · exact .inr hauto

/-- What every step does, given the steps before it. -/
theorem Run.steps_since {G : List (ι × σ × σ) → ι → σ → σ → Prop}
    (hstep : ∀ {c past i g}, Run allowed (.start p s₀) c past → allowed c i g →
      G (steps past c.store) i c.store (c.step i g).store)
    (hc : Run allowed (.start p s₀) c past) {later earlier : List (ι × σ × σ)} {x : ι × σ × σ}
    (h : steps past c.store = later ++ x :: earlier) : G earlier x.1 x.2.1 x.2.2 := by
  induction hc generalizing later with
  | refl => simp [steps] at h
  | @step c past i g hc ha ih =>
    cases later with
    | nil =>
      obtain ⟨rfl, rfl⟩ := List.cons.inj h
      exact hstep hc ha
    | cons y later => exact ih (List.cons.inj h).2

theorem Run.steps_forall {G : ι → σ → σ → Prop}
    (hstep : ∀ {c past i g}, Run allowed (.start p s₀) c past → allowed c i g → G i c.store (c.step i g).store)
    (hc : Run allowed (.start p s₀) c past) : ∀ x ∈ steps past c.store, G x.1 x.2.1 x.2.2 := by
  intro x hx
  obtain ⟨later, earlier, h⟩ := List.append_of_mem hx
  exact Run.steps_since (G := fun _ => G) hstep hc h

omit [DecidableEq ι] in
theorem steps_map (past : List (ι × σ)) (s : σ) : (steps past s).map (fun x => x.2.1) = past.map Prod.snd := by
  induction past generalizing s with
  | nil => rfl
  | cons y past ih => rw [steps, List.map_cons, List.map_cons, ih]

omit [DecidableEq ι] in
/-- The store after a step is one that was met. -/
theorem steps_after {past : List (ι × σ)} {s : σ} {x : ι × σ × σ} (hx : x ∈ steps past s) :
    x.2.2 ∈ s :: past.map Prod.snd := by
  induction past generalizing s with
  | nil => simp [steps] at hx
  | cons y past ih =>
    rcases List.mem_cons.mp hx with rfl | hx
    · exact List.mem_cons_self
    · exact List.mem_cons_of_mem _ (ih hx)

omit [DecidableEq ι] in
/-- What every step keeps has been kept since any of them. -/
theorem steps_kept {P : σ → Prop} {past : List (ι × σ)} {s : σ}
    (hkeep : ∀ x ∈ steps past s, P x.2.1 → P x.2.2) : ∀ x ∈ steps past s, P x.2.2 → P s := by
  induction past generalizing s with
  | nil => simp [steps]
  | cons y past ih =>
    intro x hx hP
    rcases List.mem_cons.mp hx with rfl | hx
    · exact hP
    · have hy : P y.2 := ih (fun z hz => hkeep z (List.mem_cons_of_mem _ hz)) x hx hP
      exact hkeep (y.1, y.2, s) List.mem_cons_self hy

omit [DecidableEq ι] in
/-- What every step keeps is brought about by one step at most. -/
theorem steps_once {P : σ → Prop} {past : List (ι × σ)} {s : σ}
    (hkeep : ∀ x ∈ steps past s, P x.2.1 → P x.2.2) :
    (steps past s).Pairwise fun x y => ¬ ((¬ P x.2.1 ∧ P x.2.2) ∧ (¬ P y.2.1 ∧ P y.2.2)) := by
  induction past generalizing s with
  | nil => exact .nil
  | cons y past ih =>
    have hkeep' : ∀ x ∈ steps past y.2, P x.2.1 → P x.2.2 := fun x hx =>
      hkeep x (List.mem_cons_of_mem _ hx)
    refine List.pairwise_cons.mpr ⟨?_, ih hkeep'⟩
    rintro x hx ⟨⟨hnot, -⟩, -, hP⟩
    exact hnot (steps_kept hkeep' x hx hP)

omit [DecidableEq ι] in
/-- The step that brings about what every step keeps is one and the same. -/
theorem steps_unique {P : σ → Prop} {past : List (ι × σ)} {s : σ}
    (hkeep : ∀ x ∈ steps past s, P x.2.1 → P x.2.2) {y z : ι × σ × σ} (hy : y ∈ steps past s)
    (hz : z ∈ steps past s) (hyP : ¬ P y.2.1 ∧ P y.2.2) (hzP : ¬ P z.2.1 ∧ P z.2.2) : y = z := by
  by_contra hne
  have hsymm : Std.Symm fun x y : ι × σ × σ => ¬ ((¬ P x.2.1 ∧ P x.2.2) ∧ (¬ P y.2.1 ∧ P y.2.2)) :=
    ⟨fun _ _ h h' => h ⟨h'.2, h'.1⟩⟩
  exact (steps_once hkeep).forall hy hz hne ⟨hyP, hzP⟩

/-! ### Notes as facts that the others must not disturb -/

/-- The step leaves true what the other unfinished requests have noted. -/
def Undisturbed (means : ν → σ → Prop) (c : Config ι γ σ ε ν α) (i : ι) (g : γ) : Prop :=
  ∀ j ≠ i, (c.thread j).result = none → ∀ x ∈ (c.thread j).notes, means x (c.step i g).store

/-- The invariant and the meaning of the notes are kept by a request on its own. -/
structure Meaning (C : Contract γ σ ν) (inv : σ → Prop) (means : ν → σ → Prop) : Prop where
  grounds : ∀ {held x s s'}, inv s → inv s' → (∀ y ∈ held, means y s') → C.note held x s s' →
    means x s'
  auto : ∀ {ns s s'}, inv s → (∀ x ∈ ns, means x s) → C.auto ns s s' →
    inv s' ∧ ∀ x ∈ ns, means x s'
  commit : ∀ {ns s s'}, inv s → (∀ x ∈ ns, means x s) → C.commit ns s s' → inv s'

omit [DecidableEq ι] in
theorem Meaning.taken {C : Contract γ σ ν} {inv : σ → Prop} {means : ν → σ → Prop}
    (h : Meaning C inv means) {ns : List ν} {s : σ} (hs : inv s) (ht : Taken C s s [] ns) :
    ∀ x ∈ ns, means x s :=
  ht.forall (by simp) fun _ _ hheld hx => h.grounds hs hs hheld hx

omit [DecidableEq ι] in
theorem Meaning.stepped {C : Contract γ σ ν} {inv : σ → Prop} {means : ν → σ → Prop}
    (h : Meaning C inv means) {ns ns' : List ν} {s s' : σ} (hs : inv s)
    (hns : ∀ x ∈ ns, means x s) (hstep : Stepped C ns ns' s s') :
    inv s' ∧ ∀ x ∈ ns', means x s' := by
  cases hstep with
  | keep ha ht =>
    obtain ⟨hinv, hkeep⟩ := h.auto hs hns ha
    exact ⟨hinv, ht.forall hkeep fun _ _ hheld hx => h.grounds hs hinv hheld hx⟩
  | clear hc ht =>
    have hinv : inv s' := by
      rcases hc with hc | rfl
      · exact h.commit hs hns hc
      · exact hs
    exact ⟨hinv, ht.forall (by simp) fun _ _ hheld hx => h.grounds hs hinv hheld hx⟩

/-- The invariant, and what the notes of the unfinished requests mean. -/
def Meant (inv : σ → Prop) (means : ν → σ → Prop) (c : Config ι γ σ ε ν α) : Prop :=
  inv c.store ∧ ∀ i, (c.thread i).result = none → ∀ x ∈ (c.thread i).notes, means x c.store

/-- When no step disturbs the notes of other requests, the invariant holds throughout. -/
theorem Run.meant {inv : σ → Prop} {means : ν → σ → Prop} (h : Concurrent C p allowed)
    (hm : ∀ i, Meaning (C i) inv means) (h₀ : inv s₀)
    (hquiet : ∀ {c past i g}, Run allowed (.start p s₀) c past → Meant inv means c →
      allowed c i g → Undisturbed means c i g)
    (hc : Run allowed (.start p s₀) c past) : Meant inv means c := by
  induction hc with
  | refl => exact ⟨h₀, fun i _ => (hm i).taken h₀ (Config.start_taken h i)⟩
  | @step c past i g hc ha ih =>
    cases hres : (c.thread i).result with
    | some r =>
      have hsame : (c.thread i).step g c.store = (c.thread i, c.store) := by
        obtain ⟨s, s', hi⟩ := Run.obeys h hc i
        exact (hi.step (h.env ha) (h.rely i s' c.store)).2.2 (by simp [hres])
      refine ⟨by simpa [hsame] using ih.1, fun j hj => ?_⟩
      by_cases hij : j = i
      · subst j
        simp [hsame, hres] at hj
      · rw [Config.step_thread_other hij] at hj ⊢
        simpa [hsame] using ih.2 j hj
    | none =>
      obtain ⟨hinv, hns⟩ := (hm i).stepped ih.1 (ih.2 i hres) (Run.stepped h hc ha)
      refine ⟨hinv, fun j hj => ?_⟩
      by_cases hij : j = i
      · exact hij ▸ hns
      · rw [Config.step_thread_other hij] at hj ⊢
        exact hquiet hc ih ha j hij hj

/-- The next step of the request commits, and an unfinished request holds a note that the
commit may make false. -/
def Config.Overtakes (rival : σ → ν → ν → Prop) (c : Config ι γ σ ε ν α) (i : ι) : Prop :=
  (c.thread i).Committing ∧ ∃ j ≠ i, (c.thread j).result = none ∧
    ∃ x ∈ (c.thread j).notes, ∃ y ∈ (c.thread i).notes, rival c.store x y

instance [Fintype ι] {rival : σ → ν → ν → Prop} [∀ s x y, Decidable (rival s x y)] (c : Config ι γ σ ε ν α) (i : ι) :
    Decidable (c.Overtakes rival i) :=
  inferInstanceAs (Decidable ((c.thread i).Committing ∧ ∃ j, j ≠ i ∧ (c.thread j).result = none ∧
    ∃ x ∈ (c.thread j).notes, ∃ y ∈ (c.thread i).notes, rival c.store x y))

theorem Config.Admits.mono {allowed' : Config ι γ σ ε ν α → ι → γ → Prop} {schedule : List (ι × γ)}
    (hmono : ∀ c i g, allowed c i g → allowed' c i g) (h : c.Admits allowed schedule) :
    c.Admits allowed' schedule := by
  induction schedule generalizing c with
  | nil => trivial
  | cons step rest ih => exact ⟨hmono _ _ _ h.1, ih h.2⟩

theorem Config.admits_all (c : Config ι γ σ ε ν α) (schedule : List (ι × γ)) :
    c.Admits (fun _ _ _ => True) schedule := by
  induction schedule generalizing c with
  | nil => trivial
  | cons step rest ih => exact ⟨trivial, ih _⟩

/-- Only the commit of a rival makes a note false. -/
structure Steady (C : Contract γ σ ν) (inv : σ → Prop) (means : ν → σ → Prop)
    (rival : σ → ν → ν → Prop) : Prop where
  auto : ∀ {ns s s' x}, inv s → means x s → C.auto ns s s' → means x s'
  commit : ∀ {ns s s' x}, inv s → (∀ y ∈ ns, means y s) → C.commit ns s s' →
    (∀ y ∈ ns, ¬ rival s x y) → means x s → means x s'

theorem Run.undisturbed {inv : σ → Prop} {means : ν → σ → Prop} {rival : σ → ν → ν → Prop}
    (h : Concurrent C p allowed) (hs : ∀ i, Steady (C i) inv means rival)
    (hc : Run allowed (.start p s₀) c past) (hm : Meant inv means c) (ha : allowed c i g)
    (hno : ¬ c.Overtakes rival i) : Undisturbed means c i g := by
  intro j hj hres x hx
  have hxs := hm.2 j hres x hx
  obtain ⟨s, s', hi⟩ := Run.obeys h hc i
  rcases hi.step_store (h.env ha) (h.rely i s' c.store) with ⟨hcommitting, hstore⟩ | hauto
  · rcases hstore with hcommit | hsame
    · have hown : ∀ y ∈ (c.thread i).notes, means y c.store := by
        apply hm.2 i
        obtain ⟨f, p, hf, hprog⟩ := hcommitting
        simp [Thread.result, hprog]
      refine (hs i).commit hm.1 hown hcommit ?_ hxs
      intro y hy hrival
      exact hno ⟨hcommitting, j, hj, hres, x, hx, y, hy, hrival⟩
    · rw [Config.step_store, hsame]
      exact hxs
  · exact (hs i).auto hm.1 hxs hauto

/-- When no commit overtakes a rival, the invariant holds throughout. -/
theorem Run.meant_of_steady {inv : σ → Prop} {means : ν → σ → Prop} {rival : σ → ν → ν → Prop}
    (h : Concurrent C p allowed) (hm : ∀ i, Meaning (C i) inv means)
    (hs : ∀ i, Steady (C i) inv means rival) (h₀ : inv s₀)
    (hfair : ∀ {c i g}, allowed c i g → ¬ c.Overtakes rival i)
    (hc : Run allowed (.start p s₀) c past) : Meant inv means c :=
  Run.meant h hm h₀ (fun hc hmeant ha => Run.undisturbed h hs hc hmeant ha (hfair ha)) hc

/-- What single steps do when the invariant holds throughout. -/
theorem Run.steps_all {inv : σ → Prop} {means : ν → σ → Prop} {G : ι → σ → σ → Prop}
    (h : Concurrent C p allowed)
    (hmeant : ∀ {c past}, Run allowed (.start p s₀) c past → Meant inv means c)
    (hrefl : ∀ i s, G i s s)
    (hauto : ∀ {i ns s s'}, inv s → (C i).auto ns s s' → G i s s')
    (hcommit : ∀ {i ns s s'}, inv s → (∀ x ∈ ns, means x s) → (C i).commit ns s s' → G i s s')
    (hc : Run allowed (.start p s₀) c past) :
    ∀ x ∈ steps past c.store, G x.1 x.2.1 x.2.2 := by
  induction hc with
  | refl => simp [steps]
  | @step c past i g hc ha ih =>
    intro x hx
    rcases List.mem_cons.mp hx with rfl | hx
    · obtain ⟨hinv, hmeans⟩ := hmeant hc
      obtain ⟨s, s', hi⟩ := Run.obeys h hc i
      rcases hi.step_store (h.env ha) (h.rely i s' c.store) with ⟨⟨f, p, hf, hprog⟩, hstore⟩ | hstore
      · rcases hstore with hstore | hstore
        · exact hcommit hinv (hmeans i (by simp [Thread.result, hprog])) hstore
        · simp only [Config.step_store, hstore]
          exact hrefl i c.store
      · exact hauto hinv hstore
    · exact ih x hx

/-! ### Notes that are a licence for one effect -/

/-- The notes `X` can only be taken while nothing is spent, by the step that spends it. -/
structure Licence (C : ι → Contract γ σ ν) (X : ν → Prop) (spent : σ → Prop) : Prop where
  taken : ∀ {i held x s s'}, X x → (C i).note held x s s' → ¬ spent s ∧ spent s'
  auto : ∀ {i ns s s'}, (C i).auto ns s s' → spent s → spent s'
  commit : ∀ {i ns s s'}, (C i).commit ns s s' → spent s → spent s'

variable {X : ν → Prop} {spent : σ → Prop}

omit [DecidableEq ι] in
theorem Licence.spent_step (h : Licence C X spent) {ns ns' : List ν} {s s' : σ}
    (hstep : Stepped (C i) ns ns' s s') (hs : spent s) : spent s' := by
  cases hstep with
  | keep ha _ => exact h.auto ha hs
  | clear hc _ =>
    rcases hc with hc | rfl
    · exact h.commit hc hs
    · exact hs

omit [DecidableEq ι] in
/-- A step after which the licence is held held it before, or spent it just now. -/
theorem Licence.held (h : Licence C X spent) {ns ns' : List ν} {s s' : σ}
    (hstep : Stepped (C i) ns ns' s s') {x : ν} (hX : X x) (hx : x ∈ ns') :
    x ∈ ns ∨ (¬ spent s ∧ spent s') := by
  have taken {ns₁ ns₂ : List ν} (ht : Taken (C i) s s' ns₁ ns₂) :
      x ∈ ns₂ → x ∈ ns₁ ∨ (¬ spent s ∧ spent s') := by
    induction ht with
    | refl => exact Or.inl
    | note _ hy ih =>
      intro hx
      rcases List.mem_cons.mp hx with rfl | hx
      · exact .inr (h.taken hX hy)
      · exact ih hx
  cases hstep with
  | keep _ ht => exact taken ht hx
  | clear _ ht =>
    rcases taken ht hx with hx | hx
    · simp at hx
    · exact .inr hx

/-- Who holds the licence has spent it, and no other request holds it. -/
theorem Run.licence (h : Concurrent C p allowed) (hX : Licence C X spent)
    (hc : Run allowed (.start p s₀) c past) :
    (∀ i x, X x → x ∈ (c.thread i).notes → spent c.store) ∧
      ∀ i j x y, X x → X y → x ∈ (c.thread i).notes → y ∈ (c.thread j).notes → i = j := by
  induction hc with
  | refl =>
    have hstart (i : ι) (x : ν) (hx : X x) : x ∉ ((Config.start p s₀).thread i).notes := by
      intro hi
      have hstep : Stepped (C i) [] ((Config.start p s₀).thread i).notes s₀ s₀ :=
        .clear (.inr rfl) (Config.start_taken h i)
      rcases hX.held hstep hx hi with hi | hi
      · simp at hi
      · exact hi.1 hi.2
    exact ⟨fun i x hx hi => (hstart i x hx hi).elim, fun i _ x _ hx _ hi => (hstart i x hx hi).elim⟩
  | @step c past i g hc ha ih =>
    obtain ⟨hspent, hone⟩ := ih
    have hstep := Run.stepped h hc ha
    have hold (j : ι) (x : ν) (hx : X x) (hj : x ∈ ((c.step i g).thread j).notes) :
        x ∈ (c.thread j).notes ∨ (j = i ∧ ¬ spent c.store ∧ spent (c.step i g).store) := by
      by_cases hij : j = i
      · subst j
        exact (hX.held hstep hx hj).imp id fun hs => ⟨rfl, hs⟩
      · exact .inl (by rwa [Config.step_thread_other hij] at hj)
    refine ⟨fun j x hx hj => ?_, fun j k x y hx hy hj hk => ?_⟩
    · rcases hold j x hx hj with hj | ⟨-, -, hs⟩
      · exact hX.spent_step hstep (hspent j x hx hj)
      · exact hs
    · rcases hold j x hx hj with hj' | ⟨hji, hun, -⟩ <;>
        rcases hold k y hy hk with hk' | ⟨hki, hun', -⟩
      · exact hone j k x y hx hy hj' hk'
      · exact (hun' (hspent j x hx hj')).elim
      · exact (hun (hspent k y hy hk')).elim
      · exact hji.trans hki.symm

/-- Who holds the licence spent it in a step of its own. -/
theorem Run.licence_step (h : Concurrent C p allowed) (hX : Licence C X spent)
    (hc : Run allowed (.start p s₀) c past) {i : ι} {x : ν} (hx : X x)
    (hi : x ∈ (c.thread i).notes) :
    ∃ y ∈ steps past c.store, y.1 = i ∧ ¬ spent y.2.1 ∧ spent y.2.2 := by
  induction hc generalizing i with
  | refl =>
    have hstep : Stepped (C i) [] ((Config.start p s₀).thread i).notes s₀ s₀ :=
      .clear (.inr rfl) (Config.start_taken h i)
    rcases hX.held hstep hx hi with hi | hi
    · simp at hi
    · exact absurd hi.2 hi.1
  | @step c past j g hc ha ih =>
    have later : (∃ y ∈ steps past c.store, y.1 = i ∧ ¬ spent y.2.1 ∧ spent y.2.2) →
        ∃ y ∈ steps ((j, c.store) :: past) (c.step j g).store,
          y.1 = i ∧ ¬ spent y.2.1 ∧ spent y.2.2 := by
      rintro ⟨y, hy, h⟩
      exact ⟨y, List.mem_cons_of_mem _ hy, h⟩
    by_cases hj : i = j
    · subst i
      rcases hX.held (Run.stepped h hc ha) hx hi with hi | hspent
      · exact later (ih hi)
      · exact ⟨_, List.mem_cons_self, rfl, hspent⟩
    · rw [Config.step_thread_other hj] at hi
      exact later (ih hi)

end interleaved

/-! ### Serial histories -/

/-- What is needed of requests that are served one at a time: `I` between requests, `J r ns`
while request `r` is being served with notes `ns`, `G` for every change of the store. -/
structure Serving (serve : ρ → Prog γ σ ε ν α) (accepts : ρ → σ → Prop)
    (env : Thread γ σ ε ν α → γ → σ → Prop) (C : ρ → Contract γ σ ν) (Q : ρ → Post σ ε ν α)
    (I : σ → Prop) (J : ρ → List ν → σ → Prop) (G : σ → σ → Prop) : Prop where
  world : ∀ {r t g s}, env t g s → (C r).env g s
  owes : ∀ {r s}, accepts r s → I s → wp (C r) (Q r) (serve r) none [] s s
  accept : ∀ {r ns s}, I s → accepts r s → Taken (C r) s s [] ns → J r ns s
  step : ∀ {r t g ns' s s'}, J r t.notes s → env t g s → Stepped (C r) t.notes ns' s s' →
    J r ns' s' ∧ G s s'
  reply : ∀ {r res w ns s' s}, J r ns s → Q r res w ns s' s → I s

/-- The invariant between requests, and what is known during one. -/
def Serving.Now (C : ρ → Contract γ σ ν) (Q : ρ → Post σ ε ν α) (I : σ → Prop)
    (J : ρ → List ν → σ → Prop) : Option (Thread γ σ ε ν α) → σ → Prop
  | none, s => I s
  | some t, s => ∃ r s', t.Obeys (C r) (Q r) s' s ∧ J r t.notes s

/-- The contract of a request that commits only when `P` holds of its notes and the store. -/
def Contract.given (C : Contract γ σ ν) (P : List ν → σ → Prop) : Contract γ σ ν :=
  { C with commit := fun ns s s' => P ns s ∧ C.commit ns s s' }

section given
variable {C : Contract γ σ ν} {P : List ν → σ → Prop} {ns ns' : List ν} {s s' : σ}

theorem Taken.given (h : Taken C s s' ns ns') : Taken (C.given P) s s' ns ns' := by
  induction h with
  | refl => exact .refl
  | note _ hx ih => exact .note ih hx

theorem Stepped.given (h : Stepped C ns ns' s s') (hP : P ns s) :
    Stepped (C.given P) ns ns' s s' := by
  cases h with
  | keep ha ht => exact .keep ha ht.given
  | clear hc ht => exact .clear (hc.imp (fun h => ⟨hP, h⟩) id) ht.given

end given

/-- Requests that keep an invariant and the meaning of their notes on their own, as long as
the world grants `P` to every commit. -/
theorem Meaning.serving {serve : ρ → Prog γ σ ε ν α} {accepts : ρ → σ → Prop}
    {env : Thread γ σ ε ν α → γ → σ → Prop} {C : ρ → Contract γ σ ν} {P : List ν → σ → Prop}
    {inv : σ → Prop} {means : ν → σ → Prop} {G : σ → σ → Prop}
    (henv : ∀ {r t g s}, env t g s → (C r).env g s) (hP : ∀ {t g s}, env t g s → P t.notes s)
    (howes : ∀ {r s}, wp (C r) anyway (serve r) none [] s s)
    (hm : ∀ r, Meaning ((C r).given P) inv means) (hrefl : ∀ s, G s s)
    (hauto : ∀ {r ns s s'}, inv s → (C r).auto ns s s' → G s s')
    (hcommit : ∀ {r ns s s'}, inv s → (∀ x ∈ ns, means x s) → P ns s → (C r).commit ns s s' →
      G s s') :
    Serving serve accepts env C (fun _ => anyway) inv
      (fun _ ns s => inv s ∧ ∀ x ∈ ns, means x s) G where
  world := henv
  owes _ _ := howes
  accept hs _ ht := ⟨hs, (hm _).taken hs ht.given⟩
  step := by
    intro r t g ns' s s' ⟨hs, hns⟩ hg hstep
    refine ⟨(hm r).stepped hs hns (hstep.given (hP hg)), ?_⟩
    cases hstep with
    | keep ha _ => exact hauto hs ha
    | clear hc _ =>
      rcases hc with hc | rfl
      · exact hcommit hs hns (hP hg) hc
      · exact hrefl _
  reply h _ := h.1

theorem Serving.now {serve : ρ → Prog γ σ ε ν α} {accepts : ρ → σ → Prop}
    {env : Thread γ σ ε ν α → γ → σ → Prop} {C : ρ → Contract γ σ ν} {Q : ρ → Post σ ε ν α}
    {I : σ → Prop} {J : ρ → List ν → σ → Prop} {G : σ → σ → Prop} {s₀ s : σ} {t : Option (Thread γ σ ε ν α)} {past : List σ}
    (h : Serving serve accepts env C Q I J G) (h₀ : I s₀)
    (hs : Serial serve accepts env s₀ t s past) :
    Serving.Now C Q I J t s ∧ List.IsChain (fun new old => G old new) (s :: past) := by
  induction hs with
  | init => exact ⟨h₀, .singleton _⟩
  | @accept r s past _ ha ih =>
    obtain ⟨hI, hpast⟩ := ih
    obtain ⟨htaken, hobeys⟩ := Thread.settle_obeys (h.owes ha hI)
    exact ⟨⟨r, s, hobeys, h.accept hI ha htaken⟩, hpast⟩
  | @step t s past g _ hg ih =>
    obtain ⟨⟨r, s', hobeys, hJ⟩, hpast⟩ := ih
    obtain ⟨hstep, hgo, hdone⟩ := hobeys.step (h.world hg) ((C r).rely_refl s)
    obtain ⟨hJ', hG⟩ := h.step hJ hg hstep
    refine ⟨?_, hpast.cons_cons hG⟩
    cases hres : t.result with
    | none => exact ⟨r, s, hgo hres, hJ'⟩
    | some res =>
      rw [hdone (by simp [hres])] at hJ' ⊢
      exact ⟨r, s', hobeys, hJ'⟩
  | @reply t s past res _ hres ih =>
    obtain ⟨⟨r, s', hobeys, hJ⟩, hpast⟩ := ih
    exact ⟨h.reply hJ (hobeys.ended hres), hpast⟩

end Async
