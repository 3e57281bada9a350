import BookingPlatform.Async.Runs

/-! Handlers as state machines: where a request stands between two of its awaited calls, and
what the requests of a run have held on the way. -/
namespace Async
variable {ι γ σ ε ν α β Φ : Type}

/-! ### Steps of a thread -/

namespace Thread
variable {w : Option (σ → Except ε σ)} {ns : List ν} {g : γ} {s : σ}

@[simp] theorem settle_done (r : Except ε α) :
    (settle (.done r) w ns : Thread γ σ ε ν α) = ⟨.done r, w, ns⟩ := rfl

theorem settle_ensure (c : Prop) [Decidable c] (e : ε) (k : Unit → Prog γ σ ε ν α) :
    settle (Prog.ensure c e >>= k) w ns = if c then settle (k ()) w ns else ⟨.done (.error e), w, ns⟩ := by
  unfold Prog.ensure
  by_cases hc : c
  · rw [if_pos hc, if_pos hc]
    rfl
  · rw [if_neg hc, if_neg hc]
    rfl

theorem settle_orThrow (o : Option β) (e : ε) (k : β → Prog γ σ ε ν α) :
    settle (Prog.orThrow o e >>= k) w ns = match o with
      | some b => settle (k b) w ns
      | none => ⟨.done (.error e), w, ns⟩ := by
  cases o <;> rfl

/-- The first step of a program that begins with a call. -/
theorem step_op {f : γ → σ → Except ε (β × σ)} {k : Except ε β → Prog γ σ ε ν α} :
    (settle ((Prog.op f).andThen k) none ns).step g s = match f g s with
      | .ok (b, s') => (settle (k (.ok b)) none ns, s')
      | .error e => (settle (k (.error e)) none ns, s) := by
  cases hf : f g s <;> simp [Prog.op, Prog.andThen, settle, step, hf, Except.map]

/-- The same for a transaction of one call. -/
theorem step_single {f : γ → σ → Except ε (β × σ)} {k : Except ε β → Prog γ σ ε ν α} :
    (settle ((Prog.single f).andThen k) none ns).step g s = match f g s with
      | .ok (b, s') => (settle (k (.ok b)) none [], s')
      | .error e => (settle (k (.error e)) none [], s) := by
  cases hf : f g s <;> simp [Prog.single, Prog.andThen, settle, step, hf, Except.map]

end Thread

/-! ### Paths -/

/-- A run with the configurations that it has come through, latest first. -/
inductive Path [DecidableEq ι] (allowed : Config ι γ σ ε ν α → ι → γ → Prop) (c₀ : Config ι γ σ ε ν α) :
    Config ι γ σ ε ν α → List (Config ι γ σ ε ν α) → Prop where
  | refl : Path allowed c₀ c₀ []
  | step {c : Config ι γ σ ε ν α} {trail : List (Config ι γ σ ε ν α)} {i : ι} {g : γ} :
      Path allowed c₀ c trail → allowed c i g → Path allowed c₀ (c.step i g) (c :: trail)

/-- The request has held the note. -/
def Held (trail : List (Config ι γ σ ε ν α)) (i : ι) (x : ν) : Prop :=
  ∃ c ∈ trail, x ∈ (c.thread i).notes

instance [DecidableEq ν] {trail : List (Config ι γ σ ε ν α)} {i : ι} {x : ν} : Decidable (Held trail i x) :=
  inferInstanceAs (Decidable (∃ c ∈ trail, x ∈ (c.thread i).notes))

section paths
variable [DecidableEq ι] {allowed : Config ι γ σ ε ν α → ι → γ → Prop} {c₀ c : Config ι γ σ ε ν α}
  {trail : List (Config ι γ σ ε ν α)}

theorem Path.run (h : Path allowed c₀ c trail) : ∃ past, Run allowed c₀ c past := by
  induction h with
  | refl => exact ⟨[], .refl⟩
  | step _ ha ih =>
    obtain ⟨past, hrun⟩ := ih
    exact ⟨_, hrun.step ha⟩

/-- The configurations that a schedule comes through, after those of `trail`. -/
def Config.visits (c : Config ι γ σ ε ν α) (trail : List (Config ι γ σ ε ν α)) :
    List (ι × γ) → List (Config ι γ σ ε ν α)
  | [] => trail
  | (i, g) :: rest => (c.step i g).visits (c :: trail) rest

theorem Path.follow {schedule : List (ι × γ)} (hc : Path allowed c₀ c trail)
    (h : c.Admits allowed schedule) : Path allowed c₀ (c.follow schedule) (c.visits trail schedule) := by
  induction schedule generalizing c trail with
  | nil => exact hc
  | cons step rest ih => exact ih (.step hc h.1) h.2

end paths

/-! ### Phases -/

/-- A handler as a state machine: its phases, what the next call does in each of them, and the
notes that it has taken by then. -/
structure Script (Φ γ σ ε ν α : Type) where
  thread : Φ → Thread γ σ ε ν α
  next : γ → σ → Φ → Φ × σ
  took : Φ → List ν
  step : ∀ g s φ, (thread φ).step g s = (thread (next g s φ).1, (next g s φ).2)
  notes : ∀ φ, ∀ x ∈ (thread φ).notes, x ∈ took φ
  grows : ∀ g s φ, ∀ x ∈ took φ, x ∈ took (next g s φ).1

namespace Script
variable {S : ι → Script Φ γ σ ε ν α} {φ : ι → Φ} {s s₀ : σ} {i : ι} {g : γ}

/-- The requests in these phases. -/
def config (S : ι → Script Φ γ σ ε ν α) (φ : ι → Φ) (s : σ) : Config ι γ σ ε ν α :=
  ⟨fun i => (S i).thread (φ i), s⟩

variable [DecidableEq ι]

theorem config_step : (config S φ s).step i g =
    config S (Function.update φ i ((S i).next g s (φ i)).1) ((S i).next g s (φ i)).2 := by
  have hstep : ((config S φ s).thread i).step g s =
      ((S i).thread ((S i).next g s (φ i)).1, ((S i).next g s (φ i)).2) := (S i).step g s (φ i)
  unfold Config.step
  change Config.mk (Function.update _ i (((config S φ s).thread i).step g s).1)
    (((config S φ s).thread i).step g s).2 = _
  rw [hstep]
  unfold config
  congr 1
  funext j
  by_cases hj : j = i
  · subst j
    simp
  · simp [hj]

variable {allowed : Config ι γ σ ε ν α → ι → γ → Prop} {c : Config ι γ σ ε ν α}
  {trail : List (Config ι γ σ ε ν α)} {I : (ι → Φ) → σ → Prop}

/-- What the machines keep holds of the phases of every run. -/
theorem invariant (φ₀ : ι → Φ) (h₀ : I φ₀ s₀)
    (hstep : ∀ {φ s trail i g}, Path allowed (config S φ₀ s₀) (config S φ s) trail → I φ s →
      allowed (config S φ s) i g →
      I (Function.update φ i ((S i).next g s (φ i)).1) ((S i).next g s (φ i)).2)
    (hc : Path allowed (config S φ₀ s₀) c trail) :
    ∃ φ, c = config S φ c.store ∧ I φ c.store ∧ ∀ i x, Held (c :: trail) i x → x ∈ (S i).took (φ i) := by
  induction hc with
  | refl =>
    refine ⟨φ₀, rfl, h₀, ?_⟩
    rintro i x ⟨c, hc, hx⟩
    obtain rfl := List.mem_singleton.mp hc
    exact (S i).notes _ x hx
  | @step c trail i g hc ha ih =>
    obtain ⟨φ, hφ, hI, hheld⟩ := ih
    obtain ⟨threads, s⟩ := c
    simp only at hφ hI
    have hnext : (Config.mk threads s).step i g = config S (Function.update φ i ((S i).next g s (φ i)).1)
        ((S i).next g s (φ i)).2 := by rw [hφ, config_step]
    rw [hφ] at hc ha
    rw [hnext]
    refine ⟨_, rfl, hstep hc hI ha, ?_⟩
    rintro j x ⟨c, hc, hx⟩
    rcases List.mem_cons.mp hc with rfl | hc
    · exact (S j).notes _ x hx
    · have hold := hheld j x ⟨c, hc, hx⟩
      by_cases hj : j = i
      · subst j
        rw [Function.update_self]
        exact (S i).grows g s _ x hold
      · rwa [Function.update_of_ne hj]

end Script
end Async
