import BookingPlatform.Async.Prog
import Mathlib.Logic.Function.Basic

/-! Handlers at work: every interleaving of any family of requests, and serial histories.
A transaction is READ COMMITTED: its calls see every commit made so far and its own writes,
and its writes reach the store when they are replayed at the commit. -/
namespace Async
variable {ι ρ γ σ ε ν α : Type}

/-- A request being served: what is left of it, the writes of its open transaction, and the
notes made since its last commit or rollback. -/
structure Thread (γ σ ε ν α : Type) where
  prog : Prog γ σ ε ν α
  tx : Option (σ → Except ε σ)
  notes : List ν

namespace Thread

/-- Notes are not steps: they are taken together with the call before them. -/
def settle : Prog γ σ ε ν α → Option (σ → Except ε σ) → List ν → Thread γ σ ε ν α
  | .note x p, w, ns => settle p w (x :: ns)
  | .done r, w, ns => ⟨.done r, w, ns⟩
  | .call f p h, w, ns => ⟨.call f p h, w, ns⟩
  | .begin p, w, ns => ⟨.begin p, w, ns⟩
  | .commit f p h, w, ns => ⟨.commit f p h, w, ns⟩
  | .rollback p, w, ns => ⟨.rollback p, w, ns⟩

def start (p : Prog γ σ ε ν α) : Thread γ σ ε ν α := settle p none []

/-- The atomic step of a thread from the committed store `s`. -/
def step (g : γ) (s : σ) : Thread γ σ ε ν α → Thread γ σ ε ν α × σ
  | ⟨.done r, w, ns⟩ => (⟨.done r, w, ns⟩, s)
  | ⟨.note x p, w, ns⟩ => (settle p w (x :: ns), s)
  | ⟨.call f p h, none, ns⟩ =>
    match f g s with
    | .ok s' => (settle (p g s) none ns, s')
    | .error e => (settle (h e) none ns, s)
  | ⟨.call f p h, some w, ns⟩ =>
    match w s with
    | .ok v =>
      match f g v with
      | .ok _ => (settle (p g v) (some fun s => (w s).bind (f g)) ns, s)
      | .error e => (settle (h e) (some w) ns, s)
    | .error e => (settle (h e) (some w) ns, s)
  | ⟨.begin p, _, ns⟩ => (settle p (some .ok) ns, s)
  | ⟨.commit f p h, w, _⟩ =>
    match w.getD .ok s with
    | .ok v =>
      match f g v with
      | .ok s' => (settle (p g v) none [], s')
      | .error e => (settle (h e) none [], s)
    | .error e => (settle (h e) none [], s)
  | ⟨.rollback p, _, _⟩ => (settle p none [], s)

/-- The outcome of a request that has ended. -/
def result (t : Thread γ σ ε ν α) : Option (Except ε α) :=
  match t.prog with
  | .done r => some r
  | _ => none

/-- The next step of the thread is the commit of its transaction. -/
def Committing (t : Thread γ σ ε ν α) : Prop := ∃ f p h, t.prog = .commit f p h

end Thread

instance (t : Thread γ σ ε ν α) : Decidable (Thread.Committing t) :=
  match h : t.prog with
  | .commit f p k => .isTrue ⟨f, p, k, h⟩
  | .done _ | .note .. | .call .. | .begin _ | .rollback _ => .isFalse (by simp [Thread.Committing, h])

/-- The requests in flight over the committed store. -/
structure Config (ι γ σ ε ν α : Type) where
  thread : ι → Thread γ σ ε ν α
  store : σ

namespace Config

def start (p : ι → Prog γ σ ε ν α) (s : σ) : Config ι γ σ ε ν α := ⟨fun i => .start (p i), s⟩

def step [DecidableEq ι] (c : Config ι γ σ ε ν α) (i : ι) (g : γ) : Config ι γ σ ε ν α :=
  ⟨Function.update c.thread i ((c.thread i).step g c.store).1, ((c.thread i).step g c.store).2⟩

/-- Follow a schedule: which thread steps, and what the world hands to its call. -/
def follow [DecidableEq ι] (c : Config ι γ σ ε ν α) : List (ι × γ) → Config ι γ σ ε ν α
  | [] => c
  | (i, g) :: rest => (c.step i g).follow rest

end Config

/-- The configurations reached from `c₀` by steps that `allowed` admits, in any order, with
the steps taken so far, latest first: who took each one, and from which store. -/
inductive Run [DecidableEq ι] (allowed : Config ι γ σ ε ν α → ι → γ → Prop)
    (c₀ : Config ι γ σ ε ν α) : Config ι γ σ ε ν α → List (ι × σ) → Prop where
  | refl : Run allowed c₀ c₀ []
  | step {c : Config ι γ σ ε ν α} {past : List (ι × σ)} {i : ι} {g : γ} :
      Run allowed c₀ c past → allowed c i g → Run allowed c₀ (c.step i g) ((i, c.store) :: past)

/-- The steps of a run, latest first: who took each one, from which store and to which. -/
def steps (past : List (ι × σ)) (now : σ) : List (ι × σ × σ) :=
  match past with
  | [] => []
  | (i, s) :: past => (i, s, now) :: steps past s

/-- Every step of the schedule is allowed. -/
def Config.Admits [DecidableEq ι] (allowed : Config ι γ σ ε ν α → ι → γ → Prop)
    (c : Config ι γ σ ε ν α) : List (ι × γ) → Prop
  | [] => True
  | (i, g) :: rest => allowed c i g ∧ (c.step i g).Admits allowed rest

def Config.decidableAdmits [DecidableEq ι] {allowed : Config ι γ σ ε ν α → ι → γ → Prop}
    [∀ c i g, Decidable (allowed c i g)] (c : Config ι γ σ ε ν α) :
    (schedule : List (ι × γ)) → Decidable (c.Admits allowed schedule)
  | [] => .isTrue trivial
  | (i, g) :: rest =>
    have : Decidable ((c.step i g).Admits allowed rest) := (c.step i g).decidableAdmits rest
    inferInstanceAs (Decidable (_ ∧ _))

instance [DecidableEq ι] {allowed : Config ι γ σ ε ν α → ι → γ → Prop}
    [∀ c i g, Decidable (allowed c i g)] {c : Config ι γ σ ε ν α} {schedule : List (ι × γ)} :
    Decidable (c.Admits allowed schedule) := c.decidableAdmits schedule

theorem Run.follow [DecidableEq ι] {allowed : Config ι γ σ ε ν α → ι → γ → Prop}
    {c₀ c : Config ι γ σ ε ν α} {past : List (ι × σ)} {schedule : List (ι × γ)}
    (hc : Run allowed c₀ c past) (h : c.Admits allowed schedule) :
    ∃ past, Run allowed c₀ (c.follow schedule) past := by
  induction schedule generalizing c past with
  | nil => exact ⟨past, hc⟩
  | cons step rest ih => exact ih (.step hc h.1) h.2

/-- A server that takes one request at a time: the request in service, the committed store
and the stores before it, latest first. -/
inductive Serial (serve : ρ → Prog γ σ ε ν α) (accepts : ρ → σ → Prop)
    (env : Thread γ σ ε ν α → γ → σ → Prop) (s₀ : σ) : Option (Thread γ σ ε ν α) → σ → List σ → Prop where
  | init : Serial serve accepts env s₀ none s₀ []
  | accept {r : ρ} {s : σ} {past : List σ} : Serial serve accepts env s₀ none s past →
      accepts r s → Serial serve accepts env s₀ (some (.start (serve r))) s past
  | step {t : Thread γ σ ε ν α} {s : σ} {past : List σ} {g : γ} :
      Serial serve accepts env s₀ (some t) s past → env t g s →
      Serial serve accepts env s₀ (some (t.step g s).1) (t.step g s).2 (s :: past)
  | reply {t : Thread γ σ ε ν α} {s : σ} {past : List σ} {r : Except ε α} :
      Serial serve accepts env s₀ (some t) s past → t.result = some r →
      Serial serve accepts env s₀ none s past

/-! ### One thread alone -/

/-- Follow one thread from a store: what the world hands to each of its calls. -/
def Thread.follow (t : Thread γ σ ε ν α) (s : σ) : List γ → Thread γ σ ε ν α × σ
  | [] => (t, s)
  | g :: rest => (t.step g s).1.follow (t.step g s).2 rest

/-- The world behaves during all these calls. -/
def Thread.Admits (env : Thread γ σ ε ν α → γ → σ → Prop) (t : Thread γ σ ε ν α) (s : σ) : List γ → Prop
  | [] => True
  | g :: rest => env t g s ∧ (t.step g s).1.Admits env (t.step g s).2 rest

def Thread.decidableAdmits {env : Thread γ σ ε ν α → γ → σ → Prop}
    [∀ t g s, Decidable (env t g s)]
    (t : Thread γ σ ε ν α) (s : σ) : (gs : List γ) → Decidable (t.Admits env s gs)
  | [] => .isTrue trivial
  | g :: rest =>
    have : Decidable ((t.step g s).1.Admits env (t.step g s).2 rest) :=
      (t.step g s).1.decidableAdmits (t.step g s).2 rest
    inferInstanceAs (Decidable (_ ∧ _))

instance {env : Thread γ σ ε ν α → γ → σ → Prop} [∀ t g s, Decidable (env t g s)]
    {t : Thread γ σ ε ν α} {s : σ} {gs : List γ} : Decidable (t.Admits env s gs) := t.decidableAdmits s gs

section serial
variable {serve : ρ → Prog γ σ ε ν α} {accepts : ρ → σ → Prop}
  {env : Thread γ σ ε ν α → γ → σ → Prop} {s₀ s : σ}
  {t : Option (Thread γ σ ε ν α)} {past : List σ}

theorem Serial.follow {t : Thread γ σ ε ν α} {gs : List γ}
    (h : Serial serve accepts env s₀ (some t) s past) (hgs : t.Admits env s gs) :
    ∃ past, Serial serve accepts env s₀ (some (t.follow s gs).1) (t.follow s gs).2 past := by
  induction gs generalizing t s past with
  | nil => exact ⟨past, h⟩
  | cons g rest ih => exact ih (h.step hgs.1) hgs.2

/-- Serve requests one after another, each with what the world hands to its calls. -/
def replay (serve : ρ → Prog γ σ ε ν α) (s : σ) : List (ρ × List γ) → σ
  | [] => s
  | (r, gs) :: rest => replay serve ((Thread.start (serve r)).follow s gs).2 rest

/-- Every request is accepted, and served to its end in a world that behaves. -/
def Replays (serve : ρ → Prog γ σ ε ν α) (accepts : ρ → σ → Prop)
    (env : Thread γ σ ε ν α → γ → σ → Prop) (s : σ) : List (ρ × List γ) → Prop
  | [] => True
  | (r, gs) :: rest => accepts r s ∧ (Thread.start (serve r)).Admits env s gs ∧
    ((Thread.start (serve r)).follow s gs).1.result.isSome = true ∧
    Replays serve accepts env ((Thread.start (serve r)).follow s gs).2 rest

def decidableReplays [∀ r s, Decidable (accepts r s)] [∀ t g s, Decidable (env t g s)] (s : σ) :
    (l : List (ρ × List γ)) → Decidable (Replays serve accepts env s l)
  | [] => .isTrue trivial
  | (r, gs) :: rest =>
    have : Decidable (Replays serve accepts env ((Thread.start (serve r)).follow s gs).2 rest) :=
      decidableReplays _ rest
    inferInstanceAs (Decidable (_ ∧ _ ∧ _ ∧ _))

instance [∀ r s, Decidable (accepts r s)] [∀ t g s, Decidable (env t g s)] {l : List (ρ × List γ)} :
    Decidable (Replays serve accepts env s l) := decidableReplays s l

theorem Serial.replay {l : List (ρ × List γ)} (h : Serial serve accepts env s₀ none s past)
    (hl : Replays serve accepts env s l) :
    ∃ past, Serial serve accepts env s₀ none (Async.replay serve s l) past := by
  induction l generalizing s past with
  | nil => exact ⟨past, h⟩
  | cons step rest ih =>
    obtain ⟨haccept, hgs, hdone, hrest⟩ := hl
    obtain ⟨past, hend⟩ := (h.accept haccept).follow hgs
    obtain ⟨res, hres⟩ := Option.isSome_iff_exists.mp hdone
    exact ih (hend.reply hres) hrest

/-- The oldest store of a history is the one it began with. -/
theorem Serial.getLast? (h : Serial serve accepts env s₀ t s past) :
    (s :: past).getLast? = some s₀ := by
  induction h with
  | init => rfl
  | accept _ _ ih => exact ih
  | step _ _ ih => simpa [List.getLast?_cons_cons] using ih
  | reply _ _ ih => exact ih

end serial
end Async
