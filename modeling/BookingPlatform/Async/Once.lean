import BookingPlatform.Async.Phases
import Mathlib.Data.Fintype.Defs

/-! Requests that must not meet: notes that one request at a time holds, and commits without which
a request does not answer. -/
namespace Async
variable {ι γ σ ε ν α β : Type}

section meetings
variable [DecidableEq ι] {allowed : Config ι γ σ ε ν α → ι → γ → Prop} {p : ι → Prog γ σ ε ν α} {s₀ : σ}
  {c : Config ι γ σ ε ν α} {past : List (ι × σ)}

/-- The step gives the request a note that another unfinished one holds. -/
def Config.Meets (c : Config ι γ σ ε ν α) (i : ι) (g : γ) : Prop :=
  ∃ j ≠ i, (c.thread j).result = none ∧ ∃ x ∈ (c.thread j).notes, x ∈ ((c.step i g).thread i).notes

instance [Fintype ι] [DecidableEq ν] (c : Config ι γ σ ε ν α) (i : ι) (g : γ) : Decidable (c.Meets i g) :=
  inferInstanceAs (Decidable (∃ j ≠ i, (c.thread j).result = none ∧
    ∃ x ∈ (c.thread j).notes, x ∈ ((c.step i g).thread i).notes))

/-- Requests that never meet hold no note in common. -/
theorem Run.apart (hstart : ∀ i, (Thread.start (p i)).notes = [])
    (hlone : ∀ {c i g}, allowed c i g → ¬ c.Meets i g) (hc : Run allowed (.start p s₀) c past) {i j : ι}
    {x : ν} (hi : (c.thread i).result = none) (hj : (c.thread j).result = none)
    (hxi : x ∈ (c.thread i).notes) (hxj : x ∈ (c.thread j).notes) : i = j := by
  induction hc generalizing i j with
  | refl =>
    have hnone : ((Config.start p s₀).thread i).notes = [] := hstart i
    rw [hnone] at hxi
    cases hxi
  | @step c past k g _ ha ih =>
    have alone {a b : ι} (ha' : a = k) (hb : b ≠ k) (hres : ((c.step k g).thread b).result = none)
        (hxa : x ∈ ((c.step k g).thread a).notes) (hxb : x ∈ ((c.step k g).thread b).notes) : False := by
      subst a
      rw [Config.step_thread_other hb] at hres hxb
      exact hlone ha ⟨b, hb, hres, x, hxb, hxa⟩
    by_cases hik : i = k
    · by_cases hjk : j = k
      · exact hik.trans hjk.symm
      · exact (alone hik hjk hj hxi hxj).elim
    · by_cases hjk : j = k
      · exact (alone hjk hik hi hxj hxi).elim
      · rw [Config.step_thread_other hik] at hi hxi
        rw [Config.step_thread_other hjk] at hj hxj
        exact ih hi hj hxi hxj

end meetings

/-! ### Commits that come before an answer -/

namespace Prog
variable {E : List ν → σ → σ → Prog γ σ ε ν α → Prop}
  {Q : Except ε α → Option (σ → Except ε σ) → List ν → Prop} {w : Option (σ → Except ε σ)} {ns : List ν}

/-- Until a commit within `E` has been made, the program ends as `Q` says. `E` sees the notes, the
stores before and after the commit, and what is left of the program. -/
@[simp] def Pays (E : List ν → σ → σ → Prog γ σ ε ν α → Prop)
    (Q : Except ε α → Option (σ → Except ε σ) → List ν → Prop) :
    Prog γ σ ε ν α → Option (σ → Except ε σ) → List ν → Prop
  | .done r, w, ns => Q r w ns
  | .note x p, w, ns => p.Pays E Q w (x :: ns)
  | .call f p h, none, ns => (∀ g s s', f g s = .ok s' → (p g s).Pays E Q none ns) ∧
      ∀ e, (h e).Pays E Q none ns
  | .call f p h, some w, ns =>
      (∀ g v v', f g v = .ok v' → (p g v).Pays E Q (some fun s => (w s).bind (f g)) ns) ∧
      ∀ e, (h e).Pays E Q (some w) ns
  | .begin p, _, ns => p.Pays E Q (some .ok) ns
  | .commit f p h, w, ns => (∀ g s v s', w.getD .ok s = .ok v → f g v = .ok s' →
      E ns s s' (p g v) ∨ (p g v).Pays E Q none []) ∧ ∀ e, (h e).Pays E Q none []
  | .rollback p, _, _ => p.Pays E Q none []

theorem pays_andThen {E : List ν → σ → σ → Prog γ σ ε ν β → Prop}
    {Q : Except ε β → Option (σ → Except ε σ) → List ν → Prop} {p : Prog γ σ ε ν α}
    {k : Except ε α → Prog γ σ ε ν β}
    (h : p.Pays (fun ns s s' rest => E ns s s' (rest.andThen k)) (fun r w ns => (k r).Pays E Q w ns) w ns) :
    (p.andThen k).Pays E Q w ns := by
  induction p generalizing w ns with
  | done r => exact h
  | note x p ih => exact ih h
  | call f p h' ihp ihh =>
    cases w with
    | none => exact ⟨fun g s s' hf => ihp g s (h.1 g s s' hf), fun e => ihh e (h.2 e)⟩
    | some w => exact ⟨fun g v v' hf => ihp g v (h.1 g v v' hf), fun e => ihh e (h.2 e)⟩
  | begin p ih => exact ih h
  | commit f p h' ihp ihh =>
    refine ⟨fun g s v s' hv hf => ?_, fun e => ihh e (h.2 e)⟩
    rcases h.1 g s v s' hv hf with hE | hrest
    · exact .inl hE
    · exact .inr (ihp g v hrest)
  | rollback p ih => exact ih h

theorem pays_bind {E : List ν → σ → σ → Prog γ σ ε ν β → Prop}
    {Q : Except ε β → Option (σ → Except ε σ) → List ν → Prop} {p : Prog γ σ ε ν α} {f : α → Prog γ σ ε ν β}
    (h : p.Pays (fun ns s s' rest => E ns s s' (rest.andThen (onOk f))) (fun r w ns => (onOk f r).Pays E Q w ns)
      w ns) : (p >>= f).Pays E Q w ns := pays_andThen h

theorem pays_mark {E : List ν → σ → σ → Prog γ σ ε ν Unit → Prop} {Q : Except ε Unit → Option (σ → Except ε σ) → List ν → Prop} {x : ν}
    (h : Q (.ok ()) w (x :: ns)) : (mark x : Prog γ σ ε ν Unit).Pays E Q w ns := h

theorem pays_ensure {E : List ν → σ → σ → Prog γ σ ε ν Unit → Prop}
    {Q : Except ε Unit → Option (σ → Except ε σ) → List ν → Prop} {b : Prop} [Decidable b]
    {e : ε} (hok : b → Q (.ok ()) w ns) (herr : Q (.error e) w ns) :
    (ensure b e : Prog γ σ ε ν Unit).Pays E Q w ns := by
  unfold ensure
  by_cases hb : b
  · rw [if_pos hb]
    exact hok hb
  · rw [if_neg hb]
    exact herr

theorem pays_orThrow {o : Option α} {e : ε} (hok : ∀ a, o = some a → Q (.ok a) w ns)
    (herr : Q (.error e) w ns) : (orThrow o e : Prog γ σ ε ν α).Pays E Q w ns := by
  cases o with
  | some a => exact hok a rfl
  | none => exact herr

theorem pays_op {f : γ → σ → Except ε (α × σ)} (hok : ∀ g s a s', f g s = .ok (a, s') → Q (.ok a) none ns)
    (herr : ∀ e, Q (.error e) none ns) : (op f : Prog γ σ ε ν α).Pays E Q none ns := by
  refine ⟨fun g s s' hs => ?_, herr⟩
  cases hf : f g s with
  | ok r => simpa [Pays, hf, Except.map] using hok g s r.1 r.2 hf
  | error e => simp [hf, Except.map] at hs

theorem pays_single {f : γ → σ → Except ε (α × σ)}
    (hok : ∀ g s a s', f g s = .ok (a, s') → E ns s s' (done (.ok a)) ∨ Q (.ok a) none [])
    (herr : ∀ e, Q (.error e) none []) : (single f : Prog γ σ ε ν α).Pays E Q none ns := by
  refine ⟨fun g s v s' hv hs => ?_, herr⟩
  obtain rfl : s = v := by simpa using hv
  cases hf : f g s with
  | ok r =>
    obtain rfl : r.2 = s' := by simpa [hf, Except.map] using hs
    simpa [Pays, hf, Except.map] using hok g s r.1 r.2 hf
  | error e => simp [hf, Except.map] at hs

end Prog

section paid
variable {E : List ν → σ → σ → Prog γ σ ε ν α → Prop}
  {Q : Except ε α → Option (σ → Except ε σ) → List ν → Prop}

/-- What is left of the thread has still to make a commit within `E`. -/
def Thread.Pays (E : List ν → σ → σ → Prog γ σ ε ν α → Prop)
    (Q : Except ε α → Option (σ → Except ε σ) → List ν → Prop) (t : Thread γ σ ε ν α) : Prop :=
  t.prog.Pays E Q t.tx t.notes

/-- The step of the thread is a commit within `E`. -/
def Thread.Paying (E : List ν → σ → σ → Prog γ σ ε ν α → Prop) (t : Thread γ σ ε ν α) (g : γ) (s : σ) : Prop :=
  t.Committing ∧ ∃ rest, E t.notes s (t.step g s).2 rest ∧ (t.step g s).1 = .settle rest none []

theorem Thread.settle_pays {p : Prog γ σ ε ν α} {w : Option (σ → Except ε σ)} {ns : List ν}
    (h : p.Pays E Q w ns) : (Thread.settle p w ns).Pays E Q := by
  induction p generalizing ns with
  | note x p ih => exact ih h
  | _ => exact h

theorem Thread.Pays.step {t : Thread γ σ ε ν α} {g : γ} {s : σ} (h : t.Pays E Q) :
    t.Paying E g s ∨ (t.step g s).1.Pays E Q := by
  obtain ⟨p, w, ns⟩ := t
  cases p with
  | done r => exact .inr h
  | note x p => exact .inr (Thread.settle_pays h)
  | call f p k =>
    right
    cases w with
    | none =>
      cases hs : f g s with
      | ok s' => simpa [Thread.step, hs] using Thread.settle_pays (h.1 g s s' hs)
      | error e => simpa [Thread.step, hs] using Thread.settle_pays (h.2 e)
    | some w =>
      cases hv : w s with
      | error e => simpa [Thread.step, hv] using Thread.settle_pays (h.2 e)
      | ok v =>
        cases hs : f g v with
        | ok v' => simpa [Thread.step, hv, hs] using Thread.settle_pays (h.1 g v v' hs)
        | error e => simpa [Thread.step, hv, hs] using Thread.settle_pays (h.2 e)
  | begin p => exact .inr (Thread.settle_pays h)
  | commit f p k =>
    cases hv : w.getD .ok s with
    | error e => simpa [Thread.step, hv] using Or.inr (Thread.settle_pays (h.2 e))
    | ok v =>
      cases hs : f g v with
      | error e => simpa [Thread.step, hv, hs] using Or.inr (Thread.settle_pays (h.2 e))
      | ok s' =>
        rcases h.1 g s v s' hv hs with hE | hrest
        · exact .inl ⟨⟨f, p, k, rfl⟩, p g v, by simpa [Thread.step, hv, hs] using hE,
            by simp [Thread.step, hv, hs]⟩
        · simpa [Thread.step, hv, hs] using Or.inr (Thread.settle_pays hrest)
  | rollback p => exact .inr (Thread.settle_pays h)

variable [DecidableEq ι] {allowed : Config ι γ σ ε ν α → ι → γ → Prop} {p : ι → Prog γ σ ε ν α} {s₀ : σ}
  {c : Config ι γ σ ε ν α} {past : List (ι × σ)} {trail : List (Config ι γ σ ε ν α)}

/-- Who has ended otherwise than `Q` says has made the commit in a step of its own. -/
theorem Run.paid {E : ι → List ν → σ → σ → Prog γ σ ε ν α → Prop} {Q : ι → Except ε α → Prop}
    {G : ι → σ → σ → Prop} (hpays : ∀ i, (p i).Pays (E i) (fun r _ _ => Q i r) none [])
    (hE : ∀ {c past i g}, Run allowed (.start p s₀) c past → allowed c i g → (c.thread i).Paying (E i) g c.store →
      G i c.store (c.step i g).store)
    (hc : Run allowed (.start p s₀) c past) (i : ι) :
    (c.thread i).Pays (E i) (fun r _ _ => Q i r) ∨
      ∃ y ∈ steps past c.store, y.1 = i ∧ G i y.2.1 y.2.2 := by
  induction hc with
  | refl => exact .inl (Thread.settle_pays (hpays i))
  | @step c past k g hc ha ih =>
    rcases ih with hpays | ⟨y, hy, hyi, hG⟩
    · by_cases hik : i = k
      · subst i
        rcases hpays.step (g := g) (s := c.store) with hpaying | hpays
        · exact .inr ⟨_, List.mem_cons_self, rfl, hE hc ha hpaying⟩
        · rw [Config.step_thread_self]
          exact .inl hpays
      · rw [Config.step_thread_other hik]
        exact .inl hpays
    · exact .inr ⟨y, List.mem_cons_of_mem _ hy, hyi, hG⟩

theorem Thread.Pays.ended {t : Thread γ σ ε ν α} {r : Except ε α} (h : t.Pays E Q)
    (hr : t.result = some r) : Q r t.tx t.notes := by
  obtain ⟨q, w, ns⟩ := t
  cases q with
  | done r' =>
    obtain rfl : r' = r := by simpa [Thread.result] using hr
    exact h
  | _ => simp [Thread.result] at hr

end paid
end Async
