import BookingPlatform.Async.Eval
import BookingPlatform.Async.Frame
import BookingPlatform.Async.Phases
import Mathlib.Logic.Relation

/-! A program with nobody else at work. What an open transaction sees is then a second store,
so its calls act on stores like all others. -/
namespace Async
variable {ρ γ σ ε ν α β : Type}

namespace Prog

/-- Whatever the world hands to its calls, the program changes the store only within `G`, and
ends with `Q` of its outcome, of what an open transaction sees, and of the store. -/
@[simp] def Sole (G : σ → σ → Prop) (Q : Except ε α → Option σ → σ → Prop) :
    Prog γ σ ε ν α → Option σ → σ → Prop
  | .done r, v, s => Q r v s
  | .note _ p, v, s => p.Sole G Q v s
  | .call f p h, none, s => ∀ g,
      (∀ s', f g s = .ok s' → (G s s' ∨ s' = s) ∧ (p g s).Sole G Q none s') ∧
      ∀ e, f g s = .error e → (h e).Sole G Q none s
  | .call f p h, some v, s => ∀ g,
      (∀ v', f g v = .ok v' → (p g v).Sole G Q (some v') s) ∧
      ∀ e, f g v = .error e → (h e).Sole G Q (some v) s
  | .begin p, _, s => p.Sole G Q (some s) s
  | .commit f p h, v, s => ∀ g,
      (∀ s', f g (v.getD s) = .ok s' → (G s s' ∨ s' = s) ∧ (p g (v.getD s)).Sole G Q none s') ∧
      ∀ e, f g (v.getD s) = .error e → (h e).Sole G Q none s
  | .rollback p, _, s => p.Sole G Q none s

variable {G : σ → σ → Prop} {Q : Except ε α → Option σ → σ → Prop} {v : Option σ} {s : σ}

/-! ### Rules -/

@[simp] theorem sole_pure (a : α) :
    (Pure.pure a : Prog γ σ ε ν α).Sole G Q v s ↔ Q (.ok a) v s := Iff.rfl

@[simp] theorem sole_mark {Q : Except ε Unit → Option σ → σ → Prop} (x : ν) :
    (mark x : Prog γ σ ε ν Unit).Sole G Q v s ↔ Q (.ok ()) v s := Iff.rfl

@[simp] theorem sole_ensure {Q : Except ε Unit → Option σ → σ → Prop} (c : Prop) [Decidable c]
    (e : ε) : (ensure c e : Prog γ σ ε ν Unit).Sole G Q v s ↔
      (c → Q (.ok ()) v s) ∧ (¬ c → Q (.error e) v s) := by
  unfold ensure
  by_cases hc : c <;> simp [hc]

@[simp] theorem sole_orThrow (o : Option α) (e : ε) :
    (orThrow o e : Prog γ σ ε ν α).Sole G Q v s ↔
      (∀ a, o = some a → Q (.ok a) v s) ∧ (o = none → Q (.error e) v s) := by
  cases o <;> simp [orThrow]

theorem sole_andThen {Q : Except ε β → Option σ → σ → Prop} (p : Prog γ σ ε ν α)
    (k : Except ε α → Prog γ σ ε ν β) : (p.andThen k).Sole G Q v s ↔
      p.Sole G (fun r v s => (k r).Sole G Q v s) v s := by
  induction p generalizing v s with
  | done r => rfl
  | note x p ih => exact ih
  | call f p h ihp ihh => cases v <;> simp only [andThen, Sole, ihp, ihh]
  | begin p ih => exact ih
  | commit f p h ihp ihh => simp only [andThen, Sole, ihp, ihh]
  | rollback p ih => exact ih

theorem sole_bind {Q : Except ε β → Option σ → σ → Prop} (p : Prog γ σ ε ν α)
    (f : α → Prog γ σ ε ν β) : (p >>= f).Sole G Q v s ↔
      p.Sole G (fun r v s => (onOk f r).Sole G Q v s) v s :=
  sole_andThen p _

@[simp] theorem sole_onOk_ok {Q : Except ε β → Option σ → σ → Prop} (f : α → Prog γ σ ε ν β)
    (a : α) : (onOk f (.ok a)).Sole G Q v s ↔ (f a).Sole G Q v s := Iff.rfl

@[simp] theorem sole_onOk_error {Q : Except ε β → Option σ → σ → Prop} (f : α → Prog γ σ ε ν β)
    (e : ε) : (onOk f (.error e)).Sole G Q v s ↔ Q (.error e) v s := Iff.rfl

theorem sole_tryCatch {p : Prog γ σ ε ν α} {h : ε → Prog γ σ ε ν α} :
    (tryCatch p h).Sole G Q v s ↔ p.Sole G (fun r v s =>
      match r with
      | .ok a => Q (.ok a) v s
      | .error e => (h e).Sole G Q v s) v s := by
  refine (sole_andThen p _).trans (iff_of_eq ?_)
  congr 1
  funext r v s
  cases r <;> rfl

theorem sole_op {f : γ → σ → Except ε (α × σ)}
    (hok : ∀ g a s', f g s = .ok (a, s') → (G s s' ∨ s' = s) ∧ Q (.ok a) none s')
    (herr : ∀ g e, f g s = .error e → Q (.error e) none s) :
    (op f : Prog γ σ ε ν α).Sole G Q none s := by
  intro g
  cases hf : f g s with
  | ok r =>
    refine ⟨fun s' hs => ?_, fun e he => by simp [hf, Except.map] at he⟩
    obtain rfl : r.2 = s' := by simpa [hf, Except.map] using hs
    simpa [Sole, hf, Except.map] using hok g r.1 r.2 hf
  | error e =>
    refine ⟨fun s' hs => by simp [hf, Except.map] at hs, fun e' he => ?_⟩
    obtain rfl : e = e' := by simpa [hf, Except.map] using he
    exact herr g e hf

theorem sole_op_tx {f : γ → σ → Except ε (α × σ)} {v : σ}
    (hok : ∀ g a v', f g v = .ok (a, v') → Q (.ok a) (some v') s)
    (herr : ∀ g e, f g v = .error e → Q (.error e) (some v) s) :
    (op f : Prog γ σ ε ν α).Sole G Q (some v) s := by
  intro g
  cases hf : f g v with
  | ok r =>
    refine ⟨fun v' hs => ?_, fun e he => by simp [hf, Except.map] at he⟩
    obtain rfl : r.2 = v' := by simpa [hf, Except.map] using hs
    simpa [Sole, hf, Except.map] using hok g r.1 r.2 hf
  | error e =>
    refine ⟨fun v' hs => by simp [hf, Except.map] at hs, fun e' he => ?_⟩
    obtain rfl : e = e' := by simpa [hf, Except.map] using he
    exact herr g e hf

/-- A call that only reads, in or out of a transaction. -/
theorem sole_read {q : γ → σ → α} {f : γ → σ → Except ε (α × σ)}
    (hf : ∀ g s a s', f g s = .ok (a, s') → a = q g s ∧ s' = s)
    (hok : ∀ g, Q (.ok (q g (v.getD s))) v s) (herr : ∀ e, Q (.error e) v s) :
    (op f : Prog γ σ ε ν α).Sole G Q v s := by
  cases v with
  | none =>
    refine sole_op (fun g a s' h => ?_) fun _ e _ => herr e
    obtain ⟨rfl, rfl⟩ := hf g s a s' h
    exact ⟨.inr rfl, hok g⟩
  | some v =>
    refine sole_op_tx (fun g a v' h => ?_) fun _ e _ => herr e
    obtain ⟨rfl, rfl⟩ := hf g v a v' h
    exact hok g

theorem sole_single {f : γ → σ → Except ε (α × σ)}
    (hok : ∀ g a s', f g s = .ok (a, s') → (G s s' ∨ s' = s) ∧ Q (.ok a) none s')
    (herr : ∀ g e, f g s = .error e → Q (.error e) none s) :
    (single f : Prog γ σ ε ν α).Sole G Q none s := by
  have h := (sole_op hok herr : (op f : Prog γ σ ε ν α).Sole G Q none s)
  exact h

/-- What is owed when the body of a transaction has ended. -/
theorem sole_transaction {f : γ → σ → Except ε σ} {body : Prog γ σ ε ν α}
    (hbody : body.Sole G (fun r v s =>
      match r with
      | .ok a => ∀ g, (∀ s', f g (v.getD s) = .ok s' → (G s s' ∨ s' = s) ∧ Q (.ok a) none s') ∧
          ∀ e, f g (v.getD s) = .error e → Q (.error e) none s
      | .error e => Q (.error e) none s) (some s) s) :
    (transaction f body).Sole G Q v s := by
  refine (sole_andThen body _).mpr ?_
  have hclose : (fun r v s => (close f r : Prog γ σ ε ν α).Sole G Q v s) = fun r v s =>
      match r with
      | .ok a => ∀ g, (∀ s', f g (v.getD s) = .ok s' → (G s s' ∨ s' = s) ∧ Q (.ok a) none s') ∧
          ∀ e, f g (v.getD s) = .error e → Q (.error e) none s
      | .error e => Q (.error e) none s := by
    funext r v s
    cases r <;> rfl
  rw [hclose]
  exact hbody

theorem sole_finally {p : Prog γ σ ε ν α} {r : Prog γ σ ε ν Unit} :
    (finally_ p r).Sole G Q v s ↔
      p.Sole G (fun res v s => (r.andThen (onOk fun _ => done res)).Sole G Q v s) v s :=
  sole_andThen p _

theorem Sole.mono {G' : σ → σ → Prop} {Q' : Except ε α → Option σ → σ → Prop}
    {p : Prog γ σ ε ν α} (h : p.Sole G Q v s) (hG : ∀ s s', G s s' → G' s s')
    (hQ : ∀ r v s, Q r v s → Q' r v s) : p.Sole G' Q' v s := by
  induction p generalizing v s with
  | done r => exact hQ r v s h
  | note x p ih => exact ih h
  | call f p h' ihp ihh =>
    cases v with
    | none =>
      intro g
      obtain ⟨hok, herr⟩ := h g
      refine ⟨fun s' hs => ?_, fun e he => ihh e (herr e he)⟩
      obtain ⟨hG', hrest⟩ := hok s' hs
      exact ⟨hG'.imp (hG s s') id, ihp g s hrest⟩
    | some v =>
      intro g
      obtain ⟨hok, herr⟩ := h g
      exact ⟨fun v' hv => ihp g v (hok v' hv), fun e he => ihh e (herr e he)⟩
  | begin p ih => exact ih h
  | commit f p h' ihp ihh =>
    intro g
    obtain ⟨hok, herr⟩ := h g
    refine ⟨fun s' hs => ?_, fun e he => ihh e (herr e he)⟩
    obtain ⟨hG', hrest⟩ := hok s' hs
    exact ⟨hG'.imp (hG s s') id, ihp g _ hrest⟩
  | rollback p ih => exact ih h

end Prog

section within
variable {R G : σ → σ → Prop} {N : ν → Prop} {Q : Except ε α → Option σ → σ → Prop}
  {p : Prog γ σ ε ν α} {s : σ}

/-- A fragment of a transaction that changes what it sees only within `R`. -/
theorem Within.sole_tx {v : σ} (h : Within R N false p) (hrefl : ∀ s, R s s)
    (htrans : ∀ s s' s'', R s s' → R s' s'' → R s s'')
    (hQ : ∀ r v', R v v' → Q r (some v') s) : p.Sole G Q (some v) s := by
  induction p generalizing v with
  | done r => exact hQ r v (hrefl v)
  | note x p ih => exact ih h.2 hQ
  | call f p h' ihp ihh =>
    intro g
    refine ⟨fun v' hv => ihp g v (h.2.1 g v) fun r v'' hv'' => ?_, fun e _ => ihh e (h.2.2 e) hQ⟩
    exact hQ r v'' (htrans v v' v'' (h.1 g v v' hv) hv'')
  | _ => exact absurd h.1 (by simp)

/-- A fragment that only reads. -/
theorem Within.sole_reads {v : Option σ} (h : Within Eq N false p) (hQ : ∀ r, Q r v s) :
    p.Sole G Q v s := by
  induction p with
  | done r => exact hQ r
  | note x p ih => exact ih h.2
  | call f p h' ihp ihh =>
    cases v with
    | none =>
      intro g
      refine ⟨fun s' hs => ?_, fun e _ => ihh e (h.2.2 e)⟩
      obtain rfl := h.1 g s s' hs
      exact ⟨.inr rfl, ihp g s (h.2.1 g s)⟩
    | some v =>
      intro g
      refine ⟨fun v' hv => ?_, fun e _ => ihh e (h.2.2 e)⟩
      obtain rfl := h.1 g v v' hv
      exact ihp g v (h.2.1 g v)
  | _ => exact absurd h.1 (by simp)

/-- A whole program that changes the store only within `R`. -/
theorem Within.sole (h : Within R N true p) (hrefl : ∀ s, R s s)
    (htrans : ∀ s s' s'', R s s' → R s' s'' → R s s'') (hG : ∀ s s', R s s' → G s s')
    (hQ : ∀ r v s', R s s' → Q r v s') : p.Sole G Q none s := by
  suffices hgen : ∀ {v : Option σ} {s₁ : σ}, R s s₁ → R s₁ (v.getD s₁) → p.Sole G Q v s₁ from
    hgen (hrefl s) (hrefl s)
  induction p with
  | done r => exact fun hs _ => hQ r _ _ hs
  | note x p ih => exact ih h.2
  | call f p h' ihp ihh =>
    intro v s₁ hs hv
    cases v with
    | none =>
      intro g
      refine ⟨fun s₂ hs₂ => ?_, fun e _ => ihh e (h.2.2 e) hs hv⟩
      have hR := h.1 g s₁ s₂ hs₂
      exact ⟨.inl (hG s₁ s₂ hR), ihp g s₁ (h.2.1 g s₁) (htrans s s₁ s₂ hs hR) (hrefl s₂)⟩
    | some v =>
      intro g
      refine ⟨fun v' hv' => ihp g v (h.2.1 g v) hs ?_, fun e _ => ihh e (h.2.2 e) hs hv⟩
      exact htrans s₁ v v' hv (h.1 g v v' hv')
  | begin p ih => exact fun hs _ => ih h.2 hs (hrefl _)
  | commit f p h' ihp ihh =>
    intro v s₁ hs hv g
    refine ⟨fun s₂ hs₂ => ?_, fun e _ => ihh e (h.2.2.2 e) hs (hrefl s₁)⟩
    have hR : R s₁ s₂ := htrans s₁ (v.getD s₁) s₂ hv (h.2.1 g _ s₂ hs₂)
    exact ⟨.inl (hG s₁ s₂ hR), ihp g _ (h.2.2.1 g _) (htrans s s₁ s₂ hs hR) (hrefl s₂)⟩
  | rollback p ih => exact fun hs _ => ih h.2 hs (hrefl _)

end within

/-! ### Threads and histories -/

/-- Nobody else is at work, and the store changes within `G`. -/
def Contract.within (G : σ → σ → Prop) : Contract γ σ ν where
  env _ _ := True
  rely s s' := s' = s
  rely_refl _ := rfl
  rely_trans h h' := h'.trans h
  note _ _ _ _ := True
  auto _ s s' := G s s' ∨ s' = s
  commit _ s s' := G s s' ∨ s' = s
  read _ _ := .inr rfl

variable {G : σ → σ → Prop} {Q : Except ε α → Option σ → σ → Prop} {s : σ}

/-- The postcondition of a program alone, where the writes of the transaction are pending. -/
def seen (Q : Except ε α → Option σ → σ → Prop) : Post σ ε ν α := fun r w _ _ s =>
  ∃ v, w.map (fun w => w s) = v.map .ok ∧ Q r v s

theorem Prog.Sole.wp {p : Prog γ σ ε ν α} {v : Option σ} {w : Option (σ → Except ε σ)}
    {ns : List ν} {s₀ : σ} (h : p.Sole G Q v s) (hv : w.map (fun w => w s) = v.map .ok) :
    wp (.within G) (seen Q) p w ns s₀ s := by
  induction p generalizing v w ns s₀ s with
  | done r => exact ⟨v, hv, h⟩
  | note x p ih => exact ⟨trivial, ih h hv⟩
  | call f p h' ihp ihh =>
    cases v with
    | none =>
      obtain rfl : w = none := by simpa using hv
      rintro g s₁ - rfl
      obtain ⟨hok, herr⟩ := h g
      exact ⟨fun s' hs => ⟨(hok s' hs).1, ihp g s₁ (hok s' hs).2 rfl⟩, fun e he => ihh e (herr e he) rfl⟩
    | some v =>
      obtain ⟨w, rfl, hw⟩ : ∃ w', w = some w' ∧ w' s = .ok v := by simpa using hv
      rintro g s₁ - rfl
      obtain ⟨hok, herr⟩ := h g
      refine ⟨fun v₁ v' hv₁ hs => ?_, fun e he => ihh e (herr e ?_) hv⟩
      · obtain rfl : v = v₁ := Except.ok.inj (hw.symm.trans hv₁)
        exact ihp g v (hok v' hs) (by simp [hw, hs, Except.bind])
      · simpa [hw, Except.bind] using he
  | begin p ih =>
    rintro s₁ rfl
    exact ih h rfl
  | commit f p h' ihp ihh =>
    have hseen : w.getD .ok s = .ok (v.getD s) := by
      cases w <;> cases v <;> simp_all
    rintro g s₁ - rfl
    obtain ⟨hok, herr⟩ := h g
    refine ⟨fun v₁ s' hv₁ hs => ?_, fun e he => ihh e (herr e ?_) rfl⟩
    · obtain rfl : v.getD s₁ = v₁ := Except.ok.inj (hseen.symm.trans hv₁)
      exact ⟨(hok s' hs).1, ihp g _ (hok s' hs).2 rfl⟩
    · simpa [hseen, Except.bind] using he
  | rollback p ih =>
    rintro s₁ rfl
    exact ih h rfl

/-- The store after any number of steps of a request that is alone. -/
theorem Thread.Obeys.path {Q : Post σ ε ν α} {t : Thread γ σ ε ν α} {s₀ s : σ} {gs : List γ}
    (h : t.Obeys (.within G) Q s₀ s) : Relation.ReflTransGen G s (t.follow s gs).2 := by
  induction gs generalizing t s₀ s with
  | nil => exact .refl
  | cons g rest ih =>
    have hstep : Relation.ReflTransGen G s (t.step g s).2 := by
      rcases h.step_store (g := g) trivial rfl with ⟨-, (hG | hsame) | hsame⟩ | hG | hsame
      · exact .single hG
      · rw [hsame]
      · rw [hsame]
      · exact .single hG
      · rw [hsame]
    obtain ⟨-, hgo, hdone⟩ := h.step (g := g) trivial rfl
    cases hres : t.result with
    | none => exact hstep.trans (ih (hgo hres))
    | some r =>
      have hsame := hdone (by simp [hres])
      simp only [Thread.follow, hsame]
      exact ih h

/-- A request that is alone changes the store within `G` in each step, and ends with `Q`. -/
theorem Prog.Sole.follow {p : Prog γ σ ε ν α} (h : p.Sole G Q none s) (gs : List γ) :
    Relation.ReflTransGen G s ((Thread.start p).follow s gs).2 ∧
      ∀ r, ((Thread.start p).follow s gs).1.result = some r →
        ∃ v, Q r v ((Thread.start p).follow s gs).2 := by
  have howes : Async.wp (.within G) (seen Q) p none [] s s := h.wp rfl
  have hobeys := (Thread.settle_obeys howes).2
  refine ⟨hobeys.path, fun r hr => ?_⟩
  obtain ⟨w, ns, s₁, v, -, hQ⟩ := hobeys.follow (fun _ _ _ => trivial) hr
  exact ⟨v, hQ⟩

end Async
