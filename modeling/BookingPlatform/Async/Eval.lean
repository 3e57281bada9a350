import BookingPlatform.Async.Logic
import Mathlib.Data.Nat.Notation

/-! One request from its first call to its last, with nobody else at work. -/
namespace Async
variable {γ σ ε ν α β : Type}

/-- The outcome of a program all of whose calls get `g`, what its open transaction sees at
the end, if one is open, and the committed store. -/
@[simp] def Prog.eval (g : γ) : Prog γ σ ε ν α → Option σ → σ → Except ε α × Option σ × σ
  | .done r, v, s => (r, v, s)
  | .note _ p, v, s => p.eval g v s
  | .call f p h, none, s =>
    match f g s with
    | .ok s' => (p g s).eval g none s'
    | .error e => (h e).eval g none s
  | .call f p h, some v, s =>
    match f g v with
    | .ok v' => (p g v).eval g (some v') s
    | .error e => (h e).eval g (some v) s
  | .begin p, _, s => p.eval g (some s) s
  | .commit f p h, v, s =>
    match f g (v.getD s) with
    | .ok s' => (p g (v.getD s)).eval g none s'
    | .error e => (h e).eval g none s
  | .rollback p, _, s => p.eval g none s

/-- The thread, which gets `g` for each of its calls, ends with this outcome and store. -/
def Thread.Ends (g : γ) (t : Thread γ σ ε ν α) (s : σ) (r : Except ε α) (s' : σ) : Prop :=
  ∃ n w ns, t.follow s (List.replicate n g) = (⟨.done r, w, ns⟩, s')

theorem Thread.Ends.step {g : γ} {t t' : Thread γ σ ε ν α} {s s₁ s' : σ} {r : Except ε α}
    (hstep : t.step g s = (t', s₁)) (h : t'.Ends g s₁ r s') : t.Ends g s r s' := by
  obtain ⟨n, w, ns, hn⟩ := h
  refine ⟨n + 1, w, ns, ?_⟩
  rw [List.replicate_succ, Thread.follow, hstep]
  exact hn

/-- The steps of the thread lead to the outcome of the evaluation. -/
theorem Thread.ends_eval {g : γ} {p : Prog γ σ ε ν α} {w : Option (σ → Except ε σ)}
    {v : Option σ} {ns : List ν} {s : σ} (hv : w.map (fun w => w s) = v.map .ok) :
    (Thread.settle p w ns).Ends g s (p.eval g v s).1 (p.eval g v s).2.2 := by
  induction p generalizing w v ns s with
  | done r => exact ⟨0, w, ns, rfl⟩
  | note x p ih => exact ih hv
  | call f p h ihp ihh =>
    cases v with
    | none =>
      obtain rfl : w = none := by simpa using hv
      cases hf : f g s with
      | ok s' =>
        have hrest := @ihp g s none none ns s' rfl
        simpa [Prog.eval, hf] using hrest.step (by simp [Thread.settle, Thread.step, hf])
      | error e =>
        have hrest := @ihh e none none ns s rfl
        simpa [Prog.eval, hf] using hrest.step (by simp [Thread.settle, Thread.step, hf])
    | some v =>
      obtain ⟨w, rfl, hw⟩ : ∃ w', w = some w' ∧ w' s = .ok v := by simpa using hv
      cases hf : f g v with
      | ok v' =>
        have hrest := @ihp g v (some fun s => (w s).bind (f g)) (some v') ns s
          (by simp [hw, hf, Except.bind])
        simpa [Prog.eval, hf] using hrest.step (by simp [Thread.settle, Thread.step, hw, hf])
      | error e =>
        have hrest := @ihh e (some w) (some v) ns s (by simp [hw])
        simpa [Prog.eval, hf] using hrest.step (by simp [Thread.settle, Thread.step, hw, hf])
  | begin p ih =>
    have hrest := @ih (some .ok) (some s) ns s rfl
    exact hrest.step rfl
  | commit f p h ihp ihh =>
    have hseen : w.getD .ok s = .ok (v.getD s) := by
      cases w <;> cases v <;> simp_all
    cases hf : f g (v.getD s) with
    | ok s' =>
      have hrest := @ihp g (v.getD s) none none [] s' rfl
      simpa [Prog.eval, hf] using hrest.step (by simp [Thread.settle, Thread.step, hseen, hf])
    | error e =>
      have hrest := @ihh e none none [] s rfl
      simpa [Prog.eval, hf] using hrest.step (by simp [Thread.settle, Thread.step, hseen, hf])
  | rollback p ih =>
    have hrest := @ih none none [] s rfl
    exact hrest.step rfl

theorem Prog.ends {g : γ} (p : Prog γ σ ε ν α) (s : σ) :
    (Thread.start p).Ends g s (p.eval g none s).1 (p.eval g none s).2.2 :=
  Thread.ends_eval rfl

theorem Thread.ends_of_step {t t' : Thread γ σ ε ν α} {s s' : σ} {world : ℕ → γ}
    (hstep : t.step (world 0) s = (t', s'))
    (h : ∃ n, (t'.follow s' ((List.range n).map fun k => world (k + 1))).1.result.isSome) :
    ∃ n, (t.follow s ((List.range n).map world)).1.result.isSome := by
  obtain ⟨n, hn⟩ := h
  refine ⟨n + 1, ?_⟩
  rw [List.range_succ_eq_map, List.map_cons, List.map_map, Thread.follow, hstep]
  exact hn

/-- A request ends, whatever the world hands to its calls. -/
theorem Thread.ends_world {p : Prog γ σ ε ν α} {w : Option (σ → Except ε σ)} {ns : List ν} {s : σ}
    (world : ℕ → γ) :
    ∃ n, ((Thread.settle p w ns).follow s ((List.range n).map world)).1.result.isSome := by
  induction p generalizing w ns s world with
  | done r => exact ⟨0, rfl⟩
  | note x p ih => exact ih world
  | call f p h ihp ihh =>
    cases w with
    | none =>
      cases hf : f (world 0) s with
      | ok s' =>
        have hstep : (settle (.call f p h) none ns).step (world 0) s = (settle (p (world 0) s) none ns, s') := by
          simp [Thread.settle, Thread.step, hf]
        exact ends_of_step hstep (ihp _ _ _)
      | error e =>
        have hstep : (settle (.call f p h) none ns).step (world 0) s = (settle (h e) none ns, s) := by
          simp [Thread.settle, Thread.step, hf]
        exact ends_of_step hstep (ihh _ _)
    | some w =>
      cases hw : w s with
      | error e =>
        have hstep : (settle (.call f p h) (some w) ns).step (world 0) s = (settle (h e) (some w) ns, s) := by
          simp [Thread.settle, Thread.step, hw]
        exact ends_of_step hstep (ihh _ _)
      | ok v =>
        cases hf : f (world 0) v with
        | ok v' =>
          have hstep : (settle (.call f p h) (some w) ns).step (world 0) s =
              (settle (p (world 0) v) (some fun s => (w s).bind (f (world 0))) ns, s) := by
            simp [Thread.settle, Thread.step, hw, hf]
          exact ends_of_step hstep (ihp _ _ _)
        | error e =>
          have hstep : (settle (.call f p h) (some w) ns).step (world 0) s = (settle (h e) (some w) ns, s) := by
            simp [Thread.settle, Thread.step, hw, hf]
          exact ends_of_step hstep (ihh _ _)
  | begin p ih => exact ends_of_step rfl (ih _)
  | commit f p h ihp ihh =>
    cases hw : w.getD .ok s with
    | error e =>
      have hstep : (settle (.commit f p h) w ns).step (world 0) s = (settle (h e) none [], s) := by
        simp [Thread.settle, Thread.step, hw]
      exact ends_of_step hstep (ihh _ _)
    | ok v =>
      cases hf : f (world 0) v with
      | ok s' =>
        have hstep : (settle (.commit f p h) w ns).step (world 0) s = (settle (p (world 0) v) none [], s') := by
          simp [Thread.settle, Thread.step, hw, hf]
        exact ends_of_step hstep (ihp _ _ _)
      | error e =>
        have hstep : (settle (.commit f p h) w ns).step (world 0) s = (settle (h e) none [], s) := by
          simp [Thread.settle, Thread.step, hw, hf]
        exact ends_of_step hstep (ihh _ _)
  | rollback p ih => exact ends_of_step rfl (ih _)

/-! ### Rules -/

namespace Prog
variable {g : γ} {v : Option σ} {s : σ}

@[simp] theorem eval_pure (a : α) :
    (Pure.pure a : Prog γ σ ε ν α).eval g v s = (.ok a, v, s) := rfl

@[simp] theorem eval_mark (x : ν) :
    (mark x : Prog γ σ ε ν Unit).eval g v s = (.ok (), v, s) := rfl

theorem eval_andThen (p : Prog γ σ ε ν α) (k : Except ε α → Prog γ σ ε ν β) :
    (p.andThen k).eval g v s =
      (k (p.eval g v s).1).eval g (p.eval g v s).2.1 (p.eval g v s).2.2 := by
  induction p generalizing v s with
  | done r => rfl
  | note x p ih => exact ih
  | call f p h ihp ihh =>
    cases v with
    | none => cases hf : f g s <;> simp [andThen, eval, hf, ihp, ihh]
    | some v => cases hf : f g v <;> simp [andThen, eval, hf, ihp, ihh]
  | begin p ih => exact ih
  | commit f p h ihp ihh => cases hf : f g (v.getD s) <;> simp [andThen, eval, hf, ihp, ihh]
  | rollback p ih => exact ih

/-- The rest of a program after a first part that has come to its end. -/
theorem eval_bind {p : Prog γ σ ε ν α} {r : Except ε α} {v' : Option σ} {s' : σ}
    (h : p.eval g v s = (r, v', s')) (f : α → Prog γ σ ε ν β) :
    (p >>= f).eval g v s = (onOk f r).eval g v' s' := by
  rw [bind_eq, eval_andThen, h]

@[simp] theorem eval_onOk_ok (f : α → Prog γ σ ε ν β) (a : α) :
    (onOk f (.ok a)).eval g v s = (f a).eval g v s := rfl

@[simp] theorem eval_onOk_error (f : α → Prog γ σ ε ν β) (e : ε) :
    (onOk f (.error e)).eval g v s = (.error e, v, s) := rfl

@[simp] theorem eval_ensure (c : Prop) [Decidable c] (e : ε) :
    (ensure c e : Prog γ σ ε ν Unit).eval g v s = (if c then .ok () else .error e, v, s) := by
  unfold ensure
  split <;> rfl

@[simp] theorem eval_orThrow (o : Option α) (e : ε) :
    (orThrow o e : Prog γ σ ε ν α).eval g v s =
      (match o with | some a => .ok a | none => .error e, v, s) := by
  cases o <;> rfl

/-- A call that only reads, in or out of a transaction. -/
theorem eval_read {q : γ → σ → α} {f : γ → σ → Except ε (α × σ)}
    (h : ∀ s, f g s = .ok (q g s, s)) :
    (op f : Prog γ σ ε ν α).eval g v s = (.ok (q g (v.getD s)), v, s) := by
  cases v <;> simp [op, eval, h, Except.map]

theorem eval_op {f : γ → σ → Except ε (α × σ)} :
    (op f : Prog γ σ ε ν α).eval g none s = match f g s with
      | .ok (a, s') => (.ok a, none, s')
      | .error e => (.error e, none, s) := by
  cases hf : f g s <;> simp [op, eval, hf, Except.map]

theorem eval_op_tx {f : γ → σ → Except ε (α × σ)} {v : σ} :
    (op f : Prog γ σ ε ν α).eval g (some v) s = match f g v with
      | .ok (a, v') => (.ok a, some v', s)
      | .error e => (.error e, some v, s) := by
  cases hf : f g v <;> simp [op, eval, hf, Except.map]

theorem eval_transaction {f : γ → σ → Except ε σ} {body : Prog γ σ ε ν α} {r : Except ε α}
    {v' : Option σ} {s' : σ} (h : body.eval g (some s) s = (r, v', s')) :
    (transaction f body).eval g v s =
      (close f r : Prog γ σ ε ν α).eval g v' s' := by
  rw [transaction, eval, eval_andThen, h]

theorem eval_close_ok {f : γ → σ → Except ε σ} (a : α) {s' : σ} (hf : f g (v.getD s) = .ok s') :
    (close f (.ok a) : Prog γ σ ε ν α).eval g v s = (.ok a, none, s') := by
  simp [close, eval, hf]

theorem eval_finally {p : Prog γ σ ε ν α} {r : Prog γ σ ε ν Unit} {res : Except ε α}
    {v' : Option σ} {s' : σ} (h : p.eval g v s = (res, v', s')) :
    (finally_ p r).eval g v s = (r.andThen (onOk fun _ => done res)).eval g v' s' := by
  rw [finally_, eval_andThen, h]

theorem eval_tryCatch_ok {p : Prog γ σ ε ν α} {h : ε → Prog γ σ ε ν α} {a : α}
    {v' : Option σ} {s' : σ} (hp : p.eval g v s = (.ok a, v', s')) :
    (tryCatch p h).eval g v s = (.ok a, v', s') := by
  refine (eval_andThen p _).trans ?_
  rw [hp]
  rfl

theorem eval_tryCatch_error {p : Prog γ σ ε ν α} {h : ε → Prog γ σ ε ν α} {e : ε}
    {v' : Option σ} {s' : σ} (hp : p.eval g v s = (.error e, v', s')) :
    (tryCatch p h).eval g v s = (h e).eval g v' s' := by
  refine (eval_andThen p _).trans ?_
  rw [hp]

end Prog

/-! ### What is known when a request has ended -/

/-- The rest of a request that is alone keeps to its contract. -/
theorem Thread.Obeys.follow {C : Contract γ σ ν} {Q : Post σ ε ν α} {t : Thread γ σ ε ν α}
    {s₀ s : σ} {gs : List γ} {r : Except ε α} (h : t.Obeys C Q s₀ s)
    (hworld : ∀ g ∈ gs, ∀ s, C.env g s) (hr : (t.follow s gs).1.result = some r) :
    ∃ w ns s₁, Q r w ns s₁ (t.follow s gs).2 := by
  induction gs generalizing t s₀ s with
  | nil =>
    obtain ⟨p, w, ns⟩ := t
    cases p <;> simp only [Thread.follow, Thread.result, reduceCtorEq] at hr
    obtain rfl := Option.some.inj hr
    exact ⟨w, ns, s₀, h.owes⟩
  | cons g rest ih =>
    have hg := hworld g List.mem_cons_self s
    have hrest : ∀ g ∈ rest, ∀ s, C.env g s := fun g hg => hworld g (List.mem_cons_of_mem _ hg)
    obtain ⟨-, hgo, hdone⟩ := h.step hg (C.rely_refl s)
    cases hres : t.result with
    | none => exact ih (hgo hres) hrest hr
    | some _ =>
      have hsame := hdone (by simp [hres])
      simp only [Thread.follow, hsame] at hr ⊢
      exact ih h hrest hr

/-- Nobody else is at work, and nothing is asked of the steps. -/
def Contract.alone : Contract γ σ ν where
  env _ _ := True
  rely s s' := s' = s
  rely_refl _ := rfl
  rely_trans h h' := h'.trans h
  note _ _ _ _ := True
  auto _ _ _ := True
  commit _ _ _ := True
  read _ _ := trivial

/-- What holds anyway holds after any program. -/
theorem wp_alone {Q : Post σ ε ν α} (hQ : ∀ r w ns s₀ s, Q r w ns s₀ s) (p : Prog γ σ ε ν α)
    {w : Option (σ → Except ε σ)} {ns : List ν} {s₀ s : σ} : wp .alone Q p w ns s₀ s := by
  induction p generalizing w ns s₀ s with
  | done r => exact hQ r w ns s₀ s
  | note x p ih => exact ⟨trivial, ih⟩
  | call f p h ihp ihh =>
    cases w with
    | none => exact fun g s₁ _ _ => ⟨fun s₂ _ => ⟨trivial, ihp g s₁⟩, fun e _ => ihh e⟩
    | some w => exact fun g s₁ _ _ => ⟨fun v v' _ _ => ihp g v, fun e _ => ihh e⟩
  | begin p ih => exact fun s₁ _ => ih
  | commit f p h ihp ihh =>
    exact fun g s₁ _ _ => ⟨fun v s₂ _ _ => ⟨trivial, ihp g v⟩, fun e _ => ihh e⟩
  | rollback p ih => exact fun s₁ _ => ih

/-- What a request that is alone is known to have done when it has ended. -/
theorem Prog.follow {Q : Post σ ε ν α} {p : Prog γ σ ε ν α} {s : σ} {gs : List γ} {r : Except ε α}
    (h : wp .alone Q p none [] s s) (hr : ((Thread.start p).follow s gs).1.result = some r) :
    ∃ w ns s₁, Q r w ns s₁ ((Thread.start p).follow s gs).2 :=
  (Thread.settle_obeys h).2.follow (fun _ _ _ => trivial) hr

end Async
