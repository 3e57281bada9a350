import BookingPlatform.Async.Eval
import BookingPlatform.Async.Frame

/-! One request from its first call to its last in a world that changes from call to call. -/
namespace Async
variable {γ σ ε ν α β : Type}

/-- How a program ends whose calls get `world k`, `world (k + 1)` and so on: its outcome, the
number of the next call, what its open transaction sees, and the committed store. -/
@[simp] def Prog.play (world : ℕ → γ) : Prog γ σ ε ν α → ℕ → Option σ → σ → Except ε α × ℕ × Option σ × σ
  | .done r, k, v, s => (r, k, v, s)
  | .note _ p, k, v, s => p.play world k v s
  | .call f p h, k, none, s =>
    match f (world k) s with
    | .ok s' => (p (world k) s).play world (k + 1) none s'
    | .error e => (h e).play world (k + 1) none s
  | .call f p h, k, some v, s =>
    match f (world k) v with
    | .ok v' => (p (world k) v).play world (k + 1) (some v') s
    | .error e => (h e).play world (k + 1) (some v) s
  | .begin p, k, _, s => p.play world (k + 1) (some s) s
  | .commit f p h, k, v, s =>
    match f (world k) (v.getD s) with
    | .ok s' => (p (world k) (v.getD s)).play world (k + 1) none s'
    | .error e => (h e).play world (k + 1) none s
  | .rollback p, k, _, s => p.play world (k + 1) none s

/-- The thread, whose calls get what the world has for them, ends with this outcome and store. -/
def Thread.EndsIn (world : ℕ → γ) (t : Thread γ σ ε ν α) (s : σ) (r : Except ε α) (s' : σ) : Prop :=
  ∃ n w ns, t.follow s ((List.range n).map world) = (⟨.done r, w, ns⟩, s')

theorem Thread.EndsIn.step {world : ℕ → γ} {k : ℕ} {t t' : Thread γ σ ε ν α} {s s₁ s' : σ}
    {r : Except ε α} (hstep : t.step (world k) s = (t', s₁))
    (h : t'.EndsIn (fun j => world (k + 1 + j)) s₁ r s') : t.EndsIn (fun j => world (k + j)) s r s' := by
  obtain ⟨n, w, ns, hn⟩ := h
  refine ⟨n + 1, w, ns, ?_⟩
  have hshift : (List.range n).map (fun j => world (k + (j + 1))) =
      (List.range n).map fun j => world (k + 1 + j) := by
    apply List.map_congr_left
    intro j _
    congr 1
    omega
  rw [List.range_succ_eq_map, List.map_cons, List.map_map, Thread.follow]
  change (t.step (world k) s).1.follow (t.step (world k) s).2 _ = _
  rw [hstep]
  exact (congrArg (t'.follow s₁) hshift).trans hn

/-- The steps of the thread lead to the outcome that was played. -/
theorem Thread.endsIn_play {world : ℕ → γ} {p : Prog γ σ ε ν α} {k : ℕ}
    {w : Option (σ → Except ε σ)} {v : Option σ} {ns : List ν} {s : σ}
    (hv : w.map (fun w => w s) = v.map .ok) : (Thread.settle p w ns).EndsIn (fun j => world (k + j)) s
      (p.play world k v s).1 (p.play world k v s).2.2.2 := by
  induction p generalizing k w v ns s with
  | done r => exact ⟨0, w, ns, rfl⟩
  | note x p ih => exact ih hv
  | call f p h ihp ihh =>
    cases v with
    | none =>
      obtain rfl : w = none := by simpa using hv
      cases hf : f (world k) s with
      | ok s' =>
        have hrest := @ihp (world k) s (k + 1) none none ns s' rfl
        simpa [Prog.play, hf] using hrest.step (by simp [Thread.settle, Thread.step, hf])
      | error e =>
        have hrest := @ihh e (k + 1) none none ns s rfl
        simpa [Prog.play, hf] using hrest.step (by simp [Thread.settle, Thread.step, hf])
    | some v =>
      obtain ⟨w, rfl, hw⟩ : ∃ w', w = some w' ∧ w' s = .ok v := by simpa using hv
      cases hf : f (world k) v with
      | ok v' =>
        have hrest := @ihp (world k) v (k + 1) (some fun s => (w s).bind (f (world k))) (some v') ns s
          (by simp [hw, hf, Except.bind])
        simpa [Prog.play, hf] using hrest.step (by simp [Thread.settle, Thread.step, hw, hf])
      | error e =>
        have hrest := @ihh e (k + 1) (some w) (some v) ns s (by simp [hw])
        simpa [Prog.play, hf] using hrest.step (by simp [Thread.settle, Thread.step, hw, hf])
  | begin p ih =>
    have hrest := @ih (k + 1) (some .ok) (some s) ns s rfl
    exact hrest.step rfl
  | commit f p h ihp ihh =>
    have hseen : w.getD .ok s = .ok (v.getD s) := by
      cases w <;> cases v <;> simp_all
    cases hf : f (world k) (v.getD s) with
    | ok s' =>
      have hrest := @ihp (world k) (v.getD s) (k + 1) none none [] s' rfl
      simpa [Prog.play, hf] using hrest.step (by simp [Thread.settle, Thread.step, hseen, hf])
    | error e =>
      have hrest := @ihh e (k + 1) none none [] s rfl
      simpa [Prog.play, hf] using hrest.step (by simp [Thread.settle, Thread.step, hseen, hf])
  | rollback p ih =>
    have hrest := @ih (k + 1) none none [] s rfl
    exact hrest.step rfl

theorem Prog.endsIn {world : ℕ → γ} (p : Prog γ σ ε ν α) (s : σ) :
    (Thread.start p).EndsIn world s (p.play world 0 none s).1 (p.play world 0 none s).2.2.2 := by
  have h := @Thread.endsIn_play γ σ ε ν α world p 0 none none [] s rfl
  simp only [Nat.zero_add] at h
  exact h

/-- In a world that stays the same a program ends as it evaluates. -/
theorem Prog.play_const (g : γ) (p : Prog γ σ ε ν α) (k : ℕ) (v : Option σ) (s : σ) :
    (p.play (fun _ => g) k v s).1 = (p.eval g v s).1 ∧
      (p.play (fun _ => g) k v s).2.2 = (p.eval g v s).2 := by
  induction p generalizing k v s with
  | done r => exact ⟨rfl, rfl⟩
  | note x p ih => exact ih k v s
  | call f p h ihp ihh =>
    cases v with
    | none => cases hf : f g s <;> simp [play, eval, hf, ihp, ihh]
    | some v => cases hf : f g v <;> simp [play, eval, hf, ihp, ihh]
  | begin p ih => exact ih _ _ _
  | commit f p h ihp ihh => cases hf : f g (v.getD s) <;> simp [play, eval, hf, ihp, ihh]
  | rollback p ih => exact ih _ _ _

theorem Prog.eval_of_play {g : γ} {p : Prog γ σ ε ν α} {k k' : ℕ} {v v' : Option σ} {s s' : σ}
    {r : Except ε α} (h : p.play (fun _ => g) k v s = (r, k', v', s')) :
    p.eval g v s = (r, v', s') := by
  obtain ⟨hresult, hstores⟩ := p.play_const g k v s
  rw [h] at hresult hstores
  exact Prod.ext hresult.symm hstores.symm

/-! ### Rules -/

namespace Prog
variable {world : ℕ → γ} {k k' : ℕ} {v v' : Option σ} {s s' : σ} {r : Except ε α}

theorem play_andThen (p : Prog γ σ ε ν α) (c : Except ε α → Prog γ σ ε ν β) :
    (p.andThen c).play world k v s = (c (p.play world k v s).1).play world
      (p.play world k v s).2.1 (p.play world k v s).2.2.1 (p.play world k v s).2.2.2 := by
  induction p generalizing k v s with
  | done r => rfl
  | note x p ih => exact ih
  | call f p h ihp ihh =>
    cases v with
    | none => cases hf : f (world k) s <;> simp [andThen, play, hf, ihp, ihh]
    | some v => cases hf : f (world k) v <;> simp [andThen, play, hf, ihp, ihh]
  | begin p ih => exact ih
  | commit f p h ihp ihh => cases hf : f (world k) (v.getD s) <;> simp [andThen, play, hf, ihp, ihh]
  | rollback p ih => exact ih

/-- The rest of a program after a first part that has come to its end. -/
theorem play_bind {p : Prog γ σ ε ν α} (h : p.play world k v s = (r, k', v', s'))
    (f : α → Prog γ σ ε ν β) :
    (p >>= f).play world k v s = (onOk f r).play world k' v' s' := by
  rw [bind_eq, play_andThen, h]

theorem play_bind_ok {p : Prog γ σ ε ν α} {a : α} (h : p.play world k v s = (.ok a, k', v', s'))
    (f : α → Prog γ σ ε ν β) : (p >>= f).play world k v s = (f a).play world k' v' s' :=
  play_bind h f

/-- A program that succeeds has succeeded in its first part. -/
theorem of_play_bind {p : Prog γ σ ε ν α} {f : α → Prog γ σ ε ν β} {b : β}
    (h : (p >>= f).play world k v s = (.ok b, k', v', s')) : ∃ a k₁ v₁ s₁,
      p.play world k v s = (.ok a, k₁, v₁, s₁) ∧ (f a).play world k₁ v₁ s₁ = (.ok b, k', v', s') := by
  rw [bind_eq, play_andThen] at h
  rcases hp : p.play world k v s with ⟨r, k₁, v₁, s₁⟩
  rw [hp] at h
  cases r with
  | ok a => exact ⟨a, k₁, v₁, s₁, rfl, h⟩
  | error e => cases h

theorem play_mark_bind (x : ν) (f : Unit → Prog γ σ ε ν β) :
    (mark x >>= f).play world k v s = (f ()).play world k v s := rfl

theorem play_ensure_bind (c : Prop) [Decidable c] (e : ε) (f : Unit → Prog γ σ ε ν β) :
    (ensure c e >>= f).play world k v s = if c then (f ()).play world k v s else (.error e, k, v, s) := by
  unfold ensure
  by_cases hc : c
  · rw [if_pos hc, if_pos hc]
    rfl
  · rw [if_neg hc, if_neg hc]
    rfl

theorem play_orThrow_bind (o : Option α) (e : ε) (f : α → Prog γ σ ε ν β) :
    (orThrow o e >>= f).play world k v s = match o with
      | some a => (f a).play world k v s
      | none => (.error e, k, v, s) := by
  cases o <;> rfl

theorem play_op_bind {o : γ → σ → Except ε (α × σ)} (f : α → Prog γ σ ε ν β) :
    (op o >>= f).play world k none s = match o (world k) s with
      | .ok (a, s') => (f a).play world (k + 1) none s'
      | .error e => (.error e, k + 1, none, s) := by
  rw [bind_eq, play_andThen]
  cases ho : o (world k) s <;> simp [op, play, ho, Except.map, onOk]

theorem play_single_bind {o : γ → σ → Except ε (α × σ)} (f : α → Prog γ σ ε ν β) :
    (single o >>= f).play world k none s = match o (world k) s with
      | .ok (a, s') => (f a).play world (k + 1) none s'
      | .error e => (.error e, k + 1, none, s) := by
  rw [bind_eq, play_andThen]
  cases ho : o (world k) s <;> simp [single, play, ho, Except.map, onOk]

/-- A call that only reads, in or out of a transaction. -/
theorem play_read {q : γ → σ → α} {f : γ → σ → Except ε (α × σ)}
    (h : ∀ s, f (world k) s = .ok (q (world k) s, s)) :
    (op f : Prog γ σ ε ν α).play world k v s = (.ok (q (world k) (v.getD s)), k + 1, v, s) := by
  cases v <;> simp [op, play, h, Except.map]

theorem play_op_tx {f : γ → σ → Except ε (α × σ)} {v : σ} :
    (op f : Prog γ σ ε ν α).play world k (some v) s = match f (world k) v with
      | .ok (a, v') => (.ok a, k + 1, some v', s)
      | .error e => (.error e, k + 1, some v, s) := by
  cases hf : f (world k) v <;> simp [op, play, hf, Except.map]

theorem play_op_tx_bind {o : γ → σ → Except ε (α × σ)} (f : α → Prog γ σ ε ν β) {v : σ} :
    (op o >>= f).play world k (some v) s = match o (world k) v with
      | .ok (a, v') => (f a).play world (k + 1) (some v') s
      | .error e => (.error e, k + 1, some v, s) := by
  rw [bind_eq, play_andThen, play_op_tx]
  cases o (world k) v <;> rfl

/-- A whole request changes the store within the relation. -/
theorem play_within {R : σ → σ → Prop} {N : ν → Prop} {p : Prog γ σ ε ν α} (h : Within R N true p)
    (hrefl : ∀ s, R s s) (htrans : ∀ s s' s'', R s s' → R s' s'' → R s s'') (hv : ∀ v', v = some v' → R s v') :
    R s (p.play world k v s).2.2.2 := by
  induction p generalizing k v s with
  | done r => exact hrefl s
  | note x p ih => exact ih h.2 hv
  | call f p h' ihp ihh =>
    cases v with
    | none =>
      cases hf : f (world k) s with
      | ok s₁ => simpa [play, hf] using htrans _ _ _ (h.1 _ _ _ hf) (ihp _ _ (h.2.1 _ _) (by simp))
      | error e => simpa [play, hf] using ihh e (h.2.2 e) (by simp)
    | some v =>
      cases hf : f (world k) v with
      | ok v₁ =>
        have hopen : ∀ v', some v₁ = some v' → R s v' := by
          rintro _ ⟨⟩
          exact htrans _ _ _ (hv v rfl) (h.1 _ _ _ hf)
        simpa [play, hf] using ihp _ _ (h.2.1 _ _) hopen
      | error e => simpa [play, hf] using ihh e (h.2.2 e) hv
  | begin p ih =>
    refine ih h.2 ?_
    rintro _ ⟨⟩
    exact hrefl s
  | commit f p h' ihp ihh =>
    cases hf : f (world k) (v.getD s) with
    | ok s₁ =>
      have hR : R s s₁ := by
        cases v with
        | none => exact h.2.1 _ _ _ hf
        | some v => exact htrans _ _ _ (hv v rfl) (h.2.1 _ _ _ hf)
      simpa [play, hf] using htrans _ _ _ hR (ihp _ _ (h.2.2.1 _ _) (by simp))
    | error e => simpa [play, hf] using ihh e (h.2.2.2 e) (by simp)
  | rollback p ih => exact ih h.2 (by simp)

/-- A fragment of a transaction commits nothing. -/
theorem play_fragment {R : σ → σ → Prop} {N : ν → Prop} {p : Prog γ σ ε ν α} {v : σ} (h : Within R N false p)
    (hrefl : ∀ s, R s s) (htrans : ∀ s s' s'', R s s' → R s' s'' → R s s'') :
    ∃ v', (p.play world k (some v) s).2.2 = (some v', s) ∧ R v v' := by
  induction p generalizing k v with
  | done r => exact ⟨v, rfl, hrefl v⟩
  | note x p ih => exact ih h.2
  | call f p h' ihp ihh =>
    cases hf : f (world k) v with
    | ok v₁ =>
      obtain ⟨v', heq, hR⟩ := @ihp (world k) v (k + 1) v₁ (h.2.1 _ _)
      exact ⟨v', by simpa [play, hf] using heq, htrans v v₁ v' (h.1 _ _ _ hf) hR⟩
    | error e =>
      obtain ⟨v', heq, hR⟩ := @ihh e (k + 1) v (h.2.2 e)
      exact ⟨v', by simpa [play, hf] using heq, hR⟩
  | _ => exact absurd h.1 (by simp)

/-- A transaction whose body succeeds is committed, unless the commit is refused. -/
theorem play_transaction_commit {f : γ → σ → Except ε σ} {body : Prog γ σ ε ν α} {a : α}
    (hbody : body.play world (k + 1) (some s) s = (.ok a, k', v', s')) :
    (transaction f body).play world k v s = match f (world k') (v'.getD s') with
      | .ok s₁ => (.ok a, k' + 1, none, s₁)
      | .error e => (.error e, k' + 1, none, s') := by
  rw [transaction, play, play_andThen, hbody]
  cases hf : f (world k') (v'.getD s') <;> simp [close, play, hf]

theorem play_transaction_ok {f : γ → σ → Except ε σ} {body : Prog γ σ ε ν α} {a : α} {s₁ : σ}
    (hbody : body.play world (k + 1) (some s) s = (.ok a, k', v', s'))
    (hf : f (world k') (v'.getD s') = .ok s₁) :
    (transaction f body).play world k v s = (.ok a, k' + 1, none, s₁) := by
  rw [play_transaction_commit hbody, hf]

theorem play_transaction_error {f : γ → σ → Except ε σ} {body : Prog γ σ ε ν α} {e : ε}
    (hbody : body.play world (k + 1) (some s) s = (.error e, k', v', s')) :
    (transaction f body).play world k v s = (.error e, k' + 1, none, s') := by
  rw [transaction, play, play_andThen, hbody]
  rfl

theorem play_tryCatch_ok {p : Prog γ σ ε ν α} {h : ε → Prog γ σ ε ν α} {a : α}
    (hp : p.play world k v s = (.ok a, k', v', s')) :
    (tryCatch p h).play world k v s = (.ok a, k', v', s') := by
  refine (play_andThen p _).trans ?_
  rw [hp]
  rfl

theorem play_tryCatch_error {p : Prog γ σ ε ν α} {h : ε → Prog γ σ ε ν α} {e : ε}
    (hp : p.play world k v s = (.error e, k', v', s')) :
    (tryCatch p h).play world k v s = (h e).play world k' v' s' := by
  refine (play_andThen p _).trans ?_
  rw [hp]

end Prog
end Async
