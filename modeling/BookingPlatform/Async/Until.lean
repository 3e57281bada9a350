import BookingPlatform.Async.Frame
import BookingPlatform.Async.Runs

/-! Programs that change the store within a relation up to one commit that they are here for. -/
namespace Async
variable {γ σ ε ν α β : Type} {R : σ → σ → Prop} {w : Option (σ → Except ε σ)} {s : σ} {g : γ}

namespace Prog

/-- Every effect is within `R` up to a commit within `X`; without one the program ends as `Q` says.
`X` sees the stores before and after the commit, and what is left of the program. -/
@[simp] def Until (R : σ → σ → Prop) (X : σ → σ → Prog γ σ ε ν α → Prop)
    (Q : Except ε α → Option (σ → Except ε σ) → Prop) : Prog γ σ ε ν α → Option (σ → Except ε σ) → Prop
  | .done r, w => Q r w
  | .note _ p, w => p.Until R X Q w
  | .call f p h, none => (∀ g s s', f g s = .ok s' → R s s' ∧ (p g s).Until R X Q none) ∧
      ∀ e, (h e).Until R X Q none
  | .call f p h, some w =>
      (∀ g v v', f g v = .ok v' → (p g v).Until R X Q (some fun s => (w s).bind (f g))) ∧
      ∀ e, (h e).Until R X Q (some w)
  | .begin p, _ => p.Until R X Q (some .ok)
  | .commit f p h, w => (∀ g s v s', w.getD .ok s = .ok v → f g v = .ok s' →
      X s s' (p g v) ∨ R s s' ∧ (p g v).Until R X Q none) ∧ ∀ e, (h e).Until R X Q none
  | .rollback p, _ => p.Until R X Q none

theorem until_andThen {X : σ → σ → Prog γ σ ε ν β → Prop} {Q : Except ε β → Option (σ → Except ε σ) → Prop}
    {p : Prog γ σ ε ν α} {k : Except ε α → Prog γ σ ε ν β}
    (h : p.Until R (fun s s' rest => X s s' (rest.andThen k)) (fun r w => (k r).Until R X Q w) w) :
    (p.andThen k).Until R X Q w := by
  induction p generalizing w with
  | done r => exact h
  | note x p ih => exact ih h
  | call f p h' ihp ihh =>
    cases w with
    | none => exact ⟨fun g s s' hf => (h.1 g s s' hf).imp_right (ihp g s), fun e => ihh e (h.2 e)⟩
    | some w => exact ⟨fun g v v' hf => ihp g v (h.1 g v v' hf), fun e => ihh e (h.2 e)⟩
  | begin p ih => exact ih h
  | commit f p h' ihp ihh =>
    exact ⟨fun g s v s' hv hf => (h.1 g s v s' hv hf).imp_right fun hrest => hrest.imp_right (ihp g v),
      fun e => ihh e (h.2 e)⟩
  | rollback p ih => exact ih h

theorem until_bind {X : σ → σ → Prog γ σ ε ν β → Prop} {Q : Except ε β → Option (σ → Except ε σ) → Prop}
    {p : Prog γ σ ε ν α} {f : α → Prog γ σ ε ν β}
    (h : p.Until R (fun s s' rest => X s s' (rest.andThen (onOk f))) (fun r w => (onOk f r).Until R X Q w) w) :
    (p >>= f).Until R X Q w := until_andThen h

section rules
variable {X : σ → σ → Prog γ σ ε ν α → Prop} {Q : Except ε α → Option (σ → Except ε σ) → Prop}

theorem until_ensure {X : σ → σ → Prog γ σ ε ν Unit → Prop}
    {Q : Except ε Unit → Option (σ → Except ε σ) → Prop} {b : Prop} [Decidable b] {e : ε}
    (hok : b → Q (.ok ()) w) (herr : Q (.error e) w) : (ensure b e : Prog γ σ ε ν Unit).Until R X Q w := by
  unfold ensure
  by_cases hb : b
  · rw [if_pos hb]
    exact hok hb
  · rw [if_neg hb]
    exact herr

theorem until_orThrow {o : Option α} {e : ε} (hok : ∀ a, o = some a → Q (.ok a) w) (herr : Q (.error e) w) :
    (orThrow o e : Prog γ σ ε ν α).Until R X Q w := by
  cases o with
  | some a => exact hok a rfl
  | none => exact herr

theorem until_op {f : γ → σ → Except ε (α × σ)}
    (hok : ∀ g s a s', f g s = .ok (a, s') → R s s' ∧ Q (.ok a) none) (herr : ∀ e, Q (.error e) none) :
    (op f : Prog γ σ ε ν α).Until R X Q none := by
  refine ⟨fun g s s' hs => ?_, herr⟩
  cases hf : f g s with
  | ok r =>
    obtain rfl : r.2 = s' := by simpa [hf, Except.map] using hs
    simpa [Until, hf, Except.map] using hok g s r.1 r.2 hf
  | error e => simp [hf, Except.map] at hs

theorem until_single {f : γ → σ → Except ε (α × σ)}
    (hok : ∀ g s a s', f g s = .ok (a, s') → X s s' (done (.ok a)) ∨ R s s' ∧ Q (.ok a) none)
    (herr : ∀ e, Q (.error e) none) : (single f : Prog γ σ ε ν α).Until R X Q none := by
  refine ⟨fun g s v s' hv hs => ?_, herr⟩
  obtain rfl : s = v := by simpa using hv
  cases hf : f g s with
  | ok r =>
    obtain rfl : r.2 = s' := by simpa [hf, Except.map] using hs
    simpa [Until, hf, Except.map] using hok g s r.1 r.2 hf
  | error e => simp [hf, Except.map] at hs

/-- A program that never leaves the relation. -/
theorem until_of_within {N : ν → Prop} {p : Prog γ σ ε ν α} (h : Within R N true p) (hrefl : ∀ s, R s s)
    (htrans : ∀ s s' s'', R s s' → R s' s'' → R s s'') (hw : ∀ w', w = some w' → Pending R w')
    (hQ : ∀ r w, Q r w) : p.Until R X Q w := by
  induction p generalizing w with
  | done r => exact hQ r w
  | note x p ih => exact ih h.2 hw
  | call f p h' ihp ihh =>
    cases w with
    | none =>
      exact ⟨fun g s s' hf => ⟨h.1 g s s' hf, ihp g s (h.2.1 g s) (by simp)⟩, fun e => ihh e (h.2.2 e) (by simp)⟩
    | some w =>
      refine ⟨fun g v v' _ => ihp g v (h.2.1 g v) ?_, fun e => ihh e (h.2.2 e) hw⟩
      rintro _ ⟨⟩ s v₂ hv₂
      cases hws : w s with
      | error e => simp [hws, Except.bind] at hv₂
      | ok v₁ =>
        exact htrans s v₁ v₂ (hw w rfl s v₁ hws) (h.1 g v₁ v₂ (by simpa [hws, Except.bind] using hv₂))
  | begin p ih =>
    refine ih h.2 ?_
    rintro _ ⟨⟩ s v ⟨⟩
    exact hrefl s
  | commit f p h' ihp ihh =>
    refine ⟨fun g s v s' hv hf => .inr ⟨?_, ihp g v (h.2.2.1 g v) (by simp)⟩, fun e => ihh e (h.2.2.2 e) (by simp)⟩
    cases w with
    | none =>
      obtain rfl : s = v := by simpa using hv
      exact h.2.1 g s s' hf
    | some w => exact htrans s v s' (hw w rfl s v hv) (h.2.1 g v s' hf)
  | rollback p ih => exact ih h.2 (by simp)

end rules
end Prog

section threads
variable {X : σ → σ → Prog γ σ ε ν α → Prop} {Q : Except ε α → Option (σ → Except ε σ) → Prop}

def Thread.Until (R : σ → σ → Prop) (X : σ → σ → Prog γ σ ε ν α → Prop)
    (Q : Except ε α → Option (σ → Except ε σ) → Prop) (t : Thread γ σ ε ν α) : Prop := t.prog.Until R X Q t.tx

theorem Thread.settle_until {p : Prog γ σ ε ν α} {ns : List ν} (h : p.Until R X Q w) :
    (Thread.settle p w ns).Until R X Q := by
  induction p generalizing ns with
  | note x p ih => exact ih h
  | _ => exact h

/-- A step is the commit that the program is here for, or it is within the relation. -/
theorem Thread.Until.step {t : Thread γ σ ε ν α} (h : t.Until R X Q) (hrefl : ∀ s, R s s) :
    (∃ rest, X s (t.step g s).2 rest ∧ (t.step g s).1 = .settle rest none []) ∨
      R s (t.step g s).2 ∧ (t.step g s).1.Until R X Q := by
  obtain ⟨p, w, ns⟩ := t
  cases p with
  | done r => exact .inr ⟨hrefl s, h⟩
  | note x p => exact .inr ⟨hrefl s, Thread.settle_until h⟩
  | call f p k =>
    right
    cases w with
    | none =>
      cases hs : f g s with
      | ok s' => simpa [Thread.step, hs] using (h.1 g s s' hs).imp_right Thread.settle_until
      | error e => simpa [Thread.step, hs] using ⟨hrefl s, Thread.settle_until (h.2 e)⟩
    | some w =>
      cases hv : w s with
      | error e => simpa [Thread.step, hv] using ⟨hrefl s, Thread.settle_until (h.2 e)⟩
      | ok v =>
        cases hs : f g v with
        | ok v' => simpa [Thread.step, hv, hs] using ⟨hrefl s, Thread.settle_until (h.1 g v v' hs)⟩
        | error e => simpa [Thread.step, hv, hs] using ⟨hrefl s, Thread.settle_until (h.2 e)⟩
  | begin p => exact .inr ⟨hrefl s, Thread.settle_until h⟩
  | commit f p k =>
    cases hv : w.getD .ok s with
    | error e => simpa [Thread.step, hv] using Or.inr ⟨hrefl s, Thread.settle_until (h.2 e)⟩
    | ok v =>
      cases hs : f g v with
      | error e => simpa [Thread.step, hv, hs] using Or.inr ⟨hrefl s, Thread.settle_until (h.2 e)⟩
      | ok s' =>
        rcases h.1 g s v s' hv hs with hX | ⟨hR, hrest⟩
        · exact .inl ⟨p g v, by simpa [Thread.step, hv, hs] using hX, by simp [Thread.step, hv, hs]⟩
        · exact .inr (by simpa [Thread.step, hv, hs] using ⟨hR, Thread.settle_until hrest⟩)
  | rollback p => exact .inr ⟨hrefl s, Thread.settle_until h⟩

end threads
end Async
