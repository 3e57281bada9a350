import BookingPlatform.Async.Machine

/-! Weakest preconditions in which every awaited call is a point of interference. -/
namespace Async
variable {ι ρ γ σ ε ν α β : Type}

/-- What the steps of a handler owe. A note needs grounds: the notes already held, or the
stores before and after the step it is taken with. -/
structure Contract (γ σ ν : Type) where
  env : γ → σ → Prop
  rely : σ → σ → Prop
  rely_refl : ∀ s, rely s s
  rely_trans : ∀ {s s' s''}, rely s s' → rely s' s'' → rely s s''
  note : List ν → ν → σ → σ → Prop
  auto : List ν → σ → σ → Prop
  commit : List ν → σ → σ → Prop
  read : ∀ ns s, auto ns s s

/-- A postcondition sees the outcome, the open transaction, the notes and the stores before
and after the last step. -/
abbrev Post (σ ε ν α : Type) := Except ε α → Option (σ → Except ε σ) → List ν → σ → σ → Prop

/-- No postcondition. -/
def anyway : Post σ ε ν α := fun _ _ _ _ _ => True

/-- The store may have moved as `rely` allows whenever the next call is made. -/
@[simp] def wp (C : Contract γ σ ν) (Q : Post σ ε ν α) :
    Prog γ σ ε ν α → Option (σ → Except ε σ) → List ν → σ → σ → Prop
  | .done r, w, ns, s₀, s => Q r w ns s₀ s
  | .note x p, w, ns, s₀, s => C.note ns x s₀ s ∧ wp C Q p w (x :: ns) s₀ s
  | .call f p h, none, ns, _, s => ∀ g s₁, C.env g s₁ → C.rely s s₁ →
      (∀ s₂, f g s₁ = .ok s₂ → C.auto ns s₁ s₂ ∧ wp C Q (p g s₁) none ns s₁ s₂) ∧
      (∀ e, f g s₁ = .error e → wp C Q (h e) none ns s₁ s₁)
  | .call f p h, some w, ns, _, s => ∀ g s₁, C.env g s₁ → C.rely s s₁ →
      (∀ v v', w s₁ = .ok v → f g v = .ok v' →
        wp C Q (p g v) (some fun s => (w s).bind (f g)) ns s₁ s₁) ∧
      (∀ e, (w s₁).bind (f g) = .error e → wp C Q (h e) (some w) ns s₁ s₁)
  | .begin p, _, ns, _, s => ∀ s₁, C.rely s s₁ → wp C Q p (some .ok) ns s₁ s₁
  | .commit f p h, w, ns, _, s => ∀ g s₁, C.env g s₁ → C.rely s s₁ →
      (∀ v s₂, w.getD .ok s₁ = .ok v → f g v = .ok s₂ →
        C.commit ns s₁ s₂ ∧ wp C Q (p g v) none [] s₁ s₂) ∧
      (∀ e, (w.getD .ok s₁).bind (f g) = .error e → wp C Q (h e) none [] s₁ s₁)
  | .rollback p, _, _, _, s => ∀ s₁, C.rely s s₁ → wp C Q p none [] s₁ s₁

section rules
variable {C : Contract γ σ ν} {Q : Post σ ε ν α} {w : Option (σ → Except ε σ)} {ns : List ν}
  {s₀ s : σ}

theorem wp_andThen {R : Post σ ε ν β} (p : Prog γ σ ε ν α)
    (k : Except ε α → Prog γ σ ε ν β) :
    wp C R (p.andThen k) w ns s₀ s ↔
      wp C (fun r w ns s₀ s => wp C R (k r) w ns s₀ s) p w ns s₀ s := by
  induction p generalizing w ns s₀ s with
  | done r => rfl
  | note x p ih => simp only [Prog.andThen, wp, ih]
  | call f p h ihp ihh => cases w <;> simp only [Prog.andThen, wp, ihp, ihh]
  | begin p ih => simp only [Prog.andThen, wp, ih]
  | commit f p h ihp ihh => simp only [Prog.andThen, wp, ihp, ihh]
  | rollback p ih => simp only [Prog.andThen, wp, ih]

theorem wp_bind {R : Post σ ε ν β} (p : Prog γ σ ε ν α) (f : α → Prog γ σ ε ν β) :
    wp C R (p >>= f) w ns s₀ s ↔
      wp C (fun r w ns s₀ s => wp C R (Prog.onOk f r) w ns s₀ s) p w ns s₀ s :=
  wp_andThen p _

@[simp] theorem wp_onOk_ok {R : Post σ ε ν β} (f : α → Prog γ σ ε ν β) (a : α) :
    wp C R (Prog.onOk f (.ok a)) w ns s₀ s ↔ wp C R (f a) w ns s₀ s := Iff.rfl

@[simp] theorem wp_pure (a : α) : wp C Q (pure a : Prog γ σ ε ν α) w ns s₀ s ↔ Q (.ok a) w ns s₀ s := Iff.rfl

@[simp] theorem wp_mark {Q : Post σ ε ν Unit} (x : ν) :
    wp C Q (Prog.mark x) w ns s₀ s ↔ C.note ns x s₀ s ∧ Q (.ok ()) w (x :: ns) s₀ s := Iff.rfl

@[simp] theorem wp_ensure {Q : Post σ ε ν Unit} (c : Prop) [Decidable c] (e : ε) :
    wp C Q (Prog.ensure c e) w ns s₀ s ↔
      (c → Q (.ok ()) w ns s₀ s) ∧ (¬ c → Q (.error e) w ns s₀ s) := by
  unfold Prog.ensure
  by_cases hc : c <;> simp [hc]

@[simp] theorem wp_orThrow (o : Option α) (e : ε) :
    wp C Q (Prog.orThrow o e) w ns s₀ s ↔
      (∀ a, o = some a → Q (.ok a) w ns s₀ s) ∧ (o = none → Q (.error e) w ns s₀ s) := by
  cases o <;> simp [Prog.orThrow]

theorem wp_mono {Q' : Post σ ε ν α} {p : Prog γ σ ε ν α}
    (hQ : ∀ r w ns s₀ s, Q r w ns s₀ s → Q' r w ns s₀ s) (h : wp C Q p w ns s₀ s) :
    wp C Q' p w ns s₀ s := by
  induction p generalizing w ns s₀ s with
  | done r => exact hQ _ _ _ _ _ h
  | note x p ih => exact ⟨h.1, ih h.2⟩
  | call f p hf ihp ihh =>
    cases w with
    | none =>
      intro g s₁ hg hr
      obtain ⟨hok, herr⟩ := h g s₁ hg hr
      exact ⟨fun s₂ hs => ⟨(hok s₂ hs).1, ihp _ _ (hok s₂ hs).2⟩, fun e he => ihh _ (herr e he)⟩
    | some w =>
      intro g s₁ hg hr
      obtain ⟨hok, herr⟩ := h g s₁ hg hr
      exact ⟨fun v v' hv hv' => ihp _ _ (hok v v' hv hv'), fun e he => ihh _ (herr e he)⟩
  | begin p ih => exact fun s₁ hr => ih (h s₁ hr)
  | commit f p hf ihp ihh =>
    intro g s₁ hg hr
    obtain ⟨hok, herr⟩ := h g s₁ hg hr
    refine ⟨fun v s₂ hv hs => ?_, fun e he => ihh _ (herr e he)⟩
    exact ⟨(hok v s₂ hv hs).1, ihp _ _ (hok v s₂ hv hs).2⟩
  | rollback p ih => exact fun s₁ hr => ih (h s₁ hr)

/-- The answer of the program is passed on in another form. -/
theorem wp_map {Q : Post σ ε ν β} {p : Prog γ σ ε ν α} {f : α → β}
    (h : wp C (fun r => Q (r.map f)) p w ns s₀ s) : wp C Q (p >>= fun a => pure (f a)) w ns s₀ s := by
  refine (wp_bind _ _).mpr (wp_mono (fun r w ns s₀ s hr => ?_) h)
  cases r with
  | ok a => exact hr
  | error e => exact hr

/-- Nothing is asked, and nothing is known. -/
def Contract.free : Contract γ σ ν where
  env _ _ := True
  rely _ _ := True
  rely_refl _ := trivial
  rely_trans _ _ := trivial
  note _ _ _ _ := True
  auto _ _ _ := True
  commit _ _ _ := True
  read _ _ := trivial

theorem wp_free (p : Prog γ σ ε ν α) : wp .free anyway p w ns s₀ s := by
  induction p generalizing w ns s₀ s with
  | done r => trivial
  | note x p ih => exact ⟨trivial, ih⟩
  | call f p h ihp ihh =>
    cases w with
    | none => exact fun g s₁ _ _ => ⟨fun _ _ => ⟨trivial, ihp g s₁⟩, fun e _ => ihh e⟩
    | some w => exact fun g s₁ _ _ => ⟨fun v _ _ _ => ihp g v, fun e _ => ihh e⟩
  | begin p ih => exact fun _ _ => ih
  | commit f p h ihp ihh => exact fun g s₁ _ _ => ⟨fun v _ _ _ => ⟨trivial, ihp g v⟩, fun e _ => ihh e⟩
  | rollback p ih => exact fun _ _ => ih

/-- An answer, if there is one, is within `P`. -/
def returning (P : α → Prop) : Post σ ε ν α := fun r _ _ _ _ => ∀ a, r = .ok a → P a

theorem returning_error {P : α → Prop} {e : ε} : returning P (.error e) w ns s₀ s := by
  rintro a ⟨⟩

theorem wp_return {P : β → Prop} {p : Prog γ σ ε ν α} {f : α → β}
    (h : wp C (returning fun a => P (f a)) p w ns s₀ s) :
    wp C (returning P) (p >>= fun a => pure (f a)) w ns s₀ s := by
  refine wp_map (wp_mono (fun r w ns s₀ s hr b hb => ?_) h)
  cases r with
  | ok a =>
    obtain rfl : f a = b := by simpa [Except.map] using hb
    exact hr a rfl
  | error e => simp [Except.map] at hb

/-- What holds under a contract holds under one that assumes more and asks for less. -/
theorem wp_weaken {C' : Contract γ σ ν} {p : Prog γ σ ε ν α}
    (henv : ∀ {g s}, C'.env g s → C.env g s) (hrely : ∀ {s s'}, C'.rely s s' → C.rely s s')
    (hnote : ∀ {ns x s s'}, C.note ns x s s' → C'.note ns x s s')
    (hauto : ∀ {ns s s'}, C.auto ns s s' → C'.auto ns s s')
    (hcommit : ∀ {ns s s'}, C.commit ns s s' → C'.commit ns s s')
    (h : wp C Q p w ns s₀ s) : wp C' Q p w ns s₀ s := by
  induction p generalizing w ns s₀ s with
  | done r => exact h
  | note x p ih => exact ⟨hnote h.1, ih h.2⟩
  | call f p hf ihp ihh =>
    cases w with
    | none =>
      intro g s₁ hg hr
      obtain ⟨hok, herr⟩ := h g s₁ (henv hg) (hrely hr)
      exact ⟨fun s₂ hs => ⟨hauto (hok s₂ hs).1, ihp _ _ (hok s₂ hs).2⟩, fun e he => ihh _ (herr e he)⟩
    | some w =>
      intro g s₁ hg hr
      obtain ⟨hok, herr⟩ := h g s₁ (henv hg) (hrely hr)
      exact ⟨fun v v' hv hv' => ihp _ _ (hok v v' hv hv'), fun e he => ihh _ (herr e he)⟩
  | begin p ih => exact fun s₁ hr => ih (h s₁ (hrely hr))
  | commit f p hf ihp ihh =>
    intro g s₁ hg hr
    obtain ⟨hok, herr⟩ := h g s₁ (henv hg) (hrely hr)
    refine ⟨fun v s₂ hv hs => ?_, fun e he => ihh _ (herr e he)⟩
    exact ⟨hcommit (hok v s₂ hv hs).1, ihp _ _ (hok v s₂ hv hs).2⟩
  | rollback p ih => exact fun s₁ hr => ih (h s₁ (hrely hr))

/-- A call outside a transaction commits its own effect. -/
theorem wp_op {f : γ → σ → Except ε (α × σ)}
    (h : ∀ g s₁, C.env g s₁ → C.rely s s₁ →
      (∀ a s₂, f g s₁ = .ok (a, s₂) → C.auto ns s₁ s₂ ∧ Q (.ok a) none ns s₁ s₂) ∧
      (∀ e, f g s₁ = .error e → Q (.error e) none ns s₁ s₁)) :
    wp C Q (Prog.op f) none ns s₀ s := by
  intro g s₁ hg hr
  obtain ⟨hok, herr⟩ := h g s₁ hg hr
  cases hf : f g s₁ with
  | ok r =>
    refine ⟨?_, fun e he => by simp [hf, Except.map] at he⟩
    intro s₂ hs
    obtain rfl : r.2 = s₂ := by simpa [hf, Except.map] using hs
    simpa [wp, hf, Except.map] using hok r.1 r.2 hf
  | error e =>
    refine ⟨fun s₂ hs => by simp [hf, Except.map] at hs, ?_⟩
    intro e' he
    obtain rfl : e = e' := by simpa [hf, Except.map] using he
    exact herr e hf

/-- A transaction of one call. -/
theorem wp_single {f : γ → σ → Except ε (α × σ)}
    (h : ∀ g s₁, C.env g s₁ → C.rely s s₁ →
      (∀ a s₂, f g s₁ = .ok (a, s₂) → C.commit ns s₁ s₂ ∧ Q (.ok a) none [] s₁ s₂) ∧
      (∀ e, f g s₁ = .error e → Q (.error e) none [] s₁ s₁)) :
    wp C Q (Prog.single f) none ns s₀ s := by
  intro g s₁ hg hr
  obtain ⟨hok, herr⟩ := h g s₁ hg hr
  cases hf : f g s₁ with
  | ok r =>
    refine ⟨?_, fun e he => by simp [hf, Except.map, Except.bind] at he⟩
    rintro v s₂ ⟨⟩ hs
    obtain rfl : r.2 = s₂ := by simpa [hf, Except.map] using hs
    simpa [wp, hf, Except.map] using hok r.1 r.2 hf
  | error e =>
    refine ⟨?_, ?_⟩
    · rintro v s₂ ⟨⟩ hs
      simp [hf, Except.map] at hs
    · intro e' he
      obtain rfl : e = e' := by simpa [hf, Except.map, Except.bind] using he
      exact herr e hf

/-- Replaying the writes `w` changes a store only as `R` says. -/
def Pending (R : σ → σ → Prop) (w : σ → Except ε σ) : Prop := ∀ s v, w s = .ok v → R s v

theorem Pending.mono {R R' : σ → σ → Prop} {w : σ → Except ε σ} (h : Pending R w)
    (hR : ∀ s v, R s v → R' s v) : Pending R' w := fun s v hv => hR s v (h s v hv)

/-- A call inside a transaction only lengthens what is replayed at the commit. -/
theorem wp_op_tx {f : γ → σ → Except ε (α × σ)} {w : σ → Except ε σ} {R : σ → σ → Prop}
    (hw : Pending R w)
    (h : ∀ g s₁, C.env g s₁ → C.rely s s₁ →
      (∀ v a v', w s₁ = .ok v → R s₁ v → f g v = .ok (a, v') → ∀ w',
        Pending (fun s v' => ∃ v a, R s v ∧ f g v = .ok (a, v')) w' → w' s₁ = .ok v' →
          Q (.ok a) (some w') ns s₁ s₁) ∧
      (∀ e, (w s₁).bind (f g) = .error e → Q (.error e) (some w) ns s₁ s₁)) :
    wp C Q (Prog.op f) (some w) ns s₀ s := by
  intro g s₁ hg hr
  obtain ⟨hok, herr⟩ := h g s₁ hg hr
  have hmap (s' : σ) : (w s').bind (fun v => (f g v).map Prod.snd) =
      ((w s').bind (f g)).map Prod.snd := by cases w s' <;> rfl
  refine ⟨?_, fun e he => ?_⟩
  · intro v v' hv hf
    cases hfv : f g v with
    | error e => simp [hfv, Except.map] at hf
    | ok r =>
      obtain rfl : r.2 = v' := by simpa [hfv, Except.map] using hf
      have hpending : Pending (fun s v' => ∃ v a, R s v ∧ f g v = .ok (a, v'))
          (fun s => (w s).bind fun v => (f g v).map Prod.snd) := by
        intro s' v' hv'
        cases hws : w s' with
        | error e => simp [hws, Except.bind] at hv'
        | ok v₁ =>
          cases hfv₁ : f g v₁ with
          | error e => simp [hws, hfv₁, Except.bind, Except.map] at hv'
          | ok r₁ =>
            obtain rfl : r₁.2 = v' := by simpa [hws, hfv₁, Except.bind, Except.map] using hv'
            exact ⟨v₁, r₁.1, hw s' v₁ hws, hfv₁⟩
      have := hok v r.1 r.2 hv (hw s₁ v hv) hfv _ hpending
        (by simp [hv, hfv, Except.bind, Except.map])
      simpa [wp, hfv, Except.map] using this
  · simp only [hmap] at he
    cases hb : (w s₁).bind (f g) with
    | ok r => simp [hb, Except.map] at he
    | error e' =>
      obtain rfl : e' = e := by simpa [hb, Except.map] using he
      exact herr e' hb

/-- What is owed when the body of a transaction has ended. -/
def closing (C : Contract γ σ ν) (f : γ → σ → Except ε σ) (Q : Post σ ε ν α) : Post σ ε ν α
  | .ok a, w, ns, _, s => ∀ g s₁, C.env g s₁ → C.rely s s₁ →
      (∀ v s₂, w.getD .ok s₁ = .ok v → f g v = .ok s₂ →
        C.commit ns s₁ s₂ ∧ Q (.ok a) none [] s₁ s₂) ∧
      (∀ e, (w.getD .ok s₁).bind (f g) = .error e → Q (.error e) none [] s₁ s₁)
  | .error e, _, _, _, s => ∀ s₁, C.rely s s₁ → Q (.error e) none [] s₁ s₁

theorem wp_transaction {f : γ → σ → Except ε σ} {body : Prog γ σ ε ν α} :
    wp C Q (Prog.transaction f body) w ns s₀ s ↔
      ∀ s₁, C.rely s s₁ → wp C (closing C f Q) body (some .ok) ns s₁ s₁ := by
  simp only [Prog.transaction, wp, wp_andThen]
  refine forall₂_congr fun s₁ _ => ?_
  have : (fun r w ns s₀ s => wp C Q (Prog.close f r) w ns s₀ s) = closing C f Q := by
    funext r w ns s₀ s
    cases r <;> rfl
  rw [this]

theorem wp_tryCatch {p : Prog γ σ ε ν α} {h : ε → Prog γ σ ε ν α} :
    wp C Q (tryCatch p h) w ns s₀ s ↔
      wp C (fun r w ns s₀ s => match r with
        | .ok a => Q (.ok a) w ns s₀ s
        | .error e => wp C Q (h e) w ns s₀ s) p w ns s₀ s := by
  refine (wp_andThen p _).trans (iff_of_eq ?_)
  congr 1
  funext r w ns s₀ s
  cases r <;> rfl

end rules

/-! ### One step of a thread -/

/-- `ns'` extends `ns` by notes taken with a step from `s` to `s'`. -/
inductive Taken (C : Contract γ σ ν) (s s' : σ) (ns : List ν) : List ν → Prop where
  | refl : Taken C s s' ns ns
  | note {ns' : List ν} {x : ν} : Taken C s s' ns ns' → C.note ns' x s s' →
      Taken C s s' ns (x :: ns')

theorem Taken.trans {C : Contract γ σ ν} {s s' : σ} {ns ns' ns'' : List ν}
    (h : Taken C s s' ns ns') (h' : Taken C s s' ns' ns'') : Taken C s s' ns ns'' := by
  induction h' with
  | refl => exact h
  | note _ hx ih => exact .note ih hx

/-- What holds of the notes held holds of those taken when their grounds give it. -/
theorem Taken.forall {C : Contract γ σ ν} {s s' : σ} {ns ns' : List ν} {P : ν → Prop}
    (h : Taken C s s' ns ns') (hns : ∀ x ∈ ns, P x)
    (hnew : ∀ held x, (∀ y ∈ held, P y) → C.note held x s s' → P x) : ∀ x ∈ ns', P x := by
  induction h with
  | refl => exact hns
  | note _ hx ih =>
    intro y hy
    rcases List.mem_cons.mp hy with rfl | hy
    · exact hnew _ _ ih hx
    · exact ih y hy

/-- What a step does to the store and to the notes of its thread. -/
inductive Stepped (C : Contract γ σ ν) (ns ns' : List ν) (s s' : σ) : Prop where
  | keep : C.auto ns s s' → Taken C s s' ns ns' → Stepped C ns ns' s s'
  | clear : C.commit ns s s' ∨ s' = s → Taken C s s' [] ns' → Stepped C ns ns' s s'

/-- A thread of which only steps are left, all within the contract. -/
structure Thread.Obeys (C : Contract γ σ ν) (Q : Post σ ε ν α) (t : Thread γ σ ε ν α)
    (s₀ s : σ) : Prop where
  settled : ∀ x p, t.prog ≠ .note x p
  owes : wp C Q t.prog t.tx t.notes s₀ s

theorem Thread.settle_obeys {C : Contract γ σ ν} {Q : Post σ ε ν α} {p : Prog γ σ ε ν α}
    {w : Option (σ → Except ε σ)} {ns : List ν} {s₀ s : σ} (h : wp C Q p w ns s₀ s) :
    Taken C s₀ s ns (Thread.settle p w ns).notes ∧ (Thread.settle p w ns).Obeys C Q s₀ s := by
  induction p generalizing ns with
  | note x p ih =>
    obtain ⟨htaken, hp⟩ := ih h.2
    exact ⟨(Taken.note .refl h.1).trans htaken, hp⟩
  | _ => exact ⟨.refl, by simp [Thread.settle], h⟩

theorem Thread.Obeys.step {C : Contract γ σ ν} {Q : Post σ ε ν α} {t : Thread γ σ ε ν α}
    {s₀ s s₁ : σ} {g : γ} (h : t.Obeys C Q s₀ s) (hg : C.env g s₁) (hr : C.rely s s₁) :
    Stepped C t.notes (t.step g s₁).1.notes s₁ (t.step g s₁).2 ∧
      (t.result = none → (t.step g s₁).1.Obeys C Q s₁ (t.step g s₁).2) ∧
      (t.result ≠ none → t.step g s₁ = (t, s₁)) := by
  obtain ⟨p, w, ns⟩ := t
  obtain ⟨hsettled, h⟩ := h
  have keep {p : Prog γ σ ε ν α} {w : Option (σ → Except ε σ)} {s₂ : σ} (ha : C.auto ns s₁ s₂)
      (hp : wp C Q p w ns s₁ s₂) : Stepped C ns (Thread.settle p w ns).notes s₁ s₂ ∧
        (Thread.settle p w ns).Obeys C Q s₁ s₂ := by
    obtain ⟨htaken, hp⟩ := Thread.settle_obeys hp
    exact ⟨.keep ha htaken, hp⟩
  have clear {p : Prog γ σ ε ν α} {s₂ : σ} (hc : C.commit ns s₁ s₂ ∨ s₂ = s₁)
      (hp : wp C Q p none [] s₁ s₂) : Stepped C ns (Thread.settle p none []).notes s₁ s₂ ∧
        (Thread.settle p none []).Obeys C Q s₁ s₂ := by
    obtain ⟨htaken, hp⟩ := Thread.settle_obeys hp
    exact ⟨.clear hc htaken, hp⟩
  cases p with
  | done r => exact ⟨.keep (C.read ns s₁) .refl, by simp [Thread.result], fun _ => rfl⟩
  | note x p => exact absurd rfl (hsettled x p)
  | call f p hf =>
    cases w with
    | none =>
      obtain ⟨hok, herr⟩ := h g s₁ hg hr
      cases hs : f g s₁ with
      | ok s₂ => simpa [Thread.step, Thread.result, hs] using keep (hok s₂ hs).1 (hok s₂ hs).2
      | error e => simpa [Thread.step, Thread.result, hs] using keep (C.read ns s₁) (herr e hs)
    | some w =>
      obtain ⟨hok, herr⟩ := h g s₁ hg hr
      cases hv : w s₁ with
      | error e =>
        simpa [Thread.step, Thread.result, hv] using
          keep (C.read ns s₁) (herr e (by simp [hv, Except.bind]))
      | ok v =>
        cases hs : f g v with
        | ok v' =>
          simpa [Thread.step, Thread.result, hv, hs] using keep (C.read ns s₁) (hok v v' hv hs)
        | error e =>
          simpa [Thread.step, Thread.result, hv, hs] using
            keep (C.read ns s₁) (herr e (by simp [hv, hs, Except.bind]))
  | begin p => simpa [Thread.step, Thread.result] using keep (C.read ns s₁) (h s₁ hr)
  | commit f p hf =>
    obtain ⟨hok, herr⟩ := h g s₁ hg hr
    cases hv : w.getD .ok s₁ with
    | error e =>
      simpa [Thread.step, Thread.result, hv] using
        clear (.inr rfl) (herr e (by simp [hv, Except.bind]))
    | ok v =>
      cases hs : f g v with
      | ok s₂ =>
        simpa [Thread.step, Thread.result, hv, hs] using
          clear (.inl (hok v s₂ hv hs).1) (hok v s₂ hv hs).2
      | error e =>
        simpa [Thread.step, Thread.result, hv, hs] using
          clear (.inr rfl) (herr e (by simp [hv, hs, Except.bind]))
  | rollback p => simpa [Thread.step, Thread.result] using clear (.inr rfl) (h s₁ hr)

theorem Thread.Obeys.ended {C : Contract γ σ ν} {Q : Post σ ε ν α} {t : Thread γ σ ε ν α} {s₀ s : σ}
    {r : Except ε α} (h : t.Obeys C Q s₀ s) (hr : t.result = some r) : Q r t.tx t.notes s₀ s := by
  obtain ⟨q, w, ns⟩ := t
  cases q with
  | done r' =>
    obtain rfl : r' = r := by simpa [Thread.result] using hr
    exact h.owes
  | _ => simp [Thread.result] at hr

/-- What a step does to the store, by whether it is the end of a transaction. -/
theorem Thread.Obeys.step_store {C : Contract γ σ ν} {Q : Post σ ε ν α} {t : Thread γ σ ε ν α}
    {s₀ s s₁ : σ} {g : γ} (h : t.Obeys C Q s₀ s) (hg : C.env g s₁) (hr : C.rely s s₁) :
    (t.Committing ∧ (C.commit t.notes s₁ (t.step g s₁).2 ∨ (t.step g s₁).2 = s₁)) ∨
      C.auto t.notes s₁ (t.step g s₁).2 := by
  obtain ⟨p, w, ns⟩ := t
  obtain ⟨hsettled, h⟩ := h
  cases p with
  | done r => exact .inr (C.read ns s₁)
  | note x p => exact absurd rfl (hsettled x p)
  | begin p => exact .inr (C.read ns s₁)
  | rollback p => exact .inr (C.read ns s₁)
  | call f p hf =>
    right
    cases w with
    | none =>
      cases hs : f g s₁ with
      | ok s₂ => simpa [Thread.step, hs] using ((h g s₁ hg hr).1 s₂ hs).1
      | error e => simpa [Thread.step, hs] using C.read ns s₁
    | some w =>
      cases hv : w s₁ with
      | error e => simpa [Thread.step, hv] using C.read ns s₁
      | ok v => cases hs : f g v <;> simpa [Thread.step, hv, hs] using C.read ns s₁
  | commit f p hf =>
    left
    refine ⟨⟨f, p, hf, rfl⟩, ?_⟩
    cases hv : w.getD .ok s₁ with
    | error e => simp [Thread.step, hv]
    | ok v =>
      cases hs : f g v with
      | error e => simp [Thread.step, hv, hs]
      | ok s₂ => simpa [Thread.step, hv, hs] using Or.inl ((h g s₁ hg hr).1 v s₂ hv hs).1

end Async
