import BookingPlatform.Async.Logic

/-! Programs whose calls change the store only within a given relation. -/
namespace Async
variable {γ σ ε ν α β : Type}

/-- Every effect of the program is within `R` and every note within `N`. A fragment that is
not `whole` has calls and notes only: it leaves an open transaction open. -/
@[simp] def Within (R : σ → σ → Prop) (N : ν → Prop) (whole : Bool) : Prog γ σ ε ν α → Prop
  | .done _ => True
  | .note x p => N x ∧ Within R N whole p
  | .call f p h => (∀ g s s', f g s = .ok s' → R s s') ∧ (∀ g s, Within R N whole (p g s)) ∧
      ∀ e, Within R N whole (h e)
  | .begin p => whole = true ∧ Within R N whole p
  | .commit f p h => whole = true ∧ (∀ g s s', f g s = .ok s' → R s s') ∧
      (∀ g s, Within R N whole (p g s)) ∧ ∀ e, Within R N whole (h e)
  | .rollback p => whole = true ∧ Within R N whole p

namespace Within
variable {R : σ → σ → Prop} {N : ν → Prop} {whole : Bool}

@[simp] theorem done (r : Except ε α) :
    Within R N whole (.done r : Prog γ σ ε ν α) := trivial

@[simp] theorem pure (a : α) : Within R N whole (Pure.pure a : Prog γ σ ε ν α) := trivial

@[simp] theorem throw (e : ε) :
    Within R N whole (MonadExcept.throw e : Prog γ σ ε ν α) := trivial

theorem andThen {p : Prog γ σ ε ν α} {k : Except ε α → Prog γ σ ε ν β}
    (hp : Within R N whole p) (hk : ∀ r, Within R N whole (k r)) :
    Within R N whole (p.andThen k) := by
  induction p with
  | done r => exact hk r
  | note x p ih => exact ⟨hp.1, ih hp.2⟩
  | call f p h ihp ihh =>
    exact ⟨hp.1, fun g s => ihp g s (hp.2.1 g s), fun e => ihh e (hp.2.2 e)⟩
  | begin p ih => exact ⟨hp.1, ih hp.2⟩
  | commit f p h ihp ihh =>
    exact ⟨hp.1, hp.2.1, fun g s => ihp g s (hp.2.2.1 g s), fun e => ihh e (hp.2.2.2 e)⟩
  | rollback p ih => exact ⟨hp.1, ih hp.2⟩

theorem onOk {f : α → Prog γ σ ε ν β} (hf : ∀ a, Within R N whole (f a)) (r : Except ε α) :
    Within R N whole (Prog.onOk f r) := by
  cases r with
  | ok a => exact hf a
  | error e => trivial

theorem bind {p : Prog γ σ ε ν α} {f : α → Prog γ σ ε ν β} (hp : Within R N whole p)
    (hf : ∀ a, Within R N whole (f a)) : Within R N whole (p >>= f) :=
  hp.andThen (onOk hf)

theorem tryCatch {p : Prog γ σ ε ν α} {h : ε → Prog γ σ ε ν α} (hp : Within R N whole p)
    (hh : ∀ e, Within R N whole (h e)) : Within R N whole (MonadExcept.tryCatch p h) := by
  refine hp.andThen fun r => ?_
  cases r with
  | ok a => trivial
  | error e => exact hh e

theorem op {f : γ → σ → Except ε (α × σ)}
    (hf : ∀ g s a s', f g s = .ok (a, s') → R s s') : Within R N whole (Prog.op f) := by
  refine ⟨fun g s s' hs => ?_, fun g s => ?_, fun e => ?_⟩
  · cases hfs : f g s with
    | ok r =>
      obtain rfl : r.2 = s' := by simpa [hfs, Except.map] using hs
      exact hf g s r.1 r.2 hfs
    | error e => simp [hfs, Except.map] at hs
  · trivial
  · trivial

theorem single {f : γ → σ → Except ε (α × σ)}
    (hf : ∀ g s a s', f g s = .ok (a, s') → R s s') : Within R N true (Prog.single f) :=
  ⟨rfl, (op hf : Within R N true (Prog.op f)).1, fun _ _ => trivial, fun _ => trivial⟩

theorem ensure (c : Prop) [Decidable c] (e : ε) :
    Within R N whole (Prog.ensure c e : Prog γ σ ε ν Unit) := by
  unfold Prog.ensure
  split <;> trivial

theorem orThrow (o : Option α) (e : ε) :
    Within R N whole (Prog.orThrow o e : Prog γ σ ε ν α) := by
  cases o <;> trivial

theorem mark {x : ν} (hx : N x) : Within R N whole (Prog.mark x : Prog γ σ ε ν Unit) :=
  ⟨hx, trivial⟩

theorem transaction {f : γ → σ → Except ε σ} {body : Prog γ σ ε ν α}
    (hf : ∀ g s s', f g s = .ok s' → R s s') (hbody : Within R N true body) :
    Within R N true (Prog.transaction f body) := by
  refine ⟨rfl, hbody.andThen fun r => ?_⟩
  cases r with
  | ok a => exact ⟨rfl, hf, fun _ _ => trivial, fun _ => trivial⟩
  | error e => exact ⟨rfl, trivial⟩

variable {C : Contract γ σ ν} {Q : Post σ ε ν α} {ns : List ν} {s₀ s : σ}

/-- A fragment of a transaction: its writes join those that are pending, its notes those that
are held. -/
theorem wp_tx {p : Prog γ σ ε ν α} {w : σ → Except ε σ} {S : σ → σ → Prop}
    (h : Within R N false p) (hw : Pending S w) (hS : ∀ s v v', S s v → R v v' → S s v')
    (hnote : ∀ ns x s s', N x → C.note ns x s s')
    (hQ : ∀ r w' ns' s₀ s', C.rely s s' → Pending S w' → ns ⊆ ns' → Q r (some w') ns' s₀ s') :
    wp C Q p (some w) ns s₀ s := by
  induction p generalizing w ns s₀ s with
  | done r => exact hQ r w ns s₀ s (C.rely_refl s) hw (List.Subset.refl ns)
  | note x p ih =>
    refine ⟨hnote ns x s₀ s h.1, ih h.2 hw fun r w' ns' s₀ s' hs' hw' hns' => ?_⟩
    exact hQ r w' ns' s₀ s' hs' hw' fun y hy => hns' (List.mem_cons_of_mem x hy)
  | call f p h' ihp ihh =>
    intro g s₁ _ hr
    have hQ' : ∀ r w' ns' s₀ s', C.rely s₁ s' → Pending S w' → ns ⊆ ns' →
        Q r (some w') ns' s₀ s' := fun r w' ns' s₀ s' hs' hw' hns' =>
      hQ r w' ns' s₀ s' (C.rely_trans hr hs') hw' hns'
    refine ⟨fun v v' _ _ => ihp g v (h.2.1 g v) ?_ hQ', fun e _ => ihh e (h.2.2 e) hw hQ'⟩
    intro s' v₂ hv₂
    cases hws : w s' with
    | error e => simp [hws, Except.bind] at hv₂
    | ok v₁ => exact hS s' v₁ v₂ (hw s' v₁ hws) (h.1 g v₁ v₂ (by simpa [hws, Except.bind] using hv₂))
  | _ => exact absurd h.1 (by simp)

/-- A fragment outside a transaction. -/
theorem wp_none {p : Prog γ σ ε ν α} (h : Within R N false p)
    (hauto : ∀ ns s s', R s s' → C.auto ns s s') (hnote : ∀ ns x s s', N x → C.note ns x s s')
    (hQ : ∀ r ns' s₀ s', ns ⊆ ns' → Q r none ns' s₀ s') : wp C Q p none ns s₀ s := by
  induction p generalizing ns s₀ s with
  | done r => exact hQ r ns s₀ s (List.Subset.refl ns)
  | note x p ih =>
    refine ⟨hnote ns x s₀ s h.1, ih h.2 fun r ns' s₀ s' hns' => ?_⟩
    exact hQ r ns' s₀ s' fun y hy => hns' (List.mem_cons_of_mem x hy)
  | call f p h' ihp ihh =>
    intro g s₁ _ _
    exact ⟨fun s₂ hs => ⟨hauto ns s₁ s₂ (h.1 g s₁ s₂ hs), ihp g s₁ (h.2.1 g s₁) hQ⟩,
      fun e _ => ihh e (h.2.2 e) hQ⟩
  | _ => exact absurd h.1 (by simp)

/-- A fragment outside a transaction, and a property of the store that it keeps. -/
theorem wp_none_keeps {p : Prog γ σ ε ν α} {I : σ → Prop} (h : Within R N false p)
    (hauto : ∀ ns s s', R s s' → C.auto ns s s') (hnote : ∀ ns x s s', N x → C.note ns x s s')
    (hrely : ∀ s s', C.rely s s' → I s → I s') (hI : ∀ s s', R s s' → I s → I s')
    (hQ : ∀ r ns' s₀ s', I s' → ns ⊆ ns' → Q r none ns' s₀ s') (hs : I s) : wp C Q p none ns s₀ s := by
  induction p generalizing ns s₀ s with
  | done r => exact hQ r ns s₀ s hs (List.Subset.refl ns)
  | note x p ih =>
    refine ⟨hnote ns x s₀ s h.1, ih h.2 (fun r ns' s₀ s' hs' hns' => ?_) hs⟩
    exact hQ r ns' s₀ s' hs' fun y hy => hns' (List.mem_cons_of_mem x hy)
  | call f p h' ihp ihh =>
    intro g s₁ _ hr
    have hs₁ := hrely s s₁ hr hs
    refine ⟨fun s₂ hs₂ => ?_, fun e _ => ihh e (h.2.2 e) hQ hs₁⟩
    exact ⟨hauto ns s₁ s₂ (h.1 g s₁ s₂ hs₂), ihp g s₁ (h.2.1 g s₁) hQ (hI s₁ s₂ (h.1 g s₁ s₂ hs₂) hs₁)⟩
  | _ => exact absurd h.1 (by simp)

/-- A fragment anywhere, when nothing is asked of its end. -/
theorem wp_any {p : Prog γ σ ε ν α} {w : Option (σ → Except ε σ)} (h : Within R N false p)
    (hauto : ∀ ns s s', R s s' → C.auto ns s s') (hnote : ∀ ns x s s', N x → C.note ns x s s') :
    Async.wp C anyway p w ns s₀ s := by
  cases w with
  | none => exact h.wp_none hauto hnote fun _ _ _ _ _ => trivial
  | some w =>
    exact h.wp_tx (S := fun _ _ => True) (fun _ _ _ => trivial) (fun _ _ _ _ _ => trivial) hnote
      fun _ _ _ _ _ _ _ _ => trivial

/-- A whole request, and a property of the store that it keeps. -/
theorem wp_keeps {p : Prog γ σ ε ν α} {I : σ → Prop} (h : Within R N true p) (hrefl : ∀ s, R s s)
    (htrans : ∀ s s' s'', R s s' → R s' s'' → R s s'')
    (hauto : ∀ ns s s', R s s' → C.auto ns s s') (hcommit : ∀ ns s s', R s s' → C.commit ns s s')
    (hnote : ∀ ns x s s', N x → C.note ns x s s') (hrely : ∀ s s', C.rely s s' → I s → I s')
    (hI : ∀ s s', R s s' → I s → I s') (hQ : ∀ r w ns s₀ s, I s → Q r w ns s₀ s) (hs : I s) :
    Async.wp C Q p none ns s₀ s := by
  suffices hgen : ∀ {w : Option (σ → Except ε σ)} {ns : List ν} {s₀ s : σ},
      (∀ w', w = some w' → Pending R w') → I s → Async.wp C Q p w ns s₀ s from
    hgen (by simp) hs
  clear hs
  induction p with
  | done r => exact fun _ hs => hQ r _ _ _ _ hs
  | note x p ih => exact fun hw hs => ⟨hnote _ x _ _ h.1, ih h.2 hw hs⟩
  | call f p h' ihp ihh =>
    intro w ns s₀ s hw hs
    cases w with
    | none =>
      intro g s₁ _ hr
      have hs₁ := hrely s s₁ hr hs
      refine ⟨fun s₂ hs₂ => ?_, fun e _ => ihh e (h.2.2 e) (by simp) hs₁⟩
      have hR := h.1 g s₁ s₂ hs₂
      exact ⟨hauto ns s₁ s₂ hR, ihp g s₁ (h.2.1 g s₁) (by simp) (hI s₁ s₂ hR hs₁)⟩
    | some w =>
      intro g s₁ _ hr
      have hs₁ := hrely s s₁ hr hs
      refine ⟨fun v v' _ _ => ihp g v (h.2.1 g v) ?_ hs₁, fun e _ => ihh e (h.2.2 e) hw hs₁⟩
      rintro _ ⟨⟩ s' v₂ hv₂
      cases hws : w s' with
      | error e => simp [hws, Except.bind] at hv₂
      | ok v₁ =>
        exact htrans s' v₁ v₂ (hw w rfl s' v₁ hws)
          (h.1 g v₁ v₂ (by simpa [hws, Except.bind] using hv₂))
  | begin p ih =>
    intro w ns s₀ s _ hs s₁ hr
    refine ih h.2 ?_ (hrely s s₁ hr hs)
    rintro _ ⟨⟩ s' v ⟨⟩
    exact hrefl s'
  | commit f p h' ihp ihh =>
    intro w ns s₀ s hw hs g s₁ _ hr
    have hs₁ := hrely s s₁ hr hs
    refine ⟨fun v s₂ hv hs₂ => ?_, fun e _ => ihh e (h.2.2.2 e) (by simp) hs₁⟩
    have hR : R s₁ s₂ := by
      have hfs := h.2.1 g v s₂ hs₂
      cases w with
      | none =>
        obtain ⟨⟩ := hv
        exact hfs
      | some w => exact htrans s₁ v s₂ (hw w rfl s₁ v hv) hfs
    exact ⟨hcommit ns s₁ s₂ hR, ihp g v (h.2.2.1 g v) (by simp) (hI s₁ s₂ hR hs₁)⟩
  | rollback p ih =>
    intro w ns s₀ s _ hs s₁ hr
    exact ih h.2 (by simp) (hrely s s₁ hr hs)

/-- A whole request. -/
theorem wp {p : Prog γ σ ε ν α} (h : Within R N true p) (hrefl : ∀ s, R s s)
    (htrans : ∀ s s' s'', R s s' → R s' s'' → R s s'')
    (hauto : ∀ ns s s', R s s' → C.auto ns s s') (hcommit : ∀ ns s s', R s s' → C.commit ns s s')
    (hnote : ∀ ns x s s', N x → C.note ns x s s') : wp C anyway p none ns s₀ s :=
  h.wp_keeps (I := fun _ => True) hrefl htrans hauto hcommit hnote (fun _ _ _ _ => trivial)
    (fun _ _ _ _ => trivial) (fun _ _ _ _ _ _ => trivial) trivial

end Within
end Async
