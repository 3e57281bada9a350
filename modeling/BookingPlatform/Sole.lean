import BookingPlatform.Async.Sole
import BookingPlatform.Frame

/-! Rules for requests that are alone. -/
namespace BookingPlatform
open Async Data Prog

section
variable {α : Type} {G : Store → Store → Prop} {Q : Except Err α → Option Store → Store → Prop}
  {v : Option Store} {s : Store}

theorem attempt_error {q : Query α} {g : Env} {s : Store} {a : α} {s' : Store}
    (h : attempt (fun g s => .ok (q g s, s)) g s = .ok (a, s')) : a = q g s ∧ s' = s := by
  have h := attempt_ok h
  simp only [Except.ok.injEq, Prod.mk.injEq] at h
  exact ⟨h.1.symm, h.2.symm⟩

theorem sole_query {q : Query α} (hok : ∀ g, Q (.ok (q g (v.getD s))) v s)
    (herr : ∀ e, Q (.error e) v s) : (query q).Sole G Q v s :=
  sole_read (fun _ _ _ _ h => attempt_error h) hok herr

/-- A row is looked up and checked. -/
theorem sole_lookup {T : Type} [Model T] {p q : T → Bool} {e : Err}
    {Q : Except Err T → Option Store → Store → Prop}
    (hok : ∀ r ∈ (Model.get (v.getD s)).rows, p r = true → q r = true → Q (.ok r) v s)
    (herr : ∀ e, Q (.error e) v s) :
    (query (findUnique p) >>= fun r => orThrow (r.filter q) e : Task T).Sole G Q v s := by
  refine (sole_bind _ _).mpr (sole_query (fun g => ?_) herr)
  refine (sole_orThrow _ _).mpr ⟨fun r hr => ?_, fun _ => herr e⟩
  obtain ⟨hfound, hq⟩ := Option.filter_eq_some_iff.mp hr
  obtain ⟨hmem, hp⟩ := findUnique_some hfound
  exact hok r hmem hp hq

theorem sole_look {q : Env → α} (hok : ∀ g, Q (.ok (q g)) v s) (herr : ∀ e, Q (.error e) v s) :
    (look q).Sole G Q v s := by
  refine sole_read (q := fun g _ => q g) (fun g s a s' h => ?_) hok herr
  simp only [Except.ok.injEq, Prod.mk.injEq] at h
  exact ⟨h.1.symm, h.2.symm⟩

theorem sole_tx {q : Stmt α} {v : Store} (hok : ∀ g a v', q g v = .ok (a, v') → Q (.ok a) (some v') s)
    (herr : ∀ e, Q (.error e) (some v) s) : (tx q).Sole G Q (some v) s :=
  sole_op_tx (fun g a v' h => hok g a v' (attempt_ok h)) fun _ e _ => herr e

theorem sole_prisma {q : Stmt α}
    (hok : ∀ g a s', q g s = .ok (a, s') → (G s s' ∨ s' = s) ∧ Q (.ok a) none s')
    (herr : ∀ e, Q (.error e) none s) : (prisma q).Sole G Q none s :=
  sole_single (fun g a s' h => hok g a s' (attempt_ok h)) fun _ e _ => herr e

/-- A transaction commits what its body has seen at the end. -/
theorem sole_transaction {body : Task α} (h : body.Sole G (fun r v s =>
      (∀ e, Q (.error e) none s) ∧ ∀ a, r = .ok a →
        (G s (v.getD s) ∨ v.getD s = s) ∧ Q (.ok a) none (v.getD s)) (some s) s) :
    (transaction body).Sole G Q v s := by
  refine Prog.sole_transaction (h.mono (fun _ _ => id) ?_)
  rintro r v s ⟨herr, hok⟩
  cases r with
  | error e => exact herr e
  | ok a =>
    refine fun g => ⟨fun s' hs => ?_, fun e _ => herr e⟩
    have hsame : v.getD s = s' := by
      split at hs
      · simp at hs
      · exact Except.ok.inj hs
    rw [← hsame]
    exact hok a rfl

/-- The request fails, and nothing is written. -/
abbrev refused : Except Err α → Option Store → Store → Prop := fun r _ _ => ∃ e, r = .error e

abbrev nothing : Store → Store → Prop := fun _ _ => False

theorem sole_refused_bind {β : Type} {p : Task α} {f : α → Task β}
    (h : p.Sole nothing refused v s) : (p >>= f).Sole nothing refused v s := by
  refine (sole_bind _ _).mpr (h.mono (fun _ _ => id) ?_)
  rintro r v s ⟨e, rfl⟩
  exact ⟨e, rfl⟩

/-- A row is looked up, and every row that is found fails its check. -/
theorem sole_refused_lookup {T : Type} [Model T] {p q : T → Bool} {e : Err}
    (h : ∀ r ∈ (Model.get (v.getD s)).rows, p r = true → q r = false) :
    (query (findUnique p) >>= fun r => orThrow (r.filter q) e : Task T).Sole nothing refused v s := by
  refine sole_lookup (fun r hr hp hq => ?_) fun e => ⟨e, rfl⟩
  rw [h r hr hp] at hq
  contradiction

/-- Nothing is asked of the end. -/
abbrev whatever : Except Err α → Option Store → Store → Prop := fun _ _ _ => True

/-- The critical section of a lock. -/
theorem sole_withLock {key : LockKey} {fn : Task α} (hL : MayLock G)
    (hfn : ∀ t : Table Lock, fn.Sole G whatever none { s with lock := t }) :
    (RedisLockService.withLock key fn).Sole G whatever none s := by
  refine (sole_bind _ _).mpr (sole_op (fun g token s' h => ?_) fun _ _ _ => trivial)
  obtain ⟨t, rfl, hG⟩ : ∃ t, s' = { s with lock := t } ∧ (G s s' ∨ s' = s) := by
    have h := attempt_ok h
    split at h
    · obtain ⟨-, rfl⟩ := by simpa using h
      exact ⟨s.lock, rfl, .inr rfl⟩
    · split at h
      · obtain ⟨-, rfl⟩ := by simpa using h
        exact ⟨_, rfl, .inl (hL s _)⟩
      · obtain ⟨-, rfl⟩ := by simpa using h
        exact ⟨s.lock, rfl, .inr rfl⟩
  refine ⟨hG, (sole_bind _ _).mpr ((sole_orThrow _ _).mpr ⟨fun token _ => ?_, fun _ => trivial⟩)⟩
  refine (sole_bind _ _).mpr (sole_finally.mpr ((hfn t).mono (fun _ _ => id) ?_))
  rintro r v s - 
  have hrelease : ((RedisLockService.release key token).andThen (onOk fun _ => done r)).Sole G
      whatever v s := by
    refine (sole_andThen _ _).mpr ?_
    cases v with
    | none =>
      refine sole_op (fun g _ s' h => ?_) fun _ _ _ => trivial
      obtain rfl := by simpa using attempt_ok h
      exact ⟨.inl (hL s _), trivial⟩
    | some v => exact sole_op_tx (fun _ _ _ _ => trivial) fun _ _ _ => trivial
  exact hrelease

/-- A handler that maps errors. -/
theorem sole_busy {p : Task α} (h : p.Sole G whatever none s) :
    (tryCatch p BookingService.busyAsConflict).Sole G whatever none s := by
  refine sole_tryCatch.mpr (h.mono (fun _ _ => id) fun r v s _ => ?_)
  cases r with
  | ok a => trivial
  | error e => cases e <;> trivial

/-- A route behind `JwtAuthGuard`. -/
theorem sole_authenticated {user : Id} {f : AuthenticatedUser → Task α}
    {Q : Except Err Unit → Option Store → Store → Prop}
    (herr : ∀ e, Q (.error e) none s)
    (h : ∀ u : AuthenticatedUser, u.id = user → (∃ r ∈ s.user.rows, r.id = user ∧ r.globalRole = u.role) →
      (f u).Sole G (fun r v s => Q (r.map fun _ => ()) v s) none s) :
    (authenticated user f).Sole G Q none s := by
  refine (sole_bind _ _).mpr ((sole_bind _ _).mpr (sole_query (fun g => ?_) fun e => herr e))
  refine (sole_bind _ _).mpr ((sole_orThrow _ _).mpr ⟨fun r hr => ?_, fun _ => herr _⟩)
  obtain ⟨hfound, -⟩ := Option.filter_eq_some_iff.mp hr
  obtain ⟨hmem, hid⟩ := findUnique_some hfound
  have hid : r.id = user := by simpa using hid
  refine (sole_bind _ _).mpr ((sole_mark _).mpr ?_)
  change (f ⟨r.id, r.globalRole⟩ >>= fun _ => pure ()).Sole G Q none s
  refine (sole_bind _ _).mpr ((h ⟨r.id, r.globalRole⟩ hid ⟨r, hmem, hid, rfl⟩).mono (fun _ _ => id) ?_)
  intro r v s hQ
  cases r with
  | ok a => exact hQ
  | error e => exact hQ

end
end BookingPlatform
