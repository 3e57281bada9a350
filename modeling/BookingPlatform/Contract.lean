import BookingPlatform.Quiet

/-! Rules for requests under their contract. -/
namespace BookingPlatform
open Async Data Prog

/-- A relation of stores that only looks at the core. -/
def onCore (P : Core → Core → Prop) (s s' : Store) : Prop := P s.core s'.core

/-- One change of the core after another. -/
def Then (P E : Core → Core → Prop) (c c' : Core) : Prop := ∃ c₁, P c c₁ ∧ E c₁ c'

/-- A table that is part of the core, and what its foreign keys say there. -/
class InCore (R : Type) [Model R] where
  get : Core → Table R
  set : Core → Table R → Core
  refs : Core → R → Prop := fun _ _ => True
  get_eq : ∀ s : Store, Model.get s = get s.core := by intros; rfl
  set_eq : ∀ (s : Store) (t : Table R), (Model.set s t).core = set s.core t := by intros; rfl
  refs_eq : ∀ (s : Store) (r : R), Model.refs s r = true → refs s.core r := by intros; trivial

theorem has_iff {R : Type} [Indexed R] {t : Table R} {id : R → Id} {key : Id} :
    Store.has t id key = true ↔ ∃ r ∈ t.rows, id r = key := by
  simp [Store.has]

instance : InCore User where
  get := Core.user
  set c t := { c with user := t }

instance : InCore Service where
  get := Core.service
  set c t := { c with service := t }

instance : InCore Booking where
  get := Core.booking
  set c t := { c with booking := t }

instance : InCore Payment where
  get := Core.payment
  set c t := { c with payment := t }

instance : InCore Wallet where
  get := Core.wallet
  set c t := { c with wallet := t }
  refs c r := ∃ u ∈ c.user.rows, u.id = r.userId
  refs_eq _ _ h := has_iff.mp h

instance : InCore WalletTransaction where
  get := Core.walletTransaction
  set c t := { c with walletTransaction := t }
  refs c r := ∃ w ∈ c.wallet.rows, w.id = r.walletId
  refs_eq _ _ h := has_iff.mp h

section statements
variable {R : Type} [Model R] [InCore R] {p : R → Bool} {f : R → R} {row : Id → R} {r : R}
  {g : Env} {s s' : Store}

/-- The table after an update. -/
def Updated {R : Type} [Model R] [InCore R] (p : R → Bool) (f : R → R) (hf : Table.Keeps f)
    (c c' : Core) : Prop :=
  c' = InCore.set c ((InCore.get (R := R) c).update p f hf)

/-- The table after an insertion. -/
def Inserted (r : R) (c c' : Core) : Prop :=
  InCore.refs c r ∧ ∃ t : Table R, (InCore.get c).insert r = some t ∧ c' = InCore.set c t

theorem put_core (h : put r s = .ok s') : Inserted r s.core s'.core := by
  obtain ⟨hrefs, t, ht, rfl⟩ := put_ok h
  rw [InCore.get_eq] at ht
  exact ⟨InCore.refs_eq s r hrefs, t, ht, InCore.set_eq s t⟩

theorem update_core {hf : Table.Keeps f} (h : update p f hf g s = .ok (r, s')) :
    (∃ r₀ ∈ (InCore.get (R := R) s.core).rows, p r₀ = true ∧ r = f r₀) ∧
      Updated p f hf s.core s'.core := by
  obtain ⟨hr, rfl⟩ := update_ok h
  rw [InCore.get_eq] at hr
  refine ⟨hr, ?_⟩
  rw [Updated, InCore.set_eq, InCore.get_eq]

theorem updateMany_core {hf : Table.Keeps f} {n : ℕ}
    (h : updateMany p f hf g s = .ok (n, s')) : Updated p f hf s.core s'.core := by
  obtain ⟨-, rfl⟩ := by simpa [updateMany] using h
  rw [Updated, InCore.set_eq, InCore.get_eq]

/-- Only the audit rows of refunds are part of the core. -/
theorem put_auditLog_core {row : AuditLog} (h : put row s = .ok s') : s'.core =
    { s.core with
      refundLog := s.core.refundLog ++ [row].filter fun r => r.action = .paymentRefunded } := by
  obtain ⟨-, t, ht, rfl⟩ := put_ok h
  change Store.core { s with auditLog := t } = _
  have hrows : t.rows = s.auditLog.rows ++ [row] := Table.insert_rows ht
  simp only [Store.core, hrows, List.filter_append]

end statements

section asked
variable {c c' : Core}

/-- A call outside transactions changes sessions only. -/
theorem Asked.core_eq (h : Asked c c') : ∃ t, c' = { c with session := t } := by
  cases h with
  | quiet => exact ⟨c.session, rfl⟩
  | session r t _ _ => exact ⟨t, rfl⟩
  | verify r t _ _ _ => exact ⟨t, rfl⟩

/-- Sessions stay with their amounts, and a session that was verified remains so. -/
theorem Asked.session_stays (h : Asked c c') {s : Session} (hs : s ∈ c.session.rows) :
    ∃ s' ∈ c'.session.rows, s'.id = s.id ∧ s'.amount = s.amount ∧
      (s.used = true → s'.used = true) := by
  cases h with
  | quiet => exact ⟨s, hs, rfl, rfl, id⟩
  | session r t ht _ =>
    refine ⟨s, ?_, rfl, rfl, id⟩
    change s ∈ t.rows
    rw [Table.insert_rows ht]
    exact List.mem_append_left _ hs
  | verify r t _ _ ht =>
    obtain ⟨hf, rfl⟩ := ht
    refine ⟨_, List.mem_map_of_mem hs, ?_⟩
    split <;> simp

end asked

section rules
variable {α : Type} {K : Note → Prop} {Q : Post Store Err Note α} {ns : List Note} {s₀ s : Store}
  {w : Store → Except Err Store} {P : Core → Core → Prop}

theorem Asked.of_quiet (h : Quiet s₀ s) : Asked s₀.core s.core := by
  rw [h]
  exact .quiet

theorem Change.of_quiet (h : Quiet s₀ s) : Change ns s₀.core s.core := by
  rw [h]
  exact .quiet

/-- A note that is aside needs no grounds. -/
theorem note_aside (ns : List Note) (x : Note) (s s' : Store) (h : x.aside) :
    (contract K).note ns x s s' := by
  refine ⟨.inl h, ?_⟩
  cases x <;> trivial

/-- A request that leaves the core alone. -/
theorem owes_of_quiet {p : Task α} (h : Within Quiet Note.aside true p) :
    wp (contract K) anyway p none ns s₀ s :=
  h.wp Quiet.refl (fun _ _ _ => Quiet.trans) (fun _ _ _ => Asked.of_quiet)
    (fun _ _ _ => Change.of_quiet) note_aside

theorem wp_quiet_any {p : Task α} {w : Option (Store → Except Err Store)}
    (h : Within Quiet Note.aside false p) : wp (contract K) anyway p w ns s₀ s :=
  h.wp_any (fun _ _ _ => Asked.of_quiet) note_aside

theorem wp_quiet {p : Task α} (h : Within Quiet Note.aside false p)
    (hQ : ∀ r ns' s₀ s', ns ⊆ ns' → Q r none ns' s₀ s') : wp (contract K) Q p none ns s₀ s :=
  h.wp_none (fun _ _ _ => Asked.of_quiet) note_aside hQ

theorem wp_quiet_tx {p : Task α} (h : Within Quiet Note.aside false p)
    (hw : Pending (onCore P) w)
    (hQ : ∀ r w' ns' s₀ s', Pending (onCore P) w' → ns ⊆ ns' → Q r (some w') ns' s₀ s') :
    wp (contract K) Q p (some w) ns s₀ s := by
  refine h.wp_tx hw (fun s v v' hv hq => ?_) note_aside
    fun r w' ns' s₀ s' _ hw' hns => hQ r w' ns' s₀ s' hw' hns
  rw [onCore, hq]
  exact hv

/-- The rewards are other than they were. -/
def Rewarded (c c' : Core) : Prop := ∃ t, c' = { c with rewards := t }

theorem wp_rewarding_tx {p : Task α} (h : Within Rewarding Note.aside false p)
    (hw : Pending (onCore P) w)
    (hQ : ∀ r w' ns' s₀ s', Pending (onCore (Then P Rewarded)) w' → ns ⊆ ns' →
      Q r (some w') ns' s₀ s') :
    wp (contract K) Q p (some w) ns s₀ s := by
  have hw' : Pending (onCore (Then P Rewarded)) w :=
    hw.mono fun s v hv => ⟨v.core, hv, v.core.rewards, rfl⟩
  refine h.wp_tx hw' ?_ note_aside fun r w' ns' s₀ s' _ hw' hns => hQ r w' ns' s₀ s' hw' hns
  rintro s v v' ⟨c, hc, t, ht⟩ ⟨t', ht'⟩
  refine ⟨c, hc, t', ?_⟩
  rw [ht', ht]

theorem wp_tx_stmt {q : Stmt α} {E : Core → Core → Prop}
    (hE : ∀ g s a s', q g s = .ok (a, s') → E s.core s'.core) (hw : Pending (onCore P) w)
    (hok : ∀ g s₁ v a v' w', P s₁.core v.core → q g v = .ok (a, v') →
      Pending (onCore (Then P E)) w' → Q (.ok a) (some w') ns s₁ s₁)
    (herr : ∀ e w s₁, Q (.error e) w ns s₁ s₁) :
    wp (contract K) Q (tx q) (some w) ns s₀ s := by
  refine wp_tx hw (fun g s₁ v a v' _ _ hS h w' hw' _ => ?_) fun e s₁ _ => herr e _ s₁
  exact hok g s₁ v a v' w' hS h (hw'.mono fun s v' ⟨v, a, hv, ha⟩ => ⟨v.core, hv, hE g v a v' ha⟩)

theorem wp_tx_update {R : Type} [Model R] [InCore R] {Q : Post Store Err Note R} {p : R → Bool}
    {f : R → R} {hf : Table.Keeps f} (hw : Pending (onCore P) w)
    (hok : ∀ s₁ v w' r₀, P s₁.core v → r₀ ∈ (InCore.get v).rows → p r₀ = true →
      Pending (onCore (Then P (Updated p f hf))) w' → Q (.ok (f r₀)) (some w') ns s₁ s₁)
    (herr : ∀ e w s₁, Q (.error e) w ns s₁ s₁) :
    wp (contract K) Q (tx (update p f hf)) (some w) ns s₀ s := by
  refine wp_tx hw (fun g s₁ v a v' _ _ hS h w' hw' _ => ?_) fun e s₁ _ => herr e _ s₁
  obtain ⟨⟨r₀, hr₀, hp, rfl⟩, -⟩ := update_core h
  refine hok s₁ v.core w' r₀ hS hr₀ hp (hw'.mono ?_)
  exact fun s v' ⟨v, a, hv, ha⟩ => ⟨v.core, hv, (update_core ha).2⟩

theorem wp_tx_createAt {R : Type} [Model R] [InCore R] {Q : Post Store Err Note R}
    {row : Time → Id → R} (hw : Pending (onCore P) w)
    (hok : ∀ s₁ w' now id, id ≠ 0 → Pending (onCore (Then P (Inserted (row now id)))) w' →
      Q (.ok (row now id)) (some w') ns s₁ s₁)
    (herr : ∀ e w s₁, Q (.error e) w ns s₁ s₁) :
    wp (contract K) Q (tx (createAt row)) (some w) ns s₀ s := by
  refine wp_tx hw (fun g s₁ v a v' _ _ hS h w' hw' _ => ?_) fun e s₁ _ => herr e _ s₁
  obtain ⟨rfl, -⟩ := create_ok h
  refine hok s₁ w' g.now (g.newId 0) (Nat.succ_ne_zero _) (hw'.mono ?_)
  rintro s v' ⟨v, a, hv, ha⟩
  obtain ⟨rfl, hput⟩ := create_ok ha
  exact ⟨v.core, hv, put_core hput⟩

theorem wp_tx_create {R : Type} [Model R] [InCore R] {Q : Post Store Err Note R} {row : Id → R}
    (hw : Pending (onCore P) w)
    (hok : ∀ s₁ w' id, id ≠ 0 → Pending (onCore (Then P (Inserted (row id)))) w' →
      Q (.ok (row id)) (some w') ns s₁ s₁)
    (herr : ∀ e w s₁, Q (.error e) w ns s₁ s₁) :
    wp (contract K) Q (tx (create row)) (some w) ns s₀ s := by
  change wp (contract K) Q (tx (createAt fun _ => row)) (some w) ns s₀ s
  exact wp_tx_createAt hw (fun s₁ w' _ id => hok s₁ w' id) herr

theorem wp_withLock {key : LockKey} {fn : Task α}
    (h : ∀ ns' s₀ s, ns ⊆ ns' → wp (contract K) anyway fn none ns' s₀ s) :
    wp (contract K) anyway (RedisLockService.withLock key fn) none ns s₀ s := by
  refine (wp_bind _ _).mpr (wp_quiet (acquire_within Quiet.refl quiet_mayLock _ _) fun r ns' s₀ s hns => ?_)
  cases r with
  | error e => trivial
  | ok token =>
    refine (wp_bind _ _).mpr ((wp_orThrow _ _).mpr ⟨fun token _ => ?_, fun _ => trivial⟩)
    refine (wp_bind _ _).mpr ((wp_mark _).mpr ⟨note_aside _ _ _ _ trivial, ?_⟩)
    refine (wp_andThen _ _).mpr (wp_mono (fun r w ns s₀ s _ => ?_)
      (h _ s₀ s fun x hx => List.mem_cons_of_mem _ (hns hx)))
    exact wp_quiet_any ((release_within quiet_mayLock _ _).andThen fun r => .onOk (fun _ => .done _) r)

theorem wp_tryCatch_anyway {p : Task α} {h : Err → Task α}
    (hp : wp (contract K) anyway p none ns s₀ s)
    (hh : ∀ e, Within Quiet Note.aside false (h e)) :
    wp (contract K) anyway (tryCatch p h) none ns s₀ s := by
  refine wp_tryCatch.mpr (wp_mono (fun r w ns s₀ s _ => ?_) hp)
  cases r with
  | ok a => trivial
  | error e => exact wp_quiet_any (hh e)

/-- What is asked of a request after the guard has let it pass. -/
theorem wp_authenticated {user : Id} {f : AuthenticatedUser → Task α} (hK : K (.acts user))
    (hf : ∀ u s₀ s, u.id = user → wp (contract K) anyway (f u) none [.acts user] s₀ s) :
    wp (contract K) anyway (authenticated user f) none [] s₀ s := by
  refine (wp_bind _ _).mpr ((wp_bind _ _).mpr (wp_query (fun g s₁ _ => ?_) fun _ _ => trivial))
  refine (wp_bind _ _).mpr ((wp_orThrow _ _).mpr ⟨fun u hu => ?_, fun _ => trivial⟩)
  obtain ⟨hu, -⟩ := Option.filter_eq_some_iff.mp hu
  obtain ⟨hmem, hid⟩ := findUnique_some hu
  obtain rfl : u.id = user := by simpa using hid
  refine (wp_bind _ _).mpr ((wp_mark _).mpr ⟨⟨.inr hK, u, hmem, rfl⟩, ?_⟩)
  exact (wp_bind _ _).mpr (wp_mono (fun r _ _ _ _ _ => by cases r <;> trivial) (hf _ _ _ rfl))

theorem wp_adminOnly {user : Id} {f : AuthenticatedUser → Task α} (hK : K (.acts user))
    (hf : ∀ u s₀ s, u.id = user → wp (contract K) anyway (f u) none [.acts user] s₀ s) :
    wp (contract K) anyway (adminOnly user f) none [] s₀ s :=
  wp_authenticated hK fun u _ _ hu =>
    (wp_bind _ _).mpr ((wp_ensure _ _).mpr ⟨fun _ => hf u _ _ hu, fun _ => trivial⟩)

end rules
end BookingPlatform
