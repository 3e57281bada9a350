import BookingPlatform.Links
import BookingPlatform.Schedule

/-! Every business has its owner, and nobody else has the owner's role in it. -/
namespace BookingPlatform
open Async Data Prog

/-- What of a business never changes. -/
def Business.deed (b : Business) : Id × Id := (b.id, b.ownerId)

/-- What of a staff member never changes; an owner stays active as well. -/
def StaffMember.post (m : StaffMember) : Id × Id × Id × StaffRole × Bool :=
  (m.id, m.userId, m.businessId, m.role, m.role == .owner && m.isActive)

/-- The business has an active owner, who is the one it names. -/
def Store.HasOwner (s : Store) (b : Business) : Prop :=
  ∃ m ∈ s.staffMember.rows, m.businessId = b.id ∧ m.userId = b.ownerId ∧ m.role = .owner ∧
    m.isActive = true

/-- The business of the staff member names them as its owner. -/
def Store.Owns (s : Store) (m : StaffMember) : Prop :=
  ∃ b ∈ s.business.rows, b.id = m.businessId ∧ b.ownerId = m.userId

/-- Businesses and owners belong together. -/
structure Governed (s : Store) : Prop where
  named : ∀ b ∈ s.business.rows, b.id ≠ 0
  owner : ∀ b ∈ s.business.rows, s.HasOwner b
  only : ∀ m ∈ s.staffMember.rows, m.role = .owner → s.Owns m

/-- Businesses and their owners stay, and new ones come together. -/
structure Tenure (s s' : Store) : Prop where
  business : Persist Business.deed s.business s'.business
  staff : Persist StaffMember.post s.staffMember s'.staffMember
  founded : ∀ b ∈ s'.business.rows, (∃ b₀ ∈ s.business.rows, b₀.deed = b.deed) ∨
    (b.id ≠ 0 ∧ s'.HasOwner b)
  appointed : ∀ m ∈ s'.staffMember.rows, m.role = .owner →
    (∃ m₀ ∈ s.staffMember.rows, m₀.post = m.post) ∨ s'.Owns m

section tenure
variable {s s' s'' : Store}

theorem post_eq {m m' : StaffMember} (h : m'.post = m.post) : m'.id = m.id ∧ m'.userId = m.userId ∧
    m'.businessId = m.businessId ∧ m'.role = m.role ∧
    (m.role = .owner → m.isActive = true → m'.isActive = true) := by
  simp only [StaffMember.post, Prod.mk.injEq] at h
  obtain ⟨hid, huser, hbusiness, hrole, hactive⟩ := h
  refine ⟨hid, huser, hbusiness, hrole, fun howner hwas => ?_⟩
  simpa [hrole, howner, hwas] using hactive

theorem Store.HasOwner.mono {b b' : Business} (h : s.HasOwner b) (ht : Tenure s s')
    (hdeed : b.deed = b'.deed) : s'.HasOwner b' := by
  obtain ⟨m, hm, hof, huser, hrole, hactive⟩ := h
  obtain ⟨m', hm', hpost⟩ := ht.staff m hm
  obtain ⟨-, huser', hof', hrole', hactive'⟩ := post_eq hpost
  obtain ⟨hid, howner⟩ := Prod.mk.inj hdeed
  exact ⟨m', hm', hof'.trans (hof.trans hid), huser'.trans (huser.trans howner), hrole'.trans hrole,
    hactive' hrole hactive⟩

theorem Store.Owns.mono {m m' : StaffMember} (h : s.Owns m) (ht : Tenure s s')
    (hpost : m.post = m'.post) : s'.Owns m' := by
  obtain ⟨b, hb, hid, howner⟩ := h
  obtain ⟨b', hb', hdeed⟩ := ht.business b hb
  obtain ⟨hid', howner'⟩ := Prod.mk.inj hdeed
  obtain ⟨-, huser, hof, -⟩ := post_eq hpost
  exact ⟨b', hb', hid'.trans (hid.trans hof), howner'.trans (howner.trans huser)⟩

theorem Tenure.refl (s : Store) : Tenure s s :=
  ⟨.refl _, .refl _, fun b hb => .inl ⟨b, hb, rfl⟩, fun m hm _ => .inl ⟨m, hm, rfl⟩⟩

theorem tenure_trans (s s' s'' : Store) (h : Tenure s s') (h' : Tenure s' s'') : Tenure s s'' := by
  refine ⟨h.business.trans h'.business, h.staff.trans h'.staff, fun b hb => ?_, fun m hm hrole => ?_⟩
  · rcases h'.founded b hb with ⟨b', hb', hdeed⟩ | hnew
    · rcases h.founded b' hb' with ⟨b₀, hb₀, hdeed₀⟩ | ⟨hid, howner⟩
      · exact .inl ⟨b₀, hb₀, hdeed₀.trans hdeed⟩
      · refine .inr ⟨?_, howner.mono h' hdeed⟩
        rwa [← (Prod.mk.inj hdeed).1]
    · exact .inr hnew
  · rcases h'.appointed m hm hrole with ⟨m', hm', hpost⟩ | hnew
    · have hrole' : m'.role = .owner := (post_eq hpost).2.2.2.1.trans hrole
      rcases h.appointed m' hm' hrole' with ⟨m₀, hm₀, hpost₀⟩ | howns
      · exact .inl ⟨m₀, hm₀, hpost₀.trans hpost⟩
      · exact .inr (howns.mono h' hpost)
    · exact .inr hnew

theorem Tenure.governed (h : Tenure s s') (hs : Governed s) : Governed s' := by
  refine ⟨fun b hb => ?_, fun b hb => ?_, fun m hm hrole => ?_⟩
  · rcases h.founded b hb with ⟨b₀, hb₀, hdeed⟩ | ⟨hid, -⟩
    · rw [← (Prod.mk.inj hdeed).1]
      exact hs.named b₀ hb₀
    · exact hid
  · rcases h.founded b hb with ⟨b₀, hb₀, hdeed⟩ | ⟨-, howner⟩
    · exact (hs.owner b₀ hb₀).mono h hdeed
    · exact howner
  · rcases h.appointed m hm hrole with ⟨m₀, hm₀, hpost⟩ | howns
    · exact (hs.only m₀ hm₀ ((post_eq hpost).2.2.2.1.trans hrole)).mono h hpost
    · exact howns

/-! ### Steps -/

/-- A table of neither kind. -/
theorem tenure_may {T : Type} [Model T]
    (h₁ : ∀ (s : Store) (t : Table T), (Model.set s t).business = s.business)
    (h₂ : ∀ (s : Store) (t : Table T), (Model.set s t).staffMember = s.staffMember) : May Tenure T := by
  intro s t
  refine ⟨?_, ?_, fun b hb => .inl ⟨b, ?_, rfl⟩, fun m hm _ => .inl ⟨m, ?_, rfl⟩⟩
  · rw [h₁]
    exact .refl _
  · rw [h₂]
    exact .refl _
  · rwa [h₁] at hb
  · rwa [h₂] at hm

theorem update_business_tenure {p : Business → Bool} {f : Business → Business} {hf : Table.Keeps f}
    (hdeed : ∀ b, (f b).deed = b.deed) : StmtWithin Tenure (update p f hf) := by
  intro g s b s' h
  rw [(update_ok h).2]
  exact ⟨.update hf fun b _ _ => hdeed b, .refl _,
    fun b hb => .inl (Persist.of_update hf (fun b _ _ => hdeed b) b hb), fun m hm _ => .inl ⟨m, hm, rfl⟩⟩

/-- A new staff member who is no owner. -/
theorem create_staff_tenure {row : Id → StaffMember} (hrole : ∀ id, (row id).role ≠ .owner) :
    StmtWithin Tenure (create row) := by
  intro g s m s' h
  obtain ⟨hm, hput⟩ := create_ok h
  obtain ⟨-, t, ht, rfl⟩ := put_ok hput
  refine ⟨.refl _, .insert ht, fun b hb => .inl ⟨b, hb, rfl⟩, fun m' hm' howner => .inl ⟨m', ?_, rfl⟩⟩
  have hrows : m' ∈ (Model.get s).rows ++ [m] := by
    rw [← Table.insert_rows ht]
    exact hm'
  rcases List.mem_append.mp hrows with hold | hnew
  · exact hold
  · rw [List.mem_singleton.mp hnew, hm] at howner
    exact absurd howner (hrole _)

/-- A new business together with its owner. -/
theorem found_tenure {s₁ : Store} {g g' : Env} {ownerId : Id} {row : Id → Business} {b : Business}
    {m : StaffMember} (hrow : ∀ id, (row id).deed = (id, ownerId)) (hb : create row g s = .ok (b, s₁))
    (hm : create (fun id => ({ id, userId := ownerId, businessId := b.id, role := .owner } : StaffMember)) g' s₁ =
      .ok (m, s')) : Tenure s s' := by
  obtain ⟨hbrow, hput⟩ := create_ok hb
  obtain ⟨-, t, ht, rfl⟩ := put_ok hput
  obtain ⟨hmrow, hput'⟩ := create_ok hm
  obtain ⟨-, t', ht', rfl⟩ := put_ok hput'
  have hdeed : b.deed = (g.newId 0, ownerId) := by
    rw [hbrow]
    exact hrow _
  obtain ⟨hid, howner⟩ := Prod.mk.inj hdeed
  have hmnew : m ∈ t'.rows := by
    rw [Table.insert_rows ht']
    exact List.mem_append_right _ (List.mem_singleton.mpr rfl)
  have hbnew : b ∈ t.rows := by
    rw [Table.insert_rows ht]
    exact List.mem_append_right _ (List.mem_singleton.mpr rfl)
  refine ⟨.insert ht, .insert ht', fun b' hb' => ?_, fun m' hm' hrole => ?_⟩
  · have hrows : b' ∈ (Model.get s).rows ++ [b] := by
      rw [← Table.insert_rows ht]
      exact hb'
    rcases List.mem_append.mp hrows with hold | hnew
    · exact .inl ⟨b', hold, rfl⟩
    · rw [List.mem_singleton.mp hnew]
      refine .inr ⟨?_, m, hmnew, ?_⟩
      · rw [hid]
        exact Nat.succ_ne_zero _
      · rw [hmrow]
        exact ⟨rfl, howner.symm, rfl, rfl⟩
  · have hrows : m' ∈ (Model.get s).rows ++ [m] := by
      have hsame : (Model.get (Model.set s t)).rows = (Model.get (R := StaffMember) s).rows := rfl
      rw [← hsame, ← Table.insert_rows ht']
      exact hm'
    rcases List.mem_append.mp hrows with hold | hnew
    · exact .inl ⟨m', hold, rfl⟩
    · rw [List.mem_singleton.mp hnew, hmrow]
      exact .inr ⟨b, hbnew, rfl, howner⟩

/-- The contract of every request: businesses and owners stay together. -/
abbrev governing : Contract Env Store Note := .keeping Tenure Tenure.refl tenure_trans

/-- Both rows of a new business are committed together. -/
theorem createBusiness_owes {ownerId : Id} {dto : CreateBusinessDto} {ns : List Note} {s₀ s : Store} :
    wp governing anyway (BusinessService.create ownerId dto) none ns s₀ s := by
  apply wp_transaction
  · intro s₁ _
    have hbegin : Pending (fun s v : Store => v = s) (Except.ok : Store → Except Err Store) := by
      rintro s v ⟨⟩
      rfl
    apply (wp_bind _ _).mpr
    apply wp_tx hbegin
    · intro g s₂ v b v' _ hv hS hb w hw _
      apply (wp_bind _ _).mpr
      apply wp_tx hw
      · intro g' s₃ v₁ m v₂ _ _ _ hm w' hw' _ g'' s₄ s₅ _ _ hs₅
        refine ⟨?_, trivial⟩
        obtain ⟨v₃, m', ⟨v₄, b', hv₄, hb'⟩, hm'⟩ := hw' s₄ s₅ hs₅
        rw [hv₄] at hb'
        have hsame : b = b' := by rw [(create_ok hb).1, (create_ok hb').1]
        rw [hsame] at hm'
        exact found_tenure (fun _ => rfl) hb' hm'
      · intro e s₃ _
        trivial
    · intro e s₂ _
      trivial
  · intro e s₁
    trivial

/-- The staff member whom `deactivate` has found to be no owner stays none. -/
theorem deactivate_owes {businessId staffMemberId : Id} {ns : List Note} {s₀ s : Store} :
    wp governing anyway (StaffService.deactivate businessId staffMemberId) none ns s₀ s := by
  apply (wp_bind _ _).mpr
  apply (wp_bind _ _).mpr
  apply wp_query
  · intro g s₁ _
    apply (wp_orThrow _ _).mpr
    refine ⟨fun m hm => ?_, fun _ => trivial⟩
    obtain ⟨hfound, -⟩ := Option.filter_eq_some_iff.mp hm
    obtain ⟨hm, hid⟩ := findUnique_some hfound
    apply (wp_bind _ _).mpr
    apply (wp_ensure _ _).mpr
    refine ⟨fun hrole => ?_, fun _ => trivial⟩
    apply wp_prisma
    · intro g' s₂ r s₃ _ h₁₂ hr
      refine ⟨?_, trivial⟩
      obtain ⟨m', hm', hpost⟩ := h₁₂.staff m hm
      obtain ⟨hid', -, -, hrole', -⟩ := post_eq hpost
      have hother : ∀ m'' ∈ s₂.staffMember.rows, (m''.id == staffMemberId) = true → m''.role ≠ .owner := by
        intro m'' hm'' hid''
        have heq : m''.id = m'.id := (beq_iff_eq.mp hid'').trans ((hid'.trans (beq_iff_eq.mp hid)).symm)
        obtain rfl : m'' = m' := Table.eq_of_clash hm'' hm' (by simp [Indexed.clash, heq])
        rwa [hrole']
      have hkey : ∀ m'' ∈ s₂.staffMember.rows, (m''.id == staffMemberId) = true →
          StaffMember.post { m'' with isActive := false } = m''.post := by
        intro m'' hm'' hp
        simp [StaffMember.post, hother m'' hm'' hp]
      have hf : Table.Keeps fun r : StaffMember => { r with isActive := false } := by
        intro _ _
        rfl
      rw [(update_ok hr).2]
      exact ⟨.refl _, .update hf hkey, fun b hb => .inl ⟨b, hb, rfl⟩,
        fun m'' hm'' _ => .inl (Persist.of_update hf hkey m'' hm'')⟩
    · intro _ _ _ _ _ _
      trivial
  · intro _ _
    trivial

theorem handle_tenure {businessId : Id} {route : BusinessRoute}
    (hroute : ∀ staffMemberId, route ≠ .deactivateStaff staffMemberId) :
    Within Tenure (fun _ => True) true (route.handle businessId) := by
  cases route with
  | update dto =>
    exact discard_within (.bind (assertExists_within .refl _) fun _ =>
      within_prisma (update_business_tenure fun _ => rfl))
  | updateCancellationPolicy dto =>
    exact discard_within (.bind (assertExists_within .refl _) fun _ =>
      within_prisma (update_business_tenure fun _ => rfl))
  | inviteStaff dto =>
    refine discard_within (.bind (within_query .refl _) fun _ => .bind (.orThrow _ _) fun _ =>
      .bind (within_query .refl _) fun _ => .bind (.ensure _ _) fun _ => .bind ?_ fun _ =>
      within_prisma (create_staff_tenure fun _ howner => ?_))
    · split
      · exact .bind (assertBranch_within .refl _ _) fun _ => .pure _
      · exact .pure _
    · have hin := dto.isIn
      rw [show dto.role = .owner from howner] at hin
      simp at hin
  | deactivateStaff staffMemberId => exact absurd rfl (hroute staffMemberId)
  | _ =>
    refine handle_within .refl tenure_trans (.inr fun _ => trivial) _ ?_
    first
    | trivial
    | exact tenure_may (fun _ _ => rfl) fun _ _ => rfl

theorem review_tenure (status : BusinessStatus) (action : AuditAction) (businessId adminId : Id)
    (rejectReason : Option String) : Within Tenure (fun _ => True) true
      (BusinessService.review status action businessId adminId rejectReason) :=
  .bind (assertExists_within .refl _) fun _ =>
    .bind (within_prisma (update_business_tenure fun _ => rfl)) fun _ =>
      .bind (within_prisma (create_within (tenure_may (fun _ _ => rfl) fun _ _ => rfl))) fun _ => .pure _

/-- What a route owes whose handler is given to nobody but an authenticated user. -/
theorem authenticated_owes {α : Type} {user : Id} {f : AuthenticatedUser → Task α} {s : Store}
    (hf : ∀ u s₀ s₁, ∀ ns, wp governing anyway (f u) none ns s₀ s₁) :
    wp governing anyway (authenticated user f) none [] s s := by
  apply (wp_bind _ _).mpr
  apply (wp_bind _ _).mpr
  apply wp_query
  · intro g s₁ _
    apply (wp_bind _ _).mpr
    apply (wp_orThrow _ _).mpr
    refine ⟨fun u _ => ?_, fun _ => trivial⟩
    apply (wp_bind _ _).mpr
    apply (wp_mark _).mpr
    refine ⟨trivial, ?_⟩
    apply (wp_bind _ _).mpr
    apply wp_mono _ (hf _ _ _ _)
    intro r _ _ _ _ _
    cases r <;> trivial
  · intro _ _
    trivial

/-- Every request of the platform. -/
theorem Request.governing_owes (r : Request) (s : Store) : wp governing anyway r.serve none [] s s := by
  have hlock : MayLock Tenure := fun s t =>
    ⟨.refl _, .refl _, fun b hb => .inl ⟨b, hb, rfl⟩, fun m hm _ => .inl ⟨m, hm, rfl⟩⟩
  have keep {r : Request} (h : r.Writes Tenure) (s : Store) : wp governing anyway r.serve none [] s s :=
    (Request.serve_within .refl tenure_trans (fun _ => trivial) h :
      Within Tenure (fun _ => True) true _).keeping
  have reviewed (status : BusinessStatus) (action : AuditAction) (user businessId : Id)
      (rejectReason : Option String) : wp governing anyway (adminOnly user fun u =>
        BusinessService.review status action businessId u.id rejectReason) none [] s s :=
    Within.keeping (N := fun _ => True) (adminOnly_within .refl (fun _ => trivial) fun _ =>
      review_tenure _ _ _ _ _)
  cases r with
  | createBusiness user dto => exact authenticated_owes fun _ _ _ _ => createBusiness_owes
  | business user businessId route =>
    by_cases hroute : ∃ staffMemberId, route = .deactivateStaff staffMemberId
    · obtain ⟨staffMemberId, rfl⟩ := hroute
      apply authenticated_owes
      intro u s₀ s₁ ns
      apply (wp_bind _ _).mpr
      apply (canActivate_within (N := fun _ => True) Tenure.refl _ _ _).wp_none
        (fun _ _ _ h => h) (fun _ _ _ _ _ => trivial)
      intro r ns' s₂ s₃ _
      cases r with
      | error e => trivial
      | ok _ =>
        apply (wp_bind _ _).mpr
        apply wp_mono _ deactivate_owes
        intro r _ _ _ _ _
        cases r <;> trivial
    · refine Within.keeping (N := fun _ => True) (authenticated_within .refl (fun _ => trivial) fun _ =>
        .bind (canActivate_within .refl _ _ _) fun _ => handle_tenure fun staffMemberId h => ?_)
      exact hroute ⟨_, h⟩
  | approveBusiness user businessId => exact reviewed _ _ _ _ _
  | rejectBusiness user businessId reason => exact reviewed _ _ _ _ _
  | suspendBusiness user businessId reason => exact reviewed _ _ _ _ _
  | _ =>
    refine keep ?_ s
    simp only [Request.Writes]
    and_intros
    all_goals first
      | trivial
      | exact hlock
      | exact tenure_may (fun _ _ => rfl) fun _ _ => rfl

end tenure

/-! ### The guard -/

section guard
variable {s : Store} {b : Business}

/-- The one owner of a business. -/
theorem Governed.one (h : Governed s) (hb : b ∈ s.business.rows) : ∃ m ∈ s.staffMember.rows,
    (∀ m' ∈ s.staffMember.rows, m'.businessId = b.id ∧ m'.role = .owner ↔ m' = m) ∧
      m.isActive = true ∧ m.userId = b.ownerId := by
  obtain ⟨m, hm, hof, huser, hrole, hactive⟩ := h.owner b hb
  refine ⟨m, hm, fun m' hm' => ⟨?_, ?_⟩, hactive, huser⟩
  · rintro ⟨hof', hrole'⟩
    obtain ⟨b', hb', hid, howner⟩ := h.only m' hm' hrole'
    obtain rfl : b' = b := Table.eq_of_clash hb' hb (by simp [Indexed.clash, hid, hof'])
    apply Table.eq_of_clash hm' hm
    simp [Indexed.clash, hof, hof', huser, howner]
  · rintro rfl
    exact ⟨hof, hrole⟩

/-- The guard of an owner's route lets in the owner and administrators. -/
theorem canActivate_owner (h : Governed s) (hb : b ∈ s.business.rows) {u : AuthenticatedUser} {g : Env}
    (hup : g.down = false) :
    (BusinessRoleGuard.canActivate [.owner] u b.id).eval g none s = (.ok (), none, s) ↔
      u.id = b.ownerId ∨ u.role = .admin := by
  obtain ⟨m, hm, hone, hactive, huser⟩ := h.one hb
  obtain ⟨hof, hrole⟩ := (hone m hm).mpr rfl
  unfold BusinessRoleGuard.canActivate
  by_cases hadmin : u.role = .admin
  · simp [hadmin]
  · have hpath : ¬ ([StaffRole.owner] = [] ∨ u.role = .admin) := by simp [hadmin]
    rw [if_neg hpath, eval_bind (eval_ensure _ _), if_pos (h.named b hb), eval_onOk_ok,
      eval_query_bind hup, Option.getD_none]
    by_cases howner : u.id = b.ownerId
    · have hfound : findUnique (fun r : StaffMember => r.userId == u.id && r.businessId == b.id) g s =
          some m := by
        apply findUnique_of_mem hm
        · simp [huser, howner, hof]
        · intro r hr
          simp only [Bool.and_eq_true, beq_iff_eq] at hr
          simp [Indexed.clash, hr.1, hr.2, huser, howner, hof]
      rw [hfound, eval_bind (eval_orThrow _ _)]
      simp [Option.filter, hactive, hrole, howner]
    · have hnone : (findUnique (fun r : StaffMember => r.userId == u.id && r.businessId == b.id) g s).filter
          (fun m => m.isActive ∧ m.role ∈ [StaffRole.owner]) = none := by
        apply Option.filter_eq_none_iff.mpr
        intro r hr hp
        obtain ⟨hmem, hkey⟩ := findUnique_some hr
        simp only [Bool.and_eq_true, beq_iff_eq] at hkey
        simp only [List.mem_singleton, decide_eq_true_eq] at hp
        obtain rfl := (hone r hmem).mp ⟨hkey.2, hp.2⟩
        exact howner (hkey.1.symm.trans huser)
      rw [hnone, eval_bind (eval_orThrow _ _)]
      simp [hadmin, howner]

/-- In every run a business has exactly one owner, who is active and the one it names; and the
routes of owners are open to that owner and to administrators. -/
theorem owner_authority {ι : Type} [DecidableEq ι] {r : ι → Request} {s₀ : Store}
    {allowed : Config ι Env Store Err Note Unit → ι → Env → Prop} {c : Config ι Env Store Err Note Unit}
    {past : List (ι × Store)} (h₀ : Governed s₀)
    (hrun : Run allowed (.start (fun i => (r i).serve) s₀) c past) : ∀ b ∈ c.store.business.rows,
      (∃ m ∈ c.store.staffMember.rows,
        (∀ m' ∈ c.store.staffMember.rows, m'.businessId = b.id ∧ m'.role = .owner ↔ m' = m) ∧
          m.isActive = true ∧ m.userId = b.ownerId) ∧
      ∀ (route : BusinessRoute) (u : AuthenticatedUser) (g : Env), route.requiredRoles = [.owner] →
        g.down = false →
        ((BusinessRoleGuard.canActivate route.requiredRoles u b.id).eval g none c.store =
          (.ok (), none, c.store) ↔ u.id = b.ownerId ∨ u.role = .admin) := by
  have hgoverned : Governed c.store :=
    Run.kept (fun i => (r i).governing_owes s₀) (fun _ _ h => h.governed) h₀ hrun
  intro b hb
  refine ⟨hgoverned.one hb, fun route u g hroles hup => ?_⟩
  rw [hroles]
  exact canActivate_owner hgoverned hb hup

end guard

/-- A user who is about to open a business, and one who is about to work there. -/
def partners : Store where
  user := ⟨[{ id := 1, phone := "09120000000", passwordHash := ⟨""⟩, fullName := "" },
    { id := 2, phone := "09350000001", passwordHash := ⟨""⟩, fullName := "" }], by decide⟩

/-- The business is opened, a manager is invited, and both of them are to be deactivated. -/
def staffing (i : Fin 4) : Request :=
  match i with
  | 0 => .createBusiness 1 { name := "", category := "" }
  | 1 => .business 1 4 (.inviteStaff { phone := "09350000001", role := .manager })
  | 2 => .business 1 4 (.deactivateStaff 6)
  | 3 => .business 1 4 (.deactivateStaff 4)

/-- The deactivations meet. -/
def staffed : List (Fin 4 × Env) :=
  List.replicate 6 (0, .after 3) ++ List.replicate 8 (1, .after 5) ++
    (List.replicate 8 [(2, .after 6), (3, .after 7)]).flatten

/-- Only the manager is deactivated, and only the founder gets through the guard of an owner's route. -/
theorem owner_authority_founder : ∃ (c : Config (Fin 4) Env Store Err Note Unit) (past : List (Fin 4 × Store)),
    Run (fun _ _ _ => True) (.start (fun i => (staffing i).serve) partners) c past ∧
    (c.store.staffMember.rows.map fun m => (m.userId, m.role, m.isActive)) =
      [(1, .owner, true), (2, .manager, false)] ∧
    ∃ b ∈ c.store.business.rows,
      (∃ m ∈ c.store.staffMember.rows,
        (∀ m' ∈ c.store.staffMember.rows, m'.businessId = b.id ∧ m'.role = .owner ↔ m' = m) ∧
          m.isActive = true ∧ m.userId = b.ownerId) ∧
      ∀ id, (BusinessRoleGuard.canActivate (BusinessRoute.requiredRoles .listSettlements) ⟨id, .user⟩ b.id).eval
        (.after 8) none c.store = (.ok (), none, c.store) ↔ id = 1 := by
  obtain ⟨past, hrun⟩ := Run.follow .refl (Config.admits_all (.start (fun i => (staffing i).serve) partners) staffed)
  have hfounded : ∃ b ∈ ((Config.start (fun i => (staffing i).serve) partners).follow staffed).store.business.rows,
      b.ownerId = 1 := by decide +kernel
  obtain ⟨b, hb, howner⟩ := hfounded
  have hgoverned : Governed partners := by constructor <;> simp [partners, Table.empty]
  obtain ⟨hone, hguard⟩ := owner_authority (r := staffing) hgoverned hrun b hb
  refine ⟨_, past, hrun, by decide +kernel, b, hb, hone, fun id => ?_⟩
  rw [hguard .listSettlements ⟨id, .user⟩ (.after 8) rfl rfl, howner]
  simp

end BookingPlatform
