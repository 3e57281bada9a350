import BookingPlatform.Async.Rely
import BookingPlatform.Frame

/-! Services are linked to staff of their own business only. -/
namespace BookingPlatform
open Async Data Prog

/-- Rows stay, with the columns that `key` reads. -/
def Persist {T K : Type} [Indexed T] (key : T → K) (t t' : Table T) : Prop :=
  ∀ r ∈ t.rows, ∃ r' ∈ t'.rows, key r' = key r

section persist
variable {T K : Type} [Indexed T] {key : T → K} {t t' t'' : Table T} {p : T → Bool} {f : T → T} {r : T}

theorem Persist.refl (t : Table T) : Persist key t t := fun r hr => ⟨r, hr, rfl⟩

theorem Persist.trans (h : Persist key t t') (h' : Persist key t' t'') : Persist key t t'' := by
  intro r hr
  obtain ⟨r', hr', hkey⟩ := h r hr
  obtain ⟨r'', hr'', hkey'⟩ := h' r' hr'
  exact ⟨r'', hr'', hkey'.trans hkey⟩

theorem Persist.insert (h : t.insert r = some t') : Persist key t t' := by
  intro r' hr'
  refine ⟨r', ?_, rfl⟩
  rw [Table.insert_rows h]
  exact List.mem_append_left _ hr'

theorem Persist.update (hf : Table.Keeps f) (hkey : ∀ r ∈ t.rows, p r = true → key (f r) = key r) :
    Persist key t (t.update p f hf) := by
  intro r hr
  refine ⟨_, (Table.mem_update hf).mpr ⟨r, hr, rfl⟩, ?_⟩
  by_cases hp : p r = true
  · rw [if_pos hp, hkey r hr hp]
  · rw [if_neg hp]

theorem Persist.of_update (hf : Table.Keeps f) (hkey : ∀ r ∈ t.rows, p r = true → key (f r) = key r) :
    Persist key (t.update p f hf) t := by
  intro r' hr'
  obtain ⟨r, hr, rfl⟩ := (Table.mem_update hf).mp hr'
  refine ⟨r, hr, ?_⟩
  by_cases hp : p r = true
  · rw [if_pos hp, hkey r hr hp]
  · rw [if_neg hp]

end persist

/-- The service and the staff member of the link are of one business. -/
def Store.Joined (s : Store) (link : ServiceStaff) : Prop :=
  ∃ r ∈ s.service.rows, ∃ m ∈ s.staffMember.rows,
    r.id = link.serviceId ∧ m.id = link.staffMemberId ∧ r.businessId = m.businessId

/-- Every link joins a service and a staff member of one business. -/
def Linked (s : Store) : Prop := ∀ link ∈ s.serviceStaff.rows, s.Joined link

/-- Services and staff members stay with their businesses, and new links join them. -/
structure Bound (s s' : Store) : Prop where
  service : Persist (fun r => (r.id, r.businessId)) s.service s'.service
  staff : Persist (fun m => (m.id, m.businessId)) s.staffMember s'.staffMember
  links : ∀ link ∈ s'.serviceStaff.rows, link ∈ s.serviceStaff.rows ∨ s'.Joined link

section bound
variable {s s' s'' : Store}

theorem Store.Joined.mono {link : ServiceStaff} (h : s.Joined link) (hb : Bound s s') : s'.Joined link := by
  obtain ⟨r, hr, m, hm, hrid, hmid, hsame⟩ := h
  obtain ⟨r', hr', hkey⟩ := hb.service r hr
  obtain ⟨m', hm', hkey'⟩ := hb.staff m hm
  obtain ⟨hrid', hrb⟩ := Prod.mk.inj hkey
  obtain ⟨hmid', hmb⟩ := Prod.mk.inj hkey'
  exact ⟨r', hr', m', hm', hrid'.trans hrid, hmid'.trans hmid, hrb.trans (hsame.trans hmb.symm)⟩

theorem Bound.refl (s : Store) : Bound s s := ⟨.refl _, .refl _, fun _ h => .inl h⟩

theorem Bound.trans (h : Bound s s') (h' : Bound s' s'') : Bound s s'' := by
  refine ⟨h.service.trans h'.service, h.staff.trans h'.staff, fun link hlink => ?_⟩
  rcases h'.links link hlink with hold | hnew
  · rcases h.links link hold with hold | hnew
    · exact .inl hold
    · exact .inr (hnew.mono h')
  · exact .inr hnew

theorem Bound.linked (h : Bound s s') (hs : Linked s) : Linked s' := by
  intro link hlink
  rcases h.links link hlink with hold | hnew
  · exact (hs link hold).mono h
  · exact hnew

theorem bound_trans (s s' s'' : Store) (h : Bound s s') (h' : Bound s' s'') : Bound s s'' := h.trans h'

/-- A table that no link speaks of. -/
theorem bound_may {T : Type} [Model T] (h₁ : ∀ (s : Store) (t : Table T), (Model.set s t).service = s.service)
    (h₂ : ∀ (s : Store) (t : Table T), (Model.set s t).staffMember = s.staffMember)
    (h₃ : ∀ (s : Store) (t : Table T), (Model.set s t).serviceStaff = s.serviceStaff) : May Bound T := by
  intro s t
  refine ⟨?_, ?_, fun link hlink => .inl ?_⟩
  · rw [h₁]
    exact .refl _
  · rw [h₂]
    exact .refl _
  · rwa [h₃] at hlink

theorem bound_service {t : Table Service} (h : Persist (fun r => (r.id, r.businessId)) s.service t) :
    Bound s (Model.set s t) := ⟨h, .refl _, fun _ h => .inl h⟩

theorem bound_staff {t : Table StaffMember} (h : Persist (fun m => (m.id, m.businessId)) s.staffMember t) :
    Bound s (Model.set s t) := ⟨.refl _, h, fun _ h => .inl h⟩

theorem create_service_bound {row : Id → Service} : StmtWithin Bound (create row) := by
  intro g s r s' h
  obtain ⟨-, t, ht, rfl⟩ := put_ok (create_ok h).2
  exact bound_service (.insert ht)

theorem create_staff_bound {row : Id → StaffMember} : StmtWithin Bound (create row) := by
  intro g s r s' h
  obtain ⟨-, t, ht, rfl⟩ := put_ok (create_ok h).2
  exact bound_staff (.insert ht)

theorem update_service_bound {p : Service → Bool} {f : Service → Service} {hf : Table.Keeps f}
    (hkey : ∀ r, ((f r).id, (f r).businessId) = (r.id, r.businessId)) :
    StmtWithin Bound (update p f hf) := by
  intro g s r s' h
  rw [(update_ok h).2]
  exact bound_service (.update hf fun r _ _ => hkey r)

theorem update_staff_bound {p : StaffMember → Bool} {f : StaffMember → StaffMember} {hf : Table.Keeps f}
    (hkey : ∀ r, ((f r).id, (f r).businessId) = (r.id, r.businessId)) :
    StmtWithin Bound (update p f hf) := by
  intro g s r s' h
  rw [(update_ok h).2]
  exact bound_staff (.update hf fun r _ _ => hkey r)

theorem delete_link_bound {p : ServiceStaff → Bool} : StmtWithin Bound (delete p) := by
  intro g s r s' h
  rw [(delete_ok h).2.2]
  exact ⟨.refl _, .refl _, fun link hlink => .inl (Table.mem_delete.mp hlink).1⟩

/-- A link of a service and a staff member of one business. -/
theorem upsert_link_bound {p : ServiceStaff → Bool} {link : ServiceStaff} {g : Env} {r : ServiceStaff}
    (hs : s.Joined link) (h : upsert p (fun _ => link) g s = .ok (r, s')) : Bound s s' := by
  rcases upsert_ok h with ⟨-, -, rfl⟩ | ⟨-, hr, hput⟩
  · exact .refl s'
  · rw [hr] at hput
    obtain ⟨-, t, ht, rfl⟩ := put_ok hput
    refine ⟨.refl _, .refl _, fun link' hlink' => ?_⟩
    have hrows : link' ∈ (Model.get s).rows ++ [link] := by
      rw [← Table.insert_rows ht]
      exact hlink'
    rcases List.mem_append.mp hrows with hold | hnew
    · exact .inl hold
    · rw [List.mem_singleton.mp hnew]
      exact .inr hs

/-- The contract of every request: links join what is of one business. -/
abbrev linking : Contract Env Store Note := .keeping Bound Bound.refl bound_trans

/-- The only request that needs to know what it reads: the service and the staff member stay
where `assignStaff` has found them. -/
theorem assignStaff_owes {businessId serviceId staffMemberId : Id} {ns : List Note} {s₀ s : Store} :
    wp linking anyway (ServiceCatalogService.assignStaff businessId serviceId staffMemberId) none ns s₀ s := by
  refine (wp_bind _ _).mpr ((wp_bind _ _).mpr (wp_query (fun g s₁ _ => ?_) fun _ _ => trivial))
  refine (wp_orThrow _ _).mpr ⟨fun r hr => ?_, fun _ => trivial⟩
  obtain ⟨hfound, hbusiness⟩ := Option.filter_eq_some_iff.mp hr
  obtain ⟨hr, hrid⟩ := findUnique_some hfound
  refine (wp_bind _ _).mpr ((wp_bind _ _).mpr (wp_query (fun g' s₂ h₁₂ => ?_) fun _ _ => trivial))
  refine (wp_orThrow _ _).mpr ⟨fun m hm => ?_, fun _ => trivial⟩
  obtain ⟨hfound', hbusiness'⟩ := Option.filter_eq_some_iff.mp hm
  obtain ⟨hm, hmid⟩ := findUnique_some hfound'
  refine wp_prisma (fun g'' s₃ link s₄ _ h₂₃ h => ⟨?_, trivial⟩) fun _ _ _ _ _ _ => trivial
  have hjoined : s₂.Joined { serviceId, staffMemberId } := by
    obtain ⟨r', hr', hkey⟩ := h₁₂.service r hr
    obtain ⟨hid', hb'⟩ := Prod.mk.inj hkey
    refine ⟨r', hr', m, hm, ?_, by simpa using hmid, ?_⟩
    · exact hid'.trans (by simpa using hrid)
    · have hsame : r.businessId = businessId := by simpa using hbusiness
      have hsame' : m.businessId = businessId := by simpa using hbusiness'
      rw [hb', hsame, hsame']
  exact upsert_link_bound (hjoined.mono h₂₃) h

theorem handle_bound {businessId : Id} {route : BusinessRoute}
    (hroute : ∀ serviceId staffMemberId, route ≠ .assignStaff serviceId staffMemberId) :
    Within Bound (fun _ => True) true (route.handle businessId) := by
  cases route with
  | createService dto =>
    exact discard_within (.bind (.ensure _ _) fun _ => .bind (.mark trivial) fun _ =>
      within_prisma create_service_bound)
  | updateService serviceId dto =>
    exact discard_within (.bind (assertService_within .refl _ _) fun _ => .bind (.mark trivial) fun _ =>
      within_prisma (update_service_bound fun _ => rfl))
  | assignStaff serviceId staffMemberId => exact absurd rfl (hroute _ _)
  | unassignStaff serviceId staffMemberId =>
    exact discard_within (.bind (assertService_within .refl _ _) fun _ => within_prisma delete_link_bound)
  | inviteStaff dto =>
    refine discard_within (.bind (within_query .refl _) fun _ => .bind (.orThrow _ _) fun _ =>
      .bind (within_query .refl _) fun _ => .bind (.ensure _ _) fun _ => .bind ?_ fun _ =>
      within_prisma create_staff_bound)
    split
    · exact .bind (assertBranch_within .refl _ _) fun _ => .pure _
    · exact .pure _
  | deactivateStaff staffMemberId =>
    exact discard_within (.bind (assertStaff_within .refl _ _) fun _ => .bind (.ensure _ _) fun _ =>
      within_prisma (update_staff_bound fun _ => rfl))
  | _ =>
    refine handle_within .refl bound_trans (.inr fun _ => trivial) _ ?_
    first
    | trivial
    | exact bound_may (fun _ _ => rfl) (fun _ _ => rfl) fun _ _ => rfl

/-- Every request of the platform. -/
theorem Request.linking_owes (r : Request) (s : Store) : wp linking anyway r.serve none [] s s := by
  have hlock : MayLock Bound := fun s t => ⟨.refl _, .refl _, fun _ h => .inl h⟩
  have keep {r : Request} (h : r.Writes Bound) (s : Store) : wp linking anyway r.serve none [] s s :=
    (Request.serve_within .refl bound_trans (fun _ => trivial) h : Within Bound (fun _ => True) true _).keeping
  cases r with
  | createBusiness user dto =>
    refine Within.keeping (N := fun _ => True) (authenticated_within .refl (fun _ => trivial) fun _ => ?_)
    exact within_transaction .refl (.bind (within_tx (create_within
      (bound_may (fun _ _ => rfl) (fun _ _ => rfl) fun _ _ => rfl))) fun _ =>
        .bind (within_tx create_staff_bound) fun _ => .pure _)
  | business user businessId route =>
    by_cases hroute : ∃ serviceId staffMemberId, route = .assignStaff serviceId staffMemberId
    · obtain ⟨serviceId, staffMemberId, rfl⟩ := hroute
      refine (wp_bind _ _).mpr ((wp_bind _ _).mpr (wp_query (fun g s₁ _ => ?_) fun _ _ => trivial))
      refine (wp_bind _ _).mpr ((wp_orThrow _ _).mpr ⟨fun u hu => ?_, fun _ => trivial⟩)
      refine (wp_bind _ _).mpr ((wp_mark _).mpr ⟨trivial, ?_⟩)
      refine (wp_bind _ _).mpr (wp_mono (fun r _ _ _ _ _ => by cases r <;> trivial) (Q := anyway) ?_)
      refine (wp_bind _ _).mpr ((canActivate_within (N := fun _ => True) Bound.refl _ _ _).wp_none
        (fun _ _ _ h => h) (fun _ _ _ _ _ => trivial) fun r ns' s₂ s₃ _ => ?_)
      cases r with
      | error e => trivial
      | ok _ => exact (wp_bind _ _).mpr (wp_mono (fun r _ _ _ _ _ => by cases r <;> trivial) assignStaff_owes)
    · refine Within.keeping (N := fun _ => True) (authenticated_within .refl (fun _ => trivial) fun _ =>
        .bind (canActivate_within .refl _ _ _) fun _ => handle_bound fun serviceId staffMemberId h => ?_)
      exact hroute ⟨_, _, h⟩
  | _ =>
    refine keep ?_ s
    simp only [Request.Writes]
    and_intros
    all_goals first
      | trivial
      | exact hlock
      | exact bound_may (fun _ _ => rfl) (fun _ _ => rfl) fun _ _ => rfl

/-- In every run, links join what is of one business. -/
theorem linked_of_run {ι : Type} [DecidableEq ι] {r : ι → Request} {s₀ : Store}
    {allowed : Config ι Env Store Err Note Unit → ι → Env → Prop} {c : Config ι Env Store Err Note Unit}
    {past : List (ι × Store)} (h₀ : Linked s₀) (hrun : Run allowed (.start (fun i => (r i).serve) s₀) c past) :
    Linked c.store :=
  Run.kept (fun i => (r i).linking_owes s₀) (fun _ _ h => h.linked) h₀ hrun

end bound
end BookingPlatform
