import BookingPlatform.Estate
import BookingPlatform.Links
import BookingPlatform.Schedule

/-! What the routes of one business do to the other businesses. -/
namespace BookingPlatform
open Async Data Prog

/-- The coupon that the route edits is the business's own. -/
def BusinessRoute.OwnCoupon (A : Id) (s : Store) : BusinessRoute → Prop
  | updateCoupon couponId _ => ∀ r ∈ s.coupon.rows, r.id = couponId → r.businessId = some A
  | _ => True

/-- A path or body identifier of the route names a row of another business, or a coupon of
the platform. -/
def BusinessRoute.Foreign (A : Id) (s : Store) : BusinessRoute → Prop
  | updateBranch branchId _ => ∃ r ∈ s.branch.rows, r.id = branchId ∧ r.businessId ≠ A
  | updateService serviceId _ => ∃ r ∈ s.service.rows, r.id = serviceId ∧ r.businessId ≠ A
  | assignStaff serviceId staffMemberId | unassignStaff serviceId staffMemberId =>
    (∃ r ∈ s.service.rows, r.id = serviceId ∧ r.businessId ≠ A) ∨
      ∃ r ∈ s.staffMember.rows, r.id = staffMemberId ∧ r.businessId ≠ A
  | inviteStaff dto => ∃ r ∈ s.branch.rows, truthyId dto.branchId = some r.id ∧ r.businessId ≠ A
  | deactivateStaff staffMemberId => ∃ r ∈ s.staffMember.rows, r.id = staffMemberId ∧ r.businessId ≠ A
  | setWorkingHours ⟨branchId, staffMemberId, _⟩ | addHoliday ⟨branchId, staffMemberId, _, _⟩
  | listHolidays branchId staffMemberId =>
    (∃ r ∈ s.branch.rows, truthyId branchId = some r.id ∧ r.businessId ≠ A) ∨
      ∃ r ∈ s.staffMember.rows, truthyId staffMemberId = some r.id ∧ r.businessId ≠ A
  | updateBookingStatus bookingId _ | cancelBooking bookingId _ =>
    ∃ r ∈ s.booking.rows, r.id = bookingId ∧ r.businessId ≠ A
  | updateCoupon couponId _ => ∃ r ∈ s.coupon.rows, r.id = couponId ∧ r.businessId ≠ some A
  | _ => False

/-! ### What the checks give -/

section checks
variable {A : Id} {G : Store → Store → Prop} {v : Option Store} {s : Store}

theorem sole_assertBranch {Q : Except Err Branch → Option Store → Store → Prop} {branchId : Id}
    (hok : ∀ r ∈ (v.getD s).branch.rows, r.id = branchId → r.businessId = A → Q (.ok r) v s)
    (herr : ∀ e, Q (.error e) v s) :
    (BranchService.assertBelongsToBusiness A branchId).Sole G Q v s :=
  sole_lookup (fun r hr hid hA => hok r hr (by simpa using hid) (by simpa using hA)) herr

theorem sole_assertStaff {Q : Except Err StaffMember → Option Store → Store → Prop} {staffMemberId : Id}
    (hok : ∀ r ∈ (v.getD s).staffMember.rows, r.id = staffMemberId → r.businessId = A → Q (.ok r) v s)
    (herr : ∀ e, Q (.error e) v s) :
    (StaffService.assertBelongsToBusiness A staffMemberId).Sole G Q v s :=
  sole_lookup (fun r hr hid hA => hok r hr (by simpa using hid) (by simpa using hA)) herr

theorem sole_assertService {Q : Except Err Service → Option Store → Store → Prop} {serviceId : Id}
    (hok : ∀ r ∈ (v.getD s).service.rows, r.id = serviceId → r.businessId = A → Q (.ok r) v s)
    (herr : ∀ e, Q (.error e) v s) :
    (ServiceCatalogService.assertBelongsToBusiness A serviceId).Sole G Q v s :=
  sole_lookup (fun r hr hid hA => hok r hr (by simpa using hid) (by simpa using hA)) herr

/-- The target of hours and holidays: one of the two, and of the business. -/
def Aimed (A : Id) (s : Store) (target : Option Id × Option Id) : Prop :=
  (∃ r ∈ s.branch.rows, target = (some r.id, none) ∧ r.businessId = A) ∨
    ∃ r ∈ s.staffMember.rows, target = (none, some r.id) ∧ r.businessId = A

theorem sole_resolveTarget {Q : Except Err (Option Id × Option Id) → Option Store → Store → Prop}
    {branchId staffMemberId : Option Id} (hok : ∀ target, Aimed A (v.getD s) target → Q (.ok target) v s)
    (herr : ∀ e, Q (.error e) v s) :
    (WorkingHoursService.resolveTarget A branchId staffMemberId).Sole G Q v s := by
  unfold WorkingHoursService.resolveTarget
  split
  · refine (sole_bind _ _).mpr (sole_assertBranch (fun r hr hid hA => ?_) herr)
    exact hok _ (.inl ⟨r, hr, by rw [hid], hA⟩)
  · refine (sole_bind _ _).mpr (sole_assertStaff (fun r hr hid hA => ?_) herr)
    exact hok _ (.inr ⟨r, hr, by rw [hid], hA⟩)
  · exact herr _

end checks

/-! ### Other businesses -/

section others
variable {A B : Id} {s : Store}

/-- Rows aimed at `A` are not of `B`. -/
theorem not_targets (hAB : A ≠ B) {target : Option Id × Option Id} (h : Aimed A s target)
    {branchId staffMemberId : Option Id}
    (hrow : WorkingHoursService.ofTarget target branchId staffMemberId = true) :
    targets (s.estate B).branches (s.estate B).staff branchId staffMemberId = false := by
  rcases h with ⟨r, hr, rfl, hA⟩ | ⟨r, hr, rfl, hA⟩
  · obtain rfl : branchId = some r.id := by simpa [WorkingHoursService.ofTarget] using hrow
    have hnone : (s.branch.only fun r => r.businessId == B).any (fun b => b.id == r.id) = false := by
      rw [List.any_eq_false]
      intro b hb hid
      obtain ⟨hmem, hB⟩ := Table.mem_only.mp hb
      have hclash : Indexed.clash b r = true := hid
      rw [Table.eq_of_clash hmem hr hclash] at hB
      exact hAB (hA.symm.trans (by simpa using hB))
    simp [targets, Store.estate, hnone]
  · obtain rfl : staffMemberId = some r.id := by simpa [WorkingHoursService.ofTarget] using hrow
    have hnone : (s.staffMember.only fun r => r.businessId == B).any (fun m => m.id == r.id) = false := by
      rw [List.any_eq_false]
      intro m hm hid
      obtain ⟨hmem, hB⟩ := Table.mem_only.mp hm
      have hclash : Indexed.clash m r = true := by
        have hid : m.id = r.id := by simpa using hid
        simp [Indexed.clash, hid]
      rw [Table.eq_of_clash hmem hr hclash] at hB
      exact hAB (hA.symm.trans (by simpa using hB))
    simp [targets, Store.estate, hnone]

/-- A link to a service of `A` is not of `B`. -/
theorem not_links (hAB : A ≠ B) {r : Service} (hr : r ∈ s.service.rows) (hA : r.businessId = A)
    {link : ServiceStaff} (hlink : link.serviceId = r.id) :
    links (s.estate B).services (s.estate B).staff link = false := by
  have hnone : (s.service.only fun r => r.businessId == B).any (fun b => b.id == link.serviceId) = false := by
    rw [List.any_eq_false]
    intro b hb hid
    obtain ⟨hmem, hB⟩ := Table.mem_only.mp hb
    have hclash : Indexed.clash b r = true := by
      have hid : b.id = link.serviceId := by simpa using hid
      simp [Indexed.clash, hid, hlink]
    rw [Table.eq_of_clash hmem hr hclash] at hB
    exact hAB (hA.symm.trans (by simpa using hB))
  simp [links, Store.estate, hnone]

/-- The rows of the hours of `A`'s target, written one after another. -/
theorem putAll_elsewhere (hAB : A ≠ B) {target : Option Id × Option Id} {g : Env}
    {rows : List (Id → WorkingHours)}
    (hrows : ∀ row ∈ rows, ∀ id,
      WorkingHoursService.ofTarget target (row id).branchId (row id).staffMemberId = true)
    {k : ℕ} {s' : Store} (htarget : Aimed A s target) (h : putAll g k rows s = .ok s') :
    Elsewhere B s s' := by
  induction rows generalizing k s with
  | nil =>
    obtain rfl := by simpa [putAll] using h
    exact .refl s
  | cons row rest ih =>
    cases hput : put (row (g.newId k)) s with
    | error e => simp [putAll, hput, Except.bind] at h
    | ok s₁ =>
      have hfirst : Elsewhere B s s₁ := put_but workingHours_elsewhere hput
        (not_targets hAB htarget (hrows row List.mem_cons_self _))
      have htarget₁ : Aimed A s₁ target := by
        obtain ⟨-, t, -, rfl⟩ := put_ok hput
        exact htarget
      have hrest : putAll g (k + 1) rest s₁ = .ok s' := by simpa [putAll, hput, Except.bind] using h
      exact hfirst.trans (ih (fun row hrow => hrows row (List.mem_cons_of_mem _ hrow)) htarget₁ hrest)

theorem setWorkingHours_elsewhere (hAB : A ≠ B) (dto : SetWorkingHoursDto) :
    (WorkingHoursService.setWorkingHours A dto).Sole (Elsewhere B) whatever none s := by
  refine (sole_bind _ _).mpr (sole_resolveTarget (fun target htarget => ?_) fun _ => trivial)
  refine (sole_bind _ _).mpr ((sole_ensure _ _).mpr ⟨fun _ => ?_, fun _ => trivial⟩)
  apply sole_transaction
  refine (sole_bind _ _).mpr (sole_tx (fun g n w₁ h₁ => ?_) fun _ => ⟨fun _ => trivial, by simp⟩)
  have hcleared : Elsewhere B s w₁ := deleteMany_but workingHours_elsewhere h₁
    fun r _ hr => not_targets hAB htarget hr
  have htarget₁ : Aimed A w₁ target := by
    obtain ⟨-, rfl⟩ := by simpa [deleteMany] using h₁
    exact htarget
  refine (sole_bind _ _).mpr (sole_tx (fun g n w₂ h₂ => ?_) fun _ => ⟨fun _ => trivial, by simp⟩)
  have hwritten : Elsewhere B w₁ w₂ := by
    refine putAll_elsewhere hAB (fun row hrow id => ?_) htarget₁ (createMany_ok h₂)
    obtain ⟨h, -, rfl⟩ := List.mem_map.mp hrow
    rcases htarget with ⟨r, -, rfl, -⟩ | ⟨r, -, rfl, -⟩ <;> simp [WorkingHoursService.ofTarget]
  refine sole_query (fun g => ⟨fun _ => trivial, fun _ _ => ⟨.inl ?_, trivial⟩⟩)
    fun _ => ⟨fun _ => trivial, by simp⟩
  exact hcleared.trans hwritten

theorem addHoliday_elsewhere (hAB : A ≠ B) (dto : AddHolidayDto) :
    (WorkingHoursService.addHoliday A dto).Sole (Elsewhere B) whatever none s := by
  refine (sole_bind _ _).mpr (sole_resolveTarget (fun target htarget => ?_) fun _ => trivial)
  refine sole_prisma (fun g r s' h => ⟨.inl ?_, trivial⟩) fun _ => trivial
  refine create_but holiday_elsewhere h fun id => not_targets hAB htarget ?_
  rcases htarget with ⟨r, -, rfl, -⟩ | ⟨r, -, rfl, -⟩ <;> simp [WorkingHoursService.ofTarget]

/-- The booking that both booking routes of a business look up is its own. -/
theorem booking_elsewhere (hAB : A ≠ B) {b : Booking} {p : Booking → Bool} {f : Booking → Booking}
    {hf : Table.Keeps f} {g : Env} {r : Booking} {s' : Store} (hb : b ∈ s.booking.rows)
    (hA : b.businessId = A) (h : update p f hf g s = .ok (r, s')) (hp : ∀ r, p r = true → r.id = b.id)
    (howner : ∀ r, (f r).businessId = r.businessId) : Elsewhere B s s' :=
  update_one_elsewhere h hb (fun r hr => by simpa [Indexed.clash] using hp r hr)
    (hA.trans_ne hAB) howner

theorem updateStatus_elsewhere (hAB : A ≠ B) (bookingId : Id) (dto : UpdateBookingStatusDto) :
    (BookingService.updateStatus A bookingId dto).Sole (Elsewhere B) whatever none s := by
  refine (sole_bind _ _).mpr (sole_query (fun g => ?_) fun _ => trivial)
  refine (sole_bind _ _).mpr ((sole_orThrow _ _).mpr ⟨fun b hb => ?_, fun _ => trivial⟩)
  obtain ⟨hmem, hp⟩ := findFirst_some hb
  obtain ⟨hid, hA⟩ : b.id = bookingId ∧ b.businessId = A := by simpa using hp
  refine (sole_bind _ _).mpr ((sole_ensure _ _).mpr ⟨fun _ => ?_, fun _ => trivial⟩)
  refine (sole_bind _ _).mpr ((sole_mark _).mpr ?_)
  refine (sole_bind _ _).mpr (sole_look (fun g => ?_) fun _ => trivial)
  refine sole_prisma (fun g r s' h => ⟨.inl ?_, trivial⟩) fun _ => trivial
  exact booking_elsewhere hAB hmem hA h (fun r hr => by simpa [hid] using hr) fun _ => rfl

theorem cancelByBusiness_elsewhere (hAB : A ≠ B) (bookingId : Id) (dto : CancelBookingDto) :
    (BookingService.cancelByBusiness A bookingId dto).Sole (Elsewhere B) whatever none s := by
  refine (sole_bind _ _).mpr (sole_query (fun g => ?_) fun _ => trivial)
  refine (sole_bind _ _).mpr ((sole_orThrow _ _).mpr ⟨fun b hb => ?_, fun _ => trivial⟩)
  obtain ⟨hmem, hp⟩ := findFirst_some hb
  obtain ⟨hid, hA⟩ : b.id = bookingId ∧ b.businessId = A := by simpa using hp
  refine (sole_bind _ _).mpr ((sole_ensure _ _).mpr ⟨fun _ => ?_, fun _ => trivial⟩)
  refine (sole_bind _ _).mpr ((sole_mark _).mpr ?_)
  refine (sole_bind _ _).mpr (sole_look (fun g => ?_) fun _ => trivial)
  refine (sole_bind _ _).mpr (sole_look (fun g' => ?_) fun _ => trivial)
  refine (sole_bind _ _).mpr (sole_prisma (fun g r s' h => ⟨.inl ?_, trivial⟩) fun _ => trivial)
  exact booking_elsewhere hAB hmem hA h (fun r hr => by simpa using hr) fun _ => rfl

/-- The one edit that is not tied to the business: it stays at home when the coupon is its own. -/
theorem updateCoupon_elsewhere (hAB : A ≠ B) {couponId : Id} (dto : UpdateCouponDto)
    (hown : ∀ r ∈ s.coupon.rows, r.id = couponId → r.businessId = some A) :
    (CouponService.update couponId dto).Sole (Elsewhere B) whatever none s := by
  refine (sole_bind _ _).mpr (sole_query (fun g => ?_) fun _ => trivial)
  refine (sole_bind _ _).mpr ((sole_orThrow _ _).mpr ⟨fun c hc => ?_, fun _ => trivial⟩)
  refine sole_prisma (fun g r s' h => ⟨.inl ?_, trivial⟩) fun _ => trivial
  refine update_but coupon_elsewhere h fun r hr hp => ?_
  have hA : r.businessId = some A := hown r hr (by simpa using hp)
  simp [CouponService.applied, hA, hAB]

/-- A route of `A` leaves the other businesses and the platform alone. -/
theorem handle_elsewhere (hAB : A ≠ B) {route : BusinessRoute} (hown : route.OwnCoupon A s) :
    (route.handle A).Sole (Elsewhere B) whatever none s := by
  have discard {α : Type} {p : Task α} (h : p.Sole (Elsewhere B) whatever none s) :
      (p >>= fun _ => pure ()).Sole (Elsewhere B) whatever none s := by
    refine (sole_bind _ _).mpr (h.mono (fun _ _ => id) fun r _ _ _ => ?_)
    cases r <;> trivial
  have reads {α : Type} {p : Task α} (h : Within Eq (fun _ => True) false p) :
      p.Sole (Elsewhere B) whatever none s := h.sole_reads fun _ => trivial
  have profile (f : Business → Business) (hf : Table.Keeps f) (howner : ∀ r, (f r).id = r.id) :
      (BusinessService.assertExists A >>= fun _ => prisma (update (fun r : Business => r.id == A) f hf)).Sole
        (Elsewhere B) whatever none s := by
    refine (sole_bind _ _).mpr (Within.sole_reads (assertExists_within (N := fun _ => True)
      (fun _ => rfl) A) fun r => ?_)
    cases r with
    | error e => trivial
    | ok _ =>
      refine sole_prisma (fun g r s' h => ⟨.inl ?_, trivial⟩) fun _ => trivial
      refine update_elsewhere h (fun r _ hr => ?_) howner
      have hid : r.id = A := by simpa using hr
      exact hid.trans_ne hAB
  cases route with
  | findOneForOwner => exact discard (reads (assertExists_within (fun _ => rfl) _))
  | update dto => exact discard (profile _ _ fun _ => rfl)
  | updateCancellationPolicy dto => exact discard (profile _ _ fun _ => rfl)
  | addDocument dto =>
    refine discard ((sole_bind _ _).mpr (Within.sole_reads (assertExists_within (N := fun _ => True)
      (fun _ => rfl) A) fun r => ?_))
    cases r with
    | error e => trivial
    | ok _ =>
      exact sole_prisma (fun _ _ _ h => ⟨.inl (create_elsewhere h fun _ => hAB), trivial⟩) fun _ => trivial
  | createBranch dto =>
    exact discard (sole_prisma (fun _ _ _ h => ⟨.inl (create_elsewhere h fun _ => hAB), trivial⟩)
      fun _ => trivial)
  | listBranches => exact discard (reads (within_query (fun _ => rfl) _))
  | updateBranch branchId dto =>
    refine discard ((sole_bind _ _).mpr (sole_assertBranch (fun b hb hid hA => ?_) fun _ => trivial))
    refine sole_prisma (fun g r s' h => ⟨.inl ?_, trivial⟩) fun _ => trivial
    exact update_one_elsewhere h hb (fun r hr => by simpa [Indexed.clash, hid] using hr)
      (hA.trans_ne hAB) fun _ => rfl
  | createService dto =>
    refine discard ((sole_bind _ _).mpr ((sole_ensure _ _).mpr ⟨fun _ => ?_, fun _ => trivial⟩))
    refine (sole_bind _ _).mpr ((sole_mark _).mpr ?_)
    exact sole_prisma (fun _ _ _ h => ⟨.inl (create_elsewhere h fun _ => hAB), trivial⟩) fun _ => trivial
  | listServices => exact discard (reads (within_query (fun _ => rfl) _))
  | updateService serviceId dto =>
    refine discard ((sole_bind _ _).mpr (sole_assertService (fun b hb hid hA => ?_) fun _ => trivial))
    refine (sole_bind _ _).mpr ((sole_mark _).mpr ?_)
    refine sole_prisma (fun g r s' h => ⟨.inl ?_, trivial⟩) fun _ => trivial
    exact update_one_elsewhere h hb (fun r hr => by simpa [Indexed.clash, hid] using hr)
      (hA.trans_ne hAB) fun _ => rfl
  | assignStaff serviceId staffMemberId =>
    refine discard ((sole_bind _ _).mpr (sole_assertService (fun b hb hid hA => ?_) fun _ => trivial))
    refine (sole_bind _ _).mpr (sole_assertStaff (fun _ _ _ _ => ?_) fun _ => trivial)
    refine sole_prisma (fun g r s' h => ⟨.inl ?_, trivial⟩) fun _ => trivial
    exact upsert_but serviceStaff_elsewhere .refl h fun _ => not_links hAB hb hA hid.symm
  | unassignStaff serviceId staffMemberId =>
    refine discard ((sole_bind _ _).mpr (sole_assertService (fun b hb hid hA => ?_) fun _ => trivial))
    refine sole_prisma (fun g r s' h => ⟨.inl ?_, trivial⟩) fun _ => trivial
    refine delete_but serviceStaff_elsewhere h fun link _ hp => not_links hAB hb hA ?_
    rw [hid]
    simp_all
  | inviteStaff dto =>
    refine discard ((sole_bind _ _).mpr (sole_query (fun g => ?_) fun _ => trivial))
    refine (sole_bind _ _).mpr ((sole_orThrow _ _).mpr ⟨fun user _ => ?_, fun _ => trivial⟩)
    refine (sole_bind _ _).mpr (sole_query (fun g => ?_) fun _ => trivial)
    refine (sole_bind _ _).mpr ((sole_ensure _ _).mpr ⟨fun _ => ?_, fun _ => trivial⟩)
    have hcreate (r : Except Err Unit) : (onOk (fun _ => prisma (create fun id => ({
        id, userId := user.id, businessId := A, role := dto.role, specialty := dto.specialty
        branchId := dto.branchId } : StaffMember))) r).Sole (Elsewhere B) whatever none s := by
      cases r with
      | error e => trivial
      | ok _ =>
        exact sole_prisma (fun _ _ _ h => ⟨.inl (create_elsewhere h fun _ => hAB), trivial⟩)
          fun _ => trivial
    refine (sole_bind _ _).mpr ?_
    split
    · exact (sole_bind _ _).mpr (sole_assertBranch (fun _ _ _ _ => hcreate _) fun _ => hcreate _)
    · exact hcreate _
  | listStaff => exact discard (reads (within_query (fun _ => rfl) _))
  | deactivateStaff staffMemberId =>
    refine discard ((sole_bind _ _).mpr (sole_assertStaff (fun b hb hid hA => ?_) fun _ => trivial))
    refine (sole_bind _ _).mpr ((sole_ensure _ _).mpr ⟨fun _ => ?_, fun _ => trivial⟩)
    refine sole_prisma (fun g r s' h => ⟨.inl ?_, trivial⟩) fun _ => trivial
    refine update_one_elsewhere h hb (fun r hr => ?_) (hA.trans_ne hAB) fun _ => rfl
    have hsame : r.id = b.id := by simpa [hid] using hr
    simp [Indexed.clash, hsame]
  | setWorkingHours dto => exact discard (setWorkingHours_elsewhere hAB dto)
  | addHoliday dto => exact discard (addHoliday_elsewhere hAB dto)
  | listHolidays branchId staffMemberId =>
    exact discard (reads (.bind (resolveTarget_within (fun _ => rfl) _ _ _) fun _ =>
      within_query (fun _ => rfl) _))
  | listBookings dto => exact discard (reads (within_query (fun _ => rfl) _))
  | updateBookingStatus bookingId dto => exact discard (updateStatus_elsewhere hAB bookingId dto)
  | cancelBooking bookingId dto => exact discard (cancelByBusiness_elsewhere hAB bookingId dto)
  | createCoupon dto =>
    refine discard ((sole_bind _ _).mpr (sole_query (fun g => ?_) fun _ => trivial))
    refine (sole_bind _ _).mpr ((sole_ensure _ _).mpr ⟨fun _ => ?_, fun _ => trivial⟩)
    refine (sole_bind _ _).mpr ((sole_ensure _ _).mpr ⟨fun _ => ?_, fun _ => trivial⟩)
    refine sole_prisma (fun g r s' h => ⟨.inl ?_, trivial⟩) fun _ => trivial
    exact create_but coupon_elsewhere h fun id => by simp [hAB]
  | listCoupons => exact discard (reads (within_query (fun _ => rfl) _))
  | updateCoupon couponId dto => exact discard (updateCoupon_elsewhere hAB dto hown)
  | listSettlements => exact discard (reads (within_query (fun _ => rfl) _))

end others

/-! ### Identifiers of others -/

section refused
variable {A : Id} {s : Store}

/-- No row by this identifier is of `A` when one of them is not. -/
theorem foreign_only {T : Type} [Indexed T] {t : Table T} {id : T → Id} {q : T → Bool} {r₀ : T}
    (hr₀ : r₀ ∈ t.rows) (hclash : ∀ r r', id r = id r' → Indexed.clash r r' = true) (hq : q r₀ = false) :
    ∀ r ∈ t.rows, (id r == id r₀) = true → q r = false := by
  intro r hr hid
  rwa [Table.eq_of_clash hr hr₀ (hclash r r₀ (by simpa using hid))]

theorem refused_branch {r : Branch} (hr : r ∈ s.branch.rows) (hA : r.businessId ≠ A) :
    (BranchService.assertBelongsToBusiness A r.id).Sole nothing refused none s :=
  sole_refused_lookup (foreign_only hr (fun _ _ h => by simp [Indexed.clash, h]) (by simpa using hA))

theorem refused_staff {r : StaffMember} (hr : r ∈ s.staffMember.rows) (hA : r.businessId ≠ A) :
    (StaffService.assertBelongsToBusiness A r.id).Sole nothing refused none s :=
  sole_refused_lookup (foreign_only hr (fun _ _ h => by simp [Indexed.clash, h]) (by simpa using hA))

theorem refused_service {r : Service} (hr : r ∈ s.service.rows) (hA : r.businessId ≠ A) :
    (ServiceCatalogService.assertBelongsToBusiness A r.id).Sole nothing refused none s :=
  sole_refused_lookup (foreign_only hr (fun _ _ h => by simp [Indexed.clash, h]) (by simpa using hA))

theorem refused_target {branchId staffMemberId : Option Id}
    (h : (∃ r ∈ s.branch.rows, truthyId branchId = some r.id ∧ r.businessId ≠ A) ∨
      ∃ r ∈ s.staffMember.rows, truthyId staffMemberId = some r.id ∧ r.businessId ≠ A) :
    (WorkingHoursService.resolveTarget A branchId staffMemberId).Sole nothing refused none s := by
  unfold WorkingHoursService.resolveTarget
  rcases h with ⟨r, hr, hid, hA⟩ | ⟨r, hr, hid, hA⟩
  · rw [hid]
    cases truthyId staffMemberId with
    | none => exact sole_refused_bind (refused_branch hr hA)
    | some _ => exact ⟨_, rfl⟩
  · rw [hid]
    cases truthyId branchId with
    | none => exact sole_refused_bind (refused_staff hr hA)
    | some _ => exact ⟨_, rfl⟩

/-- A booking of another business is not found. -/
theorem refused_booking {β : Type} {r : Booking} (hr : r ∈ s.booking.rows) (hA : r.businessId ≠ A)
    {e : Err} {k : Booking → Task β} :
    (query (findFirst fun b : Booking => b.id == r.id && b.businessId == A) >>= fun b =>
      orThrow b e >>= k).Sole nothing refused none s := by
  refine (sole_bind _ _).mpr (sole_query (fun g => ?_) fun e => ⟨e, rfl⟩)
  refine sole_refused_bind ((sole_orThrow _ _).mpr ⟨fun b hb => ?_, fun _ => ⟨_, rfl⟩⟩)
  obtain ⟨hmem, hp⟩ := findFirst_some hb
  obtain ⟨hid, hbusiness⟩ : b.id = r.id ∧ b.businessId = A := by simpa using hp
  have hclash : Indexed.clash b r = true := by simpa [Indexed.clash] using hid
  rw [Table.eq_of_clash hmem hr hclash] at hbusiness
  exact absurd hbusiness hA

/-- A route that names a row of another business fails before it writes anything. -/
theorem handle_refused (hlinked : Linked s) {route : BusinessRoute} (hown : route.OwnCoupon A s)
    (h : route.Foreign A s) : (route.handle A).Sole nothing refused none s := by
  cases route with
  | updateBranch branchId dto =>
    obtain ⟨r, hr, rfl, hA⟩ := h
    exact sole_refused_bind (sole_refused_bind (refused_branch hr hA))
  | updateService serviceId dto =>
    obtain ⟨r, hr, rfl, hA⟩ := h
    exact sole_refused_bind (sole_refused_bind (refused_service hr hA))
  | assignStaff serviceId staffMemberId =>
    rcases h with ⟨r, hr, rfl, hA⟩ | ⟨r, hr, rfl, hA⟩
    · exact sole_refused_bind (sole_refused_bind (refused_service hr hA))
    · refine sole_refused_bind ((sole_bind _ _).mpr (sole_assertService (fun _ _ _ _ => ?_) fun e => ⟨e, rfl⟩))
      exact sole_refused_bind (refused_staff hr hA)
  | unassignStaff serviceId staffMemberId =>
    rcases h with ⟨r, hr, rfl, hA⟩ | ⟨m, hm, rfl, hA⟩
    · exact sole_refused_bind (sole_refused_bind (refused_service hr hA))
    · -- The service is the business's own, so no link joins it with staff of another.
      refine sole_refused_bind ((sole_bind _ _).mpr
        (sole_assertService (fun r hr hid hrA => ?_) fun e => ⟨e, rfl⟩))
      refine sole_prisma (fun g link s' hdelete => ?_) fun e => ⟨e, rfl⟩
      obtain ⟨hlink, hp, -⟩ := delete_ok hdelete
      obtain ⟨hservice, hstaff⟩ : link.serviceId = serviceId ∧ link.staffMemberId = m.id := by
        simpa using hp
      obtain ⟨r', hr', m', hm', hrid, hmid, hsame⟩ := hlinked link hlink
      have hclash : Indexed.clash r' r = true := by simp [Indexed.clash, hrid, hservice, hid]
      have hclash' : Indexed.clash m' m = true := by simp [Indexed.clash, hmid, hstaff]
      rw [Table.eq_of_clash hr' hr hclash, Table.eq_of_clash hm' hm hclash', hrA] at hsame
      exact absurd hsame.symm hA
  | inviteStaff dto =>
    obtain ⟨r, hr, hid, hA⟩ := h
    refine sole_refused_bind ((sole_bind _ _).mpr (sole_query (fun g => ?_) fun e => ⟨e, rfl⟩))
    refine (sole_bind _ _).mpr ((sole_orThrow _ _).mpr ⟨fun user _ => ?_, fun _ => ⟨_, rfl⟩⟩)
    refine (sole_bind _ _).mpr (sole_query (fun g => ?_) fun e => ⟨e, rfl⟩)
    refine (sole_bind _ _).mpr ((sole_ensure _ _).mpr ⟨fun _ => ?_, fun _ => ⟨_, rfl⟩⟩)
    simp only [sole_onOk_ok, hid]
    exact sole_refused_bind (sole_refused_bind (refused_branch hr hA))
  | deactivateStaff staffMemberId =>
    obtain ⟨r, hr, rfl, hA⟩ := h
    exact sole_refused_bind (sole_refused_bind (refused_staff hr hA))
  | setWorkingHours dto => exact sole_refused_bind (sole_refused_bind (refused_target h))
  | addHoliday dto => exact sole_refused_bind (sole_refused_bind (refused_target h))
  | listHolidays branchId staffMemberId => exact sole_refused_bind (sole_refused_bind (refused_target h))
  | updateBookingStatus bookingId dto =>
    obtain ⟨r, hr, rfl, hA⟩ := h
    exact sole_refused_bind (refused_booking hr hA)
  | cancelBooking bookingId dto =>
    obtain ⟨r, hr, rfl, hA⟩ := h
    exact sole_refused_bind (refused_booking hr hA)
  | updateCoupon couponId dto =>
    obtain ⟨r, hr, hid, hA⟩ := h
    exact absurd (hown r hr hid) hA
  | _ => exact absurd h id

end refused

/-! ### Tenant isolation -/

/-- The user is no administrator, is active and passes `BusinessRoleGuard` on this route of `A`. -/
structure Passes (u A : Id) (route : BusinessRoute) (s : Store) : Prop where
  named : A ≠ 0
  account : ∃ a ∈ s.user.rows, a.id = u ∧ a.status = .active ∧ a.globalRole = .user
  member : ∃ m ∈ s.staffMember.rows, m.userId = u ∧ m.businessId = A ∧ m.isActive = true ∧
    m.role ∈ route.requiredRoles

/-- Whatever the world hands to its calls, the request changes no row of another business and no
coupon of the platform; if it names one, it changes nothing, it never succeeds, and it ends. -/
def Isolated (u A : Id) (route : BusinessRoute) (s : Store) : Prop :=
  (∀ gs B, A ≠ B →
    ((Thread.start (Request.business u A route).serve).follow s gs).2.estate B = s.estate B ∧
      ((Thread.start (Request.business u A route).serve).follow s gs).2.globalCoupons = s.globalCoupons) ∧
  (route.Foreign A s →
    (∀ gs, ((Thread.start (Request.business u A route).serve).follow s gs).2 = s ∧
      ((Thread.start (Request.business u A route).serve).follow s gs).1.result ≠ some (.ok ())) ∧
    ∀ world : ℕ → Env, ∃ n, ((Thread.start (Request.business u A route).serve).follow s
      ((List.range n).map world)).1.result.isSome)

theorem business_sole {u A : Id} {route : BusinessRoute} {s : Store} {G : Store → Store → Prop}
    {Q : Except Err Unit → Option Store → Store → Prop} (herr : ∀ e, Q (.error e) none s)
    (h : (route.handle A).Sole G Q none s) : (Request.business u A route).serve.Sole G Q none s := by
  refine sole_authenticated herr fun a _ _ => (sole_bind _ _).mpr ?_
  refine (canActivate_within (N := fun _ => True) (fun _ => rfl) _ _ _).sole_reads fun r => ?_
  cases r with
  | error e => exact herr e
  | ok _ => exact h.mono (fun _ _ => id) fun r _ _ hQ => by cases r <;> exact hQ

/-- The edit of another's coupon succeeds. -/
theorem foreign_coupon_edited {u A couponId : Id} {dto : UpdateCouponDto} {s : Store}
    (hpasses : Passes u A (.updateCoupon couponId dto) s)
    {r : Coupon} (hr : r ∈ s.coupon.rows) (hid : r.id = couponId) :
    ∃ gs, ((Thread.start (Request.business u A (.updateCoupon couponId dto)).serve).follow s gs).1.result =
      some (.ok ()) := by
  obtain ⟨hnamed, ⟨a, ha, rfl, hactive, hrole⟩, m, hm, huser, rfl, hworking, hmrole⟩ := hpasses
  let g : Env := { now := 0, uuid := id }
  have hup : g.down = false := rfl
  have haccount : findUnique (fun b : User => b.id == a.id) g s = some a := by
    refine findUnique_of_mem ha (by simp) fun b hb => ?_
    have hid : b.id = a.id := by simpa using hb
    simp [Indexed.clash, hid]
  have hmember : findUnique (fun b : StaffMember => b.userId == a.id && b.businessId == m.businessId) g s =
      some m := by
    refine findUnique_of_mem hm (by simp [huser]) fun b hb => ?_
    obtain ⟨hbuser, hbusiness⟩ : b.userId = a.id ∧ b.businessId = m.businessId := by simpa using hb
    simp [Indexed.clash, hbuser, hbusiness, huser]
  have hcoupon : findUnique (fun b : Coupon => b.id == couponId) g s = some r := by
    refine findUnique_of_mem hr (by simp [hid]) fun b hb => ?_
    have hbid : b.id = r.id := by simpa [hid] using hb
    simp [Indexed.clash, hbid]
  have hadmin : ¬ ((BusinessRoute.updateCoupon couponId dto).requiredRoles = [] ∨ a.globalRole = .admin) := by
    simp [BusinessRoute.requiredRoles, hrole]
  have hend : ((Request.business a.id m.businessId (.updateCoupon couponId dto)).serve.eval g none s).1 =
      .ok () := by
    simp only [Request.serve, authenticated, JwtStrategy.validate, bind_assoc, BusinessRoleGuard.canActivate]
    rw [eval_query_bind hup, Option.getD_none, haccount]
    have hfilter : (some a).filter (fun u => decide (u.status = .active)) = some a := by simp [hactive]
    rw [hfilter, eval_bind (eval_orThrow _ _), eval_onOk_ok, eval_bind (eval_mark _), eval_onOk_ok]
    rw [eval_bind (eval_pure _), eval_onOk_ok, if_neg hadmin]
    simp only [bind_assoc]
    rw [eval_bind (eval_ensure _ _), if_pos hnamed, eval_onOk_ok, eval_query_bind hup, Option.getD_none,
      hmember]
    have hfilter' : (some m).filter (fun b => decide (b.isActive ∧
        b.role ∈ (BusinessRoute.updateCoupon couponId dto).requiredRoles)) = some m := by
      simp only [Option.filter_some, hworking, hmrole, and_self, decide_true, if_true]
    rw [hfilter', eval_bind (eval_orThrow _ _), eval_onOk_ok]
    rw [eval_bind (eval_pure _), eval_onOk_ok]
    simp only [BusinessRoute.handle, CouponService.update, bind_assoc]
    rw [eval_query_bind hup, Option.getD_none, hcoupon, eval_bind (eval_orThrow _ _), eval_onOk_ok]
    have hrow : (Model.get s : Table Coupon).rows.find? (fun b => b.id == couponId) = some r := hcoupon
    have hwrite : update (fun b : Coupon => b.id == couponId) (CouponService.applied dto) (by intro _ _; rfl) g s =
        .ok (CouponService.applied dto r, Model.set s ((Model.get s).update (fun b : Coupon => b.id == couponId)
          (CouponService.applied dto) (by intro _ _; rfl))) := by
      simp only [update, hrow]
    rw [eval_bind (eval_prisma_ok hup hwrite), eval_onOk_ok]
    rfl
  obtain ⟨n, w, ns, hn⟩ := Prog.ends (g := g)
    (Request.business a.id m.businessId (.updateCoupon couponId dto)).serve s
  refine ⟨List.replicate n g, ?_⟩
  rw [hn, hend]
  rfl

/-- Tenant isolation: in every reachable state, a member's request on a route of `A` is isolated
if and only if it does not edit a coupon that is not `A`'s. -/
theorem tenant_isolation {ι : Type} [DecidableEq ι] {r : ι → Request} {s₀ : Store}
    {c : Config ι Env Store Err Note Unit} {past : List (ι × Store)} (h₀ : s₀.serviceStaff = .empty)
    (hrun : Run (fun _ _ _ => True) (.start (fun i => (r i).serve) s₀) c past)
    {u A : Id} {route : BusinessRoute} (hpasses : Passes u A route c.store) :
    Isolated u A route c.store ↔ route.OwnCoupon A c.store := by
  have hlinked : Linked c.store := linked_of_run (by simp [Linked, h₀, Table.empty]) hrun
  constructor
  · intro h
    cases route with
    | updateCoupon couponId dto =>
      intro r hr hid
      by_contra hA
      obtain ⟨gs, hgs⟩ := foreign_coupon_edited hpasses hr hid
      obtain ⟨hfails, -⟩ := h.2 ⟨r, hr, hid, hA⟩
      exact (hfails gs).2 hgs
    | _ => trivial
  · intro hown
    refine ⟨fun gs B hAB => ?_, fun hforeign => ⟨fun gs => ?_, fun world => Thread.ends_world world⟩⟩
    · obtain ⟨hpath, -⟩ := (business_sole (u := u) (fun _ => trivial) (handle_elsewhere hAB hown)).follow gs
      have helse : Elsewhere B c.store
          ((Thread.start (Request.business u A route).serve).follow c.store gs).2 := by
        generalize ((Thread.start (Request.business u A route).serve).follow c.store gs).2 = s' at hpath
        induction hpath with
        | refl => exact .refl c.store
        | tail _ hstep ih => exact ih.trans hstep
      exact ⟨helse.estate, helse.globalCoupons⟩
    · obtain ⟨hpath, hend⟩ := (business_sole (u := u) (fun e => ⟨e, rfl⟩)
        (handle_refused hlinked hown hforeign)).follow gs
      constructor
      · rcases Relation.ReflTransGen.cases_head hpath with hsame | ⟨s', hstep, -⟩
        · exact hsame.symm
        · exact hstep.elim
      · intro hok
        obtain ⟨-, e, he⟩ := hend _ hok
        contradiction

/-- The owner of the first of two businesses, each of which has a coupon. -/
def competitors : Store where
  user := .single { id := 5, phone := "5", passwordHash := ⟨""⟩, fullName := "" }
  business := ⟨[1, 2].map fun id => {
    id, ownerId := 5, name := "", category := "", status := .approved
    cancellationPolicy := defaultCancellationPolicy }, by decide⟩
  staffMember := .single { id := 6, userId := 5, businessId := 1, role := .owner }
  coupon := ⟨[{
    id := 11, businessId := some 1, code := "a", type := .fixedAmount, value := 0, validFrom := 0
    validTo := 1 }, {
    id := 12, businessId := some 2, code := "b", type := .fixedAmount, value := 0, validFrom := 0
    validTo := 1 }], by decide⟩

theorem competitors_passes (couponId : Id) (dto : UpdateCouponDto) :
    Passes 5 1 (.updateCoupon couponId dto) competitors where
  named := by decide
  account := ⟨_, List.mem_singleton_self _, rfl, rfl, rfl⟩
  member := ⟨_, List.mem_singleton_self _, rfl, rfl, rfl, by simp [BusinessRoute.requiredRoles]⟩

theorem tenant_isolation_coupons : Isolated 5 1 (.updateCoupon 11 {}) competitors ∧
    ¬ Isolated 5 1 (.updateCoupon 12 {}) competitors := by
  have hrun : Run (fun _ _ _ => True) (.start (fun _ : Unit => Request.releaseExpiredHolds.serve) competitors)
      (.start (fun _ : Unit => Request.releaseExpiredHolds.serve) competitors) [] := .refl
  refine ⟨?_, fun h => ?_⟩
  · refine (tenant_isolation (r := fun _ => .releaseExpiredHolds) rfl hrun (competitors_passes 11 {})).mpr ?_
    simp [BusinessRoute.OwnCoupon, Config.start, competitors]
  · have hown := (tenant_isolation (r := fun _ => .releaseExpiredHolds) rfl hrun
      (competitors_passes 12 {})).mp h
    simp [BusinessRoute.OwnCoupon, Config.start, competitors] at hown

/-- The owner of a business edits the coupon of another one. -/
theorem foreign_coupon : ¬ ∀ (r : Unit → Request) (s₀ : Store), s₀.serviceStaff = .empty →
    ∀ c past, Run (fun _ _ _ => True) (.start (fun i => (r i).serve) s₀) c past →
      ∀ u A route, Passes u A route c.store → Isolated u A route c.store := by
  intro h
  have hisolated := h (fun _ => .releaseExpiredHolds) competitors rfl _ [] .refl 5 1 _
    (competitors_passes 12 { value := some 100 })
  obtain ⟨gs, hgs⟩ := foreign_coupon_edited (competitors_passes 12 { value := some 100 })
    (r := competitors.coupon.rows[1]) (by decide) rfl
  obtain ⟨hfails, -⟩ := hisolated.2 ⟨_, List.mem_cons_of_mem _ List.mem_cons_self, rfl, by decide⟩
  exact (hfails gs).2 hgs

end BookingPlatform
