import BookingPlatform.Async.Runs
import BookingPlatform.Shape.Payment

/-! Every request keeps to its contract. -/
namespace BookingPlatform
open Async Data Prog

section
variable {α : Type} {K : Note → Prop} {ns : List Note} {s₀ s : Store}

/-- A write of a service. -/
theorem prisma_service_owes {Q : Post Store Err Note Service} {q : Stmt Service}
    (hcatalogue : .catalogue ∈ ns)
    (hq : ∀ g s a s', q g s = .ok (a, s') → ∃ t, s'.core = { s.core with service := t })
    (hQ : ∀ r s₀ s, Q r none [] s₀ s) : wp (contract K) Q (prisma q) none ns s₀ s := by
  refine wp_prisma (fun g s₁ a s₂ _ _ h => ⟨?_, hQ _ _ _⟩) fun _ _ _ _ _ _ => hQ _ _ _
  obtain ⟨t, ht⟩ := hq g s₁ a s₂ h
  change Change _ s₁.core s₂.core
  rw [ht]
  exact .services t hcatalogue

theorem createService_owes (hK : K .catalogue) (businessId : Id) (dto : CreateServiceDto) :
    wp (contract K) anyway (ServiceCatalogService.create businessId dto) none ns s₀ s := by
  refine (wp_bind _ _).mpr ((wp_ensure _ _).mpr ⟨fun _ => ?_, fun _ => trivial⟩)
  refine (wp_bind _ _).mpr ((wp_mark _).mpr ⟨⟨.inr hK, trivial⟩, ?_⟩)
  refine prisma_service_owes List.mem_cons_self (fun g s a s' h => ?_) fun _ _ _ => trivial
  obtain ⟨-, t, -, ht⟩ := put_core (create_ok h).2
  exact ⟨t, ht⟩

theorem updateService_owes (hK : K .catalogue) (businessId serviceId : Id)
    (dto : UpdateServiceDto) :
    wp (contract K) anyway (ServiceCatalogService.update businessId serviceId dto) none ns s₀ s := by
  refine (wp_bind _ _).mpr ((wp_bind _ _).mpr (wp_query (fun g s₁ _ => ?_) fun _ _ => trivial))
  refine (wp_orThrow _ _).mpr ⟨fun _ _ => ?_, fun _ => trivial⟩
  refine (wp_bind _ _).mpr ((wp_mark _).mpr ⟨⟨.inr hK, trivial⟩, ?_⟩)
  exact prisma_service_owes List.mem_cons_self (fun g s a s' h => ⟨_, (update_core h).2⟩)
    fun _ _ _ => trivial

/-- The audit row of a review is not one of a refund. -/
theorem review_quiet {status : BusinessStatus} {action : AuditAction} {businessId adminId : Id}
    {rejectReason : Option String} (h : action ≠ .paymentRefunded) :
    Within Quiet Note.aside true
      (BusinessService.review status action businessId adminId rejectReason) := by
  refine .bind (assertExists_within Quiet.refl _) fun _ => .bind (within_prisma (update_within quiet_may)) fun _ =>
    .bind (within_prisma fun g s a s' hs => ?_) fun _ => .pure _
  obtain ⟨rfl, hput⟩ := create_ok hs
  rw [Quiet, put_auditLog_core hput]
  simp [h]

/-! ### Profiles -/

/-- A write of a user's profile or status. -/
theorem prisma_profile_owes {Q : Post Store Err Note User} {userId : Id} {p : User → Bool}
    {f : User → User} (hprofile : .profile userId ∈ ns) (hf : ∀ u, (f u).id = u.id)
    (hQ : ∀ r s₀ s, Q r none [] s₀ s) :
    wp (contract K) Q (prisma (updateUnique p f)) none ns s₀ s := by
  refine wp_prisma (fun g s₁ a s₂ _ _ h => ⟨?_, hQ _ _ _⟩) fun _ _ _ _ _ _ => hQ _ _ _
  obtain ⟨-, t, ht, rfl⟩ := updateUnique_ok h
  refine .profile userId t hprofile ?_
  have hrows : t.rows = s₁.user.rows.map fun r => if p r then f r else r := Table.rewrite_rows ht
  rw [hrows, List.map_map]
  refine List.map_congr_left fun r _ => ?_
  by_cases hp : p r <;> simp [hp, hf]

theorem updateProfile_owes {userId : Id} (hK : K (.profile userId)) (dto : UpdateProfileDto) :
    wp (contract K) anyway (UsersService.updateProfile userId dto) none ns s₀ s := by
  have hrest (ns : List Note) (s₀ s : Store) {f : User → User} (hf : ∀ u, (f u).id = u.id) :
      wp (contract K) anyway (mark (.profile userId) >>= fun _ =>
        prisma (updateUnique (fun r : User => r.id == userId) f)) none ns s₀ s := by
    refine (wp_bind _ _).mpr ((wp_mark _).mpr ⟨⟨.inr hK, trivial⟩, ?_⟩)
    exact prisma_profile_owes List.mem_cons_self hf fun _ _ _ => trivial
  unfold UsersService.updateProfile
  refine (wp_bind _ _).mpr ?_
  cases dto.email.filter fun t => t ≠ "" with
  | none => exact hrest _ _ _ (by intro _; rfl)
  | some email =>
    refine (wp_bind _ _).mpr (wp_query (fun g s₁ _ => ?_) fun _ _ => ?_)
    · exact (wp_ensure _ _).mpr ⟨fun _ => hrest _ _ _ (by intro _; rfl), fun _ => trivial⟩
    · trivial

theorem requestAccountDeletion_owes {userId : Id} (hK : K (.profile userId)) :
    wp (contract K) anyway (UsersService.requestAccountDeletion userId) none ns s₀ s := by
  refine (wp_bind _ _).mpr ((wp_mark _).mpr ⟨⟨.inr hK, trivial⟩, ?_⟩)
  refine (wp_bind _ _).mpr (wp_look fun g s₁ _ => ?_)
  refine (wp_bind _ _).mpr (prisma_profile_owes List.mem_cons_self (fun _ => rfl) fun r s₀ s => ?_)
  cases r with
  | error e => trivial
  | ok u =>
    exact owes_of_quiet (.bind (within_look Quiet.refl _) fun _ =>
      .bind (within_prisma (updateMany_within quiet_may)) fun _ => .pure _)

/-! ### Registration -/

theorem verifyOtp_owes {Q : Post Store Err Note Bool} {phone code : String} {purpose : OtpPurpose}
    (hQ : ∀ r ns s₀ s, Q r none ns s₀ s) :
    wp (contract K) Q (OtpService.verifyOtp phone purpose code) none ns s₀ s := by
  refine OtpService.wp_verifyOtp (I := fun _ => True)
    (fun _ _ _ _ => ⟨note_aside _ _ _ _ trivial, note_aside _ _ _ _ trivial⟩)
    (fun _ _ _ _ => trivial) (fun _ _ _ _ => ⟨.of_quiet rfl, trivial⟩) (fun r ns s₀ s _ => hQ r ns s₀ s) trivial

/-- What is left of a registration once the user and the wallet are there. -/
theorem welcome_quiet (userId : Id) (role : GlobalRole) (referralCode : Option Id) : Within Quiet Note.aside true (do
      let _ ← prisma (create fun id => ({ id, userId } : LoyaltyAccount))
      (match truthyId referralCode with
        | some referralCode => ReferralService.registerReferral referralCode userId
        | none => pure ())
      AuthService.issueTokenPair userId role : Task TokenPair) := by
  refine .bind (within_prisma (create_within quiet_may)) fun _ => .bind ?_ fun _ =>
    issueTokenPair_within Quiet.refl quiet_may _ _
  split
  · exact registerReferral_within Quiet.refl quiet_may _ _
  · exact .pure _

theorem verifyRegisterAndCreateUser_owes (hK : K .registering) (hK' : ∀ u, K (.enrolling u))
    (dto : VerifyRegisterDto) :
    wp (contract K) anyway (AuthService.verifyRegisterAndCreateUser dto) none ns s₀ s := by
  refine (wp_bind _ _).mpr (verifyOtp_owes fun r ns s₀ s => ?_)
  cases r with
  | error e => trivial
  | ok isValid =>
    refine (wp_bind _ _).mpr ((wp_ensure _ _).mpr ⟨fun _ => ?_, fun _ => trivial⟩)
    refine (wp_bind _ _).mpr (wp_query (fun g s₁ _ => ?_) fun _ _ => trivial)
    refine (wp_bind _ _).mpr ((wp_ensure _ _).mpr ⟨fun _ => ?_, fun _ => trivial⟩)
    refine (wp_bind _ _).mpr ((wp_mark _).mpr ⟨⟨.inr hK, trivial⟩, ?_⟩)
    refine (wp_bind _ _).mpr (wp_prisma (fun g s₂ u s₃ _ _ h => ?_) fun _ _ _ _ _ _ => trivial)
    obtain ⟨-, t, ht, hs₃⟩ := put_core (create_ok h).2
    obtain rfl := (create_ok h).1
    refine ⟨?_, (wp_bind _ _).mpr ((wp_mark _).mpr ⟨⟨.inr (hK' _), trivial⟩, (wp_bind _ _).mpr
      (wp_prisma (fun g s₄ w s₅ _ _ h => ?_) fun _ _ _ _ _ _ => trivial)⟩)⟩
    · change Change _ s₂.core s₃.core
      rw [hs₃]
      exact .newUser _ t List.mem_cons_self ht
    · obtain ⟨rfl, hput⟩ := create_ok h
      obtain ⟨hrefs, t, ht, hs₅⟩ := put_core hput
      refine ⟨?_, owes_of_quiet (welcome_quiet _ _ _)⟩
      change Change _ s₄.core s₅.core
      rw [hs₅]
      exact .newWallet _ t List.mem_cons_self ht rfl hrefs

end

/-! ### All requests -/

/-- The notes that a route of a business takes. -/
def BusinessRoute.takes : BusinessRoute → Note → Prop
  | createService _, .catalogue => True
  | updateService .., .catalogue => True
  | updateBookingStatus .., .aims .. => True
  | cancelBooking .., .aims .. => True
  | _, _ => False

/-- Whose request it is. -/
def Request.user : Request → Option Id
  | hold u _ | createRecurring u _ | confirm u _ | confirmGroup u _ | cancelByUser u _ _
  | reschedule u _ _ | listMine u | initiate u _ | refund u _ _ | getWallet u | topup u _
  | getLoyalty u | validateCoupon u _ | createBusiness u _ | business u _ _ | approveBusiness u _
  | rejectBusiness u _ _ | suspendBusiness u _ _ | createGlobalCoupon u _ | listGlobalCoupons u
  | updateAnyCoupon u _ _ | updateProfile u _ | listSessions u | revokeSession u _
  | requestAccountDeletion u | runSettlement u _ => some u
  | register _ | releaseExpiredHolds | getFreeSlots _ _ | handleCallback _ _ => none

/-- The notes that a request takes. -/
def Request.takes (r : Request) : Note → Prop
  | .acts u => r.user = some u
  | .registering => ∃ dto, r = register dto
  | .enrolling u => (∃ dto, r = register dto) ∨ r = getWallet u
  | .releasing _ => r = releaseExpiredHolds
  | .slotFree .. => ∃ u, (∃ dto, r = hold u dto) ∨ (∃ dto, r = createRecurring u dto) ∨
      ∃ id dto, r = reschedule u id dto
  | .lane .. => ∃ u id dto, r = reschedule u id dto
  | .confirming .. => ∃ u id, r = confirm u id ∨ r = confirmGroup u id
  | .aims b next => (∃ u id, r = confirm u id ∨ r = confirmGroup u id) ∨
      (∃ u id dto, r = cancelByUser u id dto) ∨
      ∃ u id route, r = business u id route ∧ route.takes (.aims b next)
  | .due _ u _ => ∃ dto, r = initiate u dto
  | .paying _ => (∃ u dto, r = initiate u dto) ∨ ∃ gateway ref, r = handleCallback gateway ref
  | .balance .. => (∃ u dto, r = initiate u dto) ∨ (∃ u id reason, r = refund u id reason) ∨
      ∃ gateway ref, r = handleCallback gateway ref
  | .opening _ | .opened .. =>
    ∃ u, (∃ dto, r = initiate u dto ∧ dto.method = .gateway) ∨ ∃ dto, r = topup u dto
  | .handling _ | .walletless _ | .unpayable _ => ∃ gateway ref, r = handleCallback gateway ref
  | .finalising _ ref => ∃ gateway, r = handleCallback gateway (some ref)
  | .refunding _ => ∃ u id reason, r = refund u id reason
  | .catalogue => ∃ u id route, r = business u id route ∧ route.takes .catalogue
  | .profile u => (∃ dto, r = updateProfile u dto) ∨ r = requestAccountDeletion u
  | .locked .. | .counted .. | .points .. | .referred _ | .auth _ => True

theorem Request.takes_of_aside {r : Request} {x : Note} (h : x.aside) : r.takes x := by
  cases x <;> trivial

theorem Request.takes_of_noted {r : Request} {held : List Note} {x : Note} {s s' : Store}
    (h : (contract r.takes).note held x s s') : r.takes x :=
  h.1.elim takes_of_aside id

theorem BusinessRoute.writes_quiet {route : BusinessRoute} (h : route.aside) : route.Writes Quiet := by
  cases route with
  | createService | updateService | updateBookingStatus | cancelBooking => exact h.elim
  | findOneForOwner | listBranches | listServices | listStaff | listHolidays | listBookings
  | listCoupons | listSettlements => trivial
  | _ => exact quiet_may

theorem handle_owes {K : Note → Prop} {ns : List Note} {s₀ s : Store} (businessId : Id)
    (route : BusinessRoute) (hK : ∀ x, route.takes x → K x) :
    wp (contract K) anyway (route.handle businessId) none ns s₀ s := by
  by_cases h : route.aside
  · exact owes_of_quiet (handle_within Quiet.refl (fun _ _ _ => Quiet.trans) (.inl h) _
      (BusinessRoute.writes_quiet h))
  cases route with
  | createService dto => exact wp_map (createService_owes (hK _ trivial) _ _)
  | updateService serviceId dto => exact wp_map (updateService_owes (hK _ trivial) _ _ _)
  | updateBookingStatus bookingId dto =>
    exact wp_map (updateStatus_owes (fun _ _ => hK _ trivial) _ _ _)
  | cancelBooking bookingId dto =>
    exact wp_map (cancelByBusiness_owes (fun _ _ => hK _ trivial) _ _ _)
  | _ => exact absurd trivial h

/-- Every request makes only the changes its notes allow. -/
theorem Request.serve_owes (r : Request) (s : Store) :
    wp (contract r.takes) anyway r.serve none [] s s := by
  cases r with
  | register dto =>
    exact wp_map (verifyRegisterAndCreateUser_owes ⟨_, rfl⟩ (fun _ => .inl ⟨_, rfl⟩) dto)
  | hold user dto =>
    exact wp_authenticated rfl fun u _ _ _ => hold_owes
      (fun _ _ _ _ _ => ⟨_, .inl ⟨_, rfl⟩⟩) u.id dto
  | createRecurring user dto =>
    exact wp_authenticated rfl fun u _ _ _ => createRecurring_owes
      (fun _ _ _ _ _ => ⟨_, .inr (.inl ⟨_, rfl⟩)⟩) u.id dto
  | confirm user bookingId =>
    exact wp_authenticated rfl fun u _ _ _ => confirm_owes (fun _ _ => ⟨_, _, .inl rfl⟩)
      (fun _ _ => .inl ⟨_, _, .inl rfl⟩) _ _ (fun _ _ _ => trivial) fun _ _ _ _ _ => trivial
  | confirmGroup user id =>
    exact wp_authenticated rfl fun u _ _ _ => confirmGroup_owes (fun _ _ => ⟨_, _, .inr rfl⟩)
      (fun _ _ => .inl ⟨_, _, .inr rfl⟩) _ _
  | cancelByUser user bookingId dto =>
    exact wp_authenticated rfl fun u _ _ _ => cancelByUser_owes
      (fun _ _ => .inr (.inl ⟨_, _, _, rfl⟩)) _ _ _
  | reschedule user bookingId dto =>
    exact wp_authenticated rfl fun u _ _ _ => reschedule_owes
      (fun _ _ _ _ _ => ⟨_, .inr (.inr ⟨_, _, rfl⟩)⟩) (fun _ _ _ => ⟨_, _, _, rfl⟩) _ _ _
  | listMine user =>
    exact wp_authenticated rfl fun u _ _ _ => owes_of_quiet (within_query Quiet.refl _)
  | releaseExpiredHolds => exact wp_map (releaseExpiredHolds_owes fun _ => rfl)
  | getFreeSlots businessId dto => exact wp_map (owes_of_quiet (getFreeSlots_within Quiet.refl _ _))
  | initiate user dto =>
    refine wp_authenticated rfl fun u _ _ hu => initiate_owes (fun _ _ _ => .inl ⟨_, _, rfl⟩)
      (fun _ => .inl ⟨_, _, rfl⟩) (fun h _ => ⟨_, .inl ⟨_, rfl, h⟩⟩)
      (fun h _ _ => ⟨_, .inl ⟨_, rfl, h⟩⟩) (fun _ _ => ?_)
    rw [hu]
    exact ⟨_, rfl⟩
  | handleCallback gateway gatewayRefId =>
    exact wp_map (handleCallback_owes (fun _ _ _ => .inr (.inr ⟨_, _, rfl⟩))
      (fun _ => ⟨_, _, rfl⟩) (fun _ => .inr ⟨_, _, rfl⟩) (fun _ => ⟨_, _, rfl⟩)
      (fun _ => ⟨_, _, rfl⟩) (fun _ _ h => ⟨gateway, by rw [h]⟩) gateway)
  | refund user paymentId reason =>
    exact wp_adminOnly rfl fun u _ _ _ => refund_owes (fun _ _ _ => .inr (.inl ⟨_, _, _, rfl⟩))
      (fun _ => ⟨_, _, _, rfl⟩) _ _ _
  | getWallet user =>
    refine wp_authenticated rfl fun u _ _ hu => getWallet_owes ?_
    rw [hu]
    exact .inr rfl
  | topup user dto =>
    refine wp_authenticated rfl fun u _ _ hu => topup_owes (fun _ => ⟨_, .inr ⟨_, rfl⟩⟩)
      (fun _ _ => ⟨_, .inr ⟨_, rfl⟩⟩) ?_
    rw [hu]
    exact List.mem_cons_self
  | getLoyalty user =>
    exact wp_authenticated rfl fun u _ _ _ => owes_of_quiet (within_prisma (upsert_within Quiet.refl quiet_may))
  | validateCoupon user dto =>
    exact wp_authenticated rfl fun u _ _ _ => owes_of_quiet (checkAndCompute_within Quiet.refl (fun _ => id) _ _ _ _)
  | createBusiness user dto =>
    exact wp_authenticated rfl fun u _ _ _ => owes_of_quiet
      (createBusiness_within Quiet.refl quiet_may quiet_may _ _)
  | business user businessId route =>
    refine wp_authenticated rfl fun u _ _ _ => (wp_bind _ _).mpr
      (wp_quiet (canActivate_within Quiet.refl _ _ _) fun r _ _ _ _ => ?_)
    cases r with
    | error e => trivial
    | ok _ =>
      refine handle_owes businessId route fun x hx => ?_
      cases x <;> cases route <;> simp only [BusinessRoute.takes] at hx
      all_goals first
        | exact .inr (.inr ⟨_, _, _, rfl, trivial⟩)
        | exact ⟨_, _, _, rfl, trivial⟩
  | approveBusiness user businessId =>
    exact wp_adminOnly rfl fun u _ _ _ => owes_of_quiet (review_quiet (by simp))
  | rejectBusiness user businessId reason =>
    exact wp_adminOnly rfl fun u _ _ _ => owes_of_quiet (review_quiet (by simp))
  | suspendBusiness user businessId reason =>
    exact wp_adminOnly rfl fun u _ _ _ => owes_of_quiet (review_quiet (by simp))
  | createGlobalCoupon user dto =>
    exact wp_adminOnly rfl fun u _ _ _ => owes_of_quiet (createCoupon_within Quiet.refl quiet_may _ _)
  | listGlobalCoupons user =>
    exact wp_adminOnly rfl fun u _ _ _ => owes_of_quiet (within_query Quiet.refl _)
  | updateAnyCoupon user couponId dto =>
    exact wp_adminOnly rfl fun u _ _ _ => owes_of_quiet (updateCoupon_within Quiet.refl quiet_may _ _)
  | updateProfile user dto =>
    refine wp_authenticated rfl fun u _ _ hu => updateProfile_owes ?_ dto
    rw [hu]
    exact .inl ⟨_, rfl⟩
  | listSessions user =>
    exact wp_authenticated rfl fun u _ _ _ => owes_of_quiet (listSessions_within Quiet.refl _)
  | revokeSession user sessionId =>
    exact wp_authenticated rfl fun u _ _ _ => owes_of_quiet (revokeSession_within Quiet.refl quiet_may _ _)
  | requestAccountDeletion user =>
    refine wp_authenticated rfl fun u _ _ hu => requestAccountDeletion_owes ?_
    rw [hu]
    exact .inr rfl
  | runSettlement user dto =>
    exact wp_adminOnly rfl fun u _ _ _ => owes_of_quiet (runBatch_within Quiet.refl quiet_may _)

theorem Request.concurrent {ι : Type} [DecidableEq ι] (r : ι → Request)
    {allowed : Config ι Env Store Err Note Unit → ι → Env → Prop} :
    Concurrent (fun i => contract (r i).takes) (fun i => (r i).serve) allowed where
  rely _ _ _ := trivial
  env _ := trivial
  owes i s := (r i).serve_owes s

end BookingPlatform
