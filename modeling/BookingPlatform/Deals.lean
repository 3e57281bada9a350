import BookingPlatform.Links
import BookingPlatform.Shape.Requests

/-! What was agreed when a booking was made is never changed again. -/
namespace BookingPlatform
open Async Data Prog

/-- What a booking is about and what it costs. -/
structure Deal where
  id : Id
  userId : Id
  businessId : Id
  serviceId : Id
  couponCode : Option String
  priceSnapshot : Money
  discountAmount : Money
  depositRequired : Money

def Booking.deal (b : Booking) : Deal where
  id := b.id
  userId := b.userId
  businessId := b.businessId
  serviceId := b.serviceId
  couponCode := b.couponCode
  priceSnapshot := b.priceSnapshot
  discountAmount := b.discountAmount
  depositRequired := b.depositRequired

/-- The deals are the same, whatever has become of the bookings. -/
structure SameDeals (t t' : Table Booking) : Prop where
  stay : Persist Booking.deal t t'
  back : Persist Booking.deal t' t

section tables
variable {t t' t'' : Table Booking}

theorem SameDeals.refl (t : Table Booking) : SameDeals t t := ⟨.refl _, .refl _⟩

theorem SameDeals.trans (h : SameDeals t t') (h' : SameDeals t' t'') : SameDeals t t'' :=
  ⟨h.stay.trans h'.stay, h'.back.trans h.back⟩

theorem SameDeals.update {p : Booking → Bool} {f : Booking → Booking} (hf : Table.Keeps f)
    (hdeal : ∀ b, (f b).deal = b.deal) : SameDeals t (t.update p f hf) :=
  ⟨.update hf fun b _ _ => hdeal b, .of_update hf fun b _ _ => hdeal b⟩

theorem Booking.Restated.deal {next : BookingStatus} {b b' : Booking} (h : Booking.Restated next b b') :
    b'.deal = b.deal := by
  rw [h]
  rfl

theorem StatusSet.sameDeals {id : Id} {next : BookingStatus} (h : StatusSet id next t t') : SameDeals t t' := by
  obtain ⟨f, hf, hnext, rfl⟩ := h
  exact .update hf fun b => (hnext b).deal

/-- A request that has found no free slot makes no deal. -/
theorem Change.sameDeals {ns : List Note} {c c' : Core} (h : Change ns c c')
    (hns : ∀ branchId staffMemberId startTime endTime,
      .slotFree branchId staffMemberId startTime endTime none ∉ ns) : SameDeals c.booking c'.booking := by
  cases h with
  | book bs t hrows hbs hpair =>
    have hnone : bs = [] := by
      apply List.eq_nil_iff_forall_not_mem.mpr
      intro b hb
      exact hns _ _ _ _ (hbs b hb).2.2.2.2
    rw [hnone, List.append_nil] at hrows
    rw [show t = c.booking from Table.ext hrows]
    exact .refl _
  | move id branchId staffMemberId startTime endTime t hlane hfree htime ht =>
    obtain ⟨hf, rfl⟩ := ht
    exact .update hf fun b => rfl
  | status id next t tr haims hhold ht => exact ht.sameDeals
  | release now t hnow ht =>
    obtain ⟨f, hf, hnext, rfl⟩ := ht
    exact .update hf fun b => (hnext b).deal
  | confirmPaid p ref bookingId tp tb tr _ _ _ _ _ _ ht => exact ht.sameDeals
  | payWallet userId bookingId walletId amount x p tp tw tl tb tr _ _ _ _ _ _ _ _ _ _ _ _ _ _ _ ht =>
    exact ht.sameDeals
  | _ => exact .refl _

end tables

/-- A request that makes no deal. -/
def Dealt (s s' : Store) : Prop := SameDeals s.booking s'.booking

section
variable {s s' s'' : Store}

theorem Dealt.refl (s : Store) : Dealt s s := SameDeals.refl _

theorem dealt_trans (s s' s'' : Store) (h : Dealt s s') (h' : Dealt s' s'') : Dealt s s'' := SameDeals.trans h h'

theorem Asked.dealt (h : Asked s.core s'.core) : Dealt s s' := by
  obtain ⟨t, ht⟩ := h.core_eq
  have hbooking : s'.booking = s.booking := congrArg Core.booking ht
  rw [Dealt, hbooking]
  exact .refl _

theorem dealt_mayLock : MayLock Dealt := fun s _ => SameDeals.refl s.booking

theorem reschedule_dealt (bookingId userId : Id) (dto : RescheduleBookingDto) :
    Within Dealt (fun _ => True) true (BookingService.reschedule bookingId userId dto) := by
  refine .bind (getOwnedBooking_within .refl _ _) fun booking => .bind (.ensure _ _) fun _ =>
    .bind (.mark trivial) fun _ => .bind (within_findUniqueOrThrow .refl _) fun service =>
    .bind (getFreeSlots_within .refl _ _) fun slots => .bind (.ensure _ _) fun _ => .tryCatch ?_ busyAsConflict_within
  refine withLock_within .refl (fun _ _ => trivial) dealt_mayLock _ (within_transaction .refl ?_)
  refine .bind (assertSlotFree_within .refl (fun _ => trivial) _ _ _ _ _) fun _ => within_tx fun g s r s' h => ?_
  rw [(update_ok h).2]
  exact SameDeals.update (by intro _ _; rfl) fun b => rfl

/-- The contract of every request that makes no deal. -/
abbrev dealing : Contract Env Store Note := .doing Dealt Dealt.refl

/-- Deals are made by `hold` and `createRecurring` only. -/
theorem Request.dealing_owes {r : Request} (hhold : ∀ user dto, r ≠ .hold user dto)
    (hrecurring : ∀ user dto, r ≠ .createRecurring user dto) (s : Store) :
    wp dealing anyway r.serve none [] s s := by
  by_cases hmoves : ∃ user bookingId dto, r = .reschedule user bookingId dto
  · obtain ⟨user, bookingId, dto, rfl⟩ := hmoves
    exact Within.doing (N := fun _ => True) dealt_trans (authenticated_within .refl (fun _ => trivial) fun _ =>
      reschedule_dealt _ _ _)
  · refine wp_weaken (C := (contract r.takes).given fun ns _ => ∀ x ∈ ns, r.takes x) (fun _ => trivial)
      (fun _ => trivial) (fun _ => trivial) (fun h => Asked.dealt h) (fun h => ?_)
      (wp_given Request.takes_of_noted (by simp) (r.serve_owes s))
    obtain ⟨hns, hchange⟩ := h
    refine Change.sameDeals hchange fun branchId staffMemberId startTime endTime hfree => ?_
    obtain ⟨user, ⟨dto, hr⟩ | ⟨dto, hr⟩ | ⟨bookingId, dto, hr⟩⟩ := hns _ hfree
    · exact hhold _ _ hr
    · exact hrecurring _ _ hr
    · exact hmoves ⟨_, _, _, hr⟩

end
end BookingPlatform
