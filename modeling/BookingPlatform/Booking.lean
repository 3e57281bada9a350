import BookingPlatform.Availability
import BookingPlatform.Gateway
import BookingPlatform.Loyalty

/-! `BookingService`. -/
namespace BookingPlatform
open Async Data Prog

/-- `HOLD_TTL_MINUTES`. -/
def holdTtl : Time := 5 * minute

/-- `ALLOWED_STATUS_TRANSITIONS`. -/
def allowedStatusTransitions : BookingStatus → List BookingStatus
  | .hold => [.pending, .confirmed, .cancelled]
  | .pending => [.confirmed, .cancelled]
  | .confirmed => [.completed, .noShow, .cancelled]
  | .completed => []
  | .cancelled => []
  | .noShow => []

def BookingStatus.text : BookingStatus → String
  | .hold => "HOLD"
  | .pending => "PENDING"
  | .confirmed => "CONFIRMED"
  | .completed => "COMPLETED"
  | .cancelled => "CANCELLED"
  | .noShow => "NO_SHOW"

def Booking.active (b : Booking) : Bool := activeStatuses.contains b.status

structure HoldBookingDto where
  businessId : Id
  branchId : Id
  serviceId : Id
  staffMemberId : Option Id := none
  startTime : Time
  couponCode : Option String := none

structure CreateRecurringBookingDto where
  businessId : Id
  branchId : Id
  serviceId : Id
  staffMemberId : Option Id := none
  startTime : Time
  occurrences : ℕ
  least : 2 ≤ occurrences := by decide
  most : occurrences ≤ 52 := by decide

structure CancelBookingDto where
  reason : Option String := none

structure RescheduleBookingDto where
  newStartTime : Time

structure UpdateBookingStatusDto where
  status : BookingStatus
  isIn : status ∈ [BookingStatus.confirmed, .completed, .noShow, .cancelled] := by decide

structure ListBusinessBookingsDto where
  branchId : Option Id := none
  staffMemberId : Option Id := none
  status : Option BookingStatus := none
  since : Option Time := none
  until_ : Option Time := none

structure CancelResult where
  booking : Booking
  feeApplied : Bool
  feePercent : ℕ

namespace BookingService

/-- `Math.round(n * 100) / 100`, in hundredths. -/
def round2 (n : ℚ) : Money := round (Double.mul n 100)

def loadAndValidateContext (businessId branchId serviceId : Id) (staffMemberId : Option Id) :
    Task (Business × Service) := do
  let business ← query (findFirst fun r : Business => r.id == businessId && r.status == .approved)
  let business ← orThrow business (.notFound "کسب‌وکار یافت نشد یا هنوز تایید نشده است")
  let branch ← query (findFirst fun r : Branch => r.id == branchId && r.businessId == businessId)
  let _ ← orThrow branch (.notFound "شعبه یافت نشد")
  let service ← query (findFirst fun r : Service =>
    r.id == serviceId && r.businessId == businessId && r.isActive)
  let service ← orThrow service (.notFound "خدمت یافت نشد")
  match truthyId staffMemberId with
  | some staffMemberId =>
    let staff ← query (findFirst fun r : StaffMember =>
      r.id == staffMemberId && r.businessId == businessId && r.isActive)
    let _ ← orThrow staff (.notFound "کارمند یافت نشد")
    return (business, service)
  | none => return (business, service)

/-- The `where` of `assertSlotFree`. -/
def overlapping (branchId : Id) (staffMemberId : Option Id) (startTime endTime : Time)
    (excludeBookingId : Option Id) (r : Booking) : Bool :=
  r.branchId == branchId && r.staffMemberId == staffMemberId && r.active &&
    (truthyId excludeBookingId).all (fun id => r.id != id) &&
    r.startTime < endTime && r.endTime > startTime

def assertSlotFree (branchId : Id) (staffMemberId : Option Id) (startTime endTime : Time)
    (excludeBookingId : Option Id) : Task Unit := do
  let found ← query (findFirst
    (overlapping branchId staffMemberId startTime endTime excludeBookingId))
  ensure (found = none) (.conflict "این بازه‌ی زمانی دیگر آزاد نیست")
  mark (.slotFree branchId staffMemberId startTime endTime excludeBookingId)

def getOwnedBooking (bookingId userId : Id) : Task Booking := do
  let booking ← query (findFirst fun r : Booking => r.id == bookingId && r.userId == userId)
  orThrow booking (.notFound "رزرو یافت نشد")

/-- The `if (err.message.startsWith('LOCK_BUSY'))` of the callers of `withLock`. -/
def busyAsConflict {α : Type} : Err → Task α
  | .lockBusy _ =>
    throw (.conflict "این بازه در حال رزرو توسط کاربر دیگری است، لطفاً دوباره تلاش کنید")
  | e => throw e

/-! ### Hold -/

/-- The coupon part of `hold`: the discount, and the coupon that was redeemed. -/
def redeemFor (userId : Id) (dto : HoldBookingDto) (service : Service) :
    Task (Money × Option Id) :=
  match truthyText dto.couponCode with
  | some code => do
    let result ← CouponService.checkAndRedeem code userId (some dto.businessId) service.price none
    return (result.discountAmount, some result.couponId)
  | none => pure (0, none)

/-- The deposit for a price, which is a JavaScript number. -/
def depositOf (service : Service) (price : ℚ) : Money :=
  if service.requiresDeposit then
    round2 (Double.div (Double.mul price (toNumber (service.depositPercent.getD 0))) 100)
  else 0

def linkUsage (userId bookingId : Id) : Option Id → Task Unit
  | some redeemedCouponId => do
    let _ ← tx (update (fun r : CouponUsage => r.couponId == redeemedCouponId && r.userId == userId)
      fun r => { r with bookingId := some bookingId })
    return ()
  | none => pure ()

def hold (userId : Id) (dto : HoldBookingDto) : Task Booking := do
  let (business, service) ← loadAndValidateContext dto.businessId dto.branchId dto.serviceId
    dto.staffMemberId
  let startTime := dto.startTime
  let endTime := startTime + service.durationMinutes.ms
  let lockKey : LockKey := ⟨dto.branchId, dto.staffMemberId, startTime⟩
  tryCatch (RedisLockService.withLock lockKey (transaction do
      assertSlotFree dto.branchId dto.staffMemberId startTime endTime none
      let (discountAmount, redeemedCouponId) ← redeemFor userId dto service
      let priceAfterDiscount := Double.sub (toNumber service.price) (toNumber discountAmount)
      let depositRequired := depositOf service priceAfterDiscount
      let now ← clock
      let booking ← tx (create fun id => ({
        id, userId, businessId := dto.businessId, branchId := dto.branchId
        staffMemberId := dto.staffMemberId, serviceId := dto.serviceId, startTime, endTime
        status := .hold, priceSnapshot := service.price, discountAmount
        couponCode := dto.couponCode, depositRequired
        cancellationPolicySnapshot := business.cancellationPolicy
        holdExpiresAt := some (now + holdTtl) } : Booking))
      linkUsage userId booking.id redeemedCouponId
      return booking))
    busyAsConflict

/-! ### Confirm -/

def awardPostPurchaseRewards (userId : Id) (amountToman : Money) : Task Unit := do
  LoyaltyService.earnFromPurchase userId amountToman "خرید رزرو"
  ReferralService.rewardIfEligible userId

/-- `service?.requiresDeposit ? 'PENDING' : 'CONFIRMED'`. -/
def nextStatus (service : Option Service) : BookingStatus :=
  if service.any Service.requiresDeposit then .pending else .confirmed

def confirm (bookingId userId : Id) : Task Booking := do
  let booking ← getOwnedBooking bookingId userId
  ensure (booking.status = .hold) (.badRequest "این رزرو در وضعیت قابل تایید نیست")
  mark (.confirming bookingId booking.serviceId)
  let now ← clock
  if booking.holdExpiresAt.all fun t => t < now then
    mark (.aims bookingId .cancelled)
    let _ ← prisma (update (fun r : Booking => r.id == bookingId)
      fun r => { r with status := .cancelled, cancelReason := some "انقضای مهلت تایید" })
    throw (.badRequest "مهلت تایید این رزرو منقضی شده، لطفاً دوباره رزرو کنید")
  else
    let service ← query (findUnique fun r : Service => r.id == booking.serviceId)
    mark (.aims bookingId (nextStatus service))
    transaction do
      let updated ← tx (update (fun r : Booking => r.id == bookingId)
        fun r => { r with status := nextStatus service, holdExpiresAt := none })
      if nextStatus service = .confirmed then
        awardPostPurchaseRewards userId (booking.priceSnapshot - booking.discountAmount)
        return updated
      else return updated

def confirmAll (userId : Id) : List Booking → Task (List Booking)
  | [] => pure []
  | b :: rest => do
    let result ← confirm b.id userId
    let results ← confirmAll userId rest
    return result :: results

def confirmGroup (recurringGroupId userId : Id) : Task (List Booking) := do
  let bookings ← query (findMany fun r : Booking =>
    r.recurringGroupId == some recurringGroupId && r.userId == userId)
  ensure (bookings ≠ []) (.notFound "رزرو تکرارشونده یافت نشد")
  confirmAll userId bookings

/-! ### Cancel -/

def cancelInternal (booking : Booking) (reason : Option String) (cancelledByUser : Bool) :
    Task CancelResult := do
  ensure (.cancelled ∈ allowedStatusTransitions booking.status)
    (.badRequest "این رزرو دیگر قابل لغو نیست")
  mark (.aims booking.id .cancelled)
  let now ← clock
  let policy := booking.cancellationPolicySnapshot
  let feeApplies := cancelledByUser ∧ booking.startTime - now < policy.freeCancelHours * hour
  let cancelledAt ← clock
  let updated ← prisma (update (fun r : Booking => r.id == booking.id) fun r => { r with
    status := .cancelled, cancelledAt := some cancelledAt
    cancelReason := reason.or r.cancelReason })
  return { booking := updated, feeApplied := feeApplies
           feePercent := if feeApplies then policy.feePercent else 0 }

def cancelByUser (bookingId userId : Id) (dto : CancelBookingDto) : Task CancelResult := do
  let booking ← getOwnedBooking bookingId userId
  cancelInternal booking dto.reason true

def cancelByBusiness (businessId bookingId : Id) (dto : CancelBookingDto) :
    Task CancelResult := do
  let booking ← query (findFirst fun r : Booking => r.id == bookingId && r.businessId == businessId)
  let booking ← orThrow booking (.notFound "رزرو یافت نشد")
  cancelInternal booking dto.reason false

/-! ### Reschedule -/

def reschedule (bookingId userId : Id) (dto : RescheduleBookingDto) : Task Booking := do
  let booking ← getOwnedBooking bookingId userId
  ensure (booking.active) (.badRequest "این رزرو قابل تغییر زمان نیست")
  mark (.lane booking.id booking.branchId booking.staffMemberId)
  let service ← findUniqueOrThrow fun r : Service => r.id == booking.serviceId
  let newStart := dto.newStartTime
  let newEnd := newStart + service.durationMinutes.ms
  let freeSlots ← AvailabilityService.getFreeSlots booking.businessId {
    serviceId := booking.serviceId, staffMemberId := booking.staffMemberId
    branchId := some booking.branchId, date := newStart / day }
  ensure (freeSlots.any fun slot => slot.startTime = newStart)
    (.conflict "بازه‌ی زمانی جدید آزاد نیست")
  let lockKey : LockKey := ⟨booking.branchId, booking.staffMemberId, newStart⟩
  tryCatch (RedisLockService.withLock lockKey (transaction do
      assertSlotFree booking.branchId booking.staffMemberId newStart newEnd (some booking.id)
      tx (update (fun r : Booking => r.id == booking.id)
        fun r => { r with startTime := newStart, endTime := newEnd })))
    busyAsConflict

/-! ### Recurring bookings -/

/-- The starts of the weekly occurrences. -/
def occurrences (firstStart : Time) (n : ℕ) : List Time :=
  (List.range n).map fun i => firstStart + i * (7 * day)

def createOccurrences (userId : Id) (dto : CreateRecurringBookingDto) (business : Business)
    (service : Service) (recurringGroupId : Id) : List Time → Task (List Booking)
  | [] => pure []
  | startTime :: rest => do
    let endTime := startTime + service.durationMinutes.ms
    assertSlotFree dto.branchId dto.staffMemberId startTime endTime none
    let depositRequired := depositOf service (toNumber service.price)
    let now ← clock
    let booking ← tx (create fun id => ({
      id, userId, businessId := dto.businessId, branchId := dto.branchId
      staffMemberId := dto.staffMemberId, serviceId := dto.serviceId, startTime, endTime
      status := .hold, priceSnapshot := service.price, depositRequired
      cancellationPolicySnapshot := business.cancellationPolicy
      holdExpiresAt := some (now + holdTtl), recurringGroupId := some recurringGroupId } : Booking))
    let created ← createOccurrences userId dto business service recurringGroupId rest
    return booking :: created

def createRecurring (userId : Id) (dto : CreateRecurringBookingDto) : Task (List Booking) := do
  let (business, service) ← loadAndValidateContext dto.businessId dto.branchId dto.serviceId
    dto.staffMemberId
  let recurringGroupId ← randomUUID
  tryCatch (transaction (createOccurrences userId dto business service recurringGroupId
      (occurrences dto.startTime dto.occurrences)))
    fun
      | .conflict message => throw (.conflict
          ("امکان رزرو همه‌ی جلسات وجود نداشت (تداخل زمانی)؛ هیچ‌کدام ثبت نشد: " ++ message))
      | e => throw e

/-! ### Lists, status changes and maintenance -/

def listMine (userId : Id) : Task (List Booking) :=
  query (findMany fun r : Booking => r.userId == userId)

def listForBusiness (businessId : Id) (dto : ListBusinessBookingsDto) : Task (List Booking) :=
  query (findMany fun r : Booking => r.businessId == businessId &&
    dto.branchId.all (r.branchId == ·) && dto.staffMemberId.all (r.staffMemberId == some ·) &&
    dto.status.all (r.status == ·) && dto.since.all (· ≤ r.startTime) &&
    dto.until_.all (r.startTime ≤ ·))

def updateStatus (businessId bookingId : Id) (dto : UpdateBookingStatusDto) : Task Booking := do
  let booking ← query (findFirst fun r : Booking => r.id == bookingId && r.businessId == businessId)
  let booking ← orThrow booking (.notFound "رزرو یافت نشد")
  ensure (dto.status ∈ allowedStatusTransitions booking.status)
    (.badRequest ("انتقال وضعیت از " ++ booking.status.text ++ " به " ++ dto.status.text ++
      " مجاز نیست"))
  mark (.aims bookingId dto.status)
  let now ← clock
  prisma (update (fun r : Booking => r.id == bookingId) fun r => { r with
    status := dto.status
    cancelledAt := if dto.status = .cancelled then some now else r.cancelledAt })

def releaseExpiredHolds : Task ℕ := do
  let now ← clock
  mark (.releasing now)
  prisma (updateMany (fun r : Booking => r.status == .hold && r.holdExpiresAt.any (· < now))
    fun r => { r with status := .cancelled, cancelReason := some "انقضای خودکار مهلت تایید" })

end BookingService
end BookingPlatform
