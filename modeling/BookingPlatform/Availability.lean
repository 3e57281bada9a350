import BookingPlatform.Coupon

/-! `AvailabilityService`. -/
namespace BookingPlatform
open Async Prog

/-- `ACTIVE_STATUSES`. -/
def activeStatuses : List BookingStatus := [.hold, .pending, .confirmed]

/-- `CheckAvailabilityDto`; `date` counts days since the epoch. -/
structure CheckAvailabilityDto where
  serviceId : Id
  staffMemberId : Option Id := none
  branchId : Option Id := none
  date : ℤ

structure FreeSlot where
  startTime : Time
  endTime : Time
  availableStaffIds : List (Option Id)
  deriving DecidableEq

/-- The opening and closing time of a day. -/
structure Window where
  startTime : HHmm
  endTime : HHmm

def HHmm.ms (t : HHmm) : Time := t.hours * hour + t.minutes * minute

namespace AvailabilityService

def dayStart (date : ℤ) : Time := date * day

/-- 23:59:59.999 of the day. -/
def dayEnd (date : ℤ) : Time := date * day + day - 1

/-- `getUTCDay`: the epoch was a Thursday. -/
def getUTCDay (date : ℤ) : ℤ := (date + 4) % 7

/-- The `while` loop of `generateSlots` from `cursor`; the first argument bounds its turns. -/
def slotsFrom (duration windowEnd now : Time) (existingBookings : List Booking) :
    ℕ → Time → List Time
  | 0, _ => []
  | n + 1, cursor =>
    if cursor + duration ≤ windowEnd then
      let slotEnd := cursor + duration
      let inPast := cursor ≤ now
      let overlapsBooking := existingBookings.any fun b => cursor < b.endTime && slotEnd > b.startTime
      let rest := slotsFrom duration windowEnd now existingBookings n (cursor + duration)
      if ¬ inPast ∧ ¬ overlapsBooking then cursor :: rest else rest
    else []

def generateSlots (date : ℤ) (window : Window) (duration now : Time)
    (existingBookings : List Booking) : List Time :=
  let cursor := dayStart date + window.startTime.ms
  let windowEnd := dayStart date + window.endTime.ms
  slotsFrom duration windowEnd now existingBookings
    ((windowEnd - cursor) / duration).toNat cursor

/-- One turn of the loop that fills `slotsByTime`. -/
def addSlot (staffId : Option Id) (duration : Time) (slot : Time) : List FreeSlot → List FreeSlot
  | [] => [⟨slot, slot + duration, [staffId]⟩]
  | e :: rest =>
    if e.startTime = slot then { e with availableStaffIds := e.availableStaffIds ++ [staffId] } :: rest
    else e :: addSlot staffId duration slot rest

def resolveWorkingWindow (branchId : Id) (staffId : Option Id) (dayOfWeek : ℤ) :
    Task (Option Window) := do
  let staffHasAnyHours ← (match truthyId staffId with
    | some staff => query (findFirst fun r : WorkingHours => r.staffMemberId == some staff)
    | none => pure none)
  let hours ← (match staffHasAnyHours with
    | some _ => query (findFirst fun r : WorkingHours =>
        r.staffMemberId == staffId && r.dayOfWeek == dayOfWeek)
    | none => query (findFirst fun r : WorkingHours =>
        r.branchId == some branchId && r.dayOfWeek == dayOfWeek))
  return hours.map fun h => ⟨h.startTime, h.endTime⟩

def isHoliday (branchId : Id) (staffId : Option Id) (date : ℤ) : Task Bool := do
  let staffHoliday ← (match truthyId staffId with
    | some staff => query (findFirst fun r : Holiday =>
        r.staffMemberId == some staff && dayStart date ≤ r.date && r.date < dayEnd date)
    | none => pure none)
  match staffHoliday with
  | some _ => return true
  | none =>
    let branchHoliday ← query (findFirst fun r : Holiday =>
      r.branchId == some branchId && dayStart date ≤ r.date && r.date < dayEnd date)
    return branchHoliday.isSome

/-- The loop over the candidate staff. -/
def collectSlots (branchId : Id) (service : Service) (date : ℤ) :
    List (Option Id) → List FreeSlot → Task (List FreeSlot)
  | [], slotsByTime => pure slotsByTime
  | staffId :: rest, slotsByTime => do
    match ← resolveWorkingWindow branchId staffId (getUTCDay date) with
    | none => collectSlots branchId service date rest slotsByTime
    | some window =>
      if ← isHoliday branchId staffId date then
        collectSlots branchId service date rest slotsByTime
      else
        let bookings ← query (findMany fun r : Booking =>
          r.staffMemberId == staffId && r.branchId == branchId &&
            activeStatuses.contains r.status && dayStart date ≤ r.startTime &&
            r.startTime < dayEnd date)
        let now ← clock
        let duration := service.durationMinutes.ms
        let slots := generateSlots date window duration now bookings
        collectSlots branchId service date rest
          (slots.foldl (fun acc slot => addSlot staffId duration slot acc) slotsByTime)

/-- One staff member, or all who are assigned to the service, or nobody in particular. -/
def candidateStaff (businessId : Id) (dto : CheckAvailabilityDto) : Task (List (Option Id)) :=
  match truthyId dto.staffMemberId with
  | some staffMemberId => do
    let staff ← query (findFirst fun r : StaffMember =>
      r.id == staffMemberId && r.businessId == businessId && r.isActive)
    let _ ← orThrow staff (.notFound "کارمند یافت نشد")
    return [some staffMemberId]
  | none => do
    let assignments ← query (findMany fun r : ServiceStaff => r.serviceId == dto.serviceId)
    return if assignments.length > 0 then assignments.map fun a => some a.staffMemberId else [none]

def getFreeSlots (businessId : Id) (dto : CheckAvailabilityDto) : Task (List FreeSlot) := do
  let service ← query (findFirst fun r : Service =>
    r.id == dto.serviceId && r.businessId == businessId && r.isActive)
  let service ← orThrow service (.notFound "خدمت یافت نشد")
  let branchId ← orThrow (truthyId dto.branchId) (.notFound "شعبه مشخص نشده است")
  let branch ← query (findFirst fun r : Branch => r.id == branchId && r.businessId == businessId)
  let _ ← orThrow branch (.notFound "شعبه یافت نشد")
  let candidateStaffIds ← candidateStaff businessId dto
  let slots ← collectSlots branchId service dto.date candidateStaffIds []
  return slots.mergeSort fun a b => a.startTime ≤ b.startTime

end AvailabilityService
end BookingPlatform
