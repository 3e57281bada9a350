import BookingPlatform.Prisma

/-! What a business manages: `BusinessService`, `BranchService`, `ServiceCatalogService`,
`StaffService` and `WorkingHoursService`. -/
namespace BookingPlatform
open Async Prog

/-- `DEFAULT_CANCELLATION_POLICY`. -/
def defaultCancellationPolicy : CancellationPolicy := { freeCancelHours := 24, feePercent := 20 }

structure CreateBusinessDto where
  name : String
  category : String
  description : Option String := none
  logoUrl : Option String := none

structure UpdateBusinessDto where
  name : Option String := none
  category : Option String := none
  description : Option String := none
  logoUrl : Option String := none
  legalId : Option String := none
  ibanNumber : Option String := none

structure CancellationPolicyDto where
  freeCancelHours : ℕ
  feePercent : ℕ
  weekAtMost : freeCancelHours ≤ 168 := by decide
  percent : feePercent ≤ 100 := by decide

structure AddDocumentDto where
  type : DocumentType
  fileUrl : String

structure CreateBranchDto where
  name : String
  address : String
  latitude : ℤ
  longitude : ℤ
  phone : Option String := none

structure UpdateBranchDto where
  name : Option String := none
  address : Option String := none
  latitude : Option ℤ := none
  longitude : Option ℤ := none
  phone : Option String := none

structure CreateServiceDto where
  name : String
  description : Option String := none
  durationMinutes : Duration
  price : Money
  requiresDeposit : Option Bool := none
  depositPercent : Option Percent := none

structure UpdateServiceDto where
  name : Option String := none
  description : Option String := none
  durationMinutes : Option Duration := none
  price : Option Money := none
  requiresDeposit : Option Bool := none
  depositPercent : Option Percent := none

structure InviteStaffDto where
  phone : String
  role : StaffRole
  specialty : Option String := none
  branchId : Option Id := none
  isIn : role ∈ [StaffRole.manager, .staff] := by decide

structure WorkingHourEntryDto where
  dayOfWeek : ℤ
  startTime : HHmm
  endTime : HHmm

structure SetWorkingHoursDto where
  branchId : Option Id := none
  staffMemberId : Option Id := none
  hours : List WorkingHourEntryDto

structure AddHolidayDto where
  branchId : Option Id := none
  staffMemberId : Option Id := none
  date : Time
  reason : Option String := none

namespace BusinessService

def create (ownerId : Id) (dto : CreateBusinessDto) : Task Business :=
  transaction do
    let business ← tx (BookingPlatform.create fun id => {
      id, ownerId, name := dto.name, category := dto.category, description := dto.description
      logoUrl := dto.logoUrl, cancellationPolicy := defaultCancellationPolicy })
    let _ ← tx (BookingPlatform.create fun id => ({
      id, userId := ownerId, businessId := business.id, role := .owner } : StaffMember))
    return business

def assertExists (businessId : Id) : Task Business := do
  let business ← query (findUnique fun r : Business => r.id == businessId)
  orThrow business (.notFound "کسب‌وکار یافت نشد")

def findOneForOwner (businessId : Id) : Task Business := assertExists businessId

def update (businessId : Id) (dto : UpdateBusinessDto) : Task Business := do
  let _ ← assertExists businessId
  prisma (BookingPlatform.update (fun r : Business => r.id == businessId) fun r => { r with
    name := dto.name.getD r.name
    category := dto.category.getD r.category
    description := dto.description.or r.description
    logoUrl := dto.logoUrl.or r.logoUrl
    legalId := dto.legalId.or r.legalId
    ibanNumber := dto.ibanNumber.or r.ibanNumber })

def updateCancellationPolicy (businessId : Id) (dto : CancellationPolicyDto) : Task Business := do
  let _ ← assertExists businessId
  prisma (BookingPlatform.update (fun r : Business => r.id == businessId) fun r => { r with
    cancellationPolicy := ⟨dto.freeCancelHours, dto.feePercent⟩ })

def addDocument (businessId : Id) (dto : AddDocumentDto) : Task BusinessDocument := do
  let _ ← assertExists businessId
  prisma (BookingPlatform.create fun id => {
    id, businessId, type := dto.type, fileUrl := dto.fileUrl })

/-- `approve`, `reject` and `suspend` differ in these values. -/
def review (status : BusinessStatus) (action : AuditAction) (businessId adminId : Id)
    (rejectReason : Option String) : Task Business := do
  let _ ← assertExists businessId
  let business ← prisma (BookingPlatform.update (fun r : Business => r.id == businessId)
    fun r => { r with status, rejectReason })
  let _ ← prisma (BookingPlatform.create fun id => ({
    id, actorId := some adminId, action, entityType := "Business", entityId := businessId
    metadata := { reason := rejectReason } } : AuditLog))
  return business

def approve (businessId adminId : Id) : Task Business :=
  review .approved .businessApproved businessId adminId none

def reject (businessId adminId : Id) (reason : String) : Task Business :=
  review .rejected .businessRejected businessId adminId (some reason)

def suspend (businessId adminId : Id) (reason : String) : Task Business :=
  review .suspended .businessSuspended businessId adminId (some reason)

end BusinessService

namespace BranchService

def create (businessId : Id) (dto : CreateBranchDto) : Task Branch :=
  prisma (BookingPlatform.create fun id => {
    id, businessId, name := dto.name, address := dto.address, latitude := dto.latitude
    longitude := dto.longitude, phone := dto.phone })

def findAll (businessId : Id) : Task (List Branch) :=
  query (findMany fun r : Branch => r.businessId == businessId)

def assertBelongsToBusiness (businessId branchId : Id) : Task Branch := do
  let branch ← query (findUnique fun r : Branch => r.id == branchId)
  orThrow (branch.filter fun b => b.businessId = businessId) (.notFound "شعبه یافت نشد")

def update (businessId branchId : Id) (dto : UpdateBranchDto) : Task Branch := do
  let _ ← assertBelongsToBusiness businessId branchId
  prisma (BookingPlatform.update (fun r : Branch => r.id == branchId) fun r => { r with
    name := dto.name.getD r.name
    address := dto.address.getD r.address
    latitude := dto.latitude.getD r.latitude
    longitude := dto.longitude.getD r.longitude
    phone := dto.phone.or r.phone })

end BranchService

namespace StaffService

/-- The check that `StaffService`, `ServiceCatalogService` and `WorkingHoursService` make. -/
def assertBelongsToBusiness (businessId staffMemberId : Id) : Task StaffMember := do
  let staff ← query (findUnique fun r : StaffMember => r.id == staffMemberId)
  orThrow (staff.filter fun m => m.businessId = businessId) (.notFound "کارمند یافت نشد")

def invite (businessId : Id) (dto : InviteStaffDto) : Task StaffMember := do
  let user ← query (findUnique fun r : User => r.phone == dto.phone)
  let user ← orThrow user
    (.badRequest "این شماره هنوز در پلتفرم ثبت‌نام نکرده؛ ابتدا باید ثبت‌نام کند")
  let existing ← query (findUnique fun r : StaffMember =>
    r.userId == user.id && r.businessId == businessId)
  ensure (existing = none) (.conflict "این کاربر از قبل عضو این کسب‌وکار است")
  (match truthyId dto.branchId with
    | some branchId => do let _ ← BranchService.assertBelongsToBusiness businessId branchId
    | none => pure ())
  prisma (BookingPlatform.create fun id => {
    id, userId := user.id, businessId, role := dto.role, specialty := dto.specialty
    branchId := dto.branchId })

def findAll (businessId : Id) : Task (List StaffMember) :=
  query (findMany fun r : StaffMember => r.businessId == businessId)

def deactivate (businessId staffMemberId : Id) : Task StaffMember := do
  let staff ← assertBelongsToBusiness businessId staffMemberId
  ensure (staff.role ≠ .owner) (.badRequest "نمی‌توان مالک کسب‌وکار را غیرفعال کرد")
  prisma (BookingPlatform.update (fun r : StaffMember => r.id == staffMemberId)
    fun r => { r with isActive := false })

end StaffService

namespace ServiceCatalogService

def create (businessId : Id) (dto : CreateServiceDto) : Task Service := do
  ensure (¬ (dto.requiresDeposit = some true ∧ dto.depositPercent.all (· = 0)))
    (.badRequest "برای فعال کردن بیعانه باید درصد آن مشخص شود")
  mark .catalogue
  prisma (BookingPlatform.create fun id => {
    id, businessId, name := dto.name, description := dto.description
    durationMinutes := dto.durationMinutes, price := dto.price
    requiresDeposit := dto.requiresDeposit.getD false, depositPercent := dto.depositPercent })

def findAll (businessId : Id) : Task (List Service) :=
  query (findMany fun r : Service => r.businessId == businessId)

def assertBelongsToBusiness (businessId serviceId : Id) : Task Service := do
  let service ← query (findUnique fun r : Service => r.id == serviceId)
  orThrow (service.filter fun s => s.businessId = businessId) (.notFound "خدمت یافت نشد")

def update (businessId serviceId : Id) (dto : UpdateServiceDto) : Task Service := do
  let _ ← assertBelongsToBusiness businessId serviceId
  mark .catalogue
  prisma (BookingPlatform.update (fun r : Service => r.id == serviceId) fun r => { r with
    name := dto.name.getD r.name
    description := dto.description.or r.description
    durationMinutes := dto.durationMinutes.getD r.durationMinutes
    price := dto.price.getD r.price
    requiresDeposit := dto.requiresDeposit.getD r.requiresDeposit
    depositPercent := dto.depositPercent.or r.depositPercent })

def assignStaff (businessId serviceId staffMemberId : Id) : Task ServiceStaff := do
  let _ ← assertBelongsToBusiness businessId serviceId
  let _ ← StaffService.assertBelongsToBusiness businessId staffMemberId
  prisma (upsert (fun r : ServiceStaff =>
    r.serviceId == serviceId && r.staffMemberId == staffMemberId)
    fun _ => { serviceId, staffMemberId })

def unassignStaff (businessId serviceId staffMemberId : Id) : Task ServiceStaff := do
  let _ ← assertBelongsToBusiness businessId serviceId
  prisma (delete fun r : ServiceStaff =>
    r.serviceId == serviceId && r.staffMemberId == staffMemberId)

end ServiceCatalogService

namespace WorkingHoursService

/-- Texts of the form `HH:mm` compare like the times they name. -/
def before (a b : HHmm) : Bool := a.hours < b.hours || (a.hours == b.hours && a.minutes < b.minutes)

/-- Exactly one of the two is given; it is the target, and belongs to the business. -/
def resolveTarget (businessId : Id) (branchId staffMemberId : Option Id) :
    Task (Option Id × Option Id) :=
  match truthyId branchId, truthyId staffMemberId with
  | some branchId, none => do
    let _ ← BranchService.assertBelongsToBusiness businessId branchId
    return (some branchId, none)
  | none, some staffMemberId => do
    let _ ← StaffService.assertBelongsToBusiness businessId staffMemberId
    return (none, some staffMemberId)
  | _, _ => throw (.badRequest "دقیقاً یکی از branchId یا staffMemberId باید مشخص شود")

/-- `branchId ? { branchId } : { staffMemberId }`. -/
def ofTarget (target : Option Id × Option Id) (branchId staffMemberId : Option Id) : Bool :=
  if target.1.isSome then branchId == target.1 else staffMemberId == target.2

def setWorkingHours (businessId : Id) (dto : SetWorkingHoursDto) : Task (List WorkingHours) := do
  let target ← resolveTarget businessId dto.branchId dto.staffMemberId
  ensure (dto.hours.all fun entry => before entry.startTime entry.endTime)
    (.badRequest "ساعت پایان باید بعد از ساعت شروع باشد")
  transaction do
    let _ ← tx (deleteMany fun r : WorkingHours => ofTarget target r.branchId r.staffMemberId)
    let _ ← tx (createMany (dto.hours.map fun h id => ({
      id, branchId := target.1, staffMemberId := target.2, dayOfWeek := h.dayOfWeek
      startTime := h.startTime, endTime := h.endTime } : WorkingHours)))
    query (findMany fun r : WorkingHours => ofTarget target r.branchId r.staffMemberId)

def addHoliday (businessId : Id) (dto : AddHolidayDto) : Task Holiday := do
  let target ← resolveTarget businessId dto.branchId dto.staffMemberId
  prisma (BookingPlatform.create fun id => {
    id, branchId := target.1, staffMemberId := target.2, date := dto.date, reason := dto.reason })

def listHolidays (businessId : Id) (branchId staffMemberId : Option Id) : Task (List Holiday) := do
  let target ← resolveTarget businessId branchId staffMemberId
  query (findMany fun r : Holiday => ofTarget target r.branchId r.staffMemberId)

end WorkingHoursService
end BookingPlatform
