import BookingPlatform.Auth
import BookingPlatform.Catalog
import BookingPlatform.Payment
import BookingPlatform.Settlement
import BookingPlatform.Users

/-! The guards and the routes. -/
namespace BookingPlatform
open Async Prog

/-- `validate` of a coupon. -/
structure ValidateCouponDto where
  code : String
  businessId : Option Id := none
  purchaseAmount : Money

/-- A `businesses/:id` route with the identifiers and the body that come after `:id`. -/
inductive BusinessRoute
  | findOneForOwner
  | update (dto : UpdateBusinessDto)
  | updateCancellationPolicy (dto : CancellationPolicyDto)
  | addDocument (dto : AddDocumentDto)
  | createBranch (dto : CreateBranchDto)
  | listBranches
  | updateBranch (branchId : Id) (dto : UpdateBranchDto)
  | createService (dto : CreateServiceDto)
  | listServices
  | updateService (serviceId : Id) (dto : UpdateServiceDto)
  | assignStaff (serviceId staffMemberId : Id)
  | unassignStaff (serviceId staffMemberId : Id)
  | inviteStaff (dto : InviteStaffDto)
  | listStaff
  | deactivateStaff (staffMemberId : Id)
  | setWorkingHours (dto : SetWorkingHoursDto)
  | addHoliday (dto : AddHolidayDto)
  | listHolidays (branchId staffMemberId : Option Id)
  | listBookings (dto : ListBusinessBookingsDto)
  | updateBookingStatus (bookingId : Id) (dto : UpdateBookingStatusDto)
  | cancelBooking (bookingId : Id) (dto : CancelBookingDto)
  | createCoupon (dto : CreateCouponDto)
  | listCoupons
  | updateCoupon (couponId : Id) (dto : UpdateCouponDto)
  | listSettlements

namespace BusinessRoute

/-- The `@BusinessRoles` of the route. -/
def requiredRoles : BusinessRoute → List StaffRole
  | findOneForOwner | listBranches | listServices | listStaff | listHolidays .. | listBookings .. =>
    [.owner, .manager, .staff]
  | updateCancellationPolicy _ | addDocument _ | listSettlements => [.owner]
  | _ => [.owner, .manager]

/-- What the controller calls. -/
def handle (businessId : Id) : BusinessRoute → Task Unit
  | findOneForOwner => do let _ ← BusinessService.findOneForOwner businessId
  | update dto => do let _ ← BusinessService.update businessId dto
  | updateCancellationPolicy dto => do
    let _ ← BusinessService.updateCancellationPolicy businessId dto
  | addDocument dto => do let _ ← BusinessService.addDocument businessId dto
  | createBranch dto => do let _ ← BranchService.create businessId dto
  | listBranches => do let _ ← BranchService.findAll businessId
  | updateBranch branchId dto => do let _ ← BranchService.update businessId branchId dto
  | createService dto => do let _ ← ServiceCatalogService.create businessId dto
  | listServices => do let _ ← ServiceCatalogService.findAll businessId
  | updateService serviceId dto => do
    let _ ← ServiceCatalogService.update businessId serviceId dto
  | assignStaff serviceId staffMemberId => do
    let _ ← ServiceCatalogService.assignStaff businessId serviceId staffMemberId
  | unassignStaff serviceId staffMemberId => do
    let _ ← ServiceCatalogService.unassignStaff businessId serviceId staffMemberId
  | inviteStaff dto => do let _ ← StaffService.invite businessId dto
  | listStaff => do let _ ← StaffService.findAll businessId
  | deactivateStaff staffMemberId => do
    let _ ← StaffService.deactivate businessId staffMemberId
  | setWorkingHours dto => do let _ ← WorkingHoursService.setWorkingHours businessId dto
  | addHoliday dto => do let _ ← WorkingHoursService.addHoliday businessId dto
  | listHolidays branchId staffMemberId => do
    let _ ← WorkingHoursService.listHolidays businessId branchId staffMemberId
  | listBookings dto => do let _ ← BookingService.listForBusiness businessId dto
  | updateBookingStatus bookingId dto => do
    let _ ← BookingService.updateStatus businessId bookingId dto
  | cancelBooking bookingId dto => do
    let _ ← BookingService.cancelByBusiness businessId bookingId dto
  | createCoupon dto => do let _ ← CouponService.createForBusiness businessId dto
  | listCoupons => do let _ ← CouponService.listForBusiness businessId
  -- `BusinessCouponController.update` does not pass the business on.
  | updateCoupon couponId dto => do let _ ← CouponService.update couponId dto
  | listSettlements => do let _ ← SettlementService.listForBusiness businessId

end BusinessRoute

namespace BusinessRoleGuard

def canActivate (requiredRoles : List StaffRole) (user : AuthenticatedUser) (businessId : Id) :
    Task Unit :=
  if requiredRoles = [] ∨ user.role = .admin then return () else do
  ensure (businessId ≠ 0) (.forbidden "شناسه‌ی کسب‌وکار در مسیر یافت نشد")
  let membership ← query (findUnique fun r : StaffMember =>
    r.userId == user.id && r.businessId == businessId)
  let _ ← orThrow (membership.filter fun m => m.isActive ∧ m.role ∈ requiredRoles)
    (.forbidden "دسترسی کافی برای این عملیات را ندارید")
  return ()

end BusinessRoleGuard

/-- Everything a client, a gateway or the scheduler can ask for. `user` is the subject of
the access token. -/
inductive Request
  | register (dto : VerifyRegisterDto)
  | hold (user : Id) (dto : HoldBookingDto)
  | createRecurring (user : Id) (dto : CreateRecurringBookingDto)
  | confirm (user bookingId : Id)
  | confirmGroup (user recurringGroupId : Id)
  | cancelByUser (user bookingId : Id) (dto : CancelBookingDto)
  | reschedule (user bookingId : Id) (dto : RescheduleBookingDto)
  | listMine (user : Id)
  | releaseExpiredHolds
  | getFreeSlots (businessId : Id) (dto : CheckAvailabilityDto)
  | initiate (user : Id) (dto : InitiatePaymentDto)
  | handleCallback (gateway : GatewayName) (gatewayRefId : Option Id)
  | refund (user paymentId : Id) (reason : String)
  | getWallet (user : Id)
  | topup (user : Id) (dto : TopupWalletDto)
  | getLoyalty (user : Id)
  | validateCoupon (user : Id) (dto : ValidateCouponDto)
  | createBusiness (user : Id) (dto : CreateBusinessDto)
  | business (user businessId : Id) (route : BusinessRoute)
  | approveBusiness (user businessId : Id)
  | rejectBusiness (user businessId : Id) (reason : String)
  | suspendBusiness (user businessId : Id) (reason : String)
  | createGlobalCoupon (user : Id) (dto : CreateCouponDto)
  | listGlobalCoupons (user : Id)
  | updateAnyCoupon (user couponId : Id) (dto : UpdateCouponDto)
  | updateProfile (user : Id) (dto : UpdateProfileDto)
  | listSessions (user : Id)
  | revokeSession (user sessionId : Id)
  | requestAccountDeletion (user : Id)
  | runSettlement (user : Id) (dto : RunSettlementDto)

/-- A route behind `JwtAuthGuard`. -/
def authenticated {α : Type} (user : Id) (f : AuthenticatedUser → Task α) : Task Unit := do
  let u ← JwtStrategy.validate user
  let _ ← f u

/-- A route with `@Roles('ADMIN')`. -/
def adminOnly {α : Type} (user : Id) (f : AuthenticatedUser → Task α) : Task Unit :=
  authenticated user fun u => do
    ensure (u.role = .admin) (.forbidden "دسترسی کافی برای این عملیات را ندارید")
    f u

def Request.serve : Request → Task Unit
  | register dto => do let _ ← AuthService.verifyRegisterAndCreateUser dto
  | hold user dto => authenticated user fun u => BookingService.hold u.id dto
  | createRecurring user dto => authenticated user fun u => BookingService.createRecurring u.id dto
  | confirm user bookingId => authenticated user fun u => BookingService.confirm bookingId u.id
  | confirmGroup user recurringGroupId => authenticated user fun u =>
    BookingService.confirmGroup recurringGroupId u.id
  | cancelByUser user bookingId dto => authenticated user fun u =>
    BookingService.cancelByUser bookingId u.id dto
  | reschedule user bookingId dto => authenticated user fun u =>
    BookingService.reschedule bookingId u.id dto
  | listMine user => authenticated user fun u => BookingService.listMine u.id
  | releaseExpiredHolds => do let _ ← BookingService.releaseExpiredHolds
  | getFreeSlots businessId dto => do let _ ← AvailabilityService.getFreeSlots businessId dto
  | initiate user dto => authenticated user fun u => PaymentService.initiate u.id dto
  | handleCallback gateway gatewayRefId => do
    let _ ← PaymentService.handleCallback gateway gatewayRefId
  | refund user paymentId reason => adminOnly user fun u =>
    PaymentService.refund paymentId u.id reason
  | getWallet user => authenticated user fun u => WalletService.getMine u.id
  | topup user dto => authenticated user fun u => WalletService.topup u.id dto
  | getLoyalty user => authenticated user fun u => LoyaltyService.getMine u.id
  | validateCoupon user dto => authenticated user fun u =>
    CouponService.validate dto.code u.id dto.businessId dto.purchaseAmount
  | createBusiness user dto => authenticated user fun u => BusinessService.create u.id dto
  | business user businessId route => authenticated user fun u => do
    BusinessRoleGuard.canActivate route.requiredRoles u businessId
    route.handle businessId
  | approveBusiness user businessId => adminOnly user fun u =>
    BusinessService.approve businessId u.id
  | rejectBusiness user businessId reason => adminOnly user fun u =>
    BusinessService.reject businessId u.id reason
  | suspendBusiness user businessId reason => adminOnly user fun u =>
    BusinessService.suspend businessId u.id reason
  | createGlobalCoupon user dto => adminOnly user fun _ => CouponService.createGlobal dto
  | listGlobalCoupons user => adminOnly user fun _ => CouponService.listGlobal
  | updateAnyCoupon user couponId dto => adminOnly user fun _ => CouponService.update couponId dto
  | updateProfile user dto => authenticated user fun u => UsersService.updateProfile u.id dto
  | listSessions user => authenticated user fun u => UsersService.listSessions u.id
  | revokeSession user sessionId => authenticated user fun u =>
    UsersService.revokeSession u.id sessionId
  | requestAccountDeletion user => authenticated user fun u =>
    UsersService.requestAccountDeletion u.id
  | runSettlement user dto => adminOnly user fun _ => SettlementService.runBatch dto

end BookingPlatform
