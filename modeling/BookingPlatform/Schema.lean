import BookingPlatform.Data.Double

/-! The data model. -/
namespace BookingPlatform

/-- A row identifier or any other identifier in a request. `0` is the empty string, which
is never the identifier of a row. -/
abbrev Id := ℕ

/-- Milliseconds since the epoch. -/
abbrev Time := ℤ

/-- Hundredths of a toman, as in a `Decimal(12, 2)` column. -/
abbrev Money := ℤ

/-- A `Decimal(5, 2)` percentage, in hundredths. -/
abbrev Percent := ℤ

/-- `Number(...)` of a column with two decimals. -/
def toNumber (hundredths : ℤ) : ℚ := Data.Double.of (hundredths / 100)

theorem off_toNumber {z : ℤ} {scale : ℚ} (h : |(z : ℚ)| ≤ scale) : Data.Double.Off 2 (scale / 100) (toNumber z) (z / 100) := by
  refine (Data.Double.Off.exact ?_).rounded (Nat.zero_le _)
  rw [abs_div, abs_of_pos (by norm_num : (0 : ℚ) < 100)]
  exact div_le_div_of_nonneg_right h (by norm_num)

/-- A percentage of a number. -/
theorem off_percent {n : ℕ} {scale x y : ℚ} (h : Data.Double.Off n scale x y) (hn : n ≤ 6) (percent : ℤ) :
    Data.Double.Off (n + 7) (scale * (|(percent : ℚ)| / 100) / 100)
      (Data.Double.div (Data.Double.mul x (toNumber percent)) 100) (y * (percent / 100) / 100) := by
  have hmul := (h.mul (off_toNumber (z := percent) le_rfl) (by omega)).rounded (by omega)
  have hdiv := (hmul.scale (c := 1 / 100) (by norm_num)).rounded (by omega)
  simp only [mul_one_div] at hdiv
  exact hdiv

/-- What a column with two decimals keeps of a number. -/
def ofNumber (x : ℚ) : Money := round (x * 100)

def minute : Time := 60000
def hour : Time := 3600000
def day : Time := 86400000

/-- The `sha256Hash` or bcrypt digest of a text. -/
structure Digest where
  of : String
  deriving DecidableEq, Repr

/-! ### Identity -/

inductive GlobalRole
  | user | admin
  deriving DecidableEq, Repr

inductive AccountStatus
  | active | suspended | deleted
  deriving DecidableEq, Repr

structure User where
  id : Id
  phone : String
  email : Option String := none
  passwordHash : Digest
  fullName : String
  avatarUrl : Option String := none
  globalRole : GlobalRole := .user
  status : AccountStatus := .active
  phoneVerified : Bool := false
  emailVerified : Bool := false
  deletedAt : Option Time := none
  deriving DecidableEq, Repr

inductive OtpPurpose
  | register | login | resetPassword
  deriving DecidableEq, Repr

structure OtpCode where
  id : Id
  userId : Option Id
  phone : String
  codeHash : Digest
  purpose : OtpPurpose
  attempts : ℕ := 0
  expiresAt : Time
  consumedAt : Option Time := none
  createdAt : Time
  deriving DecidableEq, Repr

structure RefreshToken where
  id : Id
  userId : Id
  tokenHash : Digest
  expiresAt : Time
  revokedAt : Option Time := none
  deriving DecidableEq, Repr

/-! ### Businesses -/

inductive BusinessStatus
  | pendingReview | approved | rejected | suspended
  deriving DecidableEq, Repr

structure CancellationPolicy where
  freeCancelHours : ℕ
  feePercent : ℕ
  deriving DecidableEq, Repr

structure Business where
  id : Id
  ownerId : Id
  name : String
  category : String
  description : Option String := none
  logoUrl : Option String := none
  status : BusinessStatus := .pendingReview
  rejectReason : Option String := none
  legalId : Option String := none
  ibanNumber : Option String := none
  commissionPercent : Percent := 1000
  cancellationPolicy : CancellationPolicy
  deriving DecidableEq, Repr

inductive DocumentType
  | nationalId | businessLicense | other
  deriving DecidableEq, Repr

structure BusinessDocument where
  id : Id
  businessId : Id
  type : DocumentType
  fileUrl : String
  deriving DecidableEq, Repr

structure Branch where
  id : Id
  businessId : Id
  name : String
  address : String
  latitude : ℤ
  longitude : ℤ
  phone : Option String := none
  deriving DecidableEq, Repr

inductive StaffRole
  | owner | manager | staff
  deriving DecidableEq, Repr

structure StaffMember where
  id : Id
  userId : Id
  businessId : Id
  branchId : Option Id := none
  role : StaffRole := .staff
  specialty : Option String := none
  isActive : Bool := true
  deriving DecidableEq, Repr

/-- An `HH:mm` text. -/
structure HHmm where
  hours : ℕ
  minutes : ℕ
  deriving DecidableEq, Repr

structure WorkingHours where
  id : Id
  branchId : Option Id
  staffMemberId : Option Id
  dayOfWeek : ℤ
  startTime : HHmm
  endTime : HHmm
  deriving DecidableEq, Repr

structure Holiday where
  id : Id
  branchId : Option Id
  staffMemberId : Option Id
  date : Time
  reason : Option String := none
  deriving DecidableEq, Repr

/-- The minutes a service takes: its DTO has `@Min(5)` and `@Max(600)`. -/
structure Duration where
  minutes : ℤ
  least : 5 ≤ minutes := by decide
  most : minutes ≤ 600 := by decide
  deriving DecidableEq

def Duration.halfHour : Duration := { minutes := 30 }

def Duration.ms (d : Duration) : Time := d.minutes * minute

theorem Duration.ms_pos (d : Duration) : 0 < d.ms := by
  have := d.least
  exact Int.mul_pos (by omega) (by decide)

structure Service where
  id : Id
  businessId : Id
  name : String
  description : Option String := none
  durationMinutes : Duration
  price : Money
  requiresDeposit : Bool := false
  depositPercent : Option Percent := none
  isActive : Bool := true
  deriving DecidableEq

structure ServiceStaff where
  serviceId : Id
  staffMemberId : Id
  deriving DecidableEq, Repr

/-! ### Bookings -/

inductive BookingStatus
  | hold | pending | confirmed | completed | cancelled | noShow
  deriving DecidableEq, Repr

structure Booking where
  id : Id
  userId : Id
  businessId : Id
  branchId : Id
  staffMemberId : Option Id
  serviceId : Id
  startTime : Time
  endTime : Time
  status : BookingStatus := .hold
  priceSnapshot : Money
  depositRequired : Money := 0
  cancellationPolicySnapshot : CancellationPolicy
  holdExpiresAt : Option Time := none
  cancelledAt : Option Time := none
  cancelReason : Option String := none
  recurringGroupId : Option Id := none
  couponCode : Option String := none
  discountAmount : Money := 0
  deriving DecidableEq, Repr

/-! ### Payments -/

inductive PaymentType
  | deposit | fullPayment | refund | walletTopup
  deriving DecidableEq, Repr

inductive PaymentStatus
  | initiated | success | failed | refunded
  deriving DecidableEq, Repr

/-- The name of a gateway; `GATEWAY_NAME` is `mock`. -/
inductive GatewayName
  | mock | wallet | other (name : String)
  deriving DecidableEq, Repr

structure Payment where
  id : Id
  bookingId : Option Id := none
  userId : Id
  type : PaymentType
  status : PaymentStatus := .initiated
  amount : Money
  gateway : GatewayName
  gatewayRefId : Option Id := none
  callbackVerifiedAt : Option Time := none
  failureReason : Option String := none
  createdAt : Time := 0
  deriving DecidableEq, Repr

structure Wallet where
  id : Id
  userId : Id
  balance : Money := 0
  deriving DecidableEq, Repr

inductive WalletTxType
  | topup | payment | refund | adminAdjustment
  deriving DecidableEq, Repr

structure WalletTransaction where
  id : Id
  walletId : Id
  type : WalletTxType
  amount : Money
  balanceAfter : Money
  referenceId : Option Id := none
  deriving DecidableEq, Repr

/-- A session of `MockPaymentGateway`; `id` is its `gatewayRefId`. -/
structure Session where
  id : Id
  amount : Money
  used : Bool := false
  deriving DecidableEq, Repr

inductive SettlementStatus
  | pending | paid | failed
  deriving DecidableEq, Repr

structure Settlement where
  id : Id
  businessId : Id
  periodStart : Time
  periodEnd : Time
  grossAmount : Money
  commissionAmount : Money
  netAmount : Money
  status : SettlementStatus := .pending
  deriving DecidableEq, Repr

/-! ### Discounts, loyalty, referrals -/

inductive CouponType
  | percentage | fixedAmount
  deriving DecidableEq, Repr

structure Coupon where
  id : Id
  businessId : Option Id
  code : String
  type : CouponType
  value : Money
  minPurchase : Option Money := none
  usageLimit : Option ℕ := none
  usageCount : ℕ := 0
  validFrom : Time
  validTo : Time
  isActive : Bool := true
  deriving DecidableEq, Repr

structure CouponUsage where
  id : Id
  couponId : Id
  userId : Id
  bookingId : Option Id := none
  discountAmount : Money
  deriving DecidableEq, Repr

inductive Tier
  | bronze | silver | gold
  deriving DecidableEq, Repr

structure LoyaltyAccount where
  id : Id
  userId : Id
  points : ℤ := 0
  tier : Tier := .bronze
  deriving DecidableEq, Repr

structure LoyaltyTransaction where
  id : Id
  accountId : Id
  points : ℤ
  reason : String
  referenceId : Option Id := none
  deriving DecidableEq, Repr

inductive ReferralStatus
  | pending | rewarded
  deriving DecidableEq, Repr

structure Referral where
  id : Id
  referrerId : Id
  refereeId : Id
  status : ReferralStatus := .pending
  rewardedAt : Option Time := none
  deriving DecidableEq, Repr

/-! ### Audit log and locks -/

inductive AuditAction
  | paymentRefunded | businessApproved | businessRejected | businessSuspended
  deriving DecidableEq, Repr

structure AuditMetadata where
  amount : Option Money := none
  reason : Option String := none
  deriving DecidableEq, Repr

structure AuditLog where
  id : Id
  actorId : Option Id
  action : AuditAction
  entityType : String
  entityId : Id
  metadata : AuditMetadata := {}
  deriving DecidableEq, Repr

/-- `booking-lock:<branchId>:<staffMemberId or branch>:<startTime>`. -/
structure LockKey where
  branchId : Id
  staffMemberId : Option Id
  startTime : Time
  deriving DecidableEq, Repr

structure Lock where
  key : LockKey
  token : Id
  expiresAt : Time
  deriving DecidableEq, Repr

end BookingPlatform
