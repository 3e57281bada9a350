import BookingPlatform.Async.Prog
import BookingPlatform.Data.Table
import BookingPlatform.Schema
import Mathlib.Data.List.FinRange

/-! The store that all requests share: the database, the gateway's sessions, the locks. -/
namespace BookingPlatform
open Data

instance : Indexed User :=
  ((Indexed.ofKey User.id).or (.ofKey User.phone)).orNullable User.email
instance : Indexed OtpCode := .ofKey OtpCode.id
instance : Indexed RefreshToken := (Indexed.ofKey RefreshToken.id).or (.ofKey RefreshToken.tokenHash)
instance : Indexed Business := .ofKey Business.id
instance : Indexed BusinessDocument := .ofKey BusinessDocument.id
instance : Indexed Branch := .ofKey Branch.id
instance : Indexed StaffMember :=
  (Indexed.ofKey StaffMember.id).or (.ofKey fun r => (r.userId, r.businessId))
instance : Indexed WorkingHours := .ofKey WorkingHours.id
instance : Indexed Holiday := .ofKey Holiday.id
instance : Indexed Service := .ofKey Service.id
instance : Indexed ServiceStaff := .ofKey fun r => (r.serviceId, r.staffMemberId)
instance : Indexed Booking := .ofKey Booking.id
instance : Indexed Payment := .ofKey Payment.id
instance : Indexed Wallet := (Indexed.ofKey Wallet.id).or (.ofKey Wallet.userId)
instance : Indexed WalletTransaction := .ofKey WalletTransaction.id
instance : Indexed Settlement := .ofKey Settlement.id
instance : Indexed Session := .ofKey Session.id
instance : Indexed Coupon := (Indexed.ofKey Coupon.id).or (.ofKey Coupon.code)
instance : Indexed CouponUsage :=
  (Indexed.ofKey CouponUsage.id).or (.ofKey fun r => (r.couponId, r.userId))
instance : Indexed LoyaltyAccount :=
  (Indexed.ofKey LoyaltyAccount.id).or (.ofKey LoyaltyAccount.userId)
instance : Indexed LoyaltyTransaction := .ofKey LoyaltyTransaction.id
instance : Indexed Referral := (Indexed.ofKey Referral.id).or (.ofKey Referral.refereeId)
instance : Indexed AuditLog := .ofKey AuditLog.id
instance : Indexed Lock := .ofKey Lock.key

structure Store where
  user : Table User := .empty
  otpCode : Table OtpCode := .empty
  refreshToken : Table RefreshToken := .empty
  business : Table Business := .empty
  businessDocument : Table BusinessDocument := .empty
  branch : Table Branch := .empty
  staffMember : Table StaffMember := .empty
  workingHours : Table WorkingHours := .empty
  holiday : Table Holiday := .empty
  service : Table Service := .empty
  serviceStaff : Table ServiceStaff := .empty
  booking : Table Booking := .empty
  payment : Table Payment := .empty
  wallet : Table Wallet := .empty
  walletTransaction : Table WalletTransaction := .empty
  settlement : Table Settlement := .empty
  session : Table Session := .empty
  coupon : Table Coupon := .empty
  couponUsage : Table CouponUsage := .empty
  loyaltyAccount : Table LoyaltyAccount := .empty
  loyaltyTransaction : Table LoyaltyTransaction := .empty
  referral : Table Referral := .empty
  auditLog : Table AuditLog := .empty
  lock : Table Lock := .empty

/-- A table of the store, and the foreign keys of its rows. -/
class Model (R : Type) extends Indexed R where
  get : Store → Table R
  set : Store → Table R → Store
  refs : Store → R → Bool := fun _ _ => true
  get_set : ∀ s t, get (set s t) = t := by intros; rfl

section models

/-- A foreign key, or a nullable one that is null. -/
def Store.has {R : Type} [Indexed R] (t : Table R) (id : R → Id) (key : Id) : Bool :=
  t.rows.any fun r => id r == key

instance : Model User := { get := Store.user, set := fun s t => { s with user := t } }
instance : Model OtpCode :=
  { get := Store.otpCode, set := fun s t => { s with otpCode := t },
    refs := fun s r => r.userId.all (Store.has s.user User.id) }
instance : Model RefreshToken :=
  { get := Store.refreshToken, set := fun s t => { s with refreshToken := t },
    refs := fun s r => Store.has s.user User.id r.userId }
instance : Model Business :=
  { get := Store.business, set := fun s t => { s with business := t },
    refs := fun s r => Store.has s.user User.id r.ownerId }
instance : Model BusinessDocument :=
  { get := Store.businessDocument, set := fun s t => { s with businessDocument := t },
    refs := fun s r => Store.has s.business Business.id r.businessId }
instance : Model Branch :=
  { get := Store.branch, set := fun s t => { s with branch := t },
    refs := fun s r => Store.has s.business Business.id r.businessId }
instance : Model StaffMember :=
  { get := Store.staffMember, set := fun s t => { s with staffMember := t },
    refs := fun s r => Store.has s.user User.id r.userId &&
      Store.has s.business Business.id r.businessId &&
      r.branchId.all (Store.has s.branch Branch.id) }
instance : Model WorkingHours :=
  { get := Store.workingHours, set := fun s t => { s with workingHours := t },
    refs := fun s r => r.branchId.all (Store.has s.branch Branch.id) &&
      r.staffMemberId.all (Store.has s.staffMember StaffMember.id) }
instance : Model Holiday :=
  { get := Store.holiday, set := fun s t => { s with holiday := t },
    refs := fun s r => r.branchId.all (Store.has s.branch Branch.id) &&
      r.staffMemberId.all (Store.has s.staffMember StaffMember.id) }
instance : Model Service :=
  { get := Store.service, set := fun s t => { s with service := t },
    refs := fun s r => Store.has s.business Business.id r.businessId }
instance : Model ServiceStaff :=
  { get := Store.serviceStaff, set := fun s t => { s with serviceStaff := t },
    refs := fun s r => Store.has s.service Service.id r.serviceId &&
      Store.has s.staffMember StaffMember.id r.staffMemberId }
instance : Model Booking :=
  { get := Store.booking, set := fun s t => { s with booking := t },
    refs := fun s r => Store.has s.user User.id r.userId &&
      Store.has s.business Business.id r.businessId && Store.has s.branch Branch.id r.branchId &&
      r.staffMemberId.all (Store.has s.staffMember StaffMember.id) &&
      Store.has s.service Service.id r.serviceId }
instance : Model Payment :=
  { get := Store.payment, set := fun s t => { s with payment := t },
    refs := fun s r => r.bookingId.all (Store.has s.booking Booking.id) }
instance : Model Wallet :=
  { get := Store.wallet, set := fun s t => { s with wallet := t },
    refs := fun s r => Store.has s.user User.id r.userId }
instance : Model WalletTransaction :=
  { get := Store.walletTransaction, set := fun s t => { s with walletTransaction := t },
    refs := fun s r => Store.has s.wallet Wallet.id r.walletId }
instance : Model Settlement :=
  { get := Store.settlement, set := fun s t => { s with settlement := t },
    refs := fun s r => Store.has s.business Business.id r.businessId }
instance : Model Session := { get := Store.session, set := fun s t => { s with session := t } }
instance : Model Coupon :=
  { get := Store.coupon, set := fun s t => { s with coupon := t },
    refs := fun s r => r.businessId.all (Store.has s.business Business.id) }
instance : Model CouponUsage :=
  { get := Store.couponUsage, set := fun s t => { s with couponUsage := t },
    refs := fun s r => Store.has s.coupon Coupon.id r.couponId &&
      Store.has s.user User.id r.userId }
instance : Model LoyaltyAccount :=
  { get := Store.loyaltyAccount, set := fun s t => { s with loyaltyAccount := t },
    refs := fun s r => Store.has s.user User.id r.userId }
instance : Model LoyaltyTransaction :=
  { get := Store.loyaltyTransaction, set := fun s t => { s with loyaltyTransaction := t },
    refs := fun s r => Store.has s.loyaltyAccount LoyaltyAccount.id r.accountId }
instance : Model Referral :=
  { get := Store.referral, set := fun s t => { s with referral := t },
    refs := fun s r => Store.has s.user User.id r.referrerId &&
      Store.has s.user User.id r.refereeId }
instance : Model AuditLog :=
  { get := Store.auditLog, set := fun s t => { s with auditLog := t },
    refs := fun s r => r.actorId.all (Store.has s.user User.id) }

end models

/-- What the world hands to a call: the clock, fresh uuids, which of several matching rows an
unordered query returns and in what order, whether the call fails, and a random number. -/
structure Env where
  now : Time
  uuid : ℕ → ℕ
  pick : ℕ := 0
  order : (n : ℕ) → Equiv.Perm (Fin n) := fun n => .refl (Fin n)
  down : Bool := false
  random : ℕ := 0

/-- What the world hands to the calls of one request: its fresh identifiers come after `n`. -/
def Env.after (n : ℕ) : Env := { now := 0, uuid := fun k => n + k }

/-- The rows of a query without `orderBy`, in whatever order they come. -/
def Env.arrange {R : Type} (g : Env) (l : List R) : List R := List.ofFn (l.get ∘ g.order l.length)

theorem Env.arrange_perm {R : Type} (g : Env) (l : List R) : (g.arrange l).Perm l := by
  have hperm := (g.order l.length).ofFn_comp_perm l.get
  rwa [List.ofFn_get] at hperm

theorem Env.mem_arrange {R : Type} {g : Env} {l : List R} {r : R} : r ∈ g.arrange l ↔ r ∈ l := (g.arrange_perm l).mem_iff

/-- A fresh identifier is never the empty string. -/
def Env.newId (g : Env) (k : ℕ) : Id := g.uuid k + 1

/-- The exceptions of the source, with their messages, and those of Prisma. -/
inductive Err
  | notFound (message : String)
  | badRequest (message : String)
  | conflict (message : String)
  | forbidden (message : String)
  | unauthorized (message : String)
  | tooManyRequests (message : String)
  | lockBusy (key : LockKey)
  | unavailable
  | uniqueViolation
  | foreignKey
  | recordNotFound
  deriving DecidableEq, Repr

/-- Local constants of the handlers that check credentials. -/
inductive AuthNote
  /-- `refreshTokens` found this token unrevoked. -/
  | presented (tokenId : Id)
  /-- `refreshTokens` has revoked this token and will issue its successor. -/
  | rotated (tokenId : Id)
  /-- The password of a login matched this hash. -/
  | matched (userId : Id) (passwordHash : Digest)
  /-- `resetPassword` has written the password and will end the sessions. -/
  | ending (userId : Id)
  /-- `verifyOtp` found this code. -/
  | verifying (otpCodeId : Id)
  /-- `verifyOtp` compared a guess with this code, and it was wrong. -/
  | guessed (otpCodeId : Id)
  deriving DecidableEq

/-- Local constants of the handlers that the proofs speak about. No step depends on them. -/
inductive Note
  /-- The request is made by this user. -/
  | acts (userId : Id)
  /-- `assertSlotFree` passed. -/
  | slotFree (branchId : Id) (staffMemberId : Option Id) (startTime endTime : Time)
      (excludeBookingId : Option Id)
  /-- The booking was read in this lane. -/
  | lane (bookingId branchId : Id) (staffMemberId : Option Id)
  /-- `confirm` read the booking as HOLD and goes on to write what its service asks for. -/
  | confirming (bookingId serviceId : Id)
  /-- The booking's status allows the status that will be written. -/
  | aims (bookingId : Id) (status : BookingStatus)
  /-- A payment read the booking as PENDING and will confirm it. -/
  | paying (bookingId : Id)
  /-- `initiate` read the booking as PENDING with this deposit. -/
  | due (bookingId userId : Id) (amount : Money)
  /-- The wallet was read (or created) with this balance. -/
  | balance (userId walletId : Id) (amount : Money)
  /-- No wallet of this user was found. -/
  | walletless (userId : Id)
  /-- The booking was not found in status PENDING. -/
  | unpayable (bookingId : Id)
  /-- The payment was created by this request. -/
  | opening (payment : Payment)
  /-- The gateway opened a session for that payment. -/
  | opened (paymentId gatewayRefId : Id)
  /-- `handleCallback` looked the payment up as INITIATED. -/
  | handling (payment : Payment)
  /-- The gateway verified the reference for that payment. -/
  | finalising (paymentId gatewayRefId : Id)
  /-- A wallet is asked for this user. -/
  | enrolling (userId : Id)
  /-- Holds that have expired at this time are released. -/
  | releasing (now : Time)
  /-- The request edits services. -/
  | catalogue
  /-- The request creates a user. -/
  | registering
  /-- `refund` looked the payment up as SUCCESS. -/
  | refunding (payment : Payment)
  /-- The request changes the profile or the status of this user. -/
  | profile (userId : Id)
  /-- `withLock` took the lock. -/
  | locked (key : LockKey) (token : Id)
  /-- The coupon was read with this many uses. -/
  | counted (couponId : Id) (usageCount : ℕ)
  /-- The loyalty account was read (or created) with these points. -/
  | points (userId accountId : Id) (points : ℤ)
  /-- The referral was read as PENDING. -/
  | referred (referralId : Id)
  | auth (x : AuthNote)
  deriving DecidableEq

/-- An asynchronous function of the source. -/
abbrev Task := Async.Prog Env Store Err Note

end BookingPlatform
