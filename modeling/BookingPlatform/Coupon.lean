import BookingPlatform.Prisma

/-! `CouponService`. -/
namespace BookingPlatform
open Async Data Prog

/-- `toLocaleString('fa-IR')` of an amount: Persian digits, grouped by thousands. -/
def persianDigit (n : ℕ) : Char := Char.ofNat (0x06F0 + n % 10)

def persianDigits (n : ℕ) : List Char := (Nat.toDigits 10 n).map fun c => persianDigit (c.toNat - 48)

/-- Groups of three from the right, on reversed digits. -/
def groupDigits : List Char → List Char
  | a :: b :: c :: d :: rest => a :: b :: c :: '٬' :: groupDigits (d :: rest)
  | rest => rest

def toLocaleString (m : Money) : String :=
  let whole := (groupDigits (persianDigits (m.natAbs / 100)).reverse).reverse
  let cents := m.natAbs % 100
  let fraction :=
    if cents = 0 then []
    else if cents % 10 = 0 then ['٫', persianDigit (cents / 10)]
    else ['٫', persianDigit (cents / 10), persianDigit cents]
  String.ofList ((if m < 0 then ['\u200e', '−'] else []) ++ whole ++ fraction)

def truthyText (o : Option String) : Option String := o.filter fun t => t ≠ ""

/-- `CreateCouponDto`. -/
structure CreateCouponDto where
  code : String
  type : CouponType
  value : Money
  minPurchase : Option Money := none
  usageLimit : Option ℕ := none
  validFrom : Time
  validTo : Time

/-- `UpdateCouponDto`. -/
structure UpdateCouponDto where
  type : Option CouponType := none
  value : Option Money := none
  minPurchase : Option Money := none
  usageLimit : Option ℕ := none
  validFrom : Option Time := none
  validTo : Option Time := none
  isActive : Option Bool := none

structure CouponCheckResult where
  couponId : Id
  discountAmount : Money

namespace CouponService

def create (businessId : Option Id) (dto : CreateCouponDto) : Task Coupon := do
  let existing ← query (findUnique fun r : Coupon => r.code == dto.code)
  ensure (existing = none) (.conflict "این کد کوپن قبلاً استفاده شده است")
  ensure (dto.validFrom < dto.validTo) (.badRequest "تاریخ شروع باید قبل از تاریخ پایان باشد")
  prisma (BookingPlatform.create fun id => {
    id, businessId, code := dto.code, type := dto.type, value := dto.value,
    minPurchase := dto.minPurchase, usageLimit := dto.usageLimit,
    validFrom := dto.validFrom, validTo := dto.validTo })

def createForBusiness (businessId : Id) (dto : CreateCouponDto) : Task Coupon :=
  create (some businessId) dto

def createGlobal (dto : CreateCouponDto) : Task Coupon := create none dto

def listForBusiness (businessId : Id) : Task (List Coupon) :=
  query (findMany fun r : Coupon => r.businessId == some businessId)

def listGlobal : Task (List Coupon) := query (findMany fun r : Coupon => r.businessId == none)

/-- The columns that `update` writes; an absent field leaves its column. -/
def applied (dto : UpdateCouponDto) (r : Coupon) : Coupon := { r with
  type := dto.type.getD r.type
  value := dto.value.getD r.value
  minPurchase := dto.minPurchase.or r.minPurchase
  usageLimit := dto.usageLimit.or r.usageLimit
  validFrom := dto.validFrom.getD r.validFrom
  validTo := dto.validTo.getD r.validTo
  isActive := dto.isActive.getD r.isActive }

def update (couponId : Id) (dto : UpdateCouponDto) : Task Coupon := do
  let coupon ← query (findUnique fun r : Coupon => r.id == couponId)
  let _ ← orThrow coupon (.notFound "کوپن یافت نشد")
  prisma (BookingPlatform.update (fun r : Coupon => r.id == couponId) (applied dto))

/-- `Math.round(rawDiscount)`, in hundredths. -/
def rawDiscount (coupon : Coupon) (purchaseAmount : Money) : Money :=
  match coupon.type with
  | .percentage => round (Double.div (Double.mul (toNumber purchaseAmount) (toNumber coupon.value)) 100) * 100
  | .fixedAmount => round (toNumber coupon.value) * 100

def checkAndCompute (code : String) (userId : Id) (businessId : Option Id)
    (purchaseAmount : Money) : Task CouponCheckResult := do
  let coupon ← query (findUnique fun r : Coupon => r.code == code)
  let coupon ← orThrow (coupon.filter Coupon.isActive) (.badRequest "کد تخفیف نامعتبر است")
  mark (.counted coupon.id coupon.usageCount)
  let now ← clock
  ensure (coupon.validFrom ≤ now ∧ now ≤ coupon.validTo)
    (.badRequest "این کد تخفیف منقضی شده یا هنوز فعال نشده است")
  ensure (truthyId coupon.businessId = none ∨ coupon.businessId = businessId)
    (.badRequest "این کد تخفیف برای این کسب‌وکار معتبر نیست")
  ensure (coupon.minPurchase.all fun m => m ≤ purchaseAmount)
    (.badRequest ("حداقل مبلغ خرید برای این کد " ++
      toLocaleString (coupon.minPurchase.getD 0) ++ " تومان است"))
  ensure (coupon.usageLimit.all fun limit => limit = 0 ∨ coupon.usageCount < limit)
    (.badRequest "ظرفیت استفاده از این کد تمام شده است")
  let alreadyUsed ← query (findUnique fun r : CouponUsage =>
    r.couponId == coupon.id && r.userId == userId)
  ensure (alreadyUsed = none) (.badRequest "شما قبلاً از این کد استفاده کرده‌اید")
  return { couponId := coupon.id
           discountAmount := min (rawDiscount coupon purchaseAmount) purchaseAmount }

/-- The dry run: nothing is redeemed. -/
def validate (code : String) (userId : Id) (businessId : Option Id) (purchaseAmount : Money) :
    Task CouponCheckResult :=
  checkAndCompute code userId businessId purchaseAmount

def checkAndRedeem (code : String) (userId : Id) (businessId : Option Id)
    (purchaseAmount : Money) (bookingId : Option Id) : Task CouponCheckResult := do
  let result ← checkAndCompute code userId businessId purchaseAmount
  let _ ← tx (BookingPlatform.create fun id => ({
    id, couponId := result.couponId, userId, bookingId,
    discountAmount := result.discountAmount } : CouponUsage))
  let _ ← tx (BookingPlatform.update (fun r : Coupon => r.id == result.couponId)
    fun r => { r with usageCount := r.usageCount + 1 })
  return result

end CouponService
end BookingPlatform
