import BookingPlatform.Prisma

/-! `SettlementService`. -/
namespace BookingPlatform
open Async Data Prog

/-- `RunSettlementDto`. -/
structure RunSettlementDto where
  businessId : Option Id := none
  periodStart : Time
  periodEnd : Time

namespace SettlementService

/-- The payments that `runForBusiness` adds up. -/
def settles (s : Store) (businessId : Id) (periodStart periodEnd : Time) (p : Payment) : Bool :=
  p.status == .success && [PaymentType.deposit, .fullPayment].contains p.type &&
    periodStart ≤ p.createdAt && p.createdAt ≤ periodEnd &&
    p.bookingId.any fun id => s.booking.rows.any fun b => b.id == id && b.businessId == businessId

/-- `amounts.reduce((sum, n) => sum + n, 0)`. -/
def total (amounts : List Money) : ℚ := (amounts.map toNumber).foldl Double.add 0

/-- `Math.round((grossAmount * commissionPercent) / 100)`, in toman. -/
def commissionOf (grossAmount : ℚ) (commissionPercent : Percent) : ℤ :=
  round (Double.div (Double.mul grossAmount (toNumber commissionPercent)) 100)

def runForBusiness (businessId : Id) (periodStart periodEnd : Time) : Task Settlement := do
  let business ← query (findUnique fun r : Business => r.id == businessId)
  let business ← orThrow business (.notFound "کسب‌وکار یافت نشد")
  let payments ← query fun g s => g.arrange (s.payment.rows.filter (settles s businessId periodStart periodEnd))
  let grossAmount := total (payments.map Payment.amount)
  let commissionAmount := commissionOf grossAmount business.commissionPercent
  let netAmount := Double.sub grossAmount commissionAmount
  prisma (create fun id => {
    id, businessId, periodStart, periodEnd
    grossAmount := ofNumber grossAmount, commissionAmount := ofNumber commissionAmount, netAmount := ofNumber netAmount })

/-- The loop of `runBatch`. -/
def runForEach (periodStart periodEnd : Time) : List Id → Task (List Settlement)
  | [] => pure []
  | businessId :: rest => do
    let settlement ← runForBusiness businessId periodStart periodEnd
    let settlements ← runForEach periodStart periodEnd rest
    return settlement :: settlements

def runBatch (dto : RunSettlementDto) : Task (List Settlement) :=
  match truthyId dto.businessId with
  | some businessId => do
    let settlement ← runForBusiness businessId dto.periodStart dto.periodEnd
    return [settlement]
  | none => do
    let businesses ← query (findMany fun r : Business => r.status == .approved)
    runForEach dto.periodStart dto.periodEnd (businesses.map Business.id)

def listForBusiness (businessId : Id) : Task (List Settlement) :=
  query (findMany fun r : Settlement => r.businessId == businessId)

end SettlementService
end BookingPlatform
