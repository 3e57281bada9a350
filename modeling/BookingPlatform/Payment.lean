import BookingPlatform.Booking

/-! `PaymentService` and `WalletService`. -/
namespace BookingPlatform
open Async Prog

inductive PaymentMethod
  | gateway | wallet
  deriving DecidableEq, Repr

structure InitiatePaymentDto where
  bookingId : Id
  method : PaymentMethod

/-- `TopupWalletDto`: `@Min(10000)` toman, a whole number of them. -/
structure TopupWalletDto where
  toman : ℤ
  least : 10000 ≤ toman := by decide

/-- The least top-up. -/
def TopupWalletDto.smallest : TopupWalletDto := { toman := 10000 }

def TopupWalletDto.amount (dto : TopupWalletDto) : Money := dto.toman * 100

structure InitiateResult where
  paidFromWallet : Bool
  payment : Option Payment := none
  gatewayRefId : Option Id := none

structure CallbackResult where
  alreadyProcessed : Bool
  status : PaymentStatus

namespace PaymentService

def payFromWallet (userId bookingId : Id) (amount : Money) : Task InitiateResult :=
  transaction do
    let wallet ← query (findUnique fun r : Wallet => r.userId == userId)
    let wallet ← orThrow (wallet.filter fun w => amount ≤ w.balance)
      (.badRequest "موجودی کیف پول کافی نیست")
    mark (.balance userId wallet.id wallet.balance)
    let newBalance := wallet.balance - amount
    let _ ← tx (update (fun r : Wallet => r.userId == userId)
      fun r => { r with balance := newBalance })
    let _ ← tx (create fun id => ({
      id, walletId := wallet.id, type := .payment, amount := -amount, balanceAfter := newBalance
      referenceId := some bookingId } : WalletTransaction))
    let now ← clock
    let payment ← tx (createAt fun createdAt id => ({
      id, bookingId := some bookingId, userId, type := .deposit, status := .success, amount
      gateway := .wallet, callbackVerifiedAt := some now, createdAt } : Payment))
    let booking ← tx (update (fun r : Booking => r.id == bookingId)
      fun r => { r with status := .confirmed })
    BookingService.awardPostPurchaseRewards userId (booking.priceSnapshot - booking.discountAmount)
    return { paidFromWallet := true, payment := some payment }

/-- Opens a session for a new payment and stores its reference: the common end of
`payFromGateway` and `topup`. -/
def openSession (payment : Payment) : Task Id := do
  mark (.opening payment)
  let gatewayRefId ← MockPaymentGateway.createSession payment.amount
  mark (.opened payment.id gatewayRefId)
  let _ ← prisma (update (fun r : Payment => r.id == payment.id)
    fun r => { r with gatewayRefId := some gatewayRefId })
  return gatewayRefId

def payFromGateway (userId bookingId : Id) (amount : Money) : Task InitiateResult := do
  let payment ← prisma (createAt fun createdAt id => ({
    id, bookingId := some bookingId, userId, type := .deposit, status := .initiated, amount
    gateway := .mock, createdAt } : Payment))
  let gatewayRefId ← openSession payment
  return { paidFromWallet := false, gatewayRefId := some gatewayRefId }

def initiate (userId : Id) (dto : InitiatePaymentDto) : Task InitiateResult := do
  let booking ← query (findFirst fun r : Booking => r.id == dto.bookingId && r.userId == userId)
  let booking ← orThrow booking (.notFound "رزرو یافت نشد")
  ensure (booking.status = .pending) (.badRequest "این رزرو در وضعیت نیازمند پرداخت نیست")
  let amount := booking.depositRequired
  ensure (0 < amount) (.badRequest "مبلغ قابل پرداختی برای این رزرو وجود ندارد")
  mark (.due booking.id userId amount)
  match dto.method with
  | .wallet =>
    mark (.paying booking.id)
    payFromWallet userId booking.id amount
  | .gateway => payFromGateway userId booking.id amount

/-- The top-up branch of the callback's transaction. -/
def creditWallet (payment : Payment) : Task Unit := do
  match ← query (findUnique fun r : Wallet => r.userId == payment.userId) with
  | none => mark (.walletless payment.userId)
  | some wallet =>
    mark (.balance payment.userId wallet.id wallet.balance)
    let newBalance := wallet.balance + payment.amount
    let _ ← tx (update (fun r : Wallet => r.userId == payment.userId)
      fun r => { r with balance := newBalance })
    let _ ← tx (create fun id => ({
      id, walletId := wallet.id, type := .topup, amount := payment.amount
      balanceAfter := newBalance, referenceId := some payment.id } : WalletTransaction))
    return ()

/-- The booking branch of the callback's transaction. -/
def confirmBooking (payment : Payment) (bookingId : Id) : Task Unit := do
  match (← query (findUnique fun r : Booking => r.id == bookingId)).filter
      (fun b => b.status = .pending) with
  | none => mark (.unpayable bookingId)
  | some booking =>
    mark (.paying bookingId)
    let _ ← tx (update (fun r : Booking => r.id == bookingId)
      fun r => { r with status := .confirmed })
    BookingService.awardPostPurchaseRewards payment.userId
      (booking.priceSnapshot - booking.discountAmount)

def settle (payment : Payment) : Task Unit :=
  if payment.type = .walletTopup then creditWallet payment
  else
    match truthyId payment.bookingId with
    | some bookingId => confirmBooking payment bookingId
    | none => pure ()

/-- An absent `gatewayRefId` is no condition in a Prisma `where`. -/
def handleCallback (gatewayName : GatewayName) (gatewayRefId : Option Id) :
    Task CallbackResult := do
  let payment ← query (findFirst fun r : Payment =>
    gatewayRefId.all (fun ref => r.gatewayRefId == some ref) && r.gateway == gatewayName)
  let payment ← orThrow payment (.notFound "تراکنش یافت نشد")
  if payment.status ≠ .initiated then
    return { alreadyProcessed := true, status := payment.status }
  else
    mark (.handling payment)
    let verification ← MockPaymentGateway.verify gatewayRefId payment.amount
    match verification.verified, gatewayRefId with
    | true, some ref =>
      mark (.finalising payment.id ref)
      transaction do
        let now ← clock
        let _ ← tx (update (fun r : Payment => r.id == payment.id)
          fun r => { r with status := .success, callbackVerifiedAt := some now })
        settle payment
        return { alreadyProcessed := false, status := .success }
    | _, _ =>
      let _ ← prisma (update (fun r : Payment => r.id == payment.id)
        fun r => { r with status := .failed, failureReason := verification.failureReason })
      return { alreadyProcessed := false, status := .failed }

def refund (paymentId adminId : Id) (reason : String) : Task Unit := do
  let payment ← query (findUnique fun r : Payment => r.id == paymentId)
  let payment ← orThrow payment (.notFound "تراکنش یافت نشد")
  ensure (payment.status = .success) (.badRequest "فقط تراکنش موفق قابل استرداد است")
  mark (.refunding payment)
  transaction do
    let _ ← tx (update (fun r : Payment => r.id == paymentId)
      fun r => { r with status := .refunded })
    let wallet ← tx (upsert (fun r : Wallet => r.userId == payment.userId)
      fun id => { id, userId := payment.userId })
    mark (.balance payment.userId wallet.id wallet.balance)
    let newBalance := wallet.balance + payment.amount
    let _ ← tx (update (fun r : Wallet => r.userId == payment.userId)
      fun r => { r with balance := newBalance })
    let _ ← tx (create fun id => ({
      id, walletId := wallet.id, type := .refund, amount := payment.amount
      balanceAfter := newBalance, referenceId := some payment.id } : WalletTransaction))
    let _ ← tx (create fun id => ({
      id, actorId := some adminId, action := .paymentRefunded, entityType := "Payment"
      entityId := paymentId
      metadata := { amount := some payment.amount, reason := some reason } } : AuditLog))
    return ()

end PaymentService

namespace WalletService

def getMine (userId : Id) : Task Wallet := do
  mark (.enrolling userId)
  prisma (upsert (fun r : Wallet => r.userId == userId) fun id => { id, userId })

def topup (userId : Id) (dto : TopupWalletDto) : Task Id := do
  let payment ← prisma (createAt fun createdAt id => ({
    id, userId, type := .walletTopup, status := .initiated, amount := dto.amount
    gateway := .mock, createdAt } : Payment))
  PaymentService.openSession payment

end WalletService
end BookingPlatform
