import BookingPlatform.Frame

/-! What a request may do to bookings, payments and wallets: the abstract transition system
of which every request is an instance. -/
namespace BookingPlatform
open Async Data

/-- The part of the store that the changes speak about. -/
structure Core where
  user : Table User
  service : Table Service
  booking : Table Booking
  payment : Table Payment
  wallet : Table Wallet
  walletTransaction : Table WalletTransaction
  session : Table Session
  rewards : Table LoyaltyTransaction
  /-- The audit rows with action PAYMENT_REFUNDED. -/
  refundLog : List AuditLog

def Store.core (s : Store) : Core where
  user := s.user
  service := s.service
  booking := s.booking
  payment := s.payment
  wallet := s.wallet
  walletTransaction := s.walletTransaction
  session := s.session
  rewards := s.loyaltyTransaction
  refundLog := s.auditLog.rows.filter fun r => r.action = .paymentRefunded

/-! ### Single tables -/

/-- The booking's status becomes `next`; what was agreed when it was made stays. -/
def Booking.Restated (next : BookingStatus) (b b' : Booking) : Prop :=
  b' = { b with
    status := next, holdExpiresAt := b'.holdExpiresAt, cancelledAt := b'.cancelledAt
    cancelReason := b'.cancelReason }

def StatusSet (id : Id) (next : BookingStatus) (t t' : Table Booking) : Prop :=
  ∃ f hf, (∀ b, Booking.Restated next b (f b)) ∧ t' = t.update (fun r => r.id == id) f hf

/-- The payment's status becomes `next`; only a success sets the time of verification. -/
def Payment.Restated (next : PaymentStatus) (p p' : Payment) : Prop :=
  p' = { p with
    status := next, callbackVerifiedAt := p'.callbackVerifiedAt, failureReason := p'.failureReason } ∧
  p'.callbackVerifiedAt.isSome = (p.callbackVerifiedAt.isSome || next == .success)

def PaymentSet (id : Id) (next : PaymentStatus) (t t' : Table Payment) : Prop :=
  ∃ f hf, (∀ p, Payment.Restated next p (f p)) ∧ t' = t.update (fun r => r.id == id) f hf

def WalletSet (userId : Id) (balance : Money) (t t' : Table Wallet) : Prop :=
  ∃ hf, t' = t.update (fun r => r.userId == userId) (fun r => { r with balance }) hf

/-- The wallet is there, or is added for a user who exists, with nothing in it. -/
def WalletOpened (userId : Id) (users : Table User) (t t' : Table Wallet) : Prop :=
  t' = t ∨ (∀ r ∈ t.rows, r.userId ≠ userId) ∧ (∃ u ∈ users.rows, u.id = userId) ∧
    ∃ id, t'.rows = t.rows ++ [({ id, userId } : Wallet)]

/-- A ledger row is added to a wallet that exists. -/
def Posted (walletId : Id) (type : WalletTxType) (amount balanceAfter : Money) (referenceId : Id)
    (wallets : Table Wallet) (t t' : Table WalletTransaction) : Prop :=
  (∃ id, t'.rows = t.rows ++ [
    { id, walletId, type, amount, balanceAfter, referenceId := some referenceId }]) ∧
    ∃ w ∈ wallets.rows, w.id = walletId

/-- Two bookings want overlapping intervals of one lane. -/
def Booking.Overlaps (b b' : Booking) : Prop :=
  b.branchId = b'.branchId ∧ b.staffMemberId = b'.staffMemberId ∧
    b.startTime < b'.endTime ∧ b'.startTime < b.endTime

/-! ### Notes -/

/-- What must have been read when a note is taken with a step from `c` to `c'`. -/
def Grounds (held : List Note) (c c' : Core) : Note → Prop
  | .acts userId => ∃ u ∈ c'.user.rows, u.id = userId
  | .slotFree branchId staffMemberId startTime endTime excludeBookingId =>
    ∀ b ∈ c'.booking.rows, BookingService.overlapping branchId staffMemberId startTime endTime
      excludeBookingId b = false
  | .lane bookingId branchId staffMemberId => ∃ b ∈ c'.booking.rows,
    b.id = bookingId ∧ b.branchId = branchId ∧ b.staffMemberId = staffMemberId
  | .confirming bookingId serviceId => ∃ b ∈ c'.booking.rows,
    b.id = bookingId ∧ b.status = .hold ∧ b.serviceId = serviceId
  | .aims bookingId next =>
    (∃ b ∈ c'.booking.rows, b.id = bookingId ∧ next ∈ allowedStatusTransitions b.status) ∨
      ∃ serviceId, .confirming bookingId serviceId ∈ held ∧ (next = .cancelled ∨
        next = BookingService.nextStatus (c'.service.rows.find? fun r => r.id == serviceId))
  | .paying bookingId => ∃ b ∈ c'.booking.rows, b.id = bookingId ∧ b.status = .pending
  | .due bookingId userId amount => 0 < amount ∧ ∃ b ∈ c'.booking.rows,
    b.id = bookingId ∧ b.userId = userId ∧ b.status = .pending ∧ b.depositRequired = amount
  | .balance userId walletId amount =>
    (∃ w ∈ c'.wallet.rows, w.userId = userId ∧ w.id = walletId ∧ w.balance = amount) ∨
      ((∀ w ∈ c'.wallet.rows, w.userId ≠ userId ∧ w.id ≠ walletId) ∧ amount = 0)
  | .walletless userId => ∀ w ∈ c'.wallet.rows, w.userId ≠ userId
  | .unpayable bookingId => ∀ b ∈ c'.booking.rows, b.id = bookingId → b.status ≠ .pending
  | .opening payment => payment ∈ c'.payment.rows ∧ (∀ q ∈ c.payment.rows, q.id ≠ payment.id) ∧
    payment.gatewayRefId = none ∧ payment.callbackVerifiedAt = none
  | .opened paymentId gatewayRefId =>
    (∃ p, .opening p ∈ held ∧ p.id = paymentId) ∧ (∀ ref, .opened paymentId ref ∉ held) ∧
      (∀ r ∈ c.session.rows, r.id ≠ gatewayRefId) ∧ ∃ r ∈ c'.session.rows, r.id = gatewayRefId
  | .handling payment => payment ∈ c'.payment.rows ∧ payment.status = .initiated
  | .finalising paymentId gatewayRefId =>
    (∃ p, .handling p ∈ held ∧ p.id = paymentId ∧ p.gatewayRefId = some gatewayRefId ∧
      ∃ r ∈ c.session.rows, r.id = gatewayRefId ∧ r.used = false ∧ r.amount = p.amount) ∧
      (∃ r ∈ c'.session.rows, r.id = gatewayRefId ∧ r.used = true) ∧ c'.payment = c.payment ∧
      ∀ r ∈ c.session.rows, ∃ r' ∈ c'.session.rows, r'.id = r.id ∧ r'.amount = r.amount
  | .enrolling _ => True
  | .releasing _ => True
  | .catalogue => True
  | .registering => True
  | .refunding payment => payment ∈ c'.payment.rows ∧ payment.status = .success
  | .profile _ => True
  | .locked .. | .counted .. | .points .. | .referred _ | .auth _ => True

/-! ### Changes -/

/-- What a call outside a transaction may change: the gateway's sessions. -/
inductive Asked (c : Core) : Core → Prop
  | quiet : Asked c c
  | session (r : Session) (t : Table Session) : c.session.insert r = some t → r.used = false →
      Asked c { c with session := t }
  | verify (r : Session) (t : Table Session) : r ∈ c.session.rows → r.used = false →
      (∃ hf, t = c.session.update (fun q => q.id == r.id) (fun q => { q with used := true }) hf) →
      Asked c { c with session := t }

/-- What a commit may change, given the notes of its request. -/
inductive Change (ns : List Note) (c : Core) : Core → Prop
  | quiet : Change ns c c
  | services (t : Table Service) : .catalogue ∈ ns → Change ns c { c with service := t }
  | profile (userId : Id) (t : Table User) : .profile userId ∈ ns →
      t.rows.map User.id = c.user.rows.map User.id → Change ns c { c with user := t }
  | newUser (u : User) (t : Table User) : .registering ∈ ns → c.user.insert u = some t →
      Change ns c { c with user := t }
  | newWallet (w : Wallet) (t : Table Wallet) : .enrolling w.userId ∈ ns →
      c.wallet.insert w = some t → w.balance = 0 → (∃ u ∈ c.user.rows, u.id = w.userId) →
      Change ns c { c with wallet := t }
  | book (bs : List Booking) (t : Table Booking) : t.rows = c.booking.rows ++ bs →
      (∀ b ∈ bs, b.id ≠ 0 ∧ b.status = .hold ∧ b.startTime < b.endTime ∧ b.holdExpiresAt.isSome ∧
        .slotFree b.branchId b.staffMemberId b.startTime b.endTime none ∈ ns) →
      bs.Pairwise (fun b b' => b.branchId = b'.branchId ∧ ¬ b.Overlaps b') →
      Change ns c { c with booking := t }
  | move (id branchId : Id) (staffMemberId : Option Id) (startTime endTime : Time)
      (t : Table Booking) : .lane id branchId staffMemberId ∈ ns →
      .slotFree branchId staffMemberId startTime endTime (some id) ∈ ns → startTime < endTime →
      (∃ hf, t = c.booking.update (fun r => r.id == id)
        (fun r => { r with startTime, endTime }) hf) → Change ns c { c with booking := t }
  | status (id : Id) (next : BookingStatus) (t : Table Booking) (tr : Table LoyaltyTransaction) :
      .aims id next ∈ ns → next ≠ .hold → StatusSet id next c.booking t →
      Change ns c { c with booking := t, rewards := tr }
  | release (now : Time) (t : Table Booking) : .releasing now ∈ ns →
      (∃ f hf, (∀ b, Booking.Restated .cancelled b (f b)) ∧ t = c.booking.update
        (fun r => r.status == .hold && r.holdExpiresAt.any (· < now)) f hf) →
      Change ns c { c with booking := t }
  | openPayment (p : Payment) (t : Table Payment) : c.payment.insert p = some t →
      p.status = .initiated → p.gateway = .mock → p.gatewayRefId = none →
      p.callbackVerifiedAt = none →
      ((∃ b, p.type = .deposit ∧ p.bookingId = some b ∧ .due b p.userId p.amount ∈ ns) ∨
        (p.type = .walletTopup ∧ p.bookingId = none ∧ 0 < p.amount ∧ .acts p.userId ∈ ns)) →
      Change ns c { c with payment := t }
  | link (p : Payment) (gatewayRefId : Id) (t : Table Payment) : .opening p ∈ ns →
      .opened p.id gatewayRefId ∈ ns → (∃ hf, t = c.payment.update (fun r => r.id == p.id)
        (fun r => { r with gatewayRefId := some gatewayRefId }) hf) →
      Change ns c { c with payment := t }
  | fail (p : Payment) (t : Table Payment) : .handling p ∈ ns →
      PaymentSet p.id .failed c.payment t → Change ns c { c with payment := t }
  | credit (p : Payment) (ref walletId : Id) (x : Money) (tp : Table Payment) (tw : Table Wallet)
      (tl : Table WalletTransaction) : .handling p ∈ ns → .finalising p.id ref ∈ ns →
      .balance p.userId walletId x ∈ ns → p.type = .walletTopup →
      PaymentSet p.id .success c.payment tp → WalletSet p.userId (x + p.amount) c.wallet tw →
      Posted walletId .topup p.amount (x + p.amount) p.id tw c.walletTransaction tl →
      Change ns c { c with payment := tp, wallet := tw, walletTransaction := tl }
  | confirmPaid (p : Payment) (ref bookingId : Id) (tp : Table Payment) (tb : Table Booking)
      (tr : Table LoyaltyTransaction) : .handling p ∈ ns → .finalising p.id ref ∈ ns → p.type ≠ .walletTopup →
      p.bookingId = some bookingId → .paying bookingId ∈ ns →
      PaymentSet p.id .success c.payment tp → StatusSet bookingId .confirmed c.booking tb →
      Change ns c { c with payment := tp, booking := tb, rewards := tr }
  | acceptOnly (p : Payment) (ref : Id) (tp : Table Payment) : .handling p ∈ ns →
      .finalising p.id ref ∈ ns →
      (p.type = .walletTopup → .walletless p.userId ∈ ns) →
      (∀ b, p.type ≠ .walletTopup → p.bookingId = some b → b ≠ 0 → .unpayable b ∈ ns) →
      PaymentSet p.id .success c.payment tp → Change ns c { c with payment := tp }
  | payWallet (userId bookingId walletId : Id) (amount x : Money) (p : Payment)
      (tp : Table Payment) (tw : Table Wallet) (tl : Table WalletTransaction)
      (tb : Table Booking) (tr : Table LoyaltyTransaction) : .due bookingId userId amount ∈ ns → .paying bookingId ∈ ns →
      .balance userId walletId x ∈ ns → amount ≤ x → c.payment.insert p = some tp →
      p.bookingId = some bookingId → p.userId = userId → p.type = .deposit →
      p.status = .success → p.amount = amount → p.gateway = .wallet → p.gatewayRefId = none →
      p.callbackVerifiedAt.isSome → WalletSet userId (x - amount) c.wallet tw →
      Posted walletId .payment (-amount) (x - amount) bookingId tw c.walletTransaction tl →
      StatusSet bookingId .confirmed c.booking tb → Change ns c
        { c with
          payment := tp, wallet := tw, walletTransaction := tl, booking := tb, rewards := tr }
  | refund (p : Payment) (walletId : Id) (x : Money) (row : AuditLog) (tp : Table Payment)
      (tw tw' : Table Wallet) (tl : Table WalletTransaction) : .refunding p ∈ ns →
      .balance p.userId walletId x ∈ ns → PaymentSet p.id .refunded c.payment tp →
      WalletOpened p.userId c.user c.wallet tw → WalletSet p.userId (x + p.amount) tw tw' →
      Posted walletId .refund p.amount (x + p.amount) p.id tw' c.walletTransaction tl →
      row.action = .paymentRefunded → row.entityId = p.id →
      row.metadata.amount = some p.amount → Change ns c
        { c with
          payment := tp, wallet := tw', walletTransaction := tl
          refundLog := c.refundLog ++ [row] }

/-- The contract of a request that takes the notes `K`, and any that are aside. -/
def contract (K : Note → Prop) : Contract Env Store Note where
  env _ _ := True
  rely _ _ := True
  rely_refl _ := trivial
  rely_trans _ _ := trivial
  note held x s s' := (x.aside ∨ K x) ∧ Grounds held s.core s'.core x
  auto _ s s' := Asked s.core s'.core
  commit ns s s' := Change ns s.core s'.core
  read _ _ := .quiet

end BookingPlatform
