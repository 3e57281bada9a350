import BookingPlatform.Prisma

/-! `MockPaymentGateway` and `RedisLockService`. -/
namespace BookingPlatform
open Async Prog

structure VerifyResult where
  verified : Bool
  failureReason : Option String := none
  deriving DecidableEq

namespace MockPaymentGateway

/-- A uuid that is taken already, which `randomUUID` does not return, fails the call. -/
def createSession (amount : Money) : Task Id :=
  Prog.op (attempt (α := Id) fun g s =>
    match s.session.insert { id := g.newId 0, amount } with
    | some t => .ok (g.newId 0, { s with session := t })
    | none => .error .uniqueViolation)

def verifyStmt (gatewayRefId : Option Id) (expectedAmount : Money) : Stmt VerifyResult :=
  fun _ s =>
    match s.session.rows.find? fun r => some r.id == gatewayRefId with
    | none => .ok (⟨false, some "تراکنش نامعتبر یا منقضی‌شده"⟩, s)
    | some session =>
      if session.used then .ok (⟨false, some "این تراکنش قبلاً verify شده است"⟩, s)
      else if session.amount ≠ expectedAmount then
        .ok (⟨false, some "مبلغ تراکنش مطابقت ندارد"⟩, s)
      else .ok (⟨true, none⟩, { s with
        session := s.session.update (fun r => r.id == session.id) (fun r => { r with used := true })
          (by intro _ _; rfl) })

def verify (gatewayRefId : Option Id) (expectedAmount : Money) : Task VerifyResult :=
  Prog.op (attempt (verifyStmt gatewayRefId expectedAmount))

end MockPaymentGateway

namespace RedisLockService

/-- `SET key token PX ttlMs NX`: a lock that has expired is not there. -/
def acquire (key : LockKey) (ttlMs : Time) : Task (Option Id) :=
  Prog.op (attempt (α := Option Id) fun g s =>
    if s.lock.rows.any fun r => r.key == key && g.now < r.expiresAt then .ok (none, s)
    else
      match (s.lock.delete fun r => r.key == key).insert
          { key, token := g.newId 0, expiresAt := g.now + ttlMs } with
      | some t => .ok (some (g.newId 0), { s with lock := t })
      | none => .ok (none, s))

/-- `RELEASE_SCRIPT`. -/
def release (key : LockKey) (token : Id) : Task Unit :=
  Prog.op (attempt (α := Unit) fun _ s =>
    .ok ((), { s with lock := s.lock.delete fun r => r.key == key && r.token == token }))

def withLock {α : Type} (key : LockKey) (fn : Task α) : Task α := do
  let token ← acquire key 10000
  let token ← orThrow token (.lockBusy key)
  mark (.locked key token)
  finally_ fn (release key token)

end RedisLockService
end BookingPlatform
