import BookingPlatform.Prisma

/-! `UsersService`: the profile, the sessions and the deletion of an account. -/
namespace BookingPlatform
open Async Prog

/-- `UpdateProfileDto`. -/
structure UpdateProfileDto where
  fullName : Option String := none
  email : Option String := none
  avatarUrl : Option String := none

/-- Revoking a session changes no key of its row. -/
theorem revoked_keeps (now : Time) :
    Data.Table.Keeps fun r : RefreshToken => { r with revokedAt := some now } := by
  intro _ _
  rfl

namespace UsersService

def updateProfile (userId : Id) (dto : UpdateProfileDto) : Task User := do
  (match dto.email.filter fun t => t ≠ "" with
    | some email => do
      let existing ← query (findUnique fun r : User => r.email == some email)
      ensure (existing.all fun u => u.id = userId) (.conflict "این ایمیل قبلاً استفاده شده است")
    | none => pure ())
  mark (.profile userId)
  prisma (updateUnique (fun r : User => r.id == userId) fun r => { r with
    fullName := dto.fullName.getD r.fullName
    email := dto.email.or r.email
    avatarUrl := dto.avatarUrl.or r.avatarUrl
    emailVerified := if (dto.email.filter fun t => t ≠ "").isSome then false else r.emailVerified })

/-- The order of the answer is left out. -/
def listSessions (userId : Id) : Task (List RefreshToken) := do
  let now ← clock
  query (findMany fun r : RefreshToken => r.userId == userId && r.revokedAt == none && now < r.expiresAt)

def revokeSession (userId sessionId : Id) : Task Unit := do
  let session ← query (findUnique fun r : RefreshToken => r.id == sessionId)
  let _ ← orThrow (session.filter fun t => t.userId = userId) (.notFound "نشست یافت نشد")
  let now ← clock
  let _ ← prisma (update (fun r : RefreshToken => r.id == sessionId)
    (fun r => { r with revokedAt := some now }) (revoked_keeps now))
  return ()

def requestAccountDeletion (userId : Id) : Task Unit := do
  mark (.profile userId)
  let now ← clock
  let _ ← prisma (updateUnique (fun r : User => r.id == userId)
    fun r => { r with status := .deleted, deletedAt := some now, email := none })
  let now ← clock
  let _ ← prisma (updateMany (fun r : RefreshToken => r.userId == userId && r.revokedAt == none)
    (fun r => { r with revokedAt := some now }) (revoked_keeps now))
  return ()

end UsersService
end BookingPlatform
