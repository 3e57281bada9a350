import BookingPlatform.Loyalty
import BookingPlatform.Otp

/-! `AuthService` and `JwtStrategy`: registration, logins, the recovery of passwords, tokens. -/
namespace BookingPlatform
open Async Prog

/-- `JWT_REFRESH_EXPIRES_IN`, by default 30 days. -/
def refreshTtl : Time := 30 * day

def hashPassword (password : String) : Digest := ⟨password⟩

def verifyPassword (password : String) (hash : Digest) : Bool := hash == hashPassword password

structure VerifyRegisterDto where
  phone : String
  code : String
  fullName : String
  password : String
  referralCode : Option Id := none

structure LoginDto where
  phone : String
  password : String

structure VerifyLoginOtpDto where
  phone : String
  code : String

structure ResetPasswordDto where
  phone : String
  code : String
  newPassword : String

/-- The payload of a signed access token. -/
structure JwtPayload where
  sub : Id
  role : GlobalRole
  deriving DecidableEq

structure TokenPair where
  accessToken : JwtPayload
  refreshToken : String
  deriving DecidableEq

/-- `AuthenticatedRequestUser`. -/
structure AuthenticatedUser where
  id : Id
  role : GlobalRole
  deriving DecidableEq

namespace AuthService

/-- The random bytes of the new refresh token are the world's. -/
def issueTokenPair (userId : Id) (role : GlobalRole) : Task TokenPair := do
  let refreshToken ← look fun g => toString (g.newId 1)
  let now ← clock
  let _ ← prisma (create fun id => ({
    id, userId, tokenHash := sha256Hash refreshToken, expiresAt := now + refreshTtl } : RefreshToken))
  return { accessToken := { sub := userId, role }, refreshToken }

theorem wp_issueTokenPair {C : Contract Env Store Note} {Q : Post Store Err Note TokenPair} {userId : Id}
    {role : GlobalRole} {ns : List Note} {s₀ s : Store}
    (hok : ∀ refreshToken (t : RefreshToken) s₁ s₂, C.rely s s₁ → t.userId = userId → t.tokenHash = sha256Hash refreshToken →
      t.revokedAt = none → put t s₁ = .ok s₂ → C.commit ns s₁ s₂ ∧
        Q (.ok { accessToken := { sub := userId, role }, refreshToken }) none [] s₁ s₂)
    (herr : ∀ e ns s₁, C.rely s s₁ → Q (.error e) none ns s₁ s₁) :
    wp C Q (issueTokenPair userId role) none ns s₀ s := by
  refine (wp_bind _ _).mpr (wp_look fun g s₁ hr₁ => ?_)
  refine (wp_bind _ _).mpr (wp_look fun g' s₂ hr₂ => ?_)
  refine (wp_bind _ _).mpr (wp_prisma (fun g'' s₃ t s₄ _ hr₃ h => ?_) fun _ e s₃ _ hr₃ _ => ?_)
  · obtain ⟨rfl, hput⟩ := create_ok h
    exact hok _ _ s₃ s₄ (C.rely_trans (C.rely_trans hr₁ hr₂) hr₃) rfl rfl rfl hput
  · exact herr e [] s₃ (C.rely_trans (C.rely_trans hr₁ hr₂) hr₃)

/-! ### Registration -/

def requestRegisterOtp (config : ConfigService) (phone : String) : Task OtpResponse := do
  let existing ← query (findUnique fun r : User => r.phone == phone)
  ensure (existing = none) (.conflict "این شماره قبلاً ثبت‌نام کرده است")
  OtpService.requestOtp config phone .register

def verifyRegisterAndCreateUser (dto : VerifyRegisterDto) : Task TokenPair := do
  let isValid ← OtpService.verifyOtp dto.phone .register dto.code
  ensure isValid (.badRequest "کد تایید نادرست است")
  let existing ← query (findUnique fun r : User => r.phone == dto.phone)
  ensure (existing = none) (.conflict "این شماره قبلاً ثبت‌نام کرده است")
  mark .registering
  let user ← prisma (create fun id => ({
    id, phone := dto.phone, fullName := dto.fullName, passwordHash := hashPassword dto.password
    phoneVerified := true } : User))
  mark (.enrolling user.id)
  let _ ← prisma (create fun id => ({ id, userId := user.id } : Wallet))
  let _ ← prisma (create fun id => ({ id, userId := user.id } : LoyaltyAccount))
  (match truthyId dto.referralCode with
    | some referralCode => ReferralService.registerReferral referralCode user.id
    | none => pure ())
  issueTokenPair user.id user.globalRole

/-! ### Logins -/

def loginWithPassword (dto : LoginDto) : Task TokenPair := do
  let user ← query (findUnique fun r : User => r.phone == dto.phone)
  let user ← orThrow (user.filter fun u => u.status = .active)
    (.unauthorized "شماره یا رمز عبور نادرست است")
  ensure (verifyPassword dto.password user.passwordHash)
    (.unauthorized "شماره یا رمز عبور نادرست است")
  mark (.auth (.matched user.id user.passwordHash))
  issueTokenPair user.id user.globalRole

/-- A phone that is not registered gets the same answer. -/
def requestLoginOtp (config : ConfigService) (phone : String) : Task OtpResponse := do
  let user ← query (findUnique fun r : User => r.phone == phone)
  match user.filter fun u => u.status = .active with
  | none => return {}
  | some user => OtpService.requestOtp config phone .login (some user.id)

def verifyLoginOtp (dto : VerifyLoginOtpDto) : Task TokenPair := do
  let user ← query (findUnique fun r : User => r.phone == dto.phone)
  let user ← orThrow (user.filter fun u => u.status = .active) (.unauthorized "ورود ناموفق بود")
  let isValid ← OtpService.verifyOtp dto.phone .login dto.code
  ensure isValid (.badRequest "کد تایید نادرست است")
  issueTokenPair user.id user.globalRole

/-! ### Recovery of the password -/

def forgotPassword (config : ConfigService) (phone : String) : Task OtpResponse := do
  let user ← query (findUnique fun r : User => r.phone == phone)
  match user with
  | none => return {}
  | some user => OtpService.requestOtp config phone .resetPassword (some user.id)

/-- Afterwards all sessions are revoked. -/
def resetPassword (dto : ResetPasswordDto) : Task Unit := do
  let user ← query (findUnique fun r : User => r.phone == dto.phone)
  let user ← orThrow user (.badRequest "درخواست نامعتبر است")
  let isValid ← OtpService.verifyOtp dto.phone .resetPassword dto.code
  ensure isValid (.badRequest "کد تایید نادرست است")
  let passwordHash := hashPassword dto.newPassword
  let _ ← prisma (update (fun r : User => r.id == user.id) fun r => { r with passwordHash })
  mark (.auth (.ending user.id))
  let now ← clock
  let _ ← prisma (updateMany (fun r : RefreshToken => r.userId == user.id && r.revokedAt == none)
    fun r => { r with revokedAt := some now })
  return ()

/-! ### Tokens -/

/-- Rotation: the old token is revoked and a new one is issued. -/
def refreshTokens (rawRefreshToken : String) : Task TokenPair := do
  let tokenHash := sha256Hash rawRefreshToken
  let record ← query (findUnique fun r : RefreshToken => r.tokenHash == tokenHash)
  let record ← orThrow (record.filter fun t => t.revokedAt = none)
    (.unauthorized "نشست منقضی شده، دوباره وارد شوید")
  mark (.auth (.presented record.id))
  let now ← clock
  ensure (now ≤ record.expiresAt) (.unauthorized "نشست منقضی شده، دوباره وارد شوید")
  let user ← query (findUnique fun r : User => r.id == record.userId)
  let user ← orThrow (user.filter fun u => u.status = .active)
    (.unauthorized "حساب کاربری معتبر نیست")
  let now ← clock
  let _ ← prisma (update (fun r : RefreshToken => r.id == record.id)
    fun r => { r with revokedAt := some now })
  mark (.auth (.rotated record.id))
  issueTokenPair user.id user.globalRole

def logout (rawRefreshToken : String) : Task Unit := do
  let tokenHash := sha256Hash rawRefreshToken
  let now ← clock
  let _ ← prisma (updateMany (fun r : RefreshToken => r.tokenHash == tokenHash && r.revokedAt == none)
    fun r => { r with revokedAt := some now })
  return ()

def getMe (userId : Id) : Task User := do
  let user ← query (findUnique fun r : User => r.id == userId)
  orThrow user (.unauthorized "کاربر یافت نشد")

end AuthService

namespace JwtStrategy

/-- The token's signature names `sub`. -/
def validate (sub : Id) : Task AuthenticatedUser := do
  let user ← query (findUnique fun r : User => r.id == sub)
  let user ← orThrow (user.filter fun u => u.status = .active)
    (.unauthorized "حساب کاربری معتبر نیست")
  mark (.acts user.id)
  return { id := user.id, role := user.globalRole }

end JwtStrategy
end BookingPlatform
