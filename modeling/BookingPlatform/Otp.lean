import BookingPlatform.Prisma

/-! `OtpService`: one-time codes. -/
namespace BookingPlatform
open Async Prog

/-- `OTP_LENGTH`. -/
def otpLength : ℕ := 6

/-- `OTP_TTL_MINUTES`. -/
def otpTtl : Time := 5 * minute

/-- `MAX_VERIFY_ATTEMPTS`. -/
def maxVerifyAttempts : ℕ := 5

/-- `RESEND_COOLDOWN_SECONDS`. -/
def resendCooldown : Time := 60 * 1000

def sha256Hash (text : String) : Digest := ⟨text⟩

/-- `randomInt(0, bound)`. -/
def randomInt (bound : ℕ) : Task ℕ := look fun g => g.random % bound

/-- `toString().padStart(length, '0')`. -/
def padStart (length n : ℕ) : String := String.ofList ((toString n).toList.leftpad length '0')

/-- The variables of the environment that `OtpService` reads. -/
structure ConfigService where
  nodeEnv : Option String := none
  otpDebugExpose : Option String := none

/-- `{ debugCode?: string }`. -/
structure OtpResponse where
  debugCode : Option String := none
  deriving DecidableEq, Repr

namespace ConsoleSmsProvider

/-- The text goes to a log. -/
def send (_phone _message : String) : Task Unit := look fun _ => ()

end ConsoleSmsProvider

namespace OtpService

def debugExposeEnabled (config : ConfigService) : Bool :=
  let isProduction := config.nodeEnv == some "production"
  let flagEnabled := config.otpDebugExpose == some "true"
  !isProduction && flagEnabled

/-- `Math.ceil` of the seconds that are left of the cooldown. -/
def secondsLeft (sinceLast : Time) : ℤ := (resendCooldown - sinceLast + 999) / 1000

def requestOtp (config : ConfigService) (phone : String) (purpose : OtpPurpose)
    (userId : Option Id := none) : Task OtpResponse := do
  let recent ← query (findLatest
    (fun r : OtpCode => r.phone == phone && r.purpose == purpose && r.consumedAt == none)
    OtpCode.createdAt)
  (match recent with
    | some recent => do
      let now ← clock
      ensure (resendCooldown ≤ now - recent.createdAt) (.tooManyRequests
        ("لطفاً " ++ toString (secondsLeft (now - recent.createdAt)) ++ " ثانیه دیگر دوباره تلاش کنید"))
    | none => pure ())
  let n ← randomInt (10 ^ otpLength)
  let code := padStart otpLength n
  let now ← clock
  let _ ← prisma (createAt fun createdAt id => ({
    id, userId, phone, purpose, codeHash := sha256Hash code, expiresAt := now + otpTtl, createdAt } : OtpCode))
  ConsoleSmsProvider.send phone ("کد تایید شما: " ++ code ++ " (اعتبار 5 دقیقه)")
  return if debugExposeEnabled config then { debugCode := some code } else {}

def verifyOtp (phone : String) (purpose : OtpPurpose) (code : String) : Task Bool := do
  let record ← query (findLatest
    (fun r : OtpCode => r.phone == phone && r.purpose == purpose && r.consumedAt == none)
    OtpCode.createdAt)
  let record ← orThrow record
    (.badRequest "کد معتبری برای این شماره یافت نشد، دوباره درخواست دهید")
  mark (.auth (.verifying record.id))
  let now ← clock
  ensure (now ≤ record.expiresAt) (.badRequest "کد منقضی شده است، دوباره درخواست دهید")
  ensure (record.attempts < maxVerifyAttempts)
    (.tooManyRequests "تعداد تلاش‌های مجاز تمام شد، دوباره درخواست دهید")
  if record.codeHash = sha256Hash code then
    let consumedAt ← clock
    let _ ← prisma (update (fun r : OtpCode => r.id == record.id)
      fun r => { r with consumedAt := some consumedAt })
    return true
  else
    mark (.auth (.guessed record.id))
    let _ ← prisma (update (fun r : OtpCode => r.id == record.id)
      fun r => { r with attempts := r.attempts + 1 })
    return false

/-- A verification writes nothing but codes. -/
theorem wp_verifyOtp {C : Contract Env Store Note} {Q : Post Store Err Note Bool} {I : Store → Prop}
    {phone code : String} {purpose : OtpPurpose} {ns : List Note} {s₀ s : Store}
    (hnote : ∀ ns id s s', C.note ns (.auth (.verifying id)) s s' ∧ C.note ns (.auth (.guessed id)) s s') (hrely : ∀ s s', C.rely s s' → I s → I s')
    (hwrite : ∀ ns s t, I s → C.commit ns s { s with otpCode := t } ∧ I { s with otpCode := t })
    (hQ : ∀ r ns s₀ s, I s → Q r none ns s₀ s) (hs : I s) :
    wp C Q (verifyOtp phone purpose code) none ns s₀ s := by
  have hupdate {p : OtpCode → Bool} {f : OtpCode → OtpCode} {hf : Data.Table.Keeps f} {b : Bool}
      {ns : List Note} {s₀ s : Store} (hs : I s) :
      wp C Q (prisma (update p f hf) >>= fun _ => pure b) none ns s₀ s := by
    refine (wp_bind _ _).mpr (wp_prisma (fun g s₁ a s₂ _ hr h => ?_) fun g e s₁ _ hr _ => ?_)
    · obtain ⟨-, rfl⟩ := update_ok h
      obtain ⟨hcommit, hs₂⟩ := hwrite ns s₁ _ (hrely s s₁ hr hs)
      exact ⟨hcommit, hQ _ _ _ _ hs₂⟩
    · exact hQ _ _ _ _ (hrely s s₁ hr hs)
  refine (wp_bind _ _).mpr (wp_query (fun g s₁ hr => ?_) fun s₁ hr => hQ _ _ _ _ (hrely s s₁ hr hs))
  have hs₁ := hrely s s₁ hr hs
  refine (wp_bind _ _).mpr ((wp_orThrow _ _).mpr ⟨fun record _ => ?_, fun _ => hQ _ _ _ _ hs₁⟩)
  refine (wp_bind _ _).mpr ((wp_mark _).mpr ⟨(hnote _ _ _ _).1, ?_⟩)
  refine (wp_bind _ _).mpr (wp_look fun g s₂ hr => ?_)
  have hs₂ := hrely s₁ s₂ hr hs₁
  refine (wp_bind _ _).mpr ((wp_ensure _ _).mpr ⟨fun _ => ?_, fun _ => hQ _ _ _ _ hs₂⟩)
  refine (wp_bind _ _).mpr ((wp_ensure _ _).mpr ⟨fun _ => ?_, fun _ => hQ _ _ _ _ hs₂⟩)
  rw [wp_onOk_ok]
  split
  · exact (wp_bind _ _).mpr (wp_look fun g s₃ hr => hupdate (hrely s₂ s₃ hr hs₂))
  · exact (wp_bind _ _).mpr ((wp_mark _).mpr ⟨(hnote _ _ _ _).2, hupdate hs₂⟩)

end OtpService
end BookingPlatform
