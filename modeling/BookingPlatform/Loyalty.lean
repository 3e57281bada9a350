import BookingPlatform.Prisma

/-! `LoyaltyService` and `ReferralService`. -/
namespace BookingPlatform
open Async Prog

/-- `TIER_THRESHOLDS`. -/
def tierThresholds : List (Tier × ℤ) := [(.gold, 5000), (.silver, 1000), (.bronze, 0)]

/-- `TOMAN_PER_POINT`, in hundredths. -/
def tomanPerPoint : Money := 10000 * 100

/-- `REFERRAL_REWARD_POINTS`. -/
def referralRewardPoints : ℤ := 100

namespace LoyaltyService

def tierOf (points : ℤ) : Tier :=
  ((tierThresholds.find? fun t => t.2 ≤ points).map Prod.fst).getD .bronze

def addPoints (userId : Id) (points : ℤ) (reason : String) (referenceId : Option Id) :
    Task Unit := do
  let account ← tx (upsert (fun r : LoyaltyAccount => r.userId == userId)
    fun id => { id, userId })
  mark (.points userId account.id account.points)
  let newPoints := account.points + points
  let _ ← tx (update (fun r : LoyaltyAccount => r.userId == userId)
    fun r => { r with points := newPoints, tier := tierOf newPoints })
  let _ ← tx (create fun id =>
    ({ id, accountId := account.id, points, reason, referenceId } : LoyaltyTransaction))
  return ()

def earnFromPurchase (userId : Id) (amountToman : Money) (reason : String) : Task Unit :=
  let points := amountToman / tomanPerPoint
  if points ≤ 0 then return () else addPoints userId points reason none

def getMine (userId : Id) : Task LoyaltyAccount :=
  prisma (upsert (fun r : LoyaltyAccount => r.userId == userId) fun id => { id, userId })

end LoyaltyService

namespace ReferralService

/-- The error of any call in it is only logged. -/
def registerReferral (referrerCode refereeId : Id) : Task Unit :=
  tryCatch (do
    if referrerCode = refereeId then return () else
    match ← query (findUnique fun r : User => r.id == referrerCode) with
    | none => return ()
    | some _ =>
      match ← query (findUnique fun r : Referral => r.refereeId == refereeId) with
      | some _ => return ()
      | none =>
        let _ ← prisma (create fun id =>
          ({ id, referrerId := referrerCode, refereeId } : Referral))
        return ())
    fun _ => return ()

/-- A registration of a referral never fails the request that asks for it. -/
theorem wp_registerReferral {C : Contract Env Store Note} {Q : Post Store Err Note Unit}
    {referrerCode refereeId : Id} {ns : List Note} {s₀ s : Store}
    (hwrite : ∀ ns s t, C.commit ns s { s with referral := t }) (hQ : ∀ ns s₀ s, Q (.ok ()) none ns s₀ s) :
    wp C Q (registerReferral referrerCode refereeId) none ns s₀ s := by
  refine wp_tryCatch.mpr ?_
  split
  · exact hQ _ _ _
  · refine (wp_bind _ _).mpr (wp_query (fun g s₁ _ => ?_) fun _ _ => hQ _ _ _)
    rw [wp_onOk_ok]
    split
    · exact hQ _ _ _
    · refine (wp_bind _ _).mpr (wp_query (fun g s₂ _ => ?_) fun _ _ => hQ _ _ _)
      rw [wp_onOk_ok]
      split
      · exact hQ _ _ _
      · refine (wp_bind _ _).mpr (wp_prisma (fun g s₃ r s₄ _ _ h => ?_) fun _ _ _ _ _ _ => hQ _ _ _)
        obtain ⟨-, t, -, rfl⟩ := put_ok (create_ok h).2
        exact ⟨hwrite _ _ t, hQ _ _ _⟩

def rewardIfEligible (refereeId : Id) : Task Unit := do
  match ← query (findUnique fun r : Referral => r.refereeId == refereeId) with
  | none => return ()
  | some referral =>
    if referral.status ≠ .pending then return () else
    mark (.referred referral.id)
    LoyaltyService.addPoints referral.referrerId referralRewardPoints
      "پاداش معرفی موفق دوست" (some referral.id)
    LoyaltyService.addPoints referral.refereeId referralRewardPoints
      "پاداش خوش‌آمدگویی (معرفی‌شده)" (some referral.id)
    let now ← clock
    let _ ← tx (update (fun r : Referral => r.id == referral.id)
      fun r => { r with status := .rewarded, rewardedAt := some now })
    return ()

end ReferralService
end BookingPlatform
