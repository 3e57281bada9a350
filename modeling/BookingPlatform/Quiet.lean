import BookingPlatform.Change

/-! The functions that leave bookings, payments and wallets alone. -/
namespace BookingPlatform
open Async Data Prog

/-- The bookings, payments and wallets are untouched. -/
def Quiet (s s' : Store) : Prop := s'.core = s.core

@[simp] theorem Quiet.refl (s : Store) : Quiet s s := rfl

theorem Quiet.trans {s s' s'' : Store} (h : Quiet s s') (h' : Quiet s' s'') : Quiet s s'' :=
  Eq.trans h' h

/-- Of the core only the rewards are touched. -/
def Rewarding (s s' : Store) : Prop := ∃ t, s'.core = { s.core with rewards := t }

theorem Rewarding.refl (s : Store) : Rewarding s s := ⟨s.core.rewards, rfl⟩

theorem Quiet.rewarding {s s' : Store} (h : Quiet s s') : Rewarding s s' := ⟨s.core.rewards, h⟩

/-- A table that is no part of the core. -/
class Aside (R : Type) [Model R] : Prop where
  core_set : ∀ (s : Store) (t : Table R), (Model.set s t).core = s.core

instance : Aside OtpCode := ⟨fun _ _ => rfl⟩
instance : Aside RefreshToken := ⟨fun _ _ => rfl⟩
instance : Aside Business := ⟨fun _ _ => rfl⟩
instance : Aside BusinessDocument := ⟨fun _ _ => rfl⟩
instance : Aside Branch := ⟨fun _ _ => rfl⟩
instance : Aside StaffMember := ⟨fun _ _ => rfl⟩
instance : Aside WorkingHours := ⟨fun _ _ => rfl⟩
instance : Aside Holiday := ⟨fun _ _ => rfl⟩
instance : Aside ServiceStaff := ⟨fun _ _ => rfl⟩
instance : Aside Coupon := ⟨fun _ _ => rfl⟩
instance : Aside CouponUsage := ⟨fun _ _ => rfl⟩
instance : Aside LoyaltyAccount := ⟨fun _ _ => rfl⟩
instance : Aside Referral := ⟨fun _ _ => rfl⟩
instance : Aside Settlement := ⟨fun _ _ => rfl⟩

theorem quiet_may {T : Type} [Model T] [Aside T] : May Quiet T := Aside.core_set

theorem quiet_mayLock : MayLock Quiet := fun _ _ => rfl

theorem awardPostPurchaseRewards_rewarding {whole : Bool} (userId : Id) (amount : Money) :
    Within Rewarding Note.aside whole (BookingService.awardPostPurchaseRewards userId amount) :=
  awardPostPurchaseRewards_within Rewarding.refl (fun _ => id)
    (May.grows fun s t => Quiet.rewarding (quiet_may s t)) (fun _ t => ⟨t, rfl⟩) (fun s t => Quiet.rewarding (quiet_may s t)) _ _

end BookingPlatform
