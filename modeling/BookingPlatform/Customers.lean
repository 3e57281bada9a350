import BookingPlatform.Holdings

/-! What a customer's requests do to other customers, and what they tell about them. -/
namespace BookingPlatform
open Async Data Prog

/-- The operations of a customer. -/
def Request.ByCustomer (u : Id) : Request → Prop
  | hold user _ | createRecurring user _ | confirm user _ | confirmGroup user _ | cancelByUser user ..
  | reschedule user .. | listMine user | initiate user _ | getWallet user | topup user _
  | getLoyalty user | validateCoupon user _ | updateProfile user _ | listSessions user
  | revokeSession user _ | requestAccountDeletion user => user = u
  | _ => False

/-- A transaction of `u` that is still open leaves the rows of `v` alone. -/
def sparing (u v : Id) {α : Type} : Except Err α → Option Store → Store → Prop := fun _ w s =>
  ∃ w', w = some w' ∧ Spared u v s w'

section rules
variable {α β : Type} {u v : Id} {s w : Store}

theorem spared_trans (s s' s'' : Store) (h : Spared u v s s') (h' : Spared u v s' s'') :
    Spared u v s s'' := h.trans h'

/-- No transaction is left open. -/
abbrev ended : Except Err α → Option Store → Store → Prop := fun _ w _ => w = none

/-- A transaction whose body spares `v` does. -/
theorem sole_sparing {body : Task α} (h : body.Sole (Spared u v) (sparing u v) (some s) s) :
    (transaction body).Sole (Spared u v) ended none s := by
  refine sole_transaction (h.mono (fun _ _ => id) ?_)
  rintro r _ s ⟨w, rfl, hspared⟩
  exact ⟨fun _ => rfl, fun _ _ => ⟨.inl hspared, rfl⟩⟩

theorem sole_of_ended {p : Task α} (h : p.Sole (Spared u v) ended none s) :
    p.Sole (Spared u v) whatever none s := h.mono (fun _ _ => id) fun _ _ _ _ => trivial

/-- A program of which every single write spares `v`. -/
theorem Within.sparing {p : Task α} (h : Within (Spared u v) (fun _ => True) true p) :
    p.Sole (Spared u v) whatever none s :=
  h.sole Spared.refl spared_trans (fun _ _ => id) fun _ _ _ _ => trivial

end rules

/-! ### Rewards -/

section rewards
variable {u v : Id} {s w : Store}

/-- Points for `u`, or for who has invited `u`. -/
theorem addPoints_sparing {x : Id} (hx : x = v → w.Referrer u v) (points : ℤ) (reason : String)
    (ref : Option Id) (hw : Spared u v s w) :
    (LoyaltyService.addPoints x points reason ref).Sole (Spared u v) (sparing u v) (some w) s := by
  by_cases hxv : x = v
  · -- Only the loyalty tables are written.
    have hwithin : Within (fun s s' : Store => s'.holdings v = s.holdings v ∧ s'.referral = s.referral)
        (fun _ => True) false (LoyaltyService.addPoints x points reason ref) :=
      addPoints_within (fun _ => ⟨rfl, rfl⟩) (fun _ _ => trivial) (May.grows fun _ _ => ⟨rfl, rfl⟩)
        (fun _ _ => ⟨rfl, rfl⟩) x points reason ref
    refine hwithin.sole_tx (fun _ => ⟨rfl, rfl⟩) ?_ ?_
    · rintro s s' s'' ⟨hh, hr⟩ ⟨hh', hr'⟩
      exact ⟨hh'.trans hh, hr'.trans hr⟩
    · rintro r w' ⟨hholdings, hreferral⟩
      exact ⟨w', rfl, hw.trans (.of_referrer (hx hxv) hholdings hreferral)⟩
  · refine (sole_bind _ _).mpr (sole_tx (fun g account w₁ h => ?_) fun _ => ⟨w, rfl, hw⟩)
    have hspared₁ : Spared u v s w₁ := hw.trans (upsert_spared h fun _ => hxv)
    obtain ⟨hmem, huser⟩ : account ∈ w₁.loyaltyAccount.rows ∧ account.userId = x := by
      rcases upsert_ok h with ⟨hmem, hp, rfl⟩ | ⟨-, rfl, hput⟩
      · exact ⟨hmem, by simpa using hp⟩
      · obtain ⟨-, t, ht, rfl⟩ := put_ok hput
        exact ⟨by simp [show (Model.set w t).loyaltyAccount = t from rfl, Table.insert_rows ht], rfl⟩
    refine (sole_bind _ _).mpr ((sole_mark _).mpr ?_)
    refine (sole_bind _ _).mpr (sole_tx (fun g _ w₂ h => ?_) fun _ => ⟨w₁, rfl, hspared₁⟩)
    have hspared₂ : Spared u v s w₂ := by
      refine hspared₁.trans (update_spared h (fun r _ hp => ?_) fun _ => rfl)
      have hr : r.userId = x := by simpa using hp
      exact fun he => hxv (hr.symm.trans he)
    obtain ⟨account', hmem', hid, huser'⟩ :
        ∃ a ∈ w₂.loyaltyAccount.rows, a.id = account.id ∧ a.userId = x := by
      rw [(update_ok h).2]
      have hp : (account.userId == x) = true := by simp [huser]
      exact ⟨_, (Table.mem_update (by intro _ _; rfl)).mpr ⟨account, hmem, if_pos hp⟩, rfl, huser⟩
    refine (sole_bind _ _).mpr (sole_tx (fun g _ w₃ h => ?_) fun _ => ⟨w₂, rfl, hspared₂⟩)
    have hne : account'.userId ≠ v := by rwa [huser']
    exact ⟨w₃, rfl, hspared₂.trans
      (create_loyaltyTransaction_spared hmem' hne (fun _ => hid.symm) h)⟩

theorem rewardIfEligible_sparing (huv : u ≠ v) (hw : Spared u v s w) :
    (ReferralService.rewardIfEligible u).Sole (Spared u v) (sparing u v) (some w) s := by
  refine (sole_bind _ _).mpr (sole_query (fun g => ?_) fun _ => ⟨w, rfl, hw⟩)
  cases hfound : findUnique (fun r : Referral => r.refereeId == u) g w with
  | none =>
    simp only [Option.getD_some, sole_onOk_ok, hfound]
    exact ⟨w, rfl, hw⟩
  | some referral =>
    simp only [Option.getD_some, sole_onOk_ok, hfound]
    obtain ⟨hmem, hp⟩ := findUnique_some hfound
    have hreferee : referral.refereeId = u := by simpa using hp
    split
    · exact ⟨w, rfl, hw⟩
    · refine (sole_bind _ _).mpr ((sole_mark _).mpr ?_)
      refine (sole_bind _ _).mpr ((addPoints_sparing ?_ _ _ _ hw).mono (fun _ _ => id) ?_)
      · exact fun hv => ⟨referral, hmem, hreferee, hv⟩
      rintro r _ s ⟨w₁, rfl, hspared₁⟩
      cases r with
      | error e => exact ⟨w₁, rfl, hspared₁⟩
      | ok _ =>
        refine (sole_bind _ _).mpr ((addPoints_sparing ?_ _ _ _ hspared₁).mono (fun _ _ => id) ?_)
        · exact fun hv => absurd (hreferee.symm.trans hv) huv
        rintro r _ s ⟨w₂, rfl, hspared₂⟩
        cases r with
        | error e => exact ⟨w₂, rfl, hspared₂⟩
        | ok _ =>
          refine (sole_bind _ _).mpr (sole_look (fun g => ?_) fun _ => ⟨w₂, rfl, hspared₂⟩)
          refine (sole_bind _ _).mpr (sole_tx (fun g _ w₃ h => ?_) fun _ => ⟨w₂, rfl, hspared₂⟩)
          exact ⟨w₃, rfl, hspared₂.trans (update_referral_spared h (fun _ => rfl) fun _ => rfl)⟩

theorem awardPostPurchaseRewards_sparing (huv : u ≠ v) (amount : Money) (hw : Spared u v s w) :
    (BookingService.awardPostPurchaseRewards u amount).Sole (Spared u v) (sparing u v) (some w) s := by
  refine (sole_bind _ _).mpr ?_
  have hearn : (LoyaltyService.earnFromPurchase u amount "خرید رزرو").Sole (Spared u v)
      (sparing u v) (some w) s := by
    unfold LoyaltyService.earnFromPurchase
    dsimp only
    split
    · exact ⟨w, rfl, hw⟩
    · exact addPoints_sparing (fun hv => absurd hv huv) _ _ _ hw
  refine hearn.mono (fun _ _ => id) ?_
  rintro r _ s ⟨w₁, rfl, hspared⟩
  cases r with
  | error e => exact ⟨w₁, rfl, hspared⟩
  | ok _ => exact rewardIfEligible_sparing huv hspared

end rewards

/-! ### Bookings -/

section bookings
variable {u v : Id} {s : Store}

theorem sole_getOwnedBooking {G : Store → Store → Prop} {bookingId : Id}
    {Q : Except Err Booking → Option Store → Store → Prop}
    (hok : ∀ b ∈ s.booking.rows, b.id = bookingId → b.userId = u → Q (.ok b) none s)
    (herr : ∀ e, Q (.error e) none s) :
    (BookingService.getOwnedBooking bookingId u).Sole G Q none s := by
  refine (sole_bind _ _).mpr (sole_query (fun g => ?_) herr)
  refine (sole_orThrow _ _).mpr ⟨fun b hb => ?_, fun _ => herr _⟩
  obtain ⟨hmem, hp⟩ := findFirst_some hb
  obtain ⟨hid, huser⟩ : b.id = bookingId ∧ b.userId = u := by simpa using hp
  exact hok b hmem hid huser

/-- The booking that a user owns is the only one with its identifier. -/
theorem owner_of_id {b : Booking} {id : Id} (hb : b ∈ s.booking.rows) (hid : b.id = id)
    (huser : b.userId ≠ v) : ∀ r ∈ s.booking.rows, (r.id == id) = true → r.userId ≠ v := by
  intro r hr hp
  have hclash : Indexed.clash r b = true := by simpa [Indexed.clash, hid] using hp
  rwa [Table.eq_of_clash hr hb hclash]

variable (huv : u ≠ v)
include huv

theorem confirm_sparing (bookingId : Id) :
    (BookingService.confirm bookingId u).Sole (Spared u v) ended none s := by
  refine (sole_bind _ _).mpr (sole_getOwnedBooking (fun b hb hid huser => ?_) fun _ => rfl)
  have howner := owner_of_id hb hid (huser.trans_ne huv)
  refine (sole_bind _ _).mpr ((sole_ensure _ _).mpr ⟨fun _ => ?_, fun _ => rfl⟩)
  refine (sole_bind _ _).mpr ((sole_mark _).mpr ?_)
  refine (sole_bind _ _).mpr (sole_look (fun g => ?_) fun _ => rfl)
  refine (sole_onOk_ok _ _).mpr ?_
  split
  · refine (sole_bind _ _).mpr ((sole_mark _).mpr ?_)
    refine (sole_bind _ _).mpr (sole_prisma (fun g _ s' h => ⟨.inl ?_, rfl⟩) fun _ => rfl)
    exact update_spared h howner fun _ => rfl
  · refine (sole_bind _ _).mpr (sole_query (fun g => ?_) fun _ => rfl)
    refine (sole_bind _ _).mpr ((sole_mark _).mpr ?_)
    refine sole_sparing ((sole_bind _ _).mpr (sole_tx (fun g _ w h => ?_) fun _ => ⟨s, rfl, .refl s⟩))
    have hspared : Spared u v s w := update_spared h howner fun _ => rfl
    refine (sole_onOk_ok _ _).mpr ?_
    split
    · refine (sole_bind _ _).mpr
        ((awardPostPurchaseRewards_sparing huv _ hspared).mono (fun _ _ => id) ?_)
      rintro r _ s ⟨w, rfl, hspared⟩
      cases r <;> exact ⟨w, rfl, hspared⟩
    · exact ⟨w, rfl, hspared⟩

theorem confirmGroup_sparing (recurringGroupId : Id) :
    (BookingService.confirmGroup recurringGroupId u).Sole (Spared u v) ended none s := by
  have hall (bookings : List Booking) (s : Store) :
      (BookingService.confirmAll u bookings).Sole (Spared u v) ended none s := by
    induction bookings generalizing s with
    | nil => exact (sole_pure _).mpr rfl
    | cons b rest ih =>
      refine (sole_bind _ _).mpr ((confirm_sparing huv b.id).mono (fun _ _ => id) ?_)
      rintro r _ s rfl
      cases r with
      | error e => exact (sole_onOk_error _ _).mpr rfl
      | ok _ =>
        refine (sole_bind _ _).mpr ((ih s).mono (fun _ _ => id) ?_)
        rintro r _ s rfl
        cases r <;> exact rfl
  refine (sole_bind _ _).mpr (sole_query (fun g => ?_) fun _ => rfl)
  exact (sole_bind _ _).mpr ((sole_ensure _ _).mpr ⟨fun _ => hall _ s, fun _ => rfl⟩)

theorem cancelByUser_sparing (bookingId : Id) (dto : CancelBookingDto) :
    (BookingService.cancelByUser bookingId u dto).Sole (Spared u v) ended none s := by
  refine (sole_bind _ _).mpr (sole_getOwnedBooking (fun b hb hid huser => ?_) fun _ => rfl)
  have howner := owner_of_id hb rfl (huser.trans_ne huv)
  refine (sole_bind _ _).mpr ((sole_ensure _ _).mpr ⟨fun _ => ?_, fun _ => rfl⟩)
  refine (sole_bind _ _).mpr ((sole_mark _).mpr ?_)
  refine (sole_bind _ _).mpr (sole_look (fun g => ?_) fun _ => rfl)
  refine (sole_bind _ _).mpr (sole_look (fun g' => ?_) fun _ => rfl)
  refine (sole_bind _ _).mpr (sole_prisma (fun g _ s' h => ⟨.inl ?_, rfl⟩) fun _ => rfl)
  exact update_spared h howner fun _ => rfl

theorem reschedule_sparing (bookingId : Id) (dto : RescheduleBookingDto) :
    (BookingService.reschedule bookingId u dto).Sole (Spared u v) whatever none s := by
  refine (sole_bind _ _).mpr (sole_getOwnedBooking (fun b hb hid huser => ?_) fun _ => trivial)
  have howner := owner_of_id hb rfl (huser.trans_ne huv)
  refine (sole_bind _ _).mpr ((sole_ensure _ _).mpr ⟨fun _ => ?_, fun _ => trivial⟩)
  refine (sole_bind _ _).mpr ((sole_mark _).mpr ?_)
  refine (sole_bind _ _).mpr ((within_findUniqueOrThrow (N := fun _ => True) (fun _ => rfl) _).sole_reads
    fun r => ?_)
  cases r with
  | error e => trivial
  | ok service =>
    refine (sole_bind _ _).mpr ((getFreeSlots_within (N := fun _ => True) (fun _ => rfl) _ _).sole_reads
      fun r => ?_)
    cases r with
    | error e => trivial
    | ok slots =>
      refine (sole_bind _ _).mpr ((sole_ensure _ _).mpr ⟨fun _ => ?_, fun _ => trivial⟩)
      refine sole_busy (sole_withLock (fun _ _ => ⟨rfl, Iff.rfl, .inl rfl⟩) fun t => ?_)
      refine sole_of_ended (sole_sparing ?_)
      refine (sole_bind _ _).mpr ((assertSlotFree_within (N := fun _ => True) (fun _ => rfl)
        (fun _ => trivial) _ _ _ _ _).sole_reads fun r => ?_)
      cases r with
      | error e => exact ⟨_, rfl, .refl _⟩
      | ok _ =>
        refine sole_tx (fun g _ w h => ⟨w, rfl, ?_⟩) fun _ => ⟨_, rfl, .refl _⟩
        exact update_spared h howner fun _ => rfl

omit huv in
/-- Every write of `hold` is a write of rows of `u`, of the coupon or of the lock. -/
theorem hold_sparing (huv : u ≠ v) (dto : HoldBookingDto) :
    (BookingService.hold u dto).Sole (Spared u v) whatever none s := by
  have hredeem (service : Service) :
      Within (Spared u v) (fun _ => True) true (BookingService.redeemFor u dto service) := by
    unfold BookingService.redeemFor
    split
    · refine .bind (.bind (checkAndCompute_within Spared.refl (fun _ _ => trivial) _ _ _ _) fun _ =>
        .bind (within_tx fun g s r s' h => create_spared h fun _ => huv) fun _ =>
        .bind (within_tx (update_within fun _ _ => ⟨rfl, Iff.rfl, .inl rfl⟩)) fun _ => .pure _)
        fun _ => .pure _
    · exact .pure _
  have hlink (bookingId : Id) (couponId : Option Id) :
      Within (Spared u v) (fun _ => True) true (BookingService.linkUsage u bookingId couponId) := by
    cases couponId with
    | none => exact .pure _
    | some couponId =>
      refine .bind (within_tx fun g s r s' h => update_spared h (fun r _ hp => ?_) fun _ => rfl)
        fun _ => .pure _
      have huser : r.userId = u := by simp_all
      exact huser.trans_ne huv
  apply Within.sparing
  refine .bind (loadAndValidateContext_within Spared.refl _ _ _ _) fun _ =>
    .tryCatch (withLock_within Spared.refl (fun _ _ => trivial) (fun _ _ => ⟨rfl, Iff.rfl, .inl rfl⟩) _
      (within_transaction Spared.refl ?_)) fun e => busyAsConflict_within e
  exact .bind (assertSlotFree_within Spared.refl (fun _ => trivial) _ _ _ _ _) fun _ =>
    .bind (hredeem _) fun _ => .bind (within_look Spared.refl _) fun _ =>
    .bind (within_tx fun g s r s' h => create_spared h fun _ => huv) fun _ =>
    .bind (hlink _ _) fun _ => .pure _

theorem createRecurring_sparing (dto : CreateRecurringBookingDto) :
    (BookingService.createRecurring u dto).Sole (Spared u v) whatever none s := by
  have hloop (business : Business) (service : Service) (group : Id) (times : List Time) :
      Within (Spared u v) (fun _ => True) true
        (BookingService.createOccurrences u dto business service group times) := by
    induction times with
    | nil => exact .pure _
    | cons startTime rest ih =>
      exact .bind (assertSlotFree_within Spared.refl (fun _ => trivial) _ _ _ _ _) fun _ =>
        .bind (within_look Spared.refl _) fun _ =>
        .bind (within_tx fun g s r s' h => create_spared h fun _ => huv) fun _ =>
        .bind ih fun _ => .pure _
  apply Within.sparing
  refine .bind (loadAndValidateContext_within Spared.refl _ _ _ _) fun _ =>
    .bind (within_look Spared.refl _) fun _ =>
    .tryCatch (within_transaction Spared.refl (hloop _ _ _ _)) fun e => ?_
  cases e <;> trivial

end bookings

/-! ### Payments -/

section payments
variable {u v : Id} {s : Store} (huv : u ≠ v)
include huv

theorem openSession_sparing {payment : Payment} (hmem : payment ∈ s.payment.rows)
    (huser : payment.userId = u) :
    (PaymentService.openSession payment).Sole (Spared u v) ended none s := by
  refine (sole_bind _ _).mpr ((sole_mark _).mpr ?_)
  refine (sole_bind _ _).mpr (sole_op (fun g ref s₁ h => ?_) fun _ _ _ => rfl)
  obtain ⟨t, rfl⟩ : ∃ t, s₁ = { s with session := t } := by
    have h := attempt_ok h
    split at h
    · obtain ⟨-, rfl⟩ := by simpa using h
      exact ⟨_, rfl⟩
    · simp at h
  refine ⟨.inl ⟨rfl, Iff.rfl, .inl rfl⟩, (sole_bind _ _).mpr ((sole_mark _).mpr ?_)⟩
  refine (sole_bind _ _).mpr (sole_prisma (fun g _ s' h => ⟨.inl ?_, rfl⟩) fun _ => rfl)
  refine update_spared h (fun r hr hp => ?_) fun _ => rfl
  have hclash : Indexed.clash r payment = true := hp
  obtain rfl : r = payment := Table.eq_of_clash hr hmem hclash
  exact huser.trans_ne huv

/-- A payment of `u` is created and its session opened. -/
theorem create_payment_sparing {α : Type} {row : Time → Id → Payment} {k : Payment → Task α}
    (hrow : ∀ now id, (row now id).userId = u)
    (hk : ∀ (payment : Payment) (s : Store), payment ∈ s.payment.rows → payment.userId = u →
      (k payment).Sole (Spared u v) ended none s) :
    (prisma (createAt row) >>= k).Sole (Spared u v) ended none s := by
  refine (sole_bind _ _).mpr (sole_prisma (fun g payment s' h => ?_) fun _ => rfl)
  refine ⟨.inl (create_spared h fun _ => (hrow _ _).trans_ne huv), hk payment s' ?_ ?_⟩
  · obtain ⟨-, hput⟩ := create_ok h
    obtain ⟨-, t, ht, rfl⟩ := put_ok hput
    have hview : (Model.set s t).payment = t := rfl
    simp [hview, Table.insert_rows ht]
  · rw [(create_ok h).1]
    exact hrow _ _

theorem topup_sparing (dto : TopupWalletDto) :
    (WalletService.topup u dto).Sole (Spared u v) ended none s :=
  create_payment_sparing huv (fun _ _ => rfl) fun _ _ hmem huser => openSession_sparing huv hmem huser

theorem payFromGateway_sparing (bookingId : Id) (amount : Money) :
    (PaymentService.payFromGateway u bookingId amount).Sole (Spared u v) ended none s := by
  refine create_payment_sparing huv (fun _ _ => rfl) fun payment s hmem huser => ?_
  refine (sole_bind _ _).mpr ((openSession_sparing huv hmem huser).mono (fun _ _ => id) ?_)
  rintro r _ s rfl
  cases r <;> exact rfl

theorem payFromWallet_sparing {b : Booking} (hb : b ∈ s.booking.rows) (huser : b.userId = u)
    (amount : Money) : (PaymentService.payFromWallet u b.id amount).Sole (Spared u v) ended none s := by
  have howner := owner_of_id hb rfl (huser.trans_ne huv)
  apply sole_sparing
  refine (sole_bind _ _).mpr (sole_query (fun g => ?_) fun _ => ⟨s, rfl, .refl s⟩)
  refine (sole_bind _ _).mpr ((sole_orThrow _ _).mpr ⟨fun wallet hw => ?_, fun _ => ⟨s, rfl, .refl s⟩⟩)
  obtain ⟨hmem, hp⟩ := findUnique_some (Option.filter_eq_some_iff.mp hw).1
  have hwallet : wallet.userId = u := by simpa using hp
  refine (sole_bind _ _).mpr ((sole_mark _).mpr ?_)
  refine (sole_bind _ _).mpr (sole_tx (fun g _ w₁ h₁ => ?_) fun _ => ⟨s, rfl, .refl s⟩)
  have hspared₁ : Spared u v s w₁ := by
    refine update_spared h₁ (fun r _ hp => ?_) fun _ => rfl
    have hr : r.userId = u := by simpa using hp
    exact hr.trans_ne huv
  obtain ⟨wallet', hmem', hid, hwallet'⟩ :
      ∃ w ∈ w₁.wallet.rows, w.id = wallet.id ∧ w.userId = u := by
    rw [(update_ok h₁).2]
    have hp : (wallet.userId == u) = true := by simp [hwallet]
    exact ⟨_, (Table.mem_update (by intro _ _; rfl)).mpr ⟨wallet, hmem, if_pos hp⟩, rfl, hwallet⟩
  refine (sole_bind _ _).mpr (sole_tx (fun g _ w₂ h₂ => ?_) fun _ => ⟨w₁, rfl, hspared₁⟩)
  have hspared₂ : Spared u v s w₂ := hspared₁.trans
    (create_walletTransaction_spared hmem' (hwallet'.trans_ne huv) (fun _ => hid.symm) h₂)
  refine (sole_bind _ _).mpr (sole_look (fun g => ?_) fun _ => ⟨w₂, rfl, hspared₂⟩)
  refine (sole_bind _ _).mpr (sole_tx (fun g _ w₃ h₃ => ?_) fun _ => ⟨w₂, rfl, hspared₂⟩)
  have hspared₃ : Spared u v s w₃ := hspared₂.trans (create_spared h₃ fun _ => huv)
  have hbooking : w₃.booking = s.booking := by
    obtain ⟨-, t₃, -, rfl⟩ := put_ok (create_ok h₃).2
    obtain ⟨-, t₂, -, rfl⟩ := put_ok (create_ok h₂).2
    rw [(update_ok h₁).2]
    rfl
  refine (sole_bind _ _).mpr (sole_tx (fun g _ w₄ h₄ => ?_) fun _ => ⟨w₃, rfl, hspared₃⟩)
  have hspared₄ : Spared u v s w₄ := by
    refine hspared₃.trans (update_spared h₄ (fun r hr hp => ?_) fun _ => rfl)
    have hview : (Model.get w₃ : Table Booking) = s.booking := hbooking
    rw [hview] at hr
    exact howner r hr hp
  refine (sole_bind _ _).mpr ((awardPostPurchaseRewards_sparing huv _ hspared₄).mono (fun _ _ => id) ?_)
  rintro r _ s ⟨w, rfl, hspared⟩
  cases r <;> exact ⟨w, rfl, hspared⟩

theorem initiate_sparing (dto : InitiatePaymentDto) :
    (PaymentService.initiate u dto).Sole (Spared u v) ended none s := by
  refine (sole_bind _ _).mpr (sole_query (fun g => ?_) fun _ => rfl)
  refine (sole_bind _ _).mpr ((sole_orThrow _ _).mpr ⟨fun b hb => ?_, fun _ => rfl⟩)
  obtain ⟨hmem, hp⟩ := findFirst_some hb
  have huser : b.userId = u := (by simpa using hp : b.id = dto.bookingId ∧ b.userId = u).2
  refine (sole_bind _ _).mpr ((sole_ensure _ _).mpr ⟨fun _ => ?_, fun _ => rfl⟩)
  refine (sole_bind _ _).mpr ((sole_ensure _ _).mpr ⟨fun _ => ?_, fun _ => rfl⟩)
  refine (sole_bind _ _).mpr ((sole_mark _).mpr ?_)
  refine (sole_onOk_ok _ _).mpr ?_
  split
  · exact (sole_bind _ _).mpr ((sole_mark _).mpr (payFromWallet_sparing huv hmem huser _))
  · exact payFromGateway_sparing huv _ _

end payments

/-! ### Accounts -/

section accounts
variable {u v : Id} {s : Store} (huv : u ≠ v)
include huv

theorem updateProfile_sparing (dto : UpdateProfileDto) :
    (UsersService.updateProfile u dto).Sole (Spared u v) whatever none s := by
  apply Within.sparing
  refine .bind ?_ fun _ => .bind (.mark trivial) fun _ =>
    within_prisma fun g s r s' h => updateUnique_spared h (fun r _ hp => ?_) fun _ => rfl
  · split
    · exact .bind (within_query Spared.refl _) fun _ => .ensure _ _
    · exact .pure _
  · have hid : r.id = u := by simpa using hp
    exact hid.trans_ne huv

theorem revokeSession_sparing (sessionId : Id) :
    (UsersService.revokeSession u sessionId).Sole (Spared u v) ended none s := by
  refine (sole_bind _ _).mpr (sole_query (fun g => ?_) fun _ => rfl)
  refine (sole_bind _ _).mpr ((sole_orThrow _ _).mpr ⟨fun session hs => ?_, fun _ => rfl⟩)
  obtain ⟨hfound, huser⟩ := Option.filter_eq_some_iff.mp hs
  obtain ⟨hmem, hp⟩ := findUnique_some hfound
  have huser : session.userId = u := by simpa using huser
  refine (sole_bind _ _).mpr (sole_look (fun g => ?_) fun _ => rfl)
  refine (sole_bind _ _).mpr (sole_prisma (fun g _ s' h => ⟨.inl ?_, rfl⟩) fun _ => rfl)
  refine update_spared h (fun r hr hr' => ?_) fun _ => rfl
  have hclash : Indexed.clash r session = true := by
    have hid : r.id = sessionId := by simpa using hr'
    have hid' : session.id = sessionId := by simpa using hp
    simp [Indexed.clash, hid, hid']
  obtain rfl : r = session := Table.eq_of_clash hr hmem hclash
  exact huser.trans_ne huv

theorem requestAccountDeletion_sparing :
    (UsersService.requestAccountDeletion u).Sole (Spared u v) whatever none s := by
  apply Within.sparing
  refine .bind (.mark trivial) fun _ => .bind (within_look Spared.refl _) fun _ =>
    .bind (within_prisma fun g s r s' h => updateUnique_spared h (fun r _ hp => ?_) fun _ => rfl) fun _ =>
    .bind (within_look Spared.refl _) fun _ =>
    .bind (within_prisma fun g s n s' h => updateMany_spared h (fun r _ hp => ?_) fun _ => rfl) fun _ =>
    .pure _
  · have hid : r.id = u := by simpa using hp
    exact hid.trans_ne huv
  · have huser : r.userId = u := by simp_all
    exact huser.trans_ne huv

/-- An `upsert` of a row of `u`. -/
theorem upsert_sparing {T : Type} [Model T] [Belongs T] {p : T → Bool} {row : Id → T}
    (hrow : ∀ id, Belongs.owner (row id) = u) :
    (prisma (upsert p row)).Sole (Spared u v) ended none s :=
  sole_prisma (fun _ _ _ h => ⟨.inl (upsert_spared h fun _ => (hrow _).trans_ne huv), rfl⟩) fun _ => rfl

end accounts

/-! ### Every operation -/

theorem Request.serve_sparing {u v : Id} {r : Request} (hr : r.ByCustomer u) (huv : u ≠ v) (s : Store) :
    r.serve.Sole (Spared u v) whatever none s := by
  have key {α : Type} {user : Id} {f : AuthenticatedUser → Task α} (hu : user = u)
      (hf : ∀ a : AuthenticatedUser, a.id = u → (f a).Sole (Spared u v) whatever none s) :
      (authenticated user f).Sole (Spared u v) whatever none s :=
    sole_authenticated (fun _ => trivial) fun a ha _ => hf a (ha.trans hu)
  cases r with
  | hold user dto => exact key hr fun a ha => ha ▸ hold_sparing (ha ▸ huv) dto
  | createRecurring user dto => exact key hr fun a ha => ha ▸ createRecurring_sparing (ha ▸ huv) dto
  | confirm user id => exact key hr fun a ha => ha ▸ sole_of_ended (confirm_sparing (ha ▸ huv) id)
  | confirmGroup user id =>
    exact key hr fun a ha => ha ▸ sole_of_ended (confirmGroup_sparing (ha ▸ huv) id)
  | cancelByUser user id dto =>
    exact key hr fun a ha => ha ▸ sole_of_ended (cancelByUser_sparing (ha ▸ huv) id dto)
  | reschedule user id dto => exact key hr fun a ha => ha ▸ reschedule_sparing (ha ▸ huv) id dto
  | listMine user => exact key hr fun a _ => sole_query (fun _ => trivial) fun _ => trivial
  | initiate user dto =>
    exact key hr fun a ha => ha ▸ sole_of_ended (initiate_sparing (ha ▸ huv) dto)
  | getWallet user =>
    exact key hr fun a ha => sole_of_ended
      ((sole_bind _ _).mpr ((sole_mark _).mpr (upsert_sparing huv fun _ => ha)))
  | topup user dto => exact key hr fun a ha => ha ▸ sole_of_ended (topup_sparing (ha ▸ huv) dto)
  | getLoyalty user => exact key hr fun a ha => sole_of_ended (upsert_sparing huv fun _ => ha)
  | validateCoupon user dto =>
    exact key hr fun a _ => (checkAndCompute_within (N := fun _ => True) (fun _ => rfl)
      (fun _ _ => trivial) _ _ _ _).sole_reads fun _ => trivial
  | updateProfile user dto => exact key hr fun a ha => ha ▸ updateProfile_sparing (ha ▸ huv) dto
  | listSessions user =>
    exact key hr fun a _ => (sole_bind _ _).mpr
      (sole_look (fun _ => sole_query (fun _ => trivial) fun _ => trivial) fun _ => trivial)
  | revokeSession user id =>
    exact key hr fun a ha => ha ▸ sole_of_ended (revokeSession_sparing (ha ▸ huv) id)
  | requestAccountDeletion user => exact key hr fun a ha => ha ▸ requestAccountDeletion_sparing (ha ▸ huv)
  | _ => exact absurd hr id

/-! ### Unknown identifiers -/

/-- The operation with another booking, group or session identifier. -/
def Request.ask (id : Id) : Request → Request
  | confirm user _ => confirm user id
  | confirmGroup user _ => confirmGroup user id
  | cancelByUser user _ dto => cancelByUser user id dto
  | reschedule user _ dto => reschedule user id dto
  | initiate user dto => initiate user { dto with bookingId := id }
  | revokeSession user _ => revokeSession user id
  | r => r

/-- The identifier that the operation takes names nothing of `u`'s: there is no such row, or
it is another user's. -/
def Request.Foreign (u : Id) (s : Store) : Request → Prop
  | confirm _ id | cancelByUser _ id _ | reschedule _ id _ | initiate _ ⟨id, _⟩ =>
    ∀ r ∈ s.booking.rows, r.id = id → r.userId ≠ u
  | confirmGroup _ id => ∀ r ∈ s.booking.rows, r.recurringGroupId = some id → r.userId ≠ u
  | revokeSession _ id => ∀ r ∈ s.refreshToken.rows, r.id = id → r.userId ≠ u
  | _ => False

/-- The text for an identifier that names nothing of the caller's. -/
def Request.unknown : Request → String
  | confirmGroup .. => "رزرو تکرارشونده یافت نشد"
  | revokeSession .. => "نشست یافت نشد"
  | _ => "رزرو یافت نشد"

/-- The answer to a request for something that is not the caller's: it depends on the
caller's account and on the world only. -/
def refusal (account : Option User) (message : String) : List Env → Option (Except Err Unit)
  | [] => none
  | g :: rest =>
    if g.down then some (.error .unavailable)
    else if account.any fun a => a.status = .active then
      match rest with
      | [] => none
      | g' :: _ => some (.error (if g'.down then .unavailable else .notFound message))
    else some (.error (.unauthorized "حساب کاربری معتبر نیست"))

theorem follow_done {r : Except Err Unit} {w : Option (Store → Except Err Store)} {ns : List Note}
    {s : Store} (gs : List Env) :
    (Thread.follow (γ := Env) ⟨.done r, w, ns⟩ s gs).1.result = some r := by
  induction gs with
  | nil => rfl
  | cons g rest ih => exact ih

/-- A request whose first query finds nothing. -/
theorem refused_follow {α β : Type} {user : Id} {s : Store} {message : String}
    {f : AuthenticatedUser → Task β} {q : Query α} {k : α → Task β}
    (hf : ∀ a : AuthenticatedUser, a.id = user → f a = query q >>= k)
    (hk : ∀ g, k (q g s) = throw (.notFound message)) (gs : List Env) :
    ((Thread.start (authenticated user f)).follow s gs).1.result =
      refusal (s.user.rows.find? fun r => r.id == user) message gs := by
  have hfirst : authenticated user f = query (findUnique fun r : User => r.id == user) >>= fun account =>
      orThrow (account.filter fun u => u.status = .active) (.unauthorized "حساب کاربری معتبر نیست") >>=
        fun a => mark (.acts a.id) >>= fun _ => f ⟨a.id, a.globalRole⟩ >>= fun _ => pure () := by
    simp only [authenticated, JwtStrategy.validate, bind_assoc]
    rfl
  rw [hfirst]
  cases gs with
  | nil => rfl
  | cons g rest =>
    rw [Thread.start, Thread.follow, step_query]
    have hread : (Model.get s : Table User) = s.user := rfl
    cases hdown : g.down with
    | true => exact (follow_done rest).trans (by simp [refusal, hdown])
    | false =>
      simp only [Bool.false_eq_true, if_false, findUnique, hread]
      cases haccount : s.user.rows.find? fun r => r.id == user with
      | none => exact (follow_done rest).trans (by simp [refusal, hdown])
      | some a =>
        by_cases hactive : a.status = .active
        · have hid : a.id = user := by simpa using List.find?_some haccount
          have hfilter : (some a).filter (fun u => decide (u.status = .active)) = some a := by
            simp [hactive]
          rw [hfilter]
          change ((Thread.settle (f ⟨a.id, a.globalRole⟩ >>= fun _ => pure ()) none
            [.acts a.id]).follow s rest).1.result = _
          rw [hf ⟨a.id, a.globalRole⟩ hid, bind_assoc]
          cases rest with
          | nil => simp [refusal, hdown, hactive, Thread.follow, Thread.result, Thread.settle, query, op,
              bind_eq, andThen]
          | cons g' rest =>
            rw [Thread.follow, step_query, hk]
            cases hdown' : g'.down <;>
              exact (follow_done rest).trans (by simp [refusal, hdown, hactive, hdown'])
        · have hfilter : (some a).filter (fun u => decide (u.status = .active)) = none := by
            simp [hactive]
          rw [hfilter]
          exact (follow_done rest).trans (by simp [refusal, hdown, hactive])

/-- What the owner of nothing by that identifier is told. -/
theorem foreign_follow {u : Id} {r : Request} {s : Store} (hr : r.ByCustomer u) (h : r.Foreign u s)
    (gs : List Env) : ((Thread.start r.serve).follow s gs).1.result =
      refusal (s.user.rows.find? fun a => a.id == u) r.unknown gs := by
  have hnone {id : Id} (h : ∀ r ∈ s.booking.rows, r.id = id → r.userId ≠ u) (g : Env) :
      findFirst (fun r : Booking => r.id == id && r.userId == u) g s = none := by
    cases hfound : findFirst (fun r : Booking => r.id == id && r.userId == u) g s with
    | none => rfl
    | some r =>
      obtain ⟨hmem, hp⟩ := findFirst_some hfound
      obtain ⟨hid, huser⟩ : r.id = id ∧ r.userId = u := by simpa using hp
      exact absurd huser (h r hmem hid)
  have hbooking {β : Type} {id : Id} {f : AuthenticatedUser → Task β} {k : Booking → Task β}
      (h : ∀ r ∈ s.booking.rows, r.id = id → r.userId ≠ u)
      (hf : ∀ a : AuthenticatedUser, a.id = u → f a = BookingService.getOwnedBooking id u >>= k) :
      ((Thread.start (authenticated u f)).follow s gs).1.result =
        refusal (s.user.rows.find? fun a => a.id == u) "رزرو یافت نشد" gs := by
    refine refused_follow (q := findFirst fun r : Booking => r.id == id && r.userId == u)
      (k := fun b => orThrow b (.notFound "رزرو یافت نشد") >>= k) (fun a ha => ?_) (fun g => ?_) gs
    · rw [hf a ha, BookingService.getOwnedBooking, bind_assoc]
    · rw [hnone h g]
      rfl
  cases r with
  | confirm user id =>
    obtain rfl : user = u := hr
    exact hbooking h fun a ha => by rw [BookingService.confirm, ha]
  | cancelByUser user id dto =>
    obtain rfl : user = u := hr
    exact hbooking h fun a ha => by rw [BookingService.cancelByUser, ha]
  | reschedule user id dto =>
    obtain rfl : user = u := hr
    exact hbooking h fun a ha => by rw [BookingService.reschedule, ha]
  | initiate user dto =>
    obtain rfl : user = u := hr
    exact hbooking h fun a ha => by
      rw [PaymentService.initiate, BookingService.getOwnedBooking, bind_assoc, ha]
  | confirmGroup user id =>
    obtain rfl : user = u := hr
    refine refused_follow (fun a ha => by rw [BookingService.confirmGroup, ha]) (fun g => ?_) gs
    have hempty : findMany (fun r : Booking => r.recurringGroupId == some id && r.userId == user) g s = [] := by
      refine List.eq_nil_iff_forall_not_mem.mpr fun r hr => ?_
      obtain ⟨hmem, hp⟩ := mem_findMany.mp hr
      obtain ⟨hgroup, huser⟩ : r.recurringGroupId = some id ∧ r.userId = user := by simpa using hp
      exact h r hmem hgroup huser
    rw [hempty]
    rfl
  | revokeSession user id =>
    obtain rfl : user = u := hr
    refine refused_follow (fun a ha => by rw [UsersService.revokeSession, ha]) (fun g => ?_) gs
    have hforeign : (findUnique (fun r : RefreshToken => r.id == id) g s).filter
        (fun t => decide (t.userId = user)) = none := by
      refine Option.filter_eq_none_iff.mpr fun t ht huser => ?_
      obtain ⟨hmem, hp⟩ := findUnique_some ht
      exact h t hmem (by simpa using hp) (by simpa using huser)
    rw [hforeign]
    rfl
  | _ => exact absurd h id

/-- Customer isolation: what `u` asks for changes nothing of another user `v`, except the points
of who has invited `u`; and a booking, group or session of somebody else is answered like one
that does not exist. -/
theorem customer_isolation {u : Id} {r : Request} (hr : r.ByCustomer u) :
    (∀ (v : Id) (s : Store) (gs : List Env), u ≠ v →
      ((Thread.start r.serve).follow s gs).2.holdings v = s.holdings v ∧
        (((Thread.start r.serve).follow s gs).2.loyalty v = s.loyalty v ∨ s.Referrer u v)) ∧
    ∀ (id id' : Id) (s s' : Store) (gs : List Env), (r.ask id).Foreign u s → (r.ask id').Foreign u s' →
      (s.user.rows.find? fun a => a.id == u) = (s'.user.rows.find? fun a => a.id == u) →
      ((Thread.start (r.ask id).serve).follow s gs).1.result =
        ((Thread.start (r.ask id').serve).follow s' gs).1.result := by
  refine ⟨fun v s gs huv => ?_, fun id id' s s' gs h h' haccount => ?_⟩
  · obtain ⟨hpath, -⟩ := (r.serve_sparing hr huv s).follow gs
    have hspared : Spared u v s ((Thread.start r.serve).follow s gs).2 := by
      generalize ((Thread.start r.serve).follow s gs).2 = s' at hpath
      induction hpath with
      | refl => exact .refl s
      | tail _ hstep ih => exact ih.trans hstep
    exact ⟨hspared.holdings, hspared.loyalty⟩
  · have hask (id : Id) : (r.ask id).ByCustomer u := by cases r <;> exact hr
    have hunknown : (r.ask id).unknown = (r.ask id').unknown := by cases r <;> rfl
    rw [foreign_follow (hask id) h, foreign_follow (hask id') h', haccount, hunknown]

/-- A booking of each of two users. -/
def neighbours : Store where
  user := ⟨[{ id := 1, phone := "1", passwordHash := ⟨""⟩, fullName := "" },
    { id := 2, phone := "2", passwordHash := ⟨""⟩, fullName := "" }], by decide⟩
  booking := ⟨[1, 2].map fun user => {
    id := 10 + user, userId := user, businessId := 3, branchId := 4, staffMemberId := none
    serviceId := 5, startTime := 0, endTime := 1, priceSnapshot := 0
    cancellationPolicySnapshot := defaultCancellationPolicy }, by decide⟩

theorem customer_isolation_neighbours :
    let gs := List.replicate 12 { now := 0, uuid := id }
    (((Thread.start (Request.confirm 1 11).serve).follow neighbours gs).2.holdings 2 =
        neighbours.holdings 2 ∧
      (((Thread.start (Request.confirm 1 11).serve).follow neighbours gs).2.loyalty 2 =
        neighbours.loyalty 2 ∨ neighbours.Referrer 1 2)) ∧
    ((Thread.start (Request.confirm 1 12).serve).follow neighbours gs).1.result =
      ((Thread.start (Request.confirm 1 13).serve).follow neighbours gs).1.result := by
  obtain ⟨hkept, htold⟩ := customer_isolation (u := 1) (r := .confirm 1 11) rfl
  exact ⟨hkept 2 neighbours _ (by decide), htold 12 13 neighbours neighbours _
    (by simp [Request.ask, Request.Foreign, neighbours])
    (by simp [Request.ask, Request.Foreign, neighbours]) rfl⟩

end BookingPlatform
