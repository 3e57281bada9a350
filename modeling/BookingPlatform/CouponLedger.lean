import BookingPlatform.Redemption

/-! Usage counts, usage rows and discounts agree, however requests meet. -/
namespace BookingPlatform
open Async Data Prog

/-- What of a coupon never changes. -/
def Coupon.issue (c : Coupon) : Id × String × Option Id := (c.id, c.code, c.businessId)

/-- How often the coupon was redeemed. -/
def Store.redemptions (s : Store) (couponId : Id) : ℕ := s.couponUsage.rows.countP fun u => u.couponId == couponId

/-- The usage is what the coupon gave for the booking. -/
structure CouponUsage.Grants (u : CouponUsage) (c : Coupon) (b : Booking) : Prop where
  coupon : u.couponId = c.id
  booking : u.bookingId = some b.id
  user : b.userId = u.userId
  code : b.couponCode = some c.code
  amount : b.discountAmount = u.discountAmount
  business : c.For b.businessId

/-- Counts, usages and discounts agree. -/
structure CouponLedger (s : Store) : Prop where
  counted : ∀ c ∈ s.coupon.rows, c.usageCount = s.redemptions c.id
  granted : ∀ u ∈ s.couponUsage.rows, ∃ c ∈ s.coupon.rows, ∃ b ∈ s.booking.rows, u.Grants c b
  once : ∀ u ∈ s.couponUsage.rows, ∀ u' ∈ s.couponUsage.rows, u.bookingId = u'.bookingId → u = u'
  backed : ∀ b ∈ s.booking.rows, b.discountAmount ≠ 0 → ∃ u ∈ s.couponUsage.rows, u.bookingId = some b.id

/-- Coupons stay what they are, and the ledger stays in order. -/
structure Accounted (s s' : Store) : Prop where
  coupon : Persist Coupon.issue s.coupon s'.coupon
  ledger : CouponLedger s → CouponLedger s'

section
variable {s s' s'' : Store}

theorem Accounted.refl (s : Store) : Accounted s s := ⟨.refl _, id⟩

theorem accounted_trans (s s' s'' : Store) (h : Accounted s s') (h' : Accounted s' s'') : Accounted s s'' :=
  ⟨h.coupon.trans h'.coupon, fun hs => h'.ledger (h.ledger hs)⟩

/-- The contract of every request. -/
abbrev accounting : Contract Env Store Note := .keeping Accounted Accounted.refl accounted_trans

theorem CouponUsage.Grants.mono {u : CouponUsage} {c c' : Coupon} {b b' : Booking} (h : u.Grants c b)
    (hc : c'.issue = c.issue) (hb : b'.deal = b.deal) : u.Grants c' b' := by
  simp only [Coupon.issue, Prod.mk.injEq] at hc
  simp only [Booking.deal, Deal.mk.injEq] at hb
  obtain ⟨hid, hcode, hbusiness⟩ := hc
  obtain ⟨hbid, huser, hbbusiness, -, hbcode, -, hamount, -⟩ := hb
  refine ⟨h.coupon.trans hid.symm, h.booking.trans (congrArg some hbid.symm), huser.trans h.user, ?_,
    hamount.trans h.amount, ?_⟩
  · rw [hbcode, h.code, hcode]
  · rw [Coupon.For, hbusiness, hbbusiness]
    exact h.business

/-! ### Requests that redeem nothing -/

/-- What the ledger is about, but for the counts of coupons, is kept. -/
theorem accounted_of_dealt (hdealt : Dealt s s') (hcoupon : s'.coupon = s.coupon)
    (husage : s'.couponUsage = s.couponUsage) : Accounted s s' := by
  constructor
  · rw [hcoupon]
    exact .refl _
  · intro h
    have hredemptions (couponId : Id) : s'.redemptions couponId = s.redemptions couponId := by
      rw [Store.redemptions, husage]
      rfl
    refine ⟨fun c hc => ?_, fun u hu => ?_, ?_, fun b' hb' hne => ?_⟩
    · rw [hredemptions]
      exact h.counted c (hcoupon ▸ hc)
    · rw [husage] at hu
      obtain ⟨c, hc, b, hb, hgrants⟩ := h.granted u hu
      obtain ⟨b', hb', hdeal⟩ := hdealt.stay b hb
      rw [hcoupon]
      exact ⟨c, hc, b', hb', hgrants.mono rfl hdeal⟩
    · rw [husage]
      exact h.once
    · obtain ⟨b, hb, hdeal⟩ := hdealt.back b' hb'
      simp only [Booking.deal, Deal.mk.injEq] at hdeal
      obtain ⟨hid, -, -, -, -, -, hamount, -⟩ := hdeal
      rw [husage, ← hid]
      exact h.backed b hb (hamount ▸ hne)

/-- A booking without a discount is added. -/
theorem create_booking_accounted {row : Id → Booking} (hrow : ∀ id, (row id).discountAmount = 0) :
    StmtWithin Accounted (create row) := by
  intro g s b s' hb
  obtain ⟨rfl, hput⟩ := create_ok hb
  obtain ⟨-, t, ht, rfl⟩ := put_ok hput
  refine ⟨.refl _, fun h => ⟨h.counted, fun u hu => ?_, h.once, fun b' hb' hne => ?_⟩⟩
  · obtain ⟨c, hc, b', hb', hgrants⟩ := h.granted u hu
    have hstays : Persist Booking.deal s.booking t := .insert ht
    obtain ⟨b'', hb'', hdeal⟩ := hstays b' hb'
    exact ⟨c, hc, b'', hb'', hgrants.mono rfl hdeal⟩
  · rcases (Table.mem_insert ht).mp hb' with hold | rfl
    · exact h.backed b' hold hne
    · exact absurd (hrow _) hne

/-- A coupon is added that nobody has used. -/
theorem create_coupon_accounted {row : Id → Coupon} (hrow : ∀ id, (row id).id = id ∧ (row id).usageCount = 0) :
    StmtWithin Accounted (create row) := by
  intro g s c s' hc
  obtain ⟨rfl, hput⟩ := create_ok hc
  obtain ⟨-, t, ht, rfl⟩ := put_ok hput
  refine ⟨.insert ht, fun h => ⟨fun c' hc' => ?_, fun u hu => ?_, h.once, h.backed⟩⟩
  · rcases (Table.mem_insert ht).mp hc' with hold | rfl
    · exact h.counted c' hold
    · -- Every usage is of a coupon that was there before.
      rw [(hrow _).2, eq_comm]
      refine List.countP_eq_zero.mpr fun u hu hused => ?_
      obtain ⟨c₀, hc₀, b, hb, hgrants⟩ := h.granted u hu
      have hfresh := Table.insert_fresh ht c₀ hc₀
      have hsame : c₀.id = (row (g.newId 0)).id := hgrants.coupon.symm.trans (beq_iff_eq.mp hused)
      simp [Indexed.clash, hsame] at hfresh
  · obtain ⟨c', hc', b, hb, hgrants⟩ := h.granted u hu
    have hstays : Persist Coupon.issue s.coupon t := .insert ht
    obtain ⟨c'', hc'', hissue⟩ := hstays c' hc'
    exact ⟨c'', hc'', b, hb, hgrants.mono hissue rfl⟩

/-- A coupon is edited, but not its count. -/
theorem update_coupon_accounted {p : Coupon → Bool} {f : Coupon → Coupon} {hf : Table.Keeps f}
    (hkeep : ∀ c, (f c).issue = c.issue ∧ (f c).usageCount = c.usageCount) : StmtWithin Accounted (update p f hf) := by
  intro g s c s' hc
  rw [(update_ok hc).2]
  have hpersist : Persist Coupon.issue s.coupon (s.coupon.update p f hf) := .update hf fun c _ _ => (hkeep c).1
  refine ⟨hpersist, fun h => ⟨fun c' hc' => ?_, fun u hu => ?_, h.once, h.backed⟩⟩
  · obtain ⟨c₀, hc₀, rfl⟩ := (Table.mem_update hf).mp hc'
    have hcount := h.counted c₀ hc₀
    by_cases hp : p c₀ = true
    · rw [if_pos hp, (hkeep c₀).2, hcount, ← (Prod.mk.inj (hkeep c₀).1).1]
      rfl
    · rw [if_neg hp]
      exact hcount
  · obtain ⟨c', hc', b, hb, hgrants⟩ := h.granted u hu
    obtain ⟨c'', hc'', hissue⟩ := hpersist c' hc'
    exact ⟨c'', hc'', b, hb, hgrants.mono hissue rfl⟩

/-! ### Holds -/

/-- What is left when a coupon has been redeemed: the usage is in its last form when it is committed. -/
structure Redeemed (s s' : Store) (u : CouponUsage) (b : Booking) : Prop where
  coupon : s'.coupon = s.coupon.update (fun r => r.id == u.couponId)
    (fun r => { r with usageCount := r.usageCount + 1 }) redeemed_keeps
  usage : s'.couponUsage.rows = s.couponUsage.rows ++ [u]
  booking : s.booking.insert b = some s'.booking

theorem Redeems.redeemed {userId : Id} {dto : HoldBookingDto} {business : Business} {service : Service}
    {coupon : Coupon} (h : Redeems userId dto business service coupon s s') : ∃ now id id',
      Redeemed s s' { usageRow userId coupon service id with bookingId := some id' }
        (heldRow now id' userId dto business service (min (CouponService.rawDiscount coupon service.price) service.price)) := by
  obtain ⟨now, g₁, g₂, g₃, g₄, u, c, b, u', v₁, v₂, v₃, hu, hc, hb, hu'⟩ := h
  obtain ⟨rfl, hput⟩ := create_ok hu
  obtain ⟨-, tu, htu, rfl⟩ := put_ok hput
  rw [(update_ok hc).2] at hb
  obtain ⟨rfl, hput⟩ := create_ok hb
  obtain ⟨-, tb, htb, rfl⟩ := put_ok hput
  refine ⟨now, g₁.newId 0, g₃.newId 0, ?_⟩
  rw [(update_ok hu').2]
  refine ⟨rfl, ?_, htb⟩
  -- Nobody has redeemed this coupon for this user before, so no other usage is linked.
  have hothers : ∀ r ∈ s.couponUsage.rows, (r.couponId == coupon.id && r.userId == userId) = false := by
    intro r hr
    have hfresh := Table.insert_fresh htu r hr
    simp only [Indexed.clash, Bool.or_eq_false_iff] at hfresh
    simpa [usageRow] using hfresh.2
  change tu.rows.map _ = _
  rw [Table.insert_rows htu, List.map_append]
  congr 1
  · refine (List.map_congr_left fun r hr => ?_).trans (List.map_id _)
    rw [if_neg (by simp [hothers r hr])]
    rfl
  · simp [usageRow, heldRow]

theorem Redeemed.accounted {u : CouponUsage} {c : Coupon} {b : Booking} (h : Redeemed s s' u b)
    (hc : c ∈ s.coupon.rows) (hgrants : u.Grants c b) : Accounted s s' := by
  have hcoupons : Persist Coupon.issue s.coupon s'.coupon := by
    rw [h.coupon]
    exact .update redeemed_keeps fun _ _ _ => rfl
  have hbookings : Persist Booking.deal s.booking s'.booking := .insert h.booking
  refine ⟨hcoupons, fun hs => ?_⟩
  have hgranted {u' : CouponUsage} {c' : Coupon} {b' : Booking} (hc' : c' ∈ s.coupon.rows)
      (hb' : b' ∈ s'.booking.rows) (hg : u'.Grants c' b') :
      ∃ c ∈ s'.coupon.rows, ∃ b ∈ s'.booking.rows, u'.Grants c b := by
    obtain ⟨c'', hc'', hissue⟩ := hcoupons c' hc'
    exact ⟨c'', hc'', b', hb', hg.mono hissue rfl⟩
  have hbooked : b ∈ s'.booking.rows := (Table.mem_insert h.booking).mpr (.inr rfl)
  -- No usage names the new booking but its own.
  have hnew : ∀ u' ∈ s.couponUsage.rows, u'.bookingId ≠ u.bookingId := by
    intro u' hu' hsame
    obtain ⟨c', -, b', hb', hg⟩ := hs.granted u' hu'
    have hfresh := Table.insert_fresh h.booking b' hb'
    rw [hg.booking, hgrants.booking, Option.some.injEq] at hsame
    simp [Indexed.clash, hsame] at hfresh
  refine ⟨fun c' hc' => ?_, fun u' hu' => ?_, fun u₁ h₁ u₂ h₂ hsame => ?_, fun b' hb' hne => ?_⟩
  · rw [h.coupon] at hc'
    obtain ⟨c₀, hc₀, rfl⟩ := (Table.mem_update redeemed_keeps).mp hc'
    have hcount := hs.counted c₀ hc₀
    unfold Store.redemptions at hcount ⊢
    rw [h.usage, List.countP_append, List.countP_singleton]
    by_cases hp : (c₀.id == u.couponId) = true
    · rw [if_pos hp]
      simp [hcount, beq_iff_eq.mp hp]
    · rw [if_neg hp, hcount]
      have hother : (u.couponId == c₀.id) = false :=
        beq_eq_false_iff_ne.mpr fun hsame => hp (beq_iff_eq.mpr hsame.symm)
      simp [hother]
  · rw [h.usage] at hu'
    rcases List.mem_append.mp hu' with hold | hadded
    · obtain ⟨c', hc', b', hb', hg⟩ := hs.granted u' hold
      obtain ⟨b'', hb'', hdeal⟩ := hbookings b' hb'
      exact hgranted hc' hb'' (hg.mono rfl hdeal)
    · rw [List.mem_singleton.mp hadded]
      exact hgranted hc hbooked hgrants
  · rw [h.usage] at h₁ h₂
    rcases List.mem_append.mp h₁ with hold₁ | hadded₁ <;> rcases List.mem_append.mp h₂ with hold₂ | hadded₂
    · exact hs.once u₁ hold₁ u₂ hold₂ hsame
    · rw [List.mem_singleton.mp hadded₂] at hsame
      exact absurd hsame (hnew u₁ hold₁)
    · rw [List.mem_singleton.mp hadded₁] at hsame
      exact absurd hsame.symm (hnew u₂ hold₂)
    · rw [List.mem_singleton.mp hadded₁, List.mem_singleton.mp hadded₂]
  · rw [h.usage]
    rcases (Table.mem_insert h.booking).mp hb' with hold | rfl
    · obtain ⟨u', hu', hnames⟩ := hs.backed b' hold hne
      exact ⟨u', List.mem_append_left _ hu', hnames⟩
    · exact ⟨u, List.mem_append_right _ (List.mem_singleton.mpr rfl), hgrants.booking⟩

theorem Held.accounted {userId : Id} {dto : HoldBookingDto} {s₀ : Store} (h : Held Accounted userId dto s₀ s s') :
    Accounted s s' := by
  cases h with
  | plain business service now g b hservice hb => exact create_booking_accounted (fun _ => rfl) g s b s' hb
  | redeemed business service coupon hservice hcoupon hcode hfor hredeems =>
    obtain ⟨now, id, id', hredeemed⟩ := hredeems.redeemed
    obtain ⟨r, -, hr, hmem⟩ := hcoupon
    obtain ⟨c, hc, hissue⟩ := hr.coupon coupon hmem
    refine hredeemed.accounted hc (CouponUsage.Grants.mono ?_ hissue rfl)
    exact ⟨rfl, rfl, rfl, hcode, rfl, hfor⟩

/-! ### All requests -/

theorem accounted_mayLock : MayLock Accounted := fun _ _ => accounted_of_dealt (.refl _) rfl rfl

theorem createRecurring_accounted (userId : Id) (dto : CreateRecurringBookingDto) :
    Within Accounted (fun _ => True) true (BookingService.createRecurring userId dto) := by
  have hloop (business : Business) (service : Service) (group : Id) (times : List Time) :
      Within Accounted (fun _ => True) true
        (BookingService.createOccurrences userId dto business service group times) := by
    induction times with
    | nil => exact .pure _
    | cons startTime rest ih =>
      exact .bind (assertSlotFree_within .refl (fun _ => trivial) _ _ _ _ _) fun _ =>
        .bind (within_look .refl _) fun _ =>
        .bind (within_tx (create_booking_accounted fun _ => rfl)) fun _ => .bind ih fun _ => .pure _
  refine .bind (loadAndValidateContext_within .refl _ _ _ _) fun _ => .bind (within_look .refl _) fun _ =>
    .tryCatch (within_transaction .refl (hloop _ _ _ _)) fun e => ?_
  cases e <;> trivial

theorem createCoupon_accounted (businessId : Option Id) (dto : CreateCouponDto) :
    Within Accounted (fun _ => True) true (CouponService.create businessId dto) :=
  .bind (within_query .refl _) fun _ => .bind (.ensure _ _) fun _ => .bind (.ensure _ _) fun _ =>
    within_prisma (create_coupon_accounted fun _ => ⟨rfl, rfl⟩)

theorem updateCoupon_accounted (couponId : Id) (dto : UpdateCouponDto) :
    Within Accounted (fun _ => True) true (CouponService.update couponId dto) :=
  .bind (within_query .refl _) fun _ => .bind (.orThrow _ _) fun _ =>
    within_prisma (update_coupon_accounted fun _ => ⟨rfl, rfl⟩)

/-- The requests that write coupons themselves. -/
def Request.Coupons : Request → Prop
  | createGlobalCoupon .. | updateAnyCoupon .. | business _ _ (.createCoupon _) | business _ _ (.updateCoupon ..) => True
  | _ => False

theorem Request.coupons_within {r : Request} (h : r.Coupons) : Within Accounted (fun _ => True) true r.serve := by
  cases r with
  | createGlobalCoupon user dto =>
    exact adminOnly_within .refl (fun _ => trivial) fun _ => createCoupon_accounted _ _
  | updateAnyCoupon user couponId dto =>
    exact adminOnly_within .refl (fun _ => trivial) fun _ => updateCoupon_accounted _ _
  | business user businessId route =>
    refine authenticated_within .refl (fun _ => trivial) fun _ => .bind (canActivate_within .refl _ _ _) fun _ => ?_
    cases route with
    | createCoupon dto => exact discard_within (createCoupon_accounted _ _)
    | updateCoupon couponId dto => exact discard_within (updateCoupon_accounted _ _)
    | _ => exact h.elim
  | _ => exact h.elim

/-- The coupons and their usages are left alone. -/
def CouponsAside (s s' : Store) : Prop := s'.coupon = s.coupon ∧ s'.couponUsage = s.couponUsage

theorem couponsAside_trans (s s' s'' : Store) (h : CouponsAside s s') (h' : CouponsAside s' s'') : CouponsAside s s'' :=
  ⟨h'.1.trans h.1, h'.2.trans h.2⟩

theorem Request.couponsAside {r : Request} (hcoupons : ¬ r.Coupons) (hhold : ∀ user dto, r ≠ .hold user dto) :
    Within CouponsAside (fun _ => True) true r.serve := by
  refine Request.serve_within (fun _ => ⟨rfl, rfl⟩) couponsAside_trans (fun _ => trivial) ?_
  cases r with
  | hold user dto => exact absurd rfl (hhold user dto)
  | createGlobalCoupon | updateAnyCoupon => exact absurd trivial hcoupons
  | business user businessId route =>
    cases route with
    | createCoupon | updateCoupon => exact absurd trivial hcoupons
    | _ => first
      | trivial
      | exact fun _ _ => ⟨rfl, rfl⟩
  | _ =>
    simp only [Request.Writes]
    and_intros
    all_goals first
      | trivial
      | exact fun _ _ => ⟨rfl, rfl⟩

theorem Request.accounting_owes (r : Request) (s : Store) : wp accounting anyway r.serve none [] s s := by
  by_cases hhold : ∃ user dto, r = .hold user dto
  · obtain ⟨user, dto, rfl⟩ := hhold
    refine wp_weaken (C := holding Accounted.refl accounted_trans user dto s) (fun _ => trivial) (fun h => h)
      (fun _ => trivial) (fun h => ?_) (fun h => Held.accounted h)
      (Request.hold_holding Accounted.refl accounted_trans accounted_mayLock user)
    obtain ⟨t, rfl⟩ := h
    exact accounted_mayLock _ t
  by_cases hrecurring : ∃ user dto, r = .createRecurring user dto
  · obtain ⟨user, dto, rfl⟩ := hrecurring
    exact Within.keeping (N := fun _ => True) (authenticated_within .refl (fun _ => trivial) fun _ =>
      createRecurring_accounted _ _)
  by_cases hcoupons : r.Coupons
  · exact (Request.coupons_within hcoupons).keeping
  push Not at hhold hrecurring
  have haside : wp (.doing CouponsAside fun _ => ⟨rfl, rfl⟩) anyway r.serve none [] s s :=
    (Request.couponsAside hcoupons hhold).doing couponsAside_trans
  refine wp_weaken (C := dealing.both (.doing CouponsAside fun _ => ⟨rfl, rfl⟩)) (fun _ => ⟨trivial, trivial⟩)
    (fun _ => ⟨trivial, trivial⟩) (fun _ => trivial) (fun h => ?_) (fun h => ?_) (wp_mono (fun _ _ _ _ _ _ => trivial) (wp_both (r.dealing_owes hhold hrecurring s) haside))
  · exact accounted_of_dealt h.1 h.2.1 h.2.2
  · exact accounted_of_dealt h.1 h.2.1 h.2.2

/-- Whatever requests meet, the count of every coupon is the number of its usages, every usage is the discount of a
booking of its own, and every discount has its usage; nobody uses a coupon twice. -/
theorem coupon_ledger {ι : Type} [DecidableEq ι] {r : ι → Request} {s₀ : Store}
    {allowed : Config ι Env Store Err Note Unit → ι → Env → Prop} {c : Config ι Env Store Err Note Unit}
    {past : List (ι × Store)} (h₀ : CouponLedger s₀)
    (hrun : Run allowed (.start (fun i => (r i).serve) s₀) c past) : CouponLedger c.store ∧
      ∀ u ∈ c.store.couponUsage.rows, ∀ u' ∈ c.store.couponUsage.rows,
        u.couponId = u'.couponId → u.userId = u'.userId → u = u' := by
  refine ⟨Run.kept (fun i => (r i).accounting_owes s₀) (fun _ _ h => h.ledger) h₀ hrun, fun u hu u' hu' hcoupon huser => ?_⟩
  exact Table.eq_of_clash hu hu' (by simp [Indexed.clash, hcoupon, huser])

end

/-- Both take their steps in turn, and both are given the discount. -/
theorem coupon_ledger_sale : ∃ (c : Config Bool Env Store Err Note Unit) (past : List (Bool × Store)),
    Run (fun _ _ _ => True) (.start (fun i => (saleHold i).serve) saleDay) c past ∧
    CouponLedger c.store ∧ c.store.couponUsage.rows.length = 2 := by
  obtain ⟨past, hrun⟩ := Run.follow .refl (Config.admits_all (.start (fun i => (saleHold i).serve) saleDay)
    ((List.replicate 22 [(true, .of 0 0), (false, .of 0 7)]).flatten))
  refine ⟨_, past, hrun, (coupon_ledger ⟨?_, ?_, ?_, ?_⟩ hrun).1, by decide +kernel⟩
  · intro c hc
    rw [List.mem_singleton.mp hc]
    rfl
  · exact fun u hu => absurd hu List.not_mem_nil
  · exact fun u hu => absurd hu List.not_mem_nil
  · exact fun b hb => absurd hb List.not_mem_nil

end BookingPlatform
