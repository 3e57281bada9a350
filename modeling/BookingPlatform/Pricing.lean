import BookingPlatform.Redemption
import Mathlib.Tactic.Linarith

/-! What a booking costs: price, discount and deposit, whatever is edited meanwhile. -/
namespace BookingPlatform
open Async Data Prog

/-! ### Prices -/

/-- What the decorators of the price fields let through and a column of twelve digits holds. -/
def PriceInRange (price : Money) : Prop := 0 ≤ price ∧ price < 10 ^ 12

def PercentInRange (percent : Percent) : Prop := 0 ≤ percent ∧ percent ≤ 10000

def Service.InRange (r : Service) : Prop := PriceInRange r.price ∧ ∀ q ∈ r.depositPercent, PercentInRange q

def CreateServiceDto.InRange (dto : CreateServiceDto) : Prop :=
  PriceInRange dto.price ∧ ∀ q ∈ dto.depositPercent, PercentInRange q

def UpdateServiceDto.InRange (dto : UpdateServiceDto) : Prop :=
  (∀ p ∈ dto.price, PriceInRange p) ∧ ∀ q ∈ dto.depositPercent, PercentInRange q

/-- The request has passed the validation of its body. -/
def Request.InRange : Request → Prop
  | business _ _ (.createService dto) => dto.InRange
  | business _ _ (.updateService _ dto) => dto.InRange
  | business _ _ (.createCoupon dto) | createGlobalCoupon _ dto => PriceInRange dto.value
  | business _ _ (.updateCoupon _ dto) | updateAnyCoupon _ _ dto => ∀ v ∈ dto.value, PriceInRange v
  | _ => True

/-- What the booking costs is what the service and the coupon said: the discount is in whole toman, to within half a toman
what the coupon promises, and capped at the price; the deposit is in hundredths, to within half of one the share of what is
left. On top of the half there is what doubles lose. -/
structure Priced (service : Service) (coupon : Option Coupon) (b : Booking) : Prop where
  of : b.serviceId = service.id
  price : b.priceSnapshot = service.price
  discount : 0 ≤ b.discountAmount ∧ b.discountAmount ≤ b.priceSnapshot
  deposit : 0 ≤ b.depositRequired ∧ b.depositRequired ≤ b.priceSnapshot - b.discountAmount
  undiscounted : coupon = none → b.discountAmount = 0
  code : ∀ c ∈ coupon, b.couponCode = some c.code
  percentage : ∀ c ∈ coupon, c.type = .percentage → ∃ toman : ℤ, b.discountAmount = min (100 * toman) b.priceSnapshot ∧
    |(1000000 * toman - b.priceSnapshot * c.value : ℚ)| ≤ 500000 + b.priceSnapshot * c.value / 2 ^ 49
  fixedAmount : ∀ c ∈ coupon, c.type = .fixedAmount → ∃ toman : ℤ, b.discountAmount = min (100 * toman) b.priceSnapshot ∧
    |100 * toman - c.value| ≤ 50
  free : service.requiresDeposit = false → b.depositRequired = 0
  share : service.requiresDeposit = true →
    |10000 * b.depositRequired - (b.priceSnapshot - b.discountAmount) * service.depositPercent.getD 0| ≤ 5020

section prices
variable {service : Service} {coupon : Coupon} {amount : Money} {b b' : Booking}

theorem Priced.mono {c : Option Coupon} (h : Priced service c b) (hdeal : b'.deal = b.deal) : Priced service c b' := by
  simp only [Booking.deal, Deal.mk.injEq] at hdeal
  obtain ⟨-, -, -, hservice, hcode, hprice, hdiscount, hdeposit⟩ := hdeal
  constructor
  · rw [hservice, h.of]
  · rw [hprice, h.price]
  · rw [hprice, hdiscount]
    exact h.discount
  · rw [hprice, hdiscount, hdeposit]
    exact h.deposit
  · rw [hdiscount]
    exact h.undiscounted
  · rw [hcode]
    exact h.code
  · rw [hprice, hdiscount]
    exact h.percentage
  · rw [hprice, hdiscount]
    exact h.fixedAmount
  · rw [hdeposit]
    exact h.free
  · rw [hprice, hdiscount, hdeposit]
    exact h.share

theorem Service.InRange.percent (hrange : service.InRange) : PercentInRange (service.depositPercent.getD 0) := by
  cases hq : service.depositPercent with
  | none => exact ⟨le_refl _, by decide⟩
  | some q => exact hrange.2 q hq

theorem PriceInRange.le {price : Money} (h : PriceInRange price) : |(price : ℚ)| ≤ price :=
  (abs_of_nonneg (by exact_mod_cast h.1)).le

/-- The deposit for a number that is off the amount by a few roundings. -/
theorem depositOf_share (hrange : service.InRange) {n : ℕ} (hn : n ≤ 6) {x : ℚ}
    (hx : Double.Off n (service.price / 100) x (amount / 100)) (hdeposit : service.requiresDeposit = true) :
    |10000 * BookingService.depositOf service x - amount * service.depositPercent.getD 0| ≤ 5020 := by
  obtain ⟨hlow, hhigh⟩ := hrange.percent
  have hclose := (((off_percent hx hn (service.depositPercent.getD 0)).scale (c := 100) (by norm_num)).rounded
    (by omega)).round_close (by omega)
  have hround : BookingService.depositOf service x = round (Double.of (Double.div (Double.mul x
      (toNumber (service.depositPercent.getD 0))) 100 * 100)) := by
    rw [BookingService.depositOf, if_pos hdeposit]
    rfl
  rw [← hround] at hclose
  generalize service.depositPercent.getD 0 = percent at hclose hlow hhigh ⊢
  have hprice : (service.price : ℚ) ≤ 10 ^ 12 := by exact_mod_cast hrange.1.2.le
  have hprice' : (0 : ℚ) ≤ service.price := by exact_mod_cast hrange.1.1
  have hpercent : |(percent : ℚ)| ≤ 10000 := by
    rw [abs_of_nonneg (by exact_mod_cast hlow)]
    exact_mod_cast hhigh
  have hsize := mul_le_mul hprice hpercent (abs_nonneg _) (by norm_num)
  have hscaled : ((10000 * BookingService.depositOf service x - amount * percent : ℤ) : ℚ) =
      (BookingService.depositOf service x - amount / 100 * (percent / 100) / 100 * 100) * 10000 := by
    push_cast
    ring
  have habs : |((10000 * BookingService.depositOf service x - amount * percent : ℤ) : ℚ)| ≤ 5020 := by
    rw [hscaled, abs_mul, abs_of_pos (by norm_num : (0 : ℚ) < 10000)]
    linarith
  exact_mod_cast habs

theorem depositOf_bounds (hrange : service.InRange) {n : ℕ} (hn : n ≤ 6) {x : ℚ}
    (hx : Double.Off n (service.price / 100) x (amount / 100)) (hamount : 0 ≤ amount) :
    0 ≤ BookingService.depositOf service x ∧ BookingService.depositOf service x ≤ amount := by
  by_cases hdeposit : service.requiresDeposit = true
  · have hshare := depositOf_share hrange hn hx hdeposit
    obtain ⟨hlow, hhigh⟩ := hrange.percent
    have hpos := Int.mul_nonneg hamount hlow
    have hcap := Int.mul_le_mul_of_nonneg_left hhigh hamount
    rw [abs_le] at hshare
    exact ⟨Int.le_of_lt_add_one (by linarith), Int.le_of_lt_add_one (by linarith)⟩
  · rw [BookingService.depositOf, if_neg hdeposit]
    exact ⟨le_refl _, hamount⟩

/-- The discount is in whole toman, and close to what the coupon promises. -/
theorem rawDiscount_percentage (hamount : 0 ≤ amount) (hvalue : 0 ≤ coupon.value) (htype : coupon.type = .percentage) :
    ∃ toman : ℤ, CouponService.rawDiscount coupon amount = 100 * toman ∧
      |(1000000 * toman - amount * coupon.value : ℚ)| ≤ 500000 + amount * coupon.value / 2 ^ 49 := by
  have hamount' : (0 : ℚ) ≤ amount := by exact_mod_cast hamount
  have hvalue' : (0 : ℚ) ≤ coupon.value := by exact_mod_cast hvalue
  have hclose := (off_percent (off_toNumber (z := amount) le_rfl) (by norm_num) coupon.value).round_close (by norm_num)
  rw [abs_of_nonneg hamount', abs_of_nonneg hvalue'] at hclose
  refine ⟨round (Double.div (Double.mul (toNumber amount) (toNumber coupon.value)) 100), ?_, ?_⟩
  · rw [CouponService.rawDiscount, htype]
    exact Int.mul_comm _ _
  · generalize round (Double.div (Double.mul (toNumber amount) (toNumber coupon.value)) 100) = toman at hclose ⊢
    have hscaled : (1000000 * toman - amount * coupon.value : ℚ) =
        (toman - amount / 100 * (coupon.value / 100) / 100) * 1000000 := by ring
    rw [hscaled, abs_mul, abs_of_pos (by norm_num : (0 : ℚ) < 1000000)]
    linarith

theorem rawDiscount_fixedAmount (hvalue : PriceInRange coupon.value) (htype : coupon.type = .fixedAmount) :
    ∃ toman : ℤ, CouponService.rawDiscount coupon amount = 100 * toman ∧ |100 * toman - coupon.value| ≤ 50 := by
  have hclose := (off_toNumber hvalue.le).round_close (by norm_num)
  refine ⟨round (toNumber coupon.value), ?_, ?_⟩
  · rw [CouponService.rawDiscount, htype]
    exact Int.mul_comm _ _
  · generalize round (toNumber coupon.value) = toman at hclose ⊢
    have hmax : (coupon.value : ℚ) ≤ 10 ^ 12 := by exact_mod_cast hvalue.2.le
    have hscaled : ((100 * toman - coupon.value : ℤ) : ℚ) = (toman - coupon.value / 100) * 100 := by
      push_cast
      ring
    have habs : |((100 * toman - coupon.value : ℤ) : ℚ)| < 51 := by
      rw [hscaled, abs_mul, abs_of_pos (by norm_num : (0 : ℚ) < 100)]
      linarith
    exact Int.le_of_lt_add_one (by exact_mod_cast habs)

theorem rawDiscount_nonneg (hvalue : PriceInRange coupon.value) (hamount : 0 ≤ amount) :
    0 ≤ CouponService.rawDiscount coupon amount := by
  cases htype : coupon.type with
  | percentage =>
    obtain ⟨toman, hraw, hclose⟩ := rawDiscount_percentage hamount hvalue.1 htype
    have hpos : (0 : ℚ) ≤ amount * coupon.value := by exact_mod_cast Int.mul_nonneg hamount hvalue.1
    have hlow : (-1 : ℚ) < toman := by linarith [(abs_le.mp hclose).1]
    have hnonneg : 0 ≤ toman := Int.le_of_sub_one_lt (by exact_mod_cast hlow)
    rw [hraw]
    exact Int.mul_nonneg (by norm_num) hnonneg
  | fixedAmount =>
    obtain ⟨toman, hraw, hclose⟩ := @rawDiscount_fixedAmount coupon amount hvalue htype
    have hlow := (abs_le.mp hclose).1
    have hnonneg : 0 ≤ toman := Int.le_of_lt_add_one (by linarith [hvalue.1])
    rw [hraw]
    exact Int.mul_nonneg (by norm_num) hnonneg

theorem priced_plain (hservice : service.InRange) (hid : b.serviceId = service.id) (hprice : b.priceSnapshot = service.price)
    (hdiscount : b.discountAmount = 0) {n : ℕ} (hn : n ≤ 6) {x : ℚ}
    (hx : Double.Off n (service.price / 100) x (service.price / 100))
    (hdeposit : b.depositRequired = BookingService.depositOf service x) : Priced service none b where
  of := hid
  price := hprice
  discount := by
    rw [hdiscount, hprice]
    exact ⟨le_refl _, hservice.1.1⟩
  deposit := by
    rw [hdiscount, hdeposit, hprice, sub_zero]
    exact depositOf_bounds hservice hn hx hservice.1.1
  undiscounted _ := hdiscount
  code := by simp
  percentage := by simp
  fixedAmount := by simp
  free hfree := by
    rw [hdeposit, BookingService.depositOf, hfree]
    rfl
  share hrequires := by
    rw [hdiscount, hdeposit, hprice, sub_zero]
    exact depositOf_share hservice hn hx hrequires

theorem off_discounted {discount : Money} (hrange : service.InRange) (hlow : 0 ≤ discount) (hhigh : discount ≤ service.price) :
    Double.Off 6 (service.price / 100) (Double.sub (toNumber service.price) (toNumber discount))
      ((service.price - discount : ℤ) / 100) := by
  have hlow' : (0 : ℚ) ≤ discount := by exact_mod_cast hlow
  have hhigh' : (discount : ℚ) ≤ service.price := by exact_mod_cast hhigh
  have hdiscount : |(discount : ℚ)| ≤ service.price := by rwa [abs_of_nonneg hlow']
  have hrest : |(service.price / 100 - discount / 100 : ℚ)| ≤ service.price / 100 := by
    rw [abs_le]
    constructor <;> linarith
  push_cast
  rw [sub_div]
  exact ((off_toNumber hrange.1.le).sub (off_toNumber hdiscount) hrest).rounded (by norm_num)

theorem priced_redeemed (hservice : service.InRange) (hvalue : PriceInRange coupon.value) (hid : b.serviceId = service.id)
    (hprice : b.priceSnapshot = service.price) (hcode : b.couponCode = some coupon.code)
    (hdiscount : b.discountAmount = min (CouponService.rawDiscount coupon service.price) service.price)
    (hdeposit : b.depositRequired = BookingService.depositOf service
      (Double.sub (toNumber service.price) (toNumber b.discountAmount))) : Priced service (some coupon) b := by
  have hbounds : 0 ≤ b.discountAmount ∧ b.discountAmount ≤ service.price := by
    rw [hdiscount]
    exact ⟨le_min (rawDiscount_nonneg hvalue hservice.1.1) hservice.1.1, min_le_right _ _⟩
  have hoff := off_discounted hservice hbounds.1 hbounds.2
  refine ⟨hid, hprice, by rwa [hprice], ?_, by simp, ?_, ?_, ?_, fun hfree => ?_, fun hrequires => ?_⟩
  · rw [hdeposit, hprice]
    exact depositOf_bounds hservice le_rfl hoff (sub_nonneg.mpr hbounds.2)
  · rintro c ⟨⟩
    exact hcode
  · rintro c ⟨⟩ htype
    obtain ⟨toman, hraw, hclose⟩ := rawDiscount_percentage hservice.1.1 hvalue.1 htype
    exact ⟨toman, by rw [hdiscount, hraw, hprice], by rwa [hprice]⟩
  · rintro c ⟨⟩ htype
    obtain ⟨toman, hraw, hclose⟩ := @rawDiscount_fixedAmount coupon service.price hvalue htype
    exact ⟨toman, by rw [hdiscount, hraw, hprice], hclose⟩
  · rw [hdeposit, BookingService.depositOf, hfree]
    rfl
  · rw [hdeposit, hprice]
    exact depositOf_share hservice le_rfl hoff hrequires

end prices

/-! ### Every run -/

/-- What is booked has a price that was asked for in one of the stores of `H`, or was booked before. -/
structure PriceList (H : Store → Prop) (s₀ s : Store) : Prop where
  service : ∀ r ∈ s.service.rows, r.InRange
  coupon : ∀ r ∈ s.coupon.rows, PriceInRange r.value
  booking : ∀ b ∈ s.booking.rows, (∃ b₀ ∈ s₀.booking.rows, b₀.deal = b.deal) ∨ ∃ service coupon,
    (∃ r, H r ∧ service ∈ r.service.rows) ∧ (∀ c ∈ coupon, ∃ r, H r ∧ c ∈ r.coupon.rows) ∧ Priced service coupon b

/-- The price list stays in order. -/
def Honest (H : Store → Prop) (s₀ s s' : Store) : Prop := PriceList H s₀ s → PriceList H s₀ s'

section
variable {H : Store → Prop} {s₀ s s' : Store}

theorem Honest.refl (s : Store) : Honest H s₀ s s := id

theorem honest_trans (s s' s'' : Store) (h : Honest H s₀ s s') (h' : Honest H s₀ s' s'') : Honest H s₀ s s'' :=
  fun hs => h' (h hs)

/-- The contract of every request. -/
abbrev pricing (H : Store → Prop) (s₀ : Store) : Contract Env Store Note :=
  .among (Honest H s₀) Honest.refl honest_trans H

/-- Services and coupons stay within their ranges. -/
structure Ranged (s s' : Store) : Prop where
  service : (∀ r ∈ s.service.rows, r.InRange) → ∀ r ∈ s'.service.rows, r.InRange
  coupon : (∀ r ∈ s.coupon.rows, PriceInRange r.value) → ∀ r ∈ s'.coupon.rows, PriceInRange r.value

theorem ranged_trans (s s' s'' : Store) (h : Ranged s s') (h' : Ranged s' s'') : Ranged s s'' :=
  ⟨fun hs => h'.service (h.service hs), fun hs => h'.coupon (h.coupon hs)⟩

theorem Ranged.refl (s : Store) : Ranged s s := ⟨id, id⟩

theorem honest_of_dealt (hdealt : Dealt s s') (hrange : Ranged s s') : Honest H s₀ s s' := by
  rintro ⟨hservice, hcoupon, hbooking⟩
  refine ⟨hrange.service hservice, hrange.coupon hcoupon, fun b' hb' => ?_⟩
  obtain ⟨b, hb, hdeal⟩ := hdealt.back b' hb'
  rcases hbooking b hb with ⟨b₀, hb₀, hdeal₀⟩ | ⟨service, coupon, hs, hc, hpriced⟩
  · exact .inl ⟨b₀, hb₀, hdeal₀.trans hdeal⟩
  · exact .inr ⟨service, coupon, hs, hc, hpriced.mono hdeal.symm⟩

/-- A table of neither services nor coupons. -/
theorem ranged_may {T : Type} [Model T] (h₁ : ∀ (s : Store) (t : Table T), (Model.set s t).service = s.service)
    (h₂ : ∀ (s : Store) (t : Table T), (Model.set s t).coupon = s.coupon) : May Ranged T := by
  intro s t
  constructor
  · rw [h₁]
    exact id
  · rw [h₂]
    exact id

theorem create_service_ranged {row : Id → Service} (hrow : ∀ id, (row id).InRange) :
    StmtWithin Ranged (create row) := by
  intro g s r s' h
  obtain ⟨-, t, ht, rfl⟩ := put_ok (create_ok h).2
  refine ⟨fun hs r' hr' => ?_, id⟩
  rcases (Table.mem_insert ht).mp hr' with hold | rfl
  · exact hs r' hold
  · rw [(create_ok h).1]
    exact hrow _

theorem update_service_ranged {p : Service → Bool} {f : Service → Service} {hf : Table.Keeps f}
    (hrange : ∀ r, r.InRange → (f r).InRange) : StmtWithin Ranged (update p f hf) := by
  intro g s r s' h
  rw [(update_ok h).2]
  refine ⟨fun hs r' hr' => ?_, id⟩
  obtain ⟨r₀, hr₀, rfl⟩ := (Table.mem_update hf).mp hr'
  split
  · exact hrange r₀ (hs r₀ hr₀)
  · exact hs r₀ hr₀

theorem create_coupon_ranged {row : Id → Coupon} (hrow : ∀ id, PriceInRange (row id).value) :
    StmtWithin Ranged (create row) := by
  intro g s r s' h
  obtain ⟨-, t, ht, rfl⟩ := put_ok (create_ok h).2
  refine ⟨id, fun hs r' hr' => ?_⟩
  rcases (Table.mem_insert ht).mp hr' with hold | rfl
  · exact hs r' hold
  · rw [(create_ok h).1]
    exact hrow _

theorem update_coupon_ranged {p : Coupon → Bool} {f : Coupon → Coupon} {hf : Table.Keeps f}
    (hrange : ∀ r, PriceInRange r.value → PriceInRange (f r).value) : StmtWithin Ranged (update p f hf) := by
  intro g s r s' h
  rw [(update_ok h).2]
  refine ⟨id, fun hs r' hr' => ?_⟩
  obtain ⟨r₀, hr₀, rfl⟩ := (Table.mem_update hf).mp hr'
  split
  · exact hrange r₀ (hs r₀ hr₀)
  · exact hs r₀ hr₀

theorem createCoupon_ranged (businessId : Option Id) {dto : CreateCouponDto} (hrange : PriceInRange dto.value) :
    Within Ranged (fun _ => True) true (CouponService.create businessId dto) :=
  .bind (within_query .refl _) fun _ => .bind (.ensure _ _) fun _ => .bind (.ensure _ _) fun _ =>
    within_prisma (create_coupon_ranged fun _ => hrange)

theorem updateCoupon_ranged (couponId : Id) {dto : UpdateCouponDto} (hrange : ∀ v ∈ dto.value, PriceInRange v) :
    Within Ranged (fun _ => True) true (CouponService.update couponId dto) := by
  refine .bind (within_query .refl _) fun _ => .bind (.orThrow _ _) fun _ =>
    within_prisma (update_coupon_ranged fun r hr => ?_)
  cases hv : dto.value with
  | none => simpa [CouponService.applied, hv] using hr
  | some v => simpa [CouponService.applied, hv] using hrange v hv

theorem createService_ranged (businessId : Id) {dto : CreateServiceDto} (hrange : dto.InRange) :
    Within Ranged (fun _ => True) true (ServiceCatalogService.create businessId dto) :=
  .bind (.ensure _ _) fun _ => .bind (.mark trivial) fun _ => within_prisma (create_service_ranged fun _ => hrange)

theorem updateService_ranged (businessId serviceId : Id) {dto : UpdateServiceDto} (hrange : dto.InRange) :
    Within Ranged (fun _ => True) true (ServiceCatalogService.update businessId serviceId dto) := by
  refine .bind (assertService_within .refl _ _) fun _ => .bind (.mark trivial) fun _ =>
    within_prisma (update_service_ranged fun r hr => ⟨?_, ?_⟩)
  · cases hp : dto.price with
    | none => exact hr.1
    | some p => exact hrange.1 p hp
  · intro q hq
    cases hpercent : dto.depositPercent with
    | none =>
      rw [hpercent] at hq
      exact hr.2 q hq
    | some q' =>
      rw [hpercent] at hq
      exact hrange.2 q (hpercent.trans hq)

/-- A request whose body was validated, and which redeems nothing. -/
theorem Request.serve_ranged {r : Request} (h : r.InRange) (hhold : ∀ user dto, r ≠ .hold user dto) :
    Within Ranged (fun _ => True) true r.serve := by
  have hmay {T : Type} [Model T] (h₁ : ∀ (s : Store) (t : Table T), (Model.set s t).service = s.service)
      (h₂ : ∀ (s : Store) (t : Table T), (Model.set s t).coupon = s.coupon) : May Ranged T := ranged_may h₁ h₂
  have hlock : MayLock Ranged := fun _ _ => ⟨id, id⟩
  cases r with
  | hold user dto => exact absurd rfl (hhold user dto)
  | createGlobalCoupon user dto => exact adminOnly_within .refl (fun _ => trivial) fun _ => createCoupon_ranged _ h
  | updateAnyCoupon user couponId dto => exact adminOnly_within .refl (fun _ => trivial) fun _ => updateCoupon_ranged _ h
  | business user businessId route =>
    refine authenticated_within .refl (fun _ => trivial) fun _ => .bind (canActivate_within .refl _ _ _) fun _ => ?_
    cases route with
    | createService dto => exact discard_within (createService_ranged _ h)
    | updateService serviceId dto => exact discard_within (updateService_ranged _ _ h)
    | createCoupon dto => exact discard_within (createCoupon_ranged _ h)
    | updateCoupon couponId dto => exact discard_within (updateCoupon_ranged _ h)
    | _ =>
      refine handle_within .refl ranged_trans (.inr fun _ => trivial) _ ?_
      first
      | trivial
      | exact ranged_may (fun _ _ => rfl) fun _ _ => rfl
  | _ =>
    refine Request.serve_within .refl ranged_trans (fun _ => trivial) ?_
    simp only [Request.Writes]
    and_intros
    all_goals first
      | trivial
      | exact hlock
      | exact ranged_may (fun _ _ => rfl) fun _ _ => rfl

/-! ### Bookings that are made -/

theorem honest_booked {b : Booking} (hb : s.booking.insert b = some s'.booking) (hservice : s'.service = s.service)
    (hcoupon : ∀ r' ∈ s'.coupon.rows, ∃ r ∈ s.coupon.rows, r'.value = r.value)
    (hpriced : PriceList H s₀ s → ∃ service coupon, (∃ r, H r ∧ service ∈ r.service.rows) ∧
      (∀ c ∈ coupon, ∃ r, H r ∧ c ∈ r.coupon.rows) ∧ Priced service coupon b) : Honest H s₀ s s' := by
  intro h
  refine ⟨hservice ▸ h.service, fun r' hr' => ?_, fun b' hb' => ?_⟩
  · obtain ⟨r, hr, hvalue⟩ := hcoupon r' hr'
    rw [hvalue]
    exact h.coupon r hr
  · rcases (Table.mem_insert hb).mp hb' with hold | rfl
    · exact h.booking b' hold
    · exact .inr (hpriced h)

/-- What a request may count on: the price list stays in order, and every store is one of `H`. -/
def HonestAmong (H : Store → Prop) (s₀ s s' : Store) : Prop := Honest H s₀ s s' ∧ (H s → H s')

theorem honestAmong_trans (s s' s'' : Store) (h : HonestAmong H s₀ s s') (h' : HonestAmong H s₀ s' s'') :
    HonestAmong H s₀ s s'' := ⟨honest_trans _ _ _ h.1 h'.1, fun hs => h'.2 (h.2 hs)⟩

theorem Redeems.booked {userId : Id} {dto : HoldBookingDto} {business : Business} {service : Service} {coupon : Coupon}
    (h : Redeems userId dto business service coupon s s') : ∃ now id, s.booking.insert (heldRow now id userId dto business
      service (min (CouponService.rawDiscount coupon service.price) service.price)) = some s'.booking ∧
      s'.service = s.service ∧ ∀ r' ∈ s'.coupon.rows, ∃ r ∈ s.coupon.rows, r'.value = r.value := by
  obtain ⟨now, g₁, g₂, g₃, g₄, u, c, b, u', v₁, v₂, v₃, hu, hc, hb, hu'⟩ := h
  obtain ⟨-, tu, -, rfl⟩ := put_ok (create_ok hu).2
  rw [(update_ok hc).2] at hb
  obtain ⟨rfl, hput⟩ := create_ok hb
  obtain ⟨-, tb, htb, rfl⟩ := put_ok hput
  rw [(update_ok hu').2]
  refine ⟨now, g₃.newId 0, htb, rfl, fun r' hr' => ?_⟩
  obtain ⟨r, hr, rfl⟩ := (Table.mem_update redeemed_keeps).mp hr'
  refine ⟨r, hr, ?_⟩
  split <;> rfl

theorem Held.honest {userId : Id} {dto : HoldBookingDto} (h₀ : PriceList H s₀ s₀) (hs₀ : H s₀)
    (h : Held (HonestAmong H s₀) userId dto s₀ s s') : Honest H s₀ s s' := by
  have seen {P : Store → Prop} (hseen : Seen (HonestAmong H s₀) s₀ s P) : ∃ r, H r ∧ PriceList H s₀ r ∧ P r := by
    obtain ⟨r, hr, -, hP⟩ := hseen
    exact ⟨r, hr.2 hs₀, hr.1 h₀, hP⟩
  cases h with
  | plain business service now g b hservice hb =>
    obtain ⟨r, hr, hlist, hmem, hid⟩ := seen hservice
    obtain ⟨rfl, hput⟩ := create_ok hb
    obtain ⟨-, t, ht, rfl⟩ := put_ok hput
    refine honest_booked ht rfl (fun r' hr' => ⟨r', hr', rfl⟩) fun _ => ⟨service, none, ⟨r, hr, hmem⟩, by simp, ?_⟩
    have hrange := hlist.service _ hmem
    have hoff := @off_discounted service 0 hrange le_rfl hrange.1.1
    rw [sub_zero] at hoff
    exact priced_plain hrange hid.symm rfl rfl le_rfl hoff rfl
  | redeemed business service coupon hservice hcoupon hcode hfor hredeems =>
    obtain ⟨r, hr, hlist, hmem, hid⟩ := seen hservice
    obtain ⟨r', hr', hlist', hmem'⟩ := seen hcoupon
    obtain ⟨now, id, hb, hsame, hvalues⟩ := hredeems.booked
    refine honest_booked hb hsame hvalues fun _ => ⟨service, some coupon, ⟨r, hr, hmem⟩, ?_, ?_⟩
    · rintro c ⟨⟩
      exact ⟨r', hr', hmem'⟩
    · exact priced_redeemed (hlist.service _ hmem) (hlist'.coupon _ hmem') hid.symm rfl hcode rfl rfl

theorem Request.hold_honest {user : Id} {dto : HoldBookingDto} (h₀ : PriceList H s₀ s₀) (hs₀ : H s₀)
    (hlocks : ∀ s t, H s → H (s.withLocks t)) :
    wp (pricing H s₀) anyway (Request.hold user dto).serve none [] s₀ s₀ := by
  have hlock (s : Store) (t : Table Lock) : Honest H s₀ s (s.withLocks t) :=
    honest_of_dealt (SameDeals.refl _) ⟨id, id⟩
  refine wp_weaken (C := holding (fun s => ⟨Honest.refl s, id⟩) honestAmong_trans user dto s₀) (fun _ => trivial)
    (fun h => h) (fun _ => trivial) (fun h => ?_) (fun h => h.honest h₀ hs₀)
    (Request.hold_holding _ honestAmong_trans (fun s t => ⟨hlock s t, hlocks s t⟩) user)
  obtain ⟨t, rfl⟩ := h
  exact hlock _ t

/-- All sessions are sold at the price that was read before the first. -/
theorem createOccurrences_honest {userId : Id} {dto : CreateRecurringBookingDto} {business : Business} {service : Service}
    {group : Id} {times : List Time} {r : Store} (hr : H r) (hmem : service ∈ r.service.rows) (hrange : service.InRange)
    (hid : service.id = dto.serviceId) : Within (Honest H s₀) (fun _ => True) true
      (BookingService.createOccurrences userId dto business service group times) := by
  induction times with
  | nil => exact .pure _
  | cons startTime rest ih =>
    refine .bind (assertSlotFree_within .refl (fun _ => trivial) _ _ _ _ _) fun _ => .bind (within_look .refl _) fun _ =>
      .bind (within_tx fun g s b s' hb => ?_) fun _ => .bind ih fun _ => .pure _
    obtain ⟨rfl, hput⟩ := create_ok hb
    obtain ⟨-, t, ht, rfl⟩ := put_ok hput
    refine honest_booked ht rfl (fun r' hr' => ⟨r', hr', rfl⟩) fun _ => ⟨service, none, ⟨r, hr, hmem⟩, by simp, ?_⟩
    exact priced_plain hrange hid.symm rfl rfl (by norm_num) (off_toNumber hrange.1.le) rfl

theorem Request.createRecurring_honest {user : Id} {dto : CreateRecurringBookingDto} (h₀ : PriceList H s₀ s₀) (hs₀ : H s₀) :
    wp (pricing H s₀) anyway (Request.createRecurring user dto).serve none [] s₀ s₀ := by
  refine (wp_bind _ _).mpr ((wp_bind _ _).mpr (wp_query (fun g s₁ h₁ => ?_) fun _ _ => trivial))
  refine (wp_bind _ _).mpr ((wp_orThrow _ _).mpr ⟨fun u hu => ?_, fun _ => trivial⟩)
  refine (wp_bind _ _).mpr ((wp_mark _).mpr ⟨trivial, ?_⟩)
  refine (wp_bind _ _).mpr ((wp_bind _ _).mpr (wp_loadAndValidateContext (fun _ _ => trivial)
    fun business service s₂ hservice => ?_))
  obtain ⟨r, hr, -, hmem, hid⟩ := Seen.earlier (G := HonestAmong H s₀) honestAmong_trans hservice h₁
  have hloop (group : Id) (times : List Time) : Within (Honest H s₀) (fun _ => True) true
      (BookingService.createOccurrences u.id dto business service group times) :=
    createOccurrences_honest (hr.2 hs₀) hmem ((hr.1 h₀).service _ hmem) hid
  refine wp_mono (fun r _ _ _ _ _ => by cases r <;> trivial) (Within.wp (N := fun _ => True) ?_ Honest.refl honest_trans
    (fun _ _ _ h => h) (fun _ _ _ h => h) fun _ _ _ _ _ => trivial)
  refine .bind (within_look .refl _) fun group => .tryCatch (within_transaction .refl (hloop _ _)) fun e => ?_
  cases e <;> trivial

/-- Every request whose body was validated. -/
theorem Request.pricing_owes {r : Request} (hr : r.InRange) (h₀ : PriceList H s₀ s₀) (hs₀ : H s₀)
    (hlocks : ∀ s t, H s → H (s.withLocks t)) : wp (pricing H s₀) anyway r.serve none [] s₀ s₀ := by
  by_cases hhold : ∃ user dto, r = .hold user dto
  · obtain ⟨user, dto, rfl⟩ := hhold
    exact Request.hold_honest h₀ hs₀ hlocks
  by_cases hrecurring : ∃ user dto, r = .createRecurring user dto
  · obtain ⟨user, dto, rfl⟩ := hrecurring
    exact Request.createRecurring_honest h₀ hs₀
  push Not at hhold hrecurring
  have hranged : wp (.doing Ranged Ranged.refl) anyway r.serve none [] s₀ s₀ :=
    (Request.serve_ranged hr hhold).doing ranged_trans
  refine wp_weaken (C := dealing.both (.doing Ranged Ranged.refl)) (fun _ => ⟨trivial, trivial⟩)
    (fun _ => ⟨trivial, trivial⟩) (fun _ => trivial) (fun h => honest_of_dealt h.1 h.2)
    (fun h => honest_of_dealt h.1 h.2) (wp_mono (fun _ _ _ _ _ _ => trivial)
      (wp_both (r.dealing_owes hhold hrecurring s₀) hranged))

end

/-- In every run of validated requests each booking that was made costs what its service and its coupon said at some
moment of the run: the discount is within the price, the deposit within what is left. -/
theorem prices_of_run {ι : Type} [DecidableEq ι] {r : ι → Request} {s₀ : Store}
    {allowed : Config ι Env Store Err Note Unit → ι → Env → Prop} {c : Config ι Env Store Err Note Unit}
    {past : List (ι × Store)} (hr : ∀ i, (r i).InRange) (hservice : ∀ r ∈ s₀.service.rows, r.InRange)
    (hcoupon : ∀ r ∈ s₀.coupon.rows, PriceInRange r.value)
    (hrun : Run allowed (.start (fun i => (r i).serve) s₀) c past) :
    ∀ b ∈ c.store.booking.rows, (∃ b₀ ∈ s₀.booking.rows, b₀.deal = b.deal) ∨ ∃ service coupon,
      (∃ s ∈ c.store :: past.map Prod.snd, service ∈ s.service.rows) ∧
      (∀ k ∈ coupon, ∃ s ∈ c.store :: past.map Prod.snd, k ∈ s.coupon.rows) ∧ Priced service coupon b := by
  -- Of a store only the services and coupons matter here, and taking a lock does not change them.
  let H (s : Store) : Prop := ∃ s' ∈ c.store :: past.map Prod.snd, s.service = s'.service ∧ s.coupon = s'.coupon
  have hmet : ∀ s ∈ c.store :: past.map Prod.snd, H s := fun s hs => ⟨s, hs, rfl, rfl⟩
  have h₀ : PriceList H s₀ s₀ := ⟨hservice, hcoupon, fun b hb => .inl ⟨b, hb, rfl⟩⟩
  have howes (i : ι) : wp (pricing H s₀) anyway (r i).serve none [] s₀ s₀ :=
    (r i).pricing_owes (hr i) h₀ (hmet s₀ hrun.start_mem) fun s t hs => hs
  intro b hb
  rcases ((Run.among howes hrun hmet).1 s₀ hrun.start_mem h₀).booking b hb with hold | ⟨service, coupon, ⟨s, hs, hmem⟩, hcoupons, hpriced⟩
  · exact .inl hold
  · obtain ⟨s', hs', hsame, -⟩ := hs
    refine .inr ⟨service, coupon, ⟨s', hs', hsame ▸ hmem⟩, fun k hk => ?_, hpriced⟩
    obtain ⟨s, ⟨s', hs', -, hsame⟩, hmem⟩ := hcoupons k hk
    exact ⟨s', hs', hsame ▸ hmem⟩

/-- A fifth off and three tenths of the rest to be paid in advance, for both customers at once. -/
theorem prices_of_run_sale : ∃ (c : Config Bool Env Store Err Note Unit) (past : List (Bool × Store)),
    Run (fun _ _ _ => True) (.start (fun i => (saleHold i).serve) saleDay) c past ∧
    ∃ b ∈ c.store.booking.rows, (b.priceSnapshot, b.discountAmount, b.depositRequired) = (10000, 2000, 2400) ∧
      ∃ service coupon, Priced service (some coupon) b := by
  obtain ⟨past, hrun⟩ := Run.follow .refl (Config.admits_all (.start (fun i => (saleHold i).serve) saleDay)
    ((List.replicate 22 [(true, .of 0 0), (false, .of 0 7)]).flatten))
  have hbooked : ∃ b ∈ ((Config.start (fun i => (saleHold i).serve) saleDay).follow
      ((List.replicate 22 [(true, Env.of 0 0), (false, Env.of 0 7)]).flatten)).store.booking.rows,
      (b.priceSnapshot, b.discountAmount, b.depositRequired) = (10000, 2000, 2400) := by
    decide +kernel
  obtain ⟨b, hb, hamounts⟩ := hbooked
  refine ⟨_, past, hrun, b, hb, hamounts, ?_⟩
  have hservice : ∀ r ∈ saleDay.service.rows, r.InRange := by
    intro r hr
    rw [List.mem_singleton.mp hr]
    refine ⟨⟨by decide, by decide⟩, ?_⟩
    rintro q ⟨⟩
    exact ⟨by decide, by decide⟩
  have hcoupon : ∀ r ∈ saleDay.coupon.rows, PriceInRange r.value := by
    intro r hr
    rw [List.mem_singleton.mp hr]
    exact ⟨by decide, by decide⟩
  rcases prices_of_run (r := saleHold) (fun _ => trivial) hservice hcoupon hrun b hb with
    ⟨b₀, hb₀, -⟩ | ⟨service, coupon, -, -, hpriced⟩
  · exact absurd hb₀ List.not_mem_nil
  · simp only [Prod.mk.injEq] at hamounts
    cases coupon with
    | none => simp [hpriced.undiscounted rfl] at hamounts
    | some coupon => exact ⟨service, coupon, hpriced⟩

end BookingPlatform
