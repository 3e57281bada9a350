import BookingPlatform.Deals
import BookingPlatform.Offer

/-! What `hold` commits when others are at work: a booking, and what its coupon gives for it. -/
namespace BookingPlatform
open Async Data Prog

/-- At some moment between the two stores it was so. -/
def Seen (G : Store → Store → Prop) (s₀ s : Store) (P : Store → Prop) : Prop := ∃ r, G s₀ r ∧ G r s ∧ P r

/-- The row that a redemption adds. -/
def usageRow (userId : Id) (coupon : Coupon) (service : Service) (id : Id) : CouponUsage where
  id := id
  couponId := coupon.id
  userId := userId
  discountAmount := min (CouponService.rawDiscount coupon service.price) service.price

/-- The coupon is given out by the business, or by the platform. -/
def Coupon.For (coupon : Coupon) (businessId : Id) : Prop :=
  truthyId coupon.businessId = none ∨ coupon.businessId = some businessId

/-- Counting a redemption changes no key of the coupon. -/
theorem redeemed_keeps : Table.Keeps fun r : Coupon => { r with usageCount := r.usageCount + 1 } := by
  intro _ _
  rfl

/-- Naming the booking changes no key of the usage. -/
theorem linked_keeps {bookingId : Id} : Table.Keeps fun r : CouponUsage => { r with bookingId := some bookingId } := by
  intro _ _
  rfl

/-- The writes of a hold with a coupon, in their order. -/
def Redeems (userId : Id) (dto : HoldBookingDto) (business : Business) (service : Service) (coupon : Coupon)
    (s s' : Store) : Prop := ∃ now g₁ g₂ g₃ g₄ u c b u' v₁ v₂ v₃,
    create (usageRow userId coupon service) g₁ s = .ok (u, v₁) ∧
    update (fun r : Coupon => r.id == coupon.id) (fun r => { r with usageCount := r.usageCount + 1 })
      redeemed_keeps g₂ v₁ = .ok (c, v₂) ∧
    create (fun id => heldRow now id userId dto business service
      (min (CouponService.rawDiscount coupon service.price) service.price)) g₃ v₂ = .ok (b, v₃) ∧
    update (fun r : CouponUsage => r.couponId == coupon.id && r.userId == userId)
      (fun r => { r with bookingId := some b.id }) linked_keeps g₄ v₃ = .ok (u', s')

/-- What `hold` may commit, by what it has seen since it began. -/
inductive Held (G : Store → Store → Prop) (userId : Id) (dto : HoldBookingDto) (s₀ s s' : Store) : Prop
  | plain (business : Business) (service : Service) (now : Time) (g : Env) (b : Booking) :
      Seen G s₀ s (fun r => service ∈ r.service.rows ∧ service.id = dto.serviceId) →
      create (fun id => heldRow now id userId dto business service 0) g s = .ok (b, s') → Held G userId dto s₀ s s'
  | redeemed (business : Business) (service : Service) (coupon : Coupon) :
      Seen G s₀ s (fun r => service ∈ r.service.rows ∧ service.id = dto.serviceId) →
      Seen G s₀ s (fun r => coupon ∈ r.coupon.rows) → dto.couponCode = some coupon.code →
      coupon.For dto.businessId → Redeems userId dto business service coupon s s' → Held G userId dto s₀ s s'

section seen
variable {G : Store → Store → Prop} {s₀ s s' : Store} {P P' : Store → Prop}

theorem Seen.later (htrans : ∀ s s' s'', G s s' → G s' s'' → G s s'') (h : Seen G s₀ s P) (hs : G s s') :
    Seen G s₀ s' P := by
  obtain ⟨r, hr, hr', hP⟩ := h
  exact ⟨r, hr, htrans _ _ _ hr' hs, hP⟩

theorem Seen.earlier (htrans : ∀ s s' s'', G s s' → G s' s'' → G s s'') (h : Seen G s s' P) (hs : G s₀ s) :
    Seen G s₀ s' P := by
  obtain ⟨r, hr, hr', hP⟩ := h
  exact ⟨r, htrans _ _ _ hs hr, hr', hP⟩

end seen

section rules
variable {C : Contract Env Store Note} {ns : List Note} {s₀ s : Store}

/-- The service that `loadAndValidateContext` returns was there. -/
theorem wp_loadAndValidateContext {Q : Post Store Err Note (Business × Service)} {businessId branchId serviceId : Id}
    {staffMemberId : Option Id} (herr : ∀ e s₁, Q (.error e) none ns s₁ s₁)
    (hok : ∀ business service s₁,
      Seen C.rely s s₁ (fun r => service ∈ r.service.rows ∧ service.id = serviceId) →
        Q (.ok (business, service)) none ns s₁ s₁) :
    wp C Q (BookingService.loadAndValidateContext businessId branchId serviceId staffMemberId) none ns s₀ s := by
  refine (wp_bind _ _).mpr (wp_query (fun g s₁ h₁ => ?_) fun _ _ => herr _ _)
  refine (wp_bind _ _).mpr ((wp_orThrow _ _).mpr ⟨fun business _ => ?_, fun _ => herr _ _⟩)
  refine (wp_bind _ _).mpr (wp_query (fun g s₂ h₂ => ?_) fun _ _ => herr _ _)
  refine (wp_bind _ _).mpr ((wp_orThrow _ _).mpr ⟨fun branch _ => ?_, fun _ => herr _ _⟩)
  refine (wp_bind _ _).mpr (wp_query (fun g s₃ h₃ => ?_) fun _ _ => herr _ _)
  refine (wp_bind _ _).mpr ((wp_orThrow _ _).mpr ⟨fun service hservice => ?_, fun _ => herr _ _⟩)
  obtain ⟨hmem, hp⟩ := findFirst_some hservice
  simp only [Bool.and_eq_true, beq_iff_eq] at hp
  have hseen {s₄ : Store} (h : C.rely s₃ s₄) :
      Seen C.rely s s₄ (fun r => service ∈ r.service.rows ∧ service.id = serviceId) :=
    ⟨s₃, C.rely_trans (C.rely_trans h₁ h₂) h₃, h, hmem, hp.1.1⟩
  rw [wp_onOk_ok]
  split
  · refine (wp_bind _ _).mpr (wp_query (fun g s₄ h₄ => ?_) fun _ _ => herr _ _)
    refine (wp_bind _ _).mpr ((wp_orThrow _ _).mpr ⟨fun staff _ => ?_, fun _ => herr _ _⟩)
    exact hok _ _ _ (hseen h₄)
  · exact hok _ _ _ (hseen (C.rely_refl _))

variable {w : Store → Except Err Store} {S : Store → Store → Prop}

/-- The coupon of a redemption was there, and for this business. -/
theorem wp_checkAndCompute {Q : Post Store Err Note CouponCheckResult} {code : String} {userId businessId : Id}
    {amount : Money} (hnote : ∀ ns x s s', C.note ns x s s') (hw : Pending S w) (hS : ∀ s v, S s v → v.coupon = s.coupon)
    (herr : ∀ e w ns s₁, Q (.error e) w ns s₁ s₁)
    (hok : ∀ coupon w' ns s₁, Pending S w' → Seen C.rely s s₁ (fun r => coupon ∈ r.coupon.rows) →
      coupon.code = code → coupon.For businessId →
        Q (.ok ⟨coupon.id, min (CouponService.rawDiscount coupon amount) amount⟩) (some w') ns s₁ s₁) :
    wp C Q (CouponService.checkAndCompute code userId (some businessId) amount) (some w) ns s₀ s := by
  refine (wp_bind _ _).mpr (wp_query_tx hw (fun g s₁ v h₁ _ hv w₁ hw₁ _ => ?_) fun _ _ _ => herr _ _ _ _)
  refine (wp_bind _ _).mpr ((wp_orThrow _ _).mpr ⟨fun coupon hcoupon => ?_, fun _ => herr _ _ _ _⟩)
  obtain ⟨hmem, hcode⟩ := findUnique_some (Option.filter_eq_some_iff.mp hcoupon).1
  replace hmem : coupon ∈ s₁.coupon.rows := hS _ _ hv ▸ hmem
  refine (wp_bind _ _).mpr ((wp_mark _).mpr ⟨hnote _ _ _ _, ?_⟩)
  refine (wp_bind _ _).mpr (wp_look_tx hw₁ (fun g s₂ h₂ w₂ hw₂ => ?_) fun _ _ _ => herr _ _ _ _)
  refine (wp_bind _ _).mpr ((wp_ensure _ _).mpr ⟨fun _ => ?_, fun _ => herr _ _ _ _⟩)
  refine (wp_bind _ _).mpr ((wp_ensure _ _).mpr ⟨fun hfor => ?_, fun _ => herr _ _ _ _⟩)
  refine (wp_bind _ _).mpr ((wp_ensure _ _).mpr ⟨fun _ => ?_, fun _ => herr _ _ _ _⟩)
  refine (wp_bind _ _).mpr ((wp_ensure _ _).mpr ⟨fun _ => ?_, fun _ => herr _ _ _ _⟩)
  refine (wp_bind _ _).mpr (wp_query_tx hw₂ (fun g s₃ v₃ h₃ _ _ w₃ hw₃ _ => ?_) fun _ _ _ => herr _ _ _ _)
  refine (wp_bind _ _).mpr ((wp_ensure _ _).mpr ⟨fun _ => ?_, fun _ => herr _ _ _ _⟩)
  exact hok coupon w₃ _ s₃ hw₃ ⟨s₁, h₁, C.rely_trans h₂ h₃, hmem⟩ (beq_iff_eq.mp hcode) hfor

end rules

section hold
variable {G : Store → Store → Prop} (hrefl : ∀ s, G s s) (htrans : ∀ s s' s'', G s s' → G s' s'' → G s s'')
  (userId : Id) (dto : HoldBookingDto) (s₀ : Store)

/-- The contract of a hold: the lock is taken and given back, and what is committed is a booking. -/
def holding : Contract Env Store Note where
  env _ _ := True
  rely := G
  rely_refl := hrefl
  rely_trans {s s' s''} := htrans s s' s''
  note _ _ _ _ := True
  auto _ s s' := ∃ t, s' = s.withLocks t
  commit _ s s' := Held G userId dto s₀ s s'
  read _ s := ⟨s.lock, rfl⟩

variable {userId dto s₀} {ns : List Note} {s s₁ : Store} {business : Business} {service : Service}

theorem bookSlot_holding (hs : G s₀ s)
    (hservice : Seen G s₀ s fun r => service ∈ r.service.rows ∧ service.id = dto.serviceId) :
    wp (holding hrefl htrans userId dto s₀) anyway (bookSlot userId dto business service) none ns s₁ s := by
  unfold bookSlot
  apply wp_transaction
  swap
  · intro e s₁
    trivial
  intro s₂ h₂
  have hbegin : Pending (fun s v : Store => v = s) (Except.ok : Store → Except Err Store) := by
    rintro s v ⟨⟩
    rfl
  have hreads : Within (fun s s' : Store => s' = s) (fun _ => True) false
      (BookingService.assertSlotFree dto.branchId dto.staffMemberId dto.startTime
        (dto.startTime + service.durationMinutes.ms) none) :=
    assertSlotFree_within (R := fun s s' => s' = s) (fun _ => rfl) (fun _ => trivial) _ _ _ _ _
  refine (wp_bind _ _).mpr (hreads.wp_tx hbegin (fun s v v' hv hv' => hv'.trans hv) (fun _ _ _ _ _ => trivial)
    fun r w₁ ns₁ s₁' s₃ h₃ hw₁ _ => ?_)
  cases r with
  | error e => trivial
  | ok _ =>
    have hs₃ : G s₀ s₃ := htrans _ _ _ hs (htrans _ _ _ h₂ h₃)
    have hservice₃ : Seen G s₀ s₃ (fun r => service ∈ r.service.rows ∧ service.id = dto.serviceId) :=
      hservice.later htrans (htrans _ _ _ h₂ h₃)
    rw [wp_onOk_ok]
    unfold BookingService.redeemFor
    cases hcode : truthyText dto.couponCode with
    | none =>
      dsimp only
      refine (wp_bind _ _).mpr ((wp_pure _).mpr ?_)
      refine (wp_bind _ _).mpr (wp_look_tx hw₁ (fun g s₄ h₄ w₂ hw₂ => ?_) fun _ _ _ => trivial)
      refine (wp_bind _ _).mpr (wp_tx hw₂ (fun g s₅ v b v' h₅ _ _ hb w₃ hw₃ _ => ?_) fun _ _ _ => trivial)
      rw [wp_onOk_ok]
      intro g' s₆ s₇ _ h₆ hs₇
      refine ⟨?_, trivial⟩
      obtain ⟨v₆, b', rfl, hb'⟩ := hw₃ s₆ s₇ hs₇
      exact .plain business service _ _ _ (hservice₃.later htrans (htrans _ _ _ (htrans _ _ _ h₄ h₅) h₆)) hb'
    | some code =>
      obtain ⟨hcode, -⟩ := Option.filter_eq_some_iff.mp hcode
      dsimp only
      unfold CouponService.checkAndRedeem
      refine (wp_bind _ _).mpr ((wp_bind _ _).mpr ((wp_bind _ _).mpr (wp_checkAndCompute (fun _ _ _ _ => trivial) hw₁
        (fun s v hv => congrArg Store.coupon hv) (fun _ _ _ _ => trivial)
        fun coupon w₂ ns₂ s₄ hw₂ hseen hsame hfor => ?_)))
      rw [wp_onOk_ok]
      refine (wp_bind _ _).mpr (wp_tx hw₂ (fun g₁ s₅ v u v₁ h₅ _ _ hu w₃ hw₃ _ => ?_) fun _ _ _ => trivial)
      refine (wp_bind _ _).mpr (wp_tx hw₃ (fun g₂ s₆ v c v₂ h₆ _ _ hc w₄ hw₄ _ => ?_) fun _ _ _ => trivial)
      simp only [wp_onOk_ok, wp_pure]
      refine (wp_bind _ _).mpr (wp_look_tx hw₄ (fun g s₇ h₇ w₅ hw₅ => ?_) fun _ _ _ => trivial)
      refine (wp_bind _ _).mpr (wp_tx hw₅ (fun g₃ s₈ v b v₃ h₈ _ _ hb w₆ hw₆ _ => ?_) fun _ _ _ => trivial)
      rw [wp_onOk_ok]
      refine (wp_bind _ _).mpr ((wp_bind _ _).mpr (wp_tx hw₆ (fun g₄ s₉ v u' v₄ h₉ _ _ hu' w₇ hw₇ _ => ?_)
        fun _ _ _ => trivial))
      simp only [wp_onOk_ok, wp_pure]
      intro g' s₁₀ s₁₁ _ h₁₀ hs₁₁
      refine ⟨?_, trivial⟩
      have hafter : G s₄ s₁₀ :=
        htrans _ _ _ h₅ (htrans _ _ _ h₆ (htrans _ _ _ h₇ (htrans _ _ _ h₈ (htrans _ _ _ h₉ h₁₀))))
      have hbefore : G s₃ s₄ := by
        obtain ⟨r, hr, hr', -⟩ := hseen
        exact htrans _ _ _ hr hr'
      obtain ⟨v₃', u₃, ⟨v₂', b', ⟨v₁', c', ⟨v₀, u'', rfl, hu''⟩, hc'⟩, hb'⟩, hu₃⟩ := hw₇ s₁₀ s₁₁ hs₁₁
      rw [show b = b' from (create_ok hb).1.trans (create_ok hb').1.symm] at hu₃
      refine .redeemed business service coupon (hservice₃.later htrans (htrans _ _ _ hbefore hafter))
        ((hseen.earlier htrans hs₃).later htrans hafter) ?_ hfor
        ⟨_, _, _, _, _, _, _, _, u₃, _, _, _, hu'', hc', hb', hu₃⟩
      rw [hsame]
      exact hcode

variable (hlock : MayLock G)
include hlock

/-- The lock is taken before, and given back after. -/
theorem withLock_holding {key : LockKey} {fn : Task Booking}
    (hfn : ∀ ns s₁ s', G s s' → wp (holding hrefl htrans userId dto s₀) anyway fn none ns s₁ s') :
    wp (holding hrefl htrans userId dto s₀) anyway (RedisLockService.withLock key fn) none ns s₁ s := by
  have hidle : ∀ s' s'', (∃ t, s'' = Store.withLocks s' t) → G s' s'' := by
    rintro s' _ ⟨t, rfl⟩
    exact hlock s' t
  have hacquire : Within (fun s' s'' => ∃ t, s'' = Store.withLocks s' t) (fun _ => True) false
      (RedisLockService.acquire key 10000) :=
    acquire_within (fun s' => ⟨s'.lock, rfl⟩) (fun _ t => ⟨t, rfl⟩) _ _
  have hrelease (token : Id) : Within (fun s' s'' => ∃ t, s'' = Store.withLocks s' t) (fun _ => True) false
      (RedisLockService.release key token) := release_within (fun _ t => ⟨t, rfl⟩) _ _
  refine (wp_bind _ _).mpr (hacquire.wp_none_keeps (I := G s) (fun _ _ _ h => h) (fun _ _ _ _ _ => trivial)
    (fun s' s'' h hs' => htrans _ _ _ hs' h) (fun s' s'' h hs' => htrans _ _ _ hs' (hidle _ _ h))
    (fun r ns s₁ s' hs' _ => ?_) (hrefl s))
  cases r with
  | error e => trivial
  | ok token =>
    refine (wp_bind _ _).mpr ((wp_orThrow _ _).mpr ⟨fun token _ => ?_, fun _ => trivial⟩)
    refine (wp_bind _ _).mpr ((wp_mark _).mpr ⟨trivial, ?_⟩)
    refine (wp_andThen _ _).mpr (wp_mono (fun r w ns s₁ s' _ => ?_) (hfn _ _ _ hs'))
    exact ((hrelease _).andThen fun r => .onOk (fun _ => .done _) r).wp_any (fun _ _ _ h => h) fun _ _ _ _ _ => trivial

/-- What a hold does to the store, at every step. -/
theorem hold_holding (hs : G s₀ s) : wp (holding hrefl htrans userId dto s₀) anyway (BookingService.hold userId dto)
    none ns s₁ s := by
  rw [hold_eq]
  refine (wp_bind _ _).mpr (wp_loadAndValidateContext (fun _ _ => trivial) fun business service s' hservice => ?_)
  have hs' : G s s' := by
    obtain ⟨r, hr, hr', -⟩ := hservice
    exact htrans _ _ _ hr hr'
  refine wp_tryCatch.mpr (wp_mono (fun r w ns s₁ s _ => ?_) (withLock_holding hrefl htrans hlock
    fun ns s₁ s'' hs'' => bookSlot_holding hrefl htrans (htrans _ _ _ (htrans _ _ _ hs hs') hs'')
      ((hservice.earlier htrans hs).later htrans hs'')))
  cases r with
  | ok b => trivial
  | error e =>
    exact (busyAsConflict_within e : Within (fun s' s'' => ∃ t, s'' = Store.withLocks s' t) (fun _ => True) false _).wp_any
      (fun _ _ _ h => h) fun _ _ _ _ _ => trivial

theorem Request.hold_holding (user : Id) : wp (holding hrefl htrans user dto s) anyway (Request.hold user dto).serve
    none [] s s := by
  refine (wp_bind _ _).mpr ((wp_bind _ _).mpr (wp_query (fun g s₁ h₁ => ?_) fun _ _ => trivial))
  refine (wp_bind _ _).mpr ((wp_orThrow _ _).mpr ⟨fun u hu => ?_, fun _ => trivial⟩)
  obtain ⟨hu, -⟩ := Option.filter_eq_some_iff.mp hu
  obtain ⟨-, hid⟩ := findUnique_some hu
  obtain rfl : u.id = user := by simpa using hid
  refine (wp_bind _ _).mpr ((wp_mark _).mpr ⟨trivial, ?_⟩)
  refine (wp_bind _ _).mpr (wp_mono (fun r _ _ _ _ _ => by cases r <;> trivial)
    (BookingPlatform.hold_holding hrefl htrans hlock h₁))

end hold

/-- A coupon for all, on a day with nothing booked. -/
def saleDay : Store := { AvailabilityService.nineToFive with
  user := ⟨[
    { id := 1, phone := "09120000000", passwordHash := ⟨""⟩, fullName := "" },
    { id := 2, phone := "09120000001", passwordHash := ⟨""⟩, fullName := "" }], by decide⟩
  business := .single {
    id := 1, ownerId := 1, name := "", category := "", status := .approved
    cancellationPolicy := { freeCancelHours := 0, feePercent := 0 } }
  service := .single {
    id := 1, businessId := 1, name := "", durationMinutes := .halfHour, price := 10000
    requiresDeposit := true, depositPercent := some 3000 }
  coupon := .single {
    id := 1, businessId := none, code := "EID", type := .percentage, value := 2000, validFrom := 0, validTo := 10 } }

/-- Two customers with the coupon. -/
def saleHold (first : Bool) : Request :=
  .hold (if first then 1 else 2) {
    businessId := 1, branchId := 1, staffMemberId := none, serviceId := 1
    startTime := if first then 9 * hour else 10 * hour, couponCode := some "EID" }

end BookingPlatform
