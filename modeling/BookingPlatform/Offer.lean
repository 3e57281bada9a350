import BookingPlatform.Context
import BookingPlatform.DoubleBooking

/-! Slots that are offered and slots that can be held. `hold` checks that the lane is free,
`getFreeSlots` when the staff work; neither checks what the other one does. -/
namespace BookingPlatform
open Async Data Prog AvailabilityService

/-- The query for the day of a hold. -/
def HoldBookingDto.query (dto : HoldBookingDto) : CheckAvailabilityDto where
  serviceId := dto.serviceId
  staffMemberId := dto.staffMemberId
  branchId := some dto.branchId
  date := dto.startTime / day

/-- What `hold` has checked before it books this service. -/
structure HoldChecked (s : Store) (dto : HoldBookingDto) (service : Service) : Prop where
  business : ∃ r ∈ s.business.rows, r.id = dto.businessId ∧ r.status = .approved
  branch : ∃ r ∈ s.branch.rows, r.id = dto.branchId ∧ r.businessId = dto.businessId
  found : service ∈ s.service.rows ∧ service.id = dto.serviceId ∧
    service.businessId = dto.businessId ∧ service.isActive = true
  staff : ∀ m, truthyId dto.staffMemberId = some m →
    ∃ r ∈ s.staffMember.rows, r.id = m ∧ r.businessId = dto.businessId ∧ r.isActive = true
  free : SlotFree s.booking dto.branchId dto.staffMemberId dto.startTime
    (dto.startTime + service.durationMinutes.ms) none

section
variable {α : Type} {Q : Post Store Err Note α} {s : Store} {ns : List Note}

/-- A row is looked up; when there is none, the request is over. -/
theorem wp_find {R : Type} [Model R] {p : R → Bool} {e : Err} {f : R → Task α} {s₀ : Store}
    (herr : ∀ e w ns s₀ s, Q (.error e) w ns s₀ s)
    (hok : ∀ r ∈ (Model.get s).rows, p r = true → wp .alone Q (f r) none ns s s) :
    wp .alone Q (query (findFirst p) >>= fun found => orThrow found e >>= f) none ns s₀ s := by
  apply (wp_bind _ _).mpr
  apply wp_query
  · rintro g s₁ rfl
    apply (wp_bind _ _).mpr
    apply (wp_orThrow _ _).mpr
    constructor
    · intro r hfound
      obtain ⟨hr, hp⟩ := findFirst_some hfound
      exact hok r hr hp
    · intro _
      exact herr _ _ _ _ _
  · intro s₁ _
    exact herr _ _ _ _ _

/-- A request that can only succeed when `P` holds. -/
def OnlyIf (P : Prop) : Post Store Err Note α := fun r _ _ _ _ => ∀ a, r = .ok a → P

theorem onlyIf_error {P : Prop} (e : Err) (w : Option (Store → Except Err Store)) (ns : List Note)
    (s₀ s : Store) : OnlyIf (α := α) P (.error e) w ns s₀ s := by
  intro a ha
  cases ha

theorem wp_onlyIf {P : Prop} (h : P) (p : Task α) {w : Option (Store → Except Err Store)}
    {s₀ : Store} : wp .alone (OnlyIf P) p w ns s₀ s := by
  apply wp_alone
  intro _ _ _ _ _ _ _
  exact h

theorem wp_tryCatch_onlyIf {P : Prop} {p : Task α} {h : Err → Task α}
    {w : Option (Store → Except Err Store)} {s₀ : Store} (hp : wp .alone (OnlyIf P) p w ns s₀ s)
    (hh : ∀ e, ∃ e', h e = throw e') : wp .alone (OnlyIf P) (tryCatch p h) w ns s₀ s := by
  apply wp_tryCatch.mpr
  apply wp_mono _ hp
  intro r w ns s₀ s hr
  cases r with
  | ok a => exact hr
  | error e =>
    obtain ⟨e', he'⟩ := hh e
    dsimp only
    rw [he']
    exact onlyIf_error _ _ _ _ _

/-- A request under the lock: taking it changes no row of the database. -/
theorem wp_withLock_onlyIf {P : Prop} {key : LockKey} {fn : Task α}
    (h : ∀ w ns s₀ s', Quiet s s' → wp .alone (OnlyIf P) fn w ns s₀ s') :
    wp .alone (OnlyIf P) (RedisLockService.withLock key fn) none ns s s := by
  have hacquire : Within Quiet Note.aside true (RedisLockService.acquire key 10000) :=
    acquire_within Quiet.refl quiet_mayLock _ _
  apply (wp_bind _ _).mpr
  apply hacquire.wp_keeps (I := Quiet s) Quiet.refl (fun _ _ _ => Quiet.trans) (fun _ _ _ _ => trivial)
    (fun _ _ _ _ => trivial) (fun _ _ _ _ _ => trivial) _ (fun s' s'' hs'' hs' => hs'.trans hs'') _
    (Quiet.refl s)
  · rintro s' _ rfl hs'
    exact hs'
  intro r w ns s₀ s' hs'
  cases r with
  | error e => exact onlyIf_error _ _ _ _ _
  | ok token =>
    apply (wp_bind _ _).mpr
    apply (wp_orThrow _ _).mpr
    constructor
    · intro token _
      apply (wp_bind _ _).mpr
      apply (wp_mark _).mpr
      refine ⟨trivial, ?_⟩
      apply (wp_andThen _ _).mpr
      apply wp_mono _ (h w _ s₀ s' hs')
      intro r w ns s₀ s'' hr
      cases r with
      | ok a => exact wp_onlyIf (hr a rfl) _
      | error e =>
        apply (wp_andThen _ _).mpr
        apply wp_alone
        intro r w ns s₀ s
        cases r <;> exact onlyIf_error _ _ _ _ _
    · intro _
      exact onlyIf_error _ _ _ _ _

theorem wp_transaction_onlyIf {P : Prop} {body : Task α} {w : Option (Store → Except Err Store)}
    {s₀ : Store} (h : wp .alone (OnlyIf P) body (some .ok) ns s s) :
    wp .alone (OnlyIf P) (transaction body) w ns s₀ s := by
  apply Async.wp_transaction.mpr
  rintro s₁ rfl
  apply wp_mono _ h
  intro r w ns s₀ s hr
  cases r with
  | error e =>
    intro s₁ _
    exact onlyIf_error _ _ _ _ _
  | ok a =>
    have hP : P := hr a rfl
    intro g s₁ _ _
    constructor
    · intro v s₂ _ _
      exact ⟨trivial, fun _ _ => hP⟩
    · intro e _
      exact onlyIf_error _ _ _ _ _

theorem wp_assertSlotFree_onlyIf {P : Prop} {branchId : Id} {staffMemberId ex : Option Id}
    {a b : Time} {f : Unit → Task α} {s₀ : Store}
    (h : SlotFree s.booking branchId staffMemberId a b ex → P) :
    wp .alone (OnlyIf P) (BookingService.assertSlotFree branchId staffMemberId a b ex >>= f)
      (some .ok) ns s₀ s := by
  apply (wp_bind _ _).mpr
  apply (wp_bind _ _).mpr
  apply wp_query_tx (S := fun s v => v = s)
  · rintro s v ⟨⟩
    rfl
  · rintro g _ _ rfl - rfl w' - -
    apply (wp_bind _ _).mpr
    apply (wp_ensure _ _).mpr
    constructor
    · intro hnone
      apply (wp_mark _).mpr
      refine ⟨trivial, wp_onlyIf (h ?_) _⟩
      exact findFirst_none hnone
    · intro _
      exact onlyIf_error _ none ns s₀ s₀
  · intro e s₁ _
    exact onlyIf_error _ none ns s₀ s₀

theorem hold_checked (userId : Id) (dto : HoldBookingDto) :
    wp .alone (OnlyIf (∃ service, HoldChecked s dto service)) (BookingService.hold userId dto) none ns
      s s := by
  apply (wp_bind _ _).mpr
  apply wp_find
  · intro e w ns s₀ s
    exact onlyIf_error _ _ _ _ _
  intro business hbusiness hp
  simp only [Bool.and_eq_true, beq_iff_eq] at hp
  apply wp_find
  · intro e w ns s₀ s
    exact onlyIf_error _ _ _ _ _
  intro branch hbranch hp'
  simp only [Bool.and_eq_true, beq_iff_eq] at hp'
  apply wp_find
  · intro e w ns s₀ s
    exact onlyIf_error _ _ _ _ _
  intro service hservice hp''
  simp only [Bool.and_eq_true, beq_iff_eq] at hp''
  have booked (hstaff : ∀ m, truthyId dto.staffMemberId = some m → ∃ r ∈ s.staffMember.rows,
      r.id = m ∧ r.businessId = dto.businessId ∧ r.isActive = true) (fn : Unit → Task Booking) :
      wp .alone (OnlyIf (∃ service, HoldChecked s dto service))
        (tryCatch (RedisLockService.withLock ⟨dto.branchId, dto.staffMemberId, dto.startTime⟩
          (transaction (BookingService.assertSlotFree dto.branchId dto.staffMemberId dto.startTime
            (dto.startTime + service.durationMinutes.ms) none >>= fn)))
          BookingService.busyAsConflict) none ns s s := by
    apply wp_tryCatch_onlyIf
    · apply wp_withLock_onlyIf
      intro w ns s₀ s' hs'
      apply wp_transaction_onlyIf
      apply wp_assertSlotFree_onlyIf
      intro hfree
      have hbooking : s'.core.booking = s.core.booking := by rw [hs']
      refine ⟨service, ⟨business, hbusiness, hp⟩, ⟨branch, hbranch, hp'⟩,
        ⟨hservice, hp''.1.1, hp''.1.2, hp''.2⟩, hstaff, ?_⟩
      change SlotFree s.core.booking _ _ _ _ _
      rw [← hbooking]
      exact hfree
    · intro e
      cases e <;> exact ⟨_, rfl⟩
  cases hstaff : truthyId dto.staffMemberId with
  | none => exact booked (by simp [hstaff]) _
  | some m =>
    apply wp_find
    · intro e w ns s₀ s
      exact onlyIf_error _ _ _ _ _
    intro staff hmem hmember
    simp only [Bool.and_eq_true, beq_iff_eq] at hmember
    apply booked
    intro m' hm'
    obtain rfl : m = m' := by simpa [hstaff] using hm'
    exact ⟨staff, hmem, hmember.1.1, hmember.1.2, hmember.2⟩

end

/-! ### What is held was offered -/

/-- The query of that day has a slot with that start. -/
def Offered (g : Env) (s : Store) (dto : HoldBookingDto) : Prop :=
  ∃ slots, (getFreeSlots dto.businessId dto.query).eval g none s = (.ok slots, none, s) ∧
    ∃ slot ∈ slots, slot.startTime = dto.startTime

/-- A candidate works then, and is free then if the hold is not in their own lane. -/
def Scheduled (g : Env) (s : Store) (dto : HoldBookingDto) : Prop :=
  dto.branchId ≠ 0 ∧ ∃ service ∈ s.service.rows, service.id = dto.serviceId ∧
    ∃ m ∈ candidates s dto.query,
      Timetabled g s dto.branchId service.durationMinutes.ms dto.query.date m dto.startTime ∧
      (m ≠ dto.staffMemberId →
        FreeThatDay s dto.branchId service.durationMinutes.ms dto.query.date m dto.startTime)

section
variable {g : Env} {s : Store} {dto : HoldBookingDto} {service : Service}

/-- The lane of the hold is free on that day as on any other. -/
theorem HoldChecked.freeThatDay (h : HoldChecked s dto service) : FreeThatDay s dto.branchId
    service.durationMinutes.ms dto.query.date dto.staffMemberId dto.startTime := by
  intro b hb hstaff hbranch hactive _ _
  rintro ⟨hend, hstart⟩
  exact overlapping_eq_false.mp (h.free b hb) hbranch hstaff hactive (by simp [truthyId]) hstart hend

theorem HoldChecked.answerable (h : HoldChecked s dto service) (hbranch : dto.branchId ≠ 0) :
    Answerable s dto.businessId dto.branchId service dto.query :=
  ⟨h.found, ⟨rfl, hbranch⟩, h.branch, h.staff⟩

theorem offered_iff (hup : g.down = false) (h : HoldChecked s dto service) :
    Offered g s dto ↔ Scheduled g s dto := by
  have scheduled_iff (hbranch : dto.branchId ≠ 0) : Scheduled g s dto ↔
      ∃ m ∈ candidates s dto.query, Offers g s dto.branchId service.durationMinutes.ms
        dto.query.date m dto.startTime := by
    constructor
    · rintro ⟨-, service', hservice', hid', m, hm, htime, hfree⟩
      obtain rfl := service_eq hservice' h.found.1 (hid'.trans h.found.2.1.symm)
      refine ⟨m, hm, htime, ?_⟩
      by_cases hlane : m = dto.staffMemberId
      · rw [hlane]
        exact h.freeThatDay
      · exact hfree hlane
    · rintro ⟨m, hm, htime, hfree⟩
      exact ⟨hbranch, service, h.found.1, h.found.2.1, m, hm, htime, fun _ => hfree⟩
  constructor
  · rintro ⟨slots, heval, slot, hslot, hstart⟩
    obtain ⟨branchId, service', hanswer⟩ := answerable_of_eval hup heval
    obtain ⟨hnamed, hne⟩ := hanswer.named
    obtain rfl : dto.branchId = branchId := Option.some.inj hnamed
    obtain ⟨slots', heval', ⟨hneat, -⟩, hlisted⟩ := eval_getFreeSlots hup (h.answerable hne)
    obtain rfl : slots = slots' := by simpa [heval] using heval'
    obtain ⟨m, hm⟩ := List.exists_mem_of_ne_nil _ (hneat.manned slot hslot)
    exact (scheduled_iff hne).mpr ⟨m, (hlisted _ m).mp ⟨slot, hslot, hstart, hm⟩⟩
  · intro hscheduled
    have hne := hscheduled.1
    obtain ⟨m, hm⟩ := (scheduled_iff hne).mp hscheduled
    obtain ⟨slots, heval, -, hlisted⟩ := eval_getFreeSlots hup (h.answerable hne)
    obtain ⟨slot, hslot, hstart, -⟩ := (hlisted _ m).mpr hm
    exact ⟨slots, heval, slot, hslot, hstart⟩

/-- A hold that succeeds is on an offered slot exactly when a candidate works then. -/
theorem held_slot_offered (hup : g.down = false) {userId : Id} {gs : List Env} {b : Booking}
    (hheld : ((Thread.start (BookingService.hold userId dto)).follow s gs).1.result = some (.ok b)) :
    Offered g s dto ↔ Scheduled g s dto := by
  obtain ⟨w, ns, s₁, hchecked⟩ := Prog.follow (hold_checked userId dto) hheld
  obtain ⟨service, h⟩ := hchecked b rfl
  exact offered_iff hup h

/-- A result that is there. -/
theorem exists_ok {α : Type} {o : Option (Except Err α)} (h : (o.bind Except.toOption).isSome = true) :
    ∃ a, o = some (.ok a) := by
  obtain ⟨a, ha⟩ := Option.isSome_iff_exists.mp h
  cases o with
  | none => simp at ha
  | some r =>
    cases r with
    | ok b => exact ⟨b, rfl⟩
    | error e => simp [Except.toOption] at ha

end

/-- A user and an administrator, and nothing else yet. -/
def founders : Store where
  user := ⟨[
    { id := 1, phone := "09120000000", passwordHash := ⟨""⟩, fullName := "" },
    { id := 2, phone := "09120000001", passwordHash := ⟨""⟩, fullName := "", globalRole := .admin }],
    by decide⟩

/-- The user opens a business with one branch and one service, and it is approved. -/
def opening : List (Request × List Env) :=
  [(.createBusiness 1 { name := "", category := "" }, List.replicate 7 (.of 0 0)),
    (.approveBusiness 2 1, List.replicate 6 (.of 0 1)),
    (.business 1 1 (.createBranch { name := "", address := "", latitude := 0, longitude := 0 }),
      List.replicate 5 (.of 0 0)),
    (.business 1 1 (.createService { name := "", durationMinutes := .halfHour, price := 10000 }),
      List.replicate 5 (.of 0 0))]

/-- The branch works from nine to five on Thursdays. -/
def thursdays : Request × List Env :=
  (.business 1 1 (.setWorkingHours {
    branchId := some 1, hours := [{ dayOfWeek := 4, startTime := ⟨9, 0⟩, endTime := ⟨17, 0⟩ }] }),
    List.replicate 9 (.of 0 0))

/-- A hold at this time of the first Thursday. -/
def thursdayAt (t : Time) : HoldBookingDto :=
  { businessId := 1, branchId := 1, serviceId := 1, startTime := t }

/-- The user holds nine o'clock, which is offered. -/
theorem held_slot_offered_nine : ∃ b,
    ((Thread.start (BookingService.hold 1 (thursdayAt (9 * hour)))).follow
      (replay Request.serve founders (opening ++ [thursdays])) (List.replicate 12 (.of 0 7))).1.result =
        some (.ok b) ∧
    (Offered (.of 0 0) (replay Request.serve founders (opening ++ [thursdays])) (thursdayAt (9 * hour)) ↔
      Scheduled (.of 0 0) (replay Request.serve founders (opening ++ [thursdays]))
        (thursdayAt (9 * hour))) := by
  have hheld : ((((Thread.start (BookingService.hold 1 (thursdayAt (9 * hour)))).follow
      (replay Request.serve founders (opening ++ [thursdays]))
      (List.replicate 12 (.of 0 7))).1.result.bind Except.toOption).isSome) = true := by decide +kernel
  obtain ⟨b, hb⟩ := exists_ok hheld
  exact ⟨b, hb, held_slot_offered rfl hb⟩

/-- The user holds a half hour at night in a branch that never opens. -/
theorem night_held : ∃ s past gs b, Serial Request.serve (fun _ _ => True) (fun _ _ _ => True) founders
      none s past ∧
    ((Thread.start (BookingService.hold 1 (thursdayAt 0))).follow s gs).1.result = some (.ok b) ∧
    ¬ Offered (.of 0 0) s (thursdayAt 0) := by
  have hreplays : Replays Request.serve (fun _ _ => True) (fun _ _ _ => True) founders opening := by
    decide +kernel
  obtain ⟨past, hserial⟩ := Serial.replay .init hreplays
  have hheld : ((((Thread.start (BookingService.hold 1 (thursdayAt 0))).follow
      (replay Request.serve founders opening)
      (List.replicate 12 (.of 0 7))).1.result.bind Except.toOption).isSome) = true := by decide +kernel
  obtain ⟨b, hb⟩ := exists_ok hheld
  refine ⟨_, past, _, b, hserial, hb, ?_⟩
  rintro ⟨slots, heval, slot, hslot, -⟩
  have hempty : ((getFreeSlots 1 (thursdayAt 0).query).eval (.of 0 0) none
      (replay Request.serve founders opening)).1.toOption = some [] := by decide +kernel
  have hslots : ((getFreeSlots 1 (thursdayAt 0).query).eval (.of 0 0) none
      (replay Request.serve founders opening)).1 = .ok slots := congrArg Prod.fst heval
  rw [hslots] at hempty
  obtain rfl : slots = [] := by simpa [Except.toOption] using hempty
  simp at hslot

/-! ### What is offered can be held -/

/-- The hold, without a coupon, of a slot that a query has listed. -/
def FreeSlot.toHold (slot : FreeSlot) (businessId : Id) (dto : CheckAvailabilityDto) (m : Option Id) :
    HoldBookingDto where
  businessId := businessId
  branchId := dto.branchId.getD 0
  serviceId := dto.serviceId
  staffMemberId := m
  startTime := slot.startTime

/-- What `hold` asks for beyond what the query looks at: the business is approved, the staff
member is at work, and no booking of the lane that starts on another day is in the way. -/
structure Holdable (s : Store) (dto : HoldBookingDto) (date : ℤ) : Prop where
  business : ∃ r ∈ s.business.rows, r.id = dto.businessId ∧ r.status = .approved
  staff : ∀ m, dto.staffMemberId = some m → ∃ r ∈ s.staffMember.rows, r.id = m ∧
    (m ≠ 0 → r.businessId = dto.businessId ∧ r.isActive = true)
  otherDays : ∀ service ∈ s.service.rows, service.id = dto.serviceId → ∀ b ∈ s.booking.rows,
    BookingService.overlapping dto.branchId dto.staffMemberId dto.startTime
      (dto.startTime + service.durationMinutes.ms) none b = true →
    dayStart date ≤ b.startTime ∧ b.startTime < dayEnd date

section
variable {g : Env} {s : Store} {userId : Id} {dto : HoldBookingDto} {business : Business}
  {service : Service}

/-- The row that `hold` adds. -/
def heldRow (now : Time) (id userId : Id) (dto : HoldBookingDto) (business : Business)
    (service : Service) (discountAmount : Money) : Booking where
  id := id
  userId := userId
  businessId := dto.businessId
  branchId := dto.branchId
  staffMemberId := dto.staffMemberId
  serviceId := dto.serviceId
  startTime := dto.startTime
  endTime := dto.startTime + service.durationMinutes.ms
  priceSnapshot := service.price
  couponCode := dto.couponCode
  discountAmount := discountAmount
  depositRequired :=
    BookingService.depositOf service (Double.sub (toNumber service.price) (toNumber discountAmount))
  cancellationPolicySnapshot := business.cancellationPolicy
  holdExpiresAt := some (now + holdTtl)

/-- The transaction of `hold`. -/
def bookSlot (userId : Id) (dto : HoldBookingDto) (business : Business) (service : Service) :
    Task Booking :=
  transaction do
    BookingService.assertSlotFree dto.branchId dto.staffMemberId dto.startTime
      (dto.startTime + service.durationMinutes.ms) none
    let (discountAmount, redeemedCouponId) ← BookingService.redeemFor userId dto service
    let now ← clock
    let booking ← tx (create fun id => heldRow now id userId dto business service discountAmount)
    BookingService.linkUsage userId booking.id redeemedCouponId
    return booking

theorem hold_eq (userId : Id) (dto : HoldBookingDto) : BookingService.hold userId dto = (do
    let (business, service) ← BookingService.loadAndValidateContext dto.businessId dto.branchId
      dto.serviceId dto.staffMemberId
    tryCatch (RedisLockService.withLock ⟨dto.branchId, dto.staffMemberId, dto.startTime⟩
      (bookSlot userId dto business service)) BookingService.busyAsConflict) := rfl

/-- The same database with these locks. -/
def Store.withLocks (s : Store) (t : Table Lock) : Store := { s with lock := t }

theorem eval_find {R α : Type} [Model R] {p : R → Bool} {e : Err} {f : R → Task α} {r : R}
    (hup : g.down = false) (hfound : findFirst p g s = some r) :
    (query (findFirst p) >>= fun found => orThrow found e >>= f).eval g none s =
      (f r).eval g none s := by
  rw [eval_query_bind hup, Option.getD_none, hfound, eval_bind (eval_orThrow _ _), eval_onOk_ok]

/-- The lock is taken when no lock that has not expired is there. -/
theorem eval_acquire (hup : g.down = false) {key : LockKey} {ttlMs : Time}
    (hfree : ∀ l ∈ s.lock.rows, l.key = key → l.expiresAt ≤ g.now) : ∃ t,
      (RedisLockService.acquire key ttlMs).eval g none s =
        (.ok (some (g.newId 0)), none, (s.withLocks t)) := by
  have hnobody : (s.lock.rows.any fun r => r.key == key && decide (g.now < r.expiresAt)) = false := by
    rw [List.any_eq_false]
    intro l hl hp
    simp only [Bool.and_eq_true, beq_iff_eq, decide_eq_true_eq] at hp
    exact Int.not_lt.mpr (hfree l hl hp.1) hp.2
  have hfresh : ∀ l ∈ (s.lock.delete fun r => r.key == key).rows, Indexed.clash l
      ({ key, token := g.newId 0, expiresAt := g.now + ttlMs } : Lock) = false := by
    intro l hl
    obtain ⟨-, hkey⟩ := Table.mem_delete.mp hl
    simpa [Indexed.clash] using hkey
  obtain ⟨t, ht⟩ := Table.insert_of_fresh hfresh
  refine ⟨t, ?_⟩
  unfold RedisLockService.acquire
  rw [eval_op]
  simp [attempt, hup, hnobody, ht, Store.withLocks]

theorem eval_release (hup : g.down = false) (key : LockKey) (token : Id) : ∃ t,
    (RedisLockService.release key token).eval g none s = (.ok (), none, (s.withLocks t)) := by
  unfold RedisLockService.release
  rw [eval_op]
  simp only [attempt, hup, Bool.false_eq_true, if_false]
  exact ⟨_, rfl⟩

/-- A request under a lock that is free. -/
theorem eval_withLock {α : Type} (hup : g.down = false) {key : LockKey} {fn : Task α}
    (hfree : ∀ l ∈ s.lock.rows, l.key = key → l.expiresAt ≤ g.now) {r : Except Err α} {s' : Store}
    (hfn : ∀ t, ∃ t', fn.eval g none (s.withLocks t) = (r, none, (s'.withLocks t'))) :
    ∃ t, (RedisLockService.withLock key fn).eval g none s = (r, none, (s'.withLocks t)) := by
  obtain ⟨t, hacquire⟩ := @eval_acquire g s hup key 10000 hfree
  obtain ⟨t', hbody⟩ := hfn t
  obtain ⟨t'', hrelease⟩ := @eval_release g (s'.withLocks t') hup key (g.newId 0)
  refine ⟨t'', ?_⟩
  unfold RedisLockService.withLock
  rw [eval_bind hacquire, eval_onOk_ok, eval_bind (eval_orThrow _ _), eval_onOk_ok,
    eval_bind (eval_mark _), eval_onOk_ok, eval_finally hbody, eval_andThen, hrelease]
  rfl

/-- Adding a row does not touch the locks. -/
theorem put_lock {b : Booking} {s : Store} (t : Table Lock) :
    put b (s.withLocks t) = (put b s).map fun s' => (s'.withLocks t) := by
  have hrefs : Model.refs (s.withLocks t) b = Model.refs s b := rfl
  have hget : (Model.get (s.withLocks t) : Table Booking) = Model.get s := rfl
  simp only [put, hrefs, hget]
  split
  · cases (Model.get s).insert b <;> rfl
  · rfl

/-- The lookups of `hold`, when everything is there. -/
theorem eval_loadAndValidateContext (hup : g.down = false)
    (hbusiness : business ∈ s.business.rows ∧ business.id = dto.businessId ∧ business.status = .approved)
    (h : HoldChecked s dto service) :
    (BookingService.loadAndValidateContext dto.businessId dto.branchId dto.serviceId
      dto.staffMemberId).eval g none s = (.ok (business, service), none, s) := by
  obtain ⟨k, hplay⟩ := @play_loadAndValidateContext (fun _ => g) 0 s (fun _ => hup) _ _ _ _ _ _
    ⟨hbusiness, h.branch, h.found, h.staff⟩
  exact eval_of_play hplay

theorem eval_assertSlotFree (hup : g.down = false) {branchId : Id} {staffMemberId ex : Option Id}
    {a b : Time} {v : Store} (hfree : SlotFree v.booking branchId staffMemberId a b ex) :
    (BookingService.assertSlotFree branchId staffMemberId a b ex).eval g (some v) s =
      (.ok (), some v, s) := by
  have hnone : findFirst (BookingService.overlapping branchId staffMemberId a b ex) g v = none := by
    cases hfound : findFirst (BookingService.overlapping branchId staffMemberId a b ex) g v with
    | none => rfl
    | some r =>
      obtain ⟨hr, hp⟩ := findFirst_some hfound
      simp [hfree r hr] at hp
  unfold BookingService.assertSlotFree
  rw [eval_query_bind hup, Option.getD_some, hnone, eval_bind (eval_ensure _ _)]
  rfl

theorem put_error {b : Booking} {e : Err} (h : put b s = .error e) :
    BookingService.busyAsConflict (α := Booking) e = throw e := by
  unfold put at h
  split at h
  · split at h
    · simp at h
    · obtain rfl := Except.error.inj h
      rfl
  · obtain rfl := Except.error.inj h
    rfl

/-- Without a coupon, only the insertion decides about the transaction. -/
theorem eval_bookSlot (hup : g.down = false) (hcoupon : dto.couponCode = none)
    (h : HoldChecked s dto service) (t : Table Lock) :
    (bookSlot userId dto business service).eval g none (s.withLocks t) =
      match put (heldRow g.now (g.newId 0) userId dto business service 0) s with
      | .ok s' => (.ok (heldRow g.now (g.newId 0) userId dto business service 0), none,
        (s'.withLocks t))
      | .error e => (.error e, none, (s.withLocks t)) := by
  have hredeem : BookingService.redeemFor userId dto service = pure (0, none) := by
    simp [BookingService.redeemFor, hcoupon, truthyText]
  have hcreate : (tx (create fun id => heldRow g.now id userId dto business service 0)).eval g
      (some (s.withLocks t)) (s.withLocks t) =
        match put (heldRow g.now (g.newId 0) userId dto business service 0) s with
        | .ok s' => (.ok (heldRow g.now (g.newId 0) userId dto business service 0),
          some (s'.withLocks t), (s.withLocks t))
        | .error e => (.error e, some (s.withLocks t), (s.withLocks t)) := by
    unfold tx
    rw [eval_op_tx]
    simp only [attempt, hup, Bool.false_eq_true, if_false, create, put_lock]
    cases put (heldRow g.now (g.newId 0) userId dto business service 0) s <;> rfl
  have hbody : (do
      BookingService.assertSlotFree dto.branchId dto.staffMemberId dto.startTime
        (dto.startTime + service.durationMinutes.ms) none
      let (discountAmount, redeemedCouponId) ← BookingService.redeemFor userId dto service
      let now ← clock
      let booking ← tx (create fun id => heldRow now id userId dto business service discountAmount)
      BookingService.linkUsage userId booking.id redeemedCouponId
      return booking : Task Booking).eval g (some (s.withLocks t)) (s.withLocks t) =
        match put (heldRow g.now (g.newId 0) userId dto business service 0) s with
        | .ok s' => (.ok (heldRow g.now (g.newId 0) userId dto business service 0),
          some (s'.withLocks t), (s.withLocks t))
        | .error e => (.error e, some (s.withLocks t), (s.withLocks t)) := by
    have hfree : SlotFree (s.withLocks t).booking dto.branchId dto.staffMemberId dto.startTime
        (dto.startTime + service.durationMinutes.ms) none := h.free
    rw [eval_bind (eval_assertSlotFree hup hfree), eval_onOk_ok, hredeem,
      eval_bind (eval_pure _), eval_onOk_ok]
    dsimp only
    rw [eval_bind eval_clock, eval_onOk_ok, eval_bind hcreate]
    cases put (heldRow g.now (g.newId 0) userId dto business service 0) s <;> rfl
  unfold bookSlot BookingPlatform.transaction
  rw [eval_transaction hbody]
  cases put (heldRow g.now (g.newId 0) userId dto business service 0) s with
  | ok s' => exact eval_close_ok _ (by simp [hup])
  | error e => rfl

/-- When everything is found, only the insertion decides about a hold. -/
theorem eval_hold (hup : g.down = false) (hcoupon : dto.couponCode = none)
    (hbusiness : business ∈ s.business.rows ∧ business.id = dto.businessId ∧ business.status = .approved)
    (h : HoldChecked s dto service)
    (hlock : ∀ l ∈ s.lock.rows, l.key = ⟨dto.branchId, dto.staffMemberId, dto.startTime⟩ →
      l.expiresAt ≤ g.now) :
    ∃ t, (BookingService.hold userId dto).eval g none s =
      match put (heldRow g.now (g.newId 0) userId dto business service 0) s with
      | .ok s' => (.ok (heldRow g.now (g.newId 0) userId dto business service 0), none,
        (s'.withLocks t))
      | .error e => (.error e, none, (s.withLocks t)) := by
  have hslot := fun t => @eval_bookSlot g s userId dto business service hup hcoupon h t
  rw [hold_eq, eval_bind (eval_loadAndValidateContext hup hbusiness h), eval_onOk_ok]
  dsimp only
  cases hput : put (heldRow g.now (g.newId 0) userId dto business service 0) s with
  | ok s' =>
    simp only [hput] at hslot
    obtain ⟨t, ht⟩ := eval_withLock hup hlock fun t => ⟨t, hslot t⟩
    exact ⟨t, eval_tryCatch_ok ht⟩
  | error e =>
    simp only [hput] at hslot
    obtain ⟨t, ht⟩ := eval_withLock hup hlock fun t => ⟨t, hslot t⟩
    refine ⟨t, (eval_tryCatch_error ht).trans ?_⟩
    rw [put_error hput]
    rfl

/-- A hold on a lane that is free succeeds when the row's foreign keys are there. -/
theorem eval_hold_ok (hup : g.down = false) (hcoupon : dto.couponCode = none)
    (hbusiness : business ∈ s.business.rows ∧ business.id = dto.businessId ∧ business.status = .approved)
    (h : HoldChecked s dto service) (huser : ∃ u ∈ s.user.rows, u.id = userId)
    (hstaff : ∀ m, dto.staffMemberId = some m → ∃ r ∈ s.staffMember.rows, r.id = m)
    (hfresh : ∀ b ∈ s.booking.rows, b.id ≠ g.newId 0)
    (hlock : ∀ l ∈ s.lock.rows, l.key = ⟨dto.branchId, dto.staffMemberId, dto.startTime⟩ →
      l.expiresAt ≤ g.now) :
    ∃ b s', (BookingService.hold userId dto).eval g none s = (.ok b, none, s') ∧
      s'.booking.rows = s.booking.rows ++ [b] := by
  obtain ⟨t, heval⟩ := @eval_hold g s userId dto business service hup hcoupon hbusiness h hlock
  obtain ⟨table, htable⟩ := Table.insert_of_fresh (t := s.booking)
    (r := heldRow g.now (g.newId 0) userId dto business service 0) (by simpa [Indexed.clash, heldRow] using hfresh)
  have hrefs : Model.refs s (heldRow g.now (g.newId 0) userId dto business service 0) = true := by
    change (Store.has s.user User.id userId && Store.has s.business Business.id dto.businessId &&
      Store.has s.branch Branch.id dto.branchId &&
      dto.staffMemberId.all (Store.has s.staffMember StaffMember.id) &&
      Store.has s.service Service.id dto.serviceId) = true
    obtain ⟨branch, hbranch, hbranchId, -⟩ := h.branch
    simp only [Bool.and_eq_true, has_iff]
    refine ⟨⟨⟨⟨huser, business, hbusiness.1, hbusiness.2.1⟩, branch, hbranch, hbranchId⟩, ?_⟩,
      service, h.found.1, h.found.2.1⟩
    rw [Option.all_eq_true]
    intro m hm
    exact has_iff.mpr (hstaff m hm)
  have hput : put (heldRow g.now (g.newId 0) userId dto business service 0) s =
      .ok { s with booking := table } := by
    have hinsert : (Model.get s).insert (heldRow g.now (g.newId 0) userId dto business service 0) =
      some table := htable
    simp only [put, hrefs, if_true, hinsert]
    rfl
  rw [hput] at heval
  exact ⟨_, _, heval, Table.insert_rows htable⟩

/-- A hold that succeeds has found the staff member its row refers to. -/
theorem staff_of_eval (hup : g.down = false) (hcoupon : dto.couponCode = none)
    (hbusiness : business ∈ s.business.rows ∧ business.id = dto.businessId ∧ business.status = .approved)
    (h : HoldChecked s dto service)
    (hlock : ∀ l ∈ s.lock.rows, l.key = ⟨dto.branchId, dto.staffMemberId, dto.startTime⟩ →
      l.expiresAt ≤ g.now) {b : Booking} {v : Option Store} {s' : Store}
    (hheld : (BookingService.hold userId dto).eval g none s = (.ok b, v, s')) {m : Id}
    (hm : dto.staffMemberId = some m) : ∃ r ∈ s.staffMember.rows, r.id = m := by
  obtain ⟨t, heval⟩ := @eval_hold g s userId dto business service hup hcoupon hbusiness h hlock
  cases hput : put (heldRow g.now (g.newId 0) userId dto business service 0) s with
  | error e => simp [hput, hheld] at heval
  | ok s' =>
    obtain ⟨hrefs, -⟩ := put_ok hput
    change (Store.has s.user User.id userId && Store.has s.business Business.id dto.businessId &&
      Store.has s.branch Branch.id dto.branchId &&
      dto.staffMemberId.all (Store.has s.staffMember StaffMember.id) &&
      Store.has s.service Service.id dto.serviceId) = true at hrefs
    simp only [Bool.and_eq_true] at hrefs
    rw [hm] at hrefs
    exact has_iff.mp hrefs.1.2

/-- A slot that is offered can be held exactly when `hold` finds what it asks for beyond. -/
theorem offered_slot_held {g' : Env} {businessId : Id} {query : CheckAvailabilityDto}
    {slots : List FreeSlot} {slot : FreeSlot} {m : Option Id} (hup : g.down = false)
    (hup' : g'.down = false) (hslots : (getFreeSlots businessId query).eval g none s = (.ok slots, none, s))
    (hslot : slot ∈ slots) (hm : m ∈ slot.availableStaffIds)
    (huser : ∃ u ∈ s.user.rows, u.id = userId) (hfresh : ∀ b ∈ s.booking.rows, b.id ≠ g'.newId 0)
    (hlock : ∀ l ∈ s.lock.rows, l.key = ⟨query.branchId.getD 0, m, slot.startTime⟩ →
      l.expiresAt ≤ g'.now) :
    (∃ b s', (BookingService.hold userId (slot.toHold businessId query m)).eval g' none s =
        (.ok b, none, s') ∧ s'.booking.rows = s.booking.rows ++ [b]) ↔
      Holdable s (slot.toHold businessId query m) query.date := by
  obtain ⟨branchId, service, hanswer⟩ := answerable_of_eval hup hslots
  obtain ⟨slots', heval', -, hlisted⟩ := eval_getFreeSlots hup hanswer
  obtain rfl : slots = slots' := by simpa [hslots] using heval'
  obtain ⟨-, -, hday⟩ := (hlisted slot.startTime m).mp ⟨slot, hslot, rfl, hm⟩
  have hbranch : query.branchId.getD 0 = branchId := by simp [hanswer.named.1]
  -- On the day itself the query has looked at the bookings of the lane.
  have thatDay (b : Booking) (hb : b ∈ s.booking.rows) (hover : BookingService.overlapping
      (query.branchId.getD 0) m slot.startTime (slot.startTime + service.durationMinutes.ms) none b =
        true) : ¬ (dayStart query.date ≤ b.startTime ∧ b.startTime < dayEnd query.date) := by
    rintro ⟨hstart, hend⟩
    simp only [BookingService.overlapping, Bool.and_eq_true, beq_iff_eq, decide_eq_true_eq] at hover
    obtain ⟨⟨⟨⟨⟨hb₁, hb₂⟩, hactive⟩, -⟩, hb₃⟩, hb₄⟩ := hover
    exact hday b hb hb₂ (hb₁.trans hbranch) hactive hstart hend ⟨hb₄, hb₃⟩
  constructor
  · rintro ⟨b, s', heval, -⟩
    obtain ⟨n, w, ns, hends⟩ := Prog.ends (g := g') (BookingService.hold userId
      (slot.toHold businessId query m)) s
    rw [heval] at hends
    have hresult : ((Thread.start (BookingService.hold userId (slot.toHold businessId query m))).follow
        s (List.replicate n g')).1.result = some (.ok b) := by
      rw [hends]
      rfl
    obtain ⟨_, _, _, hchecked⟩ := Prog.follow (hold_checked userId _) hresult
    obtain ⟨service', h⟩ := hchecked b rfl
    obtain ⟨business, hbusiness⟩ := h.business
    refine ⟨⟨business, hbusiness⟩, ?_, ?_⟩
    · intro i hi
      obtain ⟨r, hr, hid⟩ := staff_of_eval hup' rfl hbusiness h hlock heval hi
      refine ⟨r, hr, hid, fun hne => ?_⟩
      obtain ⟨r', hr', hid', hof⟩ := h.staff i (truthyId_eq_some.mpr ⟨hi, hne⟩)
      obtain rfl : r = r' := Table.eq_of_clash hr hr' (by simp [Indexed.clash, hid, hid'])
      exact hof
    · intro service'' hservice hid b hb hover
      obtain rfl := service_eq hservice h.found.1 (hid.trans h.found.2.1.symm)
      have := h.free b hb
      rw [hover] at this
      cases this
  · rintro ⟨⟨business, hbusiness⟩, hstaff, hother⟩
    have hfree : SlotFree s.booking (query.branchId.getD 0) m slot.startTime
        (slot.startTime + service.durationMinutes.ms) none := by
      intro b hb
      by_contra hover
      have hover' := eq_true_of_ne_false hover
      exact thatDay b hb hover' (hother service hanswer.service.1 hanswer.service.2.1 b hb hover')
    have hchecked : HoldChecked s (slot.toHold businessId query m) service := by
      refine ⟨⟨business, hbusiness⟩, ?_, hanswer.service, ?_, hfree⟩
      · obtain ⟨r, hr, hid, hof⟩ := hanswer.branch
        exact ⟨r, hr, hid.trans hbranch.symm, hof⟩
      · intro i hi
        obtain ⟨hi, hne⟩ := truthyId_eq_some.mp hi
        obtain ⟨r, hr, hid, hof⟩ := hstaff i hi
        exact ⟨r, hr, hid, hof hne⟩
    apply eval_hold_ok hup' rfl hbusiness hchecked huser _ hfresh hlock
    intro i hi
    obtain ⟨r, hr, hid, -⟩ := hstaff i hi
    exact ⟨r, hr, hid⟩

end

/-- The query for the first Thursday. -/
def firstThursday : CheckAvailabilityDto := { serviceId := 1, branchId := some 1, date := 0 }

/-- A branch that opens at nine on Thursdays offers nine o'clock to nobody in particular. -/
theorem nine_listed {s : Store} (hservice : ∃ r ∈ s.service.rows, r.id = 1 ∧ r.businessId = 1 ∧
      r.isActive = true ∧ r.durationMinutes.minutes = 30)
    (hbranch : ∃ r ∈ s.branch.rows, r.id = 1 ∧ r.businessId = 1)
    (hstaff : s.serviceStaff.rows = []) (hholiday : s.holiday.rows = []) (hbooking : s.booking.rows = [])
    (hwindow : (windowOf (.of 0 0) s 1 none 4).map (fun w => (w.startTime, w.endTime)) =
      some (⟨9, 0⟩, ⟨17, 0⟩)) :
    ∃ slots slot, (getFreeSlots 1 firstThursday).eval (.of 0 0) none s = (.ok slots, none, s) ∧
      slot ∈ slots ∧ slot.startTime = 9 * hour ∧ none ∈ slot.availableStaffIds := by
  obtain ⟨service, hservice, hid, hof, hactive, hminutes⟩ := hservice
  have hanswer : Answerable s 1 1 service firstThursday :=
    ⟨⟨hservice, hid, hof, hactive⟩, ⟨rfl, by decide⟩, hbranch, by simp [firstThursday, truthyId]⟩
  obtain ⟨slots, heval, -, hlisted⟩ := @eval_getFreeSlots (.of 0 0) s 1 rfl 1 service firstThursday hanswer
  obtain ⟨window, hfound, hhours⟩ := Option.map_eq_some_iff.mp hwindow
  obtain ⟨hopens, hcloses⟩ := Prod.mk.inj hhours
  have hms : service.durationMinutes.ms = 30 * minute := by rw [Duration.ms, hminutes]
  have hcandidate : none ∈ candidates s firstThursday := by
    simp [candidates, firstThursday, truthyId, hstaff]
  have hgrid : OnGrid 0 window service.durationMinutes.ms (9 * hour) := by
    refine ⟨0, ?_, ?_⟩
    · rw [hopens, hms]
      decide
    · rw [hcloses, hms]
      decide
  have hopen : ¬ OnHoliday s 1 none 0 := by
    rintro ⟨r, hr, -⟩
    simp [hholiday] at hr
  have hfree : FreeThatDay s 1 service.durationMinutes.ms 0 none (9 * hour) := by
    intro b hb
    simp [hbooking] at hb
  obtain ⟨slot, hslot, hstart, hm⟩ := (hlisted (9 * hour) none).mpr
    ⟨hcandidate, ⟨⟨window, hfound, hgrid⟩, hopen, by decide⟩, hfree⟩
  exact ⟨slots, slot, heval, hslot, hstart, hm⟩

/-- Nine o'clock is offered, and the user holds it. -/
theorem offered_slot_held_nine : ∃ slots slot,
    (getFreeSlots 1 firstThursday).eval (.of 0 0) none
      (replay Request.serve founders (opening ++ [thursdays])) =
        (.ok slots, none, replay Request.serve founders (opening ++ [thursdays])) ∧ slot ∈ slots ∧
    slot.startTime = 9 * hour ∧
    ((∃ b s', (BookingService.hold 1 (slot.toHold 1 firstThursday none)).eval (.of 0 7) none
        (replay Request.serve founders (opening ++ [thursdays])) = (.ok b, none, s') ∧
      s'.booking.rows =
        (replay Request.serve founders (opening ++ [thursdays])).booking.rows ++ [b]) ↔
      Holdable (replay Request.serve founders (opening ++ [thursdays]))
        (slot.toHold 1 firstThursday none) firstThursday.date) := by
  obtain ⟨slots, slot, heval, hslot, hstart, hm⟩ :=
    nine_listed (s := replay Request.serve founders (opening ++ [thursdays])) (by decide +kernel)
      (by decide +kernel) (by decide +kernel) (by decide +kernel) (by decide +kernel)
      (by decide +kernel)
  exact ⟨slots, slot, heval, hslot, hstart, offered_slot_held rfl rfl heval hslot hm
    (by decide +kernel) (by decide +kernel) (by
      have hnone : (replay Request.serve founders (opening ++ [thursdays])).lock.rows = [] := by
        decide +kernel
      simp [hnone])⟩

/-- The business is suspended, and its slots are still offered. -/
theorem suspended_offered : ∃ s past, Serial Request.serve (fun _ _ => True) (fun _ _ _ => True)
      founders none s past ∧ s.lock.rows = [] ∧ ∃ slots slot,
    (getFreeSlots 1 firstThursday).eval (.of 0 0) none s = (.ok slots, none, s) ∧ slot ∈ slots ∧
    none ∈ slot.availableStaffIds ∧
    ¬ ∃ b s', (BookingService.hold 1 (slot.toHold 1 firstThursday none)).eval (.of 0 7) none s =
      (.ok b, none, s') := by
  have hreplays : Replays Request.serve (fun _ _ => True) (fun _ _ _ => True) founders
      (opening ++ [thursdays, (.suspendBusiness 2 1 "", List.replicate 6 (.of 0 1))]) := by
    decide +kernel
  obtain ⟨past, hserial⟩ := Serial.replay .init hreplays
  obtain ⟨slots, slot, heval, hslot, hstart, hm⟩ := nine_listed (s := replay Request.serve founders
    (opening ++ [thursdays, (.suspendBusiness 2 1 "", List.replicate 6 (.of 0 1))]))
    (by decide +kernel) (by decide +kernel) (by decide +kernel) (by decide +kernel)
    (by decide +kernel) (by decide +kernel)
  refine ⟨_, past, hserial, by decide +kernel, slots, slot, heval, hslot, hm, ?_⟩
  rintro ⟨b, s', hheld⟩
  have hrefused : ((BookingService.hold 1 (thursdayAt (9 * hour))).eval (.of 0 7) none
      (replay Request.serve founders
        (opening ++ [thursdays, (.suspendBusiness 2 1 "", List.replicate 6 (.of 0 1))]))).1.toOption.isNone =
        true := by decide +kernel
  have hsame : slot.toHold 1 firstThursday none = thursdayAt (9 * hour) := by
    simp [FreeSlot.toHold, thursdayAt, firstThursday, hstart]
  rw [hsame] at hheld
  rw [hheld] at hrefused
  cases hrefused

end BookingPlatform
