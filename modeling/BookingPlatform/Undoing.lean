import BookingPlatform.Answers
import BookingPlatform.Offer
import BookingPlatform.Sole
import BookingPlatform.Async.Rely

/-! Booking and cancelling again: what the answers of `getFreeSlots` show of it. -/
namespace BookingPlatform
open Async Data Prog AvailabilityService

/-- A query as it is answered when it is alone. -/
def answer (g : Env) (s : Store) (businessId : Id) (dto : CheckAvailabilityDto) : Except Err (List FreeSlot) :=
  ((getFreeSlots businessId dto).eval g none s).1

/-- An active booking of the lane lasts from `a` to `b`. -/
def Store.Taken (s : Store) (branchId : Id) (m : Option Id) (a b : Time) : Prop :=
  ∃ r ∈ s.booking.rows, r.active = true ∧ r.branchId = branchId ∧ r.staffMemberId = m ∧ r.startTime = a ∧ r.endTime = b

/-- The second store is the first one with these bookings in its lanes. -/
structure Adds (bs : List Booking) (s s' : Store) : Prop where
  timetable : SameTimetable s s'
  taken : ∀ branchId m a b, s'.Taken branchId m a b ↔ s.Taken branchId m a b ∨ ∃ r ∈ bs, r.active = true ∧
    r.branchId = branchId ∧ r.staffMemberId = m ∧ r.startTime = a ∧ r.endTime = b

section answers
variable {g : Env} {s s' : Store} {bs : List Booking} {branchId : Id} {duration t : Time} {date : ℤ} {m : Option Id}

theorem freeThatDay_iff : FreeThatDay s branchId duration date m t ↔ ∀ a b, s.Taken branchId m a b →
    dayStart date ≤ a → a < dayEnd date → ¬ (t < b ∧ a < t + duration) := by
  constructor
  · rintro h a b ⟨r, hr, hactive, hbranch, hstaff, rfl, rfl⟩
    exact h r hr hstaff hbranch hactive
  · intro h r hr hstaff hbranch hactive
    exact h r.startTime r.endTime ⟨r, hr, hactive, hbranch, hstaff, rfl, rfl⟩

theorem Adds.freeThatDay {dto : CheckAvailabilityDto} (h : Adds bs s s') (hbranch : dto.branchId = some branchId) :
    FreeThatDay s' branchId duration dto.date m t ↔ FreeThatDay s branchId duration dto.date m t ∧
      ∀ b ∈ bs, b.blocks dto ⟨t, t + duration, []⟩ m = false := by
  simp only [freeThatDay_iff, h.taken]
  constructor
  · intro hfree
    refine ⟨fun a b htaken => hfree a b (.inl htaken), fun b hb => Bool.eq_false_iff.mpr fun hblocks => ?_⟩
    simp only [Booking.blocks, Bool.and_eq_true, beq_iff_eq, decide_eq_true_eq] at hblocks
    obtain ⟨⟨⟨⟨⟨⟨hactive, hlane⟩, hstaff⟩, hfrom⟩, hto⟩, hend⟩, hstart⟩ := hblocks
    have hlane' : b.branchId = branchId := Option.some.inj (hlane.symm.trans hbranch)
    exact hfree _ _ (.inr ⟨b, hb, hactive, hlane', hstaff.symm, rfl, rfl⟩) hfrom hto ⟨hend, hstart⟩
  · rintro ⟨hfree, hblocks⟩ a b (htaken | ⟨r, hr, hactive, rfl, rfl, rfl, rfl⟩) hfrom hto hover
    · exact hfree a b htaken hfrom hto hover
    · have := hblocks r hr
      simp [Booking.blocks, hactive, hbranch, hfrom, hto, hover] at this

/-- More bookings strike out staff from the answers, and change nothing else of them. -/
theorem Adds.answer (h : Adds bs s s') (hup : g.down = false) (businessId : Id) (dto : CheckAvailabilityDto) :
    answer g s' businessId dto = (answer g s businessId dto).map (strike dto bs) := by
  unfold BookingPlatform.answer
  rcases eval_answer hup s businessId dto with ⟨e, herror⟩ | ⟨branchId, duration, hbranch, hanswers⟩
  · rw [herror s' h.timetable, herror s (.refl s)]
    rfl
  · obtain ⟨slots, heval, hslots, hlisted⟩ := hanswers s (.refl s)
    obtain ⟨slots', heval', hslots', hlisted'⟩ := hanswers s' h.timetable
    rw [heval, heval']
    change Except.ok slots' = Except.ok (strike dto bs slots)
    rw [hslots'.eq hslots.strike (lineup_nodup dto) fun t m => ?_]
    rw [hlisted', hslots.listed_strike, hlisted, h.freeThatDay hbranch, ← and_assoc]

/-- Stores with the same lanes taken give the same answers. -/
theorem Adds.answer_nil (h : Adds [] s s') (hup : g.down = false) (businessId : Id) (dto : CheckAvailabilityDto) :
    BookingPlatform.answer g s' businessId dto = BookingPlatform.answer g s businessId dto := by
  rw [h.answer hup]
  unfold BookingPlatform.answer
  rcases eval_answer hup s businessId dto with ⟨e, herror⟩ | ⟨branchId, duration, -, hanswers⟩
  · rw [herror s (.refl s)]
    rfl
  · obtain ⟨slots, heval, hslots, -⟩ := hanswers s (.refl s)
    rw [heval]
    exact congrArg Except.ok hslots.strike_nil

end answers

/-! ### Booking -/

/-- The request has added exactly these bookings. -/
structure Booked (s : Store) (bs : List Booking) (s' : Store) : Prop where
  timetable : SameTimetable s s'
  rows : s'.booking.rows = s.booking.rows ++ bs

/-- On success the result and what the transaction sees are as `P` says. -/
def gives {α : Type} (P : α → Store → Prop) : Except Err α → Option Store → Store → Prop :=
  fun r v s => ∀ a, r = .ok a → P a (v.getD s)

/-- On success no transaction is open, and the result and the store are as `P` says. -/
def leaves {α : Type} (P : α → Store → Prop) : Except Err α → Option Store → Store → Prop :=
  fun r v s => ∀ a, r = .ok a → v = none ∧ P a s

/-- Neither the timetable nor the bookings change. -/
def Unbooked (s s' : Store) : Prop := SameTimetable s s' ∧ s'.booking = s.booking

section booking
variable {α : Type} {s s' : Store} {bs : List Booking} {G : Store → Store → Prop}

theorem Unbooked.refl (s : Store) : Unbooked s s := ⟨.refl s, rfl⟩

theorem Unbooked.trans (s s' s'' : Store) (h : Unbooked s s') (h' : Unbooked s' s'') : Unbooked s s'' :=
  ⟨h.1.trans h'.1, h'.2.trans h.2⟩

theorem Unbooked.booked (h : Unbooked s s') : Booked s [] s' := ⟨h.1, by simp [h.2]⟩

theorem Booked.trans {bs' : List Booking} {s'' : Store} (h : Booked s bs s') (h' : Booked s' bs' s'') :
    Booked s (bs ++ bs') s'' := ⟨h.timetable.trans h'.timetable, by rw [h'.rows, h.rows, List.append_assoc]⟩

theorem create_booked {row : Id → Booking} {g : Env} {b : Booking} (h : create row g s = .ok (b, s')) :
    Booked s [b] s' := by
  obtain ⟨-, t, ht, rfl⟩ := put_ok (create_ok h).2
  exact ⟨⟨rfl, rfl, rfl, rfl, rfl, rfl⟩, Table.insert_rows ht⟩

theorem gives_error {P : α → Store → Prop} {v : Option Store} (e : Err) : gives P (.error e) v s := by
  intro a ha
  cases ha

theorem leaves_error {P : α → Store → Prop} {v : Option Store} (e : Err) : leaves P (.error e) v s := by
  intro a ha
  cases ha

theorem sole_transaction_leaves {P : α → Store → Prop} {body : Task α}
    (h : body.Sole (fun _ _ => True) (gives P) (some s) s) :
    (transaction body).Sole (fun _ _ => True) (leaves P) none s := by
  refine sole_transaction (h.mono (fun _ _ => id) fun r v s hr => ⟨fun e => leaves_error e, fun a ha => ⟨.inl trivial, ?_⟩⟩)
  rintro _ ⟨⟩
  exact ⟨rfl, hr a ha⟩

/-- The critical section of a lock leaves what its body does. -/
theorem sole_withLock_leaves {P : α → Store → Prop} {key : LockKey} {fn : Task α}
    (hP : ∀ a s t, P a s → P a { s with lock := t })
    (hfn : ∀ t : Table Lock, fn.Sole (fun _ _ => True) (leaves P) none { s with lock := t }) :
    (RedisLockService.withLock key fn).Sole (fun _ _ => True) (leaves P) none s := by
  refine (sole_bind _ _).mpr (sole_op (fun g token s' h => ?_) fun _ _ _ => leaves_error _)
  obtain ⟨t, rfl⟩ : ∃ t, s' = { s with lock := t } := by
    have h := attempt_ok h
    split at h
    · obtain ⟨-, rfl⟩ := by simpa using h
      exact ⟨s.lock, rfl⟩
    · split at h
      · obtain ⟨-, rfl⟩ := by simpa using h
        exact ⟨_, rfl⟩
      · obtain ⟨-, rfl⟩ := by simpa using h
        exact ⟨s.lock, rfl⟩
  refine ⟨.inl trivial, (sole_bind _ _).mpr ((sole_orThrow _ _).mpr ⟨fun token _ => ?_, fun _ => leaves_error _⟩)⟩
  refine (sole_bind _ _).mpr (sole_finally.mpr ((hfn t).mono (fun _ _ => id) ?_))
  intro r v s hr
  refine (sole_andThen _ _).mpr ?_
  cases v with
  | none =>
    refine sole_op (fun g _ s' h => ⟨.inl trivial, ?_⟩) fun _ _ _ => leaves_error _
    obtain rfl := by simpa using attempt_ok h
    exact fun a ha => ⟨rfl, hP a s _ (hr a ha).2⟩
  | some v =>
    refine sole_op_tx (fun g _ v' h => ?_) fun _ _ _ => leaves_error _
    exact fun a ha => absurd (hr a ha).1 (Option.some_ne_none v)

theorem sole_busy_leaves {P : α → Store → Prop} {p : Task α} (h : p.Sole G (leaves P) none s) :
    (tryCatch p BookingService.busyAsConflict).Sole G (leaves P) none s := by
  refine sole_tryCatch.mpr (h.mono (fun _ _ => id) fun r v s hr => ?_)
  cases r with
  | ok a => exact hr
  | error e => cases e <;> exact leaves_error _

theorem sole_context {Q : Except Err (Business × Service) → Option Store → Store → Prop} {v : Option Store}
    (h : ∀ r, Q r v s) (businessId branchId serviceId : Id) (staffMemberId : Option Id) :
    (BookingService.loadAndValidateContext businessId branchId serviceId staffMemberId).Sole G Q v s :=
  (loadAndValidateContext_within (R := Eq) (N := fun _ => True) (fun _ => rfl) _ _ _ _).sole_reads h

theorem sole_assertSlotFree {Q : Except Err Unit → Option Store → Store → Prop} {v : Option Store} (h : ∀ r, Q r v s)
    (branchId : Id) (staffMemberId : Option Id) (a b : Time) :
    (BookingService.assertSlotFree branchId staffMemberId a b none).Sole G Q v s :=
  (assertSlotFree_within (R := Eq) (N := fun _ => True) (fun _ => rfl) (fun _ => trivial) _ _ _ _ _).sole_reads h

theorem bookSlot_books (userId : Id) (dto : HoldBookingDto) (business : Business) (service : Service) (s : Store) :
    (bookSlot userId dto business service).Sole (fun _ _ => True) (leaves fun b => Booked s [b]) none s := by
  have hcoupon : May Unbooked Coupon := fun _ _ => ⟨⟨rfl, rfl, rfl, rfl, rfl, rfl⟩, rfl⟩
  have husage : May Unbooked CouponUsage := fun _ _ => ⟨⟨rfl, rfl, rfl, rfl, rfl, rfl⟩, rfl⟩
  refine sole_transaction_leaves ((sole_bind _ _).mpr (sole_assertSlotFree (fun r => ?_) _ _ _ _))
  cases r with
  | error e => exact gives_error e
  | ok _ =>
    refine (sole_bind _ _).mpr ((redeemFor_within (N := fun _ => True) Unbooked.refl (fun _ _ => trivial) husage hcoupon
      userId dto service).sole_tx Unbooked.refl Unbooked.trans fun r v hv => ?_)
    cases r with
    | error e => exact gives_error e
    | ok redeemed =>
      refine (sole_bind _ _).mpr (sole_look (fun g => ?_) fun e => gives_error e)
      refine (sole_bind _ _).mpr (sole_tx (fun g b v' hb => ?_) fun e => gives_error e)
      refine (sole_bind _ _).mpr ((linkUsage_within (N := fun _ => True) husage _ _ _).sole_tx Unbooked.refl
        Unbooked.trans fun r v'' hv'' => ?_)
      cases r with
      | error e => exact gives_error e
      | ok _ =>
        rintro _ ⟨⟩
        simpa using (hv.booked.trans (create_booked hb)).trans hv''.booked

/-- A hold that is alone adds the booking that it returns. -/
theorem hold_books (userId : Id) (dto : HoldBookingDto) (s : Store) :
    (BookingService.hold userId dto).Sole (fun _ _ => True) (leaves fun b => Booked s [b]) none s := by
  rw [hold_eq]
  refine (sole_bind _ _).mpr (sole_context (fun r => ?_) _ _ _ _)
  cases r with
  | error e => exact leaves_error e
  | ok context =>
    refine sole_busy_leaves (sole_withLock_leaves (fun b s' t h => ?_) fun t => ?_)
    · exact ⟨h.timetable.trans ⟨rfl, rfl, rfl, rfl, rfl, rfl⟩, h.rows⟩
    · refine (bookSlot_books userId dto context.1 context.2 { s with lock := t }).mono (fun _ _ => id) fun r v s' hr b hb => ?_
      obtain ⟨hnone, h⟩ := hr b hb
      exact ⟨hnone, ⟨h.timetable.service, h.timetable.branch, h.timetable.staffMember, h.timetable.serviceStaff,
        h.timetable.workingHours, h.timetable.holiday⟩, h.rows⟩

theorem createOccurrences_books (userId : Id) (dto : CreateRecurringBookingDto) (business : Business) (service : Service)
    (group : Id) (starts : List Time) (v : Store) :
    (BookingService.createOccurrences userId dto business service group starts).Sole G (gives (Booked v)) (some v) s := by
  induction starts generalizing v with
  | nil =>
    rintro _ ⟨⟩
    exact (Unbooked.refl v).booked
  | cons start rest ih =>
    refine (sole_bind _ _).mpr (sole_assertSlotFree (fun r => ?_) _ _ _ _)
    cases r with
    | error e => exact gives_error e
    | ok _ =>
      refine (sole_bind _ _).mpr (sole_look (fun g => ?_) fun e => gives_error e)
      refine (sole_bind _ _).mpr (sole_tx (fun g b v' hb => ?_) fun e => gives_error e)
      refine (sole_bind _ _).mpr ((ih v').mono (fun _ _ => id) fun r v'' s' hr => ?_)
      cases r with
      | error e => exact gives_error e
      | ok bs =>
        rintro _ ⟨⟩
        exact (create_booked hb).trans (hr bs rfl)

/-- A series that is alone adds the bookings that it returns. -/
theorem createRecurring_books (userId : Id) (dto : CreateRecurringBookingDto) (s : Store) :
    (BookingService.createRecurring userId dto).Sole (fun _ _ => True) (leaves (Booked s)) none s := by
  refine (sole_bind _ _).mpr (sole_context (fun r => ?_) _ _ _ _)
  cases r with
  | error e => exact leaves_error e
  | ok context =>
    refine (sole_bind _ _).mpr (sole_look (fun g => ?_) fun e => leaves_error e)
    refine sole_tryCatch.mpr ((sole_transaction_leaves (createOccurrences_books userId dto context.1 context.2 _ _ s)).mono
      (fun _ _ => id) fun r v s' hr => ?_)
    cases r with
    | ok bs => exact hr
    | error e => cases e <;> exact leaves_error _

end booking

/-! ### Cancelling -/

/-- Only rows with these identifiers may change, and those become inactive. -/
structure Cancels (ids : List Id) (s s' : Store) : Prop where
  timetable : SameTimetable s s'
  old : ∀ r ∈ s'.booking.rows, r ∈ s.booking.rows ∨ (r.id ∈ ids ∧ r.active = false)
  kept : ∀ r ∈ s.booking.rows, r.id ∈ ids ∨ r ∈ s'.booking.rows

/-- A cancellation of one of these bookings, by whoever may ask for it. -/
def Request.Cancels (ids : List Id) : Request → Prop
  | cancelByUser _ bookingId _ => bookingId ∈ ids
  | business _ _ (.cancelBooking bookingId _) => bookingId ∈ ids
  | business _ _ (.updateBookingStatus bookingId dto) => bookingId ∈ ids ∧ dto.status = .cancelled
  | _ => False

section cancelling
variable {α : Type} {ids : List Id} {s s' s'' : Store}

theorem Cancels.refl (s : Store) : Cancels ids s s := ⟨.refl s, fun _ hr => .inl hr, fun _ hr => .inr hr⟩

theorem cancels_trans (s s' s'' : Store) (h : Cancels ids s s') (h' : Cancels ids s' s'') : Cancels ids s s'' := by
  refine ⟨h.timetable.trans h'.timetable, fun r hr => ?_, fun r hr => ?_⟩
  · rcases h'.old r hr with hold | hgone
    · exact h.old r hold
    · exact .inr hgone
  · rcases h.kept r hr with hid | hkept
    · exact .inl hid
    · exact h'.kept r hkept

theorem update_cancels {p : Booking → Bool} {f : Booking → Booking} {hf : Table.Keeps f}
    (hp : ∀ r, p r = true → r.id ∈ ids) (hgone : ∀ r, (f r).id = r.id ∧ (f r).active = false) :
    StmtWithin (Cancels ids) (update p f hf) := by
  intro g s a s' h
  rw [(update_ok h).2]
  refine ⟨⟨rfl, rfl, rfl, rfl, rfl, rfl⟩, fun r hr => ?_, fun r hr => ?_⟩
  · obtain ⟨r', hr', rfl⟩ := (Table.mem_update hf).mp hr
    split
    · rename_i hmatch
      exact .inr ⟨(hgone r').1 ▸ hp r' hmatch, (hgone r').2⟩
    · exact .inl hr'
  · by_cases hmatch : p r = true
    · exact .inl (hp r hmatch)
    · exact .inr ((Table.mem_update hf).mpr ⟨r, hr, if_neg hmatch⟩)

/-- What follows a lookup need only be within the relation for a row that was looked for. -/
theorem within_found {T : Type} [Model T] {R : Store → Store → Prop} {N : Note → Prop} {whole : Bool} {p : T → Bool}
    {e : Err} {k : T → Task α} (hrefl : ∀ s, R s s) (hk : ∀ r, p r = true → Within R N whole (k r)) :
    Within R N whole (query (findFirst p) >>= fun found => orThrow found e >>= k) := by
  have hquery : Within R N whole (query (findFirst p)) := within_query hrefl _
  refine ⟨hquery.1, fun g s => ?_, fun _ => trivial⟩
  change Within R N whole (onOk (fun found => orThrow found e >>= k) ((attempt (fun g s => .ok (findFirst p g s, s)) g s).map
    Prod.fst))
  cases hfound : attempt (fun g s => .ok (findFirst p g s, s)) g s with
  | error e => trivial
  | ok found =>
    obtain ⟨hsame, -⟩ := @attempt_error (Option T) (findFirst p) g s found.1 found.2 hfound
    change Within R N whole (orThrow found.1 e >>= k)
    rw [hsame]
    cases hrow : findFirst p g s with
    | none => trivial
    | some r => exact hk r (findFirst_some hrow).2

theorem cancelInternal_cancels {booking : Booking} (hid : booking.id ∈ ids) (reason : Option String) (byUser : Bool) :
    Within (Cancels ids) (fun _ => True) true (BookingService.cancelInternal booking reason byUser) := by
  refine .bind (.ensure _ _) fun _ => .bind (.mark trivial) fun _ => .bind (within_look Cancels.refl _) fun _ =>
    .bind (within_look Cancels.refl _) fun _ => .bind (within_prisma (update_cancels (fun r hr => ?_) fun r => ⟨rfl, rfl⟩))
      fun _ => .pure _
  rw [beq_iff_eq.mp hr]
  exact hid

theorem cancelByUser_cancels {bookingId : Id} (hid : bookingId ∈ ids) (userId : Id) (dto : CancelBookingDto) :
    Within (Cancels ids) (fun _ => True) true (BookingService.cancelByUser bookingId userId dto) := by
  rw [BookingService.cancelByUser, BookingService.getOwnedBooking, bind_assoc]
  refine within_found Cancels.refl fun r hr => cancelInternal_cancels ?_ _ _
  simp only [Bool.and_eq_true, beq_iff_eq] at hr
  exact hr.1 ▸ hid

theorem cancelByBusiness_cancels {bookingId : Id} (hid : bookingId ∈ ids) (businessId : Id) (dto : CancelBookingDto) :
    Within (Cancels ids) (fun _ => True) true (BookingService.cancelByBusiness businessId bookingId dto) := by
  refine within_found Cancels.refl fun r hr => cancelInternal_cancels ?_ _ _
  simp only [Bool.and_eq_true, beq_iff_eq] at hr
  exact hr.1 ▸ hid

theorem updateStatus_cancels {bookingId : Id} (hid : bookingId ∈ ids) (businessId : Id) {dto : UpdateBookingStatusDto}
    (hstatus : dto.status = .cancelled) :
    Within (Cancels ids) (fun _ => True) true (BookingService.updateStatus businessId bookingId dto) := by
  refine within_found Cancels.refl fun r _ => .bind (.ensure _ _) fun _ => .bind (.mark trivial) fun _ =>
    .bind (within_look Cancels.refl _) fun _ => within_prisma (update_cancels (fun r hr => ?_) fun r => ⟨rfl, ?_⟩)
  · rw [beq_iff_eq.mp hr]
    exact hid
  · rw [hstatus]
    rfl

/-- The contract of a cancellation. -/
abbrev cancelling (ids : List Id) : Contract Env Store Note := .keeping (Cancels ids) Cancels.refl cancels_trans

/-- A cancellation changes no other booking, and nothing of the timetable. -/
theorem Request.serve_cancels {r : Request} (h : r.Cancels ids) :
    Within (BookingPlatform.Cancels ids) (fun _ => True) true r.serve := by
  have guarded {user businessId : Id} {roles : List StaffRole} {p : Task Unit}
      (hp : Within (BookingPlatform.Cancels ids) (fun _ => True) true p) :
      Within (BookingPlatform.Cancels ids) (fun _ => True) true
        (authenticated user fun u => BusinessRoleGuard.canActivate roles u businessId >>= fun _ => p) :=
    authenticated_within .refl (fun _ => trivial) fun _ => .bind (canActivate_within .refl _ _ _) fun _ => hp
  unfold Request.Cancels at h
  split at h
  · exact authenticated_within .refl (fun _ => trivial) fun _ => cancelByUser_cancels h _ _
  · exact guarded (.bind (cancelByBusiness_cancels h _ _) fun _ => .pure _)
  · exact guarded (.bind (updateStatus_cancels h.1 _ h.2) fun _ => .pure _)
  · contradiction

end cancelling

/-! ### Both -/

/-- A hold or a series that was alone from `s` on, and what it has returned. -/
inductive Reserves (s : Store) : List Booking → Store → Prop
  | hold (userId : Id) (dto : HoldBookingDto) (gs : List Env) (b : Booking) :
      ((Thread.start (BookingService.hold userId dto)).follow s gs).1.result = some (.ok b) →
      Reserves s [b] ((Thread.start (BookingService.hold userId dto)).follow s gs).2
  | createRecurring (userId : Id) (dto : CreateRecurringBookingDto) (gs : List Env) (bs : List Booking) :
      ((Thread.start (BookingService.createRecurring userId dto)).follow s gs).1.result = some (.ok bs) →
      Reserves s bs ((Thread.start (BookingService.createRecurring userId dto)).follow s gs).2

section both
variable {s s₁ s₂ : Store} {bs : List Booking}

theorem Reserves.booked (h : Reserves s bs s₁) : Booked s bs s₁ := by
  cases h with
  | hold userId dto gs b hok =>
    obtain ⟨v, hleaves⟩ := ((hold_books userId dto s).follow gs).2 _ hok
    exact (hleaves b rfl).2
  | createRecurring userId dto gs bs hok =>
    obtain ⟨v, hleaves⟩ := ((createRecurring_books userId dto s).follow gs).2 _ hok
    exact (hleaves bs rfl).2

theorem Booked.adds (h : Booked s bs s₁) : Adds bs s s₁ := by
  refine ⟨h.timetable, fun branchId m a b => ?_⟩
  simp only [Store.Taken, h.rows, List.mem_append, or_and_right, exists_or]

/-- The new rows are not the old ones. -/
theorem Booked.fresh (h : Booked s bs s₁) : ∀ r ∈ s.booking.rows, r.id ∉ bs.map Booking.id := by
  intro r hr hmem
  obtain ⟨b, hb, hid⟩ := List.mem_map.mp hmem
  have hunique := s₁.booking.unique
  rw [h.rows] at hunique
  have := (List.pairwise_append.mp hunique).2.2 r hr b hb
  simp [Indexed.clash, hid] at this

/-- Once none of the new rows is active, the lanes are as they were. -/
theorem Booked.undone (h : Booked s bs s₁) (hcancels : Cancels (bs.map Booking.id) s₁ s₂)
    (hgone : ∀ r ∈ s₂.booking.rows, r.id ∈ bs.map Booking.id → r.active = false) : Adds [] s s₂ := by
  refine ⟨h.timetable.trans hcancels.timetable, fun branchId m a b => ?_⟩
  simp only [List.not_mem_nil, false_and, exists_false, or_false]
  constructor
  · rintro ⟨r, hr, hactive, hlane⟩
    have hnot : r.id ∉ bs.map Booking.id := fun hid => by simp [hgone r hr hid] at hactive
    rcases hcancels.old r hr with hold | hcancelled
    · rw [h.rows, List.mem_append] at hold
      rcases hold with hold | hnew
      · exact ⟨r, hold, hactive, hlane⟩
      · exact absurd (List.mem_map_of_mem hnew) hnot
    · exact absurd hcancelled.1 hnot
  · rintro ⟨r, hr, hactive, hlane⟩
    rcases hcancels.kept r (h.rows ▸ List.mem_append_left bs hr) with hid | hkept
    · exact absurd hid (h.fresh r hr)
    · exact ⟨r, hkept, hactive, hlane⟩

end both

/-- A booking strikes its own staff out of the slots that it overlaps, and cancelled again it leaves no trace in the
answer to any query, whoever cancels, and however the cancellations meet. -/
theorem bookings_leave_no_trace {s s₁ : Store} {bs : List Booking} (h : Reserves s bs s₁) {ι : Type} [DecidableEq ι]
    {r : ι → Request} (hr : ∀ i, (r i).Cancels (bs.map Booking.id))
    {allowed : Config ι Env Store Err Note Unit → ι → Env → Prop} {c : Config ι Env Store Err Note Unit}
    {past : List (ι × Store)} (hrun : Run allowed (.start (fun i => (r i).serve) s₁) c past)
    (hgone : ∀ b ∈ c.store.booking.rows, b.id ∈ bs.map Booking.id → b.active = false) {g : Env} (hup : g.down = false)
    (businessId : Id) (dto : CheckAvailabilityDto) :
    answer g s₁ businessId dto = (answer g s businessId dto).map (strike dto bs) ∧
      answer g c.store businessId dto = answer g s businessId dto := by
  refine ⟨h.booked.adds.answer hup businessId dto, ?_⟩
  have howes (i : ι) : wp (cancelling (bs.map Booking.id)) anyway (r i).serve none [] s₁ s₁ :=
    (Request.serve_cancels (hr i)).keeping
  have hcancels : Cancels (bs.map Booking.id) s₁ c.store := (Run.keeping (Config.start_keeping howes) hrun).1
  exact (h.booked.undone hcancels hgone).answer_nil hup businessId dto

/-- Open on Thursdays, with nothing booked. -/
def openThursday : Store := replay Request.serve founders (opening ++ [thursdays])

/-- Nine o'clock is held. -/
def nineHeld : Thread Env Store Err Note Booking × Store :=
  (Thread.start (BookingService.hold 1 (thursdayAt (9 * hour)))).follow openThursday (List.replicate 12 (.of 0 7))

/-- The user cancels it twice at the same time. -/
def cancelledTwice : List (Bool × Env) := (List.replicate 5 [(false, .of 0 3), (true, .of 0 4)]).flatten

/-- Nine o'clock is offered again. -/
theorem bookings_leave_no_trace_nine : ∃ (b : Booking) (c : Config Bool Env Store Err Note Unit)
    (past : List (Bool × Store)), Reserves openThursday [b] nineHeld.2 ∧
    Run (fun _ _ _ => True) (.start (fun _ => (Request.cancelByUser 1 8 {}).serve) nineHeld.2) c past ∧
    (∀ i, (c.thread i).result.isSome) ∧
    answer (.of 0 0) nineHeld.2 1 firstThursday =
      (answer (.of 0 0) openThursday 1 firstThursday).map (strike firstThursday [b]) ∧
    answer (.of 0 0) c.store 1 firstThursday = answer (.of 0 0) openThursday 1 firstThursday := by
  have hheld : (nineHeld.1.result.bind Except.toOption).map Booking.id = some 8 := by decide +kernel
  obtain ⟨b, hb⟩ := exists_ok (o := nineHeld.1.result) (by rw [← Option.isSome_map (f := Booking.id), hheld]; rfl)
  have hid : b.id = 8 := by simpa [hb, Except.toOption] using hheld
  have hbooks : Reserves openThursday [b] nineHeld.2 := .hold 1 (thursdayAt (9 * hour)) (List.replicate 12 (.of 0 7)) b hb
  obtain ⟨past, hrun⟩ := Run.follow .refl (Config.admits_all
    (.start (fun _ : Bool => (Request.cancelByUser 1 8 {}).serve) nineHeld.2) cancelledTwice)
  have hgone : ((Config.start (fun _ : Bool => (Request.cancelByUser 1 8 {}).serve) nineHeld.2).follow
      cancelledTwice).store.booking.rows.all (fun r => !r.active) = true := by decide +kernel
  have hcancel : ∀ _ : Bool, (Request.cancelByUser 1 8 {}).Cancels ([b].map Booking.id) := by
    intro _
    simp [Request.Cancels, hid]
  exact ⟨b, _, past, hbooks, hrun, by decide +kernel, bookings_leave_no_trace hbooks hcancel hrun
    (fun r hr _ => by simpa using List.all_eq_true.mp hgone r hr) rfl 1 firstThursday⟩

end BookingPlatform
