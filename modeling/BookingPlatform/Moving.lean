import BookingPlatform.Offer

/-! `reschedule` alone, and its two checks with and without the booking that moves. -/
namespace BookingPlatform
open Async Data Prog AvailabilityService

/-- The query that `reschedule` makes for a new start. -/
def Booking.moveQuery (b : Booking) (newStart : Time) : CheckAvailabilityDto where
  serviceId := b.serviceId
  staffMemberId := b.staffMemberId
  branchId := some b.branchId
  date := newStart / day

/-- The database without the booking. -/
def Store.withoutBooking (s : Store) (id : Id) : Store := { s with booking := s.booking.delete fun r => r.id == id }

/-- The booking is moved. -/
def Relocates (g : Env) (s : Store) (b : Booking) (newStart : Time) : Prop := ∃ b' v s',
  (BookingService.reschedule b.id b.userId { newStartTime := newStart }).eval g none s = (.ok b', v, s')

/-- The two checks of `reschedule` pass: the new start is among the free slots, and nothing but the booking is in
the way of the interval. -/
def MoveChecks (g : Env) (s : Store) (b : Booking) (newStart : Time) : Prop :=
  ∃ service ∈ s.service.rows, service.id = b.serviceId ∧
    (∃ slots v s', (getFreeSlots b.businessId (b.moveQuery newStart)).eval g none s = (.ok slots, v, s') ∧
      (slots.any fun slot => slot.startTime = newStart) = true) ∧
    ∃ v s', (BookingService.assertSlotFree b.branchId b.staffMemberId newStart
      (newStart + service.durationMinutes.ms) (some b.id)).eval g none s = (.ok (), v, s')

/-- Only the booking itself is in the way of its new start: the hours of its lane allow it and every other booking
does, but the booking starts on that day and overlaps the new interval. -/
def InOwnWay (g : Env) (s : Store) (b : Booking) (newStart : Time) : Prop :=
  ∃ service, Answerable s b.businessId b.branchId service (b.moveQuery newStart) ∧
    b.staffMemberId ∈ candidates s (b.moveQuery newStart) ∧
    Timetabled g s b.branchId service.durationMinutes.ms (newStart / day) b.staffMemberId newStart ∧
    SlotFree s.booking b.branchId b.staffMemberId newStart (newStart + service.durationMinutes.ms) (some b.id) ∧
    dayStart (newStart / day) ≤ b.startTime ∧ b.startTime < dayEnd (newStart / day) ∧
    newStart < b.endTime ∧ b.startTime < newStart + service.durationMinutes.ms

section
variable {g : Env} {v : Option Store} {s : Store} {b : Booking} {newStart : Time} {service : Service}
  {branchId : Id} {staffMemberId ex : Option Id} {start stop : Time}

/-! ### The checks -/

theorem findFirst_overlapping : findFirst (BookingService.overlapping branchId staffMemberId start stop ex) g s = none ↔
    SlotFree s.booking branchId staffMemberId start stop ex := by
  constructor
  · exact findFirst_none
  · intro hfree
    cases hfound : findFirst (BookingService.overlapping branchId staffMemberId start stop ex) g s with
    | none => rfl
    | some r =>
      obtain ⟨hr, hp⟩ := findFirst_some hfound
      simp [hfree r hr] at hp

theorem eval_assertSlotFree_busy (hup : g.down = false)
    (hbusy : ¬ SlotFree (v.getD s).booking branchId staffMemberId start stop ex) :
    (BookingService.assertSlotFree branchId staffMemberId start stop ex).eval g v s =
      (.error (.conflict "این بازه‌ی زمانی دیگر آزاد نیست"), v, s) := by
  unfold BookingService.assertSlotFree
  rw [eval_query_bind hup, eval_bind (eval_ensure _ _), if_neg (mt findFirst_overlapping.mp hbusy)]
  rfl

theorem assertSlotFree_iff (hup : g.down = false) : (∃ v' s', (BookingService.assertSlotFree branchId staffMemberId
    start stop ex).eval g none s = (.ok (), v', s')) ↔ SlotFree s.booking branchId staffMemberId start stop ex := by
  constructor
  · rintro ⟨v', s', heval⟩
    by_contra hbusy
    rw [@eval_assertSlotFree_busy g none s _ _ ex start stop hup hbusy] at heval
    cases heval
  · intro hfree
    unfold BookingService.assertSlotFree
    rw [eval_query_bind hup, Option.getD_none, eval_bind (eval_ensure _ _),
      if_pos (findFirst_overlapping.mpr hfree)]
    exact ⟨_, _, rfl⟩

/-- Both checks pass when some candidate offers the new start and nothing else is in the way. -/
theorem moveChecks_iff (hup : g.down = false) : MoveChecks g s b newStart ↔
    ∃ service, Answerable s b.businessId b.branchId service (b.moveQuery newStart) ∧
      (∃ m ∈ candidates s (b.moveQuery newStart),
        Offers g s b.branchId service.durationMinutes.ms (newStart / day) m newStart) ∧
      SlotFree s.booking b.branchId b.staffMemberId newStart (newStart + service.durationMinutes.ms) (some b.id) := by
  have hslots {service : Service} (h : Answerable s b.businessId b.branchId service (b.moveQuery newStart)) :
      (∃ slots v s', (getFreeSlots b.businessId (b.moveQuery newStart)).eval g none s = (.ok slots, v, s') ∧
        (slots.any fun slot => slot.startTime = newStart) = true) ↔
      ∃ m ∈ candidates s (b.moveQuery newStart),
        Offers g s b.branchId service.durationMinutes.ms (newStart / day) m newStart := by
    obtain ⟨slots, heval, ⟨hneat, -⟩, hlisted⟩ := eval_getFreeSlots hup h
    have hany : (slots.any fun slot => slot.startTime = newStart) = true ↔ ∃ m, Listed slots newStart m := by
      simp only [List.any_eq_true, decide_eq_true_eq]
      constructor
      · rintro ⟨slot, hslot, hstart⟩
        obtain ⟨m, hm⟩ := List.exists_mem_of_ne_nil _ (hneat.manned slot hslot)
        exact ⟨m, slot, hslot, hstart, hm⟩
      · rintro ⟨m, slot, hslot, hstart, -⟩
        exact ⟨slot, hslot, hstart⟩
    simp only [hlisted] at hany
    constructor
    · rintro ⟨slots', v, s', heval', hstart⟩
      obtain ⟨rfl, -⟩ := by simpa using heval.symm.trans heval'
      exact hany.mp hstart
    · exact fun h => ⟨slots, none, s, heval, hany.mpr h⟩
  constructor
  · rintro ⟨service, hservice, hid, ⟨slots, v, s', heval, hstart⟩, hfree⟩
    obtain ⟨branchId, service', hanswer⟩ := answerable_of_eval hup heval
    obtain rfl : b.branchId = branchId := Option.some.inj hanswer.named.1
    obtain rfl : service' = service := service_eq hanswer.service.1 hservice (hanswer.service.2.1.trans hid.symm)
    exact ⟨service', hanswer, (hslots hanswer).mp ⟨slots, v, s', heval, hstart⟩, (assertSlotFree_iff hup).mp hfree⟩
  · rintro ⟨service, hanswer, hoffers, hfree⟩
    exact ⟨service, hanswer.service.1, hanswer.service.2.1, (hslots hanswer).mpr hoffers, (assertSlotFree_iff hup).mpr hfree⟩

/-! ### The call -/

/-- The transaction of `reschedule`. -/
def moveTo (b : Booking) (newStart newEnd : Time) : Task Booking :=
  transaction do
    BookingService.assertSlotFree b.branchId b.staffMemberId newStart newEnd (some b.id)
    tx (update (fun r : Booking => r.id == b.id) fun r => { r with startTime := newStart, endTime := newEnd })

theorem reschedule_eq (bookingId userId : Id) (dto : RescheduleBookingDto) :
    BookingService.reschedule bookingId userId dto = (do
      let booking ← BookingService.getOwnedBooking bookingId userId
      ensure (booking.active) (.badRequest "این رزرو قابل تغییر زمان نیست")
      mark (.lane booking.id booking.branchId booking.staffMemberId)
      let service ← findUniqueOrThrow fun r : Service => r.id == booking.serviceId
      let freeSlots ← getFreeSlots booking.businessId (booking.moveQuery dto.newStartTime)
      ensure (freeSlots.any fun slot => slot.startTime = dto.newStartTime) (.conflict "بازه‌ی زمانی جدید آزاد نیست")
      tryCatch (RedisLockService.withLock ⟨booking.branchId, booking.staffMemberId, dto.newStartTime⟩
        (moveTo booking dto.newStartTime (dto.newStartTime + service.durationMinutes.ms)))
        BookingService.busyAsConflict) := rfl

/-- A row that is there is rewritten. -/
theorem eval_update_tx {T : Type} [Model T] {p : T → Bool} {f : T → T} {hf : Table.Keeps f} {r : T} {v : Store}
    (hup : g.down = false) (hr : r ∈ (Model.get v).rows) (hp : p r = true)
    (hclash : ∀ r' : T, p r' = true → Indexed.clash r' r = true) : (tx (update p f hf)).eval g (some v) s =
      (.ok (f r), some (Model.set v ((Model.get v).update p f hf)), s) := by
  have hupdate : attempt (update p f hf) g v = .ok (f r, Model.set v ((Model.get v).update p f hf)) := by
    simp only [attempt, hup, Bool.false_eq_true, if_false]
    exact update_of_mem hr hp hclash
  rw [tx, eval_op_tx, hupdate]

/-- Moving a booking changes no key of its row. -/
theorem moved_keeps {newStart newEnd : Time} :
    Table.Keeps fun r : Booking => { r with startTime := newStart, endTime := newEnd } := by
  intro _ _
  rfl

/-- The booking with its new times. -/
def Store.moved (s : Store) (b : Booking) (newStart newEnd : Time) : Store := { s with
  booking := s.booking.update (fun r => r.id == b.id) (fun r => { r with startTime := newStart, endTime := newEnd })
    moved_keeps }

section moveTo
variable {newEnd : Time}

theorem eval_moveTo (hup : g.down = false) (t : Table Lock) (hb : b ∈ s.booking.rows)
    (hfree : SlotFree s.booking b.branchId b.staffMemberId newStart newEnd (some b.id)) :
    (moveTo b newStart newEnd).eval g none (s.withLocks t) =
      (.ok { b with startTime := newStart, endTime := newEnd }, none, (s.moved b newStart newEnd).withLocks t) := by
  have hwrite : (tx (update (fun r : Booking => r.id == b.id)
      fun r => { r with startTime := newStart, endTime := newEnd })).eval g (some (s.withLocks t)) (s.withLocks t) =
        (.ok { b with startTime := newStart, endTime := newEnd }, some ((s.moved b newStart newEnd).withLocks t),
          s.withLocks t) :=
    eval_update_tx (r := b) hup hb (beq_iff_eq.mpr rfl) fun r hr => hr
  have hcheck : (BookingService.assertSlotFree b.branchId b.staffMemberId newStart newEnd (some b.id)).eval g
      (some (s.withLocks t)) (s.withLocks t) = (.ok (), some (s.withLocks t), s.withLocks t) :=
    eval_assertSlotFree hup hfree
  unfold moveTo transaction
  rw [eval_transaction ((eval_bind hcheck _).trans ((eval_onOk_ok _ _).trans hwrite))]
  exact eval_close_ok _ (by simp [hup])

theorem eval_moveTo_busy (hup : g.down = false)
    (hbusy : ¬ SlotFree s.booking b.branchId b.staffMemberId newStart newEnd (some b.id)) : ∃ m, ∀ t,
      (moveTo b newStart newEnd).eval g none (s.withLocks t) = (.error (.conflict m), none, s.withLocks t) := by
  refine ⟨"این بازه‌ی زمانی دیگر آزاد نیست", fun t => ?_⟩
  have hcheck := @eval_assertSlotFree_busy g (some (s.withLocks t)) (s.withLocks t) b.branchId b.staffMemberId
    (some b.id) newStart newEnd hup hbusy
  unfold moveTo transaction
  rw [eval_transaction (eval_bind hcheck _)]
  rfl

end moveTo

/-- The call moves the booking exactly when its two checks pass. -/
theorem moves_iff (hup : g.down = false) (hb : b ∈ s.booking.rows) (hactive : b.active = true)
    (hlock : ∀ l ∈ s.lock.rows, l.key = ⟨b.branchId, b.staffMemberId, newStart⟩ → l.expiresAt ≤ g.now) :
    Relocates g s b newStart ↔ MoveChecks g s b newStart := by
  have hfound : findFirst (fun r : Booking => r.id == b.id && r.userId == b.userId) g s = some b := by
    apply findFirst_of_unique hb (by simp)
    intro r hr hp
    simp only [Bool.and_eq_true, beq_iff_eq] at hp
    exact Table.id_eq hr hb hp.1
  unfold Relocates
  rw [reschedule_eq]
  unfold BookingService.getOwnedBooking findUniqueOrThrow
  rw [bind_assoc, eval_find hup hfound, eval_bind (eval_ensure _ _), if_pos hactive, eval_onOk_ok,
    eval_bind (eval_mark _), eval_onOk_ok, bind_assoc, eval_query_bind hup, Option.getD_none]
  cases hservice : findUnique (fun r : Service => r.id == b.serviceId) g s with
  | none =>
    refine iff_of_false (by rintro ⟨b', v, s', h⟩; cases h) ?_
    rintro ⟨service, hmem, hid, -⟩
    have := findUnique_none hservice service hmem
    simp [hid] at this
  | some service =>
    obtain ⟨hmem, hid⟩ := findUnique_some hservice
    replace hid : service.id = b.serviceId := beq_iff_eq.mp hid
    dsimp only
    rw [eval_bind (eval_pure _), eval_onOk_ok]
    have hchecks : MoveChecks g s b newStart ↔
        (∃ slots v s', (getFreeSlots b.businessId (b.moveQuery newStart)).eval g none s = (.ok slots, v, s') ∧
          (slots.any fun slot => slot.startTime = newStart) = true) ∧ SlotFree s.booking b.branchId b.staffMemberId
            newStart (newStart + service.durationMinutes.ms) (some b.id) := by
      constructor
      · rintro ⟨service', hmem', hid', hslots, hfree⟩
        obtain rfl := service_eq hmem' hmem (hid'.trans hid.symm)
        exact ⟨hslots, (assertSlotFree_iff hup).mp hfree⟩
      · rintro ⟨hslots, hfree⟩
        exact ⟨service, hmem, hid, hslots, (assertSlotFree_iff hup).mpr hfree⟩
    rw [hchecks]
    rcases heval : (getFreeSlots b.businessId (b.moveQuery newStart)).eval g none s with ⟨r, v₁, s₁⟩
    cases r with
    | error e =>
      rw [eval_bind heval]
      refine iff_of_false (by rintro ⟨b', v, s', h⟩; cases h) ?_
      rintro ⟨⟨slots, v, s', h, -⟩, -⟩
      cases h
    | ok slots =>
      obtain ⟨branchId, service', hanswer⟩ := answerable_of_eval hup heval
      obtain ⟨slots', heval', -⟩ := eval_getFreeSlots hup hanswer
      obtain ⟨rfl, rfl, rfl⟩ : slots' = slots ∧ none = v₁ ∧ s = s₁ := by simpa using heval'.symm.trans heval
      rw [eval_bind heval, eval_onOk_ok, eval_bind (eval_ensure _ _)]
      by_cases hstart : (slots'.any fun slot => slot.startTime = newStart) = true
      · rw [if_pos hstart, eval_onOk_ok, and_iff_right ⟨slots', none, s, rfl, hstart⟩]
        by_cases hfree : SlotFree s.booking b.branchId b.staffMemberId newStart
            (newStart + service.durationMinutes.ms) (some b.id)
        · obtain ⟨t, hlocked⟩ := eval_withLock hup hlock fun t => ⟨t, eval_moveTo hup t hb hfree⟩
          exact iff_of_true ⟨_, _, _, eval_tryCatch_ok hlocked⟩ hfree
        · obtain ⟨m, hbusy⟩ := eval_moveTo_busy hup hfree
          obtain ⟨t, hlocked⟩ := eval_withLock hup hlock fun t => ⟨t, hbusy t⟩
          refine iff_of_false ?_ hfree
          rintro ⟨b', v, s', h⟩
          rw [eval_tryCatch_error hlocked] at h
          cases h
      · rw [if_neg hstart]
        refine iff_of_false (by rintro ⟨b', v, s', h⟩; cases h) ?_
        rintro ⟨⟨slots, v, s', h, hstart'⟩, -⟩
        obtain ⟨rfl, -⟩ := by simpa using h
        exact hstart hstart'

/-! ### Without the booking -/

theorem answerable_without {id businessId : Id} {dto : CheckAvailabilityDto} :
    Answerable (s.withoutBooking id) businessId branchId service dto ↔ Answerable s businessId branchId service dto :=
  ⟨fun h => ⟨h.service, h.named, h.branch, h.staff⟩, fun h => ⟨h.service, h.named, h.branch, h.staff⟩⟩

theorem mem_without {id : Id} {b' : Booking} :
    b' ∈ (s.withoutBooking id).booking.rows ↔ b' ∈ s.booking.rows ∧ b'.id ≠ id := by
  rw [Store.withoutBooking, Table.mem_delete, beq_eq_false_iff_ne]

/-- The second check looks past the booking anyway. -/
theorem slotFree_without (hid : b.id ≠ 0) : SlotFree (s.withoutBooking b.id).booking branchId staffMemberId start stop
    (some b.id) ↔ SlotFree s.booking branchId staffMemberId start stop (some b.id) := by
  constructor
  · intro h b' hb'
    by_cases hsame : b'.id = b.id
    · have htruthy : truthyId (some b.id) = some b.id := truthyId_eq_some.mpr ⟨rfl, hid⟩
      simp [BookingService.overlapping, htruthy, hsame]
    · exact h b' (mem_without.mpr ⟨hb', hsame⟩)
  · exact fun h b' hb' => h b' (mem_without.mp hb').1

/-- The first check sees only what is in the way of the others. -/
theorem freeThatDay_of_slotFree {duration : Time} {date : ℤ}
    (hfree : SlotFree s.booking b.branchId b.staffMemberId newStart (newStart + duration) (some b.id)) :
    FreeThatDay (s.withoutBooking b.id) b.branchId duration date b.staffMemberId newStart := by
  intro b' hb' hstaff hbranch hactive _ _ hover
  obtain ⟨hmem, hne⟩ := mem_without.mp hb'
  have hother : (truthyId (some b.id)).all (fun id => b'.id != id) = true := by
    cases htruthy : truthyId (some b.id) with
    | none => rfl
    | some id =>
      obtain rfl := Option.some.inj (truthyId_eq_some.mp htruthy).1
      simpa using hne
  exact overlapping_eq_false.mp (hfree b' hmem) hbranch hstaff hactive hother hover.2 hover.1

/-- Whoever is asked for besides the lane of the booking, nobody is. -/
theorem eq_of_mem_candidates (hstaff : b.staffMemberId ≠ some 0)
    (hlane : b.staffMemberId ∈ candidates s (b.moveQuery newStart)) {m : Option Id}
    (hm : m ∈ candidates s (b.moveQuery newStart)) : m = b.staffMemberId := by
  unfold candidates at hlane hm
  cases htruthy : truthyId (b.moveQuery newStart).staffMemberId with
  | some m' =>
    rw [htruthy] at hlane hm
    exact (List.mem_singleton.mp hm).trans (List.mem_singleton.mp hlane).symm
  | none =>
    rw [htruthy] at hlane hm
    have hnone : b.staffMemberId = none := by
      cases hmember : b.staffMemberId with
      | none => rfl
      | some m' =>
        have hzero : m' ≠ 0 := fun hzero => hstaff (by rw [hmember, hzero])
        have : truthyId (b.moveQuery newStart).staffMemberId = some m' := truthyId_eq_some.mpr ⟨hmember, hzero⟩
        rw [htruthy] at this
        cases this
    rw [hnone] at hlane ⊢
    dsimp only at hlane hm
    split at hlane
    · simp at hlane
    · rename_i hassigned
      rw [if_neg hassigned] at hm
      exact List.mem_singleton.mp hm

/-- A booking can be moved exactly to where it could be moved if it were not there, unless it is itself in the
way. -/
theorem reschedule_own_way (hup : g.down = false) (hb : b ∈ s.booking.rows) (hactive : b.active = true)
    (hid : b.id ≠ 0) (hstaff : b.staffMemberId ≠ some 0)
    (hlock : ∀ l ∈ s.lock.rows, l.key = ⟨b.branchId, b.staffMemberId, newStart⟩ → l.expiresAt ≤ g.now) :
    (Relocates g s b newStart ↔ MoveChecks g (s.withoutBooking b.id) b newStart) ↔ ¬ InOwnWay g s b newStart := by
  rw [moves_iff hup hb hactive hlock, moveChecks_iff hup, moveChecks_iff hup]
  simp only [answerable_without, slotFree_without hid]
  have htimetable {m : Option Id} {duration : Time} : Timetabled g (s.withoutBooking b.id) b.branchId duration
      (newStart / day) m newStart ↔ Timetabled g s b.branchId duration (newStart / day) m newStart := Iff.rfl
  constructor
  · rintro hiff ⟨service, hanswer, hlane, htimed, hfree, hfrom, hto, hover⟩
    obtain ⟨service', hanswer', ⟨m, hm, -, hday⟩, -⟩ := hiff.mpr ⟨service, hanswer,
      ⟨b.staffMemberId, hlane, htimetable.mpr htimed, freeThatDay_of_slotFree hfree⟩, hfree⟩
    obtain rfl := eq_of_mem_candidates hstaff hlane hm
    obtain rfl : service' = service :=
      service_eq hanswer'.service.1 hanswer.service.1 (hanswer'.service.2.1.trans hanswer.service.2.1.symm)
    exact hday b hb rfl rfl hactive hfrom hto hover
  · intro hnot
    constructor
    · rintro ⟨service, hanswer, ⟨m, hm, htimed, hday⟩, hfree⟩
      exact ⟨service, hanswer, ⟨m, hm, htimed, fun b' hb' => hday b' (mem_without.mp hb').1⟩, hfree⟩
    · rintro ⟨service, hanswer, ⟨m, hm, htimed, hday⟩, hfree⟩
      refine ⟨service, hanswer, ⟨m, hm, htimed, fun b' hb' hmember hbranch hactive' hfrom hto hover => ?_⟩, hfree⟩
      -- Only the booking itself can be in the way.
      by_cases hsame : b'.id = b.id
      · obtain rfl := Table.id_eq hb' hb hsame
        exact hnot ⟨service, hanswer, hmember ▸ hm, hmember ▸ htimed, hfree, hfrom, hto, hover⟩
      · exact hday b' (mem_without.mpr ⟨hb', hsame⟩) hmember hbranch hactive' hfrom hto hover

end

/-- An hour that was booked before its service came to take half an hour. -/
def longVisit : Booking where
  id := 1
  userId := 1
  businessId := 1
  branchId := 1
  staffMemberId := none
  serviceId := 1
  startTime := 9 * hour
  endTime := 10 * hour
  status := .confirmed
  priceSnapshot := 0
  depositRequired := 0
  cancellationPolicySnapshot := { freeCancelHours := 0, feePercent := 0 }
  holdExpiresAt := none

/-- The day of the visit. -/
def visitDay : Store := { nineToFive with booking := .single longVisit }

/-- To the afternoon the visit can be moved as if it were not there. To half past nine, which is free but for the visit
itself, it cannot. -/
theorem reschedule_own_way_visit :
    (Relocates (.of 0 0) visitDay longVisit (14 * hour) ↔
      MoveChecks (.of 0 0) (visitDay.withoutBooking 1) longVisit (14 * hour)) ∧
    ¬ (Relocates (.of 0 0) visitDay longVisit (9 * hour + 30 * minute) ↔
      MoveChecks (.of 0 0) (visitDay.withoutBooking 1) longVisit (9 * hour + 30 * minute)) := by
  constructor
  · refine (reschedule_own_way (b := longVisit) rfl (List.mem_singleton.mpr rfl) rfl (by decide) (by decide)
      fun l hl => absurd hl List.not_mem_nil).mpr ?_
    rintro ⟨service, -, -, -, -, -, -, hover, -⟩
    exact absurd hover (by decide)
  · refine mt (reschedule_own_way (b := longVisit) rfl (List.mem_singleton.mpr rfl) rfl (by decide) (by decide)
      fun l hl => absurd hl List.not_mem_nil).mp (not_not.mpr ?_)
    refine ⟨_, ⟨⟨List.mem_singleton.mpr rfl, rfl, rfl, rfl⟩, ⟨rfl, by decide⟩, ⟨_, List.mem_singleton.mpr rfl, rfl, rfl⟩,
      by simp [truthyId, Booking.moveQuery, longVisit]⟩, List.mem_singleton.mpr rfl, ⟨⟨⟨⟨9, 0⟩, ⟨17, 0⟩⟩, rfl, 1,
      by decide, by decide⟩, ?_, by decide⟩, ?_, by decide, by decide, by decide, by decide⟩
    · rintro ⟨r, hr, -⟩
      exact absurd hr List.not_mem_nil
    · intro b hb
      rw [List.mem_singleton.mp hb]
      rfl

end BookingPlatform
