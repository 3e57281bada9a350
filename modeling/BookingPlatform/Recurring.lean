import BookingPlatform.Context
import BookingPlatform.Lanes

/-! `createRecurring` alone: all its occurrences are booked, or none. -/
namespace BookingPlatform
open Async Data Prog

/-- A world in which no call fails and every new identifier is new. -/
structure Lively (world : ℕ → Env) (s : Store) : Prop where
  up : ∀ k, (world k).down = false
  distinct : ∀ j k, (world j).newId 0 = (world k).newId 0 → j = k
  unused : ∀ k, ∀ b ∈ s.booking.rows, b.id ≠ (world k).newId 0 ∧
    b.recurringGroupId ≠ some ((world k).newId 0)

/-- No booking of the lane that is active overlaps the interval. -/
def Vacant (t : Table Booking) (branchId : Id) (staffMemberId : Option Id) (startTime endTime : Time) :
    Prop :=
  ∀ b ∈ t.rows, b.branchId = branchId → b.staffMemberId = staffMemberId →
    b.status = .hold ∨ b.status = .pending ∨ b.status = .confirmed →
    ¬ (startTime < b.endTime ∧ b.startTime < endTime)

instance {t : Table Booking} {branchId : Id} {staffMemberId : Option Id} {a b : Time} :
    Decidable (Vacant t branchId staffMemberId a b) := inferInstanceAs (Decidable (∀ b ∈ t.rows, _))

/-- The row that `createRecurring` adds for one occurrence. -/
def occurrenceRow (now : Time) (id userId : Id) (dto : CreateRecurringBookingDto) (business : Business)
    (service : Service) (recurringGroupId : Id) (startTime : Time) : Booking where
  id := id
  userId := userId
  businessId := dto.businessId
  branchId := dto.branchId
  staffMemberId := dto.staffMemberId
  serviceId := dto.serviceId
  startTime := startTime
  endTime := startTime + service.durationMinutes.ms
  priceSnapshot := service.price
  depositRequired := BookingService.depositOf service (toNumber service.price)
  cancellationPolicySnapshot := business.cancellationPolicy
  holdExpiresAt := some (now + holdTtl)
  recurringGroupId := some recurringGroupId

section
variable {world : ℕ → Env} {k : ℕ} {s : Store} {t : Table Booking} {userId : Id}
  {dto : CreateRecurringBookingDto} {business : Business} {service : Service} {group : Id}
  {branchId : Id} {staffMemberId : Option Id} {a b : Time}

theorem active_iff (b : Booking) :
    b.active = true ↔ b.status = .hold ∨ b.status = .pending ∨ b.status = .confirmed := by
  simp [Booking.active, activeStatuses]

/-- `assertSlotFree` looks for exactly what may not be there. -/
theorem slotFree_iff : SlotFree t branchId staffMemberId a b none ↔ Vacant t branchId staffMemberId a b := by
  constructor
  · intro h r hr hbranch hstaff hactive hover
    exact overlapping_eq_false.mp (h r hr) hbranch hstaff ((active_iff r).mpr hactive)
      (by simp [truthyId]) hover.2 hover.1
  · intro h r hr
    apply overlapping_eq_false.mpr
    intro hbranch hstaff hactive _ hstart hend
    exact h r hr hbranch hstaff ((active_iff r).mp hactive) ⟨hend, hstart⟩

theorem play_assertSlotFree (hup : ∀ k, (world k).down = false) {v : Store} :
    (BookingService.assertSlotFree branchId staffMemberId a b none).play world k (some v) s =
      (if Vacant v.booking branchId staffMemberId a b then .ok ()
        else .error (.conflict "این بازه‌ی زمانی دیگر آزاد نیست"), k + 1, some v, s) := by
  unfold BookingService.assertSlotFree
  rw [play_query_bind hup, Option.getD_some]
  by_cases hvacant : Vacant v.booking branchId staffMemberId a b
  · have hnone : findFirst (BookingService.overlapping branchId staffMemberId a b none) (world k) v = none := by
      cases hfound : findFirst (BookingService.overlapping branchId staffMemberId a b none) (world k) v with
      | none => rfl
      | some r =>
        obtain ⟨hr, hp⟩ := findFirst_some hfound
        simp [slotFree_iff.mpr hvacant r hr] at hp
    rw [hnone, if_pos hvacant]
    rfl
  · have hsome : findFirst (BookingService.overlapping branchId staffMemberId a b none) (world k) v ≠ none := by
      intro hnone
      exact hvacant (slotFree_iff.mp (findFirst_none hnone))
    rw [if_neg hvacant, ensure, if_neg hsome]
    rfl

/-- The rows that the new bookings refer to are there. -/
def Referred (s : Store) (userId : Id) (dto : CreateRecurringBookingDto) : Prop :=
  (∃ u ∈ s.user.rows, u.id = userId) ∧ ∀ m, dto.staffMemberId = some m → ∃ r ∈ s.staffMember.rows, r.id = m

theorem refs_occurrenceRow (h : Orderable s dto.businessId dto.branchId dto.serviceId dto.staffMemberId
      business service) (hreferred : Referred s userId dto) (now : Time) (id : Id) (startTime : Time) :
    Model.refs s (occurrenceRow now id userId dto business service group startTime) = true := by
  change (Store.has s.user User.id userId && Store.has s.business Business.id dto.businessId &&
    Store.has s.branch Branch.id dto.branchId &&
    dto.staffMemberId.all (Store.has s.staffMember StaffMember.id) &&
    Store.has s.service Service.id dto.serviceId) = true
  obtain ⟨branch, hbranch, hbranchId, -⟩ := h.branch
  simp only [Bool.and_eq_true, has_iff]
  refine ⟨⟨⟨⟨hreferred.1, business, h.business.1, h.business.2.1⟩, branch, hbranch, hbranchId⟩, ?_⟩,
    service, h.service.1, h.service.2.1⟩
  rw [Option.all_eq_true]
  intro m hm
  exact has_iff.mpr (hreferred.2 m hm)

theorem play_create (hup : ∀ k, (world k).down = false) {row : Id → Booking}
    (hrefs : Model.refs s (row ((world k).newId 0)) = true)
    (hnew : ∀ b ∈ t.rows, b.id ≠ (row ((world k).newId 0)).id) : ∃ t',
      (tx (create row)).play world k (some { s with booking := t }) s =
        (.ok (row ((world k).newId 0)), k + 1, some { s with booking := t' }, s) ∧
      t'.rows = t.rows ++ [row ((world k).newId 0)] := by
  have hfresh : ∀ b ∈ t.rows, Indexed.clash b (row ((world k).newId 0)) = false := by
    intro b hb
    simpa [Indexed.clash] using hnew b hb
  obtain ⟨t', ht'⟩ := Table.insert_of_fresh hfresh
  have hput : put (row ((world k).newId 0)) { s with booking := t } = .ok { s with booking := t' } := by
    have hrefs' : Model.refs { s with booking := t } (row ((world k).newId 0)) = true := hrefs
    have hinsert : (Model.get { s with booking := t }).insert (row ((world k).newId 0)) = some t' := ht'
    simp only [put, hrefs', if_true, hinsert]
    rfl
  refine ⟨t', ?_, Table.insert_rows ht'⟩
  unfold tx
  rw [play_op_tx]
  simp [attempt, hup, create, hput, Except.map]

/-- A row of the table for each start, in order. -/
abbrev Occurrences (userId : Id) (dto : CreateRecurringBookingDto) (business : Business)
    (service : Service) (group : Id) : List Time → List Booking → Prop :=
  List.Forall₂ fun start b => ∃ now id, b = occurrenceRow now id userId dto business service group start

/-- The loop books every occurrence, or stops at one that is not free. The occurrences are
apart from each other, so those already booked are in nobody's way. -/
theorem play_createOccurrences (hup : ∀ k, (world k).down = false)
    (hdistinct : ∀ j k, (world j).newId 0 = (world k).newId 0 → j = k)
    (hrefs : ∀ now id start,
      Model.refs s (occurrenceRow now id userId dto business service group start) = true)
    {starts : List Time} (happart : starts.Pairwise fun a b => a + service.durationMinutes.ms ≤ b)
    (hnew : ∀ j ≥ k, ∀ b ∈ t.rows, b.id ≠ (world j).newId 0) : ∃ k' r t',
      (BookingService.createOccurrences userId dto business service group starts).play world k
        (some { s with booking := t }) s = (r, k', some { s with booking := t' }, s) ∧
      (((∀ start ∈ starts, Vacant t dto.branchId dto.staffMemberId start
          (start + service.durationMinutes.ms)) ∧ ∃ bs, r = .ok bs ∧ t'.rows = t.rows ++ bs ∧
          Occurrences userId dto business service group starts bs) ∨
        ((∃ start ∈ starts, ¬ Vacant t dto.branchId dto.staffMemberId start
          (start + service.durationMinutes.ms)) ∧ ∃ message, r = .error (.conflict message))) := by
  induction starts generalizing k t with
  | nil => exact ⟨k, .ok [], t, rfl, .inl ⟨by simp, [], rfl, by simp, .nil⟩⟩
  | cons start rest ih =>
    obtain ⟨hfirst, hrest⟩ := List.pairwise_cons.mp happart
    by_cases hvacant : Vacant t dto.branchId dto.staffMemberId start (start + service.durationMinutes.ms)
    · have hassert := @play_assertSlotFree world k s dto.branchId dto.staffMemberId start
        (start + service.durationMinutes.ms) hup { s with booking := t }
      rw [if_pos hvacant] at hassert
      obtain ⟨t', hcreate, hrows⟩ := @play_create world (k + 1 + 1) s t hup
        (fun id => occurrenceRow (world (k + 1)).now id userId dto business service group start)
        (hrefs _ _ _) (hnew (k + 1 + 1) (by omega))
      have hnew' : ∀ j ≥ k + 1 + 1 + 1, ∀ b ∈ t'.rows, b.id ≠ (world j).newId 0 := by
        intro j hj b hb
        rw [hrows] at hb
        rcases List.mem_append.mp hb with hold | hone
        · exact hnew j (by omega) b hold
        · rw [List.mem_singleton.mp hone]
          intro hsame
          have := hdistinct _ _ hsame
          omega
      -- The new booking is over before any later occurrence starts.
      have hlater : ∀ start' ∈ rest, (Vacant t' dto.branchId dto.staffMemberId start'
          (start' + service.durationMinutes.ms) ↔ Vacant t dto.branchId dto.staffMemberId start'
            (start' + service.durationMinutes.ms)) := by
        intro start' hstart'
        unfold Vacant
        rw [hrows, List.forall_mem_append, List.forall_mem_singleton]
        apply and_iff_left
        rintro - - - ⟨hover, -⟩
        exact absurd (hfirst start' hstart') (Int.not_le.mpr hover)
      obtain ⟨k', r, t'', hplay, houtcome⟩ := ih hrest hnew'
      have hstep : (BookingService.createOccurrences userId dto business service group
          (start :: rest)).play world k (some { s with booking := t }) s =
            (r.map fun bs => occurrenceRow (world (k + 1)).now ((world (k + 1 + 1)).newId 0) userId dto
              business service group start :: bs, k', some { s with booking := t'' }, s) := by
        unfold BookingService.createOccurrences
        rw [play_bind_ok hassert, play_bind_ok play_clock]
        refine (play_bind_ok hcreate _).trans ?_
        rw [play_bind hplay]
        cases r <;> rfl
      refine ⟨k', _, t'', hstep, ?_⟩
      rcases houtcome with ⟨hvacants, bs, rfl, hrows', hbs⟩ | ⟨⟨start', hstart', hnot⟩, message, rfl⟩
      · refine .inl ⟨?_, _, rfl, ?_, .cons ⟨_, _, rfl⟩ hbs⟩
        · intro start' hstart'
          rcases List.mem_cons.mp hstart' with rfl | hstart'
          · exact hvacant
          · exact (hlater start' hstart').mp (hvacants start' hstart')
        · rw [hrows', hrows, List.append_assoc]
          rfl
      · refine .inr ⟨⟨start', List.mem_cons_of_mem _ hstart', ?_⟩, message, rfl⟩
        exact mt (hlater start' hstart').mpr hnot
    · have hassert := @play_assertSlotFree world k s dto.branchId dto.staffMemberId start
        (start + service.durationMinutes.ms) hup { s with booking := t }
      rw [if_neg hvacant] at hassert
      have hstop : (BookingService.createOccurrences userId dto business service group
          (start :: rest)).play world k (some { s with booking := t }) s =
            (.error (.conflict "این بازه‌ی زمانی دیگر آزاد نیست"), k + 1, some { s with booking := t }, s) := by
        unfold BookingService.createOccurrences
        rw [play_bind hassert]
        rfl
      exact ⟨_, _, t, hstop, .inr ⟨⟨start, List.mem_cons_self, hvacant⟩, _, rfl⟩⟩

theorem occurrences_eq (firstStart : Time) (n : ℕ) : BookingService.occurrences firstStart n =
    (List.range n).map fun i : ℕ => firstStart + (i : ℤ) * (7 * day) := by
  simp [BookingService.occurrences, ← List.map_eq_flatMap, Function.comp_def]

theorem mem_occurrences {firstStart start : Time} {n : ℕ} :
    start ∈ BookingService.occurrences firstStart n ↔ ∃ i < n, firstStart + i * (7 * day) = start := by
  simp [occurrences_eq]

/-- No service takes a week. -/
theorem occurrences_apart (firstStart : Time) (n : ℕ) (d : Duration) :
    (BookingService.occurrences firstStart n).Pairwise fun a b => a + d.ms ≤ b := by
  rw [occurrences_eq, List.pairwise_map]
  apply List.pairwise_lt_range.imp
  intro i j hij
  have hweek : d.ms ≤ 7 * day := by
    have := d.most
    simp only [Duration.ms, minute, day]
    linarith
  have hnext : ((i : ℤ) + 1) * (7 * day) ≤ j * (7 * day) := by
    apply Int.mul_le_mul_of_nonneg_right
    · omega
    · decide
  linarith

/-- The starts and the ends of the rows. -/
theorem occurrences_times {starts : List Time} {bs : List Booking}
    (hbs : Occurrences userId dto business service group starts bs) : bs.map Booking.startTime = starts ∧
      ∀ b ∈ bs, b.endTime = b.startTime + service.durationMinutes.ms := by
  induction hbs with
  | nil => simp
  | cons hb hrest ih =>
    obtain ⟨now, id, rfl⟩ := hb
    exact ⟨congrArg₂ _ rfl ih.1, List.forall_mem_cons.mpr ⟨rfl, ih.2⟩⟩

theorem occurrences_pairwise {starts : List Time} {bs : List Booking}
    (happart : starts.Pairwise fun a b => a + service.durationMinutes.ms ≤ b)
    (hbs : Occurrences userId dto business service group starts bs) :
    bs.Pairwise fun b b' => b.endTime ≤ b'.startTime := by
  obtain ⟨hstarts, hends⟩ := occurrences_times hbs
  rw [← hstarts, List.pairwise_map] at happart
  apply happart.imp_of_mem
  intro b b' hb _ hle
  rw [hends b hb]
  exact hle

/-- `createRecurring` in a lively world books all its occurrences when each of them is vacant
before the call, and nothing otherwise. -/
theorem createRecurring_exact (hworld : Lively world s) (h : Orderable s dto.businessId dto.branchId
      dto.serviceId dto.staffMemberId business service) (hreferred : Referred s userId dto) : ∃ r s',
    (Thread.start (BookingService.createRecurring userId dto)).EndsIn world s r s' ∧
    ((∃ bs, r = .ok bs) ↔ ∀ i < dto.occurrences, Vacant s.booking dto.branchId dto.staffMemberId
      (dto.startTime + i * (7 * day)) (dto.startTime + i * (7 * day) + service.durationMinutes.ms)) ∧
    (∀ bs, r = .ok bs → ∃ t group, s' = { s with booking := t } ∧ t.rows = s.booking.rows ++ bs ∧
      bs.length = dto.occurrences ∧ (∀ b ∈ s.booking.rows, b.recurringGroupId ≠ some group) ∧
      (∀ i (hi : i < bs.length), (bs[i]).startTime = dto.startTime + i * (7 * day) ∧
        (bs[i]).endTime = dto.startTime + i * (7 * day) + service.durationMinutes.ms ∧
        (bs[i]).branchId = dto.branchId ∧ (bs[i]).staffMemberId = dto.staffMemberId ∧
        (bs[i]).status = .hold ∧ (bs[i]).recurringGroupId = some group) ∧
      bs.Pairwise fun b b' => b.endTime ≤ b'.startTime) ∧
    ∀ e, r = .error e → s' = s := by
  obtain ⟨k, hcontext⟩ := play_loadAndValidateContext (k := 0) hworld.up h
  have huuid : randomUUID.play world k none s = (.ok ((world k).newId 0), k + 1, none, s) :=
    play_look _
  have hbody := @play_createOccurrences world (k + 1 + 1) s s.booking userId dto business service
    ((world k).newId 0) hworld.up hworld.distinct (refs_occurrenceRow h hreferred)
    (BookingService.occurrences dto.startTime dto.occurrences)
    (occurrences_apart _ _ service.durationMinutes) fun j _ b hb => (hworld.unused j b hb).1
  obtain ⟨k', r, t, hplay, houtcome⟩ := hbody
  have hends := @Prog.endsIn _ _ _ _ _ world (BookingService.createRecurring userId dto) s
  have hvacant_iff : (∀ start ∈ BookingService.occurrences dto.startTime dto.occurrences,
      Vacant s.booking dto.branchId dto.staffMemberId start (start + service.durationMinutes.ms)) ↔
      ∀ i < dto.occurrences, Vacant s.booking dto.branchId dto.staffMemberId
        (dto.startTime + i * (7 * day)) (dto.startTime + i * (7 * day) + service.durationMinutes.ms) := by
    constructor
    · intro hall i hi
      exact hall _ (mem_occurrences.mpr ⟨i, hi, rfl⟩)
    · intro hall start hstart
      obtain ⟨i, hi, rfl⟩ := mem_occurrences.mp hstart
      exact hall i hi
  unfold BookingService.createRecurring at hends
  rw [play_bind_ok hcontext, play_bind_ok huuid] at hends
  rcases houtcome with ⟨hvacant, bs, rfl, hrows, hbs⟩ | ⟨⟨start, hstart, hnot⟩, message, rfl⟩
  · have htransaction := play_transaction (v := none) hworld.up hplay
    rw [play_tryCatch_ok htransaction] at hends
    have hlength : bs.length = dto.occurrences := by
      rw [← hbs.length_eq, occurrences_eq, List.length_map, List.length_range]
    refine ⟨_, _, hends, iff_of_true ⟨bs, rfl⟩ (hvacant_iff.mp hvacant), ?_, by simp⟩
    rintro _ ⟨⟩
    refine ⟨t, (world k).newId 0, rfl, hrows, hlength, fun b hb => (hworld.unused k b hb).2, ?_, ?_⟩
    · intro i hi
      have hstart : i < (BookingService.occurrences dto.startTime dto.occurrences).length := by
        rwa [hbs.length_eq]
      obtain ⟨now, id, hrow⟩ := hbs.get hstart hi
      have hi' : (BookingService.occurrences dto.startTime dto.occurrences).get ⟨i, hstart⟩ =
          dto.startTime + i * (7 * day) := by
        simp [occurrences_eq]
      rw [hi'] at hrow
      change bs[i] = _ at hrow
      rw [hrow]
      exact ⟨rfl, rfl, rfl, rfl, rfl, rfl⟩
    · exact occurrences_pairwise (occurrences_apart _ _ service.durationMinutes) hbs
  · have htransaction := play_transaction_error (v := none)
      (f := fun (g : Env) (s : Store) => if g.down then .error .unavailable else .ok s) hplay
    have hnone : ¬ ∀ i < dto.occurrences, Vacant s.booking dto.branchId dto.staffMemberId
        (dto.startTime + i * (7 * day)) (dto.startTime + i * (7 * day) + service.durationMinutes.ms) :=
      fun hall => hnot (hvacant_iff.mpr hall start hstart)
    refine ⟨_, _, hends, ?_⟩
    unfold BookingPlatform.transaction
    rw [play_tryCatch_error htransaction]
    exact ⟨iff_of_false (by rintro ⟨bs, ⟨⟩⟩) hnone, by rintro bs ⟨⟩, fun _ _ => rfl⟩

end

/-- A salon that is open for bookings. -/
def salon : Store where
  user := .single { id := 1, phone := "09120000000", passwordHash := ⟨""⟩, fullName := "" }
  business := .single {
    id := 1, ownerId := 1, name := "", category := "", status := .approved
    cancellationPolicy := { freeCancelHours := 24, feePercent := 50 } }
  branch := .single { id := 1, businessId := 1, name := "", address := "", latitude := 0, longitude := 0 }
  service := .single { id := 1, businessId := 1, name := "", durationMinutes := .halfHour, price := 0 }

/-- Two weeks are booked there. -/
theorem createRecurring_exact_twice : ∃ bs s',
    (Thread.start (BookingService.createRecurring 1
      { businessId := 1, branchId := 1, serviceId := 1, startTime := hour, occurrences := 2 })).EndsIn
        (fun k => { now := 0, uuid := fun _ => k }) salon (.ok bs) s' ∧
    s'.booking.rows = bs ∧ bs.length = 2 := by
  obtain ⟨r, s', hends, hok, hbooked, -⟩ := @createRecurring_exact
    (fun k => { now := 0, uuid := fun _ => k }) salon 1
    { businessId := 1, branchId := 1, serviceId := 1, startTime := hour, occurrences := 2 } _ _
    ⟨fun _ => rfl, fun _ _ h => Nat.succ.inj h, fun _ b hb => by simp [salon, Table.empty] at hb⟩
    ⟨⟨List.mem_singleton.mpr rfl, rfl, rfl⟩, by decide, ⟨List.mem_singleton.mpr rfl, rfl, rfl, rfl⟩,
      by simp [truthyId]⟩
    ⟨by decide, by simp⟩
  obtain ⟨bs, rfl⟩ := hok.mpr fun i _ b hb => by simp [salon, Table.empty] at hb
  obtain ⟨t, group, rfl, hrows, hlength, -⟩ := hbooked bs rfl
  exact ⟨bs, _, hends, hrows, hlength⟩

end BookingPlatform
