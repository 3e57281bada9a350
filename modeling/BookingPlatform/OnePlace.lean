import Mathlib.Data.Fintype.Defs
import BookingPlatform.BookingTable

/-! Staff at several branches. A slot is looked for in the lane of one branch, so a staff member
who works at two branches can be booked at both for the same time. -/
namespace BookingPlatform
open Async Data

/-- No staff member has two active bookings at one time, at whatever branches. -/
def OnePlace (t : Table Booking) : Prop :=
  ∀ b ∈ t.rows, ∀ b' ∈ t.rows, b ≠ b' → b.active = true → b'.active = true →
    ∀ m, b.staffMemberId = some m → b'.staffMemberId = some m →
      ¬ (b.startTime < b'.endTime ∧ b'.startTime < b.endTime)

/-- The slot that was found free at one branch meets no active booking of the staff member at
another one. -/
def Note.here (s : Store) : Note → Prop
  | .slotFree branchId (some m) startTime endTime _ => ∀ r ∈ s.booking.rows, r.active = true →
    r.staffMemberId = some m → r.branchId ≠ branchId → ¬ (r.startTime < endTime ∧ startTime < r.endTime)
  | _ => True

instance (s : Store) : (x : Note) → Decidable (x.here s)
  | .slotFree _ (some m) startTime endTime _ =>
    inferInstanceAs (Decidable (∀ r ∈ s.booking.rows, r.active = true → r.staffMemberId = some m →
      r.branchId ≠ _ → ¬ (r.startTime < endTime ∧ startTime < r.endTime)))
  | .slotFree _ none .. => .isTrue trivial
  | .acts _ | .lane .. | .confirming .. | .aims .. | .paying _ | .due .. | .balance .. | .walletless _
  | .unpayable _ | .opening _ | .opened .. | .handling _ | .finalising .. | .enrolling _ | .releasing _
  | .catalogue | .registering | .refunding _ | .profile _ | .locked .. | .counted .. | .points ..
  | .referred _ | .auth _ => .isTrue trivial

/-- The slots of the request in service are free of what its staff do elsewhere. -/
def FreeElsewhere (t : Thread Env Store Err Note Unit) (_ : Env) (s : Store) : Prop :=
  ∀ x ∈ t.notes, x.here s

instance (t : Thread Env Store Err Note Unit) (g : Env) (s : Store) : Decidable (FreeElsewhere t g s) :=
  inferInstanceAs (Decidable (∀ x ∈ t.notes, x.here s))

section
variable {t t' : Table Booking} {bs : List Booking} {id branchId : Id} {staffMemberId : Option Id}
  {startTime endTime : Time}

/-- A slot that is free in its lane and elsewhere. -/
theorem free_everywhere {s : Store} {ex : Option Id} (ht : s.booking = t)
    (hlane : SlotFree t branchId staffMemberId startTime endTime ex)
    (helse : Note.here s (.slotFree branchId staffMemberId startTime endTime ex)) {r : Booking}
    (hr : r ∈ t.rows) (hactive : r.active = true) (hex : ∀ x, ex = some x → r.id ≠ x) {m : Id}
    (hm : staffMemberId = some m) (hstaff : r.staffMemberId = some m) :
    ¬ (r.startTime < endTime ∧ startTime < r.endTime) := by
  subst ht hm
  by_cases hbranch : r.branchId = branchId
  · rintro ⟨hstart, hend⟩
    refine overlapping_eq_false.mp (hlane r hr) hbranch hstaff hactive ?_ hstart hend
    rw [Option.all_eq_true]
    intro x hx
    simpa using hex x (truthyId_eq_some.mp hx).1
  · exact helse r hr hactive hstaff hbranch

theorem OnePlace.book (ht : OnePlace t) (hrows : t'.rows = t.rows ++ bs)
    (hfree : ∀ b ∈ bs, ∀ r ∈ t.rows, r.active = true → ∀ m, b.staffMemberId = some m →
      r.staffMemberId = some m → ¬ (r.startTime < b.endTime ∧ b.startTime < r.endTime))
    (hbs : bs.Pairwise fun b b' => b.branchId = b'.branchId ∧ ¬ b.Overlaps b') : OnePlace t' := by
  intro b hb b' hb' hne hactive hactive' m hm hm' hover
  rw [hrows] at hb hb'
  rcases List.mem_append.mp hb with hb | hb <;> rcases List.mem_append.mp hb' with hb' | hb'
  · exact ht b hb b' hb' hne hactive hactive' m hm hm' hover
  · exact hfree b' hb' b hb hactive m hm' hm hover
  · exact hfree b hb b' hb' hactive' m hm hm' hover.symm
  · have hsymm : Std.Symm fun b b' : Booking => b.branchId = b'.branchId ∧ ¬ b.Overlaps b' :=
      ⟨fun _ _ h => ⟨h.1.symm, fun hover => h.2 hover.symm⟩⟩
    obtain ⟨hbranch, hapart⟩ := hbs.forall hb hb' hne
    exact hapart ⟨hbranch, hm.trans hm'.symm, hover⟩

/-- A booking moved to an interval that is free of all others of its staff member. -/
theorem OnePlace.move (ht : OnePlace t)
    (hlane : ∀ b ∈ t.rows, b.id = id → b.staffMemberId = staffMemberId)
    (hfree : ∀ r ∈ t.rows, r.active = true → r.id ≠ id → ∀ m, staffMemberId = some m →
      r.staffMemberId = some m → ¬ (r.startTime < endTime ∧ startTime < r.endTime))
    (hf : Data.Table.Keeps fun r : Booking => { r with startTime, endTime }) :
    OnePlace (t.update (fun r => r.id == id) (fun r => { r with startTime, endTime }) hf) := by
  intro b hb b' hb' hne hactive hactive' m hm hm' hover
  obtain ⟨r, hr, rfl⟩ := List.mem_map.mp hb
  obtain ⟨r', hr', rfl⟩ := List.mem_map.mp hb'
  by_cases hid : r.id = id <;> by_cases hid' : r'.id = id
  · obtain rfl := Table.id_eq hr hr' (hid.trans hid'.symm)
    exact hne rfl
  · simp only [hid, hid', beq_self_eq_true, beq_iff_eq, if_true, if_false] at hactive' hm hm' hover
    exact hfree r' hr' hactive' hid' m ((hlane r hr hid).symm.trans hm) hm' hover.symm
  · simp only [hid, hid', beq_self_eq_true, beq_iff_eq, if_true, if_false] at hactive hm hm' hover
    exact hfree r hr hactive hid m ((hlane r' hr' hid').symm.trans hm') hm hover
  · simp only [hid, hid', beq_iff_eq, if_false] at hne hactive hactive' hm hm' hover
    exact ht r hr r' hr' hne hactive hactive' m hm hm' hover

/-- Status changes that revive no booking. -/
theorem OnePlace.restate {next : BookingStatus} {p : Booking → Bool} {f : Booking → Booking}
    (ht : OnePlace t) (hf : Data.Table.Keeps f) (hnext : ∀ b, Booking.Restated next b (f b))
    (hallowed : ∀ b ∈ t.rows, p b = true → next ∈ allowedStatusTransitions b.status) :
    OnePlace (t.update p f hf) := by
  have hback (r : Booking) (hr : r ∈ t.rows) :
      ((if p r then f r else r).active = true → r.active = true) ∧
      (if p r then f r else r).staffMemberId = r.staffMemberId ∧
      (if p r then f r else r).startTime = r.startTime ∧ (if p r then f r else r).endTime = r.endTime := by
    by_cases hp : p r = true
    · simp only [hp, if_true]
      rw [hnext r]
      exact ⟨fun _ => active_of_allowed (hallowed r hr hp), rfl, rfl, rfl⟩
    · simp [hp]
  intro b hb b' hb' hne hactive hactive' m hm hm' hover
  obtain ⟨r, hr, rfl⟩ := List.mem_map.mp hb
  obtain ⟨r', hr', rfl⟩ := List.mem_map.mp hb'
  obtain ⟨hact, hstaff, hstart, hend⟩ := hback r hr
  obtain ⟨hact', hstaff', hstart', hend'⟩ := hback r' hr'
  rw [hstaff] at hm
  rw [hstaff'] at hm'
  rw [hstart, hend, hstart', hend'] at hover
  exact ht r hr r' hr' (fun h => hne (by rw [h])) (hact hactive) (hact' hactive') m hm hm' hover

end

/-! ### Changes and histories -/

section
variable {s s' : Store} {ns : List Note}

theorem Change.onePlace (h : Change ns s.core s'.core) (hns : ∀ x ∈ ns, x.stands s.core)
    (hhere : ∀ x ∈ ns, x.here s) (hs : OnePlace s.booking) : OnePlace s'.booking := by
  have statusSet {id : Id} {next : BookingStatus} {t : Table Booking}
      (ht : StatusSet id next s.booking t) (hrow : ∃ b ∈ s.booking.rows, b.id = id ∧
        next ∈ allowedStatusTransitions b.status) : OnePlace t := by
    obtain ⟨f, hf, hnext, rfl⟩ := ht
    obtain ⟨b, hb, hid, hallowed⟩ := hrow
    refine hs.restate hf hnext fun b' hb' hp => ?_
    obtain rfl := Table.id_eq hb hb' (hid.trans (beq_iff_eq.mp hp).symm)
    exact hallowed
  have hcore : s'.booking = s'.core.booking := rfl
  rw [hcore]
  generalize s'.core = c at h
  cases h with
  | book bs t hrows hbs hpair =>
    refine hs.book hrows (fun b hb r hr hactive m hm hstaff => ?_) hpair
    obtain ⟨-, -, -, -, hslot⟩ := hbs b hb
    exact free_everywhere rfl (hns _ hslot) (hhere _ hslot) hr hactive (by simp) hm hstaff
  | move id branchId staffMemberId startTime endTime t hlane hfree _ ht =>
    obtain ⟨hf, rfl⟩ := ht
    obtain ⟨b, hb, hid, -, hstaff⟩ := hns _ hlane
    have hlane : ∀ r ∈ s.booking.rows, r.id = id → r.staffMemberId = staffMemberId := by
      intro r hr hrid
      obtain rfl := Table.id_eq hb hr (hid.trans hrid.symm)
      exact hstaff
    refine hs.move hlane (fun r hr hactive hrid m hm hof => ?_) hf
    refine free_everywhere rfl (hns _ hfree) (hhere _ hfree) hr hactive ?_ hm hof
    rintro x ⟨⟩
    exact hrid
  | status id next t tr haims _ ht => exact statusSet ht (hns _ haims)
  | release now t _ ht =>
    obtain ⟨f, hf, hnext, rfl⟩ := ht
    refine hs.restate hf hnext fun b _ hp => ?_
    simp only [Bool.and_eq_true, beq_iff_eq] at hp
    simp [hp.1, allowedStatusTransitions]
  | confirmPaid p ref bookingId tp tb tr _ _ _ _ hpaying _ ht =>
    exact statusSet ht (confirmed_allowed (hns _ hpaying))
  | payWallet userId bookingId walletId amount x p tp tw tl tb tr _ hpaying _ _ _ _ _ _ _ _ _ _ _
      _ _ ht => exact statusSet ht (confirmed_allowed (hns _ hpaying))
  | _ => exact hs

variable {accepts : Request → Store → Prop} {s₀ : Store} {past : List Store}
  {t : Option (Thread Env Store Err Note Unit)}

theorem onePlace_serving : Serving Request.serve accepts FreeElsewhere (fun r => contract r.takes)
    (fun _ => anyway) (fun s => OnePlace s.booking)
    (fun _ ns s => OnePlace s.booking ∧ ∀ x ∈ ns, x.stands s.core) (fun _ _ => True) := by
  have hmeaning (r : Request) : Meaning ((contract r.takes).given fun ns s => ∀ x ∈ ns, x.here s)
      (fun s => OnePlace s.booking) (fun x s => x.stands s.core) := by
    refine ⟨fun _ _ hheld hx => stands_grounds hheld hx.2, ?_, ?_⟩
    · intro ns s s' hs hns h
      rw [asked_booking h]
      exact ⟨hs, fun x hx => stands_asked h (hns x hx)⟩
    · intro ns s s' hs hns h
      exact Change.onePlace h.2 hns h.1 hs
  refine Meaning.serving (fun _ => trivial) (fun {t g s} h => h) (fun {r s} => r.serve_owes s)
    hmeaning (fun _ => trivial) ?_ ?_
  · intro r ns s s' _ _
    trivial
  · intro r ns s s' _ _ _ _
    trivial

/-- Whatever is requested, one after another: no staff member is at two places, as long as no
request books staff who are booked elsewhere at that time. -/
theorem one_place (h₀ : OnePlace s₀.booking)
    (h : Serial Request.serve accepts FreeElsewhere s₀ t s past) : OnePlace s.booking := by
  obtain ⟨hnow, -⟩ := onePlace_serving.now h₀ h
  cases t with
  | none => exact hnow
  | some t =>
    obtain ⟨_, _, _, hplace, -⟩ := hnow
    exact hplace

end

/-- The requests that book, move and end bookings. -/
def Request.schedules : Request → Bool
  | hold .. | createRecurring .. | reschedule .. | confirm .. | confirmGroup .. | cancelByUser ..
  | releaseExpiredHolds => true
  | business _ _ (.updateBookingStatus ..) | business _ _ (.cancelBooking ..) => true
  | _ => false

instance (t : Table Booking) : Decidable (OnePlace t) :=
  decidable_of_iff (∀ b ∈ t.rows, ∀ b' ∈ t.rows, b ≠ b' → b.active = true → b'.active = true →
      ∀ m ∈ b.staffMemberId, b'.staffMemberId = some m →
        ¬ (b.startTime < b'.endTime ∧ b'.startTime < b.endTime)) Iff.rfl

/-- A business with two branches and one barber. -/
def chain : Store where
  user := .single { id := 1, phone := "09120000000", passwordHash := ⟨""⟩, fullName := "" }
  business := .single {
    id := 1, ownerId := 1, name := "", category := "", status := .approved
    cancellationPolicy := defaultCancellationPolicy }
  branch := ⟨[1, 2].map fun id => {
    id, businessId := 1, name := "", address := "", latitude := 0, longitude := 0 }, by decide⟩
  staffMember := .single { id := 3, userId := 1, businessId := 1 }
  service := .single {
    id := 1, businessId := 1, name := "", durationMinutes := .halfHour, price := 10000 }

/-- A hold of the barber's half hour from this time at this branch. -/
def barberAt (branchId : Id) (startTime : Time) : Request :=
  .hold 1 { businessId := 1, branchId, serviceId := 1, staffMemberId := some 3, startTime }

/-- The barber is held at one branch and, for the half hour after that, at the other one, and for the first half hour
there too when his hold at the first one is cancelled. -/
theorem one_place_chain : ∃ s past,
    Serial Request.serve (fun r _ => r.schedules = true) FreeElsewhere chain none s past ∧
      (s.booking.rows.map fun b => (b.branchId, b.startTime, b.active)) =
        [(1, 0, false), (2, 30 * minute, true), (2, 0, true)] ∧ OnePlace s.booking := by
  have hreplays : Replays Request.serve (fun r _ => r.schedules = true) FreeElsewhere chain
      [(barberAt 1 0, List.replicate 12 (.of 0 1)), (barberAt 2 (30 * minute), List.replicate 12 (.of 0 2)),
        (.cancelByUser 1 2 {}, List.replicate 6 (.of 0 3)), (barberAt 2 0, List.replicate 12 (.of 0 4))] := by
    decide +kernel
  obtain ⟨past, hserial⟩ := Serial.replay .init hreplays
  exact ⟨_, past, hserial, by decide +kernel, one_place (by decide) hserial⟩

/-- The barber is held at both branches for the same half hour. -/
theorem two_places : ¬ ∀ s₀ : Store, OnePlace s₀.booking → ∀ t s past,
    Serial Request.serve (fun r _ => r.schedules = true) (fun _ _ _ => True) s₀ t s past →
      OnePlace s.booking := by
  intro h
  have hreplays : Replays Request.serve (fun r _ => r.schedules = true) (fun _ _ _ => True) chain
      [(barberAt 1 0, List.replicate 12 (.of 0 1)), (barberAt 2 0, List.replicate 12 (.of 0 2))] := by
    decide +kernel
  obtain ⟨past, hserial⟩ := Serial.replay .init hreplays
  have hplace := h chain (by decide) none _ past hserial
  revert hplace
  decide +kernel

end BookingPlatform
