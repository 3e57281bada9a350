import BookingPlatform.Lanes

/-! Requests that book, in any interleaving. The lock of `hold` and `reschedule` names the
exact start of the interval and `createRecurring` takes none, so two requests may find
overlapping intervals free before either of them commits. -/
namespace BookingPlatform
open Async Data

/-- The requests that put a booking into an interval. -/
def Request.Books : Request → Prop
  | hold .. | createRecurring .. | reschedule .. => True
  | _ => False

/-- What a request that books knows while its transaction is open. -/
def Note.ofSlots (s : Store) : Note → Prop
  | .acts _ | .locked .. | .counted .. | .points .. | .referred _ | .auth _ => True
  | .slotFree branchId staffMemberId startTime endTime excludeBookingId =>
    SlotFree s.booking branchId staffMemberId startTime endTime excludeBookingId
  | .lane id branchId staffMemberId => ∃ b ∈ s.booking.rows,
    b.id = id ∧ b.branchId = branchId ∧ b.staffMemberId = staffMemberId
  | _ => False

/-- Two requests have found overlapping intervals of one lane free, and do not both move the
same booking. -/
def rivalSlots (_ : Store) : Note → Note → Prop
  | .slotFree branchId staffMemberId startTime endTime excludeBookingId,
    .slotFree branchId' staffMemberId' startTime' endTime' excludeBookingId' =>
    branchId = branchId' ∧ staffMemberId = staffMemberId' ∧ startTime < endTime' ∧
      startTime' < endTime ∧
      (truthyId excludeBookingId = none ∨ excludeBookingId ≠ excludeBookingId')
  | _, _ => False

instance (s : Store) (x y : Note) : Decidable (rivalSlots s x y) := by
  unfold rivalSlots
  split <;> infer_instance

section
variable {r : Request} {s s' : Store} {ns : List Note}

theorem ofSlots_grounds {held : List Note} {x : Note} (hr : r.Books) (hx : r.takes x)
    (hground : Grounds held s.core s'.core x) : Note.ofSlots s' x := by
  cases x with
  | acts | locked | counted | points | referred | auth => trivial
  | slotFree => exact hground
  | lane => exact hground
  | _ => cases r <;> simp [Request.Books, Request.takes] at hr hx

/-- The changes that notes on slots allow: anything but bookings, new ones, or one moved. -/
theorem change_ofSlots (h : Change ns s.core s'.core) (hns : ∀ x ∈ ns, Note.ofSlots s x) :
    s'.booking = s.booking ∨
      (∃ bs, s'.booking.rows = s.booking.rows ++ bs ∧ (∀ b ∈ bs,
        .slotFree b.branchId b.staffMemberId b.startTime b.endTime none ∈ ns) ∧
        bs.Pairwise fun b b' => ¬ b.Overlaps b') ∨
      ∃ id branchId staffMemberId startTime endTime, .lane id branchId staffMemberId ∈ ns ∧
        .slotFree branchId staffMemberId startTime endTime (some id) ∈ ns ∧
        ∃ hf, s'.booking = s.booking.update (fun r => r.id == id)
          (fun r => { r with startTime, endTime }) hf := by
  have hnot {x : Note} (hx : x ∈ ns) (hno : ¬ Note.ofSlots s x) : False := hno (hns x hx)
  have hcore : s'.booking = s'.core.booking := rfl
  rw [hcore]
  generalize s'.core = c at h
  cases h with
  | book bs t hrows hbs hpair => exact .inr (.inl ⟨bs, hrows, fun b hb => (hbs b hb).2.2.2.2,
    hpair.imp And.right⟩)
  | move id branchId staffMemberId startTime endTime t hlane hfree _ ht =>
    exact .inr (.inr ⟨id, branchId, staffMemberId, startTime, endTime, hlane, hfree, ht⟩)
  | status _ _ _ _ hx => exact (hnot hx id).elim
  | release _ _ hx => exact (hnot hx id).elim
  | confirmPaid _ _ _ _ _ _ hx => exact (hnot hx id).elim
  | payWallet _ _ _ _ _ _ _ _ _ _ _ hx => exact (hnot hx id).elim
  | _ => exact .inl rfl

theorem ofSlots_eq (h : s'.booking = s.booking) (x : Note) :
    Note.ofSlots s' x ↔ Note.ofSlots s x := by
  cases x <;> simp [Note.ofSlots, h]

theorem lane_row {id branchId : Id} {staffMemberId : Option Id} {b : Booking}
    (h : Note.ofSlots s (.lane id branchId staffMemberId)) (hb : b ∈ s.booking.rows)
    (hid : b.id = id) : b.branchId = branchId ∧ b.staffMemberId = staffMemberId := by
  obtain ⟨b', hb', hid', hlane⟩ := h
  obtain rfl := Table.id_eq hb hb' (hid.trans hid'.symm)
  exact hlane

/-- A request that books keeps the lanes apart when nobody else is at work. -/
theorem meaning_ofSlots (hr : r.Books) :
    Meaning (contract r.takes) (fun s => Apart s.booking) (fun x s => Note.ofSlots s x) where
  grounds _ _ _ hx := ofSlots_grounds hr (Request.takes_of_noted hx) hx.2
  auto := by
    intro ns s s' hs hns h
    have hbooking := asked_booking h
    rw [hbooking]
    exact ⟨hs, fun x hx => (ofSlots_eq hbooking x).mpr (hns x hx)⟩
  commit := by
    intro ns s s' hs hns h
    rcases change_ofSlots h hns with hsame | ⟨bs, hrows, hfree, hpair⟩ |
      ⟨id, branchId, staffMemberId, a, b, hlane, hfree, hf, hmove⟩
    · rw [hsame]
      exact hs
    · exact hs.book hrows (fun b hb => hns _ (hfree b hb)) hpair
    · rw [hmove]
      exact hs.move (fun _ => lane_row (hns _ hlane)) (hns _ hfree) hf

/-- A slot found free stays free when no rival commits. -/
theorem steady_ofSlots : Steady (contract r.takes) (fun s => Apart s.booking)
    (fun x s => Note.ofSlots s x) rivalSlots where
  auto := by
    intro ns s s' x _ hx h
    exact (ofSlots_eq (asked_booking h) x).mpr hx
  commit := by
    intro ns s s' x _ hns h hrival hx
    rcases change_ofSlots h hns with hsame | ⟨bs, hrows, hfree, -⟩ |
      ⟨id, branchId, staffMemberId, a, b, hlane, hfree, hf, hmove⟩
    · exact (ofSlots_eq hsame x).mpr hx
    · cases x with
      | slotFree l m a b ex =>
        intro r hr
        rw [hrows] at hr
        rcases List.mem_append.mp hr with hr | hr
        · exact hx r hr
        · by_contra hover
          have hslot := hrival _ (hfree r hr)
          simp only [BookingService.overlapping, Bool.not_eq_false, Bool.and_eq_true, beq_iff_eq,
            decide_eq_true_eq] at hover
          obtain ⟨⟨⟨⟨⟨rfl, rfl⟩, -⟩, -⟩, hstart⟩, hend⟩ := hover
          refine hslot ⟨rfl, rfl, hend, hstart, ?_⟩
          cases ex <;> simp [truthyId]
      | lane id l m =>
        obtain ⟨b, hb, hlane⟩ := hx
        refine ⟨b, ?_, hlane⟩
        rw [hrows]
        exact List.mem_append_left _ hb
      | _ => exact hx
    · cases x with
      | slotFree l m a' b' ex =>
        rw [Note.ofSlots, hmove]
        intro r' hr'
        obtain ⟨r, hr, rfl⟩ := List.mem_map.mp hr'
        by_cases hid : r.id = id
        · by_contra hover
          have hslot := hrival _ hfree
          obtain ⟨hbranch, hstaff⟩ := lane_row (hns _ hlane) hr hid
          simp only [BookingService.overlapping, Bool.not_eq_false, Bool.and_eq_true, beq_iff_eq,
            decide_eq_true_eq, hid, if_true, Option.all_eq_true, bne_iff_ne] at hover
          obtain ⟨⟨⟨⟨⟨rfl, rfl⟩, -⟩, hex⟩, hstart⟩, hend⟩ := hover
          refine hslot ⟨hbranch, hstaff, hend, hstart, ?_⟩
          by_cases hsame : truthyId ex = none
          · exact .inl hsame
          · right
            rintro rfl
            obtain ⟨i, hi⟩ := Option.ne_none_iff_exists'.mp hsame
            exact hex i hi (Option.some.inj (truthyId_eq_some.mp hi).1)
        · simpa [hid] using hx r hr
      | lane id' l m =>
        obtain ⟨b', hb', hlane'⟩ := hx
        rw [Note.ofSlots, hmove]
        refine ⟨_, List.mem_map_of_mem hb', ?_⟩
        split <;> exact hlane'
      | _ => exact hx

end

/-! ### Runs -/

/-- No lock of the store has expired. -/
def Unexpired {ι : Type} (c : Config ι Env Store Err Note Unit) (_ : ι) (g : Env) : Prop :=
  ∀ l ∈ c.store.lock.rows, g.now < l.expiresAt

instance {ι : Type} (c : Config ι Env Store Err Note Unit) (i : ι) (g : Env) :
    Decidable (Unexpired c i g) :=
  inferInstanceAs (Decidable (∀ l ∈ c.store.lock.rows, g.now < l.expiresAt))

/-- Requests that book keep the lanes apart as long as none of them commits a booking while
another one has found an overlapping interval free. -/
theorem apart_of_run {ι : Type} [DecidableEq ι] {r : ι → Request} (hr : ∀ i, (r i).Books)
    {s₀ : Store} (h₀ : Apart s₀.booking) {c : Config ι Env Store Err Note Unit}
    {past : List (ι × Store)}
    (hrun : Run (fun c i _ => ¬ c.Overtakes rivalSlots i) (.start (fun i => (r i).serve) s₀) c past) :
    Apart c.store.booking :=
  (Run.meant_of_steady (Request.concurrent r) (fun i => meaning_ofSlots (hr i))
    (fun _ => steady_ofSlots) h₀ (fun h => h) hrun).1

/-- A store in which one user can book one service. -/
def shop : Store where
  user := .single { id := 1, phone := "09120000000", passwordHash := ⟨""⟩, fullName := "" }
  business := .single {
    id := 1, ownerId := 1, name := "", category := "", status := .approved
    cancellationPolicy := defaultCancellationPolicy }
  branch := .single { id := 1, businessId := 1, name := "", address := "", latitude := 0, longitude := 0 }
  service := .single {
    id := 1, businessId := 1, name := "", durationMinutes := .halfHour, price := 10000 }

/-- A call at this time, which is handed this uuid. -/
def Env.of (now : Time) (uuid : ℕ) : Env := { now, uuid := fun _ => uuid }

/-- Two half hours that start a quarter of an hour apart. -/
def halfHours (late : Bool) : Request :=
  .hold 1 { businessId := 1, branchId := 1, serviceId := 1, startTime := if late then 15 * minute else 0 }

/-- The second request runs between the check and the insertion of the first one. -/
def betweenCheckAndInsert : List (Bool × Env) :=
  List.replicate 7 (false, .of 0 1) ++ List.replicate 10 (true, .of 0 2) ++
    List.replicate 4 (false, .of 0 1)

/-- Three half hours, each of which starts a quarter of an hour after the one before. -/
def quarters (i : Fin 3) : Request :=
  .hold 1 { businessId := 1, branchId := 1, serviceId := 1, startTime := i.val * (15 * minute) }

/-- The outer two are booked side by side, while the one between them has not come to its check. -/
def sideBySide : List (Fin 3 × Env) :=
  List.replicate 6 (1, .of 0 2) ++ (List.replicate 11 [(0, .of 0 1), (2, .of 0 3)]).flatten ++
    List.replicate 5 (1, .of 0 2)

theorem apart_of_run_quarters : ∃ c past, Run (fun c i _ => ¬ c.Overtakes rivalSlots i)
      (.start (fun i => (quarters i).serve) shop) c past ∧
    (∀ i, (c.thread i).result.isSome) ∧
    c.store.booking.rows.map Booking.startTime = [0, 30 * minute] ∧ Apart c.store.booking := by
  have hadmits : (Config.start (fun i => (quarters i).serve) shop).Admits
      (fun c i _ => ¬ c.Overtakes rivalSlots i) sideBySide := by decide +kernel
  obtain ⟨past, hrun⟩ := Run.follow .refl hadmits
  exact ⟨_, past, hrun, by decide +kernel, by decide +kernel,
    apart_of_run (r := quarters) (fun _ => trivial) (by decide) hrun⟩

/-- Two holds of overlapping half hours both succeed. -/
theorem double_booking : ¬ ∀ (r : Bool → Request), (∀ i, (r i).Books) → ∀ s₀ : Store,
    Apart s₀.booking → ∀ c past, Run Unexpired (.start (fun i => (r i).serve) s₀) c past →
      Apart c.store.booking := by
  intro h
  have hadmits : (Config.start (fun i => (halfHours i).serve) shop).Admits Unexpired
      betweenCheckAndInsert := by decide +kernel
  obtain ⟨past, hrun⟩ := Run.follow .refl hadmits
  have := h halfHours (fun _ => trivial) shop (by decide) _ past hrun
  revert this
  decide +kernel

end BookingPlatform
