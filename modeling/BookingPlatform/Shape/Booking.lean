import BookingPlatform.Contract

/-! The changes that `BookingService` makes. -/
namespace BookingPlatform
open Async Data Prog

section
variable {α : Type} {K : Note → Prop} {ns : List Note} {s₀ s : Store}
  {w : Store → Except Err Store} {P : Core → Core → Prop}

/-- The bookings `bs` were added at the end of the table. -/
def Appended (bs : List Booking) (c c' : Core) : Prop :=
  ∃ t, t.rows = c.booking.rows ++ bs ∧ c' = { c with booking := t }

theorem appended_nil (c : Core) : Appended [] c c := ⟨c.booking, by simp, rfl⟩

theorem Appended.mem {bs : List Booking} {c c' : Core} (h : Appended bs c c') {b : Booking} :
    b ∈ c'.booking.rows ↔ b ∈ c.booking.rows ∨ b ∈ bs := by
  obtain ⟨t, ht, rfl⟩ := h
  simp [ht]

theorem Appended.insert {bs : List Booking} {b : Booking} {c c' : Core}
    (h : Then (Appended bs) (Inserted b) c c') : Appended (bs ++ [b]) c c' := by
  obtain ⟨_, ⟨t, ht, rfl⟩, -, t', ht', rfl⟩ := h
  refine ⟨t', ?_, rfl⟩
  rw [Table.insert_rows ht', ← List.append_assoc, ← ht]
  rfl

/-- A slot found free is free of every active booking in the lane. -/
theorem overlapping_eq_false {branchId : Id} {staffMemberId ex : Option Id} {a b : Time}
    {r : Booking} : BookingService.overlapping branchId staffMemberId a b ex r = false ↔
      (r.branchId = branchId → r.staffMemberId = staffMemberId → r.active = true →
        (truthyId ex).all (fun id => r.id != id) = true → r.startTime < b → ¬ a < r.endTime) := by
  simp only [BookingService.overlapping, Bool.and_eq_false_iff, beq_eq_false_iff_ne,
    decide_eq_false_iff_not]
  constructor
  · intro h h₁ h₂ h₃ h₄ h₅ h₆
    simp [h₁, h₂, h₃, h₄, h₅, h₆] at h
  · intro h
    by_contra hn
    simp only [not_or, not_not, Bool.not_eq_false] at hn
    obtain ⟨⟨⟨⟨⟨h₁, h₂⟩, h₃⟩, h₄⟩, h₅⟩, h₆⟩ := hn
    exact h h₁ h₂ h₃ h₄ h₅ h₆

theorem wp_assertSlotFree {Q : Post Store Err Note Unit} {branchId : Id}
    {staffMemberId ex : Option Id} {a b : Time} (hK : K (.slotFree branchId staffMemberId a b ex))
    (hw : Pending (onCore P) w)
    (hP : ∀ c c', P c c' → ∀ r ∈ c.booking.rows, r ∈ c'.booking.rows)
    (hok : ∀ s₁ v w', P s₁.core v →
      (∀ r ∈ v.booking.rows, BookingService.overlapping branchId staffMemberId a b ex r = false) →
      Pending (onCore P) w' →
      Q (.ok ()) (some w') (.slotFree branchId staffMemberId a b ex :: ns) s₁ s₁)
    (herr : ∀ e w s₁, Q (.error e) w ns s₁ s₁) :
    wp (contract K) Q (BookingService.assertSlotFree branchId staffMemberId a b ex) (some w) ns
      s₀ s := by
  refine (wp_bind _ _).mpr (wp_query_tx hw ?_ fun e s₁ _ => herr e _ s₁)
  intro g s₁ v _ _ hv w' hw' _
  refine (wp_bind _ _).mpr ((wp_ensure _ _).mpr ⟨fun hnone => ?_, fun _ => herr _ _ s₁⟩)
  have hfree := findFirst_none hnone
  refine (wp_mark _).mpr ⟨⟨.inr hK, fun r hr => hfree r (hP _ _ hv r hr)⟩, ?_⟩
  exact hok s₁ v.core w' hv hfree hw'

/-- The bookings made so far in a transaction that books. -/
structure Bookable (bs : List Booking) (ns : List Note) : Prop where
  row : ∀ b ∈ bs, b.id ≠ 0 ∧ b.status = .hold ∧ b.startTime < b.endTime ∧ b.holdExpiresAt.isSome ∧
    Note.slotFree b.branchId b.staffMemberId b.startTime b.endTime none ∈ ns
  apart : bs.Pairwise fun b b' => b.branchId = b'.branchId ∧ ¬ b.Overlaps b'

theorem bookable_nil : Bookable [] ns := ⟨by simp, .nil⟩

theorem Bookable.more {bs : List Booking} {ns' : List Note} (h : Bookable bs ns) (hns : ns ⊆ ns') :
    Bookable bs ns' := by
  refine ⟨fun b hb => ?_, h.apart⟩
  obtain ⟨h₀, h₁, h₂, h₃, h₄⟩ := h.row b hb
  exact ⟨h₀, h₁, h₂, h₃, hns h₄⟩

theorem Bookable.change {bs : List Booking} {c c' : Core} (h : Bookable bs ns)
    (hc : Appended bs c c') : Change ns c c' := by
  obtain ⟨t, ht, rfl⟩ := hc
  exact .book bs t ht h.row h.apart

/-- One more booking of the branch, whose slot was found free among those made so far. -/
theorem Bookable.snoc {bs : List Booking} {b : Booking} {c c' : Core} (h : Bookable bs ns)
    (hc : Appended bs c c') (hbranch : ∀ r ∈ bs, r.branchId = b.branchId) (hfree : ∀ r ∈ c'.booking.rows,
      BookingService.overlapping b.branchId b.staffMemberId b.startTime b.endTime none r = false)
    (hid : b.id ≠ 0) (hhold : b.status = .hold) (htime : b.startTime < b.endTime) (hexp : b.holdExpiresAt.isSome) :
    Bookable (bs ++ [b])
      (.slotFree b.branchId b.staffMemberId b.startTime b.endTime none :: ns) := by
  constructor
  · intro r hr
    rcases List.mem_append.mp hr with hr | hr
    · obtain ⟨h₀, h₁, h₂, h₃, h₄⟩ := h.row r hr
      exact ⟨h₀, h₁, h₂, h₃, List.mem_cons_of_mem _ h₄⟩
    · rw [List.mem_singleton.mp hr]
      exact ⟨hid, hhold, htime, hexp, List.mem_cons_self⟩
  · refine List.pairwise_append.mpr ⟨h.apart, List.pairwise_singleton _ _, fun r hr b' hb' => ?_⟩
    rw [List.mem_singleton.mp hb']
    refine ⟨hbranch r hr, ?_⟩
    rintro ⟨h₁, h₂, h₃, h₄⟩
    have hactive : r.active = true := by
      simp [Booking.active, (h.row r hr).2.1, activeStatuses]
    exact overlapping_eq_false.mp (hfree r (hc.mem.mpr (.inr hr))) h₁ h₂ hactive
      (by simp [truthyId]) h₃ h₄

theorem hold_owes (hK : ∀ branchId staffMemberId a b ex, K (.slotFree branchId staffMemberId a b ex))
    (userId : Id) (dto : HoldBookingDto) :
    wp (contract K) anyway (BookingService.hold userId dto) none ns s₀ s := by
  refine (wp_bind _ _).mpr (wp_quiet (loadAndValidateContext_within Quiet.refl _ _ _ _) fun r _ s₀ s _ => ?_)
  rcases r with e | ⟨business, service⟩
  · trivial
  refine wp_tryCatch_anyway (wp_withLock fun _ s₀ s hns => wp_transaction (fun s₁ _ => ?_)
    fun _ _ => trivial) fun e => by cases e <;> trivial
  refine (wp_bind _ _).mpr (wp_assertSlotFree (P := Appended []) (hK _ _ _ _ _) ?_
    (fun c c' h r hr => h.mem.mpr (.inl hr)) ?_ fun _ _ _ => trivial)
  · rintro s v ⟨⟩
    exact appended_nil s.core
  intro s₂ v w₁ hv hfree hw₁
  refine (wp_bind _ _).mpr (wp_quiet_tx (redeemFor_within Quiet.refl (fun _ => id) quiet_may quiet_may _ _ _) hw₁ fun r w₂ _ s₀ s' hw₂ hmore => ?_)
  rcases r with e | ⟨discountAmount, redeemedCouponId⟩
  · trivial
  refine (wp_bind _ _).mpr (wp_look_tx hw₂ (fun g s₃ _ w₃ hw₃ => ?_) fun _ _ _ => trivial)
  refine (wp_bind _ _).mpr (wp_tx_create hw₃ (fun s₄ w₄ id hid hw₄ => ?_) fun _ _ _ => trivial)
  have hw₄ : Pending (onCore (Appended ([] ++ [_]))) w₄ := hw₄.mono fun s v h => Appended.insert h
  refine (wp_bind _ _).mpr (wp_quiet_tx (linkUsage_within quiet_may _ _ _) hw₄ fun r w₅ _ s₀ s' hw₅ hmore' => ?_)
  cases r with
  | error e => trivial
  | ok _ =>
    intro g s₅ s₆ _ _ hs₆
    have hstart : dto.startTime < dto.startTime + service.durationMinutes.ms :=
      Int.lt_add_of_pos_right _ service.durationMinutes.ms_pos
    have hns := List.Subset.trans hmore hmore'
    exact ⟨((bookable_nil.snoc hv (by simp) hfree hid rfl hstart rfl).more hns).change (hw₅ s₅ s₆ hs₆), trivial⟩

/-- The loop of `createRecurring`, after the bookings `bs`. -/
theorem createOccurrences_owes
    (hK : ∀ branchId staffMemberId a b ex, K (.slotFree branchId staffMemberId a b ex))
    {Q : Post Store Err Note (List Booking)} {userId : Id} {dto : CreateRecurringBookingDto}
    {business : Business} {service : Service} {recurringGroupId : Id} {times : List Time}
    {bs : List Booking} (hw : Pending (onCore (Appended bs)) w) (hbs : Bookable bs ns)
    (hbranch : ∀ b ∈ bs, b.branchId = dto.branchId)
    (hok : ∀ r bs w ns s₀ s, Pending (onCore (Appended bs)) w → Bookable bs ns →
      Q (.ok r) (some w) ns s₀ s)
    (herr : ∀ e w ns s₀ s, Q (.error e) w ns s₀ s) :
    wp (contract K) Q (BookingService.createOccurrences userId dto business service
      recurringGroupId times) (some w) ns s₀ s := by
  induction times generalizing bs w ns s₀ s Q with
  | nil => exact hok _ bs w ns _ _ hw hbs
  | cons startTime rest ih =>
    refine (wp_bind _ _).mpr (wp_assertSlotFree (hK _ _ _ _ _) hw
      (fun c c' h r hr => h.mem.mpr (.inl hr)) ?_ fun _ _ _ => herr _ _ _ _ _)
    intro s₁ v w₁ hv hfree hw₁
    refine (wp_bind _ _).mpr (wp_look_tx hw₁ (fun g s₂ _ w₂ hw₂ => ?_)
      fun _ _ _ => herr _ _ _ _ _)
    refine (wp_bind _ _).mpr (wp_tx_create hw₂ (fun s₃ w₃ id hid hw₃ => ?_)
      fun _ _ _ => herr _ _ _ _ _)
    have hw₃ : Pending (onCore (Appended (bs ++ [_]))) w₃ := hw₃.mono fun s v h => Appended.insert h
    have hstart : startTime < startTime + service.durationMinutes.ms :=
      Int.lt_add_of_pos_right _ service.durationMinutes.ms_pos
    refine (wp_bind _ _).mpr (ih hw₃ (hbs.snoc hv hbranch hfree hid rfl hstart rfl)
      (List.forall_mem_append.mpr ⟨hbranch, List.forall_mem_singleton.mpr rfl⟩) ?_ ?_)
    · exact fun r bs w ns s₀ s hw hbs => hok _ bs w ns s₀ s hw hbs
    · exact fun e w ns s₀ s => herr e w ns s₀ s

theorem createRecurring_owes
    (hK : ∀ branchId staffMemberId a b ex, K (.slotFree branchId staffMemberId a b ex))
    (userId : Id) (dto : CreateRecurringBookingDto) :
    wp (contract K) anyway (BookingService.createRecurring userId dto) none ns s₀ s := by
  refine (wp_bind _ _).mpr (wp_quiet (loadAndValidateContext_within Quiet.refl _ _ _ _) fun r _ s₀ s _ => ?_)
  rcases r with e | ⟨business, service⟩
  · trivial
  refine (wp_bind _ _).mpr (wp_look fun g s₁ _ => ?_)
  refine wp_tryCatch_anyway (wp_transaction (fun s₁ _ => ?_) fun _ _ => trivial)
    fun e => by cases e <;> trivial
  refine createOccurrences_owes hK ?_ bookable_nil (by simp) ?_ fun _ _ _ _ _ => trivial
  · rintro s v ⟨⟩
    exact appended_nil s.core
  · intro r bs w ns s₀ s hw hbs g s₁ s₂ _ _ hs₂
    exact ⟨hbs.change (hw s₁ s₂ hs₂), trivial⟩

/-! ### Status changes -/

theorem statusSet_of_updated {id : Id} {next : BookingStatus} {f : Booking → Booking}
    {hf : Table.Keeps f} {c c' : Core} (hnext : ∀ b, Booking.Restated next b (f b))
    (h : Updated (fun r : Booking => r.id == id) f hf c c') :
    ∃ t, StatusSet id next c.booking t ∧ c' = { c with booking := t } :=
  ⟨_, ⟨f, hf, hnext, rfl⟩, h⟩

theorem Change.of_updated {id : Id} {next : BookingStatus} {f : Booking → Booking}
    {hf : Table.Keeps f} {c c' : Core} (haims : .aims id next ∈ ns) (hne : next ≠ .hold)
    (hnext : ∀ b, Booking.Restated next b (f b))
    (h : Updated (fun r : Booking => r.id == id) f hf c c') : Change ns c c' := by
  obtain ⟨t, ht, rfl⟩ := statusSet_of_updated hnext h
  exact .status id next t c.rewards haims hne ht

/-- The same as all that a transaction wrote, with the rewards for it. -/
theorem Change.of_rewarded {id : Id} {next : BookingStatus} {f : Booking → Booking}
    {hf : Table.Keeps f} {c c' : Core} (haims : .aims id next ∈ ns) (hne : next ≠ .hold)
    (hnext : ∀ b, Booking.Restated next b (f b))
    (h : Then (Then (fun c c' => c' = c) (Updated (fun r : Booking => r.id == id) f hf)) Rewarded
      c c') : Change ns c c' := by
  obtain ⟨_, ⟨_, rfl, h⟩, tr, rfl⟩ := h
  obtain ⟨t, ht, rfl⟩ := statusSet_of_updated hnext h
  exact .status id next t tr haims hne ht

theorem next_ne_hold {st next : BookingStatus} (h : next ∈ allowedStatusTransitions st) :
    next ≠ .hold := by
  cases st <;> simp [allowedStatusTransitions] at h <;> rintro rfl <;> simp at h

/-- The end of every status change that is one write. -/
theorem prisma_status_owes {id : Id} {next : BookingStatus} {f : Booking → Booking}
    {hf : Table.Keeps f} {Q : Post Store Err Note Booking} (haims : .aims id next ∈ ns)
    (hne : next ≠ .hold) (hnext : ∀ b, Booking.Restated next b (f b))
    (hQ : ∀ r s₀ s, Q r none [] s₀ s) :
    wp (contract K) Q (prisma (update (fun r : Booking => r.id == id) f hf)) none ns s₀ s :=
  wp_prisma (fun _ _ _ _ _ _ h => ⟨.of_updated haims hne hnext (update_core h).2, hQ _ _ _⟩)
    fun _ _ _ _ _ _ => hQ _ _ _

theorem cancelInternal_owes (hK : ∀ b next, K (.aims b next)) {booking : Booking}
    {reason : Option String} {byUser : Bool} (hmem : booking ∈ s.core.booking.rows) :
    wp (contract K) anyway (BookingService.cancelInternal booking reason byUser) none ns s₀ s := by
  refine (wp_bind _ _).mpr ((wp_ensure _ _).mpr ⟨fun hallowed => ?_, fun _ => trivial⟩)
  refine (wp_bind _ _).mpr ((wp_mark _).mpr ⟨⟨.inr (hK _ _), .inl ⟨booking, hmem, rfl, hallowed⟩⟩, ?_⟩)
  refine (wp_bind _ _).mpr (wp_look fun g s₁ _ => ?_)
  refine (wp_bind _ _).mpr (wp_look fun g s₂ _ => ?_)
  refine (wp_bind _ _).mpr (prisma_status_owes List.mem_cons_self (by simp) (by intro b; rfl) ?_)
  intro r s₀ s
  cases r <;> trivial

theorem getOwnedBooking_owes {Q : Post Store Err Note Booking} {bookingId userId : Id}
    (hok : ∀ b s₁, b ∈ s₁.core.booking.rows → b.id = bookingId → b.userId = userId →
      Q (.ok b) none ns s₁ s₁) (herr : ∀ e s₁, Q (.error e) none ns s₁ s₁) :
    wp (contract K) Q (BookingService.getOwnedBooking bookingId userId) none ns s₀ s := by
  refine (wp_bind _ _).mpr (wp_query (fun g s₁ _ => ?_) fun s₁ _ => herr _ s₁)
  refine (wp_orThrow _ _).mpr ⟨fun b hb => ?_, fun _ => herr _ s₁⟩
  obtain ⟨hmem, hp⟩ := findFirst_some hb
  simp only [Bool.and_eq_true, beq_iff_eq] at hp
  exact hok b s₁ hmem hp.1 hp.2

theorem reschedule_owes
    (hK : ∀ branchId staffMemberId a b ex, K (.slotFree branchId staffMemberId a b ex))
    (hK' : ∀ b branchId staffMemberId, K (.lane b branchId staffMemberId))
    (bookingId userId : Id) (dto : RescheduleBookingDto) :
    wp (contract K) anyway (BookingService.reschedule bookingId userId dto) none ns s₀ s := by
  refine (wp_bind _ _).mpr (getOwnedBooking_owes (fun b s₁ hb _ _ => ?_) fun _ _ => trivial)
  refine (wp_bind _ _).mpr ((wp_ensure _ _).mpr ⟨fun _ => ?_, fun _ => trivial⟩)
  refine (wp_bind _ _).mpr ((wp_mark _).mpr ⟨⟨.inr (hK' _ _ _), b, hb, rfl, rfl, rfl⟩, ?_⟩)
  refine (wp_bind _ _).mpr (wp_quiet (within_findUniqueOrThrow Quiet.refl _) fun r _ s₀ s hns₁ => ?_)
  rcases r with e | service
  · trivial
  refine (wp_bind _ _).mpr (wp_quiet (getFreeSlots_within Quiet.refl _ _) fun r _ s₀ s hns₂ => ?_)
  rcases r with e | slots
  · trivial
  refine (wp_bind _ _).mpr ((wp_ensure _ _).mpr ⟨fun _ => ?_, fun _ => trivial⟩)
  refine wp_tryCatch_anyway (wp_withLock fun _ s₀ s hns => wp_transaction (fun s₁ _ => ?_)
    fun _ _ => trivial) fun e => by cases e <;> trivial
  refine (wp_bind _ _).mpr (wp_assertSlotFree (P := fun c c' => c' = c) (hK _ _ _ _ _) ?_
    (fun c c' h r hr => h ▸ hr) ?_ fun _ _ _ => trivial)
  · rintro s v ⟨⟩
    rfl
  intro s₂ v w₁ _ _ hw₁
  refine wp_tx_update hw₁ (fun s₃ v w₂ r₀ _ _ _ hw₂ g s₄ s₅ _ _ hs₅ => ⟨?_, trivial⟩)
    fun _ _ _ => trivial
  obtain ⟨_, rfl, h⟩ := hw₂ s₄ s₅ hs₅
  change Change _ s₄.core s₅.core
  rw [show s₅.core = _ from h]
  exact .move b.id b.branchId b.staffMemberId _ _ _ (List.mem_cons_of_mem _ (hns (hns₂ (hns₁ List.mem_cons_self))))
    List.mem_cons_self (Int.lt_add_of_pos_right _ service.durationMinutes.ms_pos) ⟨_, rfl⟩

theorem cancelByUser_owes (hK : ∀ b next, K (.aims b next)) (bookingId userId : Id)
    (dto : CancelBookingDto) :
    wp (contract K) anyway (BookingService.cancelByUser bookingId userId dto) none ns s₀ s :=
  (wp_bind _ _).mpr (getOwnedBooking_owes (fun _ _ hb _ _ => cancelInternal_owes hK hb)
    fun _ _ => trivial)

theorem cancelByBusiness_owes (hK : ∀ b next, K (.aims b next)) (businessId bookingId : Id)
    (dto : CancelBookingDto) : wp (contract K) anyway
      (BookingService.cancelByBusiness businessId bookingId dto) none ns s₀ s := by
  refine (wp_bind _ _).mpr (wp_query (fun g s₁ _ => ?_) fun _ _ => trivial)
  refine (wp_bind _ _).mpr ((wp_orThrow _ _).mpr ⟨fun b hb => ?_, fun _ => trivial⟩)
  exact cancelInternal_owes hK (findFirst_some hb).1

theorem updateStatus_owes (hK : ∀ b next, K (.aims b next)) (businessId bookingId : Id)
    (dto : UpdateBookingStatusDto) : wp (contract K) anyway
      (BookingService.updateStatus businessId bookingId dto) none ns s₀ s := by
  refine (wp_bind _ _).mpr (wp_query (fun g s₁ _ => ?_) fun _ _ => trivial)
  refine (wp_bind _ _).mpr ((wp_orThrow _ _).mpr ⟨fun b hb => ?_, fun _ => trivial⟩)
  obtain ⟨hmem, hp⟩ := findFirst_some hb
  simp only [Bool.and_eq_true, beq_iff_eq] at hp
  refine (wp_bind _ _).mpr ((wp_ensure _ _).mpr ⟨fun hallowed => ?_, fun _ => trivial⟩)
  refine (wp_bind _ _).mpr ((wp_mark _).mpr ⟨⟨.inr (hK _ _), .inl ⟨b, hmem, hp.1, hallowed⟩⟩, ?_⟩)
  refine (wp_bind _ _).mpr (wp_look fun g s₂ _ => ?_)
  exact prisma_status_owes List.mem_cons_self (next_ne_hold hallowed) (by intro b; rfl)
    fun _ _ _ => trivial

theorem releaseExpiredHolds_owes (hK : ∀ now, K (.releasing now)) :
    wp (contract K) anyway BookingService.releaseExpiredHolds none ns s₀ s := by
  refine (wp_bind _ _).mpr (wp_look fun g s₁ _ => ?_)
  refine (wp_bind _ _).mpr ((wp_mark _).mpr ⟨⟨.inr (hK _), trivial⟩, ?_⟩)
  refine wp_prisma (fun g' s₁ n s₂ _ _ h => ⟨?_, trivial⟩) fun _ _ _ _ _ _ => trivial
  change Change _ s₁.core s₂.core
  rw [show s₂.core = _ from updateMany_core h]
  exact .release g.now _ List.mem_cons_self ⟨_, _, by intro b; rfl, rfl⟩

theorem nextStatus_ne_hold (service : Option Service) :
    BookingService.nextStatus service ≠ .hold := by
  unfold BookingService.nextStatus
  split <;> simp

/-- `confirm` ends with no notes when it succeeds, so that `confirmGroup` can go on. -/
theorem confirm_owes (hK : ∀ b service, K (.confirming b service))
    (hK' : ∀ b next, K (.aims b next)) {Q : Post Store Err Note Booking} (bookingId userId : Id)
    (hok : ∀ b s₀ s, Q (.ok b) none [] s₀ s)
    (herr : ∀ e w ns s₀ s, Q (.error e) w ns s₀ s) :
    wp (contract K) Q (BookingService.confirm bookingId userId) none ns s₀ s := by
  refine (wp_bind _ _).mpr (getOwnedBooking_owes (fun b s₁ hb hid _ => ?_)
    fun _ _ => herr _ _ _ _ _)
  refine (wp_bind _ _).mpr ((wp_ensure _ _).mpr ⟨fun hhold => ?_, fun _ => herr _ _ _ _ _⟩)
  refine (wp_bind _ _).mpr ((wp_mark _).mpr ⟨⟨.inr (hK _ _), b, hb, hid, hhold, rfl⟩, ?_⟩)
  refine (wp_bind _ _).mpr (wp_look fun g s₂ _ => ?_)
  rw [wp_onOk_ok]
  split
  · refine (wp_bind _ _).mpr ((wp_mark _).mpr
      ⟨⟨.inr (hK' _ _), .inr ⟨b.serviceId, List.mem_cons_self, .inl rfl⟩⟩, ?_⟩)
    refine (wp_bind _ _).mpr (prisma_status_owes List.mem_cons_self (by simp) (by intro b; rfl) ?_)
    intro r s₀ s
    cases r <;> exact herr _ _ _ _ _
  · refine (wp_bind _ _).mpr (wp_query (fun g s₃ _ => ?_) fun _ _ => herr _ _ _ _ _)
    refine (wp_bind _ _).mpr ((wp_mark _).mpr
      ⟨⟨.inr (hK' _ _), .inr ⟨b.serviceId, List.mem_cons_self, .inr rfl⟩⟩, ?_⟩)
    refine wp_transaction (fun s₄ _ => ?_) fun _ _ => herr _ _ _ _ _
    refine (wp_bind _ _).mpr (wp_tx_update (P := fun c c' => c' = c) ?_
      (fun s₅ v w r₀ _ _ _ hw => ?_) fun _ _ _ => trivial)
    · rintro s v ⟨⟩
      rfl
    rw [wp_onOk_ok]
    split
    · refine (wp_bind _ _).mpr (wp_rewarding_tx (awardPostPurchaseRewards_rewarding _ _) hw ?_)
      intro r w₂ _ s₀ s hw₂ hns
      cases r with
      | error e => trivial
      | ok _ =>
        exact fun g s₁ s₂ _ _ hs₂ => ⟨.of_rewarded (hns List.mem_cons_self) (nextStatus_ne_hold _)
          (by intro b; rfl) (hw₂ s₁ s₂ hs₂), hok _ _ _⟩
    · exact fun g s₁ s₂ _ _ hs₂ => ⟨.of_rewarded List.mem_cons_self (nextStatus_ne_hold _)
        (by intro b; rfl) ⟨s₂.core, hw s₁ s₂ hs₂, s₂.core.rewards, rfl⟩, hok _ _ _⟩

theorem confirmGroup_owes (hK : ∀ b service, K (.confirming b service))
    (hK' : ∀ b next, K (.aims b next)) (recurringGroupId userId : Id) :
    wp (contract K) anyway (BookingService.confirmGroup recurringGroupId userId) none ns s₀ s := by
  refine (wp_bind _ _).mpr (wp_query (fun g s₁ _ => ?_) fun _ _ => trivial)
  refine (wp_bind _ _).mpr ((wp_ensure _ _).mpr ⟨fun _ => ?_, fun _ => trivial⟩)
  have hall (bookings : List Booking) (ns : List Note) {Q : Post Store Err Note (List Booking)}
      (hQ : ∀ r w ns s₀ s, Q r w ns s₀ s) (s₀ s : Store) : wp (contract K) Q
        (BookingService.confirmAll userId bookings) none ns s₀ s := by
    induction bookings generalizing ns s₀ s Q with
    | nil => exact hQ _ _ _ _ _
    | cons b rest ih =>
      refine (wp_bind _ _).mpr (confirm_owes hK hK' _ _ (fun b s₀ s => ?_)
        fun _ _ _ _ _ => hQ _ _ _ _ _)
      refine (wp_bind _ _).mpr (ih [] (fun r w ns s₀ s => ?_) s₀ s)
      cases r <;> exact hQ _ _ _ _ _
  exact hall _ _ (fun _ _ _ _ _ => trivial) _ _

end
end BookingPlatform
