import BookingPlatform.BookingTable
import Mathlib.Data.Fintype.OfMap

/-! Status changes in any interleaving. Every writer checks the status it read in an earlier
step and then updates by the identifier alone. -/
namespace BookingPlatform
open Async Data

/-- The requests that restate a booking. -/
def Request.Restates : Request → Prop
  | confirm .. | confirmGroup .. | cancelByUser .. | releaseExpiredHolds | initiate ..
  | handleCallback .. | business _ _ (.updateBookingStatus ..) | business _ _ (.cancelBooking ..) =>
    True
  | _ => False

theorem Request.Restates.not_catalogue {r : Request} (h : r.Restates) : ¬ r.takes .catalogue := by
  rintro ⟨user, id, route, rfl, hroute⟩
  cases route <;> simp_all [Restates, BusinessRoute.takes]

/-- The status is `next` already, or may become it. -/
def Reaches (st next : BookingStatus) : Prop := next = st ∨ next ∈ allowedStatusTransitions st

/-- No booking's status was changed but along the transition table. -/
def Moves (t t' : Table Booking) : Prop :=
  ∀ b ∈ t.rows, ∀ b' ∈ t'.rows, b.id = b'.id → Reaches b.status b'.status

instance (st next : BookingStatus) : Decidable (Reaches st next) :=
  inferInstanceAs (Decidable (_ ∨ _))

instance (t t' : Table Booking) : Decidable (Moves t t') :=
  inferInstanceAs (Decidable (∀ b ∈ t.rows, ∀ b' ∈ t'.rows, b.id = b'.id → _))

/-- The booking that a request is going to restate, and the statuses it may write. -/
def Note.wants (s : Store) : Note → Option (Id × List BookingStatus)
  | .aims id next => some (id, [next])
  | .paying id => some (id, [.confirmed])
  | .confirming id serviceId => some (id,
    [.cancelled, BookingService.nextStatus (s.service.rows.find? fun r => r.id == serviceId)])
  | _ => none

/-- The commit of a request with this note gives the booking this status. -/
def Note.moves (s : Store) (id : Id) (next : BookingStatus) : Note → Prop
  | .aims id' next' => id' = id ∧ next' = next
  | .paying id' => id' = id ∧ next = .confirmed
  | .releasing now => next = .cancelled ∧ ∃ b ∈ s.booking.rows,
    b.id = id ∧ b.status = .hold ∧ b.holdExpiresAt.any (· < now) = true
  | _ => False

/-- The second request gives a booking a status from which the first may not go on. -/
def rivalStatuses (s : Store) (x y : Note) : Prop :=
  ∃ id nexts st, x.wants s = some (id, nexts) ∧ y.moves s id st ∧ ∃ next ∈ nexts, ¬ Reaches st next

instance : Fintype BookingStatus :=
  .ofList [.hold, .pending, .confirmed, .completed, .cancelled, .noShow] fun st => by cases st <;> decide

instance (s : Store) (id : Id) (next : BookingStatus) (x : Note) : Decidable (x.moves s id next) := by
  unfold Note.moves
  split <;> infer_instance

instance (s : Store) (x y : Note) : Decidable (rivalStatuses s x y) :=
  decidable_of_iff (∃ w ∈ x.wants s, ∃ st, y.moves s w.1 st ∧ ∃ next ∈ w.2, ¬ Reaches st next) (by
    simp [rivalStatuses])

/-- The booking may still become whatever the request is going to write. -/
def Note.ofStatuses (x : Note) (s : Store) : Prop :=
  x ≠ .catalogue ∧ ∀ id nexts, x.wants s = some (id, nexts) →
    ∃ b ∈ s.booking.rows, b.id = id ∧ ∀ next ∈ nexts, Reaches b.status next

section
variable {r : Request} {s s' : Store} {ns held : List Note} {x : Note}

theorem ofStatuses_grounds (hcatalogue : ¬ r.takes .catalogue) (hheld : ∀ y ∈ held, y.ofStatuses s')
    (hx : r.takes x) (h : Grounds held s.core s'.core x) : x.ofStatuses s' := by
  refine ⟨fun he => hcatalogue (he ▸ hx), fun id nexts hwants => ?_⟩
  cases x with
  | aims id' next =>
    obtain ⟨rfl, rfl⟩ : id' = id ∧ [next] = nexts := by simpa [Note.wants] using hwants
    rcases h with ⟨b, hb, hid, hallowed⟩ | ⟨serviceId, hmem, hnext⟩
    · refine ⟨b, hb, hid, fun next' hnext' => ?_⟩
      obtain rfl := List.mem_singleton.mp hnext'
      exact .inr hallowed
    · obtain ⟨b, hb, hid, hreach⟩ := (hheld _ hmem).2 _ _ rfl
      refine ⟨b, hb, hid, fun next' hnext' => hreach next' ?_⟩
      obtain rfl := List.mem_singleton.mp hnext'
      rcases hnext with rfl | rfl
      · exact List.mem_cons_self
      · exact List.mem_cons_of_mem _ List.mem_cons_self
  | paying id' =>
    obtain ⟨rfl, rfl⟩ : id' = id ∧ [.confirmed] = nexts := by simpa [Note.wants] using hwants
    obtain ⟨b, hb, hid, hpending⟩ := h
    exact ⟨b, hb, hid, by simp [hpending, Reaches, allowedStatusTransitions]⟩
  | confirming id' serviceId =>
    obtain ⟨b, hb, hid, hhold, -⟩ := h
    obtain ⟨rfl, rfl⟩ : id' = id ∧ _ = nexts := by simpa [Note.wants] using hwants
    refine ⟨b, hb, hid, fun next hnext => .inr ?_⟩
    rw [hhold]
    rcases List.mem_cons.mp hnext with rfl | hnext
    · simp [allowedStatusTransitions]
    · obtain rfl := List.mem_singleton.mp hnext
      exact nextStatus_allowed _
  | _ => simp [Note.wants] at hwants

/-- Bookings stay, and change their status only as a note says. -/
def MovedBy (ns : List Note) (s : Store) (t : Table Booking) : Prop :=
  ∀ b ∈ s.booking.rows, ∃ b' ∈ t.rows, b'.id = b.id ∧
    (b'.status = b.status ∨ ∃ y ∈ ns, y.moves s b.id b'.status)

theorem movedBy_restated {p : Booking → Bool} {f : Booking → Booking} (hf : Table.Keeps f)
    {next : BookingStatus} (hnext : ∀ b, Booking.Restated next b (f b))
    (hmoves : ∀ b ∈ s.booking.rows, p b = true → ∃ y ∈ ns, y.moves s b.id next) :
    MovedBy ns s (s.booking.update p f hf) := by
  intro b hb
  refine ⟨_, List.mem_map_of_mem hb, ?_⟩
  by_cases hp : p b = true
  · rw [if_pos hp, hnext b]
    exact ⟨rfl, .inr (hmoves b hb hp)⟩
  · rw [if_neg hp]
    exact ⟨rfl, .inl rfl⟩

theorem movedBy_set {id : Id} {next : BookingStatus} {t : Table Booking}
    (ht : StatusSet id next s.core.booking t) {y : Note} (hy : y ∈ ns) (hmoves : y.moves s id next) :
    MovedBy ns s t := by
  obtain ⟨f, hf, hnext, rfl⟩ := ht
  refine movedBy_restated hf hnext fun b _ hp => ⟨y, hy, ?_⟩
  obtain rfl : b.id = id := by simpa using hp
  exact hmoves

theorem Change.movedBy (h : Change ns s.core s'.core) : MovedBy ns s s'.booking := by
  have hcore : s'.booking = s'.core.booking := rfl
  rw [hcore]
  generalize s'.core = c at h
  cases h with
  | book bs t hrows _ _ =>
    intro b hb
    refine ⟨b, ?_, rfl, .inl rfl⟩
    rw [hrows]
    exact List.mem_append_left _ hb
  | move id branchId staffMemberId startTime endTime t _ _ _ ht =>
    obtain ⟨hf, rfl⟩ := ht
    intro b hb
    refine ⟨_, List.mem_map_of_mem hb, ?_⟩
    split <;> exact ⟨rfl, .inl rfl⟩
  | status id next t tr haims _ ht => exact movedBy_set ht haims ⟨rfl, rfl⟩
  | release now t hreleasing ht =>
    obtain ⟨f, hf, hnext, rfl⟩ := ht
    refine movedBy_restated hf hnext fun b hb hp => ⟨_, hreleasing, rfl, b, hb, rfl, ?_⟩
    simpa using hp
  | confirmPaid p ref bookingId tp tb tr _ _ _ _ hpaying _ ht =>
    exact movedBy_set ht hpaying ⟨rfl, rfl⟩
  | payWallet userId bookingId walletId amount x p tp tw tl tb tr _ hpaying _ _ _ _ _ _ _ _ _ _ _
      _ _ ht => exact movedBy_set ht hpaying ⟨rfl, rfl⟩
  | _ => exact fun b hb => ⟨b, hb, rfl, .inl rfl⟩

theorem Change.service_eq (h : Change ns s.core s'.core) (hns : .catalogue ∉ ns) :
    s'.service = s.service := by
  have hcore : s'.service = s'.core.service := rfl
  rw [hcore]
  generalize s'.core = c at h
  cases h with
  | services t hcatalogue => exact absurd hcatalogue hns
  | _ => rfl

theorem Asked.service_eq (h : Asked s.core s'.core) : s'.service = s.service := by
  have hcore : s'.service = s'.core.service := rfl
  rw [hcore]
  generalize s'.core = c at h
  cases h <;> rfl

theorem wants_eq (h : s'.service = s.service) : x.wants s' = x.wants s := by
  cases x <;> simp [Note.wants, h]

theorem Asked.ofStatuses (h : Asked s.core s'.core) (hx : x.ofStatuses s) : x.ofStatuses s' := by
  refine ⟨hx.1, fun id nexts hwants => ?_⟩
  rw [asked_booking h]
  exact hx.2 id nexts (by rw [← hwants, wants_eq h.service_eq])

theorem meaning_ofStatuses (hcatalogue : ¬ r.takes .catalogue) :
    Meaning (contract r.takes) (fun _ => True) Note.ofStatuses where
  grounds _ _ hheld hx := ofStatuses_grounds hcatalogue hheld (Request.takes_of_noted hx) hx.2
  auto _ hns h := ⟨trivial, fun x hx => Asked.ofStatuses h (hns x hx)⟩
  commit _ _ _ := trivial

theorem catalogue_not_mem (hns : ∀ y ∈ ns, y.ofStatuses s) : .catalogue ∉ ns :=
  fun h => (hns _ h).1 rfl

theorem steady_ofStatuses :
    Steady (contract r.takes) (fun _ => True) Note.ofStatuses rivalStatuses where
  auto _ hx h := Asked.ofStatuses h hx
  commit := by
    intro ns s s' x _ hns h hrival hx
    have hservice := Change.service_eq h (catalogue_not_mem hns)
    refine ⟨hx.1, fun id nexts hwants => ?_⟩
    rw [wants_eq hservice] at hwants
    obtain ⟨b, hb, rfl, hreach⟩ := hx.2 id nexts hwants
    obtain ⟨b', hb', hid, hstatus⟩ := Change.movedBy h b hb
    refine ⟨b', hb', hid, fun next hnext => ?_⟩
    rcases hstatus with hsame | ⟨y, hy, hmoves⟩
    · rw [hsame]
      exact hreach next hnext
    · by_contra hno
      exact hrival y hy ⟨b.id, nexts, b'.status, hwants, hmoves, next, hnext, hno⟩

/-- A commit whose notes are true moves statuses along the table. -/
theorem Change.moves_table (h : Change ns s.core s'.core) (hns : ∀ y ∈ ns, y.ofStatuses s) :
    Moves s.booking s'.booking := by
  intro b hb b' hb' hid
  obtain ⟨b₁, hb₁, hid₁, hstatus⟩ := h.movedBy b hb
  obtain rfl := Table.id_eq hb₁ hb' (hid₁.trans hid)
  have wanted {y : Note} {nexts : List BookingStatus} (hy : y ∈ ns)
      (hwants : y.wants s = some (b.id, nexts)) (hnext : b₁.status ∈ nexts) :
      Reaches b.status b₁.status := by
    obtain ⟨b₂, hb₂, hid₂, hreach⟩ := (hns y hy).2 _ _ hwants
    obtain rfl := Table.id_eq hb₂ hb hid₂
    exact hreach _ hnext
  rcases hstatus with hsame | ⟨y, hy, hmoves⟩
  · exact .inl hsame
  · cases y with
    | aims id next =>
      obtain ⟨rfl, rfl⟩ := hmoves
      exact wanted hy rfl (by simp)
    | paying id =>
      obtain ⟨rfl, hnext⟩ := hmoves
      exact wanted hy rfl (by simp [hnext])
    | releasing now =>
      obtain ⟨hnext, b₂, hb₂, hid₂, hhold, -⟩ := hmoves
      obtain rfl := Table.id_eq hb₂ hb hid₂
      simp [Reaches, hhold, hnext, allowedStatusTransitions]
    | _ => exact hmoves.elim

end

/-! ### Runs -/

/-- As long as no commit gives a booking a status from which another request that has read
it may not go on, every status change is one of the transition table. -/
theorem transitions_of_run {ι : Type} [DecidableEq ι] {r : ι → Request}
    (hr : ∀ i, (r i).Restates) {s₀ : Store} {c : Config ι Env Store Err Note Unit}
    {past : List (ι × Store)} (hrun : Run (fun c i _ => ¬ c.Overtakes rivalStatuses i)
      (.start (fun i => (r i).serve) s₀) c past) :
    ∀ x ∈ steps past c.store, Moves x.2.1.booking x.2.2.booking := by
  have hmeant {c : Config ι Env Store Err Note Unit} {past : List (ι × Store)}
      (hc : Run (fun c i _ => ¬ c.Overtakes rivalStatuses i) (.start (fun i => (r i).serve) s₀) c
        past) : Meant (fun _ => True) Note.ofStatuses c :=
    Run.meant_of_steady (Request.concurrent r) (fun i => meaning_ofStatuses (hr i).not_catalogue)
      (fun _ => steady_ofStatuses) trivial (fun h => h) hc
  have hrefl (t : Table Booking) : Moves t t := by
    intro b hb b' hb' hid
    obtain rfl := Table.id_eq hb hb' hid
    exact .inl rfl
  refine Run.steps_all (G := fun _ s s' => Moves s.booking s'.booking) (Request.concurrent r) hmeant
    (fun _ s => hrefl s.booking) ?_ ?_ hrun
  · intro i ns s s' _ h
    rw [asked_booking h]
    exact hrefl _
  · intro i ns s s' _ hns h
    exact Change.moves_table h hns

/-- A shop with a booking on hold. -/
def heldShop : Store := { shop with
  booking := .single {
    id := 7, userId := 1, businessId := 1, branchId := 1, staffMemberId := none, serviceId := 1
    startTime := 0, endTime := 30 * minute, priceSnapshot := 10000
    cancellationPolicySnapshot := defaultCancellationPolicy, holdExpiresAt := some (5 * minute) } }

/-- The user confirms the booking and cancels it at the same time. -/
def confirmAndCancel (cancels : Bool) : Request :=
  if cancels then .cancelByUser 1 7 {} else .confirm 1 7

/-- The cancellation runs between what the confirmation reads and what it writes. -/
def betweenReadAndWrite : List (Bool × Env) :=
  List.replicate 4 (false, .of 0 1) ++ List.replicate 5 (true, .of 0 2) ++
    List.replicate 3 (false, .of 0 1)

/-- The confirmation runs between what the cancellation reads and what it writes. -/
def confirmedFirst : List (Bool × Env) := List.replicate 4 (true, .of 0 2) ++ List.replicate 12 (false, .of 0 1)

theorem transitions_of_run_both : ∃ c before past, Run (fun c i _ => ¬ c.Overtakes rivalStatuses i)
      (.start (fun i => (confirmAndCancel i).serve) heldShop) c ((true, before) :: past) ∧
    (∀ i, (c.thread i).result.isSome) ∧ before.booking.rows.map Booking.status = [.confirmed] ∧
    c.store.booking.rows.map Booking.status = [.cancelled] ∧
    ∀ x ∈ steps ((true, before) :: past) c.store, Moves x.2.1.booking x.2.2.booking := by
  have hadmits : (Config.start (fun i => (confirmAndCancel i).serve) heldShop).Admits
      (fun c i _ => ¬ c.Overtakes rivalStatuses i) confirmedFirst := by decide +kernel
  obtain ⟨past, hbefore⟩ := Run.follow .refl hadmits
  have hrun := hbefore.step (i := true) (g := .of 0 2) (by decide +kernel)
  exact ⟨_, _, past, hrun, by decide +kernel, by decide +kernel, by decide +kernel,
    transitions_of_run (r := confirmAndCancel) (fun i => by cases i <;> trivial) hrun⟩

/-- A cancelled booking is confirmed. -/
theorem cancelled_booking_revives : ∃ c past, Run (fun _ _ _ => True)
      (.start (fun i => (confirmAndCancel i).serve) heldShop) c past ∧
    ∃ x ∈ steps past c.store, ¬ Moves x.2.1.booking x.2.2.booking := by
  have hadmits : (Config.start (fun i => (confirmAndCancel i).serve) heldShop).Admits
      (fun _ _ _ => True) betweenReadAndWrite := by decide +kernel
  obtain ⟨past, hrun⟩ := Run.follow .refl hadmits
  exact ⟨_, _, hrun.step (i := false) (g := .of 0 1) trivial, _, List.mem_cons_self, by
    decide +kernel⟩

end BookingPlatform
