import BookingPlatform.Alone
import BookingPlatform.DoubleBooking

/-! The booking table over serial runs of all requests. -/
namespace BookingPlatform
open Async Data

/-- What is agreed when a booking is made. -/
def Booking.terms (b : Booking) :
    Id × Option Id × Money × Money × Money × CancellationPolicy :=
  (b.branchId, b.staffMemberId, b.priceSnapshot, b.discountAmount, b.depositRequired,
    b.cancellationPolicySnapshot)

/-- What may happen to the booking table when one request is at work. -/
inductive Rebooked (t : Table Booking) : Table Booking → Prop
  | same : Rebooked t t
  | book (bs : List Booking) (t' : Table Booking) : t'.rows = t.rows ++ bs →
      (∀ b ∈ bs, b.id ≠ 0 ∧ b.status = .hold ∧ b.startTime < b.endTime ∧ b.holdExpiresAt.isSome ∧
        SlotFree t b.branchId b.staffMemberId b.startTime b.endTime none) →
      bs.Pairwise (fun b b' => ¬ b.Overlaps b') → Rebooked t t'
  | move (id branchId : Id) (staffMemberId : Option Id) (startTime endTime : Time)
      (hf : Table.Keeps fun r : Booking => { r with startTime, endTime }) :
      (∀ b ∈ t.rows, b.id = id → b.branchId = branchId ∧ b.staffMemberId = staffMemberId) →
      SlotFree t branchId staffMemberId startTime endTime (some id) → startTime < endTime →
      Rebooked t (t.update (fun r => r.id == id) (fun r => { r with startTime, endTime }) hf)
  | restate (next : BookingStatus) (p : Booking → Bool) (f : Booking → Booking)
      (hf : Table.Keeps f) : (∀ b, Booking.Restated next b (f b)) →
      (∀ b ∈ t.rows, p b = true → next ∈ allowedStatusTransitions b.status) →
      Rebooked t (t.update p f hf)

/-- The lanes are apart, every booking takes time, and every hold expires. -/
structure SoundBookings (t : Table Booking) : Prop where
  apart : Apart t
  lasts : ∀ b ∈ t.rows, b.startTime < b.endTime
  expires : ∀ b ∈ t.rows, b.status = .hold → b.holdExpiresAt.isSome

/-- Bookings stay, keep their terms and move along the transition table; new ones are held. -/
structure Evolved (t t' : Table Booking) : Prop where
  stays : ∀ b ∈ t.rows, ∃ b' ∈ t'.rows, b'.id = b.id
  comes : ∀ b' ∈ t'.rows,
    (∃ b ∈ t.rows, b.id = b'.id ∧ b.terms = b'.terms ∧
      (b'.status = b.status ∨ b'.status ∈ allowedStatusTransitions b.status)) ∨
    ((∀ b ∈ t.rows, b.id ≠ b'.id) ∧ b'.id ≠ 0 ∧ b'.status = .hold)

section
variable {t t' : Table Booking} {st next : BookingStatus}

theorem active_of_allowed {b : Booking} (h : next ∈ allowedStatusTransitions b.status) :
    b.active = true := by
  unfold Booking.active
  cases hst : b.status <;> simp_all [allowedStatusTransitions, activeStatuses]

theorem Rebooked.sound (h : Rebooked t t') (ht : SoundBookings t) : SoundBookings t' := by
  obtain ⟨hapart, hlasts, hexpires⟩ := ht
  cases h with
  | same => exact ⟨hapart, hlasts, hexpires⟩
  | book bs t' hrows hbs hpair =>
    refine ⟨hapart.book hrows (fun b hb => (hbs b hb).2.2.2.2) hpair, ?_, ?_⟩
    · intro b hb
      rw [hrows] at hb
      rcases List.mem_append.mp hb with hb | hb
      · exact hlasts b hb
      · exact (hbs b hb).2.2.1
    · intro b hb hhold
      rw [hrows] at hb
      rcases List.mem_append.mp hb with hb | hb
      · exact hexpires b hb hhold
      · exact (hbs b hb).2.2.2.1
  | move id branchId staffMemberId startTime endTime hf hlane hfree htime =>
    refine ⟨hapart.move hlane hfree hf, ?_, ?_⟩
    · intro b hb
      obtain ⟨r, hr, rfl⟩ := List.mem_map.mp hb
      split
      · exact htime
      · exact hlasts r hr
    · intro b hb hhold
      obtain ⟨r, hr, rfl⟩ := List.mem_map.mp hb
      split at hhold <;> simp_all
  | restate next p f hf hnext hallowed =>
    refine ⟨hapart.restate hf hnext fun _ b hb hp => active_of_allowed (hallowed b hb hp), ?_, ?_⟩
    · intro b hb
      obtain ⟨r, hr, rfl⟩ := List.mem_map.mp hb
      split
      · rw [hnext r]
        exact hlasts r hr
      · exact hlasts r hr
    · intro b hb hhold
      obtain ⟨r, hr, rfl⟩ := List.mem_map.mp hb
      by_cases hp : p r = true
      · simp only [hp, if_true] at hhold
        rw [hnext r] at hhold
        exact absurd hhold (next_ne_hold (hallowed r hr hp))
      · simp only [hp] at hhold ⊢
        exact hexpires r hr hhold

theorem Evolved.refl (t : Table Booking) : Evolved t t :=
  ⟨fun b hb => ⟨b, hb, rfl⟩, fun b hb => .inl ⟨b, hb, rfl, rfl, .inl rfl⟩⟩

/-- An update that keeps identities and terms and moves statuses along the transition table. -/
theorem Evolved.update {p : Booking → Bool} {f : Booking → Booking} (hf : Table.Keeps f)
    (hkeep : ∀ b ∈ t.rows, p b = true → (f b).id = b.id ∧ b.terms = (f b).terms ∧
      ((f b).status = b.status ∨ (f b).status ∈ allowedStatusTransitions b.status)) :
    Evolved t (t.update p f hf) := by
  have hrow (b : Booking) (hb : b ∈ t.rows) : (if p b then f b else b).id = b.id ∧
      b.terms = (if p b then f b else b).terms ∧
      ((if p b then f b else b).status = b.status ∨
        (if p b then f b else b).status ∈ allowedStatusTransitions b.status) := by
    by_cases hp : p b = true
    · simpa only [hp, if_true] using hkeep b hb hp
    · simp [hp]
  constructor
  · intro b hb
    exact ⟨_, List.mem_map_of_mem hb, (hrow b hb).1⟩
  · intro b' hb'
    obtain ⟨b, hb, rfl⟩ := List.mem_map.mp hb'
    exact .inl ⟨b, hb, (hrow b hb).1.symm, (hrow b hb).2⟩

theorem Rebooked.evolved (h : Rebooked t t') : Evolved t t' := by
  cases h with
  | same => exact .refl t
  | book bs t' hrows hbs hpair =>
    constructor
    · intro b hb
      refine ⟨b, ?_, rfl⟩
      rw [hrows]
      exact List.mem_append_left _ hb
    · intro b' hb'
      have hmem := hb'
      rw [hrows] at hmem
      rcases List.mem_append.mp hmem with hmem | hmem
      · exact .inl ⟨b', hmem, rfl, rfl, .inl rfl⟩
      · refine .inr ⟨fun b hb hid => ?_, (hbs b' hmem).1, (hbs b' hmem).2.1⟩
        -- A row with the identifier of an old one would break the primary key.
        have hunique := t'.unique
        rw [hrows, List.pairwise_append] at hunique
        have := hunique.2.2 b hb b' hmem
        simp [Indexed.clash, hid] at this
  | move id branchId staffMemberId startTime endTime hf hlane hfree htime =>
    exact .update hf fun _ _ _ => ⟨rfl, rfl, .inl rfl⟩
  | restate next p f hf hnext hallowed =>
    refine .update hf fun b hb hp => ?_
    rw [hnext b]
    exact ⟨rfl, rfl, .inr (hallowed b hb hp)⟩

theorem past_of_allowed (h : next = st ∨ next ∈ allowedStatusTransitions st)
    (hst : st ≠ .hold ∧ st ≠ .pending) : next ≠ .hold ∧ next ≠ .pending := by
  rcases h with rfl | h
  · exact hst
  · cases st <;> cases next <;> simp_all [allowedStatusTransitions]

/-- The bookings of a change, seen from after it. -/
theorem Evolved.booking (h : Evolved t t') {b b' : Booking} (hb : b ∈ t.rows)
    (hb' : b' ∈ t'.rows) (hid : b'.id = b.id) :
    b'.status = b.status ∨ b'.status ∈ allowedStatusTransitions b.status := by
  rcases h.comes b' hb' with ⟨b₀, hb₀, hid₀, -, hstatus⟩ | ⟨hnew, -⟩
  · obtain rfl := Table.id_eq hb₀ hb (hid₀.trans hid)
    exact hstatus
  · exact absurd hid.symm (hnew b hb)

end

/-! ### Changes -/

section
variable {c c' : Core} {ns : List Note}

theorem StatusSet.rebooked {t t' : Table Booking} {id : Id} {next : BookingStatus}
    (h : StatusSet id next t t')
    (hrow : ∃ b ∈ t.rows, b.id = id ∧ next ∈ allowedStatusTransitions b.status) :
    Rebooked t t' := by
  obtain ⟨f, hf, hnext, rfl⟩ := h
  obtain ⟨b, hb, hid, hallowed⟩ := hrow
  refine .restate next _ f hf hnext fun b' hb' hp => ?_
  have hid' : b'.id = id := by simpa using hp
  obtain rfl := Table.id_eq hb hb' (hid.trans hid'.symm)
  exact hallowed

theorem confirmed_allowed {t : Table Booking} {id : Id}
    (h : ∃ b ∈ t.rows, b.id = id ∧ b.status = .pending) :
    ∃ b ∈ t.rows, b.id = id ∧ BookingStatus.confirmed ∈ allowedStatusTransitions b.status := by
  obtain ⟨b, hb, hid, hpending⟩ := h
  exact ⟨b, hb, hid, by simp [hpending, allowedStatusTransitions]⟩

theorem StatusSet.confirms {b : Booking} {tb : Table Booking}
    (h : StatusSet b.id .confirmed c.booking tb) (hb : b ∈ c.booking.rows) :
    ∃ b' ∈ tb.rows, b'.id = b.id ∧ b'.status = .confirmed := by
  obtain ⟨f, hf, hnext, rfl⟩ := h
  refine ⟨_, List.mem_map_of_mem hb, ?_⟩
  simp only [beq_self_eq_true, if_true]
  rw [hnext b]
  exact ⟨rfl, rfl⟩

/-- Every change that a request makes on its own is one of the booking table's. -/
theorem Change.rebooked (h : Change ns c c') (hns : ∀ x ∈ ns, x.stands c) :
    Rebooked c.booking c'.booking := by
  cases h with
  | book bs t hrows hbs hpair =>
    refine .book bs t hrows (fun b hb => ?_) (hpair.imp And.right)
    obtain ⟨hid, hhold, htime, hexp, hfree⟩ := hbs b hb
    exact ⟨hid, hhold, htime, hexp, hns _ hfree⟩
  | move id branchId staffMemberId startTime endTime t hlane hfree htime ht =>
    obtain ⟨hf, rfl⟩ := ht
    refine .move id branchId staffMemberId startTime endTime hf (fun b hb hid => ?_) (hns _ hfree)
      htime
    obtain ⟨b', hb', hid', hlane'⟩ := hns _ hlane
    obtain rfl := Table.id_eq hb hb' (hid.trans hid'.symm)
    exact hlane'
  | status id next t tr haims _ ht => exact ht.rebooked (hns _ haims)
  | release now t _ ht =>
    obtain ⟨f, hf, hnext, rfl⟩ := ht
    refine .restate .cancelled _ f hf hnext fun b _ hp => ?_
    have hhold : b.status = .hold := by
      simp only [Bool.and_eq_true, beq_iff_eq] at hp
      exact hp.1
    simp [hhold, allowedStatusTransitions]
  | confirmPaid p ref bookingId tp tb tr _ _ _ _ hpaying _ ht =>
    exact ht.rebooked (confirmed_allowed (hns _ hpaying))
  | payWallet userId bookingId walletId amount x p tp tw tl tb tr _ hpaying _ _ _ _ _ _ _ _ _ _ _
      _ _ ht => exact ht.rebooked (confirmed_allowed (hns _ hpaying))
  | _ => exact .same

end

/-! ### Histories -/

/-- The statuses of a booking in the stores that have it. -/
def statuses (id : Id) (stores : List Store) : List BookingStatus :=
  stores.filterMap fun s => (s.booking.rows.find? fun b => b.id == id).map Booking.status

section
variable {s : Store} {past : List Store} {id : Id}

theorem stays_until (h : (s :: past).IsChain fun new old => Evolved old.booking new.booking)
    {s' : Store} (hs' : s' ∈ s :: past) {b' : Booking} (hb' : b' ∈ s'.booking.rows) :
    ∃ b ∈ s.booking.rows, b.id = b'.id := by
  induction past generalizing s with
  | nil =>
    obtain rfl := List.mem_singleton.mp hs'
    exact ⟨b', hb', rfl⟩
  | cons s₁ past ih =>
    rw [List.isChain_cons_cons] at h
    rcases List.mem_cons.mp hs' with rfl | hs'
    · exact ⟨b', hb', rfl⟩
    · obtain ⟨b₁, hb₁, hid₁⟩ := ih h.2 hs'
      obtain ⟨b, hb, hid⟩ := h.1.stays b₁ hb₁
      exact ⟨b, hb, hid.trans hid₁⟩

theorem statuses_eq_nil (h : (s :: past).IsChain fun new old => Evolved old.booking new.booking)
    (hnone : ∀ b ∈ s.booking.rows, b.id ≠ id) : statuses id (s :: past) = [] := by
  refine List.filterMap_eq_nil_iff.mpr fun s' hs' => ?_
  cases hfind : s'.booking.rows.find? (fun b => b.id == id) with
  | none => rfl
  | some b' =>
    have hid' : b'.id = id := by simpa using List.find?_some hfind
    obtain ⟨b, hb, hid⟩ := stays_until h hs' (List.mem_of_find?_eq_some hfind)
    exact absurd (hid.trans hid') (hnone b hb)

theorem find_booking {b : Booking} {t : Table Booking} (hb : b ∈ t.rows) (hid : b.id = id) :
    t.rows.find? (fun b => b.id == id) = some b := by
  cases hfind : t.rows.find? (fun b => b.id == id) with
  | none =>
    have := List.find?_eq_none.mp hfind b hb
    simp [hid] at this
  | some b' =>
    have hid' : b'.id = id := by simpa using List.find?_some hfind
    rw [Table.id_eq (List.mem_of_find?_eq_some hfind) hb (hid'.trans hid.symm)]

/-- The statuses of a booking are a path of the transition table that starts at HOLD. -/
theorem statuses_path (h : (s :: past).IsChain fun new old => Evolved old.booking new.booking)
    (hlast : ∀ s₀, (s :: past).getLast? = some s₀ → s₀.booking.rows = []) :
    (statuses id (s :: past)).IsChain
        (fun new old => new = old ∨ new ∈ allowedStatusTransitions old) ∧
      ∀ st, (statuses id (s :: past)).getLast? = some st → st = .hold := by
  induction past generalizing s with
  | nil =>
    have := hlast s rfl
    simp [statuses, this]
  | cons s' past ih =>
    have hchain := h
    rw [List.isChain_cons_cons] at h
    obtain ⟨hevolved, hpast⟩ := h
    have hrest := ih hpast (by simpa [List.getLast?_cons_cons] using hlast)
    cases hfind : s.booking.rows.find? (fun b => b.id == id) with
    | none => simpa [statuses, hfind] using hrest
    | some b' =>
      have hid : b'.id = id := by simpa using List.find?_some hfind
      have hsplit : statuses id (s :: s' :: past) = b'.status :: statuses id (s' :: past) := by
        simp [statuses, hfind]
      rw [hsplit]
      rcases hevolved.comes b' (List.mem_of_find?_eq_some hfind) with
        ⟨b, hb, hidb, -, hstatus⟩ | ⟨hnew, -, hhold⟩
      · have hsplit' : statuses id (s' :: past) = b.status :: statuses id past := by
          simp [statuses, find_booking hb (hidb.trans hid)]
        rw [hsplit'] at hrest ⊢
        exact ⟨hrest.1.cons_cons hstatus, by simpa [List.getLast?_cons_cons] using hrest.2⟩
      · rw [statuses_eq_nil hpast fun b hb hidb => hnew b hb (hidb.trans hid.symm)]
        simp [hhold]

/-- A booking has the terms it was made with in every later store. -/
theorem terms_eq (h : (s :: past).IsChain fun new old => Evolved old.booking new.booking)
    {s' : Store} (hs' : s' ∈ s :: past) {b b' : Booking} (hb : b ∈ s.booking.rows)
    (hb' : b' ∈ s'.booking.rows) (hid : b.id = b'.id) : b.terms = b'.terms := by
  induction past generalizing s b with
  | nil =>
    obtain rfl := List.mem_singleton.mp hs'
    rw [Table.id_eq hb hb' hid]
  | cons s₁ past ih =>
    rw [List.isChain_cons_cons] at h
    rcases List.mem_cons.mp hs' with rfl | hs'
    · rw [Table.id_eq hb hb' hid]
    · rcases h.1.comes b hb with ⟨b₁, hb₁, hid₁, hterms, -⟩ | ⟨hnew, -, -⟩
      · exact hterms.symm.trans (ih h.2 hs' hb₁ (hid₁.trans hid))
      · -- The older booking has stayed, so this one is not new.
        obtain ⟨b₁, hb₁, hid₁⟩ := stays_until h.2 hs' hb'
        exact absurd (hid₁.trans hid.symm) (hnew b₁ hb₁)

variable {accepts : Request → Store → Prop} {s₀ : Store}
  {env : Thread Env Store Err Note Unit → Env → Store → Prop}
  {t : Option (Thread Env Store Err Note Unit)}

theorem bookings_serving : Serving Request.serve accepts env (fun r => contract r.takes)
    (fun _ => anyway) (fun s => SoundBookings s.booking)
    (fun _ ns s => SoundBookings s.booking ∧ ∀ x ∈ ns, x.stands s.core)
    (fun s s' => Evolved s.booking s'.booking) := by
  have hmeaning (r : Request) : Meaning ((contract r.takes).given fun _ _ => True)
      (fun s => SoundBookings s.core.booking) (fun x s => x.stands s.core) := by
    refine meaning_stands (P := fun _ _ => True) (fun {c c'} hs h => ?_)
      fun hs hns _ h => (h.rebooked hns).sound hs
    obtain ⟨t, rfl⟩ := h.core_eq
    exact hs
  refine Meaning.serving (fun _ => trivial) (fun _ => trivial) (fun {r s} => r.serve_owes s)
    hmeaning (fun s => .refl s.booking) ?_ ?_
  · intro r ns s s' _ h
    rw [asked_booking h]
    exact .refl _
  · intro r ns s s' _ hns _ h
    exact (Change.rebooked h hns).evolved

/-- Whatever is requested, one after another: the lanes stay apart, statuses follow the
transition table, bookings take time, holds expire and terms are kept. -/
theorem booking_table (h₀ : s₀.booking.rows = [])
    (h : Serial Request.serve accepts env s₀ t s past) :
    Apart s.booking ∧
    (∀ id, (statuses id (s :: past)).IsChain
        (fun new old => new = old ∨ new ∈ allowedStatusTransitions old) ∧
      ∀ st, (statuses id (s :: past)).getLast? = some st → st = .hold) ∧
    (∀ b ∈ s.booking.rows, b.startTime < b.endTime ∧
      (b.status = .hold → b.holdExpiresAt.isSome)) ∧
    ∀ s₁ ∈ s :: past, ∀ s₂ ∈ s :: past, ∀ b₁ ∈ s₁.booking.rows, ∀ b₂ ∈ s₂.booking.rows,
      b₁.id = b₂.id → b₁.terms = b₂.terms := by
  have hsound₀ : SoundBookings s₀.booking := by
    constructor <;> simp [Apart, h₀]
  obtain ⟨hnow, hchain⟩ := bookings_serving.now hsound₀ h
  have hsound : SoundBookings s.booking := by
    cases t with
    | none => exact hnow
    | some t =>
      obtain ⟨_, _, _, hJ⟩ := hnow
      exact hJ.1
  refine ⟨hsound.apart, fun id => statuses_path hchain ?_, ?_, ?_⟩
  · intro s₁ hs₁
    rw [h.getLast?] at hs₁
    exact Option.some.inj hs₁ ▸ h₀
  · exact fun b hb => ⟨hsound.lasts b hb, hsound.expires b hb⟩
  · intro s₁ hs₁ s₂ hs₂ b₁ hb₁ b₂ hb₂ hid
    obtain ⟨b, hb, hid₁⟩ := stays_until hchain hs₁ hb₁
    exact (terms_eq hchain hs₁ hb hb₁ hid₁).symm.trans
      (terms_eq hchain hs₂ hb hb₂ (hid₁.trans hid))

/-- A hold is confirmed and then cancelled. -/
theorem booking_table_shop : ∃ s past, Serial Request.serve (fun _ _ => True) (fun _ _ _ => True)
      shop none s past ∧ (s.booking.rows.map Booking.status = [.cancelled]) ∧ Apart s.booking ∧
    ∀ id, (statuses id (s :: past)).IsChain
      (fun new old => new = old ∨ new ∈ allowedStatusTransitions old) := by
  have hreplays : Replays Request.serve (fun _ _ => True) (fun _ _ _ => True) shop
      [(halfHours true, List.replicate 11 (.of 0 1)),
        (.confirm 1 2, List.replicate 12 (.of 0 2)),
        (.cancelByUser 1 2 {}, List.replicate 5 (.of 0 3))] := by decide +kernel
  obtain ⟨past, hserial⟩ := Serial.replay .init hreplays
  obtain ⟨hapart, hpath, -⟩ := booking_table rfl hserial
  exact ⟨_, past, hserial, by decide +kernel, hapart, fun id => (hpath id).1⟩

end
end BookingPlatform
