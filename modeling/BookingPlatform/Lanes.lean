import BookingPlatform.Shape.Requests

/-! Bookings of one lane: what keeps their intervals apart. -/
namespace BookingPlatform
open Async Data

/-- No two active bookings of one lane overlap. -/
def Apart (t : Table Booking) : Prop :=
  ∀ b ∈ t.rows, ∀ b' ∈ t.rows, b ≠ b' → b.active = true → b'.active = true → ¬ b.Overlaps b'

/-- What `assertSlotFree` found. -/
def SlotFree (t : Table Booking) (branchId : Id) (staffMemberId : Option Id)
    (startTime endTime : Time) (excludeBookingId : Option Id) : Prop :=
  ∀ b ∈ t.rows, BookingService.overlapping branchId staffMemberId startTime endTime
    excludeBookingId b = false

instance (b b' : Booking) : Decidable (b.Overlaps b') :=
  inferInstanceAs (Decidable (_ ∧ _ ∧ _ ∧ _))

instance (t : Table Booking) : Decidable (Apart t) :=
  inferInstanceAs (Decidable (∀ b ∈ t.rows, ∀ b' ∈ t.rows, _))

section
variable {t t' : Table Booking} {b b' : Booking} {bs : List Booking} {id branchId : Id}
  {staffMemberId : Option Id} {startTime endTime : Time}

theorem Booking.Overlaps.symm (h : b.Overlaps b') : b'.Overlaps b := by
  obtain ⟨h₁, h₂, h₃, h₄⟩ := h
  exact ⟨h₁.symm, h₂.symm, h₄, h₃⟩

theorem SlotFree.not_overlaps
    (h : SlotFree t b.branchId b.staffMemberId b.startTime b.endTime none) (hb' : b' ∈ t.rows)
    (hactive : b'.active = true) : ¬ b.Overlaps b' := by
  rintro ⟨h₁, h₂, h₃, h₄⟩
  exact overlapping_eq_false.mp (h b' hb') h₁.symm h₂.symm hactive (by simp [truthyId]) h₄ h₃

/-- Bookings made in intervals that are free, and apart from each other. -/
theorem Apart.book (ht : Apart t) (hrows : t'.rows = t.rows ++ bs)
    (hfree : ∀ b ∈ bs, SlotFree t b.branchId b.staffMemberId b.startTime b.endTime none)
    (hbs : bs.Pairwise fun b b' => ¬ b.Overlaps b') : Apart t' := by
  intro b hb b' hb' hne hactive hactive' hover
  rw [hrows] at hb hb'
  rcases List.mem_append.mp hb with hb | hb <;> rcases List.mem_append.mp hb' with hb' | hb'
  · exact ht b hb b' hb' hne hactive hactive' hover
  · exact (hfree b' hb').not_overlaps hb hactive hover.symm
  · exact (hfree b hb).not_overlaps hb' hactive' hover
  · have hsymm : Std.Symm fun b b' : Booking => ¬ b.Overlaps b' :=
      ⟨fun _ _ h hover => h hover.symm⟩
    exact hbs.forall hb hb' hne hover

theorem Table.id_eq (hb : b ∈ t.rows) (hb' : b' ∈ t.rows) (h : b.id = b'.id) : b = b' :=
  Data.Table.eq_of_clash hb hb' (by simp [Indexed.clash, h])

/-- A booking moved to an interval of its lane that is free of all others. -/
theorem Apart.move (ht : Apart t) (hlane : ∀ b ∈ t.rows, b.id = id →
      b.branchId = branchId ∧ b.staffMemberId = staffMemberId)
    (hfree : SlotFree t branchId staffMemberId startTime endTime (some id))
    (hf : Data.Table.Keeps fun r : Booking => { r with startTime, endTime }) :
    Apart (t.update (fun r => r.id == id) (fun r => { r with startTime, endTime }) hf) := by
  -- The moved row against any other: the interval was free of that one.
  have hmoved (r r' : Booking) (hr : r ∈ t.rows) (hid : r.id = id) (hr' : r' ∈ t.rows)
      (hid' : r'.id ≠ id) (hactive : r'.active = true) :
      ¬ ({ r with startTime, endTime } : Booking).Overlaps r' := by
    rintro ⟨h₁, h₂, h₃, h₄⟩
    obtain ⟨hbranch, hstaff⟩ := hlane r hr hid
    refine overlapping_eq_false.mp (hfree r' hr') (h₁.symm.trans hbranch) (h₂.symm.trans hstaff)
      hactive ?_ h₄ h₃
    rw [Option.all_eq_true]
    intro x hx
    obtain ⟨hx, -⟩ := truthyId_eq_some.mp hx
    obtain rfl := Option.some.inj hx
    simpa using hid'
  intro b hb b' hb' hne hactive hactive' hover
  obtain ⟨r, hr, rfl⟩ := List.mem_map.mp hb
  obtain ⟨r', hr', rfl⟩ := List.mem_map.mp hb'
  by_cases hid : r.id = id <;> by_cases hid' : r'.id = id
  · obtain rfl := Table.id_eq hr hr' (hid.trans hid'.symm)
    exact hne rfl
  · simp only [hid, hid', beq_self_eq_true, beq_iff_eq, if_true, if_false] at hactive' hover
    exact hmoved r r' hr hid hr' hid' hactive' (by simpa [hid] using hover)
  · simp only [hid, hid', beq_self_eq_true, beq_iff_eq, if_true, if_false] at hactive hover
    exact hmoved r' r hr' hid' hr hid hactive (by simpa [hid'] using hover.symm)
  · simp only [hid, hid', beq_iff_eq, if_false] at hne hactive hactive' hover
    exact ht r hr r' hr' hne hactive hactive' hover

/-- Status changes that revive no booking. -/
theorem Apart.restate {next : BookingStatus} {p : Booking → Bool} {f : Booking → Booking}
    (ht : Apart t) (hf : Data.Table.Keeps f) (hnext : ∀ b, Booking.Restated next b (f b))
    (hlive : next ∈ activeStatuses → ∀ b ∈ t.rows, p b = true → b.active = true) :
    Apart (t.update p f hf) := by
  have hback (r : Booking) (hr : r ∈ t.rows) :
      ((if p r then f r else r).active = true → r.active = true) ∧
        ∀ b', (if p r then f r else r).Overlaps b' → r.Overlaps b' := by
    by_cases hp : p r = true
    · simp only [hp, if_true]
      rw [hnext r]
      refine ⟨fun hactive => ?_, fun _ h => h⟩
      exact hlive (by simpa [Booking.active] using hactive) r hr hp
    · simp [hp]
  intro b hb b' hb' hne hactive hactive' hover
  obtain ⟨r, hr, rfl⟩ := List.mem_map.mp hb
  obtain ⟨r', hr', rfl⟩ := List.mem_map.mp hb'
  apply ht r hr r' hr' (fun h => hne (by rw [h])) ((hback r hr).1 hactive)
    ((hback r' hr').1 hactive')
  exact ((hback r' hr').2 _ ((hback r hr).2 _ hover).symm).symm

theorem asked_booking {s s' : Store} (h : Asked s.core s'.core) : s'.booking = s.booking := by
  have hcore : s'.booking = s'.core.booking := rfl
  rw [hcore]
  generalize s'.core = c at h
  cases h <;> rfl

end
end BookingPlatform
