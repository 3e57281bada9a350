import BookingPlatform.Async.Eval
import BookingPlatform.Availability
import Mathlib.Tactic.Linarith
import Mathlib.Tactic.Ring

/-! The slots that `getFreeSlots` offers. -/
namespace BookingPlatform
open Async Prog

section
variable {α : Type} {g : Env} {v : Option Store} {s : Store}

theorem eval_query (hup : g.down = false) (q : Query α) :
    (query q).eval g v s = (.ok (q g (v.getD s)), v, s) :=
  eval_read (q := q) fun s => by simp [attempt, hup]

/-- A write that succeeds. -/
theorem eval_prisma_ok {q : Stmt α} {a : α} {s' : Store} (hup : g.down = false)
    (h : q g s = .ok (a, s')) : (prisma q).eval g none s = (.ok a, none, s') := by
  have hattempt : attempt q g s = .ok (a, s') := by simp [attempt, hup, h]
  simp [prisma, single, eval, hattempt, Except.map]

@[simp] theorem eval_look (q : Env → α) : (look q).eval g v s = (.ok (q g), v, s) :=
  eval_read (q := fun g _ => q g) fun _ => rfl

@[simp] theorem eval_clock : clock.eval g v s = (.ok g.now, v, s) := eval_look _

/-- A query and what is done with its result. -/
theorem eval_query_bind {β : Type} (hup : g.down = false) (q : Query α) (f : α → Task β) :
    (query q >>= f).eval g v s = (f (q g (v.getD s))).eval g v s := by
  rw [eval_bind (eval_query hup q), eval_onOk_ok]

end

namespace AvailabilityService

/-- The opening and closing time of that day that a query finds. -/
def windowOf (g : Env) (s : Store) (branchId : Id) (staffId : Option Id) (dayOfWeek : ℤ) :
    Option Window :=
  let own := (truthyId staffId).bind fun staff =>
    findFirst (fun r : WorkingHours => r.staffMemberId == some staff) g s
  let hours := if own.isSome then
      findFirst (fun r : WorkingHours => r.staffMemberId == staffId && r.dayOfWeek == dayOfWeek) g s
    else findFirst (fun r : WorkingHours => r.branchId == some branchId && r.dayOfWeek == dayOfWeek) g s
  hours.map fun h => ⟨h.startTime, h.endTime⟩

/-- The day is a holiday of the staff member or of the branch. -/
def OnHoliday (s : Store) (branchId : Id) (staffId : Option Id) (date : ℤ) : Prop :=
  ∃ r ∈ s.holiday.rows, ((∃ staff, truthyId staffId = some staff ∧ r.staffMemberId = some staff) ∨
    r.branchId = some branchId) ∧ dayStart date ≤ r.date ∧ r.date < dayEnd date

/-- A multiple of the duration after the opening time, over before the closing time. -/
def OnGrid (date : ℤ) (window : Window) (duration t : Time) : Prop :=
  ∃ k : ℕ, t = dayStart date + window.startTime.ms + k * duration ∧
    t + duration ≤ dayStart date + window.endTime.ms

/-- The working hours and the clock allow the slot. -/
def Timetabled (g : Env) (s : Store) (branchId : Id) (duration : Time) (date : ℤ)
    (staffId : Option Id) (t : Time) : Prop :=
  (∃ window, windowOf g s branchId staffId (getUTCDay date) = some window ∧
    OnGrid date window duration t) ∧ ¬ OnHoliday s branchId staffId date ∧ g.now < t

/-- No active booking of the lane that starts on that day overlaps the slot. -/
def FreeThatDay (s : Store) (branchId : Id) (duration : Time) (date : ℤ) (staffId : Option Id)
    (t : Time) : Prop :=
  ∀ b ∈ s.booking.rows, b.staffMemberId = staffId → b.branchId = branchId →
    activeStatuses.contains b.status = true → dayStart date ≤ b.startTime → b.startTime < dayEnd date →
    ¬ (t < b.endTime ∧ b.startTime < t + duration)

/-- The staff whose hours are looked at. -/
def candidates (s : Store) (dto : CheckAvailabilityDto) : List (Option Id) :=
  match truthyId dto.staffMemberId with
  | some staffMemberId => [some staffMemberId]
  | none =>
    let assignments := s.serviceStaff.rows.filter fun r => r.serviceId == dto.serviceId
    if assignments.length > 0 then assignments.map fun a => some a.staffMemberId else [none]

/-- The staff whose hours are looked at, in the order in which they are returned. -/
def lineup (g : Env) (s : Store) (dto : CheckAvailabilityDto) : List (Option Id) :=
  match truthyId dto.staffMemberId with
  | some staffMemberId => [some staffMemberId]
  | none =>
    let assignments := findMany (fun r : ServiceStaff => r.serviceId == dto.serviceId) g s
    if assignments.length > 0 then assignments.map fun a => some a.staffMemberId else [none]

section
variable {g : Env} {s : Store} {branchId : Id} {staffId : Option Id} {date : ℤ}

theorem eval_resolveWorkingWindow (hup : g.down = false) (dayOfWeek : ℤ) :
    (resolveWorkingWindow branchId staffId dayOfWeek).eval g none s =
      (.ok (windowOf g s branchId staffId dayOfWeek), none, s) := by
  unfold resolveWorkingWindow windowOf
  cases hstaff : truthyId staffId with
  | none =>
    rw [eval_bind (eval_pure none), eval_onOk_ok, eval_query_bind hup]
    rfl
  | some staff =>
    rw [eval_query_bind hup]
    cases hown : findFirst (fun r : WorkingHours => r.staffMemberId == some staff) g s with
    | none =>
      simp only [Option.getD_none, hown, Option.bind_some]
      rw [eval_query_bind hup]
      rfl
    | some own =>
      simp only [Option.getD_none, hown, Option.bind_some]
      rw [eval_query_bind hup]
      rfl

theorem eval_isHoliday (hup : g.down = false) :
    ∃ b, (b = true ↔ OnHoliday s branchId staffId date) ∧
      (isHoliday branchId staffId date).eval g none s = (.ok b, none, s) := by
  unfold isHoliday
  have branchDay (b : Bool) (h : (findFirst (fun r : Holiday => r.branchId == some branchId &&
      dayStart date ≤ r.date && r.date < dayEnd date) g s).isSome = b)
      (hnone : ∀ staff, truthyId staffId = some staff → ∀ r ∈ s.holiday.rows,
        ¬ (r.staffMemberId = some staff ∧ dayStart date ≤ r.date ∧ r.date < dayEnd date)) :
      b = true ↔ OnHoliday s branchId staffId date := by
    rw [← h, findFirst_isSome]
    constructor
    · rintro ⟨r, hr, hp⟩
      simp only [Bool.and_eq_true, beq_iff_eq, decide_eq_true_eq] at hp
      exact ⟨r, hr, .inr hp.1.1, hp.1.2, hp.2⟩
    · rintro ⟨r, hr, hown | hbranch, hday⟩
      · obtain ⟨staff, hstaff, hr'⟩ := hown
        exact absurd ⟨hr', hday⟩ (hnone staff hstaff r hr)
      · exact ⟨r, hr, by simp [hbranch, hday]⟩
  cases hstaff : truthyId staffId with
  | none =>
    rw [eval_bind (eval_pure none), eval_onOk_ok]
    dsimp only
    rw [eval_query_bind hup]
    refine ⟨_, branchDay _ rfl fun staff h => ?_, rfl⟩
    simp [hstaff] at h
  | some staff =>
    dsimp only
    rw [eval_query_bind hup]
    cases hown : findFirst (fun r : Holiday => r.staffMemberId == some staff &&
        dayStart date ≤ r.date && r.date < dayEnd date) g s with
    | none =>
      simp only [Option.getD_none, hown]
      rw [eval_query_bind hup]
      refine ⟨_, branchDay _ rfl fun staff' h r hr hday => ?_, rfl⟩
      obtain rfl : staff = staff' := by simpa [hstaff] using h
      have := findFirst_none hown r hr
      simp [hday] at this
    | some r =>
      simp only [Option.getD_none, hown]
      obtain ⟨hr, hp⟩ := findFirst_some hown
      simp only [Bool.and_eq_true, beq_iff_eq, decide_eq_true_eq] at hp
      exact ⟨true, iff_of_true rfl ⟨r, hr, .inl ⟨staff, hstaff, hp.1.1⟩, hp.1.2, hp.2⟩, rfl⟩

/-! ### The loops -/

/-- The turns of the `while` loop: one for each multiple of the duration that fits. -/
theorem mem_slotsFrom {duration windowEnd now t : Time} {bookings : List Booking} (hd : 0 < duration)
    {n : ℕ} {cursor : Time} : t ∈ slotsFrom duration windowEnd now bookings n cursor ↔
      (∃ k : ℕ, k < n ∧ t = cursor + k * duration ∧ t + duration ≤ windowEnd) ∧ now < t ∧
        ∀ b ∈ bookings, ¬ (t < b.endTime ∧ b.startTime < t + duration) := by
  induction n generalizing cursor with
  | zero => simp [slotsFrom]
  | succ n ih =>
    have later : (∃ k : ℕ, k < n + 1 ∧ t = cursor + k * duration ∧ t + duration ≤ windowEnd) ↔
        (t = cursor ∧ t + duration ≤ windowEnd) ∨
          ∃ k : ℕ, k < n ∧ t = cursor + duration + k * duration ∧ t + duration ≤ windowEnd := by
      constructor
      · rintro ⟨k, hk, ht, hend⟩
        cases k with
        | zero => exact .inl ⟨by simpa using ht, hend⟩
        | succ k =>
          refine .inr ⟨k, by omega, ?_, hend⟩
          rw [ht]
          push_cast
          ring
      · rintro (⟨rfl, hend⟩ | ⟨k, hk, ht, hend⟩)
        · exact ⟨0, by omega, by simp, hend⟩
        · refine ⟨k + 1, by omega, ?_, hend⟩
          rw [ht]
          push_cast
          ring
    have free (c : Time) : (¬ c ≤ now ∧ ¬ (bookings.any fun b =>
        decide (c < b.endTime) && decide (c + duration > b.startTime)) = true) ↔
          now < c ∧ ∀ b ∈ bookings, ¬ (c < b.endTime ∧ b.startTime < c + duration) := by
      simp [List.any_eq_true]
    rw [later]
    unfold slotsFrom
    by_cases hfits : cursor + duration ≤ windowEnd
    · simp only [hfits, if_true]
      by_cases hfree : now < cursor ∧ ∀ b ∈ bookings, ¬ (cursor < b.endTime ∧ b.startTime < cursor + duration)
      · rw [if_pos ((free cursor).mpr hfree), List.mem_cons, ih]
        constructor
        · rintro (rfl | ⟨hk, ht⟩)
          · exact ⟨.inl ⟨rfl, hfits⟩, hfree⟩
          · exact ⟨.inr hk, ht⟩
        · rintro ⟨⟨rfl, -⟩ | hk, ht⟩
          · exact .inl rfl
          · exact .inr ⟨hk, ht⟩
      · rw [if_neg (mt (free cursor).mp hfree), ih]
        constructor
        · rintro ⟨hk, ht⟩
          exact ⟨.inr hk, ht⟩
        · rintro ⟨⟨rfl, -⟩ | hk, ht⟩
          · exact absurd ht hfree
          · exact ⟨hk, ht⟩
    · simp only [hfits, if_false, List.not_mem_nil, false_iff, not_and]
      rintro (⟨rfl, hend⟩ | ⟨k, -, ht, hend⟩)
      · exact absurd hend hfits
      · have : 0 ≤ (k : ℤ) * duration := Int.mul_nonneg (Int.natCast_nonneg k) (Int.le_of_lt hd)
        have : cursor + duration ≤ windowEnd := by linarith
        exact absurd this hfits

theorem mem_generateSlots {window : Window} {duration now t : Time} {bookings : List Booking}
    (hd : 0 < duration) : t ∈ generateSlots date window duration now bookings ↔
      OnGrid date window duration t ∧ now < t ∧
        ∀ b ∈ bookings, ¬ (t < b.endTime ∧ b.startTime < t + duration) := by
  unfold generateSlots
  rw [mem_slotsFrom hd, OnGrid]
  -- The bound on the turns of the loop cuts off no slot that fits.
  have bound (k : ℕ) (ht : t = dayStart date + window.startTime.ms + k * duration)
      (hend : t + duration ≤ dayStart date + window.endTime.ms) :
      k < ((dayStart date + window.endTime.ms - (dayStart date + window.startTime.ms)) / duration).toNat := by
    have hle : ((k : ℤ) + 1) * duration ≤
        dayStart date + window.endTime.ms - (dayStart date + window.startTime.ms) := by
      rw [ht] at hend
      linarith
    have := Int.le_ediv_of_mul_le hd hle
    omega
  constructor
  · rintro ⟨⟨k, -, ht, hend⟩, hfree⟩
    exact ⟨⟨k, ht, hend⟩, hfree⟩
  · rintro ⟨⟨k, ht, hend⟩, hfree⟩
    exact ⟨⟨k, bound k ht hend, ht, hend⟩, hfree⟩

/-- The turns that the bound leaves out would find that no slot fits any more. -/
theorem slotsFrom_succ {duration windowEnd now : Time} {bookings : List Booking} (hd : 0 < duration)
    {n : ℕ} {cursor : Time} (hn : ((windowEnd - cursor) / duration).toNat ≤ n) :
    slotsFrom duration windowEnd now bookings (n + 1) cursor =
      slotsFrom duration windowEnd now bookings n cursor := by
  induction n generalizing cursor with
  | zero =>
    have hlast : ¬ cursor + duration ≤ windowEnd := by
      intro hfits
      have hone : 1 ≤ (windowEnd - cursor) / duration := by
        apply Int.le_ediv_of_mul_le hd
        linarith
      have := Int.le_trans hone (Int.toNat_le.mp hn)
      contradiction
    simp [slotsFrom, hlast]
  | succ n ih =>
    have hrest : ((windowEnd - (cursor + duration)) / duration).toNat ≤ n := by
      have hshift : (windowEnd - (cursor + duration)) / duration = (windowEnd - cursor) / duration - 1 := by
        have hsub : windowEnd - (cursor + duration) = windowEnd - cursor + -1 * duration := by ring
        rw [hsub, Int.add_mul_ediv_right _ _ (ne_of_gt hd)]
        rfl
      have hn' := Int.toNat_le.mp hn
      push_cast at hn'
      apply Int.toNat_le.mpr
      linarith
    have hsame := ih hrest
    conv_lhs => rw [slotsFrom, hsame]
    conv_rhs => rw [slotsFrom]

/-- The `while` loop ends by itself: more turns change nothing. -/
theorem slotsFrom_eq_generateSlots {window : Window} {duration now : Time} {bookings : List Booking}
    (hd : 0 < duration) {n : ℕ}
    (hn : ((dayStart date + window.endTime.ms - (dayStart date + window.startTime.ms)) / duration).toNat ≤ n) :
    slotsFrom duration (dayStart date + window.endTime.ms) now bookings n
      (dayStart date + window.startTime.ms) = generateSlots date window duration now bookings := by
  induction n, hn using Nat.le_induction with
  | base => rfl
  | succ n hn ih => rw [slotsFrom_succ hd hn, ih]

theorem slotsFrom_increasing {duration windowEnd now : Time} {bookings : List Booking}
    (hd : 0 < duration) (n : ℕ) (cursor : Time) :
    (slotsFrom duration windowEnd now bookings n cursor).Pairwise (· < ·) := by
  induction n generalizing cursor with
  | zero => exact .nil
  | succ n ih =>
    have hlater : ∀ t ∈ slotsFrom duration windowEnd now bookings n (cursor + duration), cursor < t := by
      intro t ht
      obtain ⟨⟨k, -, ht, -⟩, -⟩ := (mem_slotsFrom hd).mp ht
      have : 0 ≤ (k : ℤ) * duration := Int.mul_nonneg (Int.natCast_nonneg k) (Int.le_of_lt hd)
      linarith
    unfold slotsFrom
    split
    · dsimp only
      split
      · exact List.pairwise_cons.mpr ⟨hlater, ih _⟩
      · exact ih _
    · exact .nil

theorem generateSlots_nodup {window : Window} {duration now : Time} {bookings : List Booking}
    (hd : 0 < duration) : (generateSlots date window duration now bookings).Nodup := by
  apply (slotsFrom_increasing hd _ _).imp
  intro t t' hlt
  exact ne_of_lt hlt

/-- The slot is in the list for this staff member. -/
def Listed (slots : List FreeSlot) (t : Time) (staffId : Option Id) : Prop :=
  ∃ slot ∈ slots, slot.startTime = t ∧ staffId ∈ slot.availableStaffIds

theorem listed_addSlot {duration slot t : Time} {slots : List FreeSlot} {m : Option Id} :
    Listed (addSlot staffId duration slot slots) t m ↔
      Listed slots t m ∨ (t = slot ∧ m = staffId) := by
  induction slots with
  | nil => simp [addSlot, Listed, eq_comm]
  | cons e rest ih =>
    have hcons (e : FreeSlot) (l : List FreeSlot) : Listed (e :: l) t m ↔
        (e.startTime = t ∧ m ∈ e.availableStaffIds) ∨ Listed l t m := by simp [Listed]
    unfold addSlot
    by_cases he : e.startTime = slot
    · rw [if_pos he, hcons, hcons]
      simp only [he, List.mem_append, List.mem_singleton]
      constructor
      · rintro (⟨ht, hm | hm⟩ | hrest)
        · exact .inl (.inl ⟨ht, hm⟩)
        · exact .inr ⟨ht.symm, hm⟩
        · exact .inl (.inr hrest)
      · rintro ((⟨ht, hm⟩ | hrest) | ⟨ht, hm⟩)
        · exact .inl ⟨ht, .inl hm⟩
        · exact .inr hrest
        · exact .inl ⟨ht.symm, .inr hm⟩
    · rw [if_neg he, hcons, hcons, ih, or_assoc]

theorem listed_addSlots {duration t : Time} {times : List Time} {slots : List FreeSlot}
    {m : Option Id} :
    Listed (times.foldl (fun acc slot => addSlot staffId duration slot acc) slots) t m ↔
      Listed slots t m ∨ (t ∈ times ∧ m = staffId) := by
  induction times generalizing slots with
  | nil => simp
  | cons time rest ih =>
    rw [List.foldl_cons, ih, listed_addSlot, List.mem_cons, or_assoc]
    apply or_congr_right
    constructor
    · rintro (⟨ht, hm⟩ | ⟨ht, hm⟩)
      · exact ⟨.inl ht, hm⟩
      · exact ⟨.inr ht, hm⟩
    · rintro ⟨ht | ht, hm⟩
      · exact .inl ⟨ht, hm⟩
      · exact .inr ⟨ht, hm⟩

/-- Every slot of the list is there for somebody. -/
def Manned (slots : List FreeSlot) : Prop := ∀ slot ∈ slots, slot.availableStaffIds ≠ []

/-- Slots at distinct times, each over after the duration, and there for somebody, once. -/
structure Neat (duration : Time) (slots : List FreeSlot) : Prop where
  distinct : slots.Pairwise fun e e' => e.startTime ≠ e'.startTime
  ends : ∀ e ∈ slots, e.endTime = e.startTime + duration
  manned : Manned slots
  once : ∀ e ∈ slots, e.availableStaffIds.Nodup

theorem neat_nil (duration : Time) : Neat duration [] :=
  ⟨.nil, by simp, by simp [Manned], by simp⟩

theorem neat_cons {duration : Time} {e : FreeSlot} {slots : List FreeSlot} :
    Neat duration (e :: slots) ↔ ((∀ e' ∈ slots, e.startTime ≠ e'.startTime) ∧
      e.endTime = e.startTime + duration ∧ e.availableStaffIds ≠ [] ∧ e.availableStaffIds.Nodup) ∧
        Neat duration slots := by
  constructor
  · rintro ⟨hdistinct, hends, hmanned, honce⟩
    simp only [List.pairwise_cons, List.forall_mem_cons, Manned] at hdistinct hends hmanned honce
    exact ⟨⟨hdistinct.1, hends.1, hmanned.1, honce.1⟩, hdistinct.2, hends.2, hmanned.2, honce.2⟩
  · rintro ⟨⟨hdistinct, hend, hmanned, honce⟩, hrest⟩
    refine ⟨List.pairwise_cons.mpr ⟨hdistinct, hrest.distinct⟩, ?_, ?_, ?_⟩
    · exact List.forall_mem_cons.mpr ⟨hend, hrest.ends⟩
    · exact List.forall_mem_cons.mpr ⟨hmanned, hrest.manned⟩
    · exact List.forall_mem_cons.mpr ⟨honce, hrest.once⟩

theorem startTime_addSlot {duration slot : Time} {slots : List FreeSlot} {e : FreeSlot}
    (he : e ∈ addSlot staffId duration slot slots) :
    e.startTime = slot ∨ ∃ e' ∈ slots, e'.startTime = e.startTime := by
  induction slots with
  | nil =>
    obtain rfl := List.mem_singleton.mp he
    exact .inl rfl
  | cons e' rest ih =>
    unfold addSlot at he
    split at he
    · rename_i hsame
      rcases List.mem_cons.mp he with rfl | hrest
      · exact .inl hsame
      · exact .inr ⟨e, List.mem_cons_of_mem _ hrest, rfl⟩
    · rcases List.mem_cons.mp he with rfl | hrest
      · exact .inr ⟨e, List.mem_cons_self, rfl⟩
      · rcases ih hrest with hslot | ⟨e'', he'', hstart⟩
        · exact .inl hslot
        · exact .inr ⟨e'', List.mem_cons_of_mem _ he'', hstart⟩

theorem neat_addSlot {duration slot : Time} {slots : List FreeSlot} (h : Neat duration slots)
    (hnew : ¬ Listed slots slot staffId) : Neat duration (addSlot staffId duration slot slots) := by
  induction slots with
  | nil =>
    apply neat_cons.mpr
    exact ⟨⟨by simp, rfl, by simp, by simp⟩, neat_nil duration⟩
  | cons e rest ih =>
    obtain ⟨⟨hdistinct, hend, hmanned, honce⟩, hrest⟩ := neat_cons.mp h
    have hnewRest : ¬ Listed rest slot staffId := by
      rintro ⟨e', he', hlisted⟩
      exact hnew ⟨e', List.mem_cons_of_mem _ he', hlisted⟩
    unfold addSlot
    by_cases he : e.startTime = slot
    · rw [if_pos he]
      have habsent : staffId ∉ e.availableStaffIds := fun hm => hnew ⟨e, List.mem_cons_self, he, hm⟩
      apply neat_cons.mpr
      refine ⟨⟨hdistinct, hend, by simp, ?_⟩, hrest⟩
      apply List.nodup_append.mpr
      refine ⟨honce, by simp, ?_⟩
      rintro m hm m' hm' rfl
      rw [List.mem_singleton.mp hm'] at hm
      exact habsent hm
    · rw [if_neg he]
      apply neat_cons.mpr
      refine ⟨⟨?_, hend, hmanned, honce⟩, ih hrest hnewRest⟩
      intro e' he'
      rcases startTime_addSlot he' with hslot | ⟨e'', he'', hstart⟩
      · rwa [hslot]
      · rw [← hstart]
        exact hdistinct e'' he''

theorem neat_addSlots {duration : Time} {times : List Time} {slots : List FreeSlot}
    (h : Neat duration slots) (htimes : times.Nodup) (hnew : ∀ t ∈ times, ¬ Listed slots t staffId) :
    Neat duration (times.foldl (fun acc slot => addSlot staffId duration slot acc) slots) := by
  induction times generalizing slots with
  | nil => exact h
  | cons time rest ih =>
    obtain ⟨hfirst, hrest⟩ := List.nodup_cons.mp htimes
    apply ih (neat_addSlot h (hnew time List.mem_cons_self)) hrest
    intro t ht hlisted
    rcases listed_addSlot.mp hlisted with hbefore | ⟨rfl, -⟩
    · exact hnew t (List.mem_cons_of_mem _ ht) hbefore
    · exact hfirst ht

/-- Sorted by time, the slots are in strictly increasing order. -/
theorem Neat.increasing {duration : Time} {slots : List FreeSlot} (h : Neat duration slots) :
    (slots.mergeSort fun a b => a.startTime ≤ b.startTime).Pairwise
      fun e e' => e.startTime < e'.startTime := by
  have hsorted := @List.pairwise_mergeSort FreeSlot (fun a b => a.startTime ≤ b.startTime)
    (by simp only [decide_eq_true_eq]; intro a b c hab hbc; exact Int.le_trans hab hbc)
    (by simp only [Bool.or_eq_true, decide_eq_true_eq]; intro a b; exact Int.le_total _ _) slots
  have hdistinct : (slots.mergeSort fun a b => a.startTime ≤ b.startTime).Pairwise
      fun e e' => e.startTime ≠ e'.startTime :=
    (List.mergeSort_perm slots _).symm.pairwise h.distinct fun hne => Ne.symm hne
  apply (hsorted.and hdistinct).imp
  rintro e e' ⟨hle, hne⟩
  exact lt_of_le_of_ne (of_decide_eq_true hle) hne

theorem Neat.sorted {duration : Time} {slots : List FreeSlot} (h : Neat duration slots) :
    Neat duration (slots.mergeSort fun a b => a.startTime ≤ b.startTime) := by
  refine ⟨h.increasing.imp fun hlt => ne_of_lt hlt, ?_, ?_, ?_⟩
  · intro e he
    exact h.ends e (List.mem_mergeSort.mp he)
  · intro e he
    exact h.manned e (List.mem_mergeSort.mp he)
  · intro e he
    exact h.once e (List.mem_mergeSort.mp he)

/-- The hours, the clock and the bookings of that day allow the slot for the staff member. -/
def Offers (g : Env) (s : Store) (branchId : Id) (duration : Time) (date : ℤ)
    (staffId : Option Id) (t : Time) : Prop :=
  Timetabled g s branchId duration date staffId t ∧ FreeThatDay s branchId duration date staffId t

theorem eval_collectSlots (hup : g.down = false) (service : Service) {staff : List (Option Id)}
    (hstaff : staff.Nodup) {slots : List FreeSlot} (hneat : Neat service.durationMinutes.ms slots)
    (hnew : ∀ m ∈ staff, ∀ t, ¬ Listed slots t m) : ∃ slots',
      (collectSlots branchId service date staff slots).eval g none s = (.ok slots', none, s) ∧
        Neat service.durationMinutes.ms slots' ∧ ∀ t m, Listed slots' t m ↔ Listed slots t m ∨
          (m ∈ staff ∧ Offers g s branchId service.durationMinutes.ms date m t) := by
  induction staff generalizing slots with
  | nil => exact ⟨slots, rfl, hneat, by simp⟩
  | cons staffId rest ih =>
    obtain ⟨hother, hrest⟩ := List.nodup_cons.mp hstaff
    have hnewRest : ∀ m ∈ rest, ∀ t, ¬ Listed slots t m :=
      fun m hm => hnew m (List.mem_cons_of_mem _ hm)
    have skip (hnot : ∀ t, ¬ Offers g s branchId service.durationMinutes.ms date staffId t)
        (slots' : List FreeSlot) (h : ∀ t m, Listed slots' t m ↔ Listed slots t m ∨
          (m ∈ rest ∧ Offers g s branchId service.durationMinutes.ms date m t)) (t : Time)
        (m : Option Id) : Listed slots' t m ↔ Listed slots t m ∨
          (m ∈ staffId :: rest ∧ Offers g s branchId service.durationMinutes.ms date m t) := by
      rw [h, List.mem_cons]
      apply or_congr_right
      constructor
      · rintro ⟨hm, ho⟩
        exact ⟨.inr hm, ho⟩
      · rintro ⟨rfl | hm, ho⟩
        · exact absurd ho (hnot t)
        · exact ⟨hm, ho⟩
    unfold collectSlots
    rw [eval_bind (eval_resolveWorkingWindow hup _), eval_onOk_ok]
    cases hwindow : windowOf g s branchId staffId (getUTCDay date) with
    | none =>
      obtain ⟨slots', heval, hneat', hlisted⟩ := ih hrest hneat hnewRest
      refine ⟨slots', heval, hneat', skip (fun t ho => ?_) slots' hlisted⟩
      obtain ⟨⟨⟨window, hw, -⟩, -⟩, -⟩ := ho
      simp [hwindow] at hw
    | some window =>
      obtain ⟨holiday, hholiday, heval⟩ := @eval_isHoliday g s branchId staffId date hup
      dsimp only
      rw [eval_bind heval, eval_onOk_ok]
      cases holiday with
      | true =>
        obtain ⟨slots', heval, hneat', hlisted⟩ := ih hrest hneat hnewRest
        refine ⟨slots', heval, hneat', skip (fun t ho => ?_) slots' hlisted⟩
        exact ho.1.2.1 (hholiday.mp rfl)
      | false =>
        have hopen : ¬ OnHoliday s branchId staffId date := by simpa using hholiday
        simp only [Bool.false_eq_true, if_false]
        rw [eval_query_bind hup, eval_bind eval_clock, eval_onOk_ok]
        have hnew' : ∀ m ∈ rest, ∀ t, ¬ Listed ((generateSlots date window service.durationMinutes.ms
            g.now (findMany (fun r : Booking => r.staffMemberId == staffId && r.branchId == branchId &&
              activeStatuses.contains r.status && dayStart date ≤ r.startTime &&
              r.startTime < dayEnd date) g s)).foldl
            (fun acc slot => addSlot staffId service.durationMinutes.ms slot acc) slots) t m := by
          intro m hm t hlisted
          rcases listed_addSlots.mp hlisted with hbefore | ⟨-, rfl⟩
          · exact hnewRest m hm t hbefore
          · exact hother hm
        obtain ⟨slots', heval, hneat', hlisted⟩ := ih hrest (neat_addSlots hneat
          (generateSlots_nodup service.durationMinutes.ms_pos)
          fun t _ => hnew staffId List.mem_cons_self t) hnew'
        refine ⟨slots', heval, hneat', fun t m => ?_⟩
        have hoffers : Offers g s branchId service.durationMinutes.ms date staffId t ↔
            OnGrid date window service.durationMinutes.ms t ∧ g.now < t ∧
              FreeThatDay s branchId service.durationMinutes.ms date staffId t := by
          simp only [Offers, Timetabled, hwindow, Option.some.injEq, exists_eq_left', hopen,
            not_false_eq_true, true_and, and_assoc]
        have hday : (∀ b ∈ findMany (fun r : Booking => r.staffMemberId == staffId &&
            r.branchId == branchId && activeStatuses.contains r.status &&
            dayStart date ≤ r.startTime && r.startTime < dayEnd date) g s,
              ¬ (t < b.endTime ∧ b.startTime < t + service.durationMinutes.ms)) ↔
            FreeThatDay s branchId service.durationMinutes.ms date staffId t := by
          simp only [mem_findMany, FreeThatDay, Bool.and_eq_true, beq_iff_eq, decide_eq_true_eq]
          constructor
          · intro h b hb hstaff hbranch hactive hstart hend
            exact h b ⟨hb, ⟨⟨⟨hstaff, hbranch⟩, hactive⟩, hstart⟩, hend⟩
          · rintro h b ⟨hb, ⟨⟨⟨hstaff, hbranch⟩, hactive⟩, hstart⟩, hend⟩
            exact h b hb hstaff hbranch hactive hstart hend
        rw [hlisted, listed_addSlots, mem_generateSlots service.durationMinutes.ms_pos, List.mem_cons,
          or_assoc, hday, ← hoffers]
        apply or_congr_right
        constructor
        · rintro (⟨ho, rfl⟩ | ⟨hm, ho⟩)
          · exact ⟨.inl rfl, ho⟩
          · exact ⟨.inr hm, ho⟩
        · rintro ⟨rfl | hm, ho⟩
          · exact .inl ⟨ho, rfl⟩
          · exact .inr ⟨hm, ho⟩

/-- What must be there for a query to be answered. -/
structure Answerable (s : Store) (businessId branchId : Id) (service : Service)
    (dto : CheckAvailabilityDto) : Prop where
  service : service ∈ s.service.rows ∧ service.id = dto.serviceId ∧ service.businessId = businessId ∧
    service.isActive = true
  named : dto.branchId = some branchId ∧ branchId ≠ 0
  branch : ∃ r ∈ s.branch.rows, r.id = branchId ∧ r.businessId = businessId
  staff : ∀ m, truthyId dto.staffMemberId = some m →
    ∃ r ∈ s.staffMember.rows, r.id = m ∧ r.businessId = businessId ∧ r.isActive = true

theorem service_eq {r r' : Service} (hr : r ∈ s.service.rows) (hr' : r' ∈ s.service.rows)
    (h : r.id = r'.id) : r = r' := Data.Table.eq_of_clash hr hr' (by simp [Data.Indexed.clash, h])

theorem eval_candidateStaff (hup : g.down = false) {businessId : Id} {dto : CheckAvailabilityDto}
    (hstaff : ∀ m, truthyId dto.staffMemberId = some m →
      ∃ r ∈ s.staffMember.rows, r.id = m ∧ r.businessId = businessId ∧ r.isActive = true) :
    (candidateStaff businessId dto).eval g none s = (.ok (lineup g s dto), none, s) := by
  unfold candidateStaff lineup
  cases htruthy : truthyId dto.staffMemberId with
  | none =>
    dsimp only
    rw [eval_query_bind hup]
    rfl
  | some m =>
    obtain ⟨r, hr, hid, hbusiness, hactive⟩ := hstaff m htruthy
    obtain ⟨r', hr'⟩ := findFirst_exists (p := fun r : StaffMember => r.id == m &&
      r.businessId == businessId && r.isActive) hr (by simp [hid, hbusiness, hactive]) g
    dsimp only
    rw [eval_query_bind hup, Option.getD_none, hr', eval_bind (eval_orThrow _ _)]
    rfl

theorem candidates_nodup (dto : CheckAvailabilityDto) : (candidates s dto).Nodup := by
  unfold candidates
  split
  · exact List.pairwise_singleton _ _
  · dsimp only
    split
    · apply List.pairwise_map.mpr
      have hsame : ∀ a ∈ s.serviceStaff.rows.filter (fun r => r.serviceId == dto.serviceId),
          a.serviceId = dto.serviceId := by
        intro a ha
        exact beq_iff_eq.mp (List.mem_filter.mp ha).2
      apply (s.serviceStaff.unique.sublist List.filter_sublist).imp_of_mem
      intro a b ha hb hclash heq
      have := Option.some.inj heq
      simp [Data.Indexed.clash, hsame a ha, hsame b hb, this] at hclash
    · exact List.pairwise_singleton _ _

theorem lineup_perm (dto : CheckAvailabilityDto) : (lineup g s dto).Perm (candidates s dto) := by
  unfold lineup candidates
  cases truthyId dto.staffMemberId with
  | some m => exact .refl _
  | none =>
    have hperm : (findMany (fun r : ServiceStaff => r.serviceId == dto.serviceId) g s).Perm
        (s.serviceStaff.rows.filter fun r => r.serviceId == dto.serviceId) := g.arrange_perm _
    dsimp only
    rw [hperm.length_eq]
    split
    · exact hperm.map _
    · exact .refl _

theorem lineup_nodup (dto : CheckAvailabilityDto) : (lineup g s dto).Nodup :=
  (lineup_perm dto).nodup_iff.mpr (candidates_nodup dto)

/-- The answer lists the slots that are offered, for every staff member whose hours count. -/
theorem eval_getFreeSlots (hup : g.down = false) {businessId : Id} {service : Service}
    {dto : CheckAvailabilityDto} (h : Answerable s businessId branchId service dto) : ∃ slots,
      (getFreeSlots businessId dto).eval g none s = (.ok slots, none, s) ∧
        (Neat service.durationMinutes.ms slots ∧
          slots.Pairwise fun e e' => e.startTime < e'.startTime) ∧ ∀ t m, Listed slots t m ↔
          m ∈ candidates s dto ∧ Offers g s branchId service.durationMinutes.ms dto.date m t := by
  obtain ⟨⟨hservice, hid, hbusiness, hactive⟩, ⟨hnamed, hne⟩, ⟨branch, hbranch, hbranchId, hbranchOf⟩,
    hstaff⟩ := h
  have hfound : findFirst (fun r : Service => r.id == dto.serviceId && r.businessId == businessId &&
      r.isActive) g s = some service := by
    apply findFirst_of_unique hservice (by simp [hid, hbusiness, hactive])
    intro r' hr' hp
    simp only [Bool.and_eq_true, beq_iff_eq] at hp
    exact service_eq hr' hservice (hp.1.1.trans hid.symm)
  obtain ⟨branch', hbranch'⟩ := findFirst_exists (p := fun r : Branch => r.id == branchId &&
    r.businessId == businessId) hbranch (by simp [hbranchId, hbranchOf]) g
  have htruthy : truthyId dto.branchId = some branchId := by simp [truthyId, hnamed, hne]
  obtain ⟨slots, heval, hneat, hlisted⟩ := @eval_collectSlots g s branchId dto.date hup service
    (lineup g s dto) (lineup_nodup dto) [] (neat_nil _) (by simp [Listed])
  refine ⟨slots.mergeSort fun a b => a.startTime ≤ b.startTime, ?_, ?_, fun t m => ?_⟩
  · unfold getFreeSlots
    rw [eval_query_bind hup, Option.getD_none, hfound, eval_bind (eval_orThrow _ _), eval_onOk_ok,
      htruthy, eval_bind (eval_orThrow _ _), eval_onOk_ok, eval_query_bind hup, Option.getD_none,
      hbranch', eval_bind (eval_orThrow _ _), eval_onOk_ok,
      eval_bind (eval_candidateStaff hup hstaff), eval_onOk_ok, eval_bind heval]
    rfl
  · exact ⟨hneat.sorted, hneat.increasing⟩
  · have hsorted : Listed (slots.mergeSort fun a b => a.startTime ≤ b.startTime) t m ↔
        Listed slots t m := by simp [Listed, List.mem_mergeSort]
    rw [hsorted, hlisted, (lineup_perm dto).mem_iff]
    simp [Listed]

/-- A query that is answered could be. -/
theorem answerable_of_eval {businessId : Id} {dto : CheckAvailabilityDto} {slots : List FreeSlot} {v : Option Store}
    {s' : Store} (hup : g.down = false) (h : (getFreeSlots businessId dto).eval g none s = (.ok slots, v, s')) :
    ∃ branchId service, Answerable s businessId branchId service dto := by
  unfold getFreeSlots at h
  rw [eval_query_bind hup, Option.getD_none] at h
  cases hservice : findFirst (fun r : Service => r.id == dto.serviceId &&
      r.businessId == businessId && r.isActive) g s with
  | none =>
    rw [hservice, eval_bind (eval_orThrow _ _)] at h
    simp at h
  | some service =>
    rw [hservice, eval_bind (eval_orThrow _ _), eval_onOk_ok] at h
    cases hnamed : truthyId dto.branchId with
    | none =>
      rw [hnamed, eval_bind (eval_orThrow _ _)] at h
      simp at h
    | some branchId =>
      rw [hnamed, eval_bind (eval_orThrow _ _), eval_onOk_ok, eval_query_bind hup, Option.getD_none] at h
      cases hbranch : findFirst (fun r : Branch => r.id == branchId && r.businessId == businessId)
          g s with
      | none =>
        rw [hbranch, eval_bind (eval_orThrow _ _)] at h
        simp at h
      | some branch =>
        rw [hbranch, eval_bind (eval_orThrow _ _), eval_onOk_ok] at h
        obtain ⟨hserviceMem, hp⟩ := findFirst_some hservice
        simp only [Bool.and_eq_true, beq_iff_eq] at hp
        obtain ⟨hbranchMem, hp'⟩ := findFirst_some hbranch
        simp only [Bool.and_eq_true, beq_iff_eq] at hp'
        refine ⟨branchId, service, ⟨hserviceMem, hp.1.1, hp.1.2, hp.2⟩, truthyId_eq_some.mp hnamed,
          ⟨branch, hbranchMem, hp'⟩, fun m hm => ?_⟩
        -- The staff member must have been found, or the query would have thrown.
        unfold candidateStaff at h
        rw [hm] at h
        dsimp only at h
        by_contra hno
        have hnone : findFirst (fun r : StaffMember => r.id == m && r.businessId == businessId &&
            r.isActive) g s = none := by
          cases hfound : findFirst (fun r : StaffMember => r.id == m &&
              r.businessId == businessId && r.isActive) g s with
          | none => rfl
          | some r =>
            obtain ⟨hr, hp⟩ := findFirst_some hfound
            simp only [Bool.and_eq_true, beq_iff_eq] at hp
            exact absurd ⟨r, hr, hp.1.1, hp.1.2, hp.2⟩ hno
        rw [bind_eq, eval_andThen, eval_query_bind hup, Option.getD_none, hnone,
          eval_bind (eval_orThrow _ _)] at h
        simp at h

/-- The query ends, and returns exactly the free slots, in order and each one once. -/
theorem getFreeSlots_exact (hup : g.down = false) {businessId : Id} {service : Service}
    {dto : CheckAvailabilityDto} (h : Answerable s businessId branchId service dto) : ∃ slots,
      (getFreeSlots businessId dto).eval g none s = (.ok slots, none, s) ∧
      (Thread.start (getFreeSlots businessId dto)).Ends g s (.ok slots) s ∧
      (∀ t m, Listed slots t m ↔
        m ∈ candidates s dto ∧ Offers g s branchId service.durationMinutes.ms dto.date m t) ∧
      (slots.Pairwise fun e e' => e.startTime < e'.startTime) ∧
      (∀ e ∈ slots, e.endTime = e.startTime + service.durationMinutes.ms ∧
        e.availableStaffIds.Nodup ∧ e.availableStaffIds ≠ []) ∧
      ∀ (window : Window) (bookings : List Booking) (n : ℕ),
        ((dayStart dto.date + window.endTime.ms - (dayStart dto.date + window.startTime.ms)) /
          service.durationMinutes.ms).toNat ≤ n →
        slotsFrom service.durationMinutes.ms (dayStart dto.date + window.endTime.ms) g.now bookings n
          (dayStart dto.date + window.startTime.ms) =
            generateSlots dto.date window service.durationMinutes.ms g.now bookings := by
  obtain ⟨slots, heval, ⟨hneat, hincreasing⟩, hlisted⟩ := eval_getFreeSlots hup h
  have hends := (getFreeSlots businessId dto).ends (g := g) s
  rw [heval] at hends
  refine ⟨slots, heval, hends, hlisted, hincreasing, ?_, ?_⟩
  · intro e he
    exact ⟨hneat.ends e he, hneat.once e he, hneat.manned e he⟩
  · intro window bookings n hn
    exact slotsFrom_eq_generateSlots service.durationMinutes.ms_pos hn

end

/-- A branch with one service that works from nine to five on Thursdays. -/
def nineToFive : Store where
  branch := .single { id := 1, businessId := 1, name := "", address := "", latitude := 0, longitude := 0 }
  service := .single { id := 1, businessId := 1, name := "", durationMinutes := .halfHour, price := 0 }
  workingHours := .single {
    id := 1, branchId := some 1, staffMemberId := none, dayOfWeek := 4, startTime := ⟨9, 0⟩, endTime := ⟨17, 0⟩ }

/-- Ten o'clock of the first Thursday is among its slots. -/
theorem getFreeSlots_exact_ten : ∃ slots,
    (getFreeSlots 1 { serviceId := 1, branchId := some 1, date := 0 }).eval
      { now := 0, uuid := id } none nineToFive = (.ok slots, none, nineToFive) ∧
    Listed slots (10 * hour) none := by
  obtain ⟨slots, heval, -, hlisted, -⟩ := @getFreeSlots_exact { now := 0, uuid := id } nineToFive 1 rfl 1
    _ { serviceId := 1, branchId := some 1, date := 0 }
    ⟨⟨List.mem_singleton.mpr rfl, rfl, rfl, rfl⟩, ⟨rfl, by decide⟩, by decide, by simp [truthyId]⟩
  refine ⟨slots, heval, (hlisted _ _).mpr ⟨by decide, ⟨⟨⟨⟨9, 0⟩, ⟨17, 0⟩⟩, rfl, 2, by decide, by decide⟩, ?_, by decide⟩, ?_⟩⟩
  · rintro ⟨r, hr, -⟩
    simp [nineToFive, Data.Table.empty] at hr
  · intro b hb
    simp [nineToFive, Data.Table.empty] at hb

end AvailabilityService
end BookingPlatform
