import BookingPlatform.Booking
import BookingPlatform.Schedule
import Mathlib.Data.List.Sort

/-! What decides an answer of `getFreeSlots`: the timetable, and which lanes are taken from when to when. -/
namespace BookingPlatform
open Async Data Prog AvailabilityService

/-- The staff of every slot stand in the order of the list. -/
def Ranked (staff : List (Option Id)) (slots : List FreeSlot) : Prop :=
  ∀ e ∈ slots, e.availableStaffIds.Sublist staff

/-- Slots as a query for these staff answers them. -/
structure Roster (duration : Time) (staff : List (Option Id)) (slots : List FreeSlot) : Prop where
  neat : Neat duration slots
  increasing : slots.Pairwise fun e e' => e.startTime < e'.startTime
  ranked : Ranked staff slots

section merge
variable {duration t : Time} {staff : List (Option Id)} {slots slots' : List FreeSlot} {m : Option Id}

theorem Ranked.append (h : Ranked staff slots) (staff' : List (Option Id)) : Ranked (staff ++ staff') slots :=
  fun e he => (h e he).trans (List.sublist_append_left _ _)

theorem ranked_cons {e : FreeSlot} :
    Ranked staff (e :: slots) ↔ e.availableStaffIds.Sublist staff ∧ Ranked staff slots := List.forall_mem_cons

/-- The staff member comes last, and is added once. -/
theorem ranked_addSlot (h : Ranked (staff ++ [m]) slots) (hnew : ¬ Listed slots t m) :
    Ranked (staff ++ [m]) (addSlot m duration t slots) := by
  induction slots with
  | nil => exact List.forall_mem_singleton.mpr (List.sublist_append_right _ _)
  | cons e rest ih =>
    obtain ⟨hfirst, hrest⟩ := ranked_cons.mp h
    have hnewRest : ¬ Listed rest t m := fun ⟨e', he', hlisted⟩ => hnew ⟨e', List.mem_cons_of_mem _ he', hlisted⟩
    unfold addSlot
    split
    · rename_i hstart
      refine ranked_cons.mpr ⟨?_, hrest⟩
      obtain ⟨before, last, hsplit, hbefore, hlast⟩ := List.sublist_append_iff.mp hfirst
      rcases List.sublist_singleton.mp hlast with rfl | rfl
      · rw [List.append_nil] at hsplit
        exact (hsplit ▸ hbefore).append_right [m]
      · have hmem : m ∈ e.availableStaffIds := by simp [hsplit]
        exact absurd ⟨e, List.mem_cons_self, hstart, hmem⟩ hnew
    · exact ranked_cons.mpr ⟨hfirst, ih hrest hnewRest⟩

theorem ranked_addSlots {times : List Time} (h : Ranked (staff ++ [m]) slots) (htimes : times.Nodup)
    (hnew : ∀ t ∈ times, ¬ Listed slots t m) :
    Ranked (staff ++ [m]) (times.foldl (fun acc slot => addSlot m duration slot acc) slots) := by
  induction times generalizing slots with
  | nil => exact h
  | cons time rest ih =>
    obtain ⟨hfirst, hrest⟩ := List.nodup_cons.mp htimes
    refine ih (ranked_addSlot h (hnew time List.mem_cons_self)) hrest fun t ht hlisted => ?_
    rcases listed_addSlot.mp hlisted with hbefore | ⟨rfl, -⟩
    · exact hnew t (List.mem_cons_of_mem _ ht) hbefore
    · exact hfirst ht

theorem Roster.mem_iff (h : Roster duration staff slots) {e : FreeSlot} (he : e ∈ slots) :
    m ∈ e.availableStaffIds ↔ Listed slots e.startTime m := by
  refine ⟨fun hm => ⟨e, he, rfl, hm⟩, ?_⟩
  rintro ⟨e', he', hstart, hm⟩
  have : Std.Symm fun e e' : FreeSlot => e.startTime ≠ e'.startTime := ⟨fun _ _ hne => Ne.symm hne⟩
  by_cases hsame : e' = e
  · exact hsame ▸ hm
  · exact absurd hstart (h.neat.distinct.forall he' he hsame)

/-- A slot is known by its time and by whom it is there for. -/
theorem Roster.subset (h : Roster duration staff slots) (h' : Roster duration staff slots') (hstaff : staff.Nodup)
    (hlisted : ∀ t m, Listed slots t m ↔ Listed slots' t m) : ∀ e ∈ slots, e ∈ slots' := by
  intro e he
  obtain ⟨m, hm⟩ := List.exists_mem_of_ne_nil _ (h.neat.manned e he)
  obtain ⟨e', he', hstart, -⟩ := (hlisted _ _).mp ((h.mem_iff he).mp hm)
  have hend : e'.endTime = e.endTime := by rw [h'.neat.ends e' he', h.neat.ends e he, hstart]
  have hids : e'.availableStaffIds = e.availableStaffIds := by
    apply (hstaff.perm_iff_eq_of_sublist (h'.ranked e' he') (h.ranked e he)).mp
    apply (List.perm_ext_iff_of_nodup (h'.neat.once e' he') (h.neat.once e he)).mpr
    intro m
    rw [h'.mem_iff he', h.mem_iff he, hlisted, hstart]
  have : e' = e := by
    cases e
    cases e'
    simp_all
  exact this ▸ he'

/-- An answer is known by whom it lists when. -/
theorem Roster.eq (h : Roster duration staff slots) (h' : Roster duration staff slots') (hstaff : staff.Nodup)
    (hlisted : ∀ t m, Listed slots t m ↔ Listed slots' t m) : slots = slots' := by
  have : Std.Irrefl fun e e' : FreeSlot => e.startTime < e'.startTime := ⟨fun e => Int.lt_irrefl _⟩
  have : Std.Antisymm fun e e' : FreeSlot => e.startTime < e'.startTime :=
    ⟨fun e e' hlt hlt' => absurd hlt (Int.not_lt.mpr (Int.le_of_lt hlt'))⟩
  exact h.increasing.eq_of_mem_iff h'.increasing fun e =>
    ⟨h.subset h' hstaff hlisted e, h'.subset h hstaff (fun t m => (hlisted t m).symm) e⟩

end merge

/-! ### One query -/

section query
variable {g : Env} {s : Store} {branchId : Id} {date : ℤ}

theorem collectSlots_ranked (hup : g.down = false) (service : Service) {before staff : List (Option Id)}
    (hstaff : staff.Nodup) {slots slots' : List FreeSlot} (hranked : Ranked before slots)
    (hnew : ∀ m ∈ staff, ∀ t, ¬ Listed slots t m)
    (h : (collectSlots branchId service date staff slots).eval g none s = (.ok slots', none, s)) :
    Ranked (before ++ staff) slots' := by
  induction staff generalizing before slots with
  | nil =>
    obtain rfl : slots = slots' := by simpa [collectSlots] using h
    rwa [List.append_nil]
  | cons m rest ih =>
    obtain ⟨hother, hrest⟩ := List.nodup_cons.mp hstaff
    have hnewRest : ∀ m ∈ rest, ∀ t, ¬ Listed slots t m := fun m hm => hnew m (List.mem_cons_of_mem _ hm)
    rw [List.append_cons]
    unfold collectSlots at h
    rw [eval_bind (eval_resolveWorkingWindow hup _), eval_onOk_ok] at h
    cases hwindow : windowOf g s branchId m (getUTCDay date) with
    | none =>
      rw [hwindow] at h
      exact ih hrest (hranked.append [m]) hnewRest h
    | some window =>
      obtain ⟨holiday, -, hholiday⟩ := @eval_isHoliday g s branchId m date hup
      rw [hwindow] at h
      dsimp only at h
      rw [eval_bind hholiday, eval_onOk_ok] at h
      cases holiday with
      | true => exact ih hrest (hranked.append [m]) hnewRest h
      | false =>
        simp only [Bool.false_eq_true, if_false] at h
        rw [eval_query_bind hup, eval_bind eval_clock, eval_onOk_ok] at h
        refine ih hrest (ranked_addSlots (hranked.append [m]) (generateSlots_nodup service.durationMinutes.ms_pos)
          fun t _ => hnew m List.mem_cons_self t) (fun m' hm' t hlisted => ?_) h
        rcases listed_addSlots.mp hlisted with hbefore | ⟨-, rfl⟩
        · exact hnewRest m' hm' t hbefore
        · exact hother hm'

end query

/-! ### Two stores with one timetable -/

/-- What a query reads besides the bookings is the same. -/
structure SameTimetable (s s' : Store) : Prop where
  service : s'.service = s.service
  branch : s'.branch = s.branch
  staffMember : s'.staffMember = s.staffMember
  serviceStaff : s'.serviceStaff = s.serviceStaff
  workingHours : s'.workingHours = s.workingHours
  holiday : s'.holiday = s.holiday

theorem SameTimetable.refl (s : Store) : SameTimetable s s := ⟨rfl, rfl, rfl, rfl, rfl, rfl⟩

theorem SameTimetable.trans {s s' s'' : Store} (h : SameTimetable s s') (h' : SameTimetable s' s'') :
    SameTimetable s s'' :=
  ⟨h'.service.trans h.service, h'.branch.trans h.branch, h'.staffMember.trans h.staffMember,
    h'.serviceStaff.trans h.serviceStaff, h'.workingHours.trans h.workingHours, h'.holiday.trans h.holiday⟩

section timetable
variable {g : Env} {s s' : Store} {businessId branchId : Id} {dto : CheckAvailabilityDto}

theorem findFirst_same {T : Type} [Model T] {p : T → Bool} (h : (Model.get s' : Table T) = Model.get s) :
    findFirst p g s' = findFirst p g s := by
  unfold findFirst
  rw [h]

theorem findMany_same {T : Type} [Model T] {p : T → Bool} (h : (Model.get s' : Table T) = Model.get s) :
    findMany p g s' = findMany p g s := by
  unfold findMany
  rw [h]

theorem SameTimetable.lineup (h : SameTimetable s s') : lineup g s' dto = lineup g s dto := by
  unfold AvailabilityService.lineup
  rw [findMany_same h.serviceStaff]

theorem SameTimetable.timetabled (h : SameTimetable s s') {duration t : Time} {date : ℤ} {m : Option Id} :
    Timetabled g s' branchId duration date m t ↔ Timetabled g s branchId duration date m t := by
  have hhours (p : WorkingHours → Bool) : findFirst p g s' = findFirst p g s := findFirst_same h.workingHours
  simp only [Timetabled, windowOf, OnHoliday, hhours, h.holiday]

/-- The prelude of a query comes out the same: an error, or the service, the branch and the staff. -/
theorem getFreeSlots_prelude (hup : g.down = false) (s : Store) (businessId : Id) (dto : CheckAvailabilityDto) :
    (∃ e, ∀ s', SameTimetable s s' → (getFreeSlots businessId dto).eval g none s' = (.error e, none, s')) ∨
    ∃ branchId service, Answerable s businessId branchId service dto ∧ ∀ s', SameTimetable s s' → ∀ slots,
      (collectSlots branchId service dto.date (AvailabilityService.lineup g s dto) []).eval g none s' = (.ok slots, none, s') →
      (getFreeSlots businessId dto).eval g none s' =
        (.ok (slots.mergeSort fun a b => a.startTime ≤ b.startTime), none, s') := by
  unfold getFreeSlots
  cases hservice : findFirst (fun r : Service => r.id == dto.serviceId && r.businessId == businessId && r.isActive) g s with
  | none =>
    refine .inl ⟨.notFound "خدمت یافت نشد", fun s' h => ?_⟩
    rw [eval_query_bind hup, Option.getD_none, findFirst_same h.service, hservice, eval_bind (eval_orThrow _ _)]
    rfl
  | some service =>
    cases hnamed : truthyId dto.branchId with
    | none =>
      refine .inl ⟨.notFound "شعبه مشخص نشده است", fun s' h => ?_⟩
      rw [eval_query_bind hup, Option.getD_none, findFirst_same h.service, hservice, eval_bind (eval_orThrow _ _),
        eval_onOk_ok, eval_bind (eval_orThrow _ _)]
      rfl
    | some branchId =>
      cases hbranch : findFirst (fun r : Branch => r.id == branchId && r.businessId == businessId) g s with
      | none =>
        refine .inl ⟨.notFound "شعبه یافت نشد", fun s' h => ?_⟩
        rw [eval_query_bind hup, Option.getD_none, findFirst_same h.service, hservice, eval_bind (eval_orThrow _ _),
          eval_onOk_ok, eval_bind (eval_orThrow _ _), eval_onOk_ok, eval_query_bind hup, Option.getD_none,
          findFirst_same h.branch, hbranch, eval_bind (eval_orThrow _ _)]
        rfl
      | some branch =>
        obtain ⟨hserviceMem, hp⟩ := findFirst_some hservice
        simp only [Bool.and_eq_true, beq_iff_eq] at hp
        obtain ⟨hbranchMem, hp'⟩ := findFirst_some hbranch
        simp only [Bool.and_eq_true, beq_iff_eq] at hp'
        by_cases hstaff : ∀ m, truthyId dto.staffMemberId = some m →
            ∃ r ∈ s.staffMember.rows, r.id = m ∧ r.businessId = businessId ∧ r.isActive = true
        · refine .inr ⟨branchId, service, ⟨⟨hserviceMem, hp.1.1, hp.1.2, hp.2⟩, truthyId_eq_some.mp hnamed,
            ⟨branch, hbranchMem, hp'⟩, hstaff⟩, fun s' h slots hslots => ?_⟩
          have hlineup := @eval_candidateStaff g s' hup businessId dto (h.staffMember ▸ hstaff)
          rw [h.lineup] at hlineup
          rw [eval_query_bind hup, Option.getD_none, findFirst_same h.service, hservice, eval_bind (eval_orThrow _ _),
            eval_onOk_ok, eval_bind (eval_orThrow _ _), eval_onOk_ok, eval_query_bind hup, Option.getD_none,
            findFirst_same h.branch, hbranch, eval_bind (eval_orThrow _ _), eval_onOk_ok, eval_bind hlineup,
            eval_onOk_ok, eval_bind hslots]
          rfl
        · push Not at hstaff
          obtain ⟨m, hm, hnone⟩ := hstaff
          have hmissing : findFirst (fun r : StaffMember => r.id == m && r.businessId == businessId && r.isActive) g s =
              none := by
            cases hfound : findFirst (fun r : StaffMember => r.id == m && r.businessId == businessId && r.isActive) g s with
            | none => rfl
            | some r =>
              obtain ⟨hr, hp⟩ := findFirst_some hfound
              simp only [Bool.and_eq_true, beq_iff_eq] at hp
              exact absurd hp.2 (hnone r hr hp.1.1 hp.1.2)
          refine .inl ⟨.notFound "کارمند یافت نشد", fun s' h => ?_⟩
          rw [eval_query_bind hup, Option.getD_none, findFirst_same h.service, hservice, eval_bind (eval_orThrow _ _),
            eval_onOk_ok, eval_bind (eval_orThrow _ _), eval_onOk_ok, eval_query_bind hup, Option.getD_none,
            findFirst_same h.branch, hbranch, eval_bind (eval_orThrow _ _), eval_onOk_ok]
          unfold candidateStaff
          rw [hm]
          dsimp only
          rw [bind_eq, eval_andThen, eval_query_bind hup, Option.getD_none, findFirst_same h.staffMember, hmissing,
            eval_bind (eval_orThrow _ _)]
          rfl

/-- Of the bookings an answer tells no more than who is free when. -/
theorem eval_answer (hup : g.down = false) (s : Store) (businessId : Id) (dto : CheckAvailabilityDto) :
    (∃ e, ∀ s', SameTimetable s s' → (getFreeSlots businessId dto).eval g none s' = (.error e, none, s')) ∨
    ∃ (branchId : Id) (duration : Time), dto.branchId = some branchId ∧ ∀ s', SameTimetable s s' → ∃ slots,
      (getFreeSlots businessId dto).eval g none s' = (.ok slots, none, s') ∧
      Roster duration (AvailabilityService.lineup g s dto) slots ∧
      ∀ t m, Listed slots t m ↔ (m ∈ AvailabilityService.lineup g s dto ∧
        Timetabled g s branchId duration dto.date m t) ∧ FreeThatDay s' branchId duration dto.date m t := by
  rcases getFreeSlots_prelude hup s businessId dto with herror | ⟨branchId, service, hanswerable, hsame⟩
  · exact .inl herror
  refine .inr ⟨branchId, service.durationMinutes.ms, hanswerable.named.1, fun s' h => ?_⟩
  have hnodup := @lineup_nodup g s dto
  obtain ⟨slots, heval, hneat, hlisted⟩ := @eval_collectSlots g s' branchId dto.date hup service
    (AvailabilityService.lineup g s dto) hnodup [] (neat_nil _) (by simp [Listed])
  have hranked : Ranked (AvailabilityService.lineup g s dto) slots :=
    @collectSlots_ranked g s' branchId dto.date hup service [] _ hnodup [] slots (fun e he => absurd he List.not_mem_nil)
      (by simp [Listed]) heval
  refine ⟨_, hsame s' h slots heval, ⟨hneat.sorted, hneat.increasing, fun e he => hranked e (List.mem_mergeSort.mp he)⟩,
    fun t m => ?_⟩
  have hsorted : Listed (slots.mergeSort fun a b => a.startTime ≤ b.startTime) t m ↔ Listed slots t m := by
    simp [Listed, List.mem_mergeSort]
  rw [hsorted, hlisted, Offers, h.timetabled, and_assoc]
  simp [Listed]

end timetable

/-! ### Striking out -/

/-- The booking keeps the staff member from this slot of the day. -/
def Booking.blocks (b : Booking) (dto : CheckAvailabilityDto) (slot : FreeSlot) (m : Option Id) : Bool :=
  b.active && dto.branchId == some b.branchId && m == b.staffMemberId && dayStart dto.date ≤ b.startTime &&
    b.startTime < dayEnd dto.date && slot.startTime < b.endTime && b.startTime < slot.endTime

/-- The slot without the staff whom the bookings keep from it. -/
def FreeSlot.without (slot : FreeSlot) (dto : CheckAvailabilityDto) (bs : List Booking) : FreeSlot :=
  { slot with availableStaffIds := slot.availableStaffIds.filter fun m => ¬ bs.any fun b => b.blocks dto slot m }

/-- The slots without the staff whom the bookings keep from them; a slot that is there for nobody is left out. -/
def strike (dto : CheckAvailabilityDto) (bs : List Booking) (slots : List FreeSlot) : List FreeSlot :=
  (slots.map fun slot => slot.without dto bs).filter fun slot => slot.availableStaffIds ≠ []

section strike
variable {dto : CheckAvailabilityDto} {bs : List Booking} {duration t : Time} {staff : List (Option Id)}
  {slots : List FreeSlot} {m : Option Id}

theorem mem_strike {e : FreeSlot} : e ∈ strike dto bs slots ↔
    (∃ slot ∈ slots, slot.without dto bs = e) ∧ e.availableStaffIds ≠ [] := by
  simp [strike, List.mem_filter]

theorem Roster.strike (h : Roster duration staff slots) : Roster duration staff (strike dto bs slots) := by
  have hsub {R : FreeSlot → FreeSlot → Prop} (hR : slots.Pairwise fun e e' => R (e.without dto bs) (e'.without dto bs)) :
      (BookingPlatform.strike dto bs slots).Pairwise R := (List.pairwise_map.mpr hR).filter _
  refine ⟨⟨hsub h.neat.distinct, fun e he => ?_, fun e he => (mem_strike.mp he).2, fun e he => ?_⟩, hsub h.increasing,
    fun e he => ?_⟩
  · obtain ⟨⟨slot, hslot, rfl⟩, -⟩ := mem_strike.mp he
    exact h.neat.ends slot hslot
  · obtain ⟨⟨slot, hslot, rfl⟩, -⟩ := mem_strike.mp he
    exact (h.neat.once slot hslot).filter _
  · obtain ⟨⟨slot, hslot, rfl⟩, -⟩ := mem_strike.mp he
    exact List.filter_sublist.trans (h.ranked slot hslot)

theorem Roster.listed_strike (h : Roster duration staff slots) : Listed (BookingPlatform.strike dto bs slots) t m ↔
    Listed slots t m ∧ ∀ b ∈ bs, b.blocks dto ⟨t, t + duration, []⟩ m = false := by
  have hfree {slot : FreeSlot} (hslot : slot ∈ slots) : m ∈ (slot.without dto bs).availableStaffIds ↔
      m ∈ slot.availableStaffIds ∧ ∀ b ∈ bs, b.blocks dto ⟨slot.startTime, slot.startTime + duration, []⟩ m = false := by
    simp [FreeSlot.without, Booking.blocks, h.neat.ends slot hslot]
  constructor
  · rintro ⟨e, he, rfl, hm⟩
    obtain ⟨⟨slot, hslot, rfl⟩, -⟩ := mem_strike.mp he
    obtain ⟨hm, hblocks⟩ := (hfree hslot).mp hm
    exact ⟨⟨slot, hslot, rfl, hm⟩, hblocks⟩
  · rintro ⟨⟨slot, hslot, rfl, hm⟩, hblocks⟩
    have hm' := (hfree hslot).mpr ⟨hm, hblocks⟩
    exact ⟨_, mem_strike.mpr ⟨⟨slot, hslot, rfl⟩, List.ne_nil_of_mem hm'⟩, rfl, hm'⟩

/-- Nothing is struck out for no bookings. -/
theorem Roster.strike_nil (h : Roster duration staff slots) : BookingPlatform.strike dto [] slots = slots := by
  have hsame : (slots.map fun slot => slot.without dto []) = slots := by
    simp [FreeSlot.without]
  unfold BookingPlatform.strike
  rw [hsame, List.filter_eq_self]
  intro slot hslot
  simpa using h.neat.manned slot hslot

end strike

end BookingPlatform
