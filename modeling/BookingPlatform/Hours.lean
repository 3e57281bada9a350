import BookingPlatform.Async.Play
import BookingPlatform.Catalog
import BookingPlatform.Schedule

/-! Which slots of the working hours that a target is given are offered. -/
namespace BookingPlatform
open Async Data Prog AvailabilityService

/-! ### What is stored -/

section stored
variable {world : ℕ → Env} {k k' : ℕ} {w : Option Store} {s s' : Store} {g : Env}

/-- The branch or the staff member whose hours are set. -/
def SetWorkingHoursDto.target (dto : SetWorkingHoursDto) : Option Id × Option Id :=
  (truthyId dto.branchId, truthyId dto.staffMemberId)

theorem resolveTarget_played {businessId : Id} {branchId staffMemberId : Option Id} {target : Option Id × Option Id}
    (h : (WorkingHoursService.resolveTarget businessId branchId staffMemberId).play world k none s =
      (.ok target, k', w, s')) : w = none ∧ s' = s ∧ target = (truthyId branchId, truthyId staffMemberId) ∧
      target.1.isSome ≠ target.2.isSome := by
  unfold WorkingHoursService.resolveTarget at h
  have hassert {T : Type} {q : Query (Option T)} {p : T → Bool} {e : Err} {c : T → Task (Option Id × Option Id)}
      (hc : ∀ x, c x = pure (truthyId branchId, truthyId staffMemberId))
      (h : ((query q >>= fun found => orThrow (found.filter p) e) >>= c).play world k none s = (.ok target, k', w, s')) :
      w = none ∧ s' = s ∧ target = (truthyId branchId, truthyId staffMemberId) := by
    rw [bind_assoc, play_query_step] at h
    split at h
    · simp at h
    · rw [play_orThrow_bind] at h
      split at h
      · rw [hc] at h
        obtain ⟨rfl, -, rfl, rfl⟩ := by simpa using h
        exact ⟨rfl, rfl, rfl⟩
      · simp at h
  split at h
  · rename_i branch hbranch hstaff
    obtain ⟨hw, hs, htarget⟩ := hassert (fun _ => by rw [hbranch, hstaff]) h
    exact ⟨hw, hs, htarget, by simp [htarget, hbranch, hstaff]⟩
  · rename_i staff hbranch hstaff
    obtain ⟨hw, hs, htarget⟩ := hassert (fun _ => by rw [hbranch, hstaff]) h
    exact ⟨hw, hs, htarget, by simp [htarget, hbranch, hstaff]⟩
  · simp [play] at h

/-- The row holds the entry for the target. -/
structure Holds (target : Option Id × Option Id) (entry : WorkingHourEntryDto) (r : WorkingHours) : Prop where
  branch : r.branchId = target.1
  staff : r.staffMemberId = target.2
  day : r.dayOfWeek = entry.dayOfWeek
  startTime : r.startTime = entry.startTime
  endTime : r.endTime = entry.endTime

/-- The entries are added in order. -/
theorem putAll_hours {target : Option Id × Option Id} {hours : List WorkingHourEntryDto} {n : ℕ}
    (h : putAll g n (hours.map fun h id => ({
      id, branchId := target.1, staffMemberId := target.2, dayOfWeek := h.dayOfWeek
      startTime := h.startTime, endTime := h.endTime } : WorkingHours)) s = .ok s') : ∃ t new,
      s' = { s with workingHours := t } ∧ t.rows = s.workingHours.rows ++ new ∧
        List.Forall₂ (Holds target) hours new := by
  induction hours generalizing n s with
  | nil =>
    obtain rfl := by simpa [putAll] using h
    exact ⟨s.workingHours, [], rfl, by simp, .nil⟩
  | cons entry rest ih =>
    rw [List.map_cons, putAll] at h
    let row : WorkingHours := {
      id := g.newId n, branchId := target.1, staffMemberId := target.2, dayOfWeek := entry.dayOfWeek
      startTime := entry.startTime, endTime := entry.endTime }
    cases hput : put row s with
    | error e => simp [row, hput, Except.bind] at h
    | ok s₁ =>
      simp only [row, hput, Except.bind] at h
      obtain ⟨-, t₁, hinsert, rfl⟩ := put_ok hput
      obtain ⟨t, new, rfl, hrows, hnew⟩ := ih h
      have hrows₁ : t₁.rows = s.workingHours.rows ++ [row] := Table.insert_rows hinsert
      refine ⟨t, row :: new, rfl, ?_, .cons ⟨rfl, rfl, rfl, rfl, rfl⟩ hnew⟩
      rw [hrows]
      change t₁.rows ++ new = _
      rw [hrows₁, List.append_assoc]
      rfl

/-- Hours that are accepted replace those of the target. -/
theorem setWorkingHours_played {businessId : Id} {dto : SetWorkingHoursDto} {rows : List WorkingHours}
    (h : (WorkingHoursService.setWorkingHours businessId dto).play world k none s = (.ok rows, k', w, s')) :
    dto.target.1.isSome ≠ dto.target.2.isSome ∧ ∃ t new, s' = { s with workingHours := t } ∧
      t.rows = s.workingHours.rows.filter (fun r => !WorkingHoursService.ofTarget dto.target r.branchId r.staffMemberId) ++
        new ∧ List.Forall₂ (Holds dto.target) dto.hours new := by
  unfold WorkingHoursService.setWorkingHours at h
  obtain ⟨target, k₁, v₁, s₁, hresolve, h⟩ := of_play_bind h
  obtain ⟨rfl, rfl, rfl, hone⟩ := resolveTarget_played hresolve
  rw [play_ensure_bind] at h
  split at h
  swap
  · simp at h
  obtain ⟨k₂, v₂, s₂, hbody, -, rfl⟩ := of_play_transaction h
  obtain ⟨_, v₃, hdelete, hbody⟩ := of_play_tx hbody
  obtain ⟨_, v₄, hcreate, hbody⟩ := of_play_tx hbody
  obtain ⟨-, rfl⟩ : _ ∧ _ = v₃ := by simpa [deleteMany] using hdelete
  obtain ⟨t, new, rfl, hrows, hnew⟩ := putAll_hours (createMany_ok hcreate)
  obtain ⟨rfl, rfl⟩ : v₂ = some _ ∧ s₂ = _ := by
    rw [query, play_op_tx] at hbody
    cases hdown : (world (k₁ + 1 + 1 + 1)).down with
    | true => simp [attempt, hdown] at hbody
    | false =>
      obtain ⟨-, -, hv, hs⟩ := by simpa [attempt, hdown] using hbody
      exact ⟨hv.symm, hs.symm⟩
  exact ⟨hone, t, new, rfl, hrows, hnew⟩

end stored

/-! ### What is found -/

def WorkingHourEntryDto.window (entry : WorkingHourEntryDto) : Window := ⟨entry.startTime, entry.endTime⟩

/-- The entries of a weekday. -/
def entriesOf (hours : List WorkingHourEntryDto) (dayOfWeek : ℤ) : List WorkingHourEntryDto :=
  hours.filter fun entry => entry.dayOfWeek == dayOfWeek

/-- The target of the hours is the branch, and the staff member has no hours of their own; or the target is the
staff member. -/
def SetWorkingHoursDto.Governs (dto : SetWorkingHoursDto) (s : Store) (branchId : Id) (staffId : Option Id) : Prop :=
  (dto.target.1 = some branchId ∧ ∀ staff, truthyId staffId = some staff →
    ∀ r ∈ s.workingHours.rows, r.staffMemberId ≠ some staff) ∨
  ∃ staff, dto.target.2 = some staff ∧ staffId = some staff

section found
variable {g : Env} {s s' : Store} {target : Option Id × Option Id} {hours : List WorkingHourEntryDto}
  {new : List WorkingHours} {dayOfWeek : ℤ}

theorem holds_target (h : List.Forall₂ (Holds target) hours new) :
    ∀ r ∈ new, r.branchId = target.1 ∧ r.staffMemberId = target.2 := by
  induction h with
  | nil => simp
  | cons hr _ ih => exact List.forall_mem_cons.mpr ⟨⟨hr.branch, hr.staff⟩, ih⟩

theorem holds_windows (h : List.Forall₂ (Holds target) hours new) :
    (new.filter fun r => r.dayOfWeek == dayOfWeek).map (fun r => (⟨r.startTime, r.endTime⟩ : Window)) =
      (entriesOf hours dayOfWeek).map WorkingHourEntryDto.window := by
  induction h with
  | nil => rfl
  | @cons entry r _ _ hr _ ih =>
    unfold entriesOf at ih ⊢
    rw [List.filter_cons, List.filter_cons, hr.day]
    by_cases hday : entry.dayOfWeek = dayOfWeek
    · simp only [hday, beq_self_eq_true, if_true, List.map_cons, ih, hr.startTime, hr.endTime]
      rfl
    · simp only [beq_false_of_ne hday, Bool.false_eq_true, if_false, ih]

/-- Among the rows of the target an unordered query finds one of the entries of the weekday, and it may be any
of them. -/
theorem findFirst_hours {p : WorkingHours → Bool} (hp : ∀ r, p r = WorkingHoursService.ofTarget target r.branchId r.staffMemberId)
    (hrows : s'.workingHours.rows = s.workingHours.rows.filter (fun r =>
      !WorkingHoursService.ofTarget target r.branchId r.staffMemberId) ++ new)
    (hnew : List.Forall₂ (Holds target) hours new) :
    (findFirst (fun r : WorkingHours => p r && r.dayOfWeek == dayOfWeek) g s').map
        (fun r => (⟨r.startTime, r.endTime⟩ : Window)) =
      ((entriesOf hours dayOfWeek).map WorkingHourEntryDto.window)[g.pick % (entriesOf hours dayOfWeek).length]? := by
  have hmine : ∀ r ∈ new, p r = true := by
    intro r hr
    obtain ⟨hbranch, hstaff⟩ := holds_target hnew r hr
    simp [hp, hbranch, hstaff, WorkingHoursService.ofTarget]
  have hfound : s'.workingHours.rows.filter (fun r => p r && r.dayOfWeek == dayOfWeek) =
      new.filter fun r => r.dayOfWeek == dayOfWeek := by
    rw [hrows, List.filter_append, List.filter_filter]
    have hothers : s.workingHours.rows.filter (fun r => (p r && r.dayOfWeek == dayOfWeek) &&
        !WorkingHoursService.ofTarget target r.branchId r.staffMemberId) = [] := by
      refine List.filter_eq_nil_iff.mpr fun r _ => ?_
      rw [hp]
      cases WorkingHoursService.ofTarget target r.branchId r.staffMemberId <;> simp
    rw [hothers, List.nil_append]
    exact List.filter_congr fun r hr => by rw [hmine r hr, Bool.true_and]
  have hlength : (entriesOf hours dayOfWeek).length = (new.filter fun r => r.dayOfWeek == dayOfWeek).length := by
    have := congrArg List.length (@holds_windows target hours new dayOfWeek hnew)
    simpa using this.symm
  unfold findFirst
  dsimp only
  rw [show (Model.get s').rows.filter (fun r : WorkingHours => p r && r.dayOfWeek == dayOfWeek) = _ from hfound,
    ← holds_windows hnew, List.getElem?_map, hlength]

/-- The window of a weekday is that of one of its entries. -/
theorem windowOf_governed {dto : SetWorkingHoursDto} {branchId : Id} {staffId : Option Id}
    (hrows : s'.workingHours.rows = s.workingHours.rows.filter (fun r =>
      !WorkingHoursService.ofTarget dto.target r.branchId r.staffMemberId) ++ new)
    (hone : dto.target.1.isSome ≠ dto.target.2.isSome) (hnew : List.Forall₂ (Holds dto.target) dto.hours new)
    (hgoverns : dto.Governs s' branchId staffId) (hsome : dto.hours ≠ []) :
    windowOf g s' branchId staffId dayOfWeek = ((entriesOf dto.hours dayOfWeek).map
      WorkingHourEntryDto.window)[g.pick % (entriesOf dto.hours dayOfWeek).length]? := by
  unfold windowOf
  rcases hgoverns with ⟨hbranch, hnone⟩ | ⟨staff, hstaff, rfl⟩
  · have hown : ((truthyId staffId).bind fun staff =>
        findFirst (fun r : WorkingHours => r.staffMemberId == some staff) g s') = none := by
      refine Option.bind_eq_none_iff.mpr fun staff hstaff => ?_
      cases hfound : findFirst (fun r : WorkingHours => r.staffMemberId == some staff) g s' with
      | none => rfl
      | some r =>
        obtain ⟨hr, hp⟩ := findFirst_some hfound
        exact absurd (beq_iff_eq.mp hp) (hnone staff hstaff r hr)
    dsimp only
    rw [hown, if_neg (by simp)]
    refine findFirst_hours (fun r => ?_) hrows hnew
    simp [WorkingHoursService.ofTarget, hbranch]
  · have htarget : dto.target.1 = none := by simpa [hstaff] using hone
    have htruthy : truthyId (some staff) = some staff := by
      have hne := (truthyId_eq_some.mp hstaff).2
      exact truthyId_eq_some.mpr ⟨rfl, hne⟩
    have hown : ((truthyId (some staff)).bind fun staff =>
        findFirst (fun r : WorkingHours => r.staffMemberId == some staff) g s').isSome = true := by
      rw [htruthy, Option.bind_some]
      obtain ⟨r, hr⟩ : ∃ r, r ∈ new := by
        refine List.exists_mem_of_ne_nil _ fun hnil => hsome ?_
        rw [hnil] at hnew
        exact List.forall₂_nil_right_iff.mp hnew
      refine findFirst_isSome.mpr ⟨r, ?_, beq_iff_eq.mpr ((holds_target hnew r hr).2.trans hstaff)⟩
      change r ∈ s'.workingHours.rows
      rw [hrows]
      exact List.mem_append_right _ hr
    dsimp only
    rw [if_pos hown]
    refine findFirst_hours (fun r => ?_) hrows hnew
    simp [WorkingHoursService.ofTarget, htarget, hstaff]

end found

/-! ### What is offered -/

/-- Every slot of the second window is a slot of the first. -/
def Window.Covers (duration : Time) (f e : Window) : Prop :=
  e.startTime.ms + duration ≤ e.endTime.ms → f.startTime.ms ≤ e.startTime.ms ∧
    duration ∣ e.startTime.ms - f.startTime.ms ∧
      e.startTime.ms + (e.endTime.ms - e.startTime.ms) / duration * duration ≤ f.endTime.ms

instance {duration : Time} {f e : Window} : Decidable (f.Covers duration e) := inferInstanceAs (Decidable (_ → _))

theorem covers_iff {duration : Time} {date : ℤ} {f e : Window} (hd : 0 < duration) : f.Covers duration e ↔
    ∀ k : ℕ, e.startTime.ms + (k + 1) * duration ≤ e.endTime.ms →
      OnGrid date f duration (dayStart date + e.startTime.ms + k * duration) := by
  constructor
  · intro h k hfits
    have hk : 0 ≤ (k : ℤ) * duration := Int.mul_nonneg (Int.natCast_nonneg k) (Int.le_of_lt hd)
    obtain ⟨hstart, ⟨q, hq⟩, hend⟩ := h (by linarith)
    have hqpos : 0 ≤ q := by
      by_contra hneg
      have : duration * q < 0 := Int.mul_neg_of_pos_of_neg hd (by omega)
      linarith
    have hlast : ((k : ℤ) + 1) * duration ≤ (e.endTime.ms - e.startTime.ms) / duration * duration := by
      refine Int.mul_le_mul_of_nonneg_right ?_ (Int.le_of_lt hd)
      exact Int.le_ediv_of_mul_le hd (by linarith)
    refine ⟨q.toNat + k, ?_, by linarith⟩
    push_cast
    rw [Int.toNat_of_nonneg hqpos]
    linarith
  · intro h hfits
    obtain ⟨j, hj, -⟩ := h 0 (by simpa using hfits)
    have hjpos : 0 ≤ (j : ℤ) * duration := Int.mul_nonneg (Int.natCast_nonneg j) (Int.le_of_lt hd)
    refine ⟨by push_cast at hj; linarith, ⟨j, by push_cast at hj; linarith⟩, ?_⟩
    have hone : 1 ≤ (e.endTime.ms - e.startTime.ms) / duration := Int.le_ediv_of_mul_le hd (by linarith)
    have hlast := Int.ediv_mul_le (e.endTime.ms - e.startTime.ms) (ne_of_gt hd)
    obtain ⟨n, hn⟩ := Int.eq_ofNat_of_zero_le (sub_nonneg.mpr hone)
    rw [eq_add_of_sub_eq hn] at hlast ⊢
    obtain ⟨-, -, hend⟩ := h n (by linarith)
    linarith

/-- Every slot of every entry of the weekday is offered on that date, whichever of the rows that match the
database returns. -/
def Honoured (s : Store) (businessId : Id) (service : Service) (query : CheckAvailabilityDto)
    (hours : List WorkingHourEntryDto) (staffId : Option Id) : Prop :=
  ∀ entry ∈ entriesOf hours (getUTCDay query.date), ∀ k : ℕ,
    entry.startTime.ms + (k + 1) * service.durationMinutes.ms ≤ entry.endTime.ms →
      ∀ g : Env, g.down = false → g.now < dayStart query.date → ∃ slots,
        (getFreeSlots businessId query).eval g none s = (.ok slots, none, s) ∧
          Listed slots (dayStart query.date + entry.startTime.ms + k * service.durationMinutes.ms) staffId

section honoured
variable {world : ℕ → Env} {k k' : ℕ} {w : Option Store} {s s' : Store} {businessId branchId : Id} {service : Service}
  {dto : SetWorkingHoursDto} {query : CheckAvailabilityDto} {rows : List WorkingHours} {staffId : Option Id}

theorem HHmm.ms_nonneg (t : HHmm) : 0 ≤ t.ms := by
  have hhours : (0 : ℤ) ≤ t.hours * hour := Int.mul_nonneg (Int.natCast_nonneg _) (by decide)
  have hminutes : (0 : ℤ) ≤ t.minutes * minute := Int.mul_nonneg (Int.natCast_nonneg _) (by decide)
  exact Int.add_nonneg hhours hminutes

/-- On a free day to come the slots are those of the window that is found. -/
theorem listed_of_free {g : Env} {t : Time} (hup : g.down = false) (hnow : g.now < t)
    (hquery : Answerable s businessId branchId service query) (hstaff : staffId ∈ candidates s query)
    (hopen : ¬ OnHoliday s branchId staffId query.date)
    (hfree : ∀ b ∈ s.booking.rows, b.staffMemberId = staffId → b.branchId = branchId →
      ¬ (dayStart query.date ≤ b.startTime ∧ b.startTime < dayEnd query.date)) :
    (∃ slots, (getFreeSlots businessId query).eval g none s = (.ok slots, none, s) ∧ Listed slots t staffId) ↔
      ∃ window, windowOf g s branchId staffId (getUTCDay query.date) = some window ∧
        OnGrid query.date window service.durationMinutes.ms t := by
  obtain ⟨slots, heval, -, hlisted⟩ := eval_getFreeSlots hup hquery
  have hfreeDay : FreeThatDay s branchId service.durationMinutes.ms query.date staffId t :=
    fun b hb hmember hbranch _ hstart hend => absurd ⟨hstart, hend⟩ (hfree b hb hmember hbranch)
  have hoffers : Listed slots t staffId ↔ ∃ window, windowOf g s branchId staffId (getUTCDay query.date) = some window ∧
      OnGrid query.date window service.durationMinutes.ms t := by
    rw [hlisted]
    constructor
    · exact fun h => h.2.1.1
    · exact fun h => ⟨hstaff, ⟨h, hopen, hnow⟩, hfreeDay⟩
  rw [← hoffers]
  constructor
  · rintro ⟨slots', heval', hl⟩
    obtain rfl : slots = slots' := by simpa using heval.symm.trans heval'
    exact hl
  · exact fun hl => ⟨slots, heval, hl⟩

/-- Working hours that have been accepted are honoured on a free day to come exactly when any two entries of
its weekday cover each other. -/
theorem setWorkingHours_honoured
    (haccepted : (WorkingHoursService.setWorkingHours businessId dto).play world k none s = (.ok rows, k', w, s'))
    (hgoverns : dto.Governs s' branchId staffId) (hquery : Answerable s' businessId branchId service query)
    (hstaff : staffId ∈ candidates s' query) (hopen : ¬ OnHoliday s' branchId staffId query.date)
    (hfree : ∀ b ∈ s'.booking.rows, b.staffMemberId = staffId → b.branchId = branchId →
      ¬ (dayStart query.date ≤ b.startTime ∧ b.startTime < dayEnd query.date)) :
    Honoured s' businessId service query dto.hours staffId ↔
      ∀ e ∈ entriesOf dto.hours (getUTCDay query.date), ∀ f ∈ entriesOf dto.hours (getUTCDay query.date),
        f.window.Covers service.durationMinutes.ms e.window := by
  obtain ⟨hone, t, new, rfl, hrows, hnew⟩ := setWorkingHours_played haccepted
  have hd := service.durationMinutes.ms_pos
  have hsome {e : WorkingHourEntryDto} (he : e ∈ entriesOf dto.hours (getUTCDay query.date)) : dto.hours ≠ [] :=
    List.ne_nil_of_mem (List.mem_filter.mp he).1
  -- A slot of an entry is listed when it is a slot of the entry that is found.
  have hslot {e : WorkingHourEntryDto} (he : e ∈ entriesOf dto.hours (getUTCDay query.date)) (g : Env) (n : ℕ)
      (hup : g.down = false) (hnow : g.now < dayStart query.date) :
      (∃ slots, (getFreeSlots businessId query).eval g none { s with workingHours := t } =
          (.ok slots, none, { s with workingHours := t }) ∧
        Listed slots (dayStart query.date + e.startTime.ms + n * service.durationMinutes.ms) staffId) ↔
      ∃ f, (entriesOf dto.hours (getUTCDay query.date))[g.pick %
          (entriesOf dto.hours (getUTCDay query.date)).length]? = some f ∧
        OnGrid query.date f.window service.durationMinutes.ms
          (dayStart query.date + e.startTime.ms + n * service.durationMinutes.ms) := by
    have hlater : g.now < dayStart query.date + e.startTime.ms + n * service.durationMinutes.ms := by
      have hstart := e.startTime.ms_nonneg
      have hn : 0 ≤ (n : ℤ) * service.durationMinutes.ms :=
        Int.mul_nonneg (Int.natCast_nonneg n) (Int.le_of_lt hd)
      linarith
    rw [listed_of_free hup hlater hquery hstaff hopen hfree,
      windowOf_governed hrows hone hnew hgoverns (hsome he), List.getElem?_map]
    simp
  constructor
  · intro hhonoured e he f hf
    obtain ⟨i, hi, hfound⟩ := List.getElem_of_mem hf
    refine (@covers_iff _ query.date _ _ hd).mpr fun n hfits => ?_
    obtain ⟨f', hf', hgrid⟩ := (hslot he { now := dayStart query.date - 1, uuid := id, pick := i } n rfl
      (by simp)).mp (hhonoured e he n hfits _ rfl (by simp))
    rw [Nat.mod_eq_of_lt hi, List.getElem?_eq_getElem hi, hfound] at hf'
    obtain rfl := Option.some.inj hf'
    exact hgrid
  · intro hcovers e he n hfits g hup hnow
    refine (hslot he g n hup hnow).mpr ?_
    have hlt := Nat.mod_lt g.pick (List.length_pos_of_mem he)
    exact ⟨_, List.getElem?_eq_getElem hlt, (covers_iff hd).mp (hcovers e he _ (List.getElem_mem hlt)) n hfits⟩

end honoured

/-- Thursdays from nine to twelve, and from two to five. -/
def splitShift : SetWorkingHoursDto where
  branchId := some 1
  hours := [⟨4, ⟨9, 0⟩, ⟨12, 0⟩⟩, ⟨4, ⟨14, 0⟩, ⟨17, 0⟩⟩]

/-- Thursdays from nine to twelve and from nine to ten past twelve, and Friday afternoons. -/
def mornings : SetWorkingHoursDto where
  branchId := some 1
  hours := [⟨4, ⟨9, 0⟩, ⟨12, 0⟩⟩, ⟨4, ⟨9, 0⟩, ⟨12, 10⟩⟩, ⟨5, ⟨14, 0⟩, ⟨17, 0⟩⟩]

/-- Who asks for the first Thursday of the epoch. -/
def thursdayVisit : CheckAvailabilityDto where
  serviceId := 1
  branchId := some 1
  date := 0

/-- What a branch has after its hours have been set. -/
def withHours (dto : SetWorkingHoursDto) : Store :=
  ((WorkingHoursService.setWorkingHours 1 dto).play Env.after 0 none nineToFive).2.2.2

/-- The branch has no holiday and no booking, and its service is done by nobody in particular. -/
theorem withHours_free {dto : SetWorkingHoursDto} (hrest : withHours dto =
    { nineToFive with workingHours := (withHours dto).workingHours }) : ∃ service ∈ nineToFive.service.rows,
      Answerable (withHours dto) 1 1 service thursdayVisit ∧ none ∈ candidates (withHours dto) thursdayVisit ∧
      ¬ OnHoliday (withHours dto) 1 none 0 ∧ ∀ b ∈ (withHours dto).booking.rows, b.staffMemberId = none →
        b.branchId = 1 → ¬ (dayStart 0 ≤ b.startTime ∧ b.startTime < dayEnd 0) := by
  rw [hrest]
  refine ⟨_, List.mem_singleton.mpr rfl, ⟨⟨List.mem_singleton.mpr rfl, rfl, rfl, rfl⟩, ⟨rfl, by decide⟩,
    ⟨_, List.mem_singleton.mpr rfl, rfl, rfl⟩, by simp [truthyId, thursdayVisit]⟩, ?_, ?_,
    fun b hb => absurd hb List.not_mem_nil⟩
  · exact List.mem_singleton.mpr rfl
  · rintro ⟨r, hr, -⟩
    exact absurd hr List.not_mem_nil

theorem withHours_governed (dto : SetWorkingHoursDto) (hbranch : dto.branchId = some 1) :
    dto.Governs (withHours dto) 1 none :=
  .inl ⟨by simp [SetWorkingHoursDto.target, hbranch, truthyId], by simp [truthyId]⟩

/-- For half hours it makes no difference which of the two mornings is found. -/
theorem setWorkingHours_honoured_mornings : ∃ service ∈ nineToFive.service.rows,
    Honoured (withHours mornings) 1 service thursdayVisit mornings.hours none := by
  obtain ⟨service, hservice, hanswer, hstaff, hopen, hfree⟩ := @withHours_free mornings rfl
  have haccepted : ∃ rows k w, (WorkingHoursService.setWorkingHours 1 mornings).play Env.after 0 none nineToFive =
      (.ok rows, k, w, withHours mornings) := ⟨_, _, _, rfl⟩
  obtain ⟨rows, k, w, haccepted⟩ := haccepted
  have hhalf : service.durationMinutes.ms = 30 * minute := by
    rw [List.mem_singleton.mp hservice]
    rfl
  refine ⟨service, hservice, (setWorkingHours_honoured haccepted (withHours_governed _ rfl) hanswer hstaff hopen
    hfree).mpr ?_⟩
  rw [hhalf]
  decide

/-- The afternoon is accepted with the morning, but only one of the two is offered. -/
theorem split_shift : ¬ ∀ world k s businessId dto rows k' w s' branchId service query staffId,
    (WorkingHoursService.setWorkingHours businessId dto).play world k none s = (.ok rows, k', w, s') →
    dto.Governs s' branchId staffId → Answerable s' businessId branchId service query →
    staffId ∈ candidates s' query → ¬ OnHoliday s' branchId staffId query.date →
    (∀ b ∈ s'.booking.rows, b.staffMemberId = staffId → b.branchId = branchId →
      ¬ (dayStart query.date ≤ b.startTime ∧ b.startTime < dayEnd query.date)) →
    Honoured s' businessId service query dto.hours staffId := by
  intro h
  obtain ⟨service, hservice, hanswer, hstaff, hopen, hfree⟩ := @withHours_free splitShift rfl
  have haccepted : ∃ rows k w, (WorkingHoursService.setWorkingHours 1 splitShift).play Env.after 0 none nineToFive =
      (.ok rows, k, w, withHours splitShift) := ⟨_, _, _, rfl⟩
  obtain ⟨rows, k, w, haccepted⟩ := haccepted
  have hhalf : service.durationMinutes.ms = 30 * minute := by
    rw [List.mem_singleton.mp hservice]
    rfl
  have hhonoured := h _ _ _ _ _ _ _ _ _ _ service thursdayVisit none haccepted (withHours_governed _ rfl) hanswer
    hstaff hopen hfree ⟨4, ⟨14, 0⟩, ⟨17, 0⟩⟩ (List.mem_cons_of_mem _ (List.mem_singleton.mpr rfl)) 0 (by rw [hhalf]; decide) { now := -1, uuid := id } rfl
    (by decide)
  obtain ⟨window, hwindow, j, -, hend⟩ := (listed_of_free rfl (by rw [hhalf]; decide) hanswer hstaff hopen
    hfree).mp hhonoured
  obtain rfl : (⟨⟨9, 0⟩, ⟨12, 0⟩⟩ : Window) = window := Option.some.inj hwindow
  rw [hhalf] at hend
  revert hend
  decide

end BookingPlatform
