import BookingPlatform.DoubleBooking
import BookingPlatform.Links
import BookingPlatform.Moving
import BookingPlatform.Async.Lease

/-! What the lock of `hold` and `reschedule` is good for: in a lane no two active bookings have the same start. -/
namespace BookingPlatform
open Async Data Prog

/-- The lock under which a booking is put where it is. -/
def Booking.lockKey (b : Booking) : LockKey := ⟨b.branchId, b.staffMemberId, b.startTime⟩

/-- Which booking it is, and where. -/
def Booking.place (b : Booking) : Id × LockKey × Time := (b.id, b.lockKey, b.endTime)

def Booking.lane (b : Booking) : Id × Id × Option Id := (b.id, b.branchId, b.staffMemberId)

/-- At every start of a lane there is one active booking at most, and it ends after it starts. -/
structure Singly (t : Table Booking) : Prop where
  single : ∀ b ∈ t.rows, ∀ b' ∈ t.rows, b.active = true → b'.active = true → b.lockKey = b'.lockKey → b = b'
  positive : ∀ b ∈ t.rows, b.active = true → b.startTime < b.endTime

/-- No booking has become active at this start. -/
def NoneNew (key : LockKey) (t t' : Table Booking) : Prop :=
  ∀ b' ∈ t'.rows, b'.active = true → b'.lockKey = key → ∃ b ∈ t.rows, b.active = true ∧ b.place = b'.place

/-- Nothing is active at this start but `ex`. -/
def StartFree (key : LockKey) (ex : Option Id) (t : Table Booking) : Prop :=
  ∀ b ∈ t.rows, b.active = true → b.lockKey = key → ex = some b.id

/-- What is active was so where it is, or is the booking `id` that is put at this start. -/
def PutAt (key : LockKey) (id : Id) (t t' : Table Booking) : Prop :=
  ∀ b' ∈ t'.rows, b'.active = true → (∃ b ∈ t.rows, b.active = true ∧ b.place = b'.place) ∨
    (b'.lockKey = key ∧ b'.id = id ∧ b'.startTime < b'.endTime)

section tables
variable {t t' t'' : Table Booking} {key key' : LockKey} {id : Id} {ex : Option Id} {b : Booking}

theorem NoneNew.refl (key : LockKey) (t : Table Booking) : NoneNew key t t := fun b hb hactive _ => ⟨b, hb, hactive, rfl⟩

theorem NoneNew.trans (h : NoneNew key t t') (h' : NoneNew key t' t'') : NoneNew key t t'' := by
  intro b'' hb'' hactive hkey
  obtain ⟨b', hb', hactive', hplace'⟩ := h' b'' hb'' hactive hkey
  have hkey' : b'.lockKey = b''.lockKey := congrArg (fun x => x.2.1) hplace'
  obtain ⟨b, hb, hactive, hplace⟩ := h b' hb' hactive' (hkey'.trans hkey)
  exact ⟨b, hb, hactive, hplace.trans hplace'⟩

theorem StartFree.mono (h : StartFree key ex t) (hnew : NoneNew key t t') : StartFree key ex t' := by
  intro b' hb' hactive hkey
  obtain ⟨b, hb, hactive, hplace⟩ := hnew b' hb' hactive hkey
  have hid : b.id = b'.id := congrArg Prod.fst hplace
  have hsame : b.lockKey = b'.lockKey := congrArg (fun x => x.2.1) hplace
  rw [← hid]
  exact h b hb hactive (hsame.trans hkey)

/-- Whoever starts in an interval is in its way. -/
theorem SlotFree.startFree {branchId : Id} {staffMemberId : Option Id} {start stop : Time} (ht : Singly t)
    (hlength : start < stop) (h : SlotFree t branchId staffMemberId start stop ex) :
    StartFree ⟨branchId, staffMemberId, start⟩ ex t := by
  rintro b hb hactive ⟨⟩
  by_contra hex
  refine overlapping_eq_false.mp (h b hb) rfl rfl hactive ?_ hlength (ht.positive b hb hactive)
  rw [Option.all_eq_true]
  intro x hx
  obtain ⟨rfl, -⟩ := truthyId_eq_some.mp hx
  exact bne_iff_ne.mpr fun hid => hex (hid ▸ rfl)

theorem PutAt.noneNew (h : PutAt key id t t') (hkey : key' ≠ key) : NoneNew key' t t' := by
  rintro b' hb' hactive rfl
  rcases h b' hb' hactive with hold | ⟨hput, -⟩
  · exact hold
  · exact absurd hput hkey

/-- Two bookings that have stayed where they were are one if they start together. -/
theorem Singly.same {b' : Booking} (ht : Singly t) (hb : b ∈ t'.rows) (hb' : b' ∈ t'.rows)
    (hold : ∃ r ∈ t.rows, r.active = true ∧ r.place = b.place) (hold' : ∃ r ∈ t.rows, r.active = true ∧ r.place = b'.place)
    (hkey : b.lockKey = b'.lockKey) : b = b' := by
  obtain ⟨r, hr, hactive, hplace⟩ := hold
  obtain ⟨q, hq, hactive', hplace'⟩ := hold'
  obtain ⟨hrid, hrkey, -⟩ := by simpa [Booking.place] using hplace
  obtain ⟨hqid, hqkey, -⟩ := by simpa [Booking.place] using hplace'
  have hrq : r = q := ht.single r hr q hq hactive hactive' (hrkey.trans (hkey.trans hqkey.symm))
  exact Table.id_eq hb hb' (hrid.symm.trans (hrq ▸ hqid))

theorem Singly.lasts (ht : Singly t) (hold : ∃ r ∈ t.rows, r.active = true ∧ r.place = b.place) :
    b.startTime < b.endTime := by
  obtain ⟨r, hr, hactive, hplace⟩ := hold
  have hstart : r.startTime = b.startTime := congrArg (fun x => x.2.1.startTime) hplace
  have hend : r.endTime = b.endTime := congrArg (fun x => x.2.2) hplace
  rw [← hstart, ← hend]
  exact ht.positive r hr hactive

theorem Singly.of_noneNew (ht : Singly t) (h : ∀ key, NoneNew key t t') : Singly t' :=
  ⟨fun b hb b' hb' hactive hactive' => ht.same hb hb' (h _ b hb hactive rfl) (h _ b' hb' hactive' rfl),
    fun b hb hactive => ht.lasts (h _ b hb hactive rfl)⟩

/-- A start that was free of others is taken once. -/
theorem PutAt.singly (h : PutAt key id t t') (hfree : StartFree key ex t) (hex : ∀ x, ex = some x → x = id)
    (ht : Singly t) : Singly t' := by
  -- The booking that is put there, and whoever else is there.
  have hput {b b' : Booking} (hb : b ∈ t'.rows) (hid : b.id = id) (hb' : b' ∈ t'.rows) (hactive' : b'.active = true)
      (hkey' : b'.lockKey = key) : b = b' := by
    refine Table.id_eq hb hb' (hid.trans ?_)
    rcases h b' hb' hactive' with ⟨r, hr, hactive, hplace⟩ | ⟨-, hid', -⟩
    · obtain ⟨hrid, hrkey, -⟩ := by simpa [Booking.place] using hplace
      exact (hex _ (hfree r hr hactive (hrkey.trans hkey'))).symm.trans hrid
    · exact hid'.symm
  refine ⟨fun b hb b' hb' hactive hactive' hkey => ?_, fun b hb hactive => ?_⟩
  · rcases h b hb hactive with hold | ⟨hat, hid, -⟩
    · rcases h b' hb' hactive' with hold' | ⟨hat', hid', -⟩
      · exact ht.same hb hb' hold hold' hkey
      · exact (hput hb' hid' hb hactive (hkey.trans hat')).symm
    · exact hput hb hid hb' hactive' (hkey.symm.trans hat)
  · rcases h b hb hactive with hold | ⟨-, -, hpositive⟩
    · exact ht.lasts hold
    · exact hpositive

/-- A new booking. -/
theorem putAt_insert (h : t.insert b = some t') (hpositive : b.startTime < b.endTime) : PutAt b.lockKey b.id t t' := by
  intro b' hb' hactive
  rcases (Table.mem_insert h).mp hb' with hb' | rfl
  · exact .inl ⟨b', hb', hactive, rfl⟩
  · exact .inr ⟨rfl, rfl, hpositive⟩

/-- A booking that is moved in its lane. -/
theorem putAt_update {stop : Time} (hf : Table.Keeps fun r : Booking => { r with startTime := key.startTime, endTime := stop })
    (hlane : ∃ b ∈ t.rows, b.lane = (id, key.branchId, key.staffMemberId)) (hpositive : key.startTime < stop) :
    PutAt key id t (t.update (fun r => r.id == id) (fun r => { r with startTime := key.startTime, endTime := stop }) hf) := by
  intro b' hb' hactive
  obtain ⟨b, hb, rfl⟩ := (Table.mem_update hf).mp hb'
  obtain ⟨r, hr, hrlane⟩ := hlane
  by_cases hid : b.id = id
  · obtain rfl := Table.id_eq hb hr (hid.trans (congrArg Prod.fst hrlane).symm)
    obtain ⟨-, hbranch, hstaff⟩ := by simpa [Booking.lane] using hrlane
    exact .inr (by simp [hid, Booking.lockKey, hbranch, hstaff, hpositive])
  · rw [if_neg (by simpa using hid)] at hactive ⊢
    exact .inl ⟨b, hb, hactive, rfl⟩

end tables

/-! ### The contract -/

/-- The locks of the starts. -/
def startLeases : Leases Store LockKey Id where
  held key token s := ∃ l ∈ s.lock.rows, l.key = key ∧ l.token = token
  stays key s s' := NoneNew key s.booking s'.booking
  unique := by
    rintro key token token' s ⟨l, hl, hkey, rfl⟩ ⟨l', hl', hkey', rfl⟩
    rw [Table.eq_of_clash hl hl' (by simp [Indexed.clash, hkey, hkey'])]
  stays_refl key s := .refl key s.booking
  stays_trans h h' := h.trans h'

/-- What every step does to the bookings: they stay in their lanes, and one at a start. -/
structure Placed (s s' : Store) : Prop where
  lanes : Persist Booking.lane s.booking s'.booking
  singly : Singly s.booking → Singly s'.booking

theorem Placed.refl (s : Store) : Placed s s := ⟨.refl _, id⟩

theorem placed_trans (s s' s'' : Store) (h : Placed s s') (h' : Placed s' s'') : Placed s s'' :=
  ⟨h.lanes.trans h'.lanes, fun hs => h'.singly (h.singly hs)⟩

/-- A lock that was taken is still there, and a booking that is to be active has not been ended. -/
def Note.InForce (s : Store) : Note → Prop
  | .locked key token => ∃ l ∈ s.lock.rows, l.key = key ∧ l.token = token
  | .aims id next => activeStatuses.contains next = true → ∃ b ∈ s.booking.rows, b.id = id ∧ b.active = true
  | .paying id => ∃ b ∈ s.booking.rows, b.id = id ∧ b.active = true
  | _ => True

instance (s : Store) : (x : Note) → Decidable (x.InForce s)
  | .locked key token => inferInstanceAs (Decidable (∃ l ∈ s.lock.rows, l.key = key ∧ l.token = token))
  | .aims id next =>
    inferInstanceAs (Decidable (activeStatuses.contains next = true → ∃ b ∈ s.booking.rows, b.id = id ∧ b.active = true))
  | .paying id => inferInstanceAs (Decidable (∃ b ∈ s.booking.rows, b.id = id ∧ b.active = true))
  | .acts _ | .lane .. | .confirming .. | .slotFree .. | .due .. | .balance .. | .walletless _ | .unpayable _ | .opening _
  | .opened .. | .handling _ | .finalising .. | .enrolling _ | .releasing _ | .catalogue | .registering | .refunding _
  | .profile _ | .counted .. | .points .. | .referred _ | .auth _ => .isTrue trivial

/-- The contract of a request that draws these tokens, as long as what it has noted is in force when it commits. -/
abbrev leasing (mine : Id → Prop) : Contract Env Store Note :=
  startLeases.contract mine (fun g => g.newId 0) (fun ns s => ∀ x ∈ ns, x.InForce s) Placed Placed.refl placed_trans

section contracts
variable {α : Type} {mine : Id → Prop} {s s' s₀ s₁ : Store} {key : LockKey} {token : Id} {ns : List Note}
  {J : Table Booking → Prop}

/-- A step that leaves the bookings as they are. -/
theorem placed_of_same (h : s'.booking = s.booking) : Placed s s' ∧ ∀ key, startLeases.stays key s s' := by
  refine ⟨⟨?_, ?_⟩, fun key => ?_⟩
  · rw [h]
    exact .refl _
  · rw [h]
    exact id
  · change NoneNew key s.booking s'.booking
    rw [h]
    exact .refl key _

theorem acquire_ok {g : Env} {o : Option Id} (h : attempt (fun g s =>
      if s.lock.rows.any fun r => r.key == key && g.now < r.expiresAt then .ok (none, s)
      else
        match (s.lock.delete fun r => r.key == key).insert { key, token := g.newId 0, expiresAt := g.now + 10000 } with
        | some t => .ok (some (g.newId 0), { s with lock := t })
        | none => .ok (none, s)) g s = .ok (o, s')) :
    s' = s ∧ o = none ∨ o = some (g.newId 0) ∧ s'.booking = s.booking ∧
      ∀ l, l ∈ s'.lock.rows ↔ (l ∈ s.lock.rows ∧ l.key ≠ key) ∨ l = { key, token := g.newId 0, expiresAt := g.now + 10000 } := by
  have h := attempt_ok h
  split at h
  · obtain ⟨rfl, rfl⟩ := by simpa using h
    exact .inl ⟨rfl, rfl⟩
  · split at h
    · rename_i t ht
      obtain ⟨rfl, rfl⟩ := by simpa using h
      refine .inr ⟨rfl, rfl, fun l => ?_⟩
      rw [Table.mem_insert ht, Table.mem_delete, beq_eq_false_iff_ne]
    · obtain ⟨rfl, rfl⟩ := by simpa using h
      exact .inl ⟨rfl, rfl⟩

/-- The lock is taken with a token of mine, and given back with it. -/
theorem withLock_leasing {fn : Task α} (hJ : ∀ s s', Placed s s' → J s.booking → J s'.booking) (hs : J s.booking)
    (hfn : ∀ token s₁ s', mine token → J s'.booking →
      wp (leasing mine) anyway fn none (.locked key token :: ns) s₁ s') :
    wp (leasing mine) anyway (RedisLockService.withLock key fn) none ns s₀ s := by
  refine (wp_bind _ _).mpr (wp_op fun g s₁ hg hr => ⟨fun o s₂ h => ?_, fun _ _ => trivial⟩)
  have hs₁ := hJ s s₁ hr.2 hs
  rcases acquire_ok h with ⟨rfl, rfl⟩ | ⟨rfl, hbooking, hlocks⟩
  · exact ⟨(leasing mine).read _ _, trivial⟩
  have hplaced := placed_of_same hbooking
  refine ⟨⟨⟨fun k => .inl (hplaced.2 k), fun k t ht hheld => ?_, fun k t ht hheld => ?_⟩, hplaced.1⟩, ?_⟩
  · obtain ⟨l, hl, rfl, rfl⟩ := hheld
    rcases (hlocks l).mp hl with ⟨hold, -⟩ | rfl
    · exact ⟨l, hold, rfl, rfl⟩
    · exact absurd hg ht
  · obtain ⟨l, hl, rfl, rfl⟩ := hheld
    by_cases hkey : l.key = key
    · exact .inr ⟨g.newId 0, hg, _, (hlocks _).mpr (.inr rfl), hkey.symm, rfl⟩
    · exact .inl ⟨l, (hlocks l).mpr (.inl ⟨hl, hkey⟩), rfl, rfl⟩
  refine (wp_bind _ _).mpr ((wp_orThrow _ _).mpr ⟨?_, fun _ => trivial⟩)
  rintro _ ⟨⟩
  refine (wp_bind _ _).mpr ((wp_mark _).mpr ⟨trivial, (wp_andThen _ _).mpr (wp_mono (fun r w ns s₁ s' _ => ?_)
    (hfn _ _ _ hg (hJ _ _ hplaced.1 hs₁)))⟩)
  have hrelease : Within (fun s s' => startLeases.Spares mine s s' ∧ Placed s s') (fun _ => True) false
      (RedisLockService.release key (g.newId 0)) := by
    refine .op fun g' s s' _ h => ?_
    obtain rfl := by simpa using attempt_ok h
    have hplaced := @placed_of_same s { s with lock := s.lock.delete fun r => r.key == key && r.token == g.newId 0 } rfl
    refine ⟨⟨fun k => .inl (hplaced.2 k), fun k t _ hheld => ?_, fun k t ht hheld => ?_⟩, hplaced.1⟩
    · obtain ⟨l, hl, hkey⟩ := hheld
      exact ⟨l, (Table.mem_delete.mp hl).1, hkey⟩
    · obtain ⟨l, hl, rfl, rfl⟩ := hheld
      refine .inl ⟨l, Table.mem_delete.mpr ⟨hl, ?_⟩, rfl, rfl⟩
      rw [Bool.and_eq_false_iff, beq_eq_false_iff_ne, beq_eq_false_iff_ne]
      refine .inr fun hsame => ht ?_
      rw [hsame]
      exact hg
  exact (hrelease.andThen fun r => .onOk (fun _ => .done _) r).wp_any (fun _ _ _ h => h) fun _ _ _ _ _ => trivial

/-- The bookings and the locks are left alone. -/
def StartsAside (s s' : Store) : Prop := s'.booking = s.booking ∧ s'.lock = s.lock

/-- A start is looked at under its lock. -/
theorem assertSlotFree_leasing {Q : Post Store Err Note Unit} {w : Store → Except Err Store} {branchId : Id}
    {staffMemberId ex : Option Id} {start stop : Time} (hw : Pending StartsAside w) (hs : Singly s.booking)
    (hlength : start < stop)
    (hok : ∀ w' ns' s₁, (leasing mine).rely s s₁ → Pending StartsAside w' → ns ⊆ ns' →
      StartFree ⟨branchId, staffMemberId, start⟩ ex s₁.booking → Q (.ok ()) (some w') ns' s₁ s₁)
    (herr : ∀ e w ns s₀ s, Q (.error e) w ns s₀ s) :
    wp (leasing mine) Q (BookingService.assertSlotFree branchId staffMemberId start stop ex) (some w) ns s₀ s := by
  refine (wp_bind _ _).mpr (wp_query_tx hw (fun g s₁ v hr _ hv w₁ hw₁ _ => ?_) fun _ _ _ => herr _ _ _ _ _)
  refine (wp_bind _ _).mpr ((wp_ensure _ _).mpr ⟨fun hnone => ?_, fun _ => herr _ _ _ _ _⟩)
  refine (wp_mark _).mpr ⟨trivial, hok w₁ _ s₁ hr hw₁ (List.subset_cons_self _ _) ?_⟩
  have hfree : SlotFree s₁.booking branchId staffMemberId start stop ex := by
    rw [← hv.1]
    exact findFirst_none hnone
  exact hfree.startFree (hr.2.singly hs) hlength

/-- A booking that is put at a start that was found free, under the lock of this start. -/
theorem put_leasing {id : Id} {ex : Option Id} (ht : mine token) (hlocked : .locked key token ∈ ns)
    (hput : PutAt key id s.booking s'.booking) (hlock : s'.lock = s.lock)
    (hlanes : Persist Booking.lane s.booking s'.booking) (hex : ∀ x, ex = some x → x = id)
    (hfree : startLeases.held key token s → StartFree key ex s.booking) : (leasing mine).commit ns s s' := by
  intro hgranted
  have hheld : startLeases.held key token s := hgranted _ hlocked
  refine ⟨.of_same (fun k t => ?_) fun k => ?_, hlanes, hput.singly (hfree hheld) hex⟩
  · change (∃ l ∈ s'.lock.rows, _) ↔ _
    rw [hlock]
    exact Iff.rfl
  · by_cases hk : k = key
    · subst hk
      exact .inr ⟨token, ht, hheld⟩
    · exact .inl (hput.noneNew hk)

/-- Whatever others do, a start stays free while its lock is mine. -/
theorem StartFree.under {ex : Option Id} (ht : mine token) (hr : (leasing mine).rely s s')
    (h : startLeases.held key token s → StartFree key ex s.booking) :
    startLeases.held key token s' → StartFree key ex s'.booking :=
  hr.1.under (L := startLeases) (k := key) (P := fun s => StartFree key ex s.booking) ht
    (fun _ _ hnew hfree => hfree.mono hnew) h

theorem bookSlot_leasing (userId : Id) (dto : HoldBookingDto) (business : Business) (service : Service) (ht : mine token)
    (hs : Singly s.booking) (hlocked : .locked ⟨dto.branchId, dto.staffMemberId, dto.startTime⟩ token ∈ ns) :
    wp (leasing mine) anyway (bookSlot userId dto business service) none ns s₀ s := by
  have hlength : dto.startTime < dto.startTime + service.durationMinutes.ms :=
    Int.lt_add_of_pos_right _ service.durationMinutes.ms_pos
  unfold bookSlot
  apply wp_transaction
  swap
  · intro e s₁
    trivial
  intro s₁ h₁
  have hbegin : Pending StartsAside (Except.ok : Store → Except Err Store) := by
    rintro s v ⟨⟩
    exact ⟨rfl, rfl⟩
  refine (wp_bind _ _).mpr (assertSlotFree_leasing hbegin
    (h₁.2.singly hs) hlength (fun w₁ ns₁ s₂ _ hw₁ hns₁ hfree => ?_) fun _ _ _ _ _ => trivial)
  have hredeem : Within StartsAside (fun _ => True) false (BookingService.redeemFor userId dto service) :=
    redeemFor_within (fun _ => ⟨rfl, rfl⟩) (fun _ _ => trivial) (fun _ _ => ⟨rfl, rfl⟩) (fun _ _ => ⟨rfl, rfl⟩) _ _ _
  refine (wp_bind _ _).mpr (hredeem.wp_tx hw₁ (fun s v v' hv hv' => ⟨hv'.1.trans hv.1, hv'.2.trans hv.2⟩)
    (fun _ _ _ _ _ => trivial) fun r w₂ ns₂ s₂' s₃ h₃ hw₂ hns₂ => ?_)
  cases r with
  | error e => trivial
  | ok result =>
    refine (wp_bind _ _).mpr (wp_look_tx hw₂ (fun g s₄ h₄ w₃ hw₃ => ?_) fun _ _ _ => trivial)
    refine (wp_bind _ _).mpr (wp_tx hw₃ (fun g s₅ v b v' h₅ _ _ hb w₄ hw₄ _ => ?_) fun _ _ _ => trivial)
    have hlink : Within StartsAside (fun _ => True) false (BookingService.linkUsage userId b.id result.2) :=
      linkUsage_within (fun _ _ => ⟨rfl, rfl⟩) _ _ _
    have hrow := (create_ok hb).1
    -- What is pending from here on is this row, in whatever store it is put.
    have hbooked : Pending (fun s v => v.lock = s.lock ∧ s.booking.insert b = some v.booking) w₄ := by
      refine hw₄.mono fun s v' ⟨v, b', hv, hb'⟩ => ?_
      obtain ⟨rfl, hput⟩ := create_ok hb'
      obtain ⟨-, t, hinsert, rfl⟩ := put_ok hput
      rw [← hrow] at hinsert
      exact ⟨hv.2, hv.1 ▸ hinsert⟩
    refine (wp_bind _ _).mpr (hlink.wp_tx hbooked (fun s v v' hv hv' => ⟨hv'.2.trans hv.1, hv'.1 ▸ hv.2⟩)
      (fun _ _ _ _ _ => trivial) fun r w₅ ns₃ s₅' s₆ h₆ hw₅ hns₃ => ?_)
    cases r with
    | error e => trivial
    | ok _ =>
      intro g s₇ s₈ _ h₇ hs₈
      obtain ⟨hlock, hinsert⟩ := hw₅ s₇ s₈ hs₈
      have hlater : (leasing mine).rely s₂ s₇ :=
        (leasing mine).rely_trans h₃ ((leasing mine).rely_trans h₄ ((leasing mine).rely_trans h₅
          ((leasing mine).rely_trans h₆ h₇)))
      have hput := putAt_insert hinsert (by rw [hrow]; exact hlength)
      rw [hrow] at hput
      exact ⟨put_leasing ht (hns₃ (hns₂ (hns₁ hlocked))) hput hlock (.insert hinsert) (by rintro x ⟨⟩)
        (StartFree.under ht hlater fun _ => hfree), trivial⟩

theorem moveTo_leasing {b : Booking} {newStart newEnd : Time} (hlength : newStart < newEnd) (ht : mine token)
    (hs : Singly s.booking) (hb : ∃ r ∈ s.booking.rows, r.lane = b.lane)
    (hlocked : .locked ⟨b.branchId, b.staffMemberId, newStart⟩ token ∈ ns) :
    wp (leasing mine) anyway (moveTo b newStart newEnd) none ns s₀ s := by
  unfold moveTo
  apply wp_transaction
  swap
  · intro e s₁
    trivial
  intro s₁ h₁
  have hbegin : Pending StartsAside (Except.ok : Store → Except Err Store) := by
    rintro s v ⟨⟩
    exact ⟨rfl, rfl⟩
  refine (wp_bind _ _).mpr (assertSlotFree_leasing hbegin
    (h₁.2.singly hs) hlength (fun w₁ ns₁ s₂ h₂ hw₁ hns₁ hfree => ?_) fun _ _ _ _ _ => trivial)
  refine wp_tx hw₁ (fun g s₃ v r v' h₃ _ _ hr w₂ hw₂ _ => ?_) fun _ _ _ => trivial
  intro g s₄ s₅ _ h₄ hs₅
  obtain ⟨v, r', ⟨hbooking, hlock⟩, hr'⟩ := hw₂ s₄ s₅ hs₅
  obtain ⟨-, rfl⟩ := update_ok hr'
  have hlater : (leasing mine).rely s₂ s₄ := (leasing mine).rely_trans h₃ h₄
  have hthere : ∃ r ∈ s₄.booking.rows, r.lane = b.lane := by
    obtain ⟨r, hr, hlane⟩ := hb
    obtain ⟨r', hr', hlane'⟩ := ((leasing mine).rely_trans h₁ ((leasing mine).rely_trans h₂ hlater)).2.lanes r hr
    exact ⟨r', hr', hlane'.trans hlane⟩
  have hmoved : Table.Keeps fun r : Booking => { r with startTime := newStart, endTime := newEnd } := by intro _ _; rfl
  rw [← hbooking] at hthere
  refine ⟨put_leasing ht (hns₁ hlocked) ?_ hlock ?_ (by rintro x ⟨⟩; rfl) (StartFree.under ht hlater fun _ => hfree), trivial⟩
  · rw [← hbooking]
    exact putAt_update hmoved hthere hlength
  · rw [← hbooking]
    exact .update hmoved fun _ _ _ => rfl

theorem hold_leasing (userId : Id) (dto : HoldBookingDto) (hs : Singly s.booking) :
    wp (leasing mine) anyway (BookingService.hold userId dto) none ns s₀ s := by
  rw [hold_eq]
  have hcontext : Within Eq (fun _ => True) false (BookingService.loadAndValidateContext dto.businessId dto.branchId
      dto.serviceId dto.staffMemberId : Task _) := loadAndValidateContext_within (fun _ => rfl) _ _ _ _
  refine (wp_bind _ _).mpr (hcontext.wp_none_keeps (I := fun s => Singly s.booking) (fun ns s _ h => h ▸ (leasing mine).read ns s)
    (fun _ _ _ _ _ => trivial) (fun _ _ hr => hr.2.singly) (fun _ _ h => h ▸ id) (fun r ns s₀ s hs _ => ?_) hs)
  cases r with
  | error e => trivial
  | ok context =>
    refine wp_tryCatch.mpr (wp_mono (fun r w ns s₀ s _ => ?_) (withLock_leasing (fun _ _ h => h.singly) hs
      fun token s₁ s ht hs => bookSlot_leasing userId dto context.1 context.2 ht hs List.mem_cons_self))
    cases r with
    | ok b => trivial
    | error e =>
      exact (busyAsConflict_within e : Within Eq (fun _ => True) false _).wp_any (fun ns s _ h => h ▸ (leasing mine).read ns s)
        fun _ _ _ _ _ => trivial

theorem reschedule_leasing (bookingId userId : Id) (dto : RescheduleBookingDto) (hs : Singly s.booking) :
    wp (leasing mine) anyway (BookingService.reschedule bookingId userId dto) none ns s₀ s := by
  rw [reschedule_eq]
  refine (wp_bind _ _).mpr ((wp_bind _ _).mpr (wp_query (fun g s₁ h₁ => ?_) fun _ _ => trivial))
  refine (wp_orThrow _ _).mpr ⟨fun b hb => ?_, fun _ => trivial⟩
  refine (wp_bind _ _).mpr ((wp_ensure _ _).mpr ⟨fun _ => ?_, fun _ => trivial⟩)
  refine (wp_bind _ _).mpr ((wp_mark _).mpr ⟨trivial, ?_⟩)
  -- From here on the booking is in this lane.
  let J (t : Table Booking) : Prop := Singly t ∧ ∃ r ∈ t.rows, r.lane = b.lane
  have hJ : ∀ s s', Placed s s' → J s.booking → J s'.booking := by
    rintro s s' h ⟨hsingle, r, hr, hlane⟩
    obtain ⟨r', hr', hlane'⟩ := h.lanes r hr
    exact ⟨h.singly hsingle, r', hr', hlane'.trans hlane⟩
  have hs₁ : J s₁.booking := ⟨h₁.2.singly hs, b, (findFirst_some hb).1, rfl⟩
  refine (wp_bind _ _).mpr ((wp_bind _ _).mpr (wp_query (fun g s₂ h₂ => ?_) fun _ _ => trivial))
  refine (wp_orThrow _ _).mpr ⟨fun service _ => ?_, fun _ => trivial⟩
  have hslots : Within Eq (fun _ => True) false (AvailabilityService.getFreeSlots b.businessId (b.moveQuery dto.newStartTime)) :=
    getFreeSlots_within (fun _ => rfl) _ _
  refine (wp_bind _ _).mpr (hslots.wp_none_keeps (I := fun s => J s.booking) (fun ns s _ h => h ▸ (leasing mine).read ns s)
    (fun _ _ _ _ _ => trivial) (fun _ _ hr => hJ _ _ hr.2) (fun _ _ h => h ▸ id) (fun r ns s₀ s hs _ => ?_) (hJ _ _ h₂.2 hs₁))
  cases r with
  | error e => trivial
  | ok slots =>
    refine (wp_bind _ _).mpr ((wp_ensure _ _).mpr ⟨fun _ => ?_, fun _ => trivial⟩)
    refine wp_tryCatch.mpr (wp_mono (fun r w ns s₀ s _ => ?_) (withLock_leasing hJ hs fun token s₁ s ht hs =>
      moveTo_leasing (Int.lt_add_of_pos_right _ service.durationMinutes.ms_pos) ht hs.1 hs.2 List.mem_cons_self))
    cases r with
    | ok b => trivial
    | error e =>
      exact (busyAsConflict_within e : Within Eq (fun _ => True) false _).wp_any (fun ns s _ h => h ▸ (leasing mine).read ns s)
        fun _ _ _ _ _ => trivial

theorem authenticated_leasing {user : Id} {f : AuthenticatedUser → Task α} (hs : Singly s.booking)
    (hf : ∀ u ns s₀ s, Singly s.booking → wp (leasing mine) anyway (f u) none ns s₀ s) :
    wp (leasing mine) anyway (authenticated user f) none [] s₀ s := by
  refine (wp_bind _ _).mpr ((wp_bind _ _).mpr (wp_query (fun g s₁ h₁ => ?_) fun _ _ => trivial))
  refine (wp_bind _ _).mpr ((wp_orThrow _ _).mpr ⟨fun u _ => ?_, fun _ => trivial⟩)
  refine (wp_bind _ _).mpr ((wp_mark _).mpr ⟨trivial, ?_⟩)
  exact (wp_bind _ _).mpr (wp_mono (fun r _ _ _ _ _ => by cases r <;> trivial) (hf _ _ _ _ (h₁.2.singly hs)))

end contracts

/-! ### The other requests -/

section others
variable {t : Table Booking} {s s' : Store} {ns : List Note}

/-- Bookings stay where they are, and none becomes active. -/
structure StayPut (t t' : Table Booking) : Prop where
  lanes : Persist Booking.lane t t'
  none : ∀ key, NoneNew key t t'

/-- A status is written over, and none becomes active by it. -/
theorem stayPut_restated {next : BookingStatus} {p : Booking → Bool} {f : Booking → Booking} (hf : Table.Keeps f)
    (hnext : ∀ b, Booking.Restated next b (f b))
    (hactive : activeStatuses.contains next = true → ∀ b ∈ t.rows, p b = true → b.active = true) :
    StayPut t (t.update p f hf) := by
  refine ⟨.update hf fun b _ _ => ?_, fun key b' hb' hactive' _ => ?_⟩
  · rw [hnext b]
    rfl
  · obtain ⟨b, hb, rfl⟩ := (Table.mem_update hf).mp hb'
    refine ⟨b, hb, ?_⟩
    by_cases hp : p b = true
    · rw [if_pos hp, hnext b] at hactive' ⊢
      exact ⟨hactive hactive' b hb hp, rfl⟩
    · rw [if_neg hp] at hactive' ⊢
      exact ⟨hactive', rfl⟩

theorem StatusSet.stayPut {id : Id} {next : BookingStatus} {t' : Table Booking} (h : StatusSet id next t t')
    (hactive : activeStatuses.contains next = true → ∃ b ∈ t.rows, b.id = id ∧ b.active = true) : StayPut t t' := by
  obtain ⟨f, hf, hnext, rfl⟩ := h
  refine stayPut_restated hf hnext fun hactive' b hb hid => ?_
  obtain ⟨b', hb', hid', hactive⟩ := hactive hactive'
  obtain rfl := Table.id_eq hb hb' ((beq_iff_eq.mp hid).trans hid'.symm)
  exact hactive

/-- A request that looks at no slot. -/
theorem Change.stayPut (h : Change ns s.core s'.core) (hslots : ∀ b m i j ex, .slotFree b m i j ex ∉ ns)
    (hns : ∀ x ∈ ns, x.InForce s) : StayPut s.booking s'.booking := by
  have hcore : s'.booking = s'.core.booking := rfl
  rw [hcore]
  generalize s'.core = c at h
  cases h with
  | book bs t hrows hbs _ =>
    obtain rfl : bs = [] := List.eq_nil_iff_forall_not_mem.mpr fun b hb => hslots _ _ _ _ _ (hbs b hb).2.2.2.2
    refine ⟨fun b hb => ⟨b, ?_, rfl⟩, fun key b hb hactive _ => ⟨b, ?_, hactive, rfl⟩⟩
    · rw [hrows, List.append_nil]
      exact hb
    · rwa [hrows, List.append_nil] at hb
  | move id branchId staffMemberId startTime endTime t _ hfree => exact absurd hfree (hslots _ _ _ _ _)
  | status id next t tr haims _ ht => exact ht.stayPut (hns _ haims)
  | release now t _ ht =>
    obtain ⟨f, hf, hnext, rfl⟩ := ht
    exact stayPut_restated hf hnext (by simp [activeStatuses])
  | confirmPaid p ref bookingId tp tb tr _ _ _ _ hpaying _ ht => exact ht.stayPut fun _ => hns _ hpaying
  | payWallet userId bookingId walletId amount x p tp tw tl tb tr _ hpaying _ _ _ _ _ _ _ _ _ _ _ _ _ ht =>
    exact ht.stayPut fun _ => hns _ hpaying
  | _ => exact ⟨.refl _, fun key => .refl key _⟩

/-- The locks are left alone. -/
def Lockless (s s' : Store) : Prop := s'.lock = s.lock

theorem Lockless.refl (s : Store) : Lockless s s := rfl

theorem lockless_trans (s s' s'' : Store) (h : Lockless s s') (h' : Lockless s' s'') : Lockless s s'' := h'.trans h

/-- Only a hold and a reschedule take locks. -/
theorem Request.lockless {r : Request} (hhold : ∀ user dto, r ≠ .hold user dto)
    (hreschedule : ∀ user id dto, r ≠ .reschedule user id dto) : Within Lockless (fun _ => True) true r.serve := by
  refine Request.serve_within Lockless.refl lockless_trans (fun _ => trivial) ?_
  cases r with
  | hold user dto => exact absurd rfl (hhold user dto)
  | reschedule user id dto => exact absurd rfl (hreschedule user id dto)
  | business user businessId route =>
    cases route <;> first
      | trivial
      | exact fun _ _ => rfl
  | _ =>
    simp only [Request.Writes]
    and_intros
    all_goals first
      | trivial
      | exact fun _ _ => rfl

theorem Request.leasing_owes {mine : Id → Prop} (r : Request) (hr : ∀ user dto, r ≠ .createRecurring user dto)
    (hs : Singly s.booking) : wp (leasing mine) anyway r.serve none [] s s := by
  by_cases hhold : ∃ user dto, r = .hold user dto
  · obtain ⟨user, dto, rfl⟩ := hhold
    exact authenticated_leasing hs fun u ns s₀ s hs => hold_leasing u.id dto hs
  by_cases hreschedule : ∃ user id dto, r = .reschedule user id dto
  · obtain ⟨user, id, dto, rfl⟩ := hreschedule
    exact authenticated_leasing hs fun u ns s₀ s hs => reschedule_leasing id u.id dto hs
  push Not at hhold hreschedule
  have hlockless : wp (.doing Lockless Lockless.refl) anyway r.serve none [] s s :=
    (Request.lockless hhold hreschedule).doing lockless_trans
  have hslots {ns : List Note} (hns : ∀ x ∈ ns, r.takes x) (b : Id) (m : Option Id) (i j : Time) (ex : Option Id) :
      .slotFree b m i j ex ∉ ns := by
    intro hmem
    obtain ⟨user, ⟨dto, rfl⟩ | ⟨dto, rfl⟩ | ⟨id, dto, rfl⟩⟩ := hns _ hmem
    · exact hhold user dto rfl
    · exact hr user dto rfl
    · exact hreschedule user id dto rfl
  have hspares {s s' : Store} (hlock : s'.lock = s.lock) (h : StayPut s.booking s'.booking) :
      startLeases.Spares mine s s' ∧ Placed s s' := by
    refine ⟨.of_same (fun k t => ?_) fun k => .inl (h.none k), h.lanes, fun hs => hs.of_noneNew h.none⟩
    change (∃ l ∈ s'.lock.rows, _) ↔ _
    rw [hlock]
    exact Iff.rfl
  have hboth := wp_both (wp_given Request.takes_of_noted (by simp) (r.serve_owes s)) hlockless
  refine wp_weaken (C := ((contract r.takes).given fun ns _ => ∀ x ∈ ns, r.takes x).both (.doing Lockless Lockless.refl))
    (fun _ => ⟨trivial, trivial⟩) (fun _ => ⟨trivial, trivial⟩) (fun _ => trivial) (fun h => ?_) (fun h hforce => ?_)
    (wp_mono (fun _ _ _ _ _ _ => trivial) hboth)
  · refine hspares h.2 ?_
    rw [asked_booking h.1]
    exact ⟨.refl _, fun key => .refl key _⟩
  · exact hspares h.2 (Change.stayPut h.1.2 (hslots h.1.1) hforce)

end others

/-! ### Whole runs -/

section runs
variable {ι : Type} [DecidableEq ι]

/-- A request draws tokens of its own, and commits when what it has noted is in force. -/
def Timely (own : ι → Id → Prop) (c : Config ι Env Store Err Note Unit) (i : ι) (g : Env) : Prop :=
  own i (g.newId 0) ∧ ((c.thread i).Committing → ∀ x ∈ (c.thread i).notes, x.InForce c.store)

instance (own : ι → Id → Prop) [∀ i t, Decidable (own i t)] (c : Config ι Env Store Err Note Unit) (i : ι) (g : Env) :
    Decidable (Timely own c i g) :=
  inferInstanceAs (Decidable (_ ∧ (_ → ∀ x ∈ (c.thread i).notes, x.InForce c.store)))

/-- However the requests meet, except those for recurring bookings: at every start of a lane there is one active
booking at most, and nobody takes a lock of another or books under it. -/
theorem one_booking_a_start {r : ι → Request} {own : ι → Id → Prop} {s₀ : Store}
    {c : Config ι Env Store Err Note Unit} {past : List (ι × Store)} (hown : ∀ i j t, own i t → own j t → i = j)
    (hr : ∀ i user dto, r i ≠ .createRecurring user dto) (h₀ : Singly s₀.booking)
    (hrun : Run (Timely own) (.start (fun i => (r i).serve) s₀) c past) : Singly c.store.booking ∧
      ∀ x ∈ steps past c.store, startLeases.Spares (own x.1) x.2.1 x.2.2 := by
  have hspared := Leases.spared hown (fun i => (r i).leasing_owes (hr i) h₀) hrun
  exact ⟨hrun.steps_keep (P := fun s => Singly s.booking) (fun x hx hs => (hspared x hx).2.singly hs) h₀,
    fun x hx => (hspared x hx).1⟩

end runs

/-- Two customers want the same half hour. -/
theorem one_booking_a_start_twice : ∃ (c : Config Bool Env Store Err Note Unit) (past : List (Bool × Store)),
    Run (Timely fun late t => t = if late then 3 else 2) (.start (fun _ => (halfHours false).serve) shop) c past ∧
    (∀ late, (c.thread late).result.isSome) ∧ Singly c.store.booking ∧ c.store.booking.rows.length = 1 := by
  have hadmits : (Config.start (fun _ : Bool => (halfHours false).serve) shop).Admits
      (Timely fun late t => t = if late then 3 else 2)
      ((List.replicate 16 [(false, .of 0 1), (true, .of 0 2)]).flatten) := by decide +kernel
  obtain ⟨past, hrun⟩ := Run.follow .refl hadmits
  refine ⟨_, past, hrun, by decide +kernel, (one_booking_a_start ?_ ?_ ⟨?_, ?_⟩ hrun).1, by decide +kernel⟩
  · rintro (_ | _) (_ | _) t rfl h <;> first
      | rfl
      | cases h
  · rintro late user dto ⟨⟩
  · exact fun b hb => absurd hb List.not_mem_nil
  · exact fun b hb => absurd hb List.not_mem_nil

end BookingPlatform
