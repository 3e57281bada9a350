import BookingPlatform.Recurring
import BookingPlatform.Retry

/-! `confirmGroup` confirms the sessions of a group one after the other. -/
namespace BookingPlatform
open Async Data Prog

/-- Whom a referral names is registered. -/
def Store.Introduced (s : Store) : Prop := ∀ r ∈ s.referral.rows,
  (∃ u ∈ s.user.rows, u.id = r.referrerId) ∧ ∃ u ∈ s.user.rows, u.id = r.refereeId

/-- The identifiers of the calls from the `k`-th on are not in use. -/
def Unissued (world : ℕ → Env) (k : ℕ) (s : Store) : Prop := ∀ j ≥ k,
  (∀ a ∈ s.loyaltyAccount.rows, a.id ≠ (world j).newId 0) ∧
    ∀ r ∈ s.loyaltyTransaction.rows, r.id ≠ (world j).newId 0

/-- From the `k`-th call on no call fails, the clock stands still, and every new identifier is new. -/
structure Calm (world : ℕ → Env) (now : Time) (k : ℕ) (s : Store) : Prop where
  up : ∀ k, (world k).down = false
  clock : ∀ k, (world k).now = now
  distinct : ∀ j k, (world j).newId 0 = (world k).newId 0 → j = k
  unissued : Unissued world k s

/-! ### Rewards that are not refused -/

section rewards
variable {world : ℕ → Env} {k : ℕ} {s v : Store} {userId : Id}

theorem play_tx {α : Type} {q : Stmt α} {a : α} {v' : Store} (hup : ∀ k, (world k).down = false)
    (h : q (world k) v = .ok (a, v')) : (tx q).play world k (some v) s = (.ok a, k + 1, some v', s) := by
  rw [tx, play_op_tx]
  simp [attempt, hup, h]

/-- A row that is new is added. -/
theorem play_create_tx {T : Type} [Model T] {row : Id → T} (h : Insertable (world k) v row) : ∃ t : Table T,
    (tx (create row)).play world k (some v) s = (.ok (row ((world k).newId 0)), k + 1, some (Model.set v t), s) ∧
      t.rows = (Model.get v).rows ++ [row ((world k).newId 0)] := by
  obtain ⟨t, hrows, hcreate⟩ := attempt_create h
  refine ⟨t, ?_, hrows⟩
  rw [tx, play_op_tx, hcreate]

/-- A row that is there is rewritten. -/
theorem play_update_tx {T : Type} [Model T] {p : T → Bool} {f : T → T} {hf : Table.Keeps f} {r : T}
    (hup : ∀ k, (world k).down = false) (hr : r ∈ (Model.get v).rows) (hp : p r = true)
    (hclash : ∀ r' : T, p r' = true → Indexed.clash r' r = true) : ∃ t : Table T,
      (tx (update p f hf)).play world k (some v) s = (.ok (f r), k + 1, some (Model.set v t), s) ∧
      t.rows = (Model.get v).rows.map fun r => if p r then f r else r :=
  ⟨_, play_tx hup (update_of_mem hr hp hclash), Table.update_rows hf⟩

theorem play_update_bind {T α : Type} [Model T] {p : T → Bool} {f : T → T} {hf : Table.Keeps f} {r : T}
    (hup : ∀ k, (world k).down = false) (hr : r ∈ (Model.get s).rows) (hp : p r = true)
    (hclash : ∀ r' : T, p r' = true → Indexed.clash r' r = true) (c : T → Task α) : ∃ t : Table T,
      (prisma (update p f hf) >>= c).play world k none s = (c (f r)).play world (k + 1) none (Model.set s t) ∧
      t.rows = (Model.get s).rows.map fun r => if p r then f r else r := by
  refine ⟨(Model.get s).update p f hf, ?_, Table.update_rows hf⟩
  have hupdate : attempt (update p f hf) (world k) s = .ok (f r, Model.set s ((Model.get s).update p f hf)) := by
    simp only [attempt, hup, Bool.false_eq_true, if_false]
    exact update_of_mem hr hp hclash
  rw [play_prisma_step, hupdate]

/-- The account is there, or is opened. -/
theorem play_account (hup : ∀ k, (world k).down = false) (hnew : Unissued world k v)
    (huser : ∃ u ∈ v.user.rows, u.id = userId) : ∃ (account : LoyaltyAccount) (t : Table LoyaltyAccount),
      (tx (upsert (fun r : LoyaltyAccount => r.userId == userId) fun id => { id, userId })).play world k (some v) s =
        (.ok account, k + 1, some (Model.set v t), s) ∧ account ∈ t.rows ∧ account.userId = userId ∧
      ∀ a ∈ t.rows, a ∈ v.loyaltyAccount.rows ∨ a.id = (world k).newId 0 := by
  cases hfound : (Model.get v).rows.find? fun r : LoyaltyAccount => r.userId == userId with
  | some account =>
    have hmem := List.mem_of_find?_eq_some hfound
    have hmine := List.find?_some (p := fun r : LoyaltyAccount => r.userId == userId) hfound
    refine ⟨account, v.loyaltyAccount, play_tx hup ?_, hmem, beq_iff_eq.mp hmine, fun a ha => .inl ha⟩
    simp only [upsert, hfound]
    rfl
  | none =>
    have hinsertable : Insertable (world k) v fun id => ({ id, userId } : LoyaltyAccount) := by
      refine ⟨hup k, ?_, fun a ha => ?_⟩
      · obtain ⟨u, hu, hid⟩ := huser
        simpa [Model.refs, Store.has] using ⟨u, hu, hid⟩
      · have hid := (hnew k le_rfl).1 a ha
        have hother := List.find?_eq_none.mp hfound a ha
        simpa [Indexed.clash, hid] using hother
    obtain ⟨t, hrows, hcreate⟩ := attempt_create hinsertable
    refine ⟨{ id := (world k).newId 0, userId }, t, play_tx hup ?_, by simp [hrows], rfl, fun a ha => ?_⟩
    · simp only [upsert, hfound]
      exact attempt_ok hcreate
    · rw [hrows] at ha
      rcases List.mem_append.mp ha with ha | ha
      · exact .inl ha
      · exact .inr (congrArg _ (List.mem_singleton.mp ha))

/-- Points are given to a registered user. -/
theorem play_addPoints {points : ℤ} {reason : String} {referenceId : Option Id}
    (hup : ∀ k, (world k).down = false) (hdistinct : ∀ j k, (world j).newId 0 = (world k).newId 0 → j = k)
    (hnew : Unissued world k v) (huser : ∃ u ∈ v.user.rows, u.id = userId) : ∃ t h,
      (LoyaltyService.addPoints userId points reason referenceId).play world k (some v) s =
        (.ok (), k + 3, some { v with loyaltyAccount := t, loyaltyTransaction := h }, s) ∧
      Unissued world (k + 3) { v with loyaltyAccount := t, loyaltyTransaction := h } := by
  obtain ⟨account, t, hupsert, hmem, hmine, hrows⟩ := @play_account world k s v userId hup hnew huser
  obtain ⟨t', hwrite, hrows'⟩ := @play_update_tx world (k + 1) s (Model.set v t) LoyaltyAccount _
    (fun r => r.userId == userId) (fun r => { r with
      points := account.points + points, tier := LoyaltyService.tierOf (account.points + points) })
    (by intro _ _; rfl) account hup hmem (beq_iff_eq.mpr hmine) fun r hr => by simp_all [Indexed.clash]
  have hids : t'.rows.map LoyaltyAccount.id = t.rows.map LoyaltyAccount.id := by
    rw [hrows', List.map_map]
    refine List.map_congr_left fun a _ => ?_
    dsimp only [Function.comp]
    split <;> rfl
  obtain ⟨h, hentry, hentries⟩ := @play_create_tx world (k + 1 + 1) s (Model.set (Model.set v t) t')
    LoyaltyTransaction _ (fun id => { id, accountId := account.id, points, reason, referenceId }) (by
      refine ⟨hup _, ?_, fun r hr => ?_⟩
      · change Store.has t' LoyaltyAccount.id account.id = true
        have hkept : account.id ∈ t'.rows.map LoyaltyAccount.id := hids ▸ List.mem_map_of_mem hmem
        exact has_iff.mpr (List.mem_map.mp hkept)
      · simpa [Indexed.clash] using (hnew (k + 1 + 1) (by omega)).2 r hr)
  refine ⟨t', h, ?_, fun j hj => ⟨fun a ha => ?_, fun r hr => ?_⟩⟩
  · unfold LoyaltyService.addPoints
    rw [play_bind_ok hupsert, play_mark_bind]
    refine (play_bind_ok hwrite _).trans ?_
    exact (play_bind_ok hentry _).trans rfl
  · have hold : a.id ∈ t.rows.map LoyaltyAccount.id := hids ▸ List.mem_map_of_mem ha
    obtain ⟨a', ha', hid⟩ := List.mem_map.mp hold
    rw [← hid]
    rcases hrows a' ha' with ha' | hnow
    · exact (hnew j (by omega)).1 a' ha'
    · intro hsame
      have := hdistinct _ _ (hnow.symm.trans hsame)
      omega
  · change r ∈ h.rows at hr
    rw [hentries] at hr
    rcases List.mem_append.mp hr with hr | hr
    · exact (hnew j (by omega)).2 r hr
    · rw [List.mem_singleton.mp hr]
      intro hsame
      have := hdistinct _ _ hsame
      omega

theorem play_earnFromPurchase {amount : Money} {reason : String}
    (hup : ∀ k, (world k).down = false) (hdistinct : ∀ j k, (world j).newId 0 = (world k).newId 0 → j = k)
    (hnew : Unissued world k v) (huser : ∃ u ∈ v.user.rows, u.id = userId) : ∃ k' t h,
      (LoyaltyService.earnFromPurchase userId amount reason).play world k (some v) s =
        (.ok (), k', some { v with loyaltyAccount := t, loyaltyTransaction := h }, s) ∧
      Unissued world k' { v with loyaltyAccount := t, loyaltyTransaction := h } := by
  unfold LoyaltyService.earnFromPurchase
  dsimp only
  split
  · exact ⟨k, v.loyaltyAccount, v.loyaltyTransaction, rfl, hnew⟩
  · obtain ⟨t, h, hplay, hnew'⟩ := play_addPoints hup hdistinct hnew huser
    exact ⟨k + 3, t, h, hplay, hnew'⟩

theorem play_rewardIfEligible
    (hup : ∀ k, (world k).down = false) (hdistinct : ∀ j k, (world j).newId 0 = (world k).newId 0 → j = k)
    (hnew : Unissued world k v) (hreferral : v.Introduced) : ∃ k' t h f,
      (ReferralService.rewardIfEligible userId).play world k (some v) s =
        (.ok (), k', some { v with loyaltyAccount := t, loyaltyTransaction := h, referral := f }, s) ∧
      Unissued world k' { v with loyaltyAccount := t, loyaltyTransaction := h, referral := f } ∧
      Store.Introduced { v with loyaltyAccount := t, loyaltyTransaction := h, referral := f } := by
  unfold ReferralService.rewardIfEligible
  rw [play_query_bind hup, Option.getD_some]
  have hlater : Unissued world (k + 1) v := fun j hj => hnew j (by omega)
  cases hfound : findUnique (fun r : Referral => r.refereeId == userId) (world k) v with
  | none => exact ⟨_, v.loyaltyAccount, v.loyaltyTransaction, v.referral, rfl, hlater, hreferral⟩
  | some referral =>
    obtain ⟨hmem, -⟩ := findUnique_some hfound
    dsimp only
    split
    · exact ⟨_, v.loyaltyAccount, v.loyaltyTransaction, v.referral, rfl, hlater, hreferral⟩
    · obtain ⟨hreferrer, hreferee⟩ := hreferral referral hmem
      rw [play_mark_bind]
      obtain ⟨t, h, hfirst, hnew₁⟩ := @play_addPoints world (k + 1) s v referral.referrerId
        referralRewardPoints "پاداش معرفی موفق دوست" (some referral.id) hup hdistinct hlater hreferrer
      obtain ⟨t', h', hsecond, hnew₂⟩ := @play_addPoints world (k + 1 + 3) s
        { v with loyaltyAccount := t, loyaltyTransaction := h } referral.refereeId referralRewardPoints
        "پاداش خوش‌آمدگویی (معرفی‌شده)" (some referral.id) hup hdistinct hnew₁ hreferee
      obtain ⟨f, hwrite, hrows⟩ := @play_update_tx world (k + 1 + 3 + 3 + 1) s
        { v with loyaltyAccount := t', loyaltyTransaction := h' } Referral _ (fun r => r.id == referral.id)
        (fun r => { r with status := .rewarded, rewardedAt := some (world (k + 1 + 3 + 3)).now })
        (by intro _ _; rfl) referral hup hmem (beq_iff_eq.mpr rfl) fun r hr => by simp_all [Indexed.clash]
      refine ⟨k + 1 + 3 + 3 + 1 + 1, t', h', f, ?_, fun j hj => hnew₂ j (by omega), fun r hr => ?_⟩
      · rw [play_bind_ok hfirst, play_bind_ok hsecond, play_bind_ok play_clock]
        exact (play_bind_ok hwrite _).trans rfl
      · change r ∈ f.rows at hr
        rw [hrows, List.mem_map] at hr
        obtain ⟨r₀, hr₀, rfl⟩ := hr
        have hold := hreferral r₀ hr₀
        split <;> exact hold

theorem play_awardPostPurchaseRewards {amount : Money}
    (hup : ∀ k, (world k).down = false) (hdistinct : ∀ j k, (world j).newId 0 = (world k).newId 0 → j = k)
    (hnew : Unissued world k v) (huser : ∃ u ∈ v.user.rows, u.id = userId) (hreferral : v.Introduced) :
    ∃ k' t h f, (BookingService.awardPostPurchaseRewards userId amount).play world k (some v) s =
        (.ok (), k', some { v with loyaltyAccount := t, loyaltyTransaction := h, referral := f }, s) ∧
      Unissued world k' { v with loyaltyAccount := t, loyaltyTransaction := h, referral := f } ∧
      Store.Introduced { v with loyaltyAccount := t, loyaltyTransaction := h, referral := f } := by
  obtain ⟨k₁, t, h, hearn, hnew₁⟩ := @play_earnFromPurchase world k s v userId amount "خرید رزرو" hup hdistinct
    hnew huser
  obtain ⟨k', t', h', f, hreward, hnew', hreferral'⟩ := @play_rewardIfEligible world k₁ s
    { v with loyaltyAccount := t, loyaltyTransaction := h } userId hup hdistinct hnew₁ hreferral
  exact ⟨k', t', h', f, (play_bind_ok hearn _).trans hreward, hnew', hreferral'⟩

end rewards

/-! ### One session -/

/-- A HOLD that has not run out. -/
def Booking.Open (now : Time) (b : Booking) : Bool := b.status == .hold && b.holdExpiresAt.any fun t => now ≤ t

/-- The booking has this status. -/
def Store.InStatus (s : Store) (id : Id) (status : BookingStatus) : Prop :=
  ∃ b ∈ s.booking.rows, b.id = id ∧ b.status = status

/-- The status that a confirmation gives to the booking. -/
def Store.confirmedStatus (s : Store) (b : Booking) : BookingStatus :=
  BookingService.nextStatus (s.service.rows.find? fun r => r.id == b.serviceId)

section session
variable {world : ℕ → Env} {now : Time} {k : ℕ} {s s' : Store} {userId : Id} {b b' : Booking} {id : Id}
  {status status' : BookingStatus}

theorem Store.InStatus.eq (h : s.InStatus id status) (h' : s.InStatus id status') : status = status' := by
  obtain ⟨b, hb, hid, rfl⟩ := h
  obtain ⟨b', hb', hid', rfl⟩ := h'
  rw [Table.eq_of_clash hb hb' (by simp [Indexed.clash, hid, hid'])]

/-- One booking is in this status now, and the others stay. -/
structure Rewrites (id : Id) (status : BookingStatus) (s s' : Store) : Prop where
  mine : s'.InStatus id status
  others : ∀ b ∈ s.booking.rows, b.id ≠ id → b ∈ s'.booking.rows

theorem Rewrites.of_rows {f : Booking → Booking} (hb : b ∈ s.booking.rows)
    (hrows : s'.booking.rows = s.booking.rows.map fun r => if r.id == b.id then f r else r)
    (hf : (f b).id = b.id ∧ (f b).status = status) : Rewrites b.id status s s' := by
  refine ⟨⟨f b, ?_, hf⟩, fun r hr hid => ?_⟩
  · rw [hrows]
    exact List.mem_map.mpr ⟨b, hb, by simp⟩
  · rw [hrows]
    exact List.mem_map.mpr ⟨r, hr, by simp [hid]⟩

/-- What the confirmation of a session does: it confirms an open one, leaves one alone that is no HOLD, and
cancels one that has run out. -/
inductive Turn (now : Time) (b : Booking) (s : Store) : Except Err Booking → Store → Prop
  | confirmed (updated : Booking) (s' : Store) : b.Open now = true → Rewrites b.id (s.confirmedStatus b) s s' →
      Turn now b s (.ok updated) s'
  | refused (e : Err) : b.status ≠ .hold → Turn now b s (.error e) s
  | expired (e : Err) (s' : Store) : b.status = .hold → b.Open now = false → Rewrites b.id .cancelled s s' →
      Turn now b s (.error e) s'

theorem open_eq_false (hhold : b.status = .hold) :
    b.Open now = false ↔ (b.holdExpiresAt.all fun t => t < now) = true := by
  cases hexpires : b.holdExpiresAt <;> simp [Booking.Open, hhold, hexpires]

theorem Calm.later {j : ℕ} (hcalm : Calm world now k s) (hj : k ≤ j) : Calm world now j s :=
  ⟨hcalm.up, hcalm.clock, hcalm.distinct, fun i hi => hcalm.unissued i (by omega)⟩

theorem Calm.booking (hcalm : Calm world now k s) (t : Table Booking) : Calm world now k { s with booking := t } :=
  ⟨hcalm.up, hcalm.clock, hcalm.distinct, hcalm.unissued⟩

/-- The rewards of a confirmation, if it has any. -/
theorem play_rewards {next : BookingStatus} {amount : Money} {updated : Booking} {v : Store}
    (hcalm : Calm world now k v) (huser : ∃ u ∈ v.user.rows, u.id = userId) (hreferral : v.Introduced) : ∃ k' v',
      (if next = .confirmed then do
          BookingService.awardPostPurchaseRewards userId amount
          return updated
        else return updated : Task Booking).play world k (some v) s = (.ok updated, k', some v', s) ∧
      Calm world now k' v' ∧ v'.Introduced ∧ v'.booking = v.booking ∧ v'.user = v.user ∧ v'.service = v.service := by
  split
  · obtain ⟨k', t, h, f, hreward, hnew, hreferral'⟩ := @play_awardPostPurchaseRewards world k s v userId amount
      hcalm.up hcalm.distinct hcalm.unissued huser hreferral
    exact ⟨k', _, (play_bind_ok hreward _).trans rfl, ⟨hcalm.up, hcalm.clock, hcalm.distinct, hnew⟩, hreferral',
      rfl, rfl, rfl⟩
  · exact ⟨k, v, rfl, hcalm, hreferral, rfl, rfl, rfl⟩

/-- A session is confirmed, refused or cancelled. -/
theorem play_confirm (hcalm : Calm world now k s) (hb : b ∈ s.booking.rows) (hmine : b.userId = userId)
    (huser : ∃ u ∈ s.user.rows, u.id = userId) (hreferral : s.Introduced) : ∃ r k' s',
      (BookingService.confirm b.id userId).play world k none s = (r, k', none, s') ∧ Turn now b s r s' ∧
      Calm world now k' s' ∧ s'.Introduced ∧ s'.user = s.user ∧ s'.service = s.service := by
  have hfound : findFirst (fun r : Booking => r.id == b.id && r.userId == userId) (world k) s = some b := by
    apply findFirst_of_unique hb (by simp [hmine])
    intro r hr hp
    simp only [Bool.and_eq_true, beq_iff_eq] at hp
    exact Table.eq_of_clash hr hb (by simp [Indexed.clash, hp.1])
  have hclash : ∀ r : Booking, (r.id == b.id) = true → Indexed.clash r b = true := fun r hr => hr
  unfold BookingService.confirm BookingService.getOwnedBooking
  rw [bind_assoc, play_find hcalm.up hfound, play_ensure_bind]
  by_cases hhold : b.status = .hold
  swap
  · rw [if_neg hhold]
    exact ⟨_, k + 1, s, rfl, .refused _ hhold, hcalm.later (by omega), hreferral, rfl, rfl⟩
  rw [if_pos hhold, play_mark_bind, play_bind_ok play_clock, hcalm.clock]
  by_cases hopen : b.Open now = true
  · have hinTime := mt (@open_eq_false now b hhold).mpr (by simp [hopen])
    rw [if_neg hinTime, play_query_bind hcalm.up, play_mark_bind, Option.getD_none]
    obtain ⟨t, hwrite, hrows⟩ := @play_update_tx world (k + 1 + 1 + 1 + 1) s s Booking _ (fun r => r.id == b.id)
      (fun r => { r with status := s.confirmedStatus b, holdExpiresAt := none }) (by intro _ _; rfl) b hcalm.up hb
      (beq_iff_eq.mpr rfl) hclash
    obtain ⟨k', s', hreward, hcalm', hreferral', hbooking, husers, hservice⟩ :=
      @play_rewards world now (k + 1 + 1 + 1 + 1 + 1) s userId (s.confirmedStatus b)
        (b.priceSnapshot - b.discountAmount) { b with status := s.confirmedStatus b, holdExpiresAt := none }
        { s with booking := t } ((hcalm.later (by omega)).booking t) huser hreferral
    have hrewrites : Rewrites b.id (s.confirmedStatus b) s s' := .of_rows hb (by rw [hbooking, hrows]; rfl) ⟨rfl, rfl⟩
    exact ⟨_, k' + 1, _, play_transaction hcalm.up ((play_bind_ok hwrite _).trans hreward),
      .confirmed _ _ hopen hrewrites, hcalm'.later (by omega), hreferral', husers, hservice⟩
  · rw [Bool.not_eq_true] at hopen
    rw [if_pos ((open_eq_false hhold).mp hopen), play_mark_bind]
    obtain ⟨t, hwrite, hrows⟩ := @play_update_bind world (k + 1 + 1) s Booking Booking _ (fun r => r.id == b.id)
      (fun r => { r with status := .cancelled, cancelReason := some "انقضای مهلت تایید" }) (by intro _ _; rfl) b
      hcalm.up hb (beq_iff_eq.mpr rfl) hclash fun _ =>
        throw (.badRequest "مهلت تایید این رزرو منقضی شده، لطفاً دوباره رزرو کنید")
    exact ⟨_, k + 1 + 1 + 1, _, hwrite, .expired _ _ hhold hopen (.of_rows hb hrows ⟨rfl, rfl⟩),
      (hcalm.later (by omega)).booking t, hreferral, rfl, rfl⟩

end session

/-! ### The whole group -/

/-- What the loop leaves: the sessions before the first that is not open are confirmed, that one is cancelled
if it has run out, and the rest is as it was. -/
structure Swept (now : Time) (l : List Booking) (s : Store) (r : Except Err (List Booking)) (s' : Store) :
    Prop where
  confirmed : ∀ b ∈ l.takeWhile (Booking.Open now), s'.InStatus b.id (s.confirmedStatus b)
  expired : ∀ b rest, l.dropWhile (Booking.Open now) = b :: rest → b.status = .hold → s'.InStatus b.id .cancelled
  others : ∀ b ∈ s.booking.rows, (∀ b' ∈ l.takeWhile (Booking.Open now), b.id ≠ b'.id) →
    (∀ b' rest, l.dropWhile (Booking.Open now) = b' :: rest → b.id ≠ b'.id) → b ∈ s'.booking.rows
  ok : (∃ bs, r = .ok bs) ↔ l.dropWhile (Booking.Open now) = []
  idle : ∀ b rest, l = b :: rest → b.status ≠ .hold → s' = s

section group
variable {world : ℕ → Env} {now : Time} {k : ℕ} {s s' : Store} {userId : Id} {b b' : Booking}

theorem Swept.nil : Swept now [] s (.ok []) s :=
  ⟨by simp, by simp, fun b hb _ _ => hb, by simp, by simp⟩

/-- A group whose first session is not confirmed. -/
theorem Turn.stops {e : Err} {rest : List Booking} (h : Turn now b s (.error e) s') :
    Swept now (b :: rest) s (.error e) s' := by
  have hclosed : b.Open now = false := by
    cases h with
    | refused _ hhold => simp [Booking.Open, hhold]
    | expired _ _ _ hopen => exact hopen
  refine ⟨by simp [hclosed], ?_, ?_, by simp [hclosed], ?_⟩
  · intro b' rest' heq hhold
    obtain ⟨rfl, -⟩ := by simpa [hclosed] using heq
    cases h with
    | refused _ hnot => exact absurd hhold hnot
    | expired _ _ _ _ hrewrites => exact hrewrites.mine
  · intro r hr _ hfirst
    have hid : r.id ≠ b.id := hfirst b rest (by simp [hclosed])
    cases h with
    | refused => exact hr
    | expired _ _ _ _ hrewrites => exact hrewrites.others r hr hid
  · intro b' rest' heq hnot
    obtain ⟨rfl, -⟩ := by simpa using heq
    cases h with
    | refused => rfl
    | expired _ _ hhold => exact absurd hhold hnot

/-- A group whose first session is confirmed. -/
theorem Swept.cons {s₁ : Store} {rest : List Booking} {r : Except Err (List Booking)} (updated : Booking)
    (hopen : b.Open now = true) (hrewrites : Rewrites b.id (s.confirmedStatus b) s s₁)
    (hservice : s₁.service = s.service) (hids : ∀ b' ∈ rest, b'.id ≠ b.id) (h : Swept now rest s₁ r s') :
    Swept now (b :: rest) s (r.map (updated :: ·)) s' := by
  have hkept {b' : Booking} (hb' : b' ∈ s₁.booking.rows) (hid : b'.id = b.id) : b' ∈ s'.booking.rows := by
    refine h.others b' hb' (fun x hx => ?_) fun x tail heq => ?_
    · rw [hid]
      exact (hids x ((List.takeWhile_sublist _).mem hx)).symm
    · rw [hid]
      exact (hids x ((List.dropWhile_sublist _).mem (heq ▸ List.mem_cons_self))).symm
  have hnext : ∀ b, s₁.confirmedStatus b = s.confirmedStatus b := fun b => by rw [Store.confirmedStatus, hservice]; rfl
  constructor
  · rw [List.takeWhile_cons_of_pos hopen, List.forall_mem_cons]
    refine ⟨?_, fun x hx => hnext x ▸ h.confirmed x hx⟩
    obtain ⟨b', hb', hid, hstatus⟩ := hrewrites.mine
    exact ⟨b', hkept hb' hid, hid, hstatus⟩
  · rw [List.dropWhile_cons_of_pos hopen]
    exact h.expired
  · rw [List.takeWhile_cons_of_pos hopen, List.dropWhile_cons_of_pos hopen]
    intro x hx htake hdrop
    obtain ⟨hid, htake⟩ := List.forall_mem_cons.mp htake
    exact h.others x (hrewrites.others x hx hid) htake hdrop
  · rw [List.dropWhile_cons_of_pos hopen, ← h.ok]
    cases r <;> simp [Except.map]
  · intro x tail heq hnot
    obtain ⟨rfl, -⟩ := by simpa using heq
    simp [Booking.Open, hnot] at hopen

/-- The sessions are taken in order, up to the first that is not confirmed. -/
theorem play_confirmAll {l : List Booking} (hcalm : Calm world now k s)
    (hrows : ∀ b ∈ l, b ∈ s.booking.rows ∧ b.userId = userId) (hids : l.Pairwise fun b b' => b'.id ≠ b.id)
    (huser : ∃ u ∈ s.user.rows, u.id = userId) (hreferral : s.Introduced) : ∃ r k' s',
      (BookingService.confirmAll userId l).play world k none s = (r, k', none, s') ∧ Swept now l s r s' := by
  induction l generalizing k s with
  | nil => exact ⟨_, _, _, rfl, .nil⟩
  | cons b rest ih =>
    obtain ⟨⟨hb, hmine⟩, hrest⟩ := List.forall_mem_cons.mp hrows
    obtain ⟨hfirst, hids⟩ := List.pairwise_cons.mp hids
    obtain ⟨r, k₁, s₁, hplay, hturn, hcalm', hreferral', husers, hservice⟩ :=
      play_confirm hcalm hb hmine huser hreferral
    unfold BookingService.confirmAll
    rw [play_bind hplay]
    cases hturn with
    | confirmed updated _ hopen hrewrites =>
      have hrows' : ∀ b' ∈ rest, b' ∈ s₁.booking.rows ∧ b'.userId = userId := fun b' hb' =>
        ⟨hrewrites.others b' (hrest b' hb').1 (hfirst b' hb'), (hrest b' hb').2⟩
      obtain ⟨r, k', s', hplay', hswept⟩ := ih hcalm' hrows' hids (by rwa [husers]) hreferral'
      refine ⟨_, k', s', ?_, hswept.cons updated hopen hrewrites hservice hfirst⟩
      refine (play_bind hplay' _).trans ?_
      cases r <;> rfl
    | refused e hnot => exact ⟨_, _, _, rfl, Turn.stops (.refused e hnot)⟩
    | expired e _ hhold hopen hrewrites => exact ⟨_, _, _, rfl, Turn.stops (.expired e _ hhold hopen hrewrites)⟩

/-- The sessions of the group, in the order in which they are returned. -/
def Store.sessions (s : Store) (g : Env) (recurringGroupId userId : Id) : List Booking :=
  findMany (fun r : Booking => r.recurringGroupId == some recurringGroupId && r.userId == userId) g s

/-- The call confirms every session that is open, or it rejects and no session has another status and no
points or referrals have changed. -/
def LeavesNoHalf (world : ℕ → Env) (now : Time) (s : Store) (recurringGroupId userId : Id) : Prop :=
  ∀ r k v s', (BookingService.confirmGroup recurringGroupId userId).play world 0 none s = (r, k, v, s') →
    (∀ b ∈ s.sessions (world 0) recurringGroupId userId, b.Open now = true → s'.InStatus b.id (s.confirmedStatus b)) ∨
    (∃ e, r = .error e) ∧ (∀ b ∈ s.sessions (world 0) recurringGroupId userId, s'.InStatus b.id b.status) ∧
      s'.loyaltyAccount = s.loyaltyAccount ∧ s'.loyaltyTransaction = s.loyaltyTransaction ∧ s'.referral = s.referral

/-- No session after one that is not open is open, or the first is no HOLD at all. -/
def OneRun (now : Time) (l : List Booking) : Prop :=
  (∀ b ∈ l.dropWhile (Booking.Open now), b.Open now = false) ∨ ∃ b rest, l = b :: rest ∧ b.status ≠ .hold

theorem confirmedStatus_ne_hold (b : Booking) : s.confirmedStatus b ≠ .hold := by
  unfold Store.confirmedStatus BookingService.nextStatus
  split <;> simp

theorem mem_sessions {recurringGroupId : Id} (hb : b ∈ s.sessions (world 0) recurringGroupId userId) :
    b ∈ s.booking.rows ∧ b.userId = userId := by
  obtain ⟨hmem, hp⟩ := mem_findMany.mp hb
  simp only [Bool.and_eq_true, beq_iff_eq] at hp
  exact ⟨hmem, hp.2⟩

theorem sessions_pairwise (recurringGroupId userId : Id) :
    (s.sessions (world 0) recurringGroupId userId).Pairwise fun b b' => b'.id ≠ b.id := by
  refine ((world 0).arrange_perm _).symm.pairwise ?_ Ne.symm
  refine (s.booking.unique.sublist List.filter_sublist).imp fun {b b'} hclash hid => ?_
  simp [Indexed.clash, hid] at hclash

/-- The loop over some sessions, of which there may be none. -/
theorem play_confirmGroup {recurringGroupId : Id} (hcalm : Calm world now 0 s)
    (huser : ∃ u ∈ s.user.rows, u.id = userId) (hreferral : s.Introduced) : ∃ r k s',
      (BookingService.confirmGroup recurringGroupId userId).play world 0 none s = (r, k, none, s') ∧
      (s.sessions (world 0) recurringGroupId userId = [] ∨ Swept now (s.sessions (world 0) recurringGroupId userId) s r s') := by
  have hread : findMany (fun r : Booking => r.recurringGroupId == some recurringGroupId && r.userId == userId)
      (world 0) s = s.sessions (world 0) recurringGroupId userId := rfl
  unfold BookingService.confirmGroup
  rw [play_query_bind hcalm.up, play_ensure_bind, Option.getD_none, hread]
  by_cases hnone : s.sessions (world 0) recurringGroupId userId = []
  · rw [if_neg (not_not.mpr hnone)]
    exact ⟨_, _, _, rfl, .inl hnone⟩
  · rw [if_pos hnone]
    obtain ⟨r, k', s', hplay, hswept⟩ := play_confirmAll (hcalm.later (Nat.zero_le (0 + 1))) (fun _ => mem_sessions)
      (sessions_pairwise _ _) huser hreferral
    exact ⟨r, k', s', hplay, .inr hswept⟩

section swept
variable {l : List Booking} {r : Except Err (List Booking)}

theorem Swept.of_oneRun (h : Swept now l s r s') (hrows : ∀ b ∈ l, b ∈ s.booking.rows) (hrun : OneRun now l) :
    (∀ b ∈ l, b.Open now = true → s'.InStatus b.id (s.confirmedStatus b)) ∨
      (∃ e, r = .error e) ∧ (∀ b ∈ l, s'.InStatus b.id b.status) ∧ s' = s := by
  rcases hrun with hclosed | ⟨x, rest, rfl, hnot⟩
  · refine .inl fun b hb hopen => h.confirmed b ?_
    rw [← List.takeWhile_append_dropWhile (p := Booking.Open now) (l := l), List.mem_append] at hb
    refine hb.resolve_right fun hb => ?_
    rw [hclosed b hb] at hopen
    cases hopen
  · have hsame := h.idle x rest rfl hnot
    have hfailed : ¬ ∃ bs, r = .ok bs := by
      rw [h.ok]
      simp [Booking.Open, hnot]
    refine .inr ⟨?_, fun b hb => ⟨b, hsame ▸ hrows b hb, rfl, rfl⟩, hsame⟩
    cases r with
    | error e => exact ⟨e, rfl⟩
    | ok bs => exact absurd ⟨bs, rfl⟩ hfailed

/-- An open session after one that is not open keeps its status, while the first session loses its own. -/
theorem Swept.oneRun (h : Swept now l s r s') (hrows : ∀ b ∈ l, b ∈ s.booking.rows)
    (hids : l.Pairwise fun b b' => b'.id ≠ b.id)
    (hwhole : (∀ b ∈ l, b.Open now = true → s'.InStatus b.id (s.confirmedStatus b)) ∨
      ∀ b ∈ l, s'.InStatus b.id b.status) : OneRun now l := by
  by_contra hnot
  obtain ⟨hopen, hhold⟩ := not_or.mp hnot
  push Not at hopen hhold
  obtain ⟨b, hb, hopen⟩ := hopen
  rw [Bool.ne_false_iff] at hopen
  have hl := List.takeWhile_append_dropWhile (p := Booking.Open now) (l := l)
  cases hdrop : l.dropWhile (Booking.Open now) with
  | nil => simp [hdrop] at hb
  | cons y rest =>
    have hclosed : y.Open now = false := by
      have := List.head_dropWhile_not (Booking.Open now) (l := l) (by simp [hdrop])
      simpa [hdrop] using this
    rw [hdrop] at hb hl
    have hby : b ∈ rest := (List.mem_cons.mp hb).resolve_left fun heq => by simp [heq ▸ hopen] at hclosed
    rw [← hl] at hids
    obtain ⟨-, hafter, hacross⟩ := List.pairwise_append.mp hids
    have hmem : b ∈ l := by rw [← hl]; exact List.mem_append_right _ hb
    have hstays : s'.InStatus b.id b.status := by
      refine ⟨b, h.others b (hrows b hmem) (fun b' hb' => hacross b' hb' b hb) fun y' rest' heq => ?_, rfl, rfl⟩
      rw [hdrop] at heq
      obtain ⟨rfl, -⟩ := by simpa using heq
      exact (List.pairwise_cons.mp hafter).1 b hby
    have hbhold : b.status = .hold := by
      simp only [Booking.Open, Bool.and_eq_true, beq_iff_eq] at hopen
      exact hopen.1
    rcases hwhole with hall | hsame
    · exact confirmedStatus_ne_hold b (((hall b hmem hopen).eq hstays).trans hbhold)
    · cases htake : l.takeWhile (Booking.Open now) with
      | nil =>
        rw [htake, List.nil_append] at hl
        have hcancelled := h.expired y rest hdrop (hhold y rest hl.symm)
        have hkept := hsame y (by rw [← hl]; exact List.mem_cons_self)
        rw [hhold y rest hl.symm] at hkept
        cases hcancelled.eq hkept
      | cons x tail =>
        have hx : x ∈ l.takeWhile (Booking.Open now) := by rw [htake]; exact List.mem_cons_self
        have hmem : x ∈ l := (List.takeWhile_sublist _).mem hx
        have hxhold := hhold x (tail ++ y :: rest) (by rw [← hl, htake]; rfl)
        exact confirmedStatus_ne_hold x (((h.confirmed x hx).eq (hsame x hmem)).trans hxhold)

end swept

/-- A group is confirmed or rejected as a whole exactly when its open sessions are returned first, or a session that
is no HOLD is. -/
theorem confirmGroup_whole {recurringGroupId : Id} (hcalm : Calm world now 0 s)
    (huser : ∃ u ∈ s.user.rows, u.id = userId) (hreferral : s.Introduced) :
    LeavesNoHalf world now s recurringGroupId userId ↔ OneRun now (s.sessions (world 0) recurringGroupId userId) := by
  obtain ⟨r, k, s', hplay, hswept⟩ := @play_confirmGroup world now s userId recurringGroupId hcalm huser hreferral
  have hplayed {P : Except Err (List Booking) → Store → Prop} : (∀ r k v s',
      (BookingService.confirmGroup recurringGroupId userId).play world 0 none s = (r, k, v, s') → P r s') ↔ P r s' := by
    constructor
    · exact fun h => h _ _ _ _ hplay
    · intro h r' k' v' s'' hplay'
      obtain ⟨rfl, -, -, rfl⟩ := by simpa using hplay.symm.trans hplay'
      exact h
  refine hplayed.trans ?_
  rcases hswept with hnone | hswept
  · simp [hnone, OneRun]
  · constructor
    · intro hwhole
      exact hswept.oneRun (fun b hb => (mem_sessions hb).1) (sessions_pairwise _ _)
        (hwhole.imp_right fun hsame => hsame.2.1)
    · intro hrun
      rcases hswept.of_oneRun (fun b hb => (mem_sessions hb).1) hrun with hall | ⟨herror, hsame, rfl⟩
      · exact .inl hall
      · exact .inr ⟨herror, hsame, rfl, rfl, rfl⟩

end group

/-- A session of a group. -/
def groupSession (id : Id) (status : BookingStatus) : Booking where
  id := id
  userId := 1
  businessId := 1
  branchId := 1
  staffMemberId := none
  serviceId := 1
  startTime := id * (7 * day)
  endTime := id * (7 * day) + hour
  status := status
  priceSnapshot := 0
  depositRequired := 0
  cancellationPolicySnapshot := { freeCancelHours := 0, feePercent := 0 }
  holdExpiresAt := some holdTtl
  recurringGroupId := some 1

theorem groupSession_pairwise (first second third : BookingStatus) :
    [groupSession 1 first, groupSession 2 second, groupSession 3 third].Pairwise
      fun r r' => Indexed.clash r r' = false := by
  simp [Indexed.clash, groupSession]

/-- A salon with a group of three sessions. -/
def salonWithGroup (first second third : BookingStatus) : Store := { salon with
  booking := ⟨_, groupSession_pairwise first second third⟩ }

/-- Nothing fails, and each call has identifiers of its own. -/
def quietDay (order : (n : ℕ) → Equiv.Perm (Fin n)) (k : ℕ) : Env := { now := 0, uuid := fun _ => k, order }

theorem quietDay_calm (order : (n : ℕ) → Equiv.Perm (Fin n)) (first second third : BookingStatus) :
    Calm (quietDay order) 0 0 (salonWithGroup first second third) :=
  ⟨fun _ => rfl, fun _ => rfl, fun _ _ h => Nat.succ.inj h,
    fun _ _ => ⟨fun _ ha => absurd ha List.not_mem_nil, fun _ hr => absurd hr List.not_mem_nil⟩⟩

/-- The last session comes first, and only the one that comes last is not open. -/
theorem confirmGroup_whole_backwards :
    LeavesNoHalf (quietDay fun _ => Fin.revPerm) 0 (salonWithGroup .cancelled .hold .hold) 1 1 :=
  (confirmGroup_whole (quietDay_calm _ .cancelled .hold .hold) ⟨_, List.mem_singleton.mpr rfl, rfl⟩
    fun _ hr => absurd hr List.not_mem_nil).mpr (.inl (by decide))

/-- The session in the middle has been cancelled: the first is confirmed, the last stays a HOLD, and the call
rejects. -/
theorem half_confirmed_group : ¬ ∀ world now s recurringGroupId userId, Calm world now 0 s →
    (∃ u ∈ s.user.rows, u.id = userId) → s.Introduced → LeavesNoHalf world now s recurringGroupId userId := by
  intro h
  have hwhole := h (quietDay fun n => .refl (Fin n)) 0 (salonWithGroup .hold .cancelled .hold) 1 1
    (quietDay_calm _ .hold .cancelled .hold)
    ⟨_, List.mem_singleton.mpr rfl, rfl⟩ (fun _ hr => absurd hr List.not_mem_nil) _ _ _ _ rfl
  rcases hwhole with hall | ⟨-, hsame, -⟩
  · have hlast := hall (groupSession 3 .hold) (by decide) (by decide)
    revert hlast
    unfold Store.InStatus
    decide +kernel
  · have hfirst := hsame (groupSession 1 .hold) (by decide)
    revert hfirst
    unfold Store.InStatus
    decide +kernel

end BookingPlatform
