import BookingPlatform.Holdings
import BookingPlatform.Lasting

/-! One callback, with nobody else at work: which rows it touches, and what a second one finds. -/
namespace BookingPlatform
open Async Data Prog

/-- No row changes but those that are `mine`. -/
def Confined {T : Type} [Indexed T] (mine : T → Prop) (t t' : Table T) : Prop :=
  ∀ r, ¬ mine r → (r ∈ t'.rows ↔ r ∈ t.rows)

section confined
variable {T : Type} [Indexed T] {mine : T → Prop} {t t' t'' : Table T} {p : T → Bool} {f : T → T} {r : T}

theorem Confined.refl (t : Table T) : Confined mine t t := fun _ _ => Iff.rfl

theorem Confined.trans (h : Confined mine t t') (h' : Confined mine t' t'') : Confined mine t t'' :=
  fun r hr => (h' r hr).trans (h r hr)

theorem Confined.mono {mine' : T → Prop} (h : Confined mine t t') (hm : ∀ r, mine r → mine' r) : Confined mine' t t' :=
  fun r hr => h r fun hmine => hr (hm r hmine)

theorem Confined.insert (h : t.insert r = some t') (hr : mine r) : Confined mine t t' := by
  intro r' hr'
  rw [Table.insert_rows h, List.mem_append, List.mem_singleton]
  constructor
  · rintro (hold | rfl)
    · exact hold
    · exact absurd hr hr'
  · exact Or.inl

theorem Confined.update (hf : Table.Keeps f) (h : ∀ r ∈ t.rows, p r = true → mine r ∧ mine (f r)) :
    Confined mine t (t.update p f hf) := by
  intro r hr
  rw [Table.mem_update]
  constructor
  · rintro ⟨r', hr', rfl⟩
    by_cases hp : p r' = true
    · rw [if_pos hp] at hr
      exact absurd (h r' hr' hp).2 hr
    · rwa [if_neg hp]
  · intro hmem
    refine ⟨r, hmem, if_neg fun hp => hr (h r hmem hp).1⟩

end confined

/-! ### Points -/

/-- Points go to the accounts of these users only, and so does every new entry of the history. -/
structure Grants (who : Id → Prop) (s s' : Store) : Prop where
  rest : s' = { s with loyaltyAccount := s'.loyaltyAccount, loyaltyTransaction := s'.loyaltyTransaction }
  stays : Advance (fun a a' => a'.id = a.id ∧ a'.userId = a.userId) s.loyaltyAccount s'.loyaltyAccount
  accounts : Confined (fun a => who a.userId) s.loyaltyAccount s'.loyaltyAccount
  history : ∃ new, s'.loyaltyTransaction.rows = s.loyaltyTransaction.rows ++ new ∧
    ∀ r ∈ new, ∃ a ∈ s'.loyaltyAccount.rows, a.id = r.accountId ∧ who a.userId

section grants
variable {who who' : Id → Prop} {s s' s'' v : Store} {world : ℕ → Env} {k k' : ℕ} {w : Option Store} {userId : Id}

theorem Grants.refl (s : Store) : Grants who s s :=
  ⟨rfl, .refl (fun _ => ⟨rfl, rfl⟩) _, .refl _, [], by simp, by simp⟩

theorem Grants.trans (h : Grants who s s') (h' : Grants who s' s'') : Grants who s s'' := by
  obtain ⟨new, hrows, howner⟩ := h.history
  obtain ⟨new', hrows', howner'⟩ := h'.history
  refine ⟨?_, h.stays.trans ?_ h'.stays, h.accounts.trans h'.accounts, new ++ new', ?_, ?_⟩
  · rw [h'.rest, h.rest]
  · rintro a a' a'' ⟨hid, huser⟩ ⟨hid', huser'⟩
    exact ⟨hid'.trans hid, huser'.trans huser⟩
  · rw [hrows', hrows, List.append_assoc]
  · intro r hr
    rcases List.mem_append.mp hr with hr | hr
    · obtain ⟨a, ha, hid, hwho⟩ := howner r hr
      obtain ⟨a', ha', hid', huser⟩ := h'.stays a ha
      exact ⟨a', ha', hid'.trans hid, huser ▸ hwho⟩
    · exact howner' r hr

theorem Grants.mono (h : Grants who s s') (hwho : ∀ u, who u → who' u) : Grants who' s s' := by
  obtain ⟨new, hrows, howner⟩ := h.history
  refine ⟨h.rest, h.stays, h.accounts.mono fun _ => hwho _, new, hrows, fun r hr => ?_⟩
  obtain ⟨a, ha, hid, hw⟩ := howner r hr
  exact ⟨a, ha, hid, hwho _ hw⟩

/-- The account is written, and an entry of it added. -/
theorem Grants.write {account : LoyaltyAccount} {f : LoyaltyAccount → LoyaltyAccount} {row : LoyaltyTransaction}
    {t : Table LoyaltyTransaction} (hf : Table.Keeps f) (hmem : account ∈ s.loyaltyAccount.rows)
    (huser : account.userId = userId) (hkept : ∀ a, (f a).id = a.id ∧ (f a).userId = a.userId)
    (ht : s.loyaltyTransaction.insert row = some t) (hrow : row.accountId = account.id) :
    Grants (· = userId) s { s with
      loyaltyAccount := s.loyaltyAccount.update (fun r => r.userId == userId) f hf, loyaltyTransaction := t } := by
  refine ⟨rfl, .map (fun _ => ⟨rfl, rfl⟩) hkept (Table.update_rows hf), .update hf ?_, [row], Table.insert_rows ht, ?_⟩
  · intro a _ ha
    have hmine : a.userId = userId := beq_iff_eq.mp ha
    exact ⟨hmine, (hkept a).2.trans hmine⟩
  · intro r hr
    obtain rfl := List.mem_singleton.mp hr
    refine ⟨f account, (Table.mem_update hf).mpr ⟨account, hmem, if_pos (beq_iff_eq.mpr huser)⟩, ?_, ?_⟩
    · exact (hkept account).1.trans hrow.symm
    · exact (hkept account).2.trans huser

theorem addPoints_played {points : ℤ} {reason : String} {referenceId : Option Id}
    (h : (LoyaltyService.addPoints userId points reason referenceId).play world k (some v) s =
      (.ok (), k', w, s')) : ∃ v', w = some v' ∧ s' = s ∧ Grants (· = userId) v v' := by
  obtain ⟨account, v₁, hupsert, h⟩ := of_play_tx h
  rw [play_mark_bind] at h
  obtain ⟨_, v₂, hupdate, h⟩ := of_play_tx h
  obtain ⟨_, v₃, hcreate, h⟩ := of_play_tx h
  obtain ⟨-, rfl, rfl⟩ := by simpa using h
  obtain ⟨-, rfl⟩ := update_ok hupdate
  obtain ⟨rfl, hput⟩ := create_ok hcreate
  obtain ⟨-, t, ht, rfl⟩ := put_ok hput
  obtain ⟨hopened, hmem, huser⟩ : Grants (· = userId) v v₁ ∧ account ∈ v₁.loyaltyAccount.rows ∧
      account.userId = userId := by
    rcases upsert_ok hupsert with ⟨hmem, hp, rfl⟩ | ⟨-, rfl, hput⟩
    · exact ⟨.refl _, hmem, beq_iff_eq.mp hp⟩
    · obtain ⟨-, t₁, ht₁, rfl⟩ := put_ok hput
      have hrows : t₁.rows = _ := Table.insert_rows ht₁
      refine ⟨⟨rfl, .insert (fun _ => ⟨rfl, rfl⟩) ht₁, .insert ht₁ rfl, [], by simp [Model.set], by simp⟩, ?_, rfl⟩
      change _ ∈ t₁.rows
      rw [hrows]
      exact List.mem_append_right _ (List.mem_singleton.mpr rfl)
  exact ⟨_, rfl, rfl, hopened.trans (.write (by intro _ _; rfl) hmem huser (fun _ => ⟨rfl, rfl⟩) ht rfl)⟩

/-- The users whose accounts gain when this one buys: the user and the one who referred them. -/
def Store.Gains (s : Store) (userId u : Id) : Prop :=
  u = userId ∨ s.Referrer userId u

/-- What the rewards of a purchase change. -/
structure Rewards (userId : Id) (s s' : Store) : Prop where
  grants : Grants (s.Gains userId) s { s' with referral := s.referral }
  referral : Confined (fun r => r.refereeId = userId) s.referral s'.referral

theorem earnFromPurchase_played {amount : Money} {reason : String}
    (h : (LoyaltyService.earnFromPurchase userId amount reason).play world k (some v) s = (.ok (), k', w, s')) :
    ∃ v', w = some v' ∧ s' = s ∧ Grants (· = userId) v v' := by
  unfold LoyaltyService.earnFromPurchase at h
  simp only at h
  split at h
  · obtain ⟨-, rfl, rfl⟩ := by simpa using h
    exact ⟨v, rfl, rfl, .refl v⟩
  · exact addPoints_played h

theorem rewardIfEligible_played
    (h : (ReferralService.rewardIfEligible userId).play world k (some v) s = (.ok (), k', w, s')) :
    ∃ v', w = some v' ∧ s' = s ∧ Rewards userId v v' := by
  have hsame : Rewards userId v v := ⟨.refl v, .refl _⟩
  replace h := of_play_query_tx h
  split at h
  · obtain ⟨-, rfl, rfl⟩ := by simpa using h
    exact ⟨v, rfl, rfl, hsame⟩
  · rename_i referral hfound
    obtain ⟨hmem, hreferee⟩ := findUnique_some hfound
    replace hreferee : referral.refereeId = userId := beq_iff_eq.mp hreferee
    split at h
    · obtain ⟨-, rfl, rfl⟩ := by simpa using h
      exact ⟨v, rfl, rfl, hsame⟩
    · rw [play_mark_bind] at h
      obtain ⟨_, k₁, _, _, hfirst, hrest⟩ := of_play_bind h
      obtain ⟨v₁, rfl, rfl, hreferrer⟩ := addPoints_played hfirst
      obtain ⟨_, k₂, _, _, hsecond, hlast⟩ := of_play_bind hrest
      obtain ⟨v₂, rfl, rfl, huser⟩ := addPoints_played hsecond
      rw [clock, play_look_tx_step] at hlast
      obtain ⟨_, v₃, hupdate, hend⟩ := of_play_tx hlast
      obtain ⟨-, rfl, rfl⟩ := by simpa using hend
      obtain ⟨-, rfl⟩ := update_ok hupdate
      refine ⟨_, rfl, rfl, ?_, ?_⟩
      · have hgrants : Grants (v.Gains userId) v v₂ := by
          apply (hreferrer.mono _).trans (huser.mono _)
          · rintro u rfl
            exact .inr ⟨referral, hmem, hreferee, rfl⟩
          · rintro u rfl
            exact .inl hreferee
        refine ⟨?_, hgrants.stays, hgrants.accounts, hgrants.history⟩
        rw [hgrants.rest]
        rfl
      · have hreferrals : v₂.referral = v.referral := by rw [huser.rest, hreferrer.rest]
        rw [← hreferrals]
        refine Confined.update (by intro _ _; rfl) fun r hr hid => ?_
        rw [hreferrals] at hr
        obtain rfl : r = referral := Table.eq_of_clash hr hmem (by simp [Indexed.clash, beq_iff_eq.mp hid])
        exact ⟨hreferee, hreferee⟩

theorem awardPostPurchaseRewards_played {amount : Money}
    (h : (BookingService.awardPostPurchaseRewards userId amount).play world k (some v) s = (.ok (), k', w, s')) :
    ∃ v', w = some v' ∧ s' = s ∧ Rewards userId v v' := by
  obtain ⟨_, k₁, _, _, hearn, hrest⟩ := of_play_bind h
  obtain ⟨v₁, rfl, rfl, hearned⟩ := earnFromPurchase_played hearn
  obtain ⟨v', rfl, rfl, hrewards⟩ := rewardIfEligible_played hrest
  have hreferral : v₁.referral = v.referral := by rw [hearned.rest]
  have hgains : ∀ u, v₁.Gains userId u → v.Gains userId u := by
    intro u hu
    rwa [Store.Gains, Store.Referrer, ← hreferral]
  have hgrants := (hearned.mono fun u hu => Or.inl hu).trans (hrewards.grants.mono hgains)
  refine ⟨v', rfl, rfl, ?_, ?_⟩
  · rw [hreferral] at hgrants
    exact hgrants
  · rw [← hreferral]
    exact hrewards.referral

end grants

/-! ### What a callback touches -/

/-- What a payment is good for: its amount on the wallet of its user, or its booking and the rewards. -/
inductive Settled (p : Payment) (s : Store) : Store → Prop
  | nothing : Settled p s s
  | credited (wallet : Table Wallet) (ledger : Table WalletTransaction) (row : WalletTransaction) :
      p.type = .walletTopup → Confined (fun w => w.userId = p.userId) s.wallet wallet →
      s.walletTransaction.insert row = some ledger → row.referenceId = some p.id → row.amount = p.amount →
      Settled p s { s with wallet, walletTransaction := ledger }
  | confirmed (booking : Table Booking) (s' : Store) : p.type ≠ .walletTopup →
      Confined (fun b => p.bookingId = some b.id) s.booking booking → Rewards p.userId { s with booking } s' →
      Settled p s s'

/-- The call changes nothing, or it changes the one payment that the gateway has under this reference, and
the rest of the database only if that payment becomes SUCCESS and as it is good for. -/
inductive Touches (gatewayName : GatewayName) (gatewayRefId : Option Id) (s : Store) : Store → Prop
  | nothing : Touches gatewayName gatewayRefId s s
  | payment (p : Payment) (ref : Id) (payment : Table Payment) (session : Table Session) (s' : Store) :
      gatewayRefId = some ref → p ∈ s.payment.rows → p.gateway = gatewayName → p.gatewayRefId = some ref →
      Confined (fun q => q.id = p.id) s.payment payment → Confined (fun r => r.id = ref) s.session session →
      s' = { s with payment, session } ∨ ((∃ q ∈ payment.rows, q.id = p.id ∧ q.status = .success) ∧
        Settled p { s with payment, session } s') → Touches gatewayName gatewayRefId s s'

section callback
variable {s s' v : Store} {world : ℕ → Env} {k k' : ℕ} {w : Option Store} {payment : Payment}
  {gatewayName : GatewayName} {gatewayRefId : Option Id}

theorem creditWallet_played (htype : payment.type = .walletTopup)
    (h : (PaymentService.creditWallet payment).play world k (some v) s = (.ok (), k', w, s')) :
    ∃ v', w = some v' ∧ s' = s ∧ Settled payment v v' := by
  have hfound := of_play_query_tx h
  split at hfound
  · obtain ⟨-, rfl, rfl⟩ := by simpa using hfound
    exact ⟨v, rfl, rfl, .nothing⟩
  · rw [play_mark_bind] at hfound
    obtain ⟨_, v₁, hupdate, hrest⟩ := of_play_tx hfound
    obtain ⟨_, v₂, hcreate, hend⟩ := of_play_tx hrest
    obtain ⟨-, rfl, rfl⟩ := by simpa using hend
    obtain ⟨-, rfl⟩ := update_ok hupdate
    obtain ⟨rfl, hput⟩ := create_ok hcreate
    obtain ⟨-, t, ht, rfl⟩ := put_ok hput
    refine ⟨_, rfl, rfl, .credited _ t _ htype (.update (by intro _ _; rfl) ?_) ht rfl rfl⟩
    intro r _ hr
    exact ⟨beq_iff_eq.mp hr, beq_iff_eq.mp hr⟩

theorem confirmBooking_played {bookingId : Id} (htype : payment.type ≠ .walletTopup)
    (hbooking : payment.bookingId = some bookingId)
    (h : (PaymentService.confirmBooking payment bookingId).play world k (some v) s = (.ok (), k', w, s')) :
    ∃ v', w = some v' ∧ s' = s ∧ Settled payment v v' := by
  have hfound := of_play_query_tx h
  split at hfound
  · obtain ⟨-, rfl, rfl⟩ := by simpa using hfound
    exact ⟨v, rfl, rfl, .nothing⟩
  · rw [play_mark_bind] at hfound
    obtain ⟨_, v₁, hupdate, hrest⟩ := of_play_tx hfound
    obtain ⟨-, rfl⟩ := update_ok hupdate
    obtain ⟨v', rfl, rfl, hrewards⟩ := awardPostPurchaseRewards_played hrest
    refine ⟨v', rfl, rfl, .confirmed _ v' htype (.update (by intro _ _; rfl) ?_) hrewards⟩
    intro r _ hr
    have hsame : payment.bookingId = some r.id := hbooking.trans (congrArg some (beq_iff_eq.mp hr).symm)
    exact ⟨hsame, hsame⟩

theorem settle_played
    (h : (PaymentService.settle payment).play world k (some v) s = (.ok (), k', w, s')) :
    ∃ v', w = some v' ∧ s' = s ∧ Settled payment v v' := by
  unfold PaymentService.settle at h
  split at h
  · rename_i htype
    exact creditWallet_played htype h
  · rename_i htype
    split at h
    · rename_i bookingId hbooking
      exact confirmBooking_played htype (truthyId_eq_some.mp hbooking).1 h
    · obtain ⟨-, rfl, rfl⟩ := by simpa using h
      exact ⟨v, rfl, rfl, .nothing⟩

/-- Using a session up changes no key of its row. -/
theorem used_keeps : Data.Table.Keeps fun r : Session => { r with used := true } := by
  intro _ _
  rfl

/-- The session is used up. -/
def Store.spend (s : Store) (ref : Id) : Store := { s with
  session := s.session.update (fun r => r.id == ref) (fun r => { r with used := true }) used_keeps }

/-- The gateway has a session of this amount under the reference, which nobody has verified. -/
def Store.Payable (s : Store) (ref : Id) (amount : Money) : Prop :=
  ∃ r ∈ s.session.rows, r.id = ref ∧ r.used = false ∧ r.amount = amount

/-- A verification succeeds exactly for a session of that amount that is not used up. -/
theorem verifyStmt_cases {ref : Option Id} {amount : Money} {g : Env} :
    (∃ id, ref = some id ∧ s.Payable id amount ∧
      MockPaymentGateway.verifyStmt ref amount g s = .ok (⟨true, none⟩, s.spend id)) ∨
    ((∀ id, ref = some id → ¬ s.Payable id amount) ∧
      ∃ reason, MockPaymentGateway.verifyStmt ref amount g s = .ok (⟨false, some reason⟩, s)) := by
  unfold MockPaymentGateway.verifyStmt
  cases hfound : s.session.rows.find? fun r => some r.id == ref with
  | none =>
    refine .inr ⟨?_, _, rfl⟩
    rintro id rfl ⟨r, hr, hid, -⟩
    have := List.find?_eq_none.mp hfound r hr
    simp [hid] at this
  | some session =>
    have hmem := List.mem_of_find?_eq_some hfound
    have href : some session.id = ref := beq_iff_eq.mp (List.find?_some (p := fun r : Session => some r.id == ref) hfound)
    have hsame {id : Id} {r : Session} (hid : ref = some id) (hr : r ∈ s.session.rows) (hrid : r.id = id) :
        r = session := by
      have hsession : session.id = id := Option.some.inj (href.trans hid)
      exact Table.eq_of_clash hr hmem (by simp [Indexed.clash, hrid, hsession])
    by_cases hused : session.used = true
    · refine .inr ⟨?_, _, by simp [hused]; rfl⟩
      rintro id hid ⟨r, hr, hrid, hunused, -⟩
      rw [hsame hid hr hrid, hused] at hunused
      cases hunused
    · by_cases hamount : session.amount = amount
      · refine .inl ⟨session.id, href.symm, ⟨session, hmem, rfl, by simpa using hused, hamount⟩, ?_⟩
        simp [hused, hamount, Store.spend]
      · refine .inr ⟨?_, _, by simp [hused, hamount]; rfl⟩
        rintro id hid ⟨r, hr, hrid, -, hsum⟩
        rw [hsame hid hr hrid] at hsum
        exact hamount hsum

/-- The filter of a callback's lookup. -/
def Payment.isOf (gatewayName : GatewayName) (gatewayRefId : Option Id) (r : Payment) : Bool :=
  gatewayRefId.all (fun ref => r.gatewayRefId == some ref) && r.gateway == gatewayName

/-- The lookup of a callback is answered with this payment, which is INITIATED. -/
def Finds (world : ℕ → Env) (gatewayName : GatewayName) (gatewayRefId : Option Id) (s : Store)
    (p : Payment) : Prop :=
  (world 0).down = false ∧ findFirst (Payment.isOf gatewayName gatewayRefId) (world 0) s = some p ∧
    p.status = .initiated

/-- Marking a payment SUCCESS changes no key of its row. -/
theorem succeeded_keeps (now : Time) : Data.Table.Keeps fun r : Payment =>
    { r with status := .success, callbackVerifiedAt := some now } := by
  intro _ _
  rfl

/-- Marking a payment FAILED changes no key of its row. -/
theorem failed_keeps (verification : VerifyResult) : Data.Table.Keeps fun r : Payment =>
    { r with status := .failed, failureReason := verification.failureReason } := by
  intro _ _
  rfl

/-- The finalising transaction. -/
def accept (payment : Payment) : Task CallbackResult := do
  let now ← clock
  let _ ← tx (update (fun r : Payment => r.id == payment.id)
    (fun r => { r with status := .success, callbackVerifiedAt := some now }) (succeeded_keeps now))
  PaymentService.settle payment
  return { alreadyProcessed := false, status := .success }

/-- What a callback does once the gateway has answered. -/
def finish (payment : Payment) (gatewayRefId : Option Id) (verification : VerifyResult) : Task CallbackResult :=
  match verification.verified, gatewayRefId with
  | true, some ref => do
    mark (.finalising payment.id ref)
    transaction (accept payment)
  | _, _ => do
    let _ ← prisma (update (fun r : Payment => r.id == payment.id)
      (fun r => { r with status := .failed, failureReason := verification.failureReason })
      (failed_keeps verification))
    return { alreadyProcessed := false, status := .failed }

theorem play_handleCallback (h : Finds world gatewayName gatewayRefId s payment) :
    (PaymentService.handleCallback gatewayName gatewayRefId).play world 0 none s =
      match attempt (MockPaymentGateway.verifyStmt gatewayRefId payment.amount) (world 1) s with
      | .ok (verification, s₁) => (finish payment gatewayRefId verification).play world 2 none s₁
      | .error e => (.error e, 2, none, s) := by
  obtain ⟨hup, hfound, hinit⟩ := h
  unfold Payment.isOf at hfound
  rw [PaymentService.handleCallback, play_query_step, if_neg (by simp [hup]), hfound, play_orThrow_bind]
  simp only [hinit, ne_eq, not_true_eq_false, if_false]
  rw [play_mark_bind, MockPaymentGateway.verify, play_op_bind]
  cases attempt (MockPaymentGateway.verifyStmt gatewayRefId payment.amount) (world (0 + 1)) s <;> rfl

/-- Without such a payment nothing happens. -/
theorem play_handleCallback_idle (h : ∀ p, ¬ Finds world gatewayName gatewayRefId s p) :
    ((PaymentService.handleCallback gatewayName gatewayRefId).play world 0 none s).2.2.2 = s := by
  rw [PaymentService.handleCallback, play_query_step]
  split
  · rfl
  · rename_i hup
    rw [play_orThrow_bind]
    split
    · rename_i p hfound
      split
      · rfl
      · rename_i hinit
        exact absurd ⟨by simpa using hup, hfound, by simpa using hinit⟩ (h p)
    · rfl

/-- The payment is marked FAILED. -/
def Store.fail (s : Store) (id : Id) (reason : Option String) : Store := { s with
  payment := s.payment.update (fun r => r.id == id)
    (fun r => { r with status := .failed, failureReason := reason }) (by intro _ _; rfl) }

/-- The payment is marked SUCCESS. -/
def Store.succeed (s : Store) (id : Id) (now : Time) : Store := { s with
  payment := s.payment.update (fun r => r.id == id)
    (fun r => { r with status := .success, callbackVerifiedAt := some now }) (by intro _ _; rfl) }

theorem play_finish_refused {reason : Option String} (hmem : payment ∈ s.payment.rows) :
    (finish payment gatewayRefId ⟨false, reason⟩).play world k none s =
      if (world k).down then (.error .unavailable, k + 1, none, s)
      else (.ok { alreadyProcessed := false, status := .failed }, k + 1, none, s.fail payment.id reason) := by
  have hupdate : update (fun r : Payment => r.id == payment.id)
      (fun r => { r with status := .failed, failureReason := reason }) (by intro _ _; rfl) (world k) s =
      .ok ({ payment with status := .failed, failureReason := reason }, s.fail payment.id reason) :=
    update_of_mem hmem (by simp) fun r hr => by simpa [Indexed.clash] using hr
  change (prisma _ >>= fun _ => pure _).play world k none s = _
  rw [play_prisma_step]
  cases hdown : (world k).down with
  | true => simp [attempt, hdown]
  | false =>
    simp only [attempt, hdown, Bool.false_eq_true, if_false, hupdate]
    rfl

/-- When the gateway has verified the payment, all takes effect or nothing does. -/
theorem finish_verified {ref : Id} {reason : Option String} {r : Except Err CallbackResult}
    (h : (finish payment (some ref) ⟨true, reason⟩).play world k none s = (r, k', w, s')) :
    ((∃ e, r = .error e) ∧ s' = s) ∨ ∃ now, r = .ok { alreadyProcessed := false, status := .success } ∧
      Settled payment (s.succeed payment.id now) s' := by
  have hbody : Within (fun _ _ : Store => True) (fun _ : Note => True) false (accept payment) :=
    .bind (within_look (fun _ => trivial) _) fun _ => .bind (within_tx fun _ _ _ _ _ => trivial) fun _ =>
      .bind (settle_within (fun _ => trivial) (fun _ => trivial) (May.grows fun _ _ => trivial)
        (fun _ _ => trivial) (fun _ _ => trivial) (May.grows fun _ _ => trivial) (fun _ _ => trivial)
        (fun _ _ => trivial) _) fun _ => .pure _
  obtain ⟨v, hopen, -⟩ : ∃ v, ((accept payment).play world (k + 1) (some s) s).2.2 = (some v, s) ∧ True :=
    play_fragment hbody (fun _ => trivial) fun _ _ _ _ _ => trivial
  change (transaction (accept payment)).play world k none s = _ at h
  rcases hplay : (accept payment).play world (k + 1) (some s) s with ⟨r₁, k₁, v₁, s₁⟩
  rw [hplay] at hopen
  obtain ⟨rfl, rfl⟩ : v₁ = some v ∧ s₁ = s := by simpa using hopen
  cases r₁ with
  | error e =>
    rw [transaction, play_transaction_error hplay] at h
    obtain ⟨rfl, -, -, rfl⟩ := by simpa using h
    exact .inl ⟨⟨e, rfl⟩, rfl⟩
  | ok a =>
    rw [transaction, play_transaction_commit hplay] at h
    cases hdown : (world k₁).down with
    | true =>
      obtain ⟨rfl, -, -, rfl⟩ := by simpa [hdown] using h
      exact .inl ⟨⟨_, rfl⟩, rfl⟩
    | false =>
      obtain ⟨rfl, -, -, rfl⟩ := by simpa [hdown] using h
      rw [accept, clock, play_look_tx_step] at hplay
      obtain ⟨_, v₁, hupdate, hrest⟩ := of_play_tx hplay
      obtain ⟨-, rfl⟩ := update_ok hupdate
      obtain ⟨_, k₂, _, _, hsettle, hend⟩ := of_play_bind hrest
      obtain ⟨v', rfl, rfl, hsettled⟩ := settle_played hsettle
      obtain ⟨rfl, -, rfl, -⟩ := by simpa using hend
      exact .inr ⟨(world (k + 1)).now, rfl, hsettled⟩

/-- Without a reference, the lookup is answered with an INITIATED payment, and no call fails. -/
def Strays (world : ℕ → Env) (gatewayName : GatewayName) (s : Store) : Prop :=
  (world 1).down = false ∧ (world 2).down = false ∧ ∃ p, Finds world gatewayName none s p

theorem Finds.mem (h : Finds world gatewayName gatewayRefId s payment) : payment ∈ s.payment.rows ∧
    payment.gateway = gatewayName ∧ ∀ ref, gatewayRefId = some ref → payment.gatewayRefId = some ref := by
  obtain ⟨-, hfound, -⟩ := h
  obtain ⟨hmem, hof⟩ := findFirst_some hfound
  simp only [Payment.isOf, Bool.and_eq_true, beq_iff_eq] at hof
  refine ⟨hmem, hof.2, ?_⟩
  rintro ref rfl
  simpa using hof.1

theorem play_verify (h : Finds world gatewayName gatewayRefId s payment) (hup : (world 1).down = false) :
    (∃ ref, gatewayRefId = some ref ∧ s.Payable ref payment.amount ∧
      (PaymentService.handleCallback gatewayName gatewayRefId).play world 0 none s =
        (finish payment gatewayRefId ⟨true, none⟩).play world 2 none (s.spend ref)) ∨
    ((∀ ref, gatewayRefId = some ref → ¬ s.Payable ref payment.amount) ∧ ∃ reason,
      (PaymentService.handleCallback gatewayName gatewayRefId).play world 0 none s =
        (finish payment gatewayRefId ⟨false, some reason⟩).play world 2 none s) := by
  rw [play_handleCallback h]
  rcases verifyStmt_cases (s := s) (g := world 1)  with
    ⟨ref, href, hpayable, hverify⟩ | ⟨hnot, reason, hverify⟩
  · refine .inl ⟨ref, href, hpayable, ?_⟩
    simp [attempt, hup, hverify]
  · refine .inr ⟨hnot, reason, ?_⟩
    simp [attempt, hup, hverify]

/-- The new status of a payment touches this payment only. -/
theorem fail_confined (s : Store) (id : Id) (reason : Option String) :
    Confined (fun q => q.id = id) s.payment (s.fail id reason).payment := by
  refine .update (by intro _ _; rfl) ?_
  intro q _ hq
  exact ⟨beq_iff_eq.mp hq, beq_iff_eq.mp hq⟩

theorem succeed_confined (s : Store) (id : Id) (now : Time) :
    Confined (fun q => q.id = id) s.payment (s.succeed id now).payment := by
  refine .update (by intro _ _; rfl) ?_
  intro q _ hq
  exact ⟨beq_iff_eq.mp hq, beq_iff_eq.mp hq⟩

theorem spend_confined (s : Store) (ref : Id) :
    Confined (fun r => r.id = ref) s.session (s.spend ref).session := by
  refine .update (by intro _ _; rfl) ?_
  intro r _ hr
  exact ⟨beq_iff_eq.mp hr, beq_iff_eq.mp hr⟩

/-- The payments with their statuses. -/
def Store.paymentStatuses (s : Store) : List (Id × PaymentStatus) := s.payment.rows.map fun q => (q.id, q.status)

theorem paymentStatuses_restate {id : Id} {next : PaymentStatus} {f : Payment → Payment} {hf : Table.Keeps f}
    (h : ∀ q, (f q).id = q.id ∧ (f q).status = next) :
    ({ s with payment := s.payment.update (fun r => r.id == id) f hf } : Store).paymentStatuses =
      s.paymentStatuses.map fun x => if x.1 = id then (x.1, next) else x := by
  unfold Store.paymentStatuses
  simp only [Table.update_rows, List.map_map]
  apply List.map_congr_left
  intro q _
  by_cases hid : q.id = id
  · simp [hid, h]
  · simp [hid]

theorem paymentStatuses_fail (s : Store) (id : Id) (reason : Option String) :
    (s.fail id reason).paymentStatuses = s.paymentStatuses.map fun x => if x.1 = id then (x.1, .failed) else x :=
  paymentStatuses_restate fun _ => ⟨rfl, rfl⟩

theorem paymentStatuses_succeed (s : Store) (id : Id) (now : Time) :
    (s.succeed id now).paymentStatuses = s.paymentStatuses.map fun x => if x.1 = id then (x.1, .success) else x :=
  paymentStatuses_restate fun _ => ⟨rfl, rfl⟩

theorem mem_paymentStatuses {id : Id} {status : PaymentStatus} :
    (id, status) ∈ s.paymentStatuses ↔ ∃ q ∈ s.payment.rows, q.id = id ∧ q.status = status := by
  simp [Store.paymentStatuses]

/-- A payment has one status. -/
theorem paymentStatus_eq {status : PaymentStatus} (hmem : payment ∈ s.payment.rows)
    (h : (payment.id, status) ∈ s.paymentStatuses) : status = payment.status := by
  obtain ⟨q, hq, hid, rfl⟩ := mem_paymentStatuses.mp h
  obtain rfl : q = payment := Table.eq_of_clash hq hmem (by simp [Indexed.clash, hid])
  rfl

/-- Once restated, a payment has the new status only. -/
theorem mem_restated {id : Id} {next status : PaymentStatus} {l : List (Id × PaymentStatus)} :
    (id, status) ∈ l.map (fun x => if x.1 = id then (x.1, next) else x) ↔
      status = next ∧ ∃ old, (id, old) ∈ l := by
  constructor
  · intro h
    obtain ⟨⟨id', old⟩, hmem, heq⟩ := List.mem_map.mp h
    by_cases hid : id' = id
    · subst hid
      simp only [if_true, Prod.mk.injEq, true_and] at heq
      exact ⟨heq.symm, old, hmem⟩
    · simp only [hid, if_false, Prod.mk.injEq, false_and] at heq
  · rintro ⟨rfl, old, hmem⟩
    exact List.mem_map.mpr ⟨(id, old), hmem, by simp⟩

theorem touches_of_ref {ref : Id} (href : gatewayRefId = some ref) : Touches gatewayName gatewayRefId s
    ((PaymentService.handleCallback gatewayName gatewayRefId).play world 0 none s).2.2.2 := by
  by_cases hfinds : ∃ p, Finds world gatewayName gatewayRefId s p
  · obtain ⟨p, hp⟩ := hfinds
    obtain ⟨hmem, hgateway, hrefs⟩ := hp.mem
    cases hdown : (world 1).down with
    | true =>
      rw [play_handleCallback hp]
      simp only [attempt, hdown, if_true]
      exact .nothing
    | false =>
      rcases play_verify hp hdown with ⟨ref', href', -, hplay⟩ | ⟨-, reason, hplay⟩
      · obtain rfl : ref = ref' := Option.some.inj (href.symm.trans href')
        rw [hplay]
        subst href
        rcases hfinish : (finish p (some ref) ⟨true, none⟩).play world 2 none (s.spend ref) with ⟨r, k', w, s'⟩
        rcases finish_verified hfinish with ⟨-, hsame⟩ | ⟨now, -, hsettled⟩
        · exact .payment p ref s.payment _ s' rfl hmem hgateway (hrefs ref rfl) (.refl _) (spend_confined s ref)
            (.inl hsame)
        · have hsuccess : (p.id, .success) ∈ ((s.spend ref).succeed p.id now).paymentStatuses := by
            rw [paymentStatuses_succeed, mem_restated]
            exact ⟨rfl, p.status, mem_paymentStatuses.mpr ⟨p, hmem, rfl, rfl⟩⟩
          exact .payment p ref _ _ s' rfl hmem hgateway (hrefs ref rfl) (succeed_confined (s.spend ref) p.id now)
            (spend_confined s ref) (.inr ⟨mem_paymentStatuses.mp hsuccess, hsettled⟩)
      · rw [hplay, play_finish_refused hmem]
        split
        · exact .nothing
        · exact .payment p ref _ s.session _ href hmem hgateway (hrefs ref href) (fail_confined s p.id _) (.refl _)
            (.inl rfl)
  · rw [play_handleCallback_idle fun p hp => hfinds ⟨p, hp⟩]
    exact .nothing

/-- A callback touches only the payment of its reference, unless it comes without one and strays. -/
theorem callback_own_payment : Touches gatewayName gatewayRefId s
      ((PaymentService.handleCallback gatewayName gatewayRefId).play world 0 none s).2.2.2 ↔
    gatewayRefId ≠ none ∨ ¬ Strays world gatewayName s := by
  cases gatewayRefId with
  | some ref => exact iff_of_true (touches_of_ref rfl) (.inl (by simp))
  | none =>
    have hnothing {s' : Store} : Touches gatewayName none s s' ↔ s' = s := by
      constructor
      · intro h
        cases h with
        | nothing => rfl
        | payment p ref t t' s' href => cases href
      · rintro rfl
        exact .nothing
    rw [hnothing]
    simp only [ne_eq, not_true_eq_false, false_or]
    by_cases hfinds : ∃ p, Finds world gatewayName none s p
    · obtain ⟨p, hp⟩ := hfinds
      obtain ⟨hmem, -, -⟩ := hp.mem
      cases hverify : (world 1).down with
      | true =>
        rw [play_handleCallback hp]
        simp [attempt, hverify, Strays]
      | false =>
        rcases play_verify hp hverify with ⟨ref, href, -⟩ | ⟨-, reason, hplay⟩
        · cases href
        · rw [hplay, play_finish_refused hmem]
          cases hupdate : (world 2).down with
          | true => simp [Strays, hupdate]
          | false =>
            refine iff_of_false ?_ fun h => h ⟨hverify, hupdate, p, hp⟩
            intro hsame
            have hfailed : (p.id, .failed) ∈ (s.fail p.id (some reason)).paymentStatuses := by
              rw [paymentStatuses_fail, mem_restated]
              exact ⟨rfl, p.status, mem_paymentStatuses.mpr ⟨p, hmem, rfl, rfl⟩⟩
            replace hsame : s.fail p.id (some reason) = s := hsame
            rw [hsame] at hfailed
            have hinit := paymentStatus_eq hmem hfailed
            rw [hp.2.2] at hinit
            cases hinit
    · refine iff_of_true (play_handleCallback_idle fun p hp => hfinds ⟨p, hp⟩) ?_
      rintro ⟨-, -, hp⟩
      exact hfinds hp

end callback

/-- A user has begun to top up the wallet. -/
def openTopup : Store where
  user := .single { id := 1, phone := "09120000000", passwordHash := ⟨""⟩, fullName := "" }
  wallet := .single { id := 2, userId := 1 }
  payment := .single {
    id := 3, userId := 1, type := .walletTopup, amount := 1000000, gateway := .mock, gatewayRefId := some 4 }
  session := .single { id := 4, amount := 1000000 }

/-- A callback without a reference fails the payment of somebody who is about to pay. -/
theorem stray_callback : ¬ Touches .mock none openTopup
    ((PaymentService.handleCallback .mock none).play (fun _ => .after 10) 0 none openTopup).2.2.2 := by
  have hfailed : ((PaymentService.handleCallback .mock none).play (fun _ => .after 10) 0 none
      openTopup).2.2.2.paymentStatuses = [(3, .failed)] := by decide +kernel
  have hbefore : openTopup.paymentStatuses = [(3, .initiated)] := by decide +kernel
  intro h
  generalize ((PaymentService.handleCallback .mock none).play (fun _ => .after 10) 0 none openTopup).2.2.2 = s
    at h hfailed
  cases h with
  | nothing =>
    rw [hbefore] at hfailed
    cases hfailed
  | payment p ref t t' s' href => cases href

/-! ### A second attempt -/

/-- The same payment statuses, wallets, ledger and booking statuses. -/
structure SameOutcome (s s' : Store) : Prop where
  payments : s.paymentStatuses = s'.paymentStatuses
  wallets : s.wallet.rows = s'.wallet.rows
  ledger : s.walletTransaction.rows = s'.walletTransaction.rows
  bookings : s.booking.rows.map (fun b => (b.id, b.status)) = s'.booking.rows.map fun b => (b.id, b.status)

section retry
variable {s s₁ s' : Store} {world world' : ℕ → Env} {k : ℕ} {w : Option Store} {payment p : Payment}
  {gatewayName : GatewayName} {ref : Id} {e : Err}

theorem Settled.payment_eq (h : Settled p s s') : s'.payment = s.payment := by
  cases h with
  | nothing => rfl
  | credited => rfl
  | confirmed booking s' _ _ hrewards =>
    have hrest := congrArg Store.payment hrewards.grants.rest
    exact hrest

/-- A reference is verified once. -/
theorem not_payable_spend {amount : Money} : ¬ (s.spend ref).Payable ref amount := by
  rintro ⟨r, hr, hid, hunused, -⟩
  obtain ⟨r₀, hr₀, rfl⟩ := (Table.mem_update (by intro _ _; rfl)).mp hr
  by_cases hp : (r₀.id == ref) = true
  · rw [if_pos hp] at hunused
    cases hunused
  · rw [if_neg hp] at hid
    exact hp (beq_iff_eq.mpr hid)

theorem Store.Payable.same {amount amount' : Money} (h : s.Payable ref amount) (h' : s.Payable ref amount') :
    amount = amount' := by
  obtain ⟨r, hr, hid, -, rfl⟩ := h
  obtain ⟨r', hr', hid', -, rfl⟩ := h'
  obtain rfl : r = r' := Table.eq_of_clash hr hr' (by simp [Indexed.clash, hid, hid'])
  rfl

/-- A callback whose transaction fails has used up the reference, and nothing else. -/
theorem failed_callback (hfinds : Finds world gatewayName (some ref) s p) (hpayable : s.Payable ref p.amount)
    (hup : (world 1).down = false)
    (hfailed : (PaymentService.handleCallback gatewayName (some ref)).play world 0 none s = (.error e, k, w, s₁)) :
    s₁ = s.spend ref := by
  rcases play_verify hfinds hup with ⟨ref', href, -, hplay⟩ | ⟨hnot, -⟩
  · obtain rfl : ref = ref' := Option.some.inj href
    rw [hplay] at hfailed
    rcases finish_verified hfailed with ⟨-, hsame⟩ | ⟨now, hok, -⟩
    · exact hsame
    · cases hok
  · exact absurd hpayable (hnot ref rfl)

/-- A retry after a failed transaction ends as if nothing had failed if and only if the payment that it finds
under the reference is another one, of another amount, or is no longer INITIATED. -/
theorem callback_retry (hfinds : Finds world gatewayName (some ref) s p) (hpayable : s.Payable ref p.amount)
    (hup : (world 1).down = false)
    (hfailed : (PaymentService.handleCallback gatewayName (some ref)).play world 0 none s = (.error e, k, w, s₁))
    (hup' : ∀ k, (world' k).down = false) :
    SameOutcome ((PaymentService.handleCallback gatewayName (some ref)).play world' 0 none s₁).2.2.2
        ((PaymentService.handleCallback gatewayName (some ref)).play world' 0 none s).2.2.2 ↔
      ∀ q, Finds world' gatewayName (some ref) s q → q.amount ≠ p.amount := by
  obtain rfl := failed_callback hfinds hpayable hup hfailed
  by_cases hany : ∃ q, Finds world' gatewayName (some ref) s q
  · obtain ⟨q, hq⟩ := hany
    obtain ⟨hmem, -, -⟩ := hq.mem
    have honly {q' : Payment} (hq' : Finds world' gatewayName (some ref) s q') : q' = q :=
      Option.some.inj (hq'.2.1.symm.trans hq.2.1)
    have hagain : Finds world' gatewayName (some ref) (s.spend ref) q := hq
    -- The retry is refused by the gateway.
    obtain ⟨reason, hretry⟩ : ∃ reason, (PaymentService.handleCallback gatewayName (some ref)).play world' 0 none
        (s.spend ref) = (finish q (some ref) ⟨false, some reason⟩).play world' 2 none (s.spend ref) := by
      rcases play_verify hagain (hup' 1) with ⟨ref', href, hlive, -⟩ | ⟨-, reason, hplay⟩
      · obtain rfl : ref = ref' := Option.some.inj href
        exact absurd hlive not_payable_spend
      · exact ⟨reason, hplay⟩
    rw [hretry, play_finish_refused (s := s.spend ref) hmem, if_neg (by simp [hup'])]
    by_cases hamount : q.amount = p.amount
    · refine iff_of_false ?_ fun h => h q hq hamount
      rintro ⟨hpayments, -⟩
      have hrefused : (q.id, .failed) ∈ ((s.spend ref).fail q.id (some reason)).paymentStatuses := by
        rw [paymentStatuses_fail, mem_restated]
        exact ⟨rfl, q.status, mem_paymentStatuses.mpr ⟨q, hmem, rfl, rfl⟩⟩
      rcases play_verify hq (hup' 1) with ⟨ref', href, -, hclean⟩ | ⟨hnot, -⟩
      · obtain rfl : ref = ref' := Option.some.inj href
        rw [hclean] at hpayments
        rcases hfinish : (finish q (some ref) ⟨true, none⟩).play world' 2 none (s.spend ref) with ⟨r, k', w', s'⟩
        rw [hfinish] at hpayments
        replace hpayments : ((s.spend ref).fail q.id (some reason)).paymentStatuses = s'.paymentStatuses := hpayments
        rw [hpayments] at hrefused
        rcases finish_verified hfinish with ⟨-, rfl⟩ | ⟨now, -, hsettled⟩
        · have hinit := paymentStatus_eq (s := s.spend ref) hmem hrefused
          rw [hq.2.2] at hinit
          cases hinit
        · rw [Store.paymentStatuses, hsettled.payment_eq, ← Store.paymentStatuses, paymentStatuses_succeed,
            mem_restated] at hrefused
          cases hrefused.1
      · exact hnot ref rfl (hamount ▸ hpayable)
    · refine iff_of_true ?_ fun q' hq' => honly hq' ▸ hamount
      rcases play_verify hq (hup' 1) with ⟨ref', href, hlive, -⟩ | ⟨-, reason', hclean⟩
      · obtain rfl : ref = ref' := Option.some.inj href
        exact absurd (hlive.same hpayable) hamount
      · rw [hclean, play_finish_refused hmem, if_neg (by simp [hup'])]
        refine ⟨?_, rfl, rfl, rfl⟩
        exact (paymentStatuses_fail _ _ _).trans (paymentStatuses_fail _ _ _).symm
  · have hnone : ∀ q, ¬ Finds world' gatewayName (some ref) s q := fun q hq => hany ⟨q, hq⟩
    refine iff_of_true ?_ fun q hq => absurd hq (hnone q)
    rw [play_handleCallback_idle hnone, play_handleCallback_idle (s := s.spend ref) hnone]
    exact ⟨rfl, rfl, rfl, rfl⟩

end retry

/-- The database fails in the transaction of the first callback. -/
def failingUpdate (k : ℕ) : Env := { Env.after 10 with down := k = 4 }

theorem openTopup_fails : ∃ e k w s₁, (PaymentService.handleCallback .mock (some 4)).play failingUpdate 0 none
    openTopup = (.error e, k, w, s₁) := by
  have hfailed : ((PaymentService.handleCallback .mock (some 4)).play failingUpdate 0 none
      openTopup).1.toOption.isNone = true := by decide +kernel
  rcases hplay : (PaymentService.handleCallback .mock (some 4)).play failingUpdate 0 none openTopup with ⟨r, k, w, s₁⟩
  rw [hplay] at hfailed
  cases r with
  | ok a => cases hfailed
  | error e => exact ⟨e, k, w, s₁, rfl⟩

/-- The retry of the top-up finds the same payment. -/
theorem callback_retry_topup : ∃ e k w s₁,
    (PaymentService.handleCallback .mock (some 4)).play failingUpdate 0 none openTopup = (.error e, k, w, s₁) ∧
    (SameOutcome ((PaymentService.handleCallback .mock (some 4)).play (fun _ => .after 20) 0 none s₁).2.2.2
        ((PaymentService.handleCallback .mock (some 4)).play (fun _ => .after 20) 0 none openTopup).2.2.2 ↔
      ∀ q, Finds (fun _ => .after 20) .mock (some 4) openTopup q → q.amount ≠ 1000000) := by
  obtain ⟨e, k, w, s₁, hfailed⟩ := openTopup_fails
  have hfinds : Finds failingUpdate .mock (some 4) openTopup {
      id := 3, userId := 1, type := .walletTopup, amount := 1000000, gateway := .mock, gatewayRefId := some 4 } :=
    ⟨rfl, by decide +kernel, rfl⟩
  exact ⟨e, k, w, s₁, hfailed, callback_retry hfinds ⟨_, List.mem_singleton.mpr rfl, rfl, rfl, rfl⟩ rfl hfailed
    fun _ => rfl⟩

/-- The retried top-up is FAILED, and would have been SUCCESS. -/
theorem retry_refused : openTopup.Payable 4 1000000 ∧ ∃ e k w s₁,
    (PaymentService.handleCallback .mock (some 4)).play failingUpdate 0 none openTopup = (.error e, k, w, s₁) ∧
    ¬ SameOutcome ((PaymentService.handleCallback .mock (some 4)).play (fun _ => .after 20) 0 none s₁).2.2.2
      ((PaymentService.handleCallback .mock (some 4)).play (fun _ => .after 20) 0 none openTopup).2.2.2 := by
  have hretried : ((PaymentService.handleCallback .mock (some 4)).play (fun _ => .after 20) 0 none
      ((PaymentService.handleCallback .mock (some 4)).play failingUpdate 0 none openTopup).2.2.2).2.2.2.paymentStatuses =
        [(3, .failed)] := by decide +kernel
  have hclean : ((PaymentService.handleCallback .mock (some 4)).play (fun _ => .after 20) 0 none
      openTopup).2.2.2.paymentStatuses = [(3, .success)] := by decide +kernel
  obtain ⟨e, k, w, s₁, hfailed⟩ := openTopup_fails
  refine ⟨⟨_, List.mem_singleton.mpr rfl, rfl, rfl, rfl⟩, e, k, w, s₁, hfailed, fun hsame => ?_⟩
  have hpayments := hsame.payments
  rw [hfailed] at hretried
  rw [hretried, hclean] at hpayments
  cases hpayments

end BookingPlatform
