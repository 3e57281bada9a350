import BookingPlatform.Sole

/-! What the database keeps of one user, and the writes that leave it alone. -/
namespace BookingPlatform
open Async Data

/-- The rows of one user. -/
structure Holdings where
  account : List User
  refreshTokens : List RefreshToken
  bookings : List Booking
  payments : List Payment
  wallets : List Wallet
  walletTransactions : List WalletTransaction
  couponUsages : List CouponUsage

namespace Store
variable (s : Store) (u v : Id)

def holdings : Holdings where
  account := s.user.only fun r => r.id == v
  refreshTokens := s.refreshToken.only fun r => r.userId == v
  bookings := s.booking.only fun r => r.userId == v
  payments := s.payment.only fun r => r.userId == v
  wallets := s.wallet.only fun r => r.userId == v
  walletTransactions := s.walletTransaction.only fun r =>
    (s.wallet.only fun w => w.userId == v).any fun w => w.id == r.walletId
  couponUsages := s.couponUsage.only fun r => r.userId == v

/-- The loyalty rows of one user. -/
def loyalty : List LoyaltyAccount × List LoyaltyTransaction where
  fst := s.loyaltyAccount.only fun r => r.userId == v
  snd := s.loyaltyTransaction.only fun r =>
    (s.loyaltyAccount.only fun a => a.userId == v).any fun a => a.id == r.accountId

/-- `v` has invited `u`. -/
def Referrer : Prop := ∃ r ∈ s.referral.rows, r.refereeId = u ∧ r.referrerId = v

end Store

/-- A change made for `u`, as it concerns another user `v`. -/
structure Spared (u v : Id) (s s' : Store) : Prop where
  holdings : s'.holdings v = s.holdings v
  referrer : s'.Referrer u v ↔ s.Referrer u v
  loyalty : s'.loyalty v = s.loyalty v ∨ s.Referrer u v

section
variable {u v : Id} {s s' s'' : Store}

theorem Spared.refl (s : Store) : Spared u v s s := ⟨rfl, Iff.rfl, .inl rfl⟩

theorem Spared.trans (h : Spared u v s s') (h' : Spared u v s' s'') : Spared u v s s'' := by
  refine ⟨h'.holdings.trans h.holdings, h'.referrer.trans h.referrer, ?_⟩
  rcases h.loyalty with hsame | hreferrer
  · rcases h'.loyalty with hsame' | hreferrer'
    · exact .inl (hsame'.trans hsame)
    · exact .inr (h.referrer.mp hreferrer')
  · exact .inr hreferrer

/-- A table whose rows belong to users. -/
class Belongs (T : Type) [Model T] where
  owner : T → Id
  spared : ∀ (u v : Id) (s : Store), MayBut (Spared u v) s fun r => owner r == v

instance : Belongs User where
  owner := User.id
  spared _ v s _ h :=
    ⟨congrArg (fun rows => { s.holdings v with account := rows }) h, Iff.rfl, .inl rfl⟩

instance : Belongs RefreshToken where
  owner := RefreshToken.userId
  spared _ v s _ h :=
    ⟨congrArg (fun rows => { s.holdings v with refreshTokens := rows }) h, Iff.rfl, .inl rfl⟩

instance : Belongs Booking where
  owner := Booking.userId
  spared _ v s _ h :=
    ⟨congrArg (fun rows => { s.holdings v with bookings := rows }) h, Iff.rfl, .inl rfl⟩

instance : Belongs Payment where
  owner := Payment.userId
  spared _ v s _ h :=
    ⟨congrArg (fun rows => { s.holdings v with payments := rows }) h, Iff.rfl, .inl rfl⟩

instance : Belongs CouponUsage where
  owner := CouponUsage.userId
  spared _ v s _ h :=
    ⟨congrArg (fun rows => { s.holdings v with couponUsages := rows }) h, Iff.rfl, .inl rfl⟩

-- The ledger of a user is found through the wallets.
instance : Belongs Wallet where
  owner := Wallet.userId
  spared _ v s _ h :=
    ⟨congrArg (fun rows : List Wallet => { s.holdings v with
      wallets := rows
      walletTransactions := s.walletTransaction.only fun r => rows.any fun w => w.id == r.walletId }) h,
      Iff.rfl, .inl rfl⟩

instance : Belongs LoyaltyAccount where
  owner := LoyaltyAccount.userId
  spared _ _ s _ h :=
    ⟨rfl, Iff.rfl, .inl (congrArg (fun rows : List LoyaltyAccount => (rows,
      s.loyaltyTransaction.only fun r => rows.any fun a => a.id == r.accountId)) h)⟩

section owned
variable {T : Type} [Model T] [Belongs T] {p : T → Bool} {f : T → T} {row : Id → T} {r : T} {g : Env}

open Belongs

theorem create_spared (h : create row g s = .ok (r, s')) (hr : ∀ id, owner (row id) ≠ v) :
    Spared u v s s' :=
  create_but (spared u v s) h fun id => by simpa using hr id

theorem upsert_spared (h : upsert p row g s = .ok (r, s')) (hr : ∀ id, owner (row id) ≠ v) :
    Spared u v s s' :=
  upsert_but (spared u v s) .refl h fun id => by simpa using hr id

theorem update_spared {hf : Table.Keeps f} (h : update p f hf g s = .ok (r, s'))
    (hp : ∀ r ∈ (Model.get s).rows, p r = true → owner r ≠ v) (howner : ∀ r, owner (f r) = owner r) :
    Spared u v s s' := by
  refine update_but (spared u v s) h fun r hr hpr => ?_
  simpa [howner] using hp r hr hpr

theorem updateMany_spared {hf : Table.Keeps f} {n : ℕ} (h : updateMany p f hf g s = .ok (n, s'))
    (hp : ∀ r ∈ (Model.get s).rows, p r = true → owner r ≠ v) (howner : ∀ r, owner (f r) = owner r) :
    Spared u v s s' := by
  refine updateMany_but (spared u v s) h fun r hr hpr => ?_
  simpa [howner] using hp r hr hpr

theorem updateUnique_spared (h : updateUnique p f g s = .ok (r, s'))
    (hp : ∀ r ∈ (Model.get s).rows, p r = true → owner r ≠ v) (howner : ∀ r, owner (f r) = owner r) :
    Spared u v s s' := by
  refine updateUnique_but (spared u v s) h fun r hr hpr => ?_
  simpa [howner] using hp r hr hpr

end owned

/-- A ledger row for a wallet of another user. -/
theorem create_walletTransaction_spared {row : Id → WalletTransaction} {r : WalletTransaction} {g : Env}
    {w : Wallet} (hw : w ∈ s.wallet.rows) (huser : w.userId ≠ v) (hrow : ∀ id, (row id).walletId = w.id)
    (h : create row g s = .ok (r, s')) : Spared u v s s' := by
  obtain ⟨rfl, hput⟩ := create_ok h
  obtain ⟨-, t, ht, rfl⟩ := put_ok hput
  refine ⟨?_, Iff.rfl, .inl rfl⟩
  have hrest : (Model.set s t).walletTransaction.only (fun r =>
      (s.wallet.only fun w => w.userId == v).any fun w => w.id == r.walletId) =
      s.walletTransaction.only fun r =>
        (s.wallet.only fun w => w.userId == v).any fun w => w.id == r.walletId := by
    apply Table.only_insert ht
    rw [List.any_eq_false]
    intro w' hw'
    obtain ⟨hmem, huser'⟩ := Table.mem_only.mp hw'
    intro hid
    -- Wallets with one identifier are one wallet.
    have hclash : Indexed.clash w' w = true := by
      have hid : w'.id = w.id := by simpa [hrow] using hid
      simp [Indexed.clash, hid]
    obtain rfl := Table.eq_of_clash hmem hw hclash
    exact huser (by simpa using huser')
  simp only [Store.holdings]
  congr 1

/-- A loyalty row for an account of another user. -/
theorem create_loyaltyTransaction_spared {row : Id → LoyaltyTransaction} {r : LoyaltyTransaction}
    {g : Env} {a : LoyaltyAccount} (ha : a ∈ s.loyaltyAccount.rows) (huser : a.userId ≠ v)
    (hrow : ∀ id, (row id).accountId = a.id) (h : create row g s = .ok (r, s')) : Spared u v s s' := by
  obtain ⟨rfl, hput⟩ := create_ok h
  obtain ⟨-, t, ht, rfl⟩ := put_ok hput
  refine ⟨rfl, Iff.rfl, .inl ?_⟩
  have hrest : (Model.set s t).loyaltyTransaction.only (fun r =>
      (s.loyaltyAccount.only fun a => a.userId == v).any fun a => a.id == r.accountId) =
      s.loyaltyTransaction.only fun r =>
        (s.loyaltyAccount.only fun a => a.userId == v).any fun a => a.id == r.accountId := by
    apply Table.only_insert ht
    rw [List.any_eq_false]
    intro a' ha'
    obtain ⟨hmem, huser'⟩ := Table.mem_only.mp ha'
    intro hid
    have hclash : Indexed.clash a' a = true := by
      have hid : a'.id = a.id := by simpa [hrow] using hid
      simp [Indexed.clash, hid]
    obtain rfl := Table.eq_of_clash hmem ha hclash
    exact huser (by simpa using huser')
  simp only [Store.loyalty]
  congr 1

/-- Who is `u`'s referrer may be rewarded. -/
theorem Spared.of_referrer (h : s.Referrer u v) (hholdings : s'.holdings v = s.holdings v)
    (hreferral : s'.referral = s.referral) : Spared u v s s' := by
  refine ⟨hholdings, ?_, .inr h⟩
  rw [Store.Referrer, Store.Referrer, hreferral]

/-- A write of referrals that keeps who has invited whom. -/
theorem update_referral_spared {p : Referral → Bool} {f : Referral → Referral} {hf : Table.Keeps f}
    {g : Env} {r : Referral} (h : update p f hf g s = .ok (r, s'))
    (hf₁ : ∀ r, (f r).refereeId = r.refereeId) (hf₂ : ∀ r, (f r).referrerId = r.referrerId) :
    Spared u v s s' := by
  rw [(update_ok h).2]
  refine ⟨rfl, ?_, .inl rfl⟩
  constructor
  · rintro ⟨r', hr', hreferee, hreferrer⟩
    obtain ⟨r, hr, rfl⟩ := (Table.mem_update hf).mp hr'
    refine ⟨r, hr, ?_⟩
    by_cases hp : p r = true
    · simp only [hp, if_true, hf₁, hf₂] at hreferee hreferrer
      exact ⟨hreferee, hreferrer⟩
    · simp only [hp] at hreferee hreferrer
      exact ⟨hreferee, hreferrer⟩
  · rintro ⟨r, hr, hreferee, hreferrer⟩
    refine ⟨_, (Table.mem_update hf).mpr ⟨r, hr, rfl⟩, ?_⟩
    by_cases hp : p r = true
    · simp only [hp, if_true, hf₁, hf₂]
      exact ⟨hreferee, hreferrer⟩
    · simp only [hp]
      exact ⟨hreferee, hreferrer⟩

end
end BookingPlatform
