import BookingPlatform.Async.Until
import BookingPlatform.Codes
import BookingPlatform.Lasting
import BookingPlatform.Links

/-! Registration writes a user, a wallet and a loyalty account one after the other. -/
namespace BookingPlatform
open Async Data Prog

/-! ### What is left of a registration -/

/-- The row of the new user. -/
def VerifyRegisterDto.user (dto : VerifyRegisterDto) (id : Id) : User :=
  { id, phone := dto.phone, fullName := dto.fullName, passwordHash := hashPassword dto.password,
    phoneVerified := true }

namespace AuthService

/-- `verifyRegisterAndCreateUser` from the referral on. -/
def welcome (user : User) (referralCode : Option Id) : Task TokenPair := do
  (match truthyId referralCode with
    | some referralCode => ReferralService.registerReferral referralCode user.id
    | none => pure ())
  issueTokenPair user.id user.globalRole

/-- `verifyRegisterAndCreateUser` from the loyalty account on. -/
def openAccount (user : User) (referralCode : Option Id) : Task TokenPair := do
  let _ ← prisma (create fun id => ({ id, userId := user.id } : LoyaltyAccount))
  welcome user referralCode

/-- `verifyRegisterAndCreateUser` from the wallet on. -/
def openWallet (user : User) (referralCode : Option Id) : Task TokenPair := do
  let _ ← prisma (create fun id => ({ id, userId := user.id } : Wallet))
  openAccount user referralCode

/-- `verifyRegisterAndCreateUser` from the user on. -/
def enrol (dto : VerifyRegisterDto) : Task TokenPair := do
  let user ← prisma (create dto.user)
  mark (.enrolling user.id)
  openWallet user dto.referralCode

theorem verifyRegisterAndCreateUser_eq (dto : VerifyRegisterDto) : verifyRegisterAndCreateUser dto = (do
    let isValid ← OtpService.verifyOtp dto.phone .register dto.code
    ensure isValid (.badRequest "کد تایید نادرست است")
    let existing ← query (findUnique fun r : User => r.phone == dto.phone)
    ensure (existing = none) (.conflict "این شماره قبلاً ثبت‌نام کرده است")
    mark .registering
    enrol dto) := rfl

end AuthService

/-! ### One registration -/

/-- How many database calls the registration of a referral makes. -/
def referralCalls (world : ℕ → Env) (k : ℕ) (s : Store) (referralCode : Option Id) (user : Id) : ℕ :=
  match truthyId referralCode with
  | none => 0
  | some code =>
    if code = user then 0
    else if (world k).down ∨ ∀ u ∈ s.user.rows, u.id ≠ code then 1
    else if (world (k + 1)).down ∨ ∃ r ∈ s.referral.rows, r.refereeId = user then 2
    else 3

/-- The code is good, the phone is free, and the user is written. -/
structure Enrolls (world : ℕ → Env) (s : Store) (dto : VerifyRegisterDto) : Prop where
  code : ∃ record, findLatest (fun r : OtpCode => r.phone == dto.phone && r.purpose == .register &&
    r.consumedAt == none) OtpCode.createdAt (world 0) s = some record ∧ record.Passes dto.code world
  up : (world 4).down = false
  free : ∀ u ∈ s.user.rows, u.phone ≠ dto.phone
  written : (world 5).down = false
  fresh : ∀ u ∈ s.user.rows, u.id ≠ (world 5).newId 0

/-- A token of these random bytes is written. -/
structure TokenWritten (world : ℕ → Env) (k : ℕ) (s : Store) : Prop where
  written : (world (k + 2)).down = false
  fresh : ∀ t ∈ s.refreshToken.rows,
    t.id ≠ (world (k + 2)).newId 0 ∧ t.tokenHash ≠ sha256Hash (toString ((world k).newId 1))

/-- What is written after the user is written as well. -/
structure Completes (world : ℕ → Env) (s : Store) (dto : VerifyRegisterDto) : Prop where
  wallet : (world 6).down = false
  freshWallet : ∀ w ∈ s.wallet.rows, w.id ≠ (world 6).newId 0 ∧ w.userId ≠ (world 5).newId 0
  account : (world 7).down = false
  freshAccount : ∀ a ∈ s.loyaltyAccount.rows, a.id ≠ (world 7).newId 0 ∧ a.userId ≠ (world 5).newId 0
  token : TokenWritten world (8 + referralCalls world 8 s dto.referralCode ((world 5).newId 0)) s

/-- A user is written whose registration is then rejected. -/
def Stranded (world : ℕ → Env) (s : Store) (dto : VerifyRegisterDto) : Prop :=
  Enrolls world s dto ∧ ¬ Completes world s dto

/-- The phone is not registered. -/
def Store.Registrable (s : Store) (phone : String) : Prop := ∀ u ∈ s.user.rows, u.phone ≠ phone

/-- A registration that rejects has created no user, and leaves the phone as it was. -/
def AllOrNothing (world : ℕ → Env) (s : Store) (dto : VerifyRegisterDto) : Prop :=
  ∀ e k v s', (AuthService.verifyRegisterAndCreateUser dto).play world 0 none s = (.error e, k, v, s') →
    s'.user.rows = s.user.rows ∧ (s.Registrable dto.phone → s'.Registrable dto.phone)

section registration
variable {world : ℕ → Env} {s s' : Store} {dto : VerifyRegisterDto} {k : ℕ} {user : User}

theorem play_issueTokenPair {role : GlobalRole} (hrefs : ∃ u ∈ s.user.rows, u.id = user.id) :
    (∃ t, (AuthService.issueTokenPair user.id role).play world k none s =
      (.ok { accessToken := { sub := user.id, role }, refreshToken := toString ((world k).newId 1) },
        k + 3, none, { s with refreshToken := t }) ∧ TokenWritten world k s) ∨
    (∃ e, (AuthService.issueTokenPair user.id role).play world k none s = (.error e, k + 3, none, s) ∧
      ¬ TokenWritten world k s) := by
  unfold AuthService.issueTokenPair
  simp only [play_look_step, clock, play_prisma_step]
  have hinsertable : Insertable (world (k + 1 + 1)) s (fun id => ({
      id, userId := user.id, tokenHash := sha256Hash (toString ((world k).newId 1))
      expiresAt := (world (k + 1)).now + refreshTtl } : RefreshToken)) ↔ TokenWritten world k s := by
    constructor
    · rintro ⟨hup, -, hfresh⟩
      refine ⟨hup, fun t ht => ?_⟩
      simpa [Indexed.clash] using hfresh t ht
    · rintro ⟨hup, hfresh⟩
      refine ⟨hup, ?_, fun t ht => ?_⟩
      · obtain ⟨u, hu, hid⟩ := hrefs
        simpa [Model.refs, Store.has] using ⟨u, hu, hid⟩
      · simpa [Indexed.clash] using hfresh t ht
  by_cases hwritten : TokenWritten world k s
  · obtain ⟨t, -, hcreate⟩ := attempt_create (hinsertable.mpr hwritten)
    left
    refine ⟨t, ?_, hwritten⟩
    rw [hcreate]
    rfl
  · obtain ⟨e, hcreate⟩ := attempt_create_refused (mt hinsertable.mp hwritten)
    right
    refine ⟨e, ?_, hwritten⟩
    rw [hcreate]

/-- A registration of a referral never fails, and makes these calls. -/
theorem play_registerReferral {code userId : Id} (hcode : code ≠ 0) (hold : ∀ u ∈ s.user.rows, u ∈ s'.user.rows)
    (hnew : ∀ u ∈ s'.user.rows, u ∈ s.user.rows ∨ u.id = userId) (hreferral : s'.referral = s.referral) :
    ∃ t, (ReferralService.registerReferral code userId).play world k none s' =
      (.ok (), k + referralCalls world k s (some code) userId, none, { s' with referral := t }) := by
  have hswallow {p : Task Unit} {r : Except Err Unit} {n : ℕ} {t : Table Referral}
      (h : p.play world k none s' = (r, k + n, none, { s' with referral := t })) :
      (tryCatch p fun _ => pure ()).play world k none s' = (.ok (), k + n, none, { s' with referral := t }) := by
    cases r with
    | ok _ => exact play_tryCatch_ok h
    | error e => exact (play_tryCatch_error h).trans rfl
  have htruthy : truthyId (some code) = some code := truthyId_eq_some.mpr ⟨rfl, hcode⟩
  unfold ReferralService.registerReferral referralCalls
  rw [htruthy]
  dsimp only
  by_cases hself : code = userId
  · rw [if_pos hself, if_pos hself]
    exact ⟨s'.referral, hswallow (r := .ok ()) rfl⟩
  · rw [if_neg hself, if_neg hself]
    have hlookup : findUnique (fun r : User => r.id == code) (world k) s' = none ↔
        ∀ u ∈ s.user.rows, u.id ≠ code := by
      constructor
      · intro hnone u hu
        simpa using findUnique_none hnone u (hold u hu)
      · intro hnone
        refine List.find?_eq_none.mpr fun u hu => ?_
        rcases hnew u hu with hu | hid
        · simpa using hnone u hu
        · simpa [hid] using Ne.symm hself
    by_cases hfirst : (world k).down = true ∨ ∀ u ∈ s.user.rows, u.id ≠ code
    · rw [if_pos hfirst]
      refine ⟨s'.referral, hswallow (r := if (world k).down then .error .unavailable else .ok ()) ?_⟩
      rw [play_query_step]
      cases hdown : (world k).down with
      | true => rfl
      | false =>
        rw [hlookup.mpr (hfirst.resolve_left (by simp [hdown]))]
        rfl
    · rw [if_neg hfirst]
      obtain ⟨hup, hfound⟩ := not_or.mp hfirst
      obtain ⟨u, hu⟩ := Option.ne_none_iff_exists'.mp (mt hlookup.mp hfound)
      by_cases hsecond : (world (k + 1)).down = true ∨ ∃ r ∈ s.referral.rows, r.refereeId = userId
      · rw [if_pos hsecond]
        refine ⟨s'.referral, hswallow (r := if (world (k + 1)).down then .error .unavailable else .ok ()) ?_⟩
        rw [play_query_step, if_neg hup, hu]
        dsimp only
        rw [play_query_step]
        cases hdown : (world (k + 1)).down with
        | true => rfl
        | false =>
          obtain ⟨r, hr, hid⟩ := hsecond.resolve_left (by simp [hdown])
          rw [findUnique_of_mem (r := r) (by change r ∈ s'.referral.rows; rwa [hreferral]) (by simpa using hid)
            fun r' hr' => by simp_all [Indexed.clash]]
          rfl
      · rw [if_neg hsecond]
        obtain ⟨hup', hnone⟩ := not_or.mp hsecond
        have hnone : findUnique (fun r : Referral => r.refereeId == userId) (world (k + 1)) s' = none := by
          refine List.find?_eq_none.mpr fun r hr => ?_
          have hr : r ∈ s.referral.rows := by rwa [← hreferral]
          simpa using fun hid => hnone ⟨r, hr, hid⟩
        cases hcreate : attempt (create fun id => ({ id, referrerId := code, refereeId := userId } : Referral))
            (world (k + 1 + 1)) s' with
        | ok a =>
          obtain ⟨-, t, -, hs'⟩ := put_ok (create_ok (attempt_ok hcreate)).2
          refine ⟨t, hswallow (r := .ok ()) ?_⟩
          rw [play_query_step, if_neg hup, hu]
          dsimp only
          rw [play_query_step, if_neg hup', hnone]
          dsimp only
          rw [play_prisma_step, hcreate]
          obtain ⟨r, s₁⟩ := a
          obtain rfl := hs'
          rfl
        | error e =>
          refine ⟨s'.referral, hswallow (r := .error e) ?_⟩
          rw [play_query_step, if_neg hup, hu]
          dsimp only
          rw [play_query_step, if_neg hup', hnone]
          dsimp only
          rw [play_prisma_step, hcreate]

/-- A verification that passes makes four calls. -/
theorem play_verifyOtp_passes {phone code : String} {purpose : OtpPurpose} {record : OtpCode}
    (hfound : findLatest (fun r : OtpCode => r.phone == phone && r.purpose == purpose && r.consumedAt == none)
      OtpCode.createdAt (world 0) s = some record) (hpasses : record.Passes code world) :
    ∃ t, (OtpService.verifyOtp phone purpose code).play world 0 none s =
      (.ok true, 4, none, { s with otpCode := t }) := by
  obtain ⟨hmem, -⟩ := findLatest_some hfound
  unfold OtpService.verifyOtp
  rw [play_query_step, if_neg (by simp [hpasses.found]), hfound, play_orThrow_bind]
  simp only [play_mark_bind]
  rw [clock, play_look_step, play_ensure_bind, if_pos hpasses.inTime, play_ensure_bind, if_pos hpasses.attempts,
    if_pos hpasses.right, play_look_step, play_prisma_step]
  split
  · rename_i r s₁ hupdate
    obtain ⟨-, rfl⟩ := update_ok (attempt_ok hupdate)
    exact ⟨_, rfl⟩
  · rename_i e hupdate
    have hnone := update_error (by simpa [attempt, hpasses.consumed] using hupdate) record hmem
    simp at hnone

/-- The user has just been added. -/
structure Entered (user : User) (s s₁ : Store) : Prop where
  user : s₁.user.rows = s.user.rows ++ [user]
  token : s₁.refreshToken = s.refreshToken
  referral : s₁.referral = s.referral

theorem Entered.exists {s₁ : Store} (h : Entered user s s₁) : ∃ u ∈ s₁.user.rows, u.id = user.id :=
  ⟨user, by simp [h.user], rfl⟩

theorem Entered.new {s₁ : Store} (h : Entered user s s₁) : ∀ u ∈ s₁.user.rows, u ∈ s.user.rows ∨ u.id = user.id := by
  intro u hu
  rw [h.user] at hu
  rcases List.mem_append.mp hu with hu | hu
  · exact .inl hu
  · exact .inr (congrArg _ (List.mem_singleton.mp hu))

theorem welcome_played {s₁ : Store} {referralCode : Option Id} (h : Entered user s s₁) :
    ∃ r k' s', (AuthService.welcome user referralCode).play world k none s₁ = (r, k', none, s') ∧
      s'.user = s₁.user ∧ ((∃ pair, r = .ok pair) ↔
        TokenWritten world (k + referralCalls world k s referralCode user.id) s) := by
  have hreferral : ∃ t, ((match truthyId referralCode with
      | some referralCode => ReferralService.registerReferral referralCode user.id
      | none => pure ()) : Task Unit).play world k none s₁ =
        (.ok (), k + referralCalls world k s referralCode user.id, none, { s₁ with referral := t }) := by
    cases htruthy : truthyId referralCode with
    | none =>
      simp only [referralCalls, htruthy]
      exact ⟨s₁.referral, rfl⟩
    | some code =>
      obtain ⟨rfl, hcode⟩ := truthyId_eq_some.mp htruthy
      exact play_registerReferral hcode (fun u hu => by simp [h.user, hu])
        h.new h.referral
  obtain ⟨t, hreferral⟩ := hreferral
  have htoken : TokenWritten world (k + referralCalls world k s referralCode user.id) { s₁ with referral := t } ↔
      TokenWritten world (k + referralCalls world k s referralCode user.id) s := by
    constructor
    · rintro ⟨hup, hfresh⟩
      exact ⟨hup, h.token ▸ hfresh⟩
    · rintro ⟨hup, hfresh⟩
      exact ⟨hup, by simpa only [h.token] using hfresh⟩
  have hplay := play_bind_ok hreferral fun _ => AuthService.issueTokenPair user.id user.globalRole
  obtain ⟨t', hissue, hwritten⟩ | ⟨e, hissue, hwritten⟩ := @play_issueTokenPair world
    { s₁ with referral := t } (k + referralCalls world k s referralCode user.id) user user.globalRole h.exists
  · exact ⟨_, _, _, hplay.trans hissue, rfl, iff_of_true ⟨_, rfl⟩ (htoken.mp hwritten)⟩
  · exact ⟨_, _, _, hplay.trans hissue, rfl, iff_of_false (by simp) (mt htoken.mpr hwritten)⟩

/-- A row is added, and the rest of the registration follows. -/
theorem create_played {T : Type} [Model T] {row : Id → T} {next : Task TokenPair} {s₁ : Store} {P Q : Prop}
    (hinsertable : Insertable (world k) s₁ row ↔ P) (hnext : ∀ t : Table T, ∃ r k' s',
      next.play world (k + 1) none (Model.set s₁ t) = (r, k', none, s') ∧ s'.user = s₁.user ∧
        ((∃ pair, r = .ok pair) ↔ Q)) :
    ∃ r k' s', (prisma (create row) >>= fun _ => next).play world k none s₁ = (r, k', none, s') ∧
      s'.user = s₁.user ∧ ((∃ pair, r = .ok pair) ↔ P ∧ Q) := by
  rw [play_prisma_step]
  by_cases hopens : Insertable (world k) s₁ row
  · obtain ⟨t, -, hcreate⟩ := attempt_create hopens
    obtain ⟨r, k', s', hplay, huser, hok⟩ := hnext t
    rw [hcreate]
    exact ⟨r, k', s', hplay, huser, hok.trans (and_iff_right (hinsertable.mp hopens)).symm⟩
  · obtain ⟨e, hcreate⟩ := attempt_create_refused hopens
    rw [hcreate]
    exact ⟨_, _, _, rfl, rfl, iff_of_false (by simp) fun h => hopens (hinsertable.mpr h.1)⟩

theorem openAccount_played {s₁ : Store} {referralCode : Option Id} (h : Entered user s s₁)
    (haccount : s₁.loyaltyAccount = s.loyaltyAccount) :
    ∃ r k' s', (AuthService.openAccount user referralCode).play world k none s₁ = (r, k', none, s') ∧
      s'.user = s₁.user ∧ ((∃ pair, r = .ok pair) ↔ ((world k).down = false ∧
        ∀ a ∈ s.loyaltyAccount.rows, a.id ≠ (world k).newId 0 ∧ a.userId ≠ user.id) ∧
        TokenWritten world (k + 1 + referralCalls world (k + 1) s referralCode user.id) s) := by
  refine create_played ?_ fun t => welcome_played ⟨h.user, h.token, h.referral⟩
  have hrefs : Model.refs s₁ ({ id := (world k).newId 0, userId := user.id } : LoyaltyAccount) = true := by
    simpa [Model.refs, Store.has] using h.exists
  have hrows : (Model.get (R := LoyaltyAccount) s₁).rows = s.loyaltyAccount.rows := congrArg _ haccount
  simp [Insertable, hrefs, hrows, Indexed.clash]

theorem openWallet_played {s₁ : Store} {referralCode : Option Id} (h : Entered user s s₁)
    (hwallet : s₁.wallet = s.wallet) (haccount : s₁.loyaltyAccount = s.loyaltyAccount) :
    ∃ r k' s', (AuthService.openWallet user referralCode).play world k none s₁ = (r, k', none, s') ∧
      s'.user = s₁.user ∧ ((∃ pair, r = .ok pair) ↔
        ((world k).down = false ∧ ∀ w ∈ s.wallet.rows, w.id ≠ (world k).newId 0 ∧ w.userId ≠ user.id) ∧
        ((world (k + 1)).down = false ∧
          ∀ a ∈ s.loyaltyAccount.rows, a.id ≠ (world (k + 1)).newId 0 ∧ a.userId ≠ user.id) ∧
        TokenWritten world (k + 1 + 1 + referralCalls world (k + 1 + 1) s referralCode user.id) s) := by
  refine create_played ?_ fun t => openAccount_played ⟨h.user, h.token, h.referral⟩ haccount
  have hrefs : Model.refs s₁ ({ id := (world k).newId 0, userId := user.id } : Wallet) = true := by
    simpa [Model.refs, Store.has] using h.exists
  have hrows : (Model.get (R := Wallet) s₁).rows = s.wallet.rows := congrArg _ hwallet
  simp [Insertable, hrefs, hrows, Indexed.clash]

theorem findUnique_phone {g : Env} {phone : String} :
    findUnique (fun r : User => r.phone == phone) g s = none ↔ s.Registrable phone := by
  constructor
  · intro hnone u hu
    simpa using findUnique_none hnone u hu
  · intro hfree
    exact List.find?_eq_none.mpr fun u hu => by simpa using hfree u hu

/-- A user is written when the database takes the row, and then the registration goes on. -/
theorem enrol_played {t : Table OtpCode} {r : Except Err TokenPair} {v : Option Store}
    (hfree : s.Registrable dto.phone)
    (h : (AuthService.enrol dto).play world 5 none { s with otpCode := t } = (r, k, v, s')) :
    (¬ ((world 5).down = false ∧ ∀ u ∈ s.user.rows, u.id ≠ (world 5).newId 0) ∧ (∃ e, r = .error e) ∧
      s'.user = s.user) ∨
    ((world 5).down = false ∧ ∀ u ∈ s.user.rows, u.id ≠ (world 5).newId 0) ∧
      s'.user.rows = s.user.rows ++ [dto.user ((world 5).newId 0)] ∧
      ((∃ pair, r = .ok pair) ↔ Completes world s dto) := by
  rw [AuthService.enrol, play_prisma_step] at h
  have hinsertable : Insertable (world 5) { s with otpCode := t } dto.user ↔
      (world 5).down = false ∧ ∀ u ∈ s.user.rows, u.id ≠ (world 5).newId 0 := by
    have hrow (u : User) (hu : u ∈ s.user.rows) :
        Indexed.clash u (dto.user ((world 5).newId 0)) = false ↔ u.id ≠ (world 5).newId 0 := by
      simp [Indexed.clash, VerifyRegisterDto.user, hfree u hu]
    constructor
    · rintro ⟨hup, -, hfresh⟩
      exact ⟨hup, fun u hu => (hrow u hu).mp (hfresh u hu)⟩
    · rintro ⟨hup, hfresh⟩
      exact ⟨hup, rfl, fun u hu => (hrow u hu).mpr (hfresh u hu)⟩
  by_cases hopens : Insertable (world 5) { s with otpCode := t } dto.user
  · obtain ⟨tu, hrows, hcreate⟩ := attempt_create hopens
    obtain ⟨r', k', s₁, hplay, huser, hok⟩ := @openWallet_played world s 6 (dto.user ((world 5).newId 0))
      (Model.set { s with otpCode := t } tu) dto.referralCode ⟨hrows, rfl, rfl⟩ rfl rfl
    rw [hcreate] at h
    obtain ⟨rfl, rfl, rfl, rfl⟩ : r' = r ∧ k' = k ∧ none = v ∧ s₁ = s' := by
      simpa using hplay.symm.trans h
    refine .inr ⟨hinsertable.mp hopens, (congrArg _ huser).trans hrows, hok.trans ?_⟩
    constructor
    · rintro ⟨⟨hw, hfw⟩, ⟨ha, hfa⟩, htoken⟩
      exact ⟨hw, hfw, ha, hfa, htoken⟩
    · rintro ⟨hw, hfw, ha, hfa, htoken⟩
      exact ⟨⟨hw, hfw⟩, ⟨ha, hfa⟩, htoken⟩
  · obtain ⟨e, hcreate⟩ := attempt_create_refused hopens
    rw [hcreate] at h
    obtain ⟨rfl, -, -, rfl⟩ := by simpa using h
    exact .inl ⟨mt hinsertable.mpr hopens, ⟨e, rfl⟩, rfl⟩

/-- What becomes of a registration. -/
theorem register_played {r : Except Err TokenPair} {v : Option Store}
    (h : (AuthService.verifyRegisterAndCreateUser dto).play world 0 none s = (r, k, v, s')) :
    (¬ Enrolls world s dto ∧ (∃ e, r = .error e) ∧ s'.user = s.user) ∨
      Enrolls world s dto ∧ s'.user.rows = s.user.rows ++ [dto.user ((world 5).newId 0)] ∧
        ((∃ pair, r = .ok pair) ↔ Completes world s dto) := by
  rw [AuthService.verifyRegisterAndCreateUser_eq] at h
  by_cases hcode : ∃ record, findLatest (fun r : OtpCode => r.phone == dto.phone && r.purpose == .register &&
      r.consumedAt == none) OtpCode.createdAt (world 0) s = some record ∧ record.Passes dto.code world
  · obtain ⟨record, hfound, hpasses⟩ := hcode
    obtain ⟨t, hverify⟩ := play_verifyOtp_passes hfound hpasses
    rw [play_bind_ok hverify, play_ensure_bind, if_pos rfl, play_query_step] at h
    by_cases hup : (world 4).down = true
    · rw [if_pos hup] at h
      obtain ⟨rfl, -, -, rfl⟩ := by simpa using h
      exact .inl ⟨fun he => by simp [he.up] at hup, ⟨_, rfl⟩, rfl⟩
    · rw [if_neg hup, play_ensure_bind] at h
      by_cases hfree : s.Registrable dto.phone
      · rw [if_pos ((findUnique_phone (s := { s with otpCode := t })).mpr hfree), play_mark_bind] at h
        rcases enrol_played hfree h with ⟨hopens, herror, huser⟩ | ⟨⟨hwritten, hfresh⟩, huser, hok⟩
        · exact .inl ⟨fun he => hopens ⟨he.written, he.fresh⟩, herror, huser⟩
        · exact .inr ⟨⟨⟨record, hfound, hpasses⟩, by simpa using hup, hfree, hwritten, hfresh⟩, huser, hok⟩
      · rw [if_neg (mt (findUnique_phone (s := { s with otpCode := t })).mp hfree)] at h
        obtain ⟨rfl, -, -, rfl⟩ := by simpa using h
        exact .inl ⟨fun he => hfree he.free, ⟨_, rfl⟩, rfl⟩
  · refine .inl ⟨fun he => hcode he.code, ?_⟩
    rcases hverify : (OtpService.verifyOtp dto.phone .register dto.code).play world 0 none s with ⟨r₁, k₁, v₁, s₁⟩
    have hr₁ : r₁ ≠ .ok true := fun hok => hcode ((verifyOtp_played hverify).2.mp hok)
    have hkeeps : Within (fun s s' : Store => s'.user = s.user) (fun _ => True) true
        (OtpService.verifyOtp dto.phone .register dto.code) :=
      verifyOtp_within (R := fun s s' => s'.user = s.user) (fun _ => rfl) (fun _ _ => trivial) (fun _ _ => rfl) _ _ _
    have huser : s₁.user = s.user := by
      have hplayed : ((OtpService.verifyOtp dto.phone .register dto.code).play world 0 none s).2.2.2.user =
          s.user := play_within hkeeps (fun _ => rfl) (fun _ _ _ h h' => h'.trans h) (by simp)
      rwa [hverify] at hplayed
    rw [play_bind hverify] at h
    cases r₁ with
    | error e =>
      obtain ⟨rfl, -, -, rfl⟩ := by simpa [onOk, play] using h
      exact ⟨⟨_, rfl⟩, huser⟩
    | ok b =>
      obtain rfl : b = false := by simpa using hr₁
      rw [onOk, play_ensure_bind, if_neg (by simp)] at h
      obtain ⟨rfl, -, -, rfl⟩ := by simpa using h
      exact ⟨⟨_, rfl⟩, huser⟩

/-- A registration is all or nothing unless it strands a user. -/
theorem allOrNothing_iff : AllOrNothing world s dto ↔ ¬ Stranded world s dto := by
  rcases hplay : (AuthService.verifyRegisterAndCreateUser dto).play world 0 none s with ⟨r, k, v, s'⟩
  rcases register_played hplay with ⟨hnot, -, huser⟩ | ⟨henrols, huser, hok⟩
  · refine iff_of_true ?_ fun hs => hnot hs.1
    rintro e k' v' s'' h
    obtain ⟨-, -, -, rfl⟩ : r = .error e ∧ k = k' ∧ v = v' ∧ s' = s'' := by simpa using hplay.symm.trans h
    exact ⟨congrArg _ huser, fun hfree => by rwa [Store.Registrable, huser]⟩
  · have hgrown : s'.user.rows ≠ s.user.rows := by simp [huser]
    constructor
    · rintro hall ⟨-, hnot⟩
      cases r with
      | ok pair => exact hnot (hok.mp ⟨pair, rfl⟩)
      | error e => exact hgrown (hall e k v s' hplay).1
    · rintro hcomplete e k' v' s'' h
      obtain ⟨rfl, -⟩ : r = .error e ∧ _ := by simpa using hplay.symm.trans h
      have hcompletes : Completes world s dto := by
        by_contra hnot
        exact hcomplete ⟨henrols, hnot⟩
      obtain ⟨pair, hpair⟩ := hok.mpr hcompletes
      cases hpair

end registration

/-! ### Registrations among other calls -/

/-- No user is added, and who has a wallet or a loyalty account keeps it. -/
structure Kept (s s' : Store) : Prop where
  user : Persist User.id s'.user s.user
  wallet : Persist Wallet.userId s.wallet s'.wallet
  account : Persist LoyaltyAccount.userId s.loyaltyAccount s'.loyaltyAccount

section kept
variable {s s' s'' : Store}

theorem Kept.refl (s : Store) : Kept s s := ⟨.refl _, .refl _, .refl _⟩

theorem Kept.trans (h : Kept s s') (h' : Kept s' s'') : Kept s s'' :=
  ⟨h'.user.trans h.user, h.wallet.trans h'.wallet, h.account.trans h'.account⟩

theorem kept_trans (s s' s'' : Store) (h : Kept s s') (h' : Kept s' s'') : Kept s s'' := h.trans h'

/-- A table of neither users nor wallets nor loyalty accounts. -/
theorem kept_may {T : Type} [Model T] (h₁ : ∀ (s : Store) (t : Table T), (Model.set s t).user = s.user)
    (h₂ : ∀ (s : Store) (t : Table T), (Model.set s t).wallet = s.wallet)
    (h₃ : ∀ (s : Store) (t : Table T), (Model.set s t).loyaltyAccount = s.loyaltyAccount) : May Kept T := by
  intro s t
  refine ⟨?_, ?_, ?_⟩
  · rw [h₁]
    exact .refl _
  · rw [h₂]
    exact .refl _
  · rw [h₃]
    exact .refl _

/-- An update that leaves the unique columns alone leaves the owner alone. -/
theorem Wallet.keeps_userId {f : Wallet → Wallet} (hf : Table.Keeps f) (w : Wallet) : (f w).userId = w.userId := by
  have h := hf w { id := w.id + (f w).id + 1, userId := w.userId }
  have hid : (f w).id ≠ w.id + (f w).id + 1 := Nat.ne_of_lt (Nat.lt_succ_of_le (Nat.le_add_left _ _))
  simpa [Indexed.clash, hid] using h

theorem LoyaltyAccount.keeps_userId {f : LoyaltyAccount → LoyaltyAccount} (hf : Table.Keeps f)
    (a : LoyaltyAccount) : (f a).userId = a.userId := by
  have h := hf a { id := a.id + (f a).id + 1, userId := a.userId }
  have hid : (f a).id ≠ a.id + (f a).id + 1 := Nat.ne_of_lt (Nat.lt_succ_of_le (Nat.le_add_left _ _))
  simpa [Indexed.clash, hid] using h

theorem kept_wallet : Grows Kept Wallet := by
  constructor
  · intro row g s r s' h
    obtain ⟨-, t, ht, rfl⟩ := put_ok (create_ok h).2
    exact ⟨.refl _, .insert ht, .refl _⟩
  · intro p f hf g s r s' h
    rw [(update_ok h).2]
    exact ⟨.refl _, .update hf fun w _ _ => Wallet.keeps_userId hf w, .refl _⟩

theorem kept_account : Grows Kept LoyaltyAccount := by
  constructor
  · intro row g s r s' h
    obtain ⟨-, t, ht, rfl⟩ := put_ok (create_ok h).2
    exact ⟨.refl _, .refl _, .insert ht⟩
  · intro p f hf g s r s' h
    rw [(update_ok h).2]
    exact ⟨.refl _, .refl _, .update hf fun a _ _ => LoyaltyAccount.keeps_userId hf a⟩

theorem update_user_kept {p : User → Bool} {f : User → User} {hf : Table.Keeps f} (hid : ∀ u, (f u).id = u.id) :
    StmtWithin Kept (update p f hf) := by
  intro g s r s' h
  rw [(update_ok h).2]
  exact ⟨.of_update hf fun u _ _ => hid u, .refl _, .refl _⟩

theorem updateUnique_user_kept {p : User → Bool} {f : User → User} (hid : ∀ u, (f u).id = u.id) :
    StmtWithin Kept (updateUnique p f) := by
  intro g s r s' h
  obtain ⟨-, t, ht, rfl⟩ := updateUnique_ok h
  refine ⟨fun u' hu' => ?_, .refl _, .refl _⟩
  have hu' : u' ∈ t.rows := hu'
  rw [Table.rewrite_rows ht] at hu'
  obtain ⟨u, hu, rfl⟩ := List.mem_map.mp hu'
  refine ⟨u, hu, ?_⟩
  by_cases hp : p u = true
  · simp [hp, hid]
  · simp [hp]

theorem kept_otp : May Kept OtpCode := kept_may (fun _ _ => rfl) (fun _ _ => rfl) fun _ _ => rfl

theorem kept_token : May Kept RefreshToken := kept_may (fun _ _ => rfl) (fun _ _ => rfl) fun _ _ => rfl

/-- Users are created by registrations only; no wallet and no loyalty account is ever taken away. -/
theorem Request.serve_kept (r : Request) (hr : ∀ dto, r ≠ .register dto) :
    Within Kept (fun _ => True) true r.serve := by
  have hbooking : May Kept Booking := kept_may (fun _ _ => rfl) (fun _ _ => rfl) fun _ _ => rfl
  have hpayment : May Kept Payment := kept_may (fun _ _ => rfl) (fun _ _ => rfl) fun _ _ => rfl
  have hsession : May Kept Session := kept_may (fun _ _ => rfl) (fun _ _ => rfl) fun _ _ => rfl
  have hledger : May Kept WalletTransaction := kept_may (fun _ _ => rfl) (fun _ _ => rfl) fun _ _ => rfl
  have hpoints : May Kept LoyaltyTransaction := kept_may (fun _ _ => rfl) (fun _ _ => rfl) fun _ _ => rfl
  have hreferral : May Kept Referral := kept_may (fun _ _ => rfl) (fun _ _ => rfl) fun _ _ => rfl
  have haudit : May Kept AuditLog := kept_may (fun _ _ => rfl) (fun _ _ => rfl) fun _ _ => rfl
  have hlock : MayLock Kept := fun s t => ⟨.refl _, .refl _, .refl _⟩
  have hnote (x : Note) : True := trivial
  cases r with
  | register dto => exact absurd rfl (hr dto)
  | confirm user bookingId =>
    exact authenticated_within .refl hnote fun _ => confirm_within .refl hnote hbooking kept_account hpoints
      hreferral _ _
  | confirmGroup user recurringGroupId =>
    exact authenticated_within .refl hnote fun _ => confirmGroup_within .refl hnote hbooking kept_account hpoints
      hreferral _ _
  | initiate user dto =>
    exact authenticated_within .refl hnote fun _ => initiate_within .refl hnote hpayment hsession kept_wallet
      hledger hbooking kept_account hpoints hreferral _ _
  | handleCallback gateway ref =>
    exact discard_within (handleCallback_within .refl hnote hpayment hsession kept_wallet hledger hbooking
      kept_account hpoints hreferral _ _)
  | refund user paymentId reason =>
    exact adminOnly_within .refl hnote fun _ => refund_within .refl hnote hpayment kept_wallet hledger haudit _ _ _
  | getWallet user =>
    exact authenticated_within .refl hnote fun _ => .bind (.mark trivial) fun _ =>
      within_prisma (kept_wallet.upsert .refl)
  | getLoyalty user => exact authenticated_within .refl hnote fun _ => within_prisma (kept_account.upsert .refl)
  | updateProfile user dto =>
    refine authenticated_within .refl hnote fun _ => .bind ?_ fun _ => .bind (.mark trivial) fun _ =>
      within_prisma (updateUnique_user_kept fun _ => rfl)
    split
    · exact .bind (within_query .refl _) fun _ => .ensure _ _
    · exact .pure _
  | requestAccountDeletion user =>
    exact authenticated_within .refl hnote fun _ => .bind (.mark trivial) fun _ => .bind (within_look .refl _) fun _ =>
      .bind (within_prisma (updateUnique_user_kept fun _ => rfl)) fun _ => .bind (within_look .refl _) fun _ =>
      .bind (within_prisma (updateMany_within kept_token)) fun _ => .pure _
  | business user businessId route =>
    refine Request.serve_within .refl kept_trans hnote ?_
    cases route
    all_goals first
      | trivial
      | exact kept_may (fun _ _ => rfl) (fun _ _ => rfl) fun _ _ => rfl
  | _ =>
    refine Request.serve_within .refl kept_trans hnote ?_
    simp only [Request.Writes]
    and_intros
    all_goals first
      | trivial
      | exact hlock
      | exact kept_may (fun _ _ => rfl) (fun _ _ => rfl) fun _ _ => rfl

/-- What the call registers. -/
def Call.registers : Call → Option VerifyRegisterDto
  | verifyRegister dto => some dto
  | request (.register dto) => some dto
  | _ => none

theorem verifyOtp_kept (phone : String) (purpose : OtpPurpose) (code : String) :
    Within Kept (fun _ => True) true (OtpService.verifyOtp phone purpose code) :=
  verifyOtp_within .refl (fun _ _ => trivial) kept_otp _ _ _

theorem issueTokenPair_kept (userId : Id) (role : GlobalRole) :
    Within Kept (fun _ => True) true (AuthService.issueTokenPair userId role) :=
  issueTokenPair_within .refl kept_token _ _

theorem welcome_kept (user : User) (referralCode : Option Id) :
    Within Kept (fun _ => True) true (AuthService.welcome user referralCode) := by
  refine .bind ?_ fun _ => issueTokenPair_kept _ _
  split
  · exact registerReferral_within .refl (kept_may (fun _ _ => rfl) (fun _ _ => rfl) fun _ _ => rfl) _ _
  · exact .pure _

theorem Call.serve_kept (config : ConfigService) (call : Call) (hcall : call.registers = none) :
    Within Kept (fun _ => True) true (call.serve config) := by
  cases call with
  | verifyRegister dto => cases hcall
  | validate sub =>
    exact .bind (.bind (within_query .refl _) fun _ => .bind (.orThrow _ _) fun _ =>
      .bind (.mark trivial) fun _ => .pure _) fun _ => .pure _
  | requestRegisterOtp phone =>
    exact .bind (.bind (within_query .refl _) fun _ => .bind (.ensure _ _) fun _ =>
      requestOtp_within .refl kept_otp _ _ _ _) fun _ => .pure _
  | login dto =>
    exact .bind (.bind (within_query .refl _) fun _ => .bind (.orThrow _ _) fun _ =>
      .bind (.ensure _ _) fun _ => .bind (.mark trivial) fun _ => issueTokenPair_kept _ _) fun _ => .pure _
  | requestLoginOtp phone =>
    refine .bind (.bind (within_query .refl _) fun user => ?_) fun _ => .pure _
    split
    · exact .pure _
    · exact requestOtp_within .refl kept_otp _ _ _ _
  | verifyLoginOtp dto =>
    exact .bind (.bind (within_query .refl _) fun _ => .bind (.orThrow _ _) fun _ =>
      .bind (verifyOtp_kept _ _ _) fun _ => .bind (.ensure _ _) fun _ => issueTokenPair_kept _ _) fun _ => .pure _
  | refresh rawToken =>
    simp only [Call.serve]
    split
    · exact .pure _
    · exact .bind (.bind (within_query .refl _) fun _ => .bind (.orThrow _ _) fun _ => .bind (.mark trivial) fun _ =>
        .bind (within_look .refl _) fun _ => .bind (.ensure _ _) fun _ => .bind (within_query .refl _) fun _ =>
        .bind (.orThrow _ _) fun _ => .bind (within_look .refl _) fun _ =>
        .bind (within_prisma (update_within kept_token)) fun _ => .bind (.mark trivial) fun _ =>
        issueTokenPair_kept _ _) fun _ => .pure _
  | logout rawToken =>
    simp only [Call.serve]
    split
    · exact .pure _
    · exact .bind (.bind (within_look .refl _) fun _ => .bind (within_prisma (updateMany_within kept_token))
        fun _ => .pure _) fun _ => .pure _
  | forgotPassword phone =>
    refine .bind (.bind (within_query .refl _) fun user => ?_) fun _ => .pure _
    cases user with
    | none => exact .pure _
    | some user => exact requestOtp_within .refl kept_otp _ _ _ _
  | resetPassword dto =>
    exact .bind (.bind (within_query .refl _) fun _ => .bind (.orThrow _ _) fun _ =>
      .bind (verifyOtp_kept _ _ _) fun _ => .bind (.ensure _ _) fun _ =>
      .bind (within_prisma (update_user_kept fun _ => rfl)) fun _ => .bind (.mark trivial) fun _ =>
      .bind (within_look .refl _) fun _ => .bind (within_prisma (updateMany_within kept_token)) fun _ => .pure _)
        fun _ => .pure _
  | me user =>
    exact .bind (authenticated_within .refl (fun _ => trivial) fun _ => .bind (within_query .refl _) fun _ =>
      .orThrow _ _) fun _ => .pure _
  | request r =>
    refine .bind (r.serve_kept ?_) fun _ => .pure _
    rintro dto rfl
    cases hcall

/-- A call that registers answers with what the registration gives. -/
theorem Call.serve_registers {config : ConfigService} {call : Call} {dto : VerifyRegisterDto}
    (hcall : call.registers = some dto) : ∃ f : TokenPair → Reply, call.serve config =
      AuthService.verifyRegisterAndCreateUser dto >>= fun pair => pure (f pair) := by
  cases call with
  | verifyRegister dto' =>
    obtain rfl := Option.some.inj hcall
    exact ⟨.tokens, rfl⟩
  | request r =>
    cases r with
    | register dto' =>
      obtain rfl := Option.some.inj hcall
      exact ⟨fun _ => .done, bind_assoc _ _ _⟩
    | _ => cases hcall
  | _ => cases hcall

end kept

/-- The user has this wallet and this loyalty account, and no others. -/
def Store.Equips (s : Store) (user : Id) : Prop :=
  (∃! w, w ∈ s.wallet.rows ∧ w.userId = user) ∧ ∃! a, a ∈ s.loyaltyAccount.rows ∧ a.userId = user

/-- The request has written the user, and its next call inserts the wallet or, when that is there, the
loyalty account. -/
inductive Due (s : Store) (user : User) : Thread Env Store Err Note Reply → Prop
  | wallet (referralCode : Option Id) (f : TokenPair → Reply) : Due s user
      (.settle (AuthService.openWallet user referralCode >>= fun pair => pure (f pair)) none [.enrolling user.id])
  | account (referralCode : Option Id) (f : TokenPair → Reply) : (∃ w ∈ s.wallet.rows, w.userId = user.id) →
      Due s user (.settle (AuthService.openAccount user referralCode >>= fun pair => pure (f pair)) none [])

/-- The database refuses the wallet or the loyalty account of a user that has been written. -/
inductive Refuses (g : Env) (s : Store) : Thread Env Store Err Note Reply → Prop
  | wallet (user : User) (referralCode : Option Id) (f : TokenPair → Reply) :
      ¬ Insertable g s (fun id => ({ id, userId := user.id } : Wallet)) → Refuses g s
        (.settle (AuthService.openWallet user referralCode >>= fun pair => pure (f pair)) none [.enrolling user.id])
  | account (user : User) (referralCode : Option Id) (f : TokenPair → Reply) :
      ¬ Insertable g s (fun id => ({ id, userId := user.id } : LoyaltyAccount)) → Refuses g s
        (.settle (AuthService.openAccount user referralCode >>= fun pair => pure (f pair)) none [])

/-- The commit creates a user, for whom what is left of the request opens a wallet first. -/
def Creates (s s' : Store) (rest : Task Reply) : Prop :=
  ∃ user, s'.user.rows = s.user.rows ++ [user] ∧ s'.wallet = s.wallet ∧ s'.loyaltyAccount = s.loyaltyAccount ∧
    Due s' user (.settle rest none [])

section runs
variable {s s' : Store} {user : User} {t : Thread Env Store Err Note Reply} {g : Env}

theorem Store.equips_iff {userId : Id} : s.Equips userId ↔
    (∃ w ∈ s.wallet.rows, w.userId = userId) ∧ ∃ a ∈ s.loyaltyAccount.rows, a.userId = userId := by
  constructor
  · rintro ⟨⟨w, hw, -⟩, a, ha, -⟩
    exact ⟨⟨w, hw⟩, a, ha⟩
  · rintro ⟨⟨w, hw, hwid⟩, a, ha, haid⟩
    refine ⟨⟨w, ⟨hw, hwid⟩, fun w' h => ?_⟩, a, ⟨ha, haid⟩, fun a' h => ?_⟩
    · exact Table.eq_of_clash h.1 hw (by simp [Indexed.clash, h.2, hwid])
    · exact Table.eq_of_clash h.1 ha (by simp [Indexed.clash, h.2, haid])

theorem Store.Equips.kept {userId : Id} (h : s.Equips userId) (hkept : Kept s s') : s'.Equips userId := by
  obtain ⟨⟨w, hw, hwid⟩, a, ha, haid⟩ := Store.equips_iff.mp h
  obtain ⟨w', hw', hwkey⟩ := hkept.wallet w hw
  obtain ⟨a', ha', hakey⟩ := hkept.account a ha
  exact Store.equips_iff.mpr ⟨⟨w', hw', hwkey.trans hwid⟩, a', ha', hakey.trans haid⟩

theorem step_openWallet {referralCode : Option Id} {f : TokenPair → Reply} {ns : List Note} :
    (Thread.settle (AuthService.openWallet user referralCode >>= fun pair => pure (f pair)) none ns).step g s =
      match attempt (create fun id => ({ id, userId := user.id } : Wallet)) g s with
      | .ok (_, s') =>
        (.settle (AuthService.openAccount user referralCode >>= fun pair => pure (f pair)) none [], s')
      | .error e => (⟨.done (.error e), none, []⟩, s) := by
  rw [AuthService.openWallet, bind_assoc]
  refine (step_prisma g s).trans ?_
  cases attempt (create fun id => ({ id, userId := user.id } : Wallet)) g s <;> rfl

theorem step_openAccount {referralCode : Option Id} {f : TokenPair → Reply} {ns : List Note} :
    (Thread.settle (AuthService.openAccount user referralCode >>= fun pair => pure (f pair)) none ns).step g s =
      match attempt (create fun id => ({ id, userId := user.id } : LoyaltyAccount)) g s with
      | .ok (_, s') => (.settle (AuthService.welcome user referralCode >>= fun pair => pure (f pair)) none [], s')
      | .error e => (⟨.done (.error e), none, []⟩, s) := by
  rw [AuthService.openAccount, bind_assoc]
  refine (step_prisma g s).trans ?_
  cases attempt (create fun id => ({ id, userId := user.id } : LoyaltyAccount)) g s <;> rfl

/-- A registration whose row is refused has ended. -/
theorem Refuses.ends (h : Refuses g s t) : (t.step g s).1.result.isSome = true := by
  cases h with
  | wallet user referralCode f hnot =>
    obtain ⟨e, hcreate⟩ := attempt_create_refused hnot
    rw [step_openWallet, hcreate]
    rfl
  | account user referralCode f hnot =>
    obtain ⟨e, hcreate⟩ := attempt_create_refused hnot
    rw [step_openAccount, hcreate]
    rfl

theorem Due.wallets (h : Due s user t) (hwallet : Persist Wallet.userId s.wallet s'.wallet) : Due s' user t := by
  cases h with
  | wallet referralCode f => exact .wallet referralCode f
  | account referralCode f hopened =>
    obtain ⟨w, hw, hid⟩ := hopened
    obtain ⟨w', hw', hkey⟩ := hwallet w hw
    exact .account referralCode f ⟨w', hw', hkey.trans hid⟩

/-- The next call inserts the wallet, then the loyalty account. -/
theorem Due.step (h : Due s user t) (hok : ¬ Refuses g s t) :
    Kept s (t.step g s).2 ∧ (Due (t.step g s).2 user (t.step g s).1 ∨
      (t.step g s).2.Equips user.id ∧ (t.step g s).1.Until Kept Creates fun _ _ => True) := by
  cases h with
  | wallet referralCode f =>
    have hinsertable : Insertable g s (fun id => ({ id, userId := user.id } : Wallet)) := by
      by_contra hnot
      exact hok (.wallet user referralCode f hnot)
    obtain ⟨w, hrows, hcreate⟩ := attempt_create hinsertable
    rw [step_openWallet, hcreate]
    refine ⟨kept_wallet.create g s _ _ (attempt_ok hcreate), .inl (.account referralCode f ?_)⟩
    exact ⟨{ id := g.newId 0, userId := user.id }, by rw [show (Model.set s w).wallet.rows = _ from hrows]; simp, rfl⟩
  | account referralCode f hopened =>
    have hinsertable : Insertable g s (fun id => ({ id, userId := user.id } : LoyaltyAccount)) := by
      by_contra hnot
      exact hok (.account user referralCode f hnot)
    obtain ⟨a, hrows, hcreate⟩ := attempt_create hinsertable
    rw [step_openAccount, hcreate]
    refine ⟨kept_account.create g s _ _ (attempt_ok hcreate), .inr ⟨Store.equips_iff.mpr ⟨hopened, ?_⟩, ?_⟩⟩
    · exact ⟨{ id := g.newId 0, userId := user.id },
        by rw [show (Model.set s a).loyaltyAccount.rows = _ from hrows]; simp, rfl⟩
    · exact Thread.settle_until (until_of_within (.bind (welcome_kept _ _) fun _ => .pure _) Kept.refl kept_trans
        (by simp) fun _ _ => trivial)

section rules
variable {α : Type} {X : Store → Store → Task α → Prop}
  {Q : Except Err α → Option (Store → Except Err Store) → Prop}

theorem until_query {q : Query α} (hQ : ∀ r, Q r none) : (query q).Until Kept X Q none := by
  refine until_op (fun g s a s' h => ?_) fun _ => hQ _
  obtain ⟨-, rfl⟩ := by simpa using attempt_ok h
  exact ⟨.refl _, hQ _⟩

theorem until_look {q : Env → α} (hQ : ∀ r, Q r none) : (look q).Until Kept X Q none := by
  refine until_op (fun g s a s' h => ?_) fun _ => hQ _
  obtain ⟨-, rfl⟩ := by simpa using h
  exact ⟨.refl _, hQ _⟩

theorem until_prisma {q : Stmt α} (hq : StmtWithin Kept q) (hQ : ∀ r, Q r none) :
    (prisma q).Until Kept X Q none :=
  until_single (fun g s a s' h => .inr ⟨hq g s a s' (attempt_ok h), hQ _⟩) fun _ => hQ _

end rules

theorem until_verifyOtp {X : Store → Store → Task Bool → Prop}
    {Q : Except Err Bool → Option (Store → Except Err Store) → Prop} {phone code : String} {purpose : OtpPurpose}
    (hQ : ∀ r, Q r none) : (OtpService.verifyOtp phone purpose code).Until Kept X Q none := by
  have hend {α : Type} {f : α → Task Bool} (hf : ∀ a, (f a).Until Kept X Q none) (r : Except Err α) :
      (onOk f r).Until Kept X Q none := by
    cases r with
    | ok a => exact hf a
    | error e => exact hQ _
  refine until_bind (until_query (hend fun record => until_bind (until_orThrow (fun record _ => ?_) (hQ _))))
  change (clock >>= _ : Task Bool).Until Kept X Q none
  refine until_bind (until_look (hend fun now => until_bind (until_ensure (fun _ => ?_) (hQ _))))
  refine until_bind (until_ensure (fun _ => ?_) (hQ _))
  change (ite _ _ _ : Task Bool).Until Kept X Q none
  split
  · refine until_bind (until_look (hend fun _ => until_bind (until_prisma (update_within kept_otp)
      (hend fun _ => ?_))))
    exact hQ (.ok true)
  · change (prisma _ >>= _ : Task Bool).Until Kept X Q none
    refine until_bind (until_prisma (update_within kept_otp) (hend fun _ => ?_))
    exact hQ (.ok false)

/-- Up to the user a registration writes nothing but codes. -/
theorem register_until (dto : VerifyRegisterDto) (f : TokenPair → Reply) :
    (AuthService.verifyRegisterAndCreateUser dto >>= fun pair => pure (f pair)).Until Kept Creates
      (fun _ _ => True) none := by
  have hend {α : Type} {f : α → Task Reply} (hf : ∀ a, (f a).Until Kept Creates (fun _ _ => True) none)
      (r : Except Err α) : (onOk f r).Until Kept Creates (fun _ _ => True) none := by
    cases r with
    | ok a => exact hf a
    | error e => trivial
  rw [AuthService.verifyRegisterAndCreateUser_eq, bind_assoc]
  refine until_bind (until_verifyOtp (hend fun isValid => ?_))
  rw [bind_assoc]
  refine until_bind (until_ensure (fun _ => ?_) trivial)
  change ((query (findUnique fun r : User => r.phone == dto.phone) >>= _) >>= _ : Task Reply).Until Kept Creates
    _ none
  rw [bind_assoc]
  refine until_bind (until_query (hend fun existing => ?_))
  rw [bind_assoc]
  refine until_bind (until_ensure (fun _ => ?_) trivial)
  change ((prisma (create dto.user) >>= _) >>= _ : Task Reply).Until Kept Creates _ none
  rw [bind_assoc]
  refine until_bind (until_single (fun g s user s' h => .inl ?_) fun _ => trivial)
  obtain ⟨rfl, hput⟩ := create_ok (attempt_ok h)
  obtain ⟨-, t, ht, rfl⟩ := put_ok hput
  exact ⟨dto.user (g.newId 0), Table.insert_rows ht, rfl, rfl, .wallet dto.referralCode f⟩

theorem serve_until (config : ConfigService) (call : Call) :
    (call.serve config).Until Kept Creates (fun _ _ => True) none := by
  cases hcall : call.registers with
  | none => exact until_of_within (call.serve_kept config hcall) Kept.refl kept_trans (by simp) fun _ _ => trivial
  | some dto =>
    obtain ⟨f, hserve⟩ := @Call.serve_registers config call dto hcall
    rw [hserve]
    exact register_until dto f

variable {ι : Type} [DecidableEq ι] {config : ConfigService} {call : ι → Call} {s₀ : Store}
  {c : Config ι Env Store Err Note Reply} {past : List (ι × Store)}

/-- Who has a wallet and a loyalty account keeps them; who has none yet is due to get them. -/
theorem equipped_of_run (h₀ : ∀ u ∈ s₀.user.rows, s₀.Equips u.id)
    (hrun : Run (fun c i g => ¬ Refuses g c.store (c.thread i)) (.start (fun i => (call i).serve config) s₀) c past) :
    (∀ i, (c.thread i).Until Kept Creates (fun _ _ => True) ∨ ∃ user, Due c.store user (c.thread i)) ∧
      ∀ u ∈ c.store.user.rows, c.store.Equips u.id ∨ ∃ i user, user.id = u.id ∧ Due c.store user (c.thread i) := by
  induction hrun with
  | refl => exact ⟨fun i => .inl (Thread.settle_until (serve_until config (call i))), fun u hu => .inl (h₀ u hu)⟩
  | @step c past j g _ hok ih =>
    obtain ⟨hsound, husers⟩ := ih
    have hothers {user : User} {i : ι} (hij : i ≠ j) (hwallet : Persist Wallet.userId c.store.wallet (c.step j g).store.wallet)
        (hdue : Due c.store user (c.thread i)) : Due (c.step j g).store user ((c.step j g).thread i) := by
      rw [Config.step_thread_other hij]
      exact hdue.wallets hwallet
    have hkeeps (hkept : Kept c.store (c.step j g).store) (hown : ∀ user, Due c.store user (c.thread j) →
        Due (c.step j g).store user ((c.step j g).thread j) ∨ (c.step j g).store.Equips user.id) :
        ∀ u ∈ (c.step j g).store.user.rows, (c.step j g).store.Equips u.id ∨
          ∃ i user, user.id = u.id ∧ Due (c.step j g).store user ((c.step j g).thread i) := by
      intro u hu
      obtain ⟨u₀, hu₀, hid⟩ := hkept.user u hu
      rw [← hid]
      rcases husers u₀ hu₀ with hequips | ⟨i, user, huser, hdue⟩
      · exact .inl (hequips.kept hkept)
      · by_cases hij : i = j
        · subst i
          rcases hown user hdue with hdue | hequips
          · exact .inr ⟨j, user, huser, hdue⟩
          · exact .inl (huser ▸ hequips)
        · exact .inr ⟨i, user, huser, hothers hij hkept.wallet hdue⟩
    have hsound' (hwallet : Persist Wallet.userId c.store.wallet (c.step j g).store.wallet)
        (hj : ((c.step j g).thread j).Until Kept Creates (fun _ _ => True) ∨
          ∃ user, Due (c.step j g).store user ((c.step j g).thread j)) (i : ι) :
        ((c.step j g).thread i).Until Kept Creates (fun _ _ => True) ∨
          ∃ user, Due (c.step j g).store user ((c.step j g).thread i) := by
      by_cases hij : i = j
      · exact hij ▸ hj
      · rcases hsound i with huntil | ⟨user, hdue⟩
        · rw [Config.step_thread_other hij]
          exact .inl huntil
        · exact .inr ⟨user, hothers hij hwallet hdue⟩
    by_cases hdue : ∃ user, Due c.store user (c.thread j)
    · obtain ⟨user, hdue⟩ := hdue
      have hstep {user : User} (hdue : Due c.store user (c.thread j)) := hdue.step hok
      rw [← Config.step_store (c := c) (i := j), ← Config.step_thread_self (c := c) (i := j)] at hstep
      refine ⟨hsound' (hstep hdue).1.wallet ?_, hkeeps (hstep hdue).1 fun user' hdue' => ?_⟩
      · exact (hstep hdue).2.symm.imp And.right fun hdue => ⟨user, hdue⟩
      · exact (hstep hdue').2.imp_right And.left
    · have huntil := (hsound j).resolve_right hdue
      rcases huntil.step (g := g) (s := c.store) Kept.refl with ⟨rest, ⟨user, hrows, hwallet, haccount, hnew⟩, hrest⟩ | ⟨hkept, huntil⟩
      · rw [← Config.step_store] at hrows hwallet haccount hnew
        rw [← Config.step_thread_self] at hrest
        have hgrown : Persist Wallet.userId c.store.wallet (c.step j g).store.wallet := hwallet ▸ .refl _
        rw [← hrest] at hnew
        refine ⟨hsound' hgrown (.inr ⟨user, hnew⟩), fun u hu => ?_⟩
        rw [hrows] at hu
        rcases List.mem_append.mp hu with hu | hu
        · rcases husers u hu with hequips | ⟨i, user', huser, hdue'⟩
          · left
            rwa [Store.Equips, hwallet, haccount]
          · have hij : i ≠ j := fun hij => hdue ⟨user', hij ▸ hdue'⟩
            exact .inr ⟨i, user', huser, hothers hij hgrown hdue'⟩
        · exact .inr ⟨j, user, congrArg _ (List.mem_singleton.mp hu).symm, hnew⟩
      · rw [← Config.step_store] at hkept
        rw [← Config.step_thread_self] at huntil
        exact ⟨hsound' hkept.wallet (.inl huntil), hkeeps hkept fun user h => absurd ⟨user, h⟩ hdue⟩

/-- A registration is all or nothing exactly when it strands nobody. In every run in which the database
refuses no wallet and no loyalty account of a user that has been written, every user has one of each or
is just about to get them. -/
theorem registration_all_or_nothing (config : ConfigService) :
    (∀ world s dto, AllOrNothing world s dto ↔ ¬ Stranded world s dto) ∧
    ∀ (ι : Type) [DecidableEq ι] (call : ι → Call) s₀ c past, (∀ u ∈ s₀.user.rows, s₀.Equips u.id) →
      Run (fun c i g => ¬ Refuses g c.store (c.thread i)) (.start (fun i => (call i).serve config) s₀) c past →
      ∀ u ∈ c.store.user.rows, c.store.Equips u.id ∨ ∃ i user, user.id = u.id ∧ Due c.store user (c.thread i) :=
  ⟨fun _ _ _ => allOrNothing_iff, fun _ _ _ _ _ _ h₀ hrun => (equipped_of_run h₀ hrun).2⟩

end runs

/-- A phone to which a code has been sent. -/
def invited : Store where
  otpCode := .single {
    id := 1, userId := none, phone := "09120000000", codeHash := sha256Hash "111111", purpose := .register
    expiresAt := otpTtl, createdAt := 0 }

/-- Who names that code. -/
def invitation : VerifyRegisterDto where
  phone := "09120000000"
  code := "111111"
  fullName := ""
  password := ""

/-- The database fails at one call. -/
def failingAt (n k : ℕ) : Env := { now := 0, uuid := fun j => 10 * k + j, down := k == n }

/-- A failure before the user is written leaves everything as it was; and a registration that goes well
gives its user a wallet and a loyalty account. -/
theorem registration_all_or_nothing_invited :
    AllOrNothing (failingAt 3) invited invitation ∧ ∃ c past,
      Run (fun c i g => ¬ Refuses g c.store (c.thread i))
        (.start (fun _ : Unit => (Call.verifyRegister invitation).serve {}) invited) c past ∧
      c.store.user.rows.length = 1 ∧ ∀ u ∈ c.store.user.rows,
        c.store.Equips u.id ∨ ∃ i user, user.id = u.id ∧ Due c.store user (c.thread i) := by
  have hadmits : (Config.start (fun _ : Unit => (Call.verifyRegister invitation).serve {}) invited).Admits
      (fun c i g => ((c.step i g).thread i).result.isSome = false)
      ((List.range 8).map fun k => ((), failingAt 100 k)) := by decide +kernel
  have hends (c : Config Unit Env Store Err Note Reply) (i : Unit) (g : Env)
      (hgoing : ((c.step i g).thread i).result.isSome = false) : ¬ Refuses g c.store (c.thread i) := by
    intro hrefuses
    rw [Config.step_thread_self, hrefuses.ends] at hgoing
    cases hgoing
  obtain ⟨past, hrun⟩ := Run.follow .refl (Config.Admits.mono hends hadmits)
  refine ⟨((registration_all_or_nothing {}).1 _ _ _).mpr ?_, _, past, hrun, by decide +kernel,
    (registration_all_or_nothing {}).2 Unit _ _ _ _ (fun u hu => absurd hu List.not_mem_nil) hrun⟩
  rintro ⟨⟨⟨record, hfound, hpasses⟩, -⟩, -⟩
  have hconsumed := hpasses.consumed
  cases hconsumed

/-- The wallet cannot be written: the registration is rejected, but its user is there and the phone is
taken. -/
theorem stranded_user : ¬ ∀ world s dto, (∃ record, findLatest (fun r : OtpCode => r.phone == dto.phone &&
    r.purpose == .register && r.consumedAt == none) OtpCode.createdAt (world 0) s = some record ∧
      record.Passes dto.code world) → AllOrNothing world s dto := by
  intro h
  have hvalid : ∃ record, findLatest (fun r : OtpCode => r.phone == invitation.phone &&
      r.purpose == .register && r.consumedAt == none) OtpCode.createdAt (failingAt 6 0) invited = some record ∧
        record.Passes invitation.code (failingAt 6) :=
    ⟨_, rfl, rfl, by decide, by decide, rfl, rfl⟩
  obtain ⟨hrows, -⟩ := h (failingAt 6) invited invitation hvalid _ _ _ _ rfl
  exact absurd (congrArg List.length hrows) (by decide +kernel)

end BookingPlatform
