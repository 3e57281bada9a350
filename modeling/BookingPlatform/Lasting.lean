import BookingPlatform.Async.Rely
import BookingPlatform.AuthApi
import BookingPlatform.Shape.Requests

/-! A deleted account stays deleted and a revoked token stays revoked, whatever is called. -/
namespace BookingPlatform
open Async Data Prog

/-- Every row stays, and what becomes of it is within `R`. -/
def Advance {T : Type} [Indexed T] (R : T → T → Prop) (t t' : Table T) : Prop :=
  ∀ r ∈ t.rows, ∃ r' ∈ t'.rows, R r r'

section advance
variable {T : Type} [Indexed T] {R : T → T → Prop} {t t' t'' : Table T} {p : T → Bool} {f : T → T} {r : T}

theorem Advance.refl (hR : ∀ r, R r r) (t : Table T) : Advance R t t := fun r hr => ⟨r, hr, hR r⟩

theorem Advance.trans (hR : ∀ {r r' r''}, R r r' → R r' r'' → R r r'') (h : Advance R t t')
    (h' : Advance R t' t'') : Advance R t t'' := by
  intro r hr
  obtain ⟨r', hr', hstep⟩ := h r hr
  obtain ⟨r'', hr'', hstep'⟩ := h' r' hr'
  exact ⟨r'', hr'', hR hstep hstep'⟩

theorem Advance.insert (hR : ∀ r, R r r) (h : t.insert r = some t') : Advance R t t' := by
  intro r' hr'
  refine ⟨r', ?_, hR r'⟩
  rw [Table.insert_rows h]
  exact List.mem_append_left _ hr'

/-- Rows that are rewritten, in a table of which only the rows matter. -/
theorem Advance.map (hR : ∀ r, R r r) (hf : ∀ r, R r (f r))
    (h : t'.rows = t.rows.map fun r => if p r then f r else r) : Advance R t t' := by
  intro r hr
  refine ⟨if p r = true then f r else r, ?_, ?_⟩
  · rw [h]
    exact List.mem_map_of_mem hr
  · by_cases hp : p r = true
    · rw [if_pos hp]
      exact hf r
    · rw [if_neg hp]
      exact hR r

end advance

/-- A user keeps the phone, and once deleted stays deleted. -/
structure User.Stays (u u' : User) : Prop where
  id : u'.id = u.id
  phone : u'.phone = u.phone
  deleted : u.status = .deleted → u'.status = .deleted

/-- A token keeps its hash, and once revoked stays revoked. -/
structure RefreshToken.Stays (t t' : RefreshToken) : Prop where
  id : t'.id = t.id
  userId : t'.userId = t.userId
  tokenHash : t'.tokenHash = t.tokenHash
  revoked : t.revokedAt ≠ none → t'.revokedAt ≠ none

theorem User.Stays.refl (u : User) : u.Stays u := ⟨rfl, rfl, fun h => h⟩

theorem User.Stays.trans {u u' u'' : User} (h : u.Stays u') (h' : u'.Stays u'') : u.Stays u'' :=
  ⟨h'.id.trans h.id, h'.phone.trans h.phone, fun hd => h'.deleted (h.deleted hd)⟩

theorem RefreshToken.Stays.refl (t : RefreshToken) : t.Stays t := ⟨rfl, rfl, rfl, fun h => h⟩

theorem RefreshToken.Stays.trans {t t' t'' : RefreshToken} (h : t.Stays t') (h' : t'.Stays t'') :
    t.Stays t'' :=
  ⟨h'.id.trans h.id, h'.userId.trans h.userId, h'.tokenHash.trans h.tokenHash,
    fun hr => h'.revoked (h.revoked hr)⟩

/-- Users and tokens never come back. -/
structure Lasting (s s' : Store) : Prop where
  user : Advance User.Stays s.user s'.user
  token : Advance RefreshToken.Stays s.refreshToken s'.refreshToken

section lasting
variable {s s' s'' : Store}

theorem Lasting.refl (s : Store) : Lasting s s := ⟨.refl .refl _, .refl .refl _⟩

theorem Lasting.trans (h : Lasting s s') (h' : Lasting s' s'') : Lasting s s'' :=
  ⟨h.user.trans .trans h'.user, h.token.trans .trans h'.token⟩

theorem lasting_trans (s s' s'' : Store) (h : Lasting s s') (h' : Lasting s' s'') : Lasting s s'' :=
  h.trans h'

/-- A table of neither users nor tokens. -/
theorem lasting_may {T : Type} [Model T] (h₁ : ∀ (s : Store) (t : Table T), (Model.set s t).user = s.user)
    (h₂ : ∀ (s : Store) (t : Table T), (Model.set s t).refreshToken = s.refreshToken) : May Lasting T := by
  intro s t
  constructor
  · rw [h₁]
    exact .refl .refl _
  · rw [h₂]
    exact .refl .refl _

theorem lasting_user {t : Table User} (h : Advance User.Stays s.user t) : Lasting s (Model.set s t) :=
  ⟨h, .refl .refl _⟩

theorem lasting_token {t : Table RefreshToken} (h : Advance RefreshToken.Stays s.refreshToken t) :
    Lasting s (Model.set s t) := ⟨.refl .refl _, h⟩

theorem create_user_lasting {row : Id → User} : StmtWithin Lasting (create row) := by
  intro g s r s' h
  obtain ⟨-, t, ht, rfl⟩ := put_ok (create_ok h).2
  exact lasting_user (.insert .refl ht)

theorem create_token_lasting {row : Id → RefreshToken} : StmtWithin Lasting (create row) := by
  intro g s r s' h
  obtain ⟨-, t, ht, rfl⟩ := put_ok (create_ok h).2
  exact lasting_token (.insert .refl ht)

theorem update_user_lasting {p : User → Bool} {f : User → User} {hf : Table.Keeps f}
    (hstays : ∀ u, User.Stays u (f u)) : StmtWithin Lasting (update p f hf) := by
  intro g s r s' h
  rw [(update_ok h).2]
  exact lasting_user (.map .refl hstays rfl)

theorem updateUnique_user_lasting {p : User → Bool} {f : User → User}
    (hstays : ∀ u, User.Stays u (f u)) : StmtWithin Lasting (updateUnique p f) := by
  intro g s r s' h
  obtain ⟨-, t, ht, rfl⟩ := updateUnique_ok h
  exact lasting_user (.map .refl hstays (Table.rewrite_rows ht))

theorem revoke_stays (now : Time) (t : RefreshToken) : t.Stays { t with revokedAt := some now } :=
  ⟨rfl, rfl, rfl, fun _ => by simp⟩

theorem revoke_lasting {p : RefreshToken → Bool} {now : Time}
    {hf : Table.Keeps fun t : RefreshToken => { t with revokedAt := some now }} :
    StmtWithin Lasting (update p (fun t => { t with revokedAt := some now }) hf) := by
  intro g s r s' h
  rw [(update_ok h).2]
  exact lasting_token (.map .refl (revoke_stays now) rfl)

theorem revokeMany_lasting {p : RefreshToken → Bool} {now : Time}
    {hf : Table.Keeps fun t : RefreshToken => { t with revokedAt := some now }} :
    StmtWithin Lasting (updateMany p (fun t => { t with revokedAt := some now }) hf) := by
  intro g s r s' h
  obtain ⟨-, rfl⟩ := by simpa [updateMany] using h
  exact lasting_token (.map .refl (revoke_stays now) rfl)

/-! ### What the calls do -/

theorem otp_lasting : May Lasting OtpCode := lasting_may (fun _ _ => rfl) fun _ _ => rfl

theorem requestOtp_lasting (config : ConfigService) (phone : String) (purpose : OtpPurpose)
    (userId : Option Id) :
    Within Lasting (fun _ => True) true (OtpService.requestOtp config phone purpose userId) :=
  requestOtp_within .refl otp_lasting _ _ _ _

theorem verifyOtp_lasting (phone : String) (purpose : OtpPurpose) (code : String) :
    Within Lasting (fun _ => True) true (OtpService.verifyOtp phone purpose code) :=
  verifyOtp_within .refl (fun _ _ => trivial) otp_lasting _ _ _

theorem issueTokenPair_lasting (userId : Id) (role : GlobalRole) :
    Within Lasting (fun _ => True) true (AuthService.issueTokenPair userId role) :=
  .bind (within_look .refl _) fun _ => .bind (within_look .refl _) fun _ =>
    .bind (within_prisma create_token_lasting) fun _ => .pure _

theorem verifyRegisterAndCreateUser_lasting (dto : VerifyRegisterDto) :
    Within Lasting (fun _ => True) true (AuthService.verifyRegisterAndCreateUser dto) := by
  refine .bind (verifyOtp_lasting _ _ _) fun _ => .bind (.ensure _ _) fun _ =>
    .bind (within_query .refl _) fun _ => .bind (.ensure _ _) fun _ => .bind (.mark trivial) fun _ =>
    .bind (within_prisma create_user_lasting) fun _ => .bind (.mark trivial) fun _ =>
    .bind (within_prisma (create_within (lasting_may (fun _ _ => rfl) fun _ _ => rfl))) fun _ =>
    .bind (within_prisma (create_within (lasting_may (fun _ _ => rfl) fun _ _ => rfl))) fun _ =>
    .bind ?_ fun _ => issueTokenPair_lasting _ _
  split
  · exact registerReferral_within .refl (lasting_may (fun _ _ => rfl) fun _ _ => rfl) _ _
  · exact .pure _

theorem resetPassword_lasting (dto : ResetPasswordDto) :
    Within Lasting (fun _ => True) true (AuthService.resetPassword dto) :=
  .bind (within_query .refl _) fun _ => .bind (.orThrow _ _) fun _ =>
    .bind (verifyOtp_lasting _ _ _) fun _ => .bind (.ensure _ _) fun _ =>
    .bind (within_prisma (update_user_lasting fun _ => ⟨rfl, rfl, fun h => h⟩)) fun _ =>
    .bind (.mark trivial) fun _ => .bind (within_look .refl _) fun _ =>
    .bind (within_prisma revokeMany_lasting) fun _ => .pure _

theorem refreshTokens_lasting (rawRefreshToken : String) :
    Within Lasting (fun _ => True) true (AuthService.refreshTokens rawRefreshToken) :=
  .bind (within_query .refl _) fun _ => .bind (.orThrow _ _) fun _ => .bind (.mark trivial) fun _ =>
    .bind (within_look .refl _) fun _ => .bind (.ensure _ _) fun _ => .bind (within_query .refl _) fun _ =>
    .bind (.orThrow _ _) fun _ => .bind (within_look .refl _) fun _ =>
    .bind (within_prisma revoke_lasting) fun _ => .bind (.mark trivial) fun _ => issueTokenPair_lasting _ _

/-- The status is written by the deletion of an account only, which never undoes it. -/
theorem Request.serve_lasting (r : Request) : Within Lasting (fun _ => True) true r.serve := by
  have hlock : MayLock Lasting := fun s t => ⟨.refl .refl _, .refl .refl _⟩
  cases r with
  | register dto => exact discard_within (verifyRegisterAndCreateUser_lasting dto)
  | updateProfile user dto =>
    refine authenticated_within .refl (fun _ => trivial) fun _ => .bind ?_ fun _ =>
      .bind (.mark trivial) fun _ => within_prisma (updateUnique_user_lasting fun _ => ⟨rfl, rfl, fun h => h⟩)
    split
    · exact .bind (within_query .refl _) fun _ => .ensure _ _
    · exact .pure _
  | revokeSession user sessionId =>
    exact authenticated_within .refl (fun _ => trivial) fun _ => .bind (within_query .refl _) fun _ =>
      .bind (.orThrow _ _) fun _ => .bind (within_look .refl _) fun _ =>
      .bind (within_prisma revoke_lasting) fun _ => .pure _
  | requestAccountDeletion user =>
    exact authenticated_within .refl (fun _ => trivial) fun _ => .bind (.mark trivial) fun _ =>
      .bind (within_look .refl _) fun _ =>
      .bind (within_prisma (updateUnique_user_lasting fun _ => ⟨rfl, rfl, fun _ => rfl⟩)) fun _ =>
      .bind (within_look .refl _) fun _ => .bind (within_prisma revokeMany_lasting) fun _ => .pure _
  | business user businessId route =>
    refine Request.serve_within .refl lasting_trans (fun _ => trivial) ?_
    cases route
    all_goals first
      | trivial
      | exact lasting_may (fun _ _ => rfl) fun _ _ => rfl
  | _ =>
    refine Request.serve_within .refl lasting_trans (fun _ => trivial) ?_
    simp only [Request.Writes]
    and_intros
    all_goals first
      | trivial
      | exact hlock
      | exact lasting_may (fun _ _ => rfl) fun _ _ => rfl

theorem Call.serve_lasting (config : ConfigService) (call : Call) :
    Within Lasting (fun _ => True) true (call.serve config) := by
  cases call with
  | validate sub =>
    exact .bind (.bind (within_query .refl _) fun _ => .bind (.orThrow _ _) fun _ =>
      .bind (.mark trivial) fun _ => .pure _) fun _ => .pure _
  | requestRegisterOtp phone =>
    exact .bind (.bind (within_query .refl _) fun _ => .bind (.ensure _ _) fun _ =>
      requestOtp_lasting _ _ _ _) fun _ => .pure _
  | verifyRegister dto => exact .bind (verifyRegisterAndCreateUser_lasting dto) fun _ => .pure _
  | login dto =>
    exact .bind (.bind (within_query .refl _) fun _ => .bind (.orThrow _ _) fun _ =>
      .bind (.ensure _ _) fun _ => .bind (.mark trivial) fun _ => issueTokenPair_lasting _ _) fun _ => .pure _
  | requestLoginOtp phone =>
    refine .bind (.bind (within_query .refl _) fun user => ?_) fun _ => .pure _
    split
    · exact .pure _
    · exact requestOtp_lasting _ _ _ _
  | verifyLoginOtp dto =>
    exact .bind (.bind (within_query .refl _) fun _ => .bind (.orThrow _ _) fun _ =>
      .bind (verifyOtp_lasting _ _ _) fun _ => .bind (.ensure _ _) fun _ => issueTokenPair_lasting _ _)
        fun _ => .pure _
  | refresh rawToken =>
    simp only [Call.serve]
    split
    · exact .pure _
    · exact .bind (refreshTokens_lasting _) fun _ => .pure _
  | logout rawToken =>
    simp only [Call.serve]
    split
    · exact .pure _
    · exact .bind (.bind (within_look .refl _) fun _ => .bind (within_prisma revokeMany_lasting) fun _ =>
        .pure _) fun _ => .pure _
  | forgotPassword phone =>
    refine .bind (.bind (within_query .refl _) fun user => ?_) fun _ => .pure _
    cases user with
    | none => exact .pure _
    | some user => exact requestOtp_lasting _ _ _ _
  | resetPassword dto => exact .bind (resetPassword_lasting dto) fun _ => .pure _
  | me user =>
    exact .bind (authenticated_within .refl (fun _ => trivial) fun _ => .bind (within_query .refl _) fun _ =>
      .orThrow _ _) fun _ => .pure _
  | request r => exact .bind r.serve_lasting fun _ => .pure _

end lasting

/-- The contract of all calls. -/
abbrev lasting : Contract Env Store Note := .keeping Lasting Lasting.refl lasting_trans

end BookingPlatform
