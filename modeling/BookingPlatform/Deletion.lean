import BookingPlatform.Lasting

/-! A deleted account never acts again. -/
namespace BookingPlatform
open Async Data Prog

/-- This user's account is deleted. -/
def Store.Gone (s : Store) (u : User) : Prop :=
  ∃ r ∈ s.user.rows, r.id = u.id ∧ r.phone = u.phone ∧ r.status = .deleted

/-- The token of this text is revoked. -/
def Store.Dead (s : Store) (rawToken : String) : Prop :=
  ∃ t ∈ s.refreshToken.rows, t.tokenHash = sha256Hash rawToken ∧ t.revokedAt ≠ none

section late
variable {s s' s₀ : Store} {u v : User} {ns : List Note} {g : Env} {config : ConfigService}

/-- A request with a subject is behind the guard. -/
theorem Request.serve_authenticated {r : Request} {user : Id} (h : r.user = some user) :
    ∃ (α : Type) (f : AuthenticatedUser → Task α), r.serve = authenticated user f := by
  cases r <;> simp only [Request.user, Option.some.injEq, reduceCtorEq] at h <;> subst h <;> exact ⟨_, _, rfl⟩

theorem Store.Gone.mono (h : Lasting s s') (hu : s.Gone u) : s'.Gone u := by
  obtain ⟨r, hr, hid, hphone, hdeleted⟩ := hu
  obtain ⟨r', hr', hstays⟩ := h.user r hr
  exact ⟨r', hr', hstays.id.trans hid, hstays.phone.trans hphone, hstays.deleted hdeleted⟩

theorem Store.Dead.mono {rawToken : String} (h : Lasting s s') (ht : s.Dead rawToken) : s'.Dead rawToken := by
  obtain ⟨t, ht, hhash, hrevoked⟩ := ht
  obtain ⟨t', ht', hstays⟩ := h.token t ht
  exact ⟨t', ht', hstays.tokenHash.trans hhash, hstays.revoked hrevoked⟩

/-- Whom a lookup finds active is not the deleted user, by neither key. -/
theorem Store.Gone.other {p : User → Bool} (h : s.Gone u)
    (hv : (findUnique p g s).filter (fun u => u.status = .active) = some v) :
    p v = true ∧ v.id ≠ u.id ∧ v.phone ≠ u.phone := by
  obtain ⟨hfound, hactive⟩ := Option.filter_eq_some_iff.mp hv
  obtain ⟨hmem, hp⟩ := findUnique_some hfound
  obtain ⟨r, hr, hid, hphone, hdeleted⟩ := h
  have hne : v ≠ r := by
    rintro rfl
    simp [hdeleted] at hactive
  refine ⟨hp, fun hsame => hne ?_, fun hsame => hne ?_⟩
  · exact Table.eq_of_clash hmem hr (by simp [Indexed.clash, hsame, hid])
  · exact Table.eq_of_clash hmem hr (by simp [Indexed.clash, hsame, hphone])

/-- What a call may not answer when this user is deleted. -/
structure Call.Spurns (call : Call) (u : User) (reply : Reply) : Prop where
  grants : ¬ reply.grants u.id
  phone : call.loginPhone ≠ some u.phone
  subject : call.subject ≠ some u.id

theorem issueTokenPair_spurns {call : Call} {userId : Id} {role : GlobalRole} (hid : userId ≠ u.id)
    (hphone : call.loginPhone ≠ some u.phone) (hsubject : call.subject ≠ some u.id) : wp lasting
      (returning fun pair => call.Spurns u (.tokens pair)) (AuthService.issueTokenPair userId role) none ns s₀ s := by
  apply AuthService.wp_issueTokenPair
  · intro refreshToken t s₁ s₂ _ _ _ _ hput
    obtain ⟨-, t', ht', rfl⟩ := put_ok hput
    refine ⟨lasting_token (.insert .refl ht'), ?_⟩
    rintro pair ⟨⟩
    exact ⟨hid, hphone, hsubject⟩
  · intro e ns s₁ _
    exact returning_error

/-- A call whose answers let nobody act. -/
theorem serve_spurns {α : Type} {call : Call} {p : Task α} {f : α → Reply}
    (h : Within Lasting (fun _ => True) true p) (hf : ∀ a, call.Spurns u (f a)) :
    wp lasting (returning (call.Spurns u)) (p >>= fun a => pure (f a)) none [] s s :=
  wp_return (wp_mono (fun _ _ _ _ _ _ a _ => hf a) h.keeping)

/-- The strategy lets no guarded route begin. -/
theorem authenticated_spurns {α : Type} {f : AuthenticatedUser → Task α} (h : s.Gone u) :
    wp lasting (returning fun _ => False) (authenticated u.id f) none [] s s := by
  refine (wp_bind _ _).mpr ((wp_bind _ _).mpr (wp_query (fun g s₁ hr => ?_) fun _ _ => by rintro a ⟨⟩))
  refine (wp_bind _ _).mpr ((wp_orThrow _ _).mpr ⟨fun v hv => ?_, fun _ => by rintro a ⟨⟩⟩)
  obtain ⟨hp, hid, -⟩ := (h.mono hr).other hv
  exact absurd (beq_iff_eq.mp hp) hid

theorem validate_spurns {sub : Id} (h : s.Gone u) : wp lasting
    (returning ((Call.validate sub).Spurns u)) ((Call.validate sub).serve config) none [] s s := by
  refine wp_return ((wp_bind _ _).mpr (wp_query (fun g s₁ hr => ?_) fun _ _ => returning_error))
  refine (wp_bind _ _).mpr ((wp_orThrow _ _).mpr ⟨fun v hv => ?_, fun _ => returning_error⟩)
  obtain ⟨hp, hid, -⟩ := (h.mono hr).other hv
  refine (wp_bind _ _).mpr ((wp_mark _).mpr ⟨trivial, ?_⟩)
  rintro a ⟨⟩
  rw [beq_iff_eq] at hp
  exact ⟨hid, by simp [Call.loginPhone], by simpa [Call.subject, ← hp] using hid⟩

theorem verifyRegister_spurns {dto : VerifyRegisterDto} (h : s.Gone u) : wp lasting
    (returning ((Call.verifyRegister dto).Spurns u)) ((Call.verifyRegister dto).serve config) none [] s s := by
  have hgone : ∀ s s' : Store, Lasting s s' → s.Gone u → s'.Gone u := fun s s' hl hu => hu.mono hl
  refine wp_return ((wp_bind _ _).mpr (OtpService.wp_verifyOtp (I := fun s => s.Gone u)
    (fun _ _ _ _ => ⟨trivial, trivial⟩) hgone
    (fun _ s t hu => ⟨otp_lasting s t, hgone _ _ (otp_lasting s t) hu⟩) (fun r ns s₀ s hu => ?_) h))
  cases r with
  | error e => exact returning_error
  | ok isValid =>
    refine (wp_bind _ _).mpr ((wp_ensure _ _).mpr ⟨fun _ => ?_, fun _ => returning_error⟩)
    refine (wp_bind _ _).mpr (wp_query (fun g s₁ hr₁ => ?_) fun _ _ => returning_error)
    refine (wp_bind _ _).mpr ((wp_ensure _ _).mpr ⟨fun _ => ?_, fun _ => returning_error⟩)
    refine (wp_bind _ _).mpr ((wp_mark _).mpr ⟨trivial, ?_⟩)
    refine (wp_bind _ _).mpr (wp_prisma (fun g s₂ v s₃ _ hr₂ hcreate => ?_) fun _ _ _ _ _ _ => returning_error)
    -- The identifier of the new user is one that no row has.
    have hid : v.id ≠ u.id := by
      obtain ⟨-, hput⟩ := create_ok hcreate
      obtain ⟨-, t, ht, -⟩ := put_ok hput
      obtain ⟨r, hr, hrid, -⟩ := (hu.mono hr₁).mono hr₂
      intro hsame
      have hfresh := Table.insert_fresh ht r hr
      simp [Indexed.clash, hrid, hsame] at hfresh
    refine ⟨create_user_lasting _ _ _ _ hcreate, ?_⟩
    have hwrite {T : Type} [Model T] (hT : May Lasting T) {row : Id → T} {p : Task TokenPair} {ns : List Note}
        {s₀ s : Store} (hp : ∀ s₀ s, wp lasting (returning fun pair => (Call.verifyRegister dto).Spurns u
          (.tokens pair)) p none [] s₀ s) : wp lasting (returning fun pair =>
            (Call.verifyRegister dto).Spurns u (.tokens pair)) (prisma (create row) >>= fun _ => p) none ns s₀ s :=
      (wp_bind _ _).mpr (wp_prisma (fun g s₁ a s₂ _ _ h => ⟨create_within hT _ _ _ _ h, hp _ _⟩)
        fun _ _ _ _ _ _ => returning_error)
    refine (wp_bind _ _).mpr ((wp_mark _).mpr ⟨trivial, hwrite (lasting_may (fun _ _ => rfl) fun _ _ => rfl)
      fun s₀ s => hwrite (lasting_may (fun _ _ => rfl) fun _ _ => rfl) fun s₀ s => ?_⟩)
    have hissue : ∀ ns s₀ s, wp lasting (returning fun pair => (Call.verifyRegister dto).Spurns u (.tokens pair))
        (AuthService.issueTokenPair v.id v.globalRole) none ns s₀ s := fun _ _ _ =>
      issueTokenPair_spurns hid (by simp [Call.loginPhone]) (by simp [Call.subject])
    split
    · exact (wp_bind _ _).mpr (ReferralService.wp_registerReferral
        (fun _ s t => lasting_may (fun _ _ => rfl) (fun _ _ => rfl) s t) fun _ _ _ => hissue _ _ _)
    · exact hissue _ _ _

theorem login_spurns {dto : LoginDto} (h : s.Gone u) : wp lasting
    (returning ((Call.login dto).Spurns u)) ((Call.login dto).serve config) none [] s s := by
  refine wp_return ((wp_bind _ _).mpr (wp_query (fun g s₁ hr => ?_) fun _ _ => returning_error))
  refine (wp_bind _ _).mpr ((wp_orThrow _ _).mpr ⟨fun v hv => ?_, fun _ => returning_error⟩)
  obtain ⟨hp, hid, hphone⟩ := (h.mono hr).other hv
  refine (wp_bind _ _).mpr ((wp_ensure _ _).mpr ⟨fun _ => ?_, fun _ => returning_error⟩)
  refine (wp_bind _ _).mpr ((wp_mark _).mpr ⟨trivial, issueTokenPair_spurns hid ?_ (by simp [Call.subject])⟩)
  rw [beq_iff_eq] at hp
  simpa [Call.loginPhone, ← hp] using hphone

theorem verifyLoginOtp_spurns {dto : VerifyLoginOtpDto} (h : s.Gone u) : wp lasting
    (returning ((Call.verifyLoginOtp dto).Spurns u)) ((Call.verifyLoginOtp dto).serve config) none [] s s := by
  refine wp_return ((wp_bind _ _).mpr (wp_query (fun g s₁ hr => ?_) fun _ _ => returning_error))
  refine (wp_bind _ _).mpr ((wp_orThrow _ _).mpr ⟨fun v hv => ?_, fun _ => returning_error⟩)
  obtain ⟨hp, hid, hphone⟩ := (h.mono hr).other hv
  refine (wp_bind _ _).mpr (OtpService.wp_verifyOtp (I := fun _ => True) (fun _ _ _ _ => ⟨trivial, trivial⟩)
    (fun _ _ _ _ => trivial) (fun _ s t _ => ⟨otp_lasting s t, trivial⟩) (fun r ns s₀ s _ => ?_) trivial)
  cases r with
  | error e => exact returning_error
  | ok isValid =>
    refine (wp_bind _ _).mpr ((wp_ensure _ _).mpr ⟨fun _ => issueTokenPair_spurns hid ?_
      (by simp [Call.subject]), fun _ => returning_error⟩)
    rw [beq_iff_eq] at hp
    simpa [Call.loginPhone, ← hp] using hphone

theorem refreshTokens_spurns {rawToken : Option String} {raw : String} (h : s.Gone u) : wp lasting
    (returning fun pair => (Call.refresh rawToken).Spurns u (.tokens pair)) (AuthService.refreshTokens raw)
      none [] s s := by
  refine (wp_bind _ _).mpr (wp_query (fun g s₁ hr₁ => ?_) fun _ _ => returning_error)
  refine (wp_bind _ _).mpr ((wp_orThrow _ _).mpr ⟨fun record _ => ?_, fun _ => returning_error⟩)
  refine (wp_bind _ _).mpr ((wp_mark _).mpr ⟨trivial, (wp_bind _ _).mpr (wp_look fun g s₂ hr₂ => ?_)⟩)
  refine (wp_bind _ _).mpr ((wp_ensure _ _).mpr ⟨fun _ => ?_, fun _ => returning_error⟩)
  refine (wp_bind _ _).mpr (wp_query (fun g s₃ hr₃ => ?_) fun _ _ => returning_error)
  refine (wp_bind _ _).mpr ((wp_orThrow _ _).mpr ⟨fun v hv => ?_, fun _ => returning_error⟩)
  obtain ⟨-, hid, -⟩ := (((h.mono hr₁).mono hr₂).mono hr₃).other hv
  refine (wp_bind _ _).mpr (wp_look fun g s₄ _ => ?_)
  refine (wp_bind _ _).mpr (wp_prisma (fun g s₅ t s₆ _ _ hupdate => ?_) fun _ _ _ _ _ _ => returning_error)
  refine ⟨revoke_lasting _ _ _ _ hupdate, (wp_bind _ _).mpr ((wp_mark _).mpr ⟨trivial, ?_⟩)⟩
  exact issueTokenPair_spurns hid (by simp [Call.loginPhone]) (by simp [Call.subject])

/-- A call that begins when a user is deleted. -/
theorem Call.spurns (h : s.Gone u) (call : Call) :
    wp lasting (returning (call.Spurns u)) (call.serve config) none [] s s := by
  have harmless {call : Call} {α : Type} {p : Task α} {f : α → Reply}
      (hp : Within Lasting (fun _ => True) true p) (hgrants : ∀ a, ¬ (f a).grants u.id)
      (hphone : call.loginPhone = none) (hsubject : call.subject = none) :
      wp lasting (returning (call.Spurns u)) (p >>= fun a => pure (f a)) none [] s s :=
    serve_spurns hp fun a => ⟨hgrants a, by simp [hphone], by simp [hsubject]⟩
  have guarded {call : Call} {α : Type} {f : AuthenticatedUser → Task α} :
      wp lasting (returning (call.Spurns u)) (authenticated u.id f >>= fun _ => pure Reply.done) none [] s s :=
    wp_return (wp_mono (fun _ _ _ _ _ hr a ha => (hr a ha).elim) (authenticated_spurns h))
  cases call with
  | validate sub => exact validate_spurns h
  | verifyRegister dto => exact verifyRegister_spurns h
  | login dto => exact login_spurns h
  | verifyLoginOtp dto => exact verifyLoginOtp_spurns h
  | requestRegisterOtp phone =>
    exact harmless (.bind (within_query .refl _) fun _ => .bind (.ensure _ _) fun _ =>
      requestOtp_lasting _ _ _ _) (fun _ => id) rfl rfl
  | requestLoginOtp phone =>
    refine harmless (.bind (within_query .refl _) fun user => ?_) (fun _ => id) rfl rfl
    split
    · exact .pure _
    · exact requestOtp_lasting _ _ _ _
  | forgotPassword phone =>
    refine harmless (.bind (within_query .refl _) fun user => ?_) (fun _ => id) rfl rfl
    cases user with
    | none => exact .pure _
    | some user => exact requestOtp_lasting _ _ _ _
  | resetPassword dto => exact harmless (resetPassword_lasting dto) (fun _ => id) rfl rfl
  | refresh rawToken =>
    simp only [Call.serve]
    split
    · rintro a ⟨⟩
      exact ⟨id, by simp [Call.loginPhone], by simp [Call.subject]⟩
    · exact wp_return (refreshTokens_spurns h)
  | logout rawToken =>
    simp only [Call.serve]
    split
    · rintro a ⟨⟩
      exact ⟨id, by simp [Call.loginPhone], by simp [Call.subject]⟩
    · exact harmless (.bind (within_look .refl _) fun _ => .bind (within_prisma revokeMany_lasting) fun _ =>
        .pure _) (fun _ => id) rfl rfl
  | me user =>
    by_cases huser : user = u.id
    · subst huser
      exact guarded
    · refine serve_spurns (authenticated_within .refl (fun _ => trivial) fun _ =>
        .bind (within_query .refl _) fun _ => .orThrow _ _) fun _ => ⟨id, by simp [Call.loginPhone], ?_⟩
      simpa [Call.subject] using huser
  | request r =>
    by_cases huser : r.user = some u.id
    · obtain ⟨α, f, hserve⟩ := r.serve_authenticated huser
      simp only [Call.serve, hserve]
      exact guarded
    · exact serve_spurns r.serve_lasting fun _ => ⟨id, by simp [Call.loginPhone], huser⟩

/-- A lookup that comes after the revocation refuses the token. -/
theorem refreshTokens_dead {raw : String} (h : s.Dead raw) :
    wp lasting (returning fun _ => False) (AuthService.refreshTokens raw) none [] s s := by
  refine (wp_bind _ _).mpr (wp_query (fun g s₁ hr => ?_) fun _ _ => returning_error)
  refine (wp_bind _ _).mpr ((wp_orThrow _ _).mpr ⟨fun record hrecord => ?_, fun _ => returning_error⟩)
  obtain ⟨hfound, hlive⟩ := Option.filter_eq_some_iff.mp hrecord
  obtain ⟨hmem, hhash⟩ := findUnique_some hfound
  obtain ⟨t, ht, htoken, hrevoked⟩ := h.mono hr
  rw [beq_iff_eq] at hhash
  obtain rfl : record = t := Table.eq_of_clash hmem ht (by simp [Indexed.clash, hhash, htoken])
  exact absurd (by simpa using hlive) hrevoked

end late

/-! ### Every run -/

section runs
variable {config : ConfigService} {s s' s₀ : Store}

/-- The row of this user says that the account is deleted. -/
def Store.Expunged (s : Store) (user : Id) : Prop := ∃ u ∈ s.user.rows, u.id = user ∧ u.status = .deleted

theorem Store.Expunged.mono {user : Id} (h : Lasting s s') (hu : s.Expunged user) : s'.Expunged user := by
  obtain ⟨u, hu, hid, hdeleted⟩ := hu
  obtain ⟨u', hu', hstays⟩ := h.user u hu
  exact ⟨u', hu', hstays.id.trans hid, hstays.deleted hdeleted⟩

/-- The contract of a deletion: it writes users only to delete this one. -/
def expunging (user : Id) : Contract Env Store Note where
  env _ _ := True
  rely _ _ := True
  rely_refl _ := trivial
  rely_trans _ _ := trivial
  note _ _ _ _ := True
  auto _ s s' := s' = s
  commit _ s s' := s'.user = s.user ∨ s'.Expunged user
  read _ _ := rfl

theorem requestAccountDeletion_expunges {user : Id} : wp (expunging user) anyway
    ((Call.request (.requestAccountDeletion user)).serve config) none [] s s := by
  refine wp_map ((wp_bind _ _).mpr ((wp_bind _ _).mpr (wp_query (fun g s₁ _ => ?_) fun _ _ => trivial)))
  refine (wp_bind _ _).mpr ((wp_orThrow _ _).mpr ⟨fun v hv => ?_, fun _ => trivial⟩)
  obtain ⟨hfound, -⟩ := Option.filter_eq_some_iff.mp hv
  have hid : v.id = user := by simpa using (findUnique_some hfound).2
  refine (wp_bind _ _).mpr ((wp_mark _).mpr ⟨trivial, (wp_bind _ _).mpr ?_⟩)
  refine (wp_bind _ _).mpr ((wp_mark _).mpr ⟨trivial, (wp_bind _ _).mpr (wp_look fun g₂ s₂ _ => ?_)⟩)
  refine (wp_bind _ _).mpr (wp_prisma (fun g₃ s₃ u s₄ _ _ h => ⟨.inr ?_, ?_⟩) fun _ _ _ _ _ _ => trivial)
  · obtain ⟨⟨r, hr, hp, -⟩, t, ht, rfl⟩ := updateUnique_ok h
    refine ⟨{ r with status := .deleted, deletedAt := some g₂.now, email := none }, ?_, ?_, rfl⟩
    · change _ ∈ t.rows
      rw [Table.rewrite_rows ht]
      exact List.mem_map.mpr ⟨r, hr, if_pos hp⟩
    · exact (beq_iff_eq.mp hp).trans hid
  · refine (wp_bind _ _).mpr (wp_look fun g s₅ _ => ?_)
    refine (wp_bind _ _).mpr (wp_prisma (fun g s₆ n s₇ _ _ h => ⟨.inl ?_, trivial⟩) fun _ _ _ _ _ _ => trivial)
    obtain ⟨-, rfl⟩ := by simpa [updateMany] using h
    rfl

/-- The contract of a call of which only deletions are watched. -/
def Call.watched : Call → Contract Env Store Note
  | .request (.requestAccountDeletion user) => expunging user
  | _ => .free

variable {ι : Type} [DecidableEq ι] {call : ι → Call}
  {allowed allowed' : Config ι Env Store Err Note Reply → ι → Env → Prop}
  {c c' : Config ι Env Store Err Note Reply} {past past' : List (ι × Store)}

omit [DecidableEq ι] in
theorem watched_concurrent :
    Concurrent (fun i => (call i).watched) (fun i => (call i).serve config) allowed where
  rely := by
    intro i s s'
    unfold Call.watched
    split <;> trivial
  env := by
    intro c i g _
    unfold Call.watched
    split <;> trivial
  owes := by
    intro i s
    unfold Call.watched
    split
    · rename_i user heq
      rw [heq]
      exact requestAccountDeletion_expunges
    · exact wp_free _

/-- Once a deletion has written the user, the user is deleted. -/
theorem deletion_expunges (hrun : Run allowed (.start (fun i => (call i).serve config) s₀) c past) :
    ∀ y ∈ steps past c.store, ∀ user, call y.1 = .request (.requestAccountDeletion user) →
      y.2.2.user ≠ y.2.1.user → c.store.Expunged user := by
  have hkeep : ∀ y ∈ steps past c.store, Lasting y.2.1 y.2.2 := by
    refine Run.steps_forall (G := fun _ s s' => Lasting s s') (fun {c past i g} hrun ha => ?_) hrun
    have hnow : c.Keeping Lasting Lasting.refl lasting_trans fun _ => anyway :=
      (Run.keeping (Config.start_keeping fun i => ((call i).serve_lasting config).keeping) hrun).2
    exact (Run.keeping hnow (.step .refl ha)).1
  have hwrite : ∀ y ∈ steps past c.store, ∀ user, call y.1 = .request (.requestAccountDeletion user) →
      y.2.2.user = y.2.1.user ∨ y.2.2.Expunged user := by
    refine Run.steps_forall (G := fun i s s' => ∀ user, call i = .request (.requestAccountDeletion user) →
      s'.user = s.user ∨ s'.Expunged user) (fun {c past i g} hrun ha user hcall => ?_) hrun
    have hstep := Run.step_store watched_concurrent hrun ha
    simp only [hcall, Call.watched] at hstep
    rcases hstep with ⟨-, hcommit⟩ | hauto
    · exact hcommit
    · rw [show (c.step i g).store = c.store from hauto]
      exact .inl rfl
  intro y hy user hcall hne
  have hgone := (hwrite y hy user hcall).resolve_left hne
  exact steps_kept (P := fun s => s.Expunged user) (fun x hx hold => hold.mono (hkeep x hx)) y hy hgone

/-- A deleted account never acts again: once a deletion has written its status, no call that begins
afterwards lets anybody act as the user or log in with the user's phone, and no route that asks
for the user's access token succeeds. A token that is revoked is never refreshed again. -/
theorem deletion_final (hrun : Run allowed (.start (fun i => (call i).serve config) s₀) c past)
    (hrun' : Run allowed' c c' past') :
    (∀ y ∈ steps past c.store, ∀ user, call y.1 = .request (.requestAccountDeletion user) →
      y.2.2.user ≠ y.2.1.user → ∃ u ∈ c.store.user.rows, u.id = user ∧ u.status = .deleted) ∧
    ∀ i reply, c.thread i = .start ((call i).serve config) →
      (c'.thread i).result = some (.ok reply) →
      (∀ u ∈ c.store.user.rows, u.status = .deleted → ¬ reply.grants u.id ∧
        (call i).loginPhone ≠ some u.phone ∧ (call i).subject ≠ some u.id) ∧
      ∀ rawToken raw, call i = .refresh rawToken → truthyToken rawToken = some raw →
        ∀ t ∈ c.store.refreshToken.rows, t.tokenHash = sha256Hash raw → t.revokedAt = none := by
  have howes : ∀ i, wp lasting anyway ((call i).serve config) none [] s₀ s₀ := fun i =>
    ((call i).serve_lasting config).keeping
  refine ⟨deletion_expunges hrun, fun i reply hi hr => ⟨fun u hu hdeleted => ?_, ?_⟩⟩
  · obtain ⟨_, _, _, _, hspurns⟩ := Run.keeping_late howes hrun hi
      ((call i).spurns ⟨u, hu, rfl, rfl, hdeleted⟩) hrun' hr
    obtain ⟨hgrants, hphone, hsubject⟩ := hspurns reply rfl
    exact ⟨hgrants, hphone, hsubject⟩
  · intro rawToken raw hcall htruthy t ht hhash
    by_contra hrevoked
    have hlate : wp lasting (returning fun _ => False) ((call i).serve config) none [] c.store c.store := by
      rw [hcall]
      simp only [Call.serve, htruthy]
      exact wp_return (refreshTokens_dead ⟨t, ht, hhash, hrevoked⟩)
    obtain ⟨_, _, _, _, hfalse⟩ := Run.keeping_late howes hrun hi hlate hrun' hr
    exact hfalse reply rfl

end runs

/-- A user with an open session. -/
def resident : Store where
  user := .single { id := 1, phone := "09120000000", passwordHash := hashPassword "secret1", fullName := "" }
  refreshToken := .single { id := 1, userId := 1, tokenHash := sha256Hash "7", expiresAt := 1000 }

/-- The user deletes the account while a login waits, which is then refused. -/
theorem deletion_final_resident : ∃ (c c' : Config Bool Env Store Err Note Reply) (past past' : List (Bool × Store)),
    Run (fun _ _ _ => True) (.start (fun late => (if late then Call.login ⟨"09120000000", "secret1"⟩ else
      Call.request (.requestAccountDeletion 1)).serve {}) resident) c past ∧
    Run (fun _ _ _ => True) c c' past' ∧ (c'.thread true).result.isSome = true ∧
    ∀ reply, (c'.thread true).result ≠ some (.ok reply) := by
  let call : Bool → Call := fun late => if late then .login ⟨"09120000000", "secret1"⟩ else
    .request (.requestAccountDeletion 1)
  let c₀ : Config Bool Env Store Err Note Reply := .start (fun late => (call late).serve {}) resident
  obtain ⟨past, hrun⟩ := Run.follow .refl (Config.admits_all c₀
    (List.replicate 5 (false, { now := 0, uuid := id })))
  obtain ⟨past', hrun'⟩ := Run.follow .refl (Config.admits_all
    (c₀.follow (List.replicate 5 (false, { now := 0, uuid := id }))) [(true, { now := 0, uuid := id })])
  refine ⟨_, _, past, past', hrun, hrun', by decide +kernel, fun reply hr => ?_⟩
  have hdeleted : ∃ u ∈ (c₀.follow (List.replicate 5 (false, { now := 0, uuid := id }))).store.user.rows,
      u.status = .deleted ∧ u.phone = "09120000000" := by decide +kernel
  obtain ⟨u, hu, hdeleted, hphone⟩ := hdeleted
  obtain ⟨hlate, -⟩ := (deletion_final hrun hrun').2 true reply rfl hr
  obtain ⟨-, hlogin, -⟩ := hlate u hu hdeleted
  exact hlogin (by rw [hphone]; rfl)

end BookingPlatform
