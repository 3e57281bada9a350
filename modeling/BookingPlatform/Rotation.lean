import BookingPlatform.Async.Once
import BookingPlatform.Deletion

/-! A refresh token is rotated once, as long as no two calls hold it at a time. -/
namespace BookingPlatform
open Async Data Prog

section pays
variable {α : Type} {E : List Note → Store → Store → Task α → Prop} {ns : List Note}
  {Q : Except Err α → Option (Store → Except Err Store) → List Note → Prop}

theorem pays_query {q : Query α} (hok : ∀ a, Q (.ok a) none ns) (herr : ∀ e, Q (.error e) none ns) :
    (query q : Task α).Pays E Q none ns := pays_op (fun _ _ a _ _ => hok a) herr

theorem pays_look {q : Env → α} (hok : ∀ a, Q (.ok a) none ns) (herr : ∀ e, Q (.error e) none ns) :
    (look q : Task α).Pays E Q none ns := pays_op (fun _ _ a _ _ => hok a) herr

theorem pays_prisma {q : Stmt α} (hok : ∀ g s a s', q g s = .ok (a, s') → E ns s s' (done (.ok a)) ∨ Q (.ok a) none [])
    (herr : ∀ e, Q (.error e) none []) : (prisma q : Task α).Pays E Q none ns :=
  pays_single (fun g s a s' h => hok g s a s' (attempt_ok h)) herr

end pays

/-- The token is there under this identifier, and it is not revoked. -/
def Store.Live (rawToken : String) (id : Id) (s : Store) : Prop :=
  ∃ t ∈ s.refreshToken.rows, t.id = id ∧ t.tokenHash = sha256Hash rawToken ∧ t.revokedAt = none

/-- The step revokes this token. -/
def Revokes (id : Id) (s s' : Store) : Prop :=
  ∃ now hf, s' = Model.set s
    (s.refreshToken.update (fun t => t.id == id) (fun t => { t with revokedAt := some now }) hf)

/-- The step adds a token. -/
def Issues (s s' : Store) : Prop :=
  ∃ t table, s.refreshToken.insert t = some table ∧ s' = Model.set s table

section rotation
variable {rawToken : String} {id : Id} {s s' s₀ : Store} {ns : List Note}

theorem Store.Live.same {id' : Id} (h : s.Live rawToken id) (h' : s.Live rawToken id') : id = id' := by
  obtain ⟨t, ht, hid, hhash, -⟩ := h
  obtain ⟨t', ht', hid', hhash', -⟩ := h'
  obtain rfl : t = t' := Table.eq_of_clash ht ht' (by simp [Indexed.clash, hhash, hhash'])
  exact hid.symm.trans hid'

theorem Store.Live.not_dead (h : s.Live rawToken id) : ¬ s.Dead rawToken := by
  rintro ⟨t', ht', hhash', hrevoked⟩
  obtain ⟨t, ht, -, hhash, hlive⟩ := h
  obtain rfl : t = t' := Table.eq_of_clash ht ht' (by simp [Indexed.clash, hhash, hhash'])
  exact hrevoked hlive

theorem Store.Live.issues (h : s.Live rawToken id) (hstep : Issues s s') : s'.Live rawToken id := by
  obtain ⟨t, ht, hlive⟩ := h
  obtain ⟨r, table, htable, rfl⟩ := hstep
  refine ⟨t, ?_, hlive⟩
  change t ∈ table.rows
  rw [Table.insert_rows htable]
  exact List.mem_append_left _ ht

theorem Store.Live.revokes (h : s.Live rawToken id) (hstep : Revokes id s s') : s'.Dead rawToken := by
  obtain ⟨t, ht, hid, hhash, -⟩ := h
  obtain ⟨now, hf, rfl⟩ := hstep
  refine ⟨{ t with revokedAt := some now }, ?_, hhash, by simp⟩
  exact (Table.mem_update hf).mpr ⟨t, ht, by simp [hid]⟩

/-- What the note of a call says while nobody else has found the token. -/
def Note.rotates (rawToken : String) : Note → Store → Prop
  | .auth (.presented id), s => s.Live rawToken id
  | _, _ => True

/-- The contract of a call that presents this token. -/
def rotating (rawToken : String) : Contract Env Store Note where
  env _ _ := True
  rely _ _ := True
  rely_refl _ := trivial
  rely_trans _ _ := trivial
  note _ x _ s' := x.rotates rawToken s'
  auto _ s s' := s' = s
  commit ns s s' := (∃ id, .auth (.presented id) ∈ ns ∧ Revokes id s s') ∨ Issues s s'
  read _ _ := rfl

theorem refreshTokens_owes :
    wp (rotating rawToken) anyway (AuthService.refreshTokens rawToken) none ns s₀ s := by
  refine (wp_bind _ _).mpr (wp_query (fun g s₁ _ => ?_) fun _ _ => trivial)
  refine (wp_bind _ _).mpr ((wp_orThrow _ _).mpr ⟨fun record hrecord => ?_, fun _ => trivial⟩)
  obtain ⟨hfound, hlive⟩ := Option.filter_eq_some_iff.mp hrecord
  obtain ⟨hmem, hhash⟩ := findUnique_some hfound
  refine (wp_bind _ _).mpr ((wp_mark _).mpr ⟨?_, (wp_bind _ _).mpr (wp_look fun g s₂ _ => ?_)⟩)
  · exact ⟨record, hmem, rfl, beq_iff_eq.mp hhash, by simpa using hlive⟩
  · refine (wp_bind _ _).mpr ((wp_ensure _ _).mpr ⟨fun _ => ?_, fun _ => trivial⟩)
    refine (wp_bind _ _).mpr (wp_query (fun g s₃ _ => ?_) fun _ _ => trivial)
    refine (wp_bind _ _).mpr ((wp_orThrow _ _).mpr ⟨fun user _ => ?_, fun _ => trivial⟩)
    refine (wp_bind _ _).mpr (wp_look fun g s₄ _ => ?_)
    refine (wp_bind _ _).mpr (wp_prisma (fun g s₅ t s₆ _ _ h => ⟨.inl ?_, ?_⟩) fun _ _ _ _ _ _ => trivial)
    · exact ⟨record.id, List.mem_cons_self, _, _, (update_ok h).2⟩
    · refine (wp_bind _ _).mpr ((wp_mark _).mpr ⟨trivial, AuthService.wp_issueTokenPair ?_ fun _ _ _ _ => trivial⟩)
      intro _ t s₇ s₈ _ _ _ _ hput
      obtain ⟨-, table, htable, rfl⟩ := put_ok hput
      exact ⟨.inr ⟨t, table, htable, rfl⟩, trivial⟩

/-- A call answers only after it has revoked the token that it presented. -/
theorem refreshTokens_pays : (AuthService.refreshTokens rawToken).Pays
    (fun ns s s' _ => ∃ id, .auth (.presented id) ∈ ns ∧ Revokes id s s') (fun r _ _ => ∀ pair, r ≠ .ok pair)
      none [] := by
  have herr {α : Type} {e : Err} : ∀ a : α, (.error e : Except Err α) ≠ .ok a := by simp
  refine pays_bind (pays_query (fun record => ?_) fun _ => herr)
  refine pays_bind (pays_orThrow (fun record _ => ?_) herr)
  refine pays_bind (pays_mark (pays_bind (pays_look (fun now => ?_) fun _ => herr)))
  refine pays_bind (pays_ensure (fun _ => ?_) herr)
  refine pays_bind (pays_query (fun user => ?_) fun _ => herr)
  refine pays_bind (pays_orThrow (fun user _ => ?_) herr)
  refine pays_bind (pays_look (fun now => ?_) fun _ => herr)
  refine pays_bind (pays_prisma (fun g s t s' h => .inl ?_) fun _ => herr)
  exact ⟨record.id, List.mem_cons_self, _, _, (update_ok h).2⟩

variable {ι : Type} [DecidableEq ι] {allowed : Config ι Env Store Err Note TokenPair → ι → Env → Prop}
  {c : Config ι Env Store Err Note TokenPair} {past : List (ι × Store)}

omit [DecidableEq ι] in
theorem rotating_concurrent :
    Concurrent (fun _ : ι => rotating rawToken) (fun _ => AuthService.refreshTokens rawToken) allowed where
  rely _ _ _ := trivial
  env _ := trivial
  owes _ _ := refreshTokens_owes

theorem rotating_meaning : Meaning (rotating rawToken) (fun _ => True) (Note.rotates rawToken) where
  grounds _ _ _ hx := hx
  auto := by
    rintro ns s s' - hns rfl
    exact ⟨trivial, hns⟩
  commit _ _ _ := trivial

/-- While calls do not meet, the token that a call presents is still there unrevoked. -/
theorem rotation_meant (hlone : ∀ {c i g}, allowed c i g → ¬ c.Meets i g)
    (hrun : Run allowed (.start (fun _ : ι => AuthService.refreshTokens rawToken) s₀) c past) :
    Meant (fun _ => True) (Note.rotates rawToken) c := by
  refine Run.meant rotating_concurrent (fun _ => rotating_meaning) trivial ?_ hrun
  intro c past i g hrun hmeant ha j hj hres x hx
  have hxs := hmeant.2 j hres x hx
  rcases Run.step_store rotating_concurrent hrun ha with ⟨hi, ⟨id, hid, -⟩ | hissues⟩ | hauto
  · cases x with
    | auth y =>
      cases y with
      | presented id' =>
        -- Two calls that hold the token would have met.
        obtain rfl : id = id' := (hmeant.2 i hi _ hid).same hxs
        exact absurd (Run.apart (fun _ => rfl) hlone hrun hres hi hx hid) hj
      | _ => trivial
    | _ => trivial
  · cases x with
    | auth y =>
      cases y with
      | presented id' => exact hxs.issues hissues
      | _ => trivial
    | _ => trivial
  · rw [show (c.step i g).store = c.store from hauto]
    exact hxs

/-- As long as no call finds the token unrevoked while another one that found it so is still about
to revoke it, at most one call gets a new token pair. -/
theorem rotation_once (hlone : ∀ {c i g}, allowed c i g → ¬ c.Meets i g)
    (hrun : Run allowed (.start (fun _ : ι => AuthService.refreshTokens rawToken) s₀) c past) {i j : ι}
    {pair pair' : TokenPair} (hi : (c.thread i).result = some (.ok pair))
    (hj : (c.thread j).result = some (.ok pair')) : i = j := by
  have hpaid {k : ι} {pair : TokenPair} (hk : (c.thread k).result = some (.ok pair)) :
      ∃ y ∈ steps past c.store, y.1 = k ∧ ¬ y.2.1.Dead rawToken ∧ y.2.2.Dead rawToken := by
    have hrule := Run.paid (G := fun _ (s s' : Store) => ¬ s.Dead rawToken ∧ s'.Dead rawToken)
      (fun _ => refreshTokens_pays) (fun {c past i g} hrun ha hpaying => ?_) hrun k
    · rcases hrule with hpays | hdone
      · exact absurd rfl (hpays.ended hk pair)
      · exact hdone
    · obtain ⟨⟨f, p, h, hprog⟩, rest, ⟨id, hid, hrevokes⟩, -⟩ := hpaying
      have hlive : c.store.Live rawToken id :=
        (rotation_meant hlone hrun).2 i (by simp [Thread.result, hprog]) _ hid
      exact ⟨hlive.not_dead, hlive.revokes hrevokes⟩
  have hkeep : ∀ y ∈ steps past c.store, y.2.1.Dead rawToken → y.2.2.Dead rawToken := by
    refine Run.steps_forall (G := fun _ (s s' : Store) => s.Dead rawToken → s'.Dead rawToken)
      (fun {c past i g} hrun ha hdead => ?_) hrun
    have hnow : c.Keeping Lasting Lasting.refl lasting_trans fun _ => anyway :=
      (Run.keeping (Config.start_keeping fun _ => (refreshTokens_lasting rawToken).keeping) hrun).2
    exact hdead.mono (Run.keeping hnow (.step .refl ha)).1
  obtain ⟨y, hy, rfl, hyd⟩ := hpaid hi
  obtain ⟨z, hz, rfl, hzd⟩ := hpaid hj
  rw [steps_unique (P := fun s => s.Dead rawToken) hkeep hy hz hyd hzd]

end rotation

/-- A call that comes after the rotation gets nothing. -/
theorem rotation_once_resident : ∃ (c : Config Bool Env Store Err Note TokenPair) (past : List (Bool × Store)),
    Run (fun c i g => ¬ c.Meets i g) (.start (fun _ : Bool => AuthService.refreshTokens "7") resident) c past ∧
    (c.thread true).result = some (.ok { accessToken := ⟨1, .user⟩, refreshToken := "12" }) ∧
    (c.thread false).result.isSome = true ∧ ∀ pair, (c.thread false).result ≠ some (.ok pair) := by
  let c₀ : Config Bool Env Store Err Note TokenPair := .start (fun _ => AuthService.refreshTokens "7") resident
  have hadmits : c₀.Admits (fun c i g => ¬ c.Meets i g)
      (List.replicate 8 (true, .after 10) ++ [(false, .after 20)]) := by decide +kernel
  obtain ⟨past, hrun⟩ := Run.follow .refl hadmits
  have htrue : ((c₀.follow (List.replicate 8 (true, .after 10) ++ [(false, .after 20)])).thread true).result =
      some (.ok { accessToken := ⟨1, .user⟩, refreshToken := "12" }) := by decide +kernel
  refine ⟨_, past, hrun, htrue, by decide +kernel, fun pair hpair => ?_⟩
  have hsame := rotation_once (fun h => h) hrun hpair htrue
  cases hsame

/-- Two calls look the token up before either revokes it, and both get a new pair. -/
theorem rotation_twice : ∃ (c : Config Bool Env Store Err Note TokenPair) (past : List (Bool × Store)),
    Run (fun _ _ _ => True) (.start (fun _ : Bool => AuthService.refreshTokens "7") resident) c past ∧
    (c.thread true).result = some (.ok { accessToken := ⟨1, .user⟩, refreshToken := "12" }) ∧
    (c.thread false).result = some (.ok { accessToken := ⟨1, .user⟩, refreshToken := "22" }) := by
  obtain ⟨past, hrun⟩ := Run.follow .refl (Config.admits_all
    (.start (fun _ : Bool => AuthService.refreshTokens "7") resident)
    ((true, .after 10) :: List.replicate 8 (false, .after 20) ++ List.replicate 7 (true, .after 10)))
  exact ⟨_, past, hrun, by decide +kernel, by decide +kernel⟩

end BookingPlatform
