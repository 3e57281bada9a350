import BookingPlatform.Alone

/-! Registration by a request that is alone with a database that answers. -/
namespace BookingPlatform
open Async Data Prog

/-- The database answers, and the identifier of a new row is not a wallet's already. -/
def Answers (g : Env) (s : Store) : Prop :=
  g.down = false ∧ ∀ w ∈ s.wallet.rows, w.id ≠ g.newId 0

instance {g : Env} {s : Store} : Decidable (Answers g s) :=
  inferInstanceAs (Decidable (g.down = false ∧ ∀ w ∈ s.wallet.rows, w.id ≠ g.newId 0))

/-- The contract of a request that is alone with a database that answers. -/
def solo (K : Note → Prop) : Contract Env Store Note :=
  { contract K with
    env := Answers
    rely := fun s s' => s' = s
    rely_refl := fun _ => rfl
    rely_trans := fun h h' => h'.trans h }

/-- Every user has a wallet. -/
def Walleted (c : Core) : Prop := ∀ u ∈ c.user.rows, ∃ w ∈ c.wallet.rows, w.userId = u.id

/-- Every wallet has a user. -/
def Owned (c : Core) : Prop := ∀ w ∈ c.wallet.rows, ∃ u ∈ c.user.rows, u.id = w.userId

section
variable {K : Note → Prop} {ns : List Note} {s₀ s : Store} {c c' : Core}

theorem solo_of_contract {α : Type} {Q : Post Store Err Note α} {p : Task α}
    {w : Option (Store → Except Err Store)} (h : wp (contract K) Q p w ns s₀ s) :
    wp (solo K) Q p w ns s₀ s :=
  wp_weaken (C := contract K) (fun _ => trivial) (fun _ => trivial) id id id h

/-- A quiet request keeps what is known of the core. -/
theorem solo_quiet {α : Type} {Q : Post Store Err Note α} {p : Task α} {P : Core → Prop}
    (h : Within Quiet Note.aside true p) (hQ : ∀ r w ns s₀ s, P s.core → Q r w ns s₀ s)
    (hs : P s.core) : wp (solo K) Q p none ns s₀ s := by
  refine h.wp_keeps (I := fun s => P s.core) Quiet.refl (fun _ _ _ => Quiet.trans)
    (fun _ _ _ => Asked.of_quiet) (fun _ _ _ => Change.of_quiet) note_aside
    ?_ ?_ hQ hs
  · rintro s s' rfl
    exact id
  · intro s s' h
    rw [h]
    exact id

theorem verifyOtp_keeps {Q : Post Store Err Note Bool} {phone code : String}
    {purpose : OtpPurpose} {P : Core → Prop} (hs : P s.core)
    (hQ : ∀ r ns s₀ s, P s.core → Q r none ns s₀ s) :
    wp (solo K) Q (OtpService.verifyOtp phone purpose code) none ns s₀ s := by
  refine OtpService.wp_verifyOtp (I := fun s => P s.core)
    (fun _ _ _ _ => ⟨note_aside _ _ _ _ trivial, note_aside _ _ _ _ trivial⟩)
    ?_ (fun _ _ _ hs => ⟨.of_quiet rfl, hs⟩) hQ hs
  rintro s s' rfl
  exact id

/-- The new user's wallet cannot clash with another one. -/
theorem create_wallet_error {u : Id} {g : Env} {e : Err} (hg : Answers g s)
    (hu : ∃ r ∈ s.user.rows, r.id = u) (hnone : ∀ w ∈ s.wallet.rows, w.userId ≠ u) :
    attempt (create fun id => ({ id, userId := u } : Wallet)) g s ≠ .error e := by
  intro h
  obtain ⟨hup, hfresh⟩ := hg
  have hrefs : Model.refs s ({ id := g.newId 0, userId := u } : Wallet) = true := has_iff.mpr hu
  have hinsert : (Model.get s : Table Wallet).insert { id := g.newId 0, userId := u } ≠ none := by
    unfold Table.insert
    split
    · simp
    · rename_i hclash
      exfalso
      apply hclash
      intro w hw
      have := hfresh w hw
      have := hnone w hw
      simp_all [Indexed.clash]
  cases hi : (Model.get s : Table Wallet).insert { id := g.newId 0, userId := u } with
  | none => exact hinsert hi
  | some t => simp [attempt, hup, create, put, hrefs, hi, Except.map] at h

/-- After a registration that was alone, every user has a wallet. -/
theorem register_walleted (hK : K .registering) (hK' : ∀ u, K (.enrolling u))
    (dto : VerifyRegisterDto) (hwalleted : Walleted s.core) (howned : Owned s.core) :
    wp (solo K) (fun _ _ _ _ s => Walleted s.core) (AuthService.verifyRegisterAndCreateUser dto)
      none ns s₀ s := by
  refine (wp_bind _ _).mpr (verifyOtp_keeps (P := fun c => Walleted c ∧ Owned c)
    ⟨hwalleted, howned⟩ fun r ns s₀ s ⟨hwalleted, howned⟩ => ?_)
  cases r with
  | error e => exact hwalleted
  | ok isValid =>
    refine (wp_bind _ _).mpr ((wp_ensure _ _).mpr ⟨fun _ => ?_, fun _ => hwalleted⟩)
    refine (wp_bind _ _).mpr (wp_query (fun g s₁ hr => ?_) fun s₁ hr => by
      obtain rfl := hr
      exact hwalleted)
    obtain rfl := hr
    refine (wp_bind _ _).mpr ((wp_ensure _ _).mpr ⟨fun _ => ?_, fun _ => hwalleted⟩)
    refine (wp_bind _ _).mpr ((wp_mark _).mpr ⟨⟨.inr hK, trivial⟩, ?_⟩)
    refine (wp_bind _ _).mpr (wp_prisma (fun g s₂ u s₃ _ hr h => ?_) fun g e s₂ _ hr _ => by
      obtain rfl := hr
      exact hwalleted)
    obtain rfl := hr
    obtain ⟨-, t, ht, hs₃⟩ := put_core (create_ok h).2
    obtain rfl := (create_ok h).1
    have husers : s₃.core.user = t := by
      rw [hs₃]
      rfl
    have hwallets : s₃.core.wallet = s₂.core.wallet := by
      rw [hs₃]
      rfl
    -- Wallets belong to earlier users, so none belongs to the new one.
    have hnone : ∀ w ∈ s₃.core.wallet.rows, w.userId ≠ g.newId 0 := by
      intro w hw hu
      rw [hwallets] at hw
      obtain ⟨r, hr, hid⟩ := howned w hw
      have := Table.insert_fresh ht r hr
      simp [Indexed.clash, hid, hu] at this
    refine ⟨?_, (wp_bind _ _).mpr ((wp_mark _).mpr ⟨⟨.inr (hK' _), trivial⟩, (wp_bind _ _).mpr
      (wp_prisma (fun g' s₄ w s₅ _ hr hcreate => ?_) fun g' e s₄ hg hr he => ?_)⟩)⟩
    · change Change _ s₂.core s₃.core
      rw [hs₃]
      exact .newUser _ t List.mem_cons_self ht
    · obtain rfl := hr
      obtain ⟨rfl, hput⟩ := create_ok hcreate
      obtain ⟨hrefs, t', ht', hs₅⟩ := put_core hput
      refine ⟨?_, solo_quiet (P := Walleted) (welcome_quiet _ _ _) (fun _ _ _ _ _ h => h) ?_⟩
      · change Change _ s₄.core s₅.core
        rw [hs₅]
        exact .newWallet _ t' List.mem_cons_self ht' rfl hrefs
      · have hwallets' : s₅.core.wallet = t' := by
          rw [hs₅]
          rfl
        have husers' : s₅.core.user = s₄.core.user := by
          rw [hs₅]
          rfl
        intro r hr
        rw [husers', husers, Table.insert_rows ht] at hr
        rw [hwallets', Table.insert_rows ht']
        rcases List.mem_append.mp hr with hr | hr
        · obtain ⟨w, hw, hid⟩ := hwalleted r hr
          rw [← hwallets] at hw
          exact ⟨w, List.mem_append_left _ hw, hid⟩
        · obtain rfl := List.mem_singleton.mp hr
          exact ⟨_, List.mem_append_right _ List.mem_cons_self, rfl⟩
    · obtain rfl := hr
      refine absurd he (create_wallet_error hg ⟨_, ?_, rfl⟩ hnone)
      change _ ∈ s₄.core.user.rows
      rw [husers, Table.insert_rows ht]
      exact List.mem_append_right _ List.mem_cons_self

end
end BookingPlatform
