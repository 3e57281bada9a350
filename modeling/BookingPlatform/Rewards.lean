import BookingPlatform.Booking

/-! What a purchase is rewarded with when others are at work: the points that are given, and on which accounts. -/
namespace BookingPlatform
open Async Data Prog

/-- Points for a user, and what for. -/
structure Grant where
  userId : Id
  points : ℤ
  reason : String
  referenceId : Option Id

/-- A grant, and the account that was read for it. -/
structure Receipt extends Grant where
  accountId : Id
  shown : ℤ

/-- The accounts, and what has been entered for them. -/
structure Points where
  account : Table LoyaltyAccount
  entry : Table LoyaltyTransaction

def Store.points (s : Store) : Points := ⟨s.loyaltyAccount, s.loyaltyTransaction⟩

/-- The account was there to be read, or the user had none. -/
def Points.Shows (c : Points) (e : Receipt) : Prop :=
  (∃ a ∈ c.account.rows, a.userId = e.userId ∧ a.id = e.accountId ∧ a.points = e.shown) ∨
    (∀ a ∈ c.account.rows, a.userId ≠ e.userId) ∧ e.shown = 0

/-- The user has an account, if need be a new one. -/
def Opened (userId : Id) (t t' : Table LoyaltyAccount) : Prop :=
  (∃ a ∈ t.rows, a.userId = userId) ∧ t' = t ∨
    (∀ a ∈ t.rows, a.userId ≠ userId) ∧ ∃ id, t'.rows = t.rows ++ [({ id, userId } : LoyaltyAccount)]

/-- The account of the user is set to what it showed and the points, and one entry is made. -/
structure Receipt.Writes (e : Receipt) (c c' : Points) : Prop where
  account : ∃ t, Opened e.userId c.account t ∧ c'.account.rows = t.rows.map fun a =>
    if a.userId = e.userId then
      { a with points := e.shown + e.points, tier := LoyaltyService.tierOf (e.shown + e.points) }
    else a
  entry : ∃ id, c'.entry.rows = c.entry.rows ++ [
    { id, accountId := e.accountId, points := e.points, reason := e.reason, referenceId := e.referenceId }]

/-- One grant after the other. -/
def Given : List Receipt → Points → Points → Prop
  | [], c, c' => c' = c
  | e :: rest, c, c' => ∃ c₁, e.Writes c c₁ ∧ Given rest c₁ c'

/-- Each account was read in a store of `H`, behind the grants before it. -/
def Quoted (H : Store → Prop) (before : List Receipt) : List Receipt → Prop
  | [] => True
  | e :: rest => (∃ r c, H r ∧ Given before r.points c ∧ c.Shows e) ∧ Quoted H (before ++ [e]) rest

/-- The grants for a purchase, and for the referral that the user came by. -/
def grantsFor (userId : Id) (amountToman : Money) (referral : Option Referral) : List Grant :=
  (if amountToman < tomanPerPoint then [] else [
    { userId, points := amountToman / tomanPerPoint, reason := "خرید رزرو", referenceId := none }]) ++
  match referral with
  | none => []
  | some q => [
    { userId := q.referrerId, points := 100, reason := "پاداش معرفی موفق دوست", referenceId := some q.id },
    { userId := q.refereeId, points := 100, reason := "پاداش خوش‌آمدگویی (معرفی‌شده)", referenceId := some q.id }]

/-- A store of `H` held the referral of the user to be pending, or held none to be. -/
def CameBy (H : Store → Prop) (userId : Id) : Option Referral → Prop
  | none => ∃ r, H r ∧ ∀ q ∈ r.referral.rows, q.refereeId = userId → q.status ≠ .pending
  | some q => ∃ r, H r ∧ q ∈ r.referral.rows ∧ q.refereeId = userId ∧ q.status = .pending

/-- The referral is closed. -/
def Closed (t t' : Table Referral) : Option Referral → Prop
  | none => t' = t
  | some q => ∃ now, t'.rows = t.rows.map fun r =>
    if r.id = q.id then { r with status := .rewarded, rewardedAt := some now } else r

/-- What is awarded for a purchase. -/
def Awards (H : Store → Prop) (userId : Id) (amountToman : Money) (s s' : Store) : Prop :=
  ∃ referral es, CameBy H userId referral ∧ es.map Receipt.toGrant = grantsFor userId amountToman referral ∧
    Quoted H [] es ∧ Given es s.points s'.points ∧ Closed s.referral s'.referral referral

section grants
variable {H H' : Store → Prop} {before es : List Receipt} {e : Receipt} {c c' c'' : Points}

theorem given_concat : Given (es ++ [e]) c c'' ↔ ∃ c', Given es c c' ∧ e.Writes c' c'' := by
  induction es generalizing c with
  | nil => simp [Given]
  | cons e' rest ih =>
    simp only [List.cons_append, Given, ih]
    constructor
    · rintro ⟨c₁, hfirst, c', hrest, hlast⟩
      exact ⟨c', ⟨c₁, hfirst, hrest⟩, hlast⟩
    · rintro ⟨c', ⟨c₁, hfirst, hrest⟩, hlast⟩
      exact ⟨c₁, hfirst, c', hrest, hlast⟩

theorem quoted_concat : Quoted H before (es ++ [e]) ↔
    Quoted H before es ∧ ∃ r c, H r ∧ Given (before ++ es) r.points c ∧ c.Shows e := by
  induction es generalizing before with
  | nil => simp [Quoted]
  | cons e' rest ih =>
    simp only [List.cons_append, Quoted, ih, and_assoc, List.append_assoc, List.nil_append]

/-- What is read of a store does not depend on the rest of it. -/
theorem Quoted.mono (hH : ∀ s, H s → ∃ s', H' s' ∧ s'.points = s.points) (h : Quoted H before es) :
    Quoted H' before es := by
  induction es generalizing before with
  | nil => trivial
  | cons e rest ih =>
    obtain ⟨⟨r, c, hr, hgiven, hshows⟩, hrest⟩ := h
    obtain ⟨r', hr', hsame⟩ := hH r hr
    exact ⟨⟨r', c, hr', hsame ▸ hgiven, hshows⟩, ih hrest⟩

theorem CameBy.mono {userId : Id} {referral : Option Referral}
    (hH : ∀ s, H s → ∃ s', H' s' ∧ s'.referral = s.referral) (h : CameBy H userId referral) :
    CameBy H' userId referral := by
  cases referral with
  | none =>
    obtain ⟨r, hr, hnone⟩ := h
    obtain ⟨r', hr', hsame⟩ := hH r hr
    exact ⟨r', hr', hsame ▸ hnone⟩
  | some q =>
    obtain ⟨r, hr, hmem, hq⟩ := h
    obtain ⟨r', hr', hsame⟩ := hH r hr
    exact ⟨r', hr', hsame ▸ hmem, hq⟩

theorem Awards.mono {userId : Id} {amountToman : Money} {s s' : Store}
    (hH : ∀ s, H s → ∃ s', H' s' ∧ s'.points = s.points ∧ s'.referral = s.referral)
    (h : Awards H userId amountToman s s') : Awards H' userId amountToman s s' := by
  obtain ⟨referral, es, hcame, hgrants, hquoted, hgiven, hclosed⟩ := h
  refine ⟨referral, es, hcame.mono fun s hs => ?_, hgrants, hquoted.mono fun s hs => ?_, hgiven, hclosed⟩
  · obtain ⟨s', hs', -, hsame⟩ := hH s hs
    exact ⟨s', hs', hsame⟩
  · obtain ⟨s', hs', hsame, -⟩ := hH s hs
    exact ⟨s', hs', hsame⟩

end grants

/-! ### The transaction -/

/-- A transaction that first does `B` and then gives `es`. -/
def Giving (B : Store → Store → Prop) (es : List Receipt) (s v : Store) : Prop := ∃ u ta te, B s u ∧
  Given es s.points ⟨ta, te⟩ ∧ v = { u with loyaltyAccount := ta, loyaltyTransaction := te }

section rules
variable {C : Contract Env Store Note} {H : Store → Prop} {B : Store → Store → Prop} {es : List Receipt} {ns : List Note}
  {s₀ s : Store} {w : Store → Except Err Store} {Q : Post Store Err Note Unit} {userId : Id}

/-- What `addPoints` writes is a grant. -/
theorem giving_writes {v₁ v₂ v₃ v : Store} {g g' g'' : Env} {a a' : LoyaltyAccount} {e : Receipt} {r : LoyaltyTransaction}
    {hf : Table.Keeps fun r : LoyaltyAccount => { r with
      points := e.shown + e.points, tier := LoyaltyService.tierOf (e.shown + e.points) }}
    (h : Giving B es s v₁) (hupsert : upsert (fun r : LoyaltyAccount => r.userId == e.userId)
      (fun id => { id, userId := e.userId }) g v₁ = .ok (a, v₂))
    (hupdate : update (fun r : LoyaltyAccount => r.userId == e.userId) (fun r => { r with
      points := e.shown + e.points, tier := LoyaltyService.tierOf (e.shown + e.points) }) hf g' v₂ = .ok (a', v₃))
    (hcreate : create (fun id => ({ id, accountId := e.accountId, points := e.points, reason := e.reason
                                    referenceId := e.referenceId } : LoyaltyTransaction)) g'' v₃ = .ok (r, v)) :
    Giving B (es ++ [e]) s v := by
  obtain ⟨u, ta, te, hu, hgiven, rfl⟩ := h
  have hopened : ∃ t, v₂ = { u with loyaltyAccount := t, loyaltyTransaction := te } ∧ Opened e.userId ta t := by
    rcases upsert_ok hupsert with ⟨hmem, hp, rfl⟩ | ⟨hnone, rfl, hput⟩
    · exact ⟨ta, rfl, .inl ⟨⟨a, hmem, beq_iff_eq.mp hp⟩, rfl⟩⟩
    · obtain ⟨-, t, ht, rfl⟩ := put_ok hput
      exact ⟨t, rfl, .inr ⟨fun a ha => by simpa using hnone a ha, _, Table.insert_rows ht⟩⟩
  obtain ⟨t, rfl, hopened⟩ := hopened
  rw [(update_ok hupdate).2] at hcreate
  obtain ⟨rfl, hput⟩ := create_ok hcreate
  obtain ⟨-, te', hte', rfl⟩ := put_ok hput
  refine ⟨u, _, te', hu, given_concat.mpr ⟨_, hgiven, ⟨t, hopened, ?_⟩, _, Table.insert_rows hte'⟩, rfl⟩
  refine List.map_congr_left fun a _ => ?_
  simp only [beq_iff_eq]

variable (hrely : ∀ s s', C.rely s s' → H s → H s') (hnote : ∀ ns x s s', C.note ns x s s')
  (hB : ∀ s u, B s u → u.points = s.points ∧ u.referral = s.referral)
include hrely hnote

theorem wp_addPoints {points : ℤ} {reason : String} {referenceId : Option Id} (hs : H s) (hquoted : Quoted H [] es)
    (hw : Pending (Giving B es) w) (herr : ∀ e w ns s₁, Q (.error e) w ns s₁ s₁)
    (hok : ∀ e w' ns' s₁, e.toGrant = ⟨userId, points, reason, referenceId⟩ → H s₁ → ns ⊆ ns' →
      Quoted H [] (es ++ [e]) → Pending (Giving B (es ++ [e])) w' → Q (.ok ()) (some w') ns' s₁ s₁) :
    wp C Q (LoyaltyService.addPoints userId points reason referenceId) (some w) ns s₀ s := by
  refine (wp_bind _ _).mpr (wp_tx hw (fun g₁ s₁ v a v' h₁ _ hv hupsert w₁ hw₁ _ => ?_) fun _ _ _ => herr _ _ _ _)
  have hs₁ := hrely _ _ h₁ hs
  let e : Receipt := ⟨⟨userId, points, reason, referenceId⟩, a.id, a.points⟩
  have hshown : ∃ r c, H r ∧ Given ([] ++ es) r.points c ∧ c.Shows e := by
    obtain ⟨u, ta, te, -, hgiven, rfl⟩ := hv
    refine ⟨s₁, _, hs₁, hgiven, ?_⟩
    rcases upsert_ok hupsert with ⟨hmem, hp, -⟩ | ⟨hnone, rfl, -⟩
    · exact .inl ⟨a, hmem, beq_iff_eq.mp hp, rfl, rfl⟩
    · exact .inr ⟨fun a ha => by simpa using hnone a ha, rfl⟩
  refine (wp_bind _ _).mpr ((wp_mark _).mpr ⟨hnote _ _ _ _, ?_⟩)
  refine (wp_bind _ _).mpr (wp_tx hw₁ (fun g₂ s₂ v₂ a₂ v₂' h₂ _ _ _ w₂ hw₂ _ => ?_) fun _ _ _ => herr _ _ _ _)
  refine (wp_bind _ _).mpr (wp_tx hw₂ (fun g₃ s₃ v₃ r₃ v₃' h₃ _ _ _ w₃ hw₃ _ => ?_) fun _ _ _ => herr _ _ _ _)
  refine hok e w₃ _ s₃ rfl (hrely _ _ h₃ (hrely _ _ h₂ hs₁)) (List.subset_cons_self _ _)
    (quoted_concat.mpr ⟨hquoted, hshown⟩) (hw₃.mono ?_)
  rintro s v ⟨v₂, r, ⟨v₁, a', ⟨v₀, a'', hv₀, hupsert⟩, hupdate⟩, hcreate⟩
  exact giving_writes (e := e) hv₀ hupsert hupdate hcreate

theorem wp_earnFromPurchase {amountToman : Money} {reason : String} (hs : H s) (hquoted : Quoted H [] es)
    (hw : Pending (Giving B es) w) (herr : ∀ e w ns s₁, Q (.error e) w ns s₁ s₁)
    (hok : ∀ es' w' ns' s₁, es'.map Receipt.toGrant = (if amountToman < tomanPerPoint then [] else
        [⟨userId, amountToman / tomanPerPoint, reason, none⟩]) → H s₁ → ns ⊆ ns' → Quoted H [] (es ++ es') →
      Pending (Giving B (es ++ es')) w' → ∀ s₂, Q (.ok ()) (some w') ns' s₂ s₁) :
    wp C Q (LoyaltyService.earnFromPurchase userId amountToman reason) (some w) ns s₀ s := by
  unfold LoyaltyService.earnFromPurchase
  have hfew : amountToman / tomanPerPoint ≤ 0 ↔ amountToman < tomanPerPoint := by
    have hpos : (0 : ℤ) < tomanPerPoint := by decide
    rw [← Int.lt_add_one_iff, zero_add, Int.ediv_lt_iff_lt_mul hpos, one_mul]
  dsimp only
  split
  · rename_i hless
    refine hok [] w ns s ?_ hs (List.Subset.refl _) ?_ ?_ _
    · rw [if_pos (hfew.mp hless), List.map_nil]
    · rwa [List.append_nil]
    · rwa [List.append_nil]
  · rename_i hmore
    refine wp_addPoints hrely hnote hs hquoted hw herr fun e w' ns' s₁ he hs₁ hns hquoted' hw' => ?_
    refine hok [e] w' ns' s₁ ?_ hs₁ hns hquoted' hw' _
    rw [if_neg fun h => hmore (hfew.mpr h), List.map_singleton, he]

include hB

/-- What `awardPostPurchaseRewards` leaves to be committed. -/
theorem wp_awardPostPurchaseRewards {amountToman : Money} (hs : H s) (hw : Pending B w)
    (herr : ∀ e w ns s₁, Q (.error e) w ns s₁ s₁)
    (hok : ∀ w' ns' s₁ s₂, ns ⊆ ns' → Pending (fun s v => ∃ u ta te tr, B s u ∧
      v = { u with loyaltyAccount := ta, loyaltyTransaction := te, referral := tr } ∧ Awards H userId amountToman s v) w' →
      Q (.ok ()) (some w') ns' s₂ s₁) :
    wp C Q (BookingService.awardPostPurchaseRewards userId amountToman) (some w) ns s₀ s := by
  have hbegin : Pending (Giving B []) w := hw.mono fun s u hu =>
    ⟨u, _, _, hu, ((hB s u hu).1 : (⟨u.loyaltyAccount, u.loyaltyTransaction⟩ : Points) = s.points), rfl⟩
  have hnothing : Quoted H [] [] := trivial
  refine (wp_bind _ _).mpr (wp_earnFromPurchase hrely hnote hs hnothing hbegin (fun _ _ _ _ => herr _ _ _ _)
    fun es w₁ ns₁ s₁ hes hs₁ hns₁ hquoted₁ hw₁ s₂ => ?_)
  rw [List.nil_append] at hquoted₁ hw₁
  have hreferral {es : List Receipt} {s v : Store} (h : Giving B es s v) : v.referral = s.referral := by
    obtain ⟨u, ta, te, hu, -, rfl⟩ := h
    exact (hB s u hu).2
  -- Without a pending referral the purchase is all.
  have hdone {w' : Store → Except Err Store} {ns' : List Note} {s₁ s₂ : Store} (hns : ns ⊆ ns') (hw' : Pending (Giving B es) w')
      (hnone : CameBy H userId none) : Q (.ok ()) (some w') ns' s₂ s₁ := by
    refine hok w' ns' s₁ s₂ hns (hw'.mono ?_)
    rintro s v ⟨u, ta, te, hu, hgiven, rfl⟩
    refine ⟨u, ta, te, u.referral, hu, rfl, none, es, hnone, ?_, hquoted₁, hgiven, (hB s u hu).2⟩
    rw [hes, grantsFor, List.append_nil]
  unfold ReferralService.rewardIfEligible
  refine (wp_bind _ _).mpr (wp_query_tx hw₁ (fun g s₃ v h₃ _ hv w₂ hw₂ _ => ?_) fun _ _ _ => herr _ _ _ _)
  have hs₃ := hrely _ _ h₃ hs₁
  have hsame : Model.get (R := Referral) v = s₃.referral := hreferral hv
  rw [wp_onOk_ok]
  split
  · rename_i hfound
    refine hdone hns₁ hw₂ ⟨s₃, hs₃, fun q hq hid => ?_⟩
    have := findUnique_none hfound q (by rw [hsame]; exact hq)
    simp [hid] at this
  · rename_i q hfound
    obtain ⟨hmem, hp⟩ := findUnique_some hfound
    rw [hsame] at hmem
    obtain rfl : q.refereeId = userId := beq_iff_eq.mp hp
    split
    · rename_i hstatus
      refine hdone hns₁ hw₂ ⟨s₃, hs₃, fun q' hq' hid => ?_⟩
      have : q' = q := Table.eq_of_clash hq' hmem (by simp [Indexed.clash, hid])
      rwa [this]
    · rename_i hstatus
      have hpending : q.status = .pending := not_not.mp hstatus
      refine (wp_bind _ _).mpr ((wp_mark _).mpr ⟨hnote _ _ _ _, ?_⟩)
      refine (wp_bind _ _).mpr (wp_addPoints hrely hnote hs₃ hquoted₁ hw₂ (fun _ _ _ _ => herr _ _ _ _)
        fun e w₃ ns₃ s₄ he hs₄ hns₃ hquoted₃ hw₃ => ?_)
      refine (wp_bind _ _).mpr (wp_addPoints hrely hnote hs₄ hquoted₃ hw₃ (fun _ _ _ _ => herr _ _ _ _)
        fun e' w₄ ns₄ s₅ he' hs₅ hns₄ hquoted₄ hw₄ => ?_)
      refine (wp_bind _ _).mpr (wp_look_tx hw₄ (fun g₅ s₆ h₆ w₅ hw₅ => ?_) fun _ _ _ => herr _ _ _ _)
      refine (wp_bind _ _).mpr (wp_tx hw₅ (fun g₆ s₇ v₇ r₇ v₇' h₇ _ _ _ w₆ hw₆ _ => ?_) fun _ _ _ => herr _ _ _ _)
      refine hok w₆ _ s₇ _ (fun x hx => hns₄ (hns₃ (List.mem_cons_of_mem _ (hns₁ hx)))) (hw₆.mono ?_)
      rintro s v ⟨v₆, r, ⟨u, ta, te, hu, hgiven, rfl⟩, hupdate⟩
      rw [(update_ok hupdate).2]
      refine ⟨u, ta, te, _, hu, rfl, some q, _, ⟨s₃, hs₃, hmem, rfl, hpending⟩, ?_, hquoted₄, hgiven, g₅.now, ?_⟩
      · rw [List.map_append, List.map_append, hes, List.append_assoc, List.map_singleton, List.map_singleton, he, he']
        rfl
      · rw [← (hB s u hu).2]
        refine List.map_congr_left fun r _ => ?_
        simp only [beq_iff_eq]

end rules
end BookingPlatform
