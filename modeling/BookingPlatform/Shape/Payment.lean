import BookingPlatform.Shape.Booking
import Mathlib.Tactic.Linarith

/-! The changes that `PaymentService` and `WalletService` make. -/
namespace BookingPlatform
open Async Data Prog

section
variable {α : Type} {K : Note → Prop} {ns : List Note} {s₀ s : Store}
  {w : Store → Except Err Store}

theorem payFromWallet_owes {userId bookingId : Id} {amount : Money}
    (hK : ∀ u w x, K (.balance u w x)) (hdue : .due bookingId userId amount ∈ ns)
    (hpaying : .paying bookingId ∈ ns) :
    wp (contract K) anyway (PaymentService.payFromWallet userId bookingId amount) none ns
      s₀ s := by
  refine wp_transaction (fun s₁ _ => ?_) fun _ _ => trivial
  refine (wp_bind _ _).mpr (wp_query_tx (S := onCore fun c c' => c' = c) ?_ ?_ fun _ _ _ => trivial)
  · rintro s v ⟨⟩
    rfl
  intro g s₁ v _ _ hv w₁ hw₁ _
  refine (wp_bind _ _).mpr ((wp_orThrow _ _).mpr ⟨fun wallet hwallet => ?_, fun _ => trivial⟩)
  obtain ⟨hfound, henough⟩ := Option.filter_eq_some_iff.mp hwallet
  obtain ⟨hmem, huser⟩ := findUnique_some hfound
  obtain rfl : wallet.userId = userId := by simpa using huser
  have hground : Grounds ns s₁.core s₁.core (.balance wallet.userId wallet.id wallet.balance) := by
    refine .inl ⟨wallet, ?_, rfl, rfl, rfl⟩
    rw [← show v.core = s₁.core from hv]
    exact hmem
  refine (wp_bind _ _).mpr ((wp_mark _).mpr ⟨⟨.inr (hK _ _ _), hground⟩, ?_⟩)
  refine (wp_bind _ _).mpr (wp_tx_update hw₁ (fun s₂ v₂ w₂ r₂ _ _ _ hw₂ => ?_)
    fun _ _ _ => trivial)
  refine (wp_bind _ _).mpr (wp_tx_create hw₂ (fun s₃ w₃ txId _ hw₃ => ?_) fun _ _ _ => trivial)
  refine (wp_bind _ _).mpr (wp_look_tx hw₃ (fun g s₄ _ w₄ hw₄ => ?_) fun _ _ _ => trivial)
  refine (wp_bind _ _).mpr (wp_tx_createAt hw₄ (fun s₅ w₅ _ pid _ hw₅ => ?_) fun _ _ _ => trivial)
  refine (wp_bind _ _).mpr (wp_tx_update hw₅ (fun s₆ v₆ w₆ r₆ _ _ _ hw₆ => ?_)
    fun _ _ _ => trivial)
  refine (wp_bind _ _).mpr (wp_rewarding_tx (awardPostPurchaseRewards_rewarding _ _) hw₆ ?_)
  intro r w₇ _ s₀ s hw₇ hns
  cases r with
  | error e => trivial
  | ok _ =>
    refine fun g s₇ s₈ _ _ hs₈ => ⟨?_, trivial⟩
    obtain ⟨_, ⟨_, ⟨_, ⟨_, ⟨_, rfl, rfl⟩, hwalletId, tl, htl, rfl⟩, -, tp, htp, rfl⟩, rfl⟩, tr, h⟩ :=
      hw₇ s₇ s₈ hs₈
    change Change _ s₇.core s₈.core
    rw [show s₈.core = _ from h]
    refine .payWallet wallet.userId bookingId wallet.id amount wallet.balance _ tp _ tl _ tr
      (hns (List.mem_cons_of_mem _ hdue)) (hns (List.mem_cons_of_mem _ hpaying))
      (hns List.mem_cons_self) (by simpa using henough) htp rfl rfl rfl rfl rfl rfl rfl rfl ?_ ?_ ?_
    · exact ⟨by intro _ _; rfl, rfl⟩
    · exact ⟨⟨txId, Table.insert_rows htl⟩, hwalletId⟩
    · exact ⟨_, by intro _ _; rfl, by intro b; rfl, rfl⟩

/-! ### Gateway sessions -/

theorem createSession_owes {Q : Post Store Err Note Id} {amount : Money}
    (hok : ∀ s₁ s₂ ref, (∀ r ∈ s₁.core.session.rows, r.id ≠ ref) →
      (∃ r ∈ s₂.core.session.rows, r.id = ref) → s₂.core.payment = s₁.core.payment →
      Q (.ok ref) none ns s₁ s₂)
    (herr : ∀ e s₁, Q (.error e) none ns s₁ s₁) :
    wp (contract K) Q (MockPaymentGateway.createSession amount) none ns s₀ s := by
  refine wp_op fun g s₁ _ _ => ⟨fun ref s₂ h => ?_, fun e _ => herr e s₁⟩
  have h := attempt_ok h
  split at h
  · rename_i t ht
    obtain ⟨rfl, rfl⟩ := by simpa using h
    have hfresh := Table.insert_fresh ht
    have hthere : ({ id := g.newId 0, amount } : Session) ∈ t.rows := by
      rw [Table.insert_rows ht]
      exact List.mem_append_right _ List.mem_cons_self
    refine ⟨.session _ t ht rfl, hok s₁ _ _ (fun r hr => ?_) ⟨_, hthere, rfl⟩ rfl⟩
    have := hfresh r hr
    simpa [Indexed.clash] using this
  · simp at h

/-- After a payment was created, a session is opened for it and linked to it. -/
theorem openSession_owes (hK : ∀ p, K (.opening p)) (hK' : ∀ id ref, K (.opened id ref))
    {payment : Payment} (hmem : payment ∈ s.core.payment.rows)
    (hnew : ∀ q ∈ s₀.core.payment.rows, q.id ≠ payment.id)
    (href : payment.gatewayRefId = none ∧ payment.callbackVerifiedAt = none) :
    wp (contract K) anyway (PaymentService.openSession payment) none [] s₀ s := by
  refine (wp_bind _ _).mpr ((wp_mark _).mpr ⟨⟨.inr (hK _), hmem, hnew, href⟩, ?_⟩)
  refine (wp_bind _ _).mpr (createSession_owes (fun s₁ s₂ ref hfresh hthere _ => ?_)
    fun _ _ => trivial)
  refine (wp_bind _ _).mpr ((wp_mark _).mpr ⟨⟨.inr (hK' _ _), ?_⟩, ?_⟩)
  · exact ⟨⟨payment, List.mem_cons_self, rfl⟩, by simp, hfresh, hthere⟩
  · refine (wp_bind _ _).mpr (wp_prisma (fun g s₃ a s₄ _ _ h => ⟨?_, trivial⟩)
      fun _ _ _ _ _ _ => trivial)
    change Change _ s₃.core s₄.core
    rw [show s₄.core = _ from (update_core h).2]
    exact .link payment ref _ (List.mem_cons_of_mem _ List.mem_cons_self) List.mem_cons_self ⟨_, rfl⟩

/-- Opening an INITIATED payment; what follows gets it as a row that was not there before. -/
theorem open_owes {β : Type} {row : Time → Id → Payment} {k : Payment → Task β}
    (hrow : ∀ now id, (row now id).status = .initiated ∧ (row now id).gateway = .mock ∧
      (row now id).gatewayRefId = none ∧ (row now id).callbackVerifiedAt = none ∧
      ((∃ b, (row now id).type = .deposit ∧ (row now id).bookingId = some b ∧
        .due b (row now id).userId (row now id).amount ∈ ns) ∨
      ((row now id).type = .walletTopup ∧ (row now id).bookingId = none ∧
        0 < (row now id).amount ∧ .acts (row now id).userId ∈ ns)))
    (hk : ∀ p s₀ s, p ∈ s.core.payment.rows → (∀ q ∈ s₀.core.payment.rows, q.id ≠ p.id) →
      p.gatewayRefId = none ∧ p.callbackVerifiedAt = none → wp (contract K) anyway (k p) none [] s₀ s) :
    wp (contract K) anyway (prisma (createAt row) >>= k) none ns s₀ s := by
  refine (wp_bind _ _).mpr (wp_prisma (fun g s₁ p s₂ _ _ h => ?_) fun _ _ _ _ _ _ => trivial)
  obtain ⟨rfl, hput⟩ := create_ok h
  obtain ⟨-, t, ht, hs₂⟩ := put_core hput
  obtain ⟨h₁, h₂, h₃, h₄, h₅⟩ := hrow g.now (g.newId 0)
  constructor
  · change Change _ s₁.core s₂.core
    rw [hs₂]
    exact .openPayment _ t ht h₁ h₂ h₃ h₄ h₅
  · refine hk _ s₁ s₂ ?_ (fun q hq => ?_) ⟨h₃, h₄⟩
    · rw [hs₂]
      change _ ∈ t.rows
      rw [Table.insert_rows ht]
      exact List.mem_append_right _ List.mem_cons_self
    · have := Table.insert_fresh ht q hq
      simpa [Indexed.clash] using this

theorem TopupWalletDto.amount_pos (dto : TopupWalletDto) : 0 < dto.amount := by
  have := dto.least
  show 0 < dto.toman * 100
  exact Int.mul_pos (by linarith) (by decide)

theorem topup_owes (hK : ∀ p, K (.opening p)) (hK' : ∀ id ref, K (.opened id ref)) {userId : Id}
    {dto : TopupWalletDto} (hacts : .acts userId ∈ ns) :
    wp (contract K) anyway (WalletService.topup userId dto) none ns s₀ s :=
  open_owes (fun _ _ => ⟨rfl, rfl, rfl, rfl, .inr ⟨rfl, rfl, dto.amount_pos, hacts⟩⟩)
    fun _ _ _ hmem hnew href => openSession_owes hK hK' hmem hnew href

theorem getWallet_owes {userId : Id} (hK : K (.enrolling userId)) :
    wp (contract K) anyway (WalletService.getMine userId) none ns s₀ s := by
  refine (wp_bind _ _).mpr ((wp_mark _).mpr ⟨⟨.inr hK, trivial⟩, ?_⟩)
  refine wp_prisma (fun g s₁ r s₂ _ _ h => ⟨?_, trivial⟩) fun _ _ _ _ _ _ => trivial
  rcases upsert_ok h with ⟨-, -, rfl⟩ | ⟨-, rfl, hput⟩
  · exact .quiet
  · obtain ⟨hrefs, t, ht, hs₂⟩ := put_core hput
    change Change _ s₁.core s₂.core
    rw [hs₂]
    exact .newWallet _ t List.mem_cons_self ht rfl hrefs

theorem initiate_owes (hK : ∀ u w x, K (.balance u w x)) (hK' : ∀ b, K (.paying b))
    {dto : InitiatePaymentDto} (hK₁ : dto.method = .gateway → ∀ p, K (.opening p))
    (hK₂ : dto.method = .gateway → ∀ id ref, K (.opened id ref)) {userId : Id}
    (hdue : ∀ b x, K (.due b userId x)) :
    wp (contract K) anyway (PaymentService.initiate userId dto) none ns s₀ s := by
  refine (wp_bind _ _).mpr (wp_query (fun g s₁ _ => ?_) fun _ _ => trivial)
  refine (wp_bind _ _).mpr ((wp_orThrow _ _).mpr ⟨fun b hb => ?_, fun _ => trivial⟩)
  obtain ⟨hmem, hp⟩ := findFirst_some hb
  simp only [Bool.and_eq_true, beq_iff_eq] at hp
  refine (wp_bind _ _).mpr ((wp_ensure _ _).mpr ⟨fun hpending => ?_, fun _ => trivial⟩)
  refine (wp_bind _ _).mpr ((wp_ensure _ _).mpr ⟨fun hpos => ?_, fun _ => trivial⟩)
  refine (wp_bind _ _).mpr ((wp_mark _).mpr
    ⟨⟨.inr (hdue _ _), hpos, b, hmem, rfl, hp.2, hpending, rfl⟩, ?_⟩)
  rw [wp_onOk_ok]
  split
  · refine (wp_bind _ _).mpr ((wp_mark _).mpr ⟨⟨.inr (hK' _), b, hmem, rfl, hpending⟩, ?_⟩)
    exact payFromWallet_owes hK (List.mem_cons_of_mem _ List.mem_cons_self) List.mem_cons_self
  · rename_i hmethod
    refine open_owes (fun _ _ => ⟨rfl, rfl, rfl, rfl, .inl ⟨b.id, rfl, rfl, List.mem_cons_self⟩⟩) ?_
    refine fun _ _ _ hmem hnew href => (wp_bind _ _).mpr (wp_mono (fun r _ _ _ _ _ => ?_)
      (openSession_owes (hK₁ hmethod) (hK₂ hmethod) hmem hnew href))
    cases r <;> trivial

/-! ### The callback -/

/-- The payment was marked SUCCESS by an open transaction. -/
def Marked (p : Payment) (c c' : Core) : Prop :=
  ∃ t, PaymentSet p.id .success c.payment t ∧ c' = { c with payment := t }

section settle
variable {p : Payment} {ref : Id} {Q : Post Store Err Note Unit}

theorem creditWallet_owes (hK : ∀ u w x, K (.balance u w x)) (hK' : ∀ u, K (.walletless u))
    (hhandling : .handling p ∈ ns) (hfinal : .finalising p.id ref ∈ ns)
    (htype : p.type = .walletTopup) (hw : Pending (onCore (Marked p)) w)
    (hok : ∀ r w ns s₀ s, Pending (onCore (Change ns)) w → Q (.ok r) (some w) ns s₀ s)
    (herr : ∀ e w ns s₀ s, Q (.error e) w ns s₀ s) :
    wp (contract K) Q (PaymentService.creditWallet p) (some w) ns s₀ s := by
  refine (wp_bind _ _).mpr (wp_query_tx hw ?_ fun _ _ _ => herr _ _ _ _ _)
  intro g s₁ v _ _ hv w₁ hw₁ _
  obtain ⟨t, -, hvt⟩ := hv
  have hwallets : (Model.get (R := Wallet) v).rows = s₁.core.wallet.rows := by
    change v.core.wallet.rows = _
    rw [hvt]
  rw [wp_onOk_ok]
  split
  · rename_i hnone
    have hless := findUnique_none hnone
    rw [hwallets] at hless
    refine (wp_mark _).mpr ⟨⟨.inr (hK' _), fun r hr => ?_⟩, hok _ _ _ _ _ (hw₁.mono ?_)⟩
    · simpa using hless r hr
    · rintro s v ⟨t, ht, hs⟩
      rw [onCore, hs]
      exact .acceptOnly p ref t (List.mem_cons_of_mem _ hhandling) (List.mem_cons_of_mem _ hfinal)
        (fun _ => List.mem_cons_self) (fun _ h => absurd htype h) ht
  · rename_i wallet hsome
    obtain ⟨hmem, huser⟩ := findUnique_some hsome
    rw [hwallets] at hmem
    have hground : Grounds ns s₁.core s₁.core (.balance p.userId wallet.id wallet.balance) :=
      .inl ⟨wallet, hmem, by simpa using huser, rfl, rfl⟩
    refine (wp_bind _ _).mpr ((wp_mark _).mpr ⟨⟨.inr (hK _ _ _), hground⟩, ?_⟩)
    refine (wp_bind _ _).mpr (wp_tx_update hw₁ (fun s₂ v₂ w₂ r₂ _ _ _ hw₂ => ?_)
      fun _ _ _ => herr _ _ _ _ _)
    refine (wp_bind _ _).mpr (wp_tx_create hw₂ (fun s₃ w₃ txId _ hw₃ => ?_)
      fun _ _ _ => herr _ _ _ _ _)
    refine hok _ _ _ _ _ (hw₃.mono ?_)
    rintro s v ⟨_, ⟨_, ⟨tp, htp, rfl⟩, rfl⟩, hwalletId, tl, htl, hs⟩
    rw [onCore, hs]
    refine .credit p ref wallet.id wallet.balance tp _ tl (List.mem_cons_of_mem _ hhandling)
      (List.mem_cons_of_mem _ hfinal) List.mem_cons_self htype htp ?_ ?_
    · exact ⟨by intro _ _; rfl, rfl⟩
    · exact ⟨⟨txId, Table.insert_rows htl⟩, hwalletId⟩

theorem confirmBooking_owes (hK : ∀ b, K (.paying b)) (hK' : ∀ b, K (.unpayable b))
    {bookingId : Id} (hhandling : .handling p ∈ ns) (hfinal : .finalising p.id ref ∈ ns)
    (htype : p.type ≠ .walletTopup) (hbooking : p.bookingId = some bookingId)
    (hw : Pending (onCore (Marked p)) w)
    (hok : ∀ r w ns s₀ s, Pending (onCore (Change ns)) w → Q (.ok r) (some w) ns s₀ s)
    (herr : ∀ e w ns s₀ s, Q (.error e) w ns s₀ s) :
    wp (contract K) Q (PaymentService.confirmBooking p bookingId) (some w) ns s₀ s := by
  refine (wp_bind _ _).mpr (wp_query_tx hw ?_ fun _ _ _ => herr _ _ _ _ _)
  intro g s₁ v _ _ hv w₁ hw₁ _
  obtain ⟨t, -, hvt⟩ := hv
  have hbookings : Model.get (R := Booking) v = s₁.core.booking := by
    change v.core.booking = _
    rw [hvt]
  rw [wp_onOk_ok]
  split
  · rename_i hnone
    have hnot (b : Booking) (hb : b ∈ s₁.core.booking.rows) (hid : b.id = bookingId) :
        b.status ≠ .pending := by
      intro hpending
      cases hfound : findUnique (fun r : Booking => r.id == bookingId) g v with
      | none =>
        have := findUnique_none hfound b (by rw [hbookings]; exact hb)
        simp [hid] at this
      | some b' =>
        obtain ⟨hmem, hid'⟩ := findUnique_some hfound
        rw [hbookings] at hmem
        have : b' = b := Table.eq_of_clash hmem hb (by simpa [Indexed.clash, hid] using hid')
        simp [hfound, this, hpending] at hnone
    refine (wp_mark _).mpr ⟨⟨.inr (hK' _), hnot⟩, hok _ _ _ _ _ (hw₁.mono ?_)⟩
    rintro s v ⟨t, ht, hs⟩
    rw [onCore, hs]
    refine .acceptOnly p ref t (List.mem_cons_of_mem _ hhandling) (List.mem_cons_of_mem _ hfinal)
      (fun h => absurd h htype) (fun b _ hb _ => ?_) ht
    obtain rfl : bookingId = b := Option.some.inj (hbooking.symm.trans hb)
    exact List.mem_cons_self
  · rename_i booking hsome
    obtain ⟨hfound, hpending⟩ := Option.filter_eq_some_iff.mp hsome
    obtain ⟨hmem, hid⟩ := findUnique_some hfound
    rw [hbookings] at hmem
    refine (wp_bind _ _).mpr ((wp_mark _).mpr ⟨⟨.inr (hK _), booking, hmem, by simpa using hid,
      by simpa using hpending⟩, ?_⟩)
    refine (wp_bind _ _).mpr (wp_tx_update hw₁ (fun s₂ v₂ w₂ r₂ _ _ _ hw₂ => ?_)
      fun _ _ _ => herr _ _ _ _ _)
    refine wp_rewarding_tx (awardPostPurchaseRewards_rewarding _ _) hw₂ fun r w₃ _ s₀ s hw₃ hns => ?_
    cases r with
    | error e => exact herr _ _ _ _ _
    | ok r =>
      refine hok _ _ _ _ _ (hw₃.mono ?_)
      rintro s v ⟨_, ⟨_, ⟨tp, htp, rfl⟩, rfl⟩, tr, hs⟩
      rw [onCore, hs]
      refine .confirmPaid p ref bookingId tp _ tr (hns (List.mem_cons_of_mem _ hhandling))
        (hns (List.mem_cons_of_mem _ hfinal)) htype hbooking (hns List.mem_cons_self) htp ?_
      exact ⟨_, by intro _ _; rfl, by intro b; rfl, rfl⟩

theorem settle_owes (hK : ∀ u w x, K (.balance u w x)) (hK₁ : ∀ u, K (.walletless u))
    (hK₂ : ∀ b, K (.paying b)) (hK₃ : ∀ b, K (.unpayable b))
    (hhandling : .handling p ∈ ns) (hfinal : .finalising p.id ref ∈ ns)
    (hw : Pending (onCore (Marked p)) w)
    (hok : ∀ r w ns s₀ s, Pending (onCore (Change ns)) w → Q (.ok r) (some w) ns s₀ s)
    (herr : ∀ e w ns s₀ s, Q (.error e) w ns s₀ s) :
    wp (contract K) Q (PaymentService.settle p) (some w) ns s₀ s := by
  unfold PaymentService.settle
  split
  · rename_i htype
    exact creditWallet_owes hK hK₁ hhandling hfinal htype hw hok herr
  · rename_i htype
    split
    · rename_i bookingId hbooking
      exact confirmBooking_owes hK₂ hK₃ hhandling hfinal htype (truthyId_eq_some.mp hbooking).1 hw
        hok herr
    · rename_i hbooking
      refine hok _ _ _ _ _ (hw.mono ?_)
      rintro s v ⟨t, ht, hs⟩
      rw [onCore, hs]
      refine .acceptOnly p ref t hhandling hfinal (fun h => absurd h htype) (fun b _ hb hne => ?_) ht
      simp [truthyId, hb, hne] at hbooking

end settle

theorem verify_owes {Q : Post Store Err Note VerifyResult} {ref : Option Id} {amount : Money}
    (hok : ∀ s₁ s₂ v, (v.verified = true → ∃ id, ref = some id ∧
        (∃ r ∈ s₁.core.session.rows, r.id = id ∧ r.used = false ∧ r.amount = amount) ∧
        ∃ r ∈ s₂.core.session.rows, r.id = id ∧ r.used = true) →
      Asked s₁.core s₂.core → Q (.ok v) none ns s₁ s₂)
    (herr : ∀ e s₁, Q (.error e) none ns s₁ s₁) :
    wp (contract K) Q (MockPaymentGateway.verify ref amount) none ns s₀ s := by
  refine wp_op fun g s₁ _ _ => ⟨fun v s₂ h => ?_, fun e _ => herr e s₁⟩
  have h := attempt_ok h
  have refused (hv : v.verified = false) (hs : s₂ = s₁) :
      (contract K).auto ns s₁ s₂ ∧ Q (.ok v) none ns s₁ s₂ := by
    subst hs
    exact ⟨.quiet, hok s₂ s₂ v (fun h => by simp [hv] at h) .quiet⟩
  unfold MockPaymentGateway.verifyStmt at h
  split at h
  · obtain ⟨rfl, rfl⟩ := by simpa using h
    exact refused rfl rfl
  · rename_i session hfound
    have hmem := List.mem_of_find?_eq_some hfound
    have hid : some session.id = ref := by simpa using List.find?_some hfound
    split at h
    · obtain ⟨rfl, rfl⟩ := by simpa using h
      exact refused rfl rfl
    · rename_i hunused
      split at h
      · obtain ⟨rfl, rfl⟩ := by simpa using h
        exact refused rfl rfl
      · rename_i hamount
        obtain ⟨rfl, rfl⟩ := by simpa using h
        have hused : session.used = false := by simpa using hunused
        refine ⟨.verify session _ hmem hused ⟨by intro _ _; rfl, rfl⟩,
          hok s₁ _ _ (fun _ => ?_) (.verify session _ hmem hused ⟨by intro _ _; rfl, rfl⟩)⟩
        refine ⟨session.id, hid.symm, ⟨session, hmem, rfl, hused, by simpa using hamount⟩,
          { session with used := true }, ?_, rfl, rfl⟩
        exact List.mem_map.mpr ⟨session, hmem, by simp⟩

theorem handleCallback_owes (hK : ∀ u w x, K (.balance u w x)) (hK₁ : ∀ u, K (.walletless u))
    (hK₂ : ∀ b, K (.paying b)) (hK₃ : ∀ b, K (.unpayable b)) (hK₄ : ∀ p, K (.handling p))
    {gatewayRefId : Option Id} (hK₅ : ∀ id ref, gatewayRefId = some ref → K (.finalising id ref))
    (gateway : GatewayName) :
    wp (contract K) anyway (PaymentService.handleCallback gateway gatewayRefId) none ns s₀ s := by
  refine (wp_bind _ _).mpr (wp_query (fun g s₁ _ => ?_) fun _ _ => trivial)
  refine (wp_bind _ _).mpr ((wp_orThrow _ _).mpr ⟨fun p hp => ?_, fun _ => trivial⟩)
  obtain ⟨hmem, hp⟩ := findFirst_some hp
  rw [wp_onOk_ok]
  split
  · trivial
  rename_i hinitiated
  have hstatus : p.status = .initiated := by simpa using hinitiated
  refine (wp_bind _ _).mpr ((wp_mark _).mpr ⟨⟨.inr (hK₄ _), hmem, hstatus⟩, ?_⟩)
  refine (wp_bind _ _).mpr (verify_owes (fun s₂ s₃ v hv hasked => ?_) fun _ _ => trivial)
  rw [wp_onOk_ok]
  split
  · rename_i ref hverified _
    obtain ⟨id, hid, hbefore, hafter⟩ := hv hverified
    obtain rfl : ref = id := Option.some.inj hid
    have href : p.gatewayRefId = some ref := by
      simp only [Option.all_some, Bool.and_eq_true, beq_iff_eq] at hp
      exact hp.1
    refine (wp_bind _ _).mpr ((wp_mark _).mpr ⟨⟨.inr (hK₅ _ _ rfl), ?_, hafter, ?_, ?_⟩, ?_⟩)
    · exact ⟨p, List.mem_cons_self, rfl, href, hbefore⟩
    · obtain ⟨t, ht⟩ := hasked.core_eq
      rw [ht]
    · intro r hr
      obtain ⟨r', hr', hid, hamount, -⟩ := hasked.session_stays hr
      exact ⟨r', hr', hid, hamount⟩
    refine wp_transaction (fun s₄ _ => ?_) fun _ _ => trivial
    refine (wp_bind _ _).mpr (wp_look_tx (S := onCore fun c c' => c' = c) ?_
      (fun g s₅ _ w₅ hw₅ => ?_) fun _ _ _ => trivial)
    · rintro s v ⟨⟩
      rfl
    refine (wp_bind _ _).mpr (wp_tx_update hw₅ (fun s₆ v₆ w₆ r₆ _ _ _ hw₆ => ?_)
      fun _ _ _ => trivial)
    have hw₆ : Pending (onCore (Marked p)) w₆ := by
      refine hw₆.mono ?_
      rintro s v ⟨_, rfl, hs⟩
      exact ⟨_, ⟨_, by intro _ _; rfl, by intro _; simp [Payment.Restated], rfl⟩, hs⟩
    refine (wp_bind _ _).mpr (settle_owes hK hK₁ hK₂ hK₃ (List.mem_cons_of_mem _ List.mem_cons_self)
      List.mem_cons_self hw₆ (fun r w ns s₀ s hw => ?_) fun _ _ _ _ _ => trivial)
    exact fun g s₇ s₈ _ _ hs₈ => ⟨hw s₇ s₈ hs₈, trivial⟩
  · refine (wp_bind _ _).mpr (wp_prisma (fun g s₄ a s₅ _ _ h => ⟨?_, trivial⟩)
      fun _ _ _ _ _ _ => trivial)
    change Change _ s₄.core s₅.core
    rw [show s₅.core = _ from (update_core h).2]
    exact .fail p _ List.mem_cons_self ⟨_, by intro _ _; rfl, by intro _; simp [Payment.Restated], rfl⟩

/-! ### Refunds -/

theorem refund_owes (hK : ∀ u w x, K (.balance u w x)) (hK' : ∀ p, K (.refunding p))
    (paymentId adminId : Id) (reason : String) :
    wp (contract K) anyway (PaymentService.refund paymentId adminId reason) none ns s₀ s := by
  refine (wp_bind _ _).mpr (wp_query (fun g s₁ _ => ?_) fun _ _ => trivial)
  refine (wp_bind _ _).mpr ((wp_orThrow _ _).mpr ⟨fun p hp => ?_, fun _ => trivial⟩)
  obtain ⟨hmem, hid⟩ := findUnique_some hp
  obtain rfl : p.id = paymentId := by simpa using hid
  refine (wp_bind _ _).mpr ((wp_ensure _ _).mpr ⟨fun hsuccess => ?_, fun _ => trivial⟩)
  refine (wp_bind _ _).mpr ((wp_mark _).mpr ⟨⟨.inr (hK' _), hmem, hsuccess⟩, ?_⟩)
  refine wp_transaction (fun s₂ _ => ?_) fun _ _ => trivial
  refine (wp_bind _ _).mpr (wp_tx_update (P := fun c c' => c' = c) ?_
    (fun s₃ v₃ w₃ r₃ _ _ _ hw₃ => ?_) fun _ _ _ => trivial)
  · rintro s v ⟨⟩
    rfl
  refine (wp_bind _ _).mpr (wp_tx_stmt (E := fun c c' => ∃ t,
    WalletOpened p.userId c.user c.wallet t ∧ c' = { c with wallet := t }) ?_ hw₃
    (fun g s₄ v₄ wallet v₄' w₄ hv₄ hupsert hw₄ => ?_) fun _ _ _ => trivial)
  · intro g s a s' h
    rcases upsert_ok h with ⟨-, -, rfl⟩ | ⟨hnone, rfl, hput⟩
    · exact ⟨_, .inl rfl, rfl⟩
    · obtain ⟨hrefs, t, ht, hs'⟩ := put_core hput
      exact ⟨t, .inr ⟨fun r hr => by simpa using hnone r hr, hrefs, _, Table.insert_rows ht⟩, hs'⟩
  have hwallets : v₄.core.wallet = s₄.core.wallet := by
    obtain ⟨_, rfl, h⟩ := hv₄
    rw [show v₄.core = _ from h]
    rfl
  have hground : Grounds (.refunding p :: ns) s₄.core s₄.core
      (.balance p.userId wallet.id wallet.balance) := by
    rcases upsert_ok hupsert with ⟨hmem, huser, -⟩ | ⟨-, rfl, hput⟩
    · refine .inl ⟨wallet, ?_, by simpa using huser, rfl, rfl⟩
      rw [← hwallets]
      exact hmem
    · obtain ⟨-, t, ht, -⟩ := put_core hput
      refine .inr ⟨fun r hr => ?_, rfl⟩
      rw [← hwallets] at hr
      have := Table.insert_fresh ht r hr
      simp only [Indexed.clash, Bool.or_eq_false_iff, beq_eq_false_iff_ne] at this
      exact ⟨this.2, this.1⟩
  refine (wp_bind _ _).mpr ((wp_mark _).mpr ⟨⟨.inr (hK _ _ _), hground⟩, ?_⟩)
  refine (wp_bind _ _).mpr (wp_tx_update hw₄ (fun s₅ v₅ w₅ r₅ _ _ _ hw₅ => ?_)
    fun _ _ _ => trivial)
  refine (wp_bind _ _).mpr (wp_tx_create hw₅ (fun s₆ w₆ txId _ hw₆ => ?_) fun _ _ _ => trivial)
  refine (wp_bind _ _).mpr (wp_tx_stmt (E := fun c c' => ∃ row : AuditLog,
    row.action = .paymentRefunded ∧ row.entityId = p.id ∧ row.metadata.amount = some p.amount ∧
      c' = { c with refundLog := c.refundLog ++ [row] }) ?_ hw₆
    (fun g s₇ v₇ a v₇' w₇ _ _ hw₇ => ?_) fun _ _ _ => trivial)
  · intro g s a s' h
    obtain ⟨rfl, hput⟩ := create_ok h
    exact ⟨_, rfl, rfl, rfl, put_auditLog_core hput⟩
  · refine fun g s₈ s₉ _ _ hs₉ => ⟨?_, trivial⟩
    obtain ⟨_, ⟨_, ⟨_, ⟨_, ⟨_, rfl, rfl⟩, tw, htw, rfl⟩, rfl⟩, hwalletId, tl, htl, rfl⟩, row, hrow₁,
      hrow₂, hrow₃, h⟩ := hw₇ s₈ s₉ hs₉
    change Change _ s₈.core s₉.core
    rw [show s₉.core = _ from h]
    refine .refund p wallet.id wallet.balance row _ tw _ tl
      (List.mem_cons_of_mem _ List.mem_cons_self) List.mem_cons_self ?_ htw ?_ ?_ hrow₁ hrow₂ hrow₃
    · exact ⟨_, by intro _ _; rfl, by intro _; simp [Payment.Restated], rfl⟩
    · exact ⟨by intro _ _; rfl, rfl⟩
    · exact ⟨⟨txId, Table.insert_rows htl⟩, hwalletId⟩

end
end BookingPlatform
