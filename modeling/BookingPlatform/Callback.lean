import BookingPlatform.Async.Rely
import BookingPlatform.Conservation
import BookingPlatform.DoubleBooking
import BookingPlatform.Rewards
import BookingPlatform.Verification

/-! Callbacks in any interleaving with all other requests: a payment takes effect at most
once, and only when its own reference has been verified for its own amount. -/
namespace BookingPlatform
open Async Data Prog

/-- No payment has two ledger rows of a top-up. -/
def OncePerTopup (l : List WalletTransaction) : Prop :=
  l.Pairwise fun r r' => r.type = .topup → r'.type = .topup → r.referenceId ≠ r'.referenceId

/-- The payment has been verified. -/
def VerifiedIn (id : Id) (s : Store) : Prop :=
  ∃ p ∈ s.payment.rows, p.id = id ∧ p.callbackVerifiedAt.isSome

/-- The step marks the payment as verified. -/
def Verifies (id : Id) (s s' : Store) : Prop := ¬ VerifiedIn id s ∧ VerifiedIn id s'

/-- The session of this reference was opened for this amount and has been verified. -/
def UsedFor (t : Table Session) (ref : Id) (amount : Money) : Prop :=
  ∃ r ∈ t.rows, r.id = ref ∧ r.used = true ∧ r.amount = amount

/-- Bookings, wallets, the ledger, points and referrals are untouched. -/
structure Idle (s s' : Store) : Prop where
  booking : s'.booking = s.booking
  wallet : s'.wallet = s.wallet
  walletTransaction : s'.walletTransaction = s.walletTransaction
  points : s'.points = s.points
  referral : s'.referral = s.referral

/-- What a payment is good for: its amount on the wallet, or its booking and the rewards. What is written was worked out
from stores of `H`, and nothing else changes. -/
inductive TakesEffect (H : Store → Prop) (p : Payment) (s : Store) : Store → Prop
  | undelivered : (p.type = .walletTopup → ∃ r, H r ∧ ∀ w ∈ r.wallet.rows, w.userId ≠ p.userId) →
      (p.type ≠ .walletTopup → ∀ id ≠ 0, p.bookingId = some id →
        ∃ r, H r ∧ ∀ b ∈ r.booking.rows, b.id = id → b.status ≠ .pending) → TakesEffect H p s s
  | credited (r : Store) (wallet : Wallet) (tw : Table Wallet) (tl : Table WalletTransaction) : p.type = .walletTopup →
      H r → wallet ∈ r.wallet.rows → wallet.userId = p.userId →
      (tw.rows = s.wallet.rows.map fun w =>
        if w.userId = p.userId then { w with balance := wallet.balance + p.amount } else w) →
      (∃ id, tl.rows = s.walletTransaction.rows ++ [{
        id, walletId := wallet.id, type := .topup, amount := p.amount, balanceAfter := wallet.balance + p.amount
        referenceId := some p.id }]) →
      TakesEffect H p s { s with wallet := tw, walletTransaction := tl }
  | confirmed (r : Store) (b : Booking) (tb : Table Booking) (ta : Table LoyaltyAccount)
      (te : Table LoyaltyTransaction) (tr : Table Referral) : p.type ≠ .walletTopup → p.bookingId = some b.id →
      H r → b ∈ r.booking.rows → b.status = .pending →
      (tb.rows = s.booking.rows.map fun r => if r.id = b.id then { r with status := .confirmed } else r) →
      Awards H p.userId (b.priceSnapshot - b.discountAmount) s
        { s with loyaltyAccount := ta, loyaltyTransaction := te, referral := tr } →
      TakesEffect H p s { s with booking := tb, loyaltyAccount := ta, loyaltyTransaction := te, referral := tr }

/-- The payment is accepted. -/
def MarksSuccess (p : Payment) (s s' : Store) : Prop := ∃ now tp, s' = { s with payment := tp } ∧
  tp.rows = s.payment.rows.map fun r =>
    if r.id = p.id then { r with status := .success, callbackVerifiedAt := some now } else r

/-- The payment is accepted, and takes effect. -/
def Succeeds (H : Store → Prop) (p : Payment) (s s' : Store) : Prop := ∃ u, MarksSuccess p s u ∧ TakesEffect H p u s'

/-- A step of a callback does nothing, or what the one payment is good for whose reference this callback had verified for
its amount. What it writes was worked out from stores that were met. -/
def Warranted {ι : Type} (earlier : List (ι × Store × Store)) (i : ι) (gatewayRefId : Option Id) (s s' : Store) : Prop :=
  Idle s s' ∨ ∃ p ∈ s.payment.rows, ∃ ref, gatewayRefId = some ref ∧ p.gatewayRefId = some ref ∧ Verifies p.id s s' ∧
    Succeeds (· ∈ s :: earlier.map fun y => y.2.1) p s s' ∧ UsedFor s.session ref p.amount ∧
    ∃ y ∈ earlier, y.1 = i ∧ ¬ Used y.2.1.session ref ∧ Used y.2.2.session ref

/-- Top-ups in the ledger are of verified payments, and those have used up their references. -/
structure Verified (c : Core) : Prop where
  topups : ∀ r ∈ c.walletTransaction.rows, r.type = .topup → ∃ p ∈ c.payment.rows,
    r.referenceId = some p.id ∧ p.callbackVerifiedAt.isSome
  once : OncePerTopup c.walletTransaction.rows
  used : ∀ p ∈ c.payment.rows, p.callbackVerifiedAt.isSome → ∀ ref, p.gatewayRefId = some ref →
    Used c.session ref

/-- The payment as it was read, but for its status; a reference stays. -/
structure Payment.Since (p q : Payment) : Prop where
  id : q.id = p.id
  bookingId : q.bookingId = p.bookingId
  userId : q.userId = p.userId
  type : q.type = p.type
  amount : q.amount = p.amount
  gatewayRefId : ∀ ref, p.gatewayRefId = some ref → q.gatewayRefId = some ref

/-- What a note says of payments, whatever the other requests do. -/
def Note.ofCallback (c : Core) : Note → Prop
  | .opening p => ∃ q ∈ c.payment.rows,
    q.id = p.id ∧ q.gatewayRefId = none ∧ q.callbackVerifiedAt = none
  | .handling p => ∃ q ∈ c.payment.rows, p.Since q
  | .finalising id ref => ∃ q ∈ c.payment.rows, q.id = id ∧ q.gatewayRefId = some ref ∧
    q.callbackVerifiedAt = none ∧ UsedFor c.session ref q.amount
  | _ => True

section
variable {c c' : Core} {ns held : List Note} {x y : Note} {p p' : Payment}

theorem UsedFor.used {t : Table Session} {ref : Id} {amount : Money} (h : UsedFor t ref amount) :
    Used t ref := by
  obtain ⟨r, hr, hid, hused, -⟩ := h
  exact ⟨r, hr, hid, hused⟩

theorem Asked.usedFor (h : Asked c c') {ref : Id} {amount : Money}
    (hu : UsedFor c.session ref amount) : UsedFor c'.session ref amount := by
  obtain ⟨r, hr, hid, hused, hamount⟩ := hu
  obtain ⟨r', hr', hid', hamount', hused'⟩ := h.session_stays hr
  exact ⟨r', hr', hid'.trans hid, hused' hused, hamount'.trans hamount⟩

theorem Payment.Since.becomes {q q' : Payment} (h : p.Since q) (hq : q.Becomes ns q')
    (href : ∀ ref, q.gatewayRefId = some ref → q'.gatewayRefId = some ref) : p.Since q' := by
  obtain ⟨hid, hbooking, huser, htype, hamount, -⟩ := hq.fields
  exact ⟨hid.trans h.id, hbooking.trans h.bookingId, huser.trans h.userId, htype.trans h.type,
    hamount.trans h.amount, fun ref hp => href ref (h.gatewayRefId ref hp)⟩

/-- Only the request that opened a payment links it, and it has no reference until then. -/
theorem Payment.Becomes.keeps_ref (h : p.Becomes ns p') (hp : p ∈ c.payment.rows)
    (hns : ∀ y ∈ ns, y.ofCallback c) {ref : Id} (href : p.gatewayRefId = some ref) :
    p'.gatewayRefId = some ref := by
  cases h with
  | same => exact href
  | linked q ref' hopening hid hopened =>
    obtain ⟨q₁, hq₁, hid₁, hnone, -⟩ := hns _ hopening
    obtain rfl := payment_eq hq₁ hp (hid₁.trans hid)
    rw [hnone] at href
    cases href
  | restated next p' hsettles hrestated =>
    rw [hrestated.1]
    exact href

theorem ofCallback_grounds (hc : Verified c) (hheld : ∀ y ∈ held, y.ofCallback c')
    (h : Grounds held c c' x) : x.ofCallback c' := by
  cases x with
  | opening p =>
    obtain ⟨hp, -, href, hverified⟩ := h
    exact ⟨p, hp, rfl, href, hverified⟩
  | handling p =>
    obtain ⟨hp, -⟩ := h
    exact ⟨p, hp, rfl, rfl, rfl, rfl, rfl, fun _ href => href⟩
  | finalising id ref =>
    obtain ⟨⟨p, hp, rfl, href, r, hr, hid, hunused, hamount⟩, hused, hpayment, hkept⟩ := h
    obtain ⟨q, hq, hsince⟩ := hheld _ hp
    have hqref := hsince.gatewayRefId ref href
    refine ⟨q, hq, hsince.id, hqref, ?_, ?_⟩
    · -- Had the payment been verified before, its reference would have been used.
      by_contra hverified
      rw [hpayment] at hq
      obtain ⟨r', hr', hid', hused'⟩ := hc.used q hq (Option.isSome_iff_ne_none.mpr hverified) ref hqref
      obtain rfl : r = r' := Table.eq_of_clash hr hr' (by simp [Indexed.clash, hid, hid'])
      rw [hunused] at hused'
      cases hused'
    · obtain ⟨r₁, hr₁, hid₁, hused₁⟩ := hused
      obtain ⟨r₂, hr₂, hid₂, hamount₂⟩ := hkept r hr
      obtain rfl : r₁ = r₂ :=
        Table.eq_of_clash hr₁ hr₂ (by simp [Indexed.clash, hid₁, hid₂, hid])
      exact ⟨r₁, hr₁, hid₁, hused₁, hamount₂.trans (hamount.trans hsince.amount.symm)⟩
  | _ => trivial

theorem Asked.ofCallback (h : Asked c c') (hx : x.ofCallback c) : x.ofCallback c' := by
  cases x with
  | finalising id ref =>
    obtain ⟨q, hq, hid, href, hverified, hused⟩ := hx
    have hused' := h.usedFor hused
    obtain ⟨t, rfl⟩ := h.core_eq
    exact ⟨q, hq, hid, href, hverified, hused'⟩
  | opening p =>
    obtain ⟨t, rfl⟩ := h.core_eq
    exact hx
  | handling p =>
    obtain ⟨t, rfl⟩ := h.core_eq
    exact hx
  | _ => trivial

theorem Verified.asked (hc : Verified c) (h : Asked c c') : Verified c' := by
  have hused {ref : Id} (hu : Used c.session ref) : Used c'.session ref := h.used hu
  obtain ⟨t, rfl⟩ := h.core_eq
  exact ⟨hc.topups, hc.once, fun p hp hsome ref href => hused (hc.used p hp hsome ref href)⟩

/-- A verified payment stays so. -/
theorem Change.verified_stays (h : Change ns c c') {id : Id}
    (hp : ∃ p ∈ c.payment.rows, p.id = id ∧ p.callbackVerifiedAt.isSome) :
    ∃ p ∈ c'.payment.rows, p.id = id ∧ p.callbackVerifiedAt.isSome := by
  obtain ⟨p, hp, hid, hsome⟩ := hp
  obtain ⟨p', hp', hbecomes⟩ := h.repaid.stays p hp
  have hsame := hbecomes.fields.1
  exact ⟨p', hp', hsame.trans hid, hbecomes.verified.1 hsome⟩

/-- The ledger row of a top-up comes with the verification of its payment. -/
theorem Change.topup_row (h : Change ns c c') :
    (∀ r ∈ c'.walletTransaction.rows, r.type = .topup → r ∈ c.walletTransaction.rows) ∧
        (OncePerTopup c.walletTransaction.rows → OncePerTopup c'.walletTransaction.rows) ∨
      ∃ p ref r, .handling p ∈ ns ∧ .finalising p.id ref ∈ ns ∧
        c'.walletTransaction.rows = c.walletTransaction.rows ++ [r] ∧ r.referenceId = some p.id ∧
        PaymentSet p.id .success c.payment c'.payment := by
  have other {r : WalletTransaction} {l l' : List WalletTransaction} (hrows : l' = l ++ [r])
      (hr : r.type ≠ .topup) : (∀ q ∈ l', q.type = .topup → q ∈ l) ∧ (OncePerTopup l → OncePerTopup l') := by
    subst hrows
    constructor
    · intro q hq htype
      rcases List.mem_append.mp hq with hq | hq
      · exact hq
      · obtain rfl := List.mem_singleton.mp hq
        exact absurd htype hr
    · intro honce
      refine List.pairwise_append.mpr ⟨honce, List.pairwise_singleton _ _, ?_⟩
      intro q hq r' hr' _ htype
      obtain rfl := List.mem_singleton.mp hr'
      exact absurd htype hr
  cases h with
  | credit p ref walletId x tp tw tl hhandling hfinalising _ _ hset _ hpost =>
    obtain ⟨⟨id, hrows⟩, -⟩ := hpost
    exact .inr ⟨p, ref, _, hhandling, hfinalising, hrows, rfl, hset⟩
  | payWallet userId bookingId walletId amount x p tp tw tl tb tr _ _ _ _ _ _ _ _ _ _ _ _ _ _ hpost
      _ =>
    obtain ⟨⟨id, hrows⟩, -⟩ := hpost
    exact .inl (other hrows (by simp))
  | refund p walletId x row tp tw tw' tl _ _ _ _ _ hpost _ _ _ =>
    obtain ⟨⟨id, hrows⟩, -⟩ := hpost
    exact .inl (other hrows (by simp))
  | _ => exact .inl ⟨fun r hr _ => hr, fun honce => honce⟩

theorem Verified.change (h : Verified c) (hns : ∀ x ∈ ns, x.ofCallback c) (hc : Change ns c c') :
    Verified c' := by
  have hsession := hc.session
  have htopups : ∀ r ∈ c.walletTransaction.rows, r.type = .topup → ∃ p ∈ c'.payment.rows,
      r.referenceId = some p.id ∧ p.callbackVerifiedAt.isSome := by
    intro r hr htype
    obtain ⟨p, hp, href, hsome⟩ := h.topups r hr htype
    obtain ⟨p', hp', hid, hsome'⟩ := hc.verified_stays ⟨p, hp, rfl, hsome⟩
    rw [← hid] at href
    exact ⟨p', hp', href, hsome'⟩
  have hused : ∀ p' ∈ c'.payment.rows, p'.callbackVerifiedAt.isSome → ∀ ref,
      p'.gatewayRefId = some ref → Used c'.session ref := by
    intro p' hp' hsome ref href
    rw [hsession]
    rcases hc.repaid.comes p' hp' with ⟨p, hp, hbecomes⟩ | ⟨-, hbegins⟩
    · -- A verified payment has not just been linked.
      have hback : p.gatewayRefId = some ref := by
        cases hbecomes with
        | same => exact href
        | linked q ref' hopening hid hopened =>
          obtain ⟨q₁, hq₁, hid₁, -, hnone⟩ := hns _ hopening
          obtain rfl := payment_eq hq₁ hp (hid₁.trans hid)
          rw [hnone] at hsome
          cases hsome
        | restated next p' hsettles hrestated =>
          rw [hrestated.1] at href
          exact href
      rcases hbecomes.verified.2 hsome with hbefore | ⟨ref', hmem⟩
      · exact h.used p hp hbefore ref hback
      · obtain ⟨q, hq, hid, hqref, -, hqused⟩ := hns _ hmem
        obtain rfl := payment_eq hq hp hid
        obtain rfl : ref' = ref := Option.some.inj (hqref.symm.trans hback)
        exact hqused.used
    · cases hbegins with
      | deposit b _ _ hnone _ => rw [hnone] at href; cases href
      | topup _ _ hnone _ => rw [hnone] at href; cases href
      | wallet b _ _ hnone _ => rw [hnone] at href; cases href
  rcases hc.topup_row with ⟨hback, honce⟩ | ⟨p, ref, r, hhandling, hfinalising, hrows, href, hset⟩
  · exact ⟨fun r hr htype => htopups r (hback r hr htype) htype, honce h.once, hused⟩
  · obtain ⟨q, hq, hid, -, hnone, -⟩ := hns _ hfinalising
    obtain ⟨q', hq', ⟨-, hrestated⟩ | ⟨hne, -⟩⟩ := hset.stays hq
    · refine ⟨fun r' hr' htype => ?_, ?_, hused⟩
      · rw [hrows] at hr'
        rcases List.mem_append.mp hr' with hr' | hr'
        · exact htopups r' hr' htype
        · obtain rfl := List.mem_singleton.mp hr'
          have hsome : q'.callbackVerifiedAt.isSome := by
            rw [hrestated.2]
            simp
          have hsame : q'.id = p.id := hrestated.fields.1.trans hid
          rw [← hsame] at href
          exact ⟨q', hq', href, hsome⟩
      · -- Any earlier row of this payment would be of a payment verified before.
        rw [hrows]
        refine List.pairwise_append.mpr ⟨h.once, List.pairwise_singleton _ _, ?_⟩
        intro r' hr' r'' hr'' htype _ hsame
        obtain rfl := List.mem_singleton.mp hr''
        obtain ⟨q₁, hq₁, hq₁ref, hsome⟩ := h.topups r' hr' htype
        rw [hsame, href] at hq₁ref
        obtain rfl := payment_eq hq hq₁ (hid.trans (Option.some.inj hq₁ref))
        rw [hnone] at hsome
        cases hsome
    · exact absurd hid hne

/-! ### What a callback does -/

/-- Two requests that verified one reference, or that opened one payment. -/
def rivalCallbacks (_ : Store) : Note → Note → Prop
  | .finalising _ ref, .finalising _ ref' => ref = ref'
  | .opening p, .opening q => p.id = q.id
  | _, _ => False

theorem meaning_ofCallback {r : Request} : Meaning (contract r.takes) (fun s => Verified s.core)
    (fun x s => x.ofCallback s.core) where
  grounds hs _ hheld hx := ofCallback_grounds hs hheld hx.2
  auto hs hns h := ⟨hs.asked h, fun x hx => Asked.ofCallback h (hns x hx)⟩
  commit hs hns h := hs.change hns h

theorem steady_ofCallback {r : Request} : Steady (contract r.takes) (fun s => Verified s.core)
    (fun x s => x.ofCallback s.core) rivalCallbacks where
  auto _ hx h := Asked.ofCallback h hx
  commit := by
    intro ns s s' x _ hns h hrival hx
    have hc : Change ns s.core s'.core := h
    cases x with
    | opening p =>
      obtain ⟨q, hq, hid, href, hnone⟩ := hx
      obtain ⟨q', hq', hbecomes⟩ := hc.repaid.stays q hq
      have hunverified : q'.callbackVerifiedAt = none := by
        by_contra hsome
        rcases hbecomes.verified.2 (Option.isSome_iff_ne_none.mpr hsome) with hbefore | ⟨ref, hmem⟩
        · rw [hnone] at hbefore
          cases hbefore
        · obtain ⟨q₁, hq₁, hid₁, href₁, -⟩ := hns _ hmem
          obtain rfl := payment_eq hq₁ hq hid₁
          rw [href] at href₁
          cases href₁
      refine ⟨q', hq', hbecomes.fields.1.trans hid, ?_, hunverified⟩
      cases hbecomes with
      | same => exact href
      | linked q₁ ref hopening hid₁ hopened => exact absurd (hid.symm.trans hid₁.symm) (hrival _ hopening)
      | restated next q' hsettles hrestated =>
        rw [hrestated.1]
        exact href
    | handling p =>
      obtain ⟨q, hq, hsince⟩ := hx
      obtain ⟨q', hq', hbecomes⟩ := hc.repaid.stays q hq
      exact ⟨q', hq', hsince.becomes hbecomes fun ref => hbecomes.keeps_ref hq hns⟩
    | finalising id ref =>
      obtain ⟨q, hq, hid, href, hnone, hused⟩ := hx
      obtain ⟨q', hq', hbecomes⟩ := hc.repaid.stays q hq
      obtain ⟨hid', -, -, -, hamount, -⟩ := hbecomes.fields
      refine ⟨q', hq', hid'.trans hid, hbecomes.keeps_ref hq hns href, ?_, ?_⟩
      · by_contra hsome
        rcases hbecomes.verified.2 (Option.isSome_iff_ne_none.mpr hsome) with hbefore | ⟨ref', hmem⟩
        · rw [hnone] at hbefore
          cases hbefore
        · obtain ⟨q₁, hq₁, hid₁, href₁, -⟩ := hns _ hmem
          obtain rfl := payment_eq hq₁ hq hid₁
          exact hrival _ hmem (Option.some.inj (href.symm.trans href₁))
      · rw [hc.session, hamount]
        exact hused
    | _ => trivial

/-- The changes that a callback makes. -/
inductive Answer (ns : List Note) (c : Core) : Core → Prop
  | quiet : Answer ns c c
  | fail (p : Payment) (t : Table Payment) : .handling p ∈ ns →
      PaymentSet p.id .failed c.payment t → Answer ns c { c with payment := t }
  | credit (p : Payment) (ref walletId : Id) (x : Money) (tp : Table Payment) (tw : Table Wallet)
      (tl : Table WalletTransaction) : .handling p ∈ ns → .finalising p.id ref ∈ ns →
      .balance p.userId walletId x ∈ ns → p.type = .walletTopup →
      PaymentSet p.id .success c.payment tp → WalletSet p.userId (x + p.amount) c.wallet tw →
      Posted walletId .topup p.amount (x + p.amount) p.id tw c.walletTransaction tl →
      Answer ns c { c with payment := tp, wallet := tw, walletTransaction := tl }
  | confirmPaid (p : Payment) (ref bookingId : Id) (tp : Table Payment) (tb : Table Booking)
      (tr : Table LoyaltyTransaction) : .handling p ∈ ns → .finalising p.id ref ∈ ns →
      p.type ≠ .walletTopup → p.bookingId = some bookingId → .paying bookingId ∈ ns →
      PaymentSet p.id .success c.payment tp → StatusSet bookingId .confirmed c.booking tb →
      Answer ns c { c with payment := tp, booking := tb, rewards := tr }
  | acceptOnly (p : Payment) (ref : Id) (tp : Table Payment) : .handling p ∈ ns →
      .finalising p.id ref ∈ ns → (p.type = .walletTopup → .walletless p.userId ∈ ns) →
      (∀ b, p.type ≠ .walletTopup → p.bookingId = some b → b ≠ 0 → .unpayable b ∈ ns) →
      PaymentSet p.id .success c.payment tp → Answer ns c { c with payment := tp }

/-- A note that a callback takes. -/
def Note.called (x : Note) : Prop :=
  ∃ gateway gatewayRefId, (Request.handleCallback gateway gatewayRefId).takes x

/-- Callbacks take no note of the other changes. -/
theorem Change.answer (h : Change ns c c') (hns : ∀ x ∈ ns, x.called) : Answer ns c c' := by
  have hno {x : Note} (hx : x ∈ ns)
      (h : ∀ gateway gatewayRefId, ¬ (Request.handleCallback gateway gatewayRefId).takes x) :
      False := by
    obtain ⟨gateway, gatewayRefId, htakes⟩ := hns x hx
    exact h gateway gatewayRefId htakes
  cases h with
  | quiet => exact .quiet
  | services t hx => exact (hno hx (by simp [Request.takes])).elim
  | profile u t hx => exact (hno hx (by simp [Request.takes])).elim
  | newUser u t hx => exact (hno hx (by simp [Request.takes])).elim
  | newWallet w t hx => exact (hno hx (by simp [Request.takes])).elim
  | book bs t hrows hbs _ =>
    cases bs with
    | nil =>
      have hsame : t = c.booking := by
        apply Table.ext
        rw [hrows, List.append_nil]
      rw [hsame]
      exact .quiet
    | cons b rest =>
      obtain ⟨-, -, -, -, hx⟩ := hbs b List.mem_cons_self
      exact (hno hx (by simp [Request.takes])).elim
  | move id branchId staffMemberId startTime endTime t hx => exact (hno hx (by simp [Request.takes])).elim
  | status id next t tr hx => exact (hno hx (by simp [Request.takes])).elim
  | release now t hx => exact (hno hx (by simp [Request.takes])).elim
  | openPayment p t _ _ _ _ _ hwhy =>
    rcases hwhy with ⟨b, -, -, hx⟩ | ⟨-, -, -, hx⟩
    · exact (hno hx (by simp [Request.takes])).elim
    · exact (hno hx (by simp [Request.takes, Request.user])).elim
  | link p ref t hx => exact (hno hx (by simp [Request.takes])).elim
  | fail p t hhandling ht => exact .fail p t hhandling ht
  | credit p ref walletId x tp tw tl hhandling hfinalising hbalance htype hset hwallet hpost =>
    exact .credit p ref walletId x tp tw tl hhandling hfinalising hbalance htype hset hwallet hpost
  | confirmPaid p ref bookingId tp tb tr hhandling hfinalising htype hbooking hpaying hset hconfirm =>
    exact .confirmPaid p ref bookingId tp tb tr hhandling hfinalising htype hbooking hpaying hset hconfirm
  | acceptOnly p ref tp hhandling hfinalising hwalletless hunpayable hset =>
    exact .acceptOnly p ref tp hhandling hfinalising hwalletless hunpayable hset
  | payWallet userId bookingId walletId amount x p tp tw tl tb tr hx =>
    exact (hno hx (by simp [Request.takes])).elim
  | refund p walletId x row tp tw tw' tl hx => exact (hno hx (by simp [Request.takes])).elim

end

/-! ### What a callback writes -/

/-- A commit of a callback does nothing to speak of, or what the one payment is good for whose reference it verified. -/
def Effects (H : Store → Prop) (ns : List Note) (s s' : Store) : Prop :=
  Idle s s' ∨ ∃ p ref, .handling p ∈ ns ∧ .finalising p.id ref ∈ ns ∧ Succeeds H p s s'

/-- The contract of a callback, which meets stores of `H` only. -/
def calling (H : Store → Prop) : Contract Env Store Note where
  env _ _ := True
  rely s s' := H s → H s'
  rely_refl _ := id
  rely_trans h h' hs := h' (h hs)
  note _ _ _ _ := True
  auto _ s s' := ∃ t, s' = { s with session := t }
  commit := Effects H
  read _ s := ⟨s.session, rfl⟩

section calling
variable {H : Store → Prop} {ns : List Note} {s₀ s : Store} {p : Payment} {w : Store → Except Err Store}
  {Q : Post Store Err Note Unit}

theorem Idle.refl (s : Store) : Idle s s := ⟨rfl, rfl, rfl, rfl, rfl⟩

theorem creditWallet_calling (hs : H s) (htype : p.type = .walletTopup) (hw : Pending (MarksSuccess p) w)
    (herr : ∀ e w ns s₁, Q (.error e) w ns s₁ s₁)
    (hok : ∀ w' ns' s₁ s₂, ns ⊆ ns' → Pending (Succeeds H p) w' → Q (.ok ()) (some w') ns' s₂ s₁) :
    wp (calling H) Q (PaymentService.creditWallet p) (some w) ns s₀ s := by
  refine (wp_bind _ _).mpr (wp_query_tx hw (fun g s₁ v h₁ _ hv w₁ hw₁ _ => ?_) fun _ _ _ => herr _ _ _ _)
  have hsame : (Model.get v : Table Wallet) = s₁.wallet := by
    obtain ⟨now, tp, rfl, -⟩ := hv
    rfl
  rw [wp_onOk_ok]
  split
  · rename_i hnone
    refine (wp_mark _).mpr ⟨trivial, hok _ _ _ _ (List.subset_cons_self _ _) (hw₁.mono fun s u hu => ⟨u, hu, ?_⟩)⟩
    refine .undelivered (fun _ => ⟨s₁, h₁ hs, fun wallet hmem => ?_⟩) fun h => absurd htype h
    simpa using findUnique_none hnone wallet (by rw [hsame]; exact hmem)
  · rename_i wallet hsome
    obtain ⟨hmem, huser⟩ := findUnique_some hsome
    rw [hsame] at hmem
    refine (wp_bind _ _).mpr ((wp_mark _).mpr ⟨trivial, ?_⟩)
    refine (wp_bind _ _).mpr (wp_tx hw₁ (fun g₂ s₂ v₂ a₂ v₂' _ _ _ _ w₂ hw₂ _ => ?_) fun _ _ _ => herr _ _ _ _)
    refine (wp_bind _ _).mpr (wp_tx hw₂ (fun g₃ s₃ v₃ a₃ v₃' _ _ _ _ w₃ hw₃ _ => ?_) fun _ _ _ => herr _ _ _ _)
    refine hok _ _ _ _ (List.subset_cons_self _ _) (hw₃.mono ?_)
    rintro s v ⟨v₂, row, ⟨u, a, hu, hupdate⟩, hcreate⟩
    rw [(update_ok hupdate).2] at hcreate
    obtain ⟨rfl, hput⟩ := create_ok hcreate
    obtain ⟨-, tl, htl, rfl⟩ := put_ok hput
    refine ⟨u, hu, .credited s₁ wallet _ tl htype (h₁ hs) hmem (beq_iff_eq.mp huser) ?_ ⟨_, Table.insert_rows htl⟩⟩
    refine List.map_congr_left fun r _ => ?_
    simp only [beq_iff_eq]

theorem confirmBooking_calling {bookingId : Id} (hs : H s) (htype : p.type ≠ .walletTopup)
    (hbooking : p.bookingId = some bookingId) (hw : Pending (MarksSuccess p) w)
    (herr : ∀ e w ns s₁, Q (.error e) w ns s₁ s₁)
    (hok : ∀ w' ns' s₁ s₂, ns ⊆ ns' → Pending (Succeeds H p) w' → Q (.ok ()) (some w') ns' s₂ s₁) :
    wp (calling H) Q (PaymentService.confirmBooking p bookingId) (some w) ns s₀ s := by
  refine (wp_bind _ _).mpr (wp_query_tx hw (fun g s₁ v h₁ _ hv w₁ hw₁ _ => ?_) fun _ _ _ => herr _ _ _ _)
  have hsame : (Model.get v : Table Booking) = s₁.booking := by
    obtain ⟨now, tp, rfl, -⟩ := hv
    rfl
  rw [wp_onOk_ok]
  split
  · rename_i hnone
    refine (wp_mark _).mpr ⟨trivial, hok _ _ _ _ (List.subset_cons_self _ _) (hw₁.mono fun s u hu => ⟨u, hu, ?_⟩)⟩
    refine .undelivered (fun h => absurd h htype) fun _ id _ hid => ⟨s₁, h₁ hs, fun b hb hsameId hpending => ?_⟩
    obtain rfl : bookingId = id := Option.some.inj (hbooking.symm.trans hid)
    have hfound : findUnique (fun r : Booking => r.id == bookingId) g v = some b := by
      refine findUnique_of_mem (by rw [hsame]; exact hb) (by simp [hsameId]) fun r hr => ?_
      simp [Indexed.clash, beq_iff_eq.mp hr, hsameId]
    simp [hfound, hpending] at hnone
  · rename_i b hsome
    obtain ⟨hfound, hpending⟩ := Option.filter_eq_some_iff.mp hsome
    obtain ⟨hmem, hid⟩ := findUnique_some hfound
    rw [hsame] at hmem
    obtain rfl : b.id = bookingId := beq_iff_eq.mp hid
    refine (wp_bind _ _).mpr ((wp_mark _).mpr ⟨trivial, ?_⟩)
    refine (wp_bind _ _).mpr (wp_tx hw₁ (fun g₂ s₂ v₂ a₂ v₂' h₂ _ _ _ w₂ hw₂ _ => ?_) fun _ _ _ => herr _ _ _ _)
    refine wp_awardPostPurchaseRewards (fun _ _ h => h) (fun _ _ _ _ => trivial) ?_ (h₂ (h₁ hs)) hw₂ herr
      fun w' ns' s₃ s₄ hns hw' => hok _ _ _ _ (fun x hx => hns (List.mem_cons_of_mem _ hx)) (hw'.mono ?_)
    · rintro s v ⟨u, a, ⟨now, tp, rfl, -⟩, hupdate⟩
      rw [(update_ok hupdate).2]
      exact ⟨rfl, rfl⟩
    · rintro s v ⟨_, ta, te, tr, ⟨u, a, hu, hupdate⟩, rfl, hawards⟩
      rw [(update_ok hupdate).2]
      refine ⟨u, hu, .confirmed s₁ b _ ta te tr htype hbooking (h₁ hs) hmem (by simpa using hpending) ?_ ?_⟩
      · refine List.map_congr_left fun r _ => ?_
        simp only [beq_iff_eq]
      · obtain ⟨now, tp, rfl, -⟩ := hu
        exact hawards

theorem settle_calling (hs : H s) (hw : Pending (MarksSuccess p) w) (herr : ∀ e w ns s₁, Q (.error e) w ns s₁ s₁)
    (hok : ∀ w' ns' s₁ s₂, ns ⊆ ns' → Pending (Succeeds H p) w' → Q (.ok ()) (some w') ns' s₂ s₁) :
    wp (calling H) Q (PaymentService.settle p) (some w) ns s₀ s := by
  unfold PaymentService.settle
  split
  · rename_i htype
    exact creditWallet_calling hs htype hw herr hok
  · rename_i htype
    split
    · rename_i bookingId hbooking
      exact confirmBooking_calling hs htype (truthyId_eq_some.mp hbooking).1 hw herr hok
    · rename_i hbooking
      refine hok _ _ _ _ (List.Subset.refl _) (hw.mono fun s u hu => ⟨u, hu, .undelivered (fun h => absurd h htype) ?_⟩)
      intro _ id hne hid
      simp [truthyId, hid, hne] at hbooking

/-- Asking the gateway changes its sessions only, which are not looked at elsewhere. -/
theorem handleCallback_calling (hs : H s) (hsession : ∀ s t, H s → H { s with session := t }) (gateway : GatewayName)
    (gatewayRefId : Option Id) :
    wp (calling H) anyway (PaymentService.handleCallback gateway gatewayRefId) none ns s₀ s := by
  refine (wp_bind _ _).mpr (wp_query (fun g s₁ h₁ => ?_) fun _ _ => trivial)
  refine (wp_bind _ _).mpr ((wp_orThrow _ _).mpr ⟨fun p _ => ?_, fun _ => trivial⟩)
  rw [wp_onOk_ok]
  split
  · trivial
  refine (wp_bind _ _).mpr ((wp_mark _).mpr ⟨trivial, ?_⟩)
  have hverify : Within (fun s s' : Store => ∃ t, s' = { s with session := t }) (fun _ => True) false
      (MockPaymentGateway.verify gatewayRefId p.amount) := verify_within (fun s => ⟨s.session, rfl⟩) (fun _ t => ⟨t, rfl⟩) _ _
  refine (wp_bind _ _).mpr (hverify.wp_none_keeps (I := H) (fun _ _ _ h => h) (fun _ _ _ _ _ => trivial) (fun _ _ h => h)
    (fun s _ h hs => h.elim fun t ht => ht ▸ hsession s t hs) (fun v ns₁ s₀ s₂ hs₂ hns₁ => ?_) (h₁ hs))
  have hhandling : .handling p ∈ ns₁ := hns₁ List.mem_cons_self
  cases v with
  | error e => trivial
  | ok v =>
    rw [wp_onOk_ok]
    split
    · rename_i ref _ _
      refine (wp_bind _ _).mpr ((wp_mark _).mpr ⟨trivial, ?_⟩)
      refine wp_transaction (fun s₃ h₃ => ?_) fun _ _ => trivial
      have hbegin : Pending (fun s v : Store => v = s) (Except.ok : Store → Except Err Store) := by
        rintro s v ⟨⟩
        rfl
      refine (wp_bind _ _).mpr (wp_look_tx hbegin (fun g₄ s₄ h₄ w₄ hw₄ => ?_) fun _ _ _ => trivial)
      refine (wp_bind _ _).mpr (wp_tx hw₄ (fun g₅ s₅ v₅ a₅ v₅' h₅ _ _ _ w₅ hw₅ _ => ?_) fun _ _ _ => trivial)
      have hmarked : Pending (MarksSuccess p) w₅ := by
        refine hw₅.mono ?_
        rintro s _ ⟨v, a, rfl, hupdate⟩
        rw [(update_ok hupdate).2]
        refine ⟨g₄.now, _, rfl, List.map_congr_left fun r _ => ?_⟩
        simp only [beq_iff_eq]
      refine (wp_bind _ _).mpr (settle_calling (h₅ (h₄ (h₃ hs₂))) hmarked (fun _ _ _ _ => trivial)
        fun w₆ ns₆ s₆ s₇ hns₆ hw₆ => ?_)
      intro g₈ s₈ s₉ _ _ hs₉
      exact ⟨.inr ⟨p, ref, hns₆ (List.mem_cons_of_mem _ hhandling), hns₆ List.mem_cons_self, hw₆ s₈ s₉ hs₉⟩, trivial⟩
    · refine (wp_bind _ _).mpr (wp_prisma (fun g₃ s₃ a s₄ _ _ h => ⟨.inl ?_, trivial⟩) fun _ _ _ _ _ _ => trivial)
      rw [(update_ok h).2]
      exact ⟨rfl, rfl, rfl, rfl, rfl⟩

variable {H' : Store → Prop} {q : Payment} {s' : Store}

/-- What is worked out from a store has nothing to do with the gateway's sessions. -/
theorem TakesEffect.mono (hH : ∀ s, H s → ∃ s' t, H' s' ∧ s = { s' with session := t }) (h : TakesEffect H p s s') :
    TakesEffect H' p s s' := by
  cases h with
  | undelivered hwallet hbooking =>
    refine .undelivered (fun htype => ?_) fun htype id hne hid => ?_
    · obtain ⟨r, hr, hless⟩ := hwallet htype
      obtain ⟨r', t, hr', rfl⟩ := hH r hr
      exact ⟨r', hr', hless⟩
    · obtain ⟨r, hr, hnot⟩ := hbooking htype id hne hid
      obtain ⟨r', t, hr', rfl⟩ := hH r hr
      exact ⟨r', hr', hnot⟩
  | credited r wallet tw tl htype hr hmem huser hwallets hledger =>
    obtain ⟨r', t, hr', rfl⟩ := hH r hr
    exact .credited r' wallet tw tl htype hr' hmem huser hwallets hledger
  | confirmed r b tb ta te tr htype hbooking hr hmem hpending hbookings hawards =>
    obtain ⟨r', t, hr', rfl⟩ := hH r hr
    refine .confirmed r' b tb ta te tr htype hbooking hr' hmem hpending hbookings (hawards.mono fun s hs => ?_)
    obtain ⟨s', t, hs', rfl⟩ := hH s hs
    exact ⟨s', hs', rfl, rfl⟩

theorem TakesEffect.since (h : TakesEffect H p s s') (hq : p.Since q) : TakesEffect H q s s' := by
  obtain ⟨hid, hbookingId, huserId, htype', hamount, -⟩ := hq
  cases h with
  | undelivered hwallet hbooking =>
    refine .undelivered ?_ ?_
    · rwa [htype', huserId]
    · rwa [htype', hbookingId]
  | credited r wallet tw tl htype hr hmem huser hwallets hledger =>
    refine .credited r wallet tw tl (htype'.trans htype) hr hmem (huser.trans huserId.symm) ?_ ?_
    · rw [huserId, hamount]
      exact hwallets
    · rw [hid, hamount]
      exact hledger
  | confirmed r b tb ta te tr htype hbooking hr hmem hpending hbookings hawards =>
    refine .confirmed r b tb ta te tr ?_ (hbookingId.trans hbooking) hr hmem hpending hbookings ?_
    · rwa [htype']
    · rwa [huserId]

theorem Succeeds.since (h : Succeeds H p s s') (hq : p.Since q) : Succeeds H q s s' := by
  obtain ⟨u, ⟨now, tp, rfl, hrows⟩, heffect⟩ := h
  refine ⟨_, ⟨now, tp, rfl, ?_⟩, heffect.since hq⟩
  rw [hq.id]
  exact hrows

theorem TakesEffect.payment (h : TakesEffect H p s s') : s'.payment = s.payment := by cases h <;> rfl

/-- The payment that succeeds is verified from then on. -/
theorem Succeeds.verified (h : Succeeds H p s s') (hp : ∃ q ∈ s.payment.rows, q.id = p.id) : VerifiedIn p.id s' := by
  obtain ⟨_, ⟨now, tp, rfl, hrows⟩, heffect⟩ := h
  obtain ⟨q, hq, hid⟩ := hp
  refine ⟨{ q with status := .success, callbackVerifiedAt := some now }, ?_, hid, rfl⟩
  rw [heffect.payment]
  change _ ∈ tp.rows
  rw [hrows]
  exact List.mem_map.mpr ⟨q, hq, if_pos hid⟩

end calling

/-! ### Runs -/

section
variable {ι : Type} [DecidableEq ι] {r : ι → Request}
  {allowed : Config ι Env Store Err Note Unit → ι → Env → Prop} {s₀ : Store}
  {conf : Config ι Env Store Err Note Unit} {past : List (ι × Store)}

omit [DecidableEq ι] in
/-- A payment is opened by one request. -/
theorem opening_licence (id : Id) : Licence (fun i => contract (r i).takes)
    (fun x => ∃ p, x = .opening p ∧ p.id = id) (fun s => ∃ p ∈ s.payment.rows, p.id = id) where
  taken := by
    rintro i held x s s' ⟨p, rfl, rfl⟩ ⟨-, hp, hnew, -⟩
    refine ⟨?_, p, hp, rfl⟩
    rintro ⟨q, hq, hid⟩
    exact hnew q hq hid
  auto := by
    intro i ns s s' h hspent
    obtain ⟨t, ht⟩ := Asked.core_eq h
    have hpayment : s'.payment = s.payment := congrArg Core.payment ht
    rw [hpayment]
    exact hspent
  commit := by
    rintro i ns s s' h ⟨p, hp, hid⟩
    have hc : Change ns s.core s'.core := h
    obtain ⟨p', hp', hbecomes⟩ := hc.repaid.stays p hp
    exact ⟨p', hp', hbecomes.fields.1.trans hid⟩

theorem Run.not_rivalCallbacks (hrun : Run allowed (.start (fun i => (r i).serve) s₀) conf past)
    (i : ι) : ¬ conf.Overtakes rivalCallbacks i := by
  rintro ⟨-, j, hij, -, x, hx, y, hy, hrival⟩
  cases x with
  | finalising id ref =>
    cases y with
    | finalising id' ref' => exact Run.not_sameRef hrun hij hx hy hrival
    | _ => exact hrival
  | opening p =>
    cases y with
    | opening q =>
      have hone := (Run.licence (Request.concurrent r) (opening_licence (r := r) p.id) hrun).2
      exact hij (hone j i _ _ ⟨p, rfl, rfl⟩ ⟨q, rfl, Eq.symm hrival⟩ hx hy)
    | _ => exact hrival
  | _ => exact hrival

theorem Run.meant_ofCallback (h₀ : Verified s₀.core)
    (hrun : Run allowed (.start (fun i => (r i).serve) s₀) conf past) :
    Meant (fun s => Verified s.core) (fun x s => x.ofCallback s.core) conf := by
  apply Run.meant (Request.concurrent r) (fun i => meaning_ofCallback) h₀ ?_ hrun
  intro c past i g hc hmeant ha
  exact Run.undisturbed (Request.concurrent r) (fun _ => steady_ofCallback) hc hmeant ha
    (Run.not_rivalCallbacks hc i)

/-- What a callback does at a step, with the stores it has met. -/
theorem Run.callback_effects (hrun : Run allowed (.start (fun i => (r i).serve) s₀) conf past) {i : ι} {g : Env}
    {gateway : GatewayName} {gatewayRefId : Option Id} (hr : r i = .handleCallback gateway gatewayRefId) :
    Idle conf.store (conf.step i g).store ∨ (conf.thread i).result = none ∧ ∃ p ref, .handling p ∈ (conf.thread i).notes ∧
      .finalising p.id ref ∈ (conf.thread i).notes ∧
        Succeeds (· ∈ conf.store :: past.map Prod.snd) p conf.store (conf.step i g).store := by
  -- Asking the gateway leads to stores that differ in its sessions from those of the run.
  let H (s : Store) : Prop := ∃ r t, r ∈ conf.store :: past.map Prod.snd ∧ s = { r with session := t }
  have howes : wp (calling H) anyway (r i).serve none [] s₀ s₀ := by
    rw [hr]
    refine (wp_bind _ _).mpr (wp_mono (fun r _ _ _ _ _ => by cases r <;> trivial) (handleCallback_calling
      ⟨s₀, s₀.session, hrun.start_mem, rfl⟩ ?_ gateway gatewayRefId))
    rintro _ t ⟨r, t', hr, rfl⟩
    exact ⟨r, t, hr, rfl⟩
  obtain ⟨s, s', hobeys, hrely⟩ := Run.relied (p := fun i => (r i).serve) (i := i) (fun _ _ => trivial) howes hrun
    fun x hx _ => ⟨x.2.2, x.2.2.session, steps_after hx, rfl⟩
  rcases hobeys.step_store (g := g) trivial hrely with ⟨⟨f, k, hf, hprog⟩, hstore⟩ | ⟨t, hauto⟩
  · rcases hstore with hcommit | hsame
    · refine hcommit.imp_right ?_
      rintro ⟨p, ref, hhandling, hfinalising, u, hmarks, heffect⟩
      exact ⟨by simp [Thread.result, hprog], p, ref, hhandling, hfinalising, u, hmarks,
        heffect.mono fun s ⟨r, t, hr, hs⟩ => ⟨r, t, hr, hs⟩⟩
    · rw [Config.step_store, hsame]
      exact .inl (.refl _)
  · rw [Config.step_store, hauto]
    exact .inl ⟨rfl, rfl, rfl, rfl, rfl⟩

/-- A callback's step is warranted by the steps before it. -/
theorem Run.callback_step (h₀ : Verified s₀.core)
    (hrun : Run allowed (.start (fun i => (r i).serve) s₀) conf past) {i : ι} {g : Env} {gateway : GatewayName}
    {gatewayRefId : Option Id} (hr : r i = .handleCallback gateway gatewayRefId) :
    Warranted (steps past conf.store) i gatewayRefId conf.store (conf.step i g).store := by
  unfold Warranted
  rw [steps_map]
  obtain ⟨-, hmeans⟩ := Run.meant_ofCallback h₀ hrun
  refine (Run.callback_effects (g := g) hrun hr).imp_right ?_
  rintro ⟨hres, p, ref, hhandling, hfinalising, hsucceeds⟩
  have htakes : (Request.handleCallback gateway gatewayRefId).takes (.finalising p.id ref) := by
    rw [← hr]
    exact Run.noted (Request.concurrent r) (fun h => Request.takes_of_noted h) hrun i _ hfinalising
  obtain ⟨gateway', hsame⟩ := htakes
  obtain ⟨-, href⟩ := Request.handleCallback.inj hsame
  obtain ⟨q, hq, hsince⟩ := hmeans i hres _ hhandling
  obtain ⟨q', hq', hid, hqref, hnone, hused⟩ := hmeans i hres _ hfinalising
  obtain rfl := payment_eq hq hq' (hsince.id.trans hid.symm)
  have hsucceeds := hsucceeds.since hsince
  refine ⟨q, hq, ref, href, hqref, ⟨?_, hsucceeds.verified ⟨q, hq, rfl⟩⟩, hsucceeds, hused, ?_⟩
  · rintro ⟨q₁, hq₁, hid₁, hsome⟩
    obtain rfl := payment_eq hq₁ hq hid₁
    rw [hnone] at hsome
    cases hsome
  · exact Run.licence_step (Request.concurrent r) (verified_licence (r := r) ref) hrun ⟨p.id, rfl⟩ hfinalising

/-- Whatever requests run at the same time, a payment takes effect at most once, in a step of
the request that had its reference verified for its amount. -/
theorem effect_at_most_once (hpayment : s₀.payment.rows = [])
    (hledger : s₀.walletTransaction.rows = [])
    (hrun : Run allowed (.start (fun i => (r i).serve) s₀) conf past) :
    OncePerTopup conf.store.walletTransaction.rows ∧
    (∀ id, (steps past conf.store).Pairwise fun x y =>
      ¬ (Verifies id x.2.1 x.2.2 ∧ Verifies id y.2.1 y.2.2)) ∧
    ∀ later x earlier, steps past conf.store = later ++ x :: earlier → ∀ gateway gatewayRefId,
      r x.1 = .handleCallback gateway gatewayRefId → Warranted earlier x.1 gatewayRefId x.2.1 x.2.2 := by
  have h₀ : Verified s₀.core := by
    constructor <;> simp [Store.core, OncePerTopup, hpayment, hledger]
  obtain ⟨hverified, -⟩ := Run.meant_ofCallback h₀ hrun
  have hkeep : ∀ x ∈ steps past conf.store, ∀ id, VerifiedIn id x.2.1 → VerifiedIn id x.2.2 := by
    apply Run.steps_forall (G := fun _ s s' => ∀ id, VerifiedIn id s → VerifiedIn id s') ?_ hrun
    intro c past i g hc ha id hid
    rcases Run.step_store (Request.concurrent r) hc ha with ⟨-, hcommit⟩ | hauto
    · exact Change.verified_stays hcommit hid
    · obtain ⟨t, ht⟩ := Asked.core_eq hauto
      have hsame : (c.step i g).store.payment = c.store.payment := congrArg Core.payment ht
      rw [VerifiedIn, hsame]
      exact hid
  refine ⟨hverified.once, fun id => steps_once fun x hx => hkeep x hx id, fun later x earlier h => ?_⟩
  exact Run.steps_since (G := fun l i s s' => ∀ gateway gatewayRefId,
    r i = .handleCallback gateway gatewayRefId → Warranted l i gatewayRefId s s')
    (fun hc _ _ _ hr => Run.callback_step h₀ hc hr) hrun h

/-- A user whom another one has referred has a wallet and a pending booking. -/
def referredShop : Store := { shop with
  user := ⟨[{ id := 1, phone := "09120000000", passwordHash := ⟨""⟩, fullName := "" },
    { id := 2, phone := "09190000001", passwordHash := ⟨""⟩, fullName := "" }], by decide⟩
  wallet := .single { id := 9, userId := 1 }
  loyaltyAccount := .single { id := 8, userId := 1, points := 950 }
  referral := .single { id := 7, referrerId := 2, refereeId := 1 }
  booking := .single {
    id := 6, userId := 1, businessId := 1, branchId := 1, serviceId := 1, staffMemberId := none
    startTime := 0, endTime := 30 * minute, status := .pending, priceSnapshot := 60000000, depositRequired := 500000
    cancellationPolicySnapshot := defaultCancellationPolicy } }

/-- A top-up and a deposit, and two callbacks of each. -/
def callbacksTwice (i : Fin 6) : Request :=
  match i with
  | 0 => .topup 1 .smallest
  | 1 => .initiate 1 { bookingId := 6, method := .gateway }
  | 2 | 3 => .handleCallback .mock (some 3)
  | 4 | 5 => .handleCallback .mock (some 4)

/-- All callbacks look their payment up before any of them has it verified. The deposit is about to be committed. -/
def lookedUpTwice : List (Fin 6 × Env) :=
  List.replicate 4 (0, .of 0 2) ++ List.replicate 6 (1, .of 0 3) ++
    [(2, .of 0 4), (3, .of 0 4), (4, .of 0 4), (5, .of 0 4), (2, .of 0 4), (4, .of 0 4)] ++
    List.replicate 2 (3, .of 0 4) ++ List.replicate 2 (5, .of 0 4) ++ List.replicate 7 (2, .of 0 4) ++
    (List.range 17).map fun n => (4, .of 0 (10 + n))

theorem effect_at_most_once_both : ∃ conf before past, Run (fun _ _ _ => True)
      (.start (fun i => (callbacksTwice i).serve) referredShop) conf ((4, before) :: past) ∧
    (∀ i, (conf.thread i).result.isSome) ∧ conf.store.wallet.rows.map Wallet.balance = [1000000] ∧
    conf.store.booking.rows.map Booking.status = [.confirmed] ∧
    conf.store.loyaltyAccount.rows.map LoyaltyAccount.points = [1110, 100] ∧
    (∀ id, (steps ((4, before) :: past) conf.store).Pairwise fun x y =>
      ¬ (Verifies id x.2.1 x.2.2 ∧ Verifies id y.2.1 y.2.2)) ∧
    ∃ p ∈ before.payment.rows, p.gatewayRefId = some 4 ∧
      Succeeds (· ∈ before :: past.map Prod.snd) p before conf.store := by
  obtain ⟨past, hbefore⟩ := Run.follow .refl (Config.admits_all
    (.start (fun i => (callbacksTwice i).serve) referredShop) lookedUpTwice)
  have hrun := hbefore.step (i := 4) (g := .of 0 27) trivial
  obtain ⟨-, honce, heffects⟩ := effect_at_most_once rfl rfl hrun
  refine ⟨_, _, past, hrun, by decide +kernel, by decide +kernel, by decide +kernel, by decide +kernel, honce, ?_⟩
  rcases heffects [] _ _ rfl .mock (some 4) rfl with hidle | ⟨p, hp, ref, href, hpref, -, hsucceeds, -⟩
  · exact absurd (congrArg (fun t => t.rows.map Booking.status) hidle.booking) (by decide +kernel)
  · rw [steps_map] at hsucceeds
    exact ⟨p, hp, hpref.trans href.symm, hsucceeds⟩

end
end BookingPlatform
