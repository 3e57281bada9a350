import BookingPlatform.BookingTable
import BookingPlatform.Conservation
import BookingPlatform.Payments
import BookingPlatform.Wallets

/-! What an accepted payment is good for, over serial runs in which any call may fail. -/
namespace BookingPlatform
open Async Data

/-- The payer's wallet is credited, with one ledger row. -/
def Credited (c c' : Core) (p : Payment) : Prop :=
  ∃ w ∈ c.wallet.rows, ∃ w' ∈ c'.wallet.rows, w.userId = p.userId ∧ w'.id = w.id ∧
    w'.balance = w.balance + p.amount ∧ ∃ row ∈ c'.walletTransaction.rows,
      c'.walletTransaction.rows = c.walletTransaction.rows ++ [row] ∧ row.walletId = w.id ∧
        row.type = .topup ∧ row.amount = p.amount ∧ row.referenceId = some p.id

/-- The payment's booking goes from PENDING to CONFIRMED. -/
def Confirmed (c c' : Core) (p : Payment) : Prop :=
  ∃ b ∈ c.booking.rows, ∃ b' ∈ c'.booking.rows, p.bookingId = some b.id ∧ b'.id = b.id ∧
    b.status = .pending ∧ b'.status = .confirmed

/-- A payment that becomes SUCCESS is delivered at once. -/
def Delivers (c c' : Core) : Prop :=
  ∀ p ∈ c.payment.rows, ∀ p' ∈ c'.payment.rows, p'.id = p.id → p.status ≠ .success →
    p'.status = .success → Credited c c' p' ∨ Confirmed c c' p'

def Payment.paid (p : Payment) : Prop := p.type = .deposit ∧ p.status = .success

/-- No booking is paid by two successful deposits. -/
def PaidOnce (t : Table Payment) : Prop :=
  ∀ p ∈ t.rows, ∀ q ∈ t.rows, p.paid → q.paid → p.bookingId = q.bookingId → p = q

/-- There is a wallet to credit, or a booking to confirm. -/
def Deliverable (c : Core) (p : Payment) : Prop :=
  if p.type = .walletTopup then ∃ w ∈ c.wallet.rows, w.userId = p.userId
  else ∃ b ∈ c.booking.rows, p.bookingId = some b.id ∧ b.status = .pending

/-- The payment that was looked up as INITIATED and whose reference was then verified. -/
def Note.accepted : Note → Note → Option Payment
  | .handling p, .finalising id _ => if id = p.id then some p else none
  | _, _ => none

/-- Whatever payment the request has had verified can be delivered. -/
def OnlyDeliverable (ns : List Note) (c : Core) : Prop :=
  ∀ x ∈ ns, ∀ y ∈ ns, ∀ p ∈ x.accepted y, Deliverable c p

instance {c : Core} {p : Payment} : Decidable (Deliverable c p) :=
  inferInstanceAs (Decidable (if p.type = .walletTopup then ∃ w ∈ c.wallet.rows, w.userId = p.userId
    else ∃ b ∈ c.booking.rows, p.bookingId = some b.id ∧ b.status = .pending))

instance {c c' : Core} {p : Payment} : Decidable (Credited c c' p) :=
  inferInstanceAs (Decidable (∃ w ∈ c.wallet.rows, ∃ w' ∈ c'.wallet.rows, w.userId = p.userId ∧
    w'.id = w.id ∧ w'.balance = w.balance + p.amount ∧ ∃ row ∈ c'.walletTransaction.rows,
      c'.walletTransaction.rows = c.walletTransaction.rows ++ [row] ∧ row.walletId = w.id ∧
        row.type = .topup ∧ row.amount = p.amount ∧ row.referenceId = some p.id))

instance {c c' : Core} {p : Payment} : Decidable (Confirmed c c' p) :=
  inferInstanceAs (Decidable (∃ b ∈ c.booking.rows, ∃ b' ∈ c'.booking.rows,
    p.bookingId = some b.id ∧ b'.id = b.id ∧ b.status = .pending ∧ b'.status = .confirmed))

instance {c c' : Core} : Decidable (Delivers c c') :=
  inferInstanceAs (Decidable (∀ p ∈ c.payment.rows, ∀ p' ∈ c'.payment.rows, p'.id = p.id →
    p.status ≠ .success → p'.status = .success → Credited c c' p' ∨ Confirmed c c' p'))

instance {p : Payment} : Decidable p.paid := inferInstanceAs (Decidable (_ ∧ _))

instance {t : Table Payment} : Decidable (PaidOnce t) :=
  inferInstanceAs (Decidable (∀ p ∈ t.rows, ∀ q ∈ t.rows, p.paid → q.paid →
    p.bookingId = q.bookingId → p = q))

instance {ns : List Note} {c : Core} : Decidable (OnlyDeliverable ns c) :=
  inferInstanceAs (Decidable (∀ x ∈ ns, ∀ y ∈ ns, ∀ p ∈ x.accepted y, Deliverable c p))

section
variable {c c' : Core} {ns : List Note} {p p' q : Payment} {t t' : Table Payment}

theorem OnlyDeliverable.of (h : OnlyDeliverable ns c) {ref : Id} (hp : .handling p ∈ ns)
    (href : .finalising p.id ref ∈ ns) : Deliverable c p :=
  h _ hp _ href p (by simp [Note.accepted])

/-- Every successful payment was one before, or is the one that is delivered now. -/
def Accepts (c c' : Core) (id : Id) (p' : Payment) : Prop :=
  (∃ p ∈ c.payment.rows, p.id = p'.id ∧ p.type = p'.type ∧ p.bookingId = p'.bookingId ∧
      p.status = .success) ∨
    p'.id = id ∧ if p'.type = .walletTopup then Credited c c' p' else Confirmed c c' p'

theorem Accepts.old {id : Id} (h : p ∈ c.payment.rows) (hs : p.status = .success) :
    Accepts c c' id p :=
  .inl ⟨p, h, rfl, rfl, rfl, hs⟩

theorem PaymentSet.accepts {next : PaymentStatus} {id : Id} (h : PaymentSet p.id next c.payment t')
    (hp : p ∈ c.payment.rows) (hp' : p' ∈ t'.rows) (hs : p'.status = .success)
    (hnew : next = .success → Payment.Restated .success p p' → Accepts c c' id p') :
    Accepts c c' id p' := by
  obtain ⟨q, hq, ⟨hid, hrestated⟩ | ⟨-, rfl⟩⟩ := h.mem_iff hp'
  · obtain rfl := payment_eq hq hp hid
    obtain ⟨-, -, -, -, hstatus⟩ := hrestated.fields
    obtain rfl : next = .success := hstatus.symm.trans hs
    exact hnew rfl hrestated
  · exact .old hq hs

theorem accepts_insert {id : Id} (ht : c.payment.insert p = some t') (hp' : p' ∈ t'.rows)
    (hs : p'.status = .success) (hnew : p.status = .success → Accepts c c' id p) :
    Accepts c c' id p' := by
  rw [Table.insert_rows ht] at hp'
  rcases List.mem_append.mp hp' with hp' | hp'
  · exact .old hp' hs
  · obtain rfl := List.mem_singleton.mp hp'
    exact hnew hs

/-- What a change makes of the successful payments when only deliverable ones are accepted. -/
theorem Change.accepts (h : Change ns c c') (hns : ∀ x ∈ ns, x.stands c)
    (hids : ∀ b ∈ c.booking.rows, b.id ≠ 0) (hdeliverable : OnlyDeliverable ns c) :
    ∃ id, ∀ p' ∈ c'.payment.rows, p'.status = .success → Accepts c c' id p' := by
  cases h with
  | openPayment p t ht hstatus _ _ _ _ =>
    exact ⟨0, fun p' hp' hs => accepts_insert ht hp' hs fun h => by simp [hstatus] at h⟩
  | link p ref t _ _ ht =>
    obtain ⟨hf, rfl⟩ := ht
    refine ⟨0, fun p' hp' hs => ?_⟩
    obtain ⟨q, hq, rfl⟩ := (Table.mem_update hf).mp hp'
    refine .inl ⟨q, hq, ?_⟩
    by_cases hid : q.id == p.id <;> simp_all
  | fail p t hhandling ht =>
    refine ⟨0, fun p' hp' hs => ht.accepts (hns _ hhandling).1 hp' hs fun h => ?_⟩
    simp at h
  | credit p ref walletId x tp tw tl hhandling _ hbalance htype hset hwallet hpost =>
    refine ⟨p.id, fun p' hp' hs => hset.accepts (hns _ hhandling).1 hp' hs fun _ hrestated => ?_⟩
    obtain ⟨hid, hamount, htype', -, -⟩ := hrestated.fields
    obtain ⟨w, hw, hu, rfl, rfl⟩ := hwallet.row (hns _ hbalance) hpost.2
    obtain ⟨⟨k, hrows⟩, -⟩ := hpost
    have huser : p'.userId = p.userId := by rw [hrestated.1]
    refine .inr ⟨hid, ?_⟩
    rw [if_pos (htype'.trans htype)]
    refine ⟨w, hw, { w with balance := w.balance + p.amount }, ?_, hu.trans huser.symm, rfl,
      by rw [hamount], _, by simp [hrows], hrows, rfl, rfl, hamount.symm, by rw [hid]⟩
    exact hwallet.mem_iff.mpr ⟨w, hw, by simp [hu]⟩
  | confirmPaid p ref bookingId tp tb tr hhandling _ htype hbooking hpaying hset hconfirm =>
    refine ⟨p.id, fun p' hp' hs => hset.accepts (hns _ hhandling).1 hp' hs fun _ hrestated => ?_⟩
    obtain ⟨hid, -, htype', -, -⟩ := hrestated.fields
    obtain ⟨b, hb, rfl, hpending⟩ := hns _ hpaying
    obtain ⟨b', hb', hid', hconfirmed⟩ := hconfirm.confirms hb
    have hbooking' : p'.bookingId = p.bookingId := by rw [hrestated.1]
    refine .inr ⟨hid, ?_⟩
    rw [if_neg (by rw [htype']; exact htype)]
    exact ⟨b, hb, b', hb', hbooking'.trans hbooking, hid', hpending, hconfirmed⟩
  | acceptOnly p ref tp hhandling hfinalising hwalletless hunpayable hset =>
    -- There is nothing to deliver, so the payment is not a deliverable one.
    exfalso
    have hp := hdeliverable.of hhandling hfinalising
    unfold Deliverable at hp
    split at hp
    · rename_i htype
      obtain ⟨w, hw, hu⟩ := hp
      exact hns _ (hwalletless htype) w hw hu
    · rename_i htype
      obtain ⟨b, hb, hbooking, hpending⟩ := hp
      exact hns _ (hunpayable b.id htype hbooking (hids b hb)) b hb rfl hpending
  | payWallet userId bookingId walletId amount x p tp tw tl tb tr _ hpaying _ _ ht hbooking _ htype
      _ _ _ _ _ _ _ hconfirm =>
    refine ⟨p.id, fun p' hp' hs => accepts_insert ht hp' hs fun _ => .inr ⟨rfl, ?_⟩⟩
    obtain ⟨b, hb, rfl, hpending⟩ := hns _ hpaying
    obtain ⟨b', hb', hid', hconfirmed⟩ := hconfirm.confirms hb
    rw [if_neg (by simp [htype])]
    exact ⟨b, hb, b', hb', hbooking, hid', hpending, hconfirmed⟩
  | refund p walletId x row tp tw tw' tl hrefunding _ hset _ _ _ _ _ _ =>
    refine ⟨0, fun p' hp' hs => hset.accepts (hns _ hrefunding).1 hp' hs fun h => ?_⟩
    simp at h
  | _ => exact ⟨0, fun p' hp' hs => .old hp' hs⟩

/-- A deposit belongs to a booking, and a paid one to a booking past PENDING. -/
structure Paid (c : Core) : Prop where
  ids : ∀ b ∈ c.booking.rows, b.id ≠ 0
  bookings : ∀ p ∈ c.payment.rows, p.type = .deposit → ∃ b ∈ c.booking.rows, p.bookingId = some b.id
  past : ∀ p ∈ c.payment.rows, p.paid → ∀ b ∈ c.booking.rows, p.bookingId = some b.id →
    b.status ≠ .hold ∧ b.status ≠ .pending
  once : PaidOnce c.payment

theorem Paid.change (h : Paid c) (hns : ∀ x ∈ ns, x.stands c) (hdeliverable : OnlyDeliverable ns c)
    (hc : Change ns c c') : Paid c' := by
  have hevolved := (hc.rebooked hns).evolved
  obtain ⟨id, haccepts⟩ := hc.accepts hns h.ids hdeliverable
  have hbooking {p' : Payment} (hp' : p' ∈ c'.payment.rows) (hdeposit : p'.type = .deposit) :
      ∃ b ∈ c.booking.rows, p'.bookingId = some b.id := by
    rcases hc.repaid.comes p' hp' with ⟨p, hp, hbecomes⟩ | ⟨-, hbegins⟩
    · obtain ⟨-, hbooking, -, htype, -⟩ := hbecomes.fields
      rw [hbooking]
      exact h.bookings p hp (htype.symm.trans hdeposit)
    · cases hbegins with
      | deposit b _ _ _ _ _ hb hdue =>
        obtain ⟨-, r, hr, rfl, -⟩ := hns _ hdue
        exact ⟨r, hr, hb⟩
      | topup _ _ _ _ htype => simp [htype] at hdeposit
      | wallet b _ _ _ _ _ hb hdue _ =>
        obtain ⟨-, r, hr, rfl, -⟩ := hns _ hdue
        exact ⟨r, hr, hb⟩
  -- A deposit that was paid before belongs to a booking that was past PENDING before.
  have hpast {p p' : Payment} (hp : p ∈ c.payment.rows) (htype : p.type = p'.type)
      (hb : p.bookingId = p'.bookingId) (hs : p.status = .success) (hpaid : p'.paid) {b : Booking}
      (hmem : b ∈ c.booking.rows) (hid : p'.bookingId = some b.id) :
      b.status ≠ .hold ∧ b.status ≠ .pending :=
    h.past p hp ⟨htype.trans hpaid.1, hs⟩ b hmem (hb.trans hid)
  have hconfirmed {p' : Payment} (hpaid : p'.paid)
      (hd : if p'.type = .walletTopup then Credited c c' p' else Confirmed c c' p') :
      Confirmed c c' p' := by
    simpa [hpaid.1] using hd
  constructor
  · intro b' hb'
    rcases hevolved.comes b' hb' with ⟨b, hb, hid, -⟩ | ⟨-, hid, -⟩
    · rw [← hid]
      exact h.ids b hb
    · exact hid
  · intro p' hp' hdeposit
    obtain ⟨b, hb, hid⟩ := hbooking hp' hdeposit
    obtain ⟨b', hb', hid'⟩ := hevolved.stays b hb
    exact ⟨b', hb', hid' ▸ hid⟩
  · intro p' hp' hpaid b' hb' hid
    rcases haccepts p' hp' hpaid.2 with ⟨p, hp, -, htype, hpb, hs⟩ | ⟨-, hd⟩
    · obtain ⟨b, hb, hbid⟩ := hbooking hp' hpaid.1
      have hsame : b'.id = b.id := Option.some.inj (hid.symm.trans hbid)
      exact past_of_allowed (hevolved.booking hb hb' hsame) (hpast hp htype hpb hs hpaid hb hbid)
    · obtain ⟨b, hb, b₁, hb₁, hbid, hid₁, -, hst⟩ := hconfirmed hpaid hd
      have hsame : b'.id = b.id := Option.some.inj (hid.symm.trans hbid)
      obtain rfl := Table.id_eq hb' hb₁ (hsame.trans hid₁.symm)
      simp [hst]
  · intro p' hp' q' hq' hpaid hqaid hsame
    rcases haccepts p' hp' hpaid.2 with ⟨p, hp, hpid, hptype, hpb', hps⟩ | ⟨hpid, hpd⟩ <;>
      rcases haccepts q' hq' hqaid.2 with ⟨q, hq, hqid, hqtype, hqb', hqs⟩ | ⟨hqid, hqd⟩
    · obtain rfl := h.once p hp q hq ⟨hptype.trans hpaid.1, hps⟩ ⟨hqtype.trans hqaid.1, hqs⟩
        (hpb'.trans (hsame.trans hqb'.symm))
      exact payment_eq hp' hq' (hpid.symm.trans hqid)
    · obtain ⟨r, hr, -, -, hrid, -, hpending, -⟩ := hconfirmed hqaid hqd
      have := hpast hp hptype hpb' hps hpaid hr (hsame.trans hrid)
      exact absurd hpending this.2
    · obtain ⟨r, hr, -, -, hrid, -, hpending, -⟩ := hconfirmed hpaid hpd
      have := hpast hq hqtype hqb' hqs hqaid hr (hsame.symm.trans hrid)
      exact absurd hpending this.2
    · exact payment_eq hp' hq' (hpid.trans hqid.symm)

theorem Change.delivers (h : Change ns c c') (hns : ∀ x ∈ ns, x.stands c)
    (hids : ∀ b ∈ c.booking.rows, b.id ≠ 0) (hdeliverable : OnlyDeliverable ns c) :
    Delivers c c' := by
  obtain ⟨id, haccepts⟩ := h.accepts hns hids hdeliverable
  intro p hp p' hp' hid hbefore hafter
  rcases haccepts p' hp' hafter with ⟨q, hq, hqid, -, -, hs⟩ | ⟨-, hd⟩
  · obtain rfl := payment_eq hq hp (hqid.trans hid)
    exact absurd hs hbefore
  · split at hd
    · exact .inl hd
    · exact .inr hd

theorem Asked.delivers (h : Asked c c') : Delivers c c' := by
  obtain ⟨t, rfl⟩ := h.core_eq
  intro p hp p' hp' hid hbefore hafter
  obtain rfl := payment_eq hp hp' hid.symm
  exact absurd hafter hbefore

end

/-! ### Runs -/

section
variable {accepts : Request → Store → Prop} {s₀ s : Store} {past : List Store}
  {t : Option (Thread Env Store Err Note Unit)}

theorem delivery_serving : Serving Request.serve accepts
    (fun t _ s => OnlyDeliverable t.notes s.core) (fun r => contract r.takes) (fun _ => anyway)
    (fun s => Paid s.core) (fun _ ns s => Paid s.core ∧ ∀ x ∈ ns, x.stands s.core)
    (fun s s' => Delivers s.core s'.core) := by
  have hmeaning (r : Request) : Meaning ((contract r.takes).given fun ns s =>
      OnlyDeliverable ns s.core) (fun s => Paid s.core) (fun x s => x.stands s.core) := by
    refine meaning_stands (P := OnlyDeliverable) (fun {c c'} hs h => ?_)
      fun hs hns hd h => hs.change hns hd h
    obtain ⟨t, rfl⟩ := h.core_eq
    exact ⟨hs.ids, hs.bookings, hs.past, hs.once⟩
  refine Meaning.serving (fun _ => trivial) id (fun {r s} => r.serve_owes s) hmeaning
    (fun s => Asked.delivers .quiet) (fun _ h => Asked.delivers h) ?_
  intro r ns s s' hs hns hd h
  exact Change.delivers h hns hs.ids hd

/-- As long as only deliverable payments are accepted, what is paid is delivered, and no
booking is paid twice. -/
theorem payments_delivered (hbooking : s₀.booking.rows = []) (hpayment : s₀.payment.rows = [])
    (h : Serial Request.serve accepts (fun t _ s => OnlyDeliverable t.notes s.core) s₀ t s past) :
    (s :: past).IsChain (fun new old => Delivers old.core new.core) ∧ PaidOnce s.payment := by
  have hpaid₀ : Paid s₀.core := by
    constructor <;> simp [Store.core, PaidOnce, hbooking, hpayment]
  obtain ⟨hnow, hchain⟩ := delivery_serving.now hpaid₀ h
  refine ⟨hchain, ?_⟩
  cases t with
  | none => exact hnow.once
  | some t =>
    obtain ⟨_, _, _, hJ⟩ := hnow
    exact hJ.1.once

/-- The shop asks for a deposit of half the price. -/
def depositShop : Store := { shop with
  service := .single {
    id := 1, businessId := 1, name := "", durationMinutes := .halfHour, price := 10000
    requiresDeposit := true, depositPercent := some 5000 } }

/-- A booking is made, and two sessions are opened for its deposit. -/
def twoSessions : List (Request × List Env) :=
  [(halfHours false, List.replicate 11 (.of 0 1)), (.confirm 1 2, List.replicate 12 (.of 0 2)),
    (.initiate 1 { bookingId := 2, method := .gateway }, List.replicate 6 (.of 0 3)),
    (.initiate 1 { bookingId := 2, method := .gateway }, List.replicate 6 (.of 0 4))]

/-- A top-up and a deposit are paid and delivered. -/
theorem payments_delivered_both : ∃ s past, Serial Request.serve (fun _ _ => True)
      (fun t _ s => OnlyDeliverable t.notes s.core) depositShop none s past ∧
    s.wallet.rows.map Wallet.balance = [1000000] ∧
    s.booking.rows.map Booking.status = [.confirmed] ∧
    (s :: past).IsChain (fun new old => Delivers old.core new.core) ∧ PaidOnce s.payment := by
  have hreplays : Replays Request.serve (fun _ _ => True)
      (fun t _ s => OnlyDeliverable t.notes s.core) depositShop
      (paidIn ++ (twoSessions ++ [(.handleCallback .mock (some 4), List.replicate 20 (.of 0 5))])) := by
    decide +kernel
  obtain ⟨past, hserial⟩ := Serial.replay .init hreplays
  exact ⟨_, past, hserial, by decide +kernel, by decide +kernel, payments_delivered rfl rfl hserial⟩

/-- Both sessions are paid: the second payment is accepted for nothing. -/
theorem second_session_accepted : ∃ t s s' past, Serial Request.serve (fun _ _ => True)
      (fun _ _ _ => True) depositShop (some t) s' (s :: past) ∧
    ¬ Delivers s.core s'.core ∧ ¬ PaidOnce s'.payment := by
  have hreplays : Replays Request.serve (fun _ _ => True) (fun _ _ _ => True) depositShop
      (twoSessions ++ [(.handleCallback .mock (some 4), List.replicate 20 (.of 0 5))]) := by
    decide +kernel
  obtain ⟨_, hserial⟩ := Serial.replay .init hreplays
  have hadmits : (Thread.start (Request.handleCallback .mock (some 5)).serve).Admits
      (fun _ _ _ => True) (replay Request.serve depositShop
        (twoSessions ++ [(.handleCallback .mock (some 4), List.replicate 20 (.of 0 5))]))
      (List.replicate 6 (.of 0 5)) := by decide +kernel
  obtain ⟨past, hserial⟩ := (hserial.accept (r := .handleCallback .mock (some 5)) trivial).follow hadmits
  exact ⟨_, _, _, past, hserial.step (g := .of 0 5) trivial, by decide +kernel, by decide +kernel⟩

end
end BookingPlatform
