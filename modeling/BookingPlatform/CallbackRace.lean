import BookingPlatform.Callback
import BookingPlatform.Delivery
import BookingPlatform.WalletRace

/-! Callbacks that run against each other. The status is read before the gateway is asked; a
callback whose verification fails writes FAILED over whatever the status is by then. -/
namespace BookingPlatform
open Async Data

def Request.CallsBack : Request → Prop
  | handleCallback .. => True
  | _ => False

/-- The amount is posted on the payer's wallet. -/
def Topped (c c' : Core) (p : Payment) : Prop :=
  ∃ w ∈ c'.wallet.rows, w.userId = p.userId ∧ ∃ row,
    c'.walletTransaction.rows = c.walletTransaction.rows ++ [row] ∧ row.walletId = w.id ∧
      row.type = .topup ∧ row.amount = p.amount ∧ row.balanceAfter = w.balance ∧
      row.referenceId = some p.id

/-- The wallet is credited for the payment, or its booking is confirmed with it. -/
def Processed (c c' : Core) (p : Payment) : Prop :=
  Topped c c' p ∨ Confirmed c c' p ∧ ∃ p' ∈ c'.payment.rows, p'.id = p.id ∧ p'.status = .success

/-- The second request is going to write SUCCESS, and the first one has looked the same
payment up as INITIATED. -/
def rivalLookups (_ : Store) : Note → Note → Prop
  | .handling p, .finalising id _ => p.id = id
  | _, _ => False

instance (s : Store) (x y : Note) : Decidable (rivalLookups s x y) := by
  unfold rivalLookups
  split <;> infer_instance

/-- Callbacks that do not overtake each other, and accept only what can be delivered. -/
def Orderly {ι : Type} (c : Config ι Env Store Err Note Unit) (i : ι) (_ : Env) : Prop :=
  ¬ c.Overtakes rivalLookups i ∧
    ((c.thread i).Committing → OnlyDeliverable (c.thread i).notes c.store.core)

instance {ι : Type} [Fintype ι] [DecidableEq ι] (c : Config ι Env Store Err Note Unit) (i : ι) (g : Env) :
    Decidable (Orderly c i g) :=
  inferInstanceAs (Decidable (_ ∧ _))

/-- What a callback knows while none overtakes it. -/
def Note.ofLookup (c : Core) : Note → Prop
  | .handling p => ∃ q ∈ c.payment.rows, p.Since q ∧ q.status ≠ .success
  | .walletless userId => ∀ w ∈ c.wallet.rows, w.userId ≠ userId
  | .unpayable id => ∀ b ∈ c.booking.rows, b.id = id → b.status ≠ .pending
  | .balance userId walletId _ => ∀ w ∈ c.wallet.rows, w.id = walletId → w.userId = userId
  | _ => True

section
variable {c c' : Core} {ns : List Note} {x : Note} {p q : Payment}

theorem Payment.Since.trans (h : p.Since q) {q' : Payment} (h' : q.Since q') : p.Since q' :=
  ⟨h'.id.trans h.id, h'.bookingId.trans h.bookingId, h'.userId.trans h.userId,
    h'.type.trans h.type, h'.amount.trans h.amount,
    fun ref hp => h'.gatewayRefId ref (h.gatewayRefId ref hp)⟩

theorem Payment.Since.refl (p : Payment) : p.Since p :=
  ⟨rfl, rfl, rfl, rfl, rfl, fun _ h => h⟩

theorem Payment.Restated.since {next : PaymentStatus} (h : Payment.Restated next p q) : p.Since q := by
  rw [h.1]
  exact ⟨rfl, rfl, rfl, rfl, rfl, fun _ h => h⟩

theorem Processed.since (hq : p.Since q) : Processed c c' q ↔ Processed c c' p := by
  unfold Processed Topped Confirmed
  rw [hq.userId, hq.amount, hq.id, hq.bookingId]

/-- Callbacks add no wallets and keep their owners. -/
theorem Answer.wallets (h : Answer ns c c') {w' : Wallet} (hw' : w' ∈ c'.wallet.rows) :
    ∃ w ∈ c.wallet.rows, w.id = w'.id ∧ w.userId = w'.userId := by
  cases h with
  | credit p ref walletId x tp tw tl _ _ _ _ _ hwallet _ =>
    obtain ⟨w, hw, rfl⟩ := hwallet.mem_iff.mp hw'
    refine ⟨w, hw, ?_⟩
    split <;> exact ⟨rfl, rfl⟩
  | _ => exact ⟨w', hw', rfl, rfl⟩

/-- Callbacks add no bookings and only confirm them. -/
theorem Answer.bookings (h : Answer ns c c') {b' : Booking} (hb' : b' ∈ c'.booking.rows) :
    ∃ b ∈ c.booking.rows, b.id = b'.id ∧ (b'.status = b.status ∨ b'.status = .confirmed) := by
  cases h with
  | confirmPaid p ref bookingId tp tb tr _ _ _ _ _ _ hconfirm =>
    obtain ⟨f, hf, hnext, rfl⟩ := hconfirm
    obtain ⟨b, hb, rfl⟩ := List.mem_map.mp hb'
    refine ⟨b, hb, ?_⟩
    by_cases hid : b.id = bookingId
    · simp only [hid, beq_self_eq_true, if_true]
      rw [hnext b]
      exact ⟨hid.symm, .inr rfl⟩
    · simp [hid]
  | _ => exact ⟨b', hb', rfl, .inl rfl⟩

/-- What an answer makes of a payment. -/
theorem Answer.payments (h : Answer ns c c') (hp : p ∈ c.payment.rows) :
    ∃ p' ∈ c'.payment.rows, p.Since p' ∧ (p'.status = p.status ∨
      (p'.status = .failed ∧ ∃ q, .handling q ∈ ns ∧ q.id = p.id) ∨
      (p'.status = .success ∧ ∃ ref, .finalising p.id ref ∈ ns)) := by
  have written {next : PaymentStatus} {q : Payment} {t : Table Payment}
      (hset : PaymentSet q.id next c.payment t) : ∃ p' ∈ t.rows, p.Since p' ∧
        (p'.status = p.status ∨ (p'.status = next ∧ q.id = p.id)) := by
    obtain ⟨p', hp', ⟨hid, hrestated⟩ | ⟨-, rfl⟩⟩ := hset.stays hp
    · exact ⟨p', hp', hrestated.since, .inr ⟨hrestated.fields.2.2.2.2, hid.symm⟩⟩
    · exact ⟨p', hp', .refl p', .inl rfl⟩
  have accepted {q : Payment} {ref : Id} {t : Table Payment} (hfinalising : .finalising q.id ref ∈ ns)
      (hset : PaymentSet q.id .success c.payment t) : ∃ p' ∈ t.rows, p.Since p' ∧
        (p'.status = p.status ∨ (p'.status = .failed ∧ ∃ q, .handling q ∈ ns ∧ q.id = p.id) ∨
          (p'.status = .success ∧ ∃ ref, .finalising p.id ref ∈ ns)) := by
    obtain ⟨p', hp', hsince, hst | ⟨hst, hid⟩⟩ := written hset
    · exact ⟨p', hp', hsince, .inl hst⟩
    · rw [hid] at hfinalising
      exact ⟨p', hp', hsince, .inr (.inr ⟨hst, ref, hfinalising⟩)⟩
  cases h with
  | quiet => exact ⟨p, hp, .refl p, .inl rfl⟩
  | fail q t hhandling hset =>
    obtain ⟨p', hp', hsince, hst | ⟨hst, hid⟩⟩ := written hset
    · exact ⟨p', hp', hsince, .inl hst⟩
    · exact ⟨p', hp', hsince, .inr (.inl ⟨hst, q, hhandling, hid⟩)⟩
  | credit q ref walletId x tp tw tl _ hfinalising _ _ hset _ _ => exact accepted hfinalising hset
  | confirmPaid q ref bookingId tp tb tr _ hfinalising _ _ _ hset _ => exact accepted hfinalising hset
  | acceptOnly q ref tp _ hfinalising _ _ hset => exact accepted hfinalising hset

theorem ofLookup_grounds {held : List Note} (h : Grounds held c c' x) : x.ofLookup c' := by
  cases x with
  | handling p =>
    obtain ⟨hp, hst⟩ := h
    refine ⟨p, hp, .refl p, ?_⟩
    rw [hst]
    simp
  | walletless userId => exact h
  | unpayable id => exact h
  | balance userId walletId amount =>
    intro w hw hid
    rcases h with ⟨w', hw', huser, hid', -⟩ | ⟨hnone, -⟩
    · obtain rfl := wallet_eq_of_id hw hw' (hid.trans hid'.symm)
      exact huser
    · exact absurd hid (hnone w hw).2
  | _ => trivial

theorem Asked.ofLookup (h : Asked c c') (hx : x.ofLookup c) : x.ofLookup c' := by
  obtain ⟨t, rfl⟩ := h.core_eq
  cases x <;> exact hx

theorem Answer.ids (h : Answer ns c c') (hids : ∀ b ∈ c.booking.rows, b.id ≠ 0) :
    ∀ b ∈ c'.booking.rows, b.id ≠ 0 := by
  intro b' hb'
  obtain ⟨b, hb, hid, -⟩ := h.bookings hb'
  rw [← hid]
  exact hids b hb

/-! ### One step -/

/-- A callback fails no payment that has succeeded. -/
theorem Answer.success_stays (h : Answer ns c c') (hns : ∀ x ∈ ns, x.ofLookup c) (hp : p ∈ c.payment.rows)
    (hst : p.status = .success) {p' : Payment} (hp' : p' ∈ c'.payment.rows) (hid : p'.id = p.id) :
    p'.status = .success := by
  obtain ⟨q, hq, hsince, hstatus⟩ := h.payments hp
  obtain rfl := payment_eq hp' hq (hid.trans hsince.id.symm)
  rcases hstatus with hsame | ⟨-, q₁, hhandling, hq₁⟩ | ⟨hsuccess, -⟩
  · exact hsame.trans hst
  · obtain ⟨q₂, hq₂, hsince₂, hnot⟩ := hns _ hhandling
    obtain rfl := payment_eq hq₂ hp (hsince₂.id.trans hq₁)
    exact absurd hst hnot
  · exact hsuccess

/-- A payment that becomes SUCCESS is processed in the same step. -/
theorem Answer.processed (h : Answer ns c c') (hns : ∀ x ∈ ns, x.ofLookup c)
    (hids : ∀ b ∈ c.booking.rows, b.id ≠ 0) (hdeliverable : OnlyDeliverable ns c)
    (hp : p ∈ c.payment.rows) (hst : p.status ≠ .success) {p' : Payment}
    (hp' : p' ∈ c'.payment.rows) (hid : p'.id = p.id) (hst' : p'.status = .success) :
    Processed c c' p := by
  -- Which payment it was that was accepted.
  have accepted {q : Payment} {t : Table Payment} (hhandling : .handling q ∈ ns)
      (hset : PaymentSet q.id .success c.payment t) (hp' : p' ∈ t.rows) : q.Since p := by
    obtain ⟨p₁, hp₁, ⟨hid₁, hrestated⟩ | ⟨-, rfl⟩⟩ := hset.mem_iff hp'
    · obtain rfl := payment_eq hp₁ hp (hrestated.fields.1.symm.trans hid)
      obtain ⟨q₁, hq₁, hsince, -⟩ := hns _ hhandling
      obtain rfl := payment_eq hq₁ hp₁ (hsince.id.trans hid₁.symm)
      exact hsince
    · obtain rfl := payment_eq hp₁ hp hid
      exact absurd hst' hst
  cases h with
  | quiet =>
    obtain rfl := payment_eq hp' hp hid
    exact absurd hst' hst
  | fail q t hhandling hset =>
    obtain ⟨p₁, hp₁, ⟨-, hrestated⟩ | ⟨-, rfl⟩⟩ := hset.mem_iff hp'
    · have hfailed : p'.status = .failed := hrestated.fields.2.2.2.2
      rw [hfailed] at hst'
      cases hst'
    · obtain rfl := payment_eq hp₁ hp hid
      exact absurd hst' hst
  | credit q ref walletId x tp tw tl hhandling _ hbalance _ hset hwallet hpost =>
    have hsince := accepted hhandling hset hp'
    obtain ⟨⟨k, hrows⟩, w', hw', hwid⟩ := hpost
    obtain ⟨w, hw, hsame⟩ := hwallet.mem_iff.mp hw'
    have howner : w.userId = q.userId := by
      refine hns _ hbalance w hw ?_
      rw [← hwid, ← hsame]
      split <;> rfl
    rw [if_pos howner] at hsame
    obtain rfl := hsame
    exact .inl ⟨_, hw', howner.trans hsince.userId.symm, _, hrows, hwid.symm, rfl, hsince.amount.symm,
      rfl, by rw [hsince.id]⟩
  | confirmPaid q ref bookingId tp tb tr hhandling hfinalising htype hbooking _ hset hconfirm =>
    have hsince := accepted hhandling hset hp'
    have hdeliver := hdeliverable.of hhandling hfinalising
    unfold Deliverable at hdeliver
    rw [if_neg htype] at hdeliver
    obtain ⟨b, hb, hbid, hpending⟩ := hdeliver
    obtain rfl : bookingId = b.id := Option.some.inj (hbooking.symm.trans hbid)
    obtain ⟨b', hb', hid', hconfirmed⟩ := hconfirm.confirms hb
    exact .inr ⟨⟨b, hb, b', hb', hsince.bookingId.trans hbid, hid', hpending, hconfirmed⟩, p', hp', hid,
      hst'⟩
  | acceptOnly q ref tp hhandling hfinalising hwalletless hunpayable hset =>
    exfalso
    have hdeliver := hdeliverable.of hhandling hfinalising
    unfold Deliverable at hdeliver
    by_cases htype : q.type = .walletTopup
    · rw [if_pos htype] at hdeliver
      obtain ⟨w, hw, huser⟩ := hdeliver
      exact hns _ (hwalletless htype) w hw huser
    · rw [if_neg htype] at hdeliver
      obtain ⟨b, hb, hbid, hpending⟩ := hdeliver
      exact hns _ (hunpayable b.id htype hbid (hids b hb)) b hb rfl hpending

/-- Nothing is processed when neither the ledger nor the bookings change. -/
theorem not_processed (hledger : c'.walletTransaction = c.walletTransaction)
    (hbooking : c'.booking = c.booking) : ¬ Processed c c' p := by
  rintro (⟨w, -, -, row, hrows, -⟩ | ⟨⟨b, hb, b', hb', -, hid, hpending, hconfirmed⟩, -⟩)
  · rw [hledger] at hrows
    have := congrArg List.length hrows
    simp at this
  · rw [hbooking] at hb'
    obtain rfl := Table.id_eq hb' hb hid
    rw [hpending] at hconfirmed
    cases hconfirmed

/-- What is processed is SUCCESS then. -/
theorem Answer.success_of_processed (h : Answer ns c c') (hprocessed : Processed c c' p)
    {p' : Payment} (hp' : p' ∈ c'.payment.rows) (hid : p'.id = p.id) : p'.status = .success := by
  rcases hprocessed with htopped | ⟨-, q, hq, hqid, hst⟩
  · have hno (hledger : c'.walletTransaction = c.walletTransaction) : False := by
      obtain ⟨w, -, -, row, hrows, -⟩ := htopped
      rw [hledger] at hrows
      have := congrArg List.length hrows
      simp at this
    cases h with
    | credit q ref walletId x tp tw tl _ _ _ _ hset _ hpost =>
      obtain ⟨⟨k, hrows⟩, -⟩ := hpost
      obtain ⟨w, -, -, row, hrows', -, -, -, -, href⟩ := htopped
      have hrow := List.append_cancel_left (hrows.symm.trans hrows')
      obtain ⟨rfl, -⟩ := List.cons.inj hrow
      exact hset.status_of hp' (hid.trans (Option.some.inj href).symm)
    | _ => exact (hno rfl).elim
  · obtain rfl := payment_eq hp' hq (hid.trans hqid.symm)
    exact hst

end

/-! ### Runs -/

theorem meaning_ofLookup {r : Request} (hr : r.CallsBack) : Meaning (contract r.takes)
    (fun s => ∀ b ∈ s.core.booking.rows, b.id ≠ 0) (fun x s => x.called ∧ x.ofLookup s.core) where
  grounds := by
    intro held x s s' _ _ _ hx
    refine ⟨?_, ofLookup_grounds hx.2⟩
    cases r with
    | handleCallback gateway gatewayRefId => exact ⟨gateway, gatewayRefId, Request.takes_of_noted hx⟩
    | _ => exact hr.elim
  auto := by
    intro ns s s' hs hns h
    refine ⟨?_, fun x hx => ⟨(hns x hx).1, Asked.ofLookup h (hns x hx).2⟩⟩
    obtain ⟨t, ht⟩ := Asked.core_eq h
    rw [ht]
    exact hs
  commit := by
    intro ns s s' hs hns h
    have hchange : Change ns s.core s'.core := h
    exact (hchange.answer fun x hx => (hns x hx).1).ids hs

/-- Only who writes SUCCESS makes false what another callback has looked up. -/
theorem steady_ofLookup {r : Request} : Steady (contract r.takes)
    (fun s => ∀ b ∈ s.core.booking.rows, b.id ≠ 0) (fun x s => x.called ∧ x.ofLookup s.core)
    rivalLookups where
  auto _ hx h := ⟨hx.1, Asked.ofLookup h hx.2⟩
  commit := by
    intro ns s s' x _ hns h hrival hx
    have hchange : Change ns s.core s'.core := h
    have hanswer := hchange.answer fun x hx => (hns x hx).1
    refine ⟨hx.1, ?_⟩
    have hx := hx.2
    cases x with
    | handling p =>
      obtain ⟨q, hq, hsince, hnot⟩ := hx
      obtain ⟨q', hq', hsince', hstatus⟩ := hanswer.payments hq
      refine ⟨q', hq', hsince.trans hsince', ?_⟩
      rcases hstatus with hsame | ⟨hfailed, -⟩ | ⟨-, ref, hfinalising⟩
      · rw [hsame]
        exact hnot
      · rw [hfailed]
        simp
      · exact absurd hsince.id.symm (hrival _ hfinalising)
    | walletless userId =>
      intro w' hw'
      obtain ⟨w, hw, -, huser⟩ := hanswer.wallets hw'
      rw [← huser]
      exact hx w hw
    | unpayable id =>
      intro b' hb' hid
      obtain ⟨b, hb, hid', hsame | hconfirmed⟩ := hanswer.bookings hb'
      · rw [hsame]
        exact hx b hb (hid'.trans hid)
      · rw [hconfirmed]
        simp
    | balance userId walletId amount =>
      intro w' hw' hid
      obtain ⟨w, hw, hid', huser⟩ := hanswer.wallets hw'
      rw [← huser]
      exact hx w hw (hid'.trans hid)
    | _ => trivial

section
variable {ι : Type} [DecidableEq ι] {r : ι → Request} {s₀ : Store}
  {conf : Config ι Env Store Err Note Unit} {past : List (ι × Store)}

/-- An orderly step keeps successes, and makes new ones only by processing them. -/
theorem Run.orderly_step (hr : ∀ i, (r i).CallsBack) (hids : ∀ b ∈ s₀.booking.rows, b.id ≠ 0)
    (hrun : Run Orderly (.start (fun i => (r i).serve) s₀) conf past) {i : ι} {g : Env}
    (ha : Orderly conf i g) {p : Payment} (hp : p ∈ conf.store.payment.rows) :
    ∃ p' ∈ (conf.step i g).store.payment.rows, p.Since p' ∧
      (p'.status = .success ↔
        p.status = .success ∨ Processed conf.store.core (conf.step i g).store.core p) := by
  obtain ⟨hinv, hmeans⟩ := Run.meant_of_steady (Request.concurrent r)
    (fun i => meaning_ofLookup (hr i)) (fun _ => steady_ofLookup) hids (fun h => h.1) hrun
  obtain ⟨s, s', hi⟩ := Run.obeys (Request.concurrent r) hrun i
  rcases hi.step_store (g := g) trivial trivial with ⟨hcommitting, hcommit | hsame⟩ | hauto
  · have hres : (conf.thread i).result = none := by
      obtain ⟨f, q, k, hprog⟩ := hcommitting
      simp [Thread.result, hprog]
    have hheld := hmeans i hres
    have hchange : Change (conf.thread i).notes conf.store.core (conf.step i g).store.core := hcommit
    have hanswer := hchange.answer fun x hx => (hheld x hx).1
    have hlook : ∀ x ∈ (conf.thread i).notes, x.ofLookup conf.store.core := fun x hx => (hheld x hx).2
    obtain ⟨p', hp', hsince, -⟩ := hanswer.payments hp
    refine ⟨p', hp', hsince, ?_, ?_⟩
    · intro hst'
      by_cases hst : p.status = .success
      · exact .inl hst
      · exact .inr (hanswer.processed hlook hinv (ha.2 hcommitting) hp hst hp' hsince.id hst')
    · rintro (hst | hprocessed)
      · exact hanswer.success_stays hlook hp hst hp' hsince.id
      · exact hanswer.success_of_processed hprocessed hp' hsince.id
  · have hstore : (conf.step i g).store = conf.store := hsame
    rw [hstore]
    refine ⟨p, hp, .refl p, .inl, ?_⟩
    rintro (hst | hprocessed)
    · exact hst
    · exact absurd hprocessed (not_processed rfl rfl)
  · obtain ⟨t, ht⟩ := Asked.core_eq hauto
    have hcore : (conf.step i g).store.core = { conf.store.core with session := t } := ht
    have hpayment : (conf.step i g).store.payment = conf.store.payment :=
      congrArg (fun c : Core => c.payment) hcore
    have hledger : (conf.step i g).store.core.walletTransaction = conf.store.core.walletTransaction := by
      rw [hcore]
    have hbooking : (conf.step i g).store.core.booking = conf.store.core.booking := by
      rw [hcore]
    rw [hpayment]
    refine ⟨p, hp, .refl p, .inl, ?_⟩
    rintro (hst | hprocessed)
    · exact hst
    · exact absurd hprocessed (not_processed hledger hbooking)

/-- When no callback overtakes another one and all that is accepted can be delivered, SUCCESS
is final, and means that the payment was processed. -/
theorem success_final (hr : ∀ i, (r i).CallsBack) (hids : ∀ b ∈ s₀.booking.rows, b.id ≠ 0)
    (hrun : Run Orderly (.start (fun i => (r i).serve) s₀) conf past) :
    (∀ x ∈ steps past conf.store, ∀ p ∈ x.2.1.payment.rows, p.status = .success →
      ∀ p' ∈ x.2.2.payment.rows, p'.id = p.id → p'.status = .success) ∧
    ∀ p ∈ s₀.payment.rows, p.status ≠ .success → ∀ p' ∈ conf.store.payment.rows, p'.id = p.id →
      (p'.status = .success ↔
        ∃ x ∈ steps past conf.store, Processed x.2.1.core x.2.2.core p) := by
  constructor
  · refine Run.steps_forall (G := fun _ s s' => ∀ p ∈ s.payment.rows,
      p.status = .success → ∀ p' ∈ s'.payment.rows, p'.id = p.id → p'.status = .success) ?_ hrun
    intro c past i g hc ha p hp hst p' hp' hid
    obtain ⟨q, hq, hsince, hiff⟩ := Run.orderly_step hr hids hc ha hp
    obtain rfl := payment_eq hp' hq (hid.trans hsince.id.symm)
    exact hiff.mpr (.inl hst)
  · intro p hp hst p' hp' hid
    suffices hall : ∃ q ∈ conf.store.payment.rows, p.Since q ∧ (q.status = .success ↔
        ∃ x ∈ steps past conf.store, Processed x.2.1.core x.2.2.core p) by
      obtain ⟨q, hq, hsince, hiff⟩ := hall
      obtain rfl := payment_eq hp' hq (hid.trans hsince.id.symm)
      exact hiff
    clear hp' hid
    induction hrun with
    | refl => exact ⟨p, hp, .refl p, by simp [steps, hst]⟩
    | @step c past i g hc ha ih =>
      obtain ⟨q, hq, hsince, hiff⟩ := ih
      obtain ⟨q', hq', hsince', hiff'⟩ := Run.orderly_step hr hids hc ha hq
      refine ⟨q', hq', hsince.trans hsince', hiff'.trans ?_⟩
      constructor
      · rintro (hold | hnow)
        · obtain ⟨x, hx, hprocessed⟩ := hiff.mp hold
          exact ⟨x, List.mem_cons_of_mem _ hx, hprocessed⟩
        · exact ⟨_, List.mem_cons_self, (Processed.since hsince).mp hnow⟩
      · rintro ⟨x, hx, hprocessed⟩
        rcases List.mem_cons.mp hx with rfl | hx
        · exact .inr ((Processed.since hsince).mpr hprocessed)
        · exact .inl (hiff.mpr ⟨x, hx, hprocessed⟩)

/-- Two callbacks look the payment up, and the second one finds the reference used and writes FAILED. The first one is
about to commit. -/
def failedFirst : List (Bool × Env) :=
  (List.replicate 2 [(false, .of 0 1), (true, .of 0 2)]).flatten ++ List.replicate 2 (true, .of 0 2) ++
    List.replicate 6 (false, .of 0 1)

/-- Neither callback overtakes the other one, and the wallet is there. -/
theorem success_final_topup : ∃ conf before past, Run Orderly
      (.start (fun _ : Bool => (topupCallback false).serve) twoTopups) conf ((false, before) :: past) ∧
    (∀ i, (conf.thread i).result.isSome) ∧
    before.payment.rows.map Payment.status = [.failed, .initiated] ∧
    conf.store.payment.rows.map Payment.status = [.success, .initiated] ∧
    ∀ p ∈ twoTopups.payment.rows, p.status ≠ .success → ∀ p' ∈ conf.store.payment.rows, p'.id = p.id →
      (p'.status = .success ↔
        ∃ x ∈ steps ((false, before) :: past) conf.store, Processed x.2.1.core x.2.2.core p) := by
  have hadmits : (Config.start (fun _ : Bool => (topupCallback false).serve) twoTopups).Admits Orderly
      failedFirst := by decide +kernel
  obtain ⟨past, hbefore⟩ := Run.follow .refl hadmits
  have hrun := hbefore.step (i := false) (g := .of 0 1) (by decide +kernel)
  obtain ⟨-, hfinal⟩ := success_final (r := fun _ => topupCallback false) (fun _ => trivial)
    (by simp [twoTopups, treasury, Table.empty]) hrun
  exact ⟨_, _, past, hrun, by decide +kernel, by decide +kernel, by decide +kernel, hfinal⟩

/-- The second callback runs to its end after the first one has looked the payment up; the
first one then finds the reference used. -/
def lookedUpFirst : List (Bool × Env) :=
  (false, .of 0 1) :: List.replicate 9 (true, .of 0 2) ++ [(false, .of 0 3)]

/-- A top-up is credited and then marked FAILED. -/
theorem success_overwritten : ∃ conf past, Run (fun _ _ _ => True)
      (.start (fun _ : Bool => (topupCallback false).serve) twoTopups) conf past ∧
    (∀ i, (conf.thread i).result.isSome) ∧
    (∃ x ∈ steps past conf.store, ∃ p ∈ x.2.1.payment.rows, p.status = .success ∧
      ∃ p' ∈ x.2.2.payment.rows, p'.id = p.id ∧ p'.status = .failed) ∧
    conf.store.payment.rows.map Payment.status = [.failed, .initiated] ∧
    conf.store.walletTransaction.rows.map WalletTransaction.amount = [1000000] := by
  obtain ⟨past, hrun⟩ := Run.follow .refl (Config.admits_all
    (.start (fun _ : Bool => (topupCallback false).serve) twoTopups) lookedUpFirst)
  exact ⟨_, _, hrun.step (i := false) (g := .of 0 3) trivial, by decide +kernel,
    ⟨_, List.mem_cons_self, by decide +kernel⟩, by decide +kernel, by decide +kernel⟩

end
end BookingPlatform
