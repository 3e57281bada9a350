import BookingPlatform.DoubleBooking
import BookingPlatform.Payments
import BookingPlatform.Wallets
import Mathlib.Algebra.Order.BigOperators.Group.List
import Mathlib.Tactic.Linarith

/-! What the wallets hold against what the gateway has taken, over serial runs. -/
namespace BookingPlatform
open Async Data

/-- What a wallet-paid deposit has taken out of a wallet. -/
def Payment.walletPaid (p : Payment) : Money :=
  if p.type = .deposit ∧ p.gateway = .wallet ∧ p.status = .success then p.amount else 0

/-- What the gateway has taken for the payment. -/
def Payment.taken (p : Payment) : Money :=
  if p.gateway ≠ .wallet ∧ (p.status = .success ∨ p.status = .refunded) then p.amount else 0

/-- What a refund of a deposit would put into a wallet. -/
def Payment.held (p : Payment) : Money :=
  if p.type = .deposit ∧ p.status = .success then p.amount else 0

/-- Every payment is a deposit or a top-up of some amount, and only the gateway keeps one open. -/
structure Payment.Sound (p : Payment) : Prop where
  amount : 0 ≤ p.amount
  type : p.type = .deposit ∨ p.type = .walletTopup
  gateway : p.status = .initiated → p.gateway ≠ .wallet

/-- Wallets and refundable deposits together hold at most what the gateway has taken. -/
structure Backed (c : Core) : Prop where
  sound : ∀ p ∈ c.payment.rows, p.Sound
  backed : c.wallet.total Wallet.balance + c.payment.total Payment.held ≤
    c.payment.total Payment.taken

/-- The request is past the check of a refund, with a top-up. -/
def Note.refundsTopup : Note → Bool
  | .refunding p => p.type == .walletTopup
  | _ => false

/-- No top-up has got past the check of a refund. -/
def NoTopupRefund (ns : List Note) : Prop := ∀ x ∈ ns, x.refundsTopup = false

instance {ns : List Note} : Decidable (NoTopupRefund ns) :=
  inferInstanceAs (Decidable (∀ x ∈ ns, _))

section
variable {c c' : Core} {ns : List Note} {p p' : Payment} {t : Table Payment}
  {next : PaymentStatus}

theorem Payment.Sound.paid_le_held (h : p.Sound) : p.walletPaid ≤ p.held := by
  have := h.amount
  unfold Payment.walletPaid Payment.held
  split <;> split <;> simp_all

theorem Payment.Sound.restate (h : p.Sound) (hp : Payment.Restated next p p')
    (hnext : next ≠ .initiated) : p'.Sound := by
  obtain ⟨-, hamount, htype, -, hstatus⟩ := hp.fields
  constructor
  · rw [hamount]
    exact h.amount
  · rw [htype]
    exact h.type
  · intro hinitiated
    exact absurd (hstatus.symm.trans hinitiated) hnext

theorem Backed.set {id : Id} (h : Backed c) (hset : PaymentSet id next c.payment t)
    (hnext : next ≠ .initiated) : ∀ q ∈ t.rows, q.Sound := by
  intro q hq
  obtain ⟨p, hp, ⟨-, hrestated⟩ | ⟨-, rfl⟩⟩ := hset.mem_iff hq
  · exact (h.sound p hp).restate hrestated hnext
  · exact h.sound q hp

theorem Backed.insert (h : Backed c) (ht : c.payment.insert p = some t) (hp : p.Sound) :
    ∀ q ∈ t.rows, q.Sound := by
  intro q hq
  rw [Table.insert_rows ht] at hq
  rcases List.mem_append.mp hq with hq | hq
  · exact h.sound q hq
  · exact List.mem_singleton.mp hq ▸ hp

/-- What becomes of the totals when a payment is settled that was INITIATED. -/
theorem Backed.settle (h : Backed c) (hp : p ∈ c.payment.rows ∧ p.status = .initiated)
    (hset : PaymentSet p.id next c.payment t) :
    t.total Payment.held = c.payment.total Payment.held +
        (if p.type = .deposit ∧ next = .success then p.amount else 0) ∧
      t.total Payment.taken = c.payment.total Payment.taken +
        (if next = .success ∨ next = .refunded then p.amount else 0) := by
  obtain ⟨hmem, hinitiated⟩ := hp
  obtain ⟨p', hp', hsum⟩ := hset.total hmem
  obtain ⟨-, hamount, htype, hgateway, hstatus⟩ := hp'.fields
  have hwallet := (h.sound p hmem).gateway hinitiated
  constructor
  · have := hsum Payment.held
    simpa [Payment.held, hamount, htype, hstatus, hinitiated] using this
  · have := hsum Payment.taken
    simpa [Payment.taken, hamount, hgateway, hstatus, hinitiated, hwallet] using this

/-- The money of an accepted payment is held or has gone to nobody. -/
theorem Backed.accept (h : Backed c) (hp : p ∈ c.payment.rows ∧ p.status = .initiated)
    (hset : PaymentSet p.id .success c.payment t) :
    c.wallet.total Wallet.balance + t.total Payment.held ≤ t.total Payment.taken := by
  obtain ⟨hheld, htaken⟩ := h.settle hp hset
  have hle := (h.sound p hp.1).amount
  have hbacked := h.backed
  simp only [and_true, true_or, if_true] at hheld htaken
  split at hheld <;> linarith

theorem Backed.change (h : Backed c) (hns : ∀ x ∈ ns, x.stands c) (hno : NoTopupRefund ns)
    (hc : Change ns c c') : Backed c' := by
  have hbacked := h.backed
  cases hc with
  | newWallet w t _ ht hzero _ =>
    refine ⟨h.sound, ?_⟩
    change t.total _ + _ ≤ _
    rw [Table.total_insert ht, hzero, add_zero]
    exact hbacked
  | openPayment q t ht hstatus hgateway _ _ hreason =>
    have hsound : q.Sound := by
      rcases hreason with ⟨b, htype, -, hdue⟩ | ⟨htype, -, hpos, -⟩
      · exact ⟨(hns _ hdue).1.le, .inl htype, by simp [hgateway]⟩
      · exact ⟨hpos.le, .inr htype, by simp [hgateway]⟩
    refine ⟨h.insert ht hsound, ?_⟩
    change _ + t.total _ ≤ t.total _
    rw [Table.total_insert ht, Table.total_insert ht]
    simpa [Payment.held, Payment.taken, hstatus] using hbacked
  | link q ref t _ _ ht =>
    obtain ⟨hf, rfl⟩ := ht
    refine ⟨fun r hr => ?_, ?_⟩
    · obtain ⟨r₀, hr₀, rfl⟩ := (Table.mem_update hf).mp hr
      obtain ⟨hamount, htype, hgateway⟩ := h.sound r₀ hr₀
      split <;> exact ⟨hamount, htype, hgateway⟩
    · have hheld := Table.total_update_same (t := c.payment) (g := Payment.held)
        (p := fun r => r.id == q.id) hf fun _ => rfl
      have htaken := Table.total_update_same (t := c.payment) (g := Payment.taken)
        (p := fun r => r.id == q.id) hf fun _ => rfl
      change _ + Table.total _ _ ≤ Table.total _ _
      rw [hheld, htaken]
      exact hbacked
  | fail p t hhandling ht =>
    obtain ⟨hheld, htaken⟩ := h.settle (hns _ hhandling) ht
    refine ⟨h.set ht (by simp), ?_⟩
    change _ + t.total _ ≤ t.total _
    simp only [reduceCtorEq, and_false, or_self, if_false, add_zero] at hheld htaken
    rw [hheld, htaken]
    exact hbacked
  | credit p ref walletId x tp tw tl hhandling _ hbalance htype hset hwallet hpost =>
    obtain ⟨hheld, htaken⟩ := h.settle (hns _ hhandling) hset
    refine ⟨h.set hset (by simp), ?_⟩
    obtain ⟨w, hw, hu, -, rfl⟩ := hwallet.row (hns _ hbalance) hpost.2
    have hsum := hwallet.total hw hu
    change tw.total _ + tp.total _ ≤ tp.total _
    simp only [htype, reduceCtorEq, false_and, true_or, if_true, if_false] at hheld htaken
    linarith
  | confirmPaid p ref bookingId tp tb tr hhandling _ _ _ _ hset _ =>
    exact ⟨h.set hset (by simp), h.accept (hns _ hhandling) hset⟩
  | acceptOnly p ref tp hhandling _ _ _ hset =>
    exact ⟨h.set hset (by simp), h.accept (hns _ hhandling) hset⟩
  | payWallet userId bookingId walletId amount x q tp tw tl tb tr hdue _ hbalance _ ht _ _ htype
      hstatus hamount hgateway _ _ hwallet hpost _ =>
    have hpos := (hns _ hdue).1
    have hsound : q.Sound := ⟨by rw [hamount]; exact hpos.le, .inl htype, by simp [hstatus]⟩
    refine ⟨h.insert ht hsound, ?_⟩
    obtain ⟨w, hw, hu, -, rfl⟩ := hwallet.row (hns _ hbalance) hpost.2
    have hsum := hwallet.total hw hu
    have hheld : q.held = amount := by simp [Payment.held, htype, hstatus, hamount]
    have htaken : q.taken = 0 := by simp [Payment.taken, hgateway]
    change tw.total _ + tp.total _ ≤ tp.total _
    rw [Table.total_insert ht, Table.total_insert ht, hheld, htaken]
    linarith
  | refund p walletId x row tp tw tw' tl hrefunding hbalance hset hopened hwallet hpost _ _ _ =>
    obtain ⟨hp, hst⟩ := hns _ hrefunding
    refine ⟨h.set hset (by simp), ?_⟩
    obtain ⟨p', hp', hsums⟩ := hset.total hp
    obtain ⟨-, hamount, -, hgateway, hstatus⟩ := hp'.fields
    have hdeposit : p.type = .deposit := by
      have := hno _ hrefunding
      rcases (h.sound p hp).type with htype | htype
      · exact htype
      · simp [Note.refundsTopup, htype] at this
    have hheld : tp.total Payment.held + p.amount = c.payment.total Payment.held := by
      have := hsums Payment.held
      simpa [Payment.held, hdeposit, hst, hstatus] using this
    have htaken : tp.total Payment.taken = c.payment.total Payment.taken := by
      have := hsums Payment.taken
      simpa [Payment.taken, hst, hstatus, hgateway, hamount] using this
    obtain ⟨w, hw, hu, -, rfl, hsame⟩ := hopened.row hwallet (hns _ hbalance) hpost.2
    have hsum := hwallet.total hw hu
    have hbefore : tw.total Wallet.balance = c.wallet.total Wallet.balance := by
      rcases hsame with rfl | ⟨-, hzero, hrows⟩
      · rfl
      · simp [Table.total, hrows, hzero]
    change tw'.total _ + tp.total _ ≤ tp.total _
    linarith
  | _ => exact ⟨h.sound, hbacked⟩

/-- What is backed covers the wallets and what was paid from them. -/
theorem Backed.covers (h : Backed c) :
    c.wallet.total Wallet.balance + c.payment.total Payment.walletPaid ≤
      c.payment.total Payment.taken := by
  have hle : c.payment.total Payment.walletPaid ≤ c.payment.total Payment.held :=
    List.sum_le_sum fun p hp => (h.sound p hp).paid_le_held
  have hbacked := h.backed
  linarith

end

/-! ### Runs -/

section
variable {accepts : Request → Store → Prop} {s₀ s : Store} {past : List Store}
  {t : Option (Thread Env Store Err Note Unit)}

theorem backed_serving : Serving Request.serve accepts (fun t _ _ => NoTopupRefund t.notes)
    (fun r => contract r.takes) (fun _ => anyway) (fun s => Backed s.core)
    (fun _ ns s => Backed s.core ∧ ∀ x ∈ ns, x.stands s.core) (fun _ _ => True) := by
  have hmeaning (r : Request) : Meaning ((contract r.takes).given fun ns _ => NoTopupRefund ns)
      (fun s => Backed s.core) (fun x s => x.stands s.core) := by
    refine meaning_stands (P := fun ns _ => NoTopupRefund ns) (fun {c c'} hs h => ?_)
      fun hs hns hno h => hs.change hns hno h
    obtain ⟨t, rfl⟩ := h.core_eq
    exact ⟨hs.sound, hs.backed⟩
  exact Meaning.serving (fun _ => trivial) id (fun {r s} => r.serve_owes s) hmeaning
    (fun _ => trivial) (fun _ _ => trivial) fun _ _ _ _ => trivial

/-- As long as no top-up is refunded, no operation mints money. -/
theorem nothing_minted (hwallet : s₀.wallet.rows = []) (hpayment : s₀.payment.rows = [])
    (h : Serial Request.serve accepts (fun t _ _ => NoTopupRefund t.notes) s₀ t s past) :
    s.wallet.total Wallet.balance + s.payment.total Payment.walletPaid ≤
      s.payment.total Payment.taken := by
  have hbacked₀ : Backed s₀.core := by
    constructor <;> simp [Store.core, Table.total, hwallet, hpayment]
  obtain ⟨hnow, -⟩ := backed_serving.now hbacked₀ h
  have hbacked : Backed s.core := by
    cases t with
    | none => exact hnow
    | some t =>
      obtain ⟨_, _, _, hJ⟩ := hnow
      exact hJ.1
  exact hbacked.covers

/-- An administrator is the only user. -/
def treasury : Store where
  user := .single {
    id := 1, phone := "09120000000", passwordHash := ⟨""⟩, fullName := "", globalRole := .admin }

/-- A wallet is opened, and ten thousand toman are paid into it. -/
def paidIn : List (Request × List Env) :=
  [(.getWallet 1, List.replicate 2 (.of 0 1)),
    (.topup 1 .smallest, List.replicate 4 (.of 0 2)),
    (.handleCallback .mock (some 3), List.replicate 10 (.of 0 3))]

/-- A deposit of five thousand toman is due. -/
def depositDue : Store := { treasury with
  booking := .single {
    id := 7, userId := 1, businessId := 1, branchId := 1, staffMemberId := none, serviceId := 1
    startTime := 0, endTime := 30 * minute, status := .pending, priceSnapshot := 1000000, depositRequired := 500000
    cancellationPolicySnapshot := defaultCancellationPolicy } }

/-- The deposit is paid, and refunded. -/
def paidBack : List (Request × List Env) :=
  [(.initiate 1 { bookingId := 7, method := .gateway }, List.replicate 6 (.of 0 4)),
    (.handleCallback .mock (some 5), List.replicate 12 (.of 0 5)),
    (.refund 1 5 "", List.replicate 10 (.of 0 6))]

/-- A wallet holds what was paid into it, and what was refunded. -/
theorem nothing_minted_refund : ∃ s past, Serial Request.serve (fun _ _ => True)
      (fun t _ _ => NoTopupRefund t.notes) depositDue none s past ∧
    s.payment.rows.map Payment.status = [.success, .refunded] ∧ s.wallet.rows.map Wallet.balance = [1500000] ∧
    s.wallet.total Wallet.balance + s.payment.total Payment.walletPaid ≤
      s.payment.total Payment.taken := by
  have hreplays : Replays Request.serve (fun _ _ => True) (fun t _ _ => NoTopupRefund t.notes)
      depositDue (paidIn ++ paidBack) := by decide +kernel
  obtain ⟨past, hserial⟩ := Serial.replay .init hreplays
  exact ⟨_, past, hserial, by decide +kernel, by decide +kernel, nothing_minted rfl rfl hserial⟩

/-- The refund of a top-up pays it a second time. -/
theorem topup_refund_mints : ∃ s past, Serial Request.serve (fun _ _ => True)
      (fun _ _ _ => True) treasury none s past ∧
    s.payment.total Payment.taken <
      s.wallet.total Wallet.balance + s.payment.total Payment.walletPaid := by
  have hreplays : Replays Request.serve (fun _ _ => True) (fun _ _ _ => True) treasury
      (paidIn ++ [(.refund 1 3 "", List.replicate 10 (.of 0 4))]) := by decide +kernel
  obtain ⟨past, hserial⟩ := Serial.replay .init hreplays
  exact ⟨_, past, hserial, by decide +kernel⟩

end
end BookingPlatform
