import BookingPlatform.Conservation
import BookingPlatform.Lanes
import BookingPlatform.Ledger
import BookingPlatform.Verification

/-! Wallet payments, callbacks and refunds that run against each other. -/
namespace BookingPlatform
open Async Data

/-- The requests that move money. -/
def Request.MovesMoney : Request → Prop
  | initiate _ dto => dto.method = .wallet
  | handleCallback .. | refund .. => True
  | _ => False

/-- The balance is the sum of the amounts. -/
def Sums (x : Money) (l : List WalletTransaction) : Prop :=
  x = (l.map WalletTransaction.amount).sum

instance {x : Money} {l : List WalletTransaction} : Decidable (Sums x l) :=
  inferInstanceAs (Decidable (x = (l.map WalletTransaction.amount).sum))

/-- No payment has two refund rows. -/
def OncePerPayment (l : List WalletTransaction) : Prop :=
  l.Pairwise fun r r' => r.type = .refund → r'.type = .refund → r.referenceId ≠ r'.referenceId

/-- No row of this type has this reference. -/
def NoRow (t : Table WalletTransaction) (type : WalletTxType) (ref : Id) : Prop :=
  ∀ r ∈ t.rows, r.type = type → r.referenceId ≠ some ref

/-- Balances are sums, and what may still be paid or refunded has not been yet. -/
structure Consistent (c : Core) : Prop where
  books : Books Sums c.wallet c.walletTransaction
  once : OncePerBooking c.walletTransaction.rows
  refundedOnce : OncePerPayment c.walletTransaction.rows
  pending : ∀ b ∈ c.booking.rows, b.status = .pending → NoRow c.walletTransaction .payment b.id
  refunded : ∀ r ∈ c.walletTransaction.rows, r.type = .refund → ∃ p ∈ c.payment.rows,
    r.referenceId = some p.id ∧ p.callbackVerifiedAt.isSome
  success : ∀ p ∈ c.payment.rows, p.status = .success →
    p.callbackVerifiedAt.isSome ∧ NoRow c.walletTransaction .refund p.id
  used : ∀ p ∈ c.payment.rows, p.callbackVerifiedAt.isSome → ∀ ref, p.gatewayRefId = some ref →
    Used c.session ref

/-- What a note of these requests says of the store while nobody overtakes it. -/
def Note.ofMoney (c : Core) : Note → Prop
  | .balance userId walletId amount => BalanceRead c.wallet userId walletId amount
  | .due bookingId _ _ => NoRow c.walletTransaction .payment bookingId
  | .handling p => ∃ q ∈ c.payment.rows, q.id = p.id ∧ q.gatewayRefId = p.gatewayRefId
  | .finalising id ref => (∃ q ∈ c.payment.rows,
    q.id = id ∧ q.gatewayRefId = some ref ∧ q.callbackVerifiedAt = none) ∧ Used c.session ref
  | .refunding p => (∃ q ∈ c.payment.rows, q.id = p.id ∧ q.callbackVerifiedAt.isSome) ∧
    NoRow c.walletTransaction .refund p.id
  | .acts _ | .paying _ | .walletless _ | .unpayable _ | .locked .. | .counted .. | .points ..
  | .referred _ | .auth _ => True
  | _ => False

/-- Two requests that read the same balance, passed the check of the same booking, or passed
that of the same payment. -/
def Note.sameMoney : Note → Note → Prop
  | .balance u w _, .balance u' w' _ => u = u' ∨ w = w'
  | .due b _ _, .due b' _ _ => b = b'
  | .refunding p, .refunding p' => p.id = p'.id
  | _, _ => False

def rivalMoney (_ : Store) (x y : Note) : Prop := x.sameMoney y

instance (s : Store) (x y : Note) : Decidable (rivalMoney s x y) := by
  unfold rivalMoney Note.sameMoney
  split <;> infer_instance

/-- What a change adds to the ledger, and what it does to the rows that this is about. -/
inductive Postings (ns : List Note) (c c' : Core) : Prop
  | nothing : c'.walletTransaction = c.walletTransaction → Postings ns c c'
  | row (r : WalletTransaction) : c'.walletTransaction.rows = c.walletTransaction.rows ++ [r] →
      (r.type = .payment → ∃ b u a, .due b u a ∈ ns ∧ r.referenceId = some b ∧
        ∀ b' ∈ c'.booking.rows, b'.id = b → b'.status = .confirmed) →
      (r.type = .refund → ∃ p, .refunding p ∈ ns ∧ r.referenceId = some p.id ∧
        ∀ p' ∈ c'.payment.rows, p'.id = p.id → p'.status = .refunded) → Postings ns c c'

section
variable {c c' : Core} {ns : List Note} {x y : Note} {type : WalletTxType} {ref : Id}

theorem StatusSet.status_of {id : Id} {next : BookingStatus} {t t' : Table Booking}
    (h : StatusSet id next t t') {b' : Booking} (hb' : b' ∈ t'.rows) (hid : b'.id = id) :
    b'.status = next := by
  obtain ⟨f, hf, hnext, rfl⟩ := h
  obtain ⟨b, hb, rfl⟩ := List.mem_map.mp hb'
  by_cases hp : b.id = id
  · simp only [hp, beq_self_eq_true, if_true]
    rw [hnext b]
  · simp [hp] at hid

theorem Change.postings (h : Change ns c c') : Postings ns c c' := by
  cases h with
  | credit p ref walletId x tp tw tl _ _ _ _ _ _ hpost =>
    obtain ⟨⟨id, hrows⟩, -⟩ := hpost
    exact .row _ hrows (by simp) (by simp)
  | payWallet userId bookingId walletId amount x p tp tw tl tb tr hdue _ _ _ _ _ _ _ _ _ _ _ _ _
      hpost hconfirm =>
    obtain ⟨⟨id, hrows⟩, -⟩ := hpost
    refine .row _ hrows (fun _ => ?_) (by simp)
    exact ⟨bookingId, userId, amount, hdue, rfl, fun b' hb' hid => hconfirm.status_of hb' hid⟩
  | refund p walletId x row tp tw tw' tl hrefunding _ hset _ _ hpost _ _ _ =>
    obtain ⟨⟨id, hrows⟩, -⟩ := hpost
    refine .row _ hrows (by simp) fun _ => ?_
    exact ⟨p, hrefunding, rfl, fun p' hp' hid => hset.status_of hp' hid⟩
  | _ => exact .nothing rfl

/-- A row comes with the note that stands for it. -/
theorem Postings.noRow (h : Postings ns c c') (hno : NoRow c.walletTransaction type ref)
    (hpayment : type = .payment → ∀ u a, .due ref u a ∉ ns)
    (hrefund : type = .refund → ∀ p, .refunding p ∈ ns → p.id ≠ ref)
    (htype : type = .payment ∨ type = .refund) : NoRow c'.walletTransaction type ref := by
  cases h with
  | nothing hsame =>
    rw [hsame]
    exact hno
  | row r hrows hpay hback =>
    intro q hq hqtype href
    rw [hrows] at hq
    rcases List.mem_append.mp hq with hq | hq
    · exact hno q hq hqtype href
    · obtain rfl := List.mem_singleton.mp hq
      rcases htype with rfl | rfl
      · obtain ⟨b, u, a, hdue, hb, -⟩ := hpay hqtype
        obtain rfl : b = ref := Option.some.inj (hb.symm.trans href)
        exact hpayment rfl u a hdue
      · obtain ⟨p, hp, hpid, -⟩ := hback hqtype
        exact hrefund rfl p hp (Option.some.inj (hpid.symm.trans href))

/-- Whoever moves money makes no booking PENDING. -/
theorem Change.pending_before (h : Change ns c c') (hns : ∀ x ∈ ns, x.ofMoney c) {b' : Booking}
    (hb' : b' ∈ c'.booking.rows) (hpending : b'.status = .pending) :
    ∃ b ∈ c.booking.rows, b.id = b'.id ∧ b.status = .pending := by
  have confirmed {id : Id} {t : Table Booking} (ht : StatusSet id .confirmed c.booking t)
      (hb' : b' ∈ t.rows) : ∃ b ∈ c.booking.rows, b.id = b'.id ∧ b.status = .pending := by
    obtain ⟨f, hf, hnext, rfl⟩ := ht
    obtain ⟨b, hb, rfl⟩ := List.mem_map.mp hb'
    by_cases hp : b.id = id
    · simp only [hp, beq_self_eq_true, if_true] at hpending
      rw [hnext b] at hpending
      simp at hpending
    · simp only [beq_iff_eq, hp, if_false] at hpending ⊢
      exact ⟨b, hb, rfl, hpending⟩
  cases h with
  | book bs t hrows hbs _ =>
    change b' ∈ t.rows at hb'
    rw [hrows] at hb'
    rcases List.mem_append.mp hb' with hb' | hb'
    · exact ⟨b', hb', rfl, hpending⟩
    · have := (hbs b' hb').2.1
      simp [hpending] at this
  | move id branchId staffMemberId startTime endTime t hlane _ _ _ => exact (hns _ hlane).elim
  | status id next t tr haims _ _ => exact (hns _ haims).elim
  | release now t hreleasing _ => exact (hns _ hreleasing).elim
  | confirmPaid p ref bookingId tp tb tr _ _ _ _ _ _ ht => exact confirmed ht hb'
  | payWallet userId bookingId walletId amount x p tp tw tl tb tr _ _ _ _ _ _ _ _ _ _ _ _ _ _ _ ht =>
    exact confirmed ht hb'
  | _ => exact ⟨b', hb', rfl, hpending⟩

theorem Change.payment_row (h : Change ns c c') (hns : ∀ x ∈ ns, x.ofMoney c) {p' : Payment}
    (hp' : p' ∈ c'.payment.rows) :
    (∃ p ∈ c.payment.rows, p.Becomes ns p' ∧ p'.id = p.id ∧ p'.gatewayRefId = p.gatewayRefId) ∨
      (∀ p ∈ c.payment.rows, p.id ≠ p'.id) ∧ p'.Begins ns := by
  rcases h.repaid.comes p' hp' with ⟨p, hp, hbecomes⟩ | hnew
  · exact .inl ⟨p, hp, hbecomes, hbecomes.fields.1, hbecomes.gatewayRefId fun q hq => hns _ hq⟩
  · exact .inr hnew

theorem Payment.Begins.verified {p : Payment} (h : p.Begins ns) :
    p.gatewayRefId = none ∧ (p.status = .success → p.callbackVerifiedAt.isSome) := by
  cases h with
  | deposit b hst _ href _ => exact ⟨href, by simp [hst]⟩
  | topup hst _ href _ => exact ⟨href, by simp [hst]⟩
  | wallet b _ _ href hverified => exact ⟨href, fun _ => hverified⟩

theorem Consistent.change (h : Consistent c) (hns : ∀ x ∈ ns, x.ofMoney c) (hc : Change ns c c') :
    Consistent c' := by
  have hpostings := hc.postings
  have hfinalising {id ref : Id} (hmem : .finalising id ref ∈ ns) {p : Payment}
      (hp : p ∈ c.payment.rows) (hid : p.id = id) :
      p.gatewayRefId = some ref ∧ p.callbackVerifiedAt = none := by
    obtain ⟨⟨q, hq, hqid, hqref, hverified⟩, -⟩ := hns _ hmem
    obtain rfl := payment_eq hp hq (hid.trans hqid.symm)
    exact ⟨hqref, hverified⟩
  have hverified {p : Payment} (hp : p ∈ c.payment.rows) (hnone : p.callbackVerifiedAt = none) :
      NoRow c.walletTransaction .refund p.id := by
    intro r hr htype href
    obtain ⟨q, hq, hqref, hsome⟩ := h.refunded r hr htype
    obtain rfl := payment_eq hp hq (Option.some.inj (href.symm.trans hqref))
    simp [hnone] at hsome
  constructor
  case books =>
    refine hc.books h.books rfl (fun _ _ _ hbalance => hns _ hbalance) ?_
    intro x a l r _ hl hamount _
    simp [Sums, hamount, show x = _ from hl]
  case once =>
    cases hpostings with
    | nothing hsame =>
      rw [hsame]
      exact h.once
    | row r hrows hpay _ =>
      rw [hrows]
      refine List.pairwise_append.mpr ⟨h.once, List.pairwise_singleton _ _, ?_⟩
      intro q hq r' hr' hqtype hrtype
      obtain rfl := List.mem_singleton.mp hr'
      obtain ⟨b, u, a, hdue, href, -⟩ := hpay hrtype
      rw [href]
      exact hns _ hdue q hq hqtype
  case refundedOnce =>
    cases hpostings with
    | nothing hsame =>
      rw [hsame]
      exact h.refundedOnce
    | row r hrows _ hback =>
      rw [hrows]
      refine List.pairwise_append.mpr ⟨h.refundedOnce, List.pairwise_singleton _ _, ?_⟩
      intro q hq r' hr' hqtype hrtype
      obtain rfl := List.mem_singleton.mp hr'
      obtain ⟨p, hp, href, -⟩ := hback hrtype
      rw [href]
      exact (hns _ hp).2 q hq hqtype
  case pending =>
    intro b' hb' hpending
    obtain ⟨b, hb, hid, hst⟩ := hc.pending_before hns hb' hpending
    have hno := h.pending b hb hst
    rw [hid] at hno
    cases hpostings with
    | nothing hsame =>
      rw [hsame]
      exact hno
    | row r hrows hpay _ =>
      intro q hq hqtype href
      rw [hrows] at hq
      rcases List.mem_append.mp hq with hq | hq
      · exact hno q hq hqtype href
      · obtain rfl := List.mem_singleton.mp hq
        obtain ⟨b₁, -, -, -, hb₁, hconfirmed⟩ := hpay hqtype
        have := hconfirmed b' hb' (Option.some.inj (href.symm.trans hb₁))
        simp [hpending] at this
  case refunded =>
    have hold : ∀ r ∈ c.walletTransaction.rows, r.type = .refund → ∃ p ∈ c'.payment.rows,
        r.referenceId = some p.id ∧ p.callbackVerifiedAt.isSome := by
      intro r hr htype
      obtain ⟨p, hp, href, hsome⟩ := h.refunded r hr htype
      obtain ⟨p', hp', hbecomes⟩ := hc.repaid.stays p hp
      exact ⟨p', hp', hbecomes.fields.1 ▸ href, hbecomes.verified.1 hsome⟩
    cases hpostings with
    | nothing hsame =>
      rw [hsame]
      exact hold
    | row r hrows _ hback =>
      intro q hq hqtype
      rw [hrows] at hq
      rcases List.mem_append.mp hq with hq | hq
      · exact hold q hq hqtype
      · obtain rfl := List.mem_singleton.mp hq
        obtain ⟨p, hp, href, -⟩ := hback hqtype
        obtain ⟨⟨p₀, hp₀, hid, hsome⟩, -⟩ := hns _ hp
        obtain ⟨p', hp', hbecomes⟩ := hc.repaid.stays p₀ hp₀
        exact ⟨p', hp', by rw [href, hbecomes.fields.1, hid], hbecomes.verified.1 hsome⟩
  case success =>
    intro p' hp' hst
    have hno : p'.callbackVerifiedAt.isSome ∧ NoRow c.walletTransaction .refund p'.id := by
      rcases hc.payment_row hns hp' with ⟨p, hp, hbecomes, hid, -⟩ | ⟨hnew, hbegins⟩
      · rw [hid]
        rcases hbecomes.success hst with hs | ⟨⟨ref, hmem⟩, hsome⟩
        · obtain ⟨hsome, hno⟩ := h.success p hp hs
          exact ⟨hbecomes.verified.1 hsome, hno⟩
        · exact ⟨hsome, hverified hp (hfinalising hmem hp rfl).2⟩
      · refine ⟨hbegins.verified.2 hst, fun r hr htype href => ?_⟩
        obtain ⟨p, hp, hpref, -⟩ := h.refunded r hr htype
        exact hnew p hp (Option.some.inj (hpref.symm.trans href))
    refine ⟨hno.1, ?_⟩
    cases hpostings with
    | nothing hsame =>
      rw [hsame]
      exact hno.2
    | row r hrows _ hback =>
      intro q hq hqtype href
      rw [hrows] at hq
      rcases List.mem_append.mp hq with hq | hq
      · exact hno.2 q hq hqtype href
      · obtain rfl := List.mem_singleton.mp hq
        obtain ⟨p, -, hpref, hrefunded⟩ := hback hqtype
        have := hrefunded p' hp' (Option.some.inj (href.symm.trans hpref))
        simp [hst] at this
  case used =>
    intro p' hp' hsome ref href
    rw [hc.session]
    rcases hc.payment_row hns hp' with ⟨p, hp, hbecomes, -, hsame⟩ | ⟨-, hbegins⟩
    · rcases hbecomes.verified.2 hsome with hsome | ⟨ref', hmem⟩
      · exact h.used p hp hsome ref (hsame ▸ href)
      · obtain ⟨hpref, -⟩ := hfinalising hmem hp rfl
        obtain rfl : ref' = ref := Option.some.inj (hpref.symm.trans (hsame ▸ href))
        exact (hns _ hmem).2
    · simp [hbegins.verified.1] at href

/-! ### Notes -/

variable {r : Request} {held : List Note}

theorem Request.MovesMoney.takes (hr : r.MovesMoney) (hx : r.takes x) :
    x.aside ∨ (∃ u, x = .acts u) ∨ (∃ b, x = .paying b) ∨ (∃ u, x = .walletless u) ∨
      (∃ b, x = .unpayable b) ∨ (∃ b u a, x = .due b u a) ∨ (∃ u w a, x = .balance u w a) ∨
      (∃ p, x = .handling p) ∨ (∃ id ref, x = .finalising id ref) ∨ ∃ p, x = .refunding p := by
  cases r <;> simp only [Request.MovesMoney] at hr <;> cases x <;>
    simp_all [Request.takes, Request.user, Note.aside]

theorem BalanceRead.set {t t' : Table Wallet} {u u' w : Id} {a b : Money}
    (h : BalanceRead t u w a) (hset : WalletSet u' b t t') (hne : u ≠ u') :
    BalanceRead t' u w a := by
  rcases h with ⟨q, hq, rfl, hid, hbalance⟩ | ⟨hnone, hzero⟩
  · exact .inl ⟨q, hset.mem_iff.mpr ⟨q, hq, if_neg hne⟩, rfl, hid, hbalance⟩
  · refine .inr ⟨fun q' hq' => ?_, hzero⟩
    obtain ⟨q, hq, rfl⟩ := hset.mem_iff.mp hq'
    split <;> exact hnone q hq

/-- The wallet that a refund opens is neither the reader's nor the one that was read. -/
theorem BalanceRead.insert {t t' : Table Wallet} {u w : Id} {a : Money} {q : Wallet}
    (h : BalanceRead t u w a) (ht : t'.rows = t.rows ++ [q]) (hu : q.userId ≠ u) (hw : q.id ≠ w) :
    BalanceRead t' u w a := by
  rcases h with ⟨q', hq', h⟩ | ⟨hnone, hzero⟩
  · exact .inl ⟨q', by rw [ht]; exact List.mem_append_left _ hq', h⟩
  · refine .inr ⟨fun q' hq' => ?_, hzero⟩
    rw [ht] at hq'
    rcases List.mem_append.mp hq' with hq' | hq'
    · exact hnone q' hq'
    · obtain rfl := List.mem_singleton.mp hq'
      exact ⟨hu, hw⟩

theorem ofMoney_grounds (hr : r.MovesMoney) (hc : Consistent c) (hc' : Consistent c')
    (hheld : ∀ y ∈ held, y.ofMoney c') (hx : r.takes x) (h : Grounds held c c' x) :
    x.ofMoney c' := by
  rcases hr.takes hx with haside | ⟨u, rfl⟩ | ⟨b, rfl⟩ | ⟨u, rfl⟩ | ⟨b, rfl⟩ | ⟨b, u, a, rfl⟩ |
    ⟨u, w, a, rfl⟩ | ⟨p, rfl⟩ | ⟨id, ref, rfl⟩ | ⟨p, rfl⟩
  · cases x <;> trivial
  · trivial
  · trivial
  · trivial
  · trivial
  · obtain ⟨-, b', hb', rfl, -, hpending, -⟩ := h
    exact hc'.pending b' hb' hpending
  · exact h
  · exact ⟨p, h.1, rfl, rfl⟩
  · obtain ⟨⟨p, hp, rfl, href, s, hs, hid, hunused, -⟩, hused, hpayment, -⟩ := h
    obtain ⟨q, hq, hqid, hqref⟩ := hheld _ hp
    refine ⟨⟨q, hq, hqid, hqref.trans href, ?_⟩, hused⟩
    -- Had the payment been verified already, its reference would have been used.
    by_contra hverified
    rw [hpayment] at hq
    obtain ⟨s', hs', hid', hused'⟩ := hc.used q hq (Option.isSome_iff_ne_none.mpr hverified) ref
      (hqref.trans href)
    obtain rfl : s = s' := Table.eq_of_clash hs hs' (by simp [Indexed.clash, hid, hid'])
    simp [hunused] at hused'
  · obtain ⟨hp, hst⟩ := h
    obtain ⟨hsome, hno⟩ := hc'.success p hp hst
    exact ⟨⟨p, hp, rfl, hsome⟩, hno⟩

theorem Asked.ofMoney (h : Asked c c') (hx : x.ofMoney c) : x.ofMoney c' := by
  cases x with
  | finalising id ref =>
    have hused := h.used hx.2
    obtain ⟨t, rfl⟩ := h.core_eq
    exact ⟨hx.1, hused⟩
  | _ =>
    obtain ⟨t, rfl⟩ := h.core_eq
    exact hx

theorem Consistent.asked (hc : Consistent c) (h : Asked c c') : Consistent c' := by
  have hused {ref : Id} (hu : Used c.session ref) : Used c'.session ref := h.used hu
  obtain ⟨t, rfl⟩ := h.core_eq
  exact ⟨hc.books, hc.once, hc.refundedOnce, hc.pending, hc.refunded, hc.success,
    fun p hp hsome ref href => hused (hc.used p hp hsome ref href)⟩

theorem meaning_ofMoney (hr : r.MovesMoney) : Meaning (contract r.takes)
    (fun s => Consistent s.core) (fun x s => x.ofMoney s.core) where
  grounds hs hs' hheld hx := ofMoney_grounds hr hs hs' hheld (Request.takes_of_noted hx) hx.2
  auto hs hns h := ⟨hs.asked h, fun x hx => Asked.ofMoney h (hns x hx)⟩
  commit hs hns h := hs.change hns h

/-- A change of this wallet leaves a balance that was read elsewhere. -/
theorem Change.balance (h : Change ns c c') (hns : ∀ y ∈ ns, y.ofMoney c) {u w : Id} {a : Money}
    (hno : ∀ y ∈ ns, ¬ (Note.balance u w a).sameMoney y) (hx : BalanceRead c.wallet u w a) :
    BalanceRead c'.wallet u w a := by
  cases h with
  | newWallet q t henrolling _ _ _ => exact (hns _ henrolling).elim
  | credit p ref walletId x tp tw tl _ _ hbalance _ _ hwallet _ =>
    exact hx.set hwallet fun hu => hno _ hbalance (.inl hu)
  | payWallet userId bookingId walletId amount x p tp tw tl tb tr _ _ hbalance _ _ _ _ _ _ _ _ _ _
      hwallet _ _ => exact hx.set hwallet fun hu => hno _ hbalance (.inl hu)
  | refund p walletId x row tp tw tw' tl _ hbalance _ hopened hwallet hpost _ _ _ =>
    have hu : u ≠ p.userId := fun hu => hno _ hbalance (.inl hu)
    have hw : w ≠ walletId := fun hw => hno _ hbalance (.inr hw)
    obtain ⟨q, -, hqu, hqw, -, hsame⟩ := hopened.row hwallet (hns _ hbalance) hpost.2
    rcases hsame with rfl | ⟨-, -, hrows⟩
    · exact hx.set hwallet hu
    · refine (hx.insert hrows ?_ ?_).set hwallet hu
      · rw [hqu]
        exact hu.symm
      · rw [hqw]
        exact hw.symm
  | _ => exact hx

theorem steady_ofMoney : Steady (contract r.takes) (fun s => Consistent s.core)
    (fun x s => x.ofMoney s.core) (fun s x y => rivalMoney s x y ∨ x.sameRef y) where
  auto _ hx h := Asked.ofMoney h hx
  commit := by
    intro ns s s' x _ hns h hrival hx
    have hc : Change ns s.core s'.core := h
    have hno : ∀ y ∈ ns, ¬ x.sameMoney y := fun y hy hsame => hrival y hy (.inl hsame)
    have hsession : s'.core.session = s.core.session := hc.session
    cases x with
    | balance u w a => exact hc.balance hns hno hx
    | due b u a =>
      exact hc.postings.noRow hx (fun _ u' a' hdue => hno _ hdue rfl) (by simp) (.inl rfl)
    | handling p =>
      obtain ⟨q, hq, hid, href⟩ := hx
      obtain ⟨q', hq', hbecomes⟩ := hc.repaid.stays q hq
      exact ⟨q', hq', hbecomes.fields.1.trans hid,
        (hbecomes.gatewayRefId fun p hp => hns _ hp).trans href⟩
    | finalising id ref =>
      obtain ⟨⟨q, hq, hid, href, hnone⟩, hused⟩ := hx
      obtain ⟨q', hq', hbecomes⟩ := hc.repaid.stays q hq
      refine ⟨⟨q', hq', hbecomes.fields.1.trans hid,
        (hbecomes.gatewayRefId fun p hp => hns _ hp).trans href, ?_⟩, ?_⟩
      · by_contra hsome
        rcases hbecomes.verified.2 (Option.isSome_iff_ne_none.mpr hsome) with hv | ⟨ref', hmem⟩
        · simp [hnone] at hv
        · -- Only who verified the same reference may write this.
          obtain ⟨⟨q₁, hq₁, hid₁, href₁, -⟩, -⟩ := hns _ hmem
          obtain rfl := payment_eq hq hq₁ hid₁.symm
          have hsame : ref = ref' := Option.some.inj (href.symm.trans href₁)
          exact hrival _ hmem (.inr hsame)
      · rw [hsession]
        exact hused
    | refunding p =>
      obtain ⟨⟨q, hq, hid, hsome⟩, hnone⟩ := hx
      obtain ⟨q', hq', hbecomes⟩ := hc.repaid.stays q hq
      refine ⟨⟨q', hq', hbecomes.fields.1.trans hid, hbecomes.verified.1 hsome⟩, ?_⟩
      exact hc.postings.noRow hnone (by simp)
        (fun _ p' hp' hid' => hno _ hp' hid'.symm) (.inr rfl)
    | acts | paying | walletless | unpayable | locked | counted | points | referred | auth =>
      trivial
    | _ => exact hx.elim

/-! ### Runs -/

/-- As long as no commit overtakes a reader of the same balance, of the same booking's or of
the same payment's status, no money is lost or made by requests that run at the same time. -/
theorem wallets_of_run {ι : Type} [DecidableEq ι] {r : ι → Request} (hr : ∀ i, (r i).MovesMoney)
    {s₀ : Store} (h₀ : Consistent s₀.core) {conf : Config ι Env Store Err Note Unit}
    {past : List (ι × Store)} (hrun : Run (fun c i _ => ¬ c.Overtakes rivalMoney i)
      (.start (fun i => (r i).serve) s₀) conf past) :
    (∀ w ∈ conf.store.wallet.rows, Sums w.balance (ledger conf.store.walletTransaction w.id)) ∧
      OncePerBooking conf.store.walletTransaction.rows ∧
      OncePerPayment conf.store.walletTransaction.rows := by
  have hmeant : Meant (fun s => Consistent s.core) (fun x s => x.ofMoney s.core) conf := by
    refine Run.meant (Request.concurrent r) (fun i => meaning_ofMoney (hr i)) h₀ ?_ hrun
    intro c past i g hc hmeant ha
    refine Run.undisturbed (Request.concurrent r) (fun _ => steady_ofMoney) hc hmeant ha ?_
    rintro ⟨hcommitting, j, hj, hres, x, hx, y, hy, hrival | hsame⟩
    · exact ha ⟨hcommitting, j, hj, hres, x, hx, y, hy, hrival⟩
    · exact Run.not_sameRef hc hj hx hy hsame
  obtain ⟨hconsistent, -⟩ := hmeant
  exact ⟨hconsistent.books.fits, hconsistent.once, hconsistent.refundedOnce⟩

/-- A wallet for which two top-ups wait at the gateway. -/
def twoTopups : Store := { treasury with
  wallet := .single { id := 9, userId := 1 }
  payment := ⟨[
    { id := 21, userId := 1, type := .walletTopup, amount := 1000000, gateway := .mock, gatewayRefId := some 31 },
    { id := 22, userId := 1, type := .walletTopup, amount := 1000000, gateway := .mock, gatewayRefId := some 32 }],
    by decide⟩
  session := ⟨[{ id := 31, amount := 1000000 }, { id := 32, amount := 1000000 }], by decide⟩ }

theorem twoTopups_consistent : Consistent twoTopups.core := by
  constructor
  case books => constructor <;> simp [Store.core, twoTopups, treasury, Table.empty, Table.single, ledger, Sums]
  all_goals simp [Store.core, twoTopups, treasury, Table.empty, OncePerBooking, OncePerPayment]

/-- Their callbacks. -/
def topupCallback (second : Bool) : Request := .handleCallback .mock (some (if second then 32 else 31))

/-- Both references are verified before either callback reads the balance, and the first one commits before the
second one does. -/
def verifiedFirst : List (Bool × Env) :=
  (List.replicate 3 [(false, .of 0 1), (true, .of 0 2)]).flatten ++ List.replicate 6 (false, .of 0 1) ++
    List.replicate 6 (true, .of 0 2)

theorem wallets_of_run_both : ∃ conf past, Run (fun c i _ => ¬ c.Overtakes rivalMoney i)
      (.start (fun i => (topupCallback i).serve) twoTopups) conf past ∧
    (∀ i, (conf.thread i).result.isSome) ∧ conf.store.wallet.rows.map Wallet.balance = [2000000] ∧
    ∀ w ∈ conf.store.wallet.rows, Sums w.balance (ledger conf.store.walletTransaction w.id) := by
  have hadmits : (Config.start (fun i => (topupCallback i).serve) twoTopups).Admits
      (fun c i _ => ¬ c.Overtakes rivalMoney i) verifiedFirst := by decide +kernel
  obtain ⟨past, hrun⟩ := Run.follow .refl hadmits
  obtain ⟨hsums, -⟩ := wallets_of_run (r := topupCallback) (fun _ => trivial) twoTopups_consistent hrun
  exact ⟨_, past, hrun, by decide +kernel, by decide +kernel, hsums⟩

/-- The second callback runs between what the first one reads and what it writes: a top-up is
lost. -/
theorem topup_lost : Consistent twoTopups.core ∧ ∃ conf past, Run (fun _ _ _ => True)
      (.start (fun i => (topupCallback i).serve) twoTopups) conf past ∧
    (∀ i, (conf.thread i).result.isSome) ∧
    ∃ w ∈ conf.store.wallet.rows, ¬ Sums w.balance (ledger conf.store.walletTransaction w.id) := by
  obtain ⟨past, hrun⟩ := Run.follow .refl (Config.admits_all
    (.start (fun i => (topupCallback i).serve) twoTopups)
    (List.replicate 6 (false, .of 0 1) ++ List.replicate 9 (true, .of 0 2) ++
      List.replicate 3 (false, .of 0 3)))
  exact ⟨twoTopups_consistent, _, past, hrun, by decide +kernel, by decide +kernel⟩

end
end BookingPlatform
