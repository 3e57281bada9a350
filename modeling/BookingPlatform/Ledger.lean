import BookingPlatform.Conservation
import BookingPlatform.BookingTable
import BookingPlatform.Delivery
import BookingPlatform.Registration
import Mathlib.Algebra.Order.Group.Multiset

/-! Payments, the wallet ledger and the audit log over serial runs without failures. -/
namespace BookingPlatform
open Async Data

/-! ### Running balances -/

/-- The balance after the last row. -/
def endBalance : Money → List WalletTransaction → Money
  | x, [] => x
  | _, r :: rest => endBalance r.balanceAfter rest

/-- Every row adds its amount to the balance before it, and no balance is negative. -/
def Tallies : Money → List WalletTransaction → Prop
  | _, [] => True
  | x, r :: rest => r.balanceAfter = x + r.amount ∧ 0 ≤ r.balanceAfter ∧ Tallies r.balanceAfter rest

/-- The rows tally from nothing to this balance. -/
def TalliesTo (x : Money) (l : List WalletTransaction) : Prop :=
  0 ≤ x ∧ endBalance 0 l = x ∧ Tallies 0 l

theorem endBalance_append (x : Money) (l : List WalletTransaction) (r : WalletTransaction) :
    endBalance x (l ++ [r]) = r.balanceAfter := by
  induction l generalizing x with
  | nil => rfl
  | cons r' rest ih => exact ih r'.balanceAfter

theorem tallies_append {x : Money} {l : List WalletTransaction} {r : WalletTransaction} :
    Tallies x (l ++ [r]) ↔
      Tallies x l ∧ r.balanceAfter = endBalance x l + r.amount ∧ 0 ≤ r.balanceAfter := by
  induction l generalizing x with
  | nil => simp [Tallies, endBalance]
  | cons r' rest ih => simp only [List.cons_append, Tallies, endBalance, ih, and_assoc]

theorem TalliesTo.append {x a : Money} {l : List WalletTransaction} {r : WalletTransaction}
    (h : TalliesTo x l) (hamount : r.amount = a) (hafter : r.balanceAfter = x + a)
    (hnonneg : 0 ≤ x + a) : TalliesTo (x + a) (l ++ [r]) := by
  obtain ⟨-, hend, htallies⟩ := h
  refine ⟨hnonneg, (endBalance_append ..).trans hafter, tallies_append.mpr ⟨htallies, ?_, ?_⟩⟩
  · rw [hend, hamount, hafter]
  · rw [hafter]
    exact hnonneg

/-! ### Entries -/

/-- What a ledger row says: its type, its reference and its amount. -/
abbrev Entry := WalletTxType × Option Id × Money

def WalletTransaction.entry (r : WalletTransaction) : Entry := (r.type, r.referenceId, r.amount)

/-- The ledger rows that a payment calls for. -/
def Payment.entries (p : Payment) : Multiset Entry :=
  (if p.type = .deposit ∧ p.gateway = .wallet then {(.payment, p.bookingId, -p.amount)} else 0) +
  (if p.type = .walletTopup ∧ (p.status = .success ∨ p.status = .refunded) then
    {(.topup, some p.id, p.amount)} else 0) +
  (if p.status = .refunded then {(.refund, some p.id, p.amount)} else 0)

/-- What an audit row of a refund says. -/
def AuditLog.entry (r : AuditLog) : Id × Option Money := (r.entityId, r.metadata.amount)

/-- The audit rows that a payment calls for. -/
def Payment.audits (p : Payment) : Multiset (Id × Option Money) :=
  if p.status = .refunded then {(p.id, some p.amount)} else 0

/-- Rows that are paid from a wallet for different bookings. -/
def OncePerBooking (l : List WalletTransaction) : Prop :=
  l.Pairwise fun r r' => r.type = .payment → r'.type = .payment → r.referenceId ≠ r'.referenceId

/-- The tables of payments, wallets, ledger rows and audit rows agree. -/
structure Accounts (c : Core) : Prop where
  amounts : ∀ p ∈ c.payment.rows, 0 < p.amount
  deposits : ∀ p ∈ c.payment.rows, p.type = .deposit → ∃ b ∈ c.booking.rows,
    p.bookingId = some b.id ∧ p.amount = b.depositRequired
  topups : ∀ p ∈ c.payment.rows, p.type = .walletTopup → ∃ w ∈ c.wallet.rows, w.userId = p.userId
  owners : ∀ w ∈ c.wallet.rows, ∃ u ∈ c.user.rows, u.id = w.userId
  books : Books TalliesTo c.wallet c.walletTransaction
  entries : c.walletTransaction.total (fun r => ({r.entry} : Multiset Entry)) =
    c.payment.total Payment.entries
  audits : (c.refundLog.map AuditLog.entry : Multiset (Id × Option Money)) =
    c.payment.total Payment.audits
  booked : ∀ r ∈ c.walletTransaction.rows, r.type = .payment → ∃ b ∈ c.booking.rows,
    r.referenceId = some b.id ∧ b.status ≠ .hold ∧ b.status ≠ .pending
  once : OncePerBooking c.walletTransaction.rows

/-- The moves of a payment's status. -/
def PaymentStatus.Moves (st st' : PaymentStatus) : Prop :=
  st' = st ∨ st = .initiated ∧ (st' = .success ∨ st' = .failed) ∨ st = .success ∧ st' = .refunded

/-- Payments stay and move; new ones are INITIATED, or paid from a wallet at once. -/
def PaymentsMove (t t' : Table Payment) : Prop :=
  (∀ p ∈ t.rows, ∃ p' ∈ t'.rows, p'.id = p.id ∧ p.status.Moves p'.status) ∧
    ∀ p' ∈ t'.rows, (∃ p ∈ t.rows, p.id = p'.id) ∨ p'.status = .initiated ∨
      p'.status = .success ∧ p'.gateway = .wallet

section
variable {c c' : Core} {ns : List Note} {p p' : Payment} {t t' : Table Payment} {st : PaymentStatus}

/-- A request that settles a payment knows its status. -/
theorem Settles.moves (hns : ∀ x ∈ ns, x.stands c) (h : Settles ns p.id st)
    (hp : p ∈ c.payment.rows) : p.status.Moves st := by
  cases st with
  | initiated => exact h.elim
  | failed =>
    obtain ⟨q, hq, hid⟩ := h
    obtain ⟨hmem, hst⟩ := hns _ hq
    obtain rfl := payment_eq hmem hp hid
    exact .inr (.inl ⟨hst, .inr rfl⟩)
  | success =>
    obtain ⟨q, ref, hq, -, hid⟩ := h
    obtain ⟨hmem, hst⟩ := hns _ hq
    obtain rfl := payment_eq hmem hp hid
    exact .inr (.inl ⟨hst, .inl rfl⟩)
  | refunded =>
    obtain ⟨q, hq, hid⟩ := h
    obtain ⟨hmem, hst⟩ := hns _ hq
    obtain rfl := payment_eq hmem hp hid
    exact .inr (.inr ⟨hst, rfl⟩)

theorem Payment.Begins.status (h : p.Begins ns) :
    p.status = .initiated ∨ p.status = .success ∧ p.gateway = .wallet := by
  cases h with
  | deposit b hst => exact .inl hst
  | topup hst => exact .inl hst
  | wallet b hst hgateway => exact .inr ⟨hst, hgateway⟩

theorem Change.payments_move (h : Change ns c c') (hns : ∀ x ∈ ns, x.stands c) :
    PaymentsMove c.payment c'.payment := by
  constructor
  · intro p hp
    obtain ⟨p', hp', hbecomes⟩ := h.repaid.stays p hp
    refine ⟨p', hp', hbecomes.fields.1, ?_⟩
    rcases hbecomes.status with hsame | hsettles
    · exact .inl hsame
    · exact Settles.moves hns hsettles hp
  · intro p' hp'
    rcases h.repaid.comes p' hp' with ⟨p, hp, hbecomes⟩ | ⟨-, hbegins⟩
    · exact .inl ⟨p, hp, hbecomes.fields.1.symm⟩
    · exact .inr hbegins.status

/-! ### Single writes -/

/-- What a new status adds to a total over the payments. -/
theorem PaymentSet.total_add {A : Type} [AddCancelCommMonoid A] {g : Payment → A} {e : A}
    (h : PaymentSet p.id st t t') (hp : p ∈ t.rows)
    (he : ∀ p', Payment.Restated st p p' → g p' = g p + e) : t'.total g = t.total g + e := by
  obtain ⟨p', hp', hsum⟩ := h.total hp
  have := hsum g
  rw [he p' hp', add_comm (g p), ← add_assoc] at this
  exact add_right_cancel this

/-- A failure, and the success of a deposit at the gateway, call for no row. -/
theorem PaymentSet.calls_nothing (h : PaymentSet p.id st t t') (hp : p ∈ t.rows)
    (hinitiated : p.status = .initiated)
    (hst : st = .failed ∨ st = .success ∧ p.type ≠ .walletTopup) :
    t'.total Payment.entries = t.total Payment.entries ∧
      t'.total Payment.audits = t.total Payment.audits := by
  have hentries : ∀ p', Payment.Restated st p p' → p'.entries = p.entries + 0 := by
    intro p' hp'
    rw [hp'.1]
    rcases hst with rfl | ⟨rfl, htype⟩
    · simp [Payment.entries, hinitiated]
    · simp [Payment.entries, hinitiated, htype]
  have haudits : ∀ p', Payment.Restated st p p' → p'.audits = p.audits + 0 := by
    intro p' hp'
    rw [hp'.1]
    rcases hst with rfl | ⟨rfl, -⟩ <;> simp [Payment.audits, hinitiated]
  constructor
  · rw [h.total_add hp hentries, add_zero]
  · rw [h.total_add hp haudits, add_zero]

theorem Posted.entries {walletId ref : Id} {type : WalletTxType} {a y : Money} {tw : Table Wallet}
    {l l' : Table WalletTransaction} (h : Posted walletId type a y ref tw l l') :
    l'.total (fun r => ({r.entry} : Multiset Entry)) =
      l.total (fun r => ({r.entry} : Multiset Entry)) + {(type, some ref, a)} := by
  obtain ⟨⟨id, hrows⟩, -⟩ := h
  simp [Table.total, hrows, WalletTransaction.entry]

theorem WalletSet.stays {u : Id} {y : Money} {t t' : Table Wallet} (h : WalletSet u y t t')
    {w : Wallet} (hw : w ∈ t.rows) : ∃ w' ∈ t'.rows, w'.userId = w.userId := by
  refine ⟨_, h.mem_iff.mpr ⟨w, hw, rfl⟩, ?_⟩
  split <;> rfl

theorem WalletSet.comes {u : Id} {y : Money} {t t' : Table Wallet} (h : WalletSet u y t t')
    {w' : Wallet} (hw' : w' ∈ t'.rows) : ∃ w ∈ t.rows, w.userId = w'.userId := by
  obtain ⟨w, hw, rfl⟩ := h.mem_iff.mp hw'
  refine ⟨w, hw, ?_⟩
  split <;> rfl

/-- Wallets stay, and a new one belongs to a user. -/
theorem Change.wallets (h : Change ns c c') :
    (∀ w ∈ c.wallet.rows, ∃ w' ∈ c'.wallet.rows, w'.userId = w.userId) ∧
      ∀ w' ∈ c'.wallet.rows, (∃ w ∈ c.wallet.rows, w.userId = w'.userId) ∨
        ∃ u ∈ c.user.rows, u.id = w'.userId := by
  have insert {t t' : Table Wallet} {w : Wallet} (ht : t'.rows = t.rows ++ [w])
      (hw : ∃ u ∈ c.user.rows, u.id = w.userId) :
      (∀ w ∈ t.rows, ∃ w' ∈ t'.rows, w'.userId = w.userId) ∧
        ∀ w' ∈ t'.rows, (∃ w ∈ t.rows, w.userId = w'.userId) ∨
          ∃ u ∈ c.user.rows, u.id = w'.userId := by
    rw [ht]
    constructor
    · intro w' hw'
      exact ⟨w', List.mem_append_left _ hw', rfl⟩
    · intro w' hw'
      rcases List.mem_append.mp hw' with hw' | hw'
      · exact .inl ⟨w', hw', rfl⟩
      · exact .inr (List.mem_singleton.mp hw' ▸ hw)
  cases h with
  | newWallet w t _ ht _ huser => exact insert (Table.insert_rows ht) huser
  | credit p ref walletId x tp tw tl _ _ _ _ _ hwallet _ =>
    exact ⟨fun w hw => hwallet.stays hw, fun w hw => .inl (hwallet.comes hw)⟩
  | payWallet userId bookingId walletId amount x p tp tw tl tb tr _ _ _ _ _ _ _ _ _ _ _ _ _
      hwallet _ _ => exact ⟨fun w hw => hwallet.stays hw, fun w hw => .inl (hwallet.comes hw)⟩
  | refund p walletId x row tp tw tw' tl _ _ _ hopened hwallet _ _ _ _ =>
    have hopen : (∀ w ∈ c.wallet.rows, ∃ w' ∈ tw.rows, w'.userId = w.userId) ∧
        ∀ w' ∈ tw.rows, (∃ w ∈ c.wallet.rows, w.userId = w'.userId) ∨
          ∃ u ∈ c.user.rows, u.id = w'.userId := by
      rcases hopened with rfl | ⟨-, huser, id, hrows⟩
      · exact ⟨fun w hw => ⟨w, hw, rfl⟩, fun w hw => .inl ⟨w, hw, rfl⟩⟩
      · exact insert hrows huser
    constructor
    · intro w hw
      obtain ⟨w₁, hw₁, hu₁⟩ := hopen.1 w hw
      obtain ⟨w₂, hw₂, hu₂⟩ := hwallet.stays hw₁
      exact ⟨w₂, hw₂, hu₂.trans hu₁⟩
    · intro w hw
      obtain ⟨w₁, hw₁, hu₁⟩ := hwallet.comes hw
      rw [← hu₁]
      exact hopen.2 w₁ hw₁
  | _ => exact ⟨fun w hw => ⟨w, hw, rfl⟩, fun w hw => .inl ⟨w, hw, rfl⟩⟩

/-- Users stay, and only a registration adds one. -/
theorem Change.users (h : Change ns c c') :
    (∀ u ∈ c.user.rows, ∃ u' ∈ c'.user.rows, u'.id = u.id) ∧
      ∀ u' ∈ c'.user.rows, (∃ u ∈ c.user.rows, u.id = u'.id) ∨ .registering ∈ ns := by
  cases h with
  | newUser u t hregistering ht =>
    refine ⟨fun r hr => ⟨r, ?_, rfl⟩, fun _ _ => .inr hregistering⟩
    change r ∈ t.rows
    rw [Table.insert_rows ht]
    exact List.mem_append_left _ hr
  | profile userId t _ ht =>
    have hids {id : Id} : id ∈ t.rows.map User.id ↔ id ∈ c.user.rows.map User.id := by rw [ht]
    simp only [List.mem_map] at hids
    exact ⟨fun u hu => hids.mpr ⟨u, hu, rfl⟩, fun u hu => .inl (hids.mp ⟨u, hu, rfl⟩)⟩
  | _ => exact ⟨fun u hu => ⟨u, hu, rfl⟩, fun u hu => .inl ⟨u, hu, rfl⟩⟩

/-- The one new ledger row, if there is one; a payment is for a booking that it confirms. -/
theorem Change.ledger (h : Change ns c c') (hns : ∀ x ∈ ns, x.stands c) :
    c'.walletTransaction = c.walletTransaction ∨ ∃ r,
      c'.walletTransaction.rows = c.walletTransaction.rows ++ [r] ∧
        (r.type = .payment → ∃ b ∈ c.booking.rows, ∃ b' ∈ c'.booking.rows,
          r.referenceId = some b.id ∧ b'.id = b.id ∧ b.status = .pending ∧
            b'.status = .confirmed) := by
  cases h with
  | credit p ref walletId x tp tw tl _ _ _ _ _ _ hpost =>
    obtain ⟨⟨id, hrows⟩, -⟩ := hpost
    exact .inr ⟨_, hrows, by simp⟩
  | refund p walletId x row tp tw tw' tl _ _ _ _ _ hpost _ _ _ =>
    obtain ⟨⟨id, hrows⟩, -⟩ := hpost
    exact .inr ⟨_, hrows, by simp⟩
  | payWallet userId bookingId walletId amount x p tp tw tl tb tr _ hpaying _ _ _ _ _ _ _ _ _ _ _
      _ hpost hconfirm =>
    obtain ⟨⟨id, hrows⟩, -⟩ := hpost
    obtain ⟨b, hb, rfl, hpending⟩ := hns _ hpaying
    obtain ⟨b', hb', hid, hconfirmed⟩ := hconfirm.confirms hb
    exact .inr ⟨_, hrows, fun _ => ⟨b, hb, b', hb', rfl, hid, hpending, hconfirmed⟩⟩
  | _ => exact .inl rfl

/-! ### The invariant -/

theorem Accounts.rows (h : Accounts c) (hns : ∀ x ∈ ns, x.stands c) (hc : Change ns c c')
    (hwalleted : ∀ u, .acts u ∈ ns → ∃ w ∈ c.wallet.rows, w.userId = u) :
    ∀ p' ∈ c'.payment.rows, 0 < p'.amount ∧
      (p'.type = .deposit → ∃ b ∈ c'.booking.rows, p'.bookingId = some b.id ∧
        p'.amount = b.depositRequired) ∧
      (p'.type = .walletTopup → ∃ w ∈ c'.wallet.rows, w.userId = p'.userId) := by
  have hevolved := (hc.rebooked hns).evolved
  have hbooking {b : Booking} (hb : b ∈ c.booking.rows) :
      ∃ b' ∈ c'.booking.rows, b'.id = b.id ∧ b'.depositRequired = b.depositRequired := by
    obtain ⟨b', hb', hid⟩ := hevolved.stays b hb
    rcases hevolved.comes b' hb' with ⟨b₀, hb₀, hid₀, hterms, -⟩ | ⟨hnew, -⟩
    · obtain rfl := Table.id_eq hb₀ hb (hid₀.trans hid)
      simp only [Booking.terms, Prod.mk.injEq] at hterms
      exact ⟨b', hb', hid, hterms.2.2.2.2.1.symm⟩
    · exact absurd hid.symm (hnew b hb)
  have hdue {b u : Id} {a : Money} (hdue : .due b u a ∈ ns) : 0 < a ∧
      ∃ b' ∈ c'.booking.rows, b'.id = b ∧ a = b'.depositRequired := by
    obtain ⟨hpos, r, hr, rfl, -, -, rfl⟩ := hns _ hdue
    obtain ⟨b', hb', hid, hdeposit⟩ := hbooking hr
    exact ⟨hpos, b', hb', hid, hdeposit.symm⟩
  intro p' hp'
  rcases hc.repaid.comes p' hp' with ⟨p, hp, hbecomes⟩ | ⟨-, hbegins⟩
  · obtain ⟨-, hb, hu, htype, hamount, -⟩ := hbecomes.fields
    rw [hb, hu, htype, hamount]
    refine ⟨h.amounts p hp, fun hdeposit => ?_, fun htopup => ?_⟩
    · obtain ⟨b, hbmem, hbid, hsame⟩ := h.deposits p hp hdeposit
      obtain ⟨b', hb', hid, hdeposit'⟩ := hbooking hbmem
      exact ⟨b', hb', hid ▸ hbid, hsame.trans hdeposit'.symm⟩
    · obtain ⟨w, hw, hwu⟩ := h.topups p hp htopup
      obtain ⟨w', hw', hwu'⟩ := hc.wallets.1 w hw
      exact ⟨w', hw', hwu'.trans hwu⟩
  · cases hbegins with
    | deposit b _ _ _ _ htype hb hd =>
      obtain ⟨hpos, b', hb', rfl, hsame⟩ := hdue hd
      exact ⟨hpos, fun _ => ⟨b', hb', hb, hsame⟩, by simp [htype]⟩
    | topup _ _ _ _ htype _ hpos hacts =>
      obtain ⟨w, hw, hwu⟩ := hwalleted _ hacts
      obtain ⟨w', hw', hwu'⟩ := hc.wallets.1 w hw
      exact ⟨hpos, by simp [htype], fun _ => ⟨w', hw', hwu'.trans hwu⟩⟩
    | wallet b _ _ _ _ htype hb hd _ =>
      obtain ⟨hpos, b', hb', rfl, hsame⟩ := hdue hd
      exact ⟨hpos, fun _ => ⟨b', hb', hb, hsame⟩, by simp [htype]⟩

theorem Accounts.payments (h : Accounts c) (hns : ∀ x ∈ ns, x.stands c) (hc : Change ns c c') :
    (∀ r ∈ c'.walletTransaction.rows, r.type = .payment → ∃ b ∈ c'.booking.rows,
      r.referenceId = some b.id ∧ b.status ≠ .hold ∧ b.status ≠ .pending) ∧
      OncePerBooking c'.walletTransaction.rows := by
  have hevolved := (hc.rebooked hns).evolved
  have hold : ∀ r ∈ c.walletTransaction.rows, r.type = .payment → ∃ b ∈ c'.booking.rows,
      r.referenceId = some b.id ∧ b.status ≠ .hold ∧ b.status ≠ .pending := by
    intro r hr htype
    obtain ⟨b, hb, href, hpast⟩ := h.booked r hr htype
    obtain ⟨b', hb', hid⟩ := hevolved.stays b hb
    exact ⟨b', hb', hid ▸ href, past_of_allowed (hevolved.booking hb hb' hid) hpast⟩
  rcases hc.ledger hns with hsame | ⟨r, hrows, hpay⟩
  · rw [hsame]
    exact ⟨hold, h.once⟩
  · rw [hrows]
    refine ⟨fun q hq htype => ?_, List.pairwise_append.mpr ⟨h.once, List.pairwise_singleton _ _, ?_⟩⟩
    · rcases List.mem_append.mp hq with hq | hq
      · exact hold q hq htype
      · obtain rfl := List.mem_singleton.mp hq
        obtain ⟨b, -, b', hb', href, hid, -, hst⟩ := hpay htype
        exact ⟨b', hb', hid ▸ href, by simp [hst], by simp [hst]⟩
    · intro q hq r' hr' hqtype hrtype href
      obtain rfl := List.mem_singleton.mp hr'
      -- A booking that was paid before was past PENDING before.
      obtain ⟨b, hb, -, -, hrb, -, hpending, -⟩ := hpay hrtype
      obtain ⟨b₀, hb₀, hqb, -, hpast⟩ := h.booked q hq hqtype
      obtain rfl := Table.id_eq hb₀ hb (Option.some.inj (hqb.symm.trans (href.trans hrb)))
      exact hpast hpending

theorem Accounts.tallies (h : Accounts c) (hns : ∀ x ∈ ns, x.stands c) (hc : Change ns c c') :
    Books TalliesTo c'.wallet c'.walletTransaction := by
  refine hc.books h.books ⟨le_rfl, rfl, trivial⟩ (fun _ _ _ hbalance => hns _ hbalance) ?_
  intro x a l r hwhy hl hamount hafter
  refine hl.append hamount hafter ?_
  rcases hwhy with ⟨p, hp, rfl⟩ | hnonneg
  · have hmem : p ∈ c.payment.rows := by
      rcases hp with hp | hp
      · exact (hns _ hp).1
      · exact (hns _ hp).1
    have := h.amounts p hmem
    have := hl.1
    linarith
  · exact hnonneg

theorem Accounts.entries_change (h : Accounts c) (hns : ∀ x ∈ ns, x.stands c)
    (hc : Change ns c c') :
    c'.walletTransaction.total (fun r => ({r.entry} : Multiset Entry)) =
        c'.payment.total Payment.entries ∧
      (c'.refundLog.map AuditLog.entry : Multiset (Id × Option Money)) =
        c'.payment.total Payment.audits := by
  have hentries := h.entries
  have haudits := h.audits
  cases hc with
  | openPayment p t ht hstatus hgateway _ _ _ =>
    constructor
    · change _ = t.total _
      rw [Table.total_insert ht, hentries]
      simp [Payment.entries, hstatus, hgateway]
    · change _ = t.total _
      rw [Table.total_insert ht, ← haudits]
      simp [Payment.audits, hstatus]
  | link p ref t _ _ ht =>
    obtain ⟨hf, rfl⟩ := ht
    constructor
    · exact hentries.trans (Table.total_update_same hf fun _ => rfl).symm
    · exact haudits.trans (Table.total_update_same hf fun _ => rfl).symm
  | fail p t hhandling ht =>
    obtain ⟨hp, hst⟩ := hns _ hhandling
    obtain ⟨hsame, hsame'⟩ := ht.calls_nothing hp hst (.inl rfl)
    exact ⟨hentries.trans hsame.symm, haudits.trans hsame'.symm⟩
  | credit p ref walletId x tp tw tl hhandling _ _ htype hset _ hpost =>
    obtain ⟨hp, hst⟩ := hns _ hhandling
    constructor
    · change tl.total _ = tp.total _
      rw [hpost.entries, hentries, hset.total_add (e := {(.topup, some p.id, p.amount)}) hp]
      intro p' hp'
      rw [hp'.1]
      simp [Payment.entries, hst, htype]
    · change _ = tp.total _
      rw [hset.total_add (e := 0) hp fun p' hp' => by rw [hp'.1]; simp [Payment.audits, hst],
        ← haudits, add_zero]
  | confirmPaid p ref bookingId tp tb tr hhandling _ htype _ _ hset _ =>
    obtain ⟨hp, hst⟩ := hns _ hhandling
    obtain ⟨hsame, hsame'⟩ := hset.calls_nothing hp hst (.inr ⟨rfl, htype⟩)
    exact ⟨hentries.trans hsame.symm, haudits.trans hsame'.symm⟩
  | acceptOnly p ref tp hhandling _ hwalletless _ hset =>
    obtain ⟨hp, hst⟩ := hns _ hhandling
    have htype : p.type ≠ .walletTopup := by
      intro htype
      obtain ⟨w, hw, hu⟩ := h.topups p hp htype
      exact hns _ (hwalletless htype) w hw hu
    obtain ⟨hsame, hsame'⟩ := hset.calls_nothing hp hst (.inr ⟨rfl, htype⟩)
    exact ⟨hentries.trans hsame.symm, haudits.trans hsame'.symm⟩
  | payWallet userId bookingId walletId amount x p tp tw tl tb tr _ _ _ _ ht hbooking _ htype hstatus
      hamount hgateway _ _ _ hpost _ =>
    constructor
    · change tl.total _ = tp.total _
      rw [hpost.entries, hentries, Table.total_insert ht]
      simp [Payment.entries, htype, hgateway, hstatus, hbooking, hamount]
    · change _ = tp.total _
      rw [Table.total_insert ht, ← haudits]
      simp [Payment.audits, hstatus]
  | refund p walletId x row tp tw tw' tl hrefunding _ hset _ _ hpost _ hentity hmetadata =>
    obtain ⟨hp, hst⟩ := hns _ hrefunding
    constructor
    · change tl.total _ = tp.total _
      rw [hpost.entries, hentries, hset.total_add (e := {(.refund, some p.id, p.amount)}) hp]
      intro p' hp'
      rw [hp'.1]
      simp [Payment.entries, hst]
    · change ((c.refundLog ++ [row]).map AuditLog.entry : Multiset (Id × Option Money)) = tp.total _
      rw [List.map_append, ← Multiset.coe_add, haudits,
        hset.total_add (e := {(p.id, some p.amount)}) hp]
      · simp [AuditLog.entry, hentity, hmetadata]
      · intro p' hp'
        rw [hp'.1]
        simp [Payment.audits, hst]
  | _ => exact ⟨hentries, haudits⟩

theorem Accounts.change (h : Accounts c) (hns : ∀ x ∈ ns, x.stands c)
    (hwalleted : ∀ u, .acts u ∈ ns → ∃ w ∈ c.wallet.rows, w.userId = u) (hc : Change ns c c') :
    Accounts c' := by
  have hrows := h.rows hns hc hwalleted
  obtain ⟨hbooked, honce⟩ := h.payments hns hc
  obtain ⟨hentries, haudits⟩ := h.entries_change hns hc
  refine ⟨fun p hp => (hrows p hp).1, fun p hp => (hrows p hp).2.1, fun p hp => (hrows p hp).2.2,
    fun w hw => ?_, h.tallies hns hc, hentries, haudits, hbooked, honce⟩
  obtain ⟨u, hu, hid⟩ : ∃ u ∈ c.user.rows, u.id = w.userId := by
    rcases hc.wallets.2 w hw with ⟨w₀, hw₀, hu₀⟩ | huser
    · rw [← hu₀]
      exact h.owners w₀ hw₀
    · exact huser
  obtain ⟨u', hu', hid'⟩ := hc.users.1 u hu
  exact ⟨u', hu', hid'.trans hid⟩

end

/-! ### Runs -/

/-- Bookings, payments and the ledger are empty, and every user has an empty wallet. -/
structure Untouched (s : Store) : Prop where
  booking : s.booking.rows = []
  payment : s.payment.rows = []
  walletTransaction : s.walletTransaction.rows = []
  refundLog : s.core.refundLog = []
  balance : ∀ w ∈ s.wallet.rows, w.balance = 0
  owned : Owned s.core
  walleted : Walleted s.core

/-- What holds of the store during a request: a registration may just have added a user. -/
def Sheet (r : Request) (s : Store) : Prop :=
  Accounts s.core ∧ ((∀ dto, r ≠ .register dto) → Walleted s.core)

section
variable {r : Request} {accepts : Request → Store → Prop} {s₀ s : Store} {past : List Store}
  {t : Option (Thread Env Store Err Note Unit)}

theorem Untouched.accounts (h : Untouched s) : Accounts s.core := by
  obtain ⟨hbooking, hpayment, hledger, haudit, hbalance, howned, -⟩ := h
  have hbooks : Books TalliesTo s.core.wallet s.core.walletTransaction := by
    constructor
    · simp [Store.core, hledger]
    · intro w hw
      have hempty : ledger s.core.walletTransaction w.id = [] := by
        simp [ledger, Store.core, hledger]
      rw [hempty, hbalance w hw]
      exact ⟨le_rfl, rfl, trivial⟩
  constructor
  case owners => exact howned
  case books => exact hbooks
  case audits =>
    rw [haudit]
    simp [Table.total, Store.core, hpayment]
  all_goals simp [Store.core, Table.total, OncePerBooking, hpayment, hledger]

theorem sheet_meaning : Meaning (solo r.takes) (Sheet r) fun x s => r.takes x ∧ x.stands s.core where
  grounds _ _ hheld hx := ⟨Request.takes_of_noted hx, stands_grounds (fun y hy => (hheld y hy).2) hx.2⟩
  auto := by
    intro ns s s' ⟨haccounts, hwalleted⟩ hns h
    refine ⟨?_, fun x hx => ⟨(hns x hx).1, stands_asked h (hns x hx).2⟩⟩
    obtain ⟨t, ht⟩ := Asked.core_eq h
    rw [Sheet, ht]
    exact ⟨⟨haccounts.amounts, haccounts.deposits, haccounts.topups, haccounts.owners,
      haccounts.books, haccounts.entries, haccounts.audits, haccounts.booked, haccounts.once⟩,
      hwalleted⟩
  commit := by
    intro ns s s' ⟨haccounts, hwalleted⟩ hns h
    have hstands : ∀ x ∈ ns, x.stands s.core := fun x hx => (hns x hx).2
    have hchange : Change ns s.core s'.core := h
    constructor
    · refine haccounts.change hstands (fun u hu => ?_) hchange
      obtain ⟨htakes, v, hv, rfl⟩ := hns _ hu
      refine hwalleted (fun dto hr => ?_) v hv
      -- A registration is not made by anyone.
      subst r
      simp [Request.takes, Request.user] at htakes
    · intro hr u hu
      rcases hchange.users.2 u hu with ⟨u₀, hu₀, hid₀⟩ | hregistering
      · obtain ⟨w, hw, hid⟩ := hwalleted hr u₀ hu₀
        obtain ⟨w', hw', hid'⟩ := hchange.wallets.1 w hw
        exact ⟨w', hw', hid'.trans (hid.trans hid₀)⟩
      · obtain ⟨dto, hregister⟩ := (hns _ hregistering).1
        exact absurd hregister (hr dto)

theorem sheet_owes (h : Accounts s.core ∧ Walleted s.core) : wp (solo r.takes)
    (fun _ _ _ _ s => (∃ dto, r = .register dto) → Walleted s.core) r.serve none [] s s := by
  by_cases hr : ∃ dto, r = .register dto
  · obtain ⟨dto, rfl⟩ := hr
    refine wp_map (wp_mono (fun _ _ _ _ _ h _ => h) (register_walleted ⟨dto, rfl⟩
      (fun _ => .inl ⟨dto, rfl⟩) dto h.2 h.1.owners))
  · refine solo_of_contract (wp_mono (fun _ _ _ _ _ _ h => absurd h hr) (r.serve_owes s))

theorem sheet_serving : Serving Request.serve accepts (fun _ g s => Answers g s)
    (fun r => solo r.takes) (fun r _ _ _ _ s => (∃ dto, r = .register dto) → Walleted s.core)
    (fun s => Accounts s.core ∧ Walleted s.core)
    (fun r ns s => Sheet r s ∧ ∀ x ∈ ns, r.takes x ∧ x.stands s.core)
    (fun s s' => PaymentsMove s.payment s'.payment) where
  world h := h
  owes _ h := sheet_owes h
  accept := by
    intro r ns s h _ ht
    have hsheet : Sheet r s := ⟨h.1, fun _ => h.2⟩
    exact ⟨hsheet, sheet_meaning.taken hsheet ht⟩
  step := by
    intro r t g ns' s s' ⟨hsheet, hns⟩ _ hstep
    refine ⟨sheet_meaning.stepped hsheet hns hstep, ?_⟩
    have hsame : PaymentsMove s.payment s.payment := by
      constructor
      · exact fun p hp => ⟨p, hp, rfl, .inl rfl⟩
      · exact fun p hp => .inl ⟨p, hp, rfl⟩
    cases hstep with
    | keep ha _ =>
      obtain ⟨t, ht⟩ := Asked.core_eq ha
      have hpayment : s'.core.payment = s.core.payment := by rw [ht]
      rw [show s'.payment = s.payment from hpayment]
      exact hsame
    | clear hc _ =>
      rcases hc with hc | rfl
      · exact Change.payments_move hc fun x hx => (hns x hx).2
      · exact hsame
  reply := by
    intro r res w ns s' s ⟨⟨haccounts, hwalleted⟩, _⟩ hQ
    refine ⟨haccounts, ?_⟩
    by_cases hr : ∃ dto, r = .register dto
    · exact hQ hr
    · exact hwalleted fun dto h => hr ⟨dto, h⟩

/-- Payments, wallets, the ledger and the audit log agree, whatever is requested one after
another. -/
theorem ledger_agrees (h₀ : Untouched s₀)
    (h : Serial Request.serve accepts (fun _ g s => Answers g s) s₀ t s past) :
    (s :: past).IsChain (fun new old => PaymentsMove old.payment new.payment) ∧
    (∀ p ∈ s.payment.rows, p.type = .deposit → 0 < p.amount ∧ ∃ b ∈ s.booking.rows,
      p.bookingId = some b.id ∧ p.amount = b.depositRequired) ∧
    (∀ r ∈ s.walletTransaction.rows, ∃ w ∈ s.wallet.rows, w.id = r.walletId) ∧
    (∀ w ∈ s.wallet.rows, TalliesTo w.balance (ledger s.walletTransaction w.id)) ∧
    s.walletTransaction.total (fun r => ({r.entry} : Multiset Entry)) =
      s.payment.total Payment.entries ∧
    OncePerBooking s.walletTransaction.rows ∧
    (s.core.refundLog.map AuditLog.entry : Multiset (Id × Option Money)) =
      s.payment.total Payment.audits := by
  obtain ⟨hnow, hchain⟩ := sheet_serving.now ⟨h₀.accounts, h₀.walleted⟩ h
  have haccounts : Accounts s.core := by
    cases t with
    | none => exact hnow.1
    | some t =>
      obtain ⟨_, _, _, hJ⟩ := hnow
      exact hJ.1.1
  exact ⟨hchain, fun p hp hdeposit => ⟨haccounts.amounts p hp, haccounts.deposits p hp hdeposit⟩,
    haccounts.books.wallets, haccounts.books.fits, haccounts.entries, haccounts.once,
    haccounts.audits⟩

/-- The deposit shop, and its administrator's empty wallet. -/
def ledgerShop : Store := { depositShop with
  user := treasury.user
  wallet := .single { id := 9, userId := 1 } }

/-- A top-up is paid and refunded, and a deposit is paid from the wallet. -/
def dealings : List (Request × List Env) :=
  [(.topup 1 .smallest, List.replicate 4 (.of 0 2)),
    (.handleCallback .mock (some 3), List.replicate 10 (.of 0 3)),
    (.refund 1 3 "", List.replicate 10 (.of 0 4)), (halfHours false, List.replicate 11 (.of 0 5)),
    (.confirm 1 6, List.replicate 12 (.of 0 6)),
    (.initiate 1 { bookingId := 6, method := .wallet }, List.replicate 20 (.of 0 7))]

theorem ledger_agrees_dealings : ∃ s past, Serial Request.serve (fun _ _ => True)
      (fun _ g s => Answers g s) ledgerShop none s past ∧
    s.walletTransaction.rows.map WalletTransaction.balanceAfter = [1000000, 2000000, 1995000] ∧
    s.walletTransaction.total (fun r => ({r.entry} : Multiset Entry)) =
      s.payment.total Payment.entries := by
  have hreplays : Replays Request.serve (fun _ _ => True) (fun _ g s => Answers g s) ledgerShop
      dealings := by decide +kernel
  obtain ⟨past, hserial⟩ := Serial.replay .init hreplays
  have huntouched : Untouched ledgerShop := by
    constructor
    case refundLog => decide +kernel
    all_goals simp [ledgerShop, depositShop, shop, treasury, Table.empty, Table.single, Owned,
      Walleted, Store.core]
  obtain ⟨-, -, -, -, hentries, -⟩ := ledger_agrees huntouched hserial
  exact ⟨_, past, hserial, by decide +kernel, hentries⟩

end
end BookingPlatform
