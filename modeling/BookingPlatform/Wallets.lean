import BookingPlatform.Alone
import Mathlib.Algebra.Order.Ring.Int

/-! Writes of wallets, row by row. -/
namespace BookingPlatform
open Async Data

section rows
variable {t t' tw : Table Wallet} {r r' : Wallet} {u w : Id} {x y : Money}

theorem wallet_eq_of_user (hr : r ∈ t.rows) (hr' : r' ∈ t.rows) (h : r.userId = r'.userId) :
    r = r' :=
  Table.eq_of_clash hr hr' (by simp [Indexed.clash, h])

theorem wallet_eq_of_id (hr : r ∈ t.rows) (hr' : r' ∈ t.rows) (h : r.id = r'.id) : r = r' :=
  Table.eq_of_clash hr hr' (by simp [Indexed.clash, h])

theorem WalletSet.mem_iff (h : WalletSet u y t t') :
    r ∈ t'.rows ↔ ∃ q ∈ t.rows, (if q.userId = u then { q with balance := y } else q) = r := by
  obtain ⟨hf, rfl⟩ := h
  simp

theorem WalletSet.id_mem (h : WalletSet u y t t') (hw : ∃ r ∈ t'.rows, r.id = w) :
    ∃ r ∈ t.rows, r.id = w := by
  obtain ⟨r, hr, hid⟩ := hw
  obtain ⟨q, hq, rfl⟩ := h.mem_iff.mp hr
  refine ⟨q, hq, ?_⟩
  split at hid <;> exact hid

/-- The wallet that is written is the one that was read. -/
theorem WalletSet.row (h : WalletSet u y t t') (hread : BalanceRead t u w x)
    (hw : ∃ r ∈ t'.rows, r.id = w) : ∃ r ∈ t.rows, r.userId = u ∧ r.id = w ∧ r.balance = x := by
  rcases hread with hread | ⟨hnone, -⟩
  · exact hread
  · obtain ⟨r, hr, hid⟩ := h.id_mem hw
    exact absurd hid (hnone r hr).2

/-- The same when the wallet may have been opened just before. -/
theorem WalletOpened.row {users : Table User} (hopened : WalletOpened u users t tw) (h : WalletSet u y tw t')
    (hread : BalanceRead t u w x) (hw : ∃ r ∈ t'.rows, r.id = w) :
    ∃ r ∈ tw.rows, r.userId = u ∧ r.id = w ∧ r.balance = x ∧
      (tw = t ∨ (∀ q ∈ t.rows, q.userId ≠ u) ∧ x = 0 ∧ tw.rows = t.rows ++ [r]) := by
  obtain ⟨r', hr', hid'⟩ := h.id_mem hw
  rcases hread with ⟨r, hr, hu, hid, hx⟩ | ⟨hnone, hx⟩
  · rcases hopened with rfl | ⟨hno, -⟩
    · exact ⟨r, hr, hu, hid, hx, .inl rfl⟩
    · exact absurd hu (hno r hr)
  · rcases hopened with rfl | ⟨hno, -, id, hrows⟩
    · exact absurd hid' (hnone r' hr').2
    · have hmem := hr'
      rw [hrows] at hmem
      rcases List.mem_append.mp hmem with hmem | hmem
      · exact absurd hid' (hnone r' hmem).2
      · obtain rfl := List.mem_singleton.mp hmem
        exact ⟨_, hr', rfl, hid', hx.symm, .inr ⟨hno, hx, hrows⟩⟩

theorem WalletSet.total (h : WalletSet u y t t') (hr : r ∈ t.rows) (hu : r.userId = u) :
    t'.total Wallet.balance + r.balance = t.total Wallet.balance + y := by
  obtain ⟨hf, rfl⟩ := h
  refine Table.total_update hf Wallet.balance hr (by simpa using hu) fun q hq hp => ?_
  exact wallet_eq_of_user hq hr ((by simpa using hp : q.userId = u).trans hu.symm)

end rows

/-! ### Wallets and their ledgers -/

/-- The ledger rows of a wallet, oldest first. -/
def ledger (l : Table WalletTransaction) (walletId : Id) : List WalletTransaction :=
  l.rows.filter fun r => r.walletId == walletId

/-- Ledger rows belong to wallets, and every wallet's balance fits its own rows. -/
structure Books (Fits : Money → List WalletTransaction → Prop) (t : Table Wallet)
    (l : Table WalletTransaction) : Prop where
  wallets : ∀ r ∈ l.rows, ∃ w ∈ t.rows, w.id = r.walletId
  fits : ∀ w ∈ t.rows, Fits w.balance (ledger l w.id)

theorem ledger_append {l l' : Table WalletTransaction} {r : WalletTransaction}
    (h : l'.rows = l.rows ++ [r]) (walletId : Id) :
    ledger l' walletId = ledger l walletId ++ if r.walletId = walletId then [r] else [] := by
  by_cases hid : r.walletId = walletId <;> simp [ledger, h, hid]

section books
variable {Fits : Money → List WalletTransaction → Prop} {t t' : Table Wallet}
  {l l' : Table WalletTransaction} {w : Wallet} {u : Id} {a y : Money} {type : WalletTxType}
  {ref : Id}

/-- A new wallet has no ledger rows. -/
theorem Books.insert (h : Books Fits t l) (h₀ : Fits 0 []) (ht : t'.rows = t.rows ++ [w])
    (hzero : w.balance = 0) : Books Fits t' l := by
  have hnew : ∀ w' ∈ t.rows, w'.id ≠ w.id := by
    intro w' hw' hid
    have hunique := t'.unique
    rw [ht, List.pairwise_append] at hunique
    have := hunique.2.2 w' hw' w (by simp)
    simp [Indexed.clash, hid] at this
  constructor
  · intro r hr
    obtain ⟨w', hw', hid⟩ := h.wallets r hr
    refine ⟨w', ?_, hid⟩
    rw [ht]
    exact List.mem_append_left _ hw'
  · intro w' hw'
    rw [ht] at hw'
    rcases List.mem_append.mp hw' with hw' | hw'
    · exact h.fits w' hw'
    · obtain rfl := List.mem_singleton.mp hw'
      have hempty : ledger l w'.id = [] := by
        refine List.filter_eq_nil_iff.mpr fun r hr => ?_
        obtain ⟨q, hq, hid⟩ := h.wallets r hr
        have := hnew q hq
        rw [hid] at this
        simpa using this
      rw [hempty, hzero]
      exact h₀

theorem Books.opened {users : Table User} (h : Books Fits t l) (h₀ : Fits 0 [])
    (ht : WalletOpened u users t t') : Books Fits t' l := by
  rcases ht with rfl | ⟨-, -, id, hrows⟩
  · exact h
  · exact h.insert h₀ hrows rfl

/-- A balance is written together with the ledger row that explains it. -/
theorem Books.post (h : Books Fits t l) (hw : w ∈ t.rows) (hu : w.userId = u)
    (hset : WalletSet u y t t') (hpost : Posted w.id type a y ref t' l l')
    (hsnoc : ∀ {l r}, Fits w.balance l → r.amount = a → r.balanceAfter = y → Fits y (l ++ [r])) :
    Books Fits t' l' := by
  obtain ⟨⟨k, hrows⟩, hwallet⟩ := hpost
  have hrow (q : Wallet) (hq : q ∈ t.rows) : ∃ q' ∈ t'.rows, q'.id = q.id := by
    refine ⟨_, hset.mem_iff.mpr ⟨q, hq, rfl⟩, ?_⟩
    split <;> rfl
  constructor
  · intro r hr
    rw [hrows] at hr
    rcases List.mem_append.mp hr with hr | hr
    · obtain ⟨q, hq, hid⟩ := h.wallets r hr
      obtain ⟨q', hq', hid'⟩ := hrow q hq
      exact ⟨q', hq', hid'.trans hid⟩
    · obtain rfl := List.mem_singleton.mp hr
      exact hwallet
  · intro q' hq'
    obtain ⟨q, hq, rfl⟩ := hset.mem_iff.mp hq'
    by_cases hqu : q.userId = u
    · obtain rfl := wallet_eq_of_user hq hw (hqu.trans hu.symm)
      rw [if_pos hqu, ledger_append hrows, if_pos rfl]
      exact hsnoc (h.fits q hw) rfl rfl
    · have hne : w.id ≠ q.id := by
        intro hid
        obtain rfl := wallet_eq_of_id hw hq hid
        exact hqu hu
      rw [if_neg hqu, ledger_append hrows, if_neg hne, List.append_nil]
      exact h.fits q hq

/-- Every commit that knows the balance it changes keeps the books. -/
theorem Change.books {ns : List Note} {c c' : Core} (h : Change ns c c')
    (hbooks : Books Fits c.wallet c.walletTransaction) (hzero : Fits 0 [])
    (hread : ∀ u w x, .balance u w x ∈ ns → BalanceRead c.wallet u w x)
    (hsnoc : ∀ {x a l r}, ((∃ p, (.handling p ∈ ns ∨ .refunding p ∈ ns) ∧ p.amount = a) ∨ 0 ≤ x + a) →
      Fits x l → r.amount = a → r.balanceAfter = x + a → Fits (x + a) (l ++ [r])) :
    Books Fits c'.wallet c'.walletTransaction := by
  cases h with
  | newWallet w t _ ht hbalance _ => exact hbooks.insert hzero (Table.insert_rows ht) hbalance
  | credit p ref walletId x tp tw tl hhandling _ hbalance _ _ hwallet hpost =>
    obtain ⟨w, hw, hu, rfl, rfl⟩ := hwallet.row (hread _ _ _ hbalance) hpost.2
    exact hbooks.post hw hu hwallet hpost (hsnoc (.inl ⟨p, .inl hhandling, rfl⟩))
  | payWallet userId bookingId walletId amount x p tp tw tl tb tr _ _ hbalance hle _ _ _ _ _ _ _ _ _
      hwallet hpost _ =>
    obtain ⟨w, hw, hu, rfl, rfl⟩ := hwallet.row (hread _ _ _ hbalance) hpost.2
    rw [sub_eq_add_neg] at hwallet hpost
    have hnonneg : 0 ≤ w.balance + -amount := by
      rw [← sub_eq_add_neg]
      exact sub_nonneg.mpr hle
    exact hbooks.post hw hu hwallet hpost (hsnoc (.inr hnonneg))
  | refund p walletId x row tp tw tw' tl hrefunding hbalance _ hopened hwallet hpost _ _ _ =>
    obtain ⟨w, hw, hu, rfl, rfl, -⟩ := hopened.row hwallet (hread _ _ _ hbalance) hpost.2
    exact (hbooks.opened hzero hopened).post hw hu hwallet hpost
      (hsnoc (.inl ⟨p, .inr hrefunding, rfl⟩))
  | _ => exact hbooks

end books
end BookingPlatform
