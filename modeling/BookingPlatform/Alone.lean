import BookingPlatform.Lanes

/-! What a request knows as long as no other request is at work. -/
namespace BookingPlatform
open Async Data

/-- The wallet is there with this balance, or neither the user's nor this one is there. -/
def BalanceRead (t : Table Wallet) (userId walletId : Id) (amount : Money) : Prop :=
  (∃ w ∈ t.rows, w.userId = userId ∧ w.id = walletId ∧ w.balance = amount) ∨
    ((∀ w ∈ t.rows, w.userId ≠ userId ∧ w.id ≠ walletId) ∧ amount = 0)

/-- What the note says of the store. -/
def Note.stands (c : Core) : Note → Prop
  | .acts userId => ∃ u ∈ c.user.rows, u.id = userId
  | .slotFree branchId staffMemberId startTime endTime excludeBookingId =>
    SlotFree c.booking branchId staffMemberId startTime endTime excludeBookingId
  | .lane id branchId staffMemberId => ∃ b ∈ c.booking.rows,
    b.id = id ∧ b.branchId = branchId ∧ b.staffMemberId = staffMemberId
  | .confirming id _ => ∃ b ∈ c.booking.rows, b.id = id ∧ b.status = .hold
  | .aims id next => ∃ b ∈ c.booking.rows, b.id = id ∧ next ∈ allowedStatusTransitions b.status
  | .paying id => ∃ b ∈ c.booking.rows, b.id = id ∧ b.status = .pending
  | .due id userId amount => 0 < amount ∧ ∃ b ∈ c.booking.rows,
    b.id = id ∧ b.userId = userId ∧ b.status = .pending ∧ b.depositRequired = amount
  | .balance userId walletId amount => BalanceRead c.wallet userId walletId amount
  | .walletless userId => ∀ w ∈ c.wallet.rows, w.userId ≠ userId
  | .unpayable id => ∀ b ∈ c.booking.rows, b.id = id → b.status ≠ .pending
  | .opening p => p ∈ c.payment.rows ∧ p.gatewayRefId = none
  | .opened _ gatewayRefId => ∃ r ∈ c.session.rows, r.id = gatewayRefId
  | .handling p => p ∈ c.payment.rows ∧ p.status = .initiated
  | .finalising id gatewayRefId => (∃ p ∈ c.payment.rows,
      p.id = id ∧ p.status = .initiated ∧ p.gatewayRefId = some gatewayRefId) ∧
    ∃ r ∈ c.session.rows, r.id = gatewayRefId ∧ r.used = true
  | .refunding p => p ∈ c.payment.rows ∧ p.status = .success
  | .enrolling _ | .releasing _ | .catalogue | .registering | .profile _ | .locked ..
  | .counted .. | .points .. | .referred _ | .auth _ => True

/-- The session of this reference has been verified. -/
def Used (t : Table Session) (ref : Id) : Prop := ∃ r ∈ t.rows, r.id = ref ∧ r.used = true

section
variable {c c' : Core} {ns held : List Note} {x : Note} {r : Request}

theorem nextStatus_allowed (service : Option Service) :
    BookingService.nextStatus service ∈ allowedStatusTransitions .hold := by
  unfold BookingService.nextStatus
  split <;> simp [allowedStatusTransitions]

theorem stands_grounds (hheld : ∀ y ∈ held, y.stands c') (h : Grounds held c c' x) :
    x.stands c' := by
  cases x with
  | confirming id serviceId =>
    obtain ⟨b, hb, hid, hhold, -⟩ := h
    exact ⟨b, hb, hid, hhold⟩
  | aims id next =>
    rcases h with h | ⟨serviceId, hmem, hnext⟩
    · exact h
    · obtain ⟨b, hb, hid, hhold⟩ := hheld _ hmem
      refine ⟨b, hb, hid, ?_⟩
      rw [hhold]
      rcases hnext with rfl | rfl
      · simp [allowedStatusTransitions]
      · exact nextStatus_allowed _
  | opening p => exact ⟨h.1, h.2.2.1⟩
  | opened id ref => exact h.2.2.2
  | finalising id ref =>
    obtain ⟨⟨p, hp, hid, href, -⟩, hused, -⟩ := h
    obtain ⟨hmem, hinitiated⟩ := hheld _ hp
    exact ⟨⟨p, hmem, hid, hinitiated, href⟩, hused⟩
  | enrolling | releasing | catalogue | registering | profile | locked | counted | points | referred |
    auth => trivial
  | _ => exact h

theorem Asked.used (h : Asked c c') {ref : Id} (hu : Used c.session ref) : Used c'.session ref := by
  obtain ⟨s, hs, hid, hused⟩ := hu
  obtain ⟨s', hs', hid', -, hused'⟩ := h.session_stays hs
  exact ⟨s', hs', hid'.trans hid, hused' hused⟩

theorem stands_asked (h : Asked c c') (hx : x.stands c) : x.stands c' := by
  cases x with
  | opened id ref =>
    obtain ⟨s, hs, hid⟩ := hx
    obtain ⟨s', hs', hid', -⟩ := h.session_stays hs
    exact ⟨s', hs', hid'.trans hid⟩
  | finalising id ref =>
    have hused := h.used hx.2
    obtain ⟨t, rfl⟩ := h.core_eq
    exact ⟨hx.1, hused⟩
  | _ =>
    obtain ⟨t, rfl⟩ := h.core_eq
    exact hx

/-- An invariant that every change keeps whose notes stand and to which `P` is granted. -/
theorem meaning_stands {inv : Core → Prop} {P : List Note → Core → Prop}
    (hasked : ∀ {c c'}, inv c → Asked c c' → inv c')
    (hchange : ∀ {ns c c'}, inv c → (∀ x ∈ ns, x.stands c) → P ns c → Change ns c c' → inv c') :
    Meaning ((contract r.takes).given fun ns s => P ns s.core) (fun s => inv s.core)
      (fun x s => x.stands s.core) where
  grounds _ _ hheld hx := stands_grounds hheld hx.2
  auto hs hns h := ⟨hasked hs h, fun x hx => stands_asked h (hns x hx)⟩
  commit hs hns h := hchange hs hns h.1 h.2

end
end BookingPlatform
