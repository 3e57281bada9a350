import BookingPlatform.Alone

/-! Writes of payments, row by row. -/
namespace BookingPlatform
open Async Data

section rows
variable {t t' : Table Payment} {p p' q : Payment} {next : PaymentStatus}

theorem payment_eq (hp : p ∈ t.rows) (hp' : p' ∈ t.rows)
    (h : p.id = p'.id) : p = p' :=
  Table.eq_of_clash hp hp' (by simp [Indexed.clash, h])

theorem PaymentSet.total (h : PaymentSet p.id next t t') (hp : p ∈ t.rows) :
    ∃ p', Payment.Restated next p p' ∧ ∀ {A : Type} [AddCommMonoid A] (g : Payment → A),
      t'.total g + g p = t.total g + g p' := by
  obtain ⟨f, hf, hnext, rfl⟩ := h
  refine ⟨f p, hnext p, fun {A} _ g => Table.total_update hf g hp (by simp) fun q hq hid => ?_⟩
  exact payment_eq hq hp (by simpa using hid)

theorem PaymentSet.mem_iff {id : Id} (h : PaymentSet id next t t') (hq : q ∈ t'.rows) :
    ∃ p ∈ t.rows, (p.id = id ∧ Payment.Restated next p q) ∨ (p.id ≠ id ∧ q = p) := by
  obtain ⟨f, hf, hnext, rfl⟩ := h
  obtain ⟨p, hp, rfl⟩ := List.mem_map.mp hq
  refine ⟨p, hp, ?_⟩
  by_cases hid : p.id = id
  · exact .inl ⟨hid, by simpa [hid] using hnext p⟩
  · exact .inr ⟨hid, by simp [hid]⟩

theorem Payment.Restated.fields (h : Payment.Restated next p p') :
    p'.id = p.id ∧ p'.amount = p.amount ∧ p'.type = p.type ∧ p'.gateway = p.gateway ∧
      p'.status = next := by
  obtain ⟨heq, -⟩ := h
  rw [heq]
  simp

theorem PaymentSet.status_of {id : Id} (h : PaymentSet id next t t') (hp' : p' ∈ t'.rows) (hid : p'.id = id) :
    p'.status = next := by
  obtain ⟨p, hp, ⟨-, hrestated⟩ | ⟨hne, rfl⟩⟩ := h.mem_iff hp'
  · exact hrestated.fields.2.2.2.2
  · exact absurd hid hne

theorem PaymentSet.stays {id : Id} (h : PaymentSet id next t t') (hp : p ∈ t.rows) :
    ∃ p' ∈ t'.rows, (p.id = id ∧ Payment.Restated next p p') ∨ (p.id ≠ id ∧ p' = p) := by
  obtain ⟨f, hf, hnext, rfl⟩ := h
  refine ⟨_, List.mem_map_of_mem hp, ?_⟩
  by_cases hid : p.id = id
  · exact .inl ⟨hid, by simpa [hid] using hnext p⟩
  · exact .inr ⟨hid, by simp [hid]⟩

end rows

/-! ### What a change makes of a payment -/

/-- Why a request may write this status of a payment. -/
def Settles (ns : List Note) (id : Id) : PaymentStatus → Prop
  | .initiated => False
  | .failed => ∃ p, .handling p ∈ ns ∧ p.id = id
  | .success => ∃ p ref, .handling p ∈ ns ∧ .finalising p.id ref ∈ ns ∧ p.id = id
  | .refunded => ∃ p, .refunding p ∈ ns ∧ p.id = id

/-- What a change may make of a payment. -/
inductive Payment.Becomes (ns : List Note) (p : Payment) : Payment → Prop
  | same : Becomes ns p p
  | linked (q : Payment) (ref : Id) : .opening q ∈ ns → q.id = p.id → .opened p.id ref ∈ ns →
      Becomes ns p { p with gatewayRefId := some ref }
  | restated (next : PaymentStatus) (p' : Payment) : Settles ns p.id next →
      Payment.Restated next p p' → Becomes ns p p'

/-- How a payment begins: INITIATED at the gateway, or paid from a wallet at once. -/
inductive Payment.Begins (ns : List Note) (p : Payment) : Prop
  | deposit (b : Id) : p.status = .initiated → p.gateway = .mock → p.gatewayRefId = none →
      p.callbackVerifiedAt = none → p.type = .deposit → p.bookingId = some b →
      .due b p.userId p.amount ∈ ns → Begins ns p
  | topup : p.status = .initiated → p.gateway = .mock → p.gatewayRefId = none →
      p.callbackVerifiedAt = none → p.type = .walletTopup → p.bookingId = none → 0 < p.amount →
      .acts p.userId ∈ ns → Begins ns p
  | wallet (b : Id) : p.status = .success → p.gateway = .wallet → p.gatewayRefId = none →
      p.callbackVerifiedAt.isSome → p.type = .deposit → p.bookingId = some b →
      .due b p.userId p.amount ∈ ns → .paying b ∈ ns → Begins ns p

/-- The payments before and after a change. -/
structure Repaid (ns : List Note) (t t' : Table Payment) : Prop where
  stays : ∀ p ∈ t.rows, ∃ p' ∈ t'.rows, p.Becomes ns p'
  comes : ∀ p' ∈ t'.rows, (∃ p ∈ t.rows, p.Becomes ns p') ∨
    ((∀ p ∈ t.rows, p.id ≠ p'.id) ∧ p'.Begins ns)

section changes
variable {ns : List Note} {c c' : Core} {t t' : Table Payment} {p p' : Payment} {id : Id}
  {next : PaymentStatus}

theorem Payment.Becomes.fields (h : p.Becomes ns p') :
    p'.id = p.id ∧ p'.bookingId = p.bookingId ∧ p'.userId = p.userId ∧ p'.type = p.type ∧
      p'.amount = p.amount ∧ p'.gateway = p.gateway := by
  cases h with
  | same => simp
  | linked q ref _ _ _ => simp
  | restated next p' _ h =>
    rw [h.1]
    simp

/-- A status that a change has written was written on grounds. -/
theorem Payment.Becomes.status (h : p.Becomes ns p') :
    p'.status = p.status ∨ Settles ns p.id p'.status := by
  cases h with
  | same => exact .inl rfl
  | linked q ref _ _ _ => exact .inl rfl
  | restated next p' hsettles h =>
    obtain ⟨-, -, -, -, hstatus⟩ := h.fields
    exact .inr (hstatus ▸ hsettles)

/-- Only a request that holds the verified reference marks a payment as verified. -/
theorem Payment.Becomes.verified (h : p.Becomes ns p') :
    (p.callbackVerifiedAt.isSome → p'.callbackVerifiedAt.isSome) ∧
      (p'.callbackVerifiedAt.isSome → p.callbackVerifiedAt.isSome ∨
        ∃ ref, .finalising p.id ref ∈ ns) := by
  cases h with
  | same => exact ⟨fun h => h, .inl⟩
  | linked q ref _ _ _ => exact ⟨fun h => h, .inl⟩
  | restated next p' hsettles h =>
    rw [h.2]
    constructor
    · intro hp
      simp [hp]
    · cases next with
      | success =>
        obtain ⟨q, ref, -, hfinalising, hid⟩ := hsettles
        exact fun _ => .inr ⟨ref, hid ▸ hfinalising⟩
      | _ =>
        intro hp
        exact .inl (by simpa using hp)

/-- A payment that becomes SUCCESS has just been verified. -/
theorem Payment.Becomes.success (h : p.Becomes ns p') (hs : p'.status = .success) :
    p.status = .success ∨
      (∃ ref, .finalising p.id ref ∈ ns) ∧ p'.callbackVerifiedAt.isSome := by
  cases h with
  | same => exact .inl hs
  | linked q ref _ _ _ => exact .inl hs
  | restated next p' hsettles h =>
    obtain ⟨-, -, -, -, hstatus⟩ := h.fields
    obtain rfl : next = .success := hstatus.symm.trans hs
    obtain ⟨q, ref, -, hfinalising, hid⟩ := hsettles
    refine .inr ⟨⟨ref, hid ▸ hfinalising⟩, ?_⟩
    rw [h.2]
    simp

theorem Payment.Becomes.gatewayRefId (h : p.Becomes ns p') (hno : ∀ q, .opening q ∉ ns) :
    p'.gatewayRefId = p.gatewayRefId := by
  cases h with
  | same => rfl
  | linked q ref hopening _ _ => exact absurd hopening (hno q)
  | restated next p' _ h => rw [h.1]

theorem Repaid.refl (t : Table Payment) : Repaid ns t t :=
  ⟨fun p hp => ⟨p, hp, .same⟩, fun p hp => .inl ⟨p, hp, .same⟩⟩

theorem PaymentSet.repaid (h : PaymentSet id next t t') (hsettles : Settles ns id next) :
    Repaid ns t t' := by
  constructor
  · intro p hp
    obtain ⟨p', hp', ⟨rfl, hrestated⟩ | ⟨-, rfl⟩⟩ := h.stays hp
    · exact ⟨p', hp', .restated next p' hsettles hrestated⟩
    · exact ⟨p', hp', .same⟩
  · intro p' hp'
    obtain ⟨p, hp, ⟨rfl, hrestated⟩ | ⟨-, rfl⟩⟩ := h.mem_iff hp'
    · exact .inl ⟨p, hp, .restated next p' hsettles hrestated⟩
    · exact .inl ⟨p', hp, .same⟩

theorem Repaid.insert (ht : t.insert p = some t') (hp : p.Begins ns) : Repaid ns t t' := by
  have hrows := Table.insert_rows ht
  constructor
  · intro q hq
    exact ⟨q, by rw [hrows]; exact List.mem_append_left _ hq, .same⟩
  · intro q hq
    rw [hrows] at hq
    rcases List.mem_append.mp hq with hq | hq
    · exact .inl ⟨q, hq, .same⟩
    · obtain rfl := List.mem_singleton.mp hq
      refine .inr ⟨fun r hr hid => ?_, hp⟩
      have := Table.insert_fresh ht r hr
      simp [Indexed.clash, hid] at this

/-- Every change is one of the payment table's. -/
theorem Change.repaid (h : Change ns c c') : Repaid ns c.payment c'.payment := by
  cases h with
  | openPayment p t ht hstatus hgateway href hverified hreason =>
    refine .insert ht ?_
    rcases hreason with ⟨b, htype, hb, hdue⟩ | ⟨htype, hb, hpos, hacts⟩
    · exact .deposit b hstatus hgateway href hverified htype hb hdue
    · exact .topup hstatus hgateway href hverified htype hb hpos hacts
  | link p ref t hopening hopened ht =>
    obtain ⟨hf, rfl⟩ := ht
    have hrow (q : Payment) : q.Becomes ns
        (if q.id == p.id then { q with gatewayRefId := some ref } else q) := by
      by_cases hid : q.id = p.id
      · simpa [hid] using Payment.Becomes.linked (p := q) p ref hopening hid.symm (hid ▸ hopened)
      · simpa [hid] using Payment.Becomes.same
    constructor
    · intro q hq
      exact ⟨_, List.mem_map_of_mem hq, hrow q⟩
    · intro q' hq'
      obtain ⟨q, hq, rfl⟩ := List.mem_map.mp hq'
      exact .inl ⟨q, hq, hrow q⟩
  | fail p t hhandling ht => exact ht.repaid ⟨p, hhandling, rfl⟩
  | credit p ref walletId x tp tw tl hhandling hfinalising _ _ hset _ _ =>
    exact hset.repaid ⟨p, ref, hhandling, hfinalising, rfl⟩
  | confirmPaid p ref bookingId tp tb tr hhandling hfinalising _ _ _ hset _ =>
    exact hset.repaid ⟨p, ref, hhandling, hfinalising, rfl⟩
  | acceptOnly p ref tp hhandling hfinalising _ _ hset =>
    exact hset.repaid ⟨p, ref, hhandling, hfinalising, rfl⟩
  | payWallet userId bookingId walletId amount x p tp tw tl tb tr hdue hpaying _ _ ht hb hu htype
      hstatus hamount hgateway href hverified _ _ _ =>
    refine .insert ht (.wallet bookingId hstatus hgateway href hverified htype hb ?_ hpaying)
    rw [hu, hamount]
    exact hdue
  | refund p walletId x row tp tw tw' tl hrefunding _ hset _ _ _ _ _ _ =>
    exact hset.repaid ⟨p, hrefunding, rfl⟩
  | _ => exact .refl _

end changes
end BookingPlatform
