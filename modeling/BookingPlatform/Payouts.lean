import BookingPlatform.Deals
import BookingPlatform.DoubleBooking
import BookingPlatform.Payments

/-! What settlements pay out: sums of payments that were there, and no payment for two periods that do not meet. -/
namespace BookingPlatform
open Async Data Prog SettlementService

/-- What a payment is for, and since when. -/
structure Claim where
  id : Id
  bookingId : Option Id
  type : PaymentType
  amount : Money
  createdAt : Time

def Payment.claim (p : Payment) : Claim where
  id := p.id
  bookingId := p.bookingId
  type := p.type
  amount := p.amount
  createdAt := p.createdAt

/-- A deposit or full payment of a booking of the business. -/
def Store.Earned (s : Store) (businessId : Id) (p : Payment) : Prop :=
  p ∈ s.payment.rows ∧ (p.type = .deposit ∨ p.type = .fullPayment) ∧
    ∃ b ∈ s.booking.rows, p.bookingId = some b.id ∧ b.businessId = businessId

/-- Created in the period of the settlement, both ends included. -/
def Settlement.Spans (r : Settlement) (p : Payment) : Prop := r.periodStart ≤ p.createdAt ∧ p.createdAt ≤ r.periodEnd

/-- Amounts that doubles add up to within less than half a cent. -/
def Modest (amounts : List Money) : Prop := amounts.length * ((amounts.map abs).sum + 1) ≤ 2 ^ 49

/-- The gross amount is that of the payments of the period that are SUCCESS in the store, and what the commission leaves
of it is paid out. -/
def Settlement.Sums (r : Settlement) (s : Store) : Prop := ∃ counted : List Payment, counted.Nodup ∧
  (∀ p, p ∈ counted ↔ s.Earned r.businessId p ∧ p.status = .success ∧ r.Spans p) ∧
  (Modest (counted.map Payment.amount) → r.grossAmount = (counted.map Payment.amount).sum ∧
    (|r.commissionAmount| ≤ 2 ^ 49 → r.netAmount = r.grossAmount - r.commissionAmount))

/-- The commission is in whole toman, and to within half a toman the share that the business is charged; on top of that
there is a cent of the gross amount and what doubles lose. -/
def Settlement.Splits (r : Settlement) (s : Store) : Prop := ∃ business ∈ s.business.rows, business.id = r.businessId ∧
  100 ∣ r.commissionAmount ∧ |(10000 * r.commissionAmount - r.grossAmount * business.commissionPercent : ℚ)| ≤
    500000 + |(business.commissionPercent : ℚ)| + |(r.grossAmount * business.commissionPercent : ℚ)| / 2 ^ 49

/-- The figures of the settlement are those of stores of `H`. -/
def Settlement.Figured (H : Store → Prop) (r : Settlement) : Prop := (∃ s, H s ∧ r.Sums s) ∧ ∃ s, H s ∧ r.Splits s

/-- Payments and bookings remain what they are for, and a new settlement is figured. -/
structure Settling (H : Store → Prop) (s s' : Store) : Prop where
  claims : Persist Payment.claim s.payment s'.payment
  deals : Persist Booking.deal s.booking s'.booking
  settlements : ∀ r ∈ s'.settlement.rows, r ∈ s.settlement.rows ∨ r.Figured H

section changes
variable {ns : List Note} {c c' : Core} {p p' : Payment} {H : Store → Prop} {s s' s'' : Store}

theorem Payment.Becomes.claim (h : p.Becomes ns p') : p'.claim = p.claim := by
  cases h with
  | same => rfl
  | linked q ref _ _ _ => rfl
  | restated next p' _ h =>
    rw [h.1]
    rfl

theorem Change.claims (h : Change ns c c') : Persist Payment.claim c.payment c'.payment := by
  intro p hp
  obtain ⟨p', hp', hbecomes⟩ := h.repaid.stays p hp
  exact ⟨p', hp', hbecomes.claim⟩

theorem Change.deals (h : Change ns c c') : Persist Booking.deal c.booking c'.booking := by
  cases h with
  | book bs t hrows hbs hpair => exact fun b hb => ⟨b, hrows ▸ List.mem_append_left bs hb, rfl⟩
  | move id branchId staffMemberId startTime endTime t hlane hfree htime ht =>
    obtain ⟨hf, rfl⟩ := ht
    exact .update hf fun b _ _ => rfl
  | status id next t tr haims hhold ht => exact ht.sameDeals.stay
  | release now t hnow ht =>
    obtain ⟨f, hf, hnext, rfl⟩ := ht
    exact .update hf fun b _ _ => (hnext b).deal
  | confirmPaid p ref bookingId tp tb tr _ _ _ _ _ _ ht => exact ht.sameDeals.stay
  | payWallet userId bookingId walletId amount x p tp tw tl tb tr _ _ _ _ _ _ _ _ _ _ _ _ _ _ _ ht =>
    exact ht.sameDeals.stay
  | _ => exact .refl _

theorem Asked.claims (h : Asked s.core s'.core) :
    Persist Payment.claim s.payment s'.payment ∧ Persist Booking.deal s.booking s'.booking := by
  obtain ⟨t, ht⟩ := h.core_eq
  have hpayment : s'.payment = s.payment := congrArg Core.payment ht
  have hbooking : s'.booking = s.booking := congrArg Core.booking ht
  rw [hpayment, hbooking]
  exact ⟨.refl _, .refl _⟩

theorem Settling.refl (s : Store) : Settling H s s := ⟨.refl _, .refl _, fun _ hr => .inl hr⟩

theorem settling_trans (s s' s'' : Store) (h : Settling H s s') (h' : Settling H s' s'') : Settling H s s'' := by
  refine ⟨h.claims.trans h'.claims, h.deals.trans h'.deals, fun r hr => ?_⟩
  rcases h'.settlements r hr with hold | hnew
  · exact h.settlements r hold
  · exact .inr hnew

end changes

/-! ### Figures -/

section figures
variable {amounts : List Money} {x : ℚ} {z c percent : ℤ}

theorem round_of_near (h : |x - z| < 1 / 2) : round x = z := by
  obtain ⟨hlow, hhigh⟩ := abs_lt.mp h
  exact round_eq_iff.mpr ⟨by linarith, by linarith⟩

theorem ofNumber_int (z : ℤ) : ofNumber z = z * 100 := by
  have hcast : (z : ℚ) * 100 = ((z * 100 : ℤ) : ℚ) := by push_cast; rfl
  rw [ofNumber, hcast, round_intCast]

theorem Modest.total_near (h : Modest amounts) : |total amounts * 100 - amounts.sum| ≤ 1 / 4 := by
  have hsum (l : List ℤ) : (l.map fun a : ℤ => (a / 100 : ℚ)).sum = (l.sum : ℚ) / 100 := by
    induction l with
    | nil => simp
    | cons a rest ih =>
      rw [List.map_cons, List.sum_cons, ih, List.sum_cons]
      push_cast
      ring
  have habs : ((amounts.map fun a : ℤ => (a / 100 : ℚ)).map abs).sum = ((amounts.map abs).sum : ℚ) / 100 := by
    rw [← hsum, List.map_map, List.map_map]
    refine congrArg List.sum (List.map_congr_left fun a _ => ?_)
    simp [abs_div]
  have hall : 0 ≤ (amounts.map abs).sum := List.sum_nonneg (by simp)
  have hmodest : (amounts.length : ℚ) * (((amounts.map abs).sum : ℚ) + 1) ≤ 2 ^ 49 := by exact_mod_cast h
  have hfew : amounts.length ≤ 2 ^ 49 := by
    have hlength : (amounts.length : ℤ) ≤ 2 ^ 49 :=
      le_trans (le_mul_of_one_le_right (Int.natCast_nonneg _) (Int.le_add_of_nonneg_left hall)) h
    exact_mod_cast hlength
  have hoff := Double.Off.foldl_add (Double.Off.exact (s := (((amounts.map abs).sum : ℚ) + 1) / 100) (y := 0)
    (by rw [abs_zero]; positivity)) (l := amounts.map fun a : ℤ => (a / 100 : ℚ))
    (by rw [habs, abs_zero]; linarith) (by
      rw [List.length_map]
      omega)
  have hbound := hoff.off
  rw [List.map_map, List.length_map, hsum, Double.eps] at hbound
  change |total amounts - (0 + (amounts.sum : ℚ) / 100)| ≤ _ at hbound
  have hscaled : total amounts * 100 - amounts.sum = (total amounts - (0 + (amounts.sum : ℚ) / 100)) * 100 := by ring
  rw [hscaled, abs_mul, abs_of_pos (by norm_num : (0 : ℚ) < 100)]
  simp only [Nat.cast_add, Nat.cast_zero, Nat.cast_mul, Nat.cast_ofNat] at hbound
  linarith

theorem Modest.sum_le (h : Modest amounts) : |(amounts.sum : ℚ)| ≤ 2 ^ 49 := by
  have htriangle (l : List ℤ) : |l.sum| ≤ (l.map abs).sum := by
    induction l with
    | nil => simp
    | cons a rest ih =>
      rw [List.sum_cons, List.map_cons, List.sum_cons]
      exact (abs_add_le a rest.sum).trans (Int.add_le_add_left ih _)
  have hall : |amounts.sum| ≤ 2 ^ 49 := by
    cases amounts with
    | nil => norm_num
    | cons a rest =>
      have hone : (1 : ℤ) ≤ (a :: rest).length := by simp
      have hpos : 0 ≤ ((a :: rest).map abs).sum + 1 := Int.add_nonneg (List.sum_nonneg (by simp)) (by norm_num)
      have hle := le_mul_of_one_le_left hpos hone
      exact (htriangle _).trans ((Int.le_add_of_nonneg_right (by norm_num)).trans (hle.trans h))
  exact_mod_cast hall

theorem ofNumber_total (h : Modest amounts) : ofNumber (total amounts) = amounts.sum :=
  round_of_near (h.total_near.trans_lt (by norm_num))

/-- The net amount that is written is what the commission leaves. -/
theorem ofNumber_net (h : Modest amounts) (hc : |c * 100| ≤ 2 ^ 49) :
    ofNumber (Double.sub (total amounts) c) = amounts.sum - c * 100 := by
  have hnear := h.total_near
  have hcast : |(c : ℚ) * 100| ≤ 2 ^ 49 := by exact_mod_cast hc
  have hround := Double.abs_of_sub_le (total amounts - c)
  have hsize : |total amounts - c| * 100 ≤ 2 ^ 50 + 1 := by
    have hscaled : (total amounts - c) * 100 = (total amounts * 100 - amounts.sum) + (amounts.sum - (c : ℚ) * 100) := by
      ring
    have hfirst := abs_add_le (total amounts * 100 - amounts.sum) (amounts.sum - (c : ℚ) * 100)
    have hsecond := abs_sub (amounts.sum : ℚ) ((c : ℚ) * 100)
    rw [← abs_of_pos (by norm_num : (0 : ℚ) < 100), ← abs_mul, hscaled]
    linarith [h.sum_le]
  apply round_of_near
  have hsplit : Double.sub (total amounts) c * 100 - ((amounts.sum - c * 100 : ℤ) : ℚ) =
      (Double.of (total amounts - c) - (total amounts - c)) * 100 + (total amounts * 100 - amounts.sum) := by
    rw [Double.sub]
    push_cast
    ring
  have htriangle := abs_add_le ((Double.of (total amounts - c) - (total amounts - c)) * 100) (total amounts * 100 - amounts.sum)
  rw [abs_mul, abs_of_pos (by norm_num : (0 : ℚ) < 100)] at htriangle
  rw [Double.eps] at hround
  rw [hsplit]
  linarith

/-- In hundredths and against the gross amount that is written. -/
theorem commissionOf_near (x : ℚ) (percent : Percent) :
    |(10000 * ofNumber (commissionOf x percent) - ofNumber x * percent : ℚ)| ≤
      500000 + |(percent : ℚ)| + |(ofNumber x * percent : ℚ)| / 2 ^ 49 := by
  have hclose := (off_percent (Double.Off.exact (y := x) le_rfl) (Nat.zero_le _) percent).round_close (by norm_num)
  change |(commissionOf x percent : ℚ) - _| ≤ _ at hclose
  have hkept : |x * 100 - ofNumber x| ≤ 1 / 2 := abs_sub_round _
  have hgross : |x * 100 * percent - ofNumber x * percent| ≤ 1 / 2 * |(percent : ℚ)| := by
    rw [← sub_mul, abs_mul]
    exact mul_le_mul_of_nonneg_right hkept (abs_nonneg _)
  have hsize : |x| * 100 * |(percent : ℚ)| ≤ |(ofNumber x * percent : ℚ)| + 1 / 2 * |(percent : ℚ)| := by
    have hfirst := abs_sub_abs_le_abs_sub (x * 100 * percent) (ofNumber x * percent : ℚ)
    rw [abs_mul (x * 100), abs_mul x, abs_of_pos (by norm_num : (0 : ℚ) < 100)] at hfirst
    linarith
  have hsplit : (10000 * ofNumber (commissionOf x percent) - ofNumber x * percent : ℚ) =
      (commissionOf x percent - x * (percent / 100) / 100) * 1000000 + (x * 100 * percent - ofNumber x * percent) := by
    rw [ofNumber_int]
    push_cast
    ring
  have htriangle := abs_add_le ((commissionOf x percent - x * (percent / 100) / 100) * 1000000)
    (x * 100 * percent - ofNumber x * percent)
  rw [abs_mul, abs_of_pos (by norm_num : (0 : ℚ) < 1000000)] at htriangle
  rw [hsplit]
  linarith [abs_nonneg (percent : ℚ)]

theorem dvd_commission (x : ℚ) (percent : Percent) : 100 ∣ ofNumber (commissionOf x percent) := by
  rw [ofNumber_int]
  exact Int.dvd_mul_left _ _

end figures

/-! ### Every request -/

/-- The contract of every request: it may count on having met stores of `H` only. -/
abbrev settling (H : Store → Prop) : Contract Env Store Note := .among (Settling H) Settling.refl settling_trans H

/-- Stores that a settlement cannot tell apart. -/
def SameBooks (s s' : Store) : Prop := s'.payment = s.payment ∧ s'.booking = s.booking ∧ s'.business = s.business

section requests
variable {H : Store → Prop} {ns : List Note} {s₀ s s' : Store}

theorem SameBooks.sums (h : SameBooks s s') {r : Settlement} : r.Sums s' ↔ r.Sums s := by
  simp only [Settlement.Sums, Store.Earned, h.1, h.2.1]

theorem SameBooks.splits (h : SameBooks s s') {r : Settlement} : r.Splits s' ↔ r.Splits s := by
  rw [Settlement.Splits, Settlement.Splits, h.2.2]

theorem settles_iff {businessId : Id} {periodStart periodEnd : Time} {p : Payment} :
    p ∈ s.payment.rows ∧ settles s businessId periodStart periodEnd p = true ↔
      s.Earned businessId p ∧ p.status = .success ∧ periodStart ≤ p.createdAt ∧ p.createdAt ≤ periodEnd := by
  have hbooked : p.bookingId.any (fun id => s.booking.rows.any fun b => b.id == id && b.businessId == businessId) = true ↔
      ∃ b ∈ s.booking.rows, p.bookingId = some b.id ∧ b.businessId = businessId := by
    simp only [Option.any_eq_true, List.any_eq_true, Bool.and_eq_true, beq_iff_eq]
    constructor
    · rintro ⟨id, hid, b, hb, rfl, hbusiness⟩
      exact ⟨b, hb, hid, hbusiness⟩
    · rintro ⟨b, hb, hid, hbusiness⟩
      exact ⟨b.id, hid, b, hb, rfl, hbusiness⟩
  simp only [settles, Store.Earned, Bool.and_eq_true, hbooked, beq_iff_eq, decide_eq_true_eq, List.contains_eq_mem,
    List.mem_cons, List.not_mem_nil, or_false]
  grind

/-- The row that `runForBusiness` writes sums up the payments it has read. -/
theorem sums_of_settles (g : Env) (id businessId : Id) (periodStart periodEnd : Time) (percent : Percent) :
    let amounts := (g.arrange (s.payment.rows.filter (settles s businessId periodStart periodEnd))).map Payment.amount
    Settlement.Sums { id, businessId, periodStart, periodEnd
                      grossAmount := ofNumber (total amounts)
                      commissionAmount := ofNumber (commissionOf (total amounts) percent)
                      netAmount := ofNumber (Double.sub (total amounts) (commissionOf (total amounts) percent)) } s := by
  refine ⟨g.arrange (s.payment.rows.filter (settles s businessId periodStart periodEnd)), ?_, fun p => ?_, fun hmodest => ?_⟩
  · refine (g.arrange_perm _).nodup_iff.mpr ((s.payment.unique.sublist List.filter_sublist).imp fun hclash hsame => ?_)
    simp [hsame, Indexed.clash] at hclash
  · rw [Env.mem_arrange, List.mem_filter]
    exact settles_iff
  · dsimp only
    rw [ofNumber_int, ofNumber_total hmodest]
    exact ⟨rfl, ofNumber_net hmodest⟩

/-- The payments are read before the settlement is written; only other requests come in between. -/
theorem wp_runForBusiness {Q : Post Store Err Note Settlement} (hbooks : ∀ s s', SameBooks s s' → H s → H s') (hs : H s)
    (herr : ∀ e ns s₀ s, Q (.error e) none ns s₀ s) (hok : ∀ r s₀ s, H s → Q (.ok r) none [] s₀ s) (businessId : Id)
    (periodStart periodEnd : Time) :
    wp (settling H) Q (runForBusiness businessId periodStart periodEnd) none ns s₀ s := by
  refine (wp_bind _ _).mpr (wp_query (fun _ s₁ h₁ => ?_) fun _ _ => herr _ _ _ _)
  refine (wp_bind _ _).mpr ((wp_orThrow _ _).mpr ⟨fun business hbusiness => ?_, fun _ => herr _ _ _ _⟩)
  obtain ⟨hmem, hid⟩ := findUnique_some hbusiness
  refine (wp_bind _ _).mpr (wp_query (fun g s₂ h₂ => ?_) fun _ _ => herr _ _ _ _)
  refine wp_prisma (fun g' s₃ r s₄ _ h₃ h => ?_) fun _ _ _ _ _ _ => herr _ _ _ _
  have hs₁ : H s₁ := h₁.2 hs
  have hs₂ : H s₂ := h₂.2 hs₁
  have hs₃ : H s₃ := h₃.2 hs₂
  obtain ⟨rfl, hput⟩ := create_ok h
  obtain ⟨-, t, ht, rfl⟩ := put_ok hput
  refine ⟨⟨.refl _, .refl _, fun r hr => ?_⟩, hok _ _ _ (hbooks s₃ _ ⟨rfl, rfl, rfl⟩ hs₃)⟩
  rcases (Table.mem_insert ht).mp hr with hold | rfl
  · exact .inl hold
  · have hsums := sums_of_settles (s := s₂) g (g'.newId 0) businessId periodStart periodEnd business.commissionPercent
    exact .inr ⟨⟨s₂, hs₂, hsums⟩, s₁, hs₁, business, hmem, beq_iff_eq.mp hid, dvd_commission _ _, commissionOf_near _ _⟩

theorem runForEach_settling (hbooks : ∀ s s', SameBooks s s' → H s → H s') (hs : H s) (periodStart periodEnd : Time)
    (ids : List Id) : wp (settling H) anyway (runForEach periodStart periodEnd ids) none ns s₀ s := by
  induction ids generalizing ns s₀ s with
  | nil => trivial
  | cons businessId rest ih =>
    refine (wp_bind _ _).mpr (wp_runForBusiness hbooks hs (fun _ _ _ _ => trivial) (fun r s₀ s hs => ?_) _ _ _)
    exact (wp_bind _ _).mpr (wp_mono (fun r _ _ _ _ _ => by cases r <;> trivial) (ih hs))

theorem runBatch_settling (hbooks : ∀ s s', SameBooks s s' → H s → H s') (hs : H s) (dto : RunSettlementDto) :
    wp (settling H) anyway (runBatch dto) none ns s₀ s := by
  unfold runBatch
  split
  · exact (wp_bind _ _).mpr (wp_runForBusiness hbooks hs (fun _ _ _ _ => trivial) (fun _ _ _ _ => trivial) _ _ _)
  · exact (wp_bind _ _).mpr (wp_query (fun g s₁ h₁ => runForEach_settling hbooks (h₁.2 hs) _ _ _) fun _ _ => trivial)

/-- No settlement is written. -/
def Unsettled (s s' : Store) : Prop := s'.settlement = s.settlement

theorem Unsettled.refl (s : Store) : Unsettled s s := rfl

theorem unsettled_trans (s s' s'' : Store) (h : Unsettled s s') (h' : Unsettled s' s'') : Unsettled s s'' := h'.trans h

theorem Request.unsettled {r : Request} (hr : ∀ user dto, r ≠ .runSettlement user dto) :
    Within Unsettled (fun _ => True) true r.serve := by
  refine Request.serve_within Unsettled.refl unsettled_trans (fun _ => trivial) ?_
  cases r with
  | runSettlement user dto => exact absurd rfl (hr user dto)
  | business user businessId route =>
    cases route <;> first
      | trivial
      | exact fun _ _ => rfl
  | _ =>
    simp only [Request.Writes]
    and_intros
    all_goals first
      | trivial
      | exact fun _ _ => rfl

theorem Request.settling_owes (r : Request) (hbooks : ∀ s s', SameBooks s s' → H s → H s') (hs : H s) :
    wp (settling H) anyway r.serve none [] s s := by
  by_cases hsettles : ∃ user dto, r = .runSettlement user dto
  · obtain ⟨user, dto, rfl⟩ := hsettles
    refine (wp_bind _ _).mpr ((wp_bind _ _).mpr (wp_query (fun g s₁ h₁ => ?_) fun _ _ => trivial))
    refine (wp_bind _ _).mpr ((wp_orThrow _ _).mpr ⟨fun u _ => ?_, fun _ => trivial⟩)
    refine (wp_bind _ _).mpr ((wp_mark _).mpr ⟨trivial, ?_⟩)
    refine (wp_bind _ _).mpr ((wp_bind _ _).mpr ((wp_ensure _ _).mpr ⟨fun _ => ?_, fun _ => trivial⟩))
    exact wp_mono (fun r _ _ _ _ _ => by cases r <;> trivial) (runBatch_settling hbooks (h₁.2 hs) dto)
  push Not at hsettles
  have haside : wp (.doing Unsettled Unsettled.refl) anyway r.serve none [] s s :=
    (Request.unsettled hsettles).doing unsettled_trans
  have hnew {s s' : Store} (h : Unsettled s s') : ∀ q ∈ s'.settlement.rows, q ∈ s.settlement.rows ∨ q.Figured H :=
    fun q hq => .inl (h ▸ hq)
  refine wp_weaken (C := (contract r.takes).both (.doing Unsettled Unsettled.refl)) (fun _ => ⟨trivial, trivial⟩)
    (fun _ => ⟨trivial, trivial⟩) (fun _ => trivial)
    (fun h => ⟨h.1.claims.1, h.1.claims.2, hnew h.2⟩) (fun h => ⟨h.1.claims, h.1.deals, hnew h.2⟩)
    (wp_mono (fun _ _ _ _ _ _ => trivial) (wp_both (r.serve_owes s) haside))

end requests

/-! ### Sums -/

/-- The periods do not meet, not even at an instant. -/
def Settlement.Apart (r r' : Settlement) : Prop := r.periodEnd < r'.periodStart ∨ r'.periodEnd < r.periodStart

instance (r r' : Settlement) : Decidable (r.Apart r') := inferInstanceAs (Decidable (_ ∨ _))

section sums
variable {t t' : Table Payment} {D : Payment → Prop} {rs : List Settlement}

/-- Payments that were counted are still there, with the same amounts. -/
theorem persisted_counted (h : Persist Payment.claim t t') {counted : List Payment} (hnodup : counted.Nodup)
    (hmem : ∀ p ∈ counted, p ∈ t.rows) : ∃ counted' : List Payment, counted'.Nodup ∧
      (∀ q ∈ counted', q ∈ t'.rows ∧ ∃ p ∈ counted, q.claim = p.claim) ∧
      counted'.map Payment.claim = counted.map Payment.claim := by
  have hsame : ∃ counted' : List Payment, (∀ q ∈ counted', q ∈ t'.rows ∧ ∃ p ∈ counted, q.claim = p.claim) ∧
      counted'.map Payment.claim = counted.map Payment.claim := by
    clear hnodup
    induction counted with
    | nil => exact ⟨[], by simp, rfl⟩
    | cons p rest ih =>
      obtain ⟨q, hq, hclaim⟩ := h p (hmem p List.mem_cons_self)
      obtain ⟨rest', hrest, hclaims⟩ := ih fun p' hp' => hmem p' (List.mem_cons_of_mem p hp')
      refine ⟨q :: rest', fun q' hq' => ?_, by rw [List.map_cons, List.map_cons, hclaim, hclaims]⟩
      rcases List.mem_cons.mp hq' with rfl | hq'
      · exact ⟨hq, p, List.mem_cons_self, hclaim⟩
      · obtain ⟨hmem', p', hp', hclaim'⟩ := hrest q' hq'
        exact ⟨hmem', p', List.mem_cons_of_mem p hp', hclaim'⟩
  obtain ⟨counted', hcounted, hclaims⟩ := hsame
  have hdistinct : (counted.map Payment.claim).Nodup := by
    refine hnodup.map_on fun p hp q hq hclaim => ?_
    exact payment_eq (hmem p hp) (hmem q hq) (congrArg Claim.id hclaim)
  refine ⟨counted', ?_, hcounted, hclaims⟩
  exact List.Pairwise.of_map Payment.claim (fun _ _ hne hclaim => hne (congrArg _ hclaim)) (hclaims ▸ hdistinct)

theorem Modest.append {xs ys : List Money} (h : Modest (xs ++ ys)) : Modest xs ∧ Modest ys := by
  have hxs : 0 ≤ (xs.map abs).sum := List.sum_nonneg (by simp)
  have hys : 0 ≤ (ys.map abs).sum := List.sum_nonneg (by simp)
  unfold Modest at *
  rw [List.length_append, List.map_append, List.sum_append] at h
  push_cast at h
  constructor <;> nlinarith [Int.natCast_nonneg xs.length, Int.natCast_nonneg ys.length]

theorem modest_of_le {xs : List Money} {n : ℕ} {m : Money} (hlength : xs.length ≤ n) (h : ∀ a ∈ xs, |a| ≤ m) (hm : 0 ≤ m)
    (hnm : n * (n * m + 1) ≤ 2 ^ 49) : Modest xs := by
  have hsum := List.sum_le_card_nsmul (xs.map abs) m (by simpa using h)
  rw [List.length_map, nsmul_eq_mul] at hsum
  have hcast : (xs.length : ℤ) ≤ n := by exact_mod_cast hlength
  have hsize : (xs.map abs).sum + 1 ≤ n * m + 1 :=
    Int.add_le_add_right (hsum.trans (mul_le_mul_of_nonneg_right hcast hm)) 1
  have hpos : 0 ≤ (xs.map abs).sum + 1 := Int.add_nonneg (List.sum_nonneg (by simp)) (by norm_num)
  exact (mul_le_mul hcast hsize hpos (Int.natCast_nonneg n)).trans hnm

/-- Periods that do not meet have no payment in common. -/
theorem sums_apart (hcounted : ∀ r ∈ rs, ∃ counted : List Payment, counted.Nodup ∧ (∀ q ∈ counted, r.Spans q ∧ D q) ∧
      (Modest (counted.map Payment.amount) → r.grossAmount = (counted.map Payment.amount).sum))
    (hperiods : rs.Pairwise Settlement.Apart) : ∃ counted : List Payment, counted.Nodup ∧
      (∀ q ∈ counted, (∃ r ∈ rs, r.Spans q) ∧ D q) ∧ (Modest (counted.map Payment.amount) →
        (rs.map Settlement.grossAmount).sum = (counted.map Payment.amount).sum) := by
  induction rs with
  | nil => exact ⟨[], .nil, by simp, fun _ => rfl⟩
  | cons r rest ih =>
    obtain ⟨hfirst, hrest⟩ := List.pairwise_cons.mp hperiods
    obtain ⟨mine, hmine, hspans, hsum⟩ := hcounted r List.mem_cons_self
    obtain ⟨theirs, htheirs, hspans', hsum'⟩ := ih (fun r' hr' => hcounted r' (List.mem_cons_of_mem r hr')) hrest
    refine ⟨mine ++ theirs, List.nodup_append.mpr ⟨hmine, htheirs, ?_⟩, fun q hq => ?_, fun hmodest => ?_⟩
    · rintro q hq _ hq' rfl
      obtain ⟨⟨hfrom, hto⟩, -⟩ := hspans q hq
      obtain ⟨⟨r', hr', hfrom', hto'⟩, -⟩ := hspans' q hq'
      rcases hfirst r' hr' with hbefore | hafter
      · exact absurd hbefore (Int.not_lt.mpr (Int.le_trans hfrom' hto))
      · exact absurd hafter (Int.not_lt.mpr (Int.le_trans hfrom hto'))
    · rcases List.mem_append.mp hq with hq | hq
      · exact ⟨⟨r, List.mem_cons_self, (hspans q hq).1⟩, (hspans q hq).2⟩
      · obtain ⟨⟨r', hr', hspan⟩, hD⟩ := hspans' q hq
        exact ⟨⟨r', List.mem_cons_of_mem r hr', hspan⟩, hD⟩
    · rw [List.map_append] at hmodest
      simp [hsum hmodest.append.1, hsum' hmodest.append.2]

/-- The payment is SUCCESS. -/
def Store.Paid (s : Store) (id : Id) : Prop := ∃ p ∈ s.payment.rows, p.id = id ∧ p.status = .success

/-- What a settlement has summed up is earned as long as payments and bookings remain what they are for. -/
theorem Settling.counted {H : Store → Prop} {s s' : Store} {r : Settlement} (h : Settling H s s') (hsums : r.Sums s) :
    ∃ counted : List Payment, counted.Nodup ∧
      (∀ q ∈ counted, r.Spans q ∧ s'.Earned r.businessId q ∧ s.Paid q.id) ∧
      (Modest (counted.map Payment.amount) → r.grossAmount = (counted.map Payment.amount).sum) := by
  obtain ⟨counted, hnodup, hcounted, hgross⟩ := hsums
  obtain ⟨counted', hnodup', hclaims, hmap⟩ :=
    persisted_counted h.claims hnodup fun p hp => ((hcounted p).mp hp).1.1
  have hamounts : counted'.map Payment.amount = counted.map Payment.amount := by
    have := congrArg (List.map Claim.amount) hmap
    rwa [List.map_map, List.map_map] at this
  refine ⟨counted', hnodup', fun q hq => ?_, fun hmodest => ?_⟩
  · obtain ⟨hmem, p, hp, hsame⟩ := hclaims q hq
    obtain ⟨⟨hmem', htype, b, hb, hbooked, hbusiness⟩, hstatus, hspans⟩ := (hcounted p).mp hp
    have hid : q.id = p.id := congrArg Claim.id hsame
    have hcreated : q.createdAt = p.createdAt := congrArg Claim.createdAt hsame
    have htype' : q.type = p.type := congrArg Claim.type hsame
    have hbooking : q.bookingId = p.bookingId := congrArg Claim.bookingId hsame
    obtain ⟨b', hb', hdeal⟩ := h.deals b hb
    have hid' : b'.id = b.id := congrArg Deal.id hdeal
    have hbusiness' : b'.businessId = b.businessId := congrArg Deal.businessId hdeal
    refine ⟨?_, ⟨hmem, htype' ▸ htype, b', hb', ?_, hbusiness'.trans hbusiness⟩, p, hmem', hid.symm, hstatus⟩
    · unfold Settlement.Spans
      rwa [hcreated]
    · rw [hbooking, hid', hbooked]
  · rw [hamounts] at hmodest ⊢
    exact (hgross hmodest).1

end sums

/-- In every run a new settlement sums up the payments that were SUCCESS at one moment of it, less the commission of the
business; and those of periods that do not meet add up to payments that the business has earned, each counted once. -/
theorem settlements_of_run {ι : Type} [DecidableEq ι] {r : ι → Request} {s₀ : Store}
    {allowed : Config ι Env Store Err Note Unit → ι → Env → Prop} {c : Config ι Env Store Err Note Unit}
    {past : List (ι × Store)} (hrun : Run allowed (.start (fun i => (r i).serve) s₀) c past) :
    (∀ q ∈ c.store.settlement.rows, q ∈ s₀.settlement.rows ∨ q.Figured (· ∈ c.store :: past.map Prod.snd)) ∧
    ∀ (businessId : Id) (qs : List Settlement), (∀ q ∈ qs, q ∈ c.store.settlement.rows ∧ q ∉ s₀.settlement.rows ∧
      q.businessId = businessId) → qs.Pairwise Settlement.Apart → ∃ counted : List Payment, counted.Nodup ∧
        (∀ p ∈ counted, (∃ q ∈ qs, q.Spans p) ∧ c.store.Earned businessId p ∧
          ∃ s ∈ c.store :: past.map Prod.snd, s.Paid p.id) ∧
        (Modest (counted.map Payment.amount) →
          (qs.map Settlement.grossAmount).sum = (counted.map Payment.amount).sum) := by
  -- Of a store only what a settlement can tell matters here, and writing one does not change that.
  let H (s : Store) : Prop := ∃ s' ∈ c.store :: past.map Prod.snd, SameBooks s' s
  have hmet : ∀ s ∈ c.store :: past.map Prod.snd, H s := fun s hs => ⟨s, hs, rfl, rfl, rfl⟩
  have hbooks : ∀ s s', SameBooks s s' → H s → H s' := by
    rintro s s' ⟨hpayment, hbooking, hbusiness⟩ ⟨s'', hs'', h⟩
    exact ⟨s'', hs'', hpayment.trans h.1, hbooking.trans h.2.1, hbusiness.trans h.2.2⟩
  have howes (i : ι) : wp (settling H) anyway (r i).serve none [] s₀ s₀ :=
    (r i).settling_owes hbooks (hmet s₀ hrun.start_mem)
  have hsettling := (Run.among howes hrun hmet).1
  have hfigured : ∀ q ∈ c.store.settlement.rows, q ∈ s₀.settlement.rows ∨
      q.Figured (· ∈ c.store :: past.map Prod.snd) := by
    intro q hq
    rcases (hsettling s₀ hrun.start_mem).settlements q hq with hold | ⟨⟨s, ⟨s', hs', hsame⟩, hsums⟩, s₁, ⟨s₁', hs₁', hsame₁⟩,
      hsplits⟩
    · exact .inl hold
    · exact .inr ⟨⟨s', hs', hsame.sums.mp hsums⟩, s₁', hs₁', hsame₁.splits.mp hsplits⟩
  refine ⟨hfigured, fun businessId qs hqs hapart => sums_apart (fun q hq => ?_) hapart⟩
  obtain ⟨hmem, hnew, hbusiness⟩ := hqs q hq
  obtain ⟨⟨s, hs, hsums⟩, -⟩ := (hfigured q hmem).resolve_left hnew
  obtain ⟨counted, hnodup, hearned, hgross⟩ := (hsettling s hs).counted hsums
  refine ⟨counted, hnodup, fun p hp => ?_, hgross⟩
  obtain ⟨hspans, hearn, hpaid⟩ := hearned p hp
  exact ⟨hspans, hbusiness ▸ hearn, s, hs, hpaid⟩

/-- A shop that is charged 18.4 percent, with an administrator and a booking that three deposits are for; the second was
never paid. -/
def paidShop : Store := { shop with
  user := ⟨[
    { id := 1, phone := "09120000000", passwordHash := ⟨""⟩, fullName := "" },
    { id := 2, phone := "09120000009", passwordHash := ⟨""⟩, fullName := "", globalRole := .admin }], by decide⟩
  business := .single {
    id := 1, ownerId := 1, name := "", category := "", status := .approved, commissionPercent := 1840
    cancellationPolicy := defaultCancellationPolicy }
  booking := .single {
    id := 1, userId := 1, businessId := 1, branchId := 1, staffMemberId := none, serviceId := 1
    startTime := hour, endTime := 2 * hour, status := .confirmed, priceSnapshot := 100000, depositRequired := 18750
    cancellationPolicySnapshot := defaultCancellationPolicy }
  payment := ⟨[
    { id := 1, bookingId := some 1, userId := 1, type := .deposit, status := .success, amount := 18750
      gateway := .wallet, createdAt := 5 },
    { id := 2, bookingId := some 1, userId := 1, type := .deposit, status := .initiated, amount := 40000
      gateway := .mock, createdAt := 6 },
    { id := 3, bookingId := some 1, userId := 1, type := .deposit, status := .success, amount := 20000
      gateway := .wallet, createdAt := 15 }], by decide⟩ }

/-- The administrator settles the first period, or the second. -/
def settleShop (first : Bool) : Request := .runSettlement 2 (if first then
  { businessId := some 1, periodStart := 0, periodEnd := 10 } else { businessId := some 1, periodStart := 11, periodEnd := 20 })

/-- Both periods are settled at once, step by step in turn, and both paid deposits are paid out once, less a commission
of 34 toman (18.4 percent of 187.50 are 34.5, and in doubles just less) and of 37. -/
theorem settlements_of_run_turns : ∃ (c : Config Bool Env Store Err Note Unit) (past : List (Bool × Store)),
    Run (fun _ _ _ => True) (.start (fun i => (settleShop i).serve) paidShop) c past ∧
    (c.store.settlement.rows.map fun q => (q.grossAmount, q.commissionAmount, q.netAmount)) =
      [(18750, 3400, 15350), (20000, 3700, 16300)] ∧
    (∀ q ∈ c.store.settlement.rows, q.Figured (· ∈ c.store :: past.map Prod.snd)) ∧
    ∃ counted : List Payment, counted.Nodup ∧ (counted.map Payment.amount).sum = 38750 ∧
      ∀ p ∈ counted, c.store.Earned 1 p ∧ ∃ s ∈ c.store :: past.map Prod.snd, s.Paid p.id := by
  obtain ⟨past, hrun⟩ := Run.follow .refl (Config.admits_all (.start (fun i => (settleShop i).serve) paidShop)
    ((List.replicate 5 [(true, .of 30 7), (false, .of 30 8)]).flatten))
  have hfigures : (((Config.start (fun i => (settleShop i).serve) paidShop).follow ((List.replicate 5 [(true, Env.of 30 7),
      (false, Env.of 30 8)]).flatten)).store.settlement.rows.map fun q =>
        (q.grossAmount, q.commissionAmount, q.netAmount)) = [(18750, 3400, 15350), (20000, 3700, 16300)] := by decide +kernel
  have hgross : ((Config.start (fun i => (settleShop i).serve) paidShop).follow ((List.replicate 5 [(true, Env.of 30 7),
      (false, Env.of 30 8)]).flatten)).store.settlement.rows.map Settlement.grossAmount = [18750, 20000] := by decide +kernel
  have hrows : ∀ q ∈ ((Config.start (fun i => (settleShop i).serve) paidShop).follow ((List.replicate 5
      [(true, Env.of 30 7), (false, Env.of 30 8)]).flatten)).store.settlement.rows, q.businessId = 1 := by decide +kernel
  have hamounts : ∀ p ∈ ((Config.start (fun i => (settleShop i).serve) paidShop).follow ((List.replicate 5
      [(true, Env.of 30 7), (false, Env.of 30 8)]).flatten)).store.payment.rows, |p.amount| ≤ 40000 := by decide +kernel
  obtain ⟨counted, hnodup, hearned, hsum⟩ := (settlements_of_run hrun).2 1 _
    (fun q hq => ⟨hq, List.not_mem_nil, hrows q hq⟩) (by decide +kernel)
  have hmodest : Modest (counted.map Payment.amount) := by
    have hfew := (List.subperm_of_subset hnodup fun p hp => (hearned p hp).2.1.1).length_le
    refine modest_of_le (n := 3) (m := 40000) (by rw [List.length_map]; exact hfew.trans (by decide +kernel)) ?_ (by norm_num)
      (by norm_num)
    intro a ha
    obtain ⟨p, hp, rfl⟩ := List.mem_map.mp ha
    exact hamounts p (hearned p hp).2.1.1
  exact ⟨_, past, hrun, hfigures, fun q hq => ((settlements_of_run hrun).1 q hq).resolve_left List.not_mem_nil, counted,
    hnodup, by rw [← hsum hmodest, hgross]; rfl, fun p hp => (hearned p hp).2⟩

end BookingPlatform
