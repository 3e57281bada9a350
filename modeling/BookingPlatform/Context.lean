import BookingPlatform.Async.Play
import BookingPlatform.Booking
import BookingPlatform.Schedule

/-! What a booking asks of the store, whatever the world hands to its calls. -/
namespace BookingPlatform
open Async Data Prog AvailabilityService

section
variable {α β : Type} {world : ℕ → Env} {k : ℕ} {v : Option Store} {s : Store}

theorem play_query (hup : ∀ k, (world k).down = false) (q : Query α) :
    (query q).play world k v s = (.ok (q (world k) (v.getD s)), k + 1, v, s) :=
  play_read (q := q) fun s => by simp [attempt, hup]

theorem play_look (q : Env → α) : (look q).play world k v s = (.ok (q (world k)), k + 1, v, s) :=
  play_read (q := fun g _ => q g) fun _ => rfl

theorem play_clock : clock.play world k v s = (.ok (world k).now, k + 1, v, s) := play_look _

theorem play_query_bind (hup : ∀ k, (world k).down = false) (q : Query α) (f : α → Task β) :
    (query q >>= f).play world k v s = (f (q (world k) (v.getD s))).play world (k + 1) v s :=
  play_bind_ok (play_query hup q) f

/-- A row that is found in the way that the program asks for. -/
theorem play_find {R : Type} [Model R] {p : R → Bool} {e : Err} {f : R → Task α} {r : R}
    (hup : ∀ k, (world k).down = false) (hfound : findFirst p (world k) s = some r) :
    (query (findFirst p) >>= fun found => orThrow found e >>= f).play world k none s =
      (f r).play world (k + 1) none s := by
  rw [play_query_bind hup, Option.getD_none, hfound]
  rfl

theorem play_transaction {body : Task α} {a : α} {k' : ℕ} {v' : Option Store} {s' : Store}
    (hup : ∀ k, (world k).down = false)
    (h : body.play world (k + 1) (some s) s = (.ok a, k', v', s')) :
    (transaction body).play world k v s = (.ok a, k' + 1, none, v'.getD s') :=
  play_transaction_ok h (by simp [hup])

/-- The rows that `loadAndValidateContext` looks up are there. -/
structure Orderable (s : Store) (businessId branchId serviceId : Id) (staffMemberId : Option Id)
    (business : Business) (service : Service) : Prop where
  business : business ∈ s.business.rows ∧ business.id = businessId ∧ business.status = .approved
  branch : ∃ r ∈ s.branch.rows, r.id = branchId ∧ r.businessId = businessId
  service : service ∈ s.service.rows ∧ service.id = serviceId ∧ service.businessId = businessId ∧
    service.isActive = true
  staff : ∀ m, truthyId staffMemberId = some m →
    ∃ r ∈ s.staffMember.rows, r.id = m ∧ r.businessId = businessId ∧ r.isActive = true

theorem play_loadAndValidateContext (hup : ∀ k, (world k).down = false)
    {businessId branchId serviceId : Id} {staffMemberId : Option Id} {business : Business}
    {service : Service} (h : Orderable s businessId branchId serviceId staffMemberId business service) :
    ∃ k', (BookingService.loadAndValidateContext businessId branchId serviceId
      staffMemberId).play world k none s = (.ok (business, service), k', none, s) := by
  have hbusiness : findFirst (fun r : Business => r.id == businessId && r.status == .approved)
      (world k) s = some business := by
    obtain ⟨hmem, hid, hstatus⟩ := h.business
    apply findFirst_of_unique hmem (by simp [hid, hstatus])
    intro r hr hp
    simp only [Bool.and_eq_true, beq_iff_eq] at hp
    exact Table.eq_of_clash hr hmem (by simp [Indexed.clash, hp.1, hid])
  have hservice : findFirst (fun r : Service => r.id == serviceId && r.businessId == businessId &&
      r.isActive) (world (k + 1 + 1)) s = some service := by
    obtain ⟨hmem, hid, hof, hactive⟩ := h.service
    apply findFirst_of_unique hmem (by simp [hid, hof, hactive])
    intro r hr hp
    simp only [Bool.and_eq_true, beq_iff_eq] at hp
    exact service_eq hr hmem (hp.1.1.trans hid.symm)
  obtain ⟨branch, hbranch, hbranchId, hbranchOf⟩ := h.branch
  obtain ⟨branch', hbranch'⟩ := findFirst_exists (p := fun r : Branch => r.id == branchId &&
    r.businessId == businessId) hbranch (by simp [hbranchId, hbranchOf]) (world (k + 1))
  unfold BookingService.loadAndValidateContext
  rw [play_find hup hbusiness, play_find hup hbranch', play_find hup hservice]
  cases hstaff : truthyId staffMemberId with
  | none => exact ⟨_, rfl⟩
  | some m =>
    obtain ⟨r, hr, hid, hof, hactive⟩ := h.staff m hstaff
    obtain ⟨r', hr'⟩ := findFirst_exists (p := fun r : StaffMember => r.id == m &&
      r.businessId == businessId && r.isActive) hr (by simp [hid, hof, hactive]) (world (k + 1 + 1 + 1))
    dsimp only
    rw [play_find hup hr']
    exact ⟨_, rfl⟩

end
end BookingPlatform
