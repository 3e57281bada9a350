import BookingPlatform.Sole

/-! What the database keeps of one business, and the writes that leave it alone. -/
namespace BookingPlatform
open Async Data

/-- The rows of one business. -/
structure Estate where
  profile : List Business
  documents : List BusinessDocument
  branches : List Branch
  staff : List StaffMember
  services : List Service
  serviceStaff : List ServiceStaff
  workingHours : List WorkingHours
  holidays : List Holiday
  bookings : List Booking
  payments : List Payment
  coupons : List Coupon
  settlements : List Settlement

/-- A target is of the business when all that is given of it is. -/
def targets (branches : List Branch) (staff : List StaffMember) (branchId staffMemberId : Option Id) :
    Bool :=
  (branchId.isSome || staffMemberId.isSome) && branchId.all (fun id => branches.any fun b => b.id == id) &&
    staffMemberId.all fun id => staff.any fun m => m.id == id

/-- The service and the staff member are of the business. -/
def links (services : List Service) (staff : List StaffMember) (r : ServiceStaff) : Bool :=
  (services.any fun s => s.id == r.serviceId) && staff.any fun m => m.id == r.staffMemberId

namespace Store
variable (s : Store) (B : Id)

def estate : Estate where
  profile := s.business.only fun r => r.id == B
  documents := s.businessDocument.only fun r => r.businessId == B
  branches := s.branch.only fun r => r.businessId == B
  staff := s.staffMember.only fun r => r.businessId == B
  services := s.service.only fun r => r.businessId == B
  serviceStaff := s.serviceStaff.only
    (links (s.service.only fun r => r.businessId == B) (s.staffMember.only fun r => r.businessId == B))
  workingHours := s.workingHours.only fun r => targets (s.branch.only fun r => r.businessId == B)
    (s.staffMember.only fun r => r.businessId == B) r.branchId r.staffMemberId
  holidays := s.holiday.only fun r => targets (s.branch.only fun r => r.businessId == B)
    (s.staffMember.only fun r => r.businessId == B) r.branchId r.staffMemberId
  bookings := s.booking.only fun r => r.businessId == B
  payments := s.payment.only fun r =>
    r.bookingId.any fun id => (s.booking.only fun b => b.businessId == B).any fun b => b.id == id
  coupons := s.coupon.only fun r => r.businessId == some B
  settlements := s.settlement.only fun r => r.businessId == B

/-- The coupons of the platform. -/
def globalCoupons : List Coupon := s.coupon.only fun r => r.businessId == none

end Store

/-- A change that leaves the rows of `B` and the coupons of the platform alone. -/
structure Elsewhere (B : Id) (s s' : Store) : Prop where
  estate : s'.estate B = s.estate B
  globalCoupons : s'.globalCoupons = s.globalCoupons

section
variable {B : Id} {s s' s'' : Store}

theorem Elsewhere.refl (s : Store) : Elsewhere B s s := ⟨rfl, rfl⟩

theorem Elsewhere.trans (h : Elsewhere B s s') (h' : Elsewhere B s' s'') : Elsewhere B s s'' :=
  ⟨h'.estate.trans h.estate, h'.globalCoupons.trans h.globalCoupons⟩

/-- A table whose rows name their business. -/
class Tenanted (T : Type) [Model T] where
  owner : T → Id
  elsewhere : ∀ (B : Id) (s : Store), MayBut (Elsewhere B) s fun r => owner r == B

instance : Tenanted Business where
  owner := Business.id
  elsewhere B s _ h := ⟨congrArg (fun rows => { s.estate B with profile := rows }) h, rfl⟩

instance : Tenanted BusinessDocument where
  owner := BusinessDocument.businessId
  elsewhere B s _ h := ⟨congrArg (fun rows => { s.estate B with documents := rows }) h, rfl⟩

-- The hours and holidays of a business are found through its branches and its staff.
instance : Tenanted Branch where
  owner := Branch.businessId
  elsewhere B s _ h :=
    ⟨congrArg (fun rows : List Branch => { s.estate B with
      branches := rows
      workingHours := s.workingHours.only fun r => targets rows
        (s.staffMember.only fun r => r.businessId == B) r.branchId r.staffMemberId
      holidays := s.holiday.only fun r => targets rows
        (s.staffMember.only fun r => r.businessId == B) r.branchId r.staffMemberId }) h, rfl⟩

instance : Tenanted StaffMember where
  owner := StaffMember.businessId
  elsewhere B s _ h :=
    ⟨congrArg (fun rows : List StaffMember => { s.estate B with
      staff := rows
      serviceStaff := s.serviceStaff.only (links (s.service.only fun r => r.businessId == B) rows)
      workingHours := s.workingHours.only fun r => targets
        (s.branch.only fun r => r.businessId == B) rows r.branchId r.staffMemberId
      holidays := s.holiday.only fun r => targets
        (s.branch.only fun r => r.businessId == B) rows r.branchId r.staffMemberId }) h, rfl⟩

instance : Tenanted Service where
  owner := Service.businessId
  elsewhere B s _ h :=
    ⟨congrArg (fun rows : List Service => { s.estate B with
      services := rows
      serviceStaff := s.serviceStaff.only
        (links rows (s.staffMember.only fun r => r.businessId == B)) }) h, rfl⟩

instance : Tenanted Booking where
  owner := Booking.businessId
  elsewhere B s _ h :=
    ⟨congrArg (fun rows : List Booking => { s.estate B with
      bookings := rows
      payments := s.payment.only fun r =>
        r.bookingId.any fun id => rows.any fun b => b.id == id }) h, rfl⟩

section owned
variable {T : Type} [Model T] [Tenanted T] {p : T → Bool} {f : T → T} {row : Id → T} {r : T} {g : Env}

open Tenanted

theorem create_elsewhere (h : create row g s = .ok (r, s')) (hr : ∀ id, owner (row id) ≠ B) :
    Elsewhere B s s' :=
  create_but (elsewhere B s) h fun id => by simpa using hr id

theorem update_elsewhere {hf : Table.Keeps f} (h : update p f hf g s = .ok (r, s'))
    (hp : ∀ r ∈ (Model.get s).rows, p r = true → owner r ≠ B) (howner : ∀ r, owner (f r) = owner r) :
    Elsewhere B s s' := by
  refine update_but (elsewhere B s) h fun r hr hpr => ?_
  simpa [howner] using hp r hr hpr

/-- A write of the one row with an identifier. -/
theorem update_one_elsewhere {hf : Table.Keeps f} {r₀ : T} (h : update p f hf g s = .ok (r, s'))
    (hr₀ : r₀ ∈ (Model.get s).rows) (hp : ∀ r, p r = true → Indexed.clash r r₀ = true)
    (hB : owner r₀ ≠ B) (howner : ∀ r, owner (f r) = owner r) : Elsewhere B s s' := by
  refine update_elsewhere h (fun r hr hpr => ?_) howner
  rwa [Table.eq_of_clash hr hr₀ (hp r hpr)]

end owned

/-! ### Tables whose rows belong to a business through others -/

theorem workingHours_elsewhere : MayBut (Elsewhere B) s fun r : WorkingHours =>
    targets (s.estate B).branches (s.estate B).staff r.branchId r.staffMemberId := by
  intro t h
  exact ⟨congrArg (fun rows => { s.estate B with workingHours := rows }) h, rfl⟩

theorem holiday_elsewhere : MayBut (Elsewhere B) s fun r : Holiday =>
    targets (s.estate B).branches (s.estate B).staff r.branchId r.staffMemberId := by
  intro t h
  exact ⟨congrArg (fun rows => { s.estate B with holidays := rows }) h, rfl⟩

theorem serviceStaff_elsewhere : MayBut (Elsewhere B) s (links (s.estate B).services (s.estate B).staff) := by
  intro t h
  exact ⟨congrArg (fun rows => { s.estate B with serviceStaff := rows }) h, rfl⟩

/-- The coupons of `B` and of the platform. -/
theorem coupon_elsewhere : MayBut (Elsewhere B) s fun r : Coupon =>
    r.businessId == some B || r.businessId == none := by
  intro t h
  have hkept (q : Coupon → Bool)
      (hq : ∀ r, q r = true → (r.businessId == some B || r.businessId == none) = true) :
      t.only q = s.coupon.only q := by
    have hboth (u : Table Coupon) : (u.only fun r => r.businessId == some B || r.businessId == none).filter q =
        u.only q := by
      rw [Table.only, Table.only, List.filter_filter]
      refine List.filter_congr fun r _ => ?_
      cases hqr : q r with
      | false => rfl
      | true => rw [hq r hqr, Bool.true_and]
    rw [← hboth t, h]
    exact hboth s.coupon
  refine ⟨congrArg (fun rows => { s.estate B with coupons := rows }) (hkept _ fun r hr => ?_), ?_⟩
  · rw [hr, Bool.true_or]
  · exact hkept _ fun r hr => by rw [hr, Bool.or_true]

end
end BookingPlatform
