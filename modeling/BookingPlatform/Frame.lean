import BookingPlatform.Api

/-! Which tables the functions write. -/
namespace BookingPlatform
open Async Data Prog

/-- Every effect of the statement is within `R`. -/
def StmtWithin {α : Type} (R : Store → Store → Prop) (q : Stmt α) : Prop :=
  ∀ g s a s', q g s = .ok (a, s') → R s s'

/-- `R` lets this table be written. -/
def May (R : Store → Store → Prop) (T : Type) [Model T] : Prop :=
  ∀ (s : Store) (t : Table T), R s (Model.set s t)

/-- `R` lets the locks be written. -/
def MayLock (R : Store → Store → Prop) : Prop := ∀ (s : Store) (t : Table Lock), R s { s with lock := t }

section statements
variable {R : Store → Store → Prop} {T : Type} [Model T] {p : T → Bool} {f : T → T} {row : Id → T}

theorem put_within (hT : May R T) {r : T} {s s' : Store} (h : put r s = .ok s') : R s s' := by
  obtain ⟨-, t, -, rfl⟩ := put_ok h
  exact hT s t

theorem create_within (hT : May R T) : StmtWithin R (create row) :=
  fun _ _ _ _ h => put_within hT (create_ok h).2

theorem createAt_within {row : Time → Id → T} (hT : May R T) : StmtWithin R (createAt row) :=
  fun _ _ _ _ h => put_within hT (create_ok h).2

theorem createMany_within {rows : List (Id → T)} (hrefl : ∀ s, R s s)
    (htrans : ∀ s s' s'', R s s' → R s' s'' → R s s'') (hT : May R T) :
    StmtWithin R (createMany rows) := by
  have hall {g : Env} {rows : List (Id → T)} {k : ℕ} {s s' : Store}
      (h : putAll g k rows s = .ok s') : R s s' := by
    induction rows generalizing k s with
    | nil =>
      obtain rfl := by simpa [putAll] using h
      exact hrefl s
    | cons row rest ih =>
      cases hp : put (row (g.newId k)) s with
      | error e => simp [putAll, hp, Except.bind] at h
      | ok s₁ =>
        exact htrans s s₁ s' (put_within hT hp) (ih (by simpa [putAll, hp, Except.bind] using h))
  exact fun g s a s' h => hall (createMany_ok h)

theorem update_within {hf : Table.Keeps f} (hT : May R T) : StmtWithin R (update p f hf) := by
  intro g s a s' h
  rw [(update_ok h).2]
  exact hT s _

theorem updateMany_within {hf : Table.Keeps f} (hT : May R T) :
    StmtWithin R (updateMany p f hf) := by
  intro g s a s' h
  obtain ⟨-, rfl⟩ := by simpa [updateMany] using h
  exact hT s _

theorem updateUnique_within (hT : May R T) : StmtWithin R (updateUnique p f) := by
  intro g s a s' h
  obtain ⟨-, t, -, rfl⟩ := updateUnique_ok h
  exact hT s t

theorem upsert_within (hrefl : ∀ s, R s s) (hT : May R T) : StmtWithin R (upsert p row) := by
  intro g s a s' h
  rcases upsert_ok h with ⟨-, -, rfl⟩ | ⟨-, -, hp⟩
  · exact hrefl s'
  · exact put_within hT hp

theorem delete_within (hT : May R T) : StmtWithin R (delete p) := by
  intro g s a s' h
  rw [(delete_ok h).2.2]
  exact hT s _

theorem deleteMany_within (hT : May R T) : StmtWithin R (deleteMany p) := by
  intro g s a s' h
  obtain ⟨-, rfl⟩ := by simpa [deleteMany] using h
  exact hT s _

/-- `R` lets rows of this table be added, and rewritten outside its unique columns. -/
structure Grows (R : Store → Store → Prop) (T : Type) [Model T] : Prop where
  create {row : Id → T} : StmtWithin R (create row)
  update {p : T → Bool} {f : T → T} {hf : Table.Keeps f} : StmtWithin R (update p f hf)

theorem May.grows (hT : May R T) : Grows R T := ⟨create_within hT, update_within hT⟩

theorem Grows.upsert (hT : Grows R T) (hrefl : ∀ s, R s s) : StmtWithin R (upsert p row) := by
  intro g s a s' h
  rcases upsert_ok h with ⟨-, -, rfl⟩ | ⟨-, hrow, hp⟩
  · exact hrefl s'
  · have hcreate : BookingPlatform.create row g s = .ok (a, s') := by
      simp [BookingPlatform.create, ← hrow, hp, Except.map]
    exact hT.create g s a s' hcreate

end statements

/-- `R` lets this table be written as long as certain rows are kept. -/
def MayBut (R : Store → Store → Prop) (s : Store) {T : Type} [Model T] (kept : T → Bool) : Prop :=
  ∀ t : Table T, t.only kept = (Model.get s).only kept → R s (Model.set s t)

section rows
variable {R : Store → Store → Prop} {T : Type} [Model T] {kept : T → Bool} {p : T → Bool} {f : T → T}
  {row : Id → T} {r : T} {n : ℕ} {g : Env} {s s' : Store} (hR : MayBut R s kept)
include hR

theorem put_but (h : put r s = .ok s') (hr : kept r = false) : R s s' := by
  obtain ⟨-, t, ht, rfl⟩ := put_ok h
  exact hR t (Table.only_insert ht hr)

theorem create_but (h : create row g s = .ok (r, s')) (hr : ∀ id, kept (row id) = false) : R s s' := by
  obtain ⟨rfl, hput⟩ := create_ok h
  exact put_but hR hput (hr _)

theorem upsert_but (hrefl : ∀ s, R s s) (h : upsert p row g s = .ok (r, s'))
    (hr : ∀ id, kept (row id) = false) : R s s' := by
  rcases upsert_ok h with ⟨-, -, rfl⟩ | ⟨-, rfl, hput⟩
  · exact hrefl s'
  · exact put_but hR hput (hr _)

theorem update_but {hf : Table.Keeps f} (h : update p f hf g s = .ok (r, s'))
    (hp : ∀ r ∈ (Model.get s).rows, p r = true → kept r = false ∧ kept (f r) = false) : R s s' := by
  rw [(update_ok h).2]
  exact hR _ (Table.only_update hf hp)

theorem updateMany_but {hf : Table.Keeps f} (h : updateMany p f hf g s = .ok (n, s'))
    (hp : ∀ r ∈ (Model.get s).rows, p r = true → kept r = false ∧ kept (f r) = false) : R s s' := by
  obtain ⟨-, rfl⟩ := by simpa [updateMany] using h
  exact hR _ (Table.only_update hf hp)

theorem updateUnique_but (h : updateUnique p f g s = .ok (r, s'))
    (hp : ∀ r ∈ (Model.get s).rows, p r = true → kept r = false ∧ kept (f r) = false) : R s s' := by
  obtain ⟨-, t, ht, rfl⟩ := updateUnique_ok h
  exact hR t (Table.only_rewrite ht hp)

theorem delete_but (h : delete p g s = .ok (r, s'))
    (hp : ∀ r ∈ (Model.get s).rows, p r = true → kept r = false) : R s s' := by
  rw [(delete_ok h).2.2]
  exact hR _ (Table.only_delete hp)

theorem deleteMany_but (h : deleteMany p g s = .ok (n, s'))
    (hp : ∀ r ∈ (Model.get s).rows, p r = true → kept r = false) : R s s' := by
  obtain ⟨-, rfl⟩ := by simpa [deleteMany] using h
  exact hR _ (Table.only_delete hp)

end rows

section programs
variable {α : Type} {R : Store → Store → Prop} {N : Note → Prop} {whole : Bool}

theorem within_query (hrefl : ∀ s, R s s) (q : Query α) : Within R N whole (query q) := by
  refine .op fun g s a s' h => ?_
  obtain ⟨-, rfl⟩ := by simpa using attempt_ok h
  exact hrefl s

theorem within_look (hrefl : ∀ s, R s s) (q : Env → α) : Within R N whole (look q) := by
  refine .op fun g s a s' h => ?_
  obtain ⟨-, rfl⟩ := by simpa using h
  exact hrefl s

theorem within_tx {q : Stmt α} (hq : StmtWithin R q) : Within R N whole (tx q) :=
  .op fun g s a s' h => hq g s a s' (attempt_ok h)

theorem within_prisma {q : Stmt α} (hq : StmtWithin R q) : Within R N true (prisma q) :=
  .single fun g s a s' h => hq g s a s' (attempt_ok h)

theorem within_transaction {body : Task α} (hrefl : ∀ s, R s s) (hbody : Within R N true body) :
    Within R N true (transaction body) := by
  refine .transaction (fun g s s' h => ?_) hbody
  split at h
  · simp at h
  · obtain rfl := Except.ok.inj h
    exact hrefl s

theorem within_findUniqueOrThrow {T : Type} [Model T] (hrefl : ∀ s, R s s) (p : T → Bool) :
    Within R N whole (findUniqueOrThrow p) := by
  refine .bind (within_query hrefl _) fun r => ?_
  cases r <;> trivial

end programs

/-- The notes about locks, coupons, rewards and credentials; what is aside is no part of the core. -/
def Note.aside : Note → Prop
  | .locked .. | .counted .. | .points .. | .referred _ | .auth _ => True
  | _ => False

section services
variable {R : Store → Store → Prop} {N : Note → Prop} {whole : Bool} (hrefl : ∀ s, R s s)
  (hN : ∀ x : Note, x.aside → N x)
include hrefl hN

/-! ### Loyalty and referrals -/

theorem addPoints_within (hA : Grows R LoyaltyAccount) (hT : May R LoyaltyTransaction) (userId : Id)
    (points : ℤ) (reason : String) (ref : Option Id) :
    Within R N whole (LoyaltyService.addPoints userId points reason ref) :=
  .bind (within_tx (hA.upsert hrefl)) fun _ => .bind (.mark (hN _ trivial)) fun _ =>
    .bind (within_tx hA.update) fun _ => .bind (within_tx (create_within hT)) fun _ => .pure _

theorem earnFromPurchase_within (hA : Grows R LoyaltyAccount) (hT : May R LoyaltyTransaction)
    (userId : Id) (amount : Money) (reason : String) :
    Within R N whole (LoyaltyService.earnFromPurchase userId amount reason) := by
  unfold LoyaltyService.earnFromPurchase
  dsimp only
  split
  · exact .pure _
  · exact addPoints_within hrefl hN hA hT _ _ _ _

theorem rewardIfEligible_within (hA : Grows R LoyaltyAccount) (hT : May R LoyaltyTransaction)
    (hR : May R Referral) (refereeId : Id) :
    Within R N whole (ReferralService.rewardIfEligible refereeId) := by
  refine .bind (within_query hrefl _) fun referral => ?_
  cases referral with
  | none => exact .pure _
  | some referral =>
    dsimp only
    split
    · exact .pure _
    · exact .bind (.mark (hN _ trivial)) fun _ =>
        .bind (addPoints_within hrefl hN hA hT _ _ _ _) fun _ =>
        .bind (addPoints_within hrefl hN hA hT _ _ _ _) fun _ => .bind (within_look hrefl _) fun _ =>
        .bind (within_tx (update_within hR)) fun _ => .pure _

theorem awardPostPurchaseRewards_within (hA : Grows R LoyaltyAccount) (hT : May R LoyaltyTransaction)
    (hR : May R Referral) (userId : Id) (amount : Money) :
    Within R N whole (BookingService.awardPostPurchaseRewards userId amount) :=
  .bind (earnFromPurchase_within hrefl hN hA hT _ _ _) fun _ =>
    rewardIfEligible_within hrefl hN hA hT hR _

omit hN in
theorem registerReferral_within (hR : May R Referral) (referrerCode refereeId : Id) :
    Within R N true (ReferralService.registerReferral referrerCode refereeId) := by
  refine .tryCatch ?_ fun _ => .pure _
  split
  · exact .pure _
  · refine .bind (within_query hrefl _) fun referrer => ?_
    cases referrer with
    | none => exact .pure _
    | some referrer =>
      refine .bind (within_query hrefl _) fun existing => ?_
      cases existing with
      | some existing => exact .pure _
      | none => exact .bind (within_prisma (create_within hR)) fun _ => .pure _

/-! ### Coupons -/

theorem checkAndCompute_within (code : String) (userId : Id) (businessId : Option Id)
    (purchaseAmount : Money) :
    Within R N whole (CouponService.checkAndCompute code userId businessId purchaseAmount) :=
  .bind (within_query hrefl _) fun _ => .bind (.orThrow _ _) fun _ =>
    .bind (.mark (hN _ trivial)) fun _ => .bind (within_look hrefl _) fun _ =>
    .bind (.ensure _ _) fun _ => .bind (.ensure _ _) fun _ => .bind (.ensure _ _) fun _ =>
    .bind (.ensure _ _) fun _ => .bind (within_query hrefl _) fun _ => .bind (.ensure _ _) fun _ => .pure _

theorem checkAndRedeem_within (hU : May R CouponUsage) (hC : May R Coupon) (code : String)
    (userId : Id) (businessId : Option Id) (purchaseAmount : Money) (bookingId : Option Id) :
    Within R N whole
      (CouponService.checkAndRedeem code userId businessId purchaseAmount bookingId) :=
  .bind (checkAndCompute_within hrefl hN _ _ _ _) fun _ => .bind (within_tx (create_within hU)) fun _ =>
    .bind (within_tx (update_within hC)) fun _ => .pure _

theorem redeemFor_within (hU : May R CouponUsage) (hC : May R Coupon) (userId : Id)
    (dto : HoldBookingDto) (service : Service) :
    Within R N whole (BookingService.redeemFor userId dto service) := by
  unfold BookingService.redeemFor
  split
  · exact .bind (checkAndRedeem_within hrefl hN hU hC _ _ _ _ _) fun _ => .pure _
  · exact .pure _

omit hrefl hN in
theorem linkUsage_within (hU : May R CouponUsage) (userId bookingId : Id) (couponId : Option Id) :
    Within R N whole (BookingService.linkUsage userId bookingId couponId) := by
  cases couponId with
  | some couponId => exact .bind (within_tx (update_within hU)) fun _ => .pure _
  | none => exact .pure _

omit hN in
theorem createCoupon_within (hC : May R Coupon) (businessId : Option Id) (dto : CreateCouponDto) :
    Within R N true (CouponService.create businessId dto) :=
  .bind (within_query hrefl _) fun _ => .bind (.ensure _ _) fun _ =>
    .bind (.ensure _ _) fun _ => within_prisma (create_within hC)

omit hN in
theorem updateCoupon_within (hC : May R Coupon) (couponId : Id) (dto : UpdateCouponDto) :
    Within R N true (CouponService.update couponId dto) :=
  .bind (within_query hrefl _) fun _ => .bind (.orThrow _ _) fun _ =>
    within_prisma (update_within hC)

/-! ### Locks -/

omit hN in
theorem acquire_within (hL : MayLock R) (key : LockKey) (ttlMs : Time) :
    Within R N whole (RedisLockService.acquire key ttlMs) := by
  refine .op fun g s a s' h => ?_
  have h := attempt_ok h
  split at h
  · obtain ⟨-, rfl⟩ := by simpa using h
    exact hrefl s
  · split at h
    · obtain ⟨-, rfl⟩ := by simpa using h
      exact hL s _
    · obtain ⟨-, rfl⟩ := by simpa using h
      exact hrefl s

omit hrefl hN in
theorem release_within (hL : MayLock R) (key : LockKey) (token : Id) :
    Within R N whole (RedisLockService.release key token) := by
  refine .op fun g s a s' h => ?_
  obtain rfl := by simpa using attempt_ok h
  exact hL s _

theorem withLock_within {α : Type} (hL : MayLock R) (key : LockKey) {fn : Task α}
    (hfn : Within R N whole fn) : Within R N whole (RedisLockService.withLock key fn) :=
  .bind (acquire_within hrefl hL _ _) fun _ => .bind (.orThrow _ _) fun _ =>
    .bind (.mark (hN _ trivial)) fun _ => .andThen hfn fun _ =>
    .andThen (release_within hL _ _) fun r => .onOk (fun _ => .done _) r

/-! ### Availability -/

omit hN

theorem resolveWorkingWindow_within (branchId : Id) (staffId : Option Id) (dayOfWeek : ℤ) :
    Within R N whole (AvailabilityService.resolveWorkingWindow branchId staffId dayOfWeek) := by
  unfold AvailabilityService.resolveWorkingWindow
  refine .bind ?_ fun any => .bind ?_ fun _ => .pure _
  · split
    · exact within_query hrefl _
    · exact .pure _
  · split <;> exact within_query hrefl _

theorem isHoliday_within (branchId : Id) (staffId : Option Id) (date : ℤ) :
    Within R N whole (AvailabilityService.isHoliday branchId staffId date) := by
  unfold AvailabilityService.isHoliday
  refine .bind ?_ fun holiday => ?_
  · split
    · exact within_query hrefl _
    · exact .pure _
  · cases holiday with
    | some _ => exact .pure _
    | none => exact .bind (within_query hrefl _) fun _ => .pure _

theorem collectSlots_within (branchId : Id) (service : Service) (date : ℤ)
    (staff : List (Option Id)) (slots : List FreeSlot) :
    Within R N whole (AvailabilityService.collectSlots branchId service date staff slots) := by
  induction staff generalizing slots with
  | nil => exact .pure _
  | cons staffId rest ih =>
    refine .bind (resolveWorkingWindow_within hrefl _ _ _) fun window => ?_
    cases window with
    | none => exact ih slots
    | some window =>
      refine .bind (isHoliday_within hrefl _ _ _) fun holiday => ?_
      cases holiday with
      | true => exact ih slots
      | false =>
        exact .bind (within_query hrefl _) fun _ => .bind (within_look hrefl _) fun _ => ih _

theorem getFreeSlots_within (businessId : Id) (dto : CheckAvailabilityDto) :
    Within R N whole (AvailabilityService.getFreeSlots businessId dto) := by
  have hcandidates : Within R N whole (AvailabilityService.candidateStaff businessId dto) := by
    unfold AvailabilityService.candidateStaff
    split
    · exact .bind (within_query hrefl _) fun _ => .bind (.orThrow _ _) fun _ => .pure _
    · exact .bind (within_query hrefl _) fun _ => .pure _
  exact .bind (within_query hrefl _) fun _ => .bind (.orThrow _ _) fun _ =>
    .bind (.orThrow _ _) fun _ => .bind (within_query hrefl _) fun _ =>
    .bind (.orThrow _ _) fun _ => .bind hcandidates fun _ =>
    .bind (collectSlots_within hrefl _ _ _ _ _) fun _ => .pure _

theorem loadAndValidateContext_within (businessId branchId serviceId : Id)
    (staffMemberId : Option Id) : Within R N whole
      (BookingService.loadAndValidateContext businessId branchId serviceId staffMemberId) := by
  refine .bind (within_query hrefl _) fun _ => .bind (.orThrow _ _) fun _ =>
    .bind (within_query hrefl _) fun _ => .bind (.orThrow _ _) fun _ =>
    .bind (within_query hrefl _) fun _ => .bind (.orThrow _ _) fun _ => ?_
  split
  · exact .bind (within_query hrefl _) fun _ => .bind (.orThrow _ _) fun _ => .pure _
  · exact .pure _

/-! ### Businesses -/

theorem canActivate_within (requiredRoles : List StaffRole) (user : AuthenticatedUser)
    (businessId : Id) :
    Within R N whole (BusinessRoleGuard.canActivate requiredRoles user businessId) := by
  unfold BusinessRoleGuard.canActivate
  split
  · exact .pure _
  · exact .bind (.ensure _ _) fun _ => .bind (within_query hrefl _) fun _ =>
      .bind (.orThrow _ _) fun _ => .pure _

theorem assertExists_within (businessId : Id) :
    Within R N whole (BusinessService.assertExists businessId) :=
  .bind (within_query hrefl _) fun _ => .orThrow _ _

theorem assertBranch_within (businessId branchId : Id) :
    Within R N whole (BranchService.assertBelongsToBusiness businessId branchId) :=
  .bind (within_query hrefl _) fun _ => .orThrow _ _

theorem assertStaff_within (businessId staffMemberId : Id) :
    Within R N whole (StaffService.assertBelongsToBusiness businessId staffMemberId) :=
  .bind (within_query hrefl _) fun _ => .orThrow _ _

theorem assertService_within (businessId serviceId : Id) :
    Within R N whole (ServiceCatalogService.assertBelongsToBusiness businessId serviceId) :=
  .bind (within_query hrefl _) fun _ => .orThrow _ _

theorem resolveTarget_within (businessId : Id) (branchId staffMemberId : Option Id) :
    Within R N whole (WorkingHoursService.resolveTarget businessId branchId staffMemberId) := by
  unfold WorkingHoursService.resolveTarget
  split
  · exact .bind (assertBranch_within hrefl _ _) fun _ => .pure _
  · exact .bind (assertStaff_within hrefl _ _) fun _ => .pure _
  · exact .throw _

theorem createBusiness_within (hB : May R Business) (hS : May R StaffMember) (ownerId : Id)
    (dto : CreateBusinessDto) : Within R N true (BusinessService.create ownerId dto) :=
  within_transaction hrefl (.bind (within_tx (create_within hB)) fun _ =>
    .bind (within_tx (create_within hS)) fun _ => .pure _)

theorem invite_within (hS : May R StaffMember) (businessId : Id) (dto : InviteStaffDto) :
    Within R N true (StaffService.invite businessId dto) := by
  refine .bind (within_query hrefl _) fun _ => .bind (.orThrow _ _) fun _ =>
    .bind (within_query hrefl _) fun _ => .bind (.ensure _ _) fun _ => .bind ?_ fun _ =>
    within_prisma (create_within hS)
  split
  · exact .bind (assertBranch_within hrefl _ _) fun _ => .pure _
  · exact .pure _

theorem setWorkingHours_within (htrans : ∀ s s' s'', R s s' → R s' s'' → R s s'')
    (hW : May R WorkingHours) (businessId : Id) (dto : SetWorkingHoursDto) :
    Within R N true (WorkingHoursService.setWorkingHours businessId dto) :=
  .bind (resolveTarget_within hrefl _ _ _) fun _ => .bind (.ensure _ _) fun _ =>
    within_transaction hrefl (.bind (within_tx (deleteMany_within hW)) fun _ =>
      .bind (within_tx (createMany_within hrefl htrans hW)) fun _ => within_query hrefl _)

theorem runForBusiness_within (hS : May R Settlement) (businessId : Id)
    (periodStart periodEnd : Time) :
    Within R N true (SettlementService.runForBusiness businessId periodStart periodEnd) :=
  .bind (within_query hrefl _) fun _ => .bind (.orThrow _ _) fun _ =>
    .bind (within_query hrefl _) fun _ => within_prisma (create_within hS)

theorem runBatch_within (hS : May R Settlement) (dto : RunSettlementDto) :
    Within R N true (SettlementService.runBatch dto) := by
  have heach (businesses : List Id) : Within R N true
      (SettlementService.runForEach dto.periodStart dto.periodEnd businesses) := by
    induction businesses with
    | nil => exact .pure _
    | cons businessId rest ih =>
      exact .bind (runForBusiness_within hrefl hS _ _ _) fun _ => .bind ih fun _ => .pure _
  unfold SettlementService.runBatch
  split
  · exact .bind (runForBusiness_within hrefl hS _ _ _) fun _ => .pure _
  · exact .bind (within_query hrefl _) fun _ => heach _

/-! ### Users -/

theorem revokeSession_within (hT : May R RefreshToken) (userId sessionId : Id) :
    Within R N true (UsersService.revokeSession userId sessionId) :=
  .bind (within_query hrefl _) fun _ => .bind (.orThrow _ _) fun _ =>
    .bind (within_look hrefl _) fun _ => .bind (within_prisma (update_within hT)) fun _ => .pure _

theorem listSessions_within (userId : Id) :
    Within R N true (UsersService.listSessions userId) :=
  .bind (within_look hrefl _) fun _ => within_query hrefl _

theorem issueTokenPair_within (hT : May R RefreshToken) (userId : Id) (role : GlobalRole) :
    Within R N true (AuthService.issueTokenPair userId role) :=
  .bind (within_look hrefl _) fun _ => .bind (within_look hrefl _) fun _ =>
    .bind (within_prisma (create_within hT)) fun _ => .pure _

theorem requestOtp_within (hO : May R OtpCode) (config : ConfigService) (phone : String)
    (purpose : OtpPurpose) (userId : Option Id) :
    Within R N true (OtpService.requestOtp config phone purpose userId) := by
  refine .bind (within_query hrefl _) fun recent => .bind ?_ fun _ => .bind (within_look hrefl _) fun _ =>
    .bind (within_look hrefl _) fun _ => .bind (within_prisma (createAt_within hO)) fun _ =>
    .bind (within_look hrefl _) fun _ => .pure _
  cases recent with
  | none => exact .pure _
  | some recent => exact .bind (within_look hrefl _) fun _ => .ensure _ _

theorem verifyOtp_within (hN : ∀ x : Note, x.aside → N x) (hO : May R OtpCode) (phone : String)
    (purpose : OtpPurpose) (code : String) : Within R N true (OtpService.verifyOtp phone purpose code) := by
  refine .bind (within_query hrefl _) fun _ => .bind (.orThrow _ _) fun _ => .bind (.mark (hN _ trivial)) fun _ =>
    .bind (within_look hrefl _) fun _ => .bind (.ensure _ _) fun _ => .bind (.ensure _ _) fun _ => ?_
  split
  · exact .bind (within_look hrefl _) fun _ => .bind (within_prisma (update_within hO)) fun _ => .pure _
  · exact .bind (.mark (hN _ trivial)) fun _ => .bind (within_prisma (update_within hO)) fun _ => .pure _

end services

theorem discard_within {α : Type} {R : Store → Store → Prop} {N : Note → Prop} {whole : Bool}
    {p : Task α} (h : Within R N whole p) : Within R N whole (p >>= fun _ => pure ()) :=
  .bind h fun _ => .pure _

section bookings
variable {R : Store → Store → Prop} {N : Note → Prop} {whole : Bool} (hrefl : ∀ s, R s s)
  (hN : ∀ x : Note, N x)
include hrefl hN

/-! ### Bookings -/

theorem assertSlotFree_within (branchId : Id) (staffMemberId : Option Id) (startTime endTime : Time)
    (ex : Option Id) : Within R N whole
      (BookingService.assertSlotFree branchId staffMemberId startTime endTime ex) :=
  .bind (within_query hrefl _) fun _ => .bind (.ensure _ _) fun _ => .mark (hN _)

omit hN in
theorem getOwnedBooking_within (bookingId userId : Id) :
    Within R N whole (BookingService.getOwnedBooking bookingId userId) :=
  .bind (within_query hrefl _) fun _ => .orThrow _ _

omit hrefl hN in
theorem busyAsConflict_within {α : Type} (e : Err) :
    Within R N whole (BookingService.busyAsConflict e : Task α) := by
  cases e <;> trivial

theorem hold_within (hL : MayLock R) (hU : May R CouponUsage) (hC : May R Coupon) (hB : May R Booking)
    (userId : Id) (dto : HoldBookingDto) : Within R N true (BookingService.hold userId dto) :=
  .bind (loadAndValidateContext_within hrefl _ _ _ _) fun _ =>
    .tryCatch (withLock_within hrefl (fun x _ => hN x) hL _ (within_transaction hrefl
      (.bind (assertSlotFree_within hrefl hN _ _ _ _ _) fun _ =>
        .bind (redeemFor_within hrefl (fun x _ => hN x) hU hC _ _ _) fun _ =>
        .bind (within_look hrefl _) fun _ => .bind (within_tx (create_within hB)) fun _ =>
        .bind (linkUsage_within hU _ _ _) fun _ => .pure _))) fun e => busyAsConflict_within e

theorem confirm_within (hB : May R Booking) (hA : Grows R LoyaltyAccount)
    (hT : May R LoyaltyTransaction) (hF : May R Referral) (bookingId userId : Id) :
    Within R N true (BookingService.confirm bookingId userId) := by
  refine .bind (getOwnedBooking_within hrefl _ _) fun _ => .bind (.ensure _ _) fun _ =>
    .bind (.mark (hN _)) fun _ => .bind (within_look hrefl _) fun _ => ?_
  split
  · exact .bind (.mark (hN _)) fun _ => .bind (within_prisma (update_within hB)) fun _ => .throw _
  · refine .bind (within_query hrefl _) fun _ => .bind (.mark (hN _)) fun _ =>
      within_transaction hrefl (.bind (within_tx (update_within hB)) fun _ => ?_)
    split
    · exact .bind (awardPostPurchaseRewards_within hrefl (fun x _ => hN x) hA hT hF _ _)
        fun _ => .pure _
    · exact .pure _

theorem confirmGroup_within (hB : May R Booking) (hA : Grows R LoyaltyAccount)
    (hT : May R LoyaltyTransaction) (hF : May R Referral) (recurringGroupId userId : Id) :
    Within R N true (BookingService.confirmGroup recurringGroupId userId) := by
  have hall (bookings : List Booking) : Within R N true (BookingService.confirmAll userId bookings) := by
    induction bookings with
    | nil => exact .pure _
    | cons b rest ih =>
      exact .bind (confirm_within hrefl hN hB hA hT hF _ _) fun _ => .bind ih fun _ => .pure _
  exact .bind (within_query hrefl _) fun _ => .bind (.ensure _ _) fun _ => hall _

theorem cancelInternal_within (hB : May R Booking) (booking : Booking) (reason : Option String)
    (byUser : Bool) : Within R N true (BookingService.cancelInternal booking reason byUser) :=
  .bind (.ensure _ _) fun _ => .bind (.mark (hN _)) fun _ => .bind (within_look hrefl _) fun _ =>
    .bind (within_look hrefl _) fun _ => .bind (within_prisma (update_within hB)) fun _ => .pure _

theorem cancelByUser_within (hB : May R Booking) (bookingId userId : Id) (dto : CancelBookingDto) :
    Within R N true (BookingService.cancelByUser bookingId userId dto) :=
  .bind (getOwnedBooking_within hrefl _ _) fun _ => cancelInternal_within hrefl hN hB _ _ _

theorem cancelByBusiness_within (hB : May R Booking) (businessId bookingId : Id)
    (dto : CancelBookingDto) :
    Within R N true (BookingService.cancelByBusiness businessId bookingId dto) :=
  .bind (within_query hrefl _) fun _ => .bind (.orThrow _ _) fun _ =>
    cancelInternal_within hrefl hN hB _ _ _

theorem reschedule_within (hL : MayLock R) (hB : May R Booking) (bookingId userId : Id)
    (dto : RescheduleBookingDto) :
    Within R N true (BookingService.reschedule bookingId userId dto) :=
  .bind (getOwnedBooking_within hrefl _ _) fun _ => .bind (.ensure _ _) fun _ =>
    .bind (.mark (hN _)) fun _ => .bind (within_findUniqueOrThrow hrefl _) fun _ =>
    .bind (getFreeSlots_within hrefl _ _) fun _ => .bind (.ensure _ _) fun _ =>
    .tryCatch (withLock_within hrefl (fun x _ => hN x) hL _ (within_transaction hrefl
      (.bind (assertSlotFree_within hrefl hN _ _ _ _ _) fun _ => within_tx (update_within hB))))
    fun e => busyAsConflict_within e

theorem createRecurring_within (hB : May R Booking) (userId : Id) (dto : CreateRecurringBookingDto) :
    Within R N true (BookingService.createRecurring userId dto) := by
  have hloop (business : Business) (service : Service) (group : Id) (times : List Time) :
      Within R N true
        (BookingService.createOccurrences userId dto business service group times) := by
    induction times with
    | nil => exact .pure _
    | cons startTime rest ih =>
      exact .bind (assertSlotFree_within hrefl hN _ _ _ _ _) fun _ =>
        .bind (within_look hrefl _) fun _ => .bind (within_tx (create_within hB)) fun _ =>
        .bind ih fun _ => .pure _
  refine .bind (loadAndValidateContext_within hrefl _ _ _ _) fun _ =>
    .bind (within_look hrefl _) fun _ =>
    .tryCatch (within_transaction hrefl (hloop _ _ _ _)) fun e => ?_
  cases e <;> trivial

theorem updateStatus_within (hB : May R Booking) (businessId bookingId : Id)
    (dto : UpdateBookingStatusDto) :
    Within R N true (BookingService.updateStatus businessId bookingId dto) :=
  .bind (within_query hrefl _) fun _ => .bind (.orThrow _ _) fun _ => .bind (.ensure _ _) fun _ =>
    .bind (.mark (hN _)) fun _ => .bind (within_look hrefl _) fun _ => within_prisma (update_within hB)

theorem releaseExpiredHolds_within (hB : May R Booking) :
    Within R N true BookingService.releaseExpiredHolds :=
  .bind (within_look hrefl _) fun _ => .bind (.mark (hN _)) fun _ =>
    within_prisma (updateMany_within hB)

/-! ### Payments -/

omit hrefl in
theorem openSession_within (hP : May R Payment) (hS : May R Session) (payment : Payment) :
    Within R N true (PaymentService.openSession payment) := by
  refine .bind (.mark (hN _)) fun _ => .bind (.op fun g s a s' h => ?_) fun _ =>
    .bind (.mark (hN _)) fun _ => .bind (within_prisma (update_within hP)) fun _ => .pure _
  have h := attempt_ok h
  split at h
  · obtain ⟨-, rfl⟩ := by simpa using h
    exact hS s _
  · simp at h

omit hrefl in
theorem topup_within (hP : May R Payment) (hS : May R Session) (userId : Id) (dto : TopupWalletDto) :
    Within R N true (WalletService.topup userId dto) :=
  .bind (within_prisma (createAt_within hP)) fun _ => openSession_within hN hP hS _

theorem initiate_within (hP : May R Payment) (hS : May R Session) (hW : Grows R Wallet)
    (hL : May R WalletTransaction) (hB : May R Booking) (hA : Grows R LoyaltyAccount)
    (hT : May R LoyaltyTransaction) (hF : May R Referral) (userId : Id) (dto : InitiatePaymentDto) :
    Within R N true (PaymentService.initiate userId dto) := by
  refine .bind (within_query hrefl _) fun _ => .bind (.orThrow _ _) fun _ => .bind (.ensure _ _) fun _ =>
    .bind (.ensure _ _) fun _ => .bind (.mark (hN _)) fun _ => ?_
  split
  · exact .bind (.mark (hN _)) fun _ => within_transaction hrefl
      (.bind (within_query hrefl _) fun _ => .bind (.orThrow _ _) fun _ => .bind (.mark (hN _)) fun _ =>
        .bind (within_tx hW.update) fun _ => .bind (within_tx (create_within hL)) fun _ =>
        .bind (within_look hrefl _) fun _ => .bind (within_tx (createAt_within hP)) fun _ =>
        .bind (within_tx (update_within hB)) fun _ =>
        .bind (awardPostPurchaseRewards_within hrefl (fun x _ => hN x) hA hT hF _ _) fun _ => .pure _)
  · exact .bind (within_prisma (createAt_within hP)) fun _ =>
      .bind (openSession_within hN hP hS _) fun _ => .pure _

theorem settle_within (hW : Grows R Wallet) (hL : May R WalletTransaction) (hB : May R Booking)
    (hA : Grows R LoyaltyAccount) (hT : May R LoyaltyTransaction) (hF : May R Referral)
    (payment : Payment) : Within R N whole (PaymentService.settle payment) := by
  unfold PaymentService.settle
  split
  · refine .bind (within_query hrefl _) fun wallet => ?_
    cases wallet with
    | none => exact .mark (hN _)
    | some wallet =>
      exact .bind (.mark (hN _)) fun _ => .bind (within_tx hW.update) fun _ =>
        .bind (within_tx (create_within hL)) fun _ => .pure _
  · split
    · refine .bind (within_query hrefl _) fun booking => ?_
      split
      · exact .mark (hN _)
      · exact .bind (.mark (hN _)) fun _ => .bind (within_tx (update_within hB)) fun _ =>
          awardPostPurchaseRewards_within hrefl (fun x _ => hN x) hA hT hF _ _
    · exact .pure _

omit hN in
theorem verify_within (hS : May R Session) (ref : Option Id) (amount : Money) :
    Within R N whole (MockPaymentGateway.verify ref amount) := by
  refine .op fun g s a s' h => ?_
  have h := attempt_ok h
  unfold MockPaymentGateway.verifyStmt at h
  split at h
  · obtain ⟨-, rfl⟩ := by simpa using h
    exact hrefl s
  · split at h
    · obtain ⟨-, rfl⟩ := by simpa using h
      exact hrefl s
    · split at h
      · obtain ⟨-, rfl⟩ := by simpa using h
        exact hrefl s
      · obtain ⟨-, rfl⟩ := by simpa using h
        exact hS s _

theorem handleCallback_within (hP : May R Payment) (hS : May R Session) (hW : Grows R Wallet)
    (hL : May R WalletTransaction) (hB : May R Booking) (hA : Grows R LoyaltyAccount)
    (hT : May R LoyaltyTransaction) (hF : May R Referral) (gateway : GatewayName) (ref : Option Id) :
    Within R N true (PaymentService.handleCallback gateway ref) := by
  refine .bind (within_query hrefl _) fun _ => .bind (.orThrow _ _) fun _ => ?_
  split
  · exact .pure _
  · refine .bind (.mark (hN _)) fun _ => .bind (verify_within hrefl hS _ _) fun _ => ?_
    split
    · exact .bind (.mark (hN _)) fun _ => within_transaction hrefl
        (.bind (within_look hrefl _) fun _ => .bind (within_tx (update_within hP)) fun _ =>
          .bind (settle_within hrefl hN hW hL hB hA hT hF _) fun _ => .pure _)
    · exact .bind (within_prisma (update_within hP)) fun _ => .pure _

theorem refund_within (hP : May R Payment) (hW : Grows R Wallet) (hL : May R WalletTransaction)
    (hA : May R AuditLog) (paymentId adminId : Id) (reason : String) :
    Within R N true (PaymentService.refund paymentId adminId reason) :=
  .bind (within_query hrefl _) fun _ => .bind (.orThrow _ _) fun _ => .bind (.ensure _ _) fun _ =>
    .bind (.mark (hN _)) fun _ => within_transaction hrefl
      (.bind (within_tx (update_within hP)) fun _ => .bind (within_tx (hW.upsert hrefl)) fun _ =>
        .bind (.mark (hN _)) fun _ => .bind (within_tx hW.update) fun _ =>
        .bind (within_tx (create_within hL)) fun _ => .bind (within_tx (create_within hA)) fun _ => .pure _)

/-! ### Registration and profiles -/

theorem verifyRegisterAndCreateUser_within (hO : May R OtpCode) (hU : May R User) (hW : Grows R Wallet)
    (hA : Grows R LoyaltyAccount) (hF : May R Referral) (hT : May R RefreshToken)
    (dto : VerifyRegisterDto) :
    Within R N true (AuthService.verifyRegisterAndCreateUser dto) := by
  refine .bind (verifyOtp_within hrefl (fun x _ => hN x) hO _ _ _) fun _ => .bind (.ensure _ _) fun _ =>
    .bind (within_query hrefl _) fun _ => .bind (.ensure _ _) fun _ => .bind (.mark (hN _)) fun _ =>
    .bind (within_prisma (create_within hU)) fun _ => .bind (.mark (hN _)) fun _ =>
    .bind (within_prisma hW.create) fun _ => .bind (within_prisma hA.create) fun _ =>
    .bind ?_ fun _ => issueTokenPair_within hrefl hT _ _
  split
  · exact registerReferral_within hrefl hF _ _
  · exact .pure _

theorem updateProfile_within (hU : May R User) (userId : Id) (dto : UpdateProfileDto) :
    Within R N true (UsersService.updateProfile userId dto) := by
  refine .bind ?_ fun _ => .bind (.mark (hN _)) fun _ => within_prisma (updateUnique_within hU)
  split
  · exact .bind (within_query hrefl _) fun _ => .ensure _ _
  · exact .pure _

theorem requestAccountDeletion_within (hU : May R User) (hT : May R RefreshToken) (userId : Id) :
    Within R N true (UsersService.requestAccountDeletion userId) :=
  .bind (.mark (hN _)) fun _ => .bind (within_look hrefl _) fun _ =>
    .bind (within_prisma (updateUnique_within hU)) fun _ => .bind (within_look hrefl _) fun _ =>
    .bind (within_prisma (updateMany_within hT)) fun _ => .pure _

omit hN in
theorem review_within (hB : May R Business) (hA : May R AuditLog) (status : BusinessStatus)
    (action : AuditAction) (businessId adminId : Id) (rejectReason : Option String) :
    Within R N true (BusinessService.review status action businessId adminId rejectReason) :=
  .bind (assertExists_within hrefl _) fun _ => .bind (within_prisma (update_within hB)) fun _ =>
    .bind (within_prisma (create_within hA)) fun _ => .pure _

end bookings

/-! ### Routes and requests -/

/-- The routes that touch neither services nor bookings. -/
def BusinessRoute.aside : BusinessRoute → Prop
  | createService _ | updateService .. | updateBookingStatus .. | cancelBooking .. => False
  | _ => True

/-- `R` lets the route write its tables. -/
def BusinessRoute.Writes (R : Store → Store → Prop) : BusinessRoute → Prop
  | update _ | updateCancellationPolicy _ => May R Business
  | addDocument _ => May R BusinessDocument
  | createBranch _ | updateBranch .. => May R Branch
  | createService _ | updateService .. => May R Service
  | assignStaff .. | unassignStaff .. => May R ServiceStaff
  | inviteStaff _ | deactivateStaff _ => May R StaffMember
  | setWorkingHours _ => May R WorkingHours
  | addHoliday _ => May R Holiday
  | updateBookingStatus .. | cancelBooking .. => May R Booking
  | createCoupon _ | updateCoupon .. => May R Coupon
  | _ => True

/-- `R` lets the request write its tables. -/
def Request.Writes (R : Store → Store → Prop) : Request → Prop
  | register _ => May R OtpCode ∧ May R User ∧ May R Wallet ∧ May R LoyaltyAccount ∧ May R Referral ∧
      May R RefreshToken
  | hold .. => MayLock R ∧ May R CouponUsage ∧ May R Coupon ∧ May R Booking
  | createRecurring .. | cancelByUser .. | releaseExpiredHolds => May R Booking
  | confirm .. | confirmGroup .. => May R Booking ∧ May R LoyaltyAccount ∧ May R LoyaltyTransaction ∧
      May R Referral
  | reschedule .. => MayLock R ∧ May R Booking
  | initiate .. | handleCallback .. => May R Payment ∧ May R Session ∧ May R Wallet ∧
      May R WalletTransaction ∧ May R Booking ∧ May R LoyaltyAccount ∧ May R LoyaltyTransaction ∧
      May R Referral
  | refund .. => May R Payment ∧ May R Wallet ∧ May R WalletTransaction ∧ May R AuditLog
  | getWallet _ => May R Wallet
  | topup .. => May R Payment ∧ May R Session
  | getLoyalty _ => May R LoyaltyAccount
  | createBusiness .. => May R Business ∧ May R StaffMember
  | business _ _ route => route.Writes R
  | approveBusiness .. | rejectBusiness .. | suspendBusiness .. => May R Business ∧ May R AuditLog
  | createGlobalCoupon .. | updateAnyCoupon .. => May R Coupon
  | updateProfile .. => May R User
  | revokeSession .. => May R RefreshToken
  | requestAccountDeletion _ => May R User ∧ May R RefreshToken
  | runSettlement .. => May R Settlement
  | listMine _ | getFreeSlots .. | validateCoupon .. | listGlobalCoupons _ | listSessions _ => True

section requests
variable {R : Store → Store → Prop} {N : Note → Prop} (hrefl : ∀ s, R s s)
  (htrans : ∀ s s' s'', R s s' → R s' s'' → R s s'')
include hrefl htrans

theorem handle_within {route : BusinessRoute} (hN : route.aside ∨ ∀ x, N x) (businessId : Id)
    (h : route.Writes R) : Within R N true (route.handle businessId) := by
  cases route with
  | findOneForOwner => exact .bind (assertExists_within hrefl _) fun _ => .pure _
  | update dto =>
    exact .bind (.bind (assertExists_within hrefl _) fun _ => within_prisma (update_within h)) fun _ => .pure _
  | updateCancellationPolicy dto =>
    exact .bind (.bind (assertExists_within hrefl _) fun _ => within_prisma (update_within h)) fun _ => .pure _
  | addDocument dto =>
    exact .bind (.bind (assertExists_within hrefl _) fun _ => within_prisma (create_within h)) fun _ => .pure _
  | createBranch dto => exact .bind (within_prisma (create_within h)) fun _ => .pure _
  | listBranches => exact .bind (within_query hrefl _) fun _ => .pure _
  | updateBranch branchId dto =>
    exact .bind (.bind (assertBranch_within hrefl _ _) fun _ => within_prisma (update_within h)) fun _ => .pure _
  | createService dto =>
    have hall := hN.resolve_left id
    exact discard_within (.bind (.ensure _ _) fun _ => .bind (.mark (hall _)) fun _ =>
      within_prisma (create_within h))
  | listServices => exact .bind (within_query hrefl _) fun _ => .pure _
  | updateService serviceId dto =>
    have hall := hN.resolve_left id
    exact discard_within (.bind (assertService_within hrefl _ _) fun _ => .bind (.mark (hall _)) fun _ =>
      within_prisma (update_within h))
  | assignStaff serviceId staffMemberId =>
    exact .bind (.bind (assertService_within hrefl _ _) fun _ => .bind (assertStaff_within hrefl _ _) fun _ =>
      within_prisma (upsert_within hrefl h)) fun _ => .pure _
  | unassignStaff serviceId staffMemberId =>
    exact .bind (.bind (assertService_within hrefl _ _) fun _ => within_prisma (delete_within h))
      fun _ => .pure _
  | inviteStaff dto => exact .bind (invite_within hrefl h _ _) fun _ => .pure _
  | listStaff => exact .bind (within_query hrefl _) fun _ => .pure _
  | deactivateStaff staffMemberId =>
    exact .bind (.bind (assertStaff_within hrefl _ _) fun _ => .bind (.ensure _ _) fun _ =>
      within_prisma (update_within h)) fun _ => .pure _
  | setWorkingHours dto => exact .bind (setWorkingHours_within hrefl htrans h _ _) fun _ => .pure _
  | addHoliday dto =>
    exact .bind (.bind (resolveTarget_within hrefl _ _ _) fun _ => within_prisma (create_within h))
      fun _ => .pure _
  | listHolidays branchId staffMemberId =>
    exact .bind (.bind (resolveTarget_within hrefl _ _ _) fun _ => within_query hrefl _)
      fun _ => .pure _
  | listBookings dto => exact .bind (within_query hrefl _) fun _ => .pure _
  | updateBookingStatus bookingId dto =>
    exact discard_within (updateStatus_within hrefl (hN.resolve_left id) h _ _ _)
  | cancelBooking bookingId dto =>
    exact discard_within (cancelByBusiness_within hrefl (hN.resolve_left id) h _ _ _)
  | createCoupon dto => exact .bind (createCoupon_within hrefl h _ _) fun _ => .pure _
  | listCoupons => exact .bind (within_query hrefl _) fun _ => .pure _
  | updateCoupon couponId dto => exact .bind (updateCoupon_within hrefl h _ _) fun _ => .pure _
  | listSettlements => exact .bind (within_query hrefl _) fun _ => .pure _

omit htrans in
theorem authenticated_within {α : Type} {user : Id} {f : AuthenticatedUser → Task α}
    (hN : ∀ x, N x) (hf : ∀ u, Within R N true (f u)) : Within R N true (authenticated user f) :=
  .bind (.bind (within_query hrefl _) fun _ => .bind (.orThrow _ _) fun _ => .bind (.mark (hN _)) fun _ =>
    .pure _) fun _ => .bind (hf _) fun _ => .pure _

omit htrans in
theorem adminOnly_within {α : Type} {user : Id} {f : AuthenticatedUser → Task α}
    (hN : ∀ x, N x) (hf : ∀ u, Within R N true (f u)) : Within R N true (adminOnly user f) :=
  authenticated_within hrefl hN fun _ => .bind (.ensure _ _) fun _ => hf _

/-- A request changes the store only within a relation that lets its tables be written. -/
theorem Request.serve_within {r : Request} (hN : ∀ x, N x) (h : r.Writes R) :
    Within R N true r.serve := by
  cases r with
  | register dto =>
    obtain ⟨hO, hU, hW, hA, hF, hT⟩ := h
    exact discard_within (verifyRegisterAndCreateUser_within hrefl hN hO hU hW.grows hA.grows hF hT _)
  | hold user dto =>
    obtain ⟨hL, hU, hC, hB⟩ := h
    exact authenticated_within hrefl hN fun _ => hold_within hrefl hN hL hU hC hB _ _
  | createRecurring user dto =>
    exact authenticated_within hrefl hN fun _ => createRecurring_within hrefl hN h _ _
  | confirm user bookingId =>
    obtain ⟨hB, hA, hT, hF⟩ := h
    exact authenticated_within hrefl hN fun _ => confirm_within hrefl hN hB hA.grows hT hF _ _
  | confirmGroup user recurringGroupId =>
    obtain ⟨hB, hA, hT, hF⟩ := h
    exact authenticated_within hrefl hN fun _ => confirmGroup_within hrefl hN hB hA.grows hT hF _ _
  | cancelByUser user bookingId dto =>
    exact authenticated_within hrefl hN fun _ => cancelByUser_within hrefl hN h _ _ _
  | reschedule user bookingId dto =>
    obtain ⟨hL, hB⟩ := h
    exact authenticated_within hrefl hN fun _ => reschedule_within hrefl hN hL hB _ _ _
  | listMine user => exact authenticated_within hrefl hN fun _ => within_query hrefl _
  | releaseExpiredHolds => exact discard_within (releaseExpiredHolds_within hrefl hN h)
  | getFreeSlots businessId dto => exact discard_within (getFreeSlots_within hrefl _ _)
  | initiate user dto =>
    obtain ⟨hP, hS, hW, hL, hB, hA, hT, hF⟩ := h
    exact authenticated_within hrefl hN fun _ => initiate_within hrefl hN hP hS hW.grows hL hB hA.grows hT hF _ _
  | handleCallback gateway ref =>
    obtain ⟨hP, hS, hW, hL, hB, hA, hT, hF⟩ := h
    exact discard_within (handleCallback_within hrefl hN hP hS hW.grows hL hB hA.grows hT hF _ _)
  | refund user paymentId reason =>
    obtain ⟨hP, hW, hL, hA⟩ := h
    exact adminOnly_within hrefl hN fun _ => refund_within hrefl hN hP hW.grows hL hA _ _ _
  | getWallet user =>
    exact authenticated_within hrefl hN fun _ => .bind (.mark (hN _)) fun _ =>
      within_prisma (upsert_within hrefl h)
  | topup user dto =>
    obtain ⟨hP, hS⟩ := h
    exact authenticated_within hrefl hN fun _ => topup_within hN hP hS _ _
  | getLoyalty user =>
    exact authenticated_within hrefl hN fun _ => within_prisma (upsert_within hrefl h)
  | validateCoupon user dto =>
    exact authenticated_within hrefl hN fun _ => checkAndCompute_within hrefl (fun x _ => hN x) _ _ _ _
  | createBusiness user dto =>
    obtain ⟨hB, hS⟩ := h
    exact authenticated_within hrefl hN fun _ => createBusiness_within hrefl hB hS _ _
  | business user businessId route =>
    exact authenticated_within hrefl hN fun _ => .bind (canActivate_within hrefl _ _ _) fun _ =>
      handle_within hrefl htrans (.inr hN) _ h
  | approveBusiness user businessId =>
    exact adminOnly_within hrefl hN fun _ => review_within hrefl h.1 h.2 _ _ _ _ _
  | rejectBusiness user businessId reason =>
    exact adminOnly_within hrefl hN fun _ => review_within hrefl h.1 h.2 _ _ _ _ _
  | suspendBusiness user businessId reason =>
    exact adminOnly_within hrefl hN fun _ => review_within hrefl h.1 h.2 _ _ _ _ _
  | createGlobalCoupon user dto =>
    exact adminOnly_within hrefl hN fun _ => createCoupon_within hrefl h _ _
  | listGlobalCoupons user => exact adminOnly_within hrefl hN fun _ => within_query hrefl _
  | updateAnyCoupon user couponId dto =>
    exact adminOnly_within hrefl hN fun _ => updateCoupon_within hrefl h _ _
  | updateProfile user dto =>
    exact authenticated_within hrefl hN fun _ => updateProfile_within hrefl hN h _ _
  | listSessions user => exact authenticated_within hrefl hN fun _ => listSessions_within hrefl _
  | revokeSession user sessionId =>
    exact authenticated_within hrefl hN fun _ => revokeSession_within hrefl h _ _
  | requestAccountDeletion user =>
    exact authenticated_within hrefl hN fun _ => requestAccountDeletion_within hrefl hN h.1 h.2 _
  | runSettlement user dto => exact adminOnly_within hrefl hN fun _ => runBatch_within hrefl h _

end requests
end BookingPlatform
