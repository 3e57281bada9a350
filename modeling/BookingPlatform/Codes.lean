import BookingPlatform.Otp

/-! Which of the codes of one phone and purpose is the current one, over whole histories of calls. -/
namespace BookingPlatform
open Async Data Prog

/-- The code is one for this phone and purpose. -/
def OtpCode.isFor (phone : String) (purpose : OtpPurpose) (r : OtpCode) : Bool :=
  r.phone == phone && r.purpose == purpose

/-- What is never changed in a code. -/
def OtpCode.issuance (r : OtpCode) : String × OtpPurpose × Digest × Time :=
  (r.phone, r.purpose, r.codeHash, r.createdAt)

/-- Codes are marked, but none is added, taken away or issued anew. -/
def Marks (s s' : Store) : Prop :=
  ∃ f : OtpCode → OtpCode, (∀ r, (f r).issuance = r.issuance) ∧ s'.otpCode.rows = s.otpCode.rows.map f

theorem Marks.refl (s : Store) : Marks s s := ⟨id, fun _ => rfl, by simp⟩

/-- A verification of this code, with this record, comes in time. -/
structure OtpCode.Passes (code : String) (world : ℕ → Env) (record : OtpCode) : Prop where
  right : record.codeHash = sha256Hash code
  inTime : (world 1).now ≤ record.expiresAt
  attempts : record.attempts < maxVerifyAttempts
  found : (world 0).down = false
  consumed : (world 3).down = false

/-- The call has issued this code. -/
def Sends (code : String) (s s' : Store) : Prop :=
  ∃ r table, s.otpCode.insert r = some table ∧ s' = Model.set s table ∧ r.codeHash = sha256Hash code

/-- The clock does not go back from `now` on. -/
def Clocked (now : Time) (world : ℕ → Env) : Prop :=
  now ≤ (world 0).now ∧ ∀ j k, j ≤ k → (world j).now ≤ (world k).now

/-- The code was issued for this phone and purpose, and it is not consumed. -/
def Store.Unused (s : Store) (phone : String) (purpose : OtpPurpose) (code : String) : Prop :=
  ∃ r ∈ s.otpCode.rows, r.isFor phone purpose = true ∧ r.codeHash = sha256Hash code ∧ r.consumedAt = none

/-- A serial history of calls about one phone and purpose, in a world whose clock does not go back:
the time, the store, and the codes that were issued, latest first. -/
inductive Codes (config : ConfigService) (phone : String) (purpose : OtpPurpose) (s₀ : Store) :
    Time → Store → List String → Prop where
  | start {now : Time} : Codes config phone purpose s₀ now s₀ []
  | requestOtp {now : Time} {s s' : Store} {codes : List String} {userId : Option Id} {world : ℕ → Env}
      {r : Except Err OtpResponse} {k : ℕ} {v : Option Store} {code : String} :
      Codes config phone purpose s₀ now s codes → Clocked now world →
      (OtpService.requestOtp config phone purpose userId).play world 0 none s = (r, k, v, s') →
      Sends code s s' → Codes config phone purpose s₀ (world k).now s' (code :: codes)
  | requestRefused {now : Time} {s : Store} {codes : List String} {userId : Option Id} {world : ℕ → Env}
      {r : Except Err OtpResponse} {k : ℕ} {v : Option Store} :
      Codes config phone purpose s₀ now s codes → Clocked now world →
      (OtpService.requestOtp config phone purpose userId).play world 0 none s = (r, k, v, s) →
      Codes config phone purpose s₀ (world k).now s codes
  | verifyOtp {now : Time} {s s' : Store} {codes : List String} {code : String} {world : ℕ → Env}
      {r : Except Err Bool} {k : ℕ} {v : Option Store} :
      Codes config phone purpose s₀ now s codes → Clocked now world →
      (OtpService.verifyOtp phone purpose code).play world 0 none s = (r, k, v, s') →
      Codes config phone purpose s₀ (world k).now s' codes

/-- The row that is added for a code. -/
def OtpService.row (phone : String) (purpose : OtpPurpose) (userId : Option Id) (n : ℕ) (now : Time)
    (createdAt : Time) (id : Id) : OtpCode :=
  { id, userId, phone, purpose, codeHash := sha256Hash (padStart otpLength n), expiresAt := now + otpTtl, createdAt }

/-- `requestOtp` once the cooldown is over. -/
def OtpService.issue (config : ConfigService) (phone : String) (purpose : OtpPurpose) (userId : Option Id) :
    Task OtpResponse := do
  let n ← randomInt (10 ^ otpLength)
  let code := padStart otpLength n
  let now ← clock
  let _ ← prisma (createAt (row phone purpose userId n now))
  ConsoleSmsProvider.send phone ("کد تایید شما: " ++ code ++ " (اعتبار 5 دقیقه)")
  return if debugExposeEnabled config then { debugCode := some code } else {}

section calls
variable {config : ConfigService} {phone code : String} {purpose : OtpPurpose} {userId : Option Id}
  {world : ℕ → Env} {s s' : Store} {k : ℕ} {v : Option Store}

theorem play_issue : (OtpService.issue config phone purpose userId).play world k none s =
    match attempt (createAt (OtpService.row phone purpose userId ((world k).random % 10 ^ otpLength)
      (world (k + 1)).now)) (world (k + 2)) s with
    | .ok (_, s') => (.ok (if OtpService.debugExposeEnabled config then
        { debugCode := some (padStart otpLength ((world k).random % 10 ^ otpLength)) } else {}), k + 4, none, s')
    | .error e => (.error e, k + 3, none, s) := by
  rw [OtpService.issue, randomInt, play_look_step, clock, play_look_step, play_prisma_step]
  cases attempt (createAt (OtpService.row phone purpose userId ((world k).random % 10 ^ otpLength)
    (world (k + 1)).now)) (world (k + 2)) s with
  | error e => rfl
  | ok r => exact play_look_step _ _

theorem play_requestOtp : (OtpService.requestOtp config phone purpose userId).play world k none s =
    if (world k).down then (.error .unavailable, k + 1, none, s) else
      match findLatest (fun r : OtpCode => r.phone == phone && r.purpose == purpose && r.consumedAt == none)
        OtpCode.createdAt (world k) s with
      | some recent =>
        if resendCooldown ≤ (world (k + 1)).now - recent.createdAt then
          (OtpService.issue config phone purpose userId).play world (k + 2) none s
        else (.error (.tooManyRequests ("لطفاً " ++
          toString (OtpService.secondsLeft ((world (k + 1)).now - recent.createdAt)) ++
          " ثانیه دیگر دوباره تلاش کنید")), k + 2, none, s)
      | none => (OtpService.issue config phone purpose userId).play world (k + 1) none s := by
  rw [OtpService.requestOtp, play_query_step]
  cases findLatest (fun r : OtpCode => r.phone == phone && r.purpose == purpose && r.consumedAt == none)
    OtpCode.createdAt (world k) s with
  | none => rfl
  | some recent =>
    simp only [bind_assoc]
    rw [clock, play_look_step, play_ensure_bind]
    rfl

/-- A call for a code adds one row, or nothing. -/
theorem requestOtp_played {r : Except Err OtpResponse} {k₀ : ℕ}
    (h : (OtpService.requestOtp config phone purpose userId).play world k₀ none s = (r, k, v, s')) : s' = s ∨
      ∃ row table, s.otpCode.insert row = some table ∧ s' = Model.set s table ∧
        row.isFor phone purpose = true ∧ ∃ j ≤ k, row.createdAt = (world j).now := by
  have hissue {k₁ : ℕ} (h : (OtpService.issue config phone purpose userId).play world k₁ none s = (r, k, v, s')) :
      s' = s ∨ ∃ row table, s.otpCode.insert row = some table ∧ s' = Model.set s table ∧
        row.isFor phone purpose = true ∧ ∃ j ≤ k, row.createdAt = (world j).now := by
    rw [play_issue] at h
    split at h
    · rename_i row s₁ hcreate
      obtain ⟨-, rfl, -, rfl⟩ := by simpa using h
      obtain ⟨rfl, hput⟩ := create_ok (attempt_ok hcreate)
      obtain ⟨-, table, htable, rfl⟩ := put_ok hput
      exact .inr ⟨_, table, htable, rfl, by simp [OtpService.row, OtpCode.isFor], k₁ + 2, by omega, rfl⟩
    · obtain ⟨-, -, -, rfl⟩ := by simpa using h
      exact .inl rfl
  rw [play_requestOtp] at h
  split at h
  · obtain ⟨-, -, -, rfl⟩ := by simpa using h
    exact .inl rfl
  · split at h
    · split at h
      · exact hissue h
      · obtain ⟨-, -, -, rfl⟩ := by simpa using h
        exact .inl rfl
    · exact hissue h

theorem update_marks {p : OtpCode → Bool} {f : OtpCode → OtpCode} {hf : Table.Keeps f} {g : Env} {r : OtpCode}
    (h : update p f hf g s = .ok (r, s')) (hissuance : ∀ r, (f r).issuance = r.issuance) : Marks s s' := by
  obtain ⟨-, rfl⟩ := update_ok h
  refine ⟨fun r => if p r then f r else r, fun r => ?_, rfl⟩
  by_cases hp : p r = true
  · simp [hp, hissuance]
  · simp [hp]

/-- A verification marks codes, and accepts only the one that it finds. -/
theorem verifyOtp_played {r : Except Err Bool}
    (h : (OtpService.verifyOtp phone purpose code).play world 0 none s = (r, k, v, s')) : Marks s s' ∧
      (r = .ok true ↔ ∃ record, findLatest (fun r : OtpCode => r.phone == phone && r.purpose == purpose &&
        r.consumedAt == none) OtpCode.createdAt (world 0) s = some record ∧ record.Passes code world) := by
  have hfail {r : Except Err Bool} {b : Prop} (hr : r ≠ .ok true) (hb : ¬ b) : Marks s s ∧ (r = .ok true ↔ b) :=
    ⟨.refl s, iff_of_false hr hb⟩
  rw [OtpService.verifyOtp, play_query_step] at h
  split at h
  · rename_i hdown
    obtain ⟨rfl, -, -, rfl⟩ := by simpa using h
    refine hfail (by simp) ?_
    rintro ⟨record, -, hpasses⟩
    rw [hpasses.found] at hdown
    cases hdown
  · rename_i hup
    rw [play_orThrow_bind] at h
    cases hfound : findLatest (fun r : OtpCode => r.phone == phone && r.purpose == purpose &&
        r.consumedAt == none) OtpCode.createdAt (world 0) s with
    | none =>
      rw [hfound] at h
      obtain ⟨rfl, -, -, rfl⟩ := by simpa using h
      exact hfail (by simp) (by simp)
    | some record =>
      rw [hfound] at h
      obtain ⟨hmem, -⟩ := findLatest_some hfound
      simp only [Option.some.injEq, exists_eq_left']
      simp only [play_mark_bind] at h
      rw [clock, play_look_step, play_ensure_bind] at h
      split at h
      · rename_i hinTime
        rw [play_ensure_bind] at h
        split at h
        · rename_i hattempts
          split at h
          · rename_i hright
            rw [play_look_step, play_prisma_step] at h
            split at h
            · rename_i s₁ hupdate
              obtain ⟨rfl, -, -, rfl⟩ := by simpa [play] using h
              refine ⟨update_marks (attempt_ok hupdate) (fun _ => rfl), iff_of_true rfl ?_⟩
              exact ⟨hright, hinTime, hattempts, by simpa using hup, attempt_up hupdate⟩
            · rename_i e hupdate
              obtain ⟨rfl, -, -, rfl⟩ := by simpa using h
              refine hfail (by simp) fun hpasses => ?_
              have hnone := update_error (by simpa [attempt, hpasses.consumed] using hupdate) record hmem
              simp at hnone
          · rename_i hwrong
            rw [play_mark_bind, play_prisma_step] at h
            split at h
            · rename_i s₁ hupdate
              obtain ⟨rfl, -, -, rfl⟩ := by simpa [play] using h
              exact ⟨update_marks (attempt_ok hupdate) (fun _ => rfl), iff_of_false (by simp) fun hpasses =>
                hwrong hpasses.right⟩
            · obtain ⟨rfl, -, -, rfl⟩ := by simpa using h
              exact hfail (by simp) fun hpasses => hwrong hpasses.right
        · rename_i hattempts
          obtain ⟨rfl, -, -, rfl⟩ := by simpa using h
          exact hfail (by simp) fun hpasses => hattempts hpasses.attempts
      · rename_i hinTime
        obtain ⟨rfl, -, -, rfl⟩ := by simpa using h
        exact hfail (by simp) fun hpasses => hinTime hpasses.inTime

end calls

/-! ### Every history -/

/-- The codes that were issued for this phone and purpose stand in the order of their times. -/
structure Dated (phone : String) (purpose : OtpPurpose) (now : Time) (s : Store) (codes : List String) : Prop where
  codes : (s.otpCode.only (OtpCode.isFor phone purpose)).map (fun r => r.codeHash.of) = codes.reverse
  sorted : (s.otpCode.only (OtpCode.isFor phone purpose)).Pairwise fun r r' => r.createdAt ≤ r'.createdAt
  past : ∀ r ∈ s.otpCode.only (OtpCode.isFor phone purpose), r.createdAt ≤ now

section histories
variable {config : ConfigService} {phone code : String} {purpose : OtpPurpose} {now now' : Time} {s s' s₀ : Store}
  {codes newer older : List String} {world : ℕ → Env}

theorem Clocked.le (h : Clocked now world) (k : ℕ) : now ≤ (world k).now :=
  Int.le_trans h.1 (h.2 0 k (Nat.zero_le k))

theorem Dated.later (h : Dated phone purpose now s codes) (hnow : now ≤ now') : Dated phone purpose now' s codes :=
  ⟨h.codes, h.sorted, fun r hr => Int.le_trans (h.past r hr) hnow⟩

theorem Dated.marks (h : Dated phone purpose now s codes) (hmarks : Marks s s') :
    Dated phone purpose now s' codes := by
  obtain ⟨f, hissuance, hrows⟩ := hmarks
  have hphone (r : OtpCode) : (f r).phone = r.phone := congrArg (fun x => x.1) (hissuance r)
  have hpurpose (r : OtpCode) : (f r).purpose = r.purpose := congrArg (fun x => x.2.1) (hissuance r)
  have hhash (r : OtpCode) : (f r).codeHash = r.codeHash := congrArg (fun x => x.2.2.1) (hissuance r)
  have htime (r : OtpCode) : (f r).createdAt = r.createdAt := congrArg (fun x => x.2.2.2) (hissuance r)
  have honly : s'.otpCode.only (OtpCode.isFor phone purpose) =
      (s.otpCode.only (OtpCode.isFor phone purpose)).map f := by
    have hsame : OtpCode.isFor phone purpose ∘ f = OtpCode.isFor phone purpose := by
      funext r
      simp [OtpCode.isFor, hphone, hpurpose]
    rw [Table.only, Table.only, hrows, List.filter_map, hsame]
  refine ⟨?_, ?_, ?_⟩
  · rw [honly, List.map_map, ← h.codes]
    exact List.map_congr_left fun r _ => congrArg Digest.of (hhash r)
  · rw [honly, List.pairwise_map]
    exact h.sorted.imp fun {r r'} hle => by rwa [htime, htime]
  · intro r hr
    rw [honly] at hr
    obtain ⟨r₀, hr₀, rfl⟩ := List.mem_map.mp hr
    rw [htime]
    exact h.past r₀ hr₀

theorem Dated.sends {row : OtpCode} {table : Table OtpCode} (h : Dated phone purpose now s codes)
    (htable : s.otpCode.insert row = some table) (hfor : row.isFor phone purpose = true)
    (hnow : now ≤ row.createdAt) (hnow' : row.createdAt ≤ now') :
    Dated phone purpose now' (Model.set s table) (row.codeHash.of :: codes) := by
  have honly : (Model.set s table).otpCode.only (OtpCode.isFor phone purpose) =
      s.otpCode.only (OtpCode.isFor phone purpose) ++ [row] := by
    change table.only _ = _
    rw [Table.only, Table.insert_rows htable, List.filter_append, List.filter_singleton, hfor]
    rfl
  refine ⟨?_, ?_, ?_⟩
  · rw [honly, List.map_append, h.codes, List.reverse_cons]
    rfl
  · rw [honly, List.pairwise_append]
    refine ⟨h.sorted, List.pairwise_singleton _ _, fun r hr r' hr' => ?_⟩
    rw [List.mem_singleton.mp hr']
    exact Int.le_trans (h.past r hr) hnow
  · intro r hr
    rw [honly] at hr
    rcases List.mem_append.mp hr with hr | hr
    · exact Int.le_trans (h.past r hr) (Int.le_trans hnow hnow')
    · rw [List.mem_singleton.mp hr]
      exact hnow'

theorem Codes.dated (hstart : s₀.otpCode.only (OtpCode.isFor phone purpose) = [])
    (h : Codes config phone purpose s₀ now s codes) : Dated phone purpose now s codes := by
  induction h with
  | start => exact ⟨by rw [hstart]; rfl, by rw [hstart]; exact .nil, by rw [hstart]; simp⟩
  | @requestOtp now s s' codes userId world r k v code _ hclock hplay hsends ih =>
    obtain ⟨row, table, htable, rfl, hhash⟩ := hsends
    rcases requestOtp_played hplay with hsame | ⟨row', table', htable', hset, hfor, j, hj, hcreated⟩
    · have hrows := congrArg (fun s => s.otpCode.rows.length) hsame
      simp [Model.set, Table.insert_rows htable] at hrows
    · obtain rfl : table = table' := congrArg Store.otpCode hset
      obtain rfl : row = row' := by
        have hrows := (Table.insert_rows htable).symm.trans (Table.insert_rows htable')
        simpa using hrows
      have hlate : row.createdAt ≤ (world k).now := hcreated ▸ hclock.2 j k hj
      have hdated := ih.sends htable hfor (hcreated ▸ hclock.le j) hlate
      rw [hhash] at hdated
      exact hdated
  | requestRefused _ hclock _ ih => exact ih.later (hclock.le _)
  | verifyOtp _ hclock hplay ih => exact (ih.marks (verifyOtp_played hplay).1).later (hclock.le _)

theorem Digest.of_eq {d : Digest} {text : String} : d.of = text ↔ d = sha256Hash text := by
  cases d
  simp [sha256Hash]

/-- The current code is the last one that is not consumed. -/
theorem Dated.findLatest (h : Dated phone purpose now s codes) (g : Env) :
    findLatest (fun r : OtpCode => r.phone == phone && r.purpose == purpose && r.consumedAt == none)
      OtpCode.createdAt g s =
      ((s.otpCode.only (OtpCode.isFor phone purpose)).filter fun r => r.consumedAt == none).getLast? := by
  have hrows : s.otpCode.rows.filter (fun r => r.phone == phone && r.purpose == purpose && r.consumedAt == none) =
      (s.otpCode.only (OtpCode.isFor phone purpose)).filter fun r => r.consumedAt == none := by
    rw [Table.only, List.filter_filter]
    refine List.filter_congr fun r _ => ?_
    exact Bool.and_comm _ _
  refine (findLatest_sorted ?_).trans (congrArg List.getLast? hrows)
  refine Eq.mpr (congrArg _ hrows) ?_
  exact h.sorted.sublist List.filter_sublist

/-- A code is the current one when it is not consumed and all later ones are. -/
theorem Dated.current (h : Dated phone purpose now s (newer ++ code :: older))
    (hdistinct : (newer ++ code :: older).Nodup) {r : OtpCode} (hr : r.codeHash = sha256Hash code) :
    ((s.otpCode.only (OtpCode.isFor phone purpose)).filter fun r => r.consumedAt == none).getLast? = some r ↔
      (r ∈ s.otpCode.only (OtpCode.isFor phone purpose) ∧ r.consumedAt = none) ∧
        ∀ later ∈ newer, ¬ s.Unused phone purpose later := by
  have hcodes := h.codes
  rw [List.reverse_append, List.reverse_cons, List.append_assoc] at hcodes
  obtain ⟨before, rest, hrows, hbefore, hrest⟩ := List.map_eq_append_iff.mp hcodes
  obtain ⟨r₀, after, rfl, hr₀, hafter⟩ := List.map_eq_cons_iff.mp hrest
  change after.map _ = newer.reverse at hafter
  obtain ⟨-, hlater, hdisjoint⟩ := List.nodup_append.mp hdistinct
  have hcode : code ∉ newer ∧ code ∉ older :=
    ⟨fun hin => hdisjoint code hin code List.mem_cons_self rfl, (List.nodup_cons.mp hlater).1⟩
  have holder {r : OtpCode} (hr : r ∈ before) : r.codeHash.of ∈ older := by
    rw [← List.mem_reverse, ← hbefore]
    exact List.mem_map_of_mem hr
  have hnewer {r : OtpCode} : r ∈ after → r.codeHash.of ∈ newer := by
    intro hr
    rw [← List.mem_reverse, ← hafter]
    exact List.mem_map_of_mem hr
  -- No other row has this code.
  have hsame (hmem : r ∈ before ++ r₀ :: after) : r = r₀ := by
    have hof := Digest.of_eq.mpr hr
    rcases List.mem_append.mp hmem with hin | hin
    · exact absurd (hof ▸ holder hin) hcode.2
    · rcases List.mem_cons.mp hin with hin | hin
      · exact hin
      · exact absurd (hof ▸ hnewer hin) hcode.1
  have hused : (∀ later ∈ newer, ¬ s.Unused phone purpose later) ↔
      after.filter (fun r => r.consumedAt == none) = [] := by
    rw [List.filter_eq_nil_iff]
    constructor
    · intro hnone r' hr' hlive
      have hmem : r' ∈ s.otpCode.only (OtpCode.isFor phone purpose) := by
        rw [hrows]
        exact List.mem_append_right _ (List.mem_cons_of_mem _ hr')
      obtain ⟨hrow, hfor⟩ := Table.mem_only.mp hmem
      exact hnone _ (hnewer hr') ⟨r', hrow, hfor, Digest.of_eq.mp rfl, by simpa using hlive⟩
    · rintro hnone later hlater ⟨r', hrow, hfor, hhash, hlive⟩
      have hof := Digest.of_eq.mpr hhash
      have hmem : r' ∈ before ++ r₀ :: after := hrows ▸ Table.mem_only.mpr ⟨hrow, hfor⟩
      rcases List.mem_append.mp hmem with hin | hin
      · exact hdisjoint later hlater later (List.mem_cons_of_mem _ (hof ▸ holder hin)) rfl
      · rcases List.mem_cons.mp hin with rfl | hin
        · exact hcode.1 (hr₀ ▸ hof.symm ▸ hlater)
        · exact hnone r' hin (by simp [hlive])
  rw [hused]
  constructor
  · intro hlast
    obtain ⟨hmem, hlive⟩ := List.mem_filter.mp (List.mem_of_getLast? hlast)
    refine ⟨⟨hmem, by simpa using hlive⟩, ?_⟩
    -- The last one would otherwise be a later code.
    by_contra hne
    obtain ⟨r', hr'⟩ : ∃ r', (after.filter fun r => r.consumedAt == none).getLast? = some r' :=
      ⟨_, List.getLast?_eq_some_getLast hne⟩
    rw [hrows, List.append_cons, List.filter_append, List.getLast?_append, hr'] at hlast
    obtain rfl := Option.some.inj hlast
    have hin := hnewer (List.mem_of_mem_filter (List.mem_of_getLast? hr'))
    exact hcode.1 (Digest.of_eq.mpr hr ▸ hin)
  · rintro ⟨⟨hmem, hlive⟩, hnone⟩
    rw [hrows] at hmem ⊢
    obtain rfl := hsame hmem
    rw [List.append_cons, List.filter_append, hnone, List.filter_append]
    simp [hlive]

/-- An earlier code is not accepted if and only if a later one is not consumed, or a verification of
the code itself would not pass. -/
theorem newest_code (hstart : s₀.otpCode.only (OtpCode.isFor phone purpose) = [])
    (hcodes : Codes config phone purpose s₀ now s (newer ++ code :: older))
    (hdistinct : (newer ++ code :: older).Nodup) :
    ((OtpService.verifyOtp phone purpose code).play world 0 none s).1 ≠ .ok true ↔
      (∃ later ∈ newer, s.Unused phone purpose later) ∨
        ¬ ∃ r ∈ s.otpCode.rows, r.isFor phone purpose = true ∧ r.consumedAt = none ∧ r.Passes code world := by
  have hdated := hcodes.dated hstart
  rw [Ne, (verifyOtp_played rfl).2, hdated.findLatest, not_iff_comm, not_or, not_not]
  constructor
  · rintro ⟨hlater, r, hr, hfor, hlive, hpasses⟩
    refine ⟨r, (hdated.current hdistinct hpasses.right).mpr ⟨⟨Table.mem_only.mpr ⟨hr, hfor⟩, hlive⟩, ?_⟩, hpasses⟩
    exact fun later hin hunused => hlater ⟨later, hin, hunused⟩
  · rintro ⟨r, hlast, hpasses⟩
    obtain ⟨⟨hmem, hlive⟩, hlater⟩ := (hdated.current hdistinct hpasses.right).mp hlast
    obtain ⟨hr, hfor⟩ := Table.mem_only.mp hmem
    exact ⟨fun ⟨later, hin, hunused⟩ => hlater later hin hunused, r, hr, hfor, hlive, hpasses⟩

/-- The call has issued the code whose hash it has added. -/
theorem Codes.next (userId : Option Id) (world : ℕ → Env) (h : Codes config phone purpose s₀ now s codes)
    (hclock : Clocked now world)
    (hhash : ((OtpService.requestOtp config phone purpose userId).play world 0 none s).2.2.2.otpCode.rows.map
      OtpCode.codeHash = s.otpCode.rows.map OtpCode.codeHash ++ [sha256Hash code]) :
    Codes config phone purpose s₀
      (world ((OtpService.requestOtp config phone purpose userId).play world 0 none s).2.1).now
      ((OtpService.requestOtp config phone purpose userId).play world 0 none s).2.2.2 (code :: codes) := by
  have hplay : (OtpService.requestOtp config phone purpose userId).play world 0 none s = (_, _, _, _) := rfl
  refine h.requestOtp hclock hplay ?_
  rcases requestOtp_played hplay with hsame | ⟨row, table, htable, hset, -⟩
  · rw [hsame] at hhash
    simp at hhash
  · refine ⟨row, table, htable, hset, ?_⟩
    rw [hset] at hhash
    change table.rows.map _ = _ at hhash
    simpa [Table.insert_rows htable] using hhash

end histories

/-- The world of a request at this time, which draws this number. -/
def drawing (now : Time) (random : ℕ) : ℕ → Env := fun _ => { now, uuid := fun k => random + k, random }

theorem drawing_clocked {now now' : Time} {random : ℕ} (h : now ≤ now') : Clocked now (drawing now' random) :=
  ⟨h, fun _ _ _ => Int.le_refl _⟩

/-- A first code was sent, and a second one a minute later. -/
def resent : Store :=
  ((OtpService.requestOtp {} "09120000000" .login).play (drawing 60000 222222) 0 none
    ((OtpService.requestOtp {} "09120000000" .login).play (drawing 0 111111) 0 none {}).2.2.2).2.2.2

theorem resent_codes : Codes {} "09120000000" .login {} 60000 resent (["222222"] ++ "111111" :: []) := by
  have hfirst : Codes {} "09120000000" .login {} _ _ ["111111"] :=
    Codes.next none (drawing 0 111111) (.start : Codes _ _ _ _ 0 _ _) (drawing_clocked (by decide)) (by decide +kernel)
  exact hfirst.next none (drawing 60000 222222) (drawing_clocked (by decide +kernel)) (by decide +kernel)

/-- As long as the second code is not used, the first one is not accepted. -/
theorem newest_code_resent :
    ((OtpService.verifyOtp "09120000000" .login "111111").play (drawing 60000 0) 0 none resent).1 ≠ .ok true := by
  refine (newest_code rfl resent_codes (by decide)).mpr (.inl ⟨"222222", by simp, ?_⟩)
  have hrow : ∃ r ∈ resent.otpCode.rows, r.isFor "09120000000" .login = true ∧
      r.codeHash = sha256Hash "222222" ∧ r.consumedAt = none := by decide +kernel
  exact hrow

/-- When the second code is used, the first one is accepted once more. -/
theorem earlier_code_accepted : ∃ s, Codes {} "09120000000" .login {} 60000 s ["222222", "111111"] ∧
    ((OtpService.verifyOtp "09120000000" .login "111111").play (drawing 60000 0) 0 none s).1 = .ok true := by
  have hplay : (OtpService.verifyOtp "09120000000" .login "222222").play (drawing 60000 0) 0 none resent =
      (_, _, _, _) := rfl
  exact ⟨_, resent_codes.verifyOtp (drawing_clocked (Int.le_refl _)) hplay, by decide +kernel⟩

end BookingPlatform
