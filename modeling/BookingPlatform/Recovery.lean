import BookingPlatform.Auth
import BookingPlatform.Codes

/-! What the answers to calls for a code tell about an account. -/
namespace BookingPlatform
open Async Data Prog

/-- The calls that anybody may make for a phone. -/
inductive Recovery
  | requestLoginOtp
  | forgotPassword
  deriving DecidableEq

namespace Recovery

def serve (config : ConfigService) (phone : String) : Recovery → Task OtpResponse
  | requestLoginOtp => AuthService.requestLoginOtp config phone
  | forgotPassword => AuthService.forgotPassword config phone

def purpose : Recovery → OtpPurpose
  | requestLoginOtp => .login
  | forgotPassword => .resetPassword

end Recovery

/-- The answers to calls that are made one after another. -/
def responses (config : ConfigService) (phone : String) :
    Store → List (Recovery × (ℕ → Env)) → List (Except Err OtpResponse)
  | _, [] => []
  | s, (ask, world) :: rest => ((ask.serve config phone).play world 0 none s).1 ::
      responses config phone ((ask.serve config phone).play world 0 none s).2.2.2 rest

/-- The same store, in which the phone has no account. -/
def Store.without (s : Store) (phone : String) : Store :=
  { s with user := s.user.delete fun u => u.phone == phone }

/-- How many calls a request for a code makes before it writes the code. -/
def Store.creation (s : Store) (phone : String) (purpose : OtpPurpose) : ℕ :=
  if s.otpCode.rows.any fun r => r.isFor phone purpose && r.consumedAt == none then 5 else 4

/-- No unused code for the phone is younger than the cooldown, and the database answers. -/
structure Granted (phone : String) (purpose : OtpPurpose) (world : ℕ → Env) (s : Store) : Prop where
  found : (world 1).down = false
  calm : ∀ r ∈ s.otpCode.rows, r.isFor phone purpose = true → r.consumedAt = none →
    resendCooldown ≤ (world 2).now - r.createdAt
  up : (world (s.creation phone purpose)).down = false
  fresh : ∀ r ∈ s.otpCode.rows, r.id ≠ (world (s.creation phone purpose)).newId 0

/-- Every call is refused by the database at its first query, or granted. -/
def Answered (config : ConfigService) (phone : String) : Store → List (Recovery × (ℕ → Env)) → Prop
  | _, [] => True
  | s, (ask, world) :: rest => ((world 0).down = true ∨ Granted phone ask.purpose world s) ∧
      Answered config phone ((ask.serve config phone).play world 0 none s).2.2.2 rest

section calls
variable {config : ConfigService} {phone : String} {purpose : OtpPurpose} {world : ℕ → Env} {s : Store} {u : User}
  {k : ℕ} {ask : Recovery}

theorem create_code (phone : String) (purpose : OtpPurpose) (n : ℕ) (now : Time) {g : Env} (hu : u ∈ s.user.rows) :
    (∃ r s', attempt (createAt (OtpService.row phone purpose (some u.id) n now)) g s = .ok (r, s')) ↔
      g.down = false ∧ ∀ r ∈ s.otpCode.rows, r.id ≠ g.newId 0 := by
  constructor
  · rintro ⟨r, s', h⟩
    obtain ⟨rfl, hput⟩ := create_ok (attempt_ok h)
    obtain ⟨-, table, htable, -⟩ := put_ok hput
    refine ⟨attempt_up h, fun r hr => ?_⟩
    have hclash := Table.insert_fresh htable r hr
    simpa [Indexed.clash, OtpService.row] using hclash
  · rintro ⟨hup, hfresh⟩
    obtain ⟨table, htable⟩ : ∃ table, s.otpCode.insert
        (OtpService.row phone purpose (some u.id) n now g.now (g.newId 0)) = some table :=
      Table.insert_of_fresh fun r hr => by simpa [Indexed.clash, OtpService.row] using hfresh r hr
    have hrefs : Model.refs s (OtpService.row phone purpose (some u.id) n now g.now (g.newId 0)) = true := by
      simp only [Model.refs, OtpService.row, Option.all_some, Store.has, List.any_eq_true]
      exact ⟨u, hu, beq_self_eq_true _⟩
    have hget : (Model.get s : Table OtpCode) = s.otpCode := rfl
    exact ⟨_, _, by simp [attempt, hup, createAt, create, put, hrefs, hget, htable, Except.map]; exact ⟨rfl, rfl⟩⟩

/-- Without exposure a code that is issued shows nothing. -/
theorem issue_answer (hhidden : OtpService.debugExposeEnabled config = false) (hu : u ∈ s.user.rows) :
    ((OtpService.issue config phone purpose (some u.id)).play world k none s).1 = .ok {} ↔
      (world (k + 2)).down = false ∧ ∀ r ∈ s.otpCode.rows, r.id ≠ (world (k + 2)).newId 0 := by
  rw [← create_code phone purpose ((world k).random % 10 ^ otpLength) (world (k + 1)).now hu, play_issue]
  split
  · rename_i r s' h
    exact iff_of_true (by simp [hhidden]) ⟨r, s', h⟩
  · rename_i e h
    refine iff_of_false (by simp) ?_
    rintro ⟨r, s', h'⟩
    rw [h] at h'
    cases h'

theorem granted_iff {j : ℕ} (hj : s.creation phone purpose = j) : Granted phone purpose world s ↔
    ((world 1).down = false ∧ ∀ r ∈ s.otpCode.rows, r.isFor phone purpose = true → r.consumedAt = none →
      resendCooldown ≤ (world 2).now - r.createdAt) ∧
      (world j).down = false ∧ ∀ r ∈ s.otpCode.rows, r.id ≠ (world j).newId 0 := by
  subst hj
  exact ⟨fun h => ⟨⟨h.found, h.calm⟩, h.up, h.fresh⟩, fun ⟨⟨hfound, hcalm⟩, hup, hfresh⟩ => ⟨hfound, hcalm, hup, hfresh⟩⟩

theorem requestOtp_answer (hhidden : OtpService.debugExposeEnabled config = false) (hu : u ∈ s.user.rows) :
    ((OtpService.requestOtp config phone purpose (some u.id)).play world 1 none s).1 = .ok {} ↔
      Granted phone purpose world s := by
  rw [play_requestOtp]
  by_cases hdown : (world 1).down = true
  · rw [if_pos hdown]
    refine iff_of_false (by simp) fun h => ?_
    rw [h.found] at hdown
    cases hdown
  · rw [if_neg hdown]
    have hfound : (world 1).down = false := by simpa using hdown
    cases hrecent : findLatest (fun r : OtpCode => r.phone == phone && r.purpose == purpose && r.consumedAt == none)
        OtpCode.createdAt (world 1) s with
    | some recent =>
      obtain ⟨hmem, hp⟩ := findLatest_some hrecent
      have hunused : recent.isFor phone purpose = true ∧ recent.consumedAt = none :=
        ⟨(Bool.and_eq_true_iff.mp hp).1, by simpa using (Bool.and_eq_true_iff.mp hp).2⟩
      rw [granted_iff (j := 5) (if_pos (List.any_eq_true.mpr ⟨recent, hmem, hp⟩))]
      by_cases hcalm : resendCooldown ≤ (world (1 + 1)).now - recent.createdAt
      · -- The latest unused code is old enough, and so are all others.
        simp only [hcalm, if_true]
        refine (issue_answer hhidden hu).trans (iff_and_self.mpr fun _ => ⟨hfound, fun r hr hfor hlive => ?_⟩)
        have hle := findLatest_le hrecent r hr (Bool.and_eq_true_iff.mpr ⟨hfor, by simp [hlive]⟩)
        exact Int.le_trans hcalm (Int.sub_le_sub_left hle _)
      · refine iff_of_false ?_ fun h => hcalm (h.1.2 recent hmem hunused.1 hunused.2)
        simp [hcalm]
    | none =>
      have hnever := findLatest_none hrecent
      have hcreation : s.creation phone purpose = 4 := by
        refine if_neg fun hany => ?_
        obtain ⟨r, hr, hp⟩ := List.any_eq_true.mp hany
        exact Bool.false_ne_true ((hnever r hr).symm.trans hp)
      rw [granted_iff hcreation]
      refine (issue_answer hhidden hu).trans (iff_and_self.mpr fun _ => ⟨hfound, fun r hr hfor hlive => ?_⟩)
      have hp : (r.isFor phone purpose && r.consumedAt == none) = true := Bool.and_eq_true_iff.mpr ⟨hfor, by simp [hlive]⟩
      exact absurd ((hnever r hr).symm.trans hp) Bool.false_ne_true

/-- A request for a code leaves the accounts alone. -/
theorem requestOtp_user {userId : Option Id} :
    ((OtpService.requestOtp config phone purpose userId).play world k none s).2.2.2.user = s.user := by
  have hplay : (OtpService.requestOtp config phone purpose userId).play world k none s = (_, _, _, _) := rfl
  rcases requestOtp_played hplay with hsame | ⟨row, table, -, hset, -⟩
  · rw [hsame]
  · rw [hset]
    rfl

/-- The two calls ask for a code for an account, if there is one. -/
theorem serve_account (hu : u ∈ s.user.rows) (hphone : u.phone = phone) (hactive : u.status = .active) :
    (ask.serve config phone).play world 0 none s = if (world 0).down then (.error .unavailable, 1, none, s) else
      (OtpService.requestOtp config phone ask.purpose (some u.id)).play world 1 none s := by
  have hfound : findUnique (fun r : User => r.phone == phone) (world 0) s = some u :=
    findUnique_of_mem hu (beq_iff_eq.mpr hphone) fun r' hr' => by
      rw [beq_iff_eq] at hr'
      simp [Indexed.clash, hr', hphone]
  cases ask with
  | requestLoginOtp =>
    refine (play_query_step _ _).trans ?_
    simp only [hfound, Option.filter_some, hactive, decide_true, if_true]
    rfl
  | forgotPassword =>
    refine (play_query_step _ _).trans ?_
    simp only [hfound]
    rfl

theorem serve_nobody (hnone : ∀ u ∈ s.user.rows, u.phone ≠ phone) :
    (ask.serve config phone).play world 0 none s =
      if (world 0).down then (.error .unavailable, 1, none, s) else (.ok {}, 1, none, s) := by
  have hfound : findUnique (fun r : User => r.phone == phone) (world 0) s = none :=
    List.find?_eq_none.mpr fun u hu => by simpa using hnone u hu
  cases ask with
  | requestLoginOtp =>
    refine (play_query_step _ _).trans ?_
    simp only [hfound]
    rfl
  | forgotPassword =>
    refine (play_query_step _ _).trans ?_
    simp only [hfound]
    rfl

end calls

/-- With exposure off, the answers to calls about an active account are those that would be given
without the account if and only if every call is granted, or refused by the database at once. -/
theorem recovery_uniform {config : ConfigService} {phone : String} {s : Store} {u : User}
    (hhidden : OtpService.debugExposeEnabled config = false) (hu : u ∈ s.user.rows) (hphone : u.phone = phone)
    (hactive : u.status = .active) (calls : List (Recovery × (ℕ → Env))) :
    responses config phone s calls = responses config phone (s.without phone) calls ↔ Answered config phone s calls := by
  have hnone : ∀ u ∈ (s.without phone).user.rows, u.phone ≠ phone := by
    intro u hu
    simpa using (Table.mem_delete.mp hu).2
  generalize s.without phone = s' at hnone
  induction calls generalizing s with
  | nil => exact iff_of_true rfl trivial
  | cons step rest ih =>
    obtain ⟨ask, world⟩ := step
    simp only [responses, Answered, List.cons.injEq]
    have hnobody : (ask.serve config phone).play world 0 none s' = _ := serve_nobody hnone
    have hkept : ((ask.serve config phone).play world 0 none s).2.2.2.user = s.user := by
      rw [serve_account hu hphone hactive]
      split
      · rfl
      · exact requestOtp_user
    have hsame : ((ask.serve config phone).play world 0 none s').2.2.2 = s' := by
      rw [hnobody]
      split <;> rfl
    rw [hsame]
    refine and_congr ?_ (ih (hkept ▸ hu))
    rw [hnobody, serve_account hu hphone hactive]
    by_cases hdown : (world 0).down = true
    · simp [hdown]
    · rw [if_neg hdown, if_neg hdown, or_iff_right hdown]
      exact requestOtp_answer hhidden hu

/-- A phone with an account. -/
def registered : Store where
  user := .single { id := 1, phone := "09120000000", passwordHash := hashPassword "secret1", fullName := "" }

theorem registered_account : ∃ u ∈ registered.user.rows, u.phone = "09120000000" ∧ u.status = .active := by
  decide +kernel

/-- Codes for one purpose that are asked for a minute apart. -/
theorem recovery_uniform_registered : Answered {} "09120000000" registered
    [(.requestLoginOtp, drawing 0 111111), (.forgotPassword, drawing 30000 222222),
      (.requestLoginOtp, drawing 60000 333333)] := by
  have hanswers : responses {} "09120000000" registered
      [(.requestLoginOtp, drawing 0 111111), (.forgotPassword, drawing 30000 222222),
        (.requestLoginOtp, drawing 60000 333333)] =
      responses {} "09120000000" (registered.without "09120000000")
      [(.requestLoginOtp, drawing 0 111111), (.forgotPassword, drawing 30000 222222),
        (.requestLoginOtp, drawing 60000 333333)] := by decide +kernel
  obtain ⟨u, hu, hphone, hactive⟩ := registered_account
  exact (recovery_uniform rfl hu hphone hactive _).mp hanswers

/-- A second call within the minute is refused only when there is an account. -/
theorem recovery_reveals :
    responses {} "09120000000" registered
      [(.requestLoginOtp, drawing 0 111111), (.requestLoginOtp, drawing 30000 222222)] =
      [.ok {}, .error (.tooManyRequests "لطفاً 30 ثانیه دیگر دوباره تلاش کنید")] ∧
    responses {} "09120000000" (registered.without "09120000000")
      [(.requestLoginOtp, drawing 0 111111), (.requestLoginOtp, drawing 30000 222222)] = [.ok {}, .ok {}] := by
  decide +kernel

end BookingPlatform
