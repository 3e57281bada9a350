import BookingPlatform.Async.Once
import BookingPlatform.Async.Phases
import BookingPlatform.Otp
import Mathlib.Data.Set.Card

/-! Guesses at a one-time code, made by any number of verifications at a time. -/
namespace BookingPlatform
open Async Data Prog

/-- Consuming a code changes no key of its row. -/
theorem consumed_keeps (consumedAt : Time) :
    Table.Keeps fun r : OtpCode => { r with consumedAt := some consumedAt } := by
  intro _ _
  rfl

/-- Counting an attempt changes no key of its row. -/
theorem counted_keeps : Table.Keeps fun r : OtpCode => { r with attempts := r.attempts + 1 } := by
  intro _ _
  rfl

namespace OtpService

/-- `verifyOtp` from the update that consumes the code. -/
def consume (record : OtpCode) (consumedAt : Time) : Task Bool := do
  let _ ← prisma (update (fun r : OtpCode => r.id == record.id)
    (fun r => { r with consumedAt := some consumedAt }) (consumed_keeps consumedAt))
  return true

/-- `verifyOtp` from the update that counts the failed attempt. -/
def count (record : OtpCode) : Task Bool := do
  let _ ← prisma (update (fun r : OtpCode => r.id == record.id)
    (fun r => { r with attempts := r.attempts + 1 }) counted_keeps)
  return false

/-- `verifyOtp` once the code is found. -/
def compare (code : String) (record : OtpCode) : Task Bool := do
  let now ← clock
  ensure (now ≤ record.expiresAt) (.badRequest "کد منقضی شده است، دوباره درخواست دهید")
  ensure (record.attempts < maxVerifyAttempts)
    (.tooManyRequests "تعداد تلاش‌های مجاز تمام شد، دوباره درخواست دهید")
  if record.codeHash = sha256Hash code then
    let consumedAt ← clock
    consume record consumedAt
  else
    mark (.auth (.guessed record.id))
    count record

end OtpService

/-- Where a verification stands between its awaited calls. -/
inductive Guess
  | looking
  | found (record : OtpCode)
  | right (record : OtpCode)
  | consuming (record : OtpCode) (consumedAt : Time)
  | wrong (record : OtpCode)
  | accepted (record : OtpCode)
  | rejected (record : OtpCode)
  /-- The call ended in an error before it wrote anything. -/
  | refused (e : Err) (held : List Note)
  /-- The update of the code failed. -/
  | lost (e : Err) (took : List Note)

namespace Guess

/-- What it has noted about the code that it found. -/
def verifying (record : OtpCode) : List Note := [.auth (.verifying record.id)]

/-- The same, after a wrong guess. -/
def guessed (record : OtpCode) : List Note := .auth (.guessed record.id) :: verifying record

def thread (phone : String) (purpose : OtpPurpose) (code : String) : Guess → Thread Env Store Err Note Bool
  | looking => .start (OtpService.verifyOtp phone purpose code)
  | found record => .settle (OtpService.compare code record) none (verifying record)
  | right record => .settle (clock >>= OtpService.consume record) none (verifying record)
  | consuming record consumedAt => .settle (OtpService.consume record consumedAt) none (verifying record)
  | wrong record => .settle (OtpService.count record) none (guessed record)
  | accepted _ => ⟨.done (.ok true), none, []⟩
  | rejected _ => ⟨.done (.ok false), none, []⟩
  | refused e held => ⟨.done (.error e), none, held⟩
  | lost e _ => ⟨.done (.error e), none, []⟩

def took : Guess → List Note
  | looking => []
  | found record | right record | consuming record _ | accepted record => verifying record
  | wrong record | rejected record => guessed record
  | refused _ took | lost _ took => took

/-- What the next call does. -/
def next (phone : String) (purpose : OtpPurpose) (code : String) (g : Env) (s : Store) : Guess → Guess × Store
  | looking =>
    if g.down then (refused .unavailable [], s) else
      match findLatest (fun r : OtpCode => r.phone == phone && r.purpose == purpose && r.consumedAt == none)
        OtpCode.createdAt g s with
      | some record => (found record, s)
      | none => (refused (.badRequest "کد معتبری برای این شماره یافت نشد، دوباره درخواست دهید") [], s)
  | found record =>
    if g.now ≤ record.expiresAt then
      if record.attempts < maxVerifyAttempts then
        if record.codeHash = sha256Hash code then (right record, s) else (wrong record, s)
      else (refused (.tooManyRequests "تعداد تلاش‌های مجاز تمام شد، دوباره درخواست دهید") (verifying record), s)
    else (refused (.badRequest "کد منقضی شده است، دوباره درخواست دهید") (verifying record), s)
  | right record => (consuming record g.now, s)
  | consuming record consumedAt =>
    match attempt (update (fun r : OtpCode => r.id == record.id)
        (fun r => { r with consumedAt := some consumedAt }) (consumed_keeps consumedAt)) g s with
    | .ok (_, s') => (accepted record, s')
    | .error e => (lost e (verifying record), s)
  | wrong record =>
    match attempt (update (fun r : OtpCode => r.id == record.id)
        (fun r => { r with attempts := r.attempts + 1 }) counted_keeps) g s with
    | .ok (_, s') => (rejected record, s')
    | .error e => (lost e (guessed record), s)
  | accepted record => (accepted record, s)
  | rejected record => (rejected record, s)
  | refused e held => (refused e held, s)
  | lost e took => (lost e took, s)

section script
variable {phone : String} {purpose : OtpPurpose} {code : String}

/-- The phases are those of the program. -/
theorem step_thread (g : Env) (s : Store) (φ : Guess) : (thread phone purpose code φ).step g s =
    (thread phone purpose code (next phone purpose code g s φ).1, (next phone purpose code g s φ).2) := by
  cases φ with
  | looking =>
    refine (step_query g s).trans ?_
    unfold next
    by_cases hdown : g.down
    · simp only [hdown, if_true, thread, Thread.settle_done]
    · simp only [hdown, if_false, Bool.false_eq_true]
      rw [Thread.settle_orThrow]
      cases findLatest (fun r : OtpCode => r.phone == phone && r.purpose == purpose && r.consumedAt == none)
        OtpCode.createdAt g s <;> rfl
  | found record =>
    refine (step_look g s).trans ?_
    simp only [Thread.settle_ensure, next]
    split_ifs <;> rfl
  | right record => exact step_look g s
  | consuming record consumedAt =>
    refine (step_prisma g s).trans ?_
    simp only [next]
    cases attempt (update (fun r : OtpCode => r.id == record.id)
      fun r => { r with consumedAt := some consumedAt }) g s <;> rfl
  | wrong record =>
    refine (step_prisma g s).trans ?_
    simp only [next]
    cases attempt (update (fun r : OtpCode => r.id == record.id)
      fun r => { r with attempts := r.attempts + 1 }) g s <;> rfl
  | accepted record => rfl
  | rejected record => rfl
  | refused e held => rfl
  | lost e took => rfl

theorem notes_took (φ : Guess) : ∀ x ∈ (thread phone purpose code φ).notes, x ∈ φ.took := by
  intro x hx
  cases φ with
  | looking => exact hx
  | found record => exact hx
  | right record => exact hx
  | consuming record consumedAt => exact hx
  | wrong record => exact hx
  | refused e held => exact hx
  | _ => cases hx

/-- The record of a verification that is still at work. -/
def current : Guess → Option OtpCode
  | found record | right record | consuming record _ | wrong record => some record
  | _ => none

/-- A verification at work holds the code that it found. -/
theorem current_thread (phone : String) (purpose : OtpPurpose) (code : String) {φ : Guess} {record : OtpCode} (h : φ.current = some record) :
    (thread phone purpose code φ).result = none ∧
      .auth (.verifying record.id) ∈ (thread phone purpose code φ).notes := by
  cases φ with
  | found r | right r | consuming r t =>
    obtain rfl := Option.some.inj h
    exact ⟨rfl, List.mem_cons_self⟩
  | wrong r =>
    obtain rfl := Option.some.inj h
    exact ⟨rfl, List.mem_cons_of_mem _ List.mem_cons_self⟩
  | _ => cases h

/-- Who answers true has accepted the code that it found. -/
theorem accepted_of_result {φ : Guess} {id : Id} (h : (thread phone purpose code φ).result = some (.ok true))
    (hid : .auth (.verifying id) ∈ φ.took) : ∃ r, φ = .accepted r ∧ r.id = id := by
  cases φ with
  | accepted r =>
    simp only [took, verifying, List.mem_singleton, Note.auth.injEq, AuthNote.verifying.injEq] at hid
    exact ⟨r, rfl, hid.symm⟩
  | _ => cases h

end script

/-- What a step may do. -/
inductive Step (g : Env) (s : Store) : Guess → Guess → Store → Prop where
  | find {record : OtpCode} : record ∈ s.otpCode.rows → record.consumedAt = none →
      Step g s .looking (.found record) s
  | pass {record : OtpCode} : Step g s (.found record) (.right record) s
  | miss {record : OtpCode} : record.attempts < maxVerifyAttempts → Step g s (.found record) (.wrong record) s
  | refuse {φ : Guess} {e : Err} : (∀ record, φ ≠ .wrong record) → Step g s φ (.refused e φ.took) s
  | time {record : OtpCode} {consumedAt : Time} : Step g s (.right record) (.consuming record consumedAt) s
  | consume {record : OtpCode} {consumedAt : Time} {s' : Store} :
      s'.otpCode.rows = s.otpCode.rows.map (fun r => if r.id == record.id then
        { r with consumedAt := some consumedAt } else r) →
      Step g s (.consuming record consumedAt) (.accepted record) s'
  | count {record : OtpCode} {s' : Store} :
      s'.otpCode.rows = s.otpCode.rows.map (fun r => if r.id == record.id then
        { r with attempts := r.attempts + 1 } else r) →
      Step g s (.wrong record) (.rejected record) s'
  | lose {record : OtpCode} {consumedAt : Time} {e : Err} :
      Step g s (.consuming record consumedAt) (.lost e (verifying record)) s
  | drop {record : OtpCode} {e : Err} : g.down = true ∨ (∀ r ∈ s.otpCode.rows, r.id ≠ record.id) →
      Step g s (.wrong record) (.lost e (guessed record)) s
  | stay {φ : Guess} : φ.current = none → Step g s φ φ s

theorem next_step (phone : String) (purpose : OtpPurpose) (code : String) (g : Env) (s : Store) (φ : Guess) :
    Step g s φ (next phone purpose code g s φ).1 (next phone purpose code g s φ).2 := by
  cases φ with
  | looking =>
    simp only [next]
    split
    · exact .refuse (by simp)
    · split
      · rename_i record hrecord
        obtain ⟨hmem, hp⟩ := findLatest_some hrecord
        exact .find hmem (by simpa using (Bool.and_eq_true_iff.mp hp).2)
      · exact .refuse (by simp)
  | found record =>
    simp only [next]
    split
    · split
      · rename_i hfew
        split
        · exact .pass
        · exact .miss hfew
      · exact .refuse (by simp)
    · exact .refuse (by simp)
  | right record => exact .time
  | consuming record consumedAt =>
    simp only [next]
    split
    · rename_i r s' h
      obtain ⟨-, rfl⟩ := update_ok (attempt_ok h)
      exact .consume rfl
    · exact .lose
  | wrong record =>
    simp only [next]
    split
    · rename_i r s' h
      obtain ⟨-, rfl⟩ := update_ok (attempt_ok h)
      exact .count rfl
    · rename_i e h
      refine .drop ?_
      by_cases hdown : g.down
      · exact .inl hdown
      · right
        intro r hr hid
        have hnone := update_error (by simpa [attempt, hdown] using h) r hr
        simp [hid] at hnone
  | accepted record => exact .stay rfl
  | rejected record => exact .stay rfl
  | refused e held => exact .stay rfl
  | lost e took => exact .stay rfl

theorem Step.took {g : Env} {s s' : Store} {φ ψ : Guess} (h : Step g s φ ψ s') : ∀ x ∈ φ.took, x ∈ ψ.took := by
  intro x hx
  cases h with
  | find => cases hx
  | miss => exact List.mem_cons_of_mem _ hx
  | _ => exact hx

def script (phone : String) (purpose : OtpPurpose) (code : String) : Script Guess Env Store Err Note Bool where
  thread := thread phone purpose code
  next := next phone purpose code
  took := took
  step := step_thread
  notes := notes_took
  grows g s φ := (next_step phone purpose code g s φ).took

/-! ### Any number of verifications -/

section many
variable {ι : Type} [DecidableEq ι] {φ : ι → Guess} {ψ : Guess} {s s' : Store} {g : Env} {i : ι} {id : Id}

/-- No two verifications are at work on one code. -/
def Apart (φ : ι → Guess) : Prop :=
  ∀ i j r r', (φ i).current = some r → (φ j).current = some r' → r.id = r'.id → i = j

/-- What a verification at work has read is still so. -/
def Current (φ : ι → Guess) (s : Store) : Prop :=
  ∀ i r, (φ i).current = some r → r ∈ s.otpCode.rows ∧ r.consumedAt = none

/-- A code that was accepted is consumed, and it was accepted once. -/
def Once (φ : ι → Guess) (s : Store) : Prop :=
  (∀ i r, φ i = .accepted r → ∃ r' ∈ s.otpCode.rows, r'.id = r.id ∧ r'.consumedAt ≠ none) ∧
    ∀ i j r r', φ i = .accepted r → φ j = .accepted r' → r.id = r'.id → i = j

/-- The wrong guesses at the code are few, and all but one that is being counted are counted. -/
structure Counted (id : Id) (φ : ι → Guess) (s : Store) (l : Finset ι) : Prop where
  covers : ∀ i, .auth (.guessed id) ∈ (φ i).took → i ∈ l
  few : l.card ≤ maxVerifyAttempts
  attempts : ∀ r ∈ s.otpCode.rows, r.id = id →
    l.card ≤ r.attempts ∨ (l.card ≤ r.attempts + 1 ∧ ∃ i, φ i = .wrong r)

theorem Step.current_mem (h : Step g s (φ i) ψ s') (hcurrent : Current φ s) (hapart : Apart φ) :
    Current (Function.update φ i ψ) s' := by
  intro j r hj
  by_cases hji : j = i
  · subst j
    rw [Function.update_self] at hj
    generalize hφ : φ i = before at h
    cases h with
    | find hmem hlive =>
      obtain rfl := Option.some.inj hj
      exact ⟨hmem, hlive⟩
    | pass | miss | time => exact hcurrent i r (by rw [hφ]; exact hj)
    | stay => exact hcurrent i r (by rw [hφ]; exact hj)
    | _ => cases hj
  · rw [Function.update_of_ne hji] at hj
    obtain ⟨hmem, hlive⟩ := hcurrent j r hj
    have hother {record : OtpCode} (hi : (φ i).current = some record) : (r.id == record.id) = false := by
      rw [beq_eq_false_iff_ne]
      exact fun hid => hji (hapart j i r record hj hi hid)
    refine ⟨?_, hlive⟩
    generalize hφ : φ i = before at h
    cases h with
    | consume hrows =>
      rw [hrows]
      exact List.mem_map.mpr ⟨r, hmem, by rw [hother (by rw [hφ]; rfl)]; rfl⟩
    | count hrows =>
      rw [hrows]
      exact List.mem_map.mpr ⟨r, hmem, by rw [hother (by rw [hφ]; rfl)]; rfl⟩
    | _ => exact hmem

omit [DecidableEq ι] in
/-- A code that is consumed stays so. -/
theorem Step.consumed_mem {before : Guess} (h : Step g s before ψ s') {r : OtpCode} (hr : r ∈ s.otpCode.rows)
    (hused : r.consumedAt ≠ none) : ∃ r' ∈ s'.otpCode.rows, r'.id = r.id ∧ r'.consumedAt ≠ none := by
  cases h with
  | consume hrows =>
    rw [hrows]
    refine ⟨_, List.mem_map_of_mem hr, ?_⟩
    split
    · exact ⟨rfl, by simp⟩
    · exact ⟨rfl, hused⟩
  | count hrows =>
    rw [hrows]
    refine ⟨_, List.mem_map_of_mem hr, ?_⟩
    split
    · exact ⟨rfl, hused⟩
    · exact ⟨rfl, hused⟩
  | _ => exact ⟨r, hr, rfl, hused⟩

omit [DecidableEq ι] in
/-- Who has accepted a code had done so before, or consumes it now. -/
theorem Step.accepts {before : Guess} {r : OtpCode} (h : Step g s before (.accepted r) s') :
    before = .accepted r ∨ (before.current = some r ∧
      (r ∈ s.otpCode.rows → ∃ r' ∈ s'.otpCode.rows, r'.id = r.id ∧ r'.consumedAt ≠ none)) := by
  cases h with
  | stay => exact .inl rfl
  | consume hrows =>
    refine .inr ⟨rfl, fun hr => ?_⟩
    rw [hrows]
    exact ⟨_, List.mem_map_of_mem hr, by simp⟩

theorem Step.once (h : Step g s (φ i) ψ s') (hcurrent : Current φ s) (honce : Once φ s) :
    Once (Function.update φ i ψ) s' := by
  obtain ⟨hused, hone⟩ := honce
  have hold {j : ι} {r : OtpCode} (hj : φ j = .accepted r) :
      ∃ r' ∈ s'.otpCode.rows, r'.id = r.id ∧ r'.consumedAt ≠ none := by
    obtain ⟨r', hr', hid, hconsumed⟩ := hused j r hj
    obtain ⟨r'', hr'', hid', hconsumed'⟩ := h.consumed_mem hr' hconsumed
    exact ⟨r'', hr'', hid'.trans hid, hconsumed'⟩
  have hsame {k : ι} {r r' : OtpCode} (hi : ψ = .accepted r) (hk : φ k = .accepted r') (hid : r.id = r'.id) :
      i = k := by
    subst hi
    rcases h.accepts with hi | ⟨hi, -⟩
    · exact hone i k r r' hi hk hid
    · -- The code was not consumed yet, so that nobody has accepted it.
      obtain ⟨hmem, hlive⟩ := hcurrent i r hi
      obtain ⟨r'', hr'', hid', hconsumed⟩ := hused k r' hk
      obtain rfl : r'' = r := Table.eq_of_clash hr'' hmem (by simp [Indexed.clash, hid', hid])
      exact absurd hlive hconsumed
  refine ⟨fun j r hj => ?_, fun j k r r' hj hk hid => ?_⟩
  · by_cases hji : j = i
    · subst j
      rw [Function.update_self] at hj
      subst hj
      rcases h.accepts with hi | ⟨hi, hconsumes⟩
      · exact hold hi
      · exact hconsumes (hcurrent i r hi).1
    · rw [Function.update_of_ne hji] at hj
      exact hold hj
  · by_cases hji : j = i
    · by_cases hki : k = i
      · rw [hji, hki]
      · subst j
        rw [Function.update_self] at hj
        rw [Function.update_of_ne hki] at hk
        exact hsame hj hk hid
    · rw [Function.update_of_ne hji] at hj
      by_cases hki : k = i
      · subst k
        rw [Function.update_self] at hk
        exact (hsame hk hj hid.symm).symm
      · rw [Function.update_of_ne hki] at hk
        exact hone j k r r' hj hk hid

/-- Somebody else's wrong guess is still to be counted after a step. -/
theorem wrong_update {k : ι} {r : OtpCode} (hk : φ k = .wrong r) (hi : ∀ r', φ i = .wrong r' → r'.id ≠ r.id) :
    Function.update φ i ψ k = .wrong r := by
  have hki : k ≠ i := by
    rintro rfl
    exact hi r hk rfl
  rw [Function.update_of_ne hki]
  exact hk

/-- A step that takes no note of a wrong guess at the code leaves those that were made. -/
theorem Counted.covers_update {l : Finset ι} (h : Counted id φ s l)
    (hψ : .auth (.guessed id) ∈ ψ.took → .auth (.guessed id) ∈ (φ i).took) :
    ∀ j, .auth (.guessed id) ∈ (Function.update φ i ψ j).took → j ∈ l := by
  intro j hj
  by_cases hji : j = i
  · subst j
    rw [Function.update_self] at hj
    exact h.covers i (hψ hj)
  · rw [Function.update_of_ne hji] at hj
    exact h.covers j hj

theorem Step.counted {l : Finset ι} (h : Step g s (φ i) ψ s') (hcurrent : Current φ s) (hapart : Apart φ)
    (hup : ∀ r, φ i = .wrong r → g.down = false) (hl : Counted id φ s l) :
    ∃ l, Counted id (Function.update φ i ψ) s' l := by
  generalize hφ : φ i = before at h
  have htook : before.took = (φ i).took := by rw [hφ]
  -- The store is unchanged, and no wrong guess comes or goes.
  have quiet (hψ : .auth (.guessed id) ∈ ψ.took → .auth (.guessed id) ∈ (φ i).took)
      (hi : ∀ r, φ i ≠ .wrong r) : Counted id (Function.update φ i ψ) s l := by
    refine ⟨hl.covers_update hψ, hl.few, fun r hr hid => ?_⟩
    rcases hl.attempts r hr hid with hle | ⟨hle, k, hk⟩
    · exact .inl hle
    · exact .inr ⟨hle, k, wrong_update hk fun r' hr' => absurd hr' (hi r')⟩
  cases h with
  | find => exact ⟨l, quiet (by simp [Guess.took, verifying]) (by simp [hφ])⟩
  | pass | time | lose => exact ⟨l, quiet (fun h => htook ▸ h) (by simp [hφ])⟩
  | refuse hnot => exact ⟨l, quiet (fun h => htook ▸ h) (by simpa [hφ] using hnot)⟩
  | stay hdone =>
    refine ⟨l, quiet (fun h => htook ▸ h) fun r hr => ?_⟩
    rw [← hφ, hr] at hdone
    cases hdone
  | @miss record hfew =>
    obtain ⟨hmem, -⟩ := hcurrent i record (by rw [hφ]; rfl)
    by_cases hid : record.id = id
    · have hcount : l.card ≤ record.attempts := by
        rcases hl.attempts record hmem hid with hle | ⟨-, k, hk⟩
        · exact hle
        · have hki := hapart k i record record (by rw [hk]; rfl) (by rw [hφ]; rfl) rfl
          rw [hki, hφ] at hk
          cases hk
      have hcard := Finset.card_insert_le i l
      refine ⟨insert i l, fun j hj => ?_, by omega, fun r hr hrid => .inr ⟨?_, i, ?_⟩⟩
      · by_cases hji : j = i
        · exact Finset.mem_insert.mpr (.inl hji)
        · rw [Function.update_of_ne hji] at hj
          exact Finset.mem_insert_of_mem (hl.covers j hj)
      · obtain rfl : r = record := Table.eq_of_clash hr hmem (by simp [Indexed.clash, hrid, hid])
        omega
      · obtain rfl : r = record := Table.eq_of_clash hr hmem (by simp [Indexed.clash, hrid, hid])
        exact Function.update_self ..
    · refine ⟨l, quiet (fun h => ?_) (by simp [hφ])⟩
      rcases List.mem_cons.mp h with hnote | hnote
      · simp only [Note.auth.injEq, AuthNote.guessed.injEq] at hnote
        exact absurd hnote.symm hid
      · exact htook ▸ hnote
  | @consume record consumedAt _ hrows =>
    refine ⟨l, hl.covers_update (fun h => htook ▸ h), hl.few, fun r hr hid => ?_⟩
    rw [hrows] at hr
    obtain ⟨r₀, hr₀, rfl⟩ := List.mem_map.mp hr
    by_cases hmine : r₀.id = record.id
    · have hid₀ : r₀.id = id := by simpa [hmine] using hid
      rcases hl.attempts r₀ hr₀ hid₀ with hle | ⟨-, k, hk⟩
      · left
        simpa [hmine] using hle
      · have hki := hapart k i r₀ record (by rw [hk]; rfl) (by rw [hφ]; rfl) hmine
        rw [hki, hφ] at hk
        cases hk
    · rw [if_neg (by simpa using hmine)] at hid ⊢
      rcases hl.attempts r₀ hr₀ hid with hle | ⟨hle, k, hk⟩
      · exact .inl hle
      · exact .inr ⟨hle, k, wrong_update hk (by simp [hφ])⟩
  | @count record _ hrows =>
    refine ⟨l, hl.covers_update (fun h => htook ▸ h), hl.few, fun r hr hid => ?_⟩
    rw [hrows] at hr
    obtain ⟨r₀, hr₀, rfl⟩ := List.mem_map.mp hr
    by_cases hmine : r₀.id = record.id
    · have hid₀ : r₀.id = id := by simpa [hmine] using hid
      left
      rw [if_pos (by simpa using hmine)]
      rcases hl.attempts r₀ hr₀ hid₀ with hle | ⟨hle, -⟩
      · exact Nat.le_succ_of_le hle
      · exact hle
    · rw [if_neg (by simpa using hmine)] at hid ⊢
      rcases hl.attempts r₀ hr₀ hid with hle | ⟨hle, k, hk⟩
      · exact .inl hle
      · refine .inr ⟨hle, k, wrong_update hk fun r' hr' => ?_⟩
        obtain rfl : record = r' := by simpa [hφ] using hr'
        exact fun hsame => hmine hsame.symm
  | @drop record e hwhy =>
    -- The update cannot fail: the database answers, and the code is there.
    rcases hwhy with hdown | hgone
    · rw [hup record hφ] at hdown
      cases hdown
    · obtain ⟨hmem, -⟩ := hcurrent i record (by rw [hφ]; rfl)
      exact absurd rfl (hgone record hmem)

end many
end Guess

section runs
variable {ι : Type} [DecidableEq ι] {allowed : Config ι Env Store Err Note Bool → ι → Env → Prop}
  {c : Config ι Env Store Err Note Bool} {trail : List (Config ι Env Store Err Note Bool)}
  {phone : String} {purpose : OtpPurpose} {code : ι → String} {s₀ : Store}

open Guess in
/-- When no two verifications are at work on one code, what they know about the codes is so. -/
theorem guesses_kept (hlone : ∀ {c i g}, allowed c i g → ¬ c.Meets i g)
    (hup : ∀ {c i g id}, allowed c i g → .auth (.guessed id) ∈ (c.thread i).notes → g.down = false) (id : Id)
    (hpath : Path allowed (.start (fun i => OtpService.verifyOtp phone purpose (code i)) s₀) c trail) :
    ∃ φ, c = Script.config (fun i => script phone purpose (code i)) φ c.store ∧
      (Current φ c.store ∧ Once φ c.store ∧ ∃ l, Counted id φ c.store l) ∧
      ∀ i x, Held (c :: trail) i x → x ∈ (φ i).took := by
  refine Script.invariant (fun _ => .looking) (S := fun i => script phone purpose (code i))
    (I := fun φ s => Current φ s ∧ Once φ s ∧ ∃ l, Counted id φ s l) ?_ ?_ hpath
  · refine ⟨by simp [Current, Guess.current], by simp [Once], ∅, ?_⟩
    exact ⟨by simp [Guess.took], by simp, fun r _ _ => .inl (by simp)⟩
  · intro φ s trail i g hpath ⟨hcurrent, honce, l, hl⟩ ha
    obtain ⟨past, hrun⟩ := hpath.run
    have hapart : Apart φ := by
      intro j k r r' hj hk hid
      obtain ⟨hjres, hjnote⟩ := current_thread phone purpose (code j) hj
      obtain ⟨hkres, hknote⟩ := current_thread phone purpose (code k) hk
      exact Run.apart (fun _ => rfl) hlone hrun hjres hkres hjnote (hid ▸ hknote)
    have hstep := next_step phone purpose (code i) g s (φ i)
    refine ⟨hstep.current_mem hcurrent hapart, hstep.once hcurrent honce, hstep.counted hcurrent hapart ?_ hl⟩
    intro r hr
    refine hup ha (?_ : Note.auth (.guessed r.id) ∈ _)
    have hnotes : ((Script.config (fun i => script phone purpose (code i)) φ s).thread i).notes = guessed r := by
      change (thread phone purpose (code i) (φ i)).notes = guessed r
      rw [hr]
      rfl
    rw [hnotes]
    exact List.mem_cons_self

open Guess in
/-- As long as no verification finds a code on which another one is still at work, and every failed
attempt is counted, at most `MAX_VERIFY_ATTEMPTS` wrong guesses are compared with a code, and at
most one verification accepts it. -/
theorem guesses_bounded (hlone : ∀ {c i g}, allowed c i g → ¬ c.Meets i g)
    (hup : ∀ {c i g id}, allowed c i g → .auth (.guessed id) ∈ (c.thread i).notes → g.down = false)
    (hpath : Path allowed (.start (fun i => OtpService.verifyOtp phone purpose (code i)) s₀) c trail) (id : Id) :
    {i | Held (c :: trail) i (.auth (.guessed id))}.encard ≤ maxVerifyAttempts ∧
      ∀ i j, (c.thread i).result = some (.ok true) → (c.thread j).result = some (.ok true) →
        Held (c :: trail) i (.auth (.verifying id)) → Held (c :: trail) j (.auth (.verifying id)) → i = j := by
  obtain ⟨φ, hc, ⟨-, ⟨-, hone⟩, l, hl⟩, htook⟩ := guesses_kept hlone hup id hpath
  have haccepted {i : ι} (hi : (c.thread i).result = some (.ok true))
      (hheld : Held (c :: trail) i (.auth (.verifying id))) : ∃ r, φ i = .accepted r ∧ r.id = id := by
    rw [hc] at hi
    have htaken := htook i _ hheld
    exact accepted_of_result hi htaken
  constructor
  · have hsub : {i | Held (c :: trail) i (.auth (.guessed id))} ⊆ (l : Set ι) := fun i hi =>
      hl.covers i (htook i _ hi)
    calc {i | Held (c :: trail) i (.auth (.guessed id))}.encard
        ≤ (l : Set ι).encard := Set.encard_le_encard hsub
      _ = l.card := Set.encard_coe_eq_coe_finsetCard l
      _ ≤ maxVerifyAttempts := by exact_mod_cast hl.few
  · intro i j hi hj hheld hheld'
    obtain ⟨r, hr, hid⟩ := haccepted hi hheld
    obtain ⟨r', hr', hid'⟩ := haccepted hj hheld'
    exact hone i j r r' hr hr' (hid.trans hid'.symm)

end runs

/-- A code that was sent. -/
def sent : Store where
  otpCode := .single { id := 1, userId := none, phone := "09120000000", codeHash := sha256Hash "123456",
                       purpose := .login, expiresAt := otpTtl, createdAt := 0 }

/-- A wrong guess, and after it the right one. -/
theorem guesses_bounded_sent : ∃ (c : Config Bool Env Store Err Note Bool) (trail : List (Config Bool Env Store Err Note Bool)),
    Path (fun c i g => ¬ c.Meets i g ∧ g.down = false) (.start (fun right : Bool => OtpService.verifyOtp
      "09120000000" .login (if right then "123456" else "000000")) sent) c trail ∧
    (c.thread false).result = some (.ok false) ∧ (c.thread true).result = some (.ok true) ∧
    {i | Held (c :: trail) i (.auth (.guessed 1))}.encard ≤ maxVerifyAttempts := by
  let c₀ : Config Bool Env Store Err Note Bool := .start (fun right : Bool => OtpService.verifyOtp
    "09120000000" .login (if right then "123456" else "000000")) sent
  have hadmits : c₀.Admits (fun c i g => ¬ c.Meets i g ∧ g.down = false)
      (List.replicate 3 (false, .after 1) ++ List.replicate 4 (true, .after 1)) := by decide +kernel
  have hpath := Path.follow .refl hadmits
  refine ⟨_, _, hpath, by decide +kernel, by decide +kernel, ?_⟩
  exact (guesses_bounded (fun h => h.1) (fun h _ => h.2) hpath 1).1

/-- Six wrong guesses are compared when all look the code up before any is counted, and two calls
accept one code when both look it up before either consumes it. -/
theorem guesses_unbounded :
    (∃ (c : Config (Fin 6) Env Store Err Note Bool) (trail : List (Config (Fin 6) Env Store Err Note Bool)),
      Path (fun _ _ _ => True) (.start (fun _ : Fin 6 => OtpService.verifyOtp "09120000000" .login "000000")
        sent) c trail ∧
      ¬ {i | Held (c :: trail) i (.auth (.guessed 1))}.encard ≤ maxVerifyAttempts) ∧
    ∃ (c : Config Bool Env Store Err Note Bool) (trail : List (Config Bool Env Store Err Note Bool)),
      Path (fun _ _ _ => True) (.start (fun _ : Bool => OtpService.verifyOtp "09120000000" .login "123456")
        sent) c trail ∧
      ∀ i, Held (c :: trail) i (.auth (.verifying 1)) ∧ (c.thread i).result = some (.ok true) := by
  constructor
  · let c₀ : Config (Fin 6) Env Store Err Note Bool :=
      .start (fun _ => OtpService.verifyOtp "09120000000" .login "000000") sent
    let schedule : List (Fin 6 × Env) := (List.finRange 6).flatMap fun i => List.replicate 2 (i, .after 1)
    have hpath := Path.follow .refl (c₀.admits_all schedule)
    have hheld : ∀ i, .auth (.guessed 1) ∈ ((c₀.follow schedule).thread i).notes := by decide +kernel
    refine ⟨_, _, hpath, ?_⟩
    have hall : {i | Held (c₀.follow schedule :: c₀.visits [] schedule) i (.auth (.guessed 1))} = Set.univ :=
      Set.eq_univ_of_forall fun i => ⟨_, List.mem_cons_self, hheld i⟩
    rw [hall, Set.encard_univ, ENat.card_eq_coe_fintype_card]
    decide +kernel
  · let c₀ : Config Bool Env Store Err Note Bool :=
      .start (fun _ => OtpService.verifyOtp "09120000000" .login "123456") sent
    let schedule : List (Bool × Env) := [(true, .after 1), (false, .after 1)] ++
      List.replicate 3 (true, .after 1) ++ List.replicate 3 (false, .after 1)
    have hpath := Path.follow .refl (c₀.admits_all schedule)
    exact ⟨_, _, hpath, by decide +kernel⟩

end BookingPlatform
