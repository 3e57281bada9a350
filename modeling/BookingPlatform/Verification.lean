import BookingPlatform.Payments
import BookingPlatform.Wallets

/-! The gateway verifies a reference once: who may finish a payment. -/
namespace BookingPlatform
open Async Data

section
variable {c c' : Core} {ns : List Note}

/-- The sessions belong to the gateway: no commit writes them. -/
theorem Change.session (h : Change ns c c') : c'.session = c.session := by
  cases h <;> rfl

/-- A reference that is verified once is never verified again. -/
theorem verified_licence {ι : Type} {r : ι → Request} (ref : Id) :
    Licence (fun i => contract (r i).takes) (fun x => ∃ id, x = .finalising id ref)
      (fun s => Used s.session ref) where
  taken := by
    rintro i held x s s' ⟨id, rfl⟩ ⟨-, ⟨p, -, -, -, q, hq, hid, hunused, -⟩, hused, -⟩
    refine ⟨?_, hused⟩
    rintro ⟨q', hq', hid', hused'⟩
    obtain rfl : q = q' := Table.eq_of_clash hq hq' (by simp [Indexed.clash, hid, hid'])
    simp [hunused] at hused'
  auto := by
    intro i ns s s' h hused
    exact Asked.used h hused
  commit := by
    intro i ns s s' h hused
    have hsession : s'.session = s.session := Change.session h
    rw [hsession]
    exact hused

/-- Two notes that the same reference was verified. -/
def Note.sameRef : Note → Note → Prop
  | .finalising _ ref, .finalising _ ref' => ref = ref'
  | _, _ => False

variable {ι : Type} [DecidableEq ι] {r : ι → Request}
  {allowed : Config ι Env Store Err Note Unit → ι → Env → Prop} {s₀ : Store}
  {conf : Config ι Env Store Err Note Unit} {past : List (ι × Store)}

/-- No two requests hold the same reference verified. -/
theorem Run.not_sameRef (hrun : Run allowed (.start (fun i => (r i).serve) s₀) conf past)
    {i j : ι} (hij : j ≠ i) {x y : Note} (hx : x ∈ (conf.thread j).notes)
    (hy : y ∈ (conf.thread i).notes) : ¬ x.sameRef y := by
  intro h
  cases x with
  | finalising id ref =>
    cases y with
    | finalising id' ref' =>
      obtain rfl : ref = ref' := h
      have hone := (Run.licence (Request.concurrent r) (verified_licence (r := r) ref) hrun).2
      exact hij (hone j i _ _ ⟨id, rfl⟩ ⟨id', rfl⟩ hx hy)
    | _ => exact h
  | _ => exact h

end
end BookingPlatform
