import Mathlib.Logic.Basic

/-! Request handlers as trees of awaited calls, with transactions and `try`/`finally`. -/
namespace Async

/-- A handler over the shared store `σ`. A call receives from the world a `γ` (its clock
reading, its fresh identifier, whether it fails), throws `ε` or changes the store, and
continues with what it read. A `commit` does the same as the last call of a transaction, or
as a transaction of its own. `note` is not a step: it records a local constant `ν`. -/
inductive Prog (γ σ ε ν α : Type) where
  | done (result : Except ε α)
  | note (x : ν) (next : Prog γ σ ε ν α)
  | call (f : γ → σ → Except ε σ) (next : γ → σ → Prog γ σ ε ν α) (fail : ε → Prog γ σ ε ν α)
  | begin (next : Prog γ σ ε ν α)
  | commit (f : γ → σ → Except ε σ) (next : γ → σ → Prog γ σ ε ν α) (fail : ε → Prog γ σ ε ν α)
  | rollback (next : Prog γ σ ε ν α)

namespace Prog
variable {γ σ ε ν α β δ : Type}

/-- Sequencing that sees both outcomes of the first program. -/
@[simp] def andThen : Prog γ σ ε ν α → (Except ε α → Prog γ σ ε ν β) → Prog γ σ ε ν β
  | done r, k => k r
  | note x p, k => note x (p.andThen k)
  | call f p h, k => call f (fun g s => (p g s).andThen k) (fun e => (h e).andThen k)
  | begin p, k => begin (p.andThen k)
  | commit f p h, k => commit f (fun g s => (p g s).andThen k) (fun e => (h e).andThen k)
  | rollback p, k => rollback (p.andThen k)

/-- An error skips the rest of the handler. -/
def onOk (f : α → Prog γ σ ε ν β) : Except ε α → Prog γ σ ε ν β
  | .ok a => f a
  | .error e => done (.error e)

instance : Monad (Prog γ σ ε ν) where
  pure a := done (.ok a)
  bind p f := p.andThen (onOk f)

instance : MonadExceptOf ε (Prog γ σ ε ν) where
  throw e := done (.error e)
  tryCatch p h := p.andThen fun
    | .ok a => done (.ok a)
    | .error e => h e

/-- One awaited call: atomic, and without effect when it throws. -/
def op (f : γ → σ → Except ε (α × σ)) : Prog γ σ ε ν α :=
  call (fun g s => (f g s).map Prod.snd) (fun g s => done ((f g s).map Prod.fst))
    (fun e => done (.error e))

/-- One awaited call that is a transaction of its own. -/
def single (f : γ → σ → Except ε (α × σ)) : Prog γ σ ε ν α :=
  commit (fun g s => (f g s).map Prod.snd) (fun g s => done ((f g s).map Prod.fst))
    (fun e => done (.error e))

/-- Record a local constant. -/
def mark (x : ν) : Prog γ σ ε ν Unit := note x (done (.ok ()))

/-- How a transaction ends: it commits its writes, or a throw rolls them back. -/
def close (f : γ → σ → Except ε σ) : Except ε α → Prog γ σ ε ν α
  | .ok a => commit f (fun _ _ => done (.ok a)) (fun e => done (.error e))
  | .error e => rollback (done (.error e))

/-- Run the body as one transaction; `f` is the commit itself, which may fail. -/
def transaction (f : γ → σ → Except ε σ) (body : Prog γ σ ε ν α) : Prog γ σ ε ν α :=
  begin (body.andThen (close f))

/-- `try { p } finally { r }`. -/
def finally_ (p : Prog γ σ ε ν α) (r : Prog γ σ ε ν Unit) : Prog γ σ ε ν α :=
  p.andThen fun res => r.andThen (onOk fun _ => done res)

/-- `if (!c) throw e`. -/
def ensure (c : Prop) [Decidable c] (e : ε) : Prog γ σ ε ν Unit :=
  if c then done (.ok ()) else done (.error e)

def orThrow (o : Option α) (e : ε) : Prog γ σ ε ν α :=
  match o with
  | some a => done (.ok a)
  | none => done (.error e)

@[simp] theorem pure_eq (a : α) : (pure a : Prog γ σ ε ν α) = done (.ok a) := rfl

@[simp] theorem throw_eq (e : ε) : (throw e : Prog γ σ ε ν α) = done (.error e) := rfl

theorem bind_eq (p : Prog γ σ ε ν α) (f : α → Prog γ σ ε ν β) :
    p >>= f = p.andThen (onOk f) := rfl

theorem andThen_andThen (p : Prog γ σ ε ν α) (k : Except ε α → Prog γ σ ε ν β)
    (l : Except ε β → Prog γ σ ε ν δ) :
    (p.andThen k).andThen l = p.andThen fun r => (k r).andThen l := by
  induction p with
  | done r => rfl
  | note x p ih => simp only [andThen, ih]
  | call f p h ihp ihh => simp only [andThen, ihp, ihh]
  | begin p ih => simp only [andThen, ih]
  | commit f p h ihp ihh => simp only [andThen, ihp, ihh]
  | rollback p ih => simp only [andThen, ih]

theorem bind_assoc (p : Prog γ σ ε ν α) (f : α → Prog γ σ ε ν β) (h : β → Prog γ σ ε ν δ) :
    (p >>= f) >>= h = p >>= fun a => f a >>= h := by
  rw [bind_eq, bind_eq, andThen_andThen, bind_eq]
  congr 1
  funext r
  cases r <;> rfl

end Prog
end Async
