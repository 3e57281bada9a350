import Mathlib.Algebra.BigOperators.Group.List.Basic
import Mathlib.Data.List.Pairwise
import Mathlib.Algebra.Group.Basic
import Mathlib.Tactic.Abel

/-! Tables that carry the uniqueness of their indexes. -/
namespace Data

/-- The unique indexes of a type of rows: `clash` when two rows agree on one of them. -/
class Indexed (R : Type) where
  clash : R → R → Bool
  symm : ∀ r r', clash r r' = clash r' r
  self : ∀ r, clash r r = true

namespace Indexed
variable {R K : Type} [DecidableEq K]

@[reducible] def ofKey (key : R → K) : Indexed R where
  clash r r' := key r == key r'
  symm r r' := by simp [eq_comm]
  self r := by simp

/-- Two sets of unique indexes. -/
@[reducible] def or (i j : Indexed R) : Indexed R where
  clash r r' := i.clash r r' || j.clash r r'
  symm r r' := by rw [i.symm, j.symm]
  self r := by simp [i.self]

/-- One more unique index, on a nullable column: `null` clashes with nothing. -/
@[reducible] def orNullable (i : Indexed R) (key : R → Option K) : Indexed R where
  clash r r' := i.clash r r' || ((key r).isSome && key r == key r')
  symm r r' := by
    have hi := i.symm r r'
    by_cases h : key r = key r'
    · rw [hi, h]
    · have h' : ¬ key r' = key r := fun he => h he.symm
      simp only [hi, beq_false_of_ne h, beq_false_of_ne h', Bool.and_false]
  self r := by rw [i.self, Bool.true_or]

end Indexed

/-- Rows in insertion order, no two of which share a unique index. -/
structure Table (R : Type) [Indexed R] where
  rows : List R
  unique : rows.Pairwise fun r r' => Indexed.clash r r' = false

namespace Table
variable {R : Type} [Indexed R] {t t' : Table R} {r r' : R} {p : R → Bool} {f : R → R}

@[ext] theorem ext (h : t.rows = t'.rows) : t = t' := by
  cases t
  cases t'
  cases h
  rfl

def empty : Table R := ⟨[], .nil⟩

def single (r : R) : Table R := ⟨[r], List.pairwise_singleton _ _⟩

instance : Inhabited (Table R) := ⟨empty⟩

theorem eq_of_clash (hr : r ∈ t.rows) (hr' : r' ∈ t.rows) (h : Indexed.clash r r' = true) :
    r = r' := by
  by_contra hne
  have hsymm : Std.Symm fun a b : R => Indexed.clash a b = false :=
    ⟨fun a b hab => by rw [Indexed.symm]; exact hab⟩
  have := t.unique.forall hr hr' hne
  simp [h] at this

/-- A row that shares an index with no row of the table is put at the end. -/
def insert (t : Table R) (r : R) : Option (Table R) :=
  if h : ∀ r' ∈ t.rows, Indexed.clash r' r = false then
    some ⟨t.rows ++ [r], List.pairwise_append.mpr
      ⟨t.unique, List.pairwise_singleton _ _, fun a ha b hb => by
        rw [List.mem_singleton.mp hb]
        exact h a ha⟩⟩
  else none

theorem insert_rows (h : t.insert r = some t') : t'.rows = t.rows ++ [r] := by
  unfold insert at h
  split at h
  · obtain rfl := Option.some.inj h
    rfl
  · simp at h

theorem mem_insert (h : t.insert r = some t') : r' ∈ t'.rows ↔ r' ∈ t.rows ∨ r' = r := by
  rw [insert_rows h, List.mem_append, List.mem_singleton]

theorem insert_fresh (h : t.insert r = some t') : ∀ r' ∈ t.rows, Indexed.clash r' r = false := by
  unfold insert at h
  split at h
  · assumption
  · simp at h

theorem insert_of_fresh (h : ∀ r' ∈ t.rows, Indexed.clash r' r = false) :
    ∃ t', t.insert r = some t' := by
  unfold insert
  rw [dif_pos h]
  exact ⟨_, rfl⟩

/-- An update that writes no column of a unique index. -/
def Keeps (f : R → R) : Prop :=
  ∀ r r', Indexed.clash (f r) r' = Indexed.clash r r'

theorem Keeps.both (hf : Keeps f) (r r' : R) :
    Indexed.clash (f r) (f r') = Indexed.clash r r' := by
  rw [hf, Indexed.symm, hf, Indexed.symm]

def update (t : Table R) (p : R → Bool) (f : R → R) (hf : Keeps f) : Table R where
  rows := t.rows.map fun r => if p r then f r else r
  unique := by
    refine List.pairwise_map.mpr (t.unique.imp fun {a b} h => ?_)
    by_cases ha : p a <;> by_cases hb : p b <;> simp only [ha, hb, if_true]
    · rwa [hf.both]
    · rwa [hf]
    · rwa [Indexed.symm, hf, Indexed.symm]
    · exact h

@[simp] theorem update_rows (hf : Keeps f) :
    (t.update p f hf).rows = t.rows.map fun r => if p r then f r else r := rfl

theorem mem_update (hf : Keeps f) :
    r ∈ (t.update p f hf).rows ↔ ∃ r' ∈ t.rows, (if p r' then f r' else r') = r := by
  simp

/-- An update that may write columns of unique indexes: it is refused when a row would share
one with another row. -/
def rewrite (t : Table R) (p : R → Bool) (f : R → R) : Option (Table R) :=
  if h : (t.rows.map fun r => if p r then f r else r).Pairwise fun r r' => Indexed.clash r r' = false then
    some ⟨_, h⟩
  else none

theorem rewrite_rows (h : t.rewrite p f = some t') :
    t'.rows = t.rows.map fun r => if p r then f r else r := by
  unfold rewrite at h
  split at h
  · obtain rfl := Option.some.inj h
    rfl
  · simp at h

def delete (t : Table R) (p : R → Bool) : Table R where
  rows := t.rows.filter fun r => !p r
  unique := t.unique.sublist List.filter_sublist

@[simp] theorem delete_rows : (t.delete p).rows = t.rows.filter fun r => !p r := rfl

theorem mem_delete : r ∈ (t.delete p).rows ↔ r ∈ t.rows ∧ p r = false := by simp

/-! ### Selections -/

section only
variable {mine : R → Bool}

/-- The rows of one kind. -/
def only (t : Table R) (mine : R → Bool) : List R := t.rows.filter mine

theorem mem_only : r ∈ t.only mine ↔ r ∈ t.rows ∧ mine r = true := List.mem_filter

theorem only_insert (h : t.insert r = some t') (hr : mine r = false) : t'.only mine = t.only mine := by
  simp [only, insert_rows h, hr]

omit [Indexed R] in
/-- Rows of other kinds that are rewritten stay of other kinds. -/
theorem only_map {l : List R} (h : ∀ r ∈ l, p r = true → mine r = false ∧ mine (f r) = false) :
    (l.map fun r => if p r then f r else r).filter mine = l.filter mine := by
  induction l with
  | nil => rfl
  | cons r rest ih =>
    have hrest := ih fun r' hr' => h r' (List.mem_cons_of_mem _ hr')
    by_cases hp : p r = true
    · obtain ⟨hr, hfr⟩ := h r List.mem_cons_self hp
      simp [hp, hr, hfr, hrest]
    · simp [hp, List.filter_cons, hrest]

theorem only_update (hf : Keeps f)
    (h : ∀ r ∈ t.rows, p r = true → mine r = false ∧ mine (f r) = false) :
    (t.update p f hf).only mine = t.only mine :=
  only_map h

theorem only_rewrite (ht : t.rewrite p f = some t')
    (h : ∀ r ∈ t.rows, p r = true → mine r = false ∧ mine (f r) = false) :
    t'.only mine = t.only mine := by
  rw [only, rewrite_rows ht]
  exact only_map h

theorem only_delete (h : ∀ r ∈ t.rows, p r = true → mine r = false) :
    (t.delete p).only mine = t.only mine := by
  rw [only, delete_rows, List.filter_filter]
  refine List.filter_congr fun r hr => ?_
  by_cases hp : p r = true
  · simp [h r hr hp]
  · simp [hp]

end only

/-! ### Totals -/

section total
variable {A : Type} [AddCommMonoid A] {g : R → A}

def total (t : Table R) (g : R → A) : A := (t.rows.map g).sum

theorem total_insert (h : t.insert r = some t') : t'.total g = t.total g + g r := by
  simp [total, insert_rows h]

/-- Writes that leave `g` alone leave its total alone. -/
theorem total_update_same (hf : Keeps f) (h : ∀ r, g (f r) = g r) :
    (t.update p f hf).total g = t.total g := by
  unfold total
  rw [update_rows, List.map_map]
  congr 1
  refine List.map_congr_left fun r _ => ?_
  by_cases hp : p r <;> simp [hp, h]

/-- The total when the one row that `p` selects is rewritten. -/
theorem total_update (hf : Keeps f) (g : R → A) (hr : r ∈ t.rows) (hp : p r = true)
    (honly : ∀ r' ∈ t.rows, p r' = true → r' = r) :
    (t.update p f hf).total g + g r = t.total g + g (f r) := by
  unfold total
  obtain ⟨l, l', hl⟩ := List.append_of_mem hr
  have hnot : ∀ r' ∈ l ++ l', p r' = false := by
    intro r' hr'
    by_contra hpr'
    have hmem : r' ∈ t.rows := by
      rw [hl]
      rcases List.mem_append.mp hr' with h | h <;> simp [h]
    obtain rfl := honly r' hmem (by simpa using hpr')
    have hu := t.unique
    rw [hl, List.pairwise_append, List.pairwise_cons] at hu
    rcases List.mem_append.mp hr' with h | h
    · have := hu.2.2 r' h r' (by simp)
      simp [Indexed.self] at this
    · have := hu.2.1.1 r' h
      simp [Indexed.self] at this
  have hmap : ∀ k : List R, (∀ r' ∈ k, p r' = false) →
      k.map (fun r => if p r then f r else r) = k := by
    intro k hk
    conv_rhs => rw [← List.map_id k]
    exact List.map_congr_left fun r' hr' => by simp [hk r' hr']
  rw [update_rows, hl, List.map_append, List.map_cons,
    hmap l fun r' h => hnot r' (by simp [h]), hmap l' fun r' h => hnot r' (by simp [h])]
  simp only [hp, if_true, List.map_append, List.map_cons, List.sum_append, List.sum_cons]
  abel

end total
end Table
end Data
