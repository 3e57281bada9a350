import BookingPlatform.Store
import BookingPlatform.Async.Frame
import BookingPlatform.Async.Phases
import BookingPlatform.Async.Play
import Mathlib.Data.List.Induction

/-! The Prisma client. `query` and `tx` are calls, in or out of an interactive transaction;
`prisma` is a write on the client itself, which is a transaction of its own. -/
namespace BookingPlatform
open Async Data

/-- A JavaScript value that is absent, `null` or the empty text is falsy. -/
def truthyId (o : Option Id) : Option Id := o.filter fun i => i ≠ 0

theorem truthyId_eq_some {o : Option Id} {id : Id} :
    truthyId o = some id ↔ o = some id ∧ id ≠ 0 := by
  simp [truthyId, Option.filter_eq_some_iff]

abbrev Query (α : Type) := Env → Store → α
abbrev Stmt (α : Type) := Env → Store → Except Err (α × Store)

/-- A call that the database may refuse. -/
def attempt {α : Type} (q : Stmt α) : Stmt α := fun g s =>
  if g.down then .error .unavailable else q g s

def query {α : Type} (q : Query α) : Task α := Prog.op (attempt fun g s => .ok (q g s, s))

def tx {α : Type} (q : Stmt α) : Task α := Prog.op (attempt q)

def prisma {α : Type} (q : Stmt α) : Task α := Prog.single (attempt q)

/-- `prisma.$transaction(async (tx) => ...)`. -/
def transaction {α : Type} (body : Task α) : Task α :=
  Prog.transaction (fun g s => if g.down then .error .unavailable else .ok s) body

/-- A step that reads the world and cannot fail. -/
def look {α : Type} (q : Env → α) : Task α := Prog.op fun g s => .ok (q g, s)

/-- `new Date()`, as a step of its own. -/
def clock : Task Time := look Env.now

def randomUUID : Task Id := look fun g => g.newId 0

section operations
variable {R : Type} [Model R]

/-- An unordered `findFirst` may return any matching row. -/
def findFirst (p : R → Bool) : Query (Option R) := fun g s =>
  let found := (Model.get s).rows.filter p
  found[g.pick % found.length]?

def findUnique (p : R → Bool) : Query (Option R) := fun _ s => (Model.get s).rows.find? p

def findMany (p : R → Bool) : Query (List R) := fun g s => g.arrange ((Model.get s).rows.filter p)

/-- `findFirst` with `orderBy: { createdAt: 'desc' }`. -/
def findLatest (p : R → Bool) (createdAt : R → Time) : Query (Option R) := fun _ s =>
  ((Model.get s).rows.filter p).foldl (fun best r =>
    match best with
    | some b => if createdAt b ≤ createdAt r then some r else some b
    | none => some r) none

/-- Adds a row. -/
def put (r : R) : Store → Except Err Store := fun s =>
  if Model.refs s r then
    match (Model.get s).insert r with
    | some t => .ok (Model.set s t)
    | none => .error .uniqueViolation
  else .error .foreignKey

def create (row : Id → R) : Stmt R := fun g s =>
  (put (row (g.newId 0)) s).map fun s' => (row (g.newId 0), s')

/-- Adds the rows in order, each with the next fresh identifier. -/
def putAll (g : Env) : ℕ → List (Id → R) → Store → Except Err Store
  | _, [], s => .ok s
  | k, row :: rest, s => (put (row (g.newId k)) s).bind (putAll g (k + 1) rest)

/-- `create` of a row with `createdAt: now()`. -/
def createAt (row : Time → Id → R) : Stmt R := fun g s => create (row g.now) g s

def createMany (rows : List (Id → R)) : Stmt ℕ := fun g s =>
  (putAll g 0 rows s).map fun s' => (rows.length, s')

def update (p : R → Bool) (f : R → R) (hf : Table.Keeps f := by intro _ _; rfl) : Stmt R :=
  fun _ s =>
    match (Model.get s).rows.find? p with
    | some r => .ok (f r, Model.set s ((Model.get s).update p f hf))
    | none => .error .recordNotFound

def updateMany (p : R → Bool) (f : R → R) (hf : Table.Keeps f := by intro _ _; rfl) : Stmt ℕ :=
  fun _ s => .ok (((Model.get s).rows.filter p).length,
    Model.set s ((Model.get s).update p f hf))

/-- An update that may write columns of unique indexes. -/
def updateUnique (p : R → Bool) (f : R → R) : Stmt R := fun _ s =>
  match (Model.get s).rows.find? p with
  | some r =>
    match (Model.get s).rewrite p f with
    | some t => .ok (f r, Model.set s t)
    | none => .error .uniqueViolation
  | none => .error .recordNotFound

/-- `upsert` with `update: {}`. -/
def upsert (p : R → Bool) (row : Id → R) : Stmt R := fun g s =>
  match (Model.get s).rows.find? p with
  | some r => .ok (r, s)
  | none => create row g s

def delete (p : R → Bool) : Stmt R := fun _ s =>
  match (Model.get s).rows.find? p with
  | some r => .ok (r, Model.set s ((Model.get s).delete p))
  | none => .error .recordNotFound

def deleteMany (p : R → Bool) : Stmt ℕ := fun _ s =>
  .ok (((Model.get s).rows.filter p).length, Model.set s ((Model.get s).delete p))

def findUniqueOrThrow (p : R → Bool) : Task R := do
  match ← query (findUnique p) with
  | some r => return r
  | none => throw .recordNotFound

variable {p : R → Bool} {f : R → R} {row : Id → R} {g : Env} {s s' : Store} {r : R}

theorem findFirst_some (h : findFirst p g s = some r) : r ∈ (Model.get s).rows ∧ p r = true :=
  List.mem_filter.mp (List.mem_of_getElem? h)

theorem findFirst_none (h : findFirst p g s = none) :
    ∀ r ∈ (Model.get (R := R) s).rows, p r = false := by
  intro r hr
  by_contra hp
  have hmem : r ∈ (Model.get s).rows.filter p := List.mem_filter.mpr ⟨hr, by simpa using hp⟩
  have hpos := List.length_pos_of_mem hmem
  have := List.getElem?_eq_none_iff.mp h
  have := Nat.mod_lt g.pick hpos
  omega

theorem findFirst_isSome : (findFirst p g s).isSome = true ↔ ∃ r ∈ (Model.get s).rows, p r = true := by
  cases hfound : findFirst p g s with
  | none =>
    have hnone := findFirst_none hfound
    simp only [Option.isSome_none, Bool.false_eq_true, false_iff, not_exists, not_and]
    intro r hr
    simp [hnone r hr]
  | some r => exact iff_of_true rfl ⟨r, findFirst_some hfound⟩

theorem findFirst_exists (hr : r ∈ (Model.get s).rows) (hp : p r = true) (g : Env) :
    ∃ r', findFirst p g s = some r' :=
  Option.isSome_iff_exists.mp (findFirst_isSome.mpr ⟨r, hr, hp⟩)

/-- A row that is the only one of its kind is found. -/
theorem findFirst_of_unique (hr : r ∈ (Model.get s).rows) (hp : p r = true)
    (honly : ∀ r' ∈ (Model.get s).rows, p r' = true → r' = r) : findFirst p g s = some r := by
  cases hfound : findFirst p g s with
  | none => simp [findFirst_none hfound r hr] at hp
  | some r' =>
    obtain ⟨hr', hp'⟩ := findFirst_some hfound
    rw [honly r' hr' hp']

theorem mem_findMany : r ∈ findMany p g s ↔ r ∈ (Model.get s).rows ∧ p r = true :=
  Env.mem_arrange.trans List.mem_filter

theorem findUnique_some (h : findUnique p g s = some r) :
    r ∈ (Model.get s).rows ∧ p r = true :=
  ⟨List.mem_of_find?_eq_some h, List.find?_some h⟩

theorem findUnique_none (h : findUnique p g s = none) :
    ∀ r ∈ (Model.get (R := R) s).rows, p r = false := by
  intro r hr
  have := List.find?_eq_none.mp h r hr
  simpa using this

/-- A row that shares an index with all that match is found. -/
theorem findUnique_of_mem (hr : r ∈ (Model.get s).rows) (hp : p r = true)
    (hclash : ∀ r' : R, p r' = true → Indexed.clash r' r = true) : findUnique p g s = some r := by
  cases hfound : findUnique p g s with
  | none =>
    have hnone := findUnique_none hfound r hr
    rw [hp] at hnone
    contradiction
  | some r' =>
    obtain ⟨hr', hp'⟩ := findUnique_some hfound
    rw [Table.eq_of_clash hr' hr (hclash r' hp')]

omit [Model R] in
private theorem latest_spec (createdAt : R → Time) (l : List R) :
    match l.foldl (fun best r => match best with
      | some b => if createdAt b ≤ createdAt r then some r else some b
      | none => some r) none with
    | some r => r ∈ l ∧ ∀ r' ∈ l, createdAt r' ≤ createdAt r
    | none => l = [] := by
  induction l using List.reverseRecOn with
  | nil => rfl
  | append_singleton l r ih =>
    rw [List.foldl_append]
    cases hbest : l.foldl (fun best r => match best with
      | some b => if createdAt b ≤ createdAt r then some r else some b
      | none => some r) none with
    | none =>
      rw [hbest] at ih
      obtain rfl : l = [] := ih
      simp
    | some b =>
      rw [hbest] at ih
      obtain ⟨hb, hmax⟩ : b ∈ l ∧ ∀ r' ∈ l, createdAt r' ≤ createdAt b := ih
      by_cases hle : createdAt b ≤ createdAt r
      · simp only [List.foldl_cons, List.foldl_nil, if_pos hle]
        refine ⟨List.mem_append_right _ (List.mem_singleton.mpr rfl), fun r' hr' => ?_⟩
        rcases List.mem_append.mp hr' with hr' | hr'
        · exact Int.le_trans (hmax r' hr') hle
        · obtain rfl : r' = r := List.mem_singleton.mp hr'
          exact Int.le_refl _
      · simp only [List.foldl_cons, List.foldl_nil, if_neg hle]
        refine ⟨List.mem_append_left _ hb, fun r' hr' => ?_⟩
        rcases List.mem_append.mp hr' with hr' | hr'
        · exact hmax r' hr'
        · rw [List.mem_singleton.mp hr']
          exact Int.le_of_lt (Int.not_le.mp hle)

theorem findLatest_some {createdAt : R → Time} (h : findLatest p createdAt g s = some r) :
    r ∈ (Model.get s).rows ∧ p r = true := by
  have hspec := latest_spec createdAt ((Model.get s).rows.filter p)
  unfold findLatest at h
  rw [h] at hspec
  exact List.mem_filter.mp hspec.1

theorem findLatest_le {createdAt : R → Time} (h : findLatest p createdAt g s = some r) :
    ∀ r' ∈ (Model.get s).rows, p r' = true → createdAt r' ≤ createdAt r := by
  intro r' hr' hp
  have hspec := latest_spec createdAt ((Model.get s).rows.filter p)
  unfold findLatest at h
  rw [h] at hspec
  exact hspec.2 r' (List.mem_filter.mpr ⟨hr', hp⟩)

theorem findLatest_none {createdAt : R → Time} (h : findLatest p createdAt g s = none) :
    ∀ r ∈ (Model.get (R := R) s).rows, p r = false := by
  intro r hr
  have hspec := latest_spec createdAt ((Model.get s).rows.filter p)
  unfold findLatest at h
  rw [h] at hspec
  simpa using List.filter_eq_nil_iff.mp hspec r hr

/-- Among rows that are in the order of their times the latest is the last. -/
theorem findLatest_sorted {createdAt : R → Time}
    (hsorted : ((Model.get s).rows.filter p).Pairwise fun r r' => createdAt r ≤ createdAt r') :
    findLatest p createdAt g s = ((Model.get s).rows.filter p).getLast? := by
  unfold findLatest
  generalize (Model.get s).rows.filter p = l at hsorted
  induction l using List.reverseRecOn with
  | nil => rfl
  | append_singleton l r ih =>
    obtain ⟨hl, -, hlast⟩ := List.pairwise_append.mp hsorted
    rw [List.foldl_append, ih hl, List.getLast?_append]
    cases hbest : l.getLast? with
    | none => rfl
    | some b =>
      have hle := hlast b (List.mem_of_getLast? hbest) r (List.mem_singleton.mpr rfl)
      simp [hle]

theorem put_ok (h : put r s = .ok s') : Model.refs s r = true ∧
    ∃ t, (Model.get s).insert r = some t ∧ s' = Model.set s t := by
  unfold put at h
  split at h
  · rename_i hrefs
    split at h
    · rename_i t ht
      obtain rfl := Except.ok.inj h
      exact ⟨hrefs, t, ht, rfl⟩
    · simp at h
  · simp at h

theorem create_ok (h : create row g s = .ok (r, s')) :
    r = row (g.newId 0) ∧ put r s = .ok s' := by
  unfold create at h
  cases hp : put (row (g.newId 0)) s with
  | error e => simp [hp, Except.map] at h
  | ok s₁ =>
    obtain ⟨rfl, rfl⟩ := by simpa [hp, Except.map] using h
    exact ⟨rfl, hp⟩

theorem createMany_ok {rows : List (Id → R)} {n : ℕ} (h : createMany rows g s = .ok (n, s')) :
    putAll g 0 rows s = .ok s' := by
  unfold createMany at h
  cases hput : putAll g 0 rows s with
  | error e => simp [hput, Except.map] at h
  | ok s₁ =>
    obtain ⟨-, rfl⟩ := by simpa [hput, Except.map] using h
    rfl

theorem update_ok {hf : Table.Keeps f} (h : update p f hf g s = .ok (r, s')) :
    (∃ r₀ ∈ (Model.get s).rows, p r₀ = true ∧ r = f r₀) ∧
      s' = Model.set s ((Model.get s).update p f hf) := by
  unfold update at h
  split at h
  · rename_i r₀ hr₀
    obtain ⟨rfl, rfl⟩ := by simpa using h
    exact ⟨⟨r₀, List.mem_of_find?_eq_some hr₀, List.find?_some hr₀, rfl⟩, rfl⟩
  · simp at h

/-- An update of a row that shares an index with all that match. -/
theorem update_of_mem {hf : Table.Keeps f} (hr : r ∈ (Model.get s).rows) (hp : p r = true)
    (hclash : ∀ r' : R, p r' = true → Indexed.clash r' r = true) :
    update p f hf g s = .ok (f r, Model.set s ((Model.get s).update p f hf)) := by
  have hfound : (Model.get s).rows.find? p = some r := findUnique_of_mem (g := g) hr hp hclash
  simp only [update, hfound]

/-- An update is refused only when there is no such row. -/
theorem update_error {hf : Table.Keeps f} {e : Err} (h : update p f hf g s = .error e) :
    ∀ r ∈ (Model.get s).rows, p r = false := by
  intro r hr
  unfold update at h
  split at h
  · cases h
  · rename_i hnone
    simpa using List.find?_eq_none.mp hnone r hr

theorem updateUnique_ok (h : updateUnique p f g s = .ok (r, s')) :
    (∃ r₀ ∈ (Model.get s).rows, p r₀ = true ∧ r = f r₀) ∧
      ∃ t, (Model.get s).rewrite p f = some t ∧ s' = Model.set s t := by
  unfold updateUnique at h
  split at h
  · rename_i r₀ hr₀
    split at h
    · rename_i t ht
      obtain ⟨rfl, rfl⟩ := by simpa using h
      exact ⟨⟨r₀, List.mem_of_find?_eq_some hr₀, List.find?_some hr₀, rfl⟩, t, ht, rfl⟩
    · simp at h
  · simp at h

theorem upsert_ok (h : upsert p row g s = .ok (r, s')) :
    (r ∈ (Model.get s).rows ∧ p r = true ∧ s' = s) ∨
      ((∀ r ∈ (Model.get (R := R) s).rows, p r = false) ∧ r = row (g.newId 0) ∧
        put r s = .ok s') := by
  unfold upsert at h
  split at h
  · rename_i r₀ hr₀
    obtain ⟨rfl, rfl⟩ := by simpa using h
    exact .inl ⟨List.mem_of_find?_eq_some hr₀, List.find?_some hr₀, rfl⟩
  · rename_i hnone
    refine .inr ⟨fun r hr => ?_, create_ok h⟩
    have := List.find?_eq_none.mp hnone r hr
    simpa using this

theorem delete_ok (h : delete p g s = .ok (r, s')) :
    r ∈ (Model.get s).rows ∧ p r = true ∧ s' = Model.set s ((Model.get s).delete p) := by
  unfold delete at h
  split at h
  · rename_i r₀ hr₀
    obtain ⟨rfl, rfl⟩ := by simpa using h
    exact ⟨List.mem_of_find?_eq_some hr₀, List.find?_some hr₀, rfl⟩
  · simp at h

end operations

theorem attempt_ok {α : Type} {q : Stmt α} {g : Env} {s s' : Store} {a : α}
    (h : attempt q g s = .ok (a, s')) : q g s = .ok (a, s') := by
  unfold attempt at h
  split at h
  · simp at h
  · exact h

theorem attempt_up {α : Type} {q : Stmt α} {g : Env} {s s' : Store} {a : α}
    (h : attempt q g s = .ok (a, s')) : g.down = false := by
  cases hdown : g.down with
  | false => rfl
  | true => simp [attempt, hdown] at h

section accepts
variable {T : Type} [Model T] {g : Env} {s s' : Store} {row : Id → T} {r : T}

/-- The database answers, and takes the row. -/
def Insertable (g : Env) (s : Store) (row : Id → T) : Prop :=
  g.down = false ∧ Model.refs s (row (g.newId 0)) = true ∧
    ∀ r ∈ (Model.get s).rows, Indexed.clash r (row (g.newId 0)) = false

theorem attempt_create (h : Insertable g s row) : ∃ t : Table T,
    t.rows = (Model.get s).rows ++ [row (g.newId 0)] ∧
      attempt (create row) g s = .ok (row (g.newId 0), Model.set s t) := by
  obtain ⟨hup, hrefs, hfresh⟩ := h
  obtain ⟨t, ht⟩ := Table.insert_of_fresh hfresh
  exact ⟨t, Table.insert_rows ht, by simp [attempt, hup, create, put, hrefs, ht, Except.map]⟩

theorem insertable_of_create (h : attempt (create row) g s = .ok (r, s')) : Insertable g s row := by
  obtain ⟨rfl, hput⟩ := create_ok (attempt_ok h)
  obtain ⟨hrefs, t, ht, -⟩ := put_ok hput
  exact ⟨attempt_up h, hrefs, Table.insert_fresh ht⟩

theorem attempt_create_refused (h : ¬ Insertable g s row) : ∃ e, attempt (create row) g s = .error e := by
  cases hcreate : attempt (create row) g s with
  | error e => exact ⟨e, rfl⟩
  | ok a => exact absurd (insertable_of_create hcreate) h

end accepts

/-! ### Rules -/

section rules
variable {α : Type} {C : Contract Env Store Note} {Q : Post Store Err Note α}
  {ns : List Note} {s₀ s : Store} {w : Store → Except Err Store} {S : Store → Store → Prop}

theorem wp_query {q : Query α}
    (hok : ∀ g s₁, C.rely s s₁ → Q (.ok (q g s₁)) none ns s₁ s₁)
    (herr : ∀ s₁, C.rely s s₁ → Q (.error .unavailable) none ns s₁ s₁) :
    wp C Q (query q) none ns s₀ s := by
  refine wp_op fun g s₁ _ hr => ⟨fun a s₂ h => ?_, fun e h => ?_⟩
  · obtain ⟨rfl, rfl⟩ := by simpa using attempt_ok h
    exact ⟨C.read ns _, hok g _ hr⟩
  · unfold attempt at h
    split at h
    · obtain rfl := Except.error.inj h
      exact herr s₁ hr
    · simp at h

theorem wp_query_tx {q : Query α} (hw : Pending S w)
    (hok : ∀ g s₁ v, C.rely s s₁ → w s₁ = .ok v → S s₁ v → ∀ w', Pending S w' →
      w' s₁ = .ok v → Q (.ok (q g v)) (some w') ns s₁ s₁)
    (herr : ∀ e s₁, C.rely s s₁ → Q (.error e) (some w) ns s₁ s₁) :
    wp C Q (query q) (some w) ns s₀ s := by
  refine wp_op_tx hw fun g s₁ _ hr => ⟨fun v a v' hv hS h w' hw' hv' => ?_, fun e _ => herr e s₁ hr⟩
  obtain ⟨rfl, rfl⟩ := by simpa using attempt_ok h
  refine hok g s₁ v hr hv hS w' (hw'.mono ?_) hv'
  rintro s v' ⟨v, a, hv, ha⟩
  obtain ⟨-, rfl⟩ := by simpa using attempt_ok ha
  exact hv

theorem wp_tx {q : Stmt α} (hw : Pending S w)
    (hok : ∀ g s₁ v a v', C.rely s s₁ → w s₁ = .ok v → S s₁ v → q g v = .ok (a, v') → ∀ w',
      Pending (fun s v' => ∃ v a, S s v ∧ q g v = .ok (a, v')) w' → w' s₁ = .ok v' →
        Q (.ok a) (some w') ns s₁ s₁)
    (herr : ∀ e s₁, C.rely s s₁ → Q (.error e) (some w) ns s₁ s₁) :
    wp C Q (tx q) (some w) ns s₀ s := by
  refine wp_op_tx hw fun g s₁ _ hr => ⟨fun v a v' hv hS h w' hw' hv' => ?_, fun e _ => herr e s₁ hr⟩
  refine hok g s₁ v a v' hr hv hS (attempt_ok h) w' (hw'.mono ?_) hv'
  exact fun s v' ⟨v, a, hv, ha⟩ => ⟨v, a, hv, attempt_ok ha⟩

theorem wp_prisma {q : Stmt α}
    (hok : ∀ g s₁ a s₂, C.env g s₁ → C.rely s s₁ → q g s₁ = .ok (a, s₂) →
      C.commit ns s₁ s₂ ∧ Q (.ok a) none [] s₁ s₂)
    (herr : ∀ g e s₁, C.env g s₁ → C.rely s s₁ → attempt q g s₁ = .error e →
      Q (.error e) none [] s₁ s₁) :
    wp C Q (prisma q) none ns s₀ s :=
  wp_single fun g s₁ hg hr => ⟨fun a s₂ h => hok g s₁ a s₂ hg hr (attempt_ok h),
    fun e h => herr g e s₁ hg hr h⟩

theorem wp_look {q : Env → α} (h : ∀ g s₁, C.rely s s₁ → Q (.ok (q g)) none ns s₁ s₁) :
    wp C Q (look q) none ns s₀ s := by
  refine wp_op fun g s₁ _ hr => ⟨fun a s₂ ha => ?_, fun e he => by simp at he⟩
  obtain ⟨rfl, rfl⟩ := by simpa using ha
  exact ⟨C.read ns _, h g _ hr⟩

theorem wp_look_tx {q : Env → α} (hw : Pending S w)
    (hok : ∀ g s₁, C.rely s s₁ → ∀ w', Pending S w' → Q (.ok (q g)) (some w') ns s₁ s₁)
    (herr : ∀ e s₁, C.rely s s₁ → Q (.error e) (some w) ns s₁ s₁) :
    wp C Q (look q) (some w) ns s₀ s := by
  refine wp_op_tx hw fun g s₁ _ hr => ⟨fun v a v' _ _ ha w' hw' _ => ?_, fun e _ => herr e s₁ hr⟩
  obtain ⟨rfl, -⟩ := by simpa using ha
  refine hok g s₁ hr w' (hw'.mono ?_)
  rintro s v' ⟨v, a, hv, ha⟩
  obtain ⟨-, rfl⟩ := by simpa using ha
  exact hv

/-- A transaction commits what is pending when its body has ended. -/
theorem wp_transaction {body : Task α} {Q : Post Store Err Note α}
    (h : ∀ s₁, C.rely s s₁ → wp C (fun r w ns _ s =>
      match r with
      | .ok a => ∀ g s₁ s₂, C.env g s₁ → C.rely s s₁ → w.getD .ok s₁ = .ok s₂ →
          C.commit ns s₁ s₂ ∧ Q (.ok a) none [] s₁ s₂
      | .error _ => True) body (some .ok) ns s₁ s₁)
    (herr : ∀ e s₁, Q (.error e) none [] s₁ s₁) :
    wp C Q (transaction body) none ns s₀ s := by
  refine Async.wp_transaction.mpr fun s₁ hr => wp_mono ?_ (h s₁ hr)
  intro r w ns s₀ s hrw
  cases r with
  | error e => exact fun s₁ _ => herr e s₁
  | ok a =>
    refine fun g s₁ hg hr => ⟨fun v s₂ hv hs => ?_, fun e _ => herr e s₁⟩
    have : v = s₂ := by
      by_cases hd : g.down <;> simp_all
    exact hrw g s₁ s₂ hg hr (this ▸ hv)

end rules

/-! ### Steps of a request that has no transaction open -/

section steps
variable {α β : Type} {ns : List Note}

theorem step_query {q : Query α} {k : α → Task β} (g : Env) (s : Store) :
    (Thread.settle (query q >>= k) none ns).step g s =
      (Thread.settle (if g.down then Prog.done (.error .unavailable) else k (q g s)) none ns, s) := by
  rw [Prog.bind_eq, query, Thread.step_op]
  cases hdown : g.down <;> simp only [attempt, hdown, Bool.false_eq_true, if_false, if_true] <;> rfl

theorem step_look {q : Env → α} {k : α → Task β} (g : Env) (s : Store) :
    (Thread.settle (look q >>= k) none ns).step g s = (Thread.settle (k (q g)) none ns, s) :=
  Thread.step_op

theorem step_prisma {q : Stmt α} {k : α → Task β} (g : Env) (s : Store) :
    (Thread.settle (prisma q >>= k) none ns).step g s = match attempt q g s with
      | .ok (a, s') => (Thread.settle (k a) none [], s')
      | .error e => (⟨.done (.error e), none, []⟩, s) := by
  refine Thread.step_single.trans ?_
  cases attempt q g s <;> rfl

/-! ### The same for a request that is alone -/

variable {world : ℕ → Env} {k : ℕ} {v : Option Store} {s : Store}

theorem play_query_step (q : Query α) (f : α → Task β) : (query q >>= f).play world k none s =
    if (world k).down then (.error .unavailable, k + 1, none, s)
    else (f (q (world k) s)).play world (k + 1) none s := by
  rw [query, Prog.play_op_bind]
  cases hdown : (world k).down <;> simp [attempt, hdown]

theorem play_look_step (q : Env → α) (f : α → Task β) :
    (look q >>= f).play world k none s = (f (q (world k))).play world (k + 1) none s :=
  Prog.play_op_bind f

theorem play_prisma_step (q : Stmt α) (f : α → Task β) : (prisma q >>= f).play world k none s =
    match attempt q (world k) s with
      | .ok (a, s') => (f a).play world (k + 1) none s'
      | .error e => (.error e, k + 1, none, s) := by
  rw [prisma, Prog.play_single_bind]
  cases attempt q (world k) s <;> rfl

/-! ### The same for a transaction that is not refused -/

variable {k' : ℕ} {w : Option Store} {s' : Store} {b : β} {v : Store}

theorem of_play_tx {q : Stmt α} {f : α → Task β} (h : (tx q >>= f).play world k (some v) s = (.ok b, k', w, s')) :
    ∃ a v₁, q (world k) v = .ok (a, v₁) ∧ (f a).play world (k + 1) (some v₁) s = (.ok b, k', w, s') := by
  rw [tx, Prog.play_op_tx_bind] at h
  cases hq : attempt q (world k) v with
  | ok r =>
    rw [hq] at h
    exact ⟨r.1, r.2, attempt_ok hq, h⟩
  | error e => simp [hq] at h

theorem of_play_query_tx {q : Query α} {f : α → Task β}
    (h : (query q >>= f).play world k (some v) s = (.ok b, k', w, s')) :
    (f (q (world k) v)).play world (k + 1) (some v) s = (.ok b, k', w, s') := by
  rw [query, Prog.play_op_tx_bind] at h
  cases hdown : (world k).down with
  | false => simpa [attempt, hdown] using h
  | true => simp [attempt, hdown] at h

/-- A transaction that is not refused has committed what its body did. -/
theorem of_play_transaction {body : Task α} {a : α} {o : Option Store}
    (h : (transaction body).play world k o s = (.ok a, k', w, s')) : ∃ k₁ v₁ s₁,
      body.play world (k + 1) (some s) s = (.ok a, k₁, v₁, s₁) ∧ w = none ∧ s' = v₁.getD s₁ := by
  rcases hbody : body.play world (k + 1) (some s) s with ⟨r, k₁, v₁, s₁⟩
  unfold transaction at h
  cases r with
  | ok b =>
    rw [Prog.play_transaction_commit hbody] at h
    cases hdown : (world k₁).down with
    | true => simp [hdown] at h
    | false =>
      obtain ⟨rfl, -, rfl, rfl⟩ := by simpa [hdown] using h
      exact ⟨k₁, v₁, s₁, rfl, rfl, rfl⟩
  | error e =>
    rw [Prog.play_transaction_error hbody] at h
    simp at h

theorem play_look_tx_step (q : Env → α) (f : α → Task β) :
    (look q >>= f).play world k (some v) s = (f (q (world k))).play world (k + 1) (some v) s :=
  Prog.play_op_tx_bind f

end steps

end BookingPlatform
