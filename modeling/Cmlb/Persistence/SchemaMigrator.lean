import Mathlib.Data.List.Pairwise
import Mathlib.Data.List.MinMax
import Cmlb.Core.Error
import Cmlb.Lib.Interleave

/-!
# Schema migrations (`schema_migrator.cpp`)

Any number of `migrate` runs `i : ι` on one database, each on a connection of its own. What the others
see of the database is `db`, its committed state; at most one run has a write transaction open, with a
copy of its own (`txn`). Every statement can fail. One that fails inside a transaction leaves any
content in it, or SQLite has rolled the transaction back by itself; a `ROLLBACK` fails only where
there is no transaction.

A run applies the migrations above the version it has read, and by then other runs may have applied
some of them. The primary key of `schema_version` turns such a run away before its transaction can
commit, so what is committed is always a prefix of the registry (`migrations_prefix`).
-/

namespace Cmlb.Persistence

/-- `sql` is what the script does to the content of the database when all of it succeeds. -/
structure Migration (σ : Type) where
  version : Int
  name : String
  sql : σ → σ

/-- The content that the migrations are about, and the rows of `schema_version`, if there is such a
table. -/
structure Db (σ : Type) where
  content : σ
  rows : Option (List (Int × String))

def Migration.row {σ : Type} (m : Migration σ) : Int × String := (m.version, m.name)

/-- `COALESCE(MAX(version), 0)`. -/
def maxVersion (rows : List (Int × String)) : Int := (rows.map Prod.fst).max?.getD 0

structure Store (ι σ : Type) where
  db : Db σ
  txn : Option (ι × Db σ)

namespace Store

variable {ι σ : Type} [DecidableEq ι]

/-- What the run `i` has in its transaction. -/
def own (s : Store ι σ) (i : ι) : Option (Db σ) :=
  match s.txn with
  | some (j, d) => if j = i then some d else none
  | none => none

/-- A statement of the run `i` fails. -/
def spoil (s : Store ι σ) (i : ι) (left : σ) (undone : Bool) : Store ι σ :=
  match s.own i with
  | some d => { s with txn := if undone then none else some (i, { d with content := left }) }
  | none => s

variable {s : Store ι σ} {i j : ι} {d d' : Db σ}

theorem own_eq_some : s.own i = some d ↔ s.txn = some (i, d) := by
  unfold own
  split
  · rename_i j d' htxn
    rw [htxn]
    by_cases hji : j = i <;> simp [hji]
  · rename_i htxn
    simp [htxn]

theorem own_of_txn_none (h : s.txn = none) (j : ι) : s.own j = none := by simp [own, h]

/-- Where `i` has the transaction, nobody else has one. -/
theorem own_other (h : s.txn = some (i, d)) (hj : j ≠ i) : s.own j = none := by
  simp [own, h, Ne.symm hj]

@[simp] theorem spoil_db (left : σ) (undone : Bool) : (s.spoil i left undone).db = s.db := by
  unfold spoil
  split <;> rfl

theorem own_spoil_other (left : σ) (undone : Bool) (hj : j ≠ i) :
    (s.spoil i left undone).own j = s.own j := by
  unfold spoil
  split
  · rename_i d hd
    rw [own_other (own_eq_some.1 hd) hj]
    cases undone with
    | true => exact own_of_txn_none rfl j
    | false => exact own_other rfl hj
  · rfl

end Store

namespace Migrate

variable {ι σ : Type}

inductive Pc (σ : Type)
  | acquiring
  | ensuring
  | reading
  | beginning (m : Migration σ) (rest : List (Migration σ))
  | executing (m : Migration σ) (rest : List (Migration σ))
  | inserting (m : Migration σ) (rest : List (Migration σ))
  | committing (m : Migration σ) (rest : List (Migration σ))
  -- `first`: the `ROLLBACK` is that of the failed script, inside the `try`
  | rollingBack (m : Migration σ) (rest : List (Migration σ)) (err : AppError) (first : Bool)
  | returned (r : Result Unit)

/-- The next statement succeeds, or fails. -/
inductive Event (σ : Type)
  | run
  | fail (what : String) (left : σ) (undone : Bool)

def beginFailed (m : Migration σ) (what : String) : AppError :=
  ⟨.migration, "Failed to BEGIN for migration " ++ m.name ++ ": " ++ what⟩

def scriptFailed (m : Migration σ) (what : String) : AppError :=
  ⟨.migration, "Migration " ++ m.name ++ " failed: " ++ what⟩

def threw (m : Migration σ) (what : String) : AppError :=
  ⟨.migration, "Migration " ++ m.name ++ " threw: " ++ what⟩

/-- The head of the loop over the migrations. -/
def next : List (Migration σ) → Pc σ
  | [] => .returned (.ok ())
  | m :: rest => .beginning m rest

variable [DecidableEq ι]

def act (registry : List (Migration σ)) (i : ι) (s : Store ι σ) : Pc σ → Event σ → Option (Store ι σ × Pc σ)
  | .acquiring, .run => some (s, .ensuring)
  | .acquiring, .fail what _ _ =>
    some (s, .returned (.error ⟨.resourceExhausted, "SqliteConnectionPool::acquire failed: " ++ what⟩))
  | .ensuring, .run =>
    match s.db.rows, s.txn with
    | some _, _ => some (s, .reading)
    | none, none => some ({ s with db.rows := some [] }, .reading)
    | none, some _ => none
  | .ensuring, .fail what _ _ =>
    some (s, .returned (.error ⟨.migration, "Failed to ensure schema_version table: " ++ what⟩))
  | .reading, .run =>
    s.db.rows.map fun rows => (s, next (registry.filter fun m => maxVersion rows < m.version))
  | .reading, .fail what _ _ =>
    some (s, .returned (.error ⟨.database, "Failed to read schema_version: " ++ what⟩))
  | .beginning m rest, .run =>
    match s.txn with
    | none => some ({ s with txn := some (i, s.db) }, .executing m rest)
    | some _ => none
  | .beginning m _, .fail what _ _ => some (s, .returned (.error (beginFailed m what)))
  | .executing m rest, .run =>
    (s.own i).map fun d => ({ s with txn := some (i, { d with content := m.sql d.content }) }, .inserting m rest)
  | .executing m rest, .fail what left undone =>
    some (s.spoil i left undone, .rollingBack m rest (scriptFailed m what) true)
  | .inserting m rest, .run =>
    match s.own i with
    | some ⟨content, some rows⟩ =>
      if m.version ∈ rows.map Prod.fst then none
      else some ({ s with txn := some (i, ⟨content, some (rows ++ [m.row])⟩) }, .committing m rest)
    | _ => none
  | .inserting m rest, .fail what left undone =>
    some (s.spoil i left undone, .rollingBack m rest (threw m what) false)
  | .committing _ rest, .run => (s.own i).map fun d => (⟨d, none⟩, next rest)
  | .committing m rest, .fail what left undone =>
    some (s.spoil i left undone, .rollingBack m rest (threw m what) false)
  | .rollingBack _ _ err _, .run =>
    (s.own i).map fun _ => ({ s with txn := none }, .returned (.error err))
  | .rollingBack m _ err first, .fail what _ _ =>
    if (s.own i).isSome then none
    else some (s, .returned (.error (if first then threw m what else err)))
  | .returned _, _ => none

def migrators (registry : List (Migration σ)) : Interleaving ι (Store ι σ) (Pc σ) Empty (Event σ) where
  env _ e := e.elim
  act := act registry

/-- What the next statement of the run `i` does to the store. -/
inductive Effect (registry : List (Migration σ)) (i : ι) (s : Store ι σ) :
    Pc σ → Store ι σ → Pc σ → Prop
  | acquired : Effect registry i s .acquiring s .ensuring
  | gaveUp {pc : Pc σ}
      (hpc : pc = .acquiring ∨ pc = .ensuring ∨ pc = .reading ∨ ∃ m rest, pc = .beginning m rest)
      (err : AppError) : Effect registry i s pc s (.returned (.error err))
  | ensured (hrows : s.db.rows.isSome) : Effect registry i s .ensuring s .reading
  | created (hrows : s.db.rows = none) (htxn : s.txn = none) :
      Effect registry i s .ensuring { s with db.rows := some [] } .reading
  | read {rows : List (Int × String)} (hrows : s.db.rows = some rows) :
      Effect registry i s .reading s (next (registry.filter fun m => maxVersion rows < m.version))
  | begun {m : Migration σ} {rest : List (Migration σ)} (htxn : s.txn = none) :
      Effect registry i s (.beginning m rest) { s with txn := some (i, s.db) } (.executing m rest)
  | executed {m : Migration σ} {rest : List (Migration σ)} {d : Db σ} (hd : s.own i = some d) :
      Effect registry i s (.executing m rest)
        { s with txn := some (i, { d with content := m.sql d.content }) } (.inserting m rest)
  | inserted {m : Migration σ} {rest : List (Migration σ)} {content : σ} {rows : List (Int × String)}
      (hd : s.own i = some ⟨content, some rows⟩) (hnew : m.version ∉ rows.map Prod.fst) :
      Effect registry i s (.inserting m rest)
        { s with txn := some (i, ⟨content, some (rows ++ [m.row])⟩) } (.committing m rest)
  | spoiled {pc : Pc σ} {m : Migration σ} {rest : List (Migration σ)}
      (hpc : pc = .executing m rest ∨ pc = .inserting m rest ∨ pc = .committing m rest) (left : σ)
      (undone : Bool) (err : AppError) (first : Bool) :
      Effect registry i s pc (s.spoil i left undone) (.rollingBack m rest err first)
  | committed {m : Migration σ} {rest : List (Migration σ)} {d : Db σ} (hd : s.own i = some d) :
      Effect registry i s (.committing m rest) ⟨d, none⟩ (next rest)
  | rolledBack {m : Migration σ} {rest : List (Migration σ)} {err : AppError} {first : Bool} {d : Db σ}
      (hd : s.own i = some d) :
      Effect registry i s (.rollingBack m rest err first) { s with txn := none } (.returned (.error err))
  | undone {m : Migration σ} {rest : List (Migration σ)} {err : AppError} {first : Bool}
      (hnone : s.own i = none) (err' : AppError) :
      Effect registry i s (.rollingBack m rest err first) s (.returned (.error err'))

theorem act_effect {registry : List (Migration σ)} {i : ι} {s s' : Store ι σ} {pc pc' : Pc σ}
    {e : Event σ} (hs : act registry i s pc e = some (s', pc')) : Effect registry i s pc s' pc' := by
  cases pc with
  | acquiring =>
    cases e with
    | run =>
      cases hs
      exact .acquired
    | fail what left undone =>
      cases hs
      exact .gaveUp (.inl rfl) _
  | ensuring =>
    cases e with
    | run =>
      simp only [act] at hs
      split at hs
      · rename_i hrows
        cases hs
        exact .ensured (by rw [hrows]; rfl)
      · rename_i hrows htxn
        cases hs
        exact .created hrows htxn
      · cases hs
    | fail what left undone =>
      cases hs
      exact .gaveUp (.inr (.inl rfl)) _
  | reading =>
    cases e with
    | run =>
      obtain ⟨rows, hrows, hs⟩ := Option.map_eq_some_iff.1 hs
      cases hs
      exact .read hrows
    | fail what left undone =>
      cases hs
      exact .gaveUp (.inr (.inr (.inl rfl))) _
  | beginning m rest =>
    cases e with
    | run =>
      simp only [act] at hs
      split at hs
      · rename_i htxn
        cases hs
        exact .begun htxn
      · cases hs
    | fail what left undone =>
      cases hs
      exact .gaveUp (.inr (.inr (.inr ⟨m, rest, rfl⟩))) _
  | executing m rest =>
    cases e with
    | run =>
      obtain ⟨d, hd, hs⟩ := Option.map_eq_some_iff.1 hs
      cases hs
      exact .executed hd
    | fail what left undone =>
      cases hs
      exact .spoiled (.inl rfl) left undone _ true
  | inserting m rest =>
    cases e with
    | run =>
      simp only [act] at hs
      split at hs
      · rename_i content rows hd
        split at hs
        · cases hs
        · rename_i hnew
          cases hs
          exact .inserted hd hnew
      · cases hs
    | fail what left undone =>
      cases hs
      exact .spoiled (.inr (.inl rfl)) left undone _ false
  | committing m rest =>
    cases e with
    | run =>
      obtain ⟨d, hd, hs⟩ := Option.map_eq_some_iff.1 hs
      cases hs
      exact .committed hd
    | fail what left undone =>
      cases hs
      exact .spoiled (.inr (.inr rfl)) left undone _ false
  | rollingBack m rest err first =>
    cases e with
    | run =>
      obtain ⟨d, hd, hs⟩ := Option.map_eq_some_iff.1 hs
      cases hs
      exact .rolledBack hd
    | fail what left undone =>
      simp only [act] at hs
      split at hs
      · cases hs
      · rename_i hnone
        cases hs
        exact .undone (by simpa using hnone) _
  | returned r => cases hs

/-! ### Versions -/

theorem le_maxVersion {rows : List (Int × String)} {r : Int × String} (h : r ∈ rows) :
    r.1 ≤ maxVersion rows := by
  unfold maxVersion
  cases hmax : (rows.map Prod.fst).max? with
  | none =>
    rw [List.max?_eq_none_iff, List.map_eq_nil_iff] at hmax
    rw [hmax] at h
    exact absurd h List.not_mem_nil
  | some v => exact (List.max?_eq_some_iff.1 hmax).2 r.1 (List.mem_map_of_mem h)

theorem maxVersion_mem (rows : List (Int × String)) :
    rows = [] ∧ maxVersion rows = 0 ∨ ∃ r ∈ rows, r.1 = maxVersion rows := by
  unfold maxVersion
  cases hmax : (rows.map Prod.fst).max? with
  | none =>
    rw [List.max?_eq_none_iff, List.map_eq_nil_iff] at hmax
    exact .inl ⟨hmax, rfl⟩
  | some v =>
    obtain ⟨r, hr, hv⟩ := List.mem_map.1 (List.max?_eq_some_iff.1 hmax).1
    exact .inr ⟨r, hr, hv⟩

section Registry

variable {registry : List (Migration σ)} {k : Nat}

/-- Above the greatest version of the first `k` migrations are the others. -/
theorem filter_maxVersion (hincr : registry.Pairwise (·.version < ·.version))
    (hpos : ∀ m ∈ registry, 0 < m.version) :
    registry.filter (fun m => maxVersion ((registry.take k).map Migration.row) < m.version) =
      registry.drop k := by
  have hsplit := hincr
  rw [← List.take_append_drop k registry, List.pairwise_append] at hsplit
  have htake : (registry.take k).filter
      (fun m => maxVersion ((registry.take k).map Migration.row) < m.version) = [] := by
    rw [List.filter_eq_nil_iff]
    intro m hm
    have hle := le_maxVersion (List.mem_map_of_mem (f := Migration.row) hm)
    simpa [Migration.row] using hle
  have hdrop : (registry.drop k).filter
      (fun m => maxVersion ((registry.take k).map Migration.row) < m.version) = registry.drop k := by
    rw [List.filter_eq_self]
    intro m hm
    rw [decide_eq_true_iff]
    rcases maxVersion_mem ((registry.take k).map Migration.row) with ⟨-, hzero⟩ | ⟨r, hr, hmax⟩
    · rw [hzero]
      exact hpos m (List.mem_of_mem_drop hm)
    · obtain ⟨m', hm', rfl⟩ := List.mem_map.1 hr
      rw [← hmax]
      exact hsplit.2.2 m' hm' m hm
  conv_lhs => rw [← List.take_append_drop k registry]
  rw [List.filter_append, List.take_append_drop, htake, hdrop, List.nil_append]

/-- The greatest version is that of the last migration. -/
theorem maxVersion_last (hincr : registry.Pairwise (·.version < ·.version)) :
    maxVersion ((registry.take k).map Migration.row) =
      ((registry.take k).getLast?.map Migration.version).getD 0 := by
  have htake : (registry.take k).Pairwise (·.version < ·.version) := hincr.sublist (List.take_sublist k registry)
  generalize registry.take k = l at htake
  rcases List.eq_nil_or_concat l with rfl | ⟨l, m, rfl⟩
  · rfl
  · rw [List.concat_eq_append] at htake ⊢
    rw [List.getLast?_concat]
    have hmem : m.row ∈ (l ++ [m]).map Migration.row := by simp
    have hle := le_maxVersion hmem
    rcases maxVersion_mem ((l ++ [m]).map Migration.row) with ⟨hnil, -⟩ | ⟨r, hr, hmax⟩
    · simp at hnil
    · obtain ⟨m', hm', rfl⟩ := List.mem_map.1 hr
      rw [← hmax]
      rw [← hmax] at hle
      rcases List.mem_append.1 hm' with hm' | hm'
      · have hlt := (List.pairwise_append.1 htake).2.2 m' hm' m (by simp)
        exact absurd hlt (not_lt.2 hle)
      · rw [List.mem_singleton.1 hm']
        rfl

end Registry

/-! ### What is committed -/

/-- The database has the effects of the first `k` migrations and records just these. -/
structure Recorded (registry : List (Migration σ)) (base : σ) (k : Nat) (db : Db σ) : Prop where
  le : k ≤ registry.length
  content : db.content = (registry.take k).foldl (fun content m => m.sql content) base
  rows : db.rows = some ((registry.take k).map Migration.row) ∨ db.rows = none ∧ k = 0

/-- The migrations before `m` are among the first `k`. -/
def Due (registry : List (Migration σ)) (k : Nat) (m : Migration σ) (rest : List (Migration σ)) : Prop :=
  ∃ done, registry = done ++ m :: rest ∧ done.length ≤ k

/-- What is known of the run `i`, when the first `k` migrations are committed. -/
def PcOk (registry : List (Migration σ)) (k : Nat) (s : Store ι σ) (i : ι) : Pc σ → Prop
  | .acquiring | .ensuring | .returned _ => s.own i = none
  | .reading => s.own i = none ∧ s.db.rows.isSome
  | .beginning m rest => s.own i = none ∧ s.db.rows.isSome ∧ Due registry k m rest
  | .executing m rest => s.own i = some s.db ∧ s.db.rows.isSome ∧ Due registry k m rest
  | .inserting m rest =>
    s.own i = some ⟨m.sql s.db.content, s.db.rows⟩ ∧ s.db.rows.isSome ∧ Due registry k m rest
  | .committing m rest => ∃ rows, s.db.rows = some rows ∧ m.version ∉ rows.map Prod.fst ∧
      s.own i = some ⟨m.sql s.db.content, some (rows ++ [m.row])⟩ ∧ Due registry k m rest
  | .rollingBack _ _ _ _ => True

/-- What the step of another run may do, as far as `j` is concerned. -/
def Undisturbed (s s' : Store ι σ) (j : ι) : Prop :=
  s'.own j = s.own j ∧ s'.db = s.db ∨
    s.own j = none ∧ s'.own j = none ∧ (s.db.rows.isSome → s'.db.rows.isSome)

section Steps

variable {registry : List (Migration σ)} {base : σ} {k k' : Nat} {s s' : Store ι σ} {i j : ι}
  {pc pc' : Pc σ} {e : Event σ} {m : Migration σ} {rest : List (Migration σ)}

theorem Due.mono (h : Due registry k m rest) (hk : k ≤ k') : Due registry k' m rest := by
  obtain ⟨done, hreg, hle⟩ := h
  exact ⟨done, hreg, by omega⟩

theorem PcOk.other (h : PcOk registry k s j pc) (hk : k ≤ k') (hu : Undisturbed s s' j) :
    PcOk registry k' s' j pc := by
  rcases hu with ⟨hown, hdb⟩ | ⟨hown, hown', hrows⟩
  · cases pc <;> simp only [PcOk, hown, hdb] at h ⊢
    case beginning => exact ⟨h.1, h.2.1, h.2.2.mono hk⟩
    case executing => exact ⟨h.1, h.2.1, h.2.2.mono hk⟩
    case inserting => exact ⟨h.1, h.2.1, h.2.2.mono hk⟩
    case committing =>
      obtain ⟨rows, h₁, h₂, h₃, h₄⟩ := h
      exact ⟨rows, h₁, h₂, h₃, h₄.mono hk⟩
    all_goals exact h
  · cases pc <;> simp only [PcOk, hown, hown', true_and, reduceCtorEq, false_and, and_false,
      exists_false] at h ⊢
    case reading => exact hrows h
    case beginning => exact ⟨hrows h.1, h.2.mono hk⟩

/-- The next migration of a run is due when what comes before it is committed. -/
theorem pcOk_next (hown : s.own i = none) (hrows : s.db.rows.isSome)
    {done todo : List (Migration σ)} (hreg : registry = done ++ todo) (hle : done.length ≤ k) :
    PcOk registry k s i (next todo) := by
  cases todo with
  | nil => exact hown
  | cons m rest => exact ⟨hown, hrows, done, hreg, hle⟩

theorem PcOk.own_of_idle (h : PcOk registry k s i pc)
    (hpc : pc = .acquiring ∨ pc = .ensuring ∨ pc = .reading ∨ ∃ m rest, pc = .beginning m rest) :
    s.own i = none := by
  rcases hpc with rfl | rfl | rfl | ⟨m, rest, rfl⟩
  · exact h
  · exact h
  · exact h.1
  · exact h.1

omit [DecidableEq ι] in
theorem Recorded.rows_eq {db : Db σ} (h : Recorded registry base k db) {rows : List (Int × String)}
    (hrows : db.rows = some rows) : rows = (registry.take k).map Migration.row := by
  rcases h.rows with hr | ⟨hr, -⟩
  · rw [hr] at hrows
    exact (Option.some.inj hrows).symm
  · rw [hr] at hrows
    cases hrows

omit [DecidableEq ι] in
/-- A migration whose version is not recorded is the next one. -/
theorem Recorded.commit {db : Db σ} (h : Recorded registry base k db) {rows : List (Int × String)}
    (hrows : db.rows = some rows) (hnew : m.version ∉ rows.map Prod.fst) (hdue : Due registry k m rest) :
    registry = registry.take k ++ m :: rest ∧
      Recorded registry base (k + 1) ⟨m.sql db.content, some (rows ++ [m.row])⟩ := by
  obtain ⟨done, hreg, hle⟩ := hdue
  have htake := h.rows_eq hrows
  have hlen : done.length = k := by
    by_contra hne
    refine hnew ?_
    rw [htake, hreg, List.map_map]
    refine List.mem_map.2 ⟨m, ?_, rfl⟩
    have hk : k = done.length + (k - done.length - 1 + 1) := by omega
    rw [hk, List.take_length_add_append, List.take_succ_cons]
    simp
  have hdone : registry.take k = done := by
    rw [hreg, ← hlen, List.take_left]
  have hsucc : registry.take (k + 1) = done ++ [m] := by
    rw [hreg, ← hlen, List.take_length_add_append]
    rfl
  refine ⟨by rw [hdone]; exact hreg, ?_, ?_, .inl ?_⟩
  · have hlength := congrArg List.length hreg
    rw [List.length_append, List.length_cons] at hlength
    omega
  · rw [hsucc, List.foldl_append, ← hdone, ← h.content]
    rfl
  · rw [hsucc, htake, hdone, List.map_append]
    rfl

theorem undisturbed_self (s : Store ι σ) (j : ι) : Undisturbed s s j := .inl ⟨rfl, rfl⟩

theorem undisturbed_spoil (left : σ) (undone : Bool) (hj : j ≠ i) :
    Undisturbed s (s.spoil i left undone) j :=
  .inl ⟨Store.own_spoil_other left undone hj, Store.spoil_db left undone⟩

/-- A transaction is begun, changed or ended without a commit. -/
theorem undisturbed_txn {txn : Option (ι × Db σ)} (hs : s.txn = none ∨ ∃ d, s.own i = some d)
    (htxn : txn = none ∨ ∃ d, txn = some (i, d)) (hj : j ≠ i) :
    Undisturbed s { s with txn := txn } j := by
  have hown : s.own j = none := by
    rcases hs with hs | ⟨d, hs⟩
    · exact Store.own_of_txn_none hs j
    · exact Store.own_other (Store.own_eq_some.1 hs) hj
  refine .inl ⟨?_, rfl⟩
  rw [hown]
  rcases htxn with rfl | ⟨d, rfl⟩
  · exact Store.own_of_txn_none rfl j
  · exact Store.own_other rfl hj

/-- A step keeps what is committed a prefix of the registry, tells what the run knows next, and leaves
the other runs alone. -/
theorem act_ok (hincr : registry.Pairwise (·.version < ·.version)) (hpos : ∀ m ∈ registry, 0 < m.version)
    (hrec : Recorded registry base k s.db) (hok : PcOk registry k s i pc)
    (hs : act registry i s pc e = some (s', pc')) :
    ∃ k', k ≤ k' ∧ Recorded registry base k' s'.db ∧ PcOk registry k' s' i pc' ∧
      ∀ j, j ≠ i → Undisturbed s s' j := by
  have hself : ∀ j, j ≠ i → Undisturbed s s j := fun j _ => undisturbed_self s j
  cases act_effect hs with
  | acquired => exact ⟨k, le_rfl, hrec, hok, hself⟩
  | gaveUp hpc err => exact ⟨k, le_rfl, hrec, hok.own_of_idle hpc, hself⟩
  | ensured hrows => exact ⟨k, le_rfl, hrec, ⟨hok, hrows⟩, hself⟩
  | created hrows htxn =>
    have hk : k = 0 := by
      rcases hrec.rows with hr | ⟨-, hk⟩
      · rw [hr] at hrows
        cases hrows
      · exact hk
    subst hk
    refine ⟨0, le_rfl, ⟨hrec.le, hrec.content, .inl rfl⟩, ⟨Store.own_of_txn_none htxn i, rfl⟩, ?_⟩
    exact fun j _ => .inr ⟨Store.own_of_txn_none htxn j, Store.own_of_txn_none htxn j, fun _ => rfl⟩
  | read hrows =>
    rw [hrec.rows_eq hrows, filter_maxVersion hincr hpos]
    refine ⟨k, le_rfl, hrec, ?_, hself⟩
    exact pcOk_next hok.1 hok.2 (List.take_append_drop k registry).symm (by simp)
  | begun htxn =>
    refine ⟨k, le_rfl, hrec, ⟨Store.own_eq_some.2 rfl, hok.2⟩, ?_⟩
    exact fun j hj => undisturbed_txn (.inl htxn) (.inr ⟨_, rfl⟩) hj
  | executed hd =>
    obtain ⟨hown, hrows, hdue⟩ := hok
    rw [hown] at hd
    cases hd
    refine ⟨k, le_rfl, hrec, ⟨Store.own_eq_some.2 rfl, hrows, hdue⟩, ?_⟩
    exact fun j hj => undisturbed_txn (.inr ⟨_, hown⟩) (.inr ⟨_, rfl⟩) hj
  | inserted hd hnew =>
    obtain ⟨hown, -, hdue⟩ := hok
    rw [hown] at hd
    obtain ⟨rfl, hrows⟩ := Db.mk.inj (Option.some.inj hd)
    refine ⟨k, le_rfl, hrec, ⟨_, hrows, hnew, Store.own_eq_some.2 rfl, hdue⟩, ?_⟩
    exact fun j hj => undisturbed_txn (.inr ⟨_, hown⟩) (.inr ⟨_, rfl⟩) hj
  | spoiled hpc left undone err first =>
    refine ⟨k, le_rfl, ?_, trivial, fun j hj => undisturbed_spoil left undone hj⟩
    rw [Store.spoil_db]
    exact hrec
  | @committed m rest d hd =>
    obtain ⟨rows, hrows, hnew, hown, hdue⟩ := hok
    rw [hown] at hd
    cases hd
    obtain ⟨hreg, hrec'⟩ := hrec.commit hrows hnew hdue
    have hle := hrec'.le
    refine ⟨k + 1, Nat.le_succ k, hrec', ?_, fun j hj => .inr ⟨?_, rfl, fun _ => rfl⟩⟩
    · have hsplit : registry = (registry.take k ++ [m]) ++ rest := by simpa using hreg
      exact pcOk_next rfl rfl hsplit (by simp)
    · exact Store.own_other (Store.own_eq_some.1 hown) hj
  | rolledBack hd =>
    refine ⟨k, le_rfl, hrec, rfl, ?_⟩
    exact fun j hj => undisturbed_txn (.inr ⟨_, hd⟩) (.inl rfl) hj
  | undone hnone err' => exact ⟨k, le_rfl, hrec, hnone, hself⟩

/-- Only the first `CREATE TABLE` and a `COMMIT` change what is committed. -/
theorem act_db (hs : act registry i s pc e = some (s', pc')) :
    s'.db = s.db ∨ pc = .ensuring ∨ ∃ m rest, pc = .committing m rest ∧ pc' = next rest := by
  cases act_effect hs with
  | created hrows htxn => exact .inr (.inl rfl)
  | spoiled hpc left undone err first => exact .inl (Store.spoil_db left undone)
  | @committed m rest d hd => exact .inr (.inr ⟨m, rest, rfl, rfl⟩)
  | _ => exact .inl rfl

end Steps

/-! ### Runs -/

section Runs

variable {registry : List (Migration σ)} {base : σ} {k : Nat} {db : Db σ} {i : ι}
  {t : List (SysEvent ι Empty (Event σ))} {s : Sys ι (Store ι σ) (Pc σ)}

/-- The runs start on the database `db`. -/
def start (db : Db σ) : Sys ι (Store ι σ) (Pc σ) := ⟨⟨db, none⟩, fun _ => .acquiring⟩

def Inv (registry : List (Migration σ)) (base : σ) (s : Sys ι (Store ι σ) (Pc σ)) : Prop :=
  ∃ k, Recorded registry base k s.shared.db ∧ ∀ i, PcOk registry k s.shared i (s.locals i)

theorem inv_runs (hincr : registry.Pairwise (·.version < ·.version))
    (hpos : ∀ m ∈ registry, 0 < m.version) (hdb : Recorded registry base k db)
    (h : (migrators registry).machine.Runs (start db) t s) : Inv registry base s := by
  have hstart : Inv registry base (start db : Sys ι (Store ι σ) (Pc σ)) := ⟨k, hdb, fun i => rfl⟩
  refine h.invariant hstart ?_
  rintro s e s' - ⟨k, hrec, hok⟩ hs
  rcases Interleaving.step_inv hs with ⟨x, -, -, -⟩ | ⟨i, x, pc', rfl, hact, hlocals⟩
  · exact x.elim
  · obtain ⟨k', hk, hrec', hown, hothers⟩ := act_ok hincr hpos hrec (hok i) hact
    refine ⟨k', hrec', fun j => ?_⟩
    rw [hlocals]
    by_cases hj : j = i
    · subst hj
      rw [Function.update_self]
      exact hown
    · rw [Function.update_of_ne hj]
      exact (hok j).other hk (hothers j hj)

/-- The run is in `apply_one` of `m`. -/
inductive Applying (m : Migration σ) (rest : List (Migration σ)) : Pc σ → Prop
  | beginning : Applying m rest (.beginning m rest)
  | executing : Applying m rest (.executing m rest)
  | inserting : Applying m rest (.inserting m rest)
  | committing : Applying m rest (.committing m rest)
  | rollingBack (err : AppError) (first : Bool) : Applying m rest (.rollingBack m rest err first)

omit [DecidableEq ι] in
theorem not_applying_next (m : Migration σ) (rest : List (Migration σ)) : ¬Applying m rest (next rest) := by
  intro h
  cases rest with
  | nil => cases h
  | cons m' rest =>
    generalize hpc : next (m' :: rest) = pc at h
    cases h with
    | beginning => simp [next] at hpc
    | _ => cases hpc

/-- No step of a failed `apply_one` changes what is committed. -/
theorem failed_step {m : Migration σ} {rest : List (Migration σ)} {err : AppError}
    {t₁ t₂ : List (SysEvent ι Empty (Event σ))} {x : Event σ} {s₁ s₂ s₃ s₄ : Sys ι (Store ι σ) (Pc σ)}
    (h : (migrators registry).machine.Steps (fun s _ => Applying m rest (s.locals i)) s₁
      (t₁ ++ .act i x :: t₂) s₄) (hend : s₄.locals i = .returned (.error err))
    (h₁ : (migrators registry).machine.Runs s₁ t₁ s₂)
    (hs : (migrators registry).machine.step s₂ (.act i x) = some s₃) : s₃.shared.db = s₂.shared.db := by
  obtain ⟨s, h₁', h₂⟩ := h.append_inv
  cases h₁'.det h₁
  obtain ⟨s', happly, hs', h₃⟩ := h₂.cons_inv
  rw [hs] at hs'
  cases hs'
  rcases Interleaving.step_inv hs with ⟨x, -, -, -⟩ | ⟨j, x', pc', hx, hact, hlocals⟩
  · exact x.elim
  cases hx
  rcases act_db hact with hdb | hpc | ⟨m', rest', hpc, hnext⟩
  · exact hdb
  · rw [hpc] at happly
    cases happly
  · exfalso
    rw [hpc] at happly
    cases happly
    have hafter : s₃.locals i = next rest := by
      rw [hlocals, Function.update_self, hnext]
    cases t₂ with
    | nil =>
      cases h₃.det (.nil (P := fun _ _ => True) s₃)
      rw [hend] at hafter
      cases rest <;> cases hafter
    | cons e t₂ =>
      obtain ⟨-, happly, -, -⟩ := h₃.cons_inv
      rw [hafter] at happly
      exact not_applying_next m rest happly

/-- From a database that has and records a prefix of the registry, and in any interleaving of runs and
failures: what is committed is the effect of a prefix of the registry, each migration once and in
order, `MAX(version)` is that of its last migration, and an `apply_one` that fails changes nothing
that is committed and leaves no transaction behind. -/
theorem migrations_prefix (hincr : registry.Pairwise (·.version < ·.version))
    (hpos : ∀ m ∈ registry, 0 < m.version) (hdb : Recorded registry base k db)
    (h : (migrators registry).machine.Runs (start db) t s) :
    (∃ k, Recorded registry base k s.shared.db ∧
      maxVersion (s.shared.db.rows.getD []) = ((registry.take k).getLast?.map Migration.version).getD 0) ∧
    ∀ i m rest err t' s', s.locals i = .beginning m rest →
      (migrators registry).machine.Steps (fun s _ => Applying m rest (s.locals i)) s t' s' →
      s'.locals i = .returned (.error err) → s'.shared.own i = none ∧
        ∀ t₁ x t₂ s₁ s₂, t' = t₁ ++ .act i x :: t₂ → (migrators registry).machine.Runs s t₁ s₁ →
          (migrators registry).machine.step s₁ (.act i x) = some s₂ → s₂.shared.db = s₁.shared.db := by
  refine ⟨?_, fun i m rest err t' s' _ h' hend => ⟨?_, ?_⟩⟩
  · obtain ⟨k, hrec, -⟩ := inv_runs hincr hpos hdb h
    refine ⟨k, hrec, ?_⟩
    rcases hrec.rows with hrows | ⟨hrows, rfl⟩
    · rw [hrows]
      exact maxVersion_last hincr
    · rw [hrows]
      rfl
  · obtain ⟨k, -, hok⟩ := inv_runs hincr hpos hdb (h.append h'.runs)
    have hi := hok i
    rw [hend] at hi
    exact hi
  · rintro t₁ x t₂ s₁ s₂ rfl h₁ hs
    exact failed_step h' hend h₁ hs

end Runs

/-! A database whose content is the list of the scripts that have run on it -/

def script (version : Int) (name : String) : Migration (List String) := ⟨version, name, (· ++ [name])⟩

def twoMigrations : List (Migration (List String)) := [script 1 "V0001", script 2 "V0002"]

def emptyDb : Db (List String) := ⟨[], none⟩

/-- The statements of the run `i` succeed. -/
def goes (i : Bool) (n : Nat) : List (SysEvent Bool Empty (Event (List String))) :=
  List.replicate n (.act i .run)

def fails (i : Bool) : SysEvent Bool Empty (Event (List String)) := .act i (.fail "busy" ["half"] false)

/-- Both runs have read version 0. One applies both migrations; of the other, the script of the first
runs again, and the insert of its version is refused. -/
def staleRun : List (SysEvent Bool Empty (Event (List String))) :=
  goes false 3 ++ goes true 3 ++ goes false 8 ++ goes true 2 ++ [fails true] ++ goes true 1

def contentAndVersion (s : Sys Bool (Store Bool (List String)) (Pc (List String))) : List String × Int :=
  (s.shared.db.content, maxVersion (s.shared.db.rows.getD []))

theorem recorded_emptyDb (registry : List (Migration (List String))) : Recorded registry [] 0 emptyDb :=
  ⟨Nat.zero_le _, rfl, .inr ⟨rfl, rfl⟩⟩

theorem migrations_prefix_stale : ∃ s k, (migrators twoMigrations).machine.Runs (start emptyDb) staleRun s ∧
    contentAndVersion s = (["V0001", "V0002"], 2) ∧ Recorded twoMigrations [] k s.shared.db := by
  have hobs : ((migrators twoMigrations).machine.run (start emptyDb) staleRun).map contentAndVersion =
      some (["V0001", "V0002"], 2) := by decide
  obtain ⟨s, hs, ho⟩ := Machine.exists_runs hobs
  obtain ⟨⟨k, hrec, -⟩, -⟩ := migrations_prefix (by simp [twoMigrations, script])
    (by simp [twoMigrations, script]) (recorded_emptyDb twoMigrations) hs
  exact ⟨s, k, hs, ho, hrec⟩

/-- An empty database is at version 0, so a migration of that version is never applied. -/
theorem version_zero_skipped : ¬∀ (registry : List (Migration (List String))) (k : Nat)
    (db : Db (List String)) t (s : Sys Bool (Store Bool (List String)) (Pc (List String))),
    registry.Pairwise (·.version < ·.version) → Recorded registry [] k db →
      (migrators registry).machine.Runs (start db) t s → ∃ k, Recorded registry [] k s.shared.db := by
  intro hall
  have hobs : ((migrators [script 0 "V0000", script 1 "V0001"]).machine.run (start emptyDb)
      (goes false 7)).map contentAndVersion = some (["V0001"], 1) := by decide
  obtain ⟨s, hs, ho⟩ := Machine.exists_runs hobs
  obtain ⟨k, hrec⟩ := hall _ 0 emptyDb _ s (by simp [script]) (recorded_emptyDb _) hs
  have hcontent : s.shared.db.content = ["V0001"] := congrArg Prod.fst ho
  rw [hrec.content] at hcontent
  match k, hrec.le with
  | 0, _ => exact absurd hcontent (by decide)
  | 1, _ => exact absurd hcontent (by decide)
  | 2, _ => exact absurd hcontent (by decide)
  | k + 3, hle => simp at hle

end Migrate

end Cmlb.Persistence
