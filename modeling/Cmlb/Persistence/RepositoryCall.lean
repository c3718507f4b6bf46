import Cmlb.Persistence.RssFeedRepository

/-!
# The frame of a repository's call

Every call of the SQLite repositories takes a connection from the pool, runs its statements, and turns
the two kinds of exceptions into errors. A call that fails in the frame leaves what is stored.
-/

namespace Cmlb.Persistence

/-- What a call gets from outside. -/
structure CallEnv where
  /-- The message of the channel's error when no connection is had. -/
  acquireFailed : Option String := none
  fault : Option SqlFault := none

/-- `done` is what the statements do; `name` is the call's name in its errors. -/
def CallEnv.call {α σ : Type} (env : CallEnv) (name : String) (s : σ) (done : Result α × σ) : Result α × σ :=
  match env.acquireFailed with
  | some message => (.error ⟨.resourceExhausted, "SqliteConnectionPool::acquire failed: " ++ message⟩, s)
  | none =>
    match env.fault with
    | some (.sqlite what) => (.error ⟨.database, name ++ " failed: " ++ what⟩, s)
    | some (.std what) => (.error ⟨.database, name ++ " threw: " ++ what⟩, s)
    | none => done

theorem CallEnv.call_cases {α σ : Type} (env : CallEnv) (name : String) (s : σ) (done : Result α × σ) :
    env.call name s done = done ∨ ∃ err, env.call name s done = (.error err, s) := by
  unfold CallEnv.call
  split
  · exact .inr ⟨_, rfl⟩
  · split
    · exact .inr ⟨_, rfl⟩
    · exact .inr ⟨_, rfl⟩
    · exact .inl rfl

/-- The frame does the same to two states, and so it keeps what relates them. -/
theorem CallEnv.call_related {α σ τ : Type} {Rel : σ → τ → Prop} (env : CallEnv) (name : String) {s : σ} {u : τ}
    {done : Result α × σ} {done' : Result α × τ} (h : Rel s u) (hresult : done.1 = done'.1)
    (hdone : Rel done.2 done'.2) : (env.call name s done).1 = (env.call name u done').1 ∧
      Rel (env.call name s done).2 (env.call name u done').2 := by
  unfold CallEnv.call
  split
  · exact ⟨rfl, h⟩
  · split
    · exact ⟨rfl, h⟩
    · exact ⟨rfl, h⟩
    · exact ⟨hresult, hdone⟩

end Cmlb.Persistence
