import Mathlib.Data.List.AList
import Cmlb.Lib.Machine

/-!
# The idle sockets of the HTTP client (`ConnectionPool` in `beast_http_client.cpp`)

Two maps from endpoints to the sockets that wait there for another request, the oldest first. A
socket is its `stream` and the time it was returned. `operator[]` on a `std::unordered_map` makes an
entry where there is none, and `take_plain` and `take_tls` use it to look; only the `return_*`
functions look at `kMaxEndpoints`. So the cap on endpoints holds as long as no socket is asked for at
a new endpoint of a full pool (`pool_capped_iff`).
-/

namespace Cmlb.Http

structure EndpointKey where
  https : Bool
  host : String
  port : String
deriving DecidableEq, Repr

structure IdleSocket where
  stream : Nat
  lastUsed : Int
deriving DecidableEq, Repr

def kMaxEndpoints : Nat := 32

def kMaxSocketsPerEndpoint : Nat := 8

/-- In ticks of the steady clock. -/
def kIdleEviction : Int := 60000000000

/-- `std::unordered_map<EndpointKey, std::deque<std::unique_ptr<Sock>>, EndpointKeyHash>`. -/
abbrev IdleMap := AList fun _ : EndpointKey => List IdleSocket

namespace IdleMap

def size (m : IdleMap) : Nat := m.keys.length

/-- What `m[key]` refers to. -/
def queue (m : IdleMap) (key : EndpointKey) : List IdleSocket := (m.lookup key).getD []

/-- `prune_locked`. -/
def prune (now : Int) (q : List IdleSocket) : List IdleSocket :=
  q.dropWhile fun sock => decide (sock.lastUsed < now - kIdleEviction)

/-- The body of `take_plain` and `take_tls`. -/
def take (m : IdleMap) (key : EndpointKey) (now : Int) : IdleMap × Option IdleSocket :=
  let q := prune now (m.queue key)
  (m.insert key q.dropLast, q.getLast?)

/-- The body of `return_plain` and `return_tls`, where `endpoints` is the size of both maps. -/
def put (m : IdleMap) (endpoints : Nat) (key : EndpointKey) (sock : IdleSocket) (now : Int) : IdleMap :=
  if endpoints ≥ kMaxEndpoints ∧ key ∉ m then m
  else
    let q := m.queue key
    if q.length ≥ kMaxSocketsPerEndpoint then m.insert key q
    else m.insert key (q ++ [{ sock with lastUsed := now }])

end IdleMap

structure ConnectionPool where
  plainIdle : IdleMap
  tlsIdle : IdleMap

namespace ConnectionPool

def empty : ConnectionPool := ⟨∅, ∅⟩

/-- `plain_idle_.size() + tls_idle_.size()`. -/
def endpoints (p : ConnectionPool) : Nat := p.plainIdle.size + p.tlsIdle.size

def takePlain (p : ConnectionPool) (key : EndpointKey) (now : Int) :
    ConnectionPool × Option IdleSocket :=
  let (m, sock) := p.plainIdle.take key now
  ({ p with plainIdle := m }, sock)

def takeTls (p : ConnectionPool) (key : EndpointKey) (now : Int) :
    ConnectionPool × Option IdleSocket :=
  let (m, sock) := p.tlsIdle.take key now
  ({ p with tlsIdle := m }, sock)

def returnPlain (p : ConnectionPool) (key : EndpointKey) (sock : Option IdleSocket) (now : Int) :
    ConnectionPool :=
  match sock with
  | none => p
  | some sock => { p with plainIdle := p.plainIdle.put p.endpoints key sock now }

def returnTls (p : ConnectionPool) (key : EndpointKey) (sock : Option IdleSocket) (now : Int) :
    ConnectionPool :=
  match sock with
  | none => p
  | some sock => { p with tlsIdle := p.tlsIdle.put p.endpoints key sock now }

inductive Call
  | takePlain (key : EndpointKey) (now : Int)
  | takeTls (key : EndpointKey) (now : Int)
  | returnPlain (key : EndpointKey) (sock : Option IdleSocket) (now : Int)
  | returnTls (key : EndpointKey) (sock : Option IdleSocket) (now : Int)

def step (p : ConnectionPool) : Call → ConnectionPool
  | .takePlain key now => (p.takePlain key now).1
  | .takeTls key now => (p.takeTls key now).1
  | .returnPlain key sock now => p.returnPlain key sock now
  | .returnTls key sock now => p.returnTls key sock now

/-- Every call holds the mutex throughout, so the pool's history is a sequence of calls. -/
def machine : Machine ConnectionPool Call where
  step p c := some (p.step c)

/-- The caps that the pool is to keep. -/
structure Capped (p : ConnectionPool) : Prop where
  endpoints : p.endpoints ≤ kMaxEndpoints
  plain : ∀ key q, p.plainIdle.lookup key = some q → q.length ≤ kMaxSocketsPerEndpoint
  tls : ∀ key q, p.tlsIdle.lookup key = some q → q.length ≤ kMaxSocketsPerEndpoint

/-- A socket is asked for at an endpoint that has an entry, or that there is room for. -/
def HasRoom (p : ConnectionPool) : Call → Prop
  | .takePlain key _ => key ∈ p.plainIdle ∨ p.endpoints < kMaxEndpoints
  | .takeTls key _ => key ∈ p.tlsIdle ∨ p.endpoints < kMaxEndpoints
  | _ => True

end ConnectionPool

/-! ### One map -/

namespace IdleMap

variable {m : IdleMap} {key : EndpointKey} {q : List IdleSocket} {now : Int}

/-- No endpoint has too many sockets. -/
def Sized (m : IdleMap) : Prop := ∀ key q, m.lookup key = some q → q.length ≤ kMaxSocketsPerEndpoint

theorem Sized.queue (h : m.Sized) (key : EndpointKey) :
    (m.queue key).length ≤ kMaxSocketsPerEndpoint := by
  unfold IdleMap.queue
  cases hq : m.lookup key with
  | none => simp
  | some q => exact h key q hq

theorem Sized.insert (h : m.Sized) (hq : q.length ≤ kMaxSocketsPerEndpoint) :
    IdleMap.Sized (m.insert key q) := by
  intro key' q' hlook
  by_cases hkey : key' = key
  · subst hkey
    rw [AList.lookup_insert] at hlook
    cases hlook
    exact hq
  · rw [AList.lookup_insert_ne hkey] at hlook
    exact h key' q' hlook

theorem Sized.take (h : m.Sized) (key : EndpointKey) (now : Int) : (m.take key now).1.Sized := by
  refine h.insert ?_
  have hprune : (prune now (m.queue key)).length ≤ (m.queue key).length :=
    (List.dropWhile_suffix _).sublist.length_le
  have hqueue := h.queue key
  rw [List.length_dropLast]
  omega

theorem Sized.put (h : m.Sized) (endpoints : Nat) (key : EndpointKey) (sock : IdleSocket) (now : Int) :
    (m.put endpoints key sock now).Sized := by
  unfold IdleMap.put
  split
  · exact h
  · dsimp only
    split
    · exact h.insert (h.queue key)
    · refine h.insert ?_
      rw [List.length_append, List.length_singleton]
      omega

theorem size_insert (m : IdleMap) (key : EndpointKey) (q : List IdleSocket) :
    IdleMap.size (m.insert key q) = if key ∈ m then m.size else m.size + 1 := by
  unfold IdleMap.size
  rw [AList.keys_insert, List.length_cons]
  split
  · rename_i hkey
    have hpos := List.length_pos_of_mem (AList.mem_keys.1 hkey)
    rw [List.length_erase_of_mem (AList.mem_keys.1 hkey)]
    omega
  · rename_i hkey
    rw [List.erase_of_not_mem hkey]

/-- A look makes an entry where there is none. -/
theorem size_take (m : IdleMap) (key : EndpointKey) (now : Int) :
    (m.take key now).1.size = if key ∈ m then m.size else m.size + 1 :=
  size_insert m key _

/-- With `others` entries in the other map, a look stays within the cap exactly when it finds an entry
or has room for one. -/
theorem size_take_le_iff {m : IdleMap} {others : Nat} (h : m.size + others ≤ kMaxEndpoints)
    (key : EndpointKey) (now : Int) :
    (m.take key now).1.size + others ≤ kMaxEndpoints ↔ key ∈ m ∨ m.size + others < kMaxEndpoints := by
  rw [size_take]
  split
  · simp [*]
  · simp only [false_or, *]
    omega

/-- A socket that comes back makes an entry only where there is room. -/
theorem size_put_le {m : IdleMap} {others : Nat} (h : m.size + others ≤ kMaxEndpoints)
    (key : EndpointKey) (sock : IdleSocket) (now : Int) :
    (m.put (m.size + others) key sock now).size + others ≤ kMaxEndpoints := by
  unfold IdleMap.put
  split
  · exact h
  · rename_i hroom
    dsimp only
    by_cases hkey : key ∈ m
    · split <;> rw [size_insert, if_pos hkey]
      all_goals exact h
    · have hlt : m.size + others < kMaxEndpoints := not_le.1 fun hfull => hroom ⟨hfull, hkey⟩
      split <;> rw [size_insert, if_neg hkey]
      all_goals omega

end IdleMap

/-! ### The pool -/

namespace ConnectionPool

variable {p p' : ConnectionPool} {c : Call} {t : List Call}

/-- Both maps keep to the cap on the sockets of an endpoint, whatever is called. -/
def Sized (p : ConnectionPool) : Prop := p.plainIdle.Sized ∧ p.tlsIdle.Sized

theorem Sized.step (h : p.Sized) (c : Call) : (p.step c).Sized := by
  obtain ⟨hp, ht⟩ := h
  cases c with
  | takePlain key now => exact ⟨hp.take key now, ht⟩
  | takeTls key now => exact ⟨hp, ht.take key now⟩
  | returnPlain key sock now =>
    cases sock with
    | none => exact ⟨hp, ht⟩
    | some sock => exact ⟨hp.put _ key sock now, ht⟩
  | returnTls key sock now =>
    cases sock with
    | none => exact ⟨hp, ht⟩
    | some sock => exact ⟨hp, ht.put _ key sock now⟩

/-- A pool within the cap stays within it exactly when the call has room. -/
theorem endpoints_step_le_iff (h : p.endpoints ≤ kMaxEndpoints) (c : Call) :
    (p.step c).endpoints ≤ kMaxEndpoints ↔ p.HasRoom c := by
  have h' : p.tlsIdle.size + p.plainIdle.size ≤ kMaxEndpoints := by
    rw [Nat.add_comm]
    exact h
  have hcomm : p.endpoints = p.tlsIdle.size + p.plainIdle.size := Nat.add_comm _ _
  cases c with
  | takePlain key now => exact IdleMap.size_take_le_iff h key now
  | takeTls key now =>
    show p.plainIdle.size + (p.tlsIdle.take key now).1.size ≤ kMaxEndpoints ↔ _
    rw [Nat.add_comm, IdleMap.size_take_le_iff h']
    unfold HasRoom
    rw [hcomm]
  | returnPlain key sock now =>
    refine iff_of_true ?_ trivial
    cases sock with
    | none => exact h
    | some sock => exact IdleMap.size_put_le h key sock now
  | returnTls key sock now =>
    refine iff_of_true ?_ trivial
    cases sock with
    | none => exact h
    | some sock =>
      show p.plainIdle.size + (p.tlsIdle.put p.endpoints key sock now).size ≤ kMaxEndpoints
      rw [hcomm, Nat.add_comm]
      exact IdleMap.size_put_le h' key sock now

theorem sized_runs (h : machine.Runs empty t p) : p.Sized := by
  refine h.invariant (I := Sized) ⟨?_, ?_⟩ ?_
  · intro key q hq
    cases hq
  · intro key q hq
    cases hq
  · rintro p c p' - hp hs
    cases hs
    exact hp.step c

theorem endpoints_le_of_steps (h : machine.Steps HasRoom empty t p) : p.endpoints ≤ kMaxEndpoints := by
  refine h.invariant (I := fun p => p.endpoints ≤ kMaxEndpoints) (by decide) ?_
  intro p c p' hroom hp hs
  cases hs
  exact (endpoints_step_le_iff hp c).2 hroom

/-- In any sequence of calls no endpoint ever has too many sockets, and the pool keeps all its caps
at every point exactly when every call that asks for a socket has room for its endpoint. -/
theorem pool_capped_iff (h : machine.Runs empty t p) :
    p.Sized ∧
    ((∀ t₁ t₂ p₁, t = t₁ ++ t₂ → machine.Runs empty t₁ p₁ → p₁.Capped) ↔
      machine.Steps HasRoom empty t p) := by
  refine ⟨sized_runs h, fun hall => ?_, ?_⟩
  · rcases h.guarded_or_break HasRoom with hroom | ⟨t₁, c, t₂, p₁, p₂, rfl, h₁, hfull, hs, -⟩
    · exact hroom
    · have h₂ : machine.Runs empty (t₁ ++ [c]) p₂ := .snoc h₁.runs trivial hs
      have hcap := hall (t₁ ++ [c]) t₂ p₂ (by simp) h₂
      have hle := (hall t₁ (c :: t₂) p₁ rfl h₁.runs).endpoints
      cases hs
      exact absurd ((endpoints_step_le_iff hle c).1 hcap.endpoints) hfull
  · rintro hroom t₁ t₂ p₁ rfl h₁
    obtain ⟨hplain, htls⟩ := sized_runs h₁
    exact ⟨endpoints_le_of_steps (hroom.of_append h₁), hplain, htls⟩

/-- One host, on many ports. -/
def hostAt (port : Nat) : EndpointKey := ⟨true, "tracker", toString port⟩

/-- A request to each of `n` endpoints: none has an idle socket, and none of them comes back. -/
def visits (n : Nat) : List Call := (List.range n).map fun port => .takeTls (hostAt port) 0

/-- A request at one endpoint, whose socket comes back and serves the next. -/
def keptAlive : List Call :=
  [.takeTls (hostAt 443) 0, .returnTls (hostAt 443) (some ⟨1, 0⟩) 5, .takeTls (hostAt 443) 9]

theorem pool_capped_keptAlive : ∃ p, machine.Runs empty keptAlive p ∧ p.Capped := by
  have hroom : machine.Steps HasRoom empty keptAlive _ :=
    .cons (.inr (by decide)) rfl (.cons trivial rfl (.cons (.inr (by decide)) rfl (.nil _)))
  have hrun := hroom.runs
  exact ⟨_, hrun, (pool_capped_iff hrun).2.2 hroom keptAlive [] _ (by simp) hrun⟩

theorem pool_overfull : ∃ p, machine.Runs empty (visits 33) p ∧ ¬p.Capped := by
  have hrun : (machine.run empty (visits 33)).map endpoints = some 33 := by decide +kernel
  obtain ⟨p, hp, hsize⟩ := Machine.exists_runs hrun
  refine ⟨p, hp, fun hcap => ?_⟩
  have hle := hcap.endpoints
  rw [hsize] at hle
  exact absurd hle (by decide)

end ConnectionPool

end Cmlb.Http
