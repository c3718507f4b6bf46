import Mathlib.Data.List.Perm.Subperm
import Cmlb.Http.ConnectionPool

/-!
# Idle sockets do not get stale (`prune_locked`)

`prune_locked` only looks at the front of a queue, and a socket is taken from its back. With a clock
that does not go back the sockets of a queue are in the order of their return, so what is left behind
the front is as fresh as the front: no socket is handed out later than `kIdleEviction` after its
return, and none more often than it was returned (`sockets_fresh`).
-/

open scoped List

namespace Cmlb.Http.ConnectionPool

/-- The idle sockets of one kind. -/
def idle (p : ConnectionPool) (tls : Bool) : IdleMap := if tls then p.tlsIdle else p.plainIdle

/-- What `steady_clock::now()` says in a call. -/
def Call.now : Call → Int
  | .takePlain _ now | .takeTls _ now | .returnPlain _ _ now | .returnTls _ _ now => now

/-- The sockets of an endpoint that a call hands out. -/
def handedAt (tls : Bool) (key : EndpointKey) (p : ConnectionPool) : Call → List IdleSocket
  | .takePlain key' now => if tls = false ∧ key' = key then (p.takePlain key' now).2.toList else []
  | .takeTls key' now => if tls = true ∧ key' = key then (p.takeTls key' now).2.toList else []
  | _ => []

/-- The sockets of an endpoint that a call gives back, with the time. -/
def returnedAt (tls : Bool) (key : EndpointKey) (_ : ConnectionPool) : Call → List IdleSocket
  | .returnPlain key' (some sock) now =>
    if tls = false ∧ key' = key then [{ sock with lastUsed := now }] else []
  | .returnTls key' (some sock) now =>
    if tls = true ∧ key' = key then [{ sock with lastUsed := now }] else []
  | _ => []

/-- Sockets in the order of their return. -/
def Ordered (q : List IdleSocket) : Prop := q.Pairwise fun a b => a.lastUsed ≤ b.lastUsed

/-- What a call at the time `now` does to the queue of an endpoint: `out` is handed out, `back` is given
back. -/
inductive QueueStep (now : Int) (q : List IdleSocket) :
    List IdleSocket → List IdleSocket → List IdleSocket → Prop
  | keep (back : List IdleSocket) : QueueStep now q [] back q
  | take : QueueStep now q (IdleMap.prune now q).getLast?.toList [] (IdleMap.prune now q).dropLast
  | put (stream : Nat) : QueueStep now q [] [⟨stream, now⟩] (q ++ [⟨stream, now⟩])

section Queue

variable {m : IdleMap} {key key' : EndpointKey} {q q' out back : List IdleSocket} {now : Int}

theorem queue_insert_self (m : IdleMap) (key : EndpointKey) (q : List IdleSocket) :
    IdleMap.queue (m.insert key q) key = q := by
  simp [IdleMap.queue]

theorem queue_insert_ne (m : IdleMap) (q : List IdleSocket) (h : key' ≠ key) :
    IdleMap.queue (m.insert key q) key' = m.queue key' := by
  simp [IdleMap.queue, h]

theorem step_take (m : IdleMap) (key key' : EndpointKey) (now : Int) :
    QueueStep now (m.queue key) (if key' = key then (m.take key' now).2.toList else []) []
      ((m.take key' now).1.queue key) := by
  by_cases hkey : key' = key
  · subst hkey
    rw [if_pos rfl]
    simp only [IdleMap.take, queue_insert_self]
    exact .take
  · rw [if_neg hkey]
    simp only [IdleMap.take, queue_insert_ne _ _ (Ne.symm hkey)]
    exact .keep []

theorem step_put (m : IdleMap) (endpoints : Nat) (key key' : EndpointKey) (sock : IdleSocket) (now : Int) :
    QueueStep now (m.queue key) [] (if key' = key then [{ sock with lastUsed := now }] else [])
      ((m.put endpoints key' sock now).queue key) := by
  by_cases hkey : key' = key
  · subst hkey
    rw [if_pos rfl]
    unfold IdleMap.put
    split
    · exact .keep _
    · dsimp only
      split
      · rw [queue_insert_self]
        exact .keep _
      · rw [queue_insert_self]
        exact .put sock.stream
  · rw [if_neg hkey]
    have hsame : (m.put endpoints key' sock now).queue key = m.queue key := by
      unfold IdleMap.put
      split
      · rfl
      · dsimp only
        split <;> exact queue_insert_ne _ _ (Ne.symm hkey)
    rw [hsame]
    exact .keep []

theorem step_queue (p : ConnectionPool) (c : Call) (tls : Bool) (key : EndpointKey) :
    QueueStep c.now ((p.idle tls).queue key) (handedAt tls key p c) (returnedAt tls key p c)
      (((p.step c).idle tls).queue key) := by
  cases c with
  | takePlain key' now =>
    cases tls with
    | false =>
      simp only [handedAt, true_and]
      exact step_take p.plainIdle key key' now
    | true => exact .keep []
  | takeTls key' now =>
    cases tls with
    | false => exact .keep []
    | true =>
      simp only [handedAt, true_and]
      exact step_take p.tlsIdle key key' now
  | returnPlain key' sock now =>
    cases sock with
    | none => exact .keep []
    | some sock =>
      cases tls with
      | false =>
        simp only [returnedAt, true_and]
        exact step_put p.plainIdle p.endpoints key key' sock now
      | true => exact .keep _
  | returnTls key' sock now =>
    cases sock with
    | none => exact .keep []
    | some sock =>
      cases tls with
      | false => exact .keep _
      | true =>
        simp only [returnedAt, true_and]
        exact step_put p.tlsIdle p.endpoints key key' sock now

/-- Where the front is fresh, all is. -/
theorem Ordered.prune_fresh (h : Ordered q) : ∀ sock ∈ IdleMap.prune now q, now - sock.lastUsed ≤ kIdleEviction := by
  induction q with
  | nil => simp [IdleMap.prune]
  | cons front q ih =>
    obtain ⟨hfront, hq⟩ := List.pairwise_cons.1 h
    unfold IdleMap.prune
    rw [List.dropWhile_cons]
    split
    · exact ih hq
    · rename_i hfresh
      have hle : now - front.lastUsed ≤ kIdleEviction := by
        simp only [decide_eq_true_eq] at hfresh
        omega
      intro sock hsock
      rcases List.mem_cons.1 hsock with rfl | hsock
      · exact hle
      · have hafter := hfront sock hsock
        omega

theorem QueueStep.fresh (hs : QueueStep now q out back q') (h : Ordered q) :
    ∀ sock ∈ out, now - sock.lastUsed ≤ kIdleEviction := by
  cases hs with
  | keep | put =>
    intro sock hsock
    cases hsock
  | take =>
    intro sock hsock
    exact h.prune_fresh sock (List.mem_of_getLast? (Option.mem_toList.1 hsock))

/-- No socket comes from anywhere else. -/
theorem QueueStep.subperm (hs : QueueStep now q out back q') : (out ++ q') <+~ (q ++ back) := by
  cases hs with
  | keep back => exact (List.sublist_append_left q back).subperm
  | put stream => exact List.Subperm.refl _
  | take =>
    rw [List.append_nil]
    have hlast : (IdleMap.prune now q).getLast?.toList ++ (IdleMap.prune now q).dropLast ~
        IdleMap.prune now q := by
      cases hq : (IdleMap.prune now q).getLast? with
      | none => simp [List.getLast?_eq_none_iff.1 hq]
      | some sock =>
        refine List.perm_append_comm.trans ?_
        rw [Option.toList_some, List.dropLast_append_getLast? sock hq]
    exact hlast.subperm.trans (List.dropWhile_suffix _).sublist.subperm

theorem QueueStep.inv (hs : QueueStep now q out back q') (h : Ordered q)
    (hpast : ∀ sock ∈ q, sock.lastUsed ≤ now) : Ordered q' ∧ ∀ sock ∈ q', sock.lastUsed ≤ now := by
  cases hs with
  | keep => exact ⟨h, hpast⟩
  | take =>
    have hsub : ((IdleMap.prune now q).dropLast).Sublist q :=
      (List.dropLast_sublist _).trans (List.dropWhile_suffix _).sublist
    exact ⟨List.Pairwise.sublist hsub h, fun sock hsock => hpast sock (hsub.subset hsock)⟩
  | put stream =>
    constructor
    · refine List.pairwise_append.2 ⟨h, List.pairwise_singleton _ _, ?_⟩
      intro a ha b hb
      rw [List.mem_singleton.1 hb]
      exact hpast a ha
    · intro sock hsock
      rcases List.mem_append.1 hsock with hsock | hsock
      · exact hpast sock hsock
      · exact Int.le_of_eq (congrArg IdleSocket.lastUsed (List.mem_singleton.1 hsock))

end Queue

/-! ### Runs -/

variable {p : ConnectionPool} {t : List Call} {tls : Bool} {key : EndpointKey}

theorem empty_queue (tls : Bool) (key : EndpointKey) : (empty.idle tls).queue key = [] := by
  cases tls <;> rfl

/-- No socket was returned later than the calls say. -/
theorem ordered_runs (h : machine.Runs empty t p) (hclock : (t.map Call.now).Pairwise (· ≤ ·)) :
    Ordered ((p.idle tls).queue key) ∧
      ∀ now, (∀ c ∈ t, c.now ≤ now) → ∀ sock ∈ (p.idle tls).queue key, sock.lastUsed ≤ now := by
  induction h with
  | nil =>
    rw [empty_queue]
    exact ⟨.nil, fun _ _ sock hsock => by cases hsock⟩
  | @snoc p p' t c h _ hs ih =>
    cases hs
    rw [List.map_append, List.pairwise_append] at hclock
    obtain ⟨hclock, -, hlast⟩ := hclock
    obtain ⟨hord, hpast⟩ := ih hclock
    have hbefore : ∀ c' ∈ t, c'.now ≤ c.now := fun c' hc' =>
      hlast c'.now (List.mem_map_of_mem hc') c.now List.mem_cons_self
    obtain ⟨hord', hle⟩ := (step_queue p c tls key).inv hord (hpast c.now hbefore)
    refine ⟨hord', fun now hnow sock hsock => Int.le_trans (hle sock hsock) ?_⟩
    exact hnow c (List.mem_append_right _ List.mem_cons_self)

theorem handed_subperm (h : machine.Runs empty t p) :
    (machine.trail (handedAt tls key) empty t ++ (p.idle tls).queue key) <+~
      machine.trail (returnedAt tls key) empty t := by
  induction h with
  | nil =>
    rw [empty_queue]
    exact List.Subperm.refl _
  | @snoc p p' t c h _ hs ih =>
    cases hs
    rw [h.trail_snoc, h.trail_snoc, List.append_assoc]
    refine ((List.subperm_append_left _).2 (step_queue p c tls key).subperm).trans ?_
    rw [← List.append_assoc]
    exact (List.subperm_append_right _).2 ih

/-- In any sequence of calls with a clock that does not go back, the sockets of every endpoint wait in
the order of their return, a socket that is handed out was returned at most `kIdleEviction` ago, and
at any point every socket was handed out at most as often as it was returned. -/
theorem sockets_fresh (h : machine.Runs empty t p) (hclock : (t.map Call.now).Pairwise (· ≤ ·))
    (tls : Bool) (key : EndpointKey) :
    Ordered ((p.idle tls).queue key) ∧
    (∀ t₁ c t₂ p₁, t = t₁ ++ c :: t₂ → machine.Runs empty t₁ p₁ →
      ∀ sock ∈ handedAt tls key p₁ c, c.now - sock.lastUsed ≤ kIdleEviction) ∧
    machine.trail (handedAt tls key) empty t <+~ machine.trail (returnedAt tls key) empty t := by
  refine ⟨(ordered_runs h hclock).1, ?_, ?_⟩
  · rintro t₁ c t₂ p₁ rfl h₁
    rw [List.map_append, List.pairwise_append] at hclock
    exact (step_queue p₁ c tls key).fresh (ordered_runs h₁ hclock.1).1
  · exact (List.sublist_append_left _ _).subperm.trans (handed_subperm h)

/-- A socket that comes back in time, and one that comes back too late. -/
def twoReturns : List Call :=
  [.returnTls (hostAt 443) (some ⟨1, 0⟩) 5, .returnTls (hostAt 443) (some ⟨2, 0⟩) 60000000000,
    .takeTls (hostAt 443) 60000000009, .takeTls (hostAt 443) 60000000009]

theorem sockets_fresh_twoReturns : ∃ p, machine.Runs empty twoReturns p ∧
    (∀ t₁ c t₂ p₁, twoReturns = t₁ ++ c :: t₂ → machine.Runs empty t₁ p₁ →
      ∀ sock ∈ handedAt true (hostAt 443) p₁ c, c.now - sock.lastUsed ≤ kIdleEviction) ∧
    machine.trail (handedAt true (hostAt 443)) empty twoReturns = [⟨2, 60000000000⟩] := by
  have hrun : machine.Runs empty twoReturns _ :=
    .cons trivial rfl (.cons trivial rfl (.cons trivial rfl (.cons trivial rfl (.nil _))))
  obtain ⟨-, hfresh, -⟩ := sockets_fresh hrun (by decide) true (hostAt 443)
  exact ⟨_, hrun, hfresh, by decide⟩

end Cmlb.Http.ConnectionPool
