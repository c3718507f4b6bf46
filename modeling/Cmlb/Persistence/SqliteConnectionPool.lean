import Mathlib.Logic.Function.Basic
import Mathlib.Data.List.Nodup
import Mathlib.Data.List.Range
import Mathlib.Data.List.Perm.Subperm
import Cmlb.Lib.Machine

/-!
# The connection pool (`sqlite_connection_pool.hpp`, `sqlite_connection_pool.cpp`)

The slots `0 … n - 1` go round between the free channel, the calls of `acquire` and the handles. A
handle is an object at an address `i : ι`; it is moved, assigned and destroyed there. A call
`c : κ` of `acquire` takes a slot out of the channel or waits for one, and in both cases goes on
later, with the slot that is on its way to it (`arriving`).

`Placed p loc`: every slot is at one place, and `loc` says where. Every operation moves at most the
slots it names, so no slot is ever lost or at two places (`slots_conserved`).
-/

namespace Cmlb.Persistence

/-- `std::numeric_limits<std::size_t>::max()`. -/
def kInvalidSlot : Nat := 18446744073709551615

/-- `SqliteConnectionHandle`. `pool`: the pointer is not null; `db`: the connection's index. -/
structure Handle where
  pool : Bool
  slot : Nat
  db : Option Nat
deriving DecidableEq, Repr

def Handle.empty : Handle := ⟨false, kInvalidSlot, none⟩

/-- `release_` has a slot to return. -/
def Handle.owns (h : Handle) : Bool := h.pool && h.slot != kInvalidSlot

/-- The slot that the handle gives back when it is released. -/
def Handle.lent (h : Handle) : Option Nat := if h.owns then some h.slot else none

structure Pool (ι κ : Type) where
  buffer : List Nat
  waiters : List κ
  arriving : κ → Option Nat
  handles : ι → Option Handle

namespace Pool

variable {ι κ : Type} [DecidableEq ι] [DecidableEq κ]

def setHandle (p : Pool ι κ) (i : ι) (h : Option Handle) : Pool ι κ :=
  { p with handles := Function.update p.handles i h }

def setArriving (p : Pool ι κ) (c : κ) (slot : Option Nat) : Pool ι κ :=
  { p with arriving := Function.update p.arriving c slot }

/-- `return_slot_`. A slot that finds the channel full is dropped. -/
def returnSlot (n : Nat) (p : Pool ι κ) (slot : Nat) : Pool ι κ :=
  match p.waiters with
  | c :: rest => { p with waiters := rest }.setArriving c (some slot)
  | [] => if p.buffer.length < n then { p with buffer := p.buffer ++ [slot] } else p

/-- The constructor: every slot is sent to the empty channel. -/
def start (n : Nat) : Pool ι κ :=
  (List.range n).foldl (returnSlot n) ⟨[], [], fun _ => none, fun _ => none⟩

/-- `release_` of the handle `h` at `i`. -/
def release (n : Nat) (p : Pool ι κ) (i : ι) (h : Handle) : Pool ι κ :=
  (if h.owns then p.returnSlot n h.slot else p).setHandle i (some .empty)

/-- `h` moves from `src` to `dst`; what is left at `src` is empty. -/
def moveHandle (p : Pool ι κ) (dst src : ι) (h : Handle) : Pool ι κ :=
  (p.setHandle dst (some h)).setHandle src (some .empty)

inductive Op (ι κ : Type)
  | acquire (c : κ)
  -- The call goes on with its slot, and its handle is at `dst`
  | acquired (c : κ) (dst : ι)
  | cancel (c : κ)
  | construct (dst : ι)
  | moveConstruct (dst src : ι)
  | moveAssign (dst src : ι)
  | destroy (i : ι)

def acquire (p : Pool ι κ) (c : κ) : Pool ι κ :=
  match p.buffer with
  | slot :: rest => { p with buffer := rest }.setArriving c (some slot)
  | [] => { p with waiters := p.waiters ++ [c] }

def acquired (n : Nat) (p : Pool ι κ) (c : κ) (slot : Nat) (dst : ι) : Pool ι κ :=
  let p := p.setArriving c none
  -- `connections_.at(slot)` throws where there is no such connection
  if slot < n then p.setHandle dst (some ⟨true, slot, some slot⟩) else p

def moveAssign (n : Nat) (p : Pool ι κ) (dst src : ι) (old new : Handle) : Pool ι κ :=
  if dst = src then p else (p.release n dst old).moveHandle dst src new

def step (n : Nat) (p : Pool ι κ) : Op ι κ → Option (Pool ι κ)
  | .acquire c => if c ∉ p.waiters ∧ p.arriving c = none then some (p.acquire c) else none
  | .acquired c dst =>
    match p.arriving c, p.handles dst with
    | some slot, none => some (p.acquired n c slot dst)
    | _, _ => none
  | .cancel c => if c ∈ p.waiters then some { p with waiters := p.waiters.erase c } else none
  | .construct dst => if p.handles dst = none then some (p.setHandle dst (some .empty)) else none
  | .moveConstruct dst src =>
    match p.handles dst, p.handles src with
    | none, some h => some (p.moveHandle dst src h)
    | _, _ => none
  | .moveAssign dst src =>
    match p.handles dst, p.handles src with
    | some old, some new => some (p.moveAssign n dst src old new)
    | _, _ => none
  | .destroy i =>
    match p.handles i with
    | some h => some ((p.release n i h).setHandle i none)
    | none => none

def machine (n : Nat) : Machine (Pool ι κ) (Op ι κ) where
  step := step n

/-- The slot that the handle at `i` has borrowed. -/
def owned (p : Pool ι κ) (i : ι) : Option Nat := (p.handles i).bind Handle.lent

/-! ### Where the slots are -/

inductive Place (ι κ : Type)
  | free
  | call (c : κ)
  | handle (i : ι)
  -- Between two places
  | nowhere

omit [DecidableEq ι] [DecidableEq κ] in
theorem call_injective : Function.Injective (Place.call : κ → Place ι κ) :=
  fun _ _ h => Place.call.inj h

omit [DecidableEq ι] [DecidableEq κ] in
theorem handle_injective : Function.Injective (Place.handle : ι → Place ι κ) :=
  fun _ _ h => Place.handle.inj h

/-- The holders `a`, whose places are `P a`, have what `f` says. -/
def Holds {α : Type} (n : Nat) (loc : Nat → Place ι κ) (P : α → Place ι κ) (f : α → Option Nat) : Prop :=
  ∀ a slot, f a = some slot ↔ slot < n ∧ loc slot = P a

structure Placed (n : Nat) (p : Pool ι κ) (loc : Nat → Place ι κ) : Prop where
  nodup : p.buffer.Nodup
  mem_buffer : ∀ slot, slot ∈ p.buffer ↔ slot < n ∧ loc slot = .free
  arriving : Holds n loc .call p.arriving
  owned : Holds n loc .handle p.owned
  -- A handle has the connection of its slot, or none
  db : ∀ i h, p.handles i = some h → h.db = h.lent
  waiting : p.waiters.Nodup
  idle : ∀ c ∈ p.waiters, p.arriving c = none

variable {n slot : Nat} {p p' : Pool ι κ} {loc : Nat → Place ι κ} {c : κ} {i dst src : ι} {h : Handle}

namespace Holds

variable {α : Type} {P : α → Place ι κ} {f : α → Option Nat} {a : α} {place : Place ι κ}

omit [DecidableEq ι] [DecidableEq κ]

theorem enter [DecidableEq α] (h : Holds n loc P f) (hP : Function.Injective P) (hslot : slot < n)
    (hloc : ∀ b, loc slot ≠ P b) (ha : f a = none) :
    Holds n (Function.update loc slot (P a)) P (Function.update f a (some slot)) := by
  intro b s
  have hb := h b s
  by_cases hba : b = a <;> by_cases hs : s = slot
  · simp [hba, hs, hslot]
  · subst hba
    simpa [hs, Ne.symm hs, ha] using hb
  · subst hs
    simpa [hba, hP.ne (Ne.symm hba), hloc b] using hb
  · simpa [hba, hs] using hb

theorem leave [DecidableEq α] (h : Holds n loc P f) (hP : Function.Injective P) (hplace : ∀ b, place ≠ P b)
    (ha : f a = some slot) : Holds n (Function.update loc slot place) P (Function.update f a none) := by
  intro b s
  have hb := h b s
  have hloc := (h a slot).1 ha
  by_cases hba : b = a <;> by_cases hs : s = slot
  · simp [hba, hs, hplace a]
  · subst hba
    rw [ha] at hb
    simpa [hs, Ne.symm hs] using hb
  · subst hs
    rw [hloc.2] at hb
    simpa [hba, hplace b, hP.ne (Ne.symm hba)] using hb
  · simpa [hba, hs] using hb

/-- The slot moves between places of others. -/
theorem other (h : Holds n loc P f) (hloc : ∀ b, loc slot ≠ P b) (hplace : ∀ b, place ≠ P b) :
    Holds n (Function.update loc slot place) P f := by
  intro b s
  have hb := h b s
  by_cases hs : s = slot
  · subst hs
    simpa [hplace b, hloc b] using hb
  · simpa [hs] using hb

end Holds

omit [DecidableEq κ] in
theorem owned_setHandle (p : Pool ι κ) (i : ι) (o : Option Handle) :
    (p.setHandle i o).owned = Function.update p.owned i (o.bind Handle.lent) := by
  funext j
  unfold owned setHandle
  simp only [Function.update_apply]
  split <;> rfl

namespace Placed

omit [DecidableEq ι] [DecidableEq κ] in
/-- There is room in the channel for a slot that is not there. -/
theorem length_lt (hp : Placed n p loc) (hslot : slot < n) (hfree : loc slot ≠ .free) :
    p.buffer.length < n := by
  have hnodup : (slot :: p.buffer).Nodup :=
    List.nodup_cons.2 ⟨fun hmem => hfree ((hp.mem_buffer slot).1 hmem).2, hp.nodup⟩
  have hsub : slot :: p.buffer ⊆ List.range n := by
    intro s hs
    rw [List.mem_range]
    rcases List.mem_cons.1 hs with rfl | hs
    · exact hslot
    · exact ((hp.mem_buffer s).1 hs).1
  have hle := (List.subperm_of_subset hnodup hsub).length_le
  rw [List.length_cons, List.length_range] at hle
  exact hle

omit [DecidableEq ι] [DecidableEq κ] in
/-- What happens to a slot that is not in the channel is nothing to the channel. -/
theorem free_other (hp : Placed n p loc) (hloc : loc slot ≠ .free) {place : Place ι κ}
    (hplace : place ≠ .free) :
    ∀ s, s ∈ p.buffer ↔ s < n ∧ Function.update loc slot place s = .free := by
  intro s
  have hs := hp.mem_buffer s
  by_cases hss : s = slot
  · subst hss
    simpa [hplace, hloc] using hs
  · simpa [hss] using hs

omit [DecidableEq ι] [DecidableEq κ] in
theorem takeFree {rest : List Nat} (hp : Placed n p loc) (hb : p.buffer = slot :: rest) :
    Placed n { p with buffer := rest } (Function.update loc slot .nowhere) ∧ slot < n := by
  have hhead := (hp.mem_buffer slot).1 (by rw [hb]; exact List.mem_cons_self)
  have hnodup := hp.nodup
  rw [hb, List.nodup_cons] at hnodup
  refine ⟨⟨hnodup.2, ?_, hp.arriving.other (by simp [hhead.2]) (by simp),
    hp.owned.other (by simp [hhead.2]) (by simp), hp.db, hp.waiting, hp.idle⟩, hhead.1⟩
  intro s
  have hs := hp.mem_buffer s
  rw [hb, List.mem_cons] at hs
  by_cases hss : s = slot
  · subst hss
    simpa using hnodup.1
  · simpa [hss] using hs

omit [DecidableEq ι] in
theorem takeArriving (hp : Placed n p loc) (hc : p.arriving c = some slot) :
    Placed n (p.setArriving c none) (Function.update loc slot .nowhere) := by
  have hloc := ((hp.arriving c slot).1 hc).2
  refine ⟨hp.nodup, hp.free_other (by simp [hloc]) (by simp),
    hp.arriving.leave call_injective (by simp) hc, hp.owned.other (by simp [hloc]) (by simp), hp.db,
    hp.waiting, ?_⟩
  intro c' hc'
  have hidle := hp.idle c' hc'
  by_cases hcc : c' = c
  · simp [setArriving, hcc]
  · simpa [setArriving, hcc] using hidle

omit [DecidableEq ι] [DecidableEq κ] in
theorem putFree (hp : Placed n p loc) (hslot : slot < n) (hloc : loc slot = .nowhere) :
    Placed n { p with buffer := p.buffer ++ [slot] } (Function.update loc slot .free) := by
  have hnew : slot ∉ p.buffer := by
    rw [hp.mem_buffer, hloc]
    simp
  refine ⟨?_, ?_, hp.arriving.other (by simp [hloc]) (by simp),
    hp.owned.other (by simp [hloc]) (by simp), hp.db, hp.waiting, hp.idle⟩
  · exact List.Nodup.append hp.nodup (List.nodup_singleton slot) (by simpa using hnew)
  · intro s
    have hs := hp.mem_buffer s
    by_cases hss : s = slot
    · simp [hss, hslot]
    · simpa [hss] using hs

omit [DecidableEq ι] in
theorem putArriving (hp : Placed n p loc) (hslot : slot < n) (hloc : loc slot = .nowhere)
    (hc : p.arriving c = none) (hidle : c ∉ p.waiters) :
    Placed n (p.setArriving c (some slot)) (Function.update loc slot (.call c)) := by
  refine ⟨hp.nodup, hp.free_other (by simp [hloc]) (by simp),
    hp.arriving.enter call_injective hslot (by simp [hloc]) hc,
    hp.owned.other (by simp [hloc]) (by simp), hp.db, hp.waiting, ?_⟩
  intro c' hc'
  have hcc : c' ≠ c := fun hcc => hidle (hcc ▸ hc')
  simpa [setArriving, hcc] using hp.idle c' hc'

omit [DecidableEq κ] in
theorem db_setHandle (hp : Placed n p loc) {o : Option Handle} (ho : ∀ h, o = some h → h.db = h.lent) :
    ∀ j h, (p.setHandle i o).handles j = some h → h.db = h.lent := by
  intro j h hj
  by_cases hji : j = i
  · subst hji
    exact ho h (by simpa [setHandle] using hj)
  · exact hp.db j h (by simpa [setHandle, hji] using hj)

omit [DecidableEq κ] in
/-- The handle at `i` loses its slot. -/
theorem takeHandle (hp : Placed n p loc) (hi : p.owned i = some slot) {o : Option Handle}
    (ho : o.bind Handle.lent = none) (hdb : ∀ h, o = some h → h.db = h.lent) :
    Placed n (p.setHandle i o) (Function.update loc slot .nowhere) := by
  have hloc := ((hp.owned i slot).1 hi).2
  refine ⟨hp.nodup, hp.free_other (by simp [hloc]) (by simp), hp.arriving.other (by simp [hloc]) (by simp),
    ?_, hp.db_setHandle hdb, hp.waiting, hp.idle⟩
  rw [owned_setHandle, ho]
  exact hp.owned.leave handle_injective (by simp) hi

omit [DecidableEq κ] in
/-- The handle at `i` has no slot, before and after. -/
theorem setHandle (hp : Placed n p loc) (hi : p.owned i = none) {o : Option Handle}
    (ho : o.bind Handle.lent = none) (hdb : ∀ h, o = some h → h.db = h.lent) :
    Placed n (p.setHandle i o) loc := by
  refine ⟨hp.nodup, hp.mem_buffer, hp.arriving, ?_, hp.db_setHandle hdb, hp.waiting, hp.idle⟩
  rw [owned_setHandle, ho, ← hi, Function.update_eq_self]
  exact hp.owned

omit [DecidableEq κ] in
theorem putHandle (hp : Placed n p loc) (hslot : slot < n) (hloc : loc slot = .nowhere)
    (hi : p.owned i = none) (hh : h.lent = some slot) (hdb : h.db = h.lent) :
    Placed n (p.setHandle i (some h)) (Function.update loc slot (.handle i)) := by
  refine ⟨hp.nodup, hp.free_other (by simp [hloc]) (by simp), hp.arriving.other (by simp [hloc]) (by simp),
    ?_, hp.db_setHandle ?_, hp.waiting, hp.idle⟩
  · rw [owned_setHandle, Option.bind_some, hh]
    exact hp.owned.enter handle_injective hslot (by simp [hloc]) hi
  · rintro h' ⟨⟩
    exact hdb

omit [DecidableEq ι] [DecidableEq κ] in
theorem setWaiters (hp : Placed n p loc) {ws : List κ} (hws : ws.Nodup)
    (hidle : ∀ c ∈ ws, p.arriving c = none) : Placed n { p with waiters := ws } loc :=
  ⟨hp.nodup, hp.mem_buffer, hp.arriving, hp.owned, hp.db, hws, hidle⟩

omit [DecidableEq ι] in
/-- A slot on its way back goes to the first call that waits, or else to the channel. -/
theorem returnSlot (hp : Placed n p loc) (hslot : slot < n) (hloc : loc slot = .nowhere) :
    ∃ place, place ≠ .nowhere ∧ Placed n (p.returnSlot n slot) (Function.update loc slot place) := by
  have hroom := hp.length_lt hslot (by simp [hloc])
  unfold Pool.returnSlot
  cases hw : p.waiters with
  | nil =>
    refine ⟨.free, by simp, ?_⟩
    simp only [hroom, if_true, ← hw]
    exact hp.putFree hslot hloc
  | cons c rest =>
    refine ⟨.call c, by simp, ?_⟩
    have hwaiting := hp.waiting
    have hidle := hp.idle
    rw [hw] at hwaiting hidle
    obtain ⟨hc, hrest⟩ := List.nodup_cons.1 hwaiting
    have hp' := hp.setWaiters hrest fun c' hc' => hidle c' (List.mem_cons_of_mem c hc')
    exact hp'.putArriving hslot hloc (hidle c List.mem_cons_self) hc

end Placed

/-! ### The operations -/

/-- Every slot has a place. -/
def Conserved (n : Nat) (p : Pool ι κ) : Prop :=
  ∃ loc, Placed n p loc ∧ ∀ slot < n, loc slot ≠ .nowhere

omit [DecidableEq ι] [DecidableEq κ] in
theorem Placed.conserved {place : Place ι κ}
    (hp : Placed n p (Function.update (Function.update loc slot .nowhere) slot place))
    (hloc : ∀ s < n, loc s ≠ .nowhere) (hplace : place ≠ .nowhere) : Conserved n p := by
  refine ⟨_, hp, fun s hs => ?_⟩
  rw [Function.update_idem]
  by_cases hss : s = slot
  · simp [hss, hplace]
  · simpa [hss] using hloc s hs

omit [DecidableEq κ] in
theorem setHandle_comm (p : Pool ι κ) (hne : dst ≠ src) (o o' : Option Handle) :
    (p.setHandle dst o).setHandle src o' = (p.setHandle src o').setHandle dst o := by
  unfold setHandle
  rw [Function.update_comm hne]

theorem returnSlot_setHandle (p : Pool ι κ) (o : Option Handle) :
    (p.returnSlot n slot).setHandle i o = (p.setHandle i o).returnSlot n slot := by
  obtain ⟨buffer, waiters, arriving, handles⟩ := p
  cases waiters with
  | cons c rest => rfl
  | nil =>
    unfold returnSlot setHandle
    dsimp only
    split <;> rfl

theorem db_empty : ∀ h, some Handle.empty = some h → h.db = h.lent := by
  rintro h ⟨⟩
  rfl

omit [DecidableEq ι] [DecidableEq κ] in
theorem owned_of_handles (hi : p.handles i = some h) : p.owned i = h.lent := by
  simp [owned, hi]

namespace Conserved

omit [DecidableEq ι] in
theorem acquire (hp : Conserved n p) (hc : c ∉ p.waiters ∧ p.arriving c = none) :
    Conserved n (p.acquire c) := by
  obtain ⟨loc, hp, hloc⟩ := hp
  unfold Pool.acquire
  split
  · rename_i slot rest hb
    obtain ⟨hp', hslot⟩ := hp.takeFree hb
    exact (hp'.putArriving hslot (by simp) hc.2 hc.1).conserved hloc (by simp)
  · have hnodup : (p.waiters ++ [c]).Nodup :=
      List.Nodup.append hp.waiting (List.nodup_singleton c) (by simpa using hc.1)
    have hidle : ∀ c' ∈ p.waiters ++ [c], p.arriving c' = none := by
      intro c' hc'
      rcases List.mem_append.1 hc' with hc' | hc'
      · exact hp.idle c' hc'
      · rw [List.mem_singleton.1 hc']
        exact hc.2
    exact ⟨loc, hp.setWaiters hnodup hidle, hloc⟩

theorem acquired (hn : n ≤ kInvalidSlot) (hp : Conserved n p) (hc : p.arriving c = some slot)
    (hdst : p.handles dst = none) : Conserved n (p.acquired n c slot dst) := by
  obtain ⟨loc, hp, hloc⟩ := hp
  have hslot := ((hp.arriving c slot).1 hc).1
  have hlent : Handle.lent ⟨true, slot, some slot⟩ = some slot := by
    have hvalid : slot ≠ kInvalidSlot := by omega
    simp [Handle.lent, Handle.owns, hvalid]
  unfold Pool.acquired
  simp only [hslot, if_true]
  have hnone : (p.setArriving c none).owned dst = none := by
    show (p.handles dst).bind Handle.lent = none
    rw [hdst]
    rfl
  exact ((hp.takeArriving hc).putHandle hslot (by simp) hnone hlent hlent.symm).conserved hloc (by simp)

theorem release (hp : Conserved n p) (hi : p.handles i = some h) : Conserved n (p.release n i h) := by
  obtain ⟨loc, hp, hloc⟩ := hp
  have howned := owned_of_handles hi
  unfold Pool.release
  by_cases howns : h.owns = true
  · have hlent : h.lent = some h.slot := if_pos howns
    rw [hlent] at howned
    have hslot := ((hp.owned i h.slot).1 howned).1
    rw [if_pos howns, returnSlot_setHandle]
    obtain ⟨place, hplace, hp'⟩ :=
      (hp.takeHandle howned (o := some .empty) rfl db_empty).returnSlot hslot (by simp)
    exact hp'.conserved hloc hplace
  · have hlent : h.lent = none := if_neg howns
    rw [hlent] at howned
    rw [if_neg howns]
    exact ⟨loc, hp.setHandle howned rfl db_empty, hloc⟩

omit [DecidableEq κ] in
theorem moveHandle (hp : Conserved n p) (hne : dst ≠ src) (hdst : p.owned dst = none)
    (hsrc : p.handles src = some h) : Conserved n (p.moveHandle dst src h) := by
  obtain ⟨loc, hp, hloc⟩ := hp
  have howned := owned_of_handles hsrc
  have hdb := hp.db src h hsrc
  unfold Pool.moveHandle
  rw [setHandle_comm p hne]
  have hdst' : (p.setHandle src (some .empty)).owned dst = none := by
    rw [owned_setHandle, Function.update_of_ne hne]
    exact hdst
  cases hlent : h.lent with
  | none =>
    rw [hlent] at howned
    have hp' := hp.setHandle howned (o := some .empty) rfl db_empty
    refine ⟨loc, hp'.setHandle hdst' hlent ?_, hloc⟩
    rintro h' ⟨⟩
    exact hdb
  | some slot =>
    rw [hlent] at howned
    have hslot := ((hp.owned src slot).1 howned).1
    have hp' := hp.takeHandle howned (o := some .empty) rfl db_empty
    exact (hp'.putHandle hslot (by simp) hdst' hlent hdb).conserved hloc (by simp)

omit [DecidableEq ι] [DecidableEq κ] in
theorem erase (hp : Conserved n p) {waiters : List κ} (hw : waiters.Sublist p.waiters) :
    Conserved n { p with waiters := waiters } := by
  obtain ⟨loc, hp, hloc⟩ := hp
  exact ⟨loc, hp.setWaiters (hw.nodup hp.waiting) fun c hc => hp.idle c (hw.subset hc), hloc⟩

omit [DecidableEq κ] in
/-- Where there is no slot, a handle without one is made or destroyed. -/
theorem setHandle (hp : Conserved n p) (hi : p.owned i = none) {o : Option Handle}
    (ho : o = none ∨ o = some .empty) : Conserved n (p.setHandle i o) := by
  obtain ⟨loc, hp, hloc⟩ := hp
  rcases ho with rfl | rfl
  · exact ⟨loc, hp.setHandle hi rfl (by simp), hloc⟩
  · exact ⟨loc, hp.setHandle hi rfl db_empty, hloc⟩

end Conserved

theorem release_owned (p : Pool ι κ) (h : Handle) : (p.release n i h).owned i = none := by
  unfold release
  rw [owned_setHandle, Function.update_self]
  rfl

theorem release_handles (p : Pool ι κ) (hne : src ≠ i) (h : Handle) :
    (p.release n i h).handles src = p.handles src := by
  have hreturn : (p.returnSlot n h.slot).handles = p.handles := by
    unfold returnSlot
    split
    · rfl
    · split <;> rfl
  unfold release Pool.setHandle
  dsimp only
  rw [Function.update_of_ne hne]
  split
  · rw [hreturn]
  · rfl

theorem Conserved.step {op : Op ι κ} (hn : n ≤ kInvalidSlot) (hp : Conserved n p)
    (hs : p.step n op = some p') : Conserved n p' := by
  unfold Pool.step at hs
  cases op with
  | acquire c =>
    dsimp only at hs
    split at hs
    · cases hs
      exact hp.acquire ‹_›
    · cases hs
  | acquired c dst =>
    dsimp only at hs
    split at hs
    · cases hs
      exact hp.acquired hn ‹_› ‹_›
    · cases hs
  | cancel c =>
    dsimp only at hs
    split at hs
    · cases hs
      exact hp.erase List.erase_sublist
    · cases hs
  | construct dst =>
    dsimp only at hs
    split at hs
    · rename_i hdst
      cases hs
      exact hp.setHandle (by simp [owned, hdst]) (.inr rfl)
    · cases hs
  | moveConstruct dst src =>
    dsimp only at hs
    split at hs
    · rename_i h hdst hsrc
      cases hs
      have hne : dst ≠ src := by
        rintro rfl
        rw [hdst] at hsrc
        cases hsrc
      exact hp.moveHandle hne (by simp [owned, hdst]) hsrc
    · cases hs
  | moveAssign dst src =>
    dsimp only at hs
    split at hs
    · rename_i old new hdst hsrc
      cases hs
      unfold Pool.moveAssign
      split
      · exact hp
      · rename_i hne
        refine (hp.release hdst).moveHandle hne (release_owned p old) ?_
        rw [release_handles p (Ne.symm hne)]
        exact hsrc
    · cases hs
  | destroy i =>
    dsimp only at hs
    split at hs
    · rename_i h hi
      cases hs
      exact (hp.release hi).setHandle (release_owned p h) (.inl rfl)
    · cases hs

omit [DecidableEq ι] in
theorem start_eq (n : Nat) : ∀ k ≤ n, (List.range k).foldl (returnSlot n)
    (⟨[], [], fun _ => none, fun _ => none⟩ : Pool ι κ) =
      ⟨List.range k, [], fun _ => none, fun _ => none⟩ := by
  intro k hk
  induction k with
  | zero => rfl
  | succ k ih =>
    rw [List.range_succ, List.foldl_append, ih (by omega)]
    simp only [List.foldl_cons, List.foldl_nil, returnSlot, List.length_range]
    rw [if_pos (by omega)]

omit [DecidableEq ι] in
theorem conserved_start (n : Nat) : Conserved n (start n : Pool ι κ) := by
  unfold start
  rw [start_eq n n (Nat.le_refl n)]
  refine ⟨fun _ => .free, ⟨List.nodup_range, ?_, ?_, ?_, ?_, List.nodup_nil, ?_⟩, by simp⟩
  · simp
  · intro c slot
    simp
  · intro i slot
    simp [owned]
  · intro i h hi
    cases hi
  · intro c hc
    exact absurd hc List.not_mem_nil

/-! ### Conservation -/

/-- The slot is free, and there once; or it is on its way to one call of `acquire`; or one handle has
borrowed it. -/
inductive At (p : Pool ι κ) (slot : Nat) : Prop
  | free (hfree : p.buffer.count slot = 1) (hcall : ∀ c, p.arriving c ≠ some slot)
      (hhandle : ∀ i, p.owned i ≠ some slot)
  | call (hfree : slot ∉ p.buffer) (hcall : ∃! c, p.arriving c = some slot)
      (hhandle : ∀ i, p.owned i ≠ some slot)
  | handle (hfree : slot ∉ p.buffer) (hcall : ∀ c, p.arriving c ≠ some slot)
      (hhandle : ∃! i, p.owned i = some slot)

omit [DecidableEq ι] [DecidableEq κ] in
theorem Conserved.at (hp : Conserved n p) (hslot : slot < n) : p.At slot := by
  obtain ⟨loc, hp, hloc⟩ := hp
  have hfree := hp.mem_buffer slot
  have hcall (c : κ) := hp.arriving c slot
  have hhandle (i : ι) := hp.owned i slot
  cases hplace : loc slot with
  | free =>
    refine .free ?_ (by simp [hcall, hplace]) (by simp [hhandle, hplace])
    exact List.count_eq_one_of_mem hp.nodup (hfree.2 ⟨hslot, hplace⟩)
  | call c =>
    refine .call (by simp [hfree, hplace]) ⟨c, (hcall c).2 ⟨hslot, hplace⟩, ?_⟩ (by simp [hhandle, hplace])
    intro c' hc'
    rw [hcall, hplace] at hc'
    exact (Place.call.inj hc'.2).symm
  | handle i =>
    refine .handle (by simp [hfree, hplace]) (by simp [hcall, hplace]) ⟨i, (hhandle i).2 ⟨hslot, hplace⟩, ?_⟩
    intro i' hi'
    rw [hhandle, hplace] at hi'
    exact (Place.handle.inj hi'.2).symm
  | nowhere => exact absurd hplace (hloc slot hslot)

/-- After any sequence of operations every slot is at one place. While no slot is on its way to a call
of `acquire`, this is the channel or one handle. A handle has the connection of its slot, and the
channel has room for it. -/
theorem slots_conserved (hn : n ≤ kInvalidSlot) {t : List (Op ι κ)}
    (hr : (machine n).Runs (start n) t p) :
    (∀ slot < n, p.At slot) ∧
    ((∀ c, p.arriving c = none) → ∀ slot < n,
      (p.buffer.count slot = 1 ∧ ∀ i, p.owned i ≠ some slot) ∨
        slot ∉ p.buffer ∧ ∃! i, p.owned i = some slot) ∧
    (∀ i h, p.handles i = some h → h.db = h.lent) ∧
    ∀ i slot, p.owned i = some slot → slot < n ∧ p.buffer.length < n := by
  have hp : Conserved n p :=
    hr.invariant (conserved_start n) fun p op p' _ hp hs => hp.step hn hs
  refine ⟨fun slot hslot => hp.at hslot, fun hquiet slot hslot => ?_, ?_, ?_⟩
  · cases hp.at hslot with
    | free hfree hcall hhandle => exact .inl ⟨hfree, hhandle⟩
    | call hfree hcall hhandle =>
      obtain ⟨c, hc, -⟩ := hcall
      exact absurd hc (by simp [hquiet])
    | handle hfree hcall hhandle => exact .inr ⟨hfree, hhandle⟩
  · obtain ⟨loc, hp, -⟩ := hp
    exact hp.db
  · obtain ⟨loc, hp, -⟩ := hp
    intro i slot hi
    obtain ⟨hslot, hplace⟩ := (hp.owned i slot).1 hi
    exact ⟨hslot, hp.length_lt hslot (by simp [hplace])⟩

/-- Two calls share one connection: the second waits until the handle of the first, moved and assigned
to itself, is destroyed. -/
def sharedConnection : List (Op Nat Bool) :=
  [.acquire false, .acquired false 0, .acquire true, .moveConstruct 1 0, .moveAssign 1 1, .construct 2,
    .moveAssign 2 1, .destroy 2, .acquired true 3]

theorem slots_conserved_shared : ∃ p : Pool Nat Bool, (machine 1).Runs (start 1) sharedConnection p ∧
    p.owned 3 = some 0 ∧ p.At 0 := by
  have hobs : ((machine 1).run (start 1) sharedConnection).map (fun p => p.owned 3) = some (some 0) := by
    decide
  obtain ⟨p, hp, ho⟩ := Machine.exists_runs hobs
  exact ⟨p, hp, ho, (slots_conserved (by decide) hp).1 0 (by decide)⟩

end Pool

end Cmlb.Persistence
