import Cmlb.Lib.Interleave
import Cmlb.Persistence.TimeCodec
import Cmlb.Presentation.CallbackDispatcher

/-!
# Updates of one user's settings (`UpdateUserSettings::execute`)

`execute` loads the row, changes the record and saves it as a whole. It suspends in
`SqliteUserSettingsRepository::get` and again in `save`, both times before the statement runs, and
holds nothing in between; callbacks of one user are separate coroutines. `log` has the runs whose
`save` took effect, in that order. No update is lost along a run exactly when every record is saved
over the settings it was loaded from (`updates_kept_iff`).
-/

namespace Cmlb

/-- The settings of a record, without its stamps. -/
def UserSettingsRecord.unstamped (r : UserSettingsRecord) : UserSettingsRecord :=
  { r with createdAt := 0, updatedAt := 0 }

namespace UpdateUserSettings

/-- The mutators the dispatchers pass: the two buttons of the panel, and `/settings`, which reads. -/
inductive Mutator
  | cycleUpload
  | toggleDoc
  | read
deriving DecidableEq, Repr

def Mutator.apply : Mutator → UserSettingsRecord → UserSettingsRecord
  | .cycleUpload, r =>
    { r with mirrorDestination := CallbackDispatcher.nextDestination r.mirrorDestination }
  | .toggleDoc, r => { r with uploadAsDocument := !r.uploadAsDocument }
  | .read, r => r

/-- The row of the user, as `get` decodes it, and who has saved. -/
structure Store (ι : Type) where
  row : Option UserSettingsRecord
  log : List ι

/-- `loading` is in `get`, `saving` in `save`. -/
inductive Pc
  | starting
  | loading (mutate : Mutator)
  | saving (loaded : Option UserSettingsRecord) (record : UserSettingsRecord)
  | returned (r : Result UserSettingsRecord)
deriving DecidableEq

inductive Event
  | start
  | got (now : Int)
  | getFailed (err : AppError)
  | saved (now : Int)
  | saveFailed (err : AppError)
deriving DecidableEq

/-- The record before the mutator: what was loaded, or the defaults. A row that `get` finds has the
user's id. -/
def record (user : UserId) (loaded : Option UserSettingsRecord) (now : Int) : UserSettingsRecord :=
  match loaded with
  | some r => { r with userId := user, updatedAt := now }
  | none => { userId := user, createdAt := now, updatedAt := now }

/-- The row that `save` writes, with the stamps as the texts keep them. -/
def savedRow (r : UserSettingsRecord) (now : Int) : UserSettingsRecord :=
  { r with
    createdAt := Time.floorMs (if r.createdAt = 0 then now else r.createdAt)
    updatedAt := Time.floorMs now }

-- `request.mutate` of each run; an empty `std::function` is `none`
variable {ι : Type} (user : UserId) (mutate : ι → Option Mutator)

def act (i : ι) (sh : Store ι) : Pc → Event → Option (Store ι × Pc)
  | .starting, .start =>
    match mutate i with
    | none => some (sh, .returned (.error ⟨.invalidArgument, "update_user_settings: null mutator"⟩))
    | some m => some (sh, .loading m)
  | .loading m, .got now => some (sh, .saving sh.row (m.apply (record user sh.row now)))
  | .loading _, .getFailed err => some (sh, .returned (.error err))
  | .saving _ r, .saved now =>
    some (⟨some (savedRow r now), sh.log ++ [i]⟩, .returned (.ok r))
  | .saving _ _, .saveFailed err => some (sh, .returned (.error err))
  | _, _ => none

/-- The runs of `execute` for one user, one for each `i`. -/
def updates : Interleaving ι (Store ι) Pc Empty Event where
  env _ e := nomatch e
  act := act user mutate

def start (row : Option UserSettingsRecord) : Sys ι (Store ι) Pc := ⟨⟨row, []⟩, fun _ => .starting⟩

/-- The settings a row stands for; without a row, the defaults. -/
def settings (row : Option UserSettingsRecord) : UserSettingsRecord := (record user row 0).unstamped

/-- What the runs in `log` make of the settings `r`, one after the other. -/
def applied (log : List ι) (r : UserSettingsRecord) : UserSettingsRecord :=
  log.foldl (fun r i => (mutate i).elim r (·.apply r)) r

/-- The row has the effect of every run that has saved, once each. -/
def Kept (row : Option UserSettingsRecord) (sh : Store ι) : Prop :=
  settings user sh.row = applied mutate sh.log (settings user row)

instance (row : Option UserSettingsRecord) (sh : Store ι) : Decidable (Kept user mutate row sh) :=
  inferInstanceAs (Decidable (_ = _))

/-- A record is saved over the settings that it was loaded from. -/
def fresh (s : Sys ι (Store ι) Pc) : SysEvent ι Empty Event → Bool
  | .act i (.saved _) =>
    match s.locals i with
    | .saving loaded _ => settings user loaded = settings user s.shared.row
    | _ => true
  | _ => true

/-! ### Records -/

theorem unstamped_record (row : Option UserSettingsRecord) (now : Int) :
    (record user row now).unstamped = settings user row := by
  cases row <;> rfl

theorem settings_savedRow {r : UserSettingsRecord} (h : r.userId = user) (now : Int) :
    settings user (some (savedRow r now)) = r.unstamped := by
  subst h
  rfl

theorem Mutator.apply_userId (m : Mutator) (r : UserSettingsRecord) : (m.apply r).userId = r.userId := by
  cases m <;> rfl

/-- A mutator neither reads nor writes the stamps. -/
theorem Mutator.unstamped_apply (m : Mutator) (r : UserSettingsRecord) :
    (m.apply r).unstamped = m.apply r.unstamped := by
  cases m <;> rfl

theorem nextDestination_injective : Function.Injective CallbackDispatcher.nextDestination := by
  intro a b h
  cases a <;> cases b <;> first | rfl | cases h

/-- No mutator hides what the settings were. -/
theorem Mutator.apply_injective (m : Mutator) : Function.Injective m.apply := by
  intro r r' h
  cases r
  cases r'
  cases m with
  | cycleUpload =>
    simp only [Mutator.apply, UserSettingsRecord.mk.injEq] at h ⊢
    exact ⟨h.1, h.2.1, nextDestination_injective h.2.2.1, h.2.2.2⟩
  | toggleDoc => simpa [Mutator.apply] using h
  | read => exact h

/-! ### One step -/

/-- The run has returned a record. -/
def Pc.Done (pc : Pc) : Prop := ∃ r, pc = .returned (.ok r)

/-- What run `i` holds comes from its mutator and from what it has loaded. -/
def Own (i : ι) : Pc → Prop
  | .loading m => mutate i = some m
  | .saving loaded r => ∃ m, mutate i = some m ∧ r.userId = user ∧
      r.unstamped = m.apply (settings user loaded)
  | _ => True

variable {user mutate} {i : ι} {sh sh' : Store ι} {pc pc' : Pc} {e : Event}

theorem act_inv (h : act user mutate i sh pc e = some (sh', pc')) :
    (∃ now loaded r, e = .saved now ∧ pc = .saving loaded r ∧ pc' = .returned (.ok r) ∧
      sh' = ⟨some (savedRow r now), sh.log ++ [i]⟩) ∨
    sh' = sh ∧ (∀ now, e ≠ .saved now) ∧ ¬ pc.Done ∧ ¬ pc'.Done := by
  unfold act at h
  split at h
  · split at h <;> cases h <;> simp [Pc.Done]
  · cases h
    simp [Pc.Done]
  · cases h
    simp [Pc.Done]
  · cases h
    exact .inl ⟨_, _, _, rfl, rfl, rfl, rfl⟩
  · cases h
    simp [Pc.Done]
  · cases h

theorem own_act (ho : Own user mutate i pc) (h : act user mutate i sh pc e = some (sh', pc')) :
    Own user mutate i pc' := by
  unfold act at h
  split at h
  · split at h <;> cases h
    · trivial
    · assumption
  · rename_i m now
    cases h
    refine ⟨m, ho, ?_, ?_⟩
    · rw [Mutator.apply_userId]
      cases sh.row <;> rfl
    · rw [Mutator.unstamped_apply, unstamped_record]
  all_goals cases h
  all_goals trivial

/-- A save of the record `r`, loaded from `loaded`, keeps the effects so far exactly when the row
still has the settings of `loaded`. -/
theorem kept_saved_iff {row loaded : Option UserSettingsRecord} {r : UserSettingsRecord} {now : Int}
    (ho : Own user mutate i (.saving loaded r)) (hk : Kept user mutate row sh) :
    Kept user mutate row ⟨some (savedRow r now), sh.log ++ [i]⟩ ↔
      settings user loaded = settings user sh.row := by
  obtain ⟨m, hm, hu, hr⟩ := ho
  have happ : applied mutate (sh.log ++ [i]) (settings user row) = m.apply (settings user sh.row) := by
    unfold Kept applied at hk
    rw [applied, List.foldl_append, ← hk]
    simp [hm]
  unfold Kept
  rw [settings_savedRow user hu, hr, happ]
  exact m.apply_injective.eq_iff

/-! ### Whole runs -/

variable [DecidableEq ι] {row : Option UserSettingsRecord} {s s' : Sys ι (Store ι) Pc}
  {t : List (SysEvent ι Empty Event)} {x : SysEvent ι Empty Event}

theorem own_runs (h : (updates user mutate).machine.Runs (start row) t s) :
    ∀ i, Own user mutate i (s.locals i) := by
  refine Interleaving.each (A := fun i _ pc => Own user mutate i pc) ?_ ?_ ?_ ?_ h
  · intro i
    trivial
  · intro s i x sh l _ ho h
    exact own_act (ho i) h
  · intro s i x sh l _ ho _ j _
    exact ho j
  · intro s x
    nomatch x

/-- The log has the runs that have returned a record, once each. -/
structure Logged (s : Sys ι (Store ι) Pc) : Prop where
  nodup : s.shared.log.Nodup
  mem_iff : ∀ i, i ∈ s.shared.log ↔ (s.locals i).Done

theorem logged_step (hl : Logged s) (h : (updates user mutate).machine.step s x = some s') :
    Logged s' := by
  obtain ⟨sh', w'⟩ := s'
  rcases Interleaving.step_inv h with ⟨x, -⟩ | ⟨i, x, pc', rfl, hact, rfl⟩
  · nomatch x
  rcases act_inv hact with ⟨now, loaded, r, rfl, hpc, rfl, rfl⟩ | ⟨rfl, -, hpc, hpc'⟩
  · have hi : i ∉ s.shared.log := by
      rw [hl.mem_iff, hpc]
      simp [Pc.Done]
    refine ⟨List.nodup_append.2 ⟨hl.nodup, List.nodup_singleton i, ?_⟩, ?_⟩
    · rintro j hj k hk rfl
      exact hi (List.mem_singleton.1 hk ▸ hj)
    · intro j
      rw [List.mem_append, List.mem_singleton, hl.mem_iff]
      by_cases hj : j = i
      · subst hj
        simp [Pc.Done]
      · simp [hj]
  · refine ⟨hl.nodup, fun j => ?_⟩
    rw [hl.mem_iff]
    by_cases hj : j = i
    · subst hj
      simp [hpc, hpc']
    · simp [hj]

theorem logged_runs (h : (updates user mutate).machine.Runs (start row) t s) : Logged s := by
  refine h.invariant ?_ fun s x s' _ hl hs => logged_step hl hs
  exact ⟨List.nodup_nil, fun i => by simp [start, Pc.Done]⟩

/-- One more step keeps the effects exactly when it is not a stale save. -/
theorem kept_step_iff (ho : ∀ i, Own user mutate i (s.locals i)) (hk : Kept user mutate row s.shared)
    (h : (updates user mutate).machine.step s x = some s') :
    Kept user mutate row s'.shared ↔ fresh user s x = true := by
  rcases Interleaving.step_inv h with ⟨x, -⟩ | ⟨i, x, pc', rfl, hact, -⟩
  · nomatch x
  rcases act_inv hact with ⟨now, loaded, r, rfl, hpc, -, hsh⟩ | ⟨hsh, hx, -, -⟩
  · rw [hsh, kept_saved_iff (hpc ▸ ho i) hk]
    simp [fresh, hpc]
  · rw [hsh]
    cases x with
    | saved now => exact absurd rfl (hx now)
    | _ => simp [fresh, hk]

theorem kept_steps (h : (updates user mutate).machine.Steps (fun s x => fresh user s x = true) (start row) t s) :
    Kept user mutate row s.shared := by
  induction h with
  | nil => rfl
  | snoc h hp hs ih => exact (kept_step_iff (own_runs h.runs) ih hs).2 hp

/-- However the runs of `execute` interleave, the runs that return a record are those that have
saved, once each; and the row has the effect of each of them at every point of the run exactly when
every save was over the settings that the run had loaded. -/
theorem updates_kept_iff (h : (updates user mutate).machine.Runs (start row) t s) :
    s.shared.log.Nodup ∧
    (∀ i, i ∈ s.shared.log ↔ ∃ r, s.locals i = .returned (.ok r)) ∧
    ((∀ t₁ t₂ s₁, t = t₁ ++ t₂ → (updates user mutate).machine.Runs (start row) t₁ s₁ →
        Kept user mutate row s₁.shared) ↔
      (updates user mutate).machine.Steps (fun s x => fresh user s x = true) (start row) t s) := by
  have hl := logged_runs h
  refine ⟨hl.nodup, hl.mem_iff, fun hk => ?_, ?_⟩
  · -- a first stale save would make a prefix of the run that has lost an update
    rcases h.guarded_or_break fun s x => fresh user s x = true with
      hf | ⟨t₁, x, t₂, s₁, s₂, rfl, h₁, hx, hs, -⟩
    · exact hf
    · have hk₁ := hk t₁ (x :: t₂) s₁ rfl h₁.runs
      have hk₂ := hk (t₁ ++ [x]) t₂ s₂ (by simp) (.snoc h₁.runs trivial hs)
      exact absurd ((kept_step_iff (own_runs h₁.runs) hk₁ hs).1 hk₂) hx
  · rintro hf t₁ t₂ s₁ rfl h₁
    exact kept_steps (hf.of_append h₁)

/-- One run for each mutator. -/
def byName (m : Mutator) : Option Mutator := some m

/-- A read that overlaps with the toggle, and then the cycle. -/
def overlappingRead : List (SysEvent Mutator Empty Event) :=
  [.act .read .start, .act .read (.got 1), .act .toggleDoc .start, .act .toggleDoc (.got 2),
    .act .read (.saved 3), .act .toggleDoc (.saved 4), .act .cycleUpload .start,
    .act .cycleUpload (.got 5), .act .cycleUpload (.saved 6)]

theorem overlapping_read_kept : ∃ s,
    (updates ⟨7⟩ byName).machine.Runs (start none) overlappingRead s ∧
    s.shared.log = [.read, .toggleDoc, .cycleUpload] ∧ Kept ⟨7⟩ byName none s.shared := by
  have hrun : ((updates ⟨7⟩ byName).machine.runIf (fresh ⟨7⟩) (start none) overlappingRead).map
      (fun s => s.shared.log) = some [.read, .toggleDoc, .cycleUpload] := by
    decide +kernel
  obtain ⟨s, hs, hl⟩ := Machine.exists_steps hrun
  have hkept := (updates_kept_iff hs.runs).2.2.2 hs overlappingRead [] s (List.append_nil _).symm hs.runs
  exact ⟨s, hs.runs, hl, hkept⟩

/-- Both callbacks load before either saves. -/
def bothLoad : List (SysEvent Mutator Empty Event) :=
  [.act .cycleUpload .start, .act .toggleDoc .start, .act .cycleUpload (.got 1),
    .act .toggleDoc (.got 1), .act .cycleUpload (.saved 2), .act .toggleDoc (.saved 3)]

/-- The toggle is saved over the cycle: both callbacks succeed, and the destination is the old one. -/
theorem cycle_lost : ∃ s, (updates ⟨7⟩ byName).machine.Runs (start none) bothLoad s ∧
    s.shared.log = [.cycleUpload, .toggleDoc] ∧
    s.shared.row.map (·.mirrorDestination) = some .googleDrive ∧
    ¬ Kept ⟨7⟩ byName none s.shared := by
  have hrun : ((updates ⟨7⟩ byName).machine.run (start none) bothLoad).map
      (fun s => (s.shared.log, s.shared.row.map (·.mirrorDestination),
        decide (Kept ⟨7⟩ byName none s.shared))) =
      some ([.cycleUpload, .toggleDoc], some .googleDrive, false) := by
    decide +kernel
  obtain ⟨s, hs, ho⟩ := Machine.exists_runs hrun
  simp only [Prod.mk.injEq, decide_eq_false_iff_not] at ho
  exact ⟨s, hs, ho.1, ho.2.1, ho.2.2⟩

end UpdateUserSettings

end Cmlb
