import Cmlb.Core.Configuration
import Cmlb.Lib.Parallel
import Cmlb.Persistence.SettingsRepositories

/-!
# Starting up (`main.cpp`), and the bot-wide settings (`update_bot_settings.cpp`)

`main` seeds the row of `bot_settings` from the configuration and builds the `Authority` from the row.
The commands that come then can be any number of `/botsettings`, which loads the row and saves it again,
all side by side. `Boots` is a sequence of runs of the process on one database, each of which can be
killed at any of its calls. `authority_of_first_seed` says whose access lists every run of them has.
-/

namespace Cmlb.Startup

open Persistence
open Prog (ask)

inductive BotCall
  | migrate
  | load
  | save (record : BotSettingsRecord)
  | now

abbrev BotCall.Answer : BotCall → Type
  | migrate | save _ => Result Unit
  | load => Result BotSettingsRecord
  | now => Time

abbrev BotProg (α : Type) := Prog BotCall BotCall.Answer α

/-- `UpdateBotSettings::execute`; an empty `std::function` is `none`. -/
def updateBotSettings (mutate : Option (BotSettingsRecord → BotSettingsRecord)) :
    BotProg (Result BotSettingsRecord) :=
  match mutate with
  | none => pure (.error ⟨.invalidArgument, "update_bot_settings: null mutator"⟩)
  | some mutate => do
    let loaded : Result BotSettingsRecord ← ask BotCall.load
    match loaded with
    | .error err => return .error err
    | .ok record =>
      let now ← ask BotCall.now
      let saved : Result Unit ← ask (BotCall.save { mutate record with updatedAt := now })
      return saved.map fun _ => { mutate record with updatedAt := now }

/-- The use case as `/botsettings` calls it: its mutator does nothing. -/
def botsettings : BotProg (Result BotSettingsRecord) := updateBotSettings (some id)

/-! ### `main` -/

/-- The access lists that `main` copies from the configuration. -/
def seeded (cfg : TelegramConfig) (record : BotSettingsRecord) : BotSettingsRecord :=
  { record with
    ownerId := cfg.ownerId
    sudoUsers := cfg.sudoUsers
    authorizedChats := cfg.authorizedChats }

def seed (cfg : TelegramConfig) : BotProg Unit := do
  let loaded : Result BotSettingsRecord ← ask BotCall.load
  match loaded with
  | .error _ => return
  | .ok record =>
    if record.ownerId = 0 ∧ cfg.ownerId ≠ 0 then do
      let _ ← ask (BotCall.save (seeded cfg record))
      return
    else return

def authorityOf (record : BotSettingsRecord) : Authority :=
  ⟨⟨record.ownerId⟩, record.sudoUsers.map UserId.mk, record.authorizedChats.map ChatId.mk⟩

def buildAuthority : BotProg (Result Authority) := do
  let settings : Result BotSettingsRecord ← ask BotCall.load
  return settings.map authorityOf

/-- `main` up to the `Authority` of the dispatcher. -/
def startUp (cfg : TelegramConfig) : BotProg (Result Authority) := do
  let migrated : Result Unit ← ask BotCall.migrate
  match migrated with
  | .error err => return .error err
  | .ok () =>
    seed cfg
    buildAuthority

/-! ### Runs of the process -/

variable {json : JsonLib}

/-- Migrations leave the row. -/
inductive Serves (json : JsonLib) : BotTable → (c : BotCall) → c.Answer → BotTable → Prop
  | migrate (t : BotTable) (r : Result Unit) : Serves json t .migrate r t
  | load (t : BotTable) (env : CallEnv) : Serves json t .load (t.load json env) t
  | save (t : BotTable) (env : CallEnv) (record : BotSettingsRecord) (time : Time) (h : Time.Fits time) :
      Serves json t (.save record) (t.save env time record).1 (t.save env time record).2
  | now (t : BotTable) (time : Time) : Serves json t .now time t

/-- What a run has called until it had an `Authority`, and the one it had. -/
structure Boot where
  config : TelegramConfig
  log : List (Σ c : BotCall, c.Answer)
  authority : Option Authority

/-- A row is saved. -/
def isSave : (c : BotCall) → c.Answer → Bool
  | .save _, .ok () => true
  | _, _ => false

def Boot.Seeds (b : Boot) : Prop := ∃ e ∈ b.log, isSave e.1 e.2 = true

/-- The runs `boots`, one after another, from an empty table to `t`. -/
inductive Boots (json : JsonLib) : List Boot → BotTable → Prop
  | nil : Boots json [] none
  | stopped {boots : List Boot} {t t' : BotTable} {cfg : TelegramConfig}
      {log : List (Unit × Σ c : BotCall, c.Answer)} {left : Unit → BotProg (Result Authority)}
      (h : Boots json boots t)
      (hstart : Prog.Parallel (fun _ => Serves json) t (fun _ => startUp cfg) log t' left) :
      Boots json (boots ++ [⟨cfg, log.map Prod.snd, none⟩]) t'
  | served {boots : List Boot} {t t₁ t' : BotTable} {cfg : TelegramConfig}
      {log : List (Unit × Σ c : BotCall, c.Answer)} {left : Unit → BotProg (Result Authority)} {A : Authority}
      {log' : List (Nat × Σ c : BotCall, c.Answer)} {left' : Nat → BotProg (Result BotSettingsRecord)}
      (h : Boots json boots t)
      (hstart : Prog.Parallel (fun _ => Serves json) t (fun _ => startUp cfg) log t₁ left)
      (hleft : left () = .pure (.ok A))
      (hserve : Prog.Parallel (fun _ => Serves json) t₁ (fun _ => botsettings) log' t' left') :
      Boots json (boots ++ [⟨cfg, log.map Prod.snd, some A⟩]) t'

/-! ### What the row has -/

/-- The settings of a record. -/
def unstamped (record : BotSettingsRecord) : BotSettingsRecord := { record with updatedAt := 0 }

/-- The settings that are stored are those of `S`. -/
def Stores (json : JsonLib) (S : BotSettingsRecord) (t : BotTable) : Prop :=
  ∃ record, t.stored json = .ok record ∧ unstamped record = unstamped S

structure Readable (json : JsonLib) (S : BotSettingsRecord) : Prop where
  sudo_users : ReadsIds json S.sudoUsers
  authorized_chats : ReadsIds json S.authorizedChats

variable {S record : BotSettingsRecord} {t t' : BotTable} {cfg : TelegramConfig}

theorem sudoUsers_eq (h : unstamped record = unstamped S) : record.sudoUsers = S.sudoUsers := by
  have heq := congrArg BotSettingsRecord.sudoUsers h
  exact heq

theorem authorizedChats_eq (h : unstamped record = unstamped S) :
    record.authorizedChats = S.authorizedChats := by
  have heq := congrArg BotSettingsRecord.authorizedChats h
  exact heq

theorem ownerId_eq (h : unstamped record = unstamped S) : record.ownerId = S.ownerId := by
  have heq := congrArg BotSettingsRecord.ownerId h
  exact heq

theorem unstamped_seeded (h : unstamped record = unstamped S) :
    unstamped (seeded cfg record) = unstamped (seeded cfg S) := by
  have heq := congrArg (seeded cfg) h
  exact heq

theorem authorityOf_eq (h : unstamped record = unstamped S) : authorityOf record = authorityOf S := by
  rw [authorityOf, ownerId_eq h, sudoUsers_eq h, authorizedChats_eq h]
  rfl

/-- A load fails, or has the settings. -/
theorem load_stores (h : Stores json S t) (env : CallEnv) : (∃ err, t.load json env = .error err) ∨
    ∃ record, t.load json env = .ok record ∧ unstamped record = unstamped S := by
  obtain ⟨record, hstored, hsame⟩ := h
  unfold BotTable.load
  rcases env.call_cases "bot_settings.load" t (t.stored json, t) with hcall | ⟨err, hcall⟩
  · rw [hcall]
    exact .inr ⟨record, hstored, hsame⟩
  · rw [hcall]
    exact .inl ⟨err, rfl⟩

/-- A save fails and leaves the row, or the row has the settings. -/
theorem save_stores (hS : Readable json S) {time : Time} (htime : Time.Fits time)
    (hsame : unstamped record = unstamped S) (t : BotTable) (env : CallEnv) :
    (∃ err, t.save env time record = (.error err, t)) ∨
      (t.save env time record).1 = .ok () ∧ Stores json S (t.save env time record).2 := by
  unfold BotTable.save
  rcases env.call_cases "bot_settings.save" t (.ok (), some (botRow time record)) with hcall | herr
  · rw [hcall]
    exact .inr ⟨rfl, _, readBotSettings_botRow ((sudoUsers_eq hsame).symm ▸ hS.sudo_users)
      ((authorizedChats_eq hsame).symm ▸ hS.authorized_chats) htime, hsame⟩
  · exact .inl herr

/-! ### Commands -/

theorem botsettings_guards (hS : Readable json S) (h : Stores json S t) :
    botsettings.Guards (Serves json) (fun t t' => Stores json S t → Stores json S t')
      (fun t _ _ t' => Stores json S t → Stores json S t') (fun _ _ => True) t := by
  refine Prog.Guards.ask_bind fun t₁ loaded t₂ hrely hload => ?_
  cases hload with
  | load env =>
    refine ⟨fun h₁ => h₁, ?_⟩
    rcases load_stores (hrely h) env with ⟨err, hloaded⟩ | ⟨record, hloaded, hsame⟩
    · rw [hloaded]
      exact fun _ _ => trivial
    · rw [hloaded]
      refine Prog.Guards.ask_bind fun t₃ now t₄ _ hnow => ?_
      cases hnow with
      | now =>
        refine ⟨fun h₃ => h₃, Prog.Guards.ask_bind fun t₅ saved t₆ _ hsave => ⟨fun h₅ => ?_, fun _ _ => trivial⟩⟩
        cases hsave with
        | save env _ time htime =>
          have hsame' : unstamped { id record with updatedAt := now } = unstamped S := hsame
          rcases save_stores hS htime hsame' t₅ env with ⟨err, hfailed⟩ | ⟨-, hstores⟩
          · rw [hfailed]
            exact h₅
          · exact hstores

/-- Any number of `/botsettings` side by side leave the settings. -/
theorem stores_served (hS : Readable json S) (h : Stores json S t)
    {log : List (Nat × Σ c : BotCall, c.Answer)} {left : Nat → BotProg (Result BotSettingsRecord)}
    (hserve : Prog.Parallel (fun _ => Serves json) t (fun _ => botsettings) log t' left) : Stores json S t' := by
  have hrun := (hserve.guaranteed (R := fun _ t t' => Stores json S t → Stores json S t')
    (fun _ _ h => h) (fun _ _ _ _ h h' hs => h' (h hs)) (fun _ _ _ _ _ _ _ _ hG => hG)
    fun _ => botsettings_guards hS h).1
  exact hrun.invariant (fun _ _ _ _ _ hs => hs.2) h

/-! ### The start -/

/-- The settings of a run, which was started on `S`, before and after it has seeded them. -/
def settled (S : BotSettingsRecord) (cfg : TelegramConfig) (saved : Bool) : BotSettingsRecord :=
  if saved then seeded cfg S else S

/-- How far the start is; the second component says whether it has saved. -/
structure Phase (json : JsonLib) (S : BotSettingsRecord) (cfg : TelegramConfig) (s : BotTable × Bool) : Prop where
  stores : Stores json (settled S cfg s.2) s.1
  seeds : s.2 = true → S.ownerId = 0 ∧ cfg.ownerId ≠ 0

def note (saved : Bool) (_ : Unit) (c : BotCall) (r : c.Answer) : Bool := saved || isSave c r

/-- The calls of the start with the note. -/
def Noted (json : JsonLib) (s : BotTable × Bool) (c : BotCall) (r : c.Answer) (s' : BotTable × Bool) : Prop :=
  Serves json s.1 c r s'.1 ∧ s'.2 = note s.2 () c r

def Keeps (json : JsonLib) (S : BotSettingsRecord) (cfg : TelegramConfig) (s : BotTable × Bool) (c : BotCall)
    (_ : c.Answer) (s' : BotTable × Bool) : Prop :=
  Phase json S cfg s → Phase json S cfg s'

variable {s s' : BotTable × Bool}

/-- Only a save changes how far the start is. -/
theorem noted_same {c : BotCall} {r : c.Answer} (h : Noted json s c r s') (hc : ∀ record, c ≠ .save record) :
    s' = s := by
  obtain ⟨t, saved⟩ := s
  obtain ⟨t', saved'⟩ := s'
  obtain ⟨hserves, hnote⟩ := h
  dsimp only at hserves hnote
  subst hnote
  cases hserves with
  | save => exact absurd rfl (hc _)
  | _ => exact congrArg (Prod.mk t) (Bool.or_false saved)

theorem seed_guards (hS : Readable json (seeded cfg S)) (h : Phase json S cfg (t, false)) :
    (seed cfg).Guards (Noted json) (fun s s' => s = s') (Keeps json S cfg) (fun _ s => Phase json S cfg s)
      (t, false) := by
  refine Prog.Guards.ask_bind fun s₁ loaded s₂ hs hload => ?_
  subst hs
  cases noted_same hload (by simp)
  refine ⟨fun h => h, ?_⟩
  obtain ⟨hload, -⟩ := hload
  cases hload with
  | load env =>
    dsimp only
    rcases load_stores h.stores env with ⟨err, hloaded⟩ | ⟨record, hloaded, hsame⟩
    · rw [hloaded]
      exact fun _ hs => hs ▸ h
    · rw [hloaded]
      show (if record.ownerId = 0 ∧ cfg.ownerId ≠ 0 then _ else _ : BotProg Unit).Guards _ _ _ _ _
      split_ifs with howner
      · refine Prog.Guards.ask_bind fun s₃ saved s₄ hs hsave => ?_
        subst hs
        obtain ⟨t₄, saved'⟩ := s₄
        obtain ⟨hsave, hnote⟩ := hsave
        dsimp only at hsave hnote
        have hphase : Phase json S cfg (t₄, saved') := by
          subst hnote
          cases hsave with
          | save env _ time htime =>
            rcases save_stores hS htime (unstamped_seeded hsame) t env with ⟨err, hfailed⟩ | ⟨hok, hstores⟩
            · rw [hfailed]
              exact h
            · rw [hok]
              exact ⟨hstores, fun _ => ⟨(ownerId_eq hsame).symm.trans howner.1, howner.2⟩⟩
        exact ⟨fun _ => hphase, fun _ hs => hs ▸ hphase⟩
      · exact fun _ hs => hs ▸ h

theorem buildAuthority_guards (h : Phase json S cfg s) :
    buildAuthority.Guards (Noted json) (fun s s' => s = s') (Keeps json S cfg)
      (fun r s => ∀ A, r = .ok A → A = authorityOf (settled S cfg s.2)) s := by
  refine Prog.Guards.ask_bind fun s₁ loaded s₂ hs hload => ?_
  subst hs
  cases noted_same hload (by simp)
  refine ⟨fun h => h, fun s' hs A hA => ?_⟩
  subst hs
  obtain ⟨hload, -⟩ := hload
  cases hload with
  | load env =>
    rcases load_stores h.stores env with ⟨err, hloaded⟩ | ⟨record, hloaded, hsame⟩
    · rw [hloaded] at hA
      cases hA
    · rw [hloaded] at hA
      cases hA
      exact authorityOf_eq hsame

theorem startUp_guards (hS : Readable json (seeded cfg S)) (h : Stores json S t) :
    (startUp cfg).Guards (Noted json) (fun s s' => s = s') (Keeps json S cfg)
      (fun r s => ∀ A, r = .ok A → A = authorityOf (settled S cfg s.2)) (t, false) := by
  refine Prog.Guards.ask_bind fun s₁ migrated s₂ hs hmigrate => ?_
  subst hs
  cases noted_same hmigrate (by simp)
  refine ⟨fun h => h, ?_⟩
  cases migrated with
  | error err => exact fun _ _ A hA => nomatch hA
  | ok =>
    exact (seed_guards hS ⟨h, by simp⟩).bind (fun _ => rfl) fun _ s hs => buildAuthority_guards hs

theorem foldl_note (log : List (Unit × Σ c : BotCall, c.Answer)) (saved : Bool) :
    log.foldl (fun saved e => note saved e.1 e.2.1 e.2.2) saved =
      (saved || log.any fun e => isSave e.2.1 e.2.2) := by
  induction log generalizing saved with
  | nil => exact (Bool.or_false saved).symm
  | cons e log ih => rw [List.foldl_cons, ih, List.any_cons, note, Bool.or_assoc]

/-- What a start, finished or killed, leaves of the settings `S`, and what it has made of them. -/
theorem stores_started (hS : Readable json (seeded cfg S)) (h : Stores json S t)
    {log : List (Unit × Σ c : BotCall, c.Answer)} {left : Unit → BotProg (Result Authority)}
    (hstart : Prog.Parallel (fun _ => Serves json) t (fun _ => startUp cfg) log t' left) :
    Phase json S cfg (t', log.any fun e => isSave e.2.1 e.2.2) ∧
      ∀ A, left () = .pure (.ok A) → A = authorityOf (settled S cfg (log.any fun e => isSave e.2.1 e.2.2)) := by
  have hnoted := hstart.ghost note false
  rw [foldl_note, Bool.false_or] at hnoted
  obtain ⟨hrun, hleft⟩ := hnoted.guaranteed (R := fun _ s s' => s = s') (G := fun _ => Keeps json S cfg)
    (fun _ _ => rfl) (fun _ _ _ _ => Eq.trans) (fun _ _ hne => absurd (Subsingleton.elim _ _) hne)
    fun _ => startUp_guards hS h
  refine ⟨hrun.invariant (fun _ _ _ _ _ hs => hs.2) ⟨h, by simp⟩, fun A hA => ?_⟩
  have hdone := hleft ()
  rw [hA] at hdone
  exact hdone _ rfl A rfl

/-! ### Any number of runs -/

def Boot.saved (b : Boot) : Bool := b.log.any fun e => isSave e.1 e.2

theorem Boot.seeds_iff (b : Boot) : b.Seeds ↔ b.saved = true :=
  List.any_eq_true.symm

/-- What a run makes of the settings that it starts on. -/
structure Ran (json : JsonLib) (S : BotSettingsRecord) (b : Boot) (t' : BotTable) : Prop where
  stores : Stores json (settled S b.config b.saved) t'
  seeds : b.saved = true → S.ownerId = 0 ∧ b.config.ownerId ≠ 0
  authority : ∀ A, b.authority = some A → A = authorityOf (settled S b.config b.saved)

theorem readable_settled (hS : Readable json S) (hseeded : Readable json (seeded cfg S)) (saved : Bool) :
    Readable json (settled S cfg saved) := by
  cases saved
  exacts [hS, hseeded]

theorem saved_mk (log : List (Unit × Σ c : BotCall, c.Answer)) (authority : Option Authority) :
    (Boot.mk cfg (log.map Prod.snd) authority).saved = log.any fun e => isSave e.2.1 e.2.2 :=
  List.any_map

/-- The runs so far have not seeded the row; or one has, and no other. -/
inductive Settled (json : JsonLib) (boots : List Boot) (t : BotTable) : Prop
  | fresh (stores : Stores json {} t)
      (h : ∀ b ∈ boots, b.saved = false ∧ ∀ A, b.authority = some A → A = authorityOf {})
  | seededBy (before : List Boot) (first : Boot) (rest : List Boot) (hboots : boots = before ++ first :: rest)
      (howner : first.config.ownerId ≠ 0) (hfirst : first.saved = true)
      (stores : Stores json (seeded first.config {}) t)
      (hbefore : ∀ b ∈ before, b.saved = false ∧ ∀ A, b.authority = some A → A = authorityOf {})
      (hrest : ∀ b ∈ rest, b.saved = false)
      (hafter : ∀ b ∈ first :: rest, ∀ A, b.authority = some A → A = authorityOf (seeded first.config {}))

/-- The settings that the runs so far have come to. -/
theorem Settled.step {boots : List Boot} {b : Boot} (h : Settled json boots t)
    (hrun : ∀ S, Stores json S t → S = {} ∨ (∃ c ∈ boots, S = seeded c.config {}) → Ran json S b t') :
    Settled json (boots ++ [b]) t' := by
  cases h with
  | fresh hstores h =>
    have hran := hrun {} hstores (.inl rfl)
    cases hsaved : b.saved with
    | false =>
      have hsettled : settled {} b.config b.saved = {} := by rw [hsaved]; rfl
      refine .fresh (hsettled ▸ hran.stores) fun c hc => ?_
      rcases List.mem_append.1 hc with hc | hc
      · exact h c hc
      · rw [List.mem_singleton.1 hc]
        exact ⟨hsaved, fun A hA => hsettled ▸ hran.authority A hA⟩
    | true =>
      have hsettled : settled {} b.config b.saved = seeded b.config {} := by rw [hsaved]; rfl
      refine .seededBy boots b [] rfl (hran.seeds hsaved).2 hsaved (hsettled ▸ hran.stores) h (by simp) fun c hc A hA => ?_
      rw [List.mem_singleton.1 hc] at hA
      exact hsettled ▸ hran.authority A hA
  | seededBy before first rest hboots howner hfirst hstores hbefore hrest hafter =>
    have hmem : first ∈ boots := by
      rw [hboots]
      exact List.mem_append_right _ List.mem_cons_self
    have hran := hrun _ hstores (.inr ⟨first, hmem, rfl⟩)
    -- a row with an owner is not seeded again
    have hsaved : b.saved = false := Bool.eq_false_iff.2 fun hsaved => howner (hran.seeds hsaved).1
    have hsettled : settled (seeded first.config {}) b.config b.saved = seeded first.config {} := by
      rw [hsaved]
      rfl
    refine .seededBy before first (rest ++ [b]) (by rw [hboots]; simp) howner hfirst (hsettled ▸ hran.stores) hbefore
      (fun c hc => ?_) fun c hc A hA => ?_
    · rcases List.mem_append.1 hc with hc | hc
      · exact hrest c hc
      · rw [List.mem_singleton.1 hc]
        exact hsaved
    · rw [← List.cons_append] at hc
      rcases List.mem_append.1 hc with hc | hc
      · exact hafter c hc A hA
      · rw [List.mem_singleton.1 hc] at hA
        exact hsettled ▸ hran.authority A hA

theorem settled_boots {boots : List Boot} (h : Boots json boots t) (hnone : ReadsIds json [])
    (hids : ∀ b ∈ boots, ReadsIds json b.config.sudoUsers ∧ ReadsIds json b.config.authorizedChats) :
    Settled json boots t := by
  have hreads : ∀ {boots : List Boot} {S : BotSettingsRecord},
      (∀ b ∈ boots, ReadsIds json b.config.sudoUsers ∧ ReadsIds json b.config.authorizedChats) →
      S = {} ∨ (∃ c ∈ boots, S = seeded c.config {}) → Readable json S := by
    rintro boots S hids (rfl | ⟨c, hc, rfl⟩)
    · exact ⟨hnone, hnone⟩
    · exact ⟨(hids c hc).1, (hids c hc).2⟩
  induction h with
  | nil => exact .fresh ⟨{}, rfl, rfl⟩ (by simp)
  | @stopped boots t t' cfg log left h hstart ih =>
    have hprev := fun b hb => hids b (List.mem_append_left _ hb)
    have hlast := hids _ (List.mem_append_right _ (List.mem_singleton_self _))
    refine (ih hprev).step fun S hS hfrom => ?_
    have hseeded : Readable json (seeded cfg S) := ⟨hlast.1, hlast.2⟩
    obtain ⟨hphase, -⟩ := stores_started hseeded hS hstart
    refine ⟨?_, ?_, by simp⟩
    · rw [saved_mk]
      exact hphase.stores
    · rw [saved_mk]
      exact hphase.seeds
  | @served boots t t₁ t' cfg log left A log' left' h hstart hleft hserve ih =>
    have hprev := fun b hb => hids b (List.mem_append_left _ hb)
    have hlast := hids _ (List.mem_append_right _ (List.mem_singleton_self _))
    refine (ih hprev).step fun S hS hfrom => ?_
    have hseeded : Readable json (seeded cfg S) := ⟨hlast.1, hlast.2⟩
    obtain ⟨hphase, hauthority⟩ := stores_started hseeded hS hstart
    refine ⟨?_, ?_, ?_⟩
    · rw [saved_mk]
      exact stores_served (readable_settled (hreads hprev hfrom) hseeded _) hphase.stores hserve
    · rw [saved_mk]
      exact hphase.seeds
    · rintro A' ⟨⟩
      rw [saved_mk]
      exact hauthority A hleft

/-- Over any runs of the process, killed at any call and with any failures of the database, the row is
seeded at most once. Every authority until then has no owner and empty lists, and every one from that run
on has the access lists of the configuration of that run, whatever the later configurations say. -/
theorem authority_of_first_seed (json : JsonLib) (boots : List Boot) (t : BotTable) (h : Boots json boots t)
    (hnone : ReadsIds json [])
    (hids : ∀ b ∈ boots, ReadsIds json b.config.sudoUsers ∧ ReadsIds json b.config.authorizedChats) :
    ∃ before after, boots = before ++ after ∧
      (∀ b ∈ before, ¬b.Seeds ∧ ∀ A, b.authority = some A → A = ⟨⟨0⟩, [], []⟩) ∧
      ∀ first rest, after = first :: rest → first.Seeds ∧ first.config.ownerId ≠ 0 ∧ (∀ b ∈ rest, ¬b.Seeds) ∧
        ∀ b ∈ after, ∀ A, b.authority = some A → A = ⟨⟨first.config.ownerId⟩,
          first.config.sudoUsers.map UserId.mk, first.config.authorizedChats.map ChatId.mk⟩ := by
  simp only [Boot.seeds_iff, Bool.not_eq_true]
  cases settled_boots h hnone hids with
  | fresh _ h => exact ⟨boots, [], (List.append_nil _).symm, h, by simp⟩
  | seededBy before first rest hboots howner hfirst _ hbefore hrest hafter =>
    refine ⟨before, first :: rest, hboots, hbefore, fun first' rest' heq => ?_⟩
    cases heq
    exact ⟨hfirst, howner, hrest, hafter⟩

/-- A parser of two arrays. -/
def arrays : JsonLib :=
  ⟨fun text => if text = "[]" then .ok (.array []) else if text = "[5]" then .ok (.array [.number 5])
    else .error "parse error", fun _ => 0⟩

def ofSeven : TelegramConfig := { ownerId := 7, sudoUsers := [5] }

def ofEight : TelegramConfig := { ownerId := 8 }

theorem reads_none : ReadsIds arrays [] := ⟨by simp, rfl⟩

theorem reads_five : ReadsIds arrays [5] := ⟨by simp, rfl⟩

/-- A first run seeds the row, and a second one has another owner in its configuration. -/
theorem started_twice : ∃ (b b' : Boot) (t : BotTable), Boots arrays [b, b'] t ∧ b.config = ofSeven ∧ b.Seeds ∧
    b'.config = ofEight ∧ b'.authority = some ⟨⟨7⟩, [⟨5⟩], []⟩ := by
  let t : BotTable := some (botRow 1000000 (seeded ofSeven {}))
  have hload : t.load arrays {} = .ok { seeded ofSeven {} with updatedAt := Time.floorMs 1000000 } :=
    readBotSettings_botRow reads_five reads_none (by decide)
  have hA : (t.load arrays {}).map authorityOf = .ok ⟨⟨7⟩, [⟨5⟩], []⟩ := by
    rw [hload]
    rfl
  have h₁ := ((((Prog.Parallel.nil (S := fun _ : Unit => Serves arrays) none fun _ => startUp ofSeven).snoc
    (i := ()) rfl (.migrate none (.ok ()))).snoc (i := ()) rfl (.load none {})).snoc (i := ()) rfl
    (.save none {} (seeded ofSeven {}) 1000000 (by decide))).snoc (i := ()) rfl (.load t {})
  have hboot₁ := Boots.nil.served h₁ (congrArg Prog.pure hA) (.nil t fun _ => botsettings)
  have h₂ := (Prog.Parallel.nil (S := fun _ : Unit => Serves arrays) t fun _ => startUp ofEight).snoc
    (i := ()) rfl (.migrate t (.ok ()))
  have h₃ := (h₂.snoc (i := ()) rfl (.load t {})).snoc (i := ()) (by rw [hload]; rfl) (.load t {})
  exact ⟨_, _, t, hboot₁.served h₃ (congrArg Prog.pure hA) (.nil t fun _ => botsettings), rfl,
    ⟨_, List.mem_cons_of_mem _ (List.mem_cons_of_mem _ List.mem_cons_self), rfl⟩, rfl, rfl⟩

theorem reads_started {b b' : Boot} (hb : b.config = ofSeven) (hb' : b'.config = ofEight) :
    ∀ c ∈ [b, b'], ReadsIds arrays c.config.sudoUsers ∧ ReadsIds arrays c.config.authorizedChats := by
  intro c hc
  rcases List.mem_pair.1 hc with rfl | rfl
  · rw [hb]
    exact ⟨reads_five, reads_none⟩
  · rw [hb']
    exact ⟨reads_none, reads_none⟩

/-- Where the first of two runs has seeded the row, no run comes before it. -/
theorem eq_nil_of_seeds {b b' : Boot} {before after : List Boot} (h : [b, b'] = before ++ after) (hb : b.Seeds)
    (hbefore : ∀ c ∈ before, ¬c.Seeds) : before = [] := by
  cases before with
  | nil => rfl
  | cons c before =>
    obtain ⟨rfl, -⟩ := List.cons.inj h
    exact absurd hb (hbefore b List.mem_cons_self)

/-- The owner is changed in the configuration, and stays who it was. -/
theorem later_owner_ignored : ∃ (b b' : Boot) (t : BotTable) (A : Authority), Boots arrays [b, b'] t ∧
    b'.config.ownerId = 8 ∧ b'.authority = some A ∧ A = ⟨⟨7⟩, [⟨5⟩], []⟩ := by
  obtain ⟨b, b', t, hboots, hb, hseeds, hb', hA⟩ := started_twice
  obtain ⟨before, after, hsplit, hbefore, hafter⟩ := authority_of_first_seed arrays _ t hboots reads_none
    (reads_started hb hb')
  refine ⟨b, b', t, _, hboots, congrArg TelegramConfig.ownerId hb', hA, ?_⟩
  cases eq_nil_of_seeds hsplit hseeds fun c hc => (hbefore c hc).1
  obtain ⟨-, -, -, hall⟩ := hafter b [b'] hsplit.symm
  obtain rfl : [b, b'] = after := hsplit
  exact (hall b' (List.mem_cons_of_mem _ List.mem_cons_self) _ hA).trans (by rw [hb]; rfl)

end Cmlb.Startup
