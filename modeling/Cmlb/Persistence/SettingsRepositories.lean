import Cmlb.Core.Json
import Cmlb.Lib.Calls
import Cmlb.Persistence.RepositoryCall
import Cmlb.Presentation.SettingsUpdates

/-!
# The settings repositories

`SqliteUserSettingsRepository` keeps a row for each user, `SqliteBotSettingsRepository` one row in all.
`settings_refine_map` says that the first is a map from users to records, through any calls and
failures; `readBotSettings_botRow` that the second reads back what it has written. The parser of
`nlohmann::json` is a parameter.
-/

namespace Cmlb.Persistence

open TimeCodec UniqueKeys

/-! ### `user_settings` -/

structure SettingsRow where
  userId : Int
  leechDestination : String
  mirrorDestination : String
  defaultThumbPath : Option String
  rcloneRemote : Option String
  gdriveFolderId : Option String
  uploadAsDocument : Int
  createdAt : String
  updatedAt : String
deriving DecidableEq

structure SettingsTable where
  rows : List SettingsRow
  unique : Unique (fun r s : SettingsRow => r.userId = s.userId) rows

def parseUploadDestination (input : String) : Result UploadDestination :=
  let lower := String.ofList (input.toList.map Char.toLower)
  if lower ∈ ["telegram", "tg", "leech"] then .ok .telegram
  else if lower ∈ ["gdrive", "googledrive", "google_drive", "drive"] then .ok .googleDrive
  else if lower ∈ ["rclone", "mirror"] then .ok .rclone
  else .error ⟨.invalidArgument, "Unknown upload destination: " ++ input⟩

/-- The lambda of `get`. -/
def readSettings (user : UserId) (row : SettingsRow) : Result UserSettingsRecord := do
  let leech ← parseUploadDestination row.leechDestination
  let mirror ← parseUploadDestination row.mirrorDestination
  let created ← parseIso8601 row.createdAt
  let updated ← parseIso8601 row.updatedAt
  return {
    userId := user
    leechDestination := leech
    mirrorDestination := mirror
    defaultThumbPath := row.defaultThumbPath
    rcloneRemote := row.rcloneRemote
    gdriveFolderId := row.gdriveFolderId
    uploadAsDocument := row.uploadAsDocument != 0
    createdAt := created
    updatedAt := updated }

/-- The values that `save` binds. -/
def settingsRow (now : Time) (record : UserSettingsRecord) : SettingsRow where
  userId := record.userId.value
  leechDestination := record.leechDestination.toString
  mirrorDestination := record.mirrorDestination.toString
  defaultThumbPath := record.defaultThumbPath
  rcloneRemote := record.rcloneRemote
  gdriveFolderId := record.gdriveFolderId
  uploadAsDocument := if record.uploadAsDocument then 1 else 0
  createdAt := toIso8601 (if record.createdAt = 0 then now else record.createdAt)
  updatedAt := toIso8601 now

namespace SettingsTable

def empty : SettingsTable := ⟨[], .nil⟩

def get (t : SettingsTable) (env : CallEnv) (user : UserId) : Result (Option UserSettingsRecord) :=
  (env.call "user_settings.get" t (match t.rows.find? fun row => row.userId = user.value with
    | none => .ok none
    | some row => (readSettings user row).map some, t)).1

def save (t : SettingsTable) (env : CallEnv) (now : Time) (record : UserSettingsRecord) :
    Result Unit × SettingsTable :=
  env.call "user_settings.save" t (.ok (), {
    rows := replace (fun r s : SettingsRow => r.userId = s.userId) (settingsRow now record) t.rows
    unique := t.unique.replace })

def remove (t : SettingsTable) (env : CallEnv) (user : UserId) : Result Unit × SettingsTable :=
  env.call "user_settings.remove" t
    (if t.rows.all fun row => row.userId ≠ user.value then
      .error ⟨.notFound, s!"user_settings.remove: no row for user_id {user.value}"⟩
    else .ok (), {
      rows := t.rows.filter fun row => row.userId ≠ user.value
      unique := t.unique.filter _ })

end SettingsTable

/-! ### A map from users to records -/

/-- A call that changes the settings, with what it gets from outside. -/
inductive SettingsOp
  | save (env : CallEnv) (now : Time) (record : UserSettingsRecord)
  | remove (env : CallEnv) (user : UserId)

abbrev SettingsMap := UserId → Option UserSettingsRecord

namespace SettingsOp

def onTable (t : SettingsTable) : SettingsOp → Result Unit × SettingsTable
  | save env now record => t.save env now record
  | remove env user => t.remove env user

/-- What the calls are for: the record of a user is set or erased. -/
def onMap (m : SettingsMap) : SettingsOp → Result Unit × SettingsMap
  | save env now record => env.call "user_settings.save" m
    (.ok (), Function.update m record.userId (some (UpdateUserSettings.savedRow record now)))
  | remove env user => env.call "user_settings.remove" m
    (match m user with
      | none => .error ⟨.notFound, s!"user_settings.remove: no row for user_id {user.value}"⟩
      | some _ => .ok (), Function.update m user none)

/-- The times are in reach of the clock. -/
def Fits : SettingsOp → Prop
  | save _ now record => Time.Fits now ∧ Time.Fits record.createdAt
  | remove .. => True

end SettingsOp

/-- `get` reads the map off the table. -/
def Refines (t : SettingsTable) (m : SettingsMap) : Prop :=
  ∀ user, t.get {} user = .ok (m user)

variable {t : SettingsTable} {m : SettingsMap} {env : CallEnv} {user : UserId} {now : Time}
  {record : UserSettingsRecord}

theorem parseUploadDestination_toString (d : UploadDestination) :
    parseUploadDestination d.toString = .ok d := by
  cases d <;> rfl

/-- A row is read back as it was saved, with the stamps as its texts keep them. -/
theorem readSettings_settingsRow (hnow : Time.Fits now) (hcreated : Time.Fits record.createdAt) :
    readSettings record.userId (settingsRow now record) = .ok (UpdateUserSettings.savedRow record now) := by
  have hfits : Time.Fits (if record.createdAt = 0 then now else record.createdAt) := by
    split_ifs
    exacts [hnow, hcreated]
  have hdocument : ((if record.uploadAsDocument = true then (1 : Int) else 0) != 0) =
      record.uploadAsDocument := by
    cases record.uploadAsDocument <;> rfl
  simp [readSettings, settingsRow, parseUploadDestination_toString, parseIso8601_toIso8601 hfits,
    parseIso8601_toIso8601 hnow, UpdateUserSettings.savedRow, hdocument]
  rfl

/-- The row of a user, as `get` reads it. -/
theorem get_eq (t : SettingsTable) (user : UserId) : t.get {} user =
    match t.rows.find? fun row => row.userId = user.value with
    | none => .ok none
    | some row => (readSettings user row).map some := rfl

theorem Refines.save (h : Refines t m) (hnow : Time.Fits now) (hcreated : Time.Fits record.createdAt) :
    Refines ⟨replace (fun r s : SettingsRow => r.userId = s.userId) (settingsRow now record) t.rows,
      t.unique.replace⟩ (Function.update m record.userId (some (UpdateUserSettings.savedRow record now))) := by
  intro user
  rw [get_eq, find?_replace fun r : SettingsRow => r.userId]
  by_cases huser : user = record.userId
  · subst huser
    have hid : (settingsRow now record).userId = record.userId.value := rfl
    rw [if_pos hid, Function.update_self]
    dsimp only
    rw [readSettings_settingsRow hnow hcreated]
    rfl
  · have hid : ¬(settingsRow now record).userId = user.value := by
      intro heq
      exact huser (congrArg UserId.mk heq.symm)
    rw [if_neg hid, Function.update_of_ne huser]
    exact h user

theorem Refines.remove (h : Refines t m) (user : UserId) :
    Refines ⟨t.rows.filter fun row => row.userId ≠ user.value, t.unique.filter _⟩
      (Function.update m user none) := by
  intro user'
  rw [get_eq, find?_filter_ne fun r : SettingsRow => r.userId]
  by_cases huser : user' = user
  · subst huser
    rw [if_pos rfl, Function.update_self]
  · have hid : ¬user'.value = user.value := by
      intro heq
      exact huser (congrArg UserId.mk heq)
    rw [if_neg hid, Function.update_of_ne huser]
    exact h user'

/-- No row has the user's id exactly if the map has no record. -/
theorem Refines.lacks_iff (h : Refines t m) (user : UserId) :
    (t.rows.all fun row => row.userId ≠ user.value) = true ↔ m user = none := by
  have hget := h user
  rw [get_eq] at hget
  cases hrow : t.rows.find? fun row => row.userId = user.value with
  | none =>
    rw [hrow] at hget
    rw [List.find?_eq_none] at hrow
    exact iff_of_true (by simpa using hrow) (Except.ok.inj hget).symm
  | some row =>
    rw [hrow] at hget
    have hmem := List.mem_of_find?_eq_some hrow
    have hid := List.find?_some hrow
    dsimp only at hget
    cases hread : readSettings user row with
    | error err =>
      rw [hread] at hget
      cases hget
    | ok record =>
      rw [hread] at hget
      have hm : m user = some record := (Except.ok.inj hget).symm
      refine iff_of_false (fun hall => ?_) (by rw [hm]; nofun)
      have hne := List.all_eq_true.1 hall row hmem
      simp_all

theorem Refines.step (h : Refines t m) (op : SettingsOp) (hfits : op.Fits) :
    (op.onTable t).1 = (op.onMap m).1 ∧ Refines (op.onTable t).2 (op.onMap m).2 := by
  cases op with
  | save env now record => exact env.call_related "user_settings.save" h rfl (h.save hfits.1 hfits.2)
  | remove env user =>
    refine env.call_related "user_settings.remove" h ?_ (h.remove user)
    dsimp only
    cases hm : m user with
    | none => exact if_pos ((h.lacks_iff user).2 hm)
    | some record => exact if_neg fun hall => by rw [(h.lacks_iff user).1 hall] at hm; cases hm

/-- The repository is a map from users to records: after any calls, failed ones among them, it has
answered as the map does, and `get` finds for every user what the map has. -/
theorem settings_refine_map (ops : List SettingsOp) (hfits : ∀ op ∈ ops, op.Fits) :
    (Calls.history SettingsOp.onTable .empty ops).1 =
      (Calls.history SettingsOp.onMap (fun _ => none) ops).1 ∧
    Refines (Calls.history SettingsOp.onTable .empty ops).2
      (Calls.history SettingsOp.onMap (fun _ => none) ops).2 :=
  Calls.history_related (fun _ _ op h hop => h.step op hop) hfits fun _ => rfl

/-- A record is saved, and its removal fails in the pool. -/
theorem saved_and_kept : ∃ t : SettingsTable, ∀ user : UserId, t.get {} user =
    .ok (if user = ⟨7⟩ then some { userId := ⟨7⟩, rcloneRemote := some "r", createdAt := 1000000, updatedAt := 1000000 }
      else none) := by
  have h := (settings_refine_map [.save {} 1000001 { userId := ⟨7⟩, rcloneRemote := some "r" },
    .remove { acquireFailed := some "closed" } ⟨7⟩] (by
      intro op hop
      rcases List.mem_pair.1 hop with rfl | rfl
      exacts [⟨by decide, by decide⟩, trivial])).2
  refine ⟨_, fun user => (h user).trans (congrArg Except.ok ?_)⟩
  by_cases huser : user = ⟨7⟩
  · subst huser
    rfl
  · rw [if_neg huser]
    show Function.update (fun _ => none) (⟨7⟩ : UserId) _ user = none
    exact Function.update_of_ne huser ..

/-! ### `bot_settings` -/

/-- The row with `id = 1`. -/
structure BotRow where
  ownerId : Int
  sudoUsers : String
  authorizedChats : String
  downloadDir : String
  leechSplitSize : Int
  uploadLimitBytes : Int
  statusUpdateIntervalMs : Int
  rssPollIntervalMs : Int
  updatedAt : String
deriving DecidableEq

abbrev BotTable := Option BotRow

/-- `dump` of an array of integers. -/
def encodeIdArray (ids : List Int) : String := "[" ++ ",".intercalate (ids.map toString) ++ "]"

def decodeIdEntry : Json → Result Int
  | .number n => .ok (n.bmod 18446744073709551616)
  | _ => .error ⟨.deserialization, "bot_settings ID array contains non-integer entry"⟩

def decodeIdArray (json : JsonLib) (text : String) : Result (List Int) :=
  match json.parse text with
  | .error what => .error ⟨.jsonParse, "bot_settings ID array parse failed: " ++ what⟩
  | .ok (.array entries) => entries.mapM decodeIdEntry
  | .ok _ => .error ⟨.deserialization, "bot_settings ID array is not a JSON array: " ++ text⟩

/-- The lambda of `load`: it decodes both arrays before it looks at either. -/
def readBotSettings (json : JsonLib) (row : BotRow) : Result BotSettingsRecord := do
  let sudoUsers ← decodeIdArray json row.sudoUsers
  let chats ← decodeIdArray json row.authorizedChats
  let ts ← parseIso8601 row.updatedAt
  return {
    ownerId := row.ownerId
    sudoUsers := sudoUsers
    authorizedChats := chats
    downloadDir := row.downloadDir
    leechSplitSize := row.leechSplitSize
    uploadLimitBytes := row.uploadLimitBytes
    statusUpdateInterval := row.statusUpdateIntervalMs
    rssPollInterval := row.rssPollIntervalMs
    updatedAt := ts }

def botRow (now : Time) (record : BotSettingsRecord) : BotRow where
  ownerId := record.ownerId
  sudoUsers := encodeIdArray record.sudoUsers
  authorizedChats := encodeIdArray record.authorizedChats
  downloadDir := record.downloadDir
  leechSplitSize := record.leechSplitSize
  uploadLimitBytes := record.uploadLimitBytes
  statusUpdateIntervalMs := record.statusUpdateInterval
  rssPollIntervalMs := record.rssPollInterval
  updatedAt := toIso8601 now

namespace BotTable

def stored (json : JsonLib) : BotTable → Result BotSettingsRecord
  | none => .ok {}
  | some row => readBotSettings json row

def load (json : JsonLib) (t : BotTable) (env : CallEnv) : Result BotSettingsRecord :=
  (env.call "bot_settings.load" t (stored json t, t)).1

def save (t : BotTable) (env : CallEnv) (now : Time) (record : BotSettingsRecord) : Result Unit × BotTable :=
  env.call "bot_settings.save" t (.ok (), some (botRow now record))

end BotTable

/-- The ids fit an `int64_t`, and the parser reads the array that is written of them. -/
structure ReadsIds (json : JsonLib) (ids : List Int) : Prop where
  int64 : ∀ id ∈ ids, -9223372036854775808 ≤ id ∧ id < 9223372036854775808
  parse : json.parse (encodeIdArray ids) = .ok (.array (ids.map Json.number))

variable {json : JsonLib} {ids : List Int}

theorem ReadsIds.decode (h : ReadsIds json ids) : decodeIdArray json (encodeIdArray ids) = .ok ids := by
  unfold decodeIdArray
  rw [h.parse]
  dsimp only
  have hint64 := h.int64
  clear h
  induction ids with
  | nil => rfl
  | cons id ids ih =>
    have hid : id.bmod 18446744073709551616 = id := by
      have := hint64 id List.mem_cons_self
      rw [Int.bmod_def]
      omega
    rw [List.map_cons, List.mapM_cons, ih fun id hid => hint64 id (List.mem_cons_of_mem _ hid), decodeIdEntry, hid]
    rfl

/-- What `save` writes is what `load` reads, but for the fractions of its stamp. -/
theorem readBotSettings_botRow {record : BotSettingsRecord} (hsudo : ReadsIds json record.sudoUsers)
    (hchats : ReadsIds json record.authorizedChats) (hnow : Time.Fits now) :
    readBotSettings json (botRow now record) = .ok { record with updatedAt := Time.floorMs now } := by
  simp only [readBotSettings, botRow, hsudo.decode, hchats.decode, parseIso8601_toIso8601 hnow]
  rfl

end Cmlb.Persistence
