import Cmlb.Core.IdList
import Cmlb.Core.Json
import Cmlb.Upload.Rclone

/-!
# The configuration (`core/configuration.cpp`)

`load` reads a file, `from_json` fills the sections in from it, the environment overrides them, and
`validate` has the last word. A field of the wrong type and a value out of bounds are both errors, and
all of them are reported at once (`reports_all`). `double` and its operations are a parameter, and so
are the parsers of `nlohmann::json` and `boost::json`.
-/

namespace Cmlb

/-- What is used of `double`: `strtod` also says how many characters it has read. -/
structure Doubles (δ : Type) where
  ofInt : Int → δ
  ofText : String → δ
  strtod : String → Option (δ × Nat)
  isNegative : δ → Bool

structure TelegramConfig where
  apiId : Int := 0
  apiHash : String := ""
  botToken : String := ""
  databaseDirectory : Path := "tdlib"
  ownerId : Int := 0
  sudoUsers : List Int := []
  authorizedChats : List Int := []
  uploadChunkSizeKb : Int := 2048
  downloadChunkSizeKb : Int := 1024
  connectionRetryCountMax : Int := 5
  preferIpv6 : Bool := false
  uploadParallelism : Int := 4
  uploadFilesParallelism : Int := 2

/-- Times are in seconds. -/
structure Aria2Config where
  rpcUrl : String := "ws://localhost:6800/jsonrpc"
  secret : String := ""
  maxConcurrentDownloads : Int := 5
  requestTimeout : Int := 30
  maxConnectionPerServer : Int := 16
  split : Int := 16
  minSplitSize : String := "1M"
  diskCache : String := "128M"
  maxTries : Int := 5
  retryWait : Int := 5
  maxOverallDownloadLimit : Int := 0
  maxOverallUploadLimit : Int := 0
  enableDht : Bool := true
  enablePex : Bool := true
  btMaxPeers : Int := 55
  userAgent : String := "aria2/1.37.0"

/-- `seedTimeLimit` is in minutes. -/
structure QbittorrentConfig (δ : Type) where
  url : String := "http://localhost:8080"
  username : String := "admin"
  password : String := ""
  seedRatioLimit : δ
  seedTimeLimit : Int := 60
  maxActiveDownloads : Int := 8
  maxActiveUploads : Int := 8
  maxActiveTorrents : Int := 16
  maxConnections : Int := 500
  maxConnectionsPerTorrent : Int := 100
  maxUploads : Int := 20
  maxUploadsPerTorrent : Int := 5
  upLimit : Int := 0
  dlLimit : Int := 0
  dht : Bool := true
  pex : Bool := true
  lsd : Bool := true
  anonymousMode : Bool := false
  asyncIoThreads : Int := 8
  diskCacheMib : Int := 256

open Upload.Rclone (RcloneConfig)

/-- `initialRetryDelay` is in milliseconds. -/
structure GoogleDriveConfig where
  credentialsPath : Path := "service_account.json"
  parentFolderId : String := ""
  useServiceAccounts : Bool := true
  saFolder : Path := "accounts"
  chunkSize : Nat := 8 * 1024 * 1024
  parallelChunksPerFile : Int := 4
  parallelFilesPerDirectory : Int := 4
  maxRetries : Int := 6
  initialRetryDelay : Int := 500

/-- `busyTimeout` is in milliseconds. -/
structure DatabaseConfig where
  path : Path := "data/cmlb.db"
  busyTimeout : Int := 5000
  walMode : Bool := true

structure LoggingConfig where
  logsDir : Path := "logs"
  level : String := "info"
  console : Bool := true

structure PathsConfig where
  downloadDir : Path := "downloads"
  dataDir : Path := "data"

structure AppConfig (δ : Type) where
  telegram : TelegramConfig := {}
  aria2 : Aria2Config := {}
  qbittorrent : QbittorrentConfig δ
  rclone : RcloneConfig := {}
  googleDrive : GoogleDriveConfig := {}
  database : DatabaseConfig := {}
  logging : LoggingConfig := {}
  paths : PathsConfig := {}

def errorCodeName : ErrorCode → String
  | .none => "None"
  | .invalidArgument => "InvalidArgument"
  | .invalidConfiguration => "InvalidConfiguration"
  | .invalidState => "InvalidState"
  | .notFound => "NotFound"
  | .alreadyExists => "AlreadyExists"
  | .permissionDenied => "PermissionDenied"
  | .unauthenticated => "Unauthenticated"
  | .cancelled => "Cancelled"
  | .deadlineExceeded => "DeadlineExceeded"
  | .resourceExhausted => "ResourceExhausted"
  | .quotaExceeded => "QuotaExceeded"
  | .network => "Network"
  | .timeout => "Timeout"
  | .io => "Io"
  | .fileSystem => "FileSystem"
  | .serialization => "Serialization"
  | .deserialization => "Deserialization"
  | .jsonParse => "JsonParse"
  | .telegramApi => "TelegramApi"
  | .aria2Rpc => "Aria2Rpc"
  | .qbittorrentApi => "QbittorrentApi"
  | .googleDriveApi => "GoogleDriveApi"
  | .rcloneInvocation => "RcloneInvocation"
  | .database => "Database"
  | .migration => "Migration"
  | .subprocessFailed => "SubprocessFailed"
  | .mediaProcessing => "MediaProcessing"
  | .archiveProcessing => "ArchiveProcessing"
  | .internal => "Internal"
  | .unknown => "Unknown"

/-- Whether it has a value; the level itself goes to `spdlog`. -/
def parseLogLevel (text : String) : Bool :=
  text ∈ ["trace", "debug", "info", "warn", "warning", "error", "err", "critical", "fatal", "off"]

namespace Configuration

/-! ### Reading fields -/

/-- A value with what is put into `errors` on the way to it. -/
structure Parsed (α : Type) where
  value : α
  errors : List AppError

namespace Parsed

variable {α β : Type}

instance : Monad Parsed where
  pure a := ⟨a, []⟩
  bind p f := ⟨(f p.value).value, p.errors ++ (f p.value).errors⟩

@[simp] theorem errors_pure (a : α) : (pure a : Parsed α).errors = [] := rfl

@[simp] theorem errors_bind (p : Parsed α) (f : α → Parsed β) :
    (p >>= f).errors = p.errors ++ (f p.value).errors := rfl

end Parsed

/-- `get` is `get<T>` with the exception it throws; without the field, `out` stays. -/
def readField {α : Type} (get : Json → Except String α) (obj : Json) (key : String) (out : α) : Parsed α :=
  match obj.member key with
  | none => ⟨out, []⟩
  | some .null => ⟨out, []⟩
  | some v =>
    match get v with
    | .ok x => ⟨x, []⟩
    | .error what => ⟨out, [⟨.jsonParse, "field '" ++ key ++ "': " ++ what⟩]⟩

def section_ (doc : Json) (key : String) : Option Json := (doc.member key).filter Json.isObject

section Get

variable {δ : Type} (D : Doubles δ) (json : JsonLib)

def getBool : Json → Except String Bool
  | .bool b => .ok b
  | j => .error (Json.typeError "boolean" j)

/-- `get<std::size_t>()` -/
def getSize : Json → Except String Nat
  | .number n => .ok (n % 18446744073709551616).toNat
  | .float text => .ok (json.trunc text % 18446744073709551616).toNat
  | j => .error (Json.typeError "number" j)

def getDouble : Json → Except String δ
  | .number n => .ok (D.ofInt n)
  | .float text => .ok (D.ofText text)
  | j => .error (Json.typeError "number" j)

/-- `get<std::vector<T>>()` -/
def getVector {α : Type} (get : Json → Except String α) : Json → Except String (List α)
  | .array items => items.mapM get
  | j => .error (Json.typeError "array" j)

end Get

section Sections

variable {δ : Type} (D : Doubles δ) (json : JsonLib) (obj : Json)

def parseTelegram (out : TelegramConfig) : Parsed TelegramConfig := do
  let apiId ← readField (Json.getInt json.trunc) obj "api_id" out.apiId
  let apiHash ← readField Json.getString obj "api_hash" out.apiHash
  let botToken ← readField Json.getString obj "bot_token" out.botToken
  let databaseDirectory ← readField Json.getString obj "database_directory" out.databaseDirectory
  let ownerId ← readField (Json.getInt64 json.trunc) obj "owner_id" out.ownerId
  let sudoUsers ← readField (getVector (Json.getInt64 json.trunc)) obj "sudo_users" out.sudoUsers
  let authorizedChats ←
    readField (getVector (Json.getInt64 json.trunc)) obj "authorized_chats" out.authorizedChats
  let uploadChunkSizeKb ←
    readField (Json.getInt json.trunc) obj "upload_chunk_size_kb" out.uploadChunkSizeKb
  let downloadChunkSizeKb ←
    readField (Json.getInt json.trunc) obj "download_chunk_size_kb" out.downloadChunkSizeKb
  let connectionRetryCountMax ←
    readField (Json.getInt json.trunc) obj "connection_retry_count_max" out.connectionRetryCountMax
  let preferIpv6 ← readField getBool obj "prefer_ipv6" out.preferIpv6
  let uploadParallelism ← readField (Json.getInt json.trunc) obj "upload_parallelism" out.uploadParallelism
  let uploadFilesParallelism ←
    readField (Json.getInt json.trunc) obj "upload_files_parallelism" out.uploadFilesParallelism
  return ⟨apiId, apiHash, botToken, databaseDirectory, ownerId, sudoUsers, authorizedChats,
    uploadChunkSizeKb, downloadChunkSizeKb, connectionRetryCountMax, preferIpv6, uploadParallelism,
    uploadFilesParallelism⟩

def parseAria2 (out : Aria2Config) : Parsed Aria2Config := do
  let rpcUrl ← readField Json.getString obj "rpc_url" out.rpcUrl
  let secret ← readField Json.getString obj "secret" out.secret
  let maxConcurrentDownloads ←
    readField (Json.getInt json.trunc) obj "max_concurrent_downloads" out.maxConcurrentDownloads
  let requestTimeout ← readField (Json.getInt64 json.trunc) obj "request_timeout" out.requestTimeout
  let maxConnectionPerServer ←
    readField (Json.getInt json.trunc) obj "max_connection_per_server" out.maxConnectionPerServer
  let split ← readField (Json.getInt json.trunc) obj "split" out.split
  let minSplitSize ← readField Json.getString obj "min_split_size" out.minSplitSize
  let diskCache ← readField Json.getString obj "disk_cache" out.diskCache
  let maxTries ← readField (Json.getInt json.trunc) obj "max_tries" out.maxTries
  let retryWait ← readField (Json.getInt64 json.trunc) obj "retry_wait" out.retryWait
  let maxOverallDownloadLimit ←
    readField (Json.getInt64 json.trunc) obj "max_overall_download_limit" out.maxOverallDownloadLimit
  let maxOverallUploadLimit ←
    readField (Json.getInt64 json.trunc) obj "max_overall_upload_limit" out.maxOverallUploadLimit
  let enableDht ← readField getBool obj "enable_dht" out.enableDht
  let enablePex ← readField getBool obj "enable_pex" out.enablePex
  let btMaxPeers ← readField (Json.getInt json.trunc) obj "bt_max_peers" out.btMaxPeers
  let userAgent ← readField Json.getString obj "user_agent" out.userAgent
  return ⟨rpcUrl, secret, maxConcurrentDownloads, requestTimeout, maxConnectionPerServer, split,
    minSplitSize, diskCache, maxTries, retryWait, maxOverallDownloadLimit, maxOverallUploadLimit,
    enableDht, enablePex, btMaxPeers, userAgent⟩

def parseQbittorrent (out : QbittorrentConfig δ) : Parsed (QbittorrentConfig δ) := do
  let url ← readField Json.getString obj "url" out.url
  let username ← readField Json.getString obj "username" out.username
  let password ← readField Json.getString obj "password" out.password
  let seedRatioLimit ← readField (getDouble D) obj "seed_ratio_limit" out.seedRatioLimit
  let seedTimeLimit ← readField (Json.getInt64 json.trunc) obj "seed_time_limit" out.seedTimeLimit
  let maxActiveDownloads ←
    readField (Json.getInt json.trunc) obj "max_active_downloads" out.maxActiveDownloads
  let maxActiveUploads ← readField (Json.getInt json.trunc) obj "max_active_uploads" out.maxActiveUploads
  let maxActiveTorrents ← readField (Json.getInt json.trunc) obj "max_active_torrents" out.maxActiveTorrents
  let maxConnections ← readField (Json.getInt json.trunc) obj "max_connections" out.maxConnections
  let maxConnectionsPerTorrent ←
    readField (Json.getInt json.trunc) obj "max_connections_per_torrent" out.maxConnectionsPerTorrent
  let maxUploads ← readField (Json.getInt json.trunc) obj "max_uploads" out.maxUploads
  let maxUploadsPerTorrent ←
    readField (Json.getInt json.trunc) obj "max_uploads_per_torrent" out.maxUploadsPerTorrent
  let upLimit ← readField (Json.getInt64 json.trunc) obj "up_limit" out.upLimit
  let dlLimit ← readField (Json.getInt64 json.trunc) obj "dl_limit" out.dlLimit
  let dht ← readField getBool obj "dht" out.dht
  let pex ← readField getBool obj "pex" out.pex
  let lsd ← readField getBool obj "lsd" out.lsd
  let anonymousMode ← readField getBool obj "anonymous_mode" out.anonymousMode
  let asyncIoThreads ← readField (Json.getInt json.trunc) obj "async_io_threads" out.asyncIoThreads
  let diskCacheMib ← readField (Json.getInt json.trunc) obj "disk_cache_mib" out.diskCacheMib
  return ⟨url, username, password, seedRatioLimit, seedTimeLimit, maxActiveDownloads, maxActiveUploads,
    maxActiveTorrents, maxConnections, maxConnectionsPerTorrent, maxUploads, maxUploadsPerTorrent, upLimit,
    dlLimit, dht, pex, lsd, anonymousMode, asyncIoThreads, diskCacheMib⟩

/-- The key `path` is an alias of old documents. -/
def readExecutable (out : Path) : Parsed Path := do
  let executable ← readField Json.getString obj "executable" out
  if (obj.member "executable").isNone ∧ (obj.member "path").isSome then
    readField Json.getString obj "path" executable
  else pure executable

def parseRclone (out : RcloneConfig) : Parsed RcloneConfig := do
  let executable ← readExecutable obj out.executable
  let configPath ← readField Json.getString obj "config_path" out.configPath
  let transfers ← readField (Json.getInt json.trunc) obj "transfers" out.transfers
  let checkers ← readField (Json.getInt json.trunc) obj "checkers" out.checkers
  let multiThreadStreams ←
    readField (Json.getInt json.trunc) obj "multi_thread_streams" out.multiThreadStreams
  let multiThreadCutoff ← readField Json.getString obj "multi_thread_cutoff" out.multiThreadCutoff
  let driveChunkSize ← readField Json.getString obj "drive_chunk_size" out.driveChunkSize
  let bufferSize ← readField Json.getString obj "buffer_size" out.bufferSize
  let useMmap ← readField getBool obj "use_mmap" out.useMmap
  let fastList ← readField getBool obj "fast_list" out.fastList
  let driveAcknowledgeAbuse ← readField getBool obj "drive_acknowledge_abuse" out.driveAcknowledgeAbuse
  let logLevel ← readField Json.getString obj "log_level" out.logLevel
  let extraArgs ← readField (getVector Json.getString) obj "extra_args" out.extraArgs
  return ⟨executable, configPath, transfers, checkers, multiThreadStreams, multiThreadCutoff,
    driveChunkSize, bufferSize, useMmap, fastList, driveAcknowledgeAbuse, logLevel, extraArgs⟩

def parseGdrive (out : GoogleDriveConfig) : Parsed GoogleDriveConfig := do
  let credentialsPath ← readField Json.getString obj "credentials_path" out.credentialsPath
  let parentFolderId ← readField Json.getString obj "parent_folder_id" out.parentFolderId
  let useServiceAccounts ← readField getBool obj "use_service_accounts" out.useServiceAccounts
  let saFolder ← readField Json.getString obj "sa_folder" out.saFolder
  let chunkSize ← readField (getSize json) obj "chunk_size" out.chunkSize
  let parallelChunksPerFile ←
    readField (Json.getInt json.trunc) obj "parallel_chunks_per_file" out.parallelChunksPerFile
  let parallelFilesPerDirectory ←
    readField (Json.getInt json.trunc) obj "parallel_files_per_directory" out.parallelFilesPerDirectory
  let maxRetries ← readField (Json.getInt json.trunc) obj "max_retries" out.maxRetries
  let initialRetryDelay ← readField (Json.getInt64 json.trunc) obj "initial_retry_delay" out.initialRetryDelay
  return ⟨credentialsPath, parentFolderId, useServiceAccounts, saFolder, chunkSize, parallelChunksPerFile,
    parallelFilesPerDirectory, maxRetries, initialRetryDelay⟩

def parseDatabase (out : DatabaseConfig) : Parsed DatabaseConfig := do
  let path ← readField Json.getString obj "path" out.path
  let busyTimeout ← readField (Json.getInt64 json.trunc) obj "busy_timeout" out.busyTimeout
  let walMode ← readField getBool obj "wal_mode" out.walMode
  return ⟨path, busyTimeout, walMode⟩

def parseLogging (out : LoggingConfig) : Parsed LoggingConfig := do
  let logsDir ← readField Json.getString obj "logs_dir" out.logsDir
  let level ← readField Json.getString obj "level" out.level
  let console ← readField getBool obj "console" out.console
  return ⟨logsDir, level, console⟩

def parsePaths (out : PathsConfig) : Parsed PathsConfig := do
  let downloadDir ← readField Json.getString obj "download_dir" out.downloadDir
  let dataDir ← readField Json.getString obj "data_dir" out.dataDir
  return ⟨downloadDir, dataDir⟩

end Sections

/-! ### Overrides -/

abbrev Environment := String → Option String

open CheckedInt (IntegralType)
open Decimal (integer natural)

def int : IntegralType := ⟨32, true, by decide, by decide⟩

def int64 : IntegralType := ⟨64, true, by decide, by decide⟩

def sizeT : IntegralType := ⟨64, false, by decide, by decide⟩

/-- `parse_int<Int>`: a sign is only read into a signed type. -/
def parseIntOf (ty : IntegralType) (text : String) : Option Int :=
  (if ty.signed then integer text.toList else (natural text.toList).map Int.ofNat).filter fun n =>
    ty.min ≤ n ∧ n ≤ ty.max

def parseBool (text : String) : Option Bool :=
  if text ∈ ["1", "true", "TRUE", "True", "yes", "on"] then some true
  else if text ∈ ["0", "false", "FALSE", "False", "no", "off"] then some false
  else none

section Overrides

variable {δ : Type} (D : Doubles δ) (env : Environment)

/-- `errno` is set exactly if `strtod` has no value. -/
def parseDouble (text : String) : Option δ :=
  match D.strtod text with
  | none => none
  | some (value, read) => if read = 0 ∨ read ≠ text.utf8ByteSize then none else some value

def envInt (ty : IntegralType) (name : String) (out : Int) : Int :=
  match env name with
  | some v => (parseIntOf ty v).getD out
  | none => out

def envBool (name : String) (out : Bool) : Bool :=
  match env name with
  | some v => (parseBool v).getD out
  | none => out

def envDouble (name : String) (out : δ) : δ :=
  match env name with
  | some v => (parseDouble D v).getD out
  | none => out

def envSeconds (name : String) (out : Int) : Int := envInt env int64 name out

def envMinutes (name : String) (out : Int) : Int := envInt env int64 name out

def envMillis (name : String) (out : Int) : Int := envInt env int64 name out

/-- `if (auto v = env(name)) out = std::move(*v);` -/
def envText (name : String) (out : String) : String := (env name).getD out

def envIds (name : String) (out : List Int) : List Int :=
  match env name with
  | some v => (parseIdList v.toList).map Int64.toInt
  | none => out

def applyEnvOverrides (cfg : AppConfig δ) : AppConfig δ where
  telegram := {
    apiId := envInt env int "CMLB_TELEGRAM_API_ID" cfg.telegram.apiId
    apiHash := envText env "CMLB_TELEGRAM_API_HASH" cfg.telegram.apiHash
    botToken := envText env "CMLB_TELEGRAM_BOT_TOKEN" cfg.telegram.botToken
    databaseDirectory := envText env "CMLB_TELEGRAM_DATABASE_DIRECTORY" cfg.telegram.databaseDirectory
    ownerId := envInt env int64 "CMLB_TELEGRAM_OWNER_ID" cfg.telegram.ownerId
    sudoUsers := envIds env "CMLB_TELEGRAM_SUDO_USERS" cfg.telegram.sudoUsers
    authorizedChats := envIds env "CMLB_TELEGRAM_AUTHORIZED_CHATS" cfg.telegram.authorizedChats
    uploadChunkSizeKb := envInt env int "CMLB_TELEGRAM_UPLOAD_CHUNK_SIZE_KB" cfg.telegram.uploadChunkSizeKb
    downloadChunkSizeKb :=
      envInt env int "CMLB_TELEGRAM_DOWNLOAD_CHUNK_SIZE_KB" cfg.telegram.downloadChunkSizeKb
    connectionRetryCountMax :=
      envInt env int "CMLB_TELEGRAM_CONNECTION_RETRY_COUNT_MAX" cfg.telegram.connectionRetryCountMax
    preferIpv6 := envBool env "CMLB_TELEGRAM_PREFER_IPV6" cfg.telegram.preferIpv6
    uploadParallelism := envInt env int "CMLB_TELEGRAM_UPLOAD_PARALLELISM" cfg.telegram.uploadParallelism
    uploadFilesParallelism :=
      envInt env int "CMLB_TELEGRAM_UPLOAD_FILES_PARALLELISM" cfg.telegram.uploadFilesParallelism }
  aria2 := {
    rpcUrl := envText env "CMLB_ARIA2_RPC_URL" cfg.aria2.rpcUrl
    secret := envText env "CMLB_ARIA2_SECRET" cfg.aria2.secret
    maxConcurrentDownloads :=
      envInt env int "CMLB_ARIA2_MAX_CONCURRENT_DOWNLOADS" cfg.aria2.maxConcurrentDownloads
    requestTimeout := envSeconds env "CMLB_ARIA2_REQUEST_TIMEOUT" cfg.aria2.requestTimeout
    maxConnectionPerServer :=
      envInt env int "CMLB_ARIA2_MAX_CONNECTION_PER_SERVER" cfg.aria2.maxConnectionPerServer
    split := envInt env int "CMLB_ARIA2_SPLIT" cfg.aria2.split
    minSplitSize := envText env "CMLB_ARIA2_MIN_SPLIT_SIZE" cfg.aria2.minSplitSize
    diskCache := envText env "CMLB_ARIA2_DISK_CACHE" cfg.aria2.diskCache
    maxTries := envInt env int "CMLB_ARIA2_MAX_TRIES" cfg.aria2.maxTries
    retryWait := envSeconds env "CMLB_ARIA2_RETRY_WAIT" cfg.aria2.retryWait
    maxOverallDownloadLimit :=
      envInt env int64 "CMLB_ARIA2_MAX_OVERALL_DOWNLOAD_LIMIT" cfg.aria2.maxOverallDownloadLimit
    maxOverallUploadLimit :=
      envInt env int64 "CMLB_ARIA2_MAX_OVERALL_UPLOAD_LIMIT" cfg.aria2.maxOverallUploadLimit
    enableDht := envBool env "CMLB_ARIA2_ENABLE_DHT" cfg.aria2.enableDht
    enablePex := envBool env "CMLB_ARIA2_ENABLE_PEX" cfg.aria2.enablePex
    btMaxPeers := envInt env int "CMLB_ARIA2_BT_MAX_PEERS" cfg.aria2.btMaxPeers
    userAgent := envText env "CMLB_ARIA2_USER_AGENT" cfg.aria2.userAgent }
  qbittorrent := {
    url := envText env "CMLB_QBITTORRENT_URL" cfg.qbittorrent.url
    username := envText env "CMLB_QBITTORRENT_USERNAME" cfg.qbittorrent.username
    password := envText env "CMLB_QBITTORRENT_PASSWORD" cfg.qbittorrent.password
    seedRatioLimit := envDouble D env "CMLB_QBITTORRENT_SEED_RATIO_LIMIT" cfg.qbittorrent.seedRatioLimit
    seedTimeLimit := envMinutes env "CMLB_QBITTORRENT_SEED_TIME_LIMIT" cfg.qbittorrent.seedTimeLimit
    maxActiveDownloads :=
      envInt env int "CMLB_QBITTORRENT_MAX_ACTIVE_DOWNLOADS" cfg.qbittorrent.maxActiveDownloads
    maxActiveUploads := envInt env int "CMLB_QBITTORRENT_MAX_ACTIVE_UPLOADS" cfg.qbittorrent.maxActiveUploads
    maxActiveTorrents :=
      envInt env int "CMLB_QBITTORRENT_MAX_ACTIVE_TORRENTS" cfg.qbittorrent.maxActiveTorrents
    maxConnections := envInt env int "CMLB_QBITTORRENT_MAX_CONNECTIONS" cfg.qbittorrent.maxConnections
    maxConnectionsPerTorrent :=
      envInt env int "CMLB_QBITTORRENT_MAX_CONNECTIONS_PER_TORRENT" cfg.qbittorrent.maxConnectionsPerTorrent
    maxUploads := envInt env int "CMLB_QBITTORRENT_MAX_UPLOADS" cfg.qbittorrent.maxUploads
    maxUploadsPerTorrent :=
      envInt env int "CMLB_QBITTORRENT_MAX_UPLOADS_PER_TORRENT" cfg.qbittorrent.maxUploadsPerTorrent
    upLimit := envInt env int64 "CMLB_QBITTORRENT_UP_LIMIT" cfg.qbittorrent.upLimit
    dlLimit := envInt env int64 "CMLB_QBITTORRENT_DL_LIMIT" cfg.qbittorrent.dlLimit
    dht := envBool env "CMLB_QBITTORRENT_DHT" cfg.qbittorrent.dht
    pex := envBool env "CMLB_QBITTORRENT_PEX" cfg.qbittorrent.pex
    lsd := envBool env "CMLB_QBITTORRENT_LSD" cfg.qbittorrent.lsd
    anonymousMode := envBool env "CMLB_QBITTORRENT_ANONYMOUS_MODE" cfg.qbittorrent.anonymousMode
    asyncIoThreads := envInt env int "CMLB_QBITTORRENT_ASYNC_IO_THREADS" cfg.qbittorrent.asyncIoThreads
    diskCacheMib := envInt env int "CMLB_QBITTORRENT_DISK_CACHE_MIB" cfg.qbittorrent.diskCacheMib }
  rclone := {
    executable := envText env "CMLB_RCLONE_EXECUTABLE" cfg.rclone.executable
    configPath := envText env "CMLB_RCLONE_CONFIG_PATH" cfg.rclone.configPath
    transfers := envInt env int "CMLB_RCLONE_TRANSFERS" cfg.rclone.transfers
    checkers := envInt env int "CMLB_RCLONE_CHECKERS" cfg.rclone.checkers
    multiThreadStreams := envInt env int "CMLB_RCLONE_MULTI_THREAD_STREAMS" cfg.rclone.multiThreadStreams
    multiThreadCutoff := envText env "CMLB_RCLONE_MULTI_THREAD_CUTOFF" cfg.rclone.multiThreadCutoff
    driveChunkSize := envText env "CMLB_RCLONE_DRIVE_CHUNK_SIZE" cfg.rclone.driveChunkSize
    bufferSize := envText env "CMLB_RCLONE_BUFFER_SIZE" cfg.rclone.bufferSize
    useMmap := envBool env "CMLB_RCLONE_USE_MMAP" cfg.rclone.useMmap
    fastList := envBool env "CMLB_RCLONE_FAST_LIST" cfg.rclone.fastList
    driveAcknowledgeAbuse :=
      envBool env "CMLB_RCLONE_DRIVE_ACKNOWLEDGE_ABUSE" cfg.rclone.driveAcknowledgeAbuse
    logLevel := envText env "CMLB_RCLONE_LOG_LEVEL" cfg.rclone.logLevel
    extraArgs := cfg.rclone.extraArgs }
  googleDrive := {
    credentialsPath := envText env "CMLB_GOOGLE_DRIVE_CREDENTIALS_PATH" cfg.googleDrive.credentialsPath
    parentFolderId := envText env "CMLB_GOOGLE_DRIVE_PARENT_FOLDER_ID" cfg.googleDrive.parentFolderId
    useServiceAccounts :=
      envBool env "CMLB_GOOGLE_DRIVE_USE_SERVICE_ACCOUNTS" cfg.googleDrive.useServiceAccounts
    saFolder := envText env "CMLB_GOOGLE_DRIVE_SA_FOLDER" cfg.googleDrive.saFolder
    chunkSize := (envInt env sizeT "CMLB_GOOGLE_DRIVE_CHUNK_SIZE" cfg.googleDrive.chunkSize).toNat
    parallelChunksPerFile :=
      envInt env int "CMLB_GOOGLE_DRIVE_PARALLEL_CHUNKS_PER_FILE" cfg.googleDrive.parallelChunksPerFile
    parallelFilesPerDirectory :=
      envInt env int "CMLB_GOOGLE_DRIVE_PARALLEL_FILES_PER_DIRECTORY" cfg.googleDrive.parallelFilesPerDirectory
    maxRetries := envInt env int "CMLB_GOOGLE_DRIVE_MAX_RETRIES" cfg.googleDrive.maxRetries
    initialRetryDelay :=
      envMillis env "CMLB_GOOGLE_DRIVE_INITIAL_RETRY_DELAY_MS" cfg.googleDrive.initialRetryDelay }
  database := {
    path := envText env "CMLB_DATABASE_PATH" cfg.database.path
    busyTimeout := envMillis env "CMLB_DATABASE_BUSY_TIMEOUT" cfg.database.busyTimeout
    walMode := envBool env "CMLB_DATABASE_WAL_MODE" cfg.database.walMode }
  logging := {
    logsDir := envText env "CMLB_LOGGING_LOGS_DIR" cfg.logging.logsDir
    level := envText env "CMLB_LOGGING_LEVEL" cfg.logging.level
    console := envBool env "CMLB_LOGGING_CONSOLE" cfg.logging.console }
  paths := {
    downloadDir := envText env "CMLB_PATHS_DOWNLOAD_DIR" cfg.paths.downloadDir
    dataDir := envText env "CMLB_PATHS_DATA_DIR" cfg.paths.dataDir }

end Overrides

/-! ### Bounds -/

def check (bad : Prop) [Decidable bad] (message : String) : List AppError :=
  if bad then [⟨.invalidConfiguration, message⟩] else []

def startsWith (text start : String) : Bool := start.toList.isPrefixOf text.toList

def validateTelegram (cfg : TelegramConfig) : List AppError :=
  check (cfg.apiId = 0) "telegram.api_id must be non-zero" ++
  check (cfg.apiHash.isEmpty) "telegram.api_hash must not be empty" ++
  check (cfg.ownerId = 0) "telegram.owner_id must be non-zero" ++
  check (cfg.botToken.isEmpty) "telegram.bot_token must not be empty" ++
  check (cfg.uploadChunkSizeKb < 1 ∨ cfg.uploadChunkSizeKb > 65536)
    "telegram.upload_chunk_size_kb must be in [1, 65536]" ++
  check (cfg.downloadChunkSizeKb < 1 ∨ cfg.downloadChunkSizeKb > 65536)
    "telegram.download_chunk_size_kb must be in [1, 65536]" ++
  check (cfg.connectionRetryCountMax < 0) "telegram.connection_retry_count_max must be >= 0" ++
  check (cfg.uploadParallelism < 1 ∨ cfg.uploadParallelism > 32)
    "telegram.upload_parallelism must be in [1, 32]" ++
  check (cfg.uploadFilesParallelism < 1 ∨ cfg.uploadFilesParallelism > 32)
    "telegram.upload_files_parallelism must be in [1, 32]"

def validateAria2 (cfg : Aria2Config) : List AppError :=
  (if cfg.rpcUrl.isEmpty then check True "aria2.rpc_url must not be empty"
    else check (!startsWith cfg.rpcUrl "ws://" && !startsWith cfg.rpcUrl "wss://")
      "aria2.rpc_url must start with ws:// or wss://") ++
  check (cfg.maxConcurrentDownloads ≤ 0) "aria2.max_concurrent_downloads must be positive" ++
  check (cfg.requestTimeout ≤ 0) "aria2.request_timeout must be positive" ++
  check (cfg.maxConnectionPerServer < 1 ∨ cfg.maxConnectionPerServer > 16)
    "aria2.max_connection_per_server must be in [1, 16]" ++
  check (cfg.split < 1 ∨ cfg.split > 16) "aria2.split must be in [1, 16]" ++
  check (cfg.maxTries < 0) "aria2.max_tries must be >= 0" ++
  check (cfg.retryWait < 0) "aria2.retry_wait must be >= 0" ++
  check (cfg.btMaxPeers < 1) "aria2.bt_max_peers must be >= 1" ++
  check (cfg.maxOverallDownloadLimit < 0) "aria2.max_overall_download_limit must be >= 0" ++
  check (cfg.maxOverallUploadLimit < 0) "aria2.max_overall_upload_limit must be >= 0"

def qbitPos (name : String) (v : Int) : List AppError :=
  check (v < 1) ("qbittorrent." ++ name ++ " must be >= 1")

def validateQbittorrent {δ : Type} (D : Doubles δ) (cfg : QbittorrentConfig δ) : List AppError :=
  (if cfg.url.isEmpty then check True "qbittorrent.url must not be empty"
    else check (!startsWith cfg.url "http://" && !startsWith cfg.url "https://")
      ("qbittorrent.url must start with http:// or https:// (got '" ++ cfg.url ++ "')")) ++
  check (D.isNegative cfg.seedRatioLimit) "qbittorrent.seed_ratio_limit must be >= 0" ++
  check (cfg.seedTimeLimit < 0) "qbittorrent.seed_time_limit must be >= 0" ++
  qbitPos "max_active_downloads" cfg.maxActiveDownloads ++
  qbitPos "max_active_uploads" cfg.maxActiveUploads ++
  qbitPos "max_active_torrents" cfg.maxActiveTorrents ++
  qbitPos "max_connections" cfg.maxConnections ++
  qbitPos "max_connections_per_torrent" cfg.maxConnectionsPerTorrent ++
  qbitPos "max_uploads" cfg.maxUploads ++
  qbitPos "max_uploads_per_torrent" cfg.maxUploadsPerTorrent ++
  qbitPos "async_io_threads" cfg.asyncIoThreads ++
  check (cfg.diskCacheMib < -1) "qbittorrent.disk_cache_mib must be -1 or >= 0" ++
  check (cfg.upLimit < -1)
    "qbittorrent.up_limit must be -1 (unlimited), 0 (qBit default), or > 0 (bytes/sec)" ++
  check (cfg.dlLimit < -1)
    "qbittorrent.dl_limit must be -1 (unlimited), 0 (qBit default), or > 0 (bytes/sec)"

def validateRclone (cfg : RcloneConfig) : List AppError :=
  check (cfg.transfers < 1 ∨ cfg.transfers > 64) "rclone.transfers must be in [1, 64]" ++
  check (cfg.checkers < 1 ∨ cfg.checkers > 256) "rclone.checkers must be in [1, 256]" ++
  check (cfg.multiThreadStreams < 1 ∨ cfg.multiThreadStreams > 64)
    "rclone.multi_thread_streams must be in [1, 64]" ++
  check (cfg.logLevel ∉ ["DEBUG", "INFO", "NOTICE", "ERROR"])
    ("rclone.log_level must be one of DEBUG, INFO, NOTICE, ERROR (got '" ++ cfg.logLevel ++ "')")

def kMinChunk : Nat := 256 * 1024

def kMaxChunk : Nat := 512 * 1024 * 1024

def validateGoogleDrive (cfg : GoogleDriveConfig) : List AppError :=
  check (cfg.chunkSize < kMinChunk ∨ cfg.chunkSize > kMaxChunk)
    "google_drive.chunk_size must be in [256 KiB, 512 MiB]" ++
  check (cfg.chunkSize % kMinChunk ≠ 0) "google_drive.chunk_size must be a multiple of 256 KiB" ++
  check (cfg.parallelChunksPerFile < 1 ∨ cfg.parallelChunksPerFile > 64)
    "google_drive.parallel_chunks_per_file must be in [1, 64]" ++
  check (cfg.parallelFilesPerDirectory < 1 ∨ cfg.parallelFilesPerDirectory > 64)
    "google_drive.parallel_files_per_directory must be in [1, 64]" ++
  check (cfg.maxRetries < 0) "google_drive.max_retries must be >= 0" ++
  check (cfg.initialRetryDelay < 0) "google_drive.initial_retry_delay must be >= 0"

def validateDatabase (cfg : DatabaseConfig) : List AppError :=
  check (cfg.path.isEmpty) "database.path must not be empty" ++
  (if cfg.busyTimeout < 0 then check True "database.busy_timeout must be >= 0"
    else check (cfg.busyTimeout > 60000) ("database.busy_timeout must be <= 60000 ms " ++
      "(longer waits indicate a deeper deadlock; raise deliberately if absolutely required)"))

def validateLogging (cfg : LoggingConfig) : List AppError :=
  check (!parseLogLevel cfg.level) ("logging.level is not a recognized level: " ++ cfg.level) ++
  check (cfg.logsDir.isEmpty) "logging.logs_dir must not be empty"

def validatePaths (cfg : PathsConfig) : List AppError :=
  check (cfg.downloadDir.isEmpty) "paths.download_dir must not be empty" ++
  check (cfg.dataDir.isEmpty) "paths.data_dir must not be empty"

def validate {δ : Type} (D : Doubles δ) (cfg : AppConfig δ) : List AppError :=
  validateTelegram cfg.telegram ++ validateAria2 cfg.aria2 ++ validateQbittorrent D cfg.qbittorrent ++
    validateRclone cfg.rclone ++ validateGoogleDrive cfg.googleDrive ++ validateDatabase cfg.database ++
    validateLogging cfg.logging ++ validatePaths cfg.paths

/-! ### Documents -/

section Documents

variable {δ : Type} (D : Doubles δ) (json : JsonLib)

/-- `if (const auto* s = section(doc, key)) parse(*s, out, parse_errors);` -/
def parseSection {α : Type} (parse : Json → α → Parsed α) (s : Option Json) (out : α) : Parsed α :=
  match s with
  | some s => parse s out
  | none => pure out

def parseSections (doc : Json) (cfg : AppConfig δ) : Parsed (AppConfig δ) := do
  let telegram ← parseSection (parseTelegram json) (section_ doc "telegram") cfg.telegram
  let aria2 ← parseSection (parseAria2 json) (section_ doc "aria2") cfg.aria2
  let qbittorrent ← parseSection (parseQbittorrent D json) (section_ doc "qbittorrent") cfg.qbittorrent
  let rclone ← parseSection (parseRclone json) (section_ doc "rclone") cfg.rclone
  let googleDrive ← parseSection (parseGdrive json)
    ((section_ doc "google_drive").or (section_ doc "gdrive")) cfg.googleDrive
  let database ← parseSection (parseDatabase json) (section_ doc "database") cfg.database
  let logging ← parseSection parseLogging (section_ doc "logging") cfg.logging
  let paths ← parseSection parsePaths (section_ doc "paths") cfg.paths
  return ⟨telegram, aria2, qbittorrent, rclone, googleDrive, database, logging, paths⟩

/-- The top-level fields of old documents; their errors are dropped. -/
def readLegacy (doc : Json) (cfg : AppConfig δ) : AppConfig δ :=
  let legacyDl := (readField Json.getString doc "download_dir" "").value
  let cfg := if legacyDl.isEmpty then cfg else { cfg with paths := { cfg.paths with downloadDir := legacyDl } }
  let legacyLevel := (readField Json.getString doc "log_level" "").value
  if legacyLevel.isEmpty then cfg else { cfg with logging := { cfg.logging with level := legacyLevel } }

/-- What a document and the environment come to. -/
def settings (env : Environment) (doc : Json) : AppConfig δ :=
  applyEnvOverrides D env (readLegacy doc
    (parseSections D json doc { qbittorrent := { seedRatioLimit := D.ofText "1.0" } }).value)

def joined (errors : List AppError) : String :=
  "\n".intercalate (errors.map fun err => "[" ++ errorCodeName err.code ++ "] " ++ err.message)

def fromJson (env : Environment) (doc : Json) : Result (AppConfig δ) :=
  if !doc.isObject then .error ⟨.invalidConfiguration, "root of config JSON must be an object"⟩
  else
    let parsed := parseSections D json doc { qbittorrent := { seedRatioLimit := D.ofText "1.0" } }
    let cfg := applyEnvOverrides D env (readLegacy doc parsed.value)
    let errors := parsed.errors ++ validate D cfg
    if !errors.isEmpty then .error ⟨.invalidConfiguration, joined errors⟩
    else .ok cfg

/-- What is had of the file: the stream, or its contents. -/
inductive ConfigFile
  | unopened
  | bad
  | contents (text : String)

/-- `boostParse` is the message of the `error_code` of `boost::json::parse`. -/
def load (boostParse : String → Option String) (env : Environment) (path : Path) (file : ConfigFile) :
    Result (AppConfig δ) :=
  match file with
  | .unopened => .error ⟨.fileSystem, "cannot open config file: " ++ path⟩
  | .bad => .error ⟨.io, "failed to read " ++ path⟩
  | .contents text =>
    match boostParse text with
    | some message => .error ⟨.jsonParse, "JSON parse error in " ++ path ++ ": " ++ message⟩
    | none =>
      match json.parse text with
      | .error what => .error ⟨.jsonParse, "JSON parse error in " ++ path ++ ": " ++ what⟩
      | .ok doc => fromJson D json env doc

end Documents

/-! ### What is reported -/

inductive FieldType
  | int | int64 | size | bool | double | string | ids | strings

/-- A field is read from the first of its keys that the section has. -/
structure Field where
  keys : List String
  type : FieldType

/-- The exception of a read. -/
def thrown {α : Type} : Except String α → Option String
  | .ok _ => none
  | .error what => some what

section Reports

variable {δ : Type} (D : Doubles δ) (json : JsonLib)

/-- What a value throws that is not of the type. -/
def FieldType.fault (type : FieldType) (v : Json) : Option String :=
  match type with
  | int => thrown (Json.getInt json.trunc v)
  | int64 => thrown (Json.getInt64 json.trunc v)
  | size => thrown (getSize json v)
  | bool => thrown (getBool v)
  | double => thrown (getDouble D v)
  | string => thrown (Json.getString v)
  | ids => thrown (getVector (Json.getInt64 json.trunc) v)
  | strings => thrown (getVector Json.getString v)

def Field.errors (f : Field) (obj : Json) : List AppError :=
  match f.keys.find? fun key => (obj.member key).isSome with
  | none => []
  | some key =>
    match obj.member key with
    | none => []
    | some .null => []
    | some v => ((f.type.fault D json v).map fun what =>
      (⟨.jsonParse, "field '" ++ key ++ "': " ++ what⟩ : AppError)).toList

def telegramFields : List Field :=
  [⟨["api_id"], .int⟩, ⟨["api_hash"], .string⟩, ⟨["bot_token"], .string⟩, ⟨["database_directory"], .string⟩,
    ⟨["owner_id"], .int64⟩, ⟨["sudo_users"], .ids⟩, ⟨["authorized_chats"], .ids⟩,
    ⟨["upload_chunk_size_kb"], .int⟩, ⟨["download_chunk_size_kb"], .int⟩,
    ⟨["connection_retry_count_max"], .int⟩, ⟨["prefer_ipv6"], .bool⟩, ⟨["upload_parallelism"], .int⟩,
    ⟨["upload_files_parallelism"], .int⟩]

def aria2Fields : List Field :=
  [⟨["rpc_url"], .string⟩, ⟨["secret"], .string⟩, ⟨["max_concurrent_downloads"], .int⟩,
    ⟨["request_timeout"], .int64⟩, ⟨["max_connection_per_server"], .int⟩, ⟨["split"], .int⟩,
    ⟨["min_split_size"], .string⟩, ⟨["disk_cache"], .string⟩, ⟨["max_tries"], .int⟩, ⟨["retry_wait"], .int64⟩,
    ⟨["max_overall_download_limit"], .int64⟩, ⟨["max_overall_upload_limit"], .int64⟩, ⟨["enable_dht"], .bool⟩,
    ⟨["enable_pex"], .bool⟩, ⟨["bt_max_peers"], .int⟩, ⟨["user_agent"], .string⟩]

def qbittorrentFields : List Field :=
  [⟨["url"], .string⟩, ⟨["username"], .string⟩, ⟨["password"], .string⟩, ⟨["seed_ratio_limit"], .double⟩,
    ⟨["seed_time_limit"], .int64⟩, ⟨["max_active_downloads"], .int⟩, ⟨["max_active_uploads"], .int⟩,
    ⟨["max_active_torrents"], .int⟩, ⟨["max_connections"], .int⟩, ⟨["max_connections_per_torrent"], .int⟩,
    ⟨["max_uploads"], .int⟩, ⟨["max_uploads_per_torrent"], .int⟩, ⟨["up_limit"], .int64⟩,
    ⟨["dl_limit"], .int64⟩, ⟨["dht"], .bool⟩, ⟨["pex"], .bool⟩, ⟨["lsd"], .bool⟩, ⟨["anonymous_mode"], .bool⟩,
    ⟨["async_io_threads"], .int⟩, ⟨["disk_cache_mib"], .int⟩]

def rcloneFields : List Field :=
  [⟨["executable", "path"], .string⟩, ⟨["config_path"], .string⟩, ⟨["transfers"], .int⟩, ⟨["checkers"], .int⟩,
    ⟨["multi_thread_streams"], .int⟩, ⟨["multi_thread_cutoff"], .string⟩, ⟨["drive_chunk_size"], .string⟩,
    ⟨["buffer_size"], .string⟩, ⟨["use_mmap"], .bool⟩, ⟨["fast_list"], .bool⟩,
    ⟨["drive_acknowledge_abuse"], .bool⟩, ⟨["log_level"], .string⟩, ⟨["extra_args"], .strings⟩]

def googleDriveFields : List Field :=
  [⟨["credentials_path"], .string⟩, ⟨["parent_folder_id"], .string⟩, ⟨["use_service_accounts"], .bool⟩,
    ⟨["sa_folder"], .string⟩, ⟨["chunk_size"], .size⟩, ⟨["parallel_chunks_per_file"], .int⟩,
    ⟨["parallel_files_per_directory"], .int⟩, ⟨["max_retries"], .int⟩, ⟨["initial_retry_delay"], .int64⟩]

def databaseFields : List Field := [⟨["path"], .string⟩, ⟨["busy_timeout"], .int64⟩, ⟨["wal_mode"], .bool⟩]

def loggingFields : List Field := [⟨["logs_dir"], .string⟩, ⟨["level"], .string⟩, ⟨["console"], .bool⟩]

def pathsFields : List Field := [⟨["download_dir"], .string⟩, ⟨["data_dir"], .string⟩]

/-- The sections, each under the first of its names that is an object, with the types of their fields. -/
def schema : List (List String × List Field) :=
  [(["telegram"], telegramFields), (["aria2"], aria2Fields), (["qbittorrent"], qbittorrentFields),
    (["rclone"], rcloneFields), (["google_drive", "gdrive"], googleDriveFields),
    (["database"], databaseFields), (["logging"], loggingFields), (["paths"], pathsFields)]

def sectionErrors (fields : List Field) (s : Option Json) : List AppError :=
  match s with
  | some obj => fields.flatMap fun f => f.errors D json obj
  | none => []

/-- The fields of a document that are not of their types. -/
def typeErrors (doc : Json) : List AppError :=
  schema.flatMap fun s => sectionErrors D json s.2 (s.1.findSome? (section_ doc))

/-- All that is wrong with a document and the environment. -/
def problems (env : Environment) (doc : Json) : List AppError :=
  typeErrors D json doc ++ validate D (settings D json env doc)

variable {D json} {obj : Json} {key : String}

theorem readField_errors {α : Type} {get : Json → Except String α} {type : FieldType}
    (hget : ∀ v, type.fault D json v = thrown (get v)) (out : α) :
    (readField get obj key out).errors = Field.errors D json ⟨[key], type⟩ obj := by
  unfold readField Field.errors
  cases hv : obj.member key with
  | none => simp [List.find?, hv]
  | some v =>
    simp only [List.find?, hv, Option.isSome_some, hget]
    cases v with
    | null => rfl
    | _ =>
      dsimp only
      generalize get _ = got
      cases got <;> rfl

section Types

variable (D json obj key)

theorem errors_int (out : Int) : (readField (Json.getInt json.trunc) obj key out).errors =
    Field.errors D json ⟨[key], .int⟩ obj := readField_errors (fun _ => rfl) out

theorem errors_int64 (out : Int) : (readField (Json.getInt64 json.trunc) obj key out).errors =
    Field.errors D json ⟨[key], .int64⟩ obj := readField_errors (fun _ => rfl) out

theorem errors_size (out : Nat) : (readField (getSize json) obj key out).errors =
    Field.errors D json ⟨[key], .size⟩ obj := readField_errors (fun _ => rfl) out

theorem errors_bool (out : Bool) : (readField getBool obj key out).errors =
    Field.errors D json ⟨[key], .bool⟩ obj := readField_errors (fun _ => rfl) out

theorem errors_double (out : δ) : (readField (getDouble D) obj key out).errors =
    Field.errors D json ⟨[key], .double⟩ obj := readField_errors (fun _ => rfl) out

theorem errors_string (out : String) : (readField Json.getString obj key out).errors =
    Field.errors D json ⟨[key], .string⟩ obj := readField_errors (fun _ => rfl) out

theorem errors_ids (out : List Int) : (readField (getVector (Json.getInt64 json.trunc)) obj key out).errors =
    Field.errors D json ⟨[key], .ids⟩ obj := readField_errors (fun _ => rfl) out

theorem errors_strings (out : List String) : (readField (getVector Json.getString) obj key out).errors =
    Field.errors D json ⟨[key], .strings⟩ obj := readField_errors (fun _ => rfl) out

end Types

section Sections

variable (D json obj)

theorem parseTelegram_errors (out : TelegramConfig) : (parseTelegram json obj out).errors =
    telegramFields.flatMap fun f => f.errors D json obj := by
  simp only [parseTelegram, Parsed.errors_bind, Parsed.errors_pure, errors_int D json,
    errors_int64 D json, errors_bool D json, errors_string D json,
    errors_ids D json, telegramFields, List.flatMap_cons, List.flatMap_nil]

theorem parseAria2_errors (out : Aria2Config) : (parseAria2 json obj out).errors =
    aria2Fields.flatMap fun f => f.errors D json obj := by
  simp only [parseAria2, Parsed.errors_bind, Parsed.errors_pure, errors_int D json,
    errors_int64 D json, errors_bool D json, errors_string D json,
    aria2Fields, List.flatMap_cons, List.flatMap_nil]

theorem parseQbittorrent_errors (out : QbittorrentConfig δ) : (parseQbittorrent D json obj out).errors =
    qbittorrentFields.flatMap fun f => f.errors D json obj := by
  simp only [parseQbittorrent, Parsed.errors_bind, Parsed.errors_pure, errors_int D json,
    errors_int64 D json, errors_bool D json, errors_string D json,
    errors_double D json, qbittorrentFields, List.flatMap_cons, List.flatMap_nil]

/-- The alias is read only where the key is missing, and then the key has no error. -/
theorem executable_errors (out : Path) : (readExecutable obj out).errors =
    Field.errors D json ⟨["executable", "path"], .string⟩ obj := by
  unfold readExecutable
  rw [Parsed.errors_bind]
  cases hkey : obj.member "executable" with
  | none =>
    have hnone : (readField Json.getString obj "executable" out).errors = [] := by
      simp [readField, hkey]
    rw [hnone, List.nil_append]
    cases hpath : obj.member "path" with
    | none => simp [Field.errors, hkey, hpath]
    | some v =>
      rw [if_pos (by simp), errors_string D json]
      simp [Field.errors, hkey, hpath]
  | some v =>
    rw [if_neg (by simp), errors_string D json]
    simp [Field.errors, hkey]

theorem parseRclone_errors (out : RcloneConfig) : (parseRclone json obj out).errors =
    rcloneFields.flatMap fun f => f.errors D json obj := by
  simp only [parseRclone, Parsed.errors_bind, Parsed.errors_pure, executable_errors D json,
    errors_int D json, errors_bool D json,
    errors_string D json, errors_strings D json, rcloneFields,
    List.flatMap_cons, List.flatMap_nil]

theorem parseGdrive_errors (out : GoogleDriveConfig) : (parseGdrive json obj out).errors =
    googleDriveFields.flatMap fun f => f.errors D json obj := by
  simp only [parseGdrive, Parsed.errors_bind, Parsed.errors_pure, errors_int D json,
    errors_int64 D json, errors_bool D json, errors_string D json,
    errors_size D json, googleDriveFields, List.flatMap_cons, List.flatMap_nil]

theorem parseDatabase_errors (out : DatabaseConfig) : (parseDatabase json obj out).errors =
    databaseFields.flatMap fun f => f.errors D json obj := by
  simp only [parseDatabase, Parsed.errors_bind, Parsed.errors_pure, errors_int64 D json,
    errors_bool D json, errors_string D json, databaseFields,
    List.flatMap_cons, List.flatMap_nil]

theorem parseLogging_errors (out : LoggingConfig) : (parseLogging obj out).errors =
    loggingFields.flatMap fun f => f.errors D json obj := by
  simp only [parseLogging, Parsed.errors_bind, Parsed.errors_pure, errors_bool D json,
    errors_string D json, loggingFields, List.flatMap_cons, List.flatMap_nil]

theorem parsePaths_errors (out : PathsConfig) : (parsePaths obj out).errors =
    pathsFields.flatMap fun f => f.errors D json obj := by
  simp only [parsePaths, Parsed.errors_bind, Parsed.errors_pure, errors_string D json,
    pathsFields, List.flatMap_cons, List.flatMap_nil]

end Sections

theorem parseSection_errors {α : Type} {parse : Json → α → Parsed α} {fields : List Field}
    (hparse : ∀ obj out, (parse obj out).errors = fields.flatMap fun f => f.errors D json obj)
    (s : Option Json) (out : α) : (parseSection parse s out).errors = sectionErrors D json fields s := by
  cases s with
  | none => rfl
  | some obj => exact hparse obj out

theorem parseSections_errors (doc : Json) (cfg : AppConfig δ) :
    (parseSections D json doc cfg).errors = typeErrors D json doc := by
  have hdrive : ["google_drive", "gdrive"].findSome? (section_ doc) =
      (section_ doc "google_drive").or (section_ doc "gdrive") := by
    cases h : section_ doc "google_drive" <;> cases h' : section_ doc "gdrive" <;>
      simp [List.findSome?, h, h']
  have hone : ∀ name, [name].findSome? (section_ doc) = section_ doc name := by
    intro name
    cases h : section_ doc name <;> simp [List.findSome?, h]
  simp only [parseSections, Parsed.errors_bind, Parsed.errors_pure, typeErrors, schema, List.flatMap_cons,
    List.flatMap_nil, hdrive, hone, parseSection_errors (parseTelegram_errors D json),
    parseSection_errors (parseAria2_errors D json),
    parseSection_errors (parseQbittorrent_errors D json),
    parseSection_errors (parseRclone_errors D json),
    parseSection_errors (parseGdrive_errors D json),
    parseSection_errors (parseDatabase_errors D json),
    parseSection_errors (parseLogging_errors D json),
    parseSection_errors (parsePaths_errors D json)]

theorem fromJson_object {env : Environment} {doc : Json} (hdoc : doc.isObject = true) :
    fromJson D json env doc = if problems D json env doc = [] then .ok (settings D json env doc)
      else .error ⟨.invalidConfiguration, joined (problems D json env doc)⟩ := by
  unfold fromJson
  rw [if_neg (by simp [hdoc])]
  dsimp only
  rw [parseSections_errors]
  show (if (!(problems D json env doc).isEmpty) = true then
    (.error ⟨.invalidConfiguration, joined (problems D json env doc)⟩ : Result (AppConfig δ)) else _) = _
  cases problems D json env doc <;> rfl

/-- A document is accepted exactly if all its fields are of their types and all settings that it comes to
with the environment are in bounds. Otherwise the error names everything that is wrong, in the order of
the sections. -/
theorem reports_all (D : Doubles δ) (json : JsonLib) (env : Environment) (doc : Json) :
    (∀ cfg, fromJson D json env doc = .ok cfg ↔
      doc.isObject = true ∧ typeErrors D json doc = [] ∧ validate D cfg = [] ∧ cfg = settings D json env doc) ∧
    ∀ err, fromJson D json env doc = .error err → doc.isObject = true →
      err = ⟨.invalidConfiguration, joined (typeErrors D json doc ++ validate D (settings D json env doc))⟩ := by
  by_cases hdoc : doc.isObject = true
  · rw [fromJson_object hdoc]
    refine ⟨fun cfg => ?_, fun err herr _ => ?_⟩
    · split_ifs with hno
      · have hnone := List.append_eq_nil_iff.1 hno
        refine ⟨fun h => ?_, fun h => congrArg Except.ok h.2.2.2.symm⟩
        cases h
        exact ⟨hdoc, hnone.1, hnone.2, rfl⟩
      · refine ⟨nofun, ?_⟩
        rintro ⟨-, htypes, hbounds, rfl⟩
        exact absurd (List.append_eq_nil_iff.2 ⟨htypes, hbounds⟩) hno
    · split_ifs at herr
      cases herr
      rfl
  · refine ⟨fun cfg => ⟨fun h => ?_, fun h => absurd h.1 hdoc⟩, fun err _ hobj => absurd hobj hdoc⟩
    unfold fromJson at h
    rw [if_pos (by simpa using hdoc)] at h
    cases h

end Reports

end Configuration

end Cmlb
