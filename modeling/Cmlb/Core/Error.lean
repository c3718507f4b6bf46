import Mathlib.Logic.Basic

/-!
# Error model (`core/error.hpp`)

`Result<T>` is `std::expected<T, AppError>`. The source location an `AppError` captures is
diagnostic only and is not modelled.
-/

namespace Cmlb

inductive ErrorCode
  | none | invalidArgument | invalidConfiguration | invalidState
  | notFound | alreadyExists | permissionDenied | unauthenticated
  | cancelled | deadlineExceeded | resourceExhausted | quotaExceeded
  | network | timeout | io | fileSystem
  | serialization | deserialization | jsonParse
  | telegramApi | aria2Rpc | qbittorrentApi | googleDriveApi | rcloneInvocation
  | database | migration | subprocessFailed | mediaProcessing | archiveProcessing
  | internal | unknown
deriving DecidableEq, Repr

structure AppError where
  code : ErrorCode
  message : String
deriving DecidableEq, Repr

abbrev Result (α : Type) := Except AppError α

end Cmlb
