import Cmlb.Core.Error

/-!
# Text (`core/formatting.cpp`, `std::stoll`)
-/

namespace Cmlb

def isSpace (c : Char) : Bool := c == ' ' || ('\t' ≤ c && c ≤ '\r')

def llongMax : Int := 9223372036854775807

/-- `std::stoll`, base 10: leading blanks, an optional sign, and as many digits as follow. Without a
digit, or out of the range of `long long`, it throws. What stands after the digits is ignored. -/
def stoll (text : String) : Option Int :=
  let body := text.toList.dropWhile isSpace
  let (negative, digits) :=
    match body with
    | '-' :: rest => (true, rest)
    | '+' :: rest => (false, rest)
    | _ => (false, body)
  let digits := digits.takeWhile Char.isDigit
  let n : Int := digits.foldl (fun n c => 10 * n + (c.toNat - '0'.toNat)) 0
  let v := if negative then -n else n
  if digits.isEmpty ∨ v < -llongMax - 1 ∨ llongMax < v then none else some v

def friendlyErrorLabel : ErrorCode → String
  | .none => "OK"
  | .invalidArgument => "Invalid argument"
  | .invalidConfiguration => "Invalid configuration"
  | .invalidState => "Invalid state"
  | .notFound => "Not found"
  | .alreadyExists => "Already exists"
  | .permissionDenied => "Permission denied"
  | .unauthenticated => "Authentication required"
  | .cancelled => "Cancelled"
  | .deadlineExceeded => "Deadline exceeded"
  | .resourceExhausted => "Resource exhausted"
  | .quotaExceeded => "Quota exceeded"
  | .network => "Network error"
  | .timeout => "Timed out"
  | .io => "I/O error"
  | .fileSystem => "Filesystem error"
  | .serialization => "Serialization failed"
  | .deserialization => "Deserialization failed"
  | .jsonParse => "Invalid JSON"
  | .telegramApi => "Telegram error"
  | .aria2Rpc => "aria2 error"
  | .qbittorrentApi => "qBittorrent error"
  | .googleDriveApi => "Google Drive error"
  | .rcloneInvocation => "rclone error"
  | .database => "Database error"
  | .migration => "Schema migration failed"
  | .subprocessFailed => "Helper process failed"
  | .mediaProcessing => "Media processing failed"
  | .archiveProcessing => "Archive processing failed"
  | .internal => "Internal error"
  | .unknown => "Error"

end Cmlb
