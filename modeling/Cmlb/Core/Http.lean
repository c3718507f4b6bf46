import Mathlib.Logic.Basic

/-!
# HTTP answers (`http/beast_http_client.hpp`)

What the adapters read of an answer. A transport failure is an `AppError` in the place of the answer.
-/

namespace Cmlb

structure HttpResponse where
  statusCode : Nat
  body : String
  headers : List (String × String) := []
deriving DecidableEq

end Cmlb
