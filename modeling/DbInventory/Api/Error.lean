/-
# DbInventory.Api.Error -- why a call gave no result

A call can fail before anything is sent, on the way, or by what the reply says. No error holds
a secret key or a token.
-/

import DbInventory.Api.Http
import DbInventory.Listing.Services

namespace DbInventory

inductive ClientError where
  | auth (text : String)
  | api (code text requestId : String)
  | http (status : Nat) (text : String)
  | network (fault : NetworkFault)
  | invalidEndpoint (endpoint text : String)
  | invalidRequest (action text : String)
  | parse (action text : String)
  deriving DecidableEq

namespace ClientError

def message : ClientError → String
  | .auth text => "authentication failed: " ++ text
  | .api code text requestId =>
    "API error [" ++ code ++ "] " ++ text ++ " (request id: " ++ requestId ++ ")"
  | .http status text => "HTTP error (" ++ toString status ++ "): " ++ text
  | .network fault => "network error: " ++ fault.message
  | .invalidEndpoint endpoint text => "invalid endpoint '" ++ endpoint ++ "': " ++ text
  | .invalidRequest action text => "invalid " ++ action ++ " request: " ++ text
  | .parse action text => "failed to parse " ++ action ++ " response: " ++ text

/-- The error as that of a service. -/
def toService (e : ClientError) : ServiceError := .provider e.message

end ClientError

end DbInventory
