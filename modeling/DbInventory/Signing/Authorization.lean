/-
# DbInventory.Signing.Authorization -- signed requests

A request is signed in two steps. Its canonical form lists the method, the path, the query,
the signed headers and the digest of the body; the string to sign is made of the moment, the
day and service it is for, and the digest of the canonical form. The signing key is derived
from the secret key by keyed digests over the day, the service and a fixed word. Both texts
are functions of what is sent, so a receiver that knows the secret key can form them again.
-/

import DbInventory.Digest.Sha256
import DbInventory.Signing.Calendar
import DbInventory.Text.Hex
import DbInventory.Text.Utf8

namespace DbInventory

/-- The digest of bytes in hexadecimal digits. -/
def hexDigest (bytes : List UInt8) : String :=
  String.ofList (Text.hexBytes (Sha256.digest bytes))

/-! ## The canonical form -/

/-- The content type of every request. -/
def contentType : String := "application/json; charset=utf-8"

/-- The names of the headers that are signed. -/
def signedHeaders : String := "content-type;host"

/-- What the canonical form of a request shows. -/
structure CanonicalRequest where
  method : String
  path : String
  query : String
  contentType : String
  host : String
  payload : List UInt8

def CanonicalRequest.text (r : CanonicalRequest) : String :=
  r.method ++ "\n" ++ r.path ++ "\n" ++ r.query ++ "\n" ++
    "content-type:" ++ r.contentType ++ "\n" ++ "host:" ++ r.host ++ "\n" ++ "\n" ++
    signedHeaders ++ "\n" ++ hexDigest r.payload

/-! ## Signatures -/

/-- The algorithm, as the authorization names it. -/
def signingAlgorithm : String := "TC3-HMAC-SHA256"

/-- The last part of every scope, and the last step of the signing key. -/
def scopeEnd : String := "tc3_request"

/-- What a signature is good for: a day and a service. -/
def signingScope (date service : String) : String :=
  date ++ "/" ++ service ++ "/" ++ scopeEnd

def stringToSign (timestamp : Int64) (date service canonical : String) : String :=
  signingAlgorithm ++ "\n" ++ toString timestamp.toInt ++ "\n" ++ signingScope date service ++
    "\n" ++ hexDigest (Text.utf8 canonical)

def signingKey (secretKey date service : String) : List UInt8 :=
  let dateKey := Sha256.keyedDigest (Text.utf8 ("TC3" ++ secretKey)) (Text.utf8 date)
  let serviceKey := Sha256.keyedDigest dateKey (Text.utf8 service)
  Sha256.keyedDigest serviceKey (Text.utf8 scopeEnd)

/-- The authorization of a canonical text on a date. -/
def authorizationOn (secretId secretKey : String) (timestamp : Int64)
    (date service canonical : String) : String :=
  let signed := stringToSign timestamp date service canonical
  let signature := Sha256.keyedDigest (signingKey secretKey date service) (Text.utf8 signed)
  signingAlgorithm ++ " Credential=" ++ secretId ++ "/" ++ signingScope date service ++
    ", SignedHeaders=" ++ signedHeaders ++ ", Signature=" ++
    String.ofList (Text.hexBytes signature)

/-! ## Requests to be signed -/

/-- A request as its sender signs it. -/
structure SigningRequest where
  service : String
  host : String
  payload : List UInt8
  timestamp : Int64

namespace SigningRequest

/-- Every request posts to the root, without a query. -/
def canonical (r : SigningRequest) : CanonicalRequest where
  method := "POST"
  path := "/"
  query := ""
  contentType := contentType
  host := r.host
  payload := r.payload

/-- The text that is signed; there is none at a moment without a date. -/
def signedText? (r : SigningRequest) : Option String :=
  (dateOfSeconds? r.timestamp).map fun date =>
    stringToSign r.timestamp date.text r.service r.canonical.text

/-- The authorization of a request; there is none at a moment without a date. -/
def authorization? (secretId secretKey : String) (r : SigningRequest) : Option String :=
  (dateOfSeconds? r.timestamp).map fun date =>
    authorizationOn secretId secretKey r.timestamp date.text r.service r.canonical.text

end SigningRequest

end DbInventory
