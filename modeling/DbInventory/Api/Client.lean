/-
# DbInventory.Api.Client -- signed calls

A client signs each request for the service it calls and posts it to that service's endpoint,
or to one address for all services. Listings and tags come in pages, and each page is a call
of its own. The secret key goes into the signature only, and the token into a header only;
what the client shows of itself has neither.
-/

import DbInventory.Api.Envelope
import DbInventory.Api.Page
import DbInventory.Signing.Authorization

namespace DbInventory

/-! ## Credentials -/

structure Credential where
  secretId : String
  secretKey : String
  token : Option String
  deriving DecidableEq

namespace Credential

/-- The credential of an identifier, a key and a token; an empty token is none. -/
def of (secretId secretKey : String) (token : Option String) : Credential :=
  ⟨secretId, secretKey, token.filter (· ≠ "")⟩

/-- What stands for a secret. -/
def redacted : String := Text.quoted "[REDACTED]"

/-- What a credential shows of itself. -/
def shown (c : Credential) : String :=
  "Credential \x7b secret_id: " ++ Text.quoted c.secretId ++ ", secret_key: " ++ redacted ++
    ", token: " ++ (if c.token.isSome then "Some(" ++ redacted ++ ")" else "None") ++ " \x7d"

end Credential

/-! ## Clients -/

/-- A credential, the region that is asked about, and an address for all services, if one is
given. -/
structure Client where
  credential : Credential
  region : String
  baseUrl : Option String
  deriving DecidableEq

/-- An action of a service's interface. -/
structure ApiAction where
  service : String
  version : String
  name : String
  deriving DecidableEq

namespace Client

/-- The client of a credential; both secrets have to be set. -/
def of (credential : Credential) (region : String) (baseUrl : Option String) :
    Except ClientError Client :=
  if credential.secretId = "" ∨ credential.secretKey = "" then
    .error (.auth "secret id and secret key must both be set")
  else .ok { credential, region, baseUrl }

/-- What a client shows of itself. -/
def shown (c : Client) : String :=
  "TencentCloudClient \x7b credential: " ++ c.credential.shown ++ ", region: " ++
    Text.quoted c.region ++ " \x7d"

/-- The endpoint of a service. -/
def endpoint (c : Client) (service : String) : String :=
  c.baseUrl.getD ("https://" ++ service ++ ".tencentcloudapi.com")

/-- The address of a service, and the host that is signed. -/
def address (c : Client) (service : String) : Except ClientError (Url × String) :=
  let endpoint := c.endpoint service
  match Url.ofText endpoint with
  | .error fault => .error (.invalidEndpoint endpoint fault.message)
  | .ok url =>
    match url.hostAndPort? with
    | none => .error (.invalidEndpoint endpoint "missing host")
    | some host => .ok (url, host)

/-! ## Requests -/

/-- The authorization of a request. -/
def authorization (c : Client) (r : SigningRequest) : Except ClientError String :=
  match r.authorization? c.credential.secretId c.credential.secretKey with
  | some text => .ok text
  | none => .error (.auth ("timestamp " ++ toString r.timestamp.toInt ++ " out of range"))

/-- The headers of a request. -/
def headers (c : Client) (action : ApiAction) (timestamp : Int64) (authorization : String) :
    List (String × String) :=
  [("Content-Type", contentType), ("Authorization", authorization), ("X-TC-Action", action.name),
    ("X-TC-Version", action.version), ("X-TC-Timestamp", toString timestamp.toInt),
    ("X-TC-Region", c.region)] ++
  (match c.credential.token with
    | some token => [("X-TC-Token", token)]
    | none => [])

/-- The signed request of an action at a moment. -/
def request (c : Client) (action : ApiAction) (body : Json) (url : Url) (host : String)
    (timestamp : Int64) : Except ClientError HttpRequest := do
  let payload := Text.utf8 body.compactText
  let authorization ← c.authorization { service := action.service, host, payload, timestamp }
  .ok {
    url := url.sendAddress
    headers := url.userHeaders ++ c.headers action timestamp authorization
    body := payload }

/-- Calls an action, and decodes the members of its response. -/
def call (c : Client) (net : Network τ) (action : ApiAction) (body : Json)
    (decode : List (String × Json) → Option α) (s : τ) : Except ClientError α × τ :=
  match c.address action.service with
  | .error e => (.error e, s)
  | .ok (url, host) =>
    let (timestamp, s) := net.now s
    match c.request action body url host timestamp with
    | .error e => (.error e, s)
    | .ok request =>
      match net.post request s with
      | (.error fault, s) => (.error (.network fault), s)
      | (.ok reply, s) => (reply.outcome action.name decode, s)

/-! ## Listings -/

def listAction : ApiAction := ⟨"sqlserver", "2018-03-28", "DescribeDBInstances"⟩

/-- How many instances a page holds. -/
def listLimit : Nat := 20

/-- A member that is left out when it has no value. -/
def optionalMember (name : String) (value : Option Json) : List (String × Json) :=
  match value with
  | some v => [(name, v)]
  | none => []

/-- A whole number that fits an unsigned word. -/
def countJson (n : Nat) : Json := Json.uint64 (UInt64.ofNat n)

/-- The body of a listing request. -/
def listBody (filter : InstanceFilter) (offset : Nat) : Json :=
  .object (
    optionalMember "ProjectId" (filter.projectId.map Json.int64) ++
    optionalMember "InstanceIdSet" (filter.instanceId.map fun id => .array [.string id]) ++
    optionalMember "VpcId" (filter.vpcId.map .string) ++
    optionalMember "SubnetId" (filter.subnetId.map .string) ++
    [("Offset", countJson offset), ("Limit", countJson listLimit)])

def listPage (c : Client) (net : Network τ) (filter : InstanceFilter) (offset : Nat) (s : τ) :
    Except ClientError (Page DbInstance) × τ :=
  c.call net listAction (listBody filter offset) instancePage? s

/-- The error of a walk that runs out of offsets. -/
def exhausted (action : ApiAction) : ClientError :=
  .invalidRequest action.name "no more offsets"

/-- All instances that a filter leaves. -/
def list (c : Client) (net : Network τ) (filter : InstanceFilter) (s : τ) :
    Except ClientError (List DbInstance) × τ :=
  match filter.projectId.filter (· < 0) with
  | some id =>
    (.error (.invalidRequest listAction.name
      ("ProjectId must not be negative, got " ++ toString id.toInt)), s)
  | none => Page.collectAll listLimit (c.listPage net filter) (exhausted listAction) s

/-! ## Tags -/

def tagAction : ApiAction := ⟨"tag", "2018-08-13", "DescribeResourceTagsByResourceIds"⟩

/-- How many tags a page holds. -/
def tagLimit : Nat := 50

/-- The body of a tag request. -/
def tagBody (query : TagQuery) (offset : Nat) : Json :=
  .object [
    ("ServiceType", .string query.serviceType),
    ("ResourcePrefix", .string query.resourceType),
    ("ResourceIds", .array [.string query.resourceId]),
    ("ResourceRegion", .string query.region),
    ("Offset", countJson offset),
    ("Limit", countJson tagLimit)]

def tagPage (c : Client) (net : Network τ) (query : TagQuery) (offset : Nat) (s : τ) :
    Except ClientError (Page ResourceTag) × τ :=
  c.call net tagAction (tagBody query offset) tagPage? s

/-- The tags of a resource. -/
def tags (c : Client) (net : Network τ) (query : TagQuery) (s : τ) :
    Except ClientError (Dict String) × τ :=
  match Page.collectAll tagLimit (c.tagPage net query) (exhausted tagAction) s with
  | (.error e, s) => (.error e, s)
  | (.ok tags, s) => (.ok (tagsOfResource query.resourceId tags), s)

/-! ## Services -/

/-- The client as the services of a read. -/
def services (c : Client) (net : Network τ) : Services τ where
  list filter s :=
    let (answer, s) := c.list net filter s
    (answer.mapError ClientError.toService, s)
  tags query s :=
    let (answer, s) := c.tags net query s
    (answer.mapError ClientError.toService, s)

end Client

end DbInventory
