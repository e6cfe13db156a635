/-
# DbInventory.Api.Envelope -- what replies say

A reply wraps its result in a `Response` object, beside the identifier of the request and an
error, if there is one. These two are read at once; all other members are read as trees and
decoded afterwards into the wanted type, and if that fails there is no result.
-/

import DbInventory.Api.Error
import DbInventory.Json.Record

namespace DbInventory

open Json (Reader Fault Cause Slot RecordForm)

/-! ## Errors in replies -/

/-- The error of a reply. -/
structure ReplyError where
  code : String
  text : String
  deriving DecidableEq

namespace ReplyError

inductive Field where
  | code
  | text
  deriving DecidableEq

/-- An error as a record: both fields are required. -/
def fields : Json.Fields Field where
  title := "struct ApiError"
  all := [.code, .text]
  name
    | .code => "Code"
    | .text => "Message"
  kind _ := .text
  required _ := true

def reader : Reader ReplyError := fun s => do
  let (f, s) ← fields.read s
  .ok (⟨(f .code).getD "", (f .text).getD ""⟩, s)

end ReplyError

/-! ## Responses -/

/-- A reply, with the members that belong to its result as they stand in the text. -/
structure Envelope where
  error : Option ReplyError
  requestId : Option String
  members : List (String × Json)

namespace Envelope

/-- The members seen so far; those of the result are in reverse order. -/
structure Seen where
  error : Option (Option ReplyError) := none
  requestId : Option (Option String) := none
  members : List (String × Json) := []

/-- How many brackets may be open inside a member: two are open around it. -/
def memberDepth : Nat := Json.maxDepth - 2

def readError (seen : Seen) : Reader Seen := fun s => do
  let (error, s) ← Json.readOptional ReplyError.reader s
  .ok ({ seen with error := some error }, s)

def readRequestId (seen : Seen) : Reader Seen := fun s => do
  let (requestId, s) ← Json.readOptional Json.readStringValue s
  .ok ({ seen with requestId := some requestId }, s)

def readMember (seen : Seen) (name : String) : Reader Seen := fun s => do
  let (v, s) ← Json.readTree memberDepth s
  .ok ({ seen with members := (name, v) :: seen.members }, s)

/-- The error and the identifier may not be repeated. -/
def slot (seen : Seen) (name : String) : Slot Seen :=
  if name = "Error" then
    if seen.error.isSome then .refuse (.duplicateField name) else .take (readError seen)
  else if name = "RequestId" then
    if seen.requestId.isSome then .refuse (.duplicateField name) else .take (readRequestId seen)
  else .take (readMember seen name)

def responseForm : RecordForm Seen Envelope where
  title := "struct ApiResponse"
  start := {}
  slot := slot
  elements := []
  finish seen := .ok ⟨seen.error.join, seen.requestId.join, seen.members.reverse⟩

/-- A response is given as an object only. -/
def readResponse (_ : Option Envelope) : Reader (Option Envelope) := fun s => do
  let (envelope, s) ← responseForm.readObjectOnly s
  .ok (some envelope, s)

def form : RecordForm (Option Envelope) Envelope where
  title := "struct ApiEnvelope"
  start := none
  slot seen name :=
    if name = "Response" then
      if seen.isSome then .refuse (.duplicateField name) else .take (readResponse seen)
    else .ignore
  elements := [readResponse]
  finish
    | some envelope => .ok envelope
    | none => .error (.missingField "Response")

/-- The envelope of a text. -/
def ofText (source : String) : Except Fault Envelope := Json.readAll form.read source

/-- What an envelope says: its error before anything else, and otherwise its result. -/
def outcome (envelope : Envelope) (action : String)
    (decode : List (String × Json) → Option α) : Except ClientError α :=
  match envelope.error with
  | some error => .error (.api error.code error.text (envelope.requestId.getD ""))
  | none =>
    match decode envelope.members with
    | some x => .ok x
    | none => .error (.parse action "response body is missing")

end Envelope

/-- What a reply says. The status counts only if the body is no envelope. -/
def HttpReply.outcome (reply : HttpReply) (action : String)
    (decode : List (String × Json) → Option α) : Except ClientError α :=
  match Envelope.ofText reply.text with
  | .ok envelope => envelope.outcome action decode
  | .error fault =>
    if reply.isSuccess then .error (.parse action (fault.message reply.text))
    else .error (.http reply.status ((reasonPhrase? reply.status).getD "unexpected status"))

end DbInventory
