/-
# DbInventory.Url.Basic -- addresses

An address as it is read from the text of an endpoint: parts that are normal already, so that
the text of an address can be written without looking at the schemes again.
-/

import DbInventory.Url.Host

namespace DbInventory

/-- An address. The port is missing if it is the usual one of the scheme. -/
structure Url where
  scheme : String
  username : String
  password : Option String
  host : Option Host
  port : Option Nat
  path : String
  query : Option String
  fragment : Option String
  deriving DecidableEq

namespace Url

/-- User and password, with an at sign, if there are any. -/
def userText (u : Url) : String :=
  match u.password with
  | some password => u.username ++ ":" ++ password ++ "@"
  | none => if u.username = "" then "" else u.username ++ "@"

def portText (u : Url) : String :=
  match u.port with
  | some port => ":" ++ toString port
  | none => ""

/-- The host with its port, as a request names it. -/
def hostAndPort? (u : Url) : Option String :=
  u.host.map fun host => host.text ++ u.portText

/-- What stands between the scheme and the path. -/
def authorityText (u : Url) : String :=
  match u.host with
  | some host => "//" ++ u.userText ++ host.text ++ u.portText
  | none => if u.scheme = "file" then "//" else ""

def queryText (u : Url) : String :=
  match u.query with
  | some query => "?" ++ query
  | none => ""

def fragmentText (u : Url) : String :=
  match u.fragment with
  | some fragment => "#" ++ fragment
  | none => ""

def text (u : Url) : String :=
  u.scheme ++ ":" ++ u.authorityText ++ u.path ++ u.queryText ++ u.fragmentText

/-- The address without user and password. -/
def withoutUser (u : Url) : Url := { u with username := "", password := none }

end Url

end DbInventory
