import AisphereHub.Foundation.GoPath
import AisphereHub.GitCli.Store

/-! The git credential helper: the request that Git writes to it, the endpoint test, and `get`
over the session store. `erase` reads its request and leaves the store as it is. -/
namespace AisphereHub

open GoStrings Threads

/-- `extra` lists the newest value first. -/
structure CredentialRequest where
  protocol : String := ""
  host : String := ""
  path : String := ""
  username : String := ""
  password : String := ""
  wwwAuth : List String := []
  caps : List String := []
  extra : List (String × String) := []

def splitKV (line : String) : Option (String × String) :=
  if '=' ∈ line.toList then
    some (trimSpace (String.ofList (line.toList.takeWhile (· ≠ '='))),
      trimSpace (String.ofList ((line.toList.dropWhile (· ≠ '=')).drop 1)))
  else none

def CredentialRequest.assign (r : CredentialRequest) (key value : String) : CredentialRequest :=
  match key with
  | "protocol" => { r with protocol := value }
  | "host" => { r with host := value }
  | "path" => { r with path := value }
  | "username" => { r with username := value }
  | "password" => { r with password := value }
  | "wwwauth[]" => { r with wwwAuth := r.wwwAuth ++ [value] }
  | "capability[]" => { r with caps := r.caps ++ [value] }
  | _ => { r with extra := (key, value) :: r.extra }

/-- The scanner's buffer, which has to hold a line together with its end. -/
def maxLine : Nat := 1024 * 1024

def parseLines (r : CredentialRequest) : List String → CredentialRequest × Option String
  | [] => (r, none)
  | piece :: rest =>
    if maxLine ≤ piece.utf8ByteSize then (r, some "bufio.Scanner: token too long")
    else
      let line := trimSuffix piece "\r"
      if line = "" then (r, none)
      else
        match splitKV line with
        | none => parseLines r rest
        | some (key, value) => parseLines (r.assign key value) rest

def parseRequest (stream : String) : CredentialRequest × Option String :=
  parseLines {} (split stream '\n')

def splitEndpoint (endpoint : String) : String × String :=
  let endpoint := trimSpace endpoint
  let rest :=
    match endpoint.toList.tails.find? ("://".toList.isPrefixOf ·) with
    | some found => found.drop 3
    | none => endpoint.toList
  let path := trim (String.ofList (rest.dropWhile (· ≠ '/'))) '/'
  (String.ofList (rest.takeWhile (· ≠ '/')), if path = "" then "" else path ++ "/")

/-- `strings.EqualFold` over the case folding of letters. -/
def equalFold (fold : Char → Char) (s t : String) : Prop :=
  s.toList.map fold = t.toList.map fold

instance (fold : Char → Char) (s t : String) : Decidable (equalFold fold s t) :=
  inferInstanceAs (Decidable (_ = _))

def isOurEndpoint (fold : Char → Char) (endpoint : String) (req : CredentialRequest) : Bool :=
  let (expectedHost, expectedPathPrefix) := splitEndpoint endpoint
  if expectedHost = "" then false
  else if ¬ equalFold fold req.host expectedHost then false
  else if req.path = "" then true
  else hasPrefix req.path expectedPathPrefix

def fallbackUsername (c : Credentials) : String :=
  if c.subjectName ≠ "" then c.subjectName
  else if c.subjectID ≠ "" then c.subjectID
  else "aisphere"

def CredentialRequest.answer (req : CredentialRequest) (c : Credentials) : List (String × String) :=
  if "authtype" ∈ req.caps then
    [("capability[]", "authtype"), ("authtype", "Bearer"), ("credential", c.accessToken),
      ("ephemeral", "1")]
  else [("username", fallbackUsername c), ("password", c.accessToken)]

/-- `Get`: the pairs it writes, or its error. `P` is `LoadAndRefresh`, with or without a record
of the refreshes. -/
def credentialGet {σ : Type} (P : Program σ RefreshCall Unit RefreshAnswer)
    (fold : Char → Char) (endpoint stream : String) (answers : List RefreshAnswer) (s : σ) :
    Option (σ × Except StoreError (List (String × String))) :=
  match parseRequest stream with
  | (_, some cause) => some (s, .error (.other ("parse request: " ++ cause)))
  | (req, none) =>
    if isOurEndpoint fold endpoint req then
      match P.serve s () answers with
      | some (s', .returned out) => some (s', out.map req.answer)
      | _ => none
    else some (s, .ok [])

end AisphereHub
