import ArangoDataTools.Interaction
import ArangoDataTools.Jwt
import ArangoDataTools.RdfLines

namespace ArangoDataTools.Tokens
open Interaction Interaction.Program Jwt

inductive AuthConfig where
  | none
  | basic (username password : String)
  | bearer (token : String)
  | jwtSecret (secret : String)
  | jwtLogin (username password : String)
  deriving DecidableEq, Repr

structure CachedToken where
  value : String
  expiresAt : Option Nat
  deriving DecidableEq, Repr

inductive Authorization where
  | none
  | basic (username password : String)
  | bearer (token : String)
  deriving DecidableEq, Repr

structure HttpRequest where
  method : String
  url : String
  contentType : Option String := none
  body : Option (List UInt8) := none
  authorization : Authorization := .none
  deriving DecidableEq, Repr

structure HttpResponse where
  status : Nat
  body : List UInt8
  deriving DecidableEq, Repr

structure ReqwestError where
  isTimeout : Bool
  isConnect : Bool
  text : String
  deriving DecidableEq, Repr

-- The cache behind the lock all clones share, the clock, and the exchanges with
-- the server; the login is told from the others as it carries no token.
inductive TokenOp where
  | cachedToken
  | storeToken (token : CachedToken)
  | invalidateToken
  | now
  | login (request : HttpRequest)
  | send (request : HttpRequest)
  | count (counter : Counter)

abbrev TokenOp.Answer : TokenOp → Type
  | cachedToken => Option CachedToken
  | now => Nat
  | login _ | send _ => Except ReqwestError HttpResponse
  | storeToken _ | invalidateToken | count _ => Unit

abbrev Exchange (α : Type) := Program TokenOp TokenOp.Answer Error α

def act (op : TokenOp) : Exchange op.Answer := perform op

section Errors

-- `String::from_utf8_lossy`: a lead byte says how many continuation bytes follow
-- and bounds the first of them; a sequence that breaks off is one replacement.
def sequence (lead : UInt8) : Option (Nat × UInt8 × UInt8) :=
  if lead < 0x80 then some (0,0x80,0xBF)
  else if 0xC2 ≤ lead && lead ≤ 0xDF then some (1,0x80,0xBF)
  else if lead = 0xE0 then some (2,0xA0,0xBF)
  else if lead = 0xED then some (2,0x80,0x9F)
  else if 0xE1 ≤ lead && lead ≤ 0xEF then some (2,0x80,0xBF)
  else if lead = 0xF0 then some (3,0x90,0xBF)
  else if lead = 0xF4 then some (3,0x80,0x8F)
  else if 0xF1 ≤ lead && lead ≤ 0xF3 then some (3,0x80,0xBF)
  else none

def continuations : Nat → UInt8 → UInt8 → List UInt8 → List UInt8
  | count+1, low, high, byte :: rest =>
    if low ≤ byte && byte ≤ high then byte :: continuations count 0x80 0xBF rest else []
  | _, _, _, _ => []

def leadBits (lead : UInt8) : Nat → Nat
  | 0 => lead.toNat
  | 1 => lead.toNat % 32
  | 2 => lead.toNat % 16
  | _ => lead.toNat % 8

def lossy : Nat → List UInt8 → List Char
  | fuel+1, lead :: rest => match sequence lead with
    | some (count,low,high) =>
      let follow := continuations count low high rest
      if follow.length = count then
        Char.ofNat (follow.foldl (fun value byte => value * 64 + byte.toNat % 64)
          (leadBits lead count)) :: lossy fuel (rest.drop count)
      else '\uFFFD' :: lossy fuel (rest.drop follow.length)
    | none => '\uFFFD' :: lossy fuel rest
  | _, _ => []

def fromUtf8Lossy (bytes : List UInt8) : List Char := lossy bytes.length bytes

def serverResponseTruncated (context : ErrorContext) (response : List Char) : ErrorContext :=
  let text := RdfLines.trim response
  if text.isEmpty then context
  else {context with serverResponse := some (String.ofList (if 300 < text.length then text.take 300 ++ ['…'] else text))}

def mapReqwestError (err : ReqwestError) : Error :=
  if err.isTimeout then .connection ("request timed out: " ++ err.text)
  else if err.isConnect then .connection ("could not connect: " ++ err.text)
  else .connection err.text

def arangoErrorMessage (signer : Signer) (body : List UInt8) : Option String :=
  ((signer.fromSlice body).bind fun value => value.get "errorMessage").bind Value.asStr

def isUnauthorized : Error → Bool
  | .http status _ _ => status == 401
  | _ => false

end Errors

-- One client and its clones: `join` resolves a reference against the endpoint,
-- `statusText` is a status with its reason phrase.
structure ArangoClient where
  auth : AuthConfig
  database : String
  retry : RetryPolicy := {}
  join : String → Except String String
  signer : Signer
  statusText : Nat → String

namespace ArangoClient

variable (client : ArangoClient)

def withDatabase (database : String) : ArangoClient := {client with database := database}

def isSuccess (status : Nat) : Bool := 200 ≤ status && status < 300

def httpError (response : HttpResponse) : Error :=
  match arangoErrorMessage client.signer response.body with
  | some message => .http response.status message {}
  | none => .http response.status (client.statusText response.status)
      (serverResponseTruncated {} (fromUtf8Lossy response.body))

def received : Except ReqwestError HttpResponse → Except Error (List UInt8)
  | .error err => .error (mapReqwestError err)
  | .ok response => if isSuccess response.status then .ok response.body else .error (client.httpError response)

def loggedIn (username : String) : Except ReqwestError HttpResponse → Except Error String
  | .error err => .error (mapReqwestError err)
  | .ok response =>
    if isSuccess response.status then
      match ((client.signer.fromSlice response.body).bind fun value => value.get "jwt").bind Value.asStr with
      | some token => .ok token
      | none => .error (.config "POST /_open/auth succeeded but returned no 'jwt' field")
    else
      let detail := (arangoErrorMessage client.signer response.body).getD (client.statusText response.status)
      .error (.http response.status
        (String.join ["JWT login failed for user '",username,"' at /_open/auth: ",detail,
        ". Check the username and password; this endpoint does not accept a JWT secret (use --jwt-secret-file for that)."]) {})

def login (username password : String) : Exchange String :=
  (lift ((client.join "/_open/auth").mapError fun err =>
    .config ("invalid login URL for this endpoint: " ++ err))).bind fun url =>
    (lift (client.signer.toVec (.object [("password",.string password),("username",.string username)]))).bind fun body =>
      (act (.login {method := "POST",url := url,contentType := some "application/json",body := some body})).bind fun answer =>
        lift (client.loggedIn username answer)

def expiring : Option Nat → Exchange Bool
  | some exp => (act .now).bind fun now => done (isExpiring now (some exp))
  | none => done false

def obtainToken : Exchange String :=
  match client.auth with
  | .jwtSecret secret => (act .now).bind fun issued => lift (mintSuperuserJwt client.signer issued secret)
  | .jwtLogin username password => client.login username password
  | _ => fail (.config "no JWT credentials configured")

def renewToken : Exchange String :=
  client.obtainToken.bind fun token =>
    (act (.storeToken ⟨token,tokenExpiry client.signer token⟩)).bind fun _ => done token

def bearerToken : Exchange String :=
  (act .cachedToken).bind fun
    | some cached => (expiring cached.expiresAt).bind fun lapsing => if lapsing then
        client.renewToken else done cached.value
    | none => client.renewToken

def applyAuth (request : HttpRequest) : Exchange HttpRequest :=
  match client.auth with
  | .none => done request
  | .basic username password => done {request with authorization := .basic username password}
  | .bearer token => done {request with authorization := .bearer token}
  | .jwtSecret _ | .jwtLogin _ _ => client.bearerToken.bind fun token =>
      done {request with authorization := .bearer token}

def exchange (request : HttpRequest) : Exchange (List UInt8) :=
  (client.applyAuth request).bind fun request => (act (.send request)).bind fun answer =>
    lift (client.received answer)

def canRefreshToken : Bool :=
  match client.auth with
  | .jwtSecret _ | .jwtLogin _ _ => true
  | _ => false

def secretHint : String :=
  String.join
    ["the JWT secret was rejected. It must match the server's --server.jwt-secret-keyfile byte for byte — a trailing newline in the ",
    "secret file is the usual cause (this client already trims one). Confirm with: curl -H \"Authorization: bearer <token>\" ",
    "<endpoint>/_api/version"]
def loginHint : String :=
  String.join
    ["the login at POST /_open/auth succeeded earlier but the token was then refused. The user may lack rights on this database, ",
    "or the server's JWT secret may have been rotated mid-run"]

def hinted (error : Error) (hint : String) : Error :=
  match error with
  | .http _ message _ => .http 401 (String.join [message,". Hint: ",hint]) {}
  | other => .http 401 (String.join [other.display,". Hint: ",hint]) {}

def explainAuthFailure (error : Error) : Error :=
  if isUnauthorized error then
    match client.auth with
    | .jwtSecret _ => hinted error secretHint
    | .jwtLogin _ _ => hinted error loginHint
    | _ => error
  else error

-- What `send_request` and `send_body` make of their attempt.
def reauthenticating (tried : Exchange (List UInt8)) : Exchange (List UInt8) :=
  (attempt tried).bind fun
    | .ok payload => done payload
    | .error err =>
      if isUnauthorized err && client.canRefreshToken then
        (act .invalidateToken).bind fun _ => (attempt tried).bind fun
          | .ok payload => done payload
          | .error err => fail (client.explainAuthFailure err)
      else fail err

def urlFor (path : String) : Except Error String :=
  let reference := String.join ["/_db/",client.database,path]
  (client.join reference).mapError fun err =>
    .config (String.join ["invalid request URL '",reference,"': ",err])

def attemptRequest (method path : String) (body : Option (List UInt8)) : Exchange (List UInt8) :=
  (lift (client.urlFor path)).bind fun url =>
    client.exchange {method := method,url := url,contentType := body.map fun _ =>
      "application/json",body := body}

def attemptBody (method url contentType : String) (body : List UInt8) : Exchange (List UInt8) :=
  client.exchange {method := method,url := url,contentType := some contentType,body := some body}

def sendRequest (method path : String) (body : Option (List UInt8)) : Exchange (List UInt8) :=
  client.reauthenticating (client.attemptRequest method path body)

def sendBody (method url contentType : String) (body : List UInt8) : Exchange (List UInt8) :=
  client.reauthenticating (client.attemptBody method url contentType body)

def retrying (tried : Exchange (List UInt8)) : Exchange (List UInt8) :=
  ArangoDataTools.retry client.retry (fun counter => act (.count counter)) (attempt tried)

def execute (method path : String) (body : Option (List UInt8)) : Exchange (List UInt8) :=
  client.retrying (client.sendRequest method path body)

-- `list_databases`, `server_role` and `replication_dump_chunk` retry the bare exchange.
def fetch (url : String) : Exchange (List UInt8) :=
  client.retrying (client.exchange {method := "GET",url := url})

end ArangoClient
end ArangoDataTools.Tokens
