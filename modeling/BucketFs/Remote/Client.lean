import BucketFs.Call.Program
import BucketFs.Remote.Reply
import BucketFs.Remote.Request
import BucketFs.Remote.Route
import BucketFs.Settings
import BucketFs.Text.Blank

/-!
# Clients of a remote service

A client routes and signs requests.  It needs credentials: both keys of its settings, or those of
the environment.

Requests to a directory bucket are made in a session, which has to be opened first.  A reply here
answers a store call; the reply that would open a session is not among them.  A session is asked for
and never granted, then, and every request that waits for one fails.

* `Client.dispatch` decides what becomes of a request.
* `Client.answer` answers a store call by way of a transport, and `Client.handler` lets a program
  run over a service.
-/

namespace BucketFs.Remote

open BucketFs.Text

/-- A client of one site. -/
structure Client extends Site where
  /-- The access key that signs; nothing where credentials are missing. -/
  accessKey : Option String
  deriving DecidableEq, Repr

/-- A request on its way. -/
structure SignedRequest where
  request : Request
  origin : String
  path : String
  accessKey : String
  region : String
  deriving DecidableEq, Repr

/-- What becomes of a request. -/
inductive Dispatch where
  /-- It cannot be routed or signed. -/
  | refused
  /-- It waits for a session that this request opens. -/
  | opens (session : SignedRequest)
  | sends (request : SignedRequest)
  deriving DecidableEq, Repr

namespace Client

/-- A text that is more than white space. -/
def filled? (s : Option String) : Option String := s.filter fun v => !isBlankText v

/-- The access key under which requests are signed: the configured one if both keys are set, else
that of the environment if it has both.  The secret key has two names there. -/
def credentials? (c : Settings) (env : Environment) : Option String :=
  match c.accessKey, c.secretKey with
  | some accessKey, some _ => some accessKey
  | _, _ => do
    let accessKey ← filled? (env.lookup "AWS_ACCESS_KEY_ID")
    let _ ← filled? (filled? (env.lookup "AWS_SECRET_ACCESS_KEY")
      <|> env.lookup "SECRET_ACCESS_KEY")
    some accessKey

/-- The client of settings. -/
def ofSettings (c : Settings) (env : Environment) : Client :=
  { region := c.region
    endpoint := c.endpoint
    pathStyle := c.pathStyleAccess
    accessKey := credentials? c env }

/-- The client of a filesystem: its host is the endpoint unless one is configured. -/
def ofHost (host : String) (c : Settings) (env : Environment) : Client :=
  if host = "" ∨ c.endpoint.isSome then ofSettings c env
  else ofSettings { c with endpoint := some host } env

/-- Whether a key may be named.  It must not be empty; in most requests it must not be blank. -/
def isKey (mayBeBlank : Bool) (key : String) : Bool :=
  if mayBeBlank then key ≠ "" else !isBlankText key

/-- Whether the bucket and the key of a request may be named. -/
def isSubject (mayBeBlank : Bool) : Subject → Bool
  | .service => true
  | .bucket bucket => !isBlankText bucket
  | .object bucket key => !isBlankText bucket && isKey mayBeBlank key

/-- Whether a text may be the value of a header: no control characters but tabs. -/
def isHeaderText (s : String) : Bool :=
  s.toList.all fun c => c = '\t' || (0x20 ≤ c.toNat && c.toNat ≠ 0x7f)

/-- Whether a request names its upload, where it has to. -/
def namesUpload (r : Request) : Bool := r.query.lookup "uploadId" != some ""

/-- Whether all parts of a request are there and can be written down. -/
def isSound (r : Request) : Bool :=
  isSubject r.isPartCopy r.subject && namesUpload r && r.headers.all (isHeaderText ·.2)

/-- A request on a route. -/
def signOn (r : Request) (route : Route) (accessKey : String) : SignedRequest :=
  { request := r
    origin := route.address.origin
    path := route.pathOf r.subject.key
    accessKey := accessKey
    region := route.region }

/-- The request that opens a session with a bucket. -/
def sessionRequest (bucket : String) : Request := { method := .get, subject := .bucket bucket }

/-- Decides what becomes of a request.  Copies are made without a session. -/
def dispatch (c : Client) (r : Request) : Dispatch :=
  match c.accessKey, c.route? r.subject.bucket? with
  | some accessKey, some route =>
    if !isSound r then .refused
    else
      match r.subject.bucket? with
      | some bucket =>
        if route.session && !r.isCopy then .opens (signOn (sessionRequest bucket) route accessKey)
        else .sends (signOn r route accessKey)
      | none => .sends (signOn r route accessKey)
  | _, _ => .refused

end Client

/-- Carries requests to the service and its answers back, from a state of its own. -/
abbrev Transport (τ : Type) := (c : StoreCall) → SignedRequest → τ → Reply c × τ

/-- The answer to a call.  A request that cannot be routed or signed fails without being sent, and
one that waits for a session fails once the session was asked for. -/
def Client.answer {τ : Type} (client : Client) (transport : Transport τ) (c : StoreCall) (t : τ) :
    Result c.Value × τ :=
  match requestOf c with
  | .error e => (.error e, t)
  | .ok none => (emptyAnswer c, t)
  | .ok (some r) =>
    match client.dispatch r with
    | .refused => (.error (errorOf c {}), t)
    | .opens session => (.error (errorOf c {}), (transport c session t).2)
    | .sends signed =>
      let (reply, t) := transport c signed t
      (readReply c reply, t)
where
  /-- The answer to a call that needs no request: no bytes. -/
  emptyAnswer : (c : StoreCall) → Result c.Value
    | .get _ _ _ => .ok []
    | c => .error (errorOf c {})

/-- Answers every store call by way of a transport, and file calls from one file. -/
def Client.handler {τ : Type} (client : Client) (transport : Transport τ) :
    Handler (τ × LocalFile)
  | .store _ c, (t, file) =>
    ((client.answer transport c t).1, ((client.answer transport c t).2, file))
  | .file c, (t, file) => (file.answer c, (t, file))

end BucketFs.Remote
