import BucketFs.Error
import BucketFs.Json.Value
import BucketFs.Text.Number
import BucketFs.Text.Separated

/-!
# Settings

The credentials and the endpoint of a filesystem, and the sizes that its transfers and listings
use.  Settings come from the process environment or from the map given when a filesystem is opened;
numbers that cannot be read leave the setting as it was.
-/

namespace BucketFs

open BucketFs.Text

/-- Named texts, such as the variables of a process. -/
abbrev Environment := List (String × String)

/-- The settings of a filesystem. -/
structure Settings where
  accessKey : Option String := none
  secretKey : Option String := none
  endpoint : Option String := none
  pathStyleAccess : Bool := false
  region : String := "us-east-1"
  chunkSize : Nat := 8 * 1024 * 1024
  maxConcurrency : Nat := 8
  maxKeys : Nat := 1000
  logLevel : String := "info"
  deriving DecidableEq, Repr

namespace Settings

/-- The settings without any source. -/
def byDefault : Settings := {}

/-- The first of several variables that is set. -/
def firstSet? (env : Environment) (names : List String) : Option String :=
  names.findSome? fun n => env.lookup n

/-- `1`, and `true` in any case, mean yes; all else means no. -/
def readSwitch (s : String) : Bool := s == "1" || lowerAscii s == "true"

/-- A word, or the present value where the variable is unset or unreadable. -/
def readNumber (present : Nat) (value : Option String) : Nat :=
  (value.bind readWord?).getD present

/-- The settings that a process environment makes. -/
def ofEnvironment (env : Environment) : Settings :=
  let d := byDefault
  { accessKey := firstSet? env ["S3FS_ACCESS_KEY", "AWS_ACCESS_KEY_ID"]
    secretKey := firstSet? env ["S3FS_SECRET_KEY", "AWS_SECRET_ACCESS_KEY"]
    endpoint := env.lookup "S3FS_ENDPOINT"
    pathStyleAccess := ((env.lookup "S3FS_PATH_STYLE_ACCESS").map readSwitch).getD d.pathStyleAccess
    region := (firstSet? env ["S3FS_REGION", "AWS_REGION"]).getD d.region
    chunkSize := readNumber d.chunkSize (env.lookup "S3FS_CHUNK_SIZE")
    maxConcurrency := readNumber d.maxConcurrency (env.lookup "S3FS_MAX_CONCURRENCY")
    maxKeys := readNumber d.maxKeys (env.lookup "S3FS_MAX_KEYS")
    logLevel := (env.lookup "LOG_LEVEL").getD d.logLevel }

/-- The settings with those of a map in their place; unknown names are ignored. -/
def overlay (c : Settings) (env : Environment) : Settings :=
  { c with
    accessKey := env.lookup "access_key" <|> c.accessKey
    secretKey := env.lookup "secret_key" <|> c.secretKey
    endpoint := env.lookup "endpoint" <|> c.endpoint
    pathStyleAccess := ((env.lookup "path_style_access").map readSwitch).getD c.pathStyleAccess
    region := (env.lookup "region").getD c.region
    chunkSize := readNumber c.chunkSize (env.lookup "upload_chunk_size")
    maxConcurrency := readNumber c.maxConcurrency (env.lookup "upload_max_threads") }

/-- Refuses settings under which nothing could be sent or listed. -/
def check (c : Settings) : Result Unit :=
  if c.maxConcurrency = 0 then .error (.invalidArgument .noConcurrency)
  else if c.maxKeys = 0 then .error (.invalidArgument .noMaxKeys)
  else .ok ()

/-- The identity under which a filesystem is registered: the access key, or nothing. -/
def identity (c : Settings) : String := c.accessKey.getD ""

/-- The members of stored settings, in order. -/
def fieldNames : List String :=
  ["accessKey", "secretKey", "endpoint", "pathStyleAccess", "region", "chunkSize",
   "maxConcurrency", "maxKeys", "logLevel"]

/-- The record of settings; texts that are not set are null. -/
def toJson (c : Settings) : Json.Value :=
  .record [
    ("accessKey", .ofOptionalText c.accessKey),
    ("secretKey", .ofOptionalText c.secretKey),
    ("endpoint", .ofOptionalText c.endpoint),
    ("pathStyleAccess", .bool c.pathStyleAccess),
    ("region", .ofText c.region),
    ("chunkSize", .ofWord c.chunkSize),
    ("maxConcurrency", .ofWord c.maxConcurrency),
    ("maxKeys", .ofWord c.maxKeys),
    ("logLevel", .ofText c.logLevel)]

/-- Reads stored settings; only the three optional texts may be left out. -/
def ofJson? (v : Json.Value) : Option Settings := do
  match ← v.fields? fieldNames with
  | [accessKey, secretKey, endpoint, pathStyle, region, chunkSize, concurrency, maxKeys,
      logLevel] =>
    some {
      accessKey := ← (accessKey.getD .null).asOptionalText?
      secretKey := ← (secretKey.getD .null).asOptionalText?
      endpoint := ← (endpoint.getD .null).asOptionalText?
      pathStyleAccess := ← pathStyle.bind (·.asBool?)
      region := ← region.bind (·.asText?)
      chunkSize := ← chunkSize.bind (·.asWord?)
      maxConcurrency := ← concurrency.bind (·.asWord?)
      maxKeys := ← maxKeys.bind (·.asWord?)
      logLevel := ← logLevel.bind (·.asText?) }
  | _ => none

end Settings

end BucketFs
