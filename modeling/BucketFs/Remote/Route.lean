import BucketFs.Bytes.Utf8
import BucketFs.Remote.BucketName
import BucketFs.Remote.Partition
import BucketFs.Remote.ResourceName
import BucketFs.Remote.WebAddress

/-!
# Routes

A route leads to a bucket or to the service as a whole.  It depends on what the site of a client
says (a region, an endpoint, the style in which buckets are named) and on the form of the bucket:

* a directory bucket names its zone and is served to sessions;
* an alias of an outpost names the outpost;
* a bucket fit for it is a label of the host, unless the site wants it in the path;
* a resource name stands for an access point;
* every other bucket is named in the path.

`Site.route?` finds the route, if there is one.
-/

namespace BucketFs.Remote

open BucketFs.Text

/-- Where a service is to be found. -/
structure Site where
  region : String
  endpoint : Option String
  pathStyle : Bool
  deriving DecidableEq, Repr

/-- The way to a bucket or to the service. -/
structure Route where
  address : WebAddress
  /-- The region for which requests are signed, or the service if they are signed for all. -/
  region : String
  /-- Whether requests need a session. -/
  session : Bool := false
  deriving DecidableEq, Repr

namespace Route

/-- The route to a written address. -/
def to? (address region : String) : Option Route :=
  (WebAddress.parse? address).map fun a => { address := a, region := region }

/-- The route to a written address that takes a session. -/
def inSession? (address region : String) : Option Route :=
  (to? address region).map fun r => { r with session := true }

/-- The path of a key: the key below the path of the address, in plain characters and without the
slash in front.  A slash at the end of the path of the address does not count. -/
def pathOf (r : Route) (key : String) : String :=
  let base := r.address.path.toList
  let base := if base.getLast? = some separator then base.dropLast else base
  if base = [] then key
  else
    let plain := Bytes.ofUtf8Lossy (Percent.decodeBytes (Bytes.utf8 (String.ofList base)))
    String.ofList (plain.drop 1) ++ slash ++ key

end Route

namespace Site

/-- The region of a partition as a whole. -/
def globalRegion : String := "aws-global"

/-- The region for which requests to a site are signed. -/
def signingRegion (s : Site) : String :=
  if s.region = globalRegion then "us-east-1" else s.region

/-- The domain of the partition of a site. -/
def domain (s : Site) : String := (Partition.ofRegion s.region).domain

/-- A host in the region of a site. -/
def regionalHost (s : Site) (service : String) : String :=
  service ++ "." ++ s.region ++ "." ++ s.domain

/-- The host of the service at a site without an endpoint. -/
def host (s : Site) : String :=
  if s.region = globalRegion then "s3." ++ s.domain else s.regionalHost "s3"

/-- The endpoint of a site, if it has one that can be reached. -/
def custom? (s : Site) : Option WebAddress := s.endpoint.bind WebAddress.endpoint?

/-- Whether a site has an endpoint that cannot be reached. -/
def isBroken (s : Site) : Bool := s.endpoint.isSome && s.custom?.isNone

/-- The address with further labels in front of the host of an endpoint, or else of a host in the
region of the site. -/
def below (s : Site) (labels service : String) : String :=
  match s.custom? with
  | some a => a.scheme ++ "://" ++ labels ++ "." ++ a.authority ++ a.path
  | none => "https://" ++ labels ++ "." ++ s.regionalHost service

/-- The route to the service. -/
def serviceRoute? (s : Site) : Option Route :=
  if s.isBroken || !Host.isName s.region.toList then none
  else
    match s.custom? with
    | some a => some { address := a, region := s.signingRegion }
    | none => Route.to? ("https://" ++ s.host) s.signingRegion

/-- The route to a directory bucket, given what stands in front of its mark.  It is named in the
path of an endpoint only where the host is an address. -/
def directoryRoute? (s : Site) (bucket : String) (base : List Char) : Option Route :=
  match s.custom?, BucketName.isLabel bucket.toList with
  | some a, isLabel =>
    if a.isNumeric then
      Route.inSession? (a.origin ++ slash ++ BucketName.inPath bucket ++ a.path) s.region
    else if isLabel then Route.inSession? (s.below bucket "") s.region
    else none
  | none, true =>
    (BucketName.zone? base).bind fun zone =>
      Route.inSession? (s.below bucket ("s3express-" ++ zone)) s.region
  | none, false => none

/-- The service that answers for outposts.  Requests to it are signed for all regions, and the
scope of their signature has the service where others have a region. -/
def outpostService : String := "s3-outposts"

/-- The route to an alias on an outpost.  Trials are found at endpoints alone and the regular
service never is. -/
def outpostRoute? (s : Site) (bucket : String) (o : BucketName.OutpostAlias) : Option Route := do
  if !Host.isLabel o.outpost || !BucketName.isLabel bucket.toList then none
  let machine ←
    if o.hardware = ['e'] then some "ec2"
    else if o.hardware = ['o'] then some ("op-" ++ String.ofList o.outpost)
    else none
  let host ←
    if o.stage = "beta".toList then s.custom?.map (·.authority)
    else some (s.regionalHost outpostService)
  Route.to? ("https://" ++ bucket ++ "." ++ machine ++ "." ++ host) outpostService

/-- Whether a bucket is named in the host: one label, or several where connections to an endpoint
are not secured, as certificates cover one label. -/
def namesInHost (s : Site) (bucket : List Char) : Bool :=
  !s.pathStyle && (BucketName.isLabel bucket
    || (BucketName.isName bucket && s.custom?.any fun a => a.scheme = "http"))

/-- The route to a bucket that is named in the host, or in the path of an endpoint whose host is an
address and cannot have further labels. -/
def hostRoute? (s : Site) (bucket : String) : Option Route :=
  if !Host.isLabel s.region.toList then none
  else
    match s.custom? with
    | none => Route.to? ("https://" ++ bucket ++ "." ++ s.host) s.signingRegion
    | some a =>
      if a.isNumeric && BucketName.isLabel bucket.toList then
        Route.to? (a.origin ++ a.path ++ bucket) s.signingRegion
      else Route.to? (s.below bucket "") s.signingRegion

/-- The route to a bucket that is named in the path.  The path of an endpoint is continued as it
is. -/
def pathRoute? (s : Site) (bucket : String) : Option Route :=
  match s.custom? with
  | none => Route.to? ("https://" ++ s.host ++ slash ++ BucketName.inPath bucket) s.signingRegion
  | some a => Route.to? (a.origin ++ a.path ++ BucketName.inPath bucket) s.signingRegion

/-- Whether a resource belongs to the partition of a site. -/
def sharesPartition (s : Site) (r : ResourceName) : Bool :=
  (Partition.ofRegion r.region).name = (Partition.ofRegion s.region).name

/-- Whether the region and the account of a resource may be parts of a host. -/
def isPlaced (r : ResourceName) : Bool :=
  Host.isName r.region.toList && Host.isLabel r.account.toList

/-- The route to an access point of a region. -/
def accessPointRoute? (s : Site) (r : ResourceName) (name service : String) : Option Route :=
  if s.sharesPartition r && isPlaced r && Host.isLabel name.toList then
    Route.to? ({ s with region := r.region }.below (name ++ "-" ++ r.account) service) r.region
  else none

/-- The route to an access point of all regions. -/
def worldwideRoute? (s : Site) (r : ResourceName) (name : String) : Option Route :=
  if Host.isName name.toList && (Partition.ofRegion s.region).name = r.partition then
    Route.to? ("https://" ++ name ++ ".accesspoint.s3-global." ++ s.domain) "s3"
  else none

/-- The route to an access point on an outpost. -/
def outpostPointRoute? (s : Site) (r : ResourceName) (outpost name : String) : Option Route :=
  if Host.isLabel outpost.toList && s.sharesPartition r && isPlaced r then
    let host := (s.custom?.map (·.authority)).getD
      ({ s with region := r.region }.regionalHost outpostService)
    Route.to? ("https://" ++ name ++ "-" ++ r.account ++ "." ++ outpost ++ "." ++ host)
      outpostService
  else none

/-- The service that answers for access points of a kind of their own. -/
def lambdaService : String := "s3-object-lambda"

/-- The route to a resource: an access point with a region or without one, or one on an outpost. -/
def resourceRoute? (s : Site) (r : ResourceName) : Option Route :=
  match r.resource with
  | "accesspoint" :: name :: more =>
    if name = "" then none
    else if r.region = "" then
      if r.service = lambdaService then none else s.worldwideRoute? r name
    else if more ≠ [] then none
    else if r.service = lambdaService then s.accessPointRoute? r name lambdaService
    else if r.service = "s3" then s.accessPointRoute? r name "s3-accesspoint"
    else none
  | [type, outpost, "accesspoint", name] =>
    if r.service = "s3-outposts" && type ≠ "" then s.outpostPointRoute? r outpost name else none
  | _ => none

/-- The route to a bucket of no special form. -/
def plainRoute? (s : Site) (bucket : String) : Option Route :=
  if s.isBroken then none
  else if s.namesInHost bucket.toList then s.hostRoute? bucket
  else
    match ResourceName.parse? bucket with
    | some r => if s.pathStyle then none else s.resourceRoute? r
    | none => if ResourceName.isClaimed bucket then none else s.pathRoute? bucket

/-- The route to a bucket. -/
def bucketRoute? (s : Site) (bucket : String) : Option Route :=
  match BucketName.directoryBase? bucket, BucketName.outpostAlias? bucket with
  | some base, _ => s.directoryRoute? bucket base
  | none, some o => s.outpostRoute? bucket o
  | none, none => s.plainRoute? bucket

/-- The route to a bucket, or to the service where there is none. -/
def route? (s : Site) (bucket : Option String) : Option Route :=
  match bucket with
  | some bucket => s.bucketRoute? bucket
  | none => s.serviceRoute?

end Site

end BucketFs.Remote
