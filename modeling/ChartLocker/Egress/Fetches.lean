import ChartLocker.Cache.Tables
import ChartLocker.Egress.Addresses
import ChartLocker.Egress.Health
import ChartLocker.Library.Machine
import ChartLocker.Library.Url
import ChartLocker.Style.Learner

/-!
# Guarded fetches

Every request of the service goes through `guarded_get_with_headers`, under a
permit which the response keeps until its body is read.  The fetches of the
tile routes and of the warms share `fetch_upstream`, which has the schedule of
its source, tries again behind a timeout and records the health of the source.
`fetch_json` of the style learner and the geocode proxy run under the timeout
of the client, with limits of their own, and send one request.

The name server, the upstreams, the schedule and the clock are in the labels.
No proxy is configured for the client, and it follows no redirect.
-/

namespace ChartLocker.Egress

open Library

abbrev Blob := Cache.Blob

def egressConcurrency : Nat := 8

def geocodeResponseMaxBytes : Nat := 256 * 1024

def maxTileJsonBytes : Nat := 256 * 1024

structure Knobs where
  maxBlobBytes : Nat
  allowPrivateEgress : Bool
  upstreamBaseTimeoutMs : Nat
deriving DecidableEq, Repr

structure Environment where
  /-- `Url::parse` and `host_str`. -/
  urlHost : String → Option String

/-! ## Addresses of a URL -/

/-- `parse::<IpAddr>`. -/
def parseIpAddr (text : List Char) : Option IpAddr :=
  match Url.parseIpAddr text with
  | some (.v4 [a, b, c, d]) =>
      some (.v4 ⟨.ofNat a, .ofNat b, .ofNat c, .ofNat d⟩)
  | some (.v6 [s0, s1, s2, s3, s4, s5, s6, s7]) =>
      some (.v6 ⟨.ofNat s0, .ofNat s1, .ofNat s2, .ofNat s3, .ofNat s4,
        .ofNat s5, .ofNat s6, .ofNat s7⟩)
  | _ => none

/-- A host without the brackets of an IPv6 literal. -/
def bareHost : List Char → List Char
  | '[' :: rest =>
      if rest.getLast? = some ']' then rest.dropLast else '[' :: rest
  | host => host

def hostLiteral (host : String) : Option IpAddr :=
  parseIpAddr (bareHost host.toList)

def isForbiddenIpLiteralUrl (env : Environment) (url : String) : Bool :=
  (env.urlHost url).any fun host => (hostLiteral host).any isForbiddenIp

/-- `GuardedResolver`, with what the name server has found. -/
def resolve (allowPrivate : Bool) (found : List IpAddr) : List IpAddr :=
  found.filter fun address => allowPrivate || !isForbiddenIp address

/-- The addresses which the connector of the client tries.  It asks the
resolver only for a host which is no literal. -/
def connectorTargets (env : Environment) (allowPrivate : Bool) (url : String)
    (found : List IpAddr) : List IpAddr :=
  match env.urlHost url with
  | none => []
  | some host =>
      match hostLiteral host with
      | some address => [address]
      | none => resolve allowPrivate found

/-! ## Requests and responses -/

inductive FetchError where
  | timeout
  | transport
deriving DecidableEq, Repr

/-- The parts of a response which the code looks at before the body. -/
structure Head where
  status : Nat
  contentType : Option String
  etag : Option String
  lastModified : Option String
  contentLength : Option Nat
deriving DecidableEq, Repr

structure Fetched where
  contentType : String
  validator : Option (List Char)
  body : Blob
deriving DecidableEq, Repr

def etagTag : List Char := "etag:".toList

def lastModifiedTag : List Char := "last-modified:".toList

/-- The validator which is stored with a body. -/
def Head.validator (head : Head) : Option (List Char) :=
  (head.etag.map fun value => etagTag ++ value.toList).or
    (head.lastModified.map fun value => lastModifiedTag ++ value.toList)

def Head.fetched (head : Head) (body : Blob) : Fetched where
  contentType := head.contentType.getD "application/octet-stream"
  validator := head.validator
  body := body

inductive ConditionalHeader where
  | ifNoneMatch (value : List Char)
  | ifModifiedSince (value : List Char)
deriving DecidableEq, Repr

/-- `strip_prefix(tag).unwrap_or(value)`. -/
def stripTag (tag value : List Char) : List Char :=
  if tag.isPrefixOf value then value.drop tag.length else value

/-- The header which `guarded_get` sends for a stored validator. -/
def conditionalHeader : Option (List Char) → Option ConditionalHeader
  | some value =>
      if lastModifiedTag.isPrefixOf value then
        some (.ifModifiedSince (stripTag lastModifiedTag value))
      else
        some (.ifNoneMatch (stripTag etagTag value))
  | none => none

/-! ## The service -/

/-- The callers of `guarded_get` which are not `fetch_upstream`. -/
inductive DirectCaller where
  /-- `fetch_json` of a style document. -/
  | style
  /-- `fetch_json` of the TileJSON of a style source. -/
  | tileJson
  | geocode
deriving DecidableEq, Repr

def DirectCaller.maxBytes : DirectCaller → Nat
  | .style => Style.maxStyleJsonBytes
  | .tileJson => maxTileJsonBytes
  | .geocode => geocodeResponseMaxBytes

inductive Caller where
  /-- `fetch_upstream`. -/
  | upstream (sourceId : String)
  | direct (caller : DirectCaller)
deriving DecidableEq, Repr

/-- The limit of `read_capped_to`. -/
def Caller.maxBytes (knobs : Knobs) : Caller → Nat
  | .upstream _ => knobs.maxBlobBytes
  | .direct caller => caller.maxBytes

def Caller.isDirect : Caller → Bool
  | .upstream _ => false
  | .direct _ => true

/-! ### `read_capped_to` -/

/-- A declared length past the limit is refused. -/
def declaredTooLong (maxBytes : Nat) (contentLength : Option Nat) : Bool :=
  decide (contentLength.getD 0 > maxBytes)

/-- The next chunk of a body, unless it goes past the limit. -/
def appendCapped (maxBytes : Nat) (buf bytes : Blob) : Option Blob :=
  if buf.length + bytes.length > maxBytes then none else some (buf ++ bytes)

theorem appendCapped_eq_some {maxBytes : Nat} {buf bytes grown : Blob} :
    appendCapped maxBytes buf bytes = some grown ↔
      (buf ++ bytes).length ≤ maxBytes ∧ grown = buf ++ bytes := by
  unfold appendCapped
  rw [List.length_append, ← Nat.not_lt]
  split
  · next long => exact iff_of_false nofun fun fits => fits.1 long
  · next fits =>
    rw [Option.some.injEq]
    exact ⟨fun same => ⟨fits, same.symm⟩, fun both => both.2.symm⟩

inductive Phase where
  /-- Before the loop reads the timeout. -/
  | starting
  | acquiring (timeoutMs : Nat)
  | sending (timeoutMs : Nat)
  | reading (head : Head) (buf : Blob)
deriving DecidableEq, Repr

/-- The permit is in `guarded_get_with_headers` or in the response. -/
def Phase.holdsPermit : Phase → Bool
  | .starting => false
  | .acquiring _ => false
  | .sending _ => true
  | .reading _ _ => true

def Phase.retained : Phase → Nat
  | .reading _ buf => buf.length
  | _ => 0

structure Fetch where
  caller : Caller
  url : String
  ifNoneMatch : Option (List Char)
  retried : Bool
  phase : Phase
deriving DecidableEq, Repr

/-- A request with the timeout that it runs under. -/
structure SentRequest where
  fetch : Nat
  caller : Caller
  timeoutMs : Nat
  conditional : Option ConditionalHeader
deriving DecidableEq, Repr

structure Connection where
  fetch : Nat
  address : IpAddr
deriving DecidableEq, Repr

inductive Outcome where
  | ok (head : Head) (fetched : Fetched)
  /-- A direct caller has not read the body: `fetch_json` goes on with what it
  has learned behind a 304, and any other status is an error. -/
  | unread (status : Nat)
  | error (reason : FetchError)
deriving DecidableEq, Repr

structure Result where
  fetch : Nat
  caller : Caller
  outcome : Outcome
deriving DecidableEq, Repr

/-- The service with what the network and its callers have seen of it, newest
first. -/
structure Client where
  free : Nat
  health : UpstreamHealth
  fetches : Nat → Option Fetch
  /-- The number of calls so far. -/
  started : Nat
  sent : List SentRequest
  timedOut : List Nat
  connections : List Connection
  events : List HealthEvent
  results : List Result

/-- What a fetch meets when it goes on. -/
inductive Event where
  /-- The timeout is read, and the literal is checked. -/
  | attempt
  | acquire
  /-- The connector tries one of its addresses. -/
  | connect (found : List IpAddr) (place : Nat)
  | timeOut (now : Int)
  | transport
  | respond (head : Head)
  | chunk (bytes : Blob)
  | finish (now : Int)
  /-- The future is dropped with its handler. -/
  | drop

inductive Label where
  | call (caller : Caller) (url : String) (ifNoneMatch : Option (List Char))
  | proceed (id : Nat) (event : Event)

namespace Client

variable (env : Environment) (knobs : Knobs) (service : Client)

def setFetch (id : Nat) (fetch : Option Fetch) : Client :=
  { service with fetches := Function.update service.fetches id fetch }

def record (event : HealthEvent) : Client :=
  { service with
    health := event.record service.health
    events := event :: service.events }

/-- A permit goes with the fetch that holds it. -/
def release (fetch : Fetch) : Client :=
  { service with free := service.free + fetch.phase.holdsPermit.toNat }

/-- The fetch returns. -/
def answer (id : Nat) (fetch : Fetch) (outcome : Outcome) : Client :=
  { (service.release fetch).setFetch id none with
    results := ⟨id, fetch.caller, outcome⟩ :: service.results }

def timeoutOf : Caller → Nat
  | .upstream sourceId =>
      service.health.timeoutMs knobs.upstreamBaseTimeoutMs sourceId
  | .direct _ => knobs.upstreamBaseTimeoutMs

def call (caller : Caller) (url : String)
    (ifNoneMatch : Option (List Char)) : Client :=
  { service.setFetch service.started
      (some ⟨caller, url, ifNoneMatch, false, .starting⟩) with
    started := service.started + 1 }

def attempt (id : Nat) (fetch : Fetch) : Client :=
  if !knobs.allowPrivateEgress && isForbiddenIpLiteralUrl env fetch.url then
    service.answer id fetch (.error .transport)
  else
    service.setFetch id (some { fetch with
      phase := .acquiring (service.timeoutOf knobs fetch.caller) })

/-- A permit is free, and the request is sent. -/
def acquire (id : Nat) (fetch : Fetch) (timeoutMs : Nat) : Client :=
  { service.setFetch id
      (some { fetch with phase := .sending timeoutMs }) with
    free := service.free - 1
    sent := ⟨id, fetch.caller, timeoutMs,
      conditionalHeader fetch.ifNoneMatch⟩ :: service.sent }

/-- `send` has timed out. -/
def timeOut (id : Nat) (fetch : Fetch) (now : Int) : Client :=
  let noted := { service with timedOut := id :: service.timedOut }
  match fetch.caller with
  | .upstream sourceId =>
      let recorded := noted.record (.timeout sourceId now)
      if fetch.retried then
        recorded.answer id fetch (.error .timeout)
      else
        (recorded.release fetch).setFetch id
          (some { fetch with retried := true, phase := .starting })
  | .direct _ => noted.answer id fetch (.error .timeout)

/-- The head has arrived; a declared length past the limit is refused. -/
def respond (id : Nat) (fetch : Fetch) (head : Head) : Client :=
  if fetch.caller.isDirect ∧ ¬ (200 ≤ head.status ∧ head.status < 300) then
    service.answer id fetch (.unread head.status)
  else if declaredTooLong (fetch.caller.maxBytes knobs) head.contentLength then
    service.answer id fetch (.error .transport)
  else
    service.setFetch id (some { fetch with phase := .reading head [] })

def chunk (id : Nat) (fetch : Fetch) (head : Head) (buf bytes : Blob) :
    Client :=
  match appendCapped (fetch.caller.maxBytes knobs) buf bytes with
  | none => service.answer id fetch (.error .transport)
  | some buf => service.setFetch id
      (some { fetch with phase := .reading head buf })

/-- The body has ended. -/
def finish (id : Nat) (fetch : Fetch) (head : Head) (buf : Blob)
    (now : Int) : Client :=
  match fetch.caller with
  | .upstream sourceId =>
      (service.record (.success sourceId now)).answer id fetch
        (.ok head (head.fetched buf))
  | .direct _ => service.answer id fetch (.ok head (head.fetched buf))

def connect (id : Nat) (address : IpAddr) : Client :=
  { service with connections := ⟨id, address⟩ :: service.connections }

def proceed (id : Nat) (fetch : Fetch) : Event → Option Client
  | .attempt =>
      match fetch.phase with
      | .starting => some (service.attempt env knobs id fetch)
      | _ => none
  | .acquire =>
      match fetch.phase with
      | .acquiring timeoutMs =>
          if 0 < service.free then
            some (service.acquire id fetch timeoutMs)
          else
            none
      | _ => none
  | .connect found place =>
      match fetch.phase with
      | .sending _ =>
          ((connectorTargets env knobs.allowPrivateEgress fetch.url
            found)[place]?).map (service.connect id)
      | _ => none
  | .timeOut now =>
      match fetch.phase with
      | .sending _ => some (service.timeOut id fetch now)
      | _ => none
  | .transport =>
      if fetch.phase.holdsPermit then
        some (service.answer id fetch (.error .transport))
      else
        none
  | .respond head =>
      match fetch.phase with
      | .sending _ => some (service.respond knobs id fetch head)
      | _ => none
  | .chunk bytes =>
      match fetch.phase with
      | .reading head buf => some (service.chunk knobs id fetch head buf bytes)
      | _ => none
  | .finish now =>
      match fetch.phase with
      | .reading head buf => some (service.finish id fetch head buf now)
      | _ => none
  | .drop => some ((service.release fetch).setFetch id none)

def step : Label → Option Client
  | .call caller url ifNoneMatch => some (service.call caller url ifNoneMatch)
  | .proceed id event =>
      (service.fetches id).bind fun fetch =>
        service.proceed env knobs id fetch event

end Client

def emptyClient : Client where
  free := egressConcurrency
  health := fun _ => none
  fetches := fun _ => none
  started := 0
  sent := []
  timedOut := []
  connections := []
  events := []
  results := []

def machine (env : Environment) (knobs : Knobs) : Machine Client Label where
  initial service := service = emptyClient
  step service label := service.step env knobs label

end ChartLocker.Egress
