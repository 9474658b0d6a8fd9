import ChartLocker.Egress.Fetches
import ChartLocker.Library.FixedPoint
import ChartLocker.Library.KeyedTable
import ChartLocker.Library.Machine
import ChartLocker.Library.Spacing

/-!
# The reverse-geocode proxy

The handlers of `/geocode` share one mutex with the time of the last request
to the provider and a cache of its replies.  A handler holds the mutex from
its look at the cache to its answer, also while it sleeps, waits for an egress
permit and reads the reply; when its client disconnects at one of these await
points, its future is dropped and the mutex is free again.

Instants are counted in nanoseconds.  The clock, the schedule, the provider
and the clients are in the labels.
-/

namespace ChartLocker.Geocode

open Library FixedPoint
open Spacing (second)
open Egress (Blob appendCapped declaredTooLong geocodeResponseMaxBytes)

def nominatimHost : String := "nominatim.openstreetmap.org"

def geocodeCacheTtl : Nat := 24 * 60 * 60 * second

def geocodeCacheLimit : Nat := 256

def nominatimInterval : Nat := second

/-- What the service calls and does not contain. -/
structure Environment where
  /-- `Url::parse` and `host_str`. -/
  urlHost : String → Option String
  /-- `serde_json::from_slice` of a body. -/
  isJson : Blob → Bool

/-! ## The query -/

/-- A double of a query. -/
inductive Parameter where
  | finite (fraction : Fraction)
  | infinite (negative : Bool)
  | nan
deriving DecidableEq, Repr

structure Query where
  lat : Option Parameter
  lon : Option Parameter
deriving DecidableEq, Repr

/-- Coordinates in range. -/
structure Point where
  lat : Fraction
  lon : Fraction
  valid : lat.within 90 = true ∧ lon.within 180 = true
deriving DecidableEq, Repr

def Query.point (query : Query) : Option Point :=
  match query.lat, query.lon with
  | some (.finite lat), some (.finite lon) =>
      if valid : lat.within 90 = true ∧ lon.within 180 = true then
        some ⟨lat, lon, valid⟩
      else
        none
  | _, _ => none

namespace Point

def query (point : Point) : Query :=
  ⟨some (.finite point.lat), some (.finite point.lon)⟩

/-- The cache key, in five decimals. -/
def key (point : Point) : List Char :=
  point.lat.fixed 5 ++ ',' :: point.lon.fixed 5

def url (point : Point) : String :=
  "https://" ++ nominatimHost ++ "/reverse?format=jsonv2&lat=" ++
    String.ofList (point.lat.fixed 5) ++ "&lon=" ++
    String.ofList (point.lon.fixed 5)

end Point

def lowercase (text : String) : List Char :=
  text.toList.map Char.toLower

/-- `host_is_nominatim`. -/
def hostIsNominatim (env : Environment) (url : String) : Bool :=
  (env.urlHost url).any fun host => lowercase host == lowercase nominatimHost

def validGeocodeBody (env : Environment) (body : Blob) : Bool :=
  decide (body.length ≤ geocodeResponseMaxBytes) && env.isJson body

/-! ## Replies -/

/-- A response of the provider: its declared length, and the chunks of its
body, of which one may fail to arrive. -/
structure Response where
  status : Nat
  contentLength : Option Nat
  chunks : List (Option Blob)
deriving DecidableEq, Repr

/-- The loop of `read_capped_to`. -/
def readChunks (maxBytes : Nat) : Blob → List (Option Blob) → Option Blob
  | buf, [] => some buf
  | _, none :: _ => none
  | buf, some chunk :: rest =>
      match appendCapped maxBytes buf chunk with
      | none => none
      | some buf => readChunks maxBytes buf rest

def readCappedTo (response : Response) (maxBytes : Nat) : Option Blob :=
  if declaredTooLong maxBytes response.contentLength then
    none
  else
    readChunks maxBytes [] response.chunks

/-- What the handler makes of a response. -/
def acceptedBody (env : Environment) (response : Response) : Option Blob :=
  if 200 ≤ response.status ∧ response.status < 300 then
    (readCappedTo response geocodeResponseMaxBytes).filter
      (validGeocodeBody env)
  else
    none

/-! ## The shared state -/

/-- An entry of the cache. -/
structure CachedReply where
  key : List Char
  stored : Nat
  body : Blob
deriving DecidableEq, Repr

structure GeocodeState where
  lastRequest : Option Nat
  cache : KeyedTable CachedReply.key

inductive HandlerPhase where
  | waiting
  /-- The sleep ends at this instant at the earliest. -/
  | pausing (wakes : Nat)
  /-- The instant of `last_request` is written, and the handler waits for an
  egress permit. -/
  | acquiring (stamp : Nat)
  | requesting (stamp : Nat)
deriving DecidableEq, Repr

structure Handler where
  point : Point
  phase : HandlerPhase
deriving DecidableEq, Repr

inductive Reply where
  | ok (body : Blob)
  | badRequest
  | notFound
  | badGateway
deriving DecidableEq, Repr

structure Answer where
  query : Query
  reply : Reply
  moment : Nat
deriving DecidableEq, Repr

/-- A request which the provider has received. -/
structure ProviderRequest where
  url : String
  stamp : Nat
  sent : Nat
deriving DecidableEq, Repr

/-- A response of the provider to the request for a point. -/
structure ProviderReply where
  point : Point
  response : Response
  received : Nat
deriving DecidableEq, Repr

/-- The service with what its clients and the provider have seen of it, newest
first. -/
structure Geocoder where
  clock : Nat
  enabled : Bool
  state : GeocodeState
  /-- The handler which holds the mutex. -/
  holder : Option Nat
  handlers : Nat → Option Handler
  answers : List Answer
  requests : List ProviderRequest
  replies : List ProviderReply

namespace Geocoder

variable (env : Environment) (service : Geocoder)

def setHandler (id : Nat) (handler : Option Handler) : Geocoder :=
  { service with handlers := Function.update service.handlers id handler }

def respond (point : Point) (reply : Reply) : Geocoder :=
  { service with
    answers := ⟨point.query, reply, service.clock⟩ :: service.answers }

/-- The guard of the mutex is dropped with its handler. -/
def finish (id : Nat) : Geocoder :=
  { service.setHandler id none with
    holder := if service.holder = some id then none else service.holder }

/-- The clock does not run backwards. -/
def atInstant (now : Nat) : Option Geocoder :=
  if service.clock ≤ now then some { service with clock := now } else none

/-- The entries which have not expired. -/
def unexpired (now : Nat) : KeyedTable CachedReply.key :=
  service.state.cache.deleteWhere fun entry =>
    decide (geocodeCacheTtl ≤ now - entry.stored)

def withCache (cache : KeyedTable CachedReply.key) : Geocoder :=
  { service with state := { service.state with cache := cache } }

/-- `Duration` until the next request may leave. -/
def wait (now : Nat) : Nat :=
  service.state.lastRequest.elim 0 fun last => nominatimInterval - (now - last)

/-- Some entry with the least instant, which the iteration meets first. -/
def isOldest (key : List Char) : Bool :=
  (service.state.cache.lookup key).any fun oldest =>
    service.state.cache.rows.all fun entry =>
      decide (oldest.stored ≤ entry.stored)

/-- The cache with room for one more entry. -/
def evicted (oldest : Option (List Char)) :
    Option (KeyedTable CachedReply.key) :=
  match oldest with
  | some key =>
      if geocodeCacheLimit ≤ service.state.cache.rows.length ∧
          service.isOldest key = true then
        some (service.state.cache.deleteWhere fun entry => entry.key == key)
      else
        none
  | none =>
      if geocodeCacheLimit ≤ service.state.cache.rows.length then
        none
      else
        some service.state.cache

inductive Label where
  | request (id : Nat) (query : Query)
  /-- The mutex is acquired, and the cache is looked up. -/
  | look (id now : Nat)
  | wake (id now : Nat)
  /-- The permit is acquired, and the request leaves. -/
  | send (id now : Nat)
  /-- A closed semaphore or a transport error. -/
  | fail (id : Nat)
  | receive (id now : Nat) (response : Response)
      (oldest : Option (List Char))
  | drop (id : Nat)
  | enable (enabled : Bool)

def request (id : Nat) (query : Query) : Geocoder :=
  if service.enabled = false then
    { service with
      answers := ⟨query, .notFound, service.clock⟩ :: service.answers }
  else
    match query.point with
    | none =>
        { service with
          answers := ⟨query, .badRequest, service.clock⟩ :: service.answers }
    | some point => service.setHandler id (some ⟨point, .waiting⟩)

def look (id : Nat) (handler : Handler) : Geocoder :=
  let kept := service.withCache (service.unexpired service.clock)
  match kept.state.cache.lookup handler.point.key with
  | some entry => (kept.respond handler.point (.ok entry.body)).finish id
  | none =>
      { kept.setHandler id (some { handler with
          phase := .pausing (service.clock + service.wait service.clock) }) with
        holder := some id }

def wake (id : Nat) (handler : Handler) : Geocoder :=
  let stamped := { service with
    state := { service.state with lastRequest := some service.clock } }
  if hostIsNominatim env handler.point.url then
    stamped.setHandler id
      (some { handler with phase := .acquiring service.clock })
  else
    (stamped.respond handler.point .badRequest).finish id

def send (id : Nat) (handler : Handler) (stamp : Nat) : Geocoder :=
  { service.setHandler id
      (some { handler with phase := .requesting stamp }) with
    requests := ⟨handler.point.url, stamp, service.clock⟩ ::
      service.requests }

def receive (id : Nat) (handler : Handler) (response : Response)
    (oldest : Option (List Char)) : Option Geocoder :=
  let received := { service with
    replies := ⟨handler.point, response, service.clock⟩ :: service.replies }
  match acceptedBody env response with
  | some body =>
      (received.evicted oldest).map fun room =>
        ((received.withCache (room.insertOrReplace
          ⟨handler.point.key, service.clock, body⟩)).respond handler.point
            (.ok body)).finish id
  | none => some ((received.respond handler.point .badGateway).finish id)

def step : Label → Option Geocoder
  | .request id query =>
      if (service.handlers id).isSome then
        none
      else
        some (service.request id query)
  | .look id now =>
      (service.atInstant now).bind fun present =>
        match present.holder, present.handlers id with
        | none, some { point, phase := .waiting } =>
            some (present.look id ⟨point, .waiting⟩)
        | _, _ => none
  | .wake id now =>
      (service.atInstant now).bind fun present =>
        match present.handlers id with
        | some { point, phase := .pausing wakes } =>
            if wakes ≤ now then
              some (present.wake env id ⟨point, .pausing wakes⟩)
            else
              none
        | _ => none
  | .send id now =>
      (service.atInstant now).bind fun present =>
        match present.handlers id with
        | some { point, phase := .acquiring stamp } =>
            some (present.send id ⟨point, .acquiring stamp⟩ stamp)
        | _ => none
  | .fail id =>
      match service.handlers id with
      | some { point, phase := .acquiring _ } =>
          some ((service.respond point .badGateway).finish id)
      | some { point, phase := .requesting _ } =>
          some ((service.respond point .badGateway).finish id)
      | _ => none
  | .receive id now response oldest =>
      (service.atInstant now).bind fun present =>
        match present.handlers id with
        | some { point, phase := .requesting stamp } =>
            present.receive env id ⟨point, .requesting stamp⟩ response oldest
        | _ => none
  | .drop id =>
      (service.handlers id).map fun _ => service.finish id
  | .enable enabled => some { service with enabled := enabled }

/-- The service at its start. -/
def started (clock : Nat) (enabled : Bool) : Geocoder where
  clock := clock
  enabled := enabled
  state := ⟨none, KeyedTable.empty⟩
  holder := none
  handlers := fun _ => none
  answers := []
  requests := []
  replies := []

end Geocoder

def geocoderMachine (env : Environment) :
    Machine Geocoder Geocoder.Label where
  initial service := ∃ clock enabled, service = .started clock enabled
  step service label := service.step env label

end ChartLocker.Geocode
