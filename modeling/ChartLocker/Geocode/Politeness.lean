import ChartLocker.Geocode.Geocoder

/-!
# The provider's policy

Every request to the provider is stamped at least a second after the stamp of
the one before, and after that one has left; a body is served to the point it
was fetched for, or to one which is written alike, for less than a day.
-/

namespace ChartLocker.Geocode

open Library FixedPoint
open Egress (Blob appendCapped_eq_some geocodeResponseMaxBytes)

variable {env : Environment}

/-! ## Bodies -/

theorem readChunks_length {maxBytes : Nat} {buf body : Blob}
    {chunks : List (Option Blob)} (small : buf.length ≤ maxBytes)
    (read : readChunks maxBytes buf chunks = some body) :
    body.length ≤ maxBytes := by
  induction chunks generalizing buf with
  | nil =>
      cases read
      exact small
  | cons chunk rest induction =>
      cases chunk with
      | none => cases read
      | some chunk =>
          simp only [readChunks] at read
          split at read
          · cases read
          · next grown fits =>
            obtain ⟨within, rfl⟩ := appendCapped_eq_some.mp fits
            exact induction within read

/-- A body which is read is the concatenation of all its chunks. -/
theorem readChunks_eq {maxBytes : Nat} {buf body : Blob}
    {chunks : List (Option Blob)}
    (read : readChunks maxBytes buf chunks = some body) :
    ∃ parts : List Blob, chunks = parts.map some ∧
      body = buf ++ parts.flatten := by
  induction chunks generalizing buf with
  | nil =>
      cases read
      exact ⟨[], rfl, (List.append_nil _).symm⟩
  | cons chunk rest induction =>
      cases chunk with
      | none => cases read
      | some chunk =>
          simp only [readChunks] at read
          split at read
          · cases read
          · next grown fits =>
            obtain ⟨_, rfl⟩ := appendCapped_eq_some.mp fits
            obtain ⟨parts, same, whole⟩ := induction read
            refine ⟨chunk :: parts, by rw [same]; rfl, ?_⟩
            rw [whole, List.flatten_cons, List.append_assoc]

/-- A body is accepted whole, if it is small and JSON, of a success. -/
structure Response.Accepted (env : Environment) (response : Response)
    (body : Blob) : Prop where
  success : 200 ≤ response.status ∧ response.status < 300
  whole : ∃ parts : List Blob, response.chunks = parts.map some ∧
    body = parts.flatten
  small : body.length ≤ geocodeResponseMaxBytes
  json : env.isJson body = true

theorem accepted_of_body {response : Response} {body : Blob}
    (accepted : acceptedBody env response = some body) :
    response.Accepted env body := by
  unfold acceptedBody at accepted
  split at accepted
  · next success =>
    obtain ⟨read, valid⟩ := Option.filter_eq_some_iff.mp accepted
    unfold readCappedTo at read
    split at read
    · cases read
    · obtain ⟨parts, same, whole⟩ := readChunks_eq read
      unfold validGeocodeBody at valid
      exact ⟨success, ⟨parts, same, whole⟩,
        readChunks_length (Nat.zero_le _) read,
        (Bool.and_eq_true_iff.mp valid).2⟩
  · cases accepted

/-! ## Points which are written alike -/

theorem Point.key_inj {left right : Point} (same : left.key = right.key) :
    left.lat.fixed 5 = right.lat.fixed 5 ∧
      left.lon.fixed 5 = right.lon.fixed 5 := by
  have plain : ∀ fraction : Fraction, ',' ∉ fraction.fixed 5 := by
    intro fraction member
    rcases Fraction.mem_fixed member with digit | dot | dash
    · cases digit
    · cases dot
    · cases dash
  exact Text.append_cons_inj (plain left.lat) (plain right.lat) same

/-- The provider is asked the same for both points, which differ by at most
one unit of the fifth decimal. -/
structure Point.Alike (left right : Point) : Prop where
  url : left.url = right.url
  lat : |left.lat.value - right.lat.value| ≤ 1 / 10 ^ 5
  lon : |left.lon.value - right.lon.value| ≤ 1 / 10 ^ 5

theorem Point.alike_of_key {left right : Point}
    (same : left.key = right.key) : left.Alike right := by
  obtain ⟨lat, lon⟩ := key_inj same
  refine ⟨?_, Fraction.abs_sub_le_of_fixed lat,
    Fraction.abs_sub_le_of_fixed lon⟩
  unfold Point.url
  rw [lat, lon]

theorem Point.point_query (point : Point) : point.query.point = some point := by
  unfold Point.query Query.point
  exact dif_pos point.valid

/-! ## The invariant -/

/-- The reply of the provider which a body comes from. -/
def ProviderReply.Gives (env : Environment) (reply : ProviderReply)
    (point : Point) (body : Blob) : Prop :=
  reply.point.Alike point ∧ reply.response.Accepted env body

/-- A body which is served is younger than a day. -/
def Answer.Honest (env : Environment) (replies : List ProviderReply)
    (answer : Answer) : Prop :=
  ∀ body, answer.reply = .ok body → ∃ point reply,
    answer.query.point = some point ∧ reply ∈ replies ∧
      reply.Gives env point body ∧ reply.received ≤ answer.moment ∧
      answer.moment < reply.received + geocodeCacheTtl

/-- Every request so far has left before an instant, and was stamped at least
an interval before it. -/
def Clears (requests : List ProviderRequest) (instant : Nat) : Prop :=
  ∀ request ∈ requests, request.stamp + nominatimInterval ≤ instant ∧
    request.sent ≤ instant

/-- What a handler which holds the mutex relies on. -/
def Handler.Paced (service : Geocoder) (id : Nat) (handler : Handler) : Prop :=
  match handler.phase with
  | .waiting => True
  | .pausing wakes => service.holder = some id ∧
      Clears service.requests wakes
  | .acquiring stamp => service.holder = some id ∧
      service.state.lastRequest = some stamp ∧ stamp ≤ service.clock ∧
      Clears service.requests stamp
  | .requesting _ => service.holder = some id ∧
      ∃ request ∈ service.requests, request.url = handler.point.url ∧
        request.sent ≤ service.clock

structure Sound (env : Environment) (service : Geocoder) : Prop where
  orderly : Spacing.Orderly nominatimInterval ProviderRequest.stamp
    ProviderRequest.sent service.requests
  requested : ∀ request ∈ service.requests, request.sent ≤ service.clock ∧
    ∃ last, service.state.lastRequest = some last ∧ request.stamp ≤ last
  last : ∀ last, service.state.lastRequest = some last → last ≤ service.clock
  paced : ∀ id handler, service.handlers id = some handler →
    handler.Paced service id
  cached : ∀ entry ∈ service.state.cache.rows, entry.stored ≤ service.clock ∧
    ∃ reply ∈ service.replies, reply.point.key = entry.key ∧
      reply.response.Accepted env entry.body ∧ reply.received = entry.stored
  size : service.state.cache.rows.length ≤ geocodeCacheLimit
  replied : ∀ reply ∈ service.replies, ∃ request ∈ service.requests,
    request.url = reply.point.url ∧ request.sent ≤ reply.received
  answered : ∀ answer ∈ service.answers, answer.Honest env service.replies

namespace Sound

variable {service : Geocoder}

theorem started (clock : Nat) (enabled : Bool) :
    Sound env (.started clock enabled) where
  orderly := .nil
  requested _ member := absurd member List.not_mem_nil
  last _ none := nomatch none
  paced _ _ none := nomatch none
  cached _ member := absurd member List.not_mem_nil
  size := Nat.zero_le _
  replied _ member := absurd member List.not_mem_nil
  answered _ member := absurd member List.not_mem_nil

/-- The time passes. -/
theorem atInstant (sound : Sound env service) {now : Nat} {present : Geocoder}
    (passes : service.atInstant now = some present) :
    Sound env present ∧ present.clock = now ∧
      present = { service with clock := now } := by
  unfold Geocoder.atInstant at passes
  split at passes
  · next later =>
    cases passes
    refine ⟨⟨sound.orderly, ?_, ?_, ?_, ?_, sound.size, sound.replied,
      sound.answered⟩, rfl, rfl⟩
    · intro request member
      obtain ⟨left, stamped⟩ := sound.requested request member
      exact ⟨left.trans later, stamped⟩
    · exact fun last same => (sound.last last same).trans later
    · intro id handler found
      have paced := sound.paced id handler found
      obtain ⟨point, phase⟩ := handler
      cases phase with
      | waiting => trivial
      | pausing wakes => exact paced
      | acquiring stamp =>
          obtain ⟨held, last, before, clears⟩ := paced
          exact ⟨held, last, before.trans later, clears⟩
      | requesting stamp =>
          obtain ⟨held, request, member, same, left⟩ := paced
          exact ⟨held, request, member, same, left.trans later⟩
    · intro entry member
      obtain ⟨stored, reply⟩ := sound.cached entry member
      exact ⟨stored.trans later, reply⟩
  · contradiction

/-- An answer with an honest reply. -/
theorem respond (sound : Sound env service) {point : Point} {reply : Reply}
    (honest : Answer.Honest env service.replies
      ⟨point.query, reply, service.clock⟩) :
    Sound env (service.respond point reply) where
  orderly := sound.orderly
  requested := sound.requested
  last := sound.last
  paced := sound.paced
  cached := sound.cached
  size := sound.size
  replied := sound.replied
  answered := List.forall_mem_cons.mpr ⟨honest, sound.answered⟩

theorem honest_of_error {query : Query} {reply : Reply} {moment : Nat}
    (error : ∀ body, reply ≠ .ok body) {replies : List ProviderReply} :
    Answer.Honest env replies ⟨query, reply, moment⟩ :=
  fun body same => absurd same (error body)

/-- A handler is gone, and its guard with it. -/
theorem finish (sound : Sound env service) (id : Nat) :
    Sound env (service.finish id) := by
  refine ⟨sound.orderly, sound.requested, sound.last, ?_, sound.cached,
    sound.size, sound.replied, sound.answered⟩
  intro other handler found
  change Function.update service.handlers id none other = some handler at found
  by_cases same : other = id
  · subst same
    rw [Function.update_self] at found
    cases found
  · rw [Function.update_of_ne same] at found
    have paced := sound.paced other handler found
    have kept : service.holder = some other →
        (service.finish id).holder = some other := by
      intro held
      have apart : service.holder ≠ some id := by
        rw [held]
        exact fun equal => same (Option.some.inj equal)
      exact (if_neg apart).trans held
    obtain ⟨point, phase⟩ := handler
    cases phase with
    | waiting => trivial
    | pausing wakes => exact ⟨kept paced.1, paced.2⟩
    | acquiring stamp => exact ⟨kept paced.1, paced.2⟩
    | requesting stamp => exact ⟨kept paced.1, paced.2⟩

/-- A handler goes on. -/
theorem setHandler (sound : Sound env service) {id : Nat} {handler : Handler}
    (paced : handler.Paced service id) :
    Sound env (service.setHandler id (some handler)) := by
  refine ⟨sound.orderly, sound.requested, sound.last, ?_, sound.cached,
    sound.size, sound.replied, sound.answered⟩
  intro other moved found
  change Function.update service.handlers id (some handler) other =
    some moved at found
  by_cases same : other = id
  · subst same
    rw [Function.update_self] at found
    cases found
    exact paced
  · rw [Function.update_of_ne same] at found
    exact sound.paced other moved found

/-- Entries leave the cache. -/
theorem withCache (sound : Sound env service)
    {cache : KeyedTable CachedReply.key}
    (part : ∀ entry ∈ cache.rows, entry ∈ service.state.cache.rows)
    (shorter : cache.rows.length ≤ service.state.cache.rows.length) :
    Sound env (service.withCache cache) where
  orderly := sound.orderly
  requested := sound.requested
  last := sound.last
  paced := sound.paced
  cached entry member := sound.cached entry (part entry member)
  size := shorter.trans sound.size
  replied := sound.replied
  answered := sound.answered

/-- Only one handler is past the mutex. -/
theorem active_holds (sound : Sound env service) {id : Nat}
    {handler : Handler} (found : service.handlers id = some handler)
    (active : handler.phase ≠ .waiting) : service.holder = some id := by
  have paced := sound.paced id handler found
  obtain ⟨point, phase⟩ := handler
  cases phase with
  | waiting => exact absurd rfl active
  | _ => exact paced.1

/-- No other handler is past the mutex. -/
theorem others_wait (sound : Sound env service) {id other : Nat}
    {handler : Handler} (holds : service.holder = some id ∨
      service.holder = none) (apart : other ≠ id)
    (found : service.handlers other = some handler) :
    handler.phase = .waiting := by
  by_contra active
  have held := sound.active_holds found active
  cases holds with
  | inl own => exact apart (Option.some.inj (held.symm.trans own))
  | inr free => cases held.symm.trans free

theorem mem_unexpired {now : Nat} {entry : CachedReply} :
    entry ∈ (service.unexpired now).rows ↔
      entry ∈ service.state.cache.rows ∧
        now - entry.stored < geocodeCacheTtl := by
  unfold Geocoder.unexpired
  rw [KeyedTable.mem_deleteWhere]
  simp

theorem expires (sound : Sound env service) (now : Nat) :
    Sound env (service.withCache (service.unexpired now)) :=
  sound.withCache (fun _ member => (mem_unexpired.mp member).1)
    (List.length_filter_le _ _)

theorem request (sound : Sound env service) (id : Nat) (query : Query) :
    Sound env (service.request id query) := by
  have answered : ∀ reply, (∀ body, reply ≠ .ok body) → Sound env
      { service with
        answers := ⟨query, reply, service.clock⟩ :: service.answers } :=
    fun reply error => { sound with
      answered := List.forall_mem_cons.mpr
        ⟨honest_of_error error, sound.answered⟩ }
  unfold Geocoder.request
  split
  · exact answered .notFound (fun _ => by simp)
  · split
    · exact answered .badRequest (fun _ => by simp)
    · apply sound.setHandler
      trivial

/-- The handler finds a reply, or it takes the mutex and waits for its turn. -/
theorem look (sound : Sound env service) {id : Nat} {point : Point}
    (free : service.holder = none) :
    Sound env (service.look id ⟨point, .waiting⟩) := by
  have kept := sound.expires service.clock
  unfold Geocoder.look
  dsimp only
  split
  · next entry found =>
    apply Sound.finish
    apply kept.respond
    intro body same
    cases same
    obtain ⟨member, key⟩ := KeyedTable.lookup_eq_some.mp found
    obtain ⟨old, young⟩ := mem_unexpired.mp member
    obtain ⟨stored, reply, replied, from_, accepted, received⟩ :=
      sound.cached entry old
    refine ⟨point, reply, point.point_query, replied,
      ⟨Point.alike_of_key (from_.trans key), accepted⟩, ?_, ?_⟩
    · rw [received]
      exact stored
    · rw [received]
      change service.clock < entry.stored + geocodeCacheTtl
      omega
  · refine ⟨kept.orderly, kept.requested, kept.last, ?_, kept.cached,
      kept.size, kept.replied, kept.answered⟩
    intro other handler found
    change Function.update service.handlers id _ other = some handler at found
    by_cases same : other = id
    · subst same
      rw [Function.update_self] at found
      cases found
      refine ⟨rfl, fun request member => ?_⟩
      obtain ⟨left, last, stamped, before⟩ := sound.requested request member
      have past := sound.last last stamped
      have wait : service.wait service.clock =
          nominatimInterval - (service.clock - last) := by
        simp [Geocoder.wait, stamped]
      rw [wait]
      constructor <;> omega
    · rw [Function.update_of_ne same] at found
      have waiting := sound.others_wait (.inr free) same found
      unfold Handler.Paced
      rw [waiting]
      trivial

theorem wake (sound : Sound env service) {id wakes : Nat} {point : Point}
    (found : service.handlers id = some ⟨point, .pausing wakes⟩)
    (late : wakes ≤ service.clock) :
    Sound env (service.wake env id ⟨point, .pausing wakes⟩) := by
  obtain ⟨held, clears⟩ := sound.paced id _ found
  have stamped : Sound env { service with
      state := { service.state with lastRequest := some service.clock } } := by
    refine ⟨sound.orderly, ?_, ?_, ?_, sound.cached, sound.size,
      sound.replied, sound.answered⟩
    · intro request member
      obtain ⟨left, last, stamped, before⟩ := sound.requested request member
      exact ⟨left, service.clock, rfl,
        before.trans (sound.last last stamped)⟩
    · intro last same
      cases same
      exact le_refl _
    · intro other handler present
      by_cases same : other = id
      · subst same
        cases found.symm.trans present
        exact ⟨held, clears⟩
      · have waiting := sound.others_wait (.inl held) same present
        unfold Handler.Paced
        rw [waiting]
        trivial
  unfold Geocoder.wake
  dsimp only
  split
  · apply stamped.setHandler
    refine ⟨held, rfl, le_refl _, fun request member => ?_⟩
    obtain ⟨spaced, left⟩ := clears request member
    exact ⟨spaced.trans late, left.trans late⟩
  · exact (stamped.respond (honest_of_error fun _ => by simp)).finish id

theorem send (sound : Sound env service) {id stamp : Nat} {point : Point}
    (found : service.handlers id = some ⟨point, .acquiring stamp⟩) :
    Sound env (service.send id ⟨point, .acquiring stamp⟩ stamp) := by
  obtain ⟨held, last, before, clears⟩ := sound.paced id _ found
  refine ⟨sound.orderly.cons before clears, ?_, sound.last, ?_, sound.cached,
    sound.size, ?_, sound.answered⟩
  · exact List.forall_mem_cons.mpr
      ⟨⟨le_refl _, stamp, last, le_refl _⟩, sound.requested⟩
  · intro other handler present
    change Function.update service.handlers id _ other = some handler at present
    by_cases same : other = id
    · subst same
      rw [Function.update_self] at present
      cases present
      exact ⟨held, _, List.mem_cons_self, rfl, le_refl _⟩
    · rw [Function.update_of_ne same] at present
      have waiting := sound.others_wait (.inl held) same present
      unfold Handler.Paced
      rw [waiting]
      trivial
  · intro reply member
    obtain ⟨request, present, same, left⟩ := sound.replied reply member
    exact ⟨request, List.mem_cons_of_mem _ present, same, left⟩

/-- The provider has replied. -/
theorem replies (sound : Sound env service) {id stamp : Nat} {point : Point}
    (found : service.handlers id = some ⟨point, .requesting stamp⟩)
    (response : Response) :
    Sound env { service with
      replies := ⟨point, response, service.clock⟩ :: service.replies } where
  orderly := sound.orderly
  requested := sound.requested
  last := sound.last
  paced := sound.paced
  cached entry member := by
    obtain ⟨stored, reply, present, rest⟩ := sound.cached entry member
    exact ⟨stored, reply, List.mem_cons_of_mem _ present, rest⟩
  size := sound.size
  replied := List.forall_mem_cons.mpr
    ⟨(sound.paced id _ found).2, sound.replied⟩
  answered answer member body same := by
    obtain ⟨asked, reply, query, present, rest⟩ :=
      sound.answered answer member body same
    exact ⟨asked, reply, query, List.mem_cons_of_mem _ present, rest⟩

/-- There is room for one more entry. -/
theorem evicted_spec {oldest : Option (List Char)}
    {room : KeyedTable CachedReply.key}
    (sound : Sound env service)
    (evicted : service.evicted oldest = some room) :
    (∀ entry ∈ room.rows, entry ∈ service.state.cache.rows) ∧
      room.rows.length < geocodeCacheLimit := by
  unfold Geocoder.evicted at evicted
  cases oldest with
  | some key =>
      simp only at evicted
      split at evicted
      · next full =>
        cases evicted
        refine ⟨fun entry member => (KeyedTable.mem_deleteWhere.mp member).1,
          ?_⟩
        -- The entry which goes is in the cache.
        cases found : service.state.cache.lookup key with
        | none => simp [Geocoder.isOldest, found] at full
        | some entry =>
            obtain ⟨member, named⟩ := KeyedTable.lookup_eq_some.mp found
            apply Nat.lt_of_lt_of_le _ sound.size
            apply List.length_filter_lt_length_iff_exists.mpr
            exact ⟨entry, member, by simp [named]⟩
      · cases evicted
  | none =>
      simp only at evicted
      split at evicted
      · cases evicted
      · next fits =>
        cases evicted
        exact ⟨fun _ member => member, Nat.lt_of_not_le fits⟩

theorem receive (sound : Sound env service) {id stamp : Nat} {point : Point}
    (found : service.handlers id = some ⟨point, .requesting stamp⟩)
    {response : Response} {oldest : Option (List Char)} {next : Geocoder}
    (received : service.receive env id ⟨point, .requesting stamp⟩ response
      oldest = some next) : Sound env next := by
  have replied := sound.replies found response
  unfold Geocoder.receive at received
  dsimp only at received
  split at received
  · next body accepted =>
    obtain ⟨room, evicted, rfl⟩ := Option.map_eq_some_iff.mp received
    obtain ⟨part, short⟩ := replied.evicted_spec evicted
    have given := accepted_of_body accepted
    have stored : Sound env (Geocoder.withCache
        { service with
          replies := ⟨point, response, service.clock⟩ :: service.replies }
        (room.insertOrReplace ⟨point.key, service.clock, body⟩)) := by
      refine ⟨replied.orderly, replied.requested, replied.last,
        replied.paced, ?_, ?_, replied.replied, replied.answered⟩
      · intro entry member
        rcases KeyedTable.mem_insertOrReplace.mp member with rfl | ⟨old, _⟩
        · exact ⟨le_refl _, _, List.mem_cons_self, rfl, given, rfl⟩
        · exact replied.cached entry (part entry old)
      · have fewer := List.length_filter_le (fun old : CachedReply =>
          decide (old.key ≠ point.key)) room.rows
        change (_ ++ [_]).length ≤ _
        rw [List.length_append, List.length_singleton]
        exact (Nat.add_le_add_right fewer 1).trans short
    apply (stored.respond _).finish id
    intro served same
    cases same
    refine ⟨point, _, point.point_query, List.mem_cons_self,
      ⟨Point.alike_of_key rfl, given⟩, le_refl _, ?_⟩
    exact Nat.lt_add_of_pos_right (by decide)
  · cases received
    exact (replied.respond (honest_of_error fun _ => by simp)).finish id

theorem step (sound : Sound env service) {label : Geocoder.Label}
    {next : Geocoder} (stepped : service.step env label = some next) :
    Sound env next := by
  cases label with
  | request id query =>
      simp only [Geocoder.step] at stepped
      split at stepped
      · contradiction
      · cases stepped
        exact sound.request id query
  | look id now =>
      obtain ⟨present, passes, stepped⟩ := Option.bind_eq_some_iff.mp stepped
      obtain ⟨later, _, _⟩ := sound.atInstant passes
      split at stepped
      · next free waiting =>
        cases stepped
        exact later.look free
      · contradiction
  | wake id now =>
      obtain ⟨present, passes, stepped⟩ := Option.bind_eq_some_iff.mp stepped
      obtain ⟨later, clock, _⟩ := sound.atInstant passes
      split at stepped
      · next found =>
        split at stepped
        · next late =>
          cases stepped
          exact later.wake found (clock ▸ late)
        · contradiction
      · contradiction
  | send id now =>
      obtain ⟨present, passes, stepped⟩ := Option.bind_eq_some_iff.mp stepped
      obtain ⟨later, _, _⟩ := sound.atInstant passes
      split at stepped
      · next found =>
        cases stepped
        exact later.send found
      · contradiction
  | fail id =>
      simp only [Geocoder.step] at stepped
      split at stepped
      · cases stepped
        exact (sound.respond (honest_of_error fun _ => by simp)).finish id
      · cases stepped
        exact (sound.respond (honest_of_error fun _ => by simp)).finish id
      · contradiction
  | receive id now response oldest =>
      obtain ⟨present, passes, stepped⟩ := Option.bind_eq_some_iff.mp stepped
      obtain ⟨later, _, _⟩ := sound.atInstant passes
      split at stepped
      · next found => exact later.receive found stepped
      · contradiction
  | drop id =>
      obtain ⟨handler, _, rfl⟩ := Option.map_eq_some_iff.mp stepped
      exact sound.finish id
  | enable enabled =>
      cases stepped
      exact { sound with }

theorem reachable (reached : (geocoderMachine env).Reachable service) :
    Sound env service := by
  refine reached.invariant ?_ fun state label next sound stepped => ?_
  · rintro state ⟨clock, enabled, rfl⟩
    exact started clock enabled
  · change state.step env label = some next at stepped
    exact sound.step stepped

end Sound

/-! ## The policy -/

/-- What holds of the service whatever its clients and the provider do. -/
structure Polite (env : Environment) (service : Geocoder) : Prop where
  paced : Spacing.Orderly nominatimInterval ProviderRequest.stamp
    ProviderRequest.sent service.requests
  /-- A request which has waited for its egress permit may leave less than a
  second before the next one, but for one of them in every window. -/
  window : ∀ start count, (service.requests.filter fun request =>
    decide (start ≤ request.sent) && decide (request.sent <
      start + count * nominatimInterval)).length ≤ count + 1
  single : ∀ left right first second,
    service.handlers left = some first →
    service.handlers right = some second → first.phase ≠ .waiting →
    second.phase ≠ .waiting → left = right
  bounded : service.state.cache.rows.length ≤ geocodeCacheLimit
  asked : ∀ reply ∈ service.replies, ∃ request ∈ service.requests,
    request.url = reply.point.url ∧ request.sent ≤ reply.received
  served : ∀ answer ∈ service.answers, answer.Honest env service.replies

theorem geocoder_is_polite {service : Geocoder}
    (reached : (geocoderMachine env).Reachable service) :
    Polite env service := by
  have sound := Sound.reachable reached
  refine ⟨sound.orderly, sound.orderly.effects_le, ?_, sound.size,
    sound.replied, sound.answered⟩
  intro left right first second leftFound rightFound leftActive rightActive
  have held := sound.active_holds leftFound leftActive
  have alsoHeld := sound.active_holds rightFound rightActive
  exact Option.some.inj (held.symm.trans alsoHeld)

def sampleEnvironment : Environment where
  urlHost url := some (String.ofList
    ((url.toList.drop 8).takeWhile fun char => char != '/'))
  isJson body := body.head? == some 123 && body.getLast? == some 125

def sampleQuery (numerator : Nat) : Query :=
  ⟨some (.finite ⟨false, numerator, 4⟩), some (.finite ⟨true, 1003, 3⟩)⟩

/-- The first request waits four seconds for its permit; the third query is
answered from the cache. -/
def sampleRun : List Geocoder.Label :=
  [.request 1 (sampleQuery 604), .look 1 0, .wake 1 0, .send 1 4000000000,
    .receive 1 4100000000 ⟨200, some 2, [some [123, 125]]⟩ none,
    .request 2 (sampleQuery 605), .look 2 4200000000, .wake 2 4200000000,
    .request 3 (sampleQuery 604), .send 2 4200000000,
    .receive 2 4300000000 ⟨200, none, [some [123], some [125]]⟩ none,
    .look 3 4400000000]

theorem geocoder_is_polite_sampleRun :
    ∃ service, (geocoderMachine sampleEnvironment).exec (.started 0 true)
        sampleRun = some service ∧ Polite sampleEnvironment service ∧
      service.requests.map ProviderRequest.sent = [4200000000, 4000000000] ∧
      service.answers.map Answer.reply =
        [.ok [123, 125], .ok [123, 125], .ok [123, 125]] := by
  have ran : ((geocoderMachine sampleEnvironment).exec (.started 0 true)
      sampleRun).map (fun service => (service.requests.map
        ProviderRequest.sent, service.answers.map Answer.reply)) =
      some ([4200000000, 4000000000],
        [.ok [123, 125], .ok [123, 125], .ok [123, 125]]) := by
    decide +kernel
  obtain ⟨service, run, facts⟩ := Option.map_eq_some_iff.mp ran
  obtain ⟨sent, answers⟩ := Prod.mk.inj facts
  refine ⟨service, run, geocoder_is_polite ?_, sent, answers⟩
  exact ⟨_, sampleRun, ⟨0, true, rfl⟩, run⟩

end ChartLocker.Geocode
