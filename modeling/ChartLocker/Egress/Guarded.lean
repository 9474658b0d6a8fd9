import ChartLocker.Egress.Fetches
import ChartLocker.Library.Semaphore
import Mathlib.Algebra.Order.BigOperators.Group.Finset

/-!
# What leaves the service

In every run of the fetches a connection goes to a permitted address only, at
most eight requests are under way, the bodies being read are bounded together,
a fetch sends a second request only after its first one has timed out, and the
timeouts follow the health of the source.
-/

namespace ChartLocker.Egress

open Library

/-! ## Validators -/

/-- The header which repeats a validator of the upstream. -/
def Head.conditional (head : Head) : Option ConditionalHeader :=
  (head.etag.map fun value => .ifNoneMatch value.toList).or
    (head.lastModified.map fun value => .ifModifiedSince value.toList)

theorem stripTag_append (tag value : List Char) :
    stripTag tag (tag ++ value) = value := by
  unfold stripTag
  rw [if_pos (List.isPrefixOf_iff_prefix.mpr (List.prefix_append tag value)),
    List.drop_left]

/-- A validator is sent back as the upstream wrote it, also where it looks
like one of the tags. -/
theorem conditionalHeader_validator (head : Head) :
    conditionalHeader head.validator = head.conditional := by
  unfold Head.validator Head.conditional
  cases head.etag with
  | some value =>
      have other : lastModifiedTag.isPrefixOf (etagTag ++ value.toList) =
          false := rfl
      simp [conditionalHeader, other, stripTag_append]
  | none =>
      cases head.lastModified with
      | some value =>
          have tagged : lastModifiedTag.isPrefixOf
              (lastModifiedTag ++ value.toList) = true :=
            List.isPrefixOf_iff_prefix.mpr (List.prefix_append _ _)
          simp [conditionalHeader, tagged, stripTag_append]
      | none => rfl

/-! ## Addresses -/

theorem permitted_of_connectorTargets {env : Environment} {url : String}
    {found : List IpAddr} {address : IpAddr}
    (checked : isForbiddenIpLiteralUrl env url = false)
    (target : address ∈ connectorTargets env false url found) :
    Permitted address := by
  apply (isForbiddenIp_eq_false_iff address).mp
  unfold connectorTargets at target
  unfold isForbiddenIpLiteralUrl at checked
  cases parsed : env.urlHost url with
  | none =>
      rw [parsed] at target
      cases target
  | some host =>
      simp only [parsed] at target
      rw [parsed, Option.any_some] at checked
      cases literal : hostLiteral host with
      | some written =>
          simp only [literal, List.mem_singleton] at target
          rw [literal, Option.any_some] at checked
          rw [target]
          exact checked
      | none =>
          simp only [literal] at target
          have kept := (List.mem_filter.mp target).2
          simpa using kept

/-! ## Bodies -/

theorem DirectCaller.maxBytes_le (caller : DirectCaller) :
    caller.maxBytes ≤ Style.maxStyleJsonBytes := by
  cases caller <;> decide

namespace Client

/-! ## Moves -/

section Moves

variable (env : Environment) (knobs : Knobs) (service : Client) (id : Nat)
  (fetch : Fetch)

/-- What a fetch which goes on does to the service. -/
inductive Move : Client → Prop where
  | armed (starting : fetch.phase = .starting)
      (checked : knobs.allowPrivateEgress = true ∨
        isForbiddenIpLiteralUrl env fetch.url = false) :
      Move (service.setFetch id (some { fetch with
        phase := .acquiring (service.timeoutOf knobs fetch.caller) }))
  | sent (timeoutMs : Nat) (acquiring : fetch.phase = .acquiring timeoutMs)
      (available : 0 < service.free) :
      Move (service.acquire id fetch timeoutMs)
  | connected (timeoutMs : Nat) (sending : fetch.phase = .sending timeoutMs)
      (found : List IpAddr) (address : IpAddr)
      (target : address ∈ connectorTargets env knobs.allowPrivateEgress
        fetch.url found) :
      Move (service.connect id address)
  | timedOut (timeoutMs : Nat) (sending : fetch.phase = .sending timeoutMs)
      (now : Int) :
      Move (service.timeOut id fetch now)
  | failed : Move (service.answer id fetch (.error .transport))
  | unread (status : Nat) : Move (service.answer id fetch (.unread status))
  | began (timeoutMs : Nat) (sending : fetch.phase = .sending timeoutMs)
      (head : Head) :
      Move (service.setFetch id (some { fetch with phase := .reading head [] }))
  | extended (head : Head) (buf bytes : Blob)
      (reading : fetch.phase = .reading head buf)
      (fits : (buf ++ bytes).length ≤ fetch.caller.maxBytes knobs) :
      Move (service.setFetch id
        (some { fetch with phase := .reading head (buf ++ bytes) }))
  | finished (head : Head) (buf : Blob)
      (reading : fetch.phase = .reading head buf) (now : Int) :
      Move (service.finish id fetch head buf now)
  | dropped : Move ((service.release fetch).setFetch id none)

end Moves

variable {env : Environment} {knobs : Knobs} {service next : Client}
  {id : Nat} {fetch : Fetch}

theorem move_of_proceed {event : Event}
    (stepped : service.proceed env knobs id fetch event = some next) :
    Move env knobs service id fetch next := by
  cases event with
  | attempt =>
      cases phase : fetch.phase <;> simp only [proceed, phase] at stepped <;>
        try cases stepped
      unfold attempt
      split
      · exact .failed
      · next passed =>
          apply Move.armed phase
          cases allowed : knobs.allowPrivateEgress with
          | true => exact .inl rfl
          | false =>
              rw [allowed] at passed
              exact .inr (Bool.eq_false_iff.mpr passed)
  | acquire =>
      cases phase : fetch.phase <;> simp only [proceed, phase] at stepped <;>
        try cases stepped
      split at stepped
      · next timeoutMs available =>
          cases stepped
          exact .sent timeoutMs phase available
      · cases stepped
  | connect found place =>
      cases phase : fetch.phase <;> simp only [proceed, phase] at stepped <;>
        try cases stepped
      next timeoutMs =>
        obtain ⟨address, target, rfl⟩ := Option.map_eq_some_iff.mp stepped
        exact .connected timeoutMs phase found address
          (List.mem_of_getElem? target)
  | timeOut now =>
      cases phase : fetch.phase <;> simp only [proceed, phase] at stepped <;>
        try cases stepped
      exact .timedOut _ phase now
  | transport =>
      unfold proceed at stepped
      dsimp only at stepped
      split at stepped
      · cases stepped
        exact .failed
      · cases stepped
  | respond head =>
      cases phase : fetch.phase <;> simp only [proceed, phase] at stepped <;>
        try cases stepped
      unfold respond
      split
      · exact .unread head.status
      · split
        · exact .failed
        · exact .began _ phase head
  | chunk bytes =>
      cases phase : fetch.phase <;> simp only [proceed, phase] at stepped <;>
        try cases stepped
      unfold chunk
      split
      · exact .failed
      · next grown fits =>
        obtain ⟨small, rfl⟩ := appendCapped_eq_some.mp fits
        exact .extended _ _ bytes phase small
  | finish now =>
      cases phase : fetch.phase <;> simp only [proceed, phase] at stepped <;>
        try cases stepped
      exact .finished _ _ phase now
  | drop =>
      cases stepped
      exact .dropped

/-! ## Frames -/

namespace Move

theorem others (move : Move env knobs service id fetch next) {other : Nat}
    (different : other ≠ id) : next.fetches other = service.fetches other := by
  cases move with
  | timedOut timeoutMs sending now =>
      unfold timeOut
      cases fetch.caller with
      | upstream sourceId =>
          dsimp only
          split
          · exact Function.update_of_ne different _ _
          · exact Function.update_of_ne different _ _
      | direct caller => exact Function.update_of_ne different _ _
  | finished head buf reading now =>
      unfold finish
      cases fetch.caller with
      | upstream sourceId => exact Function.update_of_ne different _ _
      | direct caller => exact Function.update_of_ne different _ _
  | connected timeoutMs sending found address target => rfl
  | armed starting checked => exact Function.update_of_ne different _ _
  | sent timeoutMs acquiring available =>
      exact Function.update_of_ne different _ _
  | failed => exact Function.update_of_ne different _ _
  | unread status => exact Function.update_of_ne different _ _
  | began timeoutMs sending head => exact Function.update_of_ne different _ _
  | extended head buf bytes reading fits =>
      exact Function.update_of_ne different _ _
  | dropped => exact Function.update_of_ne different _ _

end Move

/-! ## Permits -/

def holds (service : Client) (id : Nat) : Bool :=
  (service.fetches id).any fun fetch => fetch.phase.holdsPermit

theorem fetches_setFetch (service : Client) (id : Nat)
    (fetch : Option Fetch) :
    (service.setFetch id fetch).fetches id = fetch := by
  simp [setFetch]

theorem holds_setFetch (service : Client) (id : Nat) (fetch : Option Fetch) :
    (service.setFetch id fetch).holds id =
      fetch.any fun fetch => fetch.phase.holdsPermit := by
  unfold holds
  rw [fetches_setFetch]

theorem Move.balance (move : Move env knobs service id fetch next)
    (known : service.fetches id = some fetch) :
    next.free + (next.holds id).toNat =
      service.free + (service.holds id).toNat := by
  have before : service.holds id = fetch.phase.holdsPermit := by
    unfold holds
    rw [known, Option.any_some]
  have answered (client : Client) (outcome : Outcome) :
      (client.answer id fetch outcome).holds id = false :=
    holds_setFetch (client.release fetch) id none
  rw [before]
  cases move with
  | armed starting checked =>
      rw [holds_setFetch, starting]
      rfl
  | sent timeoutMs acquiring available =>
      have after : (service.acquire id fetch timeoutMs).holds id = true :=
        holds_setFetch service id _
      rw [after, acquiring]
      exact Nat.sub_add_cancel available
  | connected timeoutMs sending found address target =>
      rw [← before]
      rfl
  | timedOut timeoutMs sending now =>
      unfold timeOut
      cases fetch.caller with
      | upstream sourceId =>
          dsimp only
          split
          · rw [answered]
            rfl
          · rw [holds_setFetch]
            rfl
      | direct caller =>
          rw [answered]
          rfl
  | failed =>
      rw [answered]
      rfl
  | unread status =>
      rw [answered]
      rfl
  | began timeoutMs sending head =>
      rw [holds_setFetch, sending]
      rfl
  | extended head buf bytes reading fits =>
      rw [holds_setFetch, reading]
      rfl
  | finished head buf reading now =>
      unfold finish
      cases fetch.caller with
      | upstream sourceId =>
          rw [answered]
          rfl
      | direct caller =>
          rw [answered]
          rfl
  | dropped =>
      rw [holds_setFetch]
      rfl

/-! ## Requests -/

def sentBy (service : Client) (id : Nat) : Nat :=
  (service.sent.map SentRequest.fetch).count id

def timeoutsOf (service : Client) (id : Nat) : Nat :=
  service.timedOut.count id

/-- A timeout of the schedule; a direct caller runs under the one of the
client. -/
def Scheduled (knobs : Knobs) : Caller → Nat → Prop
  | .upstream _, timeoutMs => ∃ streak ≤ streakCap,
      timeoutMs = UpstreamHealth.schedule knobs.upstreamBaseTimeoutMs streak
  | .direct _, timeoutMs => timeoutMs = knobs.upstreamBaseTimeoutMs

theorem scheduled_timeoutOf (records : Records service.health service.events)
    (caller : Caller) :
    Scheduled knobs caller (service.timeoutOf knobs caller) := by
  cases caller with
  | upstream sourceId =>
      exact ⟨_, Nat.min_le_right _ _, records.timeoutMs_eq _ sourceId⟩
  | direct caller => rfl

/-- What holds of a fetch which has not returned. -/
structure FetchSound (env : Environment) (knobs : Knobs) (service : Client)
    (id : Nat) (fetch : Fetch) : Prop where
  known : id < service.started
  checked : fetch.phase ≠ .starting → knobs.allowPrivateEgress = true ∨
    isForbiddenIpLiteralUrl env fetch.url = false
  small : fetch.phase.retained ≤ fetch.caller.maxBytes knobs
  scheduled : ∀ timeoutMs, fetch.phase = .acquiring timeoutMs →
    Scheduled knobs fetch.caller timeoutMs
  requests : service.sentBy id =
    fetch.retried.toNat + fetch.phase.holdsPermit.toNat
  timeouts : service.timeoutsOf id = fetch.retried.toNat

/-- An answer has a body within the limit of its caller, and its validator is
sent back as it came. -/
def OutcomeSound (knobs : Knobs) (caller : Caller) : Outcome → Prop
  | .ok head fetched => fetched.body.length ≤ caller.maxBytes knobs ∧
      conditionalHeader fetched.validator = head.conditional
  | .unread _ => True
  | .error _ => True

structure Invariant (env : Environment) (knobs : Knobs) (service : Client) :
    Prop where
  permits : Semaphore.Conserved service.holds service.free egressConcurrency
  live : ∀ id fetch, service.fetches id = some fetch →
    FetchSound env knobs service id fetch
  fresh : ∀ id, service.started ≤ id →
    service.sentBy id = 0 ∧ service.timeoutsOf id = 0
  attempts : ∀ id, service.sentBy id ≤ 2 ∧
    service.sentBy id ≤ service.timeoutsOf id + 1
  connections : ∀ connection ∈ service.connections,
    knobs.allowPrivateEgress = true ∨ Permitted connection.address
  scheduled : ∀ request ∈ service.sent,
    Scheduled knobs request.caller request.timeoutMs
  health : Records service.health service.events
  results : ∀ result ∈ service.results,
    OutcomeSound knobs result.caller result.outcome

namespace Move

/-- The logs as far as a move adds to them. -/
theorem logs (move : Move env knobs service id fetch next) :
    (next.sent = service.sent ∨ ∃ timeoutMs,
      fetch.phase = .acquiring timeoutMs ∧ next.sent = ⟨id, fetch.caller,
        timeoutMs, conditionalHeader fetch.ifNoneMatch⟩ :: service.sent) ∧
    (next.timedOut = service.timedOut ∨ next.timedOut =
      id :: service.timedOut) ∧
    next.started = service.started := by
  cases move with
  | sent timeoutMs acquiring available =>
      exact ⟨.inr ⟨timeoutMs, acquiring, rfl⟩, .inl rfl, rfl⟩
  | timedOut timeoutMs sending now =>
      unfold timeOut
      cases fetch.caller with
      | upstream sourceId =>
          dsimp only
          split
          · exact ⟨.inl rfl, .inr rfl, rfl⟩
          · exact ⟨.inl rfl, .inr rfl, rfl⟩
      | direct caller => exact ⟨.inl rfl, .inr rfl, rfl⟩
  | finished head buf reading now =>
      unfold finish
      cases fetch.caller with
      | upstream sourceId => exact ⟨.inl rfl, .inl rfl, rfl⟩
      | direct caller => exact ⟨.inl rfl, .inl rfl, rfl⟩
  | connected timeoutMs sending found address target =>
      exact ⟨.inl rfl, .inl rfl, rfl⟩
  | armed starting checked => exact ⟨.inl rfl, .inl rfl, rfl⟩
  | failed => exact ⟨.inl rfl, .inl rfl, rfl⟩
  | unread status => exact ⟨.inl rfl, .inl rfl, rfl⟩
  | began timeoutMs sending head => exact ⟨.inl rfl, .inl rfl, rfl⟩
  | extended head buf bytes reading fits => exact ⟨.inl rfl, .inl rfl, rfl⟩
  | dropped => exact ⟨.inl rfl, .inl rfl, rfl⟩

theorem counts_of_ne (move : Move env knobs service id fetch next)
    {other : Nat} (different : other ≠ id) :
    next.sentBy other = service.sentBy other ∧
      next.timeoutsOf other = service.timeoutsOf other := by
  obtain ⟨sent, timedOut, -⟩ := move.logs
  have apart : ¬ id = other := fun same => different same.symm
  unfold sentBy timeoutsOf
  constructor
  · rcases sent with same | ⟨timeoutMs, -, more⟩
    · rw [same]
    · rw [more, List.map_cons, List.count_cons_of_ne apart]
  · rcases timedOut with same | more
    · rw [same]
    · rw [more, List.count_cons_of_ne apart]

/-- A fetch sends a second request only behind a timeout. -/
theorem attempts (move : Move env knobs service id fetch next)
    (sound : FetchSound env knobs service id fetch) :
    next.sentBy id ≤ 2 ∧ next.sentBy id ≤ next.timeoutsOf id + 1 := by
  obtain ⟨sent, timedOut, -⟩ := move.logs
  have requests := sound.requests
  have timeouts := sound.timeouts
  have retried := Bool.toNat_le fetch.retried
  have permit := Bool.toNat_le fetch.phase.holdsPermit
  have later : service.timeoutsOf id ≤ next.timeoutsOf id := by
    unfold timeoutsOf
    rcases timedOut with same | more
    · rw [same]
    · rw [more]
      exact List.count_le_count_cons
  rcases sent with same | ⟨timeoutMs, acquiring, more⟩
  · have equal : next.sentBy id = service.sentBy id := by
      unfold sentBy
      rw [same]
    omega
  · have one : next.sentBy id = service.sentBy id + 1 := by
      unfold sentBy
      rw [more, List.map_cons, List.count_cons_self]
    rw [acquiring] at requests
    simp only [Phase.holdsPermit, Bool.toNat_false] at requests
    omega

theorem fetches_answer (client : Client) (id : Nat) (fetch : Fetch)
    (outcome : Outcome) : (client.answer id fetch outcome).fetches id = none :=
  fetches_setFetch (client.release fetch) id none

/-- The fetch as a move leaves it. -/
theorem live (move : Move env knobs service id fetch next)
    (known : service.fetches id = some fetch)
    (sound : FetchSound env knobs service id fetch)
    (records : Records service.health service.events) {after : Fetch}
    (left : next.fetches id = some after) :
    FetchSound env knobs next id after := by
  cases move with
  | armed starting checked =>
      rw [fetches_setFetch] at left
      cases left
      have requests := sound.requests
      rw [starting] at requests
      refine ⟨sound.known, fun _ => checked, Nat.zero_le _, ?_, requests,
        sound.timeouts⟩
      intro timeoutMs same
      cases same
      exact scheduled_timeoutOf records fetch.caller
  | sent timeoutMs acquiring available =>
      have stored : (service.acquire id fetch timeoutMs).fetches id =
          some { fetch with phase := .sending timeoutMs } :=
        fetches_setFetch service id _
      rw [stored] at left
      cases left
      have requests := sound.requests
      rw [acquiring] at requests
      refine ⟨sound.known, fun _ => sound.checked ?_, Nat.zero_le _, ?_, ?_,
        sound.timeouts⟩
      · rw [acquiring]
        exact fun same => nomatch same
      · intro other same
        cases same
      · have one : (service.acquire id fetch timeoutMs).sentBy id =
            service.sentBy id + 1 := List.count_cons_self
        rw [one, requests]
        rfl
  | connected timeoutMs sending found address target =>
      have same : some fetch = some after := known.symm.trans left
      cases same
      exact ⟨sound.known, sound.checked, sound.small, sound.scheduled,
        sound.requests, sound.timeouts⟩
  | timedOut timeoutMs sending now =>
      have requests := sound.requests
      have timeouts := sound.timeouts
      rw [sending] at requests
      unfold timeOut at left ⊢
      cases caller : fetch.caller with
      | upstream sourceId =>
          simp only [caller] at left ⊢
          cases retried : fetch.retried with
          | true =>
              simp only [retried, if_true] at left
              rw [fetches_answer] at left
              cases left
          | false =>
              simp only [retried, Bool.false_eq_true, if_false] at left ⊢
              rw [fetches_setFetch] at left
              cases left
              rw [retried] at requests timeouts
              refine ⟨sound.known, fun moved => absurd rfl moved,
                Nat.zero_le _, (fun _ same => nomatch same), requests, ?_⟩
              have one : service.timeoutsOf id + 1 = 1 :=
                congrArg (· + 1) timeouts
              exact List.count_cons_self.trans one
      | direct caller =>
          simp only [caller] at left
          rw [fetches_answer] at left
          cases left
  | failed =>
      rw [fetches_answer] at left
      cases left
  | unread status =>
      rw [fetches_answer] at left
      cases left
  | began timeoutMs sending head =>
      rw [fetches_setFetch] at left
      cases left
      have requests := sound.requests
      rw [sending] at requests
      refine ⟨sound.known, fun _ => sound.checked ?_, Nat.zero_le _,
        (fun _ same => nomatch same), requests, sound.timeouts⟩
      rw [sending]
      exact fun same => nomatch same
  | extended head buf bytes reading fits =>
      rw [fetches_setFetch] at left
      cases left
      have requests := sound.requests
      rw [reading] at requests
      refine ⟨sound.known, fun _ => sound.checked ?_, fits,
        (fun _ same => nomatch same), requests, sound.timeouts⟩
      rw [reading]
      exact fun same => nomatch same
  | finished head buf reading now =>
      unfold finish at left
      cases caller : fetch.caller with
      | upstream sourceId =>
          simp only [caller] at left
          rw [fetches_answer] at left
          cases left
      | direct caller =>
          simp only [caller] at left
          rw [fetches_answer] at left
          cases left
  | dropped =>
      rw [fetches_setFetch] at left
      cases left

theorem connections (move : Move env knobs service id fetch next)
    (sound : FetchSound env knobs service id fetch) {connection : Connection}
    (member : connection ∈ next.connections) :
    connection ∈ service.connections ∨ knobs.allowPrivateEgress = true ∨
      Permitted connection.address := by
  cases move with
  | connected timeoutMs sending found address target =>
      rcases List.mem_cons.mp member with rfl | old
      · right
        have moved : fetch.phase ≠ .starting := by
          rw [sending]
          exact fun same => nomatch same
        cases allowed : knobs.allowPrivateEgress with
        | true => exact .inl rfl
        | false =>
            rw [allowed] at target
            have checked := sound.checked moved
            simp only [allowed, Bool.false_eq_true, false_or] at checked
            exact .inr (permitted_of_connectorTargets checked target)
      · exact .inl old
  | timedOut timeoutMs sending now =>
      unfold timeOut at member
      cases caller : fetch.caller with
      | upstream sourceId =>
          simp only [caller] at member
          split at member
          · exact .inl member
          · exact .inl member
      | direct caller =>
          simp only [caller] at member
          exact .inl member
  | finished head buf reading now =>
      unfold finish at member
      cases caller : fetch.caller with
      | upstream sourceId =>
          simp only [caller] at member
          exact .inl member
      | direct caller =>
          simp only [caller] at member
          exact .inl member
  | armed starting checked => exact .inl member
  | sent timeoutMs acquiring available => exact .inl member
  | failed => exact .inl member
  | unread status => exact .inl member
  | began timeoutMs sending head => exact .inl member
  | extended head buf bytes reading fits => exact .inl member
  | dropped => exact .inl member

/-- What a move adds to the map of the health and to its events. -/
theorem health (move : Move env knobs service id fetch next) :
    (next.health = service.health ∧ next.events = service.events) ∨
      ∃ event : HealthEvent, next.health = event.record service.health ∧
        next.events = event :: service.events := by
  cases move with
  | timedOut timeoutMs sending now =>
      unfold timeOut
      cases fetch.caller with
      | upstream sourceId =>
          right
          refine ⟨.timeout sourceId now, ?_⟩
          dsimp only
          split
          · exact ⟨rfl, rfl⟩
          · exact ⟨rfl, rfl⟩
      | direct caller => exact .inl ⟨rfl, rfl⟩
  | finished head buf reading now =>
      unfold finish
      cases fetch.caller with
      | upstream sourceId => exact .inr ⟨.success sourceId now, rfl, rfl⟩
      | direct caller => exact .inl ⟨rfl, rfl⟩
  | connected timeoutMs sending found address target => exact .inl ⟨rfl, rfl⟩
  | armed starting checked => exact .inl ⟨rfl, rfl⟩
  | sent timeoutMs acquiring available => exact .inl ⟨rfl, rfl⟩
  | failed => exact .inl ⟨rfl, rfl⟩
  | unread status => exact .inl ⟨rfl, rfl⟩
  | began timeoutMs sending head => exact .inl ⟨rfl, rfl⟩
  | extended head buf bytes reading fits => exact .inl ⟨rfl, rfl⟩
  | dropped => exact .inl ⟨rfl, rfl⟩

theorem results (move : Move env knobs service id fetch next)
    (sound : FetchSound env knobs service id fetch) {result : Result}
    (member : result ∈ next.results) :
    result ∈ service.results ∨
      OutcomeSound knobs result.caller result.outcome := by
  have answered {client : Client} {outcome : Outcome}
      (inside : result ∈ (client.answer id fetch outcome).results)
      (fine : OutcomeSound knobs fetch.caller outcome) :
      result ∈ client.results ∨
        OutcomeSound knobs result.caller result.outcome := by
    rcases List.mem_cons.mp inside with rfl | old
    · exact .inr fine
    · exact .inl old
  cases move with
  | timedOut timeoutMs sending now =>
      unfold timeOut at member
      cases caller : fetch.caller with
      | upstream sourceId =>
          simp only [caller] at member
          split at member
          · exact answered member trivial
          · exact .inl member
      | direct caller =>
          simp only [caller] at member
          exact answered member trivial
  | finished head buf reading now =>
      have fine : OutcomeSound knobs fetch.caller
          (.ok head (head.fetched buf)) := by
        have small := sound.small
        rw [reading] at small
        exact ⟨small, conditionalHeader_validator head⟩
      unfold finish at member
      cases caller : fetch.caller with
      | upstream sourceId =>
          simp only [caller] at member
          exact answered member fine
      | direct caller =>
          simp only [caller] at member
          exact answered member fine
  | failed => exact answered member trivial
  | unread status => exact answered member trivial
  | connected timeoutMs sending found address target => exact .inl member
  | armed starting checked => exact .inl member
  | sent timeoutMs acquiring available => exact .inl member
  | began timeoutMs sending head => exact .inl member
  | extended head buf bytes reading fits => exact .inl member
  | dropped => exact .inl member

/-- The step of the invariant. -/
theorem keeps (move : Move env knobs service id fetch next)
    (known : service.fetches id = some fetch)
    (invariant : Invariant env knobs service) : Invariant env knobs next := by
  have sound := invariant.live id fetch known
  obtain ⟨sent, -, started⟩ := move.logs
  refine ⟨?_, ?_, ?_, ?_, ?_, ?_, ?_, ?_⟩
  · apply invariant.permits.change (move.balance known)
    intro other different
    unfold holds
    rw [move.others different]
  · intro other after left
    by_cases same : other = id
    · rw [same] at left ⊢
      exact move.live known sound invariant.health left
    · rw [move.others same] at left
      obtain ⟨requests, timeouts⟩ := move.counts_of_ne same
      have before := invariant.live other after left
      exact ⟨started ▸ before.known, before.checked, before.small,
        before.scheduled, requests.trans before.requests,
        timeouts.trans before.timeouts⟩
  · intro other unknown
    rw [started] at unknown
    have different : other ≠ id := by
      intro same
      exact Nat.not_lt.mpr unknown (same ▸ sound.known)
    obtain ⟨requests, timeouts⟩ := move.counts_of_ne different
    rw [requests, timeouts]
    exact invariant.fresh other unknown
  · intro other
    by_cases same : other = id
    · rw [same]
      exact move.attempts sound
    · obtain ⟨requests, timeouts⟩ := move.counts_of_ne same
      rw [requests, timeouts]
      exact invariant.attempts other
  · intro connection member
    rcases move.connections sound member with old | new
    · exact invariant.connections connection old
    · exact new
  · intro request member
    rcases sent with same | ⟨timeoutMs, acquiring, more⟩
    · rw [same] at member
      exact invariant.scheduled request member
    · rw [more] at member
      rcases List.mem_cons.mp member with rfl | old
      · exact sound.scheduled timeoutMs acquiring
      · exact invariant.scheduled request old
  · rcases move.health with ⟨health, events⟩ | ⟨event, health, events⟩
    · rw [health, events]
      exact invariant.health
    · rw [health, events]
      exact invariant.health.record event
  · intro result member
    rcases move.results sound member with old | new
    · exact invariant.results result old
    · exact new

end Move

theorem Invariant.call (invariant : Invariant env knobs service)
    (caller : Caller) (url : String) (ifNoneMatch : Option (List Char)) :
    Invariant env knobs (service.call caller url ifNoneMatch) := by
  have fresh := invariant.fresh service.started (Nat.le_refl _)
  have vacant : service.holds service.started = false := by
    unfold holds
    cases present : service.fetches service.started with
    | none => rfl
    | some fetch =>
        exact absurd (invariant.live _ fetch present).known (Nat.lt_irrefl _)
  have fetches : (service.call caller url ifNoneMatch).fetches =
      (service.setFetch service.started
        (some ⟨caller, url, ifNoneMatch, false, .starting⟩)).fetches := rfl
  have others {other : Nat} (different : other ≠ service.started) :
      (service.call caller url ifNoneMatch).fetches other =
        service.fetches other := Function.update_of_ne different _ _
  refine ⟨?_, ?_, ?_, invariant.attempts, invariant.connections,
    invariant.scheduled, invariant.health, invariant.results⟩
  · apply invariant.permits.congr
    intro other
    by_cases same : other = service.started
    · rw [same, vacant]
      unfold holds
      rw [fetches, fetches_setFetch]
      rfl
    · unfold holds
      rw [others same]
  · intro other after left
    by_cases same : other = service.started
    · rw [same, fetches, fetches_setFetch] at left
      cases left
      rw [same]
      exact ⟨Nat.lt_succ_self _, fun moved => absurd rfl moved,
        Nat.zero_le _, (fun _ same => nomatch same), fresh.1, fresh.2⟩
    · rw [others same] at left
      have before := invariant.live other after left
      exact ⟨Nat.lt_succ_of_lt before.known, before.checked, before.small,
        before.scheduled, before.requests, before.timeouts⟩
  · intro other unknown
    exact invariant.fresh other (Nat.le_of_succ_le unknown)

theorem Invariant.step {label : Label} (invariant : Invariant env knobs service)
    (stepped : service.step env knobs label = some next) :
    Invariant env knobs next := by
  cases label with
  | call caller url ifNoneMatch =>
      cases stepped
      exact invariant.call caller url ifNoneMatch
  | proceed id event =>
      obtain ⟨fetch, known, proceeded⟩ := Option.bind_eq_some_iff.mp stepped
      exact (move_of_proceed proceeded).keeps known invariant

theorem invariant_empty : Invariant env knobs emptyClient := by
  refine ⟨Semaphore.conserved_of_idle (fun _ => rfl) _, ?_, fun _ _ => ?_,
    fun _ => ?_, ?_, ?_, records_empty, ?_⟩
  · intro id fetch present
    cases present
  · exact ⟨rfl, rfl⟩
  · exact ⟨Nat.zero_le _, Nat.zero_le _⟩
  · intro connection member
    cases member
  · intro request member
    cases member
  · intro result member
    cases member

theorem invariant_of_reachable
    (reached : (machine env knobs).Reachable service) :
    Invariant env knobs service := by
  apply reached.invariant (motive := Invariant env knobs)
  · intro start initial
    rw [show start = emptyClient from initial]
    exact invariant_empty
  · intro state label after before stepped
    exact before.step stepped

/-! ## The bodies -/

/-- The bytes of a body which is being read. -/
def retained (service : Client) (id : Nat) : Nat :=
  (service.fetches id).elim 0 fun fetch => fetch.phase.retained

/-- The largest of the limits; the style document has the largest one of the
direct callers. -/
def maxRetained (knobs : Knobs) : Nat :=
  max knobs.maxBlobBytes Style.maxStyleJsonBytes

theorem Invariant.retained_le (invariant : Invariant env knobs service)
    (id : Nat) : service.retained id ≤ maxRetained knobs := by
  unfold retained
  cases present : service.fetches id with
  | none => exact Nat.zero_le _
  | some fetch =>
      have small := (invariant.live id fetch present).small
      apply Nat.le_trans small
      cases fetch.caller with
      | upstream sourceId => exact Nat.le_max_left _ _
      | direct caller =>
          exact Nat.le_trans caller.maxBytes_le (Nat.le_max_right _ _)

theorem retained_of_not_holds (idle : service.holds id = false) :
    service.retained id = 0 := by
  unfold retained
  unfold holds at idle
  cases present : service.fetches id with
  | none => rfl
  | some fetch =>
      rw [present, Option.any_some] at idle
      cases phase : fetch.phase with
      | reading head buf =>
          rw [phase] at idle
          cases idle
      | starting => simp [phase, Phase.retained]
      | acquiring timeoutMs => simp [phase, Phase.retained]
      | sending timeoutMs => simp [phase, Phase.retained]

/-- The bodies under way are bounded together by the permits. -/
theorem Invariant.sum_retained_le (invariant : Invariant env knobs service)
    (ids : Finset Nat) :
    ∑ id ∈ ids, service.retained id ≤
      egressConcurrency * maxRetained knobs := by
  have holding : (ids.filter fun id => service.holds id = true).card ≤
      egressConcurrency := by
    apply invariant.permits.card_le
    intro id member
    exact (Finset.mem_filter.mp member).2
  calc ∑ id ∈ ids, service.retained id
      = ∑ id ∈ ids.filter fun id => service.holds id = true,
          service.retained id := by
        symm
        apply Finset.sum_filter_of_ne
        intro id _ present
        apply Bool.of_not_eq_false
        intro idle
        exact present (retained_of_not_holds idle)
    _ ≤ (ids.filter fun id => service.holds id = true).card *
          maxRetained knobs := by
        exact Finset.sum_le_card_nsmul _ _ _ fun id _ =>
          invariant.retained_le id
    _ ≤ egressConcurrency * maxRetained knobs :=
        Nat.mul_le_mul_right _ holding

end Client

/-! ## The service -/

/-- What the network and the callers may rely on. -/
structure Guarded (knobs : Knobs) (service : Client) : Prop where
  /-- A connection goes to a permitted address. -/
  permitted : knobs.allowPrivateEgress = false →
    ∀ connection ∈ service.connections, Permitted connection.address
  /-- The requests under way and the free permits add up. -/
  permits : Semaphore.Conserved service.holds service.free egressConcurrency
  /-- The bodies being read are bounded together. -/
  memory : ∀ ids : Finset Nat, ∑ id ∈ ids, service.retained id ≤
    egressConcurrency * Client.maxRetained knobs
  /-- A fetch sends at most two requests, the second one after a timeout. -/
  attempts : ∀ id, service.sentBy id ≤ 2 ∧
    service.sentBy id ≤ service.timeoutsOf id + 1
  timeouts : ∀ request ∈ service.sent,
    Client.Scheduled knobs request.caller request.timeoutMs
  /-- The health of a source is what its own events make it. -/
  health : Records service.health service.events
  results : ∀ result ∈ service.results,
    Client.OutcomeSound knobs result.caller result.outcome

def sampleEgressEnvironment : Environment where
  urlHost url :=
    if url = "https://tiles.example/1/0/0" then
      some "tiles.example"
    else if url = "http://[::ffff:10.0.0.1]/" then
      some "[::ffff:a00:1]"
    else
      none

def sampleKnobs : Knobs where
  maxBlobBytes := 8 * 1024 * 1024
  allowPrivateEgress := false
  upstreamBaseTimeoutMs := 20000

def sampleFound : List IpAddr :=
  [.v4 ⟨10, 0, 0, 1⟩, .v4 ⟨140, 90, 1, 1⟩]

def sampleEgressLabels : List Label :=
  [.call (.upstream "noaa") "https://tiles.example/1/0/0" none,
    .call (.upstream "noaa") "http://[::ffff:10.0.0.1]/" none,
    .proceed 1 .attempt,
    .proceed 0 .attempt,
    .proceed 0 .acquire,
    .proceed 0 (.connect sampleFound 0),
    .proceed 0 (.timeOut 100),
    .proceed 0 .attempt,
    .proceed 0 .acquire,
    .proceed 0 (.connect sampleFound 0),
    .proceed 0 (.respond ⟨200, some "image/png", some "etag:7", none, some 2⟩),
    .proceed 0 (.chunk [1]),
    .proceed 0 (.chunk [2]),
    .proceed 0 (.finish 130),
    .call (.direct .style) "https://tiles.example/1/0/0"
      (some "last-modified:Mon".toList),
    .proceed 2 .attempt,
    .proceed 2 .acquire,
    .proceed 2 (.connect sampleFound 0),
    .proceed 2 (.respond ⟨304, none, none, none, none⟩)]

end ChartLocker.Egress
