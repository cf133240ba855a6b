import ServiceDiscovery.Http.AgentClient
import ServiceDiscovery.Url.Latin

/-!
# How long a blocking query is waited for

The client waits for the answer to a blocking query as long as the agent may hold it, and a
sixteenth and its own timeout more. These times are configured, each up to the longest duration, and
nothing bounds their sum: when it is no duration, the query breaks down before anything is sent.

The agent holds the query for the whole seconds that it is asked for and a sixteenth of them. These
are never more than the wait, except that a wait below a second is asked for as one second while the
client still reckons with the wait itself. Such a query is outwaited only if the timeout makes up
for the difference.
-/

namespace ServiceDiscovery

/-- A blocking query may be held for the given time. -/
theorem HealthQuery.waitTime_blocking (tag : Option String) (key : Key) (index : Nat)
    (wait : Duration) : (blocking tag key index wait).options.waitTime = some wait := rfl

namespace AgentClient

variable {client : AgentClient} {q : HealthQuery} {wait : Duration}

/-- The time for a query that may be held for a while, in nanoseconds. -/
def holdNanos (client : AgentClient) (wait : Duration) : Nat :=
  wait.toNanos + wait.toNanos / 16 + client.requestTimeout.toNanos

/-- The time for a query that may be held for a while is a duration. -/
def Fits (client : AgentClient) (wait : Duration) : Prop :=
  client.holdNanos wait < UInt64.size * nanosPerSecond

instance : Decidable (client.Fits wait) := inferInstanceAs (Decidable (_ < _))

private theorem toNanos_of_healthTimeout? {timeout : Duration} (hw : q.options.waitTime = some wait)
    (h : client.healthTimeout? q = some timeout) : timeout.toNanos = client.holdNanos wait := by
  simp only [healthTimeout?, hw] at h
  obtain ⟨held, hheld, h⟩ := Option.bind_eq_some_iff.1 h
  rw [Duration.toNanos_of_add? h, Duration.toNanos_of_add? hheld, Duration.toNanos_sixteenth,
    holdNanos]

/-- The timeout of a query that may be held is no duration exactly when the time does not fit. -/
theorem healthTimeout?_eq_none_iff (hw : q.options.waitTime = some wait) :
    client.healthTimeout? q = none ↔ ¬ client.Fits wait := by
  rw [Fits, holdNanos, Nat.not_lt]
  simp only [healthTimeout?, hw]
  cases hheld : wait.add? wait.sixteenth with
  | none =>
    have hover := Duration.add?_eq_none_iff.1 hheld
    rw [Duration.toNanos_sixteenth] at hover
    exact iff_of_true rfl (Nat.le_add_right_of_le hover)
  | some held =>
    rw [← Duration.toNanos_sixteenth, ← Duration.toNanos_of_add? hheld]
    exact Duration.add?_eq_none_iff

/-- The request of a query that may be held, when the time for it fits. -/
theorem healthRequest?_of_fits [Url.Idna] (hw : q.options.waitTime = some wait)
    (hf : client.Fits wait) :
    ∃ timeout, client.healthRequest? q =
        some (client.request (healthSegments q.service) (healthQuery q) timeout) ∧
      timeout.toNanos = client.holdNanos wait := by
  obtain ⟨timeout, htimeout⟩ := Option.ne_none_iff_exists'.1
    (mt (healthTimeout?_eq_none_iff hw).1 (not_not_intro hf))
  refine ⟨timeout, ?_, toNanos_of_healthTimeout? hw htimeout⟩
  rw [healthRequest?, htimeout, Option.map_some]

/-- A query that may be held gets an answer or a failure exactly when the time fits; else it breaks
down, whatever the network does. -/
theorem health?_isSome_iff [Url.Idna] (hw : q.options.waitTime = some wait) (link : Link) :
    (client.health? link q).isSome = true ↔ client.Fits wait := by
  rw [health?, healthRequest?, Option.isSome_map, Option.isSome_map, Option.isSome_iff_ne_none,
    ne_eq, healthTimeout?_eq_none_iff hw, Decidable.not_not]

/-! ### What the agent is asked for -/

/-- The longest that the agent holds a query that asks for some seconds, in nanoseconds. -/
def agentHoldNanos (seconds : Nat) : Nat :=
  seconds * nanosPerSecond + seconds * nanosPerSecond / 16

/-- The wait of a query as it is written, and no other value for it. -/
theorem mem_healthQuery_wait_iff (hw : q.options.waitTime = some wait) {text : String} :
    ("wait", text) ∈ healthQuery q ↔ text = Decimal.text (waitSeconds wait) ++ "s" := by
  simp [healthQuery, hw]

private theorem waitSeconds_mul_le (h : nanosPerSecond ≤ wait.toNanos) :
    waitSeconds wait * nanosPerSecond ≤ wait.toNanos := by
  have hnanos := wait.nanos_lt
  simp only [waitSeconds, Duration.toNanos, nanosPerSecond] at *
  omega

private theorem waitSeconds_of_lt (h : wait.toNanos < nanosPerSecond) : waitSeconds wait = 1 := by
  simp only [waitSeconds, Duration.toNanos, nanosPerSecond] at *
  omega

/-- A client waits longer than the agent holds the query when the wait is a second or more, and for
a shorter wait exactly when it waits longer than the agent holds a query for one second. -/
theorem agentHoldNanos_lt_holdNanos_iff (hr : 0 < client.requestTimeout.toNanos) :
    agentHoldNanos (waitSeconds wait) < client.holdNanos wait ↔
      nanosPerSecond ≤ wait.toNanos ∨ agentHoldNanos 1 < client.holdNanos wait := by
  rcases Nat.lt_or_ge wait.toNanos nanosPerSecond with hshort | hlong
  · rw [waitSeconds_of_lt hshort, or_iff_right (Nat.not_le.2 hshort)]
  · have hasked := waitSeconds_mul_le hlong
    have hsixteenth := Nat.div_le_div_right hasked (c := 16)
    refine iff_of_true ?_ (.inl hlong)
    calc agentHoldNanos (waitSeconds wait)
        ≤ wait.toNanos + wait.toNanos / 16 := Nat.add_le_add hasked hsixteenth
      _ < client.holdNanos wait := Nat.lt_add_of_pos_right hr

/-- A query that may be held is outwaited exactly when its wait is a second or more, or the client
waits longer than the agent holds a query for one second. -/
theorem outwaits_iff [Url.Idna] (hw : q.options.waitTime = some wait)
    (hr : 0 < client.requestTimeout.toNanos) (hf : client.Fits wait) :
    ∃ timeout,
      client.healthRequest? q =
          some (client.request (healthSegments q.service) (healthQuery q) timeout) ∧
        (∀ text, ("wait", text) ∈ healthQuery q ↔
          text = Decimal.text (waitSeconds wait) ++ "s") ∧
        (agentHoldNanos (waitSeconds wait) < timeout.toNanos ↔
          nanosPerSecond ≤ wait.toNanos ∨ agentHoldNanos 1 < client.holdNanos wait) := by
  obtain ⟨timeout, hrequest, hnanos⟩ := healthRequest?_of_fits hw hf
  refine ⟨timeout, hrequest, fun text => mem_healthQuery_wait_iff hw, ?_⟩
  rw [hnanos]
  exact agentHoldNanos_lt_holdNanos_iff hr

section

open scoped Url.Latin

/-- A wait of half a second under a timeout of a tenth of one is not outwaited. -/
theorem outwaits_iff_half : ∃ (client : AgentClient) (q : HealthQuery) (wait timeout : Duration),
    q.options.waitTime = some wait ∧ 0 < client.requestTimeout.toNanos ∧ client.Fits wait ∧
      client.healthRequest? q =
        some (client.request (healthSegments q.service) (healthQuery q) timeout) ∧
      ("wait", "1s") ∈ healthQuery q ∧
      ¬ agentHoldNanos (waitSeconds wait) < timeout.toNanos := by
  let client : AgentClient := ⟨"http://consul.internal:8500", .ofMillis 100⟩
  let q := HealthQuery.blocking none ⟨"api", none⟩ 9 (.ofMillis 500)
  have hr : 0 < client.requestTimeout.toNanos := by decide
  have hf : client.Fits (.ofMillis 500) := by decide
  obtain ⟨timeout, hrequest, hasked, hiff⟩ :=
    outwaits_iff (HealthQuery.waitTime_blocking none ⟨"api", none⟩ 9 (.ofMillis 500)) hr hf
  refine ⟨client, q, .ofMillis 500, timeout, rfl, hr, hf, hrequest, (hasked "1s").2 (by decide), ?_⟩
  exact mt hiff.1 (by decide)

end

/-- The agent is outwaited on every wait that fits exactly when the timeout alone is longer than
the agent holds a query for one second. -/
theorem outwaits_all_iff (hr : 0 < client.requestTimeout.toNanos) :
    (∀ wait, client.Fits wait → agentHoldNanos (waitSeconds wait) < client.holdNanos wait) ↔
      agentHoldNanos 1 < client.requestTimeout.toNanos := by
  have hzero : client.holdNanos .zero = client.requestTimeout.toNanos := Nat.zero_add _
  refine ⟨fun h => ?_, fun h wait _ => ?_⟩
  · have hbound : client.requestTimeout.toNanos < UInt64.size * nanosPerSecond :=
      Duration.toNanos_lt _
    have := h .zero (by rwa [Fits, hzero])
    rwa [hzero] at this
  · refine (agentHoldNanos_lt_holdNanos_iff hr).2 (.inr (Nat.lt_of_lt_of_le h ?_))
    exact Nat.le_add_left _ _

/-- The timeout that a client has unless another is chosen is long enough. -/
example : agentHoldNanos 1 < defaultTimeout.toNanos := by decide

end AgentClient

end ServiceDiscovery
