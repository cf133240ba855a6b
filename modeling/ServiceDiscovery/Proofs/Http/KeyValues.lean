import Mathlib.Data.List.Forall2
import ServiceDiscovery.Proofs.Http.HealthAnswer
import ServiceDiscovery.Proofs.Http.RequestPaths
import ServiceDiscovery.Proofs.Json.Written
import ServiceDiscovery.Proofs.Text.Base64
import ServiceDiscovery.Url.Latin

/-!
# What a request for a value is answered with

The agent lists the pairs of a key, each with its value in Base64, and the first one counts. Its
bytes are given exactly if the text is what is written for them, so that no answer is read as other
bytes than those that the agent holds. Every other response is one failure.
-/

namespace ServiceDiscovery

/-! ### Pairs -/

/-- A text, or null for none. -/
def nullable (value : Option String) : Json.Value := (value.map Json.Value.text).getD .null

/-- The name of the member that holds the value of a pair. -/
def valueName : String := "Value"

/-- Members of an object that do not hold the value of a pair: their names can be read and are
others. -/
def AreOthers (members : List (Json.Text × Json.Value)) : Prop :=
  ∀ m ∈ members, m.1.isSome ∧ m.1 ≠ some valueName

/-- What a pair is in JSON, and the text that it holds: none if it is null or missing. -/
inductive IsPair : Json.Value → Option String → Prop
  /-- An object in which the member is missing. -/
  | missing {members : List (Json.Text × Json.Value)} (h : AreOthers members) :
      IsPair (.object members) none
  /-- An object with the member, once. -/
  | member {before after : List (Json.Text × Json.Value)} (hbefore : AreOthers before)
      (hafter : AreOthers after) (value : Option String) :
      IsPair (.object (before ++ (some valueName, nullable value) :: after)) value
  /-- An array of the member alone. -/
  | positional (value : Option String) : IsPair (.array [nullable value]) value

variable {v : Json.Value} {value : Option String}

private theorem orNull?_asText?_eq_some_iff :
    v.orNull? Json.Value.asText? = some value ↔ v = nullable value := by
  cases value with
  | none => cases v <;> simp [Json.Value.orNull?, Json.Value.asText?, nullable]
  | some s =>
    cases v <;> simp [Json.Value.orNull?, Json.Value.asText?, nullable, Json.Value.text]

private theorem areOthers_iff {members : List (Json.Text × Json.Value)} :
    AreOthers members ↔
      (members.all fun m => m.1.isSome) = true ∧ Json.occurrences valueName members = 0 := by
  simp [AreOthers, Json.occurrences, List.countP_eq_zero, forall_and]

private theorem AreOthers.find?_eq_none {members : List (Json.Text × Json.Value)}
    (h : AreOthers members) : (members.find? fun m => m.1 == some valueName) = none := by
  rw [List.find?_eq_none]
  intro m hm
  simp [(h m hm).2]

private theorem occurrences_around (before after : List (Json.Text × Json.Value))
    (v : Json.Value) :
    Json.occurrences valueName (before ++ (some valueName, v) :: after) =
      Json.occurrences valueName before + (Json.occurrences valueName after + 1) := by
  simp [Json.occurrences, List.countP_append]

private theorem exists_of_find? {members : List (Json.Text × Json.Value)}
    {m : Json.Text × Json.Value} (hread : (members.all fun m => m.1.isSome) = true)
    (hone : Json.occurrences valueName members ≤ 1)
    (hm : (members.find? fun m => m.1 == some valueName) = some m) :
    ∃ before after, members = before ++ (some valueName, m.2) :: after ∧ AreOthers before ∧
      AreOthers after := by
  obtain ⟨hname, before, after, rfl, -⟩ := List.find?_eq_some_iff_append.1 hm
  obtain ⟨name, v⟩ := m
  cases beq_iff_eq.1 hname
  rw [occurrences_around] at hone
  rw [List.all_append, List.all_cons, Bool.and_eq_true, Bool.and_eq_true] at hread
  exact ⟨before, after, rfl, areOthers_iff.2 ⟨hread.1, by omega⟩,
    areOthers_iff.2 ⟨hread.2.2, by omega⟩⟩

private theorem pairValue?_object (members : List (Json.Text × Json.Value)) :
    pairValue? (.object members) =
      if (members.all fun m => m.1.isSome) = true ∧ Json.occurrences valueName members ≤ 1 then
        match members.find? fun m => m.1 == some valueName with
        | some m => m.2.orNull? Json.Value.asText?
        | none => some none
      else none := by
  have hrecord : (Json.Value.object members).asRecord? [valueName] =
      if (members.all fun m => m.1.isSome) = true ∧ Json.occurrences valueName members ≤ 1 then
        some ⟨false, [(members.find? fun m => m.1 == some valueName).map Prod.snd]⟩
      else none := by
    simp only [Json.Value.asRecord?, List.all_cons, List.all_nil, Bool.and_true, Bool.and_eq_true,
      decide_eq_true_eq, List.map_cons, List.map_nil]
  rw [pairValue?, ← valueName, hrecord]
  split
  · cases members.find? fun m => m.1 == some valueName <;> rfl
  · rfl

/-- A pair is read exactly as what it is. -/
theorem pairValue?_eq_some_iff : pairValue? v = some value ↔ IsPair v value := by
  constructor
  · intro h
    cases v with
    | array items =>
      match items with
      | [] => cases h
      | [item] =>
        rw [orNull?_asText?_eq_some_iff.1 h]
        exact .positional value
      | _ :: _ :: _ => simp [pairValue?, Json.Value.asRecord?] at h
    | object members =>
      rw [pairValue?_object] at h
      split at h
      · next hmembers =>
        obtain ⟨hread, hone⟩ := hmembers
        split at h
        · next m hm =>
          obtain ⟨before, after, rfl, hbefore, hafter⟩ := exists_of_find? hread hone hm
          rw [orNull?_asText?_eq_some_iff.1 h]
          exact .member hbefore hafter value
        · next hnone =>
          cases h
          refine .missing (areOthers_iff.2 ⟨hread, ?_⟩)
          rw [Json.occurrences, List.countP_eq_zero]
          exact List.find?_eq_none.1 hnone
      · cases h
    | null | bool | number | string => cases h
  · rintro (hothers | ⟨hbefore, hafter, value⟩ | value)
    · have hcount := areOthers_iff.1 hothers
      rw [pairValue?_object, if_pos ⟨hcount.1, by omega⟩, hothers.find?_eq_none]
    · have hcount := areOthers_iff.1 hbefore
      have hcount' := areOthers_iff.1 hafter
      rw [pairValue?_object, if_pos, List.find?_append, hbefore.find?_eq_none, Option.none_or,
        List.find?_cons_of_pos]
      · exact orNull?_asText?_eq_some_iff.2 rfl
      · exact beq_self_eq_true _
      · constructor
        · rw [List.all_append, List.all_cons, hcount.1, hcount'.1]
          rfl
        · rw [occurrences_around, hcount.2, hcount'.2]
    · exact orNull?_asText?_eq_some_iff.2 rfl

/-- The body lists pairs that hold these values. -/
def HttpResponse.ListsPairs (response : HttpResponse) (values : List (Option String)) : Prop :=
  ∃ items, response.json? = some (.array items) ∧ List.Forall₂ IsPair items values

/-- The pairs that are decoded of a body are those that it lists. -/
theorem HttpResponse.decoded_pairs_iff {response : HttpResponse} {values : List (Option String)} :
    response.json?.bind (Json.Value.asList? pairValue?) = some values ↔
      response.ListsPairs values := by
  have hitems (items : List Json.Value) :
      (Json.Value.array items).asList? pairValue? = some values ↔
        List.Forall₂ IsPair items values := by
    calc
      _ ↔ items.map pairValue? = values.map some := Json.Value.asList?_array
      _ ↔ List.Forall₂ (· = ·) (items.map pairValue?) (values.map some) := by
        rw [List.forall₂_eq_eq_eq]
      _ ↔ List.Forall₂ (fun v value => pairValue? v = some value) items values := by
        rw [List.forall₂_map_left_iff, List.forall₂_map_right_iff]
      _ ↔ List.Forall₂ IsPair items values := by simp only [pairValue?_eq_some_iff]
  constructor
  · intro h
    obtain ⟨v, hv, hvalues⟩ := Option.bind_eq_some_iff.1 h
    cases v with
    | array items => exact ⟨items, hv, (hitems items).1 hvalues⟩
    | null | bool | number | string | object => cases hvalues
  · rintro ⟨items, hv, hpairs⟩
    rw [hv, Option.bind_some, hitems]
    exact hpairs

namespace AgentClient

/-- What a response is read as, when it answers a request for the value of a key. -/
inductive ReadsValue (key : String) (r : HttpRequest) :
    Option HttpResponse → Except Failure (List UInt8) → Prop
  /-- There is no response. -/
  | transport :
      ReadsValue key r none
        (.error (.registryUnavailable (r.url.toText ++ ": " ++ r.failureReason)))
  /-- The agent does not know the key. -/
  | unknown {response : HttpResponse} (hs : response.status = 404) :
      ReadsValue key r (some response) (.error (.keyNotFound key))
  /-- The status is another one than those of success. -/
  | status {response : HttpResponse} (hs : ¬ (200 ≤ response.status ∧ response.status < 300))
      (hne : response.status ≠ 404) :
      ReadsValue key r (some response)
        (.error (.registryUnavailable
          (r.url.path.toText ++ " returned " ++ Http.statusText response.status)))
  /-- The request succeeded, and the body does not list pairs. -/
  | body {response : HttpResponse} (hs : 200 ≤ response.status ∧ response.status < 300)
      (hb : ∀ values, ¬ response.ListsPairs values) :
      ReadsValue key r (some response) (.error (.invalidEntry "error decoding response body"))
  /-- The request succeeded, and the body lists no pairs. -/
  | empty {response : HttpResponse} (hs : 200 ≤ response.status ∧ response.status < 300)
      (hb : response.ListsPairs []) :
      ReadsValue key r (some response) (.error (.keyNotFound key))
  /-- The request succeeded, and the first pair holds no text. -/
  | null {response : HttpResponse} {rest : List (Option String)}
      (hs : 200 ≤ response.status ∧ response.status < 300)
      (hb : response.ListsPairs (none :: rest)) :
      ReadsValue key r (some response) (.ok [])
  /-- The request succeeded, and the first pair holds the text of some bytes. -/
  | bytes {response : HttpResponse} {rest : List (Option String)} {bytes : List UInt8}
      (hs : 200 ≤ response.status ∧ response.status < 300)
      (hb : response.ListsPairs (some (Base64.text bytes) :: rest)) :
      ReadsValue key r (some response) (.ok bytes)
  /-- The request succeeded, and the first pair holds a text that is that of no bytes. -/
  | encoding {response : HttpResponse} {rest : List (Option String)} {s : String}
      {fault : Base64.Fault} (hs : 200 ≤ response.status ∧ response.status < 300)
      (hb : response.ListsPairs (some s :: rest)) (hne : ∀ bytes, s ≠ Base64.text bytes)
      (hf : Base64.decode (Utf8.encode s.toList) = .error fault) :
      ReadsValue key r (some response) (.error (.invalidEntry (encodingFault fault)))

variable {client : AgentClient} {link : Link} {key : String} {r : HttpRequest} {u : Url}

private theorem readValue_of_lists {response : HttpResponse} {values : List (Option String)}
    (hs : 200 ≤ response.status ∧ response.status < 300) (hb : response.ListsPairs values) :
    readValue key r (some response) =
      match values with
      | [] => .error (.keyNotFound key)
      | value :: _ => valueBytes value := by
  have hne : response.status ≠ 404 := by omega
  have hdecoded : decoded (Json.Value.asList? pairValue?) response = .ok values := by
    rw [decoded, HttpResponse.decoded_pairs_iff.2 hb]
  simp only [readValue, if_neg hne, Http.isSuccess_iff.2 hs, hdecoded]
  cases values <;> rfl

private theorem readValue_of_not_lists {response : HttpResponse}
    (hs : 200 ≤ response.status ∧ response.status < 300)
    (hb : ∀ values, ¬ response.ListsPairs values) :
    readValue key r (some response) = .error (.invalidEntry "error decoding response body") := by
  have hne : response.status ≠ 404 := by omega
  have hnone : response.json?.bind (Json.Value.asList? pairValue?) = none := by
    rw [Option.eq_none_iff_forall_ne_some]
    exact fun values hv => hb values (HttpResponse.decoded_pairs_iff.1 hv)
  have hdecoded : decoded (Json.Value.asList? pairValue?) response = .error undecodable := by
    rw [decoded, hnone]
  simp only [readValue, if_neg hne, Http.isSuccess_iff.2 hs, hdecoded]
  rfl

private theorem readsValue_valueBytes {response : HttpResponse} {value : Option String}
    {rest : List (Option String)} (hs : 200 ≤ response.status ∧ response.status < 300)
    (hb : response.ListsPairs (value :: rest)) :
    ReadsValue key r (some response) (valueBytes value) := by
  cases value with
  | none => exact .null hs hb
  | some s =>
    rw [valueBytes]
    split
    · next bytes hbytes =>
      rw [Base64.decode_encode_eq_ok_iff.1 hbytes] at hb
      exact .bytes hs hb
    · next fault hfault =>
      refine .encoding hs hb (fun bytes hs => ?_) hfault
      rw [Base64.decode_encode_eq_ok_iff.2 hs] at hfault
      cases hfault

private theorem readsValue_readValue (key : String) (r : HttpRequest)
    (response : Option HttpResponse) : ReadsValue key r response (readValue key r response) := by
  cases response with
  | none => exact .transport
  | some response =>
    by_cases hnotFound : response.status = 404
    · rw [readValue, if_pos hnotFound]
      exact .unknown hnotFound
    by_cases hs : 200 ≤ response.status ∧ response.status < 300
    · by_cases hb : ∃ values, response.ListsPairs values
      · obtain ⟨values, hb⟩ := hb
        rw [readValue_of_lists hs hb]
        cases values with
        | nil => exact .empty hs hb
        | cons value rest => exact readsValue_valueBytes hs hb
      · rw [readValue_of_not_lists hs (not_exists.1 hb)]
        exact .body hs (not_exists.1 hb)
    · have hread : readValue key r (some response) = .error (.registryUnavailable
          (r.url.path.toText ++ " returned " ++ Http.statusText response.status)) := by
        simp [readValue, hnotFound, mt Http.isSuccess_iff.1 hs]
      rw [hread]
      exact .status hs hnotFound

/-- Every response is read in one way. -/
theorem readValue_eq_iff {response : Option HttpResponse} {result : Except Failure (List UInt8)} :
    readValue key r response = result ↔ ReadsValue key r response result := by
  constructor
  · rintro rfl
    exact readsValue_readValue key r response
  · intro h
    cases h with
    | transport => rfl
    | unknown hs => simp [readValue, hs]
    | status hs hne => simp [readValue, hne, mt Http.isSuccess_iff.1 hs]
    | body hs hb => exact readValue_of_not_lists hs hb
    | empty hs hb => rw [readValue_of_lists hs hb]
    | null hs hb =>
      rw [readValue_of_lists hs hb]
      rfl
    | bytes hs hb =>
      rw [readValue_of_lists hs hb]
      simp [valueBytes, Base64.decode_encode_eq_ok_iff.2 rfl]
    | encoding hs hb hne hf =>
      rw [readValue_of_lists hs hb]
      simp [valueBytes, hf]

/-- The value of a key over a network, once its URL is built, is what the response is read as. -/
theorem value_of_request [Url.Idna]
    (h : client.request (valueSegments key) [] client.requestTimeout = .ok r) :
    client.value link key = readValue key r (link.response? r) := by
  rw [value, h]
  rfl

private theorem listsPairs_of_body {response : HttpResponse} {items : List Json.Value}
    {values : List (Option String)} (hexact : (Json.Value.array items).IsExact)
    (hbody : response.body = some (Utf8.encode (Json.Value.array items).toText.toList))
    (hpairs : List.Forall₂ IsPair items values) : response.ListsPairs values := by
  refine ⟨items, ?_, hpairs⟩
  rw [HttpResponse.json?, hbody, Option.bind_some, Json.readBytes?_toText hexact]

/-- Under an agent's URL of the web every key is asked for, and the response is read in one way,
which tells whether bytes are given, and then which, or what the failure is. In particular, bytes
that the agent holds are given if the body is the text of a list of pairs and the first pair holds
their text. -/
theorem value_outcome [Url.Idna] (hbase : Url.parse client.base = .ok u)
    (hscheme : u.scheme = "http" ∨ u.scheme = "https") (link : Link) (key : String) :
    ∃ r, client.request (valueSegments key) [] client.requestTimeout = .ok r ∧
      (∀ result, client.value link key = result ↔ ReadsValue key r (link.response? r) result) ∧
      ∀ response items rest bytes, link.response? r = some response →
        200 ≤ response.status ∧ response.status < 300 →
        response.body = some (Utf8.encode (Json.Value.array items).toText.toList) →
        (Json.Value.array items).IsExact →
        List.Forall₂ IsPair items (some (Base64.text bytes) :: rest) →
          client.value link key = .ok bytes := by
  have hu := Url.isBase_of_parse hbase hscheme
  have hfirst : Url.IsCarried "v1".toList := by decide
  obtain ⟨v, hv, -⟩ := hu.leadsTo_iff hfirst (by decide)
    ("kv" :: (Text.fields '/' (strippedKey key)).map String.ofList)
  have hurl : client.url (valueSegments key) = .ok v := url_eq_ok hbase hv
  obtain ⟨r, hr⟩ : ∃ r, client.request (valueSegments key) [] client.requestTimeout = .ok r := by
    rw [request, hurl]
    exact ⟨_, rfl⟩
  have hread (result : Except Failure (List UInt8)) :
      client.value link key = result ↔ ReadsValue key r (link.response? r) result := by
    rw [value_of_request hr, readValue_eq_iff]
  refine ⟨r, hr, hread, fun response items rest bytes hresponse hs hbody hexact hpairs => ?_⟩
  rw [hread, hresponse]
  exact .bytes hs (listsPairs_of_body hexact hbody hpairs)

/-- The request for the key `app/config` of the agent on this machine. -/
def configRequest : HttpRequest := { webRequest with
  url := { webRequest.url with path := .segments ["v1", "kv", "app", "config"] } }

/-- The pairs of the key with a text in its value. -/
def configPairs (text : String) : List Json.Value :=
  [.record [("Key", .text "app/config"), ("Value", .text text)]]

/-- A response with the pairs of the key. -/
def configResponse (text : String) : HttpResponse :=
  ⟨200, [], some (Utf8.encode (Json.Value.array (configPairs text)).toText.toList)⟩

section

open scoped Url.Latin

/-- The text `aGVsbG8=` gives the bytes of `hello`; without its padding it gives none, and neither
does a status of 404. -/
theorem value_outcome_config :
    ofThisMachine.value (fun _ => some (configResponse "aGVsbG8=")) "app/config" =
        .ok [0x68, 0x65, 0x6C, 0x6C, 0x6F] ∧
      ofThisMachine.value (fun _ => some (configResponse "aGVsbG8")) "app/config" =
        .error (.invalidEntry "Invalid padding") ∧
      ofThisMachine.value (fun _ => some { nullResponse with status := 404 }) "app/config" =
        .error (.keyNotFound "app/config") := by
  have hbase : Url.parse ofThisMachine.base =
      .ok { webRequest.url with path := .segments [""] } := by rfl
  have hrequest : ofThisMachine.request (valueSegments "app/config") []
      ofThisMachine.requestTimeout = .ok configRequest := by rfl
  have hsend : configRequest.isSendable = true := by decide +kernel
  have hexact (text : String) : (Json.Value.array (configPairs text)).IsExact := by
    refine .array fun v hv => ?_
    cases List.mem_singleton.1 hv
    exact .object (by simp [Json.Value.text, Json.Value.IsExact.string])
  have hpairs (text : String) : List.Forall₂ IsPair (configPairs text) [some text] := by
    have hbefore : AreOthers [(some "Key", .text "app/config")] := by simp [AreOthers, valueName]
    have hafter : AreOthers [] := nofun
    exact .cons (.member hbefore hafter (some text)) .nil
  refine ⟨?_, ?_, ?_⟩
  · obtain ⟨r, hr, -, hbytes⟩ := value_outcome hbase (.inl rfl)
      (fun _ => some (configResponse "aGVsbG8=")) "app/config"
    rw [hrequest] at hr
    cases hr
    exact hbytes _ _ [] _ (if_pos hsend) (by decide) rfl (hexact _) (hpairs _)
  · obtain ⟨r, hr, hread, -⟩ := value_outcome hbase (.inl rfl)
      (fun _ => some (configResponse "aGVsbG8")) "app/config"
    rw [hrequest] at hr
    cases hr
    rw [hread, Link.response?, if_pos hsend]
    have hfault : Base64.decode (Utf8.encode "aGVsbG8".toList) = .error .padding := by rfl
    refine .encoding (by decide) (listsPairs_of_body (hexact _) rfl (hpairs _)) ?_ hfault
    intro bytes hs
    rw [Base64.decode_encode_eq_ok_iff.2 hs] at hfault
    cases hfault
  · obtain ⟨r, hr, hread, -⟩ := value_outcome hbase (.inl rfl)
      (fun _ => some { nullResponse with status := 404 }) "app/config"
    rw [hrequest] at hr
    cases hr
    rw [hread, Link.response?, if_pos hsend]
    exact .unknown rfl

end

end AgentClient

end ServiceDiscovery
