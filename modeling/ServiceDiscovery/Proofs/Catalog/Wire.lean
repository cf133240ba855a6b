import ServiceDiscovery.Catalog.Wire
import ServiceDiscovery.Proofs.Json.Written

/-!
# Round trips of catalog values

Endpoints, sets of endpoints, checks, instances and an agent's services are read back from the JSON
text that is written of them, whatever their texts, ports and lists are. A reader fits a written
form if it undoes it; readers of lists and records fit if the readers of their items and fields do.
-/

namespace ServiceDiscovery

namespace Json

variable {α : Type}

/-- The value of a type that a JSON text denotes. -/
def decode? (ofJson? : Value → Option α) (text : String) : Option α := (read? text).bind ofJson?

/-- A written form, in which every number is natural, with a reader that undoes it. -/
structure Codec (toJson : α → Value) (ofJson? : Value → Option α) : Prop where
  exact : ∀ a, (toJson a).IsExact
  undone : ∀ a, ofJson? (toJson a) = some a

namespace Codec

variable {toJson : α → Value} {ofJson? : Value → Option α}

/-- A value is decoded from its text. -/
theorem decode?_toText (h : Codec toJson ofJson?) (a : α) :
    decode? ofJson? (toJson a).toText = some a := by
  rw [decode?, read?_toText (h.exact a), Option.bind_some, h.undone]

/-- Texts are read back. -/
theorem text : Codec Value.text Value.asText? := ⟨fun s => .string (some s), fun _ => rfl⟩

/-- Ports are read back. -/
theorem port : Codec portValue asPort? where
  exact p := .natural p.toNat
  undone p := by
    have hp : p.toNat < UInt16.size := p.toNat_lt
    simp [portValue, asPort?, Value.natural, Value.asNatural?, hp]

/-- Lists are read back if their items are. -/
theorem list (h : Codec toJson ofJson?) :
    Codec (fun l => .array (l.map toJson)) (Value.asList? ofJson?) where
  exact l := by
    refine .array fun v hv => ?_
    obtain ⟨a, -, rfl⟩ := List.mem_map.1 hv
    exact h.exact a
  undone l := Value.asList?_array.2 (by simp [h.undone])

/-- What may be null is read back if it is never written as null otherwise. -/
theorem orNull (h : Codec toJson ofJson?) (hne : ∀ a, toJson a ≠ .null) :
    Codec (fun o => (o.map toJson).getD .null) (Value.orNull? ofJson?) where
  exact o := by
    cases o with
    | none => exact .null
    | some a => exact h.exact a
  undone o := by
    cases o with
    | none => rfl
    | some a =>
      rw [Option.map_some, Option.getD_some, Value.orNull?, h.undone]
      · rfl
      · exact hne a

end Codec

/-- A record has natural numbers only if its members have. -/
theorem Value.isExact_record {members : List (String × Value)} (h : ∀ m ∈ members, m.2.IsExact) :
    (Value.record members).IsExact := by
  refine .object fun m hm => ?_
  obtain ⟨x, hx, rfl⟩ := List.mem_map.1 hm
  exact h x hx

private theorem occurrences_record {members : List (String × Value)}
    (h : (members.map Prod.fst).Nodup) (name : String) :
    occurrences name (members.map fun m => (some m.1, m.2)) ≤ 1 := by
  have hcount : occurrences name (members.map fun m => (some m.1, m.2)) =
      (members.map Prod.fst).count name := by
    simp [occurrences, List.countP_map, List.count, Function.comp_def]
  rw [hcount]
  exact List.nodup_iff_count.1 h name

private theorem find?_record {members : List (String × Value)}
    (h : (members.map Prod.fst).Nodup) {m : String × Value} (hm : m ∈ members) :
    (members.map fun x => ((some x.1 : Text), x.2)).find? (fun x => x.1 == some m.1) =
      some (some m.1, m.2) := by
  induction members with
  | nil => cases hm
  | cons x members ih =>
    rw [List.map_cons, List.nodup_cons] at h
    rcases List.mem_cons.1 hm with rfl | hm
    · simp
    · have hne : x.1 ≠ m.1 := fun he => h.1 (he ▸ List.mem_map_of_mem hm)
      simpa [hne] using ih h.2 hm

/-- A written record is read with the same fields in the same order. -/
theorem asRecord?_record {members : List (String × Value)} {names : List String}
    (hnames : members.map Prod.fst = names) (h : names.Nodup) :
    (Value.record members).asRecord? names = some ⟨false, members.map fun m => some m.2⟩ := by
  subst hnames
  have hreadable : ((members.map fun m => ((some m.1 : Text), m.2)).all fun m => m.1.isSome) =
      true := by
    simp
  have honce : ((members.map Prod.fst).all fun n =>
      occurrences n (members.map fun m => (some m.1, m.2)) ≤ 1) = true :=
    List.all_eq_true.2 fun n _ => decide_eq_true (occurrences_record h n)
  have hfields : (members.map Prod.fst).map (fun n =>
      ((members.map fun m => ((some m.1 : Text), m.2)).find? fun m => m.1 == some n).map Prod.snd) =
        members.map fun m => some m.2 := by
    rw [List.map_map]
    refine List.map_congr_left fun m hm => ?_
    rw [Function.comp_apply, find?_record h hm]
    rfl
  simp only [Value.record, Value.asRecord?, hreadable, honce, hfields, Bool.and_self, if_true]

end Json

open Json

/-! ### The types of the catalog -/

/-- Endpoints are read back. -/
theorem Endpoint.codec : Codec Endpoint.toJson Endpoint.ofJson? where
  exact e := Value.isExact_record (by simp [Codec.text.exact, Codec.port.exact])
  undone e := by
    have h : e.toJson.asRecord? ["host", "port"] =
        some ⟨false, [some (.text e.host), some (portValue e.port)]⟩ :=
      asRecord?_record rfl (by decide)
    rw [Endpoint.ofJson?, h]
    simp [required?, Codec.text.undone, Codec.port.undone]

/-- A set of endpoints is the set of its members in order. -/
theorem EndpointSet.ofList_toList (s : EndpointSet) : EndpointSet.ofList s.toList = s :=
  EndpointSet.ext fun _ => EndpointSet.mem_ofList

/-- A list of endpoints in the place of a set's. -/
def EndpointSet.listed (l : List Endpoint) : Value :=
  .record [("endpoints", .array (l.map Endpoint.toJson))]

/-- A list of endpoints is read as the set of its members. -/
theorem EndpointSet.ofJson?_listed (l : List Endpoint) :
    EndpointSet.ofJson? (EndpointSet.listed l) = some (EndpointSet.ofList l) := by
  have h : (EndpointSet.listed l).asRecord? ["endpoints"] =
      some ⟨false, [some (.array (l.map Endpoint.toJson))]⟩ :=
    asRecord?_record rfl (by decide)
  rw [EndpointSet.ofJson?, h]
  simp [required?, Endpoint.codec.list.undone]

/-- Lists of endpoints are written with natural numbers only. -/
theorem EndpointSet.isExact_listed (l : List Endpoint) : (EndpointSet.listed l).IsExact :=
  Value.isExact_record (by simpa using Endpoint.codec.list.exact l)

/-- Sets of endpoints are read back. -/
theorem EndpointSet.codec : Codec EndpointSet.toJson EndpointSet.ofJson? where
  exact s := EndpointSet.isExact_listed s.toList
  undone s := by
    have h := EndpointSet.ofJson?_listed s.toList
    rwa [EndpointSet.ofList_toList] at h

/-- Checks are read back. -/
theorem HealthCheck.codec : Codec HealthCheck.toJson HealthCheck.ofJson? where
  exact c := Value.isExact_record (by simp [Codec.text.exact])
  undone c := by
    have h : c.toJson.asRecord? ["CheckID", "Status"] =
        some ⟨false, [some (.text c.id), some (.text c.status)]⟩ :=
      asRecord?_record rfl (by decide)
    rw [HealthCheck.ofJson?, h]
    simp [required?, withDefault?, Codec.text.undone]

/-- Nodes are read back. -/
theorem Node.codec : Codec Node.toJson Node.ofJson? where
  exact n := Value.isExact_record (by simp [Codec.text.exact])
  undone n := by
    have h : n.toJson.asRecord? ["Node", "Address"] =
        some ⟨false, [some (.text n.name), some (.text n.address)]⟩ :=
      asRecord?_record rfl (by decide)
    rw [Node.ofJson?, h]
    simp [withDefault?, Codec.text.undone]

private theorem codec_tags :
    Codec (fun tags : Option (List String) => (tags.map Value.texts).getD .null)
      (Value.orNull? (Value.asList? Value.asText?)) :=
  Codec.text.list.orNull nofun

/-- Services are read back. -/
theorem Instance.codec : Codec Instance.toJson Instance.ofJson? where
  exact s := Value.isExact_record
    (by simp [Codec.text.exact, Codec.port.exact, codec_tags.exact s.tags])
  undone s := by
    have h : s.toJson.asRecord? ["Service", "Address", "Port", "Tags"] =
        some ⟨false, [some (.text s.name), some (.text s.address), some (portValue s.port),
          some ((s.tags.map Value.texts).getD .null)]⟩ :=
      asRecord?_record rfl (by decide)
    rw [Instance.ofJson?, h]
    simp [required?, withDefault?, Codec.text.undone, Codec.port.undone, codec_tags.undone s.tags]

/-- Instances are read back. -/
theorem Entry.codec : Codec Entry.toJson Entry.ofJson? where
  exact e := Value.isExact_record (by
    simp [Node.codec.exact, Instance.codec.exact, HealthCheck.codec.list.exact e.checks])
  undone e := by
    have h : e.toJson.asRecord? ["Node", "Service", "Checks"] =
        some ⟨false, [some e.node.toJson, some e.service.toJson,
          some (.array (e.checks.map HealthCheck.toJson))]⟩ :=
      asRecord?_record rfl (by decide)
    rw [Entry.ofJson?, h]
    simp [required?, withDefault?, Node.codec.undone, Instance.codec.undone,
      HealthCheck.codec.list.undone e.checks]

/-- An agent's services are read back. -/
theorem AgentService.codec : Codec AgentService.toJson AgentService.ofJson? where
  exact s := Value.isExact_record (by simp [Codec.text.exact, Codec.port.exact])
  undone s := by
    have h : s.toJson.asRecord? ["ID", "Service", "Address", "Port"] =
        some ⟨false, [some (.text s.id), some (.text s.service), some (.text s.address),
          some (portValue s.port)]⟩ :=
      asRecord?_record rfl (by decide)
    rw [AgentService.ofJson?, h]
    simp [required?, withDefault?, Codec.text.undone, Codec.port.undone]

/-- Every value of the catalog is decoded from its own text, and a list of endpoints, in any order
and with repeats, is decoded as the set that holds exactly its members. -/
theorem decoded_from_text :
    (∀ e : Endpoint, decode? Endpoint.ofJson? e.toJson.toText = some e) ∧
      (∀ s : EndpointSet, decode? EndpointSet.ofJson? s.toJson.toText = some s) ∧
      (∀ c : HealthCheck, decode? HealthCheck.ofJson? c.toJson.toText = some c) ∧
      (∀ e : Entry, decode? Entry.ofJson? e.toJson.toText = some e) ∧
      (∀ s : AgentService, decode? AgentService.ofJson? s.toJson.toText = some s) ∧
      ∀ l : List Endpoint, ∃ s : EndpointSet,
        decode? EndpointSet.ofJson? (EndpointSet.listed l).toText = some s ∧
          ∀ e, e ∈ s ↔ e ∈ l := by
  refine ⟨Endpoint.codec.decode?_toText, EndpointSet.codec.decode?_toText,
    HealthCheck.codec.decode?_toText, Entry.codec.decode?_toText,
    AgentService.codec.decode?_toText, fun l => ⟨EndpointSet.ofList l, ?_, ?_⟩⟩
  · rw [decode?, read?_toText (EndpointSet.isExact_listed l), Option.bind_some,
      EndpointSet.ofJson?_listed]
  · exact fun e => EndpointSet.mem_ofList

end ServiceDiscovery
