import ServiceDiscovery.Proofs.Simulation.FirstLookup
import ServiceDiscovery.Proofs.Url.Label
import ServiceDiscovery.Simulation.Session
import ServiceDiscovery.Url.Latin

/-!
# Services named by labels in URLs

A label that names a service is a text of its own, and the host of a web address. As a text it is
looked up as it is written. As a host it goes through the reader of URLs, which gives it in lower
case, while the registry tells names apart by case: the address leads to the service exactly if its
name has no capital letters.
-/

namespace ServiceDiscovery

open Url (IsLabel)

/-- A name of one label that is not the machine's own name in any case. -/
structure IsServiceName (n : String) : Prop where
  label : IsLabel n.toList
  notLocal : n.toLower ≠ "localhost"

/-- The web address of a host. -/
def webAddress (host : String) : String := "http://" ++ host ++ "/"

namespace IsServiceName

variable {n : String}

private theorem ne_localhost (h : IsServiceName n) : n ≠ "localhost" := by
  rintro rfl
  exact h.notLocal (Url.toLower_eq_iff.2 (by decide))

/-- A service name in lower case is a service name. -/
theorem toLower (h : IsServiceName n) : IsServiceName n.toLower := by
  have hlist : n.toLower.toList = n.toList.map Char.toLower := (Url.toLower_eq_iff.1 rfl).symm
  refine ⟨?_, ?_⟩
  · rw [hlist]
    exact h.label.toLower
  · have hsame : n.toLower.toLower = n.toLower := by
      rw [Url.toLower_eq_iff, hlist]
      exact h.label.map_toLower_toLower
    rw [hsame]
    exact h.notLocal

/-- A service name is a name that the registry may know, under every domain. -/
theorem shouldDiscover (h : IsServiceName n) (domain : String) :
    ServiceDiscovery.shouldDiscover n domain = true := by
  have hne : n ≠ "" := by
    rintro rfl
    exact h.label.isHostName.ne_nil rfl
  rw [ServiceDiscovery.shouldDiscover, if_neg hne, Text.splitLast?_eq_none h.label.not_mem.1,
    decide_eq_true h.ne_localhost]

private theorem parse_eq (h : IsServiceName n) (domain : String) :
    Key.parse n domain = .ofName n := by
  have hpoint : Key.beforeDomain? n.toList domain.toList = none := by
    rw [Option.eq_none_iff_forall_ne_some]
    intro s hs
    have hmem : '.' ∈ n.toList := by
      rw [Key.beforeDomain?_eq_some_iff.1 hs]
      simp
    exact h.label.not_mem.1 hmem
  have hname : Key.qualified? n.toList domain.toList = none := by
    rw [Key.qualified?, hpoint, Option.bind_none, ite_self]
  rw [Key.parse, hname]

/-- The template of a service name on its own: the endpoint alone. -/
theorem discoverable_name [Url.Idna] (h : IsServiceName n) (domain : String) :
    HostTemplate.discoverable? n domain = some ⟨none, n, "", none⟩ := by
  have hslashes : Text.splitFirst? ['/', '/'] n.toList = none := by
    rw [Option.eq_none_iff_forall_ne_some]
    rintro ⟨a, b⟩ hab
    have hmem : '/' ∈ n.toList := by
      rw [Text.eq_append_of_splitFirst? hab]
      simp
    exact h.label.not_mem.2.2 hmem
  have hport : HostTemplate.bareHost n.toList = n.toList := by
    rw [HostTemplate.bareHost, Text.splitLast?_eq_none h.label.not_mem.2.1]
  rw [HostTemplate.discoverable?, HostTemplate.parse?, hslashes]
  simp [HostTemplate.ofBareHost?, hport, h.label.isHostName.ne_nil, h.shouldDiscover domain]

/-- The template of the web address of a service name: its host is the name in lower case. -/
theorem discoverable_webAddress [Url.Idna] (h : IsServiceName n) (domain : String) :
    HostTemplate.discoverable? (webAddress n) domain =
      some ⟨some "http", n.toLower, "/", none⟩ := by
  have hslashes : Text.splitFirst? ['/', '/'] (webAddress n).toList =
      some ("http:".toList, n.toList ++ ['/']) := by
    rw [webAddress, String.toList_append, String.toList_append]
    rfl
  have hhost := h.toLower.label.bareHost?_eq
    (u := ⟨"http", some ⟨"", none, some (.name n.toLower), none⟩, .segments [""], none, none⟩) rfl
  have hpath : (Url.Path.segments [""]).toText = "/" := by decide
  rw [HostTemplate.discoverable?, HostTemplate.parse?, hslashes]
  simp only [HostTemplate.ofUrl?]
  rw [webAddress, h.label.parse_web]
  simp [hhost, hpath, h.toLower.shouldDiscover domain]

end IsServiceName

namespace Session

variable {ρ : Type} {s : Session ρ}

/-- One healthy endpoint of a name, chosen with a random number. -/
def resolveOneBy (draw : Nat) (name : String) (s : Session ρ) :
    Option (Except Failure Endpoint) × Session ρ :=
  match s.resolve name with
  | (none, s) => (none, s)
  | (some result, s) =>
    let (e, b) := Choice.oneOf MemoryRegistry.address name draw result s.balancer
    (some e, { s with balancer := b })

/-- The text with an endpoint for its host, chosen with a random number. -/
def fillHostBy [Url.Idna] (draw : Nat) (text : String) (s : Session ρ) :
    Option String × Session ρ :=
  match HostTemplate.discoverable? text s.world.service.agent.domain with
  | none => (some text, s)
  | some template =>
    let (e, s) := s.resolveOneBy draw template.host
    (e.map (HostTemplate.filled text template), s)

/-- A session chooses with zero. -/
theorem resolveOneBy_zero (name : String) : s.resolveOneBy 0 name = s.resolveOne name := rfl

/-- A session fills with what it chooses with zero. -/
theorem fillHostBy_zero [Url.Idna] (text : String) : s.fillHostBy 0 text = s.fillHost text := rfl

/-- What is chosen is chosen from what the name resolves to. -/
theorem fst_resolveOneBy (draw : Nat) (name : String) :
    (s.resolveOneBy draw name).1 = (s.resolve name).1.map fun result =>
      (Choice.oneOf MemoryRegistry.address name draw result s.balancer).1 := by
  have hbalancer : (s.resolve name).2.balancer = s.balancer := rfl
  rw [resolveOneBy, ← hbalancer]
  rcases s.resolve name with ⟨_ | result, s'⟩ <;> rfl

/-- Where one choice from a name's set succeeds, each choice gives a member of this set. -/
theorem exists_of_resolveOneBy {draw : Nat} {name : String} {e : Endpoint}
    (h : (s.resolveOneBy draw name).1 = some (.ok e)) :
    ∃ set, (s.resolve name).1 = some (.ok set) ∧ e ∈ set ∧
      ∀ draw, ∃ x ∈ set, (s.resolveOneBy draw name).1 = some (.ok x) := by
  have hchoice := h
  rw [fst_resolveOneBy] at hchoice
  obtain ⟨result, hresult, hone⟩ := Option.map_eq_some_iff.1 hchoice
  cases result with
  | error f => cases hone
  | ok set =>
    have hset : set.isEmpty = false := by
      rw [Bool.eq_false_iff]
      intro hempty
      simp [Choice.oneOf, Choice.one, Balancer.pick, hempty] at hone
    have hmem (draw : Nat) : ∃ x ∈ set, (s.resolveOneBy draw name).1 = some (.ok x) := by
      obtain ⟨x, b, hx, hmem⟩ := Balancer.exists_pick hset draw s.balancer
      refine ⟨x, hmem, ?_⟩
      simp [fst_resolveOneBy, hresult, Choice.oneOf, Choice.one, hx]
    obtain ⟨x, hx, hfound⟩ := hmem draw
    rw [h] at hfound
    cases hfound
    exact ⟨set, hresult, hx, hmem⟩

/-- A text that holds a host is filled with what is chosen for the host. -/
theorem fst_fillHostBy [Url.Idna] {text : String} {t : HostTemplate}
    (h : HostTemplate.discoverable? text s.world.service.agent.domain = some t) (draw : Nat) :
    (s.fillHostBy draw text).1 =
      (s.resolveOneBy draw t.host).1.map (HostTemplate.filled text t) := by
  rw [fillHostBy, h]

/-- In every state in which an endpoint of the name is found, the text is filled with an endpoint of
the same set, whatever the random numbers are. -/
def Fills [Url.Idna] (ρ : Type) (name text : String) (written : Endpoint → String) : Prop :=
  ∀ (s : Session ρ) (draw draw' : Nat) (e : Endpoint),
    (s.resolveOneBy draw name).1 = some (.ok e) →
      ∃ set x, (s.resolve name).1 = some (.ok set) ∧ e ∈ set ∧ x ∈ set ∧
        (s.fillHostBy draw' text).1 = some (written x)

/-- Each choice finds an endpoint of the name, and the text is left as it is. -/
def Misses [Url.Idna] (s : Session ρ) (name text : String) : Prop :=
  ∀ draw, (∃ e, (s.resolveOneBy draw name).1 = some (.ok e)) ∧
    (s.fillHostBy draw text).1 = some text

/-- A text whose host is a name is filled wherever the name is found. -/
theorem fills_of_discoverable [Url.Idna] {name text : String} {t : HostTemplate}
    (h : ∀ domain, HostTemplate.discoverable? text domain = some t) (hhost : t.host = name) :
    Fills ρ name text t.fill := by
  intro s draw draw' e he
  obtain ⟨set, hset, hmem, hchoose⟩ := exists_of_resolveOneBy he
  obtain ⟨x, hx, hfound⟩ := hchoose draw'
  refine ⟨set, x, hset, hmem, hx, ?_⟩
  rw [fst_fillHostBy (h _), hhost, hfound]
  rfl

/-- The first lookup of a session gives what a registry that can be reached shows. -/
theorem fst_resolve_start [Url.Idna] (registry : MemoryRegistry) (agent : Agent) (c : Config)
    {name : String} {key : Key} (hkey : Key.parse name agent.domain = key)
    (hr : registry.available = true) (hf : registry.failures = 0) :
    ((start registry (.start MemoryRegistry.address agent c.watch) c : Session ρ).resolve name).1 =
      some (if (registry.shown c.tag key).isEmpty
        then .error (.notFound key.toText MemoryRegistry.address)
        else .ok (registry.shown c.tag key)) := by
  have hworld (s : Session ρ) : (s.resolve name).1 = (s.world.resolve name).1 := rfl
  rw [hworld]
  exact World.resolve_start registry c.tag MemoryRegistry.address agent c.watch key hkey hr hf

/-! ### A registry that tells names apart -/

-- A registry with one healthy instance of one service.
private def registryOf (agent : Agent) (tag : Option String) (n : String) : MemoryRegistry :=
  (MemoryRegistry.empty.applied (.setAgent agent)).applied
    (.setService n none [⟨⟨"", "10.0.0.1"⟩, ⟨n, "", 80, tag.map fun t => [t]⟩, []⟩])

private theorem shown_registryOf_self (agent : Agent) (tag : Option String) (n : String) :
    ((registryOf agent tag n).shown tag (.ofName n)).isEmpty = false := by
  have hentries : (registryOf agent tag n).entries n none =
      [⟨⟨"", "10.0.0.1"⟩, ⟨n, "", 80, tag.map fun t => [t]⟩, []⟩] := by
    rw [MemoryRegistry.entries, registryOf]
    exact congrArg (Option.getD · []) (Table.get?_insert_self .empty (n, none) _)
  have hshown : (⟨"10.0.0.1", 80⟩ : Endpoint) ∈ (registryOf agent tag n).shown tag (.ofName n) := by
    rw [MemoryRegistry.shown, mem_healthyEndpoints]
    simp only [Key.ofName, hentries]
    cases tag <;> simp [Entry.matchesTag, Entry.hasTag, Entry.isHealthy, Entry.endpoint]
  rw [Bool.eq_false_iff]
  intro hempty
  rw [EndpointSet.isEmpty, List.isEmpty_iff] at hempty
  rw [EndpointSet.mem_def, hempty] at hshown
  cases hshown

private theorem shown_registryOf_of_ne (agent : Agent) (tag : Option String) {n x : String}
    (h : x ≠ n) : ((registryOf agent tag n).shown tag (.ofName x)).isEmpty = true := by
  have hentries : (registryOf agent tag n).entries x none = [] := by
    have hkey : ((n, none) : String × Option String) ≠ (x, none) := fun he =>
      h (Prod.ext_iff.1 he).1.symm
    rw [MemoryRegistry.entries, registryOf]
    exact congrArg (Option.getD · []) (Table.get?_insert_of_ne .empty _ hkey)
  rw [MemoryRegistry.shown]
  simp only [Key.ofName, hentries]
  rfl

/-- Under every configuration a service with a capital letter can be found by its name while the
web address of its name is left as it is. -/
theorem exists_misses [Url.Idna] {n : String} (h : IsServiceName n) (hn : n.toLower ≠ n)
    (agent : Agent) (c : Config) :
    ∃ registry, (start registry (.start MemoryRegistry.address agent c.watch) c :
      Session ρ).Misses n (webAddress n) := by
  let s : Session ρ :=
    start (registryOf agent c.tag n) (.start MemoryRegistry.address agent c.watch) c
  have hresolve {x : String} (hx : IsServiceName x) : (s.resolve x).1 = _ :=
    fst_resolve_start (registryOf agent c.tag n) agent c (hx.parse_eq agent.domain) rfl rfl
  refine ⟨registryOf agent c.tag n, fun draw => ⟨?_, ?_⟩⟩
  · have hset := shown_registryOf_self agent c.tag n
    obtain ⟨x, b, hx, -⟩ := Balancer.exists_pick hset draw s.balancer
    refine ⟨x, ?_⟩
    show (s.resolveOneBy draw n).1 = _
    simp [fst_resolveOneBy, hresolve h, hset, Choice.oneOf, Choice.one, hx]
  · have hset := shown_registryOf_of_ne agent c.tag hn
    show (s.fillHostBy draw (webAddress n)).1 = _
    rw [fst_fillHostBy (h.discoverable_webAddress _), fst_resolveOneBy, hresolve h.toLower, hset]
    rfl

end Session

/-- A service that is found by its name is found by the text of its name. It is found by the web
address of its name exactly if the name has no capital letters: the address asks for the name in
lower case, and is left as it is where this name is not found. -/
theorem found_by_address [Url.Idna] {ρ : Type} {n : String} (h : IsServiceName n) :
    Session.Fills ρ n n Endpoint.toText ∧
      (n.toLower = n → Session.Fills ρ n (webAddress n) fun e => webAddress e.toText) ∧
      (n.toLower ≠ n → ∀ (agent : Agent) (c : Config), ∃ registry,
        (Session.start registry (.start MemoryRegistry.address agent c.watch) c :
          Session ρ).Misses n (webAddress n)) ∧
      ∀ (s : Session ρ) (draw : Nat), (s.fillHostBy draw (webAddress n)).1 =
        (s.resolveOneBy draw n.toLower).1.map fun
          | .ok e => webAddress e.toText
          | .error _ => webAddress n := by
  have hname : (⟨none, n, "", none⟩ : HostTemplate).fill = Endpoint.toText := by
    funext e
    simp [HostTemplate.fill]
  have haddress : (⟨some "http", n.toLower, "/", none⟩ : HostTemplate).fill =
      fun e => webAddress e.toText := by
    funext e
    have hscheme : "http" ++ "://" = "http://" := rfl
    simp [HostTemplate.fill, webAddress, hscheme]
  refine ⟨?_, fun hn => ?_, Session.exists_misses h, fun s draw => ?_⟩
  · rw [← hname]
    exact Session.fills_of_discoverable h.discoverable_name rfl
  · rw [← haddress]
    exact Session.fills_of_discoverable h.discoverable_webAddress hn
  · rw [Session.fst_fillHostBy (h.discoverable_webAddress _)]
    congr 1
    funext result
    cases result with
    | error f => rfl
    | ok e => rw [HostTemplate.filled, haddress]

section

open scoped Url.Latin

/-- A small name is found by its web address, a large one is missed. -/
theorem found_by_address_api :
    Session.Fills Unit "api" (webAddress "api") (fun e => webAddress e.toText) ∧
      ∃ registry, (Session.start registry (.start MemoryRegistry.address default .standard)
        .standard : Session Unit).Misses "API" (webAddress "API") := by
  have hsmall : "api".toLower = "api" := Url.toLower_eq_iff.2 (by decide)
  have hlarge : "API".toLower = "api" := Url.toLower_eq_iff.2 (by decide)
  have hne : "API".toLower ≠ "API" := by
    rw [hlarge]
    decide
  have hapi : IsServiceName "api" :=
    ⟨⟨by simp, ⟨'a', ['p', 'i'], rfl, rfl⟩, by decide⟩, by rw [hsmall]; decide⟩
  have hAPI : IsServiceName "API" :=
    ⟨⟨by simp, ⟨'A', ['P', 'I'], rfl, rfl⟩, by decide⟩, by rw [hlarge]; decide⟩
  exact ⟨(found_by_address hapi).2.1 hsmall, (found_by_address hAPI).2.2.1 hne default .standard⟩

end

end ServiceDiscovery
