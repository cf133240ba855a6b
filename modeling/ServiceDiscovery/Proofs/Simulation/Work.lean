import Mathlib.Data.Finset.Image
import Mathlib.Logic.Hydra
import ServiceDiscovery.Proofs.Simulation.Sound

/-!
# The work that is left

What tasks and shutdowns have still to do before all of them wait, as long as nobody from outside
does anything and the clock stands still. A move leaves less work to whoever makes it. It leaves the
work of all others as it is, and what a lookup hands over to the watcher that it starts is less than
what it had itself.
-/

namespace ServiceDiscovery

/-- What is still to be done. Parts that come first count more than all that come later. -/
structure Work (ρ : Type) where
  /-- Four for a lookup, three for a watcher that can be answered at once, two for another one. -/
  phase : Nat
  /-- How many queries may still fail. -/
  tries : Nat
  /-- How many stages are left before the next query is out. -/
  stage : Nat
  delivery : Delivery false ρ

namespace Work

variable {ρ : Type}

/-- Nothing to be done. -/
def nothing : Work ρ := ⟨0, 0, 0, []⟩

/-- Less is to be done in the first part in which two differ. -/
inductive Less (a b : Work ρ) : Prop
  | phase (h : a.phase < b.phase)
  | tries (hp : a.phase = b.phase) (h : a.tries < b.tries)
  | stage (hp : a.phase = b.phase) (ht : a.tries = b.tries) (h : a.stage < b.stage)
  | delivery (hp : a.phase = b.phase) (ht : a.tries = b.tries) (hs : a.stage = b.stage)
      (h : Delivery.Follows a.delivery b.delivery)

end Work

/-- Whoever can make a move: a task or a shutdown. -/
inductive Mover
  | task (t : Task)
  | shutdown (k : Nat)
  deriving DecidableEq

/-- The turn of someone who makes a move. -/
def Mover.turn {ρ : Type} : Mover → Turn ρ
  | .task t => .task t
  | .shutdown k => .outside (.shutdown k) rfl

namespace Service

variable {ρ : Type}

/-- All tasks and shutdowns of a service. -/
def movers (s : Service ρ) : Finset Mover :=
  (Finset.range s.lookups.length).image (.task ∘ .lookup) ∪
    (Finset.range s.watchers.length).image (.task ∘ .watcher) ∪
    (Finset.range s.shutdowns.length).image .shutdown

variable {s s' : Service ρ}

private theorem lt_length_iff {α : Type} {l : List α} {i : Nat} :
    i < l.length ↔ ∃ a, l[i]? = some a := by
  rw [← Option.isSome_iff_exists]
  simp

/-- Watchers are movers. -/
theorem mem_movers_watcher {j : Nat} :
    .task (.watcher j) ∈ s.movers ↔ ∃ x, s.watchers[j]? = some x := by
  simp [movers, ← lt_length_iff]

/-- Without a call from outside nobody joins the movers but the watcher that a lookup starts. -/
theorem movers_of_transition {a : Action ρ} {events : List (Event ρ)}
    (h : Transition s a s' events) (hr : ∀ name, a ≠ .resolve name) (hc : a ≠ .callShutdown) :
    s'.movers = s.movers ∨ ∃ i key set index, a = .lookup i ∧
      s.lookups[i]? = some (.spawning key set index) ∧
      s'.movers = insert (.task (.watcher s.watchers.length)) s.movers := by
  cases h with
  | called name => exact absurd rfl (hr name)
  | shutdownCalled => exact absurd rfl hc
  | @spawned i key set index hl _ =>
    refine Or.inr ⟨i, key, set, index, rfl, hl, ?_⟩
    ext m
    simp only [movers, setLookup, spawn, List.length_set, List.length_append, List.length_singleton,
      Finset.range_add_one, Finset.image_insert, Finset.mem_union, Finset.mem_insert,
      Function.comp_apply]
    tauto
  | _ => exact Or.inl (by simp [movers, setLookup, setWatcher, setShutdown])

end Service

/-- Whether a query is held whose wait is over. -/
def Pending.isOverdue (now : Nat) : Pending → Bool
  | .blocked _ _ deadline => deadline ≤ now
  | .given _ _ | .held | .broken => false

/-- What a shutdown has still to do. -/
def Shutdown.work {ρ : Type} : Shutdown → Work ρ
  | .cancelling => ⟨3, 0, 0, []⟩
  | .taking => ⟨2, 0, 0, []⟩
  | .joining _ => ⟨1, 0, 0, []⟩
  | .returned => .nothing

namespace World

variable {ρ : Type}

/-- What a lookup has still to do. -/
def lookupWork (w : World MemoryRegistry ρ) (i : Nat) : Lookup ρ → Work ρ
  | .arriving _ => ⟨4, 0, 6, []⟩
  | .reading _ => ⟨4, 0, 5, []⟩
  | .asking _ => ⟨4, 0, if (w.lookupQueries.get? i).isNone then 4 else 3, []⟩
  | .seeding _ _ _ => ⟨4, 0, 2, []⟩
  | .notifying _ _ _ _ d => ⟨4, 0, 1, d⟩
  | .spawning _ _ _ => ⟨4, 0, 0, []⟩
  | .finished _ => .nothing

/-- Whether the index of the registry is past a watcher's. -/
def phase (w : World MemoryRegistry ρ) (cursor : Cursor) : Nat :=
  if cursor.waitIndex < w.registry.index then 3 else 2

/-- How many queries may fail before a watcher gives up. -/
def tries (w : World MemoryRegistry ρ) (cursor : Cursor) : Nat :=
  w.service.watch.retryCeiling.toNat - cursor.failures

/-- What a watcher has still to do. -/
def watcherWork (w : World MemoryRegistry ρ) (j : Nat) (x : Watcher ρ) : Work ρ :=
  match x.stage with
  | .storing cursor _ => ⟨w.phase cursor, w.tries cursor, 5, []⟩
  | .notifying cursor d => ⟨w.phase cursor, w.tries cursor, 4, d⟩
  | .pausing cursor =>
    ⟨w.phase cursor, w.tries cursor, if (w.pauses.get? j).isNone then 3 else 2, []⟩
  | .asking cursor =>
    match w.watchQueries.get? j with
    | none => ⟨w.phase cursor, w.tries cursor, 1, []⟩
    -- an overdue query brings a set even if the index has not moved
    | some p => ⟨if p.isOverdue w.now then 3 else w.phase cursor, w.tries cursor, 0, []⟩
  | .leaving _ => ⟨1, 0, 0, []⟩
  | .ended _ | .crashed => .nothing

/-- What somebody has still to do. -/
def work (w : World MemoryRegistry ρ) : Mover → Work ρ
  | .task (.lookup i) => w.service.lookups[i]?.elim .nothing (w.lookupWork i)
  | .task (.watcher j) => w.service.watchers[j]?.elim .nothing (w.watcherWork j)
  | .shutdown k => w.service.shutdowns[k]?.elim .nothing Shutdown.work

variable {w w' : World MemoryRegistry ρ}

/-- A lookup's work is that of its stage. -/
theorem work_lookup {i : Nat} {l : Lookup ρ} (hl : w.service.lookups[i]? = some l) :
    w.work (.task (.lookup i)) = w.lookupWork i l := by
  simp only [work, hl, Option.elim_some]

/-- A watcher's work is that of its stage. -/
theorem work_watcher {j : Nat} {x : Watcher ρ} (hw : w.service.watchers[j]? = some x) :
    w.work (.task (.watcher j)) = w.watcherWork j x := by
  simp only [work, hw, Option.elim_some]

/-- A watcher has less to do than any lookup. -/
theorem phase_watcherWork_lt (j : Nat) (x : Watcher ρ) : (w.watcherWork j x).phase < 4 := by
  have hphase (cursor : Cursor) : w.phase cursor < 4 := by
    rw [phase]
    split <;> decide
  obtain ⟨key, stage⟩ := x
  cases stage with
  | storing cursor _ | notifying cursor _ | pausing cursor => exact hphase cursor
  | asking cursor =>
    simp only [watcherWork]
    split
    · exact hphase cursor
    · next p _ =>
      show (if p.isOverdue w.now then 3 else w.phase cursor) < 4
      split
      · decide
      · exact hphase cursor
  | leaving _ =>
    show 1 < 4
    decide
  | ended _ | crashed =>
    show 0 < 4
    decide

/-! ### Everybody else -/

end World

end ServiceDiscovery
