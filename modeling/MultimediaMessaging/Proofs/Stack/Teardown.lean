import MultimediaMessaging.Proofs.PoolCounts
import MultimediaMessaging.Proofs.Stack.Registrations

/-!
The removal of a suite. Main statement: whatever was registered before, and whatever the pool holds,
exactly the registrations of the suite go, with the messages for their applications, and nobody else
is told.
-/

set_option autoImplicit false

namespace MultimediaMessaging

theorem Pool.Purged.congr {p q : Pool} {apps apps' : List String} (h : p.Purged apps q)
    (hsame : ∀ app, app ∈ apps ↔ app ∈ apps') : p.Purged apps' q where
  consistent := h.consistent
  backlog := by simpa only [hsame] using h.backlog
  stats := by simpa only [hsame] using h.stats

namespace Stack

variable {τ : Type} {s : Stack τ} {suite : Suite}

def bereft (s : Stack τ) (suite : Suite) : List String := (s.removed suite).map (·.app)

structure TornDown (s : Stack τ) (suite : Suite) (s' : Stack τ) : Prop where
  kept {cls : ListenerClass} {app : String} {e : Registration Listener} :
    (s'.listeners.registry cls).get? app = some e ↔
      (s.listeners.registry cls).get? app = some e ∧ e.suite ≠ suite
  removed : ∃ midlets pushes, s.removed suite = midlets ++ pushes ∧
    (∀ e, e ∈ midlets ↔ s.listeners.Holds .midlet e ∧ e.suite = suite) ∧
    ∀ e, e ∈ pushes ↔ s.listeners.Holds .push e ∧ e.suite = suite
  once : (s.removed suite).Nodup
  pool : s.pool.Purged (s.bereft suite) s'.pool
  interest : ∃ events, s'.interest = s.interest ++ events ∧ events.Nodup ∧
    ∀ event, event ∈ events ↔
      ∃ app ∈ s.bereft suite, event = .removed app ∧ ¬ s'.listeners.Listens app
  told : Audience.Dismisses ((s.removed suite).map (·.listener)) s.audience s'.audience

theorem mem_unheard_iff {ls : Listeners Listener} {pool : Pool} {app : String} :
    app ∈ ls.unheard suite pool ↔ app ∈ (ls.removeSuite suite pool).removed.map (·.app) ∧
      ¬ (ls.removeSuite suite pool).listeners.Listens app := by
  rw [Listeners.unheard, List.mem_filter, Listeners.mem_sortedApps, List.mem_map,
    Listeners.listens_iff .midlet]
  simp [ListenerClass.other]

theorem nodup_events_removeSuite (ls : Listeners Listener) (suite : Suite) (pool : Pool) :
    (ls.removeSuite suite pool).events.Nodup := by
  have hunheard : (ls.unheard suite pool).Nodup := (Listeners.nodup_sortedApps _).filter _
  exact hunheard.map fun _ _ heq => InterestEvent.removed.inj heq

theorem mem_events_removeSuite {ls : Listeners Listener} {pool : Pool} {event : InterestEvent} :
    event ∈ (ls.removeSuite suite pool).events ↔
      ∃ app ∈ (ls.removeSuite suite pool).removed.map (·.app), event = .removed app ∧
        ¬ (ls.removeSuite suite pool).listeners.Listens app := by
  have hevents : (ls.removeSuite suite pool).events = (ls.unheard suite pool).map .removed := rfl
  rw [hevents, List.mem_map]
  constructor
  · rintro ⟨app, hunheard, rfl⟩
    obtain ⟨hlost, hsilent⟩ := mem_unheard_iff.1 hunheard
    exact ⟨app, hlost, rfl, hsilent⟩
  · rintro ⟨app, hlost, rfl, hsilent⟩
    exact ⟨app, mem_unheard_iff.2 ⟨hlost, hsilent⟩, rfl⟩

variable [DecidableEq τ]

theorem pool_removeSuite (s : Stack τ) (suite : Suite) :
    (s.removeSuite suite).2.pool =
      s.pool.removeApps (Listeners.sortedApps (s.removed suite)) := by
  simp only [removeSuite, foldl_dismiss]
  rfl

/-- Removing a suite removes exactly its registrations, each once, and exactly the messages for the
applications that lost one. -/
theorem tornDown_removeSuite {operations : List (Listeners.Operation Listener)} {capacity : Nat}
    {calls : List Pool.Call} (hlisteners : s.listeners = (Listeners.run operations).1)
    (hpool : s.pool = (Pool.new capacity).run calls) (suite : Suite) :
    s.TornDown suite (s.removeSuite suite).2 ∧
      (s.removeSuite suite).1 = (s.removed suite).length := by
  obtain ⟨entered, gone, hledger⟩ := Listeners.exists_ledger operations
  rw [← hlisteners] at hledger
  have hconsistent : s.pool.Consistent := hpool ▸ (Pool.consistent_new capacity).run calls
  have henrols := s.enrols (.removeSuite suite)
  have hleft : (s.removeSuite suite).2.listeners =
      (s.listeners.removeSuite suite s.pool).listeners := henrols.listeners
  have hentries (cls : ListenerClass) (e : Registration Listener) :
      e ∈ Listeners.ofSuite (s.listeners.registry cls) suite ↔
        s.listeners.Holds cls e ∧ e.suite = suite := Listeners.mem_ofSuite_iff hledger.filed
  refine ⟨⟨fun {cls app e} => ?_, ⟨_, _, rfl, hentries .midlet, hentries .push⟩, ?_, ?_, ?_,
    henrols.audience⟩, rfl⟩
  · rw [hleft, Listeners.registry_removeSuite s.listeners suite s.pool]
    exact Listeners.get?_dropSuite_iff hledger.filed
  · exact hledger.nodup_removedBy (.removeSuite suite s.pool)
  · rw [pool_removeSuite]
    refine (hconsistent.removeApps _).congr fun app => ?_
    rw [Listeners.mem_sortedApps, bereft, List.mem_map]
  · refine ⟨_, henrols.interest, nodup_events_removeSuite s.listeners suite s.pool,
      fun event => ?_⟩
    rw [hleft]
    exact mem_events_removeSuite

/-- Two suites that share an application, while the first has another one to itself. A thread waits
for each of the suites. -/
def sharing : List (Listeners.Operation Listener) :=
  [.register .midlet "chat" ⟨1⟩ (.observer ⟨"a", true⟩) none,
   .register .midlet "mail" ⟨1⟩ (.waiter ⟨0⟩) none,
   .register .push "chat" ⟨2⟩ (.observer ⟨"c", true⟩) none,
   .register .push "mail" ⟨1⟩ (.observer ⟨"d", true⟩) none,
   .register .push "news" ⟨2⟩ (.waiter ⟨1⟩) none]

def post : List Pool.Call := ["news", "chat", "mail"].map (.add ⟨"+4670", ·, "", 0, []⟩)

def household : Stack Nat :=
  { drowsy with router := {
      listeners := (Listeners.run sharing).1
      pool := (Pool.new 10).run post } }

theorem tornDown_household :
    household.TornDown ⟨1⟩ (household.removeSuite ⟨1⟩).2 ∧
      (household.removeSuite ⟨1⟩).1 = 3 ∧
      (household.removed ⟨1⟩).map (·.token) = [1, 2, 4] ∧
      ((household.removeSuite ⟨1⟩).2.listeners.registry .push).get? "chat" =
        some ⟨"chat", ⟨2⟩, .observer ⟨"c", true⟩, none, 3⟩ ∧
      (household.removeSuite ⟨1⟩).2.pool.backlog.messages.map (·.app) = ["news"] ∧
      (household.removeSuite ⟨1⟩).2.audience.calls = [.unregistered "a", .unregistered "d"] ∧
      ((household.removeSuite ⟨1⟩).2.audience.room ⟨0⟩).queue.interrupted = true ∧
      ((household.removeSuite ⟨1⟩).2.audience.room ⟨0⟩).roused = [(7, false)] ∧
      ((household.removeSuite ⟨1⟩).2.audience.room ⟨1⟩).parked = [8] := by
  have hlisteners : household.listeners = (Listeners.run sharing).1 := rfl
  have hpool : household.pool = (Pool.new 10).run post := rfl
  obtain ⟨h, hcount⟩ := tornDown_removeSuite hlisteners hpool ⟨1⟩
  have hbereft : household.bereft ⟨1⟩ = ["chat", "mail", "mail"] := by rfl
  have hgone : (household.removed ⟨1⟩).map (·.listener) =
      [.observer ⟨"a", true⟩, .waiter ⟨0⟩, .observer ⟨"d", true⟩] := by rfl
  have htold := h.told
  rw [hgone] at htold
  have hended := htold.ended ⟨0⟩ (by decide)
  refine ⟨h, hcount.trans rfl, rfl, h.kept.2 ⟨rfl, by decide⟩, ?_, htold.calls,
    by rw [hended.queue], hended.roused, by rw [htold.others ⟨1⟩ (by decide)]; rfl⟩
  rw [h.pool.backlog, hbereft]
  decide +kernel

end Stack

end MultimediaMessaging
