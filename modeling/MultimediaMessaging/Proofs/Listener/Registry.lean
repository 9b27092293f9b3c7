import MultimediaMessaging.Listener.Registry
import MultimediaMessaging.Proofs.Table

/-!
What registering, unregistering and the removal of a suite do to the registries.
-/

set_option autoImplicit false

namespace MultimediaMessaging.Listeners

variable {L : Type}

inductive Registers (ls : Listeners L) (cls : ListenerClass) (app : String) (suite : Suite)
    (listener : L) (filter : Option SenderFilter) :
    Except RegistryError Nat × Listeners L × List InterestEvent → Prop where
  | refused (e : RegistryError) :
      Registers ls cls app suite listener filter
        (.error e, { ls with nextToken := ls.nextToken + 1 }, [])
  | entered {events : List InterestEvent} (hfree : (ls.registry cls).get? app = none)
      (hevents : events = if ls.isRegisteredFor app suite cls.other then [] else [.added app]) :
      Registers ls cls app suite listener filter
        (.ok ls.nextToken,
          ({ ls with nextToken := ls.nextToken + 1 } : Listeners L).setRegistry cls
            ((ls.registry cls).put app ⟨app, suite, listener, filter, ls.nextToken⟩),
          events)

theorem registers (ls : Listeners L) (cls : ListenerClass) (app : String) (suite : Suite)
    (listener : L) (filter : Option SenderFilter) :
    Registers ls cls app suite listener filter (ls.register cls app suite listener filter) := by
  unfold register
  split
  · exact .refused _
  · split
    · exact .refused _
    · rename_i hregistered
      exact .entered (by simpa [isRegistered, Table.contains] using hregistered) rfl

inductive Unregisters (ls : Listeners L) (app : String) (cls : ListenerClass) :
    Except RegistryError (Registration L) × Listeners L × List InterestEvent → Prop where
  | refused (e : RegistryError) : Unregisters ls app cls (.error e, ls, [])
  | removed {entry : Registration L} {events : List InterestEvent}
      (hget : (ls.registry cls).get? app = some entry)
      (hevents : events = if ls.isRegistered app cls.other then [] else [.removed app]) :
      Unregisters ls app cls (.ok entry, ls.setRegistry cls ((ls.registry cls).erase app), events)

theorem unregisters (ls : Listeners L) (app : String) (cls : ListenerClass) (owner : Option Nat) :
    Unregisters ls app cls (ls.unregister app cls owner) := by
  unfold unregister
  split
  · exact .refused _
  · rename_i hentry
    exact .removed (Option.filter_eq_some_iff.1 hentry).1 rfl

theorem get?_setRegistry_erase {ls : Listeners L} {cls : ListenerClass} {app other : String}
    {entry e : Registration L} (hremoved : (ls.registry cls).get? app = some entry)
    (hget : ls.midlet.get? other = some e) :
    (ls.setRegistry cls ((ls.registry cls).erase app)).midlet.get? other = some e ∨ e = entry := by
  cases cls with
  | push => exact .inl hget
  | midlet =>
    by_cases hsame : app = other
    · subst hsame
      exact .inr (Option.some.inj (hget.symm.trans hremoved))
    · exact .inl ((Table.get?_erase_ne _ hsame).trans hget)

theorem mem_setRegistry_erase {ls : Listeners L} {cls : ListenerClass} {app : String}
    (other : ListenerClass) {entry : String × Registration L}
    (h : entry ∈ (ls.setRegistry cls ((ls.registry cls).erase app)).registry other) :
    entry ∈ ls.registry other := by
  cases cls <;> cases other <;> first | exact h | exact (List.mem_filter.1 h).1

theorem mem_of_mem_dropSuite {r : Registry L} {suite : Suite} {entry : String × Registration L}
    (h : entry ∈ dropSuite r suite) : entry ∈ r :=
  (List.mem_filter.1 h).1

theorem get?_dropSuite {r : Registry L} {app : String} {entry : Registration L} (suite : Suite)
    (h : r.get? app = some entry) :
    (dropSuite r suite).get? app = some entry ∨ entry ∈ ofSuite r suite := by
  by_cases hsuite : entry.suite = suite
  · refine .inr (List.mem_filter.2 ⟨?_, decide_eq_true hsuite⟩)
    exact List.mem_map.2 ⟨(app, entry), Table.mem_of_get? h, rfl⟩
  · exact .inl (Table.get?_filter h (decide_eq_true hsuite))

end MultimediaMessaging.Listeners
