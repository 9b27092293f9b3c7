import Mathlib.Data.List.Induction
import MultimediaMessaging.Proofs.Listener.Registry

/-!
What the platform is told of the registries. Main statement: whatever is registered and removed, the
last that was said of an application is that it listens exactly while one of the registries has an
entry for it.
-/

set_option autoImplicit false

namespace MultimediaMessaging

namespace InterestEvent

def app : InterestEvent → String
  | added app | removed app => app

@[simp] theorem app_added (name : String) : (added name).app = name := rfl

@[simp] theorem app_removed (name : String) : (removed name).app = name := rfl

/-- What the platform was told of one application, oldest first. -/
def about (name : String) (events : List InterestEvent) : List InterestEvent :=
  events.filter (·.app = name)

@[simp] theorem about_nil (name : String) : about name [] = [] := rfl

@[simp] theorem about_append (name : String) (events more : List InterestEvent) :
    about name (events ++ more) = about name events ++ about name more :=
  List.filter_append _ _

@[simp] theorem about_cons (name : String) (event : InterestEvent) (events : List InterestEvent) :
    about name (event :: events) =
      if event.app = name then event :: about name events else about name events := by
  simp [about, List.filter_cons]

@[simp] theorem about_about (name : String) (events : List InterestEvent) :
    about name (about name events) = about name events := by
  simp [about]

/-- A removal is only ever reported of `name` when the last report of it was an addition. -/
def Alternates (name : String) (events : List InterestEvent) : Prop :=
  ∀ before after, events = before ++ removed name :: after →
    (about name before).getLast? = some (added name)

theorem alternates_nil (name : String) : Alternates name [] :=
  fun _ _ heq => by simp at heq

theorem Alternates.concat {name : String} {events : List InterestEvent} {event : InterestEvent}
    (h : Alternates name events)
    (hlast : event = removed name → (about name events).getLast? = some (added name)) :
    Alternates name (events ++ [event]) := by
  intro before after heq
  rcases List.eq_nil_or_concat after with rfl | ⟨after, last, rfl⟩
  · obtain ⟨rfl, hevent⟩ := List.append_inj' heq rfl
    exact hlast (by simpa using hevent)
  · have hsplit : events ++ [event] = (before ++ removed name :: after) ++ [last] := by
      simpa using heq
    exact h before after (List.append_inj' hsplit rfl).1

theorem Alternates.of_about {name : String} {events : List InterestEvent}
    (h : Alternates name (about name events)) : Alternates name events := by
  rintro before after rfl
  rw [← about_about]
  exact h (about name before) (about name after) (by simp)

end InterestEvent

namespace Listeners

open InterestEvent (about)

variable {L : Type} {ls : Listeners L} {app name : String} {cls : ListenerClass}
  {entry : Registration L} {before accepted : Prop} {events : List InterestEvent}

inductive Operation (L : Type) where
  | register (cls : ListenerClass) (app : String) (suite : Suite) (listener : L)
      (filter : Option SenderFilter)
  | unregister (app : String) (cls : ListenerClass) (owner : Option Nat)
  | removeSuite (suite : Suite) (pool : Pool)

def apply (ls : Listeners L) : Operation L → Listeners L × List InterestEvent
  | .register cls app suite listener filter => (ls.register cls app suite listener filter).2
  | .unregister app cls owner => (ls.unregister app cls owner).2
  | .removeSuite suite pool =>
    ((ls.removeSuite suite pool).listeners, (ls.removeSuite suite pool).events)

def Accepts (ls : Listeners L) (app : String) : Operation L → Prop
  | .register cls name suite listener filter =>
    name = app ∧ ∃ token, (ls.register cls name suite listener filter).1 = .ok token
  | _ => False

def Listens (ls : Listeners L) (app : String) : Prop := ∃ cls, ls.isRegistered app cls = true

structure Filed (ls : Listeners L) : Prop where
  nodup (cls : ListenerClass) : (ls.registry cls).keys.Nodup
  app {cls : ListenerClass} {app : String} {entry : Registration L} :
    (app, entry) ∈ ls.registry cls → entry.app = app

theorem isRegistered_iff : ls.isRegistered app cls = true ↔
    ∃ entry, (ls.registry cls).get? app = some entry :=
  Option.isSome_iff_exists

theorem eq_or_eq_other (cls other : ListenerClass) : other = cls ∨ other = cls.other := by
  cases cls <;> cases other <;> simp [ListenerClass.other]

theorem listens_iff (cls : ListenerClass) : ls.Listens app ↔
    ls.isRegistered app cls = true ∨ ls.isRegistered app cls.other = true := by
  refine ⟨fun ⟨other, hregistered⟩ => ?_, fun h => h.elim (⟨_, ·⟩) (⟨_, ·⟩)⟩
  rcases eq_or_eq_other cls other with rfl | rfl
  · exact .inl hregistered
  · exact .inr hregistered

theorem filed_empty : Filed ({} : Listeners L) where
  nodup cls := by cases cls <;> exact List.nodup_nil
  app {cls _ _} hmem := by cases cls <;> cases hmem

theorem Filed.setRegistry (h : Filed ls) {r : Registry L} (hnodup : r.keys.Nodup)
    (happ : ∀ app entry, (app, entry) ∈ r → entry.app = app) : Filed (ls.setRegistry cls r) where
  nodup other := by
    rcases eq_or_eq_other cls other with rfl | rfl
    · rwa [registry_setRegistry_self]
    · rw [registry_setRegistry_other]
      exact h.nodup _
  app {other _ _} hmem := by
    rcases eq_or_eq_other cls other with rfl | rfl
    · exact happ _ _ (registry_setRegistry_self ls other r ▸ hmem)
    · exact h.app (registry_setRegistry_other ls cls r ▸ hmem)

theorem Filed.register (h : Filed ls) (cls : ListenerClass) (app : String) (suite : Suite)
    (listener : L) (filter : Option SenderFilter) :
    Filed (ls.register cls app suite listener filter).2.1 := by
  have hcounted : Filed { ls with nextToken := ls.nextToken + 1 } := by
    refine ⟨fun cls => ?_, fun {cls _ _} hmem => ?_⟩ <;> cases cls
    · exact h.nodup .midlet
    · exact h.nodup .push
    · exact h.app (show _ ∈ ls.registry .midlet from hmem)
    · exact h.app (show _ ∈ ls.registry .push from hmem)
  have hregisters := registers ls cls app suite listener filter
  generalize ls.register cls app suite listener filter = result at hregisters
  cases hregisters with
  | refused e => exact hcounted
  | entered hfree =>
    refine hcounted.setRegistry (Table.nodup_keys_put (h.nodup cls) _ _) fun name entry hmem => ?_
    rcases Table.mem_put hmem with hnew | hold
    · cases hnew
      rfl
    · exact h.app hold

theorem Filed.unregister (h : Filed ls) (app : String) (cls : ListenerClass)
    (owner : Option Nat) : Filed (ls.unregister app cls owner).2.1 := by
  have hunregisters := unregisters ls app cls owner
  generalize ls.unregister app cls owner = result at hunregisters
  cases hunregisters with
  | refused e => exact h
  | removed hget =>
    exact h.setRegistry (Table.nodup_keys_erase (h.nodup cls) _)
      fun name entry hmem => h.app (List.mem_filter.1 hmem).1

theorem registry_removeSuite (ls : Listeners L) (suite : Suite) (pool : Pool)
    (cls : ListenerClass) : (ls.removeSuite suite pool).listeners.registry cls =
      dropSuite (ls.registry cls) suite := by
  cases cls <;> rfl

theorem Filed.removeSuite (h : Filed ls) (suite : Suite) (pool : Pool) :
    Filed (ls.removeSuite suite pool).listeners where
  nodup cls := by
    rw [registry_removeSuite]
    exact (h.nodup cls).sublist (List.filter_sublist.map Prod.fst)
  app {cls _ _} hmem := by
    rw [registry_removeSuite] at hmem
    exact h.app (mem_of_mem_dropSuite hmem)

theorem Filed.apply (h : Filed ls) (operation : Operation L) : Filed (ls.apply operation).1 := by
  cases operation with
  | register cls app suite listener filter => exact h.register cls app suite listener filter
  | unregister app cls owner => exact h.unregister app cls owner
  | removeSuite suite pool => exact h.removeSuite suite pool

inductive Affects (ls : Listeners L) (app : String) (accepted : Prop) :
    Listeners L × List InterestEvent → Prop where
  | spared {ls' : Listeners L} {events : List InterestEvent} (hnew : ¬ accepted)
      (hsame : ls'.Listens app ↔ ls.Listens app) (hsilent : about app events = []) :
      Affects ls app accepted (ls', events)
  | joined {ls' : Listeners L} {events : List InterestEvent} (hnew : accepted)
      (hlistens : ls.Listens app) (hstill : ls'.Listens app) (hsilent : about app events = []) :
      Affects ls app accepted (ls', events)
  | announced {ls' : Listeners L} {events : List InterestEvent} (hnew : accepted)
      (hlistens : ls'.Listens app) (hreport : about app events = [.added app]) :
      Affects ls app accepted (ls', events)
  | withdrawn {ls' : Listeners L} {events : List InterestEvent} (hnew : ¬ accepted)
      (hlistened : ls.Listens app) (hgone : ¬ ls'.Listens app)
      (hreport : about app events = [.removed app]) : Affects ls app accepted (ls', events)

theorem listens_congr {ls' : Listeners L}
    (h : ∀ cls, (ls'.registry cls).get? app = (ls.registry cls).get? app) :
    ls'.Listens app ↔ ls.Listens app := by
  simp only [Listens, isRegistered, Table.contains, h]

theorem listens_setRegistry {r : Registry L} (h : r.get? app = (ls.registry cls).get? app) :
    (ls.setRegistry cls r).Listens app ↔ ls.Listens app := by
  refine listens_congr fun other => ?_
  rcases eq_or_eq_other cls other with rfl | rfl
  · rw [registry_setRegistry_self, h]
  · rw [registry_setRegistry_other]

theorem listens_put (ls : Listeners L) (cls : ListenerClass) (r : Registry L) (app : String)
    (entry : Registration L) : (ls.setRegistry cls (r.put app entry)).Listens app :=
  ⟨cls, isRegistered_iff.2 ⟨entry, by rw [registry_setRegistry_self, Table.get?_put_self]⟩⟩

theorem listens_erase (ls : Listeners L) (cls : ListenerClass) (app : String) :
    (ls.setRegistry cls ((ls.registry cls).erase app)).Listens app ↔
      ls.isRegistered app cls.other = true := by
  rw [listens_iff cls]
  simp [isRegistered, Table.contains]

theorem listens_of_isRegisteredFor {suite : Suite}
    (h : ls.isRegisteredFor app suite cls = true) : ls.Listens app := by
  refine ⟨cls, isRegistered_iff.2 ?_⟩
  obtain ⟨entry, hget, -⟩ := (Option.any_eq_true _ _).1 h
  exact ⟨entry, hget⟩

theorem affects_register (ls : Listeners L) (cls : ListenerClass) (name : String) (suite : Suite)
    (listener : L) (filter : Option SenderFilter) (app : String) :
    Affects ls app (ls.Accepts app (.register cls name suite listener filter))
      (ls.apply (.register cls name suite listener filter)) := by
  have hcounted : Listens { ls with nextToken := ls.nextToken + 1 } app ↔ ls.Listens app :=
    listens_congr fun cls => by cases cls <;> rfl
  have hregisters := registers ls cls name suite listener filter
  simp only [apply, Accepts]
  generalize ls.register cls name suite listener filter = result at hregisters
  cases hregisters with
  | refused e => exact .spared (by simp) hcounted rfl
  | entered hfree hevents =>
    by_cases happ : name = app
    · subst happ
      have hlistens := listens_put { ls with nextToken := ls.nextToken + 1 } cls (ls.registry cls)
        name ⟨name, suite, listener, filter, ls.nextToken⟩
      by_cases hshared : ls.isRegisteredFor name suite cls.other = true
      · exact .joined ⟨rfl, _, rfl⟩ (listens_of_isRegisteredFor hshared) hlistens
          (by simp [hevents, hshared])
      · exact .announced ⟨rfl, _, rfl⟩ hlistens (by simp [hevents, hshared])
    · refine .spared (fun haccepted => happ haccepted.1) ?_ (by rw [hevents]; split <;> simp [happ])
      refine (listens_setRegistry ?_).trans hcounted
      rw [Table.get?_put_ne _ _ happ]
      cases cls <;> rfl

theorem affects_unregister (ls : Listeners L) (name : String) (cls : ListenerClass)
    (owner : Option Nat) (app : String) :
    Affects ls app (ls.Accepts app (.unregister name cls owner))
      (ls.apply (.unregister name cls owner)) := by
  have hunregisters := unregisters ls name cls owner
  simp only [apply, Accepts]
  generalize ls.unregister name cls owner = result at hunregisters
  cases hunregisters with
  | refused e => exact .spared id .rfl rfl
  | @removed entry events hget hevents =>
    by_cases happ : name = app
    · subst happ
      have hlistened : ls.Listens name := ⟨cls, isRegistered_iff.2 ⟨entry, hget⟩⟩
      have hleft := listens_erase ls cls name
      by_cases hother : ls.isRegistered name cls.other = true
      · exact .spared id (iff_of_true (hleft.2 hother) hlistened) (by simp [hevents, hother])
      · exact .withdrawn id hlistened (mt hleft.1 hother) (by simp [hevents, hother])
    · exact .spared id (listens_setRegistry (Table.get?_erase_ne _ happ))
        (by rw [hevents]; split <;> simp [happ])

theorem mem_sortedApps {entries : List (Registration L)} :
    app ∈ sortedApps entries ↔ ∃ entry ∈ entries, entry.app = app := by
  simp [sortedApps]

theorem nodup_eraseDups (apps : List String) : apps.eraseDups.Nodup := by
  induction hlength : apps.length using Nat.strongRecOn generalizing apps with
  | ind n ih =>
    cases apps with
    | nil => exact List.nodup_nil
    | cons app apps =>
      rw [List.eraseDups_cons]
      refine List.nodup_cons.2 ⟨by simp, ih _ ?_ _ rfl⟩
      have hshorter := List.length_filter_le (fun name => !name == app) apps
      rw [← hlength, List.length_cons]
      omega

theorem nodup_sortedApps (entries : List (Registration L)) : (sortedApps entries).Nodup :=
  (List.mergeSort_perm _ _).nodup_iff.2 (nodup_eraseDups _)

theorem about_map_removed {apps : List String} (h : apps.Nodup) (app : String) :
    about app (apps.map .removed) = if app ∈ apps then [.removed app] else [] := by
  induction apps with
  | nil => rfl
  | cons first apps ih =>
    obtain ⟨hfirst, hrest⟩ := List.nodup_cons.1 h
    rw [List.map_cons, InterestEvent.about_cons, ih hrest]
    by_cases hsame : first = app
    · subst hsame
      simp [hfirst]
    · simp [hsame, Ne.symm hsame]

/-- The applications that lost an entry with their suite and have none left. -/
def unheard (ls : Listeners L) (suite : Suite) (pool : Pool) : List String :=
  (sortedApps (ls.removeSuite suite pool).removed).filter fun app =>
    !(ls.removeSuite suite pool).listeners.isRegistered app .midlet &&
      !(ls.removeSuite suite pool).listeners.isRegistered app .push

theorem about_removeSuite (ls : Listeners L) (suite : Suite) (pool : Pool) (app : String) :
    about app (ls.removeSuite suite pool).events =
      if app ∈ ls.unheard suite pool then [.removed app] else [] :=
  about_map_removed ((nodup_sortedApps _).filter _) app

theorem mem_unheard {suite : Suite} {pool : Pool} : app ∈ ls.unheard suite pool ↔
    (∃ cls, ∃ entry ∈ ofSuite (ls.registry cls) suite, entry.app = app) ∧
      ¬ (ls.removeSuite suite pool).listeners.Listens app := by
  have hremoved : (∃ entry ∈ (ls.removeSuite suite pool).removed, entry.app = app) ↔
      ∃ cls, ∃ entry ∈ ofSuite (ls.registry cls) suite, entry.app = app := by
    constructor
    · rintro ⟨entry, hmem, happ⟩
      rcases List.mem_append.1 hmem with hmem | hmem
      · exact ⟨.midlet, entry, hmem, happ⟩
      · exact ⟨.push, entry, hmem, happ⟩
    · rintro ⟨_ | _, entry, hmem, happ⟩
      · exact ⟨entry, List.mem_append_left _ hmem, happ⟩
      · exact ⟨entry, List.mem_append_right _ hmem, happ⟩
  rw [unheard, List.mem_filter, mem_sortedApps, hremoved, listens_iff .midlet]
  simp [ListenerClass.other]

theorem Filed.get?_of_mem_ofSuite (h : Filed ls) {suite : Suite}
    (hmem : entry ∈ ofSuite (ls.registry cls) suite) :
    (ls.registry cls).get? entry.app = some entry := by
  obtain ⟨⟨app, entry⟩, hentry, rfl⟩ := List.mem_map.1 (List.mem_filter.1 hmem).1
  obtain rfl : entry.app = app := h.app hentry
  exact Table.get?_of_mem (h.nodup cls) hentry

theorem Filed.listens_of_removeSuite (h : Filed ls) {suite : Suite} {pool : Pool}
    (hlistens : (ls.removeSuite suite pool).listeners.Listens app) : ls.Listens app := by
  obtain ⟨cls, hregistered⟩ := hlistens
  obtain ⟨entry, hget⟩ := isRegistered_iff.1 hregistered
  rw [registry_removeSuite] at hget
  have hmem := mem_of_mem_dropSuite (Table.mem_of_get? hget)
  exact ⟨cls, isRegistered_iff.2 ⟨entry, Table.get?_of_mem (h.nodup cls) hmem⟩⟩

/-- An application whose entries go loses one of its own. -/
theorem Filed.mem_unheard_of_listens (h : Filed ls) {suite : Suite} {pool : Pool}
    (hlistened : ls.Listens app) (hgone : ¬ (ls.removeSuite suite pool).listeners.Listens app) :
    app ∈ ls.unheard suite pool := by
  obtain ⟨cls, hregistered⟩ := hlistened
  obtain ⟨entry, hget⟩ := isRegistered_iff.1 hregistered
  refine mem_unheard.2 ⟨⟨cls, entry, ?_, h.app (Table.mem_of_get? hget)⟩, hgone⟩
  refine (get?_dropSuite suite hget).resolve_left fun hkept => hgone ⟨cls, ?_⟩
  exact isRegistered_iff.2 ⟨entry, (registry_removeSuite ls suite pool cls).symm ▸ hkept⟩

theorem affects_removeSuite (h : Filed ls) (suite : Suite) (pool : Pool) (app : String) :
    Affects ls app (ls.Accepts app (.removeSuite suite pool))
      (ls.apply (.removeSuite suite pool)) := by
  have hreport := ls.about_removeSuite suite pool app
  by_cases hlistens : (ls.removeSuite suite pool).listeners.Listens app
  · refine .spared id (iff_of_true hlistens (h.listens_of_removeSuite hlistens)) ?_
    rw [hreport, if_neg fun hmem => (mem_unheard.1 hmem).2 hlistens]
  by_cases hlistened : ls.Listens app
  · refine .withdrawn id hlistened hlistens ?_
    rw [hreport, if_pos (h.mem_unheard_of_listens hlistened hlistens)]
  · refine .spared id (iff_of_false hlistens hlistened) ?_
    rw [hreport, if_neg fun hmem => ?_]
    obtain ⟨⟨cls, entry, hentry, rfl⟩, -⟩ := mem_unheard.1 hmem
    exact hlistened ⟨cls, isRegistered_iff.2 ⟨entry, h.get?_of_mem_ofSuite hentry⟩⟩

theorem affects (h : Filed ls) (operation : Operation L) (app : String) :
    Affects ls app (ls.Accepts app operation) (ls.apply operation) := by
  cases operation with
  | register cls name suite listener filter =>
    exact ls.affects_register cls name suite listener filter app
  | unregister name cls owner => exact ls.affects_unregister name cls owner app
  | removeSuite suite pool => exact affects_removeSuite h suite pool app

def run (operations : List (Operation L)) : Listeners L × List InterestEvent :=
  operations.foldl (fun (ls, events) operation =>
    ((ls.apply operation).1, events ++ (ls.apply operation).2)) ({}, [])

theorem run_concat (operations : List (Operation L)) (operation : Operation L) :
    run (operations ++ [operation]) =
      (((run operations).1.apply operation).1,
        (run operations).2 ++ ((run operations).1.apply operation).2) := by
  simp [run]

def EverAccepted (operations : List (Operation L)) (app : String) : Prop :=
  ∃ before operation after, operations = before ++ operation :: after ∧
    (run before).1.Accepts app operation

theorem everAccepted_concat {operations : List (Operation L)} {operation : Operation L} :
    EverAccepted (operations ++ [operation]) app ↔
      EverAccepted operations app ∨ (run operations).1.Accepts app operation := by
  constructor
  · rintro ⟨before, accepted, after, heq, haccepts⟩
    rcases List.eq_nil_or_concat after with rfl | ⟨after, last, rfl⟩
    · obtain ⟨rfl, hlast⟩ := List.append_inj' heq rfl
      obtain rfl : operation = accepted := by simpa using hlast
      exact .inr haccepts
    · have hsplit : operations ++ [operation] = (before ++ accepted :: after) ++ [last] := by
        simpa using heq
      exact .inl ⟨before, accepted, after, (List.append_inj' hsplit rfl).1, haccepts⟩
  · rintro (⟨before, accepted, after, rfl, haccepts⟩ | haccepts)
    · exact ⟨before, accepted, after ++ [operation], by simp, haccepts⟩
    · exact ⟨operations, operation, [], rfl, haccepts⟩

structure Mirrors (ls : Listeners L) (app : String) (accepted : Prop)
    (events : List InterestEvent) : Prop where
  last : (about app events).getLast? = some (.added app) ↔ ls.Listens app
  silent : about app events = [] ↔ ¬ accepted
  alternates : InterestEvent.Alternates app (about app events)

theorem mirrors_empty (app : String) (h : ¬ accepted) :
    Mirrors ({} : Listeners L) app accepted [] where
  last := by
    refine ⟨fun hlast => (by cases hlast), fun ⟨cls, hregistered⟩ => ?_⟩
    cases cls <;> cases hregistered
  silent := by simp [h]
  alternates := InterestEvent.alternates_nil app

theorem Mirrors.affects {ls' : Listeners L} {more : List InterestEvent}
    (h : Mirrors ls app before events) (ha : Affects ls app accepted (ls', more)) :
    Mirrors ls' app (before ∨ accepted) (events ++ more) := by
  have hspoken : ls.Listens app → before := fun hlistens => by
    by_contra hnever
    have hlast := h.last.2 hlistens
    rw [h.silent.2 hnever] at hlast
    cases hlast
  cases ha with
  | spared hnew hsame hsilent =>
    exact ⟨by simp [hsilent, h.last, hsame], by simp [hsilent, h.silent, hnew],
      by simpa [hsilent] using h.alternates⟩
  | joined hnew hlistens hstill hsilent =>
    exact ⟨by simp [hsilent, h.last, hlistens, hstill],
      by simp [hsilent, h.silent, hspoken hlistens], by simpa [hsilent] using h.alternates⟩
  | announced hnew hlistens hreport =>
    refine ⟨by simp [hreport, hlistens], by simp [hreport, hnew], ?_⟩
    rw [InterestEvent.about_append, hreport]
    exact h.alternates.concat (by simp)
  | withdrawn hnew hlistened hgone hreport =>
    refine ⟨by simp [hreport, hgone], by simp [hreport, hspoken hlistened], ?_⟩
    rw [InterestEvent.about_append, hreport]
    exact h.alternates.concat fun _ => by simpa using h.last.2 hlistened

theorem filed_run (operations : List (Operation L)) : Filed (run operations).1 := by
  induction operations using List.reverseRecOn with
  | nil => exact filed_empty
  | append_singleton operations operation ih =>
    rw [run_concat]
    exact ih.apply operation

theorem mirrors_run (operations : List (Operation L)) (app : String) :
    Mirrors (run operations).1 app (EverAccepted operations app) (run operations).2 := by
  induction operations using List.reverseRecOn with
  | nil => exact mirrors_empty app (by simp [EverAccepted])
  | append_singleton operations operation ih =>
    rw [run_concat, everAccepted_concat]
    exact ih.affects (affects (filed_run operations) operation app)

/-- The platform knows of exactly the applications with an entry in a registry. It never heard of
one that was never registered, and it is never told twice that one is gone. -/
theorem interest_mirrors_registries (operations : List (Operation L)) (app : String) :
    ((about app (run operations).2).getLast? = some (.added app) ↔
        (run operations).1.Listens app) ∧
      (about app (run operations).2 = [] ↔ ¬ EverAccepted operations app) ∧
      InterestEvent.Alternates app (run operations).2 :=
  have h := mirrors_run operations app
  ⟨h.last, h.silent, h.alternates.of_about⟩

end Listeners

end MultimediaMessaging
