import Mathlib.Data.List.Perm.Basic
import Mathlib.Tactic.ByContra
import MultimediaMessaging.Stack.Device

/-!
All that may happen at a device whose threads receive, wait for activity, close and unregister while
messages arrive, in steps as small as the locks allow. A message that arrives is stored first; its
connection and then its push registration are told later, and meanwhile the registries stay as they
are. The removal of a suite empties the registries at once, and the rest of it follows.
-/

set_option autoImplicit false

namespace MultimediaMessaging

namespace Stack

variable {τ : Type}

def connectionFor? (s : Stack τ) (m : Message) : Option (Registration Listener) :=
  s.listeners.midlet.get? m.app

def pushFor? (s : Stack τ) (m : Message) : Option (Registration Listener) :=
  s.router.pushFor? m

def Hears (s : Stack τ) (m : Message) : Prop :=
  s.connectionFor? m ≠ none ∨ s.pushFor? m ≠ none

def store (s : Stack τ) (m : Message) : Stack τ := s.setPool (s.pool.add m)

def tally (s : Stack τ) (disposition : Disposition) : Stack τ :=
  { s with router.counts := s.router.counts.count disposition }

def drain (s : Stack τ) (suite : Suite) : Stack τ :=
  let gone := s.listeners.removeSuite suite s.pool
  { s.setListeners gone.listeners with interest := s.interest ++ gone.events }

def purge (s : Stack τ) (app : String) : Stack τ := s.setPool (s.pool.removeAll app).2

def removed (s : Stack τ) (suite : Suite) : List (Registration Listener) :=
  (s.listeners.removeSuite suite s.pool).removed

theorem foldl_purge (s : Stack τ) (apps : List String) :
    apps.foldl purge s =
      s.setPool (apps.foldl (fun pool app => (pool.removeAll app).2) s.pool) := by
  induction apps generalizing s with
  | nil => rfl
  | cons app apps ih => exact ih (s.purge app)

variable [DecidableEq τ]

def ask (s : Stack τ) (m : Message) (found : Option (Registration Listener)) : Bool × Stack τ :=
  let (claimed, audience) := Router.ask Audience.tell m.info s.audience found
  (claimed, { s with audience })

theorem ask_waiter {s : Stack τ} {m : Message} {e : Registration Listener} {id : RoomId}
    (hlistener : e.listener = .waiter id) :
    s.ask m (some e) = ((s.audience.room id).wakeOne.1,
      { s with audience := s.audience.setRoom id (s.audience.room id).wakeOne.2 }) := by
  simp only [ask, Router.ask, hlistener, Audience.tell]

inductive Dispatched (s : Stack τ) (m : Message) : Disposition × Stack τ → Prop where
  | discarded (hunheard : ¬ s.Hears m) : Dispatched s m (.discarded, s.tally .discarded)
  | claimed {told : Stack τ} (hheard : s.Hears m)
      (hconnection : (s.store m).ask m (s.connectionFor? m) = (true, told)) :
      Dispatched s m (.deliveredToMidlet, told.tally .deliveredToMidlet)
  | pushed {told last : Stack τ} (hheard : s.Hears m)
      (hconnection : (s.store m).ask m (s.connectionFor? m) = (false, told))
      (hpush : told.ask m (told.pushFor? m) = (true, last)) :
      Dispatched s m (.deliveredToPush, last.tally .deliveredToPush)
  | pooled {told last : Stack τ} (hheard : s.Hears m)
      (hconnection : (s.store m).ask m (s.connectionFor? m) = (false, told))
      (hpush : told.ask m (told.pushFor? m) = (false, last)) :
      Dispatched s m (.pooled, last.tally .pooled)

theorem ask_eq {s : Stack τ} {m : Message} {found : Option (Registration Listener)}
    {claimed : Bool} {audience : Audience τ}
    (hask : Router.ask Audience.tell m.info s.audience found = (claimed, audience)) :
    s.ask m found = (claimed, { s with audience }) := by
  rw [ask, hask]

theorem dispatched (s : Stack τ) (m : Message) : Dispatched s m (s.dispatch m) := by
  have hconnection : s.router.listeners.midlet.get? m.app = s.connectionFor? m := rfl
  have hpush : s.router.pushFor? m = s.pushFor? m := rfl
  simp only [dispatch, Router.dispatch_eq, Router.offer, hconnection, hpush]
  by_cases hnone : (s.connectionFor? m).isNone ∧ (s.pushFor? m).isNone
  · rw [if_pos hnone]
    refine .discarded fun hheard => ?_
    exact hheard.elim (fun h => h (Option.isNone_iff_eq_none.1 hnone.1))
      fun h => h (Option.isNone_iff_eq_none.1 hnone.2)
  · have hheard : s.Hears m := by
      by_contra hunheard
      obtain ⟨hconnection, hpush⟩ := not_or.1 hunheard
      exact hnone ⟨Option.isNone_iff_eq_none.2 (not_ne_iff.1 hconnection),
        Option.isNone_iff_eq_none.2 (not_ne_iff.1 hpush)⟩
    rw [if_neg hnone]
    rcases hfirst : Router.ask Audience.tell m.info s.audience (s.connectionFor? m) with
      ⟨_ | _, audience⟩
    · rcases hsecond : Router.ask Audience.tell m.info audience (s.pushFor? m) with ⟨_ | _, last⟩
      · simp only [hsecond]
        exact .pooled hheard (ask_eq hfirst) (ask_eq hsecond)
      · simp only [hsecond]
        exact .pushed hheard (ask_eq hfirst) (ask_eq hsecond)
    · exact .claimed hheard (ask_eq hfirst)

theorem removeSuite_eq (s : Stack τ) (suite : Suite) :
    (s.removeSuite suite).2 =
      ((s.removed suite).map (·.listener)).foldl dismiss
        ((Listeners.sortedApps (s.removed suite)).foldl purge (s.drain suite)) := by
  rw [foldl_purge]
  rfl

end Stack

namespace Device

variable {τ : Type} [DecidableEq τ]

def connect (d : Device τ) (app : String) (suite : Suite) : Device τ :=
  match d.stack.connect app suite with
  | (.ok c, stack) => { d with stack }.setConnection c
  | (.error _, stack) => { d with stack }

def registerPush (d : Device τ) (app : String) (suite : Suite) (filter : Option SenderFilter) :
    Device τ :=
  match d.stack.registerPush app suite filter with
  | (.ok p, stack) => { d with stack }.setPush p
  | (.error _, stack) => { d with stack }

def IsFree (d : Device τ) (t : τ) : Prop :=
  ∀ task, d.tasks.get? t = some task → task.isFinished

/-- The next step of thread `t` needs both registries for itself. -/
def Locks (d : Device τ) (t : τ) : Prop :=
  ∃ id app cls token, d.tasks.get? t = some (.withdraw id app cls token)

end Device

/-- A device with what is on its way: messages whose connection is still to be told, those whose
push registration is still to be told, and listeners of removed suites that are still to be told. -/
structure Traffic (τ : Type) where
  device : Device τ
  arriving : List Message := []
  unclaimed : List Message := []
  leaving : List Listener := []

namespace Traffic

variable {τ : Type} [DecidableEq τ]

def stack (x : Traffic τ) : Stack τ := x.device.stack

def setStack (x : Traffic τ) (stack : Stack τ) : Traffic τ := { x with device.stack := stack }

/-- No message is on its way, so the registries may change. -/
def Quiet (x : Traffic τ) : Prop := x.arriving = [] ∧ x.unclaimed = []

inductive Step : Traffic τ → Traffic τ → Prop where
  | connect (x : Traffic τ) (app : String) (suite : Suite) (hquiet : x.Quiet) :
      Step x { x with device := x.device.connect app suite }
  | registerPush (x : Traffic τ) (app : String) (suite : Suite) (filter : Option SenderFilter)
      (hquiet : x.Quiet) : Step x { x with device := x.device.registerPush app suite filter }
  | start (x : Traffic τ) {t : τ} {request : Request} (hfree : x.device.IsFree t)
      (hkind : ∀ id dest destApp payload, request ≠ .send id dest destApp payload) :
      Step x { x with device := x.device.start t request }
  | advance (x : Traffic τ) {t : τ} (hlock : x.device.Locks t → x.Quiet) :
      Step x { x with device := x.device.advance t }
  | expire (x : Traffic τ) (t : τ) : Step x { x with device := x.device.expire t }
  | discard (x : Traffic τ) {m : Message} (hunheard : ¬ x.stack.Hears m) :
      Step x { x with device.stack := x.stack.tally .discarded }
  | store (x : Traffic τ) {m : Message} (hheard : x.stack.Hears m) :
      Step x { x with device.stack := x.stack.store m, arriving := m :: x.arriving }
  | claim (x : Traffic τ) {m : Message} {rest : List Message} {told : Stack τ}
      (hm : x.arriving.Perm (m :: rest))
      (hask : x.stack.ask m (x.stack.connectionFor? m) = (true, told)) :
      Step x { x with device.stack := told.tally .deliveredToMidlet, arriving := rest }
  | decline (x : Traffic τ) {m : Message} {rest : List Message} {told : Stack τ}
      (hm : x.arriving.Perm (m :: rest))
      (hask : x.stack.ask m (x.stack.connectionFor? m) = (false, told)) :
      Step x { x with device.stack := told, arriving := rest, unclaimed := m :: x.unclaimed }
  | push (x : Traffic τ) {m : Message} {rest : List Message} {told : Stack τ}
      (hm : x.unclaimed.Perm (m :: rest))
      (hask : x.stack.ask m (x.stack.pushFor? m) = (true, told)) :
      Step x { x with device.stack := told.tally .deliveredToPush, unclaimed := rest }
  | pool (x : Traffic τ) {m : Message} {rest : List Message} {told : Stack τ}
      (hm : x.unclaimed.Perm (m :: rest))
      (hask : x.stack.ask m (x.stack.pushFor? m) = (false, told)) :
      Step x { x with device.stack := told.tally .pooled, unclaimed := rest }
  | take (x : Traffic τ) (app : String) : Step x { x with device.stack := (x.stack.take app).2 }
  | drain (x : Traffic τ) (suite : Suite) (hquiet : x.Quiet) :
      Step x { x with
        device.stack := x.stack.drain suite
        leaving := (x.stack.removed suite).map (·.listener) ++ x.leaving }
  | purge (x : Traffic τ) (app : String) : Step x { x with device.stack := x.stack.purge app }
  | dismiss (x : Traffic τ) {listener : Listener} {rest : List Listener}
      (hleaving : x.leaving.Perm (listener :: rest)) :
      Step x { x with device.stack := x.stack.dismiss listener, leaving := rest }

inductive Reachable : Traffic τ → Prop where
  | fresh {config : Config} {stack : Stack τ} (hnew : Stack.new config = .ok stack) :
      Reachable { device := { stack } }
  | step {x y : Traffic τ} : Reachable x → Step x y → Reachable y

variable {x : Traffic τ}

/-- A message dispatched by a thread that nobody comes between. -/
theorem Reachable.dispatch (h : Reachable x) (m : Message) :
    Reachable (x.setStack (x.stack.dispatch m).2) := by
  have hdispatched := x.stack.dispatched m
  generalize x.stack.dispatch m = result at hdispatched
  cases hdispatched with
  | discarded hunheard => exact h.step (.discard x hunheard)
  | claimed hheard hconnection =>
    exact (h.step (.store x hheard)).step (.claim _ (.refl _) hconnection)
  | pushed hheard hconnection hpush =>
    have hdeclined := (h.step (.store x hheard)).step (.decline _ (.refl _) hconnection)
    exact hdeclined.step (.push _ (.refl _) hpush)
  | pooled hheard hconnection hpush =>
    have hdeclined := (h.step (.store x hheard)).step (.decline _ (.refl _) hconnection)
    exact hdeclined.step (.pool _ (.refl _) hpush)

theorem Reachable.purges (h : Reachable x) (apps : List String) :
    Reachable (x.setStack (apps.foldl Stack.purge x.stack)) := by
  induction apps generalizing x with
  | nil => exact h
  | cons app apps ih => exact ih (h.step (.purge x app))

theorem Reachable.dismissals {listeners : List Listener}
    (h : Reachable { x with leaving := listeners ++ x.leaving }) :
    Reachable (x.setStack (listeners.foldl Stack.dismiss x.stack)) := by
  induction listeners generalizing x with
  | nil => exact h
  | cons listener listeners ih =>
    exact ih (x := x.setStack (x.stack.dismiss listener)) (h.step (.dismiss _ (.refl _)))

theorem Reachable.removeSuite (h : Reachable x) (hquiet : x.Quiet) (suite : Suite) :
    Reachable (x.setStack (x.stack.removeSuite suite).2) := by
  have hpurged := (h.step (.drain x suite hquiet)).purges
    (Listeners.sortedApps (x.stack.removed suite))
  rw [Stack.removeSuite_eq]
  exact dismissals (x := x.setStack _) hpurged

end Traffic

end MultimediaMessaging
