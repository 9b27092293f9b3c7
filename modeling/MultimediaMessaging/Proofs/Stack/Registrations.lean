import MultimediaMessaging.Proofs.Listener.Ownership
import MultimediaMessaging.Proofs.Stack.Audience

/-!
Registering and unregistering with a stack. Main statement: after any calls a token removes the
entry that it was given for, as long as that entry is there, and nothing else; and a listener is
told that its entry is gone in the call that removes it, and never otherwise.
-/

set_option autoImplicit false

namespace MultimediaMessaging

open Listeners (toOption_eq_some_iff)

inductive Enrolment where
  | listen (cls : ListenerClass) (app : String) (suite : Suite) (listener : Listener)
      (filter : Option SenderFilter)
  | unlisten (app : String) (cls : ListenerClass) (owner : Option Nat)
  | removeSuite (suite : Suite)
  deriving DecidableEq, Repr

namespace Enrolment

def operation (pool : Pool) : Enrolment → Listeners.Operation Listener
  | listen cls app suite listener filter => .register cls app suite listener filter
  | unlisten app cls owner => .unregister app cls owner
  | removeSuite suite => .removeSuite suite pool

def isListen : Enrolment → Bool
  | listen .. => true
  | _ => false

end Enrolment

namespace Stack

variable {τ : Type} {s s' : Stack τ} {call : Enrolment}

def accepted? (s : Stack τ) : Enrolment → Option (ListenerClass × Registration Listener)
  | .listen cls app suite listener filter =>
    (s.listen cls app suite listener filter).1.toOption.map fun token =>
      (cls, { app, suite, listener, filter, token })
  | _ => none

def withdrawn (s : Stack τ) : Enrolment → List (Registration Listener)
  | .listen .. => []
  | .unlisten app cls owner => (s.withdraw app cls owner).1.toOption.toList
  | .removeSuite suite => s.removed suite

theorem accepted?_eq (s : Stack τ) (call : Enrolment) :
    s.accepted? call = s.listeners.entered? (call.operation s.pool) := by
  cases call with
  | listen cls app suite listener filter =>
    simp only [accepted?, Enrolment.operation, Listeners.entered?, listen]
    cases (s.listeners.register cls app suite listener filter).1 <;> rfl
  | _ => rfl

theorem withdrawn_eq (s : Stack τ) (call : Enrolment) :
    s.withdrawn call = s.listeners.removedBy (call.operation s.pool) := by
  cases call <;> rfl

theorem eq_of_withdraw_error {app : String} {cls : ListenerClass} {owner : Option Nat}
    {error : RegistryError} (h : s.withdraw app cls owner = (.error error, s')) : s' = s := by
  have hunregisters := Listeners.unregisters s.listeners app cls owner
  unfold withdraw at h
  generalize s.listeners.unregister app cls owner = result at hunregisters h
  cases hunregisters with
  | refused =>
    cases h
    rw [List.append_nil]
    rfl
  | removed => cases h

structure Enrols (s : Stack τ) (call : Enrolment) (s' : Stack τ) : Prop where
  listeners : s'.listeners = (s.listeners.apply (call.operation s.pool)).1
  interest : s'.interest = s.interest ++ (s.listeners.apply (call.operation s.pool)).2
  audience : Audience.Dismisses ((s.withdrawn call).map (·.listener)) s.audience s'.audience
  nextRoom : s'.nextRoom = s.nextRoom

theorem Enrols.ledger (h : s.Enrols call s') {before : List (ListenerClass × Registration Listener)}
    {gone : List (Registration Listener)} (hledger : Listeners.Ledger s.listeners before gone) :
    Listeners.Ledger s'.listeners (before ++ (s.accepted? call).toList)
      (gone ++ s.withdrawn call) := by
  rw [h.listeners, accepted?_eq, withdrawn_eq]
  exact hledger.apply (call.operation s.pool)

section Calls

variable [DecidableEq τ]

def enrol (s : Stack τ) : Enrolment → Stack τ
  | .listen cls app suite listener filter => (s.listen cls app suite listener filter).2
  | .unlisten app cls owner => (s.unlisten app cls owner).2
  | .removeSuite suite => (s.removeSuite suite).2

def enrolAll (s : Stack τ) (calls : List Enrolment) : Stack τ := calls.foldl enrol s

def accepted (s : Stack τ) : List Enrolment → List (ListenerClass × Registration Listener)
  | [] => []
  | call :: calls => (s.accepted? call).toList ++ (s.enrol call).accepted calls

def allWithdrawn (s : Stack τ) : List Enrolment → List (Registration Listener)
  | [] => []
  | call :: calls => s.withdrawn call ++ (s.enrol call).allWithdrawn calls

def Fails (s : Stack τ) : Enrolment → Prop
  | .listen cls app suite listener filter =>
    ∃ error, (s.listen cls app suite listener filter).1 = .error error
  | .unlisten app cls owner => ∃ error, (s.unlisten app cls owner).1 = .error error
  | .removeSuite _ => False

theorem foldl_dismiss (s : Stack τ) (listeners : List Listener) :
    listeners.foldl dismiss s =
      { s with audience := listeners.foldl Audience.dismiss s.audience } := by
  induction listeners generalizing s with
  | nil => rfl
  | cons listener listeners ih => exact ih (s.dismiss listener)

theorem dismisses_nil (s : Stack τ) : Audience.Dismisses [] s.audience s.audience :=
  Audience.dismisses_foldl [] s.audience

theorem enrols (s : Stack τ) (call : Enrolment) : s.Enrols call (s.enrol call) := by
  cases call with
  | listen cls app suite listener filter => exact ⟨rfl, rfl, s.dismisses_nil, rfl⟩
  | unlisten app cls owner =>
    have hwithdraw : s.withdraw app cls owner = ((s.listeners.unregister app cls owner).1,
      { s.setListeners (s.listeners.unregister app cls owner).2.1 with
        interest := s.interest ++ (s.listeners.unregister app cls owner).2.2 }) := rfl
    cases hresult : (s.listeners.unregister app cls owner).1 with
    | error error =>
      simp only [enrol, unlisten, hwithdraw, hresult]
      refine ⟨rfl, rfl, ?_, rfl⟩
      simp only [withdrawn, hwithdraw, hresult]
      exact s.dismisses_nil
    | ok entry =>
      simp only [enrol, unlisten, hwithdraw, hresult]
      refine ⟨rfl, rfl, ?_, rfl⟩
      simp only [withdrawn, hwithdraw, hresult]
      exact s.audience.dismisses_dismiss entry.listener
  | removeSuite suite =>
    simp only [enrol, removeSuite, foldl_dismiss]
    exact ⟨rfl, rfl, Audience.dismisses_foldl _ s.audience, rfl⟩

theorem ledger_enrolAll {before : List (ListenerClass × Registration Listener)}
    {gone : List (Registration Listener)} (h : Listeners.Ledger s.listeners before gone)
    (calls : List Enrolment) :
    Listeners.Ledger (s.enrolAll calls).listeners (before ++ s.accepted calls)
      (gone ++ s.allWithdrawn calls) := by
  induction calls generalizing s before gone with
  | nil => simpa [enrolAll, accepted, allWithdrawn] using h
  | cons call calls ih =>
    have hrest := ih ((s.enrols call).ledger h)
    rwa [List.append_assoc, List.append_assoc] at hrest

theorem nextToken_enrolAll (s : Stack τ) (calls : List Enrolment) :
    (s.enrolAll calls).listeners.nextToken =
      s.listeners.nextToken + calls.countP (·.isListen) := by
  induction calls generalizing s with
  | nil => rfl
  | cons call calls ih =>
    have hnext : (s.enrol call).listeners.nextToken =
        s.listeners.nextToken + if call.isListen then 1 else 0 := by
      rw [(s.enrols call).listeners]
      cases call with
      | listen cls app suite listener filter => exact Listeners.nextToken_register ..
      | unlisten app cls owner => exact Listeners.nextToken_unregister ..
      | removeSuite suite => rfl
    rw [enrolAll, List.foldl_cons, ← enrolAll, ih, hnext, List.countP_cons]
    omega

theorem unlisten_ok_iff {app : String} {cls : ListenerClass} {owner : Option Nat} :
    (s.unlisten app cls owner).1 = .ok () ↔
      ∃ e, (s.listeners.unregister app cls owner).1 = .ok e := by
  have hwithdraw : (s.withdraw app cls owner).1 = (s.listeners.unregister app cls owner).1 := rfl
  rw [← hwithdraw, unlisten]
  rcases s.withdraw app cls owner with ⟨_ | _, _⟩ <;> simp

/-- A call that fails shows nowhere but in the count of attempts. -/
structure Ignores (s s' : Stack τ) : Prop where
  registry (cls : ListenerClass) : s'.listeners.registry cls = s.listeners.registry cls
  interest : s'.interest = s.interest
  audience : s'.audience = s.audience

theorem ignores_of_fails (hfails : s.Fails call) : s.Ignores (s.enrol call) := by
  cases call with
  | listen cls app suite listener filter =>
    obtain ⟨error, herror⟩ := hfails
    have hregisters := Listeners.registers s.listeners cls app suite listener filter
    simp only [listen, enrol] at herror ⊢
    generalize s.listeners.register cls app suite listener filter = result at hregisters herror
    cases hregisters with
    | refused => exact ⟨fun cls => by cases cls <;> rfl, List.append_nil _, rfl⟩
    | entered => cases herror
  | unlisten app cls owner =>
    obtain ⟨error, herror⟩ := hfails
    have hunregisters := Listeners.unregisters s.listeners app cls owner
    simp only [unlisten, withdraw, enrol] at herror ⊢
    generalize s.listeners.unregister app cls owner = result at hunregisters herror
    cases hunregisters with
    | refused => exact ⟨fun _ => rfl, List.append_nil _, rfl⟩
    | removed => cases herror
  | removeSuite => exact hfails.elim

theorem get?_unlisten {app : String} {cls : ListenerClass} {owner : Option Nat}
    (hok : (s.unlisten app cls owner).1 = .ok ()) :
    ∃ e, (s.listeners.registry cls).get? app = some e ∧ (∀ token ∈ owner, e.token = token) ∧
      s.withdrawn (.unlisten app cls owner) = [e] ∧ ∀ cls' app',
        ((s.unlisten app cls owner).2.listeners.registry cls').get? app' =
          if cls = cls' ∧ app = app' then none else (s.listeners.registry cls').get? app' := by
  obtain ⟨e, he⟩ := unlisten_ok_iff.1 hok
  have henrols := s.enrols (.unlisten app cls owner)
  have hlisteners := henrols.listeners
  obtain ⟨hget, howner⟩ := Listeners.unregister_ok_iff.1 he
  refine ⟨e, hget, ?_, ?_, fun cls' app' => ?_⟩
  · rintro token rfl
    exact (Listeners.mayRemove_some.1 howner).symm
  · rw [withdrawn_eq, Enrolment.operation, Listeners.removedBy, he]
    rfl
  · have hunregisters := Listeners.unregisters s.listeners app cls owner
    simp only [enrol, Enrolment.operation, Listeners.apply] at hlisteners
    rw [hlisteners]
    generalize s.listeners.unregister app cls owner = result at hunregisters he
    cases hunregisters with
    | refused => cases he
    | removed =>
      rw [Listeners.get?_setRegistry]
      by_cases hcls : cls = cls'
      · subst hcls
        by_cases happ : app = app'
        · simp [happ]
        · simp [happ, Table.get?_erase_ne _ happ]
      · simp [hcls]

/-- What the registries owe to the calls that `accepted` and `withdrawn` are from. -/
structure Ownership (s : Stack τ) (attempts : Nat)
    (accepted : List (ListenerClass × Registration Listener))
    (withdrawn : List (Registration Listener)) : Prop where
  tokens : (accepted.map (·.2.token)).Nodup
  counted : ∀ p ∈ accepted, p.2.token ≤ attempts
  filed {cls : ListenerClass} {app : String} {e : Registration Listener} :
    (s.listeners.registry cls).get? app = some e → e.app = app ∧ app ≠ ""
  /-- A token is good for the registration that it was given for, until that one is removed. -/
  owned {app : String} {cls : ListenerClass} {token : Nat} :
    (s.unlisten app cls (some token)).1 = .ok () ↔
      ∃ e, (cls, e) ∈ accepted ∧ e ∉ withdrawn ∧ e.app = app ∧ e.token = token
  single {app : String} {cls : ListenerClass} {owner : Option Nat} :
    (s.unlisten app cls owner).1 = .ok () →
      ∃ e, (s.listeners.registry cls).get? app = some e ∧ (∀ token ∈ owner, e.token = token) ∧
        s.withdrawn (.unlisten app cls owner) = [e] ∧ ∀ cls' app',
          ((s.unlisten app cls owner).2.listeners.registry cls').get? app' =
            if cls = cls' ∧ app = app' then none else (s.listeners.registry cls').get? app'
  failing {call : Enrolment} : s.Fails call → s.Ignores (s.enrol call)
  once : withdrawn.Nodup
  known : ∀ e ∈ withdrawn, ∃ cls, (cls, e) ∈ accepted
  /-- The listeners that the next call tells are those of the entries that it removes. -/
  told (call : Enrolment) :
    (s.withdrawn call).Nodup ∧
      (∀ e, e ∈ s.withdrawn call ↔
        ∃ cls, s.listeners.Holds cls e ∧ ¬ (s.enrol call).listeners.Holds cls e) ∧
      Audience.Dismisses ((s.withdrawn call).map (·.listener)) s.audience (s.enrol call).audience

theorem ownership_of_ledger {accepted : List (ListenerClass × Registration Listener)}
    {withdrawn : List (Registration Listener)}
    (h : Listeners.Ledger s.listeners accepted withdrawn) {attempts : Nat}
    (hnext : s.listeners.nextToken = attempts + 1) :
    s.Ownership attempts accepted withdrawn where
  tokens := h.nodup_tokens
  counted p hp := by
    have hbelow := h.below p hp
    omega
  filed {cls app e} hget := by
    obtain rfl := h.filed.eq_app hget
    exact ⟨rfl, h.named _ (h.holds.1 hget).1⟩
  owned {app cls token} := by
    rw [unlisten_ok_iff]
    refine exists_congr fun e => ?_
    rw [Listeners.unregister_ok_iff, ← and_assoc, ← h.holds]
    constructor
    · rintro ⟨hget, howner⟩
      obtain rfl := h.filed.eq_app hget
      exact ⟨hget, rfl, (Listeners.mayRemove_some.1 howner).symm⟩
    · rintro ⟨hheld, rfl, rfl⟩
      exact ⟨hheld, Listeners.mayRemove_some.2 rfl⟩
  single := get?_unlisten
  failing := ignores_of_fails
  once := h.once
  known := h.known
  told call := by
    have henrols := s.enrols call
    refine ⟨?_, fun e => ?_, henrols.audience⟩
    · rw [withdrawn_eq]
      exact h.nodup_removedBy _
    · rw [withdrawn_eq, henrols.listeners]
      exact Listeners.mem_removedBy_iff h.filed

theorem dismisses_enrolAll (s : Stack τ) (calls : List Enrolment) :
    Audience.Dismisses ((s.allWithdrawn calls).map (·.listener)) s.audience
      (s.enrolAll calls).audience := by
  induction calls generalizing s with
  | nil => exact s.dismisses_nil
  | cons call calls ih =>
    rw [allWithdrawn, List.map_append]
    exact (s.enrols call).audience.trans (ih (s.enrol call))

/-- Whatever was registered and removed, by whomever: every registration is removed at most once,
by its token as long as it is there, and its listener is told then and at no other time. -/
theorem ownership_enrolAll (hnew : s.listeners = {}) (calls : List Enrolment) :
    (s.enrolAll calls).Ownership (calls.countP (·.isListen)) (s.accepted calls)
        (s.allWithdrawn calls) ∧
      Audience.Dismisses ((s.allWithdrawn calls).map (·.listener)) s.audience
        (s.enrolAll calls).audience := by
  have hempty : Listeners.Ledger s.listeners [] [] := hnew ▸ Listeners.ledger_empty
  have hledger := ledger_enrolAll hempty calls
  have hnext := s.nextToken_enrolAll calls
  rw [hnew, Nat.add_comm] at hnext
  exact ⟨ownership_of_ledger hledger hnext, s.dismisses_enrolAll calls⟩

def blank : Stack Nat :=
  { config := {}
    router := { pool := .new 10 }
    assembler := { maxPending := 16, timeout := milliseconds 30000, limit := 307200 } }

def drowsy : Stack Nat :=
  { blank with audience := {
      rooms := [(⟨0⟩, { queue := { waiting := 1 }, parked := [7] }),
        (⟨1⟩, { queue := { waiting := 1 }, parked := [8] })] } }

def handover : List Enrolment :=
  [.listen .midlet "chat" ⟨1⟩ (.observer ⟨"first", true⟩) none,
   .listen .push "mail" ⟨1⟩ (.waiter ⟨0⟩) none,
   .listen .push "chat" ⟨3⟩ (.waiter ⟨1⟩) none,
   .listen .midlet "chat" ⟨2⟩ (.observer ⟨"early", true⟩) none,
   .removeSuite ⟨1⟩,
   .listen .midlet "chat" ⟨2⟩ (.observer ⟨"second", true⟩) none]

theorem ownership_handover :
    drowsy.listeners = {} ∧
      ((drowsy.enrolAll handover).unlisten "chat" .midlet (some 1)).1 ≠ .ok () ∧
      ((drowsy.enrolAll handover).unlisten "chat" .midlet (some 5)).1 = .ok () ∧
      (drowsy.enrolAll handover).audience.calls = [.unregistered "first"] ∧
      ((drowsy.enrolAll handover).audience.room ⟨0⟩).queue.interrupted = true ∧
      ((drowsy.enrolAll handover).audience.room ⟨0⟩).parked = [] ∧
      ((drowsy.enrolAll handover).audience.room ⟨0⟩).roused = [(7, false)] ∧
      (drowsy.enrolAll handover).audience.room ⟨1⟩ =
        { queue := { waiting := 1 }, parked := [8] } := by
  have haccepted : drowsy.accepted handover =
      [(.midlet, ⟨"chat", ⟨1⟩, .observer ⟨"first", true⟩, none, 1⟩),
        (.push, ⟨"mail", ⟨1⟩, .waiter ⟨0⟩, none, 2⟩),
        (.push, ⟨"chat", ⟨3⟩, .waiter ⟨1⟩, none, 3⟩),
        (.midlet, ⟨"chat", ⟨2⟩, .observer ⟨"second", true⟩, none, 5⟩)] := by rfl
  have hwithdrawn : drowsy.allWithdrawn handover =
      [⟨"chat", ⟨1⟩, .observer ⟨"first", true⟩, none, 1⟩,
        ⟨"mail", ⟨1⟩, .waiter ⟨0⟩, none, 2⟩] := by rfl
  obtain ⟨hownership, htold⟩ := ownership_enrolAll (s := drowsy) rfl handover
  rw [haccepted, hwithdrawn] at hownership
  rw [hwithdrawn] at htold
  have hended := htold.ended ⟨0⟩ (by decide)
  refine ⟨rfl, fun hok => ?_, hownership.owned.2 ?_, htold.calls, by rw [hended.queue],
    hended.parked, hended.roused, htold.others ⟨1⟩ (by decide)⟩
  · obtain ⟨e, hmem, hkept, -, htoken⟩ := hownership.owned.1 hok
    simp only [List.mem_cons, Prod.mk.injEq, reduceCtorEq, false_and, true_and, false_or,
      List.not_mem_nil, or_false, not_or] at hmem hkept
    rcases hmem with rfl | rfl
    · exact hkept.1 rfl
    · cases htoken
  · exact ⟨⟨"chat", ⟨2⟩, .observer ⟨"second", true⟩, none, 5⟩, by decide, by decide, rfl, rfl⟩

end Calls

end Stack

end MultimediaMessaging
