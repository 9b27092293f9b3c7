import Mathlib.Data.List.Nodup
import MultimediaMessaging.Proofs.Listener.Interest

/-!
The entries of the registries over time. Every entry that was taken has a number of its own, stands
under its application until the operation that removes it, and is never there again.
-/

set_option autoImplicit false

namespace MultimediaMessaging.Listeners

variable {L : Type} {ls ls' : Listeners L} {cls cls' : ListenerClass} {app : String}
  {e entry : Registration L} {entered : List (ListenerClass × Registration L)}
  {removed gone : List (Registration L)}

/-- The registry of the class has the entry, under the entry's own application. -/
def Holds (ls : Listeners L) (cls : ListenerClass) (e : Registration L) : Prop :=
  (ls.registry cls).get? e.app = some e

def entered? (ls : Listeners L) : Operation L → Option (ListenerClass × Registration L)
  | .register cls app suite listener filter =>
    (ls.register cls app suite listener filter).1.toOption.map fun token =>
      (cls, { app, suite, listener, filter, token })
  | _ => none

def removedBy (ls : Listeners L) : Operation L → List (Registration L)
  | .register .. => []
  | .unregister app cls owner => (ls.unregister app cls owner).1.toOption.toList
  | .removeSuite suite pool => (ls.removeSuite suite pool).removed

theorem get?_setRegistry (ls : Listeners L) (cls cls' : ListenerClass) (r : Registry L)
    (app : String) : ((ls.setRegistry cls r).registry cls').get? app =
      if cls = cls' then r.get? app else (ls.registry cls').get? app := by
  cases cls <;> cases cls' <;> rfl

theorem Filed.eq_app (h : Filed ls) (hget : (ls.registry cls).get? app = some e) : e.app = app :=
  h.app (Table.mem_of_get? hget)

theorem Filed.holds (h : Filed ls) (hget : (ls.registry cls).get? app = some e) :
    ls.Holds cls e := by
  rw [Holds, h.eq_app hget]
  exact hget

theorem holds_put (hfree : (ls.registry cls).get? entry.app = none) :
    (ls.setRegistry cls ((ls.registry cls).put entry.app entry)).Holds cls' e ↔
      ls.Holds cls' e ∨ cls = cls' ∧ entry = e := by
  rw [Holds, get?_setRegistry, Table.get?_put, Holds]
  by_cases hcls : cls = cls'
  · subst hcls
    by_cases happ : entry.app = e.app
    · rw [happ] at hfree
      simp [happ, hfree]
    · have hne : entry ≠ e := fun hsame => happ (hsame ▸ rfl)
      simp [happ, hne]
  · simp [hcls]

theorem holds_erase (hheld : ls.Holds cls entry) :
    (ls.setRegistry cls ((ls.registry cls).erase entry.app)).Holds cls' e ↔
      ls.Holds cls' e ∧ ¬ (cls = cls' ∧ entry = e) := by
  rw [Holds, get?_setRegistry]
  by_cases hcls : cls = cls'
  · subst hcls
    by_cases happ : entry.app = e.app
    · have hsame : ls.Holds cls e → entry = e := fun hget =>
        Option.some.inj (hheld.symm.trans (happ ▸ hget))
      rw [happ]
      simpa using hsame
    · have hne : entry ≠ e := fun hsame => happ (hsame ▸ rfl)
      simp [Table.get?_erase_ne _ happ, Holds, hne]
  · simp [hcls, Holds]

theorem app_ne_of_register {suite : Suite} {listener : L} {filter : Option SenderFilter}
    {token : Nat} (h : (ls.register cls app suite listener filter).1 = .ok token) : app ≠ "" := by
  rintro rfl
  cases h

theorem mayRemove_some {token : Nat} : mayRemove (some token) e = true ↔ token = e.token := by
  simp [mayRemove]

theorem unregister_ok_iff {owner : Option Nat} : (ls.unregister app cls owner).1 = .ok e ↔
    (ls.registry cls).get? app = some e ∧ mayRemove owner e = true := by
  rw [← Option.filter_eq_some_iff, unregister]
  cases hfound : ((ls.registry cls).get? app).filter (mayRemove owner) <;> simp

theorem mem_ofSuite_iff (h : Filed ls) {suite : Suite} :
    e ∈ ofSuite (ls.registry cls) suite ↔ ls.Holds cls e ∧ e.suite = suite := by
  refine ⟨fun hmem => ⟨h.get?_of_mem_ofSuite hmem, ?_⟩, fun ⟨hheld, hsuite⟩ => ?_⟩
  · exact of_decide_eq_true (List.mem_filter.1 hmem).2
  · refine List.mem_filter.2 ⟨?_, decide_eq_true hsuite⟩
    exact List.mem_map.2 ⟨_, Table.mem_of_get? hheld, rfl⟩

theorem mem_removed_iff (h : Filed ls) {suite : Suite} {pool : Pool} :
    e ∈ (ls.removeSuite suite pool).removed ↔ ∃ cls, ls.Holds cls e ∧ e.suite = suite := by
  refine List.mem_append.trans ⟨fun hmem => ?_, fun ⟨cls, hheld⟩ => ?_⟩
  · exact hmem.elim (fun hmem => ⟨.midlet, (mem_ofSuite_iff h).1 hmem⟩)
      fun hmem => ⟨.push, (mem_ofSuite_iff h).1 hmem⟩
  · cases cls with
    | midlet => exact .inl ((mem_ofSuite_iff h).2 hheld)
    | push => exact .inr ((mem_ofSuite_iff h).2 hheld)

theorem get?_dropSuite_iff (h : Filed ls) {suite : Suite} :
    (dropSuite (ls.registry cls) suite).get? app = some e ↔
      (ls.registry cls).get? app = some e ∧ e.suite ≠ suite := by
  refine ⟨fun hget => ?_, fun ⟨hget, hother⟩ => Table.get?_filter hget (decide_eq_true hother)⟩
  have hmem := List.mem_filter.1 (Table.mem_of_get? hget)
  exact ⟨Table.get?_of_mem (h.nodup cls) hmem.1, of_decide_eq_true hmem.2⟩

theorem holds_removeSuite (h : Filed ls) {suite : Suite} {pool : Pool} :
    (ls.removeSuite suite pool).listeners.Holds cls e ↔ ls.Holds cls e ∧ e.suite ≠ suite := by
  rw [Holds, registry_removeSuite]
  exact get?_dropSuite_iff h

theorem nodup_ofSuite (h : Filed ls) (cls : ListenerClass) (suite : Suite) :
    (ofSuite (ls.registry cls) suite).Nodup := by
  refine (List.Nodup.of_map (·.app) ?_).filter _
  have happs : ((ls.registry cls).map Prod.snd).map (·.app) = (ls.registry cls).keys := by
    rw [List.map_map]
    exact List.map_congr_left fun _ hmem => h.app hmem
  exact happs ▸ h.nodup cls

/-- Registering adds at most one entry, and nothing else changes. -/
theorem holds_register {suite : Suite} {listener : L} {filter : Option SenderFilter} :
    (ls.register cls app suite listener filter).2.1.Holds cls' e ↔
      ls.Holds cls' e ∨ ls.entered? (.register cls app suite listener filter) = some (cls', e) := by
  have hcounted : ∀ cls, ({ ls with nextToken := ls.nextToken + 1 } : Listeners L).registry cls =
      ls.registry cls := fun cls => by cases cls <;> rfl
  have hregisters := registers ls cls app suite listener filter
  simp only [entered?]
  generalize ls.register cls app suite listener filter = result at hregisters
  cases hregisters with
  | refused => simp [Except.toOption, Holds, hcounted]
  | entered hfree =>
    have hput := @holds_put L { ls with nextToken := ls.nextToken + 1 } cls cls' e
      ⟨app, suite, listener, filter, ls.nextToken⟩ (by rwa [hcounted])
    simpa [Except.toOption, Holds, hcounted] using hput

theorem nextToken_register (ls : Listeners L) (cls : ListenerClass) (app : String) (suite : Suite)
    (listener : L) (filter : Option SenderFilter) :
    (ls.register cls app suite listener filter).2.1.nextToken = ls.nextToken + 1 := by
  have hregisters := registers ls cls app suite listener filter
  generalize ls.register cls app suite listener filter = result at hregisters
  cases hregisters with
  | refused => rfl
  | entered => cases cls <;> rfl

theorem nextToken_unregister (ls : Listeners L) (app : String) (cls : ListenerClass)
    (owner : Option Nat) : (ls.unregister app cls owner).2.1.nextToken = ls.nextToken := by
  have hunregisters := unregisters ls app cls owner
  generalize ls.unregister app cls owner = result at hunregisters
  cases hunregisters with
  | refused => rfl
  | removed => cases cls <;> rfl

theorem toOption_eq_some_iff {ε α : Type} {result : Except ε α} {a : α} :
    result.toOption = some a ↔ result = .ok a := by
  cases result <;> simp [Except.toOption]

theorem of_entered? {operation : Operation L} (h : ls.entered? operation = some (cls, e)) :
    e.token = ls.nextToken ∧ e.app ≠ "" := by
  cases operation with
  | register cls app suite listener filter =>
    obtain ⟨token, htoken, heq⟩ := Option.map_eq_some_iff.1 h
    cases heq
    have hok := toOption_eq_some_iff.1 htoken
    refine ⟨?_, app_ne_of_register hok⟩
    have hregisters := registers ls cls app suite listener filter
    generalize ls.register cls app suite listener filter = result at hregisters hok
    cases hregisters with
    | refused => cases hok
    | entered => exact (Except.ok.inj hok).symm
  | unregister | removeSuite => cases h

/-- Unregistering removes at most one entry, and nothing else changes. -/
theorem holds_unregister (h : Filed ls) {owner : Option Nat} :
    (ls.unregister app cls owner).2.1.Holds cls' e ↔
      ls.Holds cls' e ∧ ¬ (cls = cls' ∧ (ls.unregister app cls owner).1 = .ok e) := by
  have hunregisters := unregisters ls app cls owner
  generalize ls.unregister app cls owner = result at hunregisters
  cases hunregisters with
  | refused => simp
  | @removed entry events hget hevents =>
    obtain rfl := h.eq_app hget
    simp [holds_erase (Filed.holds h hget)]

theorem holds_of_unregister (h : Filed ls) {owner : Option Nat}
    (hok : (ls.unregister app cls owner).1 = .ok e) : ls.Holds cls e :=
  h.holds (unregister_ok_iff.1 hok).1

theorem mem_removedBy_iff (h : Filed ls) {operation : Operation L} :
    e ∈ ls.removedBy operation ↔
      ∃ cls, ls.Holds cls e ∧ ¬ (ls.apply operation).1.Holds cls e := by
  cases operation with
  | register cls app suite listener filter =>
    simp only [removedBy, List.not_mem_nil, false_iff, not_exists, not_and, not_not, apply]
    exact fun cls' hheld => holds_register.2 (.inl hheld)
  | unregister app cls owner =>
    simp only [removedBy, apply, holds_unregister h, Option.mem_toList, toOption_eq_some_iff]
    refine ⟨fun hok => ⟨cls, holds_of_unregister h hok, by simp [hok]⟩, ?_⟩
    rintro ⟨_, hheld, hgone⟩
    exact (not_not.1 (not_and.1 hgone hheld)).2
  | removeSuite suite pool =>
    simp only [removedBy, apply, mem_removed_iff h, holds_removeSuite h, not_and, not_not]
    refine exists_congr fun cls => and_congr_right fun hheld => ?_
    exact ⟨fun hsuite _ => hsuite, fun hsuite => hsuite hheld⟩

/-- The registries hold what was entered and not removed, and no two entries have the same number.
-/
structure Ledger (ls : Listeners L) (entered : List (ListenerClass × Registration L))
    (removed : List (Registration L)) : Prop where
  filed : Filed ls
  ascending : (entered.map (·.2.token)).Pairwise (· < ·)
  below : ∀ p ∈ entered, p.2.token < ls.nextToken
  named : ∀ p ∈ entered, p.2.app ≠ ""
  holds {cls : ListenerClass} {e : Registration L} :
    ls.Holds cls e ↔ (cls, e) ∈ entered ∧ e ∉ removed
  once : removed.Nodup
  known : ∀ e ∈ removed, ∃ cls, (cls, e) ∈ entered

theorem ledger_empty : Ledger ({} : Listeners L) [] [] where
  filed := filed_empty
  ascending := List.Pairwise.nil
  below := by simp
  named := by simp
  holds {cls _} := by cases cls <;> simp [Holds, registry]
  once := List.nodup_nil
  known := by simp

namespace Ledger

theorem nodup_tokens (h : Ledger ls entered removed) : (entered.map (·.2.token)).Nodup :=
  h.ascending.imp Nat.ne_of_lt

theorem eq_of_token (h : Ledger ls entered removed) {p q : ListenerClass × Registration L}
    (hp : p ∈ entered) (hq : q ∈ entered) (htoken : p.2.token = q.2.token) : p = q :=
  List.inj_on_of_nodup_map h.nodup_tokens hp hq htoken

theorem eq_cls (h : Ledger ls entered removed) (hheld : ls.Holds cls e)
    (hheld' : ls.Holds cls' e) : cls = cls' :=
  congrArg Prod.fst (h.eq_of_token (h.holds.1 hheld).1 (h.holds.1 hheld').1 rfl)

theorem enter (h : Ledger ls entered removed) (hfiled : Filed ls')
    (hnext : ls'.nextToken = ls.nextToken + 1) {new? : Option (ListenerClass × Registration L)}
    (hnew : ∀ p ∈ new?, p.2.token = ls.nextToken ∧ p.2.app ≠ "")
    (hholds : ∀ cls e, ls'.Holds cls e ↔ ls.Holds cls e ∨ new? = some (cls, e)) :
    Ledger ls' (entered ++ new?.toList) removed where
  filed := hfiled
  ascending := by
    rw [List.map_append, List.pairwise_append]
    refine ⟨h.ascending, ?_, ?_⟩
    · cases new? <;> simp
    · simp only [List.mem_map, Option.mem_toList]
      rintro _ ⟨p, hp, rfl⟩ _ ⟨q, hq, rfl⟩
      exact (hnew q hq).1 ▸ h.below p hp
  below p hp := by
    rw [hnext]
    rcases List.mem_append.1 hp with hold | hlast
    · exact Nat.lt_succ_of_lt (h.below p hold)
    · exact (hnew p (Option.mem_toList.1 hlast)).1 ▸ Nat.lt_succ_self _
  named p hp := (List.mem_append.1 hp).elim (h.named p)
    fun hlast => (hnew p (Option.mem_toList.1 hlast)).2
  holds {cls e} := by
    rw [hholds, List.mem_append, Option.mem_toList, h.holds]
    refine ⟨fun hheld => ?_, fun ⟨hmem, hkept⟩ => hmem.imp_left (⟨·, hkept⟩)⟩
    rcases hheld with ⟨hold, hkept⟩ | hlast
    · exact ⟨.inl hold, hkept⟩
    · -- what was removed had been entered, under an older number
      refine ⟨.inr hlast, fun hremoved => ?_⟩
      obtain ⟨cls', hknown⟩ := h.known e hremoved
      exact Nat.lt_irrefl _ ((hnew _ hlast).1 ▸ h.below _ hknown)
  once := h.once
  known e he := (h.known e he).imp fun _ hmem => List.mem_append_left _ hmem

theorem remove (h : Ledger ls entered removed) (hfiled : Filed ls')
    (hnext : ls'.nextToken = ls.nextToken) (hnodup : gone.Nodup)
    (hkept : ∀ cls e, ls'.Holds cls e → ls.Holds cls e)
    (hgone : ∀ e, e ∈ gone ↔ ∃ cls, ls.Holds cls e ∧ ¬ ls'.Holds cls e) :
    Ledger ls' entered (removed ++ gone) where
  filed := hfiled
  ascending := h.ascending
  below := hnext ▸ h.below
  named := h.named
  holds {cls e} := by
    rw [List.mem_append, not_or, ← and_assoc, ← h.holds]
    refine ⟨fun hheld => ⟨hkept cls e hheld, fun hmem => ?_⟩, fun ⟨hheld, hmem⟩ => ?_⟩
    · obtain ⟨cls', hheld', hlost⟩ := (hgone e).1 hmem
      exact hlost (h.eq_cls (hkept cls e hheld) hheld' ▸ hheld)
    · by_contra hlost
      exact hmem ((hgone e).2 ⟨cls, hheld, hlost⟩)
  once := by
    refine List.nodup_append.2 ⟨h.once, hnodup, fun e he other hother hsame => ?_⟩
    obtain ⟨cls, hheld, -⟩ := (hgone other).1 hother
    exact (h.holds.1 hheld).2 (hsame ▸ he)
  known e he := by
    rcases List.mem_append.1 he with hold | hmem
    · exact h.known e hold
    · obtain ⟨cls, hheld, -⟩ := (hgone e).1 hmem
      exact ⟨cls, (h.holds.1 hheld).1⟩

theorem nodup_removedBy (h : Ledger ls entered removed) (operation : Operation L) :
    (ls.removedBy operation).Nodup := by
  cases operation with
  | register => exact List.nodup_nil
  | unregister app cls owner =>
    simp only [removedBy]
    cases (ls.unregister app cls owner).1.toOption <;> simp
  | removeSuite suite pool =>
    refine List.nodup_append.2 ⟨nodup_ofSuite h.filed .midlet suite,
      nodup_ofSuite h.filed .push suite, fun e hmidlet other hpush hsame => ?_⟩
    have hheld : ls.Holds .midlet e := h.filed.get?_of_mem_ofSuite hmidlet
    have hheld' : ls.Holds .push other := h.filed.get?_of_mem_ofSuite hpush
    cases h.eq_cls hheld (hsame ▸ hheld')

theorem apply (h : Ledger ls entered removed) (operation : Operation L) :
    Ledger (ls.apply operation).1 (entered ++ (ls.entered? operation).toList)
      (removed ++ ls.removedBy operation) := by
  have hfiled := h.filed.apply operation
  have hnodup := h.nodup_removedBy operation
  cases operation with
  | register cls app suite listener filter =>
    rw [removedBy, List.append_nil]
    exact h.enter hfiled (nextToken_register ls cls app suite listener filter)
      (fun ⟨_, _⟩ hp => of_entered? hp) fun _ _ => holds_register
  | unregister app cls owner =>
    simp only [entered?, Option.toList_none, List.append_nil]
    exact h.remove hfiled (nextToken_unregister ls app cls owner) hnodup
      (fun cls e hheld => ((holds_unregister h.filed).1 hheld).1) fun e => mem_removedBy_iff h.filed
  | removeSuite suite pool =>
    simp only [entered?, Option.toList_none, List.append_nil]
    refine h.remove hfiled rfl hnodup (fun cls e hheld => ?_) fun e => mem_removedBy_iff h.filed
    rw [Listeners.apply, holds_removeSuite h.filed] at hheld
    exact hheld.1

end Ledger

theorem exists_ledger (operations : List (Operation L)) :
    ∃ entered removed, Ledger (run operations).1 entered removed := by
  induction operations using List.reverseRecOn with
  | nil => exact ⟨[], [], ledger_empty⟩
  | append_singleton operations operation ih =>
    obtain ⟨entered, removed, h⟩ := ih
    rw [run_concat]
    exact ⟨_, _, h.apply operation⟩

end MultimediaMessaging.Listeners
