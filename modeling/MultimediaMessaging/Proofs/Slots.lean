import Mathlib.Data.List.Dedup
import Mathlib.Data.List.Induction
import Mathlib.Data.List.Pairwise
import MultimediaMessaging.Proofs.Fragment.Repetition
import MultimediaMessaging.Proofs.Isolation

/-!
Whose slots an assembler keeps. Main statement: there are never more than it may have, each with a
transfer in progress; a slot is taken from its sender only for another one that needs it while none
is free, and then it is the slot of the sender that was silent longest; a tick takes those of all
senders that were silent for too long, and the statistics count just these.
-/

set_option autoImplicit false

namespace MultimediaMessaging

open Text

namespace Assembler

section Stalest

variable {slots : Table SocketAddress Slot} {source : SocketAddress} {time : Time}

theorem exists_stalest? (h : slots ≠ []) : ∃ source time, stalest? slots = some (source, time) := by
  cases slots with
  | nil => exact absurd rfl h
  | cons entry rest =>
    obtain ⟨source, slot⟩ := entry
    unfold stalest?
    cases stalest? rest with
    | none => exact ⟨_, _, rfl⟩
    | some oldest =>
      dsimp only
      split <;> exact ⟨_, _, rfl⟩

theorem stalest?_le (h : stalest? slots = some (source, time)) :
    (∃ slot, (source, slot) ∈ slots ∧ slot.lastActivity = time) ∧
      ∀ entry ∈ slots, time ≤ entry.2.lastActivity := by
  induction slots generalizing source time with
  | nil => cases h
  | cons entry rest ih =>
    obtain ⟨first, slot⟩ := entry
    unfold stalest? at h
    cases hrest : stalest? rest with
    | none =>
      have hnil : rest = [] := by
        by_contra hne
        obtain ⟨other, t, hother⟩ := exists_stalest? hne
        rw [hrest] at hother
        cases hother
      simp only [hrest, Option.some.injEq, Prod.mk.injEq] at h
      obtain ⟨rfl, rfl⟩ := h
      simp [hnil]
    | some oldest =>
      obtain ⟨other, t⟩ := oldest
      obtain ⟨⟨old, hmem, hold⟩, hle⟩ := ih hrest
      simp only [hrest] at h
      split at h
      · rename_i hlt
        simp only [Option.some.injEq, Prod.mk.injEq] at h
        obtain ⟨rfl, rfl⟩ := h
        exact ⟨⟨old, List.mem_cons_of_mem _ hmem, hold⟩,
          List.forall_mem_cons.2 ⟨Nat.le_of_lt hlt, hle⟩⟩
      · rename_i hge
        simp only [Option.some.injEq, Prod.mk.injEq] at h
        obtain ⟨rfl, rfl⟩ := h
        exact ⟨⟨slot, List.mem_cons_self, rfl⟩, List.forall_mem_cons.2
          ⟨Nat.le_refl _, fun entry hentry => Nat.le_trans (Nat.not_lt.1 hge) (hle entry hentry)⟩⟩

theorem makeRoom_of_full {capacity : Nat} (hn : (Table.keys slots).Nodup) (hpos : 0 < capacity)
    (hfull : slots.length = capacity) :
    ∃ source time, stalest? slots = some (source, time) ∧
      makeRoom capacity slots = (slots.erase source, 1) := by
  have hne : slots ≠ [] := List.length_pos_iff.1 (hfull ▸ hpos)
  obtain ⟨source, time, hold⟩ := exists_stalest? hne
  obtain ⟨⟨slot, hmem, -⟩, -⟩ := stalest?_le hold
  have hlength := Table.length_erase hn (Table.get?_of_mem hn hmem)
  refine ⟨source, time, hold, ?_⟩
  rw [makeRoom, if_neg (by omega)]
  split
  · rename_i hnone
    rw [hold] at hnone
    cases hnone
  · rename_i hsome
    rw [hold] at hsome
    cases hsome
    rw [makeRoom_of_lt (by omega)]

end Stalest

namespace Call

def time? : Call → Option Time
  | .datagram now _ _ => some now
  | .abandon _ => none
  | .tick now => some now

def heard? (source : SocketAddress) : Call → Option Time
  | .datagram now other _ => if other = source then some now else none
  | _ => none

end Call

def Increasing (calls : List Call) : Prop := (calls.filterMap Call.time?).Pairwise (· < ·)

def lastHeard? (calls : List Call) (source : SocketAddress) : Option Time :=
  (calls.filterMap (Call.heard? source)).getLast?

def senders (calls : List Call) : List SocketAddress := (calls.filterMap Call.sender?).dedup

def lost (a b : Assembler) : List SocketAddress :=
  (Table.keys a.slots).filter fun source => !b.slots.contains source

/-- How many lose their slot to the datagram of another. -/
def evictedBy (a : Assembler) : Call → Nat
  | .datagram now source bytes =>
    ((a.lost (a.onFragment now source bytes).2).filter (· ≠ source)).length
  | _ => 0

def timedOutBy (a : Assembler) : Call → Nat
  | .tick now => (a.lost (a.tick now).2).length
  | _ => 0

def tally (count : Assembler → Call → Nat) : Assembler → List Call → Nat
  | _, [] => 0
  | a, call :: calls => count a call + tally count (a.apply call) calls

/-- A datagram that needs a slot finds none left. -/
def Crowded (a : Assembler) (source : SocketAddress) (bytes : Bytes) : Prop :=
  a.slots.get? source = none ∧ a.pending = a.capacity ∧
    ∃ request, ((a.decoderFor source).decode bytes).1 = .ok (.more request)

/-- The sender was `heard` last, and that is longer ago than the timeout. -/
def idle (a : Assembler) (heard : SocketAddress → Option Time) (now : Time)
    (source : SocketAddress) : Bool :=
  (heard source).any fun time => a.timeout < now - time

/-- What becomes of each slot at a call, where `heard` tells when a sender was heard last. -/
def Fair (a : Assembler) (heard : SocketAddress → Option Time) : Call → Prop
  | .datagram now source bytes =>
    let after := (a.onFragment now source bytes).2
    (a.onFragment now source bytes).1 = ((a.decoderFor source).decode bytes).1 ∧
    (∀ request, ((a.decoderFor source).decode bytes).1 = .ok (.more request) →
      after.slots.get? source = some ⟨((a.decoderFor source).decode bytes).2, now⟩) ∧
    ((∀ request, ((a.decoderFor source).decode bytes).1 ≠ .ok (.more request)) →
      after.slots.get? source = none) ∧
    (¬ a.Crowded source bytes →
      ∀ other, other ≠ source → after.slots.get? other = a.slots.get? other) ∧
    (a.Crowded source bytes →
      ∃ victim time, victim ∈ Table.keys a.slots ∧ heard victim = some time ∧
        after.slots.get? victim = none ∧
        ∀ other, other ≠ source → other ≠ victim →
          after.slots.get? other = a.slots.get? other ∧
          (other ∈ Table.keys a.slots → ∃ later, heard other = some later ∧ time < later))
  | .abandon source =>
    (a.abandon source).1 = a.slots.contains source ∧
    ∀ other, (a.abandon source).2.slots.get? other =
      if source = other then none else a.slots.get? other
  | .tick now =>
    (∀ source, (a.tick now).2.slots.get? source =
      if a.idle heard now source then none else a.slots.get? source) ∧
    (a.tick now).1 = ((Table.keys a.slots).filter (a.idle heard now)).length

variable {a : Assembler} {now : Time} {source other : SocketAddress} {bytes : Bytes}
  {calls : List Call} {call : Call}

theorem count_removals (result : Except DecodeError Progress) (stats : AssemblerStats) :
    (count result stats).evicted = stats.evicted ∧
      (count result stats).timedOut = stats.timedOut := by
  unfold count
  split <;> exact ⟨rfl, rfl⟩

theorem evicted_onFragment (a : Assembler) (now : Time) (source : SocketAddress) (bytes : Bytes) :
    (a.onFragment now source bytes).2.stats.evicted =
      a.stats.evicted + (a.settle now source ((a.decoderFor source).decode bytes).1
        ((a.decoderFor source).decode bytes).2).2 :=
  (count_removals _ _).1

theorem timedOut_onFragment (a : Assembler) (now : Time) (source : SocketAddress) (bytes : Bytes) :
    (a.onFragment now source bytes).2.stats.timedOut = a.stats.timedOut :=
  (count_removals _ _).2

theorem removals_abandon (a : Assembler) (source : SocketAddress) :
    (a.abandon source).2.stats.evicted = a.stats.evicted ∧
      (a.abandon source).2.stats.timedOut = a.stats.timedOut := by
  unfold abandon
  split <;> exact ⟨rfl, rfl⟩

/-- What a datagram does to the slots, `gone` of which are taken from others for it. -/
inductive Served (a : Assembler) (now : Time) (source : SocketAddress) (bytes : Bytes) :
    Table SocketAddress Slot → Nat → Prop
  | ended (answer : ∀ request, ((a.decoderFor source).decode bytes).1 ≠ .ok (.more request)) :
      Served a now source bytes (a.slots.erase source) 0
  | kept (request : AckRequest)
      (answer : ((a.decoderFor source).decode bytes).1 = .ok (.more request))
      (room : source ∈ Table.keys a.slots ∨ a.pending < a.capacity) :
      Served a now source bytes
        (a.slots.put source ⟨((a.decoderFor source).decode bytes).2, now⟩) 0
  | crowded (victim : SocketAddress) (time : Time) (crowd : a.Crowded source bytes)
      (oldest : stalest? a.slots = some (victim, time)) :
      Served a now source bytes
        ((a.slots.erase victim).put source ⟨((a.decoderFor source).decode bytes).2, now⟩) 1

/-- All that follows about datagrams is derived from this. -/
theorem served (hn : (Table.keys a.slots).Nodup) (hle : a.pending ≤ a.capacity) (now : Time)
    (source : SocketAddress) (bytes : Bytes) :
    ∃ gone, a.Served now source bytes (a.onFragment now source bytes).2.slots gone ∧
      (a.onFragment now source bytes).2.stats.evicted = a.stats.evicted + gone := by
  have hslots := slots_onFragment a now source bytes
  have hevicted := evicted_onFragment a now source bytes
  match hresult : ((a.decoderFor source).decode bytes).1 with
  | .ok (.more request) =>
    rw [hresult] at hslots hevicted
    by_cases hin : a.slots.contains source = true
    · rw [settle, if_pos hin] at hslots hevicted
      exact ⟨0, hslots ▸ .kept request hresult (.inl ((Table.mem_keys_iff _ _).2 hin)), hevicted⟩
    · rw [settle, if_neg hin] at hslots hevicted
      rcases Nat.lt_or_eq_of_le hle with hlt | hfull
      · rw [makeRoom_of_lt hlt] at hslots hevicted
        exact ⟨0, hslots ▸ .kept request hresult (.inr hlt), hevicted⟩
      · have hpos : 0 < a.capacity := Nat.le_max_right ..
        obtain ⟨victim, time, hold, hroom⟩ := makeRoom_of_full hn hpos hfull
        rw [hroom] at hslots hevicted
        have hnone := Option.not_isSome_iff_eq_none.1 hin
        exact ⟨1, hslots ▸ .crowded victim time ⟨hnone, hfull, request, hresult⟩ hold, hevicted⟩
  | .ok (.complete m) =>
    rw [hresult] at hslots hevicted
    exact ⟨0, hslots ▸ .ended (by simp [hresult]), hevicted⟩
  | .error err =>
    rw [hresult] at hslots hevicted
    exact ⟨0, hslots ▸ .ended (by simp [hresult]), hevicted⟩

namespace Served

variable {slots : Table SocketAddress Slot} {gone : Nat}

theorem nodup (h : a.Served now source bytes slots gone) (hn : (Table.keys a.slots).Nodup) :
    (Table.keys slots).Nodup := by
  cases h with
  | ended answer => exact Table.nodup_keys_erase hn _
  | kept request answer room => exact Table.nodup_keys_put hn _ _
  | crowded victim time crowd oldest =>
    exact Table.nodup_keys_put (Table.nodup_keys_erase hn _) _ _

theorem length_le (h : a.Served now source bytes slots gone) (hn : (Table.keys a.slots).Nodup)
    (hle : a.pending ≤ a.capacity) : slots.length ≤ a.capacity := by
  cases h with
  | ended answer => exact Nat.le_trans (List.length_filter_le _ _) hle
  | kept request answer room =>
    rw [Table.length_put]
    split
    · exact hle
    · rename_i hnew
      exact Nat.succ_le_of_lt (room.resolve_left hnew)
  | crowded victim time crowd oldest =>
    obtain ⟨⟨slot, hmem, -⟩, -⟩ := stalest?_le oldest
    have hlength := Table.length_erase hn (Table.get?_of_mem hn hmem)
    rw [pending] at hle
    rw [Table.length_put]
    split <;> omega

theorem get?_of_more (h : a.Served now source bytes slots gone) {request : AckRequest}
    (more : ((a.decoderFor source).decode bytes).1 = .ok (.more request)) :
    slots.get? source = some ⟨((a.decoderFor source).decode bytes).2, now⟩ := by
  cases h with
  | ended answer => exact absurd more (answer request)
  | kept _ _ room => exact Table.get?_put_self _ _ _
  | crowded victim time crowd oldest => exact Table.get?_put_self _ _ _

theorem get?_of_ended (h : a.Served now source bytes slots gone)
    (ended : ∀ request, ((a.decoderFor source).decode bytes).1 ≠ .ok (.more request)) :
    slots.get? source = none := by
  cases h with
  | ended _ => exact Table.get?_erase_self _ _
  | kept request answer room => exact absurd answer (ended request)
  | crowded victim time crowd oldest =>
    obtain ⟨-, -, request, answer⟩ := crowd
    exact absurd answer (ended request)

theorem get?_of_ne (h : a.Served now source bytes slots gone) (hne : source ≠ other) {slot : Slot}
    (hslot : slots.get? other = some slot) : a.slots.get? other = some slot := by
  cases h with
  | ended answer => rwa [Table.get?_erase_ne _ hne] at hslot
  | kept request answer room => rwa [Table.get?_put_ne _ _ hne] at hslot
  | crowded victim time crowd oldest =>
    rw [Table.get?_put_ne _ _ hne, Table.get?_erase] at hslot
    split at hslot
    · cases hslot
    · exact hslot

theorem of_not_crowded (h : a.Served now source bytes slots gone) (hc : ¬ a.Crowded source bytes) :
    gone = 0 ∧ ∀ other, other ≠ source → slots.get? other = a.slots.get? other := by
  cases h with
  | ended answer => exact ⟨rfl, fun _ hne => Table.get?_erase_ne _ hne.symm⟩
  | kept request answer room => exact ⟨rfl, fun _ hne => Table.get?_put_ne _ _ hne.symm⟩
  | crowded victim time crowd oldest => exact absurd crowd hc

theorem of_crowded (h : a.Served now source bytes slots gone) (hc : a.Crowded source bytes) :
    gone = 1 ∧ ∃ victim time, stalest? a.slots = some (victim, time) ∧
      slots.get? victim = none ∧
      ∀ other, other ≠ source → other ≠ victim → slots.get? other = a.slots.get? other := by
  obtain ⟨hnone, hfull, request, hmore⟩ := hc
  cases h with
  | ended answer => exact absurd hmore (answer request)
  | kept request answer room =>
    exact absurd room (not_or.2 ⟨Table.notMem_keys_iff.2 hnone, by omega⟩)
  | crowded victim time crowd oldest =>
    have hne : source ≠ victim := by
      rintro rfl
      exact Table.notMem_keys_iff.2 hnone (mem_keys_of_stalest? oldest)
    refine ⟨rfl, victim, time, oldest, ?_, fun other hsource hvictim => ?_⟩
    · rw [Table.get?_put_ne _ _ hne, Table.get?_erase_self]
    · rw [Table.get?_put_ne _ _ hsource.symm, Table.get?_erase_ne _ hvictim.symm]

theorem evictedBy_eq (h : a.Served now source bytes (a.onFragment now source bytes).2.slots gone)
    (hn : (Table.keys a.slots).Nodup) : a.evictedBy (.datagram now source bytes) = gone := by
  rw [evictedBy, lost, List.filter_filter]
  by_cases hc : a.Crowded source bytes
  · obtain ⟨rfl, victim, time, oldest, hgone, hrest⟩ := h.of_crowded hc
    have hvictim : victim ∈ Table.keys a.slots := mem_keys_of_stalest? oldest
    have hsource : source ∉ Table.keys a.slots := Table.notMem_keys_iff.2 hc.1
    have hone : (Table.keys a.slots).filter (· == victim) = [victim] := by
      rw [List.filter_beq, List.count_eq_one_of_mem hn hvictim, List.replicate_one]
    rw [← List.length_singleton (a := victim), ← hone]
    refine congrArg List.length (List.filter_congr fun other hother => ?_)
    have hne : other ≠ source := fun he => hsource (he ▸ hother)
    by_cases hother' : other = victim
    · simp [hother', Table.contains, hgone, hother' ▸ hne]
    · have hkept := (Table.mem_keys_iff _ _).1 hother
      simp [hother', Table.contains, hrest other hne hother', hkept]
  · obtain ⟨rfl, hrest⟩ := h.of_not_crowded hc
    rw [List.length_eq_zero_iff, List.filter_eq_nil_iff]
    intro other hother
    by_cases hne : other = source
    · simp [hne]
    · have hkept := (Table.mem_keys_iff _ _).1 hother
      simp [Table.contains, hrest other hne, hkept]

end Served

section Tick

theorem get?_slots_tick (hn : (Table.keys a.slots).Nodup) (now : Time) (source : SocketAddress) :
    (a.tick now).2.slots.get? source =
      (a.slots.get? source).filter fun slot => !a.isStale now slot :=
  Table.get?_filter_eq hn _ _

theorem timedOutBy_eq (hn : (Table.keys a.slots).Nodup) (now : Time) :
    a.timedOutBy (.tick now) = (a.tick now).1 := by
  have hlost : ∀ entry ∈ a.slots,
      (!(a.tick now).2.slots.contains entry.1) = a.isStale now entry.2 := by
    intro entry hentry
    rw [Table.contains, get?_slots_tick hn, Table.get?_of_mem hn hentry, Option.filter]
    cases a.isStale now entry.2 <;> rfl
  have hlength := a.slots.length_eq_length_filter_add fun entry => a.isStale now entry.2
  rw [timedOutBy, lost, Table.keys, List.filter_map, List.length_map,
    List.filter_congr (q := fun entry => a.isStale now entry.2) hlost, tick]
  dsimp only
  omega

end Tick

section Run

theorem tally_concat (count : Assembler → Call → Nat) (a : Assembler) (calls : List Call)
    (call : Call) :
    tally count a (calls ++ [call]) = tally count a calls + count (a.run calls) call := by
  induction calls generalizing a with
  | nil => exact (Nat.zero_add _).symm
  | cons first calls ih =>
    rw [List.cons_append, tally, ih, ← Nat.add_assoc]
    rfl

theorem lastHeard?_concat (calls : List Call) (call : Call) (source : SocketAddress) :
    lastHeard? (calls ++ [call]) source = (call.heard? source).or (lastHeard? calls source) := by
  rw [lastHeard?, List.filterMap_append, List.getLast?_append]
  cases h : call.heard? source <;> simp [h, lastHeard?]

theorem exists_datagram_of_lastHeard? {time : Time} (h : lastHeard? calls source = some time) :
    ∃ bytes, .datagram time source bytes ∈ calls := by
  obtain ⟨call, hcall, hheard⟩ := List.mem_filterMap.1 (List.mem_of_getLast? h)
  cases call with
  | datagram now other bytes =>
    simp only [Call.heard?, Option.ite_none_right_eq_some, Option.some.injEq] at hheard
    obtain ⟨rfl, rfl⟩ := hheard
    exact ⟨bytes, hcall⟩
  | abandon other => cases hheard
  | tick now => cases hheard

/-- No two calls happen at one time. -/
theorem Increasing.eq_of_time? (h : Increasing calls) {first second : Call} {time : Time}
    (hfirst : first ∈ calls) (hsecond : second ∈ calls) (htime : first.time? = some time)
    (htime' : second.time? = some time) : first = second := by
  let Apart (c d : Call) : Prop := ∀ t, c.time? = some t → d.time? = some t → c = d
  have hsymm : Std.Symm Apart := ⟨fun c d hcd t hd hc => (hcd t hc hd).symm⟩
  have hpair : calls.Pairwise Apart := by
    refine (List.pairwise_filterMap.1 h).imp fun hcd t hc hd => ?_
    exact absurd (hcd t hc t hd) (Nat.lt_irrefl t)
  exact hpair.forall_of_forall (fun _ _ _ _ _ => rfl) hfirst hsecond time htime htime'

structure Sound (a : Assembler) (calls : List Call) : Prop where
  nodup : (Table.keys (a.run calls).slots).Nodup
  pending_le : (a.run calls).pending ≤ (a.run calls).capacity
  heard : ∀ source slot, (a.run calls).slots.get? source = some slot →
    lastHeard? calls source = some slot.lastActivity
  inProgress : ∀ source slot, (a.run calls).slots.get? source = some slot →
    slot.decoder.inProgress = true
  evicted : (a.run calls).stats.evicted = a.stats.evicted + tally evictedBy a calls
  timedOut : (a.run calls).stats.timedOut = a.stats.timedOut + tally timedOutBy a calls

theorem run_datagram (a : Assembler) (calls : List Call) (now : Time) (source : SocketAddress)
    (bytes : Bytes) : a.run (calls ++ [.datagram now source bytes]) =
      ((a.run calls).onFragment now source bytes).2 := run_concat _ _ _

theorem sound_of_nil (fresh : a.slots = []) : Sound a [] where
  nodup := by simp [run, fresh, Table.keys]
  pending_le := by simp [run, fresh, pending]
  heard := by simp [run, fresh]
  inProgress := by simp [run, fresh]
  evicted := rfl
  timedOut := rfl

theorem Sound.datagram (h : Sound a calls) (now : Time) (source : SocketAddress) (bytes : Bytes) :
    Sound a (calls ++ [.datagram now source bytes]) := by
  obtain ⟨gone, hserved, hevicted⟩ := served h.nodup h.pending_le now source bytes
  -- A slot that is there afterwards is the sender's, or it was there before.
  have hslot : ∀ other slot,
      ((a.run calls).onFragment now source bytes).2.slots.get? other = some slot →
      (other = source ∧ slot.lastActivity = now ∧ slot.decoder.inProgress = true) ∨
        (source ≠ other ∧ (a.run calls).slots.get? other = some slot) := by
    intro other slot hget
    by_cases hne : source = other
    · subst hne
      by_cases hanswer : ∃ request,
          (((a.run calls).decoderFor source).decode bytes).1 = .ok (.more request)
      · obtain ⟨request, hmore⟩ := hanswer
        obtain rfl := Option.some.inj ((hserved.get?_of_more hmore).symm.trans hget)
        exact .inl ⟨rfl, rfl, Decoder.inProgress_of_more hmore⟩
      · rw [hserved.get?_of_ended (not_exists.1 hanswer)] at hget
        cases hget
    · exact .inr ⟨hne, hserved.get?_of_ne hne hget⟩
  refine ⟨?_, ?_, ?_, ?_, ?_, ?_⟩
  all_goals rw [run_datagram]
  · exact hserved.nodup h.nodup
  · exact hserved.length_le h.nodup h.pending_le
  · intro other slot hget
    rw [lastHeard?_concat]
    rcases hslot other slot hget with ⟨rfl, rfl, -⟩ | ⟨hne, hold⟩
    · simp [Call.heard?]
    · simpa [Call.heard?, hne] using h.heard other slot hold
  · intro other slot hget
    rcases hslot other slot hget with ⟨-, -, hprogress⟩ | ⟨-, hold⟩
    · exact hprogress
    · exact h.inProgress other slot hold
  · rw [tally_concat, hevicted, h.evicted, hserved.evictedBy_eq h.nodup, Nat.add_assoc]
  · rw [tally_concat, ← Nat.add_assoc, ← h.timedOut]
    exact timedOut_onFragment _ _ _ _

/-- A call that brings no datagram does nothing to slots but to drop some. -/
theorem Sound.of_filter (h : Sound a calls) {p : SocketAddress × Slot → Bool}
    (hslots : (a.run (calls ++ [call])).slots = (a.run calls).slots.filter p)
    (hheard : ∀ source, call.heard? source = none)
    (hevicted : (a.run (calls ++ [call])).stats.evicted =
      (a.run calls).stats.evicted + (a.run calls).evictedBy call)
    (htimedOut : (a.run (calls ++ [call])).stats.timedOut =
      (a.run calls).stats.timedOut + (a.run calls).timedOutBy call) :
    Sound a (calls ++ [call]) := by
  have hold : ∀ source slot, (a.run (calls ++ [call])).slots.get? source = some slot →
      (a.run calls).slots.get? source = some slot := by
    intro source slot hget
    rw [hslots, Table.get?_filter_eq h.nodup, Option.filter_eq_some_iff] at hget
    exact hget.1
  refine ⟨?_, ?_, ?_, fun source slot hget => h.inProgress source slot (hold source slot hget),
    ?_, ?_⟩
  · rw [hslots]
    exact h.nodup.sublist (List.filter_sublist.map Prod.fst)
  · have hle := h.pending_le
    rw [capacity, (settings_run a calls).2.1] at hle
    rw [capacity, (settings_run a _).2.1, pending, hslots]
    exact Nat.le_trans (List.length_filter_le _ _) hle
  · intro source slot hget
    rw [lastHeard?_concat, hheard source]
    exact h.heard source slot (hold source slot hget)
  · rw [tally_concat, hevicted, h.evicted, Nat.add_assoc]
  · rw [tally_concat, htimedOut, h.timedOut, Nat.add_assoc]

theorem Sound.abandon (h : Sound a calls) (source : SocketAddress) :
    Sound a (calls ++ [.abandon source]) := by
  have hrun : a.run (calls ++ [.abandon source]) = ((a.run calls).abandon source).2 :=
    run_concat _ _ _
  obtain ⟨hevicted, htimedOut⟩ := removals_abandon (a.run calls) source
  exact h.of_filter (hrun ▸ slots_abandon _ _) (fun _ => rfl) (hrun ▸ hevicted) (hrun ▸ htimedOut)

theorem Sound.tick (h : Sound a calls) (now : Time) : Sound a (calls ++ [.tick now]) := by
  have hrun : a.run (calls ++ [.tick now]) = ((a.run calls).tick now).2 := run_concat _ _ _
  have hslots : ((a.run calls).tick now).2.slots =
      (a.run calls).slots.filter fun entry => !(a.run calls).isStale now entry.2 := rfl
  have htimedOut : ((a.run calls).tick now).2.stats.timedOut =
      (a.run calls).stats.timedOut + ((a.run calls).tick now).1 := rfl
  have hevicted : ((a.run calls).tick now).2.stats.evicted = (a.run calls).stats.evicted := rfl
  rw [← timedOutBy_eq h.nodup] at htimedOut
  exact h.of_filter (hrun ▸ hslots) (fun _ => rfl) (hrun ▸ hevicted) (hrun ▸ htimedOut)

theorem sound_run (fresh : a.slots = []) (calls : List Call) : Sound a calls := by
  induction calls using List.reverseRecOn with
  | nil => exact sound_of_nil fresh
  | append_singleton calls call ih =>
    cases call with
    | datagram now source bytes => exact ih.datagram now source bytes
    | abandon source => exact ih.abandon source
    | tick now => exact ih.tick now

end Run

section Fairness

theorem Sound.fair_datagram (h : Sound a calls) (increasing : Increasing calls) (now : Time)
    (source : SocketAddress) (bytes : Bytes) :
    (a.run calls).Fair (lastHeard? calls) (.datagram now source bytes) := by
  obtain ⟨gone, hserved, -⟩ := served h.nodup h.pending_le now source bytes
  refine ⟨onFragment_fst _ _ _ _, fun request hmore => hserved.get?_of_more hmore,
    hserved.get?_of_ended, fun hc => (hserved.of_not_crowded hc).2, fun hc => ?_⟩
  obtain ⟨-, victim, time, oldest, hgone, hrest⟩ := hserved.of_crowded hc
  obtain ⟨⟨slot, hmem, rfl⟩, hle⟩ := stalest?_le oldest
  have hvictim := h.heard victim slot (Table.get?_of_mem h.nodup hmem)
  refine ⟨victim, slot.lastActivity, List.mem_map_of_mem hmem, hvictim, hgone,
    fun other hsource hne => ⟨hrest other hsource hne, fun hother => ?_⟩⟩
  obtain ⟨entry, hentry, rfl⟩ := List.mem_map.1 hother
  have hheard := h.heard entry.1 entry.2 (Table.get?_of_mem h.nodup hentry)
  -- Two that were heard last at one time would be one.
  refine ⟨entry.2.lastActivity, hheard, Nat.lt_of_le_of_ne (hle entry hentry) fun hsame => ?_⟩
  obtain ⟨wire, hwire⟩ := exists_datagram_of_lastHeard? hvictim
  obtain ⟨wire', hwire'⟩ := exists_datagram_of_lastHeard? hheard
  have hcall := increasing.eq_of_time? hwire hwire' rfl (hsame ▸ rfl)
  exact hne (Call.datagram.inj hcall).2.1.symm

theorem fair_abandon (a : Assembler) (heard : SocketAddress → Option Time)
    (source : SocketAddress) : a.Fair heard (.abandon source) := by
  refine ⟨?_, fun other => ?_⟩
  · unfold Assembler.abandon
    split
    · exact Eq.symm ‹_›
    · exact (Bool.eq_false_iff.2 ‹_›).symm
  · rw [slots_abandon, Table.get?_erase]

theorem Sound.idle_eq (h : Sound a calls) {slot : Slot}
    (hslot : (a.run calls).slots.get? source = some slot) (now : Time) :
    (a.run calls).idle (lastHeard? calls) now source = (a.run calls).isStale now slot := by
  rw [idle, h.heard source slot hslot]
  rfl

theorem Sound.fair_tick (h : Sound a calls) (now : Time) :
    (a.run calls).Fair (lastHeard? calls) (.tick now) := by
  have hafter : ∀ source, ((a.run calls).tick now).2.slots.get? source =
      if (a.run calls).idle (lastHeard? calls) now source then none
      else (a.run calls).slots.get? source := by
    intro source
    rw [get?_slots_tick h.nodup]
    cases hslot : (a.run calls).slots.get? source with
    | none => exact (ite_self _).symm
    | some slot =>
      rw [h.idle_eq hslot, Option.filter]
      cases (a.run calls).isStale now slot <;> rfl
  refine ⟨hafter, ?_⟩
  rw [← timedOutBy_eq h.nodup, timedOutBy, lost]
  refine congrArg List.length (List.filter_congr fun source hsource => ?_)
  have hslot := (Table.mem_keys_iff _ _).1 hsource
  rw [Table.contains, hafter]
  cases (a.run calls).idle (lastHeard? calls) now source <;> simp [hslot]

theorem Sound.fair (h : Sound a calls) (increasing : Increasing calls) (call : Call) :
    (a.run calls).Fair (lastHeard? calls) call := by
  cases call with
  | datagram now source bytes => exact h.fair_datagram increasing now source bytes
  | abandon source => exact fair_abandon _ _ source
  | tick now => exact h.fair_tick now

/-- The slots are those of the senders with a transfer in progress. -/
theorem Sound.pending_eq (h : Sound a calls) :
    (a.run calls).pending =
      ((senders calls).filter fun source =>
        ((a.run calls).decoderFor source).inProgress).length := by
  have hperm : (Table.keys (a.run calls).slots).Perm
      ((senders calls).filter fun source => ((a.run calls).decoderFor source).inProgress) := by
    refine (List.perm_ext_iff_of_nodup h.nodup ((List.nodup_dedup _).filter _)).2 fun source => ?_
    rw [List.mem_filter, Table.mem_keys_iff, Option.isSome_iff_exists]
    constructor
    · rintro ⟨slot, hslot⟩
      obtain ⟨bytes, hcall⟩ := exists_datagram_of_lastHeard? (h.heard source slot hslot)
      refine ⟨List.mem_dedup.2 (List.mem_filterMap.2 ⟨_, hcall, rfl⟩), ?_⟩
      rw [decoderFor, hslot]
      exact h.inProgress source slot hslot
    · rintro ⟨-, hprogress⟩
      cases hslot : (a.run calls).slots.get? source with
      | none => simp [decoderFor, hslot, Decoder.inProgress] at hprogress
      | some slot => exact ⟨slot, rfl⟩
  rw [pending, ← Table.length_keys, hperm.length_eq]

theorem Increasing.of_append {later : List Call} (h : Increasing (calls ++ later)) :
    Increasing calls :=
  h.sublist ((List.sublist_append_left calls later).filterMap _)

/-- There are never more slots than allowed, each with a transfer in progress; every call treats
them fairly; and the statistics tell how many were lost, and to what. -/
theorem slots_fair (fresh : a.slots = []) (unused : a.stats = {})
    (increasing : Increasing calls) :
    (a.run calls).maxPending = a.maxPending ∧ (a.run calls).timeout = a.timeout ∧
    (a.run calls).pending ≤ max 1 a.maxPending ∧
    (∀ entry ∈ (a.run calls).slots, entry.2.decoder.inProgress = true) ∧
    (a.run calls).pending =
      ((senders calls).filter fun source =>
        ((a.run calls).decoderFor source).inProgress).length ∧
    (a.run calls).stats.evicted = tally evictedBy a calls ∧
    (a.run calls).stats.timedOut = tally timedOutBy a calls ∧
    ∀ before call after, calls = before ++ call :: after →
      (a.run before).Fair (lastHeard? before) call := by
  have h := sound_run fresh calls
  obtain ⟨-, hmaxPending, htimeout⟩ := settings_run a calls
  refine ⟨hmaxPending, htimeout, ?_, ?_, h.pending_eq, ?_, ?_, ?_⟩
  · have hle := h.pending_le
    rwa [capacity, hmaxPending, Nat.max_comm] at hle
  · intro entry hentry
    exact h.inProgress entry.1 entry.2 (Table.get?_of_mem h.nodup hentry)
  · rw [h.evicted, unused, Nat.zero_add]
  · rw [h.timedOut, unused, Nat.zero_add]
  · rintro before call after rfl
    exact (sound_run fresh before).fair increasing.of_append call

/-- A box that is to have no slot at all gets one. -/
def narrowBox : Assembler := { letterBox with maxPending := 0 }

def narrowCalls : List Call :=
  [.datagram 0 firstSender (Decoder.letterWire 0), .datagram 1 secondSender (Decoder.letterWire 0)]

theorem slots_narrowBox_first :
    (narrowBox.run (narrowCalls.take 1)).slots = [(firstSender, ⟨Decoder.halfLetter, 0⟩)] := by
  have hrun : narrowBox.run (narrowCalls.take 1) =
      ((narrowBox.run []).onFragment 0 firstSender (Decoder.letterWire 0)).2 :=
    run_datagram _ [] _ _ _
  have hempty : narrowBox.run [] = narrowBox := rfl
  have hdecode : (narrowBox.decoderFor firstSender).decode (Decoder.letterWire 0) =
      (.ok (.more ⟨"7f", 4000⟩), Decoder.halfLetter) := Decoder.decode_letter_first
  have hroom : makeRoom narrowBox.capacity narrowBox.slots = ([], 0) :=
    makeRoom_of_lt (by decide)
  rw [hrun, hempty, slots_onFragment, hdecode, settle_more, hroom]
  rfl

theorem crowded_narrowBox :
    (narrowBox.run (narrowCalls.take 1)).Crowded secondSender (Decoder.letterWire 0) := by
  have hslots := slots_narrowBox_first
  have hnone : (narrowBox.run (narrowCalls.take 1)).slots.get? secondSender = none := by
    rw [hslots]
    rfl
  have hlimit : (narrowBox.run (narrowCalls.take 1)).limit = 3 := (settings_run _ _).1
  refine ⟨hnone, ?_, ⟨"7f", 4000⟩, ?_⟩
  · rw [pending, hslots, capacity, (settings_run _ _).2.1]
    rfl
  · rw [decoderFor_of_none hnone, hlimit, Decoder.decode_letter_first]

theorem slots_fair_narrowBox :
    narrowBox.slots = [] ∧ narrowBox.stats = {} ∧ Increasing narrowCalls ∧
      (narrowBox.run narrowCalls).pending ≤ 1 ∧
      (narrowBox.run narrowCalls).slots.get? firstSender = none ∧
      ((narrowBox.run narrowCalls).slots.get? secondSender).isSome = true := by
  have hincreasing : Increasing narrowCalls := by simp [Increasing, narrowCalls, Call.time?]
  have hrun : narrowBox.run narrowCalls = ((narrowBox.run (narrowCalls.take 1)).onFragment 1
      secondSender (Decoder.letterWire 0)).2 := run_datagram _ (narrowCalls.take 1) _ _ _
  obtain ⟨-, -, hpending, -, -, -, -, hfair⟩ := slots_fair (a := narrowBox) rfl rfl hincreasing
  obtain ⟨-, hmore, -, -, hcrowded⟩ :=
    hfair (narrowCalls.take 1) (.datagram 1 secondSender (Decoder.letterWire 0)) [] rfl
  obtain ⟨-, -, request, hrequest⟩ := crowded_narrowBox
  obtain ⟨victim, time, hvictim, -, hgone, -⟩ := hcrowded crowded_narrowBox
  rw [slots_narrowBox_first] at hvictim
  obtain rfl : victim = firstSender := List.mem_singleton.1 hvictim
  refine ⟨rfl, rfl, hincreasing, hpending, hrun ▸ hgone, ?_⟩
  rw [hrun, hmore request hrequest, Option.isSome_some]

end Fairness

end Assembler

end MultimediaMessaging
