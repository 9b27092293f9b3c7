import Mathlib.Data.List.Induction
import Mathlib.Data.List.Perm.Subperm
import MultimediaMessaging.Proofs.Assembly
import MultimediaMessaging.Proofs.Fragment.RoundTrip

/-!
Many senders at one assembler that has a slot for each of them. Main statement: every datagram is
answered as by a decoder that its sender has to itself, and that decoder is as good as new whenever
the transfer has ended.
-/

set_option autoImplicit false

namespace MultimediaMessaging

open Text

namespace Decoder

variable {d : Decoder}

theorem limit_apply (call : Call) : (d.apply call).limit = d.limit := by
  cases call with
  | abandon => rfl
  | decode datagram =>
    cases d.outcome datagram <;> rename_i result <;> simp [apply, result, abandon]

theorem limit_run (calls : List Call) : (d.run calls).limit = d.limit := by
  induction calls generalizing d with
  | nil => rfl
  | cons call calls ih => exact ih.trans (limit_apply call)

end Decoder

namespace Assembler

inductive Call where
  | datagram (now : Time) (source : SocketAddress) (bytes : Bytes)
  | abandon (source : SocketAddress)
  | tick (now : Time)
  deriving DecidableEq, Repr

namespace Call

def sender? : Call → Option SocketAddress
  | .datagram _ source _ => some source
  | _ => none

def toward (source : SocketAddress) : Call → Option Decoder.Call
  | .datagram _ other bytes => if other = source then some (.decode bytes) else none
  | .abandon other => if other = source then some .abandon else none
  | .tick _ => none

end Call

def apply (a : Assembler) : Call → Assembler
  | .datagram now source bytes => (a.onFragment now source bytes).2
  | .abandon source => (a.abandon source).2
  | .tick now => (a.tick now).2

def run (a : Assembler) (calls : List Call) : Assembler := calls.foldl apply a

def Lasting (a : Assembler) (calls : List Call) : Prop :=
  ∀ before now after, calls = before ++ .tick now :: after → ((a.run before).tick now).1 = 0

/-- The call gives up the transfer of `source`, or ends it with an error or a message. -/
def Ends (a : Assembler) (source : SocketAddress) : Call → Prop
  | .datagram now other bytes =>
    other = source ∧ ∀ request, (a.onFragment now other bytes).1 ≠ .ok (.more request)
  | .abandon other => other = source
  | .tick _ => False

/-- The decoder that `source` would have to itself. -/
def alone (a : Assembler) (source : SocketAddress) (calls : List Call) : Decoder :=
  Decoder.run { limit := a.limit } (calls.filterMap (Call.toward source))

variable {a : Assembler} {source other : SocketAddress} {calls : List Call} {call : Call}
  {sources : List SocketAddress}

theorem run_concat (a : Assembler) (calls : List Call) (call : Call) :
    a.run (calls ++ [call]) = (a.run calls).apply call := by
  simp [run]

theorem limit_alone (a : Assembler) (source : SocketAddress) (calls : List Call) :
    (a.alone source calls).limit = a.limit := Decoder.limit_run _

theorem alone_append (a : Assembler) (source : SocketAddress) (earlier later : List Call) :
    a.alone source (earlier ++ later) =
      (a.alone source earlier).run (later.filterMap (Call.toward source)) := by
  simp only [alone, Decoder.run, List.filterMap_append, List.foldl_append]

theorem alone_datagram_self (now : Time) (bytes : Bytes) :
    a.alone source (calls ++ [.datagram now source bytes]) =
      ((a.alone source calls).decode bytes).2 := by
  simp [alone_append, Call.toward, Decoder.run, Decoder.apply]

theorem alone_datagram_ne (h : source ≠ other) (now : Time) (bytes : Bytes) :
    a.alone other (calls ++ [.datagram now source bytes]) = a.alone other calls := by
  simp [alone_append, Call.toward, Decoder.run, h]

theorem alone_abandon_self :
    a.alone source (calls ++ [.abandon source]) = { limit := a.limit } := by
  simp [alone_append, Call.toward, Decoder.run, Decoder.apply, Decoder.abandon, limit_alone]

theorem alone_abandon_ne (h : source ≠ other) :
    a.alone other (calls ++ [.abandon source]) = a.alone other calls := by
  simp [alone_append, Call.toward, Decoder.run, h]

theorem alone_tick (now : Time) :
    a.alone source (calls ++ [.tick now]) = a.alone source calls := by
  rw [alone_append]
  rfl

theorem decoderFor_of_get? {b : Assembler} (hslot : b.slots.get? source = a.slots.get? source)
    (hlimit : b.limit = a.limit) : b.decoderFor source = a.decoderFor source := by
  simp only [decoderFor, hslot, hlimit]

theorem decoderFor_of_none (h : a.slots.get? source = none) :
    a.decoderFor source = { limit := a.limit } := by
  simp only [decoderFor, h]

theorem makeRoom_of_lt {capacity : Nat} {slots : Table SocketAddress Slot}
    (h : slots.length < capacity) : makeRoom capacity slots = (slots, 0) := by
  rw [makeRoom, if_pos h]

/-- With a slot to spare, or none needed, nobody else's slot is touched. -/
theorem get?_slots_onFragment_ne {now : Time} {bytes : Bytes} (hne : source ≠ other)
    (hroom : ∀ request, ((a.decoderFor source).decode bytes).1 = .ok (.more request) →
      a.slots.get? source = none → a.slots.length < a.capacity) :
    (a.onFragment now source bytes).2.slots.get? other = a.slots.get? other := by
  rw [slots_onFragment]
  match hresult : ((a.decoderFor source).decode bytes).1 with
  | .ok (.more request) =>
    rw [settle_more, Table.get?_put_ne _ _ hne]
    by_cases hslot : a.slots.get? source = none
    · simp [makeRoom_of_lt (hroom request hresult hslot)]
    · have hin : a.slots.contains source = true := Option.isSome_iff_ne_none.2 hslot
      rw [if_pos hin]
  | .ok (.complete m) => exact Table.get?_erase_ne _ hne
  | .error err => exact Table.get?_erase_ne _ hne

theorem decoderFor_onFragment_self {now : Time} {bytes : Bytes}
    (hlimit : (a.decoderFor source).limit = a.limit) :
    (a.onFragment now source bytes).2.decoderFor source =
      ((a.decoderFor source).decode bytes).2 := by
  have hslots := slots_onFragment a now source bytes
  match hresult : ((a.decoderFor source).decode bytes).1 with
  | .ok (.more request) =>
    rw [hresult, settle_more] at hslots
    simp [decoderFor, hslots]
  | .ok (.complete m) =>
    rw [hresult] at hslots
    have hempty : (a.onFragment now source bytes).2.slots.get? source = none :=
      hslots ▸ Table.get?_erase_self _ _
    rw [Decoder.decode_snd_of_not_more (by simp [hresult]), decoderFor_of_none hempty,
      Decoder.abandon, hlimit]
    rfl
  | .error err =>
    rw [hresult] at hslots
    have hempty : (a.onFragment now source bytes).2.slots.get? source = none :=
      hslots ▸ Table.get?_erase_self _ _
    rw [Decoder.decode_snd_of_not_more (by simp [hresult]), decoderFor_of_none hempty,
      Decoder.abandon, hlimit]
    rfl

/-- Every sender is served as if alone, and no slot is anyone else's. -/
structure Separate (a : Assembler) (sources : List SocketAddress) (calls : List Call) : Prop where
  limit : (a.run calls).limit = a.limit
  maxPending : (a.run calls).maxPending = a.maxPending
  nodup : (Table.keys (a.run calls).slots).Nodup
  known : ∀ source ∈ Table.keys (a.run calls).slots, source ∈ sources
  alone : ∀ source, (a.run calls).decoderFor source = a.alone source calls

theorem settings_apply (a : Assembler) (call : Call) :
    (a.apply call).limit = a.limit ∧ (a.apply call).maxPending = a.maxPending ∧
      (a.apply call).timeout = a.timeout := by
  cases call with
  | datagram now source bytes => exact ⟨rfl, rfl, rfl⟩
  | abandon source => simp only [apply, abandon]; split <;> exact ⟨rfl, rfl, rfl⟩
  | tick now => exact ⟨rfl, rfl, rfl⟩

theorem nodup_keys_onFragment {now : Time} {bytes : Bytes} (h : (Table.keys a.slots).Nodup)
    (hroom : a.slots.get? source = none → a.slots.length < a.capacity) :
    (Table.keys (a.onFragment now source bytes).2.slots).Nodup := by
  rw [slots_onFragment]
  match hresult : ((a.decoderFor source).decode bytes).1 with
  | .ok (.more request) =>
    rw [settle_more]
    refine Table.nodup_keys_put ?_ _ _
    by_cases hslot : a.slots.get? source = none
    · simpa [makeRoom_of_lt (hroom hslot)] using h
    · rwa [if_pos (show a.slots.contains source = true from Option.isSome_iff_ne_none.2 hslot)]
  | .ok (.complete m) => exact Table.nodup_keys_erase h _
  | .error err => exact Table.nodup_keys_erase h _

theorem slots_abandon (a : Assembler) (source : SocketAddress) :
    (a.abandon source).2.slots = a.slots.erase source := by
  simp only [abandon]
  split
  · rfl
  · rename_i hnone
    have hkeys : source ∉ Table.keys a.slots := by
      simpa [Table.mem_keys_iff, Table.contains] using hnone
    refine (List.filter_eq_self.2 fun entry hentry => ?_).symm
    exact decide_eq_true fun hkey => hkeys (hkey ▸ List.mem_map_of_mem hentry)

theorem slots_tick_of_zero {now : Time} (h : (a.tick now).1 = 0) :
    (a.tick now).2.slots = a.slots := by
  simp only [tick] at h ⊢
  have hlength := List.length_filter_le (fun entry => !a.isStale now entry.2) a.slots
  exact List.filter_eq_self.2 (List.length_filter_eq_length_iff.1 (by omega))

/-- The senders are too few to fill every slot while one of them has none. -/
theorem Separate.room (h : Separate a sources calls) (hroom : sources.length ≤ a.capacity)
    (hsource : source ∈ sources) (hnone : (a.run calls).slots.get? source = none) :
    (a.run calls).slots.length < (a.run calls).capacity := by
  have hnew : source ∉ Table.keys (a.run calls).slots := by simp [Table.mem_keys_iff, hnone]
  have hnodup : (source :: Table.keys (a.run calls).slots).Nodup :=
    List.nodup_cons.2 ⟨hnew, h.nodup⟩
  have hsubset : source :: Table.keys (a.run calls).slots ⊆ sources :=
    List.cons_subset.2 ⟨hsource, h.known⟩
  have hlength := (hnodup.subperm hsubset).length_le
  simp only [Table.keys, List.length_cons, List.length_map] at hlength
  simp only [capacity, h.maxPending] at hroom ⊢
  omega

theorem Separate.datagram (h : Separate a sources calls) (hroom : sources.length ≤ a.capacity)
    (now : Time) (bytes : Bytes) (hsource : source ∈ sources) :
    Separate a sources (calls ++ [.datagram now source bytes]) := by
  have hspare := h.room hroom hsource
  have hrun : a.run (calls ++ [.datagram now source bytes]) =
      ((a.run calls).onFragment now source bytes).2 := run_concat _ _ _
  refine ⟨?_, ?_, ?_, ?_, ?_⟩
  all_goals rw [hrun]
  · exact h.limit
  · exact h.maxPending
  · exact nodup_keys_onFragment h.nodup hspare
  · intro s hs
    obtain ⟨entry, hentry, rfl⟩ := List.mem_map.1 hs
    rcases mem_slots_onFragment hentry with hold | ⟨-, rfl⟩
    · exact h.known _ (List.mem_map_of_mem hold)
    · exact hsource
  · intro s
    by_cases hs : source = s
    · subst hs
      rw [alone_datagram_self, ← h.alone source]
      refine decoderFor_onFragment_self ?_
      rw [h.alone source, limit_alone, h.limit]
    · rw [alone_datagram_ne hs, ← h.alone s]
      exact decoderFor_of_get? (get?_slots_onFragment_ne hs fun _ _ => hspare) rfl

theorem Separate.abandon (h : Separate a sources calls) (source : SocketAddress) :
    Separate a sources (calls ++ [.abandon source]) := by
  have hrun : a.run (calls ++ [.abandon source]) = ((a.run calls).abandon source).2 :=
    run_concat _ _ _
  have hslots := slots_abandon (a.run calls) source
  obtain ⟨hlimit, hmaxPending, -⟩ := settings_apply (a.run calls) (.abandon source)
  refine ⟨?_, ?_, ?_, ?_, ?_⟩
  all_goals rw [hrun]
  · exact hlimit.trans h.limit
  · exact hmaxPending.trans h.maxPending
  · rw [hslots]
    exact Table.nodup_keys_erase h.nodup _
  · intro s hs
    obtain ⟨entry, hentry, rfl⟩ := List.mem_map.1 hs
    exact h.known _ (List.mem_map_of_mem (mem_slots_abandon hentry))
  · intro s
    by_cases hs : source = s
    · subst hs
      have hnone : ((a.run calls).abandon source).2.slots.get? source = none := by
        rw [hslots, Table.get?_erase_self]
      rw [alone_abandon_self, decoderFor_of_none hnone]
      exact congrArg (Decoder.mk · none) (hlimit.trans h.limit)
    · rw [alone_abandon_ne hs, ← h.alone s]
      exact decoderFor_of_get? (by rw [hslots, Table.get?_erase_ne _ hs]) hlimit

theorem Separate.tick (h : Separate a sources calls) {now : Time}
    (hlasting : ((a.run calls).tick now).1 = 0) : Separate a sources (calls ++ [.tick now]) := by
  have hrun : a.run (calls ++ [.tick now]) = ((a.run calls).tick now).2 := run_concat _ _ _
  have hslots := slots_tick_of_zero hlasting
  refine ⟨?_, ?_, ?_, ?_, ?_⟩
  all_goals rw [hrun]
  · exact h.limit
  · exact h.maxPending
  · rw [hslots]
    exact h.nodup
  · rw [hslots]
    exact h.known
  · intro s
    rw [alone_tick, ← h.alone s]
    exact decoderFor_of_get? (by rw [hslots]) rfl

theorem separate_of_nil (fresh : a.slots = []) : Separate a sources [] where
  limit := rfl
  maxPending := rfl
  nodup := by simp [run, fresh, Table.keys]
  known := by simp [run, fresh, Table.keys]
  alone source := decoderFor_of_none (by simp [run, fresh])

theorem Lasting.of_append {later : List Call} (h : a.Lasting (calls ++ later)) :
    a.Lasting calls := by
  intro before now after hcalls
  exact h before now (after ++ later) (by simp [hcalls])

theorem separate_run (fresh : a.slots = []) (room : sources.length ≤ a.capacity)
    (known : ∀ call ∈ calls, ∀ source ∈ call.sender?, source ∈ sources)
    (lasting : a.Lasting calls) : Separate a sources calls := by
  induction calls using List.reverseRecOn with
  | nil => exact separate_of_nil fresh
  | append_singleton calls call ih =>
    have h := ih (fun c hc => known c (List.mem_append_left _ hc)) lasting.of_append
    cases call with
    | datagram now source bytes =>
      exact h.datagram room now bytes (known _ List.mem_concat_self source rfl)
    | abandon source => exact h.abandon source
    | tick now => exact h.tick (lasting calls now [] rfl)

theorem alone_of_ends {earlier later : List Call} {last : Call}
    (h : Separate a sources earlier) (hends : (a.run earlier).Ends source last) :
    a.alone source (earlier ++ last :: later) = a.alone source later := by
  have hfresh : a.alone source (earlier ++ [last]) = { limit := a.limit } := by
    cases last with
    | datagram now other bytes =>
      obtain ⟨rfl, hmore⟩ := hends
      simp only [onFragment_fst, h.alone] at hmore
      rw [alone_datagram_self, Decoder.decode_snd_of_not_more hmore, Decoder.abandon, limit_alone]
    | abandon other =>
      obtain rfl : other = source := hends
      exact alone_abandon_self
    | tick now => exact absurd hends id
  rw [List.append_cons, alone_append, hfresh]
  rfl

/-- Every datagram is answered as by a decoder that was given the datagrams of its sender alone, or
only those since the last transfer of its sender ended. -/
theorem answer_eq_alone (fresh : a.slots = []) (room : sources.length ≤ a.capacity)
    (known : ∀ call ∈ calls, ∀ source ∈ call.sender?, source ∈ sources)
    (lasting : a.Lasting calls) {before after : List Call} {now : Time} {bytes : Bytes}
    (hcalls : calls = before ++ .datagram now source bytes :: after) :
    ((a.run before).onFragment now source bytes).1 = ((a.alone source before).decode bytes).1 ∧
      ∀ earlier last later, before = earlier ++ last :: later →
        (a.run earlier).Ends source last →
          ((a.run before).onFragment now source bytes).1 =
            ((a.alone source later).decode bytes).1 := by
  subst hcalls
  have hseparate := separate_run fresh room
    (fun call hcall => known call (List.mem_append_left _ hcall)) lasting.of_append
  have hanswer : ((a.run before).onFragment now source bytes).1 =
      ((a.alone source before).decode bytes).1 := by
    rw [onFragment_fst, hseparate.alone]
  refine ⟨hanswer, ?_⟩
  rintro earlier last later rfl hends
  have hearlier := separate_run fresh room
    (fun call hcall => known call (by simp [hcall])) (lasting.of_append.of_append)
  rw [hanswer, alone_of_ends hearlier hends]

section Letter

theorem settings_run (a : Assembler) (calls : List Call) :
    (a.run calls).limit = a.limit ∧ (a.run calls).maxPending = a.maxPending ∧
      (a.run calls).timeout = a.timeout := by
  induction calls using List.reverseRecOn with
  | nil => exact ⟨rfl, rfl, rfl⟩
  | append_singleton calls call ih =>
    obtain ⟨hlimit, hmaxPending, htimeout⟩ := settings_apply (a.run calls) call
    rw [run_concat]
    exact ⟨hlimit.trans ih.1, hmaxPending.trans ih.2.1, htimeout.trans ih.2.2⟩

theorem tick_eq_zero {now : Time} (h : now ≤ a.timeout) : (a.tick now).1 = 0 := by
  have hkept : (a.slots.filter fun entry => !a.isStale now entry.2) = a.slots := by
    refine List.filter_eq_self.2 fun entry _ => ?_
    simp only [isStale, Bool.not_eq_true', decide_eq_false_iff_not]
    exact Nat.not_lt.2 (Nat.le_trans (Nat.sub_le _ _) h)
  simp [tick, hkept]

def firstSender : SocketAddress := { ip := .v4 10 0 0 1, port := 4000 }

def secondSender : SocketAddress := { ip := .v4 10 0 0 2, port := 4000 }

def letterBox : Assembler := { maxPending := 2, timeout := milliseconds 30000, limit := 3 }

def letterCalls : List Call :=
  [.datagram 0 firstSender (Decoder.letterWire 0), .datagram 1 secondSender (Decoder.letterWire 0),
    .tick 2, .abandon secondSender, .datagram 3 firstSender (Decoder.letterWire 1)]

theorem lasting_letterCalls : letterBox.Lasting letterCalls := by
  intro before now after hcalls
  have hmem : Call.tick now ∈ letterCalls := by simp [hcalls]
  have hnow : now = 2 := by simpa [letterCalls] using hmem
  refine tick_eq_zero ?_
  rw [(settings_run _ _).2.2, hnow]
  decide

theorem answer_letter :
    letterBox.slots = [] ∧ [firstSender, secondSender].length ≤ letterBox.capacity ∧
      letterBox.Lasting letterCalls ∧
      ((letterBox.run (letterCalls.take 4)).onFragment 3 firstSender (Decoder.letterWire 1)).1 =
        .ok (.complete (Decoder.letterEncoder.message Decoder.letter)) := by
  refine ⟨rfl, by decide, lasting_letterCalls, ?_⟩
  have hroom : [firstSender, secondSender].length ≤ letterBox.capacity := by decide
  have hcalls : letterCalls =
      letterCalls.take 4 ++ [.datagram 3 firstSender (Decoder.letterWire 1)] := rfl
  have halone := (answer_eq_alone rfl hroom (by simp [letterCalls, Call.sender?])
    lasting_letterCalls hcalls).1
  have happ := Encoder.readApp?_eq Decoder.legible_letter (by decide)
  obtain ⟨hrun, -⟩ :=
    Decoder.run_fragments Decoder.printed_letter rfl happ (Nat.le_refl 3) 0 (by decide)
  have hfirst : letterBox.alone firstSender (letterCalls.take 4) =
      ⟨3, some (Decoder.letterEncoder.transfer Decoder.letter ⟨4000, "7f"⟩ "chat" 2 0)⟩ := hrun
  have hlast := Decoder.decode_last
    (d := ⟨3, some (Decoder.letterEncoder.transfer Decoder.letter ⟨4000, "7f"⟩ "chat" 2 0)⟩)
    (Decoder.printed_letter 1 (by decide)) rfl rfl rfl
  have hmessage : Decoder.letterEncoder.readMessage Decoder.letter "chat" =
      Decoder.letterEncoder.message Decoder.letter :=
    Encoder.readMessage_eq Decoder.legible_letter (by decide)
  rw [halone, hfirst, hlast, hmessage]

end Letter

end Assembler

end MultimediaMessaging
