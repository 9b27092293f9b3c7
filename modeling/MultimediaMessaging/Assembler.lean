import MultimediaMessaging.Clock
import MultimediaMessaging.Fragment.Decoder
import MultimediaMessaging.Network.Address
import MultimediaMessaging.Table

/-!
Putting fragments of many senders together. Each sender with a transfer in progress has a slot of
its own; when the slots run out, a new sender takes the one that was silent longest.
-/

set_option autoImplicit false

namespace MultimediaMessaging

open Text

structure Slot where
  decoder : Decoder
  lastActivity : Time
  deriving DecidableEq, Repr

structure AssemblerStats where
  fragments : Nat := 0
  completed : Nat := 0
  aborted : Nat := 0
  timedOut : Nat := 0
  evicted : Nat := 0
  deriving DecidableEq, Repr

/-- `limit` bounds the length of a message and `timeout` the silence of a sender. -/
structure Assembler where
  maxPending : Nat
  timeout : Time
  limit : Nat
  slots : Table SocketAddress Slot := []
  stats : AssemblerStats := {}
  deriving DecidableEq, Repr

namespace Assembler

def pending (a : Assembler) : Nat := a.slots.length

/-- At least one slot is kept, whatever the configuration says. -/
def capacity (a : Assembler) : Nat := max a.maxPending 1

def stalest? : Table SocketAddress Slot → Option (SocketAddress × Time)
  | [] => none
  | (source, slot) :: rest =>
    match stalest? rest with
    | some (other, time) =>
      if time < slot.lastActivity then some (other, time) else some (source, slot.lastActivity)
    | none => some (source, slot.lastActivity)

theorem mem_keys_of_stalest? {slots : Table SocketAddress Slot} {source : SocketAddress}
    {time : Time} (h : stalest? slots = some (source, time)) : source ∈ slots.map Prod.fst := by
  induction slots generalizing source time with
  | nil => simp [stalest?] at h
  | cons entry rest ih =>
    unfold stalest? at h
    cases hr : stalest? rest with
    | none => simp [hr] at h; simp [h.1]
    | some p =>
      obtain ⟨other, t⟩ := p
      simp only [hr] at h
      split at h
      · simp only [Option.some.injEq, Prod.mk.injEq] at h
        have := ih hr
        simp [← h.1, this]
      · simp only [Option.some.injEq, Prod.mk.injEq] at h
        simp [← h.1]

/-- Frees slots until one is left for a new sender; gives how many went. -/
def makeRoom (capacity : Nat) (slots : Table SocketAddress Slot) :
    Table SocketAddress Slot × Nat :=
  if slots.length < capacity then (slots, 0)
  else
    match _oldest : stalest? slots with
    | none => (slots, 0)
    | some (source, _) =>
      let (kept, gone) := makeRoom capacity (slots.erase source)
      (kept, gone + 1)
  termination_by slots.length
  decreasing_by
    refine List.length_filter_lt_length_iff_exists.2 ?_
    obtain ⟨entry, hm, he⟩ := List.mem_map.1 (mem_keys_of_stalest? _oldest)
    exact ⟨entry, hm, by simp [he]⟩

def count (result : Except DecodeError Progress) (s : AssemblerStats) : AssemblerStats :=
  match result with
  | .ok (.complete _) => { s with completed := s.completed + 1 }
  | .ok (.more _) => s
  | .error _ => { s with aborted := s.aborted + 1 }

/-- The slots and the number of evictions after `source` was answered `result`. -/
def settle (a : Assembler) (now : Time) (source : SocketAddress)
    (result : Except DecodeError Progress) (decoder : Decoder) : Table SocketAddress Slot × Nat :=
  match result with
  | .ok (.more _) =>
    if a.slots.contains source then (a.slots.put source ⟨decoder, now⟩, 0)
    else
      let (kept, gone) := makeRoom a.capacity a.slots
      (kept.put source ⟨decoder, now⟩, gone)
  | _ => (a.slots.erase source, 0)

def onFragment (a : Assembler) (now : Time) (source : SocketAddress) (datagram : Bytes) :
    Except DecodeError Progress × Assembler :=
  let before := match a.slots.get? source with
    | some slot => slot.decoder
    | none => { limit := a.limit }
  let (result, decoder) := before.decode datagram
  let (slots, gone) := a.settle now source result decoder
  let stats := count result
    { a.stats with fragments := a.stats.fragments + 1, evicted := a.stats.evicted + gone }
  (result, { a with slots, stats })

def abandon (a : Assembler) (source : SocketAddress) : Bool × Assembler :=
  if a.slots.contains source then
    (true, { a with
      slots := a.slots.erase source
      stats := { a.stats with aborted := a.stats.aborted + 1 } })
  else (false, a)

def isStale (a : Assembler) (now : Time) (slot : Slot) : Bool :=
  a.timeout < now - slot.lastActivity

/-- Drops the transfers whose senders have been silent for longer than the timeout; gives their
number. -/
def tick (a : Assembler) (now : Time) : Nat × Assembler :=
  let kept := a.slots.filter fun entry => !a.isStale now entry.2
  let gone := a.slots.length - kept.length
  (gone, { a with slots := kept, stats := { a.stats with timedOut := a.stats.timedOut + gone } })

end Assembler

end MultimediaMessaging
