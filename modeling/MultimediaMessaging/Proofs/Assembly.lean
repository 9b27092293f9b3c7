import MultimediaMessaging.Assembler
import MultimediaMessaging.Proofs.Fragment.Run
import MultimediaMessaging.Proofs.Table

/-!
What one datagram does to the slots of an assembler: the slot of its sender holds what the decoder
made of it, and no other sender gains anything.
-/

set_option autoImplicit false

namespace MultimediaMessaging

open Text

namespace Assembler

variable {a : Assembler} {now : Time} {source : SocketAddress} {datagram : Bytes}
  {entry : SocketAddress × Slot}

def decoderFor (a : Assembler) (source : SocketAddress) : Decoder :=
  match a.slots.get? source with
  | some slot => slot.decoder
  | none => { limit := a.limit }

theorem onFragment_fst (a : Assembler) (now : Time) (source : SocketAddress) (datagram : Bytes) :
    (a.onFragment now source datagram).1 = ((a.decoderFor source).decode datagram).1 := rfl

theorem slots_onFragment (a : Assembler) (now : Time) (source : SocketAddress) (datagram : Bytes) :
    (a.onFragment now source datagram).2.slots =
      (a.settle now source ((a.decoderFor source).decode datagram).1
        ((a.decoderFor source).decode datagram).2).1 := rfl

theorem transfer?_decoderFor_of_get? {slot : Slot} (h : a.slots.get? source = some slot) :
    (a.decoderFor source).transfer? = slot.decoder.transfer? := by
  rw [decoderFor, h]

theorem transfer?_decoderFor_of_none (h : a.slots.get? source = none) :
    (a.decoderFor source).transfer? = none := by
  rw [decoderFor, h]

theorem settle_more {request : AckRequest} {decoder : Decoder} :
    (a.settle now source (.ok (.more request)) decoder).1 =
      (if a.slots.contains source then a.slots else (makeRoom a.capacity a.slots).1).put source
        ⟨decoder, now⟩ := by
  simp only [settle]
  split <;> rfl

theorem transfer?_onFragment :
    ((a.onFragment now source datagram).2.decoderFor source).transfer? =
      ((a.decoderFor source).decode datagram).2.transfer? := by
  have hslots := slots_onFragment a now source datagram
  have herased : (a.slots.erase source).get? source = none := Table.get?_erase_self _ _
  cases (a.decoderFor source).outcome datagram with
  | refused err result =>
    rw [result] at hslots ⊢
    exact transfer?_decoderFor_of_none (hslots ▸ herased)
  | completed h body t m parse takes segments finish result =>
    rw [result] at hslots ⊢
    exact transfer?_decoderFor_of_none (hslots ▸ herased)
  | repeated h body t request parse transfer repeats result =>
    rw [result, settle_more] at hslots
    rw [result]
    exact transfer?_decoderFor_of_get? (hslots ▸ Table.get?_put_self _ _ _)
  | taken h body t request parse takes result =>
    rw [result, settle_more] at hslots
    rw [result]
    exact transfer?_decoderFor_of_get? (hslots ▸ Table.get?_put_self _ _ _)

theorem decoderFor_onFragment_complete {m : Message} {after : Decoder}
    (hd : (a.decoderFor source).decode datagram = (.ok (.complete m), after)) :
    (a.onFragment now source datagram).2.decoderFor source = { limit := a.limit } := by
  have hslots := slots_onFragment a now source datagram
  have herased : (a.slots.erase source).get? source = none := Table.get?_erase_self _ _
  rw [hd] at hslots
  rw [decoderFor, hslots]
  simp only [settle, herased]
  rfl

theorem mem_of_mem_erase {slots : Table SocketAddress Slot} (h : entry ∈ slots.erase source) :
    entry ∈ slots :=
  (List.mem_filter.1 h).1

theorem mem_of_mem_makeRoom {capacity : Nat} {slots : Table SocketAddress Slot}
    (h : entry ∈ (makeRoom capacity slots).1) : entry ∈ slots := by
  induction slots using makeRoom.induct capacity with
  | case1 slots hlt =>
    rwa [makeRoom, if_pos hlt] at h
  | case2 slots hge hold =>
    rw [makeRoom, if_neg hge] at h
    split at h
    · exact h
    · rename_i hsome
      rw [hold] at hsome
      cases hsome
  | case3 slots hge source time hold kept gone hroom ih =>
    rw [makeRoom, if_neg hge] at h
    split at h
    · exact h
    · rename_i hsome
      rw [hold] at hsome
      cases hsome
      exact mem_of_mem_erase (ih h)

/-- Whatever is in a slot afterwards was there before, or the decoder left it to ask for more. -/
theorem mem_slots_onFragment (h : entry ∈ (a.onFragment now source datagram).2.slots) :
    entry ∈ a.slots ∨
      (∃ request, ((a.decoderFor source).decode datagram).1 = .ok (.more request)) ∧
        entry = (source, ⟨((a.decoderFor source).decode datagram).2, now⟩) := by
  rw [slots_onFragment] at h
  match hresult : ((a.decoderFor source).decode datagram).1 with
  | .ok (.more request) =>
    rw [hresult, settle_more] at h
    rcases Table.mem_put h with h | h
    · exact .inr ⟨⟨request, rfl⟩, h⟩
    · split at h
      · exact .inl h
      · exact .inl (mem_of_mem_makeRoom h)
  | .ok (.complete m) =>
    rw [hresult] at h
    exact .inl (mem_of_mem_erase h)
  | .error err =>
    rw [hresult] at h
    exact .inl (mem_of_mem_erase h)

theorem mem_slots_abandon (h : entry ∈ (a.abandon source).2.slots) : entry ∈ a.slots := by
  unfold abandon at h
  split at h
  · exact mem_of_mem_erase h
  · exact h

theorem mem_slots_tick (h : entry ∈ (a.tick now).2.slots) : entry ∈ a.slots :=
  (List.mem_filter.1 h).1

end Assembler

end MultimediaMessaging
