import Mathlib.Data.List.Induction
import MultimediaMessaging.Proofs.Fragment.Acknowledgement

/-!
What holds of a decoder between two calls: numbers are of 64 binary digits, and a transfer is kept
only while more of it is to come, within its length and the limit, and with all that is needed to
ask for the next fragment.
-/

set_option autoImplicit false

namespace MultimediaMessaging

open Text

namespace Header

structure Fits (h : Header) : Prop where
  contentLength : ∀ n ∈ h.contentLength, n ≤ limit64
  segments : h.segments ≤ limit64

variable {h h' : Header} {key : HeaderKey} {value : List Char} {line body datagram : Bytes}
  {lines : List Bytes} {limit n : Nat}

theorem Fits.sets {text : List Char} (hf : h.Fits) (hs : Sets h text key h') : h'.Fits := by
  cases hs with
  | contentLength number => exact ⟨by rintro _ ⟨⟩; exact number.le, hf.segments⟩
  | segments number => exact ⟨hf.contentLength, number.le⟩
  | _ => exact ⟨hf.contentLength, hf.segments⟩

theorem Fits.appliesAll (hf : h.Fits) (ha : AppliesAll h lines h') : h'.Fits := by
  induction ha with
  | nil h => exact hf
  | cons head tail ih =>
    refine ih ?_
    cases head with
    | plain reads colon => exact hf
    | unknown reads colon unknown => exact hf
    | known reads trims sets => exact hf.sets sets

theorem fits_of_parse (hp : parse datagram = .ok (h, body)) : h.Fits := by
  obtain ⟨lines, -, -, happlies⟩ := parse_eq_ok_iff.1 hp
  exact Fits.appliesAll ⟨fun n hn => absurd hn (Option.not_mem_none n), by decide⟩ happlies

end Header

theorem Transfer.port_of_start {limit : Nat} {h : Header} {body : Bytes} {t : Transfer}
    (hs : start limit h body = .ok t) (hmore : h.isMoreExpected = true) : t.port ≠ none := by
  unfold start at hs
  split at hs
  · cases hs
  split at hs
  · cases hs
  split at hs
  · cases hs
  split at hs
  · cases hs
  rename_i hport
  obtain ⟨-, -, -, rfl⟩ := write_ok hs
  exact fun hnone => hport ⟨hmore, hnone⟩

structure Transfer.Awaits (limit : Nat) (t : Transfer) : Prop where
  next_lt : t.index + 1 < t.segments
  segments_le : t.segments ≤ limit64
  received_le : t.received.length ≤ t.contentLength
  length_le : t.contentLength ≤ limit
  length_fits : t.contentLength ≤ limit64
  cookie : t.cookie ≠ none
  port : t.port ≠ none

namespace Decoder

variable {d : Decoder} {h : Header} {body datagram : Bytes} {t : Transfer}

theorem Takes.awaits {request : AckRequest} (ht : d.Takes h body t) (hf : h.Fits)
    (hd : ∀ t ∈ d.transfer?, t.Awaits d.limit) (hmore : h.isMoreExpected = true)
    (hack : t.ackRequest = .ok request) : t.Awaits d.limit := by
  have hnext : h.fragment + 1 < h.segments := by simpa [Header.isMoreExpected] using hmore
  obtain ⟨hcookie, hport⟩ := Transfer.of_ackRequest hack
  have hcookie : t.cookie ≠ none := hcookie ▸ Option.some_ne_none _
  have hport : t.port ≠ none := hport ▸ Option.some_ne_none _
  rcases ht with ⟨hzero, hstart⟩ | ⟨before, hbefore, hextend⟩
  · obtain ⟨length, app, hlength, -, hlimit, -, hsize, -, rfl⟩ := Transfer.start_ok hstart
    exact
      { next_lt := hzero ▸ hnext
        segments_le := hf.segments
        received_le := (List.length_take_le _ _).trans hsize
        length_le := hlimit
        length_fits := hf.contentLength length hlength
        cookie := hcookie
        port := hport }
  · have hawaits := hd before hbefore
    obtain ⟨size, -, hsame, -, -, hoffset, hsize, -, rfl⟩ := Transfer.extend_ok hextend
    exact
      { next_lt := hsame ▸ hnext
        segments_le := hawaits.segments_le
        received_le := by
          have htake := List.length_take_le size body
          simp only [List.length_append]
          omega
        length_le := hawaits.length_le
        length_fits := hawaits.length_fits
        cookie := hcookie
        port := hport }

theorem limit_decode (d : Decoder) (datagram : Bytes) : (d.decode datagram).2.limit = d.limit := by
  unfold decode
  split <;> rfl

/-- A transfer goes on only with a request for more, which tells that more is to come. -/
theorem awaits_decode (hd : ∀ t ∈ d.transfer?, t.Awaits d.limit) (datagram : Bytes) :
    ∀ t ∈ (d.decode datagram).2.transfer?, t.Awaits d.limit := by
  intro t ht
  cases hp : Header.parse datagram with
  | error e => simp [decode, hp, Except.bind, abandon] at ht
  | ok read =>
    obtain ⟨h, body⟩ := read
    rw [decode_eq_of_parse hp] at ht
    cases ha : d.accept h body with
    | error e => simp [ha, abandon] at ht
    | ok result =>
      obtain ⟨progress, next⟩ := result
      simp only [ha] at ht
      obtain ⟨-, ⟨t', request, ht', -, -, rfl⟩ | ⟨t', htakes, hsettle⟩⟩ := accept_ok ha
      · cases ht
        exact hd t ht'
      · obtain ⟨hmore, ⟨request, rfl⟩, rfl⟩ | ⟨-, -, rfl⟩ := settle_ok hsettle
        · cases ht
          exact htakes.awaits (Header.fits_of_parse hp) hd hmore (ackRequest_of_settle hsettle)
        · cases ht

theorem awaits_run (limit : Nat) (calls : List Call) :
    (Decoder.run { limit } calls).limit = limit ∧
      ∀ t ∈ (Decoder.run { limit } calls).transfer?, t.Awaits limit := by
  induction calls using List.reverseRecOn with
  | nil => exact ⟨rfl, by simp [run]⟩
  | append_singleton calls call ih =>
    rw [run_concat]
    cases call with
    | abandon => exact ⟨ih.1, by simp [apply, abandon]⟩
    | decode datagram =>
      obtain ⟨hlimit, hawaits⟩ := ih
      have hnext := awaits_decode (d := Decoder.run { limit } calls) (hlimit.symm ▸ hawaits)
        datagram
      rw [hlimit] at hnext
      exact ⟨(limit_decode _ datagram).trans hlimit, hnext⟩

end Decoder

end MultimediaMessaging
