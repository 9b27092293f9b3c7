import MultimediaMessaging.Proofs.Fragment.Awaiting

/-!
A decoder as it works in memory: a body has its whole length from the first fragment on, sums have
64 binary digits, and a slice has to lie inside what it is taken of. Main statement: whatever it is
given, no sum overflows, no slice is out of range, no answer is given that is kept for states which
do not occur, and all answers are those of the decoder that appends.
-/

set_option autoImplicit false

namespace MultimediaMessaging

open Text

namespace Memory

/-- Why a call gives no progress. Only refusals are meant to happen. -/
inductive Failure where
  | refused (e : DecodeError)
  /-- An answer that is kept for states which do not occur. -/
  | unreachable (e : DecodeError)
  | overflow
  | outOfRange
  deriving DecidableEq, Repr

/-- A sum that is looked at before it is used. -/
def sum? (a b : Nat) : Option Nat := if a + b ≤ limit64 then some (a + b) else none

def sum (a b : Nat) : Except Failure Nat :=
  match sum? a b with
  | some n => .ok n
  | none => .error .overflow

def slice (bytes : Bytes) (start stop : Nat) : Except Failure Bytes :=
  if start ≤ stop ∧ stop ≤ bytes.length then .ok ((bytes.take stop).drop start)
  else .error .outOfRange

theorem length_of_slice {bytes part : Bytes} {start stop : Nat}
    (h : slice bytes start stop = .ok part) :
    start ≤ stop ∧ stop ≤ bytes.length ∧ part.length = stop - start := by
  unfold slice at h
  split at h
  · rename_i hrange
    cases h
    refine ⟨hrange.1, hrange.2, ?_⟩
    rw [List.length_drop, List.length_take]
    omega
  · cases h

def overwrite (bytes : Bytes) (start stop : Nat) (part : Bytes) : Except Failure Bytes :=
  if start ≤ stop ∧ stop ≤ bytes.length ∧ part.length = stop - start then
    .ok (bytes.take start ++ part ++ bytes.drop stop)
  else .error .outOfRange

def isMoreExpected (h : Header) : Except Failure Bool := do
  return (← sum h.fragment 1) < h.segments

end Memory

open Memory

structure Reassembly where
  segments : Nat
  index : Nat
  buffer : Bytes
  filled : Nat
  cookie : Option String
  port : Option UInt16
  sender : String
  app : String
  replyTo : String
  timestamp : Nat
  deriving DecidableEq, Repr

namespace Reassembly

def write (r : Reassembly) (offset size : Nat) (body : Bytes) : Except Failure Reassembly :=
  match (sum? offset size).filter (· ≤ r.buffer.length) with
  | none => .error (.refused (.outOfBounds offset size r.buffer.length))
  | some stop =>
    if offset ≠ r.filled then .error (.refused (.unexpectedOffset offset r.filled))
    else if body.length < size then .error (.refused (.truncated size body.length))
    else do
      let part ← slice body 0 size
      let buffer ← overwrite r.buffer offset stop part
      let filled ← sum r.filled size
      return { r with buffer, filled }

def ackRequest (r : Reassembly) : Except Failure AckRequest :=
  match r.cookie, r.port with
  | none, _ => .error (.unreachable (.missingCookie r.index))
  | some _, none => .error (.unreachable (.missingHeader .ackPort))
  | some cookie, some port => .ok ⟨cookie, port⟩

def isRepeatedBy (r : Reassembly) (h : Header) : Bool :=
  h.fragment = r.index ∧ h.segments = r.segments ∧ h.ackCookie = r.cookie

def finish (r : Reassembly) : Except Failure Message :=
  if r.filled ≠ r.buffer.length then
    .error (.refused (.incomplete r.filled r.buffer.length))
  else .ok ⟨r.sender, r.app, r.replyTo, r.timestamp, r.buffer⟩

def start (limit : Nat) (h : Header) (body : Bytes) : Except Failure Reassembly :=
  match h.contentLength with
  | none => .error (.refused (.missingHeader .contentLength))
  | some contentLength =>
    if limit < contentLength then .error (.refused (.tooLarge contentLength limit))
    else
      match h.app with
      | none => .error (.refused (.missingHeader .address))
      | some app => do
        let more ← isMoreExpected h
        if more ∧ h.ackPort = none then .error (.refused (.missingHeader .ackPort))
        else
          write
            { segments := h.segments
              index := 0
              buffer := List.replicate contentLength 0
              filled := 0
              cookie := h.ackCookie
              port := h.ackPort
              sender := h.sender.getD ""
              app
              replyTo := h.replyTo
              timestamp := h.date.getD 0 }
            h.fragmentOffset (h.fragmentSize.getD contentLength) body

def extend (r : Reassembly) (h : Header) (body : Bytes) : Except Failure Reassembly :=
  if h.segments ≠ r.segments then .error (.refused (.inconsistent .segments))
  else if h.contentLength.any (· ≠ r.buffer.length) then
    .error (.refused (.inconsistent .contentLength))
  else do
    let expected ← sum r.index 1
    if h.fragment ≠ expected then .error (.refused (.outOfOrder expected h.fragment))
    else
      match h.fragmentSize with
      | none => .error (.refused (.missingHeader .fragmentSize))
      | some size => do
        let r ← r.write h.fragmentOffset size body
        let r := { r with index := h.fragment, cookie := h.ackCookie, port := h.ackPort.or r.port }
        let more ← isMoreExpected h
        if more ∧ r.port = none then .error (.unreachable (.missingHeader .ackPort))
        else return r

/-- More is to come, there is room for it, and it is known where to ask for it. -/
structure Awaits (limit : Nat) (r : Reassembly) : Prop where
  next_lt : r.index + 1 < r.segments
  filled_le : r.filled ≤ r.buffer.length
  length_le : r.buffer.length ≤ limit
  cookie : r.cookie ≠ none
  port : r.port ≠ none

end Reassembly

structure Workings where
  limit : Nat
  state? : Option Reassembly := none
  deriving DecidableEq, Repr

namespace Workings

def readFrom (h : Header) (datagram : Bytes) (cursor : Nat) : Except Failure (Header × Bytes) :=
  match _rest : slice datagram cursor datagram.length with
  | .error f => .error f
  | .ok rest =>
    if Header.marker <+: rest then do
      return (h, ← slice rest Header.marker.length rest.length)
    else
      match _stop : rest.findIdx? (· = Header.lineFeed) with
      | none => .error (.refused .missingBufferMarker)
      | some stop => do
        let line ← slice rest 0 stop
        let h ← (h.applyLine line).mapError .refused
        readFrom h datagram (cursor + (stop + 1))
  termination_by datagram.length - cursor
  decreasing_by
    obtain ⟨hlt, -⟩ := List.findIdx?_eq_some_iff_getElem.1 _stop
    have hlength := length_of_slice _rest
    omega

def abandon (w : Workings) : Workings := { w with state? := none }

def settle (h : Header) (state? : Option Reassembly) :
    Except Failure (Progress × Option Reassembly) := do
  if ← isMoreExpected h then
    match state? with
    | some r => return (.more (← r.ackRequest), some r)
    | none => .error (.unreachable (.noTransfer h.fragment))
  else
    match state? with
    | some r => return (.complete (← r.finish), none)
    | none => .error (.unreachable (.noTransfer h.fragment))

def accept (w : Workings) (h : Header) (body : Bytes) :
    Except Failure (Progress × Option Reassembly) :=
  if h.segments = 0 ∨ h.segments ≤ h.fragment then
    .error (.refused (.fragmentOutOfRange h.fragment h.segments))
  else if 1 < h.segments ∧ h.ackCookie = none then
    .error (.refused (.missingCookie h.fragment))
  else if h.fragment = 0 then
    match w.state? with
    | some r =>
      if r.isRepeatedBy h then do return (.more (← r.ackRequest), some r)
      else do settle h (some (← Reassembly.start w.limit h body))
    | none => do settle h (some (← Reassembly.start w.limit h body))
  else
    match w.state? with
    | none => .error (.refused (.noTransfer h.fragment))
    | some r =>
      if r.isRepeatedBy h then do return (.more (← r.ackRequest), some r)
      else do settle h (some (← r.extend h body))

def decode (w : Workings) (datagram : Bytes) : Except Failure Progress × Workings :=
  match (readFrom {} datagram 0).bind fun (h, body) => w.accept h body with
  | .ok (progress, state?) => (.ok progress, { w with state? })
  | .error f => (.error f, w.abandon)

def apply (w : Workings) : Decoder.Call → Workings
  | .decode datagram => (w.decode datagram).2
  | .abandon => w.abandon

def run (w : Workings) (calls : List Decoder.Call) : Workings := calls.foldl apply w

end Workings

namespace Memory

variable {α α' β β' : Type} {rel : α → β → Prop} {rel' : α' → β' → Prop}

inductive Matches (rel : α → β → Prop) : Except Failure α → Except DecodeError β → Prop
  | ok {a : α} {b : β} (related : rel a b) : Matches rel (.ok a) (.ok b)
  | refused (e : DecodeError) : Matches rel (.error (.refused e)) (.error e)

theorem Matches.bind {x : Except Failure α} {y : Except DecodeError β}
    {f : α → Except Failure α'} {g : β → Except DecodeError β'} (hm : Matches rel x y)
    (hf : ∀ a b, y = .ok b → rel a b → Matches rel' (f a) (g b)) :
    Matches rel' (x >>= f) (y >>= g) := by
  cases hm with
  | ok related => exact hf _ _ rfl related
  | refused e => exact .refused e

theorem Matches.map {x : Except Failure α} {y : Except DecodeError β} {f : α → α'} {g : β → β'}
    (hm : Matches rel x y) (hf : ∀ a b, rel a b → rel' (f a) (g b)) :
    Matches rel' (do return f (← x)) (y.map g) := by
  cases hm with
  | ok related => exact .ok (hf _ _ related)
  | refused e => exact .refused e

theorem matches_mapError (x : Except DecodeError α) :
    Matches Eq (x.mapError .refused) x := by
  cases x with
  | error e => exact .refused e
  | ok a => exact .ok rfl

theorem exists_refused {x : Except DecodeError α} {f : Failure}
    (h : x.mapError .refused = .error f) : ∃ e, f = .refused e := by
  cases x with
  | error e => exact ⟨e, (Except.error.inj h).symm⟩
  | ok a => cases h

theorem sum?_eq_some {a b : Nat} (h : a + b ≤ limit64) : sum? a b = some (a + b) := if_pos h

theorem sum_eq_ok {a b : Nat} (h : a + b ≤ limit64) : sum a b = .ok (a + b) := by
  rw [sum, sum?_eq_some h]

theorem slice_eq_ok {bytes : Bytes} {start stop : Nat} (h : start ≤ stop ∧ stop ≤ bytes.length) :
    slice bytes start stop = .ok ((bytes.take stop).drop start) := if_pos h

theorem slice_to_end {bytes : Bytes} {start : Nat} (h : start ≤ bytes.length) :
    slice bytes start bytes.length = .ok (bytes.drop start) := by
  rw [slice_eq_ok ⟨h, Nat.le_refl _⟩, List.take_length]

theorem slice_from_start {bytes : Bytes} {stop : Nat} (h : stop ≤ bytes.length) :
    slice bytes 0 stop = .ok (bytes.take stop) := by
  rw [slice_eq_ok ⟨Nat.zero_le _, h⟩, List.drop_zero]

theorem isMoreExpected_eq {h : Header} (hf : h.Fits) (hlt : h.fragment < h.segments) :
    isMoreExpected h = .ok h.isMoreExpected := by
  have hsegments := hf.segments
  rw [isMoreExpected, sum_eq_ok (by omega)]
  rfl

end Memory

def Reassembly.transfer (r : Reassembly) : Transfer :=
  { segments := r.segments
    index := r.index
    contentLength := r.buffer.length
    received := r.buffer.take r.filled
    cookie := r.cookie
    port := r.port
    sender := r.sender
    app := r.app
    replyTo := r.replyTo
    timestamp := r.timestamp }

structure Reassembly.Holds (r : Reassembly) (t : Transfer) : Prop where
  transfer : r.transfer = t
  filled_le : r.filled ≤ r.buffer.length

namespace Reassembly

variable {r : Reassembly} {t : Transfer} {h : Header} {body : Bytes}

theorem Holds.contentLength (hr : r.Holds t) : t.contentLength = r.buffer.length := by
  rw [← hr.transfer]
  rfl

theorem Holds.received (hr : r.Holds t) : t.received = r.buffer.take r.filled := by
  rw [← hr.transfer]
  rfl

theorem Holds.length_received (hr : r.Holds t) : t.received.length = r.filled := by
  have hle := hr.filled_le
  rw [hr.received, List.length_take]
  omega

/-- A sum that overflows is past the end of every body. -/
theorem filter_sum? {offset size length : Nat} (hl : length ≤ limit64) :
    (sum? offset size).filter (· ≤ length) =
      if length < offset + size then none else some (offset + size) := by
  unfold sum?
  split
  · split
    · rw [Option.filter_some, if_neg (by simpa using ‹length < offset + size›)]
    · rw [Option.filter_some, if_pos (by simpa using ‹¬ length < offset + size›)]
  · rw [if_pos (by omega), Option.filter_none]

theorem Holds.fill (hr : r.Holds t) {part : Bytes}
    (hroom : r.filled + part.length ≤ r.buffer.length) :
    ∃ buffer, overwrite r.buffer r.filled (r.filled + part.length) part = .ok buffer ∧
      Holds { r with buffer, filled := r.filled + part.length }
        { t with received := t.received ++ part } := by
  have hfront : (r.buffer.take r.filled).length = r.filled := by
    rw [List.length_take]
    omega
  have hlength : (r.buffer.take r.filled ++ part ++
      r.buffer.drop (r.filled + part.length)).length = r.buffer.length := by
    simp only [List.length_append, hfront, List.length_drop]
    omega
  have htake : (r.buffer.take r.filled ++ part ++
      r.buffer.drop (r.filled + part.length)).take (r.filled + part.length) =
        r.buffer.take r.filled ++ part :=
    List.take_left' (by rw [List.length_append, hfront])
  refine ⟨_, if_pos ⟨by omega, hroom, by omega⟩, ?_, ?_⟩
  · rw [← hr.transfer]
    simp only [Reassembly.transfer, hlength, htake]
  · exact hlength.symm ▸ hroom

theorem write_matches (hr : r.Holds t) (hl : t.contentLength ≤ limit64) (offset size : Nat) :
    Matches Holds (r.write offset size body) (t.write offset size body) := by
  have hlength := hr.contentLength
  rw [hlength] at hl
  rw [write, Transfer.write, filter_sum? hl, hlength, hr.length_received]
  by_cases hbound : r.buffer.length < offset + size
  · rw [if_pos hbound, if_pos hbound]
    exact .refused _
  rw [if_neg hbound, if_neg hbound]
  dsimp only
  by_cases hoffset : offset ≠ r.filled
  · rw [if_pos hoffset, if_pos hoffset]
    exact .refused _
  rw [if_neg hoffset, if_neg hoffset]
  by_cases hbody : body.length < size
  · rw [if_pos hbody, if_pos hbody]
    exact .refused _
  rw [if_neg hbody, if_neg hbody]
  obtain rfl : offset = r.filled := by simpa using hoffset
  have hpart : (body.take size).length = size := by
    rw [List.length_take]
    omega
  have hroom : r.filled + size ≤ r.buffer.length := by omega
  obtain ⟨buffer, hover, hfilled⟩ := hr.fill (hpart.symm ▸ hroom)
  rw [hpart] at hover hfilled
  rw [hlength] at hfilled
  rw [slice_from_start (by omega), sum_eq_ok (by omega)]
  change Matches Holds (overwrite r.buffer r.filled (r.filled + size) (body.take size) >>= _) _
  rw [hover]
  exact .ok hfilled

theorem opening_holds (h : Header) (length : Nat) (app : String) :
    Holds
      { segments := h.segments
        index := 0
        buffer := List.replicate length 0
        filled := 0
        cookie := h.ackCookie
        port := h.ackPort
        sender := h.sender.getD ""
        app
        replyTo := h.replyTo
        timestamp := h.date.getD 0 }
      (Transfer.opening h length app) where
  transfer := by simp [transfer, Transfer.opening]
  filled_le := Nat.zero_le _

theorem start_matches {limit : Nat} (hf : h.Fits) (hlt : h.fragment < h.segments) :
    Matches Holds (start limit h body) (Transfer.start limit h body) := by
  rw [start, Transfer.start, isMoreExpected_eq hf hlt]
  cases hlength : h.contentLength with
  | none => exact .refused _
  | some length =>
    dsimp only
    split
    · exact .refused _
    · cases happ : h.app with
      | none => exact .refused _
      | some app =>
        change Matches Holds (if _ then _ else _) _
        dsimp only
        split
        · exact .refused _
        · exact write_matches (opening_holds h length app) (hf.contentLength length hlength) _ _

/-- Whoever waits for more knows where to ask for it, so the fragment need not say that again. -/
theorem extend_matches {limit : Nat} (hr : r.Holds t) (ht : t.Awaits limit) (hf : h.Fits)
    (hlt : h.fragment < h.segments) :
    Matches Holds (r.extend h body) (t.extend h body) := by
  have hnext := ht.next_lt
  have hsegments := ht.segments_le
  have hsame : r.segments = t.segments ∧ r.index = t.index := by
    rw [← hr.transfer]
    exact ⟨rfl, rfl⟩
  rw [extend, Transfer.extend, hsame.1, hsame.2, hr.contentLength, sum_eq_ok (by omega)]
  split
  · exact .refused _
  split
  · exact .refused _
  change Matches Holds (if _ then _ else _) _
  dsimp only
  split
  · exact .refused _
  cases hsize : h.fragmentSize with
  | none => exact .refused _
  | some size =>
    refine (write_matches hr ht.length_fits h.fragmentOffset size).bind fun r' t' hwrite hr' => ?_
    have hport : t'.port ≠ none := by
      obtain ⟨-, -, -, rfl⟩ := Transfer.write_ok hwrite
      exact ht.port
    have hport' : r'.port = t'.port := by
      rw [← hr'.transfer]
      rfl
    have hnew : h.ackPort.or r'.port ≠ none := by
      rw [hport']
      simp [hport]
    rw [isMoreExpected_eq hf hlt, if_neg fun hnone => hport hnone.2.2]
    change Matches Holds (if _ ∧ h.ackPort.or r'.port = none then _ else _) _
    rw [if_neg fun hnone => hnew hnone.2]
    refine .ok ⟨?_, hr'.filled_le⟩
    rw [← hr'.transfer]
    rfl

theorem Holds.isRepeatedBy_eq (hr : r.Holds t) : r.isRepeatedBy h = t.isRepeatedBy h := by
  rw [← hr.transfer]
  rfl

theorem Holds.awaits {limit : Nat} (hr : r.Holds t) (ht : t.Awaits limit) : r.Awaits limit := by
  have hfilled := hr.filled_le
  obtain ⟨rfl, -⟩ := hr
  exact ⟨ht.next_lt, hfilled, ht.length_le, ht.cookie, ht.port⟩

theorem ackRequest_matches (hr : r.Holds t) (hc : t.cookie ≠ none) (hp : t.port ≠ none) :
    Matches Eq r.ackRequest t.ackRequest := by
  obtain ⟨cookie, hcookie⟩ := Option.ne_none_iff_exists'.1 hc
  obtain ⟨port, hport⟩ := Option.ne_none_iff_exists'.1 hp
  have hsame : r.cookie = t.cookie ∧ r.port = t.port := by
    rw [← hr.transfer]
    exact ⟨rfl, rfl⟩
  rw [ackRequest, Transfer.ackRequest, hsame.1, hsame.2, hcookie, hport]
  exact .ok rfl

theorem finish_matches (hr : r.Holds t) : Matches Eq r.finish t.finish := by
  rw [finish, Transfer.finish, hr.length_received, hr.contentLength]
  split
  · exact .refused _
  · rename_i hfull
    have hall : r.buffer.take r.filled = r.buffer :=
      List.take_of_length_le (by omega)
    refine .ok ?_
    rw [← hr.transfer, transfer, hall]

end Reassembly

theorem Decoder.inProgress_iff_more (d : Decoder) (datagram : Bytes) :
    (d.decode datagram).2.inProgress = true ↔
      ∃ request, (d.decode datagram).1 = .ok (.more request) := by
  constructor
  · intro hprogress
    by_contra hmore
    rw [decode_snd_of_not_more (not_exists.1 hmore)] at hprogress
    cases hprogress
  · rintro ⟨request, hmore⟩
    exact inProgress_of_more hmore

structure Workings.Holds (w : Workings) (d : Decoder) : Prop where
  limit : w.limit = d.limit
  state : Option.Rel Reassembly.Holds w.state? d.transfer?

namespace Workings

theorem split_at_findIdx? {bytes : Bytes} {stop : Nat}
    (h : bytes.findIdx? (· = Header.lineFeed) = some stop) :
    bytes = bytes.take stop ++ Header.lineFeed :: bytes.drop (stop + 1) ∧
      Header.lineFeed ∉ bytes.take stop := by
  obtain ⟨hlt, hfound, hbefore⟩ := List.findIdx?_eq_some_iff_getElem.1 h
  constructor
  · have hget : bytes[stop] = Header.lineFeed := by simpa using hfound
    rw [← hget, ← List.drop_eq_getElem_cons hlt, List.take_append_drop]
  · intro hmem
    obtain ⟨i, hi, hget⟩ := List.getElem_of_mem hmem
    rw [List.length_take] at hi
    rw [List.getElem_take] at hget
    have hne := hbefore i (by omega)
    simp [hget] at hne

theorem readFrom_matches (h : Header) (datagram : Bytes) (cursor : Nat)
    (hc : cursor ≤ datagram.length) :
    Matches Eq (readFrom h datagram cursor) (Header.parseFrom h (datagram.drop cursor)) := by
  induction hn : datagram.length - cursor using Nat.strongRecOn generalizing h cursor with
  | ind n ih =>
    rw [readFrom]
    split
    · rename_i hslice
      rw [slice_to_end hc] at hslice
      cases hslice
    · rename_i rest hslice
      rw [slice_to_end hc, Except.ok.injEq] at hslice
      rw [hslice]
      split
      · rename_i hmarker
        obtain ⟨body, rfl⟩ := hmarker
        have hbody : slice (Header.marker ++ body) Header.marker.length
            (Header.marker ++ body).length = .ok body := by
          rw [slice_to_end (by simp), List.drop_left]
        rw [hbody, Header.parseFrom_marker]
        exact .ok rfl
      · rename_i hmarker
        have hm := Header.after?_marker_eq_none_iff.2 hmarker
        split
        · rename_i hstop
          have hl : Header.lineFeed ∉ rest := by
            intro hmem
            simpa using List.findIdx?_eq_none_iff.1 hstop _ hmem
          rw [Header.parseFrom_of_lineFeed_notMem hl hm]
          exact .refused _
        · rename_i stop hstop
          obtain ⟨hsplit, hline⟩ := split_at_findIdx? hstop
          have hlt : stop < rest.length := (List.findIdx?_eq_some_iff_getElem.1 hstop).1
          have hlength : rest.length = datagram.length - cursor := by
            rw [← hslice, List.length_drop]
          have hrest : datagram.drop (cursor + (stop + 1)) = rest.drop (stop + 1) := by
            rw [← hslice, List.drop_drop]
          have hparse := Header.parseFrom_line (h := h) hline (hsplit ▸ hm)
          rw [← hsplit] at hparse
          rw [hparse, slice_from_start (Nat.le_of_lt hlt)]
          change Matches Eq ((h.applyLine (rest.take stop)).mapError .refused >>= _) _
          refine (matches_mapError _).bind fun h' _ _ hsame => ?_
          subst hsame
          have hnext := ih (datagram.length - (cursor + (stop + 1))) (by omega) h'
            (cursor + (stop + 1)) (by omega) rfl
          rwa [hrest] at hnext

open Reassembly

def SameResult (a : Progress × Option Reassembly) (b : Progress × Option Transfer) : Prop :=
  a.1 = b.1 ∧ Option.Rel Reassembly.Holds a.2 b.2

variable {r : Reassembly} {t : Transfer} {h : Header} {body : Bytes}

theorem repeatAck_matches (hr : r.Holds t) (hc : t.cookie ≠ none) (hp : t.port ≠ none) :
    Matches SameResult (do return (.more (← r.ackRequest), some r)) (Decoder.repeatAck t) :=
  (ackRequest_matches hr hc hp).map fun _ _ same => ⟨congrArg _ same, .some hr⟩

theorem settle_matches (hr : r.Holds t) (hf : h.Fits) (hlt : h.fragment < h.segments)
    (hmore : h.isMoreExpected = true → t.cookie ≠ none ∧ t.port ≠ none) :
    Matches SameResult (settle h (some r)) (Decoder.settle h t) := by
  rw [settle, Decoder.settle, isMoreExpected_eq hf hlt]
  cases hm : h.isMoreExpected with
  | true => exact repeatAck_matches hr (hmore hm).1 (hmore hm).2
  | false => exact (finish_matches hr).map fun _ _ same => ⟨congrArg _ same, .none⟩

theorem begin_matches {limit : Nat} (ha : h.Admissible) (hf : h.Fits) :
    Matches SameResult (do settle h (some (← Reassembly.start limit h body)))
      ((Transfer.start limit h body).bind (Decoder.settle h)) := by
  refine (start_matches hf ha.fragment_lt).bind fun r t hstart hr =>
    settle_matches hr hf ha.fragment_lt fun hmore => ?_
  have hmany : 1 < h.segments := by
    simp only [Header.isMoreExpected, decide_eq_true_eq] at hmore
    omega
  have hport := Transfer.port_of_start hstart hmore
  obtain ⟨_, _, _, _, _, _, _, _, rfl⟩ := Transfer.start_ok hstart
  exact ⟨ha.cookie hmany, hport⟩

theorem continue_matches {limit : Nat} (hr : r.Holds t) (ht : t.Awaits limit) (ha : h.Admissible)
    (hf : h.Fits) :
    Matches SameResult (do settle h (some (← r.extend h body)))
      ((t.extend h body).bind (Decoder.settle h)) := by
  refine (extend_matches hr ht hf ha.fragment_lt).bind fun r' t' hextend hr' =>
    settle_matches hr' hf ha.fragment_lt fun hmore => ?_
  have hmany : 1 < h.segments := by
    simp only [Header.isMoreExpected, decide_eq_true_eq] at hmore
    omega
  obtain ⟨_, _, _, _, _, _, _, _, rfl⟩ := Transfer.extend_ok hextend
  refine ⟨ha.cookie hmany, ?_⟩
  simp [ht.port]

variable {w : Workings} {d : Decoder}

theorem accept_matches (hw : w.Holds d) (hd : ∀ t ∈ d.transfer?, t.Awaits d.limit) (hf : h.Fits) :
    Matches SameResult (w.accept h body) (d.accept h body) := by
  obtain ⟨limit, state?⟩ := w
  obtain ⟨_, transfer?⟩ := d
  obtain ⟨rfl, hstate⟩ := hw
  rw [accept, Decoder.accept]
  by_cases hfragment : h.segments ≤ h.fragment
  · rw [if_pos (.inr hfragment), if_pos hfragment]
    exact .refused _
  rw [if_neg (by omega), if_neg hfragment]
  by_cases hcookie : 1 < h.segments ∧ h.ackCookie = none
  · rw [if_pos hcookie, if_pos hcookie]
    exact .refused _
  rw [if_neg hcookie, if_neg hcookie]
  have ha : h.Admissible := ⟨by omega, fun hmany hnone => hcookie ⟨hmany, hnone⟩⟩
  cases hstate with
  | none =>
    dsimp only
    split
    · exact begin_matches ha hf
    · exact .refused _
  | @some r t hr =>
    have ht : t.Awaits limit := hd t rfl
    dsimp only
    rw [hr.isRepeatedBy_eq]
    by_cases hzero : h.fragment = 0
    · rw [if_pos hzero]
      split
      · exact repeatAck_matches hr ht.cookie ht.port
      · exact begin_matches ha hf
    · rw [if_neg hzero]
      split
      · exact repeatAck_matches hr ht.cookie ht.port
      · exact continue_matches hr ht ha hf

theorem decode_holds (hw : w.Holds d) (hd : ∀ t ∈ d.transfer?, t.Awaits d.limit)
    (datagram : Bytes) :
    (w.decode datagram).1 = (d.decode datagram).1.mapError .refused ∧
      (w.decode datagram).2.Holds (d.decode datagram).2 := by
  have hread := readFrom_matches {} datagram 0 (Nat.zero_le _)
  rw [List.drop_zero] at hread
  have hmatches : Matches SameResult
      ((readFrom {} datagram 0).bind fun (h, body) => w.accept h body)
      ((Header.parse datagram).bind fun (h, body) => d.accept h body) := by
    refine hread.bind fun read _ hparse same => ?_
    subst same
    exact accept_matches hw hd (Header.fits_of_parse hparse)
  rw [decode, Decoder.decode]
  revert hmatches
  generalize (readFrom {} datagram 0).bind _ = result
  generalize (Header.parse datagram).bind _ = result'
  intro hmatches
  cases hmatches with
  | refused e => exact ⟨rfl, hw.limit, .none⟩
  | ok related => exact ⟨congrArg Except.ok related.1, hw.limit, related.2⟩

theorem Holds.awaits {limit : Nat} (hw : w.Holds d)
    (hd : ∀ t ∈ d.transfer?, t.Awaits limit) : ∀ r ∈ w.state?, r.Awaits limit := by
  intro r hr
  have hstate := hw.state
  rw [Option.mem_def.1 hr] at hstate
  cases ht : d.transfer? with
  | none =>
    rw [ht] at hstate
    cases hstate
  | some t =>
    rw [ht] at hstate
    cases hstate with
    | some held => exact held.awaits (hd t ht)

theorem holds_run (limit : Nat) (calls : List Decoder.Call) :
    (run { limit } calls).Holds (Decoder.run { limit } calls) := by
  induction calls using List.reverseRecOn with
  | nil => exact ⟨rfl, .none⟩
  | append_singleton calls call ih =>
    obtain ⟨hlimit, hawaits⟩ := Decoder.awaits_run limit calls
    rw [run, List.foldl_append, ← run, Decoder.run_concat]
    cases call with
    | abandon => exact ⟨ih.limit, .none⟩
    | decode datagram => exact (decode_holds ih (hlimit.symm ▸ hawaits) datagram).2

structure Faultless (limit : Nat) (w : Workings) (d : Decoder) (datagram : Bytes) : Prop where
  holds : w.Holds d
  answer : (w.decode datagram).1 = (d.decode datagram).1.mapError .refused
  refused : ∀ f, (w.decode datagram).1 = .error f → ∃ e, f = .refused e
  next : (w.decode datagram).2.Holds (d.decode datagram).2
  inProgress : (d.decode datagram).2.inProgress = true ↔
    ∃ request, (d.decode datagram).1 = .ok (.more request)
  awaits : ∀ r ∈ (w.decode datagram).2.state?, r.Awaits limit

/-- Whatever was decoded and abandoned before. -/
theorem faultless_run (limit : Nat) (calls : List Decoder.Call) (datagram : Bytes) :
    Faultless limit (run { limit } calls) (Decoder.run { limit } calls) datagram := by
  obtain ⟨hlimit, hawaits⟩ := Decoder.awaits_run limit calls
  obtain ⟨-, hafter⟩ := Decoder.awaits_run limit (calls ++ [.decode datagram])
  rw [Decoder.run_concat] at hafter
  have hrun := holds_run limit calls
  obtain ⟨hanswer, hnext⟩ := decode_holds hrun (hlimit.symm ▸ hawaits) datagram
  exact
    { holds := hrun
      answer := hanswer
      refused := fun f hf => exists_refused (hanswer.symm.trans hf)
      next := hnext
      inProgress := Decoder.inProgress_iff_more _ datagram
      awaits := hnext.awaits hafter }

end Workings

end MultimediaMessaging
