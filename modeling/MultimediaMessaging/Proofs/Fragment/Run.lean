import MultimediaMessaging.Fragment.Decoder

/-!
Runs of a decoder, and all that one call can do to it: it gives its transfer up, repeats an answer,
or takes a fragment that begins a transfer or continues the one it has.
-/

set_option autoImplicit false

namespace MultimediaMessaging

open Text

theorem getElem?_concat_iff {α : Type} {xs : List α} {x y : α} {i : Nat} :
    (xs ++ [x])[i]? = some y ↔ xs[i]? = some y ∨ i = xs.length ∧ y = x := by
  rcases Nat.lt_trichotomy i xs.length with hi | rfl | hi
  · rw [List.getElem?_append_left hi]
    simp [Nat.ne_of_lt hi]
  · simp [eq_comm]
  · rw [List.getElem?_eq_none (by simpa using Nat.succ_le_of_lt hi),
      List.getElem?_eq_none (Nat.le_of_lt hi)]
    simp [Nat.ne_of_gt hi]

namespace Transfer

variable {t t' : Transfer} {h : Header} {body : Bytes}

theorem write_ok {offset size : Nat} (hw : t.write offset size body = .ok t') :
    offset + size ≤ t.contentLength ∧ offset = t.received.length ∧ size ≤ body.length ∧
      t' = { t with received := t.received ++ body.take size } := by
  unfold write at hw
  split at hw
  · cases hw
  · split at hw
    · cases hw
    · split at hw
      · cases hw
      · cases hw
        exact ⟨by omega, by omega, by omega, rfl⟩

/-- Where a first fragment has no size it is the whole message. -/
theorem start_ok {limit : Nat} (hs : start limit h body = .ok t) :
    ∃ contentLength app, h.contentLength = some contentLength ∧ h.app = some app ∧
      contentLength ≤ limit ∧ h.fragmentOffset = 0 ∧
      h.fragmentSize.getD contentLength ≤ contentLength ∧
      h.fragmentSize.getD contentLength ≤ body.length ∧
      t = { segments := h.segments
            index := 0
            contentLength
            received := body.take (h.fragmentSize.getD contentLength)
            cookie := h.ackCookie
            port := h.ackPort
            sender := h.sender.getD ""
            app
            replyTo := h.replyTo
            timestamp := h.date.getD 0 } := by
  unfold start at hs
  split at hs
  · cases hs
  rename_i contentLength hc
  split at hs
  · cases hs
  rename_i hl
  split at hs
  · cases hs
  rename_i app ha
  split at hs
  · cases hs
  obtain ⟨hbound, hoffset, hbody, rfl⟩ := write_ok hs
  have hzero : h.fragmentOffset = 0 := hoffset
  have hsize : h.fragmentSize.getD contentLength ≤ contentLength := by
    change h.fragmentOffset + _ ≤ contentLength at hbound
    omega
  exact ⟨contentLength, app, hc, ha, by omega, hzero, hsize, hbody, by simp⟩

theorem extend_ok (he : t.extend h body = .ok t') :
    ∃ size, h.fragmentSize = some size ∧ h.segments = t.segments ∧
      (∀ length ∈ h.contentLength, length = t.contentLength) ∧ h.fragment = t.index + 1 ∧
      h.fragmentOffset = t.received.length ∧ h.fragmentOffset + size ≤ t.contentLength ∧
      size ≤ body.length ∧
      t' = { t with
             index := h.fragment
             received := t.received ++ body.take size
             cookie := h.ackCookie
             port := h.ackPort.or t.port } := by
  unfold extend at he
  split at he
  · cases he
  rename_i hsegments
  split at he
  · cases he
  rename_i hlength
  split at he
  · cases he
  rename_i hindex
  split at he
  · cases he
  rename_i size hsize
  cases hwrite : t.write h.fragmentOffset size body with
  | error err => simp [hwrite, bind, Except.bind] at he
  | ok written =>
    simp only [hwrite, bind, Except.bind] at he
    split at he
    · cases he
    · cases he
      obtain ⟨hbound, hoffset, hbody, rfl⟩ := write_ok hwrite
      refine ⟨size, hsize, by simpa using hsegments, ?_, by simpa using hindex, hoffset, hbound,
        hbody, rfl⟩
      intro length hl
      rw [Option.mem_def] at hl
      simpa [hl] using hlength

theorem finish_ok {m : Message} (hf : t.finish = .ok m) :
    t.received.length = t.contentLength ∧
      m = ⟨t.sender, t.app, t.replyTo, t.timestamp, t.received⟩ := by
  unfold finish at hf
  split at hf
  · cases hf
  · rename_i hlength
    cases hf
    exact ⟨by simpa using hlength, rfl⟩

end Transfer

namespace Decoder

variable {d : Decoder} {h : Header} {body : Bytes} {t : Transfer}

def Takes (d : Decoder) (h : Header) (body : Bytes) (t : Transfer) : Prop :=
  (h.fragment = 0 ∧ Transfer.start d.limit h body = .ok t) ∨
    ∃ before, d.transfer? = some before ∧ before.extend h body = .ok t

theorem settle_ok {progress : Progress} {next : Option Transfer}
    (hs : settle h t = .ok (progress, next)) :
    (h.isMoreExpected = true ∧ (∃ request, progress = .more request) ∧ next = some t) ∨
      (h.isMoreExpected = false ∧ (∃ m, t.finish = .ok m ∧ progress = .complete m) ∧
        next = none) := by
  unfold settle at hs
  split at hs
  · rename_i hmore
    cases hr : t.ackRequest with
    | error err => simp [hr, Except.map] at hs
    | ok request =>
      simp only [hr, Except.map, Except.ok.injEq, Prod.mk.injEq] at hs
      exact .inl ⟨hmore, ⟨request, hs.1.symm⟩, hs.2.symm⟩
  · rename_i hmore
    cases hf : t.finish with
    | error err => simp [hf, Except.map] at hs
    | ok m =>
      simp only [hf, Except.map, Except.ok.injEq, Prod.mk.injEq] at hs
      exact .inr ⟨by simpa using hmore, ⟨m, rfl, hs.1.symm⟩, hs.2.symm⟩

theorem bind_settle_ok {taken : Except DecodeError Transfer}
    {result : Progress × Option Transfer} (hb : taken.bind (settle h) = .ok result) :
    ∃ t, taken = .ok t ∧ settle h t = .ok result := by
  cases taken with
  | error err => cases hb
  | ok t => exact ⟨t, rfl, hb⟩

theorem accept_ok {progress : Progress} {next : Option Transfer}
    (ha : d.accept h body = .ok (progress, next)) :
    h.fragment < h.segments ∧
      ((∃ t request, d.transfer? = some t ∧ t.isRepeatedBy h = true ∧
          progress = .more request ∧ next = some t) ∨
        ∃ t, d.Takes h body t ∧ settle h t = .ok (progress, next)) := by
  unfold accept at ha
  split at ha
  · cases ha
  rename_i hfragment
  refine ⟨by omega, ?_⟩
  split at ha
  · cases ha
  split at ha
  · rename_i t ht
    split at ha
    · rename_i hrepeat
      cases hr : t.ackRequest with
      | error err => simp [repeatAck, hr, Except.map] at ha
      | ok request =>
        simp only [repeatAck, hr, Except.map, Except.ok.injEq, Prod.mk.injEq] at ha
        exact .inl ⟨t, request, ht, hrepeat, ha.1.symm, ha.2.symm⟩
    · split at ha
      · rename_i hzero
        obtain ⟨t', hstart, hsettle⟩ := bind_settle_ok ha
        exact .inr ⟨t', .inl ⟨hzero, hstart⟩, hsettle⟩
      · obtain ⟨t', hextend, hsettle⟩ := bind_settle_ok ha
        exact .inr ⟨t', .inr ⟨t, ht, hextend⟩, hsettle⟩
  · split at ha
    · rename_i hzero
      obtain ⟨t', hstart, hsettle⟩ := bind_settle_ok ha
      exact .inr ⟨t', .inl ⟨hzero, hstart⟩, hsettle⟩
    · cases ha

/-- What a datagram did: the answer to it and the decoder after it are known in every case. -/
inductive Outcome (d : Decoder) (datagram : Bytes) : Prop where
  | refused (err : DecodeError) (result : d.decode datagram = (.error err, d.abandon))
  | repeated (h : Header) (body : Bytes) (t : Transfer) (request : AckRequest)
      (parse : Header.parse datagram = .ok (h, body)) (transfer : d.transfer? = some t)
      (repeats : t.isRepeatedBy h = true) (result : d.decode datagram = (.ok (.more request), d))
  | taken (h : Header) (body : Bytes) (t : Transfer) (request : AckRequest)
      (parse : Header.parse datagram = .ok (h, body)) (takes : d.Takes h body t)
      (result : d.decode datagram = (.ok (.more request), { d with transfer? := some t }))
  | completed (h : Header) (body : Bytes) (t : Transfer) (m : Message)
      (parse : Header.parse datagram = .ok (h, body)) (takes : d.Takes h body t)
      (segments : h.segments = h.fragment + 1) (finish : t.finish = .ok m)
      (result : d.decode datagram = (.ok (.complete m), d.abandon))

theorem outcome (d : Decoder) (datagram : Bytes) : d.Outcome datagram := by
  cases hp : Header.parse datagram with
  | error err => exact .refused err (by simp [decode, hp, Except.bind])
  | ok read =>
    obtain ⟨h, body⟩ := read
    cases ha : d.accept h body with
    | error err => exact .refused err (by simp [decode, hp, Except.bind, ha])
    | ok result =>
      obtain ⟨progress, next⟩ := result
      have hdecode : d.decode datagram = (.ok progress, { d with transfer? := next }) := by
        simp [decode, hp, Except.bind, ha]
      obtain ⟨hlt, ⟨t, request, ht, hrepeat, rfl, rfl⟩ | ⟨t, htakes, hsettle⟩⟩ := accept_ok ha
      · refine .repeated h body t request hp ht hrepeat ?_
        rw [hdecode, ← ht]
      · obtain ⟨-, ⟨request, rfl⟩, rfl⟩ | ⟨hmore, ⟨m, hfinish, rfl⟩, rfl⟩ := settle_ok hsettle
        · exact .taken h body t request hp htakes hdecode
        · refine .completed h body t m hp htakes ?_ hfinish hdecode
          simp only [Header.isMoreExpected, decide_eq_false_iff_not] at hmore
          omega

theorem decode_snd_of_not_more {datagram : Bytes}
    (h : ∀ request, (d.decode datagram).1 ≠ .ok (.more request)) :
    (d.decode datagram).2 = d.abandon := by
  cases d.outcome datagram with
  | refused err result => rw [result]
  | repeated header body t request parse transfer repeats result => simp [result] at h
  | taken header body t request parse takes result => simp [result] at h
  | completed header body t m parse takes segments finish result => rw [result]

theorem inProgress_of_more {datagram : Bytes} {request : AckRequest}
    (h : (d.decode datagram).1 = .ok (.more request)) :
    (d.decode datagram).2.inProgress = true := by
  cases d.outcome datagram with
  | refused err result => simp [result] at h
  | repeated header body t request parse transfer repeats result =>
    simp [result, inProgress, transfer]
  | taken header body t request parse takes result => simp [result, inProgress]
  | completed header body t m parse takes segments finish result => simp [result] at h

inductive Call where
  | decode (datagram : Bytes)
  | abandon
  deriving DecidableEq, Repr

def apply (d : Decoder) : Call → Decoder
  | .decode datagram => (d.decode datagram).2
  | .abandon => d.abandon

structure Step where
  before : Decoder
  call : Call

namespace Step

def after (s : Step) : Decoder := s.before.apply s.call

def answer? (s : Step) : Option (Except DecodeError Progress) :=
  match s.call with
  | .decode datagram => some (s.before.decode datagram).1
  | .abandon => none

end Step

def run (d : Decoder) (calls : List Call) : Decoder := calls.foldl apply d

def trace : Decoder → List Call → List Step
  | _, [] => []
  | d, call :: calls => ⟨d, call⟩ :: trace (d.apply call) calls

theorem run_append (d : Decoder) (calls later : List Call) :
    d.run (calls ++ later) = (d.run calls).run later := by
  rw [run, List.foldl_append]
  rfl

theorem trace_append (d : Decoder) (calls later : List Call) :
    d.trace (calls ++ later) = d.trace calls ++ (d.run calls).trace later := by
  induction calls generalizing d with
  | nil => rfl
  | cons call calls ih => exact congrArg (_ :: ·) (ih (d.apply call))

theorem run_concat (d : Decoder) (calls : List Call) (call : Call) :
    d.run (calls ++ [call]) = (d.run calls).apply call := run_append d calls [call]

theorem trace_concat (d : Decoder) (calls : List Call) (call : Call) :
    d.trace (calls ++ [call]) = d.trace calls ++ [⟨d.run calls, call⟩] :=
  trace_append d calls [call]

def answers (d : Decoder) (datagrams : List Bytes) : List (Except DecodeError Progress) :=
  (d.trace (datagrams.map .decode)).filterMap Step.answer?

theorem answers_concat (d : Decoder) (datagrams : List Bytes) (datagram : Bytes) :
    d.answers (datagrams ++ [datagram]) =
      d.answers datagrams ++ [((d.run (datagrams.map .decode)).decode datagram).1] := by
  simp only [answers, List.map_append, List.map_singleton, trace_concat, List.filterMap_append]
  rfl

end Decoder

end MultimediaMessaging
