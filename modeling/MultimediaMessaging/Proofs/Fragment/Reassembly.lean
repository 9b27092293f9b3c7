import Mathlib.Algebra.GroupWithZero.Nat
import Mathlib.Data.List.Induction
import MultimediaMessaging.Proofs.Fragment.RoundTrip

/-!
Where a completed message comes from, whatever datagrams a decoder was given. Main statement: the
run ends with consecutive fragments, the last of them the one just given, and the body is what they
carry; between them stand only repetitions, which changed nothing.
-/

set_option autoImplicit false

namespace MultimediaMessaging

open Text

structure Piece where
  datagram : Bytes
  header : Header
  body : Bytes

namespace Piece

def size (length : Nat) (p : Piece) : Nat := p.header.fragmentSize.getD length

def slice (length : Nat) (p : Piece) : Bytes := p.body.take (p.size length)

/-- Pieces of one message of `length` bytes, from its first on and without a gap. -/
structure Consecutive (segments length : Nat) (ps : List Piece) : Prop where
  parse : ∀ p ∈ ps, Header.parse p.datagram = .ok (p.header, p.body)
  segments : ∀ p ∈ ps, p.header.segments = segments
  fragment : ∀ (j : Nat) (p : Piece), ps[j]? = some p → p.header.fragment = j
  offset : ∀ (j : Nat) (p : Piece), ps[j]? = some p →
    p.header.fragmentOffset = ((ps.take j).map (size length)).sum
  sized : ∀ (j : Nat) (p : Piece), ps[j + 1]? = some p → p.header.fragmentSize ≠ none
  full : ∀ p ∈ ps, p.size length ≤ p.body.length

variable {segments length : Nat} {ps : List Piece} {p : Piece}

theorem consecutive_nil : Consecutive segments length [] where
  parse := by simp
  segments := by simp
  fragment := by simp
  offset := by simp
  sized := by simp
  full := by simp

theorem Consecutive.concat (h : Consecutive segments length ps)
    (hparse : Header.parse p.datagram = .ok (p.header, p.body))
    (hsegments : p.header.segments = segments) (hfragment : p.header.fragment = ps.length)
    (hoffset : p.header.fragmentOffset = (ps.map (size length)).sum)
    (hsized : ps ≠ [] → p.header.fragmentSize ≠ none) (hfull : p.size length ≤ p.body.length) :
    Consecutive segments length (ps ++ [p]) where
  parse q hq := by
    rcases List.mem_append.1 hq with hq | hq
    · exact h.parse q hq
    · rwa [List.mem_singleton.1 hq]
  segments q hq := by
    rcases List.mem_append.1 hq with hq | hq
    · exact h.segments q hq
    · rwa [List.mem_singleton.1 hq]
  fragment j q hq := by
    rcases getElem?_concat_iff.1 hq with hq | ⟨rfl, rfl⟩
    · exact h.fragment j q hq
    · exact hfragment
  offset j q hq := by
    rcases getElem?_concat_iff.1 hq with hq | ⟨rfl, rfl⟩
    · have hj := (List.getElem?_eq_some_iff.1 hq).1
      rw [List.take_append_of_le_length (by omega)]
      exact h.offset j q hq
    · rw [List.take_left, hoffset]
  sized j q hq := by
    rcases getElem?_concat_iff.1 hq with hq | ⟨hj, rfl⟩
    · exact h.sized j q hq
    · exact hsized (List.ne_nil_of_length_eq_add_one hj.symm)
  full q hq := by
    rcases List.mem_append.1 hq with hq | hq
    · exact h.full q hq
    · rwa [List.mem_singleton.1 hq]

/-- No piece is shorter than it says. -/
theorem Consecutive.length_flatMap_slice (h : Consecutive segments length ps) :
    (ps.flatMap (slice length)).length = (ps.map (size length)).sum := by
  rw [List.length_flatMap]
  congr 1
  refine List.map_congr_left fun q hq => ?_
  rw [slice, List.length_take, Nat.min_eq_left (h.full q hq)]

end Piece

structure Message.OpenedBy (m : Message) (length : Nat) (h : Header) : Prop where
  contentLength : h.contentLength = some length
  sender : h.sender.getD "" = m.sender
  app : h.app = some m.app
  replyTo : h.replyTo = m.replyTo
  timestamp : h.date.getD 0 = m.timestamp

/-- The first of the pieces says of whom and for whom `m` is, and all together are its body. -/
structure Message.Assembled (m : Message) (limit length : Nat) (ps : List Piece) : Prop where
  consecutive : Piece.Consecutive ps.length length ps
  opened : ∀ p ∈ ps.head?, m.OpenedBy length p.header
  total : (ps.map (Piece.size length)).sum = length
  body : m.body = ps.flatMap (Piece.slice length)
  bounded : m.body.length ≤ limit

def Transfer.message (t : Transfer) : Message :=
  ⟨t.sender, t.app, t.replyTo, t.timestamp, t.received⟩

namespace Decoder

namespace Step

def AsksMore (s : Step) : Prop := ∃ request, s.answer? = some (.ok (.more request))

/-- The call was a datagram that says the same of itself as `h`, and it changed nothing. -/
structure Repeats (s : Step) (h : Header) : Prop where
  unchanged : s.after = s.before
  read : ∃ p : Piece, s.call = .decode p.datagram ∧
    Header.parse p.datagram = .ok (p.header, p.body) ∧ p.header.fragment = h.fragment ∧
    p.header.segments = h.segments ∧ p.header.ackCookie = h.ackCookie

end Step

/-- A fragment in a run: the decoder that took it, and the steps that repeated it. -/
structure Part where
  piece : Piece
  before : Decoder
  repeats : List Step

namespace Part

def taken (p : Part) : Step := ⟨p.before, .decode p.piece.datagram⟩

def steps (p : Part) : List Step := p.taken :: p.repeats

def new (d : Decoder) (p : Piece) : Part := ⟨p, d, []⟩

end Part

structure Gathers (limit : Nat) (parts : List Part) (t : Transfer) : Prop where
  consecutive : Piece.Consecutive t.segments t.contentLength (parts.map Part.piece)
  count : parts.length = t.index + 1
  received : t.received = (parts.map Part.piece).flatMap (Piece.slice t.contentLength)
  bounded : t.contentLength ≤ limit
  opened : ∀ p ∈ parts.head?, t.message.OpenedBy t.contentLength p.piece.header
  cookie : ∀ p ∈ parts.getLast?, p.piece.header.ackCookie = t.cookie
  repeats : ∀ p ∈ parts, ∀ s ∈ p.repeats, s.Repeats p.piece.header

theorem gathers_start {limit : Nat} {d : Decoder} {p : Piece} {t : Transfer}
    (hparse : Header.parse p.datagram = .ok (p.header, p.body)) (hzero : p.header.fragment = 0)
    (hs : Transfer.start limit p.header p.body = .ok t) :
    Gathers limit [.new d p] t := by
  obtain ⟨length, app, hlength, happ, hlimit, hoffset, hsize, hbody, rfl⟩ := Transfer.start_ok hs
  have hone : Piece.Consecutive p.header.segments length ([] ++ [p]) :=
    Piece.consecutive_nil.concat hparse rfl hzero hoffset (fun hne => absurd rfl hne) hbody
  exact
    { consecutive := hone
      count := rfl
      received := (List.flatMap_singleton _ _).symm
      bounded := hlimit
      opened := by
        rintro q ⟨⟩
        exact ⟨hlength, rfl, happ, rfl, rfl⟩
      cookie := by
        rintro q ⟨⟩
        rfl
      repeats := by
        intro q hq s hs
        rw [List.mem_singleton.1 hq] at hs
        cases hs }

theorem gathers_extend {limit : Nat} {d : Decoder} {parts : List Part} {p : Piece}
    {t t' : Transfer} (hg : Gathers limit parts t)
    (hparse : Header.parse p.datagram = .ok (p.header, p.body))
    (he : t.extend p.header p.body = .ok t') :
    Gathers limit (parts ++ [.new d p]) t' := by
  obtain ⟨size, hsize, hsegments, -, hindex, hoffset, -, hbody, rfl⟩ := Transfer.extend_ok he
  have hslice : p.size t.contentLength = size := by rw [Piece.size, hsize, Option.getD_some]
  have hcount := hg.count
  have hconsecutive : Piece.Consecutive t.segments t.contentLength
      ((parts ++ [Part.new d p]).map Part.piece) := by
    rw [List.map_append, List.map_singleton]
    refine hg.consecutive.concat hparse hsegments ?_ ?_ ?_ (hslice ▸ hbody)
    · rw [List.length_map, hcount]
      exact hindex
    · rw [Part.new, hoffset, hg.received, hg.consecutive.length_flatMap_slice]
    · intro _
      rw [Part.new, hsize]
      exact Option.some_ne_none size
  have hreceived : t.received ++ p.body.take size =
      ((parts ++ [Part.new d p]).map Part.piece).flatMap (Piece.slice t.contentLength) := by
    rw [List.map_append, List.map_singleton, List.flatMap_append, ← hg.received,
      List.flatMap_singleton, Piece.slice, Part.new, hslice]
  exact
    { consecutive := hconsecutive
      count := by
        rw [List.length_append, List.length_singleton, hcount, hindex]
      received := hreceived
      bounded := hg.bounded
      opened := by
        intro q hq
        obtain ⟨first, rest, rfl⟩ := List.exists_cons_of_length_eq_add_one hcount
        obtain ⟨hlength, hsender, happ, hreply, htime⟩ := hg.opened q hq
        exact ⟨hlength, hsender, happ, hreply, htime⟩
      cookie := by
        intro q hq
        rw [List.getLast?_concat] at hq
        cases hq
        rfl
      repeats := by
        intro q hq s hs
        rcases List.mem_append.1 hq with hq | hq
        · exact hg.repeats q hq s hs
        · rw [List.mem_singleton.1 hq] at hs
          cases hs }

/-- A repetition is put to the fragment that it repeats. -/
theorem gathers_repeat {limit : Nat} {init : List Part} {last : Part} {t : Transfer} {s : Step}
    (hg : Gathers limit (init ++ [last]) t) (hs : s.Repeats last.piece.header) :
    Gathers limit (init ++ [{ last with repeats := last.repeats ++ [s] }]) t := by
  have hpieces : (init ++ [{ last with repeats := last.repeats ++ [s] }]).map Part.piece =
      (init ++ [last]).map Part.piece := by simp
  have hhead : ∀ q ∈ (init ++ [{ last with repeats := last.repeats ++ [s] }]).head?,
      ∃ r ∈ (init ++ [last]).head?, r.piece = q.piece := by
    intro q hq
    cases init with
    | nil =>
      cases hq
      exact ⟨last, rfl, rfl⟩
    | cons first rest => exact ⟨q, hq, rfl⟩
  exact
    { consecutive := hpieces ▸ hg.consecutive
      count := by
        rw [← hg.count, List.length_append, List.length_append, List.length_singleton,
          List.length_singleton]
      received := hpieces ▸ hg.received
      bounded := hg.bounded
      opened := by
        intro q hq
        obtain ⟨r, hr, hpiece⟩ := hhead q hq
        exact hpiece ▸ hg.opened r hr
      cookie := by
        intro q hq
        rw [List.getLast?_concat] at hq
        cases hq
        exact hg.cookie last (by rw [List.getLast?_concat]; rfl)
      repeats := by
        intro q hq r hr
        rcases List.mem_append.1 hq with hq | hq
        · exact hg.repeats q (List.mem_append_left _ hq) r hr
        · rw [List.mem_singleton.1 hq] at hr ⊢
          rcases List.mem_append.1 hr with hr | hr
          · exact hg.repeats last (by simp) r hr
          · rw [List.mem_singleton.1 hr]
            exact hs }

/-- The transfer of a decoder is what the end of its run adds up to, and all of that end was
answered with a request for more. -/
structure Explains (limit : Nat) (steps : List Step) (d : Decoder) : Prop where
  limit_eq : d.limit = limit
  transfer : ∀ t ∈ d.transfer?, ∃ earlier parts, steps = earlier ++ parts.flatMap Part.steps ∧
    Gathers limit parts t ∧ ∀ s ∈ parts.flatMap Part.steps, s.AsksMore

theorem Explains.takes {limit : Nat} {steps : List Step} {d : Decoder} {p : Piece} {t : Transfer}
    (h : Explains limit steps d) (hparse : Header.parse p.datagram = .ok (p.header, p.body))
    (ht : d.Takes p.header p.body t) :
    ∃ earlier parts, steps = earlier ++ parts.flatMap Part.steps ∧
      Gathers limit (parts ++ [.new d p]) t ∧ ∀ s ∈ parts.flatMap Part.steps, s.AsksMore := by
  rcases ht with ⟨hzero, hstart⟩ | ⟨before, hbefore, hextend⟩
  · rw [h.limit_eq] at hstart
    exact ⟨steps, [], (List.append_nil steps).symm, gathers_start hparse hzero hstart, by simp⟩
  · obtain ⟨earlier, parts, hsteps, hg, hmore⟩ := h.transfer before hbefore
    exact ⟨earlier, parts, hsteps, gathers_extend hg hparse hextend, hmore⟩

theorem flatMap_steps_concat (parts : List Part) (p : Part) :
    (parts ++ [p]).flatMap Part.steps = parts.flatMap Part.steps ++ p.steps := by
  rw [List.flatMap_append, List.flatMap_singleton]

theorem Explains.abandon {limit : Nat} {steps : List Step} {d : Decoder}
    (h : Explains limit steps d) (s : Step) : Explains limit (steps ++ [s]) d.abandon :=
  ⟨h.limit_eq, fun _ ht => absurd ht (Option.not_mem_none _)⟩

theorem Explains.taken {limit : Nat} {steps : List Step} {d : Decoder} {p : Piece} {t : Transfer}
    {request : AckRequest} (h : Explains limit steps d)
    (hparse : Header.parse p.datagram = .ok (p.header, p.body))
    (ht : d.Takes p.header p.body t) (hd : (d.decode p.datagram).1 = .ok (.more request)) :
    Explains limit (steps ++ [⟨d, .decode p.datagram⟩]) { d with transfer? := some t } := by
  refine ⟨h.limit_eq, fun t' ht' => ?_⟩
  cases ht'
  obtain ⟨earlier, parts, hsteps, hg, hmore⟩ := h.takes hparse ht
  refine ⟨earlier, parts ++ [.new d p], ?_, hg, ?_⟩
  · rw [hsteps, flatMap_steps_concat, List.append_assoc]
    rfl
  · intro s hs
    rw [flatMap_steps_concat] at hs
    rcases List.mem_append.1 hs with hs | hs
    · exact hmore s hs
    · rw [List.mem_singleton.1 hs]
      exact ⟨request, congrArg some hd⟩

theorem Explains.repeated {limit : Nat} {steps : List Step} {d : Decoder} {p : Piece}
    {t : Transfer} {request : AckRequest} (h : Explains limit steps d)
    (hparse : Header.parse p.datagram = .ok (p.header, p.body)) (ht : d.transfer? = some t)
    (hr : t.isRepeatedBy p.header = true)
    (hd : d.decode p.datagram = (.ok (.more request), d)) :
    Explains limit (steps ++ [⟨d, .decode p.datagram⟩]) d := by
  refine ⟨h.limit_eq, fun t' ht' => ?_⟩
  rw [ht] at ht'
  cases ht'
  obtain ⟨earlier, parts, hsteps, hg, hmore⟩ := h.transfer t ht
  obtain ⟨init, last, rfl⟩ : ∃ init last, parts = init ++ [last] := by
    have hne : parts ≠ [] := List.ne_nil_of_length_eq_add_one hg.count
    exact ⟨parts.dropLast, parts.getLast hne, (List.dropLast_concat_getLast hne).symm⟩
  have hlast : last.piece ∈ (init ++ [last]).map Part.piece := by simp
  have hindex : last.piece.header.fragment = t.index := by
    have hcount := hg.count
    rw [List.length_append, List.length_singleton] at hcount
    refine hg.consecutive.fragment t.index last.piece ?_
    rw [List.getElem?_map, List.getElem?_append_right (by omega),
      show t.index - init.length = 0 by omega]
    rfl
  simp only [Transfer.isRepeatedBy, decide_eq_true_eq] at hr
  have hrepeats : Step.Repeats ⟨d, .decode p.datagram⟩ last.piece.header :=
    { unchanged := congrArg Prod.snd hd
      read := ⟨p, rfl, hparse, by rw [hr.1, hindex],
        by rw [hr.2.1, hg.consecutive.segments _ hlast],
        by rw [hr.2.2, hg.cookie last (by rw [List.getLast?_concat]; rfl)]⟩ }
  refine ⟨earlier, init ++ [{ last with repeats := last.repeats ++ [⟨d, .decode p.datagram⟩] }], ?_,
    gathers_repeat hg hrepeats, ?_⟩
  · rw [hsteps, flatMap_steps_concat, flatMap_steps_concat]
    simp only [Part.steps, List.append_assoc, List.cons_append]
    rfl
  · intro s hs
    rw [flatMap_steps_concat, Part.steps, ← List.cons_append, ← List.append_assoc] at hs
    rcases List.mem_append.1 hs with hs | hs
    · rw [flatMap_steps_concat] at hmore
      exact hmore s hs
    · rw [List.mem_singleton.1 hs]
      exact ⟨request, congrArg (some ∘ Prod.fst) hd⟩

theorem Explains.apply {limit : Nat} {steps : List Step} {d : Decoder}
    (h : Explains limit steps d) (call : Call) :
    Explains limit (steps ++ [⟨d, call⟩]) (d.apply call) := by
  cases call with
  | abandon => exact h.abandon _
  | decode datagram =>
    rw [Decoder.apply]
    cases d.outcome datagram with
    | refused err result =>
      rw [result]
      exact h.abandon _
    | repeated header body t request parse transfer repeats result =>
      rw [result]
      exact h.repeated (p := ⟨datagram, header, body⟩) parse transfer repeats result
    | taken header body t request parse takes result =>
      rw [result]
      exact h.taken (p := ⟨datagram, header, body⟩) parse takes (congrArg Prod.fst result)
    | completed header body t m parse takes segments finish result =>
      rw [result]
      exact h.abandon _

theorem explains_run (limit : Nat) (calls : List Call) :
    Explains limit (Decoder.trace { limit } calls) (Decoder.run { limit } calls) := by
  induction calls using List.reverseRecOn with
  | nil => exact ⟨rfl, fun _ ht => absurd ht (Option.not_mem_none _)⟩
  | append_singleton calls call ih =>
    rw [trace_concat, run_concat]
    exact ih.apply call

/-- What a whole message adds up to is all that its first fragment announced. -/
theorem Gathers.assembled {limit : Nat} {parts : List Part} {t : Transfer} {m : Message}
    (hg : Gathers limit parts t) (hs : t.segments = parts.length) (hf : t.finish = .ok m) :
    m.Assembled limit t.contentLength (parts.map Part.piece) := by
  obtain ⟨hlength, rfl⟩ := Transfer.finish_ok hf
  have hbounded := hg.bounded
  have hconsecutive := hg.consecutive
  have htotal := hconsecutive.length_flatMap_slice
  rw [← hg.received, hlength] at htotal
  rw [hs, ← List.length_map Part.piece] at hconsecutive
  exact
    { consecutive := hconsecutive
      opened := by
        intro p hp
        rw [List.head?_map, Option.mem_def, Option.map_eq_some_iff] at hp
        obtain ⟨part, hpart, rfl⟩ := hp
        exact hg.opened part hpart
      total := htotal.symm
      body := hg.received
      bounded := by
        change t.received.length ≤ limit
        omega }

/-- Every message that is completed in a run is made of the fragments the run ends with. All steps
from the first of them to the last asked for more; those that are not fragments of the message
repeat the fragment before them. -/
theorem assembled_of_complete {limit : Nat} {calls : List Call} {datagram : Bytes} {m : Message}
    (h : ((Decoder.run { limit } calls).decode datagram).1 = .ok (.complete m)) :
    ∃ earlier parts last length,
      Decoder.trace { limit } (calls ++ [.decode datagram]) =
        earlier ++ parts.flatMap Part.steps ++ [last.taken] ∧
      last.piece.datagram = datagram ∧
      m.Assembled limit length ((parts ++ [last]).map Part.piece) ∧
      (∀ s ∈ parts.flatMap Part.steps, s.AsksMore) ∧
      ∀ p ∈ parts, ∀ s ∈ p.repeats, s.Repeats p.piece.header := by
  have hexplains := explains_run limit calls
  cases (Decoder.run { limit } calls).outcome datagram with
  | refused err result => simp [result] at h
  | repeated header body t request parse transfer repeats result => simp [result] at h
  | taken header body t request parse takes result => simp [result] at h
  | completed header body t m' parse takes segments finish result =>
    rw [result] at h
    cases h
    obtain ⟨earlier, parts, hsteps, hg, hmore⟩ :=
      hexplains.takes (p := ⟨datagram, header, body⟩) parse takes
    have hcount : t.segments = (parts ++ [Part.new (Decoder.run { limit } calls)
        ⟨datagram, header, body⟩]).length := by
      have hp : (⟨datagram, header, body⟩ : Piece) ∈
          (parts ++ [Part.new (Decoder.run { limit } calls) ⟨datagram, header, body⟩]).map
            Part.piece := by simp [Part.new]
      have hsegments := hg.consecutive.segments _ hp
      have hfragment := hg.consecutive.fragment parts.length ⟨datagram, header, body⟩
        (by simp [Part.new])
      rw [← hsegments, segments, hfragment, List.length_append, List.length_singleton]
    refine ⟨earlier, parts, .new _ ⟨datagram, header, body⟩, t.contentLength, ?_, rfl,
      hg.assembled hcount finish, hmore, ?_⟩
    · rw [trace_concat, hsteps]
      rfl
    · exact fun p hp => hg.repeats p (List.mem_append_left _ hp)

theorem assembled_letter :
    ∃ earlier parts last length,
      Decoder.trace { limit := 3 } [.decode (letterWire 0), .decode (letterWire 1)] =
        earlier ++ parts.flatMap Part.steps ++ [last.taken] ∧
      last.piece.datagram = letterWire 1 ∧
      (letterEncoder.message letter).Assembled 3 length ((parts ++ [last]).map Part.piece) ∧
      (∀ s ∈ parts.flatMap Part.steps, s.AsksMore) ∧
      ∀ p ∈ parts, ∀ s ∈ p.repeats, s.Repeats p.piece.header := by
  have happ := Encoder.readApp?_eq legible_letter (by decide)
  obtain ⟨hrun, -⟩ := run_fragments printed_letter rfl happ (Nat.le_refl 3) 0 (by decide)
  have hlast := decode_last (d := ⟨3, some (letterEncoder.transfer letter ⟨4000, "7f"⟩ "chat" 2 0)⟩)
    (printed_letter 1 (by decide)) rfl rfl rfl
  have hmessage := Encoder.readMessage_eq legible_letter (by decide)
  refine @assembled_of_complete 3 [.decode (letterWire 0)] (letterWire 1)
    (letterEncoder.message letter) ?_
  change ((Decoder.run { limit := 3 } (((List.range 1).map letterWire).map .decode)).decode
    (letterWire 1)).1 = _
  rw [hrun]
  change (Decoder.decode ⟨3, some (letterEncoder.transfer letter ⟨4000, "7f"⟩ "chat" 2 0)⟩
    (letterWire 1)).1 = _
  rw [hlast, ← hmessage]
  rfl

end Decoder

end MultimediaMessaging
