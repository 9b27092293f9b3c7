import Mathlib.Data.List.Induction
import MultimediaMessaging.Proofs.Fragment.Reassembly

/-!
Fragments that come again. Main statements: whatever made a decoder ask for more makes it ask for
the same when it comes again, and changes nothing, so that a run with repetitions differs from the
run without them in nothing but these; and what counts as a repetition is any datagram with the
number, the count and the cookie of the fragment taken last, whatever else it says.
-/

set_option autoImplicit false

namespace MultimediaMessaging

open Text

namespace Transfer

variable {t t' : Transfer} {h : Header} {body : Bytes} {limit : Nat}

theorem isRepeatedBy_iff :
    t.isRepeatedBy h = true ↔
      h.fragment = t.index ∧ h.segments = t.segments ∧ h.ackCookie = t.cookie :=
  decide_eq_true_iff

theorem isRepeatedBy_of_start (hs : start limit h body = .ok t) (hzero : h.fragment = 0) :
    t.isRepeatedBy h = true := by
  obtain ⟨_, _, _, _, _, _, _, _, rfl⟩ := start_ok hs
  exact isRepeatedBy_iff.2 ⟨hzero, rfl, rfl⟩

theorem isRepeatedBy_of_extend (he : t.extend h body = .ok t') : t'.isRepeatedBy h = true := by
  obtain ⟨_, _, hsegments, _, _, _, _, _, rfl⟩ := extend_ok he
  exact isRepeatedBy_iff.2 ⟨rfl, hsegments, rfl⟩

end Transfer

namespace Decoder

variable {d : Decoder} {h : Header} {body datagram : Bytes} {t : Transfer} {request : AckRequest}

theorem Takes.isRepeatedBy (ht : d.Takes h body t) : t.isRepeatedBy h = true := by
  rcases ht with ⟨hzero, hstart⟩ | ⟨before, -, hextend⟩
  · exact Transfer.isRepeatedBy_of_start hstart hzero
  · exact Transfer.isRepeatedBy_of_extend hextend

section Accept

variable {next : Option Transfer} {result : Progress × Option Transfer}

theorem admissible_of_accept (ha : d.accept h body = .ok result) : h.Admissible := by
  unfold accept at ha
  split at ha
  · cases ha
  rename_i hfragment
  split at ha
  · cases ha
  rename_i hcookie
  exact ⟨Nat.lt_of_not_le hfragment, fun hmany hnone => hcookie ⟨hmany, hnone⟩⟩

theorem ackRequest_of_repeatAck (hr : repeatAck t = .ok (.more request, next)) :
    t.ackRequest = .ok request := by
  unfold repeatAck at hr
  cases hack : t.ackRequest with
  | error err => simp [hack, Except.map] at hr
  | ok other =>
    simp only [hack, Except.map, Except.ok.injEq, Prod.mk.injEq, Progress.more.injEq] at hr
    rw [hr.1]

theorem ackRequest_of_settle (hs : settle h t = .ok (.more request, next)) :
    t.ackRequest = .ok request := by
  unfold settle at hs
  split at hs
  · exact ackRequest_of_repeatAck hs
  · cases hf : t.finish <;> simp [hf, Except.map] at hs

/-- On every way to a request for more, what is kept is what a repetition is compared with, and the
request is made of it. -/
theorem accept_more (ha : d.accept h body = .ok (.more request, next)) :
    ∃ t, next = some t ∧ t.isRepeatedBy h = true ∧ t.ackRequest = .ok request := by
  obtain ⟨-, ⟨t, other, ht, hrepeat, -, rfl⟩ | ⟨t, htakes, hsettle⟩⟩ := accept_ok ha
  · rw [accept_repeated (admissible_of_accept ha) ht hrepeat] at ha
    exact ⟨t, rfl, hrepeat, ackRequest_of_repeatAck ha⟩
  · obtain ⟨-, -, rfl⟩ | ⟨-, ⟨m, -, hcomplete⟩, -⟩ := settle_ok hsettle
    · exact ⟨t, rfl, htakes.isRepeatedBy, ackRequest_of_settle hsettle⟩
    · cases hcomplete

end Accept

theorem of_decode_more (hd : (d.decode datagram).1 = .ok (.more request)) :
    ∃ h body t, Header.parse datagram = .ok (h, body) ∧ h.Admissible ∧
      (d.decode datagram).2 = { d with transfer? := some t } ∧ t.isRepeatedBy h = true ∧
      t.ackRequest = .ok request := by
  cases hp : Header.parse datagram with
  | error err => simp [decode, hp, Except.bind] at hd
  | ok read =>
    obtain ⟨h, body⟩ := read
    rw [decode_eq_of_parse hp] at hd ⊢
    cases ha : d.accept h body with
    | error err => simp [ha] at hd
    | ok result =>
      obtain ⟨progress, next⟩ := result
      simp only [ha, Except.ok.injEq] at hd
      subst hd
      obtain ⟨t, rfl, hrepeat, hack⟩ := accept_more ha
      exact ⟨h, body, t, rfl, admissible_of_accept ha, rfl, hrepeat, hack⟩

theorem decode_repeated (hp : Header.parse datagram = .ok (h, body)) (ha : h.Admissible)
    (ht : d.transfer? = some t) (hr : t.isRepeatedBy h = true)
    (hack : t.ackRequest = .ok request) : d.decode datagram = (.ok (.more request), d) := by
  have hrepeat : repeatAck t = .ok (.more request, some t) := by rw [repeatAck, hack]; rfl
  rw [decode_eq_of_parse hp, accept_repeated ha ht hr, hrepeat, ← ht]

theorem decode_again (hd : (d.decode datagram).1 = .ok (.more request)) :
    (d.decode datagram).2.decode datagram = (.ok (.more request), (d.decode datagram).2) := by
  obtain ⟨h, body, t, hp, ha, hnext, hrepeat, hack⟩ := of_decode_more hd
  exact decode_repeated hp ha (by rw [hnext]) hrepeat hack

section Retransmission

namespace Step

def seen (s : Step) : Call × Option (Except DecodeError Progress) × Decoder :=
  (s.call, s.answer?, s.after)

def message? (s : Step) : Option Message :=
  match s.answer? with
  | some (.ok (.complete m)) => some m
  | _ => none

def copies (s : Step) (times : Nat) : Nat :=
  match s.answer? with
  | some (.ok (.more _)) => times + 1
  | _ => 1

theorem seen_again {s : Step} {request : AckRequest}
    (h : s.answer? = some (.ok (.more request))) : seen ⟨s.after, s.call⟩ = s.seen := by
  obtain ⟨d, call⟩ := s
  cases call with
  | abandon => cases h
  | decode datagram =>
    have hd : (d.decode datagram).1 = .ok (.more request) := Option.some.inj h
    have hagain := decode_again hd
    simp only [seen, after, answer?, apply, hagain, hd]

end Step

/-- A run in which each datagram that is answered with a request for more comes again, as often as
the plan says. -/
def retransmit : Decoder → List (Call × Nat) → List Call
  | _, [] => []
  | d, (call, times) :: plan =>
    List.replicate (Step.copies ⟨d, call⟩ times) call ++ retransmit (d.apply call) plan

variable {call : Call}

theorem seen_replicate (h : Step.answer? ⟨d, call⟩ = some (.ok (.more request))) (times : Nat) :
    (d.trace (List.replicate (times + 1) call)).map Step.seen =
        List.replicate (times + 1) (Step.seen ⟨d, call⟩) ∧
      d.run (List.replicate (times + 1) call) = d.apply call := by
  induction times generalizing d with
  | zero => exact ⟨rfl, rfl⟩
  | succ times ih =>
    have hagain : Step.seen ⟨d.apply call, call⟩ = Step.seen ⟨d, call⟩ := Step.seen_again h
    obtain ⟨-, hanswer, hafter⟩ := Prod.mk.injEq .. ▸ Prod.mk.injEq .. ▸ hagain
    obtain ⟨hseen, hrun⟩ := ih (d := d.apply call) (hanswer.trans h)
    constructor
    · rw [List.replicate_succ, trace, List.map_cons, hseen, hagain, ← List.replicate_succ]
    · exact hrun.trans hafter

theorem seen_copies (d : Decoder) (call : Call) (times : Nat) :
    (d.trace (List.replicate (Step.copies ⟨d, call⟩ times) call)).map Step.seen =
        List.replicate (Step.copies ⟨d, call⟩ times) (Step.seen ⟨d, call⟩) ∧
      d.run (List.replicate (Step.copies ⟨d, call⟩ times) call) = d.apply call := by
  unfold Step.copies
  split
  · rename_i request hmore
    exact seen_replicate hmore times
  · exact ⟨rfl, rfl⟩

theorem messages_copies (d : Decoder) (call : Call) (times : Nat) :
    (d.trace (List.replicate (Step.copies ⟨d, call⟩ times) call)).filterMap Step.message? =
      (Step.message? ⟨d, call⟩).toList := by
  unfold Step.copies
  split
  · rename_i request hmore
    have hnone : Step.message? ⟨d, call⟩ = none := by rw [Step.message?, hmore]
    rw [hnone, Option.toList_none, List.filterMap_eq_nil_iff]
    intro s hs
    have hseen : s.seen ∈ List.replicate (times + 1) (Step.seen ⟨d, call⟩) := by
      rw [← (seen_replicate hmore times).1]
      exact List.mem_map_of_mem hs
    have hanswer : s.answer? = Step.answer? ⟨d, call⟩ :=
      congrArg (fun seen => seen.2.1) (List.eq_of_mem_replicate hseen)
    rw [Step.message?, hanswer, hmore]
  · rw [List.replicate_one, trace, trace, List.filterMap_cons, List.filterMap_nil]
    cases Step.message? ⟨d, call⟩ <;> rfl

theorem run_retransmit (d : Decoder) (plan : List (Call × Nat)) :
    d.run (d.retransmit plan) = d.run (plan.map Prod.fst) := by
  induction plan generalizing d with
  | nil => rfl
  | cons entry plan ih =>
    obtain ⟨call, times⟩ := entry
    rw [retransmit, run_append, (seen_copies d call times).2, ih]
    rfl

theorem seen_retransmit (d : Decoder) (plan : List (Call × Nat)) :
    (d.trace (d.retransmit plan)).map Step.seen =
      ((d.trace (plan.map Prod.fst)).zip (plan.map Prod.snd)).flatMap fun (s, times) =>
        List.replicate (s.copies times) s.seen := by
  induction plan generalizing d with
  | nil => rfl
  | cons entry plan ih =>
    obtain ⟨call, times⟩ := entry
    obtain ⟨hseen, hrun⟩ := seen_copies d call times
    rw [retransmit, trace_append, List.map_append, hseen, hrun, ih]
    rfl

theorem messages_retransmit (d : Decoder) (plan : List (Call × Nat)) :
    (d.trace (d.retransmit plan)).filterMap Step.message? =
      (d.trace (plan.map Prod.fst)).filterMap Step.message? := by
  induction plan generalizing d with
  | nil => rfl
  | cons entry plan ih =>
    obtain ⟨call, times⟩ := entry
    rw [retransmit, trace_append, List.filterMap_append, messages_copies,
      (seen_copies d call times).2, ih, List.map_cons, trace, List.filterMap_cons]
    cases Step.message? ⟨d, call⟩ <;> rfl

/-- A datagram that made the decoder ask for more may come again as often as it likes. A run in
which this happens shows the steps of the run without repetitions, each as often as its call was
made, and completes the same messages. -/
theorem retransmission_unseen (d : Decoder) :
    (∀ datagram request, (d.decode datagram).1 = .ok (.more request) → ∀ times,
      d.answers (List.replicate (times + 1) datagram) =
          List.replicate (times + 1) (.ok (.more request)) ∧
        d.run (List.replicate (times + 1) (.decode datagram)) = (d.decode datagram).2) ∧
    ∀ plan : List (Call × Nat),
      (d.trace (d.retransmit plan)).map Step.seen =
          ((d.trace (plan.map Prod.fst)).zip (plan.map Prod.snd)).flatMap
            (fun (s, times) => List.replicate (s.copies times) s.seen) ∧
        (d.trace (d.retransmit plan)).filterMap Step.message? =
          (d.trace (plan.map Prod.fst)).filterMap Step.message? ∧
        d.run (d.retransmit plan) = d.run (plan.map Prod.fst) := by
  refine ⟨fun datagram request hd times => ?_, fun plan =>
    ⟨seen_retransmit d plan, messages_retransmit d plan, run_retransmit d plan⟩⟩
  have hanswer : Step.answer? ⟨d, .decode datagram⟩ = some (.ok (.more request)) :=
    congrArg some hd
  obtain ⟨hseen, hrun⟩ := seen_replicate hanswer times
  refine ⟨?_, hrun⟩
  have hanswers := congrArg (List.filterMap fun seen => seen.2.1) hseen
  rw [List.filterMap_map] at hanswers
  rw [answers, List.map_replicate]
  refine hanswers.trans ?_
  rw [List.filterMap_replicate]
  rw [Step.seen, hanswer]

theorem messages_of_decode {first last : Bytes} {m : Message} {next final : Decoder}
    (hfirst : d.decode first = (.ok (.more request), next))
    (hlast : next.decode last = (.ok (.complete m), final)) :
    (d.trace [.decode first, .decode last]).filterMap Step.message? = [m] := by
  simp [trace, apply, Step.message?, Step.answer?, hfirst, hlast]

def halfLetter : Decoder := ⟨3, some (letterEncoder.transfer letter ⟨4000, "7f"⟩ "chat" 2 0)⟩

theorem decode_letter_first :
    Decoder.decode { limit := 3 } (letterWire 0) = (.ok (.more ⟨"7f", 4000⟩), halfLetter) :=
  decode_first (printed_letter 0 (by decide)) rfl (by decide) (by simp)
    (Encoder.readApp?_eq legible_letter (by decide)) (by decide)

theorem decode_letter_last :
    halfLetter.decode (letterWire 1) =
      (.ok (.complete (letterEncoder.message letter)), { limit := 3 }) := by
  rw [← Encoder.readMessage_eq legible_letter (by decide)]
  exact decode_last (printed_letter 1 (by decide)) rfl rfl rfl

theorem retransmission_unseen_letter :
    (Decoder.decode { limit := 3 } (letterWire 0)).1 = .ok (.more ⟨"7f", 4000⟩) ∧
      Decoder.answers { limit := 3 } (List.replicate 3 (letterWire 0)) =
        List.replicate 3 (.ok (.more ⟨"7f", 4000⟩)) ∧
      (Decoder.trace { limit := 3 } (retransmit { limit := 3 }
          [(.decode (letterWire 0), 2), (.decode (letterWire 1), 0)])).filterMap Step.message? =
        [letterEncoder.message letter] := by
  obtain ⟨hagain, hplan⟩ := retransmission_unseen { limit := 3 }
  have hmore : (Decoder.decode { limit := 3 } (letterWire 0)).1 = .ok (.more ⟨"7f", 4000⟩) := by
    rw [decode_letter_first]
  have hmessages : (Decoder.trace { limit := 3 }
      [.decode (letterWire 0), .decode (letterWire 1)]).filterMap Step.message? =
        [letterEncoder.message letter] :=
    messages_of_decode decode_letter_first decode_letter_last
  exact ⟨hmore, (hagain _ _ hmore 2).1,
    (hplan [(.decode (letterWire 0), 2), (.decode (letterWire 1), 0)]).2.1.trans hmessages⟩

end Retransmission

section Resemblance

/-- The two say the same of which fragment they are, and of which transfer. -/
def Resembles (h other : Header) : Prop :=
  h.fragment = other.fragment ∧ h.segments = other.segments ∧ h.ackCookie = other.ackCookie

/-- `p` is the fragment that was taken last: no call after it has changed anything. -/
structure TakenLast (steps : List Step) (p : Piece) : Prop where
  parse : Header.parse p.datagram = .ok (p.header, p.body)
  taken : ∃ earlier before later, steps = earlier ++ ⟨before, .decode p.datagram⟩ :: later ∧
    (before.decode p.datagram).2 ≠ before ∧ ∀ s ∈ later, s.after = s.before

structure Follows (t : Transfer) (p : Piece) : Prop where
  admissible : p.header.Admissible
  repeats : t.isRepeatedBy p.header = true
  request : ∃ request, t.ackRequest = .ok request

variable {steps : List Step} {p : Piece}

theorem TakenLast.concat (h : TakenLast steps p) {s : Step} (hs : s.after = s.before) :
    TakenLast (steps ++ [s]) p := by
  obtain ⟨earlier, before, later, hsteps, hchanged, hlater⟩ := h.taken
  refine ⟨h.parse, earlier, before, later ++ [s], by simp [hsteps], hchanged, fun r hr => ?_⟩
  rcases List.mem_append.1 hr with hr | hr
  · exact hlater r hr
  · rwa [List.mem_singleton.1 hr]

theorem takenLast_run (limit : Nat) (calls : List Call) :
    ∀ t ∈ (Decoder.run { limit } calls).transfer?,
      ∃ p, TakenLast (Decoder.trace { limit } calls) p ∧ Follows t p := by
  induction calls using List.reverseRecOn with
  | nil => simp [run]
  | append_singleton calls call ih =>
    rw [run_concat, trace_concat]
    cases call with
    | abandon => simp [apply, abandon]
    | decode datagram =>
      rw [apply]
      intro t ht
      by_cases hmore : ∃ request,
          ((Decoder.run { limit } calls).decode datagram).1 = .ok (.more request)
      · obtain ⟨request, hmore⟩ := hmore
        by_cases hsame : ((Decoder.run { limit } calls).decode datagram).2 =
            Decoder.run { limit } calls
        · obtain ⟨p, hlast, hfollows⟩ := ih t (hsame ▸ ht)
          exact ⟨p, hlast.concat hsame, hfollows⟩
        · obtain ⟨h, body, t', hp, ha, hnext, hrepeat, hack⟩ := of_decode_more hmore
          rw [hnext, Option.mem_some_iff] at ht
          subst ht
          exact ⟨⟨datagram, h, body⟩, ⟨hp, _, _, [], rfl, hsame, List.forall_mem_nil _⟩,
            ha, hrepeat, request, hack⟩
      · rw [decode_snd_of_not_more (not_exists.1 hmore)] at ht
        exact absurd ht (Option.not_mem_none t)

theorem Resembles.admissible {h other : Header} (hr : Resembles h other)
    (ha : other.Admissible) : h.Admissible := by
  obtain ⟨hfragment, hsegments, hcookie⟩ := hr
  exact ⟨by rw [hfragment, hsegments]; exact ha.fragment_lt,
    by rw [hsegments, hcookie]; exact ha.cookie⟩

theorem Follows.isRepeatedBy_iff (hf : Follows t p) :
    t.isRepeatedBy h = true ↔ Resembles h p.header := by
  obtain ⟨hfragment, hsegments, hcookie⟩ := Transfer.isRepeatedBy_iff.1 hf.repeats
  rw [Transfer.isRepeatedBy_iff, Resembles, hfragment, hsegments, hcookie]

/-- While a transfer is in progress, exactly those datagrams are acknowledged without any effect
that resemble the fragment taken last. Nothing else that they say or carry is looked at. -/
theorem repeats_iff_resembles {limit : Nat} {calls : List Call}
    (hprogress : (Decoder.run { limit } calls).inProgress = true) :
    ∃ p, TakenLast (Decoder.trace { limit } calls) p ∧ ∀ datagram,
      (∃ request, (Decoder.run { limit } calls).decode datagram =
          (.ok (.more request), Decoder.run { limit } calls)) ↔
        ∃ h body, Header.parse datagram = .ok (h, body) ∧ Resembles h p.header := by
  obtain ⟨t, ht⟩ := Option.isSome_iff_exists.1 hprogress
  obtain ⟨p, hlast, hfollows⟩ := takenLast_run limit calls t ht
  refine ⟨p, hlast, fun datagram => ⟨?_, ?_⟩⟩
  · rintro ⟨request, hd⟩
    obtain ⟨h, body, t', hp, -, hnext, hrepeat, -⟩ := of_decode_more (congrArg Prod.fst hd)
    rw [hd] at hnext
    have hsame : some t = some t' := ht.symm.trans (congrArg Decoder.transfer? hnext)
    cases hsame
    exact ⟨h, body, hp, hfollows.isRepeatedBy_iff.1 hrepeat⟩
  · rintro ⟨h, body, hp, hr⟩
    obtain ⟨request, hack⟩ := hfollows.request
    exact ⟨request, decode_repeated hp (hr.admissible hfollows.admissible) ht
      (hfollows.isRepeatedBy_iff.2 hr) hack⟩

theorem run_letter_first :
    Decoder.run { limit := 3 } [.decode (letterWire 0)] = halfLetter := by
  rw [run, List.foldl_cons, List.foldl_nil, apply, decode_letter_first]

theorem repeats_iff_resembles_letter :
    (Decoder.run { limit := 3 } [.decode (letterWire 0)]).inProgress = true ∧
      ∃ p, TakenLast (Decoder.trace { limit := 3 } [.decode (letterWire 0)]) p ∧
        ∃ h body, Header.parse (letterWire 0) = .ok (h, body) ∧ Resembles h p.header := by
  have hprogress : (Decoder.run { limit := 3 } [.decode (letterWire 0)]).inProgress = true := by
    rw [run_letter_first]
    rfl
  obtain ⟨p, hlast, hiff⟩ := repeats_iff_resembles hprogress
  refine ⟨hprogress, p, hlast, (hiff (letterWire 0)).1 ⟨⟨"7f", 4000⟩, ?_⟩⟩
  rw [run_letter_first]
  exact decode_same (printed_letter 0 (by decide)) rfl (by decide) rfl

/-- Another letter of three bytes that goes under the cookie of the first. -/
def rival : Outgoing := { letter with payload := [7, 8, 9], dest := "news" }

def rivalWire (i : Nat) : Bytes := (letterEncoder.encode rival i 2).toOption.getD []

theorem printed_rival (i : Nat) (hi : i < 2) :
    letterEncoder.Printed rival i 2 (rivalWire i) := by
  have hin : i * 2 < 3 := by omega
  obtain ⟨wire, hw⟩ := Encoder.exists_encode (e := letterEncoder) (m := rival) (by decide) hi
    (by decide) (by decide) (by decide) (fun _ => hin) (fun _ => ⟨_, rfl⟩) rfl
  have hwire : rivalWire i = wire := by
    rw [rivalWire, hw]
    rfl
  exact Encoder.printed_of_encode ⟨by decide, isToken_letter⟩ ⟨by decide, by decide⟩ (by decide)
    (hwire ▸ hw)

theorem decode_rival_first :
    halfLetter.decode (rivalWire 0) = (.ok (.more ⟨"7f", 4000⟩), halfLetter) := by
  have hprinted := printed_rival 0 (by decide)
  exact decode_repeated hprinted.parse (admissible_fragmentHeader hprinted.encodes) rfl rfl rfl

theorem decode_rival_last :
    halfLetter.decode (rivalWire 1) =
      (.ok (.complete { letterEncoder.message letter with body := [1, 2, 9] }),
        { limit := 3 }) := by
  rw [decode_eq_of_parse (printed_rival 1 (by decide)).parse,
    ← Encoder.readMessage_eq legible_letter (by decide)]
  rfl

/-- The rival's first fragment passes for a repetition of the letter's, so its last fragment ends
the letter: a message for the letter's application with the rival's last byte in it. -/
theorem mixed_rival :
    ∃ p q : Piece, TakenLast (Decoder.trace { limit := 3 } [.decode (letterWire 0)]) p ∧
      q.datagram = rivalWire 0 ∧ Header.parse q.datagram = .ok (q.header, q.body) ∧
      (Decoder.run { limit := 3 } [.decode (letterWire 0)]).decode q.datagram =
        (.ok (.more ⟨"7f", 4000⟩), Decoder.run { limit := 3 } [.decode (letterWire 0)]) ∧
      q.body ≠ p.body ∧ q.header.app ≠ p.header.app ∧
      ((Decoder.run { limit := 3 } [.decode (letterWire 0), .decode (rivalWire 0)]).decode
          (rivalWire 1)).1 =
        .ok (.complete { letterEncoder.message letter with body := [1, 2, 9] }) := by
  have hlast : TakenLast (Decoder.trace { limit := 3 } [.decode (letterWire 0)])
      ⟨letterWire 0, letterEncoder.fragmentHeader letter 0 2, letterEncoder.body letter 0 2⟩ := by
    refine ⟨(printed_letter 0 (by decide)).parse, [], { limit := 3 }, [], rfl, ?_,
      List.forall_mem_nil _⟩
    rw [decode_letter_first]
    exact fun hsame => Option.some_ne_none _ (congrArg Decoder.transfer? hsame)
  have hboth : Decoder.run { limit := 3 } [.decode (letterWire 0), .decode (rivalWire 0)] =
      halfLetter := by
    rw [← List.singleton_append, run_concat, run_letter_first, apply, decode_rival_first]
  have happ : (letterEncoder.fragmentHeader rival 0 2).app ≠
      (letterEncoder.fragmentHeader letter 0 2).app := by
    rw [(Encoder.fragmentHeader_common _ _ _ _).2.2, (Encoder.fragmentHeader_common _ _ _ _).2.2,
      Encoder.readApp?_eq legible_letter (by decide),
      (Encoder.readApp?_eq_some_dest_iff (by decide)).2
        ⟨by decide, isBlank_eq_false_of_all (by decide)⟩]
    decide
  refine ⟨_, ⟨rivalWire 0, letterEncoder.fragmentHeader rival 0 2, letterEncoder.body rival 0 2⟩,
    hlast, rfl, (printed_rival 0 (by decide)).parse, ?_, by decide, happ, ?_⟩
  · rw [run_letter_first, decode_rival_first]
  · rw [hboth, decode_rival_last]

end Resemblance

end Decoder

end MultimediaMessaging
