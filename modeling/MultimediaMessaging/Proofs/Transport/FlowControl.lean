import MultimediaMessaging.Proofs.Transport.Link

/-!
How far a sender can be ahead of its receiver. Main statement: a sender goes on to a fragment once
for every acknowledgement, and those of repeated fragments count like those of new ones; only while
nothing was repeated does the next fragment wait until the one before it is taken.
-/

set_option autoImplicit false

namespace MultimediaMessaging

open Text

namespace Link

variable {τ : Type}

inductive Standing (d : Delivery) (source : SocketAddress) (l : Link τ) : Prop
  /-- It took nothing of `d` so far. -/
  | before (accepted : l.accepted = []) (repeats : l.repeats = 0)
    (cookie : ∀ t ∈ l.receiver.transfer? source, t.cookie ≠ some d.cookie)
  /-- It waits for the fragment after the last one it took, which it can still read. -/
  | within (t : Transfer) (i : Nat) (transfer : l.receiver.transfer? source = some t)
    (tracks : d.Tracks t i) (accepted : l.accepted.length = i + 1)
    (legible : ∀ wire, d.encoder.encode d.message i d.segments = .ok wire →
      ∃ h body, Header.parse (l.receiver.cut wire) = .ok (h, body))
  /-- It has the message or gave it up, and its first fragment will not come again. -/
  | after (transfer : l.receiver.transfer? source = none) (accepted : l.accepted ≠ [])
    (outward : ∀ t ∈ l.outward, 0 < t.index)
    (sender : ∀ turn, l.sender = .running turn → 0 < turn.index)

structure Invariant (d : Delivery) (source : SocketAddress) (l : Link τ) : Prop where
  accepted : l.accepted = List.range l.accepted.length
  underway : ∀ turn, l.sender = .running turn → d.Underway turn
  /-- Every acknowledgement stands for a fragment taken or repeated. -/
  credit : ∀ turn, l.sender = .running turn →
    turn.index + l.homeward.length ≤ l.accepted.length + l.repeats
  ahead : ∀ turn, l.sender = .running turn → l.accepted.length ≤ turn.index + 1
  sent : ∀ t ∈ l.outward, d.encoder.encode d.message t.index d.segments = .ok t.wire
  sorted : l.outward.Pairwise fun t u => t.index ≤ u.index
  reached : ∀ turn, l.sender = .running turn → ∀ t ∈ l.outward, t.index ≤ turn.index
  released : ∀ t ∈ l.outward, t.index ≤ l.accepted.length + l.repeats
  behind : ∀ t ∈ l.outward, l.accepted.length ≤ t.index + 1
  standing : Standing d source l

variable {d : Delivery} {source : SocketAddress} {l l' : Link τ}

/-- Only the receiver moves the standing, as long as the sender stays past the first fragment. -/
theorem Standing.congr (h : Standing d source l)
    (transfer : l'.receiver.transfer? source = l.receiver.transfer? source)
    (config : l'.receiver.config = l.receiver.config) (accepted : l'.accepted = l.accepted)
    (repeats : l'.repeats = l.repeats)
    (past : (∀ t ∈ l.outward, 0 < t.index) →
      (∀ turn, l.sender = .running turn → 0 < turn.index) →
      (∀ t ∈ l'.outward, 0 < t.index) ∧ ∀ turn, l'.sender = .running turn → 0 < turn.index) :
    Standing d source l' := by
  cases h with
  | before hnone hzero cookie =>
    exact .before (accepted.trans hnone) (repeats.trans hzero) fun t ht => cookie t (transfer ▸ ht)
  | within t i htransfer tracks haccepted legible =>
    refine .within t i (transfer.trans htransfer) tracks (accepted ▸ haccepted) fun wire hw => ?_
    rw [Stack.cut, config]
    exact legible wire hw
  | after htransfer haccepted outward sender =>
    obtain ⟨houtward, hsender⟩ := past outward sender
    exact .after (transfer.trans htransfer) (accepted ▸ haccepted) houtward hsender

section Sender

variable {turn : Delivery.Turn}

/-- The sender goes on. An acknowledgement that takes it to the next fragment is used up. -/
theorem Invariant.resume (h : Invariant d source l) (running : l.sender = .running turn)
    (answer : Delivery.Answer) {homeward : List Acknowledgement.Return}
    (hle : homeward.length ≤ l.homeward.length)
    (hlt : d.Acknowledges turn answer → homeward.length < l.homeward.length) :
    Invariant d source { l with sender := d.resume turn answer, homeward } := by
  have hunderway := h.underway turn running
  have hcredit := h.credit turn running
  have hahead := h.ahead turn running
  have hreached := h.reached turn running
  have hindex (turn' : Delivery.Turn) (hr : d.resume turn answer = .running turn') :
      turn.index ≤ turn'.index ∧
        turn'.index + homeward.length ≤ turn.index + l.homeward.length := by
    rcases Delivery.index_resume hr with hsame | ⟨hack, hnext⟩
    · omega
    · have := hlt hack
      omega
  exact
    { accepted := h.accepted
      underway := fun turn' hr => hunderway.resume hr
      credit := fun turn' hr => by
        have := hindex turn' hr
        change turn'.index + homeward.length ≤ l.accepted.length + l.repeats
        omega
      ahead := fun turn' hr => by
        have := hindex turn' hr
        change l.accepted.length ≤ turn'.index + 1
        omega
      sent := h.sent
      sorted := h.sorted
      reached := fun turn' hr t ht => Nat.le_trans (hreached t ht) (hindex turn' hr).1
      released := h.released
      behind := h.behind
      standing := h.standing.congr rfl rfl rfl rfl fun outward sender =>
        ⟨outward, fun turn' hr => Nat.lt_of_lt_of_le (sender turn running) (hindex turn' hr).1⟩ }

theorem Invariant.transmit (h : Invariant d source l) (running : l.sender = .running turn) :
    Invariant d source { l with outward := l.outward ++ [turn.transmission] } := by
  have hunderway := h.underway turn running
  have hcredit := h.credit turn running
  have hmem {p : Delivery.Transmission → Prop} (hold : ∀ t ∈ l.outward, p t)
      (hnew : p turn.transmission) : ∀ t ∈ l.outward ++ [turn.transmission], p t := by
    intro t ht
    rcases List.mem_append.1 ht with ht | ht
    · exact hold t ht
    · rwa [List.mem_singleton.1 ht]
  exact
    { accepted := h.accepted
      underway := h.underway
      credit := h.credit
      ahead := h.ahead
      sent := hmem h.sent hunderway.encode
      sorted := by
        refine List.pairwise_append.2 ⟨h.sorted, List.pairwise_singleton _ _, fun t ht u hu => ?_⟩
        rw [List.mem_singleton.1 hu]
        exact h.reached turn running t ht
      reached := fun turn' hr => by
        have hsame : turn' = turn := by
          have := hr.symm.trans running
          cases this
          rfl
        exact hmem (h.reached turn' hr) (hsame ▸ Nat.le_refl _)
      released := hmem h.released (by
        change turn.index ≤ l.accepted.length + l.repeats
        omega)
      behind := hmem h.behind (h.ahead turn running)
      standing := h.standing.congr rfl rfl rfl rfl fun outward sender =>
        ⟨hmem outward (sender turn running), sender⟩ }

end Sender

theorem Invariant.loseDatagram (h : Invariant d source l)
    {outward : List Delivery.Transmission} (hsub : outward.Sublist l.outward) :
    Invariant d source { l with outward } where
  accepted := h.accepted
  underway := h.underway
  credit := h.credit
  ahead := h.ahead
  sent t ht := h.sent t (hsub.subset ht)
  sorted := h.sorted.sublist hsub
  reached turn hr t ht := h.reached turn hr t (hsub.subset ht)
  released t ht := h.released t (hsub.subset ht)
  behind t ht := h.behind t (hsub.subset ht)
  standing := h.standing.congr rfl rfl rfl rfl fun outward sender =>
    ⟨fun t ht => outward t (hsub.subset ht), sender⟩

theorem Invariant.loseReturn (h : Invariant d source l)
    {homeward : List Acknowledgement.Return} (hle : homeward.length ≤ l.homeward.length) :
    Invariant d source { l with homeward } where
  accepted := h.accepted
  underway := h.underway
  credit turn hr := Nat.le_trans (Nat.add_le_add_left hle _) (h.credit turn hr)
  ahead := h.ahead
  sent := h.sent
  sorted := h.sorted
  reached := h.reached
  released := h.released
  behind := h.behind
  standing := h.standing.congr rfl rfl rfl rfl And.intro

/-- A datagram that was refused, or did not concern `source`, changes at most where the receiver
stands. -/
theorem Invariant.withReceiver (h : Invariant d source l) {receiver : Stack τ}
    (hs : Standing d source { l with receiver }) : Invariant d source { l with receiver } where
  accepted := h.accepted
  underway := h.underway
  credit := h.credit
  ahead := h.ahead
  sent := h.sent
  sorted := h.sorted
  reached := h.reached
  released := h.released
  behind := h.behind
  standing := hs

theorem Invariant.repeated (h : Invariant d source l) {receiver : Stack τ}
    {ack : Acknowledgement.Return}
    (hs : Standing d source
      { l with receiver, homeward := l.homeward ++ [ack], repeats := l.repeats + 1 }) :
    Invariant d source
      { l with receiver, homeward := l.homeward ++ [ack], repeats := l.repeats + 1 } where
  accepted := h.accepted
  underway := h.underway
  credit turn hr := by
    have := h.credit turn hr
    rw [List.length_append, List.length_singleton]
    change turn.index + (l.homeward.length + 1) ≤ l.accepted.length + (l.repeats + 1)
    omega
  ahead := h.ahead
  sent := h.sent
  sorted := h.sorted
  reached := h.reached
  released t ht := Nat.le_succ_of_le (h.released t ht)
  behind := h.behind
  standing := hs

/-- The receiver takes the fragment after those it took. The last one is not acknowledged. -/
theorem Invariant.taken (h : Invariant d source l) {receiver : Stack τ} {i : Nat}
    (acks : List Acknowledgement.Return) (hi : i = l.accepted.length) (hacks : acks.length ≤ 1)
    (hsender : ∀ turn, l.sender = .running turn → i ≤ turn.index)
    (hbehind : ∀ t ∈ l.outward, i ≤ t.index)
    (hs : Standing d source
      { l with receiver, homeward := l.homeward ++ acks, accepted := l.accepted ++ [i] }) :
    Invariant d source
      { l with receiver, homeward := l.homeward ++ acks, accepted := l.accepted ++ [i] } where
  accepted := by
    change l.accepted ++ [i] = List.range (l.accepted ++ [i]).length
    rw [List.length_append, List.length_singleton, List.range_succ, ← h.accepted, hi]
  underway := h.underway
  credit turn hr := by
    have := h.credit turn hr
    change turn.index + (l.homeward ++ acks).length ≤ (l.accepted ++ [i]).length + l.repeats
    simp only [List.length_append, List.length_singleton]
    omega
  ahead turn hr := by
    have := hsender turn hr
    change (l.accepted ++ [i]).length ≤ turn.index + 1
    rw [List.length_append, List.length_singleton]
    omega
  sent := h.sent
  sorted := h.sorted
  reached := h.reached
  released t ht := by
    have := h.released t ht
    change t.index ≤ (l.accepted ++ [i]).length + l.repeats
    rw [List.length_append, List.length_singleton]
    omega
  behind t ht := by
    have := hbehind t ht
    change (l.accepted ++ [i]).length ≤ t.index + 1
    rw [List.length_append, List.length_singleton]
    omega
  standing := hs

theorem Invariant.elsewhere (h : Invariant d source l) {receiver : Stack τ}
    (decoder : receiver.assembler.decoderFor source = l.receiver.assembler.decoderFor source)
    (config : receiver.config = l.receiver.config) : Invariant d source { l with receiver } := by
  have htransfer : receiver.transfer? source = l.receiver.transfer? source := by
    rw [Stack.transfer?, decoder, Stack.transfer?]
  exact h.withReceiver (h.standing.congr htransfer config rfl rfl And.intro)

theorem invariant_of_fresh (h : Fresh d source l) : Invariant d source l := by
  obtain ⟨hsender, houtward, hhomeward, haccepted, hrepeats, hcookie⟩ := h
  have hstart (turn : Delivery.Turn) (hr : l.sender = .running turn) :
      turn.index = 0 ∧ d.Underway turn :=
    Delivery.enter_eq_running (hsender.symm.trans hr)
  exact
    { accepted := by rw [haccepted]; rfl
      underway := fun turn hr => (hstart turn hr).2
      credit := fun turn hr => by
        rw [(hstart turn hr).1, hhomeward]
        exact Nat.zero_le _
      ahead := fun turn hr => by
        rw [haccepted]
        exact Nat.zero_le _
      sent := by simp [houtward]
      sorted := by simp [houtward]
      reached := by simp [houtward]
      released := by simp [houtward]
      behind := by simp [houtward]
      standing := .before haccepted hrepeats hcookie }

section Arrival

variable [DecidableEq τ] {now : Time} {first : Delivery.Transmission}
  {rest : List Delivery.Transmission}

structure Arriving (d : Delivery) (l : Link τ) (first : Delivery.Transmission)
    (rest : List Delivery.Transmission) : Prop where
  wire : d.encoder.encode d.message first.index d.segments = .ok first.wire
  read : ∀ h body, Header.parse (l.receiver.cut first.wire) = .ok (h, body) →
    d.Announces h first.index
  sender : ∀ turn, l.sender = .running turn → first.index ≤ turn.index
  rest : ∀ t ∈ rest, first.index ≤ t.index

theorem Invariant.arrive_before (h : Invariant d source { l with outward := rest })
    (ha : Arriving d l first rest) (hn : 1 < d.segments) (accepted : l.accepted = [])
    (repeats : l.repeats = 0)
    (cookie : ∀ t ∈ l.receiver.transfer? source, t.cookie ≠ some d.cookie)
    (hzero : first.index = 0) : Invariant d source (l.arrive now source first rest) := by
  cases (l.receiver.assembler.decoderFor source).outcome (l.receiver.cut first.wire) with
  | refused err result =>
    obtain ⟨receiver, -, htransfer, harrive⟩ := arrive_error now first rest result
    rw [harrive]
    refine h.withReceiver (.before accepted repeats fun t ht => ?_)
    rw [htransfer] at ht
    cases ht
  | repeated header body t request parse transfer repeated result =>
    simp only [Transfer.isRepeatedBy, decide_eq_true_eq] at repeated
    exact absurd (repeated.2.2.symm.trans (ha.read _ _ parse).cookie) (cookie t transfer)
  | taken header body t request parse takes result =>
    have hannounced := ha.read _ _ parse
    rcases takes with ⟨-, hstart⟩ | ⟨before, -, hextend⟩
    · have htracks := Delivery.tracks_start hstart hannounced
      have hnew : some t ≠ l.receiver.transfer? source := fun hsame =>
        cookie t hsame.symm htracks.cookie
      obtain ⟨receiver, hconfig, htransfer, harrive⟩ :=
        arrive_taken now first rest result hnew
      rw [harrive]
      refine h.taken [reply source request] (by rw [hzero, accepted]; rfl) (Nat.le_refl 1) ha.sender
        ha.rest (.within t 0 htransfer htracks (by rw [accepted]; rfl) fun wire hw => ?_)
      rw [← hzero, ha.wire] at hw
      cases hw
      rw [Stack.cut, hconfig]
      exact ⟨header, body, parse⟩
    · obtain ⟨size, -, -, -, hindex, -⟩ := Transfer.extend_ok hextend
      have := hannounced.fragment
      omega
  | completed header body t m parse takes segments finish result =>
    have hannounced := ha.read _ _ parse
    have hsegments := hannounced.segments
    have hfragment := hannounced.fragment
    omega

/-- After fragment `i` the receiver acknowledges it again, takes the next one, or gives up. -/
theorem Invariant.arrive_within {t : Transfer} {i : Nat}
    (h : Invariant d source { l with outward := rest }) (ha : Arriving d l first rest)
    (transfer : l.receiver.transfer? source = some t) (tracks : d.Tracks t i)
    (accepted : l.accepted.length = i + 1)
    (legible : ∀ wire, d.encoder.encode d.message i d.segments = .ok wire →
      ∃ h body, Header.parse (l.receiver.cut wire) = .ok (h, body))
    (hle : i ≤ first.index) (hlt : first.index < d.segments) :
    Invariant d source (l.arrive now source first rest) := by
  have hne : l.accepted ≠ [] := List.ne_nil_of_length_eq_add_one accepted
  rcases Nat.eq_or_lt_of_le hle with rfl | hgt
  · obtain ⟨header, body, parse⟩ := legible first.wire ha.wire
    obtain ⟨request, hd⟩ := tracks.decode transfer hlt (ha.read _ _ parse) parse
    obtain ⟨receiver, hconfig, htransfer, harrive⟩ :=
      arrive_repeated now first rest hd rfl
    rw [harrive]
    refine h.repeated (.within t first.index (htransfer.trans transfer) tracks accepted ?_)
    intro wire hw
    rw [Stack.cut, hconfig]
    exact legible wire hw
  · -- a later fragment is not the one that the transfer ends with, nor its first
    have htakes {header : Header} {body : Bytes} {t' : Transfer}
        (parse : Header.parse (l.receiver.cut first.wire) = .ok (header, body))
        (takes : (l.receiver.assembler.decoderFor source).Takes header body t') :
        first.index = i + 1 ∧ d.Tracks t' first.index := by
      have hannounced := ha.read _ _ parse
      rcases takes with ⟨hzero, -⟩ | ⟨before, hbefore, hextend⟩
      · have := hannounced.fragment
        omega
      · have hsame := transfer.symm.trans hbefore
        cases hsame
        exact tracks.extend hannounced hextend
    cases (l.receiver.assembler.decoderFor source).outcome (l.receiver.cut first.wire) with
    | refused err result =>
      obtain ⟨receiver, -, htransfer, harrive⟩ := arrive_error now first rest result
      rw [harrive]
      exact h.withReceiver (.after htransfer hne
        (fun u hu => Nat.lt_of_lt_of_le (Nat.zero_lt_of_lt hgt) (ha.rest u hu))
        fun turn hr => Nat.lt_of_lt_of_le (Nat.zero_lt_of_lt hgt) (ha.sender turn hr))
    | repeated header body t' request parse htransfer repeats result =>
      have hsame := transfer.symm.trans htransfer
      cases hsame
      have := (tracks.isRepeatedBy_iff (ha.read _ _ parse)).1 repeats
      omega
    | taken header body t' request parse takes result =>
      obtain ⟨hnext, htracks⟩ := htakes parse takes
      have hnew : some t' ≠ l.receiver.transfer? source := by
        rw [transfer]
        rintro ⟨⟩
        have hi := tracks.index
        have hj := htracks.index
        omega
      obtain ⟨receiver, hconfig, hafter, harrive⟩ :=
        arrive_taken now first rest result hnew
      rw [harrive]
      refine h.taken [reply source request] (by rw [hnext]; exact accepted.symm) (Nat.le_refl 1)
        ha.sender ha.rest (.within t' first.index hafter htracks ?_ fun wire hw => ?_)
      · change (l.accepted ++ [first.index]).length = first.index + 1
        rw [List.length_append, List.length_singleton, accepted, hnext]
      · rw [ha.wire] at hw
        cases hw
        rw [Stack.cut, hconfig]
        exact ⟨header, body, parse⟩
    | completed header body t' m parse takes segments finish result =>
      obtain ⟨hnext, -⟩ := htakes parse takes
      obtain ⟨receiver, -, hafter, harrive⟩ := arrive_complete now first rest result
      rw [harrive]
      have hall := h.taken [] (by rw [hnext]; exact accepted.symm) (Nat.zero_le 1) ha.sender ha.rest
        (.after hafter (List.append_ne_nil_of_right_ne_nil _ (List.cons_ne_nil _ _))
          (fun u hu => Nat.lt_of_lt_of_le (Nat.zero_lt_of_lt hgt) (ha.rest u hu))
          fun turn hr => Nat.lt_of_lt_of_le (Nat.zero_lt_of_lt hgt) (ha.sender turn hr))
      simpa only [List.append_nil] using hall

/-- A receiver without a transfer refuses every fragment but the first. -/
theorem Invariant.arrive_after (h : Invariant d source { l with outward := rest })
    (ha : Arriving d l first rest) (transfer : l.receiver.transfer? source = none)
    (accepted : l.accepted ≠ []) (hpos : 0 < first.index) (outward : ∀ t ∈ rest, 0 < t.index)
    (sender : ∀ turn, l.sender = .running turn → 0 < turn.index) :
    Invariant d source (l.arrive now source first rest) := by
  have htakes {header : Header} {body : Bytes} {t : Transfer}
      (parse : Header.parse (l.receiver.cut first.wire) = .ok (header, body))
      (takes : (l.receiver.assembler.decoderFor source).Takes header body t) : False := by
    rcases takes with ⟨hzero, -⟩ | ⟨before, hbefore, -⟩
    · have := (ha.read _ _ parse).fragment
      omega
    · have hnone := transfer.symm.trans hbefore
      cases hnone
  cases (l.receiver.assembler.decoderFor source).outcome (l.receiver.cut first.wire) with
  | refused err result =>
    obtain ⟨receiver, -, htransfer, harrive⟩ := arrive_error now first rest result
    rw [harrive]
    exact h.withReceiver (.after htransfer accepted outward sender)
  | repeated header body t request parse htransfer repeats result =>
    have hnone := transfer.symm.trans htransfer
    cases hnone
  | taken header body t request parse takes result => exact (htakes parse takes).elim
  | completed header body t m parse takes segments finish result => exact (htakes parse takes).elim

end Arrival

section Run

variable [DecidableEq τ]

theorem Invariant.arrive (h : Invariant d source l) (hr : d.Readable) (hn : 1 < d.segments)
    {now : Time} {first : Delivery.Transmission} {rest : List Delivery.Transmission}
    (outward : l.outward = first :: rest) :
    Invariant d source (l.arrive now source first rest) := by
  have hmem : first ∈ l.outward := outward ▸ List.mem_cons_self
  have hsub : rest.Sublist l.outward := outward ▸ List.sublist_cons_self first rest
  have hsorted := h.sorted
  rw [outward, List.pairwise_cons] at hsorted
  have hwire := h.sent first hmem
  have ha : Arriving d l first rest :=
    { wire := hwire
      read := fun _ _ hp => hr.announces_of_parse hn hwire hp
      sender := fun turn hrunning => h.reached turn hrunning first hmem
      rest := hsorted.1 }
  have hrest := h.loseDatagram hsub
  cases h.standing with
  | before accepted repeats cookie =>
    have hreleased := h.released first hmem
    rw [accepted, repeats] at hreleased
    exact hrest.arrive_before ha hn accepted repeats cookie (Nat.le_zero.1 hreleased)
  | within t i transfer tracks accepted legible =>
    have hbehind := h.behind first hmem
    have hlt := (Encoder.encodes_of_encode hwire).index_lt
    exact hrest.arrive_within ha transfer tracks accepted legible (by omega) hlt
  | after transfer accepted outward sender =>
    exact hrest.arrive_after ha transfer accepted (outward first hmem)
      (fun t ht => outward t (hsub.subset ht)) sender

theorem Invariant.step (h : Invariant d source l) (hr : d.Readable) (hn : 1 < d.segments)
    (hs : Step d source l l') : Invariant d source l' := by
  cases hs with
  | proceed turn answer running unsent silent =>
    exact h.resume running answer (Nat.le_refl _) fun hack => absurd hack silent
  | transmit turn answer running sent =>
    refine (h.transmit running).resume running answer (Nat.le_refl _) fun hack => ?_
    obtain ⟨_, _, _, hwait, -⟩ := hack
    obtain ⟨_, hsend, -⟩ := sent
    cases hwait.symm.trans hsend
  | loseDatagram before after lost outward =>
    refine h.loseDatagram ?_
    rw [outward]
    exact (List.Sublist.refl before).append (List.sublist_cons_self lost after)
  | arrive now first rest outward => exact h.arrive hr hn outward
  | loseReturn before after lost homeward =>
    refine h.loseReturn ?_
    rw [homeward]
    simp only [List.length_append, List.length_cons]
    omega
  | acknowledge turn deadline first rest running waiting homeward =>
    refine h.resume running _ ?_ fun _ => ?_
    · rw [homeward]
      exact Nat.le_succ _
    · rw [homeward]
      exact Nat.lt_succ_self _
  | elsewhere receiver decoder config => exact h.elsewhere decoder config

theorem invariant_of_reachable (hr : d.Readable) (hn : 1 < d.segments)
    (h : Reachable d source l) : Invariant d source l := by
  induction h with
  | fresh h => exact invariant_of_fresh h
  | step _ hs ih => exact ih.step hr hn hs

/-- While the sender is at fragment `i + 1` the receiver has taken fragment `i`, or one that is as
many before it as there were repetitions acknowledged. -/
theorem accepted_of_running {s : Sender} {parcel : Parcel} {timestamp millis i : Nat}
    {counter : UInt32} {address : Except IoError SocketAddress} {turn : Delivery.Turn}
    (hd : s.prepare parcel timestamp (Delivery.cookieText millis counter) address = .ok d)
    (hp : '\n' ∉ s.encoder.phone.toList) (hm : d.message.Sized) (hn : 1 < d.segments)
    (h : Reachable d source l) (running : l.sender = .running turn) (hi : turn.index = i + 1) :
    i - l.repeats ∈ l.accepted := by
  have hr : d.Readable := Sender.readable_of_prepare hd hp hm
  have hinv := invariant_of_reachable hr hn h
  have hcredit := hinv.credit turn running
  have hsome : l.accepted ≠ [] := by
    cases hinv.standing with
    | before accepted repeats cookie =>
      rw [accepted, repeats, List.length_nil] at hcredit
      omega
    | within t j transfer tracks accepted legible => exact List.ne_nil_of_length_eq_add_one accepted
    | after transfer accepted outward sender => exact accepted
  have hpos := List.length_pos_iff.2 hsome
  rw [hinv.accepted, List.mem_range]
  omega

end Run

section Errand

open Sender

def errandInbox : Stack Unit :=
  { config := {}
    router := { pool := .new 10 }
    assembler := { maxPending := 16, timeout := milliseconds 30000, limit := 307200 } }

theorem length_errandWire : (errandWire 0).length ≤ 1500 := by
  decide +kernel

theorem cut_errandWire {s : Stack Unit} (h : s.config = {}) :
    s.cut (errandWire 0) = errandWire 0 := by
  rw [Stack.cut, h]
  exact List.take_of_length_le length_errandWire

theorem reachable_errand_taken :
    ∃ receiver : Stack Unit, receiver.config = {} ∧
      receiver.transfer? Sender.courierAddress = some
        (errand.encoder.transfer errand.message ⟨4000, Delivery.cookieText 1 1⟩ "chat" 3 0) ∧
      Reachable errand Sender.courierAddress
        { sender := .running ⟨0, 1, errandWire 0, .receive (0 + errand.ackTimeout)⟩
          receiver
          homeward := [reply Sender.courierAddress ⟨Delivery.cookieText 1 1, 4000⟩]
          accepted := [0] } := by
  have hstart : Reachable errand Sender.courierAddress
      { sender := .running ⟨0, 1, errandWire 0, .noteSend⟩, receiver := errandInbox } := by
    refine .fresh ⟨(Delivery.enter_of_encode (encode_errand 0 (by decide))).symm,
      rfl, rfl, rfl, rfl, fun t ht => ?_⟩
    cases ht
  have hsent := hstart.runs (Delivery.runs_attempt (by decide) (by decide))
  have hd := Decoder.decode_first (d := { limit := 307200 }) (printed_errand 0 (by decide)) rfl
    (by decide) (by simp) (Encoder.readApp?_eq legible_errand (by decide))
    (by decide)
  rw [← cut_errandWire (s := errandInbox) rfl] at hd
  obtain ⟨receiver, hconfig, htransfer, harrive⟩ := arrive_taken 0 ⟨0, errandWire 0⟩ []
    (l := { sender := .running ⟨0, 1, errandWire 0, .receive (0 + errand.ackTimeout)⟩
            receiver := errandInbox
            outward := [⟨0, errandWire 0⟩] }) hd (by simp [errandInbox, Stack.transfer?,
      Assembler.decoderFor])
  have htaken := hsent.step (.arrive 0 ⟨0, errandWire 0⟩ [] rfl)
  exact ⟨receiver, hconfig, htransfer, harrive ▸ htaken⟩

theorem reachable_errand_second :
    ∃ receiver : Stack Unit,
      Reachable errand Sender.courierAddress
        { sender := .running ⟨1, 1, errandWire 1, .noteSend⟩, receiver, accepted := [0] } := by
  obtain ⟨receiver, -, -, htaken⟩ := reachable_errand_taken
  exact ⟨receiver, htaken.acknowledged rfl rfl isAcknowledgedBy_errand
    (encode_errand 1 (by decide))⟩

theorem accepted_errand :
    ∃ l : Link Unit, (∃ turn, l.sender = .running turn ∧ turn.index = 0 + 1) ∧ l.repeats = 0 ∧
      0 - l.repeats ∈ l.accepted := by
  obtain ⟨receiver, hsecond⟩ := reachable_errand_second
  exact ⟨_, ⟨_, rfl, rfl⟩, rfl, accepted_of_running prepare_errand (by decide) sized_errand
    (by decide) hsecond rfl rfl⟩

/-- The acknowledgement of the first fragment comes late. Sent again, the fragment is acknowledged
again; with the two acknowledgements the sender goes on to the third fragment while the second is
lost. -/
theorem not_accepted_errand :
    ∃ (l : Link Unit) (turn : Delivery.Turn) (deadline : Time),
      Reachable errand Sender.courierAddress l ∧ l.sender = .running turn ∧ turn.index = 1 + 1 ∧
      turn.attempts = 1 ∧ turn.stage = .send deadline ∧ turn.index < errand.segments ∧
      1 ∉ l.accepted := by
  obtain ⟨receiver, hconfig, htransfer, htaken⟩ := reachable_errand_taken
  have hagain := (htaken.runs (Delivery.runs_timeout (by decide))).runs
    (Delivery.runs_attempt (by decide) (by decide))
  have hd := Decoder.decode_same (d := receiver.assembler.decoderFor Sender.courierAddress)
    (printed_errand 0 (by decide)) rfl (by decide) htransfer
  rw [← cut_errandWire hconfig] at hd
  obtain ⟨receiver', -, -, harrive⟩ := arrive_repeated 0 ⟨0, errandWire 0⟩ []
    (l := { sender := .running ⟨0, 2, errandWire 0, .receive (0 + errand.ackTimeout)⟩
            receiver
            outward := [⟨0, errandWire 0⟩]
            homeward := [reply Sender.courierAddress ⟨Delivery.cookieText 1 1, 4000⟩]
            accepted := [0] }) hd rfl
  have hboth : Reachable errand Sender.courierAddress
      { sender := .running ⟨0, 2, errandWire 0, .receive (0 + errand.ackTimeout)⟩
        receiver := receiver'
        homeward := [reply Sender.courierAddress ⟨Delivery.cookieText 1 1, 4000⟩,
          reply Sender.courierAddress ⟨Delivery.cookieText 1 1, 4000⟩]
        accepted := [0]
        repeats := 1 } := harrive ▸ hagain.step (.arrive 0 ⟨0, errandWire 0⟩ [] rfl)
  have hsecond := (hboth.acknowledged rfl rfl isAcknowledgedBy_errand
    (encode_errand 1 (by decide))).runs (Delivery.runs_attempt (by decide) (by decide))
  have hlost := hsecond.step (.loseDatagram [] [] ⟨1, errandWire 1⟩ rfl)
  have hthird : Reachable errand Sender.courierAddress
      { sender := .running ⟨2, 1, errandWire 2, .send (0 + errand.ackTimeout)⟩
        receiver := receiver'
        accepted := [0]
        repeats := 1 } :=
    (hlost.acknowledged rfl rfl isAcknowledgedBy_errand (encode_errand 2 (by decide))).runs
      (.time 0 (.rest _))
  exact ⟨_, _, _, hthird, rfl, rfl, rfl, rfl, by decide, (by decide : 1 ∉ [0])⟩

end Errand

end Link

end MultimediaMessaging
