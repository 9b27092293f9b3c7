import MultimediaMessaging.Proofs.Fragment.Lines

/-!
The header of a printed fragment, and what a receiver takes from it. Numbers and the cookie come
back as they were; of the addresses it is said what they are read as, whatever is in them.
-/

set_option autoImplicit false

namespace MultimediaMessaging

open Text

/-- A cookie that header lines and acknowledgements carry unchanged. -/
structure IsToken (cookie : String) : Prop where
  nonempty : cookie ≠ ""
  lineEnd : '\n' ∉ cookie.toList
  head : ∀ c ∈ cookie.toList.head?, isBlank c = false
  last : ∀ c ∈ cookie.toList.getLast?, isBlank c = false

theorem IsToken.trim_eq {cookie : String} (h : IsToken cookie) :
    trim cookie.toList = cookie.toList :=
  trim_eq_self h.head h.last

structure Outgoing.Sized (m : Outgoing) : Prop where
  timestamp : m.timestamp ≤ limit64
  length : m.payload.length ≤ limit64

namespace Encoder

/-- Neither the phone number nor the cookie breaks the line that it stands on. Of the applications
the encoder makes sure itself. -/
structure Unbroken (e : Encoder) (m : Outgoing) : Prop where
  phone : '\n' ∉ e.phone.toList
  cookie : ∀ ack ∈ m.ack, IsToken ack.cookie

@[irreducible] def readApp? (m : Outgoing) : Option String :=
  Subscriber.app? (String.ofList (trim s!"mms://:{m.dest}".toList))

@[irreducible] def readSender (e : Encoder) (m : Outgoing) : String × String :=
  Subscriber.splitSender (String.ofList (trim (senderAddress e.phone m.source).toList))

def commonHeader (e : Encoder) (m : Outgoing) (segments : Nat) : Header :=
  { date := some m.timestamp
    app := readApp? m
    sender := some (e.readSender m).1
    replyTo := (e.readSender m).2
    contentLength := some m.payload.length
    segments }

def offset (e : Encoder) (index segments : Nat) : Nat :=
  if segments = 1 then 0 else index * e.fragmentSize

def size (e : Encoder) (length index segments : Nat) : Nat :=
  if segments = 1 then length
  else if index + 1 = segments then length - index * e.fragmentSize
  else min e.fragmentSize (length - index * e.fragmentSize)

def body (e : Encoder) (m : Outgoing) (index segments : Nat) : Bytes :=
  (m.payload.drop (e.offset index segments)).take (e.size m.payload.length index segments)

def fragmentHeader (e : Encoder) (m : Outgoing) (index segments : Nat) : Header :=
  if segments ≤ 1 then e.commonHeader m segments
  else
    match m.ack with
    | some ack =>
      { e.commonHeader m segments with
        fragment := index
        fragmentSize := some (e.size m.payload.length index segments)
        fragmentOffset := e.offset index segments
        ackPort := some ack.port
        ackCookie := some ack.cookie }
    | none => e.commonHeader m segments

theorem lineEnd_notMem_of_isLineSafe {colon : Bool} {app : String}
    (h : isLineSafe colon app = true) : '\n' ∉ app.toList := by
  intro hm
  have := List.all_eq_true.1 h _ hm
  simp at this

theorem lineEnd_notMem_senderAddress {phone source : String} (hp : '\n' ∉ phone.toList)
    (hs : '\n' ∉ source.toList) : '\n' ∉ (senderAddress phone source).toList := by
  unfold senderAddress
  split
  · change '\n' ∉ ("mms://" ++ phone).toList
    simp [hp]
  · change '\n' ∉ ("mms://" ++ phone ++ ":" ++ source).toList
    simp [hp, hs]

/-- The common lines are read to their end, and whatever follows them is read next. -/
theorem parseFrom_commonLines {e : Encoder} {m : Outgoing} {segments : Nat} {rest : Bytes}
    (hp : '\n' ∉ e.phone.toList) (hd : '\n' ∉ m.dest.toList) (hs : '\n' ∉ m.source.toList)
    (hm : m.Sized) (hn : segments ≤ limit64) :
    Header.parseFrom {} (Text.encode (e.commonLines m segments) ++ rest) =
      Header.parseFrom (e.commonHeader m segments) rest := by
  have hd : '\n' ∉ s!"mms://:{m.dest}".toList := by
    change '\n' ∉ ("mms://:" ++ m.dest).toList
    simp [hd]
  simp only [commonLines, encode_append, List.append_assoc]
  rw [Header.parseFrom_keyLine (Header.lineEnd_notMem_toString _), Header.set,
    Header.readValue_digits hm.timestamp]
  simp only [Except.map, Except.bind]
  rw [Header.parseFrom_keyLine hd, Header.set]
  simp only [Except.bind]
  rw [Header.parseFrom_keyLine (lineEnd_notMem_senderAddress hp hs), Header.set]
  simp only [Except.bind]
  rw [Header.parseFrom_headerLine Header.isLineName_contentType (by decide)]
  have hc : HeaderKey.ofChars? "Content-Type".toList = none := by decide
  simp only [hc, Except.bind]
  rw [Header.parseFrom_keyLine (Header.lineEnd_notMem_toString _), Header.set,
    Header.readValue_digits hm.length]
  simp only [Except.map, Except.bind]
  rw [Header.parseFrom_keyLine (Header.lineEnd_notMem_toString _), Header.set,
    Header.readValue_digits hn]
  simp only [Except.map, Except.bind, commonHeader, readApp?, readSender]

theorem parseFrom_fragmentLines {h : Header} {index offset size : Nat} {ack : AckEndpoint}
    {rest : Bytes} (hi : index ≤ limit64) (ho : offset ≤ limit64) (hs : size ≤ limit64)
    (hc : IsToken ack.cookie) :
    Header.parseFrom h (Text.encode (fragmentLines index offset size ack) ++ rest) =
      Header.parseFrom
        { h with
          fragment := index
          fragmentSize := some size
          fragmentOffset := offset
          ackPort := some ack.port
          ackCookie := some ack.cookie } rest := by
  have hport : ack.port.toNat ≤ limit16 := Nat.le_of_lt_succ ack.port.toNat_lt
  simp only [fragmentLines, encode_append, List.append_assoc]
  rw [Header.parseFrom_keyLine (Header.lineEnd_notMem_toString _), Header.set,
    Header.readValue_digits hi]
  simp only [Except.map, Except.bind]
  rw [Header.parseFrom_keyLine (Header.lineEnd_notMem_toString _), Header.set,
    Header.readValue_digits hs]
  simp only [Except.map, Except.bind]
  rw [Header.parseFrom_keyLine (Header.lineEnd_notMem_toString _), Header.set,
    Header.readValue_digits ho]
  simp only [Except.map, Except.bind]
  rw [Header.parseFrom_keyLine (Header.lineEnd_notMem_toString _), Header.set,
    Header.readValue_digits hport]
  simp only [Except.map, Except.bind]
  have hne : ack.cookie.toList ≠ [] := fun h => hc.nonempty (String.toList_eq_nil_iff.1 h)
  rw [Header.parseFrom_keyLine hc.lineEnd, Header.set, hc.trim_eq]
  simp only [hne, if_false, Except.bind, String.ofList_toList, Nat.toUInt16_eq, UInt16.ofNat_toNat]

theorem slice_eq_ok {e : Encoder} {length index segments : Nat} {p : Nat × Nat}
    (h : e.slice length index segments = .ok p) :
    p = (e.offset index segments, e.size length index segments) ∧
      (segments ≠ 1 → index * e.fragmentSize < length) := by
  unfold slice at h
  unfold offset size
  by_cases hn : segments = 1
  · simp only [hn, if_true, Except.ok.injEq] at h ⊢
    simp [← h]
  · simp only [hn, if_false] at h ⊢
    split at h
    · cases h
    · split at h <;> (cases h; simp_all)

structure Encodes (e : Encoder) (m : Outgoing) (index segments : Nat) (wire : Bytes) : Prop where
  fragmentSize_pos : 0 < e.fragmentSize
  index_lt : index < segments
  dest_ne : m.dest ≠ ""
  dest_safe : isLineSafe true m.dest = true
  source_safe : isLineSafe false m.source = true
  offset_lt : segments ≠ 1 → index * e.fragmentSize < m.payload.length
  bytes : ∃ text,
    e.headerText m index segments (e.offset index segments)
      (e.size m.payload.length index segments) = .ok text ∧
    wire = Text.encode text ++ Header.marker ++ e.body m index segments
  bounded : ∀ limit ∈ e.maxDatagram, wire.length ≤ limit

theorem bounded_eq_ok {e : Encoder} {bytes wire : Bytes} (h : e.bounded bytes = .ok wire) :
    wire = bytes ∧ ∀ limit ∈ e.maxDatagram, wire.length ≤ limit := by
  unfold bounded at h
  split at h
  · rename_i limit hl
    split at h
    · cases h
    · cases h
      refine ⟨rfl, fun l hm => ?_⟩
      rw [hl, Option.mem_some_iff] at hm
      omega
  · rename_i hl
    cases h
    exact ⟨rfl, by simp [hl]⟩

theorem encodes_of_encode {e : Encoder} {m : Outgoing} {index segments : Nat} {wire : Bytes}
    (h : e.encode m index segments = .ok wire) : e.Encodes m index segments wire := by
  unfold encode at h
  split at h
  · cases h
  rename_i hf
  split at h
  · cases h
  rename_i hi
  split at h
  · cases h
  rename_i hd
  split at h
  · cases h
  rename_i hs
  rw [not_or, Bool.not_eq_false] at hd
  cases hslice : e.slice m.payload.length index segments with
  | error err => simp [hslice, bind, Except.bind] at h
  | ok p =>
    obtain ⟨rfl, hin⟩ := slice_eq_ok hslice
    simp only [hslice, bind, Except.bind] at h
    cases htext : e.headerText m index segments (e.offset index segments)
        (e.size m.payload.length index segments) with
    | error err => simp [htext] at h
    | ok text =>
      simp only [htext] at h
      obtain ⟨rfl, hb⟩ := bounded_eq_ok h
      exact ⟨by omega, by omega, hd.1, hd.2, by simpa using hs, hin, ⟨text, htext, rfl⟩, hb⟩

theorem exists_encode {e : Encoder} {m : Outgoing} {index segments : Nat}
    (hf : 0 < e.fragmentSize) (hi : index < segments) (hd : m.dest ≠ "")
    (hsafe : isLineSafe true m.dest = true) (hs : isLineSafe false m.source = true)
    (hin : segments ≠ 1 → index * e.fragmentSize < m.payload.length)
    (hack : 1 < segments → ∃ ack, m.ack = some ack) (hlimit : e.maxDatagram = none) :
    ∃ wire, e.encode m index segments = .ok wire := by
  obtain ⟨slice, hslice⟩ : ∃ slice, e.slice m.payload.length index segments = .ok slice := by
    unfold Encoder.slice
    by_cases hn : segments = 1
    · exact ⟨_, if_pos hn⟩
    · have := hin hn
      rw [if_neg hn, if_neg (by omega)]
      split <;> exact ⟨_, rfl⟩
  obtain ⟨text, htext⟩ : ∃ text, e.headerText m index segments slice.1 slice.2 = .ok text := by
    unfold headerText
    by_cases hn : segments ≤ 1
    · exact ⟨_, if_pos hn⟩
    · obtain ⟨ack, hack⟩ := hack (by omega)
      rw [if_neg hn, hack]
      exact ⟨_, rfl⟩
  refine ⟨Text.encode text ++ Header.marker ++ (m.payload.drop slice.1).take slice.2, ?_⟩
  rw [encode, if_neg (by omega), if_neg (by omega), if_neg (by simp [hd, hsafe]),
    if_neg (by simp [hs]), hslice]
  simp only [bind, Except.bind, htext, bounded, hlimit]

/-- A datagram made is read as the header and the body of its fragment. -/
theorem parse_encode {e : Encoder} {m : Outgoing} {index segments : Nat} {wire : Bytes}
    (hu : e.Unbroken m) (hm : m.Sized) (hn : segments ≤ limit64)
    (h : e.encode m index segments = .ok wire) :
    Header.parse wire = .ok (e.fragmentHeader m index segments, e.body m index segments) := by
  have he := encodes_of_encode h
  obtain ⟨text, htext, rfl⟩ := he.bytes
  have hlength := hm.length
  have hcommon (rest : Bytes) :
      Header.parseFrom {} (Text.encode (e.commonLines m segments) ++ rest) =
        Header.parseFrom (e.commonHeader m segments) rest :=
    parseFrom_commonLines hu.phone (lineEnd_notMem_of_isLineSafe he.dest_safe)
      (lineEnd_notMem_of_isLineSafe he.source_safe) hm hn
  unfold headerText at htext
  rw [Header.parse, List.append_assoc]
  by_cases hs : segments ≤ 1
  · simp only [hs, if_true, Except.ok.injEq] at htext
    subst htext
    rw [hcommon, Header.parseFrom_marker, fragmentHeader, if_pos hs]
  · simp only [hs, if_false] at htext
    cases hack : m.ack with
    | none => simp [hack] at htext
    | some ack =>
      simp only [hack, Except.ok.injEq] at htext
      subst htext
      have hin := he.offset_lt (by omega)
      have hindex := he.index_lt
      have hoffset : e.offset index segments ≤ limit64 := by
        rw [offset, if_neg (by omega)]
        omega
      have hsize : e.size m.payload.length index segments ≤ limit64 := by
        rw [size, if_neg (by omega)]
        split <;> omega
      rw [encode_append, List.append_assoc, hcommon, parseFrom_fragmentLines (by omega) hoffset
        hsize (hu.cookie ack hack), Header.parseFrom_marker, fragmentHeader, if_neg hs, hack]

end Encoder

end MultimediaMessaging
