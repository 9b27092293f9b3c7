import Mathlib.Data.Nat.Digits.Defs
import MultimediaMessaging.Proofs.Fragment.RoundTrip

/-!
Cutting a whole message. Main statement: it can be cut exactly when its applications can be named,
several fragments have somewhere to be acknowledged, and every datagram keeps to the limit; then the
payload is cut at the multiples of the fragment size, with nothing lost and no empty fragment, and
each datagram says where its slice is.
-/

set_option autoImplicit false

namespace MultimediaMessaging

open Text

namespace Encoder

variable {e : Encoder} {m : Outgoing} {n index : Nat} {wire : Bytes} {wires : List Bytes}

/-- A slice of the payload, as long as a fragment may be. The last one is what is left. -/
def piece (e : Encoder) (payload : Bytes) (index : Nat) : Bytes :=
  (payload.drop (index * e.fragmentSize)).take e.fragmentSize

def pieces (e : Encoder) (payload : Bytes) (n : Nat) : List Bytes :=
  (List.range n).map (e.piece payload)

def headerLines (e : Encoder) (m : Outgoing) (n index offset size : Nat) : String :=
  e.commonLines m n ++
    if n ≤ 1 then "" else m.ack.elim "" (fragmentLines index offset size)

def datagram (e : Encoder) (m : Outgoing) (n index : Nat) : Bytes :=
  Text.encode (e.headerLines m n index (index * e.fragmentSize) (e.piece m.payload index).length) ++
    Header.marker ++ e.piece m.payload index

structure Encodable (e : Encoder) (m : Outgoing) (n : Nat) : Prop where
  fragmentSize : 1 ≤ e.fragmentSize
  dest_ne : m.dest ≠ ""
  dest : '\n' ∉ m.dest.toList ∧ '\r' ∉ m.dest.toList
  source : '\n' ∉ m.source.toList ∧ '\r' ∉ m.source.toList ∧ ':' ∉ m.source.toList
  ack : 1 < n → ∃ ack, m.ack = some ack
  bounded : ∀ limit ∈ e.maxDatagram, ∀ index < n, (e.datagram m n index).length ≤ limit

section Lists

variable {α β ε : Type} {f : α → Except ε β} {g : α → β} {xs : List α} {ys : List β}

theorem mapM_of_forall (h : ∀ x ∈ xs, f x = .ok (g x)) : xs.mapM f = .ok (xs.map g) := by
  induction xs with
  | nil => rfl
  | cons x xs ih =>
    rw [List.forall_mem_cons] at h
    rw [List.mapM_cons, h.1, ih h.2]
    rfl

theorem mapM_eq_ok (h : xs.mapM f = .ok ys) : ∀ x ∈ xs, ∃ y, f x = .ok y := by
  induction xs generalizing ys with
  | nil => simp
  | cons x xs ih =>
    rw [List.mapM_cons] at h
    cases hx : f x with
    | error err => simp [hx, bind, Except.bind] at h
    | ok y =>
      cases hxs : xs.mapM f with
      | error err => simp [hx, hxs, bind, Except.bind] at h
      | ok ys' => exact List.forall_mem_cons.2 ⟨⟨y, hx⟩, ih hxs⟩

theorem mapM_eq_error {err : ε} (h : xs.mapM f = .error err) : ∃ x ∈ xs, f x = .error err := by
  induction xs with
  | nil => cases h
  | cons x xs ih =>
    rw [List.mapM_cons] at h
    cases hx : f x with
    | error err' =>
      simp only [hx, bind, Except.bind, Except.error.injEq] at h
      exact ⟨x, by simp, by rw [hx, h]⟩
    | ok y =>
      cases hxs : xs.mapM f with
      | ok ys => simp [hx, hxs, bind, Except.bind, pure, Except.pure] at h
      | error err' =>
        simp only [hx, hxs, bind, Except.bind, Except.error.injEq] at h
        obtain ⟨x', hmem, hx'⟩ := ih (hxs.trans (congrArg _ h))
        exact ⟨x', List.mem_cons_of_mem x hmem, hx'⟩

end Lists

section Count

theorem segmentCount_of_le {length : Nat} (h : e.fragmentSize = 0 ∨ length ≤ e.fragmentSize) :
    e.segmentCount length = 1 := by
  rw [segmentCount, if_pos h]

theorem segmentCount_bounds {length : Nat} (hf : 0 < e.fragmentSize)
    (hl : e.fragmentSize < length) :
    (e.segmentCount length - 1) * e.fragmentSize < length ∧
      length ≤ e.segmentCount length * e.fragmentSize := by
  rw [segmentCount, if_neg (by omega)]
  have hdiv := Nat.div_add_mod (length + e.fragmentSize - 1) e.fragmentSize
  have hmod := Nat.mod_lt (length + e.fragmentSize - 1) hf
  rw [Nat.mul_comm] at hdiv
  rw [Nat.sub_mul, Nat.one_mul]
  omega

theorem mul_fragmentSize_lt {length : Nat} (hi : index < e.segmentCount length)
    (hn : e.segmentCount length ≠ 1) : index * e.fragmentSize < length := by
  have hsize : ¬ (e.fragmentSize = 0 ∨ length ≤ e.fragmentSize) := fun h =>
    hn (segmentCount_of_le h)
  have hlast : (e.segmentCount length - 1) * e.fragmentSize < length :=
    (segmentCount_bounds (by omega) (by omega)).1
  exact Nat.lt_of_le_of_lt (Nat.mul_le_mul_right _ (by omega)) hlast

theorem le_segmentCount_mul {length : Nat} (hf : 0 < e.fragmentSize) :
    length ≤ e.segmentCount length * e.fragmentSize := by
  by_cases hl : length ≤ e.fragmentSize
  · rw [segmentCount_of_le (.inr hl)]
    omega
  · exact (segmentCount_bounds hf (by omega)).2

theorem mul_fragmentSize_le {length : Nat} (hi : index < e.segmentCount length) :
    index * e.fragmentSize ≤ length := by
  by_cases hn : e.segmentCount length = 1
  · obtain rfl : index = 0 := by omega
    omega
  · exact Nat.le_of_lt (mul_fragmentSize_lt hi hn)

end Count

section Pieces

variable {payload : Bytes}

theorem length_piece (e : Encoder) (payload : Bytes) (index : Nat) :
    (e.piece payload index).length =
      min e.fragmentSize (payload.length - index * e.fragmentSize) := by
  rw [piece, List.length_take, List.length_drop]

theorem flatten_pieces (e : Encoder) (payload : Bytes) (n : Nat) :
    (e.pieces payload n).flatten = payload.take (n * e.fragmentSize) := by
  induction n with
  | zero => simp [pieces]
  | succ n ih =>
    rw [pieces] at ih ⊢
    rw [List.range_succ, List.map_append, List.flatten_append, ih, Nat.succ_mul, List.take_add]
    simp [piece]

theorem take_pieces (hi : index ≤ n) :
    (e.pieces payload n).take index = e.pieces payload index := by
  rw [pieces, pieces, ← List.map_take, List.take_range, Nat.min_eq_left hi]

/-- A slice begins where those before it end. -/
theorem length_flatten_take_pieces (hi : index < e.segmentCount payload.length) :
    ((e.pieces payload (e.segmentCount payload.length)).take index).flatten.length =
      index * e.fragmentSize := by
  rw [take_pieces (Nat.le_of_lt hi), flatten_pieces, List.length_take,
    Nat.min_eq_left (mul_fragmentSize_le hi)]

theorem getElem?_pieces {body : Bytes} :
    (e.pieces payload n)[index]? = some body ↔ index < n ∧ e.piece payload index = body := by
  simp [pieces, List.getElem?_map, List.getElem?_eq_some_iff]

theorem length_piece_of_lt (hi : index + 1 < e.segmentCount payload.length) :
    (e.piece payload index).length = e.fragmentSize := by
  have hnext := mul_fragmentSize_lt hi (by omega)
  rw [Nat.succ_mul] at hnext
  rw [length_piece]
  omega

theorem length_piece_pos (hf : 0 < e.fragmentSize) (hp : payload ≠ [])
    (hi : index < e.segmentCount payload.length) : 1 ≤ (e.piece payload index).length := by
  have hpos := List.length_pos_iff.2 hp
  rw [length_piece]
  by_cases hn : e.segmentCount payload.length = 1
  · obtain rfl : index = 0 := by omega
    omega
  · have hlt := mul_fragmentSize_lt hi hn
    omega

end Pieces

section Datagrams

theorem isLineSafe_iff {colon : Bool} {app : String} :
    isLineSafe colon app = true ↔
      '\n' ∉ app.toList ∧ '\r' ∉ app.toList ∧ (colon = false → ':' ∉ app.toList) := by
  rw [isLineSafe, List.all_eq_true]
  constructor
  · intro h
    refine ⟨fun hm => ?_, fun hm => ?_, fun hcolon hm => ?_⟩
    · simpa using h _ hm
    · simpa using h _ hm
    · simpa [hcolon] using h _ hm
  · rintro ⟨hn, hr, hcolon⟩ c hm
    have hcn : c ≠ '\n' := fun h => hn (h ▸ hm)
    have hcr : c ≠ '\r' := fun h => hr (h ▸ hm)
    cases colon with
    | true => simp [hcn, hcr]
    | false =>
      have hcc : c ≠ ':' := fun h => hcolon rfl (h ▸ hm)
      simp [hcn, hcr, hcc]

/-- In a message cut whole no fragment is out of range and none is empty. -/
theorem slice_segmentCount {length : Nat} (hf : 0 < e.fragmentSize)
    (hi : index < e.segmentCount length) :
    e.slice length index (e.segmentCount length) =
      .ok (index * e.fragmentSize, min e.fragmentSize (length - index * e.fragmentSize)) := by
  have hle : length ≤ e.segmentCount length * e.fragmentSize := le_segmentCount_mul hf
  rw [slice]
  by_cases hn : e.segmentCount length = 1
  · obtain rfl : index = 0 := by omega
    rw [hn, Nat.one_mul] at hle
    rw [if_pos hn, Nat.zero_mul, Nat.sub_zero, Nat.min_eq_right hle]
  · have hlt := mul_fragmentSize_lt hi hn
    rw [if_neg hn, if_neg (by omega)]
    split
    · rename_i hlast
      rw [← hlast, Nat.succ_mul] at hle
      rw [Nat.min_eq_right (by omega)]
    · rfl

/-- What comes of a fragment that is in range, error or datagram. -/
theorem encode_of_lt (hi : index < e.segmentCount m.payload.length) :
    e.encode m index (e.segmentCount m.payload.length) =
      if e.fragmentSize = 0 then .error .zeroFragmentSize
      else if m.dest = "" ∨ isLineSafe true m.dest = false then .error (.invalidApp m.dest)
      else if isLineSafe false m.source = false then .error (.invalidApp m.source)
      else if 1 < e.segmentCount m.payload.length ∧ m.ack = none then .error .missingAckEndpoint
      else e.bounded (e.datagram m (e.segmentCount m.payload.length) index) := by
  rw [encode]
  by_cases hf : e.fragmentSize = 0
  · rw [if_pos hf, if_pos hf]
  rw [if_neg hf, if_neg hf, if_neg (by omega)]
  split
  · rfl
  split
  · rfl
  rw [slice_segmentCount (Nat.pos_of_ne_zero hf) hi, ← length_piece]
  simp only [bind, Except.bind]
  have hbody : (m.payload.drop (index * e.fragmentSize)).take (e.piece m.payload index).length =
      e.piece m.payload index := by
    rw [length_piece, ← List.length_drop, piece, ← List.take_take, List.take_length]
  rw [hbody, datagram]
  unfold headerText headerLines
  by_cases hn : e.segmentCount m.payload.length ≤ 1
  · rw [if_pos hn, if_pos hn, if_neg (by omega)]
    simp
  · rw [if_neg hn, if_neg hn]
    cases hack : m.ack with
    | none => rw [if_pos ⟨by omega, rfl⟩]
    | some ack =>
      rw [if_neg (by simp)]
      rfl

theorem bounded_eq {bytes : Bytes} (h : ∀ limit ∈ e.maxDatagram, bytes.length ≤ limit) :
    e.bounded bytes = .ok bytes := by
  rw [bounded]
  split
  · rename_i limit hl
    have := h limit hl
    rw [if_neg (by omega)]
  · rfl

theorem Encodable.encode (h : e.Encodable m (e.segmentCount m.payload.length))
    (hi : index < e.segmentCount m.payload.length) :
    e.encode m index (e.segmentCount m.payload.length) =
      .ok (e.datagram m (e.segmentCount m.payload.length) index) := by
  have hf := h.fragmentSize
  have hdest : isLineSafe true m.dest = true := isLineSafe_iff.2 ⟨h.dest.1, h.dest.2, nofun⟩
  have hsource : isLineSafe false m.source = true :=
    isLineSafe_iff.2 ⟨h.source.1, h.source.2.1, fun _ => h.source.2.2⟩
  have hack : ¬ (1 < e.segmentCount m.payload.length ∧ m.ack = none) := by
    rintro ⟨hn, hnone⟩
    obtain ⟨ack, hsome⟩ := h.ack hn
    rw [hnone] at hsome
    cases hsome
  rw [encode_of_lt hi, if_neg (by omega), if_neg (by simp [h.dest_ne, hdest]),
    if_neg (by simp [hsource]), if_neg hack]
  exact bounded_eq fun limit hl => h.bounded limit hl index hi

theorem eq_datagram_of_encode (hi : index < e.segmentCount m.payload.length)
    (h : e.encode m index (e.segmentCount m.payload.length) = .ok wire) :
    wire = e.datagram m (e.segmentCount m.payload.length) index ∧
      ∀ limit ∈ e.maxDatagram, wire.length ≤ limit := by
  rw [encode_of_lt hi] at h
  split at h
  · cases h
  split at h
  · cases h
  split at h
  · cases h
  split at h
  · cases h
  exact bounded_eq_ok h

theorem encodable_of_encode
    (h : ∀ index < e.segmentCount m.payload.length,
      ∃ wire, e.encode m index (e.segmentCount m.payload.length) = .ok wire) :
    e.Encodable m (e.segmentCount m.payload.length) := by
  obtain ⟨wire, hwire⟩ := h 0 (e.segmentCount_pos _)
  have hencodes := encodes_of_encode hwire
  have hdest := isLineSafe_iff.1 hencodes.dest_safe
  have hsource := isLineSafe_iff.1 hencodes.source_safe
  refine ⟨hencodes.fragmentSize_pos, hencodes.dest_ne, ⟨hdest.1, hdest.2.1⟩,
    ⟨hsource.1, hsource.2.1, hsource.2.2 rfl⟩, hencodes.ack, fun limit hl index hi => ?_⟩
  obtain ⟨wire, hwire⟩ := h index hi
  obtain ⟨heq, hbound⟩ := eq_datagram_of_encode hi hwire
  rw [← heq]
  exact hbound limit hl

theorem encodeAll_eq_ok_iff :
    e.encodeAll m = .ok wires ↔
      e.Encodable m (e.segmentCount m.payload.length) ∧
        wires = (List.range (e.segmentCount m.payload.length)).map
          (e.datagram m (e.segmentCount m.payload.length)) := by
  have hall (h : e.Encodable m (e.segmentCount m.payload.length)) :
      e.encodeAll m = .ok ((List.range (e.segmentCount m.payload.length)).map
        (e.datagram m (e.segmentCount m.payload.length))) :=
    mapM_of_forall fun index hi => h.encode (List.mem_range.1 hi)
  constructor
  · intro h
    have hencodable := encodable_of_encode fun index hi =>
      mapM_eq_ok h index (List.mem_range.2 hi)
    rw [hall hencodable, Except.ok.injEq] at h
    exact ⟨hencodable, h.symm⟩
  · rintro ⟨h, rfl⟩
    exact hall h

/-- The ways in which a message cannot be cut. -/
theorem encodeAll_eq_error {err : EncodeError} (h : e.encodeAll m = .error err) :
    err = .zeroFragmentSize ∨ err = .invalidApp m.dest ∨ err = .invalidApp m.source ∨
      err = .missingAckEndpoint ∨ ∃ size, ∃ limit ∈ e.maxDatagram,
        limit < size ∧ err = .datagramTooLarge size limit := by
  obtain ⟨index, hi, hindex⟩ := mapM_eq_error h
  rw [encode_of_lt (List.mem_range.1 hi)] at hindex
  split at hindex
  · cases hindex
    exact .inl rfl
  split at hindex
  · cases hindex
    exact .inr (.inl rfl)
  split at hindex
  · cases hindex
    exact .inr (.inr (.inl rfl))
  split at hindex
  · cases hindex
    exact .inr (.inr (.inr (.inl rfl)))
  rw [bounded] at hindex
  split at hindex
  · rename_i limit hl
    split at hindex
    · rename_i hlt
      cases hindex
      exact .inr (.inr (.inr (.inr ⟨_, limit, hl, hlt, rfl⟩)))
    · cases hindex
  · cases hindex

end Datagrams

section Range

theorem length_encodeChars {cs : List Char} (h : ∀ c ∈ cs, c.isDigit = true) :
    (encodeChars cs).length = cs.length := by
  induction cs with
  | nil => rfl
  | cons c cs ih =>
    rw [List.forall_mem_cons] at h
    have hone : (String.utf8EncodeChar c).length = 1 := by
      have hc := h.1
      simp only [Char.isDigit, Bool.and_eq_true, decide_eq_true_eq] at hc
      have hlt : c.toNat ≤ 127 := Nat.le_trans hc.2 (by decide)
      simp [String.utf8EncodeChar, hlt]
    rw [encodeChars, List.flatMap_cons, List.length_append, hone, List.length_cons, Nat.add_comm]
    exact congrArg (· + 1) (ih h.2)

theorem length_encode_number (k : Nat) :
    (Text.encode (toString k)).length = (digits k).length := by
  have hdigits : (toString k).toList = digits k := by simp [digits]
  rw [Text.encode, hdigits, length_encodeChars fun c hc => isDigit_of_mem_digits hc]

theorem length_encode_toString {k limit : Nat} (hk : 0 < limit) (h : k < 10 ^ limit) :
    (Text.encode (toString k)).length ≤ limit := by
  rw [length_encode_number]
  exact Nat.toDigits_length 10 k limit hk h

theorem length_encode_headerLine (name value : String) :
    (Text.encode (headerLine name value)).length =
      (Text.encode name).length + (Text.encode value).length + 3 := by
  have hline : headerLine name value = name ++ ": " ++ value ++ "\n" := rfl
  have hcolon : (Text.encode ": ").length = 2 := by decide
  have hend : (Text.encode "\n").length = 1 := by decide
  rw [hline]
  simp only [encode_append, List.length_append, hcolon, hend]
  omega

def namesLength (e : Encoder) (m : Outgoing) : Nat :=
  (Text.encode e.phone).length + (Text.encode m.dest).length + (Text.encode m.source).length +
    m.ack.elim 0 fun ack => (Text.encode ack.cookie).length

theorem length_senderAddress_le (phone source : String) :
    (Text.encode (senderAddress phone source)).length ≤
      (Text.encode phone).length + (Text.encode source).length + 7 := by
  have hscheme : (Text.encode "mms://").length = 6 := by decide
  have hcolon : (Text.encode ":").length = 1 := by decide
  rw [senderAddress]
  split
  · change (Text.encode ("mms://" ++ phone)).length ≤ _
    simp only [encode_append, List.length_append, hscheme]
    omega
  · change (Text.encode ("mms://" ++ phone ++ ":" ++ source)).length ≤ _
    simp only [encode_append, List.length_append, hscheme, hcolon]
    omega

theorem length_name_le (key : HeaderKey) : (Text.encode key.name).length ≤ 15 := by
  cases key <;> decide

theorem length_numberLine_le (key : HeaderKey) {k : Nat} (hk : k ≤ limit64) :
    (Text.encode (headerLine key.name (toString k))).length ≤ 38 := by
  have hname := length_name_le key
  have hlimit : limit64 < 10 ^ 20 := by decide
  have hvalue : (Text.encode (toString k)).length ≤ 20 :=
    length_encode_toString (by omega) (by omega)
  rw [length_encode_headerLine]
  omega

theorem length_commonLines_le (hts : m.timestamp ≤ limit64) (hl : m.payload.length ≤ limit64)
    (hn : n ≤ limit64) :
    (Text.encode (e.commonLines m n)).length ≤
      (Text.encode e.phone).length + (Text.encode m.dest).length +
        (Text.encode m.source).length + 190 := by
  have hdate := length_numberLine_le .date hts
  have hlength := length_numberLine_le .contentLength hl
  have hsegments := length_numberLine_le .segments hn
  have haddress := length_name_le .address
  have hsender := length_name_le .senderAddress
  have hvalue := length_senderAddress_le e.phone m.source
  have hdest : (Text.encode s!"mms://:{m.dest}").length = (Text.encode m.dest).length + 7 := by
    have hscheme : (Text.encode "mms://:").length = 7 := by decide
    change (Text.encode ("mms://:" ++ m.dest)).length = _
    rw [encode_append, List.length_append, hscheme, Nat.add_comm]
  have htype : (Text.encode (headerLine "Content-Type" "multipart")).length = 24 := by decide
  simp only [commonLines, encode_append, List.length_append, htype]
  rw [length_encode_headerLine HeaderKey.address.name,
    length_encode_headerLine HeaderKey.senderAddress.name]
  omega

theorem length_fragmentLines_le {offset size : Nat} (ack : AckEndpoint) (hi : index ≤ limit64)
    (ho : offset ≤ limit64) (hs : size ≤ limit64) :
    (Text.encode (fragmentLines index offset size ack)).length ≤
      (Text.encode ack.cookie).length + 170 := by
  have hport : ack.port.toNat ≤ limit64 :=
    Nat.le_trans (Nat.le_of_lt_succ ack.port.toNat_lt) (by decide)
  have hindex := length_numberLine_le .fragment hi
  have hsize := length_numberLine_le .fragmentSize hs
  have hoffset := length_numberLine_le .fragmentOffset ho
  have hack := length_numberLine_le .ackPort hport
  have hcookie := length_name_le .ackCookie
  simp only [fragmentLines, encode_append, List.length_append]
  rw [length_encode_headerLine HeaderKey.ackCookie.name]
  omega

/-- Beside the names in it and its slice, a datagram has no more than these bytes. -/
theorem length_datagram_le (hts : m.timestamp ≤ limit64) (hl : m.payload.length ≤ limit64)
    (hn : n ≤ limit64) (hi : index < n) (ho : index * e.fragmentSize ≤ limit64) :
    (e.datagram m n index).length ≤
      e.namesLength m + (e.piece m.payload index).length + 400 := by
  have hsize : (e.piece m.payload index).length ≤ limit64 := by
    rw [length_piece]
    omega
  have hcommon := length_commonLines_le (e := e) hts hl hn
  have hmarker : Header.marker.length = 7 := by decide
  rw [datagram, List.length_append, List.length_append, hmarker, headerLines, namesLength,
    encode_append, List.length_append]
  split
  · simp only [Text.encode, String.toList_empty, encodeChars_nil, List.length_nil] at *
    omega
  · cases m.ack with
    | none =>
      simp only [Option.elim_none, Text.encode, String.toList_empty, encodeChars_nil,
        List.length_nil] at *
      omega
    | some ack =>
      have hfragment := @length_fragmentLines_le index _ _ ack (by omega) ho hsize
      simp only [Option.elim_some]
      omega

end Range

/-- No sum or product on the way to the datagrams needs more than 64 bits, and every slice lies in
the payload. What is reserved for a datagram is its length, which names and payload that are in one
memory leave room for. -/
structure InRange (e : Encoder) (m : Outgoing) (n : Nat) : Prop where
  count : e.fragmentSize < m.payload.length → m.payload.length + e.fragmentSize < 2 ^ 64
  next : ∀ index < n, index + 1 < 2 ^ 64
  offset : ∀ index < n, index * e.fragmentSize < 2 ^ 64
  slice : 0 < e.fragmentSize → ∀ index < n, ∃ offset size,
    e.slice m.payload.length index n = .ok (offset, size) ∧ offset + size ≤ m.payload.length
  capacity : e.namesLength m + m.payload.length + 400 < 2 ^ 64 →
    ∀ index < n, (e.datagram m n index).length < 2 ^ 64

structure Cut (e : Encoder) (m : Outgoing) (n : Nat) (wires bodies : List Bytes) : Prop where
  wireCount : wires.length = n
  bodyCount : bodies.length = n
  payload : bodies.flatten = m.payload
  full : ∀ index body, index + 1 < n → bodies[index]? = some body → body.length = e.fragmentSize
  last : ∀ body, bodies[n - 1]? = some body →
    body.length ≤ e.fragmentSize ∧ (m.payload ≠ [] → 1 ≤ body.length)
  printed : ∀ index body, bodies[index]? = some body → wires[index]? =
    some (Text.encode (e.headerLines m n index (bodies.take index).flatten.length body.length) ++
      Header.marker ++ body)
  read : e.Unbroken m → ∀ index wire body, wires[index]? = some wire → bodies[index]? = some body →
    ∃ h, Header.parse wire = .ok (h, body) ∧ (1 < n → h.fragmentSize = some body.length ∧
      h.fragmentOffset = (bodies.take index).flatten.length)

theorem segmentCount_le {length : Nat} : e.segmentCount length ≤ max 1 length := by
  by_cases hn : e.segmentCount length = 1
  · omega
  · have hpos := e.segmentCount_pos length
    have hsize : 0 < e.fragmentSize := Nat.pos_of_ne_zero fun h => hn (segmentCount_of_le (.inl h))
    have hlast : (e.segmentCount length - 1) * e.fragmentSize < length :=
      mul_fragmentSize_lt (by omega) hn
    have hle := Nat.le_mul_of_pos_right (e.segmentCount length - 1) hsize
    omega

theorem inRange_segmentCount (hl : m.payload.length < 2 ^ 63) (hts : m.timestamp ≤ limit64) :
    e.InRange m (e.segmentCount m.payload.length) := by
  have hcount : e.segmentCount m.payload.length ≤ max 1 m.payload.length := segmentCount_le
  have hlimit : limit64 = 2 ^ 64 - 1 := by decide
  refine ⟨fun hlt => by omega, fun index hi => by omega, fun index hi => ?_,
    fun hf index hi => ?_, fun hnames index hi => ?_⟩
  · have := mul_fragmentSize_le hi
    omega
  · have := mul_fragmentSize_le hi
    exact ⟨_, _, slice_segmentCount hf hi, by omega⟩
  · have hoffset := mul_fragmentSize_le hi
    have hpiece := length_piece e m.payload index
    have hlength := length_datagram_le hts (by omega) (by omega) hi (e := e) (by omega)
    omega

/-- A receiver reads the slice that the sender cut. -/
theorem read_datagram (hf : 0 < e.fragmentSize) (hu : e.Unbroken m) (hm : m.Sized)
    (hi : index < e.segmentCount m.payload.length)
    (h : e.encode m index (e.segmentCount m.payload.length) = .ok wire) :
    ∃ header, Header.parse wire = .ok (header, e.piece m.payload index) ∧
      (1 < e.segmentCount m.payload.length →
        header.fragmentSize = some (e.piece m.payload index).length ∧
          header.fragmentOffset = index * e.fragmentSize) := by
  have hcount : e.segmentCount m.payload.length ≤ max 1 m.payload.length := segmentCount_le
  have hlimit : e.segmentCount m.payload.length ≤ limit64 :=
    Nat.le_trans hcount (Nat.max_le.2 ⟨by decide, hm.length⟩)
  obtain ⟨hslice, -⟩ := slice_eq_ok (slice_segmentCount hf hi)
  rw [Prod.mk.injEq, ← length_piece] at hslice
  have hbody : e.body m index (e.segmentCount m.payload.length) = e.piece m.payload index := by
    rw [body, ← hslice.1, ← hslice.2, length_piece, ← List.length_drop, piece, ← List.take_take,
      List.take_length]
  refine ⟨_, hbody ▸ parse_encode hu hm hlimit h, fun hn => ?_⟩
  obtain ⟨ack, hack⟩ := (encodes_of_encode h).ack hn
  rw [fragmentHeader_of_lt hack hn, ← hslice.2]
  exact ⟨rfl, rfl⟩

theorem cut_of_encodeAll (hm : m.Sized) (h : e.encodeAll m = .ok wires) :
    e.Cut m (e.segmentCount m.payload.length) wires
      (e.pieces m.payload (e.segmentCount m.payload.length)) := by
  obtain ⟨hencodable, rfl⟩ := encodeAll_eq_ok_iff.1 h
  have hf := hencodable.fragmentSize
  have hcover : m.payload.length ≤ e.segmentCount m.payload.length * e.fragmentSize :=
    le_segmentCount_mul hf
  exact
    { wireCount := by simp
      bodyCount := by simp [pieces]
      payload := by rw [flatten_pieces, List.take_of_length_le hcover]
      full := fun index body hi hbody => by
        obtain ⟨-, rfl⟩ := getElem?_pieces.1 hbody
        exact length_piece_of_lt hi
      last := fun body hbody => by
        obtain ⟨hi, rfl⟩ := getElem?_pieces.1 hbody
        refine ⟨?_, fun hp => length_piece_pos hf hp hi⟩
        rw [length_piece]
        omega
      printed := fun index body hbody => by
        obtain ⟨hi, rfl⟩ := getElem?_pieces.1 hbody
        rw [length_flatten_take_pieces hi, List.getElem?_map, List.getElem?_range hi]
        rfl
      read := fun hu index wire body hwire hbody => by
        obtain ⟨hi, rfl⟩ := getElem?_pieces.1 hbody
        rw [List.getElem?_map, List.getElem?_range hi, Option.map_some, Option.some.injEq] at hwire
        rw [length_flatten_take_pieces hi]
        exact read_datagram hf hu hm hi (hwire ▸ hencodable.encode hi) }

/-- When a message can be cut into datagrams, and what they are. -/
theorem encodeAll_cuts (e : Encoder) (m : Outgoing) (hl : m.payload.length < 2 ^ 63)
    (hts : m.timestamp ≤ limit64) :
    ∃ n, e.segmentCount m.payload.length = n ∧
      (e.fragmentSize = 0 ∨ m.payload.length ≤ e.fragmentSize → n = 1) ∧
      (0 < e.fragmentSize → e.fragmentSize < m.payload.length →
        (n - 1) * e.fragmentSize < m.payload.length ∧ m.payload.length ≤ n * e.fragmentSize) ∧
      ((∃ wires, e.encodeAll m = .ok wires) ↔ e.Encodable m n) ∧
      (∀ err, e.encodeAll m = .error err →
        (∀ index segments, err ≠ .fragmentOutOfRange index segments) ∧
          ∀ index offset length, err ≠ .emptyFragment index offset length) ∧
      e.InRange m n ∧
      ∀ wires, e.encodeAll m = .ok wires → e.Cut m n wires (e.pieces m.payload n) := by
  have hlimit : limit64 = 2 ^ 64 - 1 := by decide
  refine ⟨_, rfl, segmentCount_of_le, segmentCount_bounds, ?_, fun err herr => ?_,
    inRange_segmentCount hl hts, fun wires h => cut_of_encodeAll ⟨hts, by omega⟩ h⟩
  · constructor
    · rintro ⟨wires, h⟩
      exact (encodeAll_eq_ok_iff.1 h).1
    · intro h
      exact ⟨_, encodeAll_eq_ok_iff.2 ⟨h, rfl⟩⟩
  · rcases encodeAll_eq_error herr with rfl | rfl | rfl | rfl | ⟨_, _, _, _, rfl⟩ <;>
      exact ⟨nofun, nofun⟩

theorem encodeAll_cuts_letter :
    Decoder.letter.payload.length < 2 ^ 63 ∧ Decoder.letter.timestamp ≤ limit64 ∧
      ∃ wires, Decoder.letterEncoder.encodeAll Decoder.letter = .ok wires ∧
        Decoder.letterEncoder.Cut Decoder.letter 2 wires [[1, 2], [3]] := by
  have hl : Decoder.letter.payload.length < 2 ^ 63 := by decide
  have hts : Decoder.letter.timestamp ≤ limit64 := by decide
  obtain ⟨n, hn, -, -, hok, -, -, hcut⟩ :=
    encodeAll_cuts Decoder.letterEncoder Decoder.letter hl hts
  obtain rfl : 2 = n := hn
  have hencodable : Decoder.letterEncoder.Encodable Decoder.letter 2 :=
    { fragmentSize := by decide
      dest_ne := by decide
      dest := by decide
      source := by decide
      ack := fun _ => ⟨_, rfl⟩
      bounded := nofun }
  obtain ⟨wires, hwires⟩ := hok.2 hencodable
  exact ⟨hl, hts, wires, hwires, hcut wires hwires⟩

end Encoder

end MultimediaMessaging
