import MultimediaMessaging.Proofs.Fragment.Fields
import MultimediaMessaging.Proofs.Fragment.Lines

/-!
The language of headers. Main statement: a datagram is read exactly when it is a run of lines, a
marker and a body, with no line that cannot be read; the lines apply in order, the first line that
cannot be read is the one complained of, and nothing hangs on the bytes of the body.
-/

set_option autoImplicit false

namespace MultimediaMessaging

open Text

namespace Header

/-- A line has no end inside it, and is not where the body begins. -/
structure IsLine (line : Bytes) : Prop where
  lineEnd : lineFeed ∉ line
  marker : ¬ marker <+: line

def unlines (lines : List Bytes) : Bytes := lines.flatMap (· ++ [lineFeed])

@[simp] theorem unlines_nil : unlines [] = [] := rfl

@[simp] theorem unlines_cons (line : Bytes) (lines : List Bytes) :
    unlines (line :: lines) = line ++ lineFeed :: unlines lines := by
  simp [unlines]

/-- The text of a line, less one return at its end. -/
def Reads (line : Bytes) (text : List Char) : Prop :=
  ∃ whole, line = encodeChars whole ∧
    (whole = text ++ ['\r'] ∨ whole = text ∧ text.getLast? ≠ some '\r')

inductive Applies (h : Header) (line : Bytes) : Header → Prop
  | plain {text : List Char} (reads : Reads line text) (colon : ':' ∉ text) : Applies h line h
  | unknown {name value : List Char} (reads : Reads line (name ++ ':' :: value))
    (colon : ':' ∉ name) (unknown : ∀ key : HeaderKey, name ≠ key.name.toList) : Applies h line h
  | known {key : HeaderKey} {value text : List Char} {h' : Header}
    (reads : Reads line (key.name.toList ++ ':' :: value)) (trims : Trims value text)
    (sets : Sets h text key h') : Applies h line h'

/-- Why a line cannot be read. This is a matter of the line alone. -/
inductive Offends (line : Bytes) : DecodeError → Prop
  | encoding (notText : ∀ whole, line ≠ encodeChars whole) : Offends line .invalidHeaderLine
  | number {key : HeaderKey} {value text : List Char} {limit : Nat}
    (reads : Reads line (key.name.toList ++ ':' :: value)) (trims : Trims value text)
    (hlimit : key.limit? = some limit) (notNumber : ∀ n, ¬ Numeral limit text n) :
    Offends line (.invalidNumber key (String.ofList text))

inductive AppliesAll : Header → List Bytes → Header → Prop
  | nil (h : Header) : AppliesAll h [] h
  | cons {h h₁ h₂ : Header} {line : Bytes} {lines : List Bytes} (head : Applies h line h₁)
    (tail : AppliesAll h₁ lines h₂) : AppliesAll h (line :: lines) h₂

def Written (bytes : Bytes) (h : Header) (body : Bytes) : Prop :=
  ∃ lines, bytes = unlines lines ++ marker ++ body ∧ (∀ line ∈ lines, IsLine line) ∧
    AppliesAll {} lines h

def Sound (lines : List Bytes) : Prop := ∀ line ∈ lines, IsLine line ∧ ∀ e, ¬ Offends line e

/-- Why there is no header: the first line that cannot be read, or no marker after the last one. -/
inductive Spoilt (bytes : Bytes) : DecodeError → Prop
  | line {lines : List Bytes} {line rest : Bytes} {e : DecodeError}
    (split : bytes = unlines lines ++ line ++ lineFeed :: rest) (sound : Sound lines)
    (isLine : IsLine line) (offends : Offends line e) : Spoilt bytes e
  | ends {lines : List Bytes} {rest : Bytes} (split : bytes = unlines lines ++ rest)
    (sound : Sound lines) (isLine : IsLine rest) : Spoilt bytes .missingBufferMarker

variable {h h' : Header} {line rest bytes body : Bytes} {lines : List Bytes} {e : DecodeError}

section Line

theorem dropReturn_eq_iff {whole text : List Char} :
    dropReturn whole = text ↔
      whole = text ++ ['\r'] ∨ whole = text ∧ text.getLast? ≠ some '\r' := by
  unfold dropReturn
  split
  · rename_i hlast
    obtain ⟨kept, rfl⟩ := List.getLast?_eq_some_iff.1 hlast
    constructor
    · rintro rfl
      exact .inl (by rw [List.dropLast_concat])
    · rintro (heq | ⟨rfl, hne⟩)
      · rw [List.append_cancel_right heq, List.dropLast_concat]
      · exact absurd hlast hne
  · rename_i hlast
    constructor
    · rintro rfl
      exact .inr ⟨rfl, hlast⟩
    · rintro (rfl | ⟨rfl, -⟩)
      · exact absurd List.getLast?_concat hlast
      · rfl

theorem reads_iff {text : List Char} :
    Reads line text ↔ ∃ whole, line = encodeChars whole ∧ dropReturn whole = text := by
  simp only [Reads, dropReturn_eq_iff]

theorem setField_of_notMem {text : List Char} (hc : ':' ∉ text) : h.setField text = .ok h := by
  have hne : ∀ c ∈ text, (c != ':') = true := fun c hmem => by
    rw [bne_iff_ne]
    rintro rfl
    exact hc hmem
  have hdrop : text.dropWhile (· != ':') = [] := by
    rw [← List.append_nil text, List.dropWhile_append_of_pos hne, List.dropWhile_nil]
  rw [setField, hdrop]

theorem applyLine_of_reads {text : List Char} (h : Header) (hr : Reads line text) :
    h.applyLine line = h.setField text := by
  obtain ⟨whole, rfl, rfl⟩ := reads_iff.1 hr
  exact applyLine_encodeChars h whole

theorem ofChars?_eq_none {name : List Char} (hn : ∀ key : HeaderKey, name ≠ key.name.toList) :
    HeaderKey.ofChars? name = none := by
  cases hk : HeaderKey.ofChars? name with
  | none => rfl
  | some key => exact absurd (HeaderKey.ofChars?_eq_some_iff.1 hk) (hn key)

theorem setField_key (h : Header) (key : HeaderKey) (value : List Char) :
    h.setField (key.name.toList ++ ':' :: value) = h.set key (trim value) := by
  rw [setField_of_name (isLineName_key key).colon, HeaderKey.ofChars?_eq_some_iff.2 rfl]

theorem Applies.of_set {key : HeaderKey} {value : List Char}
    (hr : Reads line (key.name.toList ++ ':' :: value)) (hs : h.set key (trim value) = .ok h') :
    Applies h line h' :=
  .known hr (trims_trim value) (sets_of_set hs)

theorem Applies.applyLine (ha : Applies h line h') : h.applyLine line = .ok h' := by
  cases ha with
  | plain reads colon => rw [applyLine_of_reads h reads, setField_of_notMem colon]
  | unknown reads colon hn =>
    rw [applyLine_of_reads h reads, setField_of_name colon, ofChars?_eq_none hn]
  | known reads trims sets =>
    rw [applyLine_of_reads h reads, setField_key, trims_iff.1 trims, sets.set]

theorem Offends.applyLine (ho : Offends line e) (h : Header) : h.applyLine line = .error e := by
  cases ho with
  | encoding notText =>
    rw [Header.applyLine]
    cases hd : decode line with
    | none => rfl
    | some text => exact absurd (eq_encode_of_decode hd) (notText _)
  | number reads trims hlimit notNumber =>
    rw [applyLine_of_reads h reads, setField_key, trims_iff.1 trims,
      set_of_not_numeral h hlimit notNumber]

theorem applies_or_offends (h : Header) (line : Bytes) :
    (∃ h', Applies h line h') ∨ ∃ e, Offends line e := by
  cases hd : decode line with
  | none =>
    refine .inr ⟨_, .encoding fun whole hline => ?_⟩
    have htext : decode line = some (String.ofList whole) := by
      rw [decode_eq_some_iff, encode, String.toList_ofList, hline]
    rw [hd] at htext
    cases htext
  | some text =>
    have hreads : Reads line (dropReturn text.toList) :=
      reads_iff.2 ⟨_, eq_encode_of_decode hd, rfl⟩
    by_cases hc : ':' ∈ dropReturn text.toList
    · obtain ⟨name, value, hsplit, hname⟩ := List.eq_append_cons_of_mem hc
      rw [hsplit] at hreads
      by_cases hkey : ∃ key : HeaderKey, name = key.name.toList
      · obtain ⟨key, rfl⟩ := hkey
        have htrims := trims_trim value
        rcases sets_or_not_numeral h key (trim value) with ⟨h', hsets⟩ | ⟨limit, hlimit, hnot⟩
        · exact .inl ⟨h', .known hreads htrims hsets⟩
        · exact .inr ⟨_, .number hreads htrims hlimit hnot⟩
      · exact .inl ⟨h, .unknown hreads hname (not_exists.1 hkey)⟩
    · exact .inl ⟨h, .plain hreads hc⟩

theorem Applies.not_offends (ha : Applies h line h') : ¬ Offends line e := by
  intro ho
  have happly := ho.applyLine h
  rw [ha.applyLine] at happly
  cases happly

end Line

section Lines

/-- The marker has no line end in it, so it does not reach past one. -/
theorem prefix_of_prefix_line {opening line rest : Bytes}
    (hp : opening <+: line ++ lineFeed :: rest) (ho : lineFeed ∉ opening) : opening <+: line := by
  induction line generalizing opening with
  | nil =>
    cases opening with
    | nil => exact List.nil_prefix
    | cons b opening =>
      obtain ⟨tail, htail⟩ := hp
      cases htail
      simp at ho
  | cons b line ih =>
    cases opening with
    | nil => exact List.nil_prefix
    | cons c opening =>
      rw [List.cons_append, List.cons_prefix_cons] at hp
      rw [List.cons_prefix_cons]
      exact ⟨hp.1, ih hp.2 fun hmem => ho (List.mem_cons_of_mem c hmem)⟩

theorem lineFeed_notMem_marker : lineFeed ∉ marker := by decide

theorem after?_marker_eq_none_iff : after? marker bytes = none ↔ ¬ marker <+: bytes := by
  constructor
  · rintro hm ⟨body, rfl⟩
    rw [after?_append] at hm
    cases hm
  · intro hm
    cases ha : after? marker bytes with
    | none => rfl
    | some body => exact absurd ⟨body, (after?_eq_some_iff.1 ha).symm⟩ hm

theorem IsLine.not_marker (hl : IsLine line) (rest : Bytes) :
    ¬ Header.marker <+: line ++ lineFeed :: rest :=
  fun hp => hl.marker (prefix_of_prefix_line hp lineFeed_notMem_marker)

/-- All bytes are lines, and after them a marker or a line that is not at its end. -/
theorem exists_lines (bytes : Bytes) :
    ∃ lines rest, bytes = unlines lines ++ rest ∧ (∀ line ∈ lines, IsLine line) ∧
      (marker <+: rest ∨ IsLine rest) := by
  induction hn : bytes.length using Nat.strongRecOn generalizing bytes with
  | ind n ih =>
    by_cases hm : marker <+: bytes
    · exact ⟨[], bytes, rfl, by simp, .inl hm⟩
    by_cases hl : lineFeed ∈ bytes
    · obtain ⟨line, rest, rfl, hline⟩ := List.eq_append_cons_of_mem hl
      have hlt : rest.length < n := by
        rw [← hn, List.length_append, List.length_cons]
        omega
      obtain ⟨lines, rest, rfl, hlines, hrest⟩ := ih rest.length hlt rest rfl
      have hisLine : IsLine line := ⟨hline, fun hp => hm (hp.trans (List.prefix_append _ _))⟩
      refine ⟨line :: lines, rest, by simp, ?_, hrest⟩
      simpa [hisLine] using hlines
    · exact ⟨[], bytes, rfl, by simp, .inr ⟨hl, hm⟩⟩

theorem parseFrom_isLine (hl : IsLine line) :
    parseFrom h (line ++ lineFeed :: rest) = (h.applyLine line).bind fun h => parseFrom h rest :=
  parseFrom_line hl.lineEnd (after?_marker_eq_none_iff.2 (hl.not_marker rest))

theorem AppliesAll.parseFrom (ha : AppliesAll h lines h') (hl : ∀ line ∈ lines, IsLine line)
    (rest : Bytes) : parseFrom h (unlines lines ++ rest) = Header.parseFrom h' rest := by
  induction ha with
  | nil h => rfl
  | cons head tail ih =>
    rw [List.forall_mem_cons] at hl
    rw [unlines_cons, List.append_assoc, List.cons_append, parseFrom_isLine hl.1, head.applyLine]
    exact ih hl.2

theorem AppliesAll.not_offends (ha : AppliesAll h lines h') :
    ∀ line ∈ lines, ∀ e, ¬ Offends line e := by
  induction ha with
  | nil h => simp
  | cons head tail ih => exact List.forall_mem_cons.2 ⟨fun e => head.not_offends, ih⟩

/-- Lines apply one after the other, up to the first that cannot be read. -/
theorem appliesAll_or_offends (h : Header) (lines : List Bytes) :
    (∃ h', AppliesAll h lines h') ∨
      ∃ before line after e, lines = before ++ line :: after ∧
        (∀ line ∈ before, ∀ e, ¬ Offends line e) ∧ Offends line e := by
  induction lines generalizing h with
  | nil => exact .inl ⟨h, .nil h⟩
  | cons line lines ih =>
    rcases applies_or_offends h line with ⟨h₁, head⟩ | ⟨e, offends⟩
    · rcases ih h₁ with ⟨h₂, tail⟩ | ⟨before, bad, after, e, rfl, hbefore, offends⟩
      · exact .inl ⟨h₂, .cons head tail⟩
      · exact .inr ⟨line :: before, bad, after, e, rfl,
          List.forall_mem_cons.2 ⟨fun e => head.not_offends, hbefore⟩, offends⟩
    · exact .inr ⟨[], line, lines, e, rfl, by simp, offends⟩

theorem Sound.appliesAll (hs : Sound lines) (h : Header) : ∃ h', AppliesAll h lines h' := by
  rcases appliesAll_or_offends h lines with ha | ⟨before, line, after, e, rfl, -, offends⟩
  · exact ha
  · exact absurd offends ((hs line (by simp)).2 e)

theorem Written.parse (hw : Written bytes h body) : parse bytes = .ok (h, body) := by
  obtain ⟨lines, rfl, hlines, happlies⟩ := hw
  rw [Header.parse, List.append_assoc, happlies.parseFrom hlines, parseFrom_marker]

theorem Spoilt.parse (hs : Spoilt bytes e) : parse bytes = .error e := by
  cases hs with
  | @line lines line rest e split sound isLine offends =>
    obtain ⟨h, happlies⟩ := sound.appliesAll {}
    rw [split, Header.parse, List.append_assoc,
      happlies.parseFrom fun line hmem => (sound line hmem).1, parseFrom_isLine isLine,
      offends.applyLine]
    rfl
  | ends split sound isLine =>
    obtain ⟨h, happlies⟩ := sound.appliesAll {}
    rw [split, Header.parse, happlies.parseFrom fun line hmem => (sound line hmem).1]
    exact parseFrom_of_lineFeed_notMem isLine.lineEnd
      (after?_marker_eq_none_iff.2 isLine.marker)

theorem written_or_spoilt (bytes : Bytes) :
    (∃ h body, Written bytes h body) ∨ ∃ e, Spoilt bytes e := by
  obtain ⟨lines, rest, rfl, hlines, hrest⟩ := exists_lines bytes
  rcases appliesAll_or_offends {} lines with
    ⟨h, happlies⟩ | ⟨before, line, after, e, rfl, hbefore, offends⟩
  · have hsound : Sound lines := fun line hmem =>
      ⟨hlines line hmem, happlies.not_offends line hmem⟩
    rcases hrest with ⟨body, rfl⟩ | hrest
    · exact .inl ⟨h, body, lines, by rw [List.append_assoc], hlines, happlies⟩
    · exact .inr ⟨_, .ends rfl hsound hrest⟩
  · have hsound : Sound before := fun line hmem =>
      ⟨hlines line (List.mem_append_left _ hmem), hbefore line hmem⟩
    have hsplit : unlines (before ++ line :: after) ++ rest =
        unlines before ++ line ++ lineFeed :: (unlines after ++ rest) := by
      simp [unlines]
    exact .inr ⟨e, .line hsplit hsound (hlines line (by simp)) offends⟩

theorem line_inj {line' rest' : Bytes} (hl : lineFeed ∉ line) (hl' : lineFeed ∉ line')
    (heq : line ++ lineFeed :: rest = line' ++ lineFeed :: rest') :
    line = line' ∧ rest = rest' := by
  induction line generalizing line' with
  | nil =>
    cases line' with
    | nil => simpa using heq
    | cons b line' =>
      cases heq
      simp at hl'
  | cons b line ih =>
    cases line' with
    | nil =>
      cases heq
      simp at hl
    | cons c line' =>
      simp only [List.mem_cons, not_or] at hl hl'
      simp only [List.cons_append, List.cons.injEq] at heq ⊢
      obtain ⟨rfl, hrest⟩ := ih hl.2 hl'.2 heq.2
      exact ⟨⟨heq.1, rfl⟩, hrest⟩

/-- Where the lines end and the body begins is told by the bytes. -/
theorem unlines_marker_inj {lines' : List Bytes} {body' : Bytes}
    (hl : ∀ line ∈ lines, IsLine line) (hl' : ∀ line ∈ lines', IsLine line)
    (heq : unlines lines ++ (marker ++ body) = unlines lines' ++ (marker ++ body')) :
    lines = lines' ∧ body = body' := by
  induction lines generalizing lines' with
  | nil =>
    cases lines' with
    | nil => exact ⟨rfl, List.append_cancel_left heq⟩
    | cons line lines' =>
      rw [unlines_nil, List.nil_append, unlines_cons, List.append_assoc, List.cons_append] at heq
      exact absurd ⟨body, heq⟩ ((hl' line (by simp)).not_marker _)
  | cons line lines ih =>
    rw [List.forall_mem_cons] at hl
    rw [unlines_cons, List.append_assoc, List.cons_append] at heq
    cases lines' with
    | nil => exact absurd ⟨body', heq.symm⟩ (hl.1.not_marker _)
    | cons line' lines' =>
      rw [List.forall_mem_cons] at hl'
      rw [unlines_cons, List.append_assoc, List.cons_append] at heq
      obtain ⟨rfl, hrest⟩ := line_inj hl.1.lineEnd hl'.1.lineEnd heq
      obtain ⟨rfl, hbody⟩ := ih hl.2 hl'.2 hrest
      exact ⟨rfl, hbody⟩

end Lines

theorem parse_eq_ok_iff : parse bytes = .ok (h, body) ↔ Written bytes h body := by
  refine ⟨fun hp => ?_, Written.parse⟩
  rcases written_or_spoilt bytes with ⟨h', body', hw⟩ | ⟨e, hs⟩
  · rw [hw.parse] at hp
    cases hp
    exact hw
  · rw [hs.parse] at hp
    cases hp

theorem parse_eq_error_iff : parse bytes = .error e ↔ Spoilt bytes e := by
  refine ⟨fun hp => ?_, Spoilt.parse⟩
  rcases written_or_spoilt bytes with ⟨h', body', hw⟩ | ⟨e', hs⟩
  · rw [hw.parse] at hp
    cases hp
  · rw [hs.parse] at hp
    cases hp
    exact hs

/-- What is read, what is complained of, that the bytes can be taken apart in one way only, and that
the header does not hang on the body. -/
theorem parse_grammar (bytes : Bytes) :
    (∀ h body, parse bytes = .ok (h, body) ↔ Written bytes h body) ∧
    (∀ e, parse bytes = .error e ↔ Spoilt bytes e) ∧
    (∀ lines lines' body body', (∀ line ∈ lines, IsLine line) → (∀ line ∈ lines', IsLine line) →
      bytes = unlines lines ++ (marker ++ body) → bytes = unlines lines' ++ (marker ++ body') →
      lines = lines' ∧ body = body') ∧
    ∀ h body before, bytes = before ++ (marker ++ body) → parse bytes = .ok (h, body) →
      ∀ body', parse (before ++ (marker ++ body')) = .ok (h, body') := by
  refine ⟨fun h body => parse_eq_ok_iff, fun e => parse_eq_error_iff, ?_, ?_⟩
  · intro lines lines' body body' hl hl' heq heq'
    exact unlines_marker_inj hl hl' (heq.symm.trans heq')
  · rintro h body before rfl hp body'
    obtain ⟨lines, heq, hlines, happlies⟩ := parse_eq_ok_iff.1 hp
    rw [List.append_assoc] at heq
    obtain rfl := List.append_cancel_right heq
    exact parse_eq_ok_iff.2 ⟨lines, (List.append_assoc _ _ _).symm, hlines, happlies⟩

/-- Of the two counts the later is taken, and the empty cookie leaves the one before it. -/
def notice : List Bytes :=
  [encode "X", encode "Segments: 2\r", encode "SenderAddress: mms://+49:chat",
    encode "Reply-To: desk", encode "Ack-Cookie:c1 ", encode "Segments:+03",
    encode "Address: mms://:inbox", encode "Ack-Cookie: "]

def noticeHeader : Header where
  app := some "inbox"
  sender := some "mms://+49"
  replyTo := "chat"
  segments := 3
  ackCookie := some "c1"

theorem isLine_notice : ∀ line ∈ notice, IsLine line := by
  intro line hmem
  have hlines : ∀ line ∈ notice, lineFeed ∉ line ∧ ¬ marker <+: line := by decide
  exact ⟨(hlines line hmem).1, (hlines line hmem).2⟩

theorem applies_keyLine {key : HeaderKey} (value : List Char) {text : List Char}
    (hlast : (key.name.toList ++ ':' :: value).getLast? ≠ some '\r') (trims : trim value = text)
    (sets : Sets h text key h') : Applies h (encodeChars (key.name.toList ++ ':' :: value)) h' :=
  .known ⟨_, rfl, .inr ⟨rfl, hlast⟩⟩ (trims_iff.2 trims) sets

theorem appliesAll_notice : AppliesAll {} notice noticeHeader := by
  have hplain : Reads (encode "X") ['X'] := ⟨['X'], rfl, .inr ⟨rfl, by decide⟩⟩
  have hreturn : Reads (encode "Segments: 2\r")
      (HeaderKey.segments.name.toList ++ ':' :: " 2".toList) := ⟨_, rfl, .inl rfl⟩
  have htwo : Numeral limit64 ['2'] 2 := ⟨⟨['2'], .inl rfl, by decide, by simp, rfl⟩, by decide⟩
  have hthree : Numeral limit64 ['+', '0', '3'] 3 :=
    ⟨⟨['0', '3'], .inr rfl, by decide, by simp, rfl⟩, by decide⟩
  have hsends : Subscriber.Sends "mms://+49:chat".toList "mms://+49".toList "chat".toList :=
    .answered rfl (by decide) (by decide)
  have hnames : Subscriber.Names "mms://:inbox".toList "inbox".toList :=
    ⟨":inbox".toList, [], .inl rfl, rfl, by decide, by decide⟩
  have hunknown : Reads (encode "Reply-To: desk") ("Reply-To".toList ++ ':' :: " desk".toList) :=
    ⟨_, rfl, .inr ⟨rfl, by decide⟩⟩
  refine .cons (.plain hplain (by decide)) ?_
  refine .cons (.known hreturn (trims_iff.2 rfl) (.segments htwo)) ?_
  refine .cons (applies_keyLine " mms://+49:chat".toList (by decide) rfl (.sender hsends)) ?_
  refine .cons (.unknown hunknown (by decide) fun key => by cases key <;> decide) ?_
  refine .cons (applies_keyLine "c1 ".toList (by decide) rfl (.cookie (by decide))) ?_
  refine .cons (applies_keyLine "+03".toList (by decide) rfl (.segments hthree)) ?_
  refine .cons (applies_keyLine " mms://:inbox".toList (by decide) rfl (.app hnames)) ?_
  exact .cons (applies_keyLine [' '] (by decide) rfl (.noCookie rfl)) (.nil _)

theorem offends_wordFragment :
    Offends (encode "Fragment: one") (.invalidNumber .fragment (String.ofList "one".toList)) := by
  have hreads : Reads (encode "Fragment: one")
      (HeaderKey.fragment.name.toList ++ ':' :: " one".toList) := ⟨_, rfl, .inr ⟨rfl, by decide⟩⟩
  exact .number hreads (trims_iff.2 rfl) rfl (readNumber_eq_none_iff.1 (by decide))

theorem parse_grammar_notice :
    parse (unlines notice ++ (marker ++ [7])) = .ok (noticeHeader, [7]) ∧
      parse (unlines notice ++ (marker ++ [])) = .ok (noticeHeader, []) ∧
      parse (unlines notice ++ encode "Fragment: one" ++ lineFeed :: (marker ++ [7])) =
        .error (.invalidNumber .fragment "one") := by
  obtain ⟨hok, -, -, hbody⟩ := parse_grammar (unlines notice ++ (marker ++ [7]))
  have hparse := (hok noticeHeader [7]).2
    ⟨notice, (List.append_assoc _ _ _).symm, isLine_notice, appliesAll_notice⟩
  obtain ⟨-, herror, -⟩ :=
    parse_grammar (unlines notice ++ encode "Fragment: one" ++ lineFeed :: (marker ++ [7]))
  have hsound : Sound notice := fun line hmem =>
    ⟨isLine_notice line hmem, appliesAll_notice.not_offends line hmem⟩
  have hspoilt := (herror _).2
    (.line rfl hsound ⟨by decide, by decide⟩ offends_wordFragment)
  exact ⟨hparse, hbody _ _ _ rfl hparse [], hspoilt⟩

end Header

end MultimediaMessaging
