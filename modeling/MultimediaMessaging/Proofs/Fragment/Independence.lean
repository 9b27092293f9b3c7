import MultimediaMessaging.Proofs.Fragment.Grammar
import MultimediaMessaging.Fragment.Decoder

/-!
Which lines of a header can be told apart. Main statement: of two headers that give every key the
same values in the same order the same is read, or of both nothing, so lines of different keys may
change places, and a line that nobody looks at may stand anywhere or nowhere.
-/

set_option autoImplicit false

namespace MultimediaMessaging

open Text

namespace Header

structure IsTextLine (line : Bytes) : Prop extends IsLine line where
  text : ∃ whole, line = encodeChars whole

def value? (key : HeaderKey) (line : Bytes) : Option (List Char) :=
  (decode line).bind fun text =>
    (after? (key.name.toList ++ [':']) (dropReturn text.toList)).map trim

def values (key : HeaderKey) (lines : List Bytes) : List (List Char) :=
  lines.filterMap (value? key)

/-- A line without a colon, or with a key that nobody looks at. -/
inductive Idle (line : Bytes) : Prop
  | plain {text : List Char} (reads : Reads line text) (colon : ':' ∉ text)
  | unknown {name value : List Char} (reads : Reads line (name ++ ':' :: value))
    (colon : ':' ∉ name) (unknown : ∀ key : HeaderKey, name ≠ key.name.toList)

def datagram (lines : List Bytes) (body : Bytes) : Bytes := unlines lines ++ (marker ++ body)

inductive Alike (body : Bytes) (lines lines' : List Bytes) : Prop
  | read (h : Header) (first : parse (datagram lines body) = .ok (h, body))
    (second : parse (datagram lines' body) = .ok (h, body))
    (decode : ∀ d : Decoder, d.decode (datagram lines body) = d.decode (datagram lines' body))
  | unread (e e' : DecodeError) (first : parse (datagram lines body) = .error e)
    (second : parse (datagram lines' body) = .error e')
    (decode : ∀ d : Decoder, d.decode (datagram lines body) = (.error e, d.abandon) ∧
      d.decode (datagram lines' body) = (.error e', d.abandon))

/-- Every number that the lines give can be read. -/
def Legible (lines : List Bytes) : Prop :=
  ∀ (key : HeaderKey) (limit : Nat), key.limit? = some limit →
    ∀ value ∈ values key lines, readNumber limit value ≠ none

variable {h h' h₁ h₂ : Header} {key other : HeaderKey} {line : Bytes} {lines lines' : List Bytes}
  {value : List Char}

theorem decode_of_reads {text : List Char} (hr : Reads line text) :
    (decode line).map (fun whole => dropReturn whole.toList) = some text := by
  obtain ⟨whole, rfl, rfl⟩ := reads_iff.1 hr
  have hd : decode (encodeChars whole) = some (String.ofList whole) := by
    rw [decode_eq_some_iff, encode, String.toList_ofList]
  rw [hd, Option.map_some, String.toList_ofList]

theorem value?_of_reads {text : List Char} (hr : Reads line text) :
    value? key line = (after? (key.name.toList ++ [':']) text).map trim := by
  have hd := decode_of_reads hr
  obtain ⟨whole, hw, rfl⟩ := Option.map_eq_some_iff.1 hd
  rw [value?, hw, Option.bind_some]

theorem value?_eq_some_iff :
    value? key line = some value ↔
      ∃ written, Reads line (key.name.toList ++ ':' :: written) ∧ trim written = value := by
  constructor
  · intro hv
    obtain ⟨text, htext, hafter⟩ := Option.bind_eq_some_iff.1 hv
    obtain ⟨written, hwritten, rfl⟩ := Option.map_eq_some_iff.1 hafter
    rw [after?_eq_some_iff, List.append_assoc] at hwritten
    exact ⟨written, reads_iff.2 ⟨text.toList, eq_encode_of_decode htext, hwritten⟩, rfl⟩
  · rintro ⟨written, hr, rfl⟩
    have ha : after? (key.name.toList ++ [':']) (key.name.toList ++ ':' :: written) =
        some written := by
      rw [after?_eq_some_iff, List.append_assoc]
      rfl
    rw [value?_of_reads hr, ha, Option.map_some]

theorem Reads.unique {text text' : List Char} (hr : Reads line text) (hr' : Reads line text') :
    text = text' := by
  have hd := decode_of_reads hr
  rw [decode_of_reads hr', Option.some.injEq] at hd
  exact hd.symm

theorem IsTextLine.value_or_idle (hl : IsTextLine line) :
    (∃ key value, value? key line = some value) ∨ Idle line := by
  obtain ⟨whole, hw⟩ := hl.text
  have hr : Reads line (dropReturn whole) := reads_iff.2 ⟨whole, hw, rfl⟩
  by_cases hc : ':' ∈ dropReturn whole
  · obtain ⟨name, written, hsplit, hname⟩ := List.eq_append_cons_of_mem hc
    rw [hsplit] at hr
    by_cases hkey : ∃ key : HeaderKey, name = key.name.toList
    · obtain ⟨key, rfl⟩ := hkey
      exact .inl ⟨key, _, value?_eq_some_iff.2 ⟨written, hr, rfl⟩⟩
    · exact .inr (.unknown hr hname (not_exists.1 hkey))
  · exact .inr (.plain hr hc)

theorem applies_iff_of_value (hv : value? key line = some value) :
    Applies h line h' ↔ h.set key value = .ok h' := by
  obtain ⟨written, hr, rfl⟩ := value?_eq_some_iff.1 hv
  constructor
  · intro ha
    rw [← ha.applyLine, applyLine_of_reads h hr, setField_key]
  · exact .of_set hr

theorem Idle.applies (hi : Idle line) (h : Header) : Applies h line h := by
  cases hi with
  | plain reads colon => exact .plain reads colon
  | unknown reads colon hn => exact .unknown reads colon hn

theorem Idle.eq_of_applies (hi : Idle line) (ha : Applies h line h') : h' = h := by
  have hok := ha.applyLine
  rw [(hi.applies h).applyLine, Except.ok.injEq] at hok
  exact hok.symm

theorem split_at_colon {a b c d : List Char} (ha : ':' ∉ a) (hc : ':' ∉ c)
    (he : a ++ ':' :: b = c ++ ':' :: d) : a = c := by
  induction a generalizing c with
  | nil => cases c with
    | nil => rfl
    | cons x c => simp_all
  | cons x a ih => cases c with
    | nil => simp_all
    | cons y c =>
      simp only [List.cons_append, List.cons.injEq] at he
      simp only [List.mem_cons, not_or] at ha hc
      rw [he.1, ih ha.2 hc.2 he.2]

theorem value?_eq_none_of_ne (hv : value? key line = some value) (hne : other ≠ key) :
    value? other line = none := by
  cases ho : value? other line with
  | none => rfl
  | some value' =>
    obtain ⟨written, hr, -⟩ := value?_eq_some_iff.1 hv
    obtain ⟨written', hr', -⟩ := value?_eq_some_iff.1 ho
    have hname := split_at_colon (isLineName_key key).colon (isLineName_key other).colon
      (hr.unique hr')
    exact absurd (HeaderKey.name_inj (String.toList_inj.1 hname)).symm hne

theorem Idle.value?_eq_none (hi : Idle line) (key : HeaderKey) : value? key line = none := by
  cases hv : value? key line with
  | none => rfl
  | some value =>
    obtain ⟨written, hr, -⟩ := value?_eq_some_iff.1 hv
    cases hi with
    | plain reads colon =>
      rw [reads.unique hr] at colon
      simp at colon
    | unknown reads colon hn =>
      exact absurd (split_at_colon colon (isLineName_key key).colon (reads.unique hr)) (hn key)

theorem set_comm {value' : List Char} (hne : key ≠ other) (hf : h.set key value = .ok h₁)
    (hs : h₁.set other value' = .ok h₂) :
    ∃ g, h.set other value' = .ok g ∧ g.set key value = .ok h₂ := by
  cases key <;> cases other <;> grind [set, readValue, Except.map]

/-- A line goes before one that does not speak of its key. -/
theorem applies_swap {first second : Bytes} (hkey : ∀ key, value? key first = none ∨
    value? key second = none) (ht : IsTextLine first) (hs : IsTextLine second)
    (hf : Applies h first h₁) (ha : Applies h₁ second h₂) :
    ∃ g, Applies h second g ∧ Applies g first h₂ := by
  rcases ht.value_or_idle with ⟨key, value, hv⟩ | hi
  · rcases hs.value_or_idle with ⟨other, value', hv'⟩ | hi'
    · have hne : key ≠ other := by
        rintro rfl
        rcases hkey key with hn | hn
        · simp [hn] at hv
        · simp [hn] at hv'
      rw [applies_iff_of_value hv] at hf
      rw [applies_iff_of_value hv'] at ha
      obtain ⟨g, hg, hfirst⟩ := set_comm hne hf ha
      exact ⟨g, (applies_iff_of_value hv').2 hg, (applies_iff_of_value hv).2 hfirst⟩
    · rw [hi'.eq_of_applies ha]
      exact ⟨h, hi'.applies h, hf⟩
  · rw [hi.eq_of_applies hf] at ha
    exact ⟨h₂, ha, hi.applies h₂⟩

theorem AppliesAll.insert {before after : List Bytes} (ht : IsTextLine line)
    (hbefore : ∀ l ∈ before, IsTextLine l)
    (hkey : ∀ l ∈ before, ∀ key, value? key line = none ∨ value? key l = none)
    (hf : Applies h line h₁) (ha : AppliesAll h₁ (before ++ after) h₂) :
    AppliesAll h (before ++ line :: after) h₂ := by
  induction before generalizing h h₁ with
  | nil => exact .cons hf ha
  | cons l before ih =>
    rw [List.forall_mem_cons] at hbefore hkey
    cases ha with
    | cons head tail =>
      obtain ⟨g, hl, hline⟩ := applies_swap hkey.1 ht hbefore.1 hf head
      exact .cons hl (ih hbefore.2 hkey.2 hline tail)

theorem AppliesAll.of_idle (hi : ∀ line ∈ lines, Idle line) (h : Header) :
    AppliesAll h lines h := by
  induction lines with
  | nil => exact .nil h
  | cons line lines ih =>
    rw [List.forall_mem_cons] at hi
    exact .cons (hi.1.applies h) (ih hi.2)

theorem idle_of_values (hl : IsTextLine line) (hv : ∀ key, value? key line = none) :
    Idle line := by
  rcases hl.value_or_idle with ⟨key, value, hsome⟩ | hi
  · rw [hv key] at hsome
    cases hsome
  · exact hi

theorem values_cons_of_none (hv : value? key line = none) :
    values key (line :: lines) = values key lines := List.filterMap_cons_none hv

theorem values_append (key : HeaderKey) (lines lines' : List Bytes) :
    values key (lines ++ lines') = values key lines ++ values key lines' :=
  List.filterMap_append

/-- The values that the keys are given are all that a header takes from its lines. -/
theorem AppliesAll.of_values (hl : ∀ line ∈ lines, IsTextLine line)
    (hl' : ∀ line ∈ lines', IsTextLine line)
    (hv : ∀ key, values key lines = values key lines') (ha : AppliesAll h lines h') :
    AppliesAll h lines' h' := by
  induction lines generalizing h lines' with
  | nil =>
    cases ha
    refine AppliesAll.of_idle (fun line hmem => ?_) _
    exact idle_of_values (hl' line hmem) fun key =>
      List.filterMap_eq_nil_iff.1 (hv key).symm line hmem
  | cons line lines ih =>
    rw [List.forall_mem_cons] at hl
    cases ha with
    | cons head tail =>
      rcases hl.1.value_or_idle with ⟨key, value, hvalue⟩ | hi
      · -- the first line of the other header that speaks of the key says the same of it
        have hfirst : values key lines' = value :: values key lines := by
          rw [← hv key, values, List.filterMap_cons_some hvalue]
          rfl
        obtain ⟨before, line', after, rfl, hnone, hvalue', hafter⟩ :=
          List.filterMap_eq_cons_iff.1 hfirst
        have hrest : ∀ other, values other lines = values other (before ++ after) := by
          intro other
          by_cases hother : other = key
          · rw [hother, values_append, values, values, List.filterMap_eq_nil_iff.2 hnone]
            exact hafter.symm
          · have hold := hv other
            rw [values_cons_of_none (value?_eq_none_of_ne hvalue hother), values_append,
              values_cons_of_none (value?_eq_none_of_ne hvalue' hother)] at hold
            rw [hold, values_append]
        have hlines : ∀ l ∈ before ++ after, IsTextLine l := fun l hmem => hl' l (by
          rw [List.mem_append] at hmem ⊢
          exact hmem.imp_right (List.mem_cons_of_mem line'))
        have hline' : Applies h line' _ :=
          (applies_iff_of_value hvalue').2 ((applies_iff_of_value hvalue).1 head)
        refine .insert (hl' line' (by simp)) (fun l hmem => hl' l (by simp [hmem])) ?_ hline'
          (ih hl.2 hlines hrest tail)
        intro l hmem other
        by_cases hother : other = key
        · exact .inr (hother ▸ hnone l hmem)
        · exact .inl (value?_eq_none_of_ne hvalue' hother)
      · rw [hi.eq_of_applies head] at tail
        refine ih hl.2 hl' (fun key => ?_) tail
        rw [← hv key, values_cons_of_none (hi.value?_eq_none key)]

theorem parse_datagram_iff {body body' : Bytes} (hl : ∀ line ∈ lines, IsTextLine line) :
    parse (datagram lines body) = .ok (h, body') ↔ AppliesAll {} lines h ∧ body' = body := by
  have hlines : ∀ line ∈ lines, IsLine line := fun line hmem => (hl line hmem).toIsLine
  rw [parse_eq_ok_iff]
  constructor
  · rintro ⟨lines', heq, hlines', ha⟩
    rw [datagram, List.append_assoc] at heq
    obtain ⟨rfl, rfl⟩ := unlines_marker_inj hlines hlines' heq
    exact ⟨ha, rfl⟩
  · rintro ⟨ha, rfl⟩
    exact ⟨lines, (List.append_assoc _ _ _).symm, hlines, ha⟩

theorem parse_datagram_of_values {body body' : Bytes} (hl : ∀ line ∈ lines, IsTextLine line)
    (hl' : ∀ line ∈ lines', IsTextLine line)
    (hv : ∀ key, values key lines = values key lines')
    (hp : parse (datagram lines body) = .ok (h, body')) :
    parse (datagram lines' body) = .ok (h, body') := by
  rw [parse_datagram_iff hl] at hp
  rw [parse_datagram_iff hl']
  exact ⟨hp.1.of_values hl hl' hv, hp.2⟩

theorem decode_of_parse_error {datagram : Bytes} {e : DecodeError}
    (hp : parse datagram = .error e) (d : Decoder) :
    d.decode datagram = (.error e, d.abandon) := by
  simp [Decoder.decode, hp, Except.bind]

theorem decode_congr {first second : Bytes} (hp : parse first = parse second) (d : Decoder) :
    d.decode first = d.decode second := by
  rw [Decoder.decode, Decoder.decode, hp]

theorem alike_of_values (hl : ∀ line ∈ lines, IsTextLine line)
    (hl' : ∀ line ∈ lines', IsTextLine line)
    (hv : ∀ key, values key lines = values key lines') (body : Bytes) :
    Alike body lines lines' := by
  cases hp : parse (datagram lines body) with
  | ok read =>
    obtain ⟨h, body'⟩ := read
    obtain ⟨-, rfl⟩ := (parse_datagram_iff hl).1 hp
    have hp' := parse_datagram_of_values hl hl' hv hp
    exact .read h hp hp' (decode_congr (hp.trans hp'.symm))
  | error e =>
    cases hp' : parse (datagram lines' body) with
    | ok read =>
      rw [parse_datagram_of_values hl' hl (fun key => (hv key).symm) hp'] at hp
      cases hp
    | error e' =>
      exact .unread e e' hp hp' fun d =>
        ⟨decode_of_parse_error hp d, decode_of_parse_error hp' d⟩

theorem values_swap {first second : Bytes} (before after : List Bytes)
    (hkey : ∀ key, value? key first = none ∨ value? key second = none) (key : HeaderKey) :
    values key (before ++ first :: second :: after) =
      values key (before ++ second :: first :: after) := by
  rw [values_append, values_append]
  rcases hkey key with hn | hn <;> simp [values, List.filterMap_cons, hn]

theorem values_idle (hi : Idle line) (before after : List Bytes) (key : HeaderKey) :
    values key (before ++ line :: after) = values key (before ++ after) := by
  rw [values_append, values_cons_of_none (hi.value?_eq_none key), values_append]

theorem legible_iff (hl : ∀ line ∈ lines, IsTextLine line) :
    Legible lines ↔ ∀ line ∈ lines, ∀ e, ¬ Offends line e := by
  constructor
  · intro hlegible line hmem e ho
    cases ho with
    | encoding notText =>
      obtain ⟨whole, hw⟩ := (hl line hmem).text
      exact notText whole hw
    | @number key value text limit reads trims hlimit notNumber =>
      have hv : value? key line = some text :=
        value?_eq_some_iff.2 ⟨value, reads, trims_iff.1 trims⟩
      exact hlegible key limit hlimit _ (List.mem_filterMap.2 ⟨line, hmem, hv⟩)
        (readNumber_eq_none_iff.2 notNumber)
  · intro hsound key limit hlimit value hmem hnone
    obtain ⟨line, hline, hv⟩ := List.mem_filterMap.1 hmem
    obtain ⟨written, hr, rfl⟩ := value?_eq_some_iff.1 hv
    exact hsound line hline _
      (.number hr (trims_trim written) hlimit (readNumber_eq_none_iff.1 hnone))

theorem exists_parse_iff (hl : ∀ line ∈ lines, IsTextLine line) (body : Bytes) :
    (∃ h, parse (datagram lines body) = .ok (h, body)) ↔ Legible lines := by
  rw [legible_iff hl]
  constructor
  · rintro ⟨h, hp⟩
    exact ((parse_datagram_iff hl).1 hp).1.not_offends
  · intro hsound
    have hlines : Sound lines := fun line hmem => ⟨(hl line hmem).toIsLine, hsound line hmem⟩
    obtain ⟨h, ha⟩ := hlines.appliesAll {}
    exact ⟨h, (parse_datagram_iff hl).2 ⟨ha, rfl⟩⟩

/-- A header is made of the values that its keys are given, key by key. Lines of different keys may
change places, idle lines may come and go, and only a number that cannot be read spoils a header. -/
theorem keys_independent (body : Bytes) :
    (∀ lines lines', (∀ line ∈ lines, IsTextLine line) → (∀ line ∈ lines', IsTextLine line) →
      (∀ key, values key lines = values key lines') → Alike body lines lines') ∧
    (∀ before first second after,
      (∀ line ∈ before ++ first :: second :: after, IsTextLine line) →
      (∀ key, value? key first = none ∨ value? key second = none) →
      Alike body (before ++ first :: second :: after) (before ++ second :: first :: after)) ∧
    (∀ before line after, (∀ l ∈ before ++ line :: after, IsTextLine l) → Idle line →
      Alike body (before ++ line :: after) (before ++ after)) ∧
    ∀ lines, (∀ line ∈ lines, IsTextLine line) →
      ((∃ h, parse (datagram lines body) = .ok (h, body)) ↔ Legible lines) := by
  refine ⟨fun lines lines' hl hl' hv => alike_of_values hl hl' hv body, ?_, ?_,
    fun lines hl => exists_parse_iff hl body⟩
  · intro before first second after hl hkey
    have hl' : ∀ line ∈ before ++ second :: first :: after, IsTextLine line :=
      fun line hmem => hl line (((List.Perm.swap _ _ _).append_left before).mem_iff.1 hmem)
    exact alike_of_values hl hl' (values_swap before after hkey) body
  · intro before line after hl hi
    have hl' : ∀ l ∈ before ++ after, IsTextLine l := fun l hmem => hl l (by
      rw [List.mem_append] at hmem ⊢
      exact hmem.imp_right (List.mem_cons_of_mem line))
    exact alike_of_values hl hl' (values_idle hi before after) body

def ordered : List Bytes := [encode "Segments: 2", encode "Fragment: 1"]

def disordered : List Bytes := [encode "X-Future: 9", encode "Fragment:1", encode "Segments: 2\r"]

theorem isTextLine_ordered : ∀ line ∈ ordered, IsTextLine line := by
  intro line hmem
  simp only [ordered, List.mem_cons, List.not_mem_nil, or_false] at hmem
  rcases hmem with rfl | rfl <;> exact ⟨⟨by decide, by decide⟩, _, rfl⟩

theorem isTextLine_disordered : ∀ line ∈ disordered, IsTextLine line := by
  intro line hmem
  simp only [disordered, List.mem_cons, List.not_mem_nil, or_false] at hmem
  rcases hmem with rfl | rfl | rfl <;> exact ⟨⟨by decide, by decide⟩, _, rfl⟩

theorem values_ordered (key : HeaderKey) : values key ordered = values key disordered := by
  cases key <;> decide +kernel

theorem legible_ordered : Legible ordered := by
  intro key limit hlimit
  cases key <;> cases hlimit <;> decide +kernel

theorem keys_independent_ordered :
    (∀ line ∈ ordered, IsTextLine line) ∧ (∀ line ∈ disordered, IsTextLine line) ∧
      (∀ key, values key ordered = values key disordered) ∧ Alike [7] ordered disordered ∧
      ∃ h, parse (datagram ordered [7]) = .ok (h, [7]) := by
  obtain ⟨halike, -, -, hread⟩ := keys_independent [7]
  exact ⟨isTextLine_ordered, isTextLine_disordered, values_ordered,
    halike _ _ isTextLine_ordered isTextLine_disordered values_ordered,
    (hread _ isTextLine_ordered).2 legible_ordered⟩

end Header

end MultimediaMessaging
