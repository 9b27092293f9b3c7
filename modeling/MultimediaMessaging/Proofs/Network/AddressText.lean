import MultimediaMessaging.Network.AddressText
import MultimediaMessaging.Proofs.Text.Digits

/-!
Internet addresses read back from their text. Main statement: every address is read from what is
written for it, whichever of its groups are left out or written as octets.
-/

set_option autoImplicit false

namespace MultimediaMessaging

open Text

namespace IpAddress

variable {a b c d : UInt8} {g : UInt16} {gs : List UInt16} {rest cs : List Char}

section Octets

theorem readOctet_digits (a : UInt8) (hrest : ∀ c ∈ rest.head?, c.isDigit = false) :
    readOctet (digits a.toNat ++ rest) = some (a, rest) := by
  have hlt := a.toNat_lt
  obtain ⟨htake, hdrop⟩ :=
    takeWhile_run (fun c hc => isDigit_of_mem_digits (n := a.toNat) hc) hrest
  have hlength : (digits a.toNat).length ≤ 3 := (length_digits_le_iff (by decide)).2 (by omega)
  have hhead : (digits a.toNat).head? ≠ some '0' ∨ (digits a.toNat).length = 1 :=
    (head?_digits_cases a.toNat).imp_right fun h => by rw [h]; rfl
  rw [readOctet, htake, hdrop, if_pos ⟨hlength, hhead⟩, readDigits_digits (by omega)]
  simp

theorem readOctet_dot (a : UInt8) (rest : List Char) :
    readOctet (digits a.toNat ++ '.' :: rest) = some (a, '.' :: rest) :=
  readOctet_digits a fun c hc => by cases hc; rfl

theorem readOctets_octetsText (a b c d : UInt8) (hrest : ∀ c ∈ rest.head?, c.isDigit = false) :
    readOctets (octetsText a b c d ++ rest) = some ((a, b, c, d), rest) := by
  simp only [octetsText, List.append_assoc, List.cons_append, readOctets, readOctet_dot, readDot,
    readOctet_digits d hrest, Option.bind_eq_bind, Option.bind_some]
  rfl

theorem readOctets_octetsText_end (a b c d : UInt8) :
    readOctets (octetsText a b c d) = some ((a, b, c, d), []) := by
  rw [← readOctets_octetsText a b c d (fun c hc => by cases hc), List.append_nil]

theorem eq_dropWhile_of_readOctet (h : readOctet cs = some (a, rest)) :
    rest = cs.dropWhile Char.isDigit := by
  simp only [readOctet] at h
  split at h
  · obtain ⟨n, -, hn⟩ := Option.map_eq_some_iff.1 h
    exact (Prod.mk.inj hn).2.symm
  · cases h

theorem readOctets_of_head (hcs : ∀ c ∈ cs.head?, c.isDigit = false) : readOctets cs = none := by
  have hnone : readOctet cs = none := by
    rw [readOctet, (takeWhile_of_head hcs).1]
    rfl
  rw [readOctets, hnone]
  rfl

theorem readOctets_of_notMem (hdot : '.' ∉ cs) : readOctets cs = none := by
  rw [readOctets]
  cases hread : readOctet cs with
  | none => rfl
  | some read =>
    obtain ⟨a, rest⟩ := read
    have hrest : '.' ∉ rest := by
      rw [eq_dropWhile_of_readOctet hread]
      exact fun hmem => hdot ((List.dropWhile_sublist _).subset hmem)
    have hnone : readDot rest = none := by
      cases rest with
      | nil => rfl
      | cons c rest =>
        unfold readDot
        split
        · simp_all
        · rfl
    simp [hnone]

end Octets

section Groups

/-- Where no more groups can be read: at the end, or where groups are left out. -/
def Stops (rest : List Char) : Prop := rest = [] ∨ ∃ cs, rest = ':' :: ':' :: cs

def groupsTail (gs : List UInt16) : List Char := gs.flatMap fun g => ':' :: hexDigits g.toNat

theorem groupsText_cons (g : UInt16) (gs : List UInt16) :
    groupsText (g :: gs) = hexDigits g.toNat ++ groupsTail gs := by
  induction gs generalizing g with
  | nil => simp [groupsText, groupsTail]
  | cons g' gs ih => simp [groupsText, ih g', groupsTail]

theorem isSome_hexValue_of_mem {n : Nat} {c : Char} (h : c ∈ hexDigits n) :
    (hexValue c).isSome = true := by
  obtain ⟨d, hd, rfl⟩ := exists_of_mem_hexDigits h
  rw [hexValue_digitChar hd]
  rfl

theorem readGroup_hexDigits (g : UInt16)
    (hrest : ∀ c ∈ rest.head?, (hexValue c).isSome = false) :
    readGroup (hexDigits g.toNat ++ rest) = some (g, rest) := by
  have hlt := g.toNat_lt
  obtain ⟨htake, -⟩ := takeWhile_run (p := fun c => (hexValue c).isSome)
    (fun c hc => isSome_hexValue_of_mem (n := g.toNat) hc) hrest
  have hpos : 0 < (hexDigits g.toNat).length := Nat.length_toDigits_pos
  have hle : (hexDigits g.toNat).length ≤ 4 := (length_hexDigits_le_iff (by decide)).2 (by omega)
  rw [readGroup, htake, if_pos ⟨hpos, hle⟩, ofHexDigits_hexDigits, List.drop_left]
  simp

theorem readColon_true (cs : List Char) : readColon true cs = some cs := by
  unfold readColon
  split <;> rfl

theorem readGroup_of_head (hcs : ∀ c ∈ cs.head?, (hexValue c).isSome = false) :
    readGroup cs = none := by
  rw [readGroup, (takeWhile_of_head hcs).1]
  rfl

theorem readGroups_of_colon (room : Nat) (first : Bool) {rest : List Char}
    (hcolon : readColon first cs = some rest) (hrest : ∀ c ∈ rest.head?, c = ':') :
    readGroups (room + 1) first cs = ([], false, cs) := by
  have hoctets : readOctets rest = none :=
    readOctets_of_head fun c hc => by rw [hrest c hc]; rfl
  have hgroup : readGroup rest = none :=
    readGroup_of_head fun c hc => by rw [hrest c hc]; rfl
  simp [readGroups, hcolon, hoctets, hgroup]

theorem readGroups_stops (room : Nat) (first : Bool) (hs : Stops rest) :
    readGroups room first rest = ([], false, rest) := by
  cases room with
  | zero => rfl
  | succ room =>
    cases first with
    | true =>
      refine readGroups_of_colon room true (readColon_true rest) ?_
      rcases hs with rfl | ⟨cs, rfl⟩
      · simp
      · simp
    | false =>
      rcases hs with rfl | ⟨cs, rfl⟩
      · rfl
      · exact readGroups_of_colon room false rfl (by simp)

theorem Stops.head (hs : Stops rest) : ∀ c ∈ rest.head?, (hexValue c).isSome = false := by
  rcases hs with rfl | ⟨cs, rfl⟩
  · simp
  · rintro _ ⟨⟩
    rfl

theorem groupsTail_head (gs : List UInt16) (hs : Stops rest) :
    ∀ c ∈ (groupsTail gs ++ rest).head?, (hexValue c).isSome = false := by
  cases gs with
  | nil => exact hs.head
  | cons g gs =>
    rintro _ ⟨⟩
    rfl

theorem dot_notMem_hexDigits (n : Nat) : '.' ∉ hexDigits n := by
  intro hmem
  exact absurd (isSome_hexValue_of_mem hmem) (by decide)

theorem dot_notMem_groupsTail (gs : List UInt16) : '.' ∉ groupsTail gs := by
  simp [groupsTail, dot_notMem_hexDigits]

/-- One group and what follows it. -/
theorem readGroups_hexDigits {room : Nat} {first : Bool} (g : UInt16)
    (hcolon : readColon first cs = some (hexDigits g.toNat ++ rest))
    (hoctets : readOctets (hexDigits g.toNat ++ rest) = none)
    (hrest : ∀ c ∈ rest.head?, (hexValue c).isSome = false) :
    readGroups (room + 1) first cs =
      (g :: (readGroups room false rest).1, (readGroups room false rest).2) := by
  simp [readGroups, hcolon, hoctets, readGroup_hexDigits g hrest]

theorem readOctets_hexDigits (g : UInt16) (gs : List UInt16) (hdot : '.' ∉ rest) :
    readOctets (hexDigits g.toNat ++ (groupsTail gs ++ rest)) = none :=
  readOctets_of_notMem (by simp [hdot, dot_notMem_hexDigits, dot_notMem_groupsTail])

theorem readGroups_groupsTail {room : Nat} (hroom : gs.length ≤ room) (hs : Stops rest)
    (hdot : '.' ∉ rest) :
    readGroups room false (groupsTail gs ++ rest) = (gs, false, rest) := by
  induction gs generalizing room with
  | nil => exact readGroups_stops room false hs
  | cons g gs ih =>
    obtain ⟨room, rfl⟩ : ∃ k, room = k + 1 := ⟨room - 1, by simp at hroom; omega⟩
    have hcolon : readColon false (groupsTail (g :: gs) ++ rest) =
        some (hexDigits g.toNat ++ (groupsTail gs ++ rest)) := by
      simp [groupsTail, readColon]
    rw [readGroups_hexDigits g hcolon (readOctets_hexDigits g gs hdot) (groupsTail_head gs hs),
      ih (by simpa using hroom)]

theorem readGroups_groupsText {room : Nat} (hroom : gs.length ≤ room) (hs : Stops rest)
    (hdot : '.' ∉ rest) :
    readGroups room true (groupsText gs ++ rest) = (gs, false, rest) := by
  cases gs with
  | nil => exact readGroups_stops room true hs
  | cons g gs =>
    obtain ⟨room, rfl⟩ : ∃ k, room = k + 1 := ⟨room - 1, by simp at hroom; omega⟩
    have hcolon : readColon true (groupsText (g :: gs) ++ rest) =
        some (hexDigits g.toNat ++ (groupsTail gs ++ rest)) := by
      rw [readColon_true, groupsText_cons, List.append_assoc]
    rw [readGroups_hexDigits g hcolon (readOctets_hexDigits g gs hdot) (groupsTail_head gs hs),
      readGroups_groupsTail (by simpa using hroom) hs hdot]

theorem readGroups_groupsText_end {room : Nat} (hroom : gs.length ≤ room) :
    readGroups room true (groupsText gs) = (gs, false, []) := by
  rw [← readGroups_groupsText hroom (.inl rfl) List.not_mem_nil, List.append_nil]

end Groups

section Zeros

theorem length_zerosAt_le (gs : List UInt16) (i : Nat) : i + zerosAt gs i ≤ max i gs.length := by
  have hle := (List.takeWhile_prefix (· == 0) (l := gs.drop i)).length_le
  rw [List.length_drop] at hle
  rw [zerosAt]
  omega

theorem take_zerosAt (gs : List UInt16) {i n : Nat} (hn : n ≤ zerosAt gs i) :
    (gs.drop i).take n = List.replicate n 0 := by
  obtain ⟨after, hafter⟩ := List.takeWhile_prefix (· == 0) (l := gs.drop i)
  have hlength : n ≤ ((gs.drop i).takeWhile (· == 0)).length := hn
  rw [← hafter, List.take_append_of_le_length hlength, List.eq_replicate_iff]
  constructor
  · rw [List.length_take]
    omega
  · intro g hg
    simpa using List.all_eq_true.1 List.all_takeWhile g (List.mem_of_mem_take hg)

/-- What is found is a run of zeros, be it the longest or not. -/
theorem longestZeros_le (gs : List UInt16) :
    (longestZeros gs).2 ≤ zerosAt gs (longestZeros gs).1 := by
  unfold longestZeros
  refine List.foldlRecOn (motive := fun best : Nat × Nat => best.2 ≤ zerosAt gs best.1) _ _
    (Nat.zero_le _) fun best hbest i _ => ?_
  split
  · exact Nat.le_refl _
  · exact hbest

/-- Groups that are left out are as many as are missing. -/
theorem eq_of_longestZeros (gs : List UInt16) (hn : 1 < (longestZeros gs).2) :
    (longestZeros gs).1 + (longestZeros gs).2 ≤ gs.length ∧
      gs = gs.take (longestZeros gs).1 ++ (List.replicate (longestZeros gs).2 0 ++
        gs.drop ((longestZeros gs).1 + (longestZeros gs).2)) := by
  have hrun := longestZeros_le gs
  have hle := length_zerosAt_le gs (longestZeros gs).1
  refine ⟨by omega, ?_⟩
  rw [← take_zerosAt gs hrun, ← List.drop_drop, List.take_append_drop, List.take_append_drop]

end Zeros

theorem dot_notMem_groupsText (gs : List UInt16) : '.' ∉ groupsText gs := by
  cases gs with
  | nil => simp [groupsText]
  | cons g gs => simp [groupsText_cons, dot_notMem_groupsTail, dot_notMem_hexDigits]

theorem dot_notMem_shortenedText (gs : List UInt16) : '.' ∉ shortenedText gs := by
  unfold shortenedText
  split <;> simp [dot_notMem_groupsText]

theorem v6_eq {groups : Vector UInt16 8} {gs : List UInt16} (h : gs = groups.toList)
    (hlength : gs.toArray.size = 8) : IpAddress.v6 ⟨gs.toArray, hlength⟩ = .v6 groups := by
  subst h
  rfl

theorem readV6_whole {groups : Vector UInt16 8}
    (hread : readGroups 8 true cs = (groups.toList, false, rest)) :
    readV6 cs = some (.v6 groups, rest) := by
  rw [readV6, hread]
  simp only [Vector.length_toList, dite_true]
  rw [v6_eq rfl]

/-- Two colons give back the zeros that were left out. -/
theorem readV6_shortened {groups : Vector UInt16 8} (head : List UInt16) {tail : List UInt16}
    (count : Nat) {dotted : Bool} (hread : readGroups 8 true cs = (head, false, ':' :: ':' :: rest))
    (htail : readGroups (7 - head.length) true rest = (tail, dotted, []))
    (hcount : 0 < count) (hgroups : groups.toList = head ++ (List.replicate count 0 ++ tail)) :
    readV6 cs = some (.v6 groups, []) := by
  have hlength := congrArg List.length hgroups
  simp only [Vector.length_toList, List.length_append, List.length_replicate] at hlength
  have hmissing : 8 - head.length - tail.length = count := by omega
  rw [← List.append_assoc] at hgroups
  rw [readV6, hread]
  simp only [htail, hmissing, dite_true, dite_false, Bool.false_eq_true, ite_false,
    show ¬head.length = 8 by omega, ← hgroups, Vector.length_toList]
  rw [v6_eq rfl]

theorem readV6_shortenedText (groups : Vector UInt16 8) :
    readV6 (shortenedText groups.toList) = some (.v6 groups, []) := by
  unfold shortenedText
  split
  · rename_i hn
    obtain ⟨hle, heq⟩ := eq_of_longestZeros groups.toList hn
    generalize (longestZeros groups.toList).1 = start at hle heq ⊢
    generalize (longestZeros groups.toList).2 = count at hn hle heq ⊢
    rw [Vector.length_toList] at hle
    have hhead : (groups.toList.take start).length = start := by
      rw [List.length_take, Vector.length_toList]
      omega
    have htail : (groups.toList.drop (start + count)).length = 8 - (start + count) := by
      rw [List.length_drop, Vector.length_toList]
    have hfirst : readGroups 8 true (groupsText (groups.toList.take start) ++
        ':' :: ':' :: groupsText (groups.toList.drop (start + count))) =
          (groups.toList.take start, false,
            ':' :: ':' :: groupsText (groups.toList.drop (start + count))) :=
      readGroups_groupsText (by omega) (.inr ⟨_, rfl⟩) (by simp [dot_notMem_groupsText])
    have hlast : readGroups (7 - (groups.toList.take start).length) true
        (groupsText (groups.toList.drop (start + count))) =
          (groups.toList.drop (start + count), false, []) :=
      readGroups_groupsText_end (by omega)
    rw [List.append_assoc]
    exact readV6_shortened _ count hfirst hlast (by omega) heq
  · exact readV6_whole (readGroups_groupsText_end (by simp))

section Mapped

theorem join_halves (g : UInt16) :
    (g >>> 8).toUInt8.toUInt16 <<< 8 ||| g.toUInt8.toUInt16 = g := by
  have hlt := g.toNat_lt
  have hhigh : ((g >>> 8).toUInt8.toUInt16 <<< 8).toNat = (g.toNat / 2 ^ 8) <<< 8 := by
    simp [Nat.shiftRight_eq_div_pow, Nat.shiftLeft_eq]
    omega
  have hlow : g.toUInt8.toUInt16.toNat = g.toNat % 2 ^ 8 := by simp
  refine UInt16.toNat_inj.1 ?_
  rw [UInt16.toNat_or, hhigh, hlow, ← Nat.shiftLeft_add_eq_or_of_lt (Nat.mod_lt _ (by decide)),
    Nat.shiftLeft_eq]
  omega

/-- The last two groups of a mapped address, which its octets stand for. -/
def octetGroups (a b c d : UInt8) : List UInt16 :=
  [a.toUInt16 <<< 8 ||| b.toUInt16, c.toUInt16 <<< 8 ||| d.toUInt16]

theorem toList_of_mapped {groups : Vector UInt16 8}
    (h : mapped? (.v6 groups) = some (a, b, c, d)) :
    groups.toList = List.replicate 5 0 ++ 0xFFFF :: octetGroups a b c d := by
  simp only [mapped?] at h
  split at h
  · rename_i hprefix
    cases h
    have hlast : groups.toList.drop 6 = [groups[6], groups[7]] := by
      refine List.ext_getElem (by simp) fun i hi hi' => ?_
      have : i = 0 ∨ i = 1 := by simp at hi'; omega
      rcases this with rfl | rfl <;> simp
    rw [← List.take_append_drop 6 groups.toList, hprefix, hlast, octetGroups, join_halves,
      join_halves]
    rfl
  · cases h

theorem readGroups_octetsText (a b c d : UInt8) :
    readGroups 7 true ("ffff:".toList ++ octetsText a b c d) =
      (0xFFFF :: octetGroups a b c d, true, []) := by
  have hgroup : "ffff:".toList ++ octetsText a b c d =
      hexDigits (0xFFFF : UInt16).toNat ++ ':' :: octetsText a b c d := rfl
  rw [hgroup, readGroups_hexDigits 0xFFFF (readColon_true _)
    (readOctets_of_head fun c hc => by cases hc; rfl) fun c hc => by cases hc; rfl]
  simp [readGroups, readColon, readOctets_octetsText_end, octetGroups]

theorem readV6_mapped {groups : Vector UInt16 8}
    (h : mapped? (.v6 groups) = some (a, b, c, d)) :
    readV6 ("::ffff:".toList ++ octetsText a b c d) = some (.v6 groups, []) := by
  have hcolons : "::ffff:".toList ++ octetsText a b c d =
      ':' :: ':' :: ("ffff:".toList ++ octetsText a b c d) := rfl
  rw [hcolons]
  exact readV6_shortened [] 5 (readGroups_stops 8 true (.inr ⟨_, rfl⟩))
    (readGroups_octetsText a b c d) (by decide) (toList_of_mapped h)

end Mapped

theorem read_chars (ip : IpAddress) : read ip.chars = some (ip, []) := by
  cases ip with
  | v4 a b c d =>
    rw [read, chars, readOctets_octetsText_end]
  | v6 groups =>
    rw [chars]
    split
    · rename_i hmapped
      rw [read, readOctets_of_head fun c hc => by cases hc; rfl]
      exact readV6_mapped hmapped
    · rw [read, readOctets_of_notMem (dot_notMem_shortenedText _)]
      exact readV6_shortenedText groups

/-- Every address is read back from its text. -/
theorem parse_text (ip : IpAddress) : parse ip.text = some ip := by
  rw [parse, text, String.toList_ofList, read_chars]

end IpAddress

end MultimediaMessaging
