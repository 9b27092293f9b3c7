import MultimediaMessaging.Proofs.Transport.Sending

/-!
Whom a datagram is for and whom it is from. Main statement: of what a configured encoder prints, the
destination is read back exactly when it has no colon and no blank at its end, the application to
reply to exactly when it has no blank at its end, and the phone number exactly when an application
follows it or it has no blank at its end.
-/

set_option autoImplicit false

namespace MultimediaMessaging

open Text

namespace Config

theorem phoneNumber_of_validate {config : Config} (h : config.validate = .ok ()) :
    ':' ∉ config.phoneNumber.toList ∧ '\n' ∉ config.phoneNumber.toList := by
  unfold validate at h
  repeat' split at h
  all_goals cases h
  rename_i hphone
  exact not_or.1 hphone

end Config

namespace Encoder

variable {e : Encoder} {m : Outgoing} {config : Config} {index segments : Nat} {wire : Bytes}

theorem fragmentHeader_app (e : Encoder) (m : Outgoing) (index segments : Nat) :
    (e.fragmentHeader m index segments).app = readApp? m := by
  unfold fragmentHeader
  split
  · rfl
  · split <;> rfl

theorem fragmentHeader_sender (e : Encoder) (m : Outgoing) (index segments : Nat) :
    (e.fragmentHeader m index segments).sender = some (e.readSender m).1 ∧
      (e.fragmentHeader m index segments).replyTo = (e.readSender m).2 := by
  unfold fragmentHeader
  split
  · exact ⟨rfl, rfl⟩
  · split <;> exact ⟨rfl, rfl⟩

/-- The encoder looks for a colon in the application to reply to, but not in the destination, and
for blanks nowhere. -/
theorem addressed_of_encode (hvalid : config.validate = .ok ()) (hm : m.Sized)
    (hcookie : ∀ ack ∈ m.ack, ∃ millis counter, ack.cookie = Delivery.cookieText millis counter)
    (hn : segments ≤ limit64) (h : (ofConfig config).encode m index segments = .ok wire) :
    ∃ header body, Header.parse wire = .ok (header, body) ∧
      (header.app = some m.dest ↔ ':' ∉ m.dest.toList ∧ IsUnpadded m.dest) ∧
      (header.replyTo = m.source ↔ IsUnpadded m.source) ∧
      (header.sender = some ("mms://" ++ config.phoneNumber) ↔
        m.source ≠ "" ∨ IsUnpadded config.phoneNumber) := by
  obtain ⟨hcolon, hlineEnd⟩ := Config.phoneNumber_of_validate hvalid
  have hencodes := encodes_of_encode h
  have htoken : ∀ ack ∈ m.ack, IsToken ack.cookie := by
    intro ack hack
    obtain ⟨millis, counter, hform⟩ := hcookie ack hack
    exact hform ▸ Delivery.isToken_cookieText millis counter
  have hsender := @readSender_eq_trimmed (ofConfig config) m hcolon hencodes.source_safe
  refine ⟨_, _, parse_encode ⟨hlineEnd, htoken⟩ hm hn h, ?_, ?_, ?_⟩
  · rw [fragmentHeader_app, readApp?_eq_some_dest_iff hencodes.dest_ne]
  · rw [(fragmentHeader_sender _ _ _ _).2, hsender, trimmed_eq_self_iff]
  · rw [(fragmentHeader_sender _ _ _ _).1, hsender, Option.some.injEq, String.append_right_inj]
    by_cases hsource : m.source = ""
    · simp [hsource, ofConfig]
    · simp [hsource, ofConfig]

def inquiry (dest : String) : Outgoing := ⟨[7], dest, "mail", 1700000000, none⟩

def inquiryWire (dest : String) : Bytes :=
  ((ofConfig {}).encode (inquiry dest) 0 1).toOption.getD []

theorem encode_inquiry {dest : String}
    (h : ((ofConfig {}).encode (inquiry dest) 0 1).toOption.isSome = true) :
    (ofConfig {}).encode (inquiry dest) 0 1 = .ok (inquiryWire dest) := by
  rw [inquiryWire]
  cases hwire : (ofConfig {}).encode (inquiry dest) 0 1 with
  | error e => simp [hwire, Except.toOption] at h
  | ok wire => rfl

theorem addressed_inquiry : ∃ header body,
    Header.parse (inquiryWire "chat") = .ok (header, body) ∧ header.app = some "chat" ∧
      header.replyTo = "mail" ∧ header.sender = some "mms://+5550000" := by
  obtain ⟨header, body, hparse, happ, hreply, hsender⟩ :=
    @addressed_of_encode (inquiry "chat") {} 0 1 (inquiryWire "chat") rfl
      ⟨by decide, by decide⟩ (by rintro ack ⟨⟩) (by decide) (encode_inquiry (by decide +kernel))
  exact ⟨header, body, hparse, happ.2 ⟨by decide, isBlank_eq_false_of_all (by decide)⟩,
    hreply.2 (isBlank_eq_false_of_all (by decide)), hsender.2 (.inl (by decide))⟩

/-- An inquiry to an application with a colon goes to another one. -/
theorem misaddressed_inquiry : Config.validate {} = .ok () ∧
    (ofConfig {}).encode (inquiry "mail:chat") 0 1 = .ok (inquiryWire "mail:chat") ∧
    ∃ header body, Header.parse (inquiryWire "mail:chat") = .ok (header, body) ∧
      header.app = some "chat" := by
  have hencode := @encode_inquiry "mail:chat" (by decide +kernel)
  have hphone := (@Config.phoneNumber_of_validate {} rfl).2
  refine ⟨rfl, hencode, _, _, parse_encode ⟨hphone, by rintro ack ⟨⟩⟩ ⟨by decide, by decide⟩
    (by decide) hencode, ?_⟩
  rw [fragmentHeader_app, readApp?]
  decide

end Encoder

end MultimediaMessaging
