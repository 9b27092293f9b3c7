import MultimediaMessaging.Config.Document
import MultimediaMessaging.Proofs.Json.Reading
import MultimediaMessaging.Proofs.Network.AddressText

/-!
Configurations read back from their documents. Main statement: what is loaded from the document of a
configuration is that configuration if it is valid, and the fault found in it otherwise.
-/

set_option autoImplicit false

namespace MultimediaMessaging

open Text

theorem ConfigKey.ofName?_name (key : ConfigKey) : ofName? key.name = some key := by
  cases key <;> decide

theorem ConfigKey.escaped_name (key : ConfigKey) :
    key.name.toList.flatMap Json.escapeChar = key.name.toList := by
  cases key <;> decide

namespace Config

def fieldJson (c : Config) : ConfigKey → Json
  | .phoneNumber => .string (some c.phoneNumber)
  | .fragmentSize => .number (digits c.fragmentSize.toNat)
  | .maxDatagramSize => .number (digits c.maxDatagramSize.toNat)
  | .poolCapacity => .number (digits c.poolCapacity.toNat)
  | .maxMessageSize => .number (digits c.maxMessageSize.toNat)
  | .maxPendingTransfers => .number (digits c.maxPendingTransfers.toNat)
  | .reassemblyTimeout => .number (digits c.reassemblyTimeout.toNat)
  | .ackTimeout => .number (digits c.ackTimeout.toNat)
  | .ackRetries => .number (digits c.ackRetries.toNat)
  | .readTimeout => .number (digits c.readTimeout.toNat)
  | .bindAddress => .string (some c.bindAddress.text)

theorem reads_fieldText (c : Config) (key : ConfigKey) :
    Json.Reads (c.fieldText key).toList (c.fieldJson key) := by
  have hnumber (n : Nat) : Json.Reads (toString n).toList (.number (digits n)) := by
    have hn : (toString n).toList = digits n := by simp [digits]
    rw [hn]
    exact Json.reads_digits n
  cases key with
  | phoneNumber => exact Json.reads_stringText _
  | bindAddress => exact Json.reads_stringText _
  | _ => exact hnumber _

theorem toList_fieldLine (c : Config) (key : ConfigKey) :
    (c.fieldLine key).toList = Json.memberLine key.name (c.fieldText key).toList := by
  simp [fieldLine, Json.memberLine, toString]

theorem toList_document (c : Config) :
    c.document.toList = '\x7b' :: '\n' ::
      (Json.memberLines ConfigKey.name (fun key => (c.fieldText key).toList) ConfigKey.all ++
        ['\n', '\x7d']) := by
  have hlines : String.toList ∘ c.fieldLine =
      fun key => Json.memberLine key.name (c.fieldText key).toList := funext c.toList_fieldLine
  simp [document, Json.memberLines, hlines]

theorem readJson_document (c : Config) :
    Json.parse c.document =
      some (.object (ConfigKey.all.map fun key => (some key.name, c.fieldJson key))) :=
  Json.parse_memberLines ConfigKey.escaped_name c.reads_fieldText (by decide) c.toList_document

def copyField (c d : Config) : ConfigKey → Config
  | .phoneNumber => { d with phoneNumber := c.phoneNumber }
  | .fragmentSize => { d with fragmentSize := c.fragmentSize }
  | .maxDatagramSize => { d with maxDatagramSize := c.maxDatagramSize }
  | .poolCapacity => { d with poolCapacity := c.poolCapacity }
  | .maxMessageSize => { d with maxMessageSize := c.maxMessageSize }
  | .maxPendingTransfers => { d with maxPendingTransfers := c.maxPendingTransfers }
  | .reassemblyTimeout => { d with reassemblyTimeout := c.reassemblyTimeout }
  | .ackTimeout => { d with ackTimeout := c.ackTimeout }
  | .ackRetries => { d with ackRetries := c.ackRetries }
  | .readTimeout => { d with readTimeout := c.readTimeout }
  | .bindAddress => { d with bindAddress := c.bindAddress }

theorem json64?_digits (n : UInt64) : json64? (.number (digits n.toNat)) = some n := by
  have hlt := n.toNat_lt
  rw [json64?, jsonNumber?, readDigits_digits (by rw [limit64]; omega)]
  simp

theorem jsonNumber?_digits (n : UInt32) :
    jsonNumber? limit32 (.number (digits n.toNat)) = some n.toNat := by
  have hlt := n.toNat_lt
  exact readDigits_digits (by rw [limit32]; omega)

theorem set?_fieldJson (c d : Config) (key : ConfigKey) :
    d.set? key (c.fieldJson key) = some (c.copyField d key) := by
  cases key <;>
    simp [set?, fieldJson, copyField, json64?_digits, jsonNumber?_digits, jsonText?,
      IpAddress.parse_text]

theorem ofMembers?_fields (c d : Config) (keys : List ConfigKey) :
    ofMembers? d keys (keys.map fun key => (some key.name, c.fieldJson key)) =
      some (keys.foldl c.copyField d) := by
  -- the keys not yet given are those of the members not yet read
  induction keys generalizing d with
  | nil => rfl
  | cons key keys ih =>
    simp [ofMembers?, ConfigKey.ofName?_name, set?_fieldJson, ih]

theorem copyField_all (c d : Config) : ConfigKey.all.foldl c.copyField d = c := by
  simp only [ConfigKey.all, List.foldl_cons, List.foldl_nil, copyField]

theorem ofJson?_document (c : Config) : (Json.parse c.document).bind ofJson? = some c := by
  rw [readJson_document, Option.bind_some, ofJson?, ofMembers?_fields, copyField_all]

theorem parse_document (c : Config) : parse c.document = c.validate.map fun _ => c := by
  rw [parse, ofJson?_document]

theorem validate_cases (c : Config) :
    c.validate = .ok () ∨ ∃ fault, c.validate = .error (.invalidValue fault) := by
  unfold validate
  repeat' split
  all_goals simp

/-- A configuration that was saved is loaded again, or refused for the fault it has. -/
theorem ofBytes_document (c : Config) :
    (c.validate = .ok () ∧ ofBytes (encode c.document) = .ok c) ∨
      ∃ fault, c.validate = .error (.invalidValue fault) ∧
        ofBytes (encode c.document) = .error (.invalidValue fault) := by
  have hload : ofBytes (encode c.document) = c.validate.map fun _ => c := by
    rw [ofBytes, decode_encode]
    exact c.parse_document
  rcases c.validate_cases with hvalid | ⟨fault, hfault⟩
  · exact .inl ⟨hvalid, by rw [hload, hvalid]; rfl⟩
  · exact .inr ⟨fault, hfault, by rw [hload, hfault]; rfl⟩

end Config

end MultimediaMessaging
