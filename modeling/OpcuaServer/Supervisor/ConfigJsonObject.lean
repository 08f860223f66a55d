import OpcuaServer.Library.KeyedTable
import OpcuaServer.Supervisor.ConfigJsonLanguage
import OpcuaServer.Supervisor.ConfigJsonParser

/-!
# From the members of an object to a configuration

`JsonObject.Decodes ms object` says that the parser's object holds the members `ms` of a JSON
object. Then `buildConfig` gives exactly the configuration that the members denote
(`buildConfig_eq_ok_iff`).
-/

namespace OpcuaServer

/-- The parser's value for a string without NUL or for an integer in the range of `int`. -/
inductive JsonValue.Decodes : Json.Value → JsonValue → Prop where
  | string {cs : List Char} : '\x00' ∉ cs → Decodes (.string cs) (.string (Utf8.encode cs))
  | integer {n : Json.Number} {value : Int32} : n.IsInteger → value.toInt = n.intValue →
      Decodes (.number n) (.integer value)

/-- The parser's member for a member of an object. -/
structure JsonObject.DecodesMember (m : List Char × Json.Value) (e : Bytes × JsonValue) : Prop where
  /-- The key is the encoding of the name. -/
  key : e.1 = Utf8.encode m.1
  /-- The value is the parser's. -/
  value : JsonValue.Decodes m.2 e.2

/-- The parser's object for the members of an object. -/
def JsonObject.Decodes (ms : List (List Char × Json.Value)) (object : JsonObject) : Prop :=
  List.Forall₂ JsonObject.DecodesMember ms object

namespace JsonObject

variable {ms : List (List Char × Json.Value)} {object : JsonObject}

/-! ### Lookup -/

/-- Where the keys are different, a member is found by its key. -/
theorem find_eq_some_iff {key : Bytes} {value : JsonValue}
    (hnodup : (object.map Prod.fst).Nodup) :
  object.find key = some value ↔ (key, value) ∈ object
  := KeyedTable.lookup_eq_some_iff_mem hnodup

/-- A key that is not there is not found. -/
theorem find_eq_none {key : Bytes} (h : key ∉ object.map Prod.fst) :
  object.find key = none
  := by
  rw [find, List.lookup_eq_none_iff]
  intro e he
  apply bne_iff_ne.mpr
  rintro rfl
  apply h (List.mem_map_of_mem he)

/-- A member is added where its key is not there. -/
theorem emplace_eq_some_iff {key : Bytes} {value : JsonValue} {object' : JsonObject} :
  object.emplace key value = some object'
    ↔ key ∉ object.map Prod.fst ∧ object' = object ++ [(key, value)]
  := by
  constructor
  · intro h
    rw [emplace] at h
    split at h
    · cases h
    · next hfind =>
      constructor
      · intro hmem
        apply hfind
        rw [find, List.lookup_isSome_iff]
        obtain ⟨e, he, rfl⟩ := List.mem_map.mp hmem
        use e, he
        apply beq_self_eq_true
      · apply (Option.some.inj h).symm
  · rintro ⟨hkey, rfl⟩
    rw [emplace, find_eq_none hkey]
    rfl

/-- Where the keys are different, the key of a member is not among those before it. -/
theorem not_mem_of_nodup_append {o : JsonObject} {e : Bytes × JsonValue}
    (h : ((object ++ e :: o).map Prod.fst).Nodup) :
  e.1 ∉ object.map Prod.fst
  := by
  rw [List.map_append, List.map_cons] at h
  intro hmem
  apply List.disjoint_of_nodup_append h hmem List.mem_cons_self

/-! ### Members -/

namespace Decodes

/-- The keys are the encodings of the names. -/
theorem keys (h : Decodes ms object) :
  object.map Prod.fst = (ms.map Prod.fst).map Utf8.encode
  := by
  induction h with
  | nil => rfl
  | cons hm _ ih => rw [List.map_cons, List.map_cons, List.map_cons, hm.key, ih]

/-- The keys are different where the names are. -/
theorem nodup (h : Decodes ms object) (hnodup : (ms.map Prod.fst).Nodup) :
  (object.map Prod.fst).Nodup
  := by
  rw [h.keys]
  apply hnodup.map Utf8.encode_injective

/-- A member of the object has its member in the parser's object. -/
theorem exists_of_mem (h : Decodes ms object) {name : List Char} {v : Json.Value}
    (hmem : (name, v) ∈ ms) :
  ∃ value, (Utf8.encode name, value) ∈ object ∧ JsonValue.Decodes v value
  := by
  induction h with
  | nil => cases hmem
  | @cons m e ms object hm _ ih =>
    rcases List.mem_cons.mp hmem with rfl | hmem
    · use e.2
      rw [← hm.key]
      exact ⟨List.mem_cons_self, hm.value⟩
    · obtain ⟨value, hvalue, hdec⟩ := ih hmem
      use value, List.mem_cons_of_mem _ hvalue

/-- A member of the parser's object has its member in the object. -/
theorem exists_of_mem' (h : Decodes ms object) {name : List Char} {value : JsonValue}
    (hmem : (Utf8.encode name, value) ∈ object) :
  ∃ v, (name, v) ∈ ms ∧ JsonValue.Decodes v value
  := by
  induction h with
  | nil => cases hmem
  | @cons m e ms object hm _ ih =>
    rcases List.mem_cons.mp hmem with heq | hmem
    · obtain ⟨hkey, hvalue⟩ := Prod.ext_iff.mp heq
      have hname : name = m.1 := Utf8.encode_injective (hkey.trans hm.key)
      subst hname
      use m.2, List.mem_cons_self
      rw [show value = e.2 from hvalue]
      apply hm.value
    · obtain ⟨v, hv, hdec⟩ := ih hmem
      use v, List.mem_cons_of_mem _ hv

end Decodes

end JsonObject

/-- What an iteration of the loop of `parseObject` results in after a comma or a brace. -/
inductive MemberEnd (object : JsonObject) : UInt8 → JsonObject ⊕ JsonObject → Prop where
  | comma : MemberEnd object 0x2C (.inl object)
  | brace : MemberEnd object 0x7D (.inr object)

/-- A member with a new known key, white space before its parts and after it, and the comma or
the brace after it. -/
inductive MemberForm (object : JsonObject) : JsonObject ⊕ JsonObject → Bytes → Prop where
  | mk {m : List Char × Json.Value} {e : Bytes × JsonValue} {w k w₁ w₂ b w₃ : Bytes} {ch : UInt8}
      {r : JsonObject ⊕ JsonObject} :
      JsonObject.DecodesMember m e → m.1 ∈ ServerConfig.jsonNames → e.1 ∉ object.map Prod.fst →
      Json.Ws w → Json.StringLit k m.1 → Json.Ws w₁ → Json.Ws w₂ → Json.Derives b m.2 →
      Json.Ws w₃ → MemberEnd (object ++ [e]) ch r →
      MemberForm object r ((w ++ k) ++ ((w₁ ++ [0x3A]) ++ ((w₂ ++ b) ++ (w₃ ++ [ch]))))

namespace ConfigJsonParser

open ServerConfig

/-! ### Fields -/

/-- The known fields are the names of the fields. -/
theorem isKnownField_iff {name : List Char} :
  isKnownField (Utf8.encode name) = true ↔ name ∈ jsonNames
  := by
  have hnames : [ascii "server_application_name", ascii "server_product_uri",
      ascii "server_bind_address", ascii "server_port", ascii "server_endpoint_path",
      ascii "security_mode", ascii "security_policy", ascii "max_sessions",
      ascii "max_subscriptions", ascii "logging_level", ascii "logging_target",
      ascii "address_space_mode", ascii "address_space_path"] = jsonNames.map Utf8.encode := by
    decide
  rw [isKnownField, hnames, List.contains_iff_mem, List.mem_map_of_injective Utf8.encode_injective]

theorem readString_eq_ok_iff {object : JsonObject} {field value : Bytes} :
  readString object field = .ok value ↔ object.find field = some (.string value)
  := by
  rw [readString]
  split
  · next h => simp [h]
  · next h => simp [h]
  · next h => simp [h]

theorem readInteger_eq_ok_iff {object : JsonObject} {field : Bytes} {value : Int32} :
  readInteger object field = .ok value ↔ object.find field = some (.integer value)
  := by
  rw [readInteger]
  split
  · next h => simp [h]
  · next h => simp [h]
  · next h => simp [h]

/-- `buildConfig` gives the configuration whose fields are the members of the object. -/
theorem buildConfig_eq_ok_iff {object : JsonObject} {config : ServerConfig} :
  buildConfig object = .ok config ↔ object.length = kConfigFieldCount ∧
    (∀ f : TextField, readString object (ascii f.jsonName) = .ok (config.text f)) ∧
    ∀ f : IntField, readInteger object (ascii f.jsonName) = .ok (config.int f)
  := by
  have hread : buildConfig object = if object.length ≠ kConfigFieldCount
      then .error (ascii "configuration object is incomplete")
      else readFields (fun f => readString object (ascii f.jsonName))
        fun f => readInteger object (ascii f.jsonName) := rfl
  rw [hread]
  split
  · next hlength =>
    constructor
    · rintro ⟨⟩
    · rintro ⟨hlength', -⟩
      cases hlength hlength'
  · next hlength =>
    rw [readFields_eq_ok_iff]
    constructor
    · intro hfields
      exact ⟨not_not.mp hlength, hfields⟩
    · rintro ⟨-, hfields⟩
      apply hfields

/-- `buildConfig` gives exactly the configuration that the members denote. -/
theorem buildConfig_eq_ok_iff_denotes {ms : List (List Char × Json.Value)} {object : JsonObject}
    {config : ServerConfig} (h : JsonObject.Decodes ms object)
    (hknown : ∀ m ∈ ms, m.1 ∈ jsonNames) (hnodup : (ms.map Prod.fst).Nodup) :
  buildConfig object = .ok config ↔ Denotes ms config
  := by
  have hobject := h.nodup hnodup
  rw [buildConfig_eq_ok_iff]
  simp only [readString_eq_ok_iff, readInteger_eq_ok_iff, JsonObject.find_eq_some_iff hobject,
    ← TextField.encode_jsonName, ← IntField.encode_jsonName]
  constructor
  · rintro ⟨hlength, htext, hint⟩
    constructor
    · apply List.Subperm.perm_of_length_le
      · apply hnodup.subperm
        intro name hname
        obtain ⟨m, hm, rfl⟩ := List.mem_map.mp hname
        apply hknown m hm
      · rw [List.length_map, h.length_eq, hlength]
        rfl
    · intro f
      obtain ⟨v, hmem, hdec⟩ := h.exists_of_mem' (htext f)
      generalize hvalue : JsonValue.string (config.text f) = value at hdec
      cases hdec with
      | @string cs hnul =>
        use cs, hmem, hnul
        apply JsonValue.string.inj hvalue
      | integer hn hint => cases hvalue
    · intro f
      obtain ⟨v, hmem, hdec⟩ := h.exists_of_mem' (hint f)
      generalize hvalue : JsonValue.integer (config.int f) = value at hdec
      cases hdec with
      | string hnul => cases hvalue
      | @integer n value hn hint =>
        use n, hmem, hn
        rw [JsonValue.integer.inj hvalue, hint]
  · intro hdenotes
    constructor
    · rw [← h.length_eq, ← List.length_map Prod.fst, hdenotes.names.length_eq]
      rfl
    · constructor
      · intro f
        obtain ⟨cs, hmem, hnul, htext⟩ := hdenotes.text f
        obtain ⟨value, hvalue, hdec⟩ := h.exists_of_mem hmem
        cases hdec
        rw [htext]
        apply hvalue
      · intro f
        obtain ⟨n, hmem, hn, hint⟩ := hdenotes.int f
        obtain ⟨value, hvalue, hdec⟩ := h.exists_of_mem hmem
        cases hdec with
        | integer hn' hint' =>
          rw [Int32.toInt_inj.mp (hint.trans hint'.symm)]
          apply hvalue

/-- The members that denote a configuration have values that the parser has. -/
theorem exists_decodes_of_denotes {ms : List (List Char × Json.Value)} {config : ServerConfig}
    (h : Denotes ms config) :
  ∃ object, JsonObject.Decodes ms object
  := by
  have hnodup : (ms.map Prod.fst).Nodup := h.names.nodup_iff.mpr nodup_jsonNames
  have hvalue : ∀ m ∈ ms, ∃ value, JsonValue.Decodes m.2 value := by
    rintro ⟨name, v⟩ hmem
    have hname : name ∈ jsonNames := h.names.mem_iff.mp (List.mem_map_of_mem (f := Prod.fst) hmem)
    rcases exists_field_of_mem hname with ⟨f, rfl⟩ | ⟨f, rfl⟩
    · obtain ⟨cs, hmem', hnul, -⟩ := h.text f
      have hv := List.inj_on_of_nodup_map hnodup hmem hmem' rfl
      cases hv
      exact ⟨_, .string hnul⟩
    · obtain ⟨n, hmem', hn, hint⟩ := h.int f
      have hv := List.inj_on_of_nodup_map hnodup hmem hmem' rfl
      cases hv
      exact ⟨_, .integer hn hint⟩
  clear h hnodup
  induction ms with
  | nil => exact ⟨[], .nil⟩
  | cons m ms ih =>
    obtain ⟨value, hm⟩ := hvalue m List.mem_cons_self
    obtain ⟨object, hobject⟩ := ih fun m hmem => hvalue m (List.mem_cons_of_mem _ hmem)
    exact ⟨(Utf8.encode m.1, value) :: object, .cons ⟨rfl, hm⟩ hobject⟩

end ConfigJsonParser

end OpcuaServer
