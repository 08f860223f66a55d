import OpcuaServer.Config.ConfigRepository

/-!
# The entries of a configuration

The entries that are written are those of the fields (`configEntriesFrom_eq`). A text read for a
field is what `Field.Reads` says, and `populateConfig` gives the configuration whose fields the
texts read as (`populateConfig_eq_ok_iff`).
-/

namespace OpcuaServer

open ServerConfig ConfigRepository

namespace ServerConfig

/-- The key of a text field. -/
def TextField.key : TextField → Bytes
  | .serverApplicationName => ascii "server.application_name"
  | .serverProductUri => ascii "server.product_uri"
  | .serverBindAddress => ascii "server.bind_address"
  | .serverEndpointPath => ascii "server.endpoint_path"
  | .securityMode => ascii "security.mode"
  | .securityPolicy => ascii "security.policy"
  | .loggingLevel => ascii "logging.level"
  | .loggingTarget => ascii "logging.target"
  | .addressSpaceMode => ascii "address_space.mode"
  | .addressSpacePath => ascii "address_space.path"

/-- The key of an integer field. -/
def IntField.key : IntField → Bytes
  | .serverPort => ascii "server.port"
  | .maxSessions => ascii "limits.max_sessions"
  | .maxSubscriptions => ascii "limits.max_subscriptions"

/-- The key of a field. -/
def Field.key : Field → Bytes
  | .inl f => f.key
  | .inr f => f.key

/-- The text that is written for a field. -/
def entryValue (config : ServerConfig) : Field → Bytes
  | .inl f => config.text f
  | .inr f => stdToString (config.int f)

/-- The texts that are read as the value of a field. -/
def Field.Reads (config : ServerConfig) : Field → Bytes → Prop
  | .inl f, text => text = config.text f
  | .inr f, text => stdFromChars text = some (config.int f, [])

/-- What is written for a field is read as its value. -/
theorem reads_entryValue (config : ServerConfig) (f : Field) :
  f.Reads config (config.entryValue f)
  := by
  cases f with
  | inl f => rfl
  | inr f => apply stdFromChars_stdToString

/-- The keys are different. -/
theorem nodup_keys :
  (fields.map Field.key).Nodup
  := by decide +kernel

theorem key_injective :
  Function.Injective Field.key
  := by
  intro f g h
  apply List.inj_on_of_nodup_map nodup_keys (mem_fields f) (mem_fields g) h

/-- The keys have no NUL. -/
theorem cString_key (f : Field) :
  cString f.key = f.key
  := by
  have hkeys : ∀ g ∈ fields, cString g.key = g.key := by decide +kernel
  apply hkeys f (mem_fields f)

end ServerConfig

/-- The entries are those of the fields. -/
theorem configEntriesFrom_eq (config : ServerConfig) :
  configEntriesFrom config = fields.map fun f => (f.key, config.entryValue f)
  := rfl

/-! ### Texts without NUL -/

/-- A text without NUL is read as it is. -/
theorem cString_of_nulFree {text : Bytes} (h : NulFree text) :
  cString text = text
  := by
  apply List.takeWhile_eq_self_iff.mpr
  intro b hb
  apply decide_eq_true
  rintro rfl
  apply h hb

/-- What is read has no NUL. -/
theorem nulFree_cString (text : Bytes) :
  NulFree (cString text)
  := by
  intro h
  have := List.mem_takeWhile_imp h
  simp at this

/-- A printed number has no NUL. -/
theorem nulFree_stdToString (n : Int32) :
  NulFree (stdToString n)
  := by
  have hnumeral : (0 : UInt8) ∉ Decimal.numeral n.toInt.natAbs := by
    intro h
    have := Decimal.isDigit_of_mem_numeral 0 h
    revert this
    decide
  rw [NulFree, stdToString, Decimal.integer]
  split
  · rw [List.mem_cons, not_or]
    exact ⟨by decide, hnumeral⟩
  · apply hnumeral

/-- What is bound for a field is what is written for it, where the text fields have no NUL. -/
theorem cString_entryValue {config : ServerConfig} (hnul : ∀ f, NulFree (config.text f))
    (f : Field) :
  cString (config.entryValue f) = config.entryValue f
  := by
  cases f with
  | inl f => apply cString_of_nulFree (hnul f)
  | inr f => apply cString_of_nulFree (nulFree_stdToString _)

/-- What is bound for the entries. -/
def boundEntries (config : ServerConfig) : List ConfigEntry :=
  (configEntriesFrom config).map fun entry => (cString entry.1, cString entry.2)

theorem boundEntries_eq (config : ServerConfig) :
  boundEntries config = fields.map fun f => (f.key, cString (config.entryValue f))
  := by
  rw [boundEntries, configEntriesFrom_eq, List.map_map]
  apply List.map_congr_left
  intro f _
  exact Prod.ext (cString_key f) rfl

theorem keys_boundEntries (config : ServerConfig) :
  (boundEntries config).map Prod.fst = fields.map Field.key
  := by
  rw [boundEntries_eq, List.map_map]
  rfl

/-- A table whose rows are entries of configurations, as they are bound. -/
def Written (table : Table) : Prop :=
  ∀ row ∈ table.rows, ∃ config, row ∈ boundEntries config

/-- The rows of a written table whose keys are read as that of a field have the key of the
field. -/
theorem Written.key_eq {table : Table} (h : Written table) {row : Bytes × Bytes}
    (hrow : row ∈ table.rows) {f : Field} (hkey : cString row.1 = f.key) :
  row.1 = f.key
  := by
  obtain ⟨config, hentry⟩ := h row hrow
  rw [boundEntries_eq] at hentry
  obtain ⟨g, -, rfl⟩ := List.mem_map.mp hentry
  rw [cString_key] at hkey
  exact hkey

/-! ### Reading -/

theorem stringValue_eq_ok_iff {values : ConfigValues} {key text : Bytes} :
  stringValue values key = .ok text ↔ values.lookup key = some text
  := by
  rw [stringValue]
  split
  · next h => simp [h]
  · next h => simp [h]

theorem parseIntValue_eq_ok_iff {values : ConfigValues} {key : Bytes} {n : Int32} :
  parseIntValue values key = .ok n
    ↔ ∃ text, values.lookup key = some text ∧ stdFromChars text = some (n, [])
  := by
  rw [parseIntValue]
  split
  · next h => simp [h]
  · next text h =>
    rw [h]
    split
    · next hempty =>
      subst hempty
      constructor
      · rintro ⟨⟩
      · rintro ⟨_, ⟨⟩, hn⟩
        cases hn
    · split
      · next value hvalue =>
        constructor
        · rintro ⟨⟩
          exact ⟨text, rfl, hvalue⟩
        · rintro ⟨_, ⟨⟩, hn⟩
          rw [hvalue] at hn
          cases hn
          rfl
      · next hnone =>
        constructor
        · rintro ⟨⟩
        · rintro ⟨_, ⟨⟩, hn⟩
          cases hnone n hn

/-- The rows give the configuration whose fields their values are read as. -/
theorem populateConfig_eq_ok_iff {values : ConfigValues} {config : ServerConfig} :
  populateConfig values = .ok config
    ↔ ∀ f : Field, ∃ text, values.lookup f.key = some text ∧ f.Reads config text
  := by
  have hread : populateConfig values = readFields (fun f => stringValue values f.key)
      fun f => parseIntValue values f.key := rfl
  rw [hread, readFields_eq_ok_iff]
  simp only [stringValue_eq_ok_iff, parseIntValue_eq_ok_iff]
  constructor
  · rintro ⟨htext, hint⟩ (f | f)
    · exact ⟨_, htext f, rfl⟩
    · apply hint f
  · intro h
    constructor
    · intro f
      obtain ⟨text, hlookup, rfl⟩ := h (.inl f)
      apply hlookup
    · intro f
      apply h (.inr f)

end OpcuaServer
