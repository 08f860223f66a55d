import OpcuaServer.Config.RepositoryRuns

/-!
# Save and then load

What `load` reads from the rows of a table (`runs_load_iff`), and when it reads what was saved
(`saveLoad_iff`).
-/

namespace OpcuaServer

open ServerConfig ConfigRepository

namespace Repository

open Database

variable {Conn : Type} [DecidableEq Conn] {assume : Assumptions} {conn : Conn}
  {db db' : Database Conn}

/-! ### Loading -/

/-- The rows as the map that `load` reads them into. -/
def valuesOf (rows : List (Bytes × Bytes)) (values : ConfigValues) : ConfigValues :=
  rows.foldl (fun values row => emplace values (cString row.1) (cString row.2)) values

/-- The rows of a table without null pointers are read. -/
theorem collect_eq (rows : List (Bytes × Bytes)) (values : ConfigValues) :
  collect (rows.map Row.ofTexts) values = .ok (valuesOf rows values)
  := by
  induction rows generalizing values with
  | nil => rfl
  | cons row rows ih =>
    rw [List.map_cons, collect]
    apply ih

/-- Rows that are read have no null pointers. -/
theorem not_null_of_collect {rows : List Row} {values values' : ConfigValues}
    (h : collect rows values = .ok values') :
  ∀ row ∈ rows, ¬ (row.key = none ∨ row.value = none)
  := by
  induction rows generalizing values with
  | nil => rintro _ ⟨⟩
  | cons row rows ih =>
    rw [collect] at h
    split at h
    · next key value hkey hvalue =>
      intro row' hrow'
      rcases List.mem_cons.mp hrow' with rfl | hrow'
      · simp [hkey, hvalue]
      · apply ih h row' hrow'
    · cases h

theorem lookup_emplace (values : ConfigValues) (key value key' : Bytes) :
  (emplace values key value).lookup key'
    = (values.lookup key').or (if key' = key then some value else none)
  := by
  rw [emplace]
  split
  · next hsome =>
    split
    · next heq =>
      obtain ⟨value', hvalue⟩ := Option.isSome_iff_exists.mp hsome
      rw [heq, hvalue]
      rfl
    · rw [Option.or_none]
  · rw [List.lookup_append]
    congr 1
    by_cases heq : key' = key
    · simp [heq]
    · simp [heq, List.lookup_cons, beq_eq_false_iff_ne.mpr heq]

/-- Of the rows that are read with a key the first one is kept. -/
theorem lookup_valuesOf (rows : List (Bytes × Bytes)) (values : ConfigValues) (key : Bytes) :
  (valuesOf rows values).lookup key = (values.lookup key).or
    ((rows.find? fun row => cString row.1 = key).map fun row => cString row.2)
  := by
  induction rows generalizing values with
  | nil => exact Option.or_none.symm
  | cons row rows ih =>
    have hfold : valuesOf (row :: rows) values
        = valuesOf rows (emplace values (cString row.1) (cString row.2)) := rfl
    rw [hfold, ih, lookup_emplace, Option.or_assoc]
    congr 1
    by_cases hkey : cString row.1 = key
    · simp [hkey]
    · simp [hkey, Ne.symm hkey]

/-- The configuration read from the rows of a table in this order. -/
def configOfRows (rows : List (Bytes × Bytes)) : Result ServerConfig :=
  configFrom (valuesOf rows [])

/-- A `load` that succeeds at every call reads the rows in some order. -/
theorem runs_load_iff {table : Table} {result : Result ServerConfig} :
  load.Runs (Succeeds assume conn) { committed := some table, transaction := none } result db'
    ↔ db' = { committed := some table, transaction := none } ∧
      ∃ rows : List (Bytes × Bytes), rows.Perm table.rows ∧ result = configOfRows rows
  := by
  have hseen : (if assume.selectsCommitted then some table else some table) = some table :=
    ite_self _
  constructor
  · intro h
    obtain ⟨status, db₁, hprepare, h⟩ := Prog.runs_call.mp h
    obtain ⟨rfl, -, rfl⟩ := succeeds_prepare hprepare
    obtain ⟨⟨rows, status⟩, db₂, hstep, h⟩ := Prog.runs_call.mp h
    obtain ⟨rfl, rfl, table', texts, htable, hperm, rfl⟩ := succeeds_stepRows.mp hstep
    obtain rfl := Option.some.inj (hseen.symm.trans htable)
    change Prog.Runs _ (finishLoad (texts.map Row.ofTexts) (.ok ())) _ _ _ at h
    rw [finishLoad, collect_eq] at h
    obtain ⟨rfl, rfl⟩ := Prog.runs_ret.mp h
    exact ⟨rfl, texts, hperm, rfl⟩
  · rintro ⟨rfl, rows, hperm, rfl⟩
    apply Prog.Runs.call (.answer rfl)
    apply Prog.Runs.call (succeeds_stepRows.mpr ⟨rfl, rfl, table, rows, hseen, hperm, rfl⟩)
    change Prog.Runs _ (finishLoad (rows.map Row.ofTexts) (.ok ())) _ _ _
    rw [finishLoad, collect_eq]
    exact .ret

/-- The rows give a configuration where the first row with each key reads as its field. -/
theorem configOfRows_eq_ok_iff {rows : List (Bytes × Bytes)} {config : ServerConfig} :
  configOfRows rows = .ok config ↔ config.validate = .ok () ∧
    ∀ f : Field, ∃ row, (rows.find? fun row => cString row.1 = f.key) = some row ∧
      f.Reads config (cString row.2)
  := by
  simp only [configOfRows, configFrom, Result.bind_eq_ok_iff, populateConfig_eq_ok_iff,
    lookup_valuesOf, List.lookup_nil, Option.none_or, Option.map_eq_some_iff]
  constructor
  · rintro ⟨config', hfields, ⟨⟩, hvalid, heq⟩
    obtain rfl := Except.ok.inj heq
    use hvalid
    intro f
    obtain ⟨_, ⟨row, hrow, rfl⟩, hreads⟩ := hfields f
    exact ⟨row, hrow, hreads⟩
  · rintro ⟨hvalid, hfields⟩
    refine ⟨config, ?_, (), hvalid, rfl⟩
    intro f
    obtain ⟨row, hrow, hreads⟩ := hfields f
    exact ⟨_, ⟨row, hrow, rfl⟩, hreads⟩

/-- The rows give a configuration in any order where every field has a row, and every row with the
key of a field reads as the field. -/
theorem forall_configOfRows_eq_ok_iff {table : Table} {config : ServerConfig} :
  (∀ rows : List (Bytes × Bytes), rows.Perm table.rows → configOfRows rows = .ok config)
    ↔ config.validate = .ok () ∧ ∀ f : Field,
      (∃ row ∈ table.rows, cString row.1 = f.key) ∧
      ∀ row ∈ table.rows, cString row.1 = f.key → f.Reads config (cString row.2)
  := by
  simp only [configOfRows_eq_ok_iff]
  constructor
  · intro h
    use (h table.rows (.refl _)).1
    intro f
    constructor
    · obtain ⟨row, hrow, -⟩ := (h table.rows (.refl _)).2 f
      exact ⟨row, List.mem_of_find?_eq_some hrow, by simpa using List.find?_some hrow⟩
    · intro row hmem hkey
      obtain ⟨row', hrow', hreads⟩ := (h _ (List.perm_cons_erase hmem).symm).2 f
      obtain rfl := Option.some.inj ((List.find?_cons_of_pos (by simpa using hkey)).symm.trans hrow')
      exact hreads
  · rintro ⟨hvalid, hfields⟩ rows hperm
    use hvalid
    intro f
    obtain ⟨⟨row, hmem, hkey⟩, hreads⟩ := hfields f
    have hfound : (rows.find? fun row => cString row.1 = f.key).isSome := by
      rw [List.find?_isSome]
      exact ⟨row, hperm.mem_iff.mpr hmem, decide_eq_true hkey⟩
    obtain ⟨row', hrow'⟩ := Option.isSome_iff_exists.mp hfound
    use row', hrow'
    apply hreads row' (hperm.mem_iff.mp (List.mem_of_find?_eq_some hrow'))
    simpa using List.find?_some hrow'

/-- A `load` that succeeds at every call gives the configuration, and there is one. -/
def Loads (assume : Assumptions) (conn : Conn) (config : ServerConfig) (db : Database Conn) :
    Prop :=
  (∃ result db', load.Runs (Succeeds assume conn) db result db') ∧
    ∀ result db', load.Runs (Succeeds assume conn) db result db' → result = .ok config

theorem loads_iff {table : Table} {config : ServerConfig} :
  Loads assume conn config { committed := some table, transaction := none }
    ↔ config.validate = .ok () ∧ ∀ f : Field,
      (∃ row ∈ table.rows, cString row.1 = f.key) ∧
      ∀ row ∈ table.rows, cString row.1 = f.key → f.Reads config (cString row.2)
  := by
  rw [← forall_configOfRows_eq_ok_iff]
  simp only [Loads, runs_load_iff]
  constructor
  · rintro ⟨-, h⟩ rows hperm
    exact h _ _ ⟨rfl, rows, hperm, rfl⟩
  · intro h
    constructor
    · exact ⟨_, _, rfl, table.rows, .refl _, rfl⟩
    · rintro _ _ ⟨-, rows, hperm, rfl⟩
      exact h rows hperm

/-! ### Saving and then loading -/

/-- What was saved to a table with these rows is loaded again. -/
def SaveLoad (assume : Assumptions) (conn : Conn) (table : Table) (config : ServerConfig) : Prop :=
  ∀ db, (save config).Runs (Calls assume conn) { committed := some table, transaction := none }
    (.ok ()) db → Loads assume conn config db

/-- The rows of a table after a configuration has been written. -/
theorem mem_rows_upsertAll {table : Table} {config : ServerConfig} {row : Bytes × Bytes} :
  row ∈ (table.upsertAll (boundEntries config)).rows
    ↔ (∃ f : Field, (f.key, cString (config.entryValue f)) = row) ∨
      row ∈ table.rows ∧ ∀ f : Field, row.1 ≠ f.key
  := by
  have hnodup : ((boundEntries config).map Prod.fst).Nodup := by
    rw [keys_boundEntries]
    apply nodup_keys
  have hkeys : row.1 ∉ fields.map Field.key ↔ ∀ f : Field, row.1 ≠ f.key := by
    simp [mem_fields, eq_comm]
  rw [KeyedTable.mem_rows_upsertAll hnodup, keys_boundEntries, hkeys, boundEntries_eq]
  simp [mem_fields]

theorem key_mem_keys_upsertAll (table : Table) (config : ServerConfig) (f : Field) :
  f.key ∈ (table.upsertAll (boundEntries config)).keys
  := by
  have hrow : (f.key, cString (config.entryValue f)) ∈
      (table.upsertAll (boundEntries config)).rows := mem_rows_upsertAll.mpr (.inl ⟨f, rfl⟩)
  exact List.mem_map.mpr ⟨_, hrow, rfl⟩

/-- What was written for a field is read as its value where it has no NUL. -/
theorem reads_cString_iff {config : ServerConfig} :
  (∀ f : Field, f.Reads config (cString (cString (config.entryValue f))))
    ↔ ∀ f : TextField, NulFree (config.text f)
  := by
  constructor
  · intro h f
    have htext : cString (cString (config.text f)) = config.text f := h (.inl f)
    rw [← htext]
    apply nulFree_cString
  · intro hnul f
    rw [cString_entryValue hnul, cString_entryValue hnul]
    apply reads_entryValue

/-- A valid configuration is loaded from a table it was written to, exactly where its texts are
free of NUL and the rows whose keys are only read as that of a field hold the value of that
field. -/
theorem loads_upsertAll_iff {table : Table} {config : ServerConfig}
    (hvalid : config.validate = .ok ()) :
  Loads assume conn config
      { committed := some (table.upsertAll (boundEntries config)), transaction := none }
    ↔ (∀ f : TextField, NulFree (config.text f)) ∧
      ∀ row ∈ table.rows, ∀ f : Field, row.1 ≠ f.key → cString row.1 = f.key →
        f.Reads config (cString row.2)
  := by
  rw [loads_iff, ← reads_cString_iff, and_iff_right hvalid]
  constructor
  · intro h
    constructor
    · intro f
      apply (h f).2 _ (mem_rows_upsertAll.mpr (.inl ⟨f, rfl⟩)) (cString_key f)
    · intro row hrow f hne hkey
      apply (h f).2 row (mem_rows_upsertAll.mpr (.inr ⟨hrow, _⟩)) hkey
      intro g hg
      rw [hg, cString_key] at hkey
      obtain rfl := key_injective hkey
      apply hne hg
  · rintro ⟨hentries, hrows⟩ f
    constructor
    · exact ⟨_, mem_rows_upsertAll.mpr (.inl ⟨f, rfl⟩), cString_key f⟩
    · intro row hmem hkey
      rcases mem_rows_upsertAll.mp hmem with ⟨g, rfl⟩ | ⟨hrow, hne⟩
      · rw [cString_key] at hkey
        obtain rfl := key_injective hkey
        apply hentries g
      · apply hrows row hrow f (hne f) hkey

/-- A saved configuration is loaded again exactly where its texts are free of NUL, and the rows
whose keys are only read as that of a field hold the value of that field. -/
theorem saveLoad_iff (assume : Assumptions) (conn : Conn) (table : Table) (config : ServerConfig) :
  SaveLoad assume conn table config ↔ (config.validate = .ok () →
    (∀ f : TextField, NulFree (config.text f)) ∧
    ∀ row ∈ table.rows, ∀ f : Field, row.1 ≠ f.key → cString row.1 = f.key →
      f.Reads config (cString row.2))
  := by
  constructor
  · intro h hvalid
    have hloads := h _ (runs_of_succeeds (runs_save hvalid table))
    exact (loads_upsertAll_iff hvalid).mp hloads
  · intro h db hrun
    have hsaved : Saved True assume conn (some table) config (.ok ()) db :=
      Ends.of_calls (ends_save config) hrun
    obtain ⟨hvalid, -, rfl⟩ := hsaved
    exact (loads_upsertAll_iff hvalid).mpr (h hvalid)

/-- The default configuration with the application name `"A\0B"`. -/
def nulName : ServerConfig :=
  { ServerConfig.default with serverApplicationName := [0x41, 0x00, 0x42] }

/-- A configuration with a NUL in its application name can be saved, and is not loaded again. -/
theorem not_saveLoad_nulName :
  ¬ SaveLoad ⟨true, false⟩ () .empty nulName
  := by
  intro h
  have hvalid : nulName.validate = .ok () := by decide
  have hloads := h _ (runs_of_succeeds (runs_save hvalid .empty))
  have hnul := ((loads_upsertAll_iff hvalid).mp hloads).1 .serverApplicationName
  revert hnul
  decide

end Repository

end OpcuaServer
