import OpcuaServer.Config.SaveLoad
import OpcuaServer.Supervisor.ApiHandlers

/-!
# Configuration requests

A PUT request that answers 200 is read back by the next load and the next GET request, whose body
can be put again (`put_get_put`). A PUT request that answers anything else leaves everything as it
was (`put_failed`).
-/

namespace OpcuaServer

open ServerConfig ConfigRepository Repository Database ApiServer

variable {Conn : Type} [DecidableEq Conn] {assume : Assumptions} {conn : Conn}

/-! ### After a successful request -/

/-- The databases that come from one another without saving: other connections are initialized, and
configurations are loaded. -/
inductive WithoutSave (assume : Assumptions) : Database Conn → Database Conn → Prop where
  | refl {db : Database Conn} : WithoutSave assume db db
  | initialized {conn : Conn} {db db₁ db₂ : Database Conn} {status : Status} :
      WithoutSave assume db db₁ →
      initializeRepository.Runs (Calls assume conn) db₁ status db₂ → WithoutSave assume db db₂
  | loaded {conn : Conn} {db db₁ db₂ : Database Conn} {result : Result ServerConfig} :
      WithoutSave assume db db₁ → load.Runs (Calls assume conn) db₁ result db₂ →
      WithoutSave assume db db₂

/-- Where all keys are there, the rows stay as they are while nothing is saved. -/
theorem WithoutSave.eq {table : Table} (hkeys : ∀ f : Field, f.key ∈ table.keys)
    {db db' : Database Conn} (hdb : db = { committed := some table, transaction := none })
    (h : WithoutSave assume db db') :
  db' = db
  := by
  have hinsert : ∀ entry ∈ boundEntries ServerConfig.default, ∀ table', table' = table →
      table'.insertIfAbsent entry.1 entry.2 = table := by
    rintro entry hentry _ rfl
    apply KeyedTable.insertIfAbsent_of_mem
    rw [boundEntries_eq] at hentry
    obtain ⟨f, -, rfl⟩ := List.mem_map.mp hentry
    apply hkeys f
  induction h with
  | refl => rfl
  | @initialized conn _ db₁ db₂ _ _ hrun ih =>
    obtain rfl := ih hdb
    subst hdb
    obtain ⟨hclosed, htable, hsome⟩ := Ends.of_calls (ends_initializeRepository hinsert rfl) hrun
    obtain ⟨table', htable'⟩ := Option.isSome_iff_exists.mp (hsome (.inl rfl))
    obtain rfl := htable table' htable'
    obtain ⟨committed, transaction⟩ := db₂
    exact congrArg₂ Database.mk htable' hclosed
  | loaded _ hrun ih =>
    obtain rfl := ih hdb
    subst hdb
    have hload := Ends.of_calls ends_load hrun
    exact hload

/-- A PUT request to a table left by the program that answers 200 has a configuration. The next
load, whatever happens before it but saving, gives this configuration, and a GET request answers
with a body that is no longer than the request and has the same configuration. -/
theorem put_get_put {table : Table} (htable : Written table) {body : Bytes} {response : Response}
    {db : Database Conn}
    (hrun : (handlePutConfig body).Runs (Calls assume conn)
      { committed := some table, transaction := none } response db)
    (hok : response.status = 200) :
  ∃ config, ConfigJsonParser.run body = .ok config ∧ config.validate = .ok () ∧
    (∀ db', WithoutSave assume db db' → ∀ conn', Loads assume conn' config db' ∧
      ∀ response' db'', handleGetConfig.Runs (Succeeds assume conn') db' response' db'' →
        response' = ⟨200, configToJson config⟩) ∧
    (configToJson config).length ≤ body.length ∧ body.length ≤ kMaxConfigJsonBytes ∧
    ConfigJsonParser.run (configToJson config) = .ok config
  := by
  by_cases hput : ∃ config, ConfigJsonParser.run body = .ok config ∧ config.validate = .ok ()
  · obtain ⟨config, hparse, hvalid⟩ := hput
    obtain ⟨status, hsave, rfl⟩ := (runs_handlePutConfig_valid hparse hvalid).mp hrun
    have hsaved := Ends.of_calls (ends_save config) hsave
    rcases status with message | _
    · cases hok
    obtain ⟨-, -, rfl⟩ := hsaved
    have hloads : ∀ conn' : Conn, Loads assume conn' config
        { committed := some (table.upsertAll (boundEntries config)), transaction := none } := by
      intro conn'
      apply (loads_upsertAll_iff hvalid).mpr
      constructor
      · intro f
        apply (isUtf8_nulFree_of_run hparse f).2
      · intro row hrow f hne hkey
        cases hne (htable.key_eq hrow hkey)
    have hkeys := key_mem_keys_upsertAll table config
    have hsize := length_configToJson_le hparse
    have hlength := (ConfigJsonParser.text_of_run hparse).1
    refine ⟨config, hparse, hvalid, ?_, hsize, hlength, ?_⟩
    · intro db' hdb' conn'
      obtain rfl := hdb'.eq hkeys rfl
      use hloads conn'
      intro response' db'' hget
      obtain ⟨result, hload, rfl⟩ := runs_handleGetConfig.mp hget
      obtain rfl := (hloads conn').2 result db'' hload
      rfl
    · obtain ⟨ms, htext, hdenotes⟩ := exists_text_configToJson
        (fun f => (isUtf8_nulFree_of_run hparse f).1) fun f => (isUtf8_nulFree_of_run hparse f).2
      apply ConfigJsonParser.run_of_text (hsize.trans hlength) htext hdenotes
  · obtain ⟨-, hstatus⟩ := runs_handlePutConfig_invalid
      (fun config hparse hvalid => hput ⟨config, hparse, hvalid⟩) hrun
    rw [hstatus] at hok
    cases hok

/-- The default configuration is put to an empty table and loaded again. -/
theorem put_get_put_default :
  ∃ response db, (handlePutConfig (configToJson ServerConfig.default)).Runs
      (Calls ⟨true, false⟩ ()) { committed := some .empty, transaction := none } response db ∧
    Loads ⟨true, false⟩ () ServerConfig.default db
  := by
  have hrun : (handlePutConfig (configToJson ServerConfig.default)).Runs (Calls ⟨true, false⟩ ()) _
      _ _ := (runs_handlePutConfig_valid run_configToJson_default validate_default).mpr
    ⟨.ok (), runs_of_succeeds (runs_save validate_default .empty), rfl⟩
  have hempty : Written .empty := by
    rintro row ⟨⟩
  obtain ⟨config, hparse, -, hloads, -⟩ := put_get_put hempty hrun rfl
  obtain rfl := Except.ok.inj (run_configToJson_default.symm.trans hparse)
  exact ⟨_, _, hrun, (hloads _ .refl ()).1⟩

/-! ### After a failed request -/

/-- The databases that a connection can leave that is initialized where no connection has a
transaction, and then serves requests, whatever fails. -/
inductive Served (assume : Assumptions) (conn : Conn) : Database Conn → Prop where
  | initialized {committed : Option Table} {db : Database Conn} :
      initializeRepository.Runs (Calls assume conn) { committed, transaction := none } (.ok ()) db →
      Served assume conn db
  | get {db db' : Database Conn} {response : Response} : Served assume conn db →
      handleGetConfig.Runs (Calls assume conn) db response db' → Served assume conn db'
  | put {db db' : Database Conn} {body : Bytes} {response : Response} : Served assume conn db →
      (handlePutConfig body).Runs (Calls assume conn) db response db' → Served assume conn db'

/-- A PUT request either saves a configuration, or it leaves the database as it was. -/
theorem put_cases (hends : assume.rollbackEnds) {committed : Option Table} {body : Bytes}
    {response : Response} {db : Database Conn}
    (hrun : (handlePutConfig body).Runs (Calls assume conn) { committed, transaction := none }
      response db) :
  response.status = 200 ∧ db.transaction = none ∧ db.committed.isSome ∨
    response.status ≠ 200 ∧ db = { committed, transaction := none }
  := by
  by_cases hput : ∃ config, ConfigJsonParser.run body = .ok config ∧ config.validate = .ok ()
  · obtain ⟨config, hparse, hvalid⟩ := hput
    obtain ⟨status, hsave, rfl⟩ := (runs_handlePutConfig_valid hparse hvalid).mp hrun
    have hsaved := Ends.of_calls (ends_save config) hsave
    rcases status with message | _
    · right
      obtain ⟨-, ⟨hcommitted, -⟩, hclosed⟩ := hsaved
      obtain ⟨committed', transaction⟩ := db
      exact ⟨by simp [setError, setJson], congrArg₂ Database.mk hcommitted (hclosed hends)⟩
    · left
      obtain ⟨-, hsome, rfl⟩ := hsaved
      exact ⟨rfl, rfl, by simpa using hsome⟩
  · right
    obtain ⟨hdb, hstatus⟩ := runs_handlePutConfig_invalid
      (fun config hparse hvalid => hput ⟨config, hparse, hvalid⟩) hrun
    exact ⟨by rw [hstatus]; decide, hdb⟩

/-- Between requests no connection has a transaction, and there is a table. -/
theorem Served.closed (hends : assume.rollbackEnds) {db : Database Conn}
    (h : Served assume conn db) :
  db.transaction = none ∧ db.committed.isSome
  := by
  induction h with
  | initialized hrun =>
    obtain ⟨hclosed, -, hsome⟩ := Ends.of_calls
      (ends_initializeRepository (P := fun _ => True) (fun _ _ _ _ => trivial) trivial) hrun
    exact ⟨hclosed, hsome (.inr rfl)⟩
  | @get db db' response _ hrun ih =>
    obtain ⟨committed, transaction⟩ := db
    obtain ⟨hclosed, hsome⟩ := ih
    obtain rfl : transaction = none := hclosed
    obtain ⟨result, hload, -⟩ := runs_handleGetConfig.mp hrun
    have hdb := Ends.of_calls ends_load hload
    rw [hdb]
    exact ⟨rfl, hsome⟩
  | @put db db' body response _ hrun ih =>
    obtain ⟨committed, transaction⟩ := db
    obtain ⟨hclosed, hsome⟩ := ih
    obtain rfl : transaction = none := hclosed
    rcases put_cases hends hrun with ⟨-, h⟩ | ⟨-, rfl⟩
    · apply h
    · exact ⟨rfl, hsome⟩

/-- Where no connection has a transaction and there is a table, a request with a valid
configuration is answered with 200 if no call fails. -/
theorem put_succeeds {table : Table} {body : Bytes} {config : ServerConfig}
    (hparse : ConfigJsonParser.run body = .ok config) (hvalid : config.validate = .ok ()) :
  (∃ response db, (handlePutConfig body).Runs (Succeeds assume conn)
      { committed := some table, transaction := none } response db) ∧
    ∀ response db, (handlePutConfig body).Runs (Succeeds assume conn)
      { committed := some table, transaction := none } response db → response.status = 200
  := by
  simp only [runs_handlePutConfig_valid hparse hvalid]
  constructor
  · exact ⟨_, _, .ok (), runs_save hvalid table, rfl⟩
  · rintro _ db ⟨status, hsave, rfl⟩
    have hsaved := Ends.of_succeeds (ends_save config) hsave
    rcases status with message | _
    · rcases hsaved.1 with hfalse | hinvalid
      · cases hfalse
      · cases hinvalid hvalid
    · rfl

/-- A PUT request that does not answer 200 leaves what every connection sees as it was, and no
transaction: the next GET request answers as it would have before, and the next PUT request with a
valid configuration succeeds if no call fails. -/
theorem put_failed (hends : assume.rollbackEnds) {db : Database Conn}
    (hserved : Served assume conn db) {body : Bytes} {response : Response} {db' : Database Conn}
    (hrun : (handlePutConfig body).Runs (Calls assume conn) db response db')
    (hfailed : response.status ≠ 200) :
  db'.committed = db.committed ∧ (∀ conn', db'.view conn' = db.view conn') ∧
    db'.transaction = none ∧
    (∀ response' db'', handleGetConfig.Runs (Calls assume conn) db' response' db''
      ↔ handleGetConfig.Runs (Calls assume conn) db response' db'') ∧
    ∀ body' config, ConfigJsonParser.run body' = .ok config → config.validate = .ok () →
      (∃ response' db'', (handlePutConfig body').Runs (Succeeds assume conn) db' response' db'') ∧
      ∀ response' db'', (handlePutConfig body').Runs (Succeeds assume conn) db' response' db'' →
        response'.status = 200
  := by
  obtain ⟨hclosed, hsome⟩ := hserved.closed hends
  obtain ⟨committed, transaction⟩ := db
  obtain rfl : transaction = none := hclosed
  obtain ⟨table, rfl⟩ := Option.isSome_iff_exists.mp hsome
  rcases put_cases hends hrun with ⟨hok, -⟩ | ⟨-, rfl⟩
  · cases hfailed hok
  · refine ⟨rfl, fun _ => rfl, rfl, fun _ _ => .rfl, ?_⟩
    intro body' config hparse hvalid
    apply put_succeeds hparse hvalid

/-- The configuration of a request is written and cannot be committed. -/
theorem put_failed_commit :
  ∃ (db db' : Database Unit) (response : Response), Served ⟨true, false⟩ () db ∧
    (handlePutConfig (configToJson otherPort)).Runs (Calls ⟨true, false⟩ ()) db response db' ∧
    response.status = 500 ∧ db'.committed = db.committed ∧ db'.transaction = none
  := by
  let table : Table := KeyedTable.empty.insertAll (boundEntries ServerConfig.default)
  have hserved : Served ⟨true, false⟩ () { committed := some table, transaction := none } :=
    @Served.initialized _ _ _ _ none _ (runs_of_succeeds runs_initializeRepository)
  have hrun : (handlePutConfig (configToJson otherPort)).Runs (Calls ⟨true, false⟩ ()) _ _ _ :=
    (runs_handlePutConfig_valid run_configToJson_otherPort validate_otherPort).mpr
      ⟨_, runs_save_rollback validate_otherPort table (ascii "database is locked"), rfl⟩
  obtain ⟨hcommitted, -, hclosed, -⟩ := put_failed rfl hserved hrun (by decide)
  exact ⟨_, _, _, hserved, hrun, rfl, hcommitted, hclosed⟩

end OpcuaServer
