import OpcuaServer.Config.ConfigEntries
import OpcuaServer.Config.SqliteRules

/-!
# Runs of the repository

What the programs of the repository leave in a database while no other connection runs.
`Repository.Ends` is their precondition for a way to end. Where no connection has a transaction,
`save` writes all entries or none, whatever fails (`ends_save`).
-/

namespace OpcuaServer

open ServerConfig ConfigRepository

namespace Repository

section

variable {W : Type} {step : (call : SqliteCall) → W → call.Answer → W → Prop}
  {rely : W → W → Prop} {guard : SqliteCall → W → Prop}

/-- A loop over entries has an invariant for the entries that are left, which binding a text keeps
and writing an entry carries over to the other entries, where they do not fail. -/
theorem wp_writeRows {sql : Sql} {I : List ConfigEntry → W → Prop} {E : W → Prop}
    (hI : ∀ entries w w', rely w w' → I entries w → I entries w')
    (hE : ∀ w w', rely w w' → E w → E w')
    (hbind : ∀ index value entries w, I entries w → guard (.bindText index value) w ∧
      ∀ result w', step (.bindText index value) w result w' →
        result = .ok (cString value) ∧ I entries w' ∨
        ∃ message, result = .error message ∧ E w')
    (hwrite : ∀ entry entries w, I (entry :: entries) w →
      guard (.stepWrite sql (cString entry.1) (cString entry.2)) w ∧
      ∀ status w', step (.stepWrite sql (cString entry.1) (cString entry.2)) w status w' →
        status = .ok () ∧ I entries w' ∨ ∃ message, status = .error message ∧ E w')
    {entries : List ConfigEntry} {w : W} (h : I entries w) :
  (writeRows sql entries).wp step rely guard
    (fun status w => match status with | .ok () => I [] w | .error _ => E w) w
  := by
  induction entries generalizing w with
  | nil =>
    intro w' hw'
    apply hI [] w w' hw' h
  | cons entry entries ih =>
    intro w₁ hw₁
    obtain ⟨hguard, hkey⟩ := hbind 1 entry.1 _ w₁ (hI _ _ _ hw₁ h)
    use hguard
    intro result w₂ hstep
    rcases hkey result w₂ hstep with ⟨rfl, h⟩ | ⟨message, rfl, h⟩
    · intro w₃ hw₃
      obtain ⟨hguard, hvalue⟩ := hbind 2 entry.2 _ w₃ (hI _ _ _ hw₃ h)
      use hguard
      intro result w₄ hstep
      rcases hvalue result w₄ hstep with ⟨rfl, h⟩ | ⟨message, rfl, h⟩
      · intro w₅ hw₅
        obtain ⟨hguard, hrow⟩ := hwrite entry entries w₅ (hI _ _ _ hw₅ h)
        use hguard
        intro status w₆ hstep
        rcases hrow status w₆ hstep with ⟨rfl, h⟩ | ⟨message, rfl, h⟩
        · apply ih h
        · intro w₇ hw₇
          apply hE w₆ w₇ hw₇ h
      · intro w₅ hw₅
        apply hE w₄ w₅ hw₅ h
    · intro w₃ hw₃
      apply hE w₂ w₃ hw₃ h

end

end Repository

variable {Conn : Type} [DecidableEq Conn] {faults : Prop} {assume : Assumptions} {conn : Conn}

/-- The program, run on a database by one connection while no other connection runs, ends as `Q`
says, where calls fail only if there are `faults`. -/
def Repository.Ends {α : Type} (faults : Prop) (assume : Assumptions) (conn : Conn)
    (p : Repository α) (Q : α → Database Conn → Prop) (db : Database Conn) : Prop :=
  p.wp (fun call db a db' => Database.Succeeds assume conn call db a db' ∨
    faults ∧ Database.Fails assume conn call db a db') Eq (fun _ _ => True) Q db

namespace Repository

open Database

variable {α β : Type} {p : Repository α} {Q Q' : α → Database Conn → Prop} {db : Database Conn}

/-- A call that succeeds or fails. -/
theorem ends_call {call : SqliteCall} {k : call.Answer → Repository α}
    (hsucceeds : ∀ a db', Succeeds assume conn call db a db' → (k a).Ends faults assume conn Q db')
    (hfails : ∀ a db', faults → Failed call a → Lost conn db db' →
      (k a).Ends faults assume conn Q db') :
  Ends faults assume conn (.call call k) Q db
  := by
  rintro _ rfl
  use trivial
  rintro a db' (h | ⟨hfaults, h⟩)
  · apply hsucceeds a db' h
  · apply hfails a db' hfaults h.1 h.lost

theorem ends_ret {a : α} (h : Q a db) :
  Ends faults assume conn (.ret a) Q db
  := by
  rintro _ rfl
  apply h

theorem ends_mono (hQ : ∀ a db, Q a db → Q' a db) (h : p.Ends faults assume conn Q db) :
  p.Ends faults assume conn Q' db
  := Prog.wp_mono hQ h

theorem ends_bind {f : α → Repository β} {Q : β → Database Conn → Prop}
    (h : p.Ends faults assume conn (fun a => (f a).Ends faults assume conn Q) db) :
  (p >>= f).Ends faults assume conn Q db
  := Prog.wp_bind Eq.refl h

/-- A run in which every call succeeds is a run. -/
theorem runs_of_succeeds {a : α} {db' : Database Conn}
    (hrun : p.Runs (Succeeds assume conn) db a db') :
  p.Runs (Calls assume conn) db a db'
  := hrun.mono fun _ _ _ _ => .inl

/-- A run of the program ends as it should. -/
theorem Ends.of_calls {a : α} {db' : Database Conn} (h : p.Ends True assume conn Q db)
    (hrun : p.Runs (Calls assume conn) db a db') :
  Q a db'
  := by
  apply Prog.wp_runs Eq.refl (hrun.mono _) h db' rfl
  intro _ _ _ _ hcall
  exact hcall.imp_right (And.intro trivial)

theorem Ends.of_succeeds {a : α} {db' : Database Conn} (h : p.Ends False assume conn Q db)
    (hrun : p.Runs (Succeeds assume conn) db a db') :
  Q a db'
  := by
  apply Prog.wp_runs Eq.refl (hrun.mono _) h db' rfl
  intro _ _ _ _ hcall
  exact .inl hcall

/-- The loop over entries while no other connection runs. -/
theorem ends_writeRows {sql : Sql} {I : List ConfigEntry → Database Conn → Prop}
    {E : Database Conn → Prop}
    (hwrite : ∀ entry entries db db', I (entry :: entries) db →
      Succeeds assume conn (.stepWrite sql (cString entry.1) (cString entry.2)) db (.ok ()) db' →
      I entries db')
    (hlost : ∀ entries db db', I entries db → faults → Lost conn db db' → E db')
    {entries : List ConfigEntry} (h : I entries db) :
  (writeRows sql entries).Ends faults assume conn
    (fun status db => match status with | .ok () => I [] db | .error _ => E db) db
  := by
  apply wp_writeRows
  · rintro entries db _ rfl h
    apply h
  · rintro db _ rfl h
    apply h
  · intro index value entries db h
    use trivial
    rintro result db' (hbind | ⟨hfaults, hfails⟩)
    · obtain ⟨rfl, rfl⟩ := succeeds_bindText hbind
      exact .inl ⟨rfl, h⟩
    · obtain ⟨message, rfl⟩ := hfails.1
      exact .inr ⟨message, rfl, hlost entries db db' h hfaults hfails.lost⟩
  · intro entry entries db h
    use trivial
    rintro status db' (hstep | ⟨hfaults, hfails⟩)
    · obtain ⟨rfl, -⟩ := succeeds_stepWrite hstep
      exact .inl ⟨rfl, hwrite entry entries db db' h hstep⟩
    · obtain ⟨message, rfl⟩ := hfails.1
      exact .inr ⟨message, rfl, hlost _ db db' h hfaults hfails.lost⟩
  · apply h

/-! ### Initializing and loading -/

/-- The entries of the default configuration written outside of a transaction, where `P` is kept by
each of them. -/
theorem ends_insertRows {P : Table → Prop} {entries : List ConfigEntry}
    (hinsert : ∀ entry ∈ entries, ∀ table, P table →
      P (table.insertIfAbsent (cString entry.1) (cString entry.2))) {table : Table} (h : P table) :
  (writeRows .insertOrIgnore entries).Ends faults assume conn
    (fun _ db => ∃ table, P table ∧ db = { committed := some table, transaction := none })
    { committed := some table, transaction := none }
  := by
  let E : Database Conn → Prop := fun db =>
    ∃ table, P table ∧ db = { committed := some table, transaction := none }
  have hE : E { committed := some table, transaction := none } := ⟨table, h, rfl⟩
  apply ends_mono _ (ends_writeRows (I := fun rest db => rest ⊆ entries ∧ E db) (E := E) _ _
    ⟨List.Subset.refl entries, hE⟩)
  · rintro (message | _) db h
    · apply h
    · apply h.2
  · rintro entry rest db db' ⟨hrest, table, h, rfl⟩ hstep
    obtain ⟨-, -, hwrite⟩ := succeeds_stepWrite hstep
    cases hwrite
    obtain ⟨hentry, hrest⟩ := List.cons_subset.mp hrest
    exact ⟨hrest, _, hinsert entry hentry table h, rfl⟩
  · rintro rest db db' ⟨-, table, h, rfl⟩ - hlost
    obtain rfl := hlost.eq_of_closed rfl
    exact ⟨table, h, rfl⟩

/-- Initializing where no connection has a transaction, where `P` holds of the committed table and
is kept by the entries of the default configuration. -/
theorem ends_initializeRepository {P : Table → Prop}
    (hinsert : ∀ entry ∈ boundEntries ServerConfig.default, ∀ table, P table →
      P (table.insertIfAbsent entry.1 entry.2)) {committed : Option Table}
    (h : P (committed.getD .empty)) :
  initializeRepository.Ends faults assume conn
    (fun status db => db.transaction = none ∧ (∀ table, db.committed = some table → P table) ∧
      (committed.isSome ∨ status = .ok () → db.committed.isSome))
    { committed, transaction := none }
  := by
  have hcommitted : ∀ table, committed = some table → P table := by
    rintro table rfl
    apply h
  apply ends_call
  · intro status db hcreate
    obtain ⟨rfl, hdb⟩ := succeeds_createTable hcreate
    obtain ⟨table, htable, rfl⟩ : ∃ table, P table ∧
        db = { committed := some table, transaction := none } := by
      rcases hdb with ⟨hview, rfl⟩ | ⟨hview, hwrite⟩
      · obtain ⟨table, htable⟩ := Option.isSome_iff_exists.mp hview
        obtain rfl : committed = some table := htable
        exact ⟨table, h, rfl⟩
      · obtain rfl : committed = none := hview
        cases hwrite
        exact ⟨.empty, h, rfl⟩
    apply ends_call
    · intro status db hprepare
      obtain ⟨rfl, -, rfl⟩ := succeeds_prepare hprepare
      apply ends_mono _ (ends_insertRows _ htable)
      · rintro status _ ⟨table', htable', rfl⟩
        use rfl
        constructor
        · rintro _ ⟨⟩
          apply htable'
        · intro _
          rfl
      · intro entry hentry
        apply hinsert _ (List.mem_map_of_mem hentry)
    · rintro status db - ⟨message, rfl⟩ hlost
      obtain rfl := hlost.eq_of_closed rfl
      refine ends_ret ⟨rfl, ?_, fun _ => rfl⟩
      rintro _ ⟨⟩
      apply htable
  · rintro status db - ⟨message, rfl⟩ hlost
    obtain rfl := hlost.eq_of_closed rfl
    exact ends_ret ⟨rfl, hcommitted, Or.rec id (by rintro ⟨⟩)⟩

/-- The entries can be written outside of a transaction. -/
theorem runs_insertRows (entries : List ConfigEntry) (table : Table) :
  (writeRows .insertOrIgnore entries).Runs (Succeeds assume conn)
    { committed := some table, transaction := none } (.ok ())
    { committed := some
        (table.insertAll (entries.map fun entry => (cString entry.1, cString entry.2)))
      transaction := none }
  := by
  induction entries generalizing table with
  | nil => exact .ret
  | cons entry entries ih =>
    apply Prog.Runs.call (.answer rfl)
    apply Prog.Runs.call (.answer rfl)
    apply Prog.Runs.call (.answer rfl)
    apply ih

/-- A database can be initialized, with or without a table. -/
theorem runs_initializeRepository {committed : Option Table} :
  initializeRepository.Runs (Succeeds assume conn) { committed, transaction := none } (.ok ())
    { committed := some ((committed.getD .empty).insertAll (boundEntries ServerConfig.default))
      transaction := none }
  := by
  cases committed with
  | none =>
    apply Prog.Runs.call (.answer rfl)
    apply Prog.Runs.call (.answer rfl)
    apply runs_insertRows
  | some table =>
    apply Prog.Runs.call (.answer rfl)
    apply Prog.Runs.call (.answer rfl)
    apply runs_insertRows

/-- The part of `load` after the rows have been read. -/
def finishLoad (rows : List Row) (status : Status) : Repository (Result ServerConfig) :=
  match collect rows [] with
  | .error message => return .error message
  | .ok values =>
      match status with
      | .error message => return .error (ascii "sqlite3_step select failed: " ++ message)
      | .ok () => return configFrom values

/-- The part of `load` after the rows have been read leaves the database as it is. -/
theorem ends_finishLoad (rows : List Row) (status : Status) (db : Database Conn) :
  (finishLoad rows status).Ends faults assume conn (fun _ db' => db' = db) db
  := by
  rw [finishLoad]
  split
  · exact ends_ret rfl
  · split
    · exact ends_ret rfl
    · exact ends_ret rfl

/-- Loading leaves the database as it is where no connection has a transaction. -/
theorem ends_load {committed : Option Table} :
  load.Ends faults assume conn (fun _ db => db = { committed, transaction := none })
    { committed, transaction := none }
  := by
  apply ends_call
  · intro status db hprepare
    obtain ⟨rfl, -, rfl⟩ := succeeds_prepare hprepare
    apply ends_call
    · rintro ⟨rows, status⟩ db hstep
      obtain ⟨-, rfl, -⟩ := succeeds_stepRows.mp hstep
      apply ends_finishLoad
    · rintro ⟨rows, status⟩ db - - hlost
      obtain rfl := hlost.eq_of_closed rfl
      apply ends_finishLoad
  · rintro status db - ⟨message, rfl⟩ hlost
    obtain rfl := hlost.eq_of_closed rfl
    exact ends_ret rfl

/-! ### Writing in a transaction -/

/-- The connection has a transaction in which the table is `table`, with the rows `committed`
outside of it. -/
def Writing (conn : Conn) (committed table : Option Table) (db : Database Conn) : Prop :=
  db = { committed, transaction := some (conn, table) }

/-- After an error in a transaction: the committed rows are as before, and no other connection has
a transaction. -/
def Broken (conn : Conn) (committed : Option Table) (db : Database Conn) : Prop :=
  db.committed = committed ∧ ∀ writer table, db.transaction = some (writer, table) → writer = conn

/-- How writing in a transaction ends, where it is to leave the table `table`. -/
def Wrote (faults : Prop) (conn : Conn) (committed table : Option Table) :
    Status → Database Conn → Prop
  | .ok (), db => table.isSome ∧ Writing conn committed table db
  | .error _, db => faults ∧ Broken conn committed db

variable {committed : Option Table} {db' : Database Conn}

theorem Writing.broken {table : Option Table} (h : Writing conn committed table db)
    (hlost : Lost conn db db') :
  Broken conn committed db'
  := by
  subst h
  use hlost.committed
  intro writer table' htransaction
  rcases hlost.transaction with h | ⟨h, -⟩
  · rw [h] at htransaction
    cases htransaction
    rfl
  · rw [h] at htransaction
    cases htransaction

/-- The entries written in a transaction. -/
theorem ends_upsertRows {table : Table} (entries : List ConfigEntry)
    (h : Writing conn committed (some table) db) :
  (writeRows .upsert entries).Ends faults assume conn (Wrote faults conn committed
    (some (table.upsertAll (entries.map fun entry => (cString entry.1, cString entry.2))))) db
  := by
  let after : Table → List ConfigEntry → Table := fun table entries =>
    table.upsertAll (entries.map fun entry => (cString entry.1, cString entry.2))
  apply ends_mono _ (ends_writeRows (I := fun rest db => ∃ written,
      Writing conn committed (some written) db ∧ after written rest = after table entries)
    (E := fun db => faults ∧ Broken conn committed db) _ _ ⟨table, h, rfl⟩)
  · rintro (message | _) db h
    · apply h
    · obtain ⟨written, hwriting, hafter⟩ := h
      obtain rfl : written = after table entries := hafter
      exact ⟨rfl, hwriting⟩
  · rintro entry rest db db' ⟨written, rfl, hafter⟩ hstep
    obtain ⟨-, -, hwrite⟩ := succeeds_stepWrite hstep
    simp only [write, if_pos] at hwrite
    exact ⟨_, (Option.some.inj hwrite).symm, hafter⟩
  · rintro rest db db' ⟨written, hwriting, -⟩ hfaults hlost
    exact ⟨hfaults, hwriting.broken hlost⟩

/-- The entries of a configuration are written where the connection sees a table. -/
theorem ends_upsertEntries (config : ServerConfig) {table : Option Table}
    (h : Writing conn committed table db) :
  (upsertEntries (configEntriesFrom config)).Ends faults assume conn
    (Wrote faults conn committed (table.map fun table => table.upsertAll (boundEntries config))) db
  := by
  apply ends_call
  · intro status db₁ hprepare
    obtain ⟨rfl, hview, rfl⟩ := succeeds_prepare hprepare
    subst h
    simp only [view, if_pos] at hview
    obtain ⟨table, rfl⟩ := Option.isSome_iff_exists.mp hview
    apply ends_upsertRows (configEntriesFrom config) rfl
  · rintro status db₁ hfaults ⟨message, rfl⟩ hlost
    exact ends_ret ⟨hfaults, h.broken hlost⟩

/-! ### Saving -/

/-- How `save` ends where no connection has a transaction and the committed rows are
`committed`. -/
def Saved (faults : Prop) (assume : Assumptions) (conn : Conn) (committed : Option Table)
    (config : ServerConfig) : Status → Database Conn → Prop
  | .ok (), db => config.validate = .ok () ∧ committed.isSome ∧ db =
      { committed := committed.map fun table => table.upsertAll (boundEntries config)
        transaction := none }
  | .error _, db => (faults ∨ config.validate ≠ .ok ()) ∧ Broken conn committed db ∧
      (assume.rollbackEnds → db.transaction = none)

/-- A rollback after an error ends the transaction. -/
theorem Broken.rollback (h : Broken conn committed db) :
  Broken conn committed (db.rollback conn) ∧ (db.rollback conn).transaction = none
  := by
  rw [Database.rollback]
  split
  · next hnone => exact ⟨h, hnone⟩
  · next writer table htransaction =>
    rw [if_pos (h.2 writer table htransaction)]
    exact ⟨⟨h.1, fun _ _ heq => by cases heq⟩, rfl⟩

/-- A `ROLLBACK` after an error, whose own status is ignored. -/
theorem ends_rollback {config : ServerConfig} {message : Bytes}
    (h : faults ∧ Broken conn committed db) :
  (execute .rollback >>= fun _ => return .error message).Ends faults assume conn
    (Saved faults assume conn committed config) db
  := by
  obtain ⟨hfaults, hbroken⟩ := h
  rintro _ rfl
  use trivial
  intro status db' hcall
  have hsaved : Saved faults assume conn committed config (.error message) db' := by
    use .inl hfaults
    rcases calls_rollback (hcall.imp_right And.right) with rfl | ⟨rfl, hends⟩
    · obtain ⟨hbroken', hnone⟩ := hbroken.rollback
      exact ⟨hbroken', fun _ => hnone⟩
    · use hbroken
      rw [hends]
      rintro ⟨⟩
  rcases status with _ | _
  · exact ends_ret hsaved
  · exact ends_ret hsaved

/-- Where no connection has a transaction, `save` either writes all entries or none. -/
theorem ends_save (config : ServerConfig) :
  (save config).Ends faults assume conn (Saved faults assume conn committed config)
    { committed, transaction := none }
  := by
  have hclosed : Broken conn committed { committed, transaction := none } :=
    ⟨rfl, fun _ _ h => by cases h⟩
  rw [save]
  split
  · next hinvalid => exact ends_ret ⟨.inr (by simp [hinvalid]), hclosed, fun _ => rfl⟩
  · next hvalid =>
    apply ends_call
    · intro status db₁ hbegin
      obtain ⟨rfl, -, rfl⟩ := succeeds_begin hbegin
      change Ends faults assume conn (upsertEntries (configEntriesFrom config) >>= _) _ _
      apply ends_bind
      apply ends_mono _ (ends_upsertEntries config rfl)
      rintro (message | _) db₂ hwrote
      · apply ends_rollback hwrote
      · obtain ⟨hsome, rfl⟩ := hwrote
        apply ends_call
        · intro status db₃ hcommit
          obtain ⟨rfl, table, htransaction, rfl⟩ := succeeds_commit hcommit
          cases htransaction
          exact ends_ret ⟨hvalid, by simpa using hsome, rfl⟩
        · rintro status db₃ hfaults ⟨message, rfl⟩ hlost
          apply ends_rollback ⟨hfaults, Writing.broken rfl hlost⟩
    · rintro status db₁ hfaults ⟨message, rfl⟩ hlost
      obtain rfl := hlost.eq_of_closed rfl
      exact ends_ret ⟨.inl hfaults, hclosed, fun _ => rfl⟩

/-- A row can be written in a transaction. -/
theorem stepWrite_succeeds {sql : Sql} {table : Table} {key value : Bytes} :
  Succeeds assume conn (.stepWrite sql key value)
    { committed, transaction := some (conn, some table) } (.ok ())
    { committed, transaction := some (conn, some (sql.write table key value)) }
  := by
  apply Succeeds.answer
  simp only [answer, view, write, if_pos]
  rfl

/-- The entries can be written in a transaction. -/
theorem runs_writeRows (entries : List ConfigEntry) (table : Table) :
  (writeRows .upsert entries).Runs (Succeeds assume conn)
    { committed, transaction := some (conn, some table) } (.ok ())
    { committed, transaction := some (conn, some
        (table.upsertAll (entries.map fun entry => (cString entry.1, cString entry.2)))) }
  := by
  induction entries generalizing table with
  | nil => exact .ret
  | cons entry entries ih =>
    apply Prog.Runs.call (.answer rfl)
    apply Prog.Runs.call (.answer rfl)
    apply Prog.Runs.call stepWrite_succeeds
    apply ih

/-- The entries of a configuration can be written in a transaction. -/
theorem runs_upsertEntries (config : ServerConfig) (table : Table) :
  (upsertEntries (configEntriesFrom config)).Runs (Succeeds assume conn)
    { committed, transaction := some (conn, some table) } (.ok ())
    { committed, transaction := some (conn, some (table.upsertAll (boundEntries config))) }
  := by
  have hprepare : Succeeds assume conn (.prepare .upsert)
      { committed, transaction := some (conn, some table) } (.ok ())
      { committed, transaction := some (conn, some table) } := by
    apply Succeeds.answer
    simp only [answer, view, if_pos, Option.isSome_some]
  exact .call hprepare (runs_writeRows _ _)

/-- A valid configuration can be saved. -/
theorem runs_save {config : ServerConfig} (hvalid : config.validate = .ok ()) (table : Table) :
  (save config).Runs (Succeeds assume conn) { committed := some table, transaction := none }
    (.ok ()) { committed := some (table.upsertAll (boundEntries config)), transaction := none }
  := by
  have hcommit : Succeeds assume conn (.exec .commit)
      { committed := some table
        transaction := some (conn, some (table.upsertAll (boundEntries config))) } (.ok ())
      { committed := some (table.upsertAll (boundEntries config)), transaction := none } := by
    apply Succeeds.answer
    simp only [answer, if_pos]
  rw [save, hvalid]
  apply Prog.Runs.call (.answer rfl)
  change Prog.Runs _ (upsertEntries (configEntriesFrom config) >>= _) _ _ _
  apply (runs_upsertEntries config table).bind
  apply Prog.Runs.call hcommit
  exact .ret

/-- The entries of a valid configuration are written, and cannot be committed. -/
theorem runs_save_rollback {config : ServerConfig} (hvalid : config.validate = .ok ())
    (table : Table) (message : Bytes) :
  (save config).Runs (Calls assume conn) { committed := some table, transaction := none }
    (.error (ascii "sqlite3_exec failed: " ++ message))
    { committed := some table, transaction := none }
  := by
  have hcommit : Calls assume conn (.exec .commit)
      { committed := some table
        transaction := some (conn, some (table.upsertAll (boundEntries config))) } (.error message)
      { committed := some table
        transaction := some (conn, some (table.upsertAll (boundEntries config))) } :=
    .inr ⟨⟨message, rfl⟩, .inr ⟨rfl, nofun⟩⟩
  have hrollback : Calls assume conn (.exec .rollback)
      { committed := some table
        transaction := some (conn, some (table.upsertAll (boundEntries config))) } (.ok ())
      { committed := some table, transaction := none } := by
    left
    apply Succeeds.answer
    simp only [answer, if_pos]
  rw [save, hvalid]
  apply Prog.Runs.call (.inl (.answer rfl))
  change Prog.Runs _ (upsertEntries (configEntriesFrom config) >>= _) _ _ _
  apply (runs_of_succeeds (runs_upsertEntries config table)).bind
  apply Prog.Runs.call hcommit
  apply Prog.Runs.call hrollback
  exact .ret

end Repository

end OpcuaServer
