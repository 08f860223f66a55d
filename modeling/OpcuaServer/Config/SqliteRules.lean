import OpcuaServer.Config.Sqlite

/-!
# What the calls do

The answers of each call and the databases after it, for a call that succeeds or fails.
-/

namespace OpcuaServer

namespace Database

variable {Conn : Type} [DecidableEq Conn] {assume : Assumptions} {conn : Conn}
  {db db' : Database Conn}

/-- What is left of a database after a failed call: the same database, or the database without
the transaction of the connection. -/
def Lost (conn : Conn) (db db' : Database Conn) : Prop :=
  db' = db ∨ db' = db.rollback conn

/-- A failed call leaves the committed rows as they are. -/
theorem Lost.committed (h : Lost conn db db') :
  db'.committed = db.committed
  := by
  rcases h with rfl | rfl
  · rfl
  · rw [rollback]
    split
    · rfl
    · split <;> rfl

/-- A failed call opens no transaction. -/
theorem Lost.transaction (h : Lost conn db db') :
  db'.transaction = db.transaction ∨
    db'.transaction = none ∧ ∃ table, db.transaction = some (conn, table)
  := by
  rcases h with rfl | rfl
  · left
    rfl
  · rw [rollback]
    split
    · left
      rfl
    · next writer table htransaction =>
      split
      · next heq =>
        right
        rw [htransaction, heq]
        exact ⟨rfl, table, rfl⟩
      · left
        rfl

/-- Outside of its own transaction a failed call of a connection has no effect. -/
theorem Lost.eq (h : Lost conn db db') (hdb : ∀ table, db.transaction ≠ some (conn, table)) :
  db' = db
  := by
  rcases h with rfl | rfl
  · rfl
  · rw [rollback]
    split
    · rfl
    · next writer table htransaction =>
      split
      · next heq =>
        cases hdb table (heq ▸ htransaction)
      · rfl

/-- Where no connection has a transaction a failed call has no effect. -/
theorem Lost.eq_of_closed (h : Lost conn db db') (hdb : db.transaction = none) :
  db' = db
  := by
  apply h.eq
  rw [hdb]
  rintro _ ⟨⟩

theorem Fails.lost {call : SqliteCall} {a : call.Answer} (h : Fails assume conn call db a db') :
  Lost conn db db'
  := by
  rcases h.2 with h | ⟨h, -⟩
  · exact .inr h
  · exact .inl h

theorem Calls.cases {call : SqliteCall} {a : call.Answer} (h : Calls assume conn call db a db') :
  Succeeds assume conn call db a db' ∨ Failed call a ∧ Lost conn db db'
  := by
  rcases h with h | h
  · exact .inl h
  · exact .inr ⟨h.1, h.lost⟩

/-! ### Calls that succeed -/

/-- The table is created if the connection sees none. -/
theorem succeeds_createTable {status : Status}
    (h : Succeeds assume conn (.exec .createTable) db status db') :
  status = .ok () ∧ ((db.view conn).isSome ∧ db' = db ∨
    db.view conn = none ∧ db.write conn (fun _ => some .empty) = some db')
  := by
  cases h with
  | answer h =>
    rw [answer] at h
    split at h
    · next hview =>
      cases h
      exact ⟨rfl, .inl ⟨hview, rfl⟩⟩
    · next hview =>
      obtain ⟨db'', hwrite, heq⟩ := Option.map_eq_some_iff.mp h
      cases heq
      exact ⟨rfl, .inr ⟨Option.not_isSome_iff_eq_none.mp hview, hwrite⟩⟩

theorem succeeds_begin {status : Status}
    (h : Succeeds assume conn (.exec .beginImmediate) db status db') :
  status = .ok () ∧ db.transaction = none ∧
    db' = { db with transaction := some (conn, db.committed) }
  := by
  cases h with
  | answer h =>
    rw [answer] at h
    split at h
    · next hnone =>
      cases h
      exact ⟨rfl, hnone, rfl⟩
    · cases h

theorem succeeds_commit {status : Status} (h : Succeeds assume conn (.exec .commit) db status db') :
  status = .ok () ∧ ∃ table, db.transaction = some (conn, table) ∧
    db' = { committed := table, transaction := none }
  := by
  cases h with
  | answer h =>
    rw [answer] at h
    split at h
    · cases h
    · next writer table htransaction =>
      split at h
      · next heq =>
        cases h
        exact ⟨rfl, table, heq ▸ htransaction, rfl⟩
      · cases h

theorem succeeds_exec {sql : Sql} {status : Status}
    (h : Succeeds assume conn (.exec sql) db status db') :
  status = .ok ()
  := by
  cases sql with
  | createTable => exact (succeeds_createTable h).1
  | beginImmediate => exact (succeeds_begin h).1
  | commit => exact (succeeds_commit h).1
  | rollback =>
    cases h with
    | answer h =>
      rw [answer] at h
      split at h
      · cases h
      · split at h
        · cases h
          rfl
        · cases h
  | insertOrIgnore | upsert | select =>
    cases h with
    | answer h => cases h

theorem succeeds_prepare {sql : Sql} {status : Status}
    (h : Succeeds assume conn (.prepare sql) db status db') :
  status = .ok () ∧ (db.view conn).isSome ∧ db' = db
  := by
  cases h with
  | answer h =>
    rw [answer] at h
    split at h
    · next hview =>
      cases h
      exact ⟨rfl, hview, rfl⟩
    · cases h

theorem succeeds_bindText {index : ℕ} {value : Bytes} {result : Result Bytes}
    (h : Succeeds assume conn (.bindText index value) db result db') :
  result = .ok (cString value) ∧ db' = db
  := by
  cases h with
  | answer h =>
    cases h
    exact ⟨rfl, rfl⟩

theorem succeeds_stepWrite {sql : Sql} {key value : Bytes} {status : Status}
    (h : Succeeds assume conn (.stepWrite sql key value) db status db') :
  status = .ok () ∧ (db.view conn).isSome ∧
    db.write conn (Option.map fun table => sql.write table key value) = some db'
  := by
  cases h with
  | answer h =>
    rw [answer] at h
    split at h
    · cases h
    · next table hview =>
      rw [Option.map_eq_some_iff] at h
      obtain ⟨db'', hwrite, heq⟩ := h
      cases heq
      exact ⟨rfl, by rw [hview]; rfl, hwrite⟩

/-- A `SELECT` gives the rows of the table in some order. -/
theorem succeeds_stepRows {rows : List Row} {status : Status} :
  Succeeds assume conn .stepRows db (rows, status) db'
    ↔ status = .ok () ∧ db' = db ∧ ∃ (table : Table) (texts : List (Bytes × Bytes)),
      (if assume.selectsCommitted then db.committed else db.view conn) = some table ∧
      texts.Perm table.rows ∧ rows = texts.map Row.ofTexts
  := by
  have hanswer : ∀ {rows : List Row} {status : Status}, db.answer assume conn .stepRows
      = some ((rows, status), db') ↔ status = .ok () ∧ db' = db ∧ ∃ table : Table,
      (if assume.selectsCommitted then db.committed else db.view conn) = some table ∧
      rows = table.rows.map Row.ofTexts := by
    intro rows status
    rw [answer, Option.map_eq_some_iff]
    constructor
    · rintro ⟨table, htable, heq⟩
      cases heq
      exact ⟨rfl, rfl, table, htable, rfl⟩
    · rintro ⟨rfl, rfl, table, htable, rfl⟩
      exact ⟨table, htable, rfl⟩
  constructor
  · intro h
    cases h with
    | answer h =>
      obtain ⟨hstatus, hdb, table, htable, hrows⟩ := hanswer.mp h
      exact ⟨hstatus, hdb, table, table.rows, htable, .refl _, hrows⟩
    | scan h hperm =>
      obtain ⟨-, hdb, table, htable, hrows⟩ := hanswer.mp h
      have hperm' : rows.Perm (table.rows.map Row.ofTexts) := hrows ▸ hperm
      rw [← congrFun (congrFun (List.eq_map_comp_perm Row.ofTexts) rows) table.rows] at hperm'
      obtain ⟨texts, hrows', htexts⟩ := hperm'
      exact ⟨rfl, hdb, table, texts, htable, htexts, hrows'⟩
  · rintro ⟨rfl, rfl, table, texts, htable, htexts, rfl⟩
    apply Succeeds.scan (hanswer.mpr ⟨rfl, rfl, table, htable, rfl⟩) (htexts.map _)

/-- A `ROLLBACK` ends the transaction of its connection, except where it fails and that is not
assumed of it. -/
theorem calls_rollback {status : Status} (h : Calls assume conn (.exec .rollback) db status db') :
  db' = db.rollback conn ∨ db' = db ∧ assume.rollbackEnds = false
  := by
  rcases h with h | ⟨-, h | ⟨h, hends⟩⟩
  · left
    cases h with
    | answer h =>
      rw [answer] at h
      rw [rollback]
      split at h
      · cases h
      · next writer table htransaction =>
        split at h
        · next heq =>
          cases h
          exact (if_pos heq).symm
        · cases h
  · exact .inl h
  · right
    use h
    by_contra hne
    apply hends ((Bool.not_eq_false _).mp hne) rfl

/-! ### What a call can do to other connections -/

/-- The table of the open transaction of a connection. -/
def own (db : Database Conn) (conn : Conn) : Option (Option Table) :=
  match db.transaction with
  | none => none
  | some (writer, table) => if writer = conn then some table else none

theorem own_eq_some_iff {table : Option Table} :
  db.own conn = some table ↔ db.transaction = some (conn, table)
  := by
  obtain ⟨committed, _ | ⟨writer, table'⟩⟩ := db
  · simp [own]
  · simp only [own, Option.some.injEq, Prod.mk.injEq]
    split
    · next heq => simp [heq]
    · next hne => simp [hne]

theorem own_eq_none_iff :
  db.own conn = none ↔ ∀ table, db.transaction ≠ some (conn, table)
  := by
  rw [Option.eq_none_iff_forall_ne_some]
  apply forall_congr'
  intro table
  exact not_congr own_eq_some_iff

theorem own_rollback (db : Database Conn) (conn : Conn) :
  (db.rollback conn).own conn = none
  := by
  obtain ⟨committed, _ | ⟨writer, table⟩⟩ := db
  · rfl
  · by_cases heq : writer = conn
    · simp [rollback, own, heq]
    · simp [rollback, own, heq]

/-- In its own transaction a connection sees the table of the transaction. -/
theorem view_of_own_eq_some {table : Option Table} (h : db.own conn = some table) :
  db.view conn = table
  := by
  rw [view, own_eq_some_iff.mp h]
  exact if_pos rfl

/-- Outside of its own transaction a connection sees the committed rows. -/
theorem view_of_own (h : db.own conn = none) :
  db.view conn = db.committed
  := by
  obtain ⟨committed, _ | ⟨writer, table⟩⟩ := db
  · rfl
  · simp only [own] at h
    split at h
    · cases h
    · next hne => simp [view, hne]

/-- What a call other than `COMMIT` can do: nothing, something in its own transaction, ending it,
or, where there is no transaction, creating the table or writing a row. -/
inductive Effect (conn : Conn) : SqliteCall → Database Conn → Database Conn → Prop where
  | unchanged {call : SqliteCall} {db : Database Conn} : Effect conn call db db
  | begun {call : SqliteCall} {committed table : Option Table} :
      Effect conn call ⟨committed, none⟩ ⟨committed, some (conn, table)⟩
  | written {call : SqliteCall} {committed table table' : Option Table} :
      Effect conn call ⟨committed, some (conn, table)⟩ ⟨committed, some (conn, table')⟩
  | ended {call : SqliteCall} {committed table : Option Table} :
      Effect conn call ⟨committed, some (conn, table)⟩ ⟨committed, none⟩
  | created : Effect conn (.exec .createTable) ⟨none, none⟩ ⟨some .empty, none⟩
  | stepped {sql : Sql} {key value : Bytes} {table : Table} :
      Effect conn (.stepWrite sql key value) ⟨some table, none⟩ ⟨some (sql.write table key value), none⟩

theorem Effect.other {other : Conn} (hother : other ≠ conn) {call : SqliteCall}
    (h : Effect conn call db db') :
  db'.own other = db.own other ∧ ((db.own other).isSome → db'.committed = db.committed)
  := by
  cases h with
  | created => exact ⟨rfl, by rintro ⟨⟩⟩
  | stepped => exact ⟨rfl, by rintro ⟨⟩⟩
  | _ => simp [own, hother.symm]

theorem effect_of_lost {call : SqliteCall} (h : Lost conn db db') :
  Effect conn call db db'
  := by
  rcases h with rfl | rfl
  · exact .unchanged
  · obtain ⟨committed, transaction⟩ := db
    rw [rollback]
    split
    · exact .unchanged
    · next writer table htransaction =>
      split
      · next heq =>
        obtain rfl : transaction = some (writer, table) := htransaction
        subst heq
        exact .ended
      · exact .unchanged

/-- A write outside of a transaction or in one's own. -/
theorem write_cases {f : Option Table → Option Table} (h : db.write conn f = some db') :
  (∃ committed, db = ⟨committed, none⟩ ∧ db' = ⟨f committed, none⟩) ∨
    ∃ committed table, db = ⟨committed, some (conn, table)⟩ ∧
      db' = ⟨committed, some (conn, f table)⟩
  := by
  obtain ⟨committed, _ | ⟨writer, table⟩⟩ := db
  · left
    cases h
    exact ⟨committed, rfl, rfl⟩
  · right
    simp only [write] at h
    split at h
    · next heq =>
      subst heq
      cases h
      exact ⟨committed, table, rfl, rfl⟩
    · cases h

theorem effect_of_succeeds {call : SqliteCall} {a : call.Answer} (hcall : call ≠ .exec .commit)
    (h : Succeeds assume conn call db a db') :
  Effect conn call db db'
  := by
  cases call with
  | exec sql =>
    cases sql with
    | createTable =>
      obtain ⟨-, ⟨-, rfl⟩ | ⟨hview, hwrite⟩⟩ := succeeds_createTable h
      · exact .unchanged
      · rcases write_cases hwrite with ⟨committed, rfl, rfl⟩ | ⟨committed, table, rfl, rfl⟩
        · obtain rfl : committed = none := hview
          exact .created
        · exact .written
    | beginImmediate =>
      obtain ⟨-, hclosed, rfl⟩ := succeeds_begin h
      obtain ⟨committed, transaction⟩ := db
      obtain rfl : transaction = none := hclosed
      exact .begun
    | rollback =>
      rcases calls_rollback (.inl h) with rfl | ⟨rfl, -⟩
      · apply effect_of_lost (.inr rfl)
      · exact .unchanged
    | commit => cases hcall rfl
    | _ =>
      cases h with
      | answer h => cases h
  | prepare sql =>
    obtain ⟨-, -, rfl⟩ := succeeds_prepare h
    exact .unchanged
  | bindText index value =>
    obtain ⟨-, rfl⟩ := succeeds_bindText h
    exact .unchanged
  | stepWrite sql key value =>
    obtain ⟨-, hview, hwrite⟩ := succeeds_stepWrite h
    rcases write_cases hwrite with ⟨committed, rfl, rfl⟩ | ⟨committed, table, rfl, rfl⟩
    · obtain ⟨table, rfl⟩ := Option.isSome_iff_exists.mp hview
      exact .stepped
    · exact .written
  | stepRows =>
    obtain ⟨-, rfl, -⟩ := succeeds_stepRows.mp h
    exact .unchanged

/-- A call changes nothing of the transactions of other connections, and nothing that is committed
while there is one. -/
theorem other_of_succeeds {other : Conn} (hother : other ≠ conn) {call : SqliteCall}
    {a : call.Answer} (h : Succeeds assume conn call db a db') :
  db'.own other = db.own other ∧ ((db.own other).isSome → db'.committed = db.committed)
  := by
  by_cases hcommit : call = .exec .commit
  · subst hcommit
    obtain ⟨-, table, htransaction, rfl⟩ := succeeds_commit h
    have hnone : db.own other = none := by
      simp [own, htransaction, hother.symm]
    rw [hnone]
    exact ⟨rfl, by rintro ⟨⟩⟩
  · apply (effect_of_succeeds hcommit h).other hother

end Database

end OpcuaServer
