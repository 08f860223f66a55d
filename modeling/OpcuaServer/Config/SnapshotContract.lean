import OpcuaServer.Config.ConfigSystem
import OpcuaServer.Config.SaveLoad

/-!
# The rows while clients run

While clients run on any number of connections, the committed rows are entries of one
configuration, the last one saved or the default, and they are all of its entries once
initializing or saving has returned ok (`World.Inv`). `World.contract` says where the calls of a
connection are made and what the other connections rely on, so that they keep this invariant.
-/

namespace OpcuaServer

open ServerConfig ConfigRepository Database

/-! ### Tables -/

/-- There is a table with a row for the field. -/
def HasKey (table : Option Table) (f : Field) : Prop :=
  ∃ t, table = some t ∧ f.key ∈ t.keys

/-- There is a table with a row for every field. -/
def Complete (table : Option Table) : Prop :=
  ∀ f, HasKey table f

/-- The rows are entries of the configuration. -/
def EntriesOf (config : ServerConfig) (table : Table) : Prop :=
  ∀ row ∈ table.rows, ∃ f : Field, row = (f.key, config.entryValue f)

theorem Complete.exists {table : Option Table} (h : Complete table) :
  ∃ t, table = some t ∧ ∀ f : Field, f.key ∈ t.keys
  := by
  obtain ⟨t, rfl, -⟩ := h (.inr .serverPort)
  use t, rfl
  intro f
  obtain ⟨t', htable, hkey⟩ := h f
  obtain rfl := Option.some.inj htable
  apply hkey

/-- All entries of a valid configuration without NUL are read as the configuration. -/
theorem EntriesOf.configOfRows_eq {config : ServerConfig} {table : Table}
    (h : EntriesOf config table) (hcomplete : Complete (some table))
    (hvalid : config.validate = .ok ()) (hnul : ∀ f, NulFree (config.text f))
    {rows : List (Bytes × Bytes)} (hperm : rows.Perm table.rows) :
  Repository.configOfRows rows = .ok config
  := by
  apply Repository.forall_configOfRows_eq_ok_iff.mpr _ rows hperm
  use hvalid
  intro f
  constructor
  · obtain ⟨t, htable, hkey⟩ := hcomplete f
    obtain rfl := Option.some.inj htable
    obtain ⟨row, hrow, heq⟩ := List.mem_map.mp hkey
    use row, hrow
    rw [heq, cString_key]
  · intro row hrow hkey
    obtain ⟨g, rfl⟩ := h row hrow
    rw [cString_key] at hkey
    obtain rfl := key_injective hkey
    rw [cString_entryValue hnul]
    apply reads_entryValue

/-- A default entry written where there is none with its key. -/
theorem EntriesOf.insertIfAbsent {config : ServerConfig} {table : Table}
    (h : EntriesOf config table) (f : Field) {value : Bytes}
    (hvalue : f.key ∉ table.keys → value = config.entryValue f) :
  EntriesOf config (table.insertIfAbsent f.key value)
  := by
  intro row hrow
  rcases KeyedTable.mem_rows_insertIfAbsent.mp hrow with hrow | ⟨hkey, rfl⟩
  · apply h row hrow
  · use f
    rw [hvalue hkey]

/-- The entries of a configuration without NUL written over those of another one. -/
theorem EntriesOf.upsertAll {config config' : ServerConfig} {table : Table}
    (h : EntriesOf config table) (hnul : ∀ f, NulFree (config'.text f)) :
  EntriesOf config' (table.upsertAll (boundEntries config'))
  := by
  intro row hrow
  rcases Repository.mem_rows_upsertAll.mp hrow with ⟨f, rfl⟩ | ⟨hrow, hkeys⟩
  · use f
    rw [cString_entryValue hnul]
  · obtain ⟨f, rfl⟩ := h row hrow
    cases hkeys f rfl

theorem complete_upsertAll (table : Table) (config : ServerConfig) :
  Complete (some (table.upsertAll (boundEntries config)))
  := fun f => ⟨_, rfl, Repository.key_mem_keys_upsertAll table config f⟩

/-! ### The invariant -/

variable {Conn : Type} {assume : Assumptions} {conn : Conn}

namespace World

/-- The last configuration that has been saved, or the default. -/
def current (w : World Conn) : ServerConfig :=
  w.saved.getD .default

/-- The committed rows are entries of the current configuration, and all of them once it has been
saved or a connection has been initialized. -/
structure Inv (w : World Conn) : Prop where
  valid : w.current.validate = .ok ()
  nulFree : ∀ f, NulFree (w.current.text f)
  entries : ∀ table, w.db.committed = some table → EntriesOf w.current table
  saved : w.saved.isSome → Complete w.db.committed
  ready : ∀ conn, w.ready conn → Complete w.db.committed

theorem inv_start :
  (start : World Conn).Inv
  where
  valid := validate_default
  nulFree := nulFree_default
  entries := by rintro _ ⟨⟩
  saved := by rintro ⟨⟩
  ready := by rintro _ ⟨⟩

/-- Where not all rows are there, the current configuration is the default one. -/
theorem Inv.current_eq {w : World Conn} (h : w.Inv) (hincomplete : ¬ Complete w.db.committed) :
  w.current = .default
  := by
  rw [current]
  cases hsaved : w.saved with
  | none => rfl
  | some config =>
    cases hincomplete (h.saved (by rw [hsaved]; rfl))

/-- What the connections leave in the table are entries of configurations. -/
theorem Inv.written {w : World Conn} (hinv : w.Inv) {table : Table}
    (htable : w.db.committed = some table) :
  Written table
  := by
  intro row hrow
  obtain ⟨f, rfl⟩ := hinv.entries table htable row hrow
  use w.current
  rw [boundEntries_eq]
  apply List.mem_map.mpr
  use f, mem_fields f
  rw [cString_entryValue hinv.nulFree]

variable [DecidableEq Conn]

/-- A connection has read rows in its last request, and the configuration is the last one that had
been saved then, or the default if none had been. -/
def Saw (w : World Conn) (conn : Conn) (config : ServerConfig) : Prop :=
  ∃ saved, w.snapshot conn = some saved ∧ config = saved.getD .default

omit [DecidableEq Conn] in
theorem Saw.eq {w : World Conn} {conn : Conn} {config saved : ServerConfig} (h : w.Saw conn config)
    (hsnapshot : w.snapshot conn = some (some saved)) :
  config = saved
  := by
  obtain ⟨saved', hsaved', rfl⟩ := h
  obtain rfl := Option.some.inj (hsaved'.symm.trans hsnapshot)
  rfl

/-- What a client is answered for a load is the configuration of its snapshot. -/
def Loaded (w : World Conn) (conn : Conn) (result : Result ServerConfig) : Prop :=
  w.ready conn →
    (¬ w.failed conn → ∃ config, w.Saw conn config ∧ result = .ok config) ∧
    ∀ config, result = .ok config → w.Saw conn config

/-- Where the calls of a connection are made: rows are written in a transaction, or they are
default entries, what is committed is all of the configuration that is saved, and what is reported
is so. -/
def Guard (conn : Conn) : SqliteCall ⊕ ClientCall → World Conn → Prop
  | .inl (.stepWrite sql key value), w => (w.db.own conn).isSome ∨
      sql = .insertOrIgnore ∧ ∃ f : Field, key = f.key ∧ value = ServerConfig.default.entryValue f
  | .inl (.exec .commit), w => ∀ table, w.db.own conn = some table →
      ∃ config, w.request conn = some (.save config) ∧ config.validate = .ok () ∧
        (∀ f, NulFree (config.text f)) ∧ Complete table ∧
        ∀ t, table = some t → EntriesOf config t
  | .inl _, _ => True
  | .inr (.report (.initialized (.ok ()))), w => Complete w.db.committed
  | .inr (.report (.loaded result)), w => w.Loaded conn result
  | .inr _, _ => True

/-- What a connection relies on while other connections move: they keep the invariant, the state
of the connection and the keys of the committed rows, and leave the committed rows alone while the
connection has a transaction. -/
structure Rely (conn : Conn) (w w' : World Conn) : Prop where
  inv : w.Inv → w'.Inv
  request : w'.request conn = w.request conn
  snapshot : w'.snapshot conn = w.snapshot conn
  ready : w'.ready conn = w.ready conn
  failed : w'.failed conn = w.failed conn
  own : w'.db.own conn = w.db.own conn
  held : (w.db.own conn).isSome → w'.db.committed = w.db.committed
  keys : ∀ f, HasKey w.db.committed f → HasKey w'.db.committed f

theorem Rely.refl (conn : Conn) (w : World Conn) :
  Rely conn w w
  where
  inv := id
  request := rfl
  snapshot := rfl
  ready := rfl
  failed := rfl
  own := rfl
  held _ := rfl
  keys _ := id

theorem Rely.trans {w₁ w₂ w₃ : World Conn} (h : Rely conn w₁ w₂) (h' : Rely conn w₂ w₃) :
  Rely conn w₁ w₃
  where
  inv := h'.inv ∘ h.inv
  request := h'.request.trans h.request
  snapshot := h'.snapshot.trans h.snapshot
  ready := h'.ready.trans h.ready
  failed := h'.failed.trans h.failed
  own := h'.own.trans h.own
  held hsome := (h'.held (h.own ▸ hsome)).trans (h.held hsome)
  keys f := h'.keys f ∘ h.keys f

/-! ### Steps -/

/-- What a call other than `COMMIT` leaves, where it is made as the guard says. -/
theorem Inv.effect {w : World Conn} (hinv : w.Inv) {call : SqliteCall}
    (hguard : Guard conn (.inl call) w) {db : Database Conn} (h : Effect conn call w.db db) :
  (∀ table, db.committed = some table → EntriesOf w.current table) ∧
    ∀ f, HasKey w.db.committed f → HasKey db.committed f
  := by
  have hsame : db.committed = w.db.committed →
      (∀ table, db.committed = some table → EntriesOf w.current table) ∧
        ∀ f, HasKey w.db.committed f → HasKey db.committed f := by
    intro heq
    rw [heq]
    exact ⟨hinv.entries, fun _ => id⟩
  generalize hdb : w.db = db₀ at h
  cases h with
  | unchanged => exact hdb ▸ hsame (by rw [hdb])
  | begun => exact hdb ▸ hsame (by rw [hdb])
  | written => exact hdb ▸ hsame (by rw [hdb])
  | ended => exact hdb ▸ hsame (by rw [hdb])
  | created =>
    constructor
    · rintro _ ⟨⟩ row ⟨⟩
    · rintro f ⟨_, ⟨⟩, -⟩
  | @stepped sql key value table =>
    obtain ⟨rfl, f, rfl, rfl⟩ : sql = .insertOrIgnore ∧ ∃ f : Field, key = f.key ∧
        value = ServerConfig.default.entryValue f := by
      rcases hguard with hown | hinsert
      · rw [hdb] at hown
        cases hown
      · exact hinsert
    constructor
    · rintro _ ⟨⟩
      apply (hinv.entries table (by rw [hdb])).insertIfAbsent
      intro hkey
      rw [hinv.current_eq]
      intro hcomplete
      obtain ⟨t, htable, hkeys⟩ := hcomplete.exists
      rw [hdb] at htable
      obtain rfl := Option.some.inj htable
      apply hkey (hkeys f)
    · rintro g ⟨_, ⟨⟩, hkey⟩
      exact ⟨_, rfl, KeyedTable.keys_subset_insertIfAbsent _ _ _ hkey⟩

/-- A call changes nothing of the other connections. -/
theorem Step.other {other : Conn} (hother : other ≠ conn)
    {call : SqliteCall ⊕ ClientCall} {w w' : World Conn}
    {a : Sum.elim SqliteCall.Answer ClientCall.Answer call} (h : Step assume conn call w a w') :
  w'.request other = w.request other ∧ w'.snapshot other = w.snapshot other ∧
    w'.ready other = w.ready other ∧ w'.failed other = w.failed other
  := by
  cases h with
  | @succeeds call w a db hcall =>
    unfold succeed
    split <;> simp [Function.update_of_ne hother]
  | fails => simp [fail, Function.update_of_ne hother]
  | nextRequest => simp [ask, Function.update_of_ne hother]
  | report => simp [tell, Function.update_of_ne hother]

theorem Inv.of_effect {w w' : World Conn} (hinv : w.Inv) {call : SqliteCall}
    (hguard : Guard conn (.inl call) w) (h : Effect conn call w.db w'.db)
    (hsaved : w'.saved = w.saved) (hready : w'.ready = w.ready) :
  w'.Inv ∧ ∀ f, HasKey w.db.committed f → HasKey w'.db.committed f
  := by
  obtain ⟨hentries, hkeys⟩ := hinv.effect hguard h
  have hcurrent : w'.current = w.current := by rw [current, current, hsaved]
  refine ⟨⟨?_, ?_, ?_, ?_, ?_⟩, hkeys⟩
  · rw [hcurrent]
    apply hinv.valid
  · rw [hcurrent]
    apply hinv.nulFree
  · rw [hcurrent]
    apply hentries
  · rw [hsaved]
    intro hsome f
    apply hkeys f (hinv.saved hsome f)
  · rw [hready]
    intro conn' hconn' f
    apply hkeys f (hinv.ready conn' hconn' f)

/-- A call that is made where its guard holds keeps the invariant and the keys. -/
theorem Inv.step {w w' : World Conn} (hinv : w.Inv) {call : SqliteCall ⊕ ClientCall}
    (hguard : Guard conn call w) {a : Sum.elim SqliteCall.Answer ClientCall.Answer call}
    (h : Step assume conn call w a w') :
  w'.Inv ∧ ∀ f, HasKey w.db.committed f → HasKey w'.db.committed f
  := by
  cases h with
  | @succeeds call w a db hcall =>
    by_cases hcommit : call = .exec .commit
    · subst hcommit
      obtain ⟨-, table, htransaction, rfl⟩ := succeeds_commit hcall
      obtain ⟨config, hrequest, hvalid, hnul, hcomplete, hentries⟩ :=
        hguard table (own_eq_some_iff.mpr htransaction)
      have hsaved : (w.succeed conn (.exec .commit) ⟨table, none⟩).saved = some config := by
        simp [succeed, saving, hrequest]
      have hcurrent : (w.succeed conn (.exec .commit) ⟨table, none⟩).current = config := by
        rw [current, hsaved]
        rfl
      refine ⟨⟨?_, ?_, ?_, ?_, ?_⟩, fun f _ => hcomplete f⟩
      · rw [hcurrent]
        apply hvalid
      · rw [hcurrent]
        apply hnul
      · rw [hcurrent]
        apply hentries
      · intro _
        apply hcomplete
      · intro _ _
        apply hcomplete
    · apply hinv.of_effect hguard
      · rw [succeed_db]
        apply effect_of_succeeds hcommit hcall
      · apply succeed_saved hcommit
      · apply succeed_ready
  | @fails call w a db hcall =>
    have heffect : Effect conn call w.db (w.fail conn db).db := effect_of_lost hcall.lost
    apply hinv.of_effect hguard heffect rfl rfl
  | nextRequest =>
    exact ⟨⟨hinv.valid, hinv.nulFree, hinv.entries, hinv.saved, hinv.ready⟩, fun _ => id⟩
  | @report w reply =>
    refine ⟨⟨hinv.valid, hinv.nulFree, hinv.entries, hinv.saved, ?_⟩, fun _ => id⟩
    intro conn' hconn'
    by_cases heq : conn' = conn
    · subst heq
      simp only [tell, Function.update_self] at hconn'
      rcases hconn' with hready | rfl
      · apply hinv.ready conn' hready
      · apply hguard
    · simp only [tell, Function.update_of_ne heq] at hconn'
      apply hinv.ready conn' hconn'

/-- Other connections can rely on a call that is made where its guard holds. -/
theorem Step.rely {other : Conn} (hother : other ≠ conn) {w w' : World Conn}
    {call : SqliteCall ⊕ ClientCall} (hinv : w.Inv) (hguard : Guard conn call w)
    {a : Sum.elim SqliteCall.Answer ClientCall.Answer call} (h : Step assume conn call w a w') :
  Rely other w w'
  := by
  obtain ⟨hinv', hkeys⟩ := hinv.step hguard h
  obtain ⟨hrequest, hsnapshot, hready, hfailed⟩ := h.other hother
  have hdb : w'.db.own other = w.db.own other ∧
      ((w.db.own other).isSome → w'.db.committed = w.db.committed) := by
    cases h with
    | succeeds hcall =>
      rw [succeed_db]
      apply other_of_succeeds hother hcall
    | @fails call _ a db hcall =>
      have heffect : Effect conn call w.db db := effect_of_lost hcall.lost
      exact heffect.other hother
    | nextRequest => exact ⟨rfl, fun _ => rfl⟩
    | report => exact ⟨rfl, fun _ => rfl⟩
  exact ⟨fun _ => hinv', hrequest, hsnapshot, hready, hfailed, hdb.1, hdb.2, hkeys⟩

/-- What a connection relies on and where it makes its calls. -/
def contract : Threads.Contract Conn (SqliteCall ⊕ ClientCall) (World Conn) where
  rely := Rely
  guard conn call w := w.Inv ∧ Guard conn call w

theorem respects (assume : Assumptions) :
  Threads.Respects (connections assume) (contract : Threads.Contract Conn _ _)
  where
  refl := Rely.refl
  trans _ _ _ _ := Rely.trans
  step hother hguard hstep := hstep.rely hother hguard.1 hguard.2
  env := by rintro _ _ _ ⟨⟩
  halt := by
    rintro conn other w _ hother rfl
    have hlost : Lost conn w.db (w.lose conn).db := .inr rfl
    have heffect : Effect conn (.exec .rollback) w.db (w.lose conn).db := effect_of_lost hlost
    obtain ⟨hown, hheld⟩ := heffect.other hother
    refine ⟨?_, rfl, rfl, rfl, rfl, hown, hheld, fun f => ?_⟩
    · intro hinv
      have hguard : Guard conn (.inl (.exec .rollback)) w := trivial
      have hlose : (w.lose conn).Inv ∧ _ := hinv.of_effect hguard heffect rfl rfl
      apply hlose.1
    · rw [hlost.committed]
      exact id

end World

end OpcuaServer
