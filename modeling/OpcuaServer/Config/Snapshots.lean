import OpcuaServer.Config.SavedConfig

/-!
# Complete snapshots

Every client keeps to the contract (`World.safe_run`). So what it is answered for a load, after its
connection has been initialized, is the last configuration that has been saved, or the default
(`World.load_current`).
-/

namespace OpcuaServer

open ServerConfig ConfigRepository Database

namespace World

variable {Conn : Type} [DecidableEq Conn] {assume : Assumptions} {conn : Conn}

/-! ### The programs of the repository -/

/-- A program of the repository, run by one of the connections, keeps to the contract and ends as
`Q` says. -/
def Keeps {α : Type} (assume : Assumptions) (conn : Conn) (p : Repository α)
    (Q : α → World Conn → Prop) (w : World Conn) : Prop :=
  p.wp (fun call => Step assume conn (.inl call)) (Rely conn)
    (fun call w => w.Inv ∧ Guard conn (.inl call) w) Q w

variable {α β : Type} {Q : α → World Conn → Prop} {w : World Conn}

/-- A call is made where the invariant holds and `A` does, which the connection can rely on. -/
theorem keeps_call {call : SqliteCall} {k : call.Answer → Repository α} {A : World Conn → Prop}
    (hstable : ∀ w w', Rely conn w w' → A w → A w')
    (hguard : ∀ w, w.Inv → A w → Guard conn (.inl call) w)
    (hsucceeds : ∀ w a db, A w → Succeeds assume conn call w.db a db →
      (w.succeed conn call db).Inv → Keeps assume conn (k a) Q (w.succeed conn call db))
    (hfails : ∀ w a db, A w → Failed call a → Lost conn w.db db →
      (w.fail conn db).Inv → Keeps assume conn (k a) Q (w.fail conn db))
    (hinv : w.Inv) (hA : A w) :
  Keeps assume conn (.call call k) Q w
  := by
  intro w₁ hrely
  have hinv₁ := hrely.inv hinv
  have hA₁ := hstable w w₁ hrely hA
  have hguard₁ := hguard w₁ hinv₁ hA₁
  use ⟨hinv₁, hguard₁⟩
  intro a w₂ hstep
  have hinv₂ := (hinv₁.step hguard₁ hstep).1
  cases hstep with
  | succeeds hcall => apply hsucceeds w₁ a _ hA₁ hcall hinv₂
  | fails hcall => apply hfails w₁ a _ hA₁ hcall.1 hcall.lost hinv₂

theorem keeps_ret {a : α} (hstable : ∀ w w', Rely conn w w' → Q a w → Q a w') (h : Q a w) :
  Keeps assume conn (.ret a) Q w
  := by
  intro w' hrely
  apply hstable w w' hrely h

/-- The loop over entries while other connections run. -/
theorem keeps_writeRows {sql : Sql} {I : List ConfigEntry → World Conn → Prop}
    {E : World Conn → Prop}
    (hI : ∀ entries w w', Rely conn w w' → I entries w → I entries w')
    (hE : ∀ w w', Rely conn w w' → E w → E w')
    (hinv : ∀ entries w, I entries w → w.Inv)
    (hguard : ∀ entry entries w, I (entry :: entries) w →
      Guard conn (.inl (.stepWrite sql (cString entry.1) (cString entry.2))) w)
    (hwrite : ∀ entry entries w w', I (entry :: entries) w →
      Succeeds assume conn (.stepWrite sql (cString entry.1) (cString entry.2)) w.db (.ok ()) w'.db →
      w' = { w with db := w'.db } → w'.Inv →
      (∀ f, HasKey w.db.committed f → HasKey w'.db.committed f) → I entries w')
    (hlost : ∀ entries w db, I entries w → Lost conn w.db db → (w.fail conn db).Inv →
      E (w.fail conn db))
    {entries : List ConfigEntry} (h : I entries w) :
  Keeps assume conn (writeRows sql entries)
    (fun status w => match status with | .ok () => I [] w | .error _ => E w) w
  := by
  apply Repository.wp_writeRows hI hE
  · intro index value entries w h
    have hguard : Guard conn (.inl (.bindText index value)) w := trivial
    use ⟨hinv _ w h, hguard⟩
    intro result w' hstep
    have hinv' := ((hinv _ w h).step hguard hstep).1
    cases hstep with
    | succeeds hbind =>
      obtain ⟨rfl, rfl⟩ := succeeds_bindText hbind
      exact .inl ⟨rfl, h⟩
    | fails hbind =>
      obtain ⟨message, rfl⟩ := hbind.1
      exact .inr ⟨message, rfl, hlost _ w _ h hbind.lost hinv'⟩
  · intro entry entries w h
    have hguard := hguard entry entries w h
    use ⟨hinv _ w h, hguard⟩
    intro status w' hstep
    obtain ⟨hinv', hkeys⟩ := (hinv _ w h).step hguard hstep
    cases hstep with
    | succeeds hcall =>
      obtain ⟨rfl, -⟩ := succeeds_stepWrite hcall
      exact .inl ⟨rfl, hwrite entry entries w _ h hcall rfl hinv' hkeys⟩
    | fails hcall =>
      obtain ⟨message, rfl⟩ := hcall.1
      exact .inr ⟨message, rfl, hlost _ w _ h hcall.lost hinv'⟩
  · apply h

/-- Outside of its own transaction a connection is not affected by a failed call. -/
theorem fail_db_eq {db : Database Conn} (hown : w.db.own conn = none)
    (hlost : Lost conn w.db db) :
  (w.fail conn db).db = w.db
  := hlost.eq (own_eq_none_iff.mp hown)

/-! ### Initializing -/

/-- The connection has no transaction, and the fields that are not left to be written have rows. -/
def Inserting (conn : Conn) (entries : List ConfigEntry) (w : World Conn) : Prop :=
  w.Inv ∧ w.db.own conn = none ∧
    ∃ fs : List Field, entries = fs.map (fun f => (f.key, ServerConfig.default.entryValue f)) ∧
      ∀ f, f ∈ fs ∨ HasKey w.db.committed f

theorem Inserting.rely {entries : List ConfigEntry} {w w' : World Conn} (hrely : Rely conn w w')
    (h : Inserting conn entries w) :
  Inserting conn entries w'
  := by
  obtain ⟨hinv, hown, fs, hfs, hkeys⟩ := h
  exact ⟨hrely.inv hinv, hrely.own.trans hown, fs, hfs, fun f => (hkeys f).imp_right (hrely.keys f)⟩

theorem keeps_insertRows {entries : List ConfigEntry} (h : Inserting conn entries w) :
  Keeps assume conn (writeRows .insertOrIgnore entries)
    (fun status w => match status with
      | .ok () => Inserting conn [] w
      | .error _ => w.Inv ∧ w.db.own conn = none) w
  := by
  apply keeps_writeRows (I := Inserting conn) (E := fun w => w.Inv ∧ w.db.own conn = none)
  · intro entries w w' hrely h
    apply h.rely hrely
  · intro w w' hrely h
    exact ⟨hrely.inv h.1, hrely.own.trans h.2⟩
  · intro entries w h
    apply h.1
  · rintro entry entries w ⟨-, -, _ | ⟨f, fs⟩, hfs, -⟩
    · cases hfs
    · obtain ⟨rfl, rfl⟩ := List.cons.inj hfs
      exact .inr ⟨rfl, f, cString_key f, cString_entryValue nulFree_default f⟩
  · rintro entry entries w w' ⟨-, hown, _ | ⟨f, fs⟩, hfs, hkeys⟩ hcall - hinv' hkeys'
    · cases hfs
    · obtain ⟨rfl, rfl⟩ := List.cons.inj hfs
      obtain ⟨-, hview, hwrite⟩ := succeeds_stepWrite hcall
      rcases write_cases hwrite with ⟨committed, hdb, hdb'⟩ | ⟨committed, table, hdb, -⟩
      · rw [hdb] at hview
        obtain ⟨table, rfl⟩ := Option.isSome_iff_exists.mp hview
        rw [Inserting, hdb']
        refine ⟨hinv', rfl, fs, rfl, fun g => ?_⟩
        rcases hkeys g with hg | hg
        · rcases List.mem_cons.mp hg with rfl | hg
          · right
            rw [cString_key]
            exact ⟨_, rfl, KeyedTable.mem_keys_insertIfAbsent _ _ _⟩
          · exact .inl hg
        · rw [← hdb']
          exact .inr (hkeys' g hg)
      · rw [hdb, own_eq_none_iff] at hown
        cases hown table rfl
  · intro entries w db h hlost hinv'
    have hdb := fail_db_eq h.2.1 hlost
    exact ⟨hinv', hdb ▸ h.2.1⟩
  · apply h

/-- The connection has no transaction. -/
def Idle (conn : Conn) (w : World Conn) : Prop :=
  w.db.own conn = none

theorem Idle.rely {w w' : World Conn} (hrely : Rely conn w w') (h : Idle conn w) :
  Idle conn w'
  := hrely.own.trans h

/-- How initializing ends. -/
def Initialized (conn : Conn) (status : Status) (w : World Conn) : Prop :=
  w.Inv ∧ Idle conn w ∧ (status = .ok () → Complete w.db.committed)

theorem Initialized.rely {status : Status} {w w' : World Conn} (hrely : Rely conn w w')
    (h : Initialized conn status w) :
  Initialized conn status w'
  := ⟨hrely.inv h.1, h.2.1.rely hrely, fun hok f => hrely.keys f (h.2.2 hok f)⟩

theorem keeps_initializeRepository (hinv : w.Inv) (hidle : Idle conn w) :
  Keeps assume conn initializeRepository (Initialized conn) w
  := by
  have hfailed : ∀ (w : World Conn) (db : Database Conn) (message : Bytes), Idle conn w →
      Lost conn w.db db → (w.fail conn db).Inv →
      Keeps assume conn (.ret (.error message)) (Initialized conn) (w.fail conn db) := by
    intro w db message hidle hlost hinv
    apply keeps_ret fun _ _ => Initialized.rely
    refine ⟨hinv, ?_, by rintro ⟨⟩⟩
    rw [Idle, fail_db_eq hidle hlost]
    apply hidle
  apply keeps_call (fun _ _ => Idle.rely) _ _ _ hinv hidle
  · intro _ _ _
    trivial
  · intro w status db hidle hcreate hinv
    obtain ⟨rfl, hdb⟩ := succeeds_createTable hcreate
    have hidle' : Idle conn (w.succeed conn (.exec .createTable) db) := by
      rcases hdb with ⟨-, rfl⟩ | ⟨-, hwrite⟩
      · apply hidle
      · rcases write_cases hwrite with ⟨committed, -, rfl⟩ | ⟨committed, table, hdb, -⟩
        · rfl
        · rw [Idle, hdb, own_eq_none_iff] at hidle
          cases hidle table rfl
    change Keeps assume conn (insertDefaults (configEntriesFrom ServerConfig.default)) _ _
    apply keeps_call (fun _ _ => Idle.rely) _ _ _ hinv hidle'
    · intro _ _ _
      trivial
    · intro w status db hidle hprepare hinv
      obtain ⟨rfl, -, rfl⟩ := succeeds_prepare hprepare
      have hinserting : Inserting conn (configEntriesFrom ServerConfig.default)
          (w.succeed conn (.prepare .insertOrIgnore) w.db) :=
        ⟨hinv, hidle, fields, configEntriesFrom_eq _, fun f => .inl (mem_fields f)⟩
      apply Prog.wp_mono _ (keeps_insertRows hinserting)
      rintro (message | _) w h
      · exact ⟨h.1, h.2, by rintro ⟨⟩⟩
      · obtain ⟨hinv, hidle, fs, hfs, hkeys⟩ := h
        refine ⟨hinv, hidle, fun _ f => (hkeys f).resolve_left ?_⟩
        rw [List.map_eq_nil_iff.mp hfs.symm]
        apply List.not_mem_nil
    · rintro w status db hidle ⟨message, rfl⟩ hlost hinv
      apply hfailed w db _ hidle hlost hinv
  · rintro w status db hidle ⟨message, rfl⟩ hlost hinv
    apply hfailed w db _ hidle hlost hinv

/-! ### Loading -/

/-- A connection reads committed rows: it has no transaction, or it does so even in one. -/
def Reads (assume : Assumptions) (conn : Conn) (w : World Conn) : Prop :=
  assume.selectsCommitted ∨ Idle conn w

theorem Reads.rely {w w' : World Conn} (hrely : Rely conn w w') (h : Reads assume conn w) :
  Reads assume conn w'
  := h.imp_right (Idle.rely hrely)

theorem Reads.fail {db : Database Conn} (h : Reads assume conn w) (hlost : Lost conn w.db db) :
  Reads assume conn (w.fail conn db)
  := by
  apply h.imp_right
  intro hidle
  rw [Idle, fail_db_eq hidle hlost]
  apply hidle

theorem Loaded.rely {result : Result ServerConfig} {w w' : World Conn} (hrely : Rely conn w w')
    (h : w.Loaded conn result) :
  w'.Loaded conn result
  := by
  simp only [Loaded, Saw, hrely.ready, hrely.failed, hrely.snapshot]
  apply h

/-- An error after a call has failed. -/
theorem loaded_fail {message : Bytes} {db : Database Conn} :
  (w.fail conn db).Loaded conn (.error message)
  := by
  intro _
  constructor
  · intro h
    cases h (by simp [World.fail])
  · rintro _ ⟨⟩

theorem keeps_load (hinv : w.Inv) (hreads : Reads assume conn w) :
  Keeps assume conn load
    (fun result w => w.Inv ∧ Reads assume conn w ∧ w.Loaded conn result) w
  := by
  have hstable : ∀ (result : Result ServerConfig) (w w' : World Conn), Rely conn w w' →
      w.Inv ∧ Reads assume conn w ∧ w.Loaded conn result →
      w'.Inv ∧ Reads assume conn w' ∧ w'.Loaded conn result :=
    fun _ _ _ hrely h => ⟨hrely.inv h.1, h.2.1.rely hrely, h.2.2.rely hrely⟩
  have hfailed : ∀ (w : World Conn) (db : Database Conn) (message : Bytes),
      Reads assume conn w → Lost conn w.db db → (w.fail conn db).Inv →
      Keeps assume conn (.ret (.error message))
        (fun result w => w.Inv ∧ Reads assume conn w ∧ w.Loaded conn result) (w.fail conn db) := by
    intro w db message hreads hlost hinv
    apply keeps_ret (hstable _)
    exact ⟨hinv, hreads.fail hlost, loaded_fail⟩
  apply keeps_call (fun _ _ => Reads.rely) _ _ _ hinv hreads
  · intro _ _ _
    trivial
  · intro w status db hreads hprepare hinv
    obtain ⟨rfl, -, rfl⟩ := succeeds_prepare hprepare
    apply keeps_call (fun _ _ => Reads.rely) _ _ _ hinv hreads
    · intro _ _ _
      trivial
    · rintro w ⟨rows, status⟩ db hreads hstep hinv
      obtain ⟨rfl, rfl, table, texts, htable, hperm, rfl⟩ := succeeds_stepRows.mp hstep
      change Keeps assume conn (Repository.finishLoad (texts.map Row.ofTexts) (.ok ())) _ _
      rw [Repository.finishLoad, Repository.collect_eq]
      apply keeps_ret (hstable _)
      refine ⟨hinv, hreads, ?_⟩
      intro hready
      have hcommitted : w.db.committed = some table := by
        rw [← htable]
        rcases hreads with hselects | hidle
        · rw [if_pos hselects]
        · rw [view_of_own hidle, ite_self]
      have hresult : Repository.configOfRows texts = .ok (w.saved.getD .default) :=
        (hinv.entries table hcommitted).configOfRows_eq (hcommitted ▸ hinv.ready conn hready)
          hinv.valid hinv.nulFree hperm
      have hsaw : (w.succeed conn .stepRows w.db).Saw conn (w.saved.getD .default) :=
        ⟨w.saved, Function.update_self .., rfl⟩
      constructor
      · intro _
        exact ⟨_, hsaw, hresult⟩
      · intro config hconfig
        rw [Except.ok.inj (hconfig.symm.trans hresult)]
        apply hsaw
    · rintro w ⟨rows, status⟩ db hreads hnull hlost hinv
      change Keeps assume conn (Repository.finishLoad rows status) _ _
      rw [Repository.finishLoad]
      split
      · apply hfailed w db _ hreads hlost hinv
      · next values hcollect =>
        split
        · apply hfailed w db _ hreads hlost hinv
        · rcases hnull with ⟨message, hstatus⟩ | ⟨row, hrow, hnull⟩
          · cases hstatus
          · cases Repository.not_null_of_collect hcollect row hrow hnull
  · rintro w status db hreads ⟨message, rfl⟩ hlost hinv
    apply hfailed w db _ hreads hlost hinv

/-- A connection that has been initialized still is when it has loaded. -/
theorem keeps_load_ready (hinv : w.Inv) (hreads : Reads assume conn w) (hready : w.ready conn) :
  Keeps assume conn load
    (fun result w => (w.Inv ∧ Reads assume conn w ∧ w.Loaded conn result) ∧ w.ready conn) w
  := by
  apply Prog.wp_frame _ _ (keeps_load hinv hreads) hready
  · exact fun _ _ hrely hready => hrely.ready ▸ hready
  · exact fun _ _ _ _ _ hstep hready => ready_of_step hstep hready

/-! ### Saving -/

/-- The connection saves a configuration in a transaction, and the entries that are left make the
rows those after the configuration has been written. -/
def Upserting (conn : Conn) (config : ServerConfig) (entries : List ConfigEntry) (w : World Conn) :
    Prop :=
  w.Inv ∧ w.request conn = some (.save config) ∧ ∃ committed table : Table,
    w.db.committed = some committed ∧ w.db.own conn = some (some table) ∧
    table.upsertAll (entries.map fun entry => (cString entry.1, cString entry.2))
      = committed.upsertAll (boundEntries config)

theorem Upserting.rely {config : ServerConfig} {entries : List ConfigEntry} {w w' : World Conn}
    (hrely : Rely conn w w') (h : Upserting conn config entries w) :
  Upserting conn config entries w'
  := by
  obtain ⟨hinv, hrequest, committed, table, hcommitted, hown, hrows⟩ := h
  refine ⟨hrely.inv hinv, hrely.request.trans hrequest, committed, table, ?_,
    hrely.own.trans hown, hrows⟩
  rw [hrely.held (by rw [hown]; rfl), hcommitted]

theorem keeps_upsertRows {config : ServerConfig} {entries : List ConfigEntry}
    (h : Upserting conn config entries w) :
  Keeps assume conn (writeRows .upsert entries)
    (fun status w => match status with
      | .ok () => Upserting conn config [] w
      | .error _ => w.Inv) w
  := by
  apply keeps_writeRows (I := Upserting conn config) (E := fun w => w.Inv)
  · intro entries w w' hrely h
    apply h.rely hrely
  · intro w w' hrely h
    apply hrely.inv h
  · intro entries w h
    apply h.1
  · rintro entry entries w ⟨-, -, committed, table, -, hown, -⟩
    left
    rw [hown]
    rfl
  · rintro entry entries w w' ⟨-, hrequest, committed, table, hcommitted, hown, hrows⟩ hcall hw'
      hinv' -
    obtain ⟨-, -, hwrite⟩ := succeeds_stepWrite hcall
    have htransaction := own_eq_some_iff.mp hown
    rcases write_cases hwrite with ⟨committed', hdb, -⟩ | ⟨committed', table', hdb, hdb'⟩
    · rw [hdb] at htransaction
      cases htransaction
    · rw [hdb] at htransaction hcommitted
      cases htransaction
      rw [hw'] at hinv' ⊢
      refine ⟨hinv', hrequest, committed, _, ?_, ?_, hrows⟩
      · rw [hdb']
        apply hcommitted
      · rw [hdb']
        exact own_eq_some_iff.mpr rfl
  · intro entries w db h hlost hinv'
    apply hinv'
  · apply h

/-- When no entries are left, the rows are the entries of the configuration. -/
theorem Upserting.complete {config : ServerConfig} (h : Upserting conn config [] w)
    (hnul : ∀ f, NulFree (config.text f)) {table : Option Table}
    (hown : w.db.own conn = some table) :
  Complete table ∧ ∀ t, table = some t → EntriesOf config t
  := by
  obtain ⟨hinv, -, committed, table', hcommitted, hown', hrows⟩ := h
  obtain rfl := Option.some.inj (hown.symm.trans hown')
  rw [List.map_nil, KeyedTable.upsertAll_nil] at hrows
  rw [hrows]
  use complete_upsertAll committed config
  intro t ht
  rw [← Option.some.inj ht]
  apply (hinv.entries committed hcommitted).upsertAll hnul

/-- A `ROLLBACK` after an error, whose own status is ignored. -/
theorem keeps_rollback (hassume : assume.rollbackEnds ∨ assume.selectsCommitted) {message : Bytes}
    (hinv : w.Inv) :
  Keeps assume conn (execute .rollback >>= fun _ => return (.error message : Status))
    (fun _ w => w.Inv ∧ Reads assume conn w) w
  := by
  intro w₁ hrely
  have hinv₁ := hrely.inv hinv
  have hguard : Guard conn (.inl (.exec .rollback)) w₁ := trivial
  use ⟨hinv₁, hguard⟩
  intro status w₂ hstep
  have hinv₂ := (hinv₁.step hguard hstep).1
  have hreads : Reads assume conn w₂ := by
    apply hassume.symm.imp_right
    intro hends
    have hcalls : Calls assume conn (.exec .rollback) w₁.db status w₂.db := by
      cases hstep with
      | succeeds hcall => exact .inl hcall
      | fails hcall => exact .inr hcall
    rcases calls_rollback hcalls with hdb | ⟨-, hnot⟩
    · rw [Idle, hdb]
      apply own_rollback
    · rw [hends] at hnot
      cases hnot
  rcases status with _ | _
  · exact keeps_ret (fun _ _ hrely h => ⟨hrely.inv h.1, h.2.rely hrely⟩) ⟨hinv₂, hreads⟩
  · exact keeps_ret (fun _ _ hrely h => ⟨hrely.inv h.1, h.2.rely hrely⟩) ⟨hinv₂, hreads⟩

/-- The connection has begun a transaction to save a configuration. -/
def Begun (conn : Conn) (config : ServerConfig) (w : World Conn) : Prop :=
  w.request conn = some (.save config) ∧ w.db.own conn = some w.db.committed

theorem Begun.rely {config : ServerConfig} {w w' : World Conn} (hrely : Rely conn w w')
    (h : Begun conn config w) :
  Begun conn config w'
  := by
  use hrely.request.trans h.1
  rw [hrely.own, hrely.held (by rw [h.2]; rfl)]
  apply h.2

theorem keeps_upsertEntries {config : ServerConfig} (hinv : w.Inv) (h : Begun conn config w) :
  Keeps assume conn (upsertEntries (configEntriesFrom config))
    (fun status w => match status with
      | .ok () => Upserting conn config [] w
      | .error _ => w.Inv) w
  := by
  apply keeps_call (fun _ _ => Begun.rely) _ _ _ hinv h
  · intro _ _ _
    trivial
  · rintro w status db ⟨hrequest, hown⟩ hprepare hinv
    obtain ⟨rfl, hview, rfl⟩ := succeeds_prepare hprepare
    rw [view_of_own_eq_some hown] at hview
    obtain ⟨table, hcommitted⟩ := Option.isSome_iff_exists.mp hview
    apply keeps_upsertRows
    exact ⟨hinv, hrequest, table, table, hcommitted, hown.trans (congrArg some hcommitted), rfl⟩
  · rintro w status db - ⟨message, rfl⟩ - hinv
    exact keeps_ret (fun _ _ hrely => hrely.inv) hinv

theorem keeps_save (hassume : assume.rollbackEnds ∨ assume.selectsCommitted)
    {config : ServerConfig} (hnul : ∀ f, NulFree (config.text f)) (hinv : w.Inv)
    (hrequest : w.request conn = some (.save config)) (hreads : Reads assume conn w) :
  Keeps assume conn (save config) (fun _ w => w.Inv ∧ Reads assume conn w) w
  := by
  have hstable : ∀ (w w' : World Conn), Rely conn w w' → w.Inv ∧ Reads assume conn w →
      w'.Inv ∧ Reads assume conn w' := fun _ _ hrely h => ⟨hrely.inv h.1, h.2.rely hrely⟩
  rw [save]
  split
  · exact keeps_ret hstable ⟨hinv, hreads⟩
  · next hvalid =>
    apply keeps_call (A := fun w => w.request conn = some (.save config) ∧ Reads assume conn w)
      (fun _ _ hrely h => ⟨hrely.request.trans h.1, h.2.rely hrely⟩) _ _ _ hinv
      ⟨hrequest, hreads⟩
    · intro _ _ _
      trivial
    · rintro w status db ⟨hrequest, -⟩ hbegin hinv
      obtain ⟨rfl, -, rfl⟩ := succeeds_begin hbegin
      change Keeps assume conn (upsertEntries (configEntriesFrom config) >>= _) _ _
      apply Prog.wp_bind (Rely.refl conn)
      apply Prog.wp_mono _ (keeps_upsertEntries hinv ⟨hrequest, own_eq_some_iff.mpr rfl⟩)
      rintro (message | _) w h
      · apply keeps_rollback hassume h
      · apply keeps_call (fun _ _ => Upserting.rely) _ _ _ h.1 h
        · intro w hinv h table hown
          exact ⟨config, h.2.1, hvalid, hnul, h.complete hnul hown⟩
        · rintro w status db - hcommit hinv
          obtain ⟨rfl, table, -, rfl⟩ := succeeds_commit hcommit
          exact keeps_ret hstable ⟨hinv, .inr rfl⟩
        · rintro w status db - ⟨message, rfl⟩ - hinv
          apply keeps_rollback hassume hinv
    · rintro w status db ⟨-, hreads⟩ ⟨message, rfl⟩ hlost hinv
      exact keeps_ret hstable ⟨hinv, hreads.fail hlost⟩

/-! ### Clients -/

theorem Keeps.lift {p : Repository α} (h : Keeps assume conn p Q w) :
  p.lift.wp (Step assume conn) (Rely conn) (contract.guard conn) Q w
  := by
  apply Prog.wp_lift
  exact h

/-- What a client relies on between its calls of the repository. -/
def Ready (assume : Assumptions) (conn : Conn) (w : World Conn) : Prop :=
  w.Inv ∧ Reads assume conn w

theorem Ready.rely {w w' : World Conn} (hrely : Rely conn w w') (h : Ready assume conn w) :
  Ready assume conn w'
  := ⟨hrely.inv h.1, h.2.rely hrely⟩

/-- A request returns where its guard holds. -/
theorem ready_report {reply : Reply} (h : Ready assume conn w)
    (hguard : ∀ w', Rely conn w w' → Guard conn (.inr (.report reply)) w') :
  (Client.report reply).wp (Step assume conn) (Rely conn) (contract.guard conn)
    (fun _ w => Ready assume conn w) w
  := by
  apply Prog.wp_perform
  intro w₁ hrely
  have h₁ := h.rely hrely
  have hguard₁ := hguard w₁ hrely
  use ⟨h₁.1, hguard₁⟩
  rintro ⟨⟩ w₂ hstep w₃ hrely₃
  have hinv₂ := (h₁.1.step hguard₁ hstep).1
  have hreads₂ : Reads assume conn w₂ := by
    cases hstep
    exact h₁.2
  apply Ready.rely hrely₃ ⟨hinv₂, hreads₂⟩

/-- One request of a client. -/
theorem ready_serve (hassume : assume.rollbackEnds ∨ assume.selectsCommitted)
    (h : Ready assume conn w) :
  (Client.serve ()).wp (Step assume conn) (Rely conn) (contract.guard conn)
    (fun _ w => Ready assume conn w) w
  := by
  intro w₁ hrely
  have h₁ := h.rely hrely
  have hguard : Guard conn (.inr .nextRequest) w₁ := trivial
  use ⟨h₁.1, hguard⟩
  intro request w₂ hstep
  have hinv₂ := (h₁.1.step hguard hstep).1
  cases hstep with
  | nextRequest hnul =>
    rcases request with _ | _ | config
    · exact fun _ hrely => Ready.rely hrely ⟨hinv₂, h₁.2⟩
    · change (load.lift >>= fun result => Client.report (.loaded result) >>= _).wp _ _ _ _ _
      apply Prog.wp_bind (Rely.refl conn)
      apply Prog.wp_mono _ (keeps_load hinv₂ h₁.2).lift
      rintro result w ⟨hinv, hreads, hloaded⟩
      apply Prog.wp_bind (Rely.refl conn)
      apply Prog.wp_mono _ (ready_report ⟨hinv, hreads⟩ _)
      · exact fun _ _ h _ hrely => h.rely hrely
      · intro w' hrely
        apply hloaded.rely hrely
    · change ((save config).lift >>= fun status => Client.report (.saved status) >>= _).wp _ _ _ _ _
      apply Prog.wp_bind (Rely.refl conn)
      apply Prog.wp_mono _ (keeps_save hassume (hnul config rfl) hinv₂ _ h₁.2).lift
      · intro status w h
        apply Prog.wp_bind (Rely.refl conn)
        apply Prog.wp_mono _ (ready_report h _)
        · exact fun _ _ h _ hrely => h.rely hrely
        · intro _ _
          trivial
      · apply Function.update_self

/-- Every client keeps to the contract. -/
theorem safe_run (hassume : assume.rollbackEnds ∨ assume.selectsCommitted) (conn : Conn)
    (hinv : w.Inv) (hidle : Idle conn w) :
  Client.run.wp (Step assume conn) (Rely conn) (contract.guard conn) (fun _ _ => True) w
  := by
  have hinitialize : Keeps assume conn initializeRepository (Initialized conn) w :=
    keeps_initializeRepository hinv hidle
  apply Prog.wp_bind (Rely.refl conn)
  apply Prog.wp_mono _ hinitialize.lift
  intro status w h
  have hready : Ready assume conn w := ⟨h.1, .inr h.2.1⟩
  apply Prog.wp_bind (Rely.refl conn)
  apply Prog.wp_mono _ (ready_report hready _)
  · intro _ w h
    apply Prog.wp_repeatUntil (fun _ => Ready assume conn) (fun _ _ _ => Ready.rely) h
    intro _ w h
    apply Prog.wp_mono _ (ready_serve hassume h)
    rintro (_ | _) w h
    · apply h
    · exact fun _ _ => trivial
  · intro w' hrely
    have h' := h.rely hrely
    rcases status with message | _
    · trivial
    · apply h'.2.2 rfl

theorem safe_start (hassume : assume.rollbackEnds ∨ assume.selectsCommitted) :
  Threads.Safe (connections assume : Threads.System Conn _ _ _) contract connectionsStart
  := fun conn => safe_run hassume conn inv_start rfl

/-- In every configuration that the connections reach, the committed rows are entries of one
configuration, and all of them once a connection is initialized. -/
theorem inv_of_reaches (hassume : assume.rollbackEnds ∨ assume.selectsCommitted)
    {c : Threads.Config Conn (SqliteCall ⊕ ClientCall)
      (Sum.elim SqliteCall.Answer ClientCall.Answer) (World Conn)}
    (hreach : Threads.Reaches (connections assume) connectionsStart c) :
  c.world.Inv
  := by
  apply Threads.invariant_of_reaches (respects assume) _ _ _ (safe_start hassume) inv_start hreach
  · intro conn call w a w' hguard hstep hinv
    exact (hinv.step hguard.2 hstep).1
  · rintro _ _ ⟨⟩
  · rintro conn w _ rfl hinv
    have hlost : Lost conn w.db (w.lose conn).db := .inr rfl
    have heffect : Effect conn (.exec .rollback) w.db (w.lose conn).db := effect_of_lost hlost
    have hguard : Guard conn (.inl (.exec .rollback)) w := trivial
    have hlose : (w.lose conn).Inv ∧ _ := hinv.of_effect hguard heffect rfl rfl
    apply hlose.1

/-- In every configuration that the connections reach, a client whose connection is initialized is
answered for a load with the last configuration that had been saved when the rows were read for this
load, or with the default if none had been, or, only where a call has failed, with an error. -/
theorem load_current (hassume : assume.rollbackEnds ∨ assume.selectsCommitted)
    {c : Threads.Config Conn (SqliteCall ⊕ ClientCall)
      (Sum.elim SqliteCall.Answer ClientCall.Answer) (World Conn)}
    (hreach : Threads.Reaches (connections assume) connectionsStart c)
    {result : Result ServerConfig} {k : Unit → Client Unit}
    (hprog : c.progs conn = .call (.inr (.report (.loaded result))) k)
    (hready : c.world.ready conn) :
  (¬ c.world.failed conn → ∃ config, c.world.Saw conn config ∧ result = .ok config) ∧
    ∀ config, result = .ok config → c.world.Saw conn config
  := by
  have hguard := Threads.guard_of_reaches (respects assume) (safe_start hassume) hreach hprog
  apply hguard.2 hready

/-! ### Runs -/

/-- What a call does that succeeds. -/
def Succeeded (assume : Assumptions) (conn : Conn) (call : SqliteCall) (w : World Conn)
    (a : call.Answer) (w' : World Conn) : Prop :=
  ∃ db, w.db.Succeeds assume conn call a db ∧ w' = w.succeed conn call db

theorem runs_of_succeeded {p : Repository α} {a : α} {w w' : World Conn}
    (hrun : p.Runs (Succeeded assume conn) w a w') :
  p.Runs (fun call => Step assume conn (.inl call)) w a w'
  := by
  apply hrun.mono
  rintro call w a _ ⟨db, hcall, rfl⟩
  exact .succeeds hcall

/-- A run of the repository on a database is a run of the connection. -/
theorem exists_run {p : Repository α} {a : α} {db db' : Database Conn}
    (hrun : p.Runs (Succeeds assume conn) db a db') {w : World Conn} (hdb : w.db = db) :
  ∃ w', p.Runs (Succeeded assume conn) w a w' ∧ w'.db = db' ∧ w'.ready = w.ready ∧
    w'.failed = w.failed
  := by
  induction hrun generalizing w with
  | ret => exact ⟨w, .ret, hdb, rfl, rfl⟩
  | @call α call k a b db db₁ db₂ hcall _ ih =>
    subst hdb
    obtain ⟨w', hrun, hdb', hready, hfailed⟩ := ih (succeed_db w conn call db₁)
    refine ⟨w', .call ⟨_, hcall, rfl⟩ hrun, hdb', ?_, ?_⟩
    · rw [hready, succeed_ready]
    · rw [hfailed, succeed_failed]
  | @loop α σ β body s k r b db db₁ db₂ _ _ ihbody ih =>
    obtain ⟨w₁, hbody, hdb₁, hready₁, hfailed₁⟩ := ihbody hdb
    obtain ⟨w₂, hrest, hdb₂, hready₂, hfailed₂⟩ := ih hdb₁
    exact ⟨w₂, .loop hbody hrest, hdb₂, hready₂.trans hready₁, hfailed₂.trans hfailed₁⟩

/-- A run that commits nothing leaves what had been saved. -/
theorem saved_of_run {p : Repository α} {a : α} {w w' : World Conn}
    (hp : p.Only (· ≠ .exec .commit))
    (hrun : p.Runs (fun call => Step assume conn (.inl call)) w a w') :
  w'.saved = w.saved
  := by
  have hwp : p.wp (fun call => Step assume conn (.inl call)) Eq (fun _ _ => True)
      (fun _ w' => w'.saved = w.saved) w := by
    apply hp.wp (J := fun w' : World Conn => w'.saved = w.saved) _ _ _ rfl
    · rintro _ _ rfl
      exact id
    · exact fun _ _ _ _ => trivial
    · intro call w a w' hcall hstep hsaved
      rw [saved_of_step hstep (by rintro ⟨⟩; exact hcall rfl), hsaved]
  exact Prog.wp_runs (fun _ => rfl) hrun hwp w' rfl

/-- A repository can be initialized. -/
theorem exists_initialized (assume : Assumptions) (conn : Conn) {committed : Option Table}
    (hdb : w.db = { committed, transaction := none }) :
  ∃ w', initializeRepository.Runs (Succeeded assume conn) w (.ok ()) w' ∧
    w'.db = {
      committed := some ((committed.getD .empty).insertAll (boundEntries ServerConfig.default))
      transaction := none } ∧
    w'.saved = w.saved
  := by
  obtain ⟨w', hrun, hdb', -, -⟩ := exists_run
    (Repository.runs_initializeRepository :
      initializeRepository.Runs (Succeeds assume conn) _ _ _) hdb
  exact ⟨w', hrun, hdb', saved_of_run only_initializeRepository (runs_of_succeeded hrun)⟩

/-- A configuration can be saved. -/
theorem exists_saved (assume : Assumptions) (conn : Conn) {config : ServerConfig}
    (hvalid : config.validate = .ok ()) {table : Table}
    (hdb : w.db = { committed := some table, transaction := none }) :
  ∃ w', (save config).Runs (Succeeded assume conn) (w.ask conn (some (.save config))) (.ok ()) w' ∧
    w'.db = { committed := some (table.upsertAll (boundEntries config)), transaction := none } ∧
    w'.saved = some config
  := by
  obtain ⟨w', hrun, hdb', -, -⟩ := exists_run (w := w.ask conn (some (.save config)))
    (Repository.runs_save hvalid table : (save config).Runs (Succeeds assume conn) _ _ _) hdb
  have hunsaved : Unsaved conn config w.saved (w.ask conn (some (.save config))) :=
    ⟨Function.update_self .., rfl⟩
  have hsaved : w'.saved = some config :=
    Prog.wp_runs (fun _ => ⟨rfl, rfl, rfl, rfl⟩) (runs_of_succeeded hrun)
      (saves_save hvalid hunsaved) w' ⟨rfl, rfl, rfl, rfl⟩
  exact ⟨w', hrun, hdb', hsaved⟩

/-- A configuration can be loaded. -/
theorem exists_loaded (assume : Assumptions) (conn : Conn) {table : Table}
    (hdb : w.db = { committed := some table, transaction := none }) :
  ∃ result w', load.Runs (Succeeded assume conn) (w.ask conn (some .load)) result w' ∧
    w'.ready = w.ready ∧ ¬ w'.failed conn ∧
    ∀ config, result = .ok config → w'.snapshot conn = some w.saved
  := by
  obtain ⟨w', hrun, -, hready, hfailed⟩ := exists_run (w := w.ask conn (some .load))
    (Repository.runs_load_iff.mpr ⟨rfl, table.rows, .refl _, rfl⟩ :
      load.Runs (Succeeds assume conn) _ _ _) hdb
  obtain ⟨-, hsnapshot⟩ : LoadedFrom conn w.saved _ w' :=
    Prog.wp_runs (fun _ => ⟨rfl, rfl, rfl, rfl⟩) (runs_of_succeeded hrun) (saves_load rfl) w'
      ⟨rfl, rfl, rfl, rfl⟩
  refine ⟨_, w', hrun, hready, ?_, hsnapshot⟩
  rw [hfailed]
  simp [ask]

section

variable {c : Threads.Config Conn (SqliteCall ⊕ ClientCall)
    (Sum.elim SqliteCall.Answer ClientCall.Answer) (World Conn)} {progs : Conn → Client Unit}

/-- A client initializes the repository, and is told so. -/
theorem reaches_initialized (conn : Conn) (h : Threads.Reaches (connections assume) c ⟨progs, w⟩)
    (hprog : progs conn = Client.run) {committed : Option Table}
    (hdb : w.db = { committed, transaction := none }) :
  ∃ w', Threads.Reaches (connections assume) c
      ⟨Function.update progs conn (Prog.repeatUntil Client.serve ()), w'⟩ ∧
    w'.db = {
      committed := some ((committed.getD .empty).insertAll (boundEntries ServerConfig.default))
      transaction := none } ∧
    w'.saved = w.saved ∧ w'.ready conn
  := by
  obtain ⟨w', hrun, hdb', hsaved⟩ := exists_initialized assume conn hdb
  have hreach := (h.runs (f := fun status => Client.report (.initialized status) >>= fun _ =>
    Prog.repeatUntil Client.serve ()) hprog (runs_of_succeeded hrun).lift).call
    (Function.update_self ..) Step.report
  rw [Function.update_idem] at hreach
  refine ⟨_, hreach, hdb', hsaved, ?_⟩
  simp [tell]

/-- A client saves a configuration. -/
theorem reaches_saved (conn : Conn) (h : Threads.Reaches (connections assume) c ⟨progs, w⟩)
    (hprog : progs conn = Prog.repeatUntil Client.serve ()) {config : ServerConfig}
    (hvalid : config.validate = .ok ()) (hnul : ∀ f, NulFree (config.text f)) {table : Table}
    (hdb : w.db = { committed := some table, transaction := none }) :
  ∃ w', Threads.Reaches (connections assume) c
      ⟨Function.update progs conn (Prog.repeatUntil Client.serve ()), w'⟩ ∧
    w'.db = { committed := some (table.upsertAll (boundEntries config)), transaction := none } ∧
    w'.saved = some config
  := by
  have hask : Step assume conn (.inr .nextRequest) w (some (Request.save config))
      (w.ask conn (some (.save config))) := .nextRequest (by rintro _ ⟨⟩; exact hnul)
  obtain ⟨w', hrun, hdb', hsaved⟩ := exists_saved assume conn hvalid hdb
  have hreach := (((h.loop hprog).call (Function.update_self ..) hask).runs
    ((Function.update_self ..).trans (Prog.bind_assoc (save config).lift _ _))
    (runs_of_succeeded hrun).lift).call (Function.update_self ..) Step.report
  simp only [Function.update_idem] at hreach
  exact ⟨_, hreach, hdb', hsaved⟩

/-- A client asks for the configuration, and has loaded it. -/
theorem reaches_loaded (conn : Conn) (h : Threads.Reaches (connections assume) c ⟨progs, w⟩)
    (hprog : progs conn = Prog.repeatUntil Client.serve ()) {table : Table}
    (hdb : w.db = { committed := some table, transaction := none }) :
  ∃ result c' k, Threads.Reaches (connections assume) c c' ∧
    c'.progs conn = .call (.inr (.report (.loaded result))) k ∧
    c'.world.ready = w.ready ∧ ¬ c'.world.failed conn ∧
    ∀ config, result = .ok config → c'.world.snapshot conn = some w.saved
  := by
  have hask : Step assume conn (.inr .nextRequest) w (some Request.load)
      (w.ask conn (some .load)) := .nextRequest (by rintro _ ⟨⟩)
  obtain ⟨result, w', hrun, hready, hfailed, hsnapshot⟩ := exists_loaded assume conn hdb
  have hreach := ((h.loop hprog).call (Function.update_self ..) hask).runs
    ((Function.update_self ..).trans (Prog.bind_assoc load.lift _ _)) (runs_of_succeeded hrun).lift
  exact ⟨result, _, _, hreach, Function.update_self .., hready, hfailed, hsnapshot⟩

end

/-- A connection saves a configuration, and another one loads it. -/
theorem load_current_otherPort :
  ∃ (c : Threads.Config Bool (SqliteCall ⊕ ClientCall)
      (Sum.elim SqliteCall.Answer ClientCall.Answer) (World Bool)) (k : Unit → Client Unit),
    Threads.Reaches (connections ⟨true, false⟩) connectionsStart c ∧
    c.progs true = .call (.inr (.report (.loaded (.ok otherPort)))) k ∧
    c.world.Saw true otherPort
  := by
  let assume : Assumptions := ⟨true, false⟩
  have hstart : Threads.Reaches (connections assume) connectionsStart
      ⟨fun _ : Bool => Client.run, start⟩ := .refl
  obtain ⟨w₁, hreach₁, hdb₁, -, -⟩ := reaches_initialized false hstart rfl rfl
  obtain ⟨w₂, hreach₂, hdb₂, hsaved₂⟩ := reaches_saved false hreach₁
    (Function.update_self ..) validate_otherPort nulFree_otherPort hdb₁
  obtain ⟨w₃, hreach₃, hdb₃, hsaved₃, hready₃⟩ := reaches_initialized true hreach₂ rfl hdb₂
  obtain ⟨result, c, k, hreach₄, hprog, hready₄, hfailed₄, hsnapshot₄⟩ :=
    reaches_loaded true hreach₃ (Function.update_self ..) hdb₃
  obtain ⟨hok, -⟩ := load_current (.inl rfl) hreach₄ hprog (hready₄ ▸ hready₃)
  obtain ⟨config, hsaw, rfl⟩ := hok hfailed₄
  obtain rfl : config = otherPort := hsaw.eq (by rw [hsnapshot₄ config rfl, hsaved₃, hsaved₂])
  exact ⟨c, k, hreach₄, hprog, hsaw⟩

end World

end OpcuaServer
