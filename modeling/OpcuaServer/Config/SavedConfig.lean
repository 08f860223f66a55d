import OpcuaServer.Config.SnapshotContract

/-!
# What a save leaves

While no other connection saves, `Save` leaves its argument as the configuration that has been saved
if it returns ok, and what had been saved before otherwise; then a call of it has failed
(`World.saves_save`). `Initialize` and `Load` do not commit anything.
-/

namespace OpcuaServer

open ServerConfig ConfigRepository Database

namespace World

variable {Conn : Type} [DecidableEq Conn] {assume : Assumptions} {conn : Conn}

/-- A connection stays initialized. -/
theorem ready_of_step {conn' : Conn} {call : SqliteCall ⊕ ClientCall} {w w' : World Conn}
    {a : Sum.elim SqliteCall.Answer ClientCall.Answer call} (h : Step assume conn call w a w')
    (hready : w.ready conn') :
  w'.ready conn'
  := by
  cases h with
  | succeeds =>
    rw [succeed_ready]
    exact hready
  | fails | nextRequest => exact hready
  | report =>
    by_cases heq : conn' = conn
    · subst heq
      simp only [tell, Function.update_self]
      exact .inl hready
    · simp only [tell, Function.update_of_ne heq]
      exact hready

/-- Only a `COMMIT` changes what has been saved. -/
theorem saved_of_step {call : SqliteCall ⊕ ClientCall} {w w' : World Conn}
    {a : Sum.elim SqliteCall.Answer ClientCall.Answer call} (h : Step assume conn call w a w')
    (hcall : call ≠ .inl (.exec .commit)) :
  w'.saved = w.saved
  := by
  cases h with
  | succeeds =>
    apply succeed_saved
    rintro rfl
    apply hcall rfl
  | fails | nextRequest | report => rfl

/-- The others leave alone what has been saved, and the request and the snapshot of the
connection. -/
structure Alone (conn : Conn) (w w' : World Conn) : Prop where
  saved : w'.saved = w.saved
  request : w'.request conn = w.request conn
  snapshot : w'.snapshot conn = w.snapshot conn
  failed : w'.failed conn = w.failed conn

/-- The configuration is to be saved, and what had been saved before has not changed. -/
structure Unsaved (conn : Conn) (config : ServerConfig) (before : Option ServerConfig)
    (w : World Conn) : Prop where
  request : w.request conn = some (.save config)
  saved : w.saved = before

/-- Saving has failed. -/
structure NotSaved (conn : Conn) (config : ServerConfig) (before : Option ServerConfig)
    (w : World Conn) : Prop extends Unsaved conn config before w where
  failed : w.failed conn

/-- How saving ends. -/
def SavedAs (conn : Conn) (config : ServerConfig) (before : Option ServerConfig) (status : Status)
    (w : World Conn) : Prop :=
  match status with
  | .ok () => w.saved = some config
  | .error _ => NotSaved conn config before w

/-- A program of the repository, run while the others leave alone what has been saved, ends as `Q`
says. -/
def Saves {α : Type} (assume : Assumptions) (conn : Conn) (p : Repository α)
    (Q : α → World Conn → Prop) (w : World Conn) : Prop :=
  p.wp (fun call => Step assume conn (.inl call)) (Alone conn) (fun _ _ => True) Q w

variable {α : Type} {Q : α → World Conn → Prop} {config : ServerConfig}
  {before : Option ServerConfig} {w w' : World Conn}

omit [DecidableEq Conn] in
theorem Unsaved.alone (h : Unsaved conn config before w) (hw : Alone conn w w') :
  Unsaved conn config before w'
  := ⟨hw.request.trans h.request, hw.saved.trans h.saved⟩

omit [DecidableEq Conn] in
theorem NotSaved.alone (h : NotSaved conn config before w) (hw : Alone conn w w') :
  NotSaved conn config before w'
  := ⟨h.toUnsaved.alone hw, by rw [hw.failed]; exact h.failed⟩

/-- A call that fails. -/
theorem Unsaved.fail (h : Unsaved conn config before w) (db : Database Conn) :
  NotSaved conn config before (w.fail conn db)
  := ⟨⟨h.request, h.saved⟩, by simp [World.fail]⟩

/-- A call other than `COMMIT`. -/
theorem Unsaved.succeed (h : Unsaved conn config before w) {call : SqliteCall}
    (hcall : call ≠ .exec .commit) (db : Database Conn) :
  Unsaved conn config before (w.succeed conn call db)
  := ⟨by rw [succeed_request, h.request], by rw [succeed_saved hcall, h.saved]⟩

/-- A call other than `COMMIT` with a status saves nothing, and has failed if it gives an error. -/
theorem saves_call {call : SqliteCall} {k : call.Answer → Repository α}
    (hcall : call ≠ .exec .commit) (h : Unsaved conn config before w)
    (hsucceeds : ∀ a w db db', Succeeds assume conn call db a db' → Unsaved conn config before w →
      Saves assume conn (k a) Q w)
    (hfails : ∀ a w, Failed call a → NotSaved conn config before w →
      Saves assume conn (k a) Q w) :
  Saves assume conn (.call call k) Q w
  := by
  intro w₁ hw₁
  have h₁ := h.alone hw₁
  refine ⟨trivial, fun a w₂ hstep => ?_⟩
  cases hstep with
  | succeeds hsucceeded => apply hsucceeds a _ _ _ hsucceeded (h₁.succeed hcall _)
  | fails hfailed => apply hfails a _ hfailed.1 (h₁.fail _)

theorem saves_error {message : Bytes} (h : NotSaved conn config before w) :
  Saves assume conn (.ret (.error message)) (SavedAs conn config before) w
  := fun _ hw => h.alone hw

theorem saves_writeRows {entries : List ConfigEntry} (h : Unsaved conn config before w) :
  Saves assume conn (writeRows .upsert entries)
    (fun status w => match status with
      | .ok () => Unsaved conn config before w
      | .error _ => NotSaved conn config before w) w
  := by
  apply Repository.wp_writeRows (I := fun _ => Unsaved conn config before)
    (E := NotSaved conn config before)
  · exact fun _ _ _ hw h => h.alone hw
  · exact fun _ _ hw h => h.alone hw
  · intro index value entries w h
    refine ⟨trivial, fun result w' hstep => ?_⟩
    cases hstep with
    | succeeds hbind =>
      obtain ⟨rfl, rfl⟩ := succeeds_bindText hbind
      exact .inl ⟨rfl, h.succeed (by rintro ⟨⟩) _⟩
    | fails hfailed =>
      obtain ⟨message, rfl⟩ := hfailed.1
      exact .inr ⟨message, rfl, h.fail _⟩
  · intro entry entries w h
    refine ⟨trivial, fun status w' hstep => ?_⟩
    cases hstep with
    | succeeds hwrite =>
      obtain ⟨rfl, -⟩ := succeeds_stepWrite hwrite
      exact .inl ⟨rfl, h.succeed (by rintro ⟨⟩) _⟩
    | fails hfailed =>
      obtain ⟨message, rfl⟩ := hfailed.1
      exact .inr ⟨message, rfl, h.fail _⟩
  · exact h

theorem saves_upsertEntries {entries : List ConfigEntry} (h : Unsaved conn config before w) :
  Saves assume conn (upsertEntries entries)
    (fun status w => match status with
      | .ok () => Unsaved conn config before w
      | .error _ => NotSaved conn config before w) w
  := by
  apply saves_call (by rintro ⟨⟩) h
  · intro status w db db' hprepare h
    obtain ⟨rfl, -⟩ := succeeds_prepare hprepare
    apply saves_writeRows h
  · rintro status w ⟨message, rfl⟩ h
    exact fun _ hw => h.alone hw

/-- A `ROLLBACK` after an error. -/
theorem saves_rollback {message : Bytes} (h : NotSaved conn config before w) :
  Saves assume conn (execute .rollback >>= fun _ => return (.error message : Status))
    (SavedAs conn config before) w
  := by
  intro w₁ hw₁
  have h₁ := h.alone hw₁
  refine ⟨trivial, fun status w₂ hstep => ?_⟩
  have h₂ : NotSaved conn config before w₂ := by
    cases hstep with
    | succeeds =>
      exact ⟨h₁.toUnsaved.succeed (by rintro ⟨⟩) _, by rw [succeed_failed]; exact h₁.failed⟩
    | fails => exact h₁.toUnsaved.fail _
  cases status with
  | ok => apply saves_error h₂
  | error => apply saves_error h₂

theorem saves_save (hvalid : config.validate = .ok ()) (h : Unsaved conn config before w) :
  Saves assume conn (save config) (SavedAs conn config before) w
  := by
  rw [save]
  simp only [hvalid]
  apply saves_call (by rintro ⟨⟩) h
  · intro status w db db' hbegin h
    obtain ⟨rfl, -⟩ := succeeds_begin hbegin
    change Saves assume conn (upsertEntries (configEntriesFrom config) >>= _) _ _
    apply Prog.wp_bind (fun w => ⟨rfl, rfl, rfl, rfl⟩)
    apply Prog.wp_mono _ (saves_upsertEntries h)
    rintro (message | ⟨⟩) w h
    · apply saves_rollback h
    · intro w₁ hw₁
      have h₁ := h.alone hw₁
      refine ⟨trivial, fun status w₂ hstep => ?_⟩
      cases hstep with
      | succeeds hcommit =>
        obtain ⟨rfl, -⟩ := succeeds_commit hcommit
        intro w₃ hw₃
        change w₃.saved = some config
        rw [hw₃.saved]
        simp [World.succeed, saving, h₁.request]
      | fails hfailed =>
        obtain ⟨message, rfl⟩ := hfailed.1
        apply saves_rollback (h₁.fail _)
  · rintro status w ⟨message, rfl⟩ h
    apply saves_error h

/-! ### Loading -/

/-- How loading ends while the others leave alone what had been saved before. -/
def LoadedFrom (conn : Conn) (before : Option ServerConfig) (result : Result ServerConfig)
    (w : World Conn) : Prop :=
  w.saved = before ∧ ∀ config, result = .ok config → w.snapshot conn = some before

omit [DecidableEq Conn] in
theorem LoadedFrom.alone {result : Result ServerConfig} (h : LoadedFrom conn before result w)
    (hw : Alone conn w w') :
  LoadedFrom conn before result w'
  := ⟨hw.saved.trans h.1, fun config hconfig => hw.snapshot.trans (h.2 config hconfig)⟩

theorem saves_load (h : w.saved = before) :
  Saves assume conn load (LoadedFrom conn before) w
  := by
  have hfailed : ∀ (w : World Conn) (message : Bytes), w.saved = before →
      Saves assume conn (.ret (.error message)) (LoadedFrom conn before) w :=
    fun w message h _ hw => LoadedFrom.alone ⟨h, nofun⟩ hw
  intro w₁ hw₁
  refine ⟨trivial, fun status w₂ hstep => ?_⟩
  have h₂ : w₂.saved = before := by
    rw [saved_of_step hstep (by rintro ⟨⟩), hw₁.saved, h]
  rcases status with message | ⟨⟩
  · apply hfailed _ _ h₂
  · rintro w₃ hw₃
    refine ⟨trivial, fun answer w₄ hstep => ?_⟩
    have h₄ : w₄.saved = before := by
      rw [saved_of_step hstep (by rintro ⟨⟩), hw₃.saved, h₂]
    rcases answer with ⟨rows, status⟩
    change Saves assume conn (Repository.finishLoad rows status) _ _
    cases hstep with
    | succeeds hrows =>
      -- whatever the rows are read as, they are those of the snapshot
      have hloaded : ∀ result, LoadedFrom conn before result (w₃.succeed conn .stepRows _) :=
        fun result => ⟨h₄, fun _ _ =>
          (Function.update_self ..).trans (congrArg some (hw₃.saved.trans h₂))⟩
      rw [Repository.finishLoad]
      split
      · exact fun _ hw => (hloaded _).alone hw
      · split
        · exact fun _ hw => (hloaded _).alone hw
        · exact fun _ hw => (hloaded _).alone hw
    | fails hrows =>
      rw [Repository.finishLoad]
      split
      · apply hfailed _ _ h₄
      · next values hcollect =>
        split
        · apply hfailed _ _ h₄
        · rcases hrows.1 with ⟨message, hstatus⟩ | ⟨row, hrow, hnull⟩
          · cases hstatus
          · cases Repository.not_null_of_collect hcollect row hrow hnull

/-! ### What is not committed -/

theorem only_writeRows (sql : Sql) (entries : List ConfigEntry) :
  (writeRows sql entries).Only (· ≠ .exec .commit)
  := by
  induction entries with
  | nil => trivial
  | cons entry entries ih =>
    refine ⟨nofun, ?_⟩
    rintro (message | key)
    · trivial
    · refine ⟨nofun, ?_⟩
      rintro (message | value)
      · trivial
      · refine ⟨nofun, ?_⟩
        rintro (message | ⟨⟩)
        · trivial
        · exact ih

/-- `Initialize` commits nothing. -/
theorem only_initializeRepository :
  initializeRepository.Only (· ≠ .exec .commit)
  := by
  refine ⟨by rintro ⟨⟩, ?_⟩
  rintro (message | ⟨⟩)
  · trivial
  · refine ⟨nofun, ?_⟩
    rintro (message | ⟨⟩)
    · trivial
    · apply only_writeRows

/-- `Load` commits nothing. -/
theorem only_load :
  load.Only (· ≠ .exec .commit)
  := by
  refine ⟨nofun, ?_⟩
  rintro (message | ⟨⟩)
  · trivial
  · refine ⟨nofun, ?_⟩
    rintro ⟨rows, status⟩
    change (Repository.finishLoad rows status).Only _
    rw [Repository.finishLoad]
    split
    · trivial
    · split
      · trivial
      · trivial

end World

end OpcuaServer
