import OpcuaServer.Config.SqliteApiSystem
import OpcuaServer.Library.Refinement

/-!
# Rules for the calls of the C interface

The processes of clients keep to a contract over that of the connections: each has objects of its
own, makes only calls that it may make, and makes the database do only what the guards of the
connections allow. The rules show that a program that makes calls of the C interface refines one of
the repository.
-/

namespace OpcuaServer

namespace SqliteWorld

variable {Conn : Type} [DecidableEq Conn] {assume : Assumptions} {conn : Conn}

/-! ### The contract -/

/-- What a process relies on while other processes move. -/
structure Rely (conn : Conn) (w w' : SqliteWorld Conn) : Prop where
  world : World.Rely conn w.world w'.world
  heap : w'.heap conn = w.heap conn

theorem Rely.refl (conn : Conn) (w : SqliteWorld Conn) :
  Rely conn w w
  where
  world := .refl conn w.world
  heap := rfl

theorem Rely.trans {w₁ w₂ w₃ : SqliteWorld Conn} (h : Rely conn w₁ w₂) (h' : Rely conn w₂ w₃) :
  Rely conn w₁ w₃
  where
  world := h.world.trans h'.world
  heap := h'.heap.trans h.heap

/-- Where the calls of a process are made. -/
def Guard (conn : Conn) : Sqlite3Call ⊕ ClientCall → SqliteWorld Conn → Prop
  | .inl call, w => (w.heap conn).Permits call ∧
      ∀ a op a' heap, (w.heap conn).Does call a op a' heap → World.Guard conn (.inl op) w.world
  | .inr call, w => World.Guard conn (.inr call) w.world

/-- What a process relies on and where it makes its calls. -/
def contract : Threads.Contract Conn (Sqlite3Call ⊕ ClientCall) (SqliteWorld Conn) where
  rely := Rely
  guard conn call w := w.world.Inv ∧ Guard conn call w

@[simp]
theorem setHeap_self (w : SqliteWorld Conn) (conn : Conn) (heap : SqliteHeap) :
  (w.setHeap conn heap).heap conn = heap
  := Function.update_self ..

@[simp]
theorem setHeap_other {other : Conn} (hother : other ≠ conn) (w : SqliteWorld Conn)
    (heap : SqliteHeap) :
  (w.setHeap conn heap).heap other = w.heap other
  := Function.update_of_ne hother ..

@[simp]
theorem setHeap_world (w : SqliteWorld Conn) (conn : Conn) (heap : SqliteHeap) :
  (w.setHeap conn heap).world = w.world
  := rfl

/-- What a call of the C interface can do. -/
theorem Step.cases {call : Sqlite3Call} {w w' : SqliteWorld Conn} {a : call.Answer}
    (h : Step assume conn (.inl call) w a w') :
  (∃ heap, (w.heap conn).Step call a heap ∧ w' = w.setHeap conn heap) ∨
    (∃ op a' heap world, (w.heap conn).Does call a op a' heap ∧
      World.Step assume conn (.inl op) w.world a' world ∧ w' = { w.setHeap conn heap with world }) ∨
    ∃ db, call = .close db ∧ ¬ (w.heap conn).Busy db ∧
      w' = { w.setHeap conn ((w.heap conn).release db) with world := w.world.lose conn }
  := by
  cases h with
  | heap hstep => exact .inl ⟨_, hstep, rfl⟩
  | database hdoes hstep => exact .inr (.inl ⟨_, _, _, _, hdoes, hstep, rfl⟩)
  | close hbusy => exact .inr (.inr ⟨_, rfl, hbusy, rfl⟩)

/-- What a call of a client can do. -/
theorem Step.client_cases {call : ClientCall} {w w' : SqliteWorld Conn} {a : call.Answer}
    (h : Step assume conn (.inr call) w a w') :
  ∃ world, World.Step assume conn (.inr call) w.world a world ∧ w' = { w with world }
  := by
  cases h with
  | client hstep => exact ⟨_, hstep, rfl⟩

/-- Other processes can rely on a call that is made where its guard holds. -/
theorem Step.rely {other : Conn} (hother : other ≠ conn) {call : Sqlite3Call ⊕ ClientCall}
    {w w' : SqliteWorld Conn} {a : Sum.elim Sqlite3Call.Answer ClientCall.Answer call}
    (hinv : w.world.Inv) (hguard : Guard conn call w) (h : Step assume conn call w a w') :
  Rely other w w'
  := by
  cases call with
  | inl call =>
    obtain ⟨heap, -, rfl⟩ | ⟨op, a', heap, world, hdoes, hstep, rfl⟩ | ⟨db, rfl, -, rfl⟩ := h.cases
    · constructor
      · exact .refl other w.world
      · apply setHeap_other hother
    · constructor
      · exact hstep.rely hother hinv (hguard.2 _ _ _ _ hdoes)
      · apply setHeap_other hother
    · constructor
      · exact (World.respects assume).halt hother rfl
      · apply setHeap_other hother
  | inr call =>
    obtain ⟨world, hstep, rfl⟩ := h.client_cases
    constructor
    · exact hstep.rely hother hinv hguard
    · rfl

theorem respects (assume : Assumptions) :
  Threads.Respects (sqliteClients assume) (contract : Threads.Contract Conn _ _)
  where
  refl := Rely.refl
  trans _ _ _ _ := Rely.trans
  step hother hguard hstep := hstep.rely hother hguard.1 hguard.2
  env := by rintro _ _ _ ⟨⟩
  halt := by
    rintro conn other w _ hother rfl
    constructor
    · exact (World.respects assume).halt hother rfl
    · apply setHeap_other hother

/-! ### Refinement -/

/-- The calls of the repository and of a client. -/
def repositoryLevel (assume : Assumptions) (conn : Conn) :
    Level (SqliteCall ⊕ ClientCall) (Sum.elim SqliteCall.Answer ClientCall.Answer) (World Conn) where
  step := World.Step assume conn
  rely := World.Rely conn
  guard := World.contract.guard conn
  refl := .refl conn
  trans _ _ _ := .trans

/-- The calls of the C interface and of a client. -/
def sqliteLevel (assume : Assumptions) (conn : Conn) :
    Level (Sqlite3Call ⊕ ClientCall) (Sum.elim Sqlite3Call.Answer ClientCall.Answer)
      (SqliteWorld Conn) where
  step := Step assume conn
  rely := Rely conn
  guard := contract.guard conn
  refl := .refl conn
  trans _ _ _ := .trans

/-- What the C interface does is seen at the database. -/
def lowering (assume : Assumptions) (conn : Conn) :
    Lowering (sqliteLevel assume conn) (repositoryLevel assume conn) where
  view := world
  rely _ _ h := h.world

/-- A program that makes calls of the C interface simulates one of the repository. -/
abbrev Simulates (assume : Assumptions) (conn : Conn) {α β : Type} (J : SqliteWorld Conn → Prop)
    (p : Sqlite3Prog α) (q : Repository β) (S : α → Repository β → SqliteWorld Conn → Prop) : Prop :=
  (lowering assume conn).inl.Simulates J p q S

/-- A program that makes calls of the C interface refines one of the repository. -/
abbrev Refines (assume : Assumptions) (conn : Conn) {α β : Type} (J : SqliteWorld Conn → Prop)
    (p : Sqlite3Prog α) (q : Repository β) (R : α → β → SqliteWorld Conn → Prop) : Prop :=
  (lowering assume conn).inl.Refines J p q R

/-- The objects of a process satisfy `P`. -/
def At (conn : Conn) (P : SqliteHeap → Prop) (w : SqliteWorld Conn) : Prop :=
  w.world.Inv ∧ P (w.heap conn)

theorem At.rely {P : SqliteHeap → Prop} {w w' : SqliteWorld Conn} (hrely : Rely conn w w')
    (h : At conn P w) :
  At conn P w'
  := by
  use hrely.world.inv h.1
  rw [hrely.heap]
  exact h.2

variable {α β : Type} {P : SqliteHeap → Prop} {S : α → Repository β → SqliteWorld Conn → Prop}

/-- A call that the repository does not see. -/
theorem simulates_heap {call : Sqlite3Call} {k : call.Answer → Sqlite3Prog α} {q : Repository β}
    (hclose : ∀ db, call ≠ .close db) (hpermits : ∀ heap, P heap → heap.Permits call)
    (hdoes : ∀ heap a op a' heap', P heap → ¬ heap.Does call a op a' heap')
    (hstep : ∀ heap a heap', P heap → heap.Step call a heap' →
      ∃ P' : SqliteHeap → Prop, P' heap' ∧ Simulates assume conn (At conn P') (k a) q S) :
  Simulates assume conn (At conn P) (.call call k) q S
  := by
  apply Lowering.simulates_hidden (fun _ _ => At.rely) (A := fun a w =>
    ∃ J, J w ∧ Simulates assume conn J (k a) q S)
  · intro w h
    use h.1, hpermits _ h.2
    intro a op a' heap h'
    cases hdoes _ _ _ _ _ h.2 h'
  · intro w a w' h hcall
    obtain ⟨heap, h', rfl⟩ | ⟨op, a', heap, world, h', -⟩ | ⟨db, rfl, -⟩ := Step.cases hcall
    · obtain ⟨P', hP', hk⟩ := hstep _ _ _ h.2 h'
      refine ⟨rfl, _, ⟨h.1, ?_⟩, hk⟩
      rw [setHeap_self]
      exact hP'
    · cases hdoes _ _ _ _ _ h.2 h'
    · cases hclose db rfl
  · intro a
    apply Lowering.simulates_of_exists
    exact fun _ => id

/-- A call that does what a call of the repository does. -/
theorem simulates_database {call : Sqlite3Call} {k : call.Answer → Sqlite3Prog α} {op : SqliteCall}
    {k' : op.Answer → Repository β} (hclose : ∀ db, call ≠ .close db)
    (hpermits : ∀ heap, P heap → heap.Permits call)
    (hstep : ∀ heap a heap', P heap → ¬ heap.Step call a heap')
    (hdoes : ∀ heap a op' a' heap', P heap → heap.Does call a op' a' heap' →
      ∃ (h : op' = op) (P' : SqliteHeap → Prop), P' heap' ∧
        Simulates assume conn (At conn P') (k a) (k' (h ▸ a')) S) :
  Simulates assume conn (At conn P) (.call call k) (.call op k') S
  := by
  apply Lowering.simulates_call (fun _ _ => At.rely) (A := fun a a' w =>
    ∃ J, J w ∧ Simulates assume conn J (k a) (k' a') S)
  · intro w h hguard
    use h.1, hpermits _ h.2
    intro a op' a' heap h'
    obtain ⟨rfl, -⟩ := hdoes _ _ _ _ _ h.2 h'
    exact hguard.2
  · intro w a w' h hguard hcall
    obtain ⟨heap, h', -⟩ | ⟨op', a', heap, world, h', hworld, rfl⟩ | ⟨db, rfl, -⟩ := Step.cases hcall
    · cases hstep _ _ _ h.2 h'
    · obtain ⟨rfl, P', hP', hk⟩ := hdoes _ _ _ _ _ h.2 h'
      have hheap : ({ w.setHeap conn heap with world } : SqliteWorld Conn).heap conn = heap :=
        setHeap_self ..
      refine ⟨a', hworld, _, ⟨(h.1.step hguard.2 hworld).1, ?_⟩, hk⟩
      rw [hheap]
      exact hP'
    · cases hclose db rfl
  · intro a a'
    apply Lowering.simulates_of_exists
    exact fun _ => id

/-- A program returns, and leaves the other one to do. -/
theorem simulates_return {a : α} {q : Repository β} (h : ∀ w, At conn P w → S a q w) :
  Simulates assume conn (At conn P) (.ret a) q S
  := by
  apply Lowering.simulates_ret
  intro w w' hrely hw
  apply h w' (hw.rely hrely)

/-- Both programs return. -/
theorem refines_return {a : α} {b : β} {A : α → β → SqliteHeap → Prop}
    (h : ∀ heap, P heap → A a b heap) :
  Refines assume conn (At conn P) (.ret a) (.ret b) fun a b => At conn (A a b)
  := by
  apply simulates_return
  exact fun w hw => ⟨b, rfl, hw.1, h _ hw.2⟩

/-- Programs that follow each other. -/
theorem refines_bind {γ δ : Type} {p : Sqlite3Prog α} {q : Repository β} {g : α → Sqlite3Prog γ}
    {h : β → Repository δ} {A : α → β → SqliteHeap → Prop}
    {S : γ → Repository δ → SqliteWorld Conn → Prop}
    (hp : Refines assume conn (At conn P) p q fun a b => At conn (A a b))
    (hg : ∀ a b heap, A a b heap →
      ∃ P' : SqliteHeap → Prop, P' heap ∧ Simulates assume conn (At conn P') (g a) (h b) S) :
  Simulates assume conn (At conn P) (p >>= g) (q >>= h) S
  := by
  apply Lowering.refines_bind hp
  intro a b
  apply Lowering.simulates_of_exists
  rintro w ⟨hinv, hA⟩
  obtain ⟨P', hP', hsimulates⟩ := hg a b _ hA
  exact ⟨_, ⟨hinv, hP'⟩, hsimulates⟩

/-- The message of the last call that has failed. -/
theorem simulates_errmsg {db : Sqlite3} {k : Bytes → Sqlite3Prog α} {q : Repository β} {error : Bytes}
    (hP : ∀ heap, P heap → heap.objects.Refers db .connection ∧ heap.error = error)
    (hk : Simulates assume conn (At conn P) (k error) q S) :
  Simulates assume conn (At conn P) (.call (.errmsg db) k) q S
  := by
  apply simulates_heap (by rintro _ ⟨⟩)
  · exact fun heap h => (hP heap h).1
  · rintro _ _ _ _ _ _ ⟨⟩
  · rintro heap a _ h ⟨⟩
    use P, h
    rw [(hP heap h).2]
    exact hk

end SqliteWorld

end OpcuaServer
