import Mathlib.Data.Int.Notation
import Mathlib.Data.Nat.Notation
import Mathlib.Data.Option.Basic
import Mathlib.Logic.Relation
import Mathlib.Tactic.Common

/-!
# The children of a process

The children that a process has forked, in the order in which it has forked them. A child is alive,
then a zombie, and then it has been reaped, from which on its pid may be that of another child.

A child is told from the others by its number, and `Sole children o` says that `o` is the only
child that has not been reaped.
-/

/-- Where a child is in its life: `ρ` are the reapers and `σ` the statuses with which it ends. -/
inductive Life (ρ σ : Type) where
  | alive
  | zombie (status : σ)
  | reaped (reaper : ρ) (status : σ)

/-- A child that has been forked. -/
structure Child (ρ σ : Type) where
  pid : ℤ
  life : Life ρ σ

/-- The children that have been forked. -/
abbrev Children (ρ σ : Type) := List (Child ρ σ)

variable {ρ σ : Type}

/-- The child has not been reaped. -/
def Life.unreaped : Life ρ σ → Bool
  | .reaped _ _ => false
  | _ => true

namespace Children

variable {children children' : Children ρ σ}

/-- The child has not been reaped. -/
def Unreaped (children : Children ρ σ) (n : ℕ) : Prop :=
  ∃ child, children[n]? = some child ∧ child.life.unreaped = true

/-- The child has the pid and has not been reaped. -/
def Refers (children : Children ρ σ) (pid : ℤ) (n : ℕ) : Prop :=
  ∃ child, children[n]? = some child ∧ child.pid = pid ∧ child.life.unreaped = true

/-- The child that has the pid and has not been reaped. -/
def find (children : Children ρ σ) (pid : ℤ) : Option ℕ :=
  children.findIdx? fun child => child.pid = pid ∧ child.life.unreaped

/-- Where the child is in its life. -/
def life (children : Children ρ σ) (n : ℕ) : Option (Life ρ σ) :=
  children[n]?.map Child.life

/-- The pid of no child that has not been reaped. -/
def Fresh (children : Children ρ σ) (pid : ℤ) : Prop :=
  0 < pid ∧ ∀ n, ¬ children.Refers pid n

/-- A child ends. -/
def Ends (children children' : Children ρ σ) : Prop :=
  ∃ n pid status, children[n]? = some ⟨pid, .alive⟩ ∧
    children' = children.set n ⟨pid, .zombie status⟩

/-- The child, which has ended, is reaped. -/
def Reaps (reaper : ρ) (n : ℕ) (pid : ℤ) (status : σ) (children children' : Children ρ σ) : Prop :=
  children[n]? = some ⟨pid, .zombie status⟩ ∧ children' = children.set n ⟨pid, .reaped reaper status⟩

theorem Refers.unreaped {pid : ℤ} {n : ℕ} (h : children.Refers pid n) :
  children.Unreaped n
  := by
  obtain ⟨child, hchild, -, hlife⟩ := h
  exact ⟨child, hchild, hlife⟩

theorem Unreaped.exists {n : ℕ} (h : children.Unreaped n) :
  ∃ pid, children.Refers pid n
  := by
  obtain ⟨child, hchild, hlife⟩ := h
  exact ⟨child.pid, child, hchild, rfl, hlife⟩

theorem find_eq_none {pid : ℤ} (h : ∀ n, ¬ children.Refers pid n) :
  children.find pid = none
  := by
  rw [find, List.findIdx?_eq_none_iff]
  intro child hchild
  obtain ⟨n, hn⟩ := List.mem_iff_getElem?.mp hchild
  by_contra hrefers
  simp only [Bool.not_eq_false, decide_eq_true_eq] at hrefers
  apply h n ⟨child, hn, hrefers⟩

/-! ### Growing older -/

/-- What can become of a child that nobody reaps. -/
inductive Ages : Child ρ σ → Child ρ σ → Prop where
  | same {child : Child ρ σ} : Ages child child
  | ended {pid : ℤ} {status : σ} : Ages ⟨pid, .alive⟩ ⟨pid, .zombie status⟩

/-- What can become of the children while the process neither forks nor reaps. -/
def Age (children children' : Children ρ σ) : Prop :=
  ∀ n : ℕ, Option.Rel Ages children[n]? children'[n]?

theorem Age.refl (children : Children ρ σ) :
  children.Age children
  := by
  intro n
  cases children[n]? with
  | none => exact .none
  | some child => exact .some .same

theorem Ages.trans {child₁ child₂ child₃ : Child ρ σ} (h : Ages child₁ child₂)
    (h' : Ages child₂ child₃) :
  Ages child₁ child₃
  := by
  cases h with
  | same => apply h'
  | ended =>
    cases h' with
    | same => exact .ended

theorem Age.trans {children₁ children₂ children₃ : Children ρ σ} (h : children₁.Age children₂)
    (h' : children₂.Age children₃) :
  children₁.Age children₃
  := by
  intro n
  have hn := h n
  have hn' := h' n
  generalize children₁[n]? = child₁ at hn
  generalize children₂[n]? = child₂ at hn hn'
  generalize children₃[n]? = child₃ at hn'
  cases hn with
  | none =>
    cases hn' with
    | none => exact .none
  | some hages =>
    cases hn' with
    | some hages' => exact .some (hages.trans hages')

/-- A child that ends grows older. -/
theorem Ends.age (h : Ends children children') :
  children.Age children'
  := by
  obtain ⟨n, pid, status, hn, rfl⟩ := h
  intro m
  rw [List.getElem?_set]
  split
  · rename_i heq
    subst heq
    have hlt : n < children.length := (List.getElem?_eq_some_iff.mp hn).1
    rw [hn, if_pos hlt]
    exact .some .ended
  · apply Age.refl children m

/-- A child that grows older is still the one it was. -/
theorem Age.refers_iff (h : children.Age children') {pid : ℤ} {n : ℕ} :
  children'.Refers pid n ↔ children.Refers pid n
  := by
  have hn := h n
  unfold Refers
  generalize children[n]? = child at hn
  generalize children'[n]? = child' at hn
  cases hn with
  | none => rfl
  | some hages =>
    cases hages with
    | same => rfl
    | ended => simp [Life.unreaped]

theorem Age.unreaped_iff (h : children.Age children') {n : ℕ} :
  children'.Unreaped n ↔ children.Unreaped n
  := by
  constructor
  · intro hn
    obtain ⟨pid, hpid⟩ := hn.exists
    apply (h.refers_iff.mp hpid).unreaped
  · intro hn
    obtain ⟨pid, hpid⟩ := hn.exists
    apply (h.refers_iff.mpr hpid).unreaped

/-- The children that have been reaped do not grow older. -/
theorem Age.reaped_iff (h : children.Age children') {n : ℕ} {reaper : ρ} {status : σ} :
  children'.life n = some (.reaped reaper status) ↔
    children.life n = some (.reaped reaper status)
  := by
  have hage := h n
  unfold life
  generalize children[n]? = child at *
  generalize children'[n]? = child' at *
  cases hage with
  | none => rfl
  | some hages =>
    cases hages with
    | same => rfl
    | ended => simp

/-- A child that has been reaped was reaped when it was younger. -/
theorem Age.reaped (h : children.Age children') {n : ℕ} {reaper : ρ} {status : σ}
    (hn : children'.life n = some (.reaped reaper status)) :
  children.life n = some (.reaped reaper status)
  := by
  apply h.reaped_iff.mp hn

/-- A child that grows older stays one of the children. -/
theorem Age.isSome_life (h : children.Age children') {n : ℕ} :
  (children'.life n).isSome = (children.life n).isSome
  := by
  have hage := h n
  unfold life
  generalize children[n]? = child at *
  generalize children'[n]? = child' at *
  cases hage with
  | none => rfl
  | some => rfl

/-! ### The only child -/

/-- The child, if any, is the only one that has not been reaped. -/
def Sole (children : Children ρ σ) (o : Option ℕ) : Prop :=
  ∀ n, children.Unreaped n ↔ o = some n

theorem sole_nil :
  Sole ([] : Children ρ σ) none
  := by
  intro n
  constructor
  · rintro ⟨child, hchild, -⟩
    cases hchild
  · rintro ⟨⟩

theorem Sole.not_refers (h : children.Sole none) (pid : ℤ) (n : ℕ) :
  ¬ children.Refers pid n
  := by
  intro hn
  cases (h n).mp hn.unreaped

theorem Sole.eq {o : Option ℕ} (h : children.Sole o) {pid : ℤ} {n : ℕ}
    (hn : children.Refers pid n) :
  o = some n
  := (h n).mp hn.unreaped

theorem Sole.age {o : Option ℕ} (h : children.Sole o) (hage : children.Age children') :
  children'.Sole o
  := fun n => hage.unreaped_iff.trans (h n)

/-- The only child is found by its pid. -/
theorem Sole.find_eq {pid : ℤ} {n : ℕ} (h : children.Sole (some n)) (hn : children.Refers pid n) :
  children.find pid = some n
  := by
  rw [find, List.findIdx?_eq_some_iff_getElem]
  obtain ⟨child, hchild, hpid, hlife⟩ := hn
  obtain ⟨hlt, hget⟩ := List.getElem?_eq_some_iff.mp hchild
  use hlt
  constructor
  · rw [hget, decide_eq_true_eq]
    exact ⟨hpid, hlife⟩
  · intro m hm
    rw [decide_eq_true_eq]
    rintro ⟨-, hlife'⟩
    have hunreaped : children.Unreaped m :=
      ⟨_, List.getElem?_eq_getElem (Nat.lt_trans hm hlt), hlife'⟩
    have heq := Option.some.inj ((h m).mp hunreaped)
    omega

/-- A child is forked where none is left to be reaped. -/
theorem Sole.fork (h : children.Sole none) (pid : ℤ) :
  Sole (children ++ [⟨pid, .alive⟩]) (some children.length) ∧
    Refers (children ++ [⟨pid, .alive⟩]) pid children.length
  := by
  have hlast : (children ++ [⟨pid, .alive⟩])[children.length]? = some ⟨pid, .alive⟩ := by
    simp
  constructor
  · intro n
    constructor
    · rintro ⟨child, hchild, hlife⟩
      rcases Nat.lt_or_ge n children.length with hlt | hge
      · rw [List.getElem?_append_left hlt] at hchild
        cases (h n).mp ⟨child, hchild, hlife⟩
      · have hlt := (List.getElem?_eq_some_iff.mp hchild).1
        simp only [List.length_append, List.length_singleton] at hlt
        congr 1
        omega
    · intro heq
      obtain rfl := Option.some.inj heq
      exact ⟨_, hlast, rfl⟩
  · exact ⟨_, hlast, rfl, rfl⟩

/-- A child that has been reaped is the one it was after another one has been forked. -/
theorem life_append {pid : ℤ} {n : ℕ} {reaper : ρ} {status : σ}
    (hn : life (children ++ [⟨pid, .alive⟩]) n = some (.reaped reaper status)) :
  children.life n = some (.reaped reaper status)
  := by
  unfold life at *
  rcases Nat.lt_or_ge n children.length with hlt | hge
  · rw [List.getElem?_append_left hlt] at hn
    apply hn
  · rw [List.getElem?_append_right hge] at hn
    cases hsub : n - children.length with
    | zero => simp [hsub] at hn
    | succ k => simp [hsub] at hn

/-- A child is the one it was after another one has been forked. -/
theorem life_append_of_some {pid : ℤ} {n : ℕ} {l : Life ρ σ} (hn : children.life n = some l) :
  life (children ++ [⟨pid, .alive⟩]) n = some l
  := by
  unfold life at *
  obtain ⟨child, hchild, rfl⟩ := Option.map_eq_some_iff.mp hn
  have hlt := (List.getElem?_eq_some_iff.mp hchild).1
  rw [List.getElem?_append_left hlt, hchild]
  rfl

theorem Reaps.refers {reaper : ρ} {n : ℕ} {pid : ℤ} {status : σ}
    (h : Reaps reaper n pid status children children') :
  children.Refers pid n
  := ⟨_, h.1, rfl, rfl⟩

/-- The only child is reaped. -/
theorem Sole.reap {o : Option ℕ} (h : children.Sole o) {reaper : ρ} {n : ℕ} {pid : ℤ} {status : σ}
    (hreap : Reaps reaper n pid status children children') :
  o = some n ∧ children'.Sole none
  := by
  obtain rfl := h.eq hreap.refers
  use rfl
  intro m
  constructor
  · rintro ⟨child, hchild, hlife⟩
    rw [hreap.2, List.getElem?_set] at hchild
    split at hchild
    · split at hchild
      · obtain rfl := Option.some.inj hchild
        cases hlife
      · cases hchild
    · rename_i hne
      cases hne (Option.some.inj ((h m).mp ⟨child, hchild, hlife⟩))
  · rintro ⟨⟩

/-- What has been reaped is the child or had been reaped before. -/
theorem Reaps.life {reaper : ρ} {n : ℕ} {pid : ℤ} {status : σ}
    (h : Reaps reaper n pid status children children') :
  children'.life n = some (.reaped reaper status) ∧ ∀ m, m ≠ n → children'.life m = children.life m
  := by
  obtain ⟨hn, rfl⟩ := h
  have hlt : n < children.length := (List.getElem?_eq_some_iff.mp hn).1
  constructor
  · simp [Children.life, hlt]
  · intro m hm
    simp [Children.life, List.getElem?_set_ne hm.symm]

/-- A child that has been reaped stays so when another one is reaped. -/
theorem Reaps.life_of_reaped {reaper reaper' : ρ} {n m : ℕ} {pid : ℤ} {status status' : σ}
    (h : Reaps reaper n pid status children children')
    (hm : children.life m = some (.reaped reaper' status')) :
  children'.life m = some (.reaped reaper' status')
  := by
  rw [h.life.2 m]
  · apply hm
  · rintro rfl
    rw [Children.life, h.1] at hm
    cases hm

/-- A child that has been reaped stays so when another one ends. -/
theorem Ends.life_of_reaped (h : Ends children children') {n : ℕ} {reaper : ρ} {status : σ}
    (hn : children.life n = some (.reaped reaper status)) :
  children'.life n = some (.reaped reaper status)
  := by
  apply h.age.reaped_iff.mpr hn

end Children
