import Mathlib.Data.List.Basic
import Mathlib.Tactic.Common

/-!
# Handles

A process obtains handles of objects and closes them. The value of a handle can be given to another
handle once it has been closed, so a value denotes the handle that was obtained last with it.

`Handles Object` are all the handles that have been obtained, the newest first, each with the number
of times that it has been closed.
-/

/-- A handle that has been obtained. -/
structure Handle (Object : Type) where
  value : ℕ
  object : Object
  /-- How often it has been closed. -/
  closed : ℕ

/-- All the handles that have been obtained, the newest first. -/
abbrev Handles (Object : Type) := List (Handle Object)

namespace Handles

variable {Object : Type} {hs : Handles Object} {value value' : ℕ} {o o' : Object}

/-- The value denotes an open handle of the object. -/
def Refers (hs : Handles Object) (value : ℕ) (o : Object) : Prop :=
  hs.find? (·.value = value) = some ⟨value, o, 0⟩

/-- The value denotes an open handle. -/
def IsOpen (hs : Handles Object) (value : ℕ) : Prop :=
  ∃ o, hs.Refers value o

/-- The handle that the value denotes is closed. -/
def close (value : ℕ) : Handles Object → Handles Object
  | [] => []
  | h :: hs =>
      if h.value = value then { h with closed := h.closed + 1 } :: hs else h :: close value hs

/-- Every handle has been closed exactly once. -/
def AllClosed (hs : Handles Object) : Prop :=
  ∀ h ∈ hs, h.closed = 1

/-- The only open handle is one of the object, with the value, and every other has been closed
exactly once. -/
inductive Sole (value : ℕ) (o : Object) : Handles Object → Prop where
  | here {hs : Handles Object} : AllClosed hs → Sole value o (⟨value, o, 0⟩ :: hs)
  | there {h : Handle Object} {hs : Handles Object} :
      h.value ≠ value → h.closed = 1 → Sole value o hs → Sole value o (h :: hs)

theorem allClosed_nil :
  AllClosed ([] : Handles Object)
  := by
  intro h hh
  cases hh

theorem AllClosed.cons {h : Handle Object} (hclosed : h.closed = 1) (hall : AllClosed hs) :
  AllClosed (h :: hs)
  := by
  intro h' hh
  rcases List.mem_cons.mp hh with rfl | hh
  · apply hclosed
  · apply hall h' hh

/-- A closed handle is denoted by no value. -/
theorem AllClosed.not_isOpen (h : AllClosed hs) :
  ¬ hs.IsOpen value
  := by
  rintro ⟨o, ho⟩
  have hclosed := h _ (List.mem_of_find?_eq_some ho)
  cases hclosed

/-- The newest handle is denoted by its value. -/
theorem refers_newest :
  Refers (⟨value, o, 0⟩ :: hs) value o
  := by simp [Refers]

theorem Sole.refers (h : hs.Sole value o) :
  hs.Refers value o
  := by
  induction h with
  | here => simp [Refers]
  | there hne _ _ ih =>
    rw [Refers, List.find?_cons_of_neg (by simpa using hne)]
    apply ih

/-- The value denotes one object. -/
theorem Refers.unique (h : hs.Refers value o) (h' : hs.Refers value o') :
  o = o'
  := by
  have heq := h.symm.trans h'
  cases heq
  rfl

/-- A further handle with another value. -/
theorem Refers.cons {h : Handle Object} (hrefers : hs.Refers value o) (hne : h.value ≠ value) :
  Refers (h :: hs) value o
  := by
  rw [Refers, List.find?_cons_of_neg (by simpa using hne)]
  apply hrefers

/-- No other value denotes an open handle. -/
theorem Sole.unique (h : hs.Sole value o) (hrefers : hs.Refers value' o') :
  value' = value ∧ o' = o
  := by
  induction h with
  | @here hs hclosed =>
    by_cases hvalue : value = value'
    · subst hvalue
      exact ⟨rfl, hrefers.unique refers_newest⟩
    · rw [Refers, List.find?_cons_of_neg (by simpa using hvalue)] at hrefers
      cases hclosed.not_isOpen ⟨o', hrefers⟩
  | @there h hs hne hclosed _ ih =>
    by_cases hvalue : h.value = value'
    · rw [Refers, List.find?_cons_of_pos (by simpa using hvalue)] at hrefers
      cases hrefers
      cases hclosed
    · rw [Refers, List.find?_cons_of_neg (by simpa using hvalue)] at hrefers
      apply ih hrefers

/-- Once the only open handle is closed, every handle has been closed exactly once. -/
theorem Sole.close (h : hs.Sole value o) :
  AllClosed (hs.close value)
  := by
  induction h with
  | here hclosed =>
    rw [Handles.close, if_pos rfl]
    apply AllClosed.cons _ hclosed
    rfl
  | there hne hclosed _ ih =>
    rw [Handles.close, if_neg hne]
    apply AllClosed.cons hclosed ih

/-- A handle that is obtained where there is no open one is the only open one. -/
theorem AllClosed.obtain (h : AllClosed hs) (value : ℕ) (o : Object) :
  Sole value o (⟨value, o, 0⟩ :: hs)
  := .here h

/-- A further handle that is obtained and closed leaves the only open one. -/
theorem Sole.closeNewest (h : hs.Sole value o) (hne : value' ≠ value) :
  Sole value o (Handles.close value' (⟨value', o', 0⟩ :: hs))
  := by
  rw [Handles.close, if_pos rfl]
  exact .there hne rfl h

end Handles
