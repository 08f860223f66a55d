import Mathlib.Logic.Function.Basic
import Mathlib.Logic.Relation
import Mathlib.Tactic.Common

/-!
# Atomic objects

An object that threads ask for something, one request of each thread at a time. A request takes
effect at one moment between the request and its answer, and the effects happen one after the other.
So the requests and the answers are linearizable (`AtomicObject.linear_of_reaches`): the effects make
up a sequential history of the object in which every thread sees the answers that it has been given,
and what has been answered comes before what is asked later (`AtomicObject.history_of_reaches`). A
system whose threads share an object is linearizable if its requests and answers are those of an
atomic object.
-/

namespace AtomicObject

variable {Tid V Req Resp : Type} [DecidableEq Tid]

/-- Where a request of a thread is. -/
inductive Phase (Req Resp : Type) where
  | idle
  | asked (request : Req)
  /-- The request has taken effect, and is going to be answered. -/
  | effected (request : Req) (response : Resp)

namespace Phase

/-- The request that has not taken effect. -/
def waiting : Phase Req Resp → List Req
  | .asked request => [request]
  | _ => []

/-- The response that has not been given. -/
def owed : Phase Req Resp → List Resp
  | .effected _ response => [response]
  | _ => []

end Phase

/-- What the threads see of an object. -/
inductive Event (Tid Req Resp : Type) where
  | asked (t : Tid) (request : Req)
  | answered (t : Tid) (response : Resp)

namespace Event

/-- The request of the thread. -/
def request (t : Tid) : Event Tid Req Resp → Option Req
  | .asked u request => if u = t then some request else none
  | .answered _ _ => none

/-- The response to the thread. -/
def response (t : Tid) : Event Tid Req Resp → Option Resp
  | .asked _ _ => none
  | .answered u response => if u = t then some response else none

end Event

/-- The value of the object, the requests of the threads, what the threads have seen, and the effects
so far. -/
structure State (Tid V Req Resp : Type) where
  value : V
  phase : Tid → Phase Req Resp := fun _ => .idle
  /-- What the threads have seen, the oldest first. -/
  events : List (Event Tid Req Resp) := []
  /-- The requests that have taken effect, the oldest first. -/
  history : List (Tid × Req × Resp) := []

namespace State

/-- A thread asks for something. -/
def ask (s : State Tid V Req Resp) (t : Tid) (request : Req) : State Tid V Req Resp :=
  { s with
    phase := Function.update s.phase t (.asked request)
    events := s.events ++ [.asked t request] }

/-- What a thread has asked for takes effect. -/
def effect (s : State Tid V Req Resp) (t : Tid) (request : Req) (response : Resp) (value : V) :
    State Tid V Req Resp :=
  { s with
    value
    phase := Function.update s.phase t (.effected request response)
    history := s.history ++ [(t, request, response)] }

/-- A thread is answered. -/
def answer (s : State Tid V Req Resp) (t : Tid) (response : Resp) : State Tid V Req Resp :=
  { s with
    phase := Function.update s.phase t .idle
    events := s.events ++ [.answered t response] }

/-- The requests of a thread. -/
def asksOf (s : State Tid V Req Resp) (t : Tid) : List Req :=
  s.events.filterMap (Event.request t)

/-- The responses to a thread. -/
def answersOf (s : State Tid V Req Resp) (t : Tid) : List Resp :=
  s.events.filterMap (Event.response t)

/-- The effects of a thread. -/
def historyOf (s : State Tid V Req Resp) (t : Tid) : List (Tid × Req × Resp) :=
  s.history.filter fun entry => entry.1 = t

variable {s : State Tid V Req Resp} {t u : Tid} {request : Req} {response : Resp} {value : V}

@[simp]
theorem phase_ask :
  (s.ask t request).phase = Function.update s.phase t (.asked request)
  := rfl

@[simp]
theorem phase_effect :
  (s.effect t request response value).phase =
    Function.update s.phase t (.effected request response)
  := rfl

@[simp]
theorem phase_answer :
  (s.answer t response).phase = Function.update s.phase t .idle
  := rfl

@[simp]
theorem asksOf_ask :
  (s.ask t request).asksOf u = s.asksOf u ++ if t = u then [request] else []
  := by
  rw [asksOf, ask, List.filterMap_append]
  split_ifs with htu
  · simp [asksOf, Event.request, htu]
  · simp [asksOf, Event.request, htu]

@[simp]
theorem asksOf_effect :
  (s.effect t request response value).asksOf u = s.asksOf u
  := rfl

@[simp]
theorem asksOf_answer :
  (s.answer t response).asksOf u = s.asksOf u
  := by
  rw [asksOf, answer, List.filterMap_append]
  apply List.append_nil

@[simp]
theorem answersOf_ask :
  (s.ask t request).answersOf u = s.answersOf u
  := by
  rw [answersOf, ask, List.filterMap_append]
  apply List.append_nil

@[simp]
theorem answersOf_effect :
  (s.effect t request response value).answersOf u = s.answersOf u
  := rfl

@[simp]
theorem answersOf_answer :
  (s.answer t response).answersOf u = s.answersOf u ++ if t = u then [response] else []
  := by
  rw [answersOf, answer, List.filterMap_append]
  split_ifs with htu
  · simp [answersOf, Event.response, htu]
  · simp [answersOf, Event.response, htu]

@[simp]
theorem historyOf_ask :
  (s.ask t request).historyOf u = s.historyOf u
  := rfl

@[simp]
theorem historyOf_answer :
  (s.answer t response).historyOf u = s.historyOf u
  := rfl

@[simp]
theorem historyOf_effect :
  (s.effect t request response value).historyOf u =
    s.historyOf u ++ if t = u then [(t, request, response)] else []
  := by
  rw [historyOf, effect, List.filter_append]
  split_ifs with htu
  · simp [historyOf, htu]
  · simp [historyOf, htu]

end State

/-- What a request can be answered, and what it makes of the value of the object. -/
abbrev Spec (V Req Resp : Type) := Req → V → Resp → V → Prop

/-- A step of the atomic object. -/
inductive Step (spec : Spec V Req Resp) :
    State Tid V Req Resp → State Tid V Req Resp → Prop where
  | ask {s : State Tid V Req Resp} {t : Tid} {request : Req} :
      s.phase t = .idle → Step spec s (s.ask t request)
  | effect {s : State Tid V Req Resp} {t : Tid} {request : Req} {response : Resp} {value : V} :
      s.phase t = .asked request → spec request s.value response value →
      Step spec s (s.effect t request response value)
  | answer {s : State Tid V Req Resp} {t : Tid} {request : Req} {response : Resp} :
      s.phase t = .effected request response → Step spec s (s.answer t response)

/-- The object can come from one state to another. -/
def Reaches (spec : Spec V Req Resp) : State Tid V Req Resp → State Tid V Req Resp → Prop :=
  Relation.ReflTransGen (Step spec)

/-- The requests, one after the other, make one value of the other. -/
inductive Replays (spec : Spec V Req Resp) (v : V) : List (Tid × Req × Resp) → V → Prop where
  | nil : Replays spec v [] v
  | snoc {history : List (Tid × Req × Resp)} {v' v'' : V} {t : Tid} {request : Req}
      {response : Resp} :
      Replays spec v history v' → spec request v' response v'' →
      Replays spec v (history ++ [(t, request, response)]) v''

/-- The effects of a thread are those of its requests, but for one that it waits for, and it has been
given their responses, but for one that it is owed. -/
structure LinearFor (t : Tid) (s : State Tid V Req Resp) : Prop where
  asked : s.asksOf t = (s.historyOf t).map (fun entry => entry.2.1) ++ (s.phase t).waiting
  answered : (s.historyOf t).map (fun entry => entry.2.2) = s.answersOf t ++ (s.phase t).owed

/-- What the threads have seen is linearizable: the effects so far make up the value, and those of
each thread are what it has seen. -/
structure Linear (spec : Spec V Req Resp) (v : V) (s : State Tid V Req Resp) : Prop where
  replays : Replays spec v s.history s.value
  threads : ∀ t, LinearFor t s

theorem linear_start (spec : Spec V Req Resp) (v : V) :
  Linear spec v ({ value := v } : State Tid V Req Resp)
  := ⟨.nil, fun _ => ⟨rfl, rfl⟩⟩

theorem LinearFor.step {spec : Spec V Req Resp} {s s' : State Tid V Req Resp} {u : Tid}
    (h : LinearFor u s) (hstep : Step spec s s') :
  LinearFor u s'
  := by
  obtain ⟨hasked, hanswered⟩ := h
  cases hstep with
  | @ask t _ hphase =>
    by_cases hut : u = t
    · subst hut
      rw [hphase] at hasked hanswered
      constructor
      · simpa [Phase.waiting] using hasked
      · simpa [Phase.owed] using hanswered
    · constructor
      · simpa [hut, Ne.symm hut] using hasked
      · simpa [hut] using hanswered
  | @effect t _ _ _ hphase =>
    by_cases hut : u = t
    · subst hut
      rw [hphase] at hasked hanswered
      constructor
      · simpa [Phase.waiting] using hasked
      · simpa [Phase.owed] using hanswered
    · constructor
      · simpa [hut, Ne.symm hut] using hasked
      · simpa [hut, Ne.symm hut] using hanswered
  | @answer t _ _ hphase =>
    by_cases hut : u = t
    · subst hut
      rw [hphase] at hasked hanswered
      constructor
      · simpa [Phase.waiting] using hasked
      · simpa [Phase.owed] using hanswered
    · constructor
      · simpa [hut] using hasked
      · simpa [hut, Ne.symm hut] using hanswered

theorem Linear.step {spec : Spec V Req Resp} {v : V} {s s' : State Tid V Req Resp}
    (h : Linear spec v s) (hstep : Step spec s s') :
  Linear spec v s'
  := by
  refine ⟨?_, fun t => (h.threads t).step hstep⟩
  cases hstep with
  | ask | answer => exact h.replays
  | effect _ hspec => exact h.replays.snoc hspec

/-- The requests and the answers of an atomic object are linearizable. -/
theorem linear_of_reaches {spec : Spec V Req Resp} {v : V} {s : State Tid V Req Resp}
    (h : Reaches spec { value := v } s) :
  Linear spec v s
  := by
  induction h with
  | refl => apply linear_start
  | tail _ hstep ih => apply ih.step hstep

/-- What is asked later takes effect later. -/
theorem history_of_reaches {spec : Spec V Req Resp} {s s' : State Tid V Req Resp}
    (h : Reaches spec s s') :
  s.history <+: s'.history
  := by
  induction h with
  | refl => exact List.prefix_rfl
  | tail _ hstep ih =>
    cases hstep with
    | ask | answer => exact ih
    | effect => exact ih.trans (List.prefix_append _ _)

end AtomicObject
